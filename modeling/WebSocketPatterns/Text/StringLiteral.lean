import WebSocketPatterns.Collections.Hex
import Mathlib.Algebra.Order.Group.Nat
import Mathlib.Data.List.Flatten

/-!
# String literals in printable characters

A string is written between quotes: printable characters other than the quote
and the backslash stand for themselves, some controls have a short escape, and
every other character is escaped by its UTF-16 code units, a character beyond the
first plane by a surrogate pair. Reading collects characters and code units up
to the closing quote and then joins the pairs.
-/

namespace StringLiteral

/-- The escapes of one letter that are written. -/
def shortEscapes : List (Char × Char) :=
  [('\x22', '\x22'), ('\\', '\\'), ('\x08', 'b'), ('\x0c', 'f'), ('\n', 'n'), ('\r', 'r'),
    ('\t', 't')]

/-- The escapes of one letter that are read. -/
def backslashes : List (Char × Char) :=
  [('\x22', '\x22'), ('\\', '\\'), ('/', '/'), ('b', '\x08'), ('f', '\x0c'), ('n', '\n'),
    ('r', '\r'), ('t', '\t')]

def isPrintable (c : Char) : Bool := decide (0x20 ≤ c.toNat) && decide (c.toNat ≤ 0x7e)

def unitText (n : Nat) : List Char := '\\' :: 'u' :: hexDigits 4 n

/-- One character as it stands between the quotes. -/
def escape (c : Char) : List Char :=
  match shortEscapes.lookup c with
  | some letter => ['\\', letter]
  | none =>
      if isPrintable c then [c]
      else if c.toNat < 0x10000 then unitText c.toNat
      else unitText (0xd800 + (c.toNat - 0x10000) / 0x400) ++
        unitText (0xdc00 + (c.toNat - 0x10000) % 0x400)

/-- A string with its quotes. -/
def quote (s : List Char) : List Char := '\x22' :: (s.flatMap escape ++ ['\x22'])

/-- A character, or a code unit that was written as an escape. -/
inductive Piece
  | char (c : Char)
  | unit (n : Nat)

def hexValue (c : Char) : Option Nat :=
  if c.isDigit then some (c.toNat - 48)
  else if 97 ≤ c.toNat ∧ c.toNat ≤ 102 then some (c.toNat - 87)
  else if 65 ≤ c.toNat ∧ c.toNat ≤ 70 then some (c.toNat - 55)
  else none

/-- The code unit of four hexadecimal digits. -/
def unitValue (a b c d : Char) : Option Nat := do
  let w ← hexValue a
  let x ← hexValue b
  let y ← hexValue c
  let z ← hexValue d
  return ((w * 16 + x) * 16 + y) * 16 + z

/-- The pieces up to the closing quote, and the text behind it. Control characters must be
escaped. -/
def scanPieces : List Char → Option (List Piece × List Char)
  | [] => none
  | '\x22' :: cs => some ([], cs)
  | '\\' :: 'u' :: a :: b :: c :: d :: cs =>
      match unitValue a b c d, scanPieces cs with
      | some n, some (pieces, rest) => some (.unit n :: pieces, rest)
      | _, _ => none
  | '\\' :: letter :: cs =>
      match backslashes.lookup letter, scanPieces cs with
      | some c, some (pieces, rest) => some (.char c :: pieces, rest)
      | _, _ => none
  | c :: cs =>
      if c.toNat < 0x20 then none
      else match scanPieces cs with
        | some (pieces, rest) => some (.char c :: pieces, rest)
        | none => none

def isHigh (n : Nat) : Bool := decide (0xd800 ≤ n) && decide (n < 0xdc00)

def isLow (n : Nat) : Bool := decide (0xdc00 ≤ n) && decide (n < 0xe000)

/-- The string of the pieces; half a surrogate pair is no character. -/
def joinPieces : List Piece → Option (List Char)
  | [] => some []
  | .char c :: pieces => (joinPieces pieces).map (c :: ·)
  | .unit hi :: .unit lo :: pieces =>
      if isHigh hi && isLow lo then
        (joinPieces pieces).map (Char.ofNat (0x10000 + (hi - 0xd800) * 0x400 + (lo - 0xdc00)) :: ·)
      else if isHigh hi || isLow hi then none
      else (joinPieces (.unit lo :: pieces)).map (Char.ofNat hi :: ·)
  | .unit n :: pieces =>
      if isHigh n || isLow n then none
      else (joinPieces pieces).map (Char.ofNat n :: ·)

/-- The string behind an opening quote, and the text behind its closing quote. -/
def scan (cs : List Char) : Option (List Char × List Char) :=
  match scanPieces cs with
  | some (pieces, rest) => (joinPieces pieces).map fun s => (s, rest)
  | none => none

section ScanEscape

/-- The pieces that the escape of a character is read as. -/
def pieces (c : Char) : List Piece :=
  match shortEscapes.lookup c with
  | some _ => [.char c]
  | none =>
      if isPrintable c then [.char c]
      else if c.toNat < 0x10000 then [.unit c.toNat]
      else [.unit (0xd800 + (c.toNat - 0x10000) / 0x400),
        .unit (0xdc00 + (c.toNat - 0x10000) % 0x400)]

theorem mem_of_lookup {α β : Type*} [BEq α] [LawfulBEq α] {table : List (α × β)} {a : α} {b : β}
    (h : table.lookup a = some b) : (a, b) ∈ table := by
  induction table with
  | nil => simp at h
  | cons entry table ih =>
      obtain ⟨key, value⟩ := entry
      rw [List.lookup_cons] at h
      split at h
      · rename_i heq
        obtain rfl := eq_of_beq heq
        simp [Option.some.inj h]
      · exact List.mem_cons_of_mem _ (ih h)

theorem backslashes_of_shortEscapes {c letter : Char} (h : shortEscapes.lookup c = some letter) :
    backslashes.lookup letter = some c ∧ letter ≠ 'u' := by
  have hall : ∀ entry ∈ shortEscapes,
      backslashes.lookup entry.2 = some entry.1 ∧ entry.2 ≠ 'u' := by decide
  exact hall _ (mem_of_lookup h)

theorem hexValue_digitChar {n : Nat} (hn : n < 16) : hexValue (Nat.digitChar n) = some n := by
  have hall : ∀ n < 16, hexValue (Nat.digitChar n) = some n := by decide
  exact hall n hn

theorem unitValue_hexDigits {n : Nat} (hn : n < 0x10000) :
    ∃ a b c d, hexDigits 4 n = [a, b, c, d] ∧ unitValue a b c d = some n := by
  refine ⟨_, _, _, _, rfl, ?_⟩
  simp only [unitValue, hexValue_digitChar (Nat.mod_lt _ (by decide : 0 < 16)), Option.bind_eq_bind,
    Option.bind_some, Option.pure_def, Option.some.injEq]
  omega

theorem scanPieces_unitText {n : Nat} (hn : n < 0x10000) (cs : List Char) :
    scanPieces (unitText n ++ cs) =
      (scanPieces cs).map fun found => (.unit n :: found.1, found.2) := by
  obtain ⟨a, b, c, d, htext, hvalue⟩ := unitValue_hexDigits hn
  simp only [unitText, htext, List.cons_append, List.nil_append, scanPieces, hvalue]
  cases scanPieces cs <;> rfl

theorem scanPieces_plain {c : Char} (hquote : c ≠ '\x22') (hslash : c ≠ '\\')
    (hcontrol : 0x20 ≤ c.toNat) (cs : List Char) :
    scanPieces (c :: cs) = (scanPieces cs).map fun found => (.char c :: found.1, found.2) := by
  rw [scanPieces, if_neg (by omega)]
  · cases scanPieces cs <;> rfl
  · exact hquote
  · intro _ _ _ _ _ h
    exact absurd h hslash
  · intro _ _ h
    exact absurd h hslash

theorem scanPieces_short {c letter : Char} (h : shortEscapes.lookup c = some letter)
    (cs : List Char) :
    scanPieces ('\\' :: letter :: cs) =
      (scanPieces cs).map fun found => (.char c :: found.1, found.2) := by
  obtain ⟨hread, hu⟩ := backslashes_of_shortEscapes h
  rw [scanPieces, hread]
  · cases scanPieces cs <;> rfl
  · intro _ _ _ _ _ hletter
    exact absurd hletter hu

/-- What a character is escaped to is read as its pieces. -/
theorem scanPieces_escape (c : Char) (cs : List Char) :
    scanPieces (escape c ++ cs) =
      (scanPieces cs).map fun found => (pieces c ++ found.1, found.2) := by
  rw [escape, pieces]
  cases hshort : shortEscapes.lookup c with
  | some letter => exact scanPieces_short hshort cs
  | none =>
      by_cases hprintable : isPrintable c = true
      · have hquote : c ≠ '\x22' := by
          rintro rfl
          exact absurd hshort (by decide)
        have hslash : c ≠ '\\' := by
          rintro rfl
          exact absurd hshort (by decide)
        simp only [hprintable, if_true, List.cons_append, List.nil_append]
        simp only [isPrintable, Bool.and_eq_true, decide_eq_true_eq] at hprintable
        exact scanPieces_plain hquote hslash hprintable.1 cs
      · simp only [hprintable, if_false, Bool.false_eq_true]
        have hmax : c.toNat < 0x110000 := by
          have := c.valid
          simp only [UInt32.isValidChar, Nat.isValidChar] at this
          rw [Char.toNat]
          omega
        by_cases hplane : c.toNat < 0x10000
        · simp only [if_pos hplane]
          exact scanPieces_unitText hplane cs
        · simp only [if_neg hplane, List.append_assoc]
          rw [scanPieces_unitText (by omega), scanPieces_unitText (by omega), Option.map_map]
          rfl

end ScanEscape

section JoinPieces

theorem joinPieces_unit {n : Nat} (hhigh : isHigh n = false) (hlow : isLow n = false)
    (ps : List Piece) :
    joinPieces (.unit n :: ps) = (joinPieces ps).map (Char.ofNat n :: ·) := by
  rcases ps with _ | ⟨_ | m, ps⟩ <;> simp [joinPieces, hhigh, hlow]

/-- The pieces of a character are joined to it. -/
theorem joinPieces_pieces (c : Char) (ps : List Piece) :
    joinPieces (pieces c ++ ps) = (joinPieces ps).map (c :: ·) := by
  have hvalid : c.toNat < 0xd800 ∨ (0xdfff < c.toNat ∧ c.toNat < 0x110000) := by
    have := c.valid
    simp only [UInt32.isValidChar, Nat.isValidChar] at this
    exact this
  rw [pieces]
  cases shortEscapes.lookup c with
  | some letter => rfl
  | none =>
      by_cases hprintable : isPrintable c = true
      · simp only [hprintable, if_true]
        rfl
      · simp only [hprintable, if_false, Bool.false_eq_true]
        by_cases hplane : c.toNat < 0x10000
        · have hhigh : isHigh c.toNat = false := by
            simp only [isHigh, Bool.and_eq_false_iff, decide_eq_false_iff_not]
            omega
          have hlow : isLow c.toNat = false := by
            simp only [isLow, Bool.and_eq_false_iff, decide_eq_false_iff_not]
            omega
          simp only [if_pos hplane, List.cons_append, List.nil_append]
          rw [joinPieces_unit hhigh hlow, Char.ofNat_toNat]
        · have hhigh : isHigh (0xd800 + (c.toNat - 0x10000) / 0x400) = true := by
            simp only [isHigh, Bool.and_eq_true, decide_eq_true_eq]
            omega
          have hlow : isLow (0xdc00 + (c.toNat - 0x10000) % 0x400) = true := by
            simp only [isLow, Bool.and_eq_true, decide_eq_true_eq]
            omega
          have hcode : 0x10000 + (0xd800 + (c.toNat - 0x10000) / 0x400 - 0xd800) * 0x400 +
              (0xdc00 + (c.toNat - 0x10000) % 0x400 - 0xdc00) = c.toNat := by
            omega
          simp only [if_neg hplane, List.cons_append, List.nil_append, joinPieces, hhigh, hlow,
            Bool.and_self, if_true, hcode, Char.ofNat_toNat]

end JoinPieces

section Scan

variable {cs rest : List Char}

theorem scanPieces_quoted (s rest : List Char) :
    scanPieces (s.flatMap escape ++ '\x22' :: rest) = some (s.flatMap pieces, rest) := by
  induction s with
  | nil => rfl
  | cons c s ih =>
      rw [List.flatMap_cons, List.append_assoc, scanPieces_escape, ih]
      rfl

theorem joinPieces_flatMap (s : List Char) : joinPieces (s.flatMap pieces) = some s := by
  induction s with
  | nil => rfl
  | cons c s ih =>
      rw [List.flatMap_cons, joinPieces_pieces, ih]
      rfl

/-- A quoted string is read back, and the text behind its closing quote is left. -/
theorem scan_quoted (s rest : List Char) :
    scan (s.flatMap escape ++ '\x22' :: rest) = some (s, rest) := by
  simp only [scan, scanPieces_quoted, joinPieces_flatMap, Option.map_some]

/-- What stands behind the closing quote has no part in the string. -/
theorem scanPieces_append (more : List Char) {ps : List Piece}
    (h : scanPieces cs = some (ps, rest)) : scanPieces (cs ++ more) = some (ps, rest ++ more) := by
  fun_induction scanPieces cs generalizing ps with
  | case1 => simp at h
  | case2 cs =>
      obtain ⟨rfl, rfl⟩ := Prod.mk.inj (Option.some.inj h)
      rfl
  | case3 a b c d cs n ps' rest' hcs hunit ih =>
      obtain ⟨rfl, rfl⟩ := Prod.mk.inj (Option.some.inj h)
      simp only [List.cons_append, scanPieces, hunit, ih hcs]
  | case5 letter cs _ c ps' rest' hcs hletter ih =>
      obtain ⟨rfl, rfl⟩ := Prod.mk.inj (Option.some.inj h)
      rw [List.cons_append, List.cons_append, scanPieces, hletter, ih hcs]
      -- No escape of one letter is `u`, so the longer text is not read as a code unit.
      intro _ _ _ _ _ hu
      have hnone : backslashes.lookup 'u' = none := rfl
      rw [hu, hnone] at hletter
      simp at hletter
  | case8 c cs hquote _ hslash hcontrol ps' rest' hcs ih =>
      obtain ⟨rfl, rfl⟩ := Prod.mk.inj (Option.some.inj h)
      by_cases hc : c = '\\'
      · -- A backslash at the end of the text starts no escape.
        cases cs with
        | nil => simp [scanPieces] at hcs
        | cons letter cs => exact (hslash letter cs hc rfl).elim
      · rw [List.cons_append, scanPieces_plain hquote hc (by omega), ih hcs]
        rfl
  | _ => simp at h

theorem length_scanPieces {ps : List Piece} (h : scanPieces cs = some (ps, rest)) :
    rest.length < cs.length := by
  fun_induction scanPieces cs generalizing ps with
  | case1 => simp at h
  | case2 cs =>
      obtain ⟨rfl, rfl⟩ := Prod.mk.inj (Option.some.inj h)
      simp
  | case3 a b c d cs n ps' rest' hcs _ ih | case5 letter cs _ c ps' rest' hcs _ ih
  | case8 c cs _ _ _ _ ps' rest' hcs ih =>
      obtain ⟨rfl, rfl⟩ := Prod.mk.inj (Option.some.inj h)
      have := ih hcs
      simp only [List.length_cons]
      omega
  | _ => simp at h

theorem scan_append (more : List Char) {s : List Char} (h : scan cs = some (s, rest)) :
    scan (cs ++ more) = some (s, rest ++ more) := by
  simp only [scan] at h
  cases hpieces : scanPieces cs with
  | none => simp [hpieces] at h
  | some found =>
      obtain ⟨ps, rest'⟩ := found
      simp only [hpieces, Option.map_eq_some_iff, Prod.mk.injEq] at h
      obtain ⟨s', hjoin, rfl, rfl⟩ := h
      simp only [scan, scanPieces_append more hpieces, hjoin, Option.map_some]

theorem length_scan {s : List Char} (h : scan cs = some (s, rest)) : rest.length < cs.length := by
  simp only [scan] at h
  cases hpieces : scanPieces cs with
  | none => simp [hpieces] at h
  | some found =>
      obtain ⟨ps, rest'⟩ := found
      simp only [hpieces, Option.map_eq_some_iff, Prod.mk.injEq] at h
      obtain ⟨s', -, -, rfl⟩ := h
      exact length_scanPieces hpieces

end Scan

section Printable

variable {c a : Char}

theorem isPrintable_digitChar {n : Nat} (hn : n < 16) : isPrintable (Nat.digitChar n) = true := by
  have hall : ∀ n < 16, isPrintable (Nat.digitChar n) = true := by decide
  exact hall n hn

theorem isPrintable_of_mem_unitText {n : Nat} (h : c ∈ unitText n) : isPrintable c = true := by
  have hmod : ∀ m, isPrintable (Nat.digitChar (m % 16)) = true :=
    fun m => isPrintable_digitChar (Nat.mod_lt _ (by decide))
  simp only [unitText, hexDigits, List.nil_append, List.cons_append, List.mem_cons,
    List.not_mem_nil, or_false] at h
  rcases h with rfl | rfl | rfl | rfl | rfl | rfl
  · rfl
  · rfl
  all_goals exact hmod _

theorem isPrintable_of_mem_escape (h : a ∈ escape c) : isPrintable a = true := by
  rw [escape] at h
  cases hshort : shortEscapes.lookup c with
  | some letter =>
      have hall : ∀ entry ∈ shortEscapes, isPrintable entry.2 = true := by decide
      simp only [hshort, List.mem_cons, List.not_mem_nil, or_false] at h
      rcases h with rfl | rfl
      · rfl
      · exact hall _ (mem_of_lookup hshort)
  | none =>
      simp only [hshort] at h
      split at h
      · rename_i hprintable
        rw [List.mem_singleton.mp h, hprintable]
      · split at h
        · exact isPrintable_of_mem_unitText h
        · rcases List.mem_append.mp h with h | h <;> exact isPrintable_of_mem_unitText h

/-- A literal holds no control character, no line break and nothing outside ASCII. -/
theorem isPrintable_of_mem_quote {s : List Char} (h : a ∈ quote s) : isPrintable a = true := by
  simp only [quote, List.mem_cons, List.mem_append, List.not_mem_nil, or_false,
    List.mem_flatMap] at h
  rcases h with rfl | ⟨c, -, h⟩ | rfl
  · rfl
  · exact isPrintable_of_mem_escape h
  · rfl

end Printable

end StringLiteral
