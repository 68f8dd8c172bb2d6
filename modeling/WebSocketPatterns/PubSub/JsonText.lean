import WebSocketPatterns.PubSub.MessageJson
import WebSocketPatterns.Text.Numeral
import WebSocketPatterns.Text.StringLiteral

/-!
# JSON texts

`dumps` and `loads` are `json.dumps` and `json.loads` with their default
arguments. The values and the texts of floats are a parameter, as is the text of
the `JSONDecodeError` of a rejected document; the interpreter's limits on nesting
and on the digits of an `int` are not modelled. A document that escapes half a
surrogate pair is rejected, since its string is no sequence of characters.
-/

namespace WebSocketPatterns.PubSub

/-- `float.__repr__` and `float(text)`: a finite float is written as a numeral that is no
integer's and is read back as itself. -/
structure FloatText where
  IsFloat : ℚ → Prop
  repr : ℚ → Numeral
  parse : Numeral → PyFloat
  repr_isInteger : ∀ x, IsFloat x → (repr x).isInteger = false
  parse_repr : ∀ x, IsFloat x → parse (repr x) = .finite x

namespace Json

section Dumps

variable (floats : FloatText)

def dumpsFloat : PyFloat → List Char
  | .finite x => (floats.repr x).text
  | .infinity false => ['I', 'n', 'f', 'i', 'n', 'i', 't', 'y']
  | .infinity true => ['-', 'I', 'n', 'f', 'i', 'n', 'i', 't', 'y']
  | .nan => ['N', 'a', 'N']

def dumpsKey (key : String) : List Char :=
  StringLiteral.quote key.toList ++ [':', ' ']

mutual

/-- `json.dumps(value)`. -/
def dumps : Json → List Char
  | null => ['n', 'u', 'l', 'l']
  | bool true => ['t', 'r', 'u', 'e']
  | bool false => ['f', 'a', 'l', 's', 'e']
  | int n => (Numeral.ofInt n).text
  | float x => dumpsFloat floats x
  | str s => StringLiteral.quote s.toList
  | list [] => ['[', ']']
  | list (item :: items) => '[' :: (dumps item ++ dumpsItems items)
  | dict [] => ['\x7b', '\x7d']
  | dict ((key, value) :: members) =>
      '\x7b' :: (dumpsKey key ++ (dumps value ++ dumpsMembers members))

/-- The items of an array behind its first one. -/
def dumpsItems : List Json → List Char
  | [] => [']']
  | item :: items => ',' :: ' ' :: (dumps item ++ dumpsItems items)

/-- The members of an object behind its first one. -/
def dumpsMembers : List (String × Json) → List Char
  | [] => ['\x7d']
  | (key, value) :: members =>
      ',' :: ' ' :: (dumpsKey key ++ (dumps value ++ dumpsMembers members))

end

mutual

/-- Every finite float in a value is one of the machine's. -/
def Representable : Json → Prop
  | float (.finite x) => floats.IsFloat x
  | list items => RepresentableItems items
  | dict members => RepresentableMembers members
  | _ => True

def RepresentableItems : List Json → Prop
  | [] => True
  | item :: items => Representable item ∧ RepresentableItems items

def RepresentableMembers : List (String × Json) → Prop
  | [] => True
  | (_, value) :: members => Representable value ∧ RepresentableMembers members

end

end Dumps

section Loads

variable (floats : FloatText)

def isSpace (c : Char) : Bool := c == ' ' || c == '\t' || c == '\n' || c == '\r'

def skipSpace (cs : List Char) : List Char := cs.dropWhile isSpace

def scanWord : List Char → Option (Json × List Char)
  | 'n' :: 'u' :: 'l' :: 'l' :: cs => some (null, cs)
  | 't' :: 'r' :: 'u' :: 'e' :: cs => some (bool true, cs)
  | 'f' :: 'a' :: 'l' :: 's' :: 'e' :: cs => some (bool false, cs)
  | 'N' :: 'a' :: 'N' :: cs => some (float .nan, cs)
  | 'I' :: 'n' :: 'f' :: 'i' :: 'n' :: 'i' :: 't' :: 'y' :: cs => some (float (.infinity false), cs)
  | '-' :: 'I' :: 'n' :: 'f' :: 'i' :: 'n' :: 'i' :: 't' :: 'y' :: cs =>
      some (float (.infinity true), cs)
  | _ => none

/-- `parse_int` or `parse_float`. -/
def ofNumeral (d : Numeral) : Json :=
  if d.isInteger then int d.toInt else float (floats.parse d)

def scanAtom (cs : List Char) : Option (Json × List Char) :=
  match scanWord cs with
  | some found => some found
  | none => (Numeral.scan cs).map fun found => (ofNumeral floats found.1, found.2)

def scanString : List Char → Option (String × List Char)
  | '\x22' :: cs => (StringLiteral.scan cs).map fun found => (String.ofList found.1, found.2)
  | _ => none

/-- The name of a member, its colon and the space behind it. -/
def scanKey (cs : List Char) : Option (String × List Char) :=
  match scanString cs with
  | none => none
  | some (key, cs) =>
      match skipSpace cs with
      | ':' :: cs => some (key, skipSpace cs)
      | _ => none

mutual

/-- `scan_once`: the value at the head of a text, and the text behind it. -/
def scanOnce : Nat → List Char → Option (Json × List Char)
  | 0, _ => none
  | fuel + 1, cs =>
      match cs with
      | '\x22' :: cs => (scanString ('\x22' :: cs)).map fun found => (str found.1, found.2)
      | '[' :: cs =>
          match skipSpace cs with
          | ']' :: rest => some (list [], rest)
          | cs => (scanItems fuel cs).map fun found => (list found.1, found.2)
      | '\x7b' :: cs =>
          match skipSpace cs with
          | '\x7d' :: rest => some (dict [], rest)
          | cs => (scanMembers fuel cs).map fun found => (dict found.1, found.2)
      | cs => scanAtom floats cs

/-- The items up to the closing bracket, at least one. -/
def scanItems : Nat → List Char → Option (List Json × List Char)
  | 0, _ => none
  | fuel + 1, cs =>
      match scanOnce fuel cs with
      | none => none
      | some (item, cs) =>
          match skipSpace cs with
          | ']' :: rest => some ([item], rest)
          | ',' :: cs =>
              (scanItems fuel (skipSpace cs)).map fun found => (item :: found.1, found.2)
          | _ => none

/-- The members up to the closing brace, at least one. -/
def scanMembers : Nat → List Char → Option (List (String × Json) × List Char)
  | 0, _ => none
  | fuel + 1, cs =>
      match scanKey cs with
      | none => none
      | some (key, cs) =>
          match scanOnce fuel cs with
          | none => none
          | some (value, cs) =>
              match skipSpace cs with
              | '\x7d' :: rest => some ([(key, value)], rest)
              | ',' :: cs =>
                  (scanMembers fuel (skipSpace cs)).map fun found =>
                    ((key, value) :: found.1, found.2)
              | _ => none

end

/-- `json.loads(raw)`: one value with nothing but space around it. -/
def loads (errorText : String → String) (raw : String) : Except String Json :=
  match scanOnce floats (2 * raw.toList.length + 1) (skipSpace raw.toList) with
  | some (value, rest) =>
      if skipSpace rest = [] then .ok value else .error (errorText raw)
  | none => .error (errorText raw)

end Loads

section Space

variable {cs tail rest : List Char} {c : Char}

theorem skipSpace_of_not_space (hc : isSpace c = false) (cs : List Char) :
    skipSpace (c :: cs) = c :: cs := by
  rw [skipSpace, List.dropWhile_cons_of_neg (by simp [hc])]

theorem skipSpace_append (more : List Char) (h : skipSpace cs = c :: tail) :
    skipSpace (cs ++ more) = c :: (tail ++ more) := by
  rw [skipSpace] at h
  rw [skipSpace, List.dropWhile_append, h]
  simp

theorem length_skipSpace_le (cs : List Char) : (skipSpace cs).length ≤ cs.length :=
  (List.dropWhile_sublist _).length_le

/-- Space before a character that ends a numeral ends it, too. -/
theorem head_of_skipSpace (h : skipSpace cs = c :: tail) (hc : Numeral.isStop c = true) :
    ∃ a t, cs = a :: t ∧ Numeral.isStop a = true := by
  cases cs with
  | nil => simp [skipSpace] at h
  | cons a t =>
      refine ⟨a, t, rfl, ?_⟩
      by_cases ha : isSpace a = true
      · simp only [isSpace, Bool.or_eq_true, beq_iff_eq] at ha
        rcases ha with ((rfl | rfl) | rfl) | rfl <;> rfl
      · rw [skipSpace_of_not_space (by simpa using ha)] at h
        rw [(List.cons_eq_cons.mp h).1, hc]

end Space

section Atoms

variable (floats : FloatText) {cs rest : List Char} {v : Json}

theorem scanWord_append (more : List Char) (h : scanWord cs = some (v, rest)) :
    scanWord (cs ++ more) = some (v, rest ++ more) := by
  rw [scanWord.eq_def] at h
  split at h
  case h_7 => simp at h
  all_goals
    obtain ⟨rfl, rfl⟩ := Prod.mk.inj (Option.some.inj h)
    rfl

theorem length_scanWord (h : scanWord cs = some (v, rest)) : rest.length < cs.length := by
  rw [scanWord.eq_def] at h
  split at h
  case h_7 => simp at h
  all_goals
    obtain ⟨rfl, rfl⟩ := Prod.mk.inj (Option.some.inj h)
    simp only [List.length_cons]
    omega

/-- No word starts as a numeral does. -/
theorem scanWord_of_numeral {d : Numeral} (h : Numeral.scan cs = some (d, rest)) :
    scanWord cs = none := by
  obtain ⟨c, tail, hcs, hc⟩ := Numeral.scan_head h
  rw [scanWord.eq_def]
  split
  case h_7 => rfl
  all_goals
    exfalso
    rcases hcs with hcs | hcs
    · rw [← (List.cons_eq_cons.mp hcs).1] at hc
      simp at hc
    · obtain ⟨hminus, hcs⟩ := List.cons_eq_cons.mp hcs
      rw [← (List.cons_eq_cons.mp hcs).1] at hc
      simp at hc hminus

theorem scanAtom_of_numeral {d : Numeral} (h : Numeral.scan cs = some (d, rest)) :
    scanAtom floats cs = some (ofNumeral floats d, rest) := by
  simp only [scanAtom, scanWord_of_numeral h, h, Option.map_some]

theorem scanAtom_append (more : List Char) {c : Char} {t : List Char}
    (h : scanAtom floats cs = some (v, c :: t)) (hc : Numeral.isStop c = true) :
    scanAtom floats (cs ++ more) = some (v, c :: (t ++ more)) := by
  simp only [scanAtom] at h
  cases hword : scanWord cs with
  | some found =>
      simp only [hword, Option.some.injEq] at h
      rw [h] at hword
      simp only [scanAtom, scanWord_append more hword, List.cons_append]
  | none =>
      simp only [hword, Option.map_eq_some_iff, Prod.mk.injEq] at h
      obtain ⟨⟨d, rest⟩, hscan, rfl, rfl⟩ := h
      exact scanAtom_of_numeral floats (Numeral.scan_append more hscan hc)

theorem length_scanAtom (h : scanAtom floats cs = some (v, rest)) : rest.length < cs.length := by
  simp only [scanAtom] at h
  cases hword : scanWord cs with
  | some found =>
      simp only [hword, Option.some.injEq] at h
      exact length_scanWord (hword.trans (congrArg some h))
  | none =>
      simp only [hword, Option.map_eq_some_iff, Prod.mk.injEq] at h
      obtain ⟨⟨d, rest'⟩, hscan, -, rfl⟩ := h
      exact Numeral.length_scan hscan

end Atoms

section Keys

variable {cs rest : List Char} {s : String}

theorem scanString_quote (s : String) (rest : List Char) :
    scanString (StringLiteral.quote s.toList ++ rest) = some (s, rest) := by
  simp only [StringLiteral.quote, List.cons_append, List.append_assoc, List.nil_append, scanString,
    StringLiteral.scan_quoted, Option.map_some, String.ofList_toList]

theorem scanString_append (more : List Char) (h : scanString cs = some (s, rest)) :
    scanString (cs ++ more) = some (s, rest ++ more) := by
  rw [scanString.eq_def] at h
  split at h
  · simp only [Option.map_eq_some_iff, Prod.mk.injEq] at h
    obtain ⟨⟨chars, rest'⟩, hscan, rfl, rfl⟩ := h
    simp only [List.cons_append, scanString, StringLiteral.scan_append more hscan, Option.map_some]
  · simp at h

theorem length_scanString (h : scanString cs = some (s, rest)) : rest.length < cs.length := by
  rw [scanString.eq_def] at h
  split at h
  · simp only [Option.map_eq_some_iff, Prod.mk.injEq] at h
    obtain ⟨⟨chars, rest'⟩, hscan, -, rfl⟩ := h
    exact (StringLiteral.length_scan hscan).trans (Nat.lt_succ_self _)
  · simp at h

theorem scanKey_dumpsKey (key : String) {c : Char} (hc : isSpace c = false) (rest : List Char) :
    scanKey (dumpsKey key ++ c :: rest) = some (key, c :: rest) := by
  have hcolon : skipSpace (':' :: ' ' :: c :: rest) = ':' :: ' ' :: c :: rest :=
    skipSpace_of_not_space rfl _
  have hspace : skipSpace (' ' :: c :: rest) = c :: rest := skipSpace_of_not_space hc rest
  simp only [scanKey, dumpsKey, List.append_assoc, List.cons_append, List.nil_append,
    scanString_quote, hcolon, hspace]

/-- A key is read up to the first character of its value. -/
theorem scanKey_append (more : List Char) {c : Char} {t : List Char}
    (h : scanKey cs = some (s, c :: t)) : scanKey (cs ++ more) = some (s, c :: (t ++ more)) := by
  simp only [scanKey] at h
  cases hstring : scanString cs with
  | none => simp [hstring] at h
  | some found =>
      obtain ⟨key, afterKey⟩ := found
      simp only [hstring] at h
      split at h
      · rename_i afterColon hcolon
        obtain ⟨rfl, hvalue⟩ := Prod.mk.inj (Option.some.inj h)
        simp only [scanKey, scanString_append more hstring, skipSpace_append more hcolon,
          skipSpace_append more hvalue]
      · simp at h

theorem length_scanKey (h : scanKey cs = some (s, rest)) : rest.length < cs.length := by
  simp only [scanKey] at h
  cases hstring : scanString cs with
  | none => simp [hstring] at h
  | some found =>
      obtain ⟨key, afterKey⟩ := found
      simp only [hstring] at h
      split at h
      · rename_i afterColon hcolon
        obtain ⟨-, rfl⟩ := Prod.mk.inj (Option.some.inj h)
        have hspace := length_skipSpace_le afterKey
        rw [hcolon, List.length_cons] at hspace
        have := length_skipSpace_le afterColon
        have := length_scanString hstring
        omega
      · simp at h

end Keys

end Json

/-- `Message.to_json`. -/
def toJson (floats : FloatText) (msg : DecodedMessage) : String :=
  String.ofList (Json.dumps floats (.dict
    [("channel", msg.channel), ("payload", msg.payload), ("timestamp", msg.timestamp),
      ("publisher_id", msg.publisherId)]))

end WebSocketPatterns.PubSub
