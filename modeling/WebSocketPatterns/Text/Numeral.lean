import Mathlib.Data.List.TakeWhile

/-!
# Decimal numerals

A numeral is a sign, a whole part without leading zeros, the digits of a fraction
and an exponent; without the last two it is the numeral of an integer. `text`
writes it and `scan` reads the longest numeral at the head of a text. The two
agree before every text that does not go on with the numeral, and what was read
up to such a point does not depend on what stands behind it.
-/

/-- A possibly empty sequence of decimal digits. -/
abbrev DigitText := { digits : List Char // ∀ c ∈ digits, c.isDigit = true }

structure Numeral where
  negative : Bool
  whole : Nat
  fraction : DigitText
  exponent : Option Int

namespace Numeral

/-- The numeral of an integer. -/
def ofInt (n : Int) : Numeral :=
  ⟨decide (n < 0), n.natAbs, ⟨[], by simp⟩, none⟩

/-- The integer of a numeral, its fraction and exponent ignored. -/
def toInt (d : Numeral) : Int :=
  if d.negative then - (d.whole : Int) else d.whole

def isInteger (d : Numeral) : Bool :=
  d.fraction.val.isEmpty && d.exponent.isNone

def signText (negative : Bool) : List Char :=
  if negative then ['-'] else []

def fractionText (fraction : DigitText) : List Char :=
  if fraction.val = [] then [] else '.' :: fraction.val

/-- At least two digits. -/
def exponentDigits (n : Nat) : List Char :=
  if n < 10 then '0' :: Nat.toDigits 10 n else Nat.toDigits 10 n

def exponentText : Option Int → List Char
  | none => []
  | some e => 'e' :: (if e < 0 then '-' else '+') :: exponentDigits e.natAbs

def text (d : Numeral) : List Char :=
  signText d.negative ++ (Nat.toDigits 10 d.whole ++
    (fractionText d.fraction ++ exponentText d.exponent))

/-- The digits at the head of a text. -/
def leadingDigits (cs : List Char) : DigitText :=
  ⟨cs.takeWhile Char.isDigit, fun _ h => List.mem_takeWhile_imp h⟩

def digitsValue (cs : List Char) : Nat :=
  Nat.ofDigitChars 10 (cs.takeWhile Char.isDigit) 0

def scanSign : List Char → Bool × List Char
  | '-' :: cs => (true, cs)
  | cs => (false, cs)

/-- A zero ends the whole part. -/
def scanWhole : List Char → Option (Nat × List Char)
  | '0' :: cs => some (0, cs)
  | cs => if cs.takeWhile Char.isDigit = [] then none
      else some (digitsValue cs, cs.dropWhile Char.isDigit)

/-- A point without a digit behind it is left where it is. -/
def scanFraction : List Char → DigitText × List Char
  | '.' :: cs => if cs.takeWhile Char.isDigit = [] then (⟨[], by simp⟩, '.' :: cs)
      else (leadingDigits cs, cs.dropWhile Char.isDigit)
  | cs => (⟨[], by simp⟩, cs)

def scanExponentSign : List Char → Bool × List Char
  | '+' :: cs => (false, cs)
  | '-' :: cs => (true, cs)
  | cs => (false, cs)

def isExponentMark (c : Char) : Bool := c == 'e' || c == 'E'

def scanExponent : List Char → Option Int × List Char
  | [] => (none, [])
  | c :: cs =>
      let (negative, ds) := scanExponentSign cs
      if isExponentMark c = false ∨ ds.takeWhile Char.isDigit = [] then (none, c :: cs)
      else (some (if negative then - (digitsValue ds : Int) else digitsValue ds),
        ds.dropWhile Char.isDigit)

/-- The longest numeral at the head of a text, and the text behind it. -/
def scan (cs : List Char) : Option (Numeral × List Char) :=
  let (negative, cs) := scanSign cs
  match scanWhole cs with
  | none => none
  | some (whole, cs) =>
      let (fraction, cs) := scanFraction cs
      let (exponent, cs) := scanExponent cs
      some (⟨negative, whole, fraction, exponent⟩, cs)

/-- A character that cannot go on with a numeral. -/
def isStop (c : Char) : Bool :=
  !(c.isDigit || c == '.' || isExponentMark c)

/-- A text at whose head a numeral ends. -/
def Stops (rest : List Char) : Prop :=
  ∀ c ∈ rest.head?, isStop c = true

@[simp] theorem isInteger_ofInt (n : Int) : (ofInt n).isInteger = true := rfl

@[simp] theorem toInt_ofInt (n : Int) : (ofInt n).toInt = n := by
  simp only [toInt, ofInt, decide_eq_true_eq]
  split <;> omega

section DigitRuns

variable {ds rest : List Char}

/-- A run of digits ends where no digit follows. -/
theorem takeWhile_digits (hds : ∀ c ∈ ds, c.isDigit = true)
    (hrest : ∀ c ∈ rest.head?, c.isDigit = false) :
    (ds ++ rest).takeWhile Char.isDigit = ds ∧ (ds ++ rest).dropWhile Char.isDigit = rest := by
  rw [List.takeWhile_append_of_pos hds, List.dropWhile_append_of_pos hds]
  cases rest with
  | nil => simp
  | cons c tail =>
      have hc : c.isDigit = false := hrest c rfl
      simp [hc]

/-- What follows a run that has ended does not change it. -/
theorem takeWhile_append_of_ended (more : List Char) {c : Char} {tail : List Char}
    (h : rest.dropWhile Char.isDigit = c :: tail) :
    (rest ++ more).takeWhile Char.isDigit = rest.takeWhile Char.isDigit ∧
      (rest ++ more).dropWhile Char.isDigit = c :: (tail ++ more) := by
  have hdrop : (rest ++ more).dropWhile Char.isDigit = c :: (tail ++ more) := by
    rw [List.dropWhile_append, h]
    simp
  refine ⟨?_, hdrop⟩
  have hlonger := List.takeWhile_append_dropWhile (p := Char.isDigit) (l := rest ++ more)
  have hshorter := List.takeWhile_append_dropWhile (p := Char.isDigit) (l := rest)
  rw [hdrop] at hlonger
  rw [h] at hshorter
  refine List.append_cancel_right (?_ : _ ++ c :: (tail ++ more) = _ ++ c :: (tail ++ more))
  rw [hlonger, ← List.cons_append, ← List.append_assoc, hshorter]

theorem digitsValue_of_takeWhile (h : (ds ++ rest).takeWhile Char.isDigit = ds) :
    digitsValue (ds ++ rest) = Nat.ofDigitChars 10 ds 0 := by
  rw [digitsValue, h]

theorem isDigit_of_mem_toDigits {n : Nat} {c : Char} (h : c ∈ Nat.toDigits 10 n) :
    c.isDigit = true :=
  Nat.isDigit_of_mem_toDigits (by decide) (by decide) h

theorem isDigit_of_mem_exponentDigits {n : Nat} {c : Char} (h : c ∈ exponentDigits n) :
    c.isDigit = true := by
  rw [exponentDigits] at h
  split at h
  · rcases List.mem_cons.mp h with rfl | h
    · rfl
    · exact isDigit_of_mem_toDigits h
  · exact isDigit_of_mem_toDigits h

theorem exponentDigits_ne_nil (n : Nat) : exponentDigits n ≠ [] := by
  rw [exponentDigits]
  split <;> simp

theorem value_exponentDigits (n : Nat) : Nat.ofDigitChars 10 (exponentDigits n) 0 = n := by
  rw [exponentDigits]
  split
  · simp [Nat.ofDigitChars_cons]
  · simp

end DigitRuns

section ScanText

variable {rest : List Char}

theorem not_digit_of_isStop {c : Char} (h : isStop c = true) : c.isDigit = false := by
  simp only [isStop, Bool.not_eq_true', Bool.or_eq_false_iff] at h
  exact h.1.1

/-- A text that stops after the exponent has no digit and no point at its head. -/
theorem Stops.head_exponentText (hrest : Stops rest) (e : Option Int) :
    ∀ c ∈ (exponentText e ++ rest).head?, c.isDigit = false ∧ c ≠ '.' := by
  intro c hc
  cases e with
  | none =>
      have hstop := hrest c hc
      simp only [isStop, Bool.not_eq_true', Bool.or_eq_false_iff, beq_eq_false_iff_ne] at hstop
      exact hstop.1
  | some e =>
      obtain rfl : 'e' = c := by simpa [exponentText] using hc
      decide

/-- The digits of an exponent are read back behind either sign. -/
theorem scanExponent_exponentText (hrest : Stops rest) (e : Option Int) :
    scanExponent (exponentText e ++ rest) = (e, rest) := by
  cases e with
  | none =>
      cases rest with
      | nil => rfl
      | cons c tail =>
          have hstop := hrest c rfl
          simp only [isStop, Bool.not_eq_true', Bool.or_eq_false_iff] at hstop
          simp [exponentText, scanExponent, hstop.2]
  | some e =>
      obtain ⟨htake, hdrop⟩ := takeWhile_digits
        (fun c (h : c ∈ exponentDigits e.natAbs) => isDigit_of_mem_exponentDigits h)
        (fun c hc => not_digit_of_isStop (hrest c hc))
      have hvalue := digitsValue_of_takeWhile htake
      rw [value_exponentDigits] at hvalue
      have hmark : ¬ (isExponentMark 'e' = false ∨ exponentDigits e.natAbs = []) := by
        simp [isExponentMark, exponentDigits_ne_nil]
      by_cases hneg : e < 0
      · have he : - (e.natAbs : Int) = e := by omega
        simp only [exponentText, hneg, if_true, List.cons_append, scanExponent, scanExponentSign,
          htake, hdrop, hvalue, if_neg hmark, he]
      · have he : (e.natAbs : Int) = e := by omega
        simp only [exponentText, hneg, if_false, List.cons_append, scanExponent, scanExponentSign,
          htake, hdrop, hvalue, if_neg hmark, Bool.false_eq_true, he]

theorem scanFraction_fractionText (fraction : DigitText)
    (hrest : ∀ c ∈ rest.head?, c.isDigit = false ∧ c ≠ '.') :
    scanFraction (fractionText fraction ++ rest) = (fraction, rest) := by
  obtain ⟨digits, hdigits⟩ := fraction
  by_cases hempty : digits = []
  · subst hempty
    cases rest with
    | nil => rfl
    | cons c tail =>
        have hc := (hrest c rfl).2
        simp only [fractionText, if_true, List.nil_append]
        rw [scanFraction]
        intro cs h
        exact hc (List.cons_eq_cons.mp h).1
  · obtain ⟨htake, hdrop⟩ := takeWhile_digits hdigits (fun c hc => (hrest c hc).1)
    simp [fractionText, hempty, scanFraction, leadingDigits, htake, hdrop]

/-- The digits of a whole part do not start with a zero, unless it is zero. -/
theorem toDigits_head {n : Nat} (hn : n ≠ 0) : ∀ cs, Nat.toDigits 10 n ≠ '0' :: cs := by
  induction n using Nat.strong_induction_on with
  | _ n ih =>
      intro cs h
      rw [Nat.toDigits_eq_if (by decide)] at h
      split at h
      · rename_i hlt
        have hchar := (List.cons_eq_cons.mp h).1
        have hnat := congrArg Char.toNat hchar
        rw [Nat.toNat_digitChar_of_lt_ten hlt] at hnat
        have : ('0' : Char).toNat = 48 := rfl
        omega
      · rename_i hge
        cases hdigits : Nat.toDigits 10 (n / 10) with
        | nil => exact Nat.toDigits_ne_nil hdigits
        | cons c tail =>
            rw [hdigits] at h
            obtain ⟨rfl, -⟩ := List.cons_eq_cons.mp h
            exact ih (n / 10) (by omega) (by omega) tail hdigits

theorem scanWhole_toDigits (n : Nat) (hrest : ∀ c ∈ rest.head?, c.isDigit = false) :
    scanWhole (Nat.toDigits 10 n ++ rest) = some (n, rest) := by
  by_cases hn : n = 0
  · subst hn
    rfl
  · obtain ⟨htake, hdrop⟩ := takeWhile_digits
      (fun c (h : c ∈ Nat.toDigits 10 n) => isDigit_of_mem_toDigits h) hrest
    have hvalue := digitsValue_of_takeWhile htake
    rw [Nat.ofDigitChars_ten_toDigits] at hvalue
    rw [scanWhole]
    · simp [htake, hdrop, hvalue]
    · intro cs h
      cases hdigits : Nat.toDigits 10 n with
      | nil => exact Nat.toDigits_ne_nil hdigits
      | cons c tail =>
          rw [hdigits] at h
          obtain ⟨rfl, -⟩ := List.cons_eq_cons.mp h
          exact toDigits_head hn tail hdigits

theorem scanSign_of_ne {a : Char} (ha : a ≠ '-') (cs : List Char) :
    scanSign (a :: cs) = (false, a :: cs) := by
  rw [scanSign]
  intro tail h
  exact ha (List.cons_eq_cons.mp h).1

theorem scanSign_signText (negative : Bool) (n : Nat) (rest : List Char) :
    scanSign (signText negative ++ (Nat.toDigits 10 n ++ rest)) =
      (negative, Nat.toDigits 10 n ++ rest) := by
  cases negative with
  | true => rfl
  | false =>
      simp only [signText, Bool.false_eq_true, if_false, List.nil_append]
      cases hdigits : Nat.toDigits 10 n with
      | nil => exact absurd hdigits Nat.toDigits_ne_nil
      | cons c tail =>
          apply scanSign_of_ne
          rintro rfl
          have hdash : '-' ∈ Nat.toDigits 10 n := by simp [hdigits]
          simpa using isDigit_of_mem_toDigits hdash

/-- A numeral is read back before every text that does not go on with it. -/
theorem scan_text (d : Numeral) (hrest : Stops rest) : scan (d.text ++ rest) = some (d, rest) := by
  have hexponent := scanExponent_exponentText hrest d.exponent
  have hfraction := scanFraction_fractionText d.fraction (hrest.head_exponentText d.exponent)
  have hpoint : ∀ c ∈ (fractionText d.fraction ++ (exponentText d.exponent ++ rest)).head?,
      c.isDigit = false := by
    intro c hc
    by_cases hempty : d.fraction.val = []
    · rw [fractionText, if_pos hempty] at hc
      exact (hrest.head_exponentText d.exponent c hc).1
    · obtain rfl : '.' = c := by simpa [fractionText, hempty] using hc
      decide
  have hwhole := scanWhole_toDigits d.whole hpoint
  have hsign := scanSign_signText d.negative d.whole
    (fractionText d.fraction ++ (exponentText d.exponent ++ rest))
  simp only [scan, text, List.append_assoc, hsign, hwhole, hfraction, hexponent]

end ScanText

section ScanAppend

variable {cs rest : List Char} (more : List Char) {c : Char}

/-- A mark or a stop behind the fraction: the exponent has ended, or there is none. -/
theorem scanExponent_append {e : Option Int} (h : scanExponent cs = (e, c :: rest))
    (hc : isStop c = true) :
    scanExponent (cs ++ more) = (e, c :: (rest ++ more)) ∧
      ∃ a tail, cs = a :: tail ∧ a ≠ '.' := by
  simp only [isStop, Bool.not_eq_true', Bool.or_eq_false_iff, beq_eq_false_iff_ne] at hc
  cases cs with
  | nil => simp [scanExponent] at h
  | cons a tail =>
      simp only [scanExponent] at h
      split at h
      · simp only [Prod.mk.injEq, List.cons.injEq] at h
        obtain ⟨rfl, rfl, rfl⟩ := h
        exact ⟨by simp [scanExponent, hc.2], a, tail, rfl, hc.1.2⟩
      · rename_i hmark
        obtain ⟨hmark, hdigits⟩ := not_or.mp hmark
        obtain ⟨rfl, hdrop⟩ := Prod.mk.inj h
        obtain ⟨htake', hdrop'⟩ := takeWhile_append_of_ended more hdrop
        have hsign : scanExponentSign (tail ++ more) =
            ((scanExponentSign tail).1, (scanExponentSign tail).2 ++ more) := by
          cases tail with
          | nil => simp [scanExponentSign] at hdigits
          | cons b tail =>
              rw [List.cons_append, scanExponentSign.eq_def, scanExponentSign.eq_def]
              split <;> simp_all
        refine ⟨?_, a, tail, rfl, ?_⟩
        · simp only [List.cons_append, scanExponent, hsign]
          rw [if_neg (by simp [htake', hmark, hdigits]), digitsValue, htake', ← digitsValue, hdrop']
        · simp only [isExponentMark, Bool.not_eq_false, Bool.or_eq_true, beq_iff_eq] at hmark
          rcases hmark with rfl | rfl <;> decide

/-- A fraction that was read up to something other than a point has ended. -/
theorem scanFraction_append {fraction : DigitText} (h : scanFraction cs = (fraction, c :: rest))
    (hpoint : c ≠ '.') :
    scanFraction (cs ++ more) = (fraction, c :: (rest ++ more)) ∧ ∃ a tail, cs = a :: tail := by
  rw [scanFraction.eq_def] at h
  split at h
  · rename_i cs
    split at h
    · obtain ⟨-, h⟩ := Prod.mk.inj h
      exact absurd (List.cons_eq_cons.mp h).1.symm hpoint
    · rename_i hdigits
      obtain ⟨rfl, hdrop⟩ := Prod.mk.inj h
      obtain ⟨htake', hdrop'⟩ := takeWhile_append_of_ended more hdrop
      refine ⟨?_, '.', cs, rfl⟩
      simp only [List.cons_append, scanFraction, htake', if_neg hdigits, hdrop', leadingDigits]
  · obtain ⟨rfl, rfl⟩ := Prod.mk.inj h
    refine ⟨?_, c, rest, rfl⟩
    rw [List.cons_append, scanFraction]
    intro cs' h'
    exact hpoint (List.cons_eq_cons.mp h').1

theorem scanWhole_append {whole : Nat} (h : scanWhole cs = some (whole, c :: rest)) :
    scanWhole (cs ++ more) = some (whole, c :: (rest ++ more)) ∧ cs ≠ [] := by
  rw [scanWhole.eq_def] at h
  split at h
  · simp only [Option.some.injEq, Prod.mk.injEq] at h
    obtain ⟨rfl, rfl⟩ := h
    exact ⟨rfl, by simp⟩
  · rename_i hzero
    split at h
    · simp at h
    · rename_i hdigits
      simp only [Option.some.injEq, Prod.mk.injEq] at h
      obtain ⟨rfl, hdrop⟩ := h
      obtain ⟨htake', hdrop'⟩ := takeWhile_append_of_ended more hdrop
      have hne : cs ≠ [] := fun hnil => hdigits (by simp [hnil])
      refine ⟨?_, hne⟩
      rw [scanWhole, htake', if_neg hdigits, hdrop', digitsValue, htake', ← digitsValue]
      intro tail h'
      cases cs with
      | nil => exact hne rfl
      | cons a cs => exact hzero cs (by rw [(List.cons_eq_cons.mp h').1])

/-- What stands behind a stop has no part in the numeral before it. -/
theorem scan_append {d : Numeral} (h : scan cs = some (d, c :: rest)) (hc : isStop c = true) :
    scan (cs ++ more) = some (d, c :: (rest ++ more)) := by
  simp only [scan] at h
  cases hwhole : scanWhole (scanSign cs).2 with
  | none => simp [hwhole] at h
  | some found =>
      obtain ⟨whole, afterWhole⟩ := found
      simp only [hwhole, Option.some.injEq, Prod.mk.injEq] at h
      obtain ⟨rfl, hrest⟩ := h
      have hexponent : scanExponent (scanFraction afterWhole).2 =
          ((scanExponent (scanFraction afterWhole).2).1, c :: rest) := by rw [← hrest]
      obtain ⟨hexponent', a, tail, ha, hpoint⟩ := scanExponent_append more hexponent hc
      have hfraction : scanFraction afterWhole = ((scanFraction afterWhole).1, a :: tail) := by
        rw [← ha]
      obtain ⟨hfraction', b, tail', hb⟩ := scanFraction_append more hfraction hpoint
      rw [hb] at hwhole
      obtain ⟨hwhole', hne⟩ := scanWhole_append more hwhole
      have hsign : scanSign (cs ++ more) = ((scanSign cs).1, (scanSign cs).2 ++ more) := by
        cases cs with
        | nil => exact absurd rfl hne
        | cons b cs =>
            by_cases hb : b = '-'
            · rw [hb]
              rfl
            · rw [List.cons_append, scanSign_of_ne hb, scanSign_of_ne hb, List.cons_append]
      rw [ha, List.cons_append] at hexponent'
      rw [hb, List.cons_append] at hfraction'
      rw [hb] at ha
      simp only [scan, hsign, hwhole', hfraction', hexponent', hb, ha]

end ScanAppend

section ScanShape

variable {cs rest : List Char}

theorem scanWhole_head {whole : Nat} (h : scanWhole cs = some (whole, rest)) :
    ∃ c tail, cs = c :: tail ∧ c.isDigit = true := by
  rw [scanWhole.eq_def] at h
  split at h
  · exact ⟨'0', _, rfl, rfl⟩
  · split at h
    · simp at h
    · rename_i hdigits
      cases cs with
      | nil => simp at hdigits
      | cons c tail =>
          refine ⟨c, tail, rfl, ?_⟩
          by_contra hc
          simp [hc] at hdigits

/-- A numeral starts with a digit, or with a minus before one. -/
theorem scan_head {d : Numeral} (h : scan cs = some (d, rest)) :
    ∃ c tail, (cs = c :: tail ∨ cs = '-' :: c :: tail) ∧ c.isDigit = true := by
  simp only [scan] at h
  cases hwhole : scanWhole (scanSign cs).2 with
  | none => simp [hwhole] at h
  | some found =>
      obtain ⟨whole, afterWhole⟩ := found
      obtain ⟨c, tail, hcs, hc⟩ := scanWhole_head hwhole
      refine ⟨c, tail, ?_, hc⟩
      rw [scanSign.eq_def] at hcs
      split at hcs
      · exact .inr (congrArg ('-' :: ·) hcs)
      · exact .inl hcs

theorem length_dropWhile_le (cs : List Char) :
    (cs.dropWhile Char.isDigit).length ≤ cs.length :=
  (List.dropWhile_sublist _).length_le

theorem length_scanSign_le (cs : List Char) : (scanSign cs).2.length ≤ cs.length := by
  rw [scanSign.eq_def]
  split <;> simp

theorem length_scanWhole {whole : Nat} (h : scanWhole cs = some (whole, rest)) :
    rest.length < cs.length := by
  rw [scanWhole.eq_def] at h
  split at h
  · obtain ⟨-, rfl⟩ := Prod.mk.inj (Option.some.inj h)
    simp
  · split at h
    · simp at h
    · rename_i hdigits
      obtain ⟨-, rfl⟩ := Prod.mk.inj (Option.some.inj h)
      have hsplit := congrArg List.length
        (List.takeWhile_append_dropWhile (p := Char.isDigit) (l := cs))
      have hpos := List.length_pos_iff.mpr hdigits
      rw [List.length_append] at hsplit
      omega

theorem length_scanFraction_le (cs : List Char) : (scanFraction cs).2.length ≤ cs.length := by
  rw [scanFraction.eq_def]
  split
  · split
    · simp
    · exact (length_dropWhile_le _).trans (Nat.le_succ _)
  · simp

theorem length_scanExponent_le (cs : List Char) : (scanExponent cs).2.length ≤ cs.length := by
  rw [scanExponent.eq_def]
  split
  · simp
  · rename_i c tail
    have hds : (scanExponentSign tail).2.length ≤ tail.length := by
      rw [scanExponentSign.eq_def]
      split <;> simp
    simp only
    split
    · simp
    · exact (length_dropWhile_le _).trans (hds.trans (Nat.le_succ _))

theorem length_scan {d : Numeral} (h : scan cs = some (d, rest)) : rest.length < cs.length := by
  simp only [scan] at h
  cases hwhole : scanWhole (scanSign cs).2 with
  | none => simp [hwhole] at h
  | some found =>
      obtain ⟨whole, afterWhole⟩ := found
      simp only [hwhole, Option.some.injEq, Prod.mk.injEq] at h
      calc
        rest.length = (scanExponent (scanFraction afterWhole).2).2.length := by rw [h.2]
        _ ≤ (scanFraction afterWhole).2.length := length_scanExponent_le _
        _ ≤ afterWhole.length := length_scanFraction_le _
        _ < (scanSign cs).2.length := length_scanWhole hwhole
        _ ≤ cs.length := length_scanSign_le cs

end ScanShape

end Numeral
