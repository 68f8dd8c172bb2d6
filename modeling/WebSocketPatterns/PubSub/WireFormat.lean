import WebSocketPatterns.PubSub.JsonText
import Mathlib.Algebra.Order.Field.Rat
import Mathlib.Algebra.Ring.Parity
import Mathlib.Data.Nat.Prime.Basic
import Mathlib.Data.Rat.Lemmas
import Mathlib.Tactic.FieldSimp
import Mathlib.Tactic.Ring

/-!
# Messages on the wire

What the scanner of `json.loads` does is stated once for each of its three loops:
it consumes text, enough fuel is as good as more, and what it has read does not
depend on the text behind it. From these, a message that was written is read back,
and no part of it that was cut off is taken for a message.
-/

namespace WebSocketPatterns.PubSub

namespace Json

variable (floats : FloatText)

section Steps

variable {fuel : Nat} {cs tail rest : List Char}

/-- A closing bracket is no value. -/
theorem scanOnce_items (h : ∀ t, skipSpace tail ≠ ']' :: t) :
    scanOnce floats (fuel + 1) ('[' :: tail) =
      (scanItems floats fuel (skipSpace tail)).map fun found => (list found.1, found.2) := by
  simp only [scanOnce]

theorem scanOnce_members (h : ∀ t, skipSpace tail ≠ '\x7d' :: t) :
    scanOnce floats (fuel + 1) ('\x7b' :: tail) =
      (scanMembers floats fuel (skipSpace tail)).map fun found => (dict found.1, found.2) := by
  simp only [scanOnce]

/-- The first character of a string, an array or an object. -/
def opens (c : Char) : Bool := c == '\x22' || c == '[' || c == '\x7b'

theorem scanOnce_atom {c : Char} (hc : opens c = false) :
    scanOnce floats (fuel + 1) (c :: tail) = scanAtom floats (c :: tail) := by
  simp only [opens, Bool.or_eq_false_iff, beq_eq_false_iff_ne] at hc
  rw [scanOnce]
  · intro t h
    exact hc.1.1 (List.cons_eq_cons.mp h).1
  · intro t h
    exact hc.1.2 (List.cons_eq_cons.mp h).1
  · intro t h
    exact hc.2 (List.cons_eq_cons.mp h).1

/-- The ways to read a value, by its first character. -/
theorem scanOnce_cases {v : Json} (h : scanOnce floats (fuel + 1) cs = some (v, rest)) :
    (∃ s tail, cs = '\x22' :: tail ∧ scanString cs = some (s, rest) ∧ v = str s) ∨
    (∃ tail, cs = '[' :: tail ∧ skipSpace tail = ']' :: rest ∧ v = list []) ∨
    (∃ tail items, cs = '[' :: tail ∧ (∀ t, skipSpace tail ≠ ']' :: t) ∧
      scanItems floats fuel (skipSpace tail) = some (items, rest) ∧ v = list items) ∨
    (∃ tail, cs = '\x7b' :: tail ∧ skipSpace tail = '\x7d' :: rest ∧ v = dict []) ∨
    (∃ tail members, cs = '\x7b' :: tail ∧ (∀ t, skipSpace tail ≠ '\x7d' :: t) ∧
      scanMembers floats fuel (skipSpace tail) = some (members, rest) ∧ v = dict members) ∨
    ∃ c tail, cs = c :: tail ∧ opens c = false ∧ scanAtom floats cs = some (v, rest) := by
  rw [scanOnce.eq_def] at h
  simp only at h
  split at h
  · rename_i tail
    simp only [Option.map_eq_some_iff, Prod.mk.injEq] at h
    obtain ⟨⟨s, rest'⟩, hstring, rfl, rfl⟩ := h
    exact .inl ⟨s, tail, rfl, hstring, rfl⟩
  · rename_i tail
    split at h
    · rename_i hclose
      obtain ⟨rfl, rfl⟩ := Prod.mk.inj (Option.some.inj h)
      exact .inr (.inl ⟨tail, rfl, hclose, rfl⟩)
    · rename_i hopen
      simp only [Option.map_eq_some_iff, Prod.mk.injEq] at h
      obtain ⟨⟨items, rest'⟩, hitems, rfl, rfl⟩ := h
      exact .inr (.inr (.inl ⟨tail, items, rfl, hopen, hitems, rfl⟩))
  · rename_i tail
    split at h
    · rename_i hclose
      obtain ⟨rfl, rfl⟩ := Prod.mk.inj (Option.some.inj h)
      exact .inr (.inr (.inr (.inl ⟨tail, rfl, hclose, rfl⟩)))
    · rename_i hopen
      simp only [Option.map_eq_some_iff, Prod.mk.injEq] at h
      obtain ⟨⟨members, rest'⟩, hmembers, rfl, rfl⟩ := h
      exact .inr (.inr (.inr (.inr (.inl ⟨tail, members, rfl, hopen, hmembers, rfl⟩))))
  · rename_i hstring hlist hdict
    cases cs with
    | nil => simp [scanAtom, scanWord, Numeral.scan, Numeral.scanSign, Numeral.scanWhole] at h
    | cons c tail =>
        have hc : opens c = false := by
          simp only [opens, Bool.or_eq_false_iff, beq_eq_false_iff_ne]
          exact ⟨⟨fun hc => hstring tail (by rw [hc]), fun hc => hlist tail (by rw [hc])⟩,
            fun hc => hdict tail (by rw [hc])⟩
        exact .inr (.inr (.inr (.inr (.inr ⟨c, tail, rfl, hc, h⟩))))

theorem scanItems_cases {items : List Json}
    (h : scanItems floats (fuel + 1) cs = some (items, rest)) :
    ∃ item afterItem, scanOnce floats fuel cs = some (item, afterItem) ∧
      ((skipSpace afterItem = ']' :: rest ∧ items = [item]) ∨
        ∃ tail others, skipSpace afterItem = ',' :: tail ∧
          scanItems floats fuel (skipSpace tail) = some (others, rest) ∧
          items = item :: others) := by
  simp only [scanItems] at h
  cases honce : scanOnce floats fuel cs with
  | none => simp [honce] at h
  | some found =>
      obtain ⟨item, afterItem⟩ := found
      simp only [honce] at h
      refine ⟨item, afterItem, rfl, ?_⟩
      split at h
      · rename_i hclose
        obtain ⟨rfl, rfl⟩ := Prod.mk.inj (Option.some.inj h)
        exact .inl ⟨hclose, rfl⟩
      · rename_i tail hcomma
        simp only [Option.map_eq_some_iff, Prod.mk.injEq] at h
        obtain ⟨⟨others, rest'⟩, hothers, rfl, rfl⟩ := h
        exact .inr ⟨tail, others, hcomma, hothers, rfl⟩
      · simp at h

theorem scanMembers_cases {members : List (String × Json)}
    (h : scanMembers floats (fuel + 1) cs = some (members, rest)) :
    ∃ key afterKey value afterValue, scanKey cs = some (key, afterKey) ∧
      scanOnce floats fuel afterKey = some (value, afterValue) ∧
      ((skipSpace afterValue = '\x7d' :: rest ∧ members = [(key, value)]) ∨
        ∃ tail others, skipSpace afterValue = ',' :: tail ∧
          scanMembers floats fuel (skipSpace tail) = some (others, rest) ∧
          members = (key, value) :: others) := by
  simp only [scanMembers] at h
  cases hkey : scanKey cs with
  | none => simp [hkey] at h
  | some found =>
      obtain ⟨key, afterKey⟩ := found
      simp only [hkey] at h
      cases honce : scanOnce floats fuel afterKey with
      | none => simp [honce] at h
      | some found =>
          obtain ⟨value, afterValue⟩ := found
          simp only [honce] at h
          refine ⟨key, afterKey, value, afterValue, rfl, honce, ?_⟩
          split at h
          · rename_i hclose
            obtain ⟨rfl, rfl⟩ := Prod.mk.inj (Option.some.inj h)
            exact .inl ⟨hclose, rfl⟩
          · rename_i tail hcomma
            simp only [Option.map_eq_some_iff, Prod.mk.injEq] at h
            obtain ⟨⟨others, rest'⟩, hothers, rfl, rfl⟩ := h
            exact .inr ⟨tail, others, hcomma, hothers, rfl⟩
          · simp at h

/-- What a comma leaves is shorter by one. -/
theorem length_of_skipSpace {c : Char} (h : skipSpace cs = c :: tail) :
    tail.length < cs.length := by
  have hle := length_skipSpace_le cs
  rw [h, List.length_cons] at hle
  omega

end Steps

section Consumes

/-- Every loop of the scanner leaves less than it was given. -/
structure Consumes (fuel : Nat) : Prop where
  once : ∀ {cs v rest}, scanOnce floats fuel cs = some (v, rest) → rest.length < cs.length
  items : ∀ {cs items rest}, scanItems floats fuel cs = some (items, rest) →
    rest.length < cs.length
  members : ∀ {cs members rest}, scanMembers floats fuel cs = some (members, rest) →
    rest.length < cs.length

theorem Consumes.once_step {fuel : Nat} (loops : Consumes floats fuel) {cs rest : List Char}
    {v : Json} (h : scanOnce floats (fuel + 1) cs = some (v, rest)) : rest.length < cs.length := by
  obtain ⟨s, tail, rfl, hstring, -⟩ | ⟨tail, rfl, hclose, -⟩ | ⟨tail, items, rfl, -, hitems, -⟩ |
    ⟨tail, rfl, hclose, -⟩ | ⟨tail, members, rfl, -, hmembers, -⟩ | ⟨c, tail, rfl, -, hatom⟩ :=
    scanOnce_cases floats h
  · exact length_scanString hstring
  · exact (length_of_skipSpace hclose).trans (Nat.lt_succ_self _)
  · exact ((loops.items hitems).trans_le (length_skipSpace_le tail)).trans (Nat.lt_succ_self _)
  · exact (length_of_skipSpace hclose).trans (Nat.lt_succ_self _)
  · exact ((loops.members hmembers).trans_le (length_skipSpace_le tail)).trans (Nat.lt_succ_self _)
  · exact length_scanAtom floats hatom

theorem consumes (fuel : Nat) : Consumes floats fuel := by
  induction fuel with
  | zero =>
      constructor
      case once => intro cs v rest h; simp [scanOnce] at h
      case items => intro cs items rest h; simp [scanItems] at h
      case members => intro cs members rest h; simp [scanMembers] at h
  | succ fuel loops =>
      constructor
      case once =>
        intro cs v rest h
        exact loops.once_step floats h
      case items =>
        intro cs items rest h
        obtain ⟨item, afterItem, honce, hrest⟩ := scanItems_cases floats h
        have hitem := loops.once honce
        obtain ⟨hclose, -⟩ | ⟨tail, others, hcomma, hothers, -⟩ := hrest
        · exact (length_of_skipSpace hclose).trans hitem
        · have hothers' := (loops.items hothers).trans_le (length_skipSpace_le tail)
          exact hothers'.trans ((length_of_skipSpace hcomma).trans hitem)
      case members =>
        intro cs members rest h
        obtain ⟨key, afterKey, value, afterValue, hkey, honce, hrest⟩ := scanMembers_cases floats h
        have hvalue := (loops.once honce).trans (length_scanKey hkey)
        obtain ⟨hclose, -⟩ | ⟨tail, others, hcomma, hothers, -⟩ := hrest
        · exact (length_of_skipSpace hclose).trans hvalue
        · have hothers' := (loops.members hothers).trans_le (length_skipSpace_le tail)
          exact hothers'.trans ((length_of_skipSpace hcomma).trans hvalue)

end Consumes

section Fuel

/-- Fuel for every character twice is as good as more. -/
structure FuelSuffices (fuel : Nat) : Prop where
  once : ∀ {cs}, 2 * cs.length < fuel →
    scanOnce floats (fuel + 1) cs = scanOnce floats fuel cs
  items : ∀ {cs}, 2 * cs.length + 1 < fuel →
    scanItems floats (fuel + 1) cs = scanItems floats fuel cs
  members : ∀ {cs}, 2 * cs.length + 1 < fuel →
    scanMembers floats (fuel + 1) cs = scanMembers floats fuel cs

theorem FuelSuffices.once_step {fuel : Nat} (loops : FuelSuffices floats fuel) {cs : List Char}
    (h : 2 * cs.length < fuel + 1) :
    scanOnce floats (fuel + 2) cs = scanOnce floats (fuel + 1) cs := by
  rw [scanOnce.eq_def, scanOnce.eq_def]
  simp only
  split
  · rfl
  · rename_i tail
    have hle := length_skipSpace_le tail
    rw [List.length_cons] at h
    split
    · rfl
    · rw [loops.items (by omega)]
  · rename_i tail
    have hle := length_skipSpace_le tail
    rw [List.length_cons] at h
    split
    · rfl
    · rw [loops.members (by omega)]
  · rfl

theorem fuelSuffices (fuel : Nat) : FuelSuffices floats fuel := by
  induction fuel with
  | zero =>
      constructor
      case once => intro cs h; omega
      case items => intro cs h; omega
      case members => intro cs h; omega
  | succ fuel loops =>
      constructor
      case once =>
        intro cs h
        exact loops.once_step floats h
      case items =>
        intro cs h
        rw [scanItems, scanItems, loops.once (by omega)]
        cases honce : scanOnce floats fuel cs with
        | none => rfl
        | some found =>
            obtain ⟨item, afterItem⟩ := found
            have hitem := (consumes floats fuel).once honce
            simp only
            split
            · rfl
            · rename_i tail hcomma
              have htail := length_of_skipSpace hcomma
              have hle := length_skipSpace_le tail
              rw [loops.items (by omega)]
            · rfl
      case members =>
        intro cs h
        rw [scanMembers, scanMembers]
        cases hkey : scanKey cs with
        | none => rfl
        | some found =>
            obtain ⟨key, afterKey⟩ := found
            have hkey' := length_scanKey hkey
            simp only
            rw [loops.once (by omega)]
            cases honce : scanOnce floats fuel afterKey with
            | none => rfl
            | some found =>
                obtain ⟨value, afterValue⟩ := found
                have hvalue := (consumes floats fuel).once honce
                simp only
                split
                · rfl
                · rename_i tail hcomma
                  have htail := length_of_skipSpace hcomma
                  have hle := length_skipSpace_le tail
                  rw [loops.members (by omega)]
                · rfl

theorem scanOnce_of_le {fuel more : Nat} {cs : List Char} (h : 2 * cs.length < fuel)
    (hle : fuel ≤ more) : scanOnce floats more cs = scanOnce floats fuel cs := by
  induction more, hle using Nat.le_induction with
  | base => rfl
  | succ more hle ih =>
      rw [← ih]
      exact (fuelSuffices floats more).once (by omega)

end Fuel

section Extends

/-- A value that was read ends with a character of its own, or before one that ends numerals. -/
def Ended (cs rest : List Char) : Prop :=
  (∃ c ∈ cs.head?, opens c = true) ∨ ∃ c ∈ rest.head?, Numeral.isStop c = true

/-- What a loop of the scanner has read does not depend on the text behind it. -/
structure Extends (fuel : Nat) (more : List Char) : Prop where
  once : ∀ {cs v rest}, scanOnce floats fuel cs = some (v, rest) → Ended cs rest →
    scanOnce floats fuel (cs ++ more) = some (v, rest ++ more)
  items : ∀ {cs items rest}, scanItems floats fuel cs = some (items, rest) →
    scanItems floats fuel (cs ++ more) = some (items, rest ++ more)
  members : ∀ {cs members rest}, scanMembers floats fuel cs = some (members, rest) →
    scanMembers floats fuel (cs ++ more) = some (members, rest ++ more)

theorem ended_of_skipSpace {cs rest tail : List Char} {c : Char} (h : skipSpace rest = c :: tail)
    (hc : Numeral.isStop c = true) : Ended cs rest := by
  obtain ⟨a, t, rfl, ha⟩ := head_of_skipSpace h hc
  exact .inr ⟨a, rfl, ha⟩

/-- Something was read behind the space, so the space has ended. -/
theorem skipSpace_ne_nil {cs rest : List Char} (h : rest.length < (skipSpace cs).length) :
    ∃ c tail, skipSpace cs = c :: tail := by
  cases hspace : skipSpace cs with
  | nil => simp [hspace] at h
  | cons c tail => exact ⟨c, tail, rfl⟩

variable (more : List Char)

theorem Extends.once_step {fuel : Nat} (loops : Extends floats fuel more) {cs rest : List Char}
    {v : Json} (h : scanOnce floats (fuel + 1) cs = some (v, rest)) (hended : Ended cs rest) :
    scanOnce floats (fuel + 1) (cs ++ more) = some (v, rest ++ more) := by
  obtain ⟨s, tail, rfl, hstring, rfl⟩ | ⟨tail, rfl, hclose, rfl⟩ |
    ⟨tail, items, rfl, hopen, hitems, rfl⟩ | ⟨tail, rfl, hclose, rfl⟩ |
    ⟨tail, members, rfl, hopen, hmembers, rfl⟩ | ⟨c, tail, rfl, hc, hatom⟩ :=
    scanOnce_cases floats h
  · have hstring' := scanString_append more hstring
    rw [List.cons_append] at hstring' ⊢
    simp only [scanOnce, hstring', Option.map_some]
  · simp only [List.cons_append, scanOnce, skipSpace_append more hclose]
  · obtain ⟨c, t, hspace⟩ := skipSpace_ne_nil ((consumes floats fuel).items hitems)
    have hspace' := skipSpace_append more hspace
    have hitems' := loops.items hitems
    rw [hspace, List.cons_append] at hitems'
    rw [List.cons_append, scanOnce_items floats, hspace', hitems', Option.map_some]
    intro t' h'
    rw [hspace'] at h'
    exact hopen t (by rw [hspace, (List.cons_eq_cons.mp h').1])
  · simp only [List.cons_append, scanOnce, skipSpace_append more hclose]
  · obtain ⟨c, t, hspace⟩ := skipSpace_ne_nil ((consumes floats fuel).members hmembers)
    have hspace' := skipSpace_append more hspace
    have hmembers' := loops.members hmembers
    rw [hspace, List.cons_append] at hmembers'
    rw [List.cons_append, scanOnce_members floats, hspace', hmembers', Option.map_some]
    intro t' h'
    rw [hspace'] at h'
    exact hopen t (by rw [hspace, (List.cons_eq_cons.mp h').1])
  · obtain ⟨a, ha, hopens⟩ | ⟨a, ha, hstop⟩ := hended
    · obtain rfl : c = a := Option.some.inj ha
      simp [hc] at hopens
    · cases rest with
      | nil => simp at ha
      | cons b t =>
          obtain rfl : b = a := Option.some.inj ha
          rw [List.cons_append, scanOnce_atom floats hc, ← List.cons_append,
            scanAtom_append floats more hatom hstop, List.cons_append]

theorem scans_append (fuel : Nat) : Extends floats fuel more := by
  induction fuel with
  | zero =>
      constructor
      case once => intro cs v rest h; simp [scanOnce] at h
      case items => intro cs items rest h; simp [scanItems] at h
      case members => intro cs members rest h; simp [scanMembers] at h
  | succ fuel loops =>
      constructor
      case once =>
        intro cs v rest h hended
        exact loops.once_step floats more h hended
      case items =>
        intro cs items rest h
        obtain ⟨item, afterItem, honce, hrest⟩ := scanItems_cases floats h
        obtain ⟨hclose, rfl⟩ | ⟨tail, others, hcomma, hothers, rfl⟩ := hrest
        · have honce' := loops.once honce (ended_of_skipSpace hclose rfl)
          simp only [scanItems, honce', skipSpace_append more hclose]
        · have honce' := loops.once honce (ended_of_skipSpace hcomma rfl)
          obtain ⟨c, t, hspace⟩ := skipSpace_ne_nil ((consumes floats fuel).items hothers)
          have hothers' := loops.items hothers
          rw [hspace, List.cons_append] at hothers'
          simp only [scanItems, honce', skipSpace_append more hcomma,
            skipSpace_append more hspace, hothers', Option.map_some]
      case members =>
        intro cs members rest h
        obtain ⟨key, afterKey, value, afterValue, hkey, honce, hrest⟩ := scanMembers_cases floats h
        have hvalue := (consumes floats fuel).once honce
        obtain ⟨c, t, rfl⟩ : ∃ c t, afterKey = c :: t := by
          cases afterKey with
          | nil => simp at hvalue
          | cons c t => exact ⟨c, t, rfl⟩
        have hkey' := scanKey_append more hkey
        rw [← List.cons_append] at hkey'
        obtain ⟨hclose, rfl⟩ | ⟨tail, others, hcomma, hothers, rfl⟩ := hrest
        · have honce' := loops.once honce (ended_of_skipSpace hclose rfl)
          simp only [scanMembers, hkey', honce', skipSpace_append more hclose]
        · have honce' := loops.once honce (ended_of_skipSpace hcomma rfl)
          obtain ⟨c, t, hspace⟩ := skipSpace_ne_nil ((consumes floats fuel).members hothers)
          have hothers' := loops.members hothers
          rw [hspace, List.cons_append] at hothers'
          simp only [scanMembers, hkey', honce', skipSpace_append more hcomma,
            skipSpace_append more hspace, hothers', Option.map_some]

end Extends

section RoundTrip

open Numeral (Stops)

/-- A written value is read back before every text that ends numerals. -/
def Reads (v : Json) : Prop :=
  ∀ ⦃fuel rest⦄, 2 * (dumps floats v).length ≤ fuel → Stops rest →
    scanOnce floats fuel (dumps floats v ++ rest) = some (v, rest)

def ReadsItems (items : List Json) : Prop :=
  ∀ ⦃item fuel rest⦄, Reads floats item →
    2 * ((dumps floats item).length + (dumpsItems floats items).length) < fuel →
    scanItems floats fuel (dumps floats item ++ (dumpsItems floats items ++ rest)) =
      some (item :: items, rest)

def ReadsMembers (members : List (String × Json)) : Prop :=
  ∀ ⦃key value fuel rest⦄, Reads floats value →
    2 * ((dumps floats value).length + (dumpsMembers floats members).length) < fuel →
    scanMembers floats fuel
        (dumpsKey key ++ (dumps floats value ++ (dumpsMembers floats members ++ rest))) =
      some ((key, value) :: members, rest)

theorem stops_cons {c : Char} (hc : Numeral.isStop c = true) (rest : List Char) :
    Stops (c :: rest) := by
  intro a ha
  obtain rfl : c = a := Option.some.inj ha
  exact hc

theorem stops_nil : Stops [] := by
  intro a ha
  simp at ha

/-- A numeral starts like no space and no bracket. -/
theorem numeral_head (d : Numeral) :
    ∃ c t, d.text = c :: t ∧ isSpace c = false ∧ opens c = false ∧ c ≠ ']' := by
  have hscan := Numeral.scan_text d stops_nil
  rw [List.append_nil] at hscan
  obtain ⟨c, tail, htext | htext, hc⟩ := Numeral.scan_head hscan
  · refine ⟨c, tail, htext, ?_, ?_, ?_⟩
    · simp only [isSpace, Bool.or_eq_false_iff, beq_eq_false_iff_ne]
      refine ⟨⟨⟨?_, ?_⟩, ?_⟩, ?_⟩ <;> rintro rfl <;> simp at hc
    · simp only [opens, Bool.or_eq_false_iff, beq_eq_false_iff_ne]
      refine ⟨⟨?_, ?_⟩, ?_⟩ <;> rintro rfl <;> simp at hc
    · rintro rfl
      simp at hc
  · exact ⟨'-', c :: tail, htext, rfl, rfl, by decide⟩

/-- A written value starts with neither space nor a closing bracket. -/
theorem dumps_head (v : Json) :
    ∃ c t, dumps floats v = c :: t ∧ isSpace c = false ∧ c ≠ ']' := by
  cases v with
  | null => exact ⟨'n', _, by rw [dumps], rfl, by decide⟩
  | bool b =>
      cases b with
      | true => exact ⟨'t', _, by rw [dumps], rfl, by decide⟩
      | false => exact ⟨'f', _, by rw [dumps], rfl, by decide⟩
  | int n =>
      obtain ⟨c, t, htext, hspace, -, hclose⟩ := numeral_head (Numeral.ofInt n)
      exact ⟨c, t, by rw [dumps, htext], hspace, hclose⟩
  | float x =>
      rw [dumps]
      cases x with
      | finite x =>
          obtain ⟨c, t, htext, hspace, -, hclose⟩ := numeral_head (floats.repr x)
          exact ⟨c, t, htext, hspace, hclose⟩
      | infinity negative =>
          cases negative with
          | true => exact ⟨'-', _, rfl, rfl, by decide⟩
          | false => exact ⟨'I', _, rfl, rfl, by decide⟩
      | nan => exact ⟨'N', _, rfl, rfl, by decide⟩
  | str s => exact ⟨'\x22', _, by rw [dumps, StringLiteral.quote], rfl, by decide⟩
  | list items =>
      cases items with
      | nil => exact ⟨'[', _, by rw [dumps], rfl, by decide⟩
      | cons item items => exact ⟨'[', _, by rw [dumps], rfl, by decide⟩
  | dict members =>
      cases members with
      | nil => exact ⟨'\x7b', _, by rw [dumps], rfl, by decide⟩
      | cons member members => exact ⟨'\x7b', _, by rw [dumps], rfl, by decide⟩

theorem skipSpace_dumps (v : Json) (rest : List Char) :
    skipSpace (dumps floats v ++ rest) = dumps floats v ++ rest := by
  obtain ⟨c, t, hdumps, hspace, -⟩ := dumps_head floats v
  rw [hdumps, List.cons_append, skipSpace_of_not_space hspace]

section Steps

variable {floats} {v : Json}

theorem reads_atom {c : Char} {t : List Char} (hdumps : dumps floats v = c :: t)
    (hc : opens c = false)
    (hatom : ∀ {rest}, Stops rest → scanAtom floats (c :: (t ++ rest)) = some (v, rest)) :
    Reads floats v := by
  intro fuel rest hfuel hrest
  rw [hdumps, List.length_cons] at hfuel
  obtain ⟨fuel, rfl⟩ : ∃ f, fuel = f + 1 := ⟨fuel - 1, by omega⟩
  rw [hdumps, List.cons_append, scanOnce_atom floats hc, hatom hrest]

theorem reads_numeral {d : Numeral} (hdumps : dumps floats v = d.text)
    (hv : ofNumeral floats d = v) : Reads floats v := by
  obtain ⟨c, t, htext, -, hc, -⟩ := numeral_head d
  refine reads_atom (hdumps.trans htext) hc fun {rest} hrest => ?_
  have hscan := Numeral.scan_text d hrest
  rw [htext, List.cons_append] at hscan
  rw [scanAtom_of_numeral floats hscan, hv]

theorem reads_float {x : PyFloat} (h : Representable floats (float x)) :
    Reads floats (float x) := by
  cases x with
  | finite x =>
      have hfloat : floats.IsFloat x := h
      have hdumps : dumps floats (float (.finite x)) = (floats.repr x).text := by
        rw [dumps, dumpsFloat]
      refine reads_numeral hdumps ?_
      rw [ofNumeral, floats.repr_isInteger x hfloat, floats.parse_repr x hfloat]
      rfl
  | infinity negative =>
      cases negative with
      | true => exact reads_atom (by rw [dumps, dumpsFloat]) rfl fun _ => rfl
      | false => exact reads_atom (by rw [dumps, dumpsFloat]) rfl fun _ => rfl
  | nan => exact reads_atom (by rw [dumps, dumpsFloat]) rfl fun _ => rfl

theorem reads_str (s : String) : Reads floats (str s) := by
  intro fuel rest hfuel _
  rw [dumps, StringLiteral.quote, List.length_cons] at hfuel
  obtain ⟨fuel, rfl⟩ : ∃ f, fuel = f + 1 := ⟨fuel - 1, by omega⟩
  have hstring := scanString_quote s rest
  rw [dumps]
  rw [StringLiteral.quote, List.cons_append] at hstring ⊢
  simp only [scanOnce, hstring, Option.map_some]

theorem reads_list_nil : Reads floats (list []) := by
  intro fuel rest hfuel _
  rw [dumps] at hfuel ⊢
  simp only [List.length_cons] at hfuel
  obtain ⟨fuel, rfl⟩ : ∃ f, fuel = f + 1 := ⟨fuel - 1, by omega⟩
  have hclose : skipSpace (']' :: rest) = ']' :: rest := skipSpace_of_not_space rfl rest
  simp only [List.cons_append, List.nil_append, scanOnce, hclose]

theorem reads_list {item : Json} {items : List Json} (hitem : Reads floats item)
    (hitems : ReadsItems floats items) : Reads floats (list (item :: items)) := by
  intro fuel rest hfuel _
  rw [dumps] at hfuel ⊢
  simp only [List.length_cons, List.length_append] at hfuel
  obtain ⟨fuel, rfl⟩ : ∃ f, fuel = f + 1 := ⟨fuel - 1, by omega⟩
  have hspace := skipSpace_dumps floats item (dumpsItems floats items ++ rest)
  have hread : scanItems floats fuel (dumps floats item ++ (dumpsItems floats items ++ rest)) =
      some (item :: items, rest) := hitems hitem (by omega)
  rw [List.cons_append, List.append_assoc, scanOnce_items, hspace, hread, Option.map_some]
  intro t h
  obtain ⟨c, tail, hdumps, -, hclose⟩ := dumps_head floats item
  rw [hspace, hdumps] at h
  exact hclose (List.cons_eq_cons.mp h).1

theorem reads_dict_nil : Reads floats (dict []) := by
  intro fuel rest hfuel _
  rw [dumps] at hfuel ⊢
  simp only [List.length_cons] at hfuel
  obtain ⟨fuel, rfl⟩ : ∃ f, fuel = f + 1 := ⟨fuel - 1, by omega⟩
  have hclose : skipSpace ('\x7d' :: rest) = '\x7d' :: rest := skipSpace_of_not_space rfl rest
  simp only [List.cons_append, List.nil_append, scanOnce, hclose]

theorem skipSpace_dumpsKey (key : String) (rest : List Char) :
    skipSpace (dumpsKey key ++ rest) = dumpsKey key ++ rest := by
  rw [dumpsKey, StringLiteral.quote, List.cons_append, List.cons_append]
  exact skipSpace_of_not_space rfl _

theorem reads_dict {key : String} {value : Json} {members : List (String × Json)}
    (hvalue : Reads floats value) (hmembers : ReadsMembers floats members) :
    Reads floats (dict ((key, value) :: members)) := by
  intro fuel rest hfuel _
  rw [dumps] at hfuel ⊢
  simp only [List.length_cons, List.length_append] at hfuel
  obtain ⟨fuel, rfl⟩ : ∃ f, fuel = f + 1 := ⟨fuel - 1, by omega⟩
  have hspace := skipSpace_dumpsKey key
    (dumps floats value ++ (dumpsMembers floats members ++ rest))
  have hread : scanMembers floats fuel
      (dumpsKey key ++ (dumps floats value ++ (dumpsMembers floats members ++ rest))) =
      some ((key, value) :: members, rest) := hmembers hvalue (by omega)
  rw [List.cons_append, List.append_assoc, List.append_assoc, scanOnce_members, hspace, hread,
    Option.map_some]
  intro t h
  rw [hspace, dumpsKey, StringLiteral.quote] at h
  simp at h

theorem readsItems_nil : ReadsItems floats [] := by
  intro item fuel rest hitem hfuel
  rw [dumpsItems] at hfuel ⊢
  obtain ⟨fuel, rfl⟩ : ∃ f, fuel = f + 1 := ⟨fuel - 1, by omega⟩
  have hread : scanOnce floats fuel (dumps floats item ++ ']' :: rest) = some (item, ']' :: rest) :=
    hitem (by simp only [List.length_cons, List.length_nil] at hfuel; omega) (stops_cons rfl rest)
  have hclose : skipSpace (']' :: rest) = ']' :: rest := skipSpace_of_not_space rfl rest
  simp only [List.cons_append, List.nil_append, scanItems, hread, hclose]

theorem readsItems_cons {next : Json} {items : List Json} (hnext : Reads floats next)
    (hitems : ReadsItems floats items) : ReadsItems floats (next :: items) := by
  intro item fuel rest hitem hfuel
  rw [dumpsItems] at hfuel ⊢
  simp only [List.length_cons, List.length_append] at hfuel
  obtain ⟨fuel, rfl⟩ : ∃ f, fuel = f + 1 := ⟨fuel - 1, by omega⟩
  have hread := hitem (by omega : _ ≤ fuel)
    (stops_cons (rfl : Numeral.isStop ',' = true)
      (' ' :: (dumps floats next ++ (dumpsItems floats items ++ rest))))
  have hothers : scanItems floats fuel (dumps floats next ++ (dumpsItems floats items ++ rest)) =
      some (next :: items, rest) := hitems hnext (by omega)
  have hcomma : skipSpace (',' :: ' ' :: (dumps floats next ++ (dumpsItems floats items ++ rest))) =
      ',' :: ' ' :: (dumps floats next ++ (dumpsItems floats items ++ rest)) :=
    skipSpace_of_not_space rfl _
  have hspace : skipSpace (' ' :: (dumps floats next ++ (dumpsItems floats items ++ rest))) =
      dumps floats next ++ (dumpsItems floats items ++ rest) :=
    skipSpace_dumps floats next _
  simp only [List.cons_append, List.append_assoc, scanItems, hread, hcomma, hspace, hothers,
    Option.map_some]

theorem scanKey_dumps (key : String) (v : Json) (rest : List Char) :
    scanKey (dumpsKey key ++ (dumps floats v ++ rest)) = some (key, dumps floats v ++ rest) := by
  obtain ⟨c, t, hdumps, hspace, -⟩ := dumps_head floats v
  rw [hdumps, List.cons_append]
  exact scanKey_dumpsKey key hspace _

theorem readsMembers_nil : ReadsMembers floats [] := by
  intro key value fuel rest hvalue hfuel
  rw [dumpsMembers] at hfuel ⊢
  obtain ⟨fuel, rfl⟩ : ∃ f, fuel = f + 1 := ⟨fuel - 1, by omega⟩
  have hread : scanOnce floats fuel (dumps floats value ++ '\x7d' :: rest) =
      some (value, '\x7d' :: rest) :=
    hvalue (by simp only [List.length_cons, List.length_nil] at hfuel; omega) (stops_cons rfl rest)
  have hclose : skipSpace ('\x7d' :: rest) = '\x7d' :: rest := skipSpace_of_not_space rfl rest
  simp only [List.cons_append, List.nil_append, scanMembers, scanKey_dumps, hread, hclose]

theorem readsMembers_cons {name : String} {next : Json} {members : List (String × Json)}
    (hnext : Reads floats next) (hmembers : ReadsMembers floats members) :
    ReadsMembers floats ((name, next) :: members) := by
  intro key value fuel rest hvalue hfuel
  rw [dumpsMembers] at hfuel ⊢
  simp only [List.length_cons, List.length_append] at hfuel
  obtain ⟨fuel, rfl⟩ : ∃ f, fuel = f + 1 := ⟨fuel - 1, by omega⟩
  have hread := hvalue (by omega : _ ≤ fuel) (stops_cons (rfl : Numeral.isStop ',' = true)
    (' ' :: (dumpsKey name ++ (dumps floats next ++ (dumpsMembers floats members ++ rest)))))
  have hothers : scanMembers floats fuel
      (dumpsKey name ++ (dumps floats next ++ (dumpsMembers floats members ++ rest))) =
      some ((name, next) :: members, rest) := hmembers hnext (by omega)
  have hcomma : skipSpace (',' :: ' ' ::
      (dumpsKey name ++ (dumps floats next ++ (dumpsMembers floats members ++ rest)))) =
      ',' :: ' ' ::
        (dumpsKey name ++ (dumps floats next ++ (dumpsMembers floats members ++ rest))) :=
    skipSpace_of_not_space rfl _
  have hspace : skipSpace (' ' ::
      (dumpsKey name ++ (dumps floats next ++ (dumpsMembers floats members ++ rest)))) =
      dumpsKey name ++ (dumps floats next ++ (dumpsMembers floats members ++ rest)) :=
    skipSpace_dumpsKey name _
  simp only [List.cons_append, List.append_assoc, scanMembers, scanKey_dumps, hread, hcomma, hspace,
    hothers, Option.map_some]

end Steps

mutual

/-- By induction over the value; its items and members are read by the loops. -/
theorem reads_dumps : ∀ v, Representable floats v → Reads floats v
  | null, _ => reads_atom (by rw [dumps]) rfl fun _ => rfl
  | bool true, _ => reads_atom (by rw [dumps]) rfl fun _ => rfl
  | bool false, _ => reads_atom (by rw [dumps]) rfl fun _ => rfl
  | int n, _ => reads_numeral (by rw [dumps]) (by simp [ofNumeral])
  | float _, h => reads_float h
  | str s, _ => reads_str s
  | list [], _ => reads_list_nil
  | list (item :: items), h => by
      rw [Representable, RepresentableItems] at h
      exact reads_list (reads_dumps item h.1) (readsItems_dumps items h.2)
  | dict [], _ => reads_dict_nil
  | dict ((_, value) :: members), h => by
      rw [Representable, RepresentableMembers] at h
      exact reads_dict (reads_dumps value h.1) (readsMembers_dumps members h.2)

theorem readsItems_dumps : ∀ items, RepresentableItems floats items → ReadsItems floats items
  | [], _ => readsItems_nil
  | item :: items, h => by
      rw [RepresentableItems] at h
      exact readsItems_cons (reads_dumps item h.1) (readsItems_dumps items h.2)

theorem readsMembers_dumps : ∀ members, RepresentableMembers floats members →
    ReadsMembers floats members
  | [], _ => readsMembers_nil
  | (_, value) :: members, h => by
      rw [RepresentableMembers] at h
      exact readsMembers_cons (reads_dumps value h.1) (readsMembers_dumps members h.2)

end

variable (errorText : String → String)

theorem scanOnce_dumps {v : Json} (hv : Representable floats v) {fuel : Nat}
    (hfuel : 2 * (dumps floats v).length ≤ fuel) :
    scanOnce floats fuel (dumps floats v) = some (v, []) := by
  have hread := reads_dumps floats v hv hfuel stops_nil
  rwa [List.append_nil] at hread

/-- `json.loads` inverts `json.dumps`. -/
theorem loads_dumps {v : Json} (hv : Representable floats v) :
    loads floats errorText (String.ofList (dumps floats v)) = .ok v := by
  have hspace := skipSpace_dumps floats v []
  rw [List.append_nil] at hspace
  have hread := scanOnce_dumps floats hv (Nat.le_succ (2 * (dumps floats v).length))
  simp only [loads, String.toList_ofList, hspace, hread]
  rfl

/-- A part of an object's text that was cut off before its end is not read as a value. -/
theorem loads_of_cut {members : List (String × Json)}
    (hrep : Representable floats (dict members)) {cut lost : List Char}
    (hcut : cut ++ lost = dumps floats (dict members)) (hlost : lost ≠ []) :
    loads floats errorText (String.ofList cut) = .error (errorText (String.ofList cut)) := by
  cases cut with
  | nil => rfl
  | cons c cut =>
      have hopen : c = '\x7b' := by
        cases members with
        | nil =>
            rw [dumps] at hcut
            exact (List.cons_eq_cons.mp hcut).1
        | cons member members =>
            rw [dumps] at hcut
            exact (List.cons_eq_cons.mp hcut).1
      have hspace : skipSpace (c :: cut) = c :: cut :=
        skipSpace_of_not_space (by rw [hopen]; rfl) cut
      cases hread : scanOnce floats (2 * (c :: cut).length + 1) (c :: cut) with
      | none => simp only [loads, String.toList_ofList, hspace, hread]
      | some found =>
          -- With its lost end the same value would be read, and that end would be left.
          obtain ⟨v, rest⟩ := found
          have hmore := scanOnce_of_le floats (Nat.lt_succ_self (2 * (c :: cut).length))
            (Nat.le_add_right _ (2 * (dumps floats (dict members)).length))
          rw [hread] at hmore
          have hended : Ended (c :: cut) rest := .inl ⟨c, rfl, by rw [hopen]; rfl⟩
          have hfull := (scans_append floats lost _).once hmore hended
          rw [hcut, scanOnce_dumps floats hrep (Nat.le_add_left _ _)] at hfull
          have hrest : [] = rest ++ lost := (Prod.mk.inj (Option.some.inj hfull)).2
          exact absurd (List.append_eq_nil_iff.mp hrest.symm).2 hlost

end RoundTrip

section Printable

open StringLiteral (isPrintable)

def AllPrintable (cs : List Char) : Prop := ∀ c ∈ cs, isPrintable c = true

theorem allPrintable_cons {c : Char} {cs : List Char} (hc : isPrintable c = true)
    (hcs : AllPrintable cs) : AllPrintable (c :: cs) :=
  List.forall_mem_cons.mpr ⟨hc, hcs⟩

theorem allPrintable_append {cs ds : List Char} (hcs : AllPrintable cs) (hds : AllPrintable ds) :
    AllPrintable (cs ++ ds) :=
  List.forall_mem_append.mpr ⟨hcs, hds⟩

theorem allPrintable_digits {ds : List Char} (hds : ∀ c ∈ ds, c.isDigit = true) :
    AllPrintable ds := by
  intro c hc
  have hdigit := hds c hc
  simp only [Char.isDigit, Bool.and_eq_true, decide_eq_true_eq] at hdigit
  simp only [isPrintable, Bool.and_eq_true, decide_eq_true_eq, Char.toNat]
  have hlow : 48 ≤ c.val.toNat := UInt32.le_iff_toNat_le.mp hdigit.1
  have hhigh : c.val.toNat ≤ 57 := UInt32.le_iff_toNat_le.mp hdigit.2
  omega

theorem allPrintable_numeral (d : Numeral) : AllPrintable d.text := by
  have hsign : AllPrintable (Numeral.signText d.negative) := by
    cases d.negative with
    | true => exact allPrintable_cons rfl (by simp [AllPrintable])
    | false => simp [AllPrintable, Numeral.signText]
  have hwhole : AllPrintable (Nat.toDigits 10 d.whole) :=
    allPrintable_digits fun _ h => Numeral.isDigit_of_mem_toDigits h
  have hfraction : AllPrintable (Numeral.fractionText d.fraction) := by
    rw [Numeral.fractionText]
    split
    · simp [AllPrintable]
    · exact allPrintable_cons rfl (allPrintable_digits d.fraction.property)
  have hexponent : AllPrintable (Numeral.exponentText d.exponent) := by
    cases d.exponent with
    | none => simp [AllPrintable, Numeral.exponentText]
    | some e =>
        refine allPrintable_cons rfl (allPrintable_cons ?_
          (allPrintable_digits fun _ h => Numeral.isDigit_of_mem_exponentDigits h))
        split <;> rfl
  exact allPrintable_append hsign (allPrintable_append hwhole
    (allPrintable_append hfraction hexponent))

theorem allPrintable_quote (s : List Char) : AllPrintable (StringLiteral.quote s) :=
  fun _ h => StringLiteral.isPrintable_of_mem_quote h

theorem allPrintable_key (key : String) : AllPrintable (dumpsKey key) :=
  allPrintable_append (allPrintable_quote _) (by simp [AllPrintable, isPrintable])

mutual

theorem allPrintable_dumps : ∀ v, AllPrintable (dumps floats v)
  | null => by rw [dumps]; simp [AllPrintable, isPrintable]
  | bool true => by rw [dumps]; simp [AllPrintable, isPrintable]
  | bool false => by rw [dumps]; simp [AllPrintable, isPrintable]
  | int n => by rw [dumps]; exact allPrintable_numeral _
  | float (.finite x) => by rw [dumps]; exact allPrintable_numeral _
  | float (.infinity true) => by rw [dumps]; simp [dumpsFloat, AllPrintable, isPrintable]
  | float (.infinity false) => by rw [dumps]; simp [dumpsFloat, AllPrintable, isPrintable]
  | float .nan => by rw [dumps]; simp [dumpsFloat, AllPrintable, isPrintable]
  | str s => by rw [dumps]; exact allPrintable_quote _
  | list [] => by rw [dumps]; simp [AllPrintable, isPrintable]
  | list (item :: items) => by
      rw [dumps]
      exact allPrintable_cons rfl
        (allPrintable_append (allPrintable_dumps item) (allPrintable_dumpsItems items))
  | dict [] => by rw [dumps]; simp [AllPrintable, isPrintable]
  | dict ((key, value) :: members) => by
      rw [dumps]
      exact allPrintable_cons rfl (allPrintable_append (allPrintable_key key)
        (allPrintable_append (allPrintable_dumps value) (allPrintable_dumpsMembers members)))

theorem allPrintable_dumpsItems : ∀ items, AllPrintable (dumpsItems floats items)
  | [] => by rw [dumpsItems]; simp [AllPrintable, isPrintable]
  | item :: items => by
      rw [dumpsItems]
      exact allPrintable_cons rfl (allPrintable_cons rfl
        (allPrintable_append (allPrintable_dumps item) (allPrintable_dumpsItems items)))

theorem allPrintable_dumpsMembers : ∀ members, AllPrintable (dumpsMembers floats members)
  | [] => by rw [dumpsMembers]; simp [AllPrintable, isPrintable]
  | (key, value) :: members => by
      rw [dumpsMembers]
      exact allPrintable_cons rfl (allPrintable_cons rfl (allPrintable_append (allPrintable_key key)
        (allPrintable_append (allPrintable_dumps value) (allPrintable_dumpsMembers members))))

end

end Printable

end Json

section Halves

theorem sign_mul_natAbs (x : ℚ) : (if x < 0 then -1 else 1 : ℚ) * x.num.natAbs = x.num := by
  by_cases hx : x < 0
  · have hnum : x.num < 0 := Rat.num_neg.mpr hx
    have habs : (x.num.natAbs : Int) = - x.num := by omega
    have hcast := congrArg (Int.cast : Int → ℚ) habs
    rw [Int.cast_natCast, Int.cast_neg] at hcast
    rw [if_pos hx, hcast]
    ring
  · have hnum : 0 ≤ x.num := Rat.num_nonneg.mpr (not_lt.mp hx)
    have habs : (x.num.natAbs : Int) = x.num := by omega
    have hcast := congrArg (Int.cast : Int → ℚ) habs
    rw [Int.cast_natCast] at hcast
    rw [if_neg hx, hcast, one_mul]

/-- A half is its whole part and five tenths. -/
theorem natAbs_div_den {x : ℚ} (hx : x.den ∣ 2) :
    ((x.num.natAbs / x.den : Nat) : ℚ) + (if x.den = 1 then 0 else 5) / 10 =
      x.num.natAbs / x.den := by
  have hden : x.den = 1 ∨ x.den = 2 := (Nat.dvd_prime Nat.prime_two).mp hx
  rcases hden with hden | hden
  · simp [hden]
  · have hodd : x.num.natAbs % 2 = 1 := by
      have hcoprime := x.reduced
      rw [hden, Nat.coprime_two_right] at hcoprime
      exact Nat.odd_iff.mp hcoprime
    have hsplit : x.num.natAbs = 2 * (x.num.natAbs / 2) + 1 := by omega
    have hcast : (x.num.natAbs : ℚ) = 2 * ((x.num.natAbs / 2 : Nat) : ℚ) + 1 := by
      exact_mod_cast hsplit
    rw [hden, if_neg (by decide), hcast]
    field_simp
    ring

/-- Multiples of a half that are written without an exponent, and the value of a numeral. -/
def halves : FloatText where
  IsFloat x := x.den ∣ 2 ∧ x.num.natAbs < 10 ^ 16
  repr x := ⟨decide (x < 0), x.num.natAbs / x.den,
    if x.den = 1 then ⟨['0'], by simp⟩ else ⟨['5'], by simp⟩, none⟩
  parse d := .finite ((if d.negative then -1 else 1) *
    (d.whole + Nat.ofDigitChars 10 d.fraction.val 0 / 10 ^ d.fraction.val.length) *
    10 ^ d.exponent.getD 0)
  repr_isInteger x _ := by
    simp only [Numeral.isInteger]
    split <;> rfl
  parse_repr x hx := by
    have hvalue : (if x < 0 then -1 else 1 : ℚ) *
        (((x.num.natAbs / x.den : Nat) : ℚ) + (if x.den = 1 then 0 else 5) / 10) = x := by
      rw [natAbs_div_den hx.1, mul_div_assoc', sign_mul_natAbs, Rat.num_div_den]
    simp only [decide_eq_true_eq, Option.getD_none, zpow_zero, mul_one, PyFloat.finite.injEq]
    refine Eq.trans ?_ hvalue
    by_cases hden : x.den = 1
    · simp only [if_pos hden]
      simp [Nat.ofDigitChars_cons]
    · simp only [if_neg hden]
      simp [Nat.ofDigitChars_cons]

/-- A chat message, half a second past a full one. -/
def lobbyMessage : DecodedMessage where
  channel := .str "room:lobby"
  payload := .dict [("text", .str "café \"😀\""), ("ids", .list [.int 1, .int (-2)])]
  timestamp := .float (.finite (3400000001 / 2))
  publisherId := .str ""

theorem lobbyMessage_representable :
    Json.Representable halves (.dict
      [("channel", lobbyMessage.channel), ("payload", lobbyMessage.payload),
        ("timestamp", lobbyMessage.timestamp), ("publisher_id", lobbyMessage.publisherId)]) := by
  have htimestamp : halves.IsFloat (3400000001 / 2) := ⟨by decide +kernel, by decide +kernel⟩
  simp [lobbyMessage, Json.Representable, Json.RepresentableItems, Json.RepresentableMembers,
    htimestamp]

end Halves

section Messages

variable (floats : FloatText) (errorText : String → String) (now : ℚ)

/-- The members that `to_json` writes. -/
def DecodedMessage.members (msg : DecodedMessage) : List (String × Json) :=
  [("channel", msg.channel), ("payload", msg.payload), ("timestamp", msg.timestamp),
    ("publisher_id", msg.publisherId)]

theorem toJson_eq (msg : DecodedMessage) :
    (toJson floats msg).toList = Json.dumps floats (.dict msg.members) :=
  String.toList_ofList

/-- `from_json` inverts `to_json`, whatever the fields of the message are, as long as neither
call meets the interpreter's limits on nesting and on the digits of an `int`. -/
theorem from_json_of_to_json (msg : DecodedMessage)
    (hrep : Json.Representable floats (.dict msg.members)) :
    fromJson (Json.loads floats errorText) now (toJson floats msg) = .ok msg := by
  have hloads : Json.loads floats errorText (toJson floats msg) = .ok (.dict msg.members) :=
    Json.loads_dumps floats errorText hrep
  have hchannel : (Json.dict msg.members).field? "channel" = some msg.channel := rfl
  have hpayload : (Json.dict msg.members).field? "payload" = some msg.payload := rfl
  rw [fromJson_of_fields now hloads hchannel hpayload]
  rfl

theorem lobby_message_is_read_back :
    toJson halves lobbyMessage =
        "\x7b\"channel\": \"room:lobby\", " ++
          "\"payload\": \x7b" ++
          "\"text\": \"caf\\u00e9 \\\"\\ud83d\\ude00\\\"\", \"ids\": [1, -2]\x7d, " ++
          "\"timestamp\": 1700000000.5, \"publisher_id\": \"\"\x7d" ∧
      fromJson (Json.loads halves fun _ => "Expecting value: line 1 column 1 (char 0)") 0
        (toJson halves lobbyMessage) = .ok lobbyMessage :=
  ⟨by decide +kernel, from_json_of_to_json halves _ 0 lobbyMessage lobbyMessage_representable⟩

/-- A message that was cut off raises `ValueError` at every place where it can be cut. -/
theorem cut_message_is_rejected (msg : DecodedMessage)
    (hrep : Json.Representable floats (.dict msg.members)) (cut lost : List Char)
    (hcut : cut ++ lost = (toJson floats msg).toList) (hlost : lost ≠ []) :
    fromJson (Json.loads floats errorText) now (String.ofList cut) =
      .error (.valueError ("Invalid message JSON: " ++ errorText (String.ofList cut))) := by
  rw [toJson_eq] at hcut
  exact fromJson_of_invalid now (Json.loads_of_cut floats errorText hrep hcut hlost)

theorem half_lobby_message_is_rejected :
    fromJson (Json.loads halves fun _ => "Unterminated string") 0
        (String.ofList ((toJson halves lobbyMessage).toList.take 40)) =
      .error (.valueError "Invalid message JSON: Unterminated string") :=
  cut_message_is_rejected halves _ 0 lobbyMessage lobbyMessage_representable _
    ((toJson halves lobbyMessage).toList.drop 40) (List.take_append_drop 40 _) (by decide +kernel)

/-- A message is one line of ASCII, whatever characters its strings hold. -/
theorem wire_text_is_printable (msg : DecodedMessage) :
    ∀ c ∈ (toJson floats msg).toList, 0x20 ≤ c.toNat ∧ c.toNat ≤ 0x7e := by
  intro c hc
  rw [toJson_eq] at hc
  have hprintable := Json.allPrintable_dumps floats _ c hc
  simpa only [StringLiteral.isPrintable, Bool.and_eq_true, decide_eq_true_eq] using hprintable

theorem last_character_is_printable :
    let text := (toJson halves lobbyMessage).toList
    let last := text.getLast (by decide +kernel)
    0x20 ≤ last.toNat ∧ last.toNat ≤ 0x7e := by
  intro text last
  exact wire_text_is_printable halves lobbyMessage last (List.getLast_mem _)

end Messages

end WebSocketPatterns.PubSub
