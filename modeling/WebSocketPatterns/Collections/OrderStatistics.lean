import Mathlib.Data.List.Sort
import Mathlib.Order.Bounds.Basic

/-!
# Order statistics of a list

The entry at an index of the sorted list is described without sorting: it is
the least element that has more elements at or below it than the index. Ties
between neighbouring entries show in the same counts.
-/

namespace OrderStatistics

variable {α : Type*} [LinearOrder α]

/-- How many entries are at most the given value. -/
def countLe (data : List α) (v : α) : Nat := data.countP (· ≤ v)

/-- The entry at an index of the sorted list. -/
def orderStatistic (data : List α) (k : Nat) : Option α := (data.insertionSort (· ≤ ·))[k]?

theorem countLe_eq_zero {data : List α} {v : α} (h : ∀ w ∈ data, v < w) : countLe data v = 0 := by
  rw [countLe, List.countP_eq_zero]
  intro w hw
  simpa using h w hw

theorem countLe_perm {data other : List α} (h : data.Perm other) (v : α) :
    countLe data v = countLe other v :=
  h.countP_eq _

/-- In a sorted list the entries at most a value come first. -/
theorem getElem_le_iff {sorted : List α} (h : sorted.Pairwise (· ≤ ·)) {k : Nat}
    (hk : k < sorted.length) (v : α) : sorted[k] ≤ v ↔ k < countLe sorted v := by
  induction sorted generalizing k with
  | nil => simp at hk
  | cons a rest ih =>
      obtain ⟨hhead, hrest⟩ := List.pairwise_cons.mp h
      by_cases ha : a ≤ v
      · have hcount : countLe (a :: rest) v = countLe rest v + 1 :=
          List.countP_cons_of_pos (by simpa using ha)
        rw [hcount]
        cases k with
        | zero => simpa using ha
        | succ k => simpa using ih hrest (by simpa using hk)
      · have hcount : countLe (a :: rest) v = 0 := by
          apply countLe_eq_zero
          intro w hw
          rcases List.mem_cons.mp hw with rfl | hw
          · exact not_le.mp ha
          · exact (not_le.mp ha).trans_le (hhead w hw)
        rw [hcount]
        refine iff_of_false ?_ (Nat.not_lt_zero k)
        cases k with
        | zero => exact ha
        | succ k => exact fun hle => ha ((hhead _ (List.getElem_mem _)).trans hle)

/-- An index of the data has an entry: the elements whose count exceeds the index are those at
or above it. -/
theorem exists_orderStatistic {data : List α} {k : Nat} (hk : k < data.length) :
    ∃ v ∈ data, orderStatistic data k = some v ∧ ∀ w, v ≤ w ↔ k < countLe data w := by
  have hlength : k < (data.insertionSort (· ≤ ·)).length := by
    rwa [List.length_insertionSort]
  refine ⟨(data.insertionSort (· ≤ ·))[k], ?_, List.getElem?_eq_getElem hlength, ?_⟩
  · exact (List.mem_insertionSort _).mp (List.getElem_mem hlength)
  · intro w
    rw [getElem_le_iff (List.pairwise_insertionSort _ _) hlength,
      countLe_perm (List.perm_insertionSort _ _)]

/-- The order statistic is the least element with more than `k` elements at or below it. -/
theorem orderStatistic_eq_some_iff {data : List α} {k : Nat} (hk : k < data.length) (v : α) :
    orderStatistic data k = some v ↔ IsLeast {w | w ∈ data ∧ k < countLe data w} v := by
  obtain ⟨least, hmem, hleast, hle⟩ := exists_orderStatistic hk
  have hisLeast : IsLeast {w | w ∈ data ∧ k < countLe data w} least :=
    ⟨⟨hmem, (hle least).mp le_rfl⟩, fun w hw => (hle w).mpr hw.2⟩
  rw [hleast]
  constructor
  · rintro ⟨rfl⟩
    exact hisLeast
  · intro hv
    exact congrArg some (hisLeast.unique hv)

/-- Neighbouring order statistics are equal exactly when no element has the count between. -/
theorem orderStatistic_eq_succ_iff {data : List α} {k : Nat} (hk : k + 1 < data.length) :
    orderStatistic data k = orderStatistic data (k + 1) ↔ ∀ v ∈ data, countLe data v ≠ k + 1 := by
  obtain ⟨low, hmem, hlow, hle⟩ := exists_orderStatistic (Nat.lt_of_succ_lt hk)
  obtain ⟨high, _, hhigh, hle'⟩ := exists_orderStatistic hk
  rw [hlow, hhigh, Option.some.injEq]
  constructor
  · rintro rfl v _ hcount
    have hv : low ≤ v := (hle v).mpr (by omega)
    have hover := (hle' v).mp hv
    omega
  · intro hnone
    have hcount := (hle low).mp le_rfl
    have hne := hnone low hmem
    apply le_antisymm
    · exact (hle high).mpr (Nat.lt_of_succ_lt ((hle' high).mp le_rfl))
    · exact (hle' low).mpr (by omega)

end OrderStatistics
