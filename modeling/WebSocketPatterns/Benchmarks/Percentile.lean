import WebSocketPatterns.Collections.OrderStatistics
import Mathlib.Algebra.Order.Archimedean.Basic
import Mathlib.Algebra.Order.Field.Rat
import Mathlib.Algebra.Order.Floor.Semiring
import Mathlib.Data.Rat.Floor
import Mathlib.Tactic.Positivity

/-!
# The percentiles of the throughput benchmark

The nearest-rank percentile is the smallest latency that the given share of all
latencies does not exceed: its rank is that share of their number, rounded up.
`_percentile` rounds it down. Numbers are exact here.
-/

namespace WebSocketPatterns.Benchmarks

open OrderStatistics

/-- `int(x)`, which truncates toward zero. -/
def truncate (x : ℚ) : Int := if 0 ≤ x then ⌊x⌋ else ⌈x⌉

/-- The `pct`-th percentile of `data`; `none` is the `IndexError`. -/
def percentile (data : List ℚ) (pct : ℚ) : Option ℚ :=
  if data = [] then some 0
  else
    let sortedData := data.insertionSort (· ≤ ·)
    let k := max 0 (truncate (sortedData.length * pct / 100) - 1)
    sortedData[k.toNat]?

/-- The smallest element such that at least `pct` percent of the elements are at most it. -/
def IsNearestRank (data : List ℚ) (pct v : ℚ) : Prop :=
  IsLeast {w | w ∈ data ∧ pct * data.length ≤ 100 * countLe data w} v

/-- How many elements `pct` percent of them are. -/
def share (data : List ℚ) (pct : ℚ) : ℚ := data.length * pct / 100

section Ranks

variable {data : List ℚ} {pct : ℚ}

theorem share_nonneg (hpct : 0 < pct) : 0 ≤ share data pct := by
  rw [share]
  positivity

theorem share_pos (hdata : data ≠ []) (hpct : 0 < pct) : 0 < share data pct := by
  have hlength : 0 < data.length := List.length_pos_iff.mpr hdata
  rw [share]
  positivity

theorem share_le_length (hle : pct ≤ 100) : share data pct ≤ data.length := by
  rw [share, div_le_iff₀ (by norm_num)]
  exact mul_le_mul_of_nonneg_left hle (Nat.cast_nonneg _)

theorem ceil_share_pos (hdata : data ≠ []) (hpct : 0 < pct) : 0 < ⌈share data pct⌉₊ :=
  Nat.ceil_pos.mpr (share_pos hdata hpct)

theorem ceil_share_le (hle : pct ≤ 100) : ⌈share data pct⌉₊ ≤ data.length :=
  Nat.ceil_le.mpr (share_le_length hle)

/-- The code looks up the share rounded down. -/
theorem percentile_eq (hdata : data ≠ []) (hpct : 0 < pct) :
    percentile data pct = orderStatistic data (⌊share data pct⌋₊ - 1) := by
  have hindex : (max 0 (truncate (share data pct) - 1)).toNat = ⌊share data pct⌋₊ - 1 := by
    rw [truncate, if_pos (share_nonneg hpct), ← Int.natCast_floor_eq_floor (share_nonneg hpct)]
    omega
  rw [percentile, if_neg hdata]
  simp only [List.length_insertionSort]
  exact congrArg _ hindex

/-- The nearest rank is the share rounded up. -/
theorem isNearestRank_iff (hdata : data ≠ []) (hpct : 0 < pct) (hle : pct ≤ 100) (v : ℚ) :
    IsNearestRank data pct v ↔ orderStatistic data (⌈share data pct⌉₊ - 1) = some v := by
  have hpos := ceil_share_pos hdata hpct
  have hlength : ⌈share data pct⌉₊ ≤ data.length := ceil_share_le hle
  have hreaches : ∀ count : Nat,
      pct * data.length ≤ 100 * count ↔ ⌈share data pct⌉₊ - 1 < count := by
    intro count
    have hshare : share data pct ≤ count ↔ pct * data.length ≤ 100 * count := by
      rw [share, div_le_iff₀ (by norm_num), mul_comm pct, mul_comm (100 : ℚ)]
    rw [← hshare, ← Nat.ceil_le]
    omega
  rw [IsNearestRank, orderStatistic_eq_some_iff (by omega)]
  simp only [hreaches]

/-- A share that is no integer is rounded to neighbouring ranks. -/
theorem ceil_eq_floor_add_one {x : ℚ} (hx : 0 ≤ x) (hfraction : ¬ ∃ rank : Nat, x = rank) :
    ⌈x⌉₊ = ⌊x⌋₊ + 1 := by
  apply le_antisymm (Nat.ceil_le_floor_add_one x)
  rw [Nat.succ_le_iff, Nat.lt_ceil]
  apply lt_of_le_of_ne (Nat.floor_le hx)
  intro heq
  exact hfraction ⟨_, heq.symm⟩

/-- The percentile is a nearest rank exactly when both roundings look up the same element. -/
theorem percentile_isNearestRank_iff (hdata : data ≠ []) (hpct : 0 < pct) (hle : pct ≤ 100) :
    (∃ v, percentile data pct = some v ∧ IsNearestRank data pct v) ↔
      orderStatistic data (⌊share data pct⌋₊ - 1) =
        orderStatistic data (⌈share data pct⌉₊ - 1) := by
  have hpos := ceil_share_pos hdata hpct
  have hlength : ⌈share data pct⌉₊ ≤ data.length := ceil_share_le hle
  simp only [percentile_eq hdata hpct, isNearestRank_iff hdata hpct hle]
  constructor
  · rintro ⟨v, hdown, hup⟩
    rw [hdown, hup]
  · intro heq
    have hindex : ⌈share data pct⌉₊ - 1 < data.length := by omega
    obtain ⟨v, _, hup, _⟩ := exists_orderStatistic hindex
    exact ⟨v, heq.trans hup, hup⟩

/-- `_percentile` is the nearest-rank percentile if and only if the share is less than one
element or a whole number of elements, or no element has exactly the rounded-down share of the
elements at or below it, so that the element one rank below the nearest is equal to it. -/
theorem percentile_nearest_rank_iff (hdata : data ≠ []) (hpct : 0 < pct) (hle : pct ≤ 100) :
    (∃ v, percentile data pct = some v ∧ IsNearestRank data pct v) ↔
      share data pct < 1 ∨ (∃ rank : Nat, share data pct = rank) ∨
        ∀ v ∈ data, countLe data v ≠ ⌊share data pct⌋₊ := by
  rw [percentile_isNearestRank_iff hdata hpct hle]
  by_cases hsmall : share data pct < 1
  · have hdown : ⌊share data pct⌋₊ = 0 := Nat.floor_eq_zero.mpr hsmall
    have hup : ⌈share data pct⌉₊ ≤ 1 := Nat.ceil_le.mpr (by simpa using hsmall.le)
    have hindex : ⌈share data pct⌉₊ - 1 = ⌊share data pct⌋₊ - 1 := by omega
    simp [hsmall, hindex]
  · by_cases hwhole : ∃ rank : Nat, share data pct = rank
    · obtain ⟨rank, hrank⟩ := hwhole
      simp [hrank]
    · have hup := ceil_eq_floor_add_one (share_nonneg hpct) hwhole
      have hdown : 1 ≤ ⌊share data pct⌋₊ := (Nat.one_le_floor_iff _).mpr (not_lt.mp hsmall)
      have hlength : ⌈share data pct⌉₊ ≤ data.length := ceil_share_le hle
      have hindex : ⌊share data pct⌋₊ - 1 + 1 < data.length := by omega
      have hties := orderStatistic_eq_succ_iff hindex
      rw [Nat.sub_add_cancel hdown] at hties
      rw [hup, Nat.add_sub_cancel, hties]
      simp only [hsmall, hwhole, false_or]

end Ranks

/-- The latencies of twenty rounds, one of each length from 1 to 20 ms. -/
def twentyRounds : List ℚ := (List.range 20).map fun i => (i : ℚ) + 1

/-- 95 percent of twenty rounds are a whole number of rounds. -/
theorem percentile_nearest_rank_twentyRounds :
    ∃ v, percentile twentyRounds 95 = some v ∧ IsNearestRank twentyRounds 95 v := by
  apply (percentile_nearest_rank_iff (by decide) (by norm_num) (by norm_num)).mpr
  exact Or.inr (Or.inl ⟨19, by norm_num [share, twentyRounds]⟩)

/-- The 99th percentile of the same rounds is given as 19 ms, which five percent of them exceed. -/
theorem percentile_below_nearest_rank :
    percentile twentyRounds 99 = some 19 ∧ IsNearestRank twentyRounds 99 20 ∧
      ¬ IsNearestRank twentyRounds 99 19 := by
  have hnearest : IsNearestRank twentyRounds 99 20 := by
    rw [isNearestRank_iff (by decide) (by norm_num) (by norm_num)]
    decide +kernel
  refine ⟨by decide +kernel, hnearest, ?_⟩
  intro h
  exact absurd (h.unique hnearest) (by norm_num)

end WebSocketPatterns.Benchmarks
