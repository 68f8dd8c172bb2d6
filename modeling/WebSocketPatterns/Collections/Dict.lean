import Mathlib.Data.List.AList

/-!
# Insertion-ordered dictionaries

Mathlib's association lists carry distinct keys as a field. Their `insert`
moves the key to the front, whereas `dict.__setitem__` keeps the place of a
present key and puts a new key last; `Dict.set` is that operation. Lookup and
removal are Mathlib's own.
-/

/-- A Python `dict`: entries in insertion order, keys pairwise distinct. -/
abbrev Dict (K V : Type*) := AList fun _ : K => V

namespace Dict

variable {K V : Type*} [DecidableEq K]

/-- `d[k] = v`. -/
def set (d : Dict K V) (k : K) (v : V) : Dict K V :=
  if h : k ∈ d.entries.keys then d.replace k v
  else
    { entries := d.entries ++ [⟨k, v⟩]
      nodupKeys := by
        rw [List.NodupKeys, List.keys_append]
        exact List.nodup_append.mpr ⟨d.nodupKeys, by simp [List.keys], by
          intro a ha b hb hab
          obtain rfl : b = k := by simpa [List.keys] using hb
          exact h (hab ▸ ha)⟩ }

/-- `d.values()`. -/
def values (d : Dict K V) : List V := d.entries.map Sigma.snd

/-- `len(d)`. -/
def len (d : Dict K V) : Nat := d.entries.length

private theorem dlookup_replace (l : List (Sigma fun _ : K => V)) (k j : K) (v : V)
    (hk : k ∈ l.keys) :
    (List.kreplace k v l).dlookup j = if j = k then some v else l.dlookup j := by
  induction l with
  | nil => simp [List.keys] at hk
  | cons e l ih =>
      obtain ⟨i, w⟩ := e
      by_cases hi : k = i
      · subst hi
        have hr : List.kreplace k v (⟨k, w⟩ :: l) = ⟨k, v⟩ :: l :=
          List.lookmap_cons_some _ l (by simp)
        rw [hr]
        by_cases hj : j = k
        · subst hj
          simp
        · simp [hj]
      · have hr : List.kreplace k v (⟨i, w⟩ :: l) = ⟨i, w⟩ :: List.kreplace k v l :=
          List.lookmap_cons_none _ l (by simp [hi])
        have hl : k ∈ l.keys := by simpa [hi] using hk
        rw [hr]
        by_cases hj : j = i
        · subst hj
          simp [Ne.symm hi]
        · simp [hj, ih hl]

/-- Reading after writing: the written key gives the new value, all others the old one. -/
theorem lookup_set (d : Dict K V) (k j : K) (v : V) :
    (d.set k v).lookup j = if j = k then some v else d.lookup j := by
  unfold set
  split
  case isTrue h => exact dlookup_replace d.entries k j v h
  case isFalse h =>
    change List.dlookup j (d.entries ++ [⟨k, v⟩]) =
      if j = k then some v else List.dlookup j d.entries
    rw [List.dlookup_append]
    by_cases hj : j = k
    · subst hj
      simp [List.dlookup_eq_none.mpr h]
    · simp [hj]

/-- Reading after `d.pop(k, None)`. -/
theorem lookup_erase_eq (d : Dict K V) (k j : K) :
    (d.erase k).lookup j = if j = k then none else d.lookup j := by
  by_cases h : j = k
  · subst h
    simp
  · simp [h, AList.lookup_erase_ne h]

theorem mem_keys_iff (d : Dict K V) (k : K) : k ∈ d.keys ↔ ∃ v, d.lookup k = some v := by
  rw [← Option.isSome_iff_exists]
  exact AList.lookup_isSome.symm

omit [DecidableEq K] in
theorem len_eq_length_keys (d : Dict K V) : d.len = d.keys.length := (List.length_map _).symm

/-- A new key is the last one, a present one keeps its place. -/
theorem keys_set (d : Dict K V) (k : K) (v : V) :
    (d.set k v).keys = if k ∈ d.keys then d.keys else d.keys ++ [k] := by
  change (set d k v).keys = if k ∈ d.entries.keys then d.keys else d.keys ++ [k]
  unfold set
  by_cases h : k ∈ d.entries.keys
  · rw [dif_pos h, if_pos h]
    exact AList.keys_replace k v d
  · rw [dif_neg h, if_neg h]
    exact List.keys_append

/-- Writing counts a key once. -/
theorem len_set (d : Dict K V) (k : K) (v : V) :
    (d.set k v).len = if (d.lookup k).isSome then d.len else d.len + 1 := by
  have hkey : k ∈ d.entries.keys ↔ (d.lookup k).isSome = true := AList.lookup_isSome.symm
  unfold set len
  by_cases h : k ∈ d.entries.keys
  · rw [dif_pos h, if_pos (hkey.mp h)]
    simpa [AList.keys, List.keys] using congrArg List.length (d.keys_replace k v)
  · rw [dif_neg h, if_neg (hkey.not.mp h), List.length_append]
    rfl

/-- `d.pop(k, None)` removes at most the one entry. -/
theorem len_erase (d : Dict K V) (k : K) :
    len (d.erase k) = if (d.lookup k).isSome then d.len - 1 else d.len := by
  have hkey : k ∈ d.keys ↔ (d.lookup k).isSome = true := AList.lookup_isSome.symm
  rw [len_eq_length_keys, len_eq_length_keys, AList.keys_erase, List.length_erase]
  simp only [hkey]

private theorem kerase_eq_filter (k : K) {l : List (Sigma fun _ : K => V)} (h : l.NodupKeys) :
    l.kerase k = l.filter fun e => e.1 ≠ k := by
  induction l with
  | nil => rfl
  | cons e l ih =>
      obtain ⟨hfresh, hl⟩ := List.nodupKeys_cons.mp h
      by_cases he : k = e.1
      · subst he
        have hkeep : ∀ i ∈ l, i.1 ≠ e.1 := by
          intro i hi hk
          exact hfresh (hk ▸ List.mem_map_of_mem hi)
        rw [List.kerase_cons_eq rfl, List.filter_cons_of_neg (by simp)]
        exact (List.filter_eq_self.mpr (by simpa using hkeep)).symm
      · rw [List.kerase_cons_ne he, ih hl, List.filter_cons_of_pos (by simpa using Ne.symm he)]

/-- `d.pop(k, None)` keeps the other entries, and their order. -/
theorem entries_erase (d : Dict K V) (k : K) :
    (AList.erase k d).entries = d.entries.filter fun e => e.1 ≠ k :=
  kerase_eq_filter k d.nodupKeys

/-- The listed values are those found under some key. -/
theorem mem_values_iff (d : Dict K V) (v : V) :
    v ∈ d.values ↔ ∃ k, d.lookup k = some v := by
  constructor
  · intro h
    obtain ⟨⟨k, w⟩, hm, rfl⟩ := List.mem_map.mp h
    exact ⟨k, AList.mem_lookup_iff.mpr hm⟩
  · rintro ⟨k, hk⟩
    exact List.mem_map.mpr ⟨⟨k, v⟩, AList.mem_lookup_iff.mp hk, rfl⟩

/-- Where every value is stored under the key `f` gives it, the values have distinct keys. -/
theorem nodup_map_values {d : Dict K V} {f : V → K}
    (h : ∀ k v, d.lookup k = some v → f v = k) : (d.values.map f).Nodup := by
  have hkeys : d.values.map f = d.entries.keys := by
    rw [values, List.map_map, List.keys]
    apply List.map_congr_left
    intro e he
    exact h e.1 e.2 (AList.mem_lookup_iff.mpr he)
  rw [hkeys]
  exact d.nodupKeys

end Dict
