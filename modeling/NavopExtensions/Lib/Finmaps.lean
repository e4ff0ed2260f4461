import Mathlib

/-!
# Entries of finite maps

`Finmap.retain` keeps the entries that satisfy a predicate, and `Finmap.total` adds up a measure of
the values.
-/

namespace Finmap

variable {α : Type*} {β : Type*} [DecidableEq α]

/-- The entries that satisfy a predicate. -/
def retain (keep : α → β → Bool) (map : Finmap fun _ : α => β) : Finmap fun _ : α => β where
  entries := map.entries.filter fun entry => keep entry.1 entry.2
  nodupKeys := by
    refine Multiset.nodup_keys.1 (Multiset.nodup_of_le ?_ (Multiset.nodup_keys.2 map.nodupKeys))
    exact Multiset.map_le_map (Multiset.filter_le _ _)

theorem lookup_retain (keep : α → β → Bool) (map : Finmap fun _ : α => β) (key : α) :
    (map.retain keep).lookup key = (map.lookup key).filter (keep key) := by
  refine Option.ext fun value => ?_
  rw [← Option.mem_def, ← Option.mem_def, Option.mem_filter_iff, mem_lookup_iff, mem_lookup_iff]
  exact Multiset.mem_filter

/-- The sum of a measure of the values. -/
def total (measure : β → ℕ) (map : Finmap fun _ : α => β) : ℕ :=
  (map.entries.map fun entry => measure entry.2).sum

variable (measure : β → ℕ) {map : Finmap fun _ : α => β} {key : α} {value value' : β}

theorem total_insert_of_notMem (h : key ∉ map) :
    (map.insert key value).total measure = measure value + map.total measure := by
  rw [total, entries_insert_of_notMem h, Multiset.map_cons, Multiset.sum_cons]
  rfl

theorem insert_eq_self (h : map.lookup key = some value) : map.insert key value = map := by
  refine ext_lookup fun k => ?_
  by_cases hk : k = key
  · rw [hk, lookup_insert, h]
  · rw [lookup_insert_of_ne map hk]

theorem insert_erase (map : Finmap fun _ : α => β) (key : α) (value : β) :
    (map.erase key).insert key value = map.insert key value := by
  refine ext_lookup fun k => ?_
  by_cases hk : k = key
  · rw [hk, lookup_insert, lookup_insert]
  · rw [lookup_insert_of_ne _ hk, lookup_insert_of_ne _ hk, lookup_erase_ne hk]

theorem total_insert (map : Finmap fun _ : α => β) (key : α) (value : β) :
    (map.insert key value).total measure = measure value + (map.erase key).total measure := by
  rw [← insert_erase, total_insert_of_notMem measure fun hmem => (mem_erase.1 hmem).1 rfl]

theorem total_of_lookup (h : map.lookup key = some value) :
    map.total measure = measure value + (map.erase key).total measure := by
  rw [← total_insert, insert_eq_self h]

/-- Another value of the same measure. -/
theorem total_insert_of_lookup (h : map.lookup key = some value)
    (hmeasure : measure value' = measure value) :
    (map.insert key value').total measure = map.total measure := by
  rw [total_insert, hmeasure, ← total_of_lookup measure h]

theorem le_total_of_lookup (h : map.lookup key = some value) : measure value ≤ map.total measure :=
  total_of_lookup measure h ▸ Nat.le_add_right _ _

theorem total_erase_le (map : Finmap fun _ : α => β) (key : α) :
    (map.erase key).total measure ≤ map.total measure := by
  cases h : map.lookup key with
  | some value => exact total_of_lookup measure h ▸ Nat.le_add_left _ _
  | none =>
    have hsame : map.erase key = map := by
      refine ext_lookup fun k => ?_
      by_cases hk : k = key
      · rw [hk, lookup_erase, h]
      · rw [lookup_erase_ne hk]
    rw [hsame]

omit [DecidableEq α] in
theorem total_retain_le (keep : α → β → Bool) (map : Finmap fun _ : α => β) :
    (map.retain keep).total measure ≤ map.total measure := by
  have hsplit := congrArg (fun entries => (entries.map fun entry => measure entry.2).sum)
    (Multiset.filter_add_not (fun entry => keep entry.1 entry.2 = true) map.entries)
  simp only [Multiset.map_add, Multiset.sum_add] at hsplit
  exact Nat.le.intro hsplit

end Finmap
