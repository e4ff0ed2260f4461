import Mathlib

/-!
# Maps that keep the order of their keys

A map as a list of entries: a key keeps its place when it gets another value, and a new one goes to the
end. What is put into a map last under a key is what is found there (`lookup_ofPairs`).
-/

namespace Linked

variable {κ β : Type*} [DecidableEq κ]

/-- Put a value under a key. -/
def put (key : κ) (value : β) : List (κ × β) → List (κ × β)
  | [] => [(key, value)]
  | entry :: entries =>
    if entry.1 = key then (key, value) :: entries else entry :: put key value entries

/-- The map of some entries, put into it one after another. -/
def ofPairs (pairs : List (κ × β)) : List (κ × β) :=
  pairs.foldl (fun map pair => put pair.1 pair.2 map) []

theorem lookup_entry (k : κ) (entry : κ × β) (map : List (κ × β)) :
    (entry :: map).lookup k = if k = entry.1 then some entry.2 else map.lookup k := by
  rw [List.lookup_cons]
  by_cases hk : k = entry.1
  · rw [if_pos hk, beq_iff_eq.2 hk]
  · rw [if_neg hk, beq_eq_false_iff_ne.2 hk]

theorem lookup_put (key k : κ) (value : β) (map : List (κ × β)) :
    (put key value map).lookup k = if k = key then some value else map.lookup k := by
  induction map with
  | nil => exact lookup_entry k (key, value) []
  | cons entry entries ih =>
    by_cases hhere : entry.1 = key
    · rw [put, if_pos hhere, lookup_entry, lookup_entry, hhere]
      split <;> rfl
    · rw [put, if_neg hhere, lookup_entry, lookup_entry, ih]
      by_cases hk : k = entry.1
      · rw [if_pos hk, if_pos hk, if_neg (hk ▸ hhere)]
      · rw [if_neg hk, if_neg hk]

/-- The last value that is put under a key is found. -/
theorem lookup_ofPairs (k : κ) (pairs : List (κ × β)) :
    (ofPairs pairs).lookup k = pairs.reverse.lookup k := by
  induction pairs using List.reverseRecOn with
  | nil => rfl
  | append_singleton pairs pair ih =>
    have hstep : ofPairs (pairs ++ [pair]) = put pair.1 pair.2 (ofPairs pairs) := by
      rw [ofPairs, List.foldl_concat, ofPairs]
    rw [hstep, lookup_put, ih, List.reverse_append, List.reverse_singleton, List.singleton_append,
      lookup_entry]

section Columns

variable {keys : List κ} {values : List β}

theorem lookup_eq_none_of_notMem {k : κ} {map : List (κ × β)} (h : ∀ entry ∈ map, entry.1 ≠ k) :
    map.lookup k = none := by
  rw [List.lookup_eq_none_iff]
  intro entry hentry
  simpa [bne_iff_ne] using (h entry hentry).symm

/-- Under keys that differ, the values are found in their order. -/
theorem map_lookup_zip (hkeys : keys.Nodup) (hlen : values.length = keys.length) :
    (keys.map fun k => (ofPairs (keys.zip values)).lookup k) = values.map some := by
  simp only [lookup_ofPairs]
  induction keys generalizing values with
  | nil => simp_all
  | cons key keys ih =>
    obtain ⟨value, values, rfl⟩ := List.exists_cons_of_length_eq_add_one hlen
    obtain ⟨hfresh, hkeys⟩ := List.nodup_cons.1 hkeys
    -- the last value put under a key is found, and the first key comes no more
    have hnone : ((keys.zip values).reverse).lookup key = none := by
      refine lookup_eq_none_of_notMem fun entry hentry heq => hfresh ?_
      exact heq ▸ (List.of_mem_zip (List.mem_reverse.1 hentry)).1
    rw [List.zip_cons_cons, List.reverse_cons, List.map_cons, List.map_cons]
    congr 1
    · rw [List.lookup_append, hnone, lookup_entry, if_pos rfl]
      rfl
    · rw [← ih hkeys (by simpa using hlen)]
      refine List.map_congr_left fun k hk => ?_
      have hne : k ≠ key := fun heq => hfresh (heq ▸ hk)
      rw [List.lookup_append, lookup_entry, if_neg hne]
      simp

/-- Under keys that do not all differ, not every value is found. -/
theorem exists_lookup_zip_eq (hkeys : ¬ keys.Nodup) {x y : β} (hxy : x ≠ y) :
    ∃ values values' : List β, values.length = keys.length ∧ values'.length = keys.length
      ∧ values ≠ values' ∧ (∀ value ∈ values, value = x ∨ value = y)
      ∧ (∀ value ∈ values', value = x ∨ value = y)
      ∧ ∀ k, (ofPairs (keys.zip values)).lookup k = (ofPairs (keys.zip values')).lookup k := by
  simp only [lookup_ofPairs]
  induction keys with
  | nil => exact absurd List.nodup_nil hkeys
  | cons key keys ih =>
    by_cases hfresh : key ∈ keys
    · -- The first value is put under a key that gets another one later.
      have hlater : ∀ k, (((key :: keys).zip (x :: List.replicate keys.length x)).reverse).lookup k
          = (((key :: keys).zip (y :: List.replicate keys.length x)).reverse).lookup k := by
        intro k
        rw [List.zip_cons_cons, List.zip_cons_cons, List.reverse_cons, List.reverse_cons,
          List.lookup_append, List.lookup_append]
        by_cases hk : k = key
        · have hsome : (((keys.zip (List.replicate keys.length x)).reverse).lookup k).isSome := by
            rw [Option.isSome_iff_ne_none, Ne, List.lookup_eq_none_iff]
            intro hall
            have hpair : (key, x) ∈ keys.zip (List.replicate keys.length x) := by
              obtain ⟨i, hi, rfl⟩ := List.mem_iff_getElem.1 hfresh
              refine List.mem_iff_getElem.2 ⟨i, by simpa using hi, ?_⟩
              simp
            simpa [hk] using hall (key, x) (List.mem_reverse.2 hpair)
          obtain ⟨value, hvalue⟩ := Option.isSome_iff_exists.1 hsome
          rw [hvalue]
          rfl
        · rw [lookup_entry, lookup_entry, if_neg hk, if_neg hk]
      refine ⟨_, _, by simp, by simp, ?_, ?_, ?_, hlater⟩
      · exact fun heq => hxy (List.cons.inj heq).1
      · intro value hvalue
        rcases List.mem_cons.1 hvalue with rfl | hvalue
        · exact .inl rfl
        · exact .inl (List.eq_of_mem_replicate hvalue)
      · intro value hvalue
        rcases List.mem_cons.1 hvalue with rfl | hvalue
        · exact .inr rfl
        · exact .inl (List.eq_of_mem_replicate hvalue)
    · have hrest : ¬ keys.Nodup := fun h => hkeys (List.nodup_cons.2 ⟨hfresh, h⟩)
      obtain ⟨values, values', hlen, hlen', hne, hx, hx', hsame⟩ := ih hrest
      refine ⟨x :: values, x :: values', by simp [hlen], by simp [hlen'], ?_,
        List.forall_mem_cons.2 ⟨.inl rfl, hx⟩, List.forall_mem_cons.2 ⟨.inl rfl, hx'⟩, fun k => ?_⟩
      · exact fun heq => hne (List.cons.inj heq).2
      · rw [List.zip_cons_cons, List.zip_cons_cons, List.reverse_cons, List.reverse_cons,
          List.lookup_append, List.lookup_append, hsame k]

end Columns

end Linked
