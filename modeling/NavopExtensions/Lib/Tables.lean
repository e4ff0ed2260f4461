import NavopExtensions.Lib.Finmaps

/-!
# Tables whose entries have owners

A table gives out its keys by a counter, and every entry in it belongs to an owner. `Owned` says that the
owners are among those that there are, and that the keys have been given out. It is kept by what is done to
such tables: a new entry under the next key, another value for an entry with the same owner, entries and
owners that go.
-/

namespace Tables

variable {κ ω β : Type*} [DecidableEq κ] [DecidableEq ω]

/-- Every entry belongs to one of the owners, and has one of the keys that have been given out. -/
def Owned (owner : β → ω) (keyOf : ℕ → κ) (owners : Finset ω) (next : ℕ)
    (table : Finmap fun _ : κ => β) : Prop :=
  ∀ key entry, table.lookup key = some entry → owner entry ∈ owners ∧ ∃ n < next, key = keyOf n

variable {owner : β → ω} {keyOf : ℕ → κ} {owners owners' : Finset ω} {next : ℕ}
  {table : Finmap fun _ : κ => β} {key : κ} {entry old : β}

omit [DecidableEq ω] in
theorem owned_empty : Owned owner keyOf owners next (∅ : Finmap fun _ : κ => β) := by
  intro key entry h
  rw [Finmap.lookup_empty] at h
  cases h

omit [DecidableEq ω] in
/-- More owners do no harm. -/
theorem Owned.mono (h : Owned owner keyOf owners next table) (hsub : owners ⊆ owners') :
    Owned owner keyOf owners' next table :=
  fun key entry hentry => ⟨hsub (h key entry hentry).1, (h key entry hentry).2⟩

omit [DecidableEq ω] in
/-- A new entry gets the next key. -/
theorem Owned.add (h : Owned owner keyOf owners next table) (hentry : owner entry ∈ owners) :
    Owned owner keyOf owners (next + 1) (table.insert (keyOf next) entry) := by
  intro key other hother
  by_cases hkey : key = keyOf next
  · subst hkey
    rw [Finmap.lookup_insert] at hother
    obtain rfl := Option.some.inj hother
    exact ⟨hentry, next, Nat.lt_succ_self next, rfl⟩
  · rw [Finmap.lookup_insert_of_ne _ hkey] at hother
    obtain ⟨howner, n, hn, hkey⟩ := h key other hother
    exact ⟨howner, n, Nat.lt_succ_of_lt hn, hkey⟩

omit [DecidableEq ω] in
/-- An entry changes, but not its owner. -/
theorem Owned.set (h : Owned owner keyOf owners next table) (hold : table.lookup key = some old)
    (howner : owner entry = owner old) :
    Owned owner keyOf owners next (table.insert key entry) := by
  intro k other hother
  by_cases hk : k = key
  · subst hk
    rw [Finmap.lookup_insert] at hother
    obtain rfl := Option.some.inj hother
    rw [howner]
    exact h k old hold
  · rw [Finmap.lookup_insert_of_ne _ hk] at hother
    exact h k other hother

omit [DecidableEq ω] in
theorem Owned.erase (h : Owned owner keyOf owners next table) (key : κ) :
    Owned owner keyOf owners next (table.erase key) := by
  intro k entry hentry
  by_cases hk : k = key
  · subst hk
    rw [Finmap.lookup_erase] at hentry
    cases hentry
  · rw [Finmap.lookup_erase_ne hk] at hentry
    exact h k entry hentry

/-- An owner goes, and its entries with it. -/
theorem Owned.retain (h : Owned owner keyOf owners next table) (gone : ω) :
    Owned owner keyOf (owners.erase gone) next
      (table.retain fun _ entry => decide (owner entry ≠ gone)) := by
  intro key entry hentry
  rw [Finmap.lookup_retain] at hentry
  obtain ⟨hlookup, hkeep⟩ := Option.filter_eq_some_iff.1 hentry
  obtain ⟨howner, hkey⟩ := h key entry hlookup
  exact ⟨Finset.mem_erase.2 ⟨of_decide_eq_true hkeep, howner⟩, hkey⟩

omit [DecidableEq ω] in
/-- The next key is a new one. -/
theorem Owned.lookup_next (h : Owned owner keyOf owners next table)
    (hinjective : Function.Injective keyOf) : table.lookup (keyOf next) = none := by
  cases hlookup : table.lookup (keyOf next) with
  | none => rfl
  | some entry =>
    obtain ⟨-, n, hn, hkey⟩ := h _ _ hlookup
    exact absurd (hinjective hkey) (Nat.ne_of_gt hn)

/-! ### Whose an entry is -/

/-- The owner of the entry under a key. -/
def ownerAt (owner : β → ω) (table : Finmap fun _ : κ => β) (key : κ) : Option ω :=
  (table.lookup key).map owner

variable {o : ω} {k : κ}

omit [DecidableEq ω] in
@[simp] theorem ownerAt_empty : ownerAt owner (∅ : Finmap fun _ : κ => β) k = none := by
  rw [ownerAt, Finmap.lookup_empty, Option.map_none]

omit [DecidableEq ω] in
theorem ownerAt_add (h : Owned owner keyOf owners next table) (hinjective : Function.Injective keyOf) :
    ownerAt owner (table.insert (keyOf next) entry) k = some o ↔
      (keyOf next = k ∧ owner entry = o) ∨ ownerAt owner table k = some o := by
  by_cases hk : k = keyOf next
  · subst hk
    rw [ownerAt, Finmap.lookup_insert, ownerAt, h.lookup_next hinjective]
    simp
  · rw [ownerAt, Finmap.lookup_insert_of_ne _ hk, ownerAt]
    simp [Ne.symm hk]

omit [DecidableEq ω] in
theorem ownerAt_set (hold : table.lookup key = some old) (howner : owner entry = owner old) :
    ownerAt owner (table.insert key entry) k = ownerAt owner table k := by
  by_cases hk : k = key
  · subst hk
    rw [ownerAt, Finmap.lookup_insert, ownerAt, hold, Option.map_some, Option.map_some, howner]
  · rw [ownerAt, Finmap.lookup_insert_of_ne _ hk, ownerAt]

omit [DecidableEq ω] in
theorem ownerAt_erase :
    ownerAt owner (table.erase key) k = some o ↔ ownerAt owner table k = some o ∧ key ≠ k := by
  by_cases hk : k = key
  · subst hk
    simp [ownerAt, Finmap.lookup_erase]
  · simp [ownerAt, Finmap.lookup_erase_ne hk, Ne.symm hk]

theorem ownerAt_retain (gone : ω) :
    ownerAt owner (table.retain fun _ entry => decide (owner entry ≠ gone)) k = some o ↔
      ownerAt owner table k = some o ∧ o ≠ gone := by
  rw [ownerAt, Finmap.lookup_retain, ownerAt]
  cases table.lookup k with
  | none => simp
  | some entry =>
    by_cases hgone : owner entry = gone
    · subst hgone
      simpa using fun h => h.symm
    · simp only [Option.filter_some, ne_eq, hgone, not_false_eq_true, decide_true, if_true,
        Option.map_some, Option.some.injEq, iff_self_and]
      exact fun h hgone' => hgone (h.trans hgone')

omit [DecidableEq ω] in
/-- An owner of entries is one of the owners. -/
theorem Owned.mem_of_ownerAt (h : Owned owner keyOf owners next table)
    (ho : ownerAt owner table k = some o) : o ∈ owners := by
  obtain ⟨entry, hentry, rfl⟩ := Option.map_eq_some_iff.1 ho
  exact (h k entry hentry).1

/-! ### Counting, and changing all values -/

omit [DecidableEq ω] in
theorem card_insert_le (table : Finmap fun _ : κ => β) (key : κ) (entry : β) :
    (table.insert key entry).keys.card ≤ table.keys.card + 1 := by
  have hsub : (table.insert key entry).keys ⊆ Insert.insert key table.keys := by
    intro k hk
    rw [Finmap.mem_keys, Finmap.mem_insert] at hk
    exact Finset.mem_insert.2 (hk.imp_right Finmap.mem_keys.2)
  exact (Finset.card_le_card hsub).trans (Finset.card_insert_le key table.keys)

omit [DecidableEq ω] in
/-- No more keys, no larger a table. -/
theorem card_le_of_lookup {table' : Finmap fun _ : κ => β}
    (h : ∀ key, (table'.lookup key).isSome → (table.lookup key).isSome) :
    table'.keys.card ≤ table.keys.card := by
  refine Finset.card_le_card fun key hkey => ?_
  rw [Finmap.mem_keys, ← Finmap.lookup_isSome] at hkey ⊢
  exact h key hkey

/-- The values are changed. -/
def mapValues (f : β → β) (table : Finmap fun _ : κ => β) : Finmap fun _ : κ => β where
  entries := table.entries.map fun entry => ⟨entry.1, f entry.2⟩
  nodupKeys := by
    refine Multiset.nodup_keys.1 ?_
    have hkeys : (table.entries.map fun entry => (⟨entry.1, f entry.2⟩ : Sigma fun _ : κ => β)).keys
        = table.entries.keys := Multiset.map_map _ _ _
    rw [hkeys]
    exact Multiset.nodup_keys.2 table.nodupKeys

omit [DecidableEq ω] in
@[simp] theorem lookup_mapValues (f : β → β) (table : Finmap fun _ : κ => β) (key : κ) :
    (mapValues f table).lookup key = (table.lookup key).map f := by
  refine Option.ext fun value => ?_
  rw [← Option.mem_def, Finmap.mem_lookup_iff, Option.map_eq_some_iff]
  constructor
  · intro h
    obtain ⟨entry, hentry, heq⟩ := Multiset.mem_map.1 h
    cases heq
    exact ⟨entry.2, Finmap.mem_lookup_iff.2 hentry, rfl⟩
  · rintro ⟨old, hold, rfl⟩
    exact Multiset.mem_map_of_mem _ (Finmap.mem_lookup_iff.1 hold)

/-! ### Searching -/

omit [DecidableEq ω] in
/-- Whether a predicate holds of some entry. -/
theorem any_iff (p : κ → β → Bool) (table : Finmap fun _ : κ => β) :
    table.any p = true ↔ ∃ key entry, table.lookup key = some entry ∧ p key entry = true := by
  -- The entries are gone through one after another.
  have hfold : ∀ (entries : List (Sigma fun _ : κ => β)) (found : Bool),
      entries.foldl (fun found entry => found || p entry.1 entry.2) found = true
        ↔ found = true ∨ ∃ entry ∈ entries, p entry.1 entry.2 = true := by
    intro entries
    induction entries with
    | nil => simp
    | cons entry entries ih =>
      intro found
      rw [List.foldl_cons, ih, Bool.or_eq_true, List.exists_mem_cons_iff, or_assoc]
  have hany : table.any p = true ↔ ∃ entry ∈ table.entries, p entry.1 entry.2 = true := by
    obtain ⟨entries, hnodup⟩ := table
    induction entries using Quotient.inductionOn with
    | _ entries => exact (hfold entries false).trans (by simp)
  rw [hany]
  constructor
  · rintro ⟨⟨key, entry⟩, hmem, hp⟩
    exact ⟨key, entry, Finmap.mem_lookup_iff.2 hmem, hp⟩
  · rintro ⟨key, entry, hlookup, hp⟩
    exact ⟨⟨key, entry⟩, Finmap.mem_lookup_iff.1 hlookup, hp⟩

end Tables
