import NavopExtensions.Lib.Script

/-!
# Catalogs: what has a name, and commands that fail on names

A catalog gives values to names. A command about a name that is missing fails, and so does one that
would take a name twice. The rules say what scripts of one kind of command do to a whole catalog
(`run_renames`, `run_adds_iff`, `run_drops_iff`, `run_alters_iff`), and that renames and additions can be
taken back.
-/

namespace Catalog

open Script Function

variable {κ α : Type*} [DecidableEq κ]

/-- The commands. -/
inductive Command (κ α : Type*)
  | rename (old new : κ)
  | add (name : κ) (value : α)
  | drop (name : κ)
  | alter (name : κ) (change : α → α)

/-- A command is executed. -/
def exec (t : κ → Option α) : Command κ α → Option (κ → Option α)
  | .rename old new =>
    if (t old).isSome ∧ t new = none then some (update (update t old none) new (t old)) else none
  | .add name value => if t name = none then some (update t name (some value)) else none
  | .drop name => if (t name).isSome then some (update t name none) else none
  | .alter name change =>
    if (t name).isSome then some (update t name ((t name).map change)) else none

variable {t t' : κ → Option α}

/-- The names that a command is about. -/
def Command.names : Command κ α → List κ
  | .rename old new => [old, new]
  | .add name _ => [name]
  | .drop name => [name]
  | .alter name _ => [name]

/-- **Other names** keep what they have. -/
theorem exec_of_notMem {command : Command κ α} {name : κ} (hnot : name ∉ command.names)
    (h : exec t command = some t') : t' name = t name := by
  cases command with
  | rename old new =>
    simp only [Command.names, List.mem_cons, List.not_mem_nil, or_false, not_or] at hnot
    simp only [exec, Option.ite_none_right_eq_some, Option.some.injEq] at h
    obtain ⟨-, rfl⟩ := h
    rw [update_of_ne hnot.2, update_of_ne hnot.1]
  | add other value | drop other | alter other change =>
    simp only [exec, Option.ite_none_right_eq_some, Option.some.injEq] at h
    obtain ⟨-, rfl⟩ := h
    rw [update_of_ne (List.ne_of_not_mem_cons hnot)]

theorem run_of_notMem {commands : List (Command κ α)} {name : κ}
    (hnot : ∀ command ∈ commands, name ∉ command.names) (h : run exec t commands = some t') :
    t' name = t name := by
  refine @run_inv _ _ exec t t' commands (fun u => u name = t name) (fun command hcommand u u' hu hexec => ?_)
    h rfl
  rw [exec_of_notMem (hnot command hcommand) hexec, hu]

/-! ### Taking back -/

theorem exec_rename_inverse {old new : κ} (h : exec t (.rename old new) = some t') :
    exec t' (.rename new old) = some t := by
  simp only [exec, Option.ite_none_right_eq_some, Option.some.injEq] at h
  obtain ⟨⟨hold, hnew⟩, rfl⟩ := h
  have hne : old ≠ new := fun heq => by
    rw [heq, hnew] at hold
    exact absurd hold (by simp)
  simp only [exec, update_self, update_of_ne hne, hold, and_self, if_true, Option.some.injEq]
  funext name
  rcases eq_or_ne name old with rfl | hname
  · simp
  · rcases eq_or_ne name new with rfl | hname'
    · simp [update_of_ne hname, hnew]
    · simp [update_of_ne hname, update_of_ne hname']

/-! ### Renames -/

/-- The new name is there. -/
theorem isSome_of_exec_rename {old new : κ} (h : exec t (.rename old new) = some t') :
    (t' new).isSome := by
  simp only [exec, Option.ite_none_right_eq_some, Option.some.injEq] at h
  obtain ⟨⟨hold, -⟩, rfl⟩ := h
  rw [update_self]
  exact hold

/-- Names are given to other names. -/
def renamed (pairs : List (κ × κ)) (t : κ → Option α) (name : κ) : Option α :=
  match pairs.find? fun pair => pair.2 = name with
  | some pair => t pair.1
  | none => if name ∈ pairs.map Prod.fst then none else t name

/-- The old names are gone. -/
theorem renamed_of_mem_fst {pairs : List (κ × κ)} {name : κ} (hmem : name ∈ pairs.map Prod.fst)
    (hnot : name ∉ pairs.map Prod.snd) : renamed pairs t name = none := by
  have hfind : pairs.find? (fun pair => pair.2 = name) = none := by
    refine List.find?_eq_none.2 fun pair hpair heq => hnot ?_
    exact List.mem_map.2 ⟨pair, hpair, of_decide_eq_true heq⟩
  rw [renamed, hfind]
  exact if_pos hmem

theorem renamed_of_notMem {pairs : List (κ × κ)} {name : κ} (hfst : name ∉ pairs.map Prod.fst)
    (hsnd : name ∉ pairs.map Prod.snd) : renamed pairs t name = t name := by
  have hfind : pairs.find? (fun pair => pair.2 = name) = none := by
    refine List.find?_eq_none.2 fun pair hpair heq => hsnd ?_
    exact List.mem_map.2 ⟨pair, hpair, of_decide_eq_true heq⟩
  rw [renamed, hfind]
  exact if_neg hfst

/-- A new name has the value of the old one. -/
theorem renamed_of_mem {pairs : List (κ × κ)} (hnodup : (pairs.map Prod.snd).Nodup) {pair : κ × κ}
    (hpair : pair ∈ pairs) : renamed pairs t pair.2 = t pair.1 := by
  have hfind : pairs.find? (fun other => other.2 = pair.2) = some pair := by
    obtain ⟨found, hfound⟩ : ∃ found, pairs.find? (fun other => other.2 = pair.2) = some found := by
      refine Option.isSome_iff_exists.1 (List.find?_isSome.2 ⟨pair, hpair, by simp⟩)
    have hsame : found.2 = pair.2 := by simpa using List.find?_some hfound
    have heq := List.inj_on_of_nodup_map hnodup (List.mem_of_find?_eq_some hfound) hpair hsame
    rw [hfound, heq]
  rw [renamed, hfind]

/-- **Renames** of distinct names to new and distinct names. -/
theorem run_renames {pairs : List (κ × κ)} (hold : (pairs.map Prod.fst).Nodup)
    (hnew : (pairs.map Prod.snd).Nodup) (hthere : ∀ pair ∈ pairs, (t pair.1).isSome)
    (hfree : ∀ pair ∈ pairs, t pair.2 = none) :
    run exec t (pairs.map fun pair => .rename pair.1 pair.2) = some (renamed pairs t) := by
  induction pairs generalizing t with
  | nil => rfl
  | cons pair pairs ih =>
    obtain ⟨old, new⟩ := pair
    obtain ⟨hold₁, hold₂⟩ := List.nodup_cons.1 hold
    obtain ⟨hnew₁, hnew₂⟩ := List.nodup_cons.1 hnew
    have hfirst : (t old).isSome ∧ t new = none :=
      ⟨hthere _ List.mem_cons_self, hfree _ List.mem_cons_self⟩
    have hne : new ≠ old := fun heq => absurd hfirst.1 (by simp [← heq, hfirst.2])
    -- the later pairs name neither the old nor the new name of this one
    have hother : ∀ other ∈ pairs, other.1 ≠ old ∧ other.1 ≠ new ∧ other.2 ≠ new := by
      intro other hmem
      refine ⟨fun heq => hold₁ (List.mem_map.2 ⟨other, hmem, heq⟩), fun heq => ?_,
        fun heq => hnew₁ (List.mem_map.2 ⟨other, hmem, heq⟩)⟩
      have hsome := hthere other (List.mem_cons_of_mem _ hmem)
      rw [heq, hfirst.2] at hsome
      exact absurd hsome (by simp)
    rw [List.map_cons, run_cons, exec, if_pos hfirst, Option.bind_some, ih hold₂ hnew₂]
    · refine congrArg some (funext fun name => ?_)
      -- the name that this pair gives, and then any other name
      rcases eq_or_ne name new with rfl | hname
      · rw [renamed_of_notMem _ hnew₁, update_self]
        · exact (@renamed_of_mem _ _ _ _ _ hnew (old, name) List.mem_cons_self).symm
        · intro hmem
          obtain ⟨other, hmem, heq⟩ := List.mem_map.1 hmem
          exact (hother other hmem).2.1 heq
      · have hskip : ((old, new) :: pairs).find? (fun other => other.2 = name)
            = pairs.find? fun other => other.2 = name := by
          simp [Ne.symm hname]
        rw [renamed, renamed, hskip]
        cases hfind : pairs.find? fun other => other.2 = name with
        | some other =>
          have hmem := List.mem_of_find?_eq_some hfind
          simp [update_of_ne (hother other hmem).1, update_of_ne (hother other hmem).2.1]
        | none =>
          by_cases hmem : name ∈ pairs.map Prod.fst
          · rw [if_pos hmem, List.map_cons, if_pos (List.mem_cons_of_mem _ hmem)]
          · rw [if_neg hmem, List.map_cons, update_of_ne hname, update_apply]
            exact if_congr (by simp [hmem]) rfl rfl
    · intro other hmem
      rw [update_of_ne (hother other hmem).2.1, update_of_ne (hother other hmem).1]
      exact hthere other (List.mem_cons_of_mem _ hmem)
    · intro other hmem
      rw [update_of_ne (hother other hmem).2.2, update_apply]
      split
      · rfl
      · exact hfree other (List.mem_cons_of_mem _ hmem)

/-! ### Additions -/

/-- A name that is added, with its value and what is changed right after that. -/
structure Addition (κ α : Type*) where
  name : κ
  value : α
  changes : List (α → α)

/-- The value that an addition leaves. -/
def Addition.final (addition : Addition κ α) : α :=
  addition.changes.foldl (fun value change => change value) addition.value

/-- The commands of an addition. -/
def Addition.commands (addition : Addition κ α) : List (Command κ α) :=
  .add addition.name addition.value :: addition.changes.map (.alter addition.name)

/-- Names are added. -/
def added (additions : List (Addition κ α)) (t : κ → Option α) (name : κ) : Option α :=
  match additions.find? fun addition => addition.name = name with
  | some addition => some addition.final
  | none => t name

theorem added_of_notMem {additions : List (Addition κ α)} {name : κ}
    (hnot : name ∉ additions.map Addition.name) : added additions t name = t name := by
  have hfind : additions.find? (fun addition => addition.name = name) = none := by
    refine List.find?_eq_none.2 fun addition hmem heq => hnot ?_
    exact List.mem_map.2 ⟨addition, hmem, of_decide_eq_true heq⟩
  rw [added, hfind]

theorem added_of_mem {additions : List (Addition κ α)}
    (hnodup : (additions.map Addition.name).Nodup) {addition : Addition κ α}
    (hmem : addition ∈ additions) : added additions t addition.name = some addition.final := by
  obtain ⟨found, hfound⟩ : ∃ found,
      additions.find? (fun other => other.name = addition.name) = some found :=
    Option.isSome_iff_exists.1 (List.find?_isSome.2 ⟨addition, hmem, by simp⟩)
  have hsame : found.name = addition.name := by simpa using List.find?_some hfound
  have heq := List.inj_on_of_nodup_map hnodup (List.mem_of_find?_eq_some hfound) hmem hsame
  rw [added, hfound, heq]

/-- Names that are added are there, as well as those that were. -/
theorem isSome_added {additions : List (Addition κ α)} {name : κ} :
    (added additions t name).isSome ↔ name ∈ additions.map Addition.name ∨ (t name).isSome := by
  by_cases hmem : name ∈ additions.map Addition.name
  · obtain ⟨addition, haddition, hname⟩ := List.mem_map.1 hmem
    obtain ⟨found, hfound⟩ : ∃ found, additions.find? (fun other => other.name = name) = some found :=
      Option.isSome_iff_exists.1 (List.find?_isSome.2 ⟨addition, haddition, by simpa using hname⟩)
    rw [added, hfound]
    exact iff_of_true rfl (.inl hmem)
  · rw [added_of_notMem hmem, or_iff_right hmem]

/-- Changes of one name that is there. -/
theorem run_changes {name : κ} {value : α} (hvalue : t name = some value) (changes : List (α → α)) :
    run exec t (changes.map (.alter name))
      = some (update t name (some (changes.foldl (fun value change => change value) value))) := by
  induction changes generalizing t value with
  | nil => rw [List.map_nil, run_nil, List.foldl_nil, ← hvalue, update_eq_self]
  | cons change changes ih =>
    rw [List.map_cons, run_cons, exec, if_pos (by rw [hvalue]; rfl), Option.bind_some, hvalue,
      Option.map_some, @ih _ (change value) (update_self ..), update_idem]
    rfl

/-- **Additions** of new and distinct names. -/
theorem run_adds {additions : List (Addition κ α)} (hnodup : (additions.map Addition.name).Nodup)
    (hfree : ∀ addition ∈ additions, t addition.name = none) :
    run exec t (additions.flatMap Addition.commands) = some (added additions t) := by
  induction additions generalizing t with
  | nil => rfl
  | cons addition additions ih =>
    obtain ⟨hfirst, hrest⟩ := List.nodup_cons.1 hnodup
    -- the later columns have other names
    have hother : ∀ other ∈ additions, other.name ≠ addition.name := fun other hmem heq =>
      hfirst (heq ▸ List.mem_map_of_mem hmem)
    rw [List.flatMap_cons, Addition.commands, List.cons_append, run_cons, exec,
      if_pos (hfree _ List.mem_cons_self), Option.bind_some, run_append,
      run_changes (update_self ..), Option.bind_some, update_idem, ih hrest]
    · refine congrArg some (funext fun name => ?_)
      rcases eq_or_ne name addition.name with rfl | hname
      · rw [added_of_notMem hfirst, update_self, added_of_mem hnodup List.mem_cons_self]
        rfl
      · rw [added, added, List.find?_cons_of_neg (by simpa using Ne.symm hname), update_of_ne hname]
    · intro other hmem
      rw [update_of_ne (hother other hmem)]
      exact hfree other (List.mem_cons_of_mem _ hmem)

/-- **Additions** succeed for new and distinct names only. -/
theorem run_adds_iff {additions : List (Addition κ α)} :
    run exec t (additions.flatMap Addition.commands) = some t' ↔
      (additions.map Addition.name).Nodup ∧ (∀ addition ∈ additions, t addition.name = none) ∧
        t' = added additions t := by
  constructor
  · intro hrun
    suffices h : (additions.map Addition.name).Nodup ∧
        ∀ addition ∈ additions, t addition.name = none by
      refine ⟨h.1, h.2, ?_⟩
      rw [run_adds h.1 h.2] at hrun
      exact (Option.some.inj hrun).symm
    induction additions generalizing t with
    | nil => exact ⟨List.nodup_nil, by simp⟩
    | cons addition additions ih =>
      rw [List.flatMap_cons, Addition.commands, List.cons_append, run_cons_eq_some] at hrun
      obtain ⟨u, hadd, hrest⟩ := hrun
      simp only [exec, Option.ite_none_right_eq_some, Option.some.injEq] at hadd
      obtain ⟨hfree, rfl⟩ := hadd
      rw [run_append, run_changes (update_self ..), Option.bind_some, update_idem] at hrest
      obtain ⟨hnodup, hothers⟩ := ih hrest
      -- a name that is added twice is taken the second time
      have hother : ∀ other ∈ additions, other.name ≠ addition.name ∧ t other.name = none := by
        intro other hmem
        have hnone := hothers other hmem
        rcases eq_or_ne other.name addition.name with heq | hne
        · rw [heq, update_self] at hnone
          exact absurd hnone (by simp)
        · exact ⟨hne, by rwa [update_of_ne hne] at hnone⟩
      refine ⟨List.nodup_cons.2 ⟨fun hmem => ?_, hnodup⟩,
        List.forall_mem_cons.2 ⟨hfree, fun other hmem => (hother other hmem).2⟩⟩
      obtain ⟨other, hmem, heq⟩ := List.mem_map.1 hmem
      exact (hother other hmem).1 heq
  · rintro ⟨hnodup, hfree, rfl⟩
    exact run_adds hnodup hfree

/-! ### Drops -/

/-- **Drops** of distinct names: all of them must be there. -/
theorem run_drops_iff {names : List κ} (hnodup : names.Nodup) :
    run exec t (names.map .drop) = some t' ↔
      (∀ name ∈ names, (t name).isSome) ∧ t' = fun name => if name ∈ names then none else t name := by
  induction names generalizing t with
  | nil =>
    rw [List.map_nil, run_nil, Option.some_inj]
    exact ⟨fun heq => ⟨by simp, heq.symm⟩, fun h => h.2.symm⟩
  | cons name names ih =>
    obtain ⟨hfirst, hrest⟩ := List.nodup_cons.1 hnodup
    -- dropping one column leaves the others
    have hsome : ∀ other ∈ names, (update t name none other).isSome ↔ (t other).isSome := by
      intro other hother
      rw [update_of_ne (ne_of_mem_of_not_mem hother hfirst)]
    have hresult : (fun other => if other ∈ names then none else update t name none other)
        = fun other => if other ∈ name :: names then none else t other := by
      funext other
      rcases eq_or_ne other name with rfl | hother
      · simp
      · simp [hother]
    rw [List.map_cons, run_cons, exec]
    -- a column that is not there ends the run
    by_cases hthere : (t name).isSome
    · rw [if_pos hthere, Option.bind_some, ih hrest, hresult, List.forall_mem_cons]
      exact and_congr_left fun _ => ⟨fun hall => ⟨hthere, fun other hother =>
        (hsome other hother).1 (hall other hother)⟩, fun hall other hother =>
        (hsome other hother).2 (hall.2 other hother)⟩
    · rw [if_neg hthere, List.forall_mem_cons]
      simp [hthere]

/-! ### Alterations -/

/-- The changes of one name, in order. -/
def altered (changes : List (κ × (α → α))) (name : κ) (value : α) : α :=
  (changes.filter fun change => change.1 = name).foldl (fun value change => change.2 value) value

theorem altered_cons_self {change : κ × (α → α)} {changes : List (κ × (α → α))} {name : κ}
    (hname : change.1 = name) (value : α) :
    altered (change :: changes) name value = altered changes name (change.2 value) := by
  rw [altered, List.filter_cons_of_pos (by simpa using hname)]
  rfl

theorem altered_cons_of_ne {change : κ × (α → α)} {changes : List (κ × (α → α))} {name : κ}
    (hname : change.1 ≠ name) : altered (change :: changes) name = altered changes name := by
  funext value
  rw [altered, List.filter_cons_of_neg (by simpa using hname)]
  rfl

theorem altered_append (changes more : List (κ × (α → α))) (name : κ) (value : α) :
    altered (changes ++ more) name value = altered more name (altered changes name value) := by
  rw [altered, List.filter_append, List.foldl_append]
  rfl

/-- What no change touches stays. -/
theorem altered_keeps {β : Type*} (f : α → β) {changes : List (κ × (α → α))}
    (h : ∀ change ∈ changes, ∀ value, f (change.2 value) = f value) (name : κ) (value : α) :
    f (altered changes name value) = f value := by
  induction changes generalizing value with
  | nil => rfl
  | cons change changes ih =>
    have hrest := ih fun other hother => h other (List.mem_cons_of_mem _ hother)
    by_cases hname : change.1 = name
    · rw [altered_cons_self hname, hrest, h change List.mem_cons_self]
    · rw [altered_cons_of_ne hname, hrest]

/-- **Alterations**: all names must be there. -/
theorem run_alters_iff {changes : List (κ × (α → α))} :
    run exec t (changes.map fun change => .alter change.1 change.2) = some t' ↔
      (∀ change ∈ changes, (t change.1).isSome) ∧
        t' = fun name => (t name).map (altered changes name) := by
  induction changes generalizing t with
  | nil =>
    have hsame : (fun name => (t name).map (altered [] name)) = t := by
      funext name
      exact congrFun (@Option.map_id α) (t name)
    rw [List.map_nil, run_nil, Option.some_inj, hsame]
    exact ⟨fun heq => ⟨by simp, heq.symm⟩, fun h => h.2.symm⟩
  | cons change changes ih =>
    obtain ⟨name, change⟩ := change
    have hsome : ∀ other, (update t name ((t name).map change) other).isSome ↔ (t other).isSome := by
      intro other
      rcases eq_or_ne other name with rfl | hother
      · simp
      · rw [update_of_ne hother]
    -- the later changes of the same column come on top of this one
    have hresult : (fun other => (update t name ((t name).map change) other).map
          (altered changes other))
        = fun other => (t other).map (altered ((name, change) :: changes) other) := by
      funext other
      rcases eq_or_ne other name with rfl | hother
      · rw [update_self, Option.map_map]
        refine congrArg (Option.map · _) (funext fun value => ?_)
        exact (@altered_cons_self _ _ _ (other, change) changes _ rfl value).symm
      · rw [update_of_ne hother, altered_cons_of_ne (Ne.symm hother)]
    rw [List.map_cons, run_cons, exec, List.forall_mem_cons]
    by_cases hthere : (t name).isSome
    · rw [if_pos hthere, Option.bind_some, ih, hresult]
      exact and_congr_left fun _ => ⟨fun hall => ⟨hthere, fun other hother =>
        (hsome other.1).1 (hall other hother)⟩, fun hall other hother =>
        (hsome other.1).2 (hall.2 other hother)⟩
    · rw [if_neg hthere]
      simp [hthere]

/-- Names without changes keep their values. -/
theorem altered_of_notMem {changes : List (κ × (α → α))} {name : κ} (value : α)
    (hnot : name ∉ changes.map Prod.fst) : altered changes name value = value := by
  have hfilter : changes.filter (fun change => change.1 = name) = [] := by
    refine List.filter_eq_nil_iff.2 fun change hmem heq => hnot ?_
    exact List.mem_map.2 ⟨change, hmem, of_decide_eq_true heq⟩
  rw [altered, hfilter, List.foldl_nil]

theorem map_altered_of_notMem {changes : List (κ × (α → α))} {name : κ} (value : Option α)
    (hnot : name ∉ changes.map Prod.fst) : value.map (altered changes name) = value := by
  cases value with
  | none => rfl
  | some value => exact congrArg some (altered_of_notMem value hnot)

/-- A name that is changed once. -/
theorem altered_of_mem {changes : List (κ × (α → α))} (hnodup : (changes.map Prod.fst).Nodup)
    {change : κ × (α → α)} (hmem : change ∈ changes) (value : α) :
    altered changes change.1 value = change.2 value := by
  induction changes with
  | nil => exact absurd hmem List.not_mem_nil
  | cons first changes ih =>
    obtain ⟨hfirst, hrest⟩ := List.nodup_cons.1 hnodup
    obtain rfl | hmem := List.mem_cons.1 hmem
    · rw [altered_cons_self rfl]
      exact altered_of_notMem _ hfirst
    · have hne : first.1 ≠ change.1 := fun heq => hfirst (heq ▸ List.mem_map_of_mem hmem)
      rw [altered_cons_of_ne hne]
      exact ih hrest hmem

end Catalog
