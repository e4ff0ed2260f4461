import Mathlib

/-!
# Overlays: partial pictures under last-writer-wins

A *patch* is a partial picture: it assigns a value to some of the points of an index type and
leaves the others alone. Painting one patch after another keeps, at every point, the value of the
last patch that covers it (`paint`), and painting a list of patches is the fold of `paint`
(`stack`). Everything that rewrites a list of patches while keeping what is finally seen (dropping
covered parts, splitting one patch into several, regrouping) is an equation between stacks.

The one rewriting rule beyond regrouping is `stack_erase_append`: the points a later patch covers
may be erased from every earlier one.
-/

namespace Overlay

variable {ι α : Type*}

/-- A partial picture over the points `ι`. -/
abbrev Patch (ι α : Type*) := ι → Option α

/-- The patch that covers nothing. -/
def blank : Patch ι α := fun _ => none

/-- Paint `top` after `base`: where both cover a point, `top` wins. -/
def paint (base top : Patch ι α) : Patch ι α := fun i => (top i).or (base i)

/-- Paint a list of patches, first to last. -/
def stack (ps : List (Patch ι α)) : Patch ι α := ps.foldl paint blank

/-- The points a patch covers. -/
def covers (p : Patch ι α) (i : ι) : Prop := (p i).isSome

@[simp] theorem blank_apply (i : ι) : (blank : Patch ι α) i = none := rfl

theorem paint_apply (base top : Patch ι α) (i : ι) :
    paint base top i = (top i).or (base i) := rfl

@[simp] theorem paint_blank (p : Patch ι α) : paint p blank = p := by
  funext i; simp [paint]

@[simp] theorem blank_paint (p : Patch ι α) : paint blank p = p := by
  funext i; simp [paint]

theorem paint_assoc (p q r : Patch ι α) : paint (paint p q) r = paint p (paint q r) := by
  funext i; simp [paint, Option.or_assoc]

@[simp] theorem stack_nil : stack ([] : List (Patch ι α)) = blank := rfl

private theorem foldl_paint (ps : List (Patch ι α)) (p : Patch ι α) :
    ps.foldl paint p = paint p (stack ps) := by
  induction ps generalizing p with
  | nil => simp
  | cons q ps ih =>
    unfold stack
    rw [List.foldl_cons, List.foldl_cons, ih, ih (paint blank q), blank_paint, paint_assoc]

@[simp] theorem stack_cons (p : Patch ι α) (ps : List (Patch ι α)) :
    stack (p :: ps) = paint p (stack ps) := by
  unfold stack
  rw [List.foldl_cons, blank_paint, foldl_paint]
  rfl

theorem stack_append (ps qs : List (Patch ι α)) :
    stack (ps ++ qs) = paint (stack ps) (stack qs) := by
  induction ps with
  | nil => simp
  | cons p ps ih => rw [List.cons_append, stack_cons, ih, stack_cons, paint_assoc]

theorem stack_concat (ps : List (Patch ι α)) (p : Patch ι α) :
    stack (ps ++ [p]) = paint (stack ps) p := by
  rw [stack_append, stack_cons, stack_nil, paint_blank]

/-- Replacing each element of a list by several patches that together show the same picture does
not change the stack. -/
theorem stack_flatMap {β : Type*} {xs : List β} {f : β → List (Patch ι α)} {g : β → Patch ι α}
    (h : ∀ x ∈ xs, stack (f x) = g x) : stack (xs.flatMap f) = stack (xs.map g) := by
  induction xs with
  | nil => rfl
  | cons x xs ih =>
    rw [List.flatMap_cons, stack_append, h x List.mem_cons_self, List.map_cons, stack_cons,
      ih fun y hy => h y (List.mem_cons_of_mem _ hy)]

/-! ### Erasing what a later patch covers -/

section Erase

variable (s : ι → Prop) [DecidablePred s]

/-- Remove the points of `s` from a patch. -/
def erase (p : Patch ι α) : Patch ι α := fun i => if s i then none else p i

theorem erase_apply (p : Patch ι α) (i : ι) :
    erase s p i = if s i then none else p i := rfl

theorem erase_paint (p q : Patch ι α) :
    erase s (paint p q) = paint (erase s p) (erase s q) := by
  funext i
  by_cases h : s i <;> simp [erase, paint, h]

theorem stack_map_erase (ps : List (Patch ι α)) :
    stack (ps.map (erase s)) = erase s (stack ps) := by
  induction ps with
  | nil => funext i; simp [erase]
  | cons p ps ih => rw [List.map_cons, stack_cons, ih, stack_cons, erase_paint]

/-- Erasing points that the next patch covers anyway is invisible. -/
theorem erase_paint_of_covers {p q : Patch ι α} (h : ∀ i, s i → covers q i) :
    paint (erase s p) q = paint p q := by
  funext i
  by_cases hi : s i
  · obtain ⟨a, ha⟩ := Option.isSome_iff_exists.mp (h i hi)
    simp [paint, ha]
  · simp [paint, erase, hi]

/-- **Trimming.** If every patch of `ps` is replaced by patches that show it without the points
of `s`, and `q` covers `s`, then the picture after `q` is unchanged. -/
theorem stack_erase_append {β : Type*} {xs : List β} {f : β → List (Patch ι α)}
    {g : β → Patch ι α} {q : Patch ι α} (hf : ∀ x ∈ xs, stack (f x) = erase s (g x))
    (hq : ∀ i, s i → covers q i) :
    stack (xs.flatMap f ++ [q]) = paint (stack (xs.map g)) q := by
  have hmap : xs.map (fun x => erase s (g x)) = (xs.map g).map (erase s) := by
    rw [List.map_map]; rfl
  rw [stack_concat, stack_flatMap hf, hmap, stack_map_erase, erase_paint_of_covers s hq]

end Erase

end Overlay
