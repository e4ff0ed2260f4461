import Mathlib

/-!
# Skipping superseded moves

A list of actions in which some are *moves*, and of two moves in a row only the second one matters.
`Skips` says that one list is another one without some moves that are followed by a move. Whoever
looks at the state at the actions that are not moves, and at the end, cannot tell the two apart
(`observed_eq`, `replay_eq`).
-/

namespace Skipping

variable {α σ : Type*}

/-- The second list is the first one without some moves that are followed by a move. -/
inductive Skips (move : α → Prop) : List α → List α → Prop
  | nil : Skips move [] []
  | keep {a : α} {xs ys : List α} : Skips move xs ys → Skips move (a :: xs) (a :: ys)
  | skip {a b : α} {xs ys : List α} : move a → move b → Skips move (b :: xs) ys →
      Skips move (a :: b :: xs) ys

/-- The state after some actions. -/
def replay (apply : σ → α → σ) (s : σ) (xs : List α) : σ := xs.foldl apply s

/-- The actions that are not moves, each with the state it finds. -/
def observed (apply : σ → α → σ) (move : α → Prop) [DecidablePred move] : σ → List α → List (α × σ)
  | _, [] => []
  | s, a :: xs =>
    if move a then observed apply move (apply s a) xs
    else (a, s) :: observed apply move (apply s a) xs

section Facts

variable {move : α → Prop} {xs ys xs' ys' : List α}

theorem Skips.refl (xs : List α) : Skips move xs xs := by
  induction xs with
  | nil => exact .nil
  | cons a xs ih => exact .keep ih

theorem Skips.append (h : Skips move xs ys) (h' : Skips move xs' ys') :
    Skips move (xs ++ xs') (ys ++ ys') := by
  induction h with
  | nil => exact h'
  | keep _ ih => exact .keep ih
  | skip ha hb _ ih => exact .skip ha hb ih

theorem Skips.sublist (h : Skips move xs ys) : ys.Sublist xs := by
  induction h with
  | nil => exact .slnil
  | keep _ ih => exact ih.cons_cons _
  | skip _ _ _ ih => exact ih.cons _

/-- Every other action is kept, in order. -/
theorem Skips.filter_eq [DecidablePred move] (h : Skips move xs ys) :
    ys.filter (fun a => !decide (move a)) = xs.filter fun a => !decide (move a) := by
  induction h with
  | nil => rfl
  | keep _ ih => rw [List.filter_cons, List.filter_cons, ih]
  | skip ha _ _ ih => exact ih.trans (List.filter_cons_of_neg (by simp [ha])).symm

/-- Batches of which each is skipped. -/
theorem Skips.flatMap {f : List α → List α} (h : ∀ xs, Skips move xs (f xs))
    (batches : List (List α)) : Skips move batches.flatten (batches.flatMap f) := by
  induction batches with
  | nil => exact .nil
  | cons xs batches ih => exact (h xs).append ih

section States

variable {apply : σ → α → σ}
  (hsupersedes : ∀ s a b, move a → move b → apply (apply s a) b = apply s b)
include hsupersedes

/-- The states at the end agree. -/
theorem Skips.replay_eq (h : Skips move xs ys) (s : σ) : replay apply s ys = replay apply s xs := by
  induction h generalizing s with
  | nil => rfl
  | keep _ ih => exact ih _
  | @skip a b xs ys ha hb _ ih =>
    rw [ih]
    change replay apply (apply s b) xs = replay apply (apply (apply s a) b) xs
    rw [hsupersedes s a b ha hb]

/-- The states at every other action agree. -/
theorem Skips.observed_eq [DecidablePred move] (h : Skips move xs ys) (s : σ) :
    observed apply move s ys = observed apply move s xs := by
  induction h generalizing s with
  | nil => rfl
  | keep _ ih => rw [observed, observed, ih]
  | @skip a b xs ys ha hb _ ih =>
    rw [ih, observed, observed, if_pos hb, if_pos ha, observed, if_pos hb,
      hsupersedes s a b ha hb]

end States

end Facts

end Skipping
