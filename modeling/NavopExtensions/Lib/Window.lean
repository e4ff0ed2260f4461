import Mathlib

/-!
# The longest admissible suffix

A queue that takes every element and drops from the front what is not admissible any more. If a list
that is admissible stays so without its last element, what is left is the longest suffix of everything
taken that is admissible (`IsLongest.push`), although the queue never sees what it has dropped before.
-/

namespace Window

variable {α β : Type*} {P : List α → Prop}

/-- The longest suffix of a list that is admissible. -/
structure IsLongest (P : List α → Prop) (xs kept : List α) : Prop where
  suffix : kept <:+ xs
  admissible : P kept
  longest : ∀ other, other <:+ xs → P other → other.length ≤ kept.length

/-- Drop from the front until the rest is admissible. -/
def trim (P : List α → Prop) [DecidablePred P] : List α → List α
  | [] => []
  | x :: xs => if P (x :: xs) then x :: xs else trim P xs

variable [DecidablePred P]

theorem isLongest_trim (hnil : P []) (xs : List α) : IsLongest P xs (trim P xs) := by
  induction xs with
  | nil =>
    refine ⟨List.suffix_refl _, hnil, fun other hother _ => ?_⟩
    rw [List.suffix_nil.1 hother]
    exact Nat.le_refl _
  | cons x xs ih =>
    rw [trim]
    split
    · next h => exact ⟨List.suffix_refl _, h, fun other hother _ => hother.length_le⟩
    · next h =>
      refine ⟨ih.suffix.trans (List.suffix_cons x xs), ih.admissible, fun other hother hP => ?_⟩
      rcases List.suffix_cons_iff.1 hother with rfl | hother
      · exact absurd hP h
      · exact ih.longest other hother hP

omit [DecidablePred P] in
/-- **One element more.** The longest suffix of what was kept, with the new element, is the longest
suffix of everything. -/
theorem IsLongest.push {xs kept kept' : List α} {x : α} (h : IsLongest P xs kept)
    (hinit : ∀ ys y, P (ys ++ [y]) → P ys) (h' : IsLongest P (kept ++ [x]) kept') :
    IsLongest P (xs ++ [x]) kept' := by
  have hkept : kept ++ [x] <:+ xs ++ [x] := by
    obtain ⟨before, rfl⟩ := h.suffix
    exact ⟨before, by rw [List.append_assoc]⟩
  refine ⟨h'.suffix.trans hkept, h'.admissible, fun other hother hP => h'.longest other ?_ hP⟩
  rcases List.suffix_concat_iff.1 hother with rfl | ⟨ys, rfl, hys⟩
  · exact List.nil_suffix
  · -- What comes before the new element was kept.
    obtain ⟨before, rfl⟩ := List.suffix_of_suffix_length_le hys h.suffix
      (h.longest ys hys (hinit ys x hP))
    exact ⟨before, by rw [List.append_assoc]⟩

theorem trim_map (f : β → α) [DecidablePred fun ys : List β => P (ys.map f)] (ys : List β) :
    (trim (fun ys => P (ys.map f)) ys).map f = trim P (ys.map f) := by
  induction ys with
  | nil => rfl
  | cons y ys ih =>
    by_cases h : P ((y :: ys).map f)
    · rw [trim, if_pos h]
      exact (if_pos h).symm
    · rw [trim, if_neg h, ih]
      exact (if_neg h).symm

end Window
