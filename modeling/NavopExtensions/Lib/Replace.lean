import Mathlib

/-!
# Replacing in texts

`replaceAll` puts one text in the places of another, leftmost first and without overlap, in lists over
any alphabet. On characters it is what `String.replace` computes (`toList_replace`), so that facts
about it are proved by induction on the list of characters.
-/

namespace Text

variable {α : Type*} [DecidableEq α]

/-- The text with `replacement` in the places of `pattern`, after what is still left of a place. -/
def replaceAfter (pattern replacement : List α) : ℕ → List α → List α
  | _, [] => []
  | 0, c :: cs =>
    if pattern <+: c :: cs then
      replacement ++ replaceAfter pattern replacement (pattern.length - 1) cs
    else c :: replaceAfter pattern replacement 0 cs
  | left + 1, _ :: cs => replaceAfter pattern replacement left cs

/-- The text with `replacement` in the places of `pattern`: leftmost first, without overlap. -/
def replaceAll (pattern replacement cs : List α) : List α :=
  replaceAfter pattern replacement 0 cs

variable {pattern replacement : List α}

/-- What is left of a place is passed. -/
theorem replaceAfter_append (place rest : List α) :
    replaceAfter pattern replacement place.length (place ++ rest)
      = replaceAll pattern replacement rest := by
  induction place with
  | nil => rfl
  | cons c place ih => exact ih

/-- A place of the pattern is replaced. -/
theorem replaceAll_append (hpattern : pattern ≠ []) (rest : List α) :
    replaceAll pattern replacement (pattern ++ rest)
      = replacement ++ replaceAll pattern replacement rest := by
  cases pattern with
  | nil => exact absurd rfl hpattern
  | cons c pattern =>
    have hplace : c :: pattern <+: c :: (pattern ++ rest) := List.prefix_append (c :: pattern) rest
    have hskip := @replaceAfter_append _ _ (c :: pattern) replacement pattern rest
    simp only [List.cons_append, replaceAll, replaceAfter, if_pos hplace, List.length_cons,
      Nat.add_sub_cancel]
    rw [hskip]
    rfl

/-- Characters where no place begins stay. -/
theorem replaceAll_append_of_forall {before rest : List α}
    (hbefore : ∀ s t, before = s ++ t → t ≠ [] → ¬ pattern <+: t ++ rest) :
    replaceAll pattern replacement (before ++ rest)
      = before ++ replaceAll pattern replacement rest := by
  induction before with
  | nil => rfl
  | cons c before ih =>
    have hno : ¬ pattern <+: c :: (before ++ rest) := hbefore [] (c :: before) rfl (by simp)
    have hrest := ih fun s t h ht => hbefore (c :: s) t (by rw [h]; rfl) ht
    simp only [List.cons_append, replaceAll, replaceAfter, if_neg hno]
    exact congrArg (c :: ·) hrest

/-- A single character is replaced wherever it stands. -/
theorem replaceAll_singleton (c : α) (cs : List α) :
    replaceAll [c] replacement cs = cs.flatMap fun d => if d = c then replacement else [d] := by
  induction cs with
  | nil => rfl
  | cons d cs ih =>
    by_cases h : d = c
    · subst h
      rw [List.flatMap_cons, if_pos rfl, ← ih]
      exact @replaceAll_append _ _ [d] replacement (by simp) cs
    · have hno : ¬ [c] <+: d :: cs := by simp [List.cons_prefix_cons, Ne.symm h]
      rw [List.flatMap_cons, if_neg h, ← ih]
      simp only [replaceAll, replaceAfter, if_neg hno, List.singleton_append]

/-! ### `String.replace` -/

open String.Slice.Pattern String.Slice.Pattern.Model

/-- One step of the search: what it adds to the text. -/
def replaceStep (s : String.Slice) (replacement sofar : String) : SearchStep s → String
  | .matched _ _ => sofar ++ replacement.toSlice
  | .rejected start stop => sofar ++ s.slice! start stop

/-- What stands between two positions. -/
theorem exists_between {s : String.Slice} {start stop : s.Pos} (hle : start ≤ stop)
    {before after : String} (hsplits : start.Splits before after) :
    ∃ between, (s.slice! start stop).copy = between ∧
      after = between ++ (s.sliceFrom stop).copy ∧ stop.Splits (before ++ between) (s.sliceFrom stop).copy := by
  have hcopy := String.Slice.copy_eq_copy_slice (s := s) (h := hle)
  rw [String.Slice.slice_eq_slice!, ← hsplits.eq_left start.splits] at hcopy
  refine ⟨_, rfl, ?_, ?_⟩
  · apply (String.append_right_inj before).1
    rw [← hsplits.eq_append, hcopy, String.append_assoc]
  · refine stop.splits.of_eq ?_ rfl
    apply (String.append_left_inj (s.sliceFrom stop).copy).1
    rw [← stop.splits.eq_append, hcopy]

/-- A slice can be split wherever its text can. -/
theorem exists_splits {s : String.Slice} {before after : String} (h : s.copy = before ++ after) :
    ∃ position : s.Pos, position.Splits before after := by
  have hvalid : before.rawEndPos.IsValidForSlice s :=
    String.Pos.Raw.isValidForSlice_iff_exists_append.2 ⟨before, after, h, rfl⟩
  exact ⟨s.pos _ hvalid, h, by simp⟩

/-- The steps of a search from a position on add what `replaceAll` makes of the rest. -/
theorem toList_foldl_replaceStep {s : String.Slice} {pattern replacement : String}
    (hpattern : pattern ≠ "") {position : s.Pos} {steps : List (SearchStep s)}
    (hsteps : IsValidSearchFrom pattern position steps) {before after : String}
    (hsplits : position.Splits before after) (sofar : String) :
    (steps.foldl (replaceStep s replacement) sofar).toList
      = sofar.toList ++ replaceAll pattern.toList replacement.toList after.toList := by
  induction hsteps generalizing before after sofar with
  | endPos =>
    obtain rfl : after = "" := hsplits.eq_endPos_iff.1 rfl
    simp [replaceAll, replaceAfter]
  | matched hmatch hrest ih =>
    rw [ForwardStringSearcher.isLongestMatchAt_iff_splits] at hmatch
    obtain ⟨t₁, t₂, hstart, hend⟩ := hmatch
    obtain ⟨rfl, rfl⟩ := hsplits.eq hstart
    rw [List.foldl_cons, ih hend, String.toList_append, replaceAll_append (by simpa using hpattern)]
    simp [replaceStep]
  | @mismatched steps start stop hlt hno hrest ih =>
    obtain ⟨between, hslice, hafter, hend⟩ := exists_between (Std.le_of_lt hlt) hsplits
    -- no match starts inside a slice that the search reports as mismatched
    have hstay : ∀ s' t, between.toList = s' ++ t → t ≠ [] →
        ¬ pattern.toList <+: t ++ (s.sliceFrom stop).copy.toList := by
      rintro s' t hbetween ht ⟨rest, hrest⟩
      -- else there were a position between its ends at which the pattern matches
      obtain ⟨place, hplace⟩ := @exists_splits s (before ++ String.ofList s')
        (String.ofList t ++ (s.sliceFrom stop).copy) (by
          rw [hsplits.eq_append, hafter, ← String.toList_inj]
          simp [hbetween])
      refine hno place ?_ ?_ (ForwardStringSearcher.matchesAt_iff_splits.2
        ⟨_, String.ofList rest, hplace.of_eq rfl ?_⟩)
      · simp [String.Slice.Pos.le_iff, hsplits.offset_eq_rawEndPos, hplace.offset_eq_rawEndPos,
          String.Pos.Raw.le_iff]
      · obtain rfl : between = String.ofList s' ++ String.ofList t := by
          rw [← String.toList_inj]
          simp [hbetween]
        have hlong : 0 < (String.ofList t).utf8ByteSize := by
          simpa [Nat.pos_iff_ne_zero] using ht
        simp only [String.Slice.Pos.lt_iff, hplace.offset_eq_rawEndPos, hend.offset_eq_rawEndPos,
          String.Pos.Raw.lt_iff, String.byteIdx_rawEndPos, String.utf8ByteSize_append]
        omega
      · rw [← String.toList_inj]
        simp [hrest]
    rw [List.foldl_cons, ih hend, hafter, String.toList_append, replaceAll_append_of_forall hstay]
    simp [replaceStep, hslice]

/-- **`String.replace`** replaces the leftmost places that do not overlap. -/
theorem toList_replace {pattern : String} (hpattern : pattern ≠ "") (s replacement : String) :
    (s.replace pattern replacement).toList
      = replaceAll pattern.toList replacement.toList s.toList := by
  have hlawful := ForwardStringSearcher.lawfulToForwardSearcherModel hpattern
  have hsteps := hlawful.isValidSearchFrom_toList s.toSlice
  have hall := @toList_foldl_replaceStep s.toSlice pattern replacement hpattern _ _ hsteps _ _
    s.toSlice.splits_startPos ""
  rw [Std.Iter.foldl_toList, String.toList_empty, List.nil_append, String.copy_toSlice] at hall
  rw [← hall, String.replace, String.Slice.replace]
  congr 2
  ext sofar step : 2
  cases step <;> rfl

end Text
