import NavopExtensions.Lib.Csv.Writing

/-!
# Separated values one after another

A text that is read to its end ends with a newline, which is part of no mark. So whatever comes after it is
read for itself (`readFile_append`).
-/

namespace Csv

variable {α : Type*} [DecidableEq α] {f : Format α}

/-- What is read to its end is nothing, or ends with a newline. -/
theorem ends_of_read {cs : List α} : ∀ {skip : ℕ} {mode : Mode α} {record : List (Field α)}
    {out : List (List (Field α))}, read f skip mode record cs = some out →
    (mode = .start → record = [] → skip = 0) →
    (cs = [] ∧ mode = .start ∧ record = [] ∧ out = []) ∨ ∃ init, cs = init ++ [f.newline] := by
  induction cs with
  | nil =>
    intro skip mode record out h _
    left
    cases mode <;> cases record <;> simp_all [read]
  | cons c cs ih =>
    intro skip mode record out h hskip
    right
    -- Beside a newline that is read as one, something else has to be read after every character.
    have hmore : ∀ {n mode' record' out'}, read f n mode' record' cs = some out' →
        (mode' = .start → record' ≠ []) → ∃ init, c :: cs = init ++ [f.newline] := by
      intro n mode' record' out' h hopen
      rcases ih h (fun hmode hrecord => absurd hrecord (hopen hmode)) with
        ⟨-, hmode, hrecord, -⟩ | ⟨init, rfl⟩
      · exact absurd hrecord (hopen hmode)
      · exact ⟨c :: init, rfl⟩
    have hline : ∀ {field : Field α}, c = f.newline →
        (read f 0 .start [] cs).map ((record ++ [field]) :: ·) = some out →
        ∃ init, c :: cs = init ++ [f.newline] := by
      intro field hc h
      obtain ⟨others, hothers, -⟩ := Option.map_eq_some_iff.1 h
      rcases ih hothers (fun _ _ => rfl) with ⟨rfl, -⟩ | ⟨init, rfl⟩
      · exact ⟨[], by rw [hc]; rfl⟩
      · exact ⟨c :: init, rfl⟩
    have hbare : ∀ {text : List α}, read f 0 (.bare text) record (c :: cs) = some out →
        ∃ init, c :: cs = init ++ [f.newline] := by
      intro text h
      simp only [read] at h
      split at h
      · exact hmore h (by simp)
      split at h
      · next hc => exact hline hc h
      · exact hmore h (by simp)
    cases skip with
    | succ skip =>
      refine @hmore skip _ _ _ h fun hmode hrecord => ?_
      exact absurd (hskip hmode hrecord) (Nat.succ_ne_zero skip)
    | zero =>
      cases mode with
      | start =>
        by_cases hquote : f.quote <+: c :: cs
        · simp only [read, if_pos hquote] at h
          exact hmore h (by simp)
        · exact hbare (read_start_bare (by simp) hquote ▸ h)
      | bare text => exact hbare h
      | quoted text =>
        simp only [read] at h
        split at h
        · exact hmore h (by simp)
        split at h
        · exact hmore h (by simp)
        · exact hmore h (by simp)
      | closed text =>
        simp only [read] at h
        split at h
        · exact hmore h (by simp)
        split at h
        · next hc => exact hline hc h
        · cases h

/-- **Records** that are read to their end are read in the same way before others. -/
theorem read_append {cs : List α} (rest : List α) : ∀ {skip : ℕ} {mode : Mode α}
    {record : List (Field α)} {out : List (List (Field α))},
    read f skip mode record cs = some out → (mode = .start → record = [] → skip = 0) →
    read f skip mode record (cs ++ rest) = (read f 0 .start [] rest).map (out ++ ·) := by
  induction cs with
  | nil =>
    intro skip mode record out h hskip
    rcases ends_of_read h hskip with ⟨-, rfl, rfl, rfl⟩ | ⟨init, hinit⟩
    · rw [hskip rfl rfl]
      simp
    · simp at hinit
  | cons c cs ih =>
    intro skip mode record out h hskip
    -- A mark without newlines that begins here ends here.
    have hmark : ∀ {mark : List α}, f.newline ∉ mark →
        (mark <+: c :: (cs ++ rest) ↔ mark <+: c :: cs) := by
      intro mark hnewline
      rcases ends_of_read h hskip with ⟨hnil, -⟩ | ⟨init, hinit⟩
      · cases hnil
      constructor
      · intro hstart
        rw [← List.cons_append, hinit, List.append_assoc, List.singleton_append] at hstart
        rw [hinit]
        exact (prefix_of_prefix_newline hnewline hstart).trans (List.prefix_append _ _)
      · exact fun hstart => hstart.trans (List.prefix_append (c :: cs) rest)
    have hdelimiter := hmark f.newline_delimiter
    have hquote := hmark f.newline_quote
    have hquotes := @hmark (f.quote ++ f.quote) (by simp [f.newline_quote])
    have hline : ∀ {field : Field α},
        (read f 0 .start [] cs).map ((record ++ [field]) :: ·) = some out →
        (read f 0 .start [] (cs ++ rest)).map ((record ++ [field]) :: ·)
          = (read f 0 .start [] rest).map (out ++ ·) := by
      intro field h
      obtain ⟨others, hothers, rfl⟩ := Option.map_eq_some_iff.1 h
      rw [ih hothers (fun _ _ => rfl), Option.map_map]
      rfl
    have hbare : ∀ {text : List α}, read f 0 (.bare text) record (c :: cs) = some out →
        read f 0 (.bare text) record (c :: (cs ++ rest))
          = (read f 0 .start [] rest).map (out ++ ·) := by
      intro text h
      simp only [read, hdelimiter] at h ⊢
      by_cases hd : f.delimiter <+: c :: cs
      · rw [if_pos hd] at h ⊢
        exact ih h (by simp)
      rw [if_neg hd] at h ⊢
      by_cases hc : c = f.newline
      · rw [if_pos hc] at h ⊢
        exact hline h
      · rw [if_neg hc] at h ⊢
        exact ih h (by simp)
    rw [List.cons_append]
    cases skip with
    | succ skip => exact @ih skip mode record out h fun hmode hrecord => by simpa using hskip hmode hrecord
    | zero =>
      cases mode with
      | start =>
        by_cases hq : f.quote <+: c :: cs
        · simp only [read, hquote, if_pos hq] at h ⊢
          exact ih h (by simp)
        · rw [read_start_bare (by simp) (mt hquote.1 hq)]
          exact hbare (read_start_bare (by simp) hq ▸ h)
      | bare text => exact hbare h
      | quoted text =>
        simp only [read, hquote, hquotes] at h ⊢
        by_cases hqq : f.quote ++ f.quote <+: c :: cs
        · rw [if_pos hqq] at h ⊢
          exact ih h (by simp)
        rw [if_neg hqq] at h ⊢
        by_cases hq : f.quote <+: c :: cs
        · rw [if_pos hq] at h ⊢
          exact ih h (by simp)
        · rw [if_neg hq] at h ⊢
          exact ih h (by simp)
      | closed text =>
        simp only [read, hdelimiter] at h ⊢
        by_cases hd : f.delimiter <+: c :: cs
        · rw [if_pos hd] at h ⊢
          exact ih h (by simp)
        rw [if_neg hd] at h ⊢
        by_cases hc : c = f.newline
        · rw [if_pos hc] at h ⊢
          exact hline h
        · rw [if_neg hc] at h
          cases h

/-- What a file is read as goes on with what is read after it. -/
theorem readFile_append {text : List α} {records : List (List (Field α))}
    (h : readFile f text = some records) (rest : List α) :
    readFile f (text ++ rest) = (readFile f rest).map (records ++ ·) :=
  read_append rest h fun _ _ => rfl

end Csv
