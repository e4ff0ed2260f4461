import NavopExtensions.Lib.Csv
import NavopExtensions.Lib.Replace

/-!
# Writing separated values

A field is usually written as it is, or between quotes with every quote in it doubled. With marks of
one character that is always read back. Longer ones may overlap with the text around them: the end of
an unquoted field may form a delimiter with the delimiter after it, or all of it a quote, and the end
of a quoted one a quote with the quote after it.

`Field.Opens` and `Field.Closes` say that this does not happen. Among the fields that open as they
should, those that close as they should are exactly the ones that are read back
(`readFile_write_iff`): the first one that does not is read as another text, whatever follows.
-/

namespace Csv

variable {α : Type*} [DecidableEq α] (f : Format α)

/-! ### What else a text may be read as -/

/-- How the first record begins that is read from a mode on. -/
def Mode.Begins (record first : List (Field α)) : Mode α → Prop
  | .start => ∃ tail, first = record ++ tail
  | .bare text => ∃ more tail, first = record ++ ⟨false, text ++ more⟩ :: tail
  | .quoted text => ∃ more tail, first = record ++ ⟨true, text ++ more⟩ :: tail
  | .closed text => ∃ tail, first = record ++ ⟨true, text⟩ :: tail

section Beginnings

variable {f : Format α} {record : List (Field α)} {out : List (List (Field α))}

omit [DecidableEq α] in
/-- More fields of a record that begins with a field. -/
theorem begins_append {field : Field α} {first : List (Field α)}
    (h : Mode.Begins (record ++ [field]) first .start) :
    ∃ tail, first = record ++ field :: tail := by
  obtain ⟨tail, rfl⟩ := h
  exact ⟨tail, by simp⟩

/-- Whatever is read in a record is part of it. -/
theorem begins_of_read {cs : List α} : ∀ {skip : ℕ} {mode : Mode α} {record : List (Field α)}
    {out : List (List (Field α))}, read f skip mode record cs = some out →
    (mode = .start → record ≠ []) →
    ∃ first others, out = first :: others ∧ mode.Begins record first := by
  induction cs with
  | nil =>
    intro skip mode record out h hopen
    cases mode <;> cases record <;> simp_all [read]
  | cons c cs ih =>
    intro skip mode record out h hopen
    cases skip with
    | succ skip => exact ih h hopen
    | zero =>
      -- The end of a field, of whichever kind.
      have hend : ∀ {field : Field α} {n : ℕ}, read f n .start (record ++ [field]) cs = some out →
          ∃ first others, out = first :: others ∧ ∃ tail, first = record ++ field :: tail := by
        intro field n h
        obtain ⟨first, others, rfl, hfirst⟩ := ih h (by simp)
        exact ⟨first, others, rfl, begins_append hfirst⟩
      have hline : ∀ {field : Field α},
          (read f 0 .start [] cs).map ((record ++ [field]) :: ·) = some out →
          ∃ first others, out = first :: others ∧ ∃ tail, first = record ++ field :: tail := by
        intro field h
        obtain ⟨others, -, rfl⟩ := Option.map_eq_some_iff.1 h
        exact ⟨_, others, rfl, [], rfl⟩
      have hbare : ∀ {text : List α}, read f 0 (.bare text) record (c :: cs) = some out →
          ∃ first others, out = first :: others ∧ (Mode.bare text).Begins record first := by
        intro text h
        simp only [read] at h
        split at h
        · obtain ⟨first, others, hout, tail, hfirst⟩ := hend h
          exact ⟨first, others, hout, [], tail, by simpa using hfirst⟩
        split at h
        · obtain ⟨first, others, hout, tail, hfirst⟩ := hline h
          exact ⟨first, others, hout, [], tail, by simpa using hfirst⟩
        · obtain ⟨first, others, hout, more, tail, hfirst⟩ := ih h (by simp)
          exact ⟨first, others, hout, c :: more, tail, by simpa using hfirst⟩
      cases mode with
      | start =>
        by_cases hquote : f.quote <+: c :: cs
        · simp only [read, if_pos hquote] at h
          obtain ⟨first, others, hout, more, tail, hfirst⟩ := ih h (by simp)
          exact ⟨first, others, hout, ⟨true, more⟩ :: tail, by simpa using hfirst⟩
        · rw [read_start_bare (by simp) hquote] at h
          obtain ⟨first, others, hout, more, tail, hfirst⟩ := hbare h
          exact ⟨first, others, hout, ⟨false, more⟩ :: tail, by simpa using hfirst⟩
      | bare text => exact hbare h
      | quoted text =>
        simp only [read] at h
        split at h
        · obtain ⟨first, others, hout, more, tail, hfirst⟩ := ih h (by simp)
          exact ⟨first, others, hout, f.quote ++ more, tail, by simpa using hfirst⟩
        split at h
        · obtain ⟨first, others, hout, tail, hfirst⟩ := ih h (by simp)
          exact ⟨first, others, hout, [], tail, by simpa using hfirst⟩
        · obtain ⟨first, others, hout, more, tail, hfirst⟩ := ih h (by simp)
          exact ⟨first, others, hout, c :: more, tail, by simpa using hfirst⟩
      | closed text =>
        simp only [read] at h
        split at h
        · exact hend h
        split at h
        · exact hline h
        · cases h

end Beginnings

/-! ### The usual way to write a field -/

/-- A field as it is usually written: every quote in a quoted one is doubled. -/
def Field.write (f : Format α) (field : Field α) : List α :=
  if field.quoted then
    f.quote ++ Text.replaceAll f.quote (f.quote ++ f.quote) field.text ++ f.quote
  else field.text

/-- Beside the quotes that are doubled, no quote begins in the text that goes on in a quote after it,
after what is still left of one. -/
def closesAfter (q : List α) : ℕ → List α → Bool
  | _, [] => true
  | 0, c :: cs =>
    if q <+: c :: cs then closesAfter q (q.length - 1) cs
    else !decide (q <+: c :: cs ++ q) && closesAfter q 0 cs
  | left + 1, _ :: cs => closesAfter q left cs

/-- A field does not end before its text does. -/
def Field.Closes (f : Format α) (separator : Separator) (field : Field α) : Prop :=
  if field.quoted then closesAfter f.quote 0 field.text = true
  else ∀ t ∈ field.text.tails, t ≠ [] → ¬ f.delimiter <+: t ++ separator.mark f

instance (separator : Separator) : DecidablePred (Field.Closes f separator) := fun field => by
  unfold Field.Closes
  infer_instance

/-- An unquoted field does not look like a quoted one. -/
def Field.Opens (f : Format α) (separator : Separator) (field : Field α) : Prop :=
  field.quoted = false → ¬ f.quote <+: field.text ++ separator.mark f

instance (separator : Separator) : DecidablePred (Field.Opens f separator) := fun field => by
  unfold Field.Opens
  infer_instance

section Writing

variable {q : List α}

theorem closesAfter_append (place rest : List α) :
    closesAfter q place.length (place ++ rest) = closesAfter q 0 rest := by
  induction place with
  | nil => rfl
  | cons c place ih => exact ih

/-- A quote in a text is passed. -/
theorem closesAfter_quote (hq : q ≠ []) (rest : List α) :
    closesAfter q 0 (q ++ rest) = closesAfter q 0 rest := by
  cases q with
  | nil => exact absurd rfl hq
  | cons c q =>
    have hplace : c :: q <+: c :: (q ++ rest) := List.prefix_append (c :: q) rest
    simp only [List.cons_append, closesAfter, if_pos hplace, List.length_cons, Nat.add_sub_cancel]
    exact closesAfter_append q rest

theorem closesAfter_char {c : α} {cs : List α} (h : ¬ q <+: c :: cs) :
    closesAfter q 0 (c :: cs) = true ↔ ¬ q <+: c :: cs ++ q ∧ closesAfter q 0 cs = true := by
  simp only [closesAfter, if_neg h, Bool.and_eq_true, Bool.not_eq_true', decide_eq_false_iff_not]

theorem replaceAll_char {replacement : List α} {c : α} {cs : List α} (h : ¬ q <+: c :: cs) :
    Text.replaceAll q replacement (c :: cs) = c :: Text.replaceAll q replacement cs := by
  simp only [Text.replaceAll, Text.replaceAfter, if_neg h]

/-- Up to its first quote, a text begins like the one in which the quotes are doubled. -/
theorem exists_common (hq : q ≠ []) (cs : List α) : ∃ s x y, cs ++ q = s ++ q ++ x ∧
    Text.replaceAll q (q ++ q) cs ++ q = s ++ q ++ y := by
  induction cs with
  | nil => exact ⟨[], [], [], by simp, by simp [Text.replaceAll, Text.replaceAfter]⟩
  | cons c cs ih =>
    by_cases h : q <+: c :: cs
    · obtain ⟨rest, hrest⟩ := h
      refine ⟨[], rest ++ q, q ++ Text.replaceAll q (q ++ q) rest ++ q, by simp [← hrest], ?_⟩
      rw [← hrest, Text.replaceAll_append hq]
      simp
    · obtain ⟨s, x, y, hx, hy⟩ := ih
      refine ⟨c :: s, x, y, by simp [hx], ?_⟩
      rw [replaceAll_char h, List.cons_append, hy]
      simp

/-- Whether a quote begins with a character does not depend on whether those after it are doubled. -/
theorem quote_prefix_replaceAll (hq : q ≠ []) {c : α} {cs : List α} :
    q <+: c :: Text.replaceAll q (q ++ q) cs ++ q ↔ q <+: c :: cs ++ q := by
  obtain ⟨s, x, y, hx, hy⟩ := exists_common hq cs
  have hfirst : ∀ z : List α, q <+: c :: (s ++ q ++ z) ↔ q <+: c :: (s ++ q) := by
    intro z
    constructor
    · intro h
      refine List.prefix_of_prefix_length_le h ⟨z, by simp⟩ ?_
      simp only [List.length_cons, List.length_append]
      omega
    · exact fun h => h.trans ⟨z, by simp⟩
  rw [List.cons_append, List.cons_append, hx, hy, hfirst, hfirst]

/-- A quoted text is escaped, as long as no quote begins in its end. -/
theorem escaped_of_closesAfter (hq : q ≠ []) : ∀ {text : List α}, closesAfter q 0 text = true →
    Escaped q (Text.replaceAll q (q ++ q) text) text := by
  intro text
  induction hlength : text.length using Nat.strong_induction_on generalizing text with
  | _ n ih =>
    intro h
    cases text with
    | nil => exact .nil
    | cons c cs =>
      -- the induction is on the length, for a quote is skipped as a whole
      by_cases hquote : q <+: c :: cs
      · obtain ⟨rest, hrest⟩ := hquote
        rw [← hrest, closesAfter_quote hq] at h
        rw [← hrest, Text.replaceAll_append hq]
        have hless : rest.length < n := by
          have hpos := List.length_pos_iff.2 hq
          rw [← hlength, ← hrest, List.length_append]
          omega
        exact .quote (ih _ hless rfl h)
      · obtain ⟨hhere, hrest⟩ := (closesAfter_char hquote).1 h
        rw [replaceAll_char hquote]
        refine .char (fun hno => hhere ((quote_prefix_replaceAll hq).1 hno)) ?_
        exact ih cs.length (by rw [← hlength]; exact Nat.lt_succ_self _) rfl hrest

/-- A text that is shorter than the quote has none. -/
theorem replaceAll_of_length_lt {replacement cs : List α} (h : cs.length < q.length) :
    Text.replaceAll q replacement cs = cs := by
  induction cs with
  | nil => rfl
  | cons c cs ih =>
    have hno : ¬ q <+: c :: cs := fun hquote => absurd hquote.length_le (by omega)
    rw [replaceAll_char hno, ih (by simp only [List.length_cons] at h; omega)]

end Writing

/-! ### One field -/

section OneField

variable {f : Format α} {record : List (Field α)} {rest : List α} {out : List (List (Field α))}

/-- The first record begins with a field of another text. -/
def Misread (record : List (Field α)) (field : Field α) (out : List (List (Field α))) : Prop :=
  ∃ text tail others, out = (record ++ ⟨field.quoted, text⟩ :: tail) :: others ∧ text ≠ field.text

/-- An unquoted text that ends before its end is read as another. -/
theorem misread_bare {separator : Separator} {before text : List α}
    (hdelimiter : ¬ ∀ t ∈ text.tails, t ≠ [] → ¬ f.delimiter <+: t ++ separator.mark f)
    (hnewline : f.newline ∉ text)
    (h : read f 0 (.bare before) record (text ++ (separator.mark f ++ rest)) = some out) :
    Misread record ⟨false, before ++ text⟩ out := by
  induction text generalizing before with
  | nil => simp at hdelimiter
  | cons c text ih =>
    -- the first delimiter ends the field too early; before it the characters are read as they are
    by_cases hhere : f.delimiter <+: c :: text ++ separator.mark f
    · have hstart : f.delimiter <+: c :: (text ++ (separator.mark f ++ rest)) :=
        hhere.trans ⟨rest, by simp⟩
      simp only [List.cons_append, read, if_pos hstart] at h
      obtain ⟨first, others, rfl, hfirst⟩ := begins_of_read h (by simp)
      obtain ⟨tail, rfl⟩ := begins_append hfirst
      exact ⟨before, tail, others, rfl, by simp⟩
    · have hno : ¬ f.delimiter <+: c :: (text ++ (separator.mark f ++ rest)) :=
        fun hstart => hhere (@delimiter_prefix_separator _ f rest separator (c :: text) hstart)
      have hc : c ≠ f.newline := fun hc => hnewline (hc ▸ List.mem_cons_self)
      rw [List.cons_append, read_bare_char hno hc] at h
      have hrest : ¬ ∀ t ∈ text.tails, t ≠ [] → ¬ f.delimiter <+: t ++ separator.mark f := by
        intro hall
        refine hdelimiter fun t ht hne => ?_
        rcases List.suffix_cons_iff.1 ((List.mem_tails _ _).1 ht) with rfl | ht
        · exact hhere
        · exact hall t ((List.mem_tails _ _).2 ht) hne
      have hmisread := ih hrest (fun hmem => hnewline (List.mem_cons_of_mem _ hmem)) h
      simpa using hmisread

/-- A quoted text in whose end a quote begins is read as another. -/
theorem misread_quoted : ∀ {text before : List α}, closesAfter f.quote 0 text = false →
    read f 0 (.quoted before) record
      (Text.replaceAll f.quote (f.quote ++ f.quote) text ++ f.quote ++ rest) = some out →
    Misread record ⟨true, before ++ text⟩ out := by
  intro text
  induction hlength : text.length using Nat.strong_induction_on generalizing text with
  | _ n ih =>
    intro before hcloses h
    cases text with
    | nil => simp [closesAfter] at hcloses
    | cons c cs =>
      by_cases hquote : f.quote <+: c :: cs
      -- a doubled quote is read as one, and the rest is shorter
      · obtain ⟨later, hlater⟩ := hquote
        rw [← hlater, closesAfter_quote f.quote_ne] at hcloses
        rw [← hlater, Text.replaceAll_append f.quote_ne, List.append_assoc, List.append_assoc,
          read_quoted_doubled, ← List.append_assoc] at h
        have hless : later.length < n := by
          have hpos := List.length_pos_iff.2 f.quote_ne
          rw [← hlength, ← hlater, List.length_append]
          omega
        have hmisread := ih _ hless rfl hcloses h
        rw [← hlater]
        simpa using hmisread
      rw [replaceAll_char hquote] at h
      by_cases hhere : f.quote <+: c :: cs ++ f.quote
      · -- The end of the text: what is shorter than the quote holds none.
        have hshort : cs.length < f.quote.length := by
          by_contra hlong
          refine hquote (List.prefix_of_prefix_length_le hhere (List.prefix_append _ _) ?_)
          simp only [List.length_cons]
          omega
        rw [replaceAll_of_length_lt hshort] at h
        have hstart : f.quote <+: c :: (cs ++ f.quote ++ rest) := hhere.trans ⟨rest, by simp⟩
        have hne := List.length_pos_iff.2 f.quote_ne
        simp only [List.cons_append, read, if_pos hstart] at h
        split at h
        · obtain ⟨first, others, rfl, more, tail, rfl⟩ := begins_of_read h (by simp)
          refine ⟨_, tail, others, rfl, fun htext => ?_⟩
          have hlen := congrArg List.length htext
          have hlt : ¬ f.quote.length ≤ (c :: cs).length := by
            intro hle
            exact hquote (List.prefix_of_prefix_length_le hhere (List.prefix_append _ _) hle)
          simp only [List.length_append, List.append_assoc] at hlen
          omega
        · obtain ⟨first, others, rfl, tail, rfl⟩ := begins_of_read h (by simp)
          exact ⟨before, tail, others, rfl, by simp⟩
      · have hrest : closesAfter f.quote 0 cs = false := by
          rw [← Bool.not_eq_true] at hcloses ⊢
          exact fun hrest => hcloses ((closesAfter_char hquote).2 ⟨hhere, hrest⟩)
        -- no quote begins here, so that the character is read as it is
        have hno : ¬ f.quote <+: c :: (Text.replaceAll f.quote (f.quote ++ f.quote) cs ++ f.quote
            ++ rest) := by
          intro hstart
          refine hhere ((quote_prefix_replaceAll f.quote_ne).1 ?_)
          refine List.prefix_of_prefix_length_le hstart ⟨rest, by simp⟩ ?_
          simp only [List.length_cons, List.length_append]
          omega
        rw [List.cons_append, List.cons_append, read_quoted_char hno] at h
        have hmisread := ih cs.length (by rw [← hlength]; exact Nat.lt_succ_self _) rfl hrest h
        simpa using hmisread

/-- **A field** that opens as it should is read back, or read as another text if it does not close as
it should. -/
theorem read_write_field {separator : Separator} {field : Field α}
    (hopens : field.Opens f separator) (hnewline : field.quoted = false → f.newline ∉ field.text)
    (h : read f 0 .start record (field.write f ++ (separator.mark f ++ rest)) = some out) :
    field.Closes f separator ∧ readOn f record field rest separator = some out
      ∨ ¬ field.Closes f separator ∧ Misread record field out := by
  obtain ⟨quoted, text⟩ := field
  cases quoted with
  | false =>
    have hquote : ¬ f.quote <+: text ++ separator.mark f := hopens rfl
    have hline : f.newline ∉ text := hnewline rfl
    by_cases hcloses : ∀ t ∈ text.tails, t ≠ [] → ¬ f.delimiter <+: t ++ separator.mark f
    · left
      rw [← read_field (FieldText.bare ⟨hquote, hcloses, hline⟩)]
      exact ⟨hcloses, h⟩
    · right
      have hne : text ++ (separator.mark f ++ rest) ≠ [] := by
        cases separator <;> simp [Separator.mark, f.delimiter_ne]
      have hbare := @read_start_bare _ _ f record _ hne
        fun hstart => hquote (quote_prefix_separator hstart)
      -- either the field closes, and is read, or what is read differs
      have hmisread := misread_bare hcloses hline (hbare ▸ h)
      exact ⟨hcloses, hmisread⟩
  | true =>
    by_cases hcloses : closesAfter f.quote 0 text = true
    · left
      rw [← read_field (FieldText.quoted (escaped_of_closesAfter f.quote_ne hcloses))]
      exact ⟨hcloses, h⟩
    · right
      simp only [Field.write, if_true, List.append_assoc, read_start_quote] at h
      rw [← List.append_assoc] at h
      have hmisread := misread_quoted (Bool.not_eq_true _ ▸ hcloses) h
      exact ⟨hcloses, hmisread⟩

end OneField

/-! ### Records and files -/

/-- A record as it is usually written. -/
def writeRecord (f : Format α) (fields : List (Field α)) : List α :=
  f.delimiter.intercalate (fields.map (Field.write f)) ++ [f.newline]

/-- A property of every field of a record and the separator after it. -/
def Along (P : Separator → Field α → Prop) : List (Field α) → Prop
  | [] => True
  | [field] => P .newline field
  | field :: next :: fields => P .delimiter field ∧ Along P (next :: fields)

instance decidableAlong {P : Separator → Field α → Prop} [∀ separator, DecidablePred (P separator)] :
    DecidablePred (Along P)
  | [] => .isTrue trivial
  | [field] => inferInstanceAs (Decidable (P .newline field))
  | field :: next :: fields =>
    have := decidableAlong (P := P) (next :: fields)
    inferInstanceAs (Decidable (P .delimiter field ∧ Along P (next :: fields)))

section Records

variable {f : Format α} {γ : Type*} {enc : γ → Field α} {dec : Field α → γ}

theorem writeRecord_cons (field next : Field α) (fields : List (Field α)) :
    writeRecord f (field :: next :: fields)
      = field.write f ++ (f.delimiter ++ writeRecord f (next :: fields)) := by
  simp [writeRecord, List.intercalate_cons_cons]

omit [DecidableEq α] in
/-- The cell of the first field that a record is read to have. -/
theorem dec_eq_of_map {record tail : List (Field α)} {field : Field α} {cell : γ} {cells : List γ}
    (h : (record ++ field :: tail).map dec = record.map dec ++ cell :: cells) : dec field = cell := by
  rw [List.map_append, List.append_cancel_left_eq, List.map_cons] at h
  exact (List.cons.inj h).1

/-- **A record** whose fields open as they should is read back if and only if they close as they
should and its cells are those of its fields. -/
theorem of_read_record (hdec : ∀ field cell, field.quoted = (enc cell).quoted → dec field = cell →
      field = enc cell) (hnewline : ∀ cell, (enc cell).quoted = false → f.newline ∉ (enc cell).text)
    {cells : List γ} (hcells : cells ≠ []) (hopens : Along (Field.Opens f) (cells.map enc))
    {record : List (Field α)} {rest : List α} {first : List (Field α)}
    {others : List (List (Field α))}
    (h : read f 0 .start record (writeRecord f (cells.map enc) ++ rest) = some (first :: others))
    (hfirst : first.map dec = record.map dec ++ cells) :
    Along (Field.Closes f) (cells.map enc) ∧ (∀ cell ∈ cells, dec (enc cell) = cell)
      ∧ first = record ++ cells.map enc ∧ read f 0 .start [] rest = some others := by
  -- A field that is misread is not read as its cell.
  have hmisread : ∀ {record cell cells}, first.map dec = record.map dec ++ cell :: cells →
      ¬ Misread record (enc cell) (first :: others) := by
    rintro record cell cells hfirst ⟨text, tail, others', hout, htext⟩
    obtain ⟨rfl, -⟩ := List.cons.inj hout
    have hfield := hdec ⟨_, text⟩ cell rfl (dec_eq_of_map hfirst)
    exact htext (congrArg Field.text hfield)
  induction cells generalizing record with
  | nil => exact absurd rfl hcells
  | cons cell cells ih =>
    cases cells with
    | nil =>
      have hone : writeRecord f [enc cell] ++ rest
          = (enc cell).write f ++ (Separator.newline.mark f ++ rest) := by
        simp [writeRecord, Separator.mark]
      rw [List.map_singleton, hone] at h
      rcases read_write_field hopens (hnewline cell) h with ⟨hcloses, hread⟩ | ⟨-, hwrong⟩
      · obtain ⟨others', hothers, hout⟩ := Option.map_eq_some_iff.1 hread
        obtain ⟨rfl, rfl⟩ := List.cons.inj hout
        have hcell := dec_eq_of_map hfirst
        exact ⟨hcloses, by simpa using hcell, rfl, hothers⟩
      · exact absurd hwrong (hmisread hfirst)
    | cons next cells =>
      rw [List.map_cons, List.map_cons, writeRecord_cons, List.append_assoc, List.append_assoc] at h
      rcases @read_write_field _ _ f record _ _ .delimiter _ hopens.1 (hnewline cell) h with
        ⟨hcloses, hread⟩ | ⟨-, hwrong⟩
      · obtain ⟨first', others', hout, hbegins⟩ := begins_of_read hread (by simp)
        obtain ⟨rfl, rfl⟩ := List.cons.inj hout
        obtain ⟨tail, htail⟩ := begins_append hbegins
        have hcell : dec (enc cell) = cell := dec_eq_of_map (htail ▸ hfirst)
        have hrest : first.map dec = (record ++ [enc cell]).map dec ++ next :: cells := by
          rw [hfirst, List.map_append, List.map_singleton, hcell, List.append_assoc]
          rfl
        obtain ⟨hclose, hall, rfl, hothers⟩ := ih (by simp) hopens.2 hread hrest
        refine ⟨⟨hcloses, hclose⟩, List.forall_mem_cons.2 ⟨hcell, hall⟩, by simp, hothers⟩
      · exact absurd hwrong (hmisread hfirst)

/-- Fields that open and close as they should make a record. -/
theorem recordText_writeRecord {fields : List (Field α)} (hfields : fields ≠ [])
    (hnewline : ∀ field ∈ fields, field.quoted = false → f.newline ∉ field.text)
    (hopens : Along (Field.Opens f) fields) (hcloses : Along (Field.Closes f) fields) :
    RecordText f fields (writeRecord f fields) := by
  -- every field stands as its text before its separator
  have hfield : ∀ {separator} {field : Field α}, field.Opens f separator →
      field.Closes f separator → (field.quoted = false → f.newline ∉ field.text) →
      FieldText f separator field (field.write f) := by
    rintro separator ⟨quoted, text⟩ hopen hclose hline
    cases quoted with
    | false => exact .bare ⟨hopen rfl, hclose, hline rfl⟩
    | true => exact .quoted (escaped_of_closesAfter f.quote_ne hclose)
  induction fields with
  | nil => exact absurd rfl hfields
  | cons field fields ih =>
    obtain ⟨hline, hlines⟩ := List.forall_mem_cons.1 hnewline
    cases fields with
    | nil =>
      have hone : writeRecord f [field] = field.write f ++ [f.newline] := by simp [writeRecord]
      rw [hone]
      exact .last (hfield hopens hcloses hline)
    | cons next fields =>
      rw [writeRecord_cons, ← List.append_assoc]
      exact .cons (hfield hopens.1 hcloses.1 hline) (ih (by simp) hlines hopens.2 hcloses.2)

/-- **A file** whose fields open as they should is read back if and only if they close as they should
and its cells are those of its fields. -/
theorem readFile_write_iff (hdec : ∀ field cell, field.quoted = (enc cell).quoted →
      dec field = cell → field = enc cell)
    (hnewline : ∀ cell, (enc cell).quoted = false → f.newline ∉ (enc cell).text)
    {rows : List (List γ)} (hrows : ∀ row ∈ rows, row ≠ [])
    (hopens : ∀ row ∈ rows, Along (Field.Opens f) (row.map enc)) :
    (∃ records, readFile f (rows.flatMap fun row => writeRecord f (row.map enc)) = some records
        ∧ records.map (List.map dec) = rows)
      ↔ ∀ row ∈ rows, Along (Field.Closes f) (row.map enc) ∧ ∀ cell ∈ row, dec (enc cell) = cell := by
  induction rows with
  | nil => simp [readFile, read]
  | cons row rows ih =>
    obtain ⟨hrow, hlater⟩ := List.forall_mem_cons.1 hrows
    obtain ⟨hopen, hopens⟩ := List.forall_mem_cons.1 hopens
    rw [List.forall_mem_cons, ← ih hlater hopens, List.flatMap_cons]
    constructor
    · rintro ⟨records, hread, hcells⟩
      -- the first record read is the first row, and what follows is the rest
      obtain ⟨first, others, rfl, hfirst, hothers⟩ := List.map_eq_cons_iff.1 hcells
      obtain ⟨hclose, hcell, -, hrest⟩ := of_read_record hdec hnewline hrow hopen hread hfirst
      exact ⟨⟨hclose, hcell⟩, others, hrest, hothers⟩
    · rintro ⟨⟨hclose, hcell⟩, others, hothers, hcells⟩
      -- the other way the record is read as a whole
      have hrecord := recordText_writeRecord (by simpa using hrow)
        (List.forall_mem_map.2 fun cell _ => hnewline cell) hopen hclose
      have hread : readFile f (writeRecord f (row.map enc)
          ++ rows.flatMap fun row => writeRecord f (row.map enc))
          = some (row.map enc :: others) := by
        rw [readFile, read_record hrecord]
        exact congrArg (Option.map _) hothers
      have hmap : (row.map enc).map dec = row := by
        rw [List.map_map]
        exact (List.map_congr_left hcell).trans (List.map_id _)
      exact ⟨_, hread, by rw [List.map_cons, hmap, hcells]⟩

end Records

/-! ### Marks that do not overlap -/

/-- The end of the one, but not all of it, is how the other begins. -/
def Overlaps (mark next : List α) : Prop := ∃ t ∈ mark.tail.tails, t ≠ [] ∧ t <+: next

instance (mark next : List α) : Decidable (Overlaps mark next) := by
  unfold Overlaps
  infer_instance

section Overlapping

variable {f : Format α}

omit [DecidableEq α] in
/-- A mark that begins in a text without it and goes on in what follows overlaps with that. -/
theorem overlaps_of_start {mark next text : List α} (htext : text ≠ []) (hno : ¬ mark <:+: text)
    (h : mark <+: text ++ next) : Overlaps mark next := by
  rcases List.prefix_or_prefix_of_prefix h (List.prefix_append text next) with hin | ⟨t, ht⟩
  · exact absurd hin.isInfix hno
  · have hne : t ≠ [] := by
      rintro rfl
      rw [List.append_nil] at ht
      exact hno (ht ▸ List.infix_refl _)
    rw [← ht, List.prefix_append_right_inj] at h
    refine ⟨t, (List.mem_tails _ _).2 ?_, hne, h⟩
    cases text with
    | nil => exact absurd rfl htext
    | cons c text => exact ht ▸ List.suffix_append text t

omit [DecidableEq α] in
/-- Marks that overlap: a text without the first one, after which the second one completes it. -/
theorem exists_of_overlaps {mark next : List α} (h : Overlaps mark next) :
    ∃ text t, mark = text ++ t ∧ text ≠ [] ∧ t ≠ [] ∧ t <+: next := by
  obtain ⟨t, ht, hne, hstart⟩ := h
  obtain ⟨s, hs⟩ := (List.mem_tails _ _).1 ht
  cases mark with
  | nil => simp_all
  | cons c mark => exact ⟨c :: s, t, by simpa using hs.symm, by simp, hne, hstart⟩

omit [DecidableEq α] in
/-- A field opens as it should if the quote does not overlap with the delimiter. -/
theorem opens_of_not_overlaps (h : ¬ Overlaps f.quote f.delimiter) {field : Field α}
    (hquote : field.quoted = false → ¬ f.quote <:+: field.text) (separator : Separator) :
    field.Opens f separator := by
  intro hbare hstart
  cases separator with
  | delimiter =>
    by_cases htext : field.text = []
    · rw [htext] at hstart
      exact f.quote_apart hstart.isInfix
    · exact h (overlaps_of_start htext (hquote hbare) hstart)
  | newline =>
    exact hquote hbare (prefix_of_prefix_newline f.newline_quote hstart).isInfix

theorem closesAfter_of_not_overlaps {q : List α} (hq : q ≠ []) (h : ¬ Overlaps q q) :
    ∀ {text : List α}, closesAfter q 0 text = true := by
  intro text
  induction hlength : text.length using Nat.strong_induction_on generalizing text with
  | _ n ih =>
    cases text with
    | nil => rfl
    | cons c cs =>
      by_cases hquote : q <+: c :: cs
      · obtain ⟨rest, hrest⟩ := hquote
        have hpos := List.length_pos_iff.2 hq
        rw [← hrest, closesAfter_quote hq]
        refine ih _ ?_ rfl
        rw [← hlength, ← hrest, List.length_append]
        omega
      · refine (closesAfter_char hquote).2 ⟨fun hstart => h ?_, ih cs.length ?_ rfl⟩
        · -- A quote that begins here goes on in the one after the text.
          rcases List.prefix_or_prefix_of_prefix hstart (List.prefix_append (c :: cs) q) with
            hin | ⟨t, ht⟩
          · exact absurd hin hquote
          have hne : t ≠ [] := by
            rintro rfl
            exact hquote (ht ▸ by simp)
          rw [← ht, List.prefix_append_right_inj, ht] at hstart
          refine ⟨t, (List.mem_tails _ _).2 ?_, hne, hstart⟩
          exact ht ▸ List.suffix_append cs t
        · rw [← hlength]
          exact Nat.lt_succ_self _

/-- A field closes as it should if no mark overlaps with itself. -/
theorem closes_of_not_overlaps (hdelimiter : ¬ Overlaps f.delimiter f.delimiter)
    (hquote : ¬ Overlaps f.quote f.quote) {field : Field α}
    (hbare : field.quoted = false → ¬ f.delimiter <:+: field.text) (separator : Separator) :
    field.Closes f separator := by
  unfold Field.Closes
  split
  · exact closesAfter_of_not_overlaps f.quote_ne hquote
  next hno =>
    intro t ht hne hstart
    have hsuffix := (List.mem_tails _ _).1 ht
    have hnone : ¬ f.delimiter <:+: t := fun hin => hbare (by simpa using hno)
      (hin.trans hsuffix.isInfix)
    cases separator with
    | delimiter => exact hdelimiter (overlaps_of_start hne hnone hstart)
    | newline =>
      exact hnone (prefix_of_prefix_newline f.newline_delimiter hstart).isInfix

omit [DecidableEq α] in
theorem along_of_forall {P : Separator → Field α → Prop} {fields : List (Field α)}
    (h : ∀ field ∈ fields, ∀ separator, P separator field) : Along P fields := by
  induction fields with
  | nil => trivial
  | cons field fields ih =>
    obtain ⟨hfield, hrest⟩ := List.forall_mem_cons.1 h
    cases fields with
    | nil => exact hfield .newline
    | cons next fields => exact ⟨hfield .delimiter, ih hrest⟩

/-- From inside a quoted field on, two fields take a closing quote and a delimiter. -/
theorem length_of_read_quoted {text cs : List α} {record first : List (Field α)}
    {others : List (List (Field α))}
    (h : read f 0 (.quoted text) record cs = some (first :: others))
    (hfirst : record.length + 2 ≤ first.length) : f.quote.length + f.delimiter.length ≤ cs.length := by
  induction hlength : cs.length using Nat.strong_induction_on generalizing text cs with
  | _ n ih =>
    have hpos := List.length_pos_iff.2 f.quote_ne
    by_cases hquote : f.quote <+: cs
    · obtain ⟨rest, rfl⟩ := hquote
      -- a doubled quote goes on inside the field; a single one has to be followed by a delimiter
      by_cases hdoubled : f.quote <+: rest
      · obtain ⟨rest, rfl⟩ := hdoubled
        rw [← List.append_assoc, read_quoted_doubled] at h
        have hless := ih rest.length (by rw [← hlength]; simp; omega) h rfl
        rw [← hlength]
        simp only [List.length_append]
        omega
      · rw [read_quoted_close hdoubled] at h
        cases rest with
        | nil => simp [read] at h
        | cons c rest =>
          simp only [read] at h
          split at h
          · next hdelimiter =>
            rw [← hlength, List.length_append]
            exact Nat.add_le_add_left hdelimiter.length_le _
          split at h
          · obtain ⟨_, -, hout⟩ := Option.map_eq_some_iff.1 h
            obtain ⟨rfl, rfl⟩ := List.cons.inj hout
            simp at hfirst
          · cases h
    · cases cs with
      | nil => simp [read] at h
      | cons c cs =>
        rw [read_quoted_char hquote] at h
        have hless := ih cs.length (by rw [← hlength]; exact Nat.lt_succ_self _) h rfl
        rw [← hlength, List.length_cons]
        omega

end Overlapping

end Csv
