import Mathlib

/-!
# Separated values

A reader for texts of separated values whose delimiter and quote are texts of any length, over any
alphabet. It takes the leftmost match: a field that begins with the quote runs to the next quote that
is not doubled, any other one to the next delimiter or to the end of its line.

`FieldText` and `RecordText` say which texts stand for a field and for a record, wherever they are
found, and `readFile_flatten` that the reader finds them.
-/

namespace Csv

variable {α : Type*} [DecidableEq α]

/-- How values are separated. Neither mark is part of the other, and no line ends in one. -/
structure Format (α : Type*) where
  delimiter : List α
  quote : List α
  newline : α
  delimiter_ne : delimiter ≠ []
  quote_ne : quote ≠ []
  delimiter_apart : ¬ delimiter <:+: quote
  quote_apart : ¬ quote <:+: delimiter
  newline_delimiter : newline ∉ delimiter
  newline_quote : newline ∉ quote

/-- What is read as a value, and whether it was quoted. -/
structure Field (α : Type*) where
  quoted : Bool
  text : List α
  deriving DecidableEq

/-- What the reader is in the middle of: the beginning of a field, an unquoted one, a quoted one, or
what comes after its closing quote. -/
inductive Mode (α : Type*)
  | start
  | bare (text : List α)
  | quoted (text : List α)
  | closed (text : List α)

/-! ### Reading -/

variable (f : Format α)

/-- The records of a text, after `skip` characters that belong to a mark. Every record ends with a
newline. -/
def read (skip : ℕ) (mode : Mode α) (record : List (Field α)) :
    List α → Option (List (List (Field α)))
  | [] =>
    match mode, record with
    | .start, [] => some []
    | _, _ => none
  | c :: cs =>
    match skip with
    | skip + 1 => read skip mode record cs
    | 0 =>
      let bare (text : List α) :=
        if f.delimiter <+: c :: cs then
          read (f.delimiter.length - 1) .start (record ++ [⟨false, text⟩]) cs
        else if c = f.newline then
          (read 0 .start [] cs).map ((record ++ [⟨false, text⟩]) :: ·)
        else read 0 (.bare (text ++ [c])) record cs
      match mode with
      | .start =>
        if f.quote <+: c :: cs then read (f.quote.length - 1) (.quoted []) record cs else bare []
      | .bare text => bare text
      | .quoted text =>
        if f.quote ++ f.quote <+: c :: cs then
          read ((f.quote ++ f.quote).length - 1) (.quoted (text ++ f.quote)) record cs
        else if f.quote <+: c :: cs then read (f.quote.length - 1) (.closed text) record cs
        else read 0 (.quoted (text ++ [c])) record cs
      | .closed text =>
        if f.delimiter <+: c :: cs then
          read (f.delimiter.length - 1) .start (record ++ [⟨true, text⟩]) cs
        else if c = f.newline then
          (read 0 .start [] cs).map ((record ++ [⟨true, text⟩]) :: ·)
        else none

section

-- The equations of `read` are made here, and not by every proof that unfolds it.
attribute [local simp] read

end

/-- The records of a text. -/
def readFile (text : List α) : Option (List (List (Field α))) := read f 0 .start [] text

/-! ### What the reader does with marks -/

/-- What ends a field. -/
inductive Separator
  | delimiter
  | newline
  deriving DecidableEq

/-- The mark of a separator. -/
def Separator.mark (f : Format α) : Separator → List α
  | .delimiter => f.delimiter
  | .newline => [f.newline]

/-- The records of what follows a field. -/
def readOn (f : Format α) (record : List (Field α)) (field : Field α) (rest : List α) :
    Separator → Option (List (List (Field α)))
  | .delimiter => read f 0 .start (record ++ [field]) rest
  | .newline => (read f 0 .start [] rest).map ((record ++ [field]) :: ·)

omit [DecidableEq α] in
/-- A mark that a text begins with. -/
theorem exists_cons_of_ne {mark : List α} (hmark : mark ≠ []) (rest : List α) :
    ∃ c cs, mark ++ rest = c :: cs := by
  cases mark with
  | nil => exact absurd rfl hmark
  | cons c mark => exact ⟨c, mark ++ rest, rfl⟩

omit [DecidableEq α] in
theorem not_delimiter_prefix_newline (rest : List α) : ¬ f.delimiter <+: f.newline :: rest := by
  intro h
  have hnewline := f.newline_delimiter
  have hne := f.delimiter_ne
  cases hd : f.delimiter with
  | nil => exact hne hd
  | cons c cs =>
    rw [hd] at h hnewline
    obtain rfl := (List.cons_prefix_cons.1 h).1
    exact hnewline List.mem_cons_self

section Steps

variable {f : Format α} {mode : Mode α} {record : List (Field α)} {text rest : List α}

/-- A mark is passed once it is found. -/
theorem read_skip (place rest : List α) :
    read f place.length mode record (place ++ rest) = read f 0 mode record rest := by
  induction place with
  | nil => rfl
  | cons c place ih => exact ih

/-- The rest of a mark is passed after its first character. -/
theorem read_pred {mark : List α} {c : α} {cs : List α} (hmark : mark ≠ [])
    (h : mark ++ rest = c :: cs) :
    read f (mark.length - 1) mode record cs = read f 0 mode record rest := by
  cases mark with
  | nil => exact absurd rfl hmark
  | cons d mark =>
    obtain ⟨-, rfl⟩ := List.cons.inj h
    exact read_skip mark rest

theorem read_bare_separator (separator : Separator) :
    read f 0 (.bare text) record (separator.mark f ++ rest)
      = readOn f record ⟨false, text⟩ rest separator := by
  cases separator with
  | delimiter =>
    obtain ⟨c, cs, h⟩ := exists_cons_of_ne f.delimiter_ne rest
    have hstart : f.delimiter <+: c :: cs := ⟨rest, h⟩
    simp only [Separator.mark, h, read, if_pos hstart, readOn]
    exact read_pred f.delimiter_ne h
  | newline =>
    simp only [Separator.mark, List.singleton_append, read,
      if_neg (not_delimiter_prefix_newline f rest), if_true, readOn]

theorem read_closed_separator (separator : Separator) :
    read f 0 (.closed text) record (separator.mark f ++ rest)
      = readOn f record ⟨true, text⟩ rest separator := by
  cases separator with
  | delimiter =>
    obtain ⟨c, cs, h⟩ := exists_cons_of_ne f.delimiter_ne rest
    have hstart : f.delimiter <+: c :: cs := ⟨rest, h⟩
    simp only [Separator.mark, h, read, if_pos hstart, readOn]
    exact read_pred f.delimiter_ne h
  | newline =>
    simp only [Separator.mark, List.singleton_append, read,
      if_neg (not_delimiter_prefix_newline f rest), if_true, readOn]

theorem read_bare_char {c : α} {cs : List α} (hdelimiter : ¬ f.delimiter <+: c :: cs)
    (hnewline : c ≠ f.newline) :
    read f 0 (.bare text) record (c :: cs) = read f 0 (.bare (text ++ [c])) record cs := by
  simp only [read, if_neg hdelimiter, if_neg hnewline]

theorem read_start_quote :
    read f 0 .start record (f.quote ++ rest) = read f 0 (.quoted []) record rest := by
  obtain ⟨c, cs, h⟩ := exists_cons_of_ne f.quote_ne rest
  have hstart : f.quote <+: c :: cs := ⟨rest, h⟩
  simp only [h, read, if_pos hstart]
  exact read_pred f.quote_ne h

theorem read_start_bare {cs : List α} (hcs : cs ≠ []) (hquote : ¬ f.quote <+: cs) :
    read f 0 .start record cs = read f 0 (.bare []) record cs := by
  cases cs with
  | nil => exact absurd rfl hcs
  | cons c cs => simp only [read, if_neg hquote]

theorem read_quoted_doubled :
    read f 0 (.quoted text) record (f.quote ++ f.quote ++ rest)
      = read f 0 (.quoted (text ++ f.quote)) record rest := by
  have hne : f.quote ++ f.quote ≠ [] := by simp [f.quote_ne]
  obtain ⟨c, cs, h⟩ := exists_cons_of_ne hne rest
  have hstart : f.quote ++ f.quote <+: c :: cs := ⟨rest, h⟩
  simp only [h, read, if_pos hstart]
  exact read_pred hne h

theorem read_quoted_close (hrest : ¬ f.quote <+: rest) :
    read f 0 (.quoted text) record (f.quote ++ rest) = read f 0 (.closed text) record rest := by
  obtain ⟨c, cs, h⟩ := exists_cons_of_ne f.quote_ne rest
  have hstart : f.quote <+: c :: cs := ⟨rest, h⟩
  have hdoubled : ¬ f.quote ++ f.quote <+: c :: cs := by
    rw [← h, List.prefix_append_right_inj]
    exact hrest
  simp only [h, read, if_neg hdoubled, if_pos hstart]
  exact read_pred f.quote_ne h

theorem read_quoted_char {c : α} {cs : List α} (hquote : ¬ f.quote <+: c :: cs) :
    read f 0 (.quoted text) record (c :: cs) = read f 0 (.quoted (text ++ [c])) record cs := by
  have hdoubled : ¬ f.quote ++ f.quote <+: c :: cs :=
    fun h => hquote ((List.prefix_append _ _).trans h)
  simp only [read, if_neg hdoubled, if_neg hquote]

end Steps

/-! ### Texts that stand for fields -/

/-- A quoted text without its marks: the quote is doubled in it, and begins nowhere else, not even
together with the quote that follows. -/
inductive Escaped (q : List α) : List α → List α → Prop
  | nil : Escaped q [] []
  | quote {escaped text : List α} : Escaped q escaped text →
      Escaped q (q ++ q ++ escaped) (q ++ text)
  | char {c : α} {escaped text : List α} : ¬ q <+: c :: escaped ++ q → Escaped q escaped text →
      Escaped q (c :: escaped) (c :: text)

/-- An unquoted text before a separator: it does not begin like a quoted one, and no delimiter begins
in it, not even together with the separator. -/
structure Bare (f : Format α) (separator : Separator) (text : List α) : Prop where
  quote : ¬ f.quote <+: text ++ separator.mark f
  delimiter : ∀ t ∈ text.tails, t ≠ [] → ¬ f.delimiter <+: t ++ separator.mark f
  newline : f.newline ∉ text

/-- The texts that stand for a field before a separator. -/
inductive FieldText (f : Format α) (separator : Separator) : Field α → List α → Prop
  | bare {text : List α} : Bare f separator text → FieldText f separator ⟨false, text⟩ text
  | quoted {escaped text : List α} : Escaped f.quote escaped text →
      FieldText f separator ⟨true, text⟩ (f.quote ++ escaped ++ f.quote)

/-- The texts that stand for a record. -/
inductive RecordText (f : Format α) : List (Field α) → List α → Prop
  | last {field : Field α} {text : List α} : FieldText f .newline field text →
      RecordText f [field] (text ++ [f.newline])
  | cons {field : Field α} {text : List α} {fields : List (Field α)} {texts : List α} :
      FieldText f .delimiter field text → RecordText f fields texts →
      RecordText f (field :: fields) (text ++ f.delimiter ++ texts)

section Reading

variable {f : Format α} {record : List (Field α)} {rest : List α}

omit [DecidableEq α] in
/-- A mark without newlines that begins before a newline ends before it. -/
theorem prefix_of_prefix_newline {mark text : List α} (hmark : f.newline ∉ mark)
    (h : mark <+: text ++ f.newline :: rest) : mark <+: text := by
  have hline : text ++ [f.newline] <+: text ++ f.newline :: rest := ⟨rest, by simp⟩
  rcases List.prefix_or_prefix_of_prefix h hline with h | h
  · rcases List.prefix_concat_iff.1 h with h | h
    · exact absurd (h ▸ List.mem_append_right _ List.mem_cons_self) hmark
    · exact h
  · exact absurd (h.mem (List.mem_append_right _ List.mem_cons_self)) hmark

omit [DecidableEq α] in
/-- A quote that begins before a separator ends before it or in it. -/
theorem quote_prefix_separator {separator : Separator} {text : List α}
    (h : f.quote <+: text ++ (separator.mark f ++ rest)) :
    f.quote <+: text ++ separator.mark f := by
  cases separator with
  | delimiter =>
    have hmark : text ++ f.delimiter <+: text ++ (f.delimiter ++ rest) := ⟨rest, by simp⟩
    rcases List.prefix_or_prefix_of_prefix h hmark with h | h
    · exact h
    · exact absurd ((List.suffix_append text f.delimiter).isInfix.trans h.isInfix) f.delimiter_apart
  | newline => exact (prefix_of_prefix_newline f.newline_quote h).trans (List.prefix_append _ _)

omit [DecidableEq α] in
/-- A delimiter that begins before a separator ends before it or in it. -/
theorem delimiter_prefix_separator {separator : Separator} {text : List α}
    (h : f.delimiter <+: text ++ (separator.mark f ++ rest)) :
    f.delimiter <+: text ++ separator.mark f := by
  cases separator with
  | delimiter =>
    have hmark : text ++ f.delimiter <+: text ++ (f.delimiter ++ rest) := ⟨rest, by simp⟩
    exact List.prefix_of_prefix_length_le h hmark (by simp [Separator.mark])
  | newline => exact (prefix_of_prefix_newline f.newline_delimiter h).trans (List.prefix_append _ _)

omit [DecidableEq α] in
/-- No quote begins where a separator does. -/
theorem not_quote_prefix_separator (separator : Separator) :
    ¬ f.quote <+: separator.mark f ++ rest := by
  intro h
  have hmark := @quote_prefix_separator _ f rest separator [] h
  cases separator with
  | delimiter => exact f.quote_apart hmark.isInfix
  | newline =>
    have hnil := List.prefix_nil.1 (@prefix_of_prefix_newline _ f [] _ [] f.newline_quote hmark)
    exact f.quote_ne hnil

/-- An unquoted text is read up to its separator. -/
theorem read_bare {separator : Separator} {before text : List α}
    (hdelimiter : ∀ t ∈ text.tails, t ≠ [] → ¬ f.delimiter <+: t ++ separator.mark f)
    (hnewline : f.newline ∉ text) :
    read f 0 (.bare before) record (text ++ (separator.mark f ++ rest))
      = readOn f record ⟨false, before ++ text⟩ rest separator := by
  induction text generalizing before with
  | nil => simpa using read_bare_separator separator
  | cons c text ih =>
    have hhere : ¬ f.delimiter <+: c :: (text ++ (separator.mark f ++ rest)) := fun h =>
      hdelimiter (c :: text) (by simp) (by simp) (delimiter_prefix_separator h)
    have hc : c ≠ f.newline := fun h => hnewline (h ▸ List.mem_cons_self)
    rw [List.cons_append, read_bare_char hhere hc, ih]
    · simp
    · exact fun t ht => hdelimiter t (by simpa using Or.inr (by simpa using ht))
    · exact fun h => hnewline (List.mem_cons_of_mem _ h)

/-- A quoted text is read up to its closing quote. -/
theorem read_escaped {separator : Separator} {before escaped text : List α}
    (h : Escaped f.quote escaped text) :
    read f 0 (.quoted before) record (escaped ++ f.quote ++ (separator.mark f ++ rest))
      = readOn f record ⟨true, before ++ text⟩ rest separator := by
  induction h generalizing before with
  | nil =>
    rw [List.nil_append, read_quoted_close (not_quote_prefix_separator separator),
      read_closed_separator, List.append_nil]
  | quote _ ih =>
    rw [List.append_assoc, List.append_assoc, read_quoted_doubled, ← List.append_assoc, ih,
      List.append_assoc]
  | @char c escaped text hno _ ih =>
    -- no quote begins here, for the text behind the mark is already decided
    have hhere : ¬ f.quote <+: c :: escaped ++ f.quote ++ (separator.mark f ++ rest) := by
      intro h
      refine hno (List.prefix_of_prefix_length_le h (List.prefix_append _ _) ?_)
      simp only [List.length_append]
      omega
    simp only [List.cons_append] at hhere ⊢
    rw [read_quoted_char hhere, ih]
    simp

/-- **A field** is read from its text. -/
theorem read_field {separator : Separator} {field : Field α} {text : List α}
    (h : FieldText f separator field text) :
    read f 0 .start record (text ++ (separator.mark f ++ rest))
      = readOn f record field rest separator := by
  cases h with
  | bare h =>
    have hne : text ++ (separator.mark f ++ rest) ≠ [] := by
      cases separator <;> simp [Separator.mark, f.delimiter_ne]
    rw [read_start_bare hne fun hquote => h.quote (quote_prefix_separator hquote),
      read_bare h.delimiter h.newline, List.nil_append]
  | quoted h =>
    rw [List.append_assoc, List.append_assoc, read_start_quote, ← List.append_assoc,
      read_escaped h, List.nil_append]

/-- **A record** is read from its text. -/
theorem read_record {fields : List (Field α)} {text : List α} (h : RecordText f fields text) :
    read f 0 .start record (text ++ rest)
      = (read f 0 .start [] rest).map ((record ++ fields) :: ·) := by
  induction h generalizing record with
  | last h => rw [List.append_assoc]; exact read_field h
  | cons h _ ih =>
    rw [List.append_assoc, List.append_assoc]
    refine (@read_field _ _ f record _ .delimiter _ _ h).trans ?_
    rw [readOn, ih]
    simp

/-- **A file** is read from the texts of its records. -/
theorem readFile_flatten {records : List (List (Field α))} {texts : List (List α)}
    (h : List.Forall₂ (RecordText f) records texts) : readFile f texts.flatten = some records := by
  induction h with
  | nil => rfl
  | cons hrecord _ ih =>
    rw [List.flatten_cons, readFile, read_record hrecord]
    exact congrArg (Option.map _) ih

end Reading

end Csv
