import NavopExtensions.Importers.Openssh
import NavopExtensions.Lib.Sshconfig

/-!
# How the OpenSSH importer reads a line

A line whose keyword is followed by blanks is read as it is meant, with any indentation, letter case and
quotes, if no `#` stands in an argument without quotes.
-/

namespace Navop
namespace Openssh

open Text Importers Sshconfig

/-! ### Texts without blanks around them -/

/-- A text that begins and ends with something else than white space. -/
structure Solid (text : Str) : Prop where
  nonempty : text ≠ []
  first : ∀ c, text.head? = some c → isWhitespace c = false
  last : ∀ c, text.getLast? = some c → isWhitespace c = false

theorem solid_of_forall {text : Str} (hne : text ≠ [])
    (htext : ∀ c ∈ text, isWhitespace c = false) : Solid text where
  nonempty := hne
  first c hc := htext c (List.mem_of_mem_head? hc)
  last c hc := htext c (List.mem_of_mem_getLast? hc)

theorem Solid.append {text tail : Str} (htext : Solid text) (middle : Str) (htail : Solid tail) :
    Solid (text ++ (middle ++ tail)) where
  nonempty := List.append_ne_nil_of_left_ne_nil htext.nonempty _
  first c hc := by
    rw [List.head?_append_of_ne_nil _ htext.nonempty] at hc
    exact htext.first c hc
  last c hc := by
    rw [← List.append_assoc, List.getLast?_append_of_ne_nil _ htail.nonempty] at hc
    exact htail.last c hc

theorem dropWhile_padded {p : Char → Bool} {padding core : Str} (hpadding : ∀ c ∈ padding, p c = true)
    (hcore : ∀ c, core.head? = some c → p c = false) : (padding ++ core).dropWhile p = core := by
  rw [List.dropWhile_append_of_pos hpadding]
  cases core with
  | nil => rfl
  | cons c cs => exact List.dropWhile_cons_of_neg (by rw [hcore c rfl]; exact Bool.false_ne_true)

/-- Blanks around a text are no part of it. -/
theorem trim_padded {before core after : Str} (hbefore : ∀ c ∈ before, isWhitespace c = true)
    (hcore : Solid core) (hafter : ∀ c ∈ after, isWhitespace c = true) :
    trim (before ++ core ++ after) = core := by
  have hstart : trimStart (before ++ core ++ after) = core ++ after := by
    unfold trimStart
    rw [List.append_assoc]
    refine dropWhile_padded hbefore fun c hc => ?_
    rw [List.head?_append_of_ne_nil _ hcore.nonempty] at hc
    exact hcore.first c hc
  unfold trim
  rw [hstart]
  unfold trimEnd
  rw [List.reverse_append, dropWhile_padded, List.reverse_reverse]
  · exact fun c hc => hafter c (List.mem_reverse.mp hc)
  · intro c hc
    rw [List.head?_reverse] at hc
    exact hcore.last c hc

theorem Solid.trim_eq {core : Str} (hcore : Solid core) : trim core = core := by
  have hpadded := @trim_padded [] core [] (fun c hc => absurd hc List.not_mem_nil)
    hcore fun c hc => absurd hc List.not_mem_nil
  rwa [List.nil_append, List.append_nil] at hpadded

theorem isWhitespace_of_blank {c : Char} (h : c = ' ' ∨ c = '\t') : isWhitespace c = true := by
  rcases h with rfl | rfl <;> decide

/-! ### Comments -/

/-- A text with no comment in it, whatever follows. -/
def Uncommented (text : Str) : Prop :=
  ∀ rest, beforeComment false (text ++ rest) = text ++ beforeComment false rest

theorem Uncommented.append {text other : Str} (htext : Uncommented text)
    (hother : Uncommented other) : Uncommented (text ++ other) := by
  intro rest
  rw [List.append_assoc, htext, hother, List.append_assoc]

theorem uncommented_of_forall {text : Str} (htext : ∀ c ∈ text, c ≠ '"' ∧ c ≠ '#') :
    Uncommented text := by
  intro rest
  induction text with
  | nil => rfl
  | cons c cs ih =>
    obtain ⟨⟨hquote, hcomment⟩, hrest⟩ := List.forall_mem_cons.mp htext
    rw [List.cons_append, beforeComment, if_neg hquote, decide_eq_false hcomment, Bool.false_and,
      if_neg Bool.false_ne_true, ih hrest]
    rfl

/-- In quotes a comment does not begin. -/
theorem uncommented_quoted {chars : Str} (hchars : '"' ∉ chars) :
    Uncommented ('"' :: chars ++ ['"']) := by
  intro rest
  have hinside : ∀ cs : Str, '"' ∉ cs →
      beforeComment true (cs ++ '"' :: rest) = cs ++ '"' :: beforeComment false rest := by
    intro cs hcs
    induction cs with
    | nil => exact if_pos rfl
    | cons c cs ih =>
      obtain ⟨hne, hrest⟩ := not_or.mp fun h => hcs (List.mem_cons.mpr h)
      rw [List.cons_append, beforeComment, if_neg (Ne.symm hne), Bool.not_true, Bool.and_false,
        if_neg Bool.false_ne_true, ih hrest]
      rfl
  calc beforeComment false ('"' :: chars ++ ['"'] ++ rest)
      = '"' :: beforeComment true (chars ++ '"' :: rest) := by
        rw [List.cons_append, List.cons_append, beforeComment, if_pos rfl, List.append_assoc]
        rfl
    _ = '"' :: chars ++ ['"'] ++ beforeComment false rest := by
        rw [hinside chars hchars, List.cons_append, List.cons_append, List.append_assoc]
        rfl

theorem Uncommented.stripComment_eq {text : Str} (h : Uncommented text) : stripComment text = text := by
  have hend := h []
  rwa [List.append_nil, beforeComment, List.append_nil] at hend

/-! ### Quotes -/

theorem unquote_quoted (chars : Str) : unquote ('"' :: chars ++ ['"']) = chars := by
  have hsolid : Solid ('"' :: chars ++ ['"']) := by
    refine ⟨List.cons_ne_nil _ _, fun c hc => ?_, fun c hc => ?_⟩
    · cases hc
      decide
    · rw [List.getLast?_concat] at hc
      cases hc
      decide
  have hopening : ('"' :: chars ++ ['"']).dropPrefix? ['"'] = some (chars ++ ['"']) := by
    rw [List.cons_append, List.dropPrefix?, if_pos (beq_self_eq_true '"'), List.dropPrefix?]
  have hclosing : (chars ++ ['"']).dropSuffix? ['"'] = some chars :=
    List.dropSuffix?_eq_some_iff.mpr ⟨['"'], rfl, rfl⟩
  unfold unquote
  dsimp only
  rw [hsolid.trim_eq, hopening, Option.bind_some, hclosing]
  rfl

theorem unquote_plain {chars : Str} (hchars : Solid chars) (hquote : '"' ∉ chars) :
    unquote chars = chars := by
  unfold unquote
  dsimp only
  rw [hchars.trim_eq]
  cases chars with
  | nil => rfl
  | cons c cs =>
    have hc : ¬ (c == '"') = true := by
      intro h
      exact hquote (List.mem_cons.mpr (Or.inl (eq_of_beq h).symm))
    rw [List.dropPrefix?, if_neg hc]
    rfl

theorem unquote_argument (argument : Argument) : unquote argument.text = argument.chars := by
  unfold Argument.text quoteIf
  split
  · exact unquote_quoted argument.chars
  · next hquoted =>
    obtain ⟨hne, hchars, -⟩ := argument.plain (Bool.eq_false_iff.mpr hquoted)
    exact unquote_plain (solid_of_forall hne hchars) argument.inLine.1

theorem unquote_hostPattern (pattern : HostPattern) : unquote pattern.text = pattern.chars := by
  unfold HostPattern.text quoteIf
  split
  · exact unquote_quoted pattern.chars
  · exact unquote_plain (solid_of_forall pattern.nonempty fun c hc => (pattern.oneWord c hc).1)
      fun hquote => (pattern.oneWord '"' hquote).2.1 rfl

theorem solid_argument (argument : Argument) : Solid argument.text := by
  unfold Argument.text quoteIf
  split
  · refine ⟨List.cons_ne_nil _ _, fun c hc => ?_, fun c hc => ?_⟩
    · cases hc
      decide
    · rw [List.getLast?_concat] at hc
      cases hc
      decide
  · next hquoted =>
    obtain ⟨hne, hchars, -⟩ := argument.plain (Bool.eq_false_iff.mpr hquoted)
    exact solid_of_forall hne hchars

/-- A pattern is one word, with its quotes. -/
theorem oneWord_hostPattern (pattern : HostPattern) :
    pattern.text ≠ [] ∧ ∀ c ∈ pattern.text, isWhitespace c = false := by
  unfold HostPattern.text quoteIf
  split
  · refine ⟨List.cons_ne_nil _ _, fun c hc => ?_⟩
    rcases List.mem_append.mp hc with hc | hc
    · rcases List.mem_cons.mp hc with rfl | hc
      · decide
      · exact (pattern.oneWord c hc).1
    · rw [List.mem_singleton.mp hc]
      decide
  · exact ⟨pattern.nonempty, fun c hc => (pattern.oneWord c hc).1⟩

theorem solid_hostPattern (pattern : HostPattern) : Solid pattern.text :=
  solid_of_forall (oneWord_hostPattern pattern).1 (oneWord_hostPattern pattern).2

/-! ### Keywords -/

theorem isWhitespace_of_isAlpha {c : Char} (hc : c.isAlpha = true) : isWhitespace c = false := by
  have hrange : 65 ≤ c.toNat ∧ c.toNat ≤ 90 ∨ 97 ≤ c.toNat ∧ c.toNat ≤ 122 := by
    simpa [Char.isAlpha, Char.isUpper, Char.isLower, UInt32.le_iff_toNat_le] using hc
  simp only [isWhitespace, List.mem_cons, List.not_mem_nil, or_false, Bool.or_eq_false_iff,
    decide_eq_false_iff_not, Bool.and_eq_false_iff]
  omega

/-- A keyword consists of letters. -/
theorem isAlpha_of_mem_keyword {keyword : Str} (hkeyword : ∀ c ∈ keyword, c.isLower = true)
    (spelling : Spelling keyword) {c : Char} (hc : c ∈ spelling.chars) : c.isAlpha = true := by
  have hmem : c.toLower ∈ keyword := by
    rw [← spelling.spells]
    exact List.mem_map_of_mem hc
  rw [← Char.isLower_toLower_eq_isAlpha]
  exact hkeyword _ hmem

theorem isLower_host : ∀ c ∈ "host".toList, c.isLower = true := by
  have hall : "host".toList.all Char.isLower = true := by decide +kernel
  exact fun c hc => List.all_eq_true.mp hall c hc

theorem isLower_keyword (setting : Setting) : ∀ c ∈ setting.keyword, c.isLower = true := by
  have hall : setting.keyword.all Char.isLower = true := by cases setting <;> decide +kernel
  exact fun c hc => List.all_eq_true.mp hall c hc

theorem spelling_ne_nil {keyword : Str} (hkeyword : keyword ≠ []) (spelling : Spelling keyword) :
    spelling.chars ≠ [] := by
  intro h
  apply hkeyword
  rw [← spelling.spells, h]
  rfl

theorem keyword_ne_nil (setting : Setting) : setting.keyword ≠ [] := by
  cases setting <;> decide +kernel

/-! ### Directives -/

/-- A keyword, blanks and an argument are split where the blanks are. -/
theorem splitDirective_gap {key argument : Str} (hkey : key ≠ [])
    (hword : ∀ c ∈ key, isWhitespace c = false) (gap : Gap) (hargument : Solid argument) :
    splitDirective (key ++ (gap.chars ++ argument)) = some (key, argument) := by
  obtain ⟨blank, blanks, hgap⟩ := List.exists_cons_of_ne_nil gap.nonempty
  have hblanks : ∀ c ∈ gap.chars, isWhitespace c = true :=
    fun c hc => isWhitespace_of_blank (gap.blank c hc)
  have hblank : isWhitespace blank = true := hblanks blank (by rw [hgap]; exact List.mem_cons_self)
  have hkept : ∀ c ∈ key, (!isWhitespace c) = true := fun c hc => by rw [hword c hc]; rfl
  have hstop : (!isWhitespace blank) = false := by rw [hblank]; rfl
  -- the key is what stands before the first blank
  have htake : (key ++ (gap.chars ++ argument)).takeWhile (!isWhitespace ·) = key := by
    rw [List.takeWhile_append_of_pos hkept, hgap, List.cons_append,
      List.takeWhile_cons_of_neg (by rw [hstop]; exact Bool.false_ne_true), List.append_nil]
  have hdrop : (key ++ (gap.chars ++ argument)).dropWhile (!isWhitespace ·)
      = blank :: (blanks ++ argument) := by
    rw [List.dropWhile_append_of_pos hkept, hgap, List.cons_append,
      List.dropWhile_cons_of_neg (by rw [hstop]; exact Bool.false_ne_true)]
  have hany : (key ++ (gap.chars ++ argument)).any isWhitespace = true := by
    rw [List.any_append, List.any_append, hgap, List.any_cons, hblank, Bool.true_or, Bool.true_or,
      Bool.or_true]
  -- the rest of the gap is trimmed off the argument
  have hvalue : trim (blanks ++ argument) = argument := by
    have hpadded := @trim_padded blanks argument []
      (fun c hc => hblanks c (by rw [hgap]; exact List.mem_cons_of_mem _ hc)) hargument
      fun c hc => absurd hc List.not_mem_nil
    rwa [List.append_nil] at hpadded
  unfold splitDirective
  rw [if_pos hany, htake, hdrop, List.tail_cons, hvalue, (solid_of_forall hkey hword).trim_eq]
  dsimp only
  rw [List.isEmpty_eq_false_iff.mpr hkey, List.isEmpty_eq_false_iff.mpr hargument.nonempty]
  rfl

/-- The patterns of a `Host` line behind its keyword. -/
def patternsText (first : HostPattern) (others : List (Gap × HostPattern)) : Str :=
  first.text ++ others.flatMap fun other => other.1.chars ++ other.2.text

theorem solid_patternsText (first : HostPattern) (others : List (Gap × HostPattern)) :
    Solid (patternsText first others) := by
  unfold patternsText
  obtain rfl | ⟨init, last, rfl⟩ := List.eq_nil_or_concat others
  · rw [List.flatMap_nil, List.append_nil]
    exact solid_hostPattern first
  · rw [List.concat_eq_append, List.flatMap_append, List.flatMap_singleton,
      ← List.append_assoc _ _ last.2.text]
    exact (solid_hostPattern first).append _ (solid_hostPattern last.2)

theorem splitWhitespace_eq_words (text : Str) :
    splitWhitespace text = Slug.words (fun c => !isWhitespace c) text := by
  unfold splitWhitespace Slug.words
  have hnot : (fun c => !!isWhitespace c) = isWhitespace := funext fun c => Bool.not_not _
  rw [hnot]

/-- The patterns of a `Host` line are its words. -/
theorem splitWords_patternsText (first : HostPattern) (others : List (Gap × HostPattern)) :
    splitWords (patternsText first others) = first.chars :: others.map (·.2.chars) := by
  have hkept : ∀ pattern : HostPattern, ∀ c ∈ pattern.text, (!isWhitespace c) = true :=
    fun pattern c hc => by rw [(oneWord_hostPattern pattern).2 c hc]; rfl
  -- the words are cut at the gaps, and no pattern has a blank in it
  have hwords : ∀ others : List (Gap × HostPattern), ∀ first : HostPattern,
      Slug.words (fun c => !isWhitespace c) (patternsText first others)
        = first.text :: others.map (·.2.text) := by
    intro others
    induction others with
    | nil =>
      intro first
      unfold patternsText
      rw [← Slug.wordsFrom_nil_left, Slug.wordsFrom_append [] (hkept first), List.nil_append,
        List.flatMap_nil, Slug.wordsFrom_nil,
        if_neg (by rw [List.isEmpty_iff]; exact (oneWord_hostPattern first).1)]
      rfl
    | cons other others ih =>
      intro first
      have hgap : ∀ c ∈ other.1.chars, (!isWhitespace c) = false := fun c hc => by
        rw [isWhitespace_of_blank (other.1.blank c hc)]
        rfl
      unfold patternsText
      rw [← Slug.wordsFrom_nil_left, Slug.wordsFrom_append [] (hkept first), List.nil_append,
        List.flatMap_cons, List.append_assoc,
        Slug.wordsFrom_gap (oneWord_hostPattern first).1 other.1.nonempty hgap]
      exact congrArg (first.text :: ·) (ih other.2)
  unfold splitWords
  rw [splitWhitespace_eq_words, hwords, List.map_cons, List.map_map, unquote_hostPattern]
  congr 1
  exact List.map_congr_left fun other _ => unquote_hostPattern other.2

end Openssh
end Navop
