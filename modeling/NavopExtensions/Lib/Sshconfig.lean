import NavopExtensions.Lib.Text

/-!
# Configurations of ssh and what ssh reads in them

A configuration is written as `ConfigLine`s with their layout: comments, blank lines, `Host` lines, and
lines for the four options that an import needs. `textOf` is its text. The rest says what `ssh_config`
means: the options before the first `Host` line apply to every host, those of a block to the hosts that
match one of its patterns and no negated one, and the first value obtained for an option is used.
-/

namespace Sshconfig

open Text

/-! ### Syntax -/

/-- The options that are read. -/
inductive Setting
  | hostName
  | user
  | port
  | identityFile
  deriving DecidableEq

/-- The keyword of an option, in lower case. -/
def Setting.keyword : Setting → List Char
  | .hostName => "hostname".toList
  | .user => "user".toList
  | .port => "port".toList
  | .identityFile => "identityfile".toList

/-- Blanks, or nothing: what may stand around the words of a line. -/
structure Blanks where
  chars : List Char
  blank : ∀ c ∈ chars, c = ' ' ∨ c = '\t'

/-- One blank or more. -/
structure Gap extends Blanks where
  nonempty : chars ≠ []

/-- A keyword in any letter case. -/
structure Spelling (keyword : List Char) where
  chars : List Char
  spells : asciiLower chars = keyword

/-- What stands between a keyword and its argument. -/
inductive Separator
  | gap (blanks : Gap)
  | equals (before after : Blanks)

/-- What stands in a comment. -/
structure CommentText where
  chars : List Char
  inLine : '\n' ∉ chars ∧ '\r' ∉ chars

/-- An argument, with quotes or without. -/
structure Argument where
  chars : List Char
  quoted : Bool
  inLine : '"' ∉ chars ∧ '\n' ∉ chars ∧ '\r' ∉ chars
  plain : quoted = false → chars ≠ [] ∧ (∀ c ∈ chars, isWhitespace c = false) ∧
    chars.head? ≠ some '#' ∧ chars.head? ≠ some '='

/-- A pattern of a `Host` line, with quotes or without. -/
structure HostPattern where
  chars : List Char
  quoted : Bool
  nonempty : chars ≠ []
  oneWord : ∀ c ∈ chars, isWhitespace c = false ∧ c ≠ '"' ∧ c ≠ '#'
  noEquals : chars.head? ≠ some '='

/-- A line with its layout. -/
inductive ConfigLine
  | blank (indent : Blanks)
  | comment (indent : Blanks) (text : CommentText)
  | host (indent : Blanks) (keyword : Spelling "host".toList) (separator : Separator)
      (first : HostPattern) (others : List (Gap × HostPattern)) (trailing : Blanks)
  | option (indent : Blanks) (setting : Setting) (keyword : Spelling setting.keyword)
      (separator : Separator) (argument : Argument) (trailing : Blanks)

/-- A text in quotes, or as it is. -/
def quoteIf (quoted : Bool) (chars : List Char) : List Char :=
  if quoted then '"' :: chars ++ ['"'] else chars

/-- The text of a separator. -/
def Separator.text : Separator → List Char
  | .gap blanks => blanks.chars
  | .equals before after => before.chars ++ '=' :: after.chars

/-- The text of an argument. -/
def Argument.text (argument : Argument) : List Char := quoteIf argument.quoted argument.chars

/-- The text of a pattern. -/
def HostPattern.text (pattern : HostPattern) : List Char := quoteIf pattern.quoted pattern.chars

/-- The text of a line. -/
def ConfigLine.text : ConfigLine → List Char
  | .blank indent => indent.chars
  | .comment indent text => indent.chars ++ '#' :: text.chars
  | .host indent keyword separator first others trailing =>
    indent.chars ++ (keyword.chars ++ (separator.text ++ (first.text
      ++ others.flatMap (fun other => other.1.chars ++ other.2.text)))) ++ trailing.chars
  | .option indent _ keyword separator argument trailing =>
    indent.chars ++ (keyword.chars ++ (separator.text ++ argument.text)) ++ trailing.chars

/-- The text of a configuration. -/
def textOf (config : List ConfigLine) : List Char := config.flatMap fun line => line.text ++ ['\n']

/-! ### Patterns -/

/-- Whether a pattern with `*` and `?` matches a text. -/
def globMatches : List Char → List Char → Bool
  | [], text => text.isEmpty
  | '*' :: pattern, text => text.tails.any (globMatches pattern)
  | '?' :: pattern, text => !text.isEmpty && globMatches pattern text.tail
  | c :: pattern, text => text.head? = some c && globMatches pattern text.tail

/-- Whether one of the patterns matches a host. -/
def anyMatches (patterns : List (List Char)) (host : List Char) : Bool :=
  patterns.any fun pattern => pattern.head? ≠ some '!' && globMatches pattern host

/-- Whether one of the negated patterns matches a host. -/
def anyExcludes (patterns : List (List Char)) (host : List Char) : Bool :=
  patterns.any fun pattern => pattern.head? = some '!' && globMatches pattern.tail host

/-- Whether a character of a pattern stands for itself. -/
def isOrdinary (c : Char) : Bool := c ≠ '*' && c ≠ '?' && c ≠ '!'

/-- Whether a pattern is the plain name of a host. -/
def isPlainName (pattern : List Char) : Bool := !pattern.isEmpty && pattern.all isOrdinary

/-! ### Meaning -/

/-- The options of a block, or those before the first one. -/
structure Block where
  patterns : Option (List (List Char))
  settings : List (Setting × List Char)
  deriving DecidableEq

/-- The blocks of a configuration, behind a piece of the first one. -/
def blocksFrom (current : Block) : List ConfigLine → List Block
  | [] => [current]
  | .blank _ :: lines => blocksFrom current lines
  | .comment _ _ :: lines => blocksFrom current lines
  | .host _ _ _ first others _ :: lines =>
    current :: blocksFrom ⟨some (first.chars :: others.map (·.2.chars)), []⟩ lines
  | .option _ setting _ _ argument _ :: lines =>
    blocksFrom { current with settings := current.settings ++ [(setting, argument.chars)] } lines

/-- The blocks of a configuration; the first one has the options for every host. -/
def blocks (config : List ConfigLine) : List Block := blocksFrom ⟨none, []⟩ config

/-- The values that a block has for an option. -/
def Block.values (block : Block) (setting : Setting) : List (List Char) :=
  block.settings.filterMap fun entry => if entry.1 = setting then some entry.2 else none

/-- Whether a block applies to a host. -/
def Block.applies (block : Block) (host : List Char) : Bool :=
  match block.patterns with
  | none => true
  | some patterns => anyMatches patterns host && !anyExcludes patterns host

/-- The plain names on a block's `Host` line. -/
def Block.plainNames (block : Block) : List (List Char) :=
  (block.patterns.getD []).filter isPlainName

/-- All values that numbered blocks have for an option of a host, with their blocks. -/
def obtainedIn (blocks : List (Block × ℕ)) (host : List Char) (setting : Setting) :
    List (ℕ × List Char) :=
  blocks.flatMap fun (block, i) =>
    if block.applies host then (block.values setting).map fun value => (i, value) else []

/-- All values that a configuration has for an option of a host. -/
def obtained (config : List ConfigLine) (host : List Char) (setting : Setting) :
    List (ℕ × List Char) :=
  obtainedIn (blocks config).zipIdx host setting

/-- The value that ssh uses for an option of a host. -/
def used (config : List ConfigLine) (host : List Char) (setting : Setting) :
    Option (List Char) :=
  (obtained config host setting).head?.map (·.2)

/-- The plain names in a configuration, each with the number of its block. -/
def occurrences (config : List ConfigLine) : List (ℕ × List Char) :=
  (blocks config).zipIdx.flatMap fun (block, i) => block.plainNames.map fun name => (i, name)

/-! ### Values of one block -/

theorem filter_map_pair_self (i : ℕ) (values : List (List Char)) :
    (values.map fun value => (i, value)).filter (·.1 = i) = values.map fun value => (i, value) := by
  rw [List.filter_eq_self]
  intro entry hentry
  obtain ⟨value, -, rfl⟩ := List.mem_map.mp hentry
  exact decide_eq_true rfl

theorem filter_map_pair_ne {i j : ℕ} (hne : j ≠ i) (values : List (List Char)) :
    (values.map fun value => (j, value)).filter (·.1 = i) = [] := by
  rw [List.filter_eq_nil_iff]
  intro entry hentry
  obtain ⟨value, -, rfl⟩ := List.mem_map.mp hentry
  rwa [decide_eq_true_eq]

/-- What one block gives to the values of an option. -/
theorem filter_obtainedIn (bs : List Block) (n i : ℕ) (hi : n ≤ i) (host : List Char)
    (setting : Setting) :
    (obtainedIn (bs.zipIdx n) host setting).filter (·.1 = i)
      = match bs[i - n]? with
        | some block =>
          if block.applies host then (block.values setting).map fun value => (i, value) else []
        | none => [] := by
  induction bs generalizing n with
  | nil => rfl
  | cons block bs ih =>
    rw [List.zipIdx_cons]
    unfold obtainedIn at ih ⊢
    rw [List.flatMap_cons, List.filter_append]
    dsimp only
    -- the values of the block itself, and those of the later blocks, which carry higher numbers
    by_cases hsame : i = n
    · subst hsame
      rw [Nat.sub_self, List.getElem?_cons_zero]
      have hrest : ((bs.zipIdx (i + 1)).flatMap fun entry =>
          if entry.1.applies host then (entry.1.values setting).map fun value => (entry.2, value)
          else []).filter (·.1 = i) = [] := by
        rw [List.filter_eq_nil_iff]
        intro entry hentry
        obtain ⟨⟨other, j⟩, hother, hentry⟩ := List.mem_flatMap.mp hentry
        have hj := List.le_snd_of_mem_zipIdx hother
        dsimp only at hentry hj
        split at hentry
        · obtain ⟨value, -, rfl⟩ := List.mem_map.mp hentry
          rw [decide_eq_true_eq]
          omega
        · exact absurd hentry List.not_mem_nil
      refine (congrArg (_ ++ ·) hrest).trans ?_
      rw [List.append_nil]
      dsimp only
      split
      · exact filter_map_pair_self i _
      · rfl
    · have hlt : n + 1 ≤ i := by omega
      have hindex : i - n = i - (n + 1) + 1 := by omega
      rw [hindex, List.getElem?_cons_succ, ← ih (n + 1) hlt]
      have hfirst : (if block.applies host then (block.values setting).map fun value => (n, value)
          else []).filter (·.1 = i) = [] := by
        split
        · exact filter_map_pair_ne (fun h => hsame h.symm) _
        · rfl
      rw [hfirst]
      rfl

/-- The value that ssh uses is the first one of a block that applies, if no other block obtains an
earlier one. -/
theorem used_eq_head? {config : List ConfigLine} {i : ℕ} {block : Block} {host : List Char}
    {setting : Setting} (hblock : (blocks config)[i]? = some block)
    (happlies : block.applies host = true)
    (hfirst : ∀ entry, (obtained config host setting).head? = some entry → entry.1 = i) :
    used config host setting = (block.values setting).head? := by
  have hfilter := filter_obtainedIn (blocks config) 0 i (Nat.zero_le i) host setting
  rw [Nat.sub_zero, hblock] at hfilter
  dsimp only at hfilter
  rw [if_pos happlies] at hfilter
  change (obtained config host setting).filter _ = _ at hfilter
  unfold used
  -- the first value of all is of this block, so that it is the first of the block's own
  cases hobtained : obtained config host setting with
  | nil =>
    rw [hobtained] at hfilter
    have hvalues : block.values setting = [] := List.map_eq_nil_iff.mp hfilter.symm
    rw [hvalues]
    rfl
  | cons entry rest =>
    have hentry : entry.1 = i := hfirst entry (by rw [hobtained]; rfl)
    have hpos : ∀ p : ℕ × List Char → Bool, p entry = true →
        (entry :: rest).filter p = entry :: rest.filter p := fun p hp => List.filter_cons_of_pos hp
    rw [hobtained, hpos _ (decide_eq_true hentry)] at hfilter
    cases hvalues : block.values setting with
    | nil =>
      rw [hvalues] at hfilter
      cases hfilter
    | cons value values =>
      rw [hvalues, List.map_cons] at hfilter
      rw [(List.cons.inj hfilter).1]
      rfl

end Sshconfig
