import NavopExtensions.Importers.Lines

/-!
# The OpenSSH importer and ssh

The importer reads every `Host` block on its own: options of other blocks, and those before the first
one, are not in a block's records, whether they apply to the host or not. In its own block it takes the
first `IdentityFile`, but the last `HostName`, `User` and `Port`. So a record has what ssh uses for an
option wherever the first line that ssh obtains a value from stands in the record's own block, which has
the option once (`openssh_agrees`).
-/

namespace Navop
namespace Openssh

open Text Importers Sshconfig

/-- A line that the importer reads as it is meant: no `=` behind the keyword, and no `#` in an argument
without quotes. -/
def Readable : ConfigLine → Prop
  | .blank _ => True
  | .comment _ _ => True
  | .host _ _ (.gap _) _ _ _ => True
  | .host _ _ (.equals _ _) _ _ _ => False
  | .option _ _ _ (.gap _) argument _ => argument.quoted = false → '#' ∉ argument.chars
  | .option _ _ _ (.equals _ _) _ _ => False

/-- An option is set in a block. -/
def HostBlock.assign (block : HostBlock) (entry : Setting × Str) : HostBlock :=
  match entry.1 with
  | .hostName => { block with hostName := some entry.2 }
  | .user => { block with user := some entry.2 }
  | .port => { block with port := parseU16 entry.2 }
  | .identityFile =>
    if block.identityFile.isNone then { block with identityFile := some entry.2 } else block

/-- The importer's block, unless it has no `Host` line. -/
def hostBlockOf (block : Block) : Option HostBlock :=
  block.patterns.map fun patterns =>
    block.settings.foldl HostBlock.assign { aliases := patterns }

/-! ### Lines -/

theorem set_spelling (block : HostBlock) (setting : Setting) (spelling : Spelling setting.keyword)
    (argument : Argument) :
    block.set spelling.chars argument.text = block.assign (setting, argument.chars) := by
  -- the four keywords differ, so that the tests before the matching one all fail
  have hother : ∀ other : Setting, setting ≠ other → setting.keyword ≠ other.keyword := by
    intro other hne h
    apply hne
    revert h
    cases setting <;> cases other <;> decide
  unfold HostBlock.set
  rw [spelling.spells, unquote_argument]
  by_cases hhostName : setting = .hostName
  · subst hhostName
    exact if_pos rfl
  rw [show "hostname".toList = Setting.hostName.keyword from rfl, if_neg (hother _ hhostName)]
  by_cases huser : setting = .user
  · subst huser
    exact if_pos rfl
  rw [show "user".toList = Setting.user.keyword from rfl, if_neg (hother _ huser)]
  by_cases hport : setting = .port
  · subst hport
    exact if_pos rfl
  rw [show "port".toList = Setting.port.keyword from rfl, if_neg (hother _ hport)]
  cases setting with
  | hostName => exact absurd rfl hhostName
  | user => exact absurd rfl huser
  | port => exact absurd rfl hport
  | identityFile => exact if_pos rfl

/-- A line is read behind its indentation and up to its trailing blanks. -/
theorem parseLine_directive (state : List HostBlock × Option HostBlock) (indent trailing : Blanks)
    {key argument : Str} (hkey : key ≠ []) (halpha : ∀ c ∈ key, c.isAlpha = true) (gap : Gap)
    (hargument : Solid argument) (huncommented : Uncommented argument) :
    parseLine state (indent.chars ++ (key ++ (gap.chars ++ argument)) ++ trailing.chars)
      = if eqIgnoreAsciiCase key "host".toList then
          (state.1 ++ state.2.toList, some { aliases := splitWords argument })
        else (state.1, state.2.map fun block => block.set key argument) := by
  have hblank : ∀ blanks : Blanks, ∀ c ∈ blanks.chars, c ≠ '"' ∧ c ≠ '#' := by
    intro blanks c hc
    rcases blanks.blank c hc with rfl | rfl <;> decide
  have hletters : ∀ c ∈ key, c ≠ '"' ∧ c ≠ '#' := by
    intro c hc
    constructor <;>
    · rintro rfl
      exact absurd (halpha _ hc) (by decide)
  -- no `#` outside quotes, so that the line has no comment to lose
  have hstrip : stripComment (indent.chars ++ (key ++ (gap.chars ++ argument)) ++ trailing.chars)
      = indent.chars ++ (key ++ (gap.chars ++ argument)) ++ trailing.chars :=
    (((uncommented_of_forall (hblank indent)).append ((uncommented_of_forall hletters).append
      ((uncommented_of_forall (hblank gap.toBlanks)).append huncommented))).append
        (uncommented_of_forall (hblank trailing))).stripComment_eq
  have hword : ∀ c ∈ key, isWhitespace c = false := fun c hc => isWhitespace_of_isAlpha (halpha c hc)
  have hsolid : Solid (key ++ (gap.chars ++ argument)) :=
    (solid_of_forall hkey hword).append gap.chars hargument
  -- the indentation and the blanks at the end go, and what is between begins and ends with no blank
  have htrim : trim (indent.chars ++ (key ++ (gap.chars ++ argument)) ++ trailing.chars)
      = key ++ (gap.chars ++ argument) :=
    trim_padded (fun c hc => isWhitespace_of_blank (indent.blank c hc)) hsolid
      fun c hc => isWhitespace_of_blank (trailing.blank c hc)
  unfold parseLine
  dsimp only
  rw [hstrip, htrim, List.isEmpty_eq_false_iff.mpr hsolid.nonempty, if_neg Bool.false_ne_true,
    splitDirective_gap hkey hword gap hargument]

theorem parseLine_blank (state : List HostBlock × Option HostBlock) {line : Str}
    (hline : trim (stripComment line) = []) : parseLine state line = state := by
  unfold parseLine
  dsimp only
  rw [hline]
  rfl

theorem trim_blanks {blanks : Str} (hblanks : ∀ c ∈ blanks, isWhitespace c = true) :
    trim blanks = [] := by
  have hstart : trimStart blanks = [] := List.dropWhile_eq_nil_iff.mpr hblanks
  unfold trim
  rw [hstart]
  rfl

theorem uncommented_blanks (blanks : Blanks) : Uncommented blanks.chars :=
  uncommented_of_forall fun c hc => by rcases blanks.blank c hc with rfl | rfl <;> decide

theorem uncommented_hostPattern (pattern : HostPattern) : Uncommented pattern.text := by
  unfold HostPattern.text quoteIf
  split
  · exact uncommented_quoted fun hquote => (pattern.oneWord '"' hquote).2.1 rfl
  · exact uncommented_of_forall fun c hc => (pattern.oneWord c hc).2

theorem uncommented_patternsText (first : HostPattern) (others : List (Gap × HostPattern)) :
    Uncommented (patternsText first others) := by
  refine (uncommented_hostPattern first).append ?_
  induction others with
  | nil => exact fun rest => rfl
  | cons other others ih =>
    rw [List.flatMap_cons]
    exact ((uncommented_blanks other.1.toBlanks).append (uncommented_hostPattern other.2)).append ih

theorem uncommented_argument {argument : Argument}
    (hplain : argument.quoted = false → '#' ∉ argument.chars) : Uncommented argument.text := by
  unfold Argument.text quoteIf
  split
  · exact uncommented_quoted argument.inLine.1
  · next hquoted =>
    refine uncommented_of_forall fun c hc => ⟨?_, ?_⟩
    · rintro rfl
      exact argument.inLine.1 hc
    · rintro rfl
      exact hplain (Bool.eq_false_iff.mpr hquoted) hc

theorem eqIgnoreAsciiCase_host (spelling : Spelling "host".toList) :
    eqIgnoreAsciiCase spelling.chars "host".toList = true := by
  have hlower : asciiLower "host".toList = "host".toList := by decide
  unfold eqIgnoreAsciiCase
  rw [spelling.spells, hlower]
  exact decide_eq_true rfl

theorem eqIgnoreAsciiCase_keyword (setting : Setting) (spelling : Spelling setting.keyword) :
    eqIgnoreAsciiCase spelling.chars "host".toList = false := by
  have hne : decide (setting.keyword = asciiLower "host".toList) = false := by
    cases setting <;> decide
  unfold eqIgnoreAsciiCase
  rw [spelling.spells]
  exact hne

theorem hostBlockOf_append (current : Block) (entry : Setting × Str) :
    hostBlockOf { current with settings := current.settings ++ [entry] }
      = (hostBlockOf current).map fun block => block.assign entry := by
  unfold hostBlockOf
  dsimp only
  rw [Option.map_map]
  congr 1
  funext patterns
  exact List.foldl_concat ..

theorem filterMap_cons_toList {α β : Type*} (f : α → Option β) (a : α) (l : List α) :
    (a :: l).filterMap f = (f a).toList ++ l.filterMap f := by
  rw [List.filterMap_cons]
  cases f a <;> rfl

/-- The importer reads the blocks as they are written. -/
theorem foldl_parseLine {config : List ConfigLine} (hreadable : ∀ line ∈ config, Readable line)
    (out : List HostBlock) (current : Block) :
    ((config.map ConfigLine.text).foldl parseLine (out, hostBlockOf current)).1
        ++ ((config.map ConfigLine.text).foldl parseLine (out, hostBlockOf current)).2.toList
      = out ++ (blocksFrom current config).filterMap hostBlockOf := by
  induction config generalizing out current with
  | nil =>
    unfold blocksFrom
    rw [filterMap_cons_toList]
    exact congrArg (out ++ ·) (List.append_nil _).symm
  | cons line config ih =>
    obtain ⟨hline, hrest⟩ := List.forall_mem_cons.mp hreadable
    rw [List.map_cons, List.foldl_cons]
    cases line with
    | blank indent =>
      -- neither a blank line nor a comment changes what has been read
      have hblank : trim (stripComment indent.chars) = [] := by
        rw [(uncommented_blanks indent).stripComment_eq]
        exact trim_blanks fun c hc => isWhitespace_of_blank (indent.blank c hc)
      rw [show (ConfigLine.blank indent).text = indent.chars from rfl, parseLine_blank _ hblank]
      exact ih hrest out current
    | comment indent text =>
      have hcomment : trim (stripComment (indent.chars ++ '#' :: text.chars)) = [] := by
        have hstrip : stripComment (indent.chars ++ '#' :: text.chars) = indent.chars :=
          (uncommented_blanks indent _).trans (List.append_nil _)
        rw [hstrip]
        exact trim_blanks fun c hc => isWhitespace_of_blank (indent.blank c hc)
      rw [show (ConfigLine.comment indent text).text = indent.chars ++ '#' :: text.chars from rfl,
        parseLine_blank _ hcomment]
      exact ih hrest out current
    | host indent keyword separator first others trailing =>
      cases separator with
      | equals before after => exact absurd hline id
      | gap blanks =>
        -- a host line closes the block before it and opens its own
        have hparse : parseLine (out, hostBlockOf current)
            (ConfigLine.host indent keyword (.gap blanks) first others trailing).text
            = (out ++ (hostBlockOf current).toList,
              hostBlockOf ⟨some (first.chars :: others.map (·.2.chars)), []⟩) := by
          refine (parseLine_directive _ indent trailing (spelling_ne_nil (by decide) keyword)
            (fun c hc => isAlpha_of_mem_keyword isLower_host keyword hc) blanks
            (solid_patternsText first others) (uncommented_patternsText first others)).trans ?_
          rw [eqIgnoreAsciiCase_host, if_pos rfl, splitWords_patternsText]
          rfl
        rw [hparse, ih hrest]
        change _ = out ++ (current :: blocksFrom _ config).filterMap hostBlockOf
        rw [filterMap_cons_toList, List.append_assoc]
    | option indent setting keyword separator argument trailing =>
      cases separator with
      | equals before after => exact absurd hline id
      | gap blanks =>
        -- an option is set in the block that is open, or nowhere
        have hparse : parseLine (out, hostBlockOf current)
            (ConfigLine.option indent setting keyword (.gap blanks) argument trailing).text
            = (out, hostBlockOf
              { current with settings := current.settings ++ [(setting, argument.chars)] }) := by
          refine (parseLine_directive _ indent trailing
            (spelling_ne_nil (keyword_ne_nil setting) keyword)
            (fun c hc => isAlpha_of_mem_keyword (isLower_keyword setting) keyword hc) blanks
            (solid_argument argument) (uncommented_argument hline)).trans ?_
          rw [eqIgnoreAsciiCase_keyword, if_neg Bool.false_ne_true, hostBlockOf_append]
          refine congrArg (Prod.mk out) (congrArg (Option.map · _) ?_)
          funext block
          exact set_spelling block setting keyword argument
        rw [hparse, ih hrest]
        rfl

/-! ### Texts -/

theorem linesAfter_append (line : Str) {text : Str} (htext : '\n' ∉ text ∧ '\r' ∉ text)
    (hline : '\r' ∉ line) (rest : Str) :
    linesAfter line (text ++ '\n' :: rest) = (line ++ text) :: linesAfter [] rest := by
  obtain ⟨hnewline, hreturn⟩ := htext
  induction text generalizing line with
  | nil =>
    have hlast : line.getLast? ≠ some '\r' := fun h => hline (List.mem_of_mem_getLast? h)
    rw [List.nil_append, linesAfter, if_pos rfl, if_neg hlast, List.append_nil]
  | cons c cs ih =>
    obtain ⟨hc, hcs⟩ := not_or.mp fun h => hnewline (List.mem_cons.mpr h)
    obtain ⟨hc', hcs'⟩ := not_or.mp fun h => hreturn (List.mem_cons.mpr h)
    have hline' : '\r' ∉ line ++ [c] := by
      rw [List.mem_append, List.mem_singleton]
      exact not_or.mpr ⟨hline, hc'⟩
    rw [List.cons_append, linesAfter, if_neg (Ne.symm hc), ih (line ++ [c]) hline' hcs hcs',
      List.append_assoc]
    rfl

/-- A text within one line. -/
def InLine (text : Str) : Prop := ∀ c ∈ text, c ≠ '\n' ∧ c ≠ '\r'

theorem InLine.append {text other : Str} (htext : InLine text) (hother : InLine other) :
    InLine (text ++ other) := by
  intro c hc
  rcases List.mem_append.mp hc with hc | hc
  · exact htext c hc
  · exact hother c hc

theorem inLine_of_not_isWhitespace {text : Str} (htext : ∀ c ∈ text, isWhitespace c = false) :
    InLine text := by
  intro c hc
  constructor <;>
  · rintro rfl
    exact absurd (htext _ hc) (by decide)

theorem inLine_blanks (blanks : Blanks) : InLine blanks.chars := by
  intro c hc
  rcases blanks.blank c hc with rfl | rfl <;> decide

theorem inLine_keyword {keyword : Str} (hkeyword : ∀ c ∈ keyword, c.isLower = true)
    (spelling : Spelling keyword) : InLine spelling.chars :=
  inLine_of_not_isWhitespace fun _ hc =>
    isWhitespace_of_isAlpha (isAlpha_of_mem_keyword hkeyword spelling hc)

theorem inLine_separator (separator : Separator) : InLine separator.text := by
  cases separator with
  | gap blanks => exact inLine_blanks blanks.toBlanks
  | equals before after =>
    refine (inLine_blanks before).append fun c hc => ?_
    rcases List.mem_cons.mp hc with rfl | hc
    · decide
    · exact inLine_blanks after c hc

theorem inLine_argument (argument : Argument) : InLine argument.text := by
  have hchars : InLine argument.chars := by
    intro c hc
    constructor <;> rintro rfl
    · exact argument.inLine.2.1 hc
    · exact argument.inLine.2.2 hc
  have hquote : InLine ['"'] := by
    intro c hc
    rw [List.mem_singleton.mp hc]
    decide
  unfold Argument.text quoteIf
  split
  · exact (hquote.append hchars).append hquote
  · exact hchars

theorem inLine_text (line : ConfigLine) : InLine line.text := by
  cases line with
  | blank indent => exact inLine_blanks indent
  | comment indent text =>
    refine (inLine_blanks indent).append fun c hc => ?_
    rcases List.mem_cons.mp hc with rfl | hc
    · decide
    · constructor <;> rintro rfl
      · exact text.inLine.1 hc
      · exact text.inLine.2 hc
  | host indent keyword separator first others trailing =>
    -- a pattern has no blank, and a line break is one
    have hpattern : ∀ pattern : HostPattern, InLine pattern.text := fun pattern =>
      inLine_of_not_isWhitespace (oneWord_hostPattern pattern).2
    refine ((inLine_blanks indent).append ((inLine_keyword isLower_host keyword).append
      ((inLine_separator separator).append ((hpattern first).append ?_)))).append
        (inLine_blanks trailing)
    intro c hc
    obtain ⟨other, -, hc⟩ := List.mem_flatMap.mp hc
    exact ((inLine_blanks other.1.toBlanks).append (hpattern other.2)) c hc
  | option indent setting keyword separator argument trailing =>
    exact ((inLine_blanks indent).append ((inLine_keyword (isLower_keyword setting) keyword).append
      ((inLine_separator separator).append (inLine_argument argument)))).append
        (inLine_blanks trailing)

/-- The lines of a configuration's text are its lines. -/
theorem lines_textOf (config : List ConfigLine) :
    lines (textOf config) = config.map ConfigLine.text := by
  unfold lines textOf
  induction config with
  | nil => rfl
  | cons line config ih =>
    have hline : '\n' ∉ line.text ∧ '\r' ∉ line.text :=
      ⟨fun h => (inLine_text line _ h).1 rfl, fun h => (inLine_text line _ h).2 rfl⟩
    rw [List.flatMap_cons, List.append_assoc, List.singleton_append,
      linesAfter_append [] hline List.not_mem_nil, ih]
    rfl

theorem parseBlocks_textOf {config : List ConfigLine} (hreadable : ∀ line ∈ config, Readable line) :
    parseBlocks (textOf config) = (blocks config).filterMap hostBlockOf := by
  unfold parseBlocks
  rw [lines_textOf]
  exact (foldl_parseLine hreadable [] ⟨none, []⟩).trans (List.nil_append _)

/-! ### The values of a block -/

/-- What the importer takes from a block. -/
structure TakenFrom (block : Block) (patterns : List Str) (hostBlock : HostBlock) : Prop where
  aliases : hostBlock.aliases = patterns
  hostName : hostBlock.hostName = (block.values .hostName).getLast?
  user : hostBlock.user = (block.values .user).getLast?
  port : hostBlock.port = (block.values .port).getLast?.bind parseU16
  identityFile : hostBlock.identityFile = (block.values .identityFile).head?

theorem values_append_same (patterns : Option (List Str)) (settings : List (Setting × Str))
    (setting : Setting) (value : Str) :
    Block.values ⟨patterns, settings ++ [(setting, value)]⟩ setting
      = Block.values ⟨patterns, settings⟩ setting ++ [value] := by
  unfold Block.values
  rw [List.filterMap_append]
  congr 1
  exact List.filterMap_cons_some (if_pos rfl)

theorem values_append_other (patterns : Option (List Str)) (settings : List (Setting × Str))
    {setting other : Setting} (hne : other ≠ setting) (value : Str) :
    Block.values ⟨patterns, settings ++ [(other, value)]⟩ setting
      = Block.values ⟨patterns, settings⟩ setting := by
  unfold Block.values
  rw [List.filterMap_append]
  have hnone : [(other, value)].filterMap
      (fun entry : Setting × Str => if entry.1 = setting then some entry.2 else none) = [] :=
    List.filterMap_cons_none (if_neg hne)
  rw [hnone, List.append_nil]

theorem takenFrom_foldl (patterns : List Str) (settings : List (Setting × Str)) :
    TakenFrom ⟨some patterns, settings⟩ patterns
      (settings.foldl HostBlock.assign { aliases := patterns }) := by
  induction settings using List.reverseRecOn with
  | nil => exact ⟨rfl, rfl, rfl, rfl, rfl⟩
  | append_singleton settings entry ih =>
    obtain ⟨setting, value⟩ := entry
    obtain ⟨haliases, hhostName, huser, hport, hidentityFile⟩ := ih
    rw [List.foldl_concat]
    -- the last value of three of the settings wins; only the first identity file is kept
    have hsame := values_append_same (some patterns) settings setting value
    have hother := fun other (hne : setting ≠ other) =>
      values_append_other (some patterns) settings hne value
    cases setting with
    | hostName =>
      refine ⟨haliases, ?_, ?_, ?_, ?_⟩
      · rw [hsame, List.getLast?_concat]
        rfl
      · rw [hother .user (by decide)]
        exact huser
      · rw [hother .port (by decide)]
        exact hport
      · rw [hother .identityFile (by decide)]
        exact hidentityFile
    | user =>
      refine ⟨haliases, ?_, ?_, ?_, ?_⟩
      · rw [hother .hostName (by decide)]
        exact hhostName
      · rw [hsame, List.getLast?_concat]
        rfl
      · rw [hother .port (by decide)]
        exact hport
      · rw [hother .identityFile (by decide)]
        exact hidentityFile
    | port =>
      refine ⟨haliases, ?_, ?_, ?_, ?_⟩
      · rw [hother .hostName (by decide)]
        exact hhostName
      · rw [hother .user (by decide)]
        exact huser
      · rw [hsame, List.getLast?_concat]
        rfl
      · rw [hother .identityFile (by decide)]
        exact hidentityFile
    | identityFile =>
      generalize settings.foldl HostBlock.assign { aliases := patterns } = hostBlock at *
      have hassign : hostBlock.assign (.identityFile, value)
          = { hostBlock with identityFile := hostBlock.identityFile.or (some value) } := by
        cases hostBlock with
        | mk aliases hostName user port identityFile => cases identityFile <;> rfl
      rw [hassign]
      refine ⟨haliases, ?_, ?_, ?_, ?_⟩
      · rw [hother .hostName (by decide)]
        exact hhostName
      · rw [hother .user (by decide)]
        exact huser
      · rw [hother .port (by decide)]
        exact hport
      · rw [hsame, List.head?_append]
        exact congrArg (Option.or · _) hidentityFile

/-! ### Records -/

/-- A record is that of a plain name in a block. -/
structure RecordOf (library : Library) (path : Str) (bs : List (Block × ℕ)) (occurrence : ℕ × Str)
    (record : ImportRecord) : Prop where
  exists_block : ∃ block patterns hostBlock, (block, occurrence.1) ∈ bs ∧
    block.patterns = some patterns ∧ occurrence.2 ∈ block.plainNames ∧
    TakenFrom block patterns hostBlock ∧
    record = recordFromBlock library path hostBlock occurrence.2

theorem isImportable_eq (name : Str) : isImportable name = isPlainName name := by
  have hordinary : ∀ c : Char, (!(c = '*' || c = '?' || c = '!')) = isOrdinary c := by
    intro c
    unfold isOrdinary
    rw [Bool.not_or, Bool.not_or, decide_not, decide_not, decide_not]
  unfold isImportable isPlainName
  rw [Bool.and_comm, List.not_any_eq_all_not]
  congr 2
  exact funext hordinary

theorem RecordOf.mono {library : Library} {path : Str} {bs bs' : List (Block × ℕ)}
    (hsubset : bs ⊆ bs') {occurrence : ℕ × Str} {record : ImportRecord}
    (h : RecordOf library path bs occurrence record) :
    RecordOf library path bs' occurrence record := by
  obtain ⟨block, patterns, hostBlock, hmem, h⟩ := h.exists_block
  exact ⟨block, patterns, hostBlock, hsubset hmem, h⟩

/-- The records are those of the plain names, one by one. -/
theorem forall₂_recordOf (library : Library) (path : Str) (bs : List Block) (n : ℕ) :
    List.Forall₂ (RecordOf library path (bs.zipIdx n))
      ((bs.zipIdx n).flatMap fun (block, i) => block.plainNames.map fun name => (i, name))
      ((bs.filterMap hostBlockOf).flatMap fun hostBlock =>
        (importableAliases hostBlock.aliases).map (recordFromBlock library path hostBlock)) := by
  induction bs generalizing n with
  | nil => exact .nil
  | cons block bs ih =>
    rw [List.zipIdx_cons, List.flatMap_cons, filterMap_cons_toList, List.flatMap_append]
    have hrest := (ih (n + 1)).imp fun occurrence record h =>
      h.mono (List.subset_cons_self (block, n) (bs.zipIdx (n + 1)))
    refine List.rel_append ?_ hrest
    cases hpatterns : block.patterns with
    | none =>
      have hnames : block.plainNames = [] := by
        unfold Block.plainNames
        rw [hpatterns]
        rfl
      -- the lines in front of the first host line belong to no block
      have hnone : hostBlockOf block = none := by
        unfold hostBlockOf
        rw [hpatterns]
        rfl
      rw [hnone]
      dsimp only
      rw [hnames]
      exact .nil
    | some patterns =>
      -- one record a plain name, with the settings of the block
      have htaken : TakenFrom block patterns
          (block.settings.foldl HostBlock.assign { aliases := patterns }) := by
        have hblock : block = ⟨some patterns, block.settings⟩ := by
          rw [← hpatterns]
        rw [hblock]
        exact takenFrom_foldl patterns block.settings
      have hsome : hostBlockOf block
          = some (block.settings.foldl HostBlock.assign { aliases := patterns }) := by
        unfold hostBlockOf
        rw [hpatterns]
        rfl
      have hnames : block.plainNames = importableAliases patterns := by
        unfold Block.plainNames importableAliases
        rw [hpatterns]
        exact List.filter_congr fun name _ => (isImportable_eq name).symm
      rw [hsome]
      generalize block.settings.foldl HostBlock.assign { aliases := patterns } = hostBlock at htaken
      have hall : ∀ names : List Str, (∀ name ∈ names, name ∈ block.plainNames) →
          List.Forall₂ (RecordOf library path ((block, n) :: bs.zipIdx (n + 1)))
            (names.map fun name => (n, name)) (names.map (recordFromBlock library path hostBlock)) := by
        intro names hmem
        induction names with
        | nil => exact .nil
        | cons name names ih =>
          obtain ⟨hname, hrest⟩ := List.forall_mem_cons.mp hmem
          exact .cons ⟨block, patterns, hostBlock, List.mem_cons_self, hpatterns, hname, htaken, rfl⟩
            (ih hrest)
      rw [Option.toList_some, List.flatMap_singleton, htaken.aliases, ← hnames]
      exact hall block.plainNames fun _ h => h

/-! ### Agreement -/

/-- How a host with an identity file is logged in to. -/
def authMethodOf : Option Str → SshImportAuthMethod
  | some keyPath => .privateKey keyPath none
  | none => .autoPublicKey

/-- A record has the host, the port, the user and the identity file that ssh uses for a name. -/
structure Agrees (config : List ConfigLine) (name : Str) (record : ImportRecord) : Prop where
  host : record.host = (used config name .hostName).getD name
  port : record.port = some (((used config name .port).bind parseU16).getD 22)
  username : record.username = (used config name .user).getD []
  authMethod : record.authMethod = authMethodOf (used config name .identityFile)

/-- Every record of a configuration agrees with ssh. -/
def ImportsAsSsh (library : Library) (path : Str) (config : List ConfigLine) : Prop :=
  List.Forall₂ (fun occurrence record =>
      record.name = occurrence.2 ∧ Agrees config occurrence.2 record)
    (occurrences config)
    (previewRecordsFromConfigs library [(path, (String.ofList (textOf config)).toUTF8.data.toList)])

/-- The first value that ssh obtains for an option, if there is one, stands in a block. -/
def ObtainsFrom (config : List ConfigLine) (name : Str) (i : ℕ) (setting : Setting) : Prop :=
  ∀ entry, (obtained config name setting).head? = some entry → entry.1 = i

/-- A record agrees with ssh about the options that ssh obtains from the record's own block. -/
structure AgreesWithin (config : List ConfigLine) (name : Str) (i : ℕ) (block : Block)
    (record : ImportRecord) : Prop where
  host : ObtainsFrom config name i .hostName → (block.values .hostName).length ≤ 1 →
    record.host = (used config name .hostName).getD name
  port : ObtainsFrom config name i .port → (block.values .port).length ≤ 1 →
    record.port = some (((used config name .port).bind parseU16).getD 22)
  username : ObtainsFrom config name i .user → (block.values .user).length ≤ 1 →
    record.username = (used config name .user).getD []
  authMethod : ObtainsFrom config name i .identityFile →
    record.authMethod = authMethodOf (used config name .identityFile)

/-- The record of a plain name agrees with ssh as far as the name's own block goes. -/
structure ReadsOwnBlock (config : List ConfigLine) (occurrence : ℕ × Str) (record : ImportRecord) :
    Prop where
  name : record.name = occurrence.2
  agrees : ∀ block, (blocks config)[occurrence.1]? = some block →
    block.applies occurrence.2 = true →
    AgreesWithin config occurrence.2 occurrence.1 block record

theorem getLast?_eq_head? {α : Type*} {l : List α} (h : l.length ≤ 1) : l.getLast? = l.head? := by
  match l, h with
  | [], _ => rfl
  | [_], _ => rfl

theorem RecordOf.readsOwnBlock {library : Library} {path : Str} {config : List ConfigLine}
    {occurrence : ℕ × Str} {record : ImportRecord}
    (h : RecordOf library path (blocks config).zipIdx occurrence record) :
    ReadsOwnBlock config occurrence record := by
  obtain ⟨block, patterns, hostBlock, hmem, -, -, htaken, rfl⟩ := h.exists_block
  have hblock := List.mk_mem_zipIdx_iff_getElem?.mp hmem
  refine ⟨rfl, fun other hother happlies => ?_⟩
  obtain rfl : block = other := Option.some.inj (hblock.symm.trans hother)
  -- no earlier block gives the setting, so that ssh takes the first value of this one
  have hused : ∀ setting, ObtainsFrom config occurrence.2 occurrence.1 setting →
      used config occurrence.2 setting = (block.values setting).head? :=
    fun setting hfirst => used_eq_head? hblock happlies hfirst
  -- where the importer keeps the last value, the first is the same only if there is no other
  constructor
  · intro hfirst honce
    rw [hused _ hfirst, ← getLast?_eq_head? honce, ← htaken.hostName]
    rfl
  · intro hfirst honce
    rw [hused _ hfirst, ← getLast?_eq_head? honce, ← htaken.port]
    rfl
  · intro hfirst honce
    rw [hused _ hfirst, ← getLast?_eq_head? honce, ← htaken.user]
    rfl
  · intro hfirst
    rw [hused _ hfirst, ← htaken.identityFile]
    change (match hostBlock.identityFile with
      | some keyPath => SshImportAuthMethod.privateKey keyPath none
      | none => .autoPublicKey) = _
    cases hostBlock.identityFile <;> rfl

theorem fromUtf8_ofList (text : Str) : fromUtf8 (String.ofList text).toUTF8.data.toList = some text := by
  have hbytes : (⟨(String.ofList text).toUTF8.data.toList.toArray⟩ : ByteArray)
      = (String.ofList text).toByteArray := rfl
  unfold fromUtf8 String.fromUTF8?
  rw [hbytes, dif_pos (String.ofList text).isValidUTF8]
  exact congrArg some String.toList_ofList

/-- **The records of a configuration** are those of its plain names, and they have what ssh uses for
every option of which the first value that ssh obtains stands in the name's own block, once. -/
theorem openssh_agrees (library : Library) (path : Str) (hpath : isKnownHostsPath path = false)
    (config : List ConfigLine) (hreadable : ∀ line ∈ config, Readable line) :
    List.Forall₂ (ReadsOwnBlock config) (occurrences config)
      (previewRecordsFromConfigs library
        [(path, (String.ofList (textOf config)).toUTF8.data.toList)]) := by
  have hrecords : previewRecordsFromConfigs library
      [(path, (String.ofList (textOf config)).toUTF8.data.toList)]
      = recordsFromConfig library path (textOf config) := by
    unfold previewRecordsFromConfigs
    rw [previewFiles_configs (by
      intro file hfile
      rw [List.mem_singleton.mp hfile]
      exact hpath)]
    unfold hostRecords
    rw [List.flatMap_singleton, fromUtf8_ofList]
    rfl
  rw [hrecords]
  unfold recordsFromConfig
  rw [parseBlocks_textOf hreadable]
  exact (forall₂_recordOf library path (blocks config) 0).imp fun _ _ h => h.readsOwnBlock

/-! ### Two configurations -/

/-- No blanks. -/
def noBlanks : Blanks := ⟨[], fun _ hc => absurd hc List.not_mem_nil⟩

/-- A space. -/
def space : Gap where
  chars := [' ']
  blank := fun _ hc => .inl (List.mem_singleton.mp hc)
  nonempty := List.cons_ne_nil _ _

theorem singleton_ne_nil (c : Char) : [c] ≠ [] := List.cons_ne_nil c []

/-- A pattern of one letter or wildcard, without quotes. -/
def patternOf (c : Char) (hc : isWhitespace c = false ∧ c ≠ '"' ∧ c ≠ '#') (heq : c ≠ '=') :
    HostPattern where
  chars := [c]
  quoted := false
  nonempty := singleton_ne_nil c
  oneWord := List.forall_mem_singleton.mpr hc
  noEquals := fun h => heq (Option.some.inj h)

/-- A `Host` line with one pattern. -/
def hostLine (pattern : HostPattern) : ConfigLine :=
  .host noBlanks ⟨"Host".toList, by decide⟩ (.gap space) pattern [] noBlanks

/-- The line `User "bob"`. -/
def userBob : ConfigLine :=
  .option space.toBlanks .user ⟨"User".toList, by decide⟩ (.gap space)
    ⟨"bob".toList, true, by decide, fun h => absurd h (by decide)⟩ noBlanks

/-- The line `Host a`. -/
def hostA : ConfigLine := hostLine (patternOf 'a' (by decide) (by decide))

/-- The line `Host *`. -/
def allHosts : ConfigLine := hostLine (patternOf '*' (by decide) (by decide))

theorem openssh_agrees_ownUser :
    List.Forall₂ (ReadsOwnBlock [hostA, userBob]) (occurrences [hostA, userBob])
      (previewRecordsFromConfigs ⟨fun c => [c.toLower]⟩
        [("config".toList, (String.ofList (textOf [hostA, userBob])).toUTF8.data.toList)]) := by
  refine openssh_agrees _ _ (by decide) _ fun line hline => ?_
  rcases List.mem_cons.mp hline with rfl | hline
  · trivial
  · rw [List.mem_singleton.mp hline]
    intro hquoted
    cases hquoted

/-- ssh takes the user of all hosts, which is in another block than the host. -/
theorem commonUser_not_imported :
    ¬ ∀ (library : Library) (path : Str) (config : List ConfigLine),
      isKnownHostsPath path = false → ImportsAsSsh library path config := by
  intro h
  have hall := h ⟨fun c => [c.toLower]⟩ "config".toList [hostA, allHosts, userBob]
    (by decide)
  unfold ImportsAsSsh at hall
  have hoccurrences : occurrences [hostA, allHosts, userBob] = [(1, ['a'])] := by decide
  have husers : (previewRecordsFromConfigs ⟨fun c => [c.toLower]⟩ [("config".toList,
      (String.ofList (textOf [hostA, allHosts, userBob])).toUTF8.data.toList)]).map (·.username)
      = [[]] := by decide
  have hused : (used [hostA, allHosts, userBob] ['a'] .user).getD [] = "bob".toList := by
    decide
  rw [hoccurrences] at hall
  obtain ⟨record, rest, hrecord, -, hrecords⟩ := List.forall₂_cons_left_iff.mp hall
  rw [hrecords, List.map_cons] at husers
  have hempty : record.username = [] := (List.cons.inj husers).1
  have hbob : record.username = "bob".toList := hrecord.2.username.trans hused
  exact absurd (hempty.symm.trans hbob) (by decide)

end Openssh
end Navop
