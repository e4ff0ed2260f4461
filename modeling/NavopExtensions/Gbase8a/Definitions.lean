import NavopExtensions.Gbase8a.Ddl
import NavopExtensions.Lib.Escaping

/-!
# Defaults and comments in the definitions of columns

What `dumpColumnDefinition`, `columnDefinition` and `tableCommentStatement` write is read with the lexical
rules of the server. Marks are doubled in names and literals, but a backslash in a literal stays as it is,
and escapes, except in front of `%` and `_`. A default is trimmed, and is left out if it is blank or `null`, and is not put into quotes if it
looks like a number or an expression. For columns of characters all of that changes what the definition
says (`definitions_keep_iff`).
-/

namespace Navop
namespace Gbase8aDdl

open ExtensionProtocol JavaText Quoting Escaping

/-! ### The language of the server -/

/-- The characters in front of which a backslash stays, for patterns. -/
def isWildcard (c : Char) : Bool := c = '%' || c = '_'

theorem closing_ne_backslash (kind : Kind) : (Quotes.mk '`' '`').closing kind ≠ '\\' := by
  cases kind <;> decide

theorem wildcard_ne (c : Char) (kind : Kind) (h : isWildcard c = true) :
    c ≠ (Quotes.mk '`' '`').closing kind ∧ c ≠ '\\' := by
  obtain rfl | rfl : c = '%' ∨ c = '_' := by simpa [isWildcard] using h
  · cases kind <;> decide
  · cases kind <;> decide

/-- The lexical rules: a backslash escapes in literals, a doubled mark stands for one. -/
def mysql : Language where
  quotes := ⟨'`', '`'⟩
  escapes kind := decide (kind = .literal)
  keeps := isWildcard
  closing_ne := closing_ne_backslash
  keeps_ne := wildcard_ne
  unescape
    | '0' => Char.ofNat 0
    | 'b' => Char.ofNat 8
    | 'n' => '\n'
    | 'r' => '\r'
    | 't' => '\t'
    | 'Z' => Char.ofNat 26
    | c => c

/-- The tokens of a default. -/
def defaultTokens : Option String → List Token
  | none => []
  | some default => symbols " DEFAULT " ++ [.quoted .literal default.toList]

/-- The tokens of a comment. -/
def commentTokens (comment : String) : List Token :=
  if comment = "" then [] else symbols " COMMENT " ++ [.quoted .literal comment.toList]

/-- The tokens of a definition that keeps what it is about. -/
def definitionTokens (name type : String) (notNull : Bool) (default : Option String)
    (comment : String) : List Token :=
  .quoted .name name.toList :: (symbols (" " ++ type ++ if notNull then " NOT NULL" else "")
    ++ (defaultTokens default ++ commentTokens comment))

/-- The tokens of the name of a table. -/
def tableTokens (catalog table : String) : List Token :=
  (if catalog = "" then [] else [.quoted .name catalog.toList, .symbol '.'])
    ++ [.quoted .name table.toList]

/-- A type of characters: `char`, `varchar` or `text`, with a length or without. -/
def CharacterType (type : String) : Prop :=
  ∃ name ∈ ["char", "varchar", "text"], ∃ length : List Char, (∀ c ∈ length, c.isDigit = true) ∧
    (Text.asciiLower type.toList = name.toList ∨
      Text.asciiLower type.toList = name.toList ++ '(' :: length ++ [')'])

/-- The definition of a column that is dumped keeps it. -/
def DumpKeeps (row : CatalogRow) : Prop :=
  lex mysql (dumpColumnDefinition (readColumn row)).sql.toList
    = some (definitionTokens row.name row.columnType (!nullableText row.nullable) row.default row.comment)

/-- The definition of a column of a specification keeps it. -/
def DefinitionKeeps (column : ColumnSpec) : Prop :=
  ∃ definition, columnDefinition column true = .ok definition ∧
    lex mysql definition.sql.toList = some (definitionTokens column.name column.typeStr
      (!column.nullable) column.default column.comment)

/-- The statement for the comment of a table keeps it. -/
def TableCommentKeeps (schema table comment : String) : Prop :=
  lex mysql ((Statement.commentTable comment).sql (qualifiedIdentifier "" schema table)).toList
    = some (symbols "ALTER TABLE " ++ tableTokens (catalog "" schema) (trim table)
      ++ symbols " COMMENT = " ++ [.quoted .literal comment.toList])

/-- A default that is written as a literal with its text. -/
structure LiteralDefault (default : String) : Prop where
  nonempty : default ≠ ""
  trimmed : trim default = default
  not_null : Text.asciiLower default.toList ≠ "null".toList
  not_rendered : isPreRenderedDefault default = false
  no_escape : bare mysql default.toList = 0

/-! ### Texts -/

theorem toList_quoteIdentifier (value : String) :
    (quoteIdentifier value).toList = '`' :: (double '`' (trim value).toList ++ ['`']) := by
  have hdouble := toList_replace_double '`' (trim value)
  rw [quoteIdentifier, String.toList_append, String.toList_append]
  exact congrArg (fun text => '`' :: (text ++ ['`'])) hdouble

theorem toList_sqlString (value : String) : (sqlString value).toList = double '\'' value.toList :=
  toList_replace_double '\'' value

theorem length_double (mark : Char) (text : List Char) :
    (double mark text).length = text.length + text.count mark := by
  induction text with
  | nil => rfl
  | cons c text ih =>
    rw [double, List.flatMap_cons, List.length_append, ← double, ih, List.count_cons, List.length_cons]
    by_cases hc : c = mark
    · simp only [hc, if_true, List.length_cons, List.length_nil, beq_self_eq_true]
      omega
    · simp only [hc, if_false, List.length_cons, List.length_nil, beq_iff_eq]
      omega

/-- A part of a text is not longer with its marks doubled. -/
theorem length_double_le (mark : Char) {part text : List Char} (h : part.Sublist text) :
    (double mark part).length ≤ (double mark text).length := by
  rw [length_double, length_double]
  exact Nat.add_le_add h.length_le (h.count_le mark)

theorem eq_of_length_double (mark : Char) {part text : List Char} (h : part.Sublist text)
    (hlength : (double mark part).length = (double mark text).length) : part = text := by
  have hle := h.length_le
  have hcount := h.count_le mark
  rw [length_double, length_double] at hlength
  exact h.eq_of_length (by omega)

/-! ### Types of characters -/

/-- The characters of such types, in lower case. -/
def isTypeCharacter (c : Char) : Bool :=
  c ∈ ['a', 'c', 'e', 'h', 'r', 't', 'v', 'x', '(', ')'] || c.isDigit

theorem isTypeCharacter_of_type {type : String} (h : CharacterType type) :
    ∀ c ∈ type.toList, isTypeCharacter c.toLower = true := by
  obtain ⟨name, hname, length, hdigits, hlower⟩ := h
  have hnames : (["char", "varchar", "text"].all fun name => name.toList.all isTypeCharacter) = true := by
    decide
  have hletter : ∀ c ∈ name.toList, isTypeCharacter c = true :=
    List.all_eq_true.1 (List.all_eq_true.1 hnames name hname)
  intro c hc
  have hmem : c.toLower ∈ Text.asciiLower type.toList := List.mem_map_of_mem hc
  obtain hlower | hlower := hlower
  · exact hletter _ (hlower ▸ hmem)
  · rw [hlower] at hmem
    simp only [List.mem_append, List.mem_cons, List.not_mem_nil, or_false] at hmem
    obtain (hmem | hmem | hmem) | hmem := hmem
    · exact hletter _ hmem
    · rw [hmem]
      rfl
    · rw [isTypeCharacter, hdigits _ hmem, Bool.or_true]
    · rw [hmem]
      rfl

theorem isTrimmed_of_type {c : Char} (h : isTypeCharacter c.toLower = true) : isTrimmed c = false := by
  have hblanks : ∀ n < 33, isTypeCharacter (Char.ofNat n).toLower = false := by decide
  by_contra htrimmed
  have hle : c.toNat ≤ 32 := of_decide_eq_true (Bool.not_eq_false _ ▸ htrimmed : decide (c ≤ ' ') = true)
  rw [← Char.ofNat_toNat c, hblanks c.toNat (by omega)] at h
  exact absurd h (by simp)

theorem toLowerCase_of_type {type : String} (h : ∀ c ∈ type.toList, isTypeCharacter c.toLower = true) :
    toLowerCase type = type.toList.map Char.toLower := by
  rw [toLowerCase, List.map_eq_flatMap]
  refine List.flatMap_congr fun c hc => ?_
  have hc := h c hc
  rw [if_neg fun hkelvin => ?_, if_neg fun hdotted => ?_]
  · rw [show c = Char.ofNat 0x130 by rw [← hdotted, Char.ofNat_toNat]] at hc
    exact absurd hc (by decide)
  · rw [show c = Char.ofNat 0x212A by rw [← hkelvin, Char.ofNat_toNat]] at hc
    exact absurd hc (by decide)

/-- They are no types of numbers. -/
theorem isNumericType_of_type {type : String}
    (h : ∀ c ∈ type.toList, isTypeCharacter c.toLower = true) : isNumericType type = false := by
  -- Every marker of a type of numbers has a letter that these types do not have.
  have hmarkers : (["int", "decimal", "numeric", "fixed", "float", "double", "real", "bit", "year"].all
      fun marker => marker.toList.any fun c => !isTypeCharacter c) = true := by decide
  rw [isNumericType, trim_eq_self fun c hc => isTrimmed_of_type (h c hc), toLowerCase_of_type h,
    List.any_eq_false]
  intro marker hmarker hinfix
  obtain ⟨c, hc, hletter⟩ := List.any_eq_true.1 (List.all_eq_true.1 hmarkers marker hmarker)
  obtain ⟨d, hd, rfl⟩ := List.mem_map.1 ((of_decide_eq_true hinfix).subset hc)
  rw [h d hd] at hletter
  exact absurd hletter (by simp)

/-! ### Defaults -/

theorem sql_eq (definition : Definition) : definition.sql
    = quoteIdentifier definition.name
      ++ ((" " ++ definition.type ++ if definition.notNull then " NOT NULL" else "")
      ++ (defaultSql definition.default ++ commentSql definition.comment)) := by
  simp only [Definition.sql, String.append_assoc]

theorem toList_literal (comment : String) :
    ("'" ++ sqlString comment ++ "'").toList = '\'' :: (double '\'' comment.toList ++ ['\'']) := by
  rw [String.toList_append, String.toList_append, toList_sqlString]
  rfl

theorem costs_defaultTokens (default : String) : costs mysql (defaultTokens (some default))
    = 11 + (double '\'' default.toList).length + bare mysql default.toList := by
  rw [defaultTokens, costs_append, costs_symbols, costs_cons, cost_quoted]
  show 9 + (2 + (double '\'' default.toList).length + bare mysql default.toList + 0) = _
  omega

theorem costs_commentTokens {comment : String} (h : comment ≠ "") :
    costs mysql (commentTokens comment)
      = 11 + (double '\'' comment.toList).length + bare mysql comment.toList := by
  rw [commentTokens, if_neg h, costs_append, costs_symbols, costs_cons, cost_quoted]
  show 9 + (2 + (double '\'' comment.toList).length + bare mysql comment.toList + 0) = _
  omega

theorem length_defaultSql_literal (text : String) :
    (defaultSql (some (.literal text))).toList.length = 11 + (double '\'' text.toList).length := by
  rw [defaultSql, DefaultValue.sql, String.toList_append, toList_literal, List.length_append]
  show 9 + ((double '\'' text.toList ++ ['\'']).length + 1) = _
  rw [List.length_append]
  show 9 + ((double '\'' text.toList).length + 1 + 1) = _
  omega

theorem length_commentSql {comment : String} (h : comment ≠ "") :
    (commentSql comment).toList.length = 11 + (double '\'' comment.toList).length := by
  rw [commentSql, if_pos h, String.toList_append, String.toList_append, toList_sqlString,
    List.length_append, List.length_append]
  show 10 + (double '\'' comment.toList).length + 1 = _
  omega

/-- What is written for a default is not longer than its tokens cost, and only for a literal with the text
of the default it is as long. -/
theorem length_defaultSql {type : String} (htype : isNumericType type = false)
    (default : Option String) :
    (defaultSql (literalDefault type default)).toList.length ≤ costs mysql (defaultTokens default) ∧
      ((defaultSql (literalDefault type default)).toList.length = costs mysql (defaultTokens default) →
        ∀ text ∈ default, LiteralDefault text) := by
  cases default with
  | none => exact ⟨Nat.le_refl 0, fun _ text htext => absurd htext (by simp)⟩
  | some default =>
    rw [costs_defaultTokens, literalDefault, Option.map_some]
    simp only [htype, Bool.false_or]
    have htrim := length_double_le '\'' (@sublist_trim default)
    by_cases hnull : trim default = "" ∨ Text.asciiLower (trim default).toList = "null".toList
    · rw [if_pos hnull]
      show 0 ≤ _ ∧ (0 = _ → _)
      exact ⟨Nat.zero_le _, fun hzero => by omega⟩
    · rw [if_neg hnull]
      by_cases hrendered : isPreRenderedDefault (trim default) = true
      · rw [if_pos hrendered, defaultSql, DefaultValue.sql, String.toList_append, List.length_append]
        have hlength : (trim default).toList.length ≤ (double '\'' default.toList).length := by
          rw [length_double]
          have := (@sublist_trim default).length_le
          omega
        show 9 + _ ≤ _ ∧ (9 + _ = _ → _)
        exact ⟨by omega, fun heq => by omega⟩
      · rw [if_neg hrendered, length_defaultSql_literal]
        refine ⟨by omega, fun heq => ?_⟩
        have hsame : trim default = default :=
          String.toList_inj.1 (eq_of_length_double '\'' (@sublist_trim default) (by omega))
        rw [hsame] at hnull hrendered
        obtain ⟨hempty, hnot⟩ := not_or.1 hnull
        rintro text ⟨⟩
        exact ⟨hempty, hsame, hnot, by simpa using hrendered, by omega⟩

/-- A comment written from part of the given one costs at most what the given one costs, and as much only
when the whole of it is written and has no backslash that the server reads as an escape. -/
theorem length_commentSql_le {written comment : String}
    (hwritten : written.toList.Sublist comment.toList) :
    (commentSql written).toList.length ≤ costs mysql (commentTokens comment) ∧
      ((commentSql written).toList.length = costs mysql (commentTokens comment) →
        written = comment ∧ bare mysql comment.toList = 0) := by
  by_cases hcomment : comment = ""
  · subst hcomment
    obtain rfl : written = "" := String.toList_inj.1 (List.sublist_nil.1 hwritten)
    exact ⟨Nat.le_refl 0, fun _ => ⟨rfl, rfl⟩⟩
  · rw [costs_commentTokens hcomment]
    by_cases hempty : written = ""
    · subst hempty
      show 0 ≤ _ ∧ (0 = _ → _)
      exact ⟨Nat.zero_le _, fun hzero => by omega⟩
    · have hle := length_double_le '\'' hwritten
      rw [length_commentSql hempty]
      refine ⟨by omega, fun heq => ?_⟩
      exact ⟨String.toList_inj.1 (eq_of_length_double '\'' hwritten (by omega)), by omega⟩

/-! ### What is read -/

/-- A text in which no backslash escapes is read in front of something that does not begin with an
apostrophe. -/
theorem lex_literal {text rest : List Char} (hslash : bare mysql text = 0) (hrest : rest.head? ≠ some '\'') :
    lex mysql ('\'' :: (double '\'' text ++ '\'' :: rest))
      = (lex mysql rest).map (.quoted .literal text :: ·) :=
  @lex_doubled mysql .literal text rest (fun _ => by decide) (fun _ => hslash) hrest

/-- A name is read in front of something that does not begin with its mark. -/
theorem lex_name {text rest : List Char} (hrest : rest.head? ≠ some '`') :
    lex mysql ('`' :: (double '`' text ++ '`' :: rest))
      = (lex mysql rest).map (.quoted .name text :: ·) :=
  @lex_doubled mysql .name text rest (fun h => absurd h (by decide)) (fun h => absurd h (by decide)) hrest

theorem lex_text (text : String) {rest : List Char}
    (htext : (text.toList.all fun c => c ≠ '`' && c ≠ '\'') = true) :
    lex mysql (text.toList ++ rest) = (lex mysql rest).map (symbols text ++ ·) := by
  refine lex_symbols (l := mysql) fun c hc => ?_
  have hmarks : c ≠ '`' ∧ c ≠ '\'' := by simpa using List.all_eq_true.1 htext c hc
  exact hmarks

theorem lex_commentSql {comment : String} (hslash : bare mysql comment.toList = 0) :
    lex mysql (commentSql comment).toList = some (commentTokens comment) := by
  unfold commentSql commentTokens
  by_cases hempty : comment = ""
  · rw [if_neg (not_not_intro hempty), if_pos hempty]
    rfl
  · have htext : (" COMMENT '" ++ sqlString comment ++ "'").toList
        = " COMMENT ".toList ++ '\'' :: (double '\'' comment.toList ++ ['\'']) := by
      rw [← toList_literal, ← String.toList_append, ← String.append_assoc, ← String.append_assoc]
      rfl
    rw [if_pos hempty, if_neg hempty, htext, lex_text " COMMENT " (by decide),
      lex_literal hslash (by simp)]
    rfl

theorem head?_commentSql (comment : String) : (commentSql comment).toList.head? ≠ some '\'' := by
  unfold commentSql
  split
  · rw [String.toList_append, String.toList_append]
    simp
  · simp

theorem lex_defaultSql {type : String} (htype : isNumericType type = false) {default : Option String}
    (hdefault : ∀ text ∈ default, LiteralDefault text) {rest : List Char}
    (hrest : rest.head? ≠ some '\'') :
    lex mysql ((defaultSql (literalDefault type default)).toList ++ rest)
      = (lex mysql rest).map (defaultTokens default ++ ·) := by
  cases default with
  | none => exact (congrFun Option.map_id _).symm
  | some default =>
    obtain ⟨hempty, htrim, hnull, hrendered, hslash⟩ := hdefault default rfl
    have hliteral : literalDefault type (some default) = some (.literal default) := by
      simp only [literalDefault, Option.map_some, htrim, hempty, hnull, or_self, if_false, htype,
        hrendered, Bool.or_self, Bool.false_eq_true]
    rw [hliteral, defaultSql, DefaultValue.sql, String.toList_append, toList_literal, List.append_assoc,
      lex_text " DEFAULT " (by decide), List.cons_append, List.append_assoc, List.singleton_append,
      lex_literal hslash hrest, Option.map_map]
    refine congrArg (Option.map · _) (funext fun tokens => ?_)
    simp [defaultTokens]

/-- What stands between the name and the default has no marks. -/
theorem middle_of_type {type : String} (hletters : ∀ c ∈ type.toList, isTypeCharacter c.toLower = true)
    (notNull : Bool) :
    (" " ++ type ++ if notNull then " NOT NULL" else "").toList.head? = some ' ' ∧
      ((" " ++ type ++ if notNull then " NOT NULL" else "").toList.all
        fun c => c ≠ '`' && c ≠ '\'') = true := by
  constructor
  · rw [String.toList_append, String.toList_append]
    rfl
  · have htype : (type.toList.all fun c => c ≠ '`' && c ≠ '\'') = true := by
      refine List.all_eq_true.2 fun c hc => ?_
      have hletter := hletters c hc
      by_contra hmark
      obtain rfl | rfl : c = '`' ∨ c = '\'' := by simpa [or_iff_not_imp_left] using hmark
      · exact absurd hletter (by decide)
      · exact absurd hletter (by decide)
    rw [String.toList_append, String.toList_append, List.all_append, List.all_append, htype]
    cases notNull <;> decide

/-- **What a definition is read as**: what it should be, exactly if the name and the comment are written as
they are and the default is written as a literal with its text, and no backslash escapes. -/
theorem lex_sql_iff {name type comment : String} {default : Option String} {definition : Definition}
    (hcharacters : CharacterType type) (hname : trim definition.name = trim name)
    (htype : definition.type = type) (hdefault : definition.default = literalDefault type default)
    (hcomment : definition.comment.toList.Sublist comment.toList) :
    lex mysql definition.sql.toList
        = some (definitionTokens name type definition.notNull default comment) ↔
      trim name = name ∧ (∀ text ∈ default, LiteralDefault text) ∧ definition.comment = comment ∧
        bare mysql comment.toList = 0 := by
  have hletters := isTypeCharacter_of_type hcharacters
  have hnumeric := isNumericType_of_type hletters
  obtain ⟨hdefaultLe, hdefaultEq⟩ := length_defaultSql hnumeric default
  obtain ⟨hcommentLe, hcommentEq⟩ := length_commentSql_le hcomment
  obtain ⟨hblank, hmarks⟩ := middle_of_type hletters definition.notNull
  rw [sql_eq, htype, hdefault, definitionTokens]
  generalize (" " ++ type ++ if definition.notNull then " NOT NULL" else "") = middle at hblank hmarks ⊢
  constructor
  · intro hlex
    have hcost : costs mysql [.quoted .name name.toList] = 2 + (double '`' name.toList).length := by
      rw [costs_cons, cost_quoted]
      rfl
    have hlength : (quoteIdentifier definition.name).toList.length
        = 2 + (double '`' (trim name).toList).length := by
      rw [toList_quoteIdentifier, hname, List.length_cons, List.length_append, List.length_singleton]
      omega
    have hnameLe := length_double_le '`' (@sublist_trim name)
    have hpaid := @length_eq_costs mysql [
      ((quoteIdentifier definition.name).toList, [.quoted .name name.toList]),
      (middle.toList, symbols middle),
      ((defaultSql (literalDefault type default)).toList, defaultTokens default),
      ((commentSql definition.comment).toList, commentTokens comment)]
    simp only [List.forall_mem_cons, List.not_mem_nil, IsEmpty.forall_iff, implies_true, and_true,
      List.flatMap_cons, List.flatMap_nil, List.append_nil, hcost, hlength, costs_symbols, le_refl,
      hdefaultLe, hcommentLe, true_and, List.singleton_append] at hpaid
    obtain ⟨hnameEq, hdefaultCost, hcommentCost⟩ := hpaid (by omega)
      (by simpa only [String.toList_append] using hlex)
    have htrim : trim name = name :=
      String.toList_inj.1 (eq_of_length_double '`' (@sublist_trim name) (by omega))
    exact ⟨htrim, hdefaultEq hdefaultCost, hcommentEq hcommentCost⟩
  · rintro ⟨htrim, hliteral, hsame, hslash⟩
    rw [String.toList_append, String.toList_append, String.toList_append, toList_quoteIdentifier, hname,
      htrim, hsame, List.cons_append, List.append_assoc, List.singleton_append, lex_name ?_,
      lex_text middle hmarks, lex_defaultSql hnumeric hliteral (head?_commentSql comment),
      lex_commentSql hslash]
    · simp only [Option.map_some]
    · rw [List.head?_append, hblank]
      simp

/-! ### The results -/

/-- The text `null` stands for no default in the columns of the catalog. -/
theorem literalDefault_columnDefault (type : String) (default : Option String) :
    literalDefault type (some ((columnDefault default).getD "null")) = literalDefault type default := by
  have hnull : literalDefault type (some "null") = none := by
    rw [literalDefault, Option.map_some, show trim "null" = "null" by decide +kernel]
    exact if_pos (.inr (by decide))
  cases default with
  | none => exact hnull
  | some default =>
    rw [columnDefault, Option.map_some]
    by_cases hempty : trim default = ""
    · rw [Option.filter_some_neg (by simpa using hempty), Option.getD_none, hnull, literalDefault,
        Option.map_some, hempty]
      rfl
    · rw [Option.filter_some_pos (by simpa using hempty), Option.getD_some, literalDefault, literalDefault,
        Option.map_some, Option.map_some, trim_trim]

/-- **What a dumped column keeps.** -/
theorem dumpKeeps_iff {row : CatalogRow} (hcharacters : CharacterType row.columnType) :
    DumpKeeps row ↔ trim row.name = row.name ∧ (∀ text ∈ row.default, LiteralDefault text) ∧
      trim row.comment = row.comment ∧ row.comment ≠ "null" ∧ bare mysql row.comment.toList = 0 := by
  have htype : trim row.columnType = row.columnType :=
    trim_eq_self fun c hc => isTrimmed_of_type (isTypeCharacter_of_type hcharacters c hc)
  have hnullable : nullableText (trim row.nullable) = nullableText row.nullable := by
    rw [nullableText, trim_trim, nullableText]
  have hdefault : literalDefault (trim row.columnType) (some ((columnDefault row.default).getD "null"))
      = literalDefault row.columnType row.default := by
    rw [htype]
    exact literalDefault_columnDefault row.columnType row.default
  have hcomment : (if trim row.comment = "null" then "" else trim row.comment).toList.Sublist
      row.comment.toList := by
    split
    · exact List.nil_sublist _
    · exact sublist_trim
  have hlex := @lex_sql_iff row.name row.columnType row.comment row.default
    (dumpColumnDefinition (readColumn row)) hcharacters trim_trim htype hdefault hcomment
  have hnotNull : (dumpColumnDefinition (readColumn row)).notNull = !nullableText row.nullable :=
    congrArg (! ·) hnullable
  have hsame : (if trim row.comment = "null" then "" else trim row.comment) = row.comment ↔
      trim row.comment = row.comment ∧ row.comment ≠ "null" := by
    by_cases hnull : trim row.comment = "null"
    · rw [if_pos hnull]
      constructor
      · intro hempty
        rw [← hempty, trim_empty] at hnull
        exact absurd hnull (by decide)
      · rintro ⟨htrim, hne⟩
        exact absurd (htrim.symm.trans hnull) hne
    · rw [if_neg hnull]
      exact ⟨fun htrim => ⟨htrim, fun heq => hnull (htrim.trans heq)⟩, And.left⟩
  rw [DumpKeeps, ← hnotNull, hlex]
  refine and_congr_right fun _ => and_congr_right fun _ => ?_
  rw [← and_assoc, ← hsame]
  rfl

/-- **What a column of a specification keeps.** -/
theorem definitionKeeps_iff {column : ColumnSpec} (hcharacters : CharacterType column.typeStr) :
    DefinitionKeeps column ↔ column.name ≠ "" ∧ trim column.name = column.name ∧
      (∀ text ∈ column.default, LiteralDefault text) ∧ trim column.comment = column.comment ∧
        bare mysql column.comment.toList = 0 := by
  have htype : trim column.typeStr = column.typeStr :=
    trim_eq_self fun c hc => isTrimmed_of_type (isTypeCharacter_of_type hcharacters c hc)
  have htyped : column.typeStr ≠ "" := by
    intro hempty
    obtain ⟨name, hname, length, -, hlower⟩ := hcharacters
    have hnames : ∀ name ∈ ["char", "varchar", "text"], name.toList ≠ [] := by decide
    rw [hempty] at hlower
    obtain hlower | hlower := hlower
    · exact hnames name hname hlower.symm
    · simp [Text.asciiLower] at hlower
  by_cases hname : trim column.name = ""
  · constructor
    · rintro ⟨definition, hdefinition, -⟩
      rw [columnDefinition, requiredText, if_pos hname] at hdefinition
      exact absurd hdefinition (by simp [bind, Except.bind])
    · rintro ⟨hne, htrim, -⟩
      exact absurd (htrim.symm.trans hname) hne
  · have hdefinition : columnDefinition column true = .ok ⟨trim column.name, column.typeStr,
        !column.nullable, literalDefault column.typeStr column.default, trim column.comment⟩ := by
      rw [columnDefinition, requiredText, if_neg hname, requiredText, htype, if_neg htyped]
      rfl
    have hlex := @lex_sql_iff column.name column.typeStr column.comment column.default
      ⟨trim column.name, column.typeStr, !column.nullable, literalDefault column.typeStr column.default,
        trim column.comment⟩ hcharacters trim_trim rfl rfl sublist_trim
    have hne : column.name ≠ "" := fun hempty => hname (by rw [hempty, trim_empty])
    rw [and_iff_right hne]
    refine Iff.trans ?_ hlex
    constructor
    · rintro ⟨definition, hdefinition', hread⟩
      obtain rfl := Except.ok.inj (hdefinition.symm.trans hdefinition')
      exact hread
    · exact fun hread => ⟨_, hdefinition, hread⟩

theorem trim_catalog (schema : String) : trim (catalog "" schema) = catalog "" schema := by
  unfold catalog
  split
  · exact trim_trim
  · rw [trim_empty, trim_empty]

theorem toList_qualifiedIdentifier (schema table : String) :
    (qualifiedIdentifier "" schema table).toList
      = (if catalog "" schema = "" then []
          else '`' :: (double '`' (catalog "" schema).toList ++ ['`', '.']))
        ++ '`' :: (double '`' (trim table).toList ++ ['`']) := by
  rw [qualifiedIdentifier]
  split
  · rw [toList_quoteIdentifier, List.nil_append]
  · rw [String.toList_append, String.toList_append, toList_quoteIdentifier, toList_quoteIdentifier,
      trim_catalog]
    simp

theorem lex_qualifiedIdentifier (schema table : String) {rest : List Char}
    (hrest : rest.head? ≠ some '`') :
    lex mysql ((qualifiedIdentifier "" schema table).toList ++ rest)
      = (lex mysql rest).map (tableTokens (catalog "" schema) (trim table) ++ ·) := by
  rw [toList_qualifiedIdentifier, tableTokens]
  split
  · rw [List.nil_append, List.cons_append, List.append_assoc, List.singleton_append, lex_name hrest]
    rfl
  · have hpoint : lex mysql ('.' :: '`' :: (double '`' (trim table).toList ++ '`' :: rest))
        = (lex mysql rest).map fun tokens => .symbol '.' :: .quoted .name (trim table).toList :: tokens := by
      have hsymbol := @lex_symbols mysql ('`' :: (double '`' (trim table).toList ++ '`' :: rest)) ['.']
        (by simp [mysql])
      rw [List.singleton_append] at hsymbol
      rw [hsymbol, lex_name hrest, Option.map_map]
      rfl
    have htext : '`' :: (double '`' (catalog "" schema).toList ++ ['`', '.'])
          ++ '`' :: (double '`' (trim table).toList ++ ['`']) ++ rest
        = '`' :: (double '`' (catalog "" schema).toList
          ++ '`' :: ('.' :: '`' :: (double '`' (trim table).toList ++ '`' :: rest))) := by
      simp
    rw [htext, lex_name (by simp), hpoint, Option.map_map]
    rfl

theorem costs_tableTokens (schema table : String) :
    costs mysql (tableTokens (catalog "" schema) (trim table))
      = (qualifiedIdentifier "" schema table).toList.length := by
  have hname : ∀ name : String, cost mysql (.quoted .name name.toList)
      = 2 + (double '`' name.toList).length := fun name => cost_quoted mysql .name name.toList
  rw [toList_qualifiedIdentifier, tableTokens]
  split
  · rw [List.nil_append, costs_cons, hname]
    simp [costs]
    omega
  · rw [costs_append, costs_cons, costs_cons, costs_cons, hname, hname]
    simp [costs, cost]
    omega

/-- **What the statement for the comment of a table keeps.** -/
theorem tableCommentKeeps_iff (schema table comment : String) :
    TableCommentKeeps schema table comment ↔ bare mysql comment.toList = 0 := by
  have htext : ((Statement.commentTable comment).sql (qualifiedIdentifier "" schema table)).toList
      = "ALTER TABLE ".toList ++ ((qualifiedIdentifier "" schema table).toList
        ++ (" COMMENT = ".toList ++ '\'' :: (double '\'' comment.toList ++ ['\'']))) := by
    have hopening : " COMMENT = '".toList = " COMMENT = ".toList ++ ['\''] := by decide
    have hclosing : "'".toList = ['\''] := by decide
    have hsql : (Statement.commentTable comment).sql (qualifiedIdentifier "" schema table)
        = "ALTER TABLE " ++ qualifiedIdentifier "" schema table ++ " COMMENT = '" ++ sqlString comment
          ++ "'" := rfl
    simp only [hsql, String.toList_append, toList_sqlString, hopening, hclosing, List.append_assoc,
      List.cons_append, List.nil_append]
  rw [TableCommentKeeps, htext]
  constructor
  · intro hlex
    have hpaid := @length_eq_costs mysql [
      ("ALTER TABLE ".toList, symbols "ALTER TABLE "),
      ((qualifiedIdentifier "" schema table).toList, tableTokens (catalog "" schema) (trim table)),
      (" COMMENT = ".toList, symbols " COMMENT = "),
      ('\'' :: (double '\'' comment.toList ++ ['\'']), [.quoted .literal comment.toList])]
    have hliteral : costs mysql [.quoted .literal comment.toList]
        = 2 + (double '\'' comment.toList).length + bare mysql comment.toList := by
      rw [costs_cons, cost_quoted]
      rfl
    have hlength : ('\'' :: (double '\'' comment.toList ++ ['\''])).length
        = 2 + (double '\'' comment.toList).length := by
      rw [List.length_cons, List.length_append, List.length_singleton]
      omega
    simp only [List.forall_mem_cons, List.not_mem_nil, IsEmpty.forall_iff, implies_true, and_true,
      List.flatMap_cons, List.flatMap_nil, List.append_nil, costs_symbols, costs_tableTokens, hliteral,
      hlength, le_refl, true_and] at hpaid
    have hcount := hpaid (by omega) (by simpa only [List.append_assoc] using hlex)
    omega
  · intro hslash
    rw [lex_text "ALTER TABLE " (by decide), lex_qualifiedIdentifier schema table (by simp),
      lex_text " COMMENT = " (by decide), lex_literal hslash (by simp),
      show lex mysql [] = some [] from rfl]
    simp only [Option.map_some, List.append_assoc]

/-- **Definitions keep defaults and comments** exactly if a default is a text that looks like no number
and no expression, neither blank nor `null`, neither has blanks around it or a backslash in it that escapes, and a comment
is not the text `null` when it is dumped. -/
theorem definitions_keep_iff {row : CatalogRow} {column : ColumnSpec}
    (hrow : CharacterType row.columnType) (hcolumn : CharacterType column.typeStr)
    (schema table comment : String) :
    (DumpKeeps row ↔ trim row.name = row.name ∧ (∀ text ∈ row.default, LiteralDefault text) ∧
      trim row.comment = row.comment ∧ row.comment ≠ "null" ∧ bare mysql row.comment.toList = 0) ∧
    (DefinitionKeeps column ↔ column.name ≠ "" ∧ trim column.name = column.name ∧
      (∀ text ∈ column.default, LiteralDefault text) ∧ trim column.comment = column.comment ∧
        bare mysql column.comment.toList = 0) ∧
    (TableCommentKeeps schema table comment ↔ bare mysql comment.toList = 0) :=
  ⟨dumpKeeps_iff hrow, definitionKeeps_iff hcolumn, tableCommentKeeps_iff schema table comment⟩

/-- A row about a column of names. -/
def nameRow (default : Option String) (comment : String) : CatalogRow :=
  ⟨"name", "varchar(64)", "NO", default, comment⟩

/-- A column of names. -/
def nameColumn (default : Option String) (comment : String) : ColumnSpec where
  name := "name"
  typeStr := "varchar(64)"
  nullable := false
  default := default
  isPrimary := false
  isUnique := false
  autoIncrement := false
  comment := comment

theorem characterType_varchar : CharacterType "varchar(64)" :=
  ⟨"varchar", by simp, ['6', '4'], List.all_eq_true.1 rfl, .inr (by decide)⟩

/-- Apostrophes are kept. -/
theorem definitions_keep_apostrophes : DumpKeeps (nameRow (some "O'Hara") "The guest's name") ∧
    DefinitionKeeps (nameColumn (some "O'Hara") "The guest's name") ∧
    TableCommentKeeps "shop" "guests" "It's about guests" := by
  have hdefault : ∀ text ∈ some "O'Hara", LiteralDefault text := by
    rintro text ⟨⟩
    constructor <;> decide +kernel
  obtain ⟨hdump, hcolumn, htable⟩ := @definitions_keep_iff (nameRow (some "O'Hara") "The guest's name")
    (nameColumn (some "O'Hara") "The guest's name") characterType_varchar characterType_varchar
    "shop" "guests" "It's about guests"
  exact ⟨hdump.2 ⟨by decide +kernel, hdefault, by decide +kernel, by decide, by decide⟩,
    hcolumn.2 ⟨by decide, by decide +kernel, hdefault, by decide +kernel, by decide⟩,
    htable.2 (by decide)⟩

/-- **An empty default is left out**, one that looks like a number loses its quotes, and a backslash
escapes. -/
theorem defaults_lost : ¬ DumpKeeps (nameRow (some "") "") ∧ ¬ DumpKeeps (nameRow (some "1e3") "") ∧
    ¬ DefinitionKeeps (nameColumn (some "C:\\temp") "") := by
  refine ⟨fun hkeeps => ?_, fun hkeeps => ?_, fun hkeeps => ?_⟩
  · exact (((dumpKeeps_iff characterType_varchar).1 hkeeps).2.1 "" rfl).nonempty rfl
  · have hliteral := ((dumpKeeps_iff characterType_varchar).1 hkeeps).2.1 "1e3" rfl
    exact absurd hliteral.not_rendered (by decide)
  · have hliteral := ((definitionKeeps_iff characterType_varchar).1 hkeeps).2.2.1 "C:\\temp" rfl
    exact absurd hliteral.no_escape (by decide)

end Gbase8aDdl
end Navop
