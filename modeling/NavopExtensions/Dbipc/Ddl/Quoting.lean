import NavopExtensions.Dbipc.Ddl
import NavopExtensions.Lib.Quoting

/-!
# Names in statements

Every statement of `internal/dbipc/ddl.go` is put together from names that the host sends. What a
lexer with the quotes of the dialect reads is compared with the tokens that a statement is meant to
have, which name everything once: `targetTokens`, `commentTokens`, `renameTokens`, `dropTokens` and
`insertTokens`. Their shapes do not depend on what the names are.

The texts of the names never break out. But two functions leave names out: `qualifiedTableName` the
blank ones, `quoteIdentifierList` the empty ones. The checks in front of them only ask whether the
name of the object is empty and whether there is a column, so that a blank name goes missing from a
statement and an `INSERT` with an empty column has more placeholders than columns.
-/

namespace Navop
namespace Dbipc

open Quoting

/-! ### The statements -/

/-- `commentStatement`: on the column, or on the table if no column is named. -/
def commentStatement (dialect : Dialect) (tableName column comment : String) : String :=
  let kind := if column ≠ "" then "COLUMN" else "TABLE"
  let target := if column ≠ "" then tableName ++ "." ++ quoteIdentifier dialect column
    else tableName
  "COMMENT ON " ++ kind ++ " " ++ target ++ " IS '" ++ escapeSQLLiteral comment ++ "'"

/-- `strings.ToUpper`, as far as it yields ASCII letters. -/
def toUpper (s : String) : String :=
  String.ofList (s.toList.map fun c =>
    if c.toNat = 0x131 then 'I' else if c.toNat = 0x17F then 'S' else c.toUpper)

/-- What `buildDropSQL` refuses: a drop without a name, or of an unknown kind. -/
inductive DropError
  | missingObjectName
  | unsupportedDropKind (kind : String)
  deriving DecidableEq

/-- The kinds of objects that `buildDropSQL` knows. -/
def normalizedKind (kind : String) : Except DropError String :=
  match toUpper (trimSpace kind) with
  | "TABLE" => .ok "TABLE"
  | "BASE_TABLE" => .ok "TABLE"
  | "VIEW" => .ok "VIEW"
  | "MATERIALIZED_VIEW" => .ok "MATERIALIZED VIEW"
  | "INDEX" => .ok "INDEX"
  | "SCHEMA" => .ok "SCHEMA"
  | "DATABASE" => .ok "DATABASE"
  | _ => .error (.unsupportedDropKind kind)

/-- `buildDropSQL`: kind and name are checked first, and then the clauses are put around the name. -/
def buildDropSQL (dialect : Dialect) (kind database schema name : String)
    (ifExists cascade : Bool) : Except DropError String :=
  if name = "" then .error .missingObjectName
  else do
    let sqlText := "DROP " ++ (← normalizedKind kind)
    let sqlText := if ifExists then sqlText ++ " IF EXISTS" else sqlText
    let sqlText := sqlText ++ " " ++ qualifiedTableName dialect database schema name
    return if cascade then sqlText ++ " CASCADE" else sqlText

/-- The part of `importState` that an `INSERT` is made of. -/
structure ImportState where
  table : String
  schema : String
  database : String
  columns : List String
  deriving DecidableEq

/-- `buildInsertSQL`: the names are quoted, and there is a placeholder for each value. -/
def buildInsertSQL (dialect : Dialect) (imp : ImportState) : Except String String :=
  if imp.table = "" then .error "data import table is required"
  else if imp.columns.length = 0 then .error "data import requires explicit columns"
  else
    let placeholders := imp.columns.map fun _ => "?"
    .ok ("INSERT INTO " ++ qualifiedTableName dialect imp.database imp.schema imp.table
      ++ " (" ++ quoteIdentifierList dialect imp.columns ++ ") VALUES ("
      ++ ", ".intercalate placeholders ++ ")")

/-! ### The tokens that they are meant to have -/

/-- The quotes of a dialect, if they are single characters. -/
def Dialect.quotes (dialect : Dialect) : Option Quotes :=
  match dialect.identifierQuoteLeft.toList, dialect.identifierQuoteRight.toList with
  | [left], [right] => some ⟨left, right⟩
  | [left], [] => some ⟨left, left⟩
  | [], [] => some ⟨'"', '"'⟩
  | _, _ => none

/-- A name that `qualifiedTableName` keeps. -/
def IsGiven (name : String) : Bool := trimSpace name ≠ ""

/-- The names of a target: the database and the schema if they are given, and the object. -/
def targetNames (database schema name : String) : List String :=
  [database, schema].filter IsGiven ++ [name]

/-- The tokens of a target. -/
def targetTokens (database schema name : String) : List Token :=
  joined "." (targetNames database schema name)

/-- The tokens of a comment on a table, or on a column if one is named. -/
def commentTokens (database schema table column comment : String) : List Token :=
  symbols (if column ≠ "" then "COMMENT ON COLUMN " else "COMMENT ON TABLE ")
    ++ targetTokens database schema table
    ++ ((if column ≠ "" then symbols "." ++ [.quoted .name column.toList] else [])
      ++ symbols " IS " ++ [.quoted .literal comment.toList])

/-- The tokens of the renaming of a column. -/
def renameTokens (database schema table oldName newName : String) : List Token :=
  symbols "ALTER TABLE " ++ targetTokens database schema table
    ++ (symbols " RENAME COLUMN " ++ [.quoted .name oldName.toList] ++ symbols " TO "
      ++ [.quoted .name newName.toList])

/-- The tokens of a `DROP`. -/
def dropTokens (kind database schema name : String) (ifExists cascade : Bool) : List Token :=
  symbols ("DROP " ++ kind ++ (if ifExists then " IF EXISTS" else "") ++ " ")
    ++ targetTokens database schema name ++ symbols (if cascade then " CASCADE" else "")

/-- The tokens of an `INSERT`: every column is named, and each has a placeholder. -/
def insertTokens (imp : ImportState) : List Token :=
  symbols "INSERT INTO " ++ targetTokens imp.database imp.schema imp.table ++ symbols " ("
    ++ joined ", " imp.columns ++ symbols ") VALUES ("
    ++ (symbols ", ").intercalate (imp.columns.map fun _ => symbols "?") ++ symbols ")"

section Names

variable {dialect : Dialect} {q : Quotes}

/-! ### The texts of names -/

theorem eq_singleton_of_toList {s : String} {mark : Char} (h : s.toList = [mark]) :
    s = String.singleton mark :=
  String.toList_inj.1 (by rw [h, String.toList_singleton])

/-- `quoteIdentifier`, for the marks that it takes. -/
theorem quoteIdentifier_of_marks (name : String) {left right : String}
    (hright : (let plain := dialect.identifierQuoteLeft = "" ∧ dialect.identifierQuoteRight = ""
      let left := if plain then "\"" else dialect.identifierQuoteLeft
      let right := if plain then "\"" else dialect.identifierQuoteRight
      ((if right = "" then left else right), left)) = (right, left)) :
    quoteIdentifier dialect name = left ++ name.replace right (right ++ right) ++ right := by
  obtain ⟨rfl, rfl⟩ := Prod.mk.inj hright
  rfl

/-- The quotes of a dialect are the marks that `quoteIdentifier` takes. -/
theorem quoteIdentifier_eq (hq : dialect.quotes = some q) (name : String) :
    quoteIdentifier dialect name = String.singleton q.left
      ++ name.replace (String.singleton q.right) (String.singleton q.right
        ++ String.singleton q.right) ++ String.singleton q.right := by
  apply quoteIdentifier_of_marks
  unfold Dialect.quotes at hq
  rcases hleft : dialect.identifierQuoteLeft.toList with _ | ⟨l, _ | ⟨l', ls⟩⟩ <;>
    rcases hright : dialect.identifierQuoteRight.toList with _ | ⟨r, _ | ⟨r', rs⟩⟩ <;>
    simp only [hleft, hright, Option.some.injEq, reduceCtorEq] at hq <;> subst hq
  · rw [String.toList_eq_nil_iff.1 hleft, String.toList_eq_nil_iff.1 hright]
    rfl
  · rw [eq_singleton_of_toList hleft, String.toList_eq_nil_iff.1 hright]
    simp
  · rw [eq_singleton_of_toList hleft, eq_singleton_of_toList hright]
    simp

theorem toList_quoteIdentifier (hq : dialect.quotes = some q) (name : String) :
    (quoteIdentifier dialect name).toList = Token.write q (.quoted .name name.toList) := by
  rw [quoteIdentifier_eq hq, String.toList_append, String.toList_append, toList_replace_double]
  simp [Token.write, Quotes.opening, Quotes.closing]

/-- The texts of names with a separator between them. -/
theorem toList_intercalate_quoted (hq : dialect.quotes = some q) (separator : String)
    (names : List String) :
    (separator.intercalate (names.map (quoteIdentifier dialect))).toList
      = write q (joined separator names) := by
  rw [String.toList_intercalate, write_joined, List.map_map]
  congr 2
  ext name : 1
  exact toList_quoteIdentifier hq name

theorem toList_quoteIdentifierList (hq : dialect.quotes = some q) (names : List String) :
    (quoteIdentifierList dialect names).toList
      = write q (joined ", " (names.filter (· ≠ ""))) :=
  toList_intercalate_quoted hq ", " _

theorem toList_qualifiedTableName (hq : dialect.quotes = some q) (database schema name : String) :
    (qualifiedTableName dialect database schema name).toList
      = write q (joined "." ((targetNames database schema name).filter IsGiven)) := by
  have hnames : [database, schema, name].filter (trimSpace · ≠ "")
      = (targetNames database schema name).filter IsGiven := by
    rw [targetNames, List.filter_append, List.filter_filter]
    simp only [Bool.and_self]
    exact List.filter_append [database, schema] [name]
  rw [qualifiedTableName, hnames]
  exact toList_intercalate_quoted hq "." _

/-- The placeholders of an `INSERT`. -/
theorem toList_placeholders (columns : List String) :
    (", ".intercalate (columns.map fun _ => "?")).toList
      = write q ((symbols ", ").intercalate (columns.map fun _ => symbols "?")) := by
  rw [String.toList_intercalate, List.map_map]
  induction columns with
  | nil => rfl
  | cons column columns ih =>
    cases columns with
    | nil => simp [write_symbols]
    | cons next columns =>
      simp only [List.map_cons, List.intercalate_cons_cons, write_append, write_symbols] at ih ⊢
      rw [← ih]
      rfl

theorem toList_escapeSQLLiteral (value : String) :
    (escapeSQLLiteral value).toList = double '\'' value.toList :=
  toList_replace_double '\'' value

/-! ### The texts of statements -/

theorem write_singleton (token : Token) : write q [token] = token.write q := by
  simp [write]

/-- **A statement that names two lists** is read with all names if and only if none is left out. -/
theorem lex_named_iff {before between after : List Token} {parts columns : List String}
    {p p' : String → Bool} {text : List Char}
    (htext : text = write q (before ++ joined "." (parts.filter p) ++ between
      ++ joined ", " (columns.filter p') ++ after)) :
    lex q text = some (before ++ joined "." parts ++ between ++ joined ", " columns ++ after)
      ↔ Clear q (before ++ joined "." parts ++ between ++ joined ", " columns ++ after)
        ∧ (∀ part ∈ parts, p part = true) ∧ ∀ column ∈ columns, p' column = true := by
  rw [lex_eq_some_iff, htext, and_comm]
  refine and_congr_right fun _ => ⟨fun hwrite => ?_, fun ⟨hparts, hcolumns⟩ => ?_⟩
  · -- A name that is left out makes its list shorter, and no list gets longer.
    have hlength := congrArg List.length hwrite
    simp only [write_append, List.length_append] at hlength
    have hparts := length_write_joined_filter_le (q := q) "." parts p
    have hcolumns := length_write_joined_filter_le (q := q) ", " columns p'
    rw [← @length_write_joined_filter_iff q ".", ← @length_write_joined_filter_iff q ", "]
    omega
  · rw [List.filter_eq_self.2 hparts, List.filter_eq_self.2 hcolumns]

/-- The names of a target that are given. -/
theorem isGiven_targetNames (database schema name : String) :
    (∀ part ∈ targetNames database schema name, IsGiven part = true) ↔ IsGiven name = true := by
  constructor
  · intro h
    exact h name (List.mem_append_right _ List.mem_cons_self)
  · intro h part hpart
    rcases List.mem_append.1 hpart with hpart | hpart
    · exact (List.mem_filter.1 hpart).2
    · rw [List.mem_singleton.1 hpart]
      exact h

/-- **A statement about a target** is read with the name of the object if and only if that is not
blank. -/
theorem lex_target_iff {before after : List Token} {database schema name : String}
    {text : List Char} (htext : text = write q (before
      ++ joined "." ((targetNames database schema name).filter IsGiven) ++ after)) :
    lex q text = some (before ++ targetTokens database schema name ++ after)
      ↔ Clear q (before ++ targetTokens database schema name ++ after) ∧ IsGiven name = true := by
  have hnone := @lex_named_iff q before after [] (targetNames database schema name) [] IsGiven
    (fun _ => true) text (by simpa [joined] using htext)
  simpa [joined, isGiven_targetNames, targetTokens] using hnone

/-! ### The statements are read as meant -/

theorem lex_commentStatement_iff (hq : dialect.quotes = some q)
    (database schema table column comment : String) :
    lex q (commentStatement dialect (qualifiedTableName dialect database schema table) column
        comment).toList = some (commentTokens database schema table column comment)
      ↔ Clear q (commentTokens database schema table column comment) ∧ IsGiven table = true := by
  apply lex_target_iff
  by_cases hcolumn : column ≠ ""
  · simp only [commentStatement, if_pos hcolumn, String.toList_append, toList_qualifiedTableName hq,
      toList_quoteIdentifier hq, toList_escapeSQLLiteral, write_append, write_symbols,
      write_singleton, List.append_assoc]
    rfl
  · simp only [commentStatement, if_neg hcolumn, String.toList_append, toList_qualifiedTableName hq,
      toList_escapeSQLLiteral, write_append, write_symbols, write_singleton, List.append_assoc]
    rfl

theorem sql_renameColumn (tableName oldName newName : String) :
    (Statement.renameColumn oldName newName).sql dialect tableName
      = "ALTER TABLE " ++ tableName ++ " RENAME COLUMN " ++ quoteIdentifier dialect oldName
        ++ " TO " ++ quoteIdentifier dialect newName := rfl

/-- The comments of `buildAlterTableSQL` are those of `commentStatement`. -/
theorem sql_commentTable (tableName comment : String) :
    (Statement.commentTable comment).sql dialect tableName
      = commentStatement dialect tableName "" comment := by
  simp only [commentStatement, ne_eq, not_true_eq_false, if_false]
  rw [show "COMMENT ON " ++ "TABLE" ++ " " = "COMMENT ON TABLE " from rfl]
  rfl

theorem sql_commentColumn (tableName comment : String) {column : String} (hcolumn : column ≠ "") :
    (Statement.commentColumn column comment).sql dialect tableName
      = commentStatement dialect tableName column comment := by
  simp only [commentStatement, if_pos hcolumn]
  rw [show "COMMENT ON " ++ "COLUMN" ++ " " = "COMMENT ON COLUMN " from rfl, ← String.append_assoc,
    ← String.append_assoc]
  rfl

theorem lex_renameColumn_iff (hq : dialect.quotes = some q)
    (database schema table oldName newName : String) :
    lex q ((Statement.renameColumn oldName newName).sql dialect
        (qualifiedTableName dialect database schema table)).toList
        = some (renameTokens database schema table oldName newName)
      ↔ Clear q (renameTokens database schema table oldName newName)
        ∧ IsGiven table = true := by
  apply lex_target_iff
  simp only [sql_renameColumn, String.toList_append, toList_qualifiedTableName hq,
    toList_quoteIdentifier hq, write_append, write_symbols, write_singleton, List.append_assoc]

/-- The text of a `DROP`: a blank name is not in it. -/
theorem toList_buildDropSQL (hq : dialect.quotes = some q) {kind normalized : String}
    (hkind : normalizedKind kind = .ok normalized) {database schema name : String}
    {ifExists cascade : Bool} {sql : String}
    (hsql : buildDropSQL dialect kind database schema name ifExists cascade = .ok sql) :
    sql.toList = write q
      (symbols ("DROP " ++ normalized ++ (if ifExists then " IF EXISTS" else "") ++ " ")
        ++ joined "." ((targetNames database schema name).filter IsGiven)
        ++ symbols (if cascade then " CASCADE" else "")) := by
  have hname : name ≠ "" := by
    rintro rfl
    simp [buildDropSQL] at hsql
  simp only [buildDropSQL, if_neg hname, hkind, bind, Except.bind, pure, Except.pure] at hsql
  obtain rfl := Except.ok.inj hsql
  cases ifExists <;> cases cascade <;>
    simp only [String.toList_append, toList_qualifiedTableName hq, write_append, write_symbols,
      if_true, if_false, reduceCtorEq, List.append_assoc, String.toList_empty, List.append_nil]

theorem lex_buildDropSQL_iff (hq : dialect.quotes = some q) {kind normalized : String}
    (hkind : normalizedKind kind = .ok normalized) {database schema name : String}
    {ifExists cascade : Bool} {sql : String}
    (hsql : buildDropSQL dialect kind database schema name ifExists cascade = .ok sql) :
    lex q sql.toList = some (dropTokens normalized database schema name ifExists cascade)
      ↔ Clear q (dropTokens normalized database schema name ifExists cascade)
        ∧ IsGiven name = true :=
  lex_target_iff (toList_buildDropSQL hq hkind hsql)

/-- The text of an `INSERT`: empty columns are not in it, but all have a placeholder. -/
theorem toList_buildInsertSQL (hq : dialect.quotes = some q) {imp : ImportState} {sql : String}
    (hsql : buildInsertSQL dialect imp = .ok sql) :
    sql.toList = write q (symbols "INSERT INTO "
      ++ joined "." ((targetNames imp.database imp.schema imp.table).filter IsGiven) ++ symbols " ("
      ++ joined ", " (imp.columns.filter (· ≠ "")) ++ (symbols ") VALUES ("
      ++ (symbols ", ").intercalate (imp.columns.map fun _ => symbols "?") ++ symbols ")")) := by
  have hsql' : sql = "INSERT INTO " ++ qualifiedTableName dialect imp.database imp.schema imp.table
      ++ " (" ++ quoteIdentifierList dialect imp.columns ++ ") VALUES ("
      ++ ", ".intercalate (imp.columns.map fun _ => "?") ++ ")" := by
    unfold buildInsertSQL at hsql
    split at hsql
    · cases hsql
    split at hsql
    · cases hsql
    exact (Except.ok.inj hsql).symm
  simp only [hsql', String.toList_append, toList_qualifiedTableName hq,
    toList_quoteIdentifierList hq, toList_placeholders (q := q), write_append, write_symbols,
    List.append_assoc]

theorem lex_buildInsertSQL_iff (hq : dialect.quotes = some q) {imp : ImportState} {sql : String}
    (hsql : buildInsertSQL dialect imp = .ok sql) :
    lex q sql.toList = some (insertTokens imp)
      ↔ Clear q (insertTokens imp) ∧ IsGiven imp.table = true
        ∧ ∀ column ∈ imp.columns, column ≠ "" := by
  have hnamed := lex_named_iff (toList_buildInsertSQL hq hsql)
  simpa [insertTokens, targetTokens, isGiven_targetNames] using hnamed

/-! ### The shapes of statements -/

/-- The shape of a list of names depends on how many there are. -/
theorem shape_joined (separator : String) {names names' : List String}
    (h : names.length = names'.length) :
    (joined separator names).map Token.shape = (joined separator names').map Token.shape := by
  induction names generalizing names' with
  | nil =>
    obtain rfl := List.length_eq_zero_iff.1 h.symm
    rfl
  | cons name names ih =>
    cases names' with
    | nil => simp at h
    | cons name' names' =>
      have hrest := ih (Nat.succ.inj h)
      cases names <;> cases names' <;> simp at h
      · rfl
      · simp only [joined, List.map_cons, List.intercalate_cons_cons, List.map_append] at hrest ⊢
        rw [hrest]
        rfl

theorem shape_insertTokens {imp imp' : ImportState}
    (htarget : (targetNames imp.database imp.schema imp.table).length
      = (targetNames imp'.database imp'.schema imp'.table).length)
    (hcolumns : imp.columns.length = imp'.columns.length) :
    (insertTokens imp).map Token.shape = (insertTokens imp').map Token.shape := by
  have hplaceholders : imp.columns.map (fun _ => symbols "?")
      = imp'.columns.map fun _ => symbols "?" := by
    rw [List.map_const', List.map_const', hcolumns]
  simp only [insertTokens, targetTokens, List.map_append, shape_joined "." htarget,
    shape_joined ", " hcolumns, hplaceholders]

/-- What an `INSERT` quotes is the names of its target and its columns. -/
theorem texts_insertTokens (imp : ImportState) : texts (insertTokens imp)
    = (targetNames imp.database imp.schema imp.table ++ imp.columns).map String.toList := by
  have hplaceholders : texts ((symbols ", ").intercalate (imp.columns.map fun _ => symbols "?"))
      = [] := by
    induction imp.columns with
    | nil => rfl
    | cons column columns ih =>
      cases columns with
      | nil => rfl
      | cons next columns =>
        simp only [List.map_cons, List.intercalate_cons_cons, texts_append] at ih ⊢
        rw [ih]
        rfl
  simp only [insertTokens, targetTokens, texts_append, texts_symbols, texts_joined, hplaceholders,
    List.map_append, List.nil_append, List.append_nil]

/-- Every column has a placeholder. -/
theorem count_insertTokens (imp : ImportState) :
    (insertTokens imp).count (.symbol '?') = imp.columns.length := by
  -- one placeholder for each column, and none in what stands around them
  have hplaceholders : ((symbols ", ").intercalate (imp.columns.map fun _ => symbols "?")).count
      (.symbol '?') = imp.columns.length := by
    induction imp.columns with
    | nil => rfl
    | cons column columns ih =>
      cases columns with
      | nil => rfl
      | cons next columns =>
        simp only [List.map_cons, List.intercalate_cons_cons, List.count_append] at ih ⊢
        rw [ih]
        simp [symbols, Nat.add_comm]
  have hinto : (symbols "INSERT INTO ").count (.symbol '?') = 0 := rfl
  have hopen : (symbols " (").count (.symbol '?') = 0 := rfl
  have hvalues : (symbols ") VALUES (").count (.symbol '?') = 0 := rfl
  have hclose : (symbols ")").count (.symbol '?') = 0 := rfl
  simp only [insertTokens, targetTokens, List.count_append, hplaceholders, hinto, hopen, hvalues,
    hclose, @count_joined '?' "." (by decide),
    @count_joined '?' ", " (by decide), Nat.zero_add, Nat.add_zero]

/-- A single name is always read back. -/
theorem lex_quoteIdentifier (hq : dialect.quotes = some q) (name : String) :
    lex q (quoteIdentifier dialect name).toList = some [.quoted .name name.toList] := by
  rw [toList_quoteIdentifier hq, ← write_singleton]
  refine lex_write (Clear.cons ?_ (by simp) ⟨by simp, by simp⟩)
  intro hliteral
  cases hliteral

/-- **Names do not break out of statements.** Names and lists of names are read back. A statement is
read as the tokens that it is meant to have, whose shape does not depend on the names, if and only
if its object is not blank, an `INSERT` has no empty column, and the quotes are none of the
characters that the statement itself has in these places. -/
theorem statements_lex_iff (hq : dialect.quotes = some q) :
    (∀ name, lex q (quoteIdentifier dialect name).toList = some [.quoted .name name.toList]) ∧
    (∀ names, lex q (quoteIdentifierList dialect names).toList
        = some (joined ", " (names.filter (· ≠ "")))
      ↔ Clear q (joined ", " (names.filter (· ≠ "")))) ∧
    (∀ database schema name, lex q (qualifiedTableName dialect database schema name).toList
        = some (joined "." ([database, schema, name].filter IsGiven))
      ↔ Clear q (joined "." ([database, schema, name].filter IsGiven))) ∧
    -- comments
    (∀ database schema table column comment,
      lex q (commentStatement dialect (qualifiedTableName dialect database schema table) column
          comment).toList = some (commentTokens database schema table column comment)
        ↔ Clear q ((commentTokens database schema table column comment).map Token.shape)
          ∧ IsGiven table = true) ∧
    -- renamings
    (∀ database schema table oldName newName,
      lex q ((Statement.renameColumn oldName newName).sql dialect
          (qualifiedTableName dialect database schema table)).toList
          = some (renameTokens database schema table oldName newName)
        ↔ Clear q ((renameTokens database schema table oldName newName).map Token.shape)
          ∧ IsGiven table = true) ∧
    -- `DROP`
    (∀ kind normalized database schema name ifExists cascade sql,
      normalizedKind kind = .ok normalized →
      buildDropSQL dialect kind database schema name ifExists cascade = .ok sql →
      (lex q sql.toList = some (dropTokens normalized database schema name ifExists cascade)
        ↔ Clear q ((dropTokens normalized database schema name ifExists cascade).map Token.shape)
          ∧ IsGiven name = true)) ∧
    -- `INSERT`
    (∀ imp sql, buildInsertSQL dialect imp = .ok sql →
      (lex q sql.toList = some (insertTokens imp)
        ↔ Clear q ((insertTokens imp).map Token.shape) ∧ IsGiven imp.table = true
          ∧ ∀ column ∈ imp.columns, column ≠ "")) ∧
    (∀ imp, texts (insertTokens imp)
        = (targetNames imp.database imp.schema imp.table ++ imp.columns).map String.toList
      ∧ (insertTokens imp).count (.symbol '?') = imp.columns.length) ∧
    -- the shapes
    ∀ database schema name database' schema' name',
      (targetNames database schema name).length = (targetNames database' schema' name').length →
      (∀ column column' comment comment', (column = "" ↔ column' = "") →
        (commentTokens database schema name column comment).map Token.shape
          = (commentTokens database' schema' name' column' comment').map Token.shape) ∧
      (∀ oldName newName oldName' newName',
        (renameTokens database schema name oldName newName).map Token.shape
          = (renameTokens database' schema' name' oldName' newName').map Token.shape) ∧
      (∀ kind ifExists cascade,
        (dropTokens kind database schema name ifExists cascade).map Token.shape
          = (dropTokens kind database' schema' name' ifExists cascade).map Token.shape) ∧
      ∀ columns columns' : List String, columns.length = columns'.length →
        (insertTokens ⟨name, schema, database, columns⟩).map Token.shape
          = (insertTokens ⟨name', schema', database', columns'⟩).map Token.shape := by
  refine ⟨lex_quoteIdentifier hq, fun names => ?_, fun database schema name => ?_, ?_, ?_, ?_, ?_,
    fun imp => ⟨texts_insertTokens imp, count_insertTokens imp⟩, ?_⟩
  · rw [toList_quoteIdentifierList hq, lex_write_iff]
  · rw [qualifiedTableName]
    exact (toList_intercalate_quoted hq "." _).symm ▸ lex_write_iff
  · intro database schema table column comment
    rw [clear_map_shape]
    exact lex_commentStatement_iff hq database schema table column comment
  · intro database schema table oldName newName
    rw [clear_map_shape]
    exact lex_renameColumn_iff hq database schema table oldName newName
  · intro kind normalized database schema name ifExists cascade sql hkind hsql
    rw [clear_map_shape]
    exact lex_buildDropSQL_iff hq hkind hsql
  · intro imp sql hsql
    rw [clear_map_shape]
    exact lex_buildInsertSQL_iff hq hsql
  · intro database schema name database' schema' name' htarget
    have hshape := shape_joined "." htarget
    refine ⟨fun column column' comment comment' hcolumn => ?_, fun _ _ _ _ => ?_,
      fun kind ifExists cascade => ?_, fun columns columns' hcolumns => ?_⟩
    · by_cases hempty : column = ""
      · have hempty' := hcolumn.1 hempty
        simp only [commentTokens, targetTokens, List.map_append, hshape, hempty, hempty']
        rfl
      · have hempty' := mt hcolumn.2 hempty
        simp only [commentTokens, targetTokens, List.map_append, hshape, ne_eq, hempty, hempty']
        rfl
    · simp only [renameTokens, targetTokens, List.map_append, hshape]
      rfl
    · simp only [dropTokens, targetTokens, List.map_append, hshape]
    · exact shape_insertTokens htarget hcolumns

end Names

/-- Double quotes, as most dialects have them. -/
def doubleQuotes : Dialect := ⟨"\"", "\"", true⟩

/-- A column with a quote in its name. -/
theorem statements_lex_quoted :
    ∃ sql, buildInsertSQL doubleQuotes ⟨"a\"b", "", "shop", ["c", "d\", \"e"]⟩ = .ok sql ∧
      lex ⟨'"', '"'⟩ sql.toList
        = some (insertTokens ⟨"a\"b", "", "shop", ["c", "d\", \"e"]⟩) :=
  ⟨_, rfl, ((statements_lex_iff rfl).2.2.2.2.2.2.1 _ _ rfl).2
    ⟨by decide, by decide, by decide⟩⟩

/-- **Statements that miss a name.** An `INSERT` into two columns, the second of which is empty,
lists one column and has two placeholders. A `DROP` of a blank table drops what has the name of the
database. -/
theorem insert_misses_column :
    (∃ sql, buildInsertSQL doubleQuotes ⟨"t", "", "", ["a", ""]⟩ = .ok sql ∧
      lex ⟨'"', '"'⟩ sql.toList = some (symbols "INSERT INTO " ++ [.quoted .name ['t']]
        ++ symbols " (" ++ [.quoted .name ['a']] ++ symbols ") VALUES (?, ?)")) ∧
    ∃ sql, buildDropSQL doubleQuotes "table" "shop" "" " " false false = .ok sql ∧
      lex ⟨'"', '"'⟩ sql.toList = some (symbols "DROP TABLE " ++ [.quoted .name "shop".toList]) := by
  refine ⟨⟨_, rfl, ?_⟩, ⟨_, rfl, ?_⟩⟩
  · have htext := @toList_buildInsertSQL doubleQuotes ⟨'"', '"'⟩ rfl ⟨"t", "", "", ["a", ""]⟩ _ rfl
    rw [htext]
    exact lex_eq_some_iff.2 ⟨by decide, by decide⟩
  · have htext := @toList_buildDropSQL doubleQuotes ⟨'"', '"'⟩ rfl "table" "TABLE" rfl "shop" "" " "
      false false _ rfl
    rw [htext]
    exact lex_eq_some_iff.2 ⟨by decide, by decide⟩

end Dbipc
end Navop
