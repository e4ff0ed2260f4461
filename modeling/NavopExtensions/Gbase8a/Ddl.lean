import NavopExtensions.ExtensionProtocol.Ddl
import NavopExtensions.Gbase8a.Text
import NavopExtensions.Lib.Text

/-!
# Statements that change a GBase 8a table

The parts of `GBase8aIpcServer.java` and `GBase8aSchemaSql.java` that define columns, and
`handleDdlBuildAlterTable`. A statement is kept with its parts, which its text is put together from
(`Statement.sql`).
-/

namespace Navop
namespace Gbase8aDdl

open ExtensionProtocol JavaText

/-! ### Names and definitions -/

/-- `GBase8aSchemaSql.quoteIdentifier`: trimmed, with the backticks inside doubled. -/
def quoteIdentifier (value : String) : String := "`" ++ (trim value).replace "`" "``" ++ "`"

/-- `GBase8aSchemaSql.catalog`: the schema if one is given, and the database otherwise. -/
def catalog (database schema : String) : String :=
  if trim schema ≠ "" then trim schema else trim database

/-- `GBase8aSchemaSql.qualifiedIdentifier`: the catalog goes in front when there is one. -/
def qualifiedIdentifier (database schema name : String) : String :=
  if catalog database schema = "" then quoteIdentifier name
  else quoteIdentifier (catalog database schema) ++ "." ++ quoteIdentifier name

/-- `sqlString`: single quotes are doubled, and nothing else is done. -/
def sqlString (value : String) : String := value.replace "'" "''"

/-- What follows `DEFAULT`: text as it is, or a text in quotes. -/
inductive DefaultValue
  | expression (text : String)
  | literal (text : String)
  deriving DecidableEq

/-- The text of a default. -/
def DefaultValue.text : DefaultValue → String
  | .expression text => text
  | .literal text => text

/-- The SQL of a default. -/
def DefaultValue.sql : DefaultValue → String
  | .expression text => text
  | .literal text => "'" ++ sqlString text ++ "'"

/-- `isNumericType`: one of the markers stands anywhere in the type, as `int` does in `point`. -/
def isNumericType (type : String) : Bool :=
  ["int", "decimal", "numeric", "fixed", "float", "double", "real", "bit", "year"].any fun marker =>
    marker.toList <:+: toLowerCase (trim type)

/-- `isPreRenderedDefault`: a function, a bit or hex literal, a parenthesis, or what is a number. -/
def isPreRenderedDefault (value : String) : Bool :=
  (["CURRENT_TIMESTAMP", "CURRENT_DATE", "CURRENT_TIME", "LOCALTIME", "LOCALTIMESTAMP", "NOW(", "B'",
    "X'", "("].any fun start => start.toList.isPrefixOf (toUpperCase value)) || isBigDecimal value

/-- `literalDefault`: none for no text and for `null`, and otherwise an expression or a text to quote. -/
def literalDefault (type : String) (value : Option String) : Option DefaultValue :=
  match value.map trim with
  | none => none
  | some text =>
    if text = "" ∨ Text.asciiLower text.toList = "null".toList then none
    else if isNumericType type || isPreRenderedDefault text then some (.expression text)
    else some (.literal text)

/-- A definition of a column. -/
structure Definition where
  name : String
  type : String
  notNull : Bool
  default : Option DefaultValue
  comment : String
  deriving DecidableEq

/-- The default in a definition. -/
def defaultSql : Option DefaultValue → String
  | some default => " DEFAULT " ++ default.sql
  | none => ""

/-- The comment in a definition. -/
def commentSql (comment : String) : String :=
  if comment ≠ "" then " COMMENT '" ++ sqlString comment ++ "'" else ""

/-- The SQL of a definition. -/
def Definition.sql (definition : Definition) : String :=
  quoteIdentifier definition.name ++ " " ++ definition.type
    ++ (if definition.notNull then " NOT NULL" else "") ++ defaultSql definition.default
    ++ commentSql definition.comment

/-- What `requiredText` throws: it names the field that is missing. -/
inductive RequestError
  | missing (field : String)
  deriving DecidableEq

/-- The message of an error. -/
def RequestError.message : RequestError → String
  | .missing field => "missing required parameter `" ++ field ++ "`"

/-- `requiredText`: the trimmed text, which may not be blank. -/
def requiredText (field value : String) : Except RequestError String :=
  if trim value = "" then .error (.missing field) else .ok (trim value)

/-- `columnDefinition`: a column of the request as the clause of `ADD` and of `MODIFY COLUMN`: its name and
its type, which are required, NOT NULL, the default, AUTO_INCREMENT and, when asked for, the comment. -/
def columnDefinition (column : ColumnSpec) (includeComment : Bool) :
    Except RequestError Definition := do
  let name ← requiredText "name" column.name
  let type ← requiredText "type" column.typeStr
  return {
    name := name
    type := type
    notNull := !column.nullable
    default := literalDefault type column.default
    comment := if includeComment then trim column.comment else "" }

/-- The parts of a column from `readColumns` that its definition is made of. -/
structure CatalogColumn where
  name : String
  rawType : String
  nullable : Bool
  default : Option String
  comment : String
  deriving DecidableEq

/-- `columnDefault`: the trimmed text that the catalog holds, or none if that is blank. -/
def columnDefault (value : Option String) : Option String :=
  (value.map trim).filter (· ≠ "")

/-- `nullable`: whatever is not one of the four ways of saying no. -/
def nullableText (value : String) : Bool :=
  toUpperCase (trim value) ∉ [['N', 'O'], ['N'], ['0'], ['F', 'A', 'L', 'S', 'E']]

/-- The parts of a row of `information_schema.COLUMNS` that `readColumns` reads for these. -/
structure CatalogRow where
  name : String
  columnType : String
  nullable : String
  default : Option String
  comment : String
  deriving DecidableEq

/-- `readColumns`, for a row of the catalog. -/
def readColumn (row : CatalogRow) : CatalogColumn where
  name := trim row.name
  rawType := trim row.columnType
  nullable := nullableText (trim row.nullable)
  default := columnDefault row.default
  comment := trim row.comment

/-- `dumpColumnDefinition`. A default that is `null` comes as the text of that. -/
def dumpColumnDefinition (column : CatalogColumn) : Definition where
  name := column.name
  type := column.rawType
  notNull := !column.nullable
  default := literalDefault column.rawType (some (column.default.getD "null"))
  comment := if column.comment = "null" then "" else column.comment

/-! ### Changes of a table -/

/-- What `handleDdlBuildAlterTable` emits, each for one table. -/
inductive Statement
  | commentTable (comment : String)
  | renameColumn (oldName newName : String)
  | addColumn (definition : Definition)
  | dropColumn (name : String)
  | modifyColumn (definition : Definition)
  deriving DecidableEq

/-- The SQL of a statement. -/
def Statement.sql (tableName : String) : Statement → String
  | .commentTable comment => "ALTER TABLE " ++ tableName ++ " COMMENT = '" ++ sqlString comment ++ "'"
  | .renameColumn oldName newName => "ALTER TABLE " ++ tableName ++ " RENAME COLUMN "
    ++ quoteIdentifier oldName ++ " TO " ++ quoteIdentifier newName
  | .addColumn definition => "ALTER TABLE " ++ tableName ++ " ADD " ++ definition.sql
  | .dropColumn name => "ALTER TABLE " ++ tableName ++ " DROP " ++ quoteIdentifier name
  | .modifyColumn definition => "ALTER TABLE " ++ tableName ++ " MODIFY COLUMN " ++ definition.sql

/-- The lists that the handler fills. -/
@[ext] structure AlterScript where
  statements : List Statement
  rollback : List Statement
  warnings : List String

/-- A statement, with what takes it back in front of the rollback if there is to be one. -/
def AlterScript.push (script : AlterScript) (withRollback : Bool) (statement inverse : Statement) :
    AlterScript where
  statements := script.statements ++ [statement]
  rollback := if withRollback then inverse :: script.rollback else script.rollback
  warnings := script.warnings

/-- A column in `columnsByName`: the last one of a name. -/
def columnByName (spec : TableSpec) (name : String) : Option ColumnSpec :=
  if name = "" then none else spec.columns.reverse.find? fun column => column.name = name

/-- The comment of the table. -/
def commentTable (p : BuildAlterTableParams) (script : AlterScript) : AlterScript :=
  if trim p.fromSpec.comment ≠ trim p.toSpec.comment then
    script.push p.options.withRollback (.commentTable (trim p.toSpec.comment))
      (.commentTable (trim p.fromSpec.comment))
  else script

/-- The pass over `column_renames`: the names are sent as they came, and compared untrimmed. -/
def renameColumn (p : BuildAlterTableParams) (script : AlterScript) (rename : ColumnRenameSpec) :
    AlterScript :=
  if trim rename.oldName ≠ "" ∧ trim rename.newName ≠ "" ∧ rename.oldName ≠ rename.newName then
    script.push p.options.withRollback (.renameColumn rename.oldName rename.newName)
      (.renameColumn rename.newName rename.oldName)
  else script

/-- The pass that adds columns. -/
def addColumn (p : BuildAlterTableParams) (script : AlterScript) (column : ColumnSpec) :
    Except RequestError AlterScript :=
  if column.name ≠ "" ∧ columnByName p.fromSpec column.name = none then do
    let definition ← columnDefinition column true
    return script.push p.options.withRollback (.addColumn definition) (.dropColumn column.name)
  else return script

/-- The pass that drops columns. There is nothing that takes that back. -/
def dropColumn (p : BuildAlterTableParams) (script : AlterScript) (column : ColumnSpec) :
    AlterScript :=
  if column.name ≠ "" ∧ columnByName p.toSpec column.name = none then
    { script with
      statements := script.statements ++ [.dropColumn column.name]
      warnings := script.warnings ++ ["drop column may lose data: " ++ column.name] }
  else script

/-- The pass that changes the comments of columns. -/
def modifyColumn (p : BuildAlterTableParams) (script : AlterScript) (column : ColumnSpec) :
    Except RequestError AlterScript :=
  match columnByName p.fromSpec column.name with
  | none => return script
  | some fromColumn =>
    if trim fromColumn.comment ≠ trim column.comment then do
      let definition ← columnDefinition column true
      if p.options.withRollback then
        let original ← columnDefinition fromColumn true
        return script.push true (.modifyColumn definition) (.modifyColumn original)
      else return { script with statements := script.statements ++ [.modifyColumn definition] }
    else return script

/-- `handleDdlBuildAlterTable`: the name of the table and the lists. -/
def handleDdlBuildAlterTable (p : BuildAlterTableParams) :
    Except RequestError (String × AlterScript) := do
  let table ← requiredText "name" p.toSpec.name
  let script := commentTable p ⟨[], [], []⟩
  let script := p.columnRenames.foldl (renameColumn p) script
  let script ← p.toSpec.columns.foldlM (addColumn p) script
  let script :=
    if p.options.allowDestructive then p.fromSpec.columns.foldl (dropColumn p) script else script
  let script ← p.toSpec.columns.foldlM (modifyColumn p) script
  return (qualifiedIdentifier "" (p.toSpec.schema.getD "") table, script)

end Gbase8aDdl
end Navop
