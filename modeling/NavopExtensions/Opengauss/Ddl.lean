import NavopExtensions.ExtensionProtocol.Ddl

/-!
# Statements that change an openGauss table

The parts of `ddl.rs` that name things and change tables. A statement is kept with its parts;
`Statement.sql` is its text.
-/

namespace Navop
namespace OpengaussDdl

open ExtensionProtocol

/-! ### Names -/

/-- `quote_identifier`: in double quotes, those inside doubled. -/
def quoteIdentifier (value : String) : String := "\"" ++ value.replace "\"" "\"\"" ++ "\""

/-- `quote_literal`: in single quotes, those inside doubled. -/
def quoteLiteral (value : String) : String := "'" ++ value.replace "'" "''" ++ "'"

/-- `qualified_name`: whatever of database, schema and name is not blank, with dots between. -/
def qualifiedName (database schema : Option String) (name : String) : String :=
  ".".intercalate ((([database, schema, some name].filterMap id).filter fun value =>
    !isBlank value).map quoteIdentifier)

/-- `column_definition`: name and type are required, and the rest follows in the order of the clauses. -/
def columnDefinition (column : ColumnSpec) : Except String String :=
  if isBlank column.name then .error "column name is required"
  else if isBlank column.typeStr then .error ("column `" ++ column.name ++ "` type is required")
  else
    .ok (" ".intercalate ([quoteIdentifier column.name, column.typeStr]
      ++ (if column.autoIncrement then ["GENERATED BY DEFAULT AS IDENTITY"] else [])
      ++ (if !column.nullable then ["NOT NULL"] else [])
      ++ (match column.default.filter fun value => !isBlank value with
        | some default => ["DEFAULT", default]
        | none => [])
      ++ (if column.isUnique && !column.isPrimary then ["UNIQUE"] else [])))

/-! ### Statements -/

/-- A statement about a table. -/
inductive Statement
  | renameColumn (oldName newName : String)
  | addColumn (column : ColumnSpec) (definition : String)
  | dropColumn (name : String)
  | commentTable (comment : String)
  | commentColumn (name comment : String)
  deriving DecidableEq

/-- The text of a statement, for the qualified name of its table. -/
def Statement.sql (tableName : String) : Statement → String
  | .renameColumn oldName newName =>
    "ALTER TABLE " ++ tableName ++ " RENAME COLUMN " ++ quoteIdentifier oldName ++ " TO "
      ++ quoteIdentifier newName
  | .addColumn _ definition => "ALTER TABLE " ++ tableName ++ " ADD COLUMN " ++ definition
  | .dropColumn name => "ALTER TABLE " ++ tableName ++ " DROP COLUMN " ++ quoteIdentifier name
  | .commentTable comment => "COMMENT ON TABLE " ++ tableName ++ " IS " ++ quoteLiteral comment
  | .commentColumn name comment =>
    "COMMENT ON COLUMN " ++ tableName ++ "." ++ quoteIdentifier name ++ " IS " ++ quoteLiteral comment

/-- `BuildAlterTableResult`: the statements, what takes them back, and what the user should know. -/
structure AlterScript where
  statements : List Statement
  rollback : List Statement
  warnings : List String

/-- A statement is pushed. -/
def AlterScript.push (script : AlterScript) (statement : Statement) : AlterScript :=
  { script with statements := script.statements ++ [statement] }

/-- If a rollback is wanted, a statement is inserted in front of it. -/
def AlterScript.undo (withRollback : Bool) (script : AlterScript) (statement : Statement) :
    AlterScript :=
  if withRollback then { script with rollback := statement :: script.rollback } else script

/-- A rename; one with a blank name is left out. -/
def renameColumn (withRollback : Bool) (script : AlterScript) (rename : ColumnRenameSpec) :
    AlterScript :=
  if isBlank rename.oldName || isBlank rename.newName then script
  else (script.push (.renameColumn rename.oldName rename.newName)).undo withRollback
    (.renameColumn rename.newName rename.oldName)

/-- The columns that are added: those of new names, but for the targets of renames. -/
def addedColumns (p : BuildAlterTableParams) : List ColumnSpec :=
  p.toSpec.columns.filter fun column =>
    column.name ∉ p.columnRenames.map ColumnRenameSpec.newName ∧
      column.name ∉ p.fromSpec.columnNames

/-- A column is added; a comment needs a statement of its own. -/
def addColumn (withRollback : Bool) (script : AlterScript) (column : ColumnSpec) :
    Except String AlterScript := do
  let definition ← columnDefinition column
  let script := (script.push (.addColumn column definition)).undo withRollback
    (.dropColumn column.name)
  return if isBlank column.comment then script
    else script.push (.commentColumn column.name column.comment)

/-- The columns that are dropped: those whose names are not there any more. -/
def droppedColumns (p : BuildAlterTableParams) : List ColumnSpec :=
  p.fromSpec.columns.filter fun column => column.name ∉ p.toSpec.columnNames

/-- A column is dropped, with a warning. -/
def dropColumn (script : AlterScript) (column : ColumnSpec) : AlterScript :=
  { script.push (.dropColumn column.name) with
    warnings := script.warnings ++ ["drop column may lose data: " ++ column.name] }

/-- The comment of a column, if it changes. The names of `fromSpec` are collected in a map, in which
the last column of a name counts. -/
def diffComment (withRollback : Bool) (fromSpec : TableSpec) (script : AlterScript)
    (column : ColumnSpec) : AlterScript :=
  if column.name = "" then script
  else match fromSpec.columns.reverse.find? fun before => before.name = column.name with
    | none => script
    | some before =>
      if before.comment = column.comment then script
      else (script.push (.commentColumn column.name column.comment)).undo withRollback
        (.commentColumn column.name before.comment)

/-- `diff_comments`: that of the table first, then those of the columns that both tables have. -/
def diffComments (withRollback : Bool) (fromSpec toSpec : TableSpec) (script : AlterScript) :
    AlterScript :=
  let script :=
    if fromSpec.comment ≠ toSpec.comment then
      (script.push (.commentTable toSpec.comment)).undo withRollback (.commentTable fromSpec.comment)
    else script
  toSpec.columns.foldl (diffComment withRollback fromSpec) script

/-- `build_alter_table`, with the qualified name of the table. -/
def buildAlterTable (p : BuildAlterTableParams) : Except String (String × AlterScript) :=
  let table := if isBlank p.toSpec.name then p.fromSpec else p.toSpec
  if isBlank table.name then .error "alter table requires table name"
  else do
    let withRollback := p.options.withRollback
    let script := p.columnRenames.foldl (renameColumn withRollback) ⟨[], [], []⟩
    let script ← (addedColumns p).foldlM (addColumn withRollback) script
    let script := if p.options.allowDestructive then (droppedColumns p).foldl dropColumn script
      else script
    return (qualifiedName table.database table.schema table.name,
      diffComments withRollback p.fromSpec p.toSpec script)

end OpengaussDdl
end Navop
