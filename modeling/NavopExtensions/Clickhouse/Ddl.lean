import NavopExtensions.ExtensionProtocol.Ddl

/-!
# Statements that change a ClickHouse table

The parts of `ddl.rs` that name and define columns and indexes, and `build_alter_table`. A statement is
kept with its parts, a warning with what it is about; `Statement.sql` and `Warning.text` are their texts.
-/

namespace Navop
namespace ClickhouseDdl

open ExtensionProtocol

/-! ### Names and definitions -/

/-- `str::trim`: without the blanks at both ends. -/
def trimmed (value : String) : String := String.ofList (Text.trim value.toList)

/-- `metadata::quote_identifier`: in backquotes, those inside of the name doubled. -/
def quoteIdentifier (identifier : String) : String := "`" ++ identifier.replace "`" "``" ++ "`"

/-- `escape_string`: backslashes and quotes are doubled, for a literal in quotes. -/
def escapeString (value : String) : String := (value.replace "\\" "\\\\").replace "'" "''"

/-- `table_reference`: the table's name, behind its database unless that is blank. -/
def tableReference (spec : TableSpec) : String :=
  match spec.database.filter fun database => !isBlank database with
  | some database => quoteIdentifier (trimmed database) ++ "." ++ quoteIdentifier (trimmed spec.name)
  | none => quoteIdentifier (trimmed spec.name)

/-- `is_nullable_type`: whether the type is already wrapped, whatever the case. -/
def isNullableType (dataType : String) : Bool :=
  "nullable(".toList.isPrefixOf (Text.asciiLower (Text.trimStart dataType.toList))

/-- A type, in `Nullable` if it has to be. -/
def nullableType (nullable : Bool) (dataType : String) : String :=
  if nullable && !isNullableType dataType then "Nullable(" ++ dataType ++ ")" else dataType

/-- `effective_type`: the type as it is written, wrapped in `Nullable` if the column may be null. -/
def effectiveType (column : ColumnSpec) : String :=
  -- a type that is wrapped already is not wrapped again
  nullableType column.nullable (trimmed column.typeStr)

/-- What `build_alter_table` warns about: changes that it leaves out or cannot express. -/
inductive Warning
  | wouldDrop (count : ℕ)
  | destructiveChange (column : String)
  | nullabilityChange (column : String)
  | noType (column : String)
  | noAutoIncrement (column : String)
  | noUnique (column : String)
  | noExpression (index : String)
  | noUniqueIndex (index : String)
  | noChanges
  deriving DecidableEq

/-- The text of a warning. -/
def Warning.text : Warning → String
  | .wouldDrop count => toString count
    ++ " column(s) would be dropped; enable allow_destructive to generate DROP COLUMN statements"
  | .destructiveChange column => "column `" ++ column
    ++ "` type/nullability change is destructive; enable allow_destructive to generate MODIFY COLUMN"
  | .nullabilityChange column => "column `" ++ column ++ "` nullability change rewrites existing data"
  | .noType column => "column `" ++ column ++ "` has no type; defaulting to String"
  | .noAutoIncrement column =>
    "ClickHouse has no auto increment column; `" ++ column ++ "` is created without it"
  | .noUnique column =>
    "ClickHouse does not enforce UNIQUE constraints; `" ++ column ++ "` is created without it"
  | .noExpression index => "index `" ++ index ++ "` has no expression; skipped"
  | .noUniqueIndex index =>
    "ClickHouse does not support unique indexes; `" ++ index ++ "` is skipped"
  | .noChanges => "No changes detected"

/-- The type that a definition gives a column. -/
def writtenType (column : ColumnSpec) : String :=
  let dataType := trimmed column.typeStr
  -- a column that has no type gets `String`
  nullableType column.nullable (if dataType = "" then "String" else dataType)

/-- The default expression that a definition gives a column. -/
def writtenDefault (column : ColumnSpec) : Option String :=
  (column.default.map trimmed).filter fun default =>
    -- a default of `NULL` is what a nullable column has anyway
    default ≠ "" && !Text.eqIgnoreAsciiCase default.toList "null".toList

/-- The comment that a definition gives a column. -/
def writtenComment (column : ColumnSpec) : Option String :=
  if isBlank column.comment then none else some column.comment

/-- `column_definition`: name, type, default and comment, of which the last two may be missing. -/
def columnDefinition (column : ColumnSpec) : String :=
  quoteIdentifier column.name ++ " " ++ writtenType column
    ++ (match writtenDefault column with
      | some default => " DEFAULT " ++ default
      | none => "")
    ++ (match writtenComment column with
      | some comment => " COMMENT '" ++ escapeString comment ++ "'"
      | none => "")

/-- The warnings of `column_definition_with`: what a column asks for and the definition leaves out. -/
def columnWarnings (column : ColumnSpec) : List Warning :=
  (if trimmed column.typeStr = "" then [.noType column.name] else [])
    ++ (if column.autoIncrement then [.noAutoIncrement column.name] else [])
    ++ (if column.isUnique then [.noUnique column.name] else [])

/-- The expression of an index. -/
def indexExpression (index : IndexSpec) : String := ", ".intercalate index.columns

/-- The kind of an index. -/
def indexKind (index : IndexSpec) : String :=
  ((index.kind.map trimmed).filter fun kind => kind ≠ "").getD "minmax"

/-- `index_definition`, or the warning for which the index is left out. -/
def indexDefinition (index : IndexSpec) : Except Warning String :=
  -- the expression is looked at first: an index without one is never called unique
  if isBlank (indexExpression index) then .error (.noExpression index.name)
  else if index.isUnique then .error (.noUniqueIndex index.name)
  else .ok ("INDEX " ++ quoteIdentifier index.name ++ " " ++ indexExpression index ++ " TYPE "
    ++ indexKind index ++ " GRANULARITY 1")

/-! ### Statements -/

/-- A statement about a table. -/
inductive Statement
  | renameColumn (oldName newName : String)
  | dropColumn (name : String)
  | modifyColumn (column : ColumnSpec)
  | addColumn (column : ColumnSpec)
  | dropIndex (name : String)
  | addIndex (index : IndexSpec) (definition : String)
  deriving DecidableEq

/-- The text of a statement, for the reference of its table. -/
def Statement.sql (table : String) : Statement → String
  | .renameColumn oldName newName =>
    "ALTER TABLE " ++ table ++ " RENAME COLUMN " ++ quoteIdentifier oldName ++ " TO "
      ++ quoteIdentifier newName ++ ";"
  | .dropColumn name => "ALTER TABLE " ++ table ++ " DROP COLUMN " ++ quoteIdentifier name ++ ";"
  | .modifyColumn column => "ALTER TABLE " ++ table ++ " MODIFY COLUMN " ++ columnDefinition column ++ ";"
  | .addColumn column => "ALTER TABLE " ++ table ++ " ADD COLUMN " ++ columnDefinition column ++ ";"
  | .dropIndex name => "ALTER TABLE " ++ table ++ " DROP INDEX " ++ quoteIdentifier name ++ ";"
  | .addIndex _ definition => "ALTER TABLE " ++ table ++ " ADD " ++ definition ++ ";"

/-- `BuildAlterTableResult`; its rollback is always empty. -/
@[ext] structure AlterScript where
  statements : List Statement
  warnings : List Warning

/-- A statement is pushed. -/
def AlterScript.push (script : AlterScript) (statement : Statement) : AlterScript :=
  { script with statements := script.statements ++ [statement] }

/-- The warnings are put behind those that the script has already. -/
def AlterScript.warn (script : AlterScript) (warnings : List Warning) : AlterScript :=
  { script with warnings := script.warnings ++ warnings }

/-- A column is renamed; both names are required. -/
def renameColumn (script : AlterScript) (rename : ColumnRenameSpec) : Except String AlterScript :=
  if isBlank rename.oldName || isBlank rename.newName then
    .error "column rename requires both old_name and new_name"
  else .ok (script.push (.renameColumn rename.oldName rename.newName))

/-- The column that a column of the new specification was: that of its name, or the one that was
renamed to it. -/
def originalColumn (p : BuildAlterTableParams) (name : String) : Option ColumnSpec :=
  -- a column of that name wins over a rename; of several renames to the name the last one counts
  (p.fromSpec.column? name).or
    ((p.columnRenames.reverse.find? fun rename => rename.newName = name).bind fun rename =>
      p.fromSpec.column? rename.oldName)

/-- The columns that are neither renamed nor in the new specification. -/
def droppedColumns (p : BuildAlterTableParams) : List ColumnSpec :=
  p.fromSpec.columns.filter fun old =>
    -- the old name of a rename is not missed, whether or not there is such a column
    old.name ∉ p.columnRenames.map ColumnRenameSpec.oldName ∧ old.name ∉ p.toSpec.columnNames

/-- A column is dropped. -/
def dropColumn (script : AlterScript) (column : ColumnSpec) : AlterScript :=
  script.push (.dropColumn column.name)

/-- Whether the type of a column changes. -/
def typeChanged (old column : ColumnSpec) : Bool :=
  !Text.eqIgnoreAsciiCase (effectiveType old).toList (effectiveType column).toList

/-- Whether the default expression of a column changes. -/
def defaultChanged (old column : ColumnSpec) : Bool := old.default ≠ column.default

/-- A column is modified, if its type or its default expression changes. -/
def modifyColumn (p : BuildAlterTableParams) (script : AlterScript) (column : ColumnSpec) :
    AlterScript :=
  match originalColumn p column.name with
  -- that is a new column, for `addColumn`
  | none => script
  | some old =>
    -- the case of the letters of a type does not matter
    if !typeChanged old column && !defaultChanged old column then script
    -- a change that is refused takes a changed default with it
    else if !p.options.allowDestructive && (typeChanged old column || old.nullable ≠ column.nullable)
    then script.warn [.destructiveChange column.name]
    else
      -- rewriting data is allowed by now, and still told
      (if old.nullable ≠ column.nullable then script.warn [.nullabilityChange column.name]
        else script).push (.modifyColumn column)

/-- A column is added, if it is new. -/
def addColumn (p : BuildAlterTableParams) (script : AlterScript) (column : ColumnSpec) : AlterScript :=
  if (originalColumn p column.name).isSome then script
  -- the warnings come from the definition, which a column that is modified gets without them
  else (script.warn (columnWarnings column)).push (.addColumn column)

/-- An index is dropped, if it is not in the new specification. -/
def dropIndex (p : BuildAlterTableParams) (script : AlterScript) (index : IndexSpec) : AlterScript :=
  if p.toSpec.indexes.any fun new => new.name = index.name then script
  else script.push (.dropIndex index.name)

/-- An index is added, if its name is new and it can be defined. -/
def addIndex (p : BuildAlterTableParams) (script : AlterScript) (index : IndexSpec) : AlterScript :=
  -- an index that keeps its name is not compared any further
  if index.name ∈ p.fromSpec.indexes.map IndexSpec.name then script
  else match indexDefinition index with
    | .ok definition => script.push (.addIndex index definition)
    | .error warning => script.warn [warning]

/-- The warning of a script that has nothing else to say. -/
def AlterScript.finish (script : AlterScript) : AlterScript :=
  if script.statements.isEmpty && script.warnings.isEmpty then script.warn [.noChanges] else script

/-- `build_alter_table`, with the reference of the table. -/
def buildAlterTable (p : BuildAlterTableParams) : Except String (String × AlterScript) := do
  -- the renames come first: later statements are about the new names
  let script ← p.columnRenames.foldlM renameColumn ⟨[], []⟩
  let dropped := droppedColumns p
  let script :=
    -- without the permission a single warning counts them all
    if p.options.allowDestructive then dropped.foldl dropColumn script
    else if !dropped.isEmpty then script.warn [.wouldDrop dropped.length]
    else script
  let script := p.toSpec.columns.foldl (modifyColumn p) script
  let script := p.toSpec.columns.foldl (addColumn p) script
  let script := p.fromSpec.indexes.foldl (dropIndex p) script
  let script := p.toSpec.indexes.foldl (addIndex p) script
  return (tableReference p.toSpec, script.finish)

end ClickhouseDdl
end Navop
