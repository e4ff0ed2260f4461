import NavopExtensions.Dbipc.Cell

/-!
# Statements that define tables

The parts of `internal/dbipc/ddl.go` that name things and change tables: quoting, column definitions
and `buildAlterTableSQL`. A statement is kept with its parts; `Statement.sql` is its text.
-/

namespace Navop
namespace Dbipc

/-- The part of `DriverSpec` that says how a dialect writes statements. -/
structure Dialect where
  identifierQuoteLeft : String
  identifierQuoteRight : String
  supportsComments : Bool
  deriving DecidableEq

/-- `columnDDL`: a column as the request describes it. -/
structure ColumnDDL where
  name : String
  type : String
  nullable : Option Bool
  default : Option String
  isPrimary : Bool
  isUnique : Bool
  autoIncrement : Bool
  comment : String
  deriving DecidableEq

/-- `tableSpec`, with the parts that changes of a table look at. -/
structure TableSpec where
  name : String
  schema : String
  database : String
  columns : List ColumnDDL
  comment : String
  deriving DecidableEq

/-- `columnRenameDDL`: the name of a column, and the one it gets. -/
structure ColumnRename where
  oldName : String
  newName : String
  deriving DecidableEq

/-- `alterTableOptions`: whether columns may be dropped, and whether to write a rollback. -/
structure AlterTableOptions where
  allowDestructive : Bool
  withRollback : Bool
  deriving DecidableEq

/-! ### Names -/

/-- `quoteIdentifier`: between the marks of the dialect, or double quotes if it has none, with the right
mark doubled inside. -/
def quoteIdentifier (dialect : Dialect) (name : String) : String :=
  let plain := dialect.identifierQuoteLeft = "" ∧ dialect.identifierQuoteRight = ""
  let left := if plain then "\"" else dialect.identifierQuoteLeft
  let right := if plain then "\"" else dialect.identifierQuoteRight
  let right := if right = "" then left else right
  left ++ name.replace right (right ++ right) ++ right

/-- `quoteIdentifierList`: the names that are not empty, quoted, with commas between them. -/
def quoteIdentifierList (dialect : Dialect) (names : List String) : String :=
  ", ".intercalate ((names.filter (· ≠ "")).map (quoteIdentifier dialect))

/-- `qualifiedTableName`: the parts that are not blank, quoted, with dots between them. -/
def qualifiedTableName (dialect : Dialect) (database schema name : String) : String :=
  ".".intercalate (([database, schema, name].filter (trimSpace · ≠ "")).map
    (quoteIdentifier dialect))

/-- `escapeSQLLiteral`: quotes are doubled. -/
def escapeSQLLiteral (value : String) : String := value.replace "'" "''"

/-- `buildColumnDefinition`: name and type, which are required, and then the clauses in their order. -/
def buildColumnDefinition (dialect : Dialect) (column : ColumnDDL) : Except String String :=
  if column.name = "" then .error "column name is required"
  else if trimSpace column.type = "" then
    .error ("column " ++ column.name ++ " type is required")
  else
    .ok (" ".intercalate ([quoteIdentifier dialect column.name, column.type]
      ++ (if column.autoIncrement then ["GENERATED BY DEFAULT AS IDENTITY"] else [])
      ++ (if column.nullable = some false then ["NOT NULL"] else [])
      ++ (match column.default with
        | some value => if trimSpace value ≠ "" then ["DEFAULT", value] else []
        | none => [])
      ++ (if column.isUnique && !column.isPrimary then ["UNIQUE"] else [])))

/-! ### Statements -/

/-- A statement about a table. -/
inductive Statement
  | renameColumn (oldName newName : String)
  | addColumn (column : ColumnDDL) (definition : String)
  | dropColumn (name : String)
  | commentTable (comment : String)
  | commentColumn (name comment : String)
  deriving DecidableEq

/-- The text of a statement, for the qualified name of its table. -/
def Statement.sql (dialect : Dialect) (tableName : String) : Statement → String
  | .renameColumn oldName newName =>
    "ALTER TABLE " ++ tableName ++ " RENAME COLUMN " ++ quoteIdentifier dialect oldName ++ " TO "
      ++ quoteIdentifier dialect newName
  | .addColumn _ definition => "ALTER TABLE " ++ tableName ++ " ADD COLUMN " ++ definition
  | .dropColumn name => "ALTER TABLE " ++ tableName ++ " DROP COLUMN " ++ quoteIdentifier dialect name
  | .commentTable comment =>
    "COMMENT ON TABLE " ++ tableName ++ " IS '" ++ escapeSQLLiteral comment ++ "'"
  | .commentColumn name comment =>
    "COMMENT ON COLUMN " ++ tableName ++ "." ++ quoteIdentifier dialect name ++ " IS '"
      ++ escapeSQLLiteral comment ++ "'"

/-- The lists that `buildAlterTableSQL` fills. -/
structure AlterScript where
  statements : List Statement
  rollback : List Statement
  warnings : List String

/-- A statement is appended, and if a rollback is wanted, its inverse goes in front of that. -/
def AlterScript.emit (withRollback : Bool) (script : AlterScript) (step : Statement × Statement) :
    AlterScript where
  statements := script.statements ++ [step.1]
  rollback := if withRollback then step.2 :: script.rollback else script.rollback
  warnings := script.warnings

/-- A map from the names of columns: the last column of a name counts. -/
def columnMap (columns : List ColumnDDL) (name : String) : Option ColumnDDL :=
  columns.reverse.find? fun column => column.name = name

/-- The statements for the renames. Those with an empty name are left out. -/
def renameSteps (renames : List ColumnRename) : List (Statement × Statement) :=
  (renames.filter fun rename => rename.oldName ≠ "" ∧ rename.newName ≠ "").map fun rename =>
    (.renameColumn rename.oldName rename.newName, .renameColumn rename.newName rename.oldName)

/-- The statements for the columns that are new. -/
def addSteps (dialect : Dialect) (fromSpec toSpec : TableSpec) :
    Except String (List (Statement × Statement)) :=
  (toSpec.columns.filter fun column => (columnMap fromSpec.columns column.name).isNone).mapM
    fun column => do
      let definition ← buildColumnDefinition dialect column
      return (.addColumn column definition, .dropColumn column.name)

/-- The columns that are gone. -/
def droppedColumns (fromSpec toSpec : TableSpec) : List ColumnDDL :=
  fromSpec.columns.filter fun column => (columnMap toSpec.columns column.name).isNone

/-- `diffComments`: the statements for the comments that change. -/
def commentSteps (fromSpec toSpec : TableSpec) : List (Statement × Statement) :=
  (if fromSpec.comment ≠ toSpec.comment then
      [(.commentTable toSpec.comment, .commentTable fromSpec.comment)] else [])
    ++ toSpec.columns.filterMap fun column =>
      match columnMap fromSpec.columns column.name with
      | some before =>
        if column.name = "" ∨ before.comment = column.comment then none
        else some (.commentColumn column.name column.comment,
          .commentColumn column.name before.comment)
      | none => none

/-- `buildAlterTableSQL`, with the statements and the qualified name of their table. -/
def buildAlterTableSQL (dialect : Dialect) (fromSpec toSpec : TableSpec)
    (renames : List ColumnRename) (options : AlterTableOptions) : Except String (String × AlterScript) :=
  let table := if toSpec.name = "" then fromSpec else toSpec
  if table.name = "" then .error "alter table requires a table name"
  else do
    let emit := AlterScript.emit options.withRollback
    let script := (renameSteps renames).foldl emit ⟨[], [], []⟩
    let script := (← addSteps dialect fromSpec toSpec).foldl emit script
    let script := if options.allowDestructive then
        (droppedColumns fromSpec toSpec).foldl (fun script column =>
          { script with
            statements := script.statements ++ [.dropColumn column.name]
            warnings := script.warnings ++ ["drop column may lose data: " ++ column.name] }) script
      else script
    let script := if dialect.supportsComments then (commentSteps fromSpec toSpec).foldl emit script
      else script
    return (qualifiedTableName dialect table.database table.schema table.name, script)

end Dbipc
end Navop
