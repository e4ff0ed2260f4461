import NavopExtensions.Dbipc.Ddl
import NavopExtensions.Lib.Script

/-!
# What statements do to a table

A table has columns with names and comments; a column is one of the original table or was added. The
statements for a missing column fail, and so do those that would give two columns one name.
-/

namespace Navop
namespace Dbipc

open Script

/-- Where a column comes from. -/
inductive Origin
  | original (column : ColumnDDL)
  | added (column : ColumnDDL)
  deriving DecidableEq

/-- A column of a table. -/
structure Column where
  name : String
  origin : Origin
  comment : String
  deriving DecidableEq

/-- A table as the statements see it: its columns in their order, and its comment. -/
structure Table where
  columns : List Column
  comment : String
  deriving DecidableEq

/-- The names of the columns. -/
def Table.names (table : Table) : List String := table.columns.map Column.name

/-- The table that a specification describes. -/
def TableSpec.table (spec : TableSpec) : Table where
  columns := spec.columns.map fun column => ⟨column.name, .original column, column.comment⟩
  comment := spec.comment

/-- A column gets another name. -/
def Table.rename (table : Table) (oldName newName : String) : Table where
  columns := table.columns.map fun column =>
    if column.name = oldName then { column with name := newName } else column
  comment := table.comment

/-- A column gets another comment. -/
def Table.commentOn (table : Table) (name comment : String) : Table where
  columns := table.columns.map fun column =>
    if column.name = name then { column with comment := comment } else column
  comment := table.comment

/-- A statement is executed. -/
def exec (table : Table) : Statement → Option Table
  | .renameColumn oldName newName =>
    if oldName ∈ table.names ∧ newName ∉ table.names then some (table.rename oldName newName)
    else none
  | .addColumn column _ =>
    if column.name ∈ table.names then none
    else some { table with columns := table.columns ++ [⟨column.name, .added column, ""⟩] }
  | .dropColumn name =>
    if name ∈ table.names then
      some { table with columns := table.columns.filter fun column => column.name ≠ name }
    else none
  | .commentTable comment => some { table with comment := comment }
  | .commentColumn name comment =>
    if name ∈ table.names then some (table.commentOn name comment) else none

variable {table table' : Table} {name : String}

@[simp] theorem names_table (spec : TableSpec) :
    spec.table.names = spec.columns.map ColumnDDL.name := by
  simp [Table.names, TableSpec.table]

@[simp] theorem names_commentOn (table : Table) (name comment : String) :
    (table.commentOn name comment).names = table.names := by
  unfold Table.names Table.commentOn
  rw [List.map_map]
  refine List.map_congr_left fun column _ => ?_
  change (if column.name = name then { column with comment := comment } else column).name
    = column.name
  split <;> rfl

/-- A new name takes the place of the old one. -/
theorem names_rename (table : Table) (oldName newName : String) :
    (table.rename oldName newName).names
      = table.names.map fun name => if name = oldName then newName else name := by
  unfold Table.names Table.rename
  rw [List.map_map, List.map_map]
  refine List.map_congr_left fun column _ => ?_
  change (if column.name = oldName then { column with name := newName } else column).name
    = if column.name = oldName then newName else column.name
  split <;> rfl

/-! ### Scripts that are emitted -/

variable {dialect : Dialect} {fromSpec toSpec : TableSpec} {renames : List ColumnRename}

/-- Steps that are emitted. -/
theorem foldl_emit (withRollback : Bool) (steps : List (Statement × Statement))
    (script : AlterScript) :
    steps.foldl (AlterScript.emit withRollback) script
      = ⟨script.statements ++ steps.map Prod.fst,
          (if withRollback then (steps.map Prod.snd).reverse else []) ++ script.rollback,
          script.warnings⟩ := by
  induction steps generalizing script with
  | nil => simp
  | cons step steps ih =>
    rw [List.foldl_cons, ih]
    cases withRollback
    · simp [AlterScript.emit]
    · simp [AlterScript.emit]

/-- Columns that are dropped. -/
theorem foldl_drop (columns : List ColumnDDL) (script : AlterScript) :
    columns.foldl (fun script column =>
        { script with
          statements := script.statements ++ [.dropColumn column.name]
          warnings := script.warnings ++ ["drop column may lose data: " ++ column.name] }) script
      = ⟨script.statements ++ columns.map fun column => .dropColumn column.name, script.rollback,
          script.warnings ++ columns.map fun column => "drop column may lose data: " ++ column.name⟩ := by
  induction columns generalizing script with
  | nil => simp
  | cons column columns ih =>
    rw [List.foldl_cons, ih]
    simp

theorem columnMap_isSome {columns : List ColumnDDL} :
    (columnMap columns name).isSome ↔ name ∈ columns.map ColumnDDL.name := by
  simp [columnMap, List.find?_isSome]

theorem columnMap_eq_none {columns : List ColumnDDL} :
    (columnMap columns name).isNone ↔ name ∉ columns.map ColumnDDL.name := by
  rw [← columnMap_isSome]
  simp

/-- The columns that are new. -/
def newColumns (fromSpec toSpec : TableSpec) : List ColumnDDL :=
  toSpec.columns.filter fun column => (columnMap fromSpec.columns column.name).isNone

/-- The step for a new column. -/
def addStep (dialect : Dialect) (column : ColumnDDL) : Statement × Statement :=
  (.addColumn column ((buildColumnDefinition dialect column).toOption.getD ""),
    .dropColumn column.name)

/-- The new columns are added, if all of them have a definition. -/
theorem addSteps_eq_ok {steps : List (Statement × Statement)}
    (h : addSteps dialect fromSpec toSpec = .ok steps) :
    steps = (newColumns fromSpec toSpec).map (addStep dialect) := by
  unfold addSteps at h
  unfold newColumns
  generalize (toSpec.columns.filter fun column =>
    (columnMap fromSpec.columns column.name).isNone) = columns at *
  induction columns generalizing steps with
  | nil => exact (Except.ok.inj h).symm
  | cons column columns ih =>
    rw [List.mapM_cons] at h
    cases hdef : buildColumnDefinition dialect column with
    -- a column that cannot be defined would have failed the whole pass
    | error message =>
      rw [hdef] at h
      exact absurd h (by simp [bind, Except.bind])
    | ok definition =>
      rw [hdef] at h
      simp only [bind, Except.bind, pure, Except.pure] at h
      split at h
      · exact absurd h (by simp)
      · next rest hrest =>
        obtain rfl := Except.ok.inj h
        rw [List.map_cons, ← ih hrest, addStep, hdef]
        rfl

/-- The steps for the comments, if the dialect has any. -/
def dialectCommentSteps (dialect : Dialect) (fromSpec toSpec : TableSpec) :
    List (Statement × Statement) :=
  if dialect.supportsComments then commentSteps fromSpec toSpec else []

/-- The statements for the columns that are gone, if they may be dropped. -/
def dropStatements (allowDestructive : Bool) (fromSpec toSpec : TableSpec) : List Statement :=
  if allowDestructive then (droppedColumns fromSpec toSpec).map fun column => .dropColumn column.name
  else []

/-- **The script of an altered table**: renames, additions, drops, comments; its rollback takes back
all but the drops. -/
theorem buildAlterTableSQL_eq_ok {options : AlterTableOptions} {tableName : String}
    {script : AlterScript}
    (h : buildAlterTableSQL dialect fromSpec toSpec renames options = .ok (tableName, script)) :
    script.statements = (renameSteps renames).map Prod.fst
        ++ (((newColumns fromSpec toSpec).map (addStep dialect)).map Prod.fst
        ++ (dropStatements options.allowDestructive fromSpec toSpec
        ++ (dialectCommentSteps dialect fromSpec toSpec).map Prod.fst)) ∧
      (options.withRollback = true →
        script.rollback = ((dialectCommentSteps dialect fromSpec toSpec).map Prod.snd).reverse
          ++ ((((newColumns fromSpec toSpec).map (addStep dialect)).map Prod.snd).reverse
          ++ ((renameSteps renames).map Prod.snd).reverse)) := by
  unfold buildAlterTableSQL at h
  dsimp only at h
  generalize (if toSpec.name = "" then fromSpec else toSpec) = named at h
  split at h
  · exact absurd h (by simp)
  · cases hadds : addSteps dialect fromSpec toSpec with
    | error message =>
      rw [hadds] at h
      exact absurd h (by simp [bind, Except.bind])
    | ok adds =>
      rw [hadds] at h
      obtain rfl := (Prod.mk.inj (Except.ok.inj h)).2
      rw [addSteps_eq_ok hadds]
      unfold dialectCommentSteps dropStatements
      obtain ⟨allowDestructive, withRollback⟩ := options
      -- the passes emit in order; drops have nothing to be rolled back with
      cases dialect.supportsComments
      · cases allowDestructive
        · simp +contextual [foldl_emit]
        · simp +contextual [foldl_emit, foldl_drop]
      · cases allowDestructive
        · simp +contextual [foldl_emit]
        · simp +contextual [foldl_emit, foldl_drop]

end Dbipc
end Navop
