import NavopExtensions.Lib.Text

/-!
# Requests that change a table

The parts of `extension_protocol::ddl` that the drivers' `build_alter_table` functions read, and what a
change of a table is that a user can ask for: its renames (`Renaming`), and what drivers that take the
same texts for blank ask of it besides (`Alteration`).
-/

namespace Navop
namespace ExtensionProtocol

/-- `ColumnSpec`: a column as the request describes it. -/
structure ColumnSpec where
  name : String
  typeStr : String
  nullable : Bool
  default : Option String
  isPrimary : Bool
  isUnique : Bool
  autoIncrement : Bool
  comment : String
  deriving DecidableEq

/-- `IndexSpec`: an index as the request describes it. -/
structure IndexSpec where
  name : String
  columns : List String
  kind : Option String
  isUnique : Bool
  whereClause : Option String
  deriving DecidableEq

/-- `TableSpec`, with the parts that changes of a table look at. -/
structure TableSpec where
  name : String
  schema : Option String
  database : Option String
  columns : List ColumnSpec
  indexes : List IndexSpec
  comment : String
  deriving DecidableEq

/-- `ColumnRenameSpec`: the name of a column, and the one it gets. -/
structure ColumnRenameSpec where
  oldName : String
  newName : String
  deriving DecidableEq

/-- `AlterTableOptions`: whether columns may be dropped, and whether to write a rollback. -/
structure AlterTableOptions where
  allowDestructive : Bool
  withRollback : Bool
  deriving DecidableEq

/-- `BuildAlterTableParams`: the table before and after, and which columns are renamed on the way. -/
structure BuildAlterTableParams where
  fromSpec : TableSpec
  toSpec : TableSpec
  columnRenames : List ColumnRenameSpec
  options : AlterTableOptions

/-- `value.trim().is_empty()`: whether there is nothing but blanks. -/
def isBlank (value : String) : Bool := (Text.trim value.toList).isEmpty

/-- The names of the columns. -/
def TableSpec.columnNames (spec : TableSpec) : List String := spec.columns.map ColumnSpec.name

/-- The column of a name. -/
def TableSpec.column? (spec : TableSpec) (name : String) : Option ColumnSpec :=
  spec.columns.find? fun column => column.name = name

/-- The renames bring columns of the one specification to new names of the other, where columns have
distinct names in both. -/
structure Renaming (p : BuildAlterTableParams) : Prop where
  from_nodup : p.fromSpec.columnNames.Nodup
  to_nodup : p.toSpec.columnNames.Nodup
  old_nodup : (p.columnRenames.map ColumnRenameSpec.oldName).Nodup
  new_nodup : (p.columnRenames.map ColumnRenameSpec.newName).Nodup
  old_mem : ∀ rename ∈ p.columnRenames, rename.oldName ∈ p.fromSpec.columnNames
  new_mem : ∀ rename ∈ p.columnRenames, rename.newName ∈ p.toSpec.columnNames
  new_notMem : ∀ rename ∈ p.columnRenames, rename.newName ∉ p.fromSpec.columnNames

/-- Two specifications of one table, whose columns have names and types, and renames from the one to the
other. -/
structure Alteration (p : BuildAlterTableParams) : Prop extends Renaming p where
  same : p.fromSpec.name = p.toSpec.name ∧ p.fromSpec.schema = p.toSpec.schema ∧
    p.fromSpec.database = p.toSpec.database
  named : isBlank p.toSpec.name = false
  columns_named : ∀ column ∈ p.fromSpec.columns ++ p.toSpec.columns, isBlank column.name = false
  columns_typed : ∀ column ∈ p.fromSpec.columns ++ p.toSpec.columns, isBlank column.typeStr = false

/-! ### Columns by their names -/

variable {spec : TableSpec} {name : String} {column : ColumnSpec} {p : BuildAlterTableParams}

theorem column?_eq_none : spec.column? name = none ↔ name ∉ spec.columnNames := by
  simp [TableSpec.column?, TableSpec.columnNames, List.find?_eq_none]

theorem column?_isSome : (spec.column? name).isSome ↔ name ∈ spec.columnNames := by
  rw [Option.isSome_iff_ne_none, ne_eq, column?_eq_none, not_not]

theorem column?_eq_some (hnodup : spec.columnNames.Nodup) :
    spec.column? name = some column ↔ column ∈ spec.columns ∧ column.name = name := by
  constructor
  · intro hfind
    exact ⟨List.mem_of_find?_eq_some hfind, by simpa using List.find?_some hfind⟩
  · rintro ⟨hmem, rfl⟩
    obtain ⟨found, hfound⟩ := Option.isSome_iff_exists.1
      (column?_isSome.2 (List.mem_map_of_mem hmem : column.name ∈ spec.columnNames))
    have hsame : found.name = column.name := by simpa using List.find?_some hfound
    have heq := List.inj_on_of_nodup_map hnodup (List.mem_of_find?_eq_some hfound) hmem hsame
    rw [hfound, heq]

/-- The renames, by their names. -/
def renamePairs (p : BuildAlterTableParams) : List (String × String) :=
  p.columnRenames.map fun rename => (rename.oldName, rename.newName)

theorem map_fst_renamePairs : (renamePairs p).map Prod.fst
    = p.columnRenames.map ColumnRenameSpec.oldName := by
  rw [renamePairs, List.map_map]
  rfl

theorem map_snd_renamePairs : (renamePairs p).map Prod.snd
    = p.columnRenames.map ColumnRenameSpec.newName := by
  rw [renamePairs, List.map_map]
  rfl

/-- A rename changes the name: the new one is not a name of the old specification. -/
theorem Renaming.ne (h : Renaming p) {rename : ColumnRenameSpec} (hrename : rename ∈ p.columnRenames) :
    rename.oldName ≠ rename.newName := fun heq =>
  h.new_notMem rename hrename (heq ▸ h.old_mem rename hrename)

/-- What is renamed has a name. -/
theorem Alteration.rename_named (h : Alteration p) {rename : ColumnRenameSpec}
    (hrename : rename ∈ p.columnRenames) :
    isBlank rename.oldName = false ∧ isBlank rename.newName = false := by
  obtain ⟨old, hold, holdName⟩ := List.mem_map.1 (h.old_mem rename hrename)
  obtain ⟨new, hnew, hnewName⟩ := List.mem_map.1 (h.new_mem rename hrename)
  rw [← holdName, ← hnewName]
  exact ⟨h.columns_named old (List.mem_append_left _ hold),
    h.columns_named new (List.mem_append_right _ hnew)⟩

/-- Other options change nothing about that. -/
theorem Alteration.withOptions (h : Alteration p) (options : AlterTableOptions) :
    Alteration { p with options := options } :=
  ⟨⟨h.from_nodup, h.to_nodup, h.old_nodup, h.new_nodup, h.old_mem, h.new_mem, h.new_notMem⟩,
    h.same, h.named, h.columns_named, h.columns_typed⟩

end ExtensionProtocol
end Navop
