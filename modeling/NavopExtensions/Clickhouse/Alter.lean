import NavopExtensions.Clickhouse.Ddl
import NavopExtensions.Lib.Catalog

/-!
# Reaching another ClickHouse table

A table has columns with types, default expressions and comments, and skipping indexes. The passes of
`build_alter_table` look at parts of these: a column is modified if its type changes, but for the case of
letters, or its default expression as it is written; an index of the same name is never looked at. What is
left out is silently different, unless an index that cannot be defined gives a warning
(`alter_right_iff`).
-/

namespace Navop
namespace ClickhouseDdl

open ExtensionProtocol Script

/-! ### Tables -/

/-- A column of a table. -/
structure Column where
  type : String
  default : Option String
  comment : String
  deriving DecidableEq

/-- A skipping index, as the statements describe it: over an expression, and of a kind. -/
structure Index where
  expression : String
  kind : String
  deriving DecidableEq

/-- A table as the statements see it: its columns and its indexes, by name. -/
@[ext] structure Table where
  columns : String → Option Column
  indexes : String → Option Index

/-- The column that a specification describes. -/
def columnOf (column : ColumnSpec) : Column :=
  ⟨effectiveType column, writtenDefault column, column.comment⟩

/-- The index that a specification describes. -/
def indexOf (index : IndexSpec) : Index := ⟨indexExpression index, indexKind index⟩

/-- The index of a name. -/
def index? (spec : TableSpec) (name : String) : Option IndexSpec :=
  spec.indexes.find? fun index => index.name = name

/-- The table that a specification describes. -/
def tableOf (spec : TableSpec) : Table where
  columns name := (spec.column? name).map columnOf
  indexes name := (index? spec name).map indexOf

/-- What `MODIFY COLUMN` leaves as it is where the definition does not say. -/
structure Server where
  keepsDefault : Bool
  keepsComment : Bool

/-- A column is modified. -/
def Server.modify (server : Server) (column : ColumnSpec) (before : Column) : Column where
  type := writtenType column
  default := (writtenDefault column).or (if server.keepsDefault then before.default else none)
  comment := (writtenComment column).getD (if server.keepsComment then before.comment else "")

/-- The column that is added. -/
def addedColumn (column : ColumnSpec) : Column :=
  ⟨writtenType column, writtenDefault column, (writtenComment column).getD ""⟩

/-- A command on the columns. -/
def Table.onColumns (table : Table) (command : Catalog.Command String Column) : Option Table :=
  (Catalog.exec table.columns command).map fun columns => { table with columns := columns }

/-- A command on the indexes. -/
def Table.onIndexes (table : Table) (command : Catalog.Command String Index) : Option Table :=
  (Catalog.exec table.indexes command).map fun indexes => { table with indexes := indexes }

/-- A statement is executed. -/
def exec (server : Server) (table : Table) : Statement → Option Table
  | .renameColumn oldName newName => table.onColumns (.rename oldName newName)
  | .dropColumn name => table.onColumns (.drop name)
  | .modifyColumn column => table.onColumns (.alter column.name (server.modify column))
  | .addColumn column => table.onColumns (.add column.name (addedColumn column))
  | .dropIndex name => table.onIndexes (.drop name)
  | .addIndex index _ => table.onIndexes (.add index.name (indexOf index))

/-- A warning names a difference between a table and a specification. -/
def Warning.Names (table : Table) (spec : TableSpec) : Warning → Prop
  | .wouldDrop _ => ∃ name, (table.columns name).isSome ∧ name ∉ spec.columnNames
  | .destructiveChange name | .noType name => ∃ column ∈ spec.columns, column.name = name ∧
    (table.columns name).map Column.type ≠ some (effectiveType column)
  | .noExpression name | .noUniqueIndex name => ∃ index ∈ spec.indexes, index.name = name ∧
    table.indexes name ≠ some (indexOf index)
  | _ => False

/-- The script does what it is for: it can be executed; it reaches the new specification, or a warning
names a difference that is left; and nothing is said to change only if the specifications agree. -/
def Right (server : Server) (p : BuildAlterTableParams) : Prop :=
  ∃ reference script table, buildAlterTable p = .ok (reference, script) ∧
    run (exec server) (tableOf p.fromSpec) script.statements = some table ∧
    (table = tableOf p.toSpec ∨ ∃ warning ∈ script.warnings, warning.Names table p.toSpec) ∧
    (.noChanges ∈ script.warnings → tableOf p.fromSpec = tableOf p.toSpec)

/-- Two specifications whose indexes have distinct names, too. -/
structure IndexedAlteration (p : BuildAlterTableParams) : Prop extends Alteration p where
  fromIndexes_nodup : (p.fromSpec.indexes.map IndexSpec.name).Nodup
  toIndexes_nodup : (p.toSpec.indexes.map IndexSpec.name).Nodup
  indexes_named : ∀ index ∈ p.fromSpec.indexes ++ p.toSpec.indexes, isBlank index.name = false

variable {p : BuildAlterTableParams} {server : Server} {table : Table}

/-! ### The script -/

/-- Whether a column is modified. -/
def changed (old column : ColumnSpec) : Bool := typeChanged old column || defaultChanged old column

/-- The columns that are modified. -/
def modifiedColumns (p : BuildAlterTableParams) : List ColumnSpec :=
  p.toSpec.columns.filter fun column =>
    (originalColumn p column.name).any fun old => changed old column

/-- The columns that are added. -/
def addedColumns (p : BuildAlterTableParams) : List ColumnSpec :=
  p.toSpec.columns.filter fun column => (originalColumn p column.name).isNone

/-- The indexes that are dropped. -/
def droppedIndexes (p : BuildAlterTableParams) : List IndexSpec :=
  p.fromSpec.indexes.filter fun index => index.name ∉ p.toSpec.indexes.map IndexSpec.name

/-- The indexes of new names. -/
def newIndexes (p : BuildAlterTableParams) : List IndexSpec :=
  p.toSpec.indexes.filter fun index => index.name ∉ p.fromSpec.indexes.map IndexSpec.name

/-- An index that can be defined. -/
def Definable (index : IndexSpec) : Prop :=
  isBlank (indexExpression index) = false ∧ index.isUnique = false

instance (index : IndexSpec) : Decidable (Definable index) := inferInstanceAs (Decidable (_ ∧ _))

/-- The definition of an index that can be defined. -/
def definition (index : IndexSpec) : String := (indexDefinition index).toOption.getD ""

theorem indexDefinition_of_definable {index : IndexSpec} (h : Definable index) :
    indexDefinition index = .ok (definition index) := by
  simp [definition, indexDefinition, h.1, h.2, Except.toOption]

theorem indexDefinition_of_not {index : IndexSpec} (h : ¬ Definable index) :
    indexDefinition index = .error (.noExpression index.name) ∨
      indexDefinition index = .error (.noUniqueIndex index.name) := by
  unfold indexDefinition
  split
  · exact .inl rfl
  · next hexpression =>
    split
    · exact .inr rfl
    · next hunique => exact absurd ⟨by simpa using hexpression, by simpa using hunique⟩ h

/-- The statements of a script that may drop columns. -/
def statements (p : BuildAlterTableParams) : List Statement :=
  p.columnRenames.map (fun rename => .renameColumn rename.oldName rename.newName)
    ++ ((droppedColumns p).map (fun column => .dropColumn column.name)
    ++ ((modifiedColumns p).map .modifyColumn
    ++ ((addedColumns p).map .addColumn
    ++ ((droppedIndexes p).map (fun index => .dropIndex index.name)
    ++ ((newIndexes p).filter fun index => Definable index).map fun index =>
      .addIndex index (definition index)))))

/-- The warning for a column that is modified. -/
def modifyWarnings (p : BuildAlterTableParams) (column : ColumnSpec) : List Warning :=
  if (originalColumn p column.name).any fun old =>
      changed old column && decide (old.nullable ≠ column.nullable)
  then [.nullabilityChange column.name] else []

/-- The warnings for a column that is added. -/
def addWarnings (p : BuildAlterTableParams) (column : ColumnSpec) : List Warning :=
  if (originalColumn p column.name).isNone then columnWarnings column else []

/-- The warning for an index. -/
def indexWarnings (p : BuildAlterTableParams) (index : IndexSpec) : List Warning :=
  if index.name ∈ p.fromSpec.indexes.map IndexSpec.name then []
  else match indexDefinition index with
    | .ok _ => []
    | .error warning => [warning]

/-- The warnings of a script that may drop columns. -/
def warnings (p : BuildAlterTableParams) : List Warning :=
  p.toSpec.columns.flatMap (modifyWarnings p)
    ++ (p.toSpec.columns.flatMap (addWarnings p) ++ p.toSpec.indexes.flatMap (indexWarnings p))

theorem foldlM_renameColumn (h : ∀ rename ∈ p.columnRenames,
      isBlank rename.oldName = false ∧ isBlank rename.newName = false) :
    p.columnRenames.foldlM renameColumn ⟨[], []⟩
      = .ok ⟨p.columnRenames.map fun rename => .renameColumn rename.oldName rename.newName, []⟩ := by
  -- from any script on, not only from the empty one
  have hfold : ∀ (renames : List ColumnRenameSpec) (script : AlterScript),
      (∀ rename ∈ renames, isBlank rename.oldName = false ∧ isBlank rename.newName = false) →
      renames.foldlM renameColumn script = .ok ⟨script.statements
        ++ renames.map (fun rename => .renameColumn rename.oldName rename.newName),
          script.warnings⟩ := by
    intro renames
    induction renames with
    | nil => intro script _; simp [pure, Except.pure]
    | cons rename renames ih =>
      intro script hnamed
      obtain ⟨hold, hnew⟩ := hnamed rename List.mem_cons_self
      rw [List.foldlM_cons, renameColumn, hold, hnew]
      refine (ih _ fun other hother => hnamed other (List.mem_cons_of_mem _ hother)).trans ?_
      simp [AlterScript.push]
  exact hfold _ _ h

theorem modifyColumn_pushes (hallow : p.options.allowDestructive = true) (script : AlterScript)
    (column : ColumnSpec) :
    (modifyColumn p script column).statements = script.statements
        ++ (if (originalColumn p column.name).any fun old => changed old column
          then [.modifyColumn column] else []) ∧
      (modifyColumn p script column).warnings = script.warnings ++ modifyWarnings p column := by
  unfold modifyColumn modifyWarnings changed
  cases originalColumn p column.name with
  | none => simp
  | some old =>
    simp only [Option.any_some, hallow, Bool.not_true, Bool.false_and, Bool.false_eq_true, if_false,
      ← Bool.not_or]
    -- with destructive changes allowed it only matters whether something changes, and if so whether it
    -- can be null
    obtain hchanged | hchanged :=
      Bool.eq_false_or_eq_true (typeChanged old column || defaultChanged old column)
    · by_cases hnullable : old.nullable = column.nullable
      · simp only [hchanged, hnullable, AlterScript.push, Bool.not_true, Bool.false_eq_true, if_false,
          if_true, not_true, ne_eq, decide_false, Bool.and_false, List.append_nil, and_self]
      · simp only [hchanged, hnullable, AlterScript.push, AlterScript.warn, Bool.not_true,
          Bool.false_eq_true, if_false, if_true, not_false_eq_true, ne_eq, decide_true, Bool.and_true,
          and_self]
    · simp only [hchanged, Bool.not_false, if_true, Bool.false_and, Bool.false_eq_true, if_false,
        List.append_nil, and_self]

theorem addColumn_pushes (script : AlterScript) (column : ColumnSpec) :
    (addColumn p script column).statements = script.statements
        ++ (if (originalColumn p column.name).isNone then [.addColumn column] else []) ∧
      (addColumn p script column).warnings = script.warnings ++ addWarnings p column := by
  unfold addColumn addWarnings
  cases originalColumn p column.name with
  | none => simp [AlterScript.push, AlterScript.warn]
  | some old => simp

theorem dropIndex_pushes (script : AlterScript) (index : IndexSpec) :
    (dropIndex p script index).statements = script.statements
        ++ (if index.name ∉ p.toSpec.indexes.map IndexSpec.name then [.dropIndex index.name]
          else []) ∧
      (dropIndex p script index).warnings = script.warnings := by
  unfold dropIndex
  by_cases hmem : index.name ∈ p.toSpec.indexes.map IndexSpec.name
  · have hany : (p.toSpec.indexes.any fun new => new.name = index.name) = true := by
      obtain ⟨new, hnew, hname⟩ := List.mem_map.1 hmem
      exact List.any_eq_true.2 ⟨new, hnew, decide_eq_true hname⟩
    simp [hany, hmem]
  · have hany : (p.toSpec.indexes.any fun new => new.name = index.name) = false := by
      refine List.any_eq_false.2 fun new hnew heq => hmem ?_
      exact List.mem_map.2 ⟨new, hnew, of_decide_eq_true heq⟩
    simp [hany, hmem, AlterScript.push]

theorem addIndex_pushes (script : AlterScript) (index : IndexSpec) :
    (addIndex p script index).statements = script.statements
        ++ (if index.name ∉ p.fromSpec.indexes.map IndexSpec.name ∧ Definable index
          then [.addIndex index (definition index)] else []) ∧
      (addIndex p script index).warnings = script.warnings ++ indexWarnings p index := by
  unfold addIndex indexWarnings
  by_cases hmem : index.name ∈ p.fromSpec.indexes.map IndexSpec.name
  · simp only [hmem, if_true, not_true, false_and, if_false, List.append_nil, and_self]
  -- a new index is added if it can be defined; otherwise one warning or the other says why not
  · by_cases hdefinable : Definable index
    · simp only [hmem, if_false, indexDefinition_of_definable hdefinable, not_false_eq_true,
        hdefinable, and_self, if_true, AlterScript.push, List.append_nil]
    · obtain hdef | hdef := indexDefinition_of_not hdefinable
      · simp only [hmem, if_false, hdef, hdefinable, and_false, AlterScript.warn, List.append_nil,
          and_self]
      · simp only [hmem, if_false, hdef, hdefinable, and_false, AlterScript.warn, List.append_nil,
          and_self]

/-- **The script of an altered table**, if columns may be dropped. -/
theorem buildAlterTable_ok (h : Alteration p) (hallow : p.options.allowDestructive = true) :
    buildAlterTable p
      = .ok (tableReference p.toSpec, (AlterScript.mk (statements p) (warnings p)).finish) := by
  rw [buildAlterTable, foldlM_renameColumn fun rename hrename => h.rename_named hrename]
  simp only [bind, Except.bind, hallow, if_true, pure, Except.pure, Except.ok.injEq, Prod.mk.injEq,
    true_and]
  -- each pass appends its own statements and warnings, in the order of the passes
  refine congrArg AlterScript.finish (AlterScript.ext ?_ ?_)
  · rw [foldl_pushes AlterScript.statements _ fun script index _ => (addIndex_pushes script index).1,
      foldl_pushes AlterScript.statements _ fun script index _ => (dropIndex_pushes script index).1,
      foldl_pushes AlterScript.statements _ fun script column _ => (addColumn_pushes script column).1,
      foldl_pushes AlterScript.statements _ fun script column _ =>
        (modifyColumn_pushes hallow script column).1,
      @foldl_pushes _ _ _ dropColumn AlterScript.statements (fun column => [.dropColumn column.name])
        _ _ fun script column _ => rfl,
      flatMap_ite, flatMap_ite, flatMap_ite, flatMap_ite, ← List.map_eq_flatMap]
    simp only [statements, modifiedColumns, addedColumns, droppedIndexes, newIndexes, List.append_assoc,
      Bool.decide_eq_true, List.filter_filter, Bool.decide_and, Bool.and_comm]
  · rw [foldl_pushes AlterScript.warnings _ fun script index _ => (addIndex_pushes script index).2,
      @foldl_pushes _ _ _ _ AlterScript.warnings (fun _ => []) _ _ fun script index _ =>
        (dropIndex_pushes script index).2.trans (List.append_nil _).symm,
      foldl_pushes AlterScript.warnings _ fun script column _ => (addColumn_pushes script column).2,
      foldl_pushes AlterScript.warnings _ fun script column _ =>
        (modifyColumn_pushes hallow script column).2,
      @foldl_pushes _ _ _ dropColumn AlterScript.warnings (fun _ => []) _ _ fun script column _ =>
        (List.append_nil _).symm]
    simp only [warnings, List.append_assoc, List.nil_append, List.flatMap_eq_nil_iff.2
      fun _ _ => rfl]

/-! ### What the statements do -/

/-- Statements about one part of a table. -/
theorem run_onColumns {ι : Type} {f : ι → Statement} {g : ι → Catalog.Command String Column}
    (h : ∀ table item, exec server table (f item) = table.onColumns (g item)) (table : Table)
    (items : List ι) :
    run (exec server) table (items.map f)
      = (run Catalog.exec table.columns (items.map g)).map fun columns =>
        { table with columns := columns } :=
  run_part (p := fun columns => { table with columns := columns })
    (fun columns item => h { table with columns := columns } item) table.columns items

theorem run_onIndexes {ι : Type} {f : ι → Statement} {g : ι → Catalog.Command String Index}
    (h : ∀ table item, exec server table (f item) = table.onIndexes (g item)) (table : Table)
    (items : List ι) :
    run (exec server) table (items.map f)
      = (run Catalog.exec table.indexes (items.map g)).map fun indexes =>
        { table with indexes := indexes } :=
  run_part (p := fun indexes => { table with indexes := indexes })
    (fun indexes item => h { table with indexes := indexes } item) table.indexes items

/-- The columns after the renames and the drops. -/
def keptColumns (p : BuildAlterTableParams) (name : String) : Option Column :=
  if name ∈ (droppedColumns p).map ColumnSpec.name then none
  else Catalog.renamed (renamePairs p) (tableOf p.fromSpec).columns name

/-- The modifications, by the names of the columns. -/
def modifications (server : Server) (p : BuildAlterTableParams) : List (String × (Column → Column)) :=
  (modifiedColumns p).map fun column => (column.name, server.modify column)

/-- The columns that are new, each with what it is added as; nothing is changed right after. -/
def additions (p : BuildAlterTableParams) : List (Catalog.Addition String Column) :=
  (addedColumns p).map fun column => ⟨column.name, addedColumn column, []⟩

/-- The additions of indexes. -/
def indexAdditions (p : BuildAlterTableParams) : List (Catalog.Addition String Index) :=
  ((newIndexes p).filter fun index => Definable index).map fun index =>
    ⟨index.name, indexOf index, []⟩

/-- The table that the statements lead to. -/
def altered (server : Server) (p : BuildAlterTableParams) : Table where
  columns := Catalog.added (additions p) fun name =>
    (keptColumns p name).map (Catalog.altered (modifications server p) name)
  indexes := Catalog.added (indexAdditions p) fun name =>
    if name ∈ (droppedIndexes p).map IndexSpec.name then none
    else (tableOf p.fromSpec).indexes name

theorem columns_altered (name : String) : (altered server p).columns name
    = Catalog.added (additions p) (fun name =>
      (keptColumns p name).map (Catalog.altered (modifications server p) name)) name := rfl

theorem columns_tableOf_isSome {spec : TableSpec} {name : String} :
    ((tableOf spec).columns name).isSome ↔ name ∈ spec.columnNames := by
  rw [tableOf, Option.isSome_map, column?_isSome]

theorem columns_tableOf_eq_none {spec : TableSpec} {name : String} :
    (tableOf spec).columns name = none ↔ name ∉ spec.columnNames := by
  rw [← columns_tableOf_isSome, Option.not_isSome_iff_eq_none]

/-- A dropped column is of the old specification only, and not renamed. -/
theorem mem_droppedColumns {name : String} : name ∈ (droppedColumns p).map ColumnSpec.name ↔
    name ∈ p.fromSpec.columnNames ∧ name ∉ p.columnRenames.map ColumnRenameSpec.oldName ∧
      name ∉ p.toSpec.columnNames := by
  constructor
  · intro hmem
    obtain ⟨column, hcolumn, rfl⟩ := List.mem_map.1 hmem
    obtain ⟨hfrom, hgone⟩ := List.mem_filter.1 hcolumn
    exact ⟨List.mem_map_of_mem hfrom, of_decide_eq_true hgone⟩
  · rintro ⟨hmem, hgone⟩
    obtain ⟨column, hcolumn, rfl⟩ := List.mem_map.1 hmem
    exact List.mem_map_of_mem (List.mem_filter.2 ⟨hcolumn, decide_eq_true hgone⟩)

theorem mem_modifiedColumns {column : ColumnSpec} : column ∈ modifiedColumns p ↔
    column ∈ p.toSpec.columns ∧
      ∃ old, originalColumn p column.name = some old ∧ changed old column = true := by
  rw [modifiedColumns, List.mem_filter, Option.any_eq_true]

theorem mem_addedColumns {column : ColumnSpec} : column ∈ addedColumns p ↔
    column ∈ p.toSpec.columns ∧ originalColumn p column.name = none := by
  rw [addedColumns, List.mem_filter, Option.isNone_iff_eq_none]

section Values

variable (h : Alteration p)
include h

theorem originalColumn_of_rename {rename : ColumnRenameSpec} (hrename : rename ∈ p.columnRenames) :
    originalColumn p rename.newName = p.fromSpec.column? rename.oldName := by
  have hnone : p.fromSpec.column? rename.newName = none :=
    column?_eq_none.2 (h.new_notMem rename hrename)
  obtain ⟨found, hfound⟩ : ∃ found, p.columnRenames.reverse.find?
      (fun other => other.newName = rename.newName) = some found :=
    Option.isSome_iff_exists.1
      (List.find?_isSome.2 ⟨rename, List.mem_reverse.2 hrename, decide_eq_true rfl⟩)
  have hsame : found.newName = rename.newName := by simpa using List.find?_some hfound
  obtain rfl := List.inj_on_of_nodup_map h.new_nodup
    (List.mem_reverse.1 (List.mem_of_find?_eq_some hfound)) hrename hsame
  rw [originalColumn, hnone, hfound]
  rfl

omit h in
theorem originalColumn_of_from {name : String} {old : ColumnSpec}
    (hold : p.fromSpec.column? name = some old) : originalColumn p name = some old := by
  rw [originalColumn, hold]
  rfl

/-- A column that was none before has a new name. -/
theorem originalColumn_eq_none {name : String} : originalColumn p name = none ↔
    name ∉ p.fromSpec.columnNames ∧ name ∉ p.columnRenames.map ColumnRenameSpec.newName := by
  -- a column of the old name is found first, then one that was renamed to the name
  by_cases hfrom : name ∈ p.fromSpec.columnNames
  · obtain ⟨old, hold⟩ := Option.isSome_iff_exists.1 (column?_isSome.2 hfrom)
    rw [originalColumn_of_from hold]
    exact iff_of_false (by simp) fun hnone => hnone.1 hfrom
  · by_cases hnew : name ∈ p.columnRenames.map ColumnRenameSpec.newName
    · obtain ⟨rename, hrename, rfl⟩ := List.mem_map.1 hnew
      rw [originalColumn_of_rename h hrename, column?_eq_none]
      exact iff_of_false (fun hnot => hnot (h.old_mem rename hrename)) fun hnone => hnone.2 hnew
    · have hfind : p.columnRenames.reverse.find? (fun rename => rename.newName = name) = none := by
        refine List.find?_eq_none.2 fun rename hrename heq => hnew ?_
        exact List.mem_map.2 ⟨rename, List.mem_reverse.1 hrename, of_decide_eq_true heq⟩
      rw [originalColumn, column?_eq_none.2 hfrom, hfind]
      exact iff_of_true rfl ⟨hfrom, hnew⟩

/-- The original of a column of the new specification is still there, unless it left its name to
it. -/
theorem keptColumns_of_original {column old : ColumnSpec} (hcolumn : column ∈ p.toSpec.columns)
    (hold : originalColumn p column.name = some old) : keptColumns p column.name
      = if column.name ∈ p.columnRenames.map ColumnRenameSpec.oldName then none
        else some (columnOf old) := by
  have hto : column.name ∈ p.toSpec.columnNames := List.mem_map_of_mem hcolumn
  rw [keptColumns, if_neg fun hmem => (mem_droppedColumns.1 hmem).2.2 hto]
  -- the name is an old one, so that no rename leads to it; or it is the new name of a rename
  by_cases hfrom : column.name ∈ p.fromSpec.columnNames
  · have hnew : column.name ∉ (renamePairs p).map Prod.snd := by
      rw [map_snd_renamePairs]
      intro hmem
      obtain ⟨rename, hrename, hname⟩ := List.mem_map.1 hmem
      exact h.new_notMem rename hrename (hname ▸ hfrom)
    split
    -- but a rename may lead away from it
    · next hrenamed => exact Catalog.renamed_of_mem_fst (map_fst_renamePairs ▸ hrenamed) hnew
    · next hrenamed =>
      rw [Catalog.renamed_of_notMem (map_fst_renamePairs ▸ hrenamed) hnew]
      obtain ⟨found, hfound⟩ := Option.isSome_iff_exists.1 (column?_isSome.2 hfrom)
      rw [originalColumn_of_from hfound] at hold
      exact congrArg (Option.map columnOf) (hfound.trans hold)
  · have hnew : column.name ∈ p.columnRenames.map ColumnRenameSpec.newName := by
      by_contra hnot
      rw [(originalColumn_eq_none h).2 ⟨hfrom, hnot⟩] at hold
      exact absurd hold (by simp)
    obtain ⟨rename, hrename, hname⟩ := List.mem_map.1 hnew
    rw [← hname, originalColumn_of_rename h hrename] at hold
    have hnodup : ((renamePairs p).map Prod.snd).Nodup := by
      rw [map_snd_renamePairs]
      exact h.new_nodup
    rw [if_neg, ← hname]
    · refine (Catalog.renamed_of_mem hnodup
        (List.mem_map_of_mem hrename : (rename.oldName, rename.newName) ∈ renamePairs p)).trans ?_
      exact congrArg (Option.map columnOf) hold
    -- a new name is no old one, so that it is not renamed in turn
    · intro hmem
      obtain ⟨other, hother, hotherName⟩ := List.mem_map.1 hmem
      exact hfrom (hotherName ▸ h.old_mem other hother)

/-- What is new or is not in the new specification is not there. -/
theorem keptColumns_eq_none {name : String}
    (hname : originalColumn p name = none ∨ name ∉ p.toSpec.columnNames) :
    keptColumns p name = none := by
  rw [keptColumns]
  split
  · rfl
  · next hkept =>
    rw [mem_droppedColumns] at hkept
    have hnew : name ∉ p.columnRenames.map ColumnRenameSpec.newName := by
      obtain hnone | hto := hname
      · exact ((originalColumn_eq_none h).1 hnone).2
      · intro hmem
        obtain ⟨rename, hrename, rfl⟩ := List.mem_map.1 hmem
        exact hto (h.new_mem rename hrename)
    -- a name that was renamed is gone; one that was not would have been dropped
    by_cases hold : name ∈ p.columnRenames.map ColumnRenameSpec.oldName
    · exact Catalog.renamed_of_mem_fst (map_fst_renamePairs ▸ hold) (map_snd_renamePairs ▸ hnew)
    · rw [Catalog.renamed_of_notMem (map_fst_renamePairs ▸ hold) (map_snd_renamePairs ▸ hnew)]
      refine columns_tableOf_eq_none.2 fun hfrom => ?_
      obtain hnone | hto := hname
      · exact ((originalColumn_eq_none h).1 hnone).1 hfrom
      · exact hkept ⟨hfrom, hold, hto⟩

theorem nodup_addedColumns : ((additions p).map Catalog.Addition.name).Nodup := by
  rw [additions, List.map_map]
  exact h.to_nodup.sublist (List.filter_sublist.map _)

theorem nodup_modifications : ((modifications server p).map Prod.fst).Nodup := by
  rw [modifications, List.map_map]
  exact h.to_nodup.sublist (List.filter_sublist.map _)

theorem altered_of_added {column : ColumnSpec} (hcolumn : column ∈ p.toSpec.columns)
    (hnone : originalColumn p column.name = none) :
    (altered server p).columns column.name = some (addedColumn column) := by
  have hmem : ⟨column.name, addedColumn column, []⟩ ∈ additions p :=
    List.mem_map_of_mem (mem_addedColumns.2 ⟨hcolumn, hnone⟩)
  rw [columns_altered]
  exact Catalog.added_of_mem (nodup_addedColumns h) hmem

omit h in
theorem altered_of_notAdded {name : String}
    (hname : originalColumn p name ≠ none ∨ name ∉ p.toSpec.columnNames) :
    (altered server p).columns name
      = (keptColumns p name).map (Catalog.altered (modifications server p) name) := by
  rw [columns_altered]
  refine Catalog.added_of_notMem fun hmem => ?_
  rw [additions, List.map_map] at hmem
  obtain ⟨column, hcolumn, hsame⟩ := List.mem_map.1 hmem
  obtain rfl : column.name = name := hsame
  obtain ⟨hto, hnone⟩ := mem_addedColumns.1 hcolumn
  exact hname.elim (fun hne => hne hnone) fun hnot => hnot (List.mem_map_of_mem hto)

/-- What becomes of a column that was there. -/
theorem altered_of_original {column old : ColumnSpec} (hcolumn : column ∈ p.toSpec.columns)
    (hold : originalColumn p column.name = some old)
    (hkept : column.name ∉ p.columnRenames.map ColumnRenameSpec.oldName) :
    (altered server p).columns column.name
      = some (if changed old column then server.modify column (columnOf old) else columnOf old) := by
  rw [altered_of_notAdded (.inl (by simp [hold])), keptColumns_of_original h hcolumn hold,
    if_neg hkept, Option.map_some]
  refine congrArg some ?_
  split
  · next hchanged =>
    exact Catalog.altered_of_mem (nodup_modifications h)
      (List.mem_map_of_mem (mem_modifiedColumns.2 ⟨hcolumn, old, hold, hchanged⟩)) _
  -- a change under its name would be its own, for the new names are distinct
  · next hchanged =>
    refine Catalog.altered_of_notMem _ fun hmem => hchanged ?_
    rw [modifications, List.map_map] at hmem
    obtain ⟨other, hother, hname⟩ := List.mem_map.1 hmem
    obtain ⟨hto, found, hfound, hfoundChanged⟩ := mem_modifiedColumns.1 hother
    obtain rfl := List.inj_on_of_nodup_map h.to_nodup hto hcolumn hname
    exact Option.some.inj (hfound.symm.trans hold) ▸ hfoundChanged

theorem altered_of_notMem {name : String} (hname : name ∉ p.toSpec.columnNames) :
    (altered server p).columns name = none := by
  rw [altered_of_notAdded (.inr hname), keptColumns_eq_none h (.inr hname)]
  rfl

end Values

/-! ### Indexes -/

theorem index?_eq_none {spec : TableSpec} {name : String} :
    index? spec name = none ↔ name ∉ spec.indexes.map IndexSpec.name := by
  simp [index?, List.find?_eq_none]

theorem index?_eq_some {spec : TableSpec} (hnodup : (spec.indexes.map IndexSpec.name).Nodup)
    {index : IndexSpec} (hmem : index ∈ spec.indexes) : index? spec index.name = some index := by
  obtain ⟨found, hfound⟩ : ∃ found, index? spec index.name = some found :=
    Option.isSome_iff_exists.1 (List.find?_isSome.2 ⟨index, hmem, decide_eq_true rfl⟩)
  have hsame : found.name = index.name := by simpa using List.find?_some hfound
  rw [hfound, List.inj_on_of_nodup_map hnodup (List.mem_of_find?_eq_some hfound) hmem hsame]

theorem mem_droppedIndexes {name : String} : name ∈ (droppedIndexes p).map IndexSpec.name ↔
    name ∈ p.fromSpec.indexes.map IndexSpec.name ∧ name ∉ p.toSpec.indexes.map IndexSpec.name := by
  constructor
  · intro hmem
    obtain ⟨index, hindex, rfl⟩ := List.mem_map.1 hmem
    obtain ⟨hfrom, hgone⟩ := List.mem_filter.1 hindex
    exact ⟨List.mem_map_of_mem hfrom, of_decide_eq_true hgone⟩
  · rintro ⟨hmem, hgone⟩
    obtain ⟨index, hindex, rfl⟩ := List.mem_map.1 hmem
    exact List.mem_map_of_mem (List.mem_filter.2 ⟨hindex, decide_eq_true hgone⟩)

theorem mem_newIndexes {index : IndexSpec} : index ∈ newIndexes p ↔
    index ∈ p.toSpec.indexes ∧ index.name ∉ p.fromSpec.indexes.map IndexSpec.name := by
  rw [newIndexes, List.mem_filter, decide_eq_true_eq]

theorem mem_indexAdditions {name : String} :
    name ∈ (indexAdditions p).map Catalog.Addition.name ↔
      ∃ index ∈ newIndexes p, Definable index ∧ index.name = name := by
  rw [indexAdditions, List.map_map, List.mem_map]
  simp only [List.mem_filter, decide_eq_true_eq, Function.comp_apply, and_assoc]

theorem indexes_altered (name : String) : (altered server p).indexes name
    = Catalog.added (indexAdditions p) (fun name =>
      if name ∈ (droppedIndexes p).map IndexSpec.name then none
      else (tableOf p.fromSpec).indexes name) name := rfl

section Indexes

variable (h : IndexedAlteration p)
include h

theorem nodup_indexAdditions : ((indexAdditions p).map Catalog.Addition.name).Nodup := by
  rw [indexAdditions, List.map_map]
  exact h.toIndexes_nodup.sublist
    (((List.filter_sublist.map _)).trans (List.filter_sublist.map _))

/-- A new index is there if it can be defined. -/
theorem altered_newIndex {index : IndexSpec} (hindex : index ∈ newIndexes p) :
    (altered server p).indexes index.name
      = if Definable index then some (indexOf index) else none := by
  obtain ⟨hto, hfrom⟩ := mem_newIndexes.1 hindex
  rw [indexes_altered]
  split
  · next hdefinable =>
    have hmem : ⟨index.name, indexOf index, []⟩ ∈ indexAdditions p :=
      List.mem_map_of_mem (List.mem_filter.2 ⟨hindex, decide_eq_true hdefinable⟩)
    exact Catalog.added_of_mem (nodup_indexAdditions h) hmem
  -- an index that cannot be defined is not added, and there was none before
  · next hdefinable =>
    rw [Catalog.added_of_notMem]
    · split
      · rfl
      · exact congrArg (Option.map indexOf) (index?_eq_none.2 hfrom)
    · rw [mem_indexAdditions]
      rintro ⟨other, hother, hdefined, hname⟩
      obtain rfl := List.inj_on_of_nodup_map h.toIndexes_nodup (mem_newIndexes.1 hother).1 hto hname
      exact hdefinable hdefined

omit h in
/-- An index of both specifications stays what it was. -/
theorem altered_oldIndex {name : String} (hto : name ∈ p.toSpec.indexes.map IndexSpec.name)
    (hfrom : name ∈ p.fromSpec.indexes.map IndexSpec.name) :
    (altered server p).indexes name = (index? p.fromSpec name).map indexOf := by
  rw [indexes_altered, Catalog.added_of_notMem]
  · exact if_neg fun hmem => (mem_droppedIndexes.1 hmem).2 hto
  · rw [mem_indexAdditions]
    rintro ⟨index, hindex, -, rfl⟩
    exact (mem_newIndexes.1 hindex).2 hfrom

omit h in
theorem altered_noIndex {name : String} (hto : name ∉ p.toSpec.indexes.map IndexSpec.name) :
    (altered server p).indexes name = none := by
  rw [indexes_altered, Catalog.added_of_notMem]
  · split
    · rfl
    · next hkept =>
      refine congrArg (Option.map indexOf) (index?_eq_none.2 fun hfrom => hkept ?_)
      exact mem_droppedIndexes.2 ⟨hfrom, hto⟩
  · rw [mem_indexAdditions]
    rintro ⟨index, hindex, -, rfl⟩
    exact hto (List.mem_map_of_mem (mem_newIndexes.1 hindex).1)

/-! ### The run -/

omit h in
theorem run_additions {α β : Type} {add : β → Catalog.Addition String α} {f : β → String} {g : β → α}
    (hadd : ∀ item, add item = ⟨f item, g item, []⟩) (items : List β) (t : String → Option α)
    (hnodup : ((items.map add).map Catalog.Addition.name).Nodup)
    (hfree : ∀ item ∈ items, t (f item) = none) :
    run Catalog.exec t (items.map fun item => .add (f item) (g item))
      = some (Catalog.added (items.map add) t) := by
  rw [← Catalog.run_adds hnodup]
  · refine congrArg (run Catalog.exec t) ?_
    rw [List.flatMap_map, List.map_eq_flatMap]
    refine congrArg (List.flatMap · items) (funext fun item => ?_)
    rw [hadd]
    rfl
  · intro addition haddition
    obtain ⟨item, hitem, rfl⟩ := List.mem_map.1 haddition
    rw [hadd]
    exact hfree item hitem

/-- The renames and the drops of columns can always be executed. -/
theorem run_kept : run Catalog.exec (tableOf p.fromSpec).columns
    (p.columnRenames.map (fun rename => .rename rename.oldName rename.newName)
      ++ (droppedColumns p).map fun column => .drop column.name) = some (keptColumns p) := by
  -- renames lead from columns that are there to names that are free
  have hrenames := @Catalog.run_renames _ _ _ (tableOf p.fromSpec).columns (renamePairs p)
    (map_fst_renamePairs ▸ h.old_nodup) (map_snd_renamePairs ▸ h.new_nodup)
    (fun pair hpair => by
      obtain ⟨rename, hrename, rfl⟩ := List.mem_map.1 hpair
      exact columns_tableOf_isSome.2 (h.old_mem rename hrename))
    (fun pair hpair => by
      obtain ⟨rename, hrename, rfl⟩ := List.mem_map.1 hpair
      exact columns_tableOf_eq_none.2 (h.new_notMem rename hrename))
  rw [renamePairs, List.map_map, ← renamePairs] at hrenames
  refine run_append_eq_some.2 ⟨_, hrenames, ?_⟩
  have hnames : (droppedColumns p).map (fun column => Catalog.Command.drop column.name)
      = ((droppedColumns p).map ColumnSpec.name).map (@Catalog.Command.drop String Column) :=
    List.map_map.symm
  have hnodup : ((droppedColumns p).map ColumnSpec.name).Nodup :=
    h.from_nodup.sublist (List.filter_sublist.map _)
  rw [hnames, Catalog.run_drops_iff hnodup]
  -- a dropped column was neither renamed nor replaced by a rename
  refine ⟨fun name hname => ?_, rfl⟩
  obtain ⟨hfrom, hold, hto⟩ := mem_droppedColumns.1 hname
  rw [Catalog.renamed_of_notMem]
  · exact columns_tableOf_isSome.2 hfrom
  · exact map_fst_renamePairs ▸ hold
  · rw [map_snd_renamePairs]
    intro hmem
    obtain ⟨rename, hrename, rfl⟩ := List.mem_map.1 hmem
    exact hto (h.new_mem rename hrename)

/-- The modifications can be executed if no modified column has the name of a renamed one. -/
theorem run_modifications_iff {columns : String → Option Column} :
    run Catalog.exec (keptColumns p)
        ((modifiedColumns p).map fun column => .alter column.name (server.modify column))
        = some columns ↔
      (∀ column ∈ modifiedColumns p,
        column.name ∉ p.columnRenames.map ColumnRenameSpec.oldName) ∧
      columns = fun name => (keptColumns p name).map (Catalog.altered (modifications server p) name) := by
  have hiff := @Catalog.run_alters_iff _ _ _ (keptColumns p) columns (modifications server p)
  rw [modifications, List.map_map, List.forall_mem_map, ← modifications] at hiff
  -- a modification needs the column under its new name: it is not there if it has been renamed away
  refine hiff.trans (and_congr_left fun _ => forall₂_congr fun column hcolumn => ?_)
  obtain ⟨hto, old, hold, -⟩ := mem_modifiedColumns.1 hcolumn
  change (keptColumns p column.name).isSome = true ↔ _
  rw [keptColumns_of_original h.toAlteration hto hold]
  split
  · next hmem => exact iff_of_false (by simp) fun hnot => hnot hmem
  · next hnot => exact iff_of_true rfl hnot

/-- The additions of columns and what the indexes need can always be executed. -/
theorem run_rest : run (exec server)
    ⟨fun name => (keptColumns p name).map (Catalog.altered (modifications server p) name),
      (tableOf p.fromSpec).indexes⟩
    ((addedColumns p).map .addColumn
      ++ ((droppedIndexes p).map (fun index => .dropIndex index.name)
      ++ ((newIndexes p).filter fun index => Definable index).map fun index =>
        .addIndex index (definition index))) = some (altered server p) := by
  have hnodup : ((droppedIndexes p).map IndexSpec.name).Nodup :=
    h.fromIndexes_nodup.sublist (List.filter_sublist.map _)
  have hnames : (droppedIndexes p).map (fun index => Catalog.Command.drop index.name)
      = ((droppedIndexes p).map IndexSpec.name).map (@Catalog.Command.drop String Index) :=
    List.map_map.symm
  refine run_append_eq_some.2 ⟨⟨(altered server p).columns, (tableOf p.fromSpec).indexes⟩, ?_,
    run_append_eq_some.2 ⟨⟨(altered server p).columns, fun name =>
      if name ∈ (droppedIndexes p).map IndexSpec.name then none
      else (tableOf p.fromSpec).indexes name⟩, ?_, ?_⟩⟩
  -- the additions: no column of the name is left
  · rw [run_onColumns (fun _ _ => rfl), run_additions (fun _ => rfl) _ _ (nodup_addedColumns
      h.toAlteration)]
    · rfl
    · intro column hcolumn
      exact Option.map_eq_none_iff.2
        (keptColumns_eq_none h.toAlteration (.inl (mem_addedColumns.1 hcolumn).2))
  -- the drops of indexes, which were all there
  · rw [run_onIndexes (fun _ _ => rfl), hnames, (Catalog.run_drops_iff hnodup).2 ⟨?_, rfl⟩]
    · rfl
    · intro name hname
      obtain ⟨index, hindex, rfl⟩ := List.mem_map.1 (mem_droppedIndexes.1 hname).1
      change ((index? p.fromSpec index.name).map indexOf).isSome = true
      rw [index?_eq_some h.fromIndexes_nodup hindex]
      rfl
  -- the new indexes, whose names are free
  · rw [run_onIndexes (fun _ _ => rfl), run_additions (fun _ => rfl) _ _ (nodup_indexAdditions h)]
    · rfl
    · intro index hindex
      have hfrom := (mem_newIndexes.1 (List.mem_of_mem_filter hindex)).2
      exact (if_neg fun hmem => hfrom (mem_droppedIndexes.1 hmem).1).trans
        (congrArg (Option.map indexOf) (index?_eq_none.2 hfrom))

/-- **The statements can be executed** if no modified column has the name of a renamed one. -/
theorem run_statements_iff : run (exec server) (tableOf p.fromSpec) (statements p) = some table ↔
    (∀ column ∈ modifiedColumns p,
      column.name ∉ p.columnRenames.map ColumnRenameSpec.oldName) ∧ table = altered server p := by
  -- the renames and the drops always succeed, and so does what comes after the modifications
  have hkept : run (exec server) (tableOf p.fromSpec)
      (p.columnRenames.map (fun rename => .renameColumn rename.oldName rename.newName)
        ++ (droppedColumns p).map fun column => .dropColumn column.name)
      = some { tableOf p.fromSpec with columns := keptColumns p } := by
    obtain ⟨renamed, hrenamed, hdropped⟩ := run_append_eq_some.1 (run_kept h)
    refine run_append_eq_some.2 ⟨{ tableOf p.fromSpec with columns := renamed }, ?_, ?_⟩
    · rw [run_onColumns (fun _ _ => rfl), hrenamed, Option.map_some]
    · rw [run_onColumns (fun _ _ => rfl), hdropped, Option.map_some]
  rw [statements, ← List.append_assoc, run_append, hkept, Option.bind_some, run_append,
    run_onColumns (fun _ _ => rfl), Option.bind_eq_some_iff]
  simp only [Option.map_eq_some_iff]
  constructor
  · rintro ⟨_, ⟨columns, hmodified, rfl⟩, hrest⟩
    obtain ⟨hnames, rfl⟩ := (run_modifications_iff h).1 hmodified
    exact ⟨hnames, Option.some.inj (hrest.symm.trans (run_rest h))⟩
  · rintro ⟨hnames, rfl⟩
    exact ⟨_, ⟨_, (run_modifications_iff h).2 ⟨hnames, rfl⟩, rfl⟩, run_rest h⟩

end Indexes

/-! ### The result -/

/-- What the new specification says about a column is what the column becomes: a new column has no
comment of blanks; a modified one says what it does not leave as it was; another one has the same type,
also in the case of its letters, and the same comment. -/
def Reaches (server : Server) (p : BuildAlterTableParams) (column : ColumnSpec) : Prop :=
  match originalColumn p column.name with
  | none => isBlank column.comment = true → column.comment = ""
  | some old => column.name ∉ p.columnRenames.map ColumnRenameSpec.oldName ∧
    if changed old column then
      (writtenDefault column = none → server.keepsDefault = true → writtenDefault old = none) ∧
      (isBlank column.comment = true →
        column.comment = if server.keepsComment then old.comment else "")
    else effectiveType old = effectiveType column ∧ old.comment = column.comment

instance (server : Server) (p : BuildAlterTableParams) (column : ColumnSpec) :
    Decidable (Reaches server p column) :=
  match h : originalColumn p column.name with
  | none => decidable_of_iff (isBlank column.comment = true → column.comment = "")
    (by rw [Reaches, h])
  | some old => decidable_of_iff
    (column.name ∉ p.columnRenames.map ColumnRenameSpec.oldName ∧
      if changed old column then
        (writtenDefault column = none → server.keepsDefault = true → writtenDefault old = none) ∧
        (isBlank column.comment = true →
          column.comment = if server.keepsComment then old.comment else "")
      else effectiveType old = effectiveType column ∧ old.comment = column.comment)
    (by rw [Reaches, h])

theorem writtenComment_getD_eq {column : ColumnSpec} {comment : String} :
    (writtenComment column).getD comment = column.comment ↔
      (isBlank column.comment = true → column.comment = comment) := by
  unfold writtenComment
  cases isBlank column.comment
  · exact iff_of_true rfl fun hblank => absurd hblank (by simp)
  · exact ⟨fun heq _ => heq.symm, fun heq => (heq rfl).symm⟩

theorem trimmed_ne_empty {value : String} (hvalue : isBlank value = false) : trimmed value ≠ "" := by
  intro heq
  rw [isBlank, show Text.trim value.toList = [] by simpa [trimmed] using heq] at hvalue
  exact absurd hvalue (by simp)

theorem writtenType_eq {column : ColumnSpec} (htype : isBlank column.typeStr = false) :
    writtenType column = effectiveType column := by
  rw [writtenType, effectiveType, if_neg (trimmed_ne_empty htype)]

theorem columnOf_inj {old column : ColumnSpec} : columnOf old = columnOf column ↔
    effectiveType old = effectiveType column ∧ writtenDefault old = writtenDefault column ∧
      old.comment = column.comment := by
  rw [columnOf, columnOf, Column.mk.injEq]

theorem modify_eq_iff {column old : ColumnSpec} (htype : isBlank column.typeStr = false) :
    server.modify column (columnOf old) = columnOf column ↔
      (writtenDefault column = none → server.keepsDefault = true → writtenDefault old = none) ∧
      (isBlank column.comment = true →
        column.comment = if server.keepsComment then old.comment else "") := by
  rw [Server.modify, columnOf, columnOf, Column.mk.injEq, writtenType_eq htype,
    writtenComment_getD_eq]
  refine (and_iff_right rfl).trans (and_congr_left fun _ => ?_)
  cases writtenDefault column with
  | some default => exact iff_of_true rfl fun hnone => absurd hnone (by simp)
  | none =>
    rw [Option.none_or, ite_eq_right_iff]
    exact ⟨fun hkeeps _ hold => hkeeps hold, fun hkeeps hold => hkeeps rfl hold⟩

section Result

variable (h : IndexedAlteration p)
include h

/-- **A column is as the new specification says** under that condition. -/
theorem altered_column_iff {column : ColumnSpec} (hcolumn : column ∈ p.toSpec.columns) :
    (altered server p).columns column.name = some (columnOf column) ↔ Reaches server p column := by
  have htype := h.columns_typed column (List.mem_append_right _ hcolumn)
  unfold Reaches
  cases hold : originalColumn p column.name with
  -- an added column has its type and its default, and the comment if it is not blank
  | none =>
    rw [altered_of_added h.toAlteration hcolumn hold, Option.some_inj, addedColumn, columnOf,
      Column.mk.injEq, writtenType_eq htype, writtenComment_getD_eq]
    exact ⟨fun hall => hall.2.2, fun hcomment => ⟨rfl, rfl, hcomment⟩⟩
  -- a column that was there: under its name, modified, or left as it is
  | some old =>
    by_cases hrenamed : column.name ∈ p.columnRenames.map ColumnRenameSpec.oldName
    · rw [altered_of_notAdded (.inl (by simp [hold])), keptColumns_of_original h.toAlteration hcolumn hold,
        if_pos hrenamed]
      exact iff_of_false (by simp) fun hall => hall.1 hrenamed
    · rw [altered_of_original h.toAlteration hcolumn hold hrenamed, Option.some_inj]
      refine Iff.trans ?_ (and_iff_right hrenamed).symm
      split
      · exact modify_eq_iff htype
      · next hsame =>
        have hdefault : writtenDefault old = writtenDefault column := by
          have hnot : defaultChanged old column = false := by
            simp only [changed, Bool.or_eq_true, not_or] at hsame
            exact Bool.eq_false_of_not_eq_true hsame.2
          rw [writtenDefault, writtenDefault, show old.default = column.default by
            simpa [defaultChanged] using hnot]
        rw [columnOf_inj]
        exact ⟨fun hall => ⟨hall.1, hall.2.2⟩, fun hall => ⟨hall.1, hdefault, hall.2⟩⟩

/-- **The table is the new one** if all columns and indexes are. -/
theorem altered_eq_iff : altered server p = tableOf p.toSpec ↔
    (∀ column ∈ p.toSpec.columns, Reaches server p column) ∧
    (∀ index ∈ p.toSpec.indexes, ∀ old ∈ index? p.fromSpec index.name,
      indexOf old = indexOf index) ∧ ∀ index ∈ newIndexes p, Definable index := by
  constructor
  · intro heq
    have hindexes : ∀ index ∈ p.toSpec.indexes,
        (altered server p).indexes index.name = some (indexOf index) := fun index hindex => by
      rw [heq]
      exact congrArg (Option.map indexOf) (index?_eq_some h.toIndexes_nodup hindex)
    refine ⟨fun column hcolumn => ?_, fun index hindex old hold => ?_, fun index hindex => ?_⟩
    · refine (altered_column_iff h hcolumn).1 ?_
      rw [heq]
      exact congrArg (Option.map columnOf) ((column?_eq_some h.to_nodup).2 ⟨hcolumn, rfl⟩)
    · have hvalue := hindexes index hindex
      have hfrom : index.name ∈ p.fromSpec.indexes.map IndexSpec.name := by
        by_contra hnot
        rw [index?_eq_none.2 hnot] at hold
        exact absurd hold (by simp)
      rw [altered_oldIndex (List.mem_map_of_mem hindex) hfrom, hold] at hvalue
      exact Option.some.inj hvalue
    · by_contra hnot
      have hvalue := hindexes index (mem_newIndexes.1 hindex).1
      rw [altered_newIndex h hindex, if_neg hnot] at hvalue
      exact absurd hvalue (by simp)
  -- name by name: columns and indexes of the new specification, and names that it does not have
  · rintro ⟨hcolumns, hold, hnew⟩
    refine Table.ext (funext fun name => ?_) (funext fun name => ?_)
    · by_cases hname : name ∈ p.toSpec.columnNames
      · obtain ⟨column, hcolumn, rfl⟩ := List.mem_map.1 hname
        rw [(altered_column_iff h hcolumn).2 (hcolumns column hcolumn)]
        exact (congrArg (Option.map columnOf) ((column?_eq_some h.to_nodup).2 ⟨hcolumn, rfl⟩)).symm
      · rw [altered_of_notMem h.toAlteration hname, columns_tableOf_eq_none.2 hname]
    · by_cases hname : name ∈ p.toSpec.indexes.map IndexSpec.name
      · obtain ⟨index, hindex, rfl⟩ := List.mem_map.1 hname
        have hvalue : (tableOf p.toSpec).indexes index.name = some (indexOf index) :=
          congrArg (Option.map indexOf) (index?_eq_some h.toIndexes_nodup hindex)
        rw [hvalue]
        by_cases hfrom : index.name ∈ p.fromSpec.indexes.map IndexSpec.name
        · obtain ⟨old, hfound⟩ : ∃ old, index? p.fromSpec index.name = some old := by
            refine Option.ne_none_iff_exists'.1 fun hnone => index?_eq_none.1 hnone hfrom
          rw [altered_oldIndex hname hfrom, hfound, Option.map_some, hold index hindex old hfound]
        · have hmem := mem_newIndexes.2 ⟨hindex, hfrom⟩
          rw [altered_newIndex h hmem, if_pos (hnew index hmem)]
      · rw [altered_noIndex hname]
        exact (congrArg (Option.map indexOf) (index?_eq_none.2 hname)).symm

omit h in
/-- What a warning of the passes is about. -/
theorem mem_warnings {warning : Warning} : warning ∈ warnings p →
    (∃ column, warning = .nullabilityChange column) ∨
    (∃ column ∈ p.toSpec.columns, warning ∈ columnWarnings column) ∨
    ∃ index ∈ newIndexes p, indexDefinition index = .error warning := by
  intro hmem
  -- the warnings are those of three passes: modified columns, added columns, new indexes
  obtain hmodify | hrest := List.mem_append.1 hmem
  · obtain ⟨column, -, hcolumn⟩ := List.mem_flatMap.1 hmodify
    unfold modifyWarnings at hcolumn
    split at hcolumn
    · exact .inl ⟨column.name, List.mem_singleton.1 hcolumn⟩
    · exact absurd hcolumn List.not_mem_nil
  · obtain hadd | hindex := List.mem_append.1 hrest
    · obtain ⟨column, hto, hcolumn⟩ := List.mem_flatMap.1 hadd
      unfold addWarnings at hcolumn
      split at hcolumn
      · exact .inr (.inl ⟨column, hto, hcolumn⟩)
      · exact absurd hcolumn List.not_mem_nil
    · obtain ⟨index, hto, hwarned⟩ := List.mem_flatMap.1 hindex
      unfold indexWarnings at hwarned
      split at hwarned
      · exact absurd hwarned List.not_mem_nil
      · next hfrom =>
        refine .inr (.inr ⟨index, mem_newIndexes.2 ⟨hto, hfrom⟩, ?_⟩)
        split at hwarned
        · exact absurd hwarned List.not_mem_nil
        · next hdefinition => rw [hdefinition, List.mem_singleton.1 hwarned]

omit h in
/-- The warnings of a column are about its type, a counter and a constraint. -/
theorem mem_columnWarnings {warning : Warning} {column : ColumnSpec}
    (hmem : warning ∈ columnWarnings column) :
    trimmed column.typeStr = "" ∧ warning = .noType column.name ∨
      warning = .noAutoIncrement column.name ∨ warning = .noUnique column.name := by
  obtain hfirst | hunique := List.mem_append.1 hmem
  · obtain htype | hauto := List.mem_append.1 hfirst
    · split at htype
      · next hempty => exact .inl ⟨hempty, List.mem_singleton.1 htype⟩
      · exact absurd htype List.not_mem_nil
    · split at hauto
      · exact .inr (.inl (List.mem_singleton.1 hauto))
      · exact absurd hauto List.not_mem_nil
  · split at hunique
    · exact .inr (.inr (List.mem_singleton.1 hunique))
    · exact absurd hunique List.not_mem_nil

omit h in
theorem noChanges_notMem : .noChanges ∉ warnings p := by
  intro hmem
  obtain ⟨column, heq⟩ | ⟨column, -, hcolumn⟩ | ⟨index, -, hdefinition⟩ := mem_warnings hmem
  · exact absurd heq (by simp)
  · obtain ⟨-, heq⟩ | heq | heq := mem_columnWarnings hcolumn
    · exact absurd heq (by simp)
    · exact absurd heq (by simp)
    · exact absurd heq (by simp)
  · by_cases hdefinable : Definable index
    · rw [indexDefinition_of_definable hdefinable] at hdefinition
      exact absurd hdefinition (by simp)
    · obtain heq | heq := indexDefinition_of_not hdefinable
      · exact absurd (hdefinition.symm.trans heq) (by simp)
      · exact absurd (hdefinition.symm.trans heq) (by simp)

omit h in
theorem mem_finish {script : AlterScript} {warning : Warning} : warning ∈ script.finish.warnings ↔
    warning ∈ script.warnings ∨
      script.statements = [] ∧ script.warnings = [] ∧ warning = .noChanges := by
  unfold AlterScript.finish
  cases hstatements : script.statements with
  | cons statement statements => simp
  | nil =>
    cases hwarnings : script.warnings with
    | cons first warnings => simp [hwarnings]
    | nil => simp [AlterScript.warn, hwarnings]

/-- **A warning names a difference** only for an index that cannot be defined. -/
theorem exists_names_iff : (∃ warning ∈ ((AlterScript.mk (statements p) (warnings p)).finish).warnings,
      warning.Names (altered server p) p.toSpec) ↔ ∃ index ∈ newIndexes p, ¬ Definable index := by
  constructor
  · rintro ⟨warning, hwarning, hnames⟩
    obtain hmem | ⟨-, -, rfl⟩ := mem_finish.1 hwarning
    · obtain ⟨column, rfl⟩ | ⟨column, hto, hcolumn⟩ | ⟨index, hindex, hdefinition⟩ :=
        mem_warnings hmem
      -- only the warnings about indexes and about missing types name something that is left
      · exact hnames.elim
      · obtain ⟨hempty, -⟩ | rfl | rfl := mem_columnWarnings hcolumn
        · have htype := h.columns_typed column (List.mem_append_right _ hto)
          exact absurd hempty (trimmed_ne_empty htype)
        · exact hnames.elim
        · exact hnames.elim
      · refine ⟨index, hindex, fun hdefinable => ?_⟩
        rw [indexDefinition_of_definable hdefinable] at hdefinition
        exact absurd hdefinition (by simp)
    · exact hnames.elim
  · rintro ⟨index, hindex, hnot⟩
    obtain ⟨hto, hfrom⟩ := mem_newIndexes.1 hindex
    -- the index is not in the table that is reached
    have hgone : (altered server p).indexes index.name ≠ some (indexOf index) := by
      rw [altered_newIndex h hindex, if_neg hnot]
      exact fun heq => absurd heq (by simp)
    have hpushed : ∀ warning, indexDefinition index = .error warning →
        warning ∈ ((AlterScript.mk (statements p) (warnings p)).finish).warnings := by
      intro warning hdefinition
      refine mem_finish.2 (.inl (List.mem_append_right _ (List.mem_append_right _ ?_)))
      refine List.mem_flatMap.2 ⟨index, hto, ?_⟩
      rw [indexWarnings, if_neg hfrom, hdefinition]
      exact List.mem_singleton_self _
    obtain hdefinition | hdefinition := indexDefinition_of_not hnot
    · exact ⟨_, hpushed _ hdefinition, index, hto, rfl, hgone⟩
    · exact ⟨_, hpushed _ hdefinition, index, hto, rfl, hgone⟩

/-- **A script is right** exactly when no column of the name of a renamed one is modified, and an index
cannot be defined or all columns and indexes are reached. -/
theorem alter_right_iff (hallow : p.options.allowDestructive = true) : Right server p ↔
    (∀ column ∈ modifiedColumns p,
      column.name ∉ p.columnRenames.map ColumnRenameSpec.oldName) ∧
    ((∃ index ∈ newIndexes p, ¬ Definable index) ∨
      (∀ column ∈ p.toSpec.columns, Reaches server p column) ∧
      ∀ index ∈ p.toSpec.indexes, ∀ old ∈ index? p.fromSpec index.name,
        indexOf old = indexOf index) := by
  have hbuild := buildAlterTable_ok h.toAlteration hallow
  have hstatements : ((AlterScript.mk (statements p) (warnings p)).finish).statements
      = statements p := by
    unfold AlterScript.finish
    split <;> rfl
  -- the table that is reached is the new one, or an index is named that is left out
  have hreached : (altered server p = tableOf p.toSpec ∨ ∃ index ∈ newIndexes p, ¬ Definable index) ↔
      ((∃ index ∈ newIndexes p, ¬ Definable index) ∨
      (∀ column ∈ p.toSpec.columns, Reaches server p column) ∧
      ∀ index ∈ p.toSpec.indexes, ∀ old ∈ index? p.fromSpec index.name,
        indexOf old = indexOf index) := by
    rw [altered_eq_iff h, or_comm]
    by_cases hdefinable : ∃ index ∈ newIndexes p, ¬ Definable index
    · exact iff_of_true (.inl hdefinable) (.inl hdefinable)
    · rw [or_iff_right hdefinable, or_iff_right hdefinable]
      push Not at hdefinable
      exact and_congr_right fun _ => and_iff_left hdefinable
  rw [← hreached]
  constructor
  · rintro ⟨reference, script, table, hbuild', hrun, hright, -⟩
    obtain rfl := (Prod.mk.inj (Except.ok.inj (hbuild.symm.trans hbuild'))).2
    rw [hstatements] at hrun
    obtain ⟨hnames, rfl⟩ := (run_statements_iff h).1 hrun
    exact ⟨hnames, hright.imp_right (exists_names_iff h).1⟩
  -- nothing is said to change only if there are no statements and no warnings
  · rintro ⟨hnames, hright⟩
    have hrun : run (exec server) (tableOf p.fromSpec) (statements p) = some (altered server p) :=
      (run_statements_iff h).2 ⟨hnames, rfl⟩
    refine ⟨_, _, _, hbuild, by rw [hstatements, hrun], hright.imp_right (@exists_names_iff p server h).2,
      fun hnone => ?_⟩
    obtain hmem | ⟨hempty, hquiet, -⟩ := mem_finish.1 hnone
    · exact absurd hmem noChanges_notMem
    · rw [show statements p = [] from hempty, run_nil] at hrun
      rw [Option.some.inj hrun]
      -- an index that is left out would have its warning
      refine hright.resolve_right fun hindex => ?_
      obtain ⟨warning, hwarning, hnames⟩ := (@exists_names_iff p server h).2 hindex
      obtain hmem | ⟨-, -, rfl⟩ := mem_finish.1 hwarning
      · rw [show warnings p = [] from hquiet] at hmem
        exact absurd hmem List.not_mem_nil
      · exact hnames.elim

end Result

/-- A column of numbers with a comment. -/
def numberColumn (name comment : String) : ColumnSpec where
  name := name
  typeStr := "UInt64"
  nullable := false
  default := none
  isPrimary := false
  isUnique := false
  autoIncrement := false
  comment := comment

/-- A table of numbers. -/
def numberTable (columns : List ColumnSpec) (indexes : List IndexSpec) : TableSpec where
  name := "events"
  schema := none
  database := none
  columns := columns
  indexes := indexes
  comment := ""

/-- A column is renamed, another one is dropped, a third one is added, and so is an index. -/
def keyRenamed : BuildAlterTableParams where
  fromSpec := numberTable [numberColumn "id" "", numberColumn "old" ""] []
  toSpec := numberTable [numberColumn "key" "", numberColumn "new" "since now"]
    [⟨"by_key", ["key"], none, false, none⟩]
  columnRenames := [⟨"id", "key"⟩]
  options := ⟨true, false⟩

theorem indexedAlteration_keyRenamed : IndexedAlteration keyRenamed where
  same := ⟨rfl, rfl, rfl⟩
  named := by decide
  from_nodup := by decide
  to_nodup := by decide
  columns_named := by decide
  columns_typed := by decide
  old_nodup := by decide
  new_nodup := by decide
  old_mem := by decide
  new_mem := by decide
  new_notMem := by decide
  fromIndexes_nodup := by decide
  toIndexes_nodup := by decide
  indexes_named := by decide

/-- That reaches the new table. -/
theorem alter_right_keyRenamed : Right ⟨true, true⟩ keyRenamed :=
  (alter_right_iff indexedAlteration_keyRenamed rfl).2 (by decide)

/-- A column gets another comment. -/
def keyCommented : BuildAlterTableParams where
  fromSpec := numberTable [numberColumn "id" ""] []
  toSpec := numberTable [numberColumn "id" "the key"] []
  columnRenames := []
  options := ⟨true, false⟩

/-- **A change of a comment alone is no change**: "No changes detected". -/
theorem comment_ignored : IndexedAlteration keyCommented ∧
    keyCommented.options.allowDestructive = true ∧ ∀ server, ¬ Right server keyCommented := by
  have h : IndexedAlteration keyCommented := {
    same := ⟨rfl, rfl, rfl⟩
    named := by decide
    from_nodup := by decide
    to_nodup := by decide
    columns_named := by decide
    columns_typed := by decide
    old_nodup := by decide
    new_nodup := by decide
    old_mem := by decide
    new_mem := by decide
    new_notMem := by decide
    fromIndexes_nodup := by decide
    toIndexes_nodup := by decide
    indexes_named := by decide }
  refine ⟨h, rfl, ?_⟩
  rintro server ⟨reference, script, table, hbuild, -, -, hsame⟩
  obtain rfl := (Prod.mk.inj (Except.ok.inj
    ((buildAlterTable_ok h.toAlteration rfl).symm.trans hbuild))).2
  -- the script says that nothing changes
  have heq := hsame (mem_finish.2 (.inr ⟨by decide, by decide, rfl⟩))
  exact absurd (congrArg (fun table => (table.columns "id").map Column.comment) heq) (by decide)

end ClickhouseDdl
end Navop
