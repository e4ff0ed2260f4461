import NavopExtensions.Gbase8a.Ddl
import NavopExtensions.Lib.Catalog

/-!
# Reaching another GBase 8a table, and coming back

The passes of `handleDdlBuildAlterTable` look columns up by their names and know nothing of renames: the
new name of a renamed column is not a name of the old table, so that the column is added once more, and
the script stops there (`renamed_fails`). Without renames the statements are about the trimmed names, and
what they leave is compared with the new table, and what the rollback leaves with the old one
(`script_right_iff`).
-/

namespace Navop
namespace Gbase8aDdl

open ExtensionProtocol JavaText Script

/-! ### Tables -/

/-- A column of a table. It knows which column of the old table it was. -/
structure Column where
  type : String
  notNull : Bool
  default : Option String
  autoIncrement : Bool
  comment : String
  origin : Option String
  deriving DecidableEq

/-- A table as `ALTER TABLE` sees it: a comment, and columns under their names. -/
@[ext] structure Table where
  comment : String
  columns : String → Option Column

/-- The column that a specification describes. -/
def columnOf (column : ColumnSpec) : Column :=
  ⟨trim column.typeStr, !column.nullable, column.default, column.autoIncrement, column.comment,
    some column.name⟩

/-- The table that a specification describes. -/
def tableOf (spec : TableSpec) : Table where
  comment := spec.comment
  columns name := (spec.column? name).map columnOf

/-- The column that a definition gives. The definitions of the server never say `AUTO_INCREMENT`, and a
column that is modified loses what its new definition does not say. -/
def Definition.column (definition : Definition) (origin : Option String) : Column :=
  ⟨definition.type, definition.notNull, definition.default.map DefaultValue.text, false,
    definition.comment, origin⟩

/-- A command on the columns. -/
def Table.onColumns (table : Table) (command : Catalog.Command String Column) : Option Table :=
  (Catalog.exec table.columns command).map (Table.mk table.comment)

/-- A statement is executed. -/
def exec (table : Table) : Statement → Option Table
  | .commentTable comment => some { table with comment := comment }
  | .renameColumn oldName newName => table.onColumns (.rename (trim oldName) (trim newName))
  | .addColumn definition => table.onColumns (.add (trim definition.name) (definition.column none))
  | .dropColumn name => table.onColumns (.drop (trim name))
  | .modifyColumn definition =>
    table.onColumns (.alter (trim definition.name) fun before => definition.column before.origin)

/-- A table has the columns of a specification and its comments, and a renamed column is the original
one. -/
structure Table.Reaches (table : Table) (p : BuildAlterTableParams) : Prop where
  names : ∀ name, (table.columns name).isSome ↔ name ∈ p.toSpec.columnNames
  comment : table.comment = p.toSpec.comment
  comments : ∀ column ∈ p.toSpec.columns,
    (table.columns column.name).map Column.comment = some column.comment
  origins : ∀ rename ∈ p.columnRenames,
    (table.columns rename.newName).bind Column.origin = some rename.oldName

/-- The script does what it is for: it can be executed; if it may drop columns it reaches the new
table, and otherwise its rollback restores the old one. -/
def Right (p : BuildAlterTableParams) : Prop :=
  ∃ tableName script table, handleDdlBuildAlterTable p = .ok (tableName, script) ∧
    run exec (tableOf p.fromSpec) script.statements = some table ∧
    (p.options.allowDestructive = true → table.Reaches p) ∧
    (p.options.allowDestructive = false → p.options.withRollback = true →
      run exec table script.rollback = some (tableOf p.fromSpec))

/-- Two specifications of one table, whose columns have names and types that Java's `trim` leaves
something of, and renames from the one to the other. -/
structure Change (p : BuildAlterTableParams) : Prop extends Renaming p where
  named : trim p.toSpec.name ≠ ""
  same : p.fromSpec.name = p.toSpec.name ∧ p.fromSpec.schema = p.toSpec.schema
  columns_named : ∀ column ∈ p.fromSpec.columns ++ p.toSpec.columns, trim column.name ≠ ""
  columns_typed : ∀ column ∈ p.fromSpec.columns ++ p.toSpec.columns, trim column.typeStr ≠ ""

/-! ### When it is right -/

/-- The columns of new names. -/
def addedColumns (p : BuildAlterTableParams) : List ColumnSpec :=
  p.toSpec.columns.filter fun column => column.name ∉ p.fromSpec.columnNames

/-- The columns whose names are gone. -/
def droppedColumns (p : BuildAlterTableParams) : List ColumnSpec :=
  p.fromSpec.columns.filter fun column => column.name ∉ p.toSpec.columnNames

/-- The columns whose comments differ, but for the blanks around them, before and after. -/
def modifiedColumns (p : BuildAlterTableParams) : List (ColumnSpec × ColumnSpec) :=
  p.toSpec.columns.filterMap fun column =>
    ((p.fromSpec.column? column.name).filter fun original =>
      trim original.comment ≠ trim column.comment).map fun original => (original, column)

/-- A comment is the new one in the end: it is written trimmed, unless only blanks around it change. -/
def CommentReached (before after : String) : Prop :=
  if trim before = trim after then before = after else trim after = after

instance (before after : String) : Decidable (CommentReached before after) :=
  inferInstanceAs (Decidable (ite _ _ _))

/-- The default that a definition gives a column, whose text is `null` if it has none. -/
def writtenDefault (default : Option String) : Option String :=
  (default.map trim).filter fun text => text ≠ "" && Text.asciiLower text.toList ≠ "null".toList

/-- The statements are about the names of the columns. -/
structure TrimmedNames (p : BuildAlterTableParams) : Prop where
  added : ∀ column ∈ addedColumns p, trim column.name = column.name
  dropped : ∀ column ∈ droppedColumns p, trim column.name = column.name
  modified : ∀ pair ∈ modifiedColumns p, trim pair.2.name = pair.2.name

/-- What a script that may drop columns needs to reach the new table. -/
structure Reachable (p : BuildAlterTableParams) : Prop extends TrimmedNames p where
  comment : CommentReached p.fromSpec.comment p.toSpec.comment
  added_comment : ∀ column ∈ addedColumns p, trim column.comment = column.comment
  comments : ∀ column ∈ p.toSpec.columns, ∀ original ∈ p.fromSpec.column? column.name,
    CommentReached original.comment column.comment

/-- What a script that drops nothing needs to be executed. -/
structure Executable (p : BuildAlterTableParams) : Prop where
  nodup : ((addedColumns p).map fun column => trim column.name).Nodup
  free : ∀ column ∈ addedColumns p, trim column.name ∉ p.fromSpec.columnNames
  there : ∀ pair ∈ modifiedColumns p, trim pair.2.name ∈ p.fromSpec.columnNames ∨
    trim pair.2.name ∈ (addedColumns p).map fun column => trim column.name

/-- A definition of one column gives another one what it has. -/
structure Rewrites (written column : ColumnSpec) : Prop where
  type : trim written.typeStr = trim column.typeStr
  nullable : written.nullable = column.nullable
  default : writtenDefault written.default = column.default
  autoIncrement : column.autoIncrement = false
  comment : trim written.comment = column.comment

/-- What its rollback needs to restore the old table. A column is given the definition of the first one
that is modified under its name. -/
structure Restorable (p : BuildAlterTableParams) : Prop where
  comment : trim p.fromSpec.comment = trim p.toSpec.comment ∨
    trim p.fromSpec.comment = p.fromSpec.comment
  columns : ∀ column ∈ p.fromSpec.columns,
    ∀ pair ∈ (modifiedColumns p).find? fun pair => trim pair.1.name = column.name,
      Rewrites pair.1 column

variable {p : BuildAlterTableParams} {table : Table}

/-! ### The script -/

/-- The definition of a column. -/
def definitionOf (column : ColumnSpec) : Definition where
  name := trim column.name
  type := trim column.typeStr
  notNull := !column.nullable
  default := literalDefault (trim column.typeStr) column.default
  comment := trim column.comment

theorem columnDefinition_ok {column : ColumnSpec} (hname : trim column.name ≠ "")
    (htype : trim column.typeStr ≠ "") :
    columnDefinition column true = .ok (definitionOf column) := by
  rw [columnDefinition, requiredText, if_neg hname, requiredText, if_neg htype]
  rfl

theorem ne_empty {name : String} (h : trim name ≠ "") : name ≠ "" := by
  rintro rfl
  exact h trim_empty

theorem columnByName_eq {spec : TableSpec} (hnodup : spec.columnNames.Nodup)
    (hnamed : ∀ column ∈ spec.columns, trim column.name ≠ "") (name : String) :
    columnByName spec name = spec.column? name := by
  rw [columnByName]
  split
  -- no column has the empty name
  · next hempty =>
    refine (column?_eq_none.2 fun hmem => ?_).symm
    obtain ⟨column, hcolumn, hname⟩ := List.mem_map.1 hmem
    exact ne_empty (hnamed column hcolumn) (hname.trans hempty)
  · cases hfind : spec.column? name with
    | none =>
      rw [List.find?_eq_none]
      intro column hcolumn
      exact List.find?_eq_none.1 hfind column (List.mem_reverse.1 hcolumn)
    -- the last column of a name is the only one, since the names are distinct
    | some column =>
      obtain ⟨hcolumn, rfl⟩ := (column?_eq_some hnodup).1 hfind
      obtain ⟨found, hfound⟩ := Option.isSome_iff_exists.1 (List.find?_isSome.2
        ⟨column, List.mem_reverse.2 hcolumn, decide_eq_true rfl⟩ :
          (spec.columns.reverse.find? fun other => other.name = column.name).isSome)
      have hname : found.name = column.name := by simpa using List.find?_some hfound
      rw [hfound, List.inj_on_of_nodup_map hnodup
        (List.mem_reverse.1 (List.mem_of_find?_eq_some hfound)) hcolumn hname]

/-- What a script is made of: statements, with what takes them back. -/
abbrev Steps := List (Statement × Statement)

/-- The comment of the table. -/
def commentSteps (p : BuildAlterTableParams) : Steps :=
  if trim p.fromSpec.comment ≠ trim p.toSpec.comment then
    [(.commentTable (trim p.toSpec.comment), .commentTable (trim p.fromSpec.comment))]
  else []

/-- The renames, and beside each the one that takes it back. -/
def renameSteps (p : BuildAlterTableParams) : Steps :=
  p.columnRenames.map fun rename =>
    (.renameColumn rename.oldName rename.newName, .renameColumn rename.newName rename.oldName)

/-- The additions, and beside each the drop that takes it back. -/
def addSteps (p : BuildAlterTableParams) : Steps :=
  (addedColumns p).map fun column => (.addColumn (definitionOf column), .dropColumn column.name)

/-- The drops, which nothing takes back: they stand in the script only when destruction is allowed. -/
def drops (p : BuildAlterTableParams) : List Statement :=
  if p.options.allowDestructive then (droppedColumns p).map fun column => .dropColumn column.name else []

/-- The changes of comments. -/
def modifySteps (p : BuildAlterTableParams) : Steps :=
  (modifiedColumns p).map fun pair =>
    (.modifyColumn (definitionOf pair.2), .modifyColumn (definitionOf pair.1))

/-- The statements in the order of the script: the modifications come after the drops. -/
def statements (p : BuildAlterTableParams) : List Statement :=
  (commentSteps p ++ renameSteps p ++ addSteps p).map Prod.fst ++ drops p
    ++ (modifySteps p).map Prod.fst

/-- The rollback: every step that can be taken back, the last one first. -/
def rollback (p : BuildAlterTableParams) : List Statement :=
  if p.options.withRollback then
    ((commentSteps p ++ renameSteps p ++ addSteps p ++ modifySteps p).map Prod.snd).reverse
  else []

/-- Some steps at once: their statements go behind, their reversals in front. -/
def AlterScript.pushAll (script : AlterScript) (withRollback : Bool) (steps : Steps) : AlterScript where
  statements := script.statements ++ steps.map Prod.fst
  rollback := if withRollback then (steps.map Prod.snd).reverse ++ script.rollback else script.rollback
  warnings := script.warnings

theorem pushAll_nil (script : AlterScript) (withRollback : Bool) :
    script.pushAll withRollback [] = script := by
  cases withRollback <;> simp [AlterScript.pushAll]

theorem pushAll_singleton (script : AlterScript) (withRollback : Bool) (statement inverse : Statement) :
    script.pushAll withRollback [(statement, inverse)] = script.push withRollback statement inverse := by
  cases withRollback <;> simp [AlterScript.pushAll, AlterScript.push]

theorem pushAll_append (script : AlterScript) (withRollback : Bool) (steps rest : Steps) :
    script.pushAll withRollback (steps ++ rest)
      = (script.pushAll withRollback steps).pushAll withRollback rest := by
  cases withRollback <;> simp [AlterScript.pushAll]

/-- A pass that pushes some steps for every item. -/
theorem foldl_pushAll {ι : Type} {f : AlterScript → ι → AlterScript} {g : ι → Steps}
    {withRollback : Bool} {items : List ι}
    (h : ∀ script, ∀ item ∈ items, f script item = script.pushAll withRollback (g item))
    (script : AlterScript) : items.foldl f script = script.pushAll withRollback (items.flatMap g) := by
  induction items generalizing script with
  | nil => exact (pushAll_nil script withRollback).symm
  | cons item items ih =>
    rw [List.foldl_cons, h script item List.mem_cons_self, List.flatMap_cons, pushAll_append]
    exact ih (fun s other hother => h s other (List.mem_cons_of_mem _ hother)) _

theorem commentTable_eq (p : BuildAlterTableParams) (script : AlterScript) :
    commentTable p script = script.pushAll p.options.withRollback (commentSteps p) := by
  unfold commentTable commentSteps
  split
  · rw [pushAll_singleton]
  · rw [pushAll_nil]

section Passes

variable (h : Change p)

include h

theorem from_columnByName (name : String) :
    columnByName p.fromSpec name = p.fromSpec.column? name :=
  columnByName_eq h.from_nodup
    (fun column hcolumn => h.columns_named column (List.mem_append_left _ hcolumn)) name

theorem to_columnByName (name : String) : columnByName p.toSpec name = p.toSpec.column? name :=
  columnByName_eq h.to_nodup
    (fun column hcolumn => h.columns_named column (List.mem_append_right _ hcolumn)) name

/-- The columns of both specifications can be defined. -/
theorem definition_ok {column : ColumnSpec} (hcolumn : column ∈ p.fromSpec.columns ++ p.toSpec.columns) :
    columnDefinition column true = .ok (definitionOf column) :=
  columnDefinition_ok (h.columns_named column hcolumn) (h.columns_typed column hcolumn)

theorem foldl_renameColumn (script : AlterScript) : p.columnRenames.foldl (renameColumn p) script
    = script.pushAll p.options.withRollback (renameSteps p) := by
  rw [renameSteps, List.map_eq_flatMap]
  refine foldl_pushAll (fun script rename hrename => ?_) script
  obtain ⟨old, hold, holdName⟩ := List.mem_map.1 (h.old_mem rename hrename)
  obtain ⟨new, hnew, hnewName⟩ := List.mem_map.1 (h.new_mem rename hrename)
  have hne := h.ne hrename
  have hnamed : trim rename.oldName ≠ "" ∧ trim rename.newName ≠ "" := by
    rw [← holdName, ← hnewName]
    exact ⟨h.columns_named old (List.mem_append_left _ hold),
      h.columns_named new (List.mem_append_right _ hnew)⟩
  rw [renameColumn, if_pos ⟨hnamed.1, hnamed.2, hne⟩, pushAll_singleton]

theorem foldlM_addColumn (script : AlterScript) : p.toSpec.columns.foldlM (addColumn p) script
    = .ok (script.pushAll p.options.withRollback (addSteps p)) := by
  rw [foldlM_ok (g := fun script column => script.pushAll p.options.withRollback
    (if column.name ∉ p.fromSpec.columnNames then
      [(.addColumn (definitionOf column), .dropColumn column.name)] else []))]
  · rw [foldl_pushAll (fun _ _ _ => rfl), flatMap_ite]
    rfl
  · intro script column hcolumn
    have hmem := List.mem_append_right p.fromSpec.columns hcolumn
    have hnone : columnByName p.fromSpec column.name = none ↔ column.name ∉ p.fromSpec.columnNames := by
      rw [from_columnByName h, column?_eq_none]
    rw [addColumn]
    -- a column is defined if the old table does not have its name, and passed over otherwise
    by_cases hnew : column.name ∉ p.fromSpec.columnNames
    · rw [if_pos ⟨ne_empty (h.columns_named column hmem), hnone.2 hnew⟩, if_pos hnew,
        definition_ok h hmem, pushAll_singleton]
      rfl
    · rw [if_neg fun hboth => hnew (hnone.1 hboth.2), if_neg hnew, pushAll_nil]
      rfl

theorem foldl_dropColumn (script : AlterScript) :
    (p.fromSpec.columns.foldl (dropColumn p) script).statements = script.statements
        ++ (droppedColumns p).map (fun column => .dropColumn column.name) ∧
      (p.fromSpec.columns.foldl (dropColumn p) script).rollback = script.rollback := by
  -- one column: a statement if its name is gone, and never anything to roll back
  have hpushed : ∀ script, ∀ column ∈ p.fromSpec.columns,
      (dropColumn p script column).statements = script.statements
        ++ (if column.name ∉ p.toSpec.columnNames then [.dropColumn column.name] else []) ∧
      (dropColumn p script column).rollback = script.rollback := by
    intro script column hcolumn
    have hnone : columnByName p.toSpec column.name = none ↔ column.name ∉ p.toSpec.columnNames := by
      rw [to_columnByName h, column?_eq_none]
    rw [dropColumn]
    by_cases hgone : column.name ∉ p.toSpec.columnNames
    · rw [if_pos ⟨ne_empty (h.columns_named column (List.mem_append_left _ hcolumn)), hnone.2 hgone⟩,
        if_pos hgone]
      exact ⟨rfl, rfl⟩
    · rw [if_neg fun hboth => hgone (hnone.1 hboth.2), if_neg hgone, List.append_nil]
      exact ⟨rfl, rfl⟩
  constructor
  · rw [foldl_pushes AlterScript.statements script fun s column hcolumn => (hpushed s column hcolumn).1,
      flatMap_ite]
    rfl
  · have hnone := foldl_pushes (g := fun _ => []) AlterScript.rollback script
      fun s column hcolumn => (hpushed s column hcolumn).2.trans (List.append_nil _).symm
    rwa [List.flatMap_eq_nil_iff.2 fun _ _ => rfl, List.append_nil] at hnone

theorem foldlM_modifyColumn (script : AlterScript) : p.toSpec.columns.foldlM (modifyColumn p) script
    = .ok (script.pushAll p.options.withRollback (modifySteps p)) := by
  -- Without a rollback the original definition is not asked for.
  rw [foldlM_ok (g := fun script column => script.pushAll p.options.withRollback
    ((((p.fromSpec.column? column.name).filter fun original =>
      trim original.comment ≠ trim column.comment).map fun original =>
        (.modifyColumn (definitionOf column), .modifyColumn (definitionOf original))).toList))]
  · rw [foldl_pushAll (fun _ _ _ => rfl)]
    refine congrArg (fun steps => Except.ok (script.pushAll _ steps)) ?_
    rw [modifySteps, modifiedColumns, List.map_filterMap, ← List.filterMap_eq_flatMap_toList]
    simp only [Option.map_map]
    rfl
  · intro script column hcolumn
    rw [modifyColumn, from_columnByName h]
    cases hfrom : p.fromSpec.column? column.name with
    | none => exact congrArg Except.ok (pushAll_nil script _).symm
    | some original =>
      have horiginal := ((column?_eq_some h.from_nodup).1 hfrom).1
      by_cases hcomment : trim original.comment ≠ trim column.comment
      · rw [Option.filter_some_pos (by simpa using hcomment), Option.map_some, Option.toList_some,
          pushAll_singleton]
        simp only
        rw [if_pos hcomment, definition_ok h (List.mem_append_right _ hcolumn),
          definition_ok h (List.mem_append_left _ horiginal)]
        cases p.options.withRollback <;> rfl
      · rw [Option.filter_some_neg (by simpa using hcomment), Option.map_none, Option.toList_none,
          pushAll_nil]
        exact if_neg hcomment

/-- The columns are dropped if they may be. -/
theorem ite_dropColumn (script : AlterScript) :
    (if p.options.allowDestructive then p.fromSpec.columns.foldl (dropColumn p) script
        else script).statements = script.statements ++ drops p ∧
      (if p.options.allowDestructive then p.fromSpec.columns.foldl (dropColumn p) script
        else script).rollback = script.rollback := by
  unfold drops
  split
  · exact foldl_dropColumn h script
  · exact ⟨(List.append_nil _).symm, rfl⟩

/-- **The script.** -/
theorem handleDdlBuildAlterTable_ok : ∃ tableName script,
    handleDdlBuildAlterTable p = .ok (tableName, script) ∧
      script.statements = statements p ∧ script.rollback = rollback p := by
  rw [handleDdlBuildAlterTable, requiredText, if_neg h.named]
  simp only [bind, Except.bind, pure, Except.pure, commentTable_eq, foldl_renameColumn h,
    foldlM_addColumn h, foldlM_modifyColumn h, ← pushAll_append]
  -- all passes but the drops push steps, so that only the drops are left to be put in their place
  refine ⟨_, _, rfl, ?_⟩
  obtain ⟨hstatements, hrollback⟩ := ite_dropColumn h ((AlterScript.mk [] [] []).pushAll
    p.options.withRollback (commentSteps p ++ renameSteps p ++ addSteps p))
  constructor
  · rw [AlterScript.pushAll, hstatements, statements, AlterScript.pushAll, List.nil_append]
  · rw [AlterScript.pushAll, hrollback, rollback, AlterScript.pushAll]
    cases p.options.withRollback
    · rfl
    · simp only [if_true, List.append_nil, ← List.reverse_append, ← List.map_append, List.append_assoc]

end Passes

/-! ### What the statements do to the columns -/

/-- The columns of the table that the request starts from. -/
abbrev oldColumns (p : BuildAlterTableParams) : String → Option Column := (tableOf p.fromSpec).columns

theorem isSome_oldColumns {name : String} : (oldColumns p name).isSome ↔ name ∈ p.fromSpec.columnNames := by
  rw [← column?_isSome]
  exact iff_of_eq (congrArg (· = true) Option.isSome_map)

theorem oldColumns_eq_none {name : String} : oldColumns p name = none ↔ name ∉ p.fromSpec.columnNames := by
  rw [← isSome_oldColumns, Option.not_isSome_iff_eq_none]

theorem oldColumns_of {name : String} {column : ColumnSpec}
    (hcolumn : p.fromSpec.column? name = some column) : oldColumns p name = some (columnOf column) :=
  congrArg (Option.map columnOf) hcolumn

/-- The name that a column is added under. -/
def trimmedName (column : ColumnSpec) : String := trim column.name

/-- What is added, as additions to a catalogue. -/
def additions (p : BuildAlterTableParams) : List (Catalog.Addition String Column) :=
  (addedColumns p).map fun column => ⟨trimmedName column, (definitionOf column).column none, []⟩

/-- What a column is changed to. -/
def changeOf (column : ColumnSpec) : String × (Column → Column) :=
  (trimmedName column, fun before => (definitionOf column).column before.origin)

/-- What is modified, as changes of a catalogue. -/
def changes (p : BuildAlterTableParams) : List (String × (Column → Column)) :=
  (modifiedColumns p).map fun pair => changeOf pair.2

/-- The changes of the rollback, which come in the opposite order. -/
def changesBack (p : BuildAlterTableParams) : List (String × (Column → Column)) :=
  (modifiedColumns p).map fun pair => changeOf pair.1

/-- The names that are dropped. -/
def droppedNames (p : BuildAlterTableParams) : List String :=
  if p.options.allowDestructive then (droppedColumns p).map trimmedName else []

/-- The commands without renames. -/
def commands (p : BuildAlterTableParams) : List (Catalog.Command String Column) :=
  (additions p).flatMap Catalog.Addition.commands ++ (droppedNames p).map .drop
    ++ (changes p).map fun change => .alter change.1 change.2

/-- The commands of the rollback without renames. -/
def commandsBack (p : BuildAlterTableParams) : List (Catalog.Command String Column) :=
  (changesBack p).reverse.map (fun change => .alter change.1 change.2)
    ++ ((additions p).map Catalog.Addition.name).reverse.map .drop

/-- The comment of the table after the script. -/
def commentAfter (p : BuildAlterTableParams) : String :=
  if trim p.fromSpec.comment ≠ trim p.toSpec.comment then trim p.toSpec.comment else p.fromSpec.comment

theorem map_name_additions :
    (additions p).map Catalog.Addition.name = (addedColumns p).map trimmedName := by
  rw [additions, List.map_map]
  rfl

theorem trim_definitionOf (column : ColumnSpec) : trim (definitionOf column).name = trimmedName column :=
  trim_trim

theorem comment_definitionOf (column : ColumnSpec) (origin : Option String) :
    ((definitionOf column).column origin).comment = trim column.comment := rfl

theorem run_addSteps (comment : String) (columns : String → Option Column) :
    run exec (Table.mk comment columns) ((addSteps p).map Prod.fst)
      = (run Catalog.exec columns ((additions p).flatMap Catalog.Addition.commands)).map
        (Table.mk comment) := by
  have hcommands : (additions p).flatMap Catalog.Addition.commands = (addedColumns p).map fun column =>
      .add (trimmedName column) ((definitionOf column).column none) := by
    rw [additions, List.flatMap_map, List.map_eq_flatMap]
    rfl
  rw [addSteps, List.map_map, hcommands]
  refine run_part (fun columns column => ?_) columns (addedColumns p)
  simp only [Function.comp_apply, exec, Table.onColumns, trim_definitionOf]

theorem run_drops (comment : String) (columns : String → Option Column) :
    run exec (Table.mk comment columns) (drops p)
      = (run Catalog.exec columns ((droppedNames p).map .drop)).map (Table.mk comment) := by
  unfold drops droppedNames
  split
  · rw [List.map_map]
    exact run_part (fun columns column => rfl) columns (droppedColumns p)
  · rfl

/-- A run of `MODIFY` statements whose columns are all there rewrites each of them. -/
theorem run_modifies (comment : String) (modified : List ColumnSpec) (columns : String → Option Column) :
    run exec (Table.mk comment columns) (modified.map fun column => .modifyColumn (definitionOf column))
      = (run Catalog.exec columns ((modified.map changeOf).map fun change =>
          .alter change.1 change.2)).map (Table.mk comment) := by
  rw [List.map_map]
  refine run_part (fun columns column => ?_) columns modified
  simp only [Function.comp_apply, exec, Table.onColumns, trim_definitionOf, changeOf]

theorem run_modifySteps (comment : String) (columns : String → Option Column) :
    run exec (Table.mk comment columns) ((modifySteps p).map Prod.fst)
      = (run Catalog.exec columns ((changes p).map fun change => .alter change.1 change.2)).map
        (Table.mk comment) := by
  have hmodified := run_modifies comment ((modifiedColumns p).map Prod.snd) columns
  simp only [modifySteps, changes, List.map_map] at hmodified ⊢
  exact hmodified

/-- **Without renames** the statements set the comment and do their commands to the columns. -/
theorem run_statements (hrenames : p.columnRenames = []) : run exec (tableOf p.fromSpec) (statements p)
    = (run Catalog.exec (oldColumns p) (commands p)).map (Table.mk (commentAfter p)) := by
  have hcomment : run exec (tableOf p.fromSpec) ((commentSteps p).map Prod.fst)
      = some (Table.mk (commentAfter p) (oldColumns p)) := by
    unfold commentSteps commentAfter
    split <;> rfl
  have hsteps : statements p = (commentSteps p).map Prod.fst
      ++ ((addSteps p).map Prod.fst ++ drops p ++ (modifySteps p).map Prod.fst) := by
    simp only [statements, renameSteps, hrenames, List.map_nil, List.append_nil, List.map_append,
      List.append_assoc]
  rw [hsteps, run_append, hcomment, Option.bind_some]
  exact run_part_append (run_part_append (run_addSteps _) (run_drops _)) (run_modifySteps _) _

/-- So does the rollback. -/
theorem run_rollback (hrenames : p.columnRenames = []) (hrollback : p.options.withRollback = true)
    (columns : String → Option Column) : run exec (Table.mk (commentAfter p) columns) (rollback p)
    = (run Catalog.exec columns (commandsBack p)).map (Table.mk
      (if trim p.fromSpec.comment ≠ trim p.toSpec.comment then trim p.fromSpec.comment
        else p.fromSpec.comment)) := by
  -- the steps in the opposite order: definitions first, then drops, then the comment of the table
  have hsteps : rollback p = ((modifiedColumns p).map Prod.fst).reverse.map
        (fun column => .modifyColumn (definitionOf column))
      ++ (addedColumns p).reverse.map (fun column => .dropColumn column.name)
      ++ ((commentSteps p).map Prod.snd).reverse := by
    simp only [rollback, hrollback, if_true, renameSteps, hrenames, addSteps, modifySteps, List.map_nil,
      List.append_nil, List.map_append, List.map_map, List.reverse_append, List.map_reverse,
      List.append_assoc]
    rfl
  have hback : (changesBack p).reverse = ((modifiedColumns p).map Prod.fst).reverse.map changeOf := by
    simp only [changesBack, List.map_reverse, List.map_map]
    rfl
  have hdrops : ∀ columns, run exec (Table.mk (commentAfter p) columns)
      ((addedColumns p).reverse.map fun column => .dropColumn column.name)
      = (run Catalog.exec columns (((additions p).map Catalog.Addition.name).reverse.map .drop)).map
        (Table.mk (commentAfter p)) := by
    intro columns
    rw [map_name_additions, ← List.map_reverse, List.map_map]
    exact run_part (fun columns column => rfl) columns _
  have hcolumns := run_part_append
    (run_modifies (commentAfter p) ((modifiedColumns p).map Prod.fst).reverse) hdrops columns
  rw [← hback] at hcolumns
  rw [hsteps, run_append, hcolumns, commandsBack]
  -- the comment of the table is another command than those on the columns, and comes last
  cases run Catalog.exec columns _ with
  | none => rfl
  | some columns' =>
    unfold commentSteps commentAfter
    split <;> rfl

/-! ### Which columns there are -/

theorem mem_addedColumns {column : ColumnSpec} :
    column ∈ addedColumns p ↔ column ∈ p.toSpec.columns ∧ column.name ∉ p.fromSpec.columnNames := by
  simp [addedColumns]

theorem mem_droppedColumns {column : ColumnSpec} :
    column ∈ droppedColumns p ↔ column ∈ p.fromSpec.columns ∧ column.name ∉ p.toSpec.columnNames := by
  simp [droppedColumns]

theorem mem_modifiedColumns {pair : ColumnSpec × ColumnSpec} : pair ∈ modifiedColumns p ↔
    pair.2 ∈ p.toSpec.columns ∧ p.fromSpec.column? pair.2.name = some pair.1 ∧
      trim pair.1.comment ≠ trim pair.2.comment := by
  obtain ⟨original, column⟩ := pair
  simp only [modifiedColumns, List.mem_filterMap, Option.map_eq_some_iff, Option.filter_eq_some_iff,
    decide_eq_true_eq, Prod.mk.injEq]
  constructor
  · rintro ⟨column, hcolumn, original, ⟨hfrom, hcomment⟩, rfl, rfl⟩
    exact ⟨hcolumn, hfrom, hcomment⟩
  · rintro ⟨hcolumn, hfrom, hcomment⟩
    exact ⟨column, hcolumn, original, ⟨hfrom, hcomment⟩, rfl, rfl⟩

/-- A column keeps its name. -/
theorem name_modifiedColumns {pair : ColumnSpec × ColumnSpec} (hpair : pair ∈ modifiedColumns p) :
    pair.1.name = pair.2.name := by
  have hfrom := (mem_modifiedColumns.1 hpair).2.1
  simpa using List.find?_some hfrom

/-- The columns are modified in their order. -/
theorem modifiedColumns_sublist :
    ((modifiedColumns p).map fun pair => pair.2.name).Sublist p.toSpec.columnNames := by
  -- the new columns among them are chosen from the specification, in its order
  have hsnd : (modifiedColumns p).map Prod.snd = p.toSpec.columns.filter fun column =>
      ((p.fromSpec.column? column.name).filter fun original =>
        trim original.comment ≠ trim column.comment).isSome := by
    rw [modifiedColumns, List.map_filterMap, ← List.filterMap_eq_filter]
    refine List.filterMap_congr fun column _ => ?_
    rw [Option.map_map, Option.guard]
    cases (p.fromSpec.column? column.name).filter fun original =>
      trim original.comment ≠ trim column.comment <;> rfl
  have hnames : (modifiedColumns p).map (fun pair => pair.2.name)
      = ((modifiedColumns p).map Prod.snd).map ColumnSpec.name := by
    rw [List.map_map]
    rfl
  rw [hnames, hsnd]
  exact List.filter_sublist.map _

/-- What the commands are about. -/
theorem names_commands {command : Catalog.Command String Column} (hcommand : command ∈ commands p) :
    ∀ name ∈ command.names, trim name = name := by
  have htrimmed : ∀ column name, name ∈ [trimmedName column] → trim name = name := by
    intro column name hname
    rw [List.mem_singleton.1 hname]
    exact trim_trim
  -- additions, drops and changes are all about trimmed names
  obtain hrest | hchange := List.mem_append.1 hcommand
  · obtain hadd | hdrop := List.mem_append.1 hrest
    · obtain ⟨addition, haddition, hmem⟩ := List.mem_flatMap.1 hadd
      obtain ⟨column, -, rfl⟩ := List.mem_map.1 haddition
      rw [List.mem_singleton.1 hmem]
      exact htrimmed column
    · obtain ⟨name, hname, rfl⟩ := List.mem_map.1 hdrop
      unfold droppedNames at hname
      split at hname
      · obtain ⟨column, -, rfl⟩ := List.mem_map.1 hname
        exact htrimmed column
      · exact absurd hname List.not_mem_nil
  · obtain ⟨change, hmem, rfl⟩ := List.mem_map.1 hchange
    obtain ⟨pair, -, rfl⟩ := List.mem_map.1 hmem
    exact htrimmed pair.2

section Results

variable (h : Change p)

include h

/-- **A script with renames cannot be executed**: the new name of the last one is taken when a column is
added under it. -/
theorem renamed_fails (hrun : run exec (tableOf p.fromSpec) (statements p) = some table) :
    p.columnRenames = [] := by
  rcases List.eq_nil_or_concat' p.columnRenames with hnil | ⟨renames, last, heq⟩
  · exact hnil
  · exfalso
    have hlast : last ∈ p.columnRenames := by
      rw [heq]
      exact List.mem_append_right _ (List.mem_singleton_self last)
    -- the new name of the last rename is no old name, so that its column is added, too
    obtain ⟨column, hcolumn, hname⟩ := List.mem_map.1 (h.new_mem last hlast)
    have hadded : column ∈ addedColumns p :=
      mem_addedColumns.2 ⟨hcolumn, hname ▸ h.new_notMem last hlast⟩
    simp only [statements, List.map_append, run_append_eq_some] at hrun
    obtain ⟨_, ⟨added, ⟨renamed, ⟨_, -, hrenames⟩, hadds⟩, -⟩, -⟩ := hrun
    rw [renameSteps, heq, List.map_append, List.map_append, run_append_eq_some] at hrenames
    obtain ⟨before, -, hrename⟩ := hrenames
    rw [List.map_singleton, List.map_singleton, run_cons_eq_some] at hrename
    obtain ⟨after, hrename, hafter⟩ := hrename
    obtain rfl := Option.some.inj hafter
    obtain ⟨columns, hexec, rfl⟩ := Option.map_eq_some_iff.1 hrename
    rw [run_addSteps, Option.map_eq_some_iff] at hadds
    obtain ⟨columns', hadds, -⟩ := hadds
    -- the addition needs the name to be free, and the rename has taken it
    have hfree := (Catalog.run_adds_iff.1 hadds).2.1 _ (List.mem_map_of_mem hadded)
    have htaken := Catalog.isSome_of_exec_rename hexec
    rw [← hname] at htaken
    exact absurd htaken (by rw [show columns (trim column.name) = none from hfree]; simp)

/-! ### Reaching the new table -/

/-- The columns after the script, if the statements are about their names. -/
def newColumns (p : BuildAlterTableParams) (name : String) : Option Column :=
  (if name ∈ droppedNames p then none else Catalog.added (additions p) (oldColumns p) name).map
    (Catalog.altered (changes p) name)

omit h in
theorem trimmedNames_of_reaches
    (hrun : run Catalog.exec (oldColumns p) (commands p) = some table.columns)
    (hreaches : table.Reaches p) : TrimmedNames p := by
  -- No statement is about a name with blanks around it.
  have hsame : ∀ name, trim name ≠ name → table.columns name = oldColumns p name := fun name hname =>
    Catalog.run_of_notMem (fun command hcommand hmem => hname (names_commands hcommand name hmem)) hrun
  constructor
  · intro column hcolumn
    obtain ⟨hto, hfrom⟩ := mem_addedColumns.1 hcolumn
    by_contra hname
    have hthere := (hreaches.names column.name).2 (List.mem_map_of_mem hto)
    rw [hsame column.name hname, isSome_oldColumns] at hthere
    exact hfrom hthere
  · intro column hcolumn
    obtain ⟨hfrom, hto⟩ := mem_droppedColumns.1 hcolumn
    by_contra hname
    refine hto ((hreaches.names column.name).1 ?_)
    rw [hsame column.name hname, isSome_oldColumns]
    exact List.mem_map_of_mem hfrom
  · intro pair hpair
    obtain ⟨hto, hfrom, hcomment⟩ := mem_modifiedColumns.1 hpair
    by_contra hname
    have hnew := hreaches.comments pair.2 hto
    rw [hsame pair.2.name hname, oldColumns_of hfrom] at hnew
    exact hcomment (congrArg trim (Option.some.inj hnew))

theorem nodup_addedColumns : ((addedColumns p).map ColumnSpec.name).Nodup :=
  h.to_nodup.sublist (List.filter_sublist.map _)

theorem nodup_droppedColumns : ((droppedColumns p).map ColumnSpec.name).Nodup :=
  h.from_nodup.sublist (List.filter_sublist.map _)

omit h in
theorem map_trimmedName {columns : List ColumnSpec}
    (htrimmed : ∀ column ∈ columns, trim column.name = column.name) :
    columns.map trimmedName = columns.map ColumnSpec.name :=
  List.map_congr_left htrimmed

section Trimmed

variable (hallow : p.options.allowDestructive = true) (htrimmed : TrimmedNames p)

include hallow htrimmed

omit h in
theorem mem_droppedNames {name : String} : name ∈ droppedNames p ↔
    name ∈ p.fromSpec.columnNames ∧ name ∉ p.toSpec.columnNames := by
  rw [droppedNames, if_pos hallow, map_trimmedName htrimmed.dropped]
  constructor
  · intro hname
    obtain ⟨column, hcolumn, rfl⟩ := List.mem_map.1 hname
    obtain ⟨hfrom, hto⟩ := mem_droppedColumns.1 hcolumn
    exact ⟨List.mem_map_of_mem hfrom, hto⟩
  · rintro ⟨hfrom, hto⟩
    obtain ⟨column, hcolumn, rfl⟩ := List.mem_map.1 hfrom
    exact List.mem_map_of_mem (mem_droppedColumns.2 ⟨hcolumn, hto⟩)

/-- **The statements can be executed** then. -/
theorem run_commands_of_trimmed :
    run Catalog.exec (oldColumns p) (commands p) = some (newColumns p) := by
  have hnames := map_name_additions.trans (map_trimmedName htrimmed.added)
  have hadds := (Catalog.run_adds_iff (t := oldColumns p)).2
    ⟨hnames ▸ nodup_addedColumns h, fun addition haddition => ?_, rfl⟩
  · rw [commands, run_append, run_append, hadds, Option.bind_some]
    -- additions, drops and changes are about different columns, so that each of them finds what it needs
    have hnodup : (droppedNames p).Nodup := by
      rw [droppedNames, if_pos hallow, map_trimmedName htrimmed.dropped]
      exact nodup_droppedColumns h
    rw [(Catalog.run_drops_iff hnodup).2 ⟨fun name hname => Catalog.isSome_added.2 (.inr
      (isSome_oldColumns.2 ((mem_droppedNames hallow htrimmed).1 hname).1)), rfl⟩, Option.bind_some]
    refine Catalog.run_alters_iff.2 ⟨fun change hchange => ?_, rfl⟩
    obtain ⟨pair, hpair, rfl⟩ := List.mem_map.1 hchange
    obtain ⟨hto, hfrom, -⟩ := mem_modifiedColumns.1 hpair
    have hname : (changeOf pair.2).1 = pair.2.name := htrimmed.modified pair hpair
    rw [hname, if_neg fun hdropped => ((mem_droppedNames hallow htrimmed).1 hdropped).2
      (List.mem_map_of_mem hto)]
    refine Catalog.isSome_added.2 (.inr (isSome_oldColumns.2 (column?_isSome.1 ?_)))
    rw [hfrom]
    rfl
  -- an added column has a new name, and the name is not trimmed to an old one
  · obtain ⟨column, hcolumn, rfl⟩ := List.mem_map.1 haddition
    refine oldColumns_eq_none.2 ?_
    rw [show trimmedName column = column.name from htrimmed.added column hcolumn]
    exact (mem_addedColumns.1 hcolumn).2

omit h hallow in
theorem notMem_changes {name : String} (hname : name ∉ p.fromSpec.columnNames) :
    name ∉ (changes p).map Prod.fst := by
  intro hmem
  obtain ⟨change, hchange, rfl⟩ := List.mem_map.1 hmem
  obtain ⟨pair, hpair, rfl⟩ := List.mem_map.1 hchange
  have hfrom := (mem_modifiedColumns.1 hpair).2.1
  refine hname (column?_isSome.1 ?_)
  rw [show (changeOf pair.2).1 = pair.2.name from htrimmed.modified pair hpair, hfrom]
  rfl

theorem newColumns_of_added {column : ColumnSpec} (hcolumn : column ∈ addedColumns p) :
    newColumns p column.name = some ((definitionOf column).column none) := by
  obtain ⟨hto, hfrom⟩ := mem_addedColumns.1 hcolumn
  have hname : trimmedName column = column.name := htrimmed.added column hcolumn
  have hnodup : ((additions p).map Catalog.Addition.name).Nodup := by
    rw [map_name_additions, map_trimmedName htrimmed.added]
    exact nodup_addedColumns h
  have hadded := Catalog.added_of_mem (t := oldColumns p) hnodup
    (List.mem_map_of_mem hcolumn : _ ∈ additions p)
  rw [show (Catalog.Addition.mk (trimmedName column) ((definitionOf column).column none) []).name
    = column.name from hname] at hadded
  rw [newColumns, if_neg fun hdropped => hfrom ((mem_droppedNames hallow htrimmed).1 hdropped).1, hadded,
    Catalog.map_altered_of_notMem _ (notMem_changes htrimmed hfrom)]
  rfl

theorem newColumns_of_kept {column original : ColumnSpec} (hcolumn : column ∈ p.toSpec.columns)
    (hfrom : p.fromSpec.column? column.name = some original) :
    newColumns p column.name = some (if trim original.comment ≠ trim column.comment then
      (definitionOf column).column (some original.name) else columnOf original) := by
  have hmem : column.name ∈ p.fromSpec.columnNames := column?_isSome.1 (by rw [hfrom]; rfl)
  -- a column of both specifications is neither added nor dropped
  have hnew : column.name ∉ (additions p).map Catalog.Addition.name := by
    rw [map_name_additions, map_trimmedName htrimmed.added]
    intro hadded
    obtain ⟨other, hother, hname⟩ := List.mem_map.1 hadded
    exact (mem_addedColumns.1 hother).2 (hname ▸ hmem)
  rw [newColumns, if_neg fun hdropped => ((mem_droppedNames hallow htrimmed).1 hdropped).2
    (List.mem_map_of_mem hcolumn), Catalog.added_of_notMem hnew, oldColumns_of hfrom,
    Option.map_some]
  refine congrArg some ?_
  split
  -- its comment differs: the definition is the only one under its name
  · next hcomment =>
    have hpair : (original, column) ∈ modifiedColumns p := mem_modifiedColumns.2 ⟨hcolumn, hfrom, hcomment⟩
    have hchanges : (changes p).map Prod.fst = (modifiedColumns p).map fun pair => pair.2.name := by
      rw [changes, List.map_map]
      exact List.map_congr_left fun pair hpair => htrimmed.modified pair hpair
    have hnodup : ((changes p).map Prod.fst).Nodup := by
      rw [hchanges]
      exact h.to_nodup.sublist modifiedColumns_sublist
    have hchange : changeOf column ∈ changes p := List.mem_map.2 ⟨_, hpair, rfl⟩
    have haltered := Catalog.altered_of_mem hnodup hchange (columnOf original)
    rw [show (changeOf column).1 = column.name from htrimmed.modified (original, column) hpair] at haltered
    exact haltered
  -- its comment does not: a definition under its name would be its own
  · next hcomment =>
    refine Catalog.altered_of_notMem _ fun hmem => hcomment ?_
    obtain ⟨change, hchange, hname⟩ := List.mem_map.1 hmem
    obtain ⟨pair, hpair, rfl⟩ := List.mem_map.1 hchange
    obtain ⟨hto, hfrom', hcomment'⟩ := mem_modifiedColumns.1 hpair
    rw [show (changeOf pair.2).1 = pair.2.name from htrimmed.modified pair hpair] at hname
    rw [hname, hfrom] at hfrom'
    rw [Option.some.inj hfrom', ← List.inj_on_of_nodup_map h.to_nodup hto hcolumn hname]
    exact hcomment'

omit h in
theorem newColumns_of_notMem {name : String} (hname : name ∉ p.toSpec.columnNames) :
    newColumns p name = none := by
  unfold newColumns
  split
  · rfl
  -- a name of neither specification was not there and is not added
  · next hdropped =>
    have hfrom : name ∉ p.fromSpec.columnNames := fun hfrom =>
      hdropped ((mem_droppedNames hallow htrimmed).2 ⟨hfrom, hname⟩)
    have hadded : name ∉ (additions p).map Catalog.Addition.name := by
      rw [map_name_additions, map_trimmedName htrimmed.added]
      intro hadded
      obtain ⟨column, hcolumn, rfl⟩ := List.mem_map.1 hadded
      exact hname (List.mem_map_of_mem (mem_addedColumns.1 hcolumn).1)
    rw [Catalog.added_of_notMem hadded, oldColumns_eq_none.2 hfrom]
    rfl

omit h hallow htrimmed in
theorem commentReached_iff (before after : String) :
    (if trim before ≠ trim after then trim after else before) = after ↔ CommentReached before after := by
  unfold CommentReached
  by_cases hsame : trim before = trim after
  · rw [if_neg (not_not_intro hsame), if_pos hsame]
  · rw [if_pos hsame, if_neg hsame]

/-- **The new table is reached** if the comments are. -/
theorem reaches_iff (hrenames : p.columnRenames = []) :
    (Table.mk (commentAfter p) (newColumns p)).Reaches p ↔ Reachable p := by
  have htable : commentAfter p = p.toSpec.comment ↔ CommentReached p.fromSpec.comment p.toSpec.comment :=
    commentReached_iff p.fromSpec.comment p.toSpec.comment
  -- the columns of both specifications have the new comment under the condition on comments
  have hkept : ∀ column ∈ p.toSpec.columns, ∀ original ∈ p.fromSpec.column? column.name,
      ((newColumns p column.name).map Column.comment = some column.comment ↔
        CommentReached original.comment column.comment) := by
    intro column hcolumn original horiginal
    rw [newColumns_of_kept h hallow htrimmed hcolumn horiginal, ← commentReached_iff, Option.map_some,
      Option.some_inj, apply_ite Column.comment, comment_definitionOf, columnOf]
  constructor
  -- the comments of added columns are those of their definitions, which are trimmed
  · rintro ⟨-, hcomment, hcomments, -⟩
    dsimp only at hcomment hcomments
    refine ⟨htrimmed, htable.1 hcomment, fun column hcolumn => ?_,
      fun column hcolumn original horiginal =>
        (hkept column hcolumn original horiginal).1 (hcomments column hcolumn)⟩
    have hadded := hcomments column (mem_addedColumns.1 hcolumn).1
    rw [newColumns_of_added h hallow htrimmed hcolumn, Option.map_some, comment_definitionOf] at hadded
    exact Option.some.inj hadded
  -- a column of the new specification is an added one or one that was kept
  · intro hreachable
    have hnew : ∀ column ∈ p.toSpec.columns, (newColumns p column.name).isSome ∧
        (newColumns p column.name).map Column.comment = some column.comment := by
      intro column hcolumn
      cases hfrom : p.fromSpec.column? column.name with
      -- an added column
      | none =>
        have hadded := mem_addedColumns.2 ⟨hcolumn, column?_eq_none.1 hfrom⟩
        rw [newColumns_of_added h hallow htrimmed hadded, Option.map_some, comment_definitionOf,
          hreachable.added_comment column hadded]
        exact ⟨Option.isSome_some, rfl⟩
      -- a column of both specifications
      | some original =>
        refine ⟨?_, (hkept column hcolumn original hfrom).2 (hreachable.comments column hcolumn original hfrom)⟩
        rw [newColumns_of_kept h hallow htrimmed hcolumn hfrom, Option.isSome_some]
    have hnames : ∀ name, (newColumns p name).isSome ↔ name ∈ p.toSpec.columnNames := by
      intro name
      refine ⟨fun hsome => ?_, fun hname => ?_⟩
      · by_contra hname
        rw [newColumns_of_notMem hallow htrimmed hname] at hsome
        exact absurd hsome (by simp)
      · obtain ⟨column, hcolumn, rfl⟩ := List.mem_map.1 hname
        exact (hnew column hcolumn).1
    constructor
    · exact hnames
    · dsimp only
      exact htable.2 hreachable.comment
    · exact fun column hcolumn => (hnew column hcolumn).2
    · simp [hrenames]

end Trimmed

/-! ### Coming back -/

section Kept

variable (hallow : p.options.allowDestructive = false)

include hallow

omit h in
theorem droppedNames_eq_nil : droppedNames p = [] := by
  rw [droppedNames, hallow]
  rfl

omit h in
/-- **The statements can be executed** then. -/
theorem run_commands_iff {columns : String → Option Column} :
    run Catalog.exec (oldColumns p) (commands p) = some columns ↔
      Executable p ∧ columns = newColumns p := by
  -- nothing is dropped, so that the columns are the added ones with their changes
  have hnew : newColumns p = fun name => (Catalog.added (additions p) (oldColumns p) name).map
      (Catalog.altered (changes p) name) := by
    funext name
    rw [newColumns, droppedNames_eq_nil hallow, if_neg List.not_mem_nil]
  have hcommands : commands p = (additions p).flatMap Catalog.Addition.commands
      ++ (changes p).map fun change => .alter change.1 change.2 := by
    rw [commands, droppedNames_eq_nil hallow, List.map_nil, List.append_nil]
  -- the three conditions on the commands are those on the specifications
  have hthere : (∀ change ∈ changes p, (Catalog.added (additions p) (oldColumns p) change.1).isSome) ↔
      ∀ pair ∈ modifiedColumns p, trim pair.2.name ∈ p.fromSpec.columnNames ∨
        trim pair.2.name ∈ (addedColumns p).map fun column => trim column.name := by
    rw [changes, List.forall_mem_map]
    refine forall₂_congr fun pair _ => ?_
    rw [Catalog.isSome_added, isSome_oldColumns, map_name_additions, or_comm]
    rfl
  have hfree : (∀ addition ∈ additions p, oldColumns p addition.name = none) ↔
      ∀ column ∈ addedColumns p, trim column.name ∉ p.fromSpec.columnNames := by
    rw [additions, List.forall_mem_map]
    exact forall₂_congr fun column _ => oldColumns_eq_none
  have hnodup : ((additions p).map Catalog.Addition.name).Nodup ↔
      ((addedColumns p).map fun column => trim column.name).Nodup := by
    rw [map_name_additions]
    rfl
  rw [hcommands, run_append_eq_some, hnew]
  constructor
  -- the additions succeed by the first two of them, and the changes by the third one
  · rintro ⟨added, hadds, halters⟩
    obtain ⟨hdistinct, hnone, rfl⟩ := Catalog.run_adds_iff.1 hadds
    obtain ⟨hall, rfl⟩ := Catalog.run_alters_iff.1 halters
    exact ⟨⟨hnodup.1 hdistinct, hfree.1 hnone, hthere.1 hall⟩, rfl⟩
  · rintro ⟨hexecutable, rfl⟩
    exact ⟨_, Catalog.run_adds_iff.2 ⟨hnodup.2 hexecutable.nodup, hfree.2 hexecutable.free, rfl⟩,
      Catalog.run_alters_iff.2 ⟨hthere.2 hexecutable.there, rfl⟩⟩

omit h hallow in
/-- What a definition writes as the default. -/
theorem text_literalDefault (type : String) (default : Option String) :
    (literalDefault type default).map DefaultValue.text = writtenDefault default := by
  cases default with
  | none => rfl
  | some default =>
    simp only [literalDefault, writtenDefault, Option.map_some]
    by_cases hnull : trim default = "" ∨ Text.asciiLower (trim default).toList = "null".toList
    · rw [if_pos hnull, Option.filter_some_neg]
      · rfl
      · simpa [or_iff_not_imp_left] using hnull
    · rw [if_neg hnull, Option.filter_some_pos]
      · split <;> rfl
      · simpa [or_iff_not_imp_left] using hnull

omit h hallow in
/-- A column is given a definition that rewrites it. -/
theorem column_definitionOf_eq_iff {written column : ColumnSpec} :
    (definitionOf written).column (some column.name) = columnOf column ↔ Rewrites written column := by
  rw [Definition.column, definitionOf, columnOf, Column.mk.injEq, text_literalDefault]
  simp only [Bool.not_inj_iff, and_true]
  constructor
  · rintro ⟨htype, hnullable, hdefault, hincrement, hcomment⟩
    exact ⟨htype, hnullable, hdefault, hincrement.symm, hcomment⟩
  · rintro ⟨htype, hnullable, hdefault, hincrement, hcomment⟩
    exact ⟨htype, hnullable, hdefault, hincrement.symm, hcomment⟩

omit h hallow in
/-- No change makes a column another one. -/
theorem origin_altered (columns : List ColumnSpec) (name : String) (column : Column) :
    (Catalog.altered (columns.map changeOf) name column).origin = column.origin := by
  refine Catalog.altered_keeps Column.origin (fun change hchange value => ?_) name column
  obtain ⟨written, -, rfl⟩ := List.mem_map.1 hchange
  rfl

omit h hallow in
/-- Of several definitions in the opposite order the first one stays. -/
theorem altered_reverse (columns : List ColumnSpec) (name : String) (column : Column) :
    Catalog.altered (columns.map changeOf).reverse name column
      = match columns.find? fun written => trim written.name = name with
        | some written => (definitionOf written).column column.origin
        | none => column := by
  induction columns with
  | nil => rfl
  | cons first columns ih =>
    rw [List.map_cons, List.reverse_cons, Catalog.altered_append]
    -- the first definition comes last in the opposite order, and leaves nothing of the others but the
    -- origin
    by_cases hname : trim first.name = name
    · rw [List.find?_cons_of_pos (by simpa using hname),
        Catalog.altered_cons_self (show (changeOf first).1 = name from hname), ← List.map_reverse]
      show (definitionOf first).column (Catalog.altered _ name column).origin = _
      rw [origin_altered]
    · rw [List.find?_cons_of_neg (by simpa using hname),
        Catalog.altered_cons_of_ne (show (changeOf first).1 ≠ name from hname)]
      exact ih

omit h in
theorem isSome_newColumns {name : String} : (newColumns p name).isSome ↔
    name ∈ (addedColumns p).map trimmedName ∨ name ∈ p.fromSpec.columnNames := by
  rw [newColumns, droppedNames_eq_nil hallow, if_neg List.not_mem_nil, Option.isSome_map,
    Catalog.isSome_added, isSome_oldColumns, map_name_additions]

omit h in
theorem newColumns_of_notMem_additions {name : String}
    (hname : name ∉ (additions p).map Catalog.Addition.name) :
    newColumns p name = (oldColumns p name).map (Catalog.altered (changes p) name) := by
  rw [newColumns, droppedNames_eq_nil hallow, if_neg List.not_mem_nil, Catalog.added_of_notMem hname]

omit h hallow in
/-- A column after the rollback. -/
theorem altered_changesBack (name : String) (column : Column) :
    Catalog.altered (changesBack p).reverse name (Catalog.altered (changes p) name column)
      = match (modifiedColumns p).find? fun pair => trim pair.1.name = name with
        | some pair => (definitionOf pair.1).column column.origin
        -- no definition under the name on the way back, so none on the way there
        | none => column := by
  have hback : changesBack p = ((modifiedColumns p).map Prod.fst).map changeOf := by
    rw [changesBack, List.map_map]
    rfl
  have hchanges : changes p = ((modifiedColumns p).map Prod.snd).map changeOf := by
    rw [changes, List.map_map]
    rfl
  rw [hback, altered_reverse, List.find?_map, Function.comp_def, hchanges, origin_altered]
  cases hfind : (modifiedColumns p).find? fun pair => trim pair.1.name = name with
  | some pair => rfl
  | none =>
    refine Catalog.altered_of_notMem column fun hmem => ?_
    obtain ⟨change, hchange, hname⟩ := List.mem_map.1 hmem
    obtain ⟨written, hwritten, rfl⟩ := List.mem_map.1 hchange
    obtain ⟨pair, hpair, rfl⟩ := List.mem_map.1 hwritten
    refine List.find?_eq_none.1 hfind pair hpair (decide_eq_true ?_)
    rw [name_modifiedColumns hpair]
    exact hname

/-- **The rollback** can be executed after the script, and it restores the columns exactly if the
definitions that it writes are those of the columns. -/
theorem run_commandsBack (hexecutable : Executable p) :
    ∃ columns, run Catalog.exec (newColumns p) (commandsBack p) = some columns ∧
      (columns = oldColumns p ↔ ∀ column ∈ p.fromSpec.columns,
        ∀ pair ∈ (modifiedColumns p).find? fun pair => trim pair.1.name = column.name,
          Rewrites pair.1 column) := by
  have hnodup : ((additions p).map Catalog.Addition.name).Nodup := by
    rw [map_name_additions]
    exact hexecutable.nodup
  -- the added columns have no old names
  have hnew : ∀ name ∈ p.fromSpec.columnNames, name ∉ (additions p).map Catalog.Addition.name := by
    intro name hname hadded
    rw [map_name_additions] at hadded
    obtain ⟨column, hcolumn, rfl⟩ := List.mem_map.1 hadded
    exact hexecutable.free column hcolumn hname
  -- first the definitions are written back, then the added columns are dropped
  let back : String → Option Column := fun name =>
    (newColumns p name).map (Catalog.altered (changesBack p).reverse name)
  have hback : ∀ name, name ∉ (additions p).map Catalog.Addition.name → back name
      = ((oldColumns p name).map (Catalog.altered (changes p) name)).map
        (Catalog.altered (changesBack p).reverse name) := fun name hname =>
    congrArg (Option.map _) (newColumns_of_notMem_additions hallow hname)
  have halters : run Catalog.exec (newColumns p)
      ((changesBack p).reverse.map fun change => .alter change.1 change.2) = some back := by
    refine Catalog.run_alters_iff.2 ⟨fun change hchange => ?_, rfl⟩
    obtain ⟨pair, hpair, rfl⟩ := List.mem_map.1 (List.mem_reverse.1 hchange)
    rw [isSome_newColumns hallow, show (changeOf pair.1).1 = trim pair.2.name from
      congrArg trim (name_modifiedColumns hpair)]
    exact (hexecutable.there pair hpair).symm
  -- the added columns are still there to be dropped
  have hdrops := (Catalog.run_drops_iff (t := back) (List.nodup_reverse.2 hnodup)).2
    ⟨fun name hname => by
      rw [List.mem_reverse, map_name_additions] at hname
      rw [Option.isSome_map, isSome_newColumns hallow]
      exact .inl hname, rfl⟩
  refine ⟨_, by rw [commandsBack, run_append, halters]; exact hdrops, ?_⟩
  rw [funext_iff]
  constructor
  -- where the columns are the old ones, the definition that came last was right
  · intro hsame column hcolumn pair hpair
    have hfrom := (column?_eq_some h.from_nodup).2 ⟨hcolumn, rfl⟩
    have hname := hnew column.name (List.mem_map_of_mem hcolumn)
    have hrestored := hsame column.name
    rw [if_neg fun hadded => hname (List.mem_reverse.1 hadded),
      hback column.name hname, oldColumns_of hfrom, Option.map_some,
      Option.map_some, altered_changesBack, Option.mem_def.1 hpair] at hrestored
    exact column_definitionOf_eq_iff.1 (Option.some.inj hrestored)
  · intro hrewrites name
    by_cases hadded : name ∈ (additions p).map Catalog.Addition.name
    -- an added column is gone, and there was none before
    · rw [if_pos (List.mem_reverse.2 hadded)]
      exact (oldColumns_eq_none.2 fun hfrom => hnew name hfrom hadded).symm
    · rw [if_neg fun hmem => hadded (List.mem_reverse.1 hmem),
        hback name hadded]
      cases hfrom : p.fromSpec.column? name with
      | none =>
        rw [oldColumns_eq_none.2 (column?_eq_none.1 hfrom)]
        rfl
      | some column =>
        obtain ⟨hcolumn, rfl⟩ := (column?_eq_some h.from_nodup).1 hfrom
        rw [oldColumns_of hfrom, Option.map_some, Option.map_some, altered_changesBack]
        split
        · next pair hpair =>
          exact congrArg some (column_definitionOf_eq_iff.2 (hrewrites column hcolumn pair hpair))
        · rfl

end Kept

/-- What the script has to do, by its statements. -/
theorem right_iff : Right p ↔ ∃ table, run exec (tableOf p.fromSpec) (statements p) = some table ∧
    (p.options.allowDestructive = true → table.Reaches p) ∧
    (p.options.allowDestructive = false → p.options.withRollback = true →
      run exec table (rollback p) = some (tableOf p.fromSpec)) := by
  obtain ⟨tableName, script, hscript, hstatements, hrollback⟩ := handleDdlBuildAlterTable_ok h
  constructor
  · rintro ⟨tableName', script', table, hscript', hresult⟩
    obtain ⟨rfl, rfl⟩ := Prod.mk.inj (Except.ok.inj (hscript.symm.trans hscript'))
    rw [hstatements, hrollback] at hresult
    exact ⟨table, hresult⟩
  · rintro ⟨table, hresult⟩
    rw [← hstatements, ← hrollback] at hresult
    exact ⟨tableName, script, table, hscript, hresult⟩

omit h in
/-- The comment of the table after the rollback. -/
theorem restored_iff :
    (if trim p.fromSpec.comment ≠ trim p.toSpec.comment then trim p.fromSpec.comment
      else p.fromSpec.comment) = p.fromSpec.comment ↔
    trim p.fromSpec.comment = trim p.toSpec.comment ∨ trim p.fromSpec.comment = p.fromSpec.comment := by
  by_cases hsame : trim p.fromSpec.comment = trim p.toSpec.comment
  · rw [if_neg (not_not_intro hsame)]
    exact iff_of_true rfl (.inl hsame)
  · rw [if_pos hsame, or_iff_right hsame]

/-- **A script is right** exactly when nothing is renamed and, if it may drop columns, all names that
statements are about are trimmed and the comments are reached; and, if not, trimmed names are still
distinct and there, and the definitions that the rollback writes are those of the columns. -/
theorem script_right_iff : Right p ↔ p.columnRenames = [] ∧
    (p.options.allowDestructive = true → Reachable p) ∧
    (p.options.allowDestructive = false → Executable p ∧
      (p.options.withRollback = true → Restorable p)) := by
  rw [right_iff h]
  constructor
  -- a script that can be executed renames nothing; what else it needs depends on the option
  · rintro ⟨table, hrun, hreaches, hback⟩
    have hrenames := renamed_fails h hrun
    rw [run_statements hrenames, Option.map_eq_some_iff] at hrun
    obtain ⟨columns, hrun, rfl⟩ := hrun
    refine ⟨hrenames, fun hallow => ?_, fun hallow => ?_⟩
    -- columns may be dropped: the names of the table are trimmed, and so are those of the specifications
    · have htrimmed := trimmedNames_of_reaches hrun (hreaches hallow)
      obtain rfl := Option.some.inj (hrun.symm.trans (run_commands_of_trimmed h hallow htrimmed))
      exact (reaches_iff h hallow htrimmed hrenames).1 (hreaches hallow)
    -- nothing is dropped: what is left is the rollback
    · obtain ⟨hexecutable, rfl⟩ := (run_commands_iff hallow).1 hrun
      refine ⟨hexecutable, fun hrollback => ?_⟩
      obtain ⟨columns, hrunBack, hrestored⟩ := run_commandsBack h hallow hexecutable
      have htable := hback hallow hrollback
      rw [run_rollback hrenames hrollback, hrunBack, Option.map_some, Option.some_inj,
        Table.ext_iff] at htable
      exact ⟨restored_iff.1 htable.1, hrestored.1 htable.2⟩
  · rintro ⟨hrenames, hreachable, hkept⟩
    rw [run_statements hrenames]
    cases hallow : p.options.allowDestructive with
    -- the conditions say what the statements lead to, and what the rollback leads back to
    | true =>
      have htrimmed := (hreachable hallow).toTrimmedNames
      rw [run_commands_of_trimmed h hallow htrimmed]
      exact ⟨_, rfl, fun _ => (reaches_iff h hallow htrimmed hrenames).2 (hreachable hallow),
        fun hfalse => absurd hfalse (by simp)⟩
    | false =>
      obtain ⟨hexecutable, hrestorable⟩ := hkept hallow
      rw [(run_commands_iff hallow).2 ⟨hexecutable, rfl⟩]
      refine ⟨_, rfl, fun htrue => absurd htrue (by simp), fun _ hrollback => ?_⟩
      obtain ⟨columns, hrunBack, hrestored⟩ := run_commandsBack h hallow hexecutable
      rw [run_rollback hrenames hrollback, hrunBack, Option.map_some, Option.some_inj, Table.ext_iff]
      exact ⟨restored_iff.2 (hrestorable hrollback).comment,
        hrestored.2 (hrestorable hrollback).columns⟩

end Results

/-- A column of texts. -/
def textColumn (name comment : String) : ColumnSpec where
  name := name
  typeStr := "varchar(64)"
  nullable := true
  default := some "guest"
  isPrimary := false
  isUnique := false
  autoIncrement := false
  comment := comment

/-- A table of people. -/
def peopleTable (columns : List ColumnSpec) : TableSpec where
  name := "people"
  schema := none
  database := none
  columns := columns
  indexes := []
  comment := "People"

/-- A column gets another comment and one is added, with a rollback. -/
def emailAdded : BuildAlterTableParams where
  fromSpec := peopleTable [textColumn "name" ""]
  toSpec := peopleTable [textColumn "name" "Full name", textColumn "email" "Address"]
  columnRenames := []
  options := ⟨false, true⟩

/-- That is done, and taken back. -/
theorem script_right_emailAdded : Right emailAdded := by
  have hrenaming : Renaming emailAdded := by
    constructor <;> decide +kernel
  have h : Change emailAdded :=
    ⟨hrenaming, by decide +kernel, by decide +kernel, by decide +kernel, by decide +kernel⟩
  refine (script_right_iff h).2 ⟨rfl, fun hallow => absurd hallow (by decide), fun _ => ⟨?_, fun _ => ?_⟩⟩
  · constructor <;> decide +kernel
  · refine ⟨by decide +kernel, ?_⟩
    intro column hcolumn pair hpair
    obtain rfl := List.mem_singleton.1 hcolumn
    obtain rfl : (textColumn "name" "", textColumn "name" "Full name") = pair := by
      have hfind : (modifiedColumns emailAdded).find? (fun pair => trim pair.1.name = "name")
          = some (textColumn "name" "", textColumn "name" "Full name") := by decide +kernel
      exact Option.some.inj (hfind.symm.trans hpair)
    constructor <;> decide +kernel

/-- A column is renamed. -/
def nameRenamed : BuildAlterTableParams where
  fromSpec := peopleTable [textColumn "name" ""]
  toSpec := peopleTable [textColumn "full_name" ""]
  columnRenames := [⟨"name", "full_name"⟩]
  options := ⟨true, true⟩

/-- **A renamed column is added once more**, and the script stops there. -/
theorem renamed_twice : Change nameRenamed ∧ ¬ Right nameRenamed := by
  have hrenaming : Renaming nameRenamed := by
    constructor <;> decide +kernel
  have h : Change nameRenamed :=
    ⟨hrenaming, by decide +kernel, by decide +kernel, by decide +kernel, by decide +kernel⟩
  refine ⟨h, fun hright => ?_⟩
  obtain ⟨table, hrun, -⟩ := (right_iff h).1 hright
  exact absurd (renamed_fails h hrun) (by decide)

end Gbase8aDdl
end Navop
