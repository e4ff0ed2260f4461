import NavopExtensions.Opengauss.Ddl
import NavopExtensions.Lib.Catalog

/-!
# Reaching another openGauss table, and coming back

A table has a comment, and columns with comments by their names; a column is one of the original table
or was added. The four passes of `build_alter_table` compare names on their own: the drops do not know
what was renamed, and comments go to the names of the old specification. So a script with a rename does
not reach the new specification if columns may be dropped, and fails if the old name of a renamed column
gets another comment (`alter_correct_iff`).
-/

namespace Navop
namespace OpengaussDdl

open ExtensionProtocol Script

/-- Where a column comes from. -/
inductive Origin
  | original (column : ColumnSpec)
  | added (column : ColumnSpec)
  deriving DecidableEq

/-- A column of a table. -/
structure Column where
  origin : Origin
  comment : String
  deriving DecidableEq

/-- A table as the statements see it: columns under their names, and a comment. -/
structure Table where
  columns : String → Option Column
  comment : String

/-- The table that a specification describes. -/
def tableOf (spec : TableSpec) : Table where
  columns name := (spec.column? name).map fun column => ⟨.original column, column.comment⟩
  comment := spec.comment

/-- A column gets another comment. -/
def Column.commented (comment : String) (column : Column) : Column := { column with comment := comment }

/-- What a statement does to the columns. -/
def Statement.command : Statement → Option (Catalog.Command String Column)
  | .renameColumn oldName newName => some (.rename oldName newName)
  | .addColumn column _ => some (.add column.name ⟨.added column, ""⟩)
  | .dropColumn name => some (.drop name)
  | .commentTable _ => none
  | .commentColumn name comment => some (.alter name (Column.commented comment))

/-- A statement is executed. -/
def exec (table : Table) (statement : Statement) : Option Table :=
  match statement, statement.command with
  | .commentTable comment, _ => some { table with comment := comment }
  | _, some command =>
    (Catalog.exec table.columns command).map fun columns => { table with columns := columns }
  | _, none => none

/-- The script does what it is for: it can be executed; if columns may be dropped, the table has the
columns and the comments of the new specification, and a renamed column is the original one; if not,
its rollback restores the table. -/
def Correct (p : BuildAlterTableParams) : Prop :=
  ∃ tableName script table, buildAlterTable p = .ok (tableName, script) ∧
    run exec (tableOf p.fromSpec) script.statements = some table ∧
    (p.options.allowDestructive = true →
      (∀ name, (table.columns name).isSome ↔ name ∈ p.toSpec.columnNames) ∧
      table.comment = p.toSpec.comment ∧
      (∀ column ∈ p.toSpec.columns,
        (table.columns column.name).map Column.comment = some column.comment) ∧
      ∀ rename ∈ p.columnRenames, ∃ original ∈ p.fromSpec.columns,
        original.name = rename.oldName ∧
          (table.columns rename.newName).map Column.origin = some (.original original)) ∧
    (p.options.allowDestructive = false → p.options.withRollback = true →
      run exec table script.rollback = some (tableOf p.fromSpec))

variable {p : BuildAlterTableParams} {table table' : Table}

/-! ### The script -/

/-- The statements for a column that is added. -/
def addStatements (column : ColumnSpec) : List Statement :=
  .addColumn column ((columnDefinition column).toOption.getD "")
    :: if isBlank column.comment then [] else [.commentColumn column.name column.comment]

/-- The columns that are dropped, if they may be. -/
def drops (p : BuildAlterTableParams) : List ColumnSpec :=
  if p.options.allowDestructive then droppedColumns p else []

/-- The columns of both specifications whose comments change. -/
def recommented (p : BuildAlterTableParams) : List ColumnSpec :=
  p.toSpec.columns.filter fun column =>
    (p.fromSpec.column? column.name).any fun before => before.comment ≠ column.comment

/-- The comment of a name in the old specification. -/
def oldComment (p : BuildAlterTableParams) (name : String) : String :=
  ((p.fromSpec.column? name).map ColumnSpec.comment).getD ""

/-- A statement for the comment of the table, if it changes. -/
def tableComment (p : BuildAlterTableParams) (comment : String) : List Statement :=
  if p.fromSpec.comment ≠ p.toSpec.comment then [.commentTable comment] else []

/-- A pass over items pushes statements and puts others in front of the rollback. -/
theorem foldl_emits {ι : Type} {f : AlterScript → ι → AlterScript} {pushed undone : ι → List Statement}
    {items : List ι} (script : AlterScript)
    (h : ∀ item ∈ items, ∀ script, (f script item).statements = script.statements ++ pushed item ∧
      (f script item).rollback = undone item ++ script.rollback) :
    (items.foldl f script).statements = script.statements ++ items.flatMap pushed ∧
      (items.foldl f script).rollback = items.reverse.flatMap undone ++ script.rollback := by
  induction items generalizing script with
  | nil => simp
  | cons item items ih =>
    obtain ⟨hstatements, hrollback⟩ := h item List.mem_cons_self script
    have hrest := ih (f script item) fun other hother => h other (List.mem_cons_of_mem _ hother)
    rw [List.foldl_cons, hrest.1, hrest.2, hstatements, hrollback]
    simp

/-- A pass that cannot fail. -/
theorem foldlM_ok {ι : Type} {f : AlterScript → ι → Except String AlterScript}
    {g : AlterScript → ι → AlterScript} {items : List ι} (script : AlterScript)
    (h : ∀ item ∈ items, ∀ script, f script item = .ok (g script item)) :
    items.foldlM f script = .ok (items.foldl g script) := by
  induction items generalizing script with
  | nil => rfl
  | cons item items ih =>
    rw [List.foldlM_cons, h item List.mem_cons_self, List.foldl_cons]
    exact ih _ fun other hother => h other (List.mem_cons_of_mem _ hother)

theorem undo_statements (withRollback : Bool) (script : AlterScript) (statement : Statement) :
    (script.undo withRollback statement).statements = script.statements := by
  cases withRollback <;> rfl

theorem undo_rollback (withRollback : Bool) (script : AlterScript) (statement : Statement) :
    (script.undo withRollback statement).rollback
      = (if withRollback then [statement] else []) ++ script.rollback := by
  cases withRollback <;> rfl

/-- What `diffComment` does for a column with a name. -/
theorem diffComment_emits (hnodup : p.fromSpec.columnNames.Nodup) {column : ColumnSpec}
    (hname : column.name ≠ "") (withRollback : Bool) (script : AlterScript) :
    let changes := (p.fromSpec.column? column.name).any fun before => before.comment ≠ column.comment
    (diffComment withRollback p.fromSpec script column).statements = script.statements
        ++ (if changes then [.commentColumn column.name column.comment] else []) ∧
      (diffComment withRollback p.fromSpec script column).rollback
        = (if changes && withRollback then [.commentColumn column.name (oldComment p column.name)]
            else []) ++ script.rollback := by
  -- no name comes twice, so that the search from the end finds the same column
  have hfind : p.fromSpec.columns.reverse.find? (fun before => before.name = column.name)
      = p.fromSpec.column? column.name := by
    have hreverse : (({ p.fromSpec with columns := p.fromSpec.columns.reverse } :
        TableSpec)).columnNames.Nodup := by
      rw [TableSpec.columnNames, List.map_reverse, List.nodup_reverse]
      exact hnodup
    refine Option.ext fun before => ?_
    rw [column?_eq_some hnodup]
    exact (column?_eq_some hreverse).trans (by simp)
  simp only [diffComment, if_neg hname, hfind, oldComment]
  cases p.fromSpec.column? column.name with
  | none => simp
  | some before =>
    by_cases hcomment : before.comment = column.comment
    · simp [hcomment]
    · cases withRollback
      · simp [hcomment, undo_statements, undo_rollback, AlterScript.push]
      · simp [hcomment, undo_statements, undo_rollback, AlterScript.push]

/-- A column with a definition is added, with a statement of its own for its comment. -/
def emitColumn (withRollback : Bool) (script : AlterScript) (column : ColumnSpec) : AlterScript :=
  (addColumn withRollback script column).toOption.getD script

theorem addColumn_eq (withRollback : Bool) (script : AlterScript) {column : ColumnSpec}
    (hname : isBlank column.name = false) (htype : isBlank column.typeStr = false) :
    addColumn withRollback script column = .ok (emitColumn withRollback script column) ∧
      (emitColumn withRollback script column).statements
        = script.statements ++ addStatements column ∧
      (emitColumn withRollback script column).rollback
        = (if withRollback then [.dropColumn column.name] else []) ++ script.rollback := by
  simp only [emitColumn, addColumn, addStatements, columnDefinition, hname, htype, Bool.false_eq_true,
    if_false]
  cases isBlank column.comment
  · cases withRollback <;> exact ⟨rfl, by simp [AlterScript.push, AlterScript.undo, bind, Except.bind,
      pure, Except.pure, Except.toOption], rfl⟩
  · cases withRollback <;> exact ⟨rfl, by simp [AlterScript.push, AlterScript.undo, bind, Except.bind,
      pure, Except.pure, Except.toOption], rfl⟩

/-- **The script of an altered table**: renames, additions with their comments, drops, comments; its
rollback takes back all but the drops. -/
theorem buildAlterTable_ok (h : Alteration p) :
    ∃ tableName script, buildAlterTable p = .ok (tableName, script) ∧
      script.statements
        = (p.columnRenames.map fun rename => .renameColumn rename.oldName rename.newName)
          ++ ((addedColumns p).flatMap addStatements
          ++ ((drops p).map (fun column => .dropColumn column.name)
          ++ (tableComment p p.toSpec.comment
          ++ (recommented p).map fun column => .commentColumn column.name column.comment))) ∧
      (p.options.withRollback = true → script.rollback
        = (recommented p).reverse.map (fun column =>
            .commentColumn column.name (oldComment p column.name))
          ++ (tableComment p p.fromSpec.comment
          ++ ((addedColumns p).reverse.map (fun column => .dropColumn column.name)
          ++ (p.columnRenames.reverse.map fun rename =>
            .renameColumn rename.newName rename.oldName)))) := by
  have hnamed : ∀ column ∈ p.toSpec.columns,
      isBlank column.name = false ∧ isBlank column.typeStr = false := fun column hcolumn =>
    ⟨h.columns_named column (List.mem_append_right _ hcolumn),
      h.columns_typed column (List.mem_append_right _ hcolumn)⟩
  have hempty : ∀ column ∈ p.toSpec.columns, column.name ≠ "" := fun column hcolumn heq =>
    absurd (hnamed column hcolumn).1 (by rw [heq]; decide)
  -- the parts one after the other: renames, additions, drops, and the comments last
  have hrenames := @foldl_emits _ (renameColumn p.options.withRollback)
    (fun rename => [.renameColumn rename.oldName rename.newName])
    (fun rename => if p.options.withRollback then [.renameColumn rename.newName rename.oldName] else [])
    p.columnRenames ⟨[], [], []⟩ fun rename hrename script => by
      obtain ⟨hold, hnew⟩ := h.rename_named hrename
      simp only [renameColumn, hold, hnew, Bool.or_self, Bool.false_eq_true, if_false, undo_statements,
        undo_rollback, AlterScript.push, and_self]
  generalize hrenamed : p.columnRenames.foldl (renameColumn p.options.withRollback) ⟨[], [], []⟩
    = renamed at hrenames
  have hadded : ∀ column ∈ addedColumns p, column ∈ p.toSpec.columns := fun column hcolumn =>
    List.mem_of_mem_filter hcolumn
  have hadds := @foldl_emits _ (emitColumn p.options.withRollback) addStatements
    (fun column => if p.options.withRollback then [.dropColumn column.name] else [])
    (addedColumns p) renamed fun column hcolumn script =>
      (addColumn_eq _ script (hnamed column (hadded column hcolumn)).1
        (hnamed column (hadded column hcolumn)).2).2
  have hbuilt := @foldlM_ok _ _ (emitColumn p.options.withRollback) (addedColumns p) renamed
    fun column hcolumn script => (addColumn_eq p.options.withRollback script
      (hnamed column (hadded column hcolumn)).1 (hnamed column (hadded column hcolumn)).2).1
  generalize (addedColumns p).foldl (emitColumn p.options.withRollback) renamed = extended
    at hadds hbuilt
  -- drops are written down if they are allowed, and never undone
  have hdrops : ∃ dropped : AlterScript,
      dropped = (if p.options.allowDestructive then (droppedColumns p).foldl dropColumn extended
        else extended) ∧
      dropped.statements = extended.statements
        ++ (drops p).map (fun column => .dropColumn column.name) ∧
      dropped.rollback = extended.rollback := by
    refine ⟨_, rfl, ?_⟩
    unfold drops
    split
    · have hfold := @foldl_emits _ dropColumn (fun column => [.dropColumn column.name]) (fun _ => [])
        (droppedColumns p) extended fun column _ script => ⟨rfl, rfl⟩
      exact ⟨by rw [hfold.1, ← List.map_eq_flatMap], by rw [hfold.2]; simp⟩
    · simp
  obtain ⟨dropped, hdropped, hdropStatements, hdropRollback⟩ := hdrops
  have hcomments := @foldl_emits _ (diffComment p.options.withRollback p.fromSpec) _ _
    p.toSpec.columns
    (if p.fromSpec.comment ≠ p.toSpec.comment then
      (dropped.push (.commentTable p.toSpec.comment)).undo p.options.withRollback
        (.commentTable p.fromSpec.comment)
    else dropped)
    fun column hcolumn script => diffComment_emits h.from_nodup (hempty column hcolumn) _ script
  refine ⟨qualifiedName p.toSpec.database p.toSpec.schema p.toSpec.name,
    diffComments p.options.withRollback p.fromSpec p.toSpec dropped, ?_, ?_, ?_⟩
  · simp only [buildAlterTable, h.named, Bool.false_eq_true, if_false, hrenamed, hbuilt, bind,
      Except.bind, pure, Except.pure, ← hdropped]
  · rw [diffComments, hcomments.1, flatMap_ite]
    -- the comment of the table stands between the drops and the comments of the columns
    have htable : (if p.fromSpec.comment ≠ p.toSpec.comment then
        (dropped.push (.commentTable p.toSpec.comment)).undo p.options.withRollback
          (.commentTable p.fromSpec.comment)
        else dropped).statements = dropped.statements ++ tableComment p p.toSpec.comment := by
      unfold tableComment
      split
      · rw [undo_statements]
        rfl
      · rw [List.append_nil]
    rw [htable, hdropStatements, hadds.1, hrenames.1, ← List.map_eq_flatMap]
    simp only [List.nil_append, List.append_assoc, recommented, Bool.decide_eq_true]
  · intro hwith
    rw [diffComments, hcomments.2]
    have htable : (if p.fromSpec.comment ≠ p.toSpec.comment then
        (dropped.push (.commentTable p.toSpec.comment)).undo p.options.withRollback
          (.commentTable p.fromSpec.comment)
        else dropped).rollback = tableComment p p.fromSpec.comment ++ dropped.rollback := by
      unfold tableComment
      split
      · rw [undo_rollback, hwith]
        rfl
      · rfl
    rw [htable, hdropRollback, hadds.2, hrenames.2]
    simp only [hwith, Bool.and_true, if_true, ← List.map_eq_flatMap, List.append_nil]
    rw [flatMap_ite, List.filter_reverse]
    simp only [recommented, Bool.decide_eq_true]

/-! ### What the script does -/

/-- Statements about columns leave the comment alone and do to the columns what their commands do. -/
theorem run_commands {statements : List Statement}
    {commands : List (Catalog.Command String Column)}
    (h : statements.map Statement.command = commands.map some) :
    run exec table statements
      = (run Catalog.exec table.columns commands).map fun columns =>
          { table with columns := columns } := by
  induction statements generalizing table commands with
  | nil =>
    obtain rfl := List.map_eq_nil_iff.1 h.symm
    rfl
  | cons statement statements ih =>
    cases commands with
    | nil => exact absurd h (by simp)
    | cons command commands =>
      obtain ⟨hfirst, hrest⟩ := List.cons.inj h
      -- every statement but the table's comment is a command on the columns
      have hexec : exec table statement = (Catalog.exec table.columns command).map fun columns =>
          { table with columns := columns } := by
        cases statement with
        | commentTable comment => exact absurd hfirst (by simp [Statement.command])
        | renameColumn oldName newName => exact Option.some.inj hfirst ▸ rfl
        | addColumn column definition => exact Option.some.inj hfirst ▸ rfl
        | dropColumn name => exact Option.some.inj hfirst ▸ rfl
        | commentColumn name comment => exact Option.some.inj hfirst ▸ rfl
      rw [run_cons, run_cons, hexec]
      cases Catalog.exec table.columns command with
      | none => rfl
      | some columns => exact @ih { table with columns := columns } commands hrest

/-- The additions, with their comments. -/
def additions (p : BuildAlterTableParams) : List (Catalog.Addition String Column) :=
  (addedColumns p).map fun column => ⟨column.name, ⟨.added column, ""⟩,
    if isBlank column.comment then [] else [Column.commented column.comment]⟩

/-- The comments that change. -/
def changes (p : BuildAlterTableParams) : List (String × (Column → Column)) :=
  (recommented p).map fun column => (column.name, Column.commented column.comment)

/-- The columns after the additions. -/
def extended (p : BuildAlterTableParams) : String → Option Column :=
  Catalog.added (additions p) (Catalog.renamed (renamePairs p) (tableOf p.fromSpec).columns)

/-- The columns after the drops. -/
def remaining (p : BuildAlterTableParams) (name : String) : Option Column :=
  if name ∈ (drops p).map ColumnSpec.name then none else extended p name

theorem columns_tableOf_isSome {spec : TableSpec} {name : String} :
    ((tableOf spec).columns name).isSome ↔ name ∈ spec.columnNames := by
  rw [tableOf, Option.isSome_map, column?_isSome]

theorem columns_tableOf_eq_none {spec : TableSpec} {name : String} :
    (tableOf spec).columns name = none ↔ name ∉ spec.columnNames := by
  rw [← columns_tableOf_isSome, Option.not_isSome_iff_eq_none]

theorem map_name_additions :
    (additions p).map Catalog.Addition.name = (addedColumns p).map ColumnSpec.name := by
  rw [additions, List.map_map]
  rfl

theorem mem_addedColumns {name : String} : name ∈ (addedColumns p).map ColumnSpec.name ↔
    name ∈ p.toSpec.columnNames ∧ name ∉ p.columnRenames.map ColumnRenameSpec.newName ∧
      name ∉ p.fromSpec.columnNames := by
  constructor
  · intro hmem
    obtain ⟨column, hcolumn, rfl⟩ := List.mem_map.1 hmem
    obtain ⟨hto, hnew⟩ := List.mem_filter.1 hcolumn
    exact ⟨List.mem_map_of_mem hto, of_decide_eq_true hnew⟩
  · rintro ⟨hmem, hnew⟩
    obtain ⟨column, hcolumn, rfl⟩ := List.mem_map.1 hmem
    exact List.mem_map_of_mem (List.mem_filter.2 ⟨hcolumn, decide_eq_true hnew⟩)

/-- A column whose comment changes is one of both specifications. -/
theorem mem_recommented {column : ColumnSpec} : column ∈ recommented p ↔ column ∈ p.toSpec.columns ∧
    ∃ before, p.fromSpec.column? column.name = some before ∧ before.comment ≠ column.comment := by
  rw [recommented, List.mem_filter, Option.any_eq_true]
  simp only [decide_eq_true_eq]

section Values

variable (h : Alteration p)
include h

/-- A name of the old specification is gone if it was renamed. -/
theorem extended_old {name : String} (hname : name ∈ p.fromSpec.columnNames) :
    extended p name = if name ∈ p.columnRenames.map ColumnRenameSpec.oldName then none
      else (tableOf p.fromSpec).columns name := by
  have hnew : name ∉ (renamePairs p).map Prod.snd := by
    rw [map_snd_renamePairs]
    rintro hmem
    obtain ⟨rename, hrename, rfl⟩ := List.mem_map.1 hmem
    exact h.new_notMem rename hrename hname
  rw [extended, Catalog.added_of_notMem]
  · split
    · next hold => exact Catalog.renamed_of_mem_fst (map_fst_renamePairs ▸ hold) hnew
    · next hold => exact Catalog.renamed_of_notMem (map_fst_renamePairs ▸ hold) hnew
  · rw [map_name_additions, mem_addedColumns]
    exact fun hadded => hadded.2.2 hname

theorem nodup_addedColumns : ((addedColumns p).map ColumnSpec.name).Nodup :=
  h.to_nodup.sublist (List.filter_sublist.map _)

theorem extended_added {column : ColumnSpec} (hcolumn : column ∈ addedColumns p) :
    extended p column.name
      = some ⟨.added column, if isBlank column.comment then "" else column.comment⟩ := by
  have hadded := @Catalog.added_of_mem _ _ _
    (Catalog.renamed (renamePairs p) (tableOf p.fromSpec).columns) (additions p)
    (by rw [map_name_additions]; exact nodup_addedColumns h) _ (List.mem_map_of_mem hcolumn)
  rw [extended]
  refine hadded.trans (congrArg some ?_)
  unfold Catalog.Addition.final
  split <;> rfl

theorem extended_other {name : String} (hfrom : name ∉ p.fromSpec.columnNames)
    (hto : name ∉ p.toSpec.columnNames) : extended p name = none := by
  rw [extended, Catalog.added_of_notMem, Catalog.renamed_of_notMem]
  · exact columns_tableOf_eq_none.2 hfrom
  · rw [map_fst_renamePairs]
    rintro hmem
    obtain ⟨rename, hrename, rfl⟩ := List.mem_map.1 hmem
    exact hfrom (h.old_mem rename hrename)
  · rw [map_snd_renamePairs]
    rintro hmem
    obtain ⟨rename, hrename, rfl⟩ := List.mem_map.1 hmem
    exact hto (h.new_mem rename hrename)
  · rw [map_name_additions, mem_addedColumns]
    exact fun hadded => hto hadded.1

/-- What is added is not there after the renames. -/
theorem renamed_added {name : String} (hname : name ∈ (addedColumns p).map ColumnSpec.name) :
    Catalog.renamed (renamePairs p) (tableOf p.fromSpec).columns name = none := by
  obtain ⟨-, hnew, hfrom⟩ := mem_addedColumns.1 hname
  rw [Catalog.renamed_of_notMem]
  · exact columns_tableOf_eq_none.2 hfrom
  · rw [map_fst_renamePairs]
    rintro hmem
    obtain ⟨rename, hrename, rfl⟩ := List.mem_map.1 hmem
    exact hfrom (h.old_mem rename hrename)
  · rw [map_snd_renamePairs]
    exact hnew

/-- The renames and the additions can always be executed. -/
theorem run_extended :
    run Catalog.exec (tableOf p.fromSpec).columns
        ((renamePairs p).map fun pair => .rename pair.1 pair.2)
      = some (Catalog.renamed (renamePairs p) (tableOf p.fromSpec).columns) ∧
    run Catalog.exec (Catalog.renamed (renamePairs p) (tableOf p.fromSpec).columns)
        ((additions p).flatMap Catalog.Addition.commands) = some (extended p) := by
  -- first the renames, then the columns added to what they leave
  constructor
  · refine Catalog.run_renames ?_ ?_ ?_ ?_
    · rw [map_fst_renamePairs]
      exact h.old_nodup
    · rw [map_snd_renamePairs]
      exact h.new_nodup
    · intro pair hpair
      obtain ⟨rename, hrename, rfl⟩ := List.mem_map.1 hpair
      exact columns_tableOf_isSome.2 (h.old_mem rename hrename)
    · intro pair hpair
      obtain ⟨rename, hrename, rfl⟩ := List.mem_map.1 hpair
      exact columns_tableOf_eq_none.2 (h.new_notMem rename hrename)
  · refine Catalog.run_adds (by rw [map_name_additions]; exact nodup_addedColumns h) ?_
    intro addition haddition
    obtain ⟨column, hcolumn, rfl⟩ := List.mem_map.1 haddition
    exact renamed_added h (List.mem_map_of_mem hcolumn)

theorem nodup_drops : ((drops p).map ColumnSpec.name).Nodup := by
  unfold drops
  split
  · exact h.from_nodup.sublist (List.filter_sublist.map _)
  · exact List.nodup_nil

/-- **What the script does**: it can be executed if all columns that are dropped, and all that get
other comments, are there. -/
theorem run_script_iff :
    run exec (tableOf p.fromSpec)
        ((p.columnRenames.map fun rename => .renameColumn rename.oldName rename.newName)
          ++ ((addedColumns p).flatMap addStatements
          ++ ((drops p).map (fun column => .dropColumn column.name)
          ++ (tableComment p p.toSpec.comment
          ++ (recommented p).map fun column => .commentColumn column.name column.comment))))
        = some table ↔
      (∀ column ∈ drops p, (extended p column.name).isSome) ∧
      (∀ column ∈ recommented p, (remaining p column.name).isSome) ∧
      table = ⟨fun name => (remaining p name).map (Catalog.altered (changes p) name),
        p.toSpec.comment⟩ := by
  obtain ⟨hrenames, hadds⟩ := run_extended h
  -- each part of the script is a run of commands on the columns, the table's comment left aside
  have hrenames' := @run_commands (tableOf p.fromSpec)
    (p.columnRenames.map fun rename => .renameColumn rename.oldName rename.newName)
    ((renamePairs p).map fun pair => .rename pair.1 pair.2)
    (by simp only [renamePairs, List.map_map]; rfl)
  rw [hrenames, Option.map_some] at hrenames'
  have hadds' := @run_commands
    { tableOf p.fromSpec with
      columns := Catalog.renamed (renamePairs p) (tableOf p.fromSpec).columns }
    ((addedColumns p).flatMap addStatements) ((additions p).flatMap Catalog.Addition.commands)
    (by
      simp only [additions, List.map_flatMap, List.flatMap_map]
      refine List.flatMap_congr fun column _ => ?_
      unfold addStatements Catalog.Addition.commands
      split <;> rfl)
  rw [hadds, Option.map_some] at hadds'
  have hdrops := @run_commands { tableOf p.fromSpec with columns := extended p }
    ((drops p).map fun column => .dropColumn column.name)
    (((drops p).map ColumnSpec.name).map .drop) (by simp only [List.map_map]; rfl)
  have htable : ∀ columns, run exec ⟨columns, p.fromSpec.comment⟩ (tableComment p p.toSpec.comment)
      = some ⟨columns, p.toSpec.comment⟩ := by
    intro columns
    unfold tableComment
    split
    · rfl
    · next hsame => rw [not_not.1 hsame, run_nil]
  have hcomments := fun columns => @run_commands ⟨columns, p.toSpec.comment⟩
    ((recommented p).map fun column => .commentColumn column.name column.comment)
    ((changes p).map fun change => .alter change.1 change.2)
    (by simp only [changes, List.map_map]; rfl)
  rw [run_append, hrenames', Option.bind_some, run_append, hadds', Option.bind_some, run_append, hdrops]
  constructor
  · intro hrun
    -- a drop of a column that is gone ends the run, and so does a comment on one
    obtain ⟨dropped, hdropped, hrest⟩ := Option.bind_eq_some_iff.1 hrun
    obtain ⟨columns, hcolumns, rfl⟩ := Option.map_eq_some_iff.1 hdropped
    obtain ⟨hthere, rfl⟩ := (Catalog.run_drops_iff (nodup_drops h)).1 hcolumns
    rw [run_append] at hrest
    obtain ⟨commented, hcommented, hlast⟩ := Option.bind_eq_some_iff.1 hrest
    obtain rfl := Option.some.inj ((htable _).symm.trans hcommented)
    rw [hcomments] at hlast
    obtain ⟨columns, hcolumns, rfl⟩ := Option.map_eq_some_iff.1 hlast
    obtain ⟨hthere', rfl⟩ := Catalog.run_alters_iff.1 hcolumns
    exact ⟨fun column hcolumn => hthere _ (List.mem_map_of_mem hcolumn),
      fun column hcolumn => hthere' _ (List.mem_map_of_mem hcolumn), rfl⟩
  · rintro ⟨hthere, hthere', rfl⟩
    rw [(Catalog.run_drops_iff (nodup_drops h)).2 ⟨fun name hname => ?_, rfl⟩, Option.map_some,
      Option.bind_some, run_append]
    · refine Option.bind_eq_some_iff.2 ⟨_, htable _, ?_⟩
      rw [hcomments, Catalog.run_alters_iff.2 ⟨fun change hchange => ?_, rfl⟩]
      · rfl
      · obtain ⟨column, hcolumn, rfl⟩ := List.mem_map.1 hchange
        exact hthere' column hcolumn
    · obtain ⟨column, hcolumn, rfl⟩ := List.mem_map.1 hname
      exact hthere column hcolumn

/-- Comments that were changed are given back. -/
theorem altered_back (hthere : ∀ column ∈ recommented p, (extended p column.name).isSome) :
    (fun name => ((extended p name).map (Catalog.altered (changes p) name)).map
        (Catalog.altered ((recommented p).reverse.map fun column =>
          (column.name, Column.commented (oldComment p column.name))) name)) = extended p := by
  have hnodup : ((recommented p).map ColumnSpec.name).Nodup :=
    h.to_nodup.sublist (List.filter_sublist.map _)
  have hchanges : (changes p).map Prod.fst = (recommented p).map ColumnSpec.name := by
    rw [changes, List.map_map]
    rfl
  -- the rollback sets the comments of the same columns
  have hback : ((recommented p).reverse.map fun column =>
      (column.name, Column.commented (oldComment p column.name))).map Prod.fst
      = ((recommented p).map ColumnSpec.name).reverse := by
    rw [List.map_map, List.map_reverse]
    rfl
  funext name
  by_cases hname : name ∈ (recommented p).map ColumnSpec.name
  · obtain ⟨column, hcolumn, rfl⟩ := List.mem_map.1 hname
    obtain ⟨-, before, hbefore, -⟩ := mem_recommented.1 hcolumn
    -- the column is an original one, with the comment from before
    have hvalue : extended p column.name = some ⟨.original before, before.comment⟩ := by
      have hold := extended_old h (column?_isSome.1 (by rw [hbefore]; rfl))
      have hsome := hthere column hcolumn
      split at hold
      · rw [hold] at hsome
        exact absurd hsome (by simp)
      · simp only [hold, tableOf, hbefore, Option.map_some]
    have hfirst := @Catalog.altered_of_mem _ Column _ (changes p) (by rw [hchanges]; exact hnodup)
      _ (List.mem_map_of_mem hcolumn)
    have hsecond := @Catalog.altered_of_mem _ Column _ ((recommented p).reverse.map fun column =>
      (column.name, Column.commented (oldComment p column.name)))
      (by rw [hback]; exact List.nodup_reverse.2 hnodup) _
      (List.mem_map_of_mem (List.mem_reverse.2 hcolumn))
    rw [hvalue, Option.map_some, Option.map_some, hfirst, hsecond, oldComment, hbefore]
    rfl
  · rw [Catalog.map_altered_of_notMem, Catalog.map_altered_of_notMem]
    · rw [hchanges]
      exact hname
    · rw [hback, List.mem_reverse]
      exact hname

/-- **What the rollback does**: if nothing was dropped, it restores the table. -/
theorem run_rollback (hthere : ∀ column ∈ recommented p, (extended p column.name).isSome) :
    run exec ⟨fun name => (extended p name).map (Catalog.altered (changes p) name), p.toSpec.comment⟩
        ((recommented p).reverse.map (fun column =>
            .commentColumn column.name (oldComment p column.name))
          ++ (tableComment p p.fromSpec.comment
          ++ ((addedColumns p).reverse.map (fun column => .dropColumn column.name)
          ++ (p.columnRenames.reverse.map fun rename =>
            .renameColumn rename.newName rename.oldName)))) = some (tableOf p.fromSpec) := by
  have hcomments := @run_commands
    ⟨fun name => (extended p name).map (Catalog.altered (changes p) name), p.toSpec.comment⟩
    ((recommented p).reverse.map fun column => .commentColumn column.name (oldComment p column.name))
    (((recommented p).reverse.map fun column =>
      (column.name, Column.commented (oldComment p column.name))).map fun change =>
        .alter change.1 change.2)
    (by simp only [List.map_map]; rfl)
  rw [Catalog.run_alters_iff.2 ⟨fun change hchange => ?_, rfl⟩, Option.map_some, altered_back h hthere]
    at hcomments
  -- the comment of the table from before, if it was changed
  · have htable : run exec ⟨extended p, p.toSpec.comment⟩ (tableComment p p.fromSpec.comment)
        = some ⟨extended p, p.fromSpec.comment⟩ := by
      unfold tableComment
      split
      · rfl
      · next hsame => rw [← not_not.1 hsame, run_nil]
    -- without the columns that were added the renamed ones are left
    have hdropped : (fun name => if name ∈ ((addedColumns p).map ColumnSpec.name).reverse then none
        else extended p name) = Catalog.renamed (renamePairs p) (tableOf p.fromSpec).columns := by
      funext name
      split
      · next hmem => rw [renamed_added h (List.mem_reverse.1 hmem)]
      · next hnot =>
        rw [extended, Catalog.added_of_notMem]
        rw [map_name_additions, ← List.mem_reverse]
        exact hnot
    have hdrops := @run_commands ⟨extended p, p.fromSpec.comment⟩
      ((addedColumns p).reverse.map fun column => .dropColumn column.name)
      (((addedColumns p).map ColumnSpec.name).reverse.map .drop)
      (by simp only [List.map_map, ← List.map_reverse]; rfl)
    rw [(Catalog.run_drops_iff (List.nodup_reverse.2 (nodup_addedColumns h))).2
      ⟨fun name hname => ?_, rfl⟩, hdropped, Option.map_some] at hdrops
    · have hrenames := @run_commands
        ⟨Catalog.renamed (renamePairs p) (tableOf p.fromSpec).columns, p.fromSpec.comment⟩
        (p.columnRenames.reverse.map fun rename => .renameColumn rename.newName rename.oldName)
        ((renamePairs p).reverse.map fun pair => .rename pair.2 pair.1)
        (by simp only [renamePairs, List.map_map, ← List.map_reverse]; rfl)
      -- each rename is undone by the opposite one, in the reverse order
      have hundo := @run_undo _ _ Catalog.exec (tableOf p.fromSpec).columns
        (Catalog.renamed (renamePairs p) (tableOf p.fromSpec).columns)
        ((renamePairs p).map fun pair => (.rename pair.1 pair.2, .rename pair.2 pair.1))
        (by
          intro step hstep t t' hexec
          obtain ⟨pair, -, rfl⟩ := List.mem_map.1 hstep
          exact Catalog.exec_rename_inverse hexec)
        (by
          rw [List.map_map]
          exact (run_extended h).1)
      rw [List.map_map, ← List.map_reverse] at hundo
      rw [show (renamePairs p).reverse.map (fun pair => Catalog.Command.rename pair.2 pair.1)
        = (renamePairs p).reverse.map (Prod.snd ∘ fun pair =>
          (Catalog.Command.rename pair.1 pair.2, Catalog.Command.rename pair.2 pair.1)) from rfl,
        hundo] at hrenames
      rw [run_append, hcomments, Option.bind_some, run_append, htable, Option.bind_some, run_append,
        hdrops, Option.bind_some, hrenames]
      rfl
    · obtain ⟨column, hcolumn, rfl⟩ := List.mem_map.1 (List.mem_reverse.1 hname)
      exact Option.isSome_iff_exists.2 ⟨_, extended_added h hcolumn⟩
  · obtain ⟨column, hcolumn, rfl⟩ := List.mem_map.1 hchange
    change ((extended p column.name).map _).isSome
    rw [Option.isSome_map]
    exact hthere column (List.mem_reverse.1 hcolumn)

/-! ### The result -/

/-- With a rename the script fails, or does not reach the new specification: the old name is dropped
once more, or is missing in the end. -/
theorem eq_nil_of_reached (hallow : p.options.allowDestructive = true)
    (hdrops : ∀ column ∈ drops p, (extended p column.name).isSome)
    (hnames : ∀ name, (((remaining p name).map (Catalog.altered (changes p) name))).isSome ↔
      name ∈ p.toSpec.columnNames) : p.columnRenames = [] := by
  refine List.eq_nil_iff_forall_not_mem.2 fun rename hrename => ?_
  have hold := h.old_mem rename hrename
  have hgone : extended p rename.oldName = none := by
    rw [extended_old h hold, if_pos (List.mem_map_of_mem hrename)]
  by_cases hto : rename.oldName ∈ p.toSpec.columnNames
  · have hthere := (hnames rename.oldName).2 hto
    rw [remaining, hgone, ite_self] at hthere
    exact absurd hthere (by simp)
  · obtain ⟨column, hcolumn, hname⟩ := List.mem_map.1 hold
    have hdropped : column ∈ drops p := by
      rw [drops, if_pos hallow]
      refine List.mem_filter.2 ⟨hcolumn, decide_eq_true ?_⟩
      rw [hname]
      exact hto
    have hthere := hdrops column hdropped
    rw [hname, hgone] at hthere
    exact absurd hthere (by simp)

/-- Without renames every name of the old specification is still there after the additions. -/
theorem extended_of_nil (hnil : p.columnRenames = []) {name : String}
    (hname : name ∈ p.fromSpec.columnNames) :
    extended p name = (tableOf p.fromSpec).columns name := by
  rw [extended_old h hname, hnil]
  exact if_neg List.not_mem_nil

/-- Without renames, and if columns may be dropped, the names of the new specification are left. -/
theorem remaining_of_nil (hnil : p.columnRenames = []) (hallow : p.options.allowDestructive = true)
    (name : String) : (remaining p name).isSome ↔ name ∈ p.toSpec.columnNames := by
  -- without renames the dropped columns are those that the new table lacks
  have hdropped : name ∈ (drops p).map ColumnSpec.name ↔
      name ∈ p.fromSpec.columnNames ∧ name ∉ p.toSpec.columnNames := by
    rw [drops, if_pos hallow]
    constructor
    · intro hmem
      obtain ⟨column, hcolumn, rfl⟩ := List.mem_map.1 hmem
      obtain ⟨hfrom, hto⟩ := List.mem_filter.1 hcolumn
      exact ⟨List.mem_map_of_mem hfrom, of_decide_eq_true hto⟩
    · rintro ⟨hfrom, hto⟩
      obtain ⟨column, hcolumn, rfl⟩ := List.mem_map.1 hfrom
      exact List.mem_map_of_mem (List.mem_filter.2 ⟨hcolumn, decide_eq_true hto⟩)
  rw [remaining]
  -- an old column is kept, or dropped; another one is added, or was never there
  by_cases hfrom : name ∈ p.fromSpec.columnNames
  · by_cases hto : name ∈ p.toSpec.columnNames
    · rw [if_neg (fun hmem => (hdropped.1 hmem).2 hto), extended_of_nil h hnil hfrom,
        columns_tableOf_isSome]
      exact iff_of_true hfrom hto
    · rw [if_pos (hdropped.2 ⟨hfrom, hto⟩)]
      exact iff_of_false (by simp) hto
  · rw [if_neg (fun hmem => hfrom (hdropped.1 hmem).1)]
    by_cases hto : name ∈ p.toSpec.columnNames
    · have hadded : name ∈ (addedColumns p).map ColumnSpec.name :=
        mem_addedColumns.2 ⟨hto, by rw [hnil]; exact List.not_mem_nil, hfrom⟩
      obtain ⟨column, hcolumn, rfl⟩ := List.mem_map.1 hadded
      rw [extended_added h hcolumn]
      exact iff_of_true rfl hto
    · rw [extended_other h hfrom hto]
      exact iff_of_false (by simp) hto

omit h in
/-- What the new specification has is not dropped. -/
theorem remaining_of_mem {name : String} (hto : name ∈ p.toSpec.columnNames) :
    remaining p name = extended p name := by
  refine if_neg fun hmem => ?_
  unfold drops at hmem
  split at hmem
  · obtain ⟨column, hcolumn, rfl⟩ := List.mem_map.1 hmem
    exact of_decide_eq_true (List.mem_filter.1 hcolumn).2 hto
  · exact absurd hmem List.not_mem_nil

/-- The new comment of a column of both specifications. -/
theorem altered_comment {column before : ColumnSpec} (hcolumn : column ∈ p.toSpec.columns)
    (hbefore : p.fromSpec.column? column.name = some before) (origin : Origin) :
    (Catalog.altered (changes p) column.name ⟨origin, before.comment⟩).comment = column.comment := by
  have hnodup : ((changes p).map Prod.fst).Nodup := by
    rw [changes, List.map_map]
    exact h.to_nodup.sublist (List.filter_sublist.map _)
  by_cases hcomment : before.comment = column.comment
  · rw [Catalog.altered_of_notMem]
    · exact hcomment
    · rw [changes, List.map_map]
      intro hmem
      obtain ⟨other, hother, hname⟩ := List.mem_map.1 hmem
      obtain ⟨hto, found, hfound, hne⟩ := mem_recommented.1 hother
      obtain rfl := List.inj_on_of_nodup_map h.to_nodup hto hcolumn hname
      exact hne (Option.some.inj (hfound.symm.trans hbefore) ▸ hcomment)
  · have hmem : column ∈ recommented p := mem_recommented.2 ⟨hcolumn, before, hbefore, hcomment⟩
    rw [@Catalog.altered_of_mem _ Column _ (changes p) hnodup _ (List.mem_map_of_mem hmem)]
    rfl

/-- The comment that a column of the new specification gets in the end. -/
theorem comment_of_nil (hnil : p.columnRenames = []) {column : ColumnSpec}
    (hcolumn : column ∈ p.toSpec.columns) :
    ((remaining p column.name).map (Catalog.altered (changes p) column.name)).map Column.comment
        = some column.comment ↔
      (column.name ∉ p.fromSpec.columnNames → isBlank column.comment = true →
        column.comment = "") := by
  have hto : column.name ∈ p.toSpec.columnNames := List.mem_map_of_mem hcolumn
  rw [remaining_of_mem hto]
  -- an old column gets a comment if it differs; a new one only if it is not blank
  by_cases hfrom : column.name ∈ p.fromSpec.columnNames
  · obtain ⟨before, hbefore⟩ := Option.isSome_iff_exists.1 (column?_isSome.2 hfrom)
    have hvalue : extended p column.name = some ⟨.original before, before.comment⟩ := by
      simp only [extended_of_nil h hnil hfrom, tableOf, hbefore, Option.map_some]
    rw [hvalue, Option.map_some, Option.map_some, altered_comment h hcolumn hbefore]
    exact iff_of_true rfl fun hnot => absurd hfrom hnot
  · have hadded : column ∈ addedColumns p :=
      List.mem_filter.2 ⟨hcolumn, decide_eq_true ⟨by rw [hnil]; exact List.not_mem_nil, hfrom⟩⟩
    rw [extended_added h hadded, Catalog.map_altered_of_notMem]
    · simp only [Option.map_some, Option.some.injEq, hfrom, not_false_eq_true, forall_true_left]
      cases isBlank column.comment
      · exact iff_of_true rfl fun hblank => absurd hblank (by simp)
      · exact ⟨fun heq _ => heq.symm, fun heq => (heq rfl).symm⟩
    · rw [changes, List.map_map]
      intro hmem
      obtain ⟨other, hother, hname⟩ := List.mem_map.1 hmem
      obtain ⟨-, found, hfound, -⟩ := mem_recommented.1 hother
      rw [show other.name = column.name from hname] at hfound
      exact hfrom (column?_isSome.1 (by rw [hfound]; rfl))

/-- **A script is correct** exactly when no renamed column leaves its name to one with another
comment, and, if columns may be dropped, nothing is renamed and no new column has a comment that is
blank but not empty. -/
theorem alter_correct_iff : Correct p ↔
    (∀ column ∈ p.toSpec.columns, column.name ∈ p.columnRenames.map ColumnRenameSpec.oldName →
      ∀ before, p.fromSpec.column? column.name = some before → before.comment = column.comment) ∧
    (p.options.allowDestructive = true → p.columnRenames = [] ∧
      ∀ column ∈ p.toSpec.columns, column.name ∉ p.fromSpec.columnNames →
        isBlank column.comment = true → column.comment = "") := by
  obtain ⟨tableName, script, hbuild, hstatements, hrollback⟩ := buildAlterTable_ok h
  have hrun := fun table => @run_script_iff p table h
  rw [← hstatements] at hrun
  constructor
  · rintro ⟨tableName', script', table, hbuild', hexec, hreached, -⟩
    obtain rfl : script = script' := (Prod.mk.inj (Except.ok.inj (hbuild.symm.trans hbuild'))).2
    obtain ⟨hdrops, hthere, rfl⟩ := (hrun table).1 hexec
    refine ⟨fun column hcolumn hold before hbefore => ?_, fun hallow => ?_⟩
    · by_contra hcomment
      -- a comment on a column that was renamed away cannot be set
      have hmem : column ∈ recommented p := mem_recommented.2 ⟨hcolumn, before, hbefore, hcomment⟩
      have hsome := hthere column hmem
      rw [remaining_of_mem (List.mem_map_of_mem hcolumn),
        extended_old h (column?_isSome.1 (by rw [hbefore]; rfl)), if_pos hold] at hsome
      exact absurd hsome (by simp)
    · obtain ⟨hnames, -, hcomments, -⟩ := hreached hallow
      have hnil := eq_nil_of_reached h hallow hdrops hnames
      exact ⟨hnil, fun column hcolumn => (comment_of_nil h hnil hcolumn).1 (hcomments column hcolumn)⟩
  · rintro ⟨hkept, hdestructive⟩
    have hthere : ∀ column ∈ recommented p, (extended p column.name).isSome := by
      intro column hcolumn
      obtain ⟨hto, before, hbefore, hne⟩ := mem_recommented.1 hcolumn
      have hfrom : column.name ∈ p.fromSpec.columnNames := column?_isSome.1 (by rw [hbefore]; rfl)
      rw [extended_old h hfrom, if_neg fun hold => hne (hkept column hto hold before hbefore)]
      exact columns_tableOf_isSome.2 hfrom
    have hthere' : ∀ column ∈ recommented p, (remaining p column.name).isSome := by
      intro column hcolumn
      rw [remaining_of_mem (List.mem_map_of_mem (mem_recommented.1 hcolumn).1)]
      exact hthere column hcolumn
    -- the script runs: what it comments on and what it drops is there
    have hdrops : ∀ column ∈ drops p, (extended p column.name).isSome := by
      intro column hcolumn
      unfold drops at hcolumn
      split at hcolumn
      · next hallow =>
        have hfrom : column.name ∈ p.fromSpec.columnNames :=
          List.mem_map_of_mem (List.mem_of_mem_filter hcolumn)
        rw [extended_of_nil h (hdestructive hallow).1 hfrom]
        exact columns_tableOf_isSome.2 hfrom
      · exact absurd hcolumn List.not_mem_nil
    refine ⟨tableName, script, _, hbuild, (hrun _).2 ⟨hdrops, hthere', rfl⟩, fun hallow => ?_,
      fun hkeep hwith => ?_⟩
    · obtain ⟨hnil, hblank⟩ := hdestructive hallow
      refine ⟨fun name => ?_, rfl, fun column hcolumn => ?_, fun rename hrename => ?_⟩
      · rw [Option.isSome_map]
        exact remaining_of_nil h hnil hallow name
      · exact (comment_of_nil h hnil hcolumn).2 (hblank column hcolumn)
      · rw [hnil] at hrename
        exact absurd hrename List.not_mem_nil
    -- the rollback is asked for only if nothing was dropped
    · have hsame : remaining p = extended p := by
        funext name
        rw [remaining, drops, hkeep]
        rfl
      rw [hrollback hwith, hsame]
      exact run_rollback h hthere

end Values

/-- A column of texts with a comment. -/
def textColumn (name comment : String) : ColumnSpec where
  name := name
  typeStr := "TEXT"
  nullable := true
  default := none
  isPrimary := false
  isUnique := false
  autoIncrement := false
  comment := comment

/-- A table of texts. -/
def textTable (columns : List ColumnSpec) (comment : String) : TableSpec where
  name := "events"
  schema := none
  database := none
  columns := columns
  indexes := []
  comment := comment

/-- A column is renamed, another one gets a comment and a third one is added. -/
def bodyRenamed : BuildAlterTableParams where
  fromSpec := textTable [textColumn "payload" "", textColumn "id" ""] "old"
  toSpec := textTable [textColumn "body" "", textColumn "id" "key", textColumn "note" "text"] "new"
  columnRenames := [⟨"payload", "body"⟩]
  options := ⟨false, true⟩

theorem alteration_bodyRenamed : Alteration bodyRenamed where
  same := ⟨rfl, rfl, rfl⟩
  named := by decide
  from_nodup := by decide
  to_nodup := by decide
  columns_named := by decide
  columns_typed := by decide
  old_nodup := by decide
  new_nodup := by decide
  old_mem := by decide
  new_mem := by decide
  new_notMem := by decide

/-- Nothing is dropped, and the rollback restores the table. -/
theorem alter_correct_bodyRenamed : Correct bodyRenamed := by
  refine (alter_correct_iff alteration_bodyRenamed).2 ⟨by decide, fun hallow => ?_⟩
  exact absurd hallow (by decide)

/-- **The old name of a renamed column is dropped once more**, and that fails. -/
theorem rename_dropped : Alteration { bodyRenamed with options := ⟨true, false⟩ } ∧
    ¬ Correct { bodyRenamed with options := ⟨true, false⟩ } := by
  have h := alteration_bodyRenamed.withOptions ⟨true, false⟩
  refine ⟨h, ?_⟩
  rintro ⟨tableName, script, table, hbuild, hexec, hreached, -⟩
  obtain ⟨_, script', hbuild', hstatements, -⟩ := buildAlterTable_ok h
  obtain rfl : script = script' := (Prod.mk.inj (Except.ok.inj (hbuild.symm.trans hbuild'))).2
  rw [hstatements] at hexec
  obtain ⟨hdrops, -, rfl⟩ := (run_script_iff h).1 hexec
  exact absurd (eq_nil_of_reached h rfl hdrops (hreached rfl).1) (by decide)

end OpengaussDdl
end Navop
