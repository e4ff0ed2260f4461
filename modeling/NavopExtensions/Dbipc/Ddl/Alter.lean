import NavopExtensions.Dbipc.Ddl.Rollback

/-!
# Reaching the other specification

The renames of a script come first, and the new columns are found by comparing the two specifications
as they are, without the renames. So a column that a rename has brought to its new name is added once
more, and fails (`alter_reaches_iff`). Without renames the script reaches the specification.
-/

namespace Navop
namespace Dbipc

open Script

variable {dialect : Dialect} {fromSpec toSpec : TableSpec} {renames : List ColumnRename}
  {table table' : Table}

/-- A table that is to be altered: the specifications have distinct names, all columns have a type, and
the renames bring columns of the one to new names of the other. -/
structure Alteration (fromSpec toSpec : TableSpec) (renames : List ColumnRename) : Prop where
  same : fromSpec.name = toSpec.name ∧ fromSpec.schema = toSpec.schema ∧
    fromSpec.database = toSpec.database
  named : toSpec.name ≠ ""
  from_nodup : (fromSpec.columns.map ColumnDDL.name).Nodup
  to_nodup : (toSpec.columns.map ColumnDDL.name).Nodup
  columns_named : ∀ column ∈ fromSpec.columns ++ toSpec.columns, column.name ≠ ""
  columns_typed : ∀ column ∈ fromSpec.columns ++ toSpec.columns, trimSpace column.type ≠ ""
  old_nodup : (renames.map ColumnRename.oldName).Nodup
  new_nodup : (renames.map ColumnRename.newName).Nodup
  old_mem : ∀ rename ∈ renames, rename.oldName ∈ fromSpec.columns.map ColumnDDL.name
  new_mem : ∀ rename ∈ renames, rename.newName ∈ toSpec.columns.map ColumnDDL.name
  new_notMem : ∀ rename ∈ renames, rename.newName ∉ fromSpec.columns.map ColumnDDL.name

/-- The script is built and can be executed, the table has the names of the new specification, and a
renamed column is the original one. -/
def Reaches (dialect : Dialect) (fromSpec toSpec : TableSpec) (renames : List ColumnRename)
    (withRollback : Bool) : Prop :=
  ∃ tableName script table,
    buildAlterTableSQL dialect fromSpec toSpec renames ⟨true, withRollback⟩
      = .ok (tableName, script) ∧
    run exec fromSpec.table script.statements = some table ∧
    table.names.Perm (toSpec.columns.map ColumnDDL.name) ∧
    ∀ rename ∈ renames, ∃ original ∈ fromSpec.columns, original.name = rename.oldName ∧
      ∃ column ∈ table.columns, column.name = rename.newName ∧ column.origin = .original original

/-! ### Scripts that can be executed -/

/-- Columns of new and distinct names can be added. -/
theorem run_addSteps_of_new {columns : List ColumnDDL}
    (hnodup : (columns.map ColumnDDL.name).Nodup)
    (hnew : ∀ column ∈ columns, column.name ∉ table.names) :
    ∃ table', run exec table ((columns.map (addStep dialect)).map Prod.fst) = some table' := by
  induction columns generalizing table with
  | nil => exact ⟨table, rfl⟩
  | cons column columns ih =>
    rw [List.map_cons, List.nodup_cons] at hnodup
    have hfirst := hnew column List.mem_cons_self
    -- the names of the rest are still new after the first addition
    obtain ⟨table', hrun⟩ := @ih { table with
        columns := table.columns ++ [⟨column.name, .added column, ""⟩] } hnodup.2 (by
      intro other hother hmem
      unfold Table.names at hmem
      rw [List.map_append, List.mem_append] at hmem
      obtain hold | hadded := hmem
      · exact hnew other (List.mem_cons_of_mem _ hother) hold
      · have hsame : other.name = column.name := by simpa using hadded
        exact hnodup.1 (hsame ▸ List.mem_map_of_mem hother))
    refine ⟨table', run_cons_eq_some.mpr ⟨_, ?_, hrun⟩⟩
    simp only [addStep, exec, if_neg hfirst]

/-- Distinct columns of a table can be dropped. -/
theorem run_drops_of_mem {names : List String} (hnodup : names.Nodup)
    (hmem : ∀ name ∈ names, name ∈ table.names) :
    ∃ table', run exec table (names.map .dropColumn) = some table' := by
  induction names generalizing table with
  | nil => exact ⟨table, rfl⟩
  | cons name names ih =>
    rw [List.nodup_cons] at hnodup
    have hfirst := hmem name List.mem_cons_self
    obtain ⟨table', hrun⟩ := @ih { table with
        columns := table.columns.filter fun column => column.name ≠ name } hnodup.2 (by
      intro other hother
      obtain ⟨column, hcolumn, rfl⟩ := List.mem_map.mp (hmem other (List.mem_cons_of_mem _ hother))
      refine List.mem_map_of_mem (List.mem_filter.mpr ⟨hcolumn, ?_⟩)
      exact decide_eq_true fun heq => hnodup.1 (heq ▸ hother))
    refine ⟨table', run_cons_eq_some.mpr ⟨_, ?_, hrun⟩⟩
    simp only [exec, if_pos hfirst]

/-- A rename leaves its new name behind. -/
theorem newName_mem_of_run (hne : renames ≠ [])
    (hnames : ∀ rename ∈ renames, rename.oldName ≠ "" ∧ rename.newName ≠ "")
    (hrun : run exec table ((renameSteps renames).map Prod.fst) = some table') :
    ∃ rename ∈ renames, rename.newName ∈ table'.names := by
  -- the last rename gives its new name, which nothing takes away any more
  obtain ⟨first, last, rfl⟩ : ∃ first last, renames = first ++ [last] :=
    ⟨_, _, (List.dropLast_append_getLast hne).symm⟩
  have hkept : renameSteps (first ++ [last]) = renameSteps first
      ++ [(.renameColumn last.oldName last.newName, .renameColumn last.newName last.oldName)] := by
    have hlast := hnames last (List.mem_append_right _ List.mem_cons_self)
    simp [renameSteps, List.filter_append, hlast]
  rw [hkept, List.map_append] at hrun
  obtain ⟨before, -, hlast⟩ := run_append_eq_some.mp hrun
  obtain ⟨after, hexec, hend⟩ := run_cons_eq_some.mp hlast
  obtain rfl := Option.some.inj hend
  refine ⟨last, List.mem_append_right _ List.mem_cons_self, ?_⟩
  simp only [exec] at hexec
  split at hexec
  · next hold =>
    obtain rfl := Option.some.inj hexec
    rw [names_rename]
    exact List.mem_map.mpr ⟨last.oldName, hold.1, if_pos rfl⟩
  · exact absurd hexec (by simp)

/-! ### The script is built -/

/-- New columns with a name and a type have a definition. -/
theorem addSteps_ok (hcolumns : ∀ column ∈ toSpec.columns,
      column.name ≠ "" ∧ trimSpace column.type ≠ "") :
    ∃ steps, addSteps dialect fromSpec toSpec = .ok steps := by
  unfold addSteps
  have hkept := fun column hcolumn => hcolumns column (List.mem_of_mem_filter
    (p := fun column => (columnMap fromSpec.columns column.name).isNone) hcolumn)
  generalize (toSpec.columns.filter fun column =>
    (columnMap fromSpec.columns column.name).isNone) = columns at *
  induction columns with
  | nil => exact ⟨[], rfl⟩
  | cons column columns ih =>
    obtain ⟨steps, hsteps⟩ := ih fun other hother => hkept other (List.mem_cons_of_mem _ hother)
    obtain ⟨hname, htype⟩ := hkept column List.mem_cons_self
    refine ⟨(addStep dialect column) :: steps, ?_⟩
    rw [List.mapM_cons, hsteps]
    simp only [addStep, buildColumnDefinition, if_neg hname, if_neg htype]
    rfl

theorem buildAlterTableSQL_ok {options : AlterTableOptions} (hnamed : toSpec.name ≠ "")
    (hcolumns : ∀ column ∈ toSpec.columns, column.name ≠ "" ∧ trimSpace column.type ≠ "") :
    ∃ tableName script,
      buildAlterTableSQL dialect fromSpec toSpec renames options = .ok (tableName, script) := by
  obtain ⟨steps, hsteps⟩ := @addSteps_ok dialect fromSpec toSpec hcolumns
  unfold buildAlterTableSQL
  dsimp only
  rw [if_neg hnamed, if_neg hnamed, hsteps]
  exact ⟨_, _, rfl⟩

/-! ### The result -/

/-- With a rename the script fails: the new name is there already when its column is added. -/
theorem eq_nil_of_reaches {withRollback : Bool} (h : Alteration fromSpec toSpec renames)
    (hreaches : Reaches dialect fromSpec toSpec renames withRollback) : renames = [] := by
  by_contra hne
  obtain ⟨tableName, script, table, hbuild, hrun, -, -⟩ := hreaches
  rw [(buildAlterTableSQL_eq_ok hbuild).1] at hrun
  obtain ⟨renamedTable, hrenames, hrest⟩ := run_append_eq_some.mp hrun
  obtain ⟨added, hadds, -⟩ := run_append_eq_some.mp hrest
  have hnames : ∀ rename ∈ renames, rename.oldName ≠ "" ∧ rename.newName ≠ "" := by
    intro rename hrename
    obtain ⟨old, hold, holdName⟩ := List.mem_map.mp (h.old_mem rename hrename)
    obtain ⟨new, hnew, hnewName⟩ := List.mem_map.mp (h.new_mem rename hrename)
    rw [← holdName, ← hnewName]
    exact ⟨h.columns_named old (List.mem_append_left _ hold),
      h.columns_named new (List.mem_append_right _ hnew)⟩
  -- after the renames a new name is there, and the additions want to add it once more
  obtain ⟨rename, hrename, hthere⟩ := newName_mem_of_run hne hnames hrenames
  obtain ⟨column, hcolumn, hname⟩ := List.mem_map.mp (h.new_mem rename hrename)
  have hnew : column ∈ newColumns fromSpec toSpec := by
    refine List.mem_filter.mpr ⟨hcolumn, columnMap_eq_none.mpr ?_⟩
    rw [hname]
    exact h.new_notMem rename hrename
  exact notMem_of_run_addSteps hadds hnew (hname ▸ hthere)

/-- The names of the columns that the others have none for. -/
theorem mem_names_without (columns others : List ColumnDDL) (name : String) :
    name ∈ (columns.filter fun column => (columnMap others column.name).isNone).map ColumnDDL.name ↔
      name ∈ columns.map ColumnDDL.name ∧ name ∉ others.map ColumnDDL.name := by
  constructor
  · intro hname
    obtain ⟨column, hcolumn, rfl⟩ := List.mem_map.mp hname
    obtain ⟨hmem, hnone⟩ := List.mem_filter.mp hcolumn
    exact ⟨List.mem_map_of_mem hmem, columnMap_eq_none.mp hnone⟩
  · rintro ⟨hmem, hnot⟩
    obtain ⟨column, hcolumn, rfl⟩ := List.mem_map.mp hmem
    exact List.mem_map_of_mem (List.mem_filter.mpr ⟨hcolumn, columnMap_eq_none.mpr hnot⟩)

/-- The names after additions and drops. -/
theorem names_after {added dropped : Table}
    (hfrom : (fromSpec.columns.map ColumnDDL.name).Nodup)
    (hto : (toSpec.columns.map ColumnDDL.name).Nodup)
    (hadds : run exec fromSpec.table
      (((newColumns fromSpec toSpec).map (addStep dialect)).map Prod.fst) = some added)
    (hdrops : run exec added (((droppedColumns fromSpec toSpec).map ColumnDDL.name).map .dropColumn)
      = some dropped) :
    dropped.names.Perm (toSpec.columns.map ColumnDDL.name) := by
  -- the old names and the new ones, less those that are dropped
  have hadded : added.names = fromSpec.columns.map ColumnDDL.name
      ++ (newColumns fromSpec toSpec).map ColumnDDL.name := by
    rw [run_addSteps hadds]
    unfold Table.names
    rw [List.map_append, List.map_map]
    exact congrArg (· ++ _) (names_table fromSpec)
  have hnames : dropped.names = added.names.filter
      fun name => name ∉ (droppedColumns fromSpec toSpec).map ColumnDDL.name := by
    rw [run_drops hdrops]
    unfold Table.names
    rw [List.filter_map]
    rfl
  have hnewNames := fun name => mem_names_without toSpec.columns fromSpec.columns name
  have hgone := fun name => mem_names_without fromSpec.columns toSpec.columns name
  have hnodup : added.names.Nodup := by
    rw [hadded]
    refine List.Nodup.append hfrom (hto.sublist (List.filter_sublist.map _)) ?_
    exact fun name hold hnew => ((hnewNames name).mp hnew).2 hold
  rw [hnames]
  -- both lists have every name once, so that it only matters which ones they have
  refine (List.perm_ext_iff_of_nodup (hnodup.filter _) hto).mpr fun name => ?_
  unfold droppedColumns
  rw [List.mem_filter, decide_eq_true_iff, hgone, hadded, List.mem_append]
  unfold newColumns
  rw [hnewNames]
  tauto

/-- Comments are for names of both specifications. -/
theorem comments_of_names {names : List String}
    (hnames : ∀ name ∈ toSpec.columns.map ColumnDDL.name, name ∈ names)
    {step : Statement × Statement} (hstep : step ∈ dialectCommentSteps dialect fromSpec toSpec) :
    step.1.Comments names := by
  unfold dialectCommentSteps at hstep
  split at hstep
  · cases hkind : commentStep_of_mem hstep with
    | table text => exact trivial
    | column name text hname =>
      refine hnames name ?_
      have hmem : name ∈ stepNames (commentSteps fromSpec toSpec) :=
        List.mem_filterMap.mpr ⟨_, hstep, rfl⟩
      obtain ⟨column, hcolumn, rfl, -⟩ := mem_stepNames.mp hmem
      exact List.mem_map_of_mem hcolumn
  · exact absurd hstep List.not_mem_nil

/-- Without renames the script reaches the specification. -/
theorem reaches_of_nil {withRollback : Bool} (h : Alteration fromSpec toSpec []) :
    Reaches dialect fromSpec toSpec [] withRollback := by
  have hcolumns : ∀ column ∈ toSpec.columns, column.name ≠ "" ∧ trimSpace column.type ≠ "" :=
    fun column hcolumn => ⟨h.columns_named column (List.mem_append_right _ hcolumn),
      h.columns_typed column (List.mem_append_right _ hcolumn)⟩
  obtain ⟨tableName, script, hbuild⟩ := @buildAlterTableSQL_ok dialect fromSpec toSpec []
    ⟨true, withRollback⟩ h.named hcolumns
  -- new names are free, dropped names are there, and comments are about names of the new table
  obtain ⟨added, hadds⟩ := @run_addSteps_of_new dialect fromSpec.table (newColumns fromSpec toSpec)
    (h.to_nodup.sublist (List.filter_sublist.map _)) (by
      intro column hcolumn
      rw [names_table]
      exact columnMap_eq_none.mp (List.mem_filter.mp hcolumn).2)
  have hkept : ∀ name ∈ fromSpec.columns.map ColumnDDL.name, name ∈ added.names := by
    intro name hname
    rw [run_addSteps hadds]
    unfold Table.names
    rw [List.map_append]
    refine List.mem_append_left _ ?_
    change name ∈ fromSpec.table.names
    rw [names_table]
    exact hname
  obtain ⟨dropped, hdrops⟩ := @run_drops_of_mem added
    ((droppedColumns fromSpec toSpec).map ColumnDDL.name)
    (h.from_nodup.sublist (List.filter_sublist.map _)) (by
      intro name hname
      obtain ⟨column, hcolumn, rfl⟩ := List.mem_map.mp hname
      exact hkept _ (List.mem_map_of_mem (List.mem_of_mem_filter hcolumn)))
  -- that the names are right is all that comments need
  have hperm := names_after h.from_nodup h.to_nodup hadds hdrops
  have hcomments : ∀ statement ∈ (dialectCommentSteps dialect fromSpec toSpec).map Prod.fst,
      statement.Comments dropped.names := by
    intro statement hstatement
    obtain ⟨step, hstep, rfl⟩ := List.mem_map.mp hstatement
    exact comments_of_names (fun name hname => hperm.mem_iff.mpr hname) hstep
  obtain ⟨commented, hcommented, hnames⟩ : ∃ commented,
      run exec dropped ((dialectCommentSteps dialect fromSpec toSpec).map Prod.fst) = some commented ∧
        commented.names = dropped.names := by
    refine ⟨_, run_comments hcomments, ?_⟩
    unfold Table.names
    rw [List.map_map]
    rfl
  refine ⟨tableName, script, commented, hbuild, ?_, hnames ▸ hperm,
    fun rename hrename => absurd hrename List.not_mem_nil⟩
  rw [(buildAlterTableSQL_eq_ok hbuild).1]
  refine run_append_eq_some.mpr ⟨fromSpec.table, rfl, ?_⟩
  refine run_append_eq_some.mpr ⟨added, hadds, ?_⟩
  refine run_append_eq_some.mpr ⟨dropped, ?_, hcommented⟩
  rw [List.map_map] at hdrops
  exact hdrops

/-- **A script reaches the new specification** exactly when nothing is renamed. -/
theorem alter_reaches_iff {withRollback : Bool} (h : Alteration fromSpec toSpec renames) :
    Reaches dialect fromSpec toSpec renames withRollback ↔ renames = [] := by
  constructor
  · exact eq_nil_of_reaches h
  · rintro rfl
    exact reaches_of_nil h

/-- One column is dropped and another one is added. -/
theorem alter_reaches_replaced :
    Reaches ⟨"\"", "\"", true⟩ ⟨"t", "", "", [commentedColumn "a" "", commentedColumn "b" ""], ""⟩
      ⟨"t", "", "", [commentedColumn "c" "", commentedColumn "b" "B"], ""⟩ [] true := by
  refine (alter_reaches_iff ?_).mpr rfl
  have htype : trimSpace "text" ≠ "" := by decide
  exact {
    same := ⟨rfl, rfl, rfl⟩
    named := by decide
    from_nodup := by decide
    to_nodup := by decide
    columns_named := by decide
    columns_typed := by simpa [commentedColumn] using htype
    old_nodup := List.nodup_nil
    new_nodup := List.nodup_nil
    old_mem := fun rename hrename => absurd hrename List.not_mem_nil
    new_mem := fun rename hrename => absurd hrename List.not_mem_nil
    new_notMem := fun rename hrename => absurd hrename List.not_mem_nil }

/-- A column is renamed: the column of the new name is added besides, and that fails. -/
theorem alter_fails_on_rename :
    ∃ fromSpec toSpec renames, Alteration fromSpec toSpec renames ∧
      ¬ Reaches ⟨"\"", "\"", true⟩ fromSpec toSpec renames false := by
  have htype : trimSpace "text" ≠ "" := by decide
  have halter : Alteration ⟨"t", "", "", [commentedColumn "a" ""], ""⟩
      ⟨"t", "", "", [commentedColumn "b" ""], ""⟩ [⟨"a", "b"⟩] := {
    same := ⟨rfl, rfl, rfl⟩
    named := by decide
    from_nodup := by decide
    to_nodup := by decide
    columns_named := by decide
    columns_typed := by simpa [commentedColumn] using htype
    old_nodup := by decide
    new_nodup := by decide
    old_mem := by decide
    new_mem := by decide
    new_notMem := by decide }
  exact ⟨_, _, _, halter, fun hreaches => absurd (eq_nil_of_reaches halter hreaches) (by decide)⟩

end Dbipc
end Navop
