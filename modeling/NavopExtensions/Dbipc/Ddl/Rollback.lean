import NavopExtensions.Dbipc.Ddl.Execution

/-!
# Taking an altered table back

A rollback script has the inverses of the statements in reverse order. Renames and additions are taken
back by theirs. A comment is given back by the name of its column in the old specification, which is the
comment of another column if the renames have handed the name on: the script restores the table exactly
when that makes no difference (`rollback_restores_iff`).
-/

namespace Navop
namespace Dbipc

open Script

variable {dialect : Dialect} {fromSpec toSpec : TableSpec} {renames : List ColumnRename}
  {table table' : Table}

/-! ### Renames -/

/-- The name of a column after the renames. -/
def renamed (renames : List ColumnRename) (name : String) : String :=
  (renames.filter fun rename => rename.oldName ≠ "" ∧ rename.newName ≠ "").foldl
    (fun name rename => if name = rename.oldName then rename.newName else name) name

theorem exec_rename_inverse {oldName newName : String}
    (h : exec table (.renameColumn oldName newName) = some table') :
    exec table' (.renameColumn newName oldName) = some table := by
  simp only [exec] at h
  split at h
  · next hnames =>
    obtain ⟨hold, hnew⟩ := hnames
    obtain rfl := Option.some.inj h
    have hne : oldName ≠ newName := fun heq => hnew (heq ▸ hold)
    -- the new name is there now and the old one is free, so that the rename back can be done
    have hnames' : newName ∈ (table.rename oldName newName).names ∧
        oldName ∉ (table.rename oldName newName).names := by
      rw [names_rename]
      refine ⟨List.mem_map.mpr ⟨oldName, hold, if_pos rfl⟩, fun hmem => ?_⟩
      obtain ⟨name, -, hname⟩ := List.mem_map.mp hmem
      split at hname
      · exact hne hname.symm
      · next hother => exact hother hname
    simp only [exec, if_pos hnames']
    congr 1
    obtain ⟨columns, comment⟩ := table
    simp only [Table.rename, List.map_map, Table.mk.injEq, and_true]
    conv_rhs => rw [← List.map_id columns]
    refine List.map_congr_left fun column hcolumn => ?_
    -- no other column had the new name, so that none is renamed back by mistake
    have hother : column.name ≠ newName := fun heq =>
      hnew (heq ▸ List.mem_map_of_mem hcolumn)
    change (if (if column.name = oldName then { column with name := newName } else column).name
        = newName then _ else _) = column
    by_cases hcol : column.name = oldName
    · simp only [if_pos hcol, if_true]
      rw [← hcol]
    · simp only [if_neg hcol, if_neg hother]
  · exact absurd h (by simp)

theorem renameSteps_inverse {step : Statement × Statement} (hstep : step ∈ renameSteps renames)
    (h : exec table step.1 = some table') : exec table' step.2 = some table := by
  obtain ⟨rename, -, rfl⟩ := List.mem_map.mp hstep
  exact exec_rename_inverse h

/-- What renames do to a table. -/
theorem run_renameSteps (h : run exec table ((renameSteps renames).map Prod.fst) = some table') :
    table' = { table with columns := table.columns.map fun column =>
      { column with name := renamed renames column.name } } := by
  unfold renameSteps renamed at *
  rw [List.map_map] at h
  generalize (renames.filter fun rename => rename.oldName ≠ "" ∧ rename.newName ≠ "") = kept at *
  induction kept generalizing table with
  | nil =>
    obtain rfl := Option.some.inj h
    simp
  -- a column follows all the renames, one after the other
  | cons rename kept ih =>
    obtain ⟨next, hnext, hrest⟩ := run_cons_eq_some.mp h
    rw [ih hrest]
    simp only [Function.comp, exec] at hnext
    split at hnext
    · obtain rfl := Option.some.inj hnext
      simp only [Table.rename, List.map_map, Table.mk.injEq, and_true]
      refine List.map_congr_left fun column _ => ?_
      change Column.mk (kept.foldl _ (if column.name = rename.oldName
        then { column with name := rename.newName } else column).name) _ _ = Column.mk _ _ _
      split
      · next hcol => simp [List.foldl_cons, hcol]
      · next hcol => simp [List.foldl_cons, hcol]
    · exact absurd hnext (by simp)

/-! ### Additions -/

theorem exec_add_inverse {column : ColumnDDL} {definition : String}
    (h : exec table (.addColumn column definition) = some table') :
    exec table' (.dropColumn column.name) = some table := by
  simp only [exec] at h
  split at h
  · exact absurd h (by simp)
  · next hnew =>
    obtain rfl := Option.some.inj h
    have hmem : column.name
        ∈ Table.names ⟨table.columns ++ [⟨column.name, .added column, ""⟩], table.comment⟩ := by
      simp [Table.names]
    simp only [exec, if_pos hmem]
    congr 1
    obtain ⟨columns, comment⟩ := table
    simp only [Table.mk.injEq, and_true, List.filter_append]
    -- the drop takes only the added column, for its name was new
    have hkept : columns.filter (fun other => other.name ≠ column.name) = columns := by
      refine List.filter_eq_self.mpr fun other hother => decide_eq_true fun heq => hnew ?_
      exact heq ▸ List.mem_map_of_mem hother
    rw [hkept]
    simp

theorem addStep_inverse {column : ColumnDDL}
    (h : exec table (addStep dialect column).1 = some table') :
    exec table' (addStep dialect column).2 = some table := exec_add_inverse h

/-- What additions do to a table. -/
theorem run_addSteps {columns : List ColumnDDL}
    (h : run exec table ((columns.map (addStep dialect)).map Prod.fst) = some table') :
    table' = { table with columns := table.columns ++ columns.map fun column =>
      ⟨column.name, .added column, ""⟩ } := by
  induction columns generalizing table with
  | nil =>
    obtain rfl := Option.some.inj h
    simp
  | cons column columns ih =>
    obtain ⟨next, hnext, hrest⟩ := run_cons_eq_some.mp h
    rw [ih hrest]
    simp only [addStep, exec] at hnext
    split at hnext
    · exact absurd hnext (by simp)
    · obtain rfl := Option.some.inj hnext
      simp

/-- Columns that could be added were not there before. -/
theorem notMem_of_run_addSteps {columns : List ColumnDDL} {column : ColumnDDL}
    (h : run exec table ((columns.map (addStep dialect)).map Prod.fst) = some table')
    (hcolumn : column ∈ columns) : column.name ∉ table.names := by
  induction columns generalizing table with
  | nil => exact absurd hcolumn List.not_mem_nil
  | cons first columns ih =>
    obtain ⟨next, hnext, hrest⟩ := run_cons_eq_some.mp h
    simp only [addStep, exec] at hnext
    split at hnext
    · exact absurd hnext (by simp)
    · next hnew =>
      obtain rfl := Option.some.inj hnext
      obtain rfl | hcolumn := List.mem_cons.mp hcolumn
      · exact hnew
      · intro hmem
        refine ih hrest hcolumn ?_
        unfold Table.names at hmem ⊢
        rw [List.map_append]
        exact List.mem_append_left _ hmem

/-- What drops do to a table. -/
theorem run_drops {names : List String}
    (h : run exec table (names.map .dropColumn) = some table') :
    table' = { table with columns := table.columns.filter fun column => column.name ∉ names } := by
  induction names generalizing table with
  | nil =>
    obtain rfl := Option.some.inj h
    simp
  | cons name names ih =>
    obtain ⟨next, hnext, hrest⟩ := run_cons_eq_some.mp h
    rw [ih hrest]
    simp only [exec] at hnext
    split at hnext
    · obtain rfl := Option.some.inj hnext
      simp only [List.filter_filter, Table.mk.injEq, and_true]
      refine List.filter_congr fun column _ => ?_
      simp [Bool.and_comm]
    · exact absurd hnext (by simp)

/-! ### Comments -/

/-- The comment of a column of some name after statements about comments. -/
def commentAfter (statements : List Statement) (name comment : String) : String :=
  statements.foldl (fun comment statement =>
    match statement with
    | .commentColumn other text => if other = name then text else comment
    | _ => comment) comment

/-- The comment of the table after statements about comments. -/
def tableCommentAfter (statements : List Statement) (comment : String) : String :=
  statements.foldl (fun comment statement =>
    match statement with
    | .commentTable text => text
    | _ => comment) comment

/-- Statements about the comments of a table and of columns that it has. -/
def Statement.Comments (names : List String) : Statement → Prop
  | .commentTable _ => True
  | .commentColumn name _ => name ∈ names
  | _ => False

/-- What statements about comments do to a table. -/
theorem run_comments {statements : List Statement}
    (h : ∀ statement ∈ statements, statement.Comments table.names) :
    run exec table statements = some
      { columns := table.columns.map fun column =>
          { column with comment := commentAfter statements column.name column.comment }
        comment := tableCommentAfter statements table.comment } := by
  induction statements generalizing table with
  | nil => simp [commentAfter, tableCommentAfter]
  | cons statement statements ih =>
    have hfirst := h statement List.mem_cons_self
    have hrest := fun other hother => h other (List.mem_cons_of_mem _ hother)
    cases statement with
    | commentTable text =>
      rw [run_cons, exec, Option.bind_some]
      exact ih hrest
    | commentColumn name text =>
      rw [run_cons, exec, if_pos (show name ∈ table.names from hfirst), Option.bind_some,
        ih (by rw [names_commentOn]; exact hrest)]
      simp only [Table.commentOn, List.map_map, Option.some_inj, Table.mk.injEq]
      refine ⟨List.map_congr_left fun column _ => ?_, rfl⟩
      by_cases hcolumn : column.name = name
      · simp [hcolumn, commentAfter]
      · simp [hcolumn, commentAfter, Ne.symm hcolumn]
    -- the other statements are not about comments
    | renameColumn oldName newName => exact absurd hfirst id
    | addColumn column definition => exact absurd hfirst id
    | dropColumn name => exact absurd hfirst id

/-- The comment of a name in the old specification. -/
def oldComment (fromSpec : TableSpec) (name : String) : String :=
  ((columnMap fromSpec.columns name).map ColumnDDL.comment).getD ""

/-- A step for the comment of the table or of a name of the old specification, with the old comment in
its inverse. -/
inductive CommentStep (fromSpec : TableSpec) : Statement × Statement → Prop
  | table (text : String) :
    CommentStep fromSpec (.commentTable text, .commentTable fromSpec.comment)
  | column (name text : String) (hname : name ∈ fromSpec.columns.map ColumnDDL.name) :
    CommentStep fromSpec
      (.commentColumn name text, .commentColumn name (oldComment fromSpec name))

/-- The names whose comments steps change. -/
def stepNames (steps : List (Statement × Statement)) : List String :=
  steps.filterMap fun step =>
    match step.1 with
    | .commentColumn name _ => some name
    | _ => none

theorem commentStep_of_mem {step : Statement × Statement}
    (hstep : step ∈ commentSteps fromSpec toSpec) : CommentStep fromSpec step := by
  obtain htable | hcolumn := List.mem_append.mp hstep
  · split at htable
    · obtain rfl := List.mem_singleton.mp htable
      exact .table _
    · exact absurd htable List.not_mem_nil
  · obtain ⟨column, -, hsome⟩ := List.mem_filterMap.mp hcolumn
    split at hsome
    · next before hbefore =>
      split at hsome
      · exact absurd hsome (by simp)
      · obtain rfl := Option.some.inj hsome
        -- the comment that is taken back is the old specification's
        have hold : before.comment = oldComment fromSpec column.name := by
          rw [oldComment, hbefore]
          rfl
        rw [hold]
        refine .column _ _ ?_
        rw [← columnMap_isSome, hbefore]
        rfl
    · exact absurd hsome (by simp)

/-- A name is commented on exactly when it is in both specifications with different comments. -/
theorem mem_stepNames {name : String} :
    name ∈ stepNames (commentSteps fromSpec toSpec) ↔
      ∃ column ∈ toSpec.columns, column.name = name ∧ name ≠ "" ∧
        name ∈ fromSpec.columns.map ColumnDDL.name ∧
        oldComment fromSpec name ≠ column.comment := by
  have hold : ∀ {before : ColumnDDL}, columnMap fromSpec.columns name = some before →
      oldComment fromSpec name = before.comment := by
    intro before hbefore
    rw [oldComment, hbefore]
    rfl
  constructor
  · intro hmem
    obtain ⟨step, hstep, hname⟩ := List.mem_filterMap.mp hmem
    obtain htable | hcolumns := List.mem_append.mp hstep
    · split at htable
      · rw [List.mem_singleton.mp htable] at hname
        exact absurd hname (by simp)
      · exact absurd htable List.not_mem_nil
    · obtain ⟨column, hcolumn, hsome⟩ := List.mem_filterMap.mp hcolumns
      split at hsome
      · next before hbefore =>
        split at hsome
        · exact absurd hsome (by simp)
        · next hchanged =>
          obtain rfl := Option.some.inj hsome
          obtain rfl : column.name = name := Option.some.inj hname
          push Not at hchanged
          refine ⟨column, hcolumn, rfl, hchanged.1, ?_, ?_⟩
          · rw [← columnMap_isSome, hbefore]
            rfl
          · rw [hold hbefore]
            exact hchanged.2
      · exact absurd hsome (by simp)
  -- a column of both specifications whose comment changes has its step
  · rintro ⟨column, hcolumn, rfl, hne, hin, hchanged⟩
    obtain ⟨before, hbefore⟩ := Option.isSome_iff_exists.mp (columnMap_isSome.mpr hin)
    rw [hold hbefore] at hchanged
    refine List.mem_filterMap.mpr ⟨(.commentColumn column.name column.comment,
      .commentColumn column.name before.comment), List.mem_append_right _ ?_, rfl⟩
    refine List.mem_filterMap.mpr ⟨column, hcolumn, ?_⟩
    simp [hbefore, hne, hchanged]

section Steps

variable {steps : List (Statement × Statement)} (hsteps : ∀ step ∈ steps, CommentStep fromSpec step)
include hsteps

/-- Other names keep their comments. -/
theorem commentAfter_of_notMem {name : String} (hname : name ∉ stepNames steps) (comment : String) :
    commentAfter (steps.map Prod.fst) name comment = comment := by
  induction steps with
  | nil => rfl
  | cons step steps ih =>
    have hrest := fun later hlater => hsteps later (List.mem_cons_of_mem _ hlater)
    cases hsteps step List.mem_cons_self with
    | table text => exact ih hrest hname
    | column other text _ =>
      obtain ⟨hne, hnot⟩ : name ≠ other ∧ name ∉ stepNames steps := by
        simpa [stepNames] using hname
      change commentAfter (steps.map Prod.fst) name (if other = name then text else comment) = comment
      rw [if_neg (Ne.symm hne), ih hrest hnot]

/-- The inverses give the names their old comments. -/
theorem commentAfter_inverses (name comment : String) :
    commentAfter (steps.map Prod.snd).reverse name comment
      = if name ∈ stepNames steps then oldComment fromSpec name else comment := by
  induction steps with
  | nil => rfl
  | cons step steps ih =>
    have hrest := ih fun later hlater => hsteps later (List.mem_cons_of_mem _ hlater)
    rw [List.map_cons, List.reverse_cons, commentAfter, List.foldl_append]
    cases hsteps step List.mem_cons_self with
    | table text => exact hrest
    | column other text _ =>
      change (if other = name then oldComment fromSpec other
        else commentAfter (steps.map Prod.snd).reverse name comment)
          = if name ∈ other :: stepNames steps then oldComment fromSpec name else comment
      by_cases hname : other = name
      · rw [if_pos hname, if_pos (hname ▸ List.mem_cons_self), hname]
      · rw [if_neg hname, hrest]
        simp [Ne.symm hname]

/-- The comment of the table is given back, or was never changed. -/
theorem tableCommentAfter_inverses (comment : String) :
    tableCommentAfter (steps.map Prod.snd).reverse comment = fromSpec.comment ∨
      tableCommentAfter (steps.map Prod.snd).reverse comment = comment ∧
        ∀ text, tableCommentAfter (steps.map Prod.fst) text = text := by
  induction steps with
  | nil => exact .inr ⟨rfl, fun _ => rfl⟩
  | cons step steps ih =>
    have hrest := ih fun later hlater => hsteps later (List.mem_cons_of_mem _ hlater)
    rw [List.map_cons, List.reverse_cons, tableCommentAfter, List.foldl_append]
    cases hsteps step List.mem_cons_self with
    | table text => exact .inl rfl
    | column other text _ => exact hrest

/-- Steps that can be run are about columns of the table, and so are their inverses. -/
theorem comments_of_run {table table' : Table}
    (hrun : run exec table (steps.map Prod.fst) = some table') :
    ∀ step ∈ steps, step.1.Comments table.names ∧ step.2.Comments table.names := by
  induction steps generalizing table with
  | nil => exact fun step hstep => absurd hstep List.not_mem_nil
  | cons step steps ih =>
    have hlater := fun later hlater => hsteps later (List.mem_cons_of_mem _ hlater)
    obtain ⟨next, hnext, hrest⟩ := run_cons_eq_some.mp hrun
    cases hsteps step List.mem_cons_self with
    | table text =>
      obtain rfl := Option.some.inj hnext
      intro other hother
      obtain rfl | hother := List.mem_cons.mp hother
      · exact ⟨trivial, trivial⟩
      · exact ih hlater hrest other hother
    -- a comment needs its column when it is made, and the column is still there when it is taken back
    | column name text _ =>
      simp only [exec] at hnext
      split at hnext
      · next hname =>
        obtain rfl := Option.some.inj hnext
        intro other hother
        obtain rfl | hother := List.mem_cons.mp hother
        · exact ⟨hname, hname⟩
        · have hthere := ih hlater hrest other hother
          rwa [names_commentOn] at hthere
      · exact absurd hnext (by simp)

/-- **Comments that are changed and given back**: a name that was commented on has its old comment,
and nothing else has changed. -/
theorem run_comments_undone {table table' : Table} (hcomment : table.comment = fromSpec.comment)
    (hrun : run exec table (steps.map Prod.fst) = some table') :
    run exec table' (steps.map Prod.snd).reverse = some
      { table with columns := table.columns.map fun column =>
        { column with comment :=
            if column.name ∈ stepNames steps then oldComment fromSpec column.name
            else column.comment } } := by
  have hcomments := comments_of_run hsteps hrun
  have hforward : ∀ statement ∈ steps.map Prod.fst, statement.Comments table.names := by
    intro statement hstatement
    obtain ⟨step, hstep, rfl⟩ := List.mem_map.mp hstatement
    exact (hcomments step hstep).1
  obtain rfl := Option.some.inj ((run_comments hforward).symm.trans hrun)
  rw [run_comments]
  · simp only [List.map_map, Option.some_inj, Table.mk.injEq]
    refine ⟨List.map_congr_left fun column _ => ?_, ?_⟩
    -- the comment that is taken back last is that of the old specification, for whatever column has the
    -- name now
    · simp only [Function.comp, Column.mk.injEq, true_and]
      rw [commentAfter_inverses hsteps]
      split
      · rfl
      · next hname => exact commentAfter_of_notMem hsteps hname column.comment
    · obtain hgiven | ⟨hkept, hnever⟩ := tableCommentAfter_inverses hsteps
        (tableCommentAfter (steps.map Prod.fst) table.comment)
      · rw [hgiven, hcomment]
      · rw [hkept, hnever]
  · intro statement hstatement
    obtain ⟨step, hstep, rfl⟩ := List.mem_map.mp (List.mem_reverse.mp hstatement)
    have hinverse := (hcomments step hstep).2
    unfold Table.names at hinverse ⊢
    rw [List.map_map]
    exact hinverse

end Steps

/-! ### The script -/

/-- Renames that are taken back lead to the table that leads to them. -/
theorem run_renames_undone_iff (hrun : run exec fromSpec.table ((renameSteps renames).map Prod.fst)
      = some table) :
    run exec table' ((renameSteps renames).map Prod.snd).reverse = some fromSpec.table ↔
      table' = table := by
  constructor
  · intro hback
    -- the inverse of an inverse is the rename itself
    have hagain : run exec fromSpec.table
        ((((renameSteps renames).map Prod.swap).reverse).map Prod.snd).reverse = some table' := by
      refine run_undo (fun step hstep t t' hexec => ?_) ?_
      · obtain ⟨pair, hpair, rfl⟩ := List.mem_map.mp (List.mem_reverse.mp hstep)
        obtain ⟨rename, -, rfl⟩ := List.mem_map.mp hpair
        exact exec_rename_inverse hexec
      · rw [List.map_reverse, List.map_map]
        exact hback
    rw [List.map_reverse, List.reverse_reverse, List.map_map] at hagain
    exact Option.some.inj (hagain.symm.trans hrun)
  · rintro rfl
    exact run_undo (fun step hstep t t' => renameSteps_inverse hstep) hrun

/-- Dropping the new columns leaves the others. -/
theorem run_additions_undone {columns : List ColumnDDL} {f : Column → Column}
    (hnew : ∀ column ∈ table.columns, column.name ∉ columns.map ColumnDDL.name)
    (hadds : run exec table ((columns.map (addStep dialect)).map Prod.fst) = some table')
    (hname : ∀ column, (f column).name = column.name) {back : Table}
    (hrun : run exec { table' with columns := table'.columns.map f }
      ((columns.map (addStep dialect)).map Prod.snd).reverse = some back) :
    back = { table with columns := table.columns.map f } := by
  have hdrops : ((columns.map (addStep dialect)).map Prod.snd).reverse
      = (columns.map ColumnDDL.name).reverse.map .dropColumn := by
    rw [List.map_map, List.map_reverse, List.map_map]
    rfl
  rw [hdrops] at hrun
  rw [run_drops hrun, run_addSteps hadds]
  simp only [List.map_append, List.filter_append, Table.mk.injEq, and_true, List.mem_reverse]
  -- the drops take the added columns, and no others
  have hkept : (table.columns.map f).filter
      (fun column => column.name ∉ columns.map ColumnDDL.name) = table.columns.map f := by
    refine List.filter_eq_self.mpr fun column hcolumn => ?_
    obtain ⟨before, hbefore, rfl⟩ := List.mem_map.mp hcolumn
    rw [hname]
    exact decide_eq_true (hnew before hbefore)
  have hgone : ((columns.map fun column => (⟨column.name, .added column, ""⟩ : Column)).map f).filter
      (fun column => column.name ∉ columns.map ColumnDDL.name) = [] := by
    refine List.filter_eq_nil_iff.mpr fun column hcolumn => ?_
    obtain ⟨before, hbefore, rfl⟩ := List.mem_map.mp hcolumn
    obtain ⟨added, hadded, rfl⟩ := List.mem_map.mp hbefore
    rw [hname]
    simpa using ⟨added, hadded, rfl⟩
  rw [hkept, hgone, List.append_nil]

/-- A column whose name was commented on, with the comment of that name in the old specification. -/
def recommented (dialect : Dialect) (fromSpec toSpec : TableSpec) (column : Column) : Column :=
  { column with comment :=
      if column.name ∈ stepNames (dialectCommentSteps dialect fromSpec toSpec)
      then oldComment fromSpec column.name else column.comment }

theorem dialectCommentStep_of_mem {step : Statement × Statement}
    (hstep : step ∈ dialectCommentSteps dialect fromSpec toSpec) : CommentStep fromSpec step := by
  unfold dialectCommentSteps at hstep
  split at hstep
  · exact commentStep_of_mem hstep
  · exact absurd hstep List.not_mem_nil

/-- Only names of the old specification are commented on. -/
theorem mem_fromSpec_of_mem_stepNames {name : String}
    (hname : name ∈ stepNames (dialectCommentSteps dialect fromSpec toSpec)) :
    name ∈ fromSpec.columns.map ColumnDDL.name := by
  unfold dialectCommentSteps at hname
  split at hname
  · obtain ⟨-, -, -, -, hin, -⟩ := mem_stepNames.mp hname
    exact hin
  · exact absurd hname List.not_mem_nil

theorem recommented_of_new {column : ColumnDDL} (hcolumn : column ∈ newColumns fromSpec toSpec) :
    recommented dialect fromSpec toSpec ⟨column.name, .added column, ""⟩
      = ⟨column.name, .added column, ""⟩ := by
  have hnot : column.name ∉ fromSpec.columns.map ColumnDDL.name :=
    columnMap_eq_none.mp (List.mem_filter.mp hcolumn).2
  unfold recommented
  rw [if_neg fun hname => hnot (mem_fromSpec_of_mem_stepNames hname)]

/-- The script leads back when giving the comments back changes no column of the renamed table. -/
theorem rollback_iff_recommented {table₁ table₂ table₃ : Table}
    (hrenames : run exec fromSpec.table ((renameSteps renames).map Prod.fst) = some table₁)
    (hadds : run exec table₁
      (((newColumns fromSpec toSpec).map (addStep dialect)).map Prod.fst) = some table₂)
    (hcomments : run exec table₂
      ((dialectCommentSteps dialect fromSpec toSpec).map Prod.fst) = some table₃) :
    run exec table₃ (((dialectCommentSteps dialect fromSpec toSpec).map Prod.snd).reverse
        ++ ((((newColumns fromSpec toSpec).map (addStep dialect)).map Prod.snd).reverse
        ++ ((renameSteps renames).map Prod.snd).reverse)) = some fromSpec.table ↔
      ∀ column ∈ table₁.columns, recommented dialect fromSpec toSpec column = column := by
  have htable₂ := run_addSteps hadds
  have hcomment : table₂.comment = fromSpec.comment := by
    rw [htable₂, run_renameSteps hrenames]
    rfl
  -- the comments are taken back first, while the new names are still in use
  have hback := run_comments_undone (fun step => dialectCommentStep_of_mem) hcomment hcomments
  change run exec table₃ _
    = some { table₂ with columns := table₂.columns.map (recommented dialect fromSpec toSpec) }
    at hback
  rw [run_append, hback, Option.bind_some]
  constructor
  · intro hrun
    obtain ⟨before, hdrops, hnames⟩ := run_append_eq_some.mp hrun
    have hnew : ∀ column ∈ table₁.columns,
        column.name ∉ (newColumns fromSpec toSpec).map ColumnDDL.name := by
      intro column hcolumn hmem
      obtain ⟨added, hadded, hname⟩ := List.mem_map.mp hmem
      refine notMem_of_run_addSteps hadds hadded ?_
      rw [hname]
      exact List.mem_map_of_mem hcolumn
    have hname : ∀ column, (recommented dialect fromSpec toSpec column).name = column.name :=
      fun _ => rfl
    -- if the table is restored, so are the columns between the comments and the renames
    have hbefore := run_additions_undone hnew hadds hname hdrops
    have hsame := (run_renames_undone_iff hrenames).mp hnames
    have hcolumns : table₁.columns.map (recommented dialect fromSpec toSpec) = table₁.columns :=
      congrArg Table.columns (hbefore.symm.trans hsame)
    exact List.map_inj_left.mp (hcolumns.trans (List.map_id _).symm)
  · intro hfixed
    have hcolumns : table₂.columns.map (recommented dialect fromSpec toSpec) = table₂.columns := by
      conv_rhs => rw [← List.map_id table₂.columns]
      refine List.map_congr_left fun column hcolumn => ?_
      rw [htable₂] at hcolumn
      obtain hold | hadded := List.mem_append.mp hcolumn
      · exact hfixed column hold
      · obtain ⟨added, hmem, rfl⟩ := List.mem_map.mp hadded
        exact recommented_of_new hmem
    rw [hcolumns]
    refine run_append_eq_some.mpr ⟨table₁, ?_, (run_renames_undone_iff hrenames).mpr rfl⟩
    -- if nothing was given another comment, each step is taken back by its own inverse
    refine run_undo (fun step hstep t t' hexec => ?_) hadds
    obtain ⟨column, -, rfl⟩ := List.mem_map.mp hstep
    exact addStep_inverse hexec

/-- **A rollback restores the table** exactly when every column that bears a name whose comment was
changed, after the renames, had that name's comment in the old specification. -/
theorem rollback_restores_iff {tableName : String} {script : AlterScript}
    (hbuild : buildAlterTableSQL dialect fromSpec toSpec renames ⟨false, true⟩
      = .ok (tableName, script))
    (hrun : run exec fromSpec.table script.statements = some table) :
    run exec table script.rollback = some fromSpec.table ↔
      (dialect.supportsComments = true → ∀ column ∈ toSpec.columns, column.name ≠ "" →
        ∀ before, columnMap fromSpec.columns column.name = some before →
          before.comment ≠ column.comment →
            ∀ other ∈ fromSpec.columns, renamed renames other.name = column.name →
              other.comment = before.comment) := by
  obtain ⟨hstatements, hrollback⟩ := buildAlterTableSQL_eq_ok hbuild
  rw [hstatements] at hrun
  rw [hrollback rfl]
  obtain ⟨table₁, hrenames, hrest⟩ := run_append_eq_some.mp hrun
  obtain ⟨table₂, hadds, hcomments⟩ := run_append_eq_some.mp hrest
  rw [rollback_iff_recommented hrenames hadds hcomments, run_renameSteps hrenames]
  unfold dialectCommentSteps at *
  constructor
  · intro hfixed hsupports column hcolumn hne before hbefore hchanged other hother hname
    have hold : oldComment fromSpec column.name = before.comment := by
      rw [oldComment, hbefore]
      rfl
    -- the comment of the column is changed, so that it is taken back under this name
    have hstep : column.name ∈ stepNames (commentSteps fromSpec toSpec) := by
      refine mem_stepNames.mpr ⟨column, hcolumn, rfl, hne, ?_, hold ▸ hchanged⟩
      rw [← columnMap_isSome, hbefore]
      rfl
    have hcomment := congrArg Column.comment (hfixed _ (List.mem_map_of_mem
      (List.mem_map_of_mem hother)))
    simp only [recommented, dialectCommentSteps, hsupports, ↓reduceIte, hname, if_pos hstep,
      hold] at hcomment
    exact hcomment.symm
  · intro hcondition column hcolumn
    obtain ⟨original, horiginal, rfl⟩ := List.mem_map.mp hcolumn
    obtain ⟨other, hother, rfl⟩ := List.mem_map.mp horiginal
    unfold recommented
    split
    -- a column that has the name after the renames gets the comment of the one that had it before
    · next hname =>
      unfold dialectCommentSteps at hname
      split at hname
      · next hsupports =>
        obtain ⟨column, hcolumn, hsame, hne, hin, hchanged⟩ := mem_stepNames.mp hname
        obtain ⟨before, hbefore⟩ := Option.isSome_iff_exists.mp (columnMap_isSome.mpr hin)
        have hold : oldComment fromSpec (renamed renames other.name) = before.comment := by
          rw [oldComment, hbefore]
          rfl
        simp only [hold] at hchanged ⊢
        rw [← hsame] at hne hbefore
        rw [hcondition hsupports column hcolumn hne before hbefore hchanged other hother hsame.symm]
      · exact absurd hname List.not_mem_nil
    · rfl

/-- A column with a name and a comment, and nothing else of note. -/
def commentedColumn (name comment : String) : ColumnDDL where
  name := name
  type := "text"
  nullable := none
  default := none
  isPrimary := false
  isUnique := false
  autoIncrement := false
  comment := comment

/-- A comment that changes on a column that keeps its name is given back. -/
theorem rollback_restores_comment :
    run exec ⟨[⟨"a", .original (commentedColumn "a" "A"), "X"⟩,
          ⟨"d", .original (commentedColumn "b" "B"), "B"⟩], ""⟩
        [.commentColumn "a" "A", .renameColumn "d" "b"]
      = some (TableSpec.mk "t" "" "" [commentedColumn "a" "A", commentedColumn "b" "B"] "").table := by
  have hbuild : buildAlterTableSQL ⟨"\"", "\"", true⟩
        ⟨"t", "", "", [commentedColumn "a" "A", commentedColumn "b" "B"], ""⟩
        ⟨"t", "", "", [commentedColumn "a" "X"], ""⟩ [⟨"b", "d"⟩] ⟨false, true⟩
      = .ok (qualifiedTableName ⟨"\"", "\"", true⟩ "" "" "t",
        ⟨[.renameColumn "b" "d", .commentColumn "a" "X"],
          [.commentColumn "a" "A", .renameColumn "d" "b"], []⟩) := rfl
  refine (rollback_restores_iff hbuild ?_).mpr ?_
  · decide
  · intro _ column hcolumn _ before hbefore _ other hother hname
    obtain rfl := List.mem_singleton.mp hcolumn
    obtain rfl := Option.some.inj hbefore
    obtain rfl | hother := List.mem_cons.mp hother
    · rfl
    · obtain rfl := List.mem_singleton.mp hother
      exact absurd hname (by decide)

/-- Two columns swap their names and one of them gets another comment: the rollback gives it the
comment of the other. -/
theorem rollback_mixes_comments :
    let fromSpec : TableSpec := ⟨"t", "", "", [commentedColumn "a" "A", commentedColumn "b" "B"], ""⟩
    let toSpec : TableSpec := ⟨"t", "", "", [commentedColumn "a" "X", commentedColumn "b" "B"], ""⟩
    ∃ tableName script table,
      buildAlterTableSQL ⟨"\"", "\"", true⟩ fromSpec toSpec [⟨"a", "c"⟩, ⟨"b", "a"⟩, ⟨"c", "b"⟩]
        ⟨false, true⟩ = .ok (tableName, script) ∧
      run exec fromSpec.table script.statements = some table ∧
      run exec table script.rollback ≠ some fromSpec.table := by
  refine ⟨qualifiedTableName ⟨"\"", "\"", true⟩ "" "" "t",
    ⟨[.renameColumn "a" "c", .renameColumn "b" "a", .renameColumn "c" "b", .commentColumn "a" "X"],
      [.commentColumn "a" "A", .renameColumn "b" "c", .renameColumn "a" "b", .renameColumn "c" "a"],
      []⟩,
    ⟨[⟨"b", .original (commentedColumn "a" "A"), "A"⟩,
      ⟨"a", .original (commentedColumn "b" "B"), "X"⟩], ""⟩, rfl, ?_, ?_⟩
  · decide
  · decide

end Dbipc
end Navop
