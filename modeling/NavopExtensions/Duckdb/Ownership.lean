import NavopExtensions.Duckdb.Session

/-!
# Who owns the open transaction

An open transaction of the engine is to belong to the one `tx_id` or `import_id` that is live, which may
still end it (`Owned`).

`data/import_commit` and `data/import_abort` forget the import before they ask the engine, so that a
transaction that the engine does not end then belongs to nobody; so does that of an `exec/batch` which
the engine does not end. In runs without such refusals the books are kept (`transactions_owned`).
-/

namespace Navop
namespace Duckdb

open Machine

/-- The engine has an open transaction. -/
def Engine.isOpen {ε : Type*} (engine : Engine ε) : Bool := engine.transaction.isSome

/-- The open transaction is not aborted. -/
def Engine.Unaborted {ε : Type*} (engine : Engine ε) : Prop :=
  ∀ transaction, engine.transaction = some transaction → transaction.aborted = false

/-- What may own a transaction. -/
inductive Owner
  | tx (id : String)
  | importer (id : String)
  deriving DecidableEq

/-- The request that undoes the transaction of an owner. -/
def Owner.undo : Owner → Request
  | .tx id => .txRollback id none
  | .importer id => .importAbort id

/-- The ids that are live. -/
def ConnectionState.Live (state : ConnectionState) : Owner → Prop
  | .tx id => id ∈ state.txs
  | .importer id => id ∈ state.imports

/-- The driver and the engine agree about transactions. -/
structure Owned (library : Library) (state : ConnectionState) : Prop where
  /-- One id is live at most. -/
  one : ∀ a b, state.Live a → state.Live b → a = b
  /-- An open transaction has an owner. -/
  owner : state.engine.isOpen = true → ∃ owner, state.Live owner
  /-- The owner can end it. -/
  ends : ∀ owner, state.Live owner → ∃ answers,
    (handle library state owner.undo answers).1.engine.isOpen = false

/-- Where a request ends a transaction and keeps no id of it, the engine ends it. A batch has begun one
to end if the engine has taken the `BEGIN`. -/
def Accepted (state : ConnectionState) (input : Request × Answers) : Prop :=
  match input.1 with
  | .importCommit importId => importId ∈ state.imports →
    input.2.ends.fails = false ∧ state.engine.Unaborted
  | .importAbort importId => importId ∈ state.imports → input.2.ends.fails = false
  | .execBatch _ true _ =>
    state.engine.isOpen = false → input.2.begins.fails = false → input.2.ends.fails = false
  | _ => True

/-! ### What the calls do to the open transaction -/

section Calls

variable {ε : Type*} {engine : Engine ε} {said : Said}

@[simp] theorem isOpen_execute (engine : Engine ε) (said : Said) (effects : List ε) :
    (engine.execute said effects).1.isOpen = engine.isOpen := by
  obtain ⟨durable, transaction⟩ := engine
  cases transaction with
  | none => cases h : said.fails <;> simp [Engine.execute, Engine.isOpen, h]
  | some transaction =>
    unfold Engine.execute
    dsimp only
    split
    · rfl
    · split
      · rfl
      · rfl

/-- A statement that succeeds was not in an aborted transaction. -/
theorem unaborted_execute {effects : List ε} (h : (engine.execute said effects).2 = .ok ()) :
    (engine.execute said effects).1.Unaborted := by
  obtain ⟨durable, transaction⟩ := engine
  cases transaction with
  | none =>
    unfold Engine.execute at h ⊢
    dsimp only at h ⊢
    split
    · exact fun _ hnone => absurd hnone (by simp)
    · exact fun _ hnone => absurd hnone (by simp)
  | some transaction =>
    unfold Engine.execute at h ⊢
    dsimp only at h ⊢
    -- an aborted transaction refuses, a failure answers an error, and a success leaves the flag as it was
    by_cases haborted : transaction.aborted = true
    · rw [if_pos haborted] at h
      exact absurd h (by simp)
    · by_cases hfails : said.fails = true
      · rw [if_neg haborted, if_pos hfails] at h
        exact absurd h (by simp)
      · rw [if_neg haborted, if_neg hfails]
        rintro _ ⟨⟩
        exact Bool.not_eq_true _ ▸ haborted

/-- `BEGIN` succeeds only without a transaction. -/
theorem begin_cases (engine : Engine ε) (said : Said) :
    (∃ message, engine.begin said = (engine, .error message)) ∨
      (engine.isOpen = false ∧ said.fails = false ∧
        engine.begin said = ({ engine with transaction := some ⟨[], false⟩ }, .ok ())) := by
  obtain ⟨durable, transaction⟩ := engine
  cases transaction with
  | none =>
    cases hfails : said.fails with
    | false => exact Or.inr ⟨rfl, rfl, by simp [Engine.begin, hfails]⟩
    | true => exact Or.inl ⟨said.message, by simp [Engine.begin, hfails]⟩
  | some transaction => exact Or.inl ⟨said.message, rfl⟩

/-- `COMMIT` succeeds only in a transaction. -/
theorem commit_cases (engine : Engine ε) (said : Said) :
    (∃ message, engine.commit said = (engine, .error message)) ∨
      (∃ transaction, engine.transaction = some transaction ∧ transaction.aborted = false ∧
        engine.commit said = (⟨engine.durable ++ transaction.effects, none⟩, .ok ())) := by
  obtain ⟨durable, transaction⟩ := engine
  cases transaction with
  | none => exact Or.inl ⟨said.message, rfl⟩
  | some transaction =>
    cases hfails : said.fails || transaction.aborted with
    | false =>
      refine Or.inr ⟨transaction, rfl, ((Bool.or_eq_false_iff).mp hfails).2, ?_⟩
      simp [Engine.commit, hfails]
    | true => exact Or.inl ⟨said.message, by simp [Engine.commit, hfails]⟩

/-- `ROLLBACK` succeeds only in a transaction. -/
theorem rollback_cases (engine : Engine ε) (said : Said) :
    (∃ message, engine.rollback said = (engine, .error message)) ∨
      (engine.isOpen = true ∧
        engine.rollback said = ({ engine with transaction := none }, .ok ())) := by
  obtain ⟨durable, transaction⟩ := engine
  cases transaction with
  | none => exact Or.inl ⟨said.message, rfl⟩
  | some transaction =>
    cases hfails : said.fails with
    | false => exact Or.inr ⟨rfl, by simp [Engine.rollback, hfails]⟩
    | true => exact Or.inl ⟨said.message, by simp [Engine.rollback, hfails]⟩

/-- A `COMMIT` without an objection succeeds. -/
theorem commit_ok {transaction : Transaction ε} (hopen : engine.transaction = some transaction)
    (haborted : transaction.aborted = false) (hfails : said.fails = false) :
    engine.commit said = (⟨engine.durable ++ transaction.effects, none⟩, .ok ()) := by
  simp only [Engine.commit, hopen, hfails, haborted, Bool.or_self, Bool.false_eq_true, ↓reduceIte]

/-- A `ROLLBACK` without an objection succeeds. -/
theorem rollback_ok (hopen : engine.isOpen = true) (hfails : said.fails = false) :
    engine.rollback said = ({ engine with transaction := none }, .ok ()) := by
  obtain ⟨transaction, htransaction⟩ := Option.isSome_iff_exists.mp hopen
  simp only [Engine.rollback, htransaction, hfails, Bool.false_eq_true, ↓reduceIte]

end Calls

section Loops

variable {library : Library} {answers : ℕ → Said}

theorem isOpen_insertRow (engine : Engine Effect) (importState : ImportState) (row : Row)
    (said : Said) : (insertRow library engine importState row said).1.isOpen = engine.isOpen := by
  unfold insertRow
  split
  · rfl
  · split
    · rfl
    · next values _ =>
      have hopen := isOpen_execute engine said [⟨insertSql importState, values⟩]
      split
      · next heq => rw [← hopen, heq]
      · next heq => rw [← hopen, heq]; rfl

theorem isOpen_insertRows (rows : List Row) (engine : Engine Effect) (importState : ImportState)
    (result : ImportChunkResult) (index : ℕ) :
    (insertRows library answers engine importState result index rows).1.isOpen = engine.isOpen := by
  induction rows generalizing engine importState result index with
  | nil => rfl
  | cons row rows ih =>
    unfold insertRows
    have hrow := @isOpen_insertRow library engine importState row (answers index)
    dsimp only
    split
    · exact hrow
    · rw [ih]
      exact hrow

theorem isOpen_runImportChunk (engine : Engine Effect) (importState : ImportState) (rows : List Row)
    (prepares : Said) :
    (runImportChunk library engine importState rows prepares answers).1.isOpen = engine.isOpen := by
  unfold runImportChunk
  have hopen := isOpen_execute engine prepares []
  split
  · rfl
  · split
    · next heq => rw [← hopen, heq]
    · next heq => rw [isOpen_insertRows, ← hopen, heq]

theorem isOpen_runExecBatch (stopOnError : Bool) (statements : List String) (engine : Engine Effect)
    (index : ℕ) (errors : List BatchError) :
    (runExecBatch answers stopOnError engine index errors statements).1.isOpen = engine.isOpen := by
  induction statements generalizing engine index errors with
  | nil => rfl
  | cons sql statements ih =>
    unfold runExecBatch
    have hopen := isOpen_execute engine (answers index) [⟨sql, []⟩]
    split
    · next heq => rw [ih, ← hopen, heq]
    · next heq =>
      dsimp only
      split
      · rw [← hopen, heq]
      · rw [ih, ← hopen, heq]

/-- Errors are collected: those from before come first and stay. -/
theorem errors_runExecBatch (stopOnError : Bool) (statements : List String) (engine : Engine Effect)
    (index : ℕ) (errors : List BatchError) :
    errors <+: (runExecBatch answers stopOnError engine index errors statements).2.2 := by
  induction statements generalizing engine index errors with
  | nil => exact List.prefix_rfl
  | cons sql statements ih =>
    unfold runExecBatch
    split
    · exact ih _ _ _
    · dsimp only
      split
      · exact List.prefix_append _ _
      · exact (List.prefix_append _ _).trans (ih _ _ _)

/-- A batch without errors does not abort its transaction. -/
theorem unaborted_runExecBatch (stopOnError : Bool) (statements : List String)
    (engine : Engine Effect) (index : ℕ) (hengine : engine.Unaborted)
    (herrors : (runExecBatch answers stopOnError engine index [] statements).2.2 = []) :
    (runExecBatch answers stopOnError engine index [] statements).1.Unaborted := by
  induction statements generalizing engine index with
  | nil => exact hengine
  | cons sql statements ih =>
    unfold runExecBatch at herrors ⊢
    have hunaborted := @unaborted_execute _ engine (answers index) [⟨sql, []⟩]
    split at herrors
    · next heq =>
      rw [heq] at hunaborted
      exact ih _ _ (hunaborted rfl) herrors
    · next message heq =>
      -- an error of this statement stays in the list of errors, which is empty at the end
      have hnone : [BatchError.mk index (classifyDuckdbSqlError message) message] = [] := by
        dsimp only at herrors
        split at herrors
        · exact herrors
        · have hbefore := @errors_runExecBatch answers stopOnError statements ‹_› (index + 1)
            [⟨index, classifyDuckdbSqlError message, message⟩]
          rw [List.nil_append] at herrors
          rw [herrors] at hbefore
          exact List.prefix_nil.mp hbefore
      exact absurd hnone (List.cons_ne_nil _ _)

end Loops

/-! ### The books -/

/-- What the tables say about the open transaction. -/
structure Books (state : ConnectionState) : Prop where
  one : ∀ a b, state.Live a → state.Live b → a = b
  /-- There is a transaction as long as an id is live. -/
  opened : state.engine.isOpen = true ↔ ∃ owner, state.Live owner
  active : ∀ txId, state.activeTx = some txId ↔ txId ∈ state.txs

theorem Books.withConn : Books ConnectionState.withConn where
  one := by
    rintro (id | id) b hlive
    · exact absurd hlive (Finset.notMem_empty id)
    · exact absurd hlive (Finmap.notMem_empty)
  opened := by
    refine iff_of_false Bool.false_ne_true ?_
    rintro ⟨id | id, hlive⟩
    · exact absurd hlive (Finset.notMem_empty id)
    · exact absurd hlive (Finmap.notMem_empty)
  active := fun txId => iff_of_false (Option.some_ne_none txId).symm (Finset.notMem_empty txId)

section Books

variable {state : ConnectionState}

/-- The books are about the tables, and about the engine only so far as a transaction is open. -/
theorem Books.frame (h : Books state) {engine : Engine Effect}
    (hopen : engine.isOpen = state.engine.isOpen) : Books { state with engine := engine } where
  one := h.one
  opened := hopen ▸ h.opened
  active := h.active

/-- Without a transaction no id is live. -/
theorem Books.idle (h : Books state) (hidle : state.engine.isOpen = false) (owner : Owner) :
    ¬ state.Live owner := by
  intro hlive
  have hopen := h.opened.mpr ⟨owner, hlive⟩
  rw [hidle] at hopen
  exact Bool.false_ne_true hopen

/-- The books when one id is live. -/
theorem Books.solo {owner : Owner} (hlive : ∀ other, state.Live other ↔ other = owner)
    (hopen : state.engine.isOpen = true)
    (hactive : ∀ txId, state.activeTx = some txId ↔ owner = .tx txId) : Books state where
  one := fun a b ha hb => ((hlive a).mp ha).trans ((hlive b).mp hb).symm
  opened := iff_of_true hopen ⟨owner, (hlive owner).mpr rfl⟩
  active := fun txId => (hactive txId).trans (eq_comm.trans (hlive (.tx txId)).symm)

/-- The books when no id is live. -/
theorem Books.nobody (hlive : ∀ owner, ¬ state.Live owner) (hidle : state.engine.isOpen = false)
    (hactive : state.activeTx = none) : Books state where
  one := fun a _ ha => absurd ha (hlive a)
  opened := by
    refine iff_of_false (by rw [hidle]; exact Bool.false_ne_true) ?_
    rintro ⟨owner, howner⟩
    exact hlive owner howner
  active := fun txId =>
    iff_of_false (by rw [hactive]; exact (Option.some_ne_none txId).symm) (hlive (.tx txId))

/-- The books after a transaction has begun. -/
theorem Books.beginTx (h : Books state) (hidle : state.engine.isOpen = false) (txId : String)
    (nextTxId : UInt64) {engine : Engine Effect} (hopen : engine.isOpen = true) :
    Books { state with
      engine := engine
      nextTxId := nextTxId
      txs := insert txId state.txs
      activeTx := some txId } := by
  have hnone := h.idle hidle
  refine @Books.solo _ (.tx txId) ?_ hopen ?_
  · rintro (id | id)
    · change id ∈ insert txId state.txs ↔ _
      rw [Finset.mem_insert, Owner.tx.injEq]
      exact or_iff_left (hnone (.tx id))
    · exact iff_of_false (hnone (.importer id)) (by simp)
  · intro id
    rw [Option.some.injEq, Owner.tx.injEq]

/-- The books after a transaction has ended. -/
theorem Books.closeTx (h : Books state) {txId : String} (hlive : txId ∈ state.txs)
    {engine : Engine Effect} (hidle : engine.isOpen = false) :
    Books (ConnectionState.closeTx { state with engine := engine } txId) := by
  have hclose : ConnectionState.closeTx { state with engine := engine } txId
      = { state with engine := engine, txs := state.txs.erase txId, activeTx := none } := by
    unfold ConnectionState.closeTx
    rw [if_pos hlive]
    congr 1
    exact if_pos ((h.active txId).mpr hlive)
  rw [hclose]
  refine Books.nobody ?_ hidle rfl
  rintro (id | id) hid
  · obtain ⟨hne, hmem⟩ := Finset.mem_erase.mp hid
    exact hne (Owner.tx.inj (h.one (.tx id) (.tx txId) hmem hlive))
  · exact Owner.noConfusion (h.one (.importer id) (.tx txId) hid hlive)

/-- The books after an import has been opened. -/
theorem Books.openImport (h : Books state) (hidle : state.engine.isOpen = false)
    (importState : ImportState) {engine : Engine Effect} (hopen : engine.isOpen = true) :
    Books (ConnectionState.openImport { state with engine := engine } importState).1 := by
  have hnone := h.idle hidle
  refine @Books.solo _ (.importer ("i-" ++ toString state.nextImportId.toNat)) ?_ hopen ?_
  · rintro (id | id)
    · exact iff_of_false (hnone (.tx id)) (by simp)
    · change id ∈ state.imports.insert _ importState ↔ _
      rw [Finmap.mem_insert, Owner.importer.injEq]
      exact or_iff_left (hnone (.importer id))
  · intro id
    refine iff_of_false ?_ (by simp)
    exact fun hactive => hnone (.tx id) ((h.active id).mp hactive)

/-- The books after an import has been ended. -/
theorem Books.removeImport (h : Books state) {importId : String} (hlive : importId ∈ state.imports)
    {engine : Engine Effect} (hidle : engine.isOpen = false) :
    Books { state.removeImport importId with engine := engine } := by
  have hone : ∀ owner, state.Live owner → owner = .importer importId :=
    fun owner howner => h.one owner _ howner hlive
  refine Books.nobody ?_ hidle ?_
  · rintro (id | id) hid
    · exact Owner.noConfusion (hone (.tx id) hid)
    · obtain ⟨hne, hmem⟩ := Finmap.mem_erase.mp hid
      exact hne (Owner.importer.inj (hone (.importer id) hmem))
  · cases hactive : state.activeTx with
    | none => exact hactive
    | some txId => exact Owner.noConfusion (hone (.tx txId) ((h.active txId).mp hactive))

/-- The books while an import goes on. -/
theorem Books.insertImport (h : Books state) {importId : String} (hlive : importId ∈ state.imports)
    (importState : ImportState) {engine : Engine Effect} (hopen : engine.isOpen = state.engine.isOpen) :
    Books (ConnectionState.insertImport { state.removeImport importId with engine := engine }
      importId importState) := by
  -- the import is put back under its own id, so that the owners are the ones from before
  have hkeys : ∀ owner, (ConnectionState.insertImport
      { state.removeImport importId with engine := engine } importId importState).Live owner
        ↔ state.Live owner := by
    rintro (id | id)
    · exact Iff.rfl
    · change id ∈ (state.imports.erase importId).insert importId importState ↔ id ∈ state.imports
      rw [Finmap.mem_insert, Finmap.mem_erase]
      by_cases hid : id = importId
      · exact iff_of_true (Or.inl hid) (hid ▸ hlive)
      · exact ⟨fun hor => (hor.resolve_left hid).2, fun hmem => Or.inr ⟨hid, hmem⟩⟩
  exact {
    one := fun a b ha hb => h.one a b ((hkeys a).mp ha) ((hkeys b).mp hb)
    opened := by
      change engine.isOpen = true ↔ _
      rw [hopen, h.opened]
      exact exists_congr fun owner => (hkeys owner).symm
    active := h.active }

/-! ### The handlers keep the books -/

theorem books_handleTxBegin (h : Books state) (params : TxBeginParams) (answers : Answers) :
    Books (handleTxBegin state params answers).1 := by
  unfold handleTxBegin
  split
  · exact h
  · by_cases hactive : state.hasActiveTx = true
    · rw [if_pos hactive]
      exact h
    · rw [if_neg hactive]
      obtain ⟨message, hbegin⟩ | ⟨hidle, -, hbegin⟩ := begin_cases state.engine answers.begins
      · rw [hbegin]
        exact h
      · have hnew : ConnectionState.hasActiveTx
            { state with engine := { state.engine with transaction := some ⟨[], false⟩ } } ≠ true :=
          hactive
        rw [hbegin]
        simp only [ConnectionState.beginTx, hnew]
        exact h.beginTx hidle _ _ rfl

theorem books_handleTxCommit (h : Books state) (txId : String) (answers : Answers) :
    Books (handleTxCommit state txId answers).1 := by
  unfold handleTxCommit
  by_cases hlive : txId ∈ state.txs
  · rw [if_neg (not_not_intro hlive)]
    obtain ⟨message, hcommit⟩ | ⟨transaction, -, -, hcommit⟩ := commit_cases state.engine answers.ends
    · rw [hcommit]
      exact h
    · rw [hcommit]
      exact h.closeTx hlive rfl
  · rw [if_pos hlive]
    exact h

theorem books_handleTxRollback (h : Books state) (txId : String) (toSavepoint : Option String)
    (answers : Answers) : Books (handleTxRollback state txId toSavepoint answers).1 := by
  unfold handleTxRollback
  by_cases hlive : txId ∈ state.txs
  · rw [if_neg (not_not_intro hlive)]
    split
    · exact h
    · obtain ⟨message, hrollback⟩ | ⟨-, hrollback⟩ := rollback_cases state.engine answers.ends
      · rw [hrollback]
        exact h
      · rw [hrollback]
        exact h.closeTx hlive rfl
  · rw [if_pos hlive]
    exact h

theorem books_handleExecRun (h : Books state) (library : Library) (txId : Option String) (sql : String)
    (params : List CellValue) (answers : Answers) :
    Books (handleExecRun library state txId sql params answers).1 := by
  unfold handleExecRun
  split
  · exact h
  · split
    · exact h
    · next values _ =>
      have hopen := isOpen_execute state.engine (answers.statements 0) [⟨sql, values⟩]
      split
      · next heq => exact h.frame (by rw [← hopen, heq])
      · next heq => exact h.frame (by rw [← hopen, heq])

/-- A batch in a transaction leaves none behind, if the engine accepts its end. -/
theorem isOpen_endBatch {engine : Engine Effect} {errors : List BatchError} {said : Said}
    (hopen : engine.isOpen = true) (hunaborted : errors = [] → engine.Unaborted)
    (hfails : said.fails = false) :
    ∃ engine', endBatch engine errors said = (engine', .ok ()) ∧ engine'.isOpen = false := by
  unfold endBatch
  cases errors with
  | nil =>
    obtain ⟨transaction, htransaction⟩ := Option.isSome_iff_exists.mp hopen
    exact ⟨_, commit_ok htransaction (hunaborted rfl transaction htransaction) hfails, rfl⟩
  | cons error errors => exact ⟨_, rollback_ok hopen hfails, rfl⟩

theorem books_handleExecBatch (h : Books state) (statements : List String)
    (inTransaction stopOnError : Bool) (answers : Answers)
    (haccepted : Accepted state (.execBatch statements inTransaction stopOnError, answers)) :
    Books (handleExecBatch state statements inTransaction stopOnError answers).1 := by
  unfold handleExecBatch
  cases inTransaction with
  | false =>
    simp only [Bool.false_eq_true, ↓reduceIte]
    exact h.frame (isOpen_runExecBatch _ _ _ _ _)
  | true =>
    simp only [↓reduceIte]
    -- a BEGIN that is refused leaves the connection as it was; one that is accepted starts from an idle
    -- engine
    obtain ⟨message, hbegin⟩ | ⟨hidle, haccepts, hbegin⟩ := begin_cases state.engine answers.begins
    · rw [hbegin]
      exact h
    · rw [hbegin]
      dsimp only
      -- what BEGIN has opened is not aborted
      have hfresh : Engine.Unaborted { state.engine with transaction := some ⟨[], false⟩ } := by
        rintro _ ⟨⟩
        rfl
      have hopen := @isOpen_runExecBatch answers.statements stopOnError statements
        { state.engine with transaction := some ⟨[], false⟩ } 0 []
      obtain ⟨engine, hend, hclosed⟩ := isOpen_endBatch hopen
        (unaborted_runExecBatch stopOnError statements _ 0 hfresh) (haccepted hidle haccepts)
      rw [hend]
      exact h.frame (hclosed.trans hidle.symm)

theorem books_handleDataImportBegin (h : Books state) (params : ImportBeginParams)
    (answers : Answers) : Books (handleDataImportBegin state params answers).1 := by
  unfold handleDataImportBegin
  split
  · exact h
  · have hopen := isOpen_execute state.engine answers.query []
    split
    · next heq => exact h.frame (by rw [← hopen, heq])
    · next engine heq =>
      have hengine : engine.isOpen = state.engine.isOpen := by rw [← hopen, heq]
      split
      · exact h.frame hengine
      · obtain ⟨message, hbegin⟩ | ⟨hidle, -, hbegin⟩ := begin_cases engine answers.begins
        · rw [hbegin]
          exact h.frame hengine
        · rw [hbegin]
          exact h.openImport (hengine.symm.trans hidle) _ rfl

theorem books_handleDataImportChunk (h : Books state) (library : Library) (importId : String)
    (rows : List Row) (answers : Answers) :
    Books (handleDataImportChunk library state importId rows answers).1 := by
  unfold handleDataImportChunk
  split
  · exact h
  · next importState hlookup =>
    exact h.insertImport (Finmap.mem_of_lookup_eq_some hlookup) _ (isOpen_runImportChunk _ _ _ _)

theorem books_handleDataImportCommit (h : Books state) (importId : String) (answers : Answers)
    (haccepted : Accepted state (.importCommit importId, answers)) :
    Books (handleDataImportCommit state importId answers).1 := by
  unfold handleDataImportCommit
  split
  · exact h
  · next importState hlookup =>
    have hlive : importId ∈ state.imports := Finmap.mem_of_lookup_eq_some hlookup
    obtain ⟨hfails, hunaborted⟩ := haccepted hlive
    obtain ⟨transaction, htransaction⟩ :=
      Option.isSome_iff_exists.mp (h.opened.mpr ⟨.importer importId, hlive⟩)
    have hcommit := commit_ok htransaction (hunaborted transaction htransaction) hfails
    dsimp only [ConnectionState.removeImport]
    rw [hcommit]
    exact h.removeImport hlive rfl

theorem books_handleDataImportAbort (h : Books state) (importId : String) (answers : Answers)
    (haccepted : Accepted state (.importAbort importId, answers)) :
    Books (handleDataImportAbort state importId answers).1 := by
  unfold handleDataImportAbort
  split
  · exact h
  · next importState hlookup =>
    have hlive : importId ∈ state.imports := Finmap.mem_of_lookup_eq_some hlookup
    have hrollback := rollback_ok (h.opened.mpr ⟨.importer importId, hlive⟩) (haccepted hlive)
    dsimp only [ConnectionState.removeImport]
    rw [hrollback]
    exact h.removeImport hlive rfl

/-- **Every request keeps the books**, if the engine accepts the end of what is forgotten with it. -/
theorem Books.handle (h : Books state) (library : Library) (request : Request) (answers : Answers)
    (haccepted : Accepted state (request, answers)) :
    Books (handle library state request answers).1 := by
  cases request with
  | txBegin params => exact books_handleTxBegin h params answers
  | txCommit txId => exact books_handleTxCommit h txId answers
  | txRollback txId toSavepoint => exact books_handleTxRollback h txId toSavepoint answers
  | execRun txId sql params => exact books_handleExecRun h library txId sql params answers
  | execBatch statements inTransaction stopOnError =>
    exact books_handleExecBatch h statements inTransaction stopOnError answers haccepted
  | importBegin params => exact books_handleDataImportBegin h params answers
  | importChunk importId rows => exact books_handleDataImportChunk h library importId rows answers
  | importCommit importId => exact books_handleDataImportCommit h importId answers haccepted
  | importAbort importId => exact books_handleDataImportAbort h importId answers haccepted

/-- By the books an open transaction is owned. -/
theorem Books.owned (h : Books state) (library : Library) : Owned library state where
  one := h.one
  owner := h.opened.mp
  ends := by
    rintro owner hlive
    -- the engine takes a ROLLBACK as long as a transaction is open
    have hrollback := @rollback_ok _ state.engine Said.yes (h.opened.mpr ⟨owner, hlive⟩) rfl
    refine ⟨⟨.yes, .yes, .yes, [], fun _ => .yes⟩, ?_⟩
    cases owner with
    | tx id =>
      have hmem : id ∈ state.txs := hlive
      change (handleTxRollback state id none _).1.engine.isOpen = false
      unfold handleTxRollback
      rw [if_neg (not_not_intro hmem), hrollback]
      change (ConnectionState.closeTx _ _).engine.isOpen = false
      unfold ConnectionState.closeTx
      rw [if_pos hmem]
      rfl
    | importer id =>
      obtain ⟨importState, hlookup⟩ := Finmap.mem_iff.mp hlive
      change (handleDataImportAbort state id _).1.engine.isOpen = false
      unfold handleDataImportAbort
      rw [hlookup]
      dsimp only [ConnectionState.removeImport]
      rw [hrollback]
      rfl

end Books

/-- **The driver and the engine agree about transactions**, in runs in which the engine accepts the end
of every import and of every batch. -/
theorem transactions_owned (library : Library) {inputs : List (Request × Answers)}
    (h : Guarded (step library) Accepted ConnectionState.withConn inputs) :
    Owned library (run (step library) ConnectionState.withConn inputs).1 :=
  (@run_guarded _ _ _ (step library) (fun _ _ state => Books state) Accepted
    (fun _ _ _ input hbooks haccepted => hbooks.handle library input.1 input.2 haccepted)
    _ Books.withConn _ h).owned library

/-! ### Examples -/

section Examples

/-- A library for the examples, in which nothing is printed. -/
def plainLibrary : Library := ⟨⟨fun _ => "", fun _ => .null⟩, fun _ => .ok []⟩

/-- An import into a table `t`. -/
def importIntoT (abortOnFailures : Option UInt32) : Request :=
  .importBegin ⟨"t", none, none, .csv, [], ⟨false, [], false, false, abortOnFailures⟩⟩

/-- The answers of an engine without objections, for a table with one column. -/
def Answers.yes : Answers := ⟨.yes, .yes, .yes, ["a"], fun _ => .yes⟩

/-- The same, but the rows violate a constraint, and the transaction is aborted. -/
def Answers.abort : Answers := ⟨.yes, .yes, .yes, ["a"], fun _ => ⟨true, true, "constraint"⟩⟩

/-- An import of one row. -/
theorem transactions_owned_import :
    Owned plainLibrary (run (step plainLibrary) ConnectionState.withConn
      [(importIntoT none, .yes), (.importChunk "i-1" [[.i64 1]], .yes),
        (.importCommit "i-1", .yes)]).1 := by
  refine transactions_owned plainLibrary (Guarded.cons trivial (Guarded.cons trivial
    (Guarded.cons (fun _ => ⟨rfl, ?_⟩) guarded_nil)))
  have haborted : (step plainLibrary (step plainLibrary ConnectionState.withConn
      (importIntoT none, .yes)).1 (.importChunk "i-1" [[.i64 1]], .yes)).1.engine.transaction.all
        (fun transaction => !transaction.aborted) = true := by
    decide +kernel
  intro transaction htransaction
  rw [htransaction] at haborted
  exact Bool.not_eq_true' _ ▸ haborted

/-- An import whose row aborts the transaction, and that is committed then: the transaction stays open,
and no id is left that could end it. -/
theorem import_orphans_transaction :
    let inputs := [(importIntoT none, Answers.yes), (.importChunk "i-1" [[.i64 1]], .abort),
      (.importCommit "i-1", .yes)]
    ¬ Owned plainLibrary (run (step plainLibrary) ConnectionState.withConn inputs).1 := by
  intro inputs howned
  have hopen : (run (step plainLibrary) ConnectionState.withConn inputs).1.engine.isOpen = true := by
    decide +kernel
  have htxs : (run (step plainLibrary) ConnectionState.withConn inputs).1.txs = ∅ := rfl
  have himports : (run (step plainLibrary) ConnectionState.withConn inputs).1.imports = ∅ := by
    decide +kernel
  obtain ⟨id | id, hlive⟩ := howned.owner hopen
  · change id ∈ ConnectionState.txs _ at hlive
    rw [htxs] at hlive
    exact Finset.notMem_empty id hlive
  · change id ∈ ConnectionState.imports _ at hlive
    rw [himports] at hlive
    exact Finmap.notMem_empty hlive

end Examples

end Duckdb
end Navop
