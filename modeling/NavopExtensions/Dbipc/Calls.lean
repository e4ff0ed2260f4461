import NavopExtensions.Dbipc.Sessions

/-!
# Calls to the database

A call names the connection, the transaction or the cursor that it is made on. The handlers look these up
first, and a transaction is taken only if it is one of the connection that the request names; the loops that
close everything of a connection go through the tables. So no call is made on anything that is not open, in
any run (`calls_allowed`).
-/

namespace Navop
namespace DbipcServer

open History Machine

variable {ρ : Type*}

/-- What a call to the database needs. A connection is opened, pinged and, if need be, closed before it is
given out. -/
def Call.Allowed (has : Issue → Option ℕ → Prop) : Call → Prop
  | .open => True
  | .ping connID => ∀ id, connID = some id → has (.conn id) none
  | .query connID txID _ => has (.conn connID) none ∧ ∀ id, txID = some id → has (.tx id) (some connID)
  | .exec connID txID _ => has (.conn connID) none ∧ ∀ id, txID = some id → has (.tx id) (some connID)
  | .insert connID _ => has (.conn connID) none
  | .statement connID _ _ => has (.conn connID) none
  | .begin connID => has (.conn connID) none
  | .commit txID => ∃ connID, has (.tx txID) (some connID)
  | .rollback txID => ∃ connID, has (.tx txID) (some connID)
  | .savepoint txID _ => ∃ connID, has (.tx txID) (some connID)
  | .commitBatch connID => has (.conn connID) none
  | .rollbackBatch connID => has (.conn connID) none
  | .export connID => has (.conn connID) none
  | .readRows cursorID => ∃ connID, has (.cursor cursorID) (some connID)
  | .closeRows cursorID => ∃ connID, has (.cursor cursorID) (some connID)
  | .closeDB connID => ∀ id, connID = some id → has (.conn id) none

section Calls

variable {spec : String} {marshals : ρ → Bool} {quote : String → String} {isPrint : Char → Bool}
  {answers : Answers ρ} {s : State ρ}

theorem has_tx {txID : String} {tx : Tx} (h : s.txs.lookup txID = some tx) :
    Has s (.tx txID) (some tx.connID) := by
  change (s.txs.lookup txID).map Tx.connID = some tx.connID
  rw [h, Option.map_some]

theorem has_cursor {cursorID : String} {cursor : Cursor ρ} (h : s.cursors.lookup cursorID = some cursor) :
    Has s (.cursor cursorID) (some cursor.connID) := by
  change (s.cursors.lookup cursorID).map Cursor.connID = some cursor.connID
  rw [h, Option.map_some]

theorem mem_calls_closeCursor {cursorID : String} {cursor : Cursor ρ} {call : Call}
    (h : call ∈ closeCursorCalls cursorID cursor) : call = .closeRows cursorID := by
  unfold closeCursorCalls at h
  split at h
  · exact List.mem_singleton.1 h
  · exact absurd h List.not_mem_nil

/-- The calls of a loop over a map are about what is in the map. -/
theorem exists_of_mem_visitCalls {α : Type*} {visits : Visits String}
    {table : Finmap fun _ : String => α} {calls : String → α → List Call} {call : Call}
    (h : call ∈ visitCalls visits table calls) :
    ∃ key value, table.lookup key = some value ∧ call ∈ calls key value := by
  obtain ⟨key, -, hcall⟩ := List.mem_flatMap.1 h
  cases hlookup : table.lookup key with
  | none =>
    rw [hlookup] at hcall
    exact absurd hcall List.not_mem_nil
  | some value =>
    rw [hlookup] at hcall
    exact ⟨key, value, hlookup, hcall⟩

/-- The closing of a connection closes its cursors and rolls its transactions back first. -/
theorem allowed_connClose (connID : ℕ) :
    ∀ call ∈ (handleConnClose answers s connID).calls, call.Allowed (Has s) := by
  unfold handleConnClose
  split
  · next hconn =>
    intro call hcall
    rcases List.mem_append.1 hcall with hcall | hcall
    · rcases List.mem_append.1 hcall with hcall | hcall
      -- the rows of cursors are closed that are in the table
      · obtain ⟨id, cursor, hlookup, hcall⟩ := exists_of_mem_visitCalls hcall
        split at hcall
        · rw [mem_calls_closeCursor hcall]
          exact ⟨_, has_cursor hlookup⟩
        · exact absurd hcall List.not_mem_nil
      -- transactions are rolled back that are in the table
      · obtain ⟨id, tx, hlookup, hcall⟩ := exists_of_mem_visitCalls hcall
        split at hcall
        · rw [List.mem_singleton.1 hcall]
          exact ⟨_, has_tx hlookup⟩
        · exact absurd hcall List.not_mem_nil
    -- last the connection itself is closed
    · rw [List.mem_singleton.1 hcall]
      rintro id ⟨rfl⟩
      exact hconn
  · simp [unknownConn, refuse]

/-- So does a shutdown, for everything in the tables. -/
theorem allowed_closeAll : ∀ call ∈ closeAllCalls answers s, call.Allowed (Has s) := by
  intro call hcall
  rcases List.mem_append.1 hcall with hcall | hcall
  · rcases List.mem_append.1 hcall with hcall | hcall
    · obtain ⟨id, cursor, hlookup, hcall⟩ := exists_of_mem_visitCalls hcall
      rw [mem_calls_closeCursor hcall]
      exact ⟨_, has_cursor hlookup⟩
    · obtain ⟨id, tx, hlookup, hcall⟩ := exists_of_mem_visitCalls hcall
      rw [List.mem_singleton.1 hcall]
      exact ⟨_, has_tx hlookup⟩
  · obtain ⟨connID, hconn, rfl⟩ := List.mem_map.1 hcall
    rintro id ⟨rfl⟩
    exact (answers.visitConns.mem_list).1 hconn

theorem mem_calls_runStatements {connID : ℕ} {stopOnError inTransaction : Bool} {call : Call}
    {index : ℕ} {statements : List String}
    (h : call ∈ (runStatements answers connID stopOnError inTransaction index statements).1) :
    ∃ index, call = .statement connID inTransaction index := by
  induction statements generalizing index with
  | nil => exact absurd h List.not_mem_nil
  | cons statement statements ih =>
    rw [runStatements] at h
    split at h
    · rcases List.mem_cons.1 h with rfl | h
      · exact ⟨index, rfl⟩
      · exact ih h
    · split at h
      · exact ⟨index, List.mem_singleton.1 h⟩
      · rcases List.mem_cons.1 h with rfl | h
        · exact ⟨index, rfl⟩
        · exact ih h

theorem calls_insertRows (connID index : ℕ) (row : Option String) (rows : List (Option String)) :
    (insertRows answers connID index (row :: rows)).1 = if row.isNone then Call.insert connID index
      :: (insertRows answers connID (index + 1) rows).1
      else (insertRows answers connID (index + 1) rows).1 := by
  rw [insertRows]
  by_cases hinserted : rowInserted answers connID index row = true
  · simp only [if_pos hinserted]
  · simp only [if_neg hinserted]

theorem mem_calls_insertRows {connID : ℕ} {call : Call} {index : ℕ} {rows : List (Option String)}
    (h : call ∈ (insertRows answers connID index rows).1) : ∃ index, call = .insert connID index := by
  induction rows generalizing index with
  | nil => exact absurd h List.not_mem_nil
  | cons row rows ih =>
    rw [calls_insertRows] at h
    split at h
    · rcases List.mem_cons.1 h with rfl | h
      · exact ⟨index, rfl⟩
      · exact ih h
    · exact ih h

/-- The transaction that a statement gets is one of its connection. -/
theorem executorFor_ok {txID : String} {connID : ℕ} {named : Option String} {ended : Bool}
    (h : executorFor s txID connID = .ok (named, ended)) :
    (named = none ∧ txID = "") ∨
      ∃ tx, s.txs.lookup txID = some tx ∧ tx.connID = connID ∧ named = some txID ∧ ended = tx.ended := by
  unfold executorFor txForRequest at h
  split at h
  · next hempty =>
    cases h
    exact .inl ⟨rfl, hempty⟩
  · cases hlookup : s.txs.lookup txID with
    | none =>
      rw [hlookup] at h
      cases h
    | some tx =>
      rw [hlookup] at h
      -- a transaction of another connection is refused
      by_cases hconn : tx.connID ≠ connID
      · simp only [if_pos hconn] at h
        cases h
      · simp only [if_neg hconn] at h
        cases h
        exact .inr ⟨tx, rfl, not_not.1 hconn, rfl, rfl⟩

theorem has_of_executorFor {txID : String} {connID : ℕ} {named : Option String} {ended : Bool}
    (h : executorFor s txID connID = .ok (named, ended)) :
    ∀ id, named = some id → Has s (.tx id) (some connID) := by
  rintro id rfl
  rcases executorFor_ok h with ⟨h, -⟩ | ⟨tx, hlookup, rfl, hnamed, -⟩
  · cases h
  · cases hnamed
    exact has_tx hlookup

theorem allowed_queryStart (connID : ℕ) (sql : String) (params : Option String) (maxRows : Option ℕ)
    (txID : String) : ∀ call ∈ (handleQueryStart spec answers s connID sql params maxRows txID).calls,
      call.Allowed (Has s) := by
  unfold handleQueryStart
  split
  · next hconn =>
    cases params with
    | some message => simp [refuse]
    | none =>
      cases hexecutor : executorFor s txID connID with
      | error refusal =>
        obtain ⟨code, message, rfl⟩ := executorFor_error hexecutor
        simp [refuse]
      | ok executor =>
        obtain ⟨named, ended⟩ := executor
        have hcall : (Call.query connID named sql).Allowed (Has s) :=
          ⟨hconn, has_of_executorFor hexecutor⟩
        dsimp only
        split <;> simpa using hcall
  · simp [unknownConn, refuse]

theorem allowed_execRun (connID : ℕ) (sql : String) (params : Option String) (txID : String) :
    ∀ call ∈ (handleExecRun answers s connID sql params txID).calls, call.Allowed (Has s) := by
  unfold handleExecRun
  split
  · next hconn =>
    cases params with
    | some message => simp [refuse]
    | none =>
      cases hexecutor : executorFor s txID connID with
      | error refusal =>
        obtain ⟨code, message, rfl⟩ := executorFor_error hexecutor
        simp [refuse]
      | ok executor =>
        obtain ⟨named, ended⟩ := executor
        have hcall : (Call.exec connID named sql).Allowed (Has s) :=
          ⟨hconn, has_of_executorFor hexecutor⟩
        dsimp only
        split <;> simpa using hcall
  · simp [unknownConn, refuse]

theorem allowed_cursorFetch (cursorID : String) (n : Option ℕ) :
    ∀ call ∈ (handleCursorFetch marshals answers s cursorID n).calls, call.Allowed (Has s) := by
  unfold handleCursorFetch
  cases hlookup : s.cursors.lookup cursorID with
  | none => simp [unknownCursor, refuse]
  | some cursor =>
    have hread : (Call.readRows cursorID).Allowed (Has s) := ⟨_, has_cursor hlookup⟩
    have hclose : (Call.closeRows cursorID).Allowed (Has s) := ⟨_, has_cursor hlookup⟩
    obtain ⟨connID, rows, maxRows, fetched, done⟩ := cursor
    cases done with
    -- a cursor that is done, or that has no rows, is read no more
    | true => simp
    | false =>
      cases rows with
      | none => simp
      | some result =>
        dsimp only
        cases (fetchRows result.failure maxRows (requestedRows n) result.rows fetched []).2 with
        | error error => simpa using hread
        | ok read =>
          dsimp only
          -- a cursor that is read to its end is closed at once
          split
          · split <;> simpa using ⟨hread, hclose⟩
          · simpa using hread

theorem allowed_execBatch (connID : ℕ) (statements : List String) (stopOnError inTransaction : Bool) :
    ∀ call ∈ (handleExecBatch answers s connID statements stopOnError inTransaction).calls,
      call.Allowed (Has s) := by
  unfold handleExecBatch
  split
  · next hconn =>
    split
    · split
      · have hcall : (Call.begin connID).Allowed (Has s) := hconn
        simpa using hcall
      · intro call hcall
        rcases List.mem_cons.1 hcall with rfl | hcall
        · exact hconn
        rcases List.mem_append.1 hcall with hcall | hcall
        · obtain ⟨index, rfl⟩ := mem_calls_runStatements hcall
          exact hconn
        · rw [List.mem_singleton.1 hcall]
          split <;> exact hconn
    · intro call hcall
      obtain ⟨index, rfl⟩ := mem_calls_runStatements hcall
      exact hconn
  · simp [unknownConn, refuse]

theorem allowed_savepoint (statement txID name : String) :
    ∀ call ∈ (handleSavepoint quote answers s statement txID name).calls, call.Allowed (Has s) := by
  unfold handleSavepoint
  cases hlookup : s.txs.lookup txID with
  | none => simp [unknownTx, refuse]
  | some tx =>
    dsimp only
    split
    · simp [refuse]
    · have hcall : (Call.savepoint txID (statement ++ quote name)).Allowed (Has s) :=
        ⟨_, has_tx hlookup⟩
      simpa [runSavepoint] using hcall

/-- **Calls are allowed**: what they use is there. -/
theorem allowed_handle (request : Request) :
    ∀ call ∈ (handle spec marshals quote isPrint answers s request).calls, call.Allowed (Has s) := by
  unfold handle
  split
  · simp [refuse]
  next hserved =>
    clear hserved
    -- one case for each request; what a call names was looked up before
    cases request <;> dsimp only
    case init refusal => cases refusal <;> simp [refuse]
    case ping => simp
    case shutdown => exact allowed_closeAll
    case connTest config =>
      unfold handleConnTest
      cases config with
      | some message => simp [refuse]
      | none =>
        dsimp only
        split <;> simp [Call.Allowed]
    case connOpen config =>
      unfold handleConnOpen
      cases config with
      | some message => simp [refuse]
      | none =>
        dsimp only
        split
        · simp [Call.Allowed]
        · split <;> simp [Call.Allowed]
    case connClose connID => exact allowed_connClose connID
    case connPing connID =>
      unfold handleConnPing
      split
      · next hconn =>
        have hcall : (Call.ping (some connID)).Allowed (Has s) := by
          rintro id ⟨rfl⟩
          exact hconn
        simpa using hcall
      · simp [unknownConn, refuse]
    case connUse connID =>
      unfold handleConnUse
      split <;> simp [unknownConn, refuse]
    case queryStart connID sql params maxRows txID => exact allowed_queryStart connID sql params maxRows txID
    case cursorFetch cursorID n => exact allowed_cursorFetch cursorID n
    case cursorClose cursorID =>
      unfold handleCursorClose
      cases hlookup : s.cursors.lookup cursorID with
      | none => simp [unknownCursor, refuse]
      | some cursor =>
        have hclose : ∀ call ∈ closeCursorCalls cursorID cursor, call.Allowed (Has s) := by
          intro call hcall
          rw [mem_calls_closeCursor hcall]
          exact ⟨_, has_cursor hlookup⟩
        dsimp only
        split <;> exact hclose
    case cursorCancel cursorID =>
      unfold handleCursorCancel
      cases hlookup : s.cursors.lookup cursorID with
      | none => simp [unknownCursor, refuse]
      | some cursor =>
        intro call hcall
        rw [mem_calls_closeCursor hcall]
        exact ⟨_, has_cursor hlookup⟩
    case execRun connID sql params txID => exact allowed_execRun connID sql params txID
    case execBatch connID statements stopOnError inTransaction =>
      exact allowed_execBatch connID statements stopOnError inTransaction
    case txBegin connID =>
      unfold handleTxBegin
      split
      · next hconn =>
        have hcall : (Call.begin connID).Allowed (Has s) := hconn
        split <;> simpa using hcall
      · simp [unknownConn, refuse]
    case txCommit txID =>
      unfold handleTxCommit
      cases hlookup : s.txs.lookup txID with
      | none => simp [unknownTx, refuse]
      | some tx =>
        have hcall : (Call.commit txID).Allowed (Has s) := ⟨_, has_tx hlookup⟩
        dsimp only [endTx]
        split <;> simpa using hcall
    case txRollback txID toSavepoint =>
      unfold handleTxRollback
      cases hlookup : s.txs.lookup txID with
      | none => simp [unknownTx, refuse]
      | some tx =>
        have hcall : (Call.rollback txID).Allowed (Has s) := ⟨_, has_tx hlookup⟩
        have hsavepoint : ∀ sql, (Call.savepoint txID sql).Allowed (Has s) := fun sql =>
          ⟨_, has_tx hlookup⟩
        dsimp only [endTx]
        split
        · simpa [runSavepoint] using hsavepoint _
        · split <;> simpa using hcall
    case txSavepoint txID name => exact allowed_savepoint _ txID name
    case txRelease txID name => exact allowed_savepoint _ txID name
    case dataExport connID streamID statement =>
      unfold handleDataExport
      split
      · next hconn =>
        have hcall : (Call.export connID).Allowed (Has s) := hconn
        split
        · simp [refuse]
        · cases statement with
          | error message => simp [refuse]
          | ok sql =>
            dsimp only
            split <;> simpa using hcall
      · simp [unknownConn, refuse]
    case importBegin connID table format columns =>
      unfold handleDataImportBegin
      split
      · split <;> simp [refuse]
      · simp [unknownConn, refuse]
    case importChunk importID rows =>
      unfold handleDataImportChunk
      cases s.imports.lookup importID with
      | none => simp [unknownImport, refuse]
      | some imp =>
        dsimp only
        split
        · next hconn =>
          cases insertError imp with
          | some message => simp [refuse]
          | none =>
            intro call hcall
            obtain ⟨index, rfl⟩ := mem_calls_insertRows hcall
            exact hconn
        · simp [unknownConn, refuse]
    case importCommit importID =>
      unfold handleDataImportCommit
      cases s.imports.lookup importID <;> simp [unknownImport, refuse]
    case importAbort importID => simp
    case streamRead streamID maxBytes =>
      unfold handleStreamRead
      cases s.streams.lookup streamID <;> simp [refuse]
    case streamClose streamID => simp

end Calls

theorem Call.Allowed.congr {has has' : Issue → Option ℕ → Prop} {call : Call}
    (h : call.Allowed has) (hiff : ∀ issue owner, has issue owner ↔ has' issue owner) :
    call.Allowed has' := by
  have heq : has = has' := funext fun issue => funext fun owner => propext (hiff issue owner)
  exact heq ▸ h

/-- **Nothing is used before it is opened, or after it is closed.** In every run, a call is made only on a
connection, in a transaction of that connection, or on a cursor, that has been given out and not ended
since. -/
theorem calls_allowed (spec : String) (marshals : ρ → Bool) (quote : String → String)
    (isPrint : Char → Bool)
    (inputs : List (Answers ρ × Request)) :
    ∀ before event after, (run (step spec marshals quote isPrint) (newServer ρ) inputs).2
        = before ++ event :: after →
      ∀ call ∈ event.calls, call.Allowed (Open before) := by
  refine run_each (e := eventOf spec marshals quote isPrint) (I := Agree spec)
    (G := fun before event => ∀ call ∈ event.calls, call.Allowed (Open before)) (fun _ _ => rfl)
    (fun _ _ input h => h.step input) ?_ (agree_newServer spec) inputs
  intro log s input h call hcall
  exact (allowed_handle input.2 call hcall).congr h.has_iff

/-- A statement in the transaction. -/
theorem calls_allowed_opening :
    (Call.exec 1 (some "d-tx-1") "DELETE").Allowed (Open (served opening).2) :=
  calls_allowed "d" (fun _ => true) id (fun _ => true)
    (opening ++ [(answering [], .execRun 1 "DELETE" none "d-tx-1")]) (served opening).2
    (eventOf "d" (fun _ => true) id (fun _ => true) (served opening).1
      (answering [], .execRun 1 "DELETE" none "d-tx-1")) [] rfl _
    (List.mem_singleton.2 rfl)

end DbipcServer
end Navop
