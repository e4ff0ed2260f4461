import NavopExtensions.Dbipc.Server

/-!
# What the requests of the Go server do to its tables

A request leaves the tables as they are, or puts something into one of them, changes it or takes it away.
Which of this it does is said once, for every request (`change`), with what its reply then is; what holds
after a run is derived from that, and not from the handlers.
-/

namespace Navop
namespace DbipcServer

variable {ρ : Type*}

/-! ### Events -/

/-- A request with the answers that its calls got, and its reply. -/
structure Event (ρ : Type*) where
  answers : Answers ρ
  request : Request
  calls : List Call
  reply : Reply ρ

/-- A request is handled. -/
def step (spec : String) (marshals : ρ → Bool) (quote : String → String) (isPrint : Char → Bool)
    (s : State ρ) (input : Answers ρ × Request) : State ρ × List (Event ρ) :=
  let handled := handle spec marshals quote isPrint input.1 s input.2
  (handled.state, [⟨input.1, input.2, handled.calls, handled.reply⟩])

/-- Something that is given out under an id of its own. -/
inductive Issue
  | conn (connID : ℕ)
  | cursor (cursorID : String)
  | tx (txID : String)
  | import (importID : String)
  deriving DecidableEq

/-- What a reply gives out. -/
def Reply.issued : Reply ρ → Option Issue
  | .opened connID => some (.conn connID)
  | .started cursorID => some (.cursor cursorID)
  | .begun txID => some (.tx txID)
  | .importing importID => some (.import importID)
  | _ => none

/-- The connection that a request gives something to. -/
def Request.owner : Request → Option ℕ
  | .queryStart connID _ _ _ _ => some connID
  | .txBegin connID => some connID
  | .importBegin connID _ _ _ => some connID
  | _ => none

/-- A request has made something. -/
def Makes (request : Request) (reply : Reply ρ) (issue : Issue) (owner : Option ℕ) : Prop :=
  reply.issued = some issue ∧ request.owner = owner

/-- What a request is to end, which fails if the database fails. -/
def Request.ends : Request → Option Issue
  | .cursorClose cursorID => some (.cursor cursorID)
  | .txCommit txID => some (.tx txID)
  | .txRollback txID toSavepoint => if toSavepoint = "" then some (.tx txID) else none
  | .importCommit importID => some (.import importID)
  | .importAbort importID => some (.import importID)
  | _ => none

/-- The cursor that a request is about. -/
def Request.cursor : Request → Option String
  | .cursorFetch cursorID _ => some cursorID
  | .cursorClose cursorID => some cursorID
  | .cursorCancel cursorID => some cursorID
  | _ => none

/-- A request that may change the streams. -/
def Request.isStream : Request → Bool
  | .dataExport _ _ _ => true
  | .streamRead _ _ => true
  | .streamClose _ => true
  | _ => false

/-- What a request takes away, whatever the database says. -/
def Request.Closes : Request → Issue → Option ℕ → Prop
  | .connClose connID => fun issue owner => issue = .conn connID ∨ owner = some connID
  | .shutdown => fun _ _ => True
  | _ => fun _ _ => False

/-- Whether a reply is an error of the server's own. -/
def Reply.isRefusal : Reply ρ → Bool
  | .refused _ _ => true
  | _ => false

/-- A request has ended something. -/
def Ends (request : Request) (reply : Reply ρ) (issue : Issue) (owner : Option ℕ) : Prop :=
  (reply.isRefusal = false ∧ request.Closes issue owner)
    ∨ (reply.isError = false ∧ request.ends = some issue)

/-- The end of a transaction has been answered with an error of the database. -/
def FailedEnd (request : Request) (reply : Reply ρ) (txID : String) : Prop :=
  request.ends = some (.tx txID) ∧ reply = .failed .sqlSyntax

/-- A request has neither made nor ended anything. -/
structure Idle (request : Request) (reply : Reply ρ) : Prop where
  issued : reply.issued = none
  ends : ∀ issue owner, ¬ Ends request reply issue owner
  failedEnd : ∀ txID, ¬ FailedEnd request reply txID

/-- What a request can do. -/
inductive Change (spec : String) (answers : Answers ρ) (s : State ρ) :
    Request → State ρ → Reply ρ → Prop
  | kept {request reply} : Idle request reply → Change spec answers s request s reply
  | initialized : Change spec answers s (.init none) { s with initialized := true } .ok
  | opened : Change spec answers s (.connOpen none)
      { s with nextConnID := s.nextConnID + 1, conns := insert s.nextConnID s.conns }
      (.opened s.nextConnID)
  | closed {connID reply} : reply.issued = none → reply.isRefusal = false →
      Change spec answers s (.connClose connID)
        { s with
          conns := s.conns.erase connID
          cursors := s.cursors.retain fun _ cursor => cursor.connID ≠ connID
          txs := s.txs.retain fun _ tx => tx.connID ≠ connID
          imports := s.imports.retain fun _ imp => imp.connID ≠ connID } reply
  | shutDown {reply} : reply.issued = none → reply.isRefusal = false → Change spec answers s .shutdown
      { s with conns := ∅, cursors := ∅, txs := ∅, imports := ∅, streams := ∅ } reply
  | started {connID sql maxRows txID} : connID ∈ s.conns →
      Change spec answers s (.queryStart connID sql none maxRows txID)
        { s with
          nextCursor := s.nextCursor + 1
          cursors := s.cursors.insert (cursorIDOf spec s.nextCursor)
            ⟨connID, some answers.result, maxRows, 0, false⟩ } (.started (cursorIDOf spec s.nextCursor))
  | cursorSet {request cursorID old cursor reply} : Idle request reply →
      request.cursor = some cursorID → s.cursors.lookup cursorID = some old → cursor.connID = old.connID →
      Change spec answers s request { s with cursors := s.cursors.insert cursorID cursor } reply
  | cursorErased {cursorID} :
      Change spec answers s (.cursorClose cursorID) { s with cursors := s.cursors.erase cursorID } .ok
  | begun {connID} : connID ∈ s.conns → Change spec answers s (.txBegin connID)
      { s with
        nextTx := s.nextTx + 1
        txs := s.txs.insert (txIDOf spec s.nextTx) ⟨connID, false⟩ } (.begun (txIDOf spec s.nextTx))
  | endFailed {request txID tx} : request.ends = some (.tx txID) → s.txs.lookup txID = some tx →
      Change spec answers s request { s with txs := s.txs.insert txID { tx with ended := true } }
        (.failed .sqlSyntax)
  | ended {request txID} : request.ends = some (.tx txID) →
      Change spec answers s request { s with txs := s.txs.erase txID } .ok
  | importing {connID table format columns} : connID ∈ s.conns →
      Change spec answers s (.importBegin connID table format columns)
        { s with
          nextImport := s.nextImport + 1
          imports := s.imports.insert (importIDOf spec s.nextImport) ⟨connID, table, columns, 0, []⟩ }
        (.importing (importIDOf spec s.nextImport))
  | importSet {importID old imp rows reply} : reply.issued = none →
      s.imports.lookup importID = some old → imp.connID = old.connID →
      Change spec answers s (.importChunk importID rows)
        { s with imports := s.imports.insert importID imp } reply
  | importErased {request importID reply} : request.ends = some (.import importID) →
      reply.issued = none → reply.isError = false →
      Change spec answers s request { s with imports := s.imports.erase importID } reply
  | streams {request streams reply} : Idle request reply → request.isStream = true →
      Change spec answers s request { s with streams := streams } reply

section Changes

variable {spec : String} {marshals : ρ → Bool} {quote : String → String} {isPrint : Char → Bool}
  {answers : Answers ρ} {s : State ρ}

/-- A request that is not to end anything. -/
theorem idle_of_ends {request : Request} {reply : Reply ρ} (hreply : reply.issued = none)
    (hends : request.ends = none) (hcloses : ∀ issue owner, ¬ request.Closes issue owner) :
    Idle request reply where
  issued := hreply
  ends issue owner h := by
    rcases h with h | h
    · exact hcloses issue owner h.2
    · simp [hends] at h
  failedEnd txID h := by simp [FailedEnd, hends] at h

/-- A cursor that stays open. -/
theorem idle_of_error {request : Request} {reply : Reply ρ} (hreply : reply.isError = true)
    (hends : ∀ txID, request.ends ≠ some (.tx txID)) (hissued : reply.issued = none)
    (hcloses : ∀ issue owner, ¬ request.Closes issue owner) : Idle request reply where
  issued := hissued
  ends issue owner h := by
    rcases h with h | h
    · exact hcloses issue owner h.2
    · rw [hreply] at h
      exact absurd h.1 (by decide)
  failedEnd txID h := hends txID h.1

theorem change_refuse {request : Request} (code : Code) (message : String) :
    Change spec answers s request (refuse s code message).state (refuse s code message).reply :=
  .kept ⟨rfl, fun _ _ h => h.elim (fun h => absurd h.1 Bool.noConfusion) fun h => absurd h.1 Bool.noConfusion,
    fun _ h => by cases h.2⟩

theorem change_keep {request : Request} {reply : Reply ρ} (hreply : reply.issued = none)
    (hends : request.ends = none) (hcloses : ∀ issue owner, ¬ request.Closes issue owner) :
    Change spec answers s request s reply := .kept (idle_of_ends hreply hends hcloses)

/-- A transaction that is asked for is there, or the request is refused. -/
theorem executorFor_error {txID : String} {connID : ℕ} {refusal : Handled ρ}
    (h : executorFor s txID connID = .error refusal) :
    ∃ code message, refusal = refuse s code message := by
  unfold executorFor txForRequest at h
  split at h
  · cases h
  · cases hlookup : s.txs.lookup txID with
    | none =>
      rw [hlookup] at h
      cases h
      exact ⟨_, _, rfl⟩
    | some tx =>
      rw [hlookup] at h
      by_cases hconn : tx.connID ≠ connID
      · simp only [if_pos hconn] at h
        cases h
        exact ⟨_, _, rfl⟩
      · simp only [if_neg hconn] at h
        cases h

theorem change_connTest (config : Option String) : Change spec answers s (.connTest config)
    (handleConnTest answers s config).state (handleConnTest answers s config).reply := by
  unfold handleConnTest
  cases config with
  | some message => exact change_refuse _ _
  | none =>
    dsimp only
    split
    · exact change_keep rfl rfl fun _ _ h => h
    · exact change_keep (by dsimp only; split <;> rfl) rfl fun _ _ h => h

theorem change_connOpen (config : Option String) : Change spec answers s (.connOpen config)
    (handleConnOpen answers s config).state (handleConnOpen answers s config).reply := by
  unfold handleConnOpen
  cases config with
  | some message => exact change_refuse _ _
  | none =>
    dsimp only
    split
    · exact change_keep rfl rfl fun _ _ h => h
    split
    · exact change_keep rfl rfl fun _ _ h => h
    · exact .opened

theorem change_connClose (connID : ℕ) : Change spec answers s (.connClose connID)
    (handleConnClose answers s connID).state (handleConnClose answers s connID).reply := by
  unfold handleConnClose
  split
  · exact .closed (by dsimp only; split <;> rfl) (by dsimp only; split <;> rfl)
  · exact change_refuse _ _

theorem change_queryStart (connID : ℕ) (sql : String) (params : Option String) (maxRows : Option ℕ)
    (txID : String) : Change spec answers s (.queryStart connID sql params maxRows txID)
      (handleQueryStart spec answers s connID sql params maxRows txID).state
      (handleQueryStart spec answers s connID sql params maxRows txID).reply := by
  unfold handleQueryStart
  split
  · next h =>
    cases params with
    | some message => exact change_refuse _ _
    | none =>
      cases hexecutor : executorFor s txID connID with
      | error refusal =>
        obtain ⟨code, message, rfl⟩ := executorFor_error hexecutor
        exact change_refuse _ _
      | ok executor =>
        obtain ⟨named, ended⟩ := executor
        dsimp only
        split
        · exact change_keep rfl rfl fun _ _ h => h
        · exact .started h
  · exact change_refuse _ _

theorem change_cursorFetch (cursorID : String) (n : Option ℕ) : Change spec answers s (.cursorFetch cursorID n)
    (handleCursorFetch marshals answers s cursorID n).state
    (handleCursorFetch marshals answers s cursorID n).reply := by
  unfold handleCursorFetch
  cases hlookup : s.cursors.lookup cursorID with
  | none => exact change_refuse _ _
  | some cursor =>
    obtain ⟨connID, rows, maxRows, fetched, done⟩ := cursor
    cases done with
    | true => exact change_keep rfl rfl fun _ _ h => h
    | false =>
      cases rows with
      | none => exact change_keep rfl rfl fun _ _ h => h
      | some result =>
        dsimp only
        cases (fetchRows result.failure maxRows (requestedRows n) result.rows fetched []).2 with
        -- an error while reading leaves the cursor in the table, further on
        | error error => exact .cursorSet (idle_of_ends rfl rfl fun _ _ h => h) rfl hlookup rfl
        | ok read =>
          obtain ⟨rows, done, fetched⟩ := read
          have hreply : (if rows.all marshals then Reply.rows rows done
              else (.failed .internalError : Reply ρ)).issued = none := by split <;> rfl
          cases done with
          | false => exact .cursorSet (idle_of_ends hreply rfl fun _ _ h => h) rfl hlookup rfl
          | true =>
            -- rows that cannot be closed are an error, too, and the cursor stays done
            by_cases hfails : answers.fails (.closeRows cursorID) = true
            · simp only [if_pos hfails, if_true]
              exact .cursorSet (idle_of_ends rfl rfl fun _ _ h => h) rfl hlookup rfl
            · simp only [if_neg hfails, if_true]
              exact .cursorSet (idle_of_ends hreply rfl fun _ _ h => h) rfl hlookup rfl

theorem change_cursorClose (cursorID : String) : Change spec answers s (.cursorClose cursorID)
    (handleCursorClose answers s cursorID).state (handleCursorClose answers s cursorID).reply := by
  unfold handleCursorClose
  cases hlookup : s.cursors.lookup cursorID with
  | none => exact change_refuse _ _
  | some cursor =>
    dsimp only
    split
    · exact .cursorSet (idle_of_error rfl (by simp [Request.ends]) rfl fun _ _ h => h) rfl hlookup rfl
    · exact .cursorErased

theorem change_cursorCancel (cursorID : String) : Change spec answers s (.cursorCancel cursorID)
    (handleCursorCancel answers s cursorID).state (handleCursorCancel answers s cursorID).reply := by
  unfold handleCursorCancel
  cases hlookup : s.cursors.lookup cursorID with
  | none => exact change_refuse _ _
  | some cursor => 
    exact .cursorSet (idle_of_ends (by dsimp only; split <;> rfl) rfl fun _ _ h => h) rfl hlookup rfl

theorem change_execRun (connID : ℕ) (sql : String) (params : Option String) (txID : String) :
    Change spec answers s (.execRun connID sql params txID)
      (handleExecRun answers s connID sql params txID).state
      (handleExecRun answers s connID sql params txID).reply := by
  unfold handleExecRun
  split
  · cases params with
    | some message => exact change_refuse _ _
    | none =>
      cases hexecutor : executorFor s txID connID with
      | error refusal =>
        obtain ⟨code, message, rfl⟩ := executorFor_error hexecutor
        exact change_refuse _ _
      | ok executor =>
        obtain ⟨named, ended⟩ := executor
        dsimp only
        split <;> exact change_keep rfl rfl fun _ _ h => h
  · exact change_refuse _ _

theorem change_execBatch (connID : ℕ) (statements : List String) (stopOnError inTransaction : Bool) :
    Change spec answers s (.execBatch connID statements stopOnError inTransaction)
      (handleExecBatch answers s connID statements stopOnError inTransaction).state
      (handleExecBatch answers s connID statements stopOnError inTransaction).reply := by
  unfold handleExecBatch
  split
  · split
    · split
      · exact change_keep rfl rfl fun _ _ h => h
      · refine change_keep ?_ rfl fun _ _ h => h
        dsimp only
        split <;> split <;> rfl
    · exact change_keep rfl rfl fun _ _ h => h
  · exact change_refuse _ _

theorem change_endTx {request : Request} {txID : String} {tx : Tx} {call : Call}
    (hrequest : request.ends = some (.tx txID)) (hlookup : s.txs.lookup txID = some tx) :
    Change spec answers s request (endTx answers s txID tx call).state (endTx answers s txID tx call).reply := by
  unfold endTx
  split
  · exact .endFailed hrequest hlookup
  · exact .ended hrequest

theorem change_runSavepoint {request : Request} (hends : request.ends = none)
    (hcloses : ∀ issue owner, ¬ request.Closes issue owner) (txID : String) (tx : Tx) (sql : String) :
    Change spec answers s request (runSavepoint answers s txID tx sql).state
      (runSavepoint answers s txID tx sql).reply := by
  unfold runSavepoint
  exact change_keep (by dsimp only; split <;> rfl) hends hcloses

theorem change_savepoint {request : Request} (hends : request.ends = none)
    (hcloses : ∀ issue owner, ¬ request.Closes issue owner) (statement txID name : String) :
    Change spec answers s request (handleSavepoint quote answers s statement txID name).state
      (handleSavepoint quote answers s statement txID name).reply := by
  unfold handleSavepoint
  cases s.txs.lookup txID with
  | none => exact change_refuse _ _
  | some tx =>
    dsimp only
    split
    · exact change_refuse _ _
    · exact change_runSavepoint hends hcloses _ _ _

theorem change_txRollback (txID toSavepoint : String) : Change spec answers s (.txRollback txID toSavepoint)
    (handleTxRollback quote answers s txID toSavepoint).state
    (handleTxRollback quote answers s txID toSavepoint).reply := by
  unfold handleTxRollback
  cases hlookup : s.txs.lookup txID with
  | none => exact change_refuse _ _
  | some tx =>
    by_cases hsavepoint : toSavepoint = ""
    · simp only [hsavepoint, ne_eq, not_true, if_false]
      exact change_endTx (by rw [Request.ends, if_pos rfl]) hlookup
    · simp only [ne_eq, hsavepoint, not_false_eq_true, if_true]
      have hends : (Request.txRollback txID toSavepoint).ends = none := if_neg hsavepoint
      exact change_runSavepoint hends (fun _ _ h => h) _ _ _

theorem change_dataExport (connID : ℕ) (streamID : String) (statement : Except String String) :
    Change spec answers s (.dataExport connID streamID statement)
      (handleDataExport answers s connID streamID statement).state
      (handleDataExport answers s connID streamID statement).reply := by
  unfold handleDataExport
  split
  · split
    · exact change_refuse _ _
    · cases statement with
      | error message => exact change_refuse _ _
      | ok sql =>
        dsimp only
        split
        · exact change_keep rfl rfl fun _ _ h => h
        · exact .streams (idle_of_ends rfl rfl fun _ _ h => h) rfl
  · exact change_refuse _ _

theorem change_importBegin (connID : ℕ) (table format : String) (columns : List String) :
    Change spec answers s (.importBegin connID table format columns)
      (handleDataImportBegin spec isPrint s connID table format columns).state
      (handleDataImportBegin spec isPrint s connID table format columns).reply := by
  unfold handleDataImportBegin
  split
  · next h =>
    split
    · exact .importing h
    · exact change_refuse _ _
  · exact change_refuse _ _

theorem change_importChunk (importID : String) (rows : List (Option String)) :
    Change spec answers s (.importChunk importID rows) (handleDataImportChunk answers s importID rows).state
      (handleDataImportChunk answers s importID rows).reply := by
  unfold handleDataImportChunk
  cases hlookup : s.imports.lookup importID with
  | none => exact change_refuse _ _
  | some imp =>
    dsimp only
    split
    · cases insertError imp with
      | some message => exact change_refuse _ _
      | none => exact .importSet rfl hlookup rfl
    · exact change_refuse _ _

/-- **What a request does** to the tables. -/
theorem change (request : Request) :
    Change spec answers s request (handle spec marshals quote isPrint answers s request).state
      (handle spec marshals quote isPrint answers s request).reply := by
  unfold handle
  split
  · exact change_refuse _ _
  next hserved =>
    clear hserved
    -- one kind of change for each request
    cases request <;> dsimp only
    case init refusal =>
      cases refusal with
      | none => exact .initialized
      | some message => exact change_refuse _ _
    case ping => exact change_keep rfl rfl fun _ _ h => h
    case shutdown => exact .shutDown (by split <;> rfl) (by split <;> rfl)
    case connTest config => exact change_connTest config
    case connOpen config => exact change_connOpen config
    case connClose connID => exact change_connClose connID
    case connPing connID =>
      unfold handleConnPing
      split
      · exact change_keep (by dsimp only; split <;> rfl) rfl fun _ _ h => h
      · exact change_refuse _ _
    case connUse connID =>
      unfold handleConnUse
      split
      · exact change_keep rfl rfl fun _ _ h => h
      · exact change_refuse _ _
    case queryStart connID sql params maxRows txID => exact change_queryStart connID sql params maxRows txID
    case cursorFetch cursorID n => exact change_cursorFetch cursorID n
    case cursorClose cursorID => exact change_cursorClose cursorID
    case cursorCancel cursorID => exact change_cursorCancel cursorID
    case execRun connID sql params txID => exact change_execRun connID sql params txID
    case execBatch connID statements stopOnError inTransaction =>
      exact change_execBatch connID statements stopOnError inTransaction
    case txBegin connID =>
      unfold handleTxBegin
      split
      · next h =>
        split
        · exact change_keep rfl rfl fun _ _ h => h
        · exact .begun h
      · exact change_refuse _ _
    case txCommit txID =>
      unfold handleTxCommit
      cases hlookup : s.txs.lookup txID with
      | none => exact change_refuse _ _
      | some tx => exact change_endTx rfl hlookup
    case txRollback txID toSavepoint => exact change_txRollback txID toSavepoint
    case txSavepoint txID name =>
      refine change_savepoint rfl ?_ _ txID name
      exact fun _ _ h => h
    case txRelease txID name =>
      refine change_savepoint rfl ?_ _ txID name
      exact fun _ _ h => h
    case dataExport connID streamID statement => exact change_dataExport connID streamID statement
    case importBegin connID table format columns =>
      exact change_importBegin connID table format columns
    case importChunk importID rows => exact change_importChunk importID rows
    case importCommit importID =>
      unfold handleDataImportCommit
      cases s.imports.lookup importID with
      | none => exact change_refuse _ _
      | some imp => exact .importErased rfl rfl rfl
    case importAbort importID => exact .importErased rfl rfl rfl
    case streamRead streamID maxBytes =>
      unfold handleStreamRead
      cases s.streams.lookup streamID with
      | none => exact change_refuse _ _
      | some stream => exact .streams (idle_of_ends rfl rfl fun _ _ h => h) rfl
    case streamClose streamID => exact .streams (idle_of_ends rfl rfl fun _ _ h => h) rfl

end Changes

end DbipcServer
end Navop
