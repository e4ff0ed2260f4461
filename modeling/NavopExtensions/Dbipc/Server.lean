import NavopExtensions.Lib.Finmaps
import NavopExtensions.Lib.Machine
import Mathlib.Data.Finset.Sort
import Mathlib.Data.String.Basic
import Std.Data.String.ToNat

/-!
# The server of the Go drivers

`internal/dbipc/server.go`: the requests that open, use and close connections, cursors, transactions,
imports and streams. Every call to the database may fail; what it comes to is part of the input, and so is
the order in which Go goes through a map. A `*sql.Tx` has ended once `Commit` or `Rollback` was called on
it, whatever came of that, and fails from then on. A `*sql.Rows` is what reading it is going to yield. The
requests about schemas, whose statements come from the driver, and those that only build SQL are left out.
-/

namespace Navop
namespace DbipcServer

/-! ### The database -/

/-- What reading a result is going to yield: rows, of which each may fail to be scanned, and the error
at their end. -/
structure Result (ρ : Type*) where
  rows : List (Except String ρ)
  failure : Option String

/-- What a statement comes to: an error, or the number of rows that `RowsAffected` gives. -/
inductive Outcome
  | failed
  | done (affected : Option ℤ)
  deriving DecidableEq

/-- `rowsAffected`: the count of a statement that has one which is not negative. -/
def rowsAffected : Outcome → Option ℕ
  | .failed => none
  | .done none => none
  | .done (some affected) => if affected < 0 then none else some affected.toNat

/-- A call to the database. A statement outside of a transaction has no `txID`, and a connection that has
not been given out yet has no `connID`. -/
inductive Call
  | open
  | ping (connID : Option ℕ)
  | query (connID : ℕ) (txID : Option String) (sql : String)
  | exec (connID : ℕ) (txID : Option String) (sql : String)
  | insert (connID : ℕ) (row : ℕ)
  | statement (connID : ℕ) (inTransaction : Bool) (index : ℕ)
  | begin (connID : ℕ)
  | commit (txID : String)
  | rollback (txID : String)
  | savepoint (txID sql : String)
  | commitBatch (connID : ℕ)
  | rollbackBatch (connID : ℕ)
  | export (connID : ℕ)
  | readRows (cursorID : String)
  | closeRows (cursorID : String)
  | closeDB (connID : Option ℕ)
  deriving DecidableEq

/-- The order in which Go goes through the keys of a map. Any order will do, but every key is visited, and
once. -/
structure Visits (κ : Type*) where
  list : Finset κ → List κ
  perm : ∀ keys, (list keys : Multiset κ) = keys.val

theorem Visits.mem_list {κ : Type*} (visits : Visits κ) {keys : Finset κ} {key : κ} :
    key ∈ visits.list keys ↔ key ∈ keys := by
  rw [← Multiset.mem_coe, visits.perm, Finset.mem_val]

/-- The keys in their order. -/
def Visits.sorted (κ : Type*) [LinearOrder κ] : Visits κ :=
  ⟨fun keys => keys.sort, fun keys => keys.sort_eq _⟩

/-- How the database answers the calls of a request, and how its loops go through the maps. -/
structure Answers (ρ : Type*) where
  fails : Call → Bool
  outcome : Call → Outcome
  result : Result ρ
  exported : List UInt8 × ℕ
  visitIDs : Visits String
  visitConns : Visits ℕ

/-! ### The state of the server -/

/-- `cursorState`; `kinds` has done its work when the rows are scanned. -/
structure Cursor (ρ : Type*) where
  connID : ℕ
  rows : Option (Result ρ)
  maxRows : Option ℕ
  fetched : ℕ := 0
  done : Bool := false

/-- `txState`, and whether `Commit` or `Rollback` was called on the transaction. -/
structure Tx where
  connID : ℕ
  ended : Bool := false
  deriving DecidableEq

/-- `importState`. A failed row has its place in its chunk. -/
structure Import where
  connID : ℕ
  table : String
  columns : List String
  inserted : ℕ := 0
  failed : List ℕ := []
  deriving DecidableEq

/-- `streamState`: the bytes of an export, and how many of them have been read. -/
structure Stream where
  data : List UInt8
  offset : ℕ := 0
  deriving DecidableEq

/-- `Server`. The four counters are of type `uint64` in the source. They start with one and go up by one with
a request at most (`run_countersLe`), so in a run of fewer than `2 ^ 64 - 1` requests they do not wrap. -/
structure State (ρ : Type*) where
  initialized : Bool
  nextConnID : ℕ
  nextCursor : ℕ
  nextTx : ℕ
  nextImport : ℕ
  conns : Finset ℕ
  cursors : Finmap fun _ : String => Cursor ρ
  txs : Finmap fun _ : String => Tx
  imports : Finmap fun _ : String => Import
  streams : Finmap fun _ : String => Stream

/-- `NewServer`: nothing is open, and the counters start at one. -/
def newServer (ρ : Type*) : State ρ := ⟨false, 1, 1, 1, 1, ∅, ∅, ∅, ∅, ∅⟩

/-- The codes of errors. -/
inductive Code
  | notInitialized
  | serverIncompatible
  | invalidParams
  | unknownConnID
  | unknownCursorID
  | connectionFailed
  | sqlSyntax
  | notSupported
  | internalError
  deriving DecidableEq

/-- The replies. The server's own errors have their texts. -/
inductive Reply (ρ : Type*)
  | ok
  | pong
  | opened (connID : ℕ)
  | started (cursorID : String)
  | rows (rows : List ρ) (done : Bool)
  | affected (rows : ℕ)
  | batch (results errors : List ℕ)
  | begun (txID : String)
  | importing (importID : String)
  | imported (inserted : ℕ) (failed : List ℕ)
  | exported (bytes rows : ℕ)
  | chunk (data : List UInt8) (done : Bool)
  | refused (code : Code) (message : String)
  | failed (code : Code)

/-- Whether a reply is an error. -/
def Reply.isError {ρ : Type*} : Reply ρ → Bool
  | .refused _ _ => true
  | .failed _ => true
  | _ => false

/-- The requests. A missing `tx_id` or `to_savepoint` is empty. Where there is one, `refusal` is the error
of `ValidateHostVersion`, `config` that of `parseConfig`, and `params` that of `paramsFromWire` or
`cellsToArgs`. -/
inductive Request
  | init (refusal : Option String)
  | ping
  | shutdown
  | connTest (config : Option String)
  | connOpen (config : Option String)
  | connClose (connID : ℕ)
  | connPing (connID : ℕ)
  | connUse (connID : ℕ)
  | queryStart (connID : ℕ) (sql : String) (params : Option String) (maxRows : Option ℕ) (txID : String)
  | cursorFetch (cursorID : String) (n : Option ℕ)
  | cursorClose (cursorID : String)
  | cursorCancel (cursorID : String)
  | execRun (connID : ℕ) (sql : String) (params : Option String) (txID : String)
  | execBatch (connID : ℕ) (statements : List String) (stopOnError inTransaction : Bool)
  | txBegin (connID : ℕ)
  | txCommit (txID : String)
  | txRollback (txID toSavepoint : String)
  | txSavepoint (txID name : String)
  | txRelease (txID name : String)
  | dataExport (connID : ℕ) (streamID : String) (statement : Except String String)
  | importBegin (connID : ℕ) (table format : String) (columns : List String)
  | importChunk (importID : String) (rows : List (Option String))
  | importCommit (importID : String)
  | importAbort (importID : String)
  | streamRead (streamID : String) (maxBytes : Option ℕ)
  | streamClose (streamID : String)

/-- What a request has come to: the server's state, the calls made, and the reply. -/
structure Handled (ρ : Type*) where
  state : State ρ
  calls : List Call
  reply : Reply ρ

/-! ### Ids -/

/-- `fmt.Sprintf("%s-kind-%d", …)`: an id is made of the driver's name, its kind and a counter. -/
def idOf (spec kind : String) (n : ℕ) : String := spec ++ kind ++ Nat.repr n

theorem idOf_injective (spec kind : String) : Function.Injective (idOf spec kind) := by
  intro n m h
  have hrepr : Nat.repr n = Nat.repr m := by
    have hlist := congrArg String.toList h
    simp only [idOf, String.toList_append] at hlist
    exact String.toList_inj.1 (List.append_cancel_left hlist)
  have hnat := congrArg String.toNat? hrepr
  rw [Nat.toNat?_repr, Nat.toNat?_repr] at hnat
  exact Option.some.inj hnat

/-! ### Quoting -/

/-- `appendEscapedRune`, of `strconv`: what `%q` makes of a character. -/
def appendEscapedRune (isPrint : Char → Bool) (c : Char) : List Char :=
  if c = '"' ∨ c = '\\' then ['\\', c]
  else if isPrint c then [c]
  else
    match c.toNat with
    | 7 => ['\\', 'a']
    | 8 => ['\\', 'b']
    | 12 => ['\\', 'f']
    | 10 => ['\\', 'n']
    | 13 => ['\\', 'r']
    | 9 => ['\\', 't']
    | 11 => ['\\', 'v']
    | n =>
      if n < 0x20 ∨ n = 0x7f then '\\' :: 'x' :: (n.toDigits 16).leftpad 2 '0'
      else if n < 0x10000 then '\\' :: 'u' :: (n.toDigits 16).leftpad 4 '0'
      else '\\' :: 'U' :: (n.toDigits 16).leftpad 8 '0'

/-- `strconv.Quote`, with `strconv.IsPrint`. -/
def strconvQuote (isPrint : Char → Bool) (text : String) : String :=
  String.ofList ('"' :: text.toList.flatMap (appendEscapedRune isPrint) ++ ['"'])

section Handlers

variable {ρ : Type*} (spec : String) (marshals : ρ → Bool) (quote : String → String)
variable (isPrint : Char → Bool)
variable (answers : Answers ρ) (s : State ρ)

/-- The id of a cursor. -/
def cursorIDOf (n : ℕ) : String := idOf spec "-cursor-" n

/-- The id of a transaction. -/
def txIDOf (n : ℕ) : String := idOf spec "-tx-" n

/-- The id of an import. -/
def importIDOf (n : ℕ) : String := idOf spec "-import-" n

/-- A reply without any call. -/
def refuse (code : Code) (message : String) : Handled ρ := ⟨s, [], .refused code message⟩

/-- The reply to an unknown `conn_id`. -/
def unknownConn (connID : ℕ) : Handled ρ :=
  refuse s .unknownConnID ("unknown conn_id " ++ toString connID)

/-- The reply to an unknown `cursor_id`. -/
def unknownCursor (cursorID : String) : Handled ρ :=
  refuse s .unknownCursorID ("unknown cursor_id `" ++ cursorID ++ "`")

/-- The reply to an unknown `tx_id`. -/
def unknownTx (txID : String) : Handled ρ :=
  refuse s .invalidParams ("unknown tx_id `" ++ txID ++ "`")

/-- The reply to an unknown `import_id`. -/
def unknownImport (importID : String) : Handled ρ :=
  refuse s .invalidParams ("unknown import_id `" ++ importID ++ "`")

/-! ### Connections -/

/-- `handleConnTest`. The connection that it opens is closed again, and not given out. -/
def handleConnTest (config : Option String) : Handled ρ :=
  match config with
  | some message => refuse s .invalidParams message
  | none =>
    if answers.fails .open then ⟨s, [.open], .failed .connectionFailed⟩
    else
      -- the handle is closed after either ping, and each failure has the same code
      ⟨s, [.open, .ping none, .closeDB none],
        if answers.fails (.ping none) || answers.fails (.closeDB none) then .failed .connectionFailed
        else .ok⟩

/-- `handleConnOpen`. A connection whose first ping fails is closed again. -/
def handleConnOpen (config : Option String) : Handled ρ :=
  match config with
  | some message => refuse s .invalidParams message
  | none =>
    if answers.fails .open then ⟨s, [.open], .failed .connectionFailed⟩
    else if answers.fails (.ping none) then
      ⟨s, [.open, .ping none, .closeDB none], .failed .connectionFailed⟩
    else
      -- only a connection that answers its ping is given an id
      ⟨{ s with nextConnID := s.nextConnID + 1, conns := insert s.nextConnID s.conns },
        [.open, .ping none], .opened s.nextConnID⟩

/-- Whether `closeCursor` fails: only rows that are still open are closed. -/
def closeCursorFails (cursorID : String) (cursor : Cursor ρ) : Bool :=
  cursor.rows.isSome && answers.fails (.closeRows cursorID)

/-- `closeCursor`, with `done`: the rows are let go, and no more are fetched. -/
def Cursor.close {ρ : Type*} (cursor : Cursor ρ) : Cursor ρ := { cursor with rows := none, done := true }

/-- The calls of `closeCursor`: its rows are closed if there are any. -/
def closeCursorCalls {ρ : Type*} (cursorID : String) (cursor : Cursor ρ) : List Call :=
  if cursor.rows.isSome then [.closeRows cursorID] else []

/-- Whether `Rollback` fails: it does in a transaction that has ended, whatever the database says. -/
def rollbackFails (txID : String) (tx : Tx) : Bool := tx.ended || answers.fails (.rollback txID)

/-- The calls of a loop over a map. -/
def visitCalls {α : Type*} (visits : Visits String) (table : Finmap fun _ : String => α)
    (calls : String → α → List Call) : List Call :=
  (visits.list table.keys).flatMap fun key => (table.lookup key).elim [] (calls key)

/-- The calls of `closeCursorsForConn`: the rows of the cursors on this connection, in the order of the
map. -/
def closeCursorsForConn (connID : ℕ) : List Call :=
  visitCalls answers.visitIDs s.cursors fun id cursor =>
    if cursor.connID = connID then closeCursorCalls id cursor else []

/-- The calls of `rollbackTxsForConn`: one for each transaction on this connection, in the order of the
map. -/
def rollbackTxsForConn (connID : ℕ) : List Call :=
  visitCalls answers.visitIDs s.txs fun id tx => if tx.connID = connID then [.rollback id] else []

/-- `handleConnClose`: the connection goes with its cursors, transactions, streams and imports, even if
closing one of them fails. -/
def handleConnClose (connID : ℕ) : Handled ρ :=
  if connID ∈ s.conns then
    -- the errors are joined for the reply, and the clean-up goes on
    let failure :=
      s.cursors.any (fun id cursor => cursor.connID = connID && closeCursorFails answers id cursor)
        || s.txs.any (fun id tx => tx.connID = connID && rollbackFails answers id tx)
        || answers.fails (.closeDB (some connID))
    ⟨{ s with
        -- streams stay: they hold bytes, and no connection
        conns := s.conns.erase connID
        cursors := s.cursors.retain fun _ cursor => cursor.connID ≠ connID
        txs := s.txs.retain fun _ tx => tx.connID ≠ connID
        imports := s.imports.retain fun _ imp => imp.connID ≠ connID },
      closeCursorsForConn answers s connID ++ rollbackTxsForConn answers s connID
        ++ [.closeDB (some connID)],
      if failure then .failed .connectionFailed else .ok⟩
  else unknownConn s connID

/-- `handleConnPing`: the database is pinged on a connection that is open. -/
def handleConnPing (connID : ℕ) : Handled ρ :=
  if connID ∈ s.conns then
    ⟨s, [.ping (some connID)],
      if answers.fails (.ping (some connID)) then .failed .connectionFailed else .ok⟩
  else unknownConn s connID

/-- `handleConnUse`. The database that it sets is only read by requests that are left out. -/
def handleConnUse (connID : ℕ) : Handled ρ :=
  if connID ∈ s.conns then ⟨s, [], .ok⟩ else unknownConn s connID

/-- The calls of `closeAll`: rows first, then transactions, and last the connections. -/
def closeAllCalls : List Call :=
  visitCalls answers.visitIDs s.cursors closeCursorCalls
    ++ visitCalls answers.visitIDs s.txs (fun id _ => [.rollback id])
    ++ (answers.visitConns.list s.conns).map fun connID => .closeDB (some connID)

/-- `closeAll`, and whether it succeeds. -/
def closeAll : State ρ × Bool :=
  ({ s with conns := ∅, cursors := ∅, txs := ∅, imports := ∅, streams := ∅ },
    -- as on `conn/close`, an error does not stop the loops
    !(s.cursors.any (closeCursorFails answers) || s.txs.any (rollbackFails answers)
      || decide (∃ connID ∈ s.conns, answers.fails (.closeDB (some connID)) = true)))

/-! ### Queries and cursors -/

/-- `txForRequest`: the transaction that a request names, which has to be on the same connection. -/
def txForRequest (txID : String) (connID : ℕ) : Except (Handled ρ) Tx :=
  match s.txs.lookup txID with
  | none => .error (unknownTx s txID)
  | some tx =>
    if tx.connID ≠ connID then
      .error (refuse s .invalidParams
        ("tx_id `" ++ txID ++ "` does not belong to conn_id " ++ toString connID))
    else .ok tx

/-- The transaction that a statement runs in, if it names one. -/
def executorFor (txID : String) (connID : ℕ) : Except (Handled ρ) (Option String × Bool) :=
  if txID = "" then .ok (none, false)
  else (txForRequest s txID connID).map fun tx => (some txID, tx.ended)

/-- `handleQueryStart`: parameters and transaction are checked before the query is sent; its rows become a
cursor. -/
def handleQueryStart (connID : ℕ) (sql : String) (params : Option String) (maxRows : Option ℕ)
    (txID : String) : Handled ρ :=
  if connID ∈ s.conns then
    match params with
    | some message => refuse s .invalidParams message
    | none =>
      match executorFor s txID connID with
      | .error refusal => refusal
      | .ok (txID, ended) =>
        -- a transaction that has ended refuses the statement by itself, the database is not asked
        let call := Call.query connID txID sql
        if ended || answers.fails call then ⟨s, [call], .failed .sqlSyntax⟩
        else
          let cursorID := cursorIDOf spec s.nextCursor
          ⟨{ s with
              nextCursor := s.nextCursor + 1
              cursors := s.cursors.insert cursorID ⟨connID, some answers.result, maxRows, 0, false⟩ },
            [call], .started cursorID⟩
  else unknownConn s connID

/-- Whether as many rows have been fetched as may be. -/
def reached (maxRows : Option ℕ) (fetched : ℕ) : Bool := maxRows.any (· ≤ fetched)

/-- The loop of `fetchRows`: what is left to read, and the rows, whether they are the last ones, and how
many have been fetched. -/
def fetchRows {ρ : Type*} (failure : Option String) (maxRows : Option ℕ) :
    ℕ → List (Except String ρ) → ℕ → List ρ →
      List (Except String ρ) × Except String (List ρ × Bool × ℕ)
  | 0, rows, fetched, out => (rows, .ok (out, reached maxRows fetched, fetched))
  | n + 1, rows, fetched, out =>
    -- the bound of the request is looked at before a row is read
    if reached maxRows fetched then (rows, .ok (out, true, fetched))
    else
      match rows with
      | [] =>
        -- `rows.Err()`, behind the last row
        match failure with
        | some error => ([], .error error)
        | none => ([], .ok (out, true, fetched))
      | .error error :: rows => (rows, .error error)
      | .ok row :: rows => fetchRows failure maxRows n rows (fetched + 1) (out ++ [row])

/-- The number of rows that a request asks for. -/
def requestedRows : Option ℕ → ℕ
  | none => 500
  | some 0 => 500
  | some n => n

/-- `handleCursorFetch`. The rows have been read before they are marshalled. -/
def handleCursorFetch (cursorID : String) (n : Option ℕ) : Handled ρ :=
  match s.cursors.lookup cursorID with
  | none => unknownCursor s cursorID
  | some cursor =>
    let put (cursor : Cursor ρ) : State ρ := { s with cursors := s.cursors.insert cursorID cursor }
    -- a cursor that is done answers no rows, and that they are the last
    match cursor.done, cursor.rows with
    | false, some result =>
      let (left, read) := fetchRows result.failure cursor.maxRows (requestedRows n) result.rows
        cursor.fetched []
      let result := { result with rows := left }
      match read with
      -- rows that were read before the error are lost, their count is not raised
      | .error _ => ⟨put { cursor with rows := some result }, [.readRows cursorID], .failed .sqlSyntax⟩
      | .ok (rows, done, fetched) =>
        -- the reply is made last: rows that cannot be marshalled are gone from the cursor
        let reply := if rows.all marshals then Reply.rows rows done else .failed .internalError
        -- `closeCursor`, whose error takes the place of the rows
        if done then
          if answers.fails (.closeRows cursorID) then
            ⟨put { cursor with rows := some result, fetched := fetched, done := true },
              [.readRows cursorID, .closeRows cursorID], .failed .sqlSyntax⟩
          else
            ⟨put { cursor with rows := none, fetched := fetched, done := true },
              [.readRows cursorID, .closeRows cursorID], reply⟩
        else ⟨put { cursor with rows := some result, fetched := fetched }, [.readRows cursorID], reply⟩
    | _, _ => ⟨s, [], .rows [] true⟩

/-- `handleCursorClose`: the cursor goes, unless closing its rows fails. -/
def handleCursorClose (cursorID : String) : Handled ρ :=
  match s.cursors.lookup cursorID with
  | none => unknownCursor s cursorID
  | some cursor =>
    if closeCursorFails answers cursorID cursor then
      -- the cursor is marked as done and stays in the table
      ⟨{ s with cursors := s.cursors.insert cursorID cursor.close }, closeCursorCalls cursorID cursor,
        .failed .sqlSyntax⟩
    else ⟨{ s with cursors := s.cursors.erase cursorID }, closeCursorCalls cursorID cursor, .ok⟩

/-- `handleCursorCancel`: the cursor stays, and is done. -/
def handleCursorCancel (cursorID : String) : Handled ρ :=
  match s.cursors.lookup cursorID with
  | none => unknownCursor s cursorID
  | some cursor =>
    ⟨{ s with cursors := s.cursors.insert cursorID cursor.close }, closeCursorCalls cursorID cursor,
      if closeCursorFails answers cursorID cursor then .failed .sqlSyntax else .ok⟩

/-! ### Statements -/

/-- `handleExecRun`: parameters and transaction are checked before the statement is sent. -/
def handleExecRun (connID : ℕ) (sql : String) (params : Option String) (txID : String) : Handled ρ :=
  if connID ∈ s.conns then
    match params with
    | some message => refuse s .invalidParams message
    | none =>
      match executorFor s txID connID with
      | .error refusal => refusal
      | .ok (txID, ended) =>
        let call := Call.exec connID txID sql
        -- a driver that cannot tell the affected rows counts as an error too
        match if ended then none else rowsAffected (answers.outcome call) with
        | none => ⟨s, [call], .failed .sqlSyntax⟩
        | some affected => ⟨s, [call], .affected affected⟩
  else unknownConn s connID

/-- The loop of `handleExecBatch`: the calls made, the numbers of affected rows, and the places of the
statements that fail. -/
def runStatements (connID : ℕ) (stopOnError inTransaction : Bool) :
    ℕ → List String → List Call × List ℕ × List ℕ
  | _, [] => ([], [], [])
  | index, _ :: statements =>
    let call := Call.statement connID inTransaction index
    match rowsAffected (answers.outcome call) with
    | some affected =>
      let (calls, results, errors) :=
        runStatements connID stopOnError inTransaction (index + 1) statements
      (call :: calls, affected :: results, errors)
    | none =>
      -- the statements after it have the result 0, and are not sent
      if stopOnError then ([call], 0 :: statements.map fun _ => 0, [index])
      else
        let (calls, results, errors) :=
          runStatements connID stopOnError inTransaction (index + 1) statements
        (call :: calls, 0 :: results, index :: errors)

/-- `handleExecBatch`: one statement after the other, in a transaction of its own if asked for, which ends
with a commit only without errors. -/
def handleExecBatch (connID : ℕ) (statements : List String) (stopOnError inTransaction : Bool) :
    Handled ρ :=
  if connID ∈ s.conns then
    if inTransaction then
      if answers.fails (.begin connID) then ⟨s, [.begin connID], .failed .sqlSyntax⟩
      else
        let (calls, results, errors) := runStatements answers connID stopOnError true 0 statements
        -- an error of any statement rolls the batch back, `stop_on_error` or not
        let finish := if errors = [] then Call.commitBatch connID else .rollbackBatch connID
        ⟨s, .begin connID :: calls ++ [finish],
          if answers.fails finish then .failed .sqlSyntax else .batch results errors⟩
    else
      let (calls, results, errors) := runStatements answers connID stopOnError false 0 statements
      ⟨s, calls, .batch results errors⟩
  else unknownConn s connID

/-! ### Transactions -/

/-- `handleTxBegin`: a new transaction on an open connection. -/
def handleTxBegin (connID : ℕ) : Handled ρ :=
  if connID ∈ s.conns then
    if answers.fails (.begin connID) then ⟨s, [.begin connID], .failed .sqlSyntax⟩
    else
      let txID := txIDOf spec s.nextTx
      ⟨{ s with nextTx := s.nextTx + 1, txs := s.txs.insert txID ⟨connID, false⟩ }, [.begin connID],
        .begun txID⟩
  else unknownConn s connID

/-- `Commit` or `Rollback` of a transaction in the table, which is deleted if that succeeds. -/
def endTx (txID : String) (tx : Tx) (call : Call) : Handled ρ :=
  -- `sql.Tx` is over after a failed commit as well; the entry of the table is not
  if tx.ended || answers.fails call then
    ⟨{ s with txs := s.txs.insert txID { tx with ended := true } }, [call], .failed .sqlSyntax⟩
  else ⟨{ s with txs := s.txs.erase txID }, [call], .ok⟩

/-- `handleTxCommit`: the transaction ends with a commit. -/
def handleTxCommit (txID : String) : Handled ρ :=
  match s.txs.lookup txID with
  | none => unknownTx s txID
  | some tx => endTx answers s txID tx (.commit txID)

/-- A statement about savepoints. -/
def runSavepoint (txID : String) (tx : Tx) (sql : String) : Handled ρ :=
  ⟨s, [.savepoint txID sql],
    if tx.ended || answers.fails (.savepoint txID sql) then .failed .sqlSyntax else .ok⟩

/-- `handleTxRollback`: to a savepoint, or for the whole transaction, which ends with it. -/
def handleTxRollback (txID toSavepoint : String) : Handled ρ :=
  match s.txs.lookup txID with
  | none => unknownTx s txID
  | some tx =>
    -- the transaction goes on after a rollback to a savepoint
    if toSavepoint ≠ "" then
      runSavepoint answers s txID tx ("ROLLBACK TO SAVEPOINT " ++ quote toSavepoint)
    else endTx answers s txID tx (.rollback txID)

/-- `handleTxSavepoint`, and `handleTxRelease`, which differ in their statement. -/
def handleSavepoint (statement txID name : String) : Handled ρ :=
  match s.txs.lookup txID with
  | none => unknownTx s txID
  | some tx =>
    -- the name is looked at after the transaction
    if name = "" then refuse s .invalidParams "missing required parameter `name`"
    else runSavepoint answers s txID tx (statement ++ quote name)

/-- `handleTxSavepoint`: a savepoint in the transaction. -/
def handleTxSavepoint (txID name : String) : Handled ρ :=
  handleSavepoint quote answers s "SAVEPOINT " txID name

/-- `handleTxRelease`: a savepoint of the transaction is given up. -/
def handleTxRelease (txID name : String) : Handled ρ :=
  handleSavepoint quote answers s "RELEASE SAVEPOINT " txID name

/-! ### Exports and imports -/

/-- `handleDataExport`, after `buildExportSQL`: the whole export is read and kept as a stream. -/
def handleDataExport (connID : ℕ) (streamID : String) (statement : Except String String) : Handled ρ :=
  if connID ∈ s.conns then
    if streamID = "" then refuse s .invalidParams "missing required parameter `stream_id`"
    else
      match statement with
      | .error message => refuse s .invalidParams message
      | .ok _ =>
        if answers.fails (.export connID) then ⟨s, [.export connID], .failed .notSupported⟩
        else
          -- a stream of the same id is replaced
          ⟨{ s with streams := s.streams.insert streamID ⟨answers.exported.1, 0⟩ }, [.export connID],
            .exported answers.exported.1.length answers.exported.2⟩
  else unknownConn s connID

/-- `handleDataImportBegin`: an import of one of three formats, which sends nothing yet. -/
def handleDataImportBegin (connID : ℕ) (table format : String) (columns : List String) : Handled ρ :=
  if connID ∈ s.conns then
    -- the table and the columns are looked at with the first chunk only
    if format ∈ ["json", "ndjson", "csv"] then
      let importID := importIDOf spec s.nextImport
      ⟨{ s with
          nextImport := s.nextImport + 1
          imports := s.imports.insert importID ⟨connID, table, columns, 0, []⟩ },
        [], .importing importID⟩
    else
      refuse s .notSupported ("import format " ++ strconvQuote isPrint format
        ++ " is not supported by the generic database/sql driver")
  else unknownConn s connID

/-- The check of `buildInsertSQL`, which every chunk makes anew. -/
def insertError (imp : Import) : Option String :=
  if imp.table = "" then some "data import table is required"
  else if imp.columns = [] then some "data import requires explicit columns"
  else none

/-- Whether a row is inserted: its cells are parameters, and its statement succeeds. -/
def rowInserted (connID index : ℕ) (row : Option String) : Bool :=
  row.isNone && !answers.fails (.insert connID index)

/-- The loop of `handleDataImportChunk`: the calls made, how many rows are inserted, and the places of the
others. -/
def insertRows (connID : ℕ) : ℕ → List (Option String) → List Call × ℕ × List ℕ
  | _, [] => ([], 0, [])
  | index, row :: rows =>
    let (calls, inserted, failed) := insertRows connID (index + 1) rows
    -- cells that are no parameters are an error before anything is sent
    let calls := if row.isNone then .insert connID index :: calls else calls
    if rowInserted answers connID index row then (calls, inserted + 1, failed)
    else (calls, inserted, index :: failed)

/-- `handleDataImportChunk`: row by row, each an insert of its own; the ones that fail are noted. -/
def handleDataImportChunk (importID : String) (rows : List (Option String)) : Handled ρ :=
  match s.imports.lookup importID with
  | none => unknownImport s importID
  | some imp =>
    if imp.connID ∈ s.conns then
      match insertError imp with
      | some message => refuse s .invalidParams message
      | none =>
        let (calls, inserted, failed) := insertRows answers imp.connID 0 rows
        ⟨{ s with
            imports := s.imports.insert importID
              { imp with inserted := imp.inserted + inserted, failed := imp.failed ++ failed } },
          calls, .imported inserted failed⟩
    else unknownConn s imp.connID

/-- `handleDataImportCommit`: the counts of the import, which is forgotten; the rows are in the table
already. -/
def handleDataImportCommit (importID : String) : Handled ρ :=
  match s.imports.lookup importID with
  | none => unknownImport s importID
  | some imp =>
    ⟨{ s with imports := s.imports.erase importID }, [], .imported imp.inserted imp.failed⟩

/-- `handleStreamRead`, with `streamReadChunk`: the next bytes, and the stream goes with the last of
them. -/
def handleStreamRead (streamID : String) (maxBytes : Option ℕ) : Handled ρ :=
  match s.streams.lookup streamID with
  | none => refuse s .invalidParams ("unknown stream_id `" ++ streamID ++ "`")
  | some stream =>
    let maxBytes := if maxBytes.getD 0 = 0 then 64 * 1024 else maxBytes.getD 0
    let stop := min (stream.offset + maxBytes) stream.data.length
    let done := decide (stream.data.length ≤ stop)
    ⟨{ s with
        streams := if done then s.streams.erase streamID
          else s.streams.insert streamID { stream with offset := stop } },
      [], .chunk ((stream.data.take stop).drop stream.offset) done⟩

/-! ### Requests -/

/-- Whether a request is served only after `init`. -/
def Request.needsInit : Request → Bool
  | .init _ => false
  | .ping => false
  | .shutdown => false
  | _ => true

/-- `Handle`, for the requests above. -/
def handle (request : Request) : Handled ρ :=
  if request.needsInit && !s.initialized then refuse s .notInitialized "init must be called first"
  else
    match request with
    | .init refusal =>
      match refusal with
      | some message => refuse s .serverIncompatible message
      | none => ⟨{ s with initialized := true }, [], .ok⟩
    | .ping => ⟨s, [], .pong⟩
    | .shutdown =>
      ⟨(closeAll answers s).1, closeAllCalls answers s,
        if (closeAll answers s).2 then .ok else .failed .connectionFailed⟩
    | .connTest config => handleConnTest answers s config
    | .connOpen config => handleConnOpen answers s config
    | .connClose connID => handleConnClose answers s connID
    | .connPing connID => handleConnPing answers s connID
    | .connUse connID => handleConnUse s connID
    | .queryStart connID sql params maxRows txID =>
      handleQueryStart spec answers s connID sql params maxRows txID
    | .cursorFetch cursorID n => handleCursorFetch marshals answers s cursorID n
    | .cursorClose cursorID => handleCursorClose answers s cursorID
    | .cursorCancel cursorID => handleCursorCancel answers s cursorID
    | .execRun connID sql params txID => handleExecRun answers s connID sql params txID
    | .execBatch connID statements stopOnError inTransaction =>
      handleExecBatch answers s connID statements stopOnError inTransaction
    | .txBegin connID => handleTxBegin spec answers s connID
    | .txCommit txID => handleTxCommit answers s txID
    | .txRollback txID toSavepoint => handleTxRollback quote answers s txID toSavepoint
    | .txSavepoint txID name => handleTxSavepoint quote answers s txID name
    | .txRelease txID name => handleTxRelease quote answers s txID name
    | .dataExport connID streamID statement => handleDataExport answers s connID streamID statement
    | .importBegin connID table format columns =>
      handleDataImportBegin spec isPrint s connID table format columns
    | .importChunk importID rows => handleDataImportChunk answers s importID rows
    | .importCommit importID => handleDataImportCommit s importID
    | .importAbort importID => ⟨{ s with imports := s.imports.erase importID }, [], .ok⟩
    | .streamRead streamID maxBytes => handleStreamRead s streamID maxBytes
    | .streamClose streamID => ⟨{ s with streams := s.streams.erase streamID }, [], .ok⟩

end Handlers

end DbipcServer
end Navop
