import NavopExtensions.Lib.Machine
import Std.Data.String.ToNat

/-!
# Connections and transactions of the GBase 8a server

`GBase8aIpcServer`, as far as transactions go: the requests `tx/*`, `query/start`, `exec/*`, `conn/open`,
`conn/close` and `shutdown`, over JDBC connections of which every call may fail. A JDBC connection has
durable data, work that is not committed, and a flag for auto-commit. A call that fails changes nothing,
but for a statement, which may fail after it has taken effect; what becomes of uncommitted work when a
connection is closed is left open.
-/

namespace Navop
namespace Gbase8a

/-! ### JDBC -/

/-- What a statement has done: the number of its request, its place there, and the transaction of its
connection. -/
structure Effect where
  request : ℕ
  index : ℕ
  tx : Option String
  deriving DecidableEq

/-- `java.sql.Connection`: what it has made durable, what waits for a commit, and its autocommit mode. -/
structure Connection where
  durable : List Effect := []
  pending : List Effect := []
  autoCommit : Bool := true
  deriving DecidableEq

/-- A statement takes effect. -/
def Connection.execute (connection : Connection) (effect : Effect) : Connection :=
  -- in this mode every statement is a transaction by itself
  if connection.autoCommit then { connection with durable := connection.durable ++ [effect] }
  else { connection with pending := connection.pending ++ [effect] }

/-- `commit`: what waits becomes durable, in its order. -/
def Connection.commit (connection : Connection) : Connection :=
  { connection with durable := connection.durable ++ connection.pending, pending := [] }

/-- `rollback`: what waits is thrown away, and what is durable stays. -/
def Connection.rollback (connection : Connection) : Connection := { connection with pending := [] }

/-- `rollback` to a savepoint, which is the number of effects that were there before it. -/
def Connection.rollbackTo (connection : Connection) (savepoint : ℕ) : Connection :=
  { connection with pending := connection.pending.take savepoint }

/-- `setAutoCommit`; switching auto-commit on commits. -/
def Connection.setAutoCommit (connection : Connection) (autoCommit : Bool) : Connection :=
  -- JDBC commits when the mode is switched on, and does nothing when it stays
  if autoCommit && !connection.autoCommit then { connection.commit with autoCommit := true }
  else { connection with autoCommit := autoCommit }

/-- What a connection leaves behind that is closed. -/
def Connection.close (connection : Connection) (survives : Bool) : List Effect :=
  if survives then connection.durable ++ connection.pending else connection.durable

/-- The calls that a request makes on a connection. -/
inductive Site
  | open
  | isValid
  | getAutoCommit
  | disableAutoCommit
  | restoreAutoCommit
  | commit
  | rollback
  | rollbackTo
  | setSavepoint
  | releaseSavepoint
  | close
  deriving DecidableEq

/-- What comes of a statement. It is `lost` if it takes effect and fails afterwards. -/
inductive Outcome
  | done
  | refused
  | lost
  deriving DecidableEq

/-- Whether a statement takes effect. -/
def Outcome.effective : Outcome → Bool
  | .done => true
  | .refused => false
  | .lost => true

/-- Whether a statement fails. -/
def Outcome.fails : Outcome → Bool
  | .done => false
  | .refused => true
  | .lost => true

/-- How the database answers the calls of a request. -/
structure Answers where
  fails : Site → ℤ → Bool := fun _ _ => false
  outcome : ℕ → Outcome := fun _ => .done
  survives : ℤ → Bool := fun _ => false

/-- A call, and whether it succeeds. -/
structure JdbcCall where
  connId : ℤ
  site : Site
  ok : Bool
  deriving DecidableEq

/-- A call with its answer. -/
def Answers.call (answers : Answers) (connId : ℤ) (site : Site) : JdbcCall :=
  ⟨connId, site, !answers.fails site connId⟩

/-! ### The server -/

/-- `ConnectionState`: a connection, the mode it had before its transaction, and the transaction. -/
structure ConnectionState where
  connection : Connection := {}
  originalAutoCommit : Bool := true
  activeTxId : Option String := none
  deriving DecidableEq

/-- `TxState`: whose transaction it is, and how much of it was pending at each savepoint. -/
structure TxState where
  connId : ℤ
  savepoints : AList fun _ : String => ℕ

/-- `GBase8aIpcServer`, with what closed connections have left behind, and the number of requests. The
next ids are `long`s there; here they have no bound, which by `run_counters` makes no difference in
runs of less than 2 ^ 63 - 1 requests. -/
structure State where
  connections : AList fun _ : ℤ => ConnectionState
  transactions : AList fun _ : String => TxState
  nextConnId : ℤ
  nextTxId : ℕ
  left : List Effect
  requests : ℕ

/-- A server that has just been started. -/
def State.initial : State := ⟨∅, ∅, 1, 1, [], 0⟩

/-- The requests. An empty `txId` or `toSavepoint` stands for none. -/
inductive Request
  | connOpen
  | connClose (connId : ℤ)
  | queryStart (connId : ℤ) (txId sql : String)
  | execRun (connId : ℤ) (txId sql : String)
  | execBatch (connId : ℤ) (statements : List String) (stopOnError inTransaction : Bool)
  | txBegin (connId : ℤ)
  | txCommit (txId : String)
  | txRollback (txId toSavepoint : String)
  | txSavepoint (txId name : String)
  | txRelease (txId name : String)
  | shutdown
  deriving DecidableEq

/-- The answers of the server. -/
inductive Reply
  | ok
  | opened (connId : ℤ)
  | begun (txId : String)
  | batch (results errors : List ℕ)
  | unknownConn (message : String)
  | invalidParams (message : String)
  | internalError
  | sqlError
  deriving DecidableEq

/-- What a request has come to: the server's state, the calls made, and the answer. -/
structure Handled where
  state : State
  calls : List JdbcCall
  reply : Reply

section Handlers

variable (answers : Answers) (state : State)

/-- An answer without any call. -/
def refuse (reply : Reply) : Handled := ⟨state, [], reply⟩

/-- The answer to a `conn_id` that is not in the table. -/
def unknownConn (connId : ℤ) : Reply := .unknownConn ("unknown conn_id " ++ toString connId)

/-- `requireTransaction`: the transaction, which has to be that of the connection if one is named. -/
def requireTransaction (txId : String) (expectedConnId : ℤ) : Except Reply TxState :=
  match state.transactions.lookup txId with
  | none => .error (.invalidParams ("unknown tx_id `" ++ txId ++ "`"))
  | some tx =>
    -- `tx/*` passes -1: it names no connection
    if expectedConnId ≥ 0 && tx.connId ≠ expectedConnId then
      .error (.invalidParams ("tx_id `" ++ txId ++ "` does not belong to conn_id "
        ++ toString expectedConnId))
    else .ok tx

/-- The transaction of a connection, by the table. -/
def State.live (connId : ℤ) : Option String :=
  (state.transactions.entries.find? fun entry => entry.2.connId = connId).map (·.1)

/-- A connection gets a new state. -/
def State.put (connId : ℤ) (conn : ConnectionState) : State :=
  { state with connections := state.connections.insert connId conn }

/-- `handleConnOpen`: an id is spent only when the connection opens and says that it is valid. -/
def handleConnOpen : Handled :=
  -- the id is taken only at the end; until then it stands for the new connection
  let connId := state.nextConnId
  let opening := answers.call connId .open
  if answers.fails .open connId then ⟨state, [opening], .sqlError⟩
  else
    let calls := [opening, answers.call connId .isValid]
    if answers.fails .isValid connId then ⟨state, calls, .sqlError⟩
    else ⟨{ state.put connId {} with nextConnId := connId + 1 }, calls, .opened connId⟩

/-- The loop of `closeTransactionsForConn`, and whether it ends without an error. -/
def closeTransactions (connId : ℤ) : List String → State → State × List JdbcCall × Bool
  | [], state => (state, [], true)
  | id :: ids, state =>
    match state.connections.lookup connId with
    -- the connection is no longer in the table, so there is nothing to roll back on
    | none =>
      closeTransactions connId ids { state with transactions := state.transactions.erase id }
    | some conn =>
      let rolling := answers.call connId .rollback
      -- an `SQLException` leaves the loop, and the transactions after it stay
      if answers.fails .rollback connId then (state, [rolling], false)
      else
        let conn := { conn with connection := conn.connection.rollback }
        let calls := [rolling, answers.call connId .restoreAutoCommit]
        if answers.fails .restoreAutoCommit connId then (state.put connId conn, calls, false)
        else
          let conn :=
            { conn with
              connection := conn.connection.setAutoCommit conn.originalAutoCommit
              activeTxId := none }
          let (state, rest, ok) := closeTransactions connId ids
            { state.put connId conn with transactions := state.transactions.erase id }
          (state, calls ++ rest, ok)

/-- `closeTransactionsForConn`: whatever transactions name the connection, one after another. -/
def closeTransactionsForConn (connId : ℤ) : State × List JdbcCall × Bool :=
  closeTransactions answers connId
    ((state.transactions.entries.filter fun entry => entry.2.connId = connId).map (·.1)) state

/-- `handleConnClose`: it is forgotten first, then its transactions are rolled back and it is closed. -/
def handleConnClose (connId : ℤ) : Handled :=
  match state.connections.lookup connId with
  | none => refuse state (unknownConn connId)
  | some conn =>
    -- the connection has left the table before its transactions are looked for
    let (state, calls, ok) := closeTransactionsForConn answers
      { state with connections := state.connections.erase connId } connId
    -- a rollback that fails skips the call of `close` too
    if ok then
      ⟨{ state with left := state.left ++ conn.connection.close (answers.survives connId) },
        calls ++ [answers.call connId .close],
        if answers.fails .close connId then .sqlError else .ok⟩
    else ⟨{ state with left := state.left ++ conn.connection.durable }, calls, .sqlError⟩

/-- A statement of a request. -/
def executeStatement (connId : ℤ) (index : ℕ) (connection : Connection) : Connection :=
  if (answers.outcome index).effective then
    connection.execute ⟨state.requests, index, state.live connId⟩
  else connection

/-- `handleQueryStart` and `handleExecRun`, which differ in what they read from the statement. -/
def handleStatement (connId : ℤ) (txId : String) : Handled :=
  match state.connections.lookup connId with
  | none => refuse state (unknownConn connId)
  | some conn =>
    -- a statement without `tx_id` runs on the connection as it is, in a transaction or not
    match if txId = "" then .ok () else (requireTransaction state txId connId).map fun _ => () with
    | .error reply => refuse state reply
    | .ok () =>
      ⟨state.put connId
          { conn with connection := executeStatement answers state connId 0 conn.connection },
        [], if (answers.outcome 0).fails then .sqlError else .ok⟩

/-- The loop of `handleExecBatch`: the connection, and the places of the statements that succeed and of
those that fail. -/
def runStatements (connId : ℤ) (stopOnError : Bool) :
    ℕ → List String → Connection → Connection × List ℕ × List ℕ
  | _, [], connection => (connection, [], [])
  | index, _ :: statements, connection =>
    let connection := executeStatement answers state connId index connection
    if (answers.outcome index).fails then
      -- the statements after it are not run
      if stopOnError then (connection, [], [index])
      else
        let (connection, results, errors) :=
          runStatements connId stopOnError (index + 1) statements connection
        (connection, results, index :: errors)
    else
      let (connection, results, errors) :=
        runStatements connId stopOnError (index + 1) statements connection
      (connection, index :: results, errors)

/-- `handleExecBatch`: the mode is read, switched off for a batch in a transaction, and restored at the
end. -/
def handleExecBatch (connId : ℤ) (statements : List String) (stopOnError inTransaction : Bool) :
    Handled :=
  match state.connections.lookup connId with
  | none => refuse state (unknownConn connId)
  | some conn =>
    let reading := answers.call connId .getAutoCommit
    if answers.fails .getAutoCommit connId then ⟨state, [reading], .sqlError⟩
    else
      -- read from JDBC, not from the state of the transaction
      let originalAutoCommit := conn.connection.autoCommit
      if inTransaction then
        let disabling := answers.call connId .disableAutoCommit
        if answers.fails .disableAutoCommit connId then ⟨state, [reading, disabling], .sqlError⟩
        else
          let (connection, results, errors) := runStatements answers state connId stopOnError 0
            statements (conn.connection.setAutoCommit false)
          -- any error rolls the batch back
          let site := if errors.isEmpty then Site.commit else Site.rollback
          let connection :=
            -- the mode is restored in a `finally`, whether or not the batch could end
            if answers.fails site connId then connection
            else if errors.isEmpty then connection.commit
            else connection.rollback
          let calls := [reading, disabling, answers.call connId site,
            answers.call connId .restoreAutoCommit]
          if answers.fails .restoreAutoCommit connId then
            ⟨state.put connId { conn with connection := connection }, calls, .sqlError⟩
          else
            ⟨state.put connId
                { conn with connection := connection.setAutoCommit originalAutoCommit },
              calls, if answers.fails site connId then .sqlError else .batch results errors⟩
      else
        let (connection, results, errors) :=
          runStatements answers state connId stopOnError 0 statements conn.connection
        ⟨state.put connId { conn with connection := connection }, [reading], .batch results errors⟩

/-- The id of a transaction. -/
def txIdOf (n : ℕ) : String := "gbase8a-tx-" ++ Nat.repr n

/-- `handleTxBegin`: one transaction a connection, and autocommit goes off for it. -/
def handleTxBegin (connId : ℤ) : Handled :=
  match state.connections.lookup connId with
  | none => refuse state (unknownConn connId)
  | some conn =>
    if conn.activeTxId.isSome then
      refuse state (.invalidParams "connection already has an active transaction")
    else
      let reading := answers.call connId .getAutoCommit
      if answers.fails .getAutoCommit connId then ⟨state, [reading], .sqlError⟩
      else
        -- the mode is remembered even if switching it off fails then
        let conn := { conn with originalAutoCommit := conn.connection.autoCommit }
        let calls := [reading, answers.call connId .disableAutoCommit]
        if answers.fails .disableAutoCommit connId then
          ⟨state.put connId conn, calls, .sqlError⟩
        else
          let txId := txIdOf state.nextTxId
          let conn :=
            { conn with
              connection := conn.connection.setAutoCommit false
              activeTxId := some txId }
          ⟨{ state.put connId conn with
              nextTxId := state.nextTxId + 1
              transactions := state.transactions.insert txId ⟨connId, ∅⟩ },
            calls, .begun txId⟩

/-- `finishTransaction`, after a call: the transaction is forgotten before the mode is restored. -/
def finishTransaction (txId : String) (connId : ℤ) (conn : ConnectionState) (site : Site) :
    Handled :=
  let state := { state with transactions := state.transactions.erase txId }
  let calls := [answers.call connId site, answers.call connId .restoreAutoCommit]
  -- the id is gone, but the connection still counts as in a transaction
  if answers.fails .restoreAutoCommit connId then ⟨state.put connId conn, calls, .sqlError⟩
  else
    let conn :=
      { conn with
        connection := conn.connection.setAutoCommit conn.originalAutoCommit
        activeTxId := none }
    ⟨state.put connId conn, calls, .ok⟩

/-- `handleTxCommit`: a commit that fails leaves the transaction as it was. -/
def handleTxCommit (txId : String) : Handled :=
  match requireTransaction state txId (-1) with
  | .error reply => refuse state reply
  | .ok tx =>
    match state.connections.lookup tx.connId with
    | none => refuse state .internalError
    | some conn =>
      if answers.fails .commit tx.connId then
        ⟨state, [answers.call tx.connId .commit], .sqlError⟩
      else
        finishTransaction answers state txId tx.connId
          { conn with connection := conn.connection.commit } .commit

/-- `handleTxRollback`: to a savepoint, which leaves the transaction open, or the whole of it. -/
def handleTxRollback (txId toSavepoint : String) : Handled :=
  match requireTransaction state txId (-1) with
  | .error reply => refuse state reply
  | .ok tx =>
    if toSavepoint ≠ "" then
      match tx.savepoints.lookup toSavepoint with
      | none => refuse state (.invalidParams ("unknown savepoint `" ++ toSavepoint ++ "`"))
      | some savepoint =>
        -- `rollback(Savepoint)` leaves the transaction as it is
        match state.connections.lookup tx.connId with
        | none => refuse state .internalError
        | some conn =>
          let calls := [answers.call tx.connId .rollbackTo]
          if answers.fails .rollbackTo tx.connId then ⟨state, calls, .sqlError⟩
          else
            ⟨state.put tx.connId
                { conn with connection := conn.connection.rollbackTo savepoint }, calls, .ok⟩
    else
      match state.connections.lookup tx.connId with
      | none => refuse state .internalError
      | some conn =>
        if answers.fails .rollback tx.connId then
          ⟨state, [answers.call tx.connId .rollback], .sqlError⟩
        else
          finishTransaction answers state txId tx.connId
            { conn with connection := conn.connection.rollback } .rollback

/-- `handleTxSavepoint`: the name is that of the request, and a later one hides an earlier one. -/
def handleTxSavepoint (txId name : String) : Handled :=
  match requireTransaction state txId (-1) with
  | .error reply => refuse state reply
  | .ok tx =>
    match state.connections.lookup tx.connId with
    | none => refuse state .internalError
    | some conn =>
      let calls := [answers.call tx.connId .setSavepoint]
      if answers.fails .setSavepoint tx.connId then ⟨state, calls, .sqlError⟩
      else
        -- JDBC keeps the savepoint itself; here it is how much was pending
        let savepoints := tx.savepoints.insert name conn.connection.pending.length
        ⟨{ state with
            transactions := state.transactions.insert txId { tx with savepoints := savepoints } },
          calls, .ok⟩

/-- `handleTxRelease`: the name is forgotten, and what was done since it stays pending. -/
def handleTxRelease (txId name : String) : Handled :=
  match requireTransaction state txId (-1) with
  | .error reply => refuse state reply
  | .ok tx =>
    match tx.savepoints.lookup name with
    | none => refuse state (.invalidParams ("unknown savepoint `" ++ name ++ "`"))
    | some _ =>
      -- the name goes first, whether or not JDBC can release it
      let tx := { tx with savepoints := tx.savepoints.erase name }
      let state := { state with transactions := state.transactions.insert txId tx }
      match state.connections.lookup tx.connId with
      | none => refuse state .internalError
      | some _ =>
        ⟨state, [answers.call tx.connId .releaseSavepoint],
          if answers.fails .releaseSavepoint tx.connId then .sqlError else .ok⟩

/-- The first loop of `closeAll`, over the connections of transactions. -/
def rollbackAll (connections : AList fun _ : ℤ => ConnectionState) :
    List ℤ → (AList fun _ : ℤ => ConnectionState) × List JdbcCall
  | [] => (connections, [])
  | connId :: connIds =>
    match connections.lookup connId with
    | none => rollbackAll connections connIds
    | some conn =>
      let rolling := answers.call connId .rollback
      -- the error is kept, and the loop goes on
      if answers.fails .rollback connId then
        let (connections, rest) := rollbackAll connections connIds
        (connections, rolling :: rest)
      else
        let connection := conn.connection.rollback
        let connection :=
          if answers.fails .restoreAutoCommit connId then connection
          else connection.setAutoCommit conn.originalAutoCommit
        let (connections, rest) :=
          rollbackAll (connections.insert connId { conn with connection := connection }) connIds
        (connections, rolling :: answers.call connId .restoreAutoCommit :: rest)

/-- `closeAll`, the answer to `shutdown`: all that is open is rolled back and closed. -/
def closeAll : Handled :=
  let (connections, rolled) := rollbackAll answers state.connections
    (state.transactions.entries.map (·.2.connId))
  let calls := rolled ++ connections.entries.map fun entry => answers.call entry.1 .close
  ⟨{ state with
      transactions := ∅
      connections := ∅
      left := state.left ++ connections.entries.flatMap fun entry =>
        entry.2.connection.close (answers.survives entry.1) },
    calls, if calls.all (·.ok) then .ok else .sqlError⟩

/-- A request is handled. -/
def handle : Request → Handled
  | .connOpen => handleConnOpen answers state
  | .connClose connId => handleConnClose answers state connId
  | .queryStart connId txId _ => handleStatement answers state connId txId
  | .execRun connId txId _ => handleStatement answers state connId txId
  | .execBatch connId statements stopOnError inTransaction =>
    handleExecBatch answers state connId statements stopOnError inTransaction
  | .txBegin connId => handleTxBegin answers state connId
  | .txCommit txId => handleTxCommit answers state txId
  | .txRollback txId toSavepoint => handleTxRollback answers state txId toSavepoint
  | .txSavepoint txId name => handleTxSavepoint answers state txId name
  | .txRelease txId name => handleTxRelease answers state txId name
  | .shutdown => closeAll answers state

end Handlers

/-- A request, and how the database answers its calls. -/
structure Input where
  request : Request
  answers : Answers := {}

/-- The connection that is to be closed by a request. -/
def Request.closes : Request → Option ℤ
  | .connClose connId => some connId
  | _ => none

/-- What has come of a request: the transaction of the connection that it was to close, the calls, and
the answer. -/
structure Entry where
  request : Request
  live : Option String
  calls : List JdbcCall
  reply : Reply

/-- Requests are numbered, and each is recorded with the calls made for it and its answer. -/
def step (state : State) (input : Input) : State × List Entry :=
  let handled := handle input.answers state input.request
  ({ handled.state with requests := state.requests + 1 },
    [⟨input.request, input.request.closes.bind state.live, handled.calls, handled.reply⟩])

/-! ### Counters -/

/-- A request gives out one id of each kind at most. -/
structure Ticks (state next : State) : Prop where
  connId : next.nextConnId ≤ state.nextConnId + 1
  txId : next.nextTxId ≤ state.nextTxId + 1

section Counters

variable {answers : Answers} {state : State}

theorem Ticks.of_eq {next : State} (hconnId : next.nextConnId = state.nextConnId)
    (htxId : next.nextTxId = state.nextTxId) : Ticks state next :=
  ⟨by omega, by omega⟩

theorem Ticks.refl : Ticks state state := .of_eq rfl rfl

/-- Rolling the transactions of a connection back gives no id out. -/
theorem closeTransactions_counters (answers : Answers) (connId : ℤ) (ids : List String) (state : State) :
    (closeTransactions answers connId ids state).1.nextConnId = state.nextConnId ∧
      (closeTransactions answers connId ids state).1.nextTxId = state.nextTxId := by
  induction ids generalizing state with
  | nil => exact ⟨rfl, rfl⟩
  | cons id ids ih =>
    unfold closeTransactions
    split
    · exact ih _
    · dsimp only
      split
      · exact ⟨rfl, rfl⟩
      · split
        · exact ⟨rfl, rfl⟩
        · exact ih _

theorem handleConnOpen_ticks : Ticks state (handleConnOpen answers state).state := by
  unfold handleConnOpen
  dsimp only
  split
  · exact .refl
  · split
    · exact .refl
    · exact ⟨le_rfl, Nat.le_succ _⟩

theorem handleConnClose_ticks (connId : ℤ) :
    Ticks state (handleConnClose answers state connId).state := by
  unfold handleConnClose
  split
  · exact .refl
  · dsimp only
    obtain ⟨hconnId, htxId⟩ := closeTransactions_counters answers connId
      ((state.transactions.entries.filter fun entry => entry.2.connId = connId).map (·.1))
      { state with connections := state.connections.erase connId }
    split
    · exact .of_eq hconnId htxId
    · exact .of_eq hconnId htxId

theorem handleStatement_ticks (connId : ℤ) (txId : String) :
    Ticks state (handleStatement answers state connId txId).state := by
  unfold handleStatement
  split
  · exact .refl
  · split
    · exact .refl
    · exact .of_eq rfl rfl

theorem handleExecBatch_ticks (connId : ℤ) (statements : List String)
    (stopOnError inTransaction : Bool) :
    Ticks state (handleExecBatch answers state connId statements stopOnError inTransaction).state := by
  unfold handleExecBatch
  split
  · exact .refl
  · dsimp only
    split
    · exact .refl
    · split
      · split
        · exact .refl
        · split
          · exact .of_eq rfl rfl
          · exact .of_eq rfl rfl
      · exact .of_eq rfl rfl

theorem handleTxBegin_ticks (connId : ℤ) :
    Ticks state (handleTxBegin answers state connId).state := by
  unfold handleTxBegin
  split
  · exact .refl
  · split
    · exact .refl
    · dsimp only
      split
      · exact .refl
      · split
        · exact .of_eq rfl rfl
        · exact ⟨Int.le_add_one le_rfl, le_rfl⟩

theorem finishTransaction_ticks (txId : String) (connId : ℤ) (conn : ConnectionState) (site : Site) :
    Ticks state (finishTransaction answers state txId connId conn site).state := by
  unfold finishTransaction
  dsimp only
  split
  · exact .of_eq rfl rfl
  · exact .of_eq rfl rfl

theorem handleTxCommit_ticks (txId : String) :
    Ticks state (handleTxCommit answers state txId).state := by
  unfold handleTxCommit
  split
  · exact .refl
  · split
    · exact .refl
    · split
      · exact .refl
      · exact finishTransaction_ticks _ _ _ _

theorem handleTxRollback_ticks (txId toSavepoint : String) :
    Ticks state (handleTxRollback answers state txId toSavepoint).state := by
  unfold handleTxRollback
  split
  · exact .refl
  · split
    · split
      · exact .refl
      · split
        · exact .refl
        · dsimp only
          split
          · exact .refl
          · exact .of_eq rfl rfl
    · split
      · exact .refl
      · split
        · exact .refl
        · exact finishTransaction_ticks _ _ _ _

theorem handleTxSavepoint_ticks (txId name : String) :
    Ticks state (handleTxSavepoint answers state txId name).state := by
  unfold handleTxSavepoint
  split
  · exact .refl
  · split
    · exact .refl
    · dsimp only
      split
      · exact .refl
      · exact .of_eq rfl rfl

theorem handleTxRelease_ticks (txId name : String) :
    Ticks state (handleTxRelease answers state txId name).state := by
  unfold handleTxRelease
  split
  · exact .refl
  · split
    · exact .refl
    · dsimp only
      split
      · exact .of_eq rfl rfl
      · exact .of_eq rfl rfl

theorem handle_ticks (request : Request) : Ticks state (handle answers state request).state := by
  cases request with
  | connOpen => exact handleConnOpen_ticks
  | connClose connId => exact handleConnClose_ticks connId
  | queryStart connId txId _ => exact handleStatement_ticks connId txId
  | execRun connId txId _ => exact handleStatement_ticks connId txId
  | execBatch connId statements stopOnError inTransaction =>
    exact handleExecBatch_ticks connId statements stopOnError inTransaction
  | txBegin connId => exact handleTxBegin_ticks connId
  | txCommit txId => exact handleTxCommit_ticks txId
  | txRollback txId toSavepoint => exact handleTxRollback_ticks txId toSavepoint
  | txSavepoint txId name => exact handleTxSavepoint_ticks txId name
  | txRelease txId name => exact handleTxRelease_ticks txId name
  | shutdown => exact .of_eq rfl rfl

/-- **The next ids after a run.** No more ids than requests have been given out, so that a run of less
than 2 ^ 63 - 1 requests stays within a `long`. -/
theorem run_counters (inputs : List Input) :
    (Machine.run step .initial inputs).1.nextConnId ≤ inputs.length + 1 ∧
      (Machine.run step .initial inputs).1.nextTxId ≤ inputs.length + 1 := by
  refine Machine.run_history (P := fun _ => True)
    (H := fun inputs _ (state : State) =>
      state.nextConnId ≤ inputs.length + 1 ∧ state.nextTxId ≤ inputs.length + 1)
    (fun _ _ h => h) ?_ ⟨le_rfl, le_rfl⟩ trivial
  rintro inputs _ state input ⟨hconnId, htxId⟩ -
  have hticks := @handle_ticks input.answers state input.request
  rw [List.length_append, List.length_singleton]
  constructor
  · have hone : (step state input).1.nextConnId ≤ state.nextConnId + 1 := hticks.connId
    push_cast
    omega
  · have hone : (step state input).1.nextTxId ≤ state.nextTxId + 1 := hticks.txId
    omega

end Counters

end Gbase8a
end Navop
