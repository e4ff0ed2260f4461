import NavopExtensions.Duckdb.Value
import NavopExtensions.Lib.Machine
import NavopExtensions.Lib.Saturating
import NavopExtensions.Lib.Text

/-!
# A DuckDB connection: transactions, statements and imports

Three kinds of requests open transactions of the one engine behind a connection: `tx/begin`, an
`exec/batch` in a transaction, and `data/import_begin`. The driver keeps a table of transactions and a
table of imports beside the engine.

The engine is the abstract one of a transactional store. What it says to a request is given with the
request (`Answers`).
-/

namespace Navop
namespace Duckdb

open Saturating

/-! ### The engine -/

/-- What the engine says to a call: a call that would be possible may fail all the same, and may abort
the open transaction then. -/
structure Said where
  fails : Bool
  aborts : Bool
  message : String
  deriving DecidableEq

/-- The engine has no objection. -/
def Said.yes : Said := ⟨false, false, ""⟩

/-- A transaction, with what it has done; after it is aborted it can only be rolled back. -/
structure Transaction (ε : Type*) where
  effects : List ε
  aborted : Bool
  deriving DecidableEq

/-- The engine behind a connection has one open transaction at most. -/
structure Engine (ε : Type*) where
  durable : List ε
  transaction : Option (Transaction ε)
  deriving DecidableEq

namespace Engine

variable {ε : Type*}

/-- `BEGIN`: refused inside of a transaction. -/
def begin (engine : Engine ε) (said : Said) : Engine ε × Except String Unit :=
  match engine.transaction with
  | none =>
    if said.fails then (engine, .error said.message)
    else ({ engine with transaction := some ⟨[], false⟩ }, .ok ())
  | some _ => (engine, .error said.message)

/-- `COMMIT`: the effects become durable, unless the transaction is aborted. -/
def commit (engine : Engine ε) (said : Said) : Engine ε × Except String Unit :=
  match engine.transaction with
  | none => (engine, .error said.message)
  | some transaction =>
    -- an aborted transaction cannot be committed, and stays until it is rolled back
    if said.fails || transaction.aborted then (engine, .error said.message)
    else (⟨engine.durable ++ transaction.effects, none⟩, .ok ())

/-- `ROLLBACK`: the effects are dropped, those of an aborted transaction as well. -/
def rollback (engine : Engine ε) (said : Said) : Engine ε × Except String Unit :=
  match engine.transaction with
  | none => (engine, .error said.message)
  | some _ =>
    if said.fails then (engine, .error said.message)
    else ({ engine with transaction := none }, .ok ())

/-- Any other statement, with its effects. Outside of a transaction it is one by itself. -/
def execute (engine : Engine ε) (said : Said) (effects : List ε) : Engine ε × Except String Unit :=
  match engine.transaction with
  | none =>
    if said.fails then (engine, .error said.message)
    else ({ engine with durable := engine.durable ++ effects }, .ok ())
  | some transaction =>
    -- after a statement that aborts the transaction every other one fails
    if transaction.aborted then (engine, .error said.message)
    else if said.fails then
      ({ engine with transaction := some { transaction with aborted := said.aborts } },
        .error said.message)
    else
      ({ engine with transaction := some { transaction with effects := transaction.effects ++ effects } },
        .ok ())

end Engine

/-! ### Errors -/

/-- The codes of the errors below. -/
inductive ErrorCode
  | invalidParams
  | unknownTxId
  | unknownImportId
  | txNestedNotSupported
  | txIsolationNotSupported
  | txRollbackRequired
  | dataTypeMismatch
  | sqlUnknownTable
  | sqlUnknownColumn
  | sqlUnknownFunction
  | sqlUniqueViolation
  | sqlNotNullViolation
  | sqlCheckViolation
  | sqlConstraintViolation
  | sqlObjectAlreadyExists
  | sqlSyntaxError
  deriving DecidableEq

/-- `ProtocolError`: a code, and a message for the user. -/
structure ProtocolError where
  code : ErrorCode
  message : String
  deriving DecidableEq

/-- `invalid_params`: the error for parameters that are wrong. -/
def invalidParams (message : String) : ProtocolError := ⟨.invalidParams, message⟩

/-- `missing_param`: the error for a parameter that is not there. -/
def missingParam (name : String) : ProtocolError :=
  invalidParams ("missing required parameter `" ++ name ++ "`")

/-- `unknown_tx`: the error for an id that names no live transaction. -/
def unknownTx (id : String) : ProtocolError := ⟨.unknownTxId, "unknown tx_id `" ++ id ++ "`"⟩

/-- `unknown_import`: the error for an id that names no live import. -/
def unknownImport (id : String) : ProtocolError :=
  ⟨.unknownImportId, "unknown import_id `" ++ id ++ "`"⟩

/-- `classify_duckdb_sql_error`: the code is read off the message of the engine, the first words that match
deciding. -/
def classifyDuckdbSqlError (message : String) : ErrorCode :=
  let contains := containsText (message.map Char.toLower)
  if contains "table" && contains "does not exist" then .sqlUnknownTable
  else if contains "column" && contains "does not exist" then .sqlUnknownColumn
  else if contains "function" && contains "does not exist" then .sqlUnknownFunction
  else if contains "duplicate key" || contains "unique constraint" || contains "primary key" then
    .sqlUniqueViolation
  else if contains "not null constraint" || contains "not-null constraint" then .sqlNotNullViolation
  else if contains "check constraint" then .sqlCheckViolation
  else if contains "constraint" then .sqlConstraintViolation
  else if contains "already exists" then .sqlObjectAlreadyExists
  else .sqlSyntaxError

/-- `duckdb_sql_error`: the message of the engine, with the code that it is classified as. -/
def duckdbSqlError (message : String) : ProtocolError := ⟨classifyDuckdbSqlError message, message⟩

/-- The error of `exec_tx_control`: the client has to roll back, whatever the engine says. -/
def txControlError (message : String) : ProtocolError := ⟨.txRollbackRequired, message⟩

/-- The error for a second transaction. -/
def nestedTx : ProtocolError :=
  ⟨.txNestedNotSupported, "DuckDB driver supports one active transaction per connection"⟩

/-! ### Imports -/

/-- `Row`: the cells of one row. -/
abbrev Row := List CellValue

/-- `DataFormat`; the formats that are not supported are in their name. -/
inductive DataFormat
  | csv
  | json
  | ndjson
  | other (name : String)
  deriving DecidableEq

/-- `ImportOptions`, as the request to begin sets them. -/
structure ImportOptions where
  upsert : Bool
  onConflictColumns : List String
  disableTriggers : Bool
  trackFailedRows : Bool
  abortOnFailures : Option UInt32
  deriving DecidableEq

/-- `FailedRow`: the number of a row in its import, and why it failed. -/
structure FailedRow where
  rowIndex : ℕ
  message : String
  code : ErrorCode
  deriving DecidableEq

/-- `ImportState`: what an import inserts into, what it has counted, and the number of the next row. -/
structure ImportState where
  tableRef : String
  columns : List String
  options : ImportOptions
  inserted : ℕ
  failed : List FailedRow
  failedCount : ℕ
  nextRow : ℕ
  deriving DecidableEq

namespace ImportState

/-- `ImportState::new`: nothing is counted yet. -/
def new (tableRef : String) (columns : List String) (options : ImportOptions) : ImportState :=
  ⟨tableRef, columns, options, 0, [], 0, 0⟩

/-- `record_inserted`: one row more, in the count and in the numbering. -/
def recordInserted (importState : ImportState) : ImportState :=
  { importState with
    inserted := saturatingAdd importState.inserted 1
    nextRow := saturatingAdd importState.nextRow 1 }

/-- `record_failed`; the row is reported if failures are tracked. -/
def recordFailed (importState : ImportState) (message : String) (code : ErrorCode) :
    ImportState × Option FailedRow :=
  let failed : FailedRow := ⟨importState.nextRow, message, code⟩
  let importState := { importState with
    failedCount := saturatingAdd importState.failedCount 1
    nextRow := saturatingAdd importState.nextRow 1 }
  -- the count goes up in either case, which is what the threshold looks at
  if importState.options.trackFailedRows then
    ({ importState with failed := importState.failed ++ [failed] }, some failed)
  else (importState, none)

end ImportState

/-- `quote_sql_identifier`, character by character. -/
def quoteSqlIdentifier (name : List Char) : List Char :=
  '"' :: name.flatMap (fun c => if c = '"' then ['"', '"'] else [c]) ++ ['"']

/-- A quoted name, as a string. -/
def quotedName (name : String) : String := String.ofList (quoteSqlIdentifier name.toList)

/-- A schema that is not blank. -/
def namedSchema (schema : Option String) : Option String :=
  schema.filter fun schema => !(Text.trim schema.toList).isEmpty

/-- `qualified_table_ref`: the table, behind its schema if one is named. -/
def qualifiedTableRef (schema : Option String) (table : String) : String :=
  match namedSchema schema with
  | some schema => quotedName schema ++ "." ++ quotedName table
  | none => quotedName table

/-- `insert_sql`: a statement with a placeholder for each column. -/
def insertSql (importState : ImportState) : String :=
  "INSERT INTO " ++ importState.tableRef ++ " ("
    ++ ", ".intercalate (importState.columns.map quotedName)
    ++ ") VALUES (" ++ ", ".intercalate (importState.columns.map fun _ => "?") ++ ")"

/-- What a statement has done. -/
structure Effect where
  sql : String
  values : List Value
  deriving DecidableEq

/-- Libraries of the driver. -/
structure Library where
  serde : Serde
  decode : String → Except String (List UInt8)

/-- `collect` of results: the first error, if there is one. -/
def collect {α β : Type*} (f : α → Except String β) : List α → Except String (List β)
  | [] => .ok []
  | a :: as =>
    match f a with
    | .error error => .error error
    | .ok b =>
      match collect f as with
      | .error error => .error error
      | .ok bs => .ok (b :: bs)

section Chunks

variable (library : Library)

/-- The values of a row. -/
def Library.values (row : Row) : Except String (List Value) :=
  collect (cellValueToDuckdbValue library.serde library.decode) row

/-- What becomes of a row: it is inserted, or it fails and may be reported. -/
inductive Insertion
  | inserted
  | failed (row : Option FailedRow)
  deriving DecidableEq

/-- A row that has failed. -/
def failRow (engine : Engine Effect) (importState : ImportState) (message : String)
    (code : ErrorCode) : Engine Effect × ImportState × Insertion :=
  let (importState, failed) := importState.recordFailed message code
  (engine, importState, .failed failed)

/-- `insert_row`: a row of the wrong length or with a value that does not convert fails without a
statement. -/
def insertRow (engine : Engine Effect) (importState : ImportState) (row : Row) (said : Said) :
    Engine Effect × ImportState × Insertion :=
  -- the row fails for the driver, the engine never hears of it
  if row.length ≠ importState.columns.length then
    failRow engine importState ("expected " ++ toString importState.columns.length ++ " values, got "
      ++ toString row.length) .dataTypeMismatch
  else
    match library.values row with
    | .error error =>
      failRow engine importState ("invalid import row value: " ++ error) .dataTypeMismatch
    | .ok values =>
      -- the engine may have aborted the transaction with the row it refuses
      match engine.execute said [⟨insertSql importState, values⟩] with
      | (engine, .ok ()) => (engine, importState.recordInserted, .inserted)
      | (engine, .error message) =>
        failRow engine importState message (classifyDuckdbSqlError message)

/-- `enforce_failure_threshold`, as a test: more failures than the limit, if there is one. -/
def exceedsThreshold (importState : ImportState) : Bool :=
  match importState.options.abortOnFailures with
  | some limit => decide (limit.toNat < importState.failedCount)
  | none => false

/-- The error of `enforce_failure_threshold`, which leaves the rollback to the client. -/
def thresholdExceeded : ProtocolError :=
  ⟨.dataTypeMismatch, "data/import failure threshold exceeded; call data/import_abort to roll back"⟩

/-- `ImportChunkResult`: what is reported of one chunk. -/
structure ImportChunkResult where
  inserted : ℕ
  failed : List FailedRow
  deriving DecidableEq

/-- A row of a chunk in the result of the chunk. -/
def ImportChunkResult.record (result : ImportChunkResult) : Insertion → ImportChunkResult
  | .inserted => { result with inserted := saturatingAdd result.inserted 1 }
  | .failed (some row) => { result with failed := result.failed ++ [row] }
  | .failed none => result

/-- The loop of `run_import_chunk`, from the row with the number `index` on. -/
def insertRows (answers : ℕ → Said) (engine : Engine Effect) (importState : ImportState)
    (result : ImportChunkResult) (index : ℕ) :
    List Row → Engine Effect × ImportState × Except ProtocolError ImportChunkResult
  | [] => (engine, importState, .ok result)
  | row :: rows =>
    let (engine, importState, insertion) := insertRow library engine importState row (answers index)
    -- the rows before this one stay inserted, and the import goes back into the table
    if exceedsThreshold importState then (engine, importState, .error thresholdExceeded)
    else insertRows answers engine importState (result.record insertion) (index + 1) rows

/-- `run_import_chunk`; `prepares` is for the preparation of the statement. -/
def runImportChunk (engine : Engine Effect) (importState : ImportState) (rows : List Row)
    (prepares : Said) (answers : ℕ → Said) :
    Engine Effect × ImportState × Except ProtocolError ImportChunkResult :=
  if rows.isEmpty then (engine, importState, .ok ⟨0, []⟩)
  else
    -- the statement is prepared once for the chunk
    match engine.execute prepares [] with
    | (engine, .error message) => (engine, importState, .error (duckdbSqlError message))
    | (engine, .ok ()) => insertRows library answers engine importState ⟨0, []⟩ 0 rows

end Chunks

/-! ### The state of the driver -/

/-- `ConnectionState`, with the engine of its one connection. -/
structure ConnectionState where
  engine : Engine Effect
  imports : Finmap fun _ : String => ImportState
  txs : Finset String
  activeTx : Option String
  nextImportId : UInt64
  nextTxId : UInt64

namespace ConnectionState

/-- `ConnectionState::with_conn`, of an empty database. -/
def withConn : ConnectionState := ⟨⟨[], none⟩, ∅, ∅, none, 1, 1⟩

/-- `has_active_tx`: whether a transaction of the client or of an import is live. -/
def hasActiveTx (state : ConnectionState) : Bool := state.activeTx.isSome

/-- `begin_tx`: the next id becomes the active transaction, if there is none. -/
def beginTx (state : ConnectionState) : Option (ConnectionState × String) :=
  if state.hasActiveTx then none
  else
    -- `u64` counters wrap around
    let txId := "tx-" ++ toString state.nextTxId.toNat
    some ({ state with
      nextTxId := state.nextTxId + 1
      txs := insert txId state.txs
      activeTx := some txId }, txId)

/-- `close_tx`: the transaction is forgotten, and is active no more. -/
def closeTx (state : ConnectionState) (txId : String) : ConnectionState :=
  if txId ∈ state.txs then
    { state with
      txs := state.txs.erase txId
      -- an id that is not the active one leaves the active one alone
      activeTx := if state.activeTx = some txId then none else state.activeTx }
  else state

/-- `open_import`: the import is put under the next id. -/
def openImport (state : ConnectionState) (importState : ImportState) : ConnectionState × String :=
  let importId := "i-" ++ toString state.nextImportId.toNat
  ({ state with
    nextImportId := state.nextImportId + 1
    imports := state.imports.insert importId importState }, importId)

/-- `remove_import`: the import is forgotten. -/
def removeImport (state : ConnectionState) (importId : String) : ConnectionState :=
  { state with imports := state.imports.erase importId }

/-- `insert_import`: an import that was taken out is put back under its id. -/
def insertImport (state : ConnectionState) (importId : String) (importState : ImportState) :
    ConnectionState :=
  { state with imports := state.imports.insert importId importState }

end ConnectionState

/-! ### Requests -/

/-- `IsolationLevel`, as far as it matters. -/
inductive IsolationLevel
  | default
  | other (name : String)
  deriving DecidableEq

/-- `TxBeginParams`: what a client may ask of a transaction. -/
structure TxBeginParams where
  isolation : Option IsolationLevel
  readOnly : Bool
  deferrable : Option Bool
  deriving DecidableEq

/-- `ImportBeginParams`: the table, the format, the columns and the options of an import. -/
structure ImportBeginParams where
  table : String
  schema : Option String
  database : Option String
  format : DataFormat
  columns : List String
  options : ImportOptions
  deriving DecidableEq

/-- The requests that reach the engine's transaction. -/
inductive Request
  | txBegin (params : TxBeginParams)
  | txCommit (txId : String)
  | txRollback (txId : String) (toSavepoint : Option String)
  | execRun (txId : Option String) (sql : String) (params : List CellValue)
  | execBatch (statements : List String) (inTransaction stopOnError : Bool)
  | importBegin (params : ImportBeginParams)
  | importChunk (importId : String) (rows : List Row)
  | importCommit (importId : String)
  | importAbort (importId : String)

/-- What the engine says to the calls of a request: to the statement that begins a transaction, to the
one that ends it, to a query or a preparation, and to the statements or rows of the request. -/
structure Answers where
  begins : Said
  ends : Said
  query : Said
  tableColumns : List String
  statements : ℕ → Said

/-- `BatchError`: the place of a statement in its batch, and why it failed. -/
structure BatchError where
  index : ℕ
  code : ErrorCode
  message : String
  deriving DecidableEq

/-- The results of the requests; what the engine counts is left out. -/
inductive Reply
  | null
  | txBegin (txId : String)
  | execRun
  | execBatch (results : ℕ) (errors : List BatchError)
  | importBegin (importId : String)
  | importChunk (result : ImportChunkResult)
  | importCommit (inserted : ℕ) (failed : List FailedRow)
  deriving DecidableEq

/-- `validate_tx_begin_options`: only the default isolation, and nothing read-only or deferrable. -/
def validateTxBeginOptions (params : TxBeginParams) : Except ProtocolError Unit :=
  if params.readOnly || params.deferrable.getD false then
    .error ⟨.txIsolationNotSupported,
      "DuckDB driver does not support read_only or deferrable transaction options"⟩
  else
    match params.isolation with
    -- the engine has one level, which is what none asks for
    | none | some .default => .ok ()
    | some (.other _) => .error ⟨.txIsolationNotSupported,
        "DuckDB driver does not support custom transaction isolation levels"⟩

/-- `validate_database`: the one database there is, or none named. -/
def validateDatabase (database : Option String) : Except ProtocolError Unit :=
  match database with
  | none => .ok ()
  | some database =>
    if database = "" ∨ database = "main" then .ok ()
    else .error (invalidParams
      ("DuckDB data/import only supports database `main`, got `" ++ database ++ "`"))

/-- `validate_import_format`: the three formats that are known. -/
def validateImportFormat : DataFormat → Except ProtocolError Unit
  | .csv | .json | .ndjson => .ok ()
  | .other name =>
    .error (invalidParams ("DuckDB data/import does not support format `" ++ name ++ "` yet"))

/-- `validate_import_options`: neither upserts nor disabled triggers. -/
def validateImportOptions (options : ImportOptions) : Except ProtocolError Unit :=
  if options.upsert || !options.onConflictColumns.isEmpty then
    .error (invalidParams "DuckDB data/import upsert is not implemented yet")
  else if options.disableTriggers then
    .error (invalidParams
      "DuckDB data/import cannot disable triggers because triggers are unsupported")
  else .ok ()

/-- `validate_begin_params`: the checks of an import, in their order; a live transaction comes last. -/
def validateBeginParams (state : ConnectionState) (params : ImportBeginParams) :
    Except ProtocolError Unit := do
  if (Text.trim params.table.toList).isEmpty then
    throw (missingParam "table")
  validateDatabase params.database
  validateImportFormat params.format
  validateImportOptions params.options
  -- the import brings a transaction of its own, and the engine has only one
  if state.hasActiveTx then
    throw ⟨.txNestedNotSupported,
      "DuckDB data/import cannot run inside an active wire transaction"⟩
  -- no columns at all are fine: they stand for all of the table's
  if params.columns.any fun column => (Text.trim column.toList).isEmpty then
    throw (invalidParams "data/import columns must not be empty")

/-- `selected_import_columns`: the columns asked for, or all of the table's; one that the table lacks is an
error. -/
def selectedImportColumns (tableColumns requested : List String) :
    Except ProtocolError (List String) :=
  let columns := if requested.isEmpty then tableColumns else requested
  -- the first unknown name is the one in the message
  match columns.find? (· ∉ tableColumns) with
  | some column => .error ⟨.sqlUnknownColumn, "unknown import column `" ++ column ++ "`"⟩
  | none => .ok columns

/-- The checks of `load_table_columns` and `selected_import_columns` on the columns of the table. -/
def importColumns (params : ImportBeginParams) (tableColumns : List String) :
    Except ProtocolError (List String) :=
  if tableColumns.isEmpty then
    .error ⟨.sqlUnknownTable, "unknown import table `" ++ params.table ++ "`"⟩
  else selectedImportColumns tableColumns params.columns

section Handlers

variable (library : Library)

/-- `handle_tx_begin`: the options, a live transaction and the engine may each refuse. -/
def handleTxBegin (state : ConnectionState) (params : TxBeginParams) (answers : Answers) :
    ConnectionState × Except ProtocolError Reply :=
  match validateTxBeginOptions params with
  | .error error => (state, .error error)
  | .ok () =>
    -- the driver refuses before the engine could
    if state.hasActiveTx then (state, .error nestedTx)
    else
      match state.engine.begin answers.begins with
      | (engine, .error message) => ({ state with engine := engine }, .error (txControlError message))
      | (engine, .ok ()) =>
        match ConnectionState.beginTx { state with engine := engine } with
        -- never met: the check above has been passed
        | none => ({ state with engine := engine }, .error nestedTx)
        | some (state, txId) => (state, .ok (.txBegin txId))

/-- `handle_tx_commit`: the transaction is closed only if the engine commits. -/
def handleTxCommit (state : ConnectionState) (txId : String) (answers : Answers) :
    ConnectionState × Except ProtocolError Reply :=
  if txId ∉ state.txs then (state, .error (unknownTx txId))
  else
    match state.engine.commit answers.ends with
    -- the id stays, so that the client can still roll back
    | (engine, .error message) => ({ state with engine := engine }, .error (txControlError message))
    | (engine, .ok ()) => (ConnectionState.closeTx { state with engine := engine } txId, .ok .null)

/-- `handle_tx_rollback`: the transaction is closed only if the engine rolls back; savepoints are
refused. -/
def handleTxRollback (state : ConnectionState) (txId : String) (toSavepoint : Option String)
    (answers : Answers) : ConnectionState × Except ProtocolError Reply :=
  if txId ∉ state.txs then (state, .error (unknownTx txId))
  -- the engine has no savepoints
  else if toSavepoint.isSome then
    (state, .error ⟨.txNestedNotSupported, "DuckDB driver does not support savepoints"⟩)
  else
    match state.engine.rollback answers.ends with
    | (engine, .error message) => ({ state with engine := engine }, .error (txControlError message))
    | (engine, .ok ()) => (ConnectionState.closeTx { state with engine := engine } txId, .ok .null)

/-- `handle_exec_run`: the transaction named has to be live, and the parameters have to convert. -/
def handleExecRun (state : ConnectionState) (txId : Option String) (sql : String)
    (params : List CellValue) (answers : Answers) :
    ConnectionState × Except ProtocolError Reply :=
  -- no `tx_id` is fine, with a transaction open too: there is one connection
  match txId.filter (· ∉ state.txs) with
  | some txId => (state, .error (unknownTx txId))
  | none =>
    match library.values params with
    | .error error => (state, .error (invalidParams ("invalid bound parameter: " ++ error)))
    | .ok values =>
      match state.engine.execute (answers.statements 0) [⟨sql, values⟩] with
      | (engine, .error message) => ({ state with engine := engine }, .error (duckdbSqlError message))
      | (engine, .ok ()) => ({ state with engine := engine }, .ok .execRun)

/-- The loop of `run_exec_batch`, from the statement with the number `index` on. -/
def runExecBatch (answers : ℕ → Said) (stopOnError : Bool) (engine : Engine Effect) (index : ℕ)
    (errors : List BatchError) : List String → Engine Effect × ℕ × List BatchError
  | [] => (engine, index, errors)
  | sql :: statements =>
    match engine.execute (answers index) [⟨sql, []⟩] with
    | (engine, .ok ()) => runExecBatch answers stopOnError engine (index + 1) errors statements
    | (engine, .error message) =>
      let errors := errors ++ [⟨index, classifyDuckdbSqlError message, message⟩]
      -- the statement that fails counts as a result
      if stopOnError then (engine, index + 1, errors)
      else runExecBatch answers stopOnError engine (index + 1) errors statements

/-- The end of `handle_exec_batch` in a transaction: without errors it is committed. -/
def endBatch (engine : Engine Effect) (errors : List BatchError) (said : Said) :
    Engine Effect × Except String Unit :=
  if errors.isEmpty then engine.commit said else engine.rollback said

/-- `handle_exec_batch`: in a transaction of its own if asked for, which ends with a rollback after an
error. -/
def handleExecBatch (state : ConnectionState) (statements : List String)
    (inTransaction stopOnError : Bool) (answers : Answers) :
    ConnectionState × Except ProtocolError Reply :=
  if inTransaction then
    -- no id is given for this transaction, whoever begins it has to end it here
    match state.engine.begin answers.begins with
    | (engine, .error message) => ({ state with engine := engine }, .error (txControlError message))
    | (engine, .ok ()) =>
      let (engine, results, errors) :=
        runExecBatch answers.statements stopOnError engine 0 [] statements
      match endBatch engine errors answers.ends with
      | (engine, .error message) => ({ state with engine := engine }, .error (txControlError message))
      | (engine, .ok ()) => ({ state with engine := engine }, .ok (.execBatch results errors))
  else
    let (engine, results, errors) :=
      runExecBatch answers.statements stopOnError state.engine 0 [] statements
    ({ state with engine := engine }, .ok (.execBatch results errors))

/-- `handle_data_import_begin`: the checks, the columns of the table, and then a transaction for the
import. -/
def handleDataImportBegin (state : ConnectionState) (params : ImportBeginParams)
    (answers : Answers) : ConnectionState × Except ProtocolError Reply :=
  match validateBeginParams state params with
  | .error error => (state, .error error)
  | .ok () =>
    -- `load_table_columns`, outside of any transaction
    match state.engine.execute answers.query [] with
    | (engine, .error message) => ({ state with engine := engine }, .error (duckdbSqlError message))
    | (engine, .ok ()) =>
      match importColumns params answers.tableColumns with
      | .error error => ({ state with engine := engine }, .error error)
      | .ok columns =>
        -- the transaction of the import is no `tx_id` of the client
        match engine.begin answers.begins with
        | (engine, .error message) => ({ state with engine := engine }, .error (txControlError message))
        | (engine, .ok ()) =>
          let (state, importId) := ConnectionState.openImport { state with engine := engine }
            (ImportState.new (qualifiedTableRef params.schema params.table) columns params.options)
          (state, .ok (.importBegin importId))

/-- `handle_data_import_chunk`: the rows are inserted into the import's transaction. -/
def handleDataImportChunk (state : ConnectionState) (importId : String) (rows : List Row)
    (answers : Answers) : ConnectionState × Except ProtocolError Reply :=
  match state.imports.lookup importId with
  | none => (state, .error (unknownImport importId))
  | some importState =>
    let (engine, importState, result) :=
      runImportChunk library state.engine importState rows answers.query answers.statements
    let state := ConnectionState.insertImport
      { state.removeImport importId with engine := engine } importId importState
    (state, result.map .importChunk)

/-- `handle_data_import_commit`: the import is forgotten, even if the engine refuses to commit. -/
def handleDataImportCommit (state : ConnectionState) (importId : String) (answers : Answers) :
    ConnectionState × Except ProtocolError Reply :=
  match state.imports.lookup importId with
  | none => (state, .error (unknownImport importId))
  | some importState =>
    let state := state.removeImport importId
    match state.engine.commit answers.ends with
    | (engine, .error message) => ({ state with engine := engine }, .error (txControlError message))
    | (engine, .ok ()) =>
      ({ state with engine := engine }, .ok (.importCommit importState.inserted importState.failed))

/-- `handle_data_import_abort`: the import is forgotten, even if the engine refuses to roll back. -/
def handleDataImportAbort (state : ConnectionState) (importId : String) (answers : Answers) :
    ConnectionState × Except ProtocolError Reply :=
  match state.imports.lookup importId with
  | none => (state, .error (unknownImport importId))
  | some _ =>
    let state := state.removeImport importId
    match state.engine.rollback answers.ends with
    | (engine, .error message) => ({ state with engine := engine }, .error (txControlError message))
    | (engine, .ok ()) => ({ state with engine := engine }, .ok .null)

/-- A request is handled. -/
def handle (state : ConnectionState) (request : Request) (answers : Answers) :
    ConnectionState × Except ProtocolError Reply :=
  match request with
  | .txBegin params => handleTxBegin state params answers
  | .txCommit txId => handleTxCommit state txId answers
  | .txRollback txId toSavepoint => handleTxRollback state txId toSavepoint answers
  | .execRun txId sql params => handleExecRun library state txId sql params answers
  | .execBatch statements inTransaction stopOnError =>
    handleExecBatch state statements inTransaction stopOnError answers
  | .importBegin params => handleDataImportBegin state params answers
  | .importChunk importId rows => handleDataImportChunk library state importId rows answers
  | .importCommit importId => handleDataImportCommit state importId answers
  | .importAbort importId => handleDataImportAbort state importId answers

/-- Requests are handled one after another. -/
def step (state : ConnectionState) (input : Request × Answers) :
    ConnectionState × List (Except ProtocolError Reply) :=
  ((handle library state input.1 input.2).1, [(handle library state input.1 input.2).2])

end Handlers

end Duckdb
end Navop
