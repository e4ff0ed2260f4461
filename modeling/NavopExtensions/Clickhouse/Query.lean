import NavopExtensions.Lib.Text

/-!
# Starting a query on ClickHouse

`query/start` of the ClickHouse driver: the statement is sent with a request for JSON, and if nothing
comes of that, it is sent once more as a plain statement. What the server does with a request, and what
becomes of its answer, is the server's and the network's business: each of the two requests has an
`Attempt`. A statement is executed twice exactly when the first request was executed and its answer was
no use (`executed_once_iff`).
-/

namespace Navop
namespace Clickhouse

variable {Json Spec Cell : Type*}

/-- `JsonMeta`: a column of the answer, with its name and its type. -/
structure JsonMeta where
  name : String
  dataType : String

/-- `JsonCompact`: the answer in the format `JSONCompact`, columns first and then rows of values. -/
structure JsonCompact (Json : Type*) where
  columns : List JsonMeta
  data : List (List Json)

/-- `value::column_spec`, `value::decode_cell`, the value of an empty cell, and the parser of a
response. -/
structure Decoder (Json Spec Cell : Type*) where
  columnSpec : JsonMeta → Spec
  decodeCell : JsonMeta → Json → Cell
  null : Cell
  parse : List UInt8 → Except String (JsonCompact Json)

/-- What has become of a request that carries the statement: whether the server has executed it, and
what has come back. -/
structure Attempt (α : Type*) where
  executed : Bool
  outcome : Except String α

/-- The requests of one `query/start`: the one for JSON, the plain one after it, and if a timeout
strikes, during which of them. -/
structure Exchange where
  fetch : Attempt (List UInt8)
  execute : Attempt Unit
  timeout : Option (Fin 2)

/-- `CursorState`: the rows that were fetched, and how many of them have been handed out. -/
structure CursorState (Spec Cell : Type*) where
  columns : List Spec
  rows : List (List Cell)
  next : ℕ
  fetchSize : Option UInt32
  done : Bool

/-- `CursorState::new`: the rows are cut at `max_rows`, and a cursor without rows is done from the start. -/
def CursorState.new (columns : List Spec) (rows : List (List Cell)) (fetchSize : Option UInt32)
    (maxRows : Option UInt64) : CursorState Spec Cell :=
  let rows := match maxRows with
    | some maxRows => rows.take maxRows.toNat
    | none => rows
  ⟨columns, rows, 0, fetchSize, rows.isEmpty⟩

/-- `ConnectionState`: the open cursors by id, and the number of the last one. -/
structure ConnectionState (Spec Cell : Type*) where
  cursors : String → Option (CursorState Spec Cell)
  nextCursorSeq : UInt64

/-- `open_cursor`: the cursor is put under the next id, which is handed back. -/
def ConnectionState.openCursor (state : ConnectionState Spec Cell) (cursor : CursorState Spec Cell) :
    ConnectionState Spec Cell × String :=
  let seq := state.nextCursorSeq + 1
  let id := "c-" ++ toString seq.toNat
  (⟨Function.update state.cursors id (some cursor), seq⟩, id)

/-- `QueryStartParams`; of the bound parameters only their number is looked at. -/
structure QueryStartParams where
  sql : String
  params : ℕ
  maxRows : Option UInt64
  fetchSize : Option UInt32
  timeoutMs : Option UInt32

/-- The errors of `query/start`, with their messages. -/
inductive ProtocolError
  | invalidParams (message : String)
  | missingParam (name : String)
  | ioTimeout (message : String)
  | sql (message : String)
  deriving DecidableEq

/-- `query_json_compact`: what one request to the server comes to, an error or a parsed body. -/
def queryJsonCompact (decoder : Decoder Json Spec Cell) (attempt : Attempt (List UInt8)) :
    Except String (JsonCompact Json) :=
  match attempt.outcome with
  | .error message => .error message
  | .ok body => decoder.parse body

/-- The rows of a response, as `query_typed` decodes them. -/
def JsonCompact.typed (decoder : Decoder Json Spec Cell) (result : JsonCompact Json)
    (maxRows : Option UInt64) : List Spec × List (List Cell) :=
  let rows := result.data.map fun row => result.columns.zipIdx.map fun (column, index) =>
    match row[index]? with
    | some cell => decoder.decodeCell column cell
    | none => decoder.null
  (result.columns.map decoder.columnSpec,
    match maxRows with
    | some maxRows => rows.take maxRows.toNat
    | none => rows)

/-- How often the server has executed the statement, and what has come of it. -/
structure Outcome (α : Type*) where
  executions : ℕ
  result : Except ProtocolError α

/-- The error of `query/start` when the time is up, with the limit in its message. -/
def timedOut (ms : UInt32) : ProtocolError :=
  .ioTimeout ("query timed out after " ++ toString ms ++ "ms")

/-- `query_typed`, below the timeout of `query/start`. -/
def queryTyped (decoder : Decoder Json Spec Cell) (exchange : Exchange) (maxRows : Option UInt64)
    (timeoutMs : Option UInt32) : Outcome (List Spec × List (List Cell)) :=
  let ms := timeoutMs.filter (0 < ·)
  let first := exchange.fetch.executed.toNat
  match ms, exchange.timeout with
  | some ms, some 0 => ⟨first, .error (timedOut ms)⟩
  | _, _ =>
    match queryJsonCompact decoder exchange.fetch with
    | .ok result => ⟨first, .ok (result.typed decoder maxRows)⟩
    | .error _ =>
      let both := first + exchange.execute.executed.toNat
      match ms, exchange.timeout with
      | some ms, some 1 => ⟨both, .error (timedOut ms)⟩
      | _, _ =>
        match exchange.execute.outcome with
        | .error message => ⟨both, .error (.sql message)⟩
        | .ok () => ⟨both, .ok ([], [])⟩

/-- `handle_query_start`: bound parameters and blank statements are refused, anything else is fetched as a
whole and opened as a cursor. -/
def handleQueryStart (decoder : Decoder Json Spec Cell) (exchange : Exchange)
    (state : ConnectionState Spec Cell) (params : QueryStartParams) :
    ConnectionState Spec Cell × Outcome (String × List Spec) :=
  if params.params ≠ 0 then
    (state, ⟨0, .error (.invalidParams ("ClickHouse HTTP interface does not support bound query "
      ++ "parameters; inline the values in SQL"))⟩)
  else if Text.trim params.sql.toList = [] then (state, ⟨0, .error (.missingParam "sql")⟩)
  else
    let fetched := queryTyped decoder exchange params.maxRows params.timeoutMs
    match fetched.result with
    | .error error => (state, ⟨fetched.executions, .error error⟩)
    | .ok (columns, rows) =>
      let (state, cursorId) :=
        state.openCursor (CursorState.new columns rows params.fetchSize params.maxRows)
      (state, ⟨fetched.executions, .ok (cursorId, columns)⟩)

/-! ### How often the statement is executed -/

/-- The first request is not cut short by a timeout. -/
def InTime (exchange : Exchange) (timeoutMs : Option UInt32) : Prop :=
  ∀ ms, timeoutMs.filter (0 < ·) = some ms → exchange.timeout ≠ some 0

/-- The first request is over in time, and its answer is lost or is no result. -/
structure FallsBack (decoder : Decoder Json Spec Cell) (exchange : Exchange)
    (params : QueryStartParams) : Prop where
  unbound : params.params = 0
  statement : Text.trim params.sql.toList ≠ []
  inTime : InTime exchange params.timeoutMs
  useless : ∀ body, exchange.fetch.outcome = .ok body → ∀ result, decoder.parse body ≠ .ok result

variable (decoder : Decoder Json Spec Cell) (exchange : Exchange) (maxRows : Option UInt64)
  (timeoutMs : Option UInt32)

/-- With a fallback both requests count. -/
theorem executions_of_useless (htime : InTime exchange timeoutMs)
    (huseless : ∀ body, exchange.fetch.outcome = .ok body →
      ∀ result, decoder.parse body ≠ .ok result) :
    (queryTyped decoder exchange maxRows timeoutMs).executions
      = exchange.fetch.executed.toNat + exchange.execute.executed.toNat := by
  -- whatever has become of the first request, its answer is of no use
  obtain ⟨message, hmessage⟩ : ∃ message, queryJsonCompact decoder exchange.fetch = .error message := by
    unfold queryJsonCompact
    split
    · next message _ => exact ⟨message, rfl⟩
    · next body hbody =>
      cases hparsed : decoder.parse body with
      | error message => exact ⟨message, rfl⟩
      | ok result => exact absurd hparsed (huseless body hbody result)
  unfold queryTyped
  dsimp only
  split
  · next ms hms hfirst => exact absurd hfirst (htime ms hms)
  · rw [hmessage]
    dsimp only
    split
    · rfl
    · split
      · rfl
      · rfl

/-- Without one only the first does. -/
theorem executions_of_not_useless
    (h : InTime exchange timeoutMs → ∃ body, exchange.fetch.outcome = .ok body ∧
      ∃ result, decoder.parse body = .ok result) :
    (queryTyped decoder exchange maxRows timeoutMs).executions = exchange.fetch.executed.toNat := by
  unfold queryTyped
  dsimp only
  split
  · rfl
  · next hother =>
    have htime : InTime exchange timeoutMs := fun ms hms hfirst => hother ms hms hfirst
    obtain ⟨body, hbody, result, hresult⟩ := h htime
    have hparsed : queryJsonCompact decoder exchange.fetch = .ok result := by
      rw [queryJsonCompact, hbody]
      exact hresult
    rw [hparsed]

/-- The executions of a request that reaches the server. -/
theorem executions_handleQueryStart {state : ConnectionState Spec Cell} {params : QueryStartParams}
    (hunbound : params.params = 0) (hstatement : Text.trim params.sql.toList ≠ []) :
    (handleQueryStart decoder exchange state params).2.executions
      = (queryTyped decoder exchange params.maxRows params.timeoutMs).executions := by
  unfold handleQueryStart
  rw [if_neg (not_not_intro hunbound), if_neg hstatement]
  dsimp only
  split
  · rfl
  · rfl

/-- **A statement is executed at most once** exactly when the driver does not fall back, or one of the
two requests was not executed. -/
theorem executed_once_iff (state : ConnectionState Spec Cell) (params : QueryStartParams) :
    (handleQueryStart decoder exchange state params).2.executions ≤ 1 ↔
      ¬ (FallsBack decoder exchange params ∧ exchange.fetch.executed = true ∧
        exchange.execute.executed = true) := by
  -- bound parameters and empty statements are refused without a request
  by_cases hunbound : params.params = 0
  · by_cases hstatement : Text.trim params.sql.toList = []
    · have hnone : (handleQueryStart decoder exchange state params).2.executions = 0 := by
        rw [handleQueryStart, if_neg (not_not_intro hunbound), if_pos hstatement]
      rw [hnone]
      exact iff_of_true (Nat.zero_le 1) fun h => h.1.statement hstatement
    · rw [executions_handleQueryStart decoder exchange hunbound hstatement]
      -- the statement is sent twice exactly if the first answer comes in time and is useless
      by_cases hfalls : FallsBack decoder exchange params
      · rw [executions_of_useless decoder exchange _ _ hfalls.inTime hfalls.useless]
        cases exchange.fetch.executed
        · simp [Bool.toNat_le]
        · cases exchange.execute.executed
          · simp
          · simp [hfalls]
      · rw [executions_of_not_useless]
        · exact iff_of_true (Bool.toNat_le _) fun h => hfalls h.1
        · intro htime
          by_contra hnone
          push Not at hnone
          exact hfalls ⟨hunbound, hstatement, htime, hnone⟩
  · have hnone : (handleQueryStart decoder exchange state params).2.executions = 0 := by
      rw [handleQueryStart, if_pos hunbound]
    rw [hnone]
    exact iff_of_true (Nat.zero_le 1) fun h => hunbound h.1.unbound

/-- An insertion is executed and answered with an empty body, which is no JSON. -/
theorem insertion_executed_twice :
    ∃ (decoder : Decoder Unit Unit Unit) (exchange : Exchange)
        (state : ConnectionState Unit Unit) (params : QueryStartParams),
      (∀ body, (decoder.parse body).isOk = true → body ≠ []) ∧
        exchange.fetch.outcome = .ok [] ∧ params.sql = "INSERT INTO t VALUES (1)" ∧
        (handleQueryStart decoder exchange state params).2.executions = 2 := by
  -- the server executes the statement both times, and answers the first request with an empty body
  refine ⟨⟨fun _ => (), fun _ _ => (), (), fun body => if body = [] then .error "EOF" else .ok ⟨[], []⟩⟩,
    ⟨⟨true, .ok []⟩, ⟨true, .ok ()⟩, none⟩, ⟨fun _ => none, 0⟩,
    ⟨"INSERT INTO t VALUES (1)", 0, none, none, none⟩, ?_, rfl, rfl, ?_⟩
  · rintro body hok rfl
    exact absurd hok (by decide)
  · have hstatement : Text.trim "INSERT INTO t VALUES (1)".toList ≠ [] := by decide
    rw [executions_handleQueryStart, executions_of_useless]
    · rfl
    · exact fun ms hms => absurd hms (by simp)
    · intro body hbody result
      obtain rfl := Except.ok.inj hbody
      simp
    · rfl
    · exact hstatement

end Clickhouse
end Navop
