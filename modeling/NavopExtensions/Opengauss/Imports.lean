import NavopExtensions.Opengauss.Batches
import NavopExtensions.Opengauss.Ddl
import NavopExtensions.Lib.Finmaps
import NavopExtensions.Lib.Saturating

/-!
# Imports into openGauss tables

An import is a table of its own in the connection: rows come in chunks, each row is one `INSERT`. The
limit for failures is tested after each failure, but against the failed rows of the chunk alone, and
these are kept only if failed rows are tracked. So it holds exactly as long as no chunk starts with
failures behind it that it would have to count (`imports_stop_iff`).
-/

namespace Navop
namespace Opengauss

open Machine Saturating
open OpengaussDdl (quoteIdentifier qualifiedName)

/-- `ImportOptions`: how conflicts and failures are dealt with. -/
structure ImportOptions where
  upsert : Bool
  onConflictColumns : List String
  abortOnFailures : Option UInt32
  trackFailedRows : Bool

/-- `FailedRow`: which row it was, and what the server said. -/
structure FailedRow where
  rowIndex : ℕ
  message : String
  code : ℤ
  deriving DecidableEq

/-- `ImportState`, but for the time at which it was made. -/
structure ImportState where
  table : String
  schema : Option String
  database : Option String
  columns : List String
  options : ImportOptions
  inserted : ℕ
  failed : List FailedRow
  nextRow : ℕ

/-- `ImportState::new`: nothing inserted, nothing failed, row 0 next. -/
def ImportState.new (table : String) (schema database : Option String) (columns : List String)
    (options : ImportOptions) : ImportState :=
  ⟨table, schema, database, columns, options, 0, [], 0⟩

/-- `ImportState::record_inserted`: one more row, and one more inserted. -/
def ImportState.recordInserted (state : ImportState) : ImportState :=
  { state with inserted := saturatingAdd state.inserted 1, nextRow := saturatingAdd state.nextRow 1 }

/-- `ImportState::record_failed`: one more row, listed among the failed ones only if they are tracked. -/
def ImportState.recordFailed (state : ImportState) (message : String) (code : ℤ) :
    ImportState × Option FailedRow :=
  let failed : FailedRow := ⟨state.nextRow, message, code⟩
  let state := { state with nextRow := saturatingAdd state.nextRow 1 }
  if state.options.trackFailedRows then
    ({ state with failed := state.failed ++ [failed] }, some failed)
  else (state, none)

/-- A row of `Cell`s, and the error that the server has for it, if it refuses it. -/
structure ImportRow (Cell : Type) where
  cells : List Cell
  refusal : Option String

variable {Cell : Type}

/-- `build_insert_sql`: an INSERT of one row, with a clause for conflicts where one is asked for. -/
def buildInsertSql (state : ImportState) (row : List Cell) : Except String (String × List Cell) :=
  if row.length ≠ state.columns.length then
    .error ("import row has " ++ toString row.length ++ " cells but " ++ toString state.columns.length
      ++ " columns were declared")
  else
    let placeholders := ", ".intercalate
      ((List.range state.columns.length).map fun i => "$" ++ toString (i + 1))
    let sql := "INSERT INTO " ++ qualifiedName state.database state.schema state.table ++ " ("
      ++ ", ".intercalate (state.columns.map quoteIdentifier) ++ ") VALUES (" ++ placeholders ++ ")"
    let sql :=
      if state.options.upsert then
        if state.options.onConflictColumns.isEmpty then sql ++ " ON CONFLICT DO NOTHING"
        else sql ++ " ON CONFLICT ("
          ++ ", ".intercalate (state.options.onConflictColumns.map quoteIdentifier) ++ ") DO NOTHING"
      else sql
    .ok (sql, row)

/-- An `INSERT` that was sent, and whether it failed. -/
structure Attempt (Cell : Type) where
  statement : String × List Cell
  failed : Bool

/-- A chunk so far: the failed rows that it tracks and the number of rows inserted. -/
structure ImportChunkResult where
  inserted : ℕ
  failed : List FailedRow

/-- The test of the limit, with `failed.len() as u32`. -/
def ImportChunkResult.aborts (chunk : ImportChunkResult) (options : ImportOptions) : Bool :=
  options.abortOnFailures.any fun limit => decide (limit.toNat ≤ chunk.failed.length % 2 ^ 32)

/-- The loop of `handle_data_import_chunk` over the rows: the import, what was sent, and the answer. -/
def importRows (state : ImportState) (chunk : ImportChunkResult) : List (ImportRow Cell) →
    ImportState × List (Attempt Cell) × Except String ImportChunkResult
  | [] => (state, [], .ok chunk)
  | row :: rows =>
    match buildInsertSql state row.cells with
    | .error message => (state, [], .error message)
    | .ok statement =>
      match row.refusal with
      | none =>
        let (last, sent, answer) := importRows state.recordInserted
          { chunk with inserted := saturatingAdd chunk.inserted 1 } rows
        (last, ⟨statement, false⟩ :: sent, answer)
      | some message =>
        let (state, failed) := state.recordFailed message 0
        let chunk := { chunk with failed := chunk.failed ++ failed.toList }
        if chunk.aborts state.options then (state, [⟨statement, true⟩], .ok chunk)
        else
          let (last, sent, answer) := importRows state chunk rows
          (last, ⟨statement, true⟩ :: sent, answer)

/-- The requests about imports. -/
inductive ImportRequest (Cell : Type)
  | begin (table : String) (schema database : Option String) (columns : List String)
      (options : ImportOptions)
  | chunk (importId : String) (rows : List (ImportRow Cell))
  | commit (importId : String)
  | abort (importId : String)

/-- The part of `ConnectionState` that is about imports, with the number of ids given out. -/
structure Imports where
  imports : Finmap fun _ : String => ImportState
  ids : ℕ

/-- A connection without imports. -/
def Imports.initial : Imports := ⟨∅, 0⟩

/-- The id of an import, from the `uuid`s. -/
def importId (uuid : ℕ → String) (n : ℕ) : String := "opengauss-import-" ++ uuid n

/-- What comes of the requests: an import begins, a row of it is sent, it is committed with these
numbers; or an answer. -/
inductive ImportEvent (Cell : Type)
  | begun (importId : String) (options : ImportOptions)
  | attempt (importId : String) (attempt : Attempt Cell)
  | chunkDone (importId : String) (answer : Except String ImportChunkResult)
  | committed (importId : String) (inserted : ℕ) (failed : List FailedRow)
  | aborted (importId : String)
  | unknownImport (importId : String)
  | invalidParams (message : String)

/-- A request is handled: `handle_data_import_begin`, `handle_data_import_chunk`,
`handle_data_import_commit`, `handle_data_import_abort`. -/
def Imports.handle (uuid : ℕ → String) (connection : Imports) :
    ImportRequest Cell → Imports × List (ImportEvent Cell)
  | .begin table schema database columns options =>
    if columns.isEmpty then
      (connection, [.invalidParams "data/import_begin requires explicit columns"])
    else
      let id := importId uuid connection.ids
      (⟨connection.imports.insert id (.new table schema database columns options), connection.ids + 1⟩,
        [.begun id options])
  | .chunk id rows =>
    match connection.imports.lookup id with
    | none => (connection, if rows.isEmpty then [.chunkDone id (.ok ⟨0, []⟩)] else [.unknownImport id])
    | some state =>
      let (state, sent, answer) := importRows state ⟨0, []⟩ rows
      ({ connection with imports := connection.imports.insert id state },
        sent.map (.attempt id) ++ [.chunkDone id answer])
  | .commit id =>
    match connection.imports.lookup id with
    | none => (connection, [.unknownImport id])
    | some state =>
      ({ connection with imports := connection.imports.erase id },
        [.committed id state.inserted state.failed])
  | .abort id =>
    match connection.imports.lookup id with
    | none => (connection, [.unknownImport id])
    | some _ => ({ connection with imports := connection.imports.erase id }, [.aborted id])

/-! ### What limits are for -/

/-- The outcomes of the rows of an import that were sent: whether they failed. -/
def attemptsOf (id : String) (log : List (ImportEvent Cell)) : List Bool :=
  log.filterMap fun event =>
    match event with
    | .attempt other attempt => if other = id then some attempt.failed else none
    | _ => none

/-- No row is sent after as many failures as the limit says. -/
def Keeps (limit : ℕ) (attempts : List Bool) : Prop :=
  ∀ before last after, attempts = before ++ last :: after → before.count true < limit

/-- Imports do what they promise: limits are kept, and what was inserted and what has failed is what was
sent. -/
structure ImportsRight (log : List (ImportEvent Cell)) : Prop where
  limits : ∀ id options limit, .begun id options ∈ log → options.abortOnFailures = some limit →
    1 ≤ limit.toNat → Keeps limit.toNat (attemptsOf id log)
  counted : ∀ id inserted failed, .committed id inserted failed ∈ log →
    inserted + (attemptsOf id log).count true = (attemptsOf id log).length

/-- The outcomes of the rows of a chunk before the first one that does not fit the columns. -/
def outcomes (state : ImportState) (rows : List (ImportRow Cell)) : List Bool :=
  (rows.takeWhile fun row => row.cells.length = state.columns.length).map (·.refusal.isSome)

/-- The rows of an import can be counted. -/
def Countable (connection : Imports) : ImportRequest Cell → Prop
  | .chunk id rows => ∀ state, connection.imports.lookup id = some state →
    state.nextRow + rows.length < 2 ^ 64
  | _ => True

/-- A chunk keeps the limit by itself: its failures, but for one in its last row, and those before it
are fewer than that; or failed rows are tracked and none has failed before it. -/
def WithinLimit (connection : Imports) : ImportRequest Cell → Prop
  | .chunk id rows => ∀ state, connection.imports.lookup id = some state →
    ∀ limit, state.options.abortOnFailures = some limit → 1 ≤ limit.toNat →
      outcomes state rows = [] ∨
        state.nextRow - state.inserted + (outcomes state rows).dropLast.count true < limit.toNat ∨
        state.options.trackFailedRows = true ∧ state.nextRow = state.inserted
  | _ => True

/-! ### The rows of a chunk -/

theorem keeps_iff {limit : ℕ} {attempts : List Bool} :
    Keeps limit attempts ↔ attempts = [] ∨ attempts.dropLast.count true < limit := by
  constructor
  · intro hkeeps
    rcases List.eq_nil_or_concat' attempts with rfl | ⟨before, last, rfl⟩
    · exact .inl rfl
    · right
      rw [List.dropLast_concat]
      exact hkeeps before last [] rfl
  · rintro (rfl | hcount) before last after heq
    · exact absurd heq (by simp)
    · refine Nat.lt_of_le_of_lt (List.Sublist.count_le _ ?_) hcount
      rw [heq, List.dropLast_append_of_ne_nil (by simp)]
      exact List.sublist_append_left _ _

theorem keeps_append {limit : ℕ} {before after : List Bool} :
    Keeps limit (before ++ after) ↔ Keeps limit before ∧
      (after = [] ∨ before.count true + after.dropLast.count true < limit) := by
  rw [keeps_iff, keeps_iff]
  rcases eq_or_ne after [] with rfl | hafter
  · simp
  · rw [List.dropLast_append_of_ne_nil hafter, List.count_append]
    have hle : before.dropLast.count true ≤ before.count true :=
      (List.dropLast_sublist before).count_le _
    simp only [List.append_eq_nil_iff, hafter, and_false, false_or]
    constructor
    · intro hlt
      exact ⟨.inr (by omega), hlt⟩
    · exact fun h => h.2

/-- What a loop over rows has done. -/
structure Looped (state : ImportState) (tracked : ℕ) (rows : List (ImportRow Cell))
    (last : ImportState) (sent : List Bool) : Prop where
  options : last.options = state.options
  columns : last.columns = state.columns
  nextRow : last.nextRow = state.nextRow + sent.length
  inserted : last.inserted + sent.count true = state.inserted + sent.length
  sent_prefix : sent <+: outcomes state rows
  untracked : ∀ limit, state.options.abortOnFailures = some limit → 1 ≤ limit.toNat →
    state.options.trackFailedRows = false → tracked = 0 → sent = outcomes state rows
  tracked_lt : ∀ limit, state.options.abortOnFailures = some limit →
    state.options.trackFailedRows = true → tracked < limit.toNat →
      tracked + sent.dropLast.count true < limit.toNat ∧
        (sent = outcomes state rows ∨ tracked + sent.count true = limit.toNat)

theorem buildInsertSql_of_ne {state : ImportState} {row : List Cell}
    (h : row.length ≠ state.columns.length) : ∃ message, buildInsertSql state row = .error message :=
  ⟨_, if_pos h⟩

theorem buildInsertSql_of_eq {state : ImportState} {row : List Cell}
    (h : row.length = state.columns.length) : ∃ statement, buildInsertSql state row = .ok statement :=
  ⟨_, if_neg (not_not.2 h)⟩

theorem outcomes_cons_of_eq {state : ImportState} {row : ImportRow Cell} {rows : List (ImportRow Cell)}
    (h : row.cells.length = state.columns.length) :
    outcomes state (row :: rows) = row.refusal.isSome :: outcomes state rows := by
  rw [outcomes, List.takeWhile_cons_of_pos (by simpa using h)]
  rfl

theorem outcomes_cons_of_ne {state : ImportState} {row : ImportRow Cell} {rows : List (ImportRow Cell)}
    (h : row.cells.length ≠ state.columns.length) : outcomes state (row :: rows) = [] := by
  rw [outcomes, List.takeWhile_cons_of_neg (by simpa using h)]
  rfl

theorem outcomes_congr {state last : ImportState} (h : last.columns = state.columns)
    (rows : List (ImportRow Cell)) : outcomes last rows = outcomes state rows := by
  rw [outcomes, outcomes, h]

/-- Before the first row nothing is sent and nothing has changed. -/
theorem Looped.nil {state : ImportState} {tracked : ℕ} {rows : List (ImportRow Cell)}
    (h : outcomes state rows = []) : Looped state tracked rows state [] where
  options := rfl
  columns := rfl
  nextRow := rfl
  inserted := rfl
  sent_prefix := List.nil_prefix
  untracked := fun _ _ _ _ _ => h.symm
  tracked_lt := fun _ _ _ hlt => ⟨hlt, .inl h.symm⟩

/-- A row is sent before the others. -/
theorem Looped.cons {state next last : ImportState} {tracked tracked' : ℕ} {row : ImportRow Cell}
    {rows : List (ImportRow Cell)} {sent : List Bool}
    (hfits : row.cells.length = state.columns.length)
    (hoptions : next.options = state.options) (hcolumns : next.columns = state.columns)
    (hnext : next.nextRow = state.nextRow + 1)
    (hinserted : next.inserted + [row.refusal.isSome].count true = state.inserted + 1)
    (htracked : tracked' = tracked + if state.options.trackFailedRows then
      [row.refusal.isSome].count true else 0)
    (hgo : state.options.trackFailedRows = true → ∀ limit,
      state.options.abortOnFailures = some limit → tracked < limit.toNat → tracked' < limit.toNat)
    (h : Looped next tracked' rows last sent) :
    Looped state tracked (row :: rows) last (row.refusal.isSome :: sent) where
  options := h.options.trans hoptions
  columns := h.columns.trans hcolumns
  nextRow := by rw [h.nextRow, hnext, List.length_cons]; omega
  inserted := by
    have hrest := h.inserted
    rw [List.count_cons, List.length_cons]
    rw [List.count_singleton] at hinserted
    omega
  sent_prefix := by
    rw [outcomes_cons_of_eq hfits, ← outcomes_congr hcolumns]
    exact List.cons_prefix_cons.2 ⟨rfl, h.sent_prefix⟩
  -- untracked failures leave the count of the chunk where it is, so that it never reaches a limit
  untracked := by
    intro limit hlimit hpos htrack hzero
    rw [outcomes_cons_of_eq hfits, ← outcomes_congr hcolumns,
      h.untracked limit (hoptions ▸ hlimit) hpos (hoptions ▸ htrack) (by simp [htracked, hzero, htrack])]
  tracked_lt := by
    intro limit hlimit htrack hlt
    obtain ⟨hdrop, hsent⟩ := h.tracked_lt limit (hoptions ▸ hlimit) (hoptions ▸ htrack)
      (hgo htrack limit hlimit hlt)
    simp only [htrack, if_true, List.count_singleton] at htracked
    rw [outcomes_cons_of_eq hfits, ← outcomes_congr hcolumns, List.count_cons]
    constructor
    -- the count that may not reach the limit leaves out the last failure
    · cases sent with
      | nil => exact hlt
      | cons first rest =>
        rw [List.dropLast_cons_of_ne_nil (by simp), List.count_cons]
        omega
    · obtain rfl | hcount := hsent
      · exact .inl rfl
      · exact .inr (by omega)

/-- What `record_failed` changes: the row to come, the count of the failures, and the list. -/
theorem recordFailed_spec (state : ImportState) (message : String) (code : ℤ) :
    (state.recordFailed message code).1.options = state.options ∧
      (state.recordFailed message code).1.columns = state.columns ∧
      (state.recordFailed message code).1.nextRow = saturatingAdd state.nextRow 1 ∧
      (state.recordFailed message code).1.inserted = state.inserted ∧
      (state.recordFailed message code).2.toList.length
        = if state.options.trackFailedRows then 1 else 0 := by
  unfold ImportState.recordFailed
  dsimp only
  split
  · exact ⟨rfl, rfl, rfl, rfl, rfl⟩
  · exact ⟨rfl, rfl, rfl, rfl, rfl⟩

/-- **The loop of a chunk.** -/
theorem looped {state : ImportState} {chunk : ImportChunkResult} {rows : List (ImportRow Cell)}
    (hcount : state.nextRow + rows.length < 2 ^ 64) (hle : state.inserted ≤ state.nextRow) :
    Looped state chunk.failed.length rows (importRows state chunk rows).1
      ((importRows state chunk rows).2.1.map Attempt.failed) := by
  induction rows generalizing state chunk with
  | nil => exact .nil rfl
  | cons row rows ih =>
    rw [List.length_cons] at hcount
    -- a row of another width ends the chunk with an error
    by_cases hfits : row.cells.length = state.columns.length
    · obtain ⟨statement, hstatement⟩ := buildInsertSql_of_eq hfits
      have hnext : saturatingAdd state.nextRow 1 = state.nextRow + 1 :=
        saturatingAdd_of_lt (by omega)
      rw [importRows, hstatement]
      cases hrefusal : row.refusal with
      | none =>
        have hrest := @ih state.recordInserted
          { chunk with inserted := saturatingAdd chunk.inserted 1 }
          (by simp only [ImportState.recordInserted, hnext]; omega)
          (by simp only [ImportState.recordInserted, hnext]; exact le_trans (min_le_left _ _) (by omega))
        have hinserted : saturatingAdd state.inserted 1 = state.inserted + 1 :=
          saturatingAdd_of_lt (by omega)
        have hcons := Looped.cons hfits (rfl : state.recordInserted.options = state.options) rfl hnext
          (by rw [hrefusal]; exact hinserted) (by simp [hrefusal]) (fun _ _ _ hlt => hlt) hrest
        rw [hrefusal] at hcons
        exact hcons
      | some message =>
        obtain ⟨hoptions, hcolumns, hrow, hinserted, hfailed⟩ := recordFailed_spec state message 0
        dsimp only
        generalize state.recordFailed message 0 = recorded at *
        obtain ⟨next, failed⟩ := recorded
        simp only [hnext] at hoptions hcolumns hrow hinserted hfailed ⊢
        -- the count of the chunk goes up by the failures that are listed
        have htracked : (chunk.failed ++ failed.toList).length
            = chunk.failed.length + if state.options.trackFailedRows then 1 else 0 := by
          rw [List.length_append, hfailed]
        split
        -- the chunk ends here, at a failure that reaches the limit
        · next habort =>
          rw [ImportChunkResult.aborts, hoptions, Option.any_eq_true] at habort
          obtain ⟨found, hfound, hreached⟩ := habort
          have hreached := of_decide_eq_true hreached
          rw [htracked] at hreached
          exact {
            options := hoptions
            columns := hcolumns
            nextRow := hrow
            inserted := by rw [hinserted]; rfl
            sent_prefix := by
              rw [outcomes_cons_of_eq hfits, hrefusal]
              exact List.cons_prefix_cons.2 ⟨rfl, List.nil_prefix⟩
            untracked := by
              intro limit hlimit hpos htrack hzero
              obtain rfl := Option.some.inj (hfound.symm.trans hlimit)
              rw [htrack, hzero] at hreached
              exact absurd hpos (by simpa using hreached)
            tracked_lt := by
              intro limit hlimit htrack hlt
              obtain rfl := Option.some.inj (hfound.symm.trans hlimit)
              rw [if_pos htrack] at hreached
              refine ⟨hlt, .inr ?_⟩
              have hmod := Nat.mod_le (chunk.failed.length + 1) (2 ^ 32)
              exact le_antisymm hlt (hreached.trans hmod) }
        · next hgo =>
          have hrest := @ih next { chunk with failed := chunk.failed ++ failed.toList }
            (by omega) (by omega)
          have hcons := Looped.cons hfits hoptions hcolumns hrow
            (by rw [hrefusal, hinserted]; rfl) (by rw [htracked, hrefusal]; rfl)
            (fun htrack limit hlimit hlt => by
              rw [ImportChunkResult.aborts, hoptions, hlimit, htracked, if_pos htrack] at hgo
              have hbound := limit.toNat_lt
              have hnot : ¬ limit.toNat ≤ (chunk.failed.length + 1) % 2 ^ 32 := by simpa using hgo
              -- the count is compared as a 32-bit number, and is still small enough for that
              rw [Nat.mod_eq_of_lt (by omega)] at hnot
              change (chunk.failed ++ failed.toList).length < limit.toNat
              rw [htracked, if_pos htrack]
              omega) hrest
          rw [hrefusal] at hcons
          exact hcons
    · obtain ⟨message, hmessage⟩ := buildInsertSql_of_ne hfits
      rw [importRows, hmessage]
      exact .nil (outcomes_cons_of_ne hfits)

/-- A chunk keeps the limit together with what was sent before it exactly under its condition. -/
theorem Looped.keeps_iff {state last : ImportState} {rows : List (ImportRow Cell)} {sent : List Bool}
    (h : Looped state 0 rows last sent) {limit : UInt32}
    (hlimit : state.options.abortOnFailures = some limit) (hpos : 1 ≤ limit.toNat) (before : ℕ) :
    (sent = [] ∨ before + sent.dropLast.count true < limit.toNat) ↔
      outcomes state rows = [] ∨ before + (outcomes state rows).dropLast.count true < limit.toNat ∨
        state.options.trackFailedRows = true ∧ before = 0 := by
  cases htrack : state.options.trackFailedRows with
  | false =>
    rw [h.untracked limit hlimit hpos htrack rfl]
    simp
  | true =>
    obtain ⟨hlt, hsent⟩ := h.tracked_lt limit hlimit htrack hpos
    rw [Nat.zero_add] at hlt hsent
    obtain rfl | hreached := hsent
    · constructor
      · rintro (hnil | hcount)
        · exact .inl hnil
        · exact .inr (.inl hcount)
      · rintro (hnil | hcount | ⟨-, rfl⟩)
        · exact .inl hnil
        · exact .inr hcount
        · exact .inr (by omega)
    · -- the loop has stopped at the limit, so that one failure before it is one too many
      have hdrop : sent.count true ≤ sent.dropLast.count true + 1 := by
        rcases List.eq_nil_or_concat' sent with rfl | ⟨first, final, rfl⟩
        · simp
        · rw [List.dropLast_concat, List.count_append]
          have hone : [final].count true ≤ 1 := by simpa using @List.count_le_length _ _ true [final]
          omega
      have hprefix : sent.dropLast.count true ≤ (outcomes state rows).dropLast.count true := by
        obtain ⟨rest, hrest⟩ := h.sent_prefix
        rw [← hrest]
        rcases eq_or_ne rest [] with rfl | hne
        · rw [List.append_nil]
        · rw [List.dropLast_append_of_ne_nil hne, List.count_append]
          exact Nat.le_add_right_of_le ((List.dropLast_sublist sent).count_le _)
      constructor
      · rintro (rfl | hcount)
        · rw [List.count_nil] at hreached
          omega
        · exact .inr (.inr ⟨rfl, by omega⟩)
      · rintro (hnil | hcount | ⟨-, rfl⟩)
        · rw [hnil] at hprefix
          have hempty : sent = [] := List.prefix_nil.1 (hnil ▸ h.sent_prefix)
          exact .inl hempty
        · exact .inr (by omega)
        · exact .inr (by omega)

/-! ### Along a run -/

section Runs

variable {uuid : ℕ → String} {log : List (ImportEvent Cell)} {connection : Imports}

theorem importId_injective (huuid : Function.Injective uuid) :
    Function.Injective (importId uuid) := by
  intro m n h
  refine huuid ?_
  have hlists := congrArg String.toList h
  simp only [importId, String.toList_append] at hlists
  exact String.toList_inj.mp (List.append_cancel_left hlists)

theorem attemptsOf_append (id : String) (log events : List (ImportEvent Cell)) :
    attemptsOf id (log ++ events) = attemptsOf id log ++ attemptsOf id events :=
  List.filterMap_append

theorem attemptsOf_attempts (id other : String) (sent : List (Attempt Cell)) :
    attemptsOf id (sent.map (ImportEvent.attempt other))
      = if other = id then sent.map Attempt.failed else [] := by
  rw [attemptsOf, List.filterMap_map]
  split
  · next heq =>
    subst heq
    simp
  · next hne => simp [hne]

/-- What a log says about the imports of a connection. -/
structure Books (uuid : ℕ → String) (log : List (ImportEvent Cell)) (connection : Imports) : Prop where
  /-- Ids that begin were given out, and what is sent belongs to one of them. -/
  issued : ∀ id options, .begun id options ∈ log → ∃ n < connection.ids, id = importId uuid n
  sent : ∀ id, attemptsOf id log ≠ [] → ∃ n < connection.ids, id = importId uuid n
  /-- An id begins once. -/
  once : ∀ id options options', .begun id options ∈ log → .begun id options' ∈ log →
    options = options'
  /-- Live imports have begun, and count their rows. -/
  live : ∀ id state, connection.imports.lookup id = some state → .begun id state.options ∈ log ∧
    state.nextRow = (attemptsOf id log).length ∧
    state.inserted + (attemptsOf id log).count true = (attemptsOf id log).length
  /-- Committed imports have counted their rows, and are over. -/
  committed : ∀ id inserted failed, .committed id inserted failed ∈ log →
    inserted + (attemptsOf id log).count true = (attemptsOf id log).length ∧
      connection.imports.lookup id = none ∧ ∃ n < connection.ids, id = importId uuid n

/-- No import goes on after as many failures as its own limit names. -/
def LimitsKept (log : List (ImportEvent Cell)) : Prop :=
  ∀ id options limit, .begun id options ∈ log → options.abortOnFailures = some limit →
    1 ≤ limit.toNat → Keeps limit.toNat (attemptsOf id log)

theorem Books.initial : Books uuid ([] : List (ImportEvent Cell)) Imports.initial where
  issued := fun id options h => absurd h List.not_mem_nil
  sent := fun id h => absurd rfl h
  once := fun id options options' h => absurd h List.not_mem_nil
  live := fun id state h => absurd h (by simp [Imports.initial])
  committed := fun id inserted failed h => absurd h List.not_mem_nil

/-- An answer that says nothing about rows. -/
theorem Books.quiet (h : Books uuid log connection) {event : ImportEvent Cell}
    (hsent : ∀ id, attemptsOf id [event] = []) (hbegun : ∀ id options, event ≠ .begun id options)
    (hcommitted : ∀ id inserted failed, event ≠ .committed id inserted failed) :
    Books uuid (log ++ [event]) connection ∧ (LimitsKept (log ++ [event]) ↔ LimitsKept log) := by
  -- the event is of none of the kinds that the books are about
  have hattempts : ∀ id, attemptsOf id (log ++ [event]) = attemptsOf id log := by
    intro id
    rw [attemptsOf_append, hsent, List.append_nil]
  have hbegunIff : ∀ id options, ImportEvent.begun id options ∈ log ++ [event] ↔
      ImportEvent.begun id options ∈ log := by
    intro id options
    simp [(hbegun id options).symm]
  have hcommittedIff : ∀ id inserted failed, ImportEvent.committed id inserted failed ∈ log ++ [event] ↔
      ImportEvent.committed id inserted failed ∈ log := by
    intro id inserted failed
    simp [(hcommitted id inserted failed).symm]
  constructor
  · constructor
    · simpa only [hbegunIff] using h.issued
    · simpa only [hattempts] using h.sent
    · simpa only [hbegunIff] using h.once
    · simpa only [hbegunIff, hattempts] using h.live
    · simpa only [hcommittedIff, hattempts] using h.committed
  · simp only [LimitsKept, hbegunIff, hattempts]

/-- An import is over. -/
theorem Books.erase (h : Books uuid log connection) (id : String) :
    Books uuid log { connection with imports := connection.imports.erase id } where
  issued := h.issued
  sent := h.sent
  once := h.once
  live := by
    intro other state hlookup
    rcases eq_or_ne other id with rfl | hne
    · exact absurd hlookup (by simp)
    · exact h.live other state (by simpa [Finmap.lookup_erase_ne hne] using hlookup)
  committed := by
    intro other inserted failed hmem
    obtain ⟨hcount, hnone, hissued⟩ := h.committed other inserted failed hmem
    refine ⟨hcount, ?_, hissued⟩
    rcases eq_or_ne other id with rfl | hne
    · exact Finmap.lookup_erase _ _
    · rw [Finmap.lookup_erase_ne hne]
      exact hnone

/-- Ids that have not been given out are not in the log. -/
theorem Books.fresh (huuid : Function.Injective uuid) (h : Books uuid log connection) :
    attemptsOf (importId uuid connection.ids) log = [] ∧
      (∀ options, ImportEvent.begun (importId uuid connection.ids) options ∉ log) ∧
      (∀ inserted failed,
        ImportEvent.committed (importId uuid connection.ids) inserted failed ∉ log) ∧
      connection.imports.lookup (importId uuid connection.ids) = none := by
  have hnew : ¬ ∃ n < connection.ids, importId uuid connection.ids = importId uuid n := by
    rintro ⟨n, hn, heq⟩
    exact absurd (importId_injective huuid heq) (Nat.ne_of_gt hn)
  refine ⟨?_, fun options hmem => hnew (h.issued _ options hmem),
    fun inserted failed hmem => hnew (h.committed _ inserted failed hmem).2.2, ?_⟩
  · by_contra hne
    exact hnew (h.sent _ hne)
  · refine Option.eq_none_iff_forall_not_mem.2 fun state hlookup => ?_
    exact hnew (h.issued _ _ (h.live _ state hlookup).1)

/-- An import begins: its id is fresh, so its attempts are none yet. -/
theorem Books.begin (huuid : Function.Injective uuid) (h : Books uuid log connection) {table : String}
    {schema database : Option String} {columns : List String} {options : ImportOptions} :
    Books uuid (log ++ [.begun (importId uuid connection.ids) options])
        ⟨connection.imports.insert (importId uuid connection.ids)
          (.new table schema database columns options), connection.ids + 1⟩ ∧
      (LimitsKept (log ++ [.begun (importId uuid connection.ids) options]) ↔ LimitsKept log) := by
  obtain ⟨hempty, hbegun, hcommitted, -⟩ := h.fresh huuid
  generalize hnew : importId uuid connection.ids = new at *
  have hattempts : ∀ id, attemptsOf id (log ++ [.begun new options]) = attemptsOf id log := by
    intro id
    rw [attemptsOf_append]
    exact List.append_nil _
  have hmem : ∀ id options', ImportEvent.begun id options' ∈ log ++ [.begun new options] ↔
      ImportEvent.begun id options' ∈ log ∨ id = new ∧ options' = options := by
    intro id options'
    simp
  have hcommittedIff : ∀ id inserted failed,
      ImportEvent.committed id inserted failed ∈ log ++ [.begun new options] ↔
        ImportEvent.committed id inserted failed ∈ log := by
    intro id inserted failed
    simp
  -- ids given out before are given out before the next one, too
  have hgrow : ∀ {id}, (∃ n < connection.ids, id = importId uuid n) →
      ∃ n < connection.ids + 1, id = importId uuid n :=
    fun ⟨n, hn, heq⟩ => ⟨n, Nat.lt_succ_of_lt hn, heq⟩
  refine ⟨⟨?_, ?_, ?_, ?_, ?_⟩, ?_⟩
  · intro id options' hbegin
    obtain hold | ⟨rfl, -⟩ := (hmem id options').1 hbegin
    · exact hgrow (h.issued id options' hold)
    · exact ⟨connection.ids, Nat.lt_succ_self _, hnew.symm⟩
  · intro id hne
    rw [hattempts] at hne
    exact hgrow (h.sent id hne)
  · intro id options₁ options₂ h₁ h₂
    obtain hold₁ | ⟨rfl, rfl⟩ := (hmem id options₁).1 h₁
    · obtain hold₂ | ⟨rfl, rfl⟩ := (hmem id options₂).1 h₂
      · exact h.once id options₁ options₂ hold₁ hold₂
      · exact absurd hold₁ (hbegun options₁)
    · obtain hold₂ | ⟨-, rfl⟩ := (hmem id options₂).1 h₂
      · exact absurd hold₂ (hbegun options₂)
      · rfl
  · intro id state hlookup
    rw [hattempts, hmem]
    -- the new import has sent nothing, and the others are as they were
    rcases eq_or_ne id new with rfl | hne
    · obtain rfl := Option.some.inj ((Finmap.lookup_insert _).symm.trans hlookup)
      rw [hempty]
      exact ⟨.inr ⟨rfl, rfl⟩, rfl, rfl⟩
    · rw [Finmap.lookup_insert_of_ne _ hne] at hlookup
      obtain ⟨hbegin, hcounts⟩ := h.live id state hlookup
      exact ⟨.inl hbegin, hcounts⟩
  · intro id inserted failed hcommit
    obtain ⟨hcount, hnone, hissued⟩ := h.committed id inserted failed
      ((hcommittedIff id inserted failed).1 hcommit)
    rw [hattempts]
    refine ⟨hcount, ?_, hgrow hissued⟩
    rcases eq_or_ne id new with rfl | hne
    · exact absurd ((hcommittedIff id inserted failed).1 hcommit) (hcommitted inserted failed)
    · rw [Finmap.lookup_insert_of_ne _ hne]
      exact hnone
  · constructor
    · intro hkept id options' limit hbegin
      have hkeeps := hkept id options' limit ((hmem id options').2 (.inl hbegin))
      rwa [hattempts] at hkeeps
    · intro hkept id options' limit hbegin hlimit hpos
      rw [hattempts]
      obtain hold | ⟨rfl, -⟩ := (hmem id options').1 hbegin
      · exact hkept id options' limit hold hlimit hpos
      · rw [hempty]
        exact keeps_iff.2 (.inl rfl)

/-- Rows of a chunk are sent. -/
theorem Books.chunk (h : Books uuid log connection) {id : String} {state : ImportState}
    (hlookup : connection.imports.lookup id = some state) {rows : List (ImportRow Cell)}
    (hcount : state.nextRow + rows.length < 2 ^ 64) :
    Books uuid
        (log ++ (importRows state ⟨0, []⟩ rows).2.1.map (.attempt id))
        { connection with
          imports := connection.imports.insert id (importRows state ⟨0, []⟩ rows).1 } ∧
      (LimitsKept (log ++ (importRows state ⟨0, []⟩ rows).2.1.map (.attempt id)) ↔
        LimitsKept log ∧ WithinLimit connection (.chunk id rows)) := by
  obtain ⟨hbegun, hnext, hinserted⟩ := h.live id state hlookup
  have hloop := @looped _ state ⟨0, []⟩ rows hcount (by omega)
  generalize (importRows state ⟨0, []⟩ rows).1 = last at *
  generalize (importRows state ⟨0, []⟩ rows).2.1 = sent at *
  -- the rows are sent for this import only
  have hattempts : ∀ other, attemptsOf other (log ++ sent.map (.attempt id))
      = attemptsOf other log ++ if id = other then sent.map Attempt.failed else [] := by
    intro other
    rw [attemptsOf_append, attemptsOf_attempts]
  have hother : ∀ other, other ≠ id →
      attemptsOf other (log ++ sent.map (.attempt id)) = attemptsOf other log := by
    intro other hne
    rw [hattempts, if_neg (Ne.symm hne), List.append_nil]
  have hself : attemptsOf id (log ++ sent.map (.attempt id))
      = attemptsOf id log ++ sent.map Attempt.failed := by
    rw [hattempts, if_pos rfl]
  have hbegunIff : ∀ other options,
      ImportEvent.begun other options ∈ log ++ sent.map (.attempt id) ↔
        ImportEvent.begun other options ∈ log := by
    intro other options
    simp
  have hcommittedIff : ∀ other inserted failed,
      ImportEvent.committed other inserted failed ∈ log ++ sent.map (.attempt id) ↔
        ImportEvent.committed other inserted failed ∈ log := by
    intro other inserted failed
    simp
  refine ⟨⟨?_, ?_, ?_, ?_, ?_⟩, ?_⟩
  · simpa only [hbegunIff] using h.issued
  · intro other hne
    rcases eq_or_ne other id with rfl | hdiff
    · exact h.issued _ _ hbegun
    · rw [hother other hdiff] at hne
      exact h.sent other hne
  · simpa only [hbegunIff] using h.once
  · intro other found hfound
    rcases eq_or_ne other id with rfl | hdiff
    · obtain rfl := Option.some.inj ((Finmap.lookup_insert _).symm.trans hfound)
      rw [hbegunIff, hself, List.length_append, List.count_append]
      have hnext' := hloop.nextRow
      have hinserted' := hloop.inserted
      exact ⟨hloop.options ▸ hbegun, by omega, by omega⟩
    · change (connection.imports.insert id last).lookup other = some found at hfound
      rw [Finmap.lookup_insert_of_ne _ hdiff] at hfound
      rw [hbegunIff, hother other hdiff]
      exact h.live other found hfound
  · intro other inserted failed hcommit
    obtain ⟨hcounted, hnone, hissued⟩ := h.committed other inserted failed
      ((hcommittedIff other inserted failed).1 hcommit)
    rcases eq_or_ne other id with rfl | hdiff
    · exact absurd (hlookup.symm.trans hnone) (by simp)
    · rw [hother other hdiff]
      refine ⟨hcounted, ?_, hissued⟩
      change (connection.imports.insert id last).lookup other = none
      rw [Finmap.lookup_insert_of_ne _ hdiff]
      exact hnone
  -- by the counters, the failures sent so far
  · have hfailures : state.nextRow - state.inserted = (attemptsOf id log).count true := by omega
    have hzero : (attemptsOf id log).count true = 0 ↔ state.nextRow = state.inserted := by omega
    -- the limit holds after the chunk if it held before and the chunk keeps it
    constructor
    · intro hkept
      refine ⟨fun other options limit hmem hlimit hpos => ?_, fun found hfound limit hlimit hpos => ?_⟩
      · have hkeeps := hkept other options limit ((hbegunIff other options).2 hmem) hlimit hpos
        rcases eq_or_ne other id with rfl | hdiff
        · rw [hself, keeps_append] at hkeeps
          exact hkeeps.1
        · rwa [hother other hdiff] at hkeeps
      · obtain rfl := Option.some.inj (hlookup.symm.trans hfound)
        have hkeeps := hkept id _ limit ((hbegunIff _ _).2 hbegun) hlimit hpos
        rw [hself, keeps_append] at hkeeps
        rw [hfailures, ← hzero]
        exact (hloop.keeps_iff hlimit hpos _).1 hkeeps.2
    · rintro ⟨hkept, hwithin⟩ other options limit hmem hlimit hpos
      rw [hbegunIff] at hmem
      have hold := hkept other options limit hmem hlimit hpos
      rcases eq_or_ne other id with rfl | hdiff
      · obtain rfl := h.once other _ _ hmem hbegun
        rw [hself, keeps_append]
        have hchunk := hwithin state hlookup limit hlimit hpos
        rw [hfailures, ← hzero] at hchunk
        exact ⟨hold, (hloop.keeps_iff hlimit hpos _).2 hchunk⟩
      · rwa [hother other hdiff]

/-- A committed import has counted its rows. -/
theorem Books.commit (h : Books uuid log connection) {id : String} {state : ImportState}
    (hlookup : connection.imports.lookup id = some state) :
    Books uuid (log ++ [.committed id state.inserted state.failed])
        { connection with imports := connection.imports.erase id } ∧
      (LimitsKept (log ++ [.committed id state.inserted state.failed]) ↔ LimitsKept log) := by
  obtain ⟨hbegun, -, hinserted⟩ := h.live id state hlookup
  have herased := h.erase id
  have hattempts : ∀ other,
      attemptsOf other (log ++ [.committed id state.inserted state.failed]) = attemptsOf other log := by
    intro other
    rw [attemptsOf_append]
    exact List.append_nil _
  have hbegunIff : ∀ other options,
      ImportEvent.begun other options ∈ log ++ [.committed id state.inserted state.failed] ↔
        ImportEvent.begun other options ∈ log := by
    intro other options
    simp
  refine ⟨⟨?_, ?_, ?_, ?_, ?_⟩, ?_⟩
  · simpa only [hbegunIff] using herased.issued
  · simpa only [hattempts] using herased.sent
  · simpa only [hbegunIff] using herased.once
  · simpa only [hbegunIff, hattempts] using herased.live
  · intro other inserted failed hcommit
    rw [hattempts]
    obtain hold | hnew := List.mem_append.1 hcommit
    · exact herased.committed other inserted failed hold
    -- the counters of the state are what is reported
    · obtain ⟨rfl, rfl, rfl⟩ := ImportEvent.committed.inj (List.mem_singleton.1 hnew)
      exact ⟨hinserted, Finmap.lookup_erase _ _, h.issued _ _ hbegun⟩
  · simp only [LimitsKept, hbegunIff, hattempts]

/-- One request: the books stay right, and the limits are kept exactly if it keeps them. -/
theorem Books.step (huuid : Function.Injective uuid) (h : Books uuid log connection)
    {request : ImportRequest Cell} (hcount : Countable connection request) :
    Books uuid (log ++ (connection.handle uuid request).2) (connection.handle uuid request).1 ∧
      (LimitsKept (log ++ (connection.handle uuid request).2) ↔
        LimitsKept log ∧ WithinLimit connection request) := by
  -- a request that is answered with an error leaves an event that counts nowhere
  have hquiet := fun event hsent hbegun hcommitted =>
    @Books.quiet Cell uuid log connection h event hsent hbegun hcommitted
  cases request with
  | begin table schema database columns options =>
    rw [Imports.handle]
    split
    · exact (hquiet _ (fun _ => rfl) (by simp) (by simp)).imp_right fun hkept =>
        hkept.trans (and_iff_left trivial).symm
    · exact (h.begin huuid).imp_right fun hkept => hkept.trans (and_iff_left trivial).symm
  | chunk id rows =>
    rw [Imports.handle]
    cases hlookup : connection.imports.lookup id with
    | none =>
      have hwithin : WithinLimit connection (.chunk id rows) := fun state hstate =>
        absurd (hlookup.symm.trans hstate) (by simp)
      dsimp only
      split
      · exact (hquiet _ (fun _ => rfl) (by simp) (by simp)).imp_right fun hkept =>
          hkept.trans (and_iff_left hwithin).symm
      · exact (hquiet _ (fun _ => rfl) (by simp) (by simp)).imp_right fun hkept =>
          hkept.trans (and_iff_left hwithin).symm
    | some state =>
      obtain ⟨hbooks, hkept⟩ := h.chunk hlookup (hcount state hlookup)
      obtain ⟨hbooks', hkept'⟩ := @Books.quiet _ _ _ _ hbooks
        (.chunkDone id (importRows state ⟨0, []⟩ rows).2.2) (fun _ => rfl) (by simp) (by simp)
      rw [List.append_assoc] at hbooks' hkept'
      exact ⟨hbooks', hkept'.trans hkept⟩
  | commit id =>
    rw [Imports.handle]
    cases hlookup : connection.imports.lookup id with
    | none =>
      exact (hquiet _ (fun _ => rfl) (by simp) (by simp)).imp_right fun hkept =>
        hkept.trans (and_iff_left trivial).symm
    | some state =>
      exact (h.commit hlookup).imp_right fun hkept => hkept.trans (and_iff_left trivial).symm
  | abort id =>
    rw [Imports.handle]
    cases connection.imports.lookup id with
    | none =>
      exact (hquiet _ (fun _ => rfl) (by simp) (by simp)).imp_right fun hkept =>
        hkept.trans (and_iff_left trivial).symm
    | some state =>
      exact ((h.erase id).quiet (fun _ => rfl) (by simp) (by simp)).imp_right fun hkept =>
        hkept.trans (and_iff_left trivial).symm

/-- **Imports stop when told to** exactly in runs of chunks that keep the limit. -/
theorem imports_stop_iff (huuid : Function.Injective uuid) {requests : List (ImportRequest Cell)}
    (hcount : Guarded (Imports.handle uuid) Countable Imports.initial requests) :
    ImportsRight (run (Imports.handle uuid) Imports.initial requests).2 ↔
      Guarded (Imports.handle uuid) WithinLimit Imports.initial requests := by
  have hrun : Books uuid (run (Imports.handle uuid) Imports.initial requests).2
        (run (Imports.handle uuid) Imports.initial requests).1 ∧
      (LimitsKept (run (Imports.handle uuid) Imports.initial requests).2 ↔
        Guarded (Imports.handle uuid) WithinLimit Imports.initial requests) := by
    induction requests using List.reverseRecOn with
    | nil =>
      exact ⟨.initial, iff_of_true (fun id options limit hmem => absurd hmem List.not_mem_nil)
        guarded_nil⟩
    | append_singleton requests request ih =>
      obtain ⟨hbefore, hrequest⟩ := guarded_concat.1 hcount
      obtain ⟨hbooks, hkept⟩ := ih hbefore
      obtain ⟨hbooks', hkept'⟩ := hbooks.step huuid hrequest
      rw [run_concat, guarded_concat, ← hkept]
      exact ⟨hbooks', hkept'⟩
  refine Iff.trans ⟨fun h => h.limits, fun hlimits => ⟨hlimits, ?_⟩⟩ hrun.2
  exact fun id inserted failed hmem => (hrun.1.committed id inserted failed hmem).1

/-- **Batches and imports stop when told to**: a batch exactly if no statement is refused (or, where it
only has to be atomic, if the first one is), and imports exactly in runs of chunks that keep the limit
by themselves. -/
theorem stops_when_told_iff (huuid : Function.Injective uuid) :
    (∀ (session : Session) (p : ExecBatchParams), BatchRight session p ↔
      (p.inTransaction = true → session.block = none →
        (∀ statement ∈ p.statements, statement.fails = false) ∨
          ∃ statement, p.statements.head? = some statement ∧ statement.fails = true) ∧
      (p.stopOnError = false → Accepted session p.statements)) ∧
    ∀ requests : List (ImportRequest Cell),
      Guarded (Imports.handle uuid) Countable Imports.initial requests →
        (ImportsRight (run (Imports.handle uuid) Imports.initial requests).2 ↔
          Guarded (Imports.handle uuid) WithinLimit Imports.initial requests) :=
  ⟨fun _ _ => batchRight_iff, fun _ => imports_stop_iff huuid⟩

end Runs

/-- An import of one column that is to stop at the first failure. -/
def stopAtFirst (trackFailedRows : Bool) : ImportRequest ℕ :=
  .begin "t" none none ["a"] ⟨false, [], some 1, trackFailedRows⟩

/-- A row that is refused. -/
def refusedRow : ImportRow ℕ := ⟨[1], some "duplicate key"⟩

/-- Two refused rows of an import that has just begun. -/
theorem refusedRows_state (trackFailedRows : Bool) {state : ImportState}
    (h : (run (Imports.handle longerAndLonger) Imports.initial [stopAtFirst trackFailedRows]).1.imports.lookup
      (importId longerAndLonger 0) = some state) :
    state = .new "t" none none ["a"] ⟨false, [], some 1, trackFailedRows⟩ :=
  (Option.some.inj ((Finmap.lookup_insert _).symm.trans h)).symm

theorem countable_refusedRows (trackFailedRows : Bool) :
    Guarded (Imports.handle longerAndLonger) Countable Imports.initial
      [stopAtFirst trackFailedRows, .chunk (importId longerAndLonger 0) [refusedRow, refusedRow]] := by
  refine guarded_concat.2 ⟨guarded_concat.2 ⟨guarded_nil, trivial⟩, fun state hstate => ?_⟩
  obtain rfl := refusedRows_state _ hstate
  exact (by decide : 0 + 2 < 2 ^ 64)

/-- With tracked rows, a chunk stops at its first failure. -/
theorem stops_when_told_tracked :
    ImportsRight (run (Imports.handle longerAndLonger) Imports.initial
      [stopAtFirst true, .chunk (importId longerAndLonger 0) [refusedRow, refusedRow]]).2 := by
  refine ((stops_when_told_iff longerAndLonger_injective).2 _ (countable_refusedRows true)).2 ?_
  refine guarded_concat.2 ⟨guarded_concat.2 ⟨guarded_nil, trivial⟩, fun state hstate => ?_⟩
  obtain rfl := refusedRows_state _ hstate
  exact fun limit hlimit _ => .inr (.inr ⟨rfl, rfl⟩)

/-- **The limit is not looked at** when failed rows are not tracked: a row is sent after the failure
that should have ended the import. -/
theorem limit_ignored :
    ¬ ImportsRight (run (Imports.handle longerAndLonger) Imports.initial
      [stopAtFirst false, .chunk (importId longerAndLonger 0) [refusedRow, refusedRow]]).2 := by
  intro hright
  have hguarded := (imports_stop_iff longerAndLonger_injective (countable_refusedRows false)).1 hright
  have hwithin := hguarded [stopAtFirst false] _ [] rfl
  have hlast := hwithin _ (Finmap.lookup_insert _) 1 rfl (by decide)
  exact absurd hlast (by decide)

end Opengauss
end Navop
