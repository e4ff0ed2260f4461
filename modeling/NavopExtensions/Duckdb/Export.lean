import NavopExtensions.Duckdb.Paging
import NavopExtensions.Duckdb.Value
import NavopExtensions.Lib.Machine

/-!
# Export streams of a DuckDB connection

`data/export` and `stream/read`: rows are fetched page by page, rendered as CSV or NDJSON into a buffer,
and the buffer is handed out in pieces. The header of a CSV file is rendered with the first page. A
stream that may have no rows at all never fetches a page, so that it has no header either; every other
stream is complete (`export_complete_iff`).
-/

namespace Navop
namespace Duckdb

open Machine

/-- `DEFAULT_STREAM_READ_BYTES`: the size of a read that asks for none. -/
def defaultStreamReadBytes : ℕ := 64 * 1024

/-- `MAX_STREAM_READ_BYTES`: the size of a read at most. -/
def maxStreamReadBytes : ℕ := 1024 * 1024

/-- `EXPORT_FETCH_ROWS`: the rows that are fetched at a time. -/
def exportFetchRows : ℕ := 1000

/-! ### Rendering -/

/-- `CsvOptions`: the marks of the format, whether there is a header, and the text for NULL. -/
structure CsvOptions where
  delimiter : String
  quote : String
  header : Bool
  nullString : Option String
  encoding : String
  deriving DecidableEq

section Rendering

variable (serde : Serde)

/-- `csv_escape`: in quotes when told to, or for a mark or a line break in the value. -/
def csvEscape (value : String) (options : CsvOptions) (forceQuote : Bool) : String :=
  if forceQuote || containsText value options.delimiter || containsText value "\n"
      || containsText value "\r" || containsText value options.quote then
    options.quote ++ value.replace options.quote (options.quote ++ options.quote) ++ options.quote
  else value

/-- `csv_line`: the fields with delimiters between them, and a line break. -/
def csvLine (values : List (String × Bool)) (options : CsvOptions) : String :=
  options.delimiter.intercalate (values.map fun (value, force) => csvEscape value options force) ++ "\n"

/-- `cell_to_csv_string`: texts as they are, all else as JSON prints it. -/
def cellToCsvString (cell : CellValue) (options : CsvOptions) : String :=
  match cellToJsonValue serde cell with
  | .null => options.nullString.getD "\\N"
  | .string value => value
  | other => serde.print other

/-- `cell_to_csv_field`: the text, in quotes if it could be taken for a NULL or for nothing. -/
def cellToCsvField (cell : CellValue) (options : CsvOptions) : String × Bool :=
  let isNull := match cell with
    | .null => true
    | _ => false
  let value := cellToCsvString serde cell options
  (value, !isNull && (value = "" || value = options.nullString.getD "\\N"))

/-- `Map::insert`: a value takes the place of one with its key. -/
def insertField (fields : List (String × Json)) (key : String) (value : Json) : List (String × Json) :=
  if fields.any (·.1 = key) then
    fields.map fun field => if field.1 = key then (key, value) else field
  else fields ++ [(key, value)]

/-- The object of a row in `render_ndjson_rows`. -/
def rowObject (columns : List String) (row : List CellValue) : Json :=
  .object ((columns.zip row).foldl
    (fun fields (column, cell) => insertField fields column (cellToJsonValue serde cell)) [])

/-- `ExportStreamFormat`: CSV remembers whether its header is written. -/
inductive ExportStreamFormat
  | csv (options : CsvOptions) (headerWritten : Bool)
  | ndjson
  deriving DecidableEq

/-- `render_csv_rows`: the header if it is still to come, and then the rows. -/
def renderCsvRows (options : CsvOptions) (headerWritten : Bool) (columns : List String)
    (rows : List (List CellValue)) : Bool × List UInt8 :=
  let header := options.header && !headerWritten
  let out := if header then csvLine (columns.map fun column => (column, false)) options else ""
  let out := rows.foldl (fun out row =>
    out ++ csvLine (row.map fun cell => cellToCsvField serde cell options) options) out
  (headerWritten || header, utf8 out)

/-- `render_ndjson_rows`: one object a line. -/
def renderNdjsonRows (columns : List String) (rows : List (List CellValue)) : List UInt8 :=
  rows.foldl (fun out row => out ++ utf8 (serde.print (rowObject serde columns row)) ++ utf8 "\n") []

/-- `render_export_rows`: the bytes of a page, and the format as it is after it. -/
def renderExportRows (format : ExportStreamFormat) (columns : List String)
    (rows : List (List CellValue)) : ExportStreamFormat × List UInt8 :=
  match format with
  | .csv options headerWritten =>
    let (headerWritten, bytes) := renderCsvRows serde options headerWritten columns rows
    (.csv options headerWritten, bytes)
  | .ndjson => (.ndjson, renderNdjsonRows serde columns rows)

/-! ### Streams -/

/-- `ExportStreamState`; the query is given by its result. -/
structure ExportStream where
  result : QueryResult (List CellValue)
  columns : List String
  format : ExportStreamFormat
  pager : Pager
  pending : List UInt8

/-- `ExportStreamState::new`: no row has been fetched. -/
def ExportStream.new (result : QueryResult (List CellValue)) (columns : List String)
    (format : ExportStreamFormat) (maxRows : Option UInt64) : ExportStream :=
  ⟨result, columns, format, Pager.new maxRows, []⟩

/-- The limit of `stream_fetch_plan`: the rows of a page, within what is left of `max_rows`. -/
def ExportStream.fetchLimit (stream : ExportStream) : ℕ :=
  match stream.pager.remainingMaxRows with
  | some 0 => 0
  | some remaining => min exportFetchRows (min remaining (2 ^ 32 - 1))
  | none => exportFetchRows

/-- `fill_stream_buffer`: one more page is fetched and rendered behind what waits. -/
def ExportStream.fill (stream : ExportStream) : ExportStream :=
  let limit := stream.fetchLimit
  let rows := stream.result.page limit stream.pager.nextRow
  let (format, bytes) := renderExportRows serde stream.format stream.columns rows
  { stream with
    format := format
    pending := stream.pending ++ bytes
    pager := stream.pager.advance rows.length limit }

/-- `stream_read_limit`: the size asked for, at least one byte and within the largest one. -/
def streamReadLimit (maxBytes : Option UInt32) : ℕ :=
  min ((maxBytes.map fun value => max value.toNat 1).getD defaultStreamReadBytes) maxStreamReadBytes

/-- A `stream/read`, and whether the query fails if a page is fetched. -/
structure StreamRead where
  maxBytes : Option UInt32
  fails : Bool

/-- `handle_stream_read` of an open stream; what it hands out, and whether that was all. -/
def ExportStream.read (stream : ExportStream) (request : StreamRead) :
    ExportStream × List (List UInt8 × Bool) :=
  let idle := stream.pending ≠ [] ∨ stream.pager.done = true
  if ¬ idle ∧ request.fails then (stream, [])
  else
    let stream := if idle then stream else stream.fill serde
    let limit := streamReadLimit request.maxBytes
    let bytes := stream.pending.take limit
    let stream := { stream with pending := stream.pending.drop limit }
    (stream, [(bytes, stream.pager.done && stream.pending.isEmpty)])

/-! ### What a stream is to contain -/

/-- A line of the file, for a row. -/
def ExportStreamFormat.line (format : ExportStreamFormat) (columns : List String)
    (row : List CellValue) : List UInt8 :=
  match format with
  | .csv options _ => utf8 (csvLine (row.map fun cell => cellToCsvField serde cell options) options)
  | .ndjson => utf8 (serde.print (rowObject serde columns row)) ++ utf8 "\n"

/-- The header, as long as it is not written. -/
def ExportStreamFormat.owed (format : ExportStreamFormat) (columns : List String) : List UInt8 :=
  match format with
  | .csv options headerWritten =>
    if options.header && !headerWritten then
      utf8 (csvLine (columns.map fun column => (column, false)) options)
    else []
  | .ndjson => []

/-- The whole file, as it comes out if every row is rendered at once. -/
def exported (result : QueryResult (List CellValue)) (columns : List String)
    (format : ExportStreamFormat) (maxRows : Option UInt64) : List UInt8 :=
  format.owed columns ++ (result.truncated maxRows).flatMap (format.line serde columns)

/-- The bytes of all reads. -/
def handedOut (reads : List (List UInt8 × Bool)) : List UInt8 := reads.flatMap Prod.fst

/-- A stream is complete: whatever is asked for, the bytes are the first ones of the file, and all of
them once a read says so, which happens after finitely many reads. -/
structure Complete (stream : ExportStream) (file : List UInt8) : Prop where
  first : ∀ requests, handedOut (run (ExportStream.read serde) stream requests).2 <+: file
  all : ∀ requests, (∃ read ∈ (run (ExportStream.read serde) stream requests).2, read.2 = true) →
    handedOut (run (ExportStream.read serde) stream requests).2 = file
  ends : ∀ sizes : ℕ → Option UInt32, ∃ n,
    ∃ read ∈ (run (ExportStream.read serde) stream
      ((List.range n).map fun i => ⟨sizes i, false⟩)).2, read.2 = true

/-! ### Rendering is line by line -/

variable {serde}

theorem utf8_foldl (f : List CellValue → String) (rows : List (List CellValue)) (out : String) :
    utf8 (rows.foldl (fun out row => out ++ f row) out)
      = utf8 out ++ rows.flatMap fun row => utf8 (f row) := by
  induction rows generalizing out with
  | nil => simp
  | cons row rows ih =>
    rw [List.foldl_cons, ih, utf8_append, List.flatMap_cons, List.append_assoc]

theorem foldl_append (f : List CellValue → List UInt8) (rows : List (List CellValue))
    (out : List UInt8) :
    rows.foldl (fun out row => out ++ f row) out = out ++ rows.flatMap f := by
  induction rows generalizing out with
  | nil => simp
  | cons row rows ih =>
    rw [List.foldl_cons, ih, List.flatMap_cons, List.append_assoc]

/-- What a page is rendered to: the header if it is owed, and a line for each row. -/
theorem bytes_renderExportRows (format : ExportStreamFormat) (columns : List String)
    (rows : List (List CellValue)) :
    (renderExportRows serde format columns rows).2
      = format.owed columns ++ rows.flatMap (format.line serde columns) := by
  cases format with
  | csv options headerWritten =>
    unfold renderExportRows renderCsvRows ExportStreamFormat.owed
    dsimp only
    rw [utf8_foldl]
    congr 1
    split
    · rfl
    · rfl
  | ndjson =>
    unfold renderExportRows renderNdjsonRows
    simp only [List.append_assoc]
    exact foldl_append _ rows []

/-- Then nothing is owed any more. -/
theorem owed_renderExportRows (format : ExportStreamFormat) (columns : List String)
    (rows : List (List CellValue)) :
    (renderExportRows serde format columns rows).1.owed columns = [] := by
  cases format with
  | csv options headerWritten =>
    change (if options.header && !(headerWritten || (options.header && !headerWritten)) then _ else _)
      = []
    cases options.header
    · rfl
    · cases headerWritten
      · rfl
      · rfl
  | ndjson => rfl

theorem line_renderExportRows (format : ExportStreamFormat) (columns : List String)
    (rows : List (List CellValue)) :
    (renderExportRows serde format columns rows).1.line serde = format.line serde := by
  cases format with
  | csv options headerWritten => rfl
  | ndjson => rfl

/-- No line is empty. -/
theorem line_ne_nil (format : ExportStreamFormat) (columns : List String) (row : List CellValue) :
    format.line serde columns row ≠ [] := by
  have hnewline : utf8 "\n" ≠ [] := by decide
  cases format with
  | csv options headerWritten =>
    simp only [ExportStreamFormat.line, csvLine, utf8_append]
    exact List.append_ne_nil_of_right_ne_nil _ hnewline
  | ndjson => exact List.append_ne_nil_of_right_ne_nil _ hnewline

/-! ### Along the reads -/

/-- What is still to be rendered. -/
def ExportStream.toCome (serde : Serde) (stream : ExportStream) : List UInt8 :=
  stream.format.owed stream.columns
    ++ ((stream.result.truncated stream.pager.maxRows).drop stream.pager.nextRow).flatMap
      (stream.format.line serde stream.columns)

/-- What holds along the reads of a stream. -/
structure Streaming (serde : Serde) (file : List UInt8) (reads : List (List UInt8 × Bool))
    (stream : ExportStream) : Prop where
  /-- Nothing is lost, and nothing is there twice. -/
  bytes : handedOut reads ++ (stream.pending ++ stream.toCome serde) = file
  within : stream.pager.nextRow ≤ (stream.result.truncated stream.pager.maxRows).length
  /-- A stream that is not done may have more rows. -/
  budget : stream.pager.done = false → stream.pager.remainingMaxRows ≠ some 0
  rest : stream.pager.done = true → stream.toCome serde = []
  said : (∃ read ∈ reads, read.2 = true) → stream.pager.done = true ∧ stream.pending = []

section Reads

variable {stream : ExportStream} {file : List UInt8} {reads : List (List UInt8 × Bool)}

theorem fetchLimit_allows_stream (stream : ExportStream) : stream.pager.Allows stream.fetchLimit := by
  intro remaining hremaining
  unfold ExportStream.fetchLimit
  rw [hremaining]
  cases remaining with
  | zero => exact le_rfl
  | succ remaining => exact le_trans (min_le_right _ _) (min_le_left _ _)

theorem fetchLimit_pos (h : stream.pager.remainingMaxRows ≠ some 0) : 0 < stream.fetchLimit := by
  unfold ExportStream.fetchLimit
  split
  · next hzero => exact absurd hzero h
  · next remaining hne hsome =>
    have hpos : 0 < remaining := Nat.pos_of_ne_zero hne
    exact lt_min (by decide) (lt_min hpos (by decide))
  · decide

/-- A page moves bytes from what is to come into the buffer. -/
theorem fill_bytes (hwithin : stream.pager.nextRow
      ≤ (stream.result.truncated stream.pager.maxRows).length) :
    (stream.fill serde).pending ++ (stream.fill serde).toCome serde
      = stream.pending ++ stream.toCome serde := by
  have hlimit := fetchLimit_allows_stream stream
  have hpage := take_append_page hlimit hwithin
  -- the rows still to come are the page and those behind it
  have hdrop : (stream.result.truncated stream.pager.maxRows).drop stream.pager.nextRow
      = stream.result.page stream.fetchLimit stream.pager.nextRow
        ++ (stream.result.truncated stream.pager.maxRows).drop
          (stream.pager.advance (stream.result.page stream.fetchLimit stream.pager.nextRow).length
            stream.fetchLimit).nextRow := by
    apply (List.append_right_inj
      ((stream.result.truncated stream.pager.maxRows).take stream.pager.nextRow)).mp
    rw [List.take_append_drop, ← List.append_assoc, hpage, List.take_append_drop]
  unfold ExportStream.toCome
  rw [hdrop]
  change (stream.pending ++ (renderExportRows serde stream.format stream.columns _).2) ++
    ((renderExportRows serde stream.format stream.columns _).1.owed stream.columns ++ List.flatMap
      ((renderExportRows serde stream.format stream.columns _).1.line serde stream.columns) _) = _
  -- the header is owed before the page only, and rendering adds each row's line
  rw [owed_renderExportRows, line_renderExportRows, bytes_renderExportRows, List.nil_append,
    List.flatMap_append]
  simp only [List.append_assoc]
  rfl

/-- The buffer is not empty after a page, unless the stream is done. -/
theorem fill_progress (hbudget : stream.pager.remainingMaxRows ≠ some 0) :
    (stream.fill serde).pending ≠ [] ∨ (stream.fill serde).pager.done = true := by
  cases hpage : stream.result.page stream.fetchLimit stream.pager.nextRow with
  | nil =>
    right
    have hshort : decide ((stream.result.page stream.fetchLimit stream.pager.nextRow).length
        < stream.fetchLimit) = true := by
      rw [hpage]
      exact decide_eq_true (fetchLimit_pos hbudget)
    change (_ || decide _ || _) = true
    rw [hshort, Bool.or_true, Bool.true_or]
  | cons row rows =>
    left
    change stream.pending ++ (renderExportRows serde stream.format stream.columns _).2 ≠ []
    rw [hpage, bytes_renderExportRows, List.flatMap_cons]
    intro hempty
    exact line_ne_nil stream.format stream.columns row
      (List.append_eq_nil_iff.mp (List.append_eq_nil_iff.mp (List.append_eq_nil_iff.mp hempty).2).2).1

/-- A page keeps the books. -/
theorem Streaming.fill (h : Streaming serde file reads stream) (hdone : stream.pager.done = false) :
    Streaming serde file reads (stream.fill serde) where
  bytes := by rw [fill_bytes h.within]; exact h.bytes
  within := nextRow_advance_le (fetchLimit_allows_stream stream) h.within
  -- a pager that goes on has rows left in its budget
  budget := by
    intro hgoing hzero
    change (_ || _ || decide _) = false at hgoing
    rw [Bool.or_eq_false_iff, decide_eq_false_iff_not] at hgoing
    exact hgoing.2 hzero
  -- at the end of the rows nothing is owed, for the header came with the first page
  rest := by
    intro hend
    have hposition := done_advance (fetchLimit_allows_stream stream) h.within hdone hend
    change (renderExportRows serde stream.format stream.columns _).1.owed stream.columns
      ++ ((stream.result.truncated stream.pager.maxRows).drop (stream.pager.advance _ _).nextRow).flatMap
        _ = []
    rw [owed_renderExportRows, List.nil_append, List.drop_eq_nil_of_le hposition.ge, List.flatMap_nil]
  said := by
    intro hsaid
    rw [(h.said hsaid).1] at hdone
    exact absurd hdone (by decide)

/-- The answer to a read, given a buffer. -/
def ExportStream.answer (stream : ExportStream) (limit : ℕ) : List UInt8 × Bool :=
  (stream.pending.take limit, stream.pager.done && (stream.pending.drop limit).isEmpty)

theorem handedOut_concat (reads : List (List UInt8 × Bool)) (read : List UInt8 × Bool) :
    handedOut (reads ++ [read]) = handedOut reads ++ read.1 := by
  rw [handedOut, List.flatMap_append, List.flatMap_singleton]
  rfl

/-- Handing out bytes keeps the books. -/
theorem Streaming.drain (h : Streaming serde file reads stream) (limit : ℕ) :
    Streaming serde file (reads ++ [stream.answer limit])
      { stream with pending := stream.pending.drop limit } where
  bytes := by
    change _ ++ (stream.pending.drop limit ++ stream.toCome serde) = file
    rw [handedOut_concat, ExportStream.answer, List.append_assoc,
      ← List.append_assoc (stream.pending.take limit), List.take_append_drop]
    exact h.bytes
  within := h.within
  budget := h.budget
  rest := h.rest
  -- only an answer that empties the buffer of a pager that is done says so
  said := by
    rintro ⟨read, hread, htrue⟩
    obtain hbefore | hnow := List.mem_append.mp hread
    · obtain ⟨hdone, hempty⟩ := h.said ⟨read, hbefore, htrue⟩
      refine ⟨hdone, ?_⟩
      change stream.pending.drop limit = []
      rw [hempty, List.drop_nil]
    · rw [List.mem_singleton.mp hnow, ExportStream.answer, Bool.and_eq_true, List.isEmpty_iff] at htrue
      exact htrue

theorem streamReadLimit_pos (maxBytes : Option UInt32) : 0 < streamReadLimit maxBytes := by
  unfold streamReadLimit
  refine lt_min ?_ (by decide)
  cases maxBytes with
  | none => decide
  | some value => exact lt_of_lt_of_le Nat.one_pos (le_max_right _ _)

/-- What a read does: nothing if its query fails, and otherwise it hands out bytes of the buffer, which
is filled before if it has to be. -/
theorem read_cases (h : Streaming serde file reads stream) (request : StreamRead) :
    (request.fails = true ∧ stream.read serde request = (stream, [])) ∨
      ∃ filled, Streaming serde file reads filled ∧
        (filled.pending ≠ [] ∨ filled.pager.done = true) ∧
        stream.read serde request
          = ({ filled with pending := filled.pending.drop (streamReadLimit request.maxBytes) },
              [filled.answer (streamReadLimit request.maxBytes)]) := by
  -- no page is fetched while bytes wait or when the rows are at their end
  by_cases hidle : stream.pending ≠ [] ∨ stream.pager.done = true
  · right
    refine ⟨stream, h, hidle, ?_⟩
    simp only [ExportStream.read, hidle, not_true_eq_false, false_and, ↓reduceIte]
    rfl
  · by_cases hfails : request.fails = true
    · left
      refine ⟨hfails, ?_⟩
      simp only [ExportStream.read, hidle, hfails, not_false_eq_true, and_self, ↓reduceIte]
    · right
      obtain ⟨-, hdone⟩ := not_or.mp hidle
      rw [Bool.not_eq_true] at hdone
      refine ⟨stream.fill serde, h.fill hdone, fill_progress (h.budget hdone), ?_⟩
      simp only [ExportStream.read, hidle, hfails, not_false_eq_true, true_and, ↓reduceIte]
      rfl

/-- **Every read keeps the books.** -/
theorem Streaming.read (h : Streaming serde file reads stream) (request : StreamRead) :
    Streaming serde file (reads ++ (stream.read serde request).2) (stream.read serde request).1 := by
  obtain ⟨-, hread⟩ | ⟨filled, hfilled, -, hread⟩ := read_cases h request
  · rw [hread, List.append_nil]
    exact h
  · rw [hread]
    exact hfilled.drain _

/-- **Reads make progress**: a read that does not fail hands out bytes, or says that it was all. -/
theorem Streaming.progress (h : Streaming serde file reads stream) {request : StreamRead}
    (hfails : request.fails = false) :
    (∃ read ∈ reads ++ (stream.read serde request).2, read.2 = true) ∨
      (handedOut reads).length < (handedOut (reads ++ (stream.read serde request).2)).length := by
  obtain ⟨htrue, -⟩ | ⟨filled, -, hbuffer, hread⟩ := read_cases h request
  · rw [hfails] at htrue
    exact absurd htrue (by decide)
  · rw [hread]
    -- an empty buffer after the fill is the end, and otherwise the answer carries a byte
    by_cases hpending : filled.pending = []
    · left
      refine ⟨_, List.mem_append_right _ (List.mem_singleton_self _), ?_⟩
      have hdone := hbuffer.resolve_left (not_not_intro hpending)
      rw [ExportStream.answer, hdone, hpending, List.drop_nil]
      rfl
    · right
      have htake : 0 < (filled.pending.take (streamReadLimit request.maxBytes)).length := by
        rw [List.length_take]
        exact lt_min (streamReadLimit_pos _) (List.length_pos_of_ne_nil hpending)
      rw [handedOut_concat, List.length_append]
      exact Nat.lt_add_of_pos_right htake

/-- A run of reads keeps the books. -/
theorem Streaming.run (h : Streaming serde file [] stream) (requests : List StreamRead) :
    Streaming serde file (run (ExportStream.read serde) stream requests).2
      (run (ExportStream.read serde) stream requests).1 :=
  @run_history _ _ _ _ (fun _ reads stream => Streaming serde file reads stream) (fun _ => True)
    (fun _ _ _ => trivial) (fun _ _ _ request hbooks _ => hbooks.read request) _ h _ trivial

/-- As long as no read says that it was all, there is a byte at least for each read. -/
theorem Streaming.run_progress (h : Streaming serde file [] stream) {requests : List StreamRead}
    (hfails : ∀ request ∈ requests, request.fails = false) :
    (∃ read ∈ (Machine.run (ExportStream.read serde) stream requests).2, read.2 = true) ∨
      requests.length
        ≤ (handedOut (Machine.run (ExportStream.read serde) stream requests).2).length := by
  refine (@run_history _ _ _ (ExportStream.read serde)
    (fun requests reads stream => Streaming serde file reads stream ∧
      ((∃ read ∈ reads, read.2 = true) ∨ requests.length ≤ (handedOut reads).length))
    (fun requests => ∀ request ∈ requests, request.fails = false)
    (fun _ _ h i hi => h i (List.mem_append_left _ hi)) ?_ stream
    ⟨h, Or.inr (Nat.zero_le _)⟩ requests hfails).2
  rintro requests reads stream request ⟨hbooks, hprogress⟩ hnone
  refine ⟨hbooks.read request, ?_⟩
  obtain ⟨read, hread, hsaid⟩ | hcount := hprogress
  · exact Or.inl ⟨read, List.mem_append_left _ hread, hsaid⟩
  · have hrequest := hnone request (List.mem_append_right _ (List.mem_singleton_self _))
    refine (hbooks.progress hrequest).imp_right fun hmore => ?_
    rw [List.length_append, List.length_singleton]
    exact lt_of_le_of_lt hcount hmore

/-- A stream whose books are kept is complete. -/
theorem Streaming.complete (h : Streaming serde file [] stream) : Complete serde stream file where
  first := fun requests => ⟨_, (h.run requests).bytes⟩
  all := by
    intro requests hsaid
    have hbooks := h.run requests
    obtain ⟨hdone, hpending⟩ := hbooks.said hsaid
    have hbytes := hbooks.bytes
    rw [hpending, hbooks.rest hdone, List.append_nil, List.append_nil] at hbytes
    exact hbytes
  ends := by
    intro sizes
    -- every read before the last one hands out a byte at least, and the file has no more than its length
    refine ⟨file.length + 1, ?_⟩
    refine (h.run_progress ?_).resolve_right ?_
    · intro request hrequest
      obtain ⟨i, -, rfl⟩ := List.mem_map.mp hrequest
      rfl
    · intro hmany
      rw [List.length_map, List.length_range] at hmany
      have hfirst := congrArg List.length (h.run
        ((List.range (file.length + 1)).map fun i => ⟨sizes i, false⟩)).bytes
      rw [List.length_append] at hfirst
      exact absurd (le_trans hmany (le_of_le_of_eq (Nat.le_add_right _ _) hfirst))
        (Nat.not_succ_le_self _)

end Reads

/-! ### Which streams are complete -/

/-- The header of a CSV file is a line. -/
theorem owed_csv_ne_nil {options : CsvOptions} (hheader : options.header = true)
    (columns : List String) : (ExportStreamFormat.csv options false).owed columns ≠ [] := by
  have hnewline : utf8 "\n" ≠ [] := by decide
  simp only [ExportStreamFormat.owed, hheader, Bool.not_false, Bool.and_true, ↓reduceIte, csvLine,
    utf8_append]
  exact List.append_ne_nil_of_right_ne_nil _ hnewline

/-- Only a CSV file with a header owes something. -/
theorem owed_eq_nil {format : ExportStreamFormat}
    (h : ¬ ∃ options, format = .csv options false ∧ options.header = true) (columns : List String) :
    format.owed columns = [] := by
  cases format with
  | csv options headerWritten =>
    refine if_neg fun hboth => ?_
    obtain ⟨hheader, hnot⟩ := (Bool.and_eq_true _ _).mp hboth
    cases headerWritten
    · exact h ⟨options, rfl, hheader⟩
    · exact absurd hnot (by decide)
  | ndjson => rfl

/-- A new stream keeps the books, unless it is done at once and owes a header. -/
theorem Streaming.new (serde : Serde) (result : QueryResult (List CellValue)) (columns : List String)
    (format : ExportStreamFormat) (maxRows : Option UInt64)
    (h : maxRows = some 0 → format.owed columns = []) :
    Streaming serde (exported serde result columns format maxRows) []
      (ExportStream.new result columns format maxRows) where
  bytes := rfl
  within := Nat.zero_le _
  budget := by
    intro hdone hzero
    obtain ⟨limit, hlimit, hnone⟩ := Option.map_eq_some_iff.mp hzero
    change maxRows = some limit at hlimit
    change limit.toNat - 0 = 0 at hnone
    -- a budget of nothing is a limit of nothing, at which the pager is done from the start
    have hlimit_zero : limit = 0 := UInt64.toNat_inj.mp (by rw [← Nat.sub_zero limit.toNat, hnone]; rfl)
    exact of_decide_eq_false hdone (by rw [hlimit, hlimit_zero])
  rest := by
    intro hdone
    have hzero : maxRows = some 0 := of_decide_eq_true hdone
    change format.owed columns ++ ((result.truncated maxRows).drop 0).flatMap _ = []
    rw [h hzero, hzero]
    rfl
  said := by
    rintro ⟨read, hread, -⟩
    exact absurd hread List.not_mem_nil

variable (serde)

/-- **Export streams are complete**, except for CSV files with a header that may have no rows. -/
theorem export_complete_iff (result : QueryResult (List CellValue)) (columns : List String)
    (format : ExportStreamFormat) (maxRows : Option UInt64) :
    Complete serde (ExportStream.new result columns format maxRows)
        (exported serde result columns format maxRows) ↔
      ¬ (maxRows = some 0 ∧ ∃ options, format = .csv options false ∧ options.header = true) := by
  constructor
  · -- the first read says that it was all
    rintro hcomplete ⟨rfl, options, rfl, hheader⟩
    have hall := hcomplete.all [⟨none, false⟩] ⟨([], true), List.mem_singleton_self _, rfl⟩
    have hfile : (ExportStreamFormat.csv options false).owed columns = [] := by
      change [] = _ ++ _ at hall
      exact (List.append_eq_nil_iff.mp hall.symm).1
    exact owed_csv_ne_nil hheader columns hfile
  · intro h
    refine (Streaming.new serde result columns format maxRows fun hzero => ?_).complete
    exact owed_eq_nil (fun hcsv => h ⟨hzero, hcsv⟩) columns

end Rendering

/-- A CSV file with a header and no rows, of a table with a column `a`: it is empty. -/
theorem export_without_header :
    let serde : Serde := ⟨fun _ => "", fun _ => .null⟩
    let options : CsvOptions := ⟨",", "\"", true, none, "utf-8"⟩
    (run (ExportStream.read serde) (ExportStream.new ⟨[], by decide⟩ ["a"] (.csv options false) (some 0))
        [⟨none, false⟩]).2 = [([], true)] ∧
      ¬ Complete serde (ExportStream.new ⟨[], by decide⟩ ["a"] (.csv options false) (some 0))
        (exported serde ⟨[], by decide⟩ ["a"] (.csv options false) (some 0)) := by
  refine ⟨rfl, fun hcomplete => ?_⟩
  have hall := hcomplete.all [⟨none, false⟩] ⟨([], true), List.mem_singleton_self _, rfl⟩
  exact absurd hall (by decide)

end Duckdb
end Navop
