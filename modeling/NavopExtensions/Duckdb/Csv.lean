import NavopExtensions.Duckdb.Export
import NavopExtensions.Lib.Csv.Writing

/-!
# Reading a CSV export back

`render_csv_rows` writes a field between quotes if it contains one of the marks, and doubles the
quotes in it. With a delimiter and a quote of several characters that is not enough: the end of a
field and the mark after it may form a mark together, which is read first. And the marker of `NULL`
goes through the same function, so that a marker with a delimiter, a quote or a line break is quoted
and reads as a text.
-/

namespace Navop
namespace Duckdb

open Csv

/-! ### Options -/

/-- `parse_csv_options`, after the options are deserialized. -/
def checkCsvOptions (options : CsvOptions) : Except String CsvOptions :=
  if options.delimiter = "" ∨ options.quote = "" then
    .error "CSV delimiter and quote must not be empty"
  else if options.encoding.toList.map Char.toLower ≠ "utf-8".toList then
    .error "DuckDB data/export only supports utf-8 CSV"
  else .ok options

/-- Options that are accepted, with marks that a reader can tell apart. -/
structure CsvOptions.Accepted (options : CsvOptions) : Prop where
  checked : checkCsvOptions options = .ok options
  delimiter_apart : containsText options.quote options.delimiter = false
  quote_apart : containsText options.delimiter options.quote = false
  newline : containsText options.delimiter "\n" = false ∧ containsText options.quote "\n" = false
  carriage : containsText options.delimiter "\r" = false ∧ containsText options.quote "\r" = false

theorem containsText_singleton (text : String) (c : Char) :
    containsText text (String.singleton c) = true ↔ c ∈ text.toList := by
  rw [containsText, decide_eq_true_iff, String.toList_singleton, List.singleton_infix_iff]

theorem CsvOptions.Accepted.nonempty {options : CsvOptions} (h : options.Accepted) :
    options.delimiter ≠ "" ∧ options.quote ≠ "" := by
  have hchecked := h.checked
  unfold checkCsvOptions at hchecked
  split at hchecked
  · cases hchecked
  · next hempty => exact not_or.1 hempty

/-- The format of a reader with the same options. -/
def CsvOptions.format (options : CsvOptions) (h : options.Accepted) : Format Char where
  delimiter := options.delimiter.toList
  quote := options.quote.toList
  newline := '\n'
  delimiter_ne := mt String.toList_eq_nil_iff.1 h.nonempty.1
  quote_ne := mt String.toList_eq_nil_iff.1 h.nonempty.2
  delimiter_apart := by simpa [containsText] using h.delimiter_apart
  quote_apart := by simpa [containsText] using h.quote_apart
  newline_delimiter hmem := by
    have hno := h.newline.1
    rw [← Bool.not_eq_true] at hno
    exact hno ((containsText_singleton _ '\n').2 hmem)
  newline_quote hmem := by
    have hno := h.newline.2
    rw [← Bool.not_eq_true] at hno
    exact hno ((containsText_singleton _ '\n').2 hmem)

/-- The marker of `NULL`, which is `\N` unless the options name another. -/
def CsvOptions.marker (options : CsvOptions) : String := options.nullString.getD "\\N"

/-- Whether `csv_escape` puts a value between quotes. -/
def needsQuote (options : CsvOptions) (value : String) (forceQuote : Bool) : Bool :=
  forceQuote || containsText value options.delimiter || containsText value "\n"
    || containsText value "\r" || containsText value options.quote

/-- A cell of a table of texts. -/
def cellValue : Option String → CellValue
  | none => .null
  | some text => .text text

/-- The field that a cell is written as. -/
def cellField (options : CsvOptions) : Option String → Csv.Field Char
  | none => ⟨needsQuote options options.marker false, options.marker.toList⟩
  | some text => ⟨needsQuote options text (text = "" || text = options.marker), text.toList⟩

/-- The field that the name of a column is written as. -/
def nameField (options : CsvOptions) (name : String) : Csv.Field Char :=
  ⟨needsQuote options name false, name.toList⟩

/-- The cell that a field is read as: only an unquoted marker is `NULL`. -/
def fieldCell (options : CsvOptions) (field : Csv.Field Char) : Option String :=
  if field.quoted = false ∧ String.ofList field.text = options.marker then none
  else some (String.ofList field.text)

/-- The name of a column that a field is read as. -/
def fieldName (field : Csv.Field Char) : String := String.ofList field.text

/-- The records of a file in UTF-8. -/
def readCsv (f : Format Char) (bytes : List UInt8) : Option (List (List (Csv.Field Char))) :=
  (String.fromUTF8? ⟨bytes.toArray⟩).bind fun text => readFile f text.toList

section Text

variable {serde : Serde} {options : CsvOptions}

/-! ### The text of an export -/

theorem readCsv_utf8 (f : Format Char) (text : String) :
    readCsv f (utf8 text) = readFile f text.toList := by
  have hbytes : (⟨(utf8 text).toArray⟩ : ByteArray) = text.toUTF8 := by simp [utf8]
  have htext : String.fromUTF8? text.toUTF8 = some text := by
    rw [String.fromUTF8?, String.toUTF8_eq_toByteArray, dif_pos text.isValidUTF8]
    rfl
  rw [readCsv, hbytes, htext]
  rfl

theorem toList_csvEscape (h : options.Accepted) (value : String) (forceQuote : Bool) :
    (csvEscape value options forceQuote).toList
      = Csv.Field.write (options.format h) ⟨needsQuote options value forceQuote, value.toList⟩ := by
  unfold csvEscape Csv.Field.write
  change (if needsQuote options value forceQuote then _ else _ : String).toList = _
  cases needsQuote options value forceQuote with
  | false => rfl
  | true =>
    simp only [if_true, String.toList_append, Text.toList_replace h.nonempty.2]
    rfl

/-- A line is a record of the fields of its values. -/
theorem toList_csvLine (h : options.Accepted) (values : List (String × Bool)) :
    (csvLine values options).toList = writeRecord (options.format h)
      (values.map fun value => ⟨needsQuote options value.1 value.2, value.1.toList⟩) := by
  unfold csvLine writeRecord
  rw [String.toList_append, String.toList_intercalate, List.map_map, List.map_map]
  congr 2
  refine List.map_congr_left fun value _ => ?_
  exact toList_csvEscape h value.1 value.2

/-- The text of a header. -/
theorem toList_header (h : options.Accepted) (columns : List String) :
    (csvLine (columns.map fun column => (column, false)) options).toList
      = writeRecord (options.format h) (columns.map (nameField options)) := by
  rw [toList_csvLine h, List.map_map]
  rfl

/-- The field of a cell is the one that `cell_to_csv_field` makes of it. -/
theorem cellField_eq (cell : Option String) :
    cellField options cell = ⟨needsQuote options (cellToCsvField serde (cellValue cell) options).1
      (cellToCsvField serde (cellValue cell) options).2,
      (cellToCsvField serde (cellValue cell) options).1.toList⟩ := by
  cases cell with
  | none => rfl
  | some text =>
    simp only [cellField, cellToCsvField, cellToCsvString, cellToJsonValue, cellValue,
      CsvOptions.marker, Bool.not_false, Bool.true_and]
    rfl

/-- The text of a row. -/
theorem toList_row (h : options.Accepted) (row : List (Option String)) :
    (csvLine ((row.map cellValue).map fun cell => cellToCsvField serde cell options) options).toList
      = writeRecord (options.format h) (row.map (cellField options)) := by
  rw [toList_csvLine h, List.map_map, List.map_map]
  congr 1
  refine List.map_congr_left fun cell _ => ?_
  exact (cellField_eq cell).symm

/-- What an export is read as: the records of its header, if it is to be written, and of its rows. -/
theorem readCsv_render (h : options.Accepted) (headerWritten : Bool) (columns : List String)
    (rows : List (List (Option String))) :
    readCsv (options.format h)
        (renderCsvRows serde options headerWritten columns (rows.map (List.map cellValue))).2
      = readFile (options.format h)
        ((if options.header && !headerWritten then
            writeRecord (options.format h) (columns.map (nameField options)) else [])
          ++ rows.flatMap fun row =>
            writeRecord (options.format h) (row.map (cellField options))) := by
  -- the rows of a page come out one behind the other, whatever stands in front of them
  have hrows : ∀ out : String, ((rows.map (List.map cellValue)).foldl (fun out row =>
        out ++ csvLine (row.map fun cell => cellToCsvField serde cell options) options) out).toList
      = out.toList ++ rows.flatMap fun row =>
        writeRecord (options.format h) (row.map (cellField options)) := by
    intro out
    induction rows generalizing out with
    | nil => simp
    | cons row rows ih =>
      rw [List.map_cons, List.foldl_cons, ih, String.toList_append, toList_row h, List.flatMap_cons,
        List.append_assoc]
  unfold renderCsvRows
  dsimp only
  rw [readCsv_utf8, hrows]
  -- the header, if it is still to be written
  congr 2
  split
  · exact toList_header h columns
  · rfl

/-! ### Fields and cells -/

/-- What a value that needs no quotes does not contain. -/
theorem not_infix_of_needsQuote (h : options.Accepted) {value : String} {forceQuote : Bool}
    (hno : needsQuote options value forceQuote = false) :
    ¬ (options.format h).delimiter <:+: value.toList ∧ ¬ (options.format h).quote <:+: value.toList
      ∧ '\n' ∉ value.toList := by
  simp only [needsQuote, Bool.or_eq_false_iff] at hno
  obtain ⟨⟨⟨⟨-, hdelimiter⟩, hnewline⟩, -⟩, hquote⟩ := hno
  refine ⟨of_decide_eq_false hdelimiter, of_decide_eq_false hquote, fun hmem => ?_⟩
  rw [← Bool.not_eq_true] at hnewline
  exact hnewline ((containsText_singleton value '\n').2 hmem)

/-- The value and the force with which a cell is escaped. -/
theorem exists_cellField (cell : Option String) : ∃ value force,
    cellField options cell = ⟨needsQuote options value force, value.toList⟩ := by
  cases cell with
  | none => exact ⟨_, _, rfl⟩
  | some text => exact ⟨_, _, rfl⟩

theorem bare_cellField (h : options.Accepted) (cell : Option String)
    (hbare : (cellField options cell).quoted = false) :
    ¬ (options.format h).delimiter <:+: (cellField options cell).text
      ∧ ¬ (options.format h).quote <:+: (cellField options cell).text
      ∧ '\n' ∉ (cellField options cell).text := by
  obtain ⟨value, force, hfield⟩ := @exists_cellField options cell
  rw [hfield] at hbare ⊢
  exact not_infix_of_needsQuote h hbare

/-- A field that is read as a cell and quoted like its field is its field. -/
theorem eq_cellField (field : Csv.Field Char) (cell : Option String)
    (hquoted : field.quoted = (cellField options cell).quoted)
    (hcell : fieldCell options field = cell) : field = cellField options cell := by
  obtain ⟨quoted, text⟩ := field
  unfold fieldCell at hcell
  split at hcell
  · next hnull =>
    subst hcell
    obtain rfl : text = options.marker.toList := by rw [← hnull.2, String.toList_ofList]
    exact congrArg (Csv.Field.mk · _) hquoted
  · subst hcell
    have htext : text = (cellField options (some (String.ofList text))).text :=
      (String.toList_ofList).symm
    calc (⟨quoted, text⟩ : Csv.Field Char)
        = ⟨(cellField options (some (String.ofList text))).quoted, text⟩ := by rw [← hquoted]
      _ = cellField options (some (String.ofList text)) := by rw [htext]; simp [cellField]

/-- A text is read as itself. -/
theorem fieldCell_some (text : String) :
    fieldCell options (cellField options (some text)) = some text := by
  unfold fieldCell
  rw [if_neg]
  · simp [cellField]
  · rintro ⟨hquoted, hmarker⟩
    have hsame : text = options.marker := by simpa [cellField] using hmarker
    simp [cellField, needsQuote, hsame] at hquoted

/-- `NULL` is read as itself if its marker needs no quotes. -/
theorem fieldCell_none :
    fieldCell options (cellField options none) = none
      ↔ needsQuote options options.marker false = false := by
  unfold fieldCell
  simp [cellField]

theorem fieldCell_iff (row : List (Option String)) :
    (∀ cell ∈ row, fieldCell options (cellField options cell) = cell)
      ↔ (none ∈ row → needsQuote options options.marker false = false) := by
  constructor
  · intro h hnone
    exact fieldCell_none.1 (h none hnone)
  · intro h cell hcell
    cases cell with
    | none => exact fieldCell_none.2 (h hcell)
    | some text => exact fieldCell_some text

/-- The name that a field of a header is read as is in the field. -/
theorem eq_nameField (field : Csv.Field Char) (name : String)
    (hquoted : field.quoted = (nameField options name).quoted) (hname : fieldName field = name) :
    field = nameField options name := by
  obtain ⟨quoted, text⟩ := field
  subst hname
  simp only [nameField, fieldName, String.toList_ofList] at hquoted ⊢
  rw [hquoted]

/-! ### What is read back -/

/-- An export is read back: the names of the columns, if there is a header, and the cells. -/
def ReadsBack (options : CsvOptions) (h : options.Accepted) (header : Bool) (columns : List String)
    (rows : List (List (Option String))) (bytes : List UInt8) : Prop :=
  ∃ records, readCsv (options.format h) bytes = some records ∧
    if header then
      ∃ names body, records = names :: body ∧ names.map fieldName = columns
        ∧ body.map (List.map (fieldCell options)) = rows
    else records.map (List.map (fieldCell options)) = rows

/-- **An export** in which no unquoted field looks like a quoted one is read back if and only if
every field ends where its text does, and the marker of a `NULL` needs no quotes. -/
theorem readsBack_iff (h : options.Accepted) {headerWritten : Bool} {columns : List String}
    {rows : List (List (Option String))} (hcolumns : columns ≠ []) (hrows : ∀ row ∈ rows, row ≠ [])
    (hnames : (options.header && !headerWritten) = true →
      Along (Csv.Field.Opens (options.format h)) (columns.map (nameField options)))
    (hopens : ∀ row ∈ rows,
      Along (Csv.Field.Opens (options.format h)) (row.map (cellField options))) :
    ReadsBack options h (options.header && !headerWritten) columns rows
        (renderCsvRows serde options headerWritten columns (rows.map (List.map cellValue))).2
      ↔ ((options.header && !headerWritten) = true →
          Along (Csv.Field.Closes (options.format h)) (columns.map (nameField options)))
        ∧ ∀ row ∈ rows, Along (Csv.Field.Closes (options.format h)) (row.map (cellField options))
          ∧ (none ∈ row → needsQuote options options.marker false = false) := by
  -- the rows alone: the library's equivalence, in which `fieldCell_iff` says when a cell keeps its kind
  have hbody := @readFile_write_iff _ _ (options.format h) _ (cellField options)
    (fieldCell options) eq_cellField (fun cell hbare => (bare_cellField h cell hbare).2.2) rows hrows
    hopens
  simp only [fieldCell_iff] at hbody
  have hline : ∀ name, (nameField options name).quoted = false →
      (options.format h).newline ∉ (nameField options name).text :=
    fun name hbare => (not_infix_of_needsQuote h hbare).2.2
  rw [ReadsBack, readCsv_render]
  cases hheader : options.header && !headerWritten with
  | false => simpa using hbody
  | true =>
    have hopen := hnames hheader
    simp only [if_true, forall_const]
    -- the header line is read first, and the rows are what it leaves
    rw [← hbody]
    constructor
    · rintro ⟨_, hread, names, body, rfl, hcolumn, hcells⟩
      obtain ⟨hclose, -, -, hrest⟩ := of_read_record eq_nameField hline hcolumns hopen hread hcolumn
      exact ⟨hclose, body, hrest, hcells⟩
    · rintro ⟨hclose, body, hread, hcells⟩
      have hrecord := recordText_writeRecord (by simpa using hcolumns)
        (List.forall_mem_map.2 fun name _ => hline name) hopen hclose
      have hall : readFile (options.format h)
          (writeRecord (options.format h) (columns.map (nameField options))
            ++ rows.flatMap fun row => writeRecord (options.format h) (row.map (cellField options)))
          = some (columns.map (nameField options) :: body) := by
        rw [readFile, read_record hrecord]
        exact congrArg (Option.map _) hread
      refine ⟨_, hall, _, body, rfl, ?_, hcells⟩
      simp [fieldName, nameField, Function.comp_def]

/-! ### Options with which every export is read back -/

/-- Options whose marks do not overlap, with a marker that needs no quotes. -/
structure CsvOptions.Sound (options : CsvOptions) : Prop where
  delimiter : ¬ Overlaps options.delimiter.toList options.delimiter.toList
  quote : ¬ Overlaps options.quote.toList options.quote.toList
  opening : ¬ Overlaps options.quote.toList options.delimiter.toList
  marker : needsQuote options options.marker false = false

/-- Every export with some options is read back. -/
def AlwaysReadsBack (serde : Serde) (options : CsvOptions) (h : options.Accepted) : Prop :=
  ∀ headerWritten columns rows, columns ≠ [] → (∀ row ∈ rows, row ≠ []) →
    ReadsBack options h (options.header && !headerWritten) columns rows
      (renderCsvRows serde options headerWritten columns (rows.map (List.map cellValue))).2

theorem alwaysReadsBack_of_sound (h : options.Accepted) (hsound : options.Sound) :
    AlwaysReadsBack serde options h := by
  have hopens : ∀ {field : Csv.Field Char},
      (field.quoted = false → ¬ (options.format h).quote <:+: field.text) →
      ∀ separator, field.Opens (options.format h) separator :=
    fun hbare => @opens_of_not_overlaps _ (options.format h) hsound.opening _ hbare
  have hcloses : ∀ {field : Csv.Field Char},
      (field.quoted = false → ¬ (options.format h).delimiter <:+: field.text) →
      ∀ separator, field.Closes (options.format h) separator :=
    fun hbare => @closes_of_not_overlaps _ _ (options.format h) hsound.delimiter hsound.quote _ hbare
  intro headerWritten columns rows hcolumns hrows
  -- marks that do not overlap themselves open and close around every field that lacks them
  refine (readsBack_iff h hcolumns hrows (fun _ => ?_) fun row _ => ?_).2
    ⟨fun _ => ?_, fun row _ => ⟨?_, fun _ => hsound.marker⟩⟩
  · refine along_of_forall (List.forall_mem_map.2 fun name _ => hopens fun hbare => ?_)
    exact (not_infix_of_needsQuote h hbare).2.1
  · refine along_of_forall (List.forall_mem_map.2 fun cell _ => hopens fun hbare => ?_)
    exact (bare_cellField h cell hbare).2.1
  · refine along_of_forall (List.forall_mem_map.2 fun name _ => hcloses fun hbare => ?_)
    exact (not_infix_of_needsQuote h hbare).1
  · refine along_of_forall (List.forall_mem_map.2 fun cell _ => hcloses fun hbare => ?_)
    exact (bare_cellField h cell hbare).1

/-- A cell that is written as a text without marks. -/
def bareCell (options : CsvOptions) (text : List Char) : Option String :=
  if String.ofList text = options.marker then none else some (String.ofList text)

/-- Part of a mark needs no quotes, unless it is or holds a mark itself. -/
theorem cellField_bareCell {text : List Char} (hne : text ≠ [])
    (hdelimiter : ¬ options.delimiter.toList <:+: text) (hquote : ¬ options.quote.toList <:+: text)
    (hnewline : '\n' ∉ text) (hcarriage : '\r' ∉ text) :
    cellField options (bareCell options text) = ⟨false, text⟩ := by
  -- no mark in the text, so that nothing forces the quotes
  have hneeds : needsQuote options (String.ofList text) false = false := by
    have hchar : ∀ c, c ∉ text → containsText (String.ofList text) (String.singleton c) = false := by
      intro c hc
      rw [← Bool.not_eq_true, containsText_singleton, String.toList_ofList]
      exact hc
    have hline : containsText (String.ofList text) "\n" = false := hchar '\n' hnewline
    have hreturn : containsText (String.ofList text) "\r" = false := hchar '\r' hcarriage
    simp only [needsQuote, hline, hreturn, Bool.false_or, Bool.or_false, Bool.or_eq_false_iff]
    simp only [containsText, String.toList_ofList, decide_eq_false_iff_not]
    exact ⟨hdelimiter, hquote⟩
  -- a text that is the null marker is written as a NULL, which stays bare as well
  unfold bareCell
  split
  · next hmarker =>
    simp only [cellField, ← hmarker, hneeds, String.toList_ofList]
  · next hmarker =>
    have hforce : (String.ofList text = "" || String.ofList text = options.marker) = false := by
      simp [hmarker, hne]
    simp only [cellField, hforce, hneeds, String.toList_ofList]

/-- The characters of marks do not end lines. -/
theorem notMem_of_mark (h : options.Accepted) {c : Char}
    (hc : c ∈ options.delimiter.toList ∨ c ∈ options.quote.toList) : c ≠ '\n' ∧ c ≠ '\r' := by
  have hno : ∀ {text : String} {d : Char}, containsText text (String.singleton d) = false →
      d ∉ text.toList := by
    intro text d hcontains hmem
    rw [(containsText_singleton text d).2 hmem] at hcontains
    cases hcontains
  have hnewline := h.newline
  have hcarriage := h.carriage
  constructor
  · rintro rfl
    exact hc.elim (@hno _ '\n' hnewline.1) (@hno _ '\n' hnewline.2)
  · rintro rfl
    exact hc.elim (@hno _ '\r' hcarriage.1) (@hno _ '\r' hcarriage.2)

/-- A single row after the header. -/
theorem AlwaysReadsBack.row {h : options.Accepted} (hall : AlwaysReadsBack serde options h)
    {row : List (Option String)} (hrow : row ≠ []) :
    ReadsBack options h (options.header && !true) ["c"] [row]
      (renderCsvRows serde options true ["c"] ([row].map (List.map cellValue))).2 :=
  hall true ["c"] [row] (by simp) (by simpa using hrow)

/-- A row whose fields open as they should is read back, so that they close. -/
theorem AlwaysReadsBack.closes {h : options.Accepted} (hall : AlwaysReadsBack serde options h)
    {row : List (Option String)} (hrow : row ≠ [])
    (hopens : Along (Csv.Field.Opens (options.format h)) (row.map (cellField options))) :
    Along (Csv.Field.Closes (options.format h)) (row.map (cellField options))
      ∧ (none ∈ row → needsQuote options options.marker false = false) := by
  have hiff := @readsBack_iff serde options h true ["c"] [row] (by simp) (by simpa using hrow)
    (by simp) (by simpa using hopens)
  exact (hiff.1 (hall.row hrow)).2 row List.mem_cons_self

theorem marker_of_alwaysReadsBack {h : options.Accepted} (hall : AlwaysReadsBack serde options h) :
    needsQuote options options.marker false = false := by
  by_contra hneeds
  rw [Bool.not_eq_false] at hneeds
  have hopens : Along (Csv.Field.Opens (options.format h)) ([none].map (cellField options)) := by
    intro hbare
    rw [show (cellField options none).quoted = true from hneeds] at hbare
    cases hbare
  have hmarker := (hall.closes (by simp) hopens).2 List.mem_cons_self
  rw [hneeds] at hmarker
  cases hmarker

theorem quote_of_alwaysReadsBack {h : options.Accepted} (hall : AlwaysReadsBack serde options h) :
    ¬ Overlaps options.quote.toList options.quote.toList := by
  intro hoverlaps
  obtain ⟨text, t, hmark, htext, ht, hstart⟩ := exists_of_overlaps hoverlaps
  -- A line break, so that the text is quoted, and then the beginning of a quote.
  let value := String.ofList ('\n' :: text)
  have hquoted : (cellField options (some value)).quoted = true := by
    have hline : containsText value "\n" = true :=
      (containsText_singleton value '\n').2 (by simp [value])
    simp [cellField, needsQuote, hline]
  have hopens : Along (Csv.Field.Opens (options.format h)) ([some value].map (cellField options)) := by
    intro hbare
    rw [hquoted] at hbare
    cases hbare
  have hcloses : (cellField options (some value)).Closes (options.format h) .newline :=
    (hall.closes (by simp) hopens).1
  unfold Csv.Field.Closes at hcloses
  rw [if_pos hquoted] at hcloses
  change closesAfter options.quote.toList 0 value.toList = true at hcloses
  rw [String.toList_ofList] at hcloses
  have hnewline : '\n' ∉ options.quote.toList := fun hmem => (notMem_of_mark h (.inr hmem)).1 rfl
  have hline : ¬ options.quote.toList <+: '\n' :: text := by
    intro hline
    rw [hmark] at hline hnewline
    cases text with
    | nil => exact htext rfl
    | cons c text =>
      obtain ⟨rfl, -⟩ := List.cons_prefix_cons.1 hline
      exact hnewline List.mem_cons_self
  have hrest := ((closesAfter_char hline).1 hcloses).2
  have hlonger : ¬ options.quote.toList <+: text := by
    intro hin
    have hlength := hin.length_le
    have hpos := List.length_pos_iff.2 ht
    rw [hmark, List.length_append] at hlength
    omega
  cases text with
  | nil => exact htext rfl
  | cons c text =>
    refine ((closesAfter_char hlonger).1 hrest).1 ?_
    conv_lhs => rw [hmark]
    exact (List.prefix_append_right_inj _).2 hstart

/-- A beginning of the quote that a delimiter completes, twice in a row. -/
theorem opening_of_alwaysReadsBack {h : options.Accepted}
    (hall : AlwaysReadsBack serde options h) :
    ¬ Overlaps options.quote.toList options.delimiter.toList := by
  intro hoverlaps
  obtain ⟨text, t, hmark, htext, ht, ⟨later, hlater⟩⟩ := exists_of_overlaps hoverlaps
  have hquote : (options.format h).quote = text ++ t := hmark
  have hdelimiter : (options.format h).delimiter = t ++ later := hlater.symm
  have hpos := List.length_pos_iff.2 ht
  have hsub : ∀ c ∈ text, c ≠ '\n' ∧ c ≠ '\r' := fun c hc =>
    notMem_of_mark h (.inr (hmark ▸ List.mem_append_left _ hc))
  have hfield : cellField options (bareCell options text) = ⟨false, text⟩ := by
    refine cellField_bareCell htext (fun hin => ?_) (fun hin => ?_)
      (fun hc => (hsub _ hc).1 rfl) fun hc => (hsub _ hc).2 rfl
    · refine (options.format h).delimiter_apart ?_
      rw [hquote]
      exact hin.trans (List.prefix_append _ _).isInfix
    · have hlength := hin.length_le
      rw [hmark, List.length_append] at hlength
      omega
  obtain ⟨records, hread, hcells⟩ := hall.row (List.cons_ne_nil (bareCell options text)
    [bareCell options text])
  rw [readCsv_render] at hread
  simp only [Bool.not_true, Bool.and_false, reduceCtorEq, if_false] at hread hcells
  obtain ⟨first, others, rfl, hfirst, -⟩ := List.map_eq_cons_iff.1 hcells
  have hrow : writeRecord (options.format h)
      ([bareCell options text, bareCell options text].map (cellField options))
      = (options.format h).quote ++ (later ++ (text ++ ['\n'])) := by
    have hnewline : (options.format h).newline = '\n' := rfl
    simp [writeRecord, hfield, Csv.Field.write, hdelimiter, hquote, hnewline]
  rw [List.nil_append, List.flatMap_singleton, hrow, readFile, read_start_quote] at hread
  have hlength := length_of_read_quoted hread (by
    have hlen := congrArg List.length hfirst
    simp only [List.length_map, List.length_cons, List.length_nil] at hlen ⊢
    omega)
  rw [hquote, hdelimiter] at hlength
  -- A quote and a delimiter would have to fit in what is left of the text.
  simp only [List.length_append, List.length_cons, List.length_nil] at hlength
  omega

theorem delimiter_of_alwaysReadsBack {h : options.Accepted}
    (hall : AlwaysReadsBack serde options h) :
    ¬ Overlaps options.delimiter.toList options.delimiter.toList := by
  intro hoverlaps
  -- a delimiter that overlaps itself is `text ++ t`, and `text` before it starts a delimiter too early
  obtain ⟨text, t, hmark, htext, ht, hstart⟩ := exists_of_overlaps hoverlaps
  have hdelimiter : (options.format h).delimiter = text ++ t := hmark
  have hpos := List.length_pos_iff.2 ht
  have hsub : ∀ c ∈ text, c ≠ '\n' ∧ c ≠ '\r' := fun c hc =>
    notMem_of_mark h (.inl (hmark ▸ List.mem_append_left _ hc))
  have hfield : cellField options (bareCell options text) = ⟨false, text⟩ := by
    refine cellField_bareCell htext (fun hin => ?_) (fun hin => ?_)
      (fun hc => (hsub _ hc).1 rfl) fun hc => (hsub _ hc).2 rfl
    · have hlength := hin.length_le
      rw [hmark, List.length_append] at hlength
      omega
    · refine (options.format h).quote_apart ?_
      rw [hdelimiter]
      exact hin.trans (List.prefix_append _ _).isInfix
  have hopens : Along (Csv.Field.Opens (options.format h))
      ([bareCell options text, bareCell options text].map (cellField options)) :=
    along_of_forall (List.forall_mem_map.2 fun cell _ =>
      @opens_of_not_overlaps _ (options.format h) (opening_of_alwaysReadsBack hall) _
        fun hbare => (bare_cellField h cell hbare).2.1)
  -- two such cells side by side would have to close
  have hcloses := (hall.closes (by simp) hopens).1.1
  rw [hfield] at hcloses
  refine hcloses text ((List.mem_tails _ _).2 (List.suffix_refl _)) htext ?_
  change (options.format h).delimiter <+: text ++ (options.format h).delimiter
  conv_lhs => rw [hdelimiter]
  exact (List.prefix_append_right_inj _).2 hstart

/-- **CSV exports** with some options are all read back if and only if the options are sound: no mark
overlaps with itself, the quote does not with the delimiter, and the marker needs no quotes. One
export in which no unquoted field looks like a quoted one is read back if and only if its fields end
where their texts do and the marker of a `NULL` in it needs no quotes. -/
theorem csv_reads_back_iff (h : options.Accepted) :
    (AlwaysReadsBack serde options h ↔ options.Sound) ∧
    ∀ headerWritten columns rows, columns ≠ [] → (∀ row ∈ rows, row ≠ []) →
      ((options.header && !headerWritten) = true →
        Along (Csv.Field.Opens (options.format h)) (columns.map (nameField options))) →
      (∀ row ∈ rows, Along (Csv.Field.Opens (options.format h)) (row.map (cellField options))) →
      (ReadsBack options h (options.header && !headerWritten) columns rows
          (renderCsvRows serde options headerWritten columns (rows.map (List.map cellValue))).2
        ↔ ((options.header && !headerWritten) = true →
            Along (Csv.Field.Closes (options.format h)) (columns.map (nameField options)))
          ∧ ∀ row ∈ rows, Along (Csv.Field.Closes (options.format h)) (row.map (cellField options))
            ∧ (none ∈ row → needsQuote options options.marker false = false)) :=
  ⟨⟨fun hall => ⟨delimiter_of_alwaysReadsBack hall, quote_of_alwaysReadsBack hall,
      opening_of_alwaysReadsBack hall, marker_of_alwaysReadsBack hall⟩,
    alwaysReadsBack_of_sound h⟩,
    fun _ _ _ hcolumns hrows hnames hopens => readsBack_iff h hcolumns hrows hnames hopens⟩

end Text

/-- The options that a request without options has. -/
def defaultOptions : CsvOptions := ⟨",", "\"", true, none, "utf-8"⟩

theorem accepted_defaultOptions : defaultOptions.Accepted where
  checked := by decide
  delimiter_apart := by decide
  quote_apart := by decide
  newline := by decide
  carriage := by decide

/-- With them, every export is read back. -/
theorem csv_reads_back_default :
    AlwaysReadsBack ⟨fun _ => "", fun _ => .null⟩ defaultOptions accepted_defaultOptions :=
  (csv_reads_back_iff accepted_defaultOptions).1.2
    ⟨by decide, by decide, by decide, by decide⟩

/-- Two semicolons as delimiter. -/
def semicolons : CsvOptions := ⟨";;", "\"", false, none, "utf-8"⟩

/-- A marker with a comma. -/
def commaMarker : CsvOptions := ⟨",", "\"", false, some "n,a", "utf-8"⟩

theorem accepted_semicolons : semicolons.Accepted where
  checked := by decide
  delimiter_apart := by decide
  quote_apart := by decide
  newline := by decide
  carriage := by decide

theorem accepted_commaMarker : commaMarker.Accepted where
  checked := by decide
  delimiter_apart := by decide
  quote_apart := by decide
  newline := by decide
  carriage := by decide

/-- **Exports that are read as something else.** The delimiter that begins in the end of a text, and a
`NULL` whose marker is quoted. -/
theorem csv_not_read_back :
    (¬ ReadsBack semicolons accepted_semicolons false ["a", "b"] [[some "x;", some "y"]]
      (renderCsvRows ⟨fun _ => "", fun _ => .null⟩ semicolons false ["a", "b"]
        [[.text "x;", .text "y"]]).2) ∧
    ¬ ReadsBack commaMarker accepted_commaMarker false ["a"] [[none]]
      (renderCsvRows ⟨fun _ => "", fun _ => .null⟩ commaMarker false ["a"] [[.null]]).2 := by
  constructor
  · intro hread
    have hiff := @readsBack_iff ⟨fun _ => "", fun _ => .null⟩ _ accepted_semicolons false ["a", "b"]
      [[some "x;", some "y"]] (by simp) (by simp) (by decide) (by decide)
    exact absurd (hiff.1 hread).2 (by decide)
  · intro hread
    have hiff := @readsBack_iff ⟨fun _ => "", fun _ => .null⟩ _ accepted_commaMarker false ["a"]
      [[none]] (by simp) (by simp) (by decide) (by decide)
    exact absurd (hiff.1 hread).2 (by decide)

end Duckdb
end Navop
