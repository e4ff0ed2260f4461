import NavopExtensions.Gbase8a.Text
import NavopExtensions.Lib.Csv.Appending
import NavopExtensions.Lib.Linked

/-!
# Exports of the GBase 8a driver

A result holds its rows as maps with the members `type` and `value`, in the form in which they are sent
to the host. `exportBytes` renders a result. Every row becomes a map from labels to values first, so that columns with
the same label get the same value. The delimiter, the quote and the marker of `NULL` are read as trimmed
texts, where a blank one means the default, and the marker is written as it is.
-/

namespace Navop
namespace Gbase8aData

open Csv

/-! ### Cells of a result -/

/-- The value of a cell: a `Boolean`, a `Long`, a `Double` with its bits, or a `String`. -/
inductive Object
  | bool (value : Bool)
  | i64 (value : ℤ)
  | f64 (bits : UInt64)
  | text (value : String)
  deriving DecidableEq

/-- A cell: the members `type` and `value`. -/
structure Cell where
  type : String
  value : Option Object
  deriving DecidableEq

/-- `String.valueOf`, where `doubleToString` is that of a `Double`. -/
def Object.valueOf (doubleToString : UInt64 → String) : Object → String
  | .bool value => toString value
  | .i64 value => toString value
  | .f64 bits => doubleToString bits
  | .text value => value

/-- `QueryResult`, with the labels of its columns. -/
structure QueryResult where
  columnNames : List String
  rows : List (List Cell)

/-! ### Rendering -/

/-- A row as an object: its values under their labels. -/
abbrev RowObject := List (String × Option Object)

/-- The methods of the JSON mapper that an export uses. -/
structure Mapper where
  writeValueAsBytes : List RowObject → Except String (List UInt8)
  writeValueAsString : RowObject → Except String String

/-- The options of an export: what their members are as texts. -/
structure ExportOptions where
  delimiter : Option String
  quote : Option String
  nullString : Option String
  header : Option Bool

/-- `textOrEmpty`: the trimmed text, and the empty one for a field that is missing. -/
def textOrEmpty (node : Option String) : String := JavaText.trim (node.getD "")

/-- `optionalText`: the trimmed text, or the default if it is blank. -/
def optionalText (node : Option String) (defaultValue : String) : String :=
  if textOrEmpty node = "" then defaultValue else textOrEmpty node

/-- `rowValue`: the value of a cell, none for a NULL and beyond the end of the row. -/
def rowValue (row : List Cell) (index : ℕ) : Option Object :=
  row[index]?.bind fun cell => if cell.type = "null" then none else cell.value

/-- `rowsAsObjects`: a row as an object, in which the last of two equal names wins. -/
def rowsAsObjects (query : QueryResult) : List RowObject :=
  query.rows.map fun row =>
    Linked.ofPairs (query.columnNames.mapIdx fun i name => (name, rowValue row i))

/-- Whether `csvCell` puts a text between quotes. -/
def quoteField (text nullString : String) (delimiter quote : Char) : Bool :=
  text = "" || text = nullString || text.toList.contains delimiter || text.toList.contains quote
    || text.toList.contains '\n' || text.toList.contains '\r'

/-- `getBytes(StandardCharsets.UTF_8)`: the UTF-8 of a text. -/
def getBytes (text : String) : List UInt8 := text.toUTF8.data.toList

section Rendering

variable (doubleToString : UInt64 → String) (mapper : Mapper)

/-- `csvCell`: the text of a value, in quotes, with those inside doubled, where it has to be. -/
def csvCell (value : Option Object) (nullString : String) (delimiter quote : Char) : String :=
  match value with
  | none => nullString
  | some value =>
    let text := value.valueOf doubleToString
    if quoteField text nullString delimiter quote then
      let quoteText := String.singleton quote
      quoteText ++ text.replace quoteText (quoteText ++ quoteText) ++ quoteText
    else text

/-- The CSV text that `exportBytes` renders. -/
def csvText (query : QueryResult) (options : ExportOptions) : String :=
  let nullString := optionalText options.nullString "\\N"
  let delimiter := (optionalText options.delimiter ",").toList.headD ','
  let quote := (optionalText options.quote "\"").toList.headD '"'
  let cell (value : Option Object) : String :=
    csvCell doubleToString value nullString delimiter quote
  let line (cells : List String) : String := (String.singleton delimiter).intercalate cells ++ "\n"
  let header := if options.header.getD true then
      line (query.columnNames.map fun name => cell (some (.text name))) else ""
  header ++ String.join ((rowsAsObjects query).map fun row =>
    line (query.columnNames.map fun name => cell (row.lookup name).join))

/-- `exportBytes`: the whole export at once, in one of three formats. -/
def exportBytes (format : String) (query : QueryResult) (options : ExportOptions) :
    Except String (List UInt8) :=
  if format = "json" then mapper.writeValueAsBytes (rowsAsObjects query)
  else if format = "ndjson" then do
    let lines ← (rowsAsObjects query).mapM mapper.writeValueAsString
    return getBytes (String.join (lines.map (· ++ "\n")))
  else if format = "csv" then .ok (getBytes (csvText doubleToString query options))
  else .error ("export format `" ++ format ++ "` is not supported")

end Rendering

/-! ### Reading an export -/

/-- A `char` of Java that is a character by itself: one below 0x10000. -/
abbrev JavaChar := { c : Char // c.toNat < 0x10000 }

/-- A delimiter and a quote that a reader can tell apart, from each other and from the ends of lines. -/
structure Marks where
  delimiter : JavaChar
  quote : JavaChar
  ne : delimiter ≠ quote
  delimiter_line : delimiter.1 ≠ '\n' ∧ delimiter.1 ≠ '\r'
  quote_line : quote.1 ≠ '\n' ∧ quote.1 ≠ '\r'

/-- The options of an export with some marks and a marker of `NULL`. -/
def Marks.options (marks : Marks) (nullString : String) : ExportOptions where
  delimiter := some (String.singleton marks.delimiter)
  quote := some (String.singleton marks.quote)
  nullString := some nullString
  header := none

/-- The format of two characters. -/
def charFormat (delimiter quote : Char) (hne : delimiter ≠ quote) (hdelimiter : delimiter ≠ '\n')
    (hquote : quote ≠ '\n') : Format Char where
  delimiter := [delimiter]
  quote := [quote]
  newline := '\n'
  delimiter_ne := List.cons_ne_nil _ _
  quote_ne := List.cons_ne_nil _ _
  delimiter_apart := by simpa [List.singleton_infix_iff] using hne
  quote_apart := by simpa [List.singleton_infix_iff] using hne.symm
  newline_delimiter := by simpa using hdelimiter.symm
  newline_quote := by simpa using hquote.symm

/-- The format of a reader with the same marks. -/
def Marks.format (marks : Marks) : Format Char :=
  charFormat marks.delimiter marks.quote (Subtype.coe_ne_coe.2 marks.ne) marks.delimiter_line.1
    marks.quote_line.1

/-- The records of a file in UTF-8. -/
def readBytes (f : Format Char) (bytes : List UInt8) : Option (List (List (Csv.Field Char))) :=
  (String.fromUTF8? ⟨bytes.toArray⟩).bind fun text => readFile f text.toList

/-- The cell that a field is read as: only an unquoted marker is `NULL`. -/
def readCell (nullString : String) (field : Csv.Field Char) : Option String :=
  if field.quoted = false ∧ String.ofList field.text = nullString then none
  else some (String.ofList field.text)

/-- A cell with a text or `NULL`. -/
def textCell : Option String → Cell
  | none => ⟨"null", none⟩
  | some text => ⟨"text", some (.text text)⟩

/-- A table of texts: every row has a cell for every label. -/
structure Table where
  labels : List String
  rows : List (List (Option String))
  width : ∀ row ∈ rows, row.length = labels.length

/-- The result with the cells of a table. -/
def Table.query (table : Table) : QueryResult := ⟨table.labels, table.rows.map (List.map textCell)⟩

/-- An export is read as the labels and the rows of its table. -/
def KeepsTable (marks : Marks) (nullString : String) (table : Table) (bytes : List UInt8) : Prop :=
  ∃ records, readBytes marks.format bytes = some records ∧
    records.map (List.map (readCell nullString)) = table.labels.map some :: table.rows

theorem readBytes_getBytes (f : Format Char) (text : String) :
    readBytes f (getBytes text) = readFile f text.toList := by
  have hbytes : (⟨(getBytes text).toArray⟩ : ByteArray) = text.toUTF8 := by simp [getBytes]
  have htext : String.fromUTF8? text.toUTF8 = some text := dif_pos text.isValidUTF8
  rw [readBytes, hbytes, htext]
  rfl

/-! ### What an export uses -/

/-- The delimiter that an export writes. -/
def Marks.usedDelimiter (marks : Marks) : Char :=
  if marks.delimiter.1 ≤ ' ' then ',' else marks.delimiter

/-- The quote that an export writes. -/
def Marks.usedQuote (marks : Marks) : Char := if marks.quote.1 ≤ ' ' then '"' else marks.quote

/-- The marker of `NULL` that an export writes. -/
def usedMarker (nullString : String) : String := optionalText (some nullString) "\\N"

theorem trim_singleton (c : Char) :
    JavaText.trim (String.singleton c) = if c ≤ ' ' then "" else String.singleton c := by
  apply String.toList_inj.1
  rw [JavaText.toList_trim, String.toList_singleton]
  by_cases hc : c ≤ ' ' <;> simp [JavaText.isTrimmed, hc, List.rdropWhile]

theorem headD_optionalText (c : Char) {d : Char} {text : String} (htext : text.toList = [d]) :
    (optionalText (some (String.singleton c)) text).toList.headD d = if c ≤ ' ' then d else c := by
  rw [optionalText, textOrEmpty, Option.getD_some, trim_singleton]
  by_cases hc : c ≤ ' ' <;> simp [hc, htext]

theorem usedMarker_ne (nullString : String) : usedMarker nullString ≠ "" := by
  unfold usedMarker optionalText
  split
  · decide
  · assumption

theorem trim_usedMarker (nullString : String) :
    JavaText.trim (usedMarker nullString) = usedMarker nullString := by
  unfold usedMarker optionalText textOrEmpty
  split
  · decide +kernel
  · exact JavaText.trim_trim

/-- No mark that is written is blank. -/
theorem Marks.blank_lt_used (marks : Marks) :
    ' ' < marks.usedDelimiter ∧ ' ' < marks.usedQuote := by
  unfold Marks.usedDelimiter Marks.usedQuote
  constructor
  · split
    · decide
    · next h => exact Std.not_le.1 h
  · split
    · decide
    · next h => exact Std.not_le.1 h

section Lines

variable {doubleToString : UInt64 → String} {marks : Marks} {nullString : String}

/-- The values that are written in the columns of a row. -/
def rowCells (labels : List String) (row : List (Option String)) : List (Option Object) :=
  labels.map fun name => ((Linked.ofPairs (labels.mapIdx fun i name =>
    (name, rowValue (row.map textCell) i))).lookup name).join

/-- The line of some values. -/
def Marks.line (doubleToString : UInt64 → String) (marks : Marks) (nullString : String)
    (cells : List (Option Object)) : List Char :=
  [marks.usedDelimiter].intercalate (cells.map fun cell => (csvCell doubleToString cell
    (usedMarker nullString) marks.usedDelimiter marks.usedQuote).toList) ++ ['\n']

/-- The text of an export: the line of the labels, and those of the rows. -/
theorem toList_csvText (table : Table) :
    (csvText doubleToString table.query (marks.options nullString)).toList
      = marks.line doubleToString nullString (table.labels.map fun name => some (.text name))
        ++ table.rows.flatMap fun row =>
          marks.line doubleToString nullString (rowCells table.labels row) := by
  have hdelimiter : (optionalText (marks.options nullString).delimiter ",").toList.headD ','
      = marks.usedDelimiter := headD_optionalText marks.delimiter.1 (by decide)
  have hquote : (optionalText (marks.options nullString).quote "\"").toList.headD '"'
      = marks.usedQuote := headD_optionalText marks.quote.1 (by decide)
  have hmarker : optionalText (marks.options nullString).nullString "\\N"
      = usedMarker nullString := rfl
  have hheader : (marks.options nullString).header.getD true = true := rfl
  unfold csvText
  simp only [hdelimiter, hquote, hmarker, hheader, if_true, String.toList_append,
    String.toList_intercalate, String.toList_singleton, String.toList_join, List.map_map,
    List.flatMap_map, Function.comp_def, rowsAsObjects, Table.query, Marks.line, rowCells]
  rfl

/-- The value of a cell. -/
def cellObject (cell : Option String) : Option Object := cell.map Object.text

theorem rowValue_textCell (row : List (Option String)) {i : ℕ} (hi : i < row.length) :
    rowValue (row.map textCell) i = cellObject row[i] := by
  rw [rowValue, List.getElem?_map, List.getElem?_eq_getElem hi]
  cases row[i] <;> simp [textCell, cellObject]

/-- What is put into the map of a row. -/
theorem mapIdx_rowValue {labels : List String} {row : List (Option String)}
    (hlen : row.length = labels.length) :
    (labels.mapIdx fun i name => (name, rowValue (row.map textCell) i))
      = labels.zip (row.map cellObject) := by
  apply List.ext_getElem
  · simp [hlen]
  · intro i hleft hright
    have hi : i < row.length := by simpa [hlen] using hleft
    rw [List.getElem_mapIdx, List.getElem_zip, List.getElem_map, rowValue_textCell row hi]

/-- With labels that differ, the cells of a row are written. -/
theorem rowCells_of_nodup {labels : List String} (hlabels : labels.Nodup)
    {row : List (Option String)} (hlen : row.length = labels.length) :
    rowCells labels row = row.map cellObject := by
  rw [rowCells, mapIdx_rowValue hlen]
  have hlookup := @Linked.map_lookup_zip _ _ _ labels (row.map cellObject) hlabels
    (by simpa using hlen)
  calc labels.map (fun name => ((Linked.ofPairs (labels.zip (row.map cellObject))).lookup name).join)
      = (labels.map fun name =>
          (Linked.ofPairs (labels.zip (row.map cellObject))).lookup name).map Option.join := by
        rw [List.map_map]
        rfl
    _ = row.map cellObject := by
        rw [hlookup, List.map_map]
        simp [Function.comp_def]

/-- With a label that occurs twice, two rows are written alike. -/
theorem exists_rowCells_eq {labels : List String} (hlabels : ¬ labels.Nodup) :
    ∃ row row' : List (Option String), row.length = labels.length ∧ row'.length = labels.length
      ∧ row ≠ row' ∧ rowCells labels row = rowCells labels row' := by
  have hne : cellObject (some "a") ≠ cellObject (some "b") := by decide
  -- two rows that differ in a column whose label comes once more, so that the object of the row is the
  -- same
  obtain ⟨values, values', hlen, hlen', hvalues, hall, hall', hsame⟩ :=
    Linked.exists_lookup_zip_eq hlabels hne
  -- the two values of the rows that are found stand for two texts
  let back (value : Option Object) : Option String :=
    if value = cellObject (some "a") then some "a" else some "b"
  have hback : ∀ vs : List (Option Object),
      (∀ value ∈ vs, value = cellObject (some "a") ∨ value = cellObject (some "b")) →
      (vs.map back).map cellObject = vs := by
    intro vs hvs
    rw [List.map_map]
    refine (List.map_congr_left fun value hvalue => ?_).trans (List.map_id vs)
    rcases hvs value hvalue with rfl | rfl <;> simp [back, hne.symm]
  refine ⟨values.map back, values'.map back, by simpa using hlen, by simpa using hlen', ?_, ?_⟩
  · intro heq
    exact hvalues (by rw [← hback values hall, heq, hback values' hall'])
  · rw [rowCells, rowCells, mapIdx_rowValue (by simpa using hlen),
      mapIdx_rowValue (by simpa using hlen'), hback values hall, hback values' hall']
    simp only [hsame]

/-! ### Options that are kept -/

/-- The field that a cell is written as. -/
def cellField (nullString : String) (delimiter quote : Char) : Option String → Csv.Field Char
  | none => ⟨false, nullString.toList⟩
  | some text => ⟨quoteField text nullString delimiter quote, text.toList⟩

theorem csvCell_text (text : String) (delimiter quote : Char) :
    csvCell doubleToString (some (.text text)) nullString delimiter quote
      = if quoteField text nullString delimiter quote then
          String.singleton quote ++ text.replace (String.singleton quote)
            (String.singleton quote ++ String.singleton quote) ++ String.singleton quote
        else text := rfl

theorem toList_csvCell {delimiter quote : Char} (hne : delimiter ≠ quote) (hdelimiter : delimiter ≠ '\n')
    (hquote : quote ≠ '\n') (cell : Option String) :
    (csvCell doubleToString (cellObject cell) nullString delimiter quote).toList
      = Field.write (charFormat delimiter quote hne hdelimiter hquote)
        (cellField nullString delimiter quote cell) := by
  cases cell with
  | none => rfl
  | some text =>
    have hquoted : String.singleton quote ≠ "" := by
      rw [Ne, ← String.toList_inj, String.toList_singleton]
      exact List.cons_ne_nil _ _
    rw [cellObject, Option.map_some, csvCell_text, cellField, Field.write]
    by_cases hfield : quoteField text nullString delimiter quote = true
    · rw [if_pos hfield, if_pos hfield, String.toList_append, String.toList_append,
        Text.toList_replace hquoted, String.toList_append, String.toList_singleton]
      rfl
    · rw [if_neg hfield, if_neg hfield]

/-- What a text that needs no quotes does not contain. -/
theorem notMem_of_quoteField {text : String} {delimiter quote : Char}
    (h : quoteField text nullString delimiter quote = false) :
    delimiter ∉ text.toList ∧ quote ∉ text.toList ∧ '\n' ∉ text.toList := by
  simp only [quoteField, Bool.or_eq_false_iff] at h
  obtain ⟨⟨⟨⟨-, hdelimiter⟩, hquote⟩, hnewline⟩, -⟩ := h
  simp only [List.contains_eq_mem, decide_eq_false_iff_not] at hdelimiter hquote hnewline
  exact ⟨hdelimiter, hquote, hnewline⟩

/-- A text is read as itself. -/
theorem readCell_some (text : String) (delimiter quote : Char) :
    readCell nullString (cellField nullString delimiter quote (some text)) = some text := by
  unfold readCell
  rw [if_neg]
  · simp [cellField]
  · rintro ⟨hquoted, hmarker⟩
    have hsame : text = nullString := by simpa [cellField] using hmarker
    simp [cellField, quoteField, hsame] at hquoted

/-- Options that an export honours: marks that are not blank, and a marker that is trimmed and looks
neither like a quoted field nor like several. -/
structure Honoured (marks : Marks) (nullString : String) : Prop where
  delimiter : ' ' < marks.delimiter.1
  quote : ' ' < marks.quote.1
  nonempty : nullString ≠ ""
  trimmed : JavaText.trim nullString = nullString
  apart : marks.delimiter.1 ∉ nullString.toList ∧ '\n' ∉ nullString.toList
  bare : nullString.toList.head? ≠ some marks.quote.1

theorem Honoured.usedDelimiter (h : Honoured marks nullString) :
    marks.usedDelimiter = marks.delimiter := if_neg (Std.not_le.2 h.delimiter)

theorem Honoured.usedQuote (h : Honoured marks nullString) : marks.usedQuote = marks.quote :=
  if_neg (Std.not_le.2 h.quote)

theorem Honoured.usedMarker (h : Honoured marks nullString) : usedMarker nullString = nullString := by
  rw [Gbase8aData.usedMarker, optionalText, textOrEmpty, Option.getD_some, h.trimmed,
    if_neg h.nonempty]

/-- The field of a cell is no other one before a separator. -/
theorem Honoured.fieldText (h : Honoured marks nullString) (separator : Separator)
    (cell : Option String) :
    FieldText marks.format separator (cellField nullString marks.delimiter marks.quote cell)
      (Field.write marks.format (cellField nullString marks.delimiter marks.quote cell)) := by
  -- Neither mark begins in a text without them, not even together with the separator.
  have hdelimiter : ∀ {text : List Char}, marks.delimiter.1 ∉ text → ∀ t ∈ text.tails, t ≠ [] →
      ¬ marks.format.delimiter <+: t ++ separator.mark marks.format := by
    rintro text hno t ht hne ⟨rest, hrest⟩
    cases t with
    | nil => exact hne rfl
    | cons c t =>
      obtain ⟨rfl, -⟩ := List.cons.inj hrest
      exact hno (((List.mem_tails _ _).1 ht).subset List.mem_cons_self)
  have hquote : ∀ {text : List Char}, text ≠ [] → text.head? ≠ some marks.quote.1 →
      ¬ marks.format.quote <+: text ++ separator.mark marks.format := by
    rintro text hne hno ⟨rest, hrest⟩
    cases text with
    | nil => exact hne rfl
    | cons c text =>
      obtain ⟨rfl, -⟩ := List.cons.inj hrest
      exact hno rfl
  cases cell with
  | none =>
    refine .bare ⟨hquote ?_ h.bare, hdelimiter h.apart.1, h.apart.2⟩
    exact mt String.toList_eq_nil_iff.1 h.nonempty
  | some text =>
    rw [cellField]
    cases hfield : quoteField text nullString marks.delimiter marks.quote with
    | false =>
      obtain ⟨hd, hq, hn⟩ := notMem_of_quoteField hfield
      refine .bare ⟨hquote ?_ ?_, hdelimiter hd, hn⟩
      · intro hnil
        rw [String.toList_eq_nil_iff] at hnil
        simp [quoteField, hnil] at hfield
      · exact fun hhead => hq (List.mem_of_mem_head? hhead)
    | true =>
      refine .quoted (escaped_of_closesAfter marks.format.quote_ne ?_)
      refine closesAfter_of_not_overlaps marks.format.quote_ne ?_
      simp [Overlaps, Marks.format, charFormat]

/-- The line of some cells is written from their fields. -/
theorem Honoured.line_eq (h : Honoured marks nullString) (cells : List (Option String)) :
    marks.line doubleToString nullString (cells.map cellObject) = writeRecord marks.format
      (cells.map (cellField nullString marks.delimiter marks.quote)) := by
  unfold Marks.line writeRecord
  rw [h.usedDelimiter, h.usedQuote, h.usedMarker, List.map_map, List.map_map]
  congr 2
  exact List.map_congr_left fun cell _ => toList_csvCell _ _ _ cell

/-- The fields of some cells are a record. -/
theorem Honoured.recordText (h : Honoured marks nullString) {cells : List (Option String)}
    (hcells : cells ≠ []) :
    RecordText marks.format (cells.map (cellField nullString marks.delimiter marks.quote))
      (writeRecord marks.format (cells.map (cellField nullString marks.delimiter marks.quote))) := by
  induction cells with
  | nil => exact absurd rfl hcells
  | cons cell cells ih =>
    cases cells with
    | nil =>
      have hone := RecordText.last (h.fieldText .newline cell)
      simpa [writeRecord] using hone
    | cons next cells =>
      rw [List.map_cons, List.map_cons, writeRecord_cons, ← List.append_assoc]
      exact .cons (h.fieldText .delimiter cell) (ih (List.cons_ne_nil _ _))

/-- Every cell is read as itself. -/
theorem readCell_cellField (cell : Option String) (delimiter quote : Char) :
    readCell nullString (cellField nullString delimiter quote cell) = cell := by
  cases cell with
  | none => simp [readCell, cellField]
  | some text => exact readCell_some text delimiter quote

/-- **An export** with options that are honoured and labels that differ is read back. -/
theorem Honoured.keepsTable (h : Honoured marks nullString) {table : Table}
    (hlabels : table.labels ≠ []) (hnodup : table.labels.Nodup) :
    KeepsTable marks nullString table
      (getBytes (csvText doubleToString table.query (marks.options nullString))) := by
  -- The labels are a row of texts like the others.
  let rows := table.labels.map some :: table.rows
  let fields (row : List (Option String)) : List (Csv.Field Char) :=
    row.map (cellField nullString marks.delimiter marks.quote)
  have hne : ∀ row ∈ rows, row ≠ [] := by
    intro row hrow hnil
    rcases List.mem_cons.1 hrow with rfl | hrow
    · exact hlabels (by simpa using hnil)
    · have hwidth := table.width row hrow
      rw [hnil] at hwidth
      exact hlabels (List.length_eq_zero_iff.1 hwidth.symm)
  have htext : (csvText doubleToString table.query (marks.options nullString)).toList
      = (rows.map fun row => writeRecord marks.format (fields row)).flatten := by
    have hheader : (table.labels.map fun name => some (Object.text name))
        = (table.labels.map some).map cellObject := by
      rw [List.map_map]
      rfl
    rw [toList_csvText, hheader, h.line_eq, List.map_cons, List.flatten_cons, List.flatMap_def]
    congr 2
    refine List.map_congr_left fun row hrow => ?_
    rw [rowCells_of_nodup hnodup (table.width row hrow), h.line_eq]
  have hrecords : List.Forall₂ (RecordText marks.format) (rows.map fields)
      (rows.map fun row => writeRecord marks.format (fields row)) := by
    rw [List.forall₂_map_left_iff, List.forall₂_map_right_iff, List.forall₂_same]
    exact fun row hrow => h.recordText (hne row hrow)
  refine ⟨rows.map fields, ?_, ?_⟩
  · rw [readBytes_getBytes, htext]
    exact readFile_flatten hrecords
  · rw [List.map_map]
    refine (List.map_congr_left fun row _ => ?_).trans (List.map_id rows)
    simp only [Function.comp_apply, fields, List.map_map, id]
    exact (List.map_congr_left fun cell _ => readCell_cellField cell _ _).trans (List.map_id row)

/-! ### Options that are not kept -/

variable (doubleToString marks nullString) in
/-- Every table with some labels is read back. -/
def KeepsAll (labels : List String) : Prop :=
  ∀ table : Table, table.labels = labels → KeepsTable marks nullString table
    (getBytes (csvText doubleToString table.query (marks.options nullString)))

variable {labels : List String}

/-- The line of every row is read as the row. -/
theorem KeepsAll.row (h : KeepsAll doubleToString marks nullString labels)
    {row : List (Option String)} (hlen : row.length = labels.length) :
    ∃ record, readFile marks.format (marks.line doubleToString nullString (rowCells labels row))
      = some [record] ∧ record.map (readCell nullString) = row := by
  obtain ⟨header, hread, hheader⟩ := h ⟨labels, [], by simp⟩ rfl
  obtain ⟨records, hall, hrecords⟩ := h ⟨labels, [row], by simpa using hlen⟩ rfl
  rw [readBytes_getBytes, toList_csvText] at hread hall
  rw [List.flatMap_nil, List.append_nil] at hread
  rw [List.flatMap_singleton, readFile_append hread] at hall
  obtain ⟨rest, hrest, rfl⟩ := Option.map_eq_some_iff.1 hall
  rw [List.map_append, hheader] at hrecords
  obtain ⟨record, rfl, hrecord⟩ := List.map_eq_singleton_iff.1 (List.cons.inj hrecords).2
  exact ⟨record, hrest, hrecord⟩

/-- A line of no values is read as one. -/
theorem KeepsAll.labels_ne (h : KeepsAll doubleToString marks nullString labels) : labels ≠ [] := by
  rintro rfl
  have hlen : ([] : List (Option String)).length = ([] : List String).length := rfl
  obtain ⟨record, hread, hrecord⟩ := h.row hlen
  obtain rfl := List.map_eq_nil_iff.1 hrecord
  have hline : marks.line doubleToString nullString (rowCells [] []) = ['\n'] := rfl
  have hquote : ¬ marks.format.quote <+: ['\n'] := by
    rintro ⟨rest, hrest⟩
    exact marks.quote_line.1 (List.cons.inj hrest).1
  have hone := @read_bare_separator _ _ marks.format [] [] [] .newline
  rw [hline, readFile, read_start_bare (List.cons_ne_nil _ _) hquote] at hread
  have hnone : some [[]] = readOn marks.format [] ⟨false, []⟩ [] .newline := hread.symm.trans hone
  cases hnone

/-- Two rows that are written alike are not both read back. -/
theorem KeepsAll.nodup (h : KeepsAll doubleToString marks nullString labels) : labels.Nodup := by
  by_contra hno
  obtain ⟨row, row', hlen, hlen', hne, hsame⟩ := exists_rowCells_eq hno
  obtain ⟨record, hread, hrecord⟩ := h.row hlen
  obtain ⟨record', hread', hrecord'⟩ := h.row hlen'
  rw [hsame, hread'] at hread
  obtain ⟨rfl, -⟩ := List.cons.inj (Option.some.inj hread)
  exact hne (hrecord.symm.trans hrecord')

/-- What follows the first of some cells that are all written alike: the end of the line, or the next
one. -/
inductive Follows (delimiter : Char) (text : List Char) : List Char → Prop
  | last : Follows delimiter text ['\n']
  | next {c : Char} (rest : List Char) : c = delimiter ∨ c = '\n' →
      Follows delimiter text (delimiter :: (text ++ c :: rest))

/-- The line of cells that are all alike. -/
theorem KeepsAll.line_replicate (h : KeepsAll doubleToString marks nullString labels)
    {cell : Option String} {text : String} (htext : csvCell doubleToString (cellObject cell)
      (usedMarker nullString) marks.usedDelimiter marks.usedQuote = text) :
    ∃ rest, Follows marks.usedDelimiter text.toList rest ∧ marks.line doubleToString nullString
      (rowCells labels (List.replicate labels.length cell)) = text.toList ++ rest := by
  rw [rowCells_of_nodup h.nodup (by simp), List.map_replicate]
  obtain ⟨n, hn⟩ : ∃ n, labels.length = n + 1 :=
    ⟨labels.length - 1, (Nat.sub_add_cancel (List.length_pos_iff.2 h.labels_ne)).symm⟩
  rw [hn]
  -- one column, two columns, or more, of which the first one is looked at
  match n with
  | 0 => exact ⟨_, .last, by simp [Marks.line, List.replicate, htext]⟩
  | 1 => exact ⟨_, .next [] (.inr rfl), by simp [Marks.line, List.replicate, htext]⟩
  | n + 2 =>
    refine ⟨_, .next (marks.line doubleToString nullString (List.replicate (n + 1) (cellObject cell)))
      (.inl rfl), ?_⟩
    simp only [Marks.line, List.replicate_succ, List.map_cons, List.intercalate_cons_cons,
      List.append_assoc, htext, List.cons_append, List.nil_append]

/-- The line of cells that are all alike is read as a record of fields that are. -/
theorem KeepsAll.record (h : KeepsAll doubleToString marks nullString labels)
    {cell : Option String} {text : String} (htext : csvCell doubleToString (cellObject cell)
      (usedMarker nullString) marks.usedDelimiter marks.usedQuote = text) :
    ∃ rest record, Follows marks.usedDelimiter text.toList rest
      ∧ readFile marks.format (text.toList ++ rest) = some [record]
      ∧ ∀ field ∈ record, readCell nullString field = cell := by
  obtain ⟨rest, hrest, hline⟩ := h.line_replicate htext
  have hlen : (List.replicate labels.length cell).length = labels.length := List.length_replicate
  obtain ⟨record, hread, hrecord⟩ := h.row hlen
  refine ⟨rest, record, hrest, hline ▸ hread, fun field hfield => ?_⟩
  exact List.eq_of_mem_replicate (hrecord ▸ List.mem_map_of_mem hfield)

/-- A blank that does not end a line is written as it is. -/
theorem csvCell_blank {c : Char} (hblank : c ≤ ' ') (hline : c ≠ '\n' ∧ c ≠ '\r') :
    csvCell doubleToString (cellObject (some (String.singleton c))) (usedMarker nullString)
      marks.usedDelimiter marks.usedQuote = String.singleton c := by
  obtain ⟨hdelimiter, hquote⟩ := marks.blank_lt_used
  -- the marker for nothing is trimmed and not empty, so that a single blank is not it
  have hmarker : String.singleton c ≠ usedMarker nullString := by
    intro heq
    have htrim := trim_usedMarker nullString
    rw [← heq, trim_singleton, if_pos hblank] at htrim
    exact usedMarker_ne nullString (heq ▸ htrim.symm)
  have hempty : String.singleton c ≠ "" := by
    rw [Ne, ← String.toList_inj, String.toList_singleton]
    exact List.cons_ne_nil _ _
  have hno : quoteField (String.singleton c) (usedMarker nullString) marks.usedDelimiter
      marks.usedQuote = false := by
    have hne : ∀ {d : Char}, ' ' < d → d ≠ c := fun hd heq => Std.not_le.2 hd (heq ▸ hblank)
    simp [quoteField, hempty, hmarker, hne hdelimiter, hne hquote, hline.1.symm, hline.2.symm]
  rw [cellObject, Option.map_some, csvCell_text, if_neg (by simp [hno])]

/-- A field of another text is not read as a cell with a text. -/
theorem readCell_ne {quoted : Bool} {text : List Char} {value : String} (h : text ≠ value.toList) :
    readCell nullString ⟨quoted, text⟩ ≠ some value := by
  unfold readCell
  split
  · exact Option.some_ne_none value ∘ Eq.symm
  · intro hsome
    exact h (by rw [← Option.some.inj hsome, String.toList_ofList])

/-- A blank delimiter ends an empty field where a cell with it begins. -/
theorem KeepsAll.delimiter (h : KeepsAll doubleToString marks nullString labels) :
    ' ' < marks.delimiter.1 := by
  -- a delimiter that is a blank is written bare as a value, and ends the empty field before it
  by_contra hno
  obtain ⟨rest, record, -, hread, hcells⟩ :=
    h.record (csvCell_blank (Std.not_lt.1 hno) marks.delimiter_line)
  rw [String.toList_singleton, List.singleton_append] at hread
  have hquote : ¬ marks.format.quote <+: marks.delimiter.1 :: rest := by
    rintro ⟨more, hmore⟩
    exact marks.ne (Subtype.ext (List.cons.inj hmore).1.symm)
  rw [readFile, read_start_bare (List.cons_ne_nil _ _) hquote] at hread
  -- the record that is read begins with an empty field
  have hempty : Csv.read marks.format 0 .start ([] ++ [(⟨false, []⟩ : Csv.Field Char)]) rest
      = some [record] := (read_bare_separator .delimiter).symm.trans hread
  obtain ⟨first, others, hout, tail, rfl⟩ := begins_of_read hempty (by simp)
  obtain ⟨rfl, -⟩ := List.cons.inj hout
  exact readCell_ne (by simp) (hcells ⟨false, []⟩ (by simp))

/-- A blank quote opens a field where a cell with it begins. -/
theorem KeepsAll.quote (h : KeepsAll doubleToString marks nullString labels) :
    ' ' < marks.quote.1 := by
  by_contra hno
  have hused : marks.usedDelimiter = marks.delimiter := if_neg (Std.not_le.2 h.delimiter)
  obtain ⟨rest, record, hrest, hread, hcells⟩ :=
    h.record (csvCell_blank (Std.not_lt.1 hno) marks.quote_line)
  -- Every other character is part of the quoted text.
  have hother : ∀ {c : Char} {cs : List Char}, c ≠ marks.quote.1 →
      ¬ marks.format.quote <+: c :: cs := by
    rintro c cs hc ⟨more, hmore⟩
    exact hc (List.cons.inj hmore).1.symm
  have hd : marks.delimiter.1 ≠ marks.quote.1 := Subtype.coe_ne_coe.2 marks.ne
  rw [String.toList_singleton, readFile] at hread
  rw [String.toList_singleton, hused] at hrest
  have hopen := (@read_start_quote _ _ marks.format [] rest).symm.trans hread
  cases hrest with
  | last =>
    rw [read_quoted_char (hother marks.quote_line.1.symm)] at hopen
    cases hopen
  | @next c rest hc =>
    have hclose : ¬ marks.format.quote <+: c :: rest := by
      rcases hc with rfl | rfl
      · exact hother hd
      · exact hother marks.quote_line.1.symm
    rw [read_quoted_char (hother hd)] at hopen
    have hclosed := (read_quoted_close hclose).symm.trans hopen
    obtain ⟨first, others, hout, tail, rfl⟩ := begins_of_read hclosed (by simp)
    obtain ⟨rfl, -⟩ := List.cons.inj hout
    exact readCell_ne (by simpa using hd) (hcells ⟨true, [marks.delimiter.1]⟩ (by simp))

theorem readCell_eq_none {field : Csv.Field Char} (h : readCell nullString field = none) :
    field.quoted = false ∧ field.text = nullString.toList := by
  unfold readCell at h
  split at h
  · next hnull => exact ⟨hnull.1, by rw [← hnull.2, String.toList_ofList]⟩
  · cases h

/-- A text without the marks of a format is read up to the delimiter or the end of its line. -/
theorem read_plain {text rest : List Char} {separator : Separator} (htext : text ≠ [])
    (hhead : text.head? ≠ some marks.quote.1) {before after : List Char}
    (hsplit : text ++ rest = before ++ (separator.mark marks.format ++ after))
    (hbefore : ∀ c ∈ before, c ≠ marks.delimiter.1 ∧ c ≠ '\n') :
    readFile marks.format (text ++ rest)
      = readOn marks.format [] ⟨false, before⟩ after separator := by
  -- the text does not begin with a quote, so that it is read as a bare field up to the first mark
  have hquote : ¬ marks.format.quote <+: text ++ rest := by
    rintro ⟨more, hmore⟩
    cases text with
    | nil => exact htext rfl
    | cons c text =>
      obtain ⟨rfl, -⟩ := List.cons.inj hmore
      exact hhead rfl
  have hne : text ++ rest ≠ [] := List.append_ne_nil_of_left_ne_nil htext _
  rw [readFile, read_start_bare hne hquote, hsplit, read_bare, List.nil_append]
  · rintro t ht hne ⟨more, hmore⟩
    cases t with
    | nil => exact hne rfl
    | cons c t =>
      obtain ⟨rfl, -⟩ := List.cons.inj hmore
      exact (hbefore _ (((List.mem_tails _ _).1 ht).subset List.mem_cons_self)).1 rfl
  · exact fun hmem => (hbefore _ hmem).2 rfl

/-- Where a text ends, its line goes on with a mark. -/
theorem exists_separator {rest text : List Char} (h : Follows marks.delimiter.1 text rest) :
    ∃ (separator : Separator) (after : List Char), rest = separator.mark marks.format ++ after := by
  cases h with
  | last => exact ⟨.newline, [], rfl⟩
  | next rest hc => exact ⟨.delimiter, _, rfl⟩

/-- The beginning of a text in front of a mark, up to the first mark. -/
theorem exists_before {rest : List Char}
    (hrest : ∃ (separator : Separator) (after : List Char), rest = separator.mark marks.format ++ after)
    (text : List Char) : ∃ (before : List Char) (separator : Separator) (after : List Char),
      text ++ rest = before ++ (separator.mark marks.format ++ after) ∧ before <+: text
        ∧ ∀ c ∈ before, c ≠ marks.delimiter.1 ∧ c ≠ '\n' := by
  induction text with
  | nil =>
    obtain ⟨separator, after, hmark⟩ := hrest
    exact ⟨[], separator, after, hmark, List.nil_prefix, by simp⟩
  | cons c text ih =>
    -- the first mark is this character, or it is behind it
    by_cases hd : c = marks.delimiter.1
    · exact ⟨[], .delimiter, text ++ rest, by rw [hd]; rfl, List.nil_prefix, by simp⟩
    by_cases hn : c = '\n'
    · exact ⟨[], .newline, text ++ rest, by rw [hn]; rfl, List.nil_prefix, by simp⟩
    · obtain ⟨before, separator, after, hsplit, hprefix, hbefore⟩ := ih
      refine ⟨c :: before, separator, after, by rw [List.cons_append, hsplit]; rfl, ?_,
        List.forall_mem_cons.2 ⟨⟨hd, hn⟩, hbefore⟩⟩
      exact List.cons_prefix_cons.2 ⟨rfl, hprefix⟩

/-- The field up to a mark is part of the record. -/
theorem mem_of_readOn {field : Csv.Field Char} {after : List Char} {separator : Separator}
    {record : List (Csv.Field Char)}
    (h : readOn marks.format [] field after separator = some [record]) : field ∈ record := by
  cases separator with
  | delimiter =>
    obtain ⟨first, others, hout, tail, rfl⟩ := begins_of_read h (by simp)
    obtain ⟨rfl, -⟩ := List.cons.inj hout
    simp
  | newline =>
    obtain ⟨others, -, hout⟩ := Option.map_eq_some_iff.1 h
    obtain ⟨rfl, -⟩ := List.cons.inj hout
    simp

/-- What follows a delimiter is another field. -/
theorem exists_second {field : Csv.Field Char} {c : Char} {rest : List Char}
    {record : List (Csv.Field Char)} (hd : c ≠ marks.delimiter.1) (hn : c ≠ '\n')
    (h : Csv.read marks.format 0 .start [field] (c :: rest) = some [record]) :
    ∃ second ∈ record, second.quoted = true ∨ second.text ≠ [] := by
  -- what follows the separator begins a field in quotes, or a bare one with something in it
  by_cases hquote : c = marks.quote.1
  · rw [hquote] at h
    have hopen := (@read_start_quote _ _ marks.format [field] rest).symm.trans h
    obtain ⟨first, others, hout, more, tail, rfl⟩ := begins_of_read hopen (by simp)
    obtain ⟨rfl, -⟩ := List.cons.inj hout
    exact ⟨⟨true, [] ++ more⟩, by simp, .inl rfl⟩
  · have hno : ¬ marks.format.quote <+: c :: rest := by
      rintro ⟨more, hmore⟩
      exact hquote (List.cons.inj hmore).1.symm
    have hdelimiter : ¬ marks.format.delimiter <+: c :: rest := by
      rintro ⟨more, hmore⟩
      exact hd (List.cons.inj hmore).1.symm
    rw [read_start_bare (List.cons_ne_nil _ _) hno, read_bare_char hdelimiter hn] at h
    obtain ⟨first, others, hout, more, tail, rfl⟩ := begins_of_read h (by simp)
    obtain ⟨rfl, -⟩ := List.cons.inj hout
    exact ⟨⟨false, [] ++ [c] ++ more⟩, by simp, .inr (by simp)⟩

/-- **The marker** is what is written for `NULL`, and one field by itself. -/
theorem KeepsAll.marker (h : KeepsAll doubleToString marks nullString labels) :
    Honoured marks nullString := by
  have hused : marks.usedDelimiter = marks.delimiter := if_neg (Std.not_le.2 h.delimiter)
  have hwritten : csvCell doubleToString (cellObject none) (usedMarker nullString)
      marks.usedDelimiter marks.usedQuote = usedMarker nullString := rfl
  obtain ⟨rest, record, hrest, hread, hcells⟩ := h.record hwritten
  rw [hused] at hrest
  have hne : (usedMarker nullString).toList ≠ [] :=
    mt String.toList_eq_nil_iff.1 (usedMarker_ne nullString)
  -- A marker that begins with the quote opens a quoted field.
  have hhead : (usedMarker nullString).toList.head? ≠ some marks.quote.1 := by
    intro hhead
    obtain ⟨text, htext⟩ : ∃ text, (usedMarker nullString).toList = marks.quote.1 :: text :=
      ⟨_, (List.cons_head?_tail hhead).symm⟩
    rw [htext, readFile] at hread
    have hopen := (@read_start_quote _ _ marks.format [] (text ++ rest)).symm.trans hread
    obtain ⟨first, others, hout, more, tail, rfl⟩ := begins_of_read hopen (by simp)
    obtain ⟨rfl, -⟩ := List.cons.inj hout
    exact absurd (readCell_eq_none (hcells ⟨true, [] ++ more⟩ (by simp))).1 (by simp)
  -- Up to the first mark, it is read as the given one.
  obtain ⟨before, separator, after, hsplit, hprefix, hbefore⟩ :=
    exists_before (exists_separator hrest) (usedMarker nullString).toList
  rw [read_plain hne hhead hsplit hbefore] at hread
  have hsame : before = nullString.toList :=
    (readCell_eq_none (hcells _ (mem_of_readOn hread))).2
  have hall : before = (usedMarker nullString).toList := by
    refine hprefix.eq_of_length_le ?_
    by_cases hblank : JavaText.trim nullString = ""
    · -- The default marker: it can only be cut off after a backslash.
      have hdefault : (usedMarker nullString).toList = ['\\', 'N'] := by
        rw [usedMarker, optionalText, textOrEmpty, Option.getD_some, if_pos hblank]
        decide
      rw [hdefault] at hprefix hsplit ⊢
      -- Nothing, the backslash alone, or both characters are before it.
      rcases before with _ | ⟨c, _ | ⟨d, before⟩⟩
      · cases separator with
        | delimiter =>
          obtain ⟨hd, hlater⟩ := List.cons.inj hsplit
          subst hlater
          have hN : 'N' ≠ marks.delimiter.1 := hd ▸ by decide
          obtain ⟨second, hsecond, hother⟩ := exists_second hN (by decide) hread
          obtain ⟨hquoted, htext⟩ := readCell_eq_none (hcells second hsecond)
          rcases hother with hother | hother
          · exact absurd hother (by simp [hquoted])
          · exact absurd (htext.trans hsame.symm) hother
        | newline =>
          have hn : '\\' = '\n' := (List.cons.inj hsplit).1
          exact absurd hn (by decide)
      · obtain rfl : c = '\\' := (List.cons_prefix_cons.1 hprefix).1
        have hslash : nullString = String.singleton '\\' := by
          rw [← String.toList_inj, ← hsame, String.toList_singleton]
        rw [hslash, trim_singleton, if_neg (by decide)] at hblank
        exact absurd hblank (by decide)
      · simp
    · have htrim : usedMarker nullString = JavaText.trim nullString := if_neg hblank
      rw [htrim, hsame]
      exact JavaText.sublist_trim.length_le
  have hgiven : usedMarker nullString = nullString :=
    String.toList_inj.1 (hall.symm.trans hsame)
  rw [hall, hgiven] at hbefore
  rw [hgiven] at hhead
  exact {
    delimiter := h.delimiter
    quote := h.quote
    nonempty := hgiven ▸ usedMarker_ne nullString
    trimmed := hgiven ▸ trim_usedMarker nullString
    apart := ⟨fun hmem => (hbefore _ hmem).1 rfl, fun hmem => (hbefore _ hmem).2 rfl⟩
    bare := hhead }

/-- **Exports keep every table** with some labels, exactly if there are labels, none of them twice, and
the options are honoured. -/
theorem exports_keep_iff (mapper : Mapper) (labels : List String) (marks : Marks)
    (nullString : String) :
    (∀ table : Table, table.labels = labels → ∃ bytes,
        exportBytes doubleToString mapper "csv" table.query (marks.options nullString) = .ok bytes
          ∧ KeepsTable marks nullString table bytes)
      ↔ labels ≠ [] ∧ labels.Nodup ∧ Honoured marks nullString := by
  have hcsv : ∀ table : Table, exportBytes doubleToString mapper "csv" table.query
      (marks.options nullString)
      = .ok (getBytes (csvText doubleToString table.query (marks.options nullString))) :=
    fun table => rfl
  constructor
  -- every table of the labels is kept, so that the options are honoured one by one
  · intro hall
    have h : KeepsAll doubleToString marks nullString labels := by
      intro table hlabels
      obtain ⟨bytes, hbytes, hkeeps⟩ := hall table hlabels
      obtain rfl := Except.ok.inj ((hcsv table).symm.trans hbytes)
      exact hkeeps
    exact ⟨h.labels_ne, h.nodup, h.marker⟩
  · rintro ⟨hne, hnodup, h⟩ table rfl
    exact ⟨_, hcsv table, h.keepsTable hne hnodup⟩

end Lines

/-- Commas and quotation marks. -/
def commaMarks : Marks where
  delimiter := ⟨',', by decide⟩
  quote := ⟨'"', by decide⟩
  ne := by decide
  delimiter_line := by decide
  quote_line := by decide

/-- Tabs and quotation marks. -/
def tabMarks : Marks where
  delimiter := ⟨'\t', by decide⟩
  quote := ⟨'"', by decide⟩
  ne := by decide
  delimiter_line := by decide
  quote_line := by decide

/-- A join whose tables both have an `id`. -/
def joined : Table := ⟨["id", "id"], [[some "1", some "2"]], by decide⟩

/-- A note with a tab. -/
def tabbed : Table := ⟨["note"], [[some "a\tb"]], by decide⟩

theorem exportBytes_joined_tabbed (mapper : Mapper) : ∃ bytes bytes',
    exportBytes doubleToString mapper "csv" joined.query (commaMarks.options "\\N") = .ok bytes ∧
      ¬ KeepsTable commaMarks "\\N" joined bytes ∧
    exportBytes doubleToString mapper "csv" tabbed.query (tabMarks.options "\\N") = .ok bytes' ∧
      ¬ KeepsTable tabMarks "\\N" tabbed bytes' := by
  have hmarker : usedMarker "\\N" = "\\N" := by decide +kernel
  refine ⟨_, _, rfl, ?_, rfl, ?_⟩
  -- of two columns of one label the object keeps the second value, which is written twice
  · rintro ⟨records, hread, hcells⟩
    have honoured : Honoured commaMarks "\\N" :=
      ⟨by decide, by decide, by decide, hmarker ▸ trim_usedMarker "\\N", by decide, by decide⟩
    have hlabels : (joined.labels.map fun name => some (Object.text name))
        = [some "id", some "id"].map cellObject := rfl
    have hrow : rowCells joined.labels [some "1", some "2"] = [some "2", some "2"].map cellObject := by
      decide
    have hvalue : readFile commaMarks.format (writeRecord commaMarks.format
          ([some "id", some "id"].map (cellField "\\N" ',' '"'))
        ++ writeRecord commaMarks.format ([some "2", some "2"].map (cellField "\\N" ',' '"')))
        = some [[⟨false, ['i', 'd']⟩, ⟨false, ['i', 'd']⟩], [⟨false, ['2']⟩, ⟨false, ['2']⟩]] := by
      decide
    rw [readBytes_getBytes, toList_csvText, hlabels, honoured.line_eq] at hread
    change readFile _ (_ ++ List.flatMap _ [_]) = _ at hread
    rw [List.flatMap_singleton, hrow, honoured.line_eq] at hread
    obtain rfl := Option.some.inj (hvalue.symm.trans hread)
    exact absurd hcells (by decide)
  -- the trimmed delimiter is empty, so that the comma is written; the reader splits at the tab
  · rintro ⟨records, hread, hcells⟩
    have hplain : ∀ text : String, quoteField text "\\N" ',' '"' = false →
        csvCell doubleToString (some (.text text)) (usedMarker "\\N") tabMarks.usedDelimiter
          tabMarks.usedQuote = text := by
      intro text hno
      rw [hmarker, csvCell_text]
      exact if_neg (by rw [show tabMarks.usedDelimiter = ',' by decide,
        show tabMarks.usedQuote = '"' by decide, hno]; decide)
    have hrow : rowCells tabbed.labels [some "a\tb"] = [some (.text "a\tb")] := by decide
    have hvalue : readFile tabMarks.format ("note\na\tb\n".toList)
        = some [[⟨false, "note".toList⟩], [⟨false, ['a']⟩, ⟨false, ['b']⟩]] := by decide
    rw [readBytes_getBytes, toList_csvText] at hread
    change readFile _ (_ ++ List.flatMap _ [_]) = _ at hread
    rw [List.flatMap_singleton, hrow] at hread
    simp only [Marks.line, tabbed, List.map_cons, List.map_nil,
      hplain "note" (by decide), hplain "a\tb" (by decide)] at hread
    obtain rfl := Option.some.inj (hvalue.symm.trans hread)
    exact absurd hcells (by decide)

/-- A mapper that writes nothing. -/
def emptyMapper : Mapper := ⟨fun _ => .ok [], fun _ => .ok ""⟩

/-- The second `id` is written twice, and commas are written for tabs, so that a tab in a cell is not
put into quotes. -/
theorem columns_lost : ∃ bytes bytes',
    exportBytes (fun _ => "0.0") emptyMapper "csv" joined.query (commaMarks.options "\\N") = .ok bytes ∧
      ¬ KeepsTable commaMarks "\\N" joined bytes ∧
    exportBytes (fun _ => "0.0") emptyMapper "csv" tabbed.query (tabMarks.options "\\N") = .ok bytes' ∧
      ¬ KeepsTable tabMarks "\\N" tabbed bytes' := exportBytes_joined_tabbed emptyMapper

end Gbase8aData
end Navop
