import NavopExtensions.Dbipc.Cell
import NavopExtensions.Lib.Csv.Writing
import NavopExtensions.Lib.Utf8

/-!
# Reading a CSV export back

`exportRowsCSV` writes fields between single characters. A field that needs no quotes is copied byte
by byte, a quoted one character by character, so that bytes that begin no character become U+FFFD in
it. The marker of `NULL` is quoted like any other value if it contains one of the marks.

Whatever is written can be read: the encodings of characters do not overlap, so that every field has
its text (`fieldText_csvField`). What is read differs from the table in these two cases only.
-/

namespace Navop
namespace Dbipc

open Csv Utf8

/-! ### Writing -/

/-- `csvExportOptions`: the marks of the format, whether there is a header, and the text for NULL. -/
structure CsvExportOptions where
  delimiter : Char
  quote : Char
  header : Bool
  nullString : List UInt8
  deriving DecidableEq

/-- The bytes of a text. -/
def textBytes (text : String) : List UInt8 := text.toList.flatMap encode

/-- `parseCSVExportOptions`, for the entries that are texts, and the header as a boolean. -/
def parseCSVExportOptions (delimiter quote nullString : Option String) (header : Option Bool) :
    CsvExportOptions where
  delimiter := (delimiter.bind fun value => value.toList.head?).getD ','
  quote := (quote.bind fun value => value.toList.head?).getD '"'
  header := header.getD true
  nullString := (nullString.map textBytes).getD (textBytes "\\N")

/-- `strings.ContainsRune`. U+FFFD is found wherever no character begins. -/
def containsRune (value : List UInt8) (c : Char) : Bool :=
  if c = '\uFFFD' then c ∈ runes value else encode c <:+: value

/-- Whether `writeCSVField` writes quotes: when told to, or for a mark or a line break in the value. -/
def needsQuote (value : List UInt8) (forceQuote : Bool) (options : CsvExportOptions) : Bool :=
  forceQuote || containsRune value options.delimiter || containsRune value options.quote
    || 13 ∈ value || 10 ∈ value

/-- `writeCSVField`: the value as it is, or in quotes with those inside of it doubled. -/
def writeCSVField (value : List UInt8) (forceQuote : Bool) (options : CsvExportOptions) :
    List UInt8 :=
  if needsQuote value forceQuote options then
    encode options.quote
      ++ ((runes value).flatMap fun c =>
        if c = options.quote then encode options.quote ++ encode c else encode c)
      ++ encode options.quote
  else value

/-- `writeCSVRecord`, for values with whether they are quoted in any case. -/
def writeCSVRecord (record : List (List UInt8 × Bool)) (options : CsvExportOptions) : List UInt8 :=
  (encode options.delimiter).intercalate
    (record.map fun field => writeCSVField field.1 field.2 options) ++ [10]

/-- The field of a value in `exportRowsCSV`. -/
def csvValue (sprint : Value → List UInt8) (options : CsvExportOptions) (value : Value) :
    List UInt8 × Bool :=
  match value with
  | .null => (options.nullString, false)
  | .bytes raw => (raw, raw = [] || raw = options.nullString)
  | value => (sprint value, sprint value = [] || sprint value = options.nullString)

/-- The rows of a result: each is scanned or not, and the iteration may end with an error. -/
structure CsvRows where
  rows : List (Except String (List Value))
  err : Option String

/-- One turn of the loop of `exportRowsCSV`. -/
def exportRowCSV (sprint : Value → List UInt8) (options : CsvExportOptions) (out : List UInt8 × ℕ)
    (row : Except String (List Value)) : Except String (List UInt8 × ℕ) := do
  let values ← row
  return (out.1 ++ writeCSVRecord (values.map (csvValue sprint options)) options, out.2 + 1)

/-- `exportRowsCSV`: the header, the rows, and last the error that ended the rows early. -/
def exportRowsCSV (sprint : Value → List UInt8) (rows : CsvRows) (columns : List (List UInt8))
    (options : CsvExportOptions) : Except String (List UInt8 × ℕ) := do
  let out := if options.header then
      writeCSVRecord (columns.map fun column => (column, false)) options else []
  let out ← rows.rows.foldlM (exportRowCSV sprint options) (out, 0)
  match rows.err with
  | some err => .error err
  | none => .ok out

/-! ### Reading -/

/-- A value of a table of texts. The driver sends a text as its bytes or as it is. -/
inductive TextValue
  | null
  | bytes (raw : List UInt8)
  | string (s : String)

/-- What the driver sends. -/
def TextValue.value : TextValue → Value
  | .null => .null
  | .bytes raw => .bytes raw
  | .string s => .string s

/-- The bytes of a value, unless it is `NULL`. -/
def TextValue.content : TextValue → Option (List UInt8)
  | .null => none
  | .bytes raw => some raw
  | .string s => some (textBytes s)

/-- `fmt.Sprint`, which leaves a text as it is. -/
structure Sprint where
  run : Value → List UInt8
  string : ∀ s, run (.string s) = textBytes s

/-- The delimiter and the quote differ from each other and from line breaks. -/
structure CsvExportOptions.Apart (options : CsvExportOptions) : Prop where
  marks : options.delimiter ≠ options.quote
  delimiter : options.delimiter ≠ '\r' ∧ options.delimiter ≠ '\n'
  quote : options.quote ≠ '\r' ∧ options.quote ≠ '\n'

theorem newline_notMem {c : Char} (h : c ≠ '\n') : 10 ∉ encode c := by
  intro hmem
  have hin : encode '\n' <:+: encode c := (List.singleton_infix_iff 10 (encode c)).2 hmem
  exact h (eq_of_encode_within hin).symm

/-- The format of a reader with the same options. -/
def CsvExportOptions.format (options : CsvExportOptions) (h : options.Apart) : Format UInt8 where
  delimiter := encode options.delimiter
  quote := encode options.quote
  newline := 10
  delimiter_ne := encode_ne_nil _
  quote_ne := encode_ne_nil _
  delimiter_apart hin := h.marks (eq_of_encode_within hin)
  quote_apart hin := h.marks (eq_of_encode_within hin).symm
  newline_delimiter := newline_notMem h.delimiter.2
  newline_quote := newline_notMem h.quote.2

/-- The field that a value is written as. -/
def csvField (options : CsvExportOptions) (value : List UInt8) (forceQuote : Bool) :
    Csv.Field UInt8 :=
  if needsQuote value forceQuote options then ⟨true, (runes value).flatMap encode⟩
  else ⟨false, value⟩

theorem csvField_quoted {options : CsvExportOptions} {value : List UInt8} {forceQuote : Bool}
    (h : needsQuote value forceQuote options = true) :
    csvField options value forceQuote = ⟨true, (runes value).flatMap encode⟩ := if_pos h

theorem csvField_bare {options : CsvExportOptions} {value : List UInt8} {forceQuote : Bool}
    (h : needsQuote value forceQuote options = false) :
    csvField options value forceQuote = ⟨false, value⟩ := if_neg (by simp [h])

/-- The cell that a field is read as: only an unquoted marker is `NULL`. -/
def fieldContent (options : CsvExportOptions) (field : Csv.Field UInt8) : Option (List UInt8) :=
  if field.quoted = false ∧ field.text = options.nullString then none else some field.text

/-- An export is read back: its records, after the one of the header, are the cells of the table. -/
def CsvReadsBack (options : CsvExportOptions) (h : options.Apart) (rows : List (List TextValue))
    (out : List UInt8) : Prop :=
  ∃ records, readFile (options.format h) out = some records ∧
    (if options.header then records.tail else records).map (List.map (fieldContent options))
      = rows.map (List.map TextValue.content)

/-! ### Every field has its text -/

theorem not_overlaps_encode (c d : Char) : ¬ Overlaps (encode c) (encode d) := by
  rintro ⟨t, htails, ht, more, hmore⟩
  obtain ⟨before, hbefore⟩ := (List.mem_tails _ _).1 htails
  cases hc : encode c with
  | nil => exact encode_ne_nil c hc
  | cons byte bytes =>
    rw [hc, List.tail_cons] at hbefore
    have hsplit : encode c = (byte :: before) ++ t := by rw [hc, ← hbefore, List.cons_append]
    exact not_encode_start hsplit (by simp) ht ⟨[], by rw [List.append_nil, hmore]⟩

/-- A character that is not found in a value is not written in it. -/
theorem not_infix_of_containsRune {value : List UInt8} {c : Char}
    (h : containsRune value c = false) : ¬ encode c <:+: value := by
  unfold containsRune at h
  split at h
  · next hc =>
    subst hc
    have hmem := of_decide_eq_false h
    intro hin
    rw [← flatMap_runes hmem] at hin
    exact hmem (mem_of_encode_within hin)
  · exact of_decide_eq_false h

/-- Bytes are copied where no quote begins. -/
theorem escaped_append {q bytes escaped text : List UInt8}
    (hno : ∀ t ∈ bytes.tails, t ≠ [] → ¬ q <+: t ++ (escaped ++ q)) (h : Escaped q escaped text) :
    Escaped q (bytes ++ escaped) (bytes ++ text) := by
  induction bytes with
  | nil => exact h
  | cons byte bytes ih =>
    have hhere := hno (byte :: bytes) (by simp) (by simp)
    refine .char ?_ (ih fun t ht => hno t ?_)
    · simpa using hhere
    · rw [List.mem_tails] at ht ⊢
      exact ht.trans (List.suffix_cons byte bytes)

/-- A text is escaped by doubling its quotes. -/
theorem escaped_flatMap (q : Char) (cs : List Char) : Escaped (encode q)
    (cs.flatMap fun c => if c = q then encode q ++ encode c else encode c) (cs.flatMap encode) := by
  induction cs with
  | nil => exact .nil
  | cons c cs ih =>
    rw [List.flatMap_cons, List.flatMap_cons]
    split
    · next hc =>
      subst hc
      exact .quote ih
    · next hc =>
      refine escaped_append (fun t ht hne => ?_) ih
      obtain ⟨before, hbefore⟩ := (List.mem_tails _ _).1 ht
      cases before with
      | nil =>
        rw [List.nil_append] at hbefore
        exact fun hstart => hc (eq_of_encode_start (hbefore ▸ hstart)).symm
      | cons byte before => exact not_encode_start hbefore.symm (by simp) hne

/-- **A field** is written as its text, whatever follows. -/
theorem fieldText_csvField {options : CsvExportOptions} (h : options.Apart) (separator : Separator)
    (value : List UInt8) (forceQuote : Bool) : FieldText (options.format h) separator
      (csvField options value forceQuote) (writeCSVField value forceQuote options) := by
  unfold csvField writeCSVField
  cases hneeds : needsQuote value forceQuote options with
  | true =>
    simp only [if_true]
    exact .quoted (escaped_flatMap options.quote (runes value))
  | false =>
    simp only [Bool.false_eq_true, if_false]
    simp only [needsQuote, Bool.or_eq_false_iff, decide_eq_false_iff_not] at hneeds
    obtain ⟨⟨⟨⟨-, hdelimiter⟩, hquote⟩, -⟩, hnewline⟩ := hneeds
    have hopens := @opens_of_not_overlaps _ (options.format h) (not_overlaps_encode _ _)
      ⟨false, value⟩ (fun _ => not_infix_of_containsRune hquote) separator
    have hcloses := @closes_of_not_overlaps _ _ (options.format h) (not_overlaps_encode _ _)
      (not_overlaps_encode _ _) ⟨false, value⟩ (fun _ => not_infix_of_containsRune hdelimiter)
      separator
    exact .bare ⟨hopens rfl, hcloses, hnewline⟩

/-- A record is written as its text. -/
theorem recordText_writeCSVRecord {options : CsvExportOptions} (h : options.Apart)
    {record : List (List UInt8 × Bool)} (hrecord : record ≠ []) : RecordText (options.format h)
      (record.map fun field => csvField options field.1 field.2) (writeCSVRecord record options) := by
  induction record with
  | nil => exact absurd rfl hrecord
  | cons field record ih =>
    cases record with
    | nil =>
      have hlast : RecordText (options.format h) [csvField options field.1 field.2]
          (writeCSVField field.1 field.2 options ++ [10]) :=
        .last (fieldText_csvField h .newline field.1 field.2)
      simpa [writeCSVRecord] using hlast
    | cons next record =>
      have hcons := RecordText.cons (fieldText_csvField h .delimiter field.1 field.2)
        (ih (by simp))
      simpa [writeCSVRecord, List.intercalate_cons_cons, CsvExportOptions.format] using hcons

/-! ### The text of an export -/

/-- The field of a cell, with whether it is quoted in any case. -/
def contentField (options : CsvExportOptions) : Option (List UInt8) → List UInt8 × Bool
  | none => (options.nullString, false)
  | some text => (text, text = [] || text = options.nullString)

section Exports

variable {sprint : Sprint} {options : CsvExportOptions}

theorem csvValue_value (value : TextValue) :
    csvValue sprint.run options value.value = contentField options value.content := by
  cases value with
  | null => rfl
  | bytes raw => rfl
  | string s => simp only [TextValue.value, csvValue, sprint.string, TextValue.content, contentField]

/-- The text of a header, if there is one, and of the rows of a table. -/
def exportText (options : CsvExportOptions) (columns : List (List UInt8))
    (rows : List (List TextValue)) : List UInt8 :=
  (if options.header then writeCSVRecord (columns.map fun column => (column, false)) options else [])
    ++ (rows.map fun row =>
      writeCSVRecord (row.map fun value => contentField options value.content) options).flatten

theorem foldlM_exportRowCSV (rows : List (List TextValue)) (out : List UInt8 × ℕ) :
    (rows.map fun row => .ok (row.map TextValue.value)).foldlM (exportRowCSV sprint.run options) out
      = .ok (out.1 ++ (rows.map fun row =>
          writeCSVRecord (row.map fun value => contentField options value.content) options).flatten,
        out.2 + rows.length) := by
  induction rows generalizing out with
  | nil => simp [pure, Except.pure]
  | cons row rows ih =>
    have hrow : (row.map TextValue.value).map (csvValue sprint.run options)
        = row.map fun value => contentField options value.content := by
      rw [List.map_map]
      exact List.map_congr_left fun value _ => csvValue_value value
    have hturn : exportRowCSV sprint.run options out (.ok (row.map TextValue.value))
        = .ok (out.1 ++ writeCSVRecord (row.map fun value => contentField options value.content)
          options, out.2 + 1) := by rw [← hrow]; rfl
    rw [List.map_cons, List.foldlM_cons, hturn]
    refine (ih _).trans ?_
    simp only [List.map_cons, List.flatten_cons, List.append_assoc, List.length_cons]
    rw [Nat.add_assoc, Nat.add_comm 1]

/-- An export whose rows are all scanned. -/
theorem exportRowsCSV_ok (columns : List (List UInt8)) (rows : List (List TextValue)) :
    exportRowsCSV sprint.run ⟨rows.map fun row => .ok (row.map TextValue.value), none⟩ columns options
      = .ok (exportText options columns rows, rows.length) := by
  unfold exportRowsCSV
  simp only [foldlM_exportRowCSV, Nat.zero_add]
  rfl

/-- What an export is read as. -/
theorem readFile_exportText (h : options.Apart) {columns : List (List UInt8)}
    {rows : List (List TextValue)} (hcolumns : columns ≠ []) (hrows : ∀ row ∈ rows, row ≠ []) :
    readFile (options.format h) (exportText options columns rows)
      = some ((if options.header then [columns.map fun column => csvField options column false] else [])
        ++ rows.map (List.map fun value => csvField options (contentField options value.content).1
          (contentField options value.content).2)) := by
  -- every row is written as the text of its record, and the header as one more
  have hbody : List.Forall₂ (RecordText (options.format h))
      (rows.map (List.map fun value => csvField options (contentField options value.content).1
          (contentField options value.content).2))
      (rows.map fun row =>
        writeCSVRecord (row.map fun value => contentField options value.content) options) := by
    rw [List.forall₂_map_left_iff, List.forall₂_map_right_iff, List.forall₂_same]
    intro row hrow
    have hrecord := recordText_writeCSVRecord h
      (mt List.map_eq_nil_iff.1 (hrows row hrow) :
        (row.map fun value => contentField options value.content) ≠ [])
    rwa [List.map_map] at hrecord
  unfold exportText
  split
  · have hheader := recordText_writeCSVRecord h
      (mt List.map_eq_nil_iff.1 hcolumns : (columns.map fun column => (column, false)) ≠ [])
    rw [List.map_map] at hheader
    exact readFile_flatten (.cons hheader hbody)
  · exact readFile_flatten hbody

/-- A value is read back: a marker of `NULL` needs no quotes, and a text that does is valid. -/
def ContentReadsBack (options : CsvExportOptions) : Option (List UInt8) → Prop
  | none => needsQuote options.nullString false options = false
  | some text => needsQuote text (text = [] || text = options.nullString) options = true →
      ∃ cs : List Char, text = cs.flatMap encode

/-- What a text is read as. -/
theorem fieldContent_csvField (content : Option (List UInt8)) :
    fieldContent options (csvField options (contentField options content).1
        (contentField options content).2) = content ↔ ContentReadsBack options content := by
  cases content with
  -- nothing is written as the marker, in quotes if the marker needs them
  | none =>
    simp only [contentField, ContentReadsBack]
    cases hneeds : needsQuote options.nullString false options with
    | true => simp [csvField_quoted hneeds, fieldContent]
    | false => simp [csvField_bare hneeds, fieldContent]
  | some text =>
    simp only [contentField, ContentReadsBack]
    cases hneeds : needsQuote text (text = [] || text = options.nullString) options with
    -- a text in quotes is read back as its runes, which is the text if it is one of UTF-8
    | true =>
      simp only [csvField_quoted hneeds, fieldContent, Bool.true_eq_false, false_and, if_false,
        Option.some.injEq, forall_const]
      constructor
      · exact fun htext => ⟨runes text, htext.symm⟩
      · rintro ⟨cs, rfl⟩
        rw [runes_flatMap]
    -- a bare text is not the marker, and is read back as it is
    | false =>
      have hmarker : text ≠ options.nullString := by
        rintro rfl
        simp [needsQuote] at hneeds
      rw [csvField_bare hneeds]
      simp [fieldContent, hmarker]

/-- **CSV exports.** A table of texts is read back from its export if and only if its `NULL`s have a
marker that needs no quotes and its texts that need quotes are valid. -/
theorem exportRowsCSV_reads_back_iff (h : options.Apart) {columns : List (List UInt8)}
    {rows : List (List TextValue)} (hcolumns : columns ≠ [])
    (hrows : ∀ row ∈ rows, row.length = columns.length) :
    ∃ out, exportRowsCSV sprint.run ⟨rows.map fun row => .ok (row.map TextValue.value), none⟩ columns
        options = .ok (out, rows.length) ∧
      (CsvReadsBack options h rows out
        ↔ ∀ row ∈ rows, ∀ value ∈ row, ContentReadsBack options value.content) := by
  refine ⟨_, exportRowsCSV_ok columns rows, ?_⟩
  have hne : ∀ row ∈ rows, row ≠ [] := by
    rintro row hrow rfl
    exact hcolumns (List.length_eq_zero_iff.1 (hrows [] hrow).symm)
  unfold CsvReadsBack
  rw [readFile_exportText h hcolumns hne]
  -- the header is left out again
  have htail : ∀ (header : List (Csv.Field UInt8)) (body : List (List (Csv.Field UInt8))),
      (if options.header then ((if options.header then [header] else []) ++ body).tail
        else (if options.header then [header] else []) ++ body) = body := by
    intro header body
    cases options.header <;> rfl
  simp only [Option.some.injEq, exists_eq_left', htail, List.map_map]
  rw [List.map_inj_left]
  refine forall₂_congr fun row _ => ?_
  rw [Function.comp_apply, List.map_map, List.map_inj_left]
  exact forall₂_congr fun value _ => fieldContent_csvField value.content

end Exports

/-- The options that a request without options has. -/
def defaultOptions : CsvExportOptions := parseCSVExportOptions none none none none

theorem apart_defaultOptions : defaultOptions.Apart where
  marks := by decide
  delimiter := by decide
  quote := by decide

/-- Texts as they are, other values as nothing. -/
def plainSprint : Sprint where
  run value := match value with
    | .string s => textBytes s
    | _ => []
  string _ := rfl

/-- With them, a `NULL`, the text of its marker and a text with a comma are read back. -/
theorem exportRowsCSV_reads_back_default : ∃ out,
    exportRowsCSV plainSprint.run ⟨[[.null, .string "\\N", .bytes (textBytes "a,b")]].map fun row =>
        .ok (row.map TextValue.value), none⟩ [[97], [98], [99]] defaultOptions = .ok (out, 1) ∧
      (CsvReadsBack defaultOptions apart_defaultOptions
          [[.null, .string "\\N", .bytes (textBytes "a,b")]] out
        ↔ ∀ row ∈ [[TextValue.null, .string "\\N", .bytes (textBytes "a,b")]], ∀ value ∈ row,
          ContentReadsBack defaultOptions value.content) :=
  exportRowsCSV_reads_back_iff apart_defaultOptions (by decide) (by decide)

/-- A marker with a comma. -/
def commaMarker : CsvExportOptions := parseCSVExportOptions none none (some "n,a") (some false)

theorem apart_commaMarker : commaMarker.Apart where
  marks := by decide
  delimiter := by decide
  quote := by decide

/-- **Exports that are read as something else.** A byte that begins no character in a text with a
comma, and a `NULL` whose marker is quoted. -/
theorem exportRowsCSV_not_read_back :
    (∃ out, exportRowsCSV plainSprint.run ⟨[.ok [.bytes [0xFF, 44]]], none⟩ [[97]] defaultOptions
        = .ok (out, 1) ∧ ¬ CsvReadsBack defaultOptions apart_defaultOptions [[.bytes [0xFF, 44]]] out) ∧
    ∃ out, exportRowsCSV plainSprint.run ⟨[.ok [.null]], none⟩ [[97]] commaMarker = .ok (out, 1) ∧
      ¬ CsvReadsBack commaMarker apart_commaMarker [[.null]] out := by
  constructor
  -- a byte that is no UTF-8 is written as the replacement character, because the comma wants quotes
  · refine ⟨_, rfl, ?_⟩
    rintro ⟨records, hread, hcells⟩
    have hrecords : records = [[⟨false, [97]⟩], [⟨true, [0xEF, 0xBF, 0xBD, 44]⟩]] := by
      rw [← Option.some.injEq, ← hread]
      decide
    subst hrecords
    exact absurd hcells (by decide)
  -- a marker with a comma is quoted, and is read as a text then
  · refine ⟨_, rfl, ?_⟩
    rintro ⟨records, hread, hcells⟩
    have hrecords : records = [[⟨true, [110, 44, 97]⟩]] := by
      rw [← Option.some.injEq, ← hread]
      decide
    subst hrecords
    exact absurd hcells (by decide)

end Dbipc
end Navop
