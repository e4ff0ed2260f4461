import Mathlib
import NavopExtensions.Lib.Bytes

/-!
# Cells of an openGauss result

`rows_to_query_result` of the openGauss driver. A cell is asked from the client library by a type of
Rust, and no answer is taken for `NULL`: so is an error, which is what the library returns for a column
of a type that it does not convert, or for a value that it cannot. The columns are taken from the first
row.
-/

namespace Navop
namespace Opengauss

/-- `Type`: those that the driver names, and the others with their name. -/
inductive PgType
  | bool
  | int2
  | int4
  | int8
  | float4
  | float8
  | bytea
  | json
  | jsonb
  | date
  | time
  | timestamp
  | other (name : String)
  deriving DecidableEq

/-- `Type::name`: what the catalogue calls the type. -/
def PgType.name : PgType → String
  | .bool => "bool"
  | .int2 => "int2"
  | .int4 => "int4"
  | .int8 => "int8"
  | .float4 => "float4"
  | .float8 => "float8"
  | .bytea => "bytea"
  | .json => "json"
  | .jsonb => "jsonb"
  | .date => "date"
  | .time => "time"
  | .timestamp => "timestamp"
  | .other name => name

/-- `ColumnTypeKind`, as far as the driver uses it. -/
inductive ColumnTypeKind
  | bool
  | i64
  | f64
  | decimal
  | json
  | bytes
  | date
  | time
  | datetime
  | text
  deriving DecidableEq

/-- `ColumnSpec`: a column of the result as the answer describes it. -/
structure ColumnSpec where
  name : String
  typeStr : String
  kind : ColumnTypeKind
  nullable : Bool
  deriving DecidableEq

/-- `CellValue`, as far as results have it. Floats are given by their bits, JSON by its text. -/
inductive CellValue
  | null
  | bool (value : Bool)
  | i64 (value : Int64)
  | f64 (bits : UInt64)
  | bytes (base64 : String)
  | json (text : String)
  | date (text : String)
  | time (text : String)
  | datetime (text : String)
  | text (value : String)
  deriving DecidableEq

/-- What the client library does: the types that a `String` can be had from, and the values that the
types of Rust are had from. Dates and times come with their text, and `f32` is widened. -/
structure Client where
  isText : PgType → Bool
  toBool : List UInt8 → Option Bool
  toI16 : List UInt8 → Option Int16
  toI32 : List UInt8 → Option Int32
  toI64 : List UInt8 → Option Int64
  toF32 : List UInt8 → Option UInt64
  toF64 : List UInt8 → Option UInt64
  toBytes : List UInt8 → Option String
  toJson : PgType → List UInt8 → Option String
  toDate : List UInt8 → Option String
  toTime : List UInt8 → Option String
  toTimestamp : List UInt8 → Option String
  toString : List UInt8 → Option String

/-- `Column`: a column as the client reports it. -/
structure Column where
  name : String
  type : PgType
  deriving DecidableEq

/-- `Row`: the columns of the result, and a value for each one; SQL `NULL` is none. -/
structure Row where
  columns : List Column
  values : List (Option (List UInt8))
  length_values : values.length = columns.length

/-- `try_get::<_, Option<T>>`: an error if the type of the column is not accepted, or if the value
cannot be converted. -/
def tryGet {α : Type*} (accepts : PgType → Bool) (convert : List UInt8 → Option α) (type : PgType)
    (value : Option (List UInt8)) : Except Unit (Option α) :=
  if accepts type then
    match value with
    | none => .ok none
    | some bytes =>
      match convert bytes with
      | some converted => .ok (some converted)
      | none => .error ()
  else .error ()

/-- A cell, if the library has a value for it: `.ok().flatten().map(..).unwrap_or(Null)`. -/
def cellOf {α : Type*} (cell : α → CellValue) (got : Except Unit (Option α)) : CellValue :=
  match got with
  | .ok (some value) => cell value
  | _ => .null

section Cells

variable (client : Client)

/-- `row_cell_value`, for the value of the row at the column. -/
def rowCellValue (type : PgType) (value : Option (List UInt8)) : CellValue :=
  match type with
  | .bool => cellOf .bool (tryGet (· = .bool) client.toBool type value)
  | .int2 =>
    cellOf (fun n => .i64 n.toInt64) (tryGet (· = .int2) client.toI16 type value)
  | .int4 =>
    cellOf (fun n => .i64 n.toInt64) (tryGet (· = .int4) client.toI32 type value)
  | .int8 => cellOf .i64 (tryGet (· = .int8) client.toI64 type value)
  | .float4 => cellOf .f64 (tryGet (· = .float4) client.toF32 type value)
  | .float8 => cellOf .f64 (tryGet (· = .float8) client.toF64 type value)
  | .bytea => cellOf .bytes (tryGet (· = .bytea) client.toBytes type value)
  | .json | .jsonb =>
    cellOf .json (tryGet (fun t => t = .json ∨ t = .jsonb) (client.toJson type) type value)
  | .date => cellOf .date (tryGet (· = .date) client.toDate type value)
  | .time => cellOf .time (tryGet (· = .time) client.toTime type value)
  | .timestamp => cellOf .datetime (tryGet (· = .timestamp) client.toTimestamp type value)
  | .other _ => cellOf .text (tryGet client.isText client.toString type value)

/-- `column_type_kind`: the kind goes by the name of the type, and whatever is not listed is text. -/
def columnTypeKind (type : PgType) : ColumnTypeKind :=
  match type.name with
  | "bool" => .bool
  | "int2" | "int4" | "int8" | "oid" => .i64
  | "float4" | "float8" => .f64
  | "numeric" | "money" => .decimal
  | "json" | "jsonb" => .json
  | "bytea" => .bytes
  | "date" => .date
  | "time" | "timetz" => .time
  | "timestamp" | "timestamptz" => .datetime
  | _ => .text

/-- `column_to_spec`: every column of a result may be null. -/
def columnToSpec (column : Column) : ColumnSpec :=
  ⟨column.name, column.type.name, columnTypeKind column.type, true⟩

/-- `QueryResult`: the columns, and the cells row by row. -/
structure QueryResult where
  columns : List ColumnSpec
  rows : List (List CellValue)

/-- `rows_to_query_result`: the first row tells the columns, and no rows tell none. -/
def rowsToQueryResult (rows : List Row) : QueryResult where
  columns := (rows.head?.map fun row => row.columns.map columnToSpec).getD []
  rows := rows.map fun row =>
    row.columns.zipIdx.map fun (column, idx) =>
      rowCellValue client column.type (row.values[idx]?.join)

/-! ### What is had from a value -/

/-- The driver can read a value of a type: it names the type and the value can be converted, or the type
is one of texts. -/
def Readable (type : PgType) (bytes : List UInt8) : Prop :=
  match type with
  | .bool => (client.toBool bytes).isSome = true
  | .int2 => (client.toI16 bytes).isSome = true
  | .int4 => (client.toI32 bytes).isSome = true
  | .int8 => (client.toI64 bytes).isSome = true
  | .float4 => (client.toF32 bytes).isSome = true
  | .float8 => (client.toF64 bytes).isSome = true
  | .bytea => (client.toBytes bytes).isSome = true
  | .json | .jsonb => (client.toJson type bytes).isSome = true
  | .date => (client.toDate bytes).isSome = true
  | .time => (client.toTime bytes).isSome = true
  | .timestamp => (client.toTimestamp bytes).isSome = true
  | .other _ => client.isText type = true ∧ (client.toString bytes).isSome = true

variable {client}

/-- A cell that is no `NULL` when it has a value is `NULL` when the value is not had. -/
theorem cellOf_tryGet_eq_null {α : Type*} {cell : α → CellValue} (hcell : ∀ a, cell a ≠ .null)
    {accepts : PgType → Bool} {convert : List UInt8 → Option α} {type : PgType}
    {value : Option (List UInt8)} :
    cellOf cell (tryGet accepts convert type value) = .null ↔
      ∀ bytes, value = some bytes → ¬ (accepts type = true ∧ (convert bytes).isSome = true) := by
  unfold tryGet
  -- a type that is not accepted, no value, or bytes that do not convert
  by_cases haccepts : accepts type = true
  · rw [if_pos haccepts]
    cases value with
    | none => exact iff_of_true rfl fun bytes hbytes => absurd hbytes (by simp)
    | some bytes =>
      cases hconvert : convert bytes with
      | none =>
        simp only [hconvert]
        refine iff_of_true rfl fun other hother hsome => ?_
        obtain rfl := Option.some.inj hother
        exact absurd hsome.2 (by simp [hconvert])
      | some converted =>
        simp only [hconvert]
        refine iff_of_false (hcell converted) fun hnone => hnone bytes rfl ⟨haccepts, ?_⟩
        rw [hconvert]
        rfl
  · rw [if_neg haccepts]
    exact iff_of_true rfl fun bytes _ hsome => haccepts hsome.1

/-- **A cell is `NULL`** exactly when there is no value that the driver can read. -/
theorem rowCellValue_eq_null {type : PgType} {value : Option (List UInt8)} :
    rowCellValue client type value = .null ↔
      ∀ bytes, value = some bytes → ¬ Readable client type bytes := by
  cases type with
  | other name => exact cellOf_tryGet_eq_null (by simp)
  | _ => simp [rowCellValue, cellOf_tryGet_eq_null, Readable]

/-- A cell agrees with its value when a value can be read. -/
theorem rowCellValue_agrees {type : PgType} {value : Option (List UInt8)} :
    (rowCellValue client type value = .null ↔ value = none) ↔
      ∀ bytes, value = some bytes → Readable client type bytes := by
  rw [rowCellValue_eq_null]
  cases value with
  | none => simp
  | some bytes => simp

/-! ### Results -/

/-- What a result says about the rows of a server: its columns are those of the rows, every row has a
cell for each value, and a cell is `NULL` exactly when the value is. -/
structure QueryResult.Agrees (result : QueryResult) (columns : List Column) (rows : List Row) :
    Prop where
  columns : result.columns = columns.map columnToSpec
  nulls : List.Forall₂ (fun cells row =>
    List.Forall₂ (fun cell value => cell = CellValue.null ↔ value = none) cells row.values)
    result.rows rows

/-- The cells of a row agree with its values when all of them can be read. -/
theorem cells_agree (row : Row) :
    List.Forall₂ (fun cell value => cell = CellValue.null ↔ value = none)
        (row.columns.zipIdx.map fun (column, idx) =>
          rowCellValue client column.type (row.values[idx]?.join)) row.values ↔
      ∀ i (hi : i < row.columns.length) bytes, row.values[i]? = some (some bytes) →
        Readable client row.columns[i].type bytes := by
  have hlength := row.length_values
  rw [List.forall₂_iff_get]
  simp only [List.length_map, List.length_zipIdx, List.get_eq_getElem, List.getElem_map,
    List.getElem_zipIdx]
  constructor
  · rintro ⟨-, hcells⟩ i hi bytes hbytes
    have hvalue : i < row.values.length := hlength ▸ hi
    have hcell := hcells i hi hvalue
    simp only [Nat.zero_add, List.getElem?_eq_getElem hvalue, Option.join_some] at hcell hbytes
    exact rowCellValue_agrees.mp hcell bytes (Option.some.inj hbytes)
  · intro hreadable
    refine ⟨hlength.symm, fun i hi hvalue => ?_⟩
    simp only [Nat.zero_add, List.getElem?_eq_getElem hvalue, Option.join_some]
    refine rowCellValue_agrees.mpr fun bytes hbytes => hreadable i hi bytes ?_
    rw [List.getElem?_eq_getElem hvalue, hbytes]

/-- **A result agrees with the server** exactly when every value can be read, and there is a row to take
the columns from. -/
theorem result_agrees_iff {columns : List Column} {rows : List Row}
    (hcolumns : ∀ row ∈ rows, row.columns = columns) :
    (rowsToQueryResult client rows).Agrees columns rows ↔
      (rows ≠ [] ∨ columns = []) ∧
        ∀ row ∈ rows, ∀ i (hi : i < row.columns.length) bytes,
          row.values[i]? = some (some bytes) → Readable client row.columns[i].type bytes := by
  -- the columns are read off the first row
  have hspecs : (rowsToQueryResult client rows).columns = columns.map columnToSpec ↔
      rows ≠ [] ∨ columns = [] := by
    cases rows with
    | nil => simp [rowsToQueryResult, eq_comm]
    | cons row rows =>
      refine iff_of_true ?_ (.inl (List.cons_ne_nil _ _))
      rw [← hcolumns row List.mem_cons_self]
      rfl
  -- row by row and cell by cell
  have hcells : List.Forall₂ (fun cells row =>
        List.Forall₂ (fun cell value => cell = CellValue.null ↔ value = none) cells row.values)
        (rowsToQueryResult client rows).rows rows ↔
      ∀ row ∈ rows, ∀ i (hi : i < row.columns.length) bytes,
        row.values[i]? = some (some bytes) → Readable client row.columns[i].type bytes := by
    unfold rowsToQueryResult
    rw [List.forall₂_map_left_iff, List.forall₂_same]
    exact forall₂_congr fun row _ => cells_agree row
  rw [← hspecs, ← hcells]
  exact ⟨fun h => ⟨h.columns, h.nulls⟩, fun h => ⟨h.1, h.2⟩⟩

/-- A client that reads truth values, numbers of exactly their width with the most significant byte in
front, and texts. -/
def plainClient : Client where
  isText := fun type => type.name ∈ ["text", "varchar", "bpchar", "name", "unknown"]
  toBool := fun bytes => if bytes.length = 1 then some (bytes ≠ [0]) else none
  toI16 := fun bytes =>
    if bytes.length = 2 then some (Int16.ofNat (BigEndian.ofBe bytes)) else none
  toI32 := fun bytes =>
    if bytes.length = 4 then some (Int32.ofNat (BigEndian.ofBe bytes)) else none
  toI64 := fun bytes =>
    if bytes.length = 8 then some (Int64.ofNat (BigEndian.ofBe bytes)) else none
  toF32 := fun _ => none
  toF64 := fun bytes =>
    if bytes.length = 8 then some (UInt64.ofNat (BigEndian.ofBe bytes)) else none
  toBytes := fun _ => some ""
  toJson := fun _ _ => some "null"
  toDate := fun _ => none
  toTime := fun _ => none
  toTimestamp := fun _ => none
  toString := fun bytes => some (String.ofList (bytes.map fun byte => Char.ofNat byte.toNat))

/-- The four bytes of a number, and a text that is not there. -/
theorem result_agrees_with_text :
    (rowsToQueryResult plainClient [⟨[⟨"id", .int4⟩, ⟨"name", .other "text"⟩],
      [some [0, 0, 0, 7], none], rfl⟩]).Agrees [⟨"id", .int4⟩, ⟨"name", .other "text"⟩]
      [⟨[⟨"id", .int4⟩, ⟨"name", .other "text"⟩], [some [0, 0, 0, 7], none], rfl⟩] := by
  refine (result_agrees_iff ?_).mpr ⟨.inl (by simp), ?_⟩
  · intro row hrow
    obtain rfl := List.mem_singleton.mp hrow
    rfl
  · intro row hrow i hi bytes hbytes
    obtain rfl := List.mem_singleton.mp hrow
    match i, hi with
    | 0, _ =>
      obtain rfl : [0, 0, 0, 7] = bytes := by simpa using hbytes
      rfl
    | 1, _ => exact absurd hbytes (by simp)

/-- The row of `SELECT 1.5::numeric AS price`: two digits to the base of ten thousand, the first of them
before the point, no sign, and one decimal to show. -/
def priced : Row :=
  ⟨[⟨"price", .other "numeric"⟩], [some [0, 2, 0, 0, 0, 0, 0, 1, 0, 1, 0x13, 0x88]], rfl⟩

/-- A `numeric` is reported as `NULL`, and a result without rows has no columns. -/
theorem numeric_reported_as_null :
    (rowsToQueryResult plainClient [priced]).rows = [[.null]] ∧
      ¬ (rowsToQueryResult plainClient [priced]).Agrees [⟨"price", .other "numeric"⟩] [priced] ∧
      ¬ (rowsToQueryResult plainClient []).Agrees [⟨"price", .other "numeric"⟩] [] := by
  refine ⟨by decide, fun hagrees => ?_, fun hagrees => absurd hagrees.columns (by decide)⟩
  have hrow := List.forall₂_cons.mp hagrees.nulls
  have hcell := List.forall₂_cons.mp hrow.1
  exact absurd (hcell.1.mp (by decide)) (by decide)

end Cells

end Opengauss
end Navop
