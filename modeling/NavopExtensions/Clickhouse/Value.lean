import NavopExtensions.Lib.Float64
import NavopExtensions.Lib.Text

/-!
# Cells of a ClickHouse result

`value.rs` of the ClickHouse driver: the type of a column by its name, under any wrappers, and the cell
that a JSON value becomes. A `serde_json` number is an integer of 64 bits or a float; how a float is
printed, how a text is read as one, and the text of an array or an object are parameters.
-/

namespace Navop
namespace Clickhouse

/-- `serde_json::Number`, without arbitrary precision; a float is given by its value. -/
inductive Number
  | integer (n : ℤ)
  | float (x : ℚ)
  deriving DecidableEq

/-- `serde_json::Value`, its objects as lists of fields. -/
inductive Value
  | null
  | bool (value : Bool)
  | number (value : Number)
  | string (text : List Char)
  | array (values : List Value)
  | object (fields : List (List Char × Value))

/-- `CellValue`, as far as ClickHouse has it. -/
inductive CellValue
  | null
  | bool (value : Bool)
  | i64 (value : ℤ)
  | u64 (value : ℕ)
  | f64 (value : ℚ)
  | decimal (value : List Char)
  | text (value : List Char)
  | date (value : List Char)
  | time (value : List Char)
  | datetime (value : List Char)
  | uuid (value : List Char)
  | json (value : Value)

/-- What `serde_json` and `str::parse::<f64>` do: printing floats and values, and reading floats. -/
structure Serde where
  printFloat : ℚ → List Char
  printValue : Value → List Char
  parseF64 : List Char → Option ℚ

/-! ### Types -/

theorem length_trim_le (text : List Char) : (Text.trim text).length ≤ text.length := by
  unfold Text.trim Text.trimEnd Text.trimStart
  rw [List.length_reverse]
  refine (List.length_dropWhile_le _ _).trans ?_
  rw [List.length_reverse]
  exact List.length_dropWhile_le _ _

/-- `strip_wrappers`, from a trimmed text on. -/
def stripWrappersFrom (current : List Char) : List Char :=
  let lower := Text.asciiLower current
  if "nullable(".toList.isPrefixOf lower ∨ "lowcardinality(".toList.isPrefixOf lower then
    let inner := current.drop
      (if "nullable(".toList.isPrefixOf lower then "nullable(".toList.length
        else "lowcardinality(".toList.length)
    -- the wrappers may be nested, in any order
    if inner.getLast? = some ')' then stripWrappersFrom (Text.trim inner.dropLast) else current
  else current
termination_by current.length
decreasing_by
  have hlast : inner.getLast? = some ')' := by assumption
  have hne : inner ≠ [] := fun heq => by
    rw [heq] at hlast
    exact absurd hlast (by decide)
  have hpos := List.length_pos_of_ne_nil hne
  calc (Text.trim inner.dropLast).length ≤ inner.dropLast.length := length_trim_le _
    _ = inner.length - 1 := List.length_dropLast
    _ < inner.length := by omega
    _ ≤ current.length := by rw [List.length_drop]; omega

/-- `strip_wrappers`: the type inside of `Nullable(..)` and `LowCardinality(..)`. -/
def stripWrappers (dataType : List Char) : List Char := stripWrappersFrom (Text.trim dataType)

/-- `base_type`: the name of the type in capitals, without its parameters. -/
def baseType (dataType : List Char) : List Char :=
  (Text.trim ((stripWrappers dataType).takeWhile (· ≠ '('))).map Char.toUpper

/-- `ColumnTypeKind`: the kinds of cells that a column can have. -/
inductive ColumnTypeKind
  | bool | i64 | u64 | f64 | decimal | date | datetime | time | uuid | json | text
  deriving DecidableEq

/-- The names of the signed integer types. -/
def signedTypes : List (List Char) :=
  ["INT8", "INT16", "INT32", "INT64", "INT128", "INT256"].map String.toList

/-- The names of the unsigned integer types. -/
def unsignedTypes : List (List Char) :=
  ["UINT8", "UINT16", "UINT32", "UINT64", "UINT128", "UINT256"].map String.toList

/-- The names of the floating point types. -/
def floatTypes : List (List Char) := ["FLOAT32", "FLOAT64"].map String.toList

/-- The names of the decimal types. -/
def decimalTypes : List (List Char) :=
  ["DECIMAL", "DECIMAL32", "DECIMAL64", "DECIMAL128", "DECIMAL256"].map String.toList

/-- `type_kind_of`: the kind is looked up by the name of the type, and `text` is for all others. -/
def typeKindOf (dataType : List Char) : ColumnTypeKind :=
  -- the comparison is with capitals, so that the type may be written in any case
  let base := baseType dataType
  if base = "BOOL".toList then .bool
  else if base ∈ signedTypes then .i64
  else if base ∈ unsignedTypes then .u64
  else if base ∈ floatTypes then .f64
  else if base ∈ decimalTypes then .decimal
  else if base ∈ ["DATE".toList, "DATE32".toList] then .date
  else if base ∈ ["DATETIME".toList, "DATETIME64".toList] then .datetime
  else if base ∈ ["TIME".toList, "TIME64".toList] then .time
  else if base = "UUID".toList then .uuid
  else if base ∈ ["JSON".toList, "OBJECT".toList] then .json
  -- what has parts is shown as JSON, like an object
  else if base ∈ ["ARRAY", "TUPLE", "MAP", "NESTED"].map String.toList then .json
  else .text

/-! ### Cells -/

/-- `Number::as_i64`: a float is none, even if it is whole. -/
def Number.asI64 : Number → Option ℤ
  | .integer n => if -2 ^ 63 ≤ n ∧ n < 2 ^ 63 then some n else none
  | .float _ => none

/-- `Number::as_u64`: neither floats nor numbers below zero. -/
def Number.asU64 : Number → Option ℕ
  | .integer n => if 0 ≤ n ∧ n < 2 ^ 64 then some n.toNat else none
  | .float _ => none

/-- `Number::as_f64`: an integer is rounded to the nearest float. -/
def Number.asF64 : Number → Option ℚ
  | .integer n => some (Float64.nearest n)
  | .float x => some x

/-- The digits of an integer, with its sign. -/
def printInteger (n : ℤ) : List Char :=
  (if n < 0 then ['-'] else []) ++ Nat.toDigits 10 n.natAbs

section Cells

variable (serde : Serde)

/-- `Number::to_string`: integers digit by digit, floats by `serde_json`. -/
def Number.print : Number → List Char
  | .integer n => printInteger n
  | .float x => serde.printFloat x

/-- The text of a Boolean. -/
def printBool (flag : Bool) : List Char := if flag then "true".toList else "false".toList

/-- `json_scalar_text`: the text of a string, a number or a flag, and of nothing else. -/
def jsonScalarText : Value → Option (List Char)
  | .string text => some text
  | .number number => some (number.print serde)
  | .bool flag => some (printBool flag)
  | _ => none

/-- `json_text`: the text of a string or a number, and of nothing else. -/
def jsonText : Value → Option (List Char)
  | .string text => some text
  | .number number => some (number.print serde)
  | _ => none

/-- `normalize_datetime`: the blank behind a date of ten bytes becomes a `T`. -/
def normalizeDatetime (text : List Char) : List Char :=
  match Text.splitOnce ' ' text with
  -- only a date of ten bytes is known to be one, `2024-1-1 0:00` stays as it is
  | some (date, time) => if (date.map Char.utf8Size).sum = 10 then date ++ 'T' :: time else text
  | none => text

/-- The text of a scalar, or of the whole value. -/
def scalarOrWhole (value : Value) : List Char :=
  (jsonScalarText serde value).getD (serde.printValue value)

/-- `fallback`: arrays and objects stay JSON, all else becomes text. -/
def fallback (value : Value) : CellValue :=
  match value with
  | .array _ | .object _ => .json value
  | value => .text (scalarOrWhole serde value)

/-- `decode_bool`: a flag, the numbers 0 and 1, and the texts for both; anything else falls back. -/
def decodeBool (value : Value) : CellValue :=
  match value with
  | .bool flag => .bool flag
  | .number number =>
    match number.asU64 with
    | some 0 => .bool false
    -- any other number is shown by its digits
    | some 1 => .bool true
    | _ => fallback serde value
  | .string text =>
    if text ∈ ["true".toList, "1".toList] then .bool true
    else if text ∈ ["false".toList, "0".toList] then .bool false
    else fallback serde value
  | value => fallback serde value

/-- A number that was parsed, or else the text of the value. -/
def parsedOrText (parsed : Option CellValue) (value : Value) : CellValue :=
  match parsed with
  | some cell => cell
  | none =>
    match jsonScalarText serde value with
    -- nothing is lost: what does not fit into 64 bits keeps its digits
    | some text => .text text
    | none => fallback serde value

/-- `decode_i64`: numbers and texts that fit into 64 bits, anything else as text. -/
def decodeI64 (value : Value) : CellValue :=
  let parsed := match value with
    | .number number => number.asI64
    | .string text => Text.parseI64 (Text.trim text)
    | _ => none
  parsedOrText serde (parsed.map .i64) value

/-- `decode_u64`: numbers and texts that fit into 64 bits without a sign, anything else as text. -/
def decodeU64 (value : Value) : CellValue :=
  let parsed := match value with
    | .number number => number.asU64
    | .string text => Text.parseU64 (Text.trim text)
    | _ => none
  parsedOrText serde (parsed.map .u64) value

/-- `decode_f64`: every number, and texts that read as one. -/
def decodeF64 (value : Value) : CellValue :=
  let parsed := match value with
    | .number number => number.asF64
    | .string text => serde.parseF64 (Text.trim text)
    | _ => none
  parsedOrText serde (parsed.map .f64) value

/-- The cell of a text, or else of the value. -/
def textCell (cell : List Char → CellValue) (text : Option (List Char)) (value : Value) : CellValue :=
  match text with
  | some text => cell text
  | none => fallback serde value

/-- `decode_cell`, of a value that is not `NULL`. -/
def decodeTyped (dataType : List Char) (value : Value) : CellValue :=
  let base := baseType dataType
  -- the order is that of the `match` in the source; the names of two kinds never overlap
  if base = "BOOL".toList then decodeBool serde value
  else if base ∈ signedTypes then decodeI64 serde value
  else if base ∈ unsignedTypes then decodeU64 serde value
  else if base ∈ floatTypes then decodeF64 serde value
  -- a decimal is never read as a number, its text is kept
  else if base ∈ decimalTypes then textCell serde .decimal (jsonScalarText serde value) value
  else if base ∈ ["DATE".toList, "DATE32".toList] then
    textCell serde .date (jsonText serde value) value
  else if base ∈ ["DATETIME".toList, "DATETIME64".toList] then
    textCell serde (fun text => .datetime (normalizeDatetime text)) (jsonText serde value) value
  else if base ∈ ["TIME".toList, "TIME64".toList] then
    textCell serde .time (jsonText serde value) value
  else if base = "UUID".toList then textCell serde .uuid (jsonText serde value) value
  else if base ∈ ["ENUM8", "ENUM16", "IPV4", "IPV6", "STRING", "FIXEDSTRING"].map String.toList then
    textCell serde (fun text => .text
      -- a fixed string is filled up with zero bytes, which are no part of the value
      (if base = "FIXEDSTRING".toList then text.rdropWhile (· = '\x00') else text))
      (jsonText serde value) value
  else if base ∈ ["JSON", "OBJECT", "ARRAY", "TUPLE", "MAP", "NESTED"].map String.toList then
    match value with
    | .array _ | .object _ => .json value
    | value => .text (scalarOrWhole serde value)
  else if typeKindOf dataType = .text then .text (scalarOrWhole serde value)
  else fallback serde value

/-- `decode_cell`: a null is null in a column of any type, all else is decoded by the type. -/
def decodeCell (dataType : List Char) (value : Value) : CellValue :=
  match value with
  | .null => .null
  | value => decodeTyped serde dataType value

end Cells

end Clickhouse
end Navop
