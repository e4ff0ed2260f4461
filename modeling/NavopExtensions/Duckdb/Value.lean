import Mathlib

/-!
# Values of the DuckDB driver

Cells as they are on the wire, their JSON values for exports and their engine values for statements.
What `serde_json` and `base64` do to texts is a parameter.
-/

namespace Navop
namespace Duckdb

/-- `serde_json::Value`; numbers are in their text. -/
inductive Json
  | null
  | bool (value : Bool)
  | number (text : String)
  | string (value : String)
  | array (values : List Json)
  | object (fields : List (String × Json))

/-- `CellValue`: a cell on the wire. -/
inductive CellValue
  | null
  | bool (value : Bool)
  | i64 (value : Int64)
  | u64 (value : UInt64)
  | f64 (bits : UInt64)
  | json (value : Json)
  | map (value : List (String × Json))
  | array (value : List Json)
  | decimal (value : String)
  | text (value : String)
  | uuid (value : String)
  | date (value : String)
  | time (value : String)
  | datetime (value : String)
  | duration (value : String)
  | bytes (value : String)
  | geo (value : String)
  | custom (subtype raw : String)

/-- The text of a value, and the value of a float, as `serde_json` has them. -/
structure Serde where
  print : Json → String
  float : UInt64 → Json

/-- The bytes of a text. -/
def utf8 (text : String) : List UInt8 := text.toUTF8.data.toList

@[simp] theorem utf8_append (a b : String) : utf8 (a ++ b) = utf8 a ++ utf8 b := by
  simp [utf8]

/-- `str::contains`: whether the piece stands somewhere in the text. -/
def containsText (text piece : String) : Bool := piece.toList <:+: text.toList

section Cells

variable (serde : Serde)

/-- `cell_to_json_value`: numbers stay numbers, most other cells become texts. -/
def cellToJsonValue : CellValue → Json
  | .null => .null
  | .bool value => .bool value
  | .i64 value => .number (toString value.toInt)
  | .u64 value => .number (toString value.toNat)
  | .f64 bits => serde.float bits
  | .json value => value
  | .map value => .object value
  | .array value => .array value
  | .decimal value | .text value | .uuid value | .date value | .time value | .datetime value
  | .duration value | .bytes value | .geo value => .string value
  | .custom subtype raw => .string ("custom:" ++ subtype ++ "(" ++ raw ++ ")")

/-- `duckdb::types::Value`, the values that are bound to statements. -/
inductive Value
  | null
  | boolean (value : Bool)
  | bigInt (value : Int64)
  | uBigInt (value : UInt64)
  | double (bits : UInt64)
  | text (value : String)
  | blob (bytes : List UInt8)
  deriving DecidableEq

/-- `cell_value_to_duckdb_value`: a bound value; what is encoded has to decode. -/
def cellValueToDuckdbValue (decode : String → Except String (List UInt8)) :
    CellValue → Except String Value
  | .null => .ok .null
  | .bool value => .ok (.boolean value)
  | .i64 value => .ok (.bigInt value)
  | .u64 value => .ok (.uBigInt value)
  | .f64 bits => .ok (.double bits)
  | .decimal value | .text value | .uuid value | .date value | .time value | .datetime value
  | .duration value => .ok (.text value)
  | .bytes value =>
    match decode value with
    | .ok bytes => .ok (.blob bytes)
    | .error error => .error ("invalid base64 bytes parameter: " ++ error)
  | .json value => .ok (.text (serde.print value))
  | .array value => .ok (.text (serde.print (.array value)))
  | .map value => .ok (.text (serde.print (.object value)))
  | .geo value => .ok (.text value)
  | .custom _ raw => .ok (.text raw)

end Cells

end Duckdb
end Navop
