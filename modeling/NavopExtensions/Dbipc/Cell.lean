import NavopExtensions.Lib.Float64
import NavopExtensions.Lib.Text

/-!
# Cells on the wire

The values of a query result and of query parameters, from `internal/dbipc/query.go`: `toCell` on the
way out, `paramFromWire` on the way in. A cell is a JSON object with a type and
a value; what comes back was decoded into an untyped position, where every number is the nearest
`float64`.

What Go's library does with texts, and what a conversion does with a float that is out of range (which
Go leaves to the platform), is in `GoLib`.
-/

namespace Navop
namespace Dbipc

/-- A `float64`; finite ones are given by their value. -/
inductive Float
  | finite (value : ℚ)
  | infinite (negative : Bool)
  | nan
  deriving DecidableEq

/-- A value that a driver scans. Integers of all sizes are widened, times are in their text. -/
inductive Value
  | null
  | bool (b : Bool)
  | int (n : Int64)
  | uint (n : UInt64)
  | float (x : Float)
  | bytes (raw : List UInt8)
  | string (s : String)
  | time (text : String)
  | other (text : String)
  deriving DecidableEq

/-- The value of a cell; an absent one is `null`. JSON columns keep their text. -/
inductive CellData
  | null
  | bool (b : Bool)
  | int (n : ℤ)
  | float (x : Float)
  | string (s : String)
  | json (raw : List UInt8)
  deriving DecidableEq

/-- `cellValue` on the way out. -/
structure Cell where
  type : String
  value : CellData
  deriving DecidableEq

/-- What JSON decodes to in an untyped position. -/
inductive Decoded
  | null
  | bool (b : Bool)
  | number (x : ℚ)
  | string (s : String)
  | array (items : List Decoded)
  | object (fields : List (String × Decoded))

/-- `cellValue` on the way in; an absent entry is `null`. -/
structure WireCell where
  type : Decoded
  value : Decoded

/-- A parameter of a query. -/
inductive Arg
  | null
  | bool (b : Bool)
  | int64 (n : Int64)
  | float64 (x : Float)
  | string (s : String)
  | bytes (raw : List UInt8)
  | decoded (value : Decoded)

/-- What is taken from Go's library: `strconv.ParseFloat`, `json.Unmarshal`, `json.Marshal`, base64,
`fmt.Sprint`, and conversions of floats that are out of range. -/
structure GoLib where
  parseFloat : String → Option Float
  decodeJson : List UInt8 → Option Decoded
  encodeJson : Decoded → Option String
  base64 : List UInt8 → String
  unbase64 : String → Option (List UInt8)
  sprint : Decoded → String
  int64OutOfRange : ℚ → Int64
  uint64OutOfRange : ℚ → UInt64

/-! ### Texts -/

/-- The digits of a decimal number. -/
def parseDigits (cs : List Char) : Option ℕ :=
  if cs ≠ [] ∧ cs.all Char.isDigit then
    some (cs.foldl (fun n c => n * 10 + (c.toNat - '0'.toNat)) 0)
  else none

/-- `strconv.ParseInt(s, 10, 64)`: a sign, digits, and in range. -/
def parseInt (s : String) : Option Int64 := do
  let n ← match s.toList with
    | '+' :: cs => (parseDigits cs).map Int.ofNat
    | '-' :: cs => (parseDigits cs).map fun n => -Int.ofNat n
    | cs => (parseDigits cs).map Int.ofNat
  if -2 ^ 63 ≤ n ∧ n < 2 ^ 63 then some (Int64.ofInt n) else none

/-- `strconv.ParseUint(s, 10, 64)`: digits only, and in range. -/
def parseUint (s : String) : Option UInt64 := do
  let n ← parseDigits s.toList
  if n < 2 ^ 64 then some (UInt64.ofNat n) else none

/-- `strconv.ParseBool`: the six spellings of each truth value. -/
def parseBool (s : String) : Option Bool :=
  if s ∈ ["1", "t", "T", "true", "TRUE", "True"] then some true
  else if s ∈ ["0", "f", "F", "false", "FALSE", "False"] then some false
  else none

/-- `unicode.IsSpace`, which is true of the characters of Unicode's `White_Space`. -/
def isSpace (c : Char) : Bool := Text.isWhitespace c

/-- `strings.TrimSpace`: without the blanks at both ends. -/
def trimSpace (s : String) : String :=
  String.ofList (((s.toList.dropWhile isSpace).reverse.dropWhile isSpace).reverse)

/-- `strings.ToLower`, as far as it yields ASCII letters. -/
def toLower (s : String) : String :=
  String.ofList (s.toList.map fun c =>
    if c.toNat = 0x130 then 'i' else if c.toNat = 0x212A then 'k' else c.toLower)

section Cells

variable (go : GoLib)

/-! ### Out -/

/-- A cell with the base64 text of some bytes. -/
def bytesCell (raw : List UInt8) : Cell := ⟨"bytes", .string (go.base64 raw)⟩

/-- `toCell`: a value of the driver as a cell for the wire, its kind by its Go type. -/
def toCell : Value → Cell
  | .null => ⟨"null", .null⟩
  | .bool b => ⟨"bool", .bool b⟩
  | .int n => ⟨"i64", .int n.toInt⟩
  | .uint n => ⟨"u64", .int n.toNat⟩
  | .float x => ⟨"f64", .float x⟩
  | .bytes raw => bytesCell go raw
  | .string s => ⟨"text", .string s⟩
  | .time text => ⟨"datetime", .string text⟩
  | .other text => ⟨"text", .string text⟩

/-! ### In -/

/-- A number of a JSON text in an untyped position; `none` if it is too large. -/
def decodeNumber (x : ℚ) : Option Decoded := (Float64.ofRat x).map Decoded.number

/-- A cell is marshalled, and decoded by `decodeParams`. -/
def decodeCell (cell : Cell) : Option WireCell := do
  let value ← match cell.value with
    | .null => some .null
    | .bool b => some (.bool b)
    | .int n => decodeNumber n
    | .float (.finite x) => decodeNumber x
    | .float _ => none
    | .string s => some (.string s)
    | .json raw => go.decodeJson raw
  return ⟨.string cell.type, value⟩

/-- `int64(v)`: the whole part, and whatever the platform makes of a float out of range. -/
def toInt64 (x : ℚ) : Int64 :=
  if -2 ^ 63 ≤ x ∧ x < 2 ^ 63 then Int64.ofInt ⌊x⌋ else go.int64OutOfRange x

/-- `uint64(v)`: the whole part, and whatever the platform makes of a float out of range. -/
def toUint64 (x : ℚ) : UInt64 :=
  if 0 ≤ x ∧ x < 2 ^ 64 then UInt64.ofNat ⌊x⌋.toNat else go.uint64OutOfRange x

/-- `asBool`: a flag, or the text of anything else if it reads as one. -/
def asBool : Decoded → Option Bool
  | .bool b => some b
  | .string s => parseBool s
  | value => parseBool (go.sprint value)

/-- `asInt64`: a whole number, or the text of anything else if it reads as one. -/
def asInt64 : Decoded → Option Int64
  | .number x => if (⌊x⌋ : ℚ) ≠ x then none else some (toInt64 go x)
  | .string s => parseInt s
  | value => parseInt (go.sprint value)

/-- A `uint64` as a parameter: what exceeds an `int64` is sent as its decimal text. -/
def uint64Arg (n : UInt64) : Arg :=
  if n.toNat < 2 ^ 63 then .int64 (Int64.ofInt n.toNat) else .string (toString n.toNat)

/-- `asUint64Param`: a whole number, or the text of anything else if it reads as one. -/
def asUint64Param : Decoded → Option Arg
  | .number x => if (⌊x⌋ : ℚ) ≠ x then none else some (uint64Arg (toUint64 go x))
  | .string s => (parseUint s).map uint64Arg
  | value => (parseUint (go.sprint value)).map uint64Arg

/-- `asFloat64`: a number, or the text of anything else if it reads as one. -/
def asFloat64 : Decoded → Option Float
  | .number x => some (.finite x)
  | .string s => go.parseFloat s
  | value => go.parseFloat (go.sprint value)

/-- `asString`: a text as it is, anything else as it is printed. -/
def asString : Decoded → String
  | .null => ""
  | .string s => s
  | value => go.sprint value

/-- `paramFromWire`; `none` stands for its errors. -/
def paramFromWire (param : WireCell) : Option Arg :=
  let type := match param.type with
    | .string s => s
    | _ => ""
  match toLower type with
  | "" => none
  | "null" => some .null
  | "bool" => (asBool go param.value).map .bool
  | "i64" => (asInt64 go param.value).map .int64
  | "u64" => asUint64Param go param.value
  | "f64" => (asFloat64 go param.value).map .float64
  | "decimal" => some (.string (asString go param.value))
  | "text" => some (.string (asString go param.value))
  | "uuid" => some (.string (asString go param.value))
  | "date" => some (.string (asString go param.value))
  | "time" => some (.string (asString go param.value))
  | "datetime" => some (.string (asString go param.value))
  | "duration" => some (.string (asString go param.value))
  | "geo" => some (.string (asString go param.value))
  | "custom" => some (.string (asString go param.value))
  | "bytes" => (go.unbase64 (asString go param.value)).map .bytes
  | "json" => (go.encodeJson param.value).map .string
  | "array" => (go.encodeJson param.value).map .string
  | "map" => (go.encodeJson param.value).map .string
  | _ => some (.decoded param.value)

end Cells

end Dbipc
end Navop
