import NavopExtensions.Lib.Text
import Mathlib.Data.List.DropRight

/-!
# Texts in the GBase 8a driver

The methods of `java.lang.String` that the driver reads its texts with, as far as it looks at the result.
-/

namespace Navop
namespace JavaText

/-- What `String.trim` takes off: the space and every control character below it. -/
def isTrimmed (c : Char) : Bool := c ≤ ' '

/-- `String.trim`: such characters go from both ends. -/
@[irreducible] def trim (value : String) : String :=
  String.ofList ((value.toList.dropWhile isTrimmed).rdropWhile isTrimmed)

/-- `String.toLowerCase(Locale.ROOT)`, as far as it yields ASCII letters. -/
def toLowerCase (value : String) : List Char :=
  value.toList.flatMap fun c =>
    if c.toNat = 0x212A then ['k'] else if c.toNat = 0x130 then ['i', Char.ofNat 0x307] else [c.toLower]

/-- `String.toUpperCase(Locale.ROOT)`, as far as it yields ASCII letters. -/
def toUpperCase (value : String) : List Char :=
  value.toList.flatMap fun c =>
    match c.toNat with
    | 0xDF => ['S', 'S']
    | 0x131 => ['I']
    | 0x149 => [Char.ofNat 0x2BC, 'N']
    | 0x17F => ['S']
    | 0x1F0 => ['J', Char.ofNat 0x30C]
    | 0x1E96 => ['H', Char.ofNat 0x331]
    | 0x1E97 => ['T', Char.ofNat 0x308]
    | 0x1E98 => ['W', Char.ofNat 0x30A]
    | 0x1E99 => ['Y', Char.ofNat 0x30A]
    | 0x1E9A => ['A', Char.ofNat 0x2BE]
    | 0xFB00 => ['F', 'F']
    | 0xFB01 => ['F', 'I']
    | 0xFB02 => ['F', 'L']
    | 0xFB03 => ['F', 'F', 'I']
    | 0xFB04 => ['F', 'F', 'L']
    | 0xFB05 => ['S', 'T']
    | 0xFB06 => ['S', 'T']
    | _ => [c.toUpper]

/-- The zeros of the digits that `Character.isDigit` knows in the Basic Multilingual Plane. -/
def zeros : List ℕ :=
  [0x30, 0x660, 0x6F0, 0x7C0, 0x966, 0x9E6, 0xA66, 0xAE6, 0xB66, 0xBE6, 0xC66, 0xCE6, 0xD66, 0xDE6,
    0xE50, 0xED0, 0xF20, 0x1040, 0x1090, 0x17E0, 0x1810, 0x1946, 0x19D0, 0x1A80, 0x1A90, 0x1B50,
    0x1BB0, 0x1C40, 0x1C50, 0xA620, 0xA8D0, 0xA900, 0xA9D0, 0xA9F0, 0xAA50, 0xABF0, 0xFF10]

/-- `Character.digit` in base ten: the value of a decimal digit of any script. -/
def digit? (c : Char) : Option ℕ :=
  (zeros.find? fun first => first ≤ c.toNat && c.toNat < first + 10).map fun first => c.toNat - first

/-- A sign in front of a number, and the rest. -/
def sign : List Char → Bool × List Char
  | '-' :: rest => (true, rest)
  | '+' :: rest => (false, rest)
  | rest => (false, rest)

/-- `BigDecimal.parseExp`: the number after `e`, of at most ten digits behind its leading zeros. -/
def parseExp (text : List Char) : Option ℤ := do
  let (negative, digits) := sign text
  let digits := digits.drop (digits.take (digits.length - 10) |>.takeWhile (digit? · = some 0)).length
  guard (digits ≠ [] ∧ digits.length ≤ 10)
  let values ← digits.mapM digit?
  let exp : ℤ := values.foldl (fun n v => n * 10 + v) 0
  return if negative then -exp else exp

/-- An `int`: what 32 bits hold. -/
def isInt (n : ℤ) : Bool := -2 ^ 31 ≤ n && n < 2 ^ 31

/-- Whether `new BigDecimal(value)` does not throw. -/
def isBigDecimal (value : String) : Bool :=
  let mantissa := (sign value.toList).2.takeWhile fun c => (digit? c).isSome || c = '.'
  let rest := (sign value.toList).2.drop mantissa.length
  let scale := ((mantissa.dropWhile (· ≠ '.')).drop 1).length
  mantissa.count '.' ≤ 1 && mantissa.any (· ≠ '.') &&
    match rest with
    | [] => true
    | c :: exponent => (c = 'e' || c = 'E') &&
      match parseExp exponent with
      | none => false
      | some exp => isInt exp && (exp = 0 || isInt (scale - exp))

/-! ### Trimming -/

variable {value : String}

theorem trim_empty : trim "" = "" := by rw [trim]; rfl

theorem toList_trim :
    (trim value).toList = (value.toList.dropWhile isTrimmed).rdropWhile isTrimmed := by
  rw [trim, String.toList_ofList]

/-- A trimmed text is a part of the text. -/
theorem sublist_trim : (trim value).toList.Sublist value.toList := by
  rw [toList_trim]
  exact (List.rdropWhile_prefix _ _).sublist.trans (List.dropWhile_sublist _)

theorem trim_trim : trim (trim value) = trim value := by
  have hfront : ((value.toList.dropWhile isTrimmed).rdropWhile isTrimmed).dropWhile isTrimmed
      = (value.toList.dropWhile isTrimmed).rdropWhile isTrimmed := by
    rw [List.dropWhile_eq_self_iff]
    intro hlen
    have hpos : 0 < (value.toList.dropWhile isTrimmed).length :=
      hlen.trans_le (List.rdropWhile_prefix _ _).length_le
    rw [(List.rdropWhile_prefix isTrimmed _).getElem hlen]
    exact List.dropWhile_eq_self_iff.1 (List.dropWhile_idempotent isTrimmed _) hpos
  rw [trim, toList_trim, hfront, List.rdropWhile_idempotent, trim]

theorem trim_eq_self (h : ∀ c ∈ value.toList, isTrimmed c = false) : trim value = value := by
  have hfront : value.toList.dropWhile isTrimmed = value.toList := by
    rw [List.dropWhile_eq_self_iff]
    exact fun hlen => by simpa using h _ (List.getElem_mem hlen)
  have hback : value.toList.rdropWhile isTrimmed = value.toList := by
    rw [List.rdropWhile_eq_self_iff]
    exact fun hne => by simpa using h _ (List.getLast_mem hne)
  rw [trim, hfront, hback, String.ofList_toList]

end JavaText
end Navop
