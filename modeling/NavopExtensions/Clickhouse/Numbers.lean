import NavopExtensions.Clickhouse.Value
import NavopExtensions.Lib.Numeral

/-!
# The numbers of a ClickHouse result

The server sends a number as a JSON string or as it is, and `serde_json` keeps what is not in quotes if it
is an integer of 64 bits, and makes a float of it otherwise. So a number arrives exactly if it was in
quotes, or is such an integer, or happens to be what a float is printed as (`numbers_arrive_iff`).
-/

namespace Navop
namespace Clickhouse

/-! ### Types of numbers -/

/-- The widths of integers. -/
inductive IntegerWidth
  | w8 | w16 | w32 | w64 | w128 | w256
  deriving DecidableEq

/-- The widths of decimals. -/
inductive DecimalWidth
  | w32 | w64 | w128 | w256
  deriving DecidableEq

/-- The types of exact numbers. -/
inductive NumericType
  | integer (signed : Bool) (width : IntegerWidth)
  | decimal (precision scale : ℕ)
  | decimalOf (width : DecimalWidth) (scale : ℕ)

/-- The digits of a width. -/
def IntegerWidth.text : IntegerWidth → List Char
  | .w8 => "8".toList
  | .w16 => "16".toList
  | .w32 => "32".toList
  | .w64 => "64".toList
  | .w128 => "128".toList
  | .w256 => "256".toList

/-- The digits of a width. -/
def DecimalWidth.text : DecimalWidth → List Char
  | .w32 => "32".toList
  | .w64 => "64".toList
  | .w128 => "128".toList
  | .w256 => "256".toList

/-- The name of a type. -/
def NumericType.name : NumericType → List Char
  | .integer signed width => (if signed then "Int".toList else "UInt".toList) ++ width.text
  | .decimal _ _ => "Decimal".toList
  | .decimalOf width _ => "Decimal".toList ++ width.text

/-- The text between the parentheses of a type. -/
def NumericType.arguments : NumericType → Option (List Char)
  | .integer _ _ => none
  | .decimal precision scale => some (Nat.toDigits 10 precision ++ ", ".toList ++ Nat.toDigits 10 scale)
  | .decimalOf _ scale => some (Nat.toDigits 10 scale)

/-- The text of a type. -/
def NumericType.text (type : NumericType) : List Char :=
  type.name ++ match type.arguments with
    | some arguments => '(' :: arguments ++ [')']
    | none => []

/-- What a type can be wrapped in. -/
inductive Wrapper
  | nullable
  | lowCardinality
  deriving DecidableEq

/-- The text before a wrapped type. -/
def Wrapper.text : Wrapper → List Char
  | .nullable => "Nullable(".toList
  | .lowCardinality => "LowCardinality(".toList

/-- A type in wrappers. -/
def wrapped (wrappers : List Wrapper) (type : List Char) : List Char :=
  wrappers.foldr (fun wrapper inner => wrapper.text ++ inner ++ [')']) type

/-! ### Tokens -/

/-- A number as the server sends it. -/
structure Token where
  quoted : Bool
  numeral : Numeral

/-- The number of a token. -/
def Token.number (token : Token) : ℚ := token.numeral.value

/-- The integer of a token without a fraction. -/
def Token.integer (token : Token) : ℤ :=
  (if token.numeral.negative then -1 else 1) * (Nat.ofDigitChars 10 token.numeral.digits 0 : ℤ)

/-- A token without quotes is an integer of 64 bits. -/
def Token.Narrow (token : Token) : Prop :=
  token.numeral.fraction = [] ∧ -2 ^ 63 ≤ token.integer ∧ token.integer < 2 ^ 64

instance (token : Token) : Decidable token.Narrow := inferInstanceAs (Decidable (_ ∧ _))

/-- What `serde_json` makes of a token; a float that is too large is an error. -/
def Token.parse (token : Token) : Option Value :=
  if token.quoted then some (.string token.numeral.text)
  else if token.Narrow then some (.number (.integer token.integer))
  else (Float64.ofRat token.number).map fun x => .number (.float x)

/-- A column of a type may have a token: integers have no fractions, no number has more than 256 bits,
and none begins with a zero that JSON does not allow. -/
structure NumericType.Sends (type : NumericType) (token : Token) : Prop where
  whole : ∀ signed width, type = .integer signed width → token.numeral.fraction = []
  bounded : |token.number| < 2 ^ 256
  canonical : token.numeral.digits = ['0'] ∨ token.numeral.digits.head? ≠ some '0'

/-- The number that a cell denotes. -/
def CellValue.number? : CellValue → Option ℚ
  | .i64 n => some n
  | .u64 n => some n
  | .decimal digits | .text digits => Numeral.read digits
  | _ => none

/-- Two numbers of one column arrive: both cells denote exactly their numbers, and are different if
these are. -/
def Arrive (serde : Serde) (dataType : List Char) (token token' : Token) : Prop :=
  ∃ value value', token.parse = some value ∧ token'.parse = some value' ∧
    (decodeCell serde dataType value).number? = some token.number ∧
    (decodeCell serde dataType value').number? = some token'.number ∧
    (token.number ≠ token'.number →
      decodeCell serde dataType value ≠ decodeCell serde dataType value')

/-- A float is printed as a number that is nearest to it. -/
def Serde.PrintsNearest (serde : Serde) : Prop :=
  ∀ x y, |Float64.nearest x| < 2 ^ 1024 → Numeral.read (serde.printFloat (Float64.nearest x)) = some y →
    Float64.nearest y = Float64.nearest x

/-- A token is kept: it is in quotes, or an integer of 64 bits, or what some float is printed as. -/
def Token.Kept (serde : Serde) (token : Token) : Prop :=
  token.quoted = true ∨ token.Narrow ∨
    ∃ x, |Float64.nearest x| < 2 ^ 1024 ∧
      Numeral.read (serde.printFloat (Float64.nearest x)) = some token.number

/-! ### The type of a column -/

/-- A name, and what is in parentheses behind it. -/
theorem trim_closed {name : List Char} (hname : ∀ c ∈ name, Text.isWhitespace c = false)
    (hne : name ≠ []) (inner : List Char) :
    Text.trim (name ++ inner ++ [')']) = name ++ inner ++ [')'] := by
  obtain ⟨c, rest, rfl⟩ := List.exists_cons_of_ne_nil hne
  have hstart := Text.trim_append_cons [] (rest ++ inner ++ [')']) (hname c List.mem_cons_self)
  have hend := Text.trimEnd_append_cons (rest ++ inner) [] (show Text.isWhitespace ')' = false by decide)
  rw [List.nil_append] at hstart
  rw [List.cons_append, List.cons_append, hstart, hend]
  rfl

theorem name_spec (type : NumericType) : type.name ≠ [] ∧
    ∀ c ∈ type.name, c ≠ '(' ∧ Text.isWhitespace c = false := by
  have hall : (!type.name.isEmpty && type.name.all fun c => c ≠ '(' && !Text.isWhitespace c) = true := by
    cases type with
    | integer signed width => cases signed <;> cases width <;> decide
    | decimal precision scale =>
      show (!"Decimal".toList.isEmpty && "Decimal".toList.all _) = true
      decide
    | decimalOf width scale =>
      show (!("Decimal".toList ++ width.text).isEmpty && ("Decimal".toList ++ width.text).all _) = true
      cases width <;> decide
  rw [Bool.and_eq_true, List.all_eq_true] at hall
  refine ⟨by simpa using hall.1, fun c hc => ?_⟩
  simpa using hall.2 c hc

theorem wrapper_spec (wrapper : Wrapper) : wrapper.text ≠ [] ∧
    ∀ c ∈ wrapper.text, Text.isWhitespace c = false := by
  have hall : (!wrapper.text.isEmpty && wrapper.text.all fun c => !Text.isWhitespace c) = true := by
    cases wrapper <;> decide
  rw [Bool.and_eq_true, List.all_eq_true] at hall
  refine ⟨by simpa using hall.1, fun c hc => ?_⟩
  simpa using hall.2 c hc

theorem trim_text (type : NumericType) : Text.trim type.text = type.text := by
  obtain ⟨hne, hname⟩ := name_spec type
  unfold NumericType.text
  split
  · next arguments _ =>
    have htrim := trim_closed (fun c hc => (hname c hc).2) hne ('(' :: arguments)
    rwa [List.append_assoc, List.cons_append] at htrim
  · rw [List.append_nil]
    exact Text.trim_eq_self fun c hc => (hname c hc).2

theorem trim_wrapped (wrappers : List Wrapper) (type : NumericType) :
    Text.trim (wrapped wrappers type.text) = wrapped wrappers type.text := by
  cases wrappers with
  | nil => exact trim_text type
  | cons wrapper wrappers =>
    obtain ⟨hne, hblank⟩ := wrapper_spec wrapper
    exact trim_closed hblank hne (wrapped wrappers type.text)

theorem not_isPrefixOf_of_head {piece text : List Char} {c : Char} (hpiece : piece.head? = some c)
    (htext : text.head? ≠ some c) : ¬ piece.isPrefixOf text = true := by
  intro hprefix
  obtain ⟨rest, rfl⟩ := List.isPrefixOf_iff_prefix.1 hprefix
  rw [List.head?_append, hpiece] at htext
  exact htext rfl

/-- A wrapper is stripped. -/
theorem stripWrappersFrom_wrapper (wrapper : Wrapper) (inner : List Char) :
    stripWrappersFrom (wrapper.text ++ inner ++ [')']) = stripWrappersFrom (Text.trim inner) := by
  have hlower : Text.asciiLower (wrapper.text ++ inner ++ [')'])
      = Text.asciiLower wrapper.text ++ Text.asciiLower (inner ++ [')']) := by
    rw [Text.asciiLower, Text.asciiLower, List.append_assoc, List.map_append]
    rfl
  -- behind the name of the wrapper stand the inner type and the closing parenthesis
  have hdrop : (wrapper.text ++ inner ++ [')']).drop wrapper.text.length = inner ++ [')'] := by
    rw [List.append_assoc, List.drop_left]
  have hlast : (inner ++ [')']).getLast? = some ')' := List.getLast?_concat
  rw [stripWrappersFrom, hlower]
  cases wrapper with
  | nullable =>
    have hprefix : "nullable(".toList.isPrefixOf
        (Text.asciiLower Wrapper.nullable.text ++ Text.asciiLower (inner ++ [')'])) = true :=
      List.isPrefixOf_iff_prefix.2 (List.prefix_append _ _)
    rw [if_pos (.inl hprefix), if_pos hprefix]
    dsimp only
    rw [show "nullable(".toList.length = Wrapper.nullable.text.length by decide, hdrop,
      if_pos hlast, List.dropLast_concat]
  -- the other wrapper is looked for first, but begins with another letter
  | lowCardinality =>
    have hprefix : "lowcardinality(".toList.isPrefixOf
        (Text.asciiLower Wrapper.lowCardinality.text ++ Text.asciiLower (inner ++ [')'])) = true :=
      List.isPrefixOf_iff_prefix.2 (List.prefix_append _ _)
    have hnot : "nullable(".toList.isPrefixOf
        (Text.asciiLower Wrapper.lowCardinality.text ++ Text.asciiLower (inner ++ [')'])) ≠ true := by
      have hhead : "nullable(".toList.head? = some 'n' := by decide
      have hother : (Text.asciiLower Wrapper.lowCardinality.text).head? = some 'l' := by decide
      refine not_isPrefixOf_of_head hhead ?_
      rw [List.head?_append, hother]
      exact fun heq => absurd heq (by simp)
    rw [if_pos (.inr hprefix), if_neg hnot]
    dsimp only
    rw [show "lowcardinality(".toList.length = Wrapper.lowCardinality.text.length by decide,
      hdrop, if_pos hlast, List.dropLast_concat]

/-- A type of numbers is not a wrapper. -/
theorem stripWrappersFrom_text (type : NumericType) : stripWrappersFrom type.text = type.text := by
  have hhead : (Text.asciiLower type.text).head? = (Text.asciiLower type.name).head? := by
    obtain ⟨c, rest, hname⟩ := List.exists_cons_of_ne_nil (name_spec type).1
    rw [NumericType.text, hname]
    rfl
  -- no numeric type begins with the letter of a wrapper
  have hname : (Text.asciiLower type.name).head? ≠ some 'n' ∧
      (Text.asciiLower type.name).head? ≠ some 'l' := by
    cases type with
    | integer signed width => cases signed <;> cases width <;> decide
    | decimal precision scale =>
      show (Text.asciiLower "Decimal".toList).head? ≠ _ ∧ (Text.asciiLower "Decimal".toList).head? ≠ _
      decide
    | decimalOf width scale =>
      show (Text.asciiLower ("Decimal".toList ++ width.text)).head? ≠ _ ∧
        (Text.asciiLower ("Decimal".toList ++ width.text)).head? ≠ _
      cases width <;> decide
  rw [← hhead] at hname
  rw [stripWrappersFrom, if_neg]
  rintro (hstart | hstart)
  · exact not_isPrefixOf_of_head (by decide) hname.1 hstart
  · exact not_isPrefixOf_of_head (by decide) hname.2 hstart

theorem stripWrappers_wrapped (wrappers : List Wrapper) (type : NumericType) :
    stripWrappers (wrapped wrappers type.text) = type.text := by
  rw [stripWrappers, trim_wrapped]
  induction wrappers with
  | nil => exact stripWrappersFrom_text type
  | cons wrapper wrappers ih =>
    rw [wrapped, List.foldr_cons, stripWrappersFrom_wrapper]
    exact (congrArg stripWrappersFrom (trim_wrapped wrappers type)).trans ih

/-- **A type is found in any wrappers.** -/
theorem baseType_wrapped (wrappers : List Wrapper) (type : NumericType) :
    baseType (wrapped wrappers type.text) = type.name.map Char.toUpper := by
  obtain ⟨-, hname⟩ := name_spec type
  have hend : (type.text).takeWhile (· ≠ '(') = type.name := by
    unfold NumericType.text
    rw [List.takeWhile_append_of_pos fun c hc => decide_eq_true (hname c hc).1]
    split
    · rw [List.cons_append, List.takeWhile_cons_of_neg (by decide), List.append_nil]
    · rw [List.takeWhile_nil, List.append_nil]
  rw [baseType, stripWrappers_wrapped, hend, Text.trim_eq_self fun c hc => (hname c hc).2]

/-! ### The decoder of a type -/

variable {serde : Serde} {wrappers : List Wrapper} {token token' : Token}

/-- The kinds of types are disjoint. -/
theorem types_disjoint :
    (∀ base ∈ signedTypes, base ≠ "BOOL".toList) ∧
    (∀ base ∈ unsignedTypes, base ≠ "BOOL".toList ∧ base ∉ signedTypes) ∧
    ∀ base ∈ decimalTypes, base ≠ "BOOL".toList ∧ base ∉ signedTypes ∧ base ∉ unsignedTypes ∧
      base ∉ floatTypes := by
  decide

theorem decodeTyped_signed {dataType : List Char} (h : baseType dataType ∈ signedTypes)
    (value : Value) : decodeTyped serde dataType value = decodeI64 serde value := by
  have hbool := types_disjoint.1 _ h
  unfold decodeTyped
  dsimp only
  rw [if_neg hbool, if_pos h]

theorem decodeTyped_unsigned {dataType : List Char} (h : baseType dataType ∈ unsignedTypes)
    (value : Value) : decodeTyped serde dataType value = decodeU64 serde value := by
  obtain ⟨hbool, hsigned⟩ := types_disjoint.2.1 _ h
  unfold decodeTyped
  dsimp only
  rw [if_neg hbool, if_neg hsigned, if_pos h]

theorem decodeTyped_decimal {dataType : List Char} (h : baseType dataType ∈ decimalTypes)
    (value : Value) : decodeTyped serde dataType value
      = textCell serde .decimal (jsonScalarText serde value) value := by
  obtain ⟨hbool, hsigned, hunsigned, hfloat⟩ := types_disjoint.2.2 _ h
  unfold decodeTyped
  dsimp only
  rw [if_neg hbool, if_neg hsigned, if_neg hunsigned, if_neg hfloat, if_pos h]

theorem decodeCell_of_ne_null {dataType : List Char} {value : Value} (hvalue : value ≠ .null) :
    decodeCell serde dataType value = decodeTyped serde dataType value := by
  cases value with
  | null => exact absurd rfl hvalue
  | bool flag => rfl
  | number number => rfl
  | string text => rfl
  | array values => rfl
  | object fields => rfl

/-- **The decoder of a type** of numbers in any wrappers. -/
theorem decodeCell_wrapped (type : NumericType) {value : Value} (hvalue : value ≠ .null) :
    decodeCell serde (wrapped wrappers type.text) value =
      match type with
      | .integer true _ => decodeI64 serde value
      | .integer false _ => decodeU64 serde value
      | _ => textCell serde .decimal (jsonScalarText serde value) value := by
  have hbase := baseType_wrapped wrappers type
  rw [decodeCell_of_ne_null hvalue]
  -- the wrappers are stripped, and the name of the type in capitals chooses the decoder
  cases type with
  | integer signed width =>
    cases signed with
    | true =>
      refine decodeTyped_signed ?_ value
      rw [hbase]
      cases width <;> decide
    | false =>
      refine decodeTyped_unsigned ?_ value
      rw [hbase]
      cases width <;> decide
  | decimal precision scale =>
    refine decodeTyped_decimal ?_ value
    rw [hbase]
    show "Decimal".toList.map Char.toUpper ∈ decimalTypes
    decide
  | decimalOf width scale =>
    refine decodeTyped_decimal ?_ value
    rw [hbase]
    show ("Decimal".toList ++ width.text).map Char.toUpper ∈ decimalTypes
    cases width <;> decide

/-! ### Cells of tokens -/

theorem number_eq_integer (h : token.numeral.fraction = []) : token.number = token.integer := by
  rw [Token.number, Numeral.value, Token.integer, h]
  split <;> simp

/-- An integer as a numeral. -/
def numeralOf (n : ℤ) : Numeral where
  negative := n < 0
  digits := Nat.toDigits 10 n.natAbs
  fraction := []
  digits_isDigit := Text.isDigit_toDigits
  fraction_isDigit := fun _ hc => absurd hc List.not_mem_nil
  digits_ne_nil := Nat.toDigits_ne_nil

theorem read_printInteger (n : ℤ) : Numeral.read (printInteger n) = some (n : ℚ) := by
  -- an integer is printed as a token that is read back as itself
  have htext : (numeralOf n).text = printInteger n := by
    rw [Numeral.text, printInteger]
    exact (List.append_nil _).trans (by simp [numeralOf])
  rw [← htext, Numeral.read_text]
  refine congrArg some ?_
  have hinteger := @number_eq_integer ⟨false, numeralOf n⟩ rfl
  refine hinteger.trans ?_
  rw [Token.integer]
  show (((if decide (n < 0) = true then -1 else 1) * (Nat.ofDigitChars 10 (Nat.toDigits 10 n.natAbs) 0 : ℤ)
    : ℤ) : ℚ) = n
  rw [Nat.ofDigitChars_ten_toDigits]
  norm_cast
  split
  · next hneg =>
    rw [abs_of_neg (of_decide_eq_true hneg)]
    exact neg_mul_neg 1 n |>.trans (one_mul n)
  · next hpos => rw [abs_of_nonneg (not_lt.1 fun h => hpos (decide_eq_true h)), one_mul]

/-- The text of a number has no blanks. -/
theorem trim_numeral (numeral : Numeral) : Text.trim numeral.text = numeral.text := by
  have hdigit : ∀ c : Char, c.isDigit = true → Text.isWhitespace c = false :=
    fun c => Text.isWhitespace_of_isDigit
  refine Text.trim_eq_self fun c hc => ?_
  rcases List.mem_append.1 hc with hc | hc
  · rcases List.mem_append.1 hc with hc | hc
    · split at hc
      · rw [List.mem_singleton.1 hc]
        decide
      · exact absurd hc List.not_mem_nil
    · exact hdigit c (numeral.digits_isDigit c hc)
  · split at hc
    · exact absurd hc List.not_mem_nil
    · rcases List.mem_cons.1 hc with rfl | hc
      · decide
      · exact hdigit c (numeral.fraction_isDigit c hc)

/-- What is read as an integer of 64 bits is the integer. -/
theorem parseI64_text {n : ℤ} (h : token.numeral.fraction = [])
    (hparse : Text.parseI64 token.numeral.text = some n) : n = token.integer := by
  have hunsigned := fun greatest => @Text.parseUnsigned_digits greatest _
    token.numeral.digits_isDigit token.numeral.digits_ne_nil
  rw [Numeral.text, if_pos h, List.append_nil] at hparse
  unfold Token.integer
  cases hnegative : token.numeral.negative with
  -- a minus is taken off, and what follows it is not a plus
  | true =>
    rw [hnegative] at hparse
    have hplus : token.numeral.digits.head? ≠ some '+' := fun hhead =>
      absurd (token.numeral.digits_isDigit _ (List.mem_of_mem_head? hhead)) (by decide)
    have hneg : Text.parseI64 ('-' :: token.numeral.digits)
        = (Text.parseUnsigned 10 (2 ^ 63) token.numeral.digits).map fun n : ℕ => -(n : ℤ) := by
      rw [Text.parseI64, List.head?_cons, if_pos rfl, List.tail_cons, if_neg hplus]
    obtain ⟨m, hm, rfl⟩ := Option.map_eq_some_iff.1 (hneg.symm.trans hparse)
    rw [hunsigned, Option.ite_none_right_eq_some, Option.some_inj] at hm
    rw [← hm.2, if_pos rfl, neg_one_mul]
  -- without a minus there are only digits
  | false =>
    rw [hnegative] at hparse
    have hminus : token.numeral.digits.head? ≠ some '-' := fun hhead =>
      absurd (token.numeral.digits_isDigit _ (List.mem_of_mem_head? hhead)) (by decide)
    have hpos : Text.parseI64 token.numeral.digits
        = (Text.parseUnsigned 10 (2 ^ 63 - 1) token.numeral.digits).map fun n : ℕ => (n : ℤ) := by
      rw [Text.parseI64, if_neg hminus]
    obtain ⟨m, hm, rfl⟩ := Option.map_eq_some_iff.1 (hpos.symm.trans hparse)
    rw [hunsigned, Option.ite_none_right_eq_some, Option.some_inj] at hm
    rw [← hm.2, if_neg Bool.false_ne_true, one_mul]

/-- What is read as an unsigned integer of 64 bits is the integer. -/
theorem parseU64_text {n : ℕ} (h : token.numeral.fraction = [])
    (hparse : Text.parseU64 token.numeral.text = some n) : (n : ℤ) = token.integer := by
  rw [Numeral.text, if_pos h, List.append_nil] at hparse
  unfold Token.integer
  cases hnegative : token.numeral.negative with
  -- a minus is no digit, so that nothing is parsed
  | true =>
    rw [hnegative] at hparse
    have hnone : Text.parseU64 ('-' :: token.numeral.digits) = none := by
      have hmapM : ('-' :: token.numeral.digits).mapM (Text.digitValue 10) = none := by
        rw [List.mapM_cons, show Text.digitValue 10 '-' = none by decide]
        rfl
      simp only [Text.parseU64, Text.parseUnsigned, List.head?_cons, Option.some.injEq,
        show ('-' = '+') = False by decide, if_false, List.isEmpty_cons, Bool.false_eq_true, hmapM]
    exact absurd (hnone.symm.trans hparse) (by simp)
  | false =>
    rw [hnegative] at hparse
    have hm := (@Text.parseUnsigned_digits (2 ^ 64 - 1) _ token.numeral.digits_isDigit
      token.numeral.digits_ne_nil).symm.trans hparse
    rw [Option.ite_none_right_eq_some, Option.some_inj] at hm
    rw [← hm.2, if_neg Bool.false_ne_true, one_mul]

/-- The number of a token in quotes is that of its cell. -/
theorem number?_string {type : NumericType} (hsends : type.Sends token) :
    (decodeCell serde (wrapped wrappers type.text) (.string token.numeral.text)).number?
      = some token.number := by
  have hread : Numeral.read token.numeral.text = some token.number := Numeral.read_text _
  rw [decodeCell_wrapped type (by simp)]
  cases type with
  | integer signed width =>
    have hfraction := hsends.whole signed width rfl
    cases signed with
    | true =>
      dsimp only [decodeI64]
      rw [trim_numeral]
      cases hparse : Text.parseI64 token.numeral.text with
      -- a number that does not fit keeps its text, which is read as the same number
      | none => exact hread
      | some n =>
        rw [parseI64_text hfraction hparse, number_eq_integer hfraction]
        rfl
    | false =>
      dsimp only [decodeU64]
      rw [trim_numeral]
      cases hparse : Text.parseU64 token.numeral.text with
      | none => exact hread
      | some n =>
        rw [number_eq_integer hfraction, ← parseU64_text hfraction hparse]
        rfl
  | decimal precision scale => exact hread
  | decimalOf width scale => exact hread

/-- So is that of an integer of 64 bits. -/
theorem number?_integer (type : NumericType) (n : ℤ) :
    (decodeCell serde (wrapped wrappers type.text) (.number (.integer n))).number? = some (n : ℚ) := by
  rw [decodeCell_wrapped type (by simp)]
  cases type with
  | integer signed width =>
    cases signed with
    | true =>
      dsimp only [decodeI64, Number.asI64]
      split
      · rfl
      -- out of range: the cell has the printed text
      · exact read_printInteger n
    | false =>
      dsimp only [decodeU64, Number.asU64]
      split
      · next hrange =>
        show some (((n.toNat : ℕ) : ℚ)) = some (n : ℚ)
        rw [← Int.cast_natCast, Int.toNat_of_nonneg hrange.1]
      · exact read_printInteger n
  | decimal precision scale => exact read_printInteger n
  | decimalOf width scale => exact read_printInteger n

/-- A float is shown as it is printed. -/
theorem number?_float (type : NumericType) (x : ℚ) :
    (decodeCell serde (wrapped wrappers type.text) (.number (.float x))).number?
      = Numeral.read (serde.printFloat x) := by
  rw [decodeCell_wrapped type (by simp)]
  cases type with
  | integer signed width => cases signed <;> rfl
  | decimal precision scale => rfl
  | decimalOf width scale => rfl

theorem abs_nearest_number {type : NumericType} (hsends : type.Sends token) :
    |Float64.nearest token.number| < 2 ^ 1024 := by
  calc |Float64.nearest token.number| ≤ 2 ^ 256 := Float64.abs_nearest_le hsends.bounded.le
    _ < 2 ^ 1024 := pow_lt_pow_right₀ (by norm_num) (by norm_num)

/-- **A cell denotes the number of its token** exactly if the token is kept. -/
theorem number?_iff (hserde : serde.PrintsNearest) {type : NumericType} (hsends : type.Sends token) :
    ∃ value, token.parse = some value ∧
      ((decodeCell serde (wrapped wrappers type.text) value).number? = some token.number ↔
        token.Kept serde) := by
  unfold Token.parse Token.Kept
  split
  -- a quoted number arrives as its text
  · next hquoted =>
    exact ⟨_, rfl, iff_of_true (number?_string hsends) (.inl hquoted)⟩
  -- an unquoted one is parsed: exactly if it is a narrow integer, and else as the nearest float
  · next hquoted =>
    split
    · next hnarrow =>
      refine ⟨_, rfl, iff_of_true ?_ (.inr (.inl hnarrow))⟩
      rw [number_eq_integer hnarrow.1]
      exact number?_integer type _
    · next hwide =>
      have hlt := abs_nearest_number hsends
      rw [Float64.ofRat, if_pos hlt]
      refine ⟨_, rfl, ?_⟩
      rw [number?_float, or_iff_right hquoted, or_iff_right hwide]
      -- a float that is read back as the number is the nearest one to it, since printing is right
      constructor
      · intro hread
        exact ⟨token.number, hlt, hread⟩
      · rintro ⟨x, hx, hread⟩
        rw [hserde x token.number hx hread]
        exact hread

/-- **Two numbers of one column arrive** exactly if both are kept. -/
theorem numbers_arrive_iff (hserde : serde.PrintsNearest) (wrappers : List Wrapper)
    {type : NumericType} (hsends : type.Sends token) (hsends' : type.Sends token') :
    Arrive serde (wrapped wrappers type.text) token token' ↔ token.Kept serde ∧ token'.Kept serde := by
  obtain ⟨value, hparse, hiff⟩ := @number?_iff _ wrappers _ hserde _ hsends
  obtain ⟨value', hparse', hiff'⟩ := @number?_iff _ wrappers _ hserde _ hsends'
  constructor
  · rintro ⟨other, other', hother, hother', hnumber, hnumber', -⟩
    obtain rfl : value = other := Option.some.inj (hparse.symm.trans hother)
    obtain rfl : value' = other' := Option.some.inj (hparse'.symm.trans hother')
    exact ⟨hiff.1 hnumber, hiff'.1 hnumber'⟩
  · rintro ⟨hkept, hkept'⟩
    have hnumber := hiff.2 hkept
    have hnumber' := hiff'.2 hkept'
    refine ⟨value, value', hparse, hparse', hnumber, hnumber', fun hne hcell => hne ?_⟩
    rw [hcell] at hnumber
    exact Option.some.inj (hnumber.symm.trans hnumber')

/-! ### Numbers that arrive, and numbers that do not -/

/-- A number without a sign. -/
def unsignedToken (quoted : Bool) (digits fraction : List Char)
    (h : (digits ++ fraction).all Char.isDigit = true ∧ digits ≠ []) : Token where
  quoted := quoted
  numeral :=
    { negative := false
      digits := digits
      fraction := fraction
      digits_isDigit := fun c hc => List.all_eq_true.1 h.1 c (List.mem_append_left _ hc)
      fraction_isDigit := fun c hc => List.all_eq_true.1 h.1 c (List.mem_append_right _ hc)
      digits_ne_nil := h.2 }

/-- The token `5.0`: a whole number, written with a fraction. -/
def fiveToken : Token := unsignedToken false "5".toList "0".toList (by decide)

/-- A decimal of 31 digits in quotes. -/
def longToken : Token :=
  unsignedToken true "123456789012345678901234567890".toList "5".toList (by decide)

/-- `serde_json` as it prints the float 5; nothing is said about others. -/
def fiveSerde : Serde where
  printFloat x := if x = 5 then "5.0".toList else []
  printValue _ := []
  parseF64 _ := none

theorem number_fiveToken : fiveToken.number = 5 := by
  have hdigits : Nat.ofDigitChars 10 ("5".toList ++ "0".toList) 0 = 50 := by decide
  show (if false = true then (-1 : ℚ) else 1)
    * ((Nat.ofDigitChars 10 ("5".toList ++ "0".toList) 0 : ℚ) * 10 ^ (-(1 : ℤ))) = 5
  rw [hdigits]
  norm_num

theorem read_five : Numeral.read "5.0".toList = some 5 := by
  have hread := Numeral.read_text fiveToken.numeral
  rw [show fiveToken.numeral.text = "5.0".toList by decide] at hread
  rw [hread]
  exact congrArg some number_fiveToken

theorem nearest_five : Float64.nearest 5 = 5 := by
  have hfits : Float64.Fits 5 := ⟨5, 0, by norm_num, by norm_num⟩
  exact_mod_cast (Float64.nearest_eq_self_iff 5).2 hfits

theorem fiveSerde_printsNearest : fiveSerde.PrintsNearest := by
  intro x y _ hread
  show Float64.nearest y = Float64.nearest x
  dsimp only [fiveSerde] at hread
  split at hread
  · next hfive =>
    rw [read_five] at hread
    rw [← Option.some.inj hread, hfive, nearest_five]
  · exact absurd ((show Numeral.read [] = none from rfl).symm.trans hread) (by simp)

/-- A float that is printed as what was sent, and a long decimal in quotes. -/
theorem numbers_arrive_five : Arrive fiveSerde
    (wrapped [.lowCardinality, .nullable] (NumericType.decimal 38 1).text) fiveToken longToken := by
  -- both numbers are in the range of the type
  have hlong : |longToken.number| < 2 ^ 256 := by
    have hdigits : Nat.ofDigitChars 10 ("123456789012345678901234567890".toList ++ "5".toList) 0
        = 1234567890123456789012345678905 := by decide
    show |(if false = true then (-1 : ℚ) else 1)
      * ((Nat.ofDigitChars 10 ("123456789012345678901234567890".toList ++ "5".toList) 0 : ℚ)
        * 10 ^ (-(1 : ℤ)))| < 2 ^ 256
    rw [hdigits]
    norm_num
  have hfive : |fiveToken.number| < 2 ^ 256 := by
    rw [number_fiveToken]
    norm_num
  refine (numbers_arrive_iff fiveSerde_printsNearest [.lowCardinality, .nullable]
    ⟨fun _ _ heq => absurd heq (by simp), hfive, by decide⟩
    ⟨fun _ _ heq => absurd heq (by simp), hlong, by decide⟩).2
    ⟨.inr (.inr ⟨5, ?_, ?_⟩), .inl rfl⟩
  · rw [nearest_five]
    calc |(5 : ℚ)| < 2 ^ 3 := by norm_num
      _ ≤ 2 ^ 1024 := pow_le_pow_right₀ (by norm_num) (by norm_num)
  · rw [nearest_five, number_fiveToken]
    exact read_five

/-- The token of 2^65, which a float holds exactly. -/
def evenToken : Token := unsignedToken false "36893488147419103232".toList [] (by decide)

/-- The token of the next integer. -/
def oddToken : Token := unsignedToken false "36893488147419103233".toList [] (by decide)

theorem number_evenToken : evenToken.number = 2 ^ 65 ∧ oddToken.number = 2 ^ 65 + 1 := by
  have heven : evenToken.integer = 2 ^ 65 := by decide
  have hodd : oddToken.integer = 2 ^ 65 + 1 := by decide
  constructor
  · rw [number_eq_integer rfl, heven]
    norm_num
  · rw [number_eq_integer rfl, hodd]
    norm_num

theorem nearest_odd : Float64.nearest (2 ^ 65 + 1) = 2 ^ 65 := by
  have hexp : Float64.ulpExponent (2 ^ 65 + 1) = 13 := by
    refine le_antisymm ?_ ?_
    · exact @Float64.ulpExponent_le _ (by norm_num) 13 (by norm_num [abs_of_pos])
    · exact @Float64.le_ulpExponent _ 13 (by norm_num [abs_of_pos])
  have hfloor : ⌊((2 : ℚ) ^ 65 + 1) / 2 ^ (13 : ℤ)⌋ = 2 ^ 52 := by
    rw [Int.floor_eq_iff]
    norm_num
  rw [Float64.nearest, hexp, Float64.roundEven, hfloor, if_pos (by norm_num)]
  norm_num

theorem nearest_even : Float64.nearest (2 ^ 65) = 2 ^ 65 := by
  have hfits : Float64.Fits (2 ^ 65) := ⟨1, 65, by norm_num, by norm_num⟩
  exact_mod_cast (Float64.nearest_eq_self_iff (2 ^ 65)).2 hfits

/-- **The last digit is lost**: two integers of an `Int128` column have one cell. -/
theorem digit_lost : (NumericType.integer true .w128).Sends evenToken ∧
    (NumericType.integer true .w128).Sends oddToken ∧
    ∀ serde, ¬ Arrive serde (NumericType.integer true .w128).text evenToken oddToken := by
  obtain ⟨heven, hodd⟩ := number_evenToken
  have hbound : |((2 : ℚ) ^ 65)| < 2 ^ 1024 := by
    rw [abs_of_pos (by positivity)]
    exact pow_lt_pow_right₀ (by norm_num) (by norm_num)
  -- the two neighbours have the same nearest float
  have hparse : evenToken.parse = some (.number (.float (2 ^ 65))) := by
    rw [Token.parse, if_neg (by decide), if_neg (by decide), heven, Float64.ofRat, nearest_even,
      if_pos hbound]
    rfl
  have hparse' : oddToken.parse = some (.number (.float (2 ^ 65))) := by
    rw [Token.parse, if_neg (by decide), if_neg (by decide), hodd, Float64.ofRat, nearest_odd,
      if_pos hbound]
    rfl
  refine ⟨⟨fun _ _ _ => rfl, ?_, by decide⟩, ⟨fun _ _ _ => rfl, ?_, by decide⟩,
    fun serde harrive => ?_⟩
  · rw [heven]
    norm_num
  · rw [hodd]
    norm_num
  · obtain ⟨value, value', hvalue, hvalue', -, -, hdiffer⟩ := harrive
    obtain rfl := Option.some.inj (hparse.symm.trans hvalue)
    obtain rfl := Option.some.inj (hparse'.symm.trans hvalue')
    refine hdiffer ?_ rfl
    rw [heven, hodd]
    norm_num

end Clickhouse
end Navop
