import Mathlib

/-!
# Numbers in decimal notation

What a text with a sign, digits, a fraction and an exponent stands for (`read`), and the texts without an
exponent by their parts (`Numeral`), which are read as their numbers (`read_text`).
-/

/-- A number by its parts: a sign, digits, and digits of a fraction. -/
structure Numeral where
  negative : Bool
  digits : List Char
  fraction : List Char
  digits_isDigit : ∀ c ∈ digits, c.isDigit = true
  fraction_isDigit : ∀ c ∈ fraction, c.isDigit = true
  digits_ne_nil : digits ≠ []

namespace Numeral

/-- The text of a number. -/
def text (n : Numeral) : List Char :=
  (if n.negative then ['-'] else []) ++ n.digits ++
    if n.fraction = [] then [] else '.' :: n.fraction

/-- The number that the digits, the fraction and the sign stand for. -/
def value (n : Numeral) : ℚ :=
  (if n.negative then -1 else 1)
    * ((Nat.ofDigitChars 10 (n.digits ++ n.fraction) 0 : ℚ) * 10 ^ (-(n.fraction.length : ℤ)))

/-- The number of digits. -/
def ofDigits? (digits : List Char) : Option ℕ :=
  if digits ≠ [] ∧ ∀ c ∈ digits, c.isDigit = true then some (Nat.ofDigitChars 10 digits 0) else none

/-- The exponent at the end of a text. -/
def readExponent : List Char → Option ℤ
  | [] => some 0
  | 'e' :: '-' :: digits => (ofDigits? digits).map fun n : ℕ => -(n : ℤ)
  | 'e' :: '+' :: digits => (ofDigits? digits).map fun n : ℕ => (n : ℤ)
  | 'e' :: digits => (ofDigits? digits).map fun n : ℕ => (n : ℤ)
  | _ => none

/-- The digits of a fraction, and what is after them. -/
def readFraction : List Char → List Char × List Char
  | '.' :: rest => (rest.takeWhile Char.isDigit, rest.dropWhile Char.isDigit)
  | rest => ([], rest)

/-- The number of a text without a sign. -/
def readUnsigned (text : List Char) : Option ℚ :=
  let digits := text.takeWhile Char.isDigit
  let (fraction, rest) := readFraction (text.dropWhile Char.isDigit)
  if digits = [] then none
  else (readExponent rest).map fun exponent =>
    (Nat.ofDigitChars 10 (digits ++ fraction) 0 : ℚ) * 10 ^ (exponent - (fraction.length : ℤ))

/-- The number of a text. -/
def read : List Char → Option ℚ
  | '-' :: rest => (readUnsigned rest).map fun x => -x
  | '+' :: rest => readUnsigned rest
  | rest => readUnsigned rest

/-- Digits, and an end that begins with none. -/
theorem span_digits {digits rest : List Char} (hdigits : ∀ c ∈ digits, c.isDigit = true)
    (hrest : ∀ c ∈ rest.head?, c.isDigit = false) :
    (digits ++ rest).takeWhile Char.isDigit = digits ∧
      (digits ++ rest).dropWhile Char.isDigit = rest := by
  rw [List.takeWhile_append_of_pos hdigits, List.dropWhile_append_of_pos hdigits]
  cases rest with
  | nil => exact ⟨List.append_nil _, rfl⟩
  | cons c rest =>
    have hc : ¬ c.isDigit = true := by
      rw [hrest c rfl]
      exact Bool.false_ne_true
    rw [List.takeWhile_cons_of_neg hc, List.dropWhile_cons_of_neg hc]
    exact ⟨List.append_nil _, rfl⟩

theorem readUnsigned_digits {digits fraction rest : List Char}
    (hdigits : ∀ c ∈ digits, c.isDigit = true) (hne : digits ≠ [])
    (hfraction : ∀ c ∈ fraction, c.isDigit = true)
    (hrest : ∀ c ∈ rest.head?, c.isDigit = false ∧ c ≠ '.') :
    readUnsigned (digits ++ ((if fraction = [] then [] else '.' :: fraction) ++ rest))
      = (readExponent rest).map fun exponent =>
        (Nat.ofDigitChars 10 (digits ++ fraction) 0 : ℚ) * 10 ^ (exponent - (fraction.length : ℤ)) := by
  have hspan := @span_digits digits ((if fraction = [] then [] else '.' :: fraction) ++ rest) hdigits
    (by
      split
      · exact fun c hc => (hrest c hc).1
      · intro c hc
        obtain rfl : '.' = c := Option.some.inj hc
        rfl)
  -- the point is there exactly if digits follow it
  have hread : readFraction ((if fraction = [] then [] else '.' :: fraction) ++ rest)
      = (fraction, rest) := by
    split
    · next hnone =>
      rw [hnone, List.nil_append]
      unfold readFraction
      split
      · next rest' => exact absurd rfl (hrest '.' rfl).2
      · rfl
    · have hinner := @span_digits fraction rest hfraction fun c hc => (hrest c hc).1
      show ((fraction ++ rest).takeWhile Char.isDigit, (fraction ++ rest).dropWhile Char.isDigit) = _
      rw [hinner.1, hinner.2]
  simp only [readUnsigned, hspan.1, hspan.2, hread, if_neg hne]

/-- A text that begins with a digit has no sign. -/
theorem read_of_digit {digits rest : List Char} (hdigits : ∀ c ∈ digits, c.isDigit = true)
    (hne : digits ≠ []) : read (digits ++ rest) = readUnsigned (digits ++ rest) := by
  obtain ⟨c, digits, rfl⟩ := List.exists_cons_of_ne_nil hne
  have hc := hdigits c List.mem_cons_self
  rw [List.cons_append]
  unfold read
  split
  · next heq =>
    rw [(List.cons.inj heq).1] at hc
    exact absurd hc (by decide)
  · next heq =>
    rw [(List.cons.inj heq).1] at hc
    exact absurd hc (by decide)
  · rfl

/-- **A number is read from its text.** -/
theorem read_text (n : Numeral) : read n.text = some n.value := by
  have hunsigned := readUnsigned_digits n.digits_isDigit n.digits_ne_nil n.fraction_isDigit
    (fun c (hc : c ∈ ([] : List Char).head?) => absurd hc (by simp))
  rw [List.append_nil, show readExponent [] = some 0 from rfl, Option.map_some, zero_sub] at hunsigned
  unfold text value
  cases n.negative with
  | true =>
    show (readUnsigned (n.digits ++ _)).map (fun x => -x) = _
    rw [hunsigned, Option.map_some, if_pos rfl, neg_one_mul]
  | false =>
    show read ([] ++ n.digits ++ _) = _
    rw [List.nil_append, read_of_digit n.digits_isDigit n.digits_ne_nil, hunsigned,
      if_neg Bool.false_ne_true, one_mul]

end Numeral
