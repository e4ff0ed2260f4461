import Mathlib

/-!
# Texts as lists of characters

The functions on strings that programs read configuration files with, with the meaning that Rust's
library gives them.
-/

namespace Text

/-- Whether a text is one of some texts is decided by comparing them, which is lawful. -/
instance lawfulBEq_chars : LawfulBEq (List Char) := inferInstance

/-- `char::is_whitespace`: the `White_Space` characters of Unicode. -/
def isWhitespace (c : Char) : Bool :=
  c.toNat ∈ [9, 10, 11, 12, 13, 32, 0x85, 0xA0, 0x1680, 0x2028, 0x2029, 0x202F, 0x205F, 0x3000] ||
    (0x2000 ≤ c.toNat && c.toNat ≤ 0x200A)

/-- `str::trim_start`: white space goes from the front. -/
def trimStart (cs : List Char) : List Char := cs.dropWhile isWhitespace

/-- `str::trim_end`: white space goes from the end. -/
def trimEnd (cs : List Char) : List Char := (cs.reverse.dropWhile isWhitespace).reverse

/-- `str::trim`: white space goes from both ends. -/
def trim (cs : List Char) : List Char := trimEnd (trimStart cs)

/-- The lines of a text, after a piece of the first one. -/
def linesAfter (line : List Char) : List Char → List (List Char)
  | [] => if line.isEmpty then [] else [line]
  | c :: cs =>
    if c = '\n' then (if line.getLast? = some '\r' then line.dropLast else line) :: linesAfter [] cs
    else linesAfter (line ++ [c]) cs

/-- `str::lines`: a last line that is empty is none, and a carriage return before a break goes. -/
def lines (text : List Char) : List (List Char) := linesAfter [] text

/-- `str::split_once`, at the first such character. -/
def splitOnce (separator : Char) (cs : List Char) : Option (List Char × List Char) :=
  if separator ∈ cs then
    some (cs.takeWhile (· ≠ separator), (cs.dropWhile (· ≠ separator)).tail)
  else none

/-- `str::rsplit_once`, at the last such character. -/
def rsplitOnce (separator : Char) (cs : List Char) : Option (List Char × List Char) :=
  (splitOnce separator cs.reverse).map fun (after, before) => (before.reverse, after.reverse)

/-- `str::split_whitespace`: the pieces between white space that are not empty. -/
def splitWhitespace (cs : List Char) : List (List Char) :=
  (cs.splitOnP isWhitespace).filter (!·.isEmpty)

/-- `str::to_ascii_lowercase`: the letters of ASCII only. -/
def asciiLower (cs : List Char) : List Char := cs.map Char.toLower

/-- `str::eq_ignore_ascii_case`. -/
def eqIgnoreAsciiCase (a b : List Char) : Bool := asciiLower a = asciiLower b

/-- `String::from_utf8`: the text that bytes are the encoding of, if they are one. -/
def fromUtf8 (bytes : List UInt8) : Option (List Char) :=
  (String.fromUTF8? ⟨bytes.toArray⟩).map String.toList

/-- The value of a digit. -/
def digitValue (radix : ℕ) (c : Char) : Option ℕ :=
  let value :=
    if c.isDigit then c.toNat - '0'.toNat
    else if c.isLower then c.toNat - 'a'.toNat + 10
    else if c.isUpper then c.toNat - 'A'.toNat + 10
    else radix
  if value < radix then some value else none

/-- `from_str_radix` of an unsigned integer type with the given greatest value. -/
def parseUnsigned (radix greatest : ℕ) (cs : List Char) : Option ℕ :=
  let digits := if cs.head? = some '+' then cs.tail else cs
  if digits.isEmpty then none
  else
    match digits.mapM (digitValue radix) with
    | none => none
    | some values =>
      let value := values.foldl (fun value digit => value * radix + digit) 0
      if value ≤ greatest then some value else none

/-- `str::parse::<u64>`: digits, with a plus in front if one likes, within 64 bits. -/
def parseU64 (cs : List Char) : Option ℕ := parseUnsigned 10 (2 ^ 64 - 1) cs

/-- `str::parse::<i64>`: a minus counts too, and takes the bound one further. -/
def parseI64 (cs : List Char) : Option ℤ :=
  if cs.head? = some '-' then
    if cs.tail.head? = some '+' then none
    else (parseUnsigned 10 (2 ^ 63) cs.tail).map fun n : ℕ => -(n : ℤ)
  else (parseUnsigned 10 (2 ^ 63 - 1) cs).map fun n : ℕ => (n : ℤ)

/-- `char::decode_utf16`, where every unit has to be decoded. -/
def decodeUtf16 : List ℕ → Option (List Char)
  | [] => some []
  | [unit] =>
    if unit < 0xD800 ∨ 0xDFFF < unit then some [Char.ofNat unit] else none
  | unit :: second :: units =>
    if unit < 0xD800 ∨ 0xDFFF < unit then
      (decodeUtf16 (second :: units)).map (Char.ofNat unit :: ·)
    else if unit < 0xDC00 ∧ 0xDC00 ≤ second ∧ second ≤ 0xDFFF then
      (decodeUtf16 units).map
        (Char.ofNat (0x10000 + (unit - 0xD800) * 0x400 + (second - 0xDC00)) :: ·)
    else none

/-- `str::encode_utf16`: a surrogate pair for each character beyond the plane. -/
def encodeUtf16 (cs : List Char) : List ℕ :=
  cs.flatMap fun c =>
    if c.toNat < 0x10000 then [c.toNat]
    else [0xD800 + (c.toNat - 0x10000) / 0x400, 0xDC00 + (c.toNat - 0x10000) % 0x400]

theorem encodeUtf16_append (cs ds : List Char) :
    encodeUtf16 (cs ++ ds) = encodeUtf16 cs ++ encodeUtf16 ds := List.flatMap_append

theorem length_encodeUtf16_pos {cs : List Char} (hcs : cs ≠ []) : 0 < (encodeUtf16 cs).length := by
  obtain ⟨c, cs, rfl⟩ := List.exists_cons_of_ne_nil hcs
  unfold encodeUtf16
  rw [List.flatMap_cons, List.length_append]
  split
  · simp
  · simp

/-! ### Texts around a character -/

section Around

variable {c : Char} (before after : List Char)

theorem trimStart_append_cons (hc : isWhitespace c = false) :
    trimStart (before ++ c :: after) = trimStart before ++ c :: after := by
  unfold trimStart
  induction before with
  | nil => rw [List.nil_append, List.dropWhile_cons_of_neg (by simpa using hc)]; rfl
  | cons d before ih =>
    rw [List.cons_append]
    by_cases hd : isWhitespace d = true
    · rw [List.dropWhile_cons_of_pos hd, List.dropWhile_cons_of_pos hd, ih]
    · rw [List.dropWhile_cons_of_neg hd, List.dropWhile_cons_of_neg hd, List.cons_append]

theorem trimEnd_append_cons (hc : isWhitespace c = false) :
    trimEnd (before ++ c :: after) = before ++ c :: trimEnd after := by
  have hreverse := trimStart_append_cons after.reverse before.reverse hc
  unfold trimStart at hreverse
  unfold trimEnd
  rw [List.reverse_append, List.reverse_cons, List.append_assoc, List.singleton_append, hreverse]
  simp

theorem trim_append_cons (hc : isWhitespace c = false) :
    trim (before ++ c :: after) = trimStart before ++ c :: trimEnd after := by
  unfold trim
  rw [trimStart_append_cons before after hc, trimEnd_append_cons _ after hc]

/-- A prefix without the character is one of the text before it. -/
theorem dropPrefix?_append_cons {piece : List Char} (hc : c ∉ piece) :
    (before ++ c :: after).dropPrefix? piece = (before.dropPrefix? piece).map (· ++ c :: after) := by
  induction piece generalizing before with
  | nil => simp
  | cons d piece ih =>
    obtain ⟨hne, hrest⟩ := not_or.mp (fun h => hc (List.mem_cons.mpr h))
    cases before with
    | nil =>
      change (if c == d then _ else none) = none
      rw [if_neg (by simpa using hne)]
    | cons e before =>
      rw [List.cons_append, List.dropPrefix?, List.dropPrefix?]
      split
      · exact ih before hrest
      · rfl

end Around

/-! ### Splitting and trimming -/

theorem splitOnce_append {separator : Char} {before after : List Char} (h : separator ∉ before) :
    splitOnce separator (before ++ separator :: after) = some (before, after) := by
  have hbefore : ∀ c ∈ before, decide (c ≠ separator) = true := by
    intro c hc
    exact decide_eq_true fun heq => h (heq ▸ hc)
  rw [splitOnce, if_pos (by simp), List.takeWhile_append_of_pos hbefore,
    List.dropWhile_append_of_pos hbefore, List.takeWhile_cons_of_neg (by simp),
    List.dropWhile_cons_of_neg (by simp), List.append_nil, List.tail_cons]

theorem trim_eq_self {text : List Char} (h : ∀ c ∈ text, isWhitespace c = false) :
    trim text = text := by
  have hstart {cs : List Char} (hcs : ∀ c ∈ cs, isWhitespace c = false) :
      cs.dropWhile isWhitespace = cs := by
    cases cs with
    | nil => rfl
    | cons c cs => rw [List.dropWhile_cons_of_neg (by rw [hcs c List.mem_cons_self]; simp)]
  rw [trim, trimStart, hstart h, trimEnd,
    hstart fun c hc => h c (List.mem_reverse.1 hc), List.reverse_reverse]

/-! ### Trimmed texts -/

section Trimmed

variable {text : List Char} {c : Char}

theorem trimEnd_eq_reverse (text : List Char) : trimEnd text = (trimStart text.reverse).reverse := rfl

theorem trimStart_eq_self (h : ∀ c, text.head? = some c → isWhitespace c = false) :
    trimStart text = text := by
  cases text with
  | nil => rfl
  | cons c text => exact List.dropWhile_cons_of_neg (by rw [h c rfl]; exact Bool.false_ne_true)

theorem trimEnd_eq_self (h : ∀ c, text.getLast? = some c → isWhitespace c = false) :
    trimEnd text = text := by
  rw [trimEnd_eq_reverse, trimStart_eq_self fun c hc => h c (List.head?_reverse ▸ hc),
    List.reverse_reverse]

theorem isWhitespace_head?_trimStart (h : (trimStart text).head? = some c) :
    isWhitespace c = false := by
  have hnot := List.head?_dropWhile_not isWhitespace text
  change (text.dropWhile isWhitespace).head? = some c at h
  rw [h] at hnot
  exact hnot

theorem isWhitespace_getLast?_trimEnd (h : (trimEnd text).getLast? = some c) :
    isWhitespace c = false := by
  rw [trimEnd_eq_reverse, List.getLast?_reverse] at h
  exact isWhitespace_head?_trimStart h

/-- What is left at the end is left of the end. -/
theorem getLast?_trimStart (h : (trimStart text).getLast? = some c) : text.getLast? = some c := by
  obtain ⟨before, hbefore⟩ := List.dropWhile_suffix isWhitespace (l := text)
  have hlast : (text.dropWhile isWhitespace).getLast? = some c := h
  rw [← hbefore, List.getLast?_append, hlast, Option.some_or]

theorem head?_trimEnd (h : (trimEnd text).head? = some c) : text.head? = some c := by
  rw [trimEnd_eq_reverse, List.head?_reverse] at h
  rw [← List.getLast?_reverse]
  exact getLast?_trimStart h

theorem isWhitespace_head?_trim (h : (trim text).head? = some c) : isWhitespace c = false :=
  isWhitespace_head?_trimStart (head?_trimEnd h)

theorem isWhitespace_getLast?_trim (h : (trim text).getLast? = some c) : isWhitespace c = false :=
  isWhitespace_getLast?_trimEnd h

theorem mem_of_mem_trimStart (hc : c ∈ trimStart text) : c ∈ text :=
  (List.dropWhile_suffix isWhitespace).mem hc

theorem mem_of_mem_trim (hc : c ∈ trim text) : c ∈ text := by
  rw [trim, trimEnd_eq_reverse, List.mem_reverse] at hc
  exact mem_of_mem_trimStart (List.mem_reverse.mp (mem_of_mem_trimStart hc))

/-- A text without whitespace at its ends is trimmed. -/
theorem trim_eq_self_of_ends (hhead : ∀ c, text.head? = some c → isWhitespace c = false)
    (hlast : ∀ c, text.getLast? = some c → isWhitespace c = false) : trim text = text := by
  rw [trim, trimStart_eq_self hhead, trimEnd_eq_self hlast]

theorem trim_trim (text : List Char) : trim (trim text) = trim text :=
  trim_eq_self_of_ends (fun _ => isWhitespace_head?_trim) fun _ => isWhitespace_getLast?_trim

theorem eq_of_splitOnce {separator : Char} {before after : List Char}
    (h : splitOnce separator text = some (before, after)) :
    text = before ++ separator :: after ∧ separator ∉ before := by
  unfold splitOnce at h
  split at h
  · next hmem =>
    obtain ⟨rfl, rfl⟩ := Prod.mk.inj (Option.some.inj h)
    -- the first character after `before` is the separator
    have hsplit := List.takeWhile_append_dropWhile (p := (· ≠ separator)) (l := text)
    have hne : text.dropWhile (· ≠ separator) ≠ [] := by
      intro hnil
      rw [List.dropWhile_eq_nil_iff] at hnil
      exact of_decide_eq_true (hnil separator hmem) rfl
    obtain ⟨c, rest, hcons⟩ := List.exists_cons_of_ne_nil hne
    have hc := List.head?_dropWhile_not (· ≠ separator) text
    rw [hcons] at hc hsplit ⊢
    obtain rfl : c = separator := not_not.mp (of_decide_eq_false hc)
    refine ⟨hsplit.symm, fun hin => ?_⟩
    have hself := List.mem_takeWhile_imp hin
    exact of_decide_eq_true hself rfl
  · cases h

end Trimmed

/-! ### Lines -/

theorem not_mem_linesAfter {line text : List Char} (hline : '\n' ∉ line) :
    ∀ found ∈ linesAfter line text, '\n' ∉ found := by
  induction text generalizing line with
  | nil =>
    unfold linesAfter
    -- the line that ends here loses its carriage return and nothing else
    split
    · exact fun _ hfound => absurd hfound List.not_mem_nil
    · exact List.forall_mem_singleton.mpr hline
  | cons c text ih =>
    unfold linesAfter
    split
    · refine List.forall_mem_cons.mpr ⟨?_, ih List.not_mem_nil⟩
      split
      · exact fun hmem => hline (List.mem_of_mem_dropLast hmem)
      · exact hline
    · next hne =>
      refine ih fun hmem => ?_
      obtain hold | hnew := List.mem_append.mp hmem
      · exact hline hold
      · exact hne (List.mem_singleton.mp hnew).symm

/-- No line contains its end. -/
theorem not_mem_lines (text : List Char) : ∀ line ∈ lines text, '\n' ∉ line :=
  not_mem_linesAfter List.not_mem_nil

/-- A text of lines, each of which is ended. -/
def ofLines (lines : List (List Char)) : List Char := lines.flatMap (· ++ ['\r', '\n'])

theorem linesAfter_append {rest line : List Char} (hrest : '\n' ∉ rest) (text : List Char) :
    linesAfter line (rest ++ text) = linesAfter (line ++ rest) text := by
  induction rest generalizing line with
  | nil => rw [List.nil_append, List.append_nil]
  | cons c rest ih =>
    obtain ⟨hc, hmore⟩ := not_or.mp fun h => hrest (List.mem_cons.mpr h)
    rw [List.cons_append, linesAfter, if_neg (Ne.symm hc), ih hmore, List.append_assoc]
    rfl

/-- A text is read as the lines that it was written with. -/
theorem lines_ofLines {texts : List (List Char)} (h : ∀ line ∈ texts, '\n' ∉ line) :
    lines (ofLines texts) = texts := by
  induction texts with
  | nil => rfl
  | cons line texts ih =>
    obtain ⟨hline, hrest⟩ := List.forall_mem_cons.mp h
    have hended : '\n' ∉ line ++ ['\r'] := by
      rw [List.mem_append]
      exact fun hmem => hmem.elim hline (by decide)
    have hsplit : ofLines (line :: texts) = (line ++ ['\r']) ++ '\n' :: ofLines texts := by
      unfold ofLines
      rw [List.flatMap_cons]
      simp
    rw [hsplit, lines, linesAfter_append hended, List.nil_append, linesAfter, if_pos rfl,
      if_pos List.getLast?_concat, List.dropLast_concat]
    exact congrArg (line :: ·) (ih hrest)

/-! ### UTF-16 -/

/-- The units of a character, and more units. -/
theorem decodeUtf16_char (c : Char) (units : List ℕ) :
    decodeUtf16 (encodeUtf16 [c] ++ units) = (decodeUtf16 units).map (c :: ·) := by
  have hvalid := c.valid
  have hback : Char.ofNat c.toNat = c := Char.ofNat_toNat c
  have hlt : c.toNat < 0x110000 := by
    obtain h | h := hvalid
    · exact lt_trans h (by decide)
    · exact h.2
  by_cases hsmall : c.toNat < 0x10000
  · have hunits : encodeUtf16 [c] = [c.toNat] := by
      unfold encodeUtf16
      rw [List.flatMap_singleton, if_pos hsmall]
    -- a character is no surrogate
    have hplain : c.toNat < 0xD800 ∨ 0xDFFF < c.toNat := by
      obtain h | h := hvalid
      · exact Or.inl h
      · exact Or.inr h.1
    rw [hunits, List.singleton_append]
    cases units with
    | nil =>
      change (if c.toNat < 0xD800 ∨ 0xDFFF < c.toNat then some [Char.ofNat c.toNat] else none) = _
      rw [if_pos hplain, hback]
      rfl
    | cons unit units => rw [decodeUtf16, if_pos hplain, hback]
  · have hunits : encodeUtf16 [c]
        = [0xD800 + (c.toNat - 0x10000) / 0x400, 0xDC00 + (c.toNat - 0x10000) % 0x400] := by
      unfold encodeUtf16
      rw [List.flatMap_singleton, if_neg hsmall]
    -- the two halves put together
    have hjoin : 0x10000 + (0xD800 + (c.toNat - 0x10000) / 0x400 - 0xD800) * 0x400
        + (0xDC00 + (c.toNat - 0x10000) % 0x400 - 0xDC00) = c.toNat := by
      omega
    rw [hunits, List.cons_append, List.singleton_append, decodeUtf16, if_neg (by omega),
      if_pos (by omega), hjoin, hback]

theorem decodeUtf16_encodeUtf16 (text : List Char) : decodeUtf16 (encodeUtf16 text) = some text := by
  induction text with
  | nil => rfl
  | cons c text ih =>
    have hsplit : encodeUtf16 (c :: text) = encodeUtf16 [c] ++ encodeUtf16 text :=
      encodeUtf16_append [c] text
    rw [hsplit, decodeUtf16_char, ih]
    rfl

/-- A unit has sixteen bits. -/
theorem encodeUtf16_lt (text : List Char) : ∀ unit ∈ encodeUtf16 text, unit < 2 ^ 16 := by
  intro unit hunit
  obtain ⟨c, -, hc⟩ := List.mem_flatMap.mp hunit
  have hlt : c.toNat < 0x110000 := by
    obtain h | h := c.valid
    · exact lt_trans h (by decide)
    · exact h.2
  split at hc
  · next hsmall => rwa [List.mem_singleton.mp hc]
  · simp only [List.mem_cons, List.not_mem_nil, or_false] at hc
    omega

/-! ### Pieces between separators -/

/-- A text between two separators has none. -/
theorem not_mem_of_mem_splitOn {text piece : List Char} {c : Char} (h : piece ∈ text.splitOn c) :
    c ∉ piece := by
  induction text generalizing piece with
  | nil =>
    rw [List.splitOn_nil, List.mem_singleton] at h
    subst h
    exact List.not_mem_nil
  | cons d text ih =>
    rw [List.splitOn_cons_eq_if_modifyHead] at h
    split at h
    · rcases List.mem_cons.1 h with rfl | h
      · exact List.not_mem_nil
      · exact ih h
    -- the character goes to the first piece, which is the only one that changes
    · next hne =>
      obtain ⟨first, rest, hsplit⟩ := List.exists_cons_of_ne_nil (List.splitOn_ne_nil c text)
      rw [hsplit, List.modifyHead_cons] at h
      rw [hsplit] at ih
      rcases List.mem_cons.1 h with rfl | h
      · intro hmem
        rcases List.mem_cons.1 hmem with rfl | hmem
        · exact hne (beq_self_eq_true c)
        · exact ih List.mem_cons_self hmem
      · exact ih (List.mem_cons_of_mem _ h)

theorem intercalate_cons_eq (separator : Char) (piece : List Char) (pieces : List (List Char)) :
    [separator].intercalate (piece :: pieces) = piece ++ pieces.flatMap (separator :: ·) := by
  induction pieces generalizing piece with
  | nil => simp
  | cons next pieces ih =>
    rw [List.intercalate_cons_of_ne_nil (List.cons_ne_nil _ _), ih, List.flatMap_cons]
    simp

/-- A piece between two separators is of the text. -/
theorem mem_of_mem_splitOn {text piece : List Char} {separator c : Char}
    (h : piece ∈ text.splitOn separator) (hc : c ∈ piece) : c ∈ text := by
  have hjoin : [separator].intercalate (text.splitOn separator) = text :=
    List.intercalate_splitOn separator
  obtain ⟨first, pieces, hsplit⟩ := List.exists_cons_of_ne_nil (List.splitOn_ne_nil separator text)
  rw [hsplit, intercalate_cons_eq] at hjoin
  rw [hsplit] at h
  rw [← hjoin]
  obtain rfl | h := List.mem_cons.mp h
  · exact List.mem_append_left _ hc
  · exact List.mem_append_right _ (List.mem_flatMap.mpr ⟨piece, h, List.mem_cons_of_mem _ hc⟩)

/-! ### Decimal numbers -/

section Decimal

theorem digitValue_of_isDigit {c : Char} (hc : c.isDigit = true) :
    digitValue 10 c = some (c.toNat - '0'.toNat) := by
  have hle : c.toNat ≤ 57 := by
    simp only [Char.isDigit, Bool.and_eq_true, decide_eq_true_eq] at hc
    exact hc.2
  have hlt : c.toNat - '0'.toNat < 10 := by
    change c.toNat - 48 < 10
    omega
  simp only [digitValue, hc, if_true, if_pos hlt]

theorem isWhitespace_of_isDigit {c : Char} (hc : c.isDigit = true) : isWhitespace c = false := by
  have hrange : 48 ≤ c.toNat ∧ c.toNat ≤ 57 := by
    simpa [Char.isDigit, UInt32.le_iff_toNat_le] using hc
  simp only [isWhitespace, List.mem_cons, List.not_mem_nil, or_false, Bool.or_eq_false_iff,
    decide_eq_false_iff_not, Bool.and_eq_false_iff]
  omega

theorem mapM_digitValue {cs : List Char} (hcs : ∀ c ∈ cs, c.isDigit = true) :
    cs.mapM (digitValue 10) = some (cs.map fun c => c.toNat - '0'.toNat) := by
  induction cs with
  | nil => rfl
  | cons c cs ih =>
    rw [List.mapM_cons, digitValue_of_isDigit (hcs c List.mem_cons_self),
      ih fun d hd => hcs d (List.mem_cons_of_mem c hd)]
    rfl

theorem isDigit_toDigits {n : ℕ} : ∀ c ∈ Nat.toDigits 10 n, c.isDigit = true :=
  fun _ hc => Nat.isDigit_of_mem_toDigits (by decide) (by decide) hc

/-- The digits of a number, and its value from them. -/
theorem mapM_digitValue_toDigits (n : ℕ) : ∃ values,
    (Nat.toDigits 10 n).mapM (digitValue 10) = some values ∧
      values.foldl (fun value digit => value * 10 + digit) 0 = n := by
  refine ⟨_, mapM_digitValue isDigit_toDigits, ?_⟩
  rw [List.foldl_map]
  simp only [Nat.mul_comm _ 10]
  exact Nat.ofDigitChars_ten_toDigits

/-- Only zero begins with the digit zero. -/
theorem head?_toDigits {n : ℕ} (hn : 0 < n) : (Nat.toDigits 10 n).head? ≠ some '0' := by
  induction n using Nat.strong_induction_on with
  | _ n ih =>
    rw [Nat.toDigits_eq_if (by decide)]
    split
    · next hlt => interval_cases n <;> decide
    · next hge =>
      rw [List.head?_append_of_ne_nil _ Nat.toDigits_ne_nil]
      exact ih (n / 10) (Nat.div_lt_self hn (by decide)) (Nat.div_pos (not_lt.1 hge) (by decide))

theorem foldl_digits (cs : List Char) :
    (cs.map fun c => c.toNat - '0'.toNat).foldl (fun value digit => value * 10 + digit) 0
      = Nat.ofDigitChars 10 cs 0 := by
  rw [List.foldl_map]
  simp only [Nat.mul_comm _ 10]
  rfl

/-- Digits are read as their number, if that is not too great. -/
theorem parseUnsigned_digits {greatest : ℕ} {cs : List Char} (hcs : ∀ c ∈ cs, c.isDigit = true)
    (hne : cs ≠ []) : parseUnsigned 10 greatest cs
      = if Nat.ofDigitChars 10 cs 0 ≤ greatest then some (Nat.ofDigitChars 10 cs 0) else none := by
  have hplus : cs.head? ≠ some '+' := by
    intro hhead
    exact absurd (hcs '+' (List.mem_of_mem_head? hhead)) (by decide)
  have hfilled : cs.isEmpty = false := List.isEmpty_eq_false_iff.2 hne
  simp only [parseUnsigned, if_neg hplus, hfilled, Bool.false_eq_true, if_false, mapM_digitValue hcs,
    foldl_digits]

theorem parseUnsigned_toDigits {greatest n : ℕ} (hn : n ≤ greatest) :
    parseUnsigned 10 greatest (Nat.toDigits 10 n) = some n := by
  rw [parseUnsigned_digits isDigit_toDigits Nat.toDigits_ne_nil, Nat.ofDigitChars_ten_toDigits,
    if_pos hn]

end Decimal

end Text
