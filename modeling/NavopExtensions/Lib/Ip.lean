import NavopExtensions.Lib.Bytes
import NavopExtensions.Lib.Text

/-!
# Internet addresses and their texts

The addresses of Rust's `std::net`, how they are displayed and how they are parsed. A reader of a
piece of an address leaves the rest of the text, and fails without reading anything. The text of an
IPv4 address is parsed as that address (`parseIpv4_display`); no address has a text that begins with
a bracket (`parseIpv4_bracket`, `parseIpv6_bracket`).
-/

namespace Net

open BigEndian

/-- `Ipv4Addr`: four octets. -/
structure Ipv4Addr where
  a : UInt8
  b : UInt8
  c : UInt8
  d : UInt8
  deriving DecidableEq, Repr

/-- `Ipv6Addr`: eight segments, and their number goes along. -/
structure Ipv6Addr where
  segments : List UInt16
  length_segments : segments.length = 8
  deriving DecidableEq

/-- `Ipv4Addr::octets`: the four of them in order. -/
def Ipv4Addr.octets (ip : Ipv4Addr) : List UInt8 := [ip.a, ip.b, ip.c, ip.d]

/-- `Ipv6Addr::octets`: two for each segment, the high one first. -/
def Ipv6Addr.octets (ip : Ipv6Addr) : List UInt8 :=
  ip.segments.flatMap fun segment => toBe 2 segment.toNat

/-! ### Display -/

/-- `Display` of an IPv4 address. -/
def Ipv4Addr.display (ip : Ipv4Addr) : List Char :=
  Nat.toDigits 10 ip.a.toNat ++ '.' :: (Nat.toDigits 10 ip.b.toNat ++ '.' ::
    (Nat.toDigits 10 ip.c.toNat ++ '.' :: Nat.toDigits 10 ip.d.toNat))

/-- A run of segments that are zero. -/
structure Span where
  start : ℕ
  len : ℕ

/-- The longest run and the current one, with one segment more. -/
def Span.extend (spans : Span × Span) (segment : UInt16 × ℕ) : Span × Span :=
  if segment.1 = 0 then
    let current : Span :=
      ⟨if spans.2.len = 0 then segment.2 else spans.2.start, spans.2.len + 1⟩
    (if spans.1.len < current.len then current else spans.1, current)
  else (spans.1, ⟨0, 0⟩)

/-- The first of the longest runs of zeros. -/
def zeroes (segments : List UInt16) : Span :=
  (segments.zipIdx.foldl Span.extend (⟨0, 0⟩, ⟨0, 0⟩)).1

/-- Segments in hexadecimal, with colons between them. -/
def displaySegments (segments : List UInt16) : List Char :=
  [':'].intercalate (segments.map fun segment => Nat.toDigits 16 segment.toNat)

/-- `Ipv6Addr::to_ipv4_mapped`: the IPv4 address behind ten zeros and two octets of ones. -/
def Ipv6Addr.toIpv4Mapped (ip : Ipv6Addr) : Option Ipv4Addr :=
  match ip.octets with
  | [0, 0, 0, 0, 0, 0, 0, 0, 0, 0, 0xFF, 0xFF, a, b, c, d] => some ⟨a, b, c, d⟩
  | _ => none

/-- `Display` of an IPv6 address. -/
def Ipv6Addr.display (ip : Ipv6Addr) : List Char :=
  match ip.toIpv4Mapped with
  | some ipv4 => "::ffff:".toList ++ ipv4.display
  | none =>
    let run := zeroes ip.segments
    if 1 < run.len then
      displaySegments (ip.segments.take run.start) ++ "::".toList
        ++ displaySegments (ip.segments.drop (run.start + run.len))
    else displaySegments ip.segments

/-! ### Parsing -/

/-- What reads a piece of an address. -/
abbrev Parser (α : Type) := List Char → Option (α × List Char)

/-- `read_given_char`: this one character. -/
def readGivenChar (given : Char) : Parser Unit
  | [] => none
  | c :: cs => if c = given then some ((), cs) else none

/-- `read_number`, at a type with the given greatest value. -/
def readNumber (radix maxDigits : ℕ) (allowZeroPrefix : Bool) (greatest : ℕ) : Parser ℕ := fun cs =>
  let digits := cs.takeWhile fun c => (Text.digitValue radix c).isSome
  if maxDigits < digits.length then none
  else if digits.isEmpty then none
  else if !allowZeroPrefix && digits.head? == some '0' && 1 < digits.length then none
  else do
    let values ← digits.mapM (Text.digitValue radix)
    let number := values.foldl (fun value digit => value * radix + digit) 0
    if number ≤ greatest then some (number, cs.drop digits.length) else none

/-- `read_separator`: a separator in front of every piece but the first. -/
def readSeparator {α : Type} (separator : Char) (index : ℕ) (inner : Parser α) : Parser α := fun cs =>
  if 0 < index then do
    let (_, cs) ← readGivenChar separator cs
    inner cs
  else inner cs

/-- One group of an IPv4 address. -/
def readOctet : Parser ℕ := readNumber 10 3 false 255

/-- `read_ipv4_addr`: four octets with dots between them. -/
def readIpv4Addr : Parser Ipv4Addr := fun cs => do
  let (a, cs) ← readSeparator '.' 0 readOctet cs
  let (b, cs) ← readSeparator '.' 1 readOctet cs
  let (c, cs) ← readSeparator '.' 2 readOctet cs
  let (d, cs) ← readSeparator '.' 3 readOctet cs
  return (⟨.ofNat a, .ofNat b, .ofNat c, .ofNat d⟩, cs)

/-- The end of `read_groups`, where so many groups are left: the groups, whether they end with an IPv4
address, and the rest of the text. -/
def readGroupsFrom (index : ℕ) : ℕ → List Char → (List UInt16 × Bool) × List Char
  | 0, cs => (([], false), cs)
  | left + 1, cs =>
    -- An IPv4 address takes two groups.
    match if 0 < left then readSeparator ':' index readIpv4Addr cs else none with
    | some (ip, cs) => (([.ofNat (ofBe [ip.a, ip.b]), .ofNat (ofBe [ip.c, ip.d])], true), cs)
    | none =>
      match readSeparator ':' index (readNumber 16 4 true 65535) cs with
      | some (group, cs) =>
        let rest := readGroupsFrom (index + 1) left cs
        ((.ofNat group :: rest.1.1, rest.1.2), rest.2)
      | none => (([], false), cs)

/-- `read_groups`: segments with colons between them, and whether the last two came as an IPv4 address. -/
def readGroups (limit : ℕ) (cs : List Char) : (List UInt16 × Bool) × List Char :=
  readGroupsFrom 0 limit cs

theorem length_readGroupsFrom (index left : ℕ) (cs : List Char) :
    (readGroupsFrom index left cs).1.1.length ≤ left := by
  induction left generalizing index cs with
  | zero => exact Nat.le_refl 0
  | succ left ih =>
    rw [readGroupsFrom]
    split
    · next hipv4 =>
      have hleft : 0 < left := by
        by_contra hzero
        rw [if_neg hzero] at hipv4
        exact absurd hipv4 (by simp)
      exact Nat.succ_le_succ hleft
    · split
      · exact Nat.succ_le_succ (ih _ _)
      · exact Nat.zero_le _

/-- The first groups of an address, zeros, and the last ones. -/
def Ipv6Addr.ofGroups (front back : List UInt16) (h : front.length + back.length ≤ 8) : Ipv6Addr where
  segments := front ++ List.replicate (8 - front.length - back.length) 0 ++ back
  length_segments := by
    rw [List.length_append, List.length_append, List.length_replicate]
    omega

/-- `read_ipv6_addr`: eight segments, or fewer on the two sides of one `::`. -/
def readIpv6Addr : Parser Ipv6Addr := fun cs =>
  let front := readGroups 8 cs
  if h : front.1.1.length = 8 then some (⟨front.1.1, h⟩, front.2)
  -- An IPv4 address is only read at the end.
  else if front.1.2 then none
  else do
    let (_, cs) ← readGivenChar ':' front.2
    let (_, cs) ← readGivenChar ':' cs
    let limit := 8 - (front.1.1.length + 1)
    let back := readGroups limit cs
    let ip := Ipv6Addr.ofGroups front.1.1 back.1.1 <| by
      have hfront : front.1.1.length ≤ 8 := length_readGroupsFrom 0 8 _
      have hback : back.1.1.length ≤ limit := length_readGroupsFrom 0 limit _
      omega
    return (ip, back.2)

/-- `parse_with`: the whole text has to be read. -/
def parseWith {α : Type} (inner : Parser α) (cs : List Char) : Option α :=
  match inner cs with
  | some (value, []) => some value
  | _ => none

/-- `Ipv4Addr::from_str`: nothing longer than fifteen characters is looked at. -/
def parseIpv4 (cs : List Char) : Option Ipv4Addr :=
  if 15 < cs.length then none else parseWith readIpv4Addr cs

/-- `Ipv6Addr::from_str`: the whole text has to be read. -/
def parseIpv6 (cs : List Char) : Option Ipv6Addr := parseWith readIpv6Addr cs

/-! ### The text of an IPv4 address -/

theorem takeWhile_digits {digits rest : List Char} (hdigits : ∀ c ∈ digits, c.isDigit = true)
    (hrest : ∀ c, rest.head? = some c → Text.digitValue 10 c = none) :
    (digits ++ rest).takeWhile (fun c => (Text.digitValue 10 c).isSome) = digits := by
  rw [List.takeWhile_append_of_pos fun c hc => by rw [Text.digitValue_of_isDigit (hdigits c hc)]; rfl]
  cases rest with
  | nil => exact List.append_nil _
  | cons c rest =>
    rw [List.takeWhile_cons_of_neg (by rw [hrest c rfl]; simp), List.append_nil]

/-- A group is read from its digits, up to what is no digit. -/
theorem readOctet_toDigits (octet : UInt8) {rest : List Char}
    (hrest : ∀ c, rest.head? = some c → Text.digitValue 10 c = none) :
    readOctet (Nat.toDigits 10 octet.toNat ++ rest) = some (octet.toNat, rest) := by
  have hlt : octet.toNat < 256 := octet.toNat_lt
  have hlength : (Nat.toDigits 10 octet.toNat).length ≤ 3 :=
    (Nat.length_toDigits_le_iff (by decide) (by decide)).2 (by omega)
  have hfilled : (Nat.toDigits 10 octet.toNat).isEmpty = false :=
    List.isEmpty_eq_false_iff.2 Nat.toDigits_ne_nil
  have hzero : ¬ ((!false && (Nat.toDigits 10 octet.toNat).head? == some '0'
      && decide (1 < (Nat.toDigits 10 octet.toNat).length)) = true) := by
    rcases Nat.eq_zero_or_pos octet.toNat with h | h
    · rw [h]
      decide
    · simp [Text.head?_toDigits h]
  obtain ⟨values, hvalues, hsum⟩ := Text.mapM_digitValue_toDigits octet.toNat
  simp only [readOctet, readNumber, takeWhile_digits Text.isDigit_toDigits hrest,
    if_neg (Nat.not_lt.2 hlength), hfilled, Bool.false_eq_true, if_false, if_neg hzero, hvalues,
    Option.bind_eq_bind, Option.bind_some, hsum, if_pos (Nat.le_of_lt_succ hlt), List.drop_left]

theorem readIpv4Addr_display (ip : Ipv4Addr) : readIpv4Addr ip.display = some (ip, []) := by
  have hdot : ∀ rest : List Char, ∀ c, ('.' :: rest).head? = some c → Text.digitValue 10 c = none := by
    intro rest c hc
    cases hc
    decide
  have hlast : readOctet (Nat.toDigits 10 ip.d.toNat) = some (ip.d.toNat, []) := by
    rw [← List.append_nil (Nat.toDigits 10 ip.d.toNat)]
    exact readOctet_toDigits ip.d (by simp)
  simp [readIpv4Addr, Ipv4Addr.display, readSeparator, readGivenChar, readOctet_toDigits _ (hdot _),
    hlast]

theorem length_display_le (ip : Ipv4Addr) : ip.display.length ≤ 15 := by
  have hoctet (octet : UInt8) : (Nat.toDigits 10 octet.toNat).length ≤ 3 := by
    have hlt : octet.toNat < 256 := octet.toNat_lt
    exact (Nat.length_toDigits_le_iff (by decide) (by decide)).2 (by omega)
  have ha := hoctet ip.a
  have hb := hoctet ip.b
  have hc := hoctet ip.c
  have hd := hoctet ip.d
  simp only [Ipv4Addr.display, List.length_append, List.length_cons]
  omega

/-- **The text of an address is that address.** -/
theorem parseIpv4_display (ip : Ipv4Addr) : parseIpv4 ip.display = some ip := by
  rw [parseIpv4, if_neg (Nat.not_lt.2 (length_display_le ip)), parseWith, readIpv4Addr_display]

/-! ### Texts in brackets -/

theorem readNumber_bracket (radix maxDigits : ℕ) (allowZeroPrefix : Bool) (greatest : ℕ)
    (cs : List Char) :
    readNumber radix maxDigits allowZeroPrefix greatest ('[' :: cs) = none := by
  have hvalue : Text.digitValue radix '[' = none := by
    simp [Text.digitValue]
  simp [readNumber, hvalue]

theorem readIpv4Addr_bracket (cs : List Char) : readIpv4Addr ('[' :: cs) = none := by
  simp [readIpv4Addr, readSeparator, readOctet, readNumber_bracket]

theorem parseIpv4_bracket (cs : List Char) : parseIpv4 ('[' :: cs) = none := by
  rw [parseIpv4, parseWith, readIpv4Addr_bracket, ite_self]

theorem parseIpv6_bracket (cs : List Char) : parseIpv6 ('[' :: cs) = none := by
  have hgroups : readGroups 8 ('[' :: cs) = (([], false), '[' :: cs) := by
    simp [readGroups, readGroupsFrom, readSeparator, readIpv4Addr_bracket, readNumber_bracket]
  simp [parseIpv6, parseWith, readIpv6Addr, hgroups, readGivenChar]

end Net
