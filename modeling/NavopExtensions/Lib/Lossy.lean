import NavopExtensions.Lib.Utf8

/-!
# Decoding of bytes that may not be UTF-8

`String::from_utf8_lossy`: bytes are taken apart into units, each of which is the encoding of a character
or as much as there is of the beginning of one, and every unit of the second kind stands for U+FFFD.

Bytes that come in pieces are decoded as the whole is exactly if every cut lies between two units of it
(`flatMap_lossy_iff`). A cut inside a unit leaves a beginning of it on its left, and on its right bytes
with which no unit goes on, so that there are more units than before (`units_cut`).

An ASCII character is a unit of its own wherever the bytes are cut, so that it separates what is decoded
on its two sides (`flatMap_lossy_split`).
-/

namespace Utf8

/-- The ranges of the bytes that make up a character with a first byte. -/
def tailsOf (first : ℕ) : Option (List (ℕ × ℕ)) :=
  if first < 0x80 then some []
  else if first < 0xC2 then none
  else if first < 0xE0 then some [(0x80, 0xBF)]
  else if first = 0xE0 then some [(0xA0, 0xBF), (0x80, 0xBF)]
  else if first = 0xED then some [(0x80, 0x9F), (0x80, 0xBF)]
  else if first < 0xF0 then some [(0x80, 0xBF), (0x80, 0xBF)]
  else if first = 0xF0 then some [(0x90, 0xBF), (0x80, 0xBF), (0x80, 0xBF)]
  else if first < 0xF4 then some [(0x80, 0xBF), (0x80, 0xBF), (0x80, 0xBF)]
  else if first = 0xF4 then some [(0x80, 0x8F), (0x80, 0xBF), (0x80, 0xBF)]
  else none

/-- How many bytes are in the ranges, one after the other. -/
def matched : List (ℕ × ℕ) → List UInt8 → ℕ
  | (low, high) :: ranges, byte :: bytes =>
    if low ≤ byte.toNat ∧ byte.toNat ≤ high then matched ranges bytes + 1 else 0
  | _, _ => 0

/-- How many bytes go with a first one. -/
def tailLength (byte : UInt8) (rest : List UInt8) : ℕ :=
  match tailsOf byte.toNat with
  | none => 0
  | some ranges => matched ranges rest

/-- The units that bytes are taken apart into. -/
def units : List UInt8 → List (List UInt8)
  | [] => []
  | byte :: rest =>
    (byte :: rest.take (tailLength byte rest)) :: units (rest.drop (tailLength byte rest))
termination_by bytes => bytes.length
decreasing_by
  rw [List.length_drop, List.length_cons]
  omega

/-- The character of a unit. -/
def unitChar (unit : List UInt8) : Char := (unit.toByteArray.utf8DecodeChar? 0).getD '\uFFFD'

/-- `String::from_utf8_lossy`: a replacement character for each piece that is not UTF-8. -/
def lossy (bytes : List UInt8) : List Char := (units bytes).map unitChar

/-- A cut lies between two units. -/
def Between (left right : List UInt8) : Prop :=
  ∃ before after, units (left ++ right) = before ++ after ∧ before.flatten = left

/-- Every cut lies between two units of the whole. -/
def AllBetween : List (List UInt8) → Prop
  | [] => True
  | piece :: pieces => Between piece pieces.flatten ∧ AllBetween pieces

theorem units_nil : units [] = [] := by rw [units]

theorem units_cons (byte : UInt8) (rest : List UInt8) : units (byte :: rest)
    = (byte :: rest.take (tailLength byte rest)) :: units (rest.drop (tailLength byte rest)) := by
  rw [units]

theorem flatten_units (bytes : List UInt8) : (units bytes).flatten = bytes := by
  induction hlength : bytes.length using Nat.strong_induction_on generalizing bytes with
  | _ n ih =>
    cases bytes with
    | nil => rw [units_nil]; rfl
    | cons byte rest =>
      rw [units_cons, List.flatten_cons, ih _ _ _ rfl, List.cons_append, List.take_append_drop]
      rw [← hlength, List.length_cons, List.length_drop]
      omega

/-! ### What a unit has -/

theorem matched_le (ranges : List (ℕ × ℕ)) (bytes : List UInt8) :
    matched ranges bytes ≤ bytes.length := by
  induction ranges generalizing bytes with
  | nil => exact Nat.zero_le _
  | cons range ranges ih =>
    cases bytes with
    | nil => exact Nat.zero_le _
    | cons byte bytes =>
      rw [matched]
      split
      · exact Nat.succ_le_succ (ih bytes)
      · exact Nat.zero_le _

theorem matched_append (ranges : List (ℕ × ℕ)) (left right : List UInt8)
    (h : matched ranges (left ++ right) ≤ left.length) :
    matched ranges left = matched ranges (left ++ right) := by
  induction ranges generalizing left with
  | nil => rfl
  | cons range ranges ih =>
    cases left with
    | nil => exact (Nat.le_zero.1 h).symm
    | cons byte left =>
      rw [List.cons_append, matched] at h ⊢
      rw [matched]
      split
      · next hin =>
        rw [if_pos hin] at h
        rw [ih left (Nat.le_of_succ_le_succ h)]
      · rfl

theorem matched_of_lt (ranges : List (ℕ × ℕ)) (left right : List UInt8)
    (h : left.length ≤ matched ranges (left ++ right)) : matched ranges left = left.length := by
  induction ranges generalizing left with
  | nil => exact (Nat.le_zero.1 h).symm
  | cons range ranges ih =>
    cases left with
    | nil => rfl
    | cons byte left =>
      rw [List.cons_append, matched] at h
      rw [matched]
      split
      · next hin =>
        rw [if_pos hin, List.length_cons, Nat.add_le_add_iff_right] at h
        rw [ih left h, List.length_cons]
      · next hout =>
        rw [if_neg hout] at h
        exact absurd h (Nat.not_succ_le_zero _)

theorem tailLength_le (byte : UInt8) (rest : List UInt8) : tailLength byte rest ≤ rest.length := by
  unfold tailLength
  split
  · exact Nat.zero_le _
  · exact matched_le _ _

/-- A unit that ends inside the left piece is one of it. -/
theorem tailLength_append {byte : UInt8} {left right : List UInt8}
    (h : tailLength byte (left ++ right) ≤ left.length) :
    tailLength byte left = tailLength byte (left ++ right) := by
  unfold tailLength at h ⊢
  cases hbyte : tailsOf byte.toNat with
  | none => rfl
  | some ranges =>
    rw [hbyte] at h
    exact matched_append ranges left right h

/-- A piece that a unit goes beyond has a beginning of it only. -/
theorem tailLength_of_lt {byte : UInt8} {left right : List UInt8}
    (h : left.length ≤ tailLength byte (left ++ right)) : tailLength byte left = left.length := by
  unfold tailLength at h ⊢
  cases hbyte : tailsOf byte.toNat with
  | none =>
    rw [hbyte] at h
    exact (Nat.le_zero.1 h).symm
  | some ranges =>
    rw [hbyte] at h
    exact matched_of_lt ranges left right h

/-- A byte with which no unit begins, but which may go on with one. -/
def Continues (byte : UInt8) : Prop := 0x80 ≤ byte.toNat ∧ byte.toNat ≤ 0xBF

theorem range_of_mem_tailsOf {first : ℕ} {ranges : List (ℕ × ℕ)} (h : tailsOf first = some ranges) :
    ∀ range ∈ ranges, 0x80 ≤ range.1 ∧ range.2 ≤ 0xBF := by
  unfold tailsOf at h
  split_ifs at h
  all_goals
    obtain rfl := Option.some.inj h
    decide

theorem continues_of_mem_take {ranges : List (ℕ × ℕ)}
    (hranges : ∀ range ∈ ranges, 0x80 ≤ range.1 ∧ range.2 ≤ 0xBF) (bytes : List UInt8) :
    ∀ byte ∈ bytes.take (matched ranges bytes), Continues byte := by
  induction ranges generalizing bytes with
  | nil => intro byte hbyte; simp [matched] at hbyte
  | cons range ranges ih =>
    cases bytes with
    | nil => intro byte hbyte; simp at hbyte
    | cons first bytes =>
      intro byte hbyte
      rw [matched] at hbyte
      split at hbyte
      · next hin =>
        rw [List.take_succ_cons, List.mem_cons] at hbyte
        rcases hbyte with rfl | hbyte
        · have hrange := hranges range List.mem_cons_self
          exact ⟨hrange.1.trans hin.1, hin.2.trans hrange.2⟩
        · exact ih (fun r hr => hranges r (List.mem_cons_of_mem range hr)) bytes byte hbyte
      · simp at hbyte

theorem continues_of_mem_unit (byte : UInt8) (rest : List UInt8) :
    ∀ b ∈ rest.take (tailLength byte rest), Continues b := by
  unfold tailLength
  cases hbyte : tailsOf byte.toNat with
  | none => intro b hb; simp at hb
  | some ranges => exact continues_of_mem_take (range_of_mem_tailsOf hbyte) rest

theorem tailsOf_of_continues {byte : UInt8} (h : Continues byte) : tailsOf byte.toNat = none := by
  obtain ⟨hlow, hhigh⟩ := h
  rw [tailsOf, if_neg (by omega), if_pos (by omega)]

/-- Bytes with which no unit begins are units of their own. -/
theorem units_continues {bytes : List UInt8} (h : ∀ byte ∈ bytes, Continues byte)
    (rest : List UInt8) : units (bytes ++ rest) = bytes.map ([·]) ++ units rest := by
  induction bytes with
  | nil => rfl
  | cons byte bytes ih =>
    have hzero : tailLength byte (bytes ++ rest) = 0 := by
      rw [tailLength, tailsOf_of_continues (h byte List.mem_cons_self)]
    rw [List.cons_append, units_cons, hzero, List.take_zero, List.drop_zero,
      ih fun b hb => h b (List.mem_cons_of_mem byte hb)]
    rfl

/-! ### Cuts -/

theorem between_of_units {left right : List UInt8}
    (h : units (left ++ right) = units left ++ units right) : Between left right :=
  ⟨units left, units right, h, flatten_units left⟩

/-- **A cut** lies between two units, or there are more units on its sides than there were before, and the
right one begins with a byte that goes on with a unit. -/
theorem units_cut (left right : List UInt8) :
    units (left ++ right) = units left ++ units right ∨
      ¬ Between left right ∧
        (units (left ++ right)).length < (units left).length + (units right).length ∧
        ∃ byte rest, right = byte :: rest ∧ Continues byte := by
  induction hlength : left.length using Nat.strong_induction_on generalizing left with
  | _ n ih =>
    cases left with
    | nil => exact .inl (by rw [units_nil]; rfl)
    | cons byte left =>
      rw [List.cons_append, units_cons]
      by_cases hinside : tailLength byte (left ++ right) ≤ left.length
      · -- The first unit is one of the left piece.
        have htail := tailLength_append hinside
        have hless : (left.drop (tailLength byte left)).length < n := by
          rw [← hlength, List.length_drop, List.length_cons]
          omega
        rw [units_cons, htail, List.take_append_of_le_length hinside,
          List.drop_append_of_le_length hinside]
        rcases ih _ (htail ▸ hless) _ rfl with heq | ⟨hnot, hmore, hcontinues⟩
        · exact .inl (by rw [heq, List.cons_append])
        · refine .inr ⟨?_, by simp only [List.length_cons]; omega, hcontinues⟩
          rintro ⟨before, after, hunits, hflatten⟩
          rw [List.cons_append, units_cons, List.take_append_of_le_length hinside,
            List.drop_append_of_le_length hinside] at hunits
          cases before with
          | nil => cases hflatten
          | cons unit before =>
            obtain ⟨rfl, hrest⟩ := List.cons.inj hunits
            refine hnot ⟨before, after, hrest, ?_⟩
            rw [List.flatten_cons, List.cons_append] at hflatten
            have htake := (List.cons.inj hflatten).2
            exact List.append_cancel_left (htake.trans (List.take_append_drop _ left).symm)
      · -- The first unit goes on behind the cut.
        have hbeyond := not_le.1 hinside
        have hleft : tailLength byte left = left.length := tailLength_of_lt hbeyond.le
        have hright : ∃ tail rest, right = tail ++ rest ∧ tail ≠ [] ∧
            (∀ b ∈ tail, Continues b) ∧
            (left ++ right).drop (tailLength byte (left ++ right)) = rest := by
          refine ⟨right.take (tailLength byte (left ++ right) - left.length),
            right.drop (tailLength byte (left ++ right) - left.length),
            (List.take_append_drop _ _).symm, ?_, ?_, ?_⟩
          · have hle := tailLength_le byte (left ++ right)
            rw [List.length_append] at hle
            intro hnil
            have := congrArg List.length hnil
            rw [List.length_take, List.length_nil] at this
            omega
          · intro b hb
            refine continues_of_mem_unit byte (left ++ right) b ?_
            rw [List.take_append]
            exact List.mem_append_right _ hb
          · rw [List.drop_append, List.drop_eq_nil_of_le hbeyond.le, List.nil_append]
        obtain ⟨tail, rest, rfl, htail, hcontinues, hdrop⟩ := hright
        refine .inr ⟨?_, ?_, ?_⟩
        · rintro ⟨before, after, hunits, hflatten⟩
          rw [List.cons_append, units_cons] at hunits
          cases before with
          | nil => cases hflatten
          | cons unit before =>
            obtain ⟨rfl, -⟩ := List.cons.inj hunits
            have hshort := congrArg List.length hflatten
            have hle := tailLength_le byte (left ++ (tail ++ rest))
            simp only [List.flatten_cons, List.length_append, List.length_cons, List.length_take]
              at hshort hle
            omega
        · rw [hdrop, units_cons, hleft, List.take_length, List.drop_length, units_nil,
            units_continues hcontinues]
          have hpos := List.length_pos_iff.2 htail
          simp only [List.length_cons, List.length_append, List.length_map, List.length_nil]
          omega
        · obtain ⟨byte, tail, rfl⟩ := List.exists_cons_of_ne_nil htail
          exact ⟨byte, tail ++ rest, rfl, hcontinues byte List.mem_cons_self⟩

theorem between_iff {left right : List UInt8} :
    Between left right ↔ units (left ++ right) = units left ++ units right := by
  refine ⟨fun h => ?_, between_of_units⟩
  rcases units_cut left right with heq | ⟨hnot, -⟩
  · exact heq
  · exact absurd h hnot

theorem length_units_cut (left right : List UInt8) :
    (units (left ++ right)).length ≤ (units left).length + (units right).length := by
  rcases units_cut left right with heq | ⟨-, hmore, -⟩
  · rw [heq, List.length_append]
  · exact hmore.le

theorem length_lossy (bytes : List UInt8) : (lossy bytes).length = (units bytes).length :=
  List.length_map _

theorem length_lossy_flatten (pieces : List (List UInt8)) :
    (lossy pieces.flatten).length ≤ (pieces.flatMap lossy).length := by
  induction pieces with
  | nil => rw [List.flatten_nil, lossy, units_nil, List.flatMap_nil, List.map_nil]
  | cons piece pieces ih =>
    have hcut := length_units_cut piece pieces.flatten
    rw [List.flatten_cons, List.flatMap_cons, List.length_append, length_lossy, length_lossy]
    rw [length_lossy] at ih
    omega

theorem allBetween_of_length {pieces : List (List UInt8)}
    (h : (pieces.flatMap lossy).length = (lossy pieces.flatten).length) : AllBetween pieces := by
  induction pieces with
  | nil => trivial
  | cons piece pieces ih =>
    have hrest := length_lossy_flatten pieces
    rw [List.flatten_cons, List.flatMap_cons, List.length_append, length_lossy, length_lossy] at h
    rw [length_lossy] at hrest
    rcases units_cut piece pieces.flatten with heq | ⟨-, hmore, -⟩
    · rw [heq, List.length_append] at h
      exact ⟨between_of_units heq, ih (by rw [length_lossy]; omega)⟩
    · omega

/-- **Pieces** are decoded as the whole is exactly if every cut lies between two units of it. -/
theorem flatMap_lossy_iff {pieces : List (List UInt8)} :
    pieces.flatMap lossy = lossy pieces.flatten ↔ AllBetween pieces := by
  refine ⟨fun h => allBetween_of_length (congrArg List.length h), fun h => ?_⟩
  induction pieces with
  | nil => rw [lossy, List.flatten_nil, units_nil]; rfl
  | cons piece pieces ih =>
    rw [List.flatMap_cons, List.flatten_cons, ih h.2, lossy, lossy, lossy, between_iff.1 h.1,
      List.map_append]

/-! ### Texts -/

theorem toNat_ofNat8 {n : ℕ} (h : n < 256) : (UInt8.ofNat n).toNat = n :=
  UInt8.toNat_ofNat_of_lt' h

theorem matched_two {low high n m : ℕ} (hn : n < 256) (hm : m < 64) (h : low ≤ n ∧ n ≤ high)
    (rest : List UInt8) : matched [(low, high), (0x80, 0xBF)]
      (UInt8.ofNat n :: UInt8.ofNat (m + 128) :: rest) = 2 := by
  rw [matched, toNat_ofNat8 hn, if_pos h, matched, toNat_ofNat8 (by omega), if_pos (by omega)]
  rfl

theorem matched_three {low high n m k : ℕ} (hn : n < 256) (hm : m < 64) (hk : k < 64)
    (h : low ≤ n ∧ n ≤ high) (rest : List UInt8) :
    matched [(low, high), (0x80, 0xBF), (0x80, 0xBF)]
      (UInt8.ofNat n :: UInt8.ofNat (m + 128) :: UInt8.ofNat (k + 128) :: rest) = 3 := by
  rw [matched, toNat_ofNat8 hn, if_pos h, matched_two (by omega) hk (by omega)]

/-- The bytes of a character are in the ranges of its first one. -/
theorem exists_encode (c : Char) : ∃ first others ranges, encode c = first :: others ∧
    tailsOf first.toNat = some ranges ∧ ranges.length = others.length ∧
    ∀ rest, matched ranges (others ++ rest) = others.length := by
  have hvalid : c.val.toNat < 55296 ∨ 57343 < c.val.toNat ∧ c.val.toNat < 1114112 := c.valid
  simp only [encode, String.utf8EncodeChar]
  generalize c.val.toNat = n at *
  split_ifs with hone htwo hthree
  · refine ⟨_, _, [], rfl, ?_, rfl, fun _ => rfl⟩
    rw [toNat_ofNat8 (by omega), tailsOf, if_pos (by omega)]
  · refine ⟨_, _, [(0x80, 0xBF)], rfl, ?_, rfl, fun rest => ?_⟩
    · rw [toNat_ofNat8 (by omega), tailsOf, if_neg (by omega), if_neg (by omega), if_pos (by omega)]
    · rw [List.cons_append, matched, toNat_ofNat8 (by omega), if_pos (by omega)]
      rfl
  · -- The second byte of an overlong encoding or of a surrogate is out of its range.
    have hfirst : (UInt8.ofNat (n / 4096 % 16 + 224)).toNat = n / 4096 % 16 + 224 :=
      toNat_ofNat8 (by omega)
    rcases (by omega : n / 4096 = 0 ∨ n / 4096 = 13 ∨ n / 4096 ≠ 0 ∧ n / 4096 ≠ 13)
      with hlow | hsurrogate | hother
    · refine ⟨_, _, [(0xA0, 0xBF), (0x80, 0xBF)], rfl, ?_, rfl,
        matched_two (by omega) (by omega) (by omega)⟩
      rw [hfirst, hlow]
      rfl
    · refine ⟨_, _, [(0x80, 0x9F), (0x80, 0xBF)], rfl, ?_, rfl,
        matched_two (by omega) (by omega) (by omega)⟩
      rw [hfirst, hsurrogate]
      rfl
    · refine ⟨_, _, [(0x80, 0xBF), (0x80, 0xBF)], rfl, ?_, rfl,
        matched_two (by omega) (by omega) (by omega)⟩
      rw [hfirst, tailsOf, if_neg (by omega), if_neg (by omega), if_neg (by omega),
        if_neg (by omega), if_neg (by omega), if_pos (by omega)]
  · have hfirst : (UInt8.ofNat (n / 262144 % 8 + 240)).toNat = n / 262144 % 8 + 240 :=
      toNat_ofNat8 (by omega)
    rcases (by omega : n / 262144 = 0 ∨ n / 262144 = 4 ∨ n / 262144 ≠ 0 ∧ n / 262144 < 4)
      with hlow | hhigh | hother
    · refine ⟨_, _, [(0x90, 0xBF), (0x80, 0xBF), (0x80, 0xBF)], rfl, ?_, rfl,
        matched_three (by omega) (by omega) (by omega) (by omega)⟩
      rw [hfirst, hlow]
      rfl
    · refine ⟨_, _, [(0x80, 0x8F), (0x80, 0xBF), (0x80, 0xBF)], rfl, ?_, rfl,
        matched_three (by omega) (by omega) (by omega) (by omega)⟩
      rw [hfirst, hhigh]
      rfl
    · refine ⟨_, _, [(0x80, 0xBF), (0x80, 0xBF), (0x80, 0xBF)], rfl, ?_, rfl,
        matched_three (by omega) (by omega) (by omega) (by omega)⟩
      rw [hfirst, tailsOf, if_neg (by omega), if_neg (by omega), if_neg (by omega),
        if_neg (by omega), if_neg (by omega), if_neg (by omega), if_neg (by omega), if_pos (by omega)]

theorem unitChar_encode (c : Char) : unitChar (encode c) = c := by
  have hdecode : (encode c).toByteArray.utf8DecodeChar? 0 = some c := by
    have happend := @ByteArray.utf8DecodeChar?_utf8EncodeChar_append ByteArray.empty c
    rwa [ByteArray.append_empty] at happend
  rw [unitChar, hdecode, Option.getD_some]

/-- A character is a unit. -/
theorem units_encode (c : Char) (rest : List UInt8) :
    units (encode c ++ rest) = encode c :: units rest := by
  obtain ⟨first, others, ranges, hencode, htails, -, hmatched⟩ := exists_encode c
  have hlength : tailLength first (others ++ rest) = others.length := by
    rw [tailLength, htails]
    exact hmatched rest
  rw [hencode, List.cons_append, units_cons, hlength, List.take_left, List.drop_left]

/-- **Valid UTF-8** is decoded to the text that it encodes. -/
theorem lossy_encode (cs : List Char) : lossy (cs.flatMap encode) = cs := by
  unfold lossy
  induction cs with
  | nil => rw [List.flatMap_nil, units_nil, List.map_nil]
  | cons c cs ih => rw [List.flatMap_cons, units_encode, List.map_cons, unitChar_encode, ih]

/-! ### ASCII -/

/-- The byte of an ASCII character is a unit. -/
theorem units_ascii {byte : UInt8} (h : byte.toNat < 128) (rest : List UInt8) :
    units (byte :: rest) = [byte] :: units rest := by
  have htail : tailLength byte rest = 0 := by
    rw [tailLength, tailsOf, if_pos h]
    rfl
  rw [units_cons, htail, List.take_zero, List.drop_zero]

theorem encode_ascii {c : Char} (h : c.toNat < 128) : encode c = [UInt8.ofNat c.toNat] := by
  rw [encode, String.utf8EncodeChar, if_pos (show c.val.toNat ≤ 127 by exact Nat.le_of_lt_succ h)]
  rfl

theorem unitChar_ascii {c : Char} (h : c.toNat < 128) : unitChar [UInt8.ofNat c.toNat] = c := by
  rw [← encode_ascii h, unitChar_encode]

/-- A unit that stands for an ASCII character is its byte. -/
theorem unit_of_ascii {bytes unit : List UInt8} (hunit : unit ∈ units bytes)
    (h : (unitChar unit).toNat < 128) : unit = [UInt8.ofNat (unitChar unit).toNat] := by
  have hdecode : unit.toByteArray.utf8DecodeChar? 0 = some (unitChar unit) := by
    cases hchar : unit.toByteArray.utf8DecodeChar? 0 with
    | some c => rw [unitChar, hchar, Option.getD_some]
    | none =>
      rw [unitChar, hchar, Option.getD_none] at h
      exact absurd h (by decide)
  obtain ⟨rest, hrest⟩ := exists_of_utf8DecodeChar? hdecode
  rw [encode_ascii h, List.singleton_append] at hrest
  generalize (unitChar unit).toNat = n at *
  subst hrest
  congr 1
  -- the unit begins with the byte of a character, which is a unit of its own
  induction hlength : bytes.length using Nat.strong_induction_on generalizing bytes with
  | _ m ih =>
    cases bytes with
    | nil =>
      rw [units_nil] at hunit
      exact absurd hunit (List.not_mem_nil)
    | cons byte bytes =>
      rw [units_cons, List.mem_cons] at hunit
      rcases hunit with heq | hunit
      · obtain ⟨rfl, htake⟩ := List.cons.inj heq
        have hzero : tailLength (UInt8.ofNat n) bytes = 0 := by
          rw [tailLength, tailsOf, if_pos (by rw [toNat_ofNat8 (by omega)]; exact h)]
          rfl
        rw [htake, hzero, List.take_zero]
      · refine ih _ ?_ hunit rfl
        rw [← hlength, List.length_drop, List.length_cons]
        omega

/-- **An ASCII character** separates what is decoded before it and behind it, wherever the bytes are
cut. -/
theorem flatMap_lossy_split {c : Char} (h : c.toNat < 128) {pieces : List (List UInt8)}
    {left right : List UInt8} (hflat : pieces.flatten = left ++ (encode c ++ right)) :
    ∃ before after : List (List UInt8), before.flatten = left ∧ after.flatten = right ∧
      pieces.flatMap lossy = before.flatMap lossy ++ c :: after.flatMap lossy := by
  have hbyte : (UInt8.ofNat c.toNat).toNat = c.toNat := toNat_ofNat8 (by omega)
  have hsplit : ∀ left right : List UInt8,
      lossy (left ++ UInt8.ofNat c.toNat :: right) = lossy left ++ c :: lossy right := by
    intro left right
    rcases units_cut left (UInt8.ofNat c.toNat :: right)
      with heq | ⟨-, -, first, rest, heq, hcontinues⟩
    · rw [lossy, heq, units_ascii (by omega), List.map_append, List.map_cons, unitChar_ascii h]
      rfl
    · obtain ⟨rfl, -⟩ := List.cons.inj heq
      exact absurd hcontinues.1 (by omega)
  rw [encode_ascii h, List.singleton_append] at hflat
  induction pieces generalizing left with
  | nil => simp at hflat
  | cons piece pieces ih =>
    rw [List.flatten_cons, List.append_eq_append_iff] at hflat
    rcases hflat with ⟨middle, rfl, hrest⟩ | ⟨middle, hpiece, hrest⟩
    · obtain ⟨before, after, hbefore, hafter, heq⟩ := ih hrest
      exact ⟨piece :: before, after, by rw [List.flatten_cons, hbefore], hafter,
        by rw [List.flatMap_cons, heq, List.flatMap_cons, List.append_assoc]⟩
    · cases middle with
      | nil =>
        obtain ⟨before, after, hbefore, hafter, heq⟩ := @ih [] hrest.symm
        rw [List.append_nil] at hpiece
        exact ⟨piece :: before, after, by rw [List.flatten_cons, hbefore, hpiece, List.append_nil],
          hafter, by rw [List.flatMap_cons, heq, List.flatMap_cons, List.append_assoc]⟩
      | cons first middle =>
        obtain ⟨rfl, rfl⟩ := List.cons.inj hrest
        refine ⟨[left], middle :: pieces, by simp, by simp, ?_⟩
        rw [List.flatMap_cons, hpiece, hsplit]
        simp

theorem flatMap_lossy_nil {pieces : List (List UInt8)} (h : pieces.flatten = []) :
    pieces.flatMap lossy = [] := by
  refine List.flatMap_eq_nil_iff.2 fun piece hpiece => ?_
  rw [List.flatten_eq_nil_iff.1 h piece hpiece, lossy, units_nil, List.map_nil]

/-- An ASCII text is decoded to itself, wherever the bytes are cut. -/
theorem flatMap_lossy_ascii {text : List Char} (h : ∀ c ∈ text, c.toNat < 128)
    {pieces : List (List UInt8)} {right : List UInt8}
    (hflat : pieces.flatten = text.flatMap encode ++ right) :
    ∃ after : List (List UInt8), after.flatten = right ∧ pieces.flatMap lossy = text ++ after.flatMap lossy := by
  induction text generalizing pieces with
  | nil => exact ⟨pieces, hflat, rfl⟩
  | cons c text ih =>
    obtain ⟨hc, htext⟩ := List.forall_mem_cons.1 h
    rw [List.flatMap_cons, List.append_assoc] at hflat
    obtain ⟨before, middle, hbefore, hmiddle, heq⟩ := @flatMap_lossy_split c hc pieces [] _ hflat
    obtain ⟨after, hafter, hrest⟩ := ih htext hmiddle
    exact ⟨after, hafter,
      by rw [heq, flatMap_lossy_nil hbefore, hrest]; rfl⟩

/-- What pieces are decoded to, unit by unit. -/
theorem exists_units (pieces : List (List UInt8)) : ∃ all : List (List UInt8),
    pieces.flatMap lossy = all.map unitChar ∧ all.flatten = pieces.flatten ∧
      ∀ unit ∈ all, (unitChar unit).toNat < 128 → unit = [UInt8.ofNat (unitChar unit).toNat] := by
  refine ⟨pieces.flatMap units, ?_, ?_, fun unit hunit h => ?_⟩
  · rw [List.map_flatMap]
    rfl
  · rw [List.flatMap_def, List.flatten_flatten, List.map_map]
    exact congrArg List.flatten ((List.map_congr_left fun piece _ => flatten_units piece).trans
      (List.map_id pieces))
  · obtain ⟨piece, -, hunit⟩ := List.mem_flatMap.1 hunit
    exact unit_of_ascii hunit h

/-- An ASCII character is decoded from its byte. -/
theorem mem_of_mem_flatMap_lossy {pieces : List (List UInt8)} {c : Char} (h : c.toNat < 128)
    (hc : c ∈ pieces.flatMap lossy) : UInt8.ofNat c.toNat ∈ pieces.flatten := by
  obtain ⟨all, hmap, hflat, hall⟩ := exists_units pieces
  rw [hmap] at hc
  obtain ⟨unit, hunit, rfl⟩ := List.mem_map.1 hc
  rw [← hflat]
  refine List.mem_flatten.2 ⟨unit, hunit, ?_⟩
  rw [hall unit hunit h]
  exact List.mem_singleton.2 (by rw [unitChar_ascii h])

/-- Where the last character that is decoded is an ASCII character, the last byte is its byte. -/
theorem getLast?_of_flatMap_lossy {pieces : List (List UInt8)} {c : Char} (h : c.toNat < 128)
    (hlast : (pieces.flatMap lossy).getLast? = some c) :
    pieces.flatten.getLast? = some (UInt8.ofNat c.toNat) := by
  obtain ⟨all, hmap, hflat, hall⟩ := exists_units pieces
  rw [hmap, List.getLast?_map] at hlast
  obtain ⟨unit, hunit, rfl⟩ := Option.map_eq_some_iff.1 hlast
  obtain ⟨start, rfl⟩ := List.getLast?_eq_some_iff.1 hunit
  rw [← hflat, hall unit (by simp) h, unitChar_ascii h, List.flatten_append]
  simp

/-- Bytes that are decoded to an ASCII text are its bytes. -/
theorem flatten_of_flatMap_lossy {pieces : List (List UInt8)} {text : List Char}
    (h : ∀ c ∈ text, c.toNat < 128) (htext : pieces.flatMap lossy = text) :
    pieces.flatten = text.flatMap encode := by
  obtain ⟨all, hmap, hflat, hall⟩ := exists_units pieces
  rw [← hflat, ← htext, hmap, List.flatMap_map]
  rw [hmap] at htext
  rw [List.flatMap_def]
  congr 1
  refine (List.map_id all).symm.trans (List.map_congr_left fun unit hunit => ?_)
  have hascii : (unitChar unit).toNat < 128 :=
    h _ (htext ▸ List.mem_map_of_mem hunit)
  rw [encode_ascii hascii]
  exact hall unit hunit hascii

end Utf8
