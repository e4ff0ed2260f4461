import Mathlib

/-!
# Texts and their bytes

UTF-8 as programs see it that read any bytes character by character: `runes` takes a byte with which
no character begins for U+FFFD. The encodings of characters do not overlap: in a text of encoded
characters, an encoding is only found where a character begins (`mem_of_encode_within`).
-/

namespace Utf8

/-- The bytes of a character. -/
def encode (c : Char) : List UInt8 := String.utf8EncodeChar c

/-- The first character of some bytes, and how many bytes it takes. -/
def decodeRune (bytes : List UInt8) : Char × ℕ :=
  match bytes.toByteArray.utf8DecodeChar? 0 with
  | some c => (c, c.utf8Size)
  | none => ('\uFFFD', 1)

/-- The characters of some bytes, after what is still left of one. -/
def runesAfter : ℕ → List UInt8 → List Char
  | _, [] => []
  | 0, byte :: bytes =>
    (decodeRune (byte :: bytes)).1 :: runesAfter ((decodeRune (byte :: bytes)).2 - 1) bytes
  | left + 1, _ :: bytes => runesAfter left bytes

/-- The characters of some bytes. -/
def runes (bytes : List UInt8) : List Char := runesAfter 0 bytes

/-! ### One character -/

theorem length_encode (c : Char) : (encode c).length = c.utf8Size :=
  String.length_utf8EncodeChar c

theorem encode_ne_nil (c : Char) : encode c ≠ [] := by
  rw [← List.length_pos_iff, length_encode]
  exact c.utf8Size_pos

theorem decodeRune_encode (c : Char) (rest : List UInt8) :
    decodeRune (encode c ++ rest) = (c, (encode c).length) := by
  have hdecode : (encode c ++ rest).toByteArray.utf8DecodeChar? 0 = some c := by
    rw [List.toByteArray_append]
    exact ByteArray.utf8DecodeChar?_utf8EncodeChar_append
  simp only [decodeRune, hdecode, length_encode]

theorem runesAfter_append (bytes rest : List UInt8) :
    runesAfter bytes.length (bytes ++ rest) = runes rest := by
  induction bytes with
  | nil => rfl
  | cons byte bytes ih => exact ih

theorem runes_encode_append (c : Char) (rest : List UInt8) :
    runes (encode c ++ rest) = c :: runes rest := by
  have hdecode := decodeRune_encode c rest
  cases hbytes : encode c with
  | nil => exact absurd hbytes (encode_ne_nil c)
  | cons byte bytes =>
    rw [hbytes] at hdecode
    simp only [List.cons_append, runes, runesAfter] at hdecode ⊢
    rw [hdecode]
    exact congrArg (c :: ·) (runesAfter_append bytes rest)

/-- The characters of a text are read from its bytes. -/
theorem runes_flatMap (cs : List Char) : runes (cs.flatMap encode) = cs := by
  induction cs with
  | nil => rfl
  | cons c cs ih => rw [List.flatMap_cons, runes_encode_append, ih]

/-- Encodings are told apart by their bytes, whatever follows. -/
theorem eq_of_encode_start {c d : Char} {rest : List UInt8} (h : encode c <+: encode d ++ rest) :
    c = d := by
  obtain ⟨more, hmore⟩ := h
  have hrunes := congrArg runes hmore
  rw [runes_encode_append, runes_encode_append] at hrunes
  exact (List.cons.inj hrunes).1

/-- No encoding begins in the middle of another. -/
theorem not_encode_start {c d : Char} {before after rest : List UInt8}
    (hsplit : encode d = before ++ after) (hbefore : before ≠ []) (hafter : after ≠ []) :
    ¬ encode c <+: after ++ rest := by
  intro h
  have hpos := List.length_pos_iff.2 hbefore
  cases hc : encode c with
  | nil => exact encode_ne_nil c hc
  | cons first bytes =>
    cases after with
    | nil => exact hafter rfl
    | cons byte after =>
      rw [hc, List.cons_append, List.cons_prefix_cons] at h
      obtain ⟨rfl, -⟩ := h
      -- The byte is the first one of `c`, but not of `d`.
      have hfirst : first.IsUTF8FirstByte := by
        have hzero := @UInt8.isUTF8FirstByte_getElem_zero_utf8EncodeChar c
        have hget : (String.utf8EncodeChar c)[0]? = some first := by
          change (encode c)[0]? = _
          rw [hc]
          rfl
        rw [List.getElem?_eq_some_iff] at hget
        obtain ⟨_, hget⟩ := hget
        rwa [hget] at hzero
      have hget : (String.utf8EncodeChar d)[before.length]? = some first := by
        change (encode d)[before.length]? = _
        rw [hsplit]
        simp
      obtain ⟨hlt, hget⟩ := List.getElem?_eq_some_iff.1 hget
      rw [← hget, UInt8.isUTF8FirstByte_getElem_utf8EncodeChar] at hfirst
      omega

/-! ### Texts -/

/-- An encoding in the bytes of a text is one of its characters. -/
theorem mem_of_encode_within {c : Char} {cs : List Char} (h : encode c <:+: cs.flatMap encode) :
    c ∈ cs := by
  induction cs with
  | nil => exact absurd (List.infix_nil.1 h) (encode_ne_nil c)
  | cons d cs ih =>
    obtain ⟨before, after, hsplit⟩ := h
    rw [List.flatMap_cons, List.append_assoc] at hsplit
    rcases List.append_eq_append_iff.1 hsplit with ⟨middle, hd, hrest⟩ | ⟨later, -, hrest⟩
    · cases before with
      | nil =>
        rw [List.nil_append] at hd
        obtain rfl := eq_of_encode_start ⟨after, hd ▸ hrest⟩
        exact List.mem_cons_self
      | cons byte before =>
        cases middle with
        | nil => exact List.mem_cons_of_mem _ (ih ⟨[], after, by simpa using hrest⟩)
        | cons next middle =>
          exact absurd ⟨after, hrest⟩ (not_encode_start hd (by simp) (by simp))
    · exact List.mem_cons_of_mem _ (ih ⟨later, after, by simpa using hrest.symm⟩)

theorem eq_of_encode_within {c d : Char} (h : encode c <:+: encode d) : c = d :=
  List.mem_singleton.1 (mem_of_encode_within (by simpa using h))

/-- Bytes that begin with a character. -/
theorem exists_of_utf8DecodeChar? {bytes : List UInt8} {c : Char}
    (h : bytes.toByteArray.utf8DecodeChar? 0 = some c) : ∃ rest, bytes = encode c ++ rest := by
  have hencode := String.toByteArray_utf8EncodeChar_of_utf8DecodeChar?_eq_some h
  have hdata := congrArg (fun b : ByteArray => b.data.toList) hencode
  simp only [List.data_toByteArray, ByteArray.data_extract, Array.toList_extract] at hdata
  refine ⟨bytes.drop c.utf8Size, ?_⟩
  have htake : encode c = bytes.take c.utf8Size := by simpa [encode] using hdata
  rw [htake, List.take_append_drop]

/-- Bytes without U+FFFD are those of a text. -/
theorem flatMap_runes {bytes : List UInt8} (h : '\uFFFD' ∉ runes bytes) :
    (runes bytes).flatMap encode = bytes := by
  induction hlength : bytes.length using Nat.strong_induction_on generalizing bytes with
  | _ n ih =>
    cases bytes with
    | nil => rfl
    | cons byte bytes =>
      cases hdecode : (byte :: bytes).toByteArray.utf8DecodeChar? 0 with
      | none =>
        refine absurd ?_ h
        simp [runes, runesAfter, decodeRune, hdecode]
      | some c =>
        obtain ⟨rest, hrest⟩ := exists_of_utf8DecodeChar? hdecode
        have hpos := List.length_pos_iff.2 (encode_ne_nil c)
        rw [hrest, runes_encode_append] at h ⊢
        have hless : rest.length < n := by
          rw [← hlength, hrest, List.length_append]
          omega
        rw [List.flatMap_cons, ih _ hless (fun hmem => h (List.mem_cons_of_mem _ hmem)) rfl]

/-! ### The order of texts -/

theorem ofNat_lt_ofNat {n m : ℕ} (hn : n < 256) (hm : m < 256) :
    UInt8.ofNat n < UInt8.ofNat m ↔ n < m := by
  rw [UInt8.lt_iff_toNat_lt, UInt8.toNat_ofNat_of_lt' hn, UInt8.toNat_ofNat_of_lt' hm]

theorem ofNat_inj {n m : ℕ} (hn : n < 256) (hm : m < 256) :
    UInt8.ofNat n = UInt8.ofNat m ↔ n = m := by
  rw [← UInt8.toNat_inj, UInt8.toNat_ofNat_of_lt' hn, UInt8.toNat_ofNat_of_lt' hm]

/-- A smaller character has smaller bytes, whatever follows. -/
theorem encode_append_lt {c d : Char} (h : c < d) (xs ys : List UInt8) :
    encode c ++ xs < encode d ++ ys := by
  have hlt : c.val.toNat < d.val.toNat := h
  have hc : c.val.toNat < 1114112 := by
    have hvalid : c.val.toNat < 55296 ∨ 57343 < c.val.toNat ∧ c.val.toNat < 1114112 := c.valid
    omega
  have hd : d.val.toNat < 1114112 := by
    have hvalid : d.val.toNat < 55296 ∨ 57343 < d.val.toNat ∧ d.val.toNat < 1114112 := d.valid
    omega
  simp only [encode, String.utf8EncodeChar]
  generalize c.val.toNat = n at *
  generalize d.val.toNat = m at *
  -- the digits to the base 64, of which the first that differs decides
  have hsecond (k : ℕ) : k / 4096 = k / 64 / 64 := (Nat.div_div_eq_div_mul k 64 64).symm
  have hfirst (k : ℕ) : k / 262144 = k / 64 / 64 / 64 := by
    rw [Nat.div_div_eq_div_mul, Nat.div_div_eq_div_mul]
  split_ifs
  all_goals
    simp (disch := omega) only [List.cons_append, List.nil_append, List.cons_lt_cons_iff,
      ofNat_lt_ofNat, ofNat_inj, hsecond, hfirst]
    omega
theorem flatMap_encode_lt {cs ds : List Char} (h : cs < ds) :
    cs.flatMap encode < ds.flatMap encode := by
  induction cs generalizing ds with
  | nil =>
    cases ds with
    | nil => exact absurd h (lt_irrefl _)
    | cons d ds =>
      obtain ⟨byte, bytes, hbytes⟩ := List.exists_cons_of_ne_nil (encode_ne_nil d)
      rw [List.flatMap_nil, List.flatMap_cons, hbytes]
      exact List.nil_lt_cons _ _
  | cons c cs ih =>
    cases ds with
    | nil => exact absurd h (List.not_lt_nil _)
    | cons d ds =>
      rw [List.flatMap_cons, List.flatMap_cons]
      rcases List.cons_lt_cons_iff.1 h with hlt | ⟨rfl, hrest⟩
      · exact encode_append_lt hlt _ _
      · exact List.append_left_lt (ih hrest)

end Utf8
