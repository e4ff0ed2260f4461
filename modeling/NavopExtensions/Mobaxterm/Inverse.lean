import NavopExtensions.Mobaxterm.Decrypt

/-!
# Decryption takes encryption back

The characters of a weak ciphertext that are not in the key are noise, and the others are read in pairs
with a key that turns as that of the encryption does. CFB mode with blocks of one byte is taken back
because both directions put the byte of the ciphertext into the shift register, whatever the block
cipher is (`decryption_inverts`). A ciphertext without any character of the key is refused, so that the
text of no bytes is not read back.
-/

namespace Navop
namespace Mobaxterm

open Text

/-- A key as it is crafted: sixteen different characters of the alphabet. -/
structure CraftedKey (key : Str) : Prop extends WeakKey key where
  alphabet : ∀ c ∈ key, c ∈ weakKeyAlphabet

/-- A text with characters put in between that are not in a key. -/
inductive Interspersed (key : Str) : Str → Str → Prop
  | nil : Interspersed key [] []
  | keep (c : Char) {text noisy : Str} :
    Interspersed key text noisy → Interspersed key (c :: text) (c :: noisy)
  | noise {c : Char} {text noisy : Str} (hc : c ∉ key) :
    Interspersed key text noisy → Interspersed key text (c :: noisy)

/-- CFB mode with blocks of one byte. -/
def aesCfb8Encrypt (library : Library) (key : List UInt8) (shift : List UInt8) :
    List UInt8 → List UInt8
  | [] => []
  | byte :: data =>
    let encrypted := byte ^^^ (library.aes256 key shift).headD 0
    encrypted :: aesCfb8Encrypt library key (shift.tail ++ [encrypted]) data

variable {key : Str}

/-! ### Crafted keys -/

theorem CraftedKey.replaceAt (h : CraftedKey key) (keyspace : List Str) (index : ℕ) :
    CraftedKey (replaceAt keyspace key index) := by
  refine ⟨h.toWeakKey.replaceAt keyspace index, ?_⟩
  unfold Mobaxterm.replaceAt
  split
  · exact h.alphabet
  · next unit _ =>
    split
    · exact h.alphabet
    · split
      · next hnew =>
        rw [Bool.and_eq_true, decide_eq_true_eq, decide_eq_true_eq] at hnew
        intro c hc
        obtain hold | rfl := List.mem_or_eq_of_mem_set hc
        · exact h.alphabet c hold
        · exact hnew.2
      · exact h.alphabet

theorem weakKeySeed_alphabet : ∀ c ∈ weakKeySeed, c ∈ weakKeyAlphabet := by
  have hall : weakKeySeed.all (weakKeyAlphabet.contains ·) = true := by decide +kernel
  intro c hc
  exact List.contains_iff_mem.1 (List.all_eq_true.1 hall c hc)

/-- The seed is a key itself. -/
theorem craftedKey_seed : CraftedKey weakKeySeed :=
  ⟨⟨by decide, by decide +kernel⟩, weakKeySeed_alphabet⟩

/-- **Crafted keys** are such keys, whatever the material is. -/
theorem craftedKey_craftWeakKey (keyspace : List Str) : CraftedKey (craftWeakKey keyspace) := by
  have hfold : ∀ (indices : List ℕ) (key : Str), CraftedKey key →
      CraftedKey (indices.foldl (replaceAt keyspace) key) := by
    intro indices
    induction indices with
    | nil => exact fun key hkey => hkey
    | cons index indices ih => exact fun key hkey => ih _ (hkey.replaceAt keyspace index)
  exact hfold _ _ craftedKey_seed

/-! ### Noise -/

/-- The characters of the key are the text. -/
theorem Interspersed.filter_eq {text noisy : Str} (h : Interspersed key text noisy)
    (htext : ∀ c ∈ text, c ∈ key) : noisy.filter (· ∈ key) = text := by
  induction h with
  | nil => rfl
  | keep c _ ih =>
    have hc := htext c List.mem_cons_self
    rw [List.filter_cons_of_pos (by simpa using hc), ih fun d hd => htext d (List.mem_cons_of_mem c hd)]
  | noise hc _ ih =>
    rw [List.filter_cons_of_neg (by simpa using hc), ih htext]

/-- **A weak ciphertext with noise** is decrypted to the bytes that it was written for. -/
theorem decryptWeakCipher_interspersed (h : WeakKey key) {bytes : List UInt8} (hbytes : bytes ≠ [])
    {ciphertext : Str} (hnoise : Interspersed key (encryptPairs key bytes) ciphertext) :
    decryptWeakCipher ciphertext key = some bytes := by
  have hfilter := hnoise.filter_eq (mem_encryptPairs h bytes).1
  have hclean : (encryptPairs key bytes).filter (· ∈ key) = encryptPairs key bytes :=
    List.filter_eq_self.2 fun c hc => decide_eq_true ((mem_encryptPairs h bytes).1 c hc)
  calc decryptWeakCipher ciphertext key = decryptWeakCipher (encryptPairs key bytes) key := by
        rw [decryptWeakCipher, decryptWeakCipher, hfilter, hclean]
    _ = some bytes := decryptWeakCipher_encryptPairs h hbytes

/-! ### CFB mode -/

/-- **CFB mode** is taken back. -/
theorem aesCfb8Decrypt_encrypt (library : Library) (key shift data : List UInt8) :
    aesCfb8Decrypt library key shift (aesCfb8Encrypt library key shift data) = data := by
  induction data generalizing shift with
  | nil => rfl
  | cons byte data ih =>
    rw [aesCfb8Encrypt, aesCfb8Decrypt, ih, UInt8.xor_assoc, UInt8.xor_self, UInt8.xor_zero]

/-- **Decryption takes encryption back**: keys are crafted with sixteen different characters of the
alphabet, weak ciphertexts of at least one byte are read with any noise in them, and CFB mode is
inverted. -/
theorem decryption_inverts (library : Library) :
    (∀ sessionP, CraftedKey (craftSessionPKey library sessionP)) ∧
    (∀ sysUsername sysHostname connUsername connHostname,
      CraftedKey (craftConnectionKey library sysUsername sysHostname connUsername connHostname)) ∧
    (∀ key, CraftedKey key → ∀ bytes ≠ [], ∀ ciphertext,
      Interspersed key (encryptPairs key bytes) ciphertext →
        decryptWeakCipher ciphertext key = some bytes) ∧
    ∀ key iv data, aesCfb8Decrypt library key iv (aesCfb8Encrypt library key iv data) = data :=
  ⟨fun _ => craftedKey_craftWeakKey _, fun _ _ _ _ => craftedKey_craftWeakKey _,
    fun _ hkey _ hbytes _ hnoise => decryptWeakCipher_interspersed hkey.toWeakKey hbytes hnoise,
    aesCfb8Decrypt_encrypt library⟩

/-- Libraries that do nothing. -/
def idleLibrary : Library where
  aes256 _ shift := shift
  sha512 bytes := bytes
  base64 _ := none
  toUppercase text := text
  toLowercase text := text
  lowercase c := [c]
  gb18030 _ := none
  windows1252 _ := []

/-- The seed writes the byte `0x10` as `0` and `0`, and a blank and a hyphen do not disturb it. -/
theorem decryption_inverts_noisy :
    decryptWeakCipher "-0 0".toList weakKeySeed = some [0x10] :=
  (decryption_inverts idleLibrary).2.2.1 weakKeySeed craftedKey_seed [0x10] (by decide) _
    (.noise (by decide) (.keep '0' (.noise (by decide) (.keep '0' .nil))))

/-- **The text of no bytes** is refused, as there is nothing to decrypt. -/
theorem nothing_refused :
    CraftedKey (craftSessionPKey idleLibrary []) ∧
      Interspersed (craftSessionPKey idleLibrary [])
        (encryptPairs (craftSessionPKey idleLibrary []) []) [] ∧
      decryptWeakCipher [] (craftSessionPKey idleLibrary []) ≠ some [] :=
  ⟨craftedKey_craftWeakKey _, .nil, by simp [decryptWeakCipher]⟩

end Mobaxterm
end Navop
