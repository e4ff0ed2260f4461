import NavopExtensions.Mobaxterm.File

/-!
# Stored passwords

With a master password, a password is encrypted by AES-256 in CFB8 mode. Otherwise every byte of it is
written as two characters of a key, which is turned by one place after each of them. The key is crafted
from what the file says about the computer, and about the connection.

A decrypted password is taken only if it looks like one (`decodePlaintext`). AES-256, SHA-512, Base64,
the case mapping of Unicode and the encodings of old files are parameters.
-/

namespace Navop
namespace Mobaxterm

open Text

/-- `StoredSecretInput`: a ciphertext, and whatever a key can be made of. -/
structure StoredSecretInput where
  ciphertext : Str
  masterPassword : Option Str
  sessionP : Option Str
  sysUsername : Option Str
  sysHostname : Option Str
  connUsername : Option Str
  connHostname : Option Str
  deriving DecidableEq

/-- The libraries that the importer uses. -/
structure Library where
  /-- A block is encrypted with a key. -/
  aes256 : List UInt8 → List UInt8 → List UInt8
  sha512 : List UInt8 → List UInt8
  base64 : Str → Option (List UInt8)
  toUppercase : Str → Str
  toLowercase : Str → Str
  /-- `char::to_lowercase`. -/
  lowercase : Char → Str
  gb18030 : List UInt8 → Option Str
  windows1252 : List UInt8 → Str

/-! ### Plaintexts -/

/-- The bytes of a text. -/
def utf8Bytes (text : Str) : List UInt8 := (String.ofList text).toUTF8.data.toList

/-- `decode_plaintext`: zeros are allowed at the end only. -/
def decodePlaintext (bytes : List UInt8) : Option Str :=
  let slice := bytes.takeWhile (· ≠ 0)
  if (bytes.dropWhile (· ≠ 0)).any (· ≠ 0) then none
  else if slice.isEmpty then none
  else if slice.any fun byte => byte < 0x20 && byte ≠ 0x09 then none
  else fromUtf8 slice

/-! ### Weak keys -/

/-- `WEAK_KEY_ALPHABET`: the characters that fill up a weak key. -/
def weakKeyAlphabet : Str :=
  "0123456789ABCDEFGHIJKLMNOPQRSTUVWXYZabcdefghijklmnopqrstuvwxyz+/".toList

/-- `WEAK_KEY_SEED`: the sixteen characters that a weak key starts from. -/
def weakKeySeed : Str := "0d5e9n1348/U2+67".toList

/-- The loop of `repeat_to_length`. A text that is not empty grows with every pass, so that there are
at most as many of them as units are missing. -/
def repeatLoop (value : Str) (minLength : ℕ) : ℕ → Str → Str
  | 0, out => out
  | passes + 1, out =>
    if (encodeUtf16 out).length < minLength then repeatLoop value minLength passes (out ++ value)
    else out

/-- `repeat_to_length`: the value again and again until it is long enough, and never for the empty one. -/
def repeatToLength (value : Str) (minLength : ℕ) : Str :=
  if value.isEmpty then [] else repeatLoop value minLength minLength value

/-- A place of a key is replaced in `craft_weak_key`. -/
def replaceAt (keyspace : List Str) (key : Str) (index : ℕ) : Str :=
  match (encodeUtf16 (keyspace[(index + 1) % keyspace.length]?.getD []))[index]? with
  | none => key
  | some unit =>
    if 0x7f < unit then key
    else if Char.ofNat unit ∉ key && Char.ofNat unit ∈ weakKeyAlphabet then
      key.set index (Char.ofNat unit)
    else key

/-- `craft_weak_key`. The bytes of a key are ASCII characters. -/
def craftWeakKey (keyspace : List Str) : Str :=
  (List.range weakKeySeed.length).foldl (replaceAt keyspace) weakKeySeed

section Keys

variable (library : Library)

/-- `craft_session_p_key`: a weak key from `SessionP`, its upper case twice and its lower case twice. -/
def craftSessionPKey (sessionP : Str) : Str :=
  let repeated := repeatToLength sessionP 20
  craftWeakKey [library.toUppercase repeated, library.toUppercase repeated,
    library.toLowercase repeated, library.toLowercase repeated]

/-- `craft_connection_key`: a weak key from the user and host of the system and of the connection. -/
def craftConnectionKey (sysUsername sysHostname connUsername connHostname : Str) : Str :=
  let sysMaterial := repeatToLength (sysUsername ++ sysHostname) 20
  let connMaterial := repeatToLength (connUsername ++ connHostname) 20
  craftWeakKey [library.toUppercase sysMaterial, library.toUppercase connMaterial,
    library.toLowercase sysMaterial, library.toLowercase connMaterial]

end Keys

/-- `rotate_right`, by one place: the last character comes to the front. -/
def rotateRight (key : Str) : Str :=
  match key.getLast? with
  | none => []
  | some last => last :: key.dropLast

/-- The bytes that pairs of characters of a key stand for. -/
def decryptPairs (working : Str) : Str → Option (List UInt8)
  | low :: high :: rest => do
    let low ← working.idxOf? low
    let working := rotateRight working
    let high ← working.idxOf? high
    let plaintext ← decryptPairs (rotateRight working) rest
    return UInt8.ofNat ((high * 16 + low) % 256) :: plaintext
  | _ => some []

/-- `decrypt_weak_cipher`: characters outside the key are skipped, and two of the rest make a byte. -/
def decryptWeakCipher (ciphertext key : Str) : Option (List UInt8) :=
  let filtered := ciphertext.filter (· ∈ key)
  if filtered.isEmpty || filtered.length % 2 ≠ 0 then none else decryptPairs key filtered

/-! ### What weak ciphertexts stand for -/

/-- A key has sixteen different characters. -/
structure WeakKey (key : Str) : Prop where
  length : key.length = 16
  nodup : key.Nodup

/-- The characters that bytes are written as. -/
def encryptPairs (working : Str) : List UInt8 → Str
  | [] => []
  | byte :: bytes =>
    let high := rotateRight working
    working[byte.toNat % 16]?.getD '0' :: high[byte.toNat / 16]?.getD '0'
      :: encryptPairs (rotateRight high) bytes

theorem le_length_repeatLoop {value : Str} (hvalue : value ≠ []) (minLength : ℕ) :
    ∀ passes out, minLength ≤ (encodeUtf16 out).length + passes →
      minLength ≤ (encodeUtf16 (repeatLoop value minLength passes out)).length := by
  intro passes
  induction passes with
  | zero => exact fun out hout => hout
  | succ passes ih =>
    intro out hout
    unfold repeatLoop
    by_cases hshort : (encodeUtf16 out).length < minLength
    · rw [if_pos hshort]
      apply ih
      have hgrown := length_encodeUtf16_pos hvalue
      rw [encodeUtf16_append, List.length_append]
      omega
    · rw [if_neg hshort]
      omega

/-- The passes of the loop suffice. -/
theorem le_length_repeatToLength {value : Str} (hvalue : value ≠ []) (minLength : ℕ) :
    minLength ≤ (encodeUtf16 (repeatToLength value minLength)).length := by
  unfold repeatToLength
  rw [if_neg (by simpa using hvalue)]
  exact le_length_repeatLoop hvalue minLength minLength value (Nat.le_add_left _ _)

theorem nodup_set {key : Str} {c : Char} (hnodup : key.Nodup) (hc : c ∉ key) (index : ℕ) :
    (key.set index c).Nodup := by
  induction key generalizing index with
  | nil => exact hnodup
  | cons d key ih =>
    obtain ⟨hd, hrest⟩ := List.nodup_cons.mp hnodup
    obtain ⟨hne, hc⟩ := not_or.mp fun h => hc (List.mem_cons.mpr h)
    cases index with
    | zero => exact List.nodup_cons.mpr ⟨hc, hrest⟩
    | succ index =>
      refine List.nodup_cons.mpr ⟨fun hmem => ?_, ih hrest hc index⟩
      obtain hold | rfl := List.mem_or_eq_of_mem_set hmem
      · exact hd hold
      · exact hne rfl

theorem WeakKey.replaceAt {key : Str} (h : WeakKey key) (keyspace : List Str) (index : ℕ) :
    WeakKey (replaceAt keyspace key index) := by
  unfold Mobaxterm.replaceAt
  split
  · exact h
  · next unit _ =>
    split
    · exact h
    · split
      · next hnew =>
        rw [Bool.and_eq_true, decide_eq_true_eq] at hnew
        exact ⟨(List.length_set).trans h.length, nodup_set h.nodup hnew.1 index⟩
      · exact h

/-- **Crafted keys** are keys, whatever the material is. -/
theorem weakKey_craftWeakKey (keyspace : List Str) : WeakKey (craftWeakKey keyspace) := by
  have hfold : ∀ (indices : List ℕ) (key : Str), WeakKey key →
      WeakKey (indices.foldl (replaceAt keyspace) key) := by
    intro indices
    induction indices with
    | nil => exact fun key hkey => hkey
    | cons index indices ih => exact fun key hkey => ih _ (hkey.replaceAt keyspace index)
  exact hfold _ _ ⟨by decide, by decide⟩

theorem perm_rotateRight (key : Str) : (rotateRight key).Perm key := by
  unfold rotateRight
  split
  · next hnone => rw [List.getLast?_eq_none_iff.mp hnone]
  · next last hlast =>
    obtain ⟨init, rfl⟩ := List.getLast?_eq_some_iff.mp hlast
    rw [List.dropLast_concat]
    exact @List.perm_append_comm _ [last] init

theorem WeakKey.rotateRight {key : Str} (h : WeakKey key) : WeakKey (rotateRight key) :=
  ⟨(perm_rotateRight key).length_eq.trans h.length, (perm_rotateRight key).nodup_iff.mpr h.nodup⟩

/-- The place of a character that stands at it. -/
theorem WeakKey.idxOf? {key : Str} (h : WeakKey key) {place : ℕ} (hplace : place < 16) :
    key.idxOf? (key[place]?.getD '0') = some place := by
  have hlt : place < key.length := by rw [h.length]; exact hplace
  rw [List.getElem?_eq_getElem hlt, Option.getD_some, List.idxOf?_eq_some_iff]
  exact ⟨hlt, rfl, fun other hother heq => by
    have := (List.Nodup.getElem_inj_iff h.nodup).mp heq
    omega⟩

theorem decryptPairs_encryptPairs {key : Str} (h : WeakKey key) (bytes : List UInt8) :
    decryptPairs key (encryptPairs key bytes) = some bytes := by
  induction bytes generalizing key with
  | nil => rfl
  | cons byte bytes ih =>
    have hbyte := byte.toNat_lt
    have hjoin : byte.toNat / 16 * 16 + byte.toNat % 16 = byte.toNat := Nat.div_add_mod' _ _
    unfold encryptPairs decryptPairs
    rw [h.idxOf? (Nat.mod_lt _ (by decide)), Option.bind_eq_bind, Option.bind_some]
    dsimp only
    rw [h.rotateRight.idxOf? (by omega), Option.bind_eq_bind, Option.bind_some,
      ih h.rotateRight.rotateRight, Option.bind_some, hjoin,
      Nat.mod_eq_of_lt hbyte, UInt8.ofNat_toNat]
    rfl

/-- The characters are those of the key, two for each byte. -/
theorem mem_encryptPairs {key : Str} (h : WeakKey key) (bytes : List UInt8) :
    (∀ c ∈ encryptPairs key bytes, c ∈ key) ∧ (encryptPairs key bytes).length = 2 * bytes.length := by
  induction bytes generalizing key with
  | nil => exact ⟨fun _ => nofun, rfl⟩
  | cons byte bytes ih =>
    have hbyte := byte.toNat_lt
    have hmem : ∀ {key : Str} {place : ℕ}, WeakKey key → place < 16 → key[place]?.getD '0' ∈ key := by
      intro key place hkey hplace
      have hlt : place < key.length := by rw [hkey.length]; exact hplace
      rw [List.getElem?_eq_getElem hlt]
      exact List.getElem_mem hlt
    -- two characters a byte, and the key is turned twice
    obtain ⟨hrest, hlength⟩ := ih h.rotateRight.rotateRight
    -- turning the key only permutes it
    have hback : ∀ c, c ∈ Mobaxterm.rotateRight (Mobaxterm.rotateRight key) → c ∈ key := fun c hc =>
      (perm_rotateRight key).mem_iff.mp ((perm_rotateRight _).mem_iff.mp hc)
    unfold encryptPairs
    refine ⟨?_, by simp only [List.length_cons, hlength]; omega⟩
    intro c hc
    obtain rfl | hc := List.mem_cons.mp hc
    · exact hmem h (Nat.mod_lt _ (by decide))
    · obtain rfl | hc := List.mem_cons.mp hc
      · exact (perm_rotateRight key).mem_iff.mp (hmem h.rotateRight (by omega))
      · exact hback c (hrest c hc)

/-- **A weak ciphertext** is decrypted to the bytes that it was written for. -/
theorem decryptWeakCipher_encryptPairs {key : Str} (h : WeakKey key) {bytes : List UInt8}
    (hbytes : bytes ≠ []) : decryptWeakCipher (encryptPairs key bytes) key = some bytes := by
  obtain ⟨hmem, hlength⟩ := mem_encryptPairs h bytes
  have hfilter : (encryptPairs key bytes).filter (· ∈ key) = encryptPairs key bytes :=
    List.filter_eq_self.mpr fun c hc => decide_eq_true (hmem c hc)
  have hpositive := List.length_pos_iff.mpr hbytes
  have hne : encryptPairs key bytes ≠ [] := List.length_pos_iff.mp (by omega)
  unfold decryptWeakCipher
  rw [hfilter]
  dsimp only
  rw [List.isEmpty_eq_false_iff.mpr hne, hlength, Nat.mul_mod_right, if_neg (by simp)]
  exact decryptPairs_encryptPairs h bytes

/-! ### Master passwords -/

section Secrets

variable (library : Library)

/-- `looks_like_random_iv_ciphertext`: it starts with `_@` and has at least twenty bytes. -/
def looksLikeRandomIvCiphertext (ciphertext : Str) : Bool :=
  "_@".toList.isPrefixOf (trim ciphertext) && decide (20 ≤ (utf8Bytes (trim ciphertext)).length)

/-- `decode_base64`: white space goes, the other alphabet is translated, and padding is added. -/
def decodeBase64 (input : Str) (altAlphabet : Bool) : Option (List UInt8) :=
  let normalized := (input.filter (!isWhitespace ·)).map fun c =>
    if altAlphabet && c = '@' then '+' else if altAlphabet && c = '_' then '/' else c
  if normalized.isEmpty then none
  else
    library.base64
      (normalized ++ List.replicate ((4 - (utf8Bytes normalized).length % 4) % 4) '=')

/-- `aes_cfb8_decrypt`: the ciphertext is shifted in byte by byte. -/
def aesCfb8Decrypt (key : List UInt8) (shift : List UInt8) : List UInt8 → List UInt8
  | [] => []
  | byte :: data =>
    (byte ^^^ (library.aes256 key shift).headD 0) :: aesCfb8Decrypt key (shift.tail ++ [byte]) data

/-- `decrypt_master_password`: the key is the front of the password's SHA-512, and the ciphertext tells its
own form. -/
def decryptMasterPassword (ciphertext masterPassword : Str) : Option (List UInt8) := do
  let key := (library.sha512 (utf8Bytes masterPassword)).take 32
  if looksLikeRandomIvCiphertext ciphertext then
    let latin1 := ciphertext.map fun c => UInt8.ofNat (c.toNat % 256)
    guard (18 ≤ latin1.length)
    let decoded ← decodeBase64 library ciphertext true
    guard (15 < decoded.length)
    return aesCfb8Decrypt library key ((latin1.take 18).drop 2) (decoded.drop 15)
  else
    let decoded ← decodeBase64 library ciphertext false
    guard (decoded ≠ [])
    return aesCfb8Decrypt library key (library.aes256 key (List.replicate 16 0)) decoded

/-- The password, if it is encrypted with the key of its connection. -/
def decryptConnection (input : StoredSecretInput) (ciphertext : Str) : Option Str := do
  let key := craftConnectionKey library (← input.sysUsername) (← input.sysHostname)
    (← input.connUsername) (← input.connHostname)
  decodePlaintext (← decryptWeakCipher ciphertext key)

/-- The password, if it is encrypted with the key of `SessionP`. -/
def decryptSessionP (input : StoredSecretInput) (ciphertext : Str) : Option Str := do
  let sessionP ← input.sessionP.filter (!·.isEmpty)
  decodePlaintext (← decryptWeakCipher ciphertext (craftSessionPKey library sessionP))

/-- `decrypt_stored_secret`: a master password is tried alone; without one, the keys of the connection and
of `SessionP`. -/
def Library.decryptStoredSecret (input : StoredSecretInput) : Option Str :=
  let ciphertext := trim input.ciphertext
  if ciphertext.isEmpty then none
  else
    match input.masterPassword.filter (!·.isEmpty) with
    | some masterPassword =>
      (decryptMasterPassword library ciphertext masterPassword).bind decodePlaintext
    | none => (decryptConnection library input ciphertext).or (decryptSessionP library input ciphertext)

end Secrets

end Mobaxterm
end Navop
