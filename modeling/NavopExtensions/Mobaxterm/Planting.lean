import NavopExtensions.Mobaxterm.Inverse
import NavopExtensions.Mobaxterm.Secrets

/-!
# Secrets that can be put into sessions

A file that has a key for the passwords of its sessions cannot tell what is a password: some ciphertext is
decrypted with every key (`exists_ciphertext`), and it can take the place of any password that a session
has (`exists_planted`). What Base64 does is only needed of one byte, for a master password.
-/

namespace Navop
namespace Mobaxterm

open Text

/-! ### Ciphertexts -/

/-- The alphabet of Base64. -/
def base64Alphabet : Str :=
  "ABCDEFGHIJKLMNOPQRSTUVWXYZabcdefghijklmnopqrstuvwxyz0123456789+/".toList

/-- Two characters that stand for a byte in Base64, before the padding. -/
def base64Digits (byte : UInt8) : Str :=
  [base64Alphabet[byte.toNat / 4]?.getD 'A', base64Alphabet[byte.toNat % 4 * 16]?.getD 'A']

/-- A byte is read from the two characters that stand for it, with the padding. -/
def Library.ReadsBase64 (library : Library) : Prop :=
  ∀ byte, library.base64 (base64Digits byte ++ ['=', '=']) = some [byte]

/-- There is something to decrypt the passwords of sessions with: a master password, the names of the
account and of the computer, or the material of `SessionP`. -/
def ParsedFile.hasKey (file : ParsedFile) (masterPassword : Option Str) : Bool :=
  masterPassword.any (!·.isEmpty)
    || ((file.misc.lookup "mpsetaccount".toList).isSome
      && (file.misc.lookup "mpsetcomputer".toList).isSome)
    || (file.misc.lookup "sessionp".toList).any (!·.isEmpty)

/-- What the password in a session is decrypted with, in the report on a file. -/
def ParsedFile.inlineInput (file : ParsedFile) (masterPassword : Option Str)
    (ciphertext username hostname : Str) : StoredSecretInput :=
  ⟨ciphertext, masterPassword.filter (!·.isEmpty), file.misc.lookup "sessionp".toList,
    file.misc.lookup "mpsetaccount".toList, file.misc.lookup "mpsetcomputer".toList, some username,
    some hostname⟩

section Ciphertexts

variable (library : Library) (file : ParsedFile) (masterPassword : Option Str)

/-- The passwords in sessions are decrypted whether passwords are asked for or not. -/
theorem decryptInline_build (ciphertext username hostname : Str) :
    (PasswordStore.build library file false masterPassword).decryptInline library ciphertext username
        hostname
      = library.decryptStoredSecret (file.inlineInput masterPassword ciphertext username hostname) := by
  unfold PasswordStore.build
  simp only [Bool.not_false, ↓reduceIte]
  split
  · rfl
  · split
    · rfl
    · rfl

theorem filter_filter_isEmpty (text : Option Str) :
    (text.filter (!·.isEmpty)).filter (!·.isEmpty) = text.filter (!·.isEmpty) := by
  rw [Option.filter_filter]
  simp only [Bool.and_self]

/-- Without a key nothing is decrypted. -/
theorem decryptStoredSecret_noKey (hkey : file.hasKey masterPassword = false)
    (ciphertext username hostname : Str) :
    library.decryptStoredSecret (file.inlineInput masterPassword ciphertext username hostname)
      = none := by
  unfold ParsedFile.hasKey at hkey
  rw [Bool.or_eq_false_iff, Bool.or_eq_false_iff] at hkey
  obtain ⟨⟨hmaster, hconnection⟩, hsession⟩ := hkey
  -- each of the three keys is missing or empty
  have hnoMaster : masterPassword.filter (!·.isEmpty) = none := by
    cases masterPassword with
    | none => rfl
    | some master => exact Option.filter_some_neg (by simpa using hmaster)
  have hnoSession : (file.misc.lookup "sessionp".toList).filter (!·.isEmpty) = none := by
    cases hsessionP : file.misc.lookup "sessionp".toList with
    | none => rfl
    | some sessionP =>
      rw [hsessionP] at hsession
      exact Option.filter_some_neg (by simpa using hsession)
  unfold Library.decryptStoredSecret
  dsimp only [ParsedFile.inlineInput]
  rw [filter_filter_isEmpty, hnoMaster]
  split
  · rfl
  -- a connection key needs the account and the computer
  · have hnone : decryptConnection library (file.inlineInput masterPassword ciphertext username hostname)
        (trim ciphertext) = none := by
      unfold decryptConnection
      dsimp only [ParsedFile.inlineInput]
      cases haccount : file.misc.lookup "mpsetaccount".toList with
      | none => rfl
      | some account =>
        cases hcomputer : file.misc.lookup "mpsetcomputer".toList with
        | none => rfl
        | some computer =>
          rw [haccount, hcomputer] at hconnection
          cases hconnection
    have hnone' : decryptSessionP library (file.inlineInput masterPassword ciphertext username hostname)
        (trim ciphertext) = none := by
      unfold decryptSessionP
      dsimp only [ParsedFile.inlineInput]
      rw [hnoSession]
      rfl
    unfold ParsedFile.inlineInput at hnone hnone'
    rw [hnoMaster] at hnone hnone'
    dsimp only
    rw [hnone, hnone']
    rfl

/-- A character of the alphabet is none that a line, a session or a field ends with. -/
theorem alphabet_plain {c : Char} (hc : c ∈ weakKeyAlphabet) :
    isWhitespace c = false ∧ c ≠ '#' ∧ c ≠ '%' ∧ c ≠ ']' ∧ c ≠ '\n' := by
  have hall : weakKeyAlphabet.all (fun c => decide
      (isWhitespace c = false ∧ c ≠ '#' ∧ c ≠ '%' ∧ c ≠ ']' ∧ c ≠ '\n')) = true := by
    decide +kernel
  exact of_decide_eq_true (List.all_eq_true.mp hall c hc)

theorem trim_alphabet {text : Str} (h : ∀ c ∈ text, c ∈ weakKeyAlphabet) : trim text = text :=
  trim_eq_self fun c hc => (alphabet_plain (h c hc)).1

theorem mem_base64Digits (byte : UInt8) : ∀ c ∈ base64Digits byte, c ∈ weakKeyAlphabet := by
  have hall : base64Alphabet.all (weakKeyAlphabet.contains ·) = true := by decide +kernel
  have hsubset : ∀ c ∈ base64Alphabet, c ∈ weakKeyAlphabet := fun c hc =>
    List.contains_iff_mem.mp (List.all_eq_true.mp hall c hc)
  have hmem : ∀ index : ℕ, base64Alphabet[index]?.getD 'A' ∈ weakKeyAlphabet := by
    intro index
    cases hc : base64Alphabet[index]? with
    | none => exact hsubset 'A' (List.contains_iff_mem.mp rfl)
    | some c => exact hsubset c (List.mem_of_getElem? hc)
  unfold base64Digits
  exact List.forall_mem_cons.mpr ⟨hmem _, List.forall_mem_singleton.mpr (hmem _)⟩

theorem length_utf8Bytes_base64Digits (byte : UInt8) : (utf8Bytes (base64Digits byte)).length = 2 := by
  have hall : (List.range 256).all (fun n =>
      (utf8Bytes (base64Digits (UInt8.ofNat n))).length == 2) = true := by
    decide +kernel
  have hbyte := List.all_eq_true.mp hall byte.toNat (List.mem_range.mpr byte.toNat_lt)
  rw [UInt8.ofNat_toNat] at hbyte
  exact beq_iff_eq.mp hbyte

/-- The bytes of the text `a`. -/
theorem decodePlaintext_a : decodePlaintext [0x61] = some ['a'] := by decide +kernel

/-- With a master password, a byte is masked as it has to be. -/
theorem exists_masterCiphertext (hbase64 : library.ReadsBase64) (master : Str) :
    ∃ ciphertext, ciphertext ≠ [] ∧ (∀ c ∈ ciphertext, c ∈ weakKeyAlphabet) ∧
      decryptMasterPassword library ciphertext master = some [0x61] := by
  let key := (library.sha512 (utf8Bytes master)).take 32
  let mask := (library.aes256 key (library.aes256 key (List.replicate 16 0))).headD 0
  have halphabet := mem_base64Digits (0x61 ^^^ mask)
  have hlength := length_utf8Bytes_base64Digits (0x61 ^^^ mask)
  refine ⟨base64Digits (0x61 ^^^ mask), List.cons_ne_nil _ _, halphabet, ?_⟩
  -- two digits and the padding are too short for a leading initialisation vector
  have hshort : looksLikeRandomIvCiphertext (base64Digits (0x61 ^^^ mask)) = false := by
    unfold looksLikeRandomIvCiphertext
    rw [trim_alphabet halphabet, hlength]
    exact Bool.and_false _
  have hnormalized : ((base64Digits (0x61 ^^^ mask)).filter (!isWhitespace ·)).map
      (fun c => if (false && decide (c = '@')) = true then '+'
        else if (false && decide (c = '_')) = true then '/' else c) = base64Digits (0x61 ^^^ mask) := by
    rw [List.filter_eq_self.mpr fun c hc => by rw [(alphabet_plain (halphabet c hc)).1]; rfl]
    exact List.map_id _
  -- the digits decode to the masked byte, and masking it again gives the letter
  have hdecoded : decodeBase64 library (base64Digits (0x61 ^^^ mask)) false
      = some [0x61 ^^^ mask] := by
    unfold decodeBase64
    rw [hnormalized]
    dsimp only
    rw [hlength]
    exact hbase64 (0x61 ^^^ mask)
  unfold decryptMasterPassword
  dsimp only
  rw [hshort, hdecoded]
  change some [(0x61 ^^^ mask) ^^^ mask] = some [0x61]
  rw [UInt8.xor_assoc, UInt8.xor_self, UInt8.xor_zero]

/-- A key of the account, or of `SessionP`, writes a byte as two characters of its own. -/
theorem exists_weakCiphertext {key : Str} (h : CraftedKey key) :
    ∃ ciphertext, ciphertext ≠ [] ∧ (∀ c ∈ ciphertext, c ∈ weakKeyAlphabet) ∧
      decryptWeakCipher ciphertext key = some [0x61] := by
  obtain ⟨hmem, hlength⟩ := mem_encryptPairs h.toWeakKey [0x61]
  refine ⟨encryptPairs key [0x61], ?_, fun c hc => h.alphabet c (hmem c hc),
    decryptWeakCipher_encryptPairs h.toWeakKey (List.cons_ne_nil _ _)⟩
  rintro hnil
  rw [hnil] at hlength
  cases hlength

/-- **With a key, something is decrypted**, for every user name and every host. -/
theorem exists_ciphertext (hbase64 : library.ReadsBase64) (hkey : file.hasKey masterPassword = true)
    (username hostname : Str) :
    ∃ ciphertext, ciphertext ≠ [] ∧ (∀ c ∈ ciphertext, c ∈ weakKeyAlphabet) ∧
      (library.decryptStoredSecret (file.inlineInput masterPassword ciphertext username
        hostname)).isSome = true := by
  cases hmaster : masterPassword.filter (!·.isEmpty) with
  | some master =>
    obtain ⟨ciphertext, hne, halphabet, hdecrypts⟩ := exists_masterCiphertext library hbase64 master
    refine ⟨ciphertext, hne, halphabet, ?_⟩
    unfold Library.decryptStoredSecret
    dsimp only [ParsedFile.inlineInput]
    rw [filter_filter_isEmpty, hmaster, trim_alphabet halphabet, List.isEmpty_eq_false_iff.mpr hne]
    dsimp only
    rw [hdecrypts, Option.bind_some, decodePlaintext_a]
    rfl
  | none =>
    have hany : masterPassword.any (!·.isEmpty) = false := by
      cases masterPassword with
      | none => rfl
      | some master =>
        rw [Option.filter_eq_none_iff] at hmaster
        exact Bool.eq_false_iff.mpr (hmaster master rfl)
    unfold ParsedFile.hasKey at hkey
    rw [hany, Bool.false_or, Bool.or_eq_true, Bool.and_eq_true] at hkey
    -- a ciphertext for either key is decrypted, whatever the other key makes of it
    have hweak : ∀ ciphertext : Str, ciphertext ≠ [] → (∀ c ∈ ciphertext, c ∈ weakKeyAlphabet) →
        ((decryptConnection library (file.inlineInput masterPassword ciphertext username hostname)
            ciphertext).isSome = true ∨
          (decryptSessionP library (file.inlineInput masterPassword ciphertext username hostname)
            ciphertext).isSome = true) →
        (library.decryptStoredSecret (file.inlineInput masterPassword ciphertext username
          hostname)).isSome = true := by
      intro ciphertext hne halphabet hopens
      unfold Library.decryptStoredSecret
      dsimp only
      have htrim : trim (file.inlineInput masterPassword ciphertext username hostname).ciphertext
          = ciphertext := trim_alphabet halphabet
      have hnoMaster : (file.inlineInput masterPassword ciphertext username hostname).masterPassword.filter
          (!·.isEmpty) = none := by
        change (masterPassword.filter (!·.isEmpty)).filter (!·.isEmpty) = none
        rw [hmaster]
        rfl
      rw [htrim, hnoMaster, List.isEmpty_eq_false_iff.mpr hne]
      dsimp only
      rw [if_neg Bool.false_ne_true, Option.isSome_or, Bool.or_eq_true]
      exact hopens
    obtain ⟨haccount, hcomputer⟩ | hsession := hkey
    · obtain ⟨account, haccount⟩ := Option.isSome_iff_exists.mp haccount
      obtain ⟨computer, hcomputer⟩ := Option.isSome_iff_exists.mp hcomputer
      obtain ⟨ciphertext, hne, halphabet, hdecrypts⟩ := exists_weakCiphertext
        (craftedKey_craftWeakKey [library.toUppercase (repeatToLength (account ++ computer) 20),
          library.toUppercase (repeatToLength (username ++ hostname) 20),
          library.toLowercase (repeatToLength (account ++ computer) 20),
          library.toLowercase (repeatToLength (username ++ hostname) 20)])
      refine ⟨ciphertext, hne, halphabet, hweak ciphertext hne halphabet (Or.inl ?_)⟩
      have hconnection : decryptConnection library
          (file.inlineInput masterPassword ciphertext username hostname) ciphertext = some ['a'] := by
        unfold decryptConnection
        dsimp only [ParsedFile.inlineInput]
        rw [haccount, hcomputer]
        change (decryptWeakCipher ciphertext (craftConnectionKey library account computer username
          hostname)).bind decodePlaintext = _
        unfold craftConnectionKey
        rw [hdecrypts, Option.bind_some, decodePlaintext_a]
      rw [hconnection]
      rfl
    · cases hsessionP : file.misc.lookup "sessionp".toList with
      | none =>
        rw [hsessionP] at hsession
        cases hsession
      | some sessionP =>
        rw [hsessionP] at hsession
        obtain ⟨ciphertext, hne, halphabet, hdecrypts⟩ := exists_weakCiphertext
          (craftedKey_craftWeakKey [library.toUppercase (repeatToLength sessionP 20),
            library.toUppercase (repeatToLength sessionP 20),
            library.toLowercase (repeatToLength sessionP 20),
            library.toLowercase (repeatToLength sessionP 20)])
        refine ⟨ciphertext, hne, halphabet, hweak ciphertext hne halphabet (Or.inr ?_)⟩
        have hopens : decryptSessionP library
            (file.inlineInput masterPassword ciphertext username hostname) ciphertext = some ['a'] := by
          unfold decryptSessionP
          dsimp only [ParsedFile.inlineInput]
          have hkept : (some sessionP).filter (!·.isEmpty) = some sessionP :=
            Option.filter_some_pos hsession
          rw [hsessionP, hkept]
          change (decryptWeakCipher ciphertext (craftSessionPKey library sessionP)).bind
            decodePlaintext = _
          unfold craftSessionPKey
          rw [hdecrypts, Option.bind_some, decodePlaintext_a]
        rw [hopens]
        rfl

end Ciphertexts

/-! ### Values -/

/-- A session has no password of its own, or the given one. -/
def HasOnly (cipher : Str → Str → Str) (value : Str) : Prop :=
  ∀ target, targetOf value = .ok target →
    target.inlinePassword = none ∨ target.inlinePassword = some (cipher target.username target.host)

/-- A ciphertext for every user name and every host. -/
structure Ciphers (cipher : Str → Str → Str) : Prop where
  nonempty : ∀ username hostname, cipher username hostname ≠ []
  alphabet : ∀ username hostname, ∀ c ∈ cipher username hostname, c ∈ weakKeyAlphabet

/-- A value begins as another one, and ends as it does or with a character of the alphabet. -/
structure EndsAlike (value value' : Str) : Prop where
  head : value'.head? = value.head?
  last : value'.getLast? = value.getLast? ∨ ∃ c ∈ weakKeyAlphabet, value'.getLast? = some c
  subset : ∀ c ∈ value', c ∈ value ∨ c ∈ weakKeyAlphabet

/-- The older form of sessions has no passwords. -/
theorem inlinePassword_parseLegacySession {value : Str} {target : Target}
    (h : parseLegacySession value = some target) : target.inlinePassword = none := by
  unfold parseLegacySession at h
  dsimp only at h
  split at h
  · cases h
  · split at h
    · cases h
    · split at h
      · cases h
      · cases h
        rfl

/-- The password in a session is its fifth field. -/
theorem inlinePassword_parseStandardSession {value : Str} {target : Target}
    (h : parseStandardSession value = some target) :
    ∃ x y z rest, value.splitOn '#' = x :: y :: z :: rest ∧
      target.inlinePassword = ((z.splitOn '%')[4]?.map trim).filter (!·.isEmpty) := by
  unfold parseStandardSession at h
  dsimp only at h
  split at h
  · cases h
  · next hlong =>
    rw [Bool.or_eq_true, not_or, decide_eq_true_iff, not_lt] at hlong
    obtain ⟨x, y, z, rest, hsplit⟩ : ∃ x y z rest, value.splitOn '#' = x :: y :: z :: rest := by
      match value.splitOn '#', hlong.1 with
      | x :: y :: z :: rest, _ => exact ⟨x, y, z, rest, rfl⟩
    refine ⟨x, y, z, rest, hsplit, ?_⟩
    rw [hsplit] at h
    split at h
    · cases h
    · cases h
      rfl

/-- A session whose fifth field is empty, or that has none, has no password. -/
theorem hasOnly_or_fields (cipher : Str → Str → Str) (value : Str) :
    HasOnly cipher value ∨
      isStandardPrefix value = true ∧ ∃ x y z rest type host port username secret more,
        value.splitOn '#' = x :: y :: z :: rest ∧
        z.splitOn '%' = type :: host :: port :: username :: secret :: more ∧ trim secret ≠ [] := by
  by_cases hstandard : isStandardPrefix value = true
  · cases hparse : parseStandardSession value with
    | none =>
      refine Or.inl fun target htarget => ?_
      unfold targetOf at htarget
      rw [if_pos hstandard, hparse] at htarget
      cases htarget
    | some found =>
      obtain ⟨x, y, z, rest, hsplit, hinline⟩ := inlinePassword_parseStandardSession hparse
      -- a standard session whose fifth field is not blank
      cases hsecret : found.inlinePassword with
      | none =>
        refine Or.inl fun target htarget => Or.inl ?_
        unfold targetOf at htarget
        rw [if_pos hstandard, hparse] at htarget
        cases htarget
        exact hsecret
      | some trimmed =>
        rw [hsecret, eq_comm, Option.filter_eq_some_iff, Option.map_eq_some_iff] at hinline
        obtain ⟨⟨secret, hfifth, rfl⟩, hne⟩ := hinline
        obtain ⟨type, host, port, username, more, hfields⟩ : ∃ type host port username more,
            z.splitOn '%' = type :: host :: port :: username :: secret :: more := by
          match z.splitOn '%', hfifth with
          | type :: host :: port :: username :: _ :: more, rfl =>
            exact ⟨type, host, port, username, more, rfl⟩
        exact Or.inr ⟨hstandard, x, y, z, rest, type, host, port, username, secret, more, hsplit,
          hfields, by simpa using hne⟩
  · refine Or.inl fun target htarget => Or.inl ?_
    unfold targetOf at htarget
    rw [if_neg hstandard] at htarget
    -- the older form has no field for a password
    cases hparse : parseLegacySession value with
    | none =>
      rw [hparse] at htarget
      cases htarget
    | some found =>
      rw [hparse] at htarget
      cases htarget
      exact inlinePassword_parseLegacySession hparse

/-- A text with a piece of it replaced. -/
theorem EndsAlike.of_piece {before piece piece' after : Str} (hbefore : before ≠ [])
    (hpiece : piece' ≠ []) (halphabet : ∀ c ∈ piece', c ∈ weakKeyAlphabet) :
    EndsAlike (before ++ (piece ++ after)) (before ++ (piece' ++ after)) := by
  refine ⟨?_, ?_, ?_⟩
  · obtain ⟨c, before, rfl⟩ := List.exists_cons_of_ne_nil hbefore
    rfl
  -- what is behind the piece ends the text, or else the piece does
  · cases after with
    | nil =>
      refine Or.inr ⟨piece'.getLast hpiece, halphabet _ (List.getLast_mem hpiece), ?_⟩
      rw [List.append_nil, List.getLast?_append, List.getLast?_eq_some_getLast hpiece, Option.some_or]
    | cons c after =>
      left
      have hlast : ∀ text : Str, (before ++ (text ++ c :: after)).getLast? = (c :: after).getLast? := by
        intro text
        rw [List.getLast?_append, List.getLast?_append, List.getLast?_cons, Option.some_or,
          Option.some_or]
      rw [hlast, hlast]
  · intro c hc
    obtain hc | hc := List.mem_append.mp hc
    · exact Or.inl (List.mem_append_left _ hc)
    · obtain hc | hc := List.mem_append.mp hc
      · exact Or.inr (halphabet c hc)
      · exact Or.inl (List.mem_append_right _ (List.mem_append_right _ hc))

theorem not_mem_intercalate {separator c : Char} {pieces : List Str} (hc : c ≠ separator)
    (h : ∀ piece ∈ pieces, c ∉ piece) : c ∉ [separator].intercalate pieces := by
  cases pieces with
  | nil => exact List.not_mem_nil
  | cons piece pieces =>
    obtain ⟨hpiece, hpieces⟩ := List.forall_mem_cons.mp h
    rw [intercalate_cons_eq, List.mem_append, not_or]
    refine ⟨hpiece, fun hmem => ?_⟩
    obtain ⟨other, hother, hin⟩ := List.mem_flatMap.mp hmem
    exact (List.mem_cons.mp hin).elim hc (hpieces other hother)

/-- **The password in a session can be replaced** by one for its user name and its host. -/
theorem exists_planted {cipher : Str → Str → Str} (hcipher : Ciphers cipher) (value : Str) :
    HasOnly cipher value ∨
      ∃ value', InlineReplaced value value' ∧ HasOnly cipher value' ∧ EndsAlike value value' := by
  obtain hnone | ⟨hstandard, x, y, z, rest, type, host, port, username, secret, more, hsplit, hfields,
    hsecret⟩ := hasOnly_or_fields cipher value
  · exact Or.inl hnone
  let login := if (trim username).isEmpty || trim username = "<default>".toList then []
    else trim username
  let planted := cipher login (trim host)
  have halphabet : ∀ c ∈ planted, c ∈ weakKeyAlphabet := hcipher.alphabet _ _
  have hne : planted ≠ [] := hcipher.nonempty _ _
  have htrim : trim planted = planted := trim_alphabet halphabet
  let fields := type :: host :: port :: username :: planted :: more
  -- no piece of the session has a separator, and the ciphertext has none either
  have hfree : ∀ piece ∈ value.splitOn '#', '#' ∉ piece := fun _ => not_mem_of_mem_splitOn
  have hfreeFields : ∀ piece ∈ z.splitOn '%', '%' ∉ piece := fun _ => not_mem_of_mem_splitOn
  have hfields' : (['%'].intercalate fields).splitOn '%' = fields := by
    refine List.splitOn_intercalate '%' ?_ (List.cons_ne_nil _ _)
    rw [hfields] at hfreeFields
    simp only [List.forall_mem_cons] at hfreeFields
    simp only [fields, List.forall_mem_cons]
    obtain ⟨htype, hhost, hport, husername, -, hmore⟩ := hfreeFields
    exact ⟨htype, hhost, hport, husername, fun hc => (alphabet_plain (halphabet _ hc)).2.2.1 rfl, hmore⟩
  have hsplit' : (['#'].intercalate (x :: y :: ['%'].intercalate fields :: rest)).splitOn '#'
      = x :: y :: ['%'].intercalate fields :: rest := by
    refine List.splitOn_intercalate '#' ?_ (List.cons_ne_nil _ _)
    rw [hsplit] at hfree
    simp only [List.forall_mem_cons] at hfree ⊢
    obtain ⟨hx, hy, hz, hrest⟩ := hfree
    refine ⟨hx, hy, not_mem_intercalate (by decide) ?_, hrest⟩
    have hpieces : ∀ piece ∈ z.splitOn '%', '#' ∉ piece := fun piece hpiece hmem =>
      hz (mem_of_mem_splitOn hpiece hmem)
    rw [hfields] at hpieces
    simp only [List.forall_mem_cons] at hpieces
    simp only [fields, List.forall_mem_cons]
    obtain ⟨htype, hhost, hport, husername, -, hmore⟩ := hpieces
    exact ⟨htype, hhost, hport, husername, fun hc => (alphabet_plain (halphabet _ hc)).2.1 rfl, hmore⟩
  have hreplaced : InlineReplaced value (['#'].intercalate (x :: y :: ['%'].intercalate fields :: rest)) :=
    ⟨hstandard, x, y, z, _, rest, type, host, port, username, secret, planted, more, hsplit, hsplit',
      hfields, hfields', hsecret, by rw [htrim]; exact hne⟩
  refine Or.inr ⟨_, hreplaced, ?_, ?_⟩
  · intro target htarget
    unfold targetOf at htarget
    rw [if_pos hreplaced.standard, parseStandardSession_eq hreplaced.standard hsplit' hfields'
      (by rw [htrim]; exact hne)] at htarget
    split at htarget
    · next target' hparse =>
      cases htarget
      split at hparse
      · cases hparse
      · cases hparse
        exact Or.inr (congrArg some htrim)
    · cases htarget
  · have hvalue : ∀ piece : Str,
        ['#'].intercalate (x :: y :: ['%'].intercalate (type :: host :: port :: username :: piece :: more)
            :: rest)
          = (x ++ '#' :: (y ++ '#' :: (type ++ '%' :: (host ++ '%' :: (port ++ '%' :: (username
              ++ ['%'])))))) ++ (piece ++ (more.flatMap ('%' :: ·) ++ rest.flatMap ('#' :: ·))) := by
      intro piece
      simp [intercalate_cons_eq]
    have hbefore : value = ['#'].intercalate
        (x :: y :: ['%'].intercalate (type :: host :: port :: username :: secret :: more) :: rest) := by
      rw [← hfields, List.intercalate_splitOn, ← hsplit, List.intercalate_splitOn]
    rw [hbefore, hvalue secret, hvalue planted]
    exact EndsAlike.of_piece (by simp) hne halphabet

/-! ### Lines -/

/-- What is between the ends of a line that is an entry. -/
structure EntryLine (key value : Str) : Prop where
  key_ne : key ≠ []
  key_trim : trim key = key
  value_trim : trim value = value
  equals : '=' ∉ key
  semicolon : key.head? ≠ some ';'
  hash : key.head? ≠ some '#'
  header : key.head? = some '[' → value.getLast? ≠ some ']'

/-- A header is what stands between brackets. -/
theorem header_eq_some_iff {line name : Str} :
    (line.dropPrefix? ['[']).bind (·.dropSuffix? [']']) = some name
      ↔ line = '[' :: (name ++ [']']) := by
  rw [Option.bind_eq_some_iff]
  constructor
  · rintro ⟨rest, hrest, hname⟩
    obtain ⟨opening, rfl, hopening⟩ := List.dropPrefix?_eq_some_iff.mp hrest
    obtain ⟨closing, rfl, hclosing⟩ := List.dropSuffix?_eq_some_iff.mp hname
    rw [beq_iff_eq.mp hopening, beq_iff_eq.mp hclosing]
    rfl
  · rintro rfl
    exact ⟨name ++ [']'], List.dropPrefix?_eq_some_iff.mpr ⟨['['], rfl, beq_self_eq_true _⟩,
      List.dropSuffix?_eq_some_iff.mpr ⟨[']'], rfl, beq_self_eq_true _⟩⟩

section Ends

variable {key value : Str}

theorem head?_entry (hkey : key ≠ []) : (key ++ '=' :: value).head? = key.head? := by
  obtain ⟨c, key, rfl⟩ := List.exists_cons_of_ne_nil hkey
  rfl

theorem getLast?_entry : (key ++ '=' :: value).getLast? = value.getLast?.or (some '=') := by
  rw [List.getLast?_append, List.getLast?_cons]
  cases value with
  | nil => rfl
  | cons c value =>
    rw [List.getLast?_cons]
    rfl

/-- An entry that is a header begins with its key and ends with its value. -/
theorem entry_eq_header_iff (hkey : key ≠ []) :
    (∃ name, key ++ '=' :: value = '[' :: (name ++ [']'])) ↔
      key.head? = some '[' ∧ value.getLast? = some ']' := by
  constructor
  · rintro ⟨name, hname⟩
    -- the line begins with the key and ends with the value
    have hhead := @head?_entry key value hkey
    have hlast := @getLast?_entry key value
    rw [hname] at hhead hlast
    rw [← List.cons_append, List.getLast?_concat] at hlast
    refine ⟨hhead.symm, ?_⟩
    cases hvalue : value.getLast? with
    | none =>
      rw [hvalue] at hlast
      exact absurd hlast (by decide)
    | some c =>
      rw [hvalue, Option.some_or] at hlast
      exact hlast.symm
  · rintro ⟨hhead, hlast⟩
    obtain ⟨first, key, rfl⟩ := List.exists_cons_of_ne_nil hkey
    obtain rfl : first = '[' := Option.some.inj hhead
    obtain ⟨init, rfl⟩ := List.getLast?_eq_some_iff.mp hlast
    exact ⟨key ++ '=' :: init, by simp⟩

/-- An entry is read from its key and its value. -/
theorem EntryLine.lineOf_eq (h : EntryLine key value) :
    lineOf (key ++ '=' :: value) = .entry key value := by
  have hhead := @head?_entry key value h.key_ne
  -- neither end is blank
  have htrim : trim (key ++ '=' :: value) = key ++ '=' :: value := by
    refine trim_eq_self_of_ends (fun c hc => ?_) fun c hc => ?_
    · rw [hhead, ← h.key_trim] at hc
      exact isWhitespace_head?_trim hc
    · rw [getLast?_entry, Option.or_eq_some_iff] at hc
      obtain hc | ⟨-, hc⟩ := hc
      · rw [← h.value_trim] at hc
        exact isWhitespace_getLast?_trim hc
      · cases hc
        rfl
  -- and the line is not in brackets
  have hheader : ((key ++ '=' :: value).dropPrefix? ['[']).bind (·.dropSuffix? [']']) = none := by
    rw [Option.eq_none_iff_forall_not_mem]
    intro name hname
    obtain ⟨hopening, hclosing⟩ :=
      (entry_eq_header_iff h.key_ne).mp ⟨name, header_eq_some_iff.mp hname⟩
    exact h.header hopening hclosing
  unfold lineOf
  rw [htrim]
  dsimp only
  rw [hhead, hheader, splitOnce_append h.equals]
  dsimp only
  rw [h.key_trim, h.value_trim, List.isEmpty_eq_false_iff.mpr h.key_ne,
    List.isEmpty_eq_false_iff.mpr (by simp), decide_eq_false h.semicolon, decide_eq_false h.hash]
  rfl

end Ends

/-- **Entries are such lines**, of characters of the raw one. -/
theorem entryLine_of_lineOf {raw key value : Str} (h : lineOf raw = .entry key value) :
    EntryLine key value ∧ (∀ c ∈ key, c ∈ raw) ∧ ∀ c ∈ value, c ∈ raw := by
  unfold lineOf at h
  dsimp only at h
  split at h
  · cases h
  · next hstart =>
    rw [Bool.or_eq_true, Bool.or_eq_true, not_or, not_or, decide_eq_true_iff, decide_eq_true_iff]
      at hstart
    obtain ⟨⟨-, hsemicolon⟩, hhash⟩ := hstart
    split at h
    · cases h
    · next hheader =>
      split at h
      · cases h
      · next k v hsplit =>
        split at h
        · cases h
        · next hkey =>
          cases h
          rw [List.isEmpty_iff] at hkey
          obtain ⟨hline, hequals⟩ := eq_of_splitOnce hsplit
          have hk : k ≠ [] := by
            rintro rfl
            exact hkey rfl
          have hhead := @head?_entry k v hk
          rw [← hline] at hhead
          -- the line is trimmed, so that its key begins where it does, and its value ends there
          have hstart : trimStart k = k := trimStart_eq_self fun c hc =>
            isWhitespace_head?_trim (hhead.trans hc)
          have hkeyHead : ∀ c, (trim k).head? = some c → (trim raw).head? = some c := by
            intro c hc
            rw [trim, hstart] at hc
            exact hhead.trans (head?_trimEnd hc)
          have hvalueLast : ∀ c, (trim v).getLast? = some c → v.getLast? = some c := by
            intro c hc
            have hend : trimEnd (trimStart v) = trimStart v := trimEnd_eq_self fun d hd => by
              have hlast := @getLast?_entry k v
              rw [← hline, getLast?_trimStart hd, Option.some_or] at hlast
              exact isWhitespace_getLast?_trim hlast
            rw [trim, hend] at hc
            exact getLast?_trimStart hc
          have hmem : ∀ c ∈ k ++ '=' :: v, c ∈ raw := fun c hc =>
            mem_of_mem_trim (hline ▸ hc)
          refine ⟨⟨hkey, trim_trim k, trim_trim v, fun hc => hequals (mem_of_mem_trim hc),
            fun hc => hsemicolon (hkeyHead _ hc), fun hc => hhash (hkeyHead _ hc), ?_⟩,
            fun c hc => hmem c (List.mem_append_left _ (mem_of_mem_trim hc)),
            fun c hc => hmem c (List.mem_append_right _ (List.mem_cons_of_mem _ (mem_of_mem_trim hc)))⟩
          intro hopening hclosing
          obtain ⟨name, hname⟩ := (@entry_eq_header_iff k v hk).mpr
            ⟨hhead.symm.trans (hkeyHead _ hopening), hvalueLast _ hclosing⟩
          rw [hline, header_eq_some_iff.mpr hname] at hheader
          cases hheader

/-! ### Texts -/

/-- An entry is a session by its section and its key, if it is one at all. -/
def MayHoldSession (sectionName key : Str) : Prop :=
  asciiLower sectionName ≠ "passwords".toList ∧ asciiLower sectionName ≠ "credentials".toList ∧
    asciiLower sectionName ≠ "misc".toList ∧ asciiLower sectionName ≠ "sesspass".toList ∧
    eqIgnoreAsciiCase key "subrep".toList = false

section Texts

variable {cipher : Str → Str → Str} {sectionName : Str}

/-- The sessions of a file have no passwords of their own, or the given ones. -/
def ParsedFile.HasOnly (cipher : Str → Str → Str) (file : ParsedFile) : Prop :=
  ∀ entry ∈ file.sessions, Mobaxterm.HasOnly cipher entry.value

theorem ParsedFile.HasOnly.parseEntry {file : ParsedFile} (h : file.HasOnly cipher)
    {key value : Str} (hvalue : MayHoldSession sectionName key → Mobaxterm.HasOnly cipher value) :
    (file.parseEntry sectionName key value).HasOnly cipher := by
  unfold ParsedFile.parseEntry
  split
  · split
    · exact h
    · exact h
  · next hpasswords =>
    split
    · exact h
    · next hcredentials =>
      split
      · exact h
      · next hmisc =>
        split
        · exact h
        · next hsesspass =>
          split
          · exact h
          · split
            · split
              · exact h
              · exact h
            · next hsubrep =>
              split
              · exact h
              · intro entry hentry
                obtain hold | hnew := List.mem_append.mp hentry
                · exact h entry hold
                · rw [List.mem_singleton.mp hnew]
                  -- past all the other sections: the entry is a session of its own
                  exact hvalue ⟨hpasswords, hcredentials, hmisc, hsesspass,
                    Bool.eq_false_iff.mpr hsubrep⟩

/-- A line is replaced by one that leaves no other password in its session. -/
theorem exists_planted_line (hcipher : Ciphers cipher) (sectionName : Str) {raw : Str}
    (hraw : '\n' ∉ raw) :
    ∃ raw', '\n' ∉ raw' ∧ LineReplaced sectionName (lineOf raw) (lineOf raw') ∧
      ∀ file : ParsedFile, file.HasOnly cipher →
        (file.parseLine sectionName (lineOf raw')).HasOnly cipher := by
  cases hline : lineOf raw with
  | skipped =>
    refine ⟨raw, hraw, Or.inl hline.symm, fun file hfile => ?_⟩
    rw [hline]
    exact hfile
  | header name =>
    refine ⟨raw, hraw, Or.inl hline.symm, fun file hfile => ?_⟩
    rw [hline]
    exact hfile
  | entry key value =>
    obtain ⟨hentry, hkey, hvalue⟩ := entryLine_of_lineOf hline
    -- a line that is left alone adds what it added
    have hkept : (MayHoldSession sectionName key → HasOnly cipher value) →
        ∀ file : ParsedFile, file.HasOnly cipher →
          (file.parseLine sectionName (lineOf raw)).HasOnly cipher := by
      intro honly file hfile
      rw [hline]
      exact hfile.parseEntry honly
    by_cases hmay : MayHoldSession sectionName key
    · obtain honly | ⟨value', hreplaced, honly, hends⟩ := exists_planted hcipher value
      · exact ⟨raw, hraw, Or.inl hline.symm, hkept fun _ => honly⟩
      -- the new value begins and ends like the old one, so that the line is read as an entry again
      · have hentry' : EntryLine key value' := by
          refine { hentry with value_trim := ?_, header := ?_ }
          · refine trim_eq_self_of_ends (fun c hc => ?_) fun c hc => ?_
            · rw [hends.head, ← hentry.value_trim] at hc
              exact isWhitespace_head?_trim hc
            · obtain hlast | ⟨d, hd, hlast⟩ := hends.last
              · rw [hlast, ← hentry.value_trim] at hc
                exact isWhitespace_getLast?_trim hc
              · rw [hlast] at hc
                cases hc
                exact (alphabet_plain hd).1
          · intro hopening hclosing
            obtain hlast | ⟨d, hd, hlast⟩ := hends.last
            · exact hentry.header hopening (hlast.symm.trans hclosing)
            · rw [hlast] at hclosing
              cases hclosing
              exact (alphabet_plain hd).2.2.2.1 rfl
        obtain ⟨hpasswords, hcredentials, hmisc, hsesspass, hsubrep⟩ := hmay
        refine ⟨key ++ '=' :: value', ?_, ?_, fun file hfile => ?_⟩
        · rw [List.mem_append, List.mem_cons, not_or, not_or]
          refine ⟨fun hc => hraw (hkey _ hc), by decide, fun hc => ?_⟩
          obtain hold | hnew := hends.subset _ hc
          · exact hraw (hvalue _ hold)
          · exact (alphabet_plain hnew).2.2.2.2 rfl
        · refine Or.inr ⟨key, value, value', rfl, hentry'.lineOf_eq, hmisc, hsesspass, ?_⟩
          unfold ValueReplaced
          rw [if_neg hpasswords, if_neg hcredentials]
          exact ⟨hsubrep, hreplaced⟩
        · rw [hentry'.lineOf_eq]
          exact hfile.parseEntry fun _ => honly
    · exact ⟨raw, hraw, Or.inl hline.symm, hkept fun hholds => absurd hholds hmay⟩

/-- Lines are replaced one by one. -/
theorem exists_planted_lines (hcipher : Ciphers cipher) (sectionName : Str) {lines : List Str}
    (hlines : ∀ raw ∈ lines, '\n' ∉ raw) :
    ∃ lines', (∀ raw ∈ lines', '\n' ∉ raw) ∧ LinesReplaced sectionName lines lines' ∧
      ∀ file : ParsedFile, file.HasOnly cipher →
        (file.parseLines sectionName lines').HasOnly cipher := by
  induction lines generalizing sectionName with
  | nil => exact ⟨[], hlines, .nil sectionName, fun file hfile => hfile⟩
  | cons raw lines ih =>
    obtain ⟨hraw, hrest⟩ := List.forall_mem_cons.mp hlines
    obtain ⟨raw', hraw', hline, hparsed⟩ := exists_planted_line hcipher sectionName hraw
    obtain ⟨lines', hlines', hreplaced, hfile⟩ := ih (sectionAfter sectionName (lineOf raw)) hrest
    refine ⟨raw' :: lines', List.forall_mem_cons.mpr ⟨hraw', hlines'⟩, .cons hline hreplaced, ?_⟩
    intro file honly
    have hsection : sectionAfter sectionName (lineOf raw') = sectionAfter sectionName (lineOf raw) := by
      obtain heq | ⟨key, value, value', heq, heq', -⟩ := hline
      · rw [heq]
      · rw [heq, heq']
        rfl
    unfold ParsedFile.parseLines
    rw [hsection]
    exact hfile _ (hparsed file honly)

/-- **The sessions of a text** get other passwords, and nothing else is replaced. -/
theorem exists_planted_text (hcipher : Ciphers cipher) (text : Str) :
    ∃ text', TextReplaced text text' ∧ (ParsedFile.parse text').HasOnly cipher := by
  obtain ⟨lines', hlines', hreplaced, hparsed⟩ :=
    exists_planted_lines hcipher [] (not_mem_lines text)
  refine ⟨ofLines lines', ?_, ?_⟩
  · unfold TextReplaced
    rw [lines_ofLines hlines']
    exact hreplaced
  · unfold ParsedFile.parse
    rw [lines_ofLines hlines']
    exact hparsed _ fun entry hentry => absurd hentry List.not_mem_nil

end Texts

/-! ### Sources -/

/-- A text as a file in UTF-16. -/
def utf16File (text : Str) : List UInt8 :=
  0xff :: 0xfe :: (encodeUtf16 text).flatMap fun unit =>
    [UInt8.ofNat (unit % 256), UInt8.ofNat (unit / 256)]

theorem decodeText_utf16File (library : Library) (text : Str) :
    decodeText library (utf16File text) = some text := by
  have hunits : ∀ units : List ℕ, (∀ unit ∈ units, unit < 2 ^ 16) →
      utf16Units false (units.flatMap fun unit =>
        [UInt8.ofNat (unit % 256), UInt8.ofNat (unit / 256)]) = some units := by
    intro units hunits
    induction units with
    | nil => rfl
    | cons unit units ih =>
      obtain ⟨hunit, hrest⟩ := List.forall_mem_cons.mp hunits
      have hjoin : (UInt8.ofNat (unit % 256)).toNat + (UInt8.ofNat (unit / 256)).toNat * 256 = unit := by
        rw [UInt8.toNat_ofNat', UInt8.toNat_ofNat']
        omega
      change (utf16Units false (units.flatMap _)).map (_ :: ·) = _
      rw [ih hrest]
      change some (((UInt8.ofNat (unit % 256)).toNat + (UInt8.ofNat (unit / 256)).toNat * 256) :: units) = _
      rw [hjoin]
  change (utf16Units false _).bind decodeUtf16 = _
  rw [hunits _ (encodeUtf16_lt text), Option.bind_some, decodeUtf16_encodeUtf16]

end Mobaxterm
end Navop
