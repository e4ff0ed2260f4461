import NavopExtensions.Securecrt.Session

/-!
# Where an imported password comes from

A password that is imported is to come from a decryption. It does not in two cases, both by the field
`password` that a decrypted password of a credential is put into: without such a password the field is
the encrypted `Password` of the session, and with one it is trimmed (`password_decrypted_iff`).
-/

namespace Navop
namespace Securecrt

open Text

/-- The encrypted passwords of a file. -/
def encryptedValues (fields : Fields) : List Str :=
  [field fields "Password V2".toList, field fields "Password".toList].reduceOption

/-- The encrypted passwords of a session and of credentials. -/
def encryptedIn (session : Source) (credentials : List Source) : List Str :=
  encryptedValues (parseFields session.text)
    ++ credentials.flatMap fun source => encryptedValues (parseFields source.text)

section Provenance

variable (decrypt : Decrypt) (includePasswords : Bool) (passphrase : Str)

/-- No decryption of the values yields the text. -/
def Unproduced (values : List Str) (text : Str) : Prop :=
  ∀ value ∈ values, decrypt value passphrase ≠ .ok text

/-- The password of a record is what one of the encrypted values is decrypted to; a text in a file is
never a password by itself. -/
structure Decrypted (values : List Str) (record : ImportRecord) : Prop where
  included : ∀ password, record.password = some password → record.passwordStatus = "included" →
    ¬ Unproduced decrypt passphrase values password
  bare : (∀ password, Unproduced decrypt passphrase values password) → record.password = none

/-- The texts that are passed on as they are: the password of the credential that the session names, if
it has to be trimmed, or else the field `Password` of the session. -/
def PassedOn (fields : Fields) (credential : Option CredentialMetadata) (text : Str) : Prop :=
  match (credential.bind (·.password)).filter (!·.isEmpty) with
  | some password => trim password = text ∧ text ≠ password ∧ text ≠ []
  | none => field fields "Password".toList = some text

/-- A session that is imported with its password: for SSH, with a host, and without a key file. -/
structure LogsInByPassword (fields : Fields) : Prop where
  ssh : isSshProtocol ((field fields "Protocol Name".toList).getD []) = true
  host : (field fields "Hostname".toList).isSome = true
  identity : identityOf fields = none

/-! ### Fields -/

variable {decrypt includePasswords passphrase}

theorem field_insert_of_ne {fields : Fields} {key name : Str} (value : Str)
    (hne : asciiLower name ≠ key) : field (fields.insert key value) name = field fields name := by
  unfold field
  rw [Finmap.lookup_insert_of_ne _ hne]

theorem field_insert_self (fields : Fields) (name value : Str) :
    field (fields.insert (asciiLower name) value) name
      = (some (trim value)).filter (!·.isEmpty) := by
  unfold field
  rw [Finmap.lookup_insert]
  rfl

/-- What is not inserted stays as it was. -/
theorem field_insertField {fields : Fields} {entry : Option (Str × Str)} {name : Str}
    (hne : ∀ key value, entry = some (key, value) → asciiLower name ≠ key) :
    field (insertField fields entry) name = field fields name := by
  cases entry with
  | none => rfl
  | some entry => exact field_insert_of_ne entry.2 (hne entry.1 entry.2 rfl)

/-- The keys that `enrich_from_credential` may insert. -/
theorem key_of_usernameField {fields : Fields} {credential : CredentialMetadata} {key value : Str}
    (h : usernameField fields credential = some (key, value)) : key = "username".toList := by
  unfold usernameField at h
  split at h
  · obtain ⟨username, -, heq⟩ := Option.map_eq_some_iff.mp h
    exact (congrArg Prod.fst heq).symm
  · cases h

theorem key_of_passwordField {credential : CredentialMetadata} {key value : Str}
    (h : passwordField credential = some (key, value)) :
    key ∈ ["password".toList, "credential password error".toList,
      "credential encrypted password".toList] := by
  unfold passwordField at h
  split at h
  · cases h
    exact List.mem_cons_self
  · split at h
    · cases h
      exact List.mem_cons_of_mem _ List.mem_cons_self
    · split at h
      · cases h
        exact List.mem_cons_of_mem _ (List.mem_cons_of_mem _ List.mem_cons_self)
      · cases h

/-- Other fields are those of the session. -/
theorem field_enrich {fields : Fields} {credentials : Finmap fun _ : Str => CredentialMetadata}
    {name : Str} (husername : asciiLower name ≠ "username".toList)
    (hpassword : asciiLower name ∉ ["password".toList, "credential password error".toList,
      "credential encrypted password".toList]) :
    field (enrichFromCredential fields credentials) name = field fields name := by
  unfold enrichFromCredential
  split
  · rfl
  · rw [field_insertField, field_insertField]
    · intro key value h
      rw [key_of_usernameField h]
      exact husername
    · intro key value h heq
      exact hpassword (heq ▸ key_of_passwordField h)

/-- The field `password`: that of the credential if it has one, and that of the session otherwise. -/
theorem field_enrich_password {fields : Fields}
    {credentials : Finmap fun _ : Str => CredentialMetadata} :
    field (enrichFromCredential fields credentials) "password".toList
      = match ((credentialOf fields credentials).bind (·.password)).filter (!·.isEmpty) with
        | some password => (some (trim password)).filter (!·.isEmpty)
        | none => field fields "Password".toList := by
  unfold enrichFromCredential
  cases hcredential : credentialOf fields credentials with
  | none => rfl
  | some credential =>
    -- the username that is put in stands under another key
    have husername : field (insertField fields (usernameField fields credential)) "password".toList
        = field fields "Password".toList := by
      apply field_insertField
      intro key value h
      rw [key_of_usernameField h]
      decide
    change field (insertField _ (passwordField credential)) _ = match credential.password.filter _ with
      | some password => _
      | none => _
    cases hpassword : credential.password.filter (!·.isEmpty) with
    | some password =>
      -- the credential's password is put under `password`, which finds `Password` as well
      have hfield : passwordField credential = some ("password".toList, password) := by
        unfold passwordField
        rw [hpassword]
      rw [hfield]
      exact field_insert_self _ "password".toList password
    | none =>
      rw [← husername]
      apply field_insertField
      intro key value h
      unfold passwordField at h
      rw [hpassword] at h
      dsimp only at h
      split at h
      · cases h
        decide
      · split at h
        · cases h
          decide
        · cases h

/-! ### Credentials -/

/-- The password of a credential is what its file's value is decrypted to. -/
theorem produced_of_credential {sources : List Source} {key password : Str}
    {credential : CredentialMetadata}
    (hlookup : (credentialsOf decrypt includePasswords passphrase sources).lookup key
      = some credential) (hpassword : credential.password = some password) :
    ∃ source ∈ sources, ∃ value, ciphertextOf (parseFields source.text) = some value ∧
      decrypt value passphrase = .ok password := by
  induction sources using List.reverseRecOn with
  | nil => cases hlookup
  | append_singleton sources source ih =>
    unfold credentialsOf at hlookup
    rw [List.foldl_append, List.foldl_cons, List.foldl_nil] at hlookup
    -- the last credential of a name is the one that counts
    by_cases hkey : key = credentialKey source.path
    · rw [hkey, Finmap.lookup_insert] at hlookup
      refine ⟨source, List.mem_append_right _ (List.mem_singleton_self _), ?_⟩
      cases hlookup
      unfold credentialMetadata at hpassword
      dsimp only at hpassword
      split at hpassword
      · cases hpassword
      · split at hpassword
        · cases hpassword
        · next value hvalue =>
          split at hpassword
          · next found hdecrypt =>
            cases hpassword
            exact ⟨value, hvalue, hdecrypt⟩
          · cases hpassword
    · rw [Finmap.lookup_insert_of_ne _ hkey] at hlookup
      obtain ⟨other, hother, hvalue⟩ := ih hlookup
      exact ⟨other, List.mem_append_left _ hother, hvalue⟩

theorem mem_encryptedValues {fields : Fields} {value : Str} (h : ciphertextOf fields = some value) :
    value ∈ encryptedValues fields := by
  unfold encryptedValues
  rw [List.reduceOption_mem_iff]
  obtain hv2 | ⟨-, hv1⟩ := Option.or_eq_some_iff.mp h
  · rw [hv2]
    exact List.mem_cons_self
  · rw [hv1]
    exact List.mem_cons_of_mem _ List.mem_cons_self

/-! ### Records -/

/-- A record carries a password only if it has been resolved. -/
theorem password_authMethodOf {identity : Option Str} {resolved : ResolvedPassword} {password : Str} :
    (match authMethodOf identity resolved with
      | .password password => password
      | _ => none) = some password ↔ identity = none ∧ resolved = .included password := by
  cases identity with
  | some keyPath => exact iff_of_false (Option.some_ne_none password).symm (by simp)
  | none =>
    cases resolved with
    | included other => simp [authMethodOf, ResolvedPassword.hasCiphertext]
    | _ => simp [authMethodOf, ResolvedPassword.hasCiphertext]

/-- What a record of `ssh_record` carries. -/
theorem sshRecord_password_iff {sourceId name : Str} {fields : Fields} {port : Option ℕ}
    (password : Str) :
    (∃ record, (sshRecord decrypt includePasswords passphrase sourceId name fields port).1 = some record ∧
        record.password = some password) ↔
      LogsInByPassword fields ∧
        resolvePassword decrypt includePasswords passphrase fields = .included password := by
  unfold sshRecord
  by_cases hssh : isSshProtocol ((field fields "Protocol Name".toList).getD []) = true
  · rw [hssh]
    cases hhost : field fields "Hostname".toList with
    | none =>
      refine iff_of_false ?_ ?_
      · rintro ⟨record, hrecord, -⟩
        cases hrecord
      · rintro ⟨hlogin, -⟩
        have hsome := hlogin.host
        rw [hhost] at hsome
        exact absurd hsome Bool.false_ne_true
    | some host =>
      constructor
      · rintro ⟨record, hrecord, hpassword⟩
        cases hrecord
        -- a password goes into the record only if no identity file is named
        obtain ⟨hidentity, hresolved⟩ := password_authMethodOf.mp hpassword
        unfold resolvedOf at hresolved
        rw [hidentity] at hresolved
        exact ⟨⟨hssh, by rw [hhost]; rfl, hidentity⟩, hresolved⟩
      · rintro ⟨hlogin, hresolved⟩
        refine ⟨_, rfl, password_authMethodOf.mpr ⟨hlogin.identity, ?_⟩⟩
        unfold resolvedOf
        rw [hlogin.identity]
        exact hresolved
  · refine iff_of_false ?_ fun h => hssh h.1.ssh
    rw [Bool.not_eq_true] at hssh
    rw [hssh]
    rintro ⟨record, hrecord, -⟩
    cases hrecord

/-- A record that carries a password says so. -/
theorem status_of_password {sourceId name : Str} {fields : Fields} {port : Option ℕ}
    {record : ImportRecord} {password : Str}
    (hrecord : (sshRecord decrypt includePasswords passphrase sourceId name fields port).1 = some record)
    (hpassword : record.password = some password) : record.passwordStatus = "included" := by
  unfold sshRecord at hrecord
  split at hrecord
  · cases hrecord
  · split at hrecord
    · cases hrecord
    · cases hrecord
      obtain ⟨-, hresolved⟩ := password_authMethodOf.mp hpassword
      change (statusOf (resolvedOf decrypt includePasswords passphrase fields)).1 = _
      rw [hresolved]
      rfl

/-- The credentials that are read beside a session do not change how it logs in. -/
theorem logsInByPassword_enrich {fields : Fields}
    {credentials : Finmap fun _ : Str => CredentialMetadata} :
    LogsInByPassword (enrichFromCredential fields credentials) ↔ LogsInByPassword fields := by
  have hprotocol := @field_enrich fields credentials "Protocol Name".toList (by decide) (by decide)
  have hhost := @field_enrich fields credentials "Hostname".toList (by decide) (by decide)
  have hidentity : identityOf (enrichFromCredential fields credentials) = identityOf fields := by
    unfold identityOf
    rw [field_enrich (by decide) (by decide), field_enrich (by decide) (by decide)]
  constructor
  · rintro ⟨hssh, hsome, hnone⟩
    exact ⟨hprotocol ▸ hssh, hhost ▸ hsome, hidentity ▸ hnone⟩
  · rintro ⟨hssh, hsome, hnone⟩
    exact ⟨hprotocol.symm ▸ hssh, hhost.symm ▸ hsome, hidentity.symm ▸ hnone⟩

/-- A password of `resolve_password`: the field `password`, or what `Password V2` is decrypted to. -/
theorem resolvePassword_cases {fields : Fields} {password : Str}
    (h : resolvePassword decrypt includePasswords passphrase fields = .included password) :
    includePasswords = true ∧ (field fields "password".toList = some password ∨
      ∃ value, field fields "Password V2".toList = some value ∧
        decrypt value passphrase = .ok password) := by
  unfold resolvePassword at h
  cases includePasswords with
  | false =>
    simp only [Bool.not_false, ↓reduceIte] at h
    split at h
    · cases h
    · cases h
  | true =>
    refine ⟨rfl, ?_⟩
    simp only [Bool.not_true, Bool.false_eq_true, ↓reduceIte] at h
    split at h
    · next found hfound =>
      cases h
      exact Or.inl hfound
    · next hnone =>
      right
      split at h
      · cases h
      · split at h
        · split at h
          · cases h
          · cases h
        · next value hvalue =>
          split at h
          · next found hdecrypt =>
            cases h
            refine ⟨value, ?_, hdecrypt⟩
            obtain hv2 | ⟨-, hv1⟩ := Option.or_eq_some_iff.mp hvalue
            · exact hv2
            -- the older ciphertext would have been found as the password above
            · rw [show field fields "Password".toList = field fields "password".toList from rfl,
                hnone] at hv1
              cases hv1
          · cases h

/-- **Where the password of a record comes from**: it is passed on, or decrypted. -/
theorem origin_of_password {session : Source} {credentials : List Source} {password : Str}
    (h : resolvePassword decrypt includePasswords passphrase
      (enrichFromCredential (parseFields session.text)
        (credentialsOf decrypt includePasswords passphrase credentials)) = .included password) :
    includePasswords = true ∧
      (PassedOn (parseFields session.text) (credentialOf (parseFields session.text)
          (credentialsOf decrypt includePasswords passphrase credentials)) password ∨
        ¬ Unproduced decrypt passphrase (encryptedIn session credentials) password) := by
  obtain ⟨hinclude, horigin⟩ := resolvePassword_cases h
  refine ⟨hinclude, ?_⟩
  obtain hfield | ⟨value, hvalue, hdecrypt⟩ := horigin
  · rw [field_enrich_password] at hfield
    unfold PassedOn
    split at hfield
    · next original horiginal =>
      obtain ⟨htrim, hnonempty⟩ := Option.filter_eq_some_iff.mp hfield
      rw [Option.some.injEq] at htrim
      -- the credential's password is trimmed on its way
      by_cases hsame : password = original
      · -- nothing is trimmed: the text is what the credential is decrypted to
        right
        obtain ⟨hbind, -⟩ := Option.filter_eq_some_iff.mp horiginal
        obtain ⟨credential, hcredential, hpassword⟩ := Option.bind_eq_some_iff.mp hbind
        obtain ⟨title, -, hlookup⟩ := Option.bind_eq_some_iff.mp hcredential
        obtain ⟨source, hsource, value, hvalue, hdecrypt⟩ := produced_of_credential hlookup hpassword
        intro hnone
        refine hnone value ?_ (hsame ▸ hdecrypt)
        exact List.mem_append_right _
          (List.mem_flatMap.mpr ⟨source, hsource, mem_encryptedValues hvalue⟩)
      · refine Or.inl ⟨htrim, hsame, ?_⟩
        rintro rfl
        exact absurd hnonempty (by decide)
    · exact Or.inl hfield
  · right
    intro hnone
    refine hnone value ?_ hdecrypt
    rw [field_enrich (by decide) (by decide)] at hvalue
    refine List.mem_append_left _ ?_
    unfold encryptedValues
    rw [hvalue]
    exact List.mem_cons_self

/-- What is passed on is the password of the record. -/
theorem resolvePassword_of_passedOn {session : Source} {credentials : List Source} {text : Str}
    (h : PassedOn (parseFields session.text) (credentialOf (parseFields session.text)
      (credentialsOf decrypt true passphrase credentials)) text) :
    resolvePassword decrypt true passphrase
      (enrichFromCredential (parseFields session.text)
        (credentialsOf decrypt true passphrase credentials)) = .included text := by
  have hfield : field (enrichFromCredential (parseFields session.text)
      (credentialsOf decrypt true passphrase credentials)) "password".toList = some text := by
    rw [field_enrich_password]
    unfold PassedOn at h
    split at h
    · next original horiginal =>
      obtain ⟨htrim, -, hne⟩ := h
      rw [htrim]
      exact Option.filter_eq_some_iff.mpr ⟨rfl, by simpa using hne⟩
    · exact h
  unfold resolvePassword
  rw [hfield]
  rfl

variable (decrypt includePasswords passphrase)

/-- **When an imported password has been decrypted**: unless passwords are asked for, the session logs in
by password, and a text is passed on to it that no value is decrypted to. -/
theorem password_decrypted_iff (session : Source) (credentials : List Source) :
    (∀ record, importSession decrypt includePasswords passphrase session credentials = some record →
        Decrypted decrypt passphrase (encryptedIn session credentials) record) ↔
      ¬ (includePasswords = true ∧ LogsInByPassword (parseFields session.text) ∧
        ∃ text, PassedOn (parseFields session.text) (credentialOf (parseFields session.text)
            (credentialsOf decrypt includePasswords passphrase credentials)) text ∧
          Unproduced decrypt passphrase (encryptedIn session credentials) text) := by
  constructor
  · rintro hdecrypted ⟨rfl, hlogin, text, hpassed, hnone⟩
    obtain ⟨record, hrecord, hpassword⟩ := (sshRecord_password_iff text).mpr
      ⟨logsInByPassword_enrich.mpr hlogin, resolvePassword_of_passedOn hpassed⟩
    exact (hdecrypted record hrecord).included text hpassword
      (status_of_password hrecord hpassword) hnone
  · intro hnot record hrecord
    -- a password in a record was passed on unread, or was decrypted
    have horigin : ∀ password, record.password = some password →
        ¬ Unproduced decrypt passphrase (encryptedIn session credentials) password := by
      intro password hpassword
      obtain ⟨hlogin, hresolved⟩ := (sshRecord_password_iff password).mp ⟨record, hrecord, hpassword⟩
      obtain ⟨hinclude, hpassed | hproduced⟩ := origin_of_password hresolved
      · exact fun hnone => hnot ⟨hinclude, logsInByPassword_enrich.mp hlogin, password, hpassed, hnone⟩
      · exact hproduced
    refine ⟨fun password hpassword _ => horigin password hpassword, fun hnone => ?_⟩
    cases hpassword : record.password with
    | none => rfl
    | some password => exact absurd (hnone password) (horigin password hpassword)

end Provenance

/-- A session with the encrypted password `c9d42f89`, which cannot be decrypted: it is imported as the
password. -/
theorem ciphertext_imported :
    let decrypt : Decrypt := fun _ _ => .error .badLength
    let session : Source := ⟨"Sessions/web.ini".toList,
      "S:\"Protocol Name\"=SSH2\nS:\"Hostname\"=web\nS:\"Password\"=c9d42f89\n".toList⟩
    ∃ record, importSession decrypt true [] session [] = some record ∧
      record.password = some "c9d42f89".toList ∧ record.passwordStatus = "included" ∧
      ¬ Decrypted decrypt [] (encryptedIn session []) record := by
  intro decrypt session
  have himport : (importSession decrypt true [] session []).map
      (fun record => (record.password, record.passwordStatus))
        = some (some "c9d42f89".toList, "included") := by
    decide +kernel
  obtain ⟨record, hrecord, hfields⟩ := Option.map_eq_some_iff.mp himport
  have hpassword : record.password = some "c9d42f89".toList := congrArg Prod.fst hfields
  refine ⟨record, hrecord, hpassword, congrArg Prod.snd hfields, fun hdecrypted => ?_⟩
  have hnone := hdecrypted.bare fun password value _ hok => by cases hok
  rw [hpassword] at hnone
  cases hnone

end Securecrt
end Navop
