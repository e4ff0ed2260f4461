import NavopExtensions.Lib.Text

/-!
# SecureCRT sessions

Session and credential files are lists of fields, `S:"name"=value`. Their names are kept in lower case,
and `field` looks for a name in lower case. The password of a credential is decrypted when its file is
read, and is put beside the fields of every session that names the credential, as `password`: under the
name that the field `Password` of the session has in lower case.

How a password is decrypted is a parameter.
-/

namespace Navop
namespace Securecrt

open Text

/-- Texts are lists of characters. -/
abbrev Str := List Char

/-- The fields of a file. -/
abbrev Fields := Finmap fun _ : Str => Str

/-! ### Files -/

/-- The bytes of a text in hexadecimal digits. -/
def hexBytes : Str → Option (List ℕ)
  | [] => some []
  | high :: low :: rest => do
    let high ← digitValue 16 high
    let low ← digitValue 16 low
    let bytes ← hexBytes rest
    return (high * 16 + low) :: bytes
  | [_] => none

/-- The units of UTF-16 in little endian bytes. -/
def littleEndianUnits : List ℕ → Option (List ℕ)
  | [] => some []
  | low :: high :: rest => (littleEndianUnits rest).map ((low + 256 * high) :: ·)
  | [_] => none

/-- `trim_end_matches('\\0')`: the zeros at the end go. -/
def trimZeros (cs : Str) : Str := (cs.reverse.dropWhile (· = '\x00')).reverse

/-- `decode_value`: a text, or its length with its UTF-16 bytes in hexadecimal digits. -/
def decodeValue (value : Str) : Str :=
  let value := trim value
  match splitWhitespace value with
  | [] => []
  -- two words are a length, which is not looked at, and the bytes
  | [_, hex] =>
    match (hexBytes hex).bind littleEndianUnits with
    -- units that are no UTF-16 leave the text as it is written
    | some units => trimZeros ((decodeUtf16 units).getD value)
    | none => value
  | _ => value

/-- The field of a line. -/
def fieldOf (line : Str) : Option (Str × Str) :=
  match splitOnce '=' line with
  | none => none
  | some (key, value) =>
    let key := trim key
    -- other kinds of fields than texts and numbers are left out
    match ((key.dropPrefix? "S:\"".toList).or (key.dropPrefix? "D:\"".toList)).bind
        (·.dropSuffix? ['"']) with
    | none => none
    | some key => some (asciiLower key, decodeValue value)

/-- `parse_fields`: the fields under their keys in lower case, a later one in place of an earlier. -/
def parseFields (text : Str) : Fields :=
  ((lines text).map trim).foldl
    (fun fields line =>
      match fieldOf line with
      | some (key, value) => fields.insert key value
      | none => fields) ∅

/-- `field`: a trimmed value that is not empty, its key in any case. -/
def field (fields : Fields) (key : Str) : Option Str :=
  ((fields.lookup (asciiLower key)).map trim).filter (!·.isEmpty)

/-- `has_value`: a field that is there and is not blank. -/
def hasValue (fields : Fields) (key : Str) : Bool := (field fields key).isSome

/-! ### Passwords -/

/-- `DecryptError`: what is wrong with a ciphertext. -/
inductive DecryptError
  | notCiphertext
  | invalidHex
  | badLength
  | unknownPrefix
  | badPadding
  | badChecksum
  | notText
  deriving DecidableEq

/-- `reason`: as it is shown, and as it is carried from one record to another. -/
def DecryptError.reason : DecryptError → Str
  | .notCiphertext => "value is not a SecureCRT ciphertext".toList
  | .invalidHex => "ciphertext is not valid hex".toList
  | .badLength => "ciphertext length is invalid".toList
  | .unknownPrefix => "unknown SecureCRT cipher version prefix".toList
  | .badPadding => "padding check failed (a SecureCRT config passphrase is probably set)".toList
  | .badChecksum => "checksum mismatch (a SecureCRT config passphrase is probably set)".toList
  | .notText => "decrypted bytes are not valid UTF-8".toList

/-- `decode_reason`: whatever is not one of the reasons counts as a bad checksum. -/
def decodeReason (reason : Str) : DecryptError :=
  ([.notCiphertext, .invalidHex, .badLength, .unknownPrefix, .badPadding, .badChecksum,
    -- the error travels as its text, in a field of the session
    .notText].find? fun error => error.reason = reason).getD .badChecksum

/-- `decrypt_config_password`, of a value and a passphrase. -/
abbrev Decrypt := Str → Str → Except DecryptError Str

/-- `CredentialMetadata`: what a file of credentials says, and how its decryption went. -/
structure CredentialMetadata where
  username : Option Str
  hasCiphertext : Bool
  password : Option Str
  passwordError : Option DecryptError
  deriving DecidableEq

/-- `Password V2`, or else `Password`. -/
def ciphertextOf (fields : Fields) : Option Str :=
  (field fields "Password V2".toList).or (field fields "Password".toList)

section Sessions

variable (decrypt : Decrypt) (includePasswords : Bool) (passphrase : Str)

/-- `credential_metadata`: nothing is decrypted unless passwords are asked for. -/
def credentialMetadata (fields : Fields) : CredentialMetadata :=
  let ciphertext := ciphertextOf fields
  let metadata : CredentialMetadata :=
    ⟨field fields "Username".toList, ciphertext.isSome, none, none⟩
  -- that there is a ciphertext is told all the same
  if !includePasswords then metadata
  else
    match ciphertext with
    | none => metadata
    | some ciphertext =>
      match decrypt ciphertext passphrase with
      | .ok password => { metadata with password := some password }
      | .error error => { metadata with passwordError := some error }

/-- The last part of a path. -/
def fileName (path : Str) : Str := (path.reverse.takeWhile fun c => c ≠ '/' && c ≠ '\\').reverse

/-- `trim_end_matches`, at most as often as said. -/
def trimEndMatches (suffix : Str) : ℕ → Str → Str
  | 0, cs => cs
  | n + 1, cs =>
    match cs.dropSuffix? suffix with
    -- a suffix that is repeated goes as often as it stands there
    | some cs => trimEndMatches suffix n cs
    | none => cs

/-- `credential_key`: the name of the file without its extension, in lower case. -/
def credentialKey (path : Str) : Str :=
  let name := fileName path
  asciiLower (trimEndMatches ".INI".toList name.length (trimEndMatches ".ini".toList name.length name))

/-- A source: its path and its text. -/
structure Source where
  path : Str
  text : Str
  deriving DecidableEq

/-- The credentials of `preview_records_from_sources`: a later file in place of an earlier of its name. -/
def credentialsOf (sources : List Source) : Finmap fun _ : Str => CredentialMetadata :=
  sources.foldl
    (fun credentials source => credentials.insert (credentialKey source.path)
      -- every source counts as credentials here, also those that are sessions
      (credentialMetadata decrypt includePasswords passphrase (parseFields source.text))) ∅

/-- What `enrich_from_credential` adds for a password: itself, why it is not there, or that it is
there. -/
def passwordField (credential : CredentialMetadata) : Option (Str × Str) :=
  match credential.password.filter (!·.isEmpty) with
  | some password => some ("password".toList, password)
  | none =>
    -- a password that did not decrypt leaves a trace, so that the record can say so
    match credential.passwordError with
    | some error => some ("credential password error".toList, error.reason)
    | none =>
      if credential.hasCiphertext then
        some ("credential encrypted password".toList, "present".toList)
      else none

/-- What `enrich_from_credential` adds for a user name. -/
def usernameField (fields : Fields) (credential : CredentialMetadata) : Option (Str × Str) :=
  -- the user name of the session comes first
  if (field fields "Username".toList).isNone then
    (credential.username.filter (!·.isEmpty)).map ("username".toList, ·)
  else none

/-- `insert`, if there is something. -/
def insertField (fields : Fields) (entry : Option (Str × Str)) : Fields :=
  match entry with
  | some (key, value) => fields.insert key value
  | none => fields

/-- The credential that a session names. -/
def credentialOf (fields : Fields) (credentials : Finmap fun _ : Str => CredentialMetadata) :
    Option CredentialMetadata :=
  (field fields "Credential Title".toList).bind fun title => credentials.lookup (asciiLower title)

/-- `enrich_from_credential`: what the credential says goes over the fields of the session. -/
def enrichFromCredential (fields : Fields)
    (credentials : Finmap fun _ : Str => CredentialMetadata) : Fields :=
  match credentialOf fields credentials with
  | none => fields
  | some credential =>
    insertField (insertField fields (usernameField fields credential)) (passwordField credential)

/-- `ResolvedPassword`: whether there is a password, and what became of it. -/
inductive ResolvedPassword
  | notRequested
  | missing
  | included (password : Str)
  | failed (error : DecryptError)
  deriving DecidableEq

/-- `has_ciphertext`: there is one unless none was found. -/
def ResolvedPassword.hasCiphertext : ResolvedPassword → Bool
  | .missing => false
  | _ => true

/-- `has_session_password_material`: any of the fields that a password comes in. -/
def hasSessionPasswordMaterial (fields : Fields) : Bool :=
  hasValue fields "Password V2".toList || hasValue fields "Password".toList
    || hasValue fields "Credential Encrypted Password".toList || hasValue fields "password".toList
    || hasValue fields "credential password error".toList

/-- `resolve_password`: not asked for, given as a text, or decrypted. -/
def resolvePassword (fields : Fields) : ResolvedPassword :=
  if !includePasswords then
    if hasSessionPasswordMaterial fields then .notRequested else .missing
  else
    -- what the credential has put there; the keys of the file are in lower case as well
    match field fields "password".toList with
    | some password => .included password
    | none =>
      match field fields "credential password error".toList with
      | some reason => .failed (decodeReason reason)
      | none =>
        -- only then the session's own ciphertext
        match ciphertextOf fields with
        | none =>
          if hasValue fields "Credential Encrypted Password".toList then .notRequested else .missing
        | some ciphertext =>
          match decrypt ciphertext passphrase with
          | .ok password => .included password
          | .error error => .failed error

/-! ### Records -/

/-- `ImportWarning`: a code, and the text for the user. -/
structure ImportWarning where
  code : String
  message : Str
  deriving DecidableEq

/-- `SshImportAuthMethod`, as far as it is used. -/
inductive SshImportAuthMethod
  | password (password : Option Str)
  | privateKey (keyPath : Str)
  | autoPublicKey
  deriving DecidableEq

/-- `ImportRecord` of a session, without its id, its group and what is the same in all of them. -/
structure ImportRecord where
  sourceId : Str
  name : Str
  host : Str
  port : Option ℕ
  username : Str
  authMethod : SshImportAuthMethod
  passwordStatus : String
  warnings : List ImportWarning
  deriving DecidableEq

/-- The password that the imported host carries. -/
def ImportRecord.password (record : ImportRecord) : Option Str :=
  match record.authMethod with
  | .password password => password
  | _ => none

/-- `is_ssh_protocol`: one of three names, in any case. -/
def isSshProtocol (protocol : Str) : Bool :=
  asciiLower (trim protocol) ∈ ["ssh1".toList, "ssh2".toList, "ssh".toList]

/-- The key file of a session. -/
def identityOf (fields : Fields) : Option Str :=
  ((field fields "Identity Filename V2".toList).or (field fields "Identity File".toList)).filter
    (!·.isEmpty)

/-- The password of a session in `ssh_record`. -/
def resolvedOf (fields : Fields) : ResolvedPassword :=
  -- with a key file no password is decrypted
  if (identityOf fields).isSome then
    if hasSessionPasswordMaterial fields then .notRequested else .missing
  else resolvePassword decrypt includePasswords passphrase fields

/-- The way to log in, in `ssh_record`. -/
def authMethodOf (identity : Option Str) (resolved : ResolvedPassword) : SshImportAuthMethod :=
  match identity with
  | some keyPath => .privateKey keyPath
  | none =>
    -- a password that is not known is asked for later, which needs the method all the same
    if resolved.hasCiphertext then
      .password (match resolved with
        | .included password => some password
        | _ => none)
    else .autoPublicKey

/-- The status of a password, with a warning. -/
def statusOf : ResolvedPassword → String × List ImportWarning
  | .notRequested => ("unsupported", [])
  | .missing => ("missing", [])
  | .included _ => ("included", [])
  | .failed error => ("unsupported", [⟨"securecrt_password_decrypt_failed",
      "A SecureCRT password could not be decrypted, so it was not imported: ".toList ++ error.reason
        ++ ".".toList⟩])

/-- `ssh_record`, with its warnings: a session of another protocol has none. -/
def sshRecord (sourceId name : Str) (fields : Fields) (port : Option ℕ) :
    Option ImportRecord × List ImportWarning :=
  if !isSshProtocol ((field fields "Protocol Name".toList).getD []) then (none, [])
  else
    match field fields "Hostname".toList with
    | none => (none, [⟨"securecrt_ssh_hostname_missing",
        "A SecureCRT SSH session without a hostname was skipped: ".toList ++ sourceId⟩])
    | some host =>
      -- a session without a user name is imported, with an empty one
      let username := (field fields "Username".toList).getD []
      let resolved := resolvedOf decrypt includePasswords passphrase fields
      let (passwordStatus, warnings) := statusOf resolved
      (some ⟨sourceId, name, host, port, username, authMethodOf (identityOf fields) resolved,
        passwordStatus, warnings⟩, [])

/-- `parse_hex_port`: hexadecimal digits, within 16 bits. -/
def parseHexPort (value : Str) : Option ℕ :=
  (parseUnsigned 16 (2 ^ 32 - 1) (trim value)).filter (· ≤ 2 ^ 16 - 1)

/-- The port in a field. -/
def portOf (sourceId value : Str) : Option ℕ × List ImportWarning :=
  match parseHexPort value with
  | some port => (some port, [])
  | none => (some 22, [⟨"securecrt_ssh_port_invalid",
      "A SecureCRT SSH session had an invalid port and defaulted to 22: ".toList ++ sourceId⟩])

/-- `protocol_port`: the port of the protocol, then the port, and 22 if neither is there. -/
def protocolPort (fields : Fields) (protocol sourceId : Str) : Option ℕ × List ImportWarning :=
  match (fields.lookup ("[".toList ++ asciiLower protocol ++ "] port".toList)).or
      (fields.lookup "port".toList) with
  | some value => portOf sourceId value
  | none => (some 22, [])

/-- `session_name`: the last component, without the extension. -/
def sessionName (path : Str) : Str :=
  let name := fileName path
  ((name.dropSuffix? ".ini".toList).or (name.dropSuffix? ".INI".toList)).getD name

/-- `parse_session`, with its warnings: the credential goes over the fields before they are read. -/
def parseSession (source : Source) (credentials : Finmap fun _ : Str => CredentialMetadata) :
    Option ImportRecord × List ImportWarning :=
  let fields := enrichFromCredential (parseFields source.text) credentials
  let sourceId := source.path.map fun c => if c = '\\' then '/' else c
  let (port, portWarnings) :=
    protocolPort fields ((field fields "Protocol Name".toList).getD []) sourceId
  let (record, warnings) :=
    sshRecord decrypt includePasswords passphrase sourceId (sessionName source.path) fields port
  (record, portWarnings ++ warnings)

/-- The record of a session, beside credentials. -/
def importSession (session : Source) (credentials : List Source) : Option ImportRecord :=
  (parseSession decrypt includePasswords passphrase session
    (credentialsOf decrypt includePasswords passphrase credentials)).1

end Sessions

end Securecrt
end Navop
