import NavopExtensions.Lib.Text
import NavopExtensions.Mobaxterm.Decrypt

/-!
# The report on MobaXterm files

Passwords are decrypted when a file is read, if they are asked for, and are looked up by user name and
host for every session. The password in a session itself is decrypted with its session.
-/

namespace Navop
namespace Mobaxterm

open Text

/-! ### Ordered maps -/

section Maps

variable {β : Type*}

/-- A value of a map, kept in the order of the keys, is changed. -/
def alter (key : Str) (f : Option β → β) : List (Str × β) → List (Str × β)
  | [] => [(key, f none)]
  | (other, value) :: rest =>
    if other = key then (key, f (some value)) :: rest
    -- a `BTreeMap` iterates in the order of its keys
    else if key < other then (key, f none) :: (other, value) :: rest
    else (other, value) :: alter key f rest

end Maps

/-! ### Passwords -/

/-- `ImportWarning`: a code, and the text for the user. -/
structure ImportWarning where
  code : String
  message : Str
  deriving DecidableEq

/-- `PasswordStore`: what decrypted and what did not, by key and by user, and the key material of the
file. -/
structure PasswordStore where
  decrypted : List (Str × Str)
  undecrypted : List Str
  credentialsByUser : List (Str × List Str)
  failedCredentialUsers : List Str
  sessionP : Option Str
  sysUsername : Option Str
  sysHostname : Option Str
  masterPassword : Option Str
  attempted : Bool
  masterPasswordMissing : Bool
  fileWarnings : List ImportWarning
  deriving DecidableEq

/-- `strip_scheme_prefix`: letters, digits after them and a colon are taken off. -/
def stripSchemePrefix (value : Str) : Str :=
  let letters := value.takeWhile Char.isAlpha
  -- the port of the key may stand between the scheme and the colon
  let rest := (value.dropWhile Char.isAlpha).dropWhile Char.isDigit
  if letters.isEmpty then value
  else
    match rest with
    | ':' :: rest => rest
    | _ => value

/-- `parse_password_key`: the user name and the host. -/
def parsePasswordKey (raw : Str) : Option (Str × Str) :=
  -- the last `@` is the one in front of the host
  (rsplitOnce '@' (stripSchemePrefix (trim raw))).filter fun (username, hostname) =>
    !username.isEmpty && !hostname.isEmpty

/-- `same_host`, of a host that is there. -/
def sameHost (left right : Str) : Bool := eqIgnoreAsciiCase left right

/-- The keys of a host in `scan_matching`, for any user name. -/
def hostKeys (keys : List Str) (hostname : Str) : List (Str × Str) :=
  keys.filterMap fun key =>
    match parsePasswordKey key with
    | some (username, host) => if sameHost host hostname then some (key, username) else none
    | none => none

/-- `scan_matching`: the first key of the user and the host, or the only key of the host. -/
def scanMatching (keys : List Str) (username hostname : Str) : Option Str :=
  -- without a user name the host has to decide, and it does only alone
  if username.isEmpty then
    match hostKeys keys hostname with
    | [(key, _)] => some key
    | _ => none
  else ((hostKeys keys hostname).find? fun (_, parsed) => parsed = username).map Prod.fst

/-- `password_key_candidates`: the three ways to write a login, in the order they are tried. -/
def passwordKeyCandidates (username hostname : Str) (port : Option ℕ) : List Str :=
  let login := username ++ "@".toList ++ hostname
  -- a port that is not given is 22
  [login, "ssh".toList ++ (toString (port.getD 22)).toList ++ ":".toList ++ login,
    "ssh:".toList ++ login]

namespace PasswordStore

variable (library : Library)

/-- The warning for passwords in the registry. -/
def registryWarning : ImportWarning :=
  ⟨"mobaxterm_passwords_in_windows_registry",
    ("MobaXterm saved its passwords in the Windows registry, so this " ++
      "configuration file has no credentials to import.").toList⟩

/-- The store before the passwords are looked at. -/
def start (file : ParsedFile) (masterPassword : Option Str) : PasswordStore where
  decrypted := []
  undecrypted := []
  credentialsByUser := []
  failedCredentialUsers := []
  sessionP := file.misc.lookup "sessionp".toList
  sysUsername := file.misc.lookup "mpsetaccount".toList
  sysHostname := file.misc.lookup "mpsetcomputer".toList
  -- an empty master password is none
  masterPassword := masterPassword.filter (!·.isEmpty)
  attempted := false
  masterPasswordMissing := false
  fileWarnings := []

/-- The passwords are not decrypted, but they are there. -/
def undecryptedOnly (store : PasswordStore) (file : ParsedFile) : PasswordStore :=
  { store with
    undecrypted := store.undecrypted ++ file.passwords.map Prod.fst
    failedCredentialUsers := store.failedCredentialUsers ++ file.credentials.map Prod.fst }

/-- A password of `[Passwords]`: a later one with the same key takes the place of the earlier. -/
def addPassword (masterPassword : Option Str) (store : PasswordStore) (entry : Str × Str) :
    PasswordStore :=
  -- the key material of the entry comes from its own key
  let parsed := parsePasswordKey entry.1
  match library.decryptStoredSecret ⟨entry.2, masterPassword, store.sessionP, store.sysUsername,
      store.sysHostname, parsed.map Prod.fst, parsed.map Prod.snd⟩ with
  | some plaintext => { store with decrypted := alter entry.1 (fun _ => plaintext) store.decrypted }
  | none => { store with undecrypted := store.undecrypted ++ [entry.1] }

/-- A password of `[Credentials]`: those of one user are collected. -/
def addCredential (masterPassword : Option Str) (store : PasswordStore) (entry : Str × Str) :
    PasswordStore :=
  match library.decryptStoredSecret ⟨entry.2, masterPassword, store.sessionP, store.sysUsername,
      -- a credential is under a user name, and no host is known for it
      store.sysHostname, none, none⟩ with
  | some plaintext =>
    { store with
      credentialsByUser := alter entry.1 (·.getD [] ++ [plaintext]) store.credentialsByUser }
  | none => { store with failedCredentialUsers := store.failedCredentialUsers ++ [entry.1] }

/-- `PasswordStore::build`: the passwords, then the credentials, unless they are in the registry or not
asked for. -/
def build (file : ParsedFile) (includePasswords : Bool) (masterPassword : Option Str) :
    PasswordStore :=
  let store := start file masterPassword
  let hasCiphertext := !file.passwords.isEmpty || !file.credentials.isEmpty
  let passwordsInRegistry := (file.misc.lookup "passwordsinregistry".toList).any
    fun value => trim value = "1".toList
  -- nothing was written to the file, which only a warning can tell
  if passwordsInRegistry && !hasCiphertext then { store with fileWarnings := [registryWarning] }
  else if !hasCiphertext then store
  else if !includePasswords then store.undecryptedOnly file
  -- with a master password set nothing decrypts without it
  else if file.hasSesspass && masterPassword.isNone then
    { store with masterPasswordMissing := true }.undecryptedOnly file
  else
    let store := { store with attempted := true }
    let store := file.passwords.foldl (addPassword library masterPassword) store
    file.credentials.foldl (addCredential library masterPassword) store

/-- `lookup`: a key written exactly, then a key that matches, then the one credential of the user. -/
def lookup (store : PasswordStore) (username hostname : Str) (port : Option ℕ) : Option Str :=
  let candidates := if username.isEmpty then [] else passwordKeyCandidates username hostname port
  match candidates.findSome? (List.lookup · store.decrypted) with
  | some value => some value
  | none =>
    match scanMatching (store.decrypted.map Prod.fst) username hostname with
    | some key => List.lookup key store.decrypted
    | none =>
      if username.isEmpty then none
      else
        match List.lookup username store.credentialsByUser with
        -- two credentials of one user leave it open which one is meant
        | some [value] => some value
        | _ => none

/-- `has_unresolved_password`: a password that did not decrypt would have been this login's. -/
def hasUnresolvedPassword (store : PasswordStore) (username hostname : Str) (port : Option ℕ) :
    Bool :=
  (!username.isEmpty
      && (passwordKeyCandidates username hostname port).any (· ∈ store.undecrypted))
    || (scanMatching store.undecrypted username hostname).isSome
    || (!username.isEmpty && decide (username ∈ store.failedCredentialUsers))

/-- `decrypt_inline`: the fifth field, with the session's own login as key material. -/
def decryptInline (store : PasswordStore) (ciphertext username hostname : Str) : Option Str :=
  library.decryptStoredSecret ⟨ciphertext, store.masterPassword, store.sessionP, store.sysUsername,
    store.sysHostname, some username, some hostname⟩

end PasswordStore

/-! ### Records -/

/-- `SshImportAuthMethod`, as far as it is used. -/
inductive SshImportAuthMethod
  | password (password : Option Str)
  | autoPublicKey
  deriving DecidableEq

/-- `ImportRecord`, without what is the same in all of them. -/
structure ImportRecord where
  id : Str
  sourceId : Str
  name : Str
  host : Str
  port : Option ℕ
  username : Str
  groupPath : Option Str
  authMethod : SshImportAuthMethod
  passwordStatus : String
  warnings : List ImportWarning
  deriving DecidableEq

/-- The password that a record carries. -/
def ImportRecord.password (record : ImportRecord) : Option Str :=
  match record.authMethod with
  | .password password => password
  | .autoPublicKey => none

/-- `SessionOutcome`: a record, a session of another kind, or nothing that can be used. -/
inductive SessionOutcome
  | record (record : ImportRecord)
  | skipped (label : Str)
  | unusable
  deriving DecidableEq

section Report

variable (library : Library)

/-- The loop of `slug`: a run of other characters gives one dash, and none at the front. -/
def slugLoop (out : Str) (lastDash : Bool) : Str → Str
  | [] => out
  | c :: cs =>
    if c.isAlphanum then slugLoop (out ++ [c]) false cs
    -- a run of other characters gives one dash
    else if !lastDash && !out.isEmpty then slugLoop (out ++ ['-']) true cs
    else slugLoop out lastDash cs

/-- `slug`: lower case, without a closing dash, and `session` for nothing. -/
def slug (value : Str) : Str :=
  let out := slugLoop [] false (value.flatMap library.lowercase)
  let out := (out.reverse.dropWhile (· = '-')).reverse
  if out.isEmpty then "session".toList else out

/-- `stable_hash`: FNV-1a over the bytes, in 64 bits. -/
def stableHash (value : Str) : UInt64 :=
  (utf8Bytes value).foldl
    (fun hash byte => (hash ^^^ byte.toUInt64) * 0x100000001b3) 0xcbf29ce484222325

/-- Sixteen hexadecimal digits, zeros in front. -/
def hex16 (n : ℕ) : Str :=
  let digits := Nat.toDigits 16 n
  List.replicate (16 - digits.length) '0' ++ digits

/-- `record_id`: a readable part, and the hash that tells two sources apart. -/
def recordId (sourceId : Str) : Str :=
  "mobaxterm:".toList ++ slug library sourceId ++ "-".toList ++ hex16 (stableHash sourceId).toNat

/-- The source of a session. -/
def sourceIdOf (path : Str) (entry : SessionEntry) : Str :=
  -- a session in front of the first section has no section to name
  if entry.sectionName.isEmpty then path ++ "#".toList ++ entry.key
  else path ++ "#".toList ++ entry.sectionName ++ "#".toList ++ entry.key

/-- Where a session leads, in `session_record`. -/
def targetOf (value : Str) : Except SessionOutcome Target :=
  if isStandardPrefix value then
    match parseStandardSession value with
    | some target => .ok target
    -- the only standard sessions that lead somewhere are those of SSH
    | none => .error (.skipped (describeSessionType (standardSessionType value)))
  else
    match parseLegacySession value with
    | some target => .ok target
    -- a legacy session without a target is not counted as skipped
    | none => .error .unusable

/-- How to log in, in `session_record`, with the status of the password and a warning. -/
def loginOf (store : PasswordStore) (resolved : Option Str) (hasUnresolved : Bool) :
    SshImportAuthMethod × String × List ImportWarning :=
  match resolved with
  | some password => (.password (some password), "included", [])
  | none =>
    if hasUnresolved then
      (.password none, "unsupported",
        -- one warning says what the user can do about all of them
        if store.masterPasswordMissing then
          [⟨"mobaxterm_master_password_required",
            ("These MobaXterm passwords are protected by a master password. " ++
              "Enter it to import credentials.").toList⟩]
        -- not asked for is no failure, and no warning
        else if store.attempted then
          [⟨"mobaxterm_password_decrypt_failed",
            "A stored MobaXterm password could not be decrypted and was skipped.".toList⟩]
        else [])
    else (.autoPublicKey, "missing", [])

/-- The record of a session that leads somewhere. -/
def recordOf (path : Str) (entry : SessionEntry) (group : Option Str) (store : PasswordStore)
    (target : Target) : ImportRecord :=
  let (label, keyGroup) := sessionLabelAndGroup entry.key
  let sourceId := sourceIdOf path entry
  -- the stored passwords come before the one in the session itself
  let resolved := (store.lookup target.username target.host target.port).or
    (target.inlinePassword.bind fun ciphertext =>
      store.decryptInline library ciphertext target.username target.host)
  let hasUnresolved := target.inlinePassword.isSome
    || store.hasUnresolvedPassword target.username target.host target.port
  let (authMethod, passwordStatus, warnings) := loginOf store resolved hasUnresolved
  ⟨recordId library sourceId, sourceId, label, target.host, target.port, target.username,
    -- the folders in the key say more than the section does
    keyGroup.or group, authMethod, passwordStatus, warnings⟩

/-- `session_record`: the record of a session that has a host. -/
def sessionRecord (path : Str) (entry : SessionEntry) (group : Option Str) (store : PasswordStore) :
    SessionOutcome :=
  match targetOf entry.value with
  | .error outcome => outcome
  | .ok target =>
    if target.host.isEmpty then .unusable else .record (recordOf library path entry group store target)

/-- The counts of the sessions that were skipped. -/
abbrev Counts := List (Str × ℕ)

/-- Some more sessions were skipped. -/
def Counts.add (counts : Counts) (label : Str) (count : ℕ) : Counts :=
  alter label (fun before => before.getD 0 + count) counts

/-- `skipped_warnings`: one warning, with the number of each kind. -/
def skippedWarnings (skipped : Counts) : List ImportWarning :=
  if skipped.isEmpty then []
  else
    let total := (skipped.map Prod.snd).sum
    let detail := ", ".toList.intercalate
      (skipped.map fun (label, count) => label ++ " ×".toList ++ (toString count).toList)
    [⟨"mobaxterm_non_ssh_sessions_skipped",
      (toString total).toList ++ " non-SSH session(s) were skipped (".toList ++ detail
        ++ ("). Only SSH, database and port-forwarding connections can be imported, so MobaXterm " ++
          "RDP/VNC/telnet/FTP sessions are not carried over.").toList⟩]

/-- `FileReport` and `PreviewReport`, of any kind of records. -/
structure Report (α : Type*) where
  records : List α
  skipped : Counts
  deriving DecidableEq

/-- The record of an outcome. -/
def SessionOutcome.record? : SessionOutcome → Option ImportRecord
  | .record found => some found
  | _ => none

/-- The labels of the sessions that were skipped, counted. -/
def skippedOf (outcomes : List SessionOutcome) : Counts :=
  outcomes.foldl (fun counts outcome =>
    match outcome with
    | .skipped label => counts.add label 1
    | _ => counts) []

/-- The warnings about a file are put before those of its first record. -/
def attachWarnings (warnings : List ImportWarning) : List ImportRecord → List ImportRecord
  -- without a record there is nothing to attach them to
  | [] => []
  | first :: records => { first with warnings := warnings ++ first.warnings } :: records

/-- What the sessions of a file come to. -/
def outcomesOf (path : Str) (file : ParsedFile) (store : PasswordStore) : List SessionOutcome :=
  file.sessions.map fun entry =>
    sessionRecord library path entry (file.sectionGroups.lookup entry.sectionName) store

/-- `parse_file_report`: the records of a file with the warnings of its sessions and its passwords. -/
def parseFileReport (includePasswords : Bool) (masterPassword : Option Str) (path text : Str) :
    Report ImportRecord :=
  let file := ParsedFile.parse text
  let store := PasswordStore.build library file includePasswords masterPassword
  let outcomes := outcomesOf library path file store
  let skipped := skippedOf outcomes
  ⟨attachWarnings (skippedWarnings skipped ++ store.fileWarnings)
    (outcomes.filterMap SessionOutcome.record?), skipped⟩

/-! ### Sources -/

/-- `MAX_MOBATXTERM_SESSIONS`: the sessions that are read at most. -/
def maxSessions : ℕ := 8192

section Loop

variable {α : Type*} (id : α → Str)

/-- The records with new ids are kept. -/
def keepNew (kept records : List α) : List α :=
  records.foldl (fun kept record =>
    -- `HashSet::insert` is false for an id that is there
    if id record ∈ kept.map id then kept else kept ++ [record]) kept

/-- The loop of `preview_report_from_sources`, over the reports on the files. -/
def previewFrom (report : Report α) : List (Report α) → Report α
  | [] => report
  | file :: files =>
    let report : Report α := ⟨keepNew id report.records file.records,
      file.skipped.foldl (fun counts (label, count) => counts.add label count) report.skipped⟩
    -- the bound is looked at after a whole file, so that it may be passed
    if maxSessions ≤ report.records.length then report else previewFrom report files

end Loop

/-- The units of UTF-16. -/
def utf16Units (bigEndian : Bool) : List UInt8 → Option (List ℕ)
  | [] => some []
  | first :: second :: rest =>
    (utf16Units bigEndian rest).map
      ((if bigEndian then first.toNat * 256 + second.toNat
        else first.toNat + second.toNat * 256) :: ·)
  | [_] => none

/-- `decode_text`: by the byte order mark, or else UTF-8, GB18030 and Windows-1252, the first that takes the
bytes. -/
def decodeText (bytes : List UInt8) : Option Str :=
  match bytes with
  | 0xff :: 0xfe :: rest => (utf16Units false rest).bind decodeUtf16
  | 0xfe :: 0xff :: rest => (utf16Units true rest).bind decodeUtf16
  | _ =>
    match fromUtf8 bytes with
    -- a byte order mark of UTF-8 is a character of the text
    | some text => some (text.dropWhile (· = '\ufeff'))
    | none => some ((library.gb18030 bytes).getD (library.windows1252 bytes))

/-- A source: its path and its bytes. -/
structure Source where
  path : Str
  bytes : List UInt8
  deriving DecidableEq

/-- The texts of the sources that can be read, with their paths. -/
def textsOf (sources : List Source) : List (Str × Str) :=
  sources.filterMap fun source => (decodeText library source.bytes).map (source.path, ·)

/-- `preview_report_from_sources`: the files in turn, of two records with one id the first. -/
def previewReportFromSources (sources : List Source) (includePasswords : Bool)
    (masterPassword : Option Str) : Report ImportRecord :=
  previewFrom ImportRecord.id ⟨[], []⟩ ((textsOf library sources).map fun (path, text) =>
    parseFileReport library includePasswords masterPassword path text)

end Report

end Mobaxterm
end Navop
