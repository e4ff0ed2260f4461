import NavopExtensions.Importers.Common
import NavopExtensions.Lib.Text

/-!
# Sessions of WindTerm

`preview_records_from_session_files` of `windterm-importer`. Reading a file's JSON is a parameter; of
the values in it the importer looks at the few things that `Json` has.
-/

namespace Navop
namespace Windterm

open Text Importers

/-- `serde_json::Value`, as far as it is looked at: the value of a number is what `as_u64` gives, and
arrays and objects are empty or not. -/
inductive Json
  | null
  | bool (value : Bool)
  | number (asU64 : Option ℕ)
  | string (value : Str)
  | array (isEmpty : Bool)
  | object (isEmpty : Bool)

/-- `WindTermSession`: the members of an object of `user.sessions` that the importer reads. -/
structure WindTermSession where
  uuid : Option Str := none
  protocol : Option Str := none
  label : Option Str := none
  group : Option Str := none
  target : Option Str := none
  port : Option Json := none
  user : Option Str := none
  description : Option Str := none
  autoLogin : Option Json := none
  sshAutoLogin : Option Json := none
  identityFilePath : Option Str := none
  agent : Option Json := none
  authAgent : Option Json := none
  authPassword : Option Json := none
  autoExecution : Option Str := none
  proxy : Option Json := none
  proxyHost : Option Str := none
  jumpServer : Option Json := none
  tunnels : Option Json := none

/-- The libraries that the importer uses. -/
structure Library where
  /-- `char::to_lowercase`. -/
  lowercase : Char → Str
  /-- `serde_json::from_slice` of a list of sessions. -/
  sessions : List UInt8 → Option (List WindTermSession)

/-- `ImportWarning`: a code, and the text for the user. -/
structure ImportWarning where
  code : String
  message : String
  deriving DecidableEq

/-- `ImportRecord`, without what is the same in all of them. -/
structure ImportRecord where
  id : Str
  sourceId : Str
  name : Str
  host : Str
  port : Option ℕ
  username : Str
  authMethod : SshImportAuthMethod
  initScript : Option Str
  passwordStatus : String
  warnings : List ImportWarning
  deriving DecidableEq

/-- `ParsedTarget`: what a target says of host, user and port, and whether it held a password. -/
structure ParsedTarget where
  host : Str
  username : Option Str
  port : Option ℕ
  inlinePasswordIgnored : Bool

/-! ### Values -/

/-- `trimmed`: the trimmed text, and the empty one for none. -/
def trimmed (value : Option Str) : Str := trim (value.getD [])

/-- `parse_port`: a number or a text, within 16 bits. -/
def parsePort : Option Json → Option ℕ
  | some (.number asU64) => asU64.filter (· ≤ 65535)
  | some (.string value) => parseU16 (trim value)
  | _ => none

/-- `truthy`: `true`, a number other than zero, or one of three words. -/
def truthy : Option Json → Bool
  | some (.bool value) => value
  | some (.number asU64) => asU64.any (· ≠ 0)
  | some (.string value) =>
    asciiLower (trim value) ∈ ["1".toList, "true".toList, "yes".toList]
  | _ => false

/-- `has_data`: whatever is not empty, `false` or zero in its kind. -/
def hasData : Option Json → Bool
  | none => false
  | some .null => false
  | some (.bool value) => value
  | some (.number asU64) => asU64.any (· ≠ 0)
  | some (.string value) => !(trim value).isEmpty
  | some (.array isEmpty) => !isEmpty
  | some (.object isEmpty) => !isEmpty

/-! ### Targets -/

/-- `parse_host_port`: an address in brackets, a host with a port behind its one colon, or a host. -/
def parseHostPort (value : Str) : Option (Str × Option ℕ) :=
  let value := trim value
  match value.dropPrefix? ['['] with
  | some rest =>
    match splitOnce ']' rest with
    | none => none
    | some (host, suffix) =>
      if host.isEmpty then none else some (host, (suffix.dropPrefix? [':']).bind parseU16)
  | none =>
    let whole := (nonEmpty (some value)).map fun host => (host, none)
    if value.count ':' = 1 then
      match rsplitOnce ':' value with
      | none => none
      | some (host, port) =>
        match parseU16 port with
        | some port => (nonEmpty (some host)).map fun host => (host, some port)
        | none => whole
    else whole

/-- `parse_target`: the scheme, a path, and what stands before the last `@` are taken off. -/
def parseTarget (value : Str) : Option ParsedTarget := do
  let value := trim value
  if value.isEmpty then none
  let value :=
    ((value.dropPrefix? "ssh://".toList).or (value.dropPrefix? "SSH://".toList)).getD value
  let value := value.takeWhile (· ≠ '/')
  let (userInfo, hostPort) :=
    match rsplitOnce '@' value with
    | some (user, host) => (some user, host)
    | none => (none, value)
  let (username, inlinePasswordIgnored) :=
    match userInfo with
    | none => (none, false)
    | some userInfo =>
      match splitOnce ':' userInfo with
      | some (user, _) => (nonEmpty (some user), true)
      | none => (nonEmpty (some userInfo), false)
  let (host, port) ← parseHostPort hostPort
  return ⟨host, username, port, inlinePasswordIgnored⟩

section Preview

variable (library : Library)

/-- `slug`: that of the importers, `session` for nothing. -/
def slug (value : Str) : Str := Importers.slug library.lowercase "session".toList value

/-- The port of a session. -/
def portOf (session : WindTermSession) (target : ParsedTarget) : Option ℕ :=
  ((parsePort session.port).or target.port).or (some 22)

/-- How to log in. -/
def authMethodOf (session : WindTermSession) : SshImportAuthMethod :=
  match nonEmpty session.identityFilePath with
  | some keyPath => .privateKey keyPath none
  | none =>
    if truthy session.agent || truthy session.authAgent then .agent
    else if truthy session.authPassword then .password none
    else .autoPublicKey

/-- Whether a session has a login that WindTerm has encrypted. -/
def encryptedAutoLogin (session : WindTermSession) : Bool :=
  hasData session.autoLogin || hasData session.sshAutoLogin

/-- A warning, if there is a reason for it. -/
def warningIf (condition : Bool) (code message : String) : List ImportWarning :=
  if condition then [⟨code, message⟩] else []

/-- The warnings about a session. -/
def warningsOf (session : WindTermSession) (target : ParsedTarget) (username : Str) :
    List ImportWarning :=
  warningIf (encryptedAutoLogin session) "windterm_encrypted_auto_login"
      "WindTerm auto-login data is encrypted and was not imported."
    ++ warningIf target.inlinePasswordIgnored "windterm_inline_password_ignored"
      "A password embedded in the target was intentionally not imported."
    ++ warningIf username.isEmpty "windterm_missing_username"
      "WindTerm did not expose a plaintext SSH username for this session."
    ++ warningIf (hasData session.proxy || (nonEmpty session.proxyHost).isSome)
      "windterm_proxy_not_imported" "WindTerm proxy settings are not imported yet."
    ++ warningIf (hasData session.jumpServer) "windterm_jump_server_not_imported"
      "WindTerm jump-server settings are not imported yet."
    ++ warningIf (hasData session.tunnels) "windterm_tunnels_not_imported"
      "WindTerm SSH tunnel settings are not imported yet."

/-- What identifies a session: its UUID, or where it is and leads. -/
def sourceIdOf (path : Str) (session : WindTermSession) (target : ParsedTarget) : Str :=
  (nonEmpty session.uuid).getD
    (path ++ ':' :: (nonEmpty session.group).getD [] ++ ':' :: target.host
      ++ ':' :: Nat.toDigits 10 ((portOf session target).getD 22))

/-- `record_from_session`: only sessions of SSH with a target have one. -/
def recordFromSession (path : Str) (session : WindTermSession) : Option ImportRecord :=
  if !eqIgnoreAsciiCase (trimmed session.protocol) "ssh".toList then none
  else
    (parseTarget (trimmed session.target)).map fun target =>
      let username := ((nonEmpty session.user).or target.username).getD []
      let displayName := ((nonEmpty session.label).or (nonEmpty session.description)).getD target.host
      { id := "windterm:".toList ++ slug library (sourceIdOf path session target)
        sourceId := sourceIdOf path session target
        name := displayName
        host := target.host
        port := portOf session target
        username := username
        authMethod := authMethodOf session
        initScript := nonEmpty session.autoExecution
        passwordStatus :=
          if encryptedAutoLogin session || target.inlinePasswordIgnored then "unsupported"
          else "missing"
        warnings := warningsOf session target username }

/-- The records of all sessions. -/
def recordsOf (files : List (Str × List UInt8)) : List ImportRecord :=
  files.flatMap fun (path, bytes) =>
    ((library.sessions bytes).getD []).filterMap (recordFromSession library path)

/-- The loop over the records, with the identifiers that were seen before. -/
def keepFirst (seenIds : Finset Str) : List ImportRecord → List ImportRecord
  | [] => []
  | record :: records =>
    if record.id ∈ seenIds then keepFirst seenIds records
    else record :: keepFirst (insert record.id seenIds) records

/-- `preview_records_from_session_files`: of two records with one id the first is kept. -/
def previewRecordsFromSessionFiles (files : List (Str × List UInt8)) : List ImportRecord :=
  keepFirst ∅ (recordsOf library files)

/-- The sessions that can be imported, with the paths of their files. -/
def importableSessions (files : List (Str × List UInt8)) : List (Str × WindTermSession) :=
  files.flatMap fun (path, bytes) =>
    (((library.sessions bytes).getD []).filter fun session =>
      (recordFromSession library path session).isSome).map fun session => (path, session)

variable {library}

theorem sourceId_of_uuid {path : Str} {session : WindTermSession} {record : ImportRecord} {uuid : Str}
    (h : recordFromSession library path session = some record)
    (huuid : nonEmpty session.uuid = some uuid) : record.sourceId = uuid := by
  unfold recordFromSession at h
  split at h
  · cases h
  · obtain ⟨target, -, h⟩ := Option.map_eq_some_iff.mp h
    rw [← h]
    change (nonEmpty session.uuid).getD _ = uuid
    rw [huuid]
    rfl

theorem id_of_recordFromSession {path : Str} {session : WindTermSession} {record : ImportRecord}
    (h : recordFromSession library path session = some record) :
    record.id = "windterm:".toList ++ slug library record.sourceId := by
  unfold recordFromSession at h
  split at h
  · cases h
  · obtain ⟨target, -, h⟩ := Option.map_eq_some_iff.mp h
    rw [← h]

/-- The sources of the records are the sessions' UUIDs, where all have one. -/
theorem sourceIds_recordsOf {files : List (Str × List UInt8)}
    (huuid : ∀ session ∈ importableSessions library files, nonEmpty session.2.uuid ≠ none) :
    (recordsOf library files).map (·.sourceId)
      = (importableSessions library files).map fun session => trimmed session.2.uuid := by
  unfold recordsOf importableSessions at *
  rw [List.map_flatMap, List.map_flatMap]
  refine List.flatMap_congr fun file hfile => ?_
  obtain ⟨path, bytes⟩ := file
  -- a session that gives a record is importable, so that it has an id of its own
  have hsessions : ∀ session ∈ (library.sessions bytes).getD [],
      (recordFromSession library path session).isSome → nonEmpty session.uuid ≠ none := by
    intro session hsession hrecord
    exact huuid (path, session) (List.mem_flatMap.mpr ⟨(path, bytes), hfile,
      List.mem_map_of_mem (List.mem_filter.mpr ⟨hsession, hrecord⟩)⟩)
  dsimp only
  rw [List.map_map]
  generalize (library.sessions bytes).getD [] = sessions at hsessions ⊢
  induction sessions with
  | nil => rfl
  | cons session sessions ih =>
    obtain ⟨hfirst, hrest⟩ := List.forall_mem_cons.mp hsessions
    cases h : recordFromSession library path session with
    | none =>
      rw [List.filterMap_cons_none h, List.filter_cons_of_neg (by rw [h]; decide), ih hrest]
    | some record =>
      obtain ⟨uuid, hsome⟩ := Option.ne_none_iff_exists'.mp (hfirst (by rw [h]; rfl))
      have htrimmed : trimmed session.uuid = uuid := by
        obtain ⟨hmap, -⟩ := Option.filter_eq_some_iff.mp hsome
        obtain ⟨value, hvalue, rfl⟩ := Option.map_eq_some_iff.mp hmap
        rw [hvalue]
        rfl
      rw [List.filterMap_cons_some h, List.filter_cons_of_pos (by rw [h]; rfl), List.map_cons,
        List.map_cons, ih hrest, sourceId_of_uuid h hsome, ← htrimmed]
      rfl

theorem ids_recordsOf (files : List (Str × List UInt8)) :
    (recordsOf library files).map (·.id)
      = ((recordsOf library files).map (·.sourceId)).map fun source =>
          "windterm:".toList ++ slug library source := by
  rw [List.map_map]
  refine List.map_congr_left fun record hrecord => ?_
  obtain ⟨⟨path, bytes⟩, -, hsession⟩ := List.mem_flatMap.mp hrecord
  obtain ⟨session, -, hrecord⟩ := List.mem_filterMap.mp hsession
  exact id_of_recordFromSession hrecord

/-- The loop drops nothing if and only if all identifiers are different, and none was seen. -/
theorem keepFirst_eq_self_iff (seenIds : Finset Str) (records : List ImportRecord) :
    keepFirst seenIds records = records
      ↔ (records.map (·.id)).Nodup ∧ ∀ record ∈ records, record.id ∉ seenIds := by
  -- a list that has lost a record is shorter
  have hlength : ∀ seenIds records, (keepFirst seenIds records).length ≤ records.length := by
    intro seenIds records
    induction records generalizing seenIds with
    | nil => exact le_refl _
    | cons record records ih =>
      unfold keepFirst
      split
      · exact Nat.le_succ_of_le (ih seenIds)
      · exact Nat.succ_le_succ (ih _)
  induction records generalizing seenIds with
  | nil =>
    exact iff_of_true rfl ⟨List.nodup_nil, fun record h => absurd h List.not_mem_nil⟩
  | cons record records ih =>
    unfold keepFirst
    rw [List.map_cons, List.nodup_cons, List.forall_mem_cons]
    by_cases hseen : record.id ∈ seenIds
    · rw [if_pos hseen]
      refine iff_of_false (fun h => ?_) fun h => h.2.1 hseen
      have hle := hlength seenIds records
      rw [h, List.length_cons] at hle
      omega
    · rw [if_neg hseen, List.cons_inj_right]
      refine (ih (insert record.id seenIds)).trans ?_
      constructor
      · rintro ⟨hnodup, hnew⟩
        refine ⟨⟨fun hmem => ?_, hnodup⟩, hseen, fun other hother => ?_⟩
        · obtain ⟨other, hother, hid⟩ := List.mem_map.mp hmem
          exact hnew other hother (hid ▸ Finset.mem_insert_self _ _)
        · exact fun h => hnew other hother (Finset.mem_insert_of_mem h)
      · rintro ⟨⟨hfirst, hnodup⟩, -, hnew⟩
        refine ⟨hnodup, fun other hother h => ?_⟩
        rcases Finset.mem_insert.mp h with hid | h
        · exact hfirst (hid ▸ List.mem_map_of_mem hother)
        · exact hnew other hother h

end Preview

end Windterm
end Navop
