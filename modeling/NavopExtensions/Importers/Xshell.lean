import NavopExtensions.Importers.Common

/-!
# Sessions of Xshell

`preview_records_from_sessions` of `xshell-importer`: session files, and backups, which are archives of
them. Reading an archive, and a name that is encoded in GBK, are parameters.
-/

namespace Navop
namespace Xshell

open Text Importers

/-- An entry of an archive; `content` is what reading it to its end gives. -/
structure ZipEntry where
  rawName : List UInt8
  name : Str
  isDir : Bool
  size : ℕ
  content : Option (List UInt8)

/-- The libraries that the importer uses. -/
structure Library where
  /-- `char::to_lowercase`. -/
  lowercase : Char → Str
  /-- A text in GBK, if it is one. -/
  gbk : List UInt8 → Option Str
  /-- The entries of an archive, as far as they can be opened. -/
  archive : List UInt8 → Option (List ZipEntry)

/-- `ImportRecord`, without what is the same in all of them. -/
structure ImportRecord where
  id : Str
  sourceId : Str
  name : Str
  host : Str
  port : Option ℕ
  username : Str
  deriving DecidableEq

/-- A session file: where it is, and what is in it. -/
structure Session where
  path : Str
  bytes : List UInt8

/-- `MAX_XTS_SESSION_COUNT`: the sessions of an archive at most. -/
def maxXtsSessionCount : ℕ := 4096

/-- `MAX_XSH_FILE_SIZE`: the bytes of a session at most. -/
def maxXshFileSize : ℕ := 4 * 1024 * 1024

/-- `MAX_XTS_TOTAL_SESSION_SIZE`: the bytes of an archive's sessions together at most. -/
def maxXtsTotalSessionSize : ℕ := 32 * 1024 * 1024

/-! ### Texts -/

/-- The units of UTF-16, from two bytes each. -/
def unitsOf (fromBytes : UInt8 → UInt8 → ℕ) : List UInt8 → Option (List ℕ)
  | [] => some []
  | [_] => none
  | first :: second :: bytes => (unitsOf fromBytes bytes).map (fromBytes first second :: ·)

/-- `decode_utf16_units`: pairs of bytes as units, and the units as a text. -/
def decodeUtf16Units (bytes : List UInt8) (fromBytes : UInt8 → UInt8 → ℕ) : Option Str :=
  (unitsOf fromBytes bytes).bind decodeUtf16

/-- `u16::from_le_bytes`: the low byte comes first. -/
def fromLeBytes (first second : UInt8) : ℕ := first.toNat + 256 * second.toNat

/-- `u16::from_be_bytes`: the high byte comes first. -/
def fromBeBytes (first second : UInt8) : ℕ := 256 * first.toNat + second.toNat

/-- `decode_session_text`: the byte order mark says which UTF-16 it is, and without one it is UTF-8. -/
def decodeSessionText : List UInt8 → Option Str
  | 0xff :: 0xfe :: bytes => decodeUtf16Units bytes fromLeBytes
  | 0xfe :: 0xff :: bytes => decodeUtf16Units bytes fromBeBytes
  | bytes => (fromUtf8 bytes).map (·.dropWhile (· = '\ufeff'))

/-- The sections of a file. -/
abbrev Ini := Finmap fun _ : Str => Finmap fun _ : Str => Str

/-- A line of `parse_ini`; the section's name goes along. -/
def parseIniLine (state : Ini × Str) (rawLine : Str) : Ini × Str :=
  let (out, sectionName) := state
  let line := trim rawLine
  if line.isEmpty || line.head? = some '#' || line.head? = some ';' then (out, sectionName)
  else
    match (line.dropPrefix? ['[']).bind (·.dropSuffix? [']']) with
    | some name =>
      let sectionName := asciiLower (trim name)
      (out.insert sectionName ((out.lookup sectionName).getD ∅), sectionName)
    | none =>
      match splitOnce '=' line with
      | none => (out, sectionName)
      | some (key, value) =>
        (out.insert sectionName
          (((out.lookup sectionName).getD ∅).insert (asciiLower (trim key)) (trim value)), sectionName)

/-- `parse_ini`: the fields under their section and key, a later one in place of an earlier. -/
def parseIni (text : Str) : Ini := ((lines text).foldl parseIniLine (∅, [])).1

/-- `field`: a trimmed value that is not blank, its key in any case. -/
def field (fields : Finmap fun _ : Str => Str) (key : Str) : Option Str :=
  nonEmpty (fields.lookup (asciiLower key))

/-! ### Paths -/

/-- `has_extension`: what stands behind the last dot, in any case. -/
def hasExtension (path extension : Str) : Bool :=
  match rsplitOnce '.' path with
  | some (_, suffix) => eqIgnoreAsciiCase suffix extension
  | none => false

/-- `strip_xsh_extension`: the path without a closing `.xsh`. -/
def stripXshExtension (path : Str) : Str :=
  if hasExtension path "xsh".toList then path.take (path.length - ".xsh".toList.length) else path

/-- What separates the parts of a path. -/
def isSeparator (c : Char) : Bool := c = '/' || c = '\\'

/-- `session_name`: the last component, without the extension. -/
def sessionName (path : Str) : Str :=
  stripXshExtension ((path.splitOnP isSeparator).getLast?.getD path)

/-- The text whose slug a path has. -/
def stemOf (path : Str) : Str :=
  ((stripXshExtension path).dropWhile isSeparator).rdropWhile isSeparator

section Preview

variable (library : Library)

/-- `slug`: that of the importers over the stem, `session` for nothing. -/
def slug (path : Str) : Str := Importers.slug library.lowercase "session".toList (stemOf path)

/-- `parse_session`. -/
def parseSession (session : Session) : Option ImportRecord := do
  let text ← decodeSessionText session.bytes
  let ini := parseIni text
  let connection ← ini.lookup "connection".toList
  let protocol := (field connection "protocol".toList).getD "SSH".toList
  if eqIgnoreAsciiCase protocol "ssh".toList then
    let host ← field connection "host".toList
    let port := ((field connection "port".toList).bind parseU16).or (some 22)
    let username := ((ini.lookup "connection:authentication".toList).bind fun auth =>
      field auth "username".toList).getD []
    return {
      id := "xshell:".toList ++ slug library session.path
      sourceId := session.path
      name := sessionName session.path
      host := host
      port := port
      username := username }
  else none

/-- `decode_xts_entry_name`. -/
def decodeXtsEntryName (entry : ZipEntry) : Str :=
  match fromUtf8 entry.rawName with
  | some name => name
  | none => (library.gbk entry.rawName).getD entry.name

/-- `is_xts_session_entry`. -/
def isXtsSessionEntry (path : Str) (isDir : Bool) : Bool :=
  !isDir && ((asciiLower path).dropPrefix? "xshell/".toList).isSome && hasExtension path "xsh".toList

/-- The loop of `parse_xts_backup` over the entries of an archive. -/
def collectSessions (archivePath : Str) (totalSize : ℕ) (sessions : List Session) :
    List ZipEntry → List Session
  | [] => sessions
  | entry :: entries =>
    let entryName := decodeXtsEntryName library entry
    if !isXtsSessionEntry entryName entry.isDir then
      collectSessions archivePath totalSize sessions entries
    else if maxXshFileSize < entry.size || maxXtsTotalSessionSize < totalSize + entry.size then
      collectSessions archivePath totalSize sessions entries
    else
      match entry.content with
      | none => collectSessions archivePath totalSize sessions entries
      | some bytes =>
        let sessions := sessions ++ [⟨archivePath ++ "!/".toList ++ entryName, bytes⟩]
        if maxXtsSessionCount ≤ sessions.length then sessions
        else collectSessions archivePath (totalSize + entry.size) sessions entries

/-- The sessions of a backup, in the order of their paths. -/
def archivedSessions (source : Session) : List Session :=
  match library.archive source.bytes with
  | none => []
  | some entries =>
    (collectSessions library source.path 0 [] entries).mergeSort fun left right =>
      left.path ≤ right.path

/-- `parse_source`. -/
def parseSource (source : Session) : List ImportRecord :=
  if hasExtension source.path "xts".toList then
    (archivedSessions library source).filterMap (parseSession library)
  else (parseSession library source).toList

/-- `preview_records_from_sessions`. -/
def previewRecordsFromSessions (sources : List Session) : List ImportRecord :=
  sources.flatMap (parseSource library)

/-! ### Identifiers -/

/-- The sessions that are read: the given ones, and those of backups. -/
def sessionsOf (sources : List Session) : List Session :=
  sources.flatMap fun source =>
    if hasExtension source.path "xts".toList then archivedSessions library source else [source]

/-- The paths of the sessions that can be imported. -/
def importablePaths (sources : List Session) : List Str :=
  ((sessionsOf library sources).filter fun session => (parseSession library session).isSome).map
    (·.path)

variable {library}

theorem previewRecords_eq (sources : List Session) :
    previewRecordsFromSessions library sources
      = (sessionsOf library sources).filterMap (parseSession library) := by
  unfold previewRecordsFromSessions sessionsOf
  rw [List.filterMap_flatMap]
  congr 1
  funext source
  unfold parseSource
  split
  · rfl
  · cases h : parseSession library source <;> simp [h]

theorem id_of_parseSession {session : Session} {record : ImportRecord}
    (h : parseSession library session = some record) :
    record.id = "xshell:".toList ++ slug library session.path := by
  unfold parseSession at h
  simp only [Option.bind_eq_bind, Option.bind_eq_some_iff] at h
  obtain ⟨text, -, connection, -, h⟩ := h
  split at h
  · simp only [Option.bind_eq_some_iff] at h
    obtain ⟨host, -, h⟩ := h
    cases h
    rfl
  · cases h

theorem ids_previewRecords (sources : List Session) :
    (previewRecordsFromSessions library sources).map (·.id)
      = (importablePaths library sources).map fun path =>
          "xshell:".toList ++ slug library path := by
  rw [previewRecords_eq]
  unfold importablePaths
  rw [List.map_map]
  induction sessionsOf library sources with
  | nil => rfl
  | cons session sessions ih =>
    cases h : parseSession library session with
    | none => rw [List.filterMap_cons_none h, List.filter_cons_of_neg (by rw [h]; decide), ih]
    | some record =>
      rw [List.filterMap_cons_some h, List.filter_cons_of_pos (by rw [h]; rfl), List.map_cons,
        List.map_cons, ih, id_of_parseSession h]
      rfl

end Preview

end Xshell
end Navop
