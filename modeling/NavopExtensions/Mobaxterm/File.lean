import NavopExtensions.Lib.Text

/-!
# MobaXterm configuration files

A file has sections: encrypted passwords in `[Passwords]` and `[Credentials]`, the material of their
keys in `[Misc]`, and sessions in `[Bookmarks]` and the like, with a password in their fifth field
perhaps.
-/

namespace Navop
namespace Mobaxterm

open Text

/-- Texts are lists of characters. -/
abbrev Str := List Char

/-! ### Sections and sessions -/

/-- `normalize_group`: the components, trimmed, with slashes between them, and none for none of them. -/
def normalizeGroup (subrep : Str) : Option Str :=
  let parts := (((subrep.map fun c => if c = '\\' then '/' else c).splitOn '/').map trim).filter
    (!·.isEmpty)
  let normalized := ['/'].intercalate parts
  if normalized.isEmpty then none else some normalized

/-- `is_bookmark_section`: `Bookmarks` with a number behind it if one likes, in any case. -/
def isBookmarkSection (sectionName : Str) : Bool :=
  let lower := asciiLower (trim sectionName)
  if lower = "bookmark".toList then true
  else
    match lower.dropPrefix? "bookmarks".toList with
    | none => false
    | some rest => ((rest.dropPrefix? ['_']).getD rest).all Char.isDigit

/-- A value without what may stand before its session: `;`, and `logout`. -/
def sessionBody (value : Str) : Str :=
  let trimmed := trim value
  let rest := ((trimmed.dropPrefix? [';']).map trimStart).getD trimmed
  ((rest.dropPrefix? "logout".toList).map trimStart).getD rest

/-- `is_standard_prefix`: the value of a session starts with `#` and a digit. -/
def isStandardPrefix (value : Str) : Bool :=
  match sessionBody value with
  | '#' :: digit :: _ => digit.isDigit
  | _ => false

/-- `is_headerless_session`: a session before the first section of the file. -/
def isHeaderlessSession (sectionName value : Str) : Bool :=
  sectionName.isEmpty && isStandardPrefix value

/-! ### Parsing -/

/-- `SessionEntry`: a line that holds a session, and the section it stands in. -/
structure SessionEntry where
  sectionName : Str
  key : Str
  value : Str
  deriving DecidableEq

/-- `ParsedFile`: what the sections of a file hold, each in the order of the lines. -/
structure ParsedFile where
  sessions : List SessionEntry
  sectionGroups : Finmap fun _ : Str => Str
  passwords : List (Str × Str)
  credentials : List (Str × Str)
  misc : Finmap fun _ : Str => Str
  hasSesspass : Bool

/-- A line of a file, as far as it is read before its section matters. -/
inductive Line
  | skipped
  | header (name : Str)
  | entry (key value : Str)
  deriving DecidableEq

/-- What a line is. -/
def lineOf (raw : Str) : Line :=
  let line := trim raw
  if line.isEmpty || line.head? = some ';' || line.head? = some '#' then .skipped
  else
    match (line.dropPrefix? ['[']).bind (·.dropSuffix? [']']) with
    | some name => .header (trim name)
    | none =>
      match splitOnce '=' line with
      | none => .skipped
      | some (key, value) =>
        if (trim key).isEmpty then .skipped else .entry (trim key) (trim value)

/-- A line of `[Credentials]`: a user and a ciphertext, both there. -/
def credentialEntry (value : Str) : Option (Str × Str) :=
  match splitOnce ':' value with
  | none => none
  | some (username, ciphertext) =>
    if !(trim username).isEmpty && !(trim ciphertext).isEmpty then
      some (trim username, trim ciphertext)
    else none

/-- An entry of a file, by its section. -/
def ParsedFile.parseEntry (file : ParsedFile) (sectionName key value : Str) : ParsedFile :=
  if asciiLower sectionName = "passwords".toList then
    if value.isEmpty then file else { file with passwords := file.passwords ++ [(key, value)] }
  else if asciiLower sectionName = "credentials".toList then
    { file with credentials := file.credentials ++ (credentialEntry value).toList }
  else if asciiLower sectionName = "misc".toList then
    { file with misc := file.misc.insert (asciiLower key) value }
  else if asciiLower sectionName = "sesspass".toList then { file with hasSesspass := true }
  else if !isBookmarkSection sectionName && !isHeaderlessSession sectionName value then file
  else if eqIgnoreAsciiCase key "subrep".toList then
    match normalizeGroup value with
    | some group => { file with sectionGroups := file.sectionGroups.insert sectionName group }
    | none => file
  else if eqIgnoreAsciiCase key "imgnum".toList then file
  else { file with sessions := file.sessions ++ [⟨sectionName, key, value⟩] }

/-- The section after a line. -/
def sectionAfter (sectionName : Str) : Line → Str
  | .header name => name
  | _ => sectionName

/-- The file after a line. -/
def ParsedFile.parseLine (file : ParsedFile) (sectionName : Str) : Line → ParsedFile
  | .entry key value => file.parseEntry sectionName key value
  | _ => file

/-- The loop of `ParsedFile::parse`: the section so far goes along. -/
def ParsedFile.parseLines (file : ParsedFile) (sectionName : Str) : List Str → ParsedFile
  | [] => file
  | raw :: lines =>
    (file.parseLine sectionName (lineOf raw)).parseLines (sectionAfter sectionName (lineOf raw)) lines

/-- `ParsedFile::parse`: from no section and nothing read. -/
def ParsedFile.parse (text : Str) : ParsedFile :=
  ParsedFile.parseLines ⟨[], ∅, [], [], ∅, false⟩ [] (lines text)

/-! ### The fields of a session -/

/-- Where a session leads: host, port, user name and the password in the session. -/
structure Target where
  host : Str
  port : Option ℕ
  username : Str
  inlinePassword : Option Str
  deriving DecidableEq

/-- A port number: `parse::<u16>`, within 16 bits. -/
def parsePort (value : Str) : Option ℕ := parseUnsigned 10 (2 ^ 16 - 1) value

/-- `standard_session_type`: the first field of the third part. -/
def standardSessionType (value : Str) : Str :=
  trim ((((value.splitOn '#')[2]?.getD []).splitOn '%').head?.getD [])

/-- `parse_standard_session`: only the types 0 and 7 are SSH, and their fields stand at fixed places. -/
def parseStandardSession (value : Str) : Option Target :=
  let outer := value.splitOn '#'
  if outer.length < 3 || !isStandardPrefix value then none
  else
    let fields := (outer[2]?.getD []).splitOn '%'
    let sessionType := trim (fields[0]?.getD [])
    if sessionType ≠ "0".toList && sessionType ≠ "7".toList then none
    else
      let username := trim (fields[3]?.getD [])
      some {
        host := trim (fields[1]?.getD [])
        port := (((fields[2]?.map trim).bind parsePort).filter (· ≠ 0)).or (some 22)
        username := if username.isEmpty || username = "<default>".toList then [] else username
        inlinePassword := (fields[4]?.map trim).filter (!·.isEmpty) }

/-- `describe_session_type`: for the warning about what was skipped. -/
def describeSessionType (sessionType : Str) : Str :=
  if sessionType = "0".toList || sessionType = "7".toList then "SSH".toList
  else if sessionType = "4".toList then "RDP".toList
  else if sessionType = "5".toList then "VNC".toList
  else if sessionType = "11".toList then "browser".toList
  else if sessionType.isEmpty then "unknown".toList
  else "type ".toList ++ sessionType

/-- `parse_host_port`: an address in brackets, a host with a port behind its only colon, or a host. -/
def parseHostPort (value : Str) : Option (Str × Option ℕ) :=
  let value := trim value
  match value.dropPrefix? ['['] with
  | some rest =>
    match splitOnce ']' rest with
    | none => none
    | some (host, suffix) =>
      if host.isEmpty then none
      else some (host, (suffix.dropPrefix? [':']).bind parsePort)
  | none =>
    if value.count ':' = 1 then
      match rsplitOnce ':' value with
      | none => none
      | some (host, port) =>
        match parsePort port with
        | some port => some (host, some port)
        | none => some (value, none)
    else some (value, none)

/-- `parse_target`: host, user name and port. -/
def parseTarget (value : Str) : Option (Str × Option Str × Option ℕ) :=
  let value := ((trim value).dropPrefix? "ssh://".toList).getD (trim value)
  let value := ((value.splitOn '/').head?).getD value
  let (userInfo, hostPort) :=
    match rsplitOnce '@' value with
    | none => (none, value)
    | some (user, host) => (some user, host)
  let username := (userInfo.map fun user => ((splitOnce ':' user).map Prod.fst).getD user).filter
    (!·.isEmpty)
  (parseHostPort hostPort).map fun (host, port) => (host, username, port)

/-- `parse_legacy_session`: the first target in front of a token that says `ssh`. -/
def parseLegacySession (value : Str) : Option Target :=
  let tokens := ((value.splitOn '#').map trim).filter (!·.isEmpty)
  match tokens.findIdx? fun token => eqIgnoreAsciiCase token "ssh".toList with
  | none => none
  | some index =>
    match (tokens.take index).findSome? parseTarget with
    | none => none
    | some (host, username, port) =>
      if host.isEmpty then none
      else
        let numeric := (tokens.drop (index + 1)).findSome? parsePort
        some ⟨host, numeric.or port, username.getD [], none⟩

/-- `session_label_and_group`: the last component, and the others if there are any. -/
def sessionLabelAndGroup (key : Str) : Str × Option Str :=
  let parts := ((key.map fun c => if c = '\\' then '/' else c).splitOn '/').filter (!·.isEmpty)
  (parts.getLast?.getD [],
    if parts.dropLast.isEmpty then none else some (['/'].intercalate parts.dropLast))

end Mobaxterm
end Navop
