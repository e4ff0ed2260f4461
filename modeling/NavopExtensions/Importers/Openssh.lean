import NavopExtensions.Importers.Common

/-!
# OpenSSH configurations

`preview_records_from_configs` of `openssh-config-importer`: the `Host` blocks of configuration files,
and the entries of `known_hosts` files that lead to no host that was met before.
-/

namespace Navop
namespace Openssh

open Text Importers

/-- The libraries that the importer uses. -/
structure Library where
  /-- `char::to_lowercase`. -/
  lowercase : Char → Str

/-- `ImportRecord`, without what is the same in all of them. -/
structure ImportRecord where
  id : Str
  sourceId : Str
  name : Str
  host : Str
  port : Option ℕ
  username : Str
  authMethod : SshImportAuthMethod
  deriving DecidableEq

/-- `HostBlock`: what the directives below one `Host` line say. -/
structure HostBlock where
  aliases : List Str := []
  hostName : Option Str := none
  user : Option Str := none
  port : Option ℕ := none
  identityFile : Option Str := none
  deriving DecidableEq

/-- `KnownHostEntry`: a host and port of `known_hosts`. -/
structure KnownHostEntry where
  host : Str
  port : ℕ
  deriving DecidableEq

/-! ### Lines -/

/-- The loop of `strip_comment`: the text up to a `#` outside of quotes. -/
def beforeComment (quoted : Bool) : Str → Str
  | [] => []
  | c :: cs =>
    -- a quote that is never closed hides all comments behind it
    if c = '"' then c :: beforeComment (!quoted) cs
    else if c = '#' && !quoted then []
    else c :: beforeComment quoted cs

/-- `strip_comment`: the line as far as a `#` that does not stand in quotes. -/
def stripComment (line : Str) : Str := beforeComment false line

/-- `unquote`: one pair of double quotes around the trimmed text goes. -/
def unquote (value : Str) : Str :=
  let value := trim value
  ((value.dropPrefix? ['"']).bind (·.dropSuffix? ['"'])).getD value

/-- `split_directive`: the word before the first blank and what follows it, if both are there. -/
def splitDirective (line : Str) : Option (Str × Str) :=
  -- `Port=22` is no directive for this reader, the sign is not looked for
  if line.any isWhitespace then
    let key := trim (line.takeWhile (!isWhitespace ·))
    let value := trim (line.dropWhile (!isWhitespace ·)).tail
    if !key.isEmpty && !value.isEmpty then some (key, value) else none
  else none

/-- `split_words`: the words between blanks, each without its quotes. -/
def splitWords (value : Str) : List Str := (splitWhitespace value).map unquote

/-! ### Blocks -/

/-- What a directive other than `Host` sets in a block. -/
def HostBlock.set (block : HostBlock) (key value : Str) : HostBlock :=
  if asciiLower key = "hostname".toList then { block with hostName := some (unquote value) }
  else if asciiLower key = "user".toList then { block with user := some (unquote value) }
  -- a port that is none takes back an earlier one
  else if asciiLower key = "port".toList then { block with port := parseU16 (unquote value) }
  else if asciiLower key = "identityfile".toList then
    -- of several keys the first one counts, of all else the last one
    if block.identityFile.isNone then { block with identityFile := some (unquote value) } else block
  else block

/-- A line of `parse_blocks`: the blocks that are complete, and the one that is read. -/
def parseLine (state : List HostBlock × Option HostBlock) (rawLine : Str) :
    List HostBlock × Option HostBlock :=
  let (out, current) := state
  let line := trim (stripComment rawLine)
  if line.isEmpty then (out, current)
  else
    match splitDirective line with
    | none => (out, current)
    | some (key, value) =>
      if eqIgnoreAsciiCase key "host".toList then
        -- the next `Host` ends the block before it
        (out ++ current.toList, some { aliases := splitWords value })
      -- a directive before the first `Host` is for all hosts and is left out
      else (out, current.map fun block => block.set key value)

/-- `parse_blocks`: the blocks of a file, lines before the first `Host` left out. -/
def parseBlocks (text : Str) : List HostBlock :=
  let (out, current) := (lines text).foldl parseLine ([], none)
  out ++ current.toList

/-- Whether an alias is the name of one host. -/
def isImportable (name : Str) : Bool :=
  !name.any (fun c => c = '*' || c = '?' || c = '!') && !name.isEmpty

/-- `importable_aliases`: the names without wildcards and without a negation. -/
def importableAliases (aliases : List Str) : List Str := aliases.filter isImportable

/-! ### Known hosts -/

/-- `split_once("]:")`, behind a piece of the host. -/
def splitAtBracket (host : Str) : Str → Option (Str × Str)
  | [] => none
  | c :: cs =>
    -- the first such place counts
    if c = ']' && cs.head? = some ':' then some (host, cs.tail)
    else splitAtBracket (host ++ [c]) cs

/-- `parse_known_host_pattern`: a host, or a host in brackets with a port; hashed names and patterns are not
read. -/
def parseKnownHostPattern (pattern : Str) : Option KnownHostEntry :=
  let pattern := trim pattern
  if pattern.isEmpty || pattern.head? = some '|'
      -- a pattern is for many hosts, a hashed name for none that could be shown
      || pattern.any (fun c => c = '*' || c = '?' || c = '!') then none
  else
    match pattern.dropPrefix? ['['] with
    | some rest =>
      (splitAtBracket [] rest).bind fun (host, port) =>
        (parseU16 port).bind fun port => if host.isEmpty then none else some ⟨host, port⟩
    -- without brackets the port is that of SSH
    | none => some ⟨pattern, 22⟩

/-- `parse_known_hosts`: the hosts of the first word of each line, comments and markers left out. -/
def parseKnownHosts (text : Str) : List KnownHostEntry :=
  (lines text).flatMap fun rawLine =>
    let line := trim rawLine
    if line.isEmpty || line.head? = some '#' then []
    else
      match (splitWhitespace line).head? with
      | none => []
      | some hosts =>
        -- `@revoked` and `@cert-authority` lines are no hosts to go to
        if hosts.head? = some '@' then []
        else (hosts.splitOn ',').filterMap parseKnownHostPattern

/-- `is_known_hosts_path`: the last component says `known_hosts`, in any case. -/
def isKnownHostsPath (path : Str) : Bool :=
  ((path.splitOnP fun c => c = '/' || c = '\\').getLast?).any fun name =>
    eqIgnoreAsciiCase name "known_hosts".toList

/-- `endpoint_key`: under which two entries are one: the host in lower case, and the port. -/
def endpointKey (host : Str) (port : ℕ) : Str := asciiLower host ++ ':' :: Nat.toDigits 10 port

/-- `endpoint_display`: the host, and the port behind it unless that is 22. -/
def endpointDisplay (host : Str) (port : ℕ) : Str :=
  if port = 22 then host else host ++ ':' :: Nat.toDigits 10 port

section Preview

variable (library : Library)

/-- `slug`: that of the importers, `host` for nothing. -/
def slug (value : Str) : Str := Importers.slug library.lowercase "host".toList value

/-- `record_from_known_host`: a record that knows no user. -/
def recordFromKnownHost (path : Str) (entry : KnownHostEntry) : ImportRecord :=
  let endpoint := endpointDisplay entry.host entry.port
  { id := "openssh-config:known-hosts-".toList ++ slug library endpoint
    sourceId := path ++ ':' :: endpoint
    name := endpoint
    host := entry.host
    port := some entry.port
    username := []
    authMethod := .autoPublicKey }

/-- The record of an alias in a block. -/
def recordFromBlock (path : Str) (block : HostBlock) (name : Str) : ImportRecord :=
  { id := "openssh-config:".toList ++ slug library name
    sourceId := path ++ ':' :: name
    name := name
    host := block.hostName.getD name
    port := some (block.port.getD 22)
    username := block.user.getD []
    authMethod :=
      match block.identityFile with
      | some keyPath => .privateKey keyPath none
      | none => .autoPublicKey }

/-- The records of a configuration file. -/
def recordsFromConfig (path text : Str) : List ImportRecord :=
  (parseBlocks text).flatMap fun block =>
    (importableAliases block.aliases).map (recordFromBlock library path block)

/-- The entries of a `known_hosts` file that lead somewhere else than what was met before. -/
def newEntries (seenEndpoints : Finset Str) : List KnownHostEntry → List KnownHostEntry
  | [] => []
  | entry :: entries =>
    let key := endpointKey entry.host entry.port
    -- the case of the host and where it was met do not matter
    if key ∈ seenEndpoints then newEntries seenEndpoints entries
    else entry :: newEntries (insert key seenEndpoints) entries

/-- The loop of `preview_records_from_configs`, with the endpoints that were met before. -/
def previewFiles (seenEndpoints : Finset Str) : List (Str × List UInt8) → List ImportRecord
  | [] => []
  | (path, bytes) :: files =>
    match fromUtf8 bytes with
    -- a file that is no UTF-8 is left out without a word
    | none => previewFiles seenEndpoints files
    | some text =>
      if isKnownHostsPath path then
        let entries := newEntries seenEndpoints (parseKnownHosts text)
        entries.map (recordFromKnownHost library path)
          ++ previewFiles (seenEndpoints
            ∪ (entries.map fun entry => endpointKey entry.host entry.port).toFinset) files
      else
        let records := recordsFromConfig library path text
        records ++ previewFiles (seenEndpoints
          -- hosts of a configuration are never left out, they only keep later known hosts away
          ∪ (records.map fun record => endpointKey record.host (record.port.getD 22)).toFinset) files

/-- `preview_records_from_configs`: the files one after another, each endpoint once. -/
def previewRecordsFromConfigs (configs : List (Str × List UInt8)) : List ImportRecord :=
  previewFiles library ∅ configs

/-! ### Identifiers -/

/-- The names of hosts in configuration files. -/
def aliasesOf (configs : List (Str × List UInt8)) : List Str :=
  configs.flatMap fun file =>
    ((fromUtf8 file.2).map fun text =>
      (parseBlocks text).flatMap fun block => importableAliases block.aliases).getD []

/-- The records of the hosts in configuration files. -/
def hostRecords (configs : List (Str × List UInt8)) : List ImportRecord :=
  configs.flatMap fun file =>
    ((fromUtf8 file.2).map (recordsFromConfig library file.1)).getD []

variable {library}

/-- Files that are no `known_hosts` files have records of their hosts only. -/
theorem previewFiles_configs {configs : List (Str × List UInt8)}
    (hconfigs : ∀ file ∈ configs, isKnownHostsPath file.1 = false) (seenEndpoints : Finset Str) :
    previewFiles library seenEndpoints configs = hostRecords library configs := by
  induction configs generalizing seenEndpoints with
  | nil => rfl
  | cons file configs ih =>
    obtain ⟨path, bytes⟩ := file
    obtain ⟨hpath, hrest⟩ := List.forall_mem_cons.mp hconfigs
    unfold previewFiles hostRecords
    rw [List.flatMap_cons]
    dsimp only
    cases fromUtf8 bytes with
    | none => exact ih hrest seenEndpoints
    | some text =>
      dsimp only
      rw [if_neg (by rw [hpath]; exact Bool.false_ne_true), ih hrest]
      rfl

theorem ids_hostRecords (configs : List (Str × List UInt8)) :
    (hostRecords library configs).map (·.id)
      = (aliasesOf configs).map fun name => "openssh-config:".toList ++ slug library name := by
  unfold hostRecords aliasesOf
  rw [List.map_flatMap, List.map_flatMap]
  congr 1
  funext file
  cases fromUtf8 file.2 with
  | none => rfl
  | some text =>
    change (recordsFromConfig library file.1 text).map _
      = ((parseBlocks text).flatMap fun block => importableAliases block.aliases).map _
    unfold recordsFromConfig
    rw [List.map_flatMap, List.map_flatMap]
    congr 1
    funext block
    rw [List.map_map]
    rfl

end Preview

end Openssh
end Navop
