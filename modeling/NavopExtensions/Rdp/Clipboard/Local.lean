import NavopExtensions.Rdp.Clipboard.Remote

/-!
# Local file lists

`LocalClipboardTransfer::collect` and `LocalClipboardEntry::read`
(`rdp-helper/src/clipboard/local.rs`): the files a user copies, walked depth first into a flat list
of entries, and the answers to the requests a peer makes about them.

The file system is a record of functions, one for every call the code makes, over arbitrary types
of paths and of file names. Nothing is assumed about it; in particular a directory may list two
names that differ only in case. Both `collect` and `read` see one snapshot of it.
-/

namespace Navop
namespace Rdp
namespace Clipboard

open Checks

/-! ### The file system -/

/-- `std::fs::Metadata`. The reparse attribute exists on Windows only. -/
structure Metadata where
  isSymlink : Bool
  isReparsePoint : Bool
  isFile : Bool
  isDir : Bool
  len : Nat
  deriving DecidableEq, Repr

/-- `std::fs::DirEntry`: a path, and the last component of it. -/
structure DirEntry (P N : Type) where
  path : P
  fileName : N

/-- The source file system: `P` is `PathBuf` and `N` is `OsString`. -/
structure SourceFs (P N : Type) where
  /-- `PathBuf::from` -/
  pathFrom : String → P
  isAbsolute : P → Bool
  /-- `Path::file_name` -/
  fileName : P → Option N
  /-- `OsStr::to_str` and `OsString::into_string` -/
  toStr : N → Option String
  /-- The order of `OsString`. -/
  nameLe : N → N → Bool
  symlinkMetadata : P → Except String Metadata
  canonicalize : P → Except String P
  startsWith : P → P → Bool
  readDir : P → Except String (List (DirEntry P N))
  /-- `File::open`: the contents of the file. -/
  openFile : P → Except String (List UInt8)

/-- Replace the error of a call, as `anyhow::Context::context` does. -/
def context {α : Type} (x : Except String α) (message : String) : Except String α :=
  x.mapError fun _ => message

@[simp] theorem context_eq_ok {α : Type} {x : Except String α} {message : String} {a : α} :
    context x message = .ok a ↔ x = .ok a := by
  cases x <;> simp [context, Except.mapError]

variable {P N : Type} (rules : NameRules) (fs : SourceFs P N)

/-- `is_link_or_reparse`: a symbolic link, or whatever else Windows redirects. -/
def isLinkOrReparse (metadata : Metadata) : Bool := metadata.isSymlink || metadata.isReparsePoint

/-- `ensure_not_link_or_reparse`: the metadata is that of the path itself, not of what it points to. -/
def ensureNotLinkOrReparse (path : P) : Except String Metadata := do
  let metadata ← context (fs.symlinkMetadata path) "clipboard path metadata is unavailable"
  ensure (isLinkOrReparse metadata = false) "clipboard path cannot be a link or reparse point"
  return metadata

/-- `utf8_file_name`: the last component, which has to be UTF-8. -/
def utf8FileName (path : P) : Except String String :=
  match (fs.fileName path).bind fs.toStr with
  | some name => .ok name
  | none => .error "clipboard path has no UTF-8 file name"

/-- The loop of `validate_top_level_paths`, with the names inserted so far. -/
def validateTopLevelPathsFrom (names : List String) : List P → Except String Unit
  | [] => .ok ()
  | path :: rest => do
    ensure (fs.isAbsolute path = true) "clipboard paths must be absolute"
    let name ← utf8FileName fs path
    validateComponent rules name
    ensure (rules.toLowercase name ∉ names) "clipboard paths contain duplicate top-level names"
    validateTopLevelPathsFrom (rules.toLowercase name :: names) rest

/-- `validate_top_level_paths`: absolute, each with a valid name, and no two of one name in any case. -/
def validateTopLevelPaths (paths : List P) : Except String Unit :=
  validateTopLevelPathsFrom rules fs [] paths

/-! ### Entries -/

/-- `LocalClipboardEntryKind`. -/
inductive LocalClipboardEntryKind where
  | file
  | directory
  deriving DecidableEq, Repr

/-- `LocalClipboardEntry`. -/
structure LocalClipboardEntry (P : Type) (rules : NameRules) where
  sourcePath : P
  canonicalPath : P
  relativePath : RelativeClipboardPath rules
  kind : LocalClipboardEntryKind
  size : Nat

variable {rules}

/-- `LocalClipboardEntry::descriptor`: a directory has no size. -/
def LocalClipboardEntry.descriptor (entry : LocalClipboardEntry P rules) : FileDescriptor where
  name := entry.relativePath.name
  relativePath := entry.relativePath.parentWirePath
  attributes := some (match entry.kind with
    | .file => archiveAttribute
    | .directory => directoryAttribute)
  fileSize := match entry.kind with
    | .file => some entry.size
    | .directory => none

/-- The kind `build_entry` gives an entry. -/
def entryKind (metadata : Metadata) : Except String LocalClipboardEntryKind :=
  if metadata.isFile then .ok .file
  else if metadata.isDir then .ok .directory
  else .error "clipboard source has an unsupported file type"

/-- `build_entry`: what is sent about a path, and the canonical path it is read from later. -/
def buildEntry (path : P) (relativePath : RelativeClipboardPath rules) :
    Except String (LocalClipboardEntry P rules) := do
  let metadata ← ensureNotLinkOrReparse fs path
  let kind ← entryKind metadata
  let canonicalPath ←
    context (fs.canonicalize path) "clipboard source cannot be canonicalized"
  return ⟨path, canonicalPath, relativePath, kind, metadata.len⟩

/-- `account_file`: the new total, within the bounds for one file and for all of them. -/
def accountFile (entry : LocalClipboardEntry P rules) (totalBytes : Nat) : Except String Nat :=
  match entry.kind with
  | .directory => .ok totalBytes
  | .file => do
    ensure (entry.size ≤ maxSingleFileBytes) "clipboard file exceeds the single-file limit"
    let totalBytes ← checkedAddU64 totalBytes entry.size "clipboard transfer size overflow"
    ensure (totalBytes ≤ maxTotalTransferBytes) "clipboard transfer exceeds the total size limit"
    return totalBytes

/-! ### The walk -/

/-- The name of a child, which `push_children` requires to be UTF-8. -/
def childName (child : DirEntry P N) : Except String String :=
  match fs.toStr child.fileName with
  | some name => .ok name
  | none => .error "clipboard path has a non-UTF-8 component"

/-- What `push_children` does with one child: the new stack. -/
def pushChild (canonicalRoot : P) (relative : RelativeClipboardPath rules)
    (pending : List (P × RelativeClipboardPath rules)) (child : DirEntry P N) :
    Except String (List (P × RelativeClipboardPath rules)) := do
  let _ ← ensureNotLinkOrReparse fs child.path
  let name ← childName fs child
  let childRelative ← relative.child name
  let canonical ← fs.canonicalize child.path
  -- a child must not lead out of the tree that is being copied
  ensure (fs.startsWith canonical canonicalRoot = true) "clipboard source escapes its root"
  return (child.path, childRelative) :: pending

/-- `push_children`: the new stack, its top first. The children are pushed in reverse, so that the
first in order is on top. -/
def pushChildren (canonicalRoot directory : P) (relative : RelativeClipboardPath rules)
    (pending : List (P × RelativeClipboardPath rules)) :
    Except String (List (P × RelativeClipboardPath rules)) := do
  let children ← fs.readDir directory
  let sorted := children.insertionSort fun a b => fs.nameLe a.fileName b.fileName = true
  sorted.reverse.foldlM (pushChild fs canonicalRoot relative) pending

/-- The stack after an entry of the given kind: the children of a directory are pushed. -/
def pushIfDirectory (canonicalRoot : P) (kind : LocalClipboardEntryKind) (path : P)
    (relative : RelativeClipboardPath rules) (pending : List (P × RelativeClipboardPath rules)) :
    Except String (List (P × RelativeClipboardPath rules)) :=
  match kind with
  | .directory => pushChildren fs canonicalRoot path relative pending
  | .file => .ok pending

/-- The loop of `collect_tree`. It ends because every pass adds an entry. -/
def collectPending (canonicalRoot : P) (pending : List (P × RelativeClipboardPath rules))
    (entries : List (LocalClipboardEntry P rules)) (totalBytes : Nat) :
    Except String (List (LocalClipboardEntry P rules) × Nat) :=
  match pending with
  | [] => .ok (entries, totalBytes)
  | (path, relative) :: pending =>
    if entries.length < maxClipboardEntryCount then do
      let entry ← buildEntry fs path relative
      let totalBytes ← accountFile entry totalBytes
      -- a directory is followed at once by everything below it
      let pending ← pushIfDirectory fs canonicalRoot entry.kind path relative pending
      collectPending canonicalRoot pending (entries ++ [entry]) totalBytes
    else .error "clipboard entry count exceeds the limit"
termination_by maxClipboardEntryCount - entries.length
decreasing_by
  simp only [List.length_append, List.length_singleton]
  omega

/-- `collect_tree`: a path, which may be no link, with everything below it. -/
def collectTree (root : P) (relative : RelativeClipboardPath rules)
    (entries : List (LocalClipboardEntry P rules)) (totalBytes : Nat) :
    Except String (List (LocalClipboardEntry P rules) × Nat) := do
  let _ ← ensureNotLinkOrReparse fs root
  let canonicalRoot ← context (fs.canonicalize root) "clipboard source cannot be canonicalized"
  collectPending fs canonicalRoot [(root, relative)] entries totalBytes

variable (rules)

/-- The loop of `collect_entries`: the entries and the total so far go along. -/
def collectEntriesFrom (entries : List (LocalClipboardEntry P rules)) (totalBytes : Nat) :
    List P → Except String (List (LocalClipboardEntry P rules))
  | [] => .ok entries
  | topLevel :: rest => do
    let name ← utf8FileName fs topLevel
    let relative ← RelativeClipboardPath.fromLocalComponents rules [name]
    let collected ← collectTree fs topLevel relative entries totalBytes
    collectEntriesFrom collected.1 collected.2 rest

/-- `collect_entries`: the trees of the paths one after another. -/
def collectEntries (paths : List P) : Except String (List (LocalClipboardEntry P rules)) :=
  collectEntriesFrom rules fs [] 0 paths

/-- `LocalClipboardTransfer`: the files that are offered, and what is said of each. -/
structure LocalClipboardTransfer (P : Type) (rules : NameRules) where
  transferId : UInt64
  entries : List (LocalClipboardEntry P rules)
  descriptors : List FileDescriptor

/-- `LocalClipboardTransfer::collect`: the paths are checked before anything is read. -/
def LocalClipboardTransfer.collect (transferId : UInt64) (paths : List String) :
    Except String (LocalClipboardTransfer P rules) := do
  ensure (transferId ≠ 0) "clipboard transfer ID must not be zero"
  let paths := paths.map fs.pathFrom
  ensure (paths ≠ []) "clipboard file list is empty"
  validateTopLevelPaths rules fs paths
  let entries ← collectEntries rules fs paths
  return ⟨transferId, entries, entries.map LocalClipboardEntry.descriptor⟩

variable {rules}

/-- `LocalClipboardTransfer::entry`: the index is the server's, and may be negative. -/
def LocalClipboardTransfer.entry (transfer : LocalClipboardTransfer P rules) (index : Int) :
    Option (LocalClipboardEntry P rules) :=
  if 0 ≤ index then transfer.entries[index.toNat]? else none

/-! ### Answering requests -/

/-- `MAX_LOCAL_RESPONSE_CHUNK_BYTES`: the bytes of one answer at most. -/
def maxLocalResponseChunkBytes : Nat := 4 * 1024 * 1024

/-- `SIZE_RESPONSE_BYTES`: a size is sent in eight bytes. -/
def sizeResponseBytes : Nat := 8

namespace LocalClipboardEntry

variable {ρ : Type} (pdu : Pdu ρ) [DecidableEq P]

/-- `LocalClipboardEntry::open_verified`: the contents of the file. -/
def openVerified (entry : LocalClipboardEntry P rules) : Except String (List UInt8) := do
  let metadata ← ensureNotLinkOrReparse fs entry.sourcePath
  ensure (metadata.isFile = true) "clipboard source is no longer a file"
  ensure (metadata.len = entry.size) "clipboard source size changed"
  let canonical ←
    context (fs.canonicalize entry.sourcePath) "clipboard source path cannot be canonicalized"
  ensure (canonical = entry.canonicalPath) "clipboard source path changed"
  let file ← fs.openFile entry.sourcePath
  -- checked once more, on the handle that will be read
  ensure (file.length = entry.size) "clipboard source size changed"
  return file

/-- `LocalClipboardEntry::size_response`. -/
def sizeResponse (entry : LocalClipboardEntry P rules) (request : FileContentsRequest) :
    Except String ρ := do
  ensure (request.position = 0 ∧ request.requestedSize = sizeResponseBytes)
    "invalid clipboard file size request"
  let _ ← entry.openVerified fs
  return pdu.newSizeResponse request.streamId entry.size

/-- `LocalClipboardEntry::range_response`. Seeking and reading succeed inside the file. -/
def rangeResponse (entry : LocalClipboardEntry P rules) (request : FileContentsRequest) :
    Except String ρ := do
  ensure (0 < request.requestedSize) "clipboard file range is empty"
  ensure (request.position ≤ entry.size) "clipboard range starts past end"
  let file ← entry.openVerified fs
  -- the peer may ask for more than one response carries, or past the end
  let amount := min (min request.requestedSize maxLocalResponseChunkBytes)
    (entry.size - request.position)
  return pdu.newDataResponse request.streamId ((file.drop request.position).take amount)

/-- `LocalClipboardEntry::read`. -/
def read (entry : LocalClipboardEntry P rules) (request : FileContentsRequest) :
    Except String ρ := do
  ensure (entry.kind = .file) "clipboard directory contents cannot be streamed"
  pdu.validateFlags request.flags
  if request.flags &&& sizeFlag = sizeFlag then entry.sizeResponse fs pdu request
  else entry.rangeResponse fs pdu request

end LocalClipboardEntry

/-- The response of `send_local_file_response`: a request that cannot be read is answered with an
error. -/
def LocalClipboardTransfer.localFileResponse {ρ : Type} [DecidableEq P] (pdu : Pdu ρ)
    (transfer : LocalClipboardTransfer P rules) (request : FileContentsRequest) : ρ :=
  match transfer.entry request.index with
  | none => pdu.newError request.streamId
  | some entry =>
    match entry.read fs pdu request with
    | .ok response => response
    | .error _ => pdu.newError request.streamId

end Clipboard
end Rdp
end Navop
