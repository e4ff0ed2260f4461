import NavopExtensions.Lib.Machine
import NavopExtensions.Rdp.Clipboard.RemoteLayout

/-!
# The download of a remote file list

`RemoteClipboardTransfer` (`rdp-helper/src/clipboard/remote.rs`): a state machine that asks a peer
for the size of each file and then for its contents, one request at a time, and writes what it
receives to a staging directory.

The responses of the peer are values of an arbitrary type `ρ` read through `Pdu`, which stands for
the clipboard crate. The staging directory is a list of directories and a list of files in the
order of their creation; an open file is a position in that list. Whether an operation on it
succeeds is decided by a `StagingFs`, so that every failure of the file system is covered. Rust's
indexing and subtraction panic when out of range; a panic is a result of its own.
-/

namespace Navop
namespace Rdp
namespace Clipboard

open Checks

/-! ### The clipboard crate -/

/-- `FileContentsFlags::SIZE`: how large is the file? -/
def sizeFlag : UInt32 := 1

/-- `FileContentsFlags::RANGE`: what does this part of it hold? -/
def rangeFlag : UInt32 := 2

/-- `FileContentsRequest`: which file, which part, and the stream that the answer names. -/
structure FileContentsRequest where
  streamId : UInt32
  index : Int
  flags : UInt32
  position : Nat
  requestedSize : Nat
  dataId : Option UInt32
  deriving DecidableEq, Repr

/-- What the transfers use of the clipboard crate's messages; `ρ` is `FileContentsResponse`. -/
structure Pdu (ρ : Type) where
  newSizeResponse : UInt32 → Nat → ρ
  newDataResponse : UInt32 → List UInt8 → ρ
  newError : UInt32 → ρ
  streamId : ρ → UInt32
  isError : ρ → Bool
  data : ρ → List UInt8
  dataAsSize : ρ → Option Nat
  validateFlags : UInt32 → Except String Unit

/-! ### Staging -/

/-- A staged file: its path below the staging directory and its contents. -/
structure StagedFile where
  path : List String
  contents : List UInt8
  deriving DecidableEq, Repr

/-- `TransferDirectory`, with what was put into it. -/
structure Staging where
  path : String
  directories : List (List String)
  files : List StagedFile
  retained : Bool
  deriving DecidableEq, Repr

/-- The file system below the staging directory: which operations succeed. A failed write may have
written a part of its data. -/
structure StagingFs where
  createDir : Staging → List String → Except String Unit
  createNew : Staging → List String → Except String Unit
  writeAll : Staging → Nat → List UInt8 → Except (Nat × String) Unit
  flush : Staging → Nat → Except String Unit

/-- Append to an open file. -/
def Staging.append (staging : Staging) (file : Nat) (data : List UInt8) : Staging :=
  { staging with
    files := staging.files.modify file fun f => { f with contents := f.contents ++ data } }

/-- `Path::join` of the staging directory and a name. -/
def Staging.join (staging : Staging) (name : String) : String := staging.path ++ "/" ++ name

/-! ### The transfer -/

/-- `REMOTE_FILE_CHUNK_BYTES`: the bytes that are asked for at a time. -/
def remoteFileChunkBytes : Nat := 1024 * 1024

/-- `SIZE_REQUEST_BYTES`: a size is asked for in eight bytes. -/
def sizeRequestBytes : Nat := 8

/-- `PendingRemoteRequestKind`. -/
inductive PendingRemoteRequestKind where
  | size
  | range (requested : Nat)
  deriving DecidableEq, Repr

/-- `PendingRemoteRequest`: the request whose answer is awaited. -/
structure PendingRemoteRequest where
  streamId : UInt32
  kind : PendingRemoteRequestKind
  deriving DecidableEq, Repr

/-- `RemoteTransferAction`: what the client does next. -/
inductive RemoteTransferAction where
  | request (request : FileContentsRequest)
  | ready (paths : List String)
  | ignore
  deriving DecidableEq, Repr

/-- How a call can fail: with an error, or with a panic. -/
inductive Failure where
  | error (message : String)
  | panic
  deriving DecidableEq, Repr

/-- `RemoteTransferSettings`. The staging directory was created below the staging root. -/
structure RemoteTransferSettings where
  transferId : UInt64
  stagingPath : String
  clipDataId : Option UInt32
  deriving DecidableEq, Repr

/-- `RemoteClipboardTransfer`: the files that are fetched, one after another. -/
structure RemoteClipboardTransfer where
  transferId : UInt64
  clipDataId : Option UInt32
  staging : Staging
  files : List RemoteFile
  topLevelNames : List String
  currentFile : Nat
  expectedSize : Option Nat
  offset : Nat
  accountedBytes : Nat
  outputFile : Option Nat
  pending : Option PendingRemoteRequest
  deriving DecidableEq, Repr

/-- What a call leaves behind and what it returns. -/
abbrev Outcome := RemoteClipboardTransfer × Except Failure RemoteTransferAction

/-- `create_directories`: in the order of the layout, so that a parent comes first. -/
def createDirectories (fs : StagingFs) (staging : Staging) :
    List (List String) → Except String Staging
  | [] => .ok staging
  | directory :: rest =>
    match fs.createDir staging directory with
    | .error _ => .error "remote clipboard staging directory could not be created"
    | .ok () =>
      createDirectories fs { staging with directories := staging.directories ++ [directory] } rest

namespace RemoteClipboardTransfer

/-- `RemoteClipboardTransfer::create`: the directories are made before the first request. -/
def create (fs : StagingFs) (layout : RemoteClipboardLayout) (settings : RemoteTransferSettings) :
    Except String RemoteClipboardTransfer := do
  let staging ← createDirectories fs ⟨settings.stagingPath, [], [], false⟩ layout.directories
  return {
    transferId := settings.transferId
    clipDataId := settings.clipDataId
    staging := staging
    files := layout.files
    topLevelNames := layout.topLevelNames
    currentFile := 0
    expectedSize := none
    offset := 0
    accountedBytes := 0
    outputFile := none
    pending := none }

/-- `RemoteClipboardTransfer::complete`: the staging is kept, and its top-level paths go out. -/
def complete (t : RemoteClipboardTransfer) : Outcome :=
  ({ t with staging := { t.staging with retained := true } },
    .ok (.ready (t.topLevelNames.map t.staging.join)))

/-- `RemoteClipboardTransfer::request_size`: of the file at hand. -/
def requestSize (t : RemoteClipboardTransfer) (streamId : UInt32) : Outcome :=
  let t := { t with pending := some ⟨streamId, .size⟩ }
  match t.files[t.currentFile]? with
  | none => (t, .error .panic)
  | some file =>
    (t, .ok (.request ⟨streamId, file.descriptorIndex, sizeFlag, 0, sizeRequestBytes,
      t.clipDataId⟩))

/-- `RemoteClipboardTransfer::request_range`. The conversion to `u32` succeeds, as the amount is at
most one chunk. -/
def requestRange (t : RemoteClipboardTransfer) (streamId : UInt32) : Outcome :=
  let expected := t.expectedSize.getD 0
  if expected < t.offset then (t, .error .panic)
  else
    let remaining := expected - t.offset
    let amount := min remaining remoteFileChunkBytes
    let requested := if amount < 2 ^ 32 then amount else remoteFileChunkBytes
    let t := { t with pending := some ⟨streamId, .range requested⟩ }
    match t.files[t.currentFile]? with
    | none => (t, .error .panic)
    | some file =>
      (t, .ok (.request ⟨streamId, file.descriptorIndex, rangeFlag, t.offset, requested,
        t.clipDataId⟩))

/-- `RemoteClipboardTransfer::start`: with no files it is complete at once. -/
def start (t : RemoteClipboardTransfer) (streamId : UInt32) : Outcome :=
  if t.files = [] then t.complete else t.requestSize streamId

/-- The second half of `finish_file`, once the file has been flushed. -/
def nextFile (t : RemoteClipboardTransfer) (nextStreamId : UInt32) : Outcome :=
  let t := { t with currentFile := t.currentFile + 1, expectedSize := none, offset := 0 }
  if t.currentFile = t.files.length then t.complete else t.requestSize nextStreamId

/-- `RemoteClipboardTransfer::finish_file`: the file is flushed, and the next one begins. -/
def finishFile (fs : StagingFs) (t : RemoteClipboardTransfer) (nextStreamId : UInt32) : Outcome :=
  match t.outputFile with
  | none => t.nextFile nextStreamId
  | some file =>
    -- the handle is given up even when flushing fails
    let t := { t with outputFile := none }
    match fs.flush t.staging file with
    | .error message => (t, .error (.error message))
    | .ok () => t.nextFile nextStreamId

/-- `RemoteClipboardTransfer::account_size`. The new amount is stored before it is checked. -/
def accountSize (t : RemoteClipboardTransfer) (size : Nat) :
    RemoteClipboardTransfer × Except Failure Unit :=
  if size ≤ maxSingleFileBytes then
    if t.accountedBytes + size < 2 ^ 64 then
      let t := { t with accountedBytes := t.accountedBytes + size }
      if t.accountedBytes ≤ maxTotalTransferBytes then (t, .ok ())
      else (t, .error (.error "remote clipboard transfer exceeds the total size limit"))
    else (t, .error (.error "remote clipboard transfer size overflow"))
  else (t, .error (.error "remote clipboard file exceeds the single-file limit"))

section

variable {ρ : Type} (pdu : Pdu ρ)

/-- `RemoteClipboardTransfer::accept_size`: it has to be what the descriptor said, and within the bounds. -/
def acceptSize (fs : StagingFs) (t : RemoteClipboardTransfer) (response : ρ)
    (nextStreamId : UInt32) : Outcome :=
  match pdu.dataAsSize response with
  | none => (t, .error (.error "remote clipboard size response is invalid"))
  | some size =>
    match t.files[t.currentFile]? with
    | none => (t, .error (.error "remote clipboard file index is invalid"))
    | some file =>
      -- an advertised size must still hold
      if file.advertisedSize = none ∨ file.advertisedSize = some size then
        match t.accountSize size with
        | (t, .error failure) => (t, .error failure)
        | (t, .ok ()) =>
          match fs.createNew t.staging file.relativePath with
          | .error _ =>
            (t, .error (.error "remote clipboard staging file could not be created"))
          | .ok () =>
            let created : StagedFile := ⟨file.relativePath, []⟩
            let t := { t with
              staging := { t.staging with files := t.staging.files ++ [created] }
              outputFile := some t.staging.files.length
              expectedSize := some size
              offset := 0 }
            -- an empty file has no range to ask for
            if size = 0 then t.finishFile fs nextStreamId else t.requestRange nextStreamId
      else (t, .error (.error "remote clipboard file size changed"))

/-- `RemoteClipboardTransfer::accept_range`: no more than was asked for, and never nothing. -/
def acceptRange (fs : StagingFs) (t : RemoteClipboardTransfer) (data : List UInt8) (requested : Nat)
    (nextStreamId : UInt32) : Outcome :=
  match t.expectedSize with
  | none => (t, .error (.error "remote clipboard file size is missing"))
  | some expected =>
    if data = [] then (t, .error (.error "remote clipboard returned an empty file chunk"))
    else if requested < data.length then
      (t, .error (.error "remote clipboard returned an oversized file chunk"))
    else if 2 ^ 64 ≤ t.offset + data.length then
      (t, .error (.error "remote clipboard file offset overflow"))
    else if expected < t.offset + data.length then
      (t, .error (.error "remote clipboard file exceeds its size"))
    else
      match t.outputFile with
      | none => (t, .error (.error "remote clipboard staging file is missing"))
      | some file =>
        match fs.writeAll t.staging file data with
        -- the offset is not moved, but a part may have reached the file
        | .error (written, message) =>
          ({ t with staging := t.staging.append file (data.take written) },
            .error (.error message))
        | .ok () =>
          let t := { t with
            staging := t.staging.append file data
            offset := t.offset + data.length }
          if t.offset = expected then t.finishFile fs nextStreamId
          else t.requestRange nextStreamId

/-- `RemoteClipboardTransfer::advance`: an answer that is not awaited is ignored. -/
def advance (fs : StagingFs) (t : RemoteClipboardTransfer) (response : ρ) (nextStreamId : UInt32) :
    Outcome :=
  match t.pending with
  | none => (t, .ok .ignore)
  | some pending =>
    if pending.streamId ≠ pdu.streamId response then (t, .ok .ignore)
    else
      -- the request is answered, whatever the answer is worth
      let t := { t with pending := none }
      if pdu.isError response then (t, .error (.error "remote clipboard file request failed"))
      else
        match pending.kind with
        | .size => t.acceptSize pdu fs response nextStreamId
        | .range requested => t.acceptRange fs (pdu.data response) requested nextStreamId

end

end RemoteClipboardTransfer

end Clipboard
end Rdp
end Navop
