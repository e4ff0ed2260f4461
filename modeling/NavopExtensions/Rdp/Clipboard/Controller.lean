import NavopExtensions.Lib.Machine
import NavopExtensions.Rdp.Clipboard.Local
import NavopExtensions.Rdp.Protocol

/-!
# The clipboard's shared state

`TextClipboardState` and the two sides that lock it: the callbacks of the clipboard channel
(`rdp-helper/src/clipboard/backend.rs`, `backend_remote.rs`), which run one at a time on the client
thread, and the operations of the controller (`controller.rs`), which run on the host's thread.

The lock is held for short sections only. A callback that gives it up remembers what it has still to
do as a `Task`; resuming the task is a step of its own, and the controller may strike before it. So
one step is one section under the lock, one message sent on the clipboard channel, or one event
handed to the host. What the outside world answers during a step (whether a message could be sent,
what the file system did, the time) is part of the step's label.
-/

namespace Navop
namespace Rdp
namespace Clipboard

open Checks

/-- `REMOTE_CLIPBOARD_TRANSFER_BIT`: the ids with this bit are those of transfers from the server. -/
def remoteClipboardTransferBit : UInt64 := (1 : UInt64) <<< 63

/-- `LOCAL_CLIPBOARD_TRANSFER_MASK`: the bits that a local id may use. -/
def localClipboardTransferMask : UInt64 := remoteClipboardTransferBit - 1

/-- `FIRST_SEQUENCE_ID`: zero is never given out. -/
def firstSequenceId : UInt64 := 1

/-- `REMOTE_TEXT_AFTER_FILES_SUPPRESS`, in milliseconds. -/
def remoteTextAfterFilesSuppress : Nat := 3000

/-! ### Formats -/

/-- `ClipboardFormat`: a number, and a name for those that are registered. -/
structure ClipboardFormat where
  id : UInt32
  name : Option String
  deriving DecidableEq, Repr

/-- `ClipboardFormatName::FILE_LIST`: the registered format of a list of files. -/
def fileListName : String := "FileGroupDescriptorW"

/-- `ClipboardFormatId::CF_UNICODETEXT`: the standard format of texts. -/
def cfUnicodeText : UInt32 := 13

/-! ### The state -/

/-- `TextClipboardState`. Instants are milliseconds. -/
structure TextClipboardState (P : Type) (rules : NameRules) where
  localText : Option String
  localFiles : Option (LocalClipboardTransfer P rules)
  lockedLocalFiles : List (UInt32 × LocalClipboardTransfer P rules)
  pendingRemote : Option UInt64
  remoteTransfer : Option RemoteClipboardTransfer
  waitingRemoteText : Bool
  nextRemoteSequence : UInt64
  nextStreamId : UInt32
  lastRemoteFileReadyAt : Option Nat

namespace TextClipboardState

variable {P N : Type} {rules : NameRules} (state : TextClipboardState P rules)

/-- `TextClipboardState::new`. -/
def new : TextClipboardState P rules where
  localText := none
  localFiles := none
  lockedLocalFiles := []
  pendingRemote := none
  remoteTransfer := none
  waitingRemoteText := false
  nextRemoteSequence := firstSequenceId
  nextStreamId := 1
  lastRemoteFileReadyAt := none

/-- The sequence number after this one; zero is skipped. -/
def followingSequence (sequence : UInt64) : UInt64 :=
  let next := (sequence + 1) &&& localClipboardTransferMask
  if next = 0 then firstSequenceId else next

/-- `TextClipboardState::reserve_remote_transfer`: a new id, and the transfer that ran is given up. -/
def reserveRemoteTransfer : UInt64 × TextClipboardState P rules :=
  let transferId := remoteClipboardTransferBit ||| state.nextRemoteSequence
  (transferId, { state with
    remoteTransfer := none
    nextRemoteSequence := followingSequence state.nextRemoteSequence
    pendingRemote := some transferId })

/-- `TextClipboardState::allocate_stream_id`: the ids go around, and leave out zero. -/
def allocateStreamId : UInt32 × TextClipboardState P rules :=
  let next := state.nextStreamId + 1
  (state.nextStreamId, { state with nextStreamId := if next = 0 then 1 else next })

/-- The transfer that is running has this id. -/
def running (transferId : UInt64) : Bool :=
  state.remoteTransfer.any fun transfer => transfer.transferId = transferId

/-- Stop the transfer with this id if it is running. -/
def stopRunning (transferId : UInt64) : TextClipboardState P rules :=
  if state.running transferId then { state with remoteTransfer := none } else state

/-- Forget the transfer with this id if it is pending. -/
def forgetPending (transferId : UInt64) : TextClipboardState P rules :=
  if state.pendingRemote = some transferId then { state with pendingRemote := none } else state

/-- `TextClipboardState::cancel_local_transfer`: it goes from the offer and from the locked ones. -/
def cancelLocalTransfer (transferId : UInt64) : Bool × TextClipboardState P rules :=
  let currentMatches := state.localFiles.any fun transfer => transfer.transferId = transferId
  let locked := state.lockedLocalFiles.filter fun entry => entry.2.transferId ≠ transferId
  (currentMatches || state.lockedLocalFiles.length ≠ locked.length,
    { state with
      localFiles := if currentMatches then none else state.localFiles
      lockedLocalFiles := locked })

/-! ### The controller -/

/-- `TextClipboardController::set_local_text`: a text takes the place of the files. -/
def setLocalText (text : String) : TextClipboardState P rules :=
  { state with localText := some text, localFiles := none }

/-- `TextClipboardController::set_local_files`. The files are collected before the lock is taken. -/
def setLocalFiles (fs : SourceFs P N) (transferId : UInt64) (paths : List String) :
    Except String (TextClipboardState P rules) := do
  ensure (transferId &&& remoteClipboardTransferBit = 0)
    "local clipboard transfer ID uses the remote namespace"
  let transfer ← LocalClipboardTransfer.collect rules fs transferId paths
  return { state with localText := none, localFiles := some transfer }

/-- `TextClipboardController::cancel_transfer`: wherever a transfer with this id is, it ends. -/
def cancelTransfer (transferId : UInt64) : Bool × TextClipboardState P rules :=
  let localCancel := state.cancelLocalTransfer transferId
  let wasPending := decide (localCancel.2.pendingRemote = some transferId)
  let wasRunning := localCancel.2.running transferId
  (localCancel.1 || wasPending || wasRunning,
    (localCancel.2.forgetPending transferId).stopRunning transferId)

/-- `TextClipboardController::shutdown`: what is offered and what runs is given up. -/
def shutdown : TextClipboardState P rules :=
  { state with
    localText := none
    localFiles := none
    pendingRemote := none
    remoteTransfer := none
    waitingRemoteText := false
    lockedLocalFiles := [] }

/-- The lock section of `build_cliprdr_backend`. -/
def buildCliprdrBackend : TextClipboardState P rules :=
  { state with
    pendingRemote := none
    remoteTransfer := none
    waitingRemoteText := false
    lockedLocalFiles := [] }

end TextClipboardState

/-! ### Tasks of the client thread -/

/-- What a callback that gave up the lock has still to do. -/
inductive Task where
  | idle
  /-- `begin_remote_copy`: the paste of a file list is to be initiated. -/
  | initiatePaste (transferId : UInt64) (format : UInt32)
  /-- `begin_remote_copy`: that could not be sent. -/
  | pasteFailed (transferId : UInt64)
  /-- `begin_remote_text`: the paste of a text is to be initiated. -/
  | initiateTextPaste
  /-- `receive_remote_files`: the list is to be validated and its directories created. -/
  | stage (transferId : UInt64) (files : List FileDescriptor) (clipDataId : Option UInt32)
  /-- `install_remote_transfer`. -/
  | install (transferId : UInt64) (result : Except String RemoteClipboardTransfer)
  /-- `dispatch_remote_result`. -/
  | dispatch (transferId : UInt64) (result : Except String RemoteTransferAction)
  /-- `dispatch_remote_result`: the request could not be sent. -/
  | requestFailed (transferId : UInt64)
  /-- An event is to be handed to the host. -/
  | report (event : HelperEvent)
  /-- The client thread has panicked. -/
  | unwound

/-- What the outside world answers during a step. -/
structure Env where
  /-- Whether a message can be sent on the clipboard channel. -/
  sent : Bool
  /-- `TransferDirectory::create`: the staging directory. -/
  staging : Except String String
  stagingFs : StagingFs
  now : Nat

/-- What can be seen of a step. -/
inductive Trace where
  /-- An id was reserved for a remote transfer. -/
  | reserved (transferId : UInt64)
  /-- The files of a local transfer were accepted. -/
  | accepted (transferId : UInt64)
  /-- An event was handed to the host. -/
  | sent (event : HelperEvent)
  deriving DecidableEq, Repr

variable {P N ρ : Type} {rules : NameRules}

/-- What a step leaves behind: the state, the task and what was seen. -/
abbrev Section (P : Type) (rules : NameRules) := TextClipboardState P rules × Task × List Trace

/-- The lock section of `begin_remote_text`. -/
def beginRemoteText (state : TextClipboardState P rules) (formats : List ClipboardFormat)
    (now : Nat) : Section P rules :=
  let unicode := formats.any fun format => format.id = cfUnicodeText
  -- the text of files that have just been pulled is announced once more
  if unicode && state.lastRemoteFileReadyAt.any fun readyAt =>
      now - readyAt < remoteTextAfterFilesSuppress then
    (state, .idle, [])
  else
    ({ state with pendingRemote := none, remoteTransfer := none, waitingRemoteText := unicode },
      if unicode then .initiateTextPaste else .idle, [])

/-- The lock section of `begin_remote_copy`. -/
def beginRemoteCopy (state : TextClipboardState P rules) (formats : List ClipboardFormat)
    (now : Nat) : Section P rules :=
  match formats.find? fun format => format.name = some fileListName with
  | some format =>
    let reserved := { state with waitingRemoteText := false }.reserveRemoteTransfer
    (reserved.2, .initiatePaste reserved.1 format.id, [.reserved reserved.1])
  | none => beginRemoteText state formats now

/-- The lock section of `receive_remote_files`. -/
def receiveRemoteFiles (state : TextClipboardState P rules) (files : List FileDescriptor)
    (clipDataId : Option UInt32) : Section P rules :=
  match state.pendingRemote with
  | none => (state, .idle, [])
  | some transferId => (state, .stage transferId files clipDataId, [])

/-- What `receive_remote_files` does without the lock. -/
def stageRemoteFiles (rules : NameRules) (env : Env) (transferId : UInt64)
    (files : List FileDescriptor) (clipDataId : Option UInt32) :
    Except String RemoteClipboardTransfer := do
  let layout ← RemoteClipboardLayout.validate rules files
  let stagingPath ← env.staging
  RemoteClipboardTransfer.create env.stagingFs layout ⟨transferId, stagingPath, clipDataId⟩

/-- The lock section of `install_remote_transfer`. -/
def installRemoteTransfer (state : TextClipboardState P rules) (transferId : UInt64)
    (result : Except String RemoteClipboardTransfer) : Section P rules :=
  if state.pendingRemote ≠ some transferId then (state, .idle, [])
  else
    let state := { state with pendingRemote := none }
    match result with
    | .error message => (state, .dispatch transferId (.error message), [])
    | .ok transfer =>
      let stream := state.allocateStreamId
      match transfer.start stream.1 with
      | (transfer, .ok (.request request)) =>
        ({ stream.2 with remoteTransfer := some transfer },
          .dispatch transferId (.ok (.request request)), [])
      | (_, .ok action) => (stream.2, .dispatch transferId (.ok action), [])
      | (_, .error (.error message)) => (stream.2, .dispatch transferId (.error message), [])
      | (_, .error .panic) => (stream.2, .unwound, [])

/-- The lock section of `advance_remote_transfer`. -/
def advanceRemoteTransfer (pdu : Pdu ρ) (state : TextClipboardState P rules) (response : ρ)
    (env : Env) : Section P rules :=
  match state.remoteTransfer with
  | none => (state, .idle, [])
  | some transfer =>
    let transferId := transfer.transferId
    let stream := { state with remoteTransfer := none }.allocateStreamId
    match transfer.advance pdu env.stagingFs response stream.1 with
    | (_, .ok (.ready paths)) =>
      ({ stream.2 with lastRemoteFileReadyAt := some env.now },
        .dispatch transferId (.ok (.ready paths)), [])
    | (transfer, .ok action) =>
      ({ stream.2 with remoteTransfer := some transfer }, .dispatch transferId (.ok action), [])
    | (_, .error (.error message)) => (stream.2, .dispatch transferId (.error message), [])
    | (_, .error .panic) => (stream.2, .unwound, [])

/-- `dispatch_remote_result`, up to the message or event it sends. -/
def dispatchRemoteResult (state : TextClipboardState P rules) (transferId : UInt64)
    (result : Except String RemoteTransferAction) (sent : Bool) : Section P rules :=
  match result with
  | .ok (.request _) => (state, if sent then .idle else .requestFailed transferId, [])
  | .ok (.ready paths) => (state, .report (.clipboardFilesReady transferId paths), [])
  | .ok .ignore => (state, .idle, [])
  | .error message => (state, .report (.clipboardTransferFailed transferId message), [])

/-- The lock section of `cancel_remote_locks`. -/
def cancelRemoteLocks (state : TextClipboardState P rules) (clipDataIds : List UInt32) :
    Section P rules :=
  match state.remoteTransfer with
  | none => (state, .idle, [])
  | some transfer =>
    if transfer.clipDataId.any fun id => clipDataIds.any fun lock => lock = id then
      ({ state with remoteTransfer := none },
        .report (.clipboardTransferFailed transfer.transferId "remote clipboard snapshot expired"),
        [])
    else (state, .idle, [])

/-- The callbacks that lock the state. -/
inductive Callback (ρ : Type) where
  | buildCliprdrBackend
  | remoteCopy (formats : List ClipboardFormat)
  | remoteFileList (files : List FileDescriptor) (clipDataId : Option UInt32)
  | fileContentsResponse (response : ρ)
  /-- `on_format_data_response`, with the text if the response carries one. -/
  | formatDataResponse (text : Option String)
  | lock (dataId : UInt32)
  | unlock (dataId : UInt32)
  | outgoingLocksCleared (clipDataIds : List UInt32)
  | outgoingLocksExpired (clipDataIds : List UInt32)

/-- The first lock section of a callback. -/
def call (pdu : Pdu ρ) (state : TextClipboardState P rules) (env : Env) :
    Callback ρ → Section P rules
  | .buildCliprdrBackend => (state.buildCliprdrBackend, .idle, [])
  | .remoteCopy formats => beginRemoteCopy state formats env.now
  | .remoteFileList files clipDataId => receiveRemoteFiles state files clipDataId
  | .fileContentsResponse response => advanceRemoteTransfer pdu state response env
  | .formatDataResponse text =>
    ({ state with waitingRemoteText := false },
      match text with
      | some text => if state.waitingRemoteText then .report (.clipboardText text) else .idle
      | none => .idle, [])
  | .lock dataId =>
    (match state.localFiles with
      | some transfer => { state with
          lockedLocalFiles :=
            (dataId, transfer) :: state.lockedLocalFiles.filter fun entry => entry.1 ≠ dataId }
      | none => state, .idle, [])
  | .unlock dataId =>
    ({ state with
      lockedLocalFiles := state.lockedLocalFiles.filter fun entry => entry.1 ≠ dataId },
      .idle, [])
  | .outgoingLocksCleared clipDataIds => cancelRemoteLocks state clipDataIds
  | .outgoingLocksExpired clipDataIds => cancelRemoteLocks state clipDataIds

/-- The next section of a callback that is under way. -/
def resume (state : TextClipboardState P rules) (env : Env) : Task → Section P rules
  | .idle => (state, .idle, [])
  | .initiatePaste transferId _ =>
    (state, if env.sent then .idle else .pasteFailed transferId, [])
  | .pasteFailed transferId =>
    (state.forgetPending transferId, .report (.clipboardTransferFailed transferId
      "RDP clipboard channel closed before the file transfer started"), [])
  | .initiateTextPaste => (state, .idle, [])
  | .stage transferId files clipDataId =>
    (state, .install transferId (stageRemoteFiles rules env transferId files clipDataId), [])
  | .install transferId result => installRemoteTransfer state transferId result
  | .dispatch transferId result => dispatchRemoteResult state transferId result env.sent
  | .requestFailed transferId =>
    (state.stopRunning transferId, .report (.clipboardTransferFailed transferId
      "RDP clipboard channel closed during the file transfer"), [])
  | .report event => (state, .idle, [.sent event])
  | .unwound => (state, .unwound, [])

/-! ### Runs -/

/-- One step of either side. -/
inductive Step (P N ρ : Type) where
  | call (env : Env) (callback : Callback ρ)
  | resume (env : Env)
  | cancelTransfer (transferId : UInt64)
  | setLocalText (text : String)
  | setLocalFiles (fs : SourceFs P N) (transferId : UInt64) (paths : List String)
  | shutdown

/-- The shared clipboard: the state and the task of the client thread. -/
structure SharedClipboard (P : Type) (rules : NameRules) where
  state : TextClipboardState P rules
  task : Task

/-- `build_text_clipboard`: nothing offered, nothing pending. -/
def SharedClipboard.initial : SharedClipboard P rules := ⟨.new, .idle⟩

/-- One step. A callback starts when the one before has ended. -/
def SharedClipboard.step (pdu : Pdu ρ) (c : SharedClipboard P rules) :
    Step P N ρ → SharedClipboard P rules × List Trace
  | .call env callback =>
    match c.task with
    | .idle =>
      let next := Clipboard.call pdu c.state env callback
      (⟨next.1, next.2.1⟩, next.2.2)
    | _ => (c, [])
  | .resume env =>
    let next := Clipboard.resume c.state env c.task
    (⟨next.1, next.2.1⟩, next.2.2)
  | .cancelTransfer transferId => (⟨(c.state.cancelTransfer transferId).2, c.task⟩, [])
  | .setLocalText text => (⟨c.state.setLocalText text, c.task⟩, [])
  | .setLocalFiles fs transferId paths =>
    match c.state.setLocalFiles fs transferId paths with
    | .ok state => (⟨state, c.task⟩, [.accepted transferId])
    | .error _ => (c, [])
  | .shutdown => (⟨c.state.shutdown, c.task⟩, [])

/-- What is seen of a run. -/
def SharedClipboard.trace (pdu : Pdu ρ) (rules : NameRules) (steps : List (Step P N ρ)) :
    List Trace :=
  (Machine.run (step pdu) (initial : SharedClipboard P rules) steps).2

/-- The state after a run. -/
def SharedClipboard.reached (pdu : Pdu ρ) (rules : NameRules) (steps : List (Step P N ρ)) :
    SharedClipboard P rules :=
  (Machine.run (step pdu) (initial : SharedClipboard P rules) steps).1

end Clipboard
end Rdp
end Navop
