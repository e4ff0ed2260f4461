import NavopExtensions.Lib.Machine

/-!
# The output mailbox of the VNC helper

`vnc-helper/src/output_mailbox.rs` and the outputs of `runtime.rs` it carries. The mailbox has a
queue for control outputs, a slot for the latest complete frame and a slot for the pending delta, and
a flag that says whether outputs that belong to a session are accepted. A new generation, like the
end of a session, clears what belongs to the session that is over and lowers the flag; `Connected`
raises it.

Locking is not modelled: a call is one transition, as every method holds the lock from its first to
its last access. `recv` waits while nothing is queued, which is a call that changes nothing here.
-/

namespace Navop
namespace Vnc

/-! ### Outputs -/

/-- `ResizeSupport`: the screen of the server keeps its size. -/
inductive ResizeSupport where
  | localScaleOnly
  deriving DecidableEq, Repr

/-- `RemoteDesktopCapabilities`: what the client may offer to the user. -/
structure RemoteDesktopCapabilities where
  resize : ResizeSupport
  clipboardText : Bool
  cursorShape : Bool
  audio : Bool
  fileTransfer : Bool
  deriving DecidableEq, Repr

/-- `RemoteDesktopCursor`: a picture, and the point of it that points. -/
structure RemoteDesktopCursor where
  width : UInt16
  height : UInt16
  hotspotX : UInt16
  hotspotY : UInt16
  rgba : List UInt8
  deriving DecidableEq, Repr

/-- `RemoteDesktopReconnectReason`: why the session starts anew. -/
inductive RemoteDesktopReconnectReason where
  | displayUpdate
  | sessionError
  | connectionLost
  | manual
  deriving DecidableEq, Repr

/-- `RemoteDesktopReconnect`: why it does, and after how many seconds. -/
structure RemoteDesktopReconnect where
  reason : RemoteDesktopReconnectReason
  delaySecs : Option UInt64
  deriving DecidableEq, Repr

/-- `RemoteDesktopFrameRect`: a part of the screen, and how many bytes it has. -/
structure RemoteDesktopFrameRect where
  x : UInt16
  y : UInt16
  width : UInt16
  height : UInt16
  byteLen : Nat
  deriving DecidableEq, Repr

/-- `RemoteDesktopOutput`: what the backend tells the client. -/
inductive RemoteDesktopOutput where
  | connected (width height : UInt16) (capabilities : RemoteDesktopCapabilities)
  | frame (width height : UInt16) (rgba : List UInt8)
  | frameBgraRects (width height : UInt16) (rects : List RemoteDesktopFrameRect)
    (bgra : List UInt8)
  | cursorDefault
  | cursorHidden
  | cursorPosition (x y : UInt16)
  | cursorBitmap (cursor : RemoteDesktopCursor)
  | clipboardText (text : String)
  | reconnecting (reconnect : RemoteDesktopReconnect)
  | status (message : String)
  | connectionFailure (message : String)
  | terminated (message : String)
  deriving DecidableEq, Repr

namespace RemoteDesktopOutput

/-- `is_session_scoped_control`: what means nothing once the session is over. -/
def isSessionScopedControl : RemoteDesktopOutput → Bool
  | .clipboardText .. | .cursorDefault | .cursorHidden | .cursorPosition .. | .cursorBitmap .. =>
    true
  | _ => false

/-- A complete frame or a delta. -/
def isPicture : RemoteDesktopOutput → Bool
  | .frame .. | .frameBgraRects .. => true
  | _ => false

/-- The outputs that belong to a session. -/
def isSessionScoped (output : RemoteDesktopOutput) : Bool :=
  output.isPicture || output.isSessionScopedControl

/-- The outputs that tell the host what becomes of the connection. -/
def isLifecycle : RemoteDesktopOutput → Bool
  | .connected .. | .reconnecting .. | .status .. | .connectionFailure .. | .terminated .. => true
  | _ => false

/-- The outputs that end a session. -/
def closes : RemoteDesktopOutput → Bool
  | .reconnecting .. | .connectionFailure .. | .terminated .. => true
  | _ => false

end RemoteDesktopOutput

/-! ### The mailbox -/

namespace Mailbox

/-- `State`: what waits in each of the three places, and who is still there. -/
structure State where
  control : List RemoteDesktopOutput
  latestFrame : Option RemoteDesktopOutput
  latestDelta : Option RemoteDesktopOutput
  acceptingSessionOutputs : Bool
  senderCount : Nat
  receiverAlive : Bool
  deriving DecidableEq, Repr

/-- `output_mailbox`: nothing waits, and one sender is there. -/
def outputMailbox : State := ⟨[], none, none, true, 1, true⟩

/-- `MailboxClosed`. -/
inductive MailboxClosed where
  | mailboxClosed
  deriving DecidableEq, Repr

/-- `merge_deltas`: the later behind the earlier, when they are of one size. -/
def mergeDeltas (previous next : RemoteDesktopOutput) : RemoteDesktopOutput :=
  match previous, next with
  | .frameBgraRects width height rects bgra,
    .frameBgraRects nextWidth nextHeight nextRects nextBgra =>
    if width = nextWidth ∧ height = nextHeight then
      .frameBgraRects width height (rects ++ nextRects) (bgra ++ nextBgra)
    else next
  | _, next => next

/-- `enqueue_control`: a position takes the place of one at the end. -/
def enqueueControl (control : List RemoteDesktopOutput) (output : RemoteDesktopOutput) :
    List RemoteDesktopOutput :=
  match control.getLast?, output with
  | some (.cursorPosition ..), .cursorPosition nextX nextY =>
    control.dropLast ++ [.cursorPosition nextX nextY]
  | some (.cursorBitmap ..), .cursorBitmap cursor => control.dropLast ++ [.cursorBitmap cursor]
  | _, output => control ++ [output]

/-- `discard_pending_session_controls`: the other events stay, in their order. -/
def discardPendingSessionControls (control : List RemoteDesktopOutput) :
    List RemoteDesktopOutput :=
  control.filter fun output => !output.isSessionScopedControl

/-- `close_session_outputs`: what the session has left behind is thrown away. -/
def closeSessionOutputs (state : State) : State :=
  { state with
    latestFrame := none
    latestDelta := none
    acceptingSessionOutputs := false
    control := discardPendingSessionControls state.control }

/-- `OutputSender::begin_generation`: nothing of the session before is handed over. -/
def beginGeneration (state : State) : State := closeSessionOutputs state

/-- The branches of `OutputSender::send`, for a receiver that is alive. -/
def accept (state : State) (output : RemoteDesktopOutput) : State :=
  match output with
  -- the session is over: what is left of it must not be shown
  | .reconnecting .. =>
    let state := closeSessionOutputs state
    { state with control := state.control ++ [output] }
  | .connected .. =>
    { state with acceptingSessionOutputs := true, control := state.control ++ [output] }
  -- outside of a session a picture is dropped
  | .frame .. =>
    if state.acceptingSessionOutputs then
      -- a complete frame makes the delta before it pointless
      { state with latestFrame := some output, latestDelta := none }
    else state
  | .frameBgraRects .. =>
    if state.acceptingSessionOutputs then
      { state with
        latestDelta := some (match state.latestDelta with
          | some previous => mergeDeltas previous output
          | none => output) }
    else state
  | .connectionFailure .. | .terminated .. =>
    let state := closeSessionOutputs state
    { state with control := state.control ++ [output] }
  -- cursor and clipboard belong to a session, a status does not
  | control =>
    if control.isSessionScopedControl && !state.acceptingSessionOutputs then state
    else { state with control := enqueueControl state.control control }

/-- `OutputSender::send`: an error once the receiver has gone. -/
def send (state : State) (output : RemoteDesktopOutput) : Except MailboxClosed State :=
  if state.receiverAlive then .ok (accept state output) else .error .mailboxClosed

/-- `OutputReceiver::recv`: control outputs first, then the frame, then the delta. Nothing is handed
out while the call waits, nor when every sender is gone. -/
def recv (state : State) : State × Option RemoteDesktopOutput :=
  match state.control with
  | control :: rest => ({ state with control := rest }, some control)
  | [] =>
    -- a delta that is there came after the frame, which clears it
    match state.latestFrame with
    | some frame => ({ state with latestFrame := none }, some frame)
    | none =>
      match state.latestDelta with
      | some delta => ({ state with latestDelta := none }, some delta)
      | none => (state, none)

/-! ### Runs -/

/-- One call on the mailbox. -/
inductive Op where
  | beginGeneration
  | send (output : RemoteDesktopOutput)
  | recv
  deriving DecidableEq, Repr

/-- The transition of one call and the output it hands to the host, if any. -/
def step (state : State) : Op → State × List RemoteDesktopOutput
  | .beginGeneration => (beginGeneration state, [])
  | .send output =>
    match send state output with
    | .ok next => (next, [])
    -- the sender learns of it, the mailbox stays as it is
    | .error _ => (state, [])
  | .recv => ((recv state).1, (recv state).2.toList)

/-- The outputs sent by a list of calls, in order. -/
def sentOutputs (ops : List Op) : List RemoteDesktopOutput :=
  ops.filterMap fun op => match op with
    | .send output => some output
    | _ => none

/-- The state a list of calls reaches from a fresh mailbox. -/
def reached (ops : List Op) : State := (Machine.run step outputMailbox ops).1

/-- The outputs a list of calls hands to the host, in order. -/
def received (ops : List Op) : List RemoteDesktopOutput := (Machine.run step outputMailbox ops).2

/-- Nothing is left to receive. -/
def State.Drained (state : State) : Prop :=
  state.control = [] ∧ state.latestFrame = none ∧ state.latestDelta = none

instance (state : State) : Decidable state.Drained :=
  inferInstanceAs (Decidable (_ ∧ _ ∧ _))

end Mailbox
end Vnc
end Navop
