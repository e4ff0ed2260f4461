import NavopExtensions.Vnc.Mailbox

/-!
# Inputs of a VNC session

The inputs of `vnc-helper/src/runtime.rs`, the clipboard snapshot of `vnc_clipboard.rs`, the keyboard
of `vnc_keyboard.rs` and the handling of inputs in `vnc_input.rs`.

The VNC client is a list of answers: every event handed to it takes the next one. An input channel is
the queue of what has been sent and not yet taken. `drain_remote_inputs` is one transition: what
arrives while it runs may as well have arrived before.
-/

namespace Navop
namespace Vnc

/-! ### Inputs -/

/-- `RemoteMouseButton`: the five that the client knows. -/
inductive RemoteMouseButton where
  | left
  | middle
  | right
  | x1
  | x2
  deriving DecidableEq, Repr

/-- `RemoteKey`: by its place on the keyboard, or by its meaning. -/
inductive RemoteKey where
  | scancode (value : UInt16)
  | keySym (value : UInt32)
  deriving DecidableEq, Repr

/-- `RemoteDesktopInput`. -/
inductive RemoteDesktopInput where
  | resize (width height : UInt16)
  | mouseMove (x y : UInt16)
  | mouseButton (button : RemoteMouseButton) (pressed : Bool)
  | wheel (vertical : Bool) (units : Int16)
  | key (key : RemoteKey) (pressed : Bool)
  | text (text : String)
  | clipboardText (text : String)
  | clipboardFiles (paths : List String)
  | reconnect
  | close
  deriving DecidableEq

/-- `MAX_INPUTS_PER_POLL`: the inputs of a round at most. -/
def maxInputsPerPoll : ℕ := 256

/-- `TryRecvError`: nothing yet, or nothing ever more. -/
inductive TryRecvError where
  | empty
  | disconnected
  deriving DecidableEq, Repr

/-- The receiving end of the input channel; `closed` when the host has dropped its end. -/
structure InputRx where
  queue : List RemoteDesktopInput
  closed : Bool
  deriving DecidableEq

namespace InputRx

/-- `UnboundedReceiver::try_recv`: the oldest input, also after the sender has gone. -/
def tryRecv (rx : InputRx) : Except TryRecvError RemoteDesktopInput × InputRx :=
  match rx.queue with
  | input :: rest => (.ok input, { rx with queue := rest })
  | [] => (.error (if rx.closed then .disconnected else .empty), rx)

/-- What has been taken from the channel between two moments. -/
def taken (rx rx' : InputRx) : List RemoteDesktopInput :=
  rx.queue.take (rx.queue.length - rx'.queue.length)

end InputRx

/-! ### The clipboard -/

/-- `MAX_CUT_TEXT_BYTES`: the bytes of a text at most. -/
def maxCutTextBytes : ℕ := 20 * 1024 * 1024

/-- `VncClipboardSnapshot`: a text as it goes over the wire. -/
structure VncClipboardSnapshot where
  wireBytes : List UInt8
  deriving DecidableEq, Repr

namespace VncClipboardSnapshot

/-- The byte of a character: Latin-1, or `?`. -/
def wireByte (character : Char) : UInt8 :=
  if character.toNat < 256 then character.toNat.toUInt8 else 63

/-- The loop of `VncClipboardSnapshot::encode`: one byte a character, while there is room. -/
def encodeChars : List Char → List UInt8 → Option (List UInt8)
  | [], wireBytes => some wireBytes
  | character :: characters, wireBytes =>
    if wireBytes.length = maxCutTextBytes then none
    else encodeChars characters (wireBytes ++ [wireByte character])

/-- `VncClipboardSnapshot::encode`: none for a text that is too long. -/
def encode (text : String) : Option VncClipboardSnapshot :=
  (encodeChars text.toList []).map fun wireBytes => ⟨wireBytes⟩

end VncClipboardSnapshot

/-! ### The client -/

/-- `anyhow::Error`: a message and what caused it. -/
structure AnyhowError where
  message : String
  causes : List String
  deriving DecidableEq, Repr

namespace AnyhowError

/-- `anyhow!(..)`: an error without causes. -/
def msg (message : String) : AnyhowError := ⟨message, []⟩

/-- `Context::context`: a message around an error. -/
def context (error : AnyhowError) (message : String) : AnyhowError :=
  ⟨message, error.message :: error.causes⟩

/-- The error with its causes, as in `{error:#}`. -/
def chain (error : AnyhowError) : String := ": ".intercalate (error.message :: error.causes)

end AnyhowError

/-- `X11Event`, as far as the helper sends it. -/
inductive X11Event where
  | refresh
  | fullRefresh
  | keyEvent (keysym : UInt32) (pressed : Bool)
  | pointerEvent (x y : UInt16) (mask : UInt8)
  | copyTextBytes (bytes : List UInt8)
  deriving DecidableEq, Repr

/-- `VncClient`: the answers to come, and the events it has sent. -/
structure VncClient where
  answers : List (Except AnyhowError Unit)
  sent : List X11Event

/-- `VncClient::input`. A client with no answers left sends the event. -/
def VncClient.input (client : VncClient) (event : X11Event) : Except AnyhowError Unit × VncClient :=
  match client.answers with
  | [] => (.ok (), { client with sent := client.sent ++ [event] })
  | .ok () :: answers => (.ok (), ⟨answers, client.sent ++ [event]⟩)
  -- an event that fails is not sent
  | .error error :: answers => (.error error, ⟨answers, client.sent⟩)

/-! ### The pointer and the keyboard -/

/-- `VncPointerState`: where the pointer is, and which buttons are down. -/
structure VncPointerState where
  x : UInt16
  y : UInt16
  buttons : UInt8
  deriving DecidableEq, Repr

/-- `vnc_button_bit`: the protocol has no bit for some buttons. -/
def vncButtonBit : RemoteMouseButton → Option UInt8
  | .left => some 1
  | .middle => some 2
  | .right => some 4
  | .x1 => some 128
  | .x2 => none

/-- `vnc_wheel_bit`: the direction is a button, and how far it turned is lost. -/
def vncWheelBit (vertical : Bool) (units : Int16) : Option UInt8 :=
  match vertical, units.toInt.sign with
  | true, -1 => some 8
  | true, 1 => some 16
  | false, -1 => some 32
  | false, 1 => some 64
  -- a wheel that has not turned
  | _, _ => none

namespace VncPointerState

/-- `VncPointerState::default`. -/
def default : VncPointerState := ⟨0, 0, 0⟩

variable (pointer : VncPointerState)

/-- `VncPointerState::move_to`: the buttons stay as they are. -/
def moveTo (x y : UInt16) : VncPointerState := { pointer with x := x, y := y }

/-- `VncPointerState::set_button`: the bit is set or cleared. -/
def setButton (button : RemoteMouseButton) (pressed : Bool) : VncPointerState :=
  match vncButtonBit button with
  -- a button that the protocol does not have changes nothing
  | none => pointer
  | some bit =>
    { pointer with
      buttons := if pressed then pointer.buttons ||| bit else pointer.buttons &&& ~~~bit }

/-- `VncPointerState::wheel_masks`: the button of the direction goes down and up again. -/
def wheelMasks (vertical : Bool) (units : Int16) : List UInt8 :=
  match vncWheelBit vertical units with
  | none => []
  -- the buttons that are down stay down
  | some bit => [pointer.buttons ||| bit, pointer.buttons]

/-- `VncPointerState::release_buttons`: one event, and only if a button is down. -/
def releaseButtons (client : VncClient) :
    Except AnyhowError Unit × VncPointerState × VncClient :=
  if pointer.buttons = 0 then (.ok (), pointer, client)
  else
    match client.input (.pointerEvent pointer.x pointer.y 0) with
    | (.ok (), client) => (.ok (), { pointer with buttons := 0 }, client)
    -- the buttons count as released either way, there is no second attempt
    | (.error error, client) =>
      (.error (.msg ("VNC mouse release failed: " ++ error.message)),
        { pointer with buttons := 0 }, client)

end VncPointerState

/-- The keys of `scancode_to_keysym`, apart from the function keys. -/
def scancodeKeysyms : List (UInt16 × UInt32) :=
  [(0x01, 0xff1b), (0x02, 0x31), (0x03, 0x32), (0x04, 0x33), (0x05, 0x34), (0x06, 0x35),
    (0x07, 0x36), (0x08, 0x37), (0x09, 0x38), (0x0a, 0x39), (0x0b, 0x30), (0x0e, 0xff08),
    (0x0f, 0xff09), (0x10, 0x71), (0x11, 0x77), (0x12, 0x65), (0x13, 0x72), (0x14, 0x74),
    (0x15, 0x79), (0x16, 0x75), (0x17, 0x69), (0x18, 0x6f), (0x19, 0x70), (0x1c, 0xff0d),
    (0x1d, 0xffe3), (0x1e, 0x61), (0x1f, 0x73), (0x20, 0x64), (0x21, 0x66), (0x22, 0x67),
    (0x23, 0x68), (0x24, 0x6a), (0x25, 0x6b), (0x26, 0x6c), (0x2a, 0xffe1), (0x2c, 0x7a),
    (0x2d, 0x78), (0x2e, 0x63), (0x2f, 0x76), (0x30, 0x62), (0x31, 0x6e), (0x32, 0x6d),
    (0x38, 0xffe9), (0x39, 0x20), (0x3a, 0xffe5), (0x57, 0xffc8), (0x58, 0xffc9),
    (0xe01c, 0xff0d), (0xe01d, 0xffe4), (0xe038, 0xffea), (0xe047, 0xff50), (0xe048, 0xff52),
    (0xe049, 0xff55), (0xe04b, 0xff51), (0xe04d, 0xff53), (0xe04f, 0xff57), (0xe050, 0xff54),
    (0xe051, 0xff56), (0xe052, 0xff63), (0xe053, 0xffff)]

/-- `scancode_to_keysym`: the function keys by their distance, the others from the table. -/
def scancodeToKeysym (scancode : UInt16) : Option UInt32 :=
  -- F1 to F10 stand in a row, F11 and F12 do not follow them
  if 0x3b ≤ scancode ∧ scancode ≤ 0x44 then some (0xffbe + (scancode.toUInt32 - 0x3b))
  else scancodeKeysyms.lookup scancode

/-- `remote_key_to_keysym`: a keysym is taken as it is. -/
def remoteKeyToKeysym : RemoteKey → Option UInt32
  | .keySym value => some value
  | .scancode value => scancodeToKeysym value

/-- `VncKeyboardState`: the keys that are down. -/
structure VncKeyboardState where
  pressed : Finset UInt32
  deriving DecidableEq

namespace VncKeyboardState

/-- `VncKeyboardState::default`. -/
def default : VncKeyboardState := ⟨∅⟩

/-- `VncKeyboardState::send`: the books change only when the event went out. -/
def send (keyboard : VncKeyboardState) (client : VncClient) (keysym : UInt32) (pressed : Bool) :
    Except AnyhowError Unit × VncKeyboardState × VncClient :=
  match client.input (.keyEvent keysym pressed) with
  | (.ok (), client) =>
    (.ok (), ⟨if pressed then insert keysym keyboard.pressed else keyboard.pressed.erase keysym⟩,
      client)
  -- a key whose release fails still counts as down
  | (.error error, client) => (.error (error.context "VNC keyboard event failed"), keyboard, client)

/-- The loop of `VncKeyboardState::release_all`: it goes on after an error and keeps the first. -/
def releaseKeys (keyboard : VncKeyboardState) (client : VncClient)
    (firstError : Option AnyhowError) : List UInt32 → Option AnyhowError × VncClient
  | [] => (firstError, client)
  | keysym :: held =>
    match keyboard.send client keysym false with
    | (.ok (), keyboard, client) => releaseKeys keyboard client firstError held
    | (.error error, keyboard, client) => releaseKeys keyboard client (firstError.or (some error)) held

/-- `VncKeyboardState::release_all`: every key goes up, and the first error is remembered. -/
def releaseAll (keyboard : VncKeyboardState) (client : VncClient) :
    Option AnyhowError × VncKeyboardState × VncClient :=
  let released := keyboard.releaseKeys client none (keyboard.pressed.sort (· ≤ ·))
  -- the set is emptied whether or not the releases went out
  (released.1, default, released.2)

end VncKeyboardState

/-! ### Handling an input -/

/-- `VncInputAction`: what an input does to the session. -/
inductive VncInputAction where
  | continues
  | closed
  | inputClosed
  | reconnect
  | failed (diagnostic : String)
  deriving DecidableEq, Repr

/-- What the handling of inputs reads and changes. -/
structure InputState where
  client : VncClient
  latestClipboard : Option VncClipboardSnapshot
  keyboard : VncKeyboardState
  pointer : VncPointerState

namespace InputState

variable (state : InputState)

/-- `send_pointer_event`, and the new pointer if it is sent; `move_pointer` and `update_button`. -/
def sendPointer (next : VncPointerState) : Except AnyhowError VncInputAction × InputState :=
  match state.client.input (.pointerEvent next.x next.y next.buttons) with
  | (.ok (), client) => (.ok .continues, { state with client := client, pointer := next })
  -- the pointer stays where the server last heard of it
  | (.error error, client) => (.error error, { state with client := client })

/-- `send_wheel_events`: the first that fails ends it. -/
def sendWheelEvents : InputState → List UInt8 → Except AnyhowError VncInputAction × InputState
  | state, [] => (.ok .continues, state)
  | state, mask :: masks =>
    match state.client.input (.pointerEvent state.pointer.x state.pointer.y mask) with
    | (.ok (), client) => sendWheelEvents { state with client := client } masks
    | (.error error, client) => (.error error, { state with client := client })

/-- `send_clipboard_text`: the snapshot is kept, also when it cannot be sent. -/
def sendClipboardText (text : String) : Except AnyhowError VncInputAction × InputState :=
  match VncClipboardSnapshot.encode text with
  -- a text that is too long is dropped, which is no error
  | none => (.ok .continues, state)
  | some snapshot =>
    match state.client.input (.copyTextBytes snapshot.wireBytes) with
    | (.ok (), client) =>
      (.ok .continues, { state with client := client, latestClipboard := some snapshot })
    | (.error error, client) =>
      (.error error, { state with client := client, latestClipboard := some snapshot })

/-- The keys of `send_vnc_input`, whose keysym is known. -/
def sendKey (keysym : UInt32) (pressed : Bool) : Except AnyhowError VncInputAction × InputState :=
  match state.keyboard.send state.client keysym pressed with
  | (.ok (), keyboard, client) =>
    (.ok .continues, { state with keyboard := keyboard, client := client })
  | (.error error, keyboard, client) =>
    (.error error, { state with keyboard := keyboard, client := client })

/-- `send_vnc_input`: inputs that the protocol has nothing for are passed over. -/
def sendVncInput : RemoteDesktopInput → Except AnyhowError VncInputAction × InputState
  | .close => (.ok .closed, state)
  | .reconnect => (.ok .reconnect, state)
  | .mouseMove x y => state.sendPointer (state.pointer.moveTo x y)
  | .mouseButton button pressed => state.sendPointer (state.pointer.setButton button pressed)
  | .wheel vertical units => sendWheelEvents state (state.pointer.wheelMasks vertical units)
  | .key key pressed =>
    match remoteKeyToKeysym key with
    | some keysym => state.sendKey keysym pressed
    -- a key without a keysym is dropped
    | none => (.ok .continues, state)
  | .clipboardText text => state.sendClipboardText text
  -- typed text goes by way of the clipboard too
  | .text text => state.sendClipboardText text
  | .clipboardFiles _ => (.ok .continues, state)
  | .resize .. => (.ok .continues, state)

/-- `handle_vnc_input`: an error ends the session. -/
def handleVncInput (input : RemoteDesktopInput) : VncInputAction × InputState :=
  match state.sendVncInput input with
  | (.ok action, state) => (action, state)
  | (.error error, state) => (.failed error.message, state)

/-- The loop of `handle_pending_inputs`: the first input that does not continue ends it. -/
def handleInputs : InputState → List RemoteDesktopInput → VncInputAction × InputState
  | state, [] => (.continues, state)
  | state, input :: inputs =>
    match state.handleVncInput input with
    | (.continues, state) => handleInputs state inputs
    | (action, state) => (action, state)

end InputState

/-! ### Batches -/

/-- The loop of `coalesce_remote_inputs`: a move waits for the next input that is not a move. -/
def coalesceInputs : Option RemoteDesktopInput → List RemoteDesktopInput → List RemoteDesktopInput
  | pendingMouseMove, [] => pendingMouseMove.toList
  | pendingMouseMove, input :: inputs =>
    match input with
    -- the move that waited is overwritten
    | .mouseMove x y => coalesceInputs (some (.mouseMove x y)) inputs
    | input => pendingMouseMove.toList ++ input :: coalesceInputs none inputs

/-- `coalesce_remote_inputs`: of mouse moves in a row the last one is kept. -/
def coalesceRemoteInputs (inputs : List RemoteDesktopInput) : List RemoteDesktopInput :=
  coalesceInputs none inputs

/-- `VncInputBatch`: the inputs of a round, or the news that there will be none. -/
inductive VncInputBatch where
  | inputs (inputs : List RemoteDesktopInput)
  | disconnected
  deriving DecidableEq

/-- The loop of `drain_remote_inputs`: the inputs so far go along. -/
def drainInputs : ℕ → InputRx → List RemoteDesktopInput → VncInputBatch × InputRx
  | 0, rx, inputs => (.inputs (coalesceRemoteInputs inputs), rx)
  | n + 1, rx, inputs =>
    match rx.tryRecv with
    | (.ok input, rx) => drainInputs n rx (inputs ++ [input])
    | (.error .empty, rx) => (.inputs (coalesceRemoteInputs inputs), rx)
    -- inputs that were read in this round are given up with the session
    | (.error .disconnected, rx) => (.disconnected, rx)

/-- `drain_remote_inputs`: whatever is there, within the bound. -/
def drainRemoteInputs (rx : InputRx) : VncInputBatch × InputRx := drainInputs maxInputsPerPoll rx []

/-- `handle_pending_inputs`: a round of inputs. -/
def handlePendingInputs (state : InputState) (rx : InputRx) :
    VncInputAction × InputState × InputRx :=
  match drainRemoteInputs rx with
  | (.inputs inputs, rx) =>
    let handled := state.handleInputs inputs
    (handled.1, handled.2, rx)
  | (.disconnected, rx) => (.inputClosed, state, rx)

/-- `shutdown_inputs`: the keys first, then the buttons, and the first error is told. -/
def shutdownInputs (state : InputState) : Option AnyhowError × InputState :=
  match state.keyboard.releaseAll state.client with
  | (firstError, keyboard, client) =>
    match state.pointer.releaseButtons client with
    | (.ok (), pointer, client) =>
      (firstError, { state with keyboard := keyboard, pointer := pointer, client := client })
    -- an error of the keys comes first
    | (.error error, pointer, client) =>
      (firstError.or (some error),
        { state with keyboard := keyboard, pointer := pointer, client := client })

end Vnc
end Navop
