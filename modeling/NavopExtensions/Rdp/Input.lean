import NavopExtensions.Lib.Machine

/-!
# The input requests of the RDP helper

`apply_input_request` (`rdp-helper/src/rdp/input.rs`) turns the host's requests into events on a
bounded channel to the RDP client. A slot of the channel is reserved first and the event is built
afterwards (`HelperInputSender::try_send_with`), because building it changes the input `Database`
of IronRDP. Mouse moves are given up when the channel is full and remembered in a slot of their
own; everything else is retried until the channel has room.

What the channel answers to the coming attempts is a list in the context. A call that has used up
the answers is still in its retry loop: its outcome is `waiting`. The database belongs to IronRDP
and is a parameter (`InputDatabase`), with what the code relies on in `InputDatabase.Lawful`.
-/

namespace Navop
namespace Rdp
namespace Input

/-! ### Requests -/

/-- `HelperMouseButton`, and the `MouseButton` of IronRDP it is mapped to. -/
inductive MouseButton where
  | left
  | middle
  | right
  | x1
  | x2
  deriving DecidableEq, Repr

/-- `HelperRequest`. The fields of `Connect` are not read here. -/
inductive HelperRequest where
  | connect
  | resize (width height : UInt16) (scaleFactor : UInt32)
  | mouseMove (x y : UInt16)
  | mouseButton (button : MouseButton) (pressed : Bool)
  | wheel (vertical : Bool) (units : Int16)
  | key (code : UInt16) (extended pressed : Bool)
  | text (text : String)
  | clipboardText (text : String)
  | clipboardFiles (transferId : UInt64) (paths : List String)
  | cancelClipboardTransfer (transferId : UInt64)
  | close
  deriving DecidableEq, Repr

/-! ### The input database of IronRDP -/

/-- `MousePosition`: in pixels of the remote screen. -/
structure MousePosition where
  x : UInt16
  y : UInt16
  deriving DecidableEq, Repr

/-- `Scancode`: a code, and whether it is an extended one. -/
structure Scancode where
  code : UInt8
  extended : Bool
  deriving DecidableEq, Repr

/-- `Operation`. -/
inductive Operation where
  | mouseButtonPressed (button : MouseButton)
  | mouseButtonReleased (button : MouseButton)
  | mouseMove (position : MousePosition)
  | wheelRotations (isVertical : Bool) (rotationUnits : Int16)
  | keyPressed (scancode : Scancode)
  | keyReleased (scancode : Scancode)
  | unicodeKeyPressed (character : Char)
  | unicodeKeyReleased (character : Char)
  deriving DecidableEq, Repr

/-- `Database`, with events of type `ε`: what one operation does, and where the mouse is. -/
structure InputDatabase (Db ε : Type) where
  perform : Db → Operation → Db × List ε
  mousePosition : Db → MousePosition

namespace InputDatabase

variable {Db ε : Type}

/-- `Database::apply`: the operations are performed in order. -/
def apply (lib : InputDatabase Db ε) (database : Db) (operations : List Operation) :
    Db × List ε :=
  Machine.run lib.perform database operations

/-- What the code relies on. -/
structure Lawful (lib : InputDatabase Db ε) : Prop where
  /-- A move moves the mouse there. -/
  moves : ∀ database position,
    lib.mousePosition (lib.perform database (.mouseMove position)).1 = position
  /-- No other operation moves it. -/
  stays : ∀ database operation, (∀ position, operation ≠ .mouseMove position) →
    lib.mousePosition (lib.perform database operation).1 = lib.mousePosition database
  /-- An operation without events has changed nothing. -/
  silent : ∀ database operation, (lib.perform database operation).2 = [] →
    (lib.perform database operation).1 = database

end InputDatabase

/-! ### The channel -/

/-- `RdpInputEvent`, as far as input requests build them. -/
inductive RdpInputEvent (ε : Type) where
  | resize (width height : UInt16) (scaleFactor : UInt32)
  | fastPath (events : List ε)
  deriving DecidableEq, Repr

/-- What `try_reserve` answers: there is room, there is none, or nobody reads any more. -/
inductive Answer where
  | free
  | full
  | closed
  deriving DecidableEq, Repr

/-- `InputQueueStatus`: the event went into the queue, or did not. -/
inductive InputQueueStatus where
  | sent
  | full
  deriving DecidableEq, Repr

/-- `RdpInputAction`: whether the session goes on. -/
inductive RdpInputAction where
  | continue
  | close
  deriving DecidableEq, Repr

/-- How a call has ended, if it has. -/
inductive Outcome (α : Type) where
  | ok (value : α)
  | error (message : String)
  | waiting
  deriving DecidableEq, Repr

/-- What a closure given to `try_send_with` has done: the operations it applied to the database, the
database afterwards, and the event to put on the channel. -/
structure Built (Db ε : Type) where
  operations : List Operation
  database : Db
  event : Option (RdpInputEvent ε)

/-- A slot of the channel that was granted: the database before, and what was built then. -/
structure Grant (Db ε : Type) where
  before : Db
  built : Built Db ε

/-- `RdpInputContext`: the channel (what it will answer, and the slots it has granted so far), the
database and the move that was given up last. -/
structure RdpInputContext (Db ε : Type) where
  answers : List Answer
  granted : List (Grant Db ε)
  database : Db
  pendingMousePosition : Option MousePosition

variable {Db ε : Type}

/-- What is on the channel, in order. -/
def RdpInputContext.queue (context : RdpInputContext Db ε) : List (RdpInputEvent ε) :=
  context.granted.filterMap fun grant => grant.built.event

/-- A slot is granted: the event is built, and put on the channel if there is one. -/
def RdpInputContext.grant (context : RdpInputContext Db ε) (buildEvent : Db → Built Db ε)
    (answers : List Answer) : RdpInputContext Db ε :=
  let built := buildEvent context.database
  { context with
    answers := answers
    granted := context.granted ++ [⟨context.database, built⟩]
    database := built.database }

/-- `HelperInputSender::try_send_with`: the event is only built when there is room for it. -/
def trySendWith (buildEvent : Db → Built Db ε) (context : RdpInputContext Db ε) :
    Outcome InputQueueStatus × RdpInputContext Db ε :=
  match context.answers with
  | [] => (.waiting, context)
  | .free :: answers => (.ok .sent, context.grant buildEvent answers)
  | .full :: answers => (.ok .full, { context with answers := answers })
  | .closed :: answers =>
    (.error "RDP input channel closed", { context with answers := answers })

/-- `HelperInputSender::try_send`: of an event that is there already. -/
def trySend (event : RdpInputEvent ε) (context : RdpInputContext Db ε) :
    Outcome InputQueueStatus × RdpInputContext Db ε :=
  trySendWith (fun database => ⟨[], database, some event⟩) context

/-- `fast_path_event`: no events are not sent. -/
def fastPathEvent (events : List ε) : Option (RdpInputEvent ε) :=
  if events.isEmpty then none else some (.fastPath events)

/-- The loop of `send_reliably`, for at most `attempts` attempts. -/
def sendReliablyFor (attempt : RdpInputContext Db ε →
      Outcome InputQueueStatus × RdpInputContext Db ε) :
    ℕ → RdpInputContext Db ε → Outcome Unit × RdpInputContext Db ε
  | 0, context => (.waiting, context)
  | attempts + 1, context =>
    match attempt context with
    | (.ok .sent, context) => (.ok (), context)
    | (.ok .full, context) => sendReliablyFor attempt attempts context
    | (.error message, context) => (.error message, context)
    | (.waiting, context) => (.waiting, context)

/-- `send_reliably`. The attempt after the last answer is the one that is waiting. -/
def sendReliably (attempt : RdpInputContext Db ε →
      Outcome InputQueueStatus × RdpInputContext Db ε)
    (context : RdpInputContext Db ε) : Outcome Unit × RdpInputContext Db ε :=
  sendReliablyFor attempt (context.answers.length + 1) context

/-! ### The requests one by one -/

/-- `send_resize`: it waits for room. -/
def sendResize (width height : UInt16) (scaleFactor : UInt32) (context : RdpInputContext Db ε) :
    Outcome Unit × RdpInputContext Db ε :=
  sendReliably (trySend (.resize width height scaleFactor)) context

/-- `mouse_button_operation`: down or up. -/
def mouseButtonOperation (button : MouseButton) (pressed : Bool) : Operation :=
  if pressed then .mouseButtonPressed button else .mouseButtonReleased button

/-- `key_operation`: a scancode of more than a byte is refused. -/
def keyOperation (code : UInt16) (extended pressed : Bool) : Except String Operation :=
  if 256 ≤ code.toNat then .error "RDP scancode must fit in u8"
  else
    let scancode : Scancode := ⟨code.toUInt8, extended⟩
    .ok (if pressed then .keyPressed scancode else .keyReleased scancode)

variable (lib : InputDatabase Db ε)

/-- The closure of `try_send_operations`: the database moves on, and says what is new. -/
def buildOperations (operations : List Operation) (database : Db) : Built Db ε :=
  let applied := lib.apply database operations
  ⟨operations, applied.1, fastPathEvent applied.2⟩

/-- `try_send_operations`: the database stays as it is when the queue is full. -/
def trySendOperations (operations : List Operation) (context : RdpInputContext Db ε) :
    Outcome InputQueueStatus × RdpInputContext Db ε :=
  trySendWith (buildOperations lib operations) context

/-- `send_operations`: they wait for room. -/
def sendOperations (operations : List Operation) (context : RdpInputContext Db ε) :
    Outcome Unit × RdpInputContext Db ε :=
  sendReliably (trySendOperations lib operations) context

/-- `send_mouse_move`: the position is kept until it is sent. -/
def sendMouseMove (position : MousePosition) (context : RdpInputContext Db ε) :
    Outcome Unit × RdpInputContext Db ε :=
  let context := { context with pendingMousePosition := some position }
  match trySendOperations lib [.mouseMove position] context with
  | (.ok .sent, context) => (.ok (), { context with pendingMousePosition := none })
  | (.ok .full, context) => (.ok (), context)
  | (.error message, context) => (.error message, context)
  | (.waiting, context) => (.waiting, context)

/-- `send_pointer_operation`: a position that is pending goes in front, in one event with it. -/
def sendPointerOperation (operation : Operation) (context : RdpInputContext Db ε) :
    Outcome Unit × RdpInputContext Db ε :=
  match context.pendingMousePosition with
  | some position =>
    match sendReliably (trySendOperations lib [.mouseMove position, operation]) context with
    | (.ok (), context) => (.ok (), { context with pendingMousePosition := none })
    | failed => failed
  | none => sendOperations lib [operation] context

/-- `send_text`, on the characters that are left. -/
def sendText : List Char → RdpInputContext Db ε → Outcome Unit × RdpInputContext Db ε
  | [], context => (.ok (), context)
  | character :: text, context =>
    match sendOperations lib [.unicodeKeyPressed character, .unicodeKeyReleased character]
      context with
    | (.ok (), context) => sendText text context
    | failed => failed

/-- `Ok(RdpInputAction::Continue)` after the `?` of a request. -/
def thenContinue (result : Outcome Unit × RdpInputContext Db ε) :
    Outcome RdpInputAction × RdpInputContext Db ε :=
  match result with
  | (.ok (), context) => (.ok .continue, context)
  | (.error message, context) => (.error message, context)
  | (.waiting, context) => (.waiting, context)

/-- `apply_input_request`. The clipboard controller does not touch the context; `clipboard` is what
its `set_local_text` returns. -/
def applyInputRequest (request : HelperRequest) (clipboard : Except String Unit)
    (context : RdpInputContext Db ε) : Outcome RdpInputAction × RdpInputContext Db ε :=
  match request with
  | .resize width height scaleFactor =>
    -- a move that was given up uses coordinates of the previous desktop size
    thenContinue (sendResize width height scaleFactor { context with pendingMousePosition := none })
  | .mouseMove x y => thenContinue (sendMouseMove lib ⟨x, y⟩ context)
  | .mouseButton button pressed =>
    thenContinue (sendPointerOperation lib (mouseButtonOperation button pressed) context)
  | .wheel vertical units =>
    thenContinue (sendPointerOperation lib (.wheelRotations vertical units) context)
  | .key code extended pressed =>
    match keyOperation code extended pressed with
    | .ok operation => thenContinue (sendOperations lib [operation] context)
    | .error message => (.error message, context)
  | .text text => thenContinue (sendText lib text.toList context)
  | .clipboardText _ =>
    match clipboard with
    | .ok () => (.ok .continue, context)
    | .error message => (.error message, context)
  | .clipboardFiles .. => (.ok .continue, context)
  | .cancelClipboardTransfer .. => (.ok .continue, context)
  | .close => (.ok .close, context)
  | .connect => (.error "Connect request is only valid as the first message", context)

/-! ### Runs -/

/-- The thread that reads the requests: its context, and whether it is still in a call. -/
structure Reader (Db ε : Type) where
  context : RdpInputContext Db ε
  waiting : Bool

/-- The next request, with what the clipboard controller answers. The requests that have been
handled are the outputs. -/
def Reader.step (reader : Reader Db ε) (call : HelperRequest × Except String Unit) :
    Reader Db ε × List HelperRequest :=
  if reader.waiting then (reader, [])
  else
    match applyInputRequest lib call.1 call.2 reader.context with
    | (.waiting, context) => (⟨context, true⟩, [])
    | (_, context) => (⟨context, false⟩, [call.1])

/-- The thread before the first request. -/
def Reader.initial (database : Db) (answers : List Answer) : Reader Db ε :=
  ⟨⟨answers, [], database, none⟩, false⟩

/-- The thread after a run, and the requests it has handled. -/
def Reader.run (database : Db) (answers : List Answer)
    (calls : List (HelperRequest × Except String Unit)) : Reader Db ε × List HelperRequest :=
  Machine.run (Reader.step lib) (Reader.initial database answers) calls

end Input
end Rdp
end Navop
