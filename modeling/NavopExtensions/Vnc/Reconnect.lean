import NavopExtensions.Vnc.Input

/-!
# The reconnect loop of the VNC helper

`run_vnc_backend` and `run_vnc_session` of `vnc-helper/src/vnc_rfb.rs` with `vnc_reconnect.rs`: a
session is started, polled until something ends it, and started again, at once or after a wait in
which inputs are still taken from the channel. The clipboard survives in `latest_clipboard`, which a
new session sends to the server before it does anything else.

The environment is in the labels: what the host sends, whether the server can be reached, what the
client answers, how polling the server and refreshing end, and when a wait is over. Every round of a
loop is one transition. Time is not modelled: a wait is over when its label says so.
-/

namespace Navop
namespace Vnc
namespace Backend

/-! ### The end of a session -/

/-- `VncSessionResult`: how a session ended. -/
inductive VncSessionResult where
  | closed
  | inputClosed
  | reconnect (reason : RemoteDesktopReconnectReason) (diagnostic : String)
    (manual wasConnected : Bool)
  deriving DecidableEq, Repr

/-- `reconnect_reason`: a session that was never there cannot be lost. -/
def reconnectReason (wasConnected : Bool) : RemoteDesktopReconnectReason :=
  if wasConnected then .connectionLost else .sessionError

/-- `session_result_from_action`: none while the session goes on. -/
def sessionResultFromAction (action : VncInputAction) (wasConnected : Bool) :
    Option VncSessionResult :=
  match action with
  | .continues => none
  | .closed => some .closed
  | .inputClosed => some .inputClosed
  | .reconnect => some (.reconnect .manual "manual reconnect" true wasConnected)
  | .failed diagnostic =>
    some (.reconnect (reconnectReason wasConnected) diagnostic false wasConnected)

/-- The seconds of `reconnect_delay`: longer with each attempt, up to a bound. -/
def reconnectDelay (attempt : ℕ) : UInt64 :=
  match attempt with
  | 0 => 1
  | 1 => 2
  | 2 => 5
  | _ => 10

/-- `merge_cleanup_error`: it joins the diagnostic of a reconnect, and is dropped otherwise. -/
def mergeCleanupError (result : VncSessionResult) (error : AnyhowError) : VncSessionResult :=
  match result with
  | .reconnect reason diagnostic manual wasConnected =>
    .reconnect reason (diagnostic ++ "; cleanup failed: " ++ error.chain) manual wasConnected
  | .closed => .closed
  | .inputClosed => .inputClosed

/-! ### States and effects -/

/-- What a connected session keeps from one round to the next. -/
structure ConnectedVncSession where
  keyboard : VncKeyboardState
  pointer : VncPointerState
  wasConnected : Bool
  deriving DecidableEq

/-- `ConnectedVncSession::new`: no key and no button down. -/
def ConnectedVncSession.new : ConnectedVncSession := ⟨.default, .default, false⟩

/-- Where the backend is. -/
inductive Phase where
  | starting
  | connected (session : ConnectedVncSession)
  | waiting
  | ended
  deriving DecidableEq

/-- The backend and its input channel. -/
structure State where
  phase : Phase
  latestClipboard : Option VncClipboardSnapshot
  reconnectAttempt : ℕ
  input : InputRx
  deriving DecidableEq

/-- What the backend does in view of others. -/
inductive Effect where
  | took (inputs : List RemoteDesktopInput)
  | starts (latestClipboard : Option VncClipboardSnapshot)
  | sent (event : X11Event)
  | mailbox (op : Mailbox.Op)
  deriving DecidableEq

/-- `send_reconnecting`: the client learns why, and when. -/
def sendReconnecting (reason : RemoteDesktopReconnectReason) (delaySecs : Option UInt64) : Effect :=
  .mailbox (.send (.reconnecting ⟨reason, delaySecs⟩))

/-- What `run_vnc_backend` does with the result of a session. -/
def afterSession (state : State) (result : VncSessionResult) : State × List Effect :=
  match result with
  | .closed | .inputClosed => ({ state with phase := .ended }, [])
  | .reconnect reason _ manual wasConnected =>
    let attempt := if wasConnected || manual then 0 else state.reconnectAttempt
    if manual then
      ({ state with phase := .starting, reconnectAttempt := attempt },
        [sendReconnecting reason none])
    else
      ({ state with phase := .waiting, reconnectAttempt := min (attempt + 1) (2 ^ 64 - 1) },
        [sendReconnecting reason (some (reconnectDelay attempt))])

/-- `shutdown_session`: the first error of releasing the inputs and closing the client. -/
def shutdownSession (inputs : InputState) (close : Except AnyhowError Unit) :
    Option AnyhowError × InputState :=
  let released := shutdownInputs inputs
  match close with
  | .ok () => released
  | .error error => (released.1.or (some (.msg error.message)), released.2)

/-- A session has come to its end: it is shut down, and the backend goes on. -/
def finishSession (state : State) (inputs : InputState) (close : Except AnyhowError Unit)
    (result : VncSessionResult) : State × List Effect :=
  let shutdown := shutdownSession inputs close
  let result := match shutdown.1 with
    | some error => mergeCleanupError result error
    | none => result
  let next := afterSession { state with latestClipboard := shutdown.2.latestClipboard } result
  (next.1, shutdown.2.client.sent.map .sent ++ next.2)

/-! ### Starting a session -/

/-- How `connect_vnc` ends: with a client, with an error of `is_terminal_connect_error`, or with
another one. -/
inductive ConnectResult where
  | connected
  | terminal (message : String)
  | error (message : String)
  deriving DecidableEq, Repr

/-- The part of `run_vnc_session` that follows the connection: the first refresh, then the
clipboard. -/
def openSession (state : State) (answers : List (Except AnyhowError Unit))
    (close : Except AnyhowError Unit) : State × List Effect :=
  let inputs : InputState := ⟨⟨answers, []⟩, state.latestClipboard, .default, .default⟩
  match inputs.client.input .fullRefresh with
  | (.error error, client) =>
    finishSession state { inputs with client := client } close
      (.reconnect .displayUpdate error.message false false)
  | (.ok (), client) =>
    match state.latestClipboard with
    | none => ({ state with phase := .connected .new }, client.sent.map .sent)
    | some snapshot =>
      match client.input (.copyTextBytes snapshot.wireBytes) with
      | (.error error, client) =>
        finishSession state { inputs with client := client } close
          (.reconnect (reconnectReason false) error.message false false)
      | (.ok (), client) => ({ state with phase := .connected .new }, client.sent.map .sent)

/-- `run_vnc_session`, up to its loop. -/
def startSession (destination : String) (state : State) (result : ConnectResult)
    (answers : List (Except AnyhowError Unit)) (close : Except AnyhowError Unit) :
    State × List Effect :=
  let status := Effect.mailbox (.send (.status ("connecting to VNC " ++ destination)))
  match result with
  | .terminal message =>
    let next := afterSession state .closed
    (next.1, status :: .mailbox (.send (.connectionFailure message)) :: next.2)
  | .error message =>
    let next := afterSession state (.reconnect .sessionError message false false)
    (next.1, status :: next.2)
  | .connected =>
    let next := openSession state answers close
    (next.1, status :: .mailbox .beginGeneration :: .starts state.latestClipboard :: next.2)

/-! ### Rounds -/

/-- What the environment does in one round of a connected session: whether the server has set its
resolution, how `poll_events` ends, what the client answers, how `refresh_if_needed` ends, and how
closing the client does. -/
structure Round where
  resolutionSet : Bool
  events : Except String Unit
  answers : List (Except AnyhowError Unit)
  refresh : Except String Unit
  close : Except AnyhowError Unit

/-- One round of `run_connected_vnc_session`: the events of the server, and then the inputs. -/
def pollSession (state : State) (session : ConnectedVncSession) (round : Round) :
    State × List Effect :=
  let wasConnected := session.wasConnected || round.resolutionSet
  let inputs : InputState :=
    ⟨⟨round.answers, []⟩, state.latestClipboard, session.keyboard, session.pointer⟩
  -- `poll_events` comes first, and ends the session with its first error
  match round.events with
  | .error reason =>
    finishSession state inputs round.close
      (.reconnect (reconnectReason wasConnected) reason false wasConnected)
  | .ok () =>
    match handlePendingInputs inputs state.input with
    | (action, inputs, rx) =>
      -- inputs that were read are gone, whatever becomes of the session
      let took := Effect.took (state.input.taken rx)
      match sessionResultFromAction action wasConnected with
      | some result =>
        let next := finishSession { state with input := rx } inputs round.close result
        (next.1, took :: next.2)
      | none =>
        -- the screen is only asked for when the inputs leave the session alive
        match round.refresh with
        | .error reason =>
          let next := finishSession { state with input := rx } inputs round.close
            (.reconnect .displayUpdate reason false wasConnected)
          (next.1, took :: next.2)
        | .ok () =>
          (⟨.connected ⟨inputs.keyboard, inputs.pointer, wasConnected⟩, inputs.latestClipboard,
            state.reconnectAttempt, rx⟩, took :: inputs.client.sent.map .sent)

/-! ### Waiting -/

/-- `MAX_RECONNECT_WAIT_INPUTS_PER_POLL`: the inputs of a round at most. -/
def maxReconnectWaitInputsPerPoll : ℕ := 256

/-- `WaitAction`: what an input does to the waiting. -/
inductive WaitAction where
  | continues
  | reconnectNow
  | stop
  deriving DecidableEq, Repr

/-- The loop of `handle_wait_input`: a clipboard text is kept for the session to come. -/
def waitInputs : ℕ → InputRx → Option VncClipboardSnapshot → WaitAction →
    WaitAction × InputRx × Option VncClipboardSnapshot
  | 0, rx, latestClipboard, action => (action, rx, latestClipboard)
  | n + 1, rx, latestClipboard, action =>
    match rx.tryRecv with
    | (.ok .close, rx) => (.stop, rx, latestClipboard)
    -- the rest of the round is read all the same
    | (.ok .reconnect, rx) => waitInputs n rx latestClipboard .reconnectNow
    | (.ok (.clipboardText text), rx) =>
      -- a text that is too long leaves the one before in place
      waitInputs n rx ((VncClipboardSnapshot.encode text).or latestClipboard) action
    | (.ok (.text text), rx) =>
      waitInputs n rx ((VncClipboardSnapshot.encode text).or latestClipboard) action
    -- there is no server that the other inputs could go to
    | (.ok _, rx) => waitInputs n rx latestClipboard action
    | (.error .empty, rx) => (action, rx, latestClipboard)
    -- whoever showed the session is gone
    | (.error .disconnected, rx) => (.stop, rx, latestClipboard)

/-- `handle_wait_input`: a round of inputs while no session is there. -/
def handleWaitInput (rx : InputRx) (latestClipboard : Option VncClipboardSnapshot) :
    WaitAction × InputRx × Option VncClipboardSnapshot :=
  waitInputs maxReconnectWaitInputsPerPoll rx latestClipboard .continues

/-- One round of `wait_before_reconnect`: an input may end the waiting before its time. -/
def pollWait (state : State) (expired : Bool) : State × List Effect :=
  match handleWaitInput state.input state.latestClipboard with
  | (action, rx, latestClipboard) =>
    let took := Effect.took (state.input.taken rx)
    let state := { state with latestClipboard := latestClipboard, input := rx }
    match action with
    -- the clipboard of the round is kept even then
    | .stop => ({ state with phase := .ended }, [took])
    | .reconnectNow => ({ state with phase := .starting }, [took])
    | .continues =>
      (if expired then { state with phase := .starting } else state, [took])

/-! ### Runs -/

/-- One transition of the system: the host sends an input or drops the channel, or the backend
starts a session or goes through a round of one of its loops. -/
inductive Label where
  | deliver (input : RemoteDesktopInput)
  | hangUp
  | start (result : ConnectResult) (answers : List (Except AnyhowError Unit))
    (close : Except AnyhowError Unit)
  | poll (round : Round)
  | wait (expired : Bool)

/-- One step. A label of the backend does nothing in a phase it does not belong to. -/
def step (destination : String) (state : State) (label : Label) : State × List Effect :=
  match label with
  | .deliver input =>
    -- a sender that is gone delivers nothing
    (if state.input.closed then state
      else { state with input := { state.input with queue := state.input.queue ++ [input] } }, [])
  | .hangUp => ({ state with input := { state.input with closed := true } }, [])
  | .start result answers close =>
    match state.phase with
    | .starting => startSession destination state result answers close
    | _ => (state, [])
  | .poll round =>
    match state.phase with
    | .connected session => pollSession state session round
    | _ => (state, [])
  | .wait expired =>
    match state.phase with
    | .waiting => pollWait state expired
    | _ => (state, [])

/-- The backend as `run_vnc_thread` starts it. -/
def initial : State := ⟨.starting, none, 0, ⟨[], false⟩⟩

/-- A run: where the backend gets, and what it does. -/
def run (destination : String) (labels : List Label) : State × List Effect :=
  Machine.run (step destination) initial labels

end Backend
end Vnc
end Navop
