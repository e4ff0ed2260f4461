import NavopExtensions.Lib.Machine
import NavopExtensions.Rocketmq.Acl

/-!
# The remoting channel

`RemotingChannel` of `rocketmq/src/remoting.rs`: calls of `invoke`, the reader and the writer of one
connection. A call takes a number, registers its waiter in the table of pending requests, sends its
frame and waits for the response; the reader takes the waiter of a frame's number out of the table
and hands the frame to it.

Calls, reader and writer run concurrently, and every access to what they share is one transition:
`advance` takes one call to its next access, `expired` saying whether its time is up. The reader
holds a waiter between taking it out of the table and sending to it. Two parts of the state record
what happens: `issued` counts the numbers handed out (the source keeps the wrapped counter only), and
`arrived` the frames read.
-/

namespace Navop
namespace Rocketmq
namespace Remoting

/-- A frame the reader has decoded, with its place in the order of arrival. -/
structure Delivery where
  frame : ℕ
  command : RemotingCommand
  deriving DecidableEq

/-- The channel between a waiter and the reader, `oneshot::channel`: not made yet, empty while the
sender is somewhere, with a value, or without sender and value. -/
inductive Slot where
  | unmade
  | empty
  | sent (delivery : Delivery)
  | dropped
  deriving DecidableEq

/-- How far a call of `invoke` has come. -/
inductive Stage where
  | entered
  | numbered
  | registered
  | sending (frame : List UInt8)
  | rejected
  | waiting
  | expired
  | returned (result : Except RocketmqError Delivery)

/-- A call of `invoke`; its ticket says how many numbers were handed out before its own. -/
structure Call where
  command : RemotingCommand
  stage : Stage
  slot : Slot
  ticket : Option ℕ

/-- What the reader is about. -/
inductive Reader where
  | reading
  | holding (call : ℕ) (delivery : Delivery)
  | stopping
  | stopped
  deriving DecidableEq

/-- The channel with its calls; `pending` maps numbers to calls. -/
structure State where
  active : Bool
  writerOpen : Bool
  pending : Finmap fun _ : Int32 => ℕ
  issued : ℕ
  calls : List Call
  reader : Reader
  arrived : ℕ

/-- `RemotingChannel::connect`: nothing pending, the reader at work. -/
def connected : State := ⟨true, true, ∅, 0, [], .reading, 0⟩

/-- `fetch_add` on the counter of requests, which starts at 1 and wraps. -/
def opaqueOf (issued : ℕ) : Int32 := Int32.ofNat (1 + issued)

/-- The end of a call. -/
structure Return where
  call : ℕ
  result : Except RocketmqError Delivery

namespace State

variable (s : State)

/-- A call goes on to its next stage. -/
def setStage (i : ℕ) (stage : Stage) : State :=
  { s with calls := s.calls.modify i fun call => { call with stage := stage } }

/-- The channel of a call is used. -/
def setSlot (i : ℕ) (slot : Slot) : State :=
  { s with calls := s.calls.modify i fun call => { call with slot := slot } }

/-- `pending.lock().remove(&opaque)`, dropping the sender: whoever waits for it learns of it. -/
def remove (key : Int32) : State :=
  match s.pending.lookup key with
  | none => s
  | some i => { s.setSlot i .dropped with pending := s.pending.erase key }

/-- `pending.lock().insert(opaque, response_tx)` with a new channel. -/
def register (i : ℕ) (key : Int32) : State :=
  -- `insert` drops the sender that was there under this number
  let s := s.remove key
  { s.setSlot i .empty with pending := s.pending.insert key i }

/-- `pending.lock().clear()`: every sender in the table is dropped. -/
def clear : State :=
  { s with
    pending := ∅
    calls := s.calls.mapIdx fun i call =>
      -- calls that are not in the table keep their slot
      if s.pending.lookup call.command.opaqueId = some i then { call with slot := .dropped }
      else call }

/-- A call returns: its result is final, and is recorded. -/
def finish (i : ℕ) (result : Except RocketmqError Delivery) : State × List Return :=
  (s.setStage i (.returned result), [⟨i, result⟩])

end State

section Channel

variable (json : SerdeJson) (crypto : Crypto) (acl : Option AclCredentials) (addr : String)

/-- `invoke`, up to its first access: a channel that is not active refuses the call. -/
def enter (s : State) (command : RemotingCommand) : State × List Return :=
  -- a channel that has been given up takes no calls
  if s.active && s.writerOpen then
    ({ s with calls := s.calls ++ [⟨command, .entered, .unmade, none⟩] }, [])
  else
    let result := .error (.connection ("RocketMQ 通道已断开: " ++ addr))
    ({ s with calls := s.calls ++ [⟨command, .returned result, .unmade, none⟩] },
      [⟨s.calls.length, result⟩])

/-- A request gets its number and its signature. -/
def number (s : State) (i : ℕ) : State :=
  { s with
    issued := s.issued + 1
    calls := s.calls.modify i fun call =>
      { call with
        command := signWith crypto acl { call.command with opaqueId := opaqueOf s.issued }
        stage := .numbered
        ticket := some s.issued } }

/-- `invoke`, from one access to the next. -/
def advance (s : State) (i : ℕ) (call : Call) (expired : Bool) : State × List Return :=
  match call.stage with
  | .entered => (number crypto acl s i, [])
  | .numbered => ((s.register i call.command.opaqueId).setStage i .registered, [])
  -- a frame that cannot be encoded leaves its entry in the table
  | .registered =>
    match encodeFrame json call.command with
    | .ok frame => (s.setStage i (.sending frame), [])
    | .error error => s.finish i (.error error)
  | .sending _ =>
    if s.writerOpen then (s.setStage i .waiting, []) else (s.setStage i .rejected, [])
  -- the writer is gone: the entry goes, and the channel counts as inactive
  | .rejected =>
    { s.remove call.command.opaqueId with active := false }.finish i
      (.error (.connection ("RocketMQ 发送失败(通道 " ++ addr ++ "): channel closed")))
  -- `timeout(rx)`: an answer that is there comes before the end of the time
  | .waiting =>
    match call.slot with
    | .sent delivery => s.finish i (.ok delivery)
    | .dropped =>
      s.finish i (.error (.connection ("RocketMQ 通道断开, 请求无响应(通道 " ++ addr ++ ")")))
    | _ => if expired then (s.setStage i .expired, []) else (s, [])
  -- between the end of the time and this step the answer may have been handed over
  | .expired =>
    (s.remove call.command.opaqueId).finish i
      (.error (.timeout ("RocketMQ 请求超时(code=" ++ toString call.command.code ++ ", opaque="
        ++ toString call.command.opaqueId ++ ", 通道 " ++ addr ++ ")")))
  | .returned _ => (s, [])

/-- Whether the receiving end of a call's channel is still there. -/
def Stage.receives : Stage → Bool
  | .expired | .returned _ => false
  | _ => true

/-- `reader_loop`, when it has read the body of a frame. -/
def readBody (s : State) (body : List UInt8) : State :=
  match decodeFrame json body with
  | .ok command =>
    match s.pending.lookup command.opaqueId with
    | some i =>
      { s with
        pending := s.pending.erase command.opaqueId
        reader := .holding i ⟨s.arrived, command⟩
        arrived := s.arrived + 1 }
    -- nobody waits: the frame is dropped, and reading goes on
    | none => { s with arrived := s.arrived + 1 }
  -- a frame that cannot be read ends the loop
  | .error (.error _) => { s with active := false, reader := .stopping }
  -- a panic ends the task without clearing the table
  | .error .panic => { s with reader := .stopped }

/-- What `sender.send(command)` leaves in the channel: a waiter that has given up does not get the
command. -/
def handed (s : State) (i : ℕ) (delivery : Delivery) : Slot :=
  match s.calls[i]? with
  -- the receiving end is dropped when `invoke` returns
  | some call => if call.stage.receives then .sent delivery else .dropped
  | none => .dropped

/-- The waiter gets its command, and the reader goes on. -/
def deliver (s : State) (i : ℕ) (delivery : Delivery) : State :=
  { s.setSlot i (handed s i delivery) with reader := .reading }

/-- One access to what is shared: a new call, the next access of a call, the reader with the body of
a frame, with a frame for a waiter, at the end of its stream and at its own end, the end of the
writer, and `RemotingChannel::shutdown`. -/
inductive Label where
  | call (command : RemotingCommand)
  | advance (call : ℕ) (expired : Bool)
  | frame (body : List UInt8)
  | deliver
  | readerStops
  | readerClears
  | writerStops
  | shutdown

/-- One transition. A label that does not fit the state does nothing. -/
def step (s : State) (label : Label) : State × List Return :=
  match label with
  | .call command => enter addr s command
  | .advance i expired =>
    match s.calls[i]? with
    | some call => advance json crypto acl addr s i call expired
    | none => (s, [])
  | .frame body =>
    match s.reader with
    | .reading => (readBody json s body, [])
    | _ => (s, [])
  | .deliver =>
    match s.reader with
    | .holding i delivery => (deliver s i delivery, [])
    | _ => (s, [])
  | .readerStops =>
    match s.reader with
    | .reading => ({ s with active := false, reader := .stopping }, [])
    | _ => (s, [])
  | .readerClears =>
    match s.reader with
    | .stopping => ({ s.clear with reader := .stopped }, [])
    | _ => (s, [])
  | .writerStops => ({ s with active := false, writerOpen := false }, [])
  | .shutdown => ({ s.clear with active := false }, [])

/-- The state a sequence of transitions reaches. -/
def reached (labels : List Label) : State :=
  (Machine.run (step json crypto acl addr) connected labels).1

end Channel

end Remoting
end Rocketmq
end Navop
