import NavopExtensions.Lib.Broadcast
import NavopExtensions.Lib.Machine
import NavopExtensions.Lib.Saturating

/-!
# Event streams of live messages

The live stream of `mqtt/src/state/event.rs` over the broadcast channel of `mqtt/src/pubsub.rs`: one
`ProviderEventStream`, the reads of the host, and the messages that are published meanwhile.

A read is taken apart into the steps between which messages can be published: the backlog is taken,
the channel is drained value by value, the messages are placed one by one, and an empty batch may wait
for one more message. The counters of a stream saturate: a stream gives the number `2 ^ 64 - 1` again and
again once it has got there, and stops counting what it drops.

The channel is one of `tokio::sync::broadcast`, whose operations are a parameter (`Broadcast.Library`).
The steps are defined for any such operations; what is proved about runs is about those that do what is
documented of a channel with `channelCapacity` places.
-/

namespace Navop
namespace Mqtt

open Broadcast Saturating

/-! ### The text of an event -/

/-- `MqttQos`: how often a message may arrive. -/
inductive MqttQos
  | atMostOnce
  | atLeastOnce
  | exactlyOnce
  deriving DecidableEq

/-- `MqttQos::label`: the text that the event shows. -/
def MqttQos.label : MqttQos → String
  | .atMostOnce => "QoS 0"
  | .atLeastOnce => "QoS 1"
  | .exactlyOnce => "QoS 2"

/-- `MqttMessage`, with the time in milliseconds. -/
structure MqttMessage where
  topic : String
  payload : ByteArray
  qos : MqttQos
  retain : Bool
  receivedAt : ℤ

/-- `MqttMessage::payload_text`: the payload, if it is UTF-8. -/
def MqttMessage.payloadText (message : MqttMessage) : Option String :=
  String.fromUTF8? message.payload

/-- `LIVE_TEXT_LIMIT_BYTES`: the text of an event at most. -/
def liveTextLimitBytes : ℕ := 4096

/-- The characters of a text that fit into a number of bytes. -/
def takeBytes (maxBytes : ℕ) : List Char → List Char
  | [] => []
  -- it stops at the first character that does not fit, even if a later one would
  | c :: cs => if c.utf8Size ≤ maxBytes then c :: takeBytes (maxBytes - c.utf8Size) cs else []

/-- `truncate_text`: whole characters within the limit, and a note that something is missing. -/
def truncateText (text : String) (maxBytes : ℕ) : String :=
  if text.utf8ByteSize ≤ maxBytes then text
  -- the note itself is not counted
  else String.ofList (takeBytes maxBytes text.toList) ++ "…(已截断,点开查看完整内容)"

/-- `MiddlewareMessage`, with the fields that are set for a live event; the others are null. -/
structure MiddlewareMessage where
  messageId : String
  topic : String
  bodyText : Option String
  storeTime : Option String
  properties : List (String × String)

/-- The bytes of a character in a JSON text. -/
def jsonCharLen (c : Char) : ℕ :=
  -- a backslash before it
  if c = '"' ∨ c = '\\' then 2
  -- the control characters that have a letter, such as `\n`
  else if c.toNat ∈ [8, 9, 10, 12, 13] then 2
  -- `\u` and four digits
  else if c.toNat < 32 then 6
  else c.utf8Size

/-- The bytes of a string in a JSON text. -/
def jsonStringLen (text : String) : ℕ := 2 + (text.toList.map jsonCharLen).sum

/-- The bytes of an optional string in a JSON text. -/
def jsonOptionLen : Option String → ℕ
  | some text => jsonStringLen text
  | none => 4

/-- The bytes of values between brackets, separated by commas. -/
def jsonListLen (lens : List ℕ) : ℕ := 2 + lens.sum + (lens.length - 1)

/-- `serialized_len`: the bytes of a message as a JSON object. -/
def serializedLen (message : MiddlewareMessage) : ℕ :=
  jsonListLen
    [jsonStringLen "message_id" + 1 + jsonStringLen message.messageId,
      jsonStringLen "topic" + 1 + jsonStringLen message.topic,
      jsonStringLen "tag" + 1 + jsonOptionLen none,
      jsonStringLen "key" + 1 + jsonOptionLen none,
      jsonStringLen "body" + 1 + jsonOptionLen none,
      jsonStringLen "body_text" + 1 + jsonOptionLen message.bodyText,
      jsonStringLen "store_time" + 1 + jsonOptionLen message.storeTime,
      jsonStringLen "born_time" + 1 + jsonOptionLen none,
      jsonStringLen "store_host" + 1 + jsonOptionLen none,
      jsonStringLen "born_host" + 1 + jsonOptionLen none,
      jsonStringLen "retry_times" + 1 + jsonOptionLen none,
      jsonStringLen "properties" + 1 + jsonListLen (message.properties.map fun property =>
        jsonListLen [jsonStringLen property.1, jsonStringLen property.2])]

/-- An event: a message with its number in the stream. -/
structure LiveEvent where
  seq : ℕ
  message : MqttMessage

/-- `live_to_model`; the local time of a point in time is a parameter. -/
def LiveEvent.toModel (localTime : ℤ → String) (event : LiveEvent) : MiddlewareMessage where
  messageId := "mqtt-live-" ++ toString event.seq
  topic := event.message.topic
  bodyText := event.message.payloadText.map (truncateText · liveTextLimitBytes)
  storeTime := some (localTime event.message.receivedAt)
  properties :=
    [("qos", event.message.qos.label),
      ("retain", if event.message.retain then "true" else "false"),
      ("direction", "in"),
      ("received_at_ms", toString event.message.receivedAt),
      ("payload_size", toString event.message.payload.size)]

/-- The bytes of an event. -/
def LiveEvent.size (localTime : ℤ → String) (event : LiveEvent) : ℕ :=
  serializedLen (event.toModel localTime)

/-! ### The stream -/

/-- `MQTT_MESSAGE_CHANNEL_CAPACITY`: the messages that the channel holds. -/
def channelCapacity : ℕ := 1024

/-- `MQTT_EVENT_BATCH_MAX_BYTES`: the bytes of an answer at most, its first event excepted. -/
def batchMaxBytes : ℕ := 512 * 1024

/-- `MQTT_EVENT_PENDING_MAX_BYTES`: the bytes that are parked at most. -/
def pendingMaxBytes : ℕ := 512 * 1024

/-- `MQTT_EVENT_READ_MAX_WAIT_MS`: how long a read waits at most. -/
def readMaxWaitMs : ℕ := 250

/-- `ProviderEventStream`, less its kind and resource; the receiver is beside it. -/
structure ProviderEventStream where
  /-- How many messages were dropped, of which the receiver was told or for which there was no room. -/
  dropped : ℕ
  /-- The number of the next event. -/
  nextSeq : ℕ
  /-- The senders are gone. -/
  closed : Bool
  /-- The events that did not fit into a batch, with their sizes. -/
  pending : List (LiveEvent × ℕ)
  /-- The sum of these sizes. -/
  pendingBytes : ℕ

/-- A stream that was just opened. -/
def ProviderEventStream.opened : ProviderEventStream := ⟨0, 0, false, [], 0⟩

/-- `ProviderEventStream::event_for`: the message gets the next number. -/
def ProviderEventStream.eventFor (stream : ProviderEventStream) (message : MqttMessage) :
    ProviderEventStream × LiveEvent :=
  -- the last number is given again and again
  ({ stream with nextSeq := saturatingAdd stream.nextSeq 1 }, ⟨stream.nextSeq, message⟩)

/-- The events of a read and their bytes. -/
structure Batch where
  events : List LiveEvent
  used : ℕ

/-- An event of some bytes goes into the batch. The first one always does. -/
def Batch.Fits (batch : Batch) (size : ℕ) : Prop :=
  batch.events = [] ∨ saturatingAdd batch.used size ≤ batchMaxBytes

instance (batch : Batch) (size : ℕ) : Decidable (batch.Fits size) := by
  unfold Batch.Fits
  exact inferInstance

/-- The batch with one more event. -/
def Batch.push (batch : Batch) (event : LiveEvent) (size : ℕ) : Batch :=
  ⟨batch.events ++ [event], saturatingAdd batch.used size⟩

/-- The first loop of a read: the backlog goes into the batch until an event does not fit, which is
put back. -/
def takePending : List (LiveEvent × ℕ) → ℕ → Batch → Batch × List (LiveEvent × ℕ) × ℕ
  | [], pendingBytes, batch => (batch, [], pendingBytes)
  -- the event is taken off first, with its bytes; nothing behind it is looked at
  | (event, size) :: pending, pendingBytes, batch =>
    if batch.Fits size then takePending pending (pendingBytes - size) (batch.push event size)
    else (batch, (event, size) :: pending, saturatingAdd (pendingBytes - size) size)

/-- Where a read is. -/
inductive Phase
  /-- No read is under way. -/
  | idle
  /-- `drain_available` with its limit, the messages it has and what it was told of missed ones. -/
  | draining (waitMs : ℕ) (batch : Batch) (limit : ℕ) (messages : List MqttMessage) (missed : ℕ)
  /-- The drained messages go into the batch. -/
  | placing (waitMs : ℕ) (batch : Batch) (messages : List MqttMessage)
  /-- The batch is empty, and a message is waited for. -/
  | waiting

/-- The stream, its receiver, and the read that is under way. -/
structure State (lib : Library MqttMessage) where
  channel : lib.Channel
  stream : ProviderEventStream
  phase : Phase

/-- A stream that was just opened. -/
def State.opened (lib : Library MqttMessage) : State lib := ⟨lib.subscribe, .opened, .idle⟩

/-- `EventReadResult`: the events of a read, and what the stream has lost so far. -/
structure EventReadResult where
  events : List LiveEvent
  closed : Bool
  droppedCount : ℕ

/-- What happens to a stream. -/
inductive Event
  /-- A message is published. -/
  | publish (message : MqttMessage)
  /-- The connection is gone. -/
  | hangUp
  /-- The host reads, with the effective number of events and the time to wait. -/
  | read (maxEvents : ℕ) (waitMs : Option ℕ)
  /-- The next round of the loop of `drain_available`. -/
  | drain
  /-- The next round of the loop over the drained messages. -/
  | place
  /-- The wait is over because of the channel. -/
  | wake
  /-- The wait is over because of its time. -/
  | elapse

/-- A message goes into the batch, or waits in the backlog, or is dropped. -/
def placeMessage (localTime : ℤ → String) (stream : ProviderEventStream) (batch : Batch)
    (message : MqttMessage) : ProviderEventStream × Batch :=
  -- the number is given before it is known whether there is room, a dropped message leaves a gap
  let (stream, event) := stream.eventFor message
  let size := event.size localTime
  if batch.Fits size then (stream, batch.push event size)
  -- a message that fits can overtake the backlog; one that does not waits behind it
  else if saturatingAdd stream.pendingBytes size ≤ pendingMaxBytes then
    ({ stream with
        pending := stream.pending ++ [(event, size)]
        pendingBytes := saturatingAdd stream.pendingBytes size }, batch)
  else ({ stream with dropped := saturatingAdd stream.dropped 1 }, batch)

section Reads

variable {lib : Library MqttMessage}

/-- The read returns: its events go out, and the stream is idle again. -/
def State.answer (state : State lib) (events : List LiveEvent) : State lib × List EventReadResult :=
  ({ state with phase := .idle }, [⟨events, state.stream.closed, state.stream.dropped⟩])

/-- The batch is complete: the read returns, or waits if it is empty. -/
def State.settle (state : State lib) (waitMs : ℕ) (batch : Batch) :
    State lib × List EventReadResult :=
  -- a read that has events, or may not wait, returns at once
  if batch.events = [] ∧ 0 < waitMs ∧ state.stream.closed = false then
    ({ state with phase := .waiting }, [])
  else state.answer batch.events

/-- `read_event_stream`, up to the draining of the channel. -/
def State.read (state : State lib) (maxEvents : ℕ) (waitMs : Option ℕ) :
    State lib × List EventReadResult :=
  let waitMs := min (waitMs.getD 0) readMaxWaitMs
  let (batch, pending, pendingBytes) :=
    -- the backlog is taken whatever `max_events` says
    takePending state.stream.pending state.stream.pendingBytes ⟨[], 0⟩
  let state := { state with stream := { state.stream with pending, pendingBytes } }
  -- with a full batch the channel is left alone
  if batch.events.length < maxEvents then
    ({ state with phase := .draining waitMs batch (maxEvents - batch.events.length) [] 0 }, [])
  else state.settle waitMs batch

/-- A round of `drain_available`. What it was told of missed messages is summed up without saturating:
a channel never tells of more messages than were sent. -/
def State.drain (state : State lib) (waitMs : ℕ) (batch : Batch) (limit : ℕ)
    (messages : List MqttMessage) (missed : ℕ) : State lib :=
  let done (channel : lib.Channel) : State lib :=
    { channel
      stream := { state.stream with dropped := saturatingAdd state.stream.dropped missed }
      phase := .placing waitMs batch messages }
  if messages.length < limit then
    match lib.tryRecv state.channel with
    | (channel, .message message) =>
      { state with channel, phase := .draining waitMs batch limit (messages ++ [message]) missed }
    | (channel, .lagged count) =>
      { state with channel, phase := .draining waitMs batch limit messages (missed + count) }
    -- a channel that is closed looks like an empty one here; only a read that waits finds out
    | (channel, .empty) => done channel
    | (channel, .closed) => done channel
  else done state.channel

/-- The channel has something for the read that waits. -/
def State.wake (state : State lib) : State lib × List EventReadResult :=
  match lib.tryRecv state.channel with
  | (channel, .message message) =>
    -- the batch is empty, so that the message goes out whatever its size
    let (stream, event) := state.stream.eventFor message
    { state with channel, stream }.answer [event]
  -- the read answers without events; the messages that are left come with the next one
  | (channel, .lagged count) =>
    { state with
      channel
      stream := { state.stream with dropped := saturatingAdd state.stream.dropped count } }.answer []
  -- woken for nothing, it goes on waiting
  | (channel, .empty) => ({ state with channel }, [])
  | (channel, .closed) => { state with channel, stream := { state.stream with closed := true } }.answer []

/-- What happens next, for a point in time's local time. -/
def step (localTime : ℤ → String) (state : State lib) : Event → State lib × List EventReadResult
  | .publish message => ({ state with channel := lib.send state.channel message }, [])
  | .hangUp => ({ state with channel := lib.hangUp state.channel }, [])
  | .read maxEvents waitMs =>
    match state.phase with
    -- a read has the streams to itself, a second one comes only after it
    | .idle => state.read maxEvents waitMs
    | _ => (state, [])
  | .drain =>
    match state.phase with
    | .draining waitMs batch limit messages missed =>
      (state.drain waitMs batch limit messages missed, [])
    | _ => (state, [])
  | .place =>
    match state.phase with
    -- the last message has been placed
    | .placing waitMs batch [] => state.settle waitMs batch
    | .placing waitMs batch (message :: messages) =>
      let (stream, batch) := placeMessage localTime state.stream batch message
      ({ state with stream, phase := .placing waitMs batch messages }, [])
    | _ => (state, [])
  | .wake =>
    match state.phase with
    | .waiting => state.wake
    | _ => (state, [])
  | .elapse =>
    match state.phase with
    | .waiting => state.answer []
    | _ => (state, [])

/-- A message is published. -/
def Event.isPublish : Event → Bool
  | .publish _ => true
  | _ => false

/-- How many messages are published in a run. -/
def published (events : List Event) : ℕ := events.countP Event.isPublish

end Reads

end Mqtt
end Navop
