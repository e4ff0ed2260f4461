import NavopExtensions.Lib.Bytes
import NavopExtensions.Lib.Fallible

/-!
# Remoting commands and their frames

`rocketmq/src/protocol/command.rs`: a command is written as a frame, its total length, the
description and the JSON of its header, and its body; the reading side is `decode_frame` and the loop
of `reader_loop` that cuts the stream of a connection into frames (`remoting.rs`).

The JSON codec is `serde_json`, a parameter here. An access to the bytes of a frame that is out of
range panics in the source; it is the failure `panic` here.
-/

namespace Navop
namespace Rocketmq

open BigEndian

/-- `RocketmqError`, which is `MiddlewareError`: a kind, and the text for the user. -/
inductive RocketmqError where
  | config (message : String)
  | protocol (message : String)
  | unsupported (message : String)
  | timeout (message : String)
  | connection (message : String)
  | auth (message : String)
  deriving DecidableEq, Repr

/-- An error, or a panic. -/
inductive Failure where
  | error (error : RocketmqError)
  | panic
  deriving DecidableEq, Repr

/-! ### Commands -/

/-- `HashMap<String, String>`: one value a key. -/
abbrev Fields := Finmap fun _ : String => String

/-- The keys are sorted where the fields are written, and where they are signed. -/
instance isTrans_keys : IsTrans String (· ≤ ·) := inferInstance

instance antisymm_keys : @Std.Antisymm String (· ≤ ·) := inferInstance

/-- `RemotingCommand`; `opaqueId` is the field `opaque`, which pairs a response with its request. -/
structure RemotingCommand where
  code : Int32
  language : String
  version : Int32
  opaqueId : Int32
  flag : Int32
  remark : Option String
  extFields : Fields
  body : Option (List UInt8)
  deriving DecidableEq

/-- `LANGUAGE_OTHER`: what the client says it is written in. -/
def languageOther : String := "OTHER"

namespace RemotingCommand

/-- `RemotingCommand::create_request`: the channel fills in the `opaque` later. -/
def createRequest (code : Int32) (extFields : Fields) : RemotingCommand where
  code := code
  language := languageOther
  version := 0
  opaqueId := 0
  flag := 0
  remark := none
  extFields := extFields
  body := none

/-- `RemotingCommand::with_body`: the rest stays. -/
def withBody (command : RemotingCommand) (body : List UInt8) : RemotingCommand :=
  { command with body := some body }

/-- `RemotingCommand::is_response`: the lowest bit of the flag. -/
def isResponse (command : RemotingCommand) : Bool := command.flag &&& 0x01 == 0x01

end RemotingCommand

/-- `ensure_success`: code 0 is one, and a refusal has a text of its own. -/
def ensureSuccess (command : RemotingCommand) : Except RocketmqError Unit :=
  let remark := command.remark.getD ""
  if command.code = 0 then .ok ()
  -- `NO_PERMISSION`
  else if command.code = 16 then
    .error (.auth ("RocketMQ 拒绝访问(code=" ++ toString command.code ++ "): " ++ remark))
  else .error (.protocol ("RocketMQ 返回错误 code=" ++ toString command.code ++ ": " ++ remark))

/-! ### Frames -/

/-- `MAX_FRAME_LENGTH`: 16 MiB with the length in front. -/
def maxFrameLength : ℕ := 16 * 1024 * 1024

/-- `SerializeType`. -/
inductive SerializeType where
  | json
  deriving DecidableEq, Repr

/-- `SerializeType::code`: the byte in front of the header's length. -/
def SerializeType.code : SerializeType → ℕ
  | .json => 0

/-- `SerializeType::from_code`: none for what is not JSON. -/
def SerializeType.fromCode (code : ℕ) : Option SerializeType :=
  match code with
  | 0 => some .json
  | _ => none

/-- `serde_json` at `RemotingCommand`: `to_vec` and `from_slice`, with the texts of their errors. -/
structure SerdeJson where
  toVec : RemotingCommand → Except String (List UInt8)
  fromSlice : List UInt8 → Except String RemotingCommand

/-- What is decoded is what was encoded; the body is not part of the JSON. -/
def SerdeJson.RoundTrips (json : SerdeJson) : Prop :=
  ∀ command bytes, json.toVec command = .ok bytes →
    json.fromSlice bytes = .ok { command with body := none }

section Frames

variable (json : SerdeJson)

/-- `RemotingCommand::header_json`: everything but the body. -/
def headerJson (command : RemotingCommand) : Except RocketmqError (List UInt8) :=
  (json.toVec command).mapError fun error => .protocol ("头部 JSON 序列化失败: " ++ error)

/-- The description of a header: the serialization type above its length. -/
def headerDesc (serializeType : SerializeType) (headerLen : ℕ) : ℕ :=
  (serializeType.code <<< 24) ||| (headerLen % 2 ^ 32)

/-- The error of a frame that is too long. -/
def frameTooLong : RocketmqError := .protocol ("帧长度超过上限 " ++ toString maxFrameLength)

/-- `RemotingCommand::encode_frame`: the lengths, the header and the body, within the bound. -/
def encodeFrame (command : RemotingCommand) : Except RocketmqError (List UInt8) := do
  let header ← headerJson json command
  let body := command.body.getD []
  let total := 4 + header.length + body.length
  -- the length in front counts for the bound, and not for itself
  if 4 + total > maxFrameLength then .error frameTooLong
  else .ok (toBe 4 total ++ toBe 4 (headerDesc .json header.length) ++ header ++ body)

/-- `frame[index]`: a panic beyond the end. -/
def byteAt (frame : List UInt8) (index : ℕ) : Except Failure UInt8 :=
  match frame[index]? with
  | some byte => .ok byte
  | none => .error .panic

/-- `frame[start..stop]`: a panic where the range is not inside. -/
def slice (frame : List UInt8) (start stop : ℕ) : Except Failure (List UInt8) :=
  if start ≤ stop ∧ stop ≤ frame.length then .ok ((frame.drop start).take (stop - start))
  else .error .panic

/-- The description of the header at the start of a frame. -/
def readDesc (frame : List UInt8) : Except Failure ℕ := do
  let b₀ ← byteAt frame 0
  let b₁ ← byteAt frame 1
  let b₂ ← byteAt frame 2
  let b₃ ← byteAt frame 3
  return ofBe [b₀, b₁, b₂, b₃]

/-- The rest of `decode_frame`, for a header that ends inside the frame. -/
def decodeParts (frame : List UInt8) (headerEnd : ℕ) : Except Failure RemotingCommand := do
  let header ← slice frame 4 headerEnd
  match json.fromSlice header with
  | .error error => .error (.error (.protocol ("头部 JSON 解析失败: " ++ error)))
  | .ok command =>
    -- an empty body is none
    if frame.length > headerEnd then do
      let body ← slice frame headerEnd frame.length
      return { command with body := some body }
    else return command

/-- `decode_frame`: a frame without the length in front of it. -/
def decodeFrame (frame : List UInt8) : Except Failure RemotingCommand :=
  if frame.length < 4 then .error (.error (.protocol "帧长度不足: 缺少头部描述字段"))
  else do
    let desc ← readDesc frame
    let serializeCode := (desc >>> 24) &&& 0xFF
    match SerializeType.fromCode serializeCode with
    | none =>
      .error (.error (.protocol
        ("不支持的头部序列化类型: " ++ toString serializeCode ++ "(仅支持 JSON=0)")))
    | some .json =>
      -- the upper byte is the type of the header
      let headerLen := desc &&& 0x00FFFFFF
      let restLen := frame.length - 4
      -- checked before the slices, which would panic
      if headerLen > restLen then
        .error (.error (.protocol
          ("非法头部长度 " ++ toString headerLen ++ ": 超出剩余帧体 " ++ toString restLen)))
      else decodeParts json frame (4 + headerLen)

/-- `frame_body_length`: the length has to be that of a frame, and within the bound. -/
def frameBodyLength (totalLen : ℕ) : Except RocketmqError ℕ :=
  if totalLen < 4 then .error (.protocol ("非法帧总长度: " ++ toString totalLen))
  else if 4 + totalLen > maxFrameLength then .error frameTooLong
  else .ok totalLen

/-! ### The stream of a connection -/

/-- Why `reader_loop` has stopped reading. -/
inductive ReadEnd where
  | endOfStream
  | badLength (error : RocketmqError)
  | truncated
  | badFrame (failure : Failure)
  deriving DecidableEq, Repr

/-- One round of `reader_loop`, on what is left of the stream. -/
def readFrame (stream : List UInt8) : Except ReadEnd (RemotingCommand × List UInt8) :=
  -- `read_exact` fails, and so the stream ends
  if stream.length < 4 then .error .endOfStream
  else
    match frameBodyLength (ofBe (stream.take 4)) with
    | .error error => .error (.badLength error)
    | .ok bodyLen =>
      -- the stream ends inside a frame
      if (stream.drop 4).length < bodyLen then .error .truncated
      else
        match decodeFrame json ((stream.drop 4).take bodyLen) with
        | .error failure => .error (.badFrame failure)
        | .ok command => .ok (command, (stream.drop 4).drop bodyLen)

/-- A round takes something off the stream. -/
theorem length_readFrame {json : SerdeJson} {stream rest : List UInt8} {command : RemotingCommand}
    (h : readFrame json stream = .ok (command, rest)) : rest.length < stream.length := by
  unfold readFrame at h
  split at h
  · exact absurd h (by simp)
  split at h
  · exact absurd h (by simp)
  split at h
  · exact absurd h (by simp)
  split at h
  · exact absurd h (by simp)
  · obtain ⟨-, rfl⟩ := Prod.mk.inj (Except.ok.inj h)
    simp only [List.length_drop]
    omega

/-- The frames `reader_loop` reads from a stream, and why it stops. -/
def readFrames (stream : List UInt8) : List RemotingCommand × ReadEnd :=
  match h : readFrame json stream with
  | .error reason => ([], reason)
  | .ok (command, rest) =>
    have := length_readFrame h
    ((command :: (readFrames rest).1), (readFrames rest).2)
termination_by stream.length

end Frames

/-! ### Routes of topics -/

/-- `QueueData`, without the system flag. -/
structure QueueData where
  brokerName : String
  readQueueNums : Int32
  writeQueueNums : Int32
  perm : Int32
  deriving DecidableEq

/-- `BrokerData`; the addresses are in the order in which the map iterates over them. -/
structure BrokerData where
  brokerName : String
  brokerAddrs : List (Int64 × String)
  deriving DecidableEq

/-- `BrokerData::select_broker_addr`: the master, or any other node. -/
def BrokerData.selectBrokerAddr (broker : BrokerData) : Option String :=
  match broker.brokerAddrs.lookup 0 with
  | some addr => some addr
  | none => (broker.brokerAddrs.map Prod.snd).head?

/-- `TopicRouteData`: which brokers hold the queues of a topic. -/
structure TopicRouteData where
  queueDatas : List QueueData
  brokerDatas : List BrokerData
  deriving DecidableEq

end Rocketmq
end Navop
