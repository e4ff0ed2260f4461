import NavopExtensions.Lib.Bytes
import NavopExtensions.Lib.Frames

/-!
# Frames of the Go drivers

`internal/ipc`: a message is sent as its JSON, with its length in front of it, in four bytes of which the
first is the least one. The loop of `ServeConnected` works on bytes, and any of its writes may fail. What it
does is what the conversation of the messages in these bytes does (`serveConnected_eq_converse`), and the
messages are those that were written, as they are read back (`serve_frames`).
-/

namespace Navop
namespace Ipc

open BigEndian Frames

/-- `Message`; `body` is the rest of it. -/
structure Message (β : Type) where
  jsonrpc : String
  id : List UInt8
  method : String
  body : β
  deriving DecidableEq

/-- `json.Marshal` and `json.Unmarshal`, of messages. -/
structure Json (β : Type) where
  marshal : Message β → Option (List UInt8)
  unmarshal : List UInt8 → Option (Message β)

/-- The errors of reading and writing. -/
inductive Error
  | eof
  | unexpectedEOF
  | frameLength (n : ℕ)
  | payloadLength (n : ℕ)
  | invalid
  | write
  deriving DecidableEq

/-- `MaxFrameBytes`. -/
def maxFrameBytes : ℕ := 64 * 1024 * 1024

/-- `io.ReadFull`. -/
def readFull (n : ℕ) (input : List UInt8) : Except Error (List UInt8 × List UInt8) :=
  if n ≤ input.length then .ok (input.take n, input.drop n)
  else if input = [] then .error .eof
  else .error .unexpectedEOF

/-- `binary.LittleEndian.PutUint32`. -/
def putUint32 (n : ℕ) : List UInt8 := (toBe 4 n).reverse

/-- `binary.LittleEndian.Uint32`. -/
def uint32 (bytes : List UInt8) : ℕ := ofBe bytes.reverse

section Frames

variable {β : Type} (json : Json β)

/-- `ReadFrame`. -/
def readFrame (input : List UInt8) : Except Error (Message β × List UInt8) := do
  let (lengthBytes, input) ← readFull 4 input
  let n := uint32 lengthBytes
  if n > maxFrameBytes then .error (.frameLength n)
  else
    let (payload, input) ← readFull n input
    match json.unmarshal payload with
    | none => .error .invalid
    | some message => .ok (message, input)

/-- The version that `WriteFrame` puts in. -/
def Message.versioned {β : Type} (message : Message β) : Message β :=
  if message.jsonrpc = "" then { message with jsonrpc := "2.0" } else message

/-- The two parts that `WriteFrame` writes. -/
def frameParts (message : Message β) : Except Error (List UInt8 × List UInt8) :=
  match json.marshal message.versioned with
  | none => .error .invalid
  | some payload =>
    if payload.length > maxFrameBytes then .error (.payloadLength payload.length)
    else .ok (putUint32 payload.length, payload)

/-- `WriteFrame`, after a number of writes: the bytes that get through, and the error. `cuts` says which
writes fail, and after how many bytes. -/
def writeFrame (cuts : ℕ → Option ℕ) (writes : ℕ) (message : Message β) : List UInt8 × Option Error :=
  match frameParts json message with
  | .error error => ([], some error)
  | .ok (lengthBytes, payload) =>
    match cuts writes, cuts (writes + 1) with
    | some n, _ => (lengthBytes.take n, some .write)
    | none, some n => (lengthBytes ++ payload.take n, some .write)
    | none, none => (lengthBytes ++ payload, none)

theorem readFull_append {n : ℕ} {front : List UInt8} (h : front.length = n) (rest : List UInt8) :
    readFull n (front ++ rest) = .ok (front, rest) := by
  subst h
  rw [readFull, if_pos (by simp), List.take_left, List.drop_left]

theorem readFull_eq_ok {n : ℕ} {input front rest : List UInt8} (h : readFull n input = .ok (front, rest)) :
    front.length = n ∧ input = front ++ rest := by
  unfold readFull at h
  split at h
  · next hn =>
    cases h
    exact ⟨List.length_take_of_le hn, (List.take_append_drop n input).symm⟩
  · split at h <;> cases h

theorem uint32_putUint32 {n : ℕ} (h : n ≤ maxFrameBytes) : uint32 (putUint32 n) = n := by
  have hlt : n < 256 ^ 4 := Nat.lt_of_le_of_lt h (by decide)
  rw [uint32, putUint32, List.reverse_reverse, ofBe_toBe_of_lt hlt]

/-- The steps of reading a frame. -/
theorem readFrame_of_start {input lengthBytes rest : List UInt8}
    (h : readFull 4 input = .ok (lengthBytes, rest)) :
    readFrame json input = if uint32 lengthBytes > maxFrameBytes then
        .error (.frameLength (uint32 lengthBytes))
      else (readFull (uint32 lengthBytes) rest).bind fun read =>
        match json.unmarshal read.1 with
        | none => .error .invalid
        | some message => .ok (message, read.2) := by
  rw [readFrame, h]
  rfl

theorem readFrame_of_error {input : List UInt8} {error : Error} (h : readFull 4 input = .error error) :
    readFrame json input = .error error := by
  rw [readFrame, h]
  rfl

theorem readFrame_shorter {input rest : List UInt8} {message : Message β}
    (h : readFrame json input = .ok (message, rest)) : rest.length < input.length := by
  cases hstart : readFull 4 input with
  | error error => cases (readFrame_of_error json hstart).symm.trans h
  | ok read =>
    obtain ⟨lengthBytes, input'⟩ := read
    rw [readFrame_of_start json hstart] at h
    -- four bytes at least are taken from the input, the length
    obtain ⟨hlength, rfl⟩ := readFull_eq_ok hstart
    split at h
    · cases h
    · cases hpayload : readFull (uint32 lengthBytes) input' with
      | error error => rw [hpayload] at h; cases h
      | ok read =>
        obtain ⟨payload, input''⟩ := read
        obtain ⟨-, rfl⟩ := readFull_eq_ok hpayload
        rw [hpayload, Except.bind] at h
        dsimp only at h
        split at h
        · cases h
        · cases h
          simp only [List.length_append]
          omega

/-- `ReadFrame`, as what reads an item. -/
def frameReader : Reader UInt8 Error (Message β) where
  read := readFrame json
  shorter _ _ _ h := readFrame_shorter json h

/-- A frame on its way, and the message that is read from it. `encoding/json` compacts and escapes what a
message holds as raw JSON, so that what arrives is the message itself only if that is in this form already;
a message nested too deeply does not arrive at all. -/
structure Sent where
  message : Message β
  payload : List UInt8
  arrived : Message β
  marshalled : json.marshal message.versioned = some payload
  length_le : payload.length ≤ maxFrameBytes
  unmarshalled : json.unmarshal payload = some arrived

variable {json}

/-- The bytes of a frame. -/
def Sent.frame (sent : Sent json) : List UInt8 := putUint32 sent.payload.length ++ sent.payload

/-- These are the bytes that `WriteFrame` writes. -/
theorem Sent.frameParts_eq (sent : Sent json) :
    frameParts json sent.message = .ok (putUint32 sent.payload.length, sent.payload) := by
  rw [frameParts, sent.marshalled]
  exact if_neg (Nat.not_lt.2 sent.length_le)

theorem length_putUint32 (n : ℕ) : (putUint32 n).length = 4 := by
  rw [putUint32, List.length_reverse, length_toBe]

/-- A frame that is written is read back. -/
theorem readFrame_frame (sent : Sent json) (rest : List UInt8) :
    readFrame json (sent.frame ++ rest) = .ok (sent.arrived, rest) := by
  rw [Sent.frame, List.append_assoc, readFrame_of_start json (readFull_append (length_putUint32 _) _),
    uint32_putUint32 sent.length_le, if_neg (Nat.not_lt.2 sent.length_le), readFull_append rfl, Except.bind]
  dsimp only
  rw [sent.unmarshalled]

end Frames

/-! ### The loop -/

/-- What a loop has come to: the bytes that got through, the state of the handler, and the error that it
returns. -/
structure Served (σ : Type) where
  output : List UInt8
  state : σ
  error : Option Error

section Loop

variable {β σ : Type} (json : Json β) (cuts : ℕ → Option ℕ) (handler : σ → Message β → σ × Message β)

/-- The error at the end of the input; the end of the file is none. -/
def endError (error : Error) : Option Error := if error = .eof then none else some error

/-- `ServeConnected`, after a number of writes. A reply takes two of them. -/
def serveConnected (writes : ℕ) (s : σ) (input : List UInt8) : Served σ :=
  match _h : readFrame json input with
  | .error error => ⟨[], s, endError error⟩
  | .ok (request, rest) =>
    if request.id = [] then serveConnected writes s rest
    else
      let (s', response) := handler s request
      match writeFrame json cuts writes response with
      | (written, some error) => ⟨written, s', some error⟩
      | (written, none) =>
        if request.method = "shutdown" then ⟨written, s', none⟩
        else
          let served := serveConnected (writes + 2) s' rest
          { served with output := written ++ served.output }
termination_by input.length
decreasing_by all_goals exact readFrame_shorter json _h

/-- The conversation: every message that has an id gets its reply, in order, up to the shutdown or to a
reply that cannot be written, or not wholly. -/
def converse : ℕ → σ → List (Message β) → Error → Served σ
  | _, s, [], error => ⟨[], s, endError error⟩
  | writes, s, request :: requests, error =>
    if request.id = [] then converse writes s requests error
    else
      match writeFrame json cuts writes (handler s request).2 with
      | (written, some failure) => ⟨written, (handler s request).1, some failure⟩
      | (written, none) =>
        if request.method = "shutdown" then ⟨written, (handler s request).1, none⟩
        else
          let served := converse (writes + 2) (handler s request).1 requests error
          { served with output := written ++ served.output }

theorem serveConnected_of_error {writes : ℕ} {s : σ} {input : List UInt8} {error : Error}
    (h : readFrame json input = .error error) :
    serveConnected json cuts handler writes s input = ⟨[], s, endError error⟩ := by
  rw [serveConnected]
  split
  · next h' => cases h.symm.trans h'; rfl
  · next h' => cases h.symm.trans h'

/-- **The loop converses.** Whatever the bytes are, the loop does with them what the conversation does with
the messages in them. -/
theorem serveConnected_eq_converse (writes : ℕ) (s : σ) (input : List UInt8) :
    serveConnected json cuts handler writes s input
      = converse json cuts handler writes s ((frameReader json).parse input).1
        ((frameReader json).parse input).2 := by
  induction input using (frameReader json).parse_induction generalizing writes s with
  | error input error h =>
    rw [serveConnected_of_error json cuts handler h, Reader.parse_of_error h]
    rfl
  | ok input request rest h ih =>
    rw [Reader.parse_of_ok h, serveConnected]
    split
    · next h' => cases (show readFrame json input = .ok (request, rest) from h).symm.trans h'
    · next h' =>
      cases (show readFrame json input = .ok (request, rest) from h).symm.trans h'
      dsimp only
      rw [converse]
      split
      · exact ih writes s
      · -- Both write the reply of the same handler, at the same place.
        rcases hwritten : writeFrame json cuts writes (handler s request).2 with ⟨written, failure⟩
        cases failure with
        | some failure => rfl
        | none =>
          dsimp only
          split
          · rfl
          · rw [ih]

end Loop

/-! ### Conversations over a connection -/

section Conversation

variable {β σ : Type} {json : Json β}

/-- The error at the end of a frame that is cut off. Between the length and the payload, no byte of the
payload has been read yet, and that is the end of the file, too. -/
def cutError (cut : List UInt8) : Error := if cut.length = 0 ∨ cut.length = 4 then .eof else .unexpectedEOF

theorem readFull_short {n : ℕ} {input : List UInt8} (h : input.length < n) :
    readFull n input = .error (if input.length = 0 then .eof else .unexpectedEOF) := by
  rw [readFull, if_neg (Nat.not_le.2 h)]
  simp only [List.length_eq_zero_iff]
  split <;> rfl

/-- A frame that is cut off. -/
theorem readFrame_cut {sent : Sent json} {cut : List UInt8} (hstart : cut <+: sent.frame)
    (hne : cut ≠ sent.frame) : readFrame json cut = .error (cutError cut) := by
  obtain ⟨message, payload, arrived, hmarshalled, hle, hunmarshalled⟩ := sent
  unfold Sent.frame at hstart hne
  have hshort : cut.length < 4 + payload.length := by
    have hlt := hstart.length_le.lt_of_ne fun heq => hne (hstart.eq_of_length heq)
    rwa [List.length_append, length_putUint32] at hlt
  by_cases hfour : 4 ≤ cut.length
  · -- The length is there, and the payload is not.
    have hfront : putUint32 payload.length <+: cut :=
      List.prefix_of_prefix_length_le (List.prefix_append _ _) hstart (by rwa [length_putUint32])
    obtain ⟨rest, rfl⟩ := hfront
    rw [List.length_append, length_putUint32] at hshort
    have hrest : rest.length < payload.length := Nat.lt_of_add_lt_add_left hshort
    rw [readFrame_of_start json (readFull_append (length_putUint32 _) rest), uint32_putUint32 hle,
      if_neg (Nat.not_lt.2 hle), readFull_short hrest, Except.bind, cutError, List.length_append,
      length_putUint32]
    congr 1
    exact if_congr (by omega) rfl rfl
  · have hlt := Nat.lt_of_not_le hfour
    rw [readFrame_of_error json (readFull_short hlt), cutError]
    congr 1
    exact if_congr (by omega) rfl rfl

/-- **Messages arrive.** The host writes messages one after another, and its connection ends after them or
within one more. Then the driver answers every message that has an id, once, in order and up to the shutdown
or a write that fails. Otherwise it returns an error only if the last frame is cut off, elsewhere than after
its length. -/
theorem serve_frames (cuts : ℕ → Option ℕ) (handler : σ → Message β → σ × Message β) (s : σ)
    {requests : List (Sent json)} {last : Sent json} {cut : List UInt8} (hstart : cut <+: last.frame)
    (hne : cut ≠ last.frame) :
    serveConnected json cuts handler 0 s (requests.flatMap Sent.frame ++ cut)
      = converse json cuts handler 0 s (requests.map Sent.arrived) (cutError cut) := by
  have hread : ∀ request ∈ requests, ∀ rest,
      (frameReader json).read (request.frame ++ rest) = .ok (request.arrived, rest) :=
    fun request _ rest => readFrame_frame request rest
  rw [serveConnected_eq_converse, Reader.parse_flatMap hread,
    Reader.parse_of_error (readFrame_cut hstart hne), List.append_nil]

end Conversation

/-- A text of ASCII characters. -/
def ascii (text : String) : List UInt8 := text.toList.map fun c => UInt8.ofNat c.toNat

/-- A ping. -/
def ping : Message Unit := ⟨"2.0", ascii "1", "$/ping", ()⟩

/-- The JSON of the ping. -/
def pingText : List UInt8 := ascii "\x7b\"jsonrpc\":\"2.0\",\"id\":1,\"method\":\"$/ping\"\x7d"

theorem length_pingText : pingText.length = 42 := by decide

/-- The JSON of one message. -/
def pingJson : Json Unit :=
  ⟨fun message => if message = ping then some pingText else none,
    fun bytes => if bytes = pingText then some ping else none⟩

/-- The ping, as it is sent. -/
def sentPing : Sent pingJson where
  message := ping
  payload := pingText
  arrived := ping
  marshalled := by simp [pingJson, Message.versioned, ping]
  length_le := by rw [length_pingText]; decide
  unmarshalled := by simp [pingJson]

/-- A ping, and the length of another one. The second write of the reply fails after three bytes. -/
theorem serve_frames_ping :
    serveConnected pingJson (fun write => if write = 1 then some 3 else none) (fun n request => (n + 1, request))
        0 0 (sentPing.frame ++ putUint32 pingText.length)
      = ⟨putUint32 pingText.length ++ pingText.take 3, 1, some .write⟩ := by
  have hserved := @serve_frames Unit ℕ pingJson (fun write => if write = 1 then some 3 else none)
    (fun n request => (n + 1, request)) 0 [sentPing] sentPing (putUint32 pingText.length)
    (List.prefix_append _ _) ?_
  · rw [List.flatMap_singleton, List.map_singleton] at hserved
    have hparts : frameParts pingJson sentPing.arrived = .ok (putUint32 pingText.length, pingText) :=
      sentPing.frameParts_eq
    rw [hserved, converse, if_neg (by decide), writeFrame]
    dsimp only
    rw [hparts]
    rfl
  · intro h
    have hlength := congrArg List.length h
    rw [Sent.frame, List.length_append, length_putUint32] at hlength
    exact absurd hlength (by decide)

end Ipc
end Navop
