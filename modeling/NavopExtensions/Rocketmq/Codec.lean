import NavopExtensions.Rocketmq.Command

/-!
# Frames come back as they were sent

The reader cuts the stream of a connection back into the commands that were written to it, provided
that `serde_json` decodes what it encodes (`frames_roundtrip`). The three lengths of a frame agree:
the total, the length in the description of the header, and that of the body, which is what remains.
All of them are below 2^24, so that the length of a header never reaches the byte of the
serialization type. Whatever bytes arrive, decoding a frame stays inside it (`decodeFrame_in_range`).
-/

namespace Navop
namespace Rocketmq

open BigEndian Checks

variable {json : SerdeJson} {command : RemotingCommand} {frame header body : List UInt8}

/-- An empty body is no body. -/
def RemotingCommand.received (command : RemotingCommand) : RemotingCommand :=
  { command with body := command.body.filter fun body => !body.isEmpty }

/-! ### Writing -/

/-- What a frame is made of. -/
structure Framed (json : SerdeJson) (command : RemotingCommand) (header frame : List UInt8) :
    Prop where
  header_eq : json.toVec command = .ok header
  fits : 8 + header.length + (command.body.getD []).length ≤ 2 ^ 24
  frame_eq : frame = toBe 4 (4 + header.length + (command.body.getD []).length)
    ++ toBe 4 (headerDesc .json header.length) ++ header ++ command.body.getD []

theorem encodeFrame_eq_ok :
    encodeFrame json command = .ok frame ↔ ∃ header, Framed json command header frame := by
  have hmax : maxFrameLength = 2 ^ 24 := rfl
  constructor
  · intro h
    obtain ⟨header, hheader, h⟩ := bind_eq_ok.mp h
    have hjson : json.toVec command = .ok header := by
      unfold headerJson at hheader
      cases hvec : json.toVec command with
      | error error => exact absurd hheader (by simp [hvec, Except.mapError])
      | ok bytes =>
        rw [hvec] at hheader
        exact congrArg _ (Except.ok.inj hheader)
    by_cases hfits : 4 + (4 + header.length + (command.body.getD []).length) > maxFrameLength
    · exact absurd ((if_pos hfits).symm.trans h) (by simp)
    · refine ⟨header, hjson, by omega, ?_⟩
      exact (Except.ok.inj ((if_neg hfits).symm.trans h)).symm
  · rintro ⟨header, hjson, hfits, rfl⟩
    have hheader : headerJson json command = .ok header := by
      rw [headerJson, hjson]
      rfl
    exact bind_eq_ok.mpr ⟨header, hheader, if_neg (by omega)⟩

/-- The description of a short header is its length. -/
theorem headerDesc_json {n : ℕ} (h : n < 2 ^ 24) : headerDesc .json n = n := by
  have hmod : n % 2 ^ 32 = n := Nat.mod_eq_of_lt (by omega)
  rw [headerDesc, hmod]
  exact Nat.zero_or n

/-! ### Decoding a frame -/

/-- The middle of three parts. -/
theorem slice_append {before middle : List UInt8} {start stop : ℕ} (hstart : before.length = start)
    (hstop : (before ++ middle).length = stop) (after : List UInt8) :
    slice (before ++ middle ++ after) start stop = .ok middle := by
  subst hstart hstop
  have hrange : before.length ≤ (before ++ middle).length ∧
      (before ++ middle).length ≤ (before ++ middle ++ after).length := by
    simp only [List.length_append]
    omega
  rw [slice, if_pos hrange, List.append_assoc, List.drop_left, List.length_append,
    Nat.add_sub_cancel_left, List.take_left]

theorem readDesc_toBe {n : ℕ} (h : n < 2 ^ 24) (rest : List UInt8) :
    readDesc (toBe 4 n ++ rest) = .ok n := by
  have hread : readDesc (toBe 4 n ++ rest) = .ok (ofBe (toBe 4 n)) := rfl
  rw [hread, ofBe_toBe_of_lt (by omega)]

/-- The type and the length in the description of a short header. -/
theorem headerDesc_parts {n : ℕ} (h : n < 2 ^ 24) :
    (n >>> 24) &&& 0xFF = 0 ∧ n &&& 0x00FFFFFF = n := by
  constructor
  · rw [Nat.shiftRight_eq_div_pow, Nat.div_eq_of_lt h]
    rfl
  · rw [show 0x00FFFFFF = 2 ^ 24 - 1 from rfl, Nat.and_two_pow_sub_one_eq_mod, Nat.mod_eq_of_lt h]

/-- The header and the body of a frame. -/
theorem decodeParts_encoded {desc : List UInt8} {headerEnd : ℕ} (hdesc : desc.length = 4)
    (hend : (desc ++ header).length = headerEnd)
    (hjson : json.fromSlice header = .ok { command with body := none }) :
    decodeParts json (desc ++ header ++ command.body.getD []) headerEnd
      = .ok command.received := by
  refine bind_eq_ok.mpr ⟨header, slice_append hdesc hend _, ?_⟩
  rw [hjson]
  have hlength : (desc ++ header ++ command.body.getD []).length
      = headerEnd + (command.body.getD []).length := by rw [List.length_append, hend]
  by_cases hbody : command.body.getD [] = []
  · -- nothing follows the header
    have hnone : command.received = { command with body := none } := by
      unfold RemotingCommand.received
      cases hcommand : command.body with
      | none => rfl
      | some body =>
        rw [hcommand] at hbody
        obtain rfl : body = [] := hbody
        rfl
    have hend' : ¬ (desc ++ header ++ command.body.getD []).length > headerEnd := by
      rw [hlength, hbody]
      exact Nat.lt_irrefl headerEnd
    simp only [if_neg hend', hnone]
    rfl
  · have hsome : command.received = { command with body := some (command.body.getD []) } := by
      unfold RemotingCommand.received
      cases hcommand : command.body with
      | none =>
        rw [hcommand] at hbody
        exact absurd rfl hbody
      | some body =>
        rw [hcommand] at hbody
        have hkept : (!body.isEmpty) = true := by simpa using hbody
        simp [hkept]
    have hend' : (desc ++ header ++ command.body.getD []).length > headerEnd := by
      rw [hlength]
      exact Nat.lt_add_of_pos_right (List.length_pos_iff.mpr hbody)
    -- the rest behind the header is the body
    have hslice := slice_append hend
      (rfl : (desc ++ header ++ command.body.getD []).length = _) []
    rw [List.append_nil] at hslice
    simp only [if_pos hend', hsome]
    exact bind_eq_ok.mpr ⟨_, hslice, rfl⟩

/-- **Decoding the body of a frame.** -/
theorem decodeFrame_encoded (hjson : json.fromSlice header = .ok { command with body := none })
    (hlength : header.length < 2 ^ 24) :
    decodeFrame json (toBe 4 header.length ++ header ++ command.body.getD [])
      = .ok command.received := by
  obtain ⟨htype, hlen⟩ := headerDesc_parts hlength
  have hframe : (toBe 4 header.length ++ header ++ command.body.getD []).length
      = 4 + header.length + (command.body.getD []).length := by
    rw [List.length_append, List.length_append, length_toBe]
  unfold decodeFrame
  rw [if_neg (by omega)]
  refine bind_eq_ok.mpr ⟨header.length, ?_, ?_⟩
  · rw [List.append_assoc]
    exact readDesc_toBe hlength _
  · simp only [htype, hlen, SerializeType.fromCode]
    rw [if_neg (by omega)]
    refine decodeParts_encoded (length_toBe 4 _) ?_ hjson
    rw [List.length_append, length_toBe]

/-! ### Reading the stream -/

theorem frameBodyLength_ok {n : ℕ} (hlow : 4 ≤ n) (hhigh : 4 + n ≤ 2 ^ 24) :
    frameBodyLength n = .ok n := by
  have hmax : maxFrameLength = 2 ^ 24 := rfl
  unfold frameBodyLength
  rw [if_neg (by omega), if_neg (by omega)]

/-- A round of the reader, on a stream that starts with a frame. -/
theorem readFrame_append {inner rest : List UInt8} (hlow : 4 ≤ inner.length)
    (hhigh : 4 + inner.length ≤ 2 ^ 24) (hdecode : decodeFrame json inner = .ok command) :
    readFrame json (toBe 4 inner.length ++ inner ++ rest) = .ok (command, rest) := by
  have hstart : (toBe 4 inner.length ++ inner ++ rest).take 4 = toBe 4 inner.length := by
    rw [List.append_assoc, List.take_left' (length_toBe 4 _)]
  have hrest : (toBe 4 inner.length ++ inner ++ rest).drop 4 = inner ++ rest := by
    rw [List.append_assoc, List.drop_left' (length_toBe 4 _)]
  unfold readFrame
  rw [if_neg (by simp), hstart, hrest, ofBe_toBe_of_lt (by omega), frameBodyLength_ok hlow hhigh]
  have hwhole : ¬ (inner ++ rest).length < inner.length := by simp
  simp only [if_neg hwhole, List.take_left, List.drop_left, hdecode]

/-- **One frame** is read off the stream. -/
theorem readFrame_encoded (hjson : json.RoundTrips) (h : encodeFrame json command = .ok frame)
    (rest : List UInt8) : readFrame json (frame ++ rest) = .ok (command.received, rest) := by
  obtain ⟨header, hframed⟩ := encodeFrame_eq_ok.mp h
  have hfits := hframed.fits
  have hheader : header.length < 2 ^ 24 := by omega
  have hdecode := decodeFrame_encoded (hjson command header hframed.header_eq) hheader
  have hlength : (toBe 4 header.length ++ header ++ command.body.getD []).length
      = 4 + header.length + (command.body.getD []).length := by
    rw [List.length_append, List.length_append, length_toBe]
  have hframe : frame = toBe 4 (toBe 4 header.length ++ header ++ command.body.getD []).length
      ++ (toBe 4 header.length ++ header ++ command.body.getD []) := by
    rw [hframed.frame_eq, headerDesc_json hheader, hlength, List.append_assoc, List.append_assoc,
      List.append_assoc]
  rw [hframe]
  exact readFrame_append (by omega) (by omega) hdecode

/-- **A stream of frames** is read frame by frame, to its end. -/
theorem readFrames_encoded (hjson : json.RoundTrips) {commands : List RemotingCommand}
    {frames : List (List UInt8)}
    (h : List.Forall₂ (fun command frame => encodeFrame json command = .ok frame) commands frames) :
    readFrames json frames.flatten = (commands.map .received, .endOfStream) := by
  induction h with
  | nil =>
    rw [readFrames]
    rfl
  | cons hframe _ ih =>
    rw [List.flatten_cons, readFrames]
    split
    · next reason herror =>
      rw [readFrame_encoded hjson hframe] at herror
      exact absurd herror (by simp)
    · next command rest hok =>
      rw [readFrame_encoded hjson hframe] at hok
      obtain ⟨rfl, rfl⟩ := Prod.mk.inj (Except.ok.inj hok)
      rw [ih]
      rfl

theorem encoded_of_mem {commands : List RemotingCommand} {frames : List (List UInt8)}
    (h : List.Forall₂ (fun command frame => encodeFrame json command = .ok frame) commands frames)
    (hmem : command ∈ commands) : ∃ frame, encodeFrame json command = .ok frame := by
  induction h with
  | nil => exact absurd hmem List.not_mem_nil
  | cons hframe _ ih =>
    obtain rfl | hmem := List.mem_cons.mp hmem
    · exact ⟨_, hframe⟩
    · exact ih hmem

/-! ### Arbitrary bytes -/

theorem readDesc_ok (h : 4 ≤ frame.length) : ∃ desc, readDesc frame = .ok desc := by
  match frame, h with
  | b₀ :: b₁ :: b₂ :: b₃ :: _, _ => exact ⟨ofBe [b₀, b₁, b₂, b₃], rfl⟩

theorem slice_ok {start stop : ℕ} (hstart : start ≤ stop) (hstop : stop ≤ frame.length) :
    ∃ part, slice frame start stop = .ok part := ⟨_, if_pos ⟨hstart, hstop⟩⟩

theorem decodeParts_in_range {headerEnd : ℕ} (hstart : 4 ≤ headerEnd)
    (hend : headerEnd ≤ frame.length) : decodeParts json frame headerEnd ≠ .error .panic := by
  obtain ⟨header, hheader⟩ := slice_ok hstart hend
  obtain ⟨body, hbody⟩ := slice_ok hend (le_refl frame.length)
  unfold decodeParts
  rw [hheader, ok_bind]
  split
  · simp
  · split
    · rw [hbody, ok_bind]
      simp [pure, Except.pure]
    · simp [pure, Except.pure]

/-- **Whatever bytes arrive**, decoding a frame stays inside it. -/
theorem decodeFrame_in_range (json : SerdeJson) (frame : List UInt8) :
    decodeFrame json frame ≠ .error .panic := by
  unfold decodeFrame
  split
  · simp
  next hlength =>
  obtain ⟨desc, hdesc⟩ := readDesc_ok (Nat.not_lt.mp hlength)
  rw [hdesc, ok_bind]
  dsimp only
  split
  · simp
  · split
    · simp
    · next hheader =>
      exact decodeParts_in_range (by omega) (by omega)

/-- **Frames round trip.** Commands that can be encoded are read back from the stream of their
frames, in order and to its end; the lengths of a frame are below 2^24 and its description keeps the
type and the length of the header apart; and no frame makes the reader reach outside it. -/
theorem frames_roundtrip {json : SerdeJson} (hjson : json.RoundTrips)
    {commands : List RemotingCommand} {frames : List (List UInt8)}
    (h : List.Forall₂ (fun command frame => encodeFrame json command = .ok frame) commands frames) :
    readFrames json frames.flatten = (commands.map .received, .endOfStream) ∧
    (∀ command ∈ commands, ∃ header, json.toVec command = .ok header ∧
      4 + header.length + (command.body.getD []).length < 2 ^ 24 ∧
      (headerDesc .json header.length >>> 24) &&& 0xFF = SerializeType.json.code ∧
      headerDesc .json header.length &&& 0x00FFFFFF = header.length) ∧
    ∀ bytes, decodeFrame json bytes ≠ .error .panic := by
  refine ⟨readFrames_encoded hjson h, ?_, decodeFrame_in_range json⟩
  intro command hcommand
  obtain ⟨frame, hframe⟩ := encoded_of_mem h hcommand
  obtain ⟨header, hframed⟩ := encodeFrame_eq_ok.mp hframe
  have hfits := hframed.fits
  have hheader : header.length < 2 ^ 24 := by omega
  refine ⟨header, hframed.header_eq, by omega, ?_⟩
  rw [headerDesc_json hheader]
  exact headerDesc_parts hheader

/-- A request for the cluster, and its JSON. -/
def clusterInfoRequest : RemotingCommand := { RemotingCommand.createRequest 106 ∅ with opaqueId := 7 }

def clusterInfoJson : List UInt8 :=
  "\x7b\"code\":106,\"language\":\"OTHER\",\"version\":0,\"opaque\":7,\"flag\":0\x7d".toList.map
    fun character => UInt8.ofNat character.toNat

/-- `serde_json`, as far as this request goes. -/
def clusterInfoSerde : SerdeJson where
  toVec command :=
    if { command with body := none } = clusterInfoRequest then .ok clusterInfoJson
    else .error "another command"
  fromSlice bytes :=
    if bytes = clusterInfoJson then .ok clusterInfoRequest else .error "another header"

theorem roundTrips_clusterInfoSerde : clusterInfoSerde.RoundTrips := by
  intro command bytes h
  by_cases hcommand : { command with body := none } = clusterInfoRequest
  · obtain rfl := Except.ok.inj ((if_pos hcommand).symm.trans h)
    rw [hcommand]
    simp [clusterInfoSerde]
  · exact absurd ((if_neg hcommand).symm.trans h) (by simp)

theorem encodeFrame_clusterInfo (body : Option (List UInt8)) (hbody : (body.getD []).length ≤ 2) :
    ∃ frame, encodeFrame clusterInfoSerde { clusterInfoRequest with body := body } = .ok frame := by
  refine ⟨_, encodeFrame_eq_ok.mpr ⟨clusterInfoJson, ?_, ?_, rfl⟩⟩
  · simp [clusterInfoSerde, clusterInfoRequest, RemotingCommand.createRequest]
  · have hheader : clusterInfoJson.length = 63 := by decide
    change 8 + clusterInfoJson.length + (body.getD []).length ≤ 2 ^ 24
    omega

theorem frames_roundtrip_clusterInfo : ∃ frames : List (List UInt8), frames.length = 3 ∧
    readFrames clusterInfoSerde frames.flatten
      = ([clusterInfoRequest, clusterInfoRequest.withBody [1, 2], clusterInfoRequest],
        .endOfStream) := by
  obtain ⟨frame₁, h₁⟩ := encodeFrame_clusterInfo none (by decide)
  obtain ⟨frame₂, h₂⟩ := encodeFrame_clusterInfo (some [1, 2]) (by decide)
  obtain ⟨frame₃, h₃⟩ := encodeFrame_clusterInfo (some []) (by decide)
  refine ⟨[frame₁, frame₂, frame₃], rfl, ?_⟩
  exact (frames_roundtrip roundTrips_clusterInfoSerde (.cons h₁ (.cons h₂ (.cons h₃ .nil)))).1

end Rocketmq
end Navop
