import NavopExtensions.Lib.Window
import NavopExtensions.Mqtt.EventStream

/-!
# The message history of the MQTT console

`mqtt/src/admin.rs`: every message that is received or sent is appended to a buffer, from which the
oldest ones are dropped while it is too long or too large (`push_buffered`). The local time zone is a
parameter.

`history_exact` says that the buffer is the longest suffix of the messages that is inside both limits,
and that its bytes are counted exactly. The numbers of the messages are counted by a `u64` that stays
at its greatest value, so that they are consecutive for fewer than 2^64 messages.
-/

namespace Navop
namespace Mqtt

open Saturating Window

/-- `MQTT_ADMIN_BUFFER_CAPACITY`: the messages that are kept at most. -/
def mqttAdminBufferCapacity : ℕ := 1000

/-- `MQTT_ADMIN_BUFFER_MAX_BYTES`: the bytes that are kept, one message alone excepted. -/
def mqttAdminBufferMaxBytes : ℕ := 32 * 1024 * 1024

/-- A message that is held: its topic and its payload lie in the memory of the process, of which less
than 2^63 bytes can be addressed. -/
structure HeldMessage extends MqttMessage where
  fits : payload.size + topic.utf8ByteSize < 2 ^ 63

/-- `BufferedMessage`: a message under its id, and which way it went. -/
structure BufferedMessage where
  id : String
  message : HeldMessage
  outgoing : Bool

/-- `AdminInnerState`, at the dates `δ`; points in time are numbers of milliseconds. -/
structure AdminInnerState (δ : Type) where
  buffer : List BufferedMessage
  bufferedBytes : ℕ
  nextSeq : ℕ
  receivedTotal : ℕ
  sentTotal : ℕ
  receivedToday : ℕ
  today : Option δ
  recentReceived : List ℤ
  recentSent : List ℤ

/-- `AdminInnerState::default`: nothing received, nothing sent. -/
def AdminInnerState.default {δ : Type} : AdminInnerState δ := ⟨[], 0, 0, 0, 0, 0, none, [], []⟩

variable {δ : Type}

/-- The bytes of a message. -/
def HeldMessage.size (message : HeldMessage) : ℕ :=
  saturatingAdd message.payload.size message.topic.utf8ByteSize

/-- The id of a number. -/
def idOf (seq : ℕ) : String := "mqtt-" ++ toString seq

/-- The loop of `push_buffered`: the oldest go until both bounds hold, or one message is left. -/
def dropOldest : List BufferedMessage → ℕ → List BufferedMessage × ℕ
  | [], bytes => ([], bytes)
  | oldest :: buffer, bytes =>
    if mqttAdminBufferCapacity < (oldest :: buffer).length
        ∨ mqttAdminBufferMaxBytes < bytes ∧ 1 < (oldest :: buffer).length then
      dropOldest buffer (bytes - oldest.message.size)
    else (oldest :: buffer, bytes)

/-- `push_buffered`: the message gets the next id and joins the end. -/
def pushBuffered (inner : AdminInnerState δ) (message : HeldMessage) (outgoing : Bool) :
    AdminInnerState δ × String :=
  let id := idOf inner.nextSeq
  let bytes := saturatingAdd inner.bufferedBytes message.size
  let kept := dropOldest (inner.buffer ++ [⟨id, message, outgoing⟩]) bytes
  ({ inner with
    nextSeq := saturatingAdd inner.nextSeq 1
    buffer := kept.1
    bufferedBytes := kept.2 }, id)

/-- The newest timestamps, as many as the buffer can have. -/
def newest (times : List ℤ) : List ℤ := times.drop (times.length - mqttAdminBufferCapacity)

section Record

variable [DecidableEq δ] (localDate : ℤ → δ)

/-- `record_received`: the count of the day starts anew when the day does. -/
def recordReceived (inner : AdminInnerState δ) (message : HeldMessage) (now : ℤ) :
    AdminInnerState δ :=
  let today := localDate now
  let inner :=
    if inner.today ≠ some today then { inner with today := some today, receivedToday := 0 } else inner
  let inner := (pushBuffered inner message false).1
  { inner with
    receivedTotal := saturatingAdd inner.receivedTotal 1
    receivedToday := saturatingAdd inner.receivedToday 1
    recentReceived := newest (inner.recentReceived ++ [now]) }

/-- `record_sent`: the message is kept too, and its id goes back to the caller. -/
def recordSent (inner : AdminInnerState δ) (message : HeldMessage) (now : ℤ) :
    AdminInnerState δ × String :=
  let (inner, id) := pushBuffered inner message true
  ({ inner with
    sentTotal := saturatingAdd inner.sentTotal 1
    recentSent := newest (inner.recentSent ++ [now]) }, id)

/-- A message that is recorded, and when. -/
inductive Call where
  | received (message : HeldMessage) (now : ℤ)
  | sent (message : HeldMessage) (now : ℤ)

/-- A message, and whether it was sent. -/
def Call.entry : Call → HeldMessage × Bool
  | received message _ => (message, false)
  | sent message _ => (message, true)

def BufferedMessage.entry (buffered : BufferedMessage) : HeldMessage × Bool :=
  (buffered.message, buffered.outgoing)

/-- A message is recorded; the id of one that was sent is returned. -/
def record (inner : AdminInnerState δ) : Call → AdminInnerState δ × List String
  | .received message now => (recordReceived localDate inner message now, [])
  | .sent message now =>
    let (inner, id) := recordSent inner message now
    (inner, [id])

/-- The state after some messages. -/
def history (calls : List Call) : AdminInnerState δ :=
  (Machine.run (record localDate) AdminInnerState.default calls).1

end Record

/-! ### The limits -/

/-- The payloads and the topics of some messages. -/
def totalBytes (entries : List (HeldMessage × Bool)) : ℕ :=
  (entries.map fun entry => entry.1.payload.size + entry.1.topic.utf8ByteSize).sum

/-- Inside the limits: not too many messages, and not too many bytes unless there is only one. -/
def Admissible (entries : List (HeldMessage × Bool)) : Prop :=
  entries.length ≤ mqttAdminBufferCapacity ∧
    (totalBytes entries ≤ mqttAdminBufferMaxBytes ∨ entries.length = 1)

instance (entries : List (HeldMessage × Bool)) : Decidable (Admissible entries) :=
  inferInstanceAs (Decidable (_ ∧ _))

theorem size_eq (message : HeldMessage) :
    message.size = message.payload.size + message.topic.utf8ByteSize := by
  have hfits := message.fits
  unfold HeldMessage.size saturatingAdd
  omega

theorem totalBytes_cons (entry : HeldMessage × Bool) (entries : List (HeldMessage × Bool)) :
    totalBytes (entry :: entries) = entry.1.size + totalBytes entries := by
  rw [totalBytes, List.map_cons, List.sum_cons, size_eq]
  rfl

theorem totalBytes_append (entries entries' : List (HeldMessage × Bool)) :
    totalBytes (entries ++ entries') = totalBytes entries + totalBytes entries' := by
  rw [totalBytes, List.map_append, List.sum_append]
  rfl

theorem admissible_nil : Admissible [] :=
  ⟨Nat.zero_le _, .inl (Nat.zero_le _)⟩

theorem Admissible.init {entries : List (HeldMessage × Bool)} {entry : HeldMessage × Bool}
    (h : Admissible (entries ++ [entry])) : Admissible entries := by
  obtain ⟨hcount, hbytes⟩ := h
  rw [List.length_append, List.length_singleton] at hcount hbytes
  refine ⟨Nat.le_of_succ_le hcount, ?_⟩
  rcases hbytes with hbytes | hone
  · rw [totalBytes_append] at hbytes
    exact .inl (Nat.le_of_add_right_le hbytes)
  · rw [List.length_eq_zero_iff.1 (Nat.succ.inj hone)]
    exact .inl (Nat.zero_le _)

/-- The entries of a buffer. -/
def entries (buffer : List BufferedMessage) : List (HeldMessage × Bool) :=
  buffer.map BufferedMessage.entry

/-- The loop drops what is not inside the limits, and counts what is left. -/
theorem dropOldest_eq (buffer : List BufferedMessage) :
    dropOldest buffer (totalBytes (entries buffer))
      = (trim (fun buffer => Admissible (entries buffer)) buffer,
        totalBytes (entries (trim (fun buffer => Admissible (entries buffer)) buffer))) := by
  induction buffer with
  | nil => rfl
  | cons oldest buffer ih =>
    have hcons : totalBytes (entries (oldest :: buffer)) - oldest.message.size
        = totalBytes (entries buffer) := by
      rw [entries, List.map_cons, totalBytes_cons]
      exact Nat.add_sub_cancel_left _ _
    have hlimits : (mqttAdminBufferCapacity < (oldest :: buffer).length
        ∨ mqttAdminBufferMaxBytes < totalBytes (entries (oldest :: buffer))
          ∧ 1 < (oldest :: buffer).length) ↔ ¬ Admissible (entries (oldest :: buffer)) := by
      rw [Admissible, entries, List.length_map, List.length_cons]
      omega
    rw [dropOldest, trim, hcons, ih]
    by_cases hadmissible : Admissible (entries (oldest :: buffer))
    · rw [if_neg fun h => hlimits.1 h hadmissible, if_pos hadmissible]
    · rw [if_pos (hlimits.2 hadmissible), if_neg hadmissible]

/-! ### Every history -/

/-- The limits of a buffer: its messages are the longest suffix of all that is inside them, its bytes
are counted, and its ids are the last numbers while there are numbers left. -/
structure Recorded (calls : List Call) (inner : AdminInnerState δ) : Prop where
  longest : IsLongest Admissible (calls.map Call.entry) (entries inner.buffer)
  bytes : inner.bufferedBytes = totalBytes (entries inner.buffer)
  seq : inner.nextSeq = min calls.length (2 ^ 64 - 1)
  ids : calls.length < 2 ^ 64 → inner.buffer.map (·.id) <:+ (List.range calls.length).map idOf

theorem recorded_nil : Recorded [] (AdminInnerState.default : AdminInnerState δ) where
  longest := isLongest_trim admissible_nil []
  bytes := rfl
  seq := rfl
  ids _ := List.suffix_refl _

/-- The bytes of an admissible buffer and one message more can be counted. -/
theorem saturatingAdd_size {buffer : List BufferedMessage} (h : Admissible (entries buffer))
    (message : HeldMessage) :
    saturatingAdd (totalBytes (entries buffer)) message.size
      = totalBytes (entries buffer) + message.size := by
  have hmessage := message.fits
  have hbuffer : totalBytes (entries buffer) < 2 ^ 63 := by
    rcases h.2 with hbytes | hone
    · exact hbytes.trans_lt (by decide)
    · obtain ⟨entry, hentry⟩ := List.length_eq_one_iff.1 hone
      have hfits := entry.1.fits
      rw [hentry, totalBytes_cons, size_eq]
      exact hfits
  rw [saturatingAdd, size_eq]
  omega

/-- What `push_buffered` makes of the buffer. -/
theorem pushBuffered_eq (inner : AdminInnerState δ) (message : HeldMessage) (outgoing : Bool)
    (hadmissible : Admissible (entries inner.buffer))
    (hbytes : inner.bufferedBytes = totalBytes (entries inner.buffer)) :
    let buffer := trim (fun buffer => Admissible (entries buffer))
      (inner.buffer ++ [⟨idOf inner.nextSeq, message, outgoing⟩])
    (pushBuffered inner message outgoing).1.buffer = buffer ∧
      (pushBuffered inner message outgoing).1.bufferedBytes = totalBytes (entries buffer) := by
  have hsum : saturatingAdd inner.bufferedBytes message.size
      = totalBytes (entries (inner.buffer ++ [⟨idOf inner.nextSeq, message, outgoing⟩])) := by
    rw [hbytes, saturatingAdd_size hadmissible, entries, entries, List.map_append, totalBytes_append]
    congr 1
    rw [List.map_singleton, totalBytes_cons]
    rfl
  constructor
  · simp only [pushBuffered, hsum, dropOldest_eq]
  · simp only [pushBuffered, hsum, dropOldest_eq]

theorem entries_trim (buffer : List BufferedMessage) (last : BufferedMessage) :
    entries (trim (fun buffer => Admissible (entries buffer)) (buffer ++ [last]))
      = trim Admissible (entries buffer ++ [last.entry]) := by
  have hmap := trim_map (P := Admissible) BufferedMessage.entry (buffer ++ [last])
  rw [List.map_append] at hmap
  exact hmap

/-- What a suffix with one element more is trimmed to is a suffix with one element more. -/
theorem ids_trim {buffer : List BufferedMessage} {calls : List Call} {last : BufferedMessage}
    (hid : last.id = idOf calls.length)
    (h : buffer.map (·.id) <:+ (List.range calls.length).map idOf) :
    (trim (fun buffer => Admissible (entries buffer)) (buffer ++ [last])).map (·.id)
      <:+ (List.range (calls.length + 1)).map idOf := by
  have hsuffix : trim (fun buffer => Admissible (entries buffer)) (buffer ++ [last])
      <:+ buffer ++ [last] :=
    (isLongest_trim (P := fun buffer => Admissible (entries buffer)) admissible_nil _).suffix
  have hall : (buffer ++ [last]).map (·.id) <:+ (List.range (calls.length + 1)).map idOf := by
    obtain ⟨before, hbefore⟩ := h
    refine ⟨before, ?_⟩
    rw [List.map_append, List.map_singleton, hid, ← List.append_assoc, hbefore, List.range_succ,
      List.map_append, List.map_singleton]
  exact (hsuffix.map _).trans hall

/-- The buffer, its bytes and the next number are those of `push_buffered`. -/
theorem record_eq [DecidableEq δ] (localDate : ℤ → δ) (inner : AdminInnerState δ) (call : Call) :
    (record localDate inner call).1.buffer = (pushBuffered inner call.entry.1 call.entry.2).1.buffer ∧
      (record localDate inner call).1.bufferedBytes
        = (pushBuffered inner call.entry.1 call.entry.2).1.bufferedBytes ∧
      (record localDate inner call).1.nextSeq = saturatingAdd inner.nextSeq 1 := by
  cases call with
  | received message now =>
    simp only [record, recordReceived]
    split
    · exact ⟨rfl, rfl, rfl⟩
    · exact ⟨rfl, rfl, rfl⟩
  | sent message now => exact ⟨rfl, rfl, rfl⟩

theorem Recorded.record [DecidableEq δ] {localDate : ℤ → δ} {calls : List Call}
    {inner : AdminInnerState δ} (h : Recorded calls inner) (call : Call) :
    Recorded (calls ++ [call]) (record localDate inner call).1 := by
  obtain ⟨hbuffer, hbytes, hseq⟩ := record_eq localDate inner call
  obtain ⟨hpushed, hcounted⟩ :=
    pushBuffered_eq inner call.entry.1 call.entry.2 h.longest.admissible h.bytes
  refine ⟨?_, ?_, ?_, fun hlength => ?_⟩
  · rw [hbuffer, hpushed, List.map_append, List.map_singleton, entries_trim]
    exact h.longest.push (fun _ _ => Admissible.init) (isLongest_trim admissible_nil _)
  · rw [hbytes, hcounted, hbuffer, hpushed]
  · rw [hseq, h.seq, List.length_append, List.length_singleton, saturatingAdd]
    omega
  · rw [List.length_append, List.length_singleton] at hlength ⊢
    rw [hbuffer, hpushed]
    refine ids_trim ?_ (h.ids (by omega))
    rw [h.seq, Nat.min_eq_left (by omega)]

theorem recorded_history [DecidableEq δ] (localDate : ℤ → δ) (calls : List Call) :
    Recorded calls (history localDate calls) :=
  Machine.run_history (H := fun calls _ inner => Recorded calls inner) (P := fun _ => True)
    (fun _ _ _ => trivial) (fun _ _ _ call h _ => h.record call) recorded_nil trivial

/-- **The history is the longest suffix inside the limits**, its bytes are counted exactly, and as long
as fewer than 2^64 messages were recorded, their ids are the consecutive numbers that end before the
next one. -/
theorem history_exact [DecidableEq δ] (localDate : ℤ → δ) (calls : List Call) :
    IsLongest Admissible (calls.map Call.entry) (entries (history localDate calls).buffer) ∧
      (history localDate calls).bufferedBytes = totalBytes (entries (history localDate calls).buffer) ∧
      (calls.length < 2 ^ 64 → (history localDate calls).buffer.map (·.id)
        <:+ (List.range (history localDate calls).nextSeq).map idOf) := by
  have h := recorded_history localDate calls
  refine ⟨h.longest, h.bytes, fun hlength => ?_⟩
  rw [h.seq, Nat.min_eq_left (by omega)]
  exact h.ids hlength

/-- A message of one byte. -/
def shortMessage : HeldMessage := ⟨⟨"a/b", ⟨#[1]⟩, .atMostOnce, false, 0⟩, by decide⟩

/-- The ids of two messages. -/
theorem history_exact_two :
    (history id [.received shortMessage 0, .sent shortMessage 5]).buffer.map (·.id)
      <:+ (List.range (history id [.received shortMessage 0, .sent shortMessage 5]).nextSeq).map idOf :=
  (history_exact id [.received shortMessage 0, .sent shortMessage 5]).2.2 (by decide)

/-! ### The last number -/

theorem idOf_injective : Function.Injective idOf := by
  intro n m h
  have htexts : (toString n).toList = (toString m).toList :=
    congrArg String.toList ((String.append_right_inj _).1 h)
  rw [Nat.toString_eq_repr, Nat.toString_eq_repr, Nat.toList_repr, Nat.toList_repr] at htexts
  rw [← @Nat.ofDigitChars_ten_toDigits n, htexts, Nat.ofDigitChars_ten_toDigits]

/-- The message that was recorded last is in the buffer. -/
theorem last_mem_history [DecidableEq δ] (localDate : ℤ → δ) (calls : List Call) (call : Call) :
    idOf (min calls.length (2 ^ 64 - 1)) ∈ (history localDate (calls ++ [call])).buffer.map (·.id) := by
  have h := recorded_history localDate calls
  have hhistory : history localDate (calls ++ [call])
      = (record localDate (history localDate calls) call).1 := by
    rw [history, Machine.run_concat]
    rfl
  have hlongest := isLongest_trim (P := fun buffer => Admissible (entries buffer)) admissible_nil
    ((history localDate calls).buffer
      ++ [⟨idOf (history localDate calls).nextSeq, call.entry.1, call.entry.2⟩])
  rw [hhistory, (record_eq localDate _ call).1, (pushBuffered_eq _ _ _ h.longest.admissible h.bytes).1]
  -- A single message is inside the limits.
  have hpositive := hlongest.longest [⟨idOf (history localDate calls).nextSeq, call.entry.1,
    call.entry.2⟩] (List.suffix_append _ _) ⟨show 1 ≤ 1000 by decide, .inr rfl⟩
  rcases List.suffix_concat_iff.1 hlongest.suffix with hnil | ⟨before, hkept, -⟩
  · rw [hnil] at hpositive
    exact absurd hpositive (by simp)
  · rw [hkept, List.map_append, ← h.seq]
    exact List.mem_append_right _ List.mem_cons_self

/-- The messages of a history that uses up the numbers. -/
theorem ids_after_last_number [DecidableEq δ] (localDate : ℤ → δ) (calls : List Call) (call : Call)
    (hlength : calls.length = 2 ^ 64 - 1) :
    ¬ ((history localDate (calls ++ [call])).buffer.map (·.id)
      <:+ (List.range (history localDate (calls ++ [call])).nextSeq).map idOf) := by
  intro hids
  have hmem := hids.subset (last_mem_history localDate calls call)
  rw [(recorded_history localDate (calls ++ [call])).seq, List.length_append, hlength, Nat.min_self] at hmem
  obtain ⟨seq, hseq, hid⟩ := List.mem_map.1 hmem
  rw [idOf_injective hid, List.mem_range] at hseq
  exact absurd hseq (by omega)

/-- **The numbers end.** After 2^64 messages, the last one is `mqtt-18446744073709551615`, and the next
number is the same. -/
theorem numbers_end :
    ¬ ((history id (List.replicate (2 ^ 64 - 1) (.received shortMessage 0)
        ++ [.received shortMessage 0])).buffer.map (·.id)
      <:+ (List.range (history id (List.replicate (2 ^ 64 - 1) (.received shortMessage 0)
        ++ [.received shortMessage 0])).nextSeq).map idOf) :=
  ids_after_last_number id _ _ List.length_replicate

end Mqtt
end Navop
