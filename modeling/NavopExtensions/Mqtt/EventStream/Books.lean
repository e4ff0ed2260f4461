import NavopExtensions.Mqtt.EventStream

/-!
# No message gets lost unnoticed

The books of a stream: every message that the receiver has passed was returned, is in the batch of the
read under way, waits in the backlog, is still to be placed, or was counted as dropped
(`Accounts`). Every move of a read keeps them, so they hold along every run, whatever is published
between the moves (`books_of_run`).

What the receiver has not passed is in the channel, or was overwritten there since the receiver last
asked. A read that is filled by the backlog does not ask, so that it returns without these messages being
in any count (`overwritten_in_no_count`); the next read that drains the channel is told of all of them
first (`no_silent_loss`).

The counters of a stream saturate at `2 ^ 64 - 1`, so the books are about runs in which fewer than
`2 ^ 64` messages are published (`Accounts.few`).
-/

namespace Navop
namespace Mqtt

open Broadcast Machine Saturating

variable {localTime : ℤ → String} {returned : List LiveEvent} {batch : Batch}
  {messages : List MqttMessage} {missed : ℕ} {channel : Channel MqttMessage}
  {stream : ProviderEventStream}

/-! ### Bytes -/

/-- The bytes of events. -/
def eventBytes (localTime : ℤ → String) (events : List LiveEvent) : ℕ :=
  (events.map (LiveEvent.size localTime)).sum

/-- The bytes of a batch are counted, and those of several events are within the limit. -/
structure Batch.Weighed (localTime : ℤ → String) (batch : Batch) : Prop where
  used : batch.used = min (eventBytes localTime batch.events) (2 ^ 64 - 1)
  bounded : 1 < batch.events.length → eventBytes localTime batch.events ≤ batchMaxBytes

theorem Batch.weighed_empty : Batch.Weighed localTime ⟨[], 0⟩ where
  used := rfl
  bounded h := absurd h (by simp)

@[simp] theorem eventBytes_concat (events : List LiveEvent) (event : LiveEvent) :
    eventBytes localTime (events ++ [event]) = eventBytes localTime events + event.size localTime := by
  simp [eventBytes]

theorem Batch.Weighed.push (h : batch.Weighed localTime) {event : LiveEvent}
    (hfits : batch.Fits (event.size localTime)) :
    (batch.push event (event.size localTime)).Weighed localTime := by
  have hused := h.used
  constructor
  · change saturatingAdd batch.used (event.size localTime)
      = min (eventBytes localTime (batch.events ++ [event])) (2 ^ 64 - 1)
    rw [eventBytes_concat, saturatingAdd]
    omega
  · intro hmany
    change eventBytes localTime (batch.events ++ [event]) ≤ batchMaxBytes
    rw [eventBytes_concat]
    obtain hnil | hle := hfits
    · rw [Batch.push, hnil] at hmany
      exact absurd hmany (by simp)
    · unfold saturatingAdd batchMaxBytes at *
      omega

/-- **What placing a message does**: it goes into the batch, or into the backlog, or is dropped; in
any case it gets the next number. -/
theorem placeMessage_cases {message : MqttMessage} {stream' : ProviderEventStream} {batch' : Batch}
    (hplace : placeMessage localTime stream batch message = (stream', batch')) :
    (batch.Fits (LiveEvent.size localTime ⟨stream.nextSeq, message⟩) ∧
      stream' = { stream with nextSeq := saturatingAdd stream.nextSeq 1 } ∧
      batch' = batch.push ⟨stream.nextSeq, message⟩
        (LiveEvent.size localTime ⟨stream.nextSeq, message⟩)) ∨
    (¬ batch.Fits (LiveEvent.size localTime ⟨stream.nextSeq, message⟩) ∧
      saturatingAdd stream.pendingBytes (LiveEvent.size localTime ⟨stream.nextSeq, message⟩)
        ≤ pendingMaxBytes ∧
      stream' = { stream with
        nextSeq := saturatingAdd stream.nextSeq 1
        pending := stream.pending ++ [(⟨stream.nextSeq, message⟩,
          LiveEvent.size localTime ⟨stream.nextSeq, message⟩)]
        pendingBytes := saturatingAdd stream.pendingBytes
          (LiveEvent.size localTime ⟨stream.nextSeq, message⟩) } ∧
      batch' = batch) ∨
    (¬ batch.Fits (LiveEvent.size localTime ⟨stream.nextSeq, message⟩) ∧
      ¬ saturatingAdd stream.pendingBytes (LiveEvent.size localTime ⟨stream.nextSeq, message⟩)
        ≤ pendingMaxBytes ∧
      stream' = { stream with
        nextSeq := saturatingAdd stream.nextSeq 1, dropped := saturatingAdd stream.dropped 1 } ∧
      batch' = batch) := by
  by_cases hfits : batch.Fits (LiveEvent.size localTime ⟨stream.nextSeq, message⟩)
  · simp only [placeMessage, ProviderEventStream.eventFor, hfits, ↓reduceIte] at hplace
    obtain ⟨rfl, rfl⟩ := Prod.mk.inj hplace
    exact .inl ⟨hfits, rfl, rfl⟩
  by_cases hroom : saturatingAdd stream.pendingBytes
      (LiveEvent.size localTime ⟨stream.nextSeq, message⟩) ≤ pendingMaxBytes
  · simp only [placeMessage, ProviderEventStream.eventFor, hfits, hroom, ↓reduceIte] at hplace
    obtain ⟨rfl, rfl⟩ := Prod.mk.inj hplace
    exact .inr (.inl ⟨hfits, hroom, rfl, rfl⟩)
  · simp only [placeMessage, ProviderEventStream.eventFor, hfits, hroom, ↓reduceIte] at hplace
    obtain ⟨rfl, rfl⟩ := Prod.mk.inj hplace
    exact .inr (.inr ⟨hfits, hroom, rfl, rfl⟩)

/-! ### Accounts -/

/-- Where the messages are that a receiver has passed: what was returned, the batch, the messages to
place, and the missed ones that the stream has not counted yet. -/
structure Accounts (localTime : ℤ → String) (returned : List LiveEvent) (batch : Batch)
    (messages : List MqttMessage) (missed : ℕ) (channel : Channel MqttMessage)
    (stream : ProviderEventStream) : Prop where
  valid : channel.Valid
  /-- No counter has saturated. -/
  few : channel.sent.length < 2 ^ 64
  count : channel.next = returned.length + batch.events.length + stream.pending.length
    + messages.length + stream.dropped + missed
  /-- Numbers are given once. -/
  numbered : ((returned ++ batch.events ++ stream.pending.map Prod.fst).map LiveEvent.seq).Nodup
  /-- An event is the message of its number, of those that the receiver was given. -/
  given : ∃ received : List MqttMessage, received.Sublist channel.passed ∧
    received.drop stream.nextSeq = messages ∧ stream.nextSeq ≤ received.length ∧
    ∀ event ∈ returned ++ batch.events ++ stream.pending.map Prod.fst,
      event.seq < stream.nextSeq ∧ received[event.seq]? = some event.message
  weighed : batch.Weighed localTime
  sizes : ∀ entry ∈ stream.pending, entry.2 = entry.1.size localTime
  bytes : stream.pendingBytes = (stream.pending.map Prod.snd).sum
  bounded : stream.pendingBytes ≤ pendingMaxBytes

namespace Accounts

theorem opened : Accounts localTime [] ⟨[], 0⟩ [] 0 .subscribe .opened where
  valid := Channel.valid_subscribe
  few := by decide
  count := rfl
  numbered := List.nodup_nil
  given := ⟨[], List.nil_sublist _, rfl, Nat.le_refl 0, by simp [ProviderEventStream.opened]⟩
  weighed := Batch.weighed_empty
  sizes _ h := absurd h List.not_mem_nil
  bytes := rfl
  bounded := Nat.zero_le _

theorem publish (h : Accounts localTime returned batch messages missed channel stream)
    {message : MqttMessage} (hfew : (channel.send message).sent.length < 2 ^ 64) :
    Accounts localTime returned batch messages missed (channel.send message) stream where
  valid := h.valid.send message
  few := hfew
  count := (Channel.next_send message).trans h.count
  numbered := h.numbered
  given := by
    rw [h.valid.passed_send]
    exact h.given
  weighed := h.weighed
  sizes := h.sizes
  bytes := h.bytes
  bounded := h.bounded

theorem hangUp (h : Accounts localTime returned batch messages missed channel stream) :
    Accounts localTime returned batch messages missed channel.hangUp stream where
  valid := h.valid
  few := h.few
  count := h.count
  numbered := h.numbered
  given := h.given
  weighed := h.weighed
  sizes := h.sizes
  bytes := h.bytes
  bounded := h.bounded

/-- A change of hands: the same messages, with other holders. -/
theorem transfer (h : Accounts localTime returned batch messages missed channel stream)
    {returned' : List LiveEvent} {batch' : Batch} {stream' : ProviderEventStream}
    (hheld : returned' ++ batch'.events ++ stream'.pending.map Prod.fst
      = returned ++ batch.events ++ stream.pending.map Prod.fst)
    (hdropped : stream'.dropped = stream.dropped) (hseq : stream'.nextSeq = stream.nextSeq)
    (hweighed : batch'.Weighed localTime)
    (hsizes : ∀ entry ∈ stream'.pending, entry.2 = entry.1.size localTime)
    (hbytes : stream'.pendingBytes = (stream'.pending.map Prod.snd).sum)
    (hbounded : stream'.pendingBytes ≤ pendingMaxBytes) :
    Accounts localTime returned' batch' messages missed channel stream' where
  valid := h.valid
  few := h.few
  count := by
    have hlength := congrArg List.length hheld
    simp only [List.length_append, List.length_map] at hlength
    have hcount := h.count
    omega
  numbered := hheld ▸ h.numbered
  given := by
    rw [hheld, hseq]
    exact h.given
  weighed := hweighed
  sizes := hsizes
  bytes := hbytes
  bounded := hbounded

/-- The batch is returned. -/
theorem answer (h : Accounts localTime returned batch messages missed channel stream) :
    Accounts localTime (returned ++ batch.events) ⟨[], 0⟩ messages missed channel stream := by
  refine h.transfer ?_ rfl rfl Batch.weighed_empty h.sizes h.bytes h.bounded
  simp

/-- The first event of the backlog goes into the batch. -/
theorem takeFirst {event : LiveEvent} {size : ℕ} {pending : List (LiveEvent × ℕ)}
    (h : Accounts localTime returned batch messages missed channel stream)
    (hpending : stream.pending = (event, size) :: pending) (hfits : batch.Fits size) :
    Accounts localTime returned (batch.push event size) messages missed channel
      { stream with pending, pendingBytes := stream.pendingBytes - size } := by
  have hsize : size = event.size localTime := h.sizes (event, size) (by simp [hpending])
  have hbytes := h.bytes
  rw [hpending, List.map_cons, List.sum_cons] at hbytes
  refine h.transfer ?_ rfl rfl ?_ ?_ ?_ ?_
  · simp [Batch.push, hpending]
  · rw [hsize] at hfits ⊢
    exact h.weighed.push hfits
  · intro entry hentry
    exact h.sizes entry (by simp [hpending, show entry ∈ pending from hentry])
  · change stream.pendingBytes - size = (pending.map Prod.snd).sum
    rw [hbytes, Nat.add_sub_cancel_left]
  · exact (Nat.sub_le _ _).trans h.bounded

/-- The backlog goes into the batch. -/
theorem takePending (h : Accounts localTime returned batch messages missed channel stream)
    {batch' : Batch} {pending' : List (LiveEvent × ℕ)} {pendingBytes' : ℕ}
    (htake : Mqtt.takePending stream.pending stream.pendingBytes batch
      = (batch', pending', pendingBytes')) :
    Accounts localTime returned batch' messages missed channel
      { stream with pending := pending', pendingBytes := pendingBytes' } := by
  obtain ⟨dropped, nextSeq, closed, pending, pendingBytes⟩ := stream
  dsimp only at htake ⊢
  induction pending generalizing batch pendingBytes with
  | nil =>
    obtain ⟨rfl, rfl, rfl⟩ := htake
    exact h
  | cons entry pending ih =>
    obtain ⟨event, size⟩ := entry
    rw [Mqtt.takePending] at htake
    split at htake
    · next hfits => exact ih _ (h.takeFirst rfl hfits) htake
    · obtain ⟨rfl, rfl, rfl⟩ := htake
      -- what was taken off is put back
      have hbytes := h.bytes
      have hbounded := h.bounded
      rw [List.map_cons, List.sum_cons] at hbytes
      have hback : saturatingAdd (pendingBytes - size) size = pendingBytes := by
        unfold saturatingAdd
        change pendingBytes = size + (pending.map Prod.snd).sum at hbytes
        change pendingBytes ≤ pendingMaxBytes at hbounded
        unfold pendingMaxBytes at hbounded
        omega
      rw [hback]
      exact h

/-- The receiver is given a message. -/
theorem receive {message : MqttMessage} {channel' : Channel MqttMessage}
    (h : Accounts localTime returned batch messages missed channel stream)
    (hvalid : channel'.Valid) (hsent : channel'.sent = channel.sent)
    (hnext : channel'.next = channel.next + 1)
    (hpassed : channel'.passed = channel.passed ++ [message]) :
    Accounts localTime returned batch (messages ++ [message]) missed channel' stream where
  valid := hvalid
  few := hsent ▸ h.few
  count := by
    have hcount := h.count
    rw [hnext, hcount, List.length_append, List.length_singleton]
    omega
  numbered := h.numbered
  given := by
    obtain ⟨received, hsub, hdrop, hle, hevents⟩ := h.given
    refine ⟨received ++ [message], ?_, ?_, ?_, ?_⟩
    · rw [hpassed]
      exact hsub.append_right [message]
    · rw [List.drop_append_of_le_length hle, hdrop]
    · exact hle.trans (by simp)
    · intro event hevent
      obtain ⟨hlt, hmessage⟩ := hevents event hevent
      exact ⟨hlt, by rw [List.getElem?_append_left (hlt.trans_le hle), hmessage]⟩
  weighed := h.weighed
  sizes := h.sizes
  bytes := h.bytes
  bounded := h.bounded

/-- The receiver is told that it has missed messages. -/
theorem miss {count : ℕ} {channel' : Channel MqttMessage}
    (h : Accounts localTime returned batch messages missed channel stream)
    (hvalid : channel'.Valid) (hsent : channel'.sent = channel.sent)
    (hnext : channel'.next = channel.next + count)
    (hpassed : channel.passed <+: channel'.passed) :
    Accounts localTime returned batch messages (missed + count) channel' stream where
  valid := hvalid
  few := hsent ▸ h.few
  count := by rw [hnext, h.count, Nat.add_assoc]
  numbered := h.numbered
  given := by
    obtain ⟨received, hsub, hrest⟩ := h.given
    exact ⟨received, hsub.trans hpassed.sublist, hrest⟩
  weighed := h.weighed
  sizes := h.sizes
  bytes := h.bytes
  bounded := h.bounded

/-- What is counted as dropped or missed was sent, so that the sum is exact. -/
theorem dropped_add_missed (h : Accounts localTime returned batch messages missed channel stream) :
    saturatingAdd stream.dropped missed = stream.dropped + missed := by
  have hcount := h.count
  have hvalid : channel.next ≤ channel.sent.length := h.valid
  have hfew := h.few
  exact saturatingAdd_of_lt (by omega)

/-- The missed messages are counted. -/
theorem tally (h : Accounts localTime returned batch messages missed channel stream) :
    Accounts localTime returned batch messages 0 channel
      { stream with dropped := saturatingAdd stream.dropped missed } where
  valid := h.valid
  few := h.few
  count := by
    have hcount := h.count
    rw [h.dropped_add_missed]
    change channel.next = returned.length + batch.events.length + stream.pending.length
      + messages.length + (stream.dropped + missed) + 0
    omega
  numbered := h.numbered
  given := h.given
  weighed := h.weighed
  sizes := h.sizes
  bytes := h.bytes
  bounded := h.bounded

/-- While a message is to be placed, the numbers have not come to their end. -/
theorem next_lt {message : MqttMessage}
    (h : Accounts localTime returned batch (message :: messages) missed channel stream) :
    stream.nextSeq + 1 < 2 ^ 64 := by
  obtain ⟨received, hsub, hdrop, -, -⟩ := h.given
  have hlength := congrArg List.length hdrop
  rw [List.length_drop, List.length_cons] at hlength
  have hpassed := (hsub.trans (List.take_sublist channel.next channel.sent)).length_le
  have hfew := h.few
  omega

/-- A message is given a number: it may join the events that are held, or be dropped. -/
theorem number {message : MqttMessage}
    (h : Accounts localTime returned batch (message :: messages) missed channel stream)
    {batch' : Batch} {stream' : ProviderEventStream}
    (hnumber : stream'.nextSeq = saturatingAdd stream.nextSeq 1)
    (hheld : (batch'.events ++ stream'.pending.map Prod.fst).Perm
          (⟨stream.nextSeq, message⟩ :: (batch.events ++ stream.pending.map Prod.fst)) ∧
        stream'.dropped = stream.dropped ∨
      (batch'.events ++ stream'.pending.map Prod.fst
          = batch.events ++ stream.pending.map Prod.fst) ∧
        stream'.dropped = saturatingAdd stream.dropped 1)
    (hweighed : batch'.Weighed localTime)
    (hsizes : ∀ entry ∈ stream'.pending, entry.2 = entry.1.size localTime)
    (hbytes : stream'.pendingBytes = (stream'.pending.map Prod.snd).sum)
    (hbounded : stream'.pendingBytes ≤ pendingMaxBytes) :
    Accounts localTime returned batch' messages missed channel stream' := by
  obtain ⟨received, hsub, hdrop, hle, hevents⟩ := h.given
  have hcount := h.count
  have hfirst : received[stream.nextSeq]? = some message := by
    have hget := @List.getElem?_drop _ received stream.nextSeq 0
    rw [hdrop, Nat.add_zero] at hget
    exact hget.symm
  have hlt : stream.nextSeq < received.length := (List.getElem?_eq_some_iff.mp hfirst).1
  -- neither counter is at its end, as both are about messages that were sent
  have hvalid : channel.next ≤ channel.sent.length := h.valid
  have hfew := h.few
  have hseq : stream'.nextSeq = stream.nextSeq + 1 := by
    rw [hnumber, saturatingAdd_of_lt h.next_lt]
  have hone : saturatingAdd stream.dropped 1 = stream.dropped + 1 := by
    rw [List.length_cons] at hcount
    exact saturatingAdd_of_lt (by omega)
  have hrest : received.drop (stream.nextSeq + 1) = messages := by
    rw [← List.drop_drop, hdrop]
    rfl
  have hold : ∀ event ∈ returned ++ batch.events ++ stream.pending.map Prod.fst,
      event.seq < stream.nextSeq + 1 ∧ received[event.seq]? = some event.message := by
    intro event hevent
    obtain ⟨hseq, hmessage⟩ := hevents event hevent
    exact ⟨Nat.lt_succ_of_lt hseq, hmessage⟩
  rw [hone] at hheld
  refine ⟨h.valid, h.few, ?_, ?_, ⟨received, hsub, by rw [hseq, hrest], by omega, ?_⟩, hweighed, hsizes,
    hbytes, hbounded⟩
  · obtain ⟨hperm, hdropped⟩ | ⟨hsame, hdropped⟩ := hheld
    · have hlength := hperm.length_eq
      simp only [List.length_append, List.length_map, List.length_cons] at hlength hcount
      omega
    · have hlength := congrArg List.length hsame
      simp only [List.length_append, List.length_map, List.length_cons] at hlength hcount
      omega
  · rw [List.append_assoc, List.map_append]
    have hnodup := h.numbered
    rw [List.append_assoc, List.map_append] at hnodup
    obtain ⟨hperm, -⟩ | ⟨hsame, -⟩ := hheld
    · -- the number is larger than those that were given before
      have hnew : stream.nextSeq ∉ returned.map LiveEvent.seq
          ++ (batch.events ++ stream.pending.map Prod.fst).map LiveEvent.seq := by
        rw [← List.map_append, ← List.append_assoc]
        intro hmem
        obtain ⟨event, hevent, hnumber⟩ := List.mem_map.mp hmem
        exact absurd hnumber (Nat.ne_of_lt (hevents event hevent).1)
      have hcons : (returned.map LiveEvent.seq
          ++ (batch'.events ++ stream'.pending.map Prod.fst).map LiveEvent.seq).Perm
          (stream.nextSeq :: (returned.map LiveEvent.seq
            ++ (batch.events ++ stream.pending.map Prod.fst).map LiveEvent.seq)) :=
        ((hperm.map LiveEvent.seq).append_left _).trans List.perm_middle
      exact hcons.nodup_iff.mpr (List.nodup_cons.mpr ⟨hnew, hnodup⟩)
    · rw [hsame]
      exact hnodup
  · intro event hevent
    rw [hseq]
    rw [List.append_assoc, List.mem_append] at hevent
    obtain hreturned | hheld' := hevent
    · exact hold event (List.mem_append_left _ (List.mem_append_left _ hreturned))
    obtain ⟨hperm, -⟩ | ⟨hsame, -⟩ := hheld
    · obtain rfl | hbefore := List.mem_cons.mp (hperm.mem_iff.mp hheld')
      · exact ⟨Nat.lt_succ_self _, hfirst⟩
      · refine hold event ?_
        rw [List.append_assoc]
        exact List.mem_append_right _ hbefore
    · rw [hsame] at hheld'
      refine hold event ?_
      rw [List.append_assoc]
      exact List.mem_append_right _ hheld'

/-- A message is placed. -/
theorem place {message : MqttMessage} {batch' : Batch} {stream' : ProviderEventStream}
    (h : Accounts localTime returned batch (message :: messages) missed channel stream)
    (hplace : placeMessage localTime stream batch message = (stream', batch')) :
    Accounts localTime returned batch' messages missed channel stream' := by
  obtain ⟨hfits, rfl, rfl⟩ | ⟨-, hroom, rfl, rfl⟩ | ⟨-, -, rfl, rfl⟩ := placeMessage_cases hplace
  · refine h.number rfl (.inl ⟨?_, rfl⟩) (h.weighed.push hfits) h.sizes h.bytes h.bounded
    rw [Batch.push, List.append_assoc]
    exact List.perm_middle
  · have hbytes := h.bytes
    have hexact : saturatingAdd stream.pendingBytes
        (LiveEvent.size localTime ⟨stream.nextSeq, message⟩)
        = stream.pendingBytes + LiveEvent.size localTime ⟨stream.nextSeq, message⟩ := by
      unfold saturatingAdd pendingMaxBytes at *
      omega
    refine h.number rfl (.inl ⟨?_, rfl⟩) h.weighed ?_ ?_ hroom
    · rw [List.map_append, ← List.append_assoc]
      exact List.perm_append_singleton _ _
    · intro entry hentry
      obtain hold | hnew := List.mem_append.mp hentry
      · exact h.sizes entry hold
      · rw [List.mem_singleton.mp hnew]
    · change saturatingAdd stream.pendingBytes _ = _
      rw [hexact, List.map_append, List.sum_append, hbytes]
      simp
  · exact h.number rfl (.inr ⟨rfl, rfl⟩) h.weighed h.sizes h.bytes h.bounded

end Accounts

/-! ### The books of a run -/

/-- The events of results. -/
def returnedEvents (results : List EventReadResult) : List LiveEvent :=
  results.flatMap EventReadResult.events

@[simp] theorem returnedEvents_concat (results : List EventReadResult) (result : EventReadResult) :
    returnedEvents (results ++ [result]) = returnedEvents results ++ result.events := by
  simp [returnedEvents]

section Documentation

variable {lib : Library MqttMessage} (docs : Documented channelCapacity lib)

/-- The accounts of a stream, with the read that is under way. -/
def State.Balanced (localTime : ℤ → String) (returned : List LiveEvent) (state : State lib) : Prop :=
  match state.phase with
  | .idle => Accounts localTime returned ⟨[], 0⟩ [] 0 (docs.view state.channel) state.stream
  | .draining _ batch _ messages missed =>
    Accounts localTime returned batch messages missed (docs.view state.channel) state.stream
  | .placing _ batch messages =>
    Accounts localTime returned batch messages 0 (docs.view state.channel) state.stream
  | .waiting => Accounts localTime returned ⟨[], 0⟩ [] 0 (docs.view state.channel) state.stream

/-- The results keep the limit of a batch. -/
def Limited (localTime : ℤ → String) (results : List EventReadResult) : Prop :=
  ∀ result ∈ results, 1 < result.events.length →
    eventBytes localTime result.events ≤ batchMaxBytes

/-- **The books** of a stream after some results: the accounts balance, the results are within their
limit, and between two reads the last result has reported all that was dropped. -/
structure Books (localTime : ℤ → String) (results : List EventReadResult) (state : State lib) :
    Prop where
  balanced : state.Balanced docs localTime (returnedEvents results)
  limited : Limited localTime results
  reported : state.phase = .idle → ∀ result, results.getLast? = some result →
    result.droppedCount = state.stream.dropped

variable {docs} {results : List EventReadResult} {state : State lib}

theorem Limited.concat (h : Limited localTime results) {result : EventReadResult}
    (hresult : 1 < result.events.length → eventBytes localTime result.events ≤ batchMaxBytes) :
    Limited localTime (results ++ [result]) := by
  intro result' hmem
  obtain hold | hnew := List.mem_append.mp hmem
  · exact h result' hold
  · exact (List.mem_singleton.mp hnew) ▸ hresult

namespace Books

/-- Nothing was returned, and a read is under way. -/
theorem onward (hlimited : Limited localTime results) {state' : State lib}
    (hbalanced : state'.Balanced docs localTime (returnedEvents results)) (hbusy : state'.phase ≠ .idle) :
    Books docs localTime (results ++ []) state' where
  balanced := by
    rw [List.append_nil]
    exact hbalanced
  limited := by
    rw [List.append_nil]
    exact hlimited
  reported hidle := absurd hidle hbusy

theorem answer (hlimited : Limited localTime results) {events : List LiveEvent} (used : ℕ)
    (haccounts : Accounts localTime (returnedEvents results) ⟨events, used⟩ [] 0
      (docs.view state.channel) state.stream) :
    Books docs localTime (results ++ (state.answer events).2) (state.answer events).1 where
  balanced := by
    change Accounts localTime (returnedEvents (results ++ [_])) ⟨[], 0⟩ [] 0
      (docs.view state.channel) state.stream
    rw [returnedEvents_concat]
    exact haccounts.answer
  limited := hlimited.concat haccounts.weighed.bounded
  reported _ result hlast := by
    change (results ++ [_]).getLast? = some result at hlast
    rw [List.getLast?_concat] at hlast
    exact Option.some.inj hlast ▸ rfl

theorem settle (hlimited : Limited localTime results) (waitMs : ℕ)
    (haccounts : Accounts localTime (returnedEvents results) batch [] 0 (docs.view state.channel) state.stream) :
    Books docs localTime (results ++ (state.settle waitMs batch).2) (state.settle waitMs batch).1 := by
  unfold State.settle
  split
  · next hempty =>
    refine onward hlimited ?_ (by simp)
    obtain ⟨events, used⟩ := batch
    obtain rfl : events = [] := hempty.1
    obtain rfl : used = 0 := haccounts.weighed.used
    exact haccounts
  · exact answer hlimited batch.used haccounts

theorem read (h : Books docs localTime results state) (hidle : state.phase = .idle) (maxEvents : ℕ)
    (waitMs : Option ℕ) :
    Books docs localTime (results ++ (state.read maxEvents waitMs).2) (state.read maxEvents waitMs).1 := by
  have hbalanced := h.balanced
  rw [State.Balanced, hidle] at hbalanced
  have htaken := hbalanced.takePending rfl
  unfold State.read
  dsimp only
  split
  · exact onward h.limited htaken (by simp)
  · exact settle h.limited _ htaken

theorem drain (h : Books docs localTime results state) {waitMs limit : ℕ}
    (hphase : state.phase = .draining waitMs batch limit messages missed) :
    Books docs localTime (results ++ []) (state.drain waitMs batch limit messages missed) := by
  have hbalanced := h.balanced
  rw [State.Balanced, hphase] at hbalanced
  dsimp only at hbalanced
  unfold State.drain
  dsimp only
  split
  · cases hrecv : lib.tryRecv state.channel with
    | mk channel received =>
      have hview := docs.of_tryRecv hrecv
      have hsent := docs.sent_of_tryRecv hrecv
      obtain ⟨hvalid, hcases⟩ := hbalanced.valid.tryRecv hview
      obtain ⟨message, rfl, hnext, hpassed⟩ | ⟨count, rfl, hnext, hpassed⟩ | ⟨hnone, hsame⟩ := hcases
      · exact onward h.limited (hbalanced.receive hvalid hsent hnext hpassed) (by simp)
      · exact onward h.limited (hbalanced.miss hvalid hsent hnext hpassed) (by simp)
      · -- the draining is over, and the missed messages are counted
        rw [← hsame] at hbalanced
        obtain rfl | rfl := hnone
        · exact onward h.limited hbalanced.tally (by simp)
        · exact onward h.limited hbalanced.tally (by simp)
  · exact onward h.limited hbalanced.tally (by simp)

theorem wake (h : Books docs localTime results state) (hphase : state.phase = .waiting) :
    Books docs localTime (results ++ state.wake.2) state.wake.1 := by
  have hbalanced := h.balanced
  rw [State.Balanced, hphase] at hbalanced
  dsimp only at hbalanced
  unfold State.wake
  cases hrecv : lib.tryRecv state.channel with
  | mk channel received =>
    have hview := docs.of_tryRecv hrecv
    have hsent := docs.sent_of_tryRecv hrecv
    obtain ⟨hvalid, hcases⟩ := hbalanced.valid.tryRecv hview
    obtain ⟨message, rfl, hnext, hpassed⟩ | ⟨count, rfl, hnext, hpassed⟩ | ⟨hnone, hsame⟩ := hcases
    · -- the message is a batch of its own, which it always fits
      have hfits : Batch.Fits ⟨[], 0⟩ (LiveEvent.size localTime ⟨state.stream.nextSeq, message⟩) :=
        .inl rfl
      refine answer h.limited
        (saturatingAdd 0 (LiveEvent.size localTime ⟨state.stream.nextSeq, message⟩)) ?_
      exact (hbalanced.receive hvalid hsent hnext hpassed).number rfl (.inl ⟨.refl _, rfl⟩)
        (Batch.weighed_empty.push hfits) hbalanced.sizes hbalanced.bytes hbalanced.bounded
    · have htally := (hbalanced.miss hvalid hsent hnext hpassed).tally
      rw [Nat.zero_add] at htally
      refine answer h.limited 0 ?_
      exact htally
    · rw [← hsame] at hbalanced
      obtain rfl | rfl := hnone
      · -- the read goes on waiting
        refine onward h.limited ?_ (by simp [hphase])
        unfold State.Balanced
        rw [hphase]
        exact hbalanced
      · refine answer h.limited 0 ?_
        exact hbalanced.transfer rfl rfl rfl hbalanced.weighed hbalanced.sizes hbalanced.bytes
          hbalanced.bounded

/-- What does not touch the stream or the read. -/
theorem channelOnly (h : Books docs localTime results state) {channel : lib.Channel}
    (hchannel : ∀ {returned batch messages missed},
      Accounts localTime returned batch messages missed (docs.view state.channel) state.stream →
        Accounts localTime returned batch messages missed (docs.view channel) state.stream) :
    Books docs localTime (results ++ []) { state with channel } where
  balanced := by
    have hbalanced := h.balanced
    rw [List.append_nil]
    unfold State.Balanced at hbalanced ⊢
    dsimp only
    split at hbalanced
    · exact hchannel hbalanced
    · exact hchannel hbalanced
    · exact hchannel hbalanced
    · exact hchannel hbalanced
  limited := by
    rw [List.append_nil]
    exact h.limited
  reported := by
    rw [List.append_nil]
    exact h.reported

theorem ignore (h : Books docs localTime results state) : Books docs localTime (results ++ []) state := by
  rw [List.append_nil]
  exact h

/-- **Every step keeps the books**, as long as no counter gets to its end. -/
theorem step (h : Books docs localTime results state) (event : Event)
    (hfew : (docs.view state.channel).sent.length + published [event] < 2 ^ 64) :
    Books docs localTime (results ++ (Mqtt.step localTime state event).2)
      (Mqtt.step localTime state event).1 := by
  cases event with
  | publish message =>
    change Books docs localTime (results ++ []) { state with channel := lib.send state.channel message }
    refine h.channelOnly fun haccounts => ?_
    rw [docs.send]
    exact haccounts.publish (((docs.view state.channel).length_send_le message).trans_lt hfew)
  | hangUp =>
    change Books docs localTime (results ++ []) { state with channel := lib.hangUp state.channel }
    refine h.channelOnly fun haccounts => ?_
    rw [docs.hangUp]
    exact haccounts.hangUp
  | read maxEvents waitMs =>
    unfold Mqtt.step
    dsimp only
    split
    · next hphase => exact h.read hphase maxEvents waitMs
    · exact h.ignore
  | drain =>
    unfold Mqtt.step
    dsimp only
    split
    · next waitMs batch limit messages missed hphase =>
      exact h.drain hphase
    · exact h.ignore
  | place =>
    have hbalanced := h.balanced
    unfold Mqtt.step
    dsimp only
    split
    · next hphase =>
      rw [State.Balanced, hphase] at hbalanced
      exact settle h.limited _ hbalanced
    · next hphase =>
      rw [State.Balanced, hphase] at hbalanced
      exact onward h.limited (hbalanced.place rfl) (by simp)
    · exact h.ignore
  | wake =>
    unfold Mqtt.step
    dsimp only
    split
    · next hphase => exact h.wake hphase
    · exact h.ignore
  | elapse =>
    have hbalanced := h.balanced
    unfold Mqtt.step
    dsimp only
    split
    · next hphase =>
      rw [State.Balanced, hphase] at hbalanced
      exact answer h.limited 0 hbalanced
    · exact h.ignore

end Books

/-- What is sent is published. -/
theorem length_sent_step (docs : Documented channelCapacity lib) (localTime : ℤ → String)
    (state : State lib) (event : Event) :
    (docs.view (step localTime state event).1.channel).sent.length
      ≤ (docs.view state.channel).sent.length + published [event] := by
  -- whoever asks for a message sends none
  have hasked : ∀ {channel received}, lib.tryRecv state.channel = (channel, received) →
      (docs.view channel).sent.length ≤ (docs.view state.channel).sent.length :=
    fun hrecv => (congrArg List.length (docs.sent_of_tryRecv hrecv)).le
  cases event with
  | publish message =>
    change (docs.view (lib.send state.channel message)).sent.length ≤ _
    rw [docs.send]
    exact (docs.view state.channel).length_send_le message
  | hangUp =>
    change (docs.view (lib.hangUp state.channel)).sent.length ≤ _
    rw [docs.hangUp]
    exact Nat.le_refl _
  | read maxEvents waitMs =>
    unfold step State.read State.settle State.answer
    dsimp only
    split
    · split
      · exact Nat.le_refl _
      · split <;> exact Nat.le_refl _
    · exact Nat.le_refl _
  | drain =>
    unfold step State.drain
    dsimp only
    split
    · split
      · split
        · next hrecv => exact hasked hrecv
        · next hrecv => exact hasked hrecv
        · next hrecv => exact hasked hrecv
        · next hrecv => exact hasked hrecv
      · exact Nat.le_refl _
    · exact Nat.le_refl _
  | place =>
    unfold step State.settle State.answer
    dsimp only
    split
    · split <;> exact Nat.le_refl _
    · exact Nat.le_refl _
    · exact Nat.le_refl _
  | wake =>
    unfold step State.wake State.answer
    dsimp only
    split
    · split
      · next hrecv => exact hasked hrecv
      · next hrecv => exact hasked hrecv
      · next hrecv => exact hasked hrecv
      · next hrecv => exact hasked hrecv
    · exact Nat.le_refl _
  | elapse =>
    unfold step State.answer
    dsimp only
    split <;> exact Nat.le_refl _

theorem published_concat (events : List Event) (event : Event) :
    published (events ++ [event]) = published events + published [event] := List.countP_append

/-- **The books hold along every run**, whatever is published between the steps of a read. The induction
also keeps that nothing is in the channel but what was published, so that the counters stay away from
their end. -/
theorem books_of_run (docs : Documented channelCapacity lib) (localTime : ℤ → String)
    {events : List Event} (hfew : published events < 2 ^ 64) :
    Books docs localTime (run (step localTime) (.opened lib) events).2
        (run (step localTime) (.opened lib) events).1 ∧
      (docs.view (run (step localTime) (.opened lib) events).1.channel).sent.length
        ≤ published events := by
  refine run_history (H := fun events results state => Books docs localTime results state ∧
      (docs.view state.channel).sent.length ≤ published events)
    (P := fun events => published events < 2 ^ 64) (fun events event hlt => ?_)
    (fun events results state event h hlt => ?_) ?_ hfew
  · rw [published_concat] at hlt
    exact (Nat.le_add_right _ _).trans_lt hlt
  · rw [published_concat] at hlt ⊢
    exact ⟨h.1.step event ((Nat.add_le_add_right h.2 _).trans_lt hlt),
      (length_sent_step docs localTime state event).trans (Nat.add_le_add_right h.2 _)⟩
  · have hopened : Accounts localTime [] ⟨[], 0⟩ [] 0 (docs.view lib.subscribe) .opened := by
      rw [docs.subscribe]
      exact Accounts.opened
    refine ⟨⟨hopened, fun result hresult => absurd hresult List.not_mem_nil,
      fun _ result hresult => absurd hresult (by simp)⟩, ?_⟩
    change (docs.view lib.subscribe).sent.length ≤ _
    rw [docs.subscribe]
    exact Nat.zero_le _

/-- The accounts of a stream, whichever read is under way. -/
theorem State.Balanced.accounts (h : state.Balanced docs localTime returned) :
    ∃ batch messages missed,
      Accounts localTime returned batch messages missed (docs.view state.channel) state.stream := by
  unfold State.Balanced at h
  split at h
  · exact ⟨_, _, _, h⟩
  · exact ⟨_, _, _, h⟩
  · exact ⟨_, _, _, h⟩
  · exact ⟨_, _, _, h⟩

/-- **No message gets lost unnoticed.** In every run in which fewer than `2 ^ 64` messages are published,
between two reads every message that was published since the stream was opened was returned, is in the
backlog, is counted as dropped (as the last read has reported), is unread in the channel, or was
overwritten there since the receiver last asked; if any were, the receiver is told of all of them as soon
as it asks. At any time no message was returned twice: the numbers of the events are distinct, and an
event has the message of its number among those that the receiver was given, which are some of the
published ones in their order. The bytes of the backlog are those of its events and within their limit,
as are those of every result with several events. -/
theorem no_silent_loss (docs : Documented channelCapacity lib) (localTime : ℤ → String)
    (events : List Event) (hfew : published events < 2 ^ 64) :
    let final := (run (step localTime) (.opened lib) events).1
    let results := (run (step localTime) (.opened lib) events).2
    let channel := docs.view final.channel
    (final.phase = .idle →
      channel.sent.length = (returnedEvents results).length + final.stream.pending.length
          + final.stream.dropped + channel.unread channelCapacity
          + channel.overwritten channelCapacity ∧
        (0 < channel.overwritten channelCapacity →
          (lib.tryRecv final.channel).2 = .lagged (channel.overwritten channelCapacity)) ∧
        ∀ result, results.getLast? = some result →
          result.droppedCount = final.stream.dropped) ∧
    ((returnedEvents results).map LiveEvent.seq).Nodup ∧
    (∃ received : List MqttMessage, received.Sublist channel.sent ∧
      ∀ event ∈ returnedEvents results, received[event.seq]? = some event.message) ∧
    final.stream.pendingBytes = eventBytes localTime (final.stream.pending.map Prod.fst) ∧
    final.stream.pendingBytes ≤ pendingMaxBytes ∧
    ∀ result ∈ results, 1 < result.events.length →
      eventBytes localTime result.events ≤ batchMaxBytes := by
  intro final results channel
  have hbooks : Books docs localTime results final := (books_of_run docs localTime hfew).1
  obtain ⟨batch, messages, missed, haccounts⟩ := hbooks.balanced.accounts
  refine ⟨fun hidle => ⟨?_, fun hover => ?_, hbooks.reported hidle⟩, ?_, ?_, ?_, haccounts.bounded,
    hbooks.limited⟩
  · have hbalanced := hbooks.balanced
    rw [State.Balanced, hidle] at hbalanced
    have hcount := hbalanced.count
    have hsent := hbalanced.valid.sent_eq channelCapacity
    simp only [List.length_nil] at hcount
    change (docs.view final.channel).sent.length = _ + (docs.view final.channel).unread channelCapacity
      + (docs.view final.channel).overwritten channelCapacity
    omega
  · have htold := congrArg Prod.snd (docs.tryRecv final.channel)
    exact htold.trans (Channel.tryRecv_of_overwritten hover)
  · have hnodup := haccounts.numbered
    rw [List.append_assoc, List.map_append] at hnodup
    exact hnodup.of_append_left
  · obtain ⟨received, hsub, -, -, hevents⟩ := haccounts.given
    refine ⟨received, hsub.trans (List.take_sublist _ _), fun event hevent => ?_⟩
    exact (hevents event (List.mem_append_left _ (List.mem_append_left _ hevent))).2
  · rw [haccounts.bytes, eventBytes, List.map_map]
    exact congrArg List.sum (List.map_congr_left fun entry hentry => haccounts.sizes entry hentry)

end Documentation

/-! ### Messages of a size -/

/-- A local time. -/
def noonClock : ℤ → String := fun _ => "2024-05-01 12:00:00"

/-- A message with a topic of quotation marks, each of which takes two bytes in an event. -/
def quotedMessage (length : ℕ) : MqttMessage where
  topic := String.ofList (List.replicate length '"')
  payload := ⟨#[]⟩
  qos := .atMostOnce
  retain := false
  receivedAt := 1714521600000

/-- The id and the topic of a message count for themselves. -/
theorem serializedLen_update (model : MiddlewareMessage) (messageId topic : String) :
    serializedLen { model with messageId := messageId, topic := topic }
        + (jsonStringLen model.messageId + jsonStringLen model.topic)
      = serializedLen model + (jsonStringLen messageId + jsonStringLen topic) := by
  simp only [serializedLen, jsonListLen, List.sum_cons, List.length_cons]
  omega

theorem size_quotedMessage (length : ℕ) {seq : ℕ} (hseq : seq < 10) :
    LiveEvent.size noonClock ⟨seq, quotedMessage length⟩ = length * 2 + 319 := by
  have hid : ∀ seq < 10, jsonStringLen ("mqtt-live-" ++ toString seq) = 13 := by decide
  have htopic : jsonStringLen (quotedMessage length).topic = 2 + length * 2 := by
    rw [jsonStringLen, quotedMessage, String.toList_ofList, List.map_replicate, List.sum_replicate]
    rfl
  have hempty : LiveEvent.size noonClock ⟨0, quotedMessage 0⟩ = 319 := by decide
  have hnone : jsonStringLen (quotedMessage 0).topic = 2 := by decide
  have hsize := serializedLen_update (LiveEvent.toModel noonClock ⟨0, quotedMessage 0⟩)
    ("mqtt-live-" ++ toString seq) (quotedMessage length).topic
  change LiveEvent.size noonClock ⟨seq, quotedMessage length⟩
      + (jsonStringLen ("mqtt-live-" ++ toString 0) + jsonStringLen (quotedMessage 0).topic)
    = LiveEvent.size noonClock ⟨0, quotedMessage 0⟩
      + (jsonStringLen ("mqtt-live-" ++ toString seq) + jsonStringLen (quotedMessage length).topic)
    at hsize
  rw [hempty, hid seq hseq, hid 0 (by decide), htopic, hnone] at hsize
  omega

theorem size_longMessage {seq : ℕ} (hseq : seq < 10) :
    LiveEvent.size noonClock ⟨seq, quotedMessage 65535⟩ = 131389 := size_quotedMessage 65535 hseq

/-! ### Reads of the channel that is documented -/

theorem opened_reference :
    State.opened (reference channelCapacity) = ⟨⟨[], 0, true⟩, .opened, .idle⟩ := rfl

theorem run_publish (localTime : ℤ → String) (stream : ProviderEventStream)
    (sent messages : List MqttMessage) (next : ℕ) (phase : Phase) :
    run (step localTime)
        (⟨⟨sent, next, true⟩, stream, phase⟩ : State (reference channelCapacity))
        (messages.map .publish)
      = (⟨⟨sent ++ messages, next, true⟩, stream, phase⟩, []) := by
  induction messages generalizing sent with
  | nil => rw [List.append_nil]; rfl
  | cons message messages ih =>
    rw [List.map_cons, run_cons]
    have hsent := ih (sent ++ [message])
    rw [List.append_assoc, List.singleton_append] at hsent
    exact congrArg (fun next => (next.1, [] ++ next.2)) hsent

/-- A receiver that is not behind gets the next message. -/
theorem step_drain (localTime : ℤ → String) (stream : ProviderEventStream)
    (before : List MqttMessage) (message : MqttMessage) (messages received : List MqttMessage)
    (waitMs limit missed : ℕ) (batch : Batch)
    (hfew : (before ++ message :: messages).length ≤ channelCapacity) (hmore : received.length < limit) :
    step localTime (⟨⟨before ++ message :: messages, before.length, true⟩, stream,
        .draining waitMs batch limit received missed⟩ : State (reference channelCapacity)) .drain
      = (⟨⟨before ++ [message] ++ messages, (before ++ [message]).length, true⟩, stream,
        .draining waitMs batch limit (received ++ [message]) missed⟩, []) := by
  have hold := Nat.sub_eq_zero_of_le hfew
  simp [step, State.drain, Channel.tryRecv, Channel.oldest, hmore] at hold ⊢
  simp [hold]

/-- It gets message after message, and then the draining is over. -/
theorem run_drain (localTime : ℤ → String) (stream : ProviderEventStream)
    (before messages received : List MqttMessage) (waitMs limit missed : ℕ) (batch : Batch) (hfew : (before ++ messages).length ≤ channelCapacity)
    (hlimit : received.length + messages.length ≤ limit) :
    run (step localTime)
        (⟨⟨before ++ messages, before.length, true⟩, stream,
          .draining waitMs batch limit received missed⟩ : State (reference channelCapacity))
        (List.replicate (messages.length + 1) .drain)
      = (⟨⟨before ++ messages, (before ++ messages).length, true⟩,
          { stream with dropped := saturatingAdd stream.dropped missed },
          .placing waitMs batch (received ++ messages)⟩, []) := by
  induction messages generalizing before received with
  | nil =>
    have hold := Nat.sub_eq_zero_of_le hfew
    simp only [List.append_nil, List.length_nil, List.replicate_succ, List.replicate_zero, run_cons,
      run_nil, step, State.drain, Channel.tryRecv, Channel.oldest] at hold ⊢
    simp [hold]
  | cons message messages ih =>
    have hmore : received.length < limit := by
      rw [List.length_cons] at hlimit
      omega
    have hnext := ih (before ++ [message]) (received ++ [message]) (by simpa using hfew)
      (by simp at hlimit ⊢; omega)
    rw [List.length_cons, List.replicate_succ, run_cons, step_drain localTime stream before message
      messages received waitMs limit missed batch hfew hmore, hnext]
    simp

/-! ### Messages that are in no count -/

section Overwritten

variable {long : MqttMessage}

/-- Five messages are published and read. -/
def waitingRun (long : MqttMessage) : List Event :=
  (List.replicate 5 long).map .publish
    ++ .read 8 none :: (List.replicate 6 .drain ++ List.replicate 6 .place)

/-- Three of the messages fill the batch, and the others have to wait. -/
theorem run_waitingRun (hlong : ∀ seq < 10, LiveEvent.size localTime ⟨seq, long⟩ = 131389) :
    run (step localTime) (.opened (reference channelCapacity)) (waitingRun long)
      = (⟨⟨List.replicate 5 long, 5, true⟩,
          ⟨0, 5, false, [(⟨3, long⟩, 131389), (⟨4, long⟩, 131389)], 131389 + 131389⟩, .idle⟩,
        [⟨[⟨0, long⟩, ⟨1, long⟩, ⟨2, long⟩], false, 0⟩]) := by
  have hpublish := run_publish localTime .opened [] (List.replicate 5 long) 0 .idle
  have hread : step localTime (⟨⟨List.replicate 5 long, 0, true⟩, .opened, .idle⟩
        : State (reference channelCapacity)) (.read 8 none)
      = (⟨⟨List.replicate 5 long, 0, true⟩, .opened, .draining 0 ⟨[], 0⟩ 8 [] 0⟩, []) := rfl
  have hdrain := run_drain localTime .opened [] (List.replicate 5 long) [] 0 8 0
    ⟨[], 0⟩ (by simp [channelCapacity]) (by simp)
  -- three of them make 394167 bytes, and there is no room for a fourth one
  have hplace : run (step localTime) (⟨⟨List.replicate 5 long, 5, true⟩, .opened,
        .placing 0 ⟨[], 0⟩ (List.replicate 5 long)⟩ : State (reference channelCapacity))
        (List.replicate 6 .place)
      = (⟨⟨List.replicate 5 long, 5, true⟩,
          ⟨0, 5, false, [(⟨3, long⟩, 131389), (⟨4, long⟩, 131389)], 131389 + 131389⟩, .idle⟩,
        [⟨[⟨0, long⟩, ⟨1, long⟩, ⟨2, long⟩], false, 0⟩]) := by
    simp [List.replicate_succ, run_cons, step, placeMessage, ProviderEventStream.eventFor, Batch.Fits,
      Batch.push, saturatingAdd, batchMaxBytes, pendingMaxBytes, hlong, State.settle, State.answer,
      ProviderEventStream.opened]
  rw [waitingRun, run_append, opened_reference, hpublish, run_cons, List.nil_append, hread, run_append]
  have hnone : saturatingAdd ProviderEventStream.opened.dropped 0 = ProviderEventStream.opened.dropped :=
    saturatingAdd_of_lt (by decide)
  rw [hnone] at hdrain
  simp only [List.nil_append, List.length_nil, List.length_replicate] at hdrain
  rw [hdrain, hplace]
  simp only [List.nil_append]

/-- A read that takes two events of the backlog has no room for more. -/
theorem read_two (localTime : ℤ → String) (channel : (reference channelCapacity).Channel)
    (first second : LiveEvent) (size : ℕ)
    (hfits : saturatingAdd (saturatingAdd 0 size) size ≤ batchMaxBytes) (dropped nextSeq : ℕ) :
    step localTime (⟨channel, ⟨dropped, nextSeq, false, [(first, size), (second, size)], size + size⟩,
        .idle⟩ : State (reference channelCapacity)) (.read 2 none)
      = (⟨channel, ⟨dropped, nextSeq, false, [], 0⟩, .idle⟩, [⟨[first, second], false, dropped⟩]) := by
  simp [step, State.read, takePending, Batch.Fits, Batch.push, hfits, State.settle, State.answer]

/-- While the two messages wait, others are published, and then they are read. -/
def overwrittenRun (long : MqttMessage) (later : List MqttMessage) : List Event :=
  waitingRun long ++ (later.map .publish ++ [.read 2 none])

/-- The backlog fills the read, so that the channel is not asked. -/
theorem run_overwrittenRun (hlong : ∀ seq < 10, LiveEvent.size localTime ⟨seq, long⟩ = 131389)
    (later : List MqttMessage) :
    run (step localTime) (.opened (reference channelCapacity)) (overwrittenRun long later)
      = (⟨⟨List.replicate 5 long ++ later, 5, true⟩, ⟨0, 5, false, [], 0⟩, .idle⟩,
        [⟨[⟨0, long⟩, ⟨1, long⟩, ⟨2, long⟩], false, 0⟩, ⟨[⟨3, long⟩, ⟨4, long⟩], false, 0⟩]) := by
  have hread := read_two localTime ⟨List.replicate 5 long ++ later, 5, true⟩ ⟨3, long⟩
    ⟨4, long⟩ 131389 (by decide) 0 5
  rw [overwrittenRun, run_append, run_waitingRun hlong, run_append, run_publish, run_cons, hread]
  rfl

theorem published_overwrittenRun (later : List MqttMessage) :
    published (overwrittenRun long later) = 5 + later.length := by
  have hlater : (later.map Event.publish).countP Event.isPublish = later.length := by
    rw [List.countP_map]
    exact List.countP_eq_length.2 fun _ _ => rfl
  have hfirst : (waitingRun long).countP Event.isPublish = 5 := rfl
  rw [published, overwrittenRun, List.countP_append, List.countP_append, hfirst, hlater]
  rfl

/-- **Of 1030 messages, five were returned and 1024 can still be received**: one was overwritten, and no
read has reported it. -/
theorem overwritten_in_no_count :
    let final := (run (step noonClock) (.opened (reference channelCapacity))
      (overwrittenRun (quotedMessage 65535) (List.replicate 1025 (quotedMessage 1)))).1
    let results := (run (step noonClock) (.opened (reference channelCapacity))
      (overwrittenRun (quotedMessage 65535) (List.replicate 1025 (quotedMessage 1)))).2
    final.phase = .idle ∧
      final.channel.sent.length ≠ (returnedEvents results).length + final.stream.pending.length
        + final.stream.dropped + final.channel.unread channelCapacity := by
  have hlater := @List.length_replicate _ 1025 (quotedMessage 1)
  rw [run_overwrittenRun fun _ => size_longMessage]
  refine ⟨rfl, ?_⟩
  unfold Channel.unread Channel.oldest
  rw [List.length_append, hlater]
  simp [returnedEvents, channelCapacity]

/-- The receiver is told of that message as soon as it asks. -/
theorem no_silent_loss_overwritten :
    ((run (step noonClock) (.opened (reference channelCapacity)) (overwrittenRun (quotedMessage 65535)
      (List.replicate 1025 (quotedMessage 1)))).1.channel.tryRecv channelCapacity).2 = .lagged 1 := by
  have hlater := @List.length_replicate _ 1025 (quotedMessage 1)
  generalize List.replicate 1025 (quotedMessage 1) = later at hlater ⊢
  have hfew : published (overwrittenRun (quotedMessage 65535) later) < 2 ^ 64 := by
    rw [published_overwrittenRun, hlater]
    decide
  obtain ⟨hidle, -⟩ := no_silent_loss (documentedReference channelCapacity) noonClock _ hfew
  rw [run_overwrittenRun fun _ => size_longMessage] at hidle ⊢
  obtain ⟨-, htold, -⟩ := hidle rfl
  have hone : (⟨List.replicate 5 (quotedMessage 65535) ++ later, 5, true⟩
      : Channel MqttMessage).overwritten channelCapacity = 1 := by
    unfold Channel.overwritten Channel.oldest
    rw [List.length_append, hlater]
    rfl
  have htold' := htold (Nat.lt_of_lt_of_eq Nat.one_pos hone.symm)
  exact htold'.trans (congrArg Received.lagged hone)

end Overwritten

end Mqtt
end Navop
