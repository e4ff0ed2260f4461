import NavopExtensions.Mqtt.EventStream.Books

/-!
# The reader's limit

A read takes the backlog up to a number of bytes, and only the channel up to a number of events. So a
backlog of many small events, left by a larger read, is returned at once whatever the limit is: the
limit is respected if and only if the backlog is short, or its events are too large
(`read_respects_limit_iff`). What `effective_max_events` can give is left open; a limit of zero events is
also passed when a message ends the wait.
-/

namespace Navop
namespace Mqtt

open Broadcast Machine Saturating

/-- Taking the backlog gives no more than a number of events: there are no more of them, or the bytes of
one more do not fit. -/
def LimitedBacklog (pending : List (LiveEvent × ℕ)) (maxEvents : ℕ) : Prop :=
  pending.length ≤ maxEvents ∨
    0 < maxEvents ∧ batchMaxBytes < ((pending.take (maxEvents + 1)).map Prod.snd).sum

variable {lib : Library MqttMessage}

/-- A message ends the wait of a read. -/
def Wakes (state : State lib) (event : Event) : Prop :=
  event = .wake ∧ state.phase = .waiting ∧
    ∃ channel message, lib.tryRecv state.channel = (channel, .message message)

/-- What may happen during a read with a limit. -/
def During (maxEvents : ℕ) (state : State lib) (event : Event) : Prop :=
  (∀ maxEvents waitMs, event ≠ .read maxEvents waitMs) ∧ (maxEvents = 0 → ¬ Wakes state event)

variable {localTime : ℤ → String} {maxEvents : ℕ}

theorem saturatingAdd_le_batchMaxBytes {used size : ℕ} :
    saturatingAdd used size ≤ batchMaxBytes ↔ used + size ≤ batchMaxBytes :=
  saturatingAdd_le_iff (by decide)

theorem length_le_takePending (pending : List (LiveEvent × ℕ)) (pendingBytes : ℕ) (batch : Batch) :
    batch.events.length ≤ (takePending pending pendingBytes batch).1.events.length := by
  induction pending generalizing pendingBytes batch with
  | nil => exact le_rfl
  | cons entry pending ih =>
    rw [takePending]
    split
    · refine le_trans ?_ (ih _ _)
      change _ ≤ (batch.events ++ [entry.1]).length
      rw [List.length_append]
      exact Nat.le_add_right _ _
    · exact le_rfl

/-- How many events the backlog adds to a batch that has some. -/
theorem length_takePending_le_iff (pending : List (LiveEvent × ℕ)) (pendingBytes : ℕ) {batch : Batch}
    (hsome : batch.events ≠ []) (hlength : batch.events.length ≤ maxEvents) :
    (takePending pending pendingBytes batch).1.events.length ≤ maxEvents
      ↔ batch.events.length + pending.length ≤ maxEvents ∨
        batchMaxBytes < batch.used
          + ((pending.take (maxEvents + 1 - batch.events.length)).map Prod.snd).sum := by
  induction pending generalizing pendingBytes batch with
  | nil => exact iff_of_true hlength (.inl hlength)
  | cons entry pending ih =>
    obtain ⟨event, size⟩ := entry
    have hsum : (((event, size) :: pending).take (maxEvents + 1 - batch.events.length)).map Prod.snd
        = size :: (pending.take (maxEvents - batch.events.length)).map Prod.snd := by
      rw [Nat.succ_sub hlength]
      rfl
    rw [hsum, List.sum_cons, takePending]
    split
    · next hfits =>
      have hroom : batch.used + size ≤ batchMaxBytes :=
        saturatingAdd_le_batchMaxBytes.mp (hfits.resolve_left hsome)
      have hpushed : (batch.push event size).events.length = batch.events.length + 1 :=
        List.length_append
      have hused : (batch.push event size).used = batch.used + size := by
        change saturatingAdd batch.used size = _
        unfold saturatingAdd
        unfold batchMaxBytes at hroom
        omega
      by_cases hnext : batch.events.length + 1 ≤ maxEvents
      · rw [ih (pendingBytes - size) (List.append_ne_nil_of_right_ne_nil _ (List.cons_ne_nil _ _))
          (hpushed ▸ hnext), hpushed, hused, Nat.succ_sub_succ, List.length_cons, Nat.add_assoc,
          Nat.add_comm 1, Nat.add_assoc]
      · -- the batch was full, and got one more
        have hmore : batch.events.length + 1
            ≤ (takePending pending (pendingBytes - size) (batch.push event size)).1.events.length := by
          rw [← hpushed]
          exact length_le_takePending pending _ _
        have hfull : maxEvents - batch.events.length = 0 := by omega
        rw [hfull, List.take_zero, List.map_nil, List.sum_nil, Nat.add_zero, List.length_cons]
        omega
    · next hfull =>
      have hover : batchMaxBytes < batch.used + size := by
        by_contra hle
        exact hfull (.inr (saturatingAdd_le_batchMaxBytes.mpr (not_lt.mp hle)))
      exact iff_of_true hlength (.inr (by omega))

/-- How many events of the backlog are taken. -/
theorem takePending_limited_iff (pending : List (LiveEvent × ℕ)) (pendingBytes : ℕ) :
    (takePending pending pendingBytes ⟨[], 0⟩).1.events.length ≤ maxEvents
      ↔ LimitedBacklog pending maxEvents := by
  cases pending with
  | nil => exact iff_of_true (Nat.zero_le _) (.inl (Nat.zero_le _))
  | cons entry pending =>
    obtain ⟨event, size⟩ := entry
    -- the first event always goes into the batch
    have hfirst : takePending ((event, size) :: pending) pendingBytes ⟨[], 0⟩
        = takePending pending (pendingBytes - size) ⟨[event], saturatingAdd 0 size⟩ := by
      have hfits : (⟨[], 0⟩ : Batch).Fits size := .inl rfl
      rw [takePending, if_pos hfits]
      rfl
    rw [hfirst]
    unfold LimitedBacklog
    by_cases hzero : maxEvents = 0
    · subst hzero
      refine iff_of_false (fun hle => ?_) ?_
      · have hmore := length_le_takePending pending (pendingBytes - size)
          ⟨[event], saturatingAdd 0 size⟩
        exact absurd (hmore.trans hle) (Nat.not_succ_le_zero 0)
      · rintro (hle | ⟨hpos, -⟩)
        · exact absurd hle (Nat.not_succ_le_zero _)
        · exact absurd hpos (Nat.lt_irrefl 0)
    · have hpos : 0 < maxEvents := Nat.pos_of_ne_zero hzero
      rw [@length_takePending_le_iff maxEvents pending (pendingBytes - size)
        ⟨[event], saturatingAdd 0 size⟩ (List.cons_ne_nil _ _) hpos]
      rw [List.take_succ_cons, List.map_cons, List.sum_cons, and_iff_right hpos, List.length_cons,
        List.length_cons, List.length_nil, Nat.zero_add, Nat.add_sub_cancel, Nat.add_comm 1]
      refine or_congr Iff.rfl ?_
      generalize ((pending.take maxEvents).map Prod.snd).sum = rest
      unfold saturatingAdd batchMaxBytes
      dsimp only
      omega

/-- The events that a read has, and those it may still get, are within its limit. -/
def State.Within (maxEvents : ℕ) (state : State lib) : Prop :=
  match state.phase with
  | .idle => True
  | .draining _ batch limit messages _ =>
    batch.events.length + limit ≤ maxEvents ∧ messages.length ≤ limit
  | .placing _ batch messages => batch.events.length + messages.length ≤ maxEvents
  | .waiting => True

theorem within_settle {state : State lib} {waitMs : ℕ} {batch : Batch}
    (hbatch : batch.events.length ≤ maxEvents) :
    State.Within maxEvents (state.settle waitMs batch).1 ∧
      ∀ result ∈ (state.settle waitMs batch).2, result.events.length ≤ maxEvents := by
  unfold State.settle
  split
  · exact ⟨trivial, fun result hresult => absurd hresult List.not_mem_nil⟩
  · refine ⟨trivial, fun result hresult => ?_⟩
    rw [List.mem_singleton.mp hresult]
    exact hbatch

theorem within_drain {state : State lib} {waitMs : ℕ} {batch : Batch} {limit : ℕ}
    {messages : List MqttMessage} {missed : ℕ}
    (hlimit : batch.events.length + limit ≤ maxEvents) (hmessages : messages.length ≤ limit) :
    State.Within maxEvents (state.drain waitMs batch limit messages missed) := by
  have hdone : batch.events.length + messages.length ≤ maxEvents :=
    (Nat.add_le_add_left hmessages _).trans hlimit
  unfold State.drain
  dsimp only
  split
  · next hmore =>
    split
    · refine ⟨hlimit, ?_⟩
      rw [List.length_append]
      exact hmore
    · exact ⟨hlimit, hmessages⟩
    · exact hdone
    · exact hdone
  · exact hdone

theorem length_placeMessage {stream stream' : ProviderEventStream} {batch batch' : Batch}
    {message : MqttMessage}
    (hplace : placeMessage localTime stream batch message = (stream', batch')) :
    batch'.events.length ≤ batch.events.length + 1 := by
  obtain ⟨-, -, rfl⟩ | ⟨-, -, -, rfl⟩ | ⟨-, -, -, rfl⟩ := placeMessage_cases hplace
  · exact List.length_append.le
  · exact Nat.le_succ _
  · exact Nat.le_succ _

/-- What happens during a read keeps it within its limit. -/
theorem within_step {state : State lib} {event : Event} (hwithin : state.Within maxEvents)
    (hduring : During maxEvents state event) :
    (step localTime state event).1.Within maxEvents ∧
      ∀ result ∈ (step localTime state event).2, result.events.length ≤ maxEvents := by
  have hnone : ∀ result ∈ ([] : List EventReadResult), result.events.length ≤ maxEvents :=
    fun result hresult => absurd hresult List.not_mem_nil
  have hone : ∀ answered : EventReadResult, answered.events.length ≤ maxEvents →
      ∀ result ∈ [answered], result.events.length ≤ maxEvents := by
    intro answered hanswered result hresult
    rwa [List.mem_singleton.mp hresult]
  cases event with
  | publish message => exact ⟨hwithin, hnone⟩
  | hangUp => exact ⟨hwithin, hnone⟩
  | read maxEvents waitMs => exact absurd rfl (hduring.1 maxEvents waitMs)
  | drain =>
    unfold step
    dsimp only
    split
    · next hphase =>
      unfold State.Within at hwithin
      rw [hphase] at hwithin
      exact ⟨within_drain hwithin.1 hwithin.2, hnone⟩
    · exact ⟨hwithin, hnone⟩
  | place =>
    unfold step
    dsimp only
    split
    · next hphase =>
      unfold State.Within at hwithin
      rw [hphase] at hwithin
      exact within_settle hwithin
    · next waitMs batch message messages hphase =>
      unfold State.Within at hwithin
      rw [hphase] at hwithin
      cases hplace : placeMessage localTime state.stream batch message with
      | mk stream' batch' =>
        have hlength := length_placeMessage hplace
        refine ⟨?_, hnone⟩
        change batch'.events.length + messages.length ≤ maxEvents
        change batch.events.length + (messages.length + 1) ≤ maxEvents at hwithin
        omega
    · exact ⟨hwithin, hnone⟩
  | wake =>
    unfold step
    dsimp only
    split
    · next hphase =>
      unfold State.wake
      cases hrecv : lib.tryRecv state.channel with
      | mk channel received =>
        cases received with
        | message message =>
          have hpos : 1 ≤ maxEvents := by
            refine Nat.pos_of_ne_zero fun hzero => hduring.2 hzero ?_
            exact ⟨rfl, hphase, channel, message, hrecv⟩
          exact ⟨trivial, hone _ hpos⟩
        | lagged count => exact ⟨trivial, hone _ (Nat.zero_le _)⟩
        | empty => exact ⟨hwithin, hnone⟩
        | closed => exact ⟨trivial, hone _ (Nat.zero_le _)⟩
    · exact ⟨hwithin, hnone⟩
  | elapse =>
    unfold step
    dsimp only
    split
    · exact ⟨trivial, hone _ (Nat.zero_le _)⟩
    · exact ⟨hwithin, hnone⟩

/-- A read starts within its limit, if the backlog does. -/
theorem within_read {state : State lib} {waitMs : Option ℕ}
    (hbacklog : LimitedBacklog state.stream.pending maxEvents) :
    (state.read maxEvents waitMs).1.Within maxEvents ∧
      ∀ result ∈ (state.read maxEvents waitMs).2, result.events.length ≤ maxEvents := by
  have htaken := (takePending_limited_iff state.stream.pending state.stream.pendingBytes).mpr hbacklog
  unfold State.read
  dsimp only
  split
  · refine ⟨⟨?_, Nat.zero_le _⟩, fun result hresult => absurd hresult List.not_mem_nil⟩
    exact (Nat.add_sub_cancel' htaken).le
  · exact within_settle htaken

/-- A read that takes too much of the backlog returns it. -/
theorem read_beyond {state : State lib} {waitMs : Option ℕ}
    (hbacklog : ¬ LimitedBacklog state.stream.pending maxEvents) :
    ∃ result ∈ (state.read maxEvents waitMs).2, maxEvents < result.events.length := by
  have htaken : maxEvents < (takePending state.stream.pending state.stream.pendingBytes
      ⟨[], 0⟩).1.events.length := by
    rw [← not_le, takePending_limited_iff]
    exact hbacklog
  unfold State.read State.settle
  dsimp only
  rw [if_neg (not_lt.mpr htaken.le), if_neg]
  · exact ⟨_, List.mem_singleton_self _, htaken⟩
  · rintro ⟨hempty, -⟩
    rw [hempty] at htaken
    exact absurd htaken (Nat.not_lt_zero _)

/-- A message that ends the wait is returned. -/
theorem wake_message {state : State lib} {channel : lib.Channel} {message : MqttMessage}
    (hphase : state.phase = .waiting)
    (hrecv : lib.tryRecv state.channel = (channel, .message message)) :
    ∃ result ∈ (step localTime state .wake).2, result.events.length = 1 := by
  unfold step
  dsimp only
  rw [hphase]
  unfold State.wake
  rw [hrecv]
  exact ⟨_, List.mem_singleton_self _, rfl⟩

/-- **A read returns at most as many events as its limit** if and only if the backlog leads to no more,
and, for a limit of zero, no message ends the wait. -/
theorem read_respects_limit_iff (localTime : ℤ → String) (maxEvents : ℕ) (waitMs : Option ℕ)
    (state : State lib) (hidle : state.phase = .idle) (later : List Event)
    (hlater : ∀ event ∈ later, ∀ maxEvents waitMs, event ≠ .read maxEvents waitMs) :
    (∀ result ∈ (run (step localTime) state (.read maxEvents waitMs :: later)).2,
        result.events.length ≤ maxEvents)
      ↔ LimitedBacklog state.stream.pending maxEvents ∧
        Guarded (step localTime) (fun state event => maxEvents = 0 → ¬ Wakes state event)
          (step localTime state (.read maxEvents waitMs)).1 later := by
  have hread : step localTime state (.read maxEvents waitMs) = state.read maxEvents waitMs := by
    unfold step
    rw [hidle]
  rw [run_cons, hread]
  constructor
  · intro hall
    constructor
    · by_contra hbacklog
      obtain ⟨result, hresult, hlt⟩ := @read_beyond lib maxEvents state waitMs hbacklog
      exact absurd (hall result (List.mem_append_left _ hresult)) (not_le.mpr hlt)
    · intro before event after hsplit hzero hwakes
      obtain ⟨rfl, hphase, channel, message, hrecv⟩ := hwakes
      obtain ⟨result, hresult, hone⟩ := @wake_message lib localTime _ channel message hphase hrecv
      have hmem : result ∈ (run (step localTime) (state.read maxEvents waitMs).1 later).2 := by
        rw [hsplit, run_append, run_cons]
        exact List.mem_append_right _ (List.mem_append_left _ hresult)
      have hle := hall result (List.mem_append_right _ hmem)
      rw [hone, hzero] at hle
      exact absurd hle (by decide)
  · rintro ⟨hbacklog, hguarded⟩
    obtain ⟨hwithin, hfirst⟩ := @within_read lib maxEvents state waitMs hbacklog
    have hduring : Guarded (step localTime) (During maxEvents) (state.read maxEvents waitMs).1
        later := by
      intro before event after hsplit
      refine ⟨hlater event ?_, hguarded before event after hsplit⟩
      rw [hsplit]
      exact List.mem_append_right _ List.mem_cons_self
    have hrun := run_guarded (H := fun _ results state => state.Within maxEvents ∧
        ∀ result ∈ results, result.events.length ≤ maxEvents)
      (fun _ results state event hstate hevent => by
        obtain ⟨hnext, hresults⟩ := @within_step lib localTime maxEvents state event hstate.1 hevent
        refine ⟨hnext, fun result hresult => ?_⟩
        rcases List.mem_append.mp hresult with hold | hnew
        · exact hstate.2 result hold
        · exact hresults result hnew)
      ⟨hwithin, fun result hresult => absurd hresult List.not_mem_nil⟩ hduring
    intro result hresult
    rcases List.mem_append.mp hresult with hold | hnew
    · exact hfirst result hold
    · exact hrun.2 result hnew

/-! ### A backlog of two events -/

/-- The stream after five long messages were published and three of them returned. -/
def waitingState (long : MqttMessage) : State (reference channelCapacity) :=
  (run (step noonClock) (.opened (reference channelCapacity)) (waitingRun long)).1

section Waiting

variable {long : MqttMessage} (hlong : ∀ seq < 10, LiveEvent.size noonClock ⟨seq, long⟩ = 131389)

include hlong

theorem waitingState_eq : waitingState long
    = ⟨⟨List.replicate 5 long, 5, true⟩,
        ⟨0, 5, false, [(⟨3, long⟩, 131389), (⟨4, long⟩, 131389)], 131389 + 131389⟩, .idle⟩ :=
  congrArg Prod.fst (run_waitingRun hlong)

theorem idle_waitingState : (waitingState long).phase = .idle := by rw [waitingState_eq hlong]

theorem limitedBacklog_waitingState : LimitedBacklog (waitingState long).stream.pending 2 := by
  rw [waitingState_eq hlong]
  exact .inl (Nat.le_refl 2)

theorem read_waitingState : (run (step noonClock) (waitingState long) [.read 2 none]).2
    = [⟨[⟨3, long⟩, ⟨4, long⟩], false, 0⟩] := by
  rw [waitingState_eq hlong, run_cons, read_two noonClock _ _ _ 131389 (by decide) 0 5]
  rfl

/-- A limit of one event does not stop the backlog. -/
theorem read_waitingState_beyond : ∃ result ∈ (run (step noonClock) (waitingState long)
    [.read 1 none]).2, 1 < result.events.length := by
  have hbacklog : ¬ LimitedBacklog (waitingState long).stream.pending 1 := by
    rw [waitingState_eq hlong]
    rintro (hlength | ⟨-, hbytes⟩)
    · exact absurd hlength (by decide : ¬ 2 ≤ 1)
    · exact absurd hbytes (by decide : ¬ batchMaxBytes < [131389, 131389].sum)
  obtain ⟨result, hresult, hlt⟩ := @read_beyond _ 1 (waitingState long) none hbacklog
  refine ⟨result, List.mem_append_left _ ?_, hlt⟩
  have hstep : step noonClock (waitingState long) (.read 1 none)
      = (waitingState long).read 1 none := by
    rw [waitingState_eq hlong]
    rfl
  rw [hstep]
  exact hresult

end Waiting

/-- A read with a limit of two events returns the two that wait. -/
theorem read_respects_limit_iff_waiting :
    (run (step noonClock) (waitingState (quotedMessage 65535)) [.read 2 none]).2
        = [⟨[⟨3, quotedMessage 65535⟩, ⟨4, quotedMessage 65535⟩], false, 0⟩] ∧
      ∀ result ∈ (run (step noonClock) (waitingState (quotedMessage 65535)) [.read 2 none]).2,
        result.events.length ≤ 2 :=
  ⟨read_waitingState fun _ => size_longMessage,
    (read_respects_limit_iff noonClock 2 none _ (idle_waitingState fun _ => size_longMessage) []
      fun _ hevent => absurd hevent List.not_mem_nil).2
        ⟨limitedBacklog_waitingState fun _ => size_longMessage, guarded_nil⟩⟩

/-- With a limit of one event, the read returns both all the same. -/
theorem small_backlog_passes_limit :
    ∃ result ∈ (run (step noonClock) (waitingState (quotedMessage 65535)) [.read 1 none]).2,
      1 < result.events.length :=
  read_waitingState_beyond fun _ => size_longMessage

end Mqtt
end Navop
