import NavopExtensions.Mqtt.EventStream.Books

/-!
# Messages in their order

A message that does not fit into the batch waits in the backlog, and the read goes on with the messages
after it: a smaller one may still fit, and is returned first. The events of a stream are in their order
in every run in which that does not happen (`returned_in_order`).

Whether it happens is a matter of sizes. What a read has to place are the events that it finds in the
backlog and the messages that it takes from the channel. Those before some event fill the batch so far
that there is no room for it, but there is room for a message behind it (`Overtakes`). For the condition a
run is watched from outside (`observe`): when a read begins, the sizes in the backlog are noted, and what
the receiver is given until the channel is drained is added to them.

Inside a read, the events are placed one by one. As long as the batch has taken all of them, nothing
waits; from the first one on that does not fit, the batch stays as it is, unless a message overtakes
(`Filled`). So the numbers that were returned, those in the batch and those in the backlog are in their
order, one after another (`Lined`).
-/

namespace Navop
namespace Mqtt

open Broadcast Machine Saturating

variable {localTime : ℤ → String} {returned : List LiveEvent} {batch : Batch}
  {stream : ProviderEventStream} {results : List EventReadResult} {lib : Library MqttMessage}

/-! ### Sizes of what a read finds -/

/-- The sizes of messages that get the numbers from one on. -/
def sizesFrom (localTime : ℤ → String) : ℕ → List MqttMessage → List ℕ
  | _, [] => []
  | seq, message :: messages =>
    LiveEvent.size localTime ⟨seq, message⟩ :: sizesFrom localTime (seq + 1) messages

/-- What there may be a place for. The first event goes into the batch in any case; behind it, a message
that is larger than a backlog may be is dropped. -/
def placeable : List ℕ → List ℕ
  | [] => []
  | size :: sizes => size :: sizes.filter (· ≤ pendingMaxBytes)

/-- **A message overtakes**: an event has to wait, because it does not fit into the batch behind what comes
before it, and a message behind it does. The events of the backlog are not tried any more. -/
def Overtakes (backlog fresh : List ℕ) : Prop :=
  ∃ before waiting between short after,
    placeable (backlog ++ fresh) = before ++ waiting :: between ++ short :: after ∧
      before ≠ [] ∧ backlog.length ≤ (before ++ waiting :: between).length ∧
      batchMaxBytes < before.sum + waiting ∧ before.sum + short ≤ batchMaxBytes

theorem sizesFrom_append (localTime : ℤ → String) (seq : ℕ) (messages messages' : List MqttMessage) :
    sizesFrom localTime seq (messages ++ messages')
      = sizesFrom localTime seq messages ++ sizesFrom localTime (seq + messages.length) messages' := by
  induction messages generalizing seq with
  | nil => rfl
  | cons message messages ih =>
    rw [List.cons_append, sizesFrom, ih, sizesFrom, List.cons_append, List.length_cons,
      Nat.add_right_comm, Nat.add_assoc]

theorem placeable_append {sizes : List ℕ} (hsizes : sizes ≠ []) (sizes' : List ℕ) :
    placeable (sizes ++ sizes') = placeable sizes ++ sizes'.filter (· ≤ pendingMaxBytes) := by
  cases sizes with
  | nil => exact absurd rfl hsizes
  | cons size sizes =>
    change size :: (sizes ++ sizes').filter _ = _
    rw [List.filter_append]
    rfl

theorem placeable_eq_self {sizes : List ℕ} (h : ∀ size ∈ sizes, size ≤ pendingMaxBytes) :
    placeable sizes = sizes := by
  cases sizes with
  | nil => rfl
  | cons size sizes =>
    refine congrArg (size :: ·) (List.filter_eq_self.2 fun other hother => ?_)
    exact decide_eq_true (h other (List.mem_cons_of_mem _ hother))

theorem placeable_eq_nil_iff {sizes : List ℕ} : placeable sizes = [] ↔ sizes = [] := by
  cases sizes with
  | nil => exact Iff.rfl
  | cons size sizes => exact iff_of_false (List.cons_ne_nil _ _) (List.cons_ne_nil _ _)

/-- What there is a place for stays so when more follows. -/
theorem placeable_grows (sizes sizes' : List ℕ) : placeable sizes <+: placeable (sizes ++ sizes') := by
  by_cases hsizes : sizes = []
  · rw [hsizes]
    exact List.nil_prefix
  · rw [placeable_append hsizes]
    exact List.prefix_append _ _

/-- A size that comes last is left out if it is larger than a backlog may be. -/
theorem placeable_concat {sizes : List ℕ} (hsizes : sizes ≠ []) (size : ℕ) :
    placeable (sizes ++ [size])
      = placeable sizes ++ if size ≤ pendingMaxBytes then [size] else [] := by
  rw [placeable_append hsizes]
  by_cases hle : size ≤ pendingMaxBytes
  · rw [if_pos hle, List.filter_eq_self.2 (by simpa using hle)]
  · rw [if_neg hle, List.filter_eq_nil_iff.2 (by simpa using hle)]

/-- A message that overtakes does so whatever follows. -/
theorem Overtakes.append {backlog fresh : List ℕ} (h : Overtakes backlog fresh) (fresh' : List ℕ) :
    Overtakes backlog (fresh ++ fresh') := by
  obtain ⟨before, waiting, between, short, after, hsizes, hovertakes⟩ := h
  obtain ⟨after', hafter⟩ := placeable_grows (backlog ++ fresh) fresh'
  refine ⟨before, waiting, between, short, after ++ after', ?_, hovertakes⟩
  rw [← List.append_assoc, ← hafter, hsizes, List.append_assoc _ (short :: after)]
  rfl

/-- Events of one size do not overtake each other. -/
theorem not_overtakes_of_forall_eq {backlog fresh : List ℕ} {size : ℕ}
    (h : ∀ other ∈ backlog ++ fresh, other = size) : ¬ Overtakes backlog fresh := by
  rintro ⟨before, waiting, between, short, after, hsizes, -, -, hwaiting, hshort⟩
  have hall : ∀ other ∈ placeable (backlog ++ fresh), other = size := by
    generalize backlog ++ fresh = sizes at h
    cases sizes with
    | nil => exact fun other hother => absurd hother List.not_mem_nil
    | cons first sizes =>
      intro other hother
      rcases List.mem_cons.1 hother with rfl | hrest
      · exact h _ List.mem_cons_self
      · exact h other (List.mem_cons_of_mem _ (List.mem_filter.1 hrest).1)
  rw [hsizes] at hall
  have hfirst := hall waiting (by simp)
  have hsecond := hall short (by simp)
  omega

/-! ### Runs that are watched -/

/-- A stream and what its read has found. -/
structure Observed (lib : Library MqttMessage) where
  state : State lib
  /-- The sizes in the backlog, when the read began. -/
  backlog : List ℕ
  /-- The next number, when the read began. -/
  first : ℕ

/-- A stream that was just opened. -/
def Observed.opened (lib : Library MqttMessage) : Observed lib := ⟨.opened lib, [], 0⟩

/-- A step, and what a read finds when it begins. -/
def observe (localTime : ℤ → String) (observed : Observed lib) (event : Event) :
    Observed lib × List EventReadResult :=
  let (state, results) := step localTime observed.state event
  match event, observed.state.phase with
  | .read _ _, .idle =>
    (⟨state, observed.state.stream.pending.map Prod.snd, observed.state.stream.nextSeq⟩, results)
  | _, _ => ({ observed with state }, results)

/-- No message that the read has got from the channel overtakes another. -/
def NoOvertaking (localTime : ℤ → String) (observed : Observed lib) : Event → Prop
  | .drain =>
    match observed.state.phase with
    | .draining _ _ _ messages _ =>
      ¬ Overtakes observed.backlog (sizesFrom localTime observed.first messages)
    | _ => True
  | _ => True

theorem observe_state (localTime : ℤ → String) (observed : Observed lib) (event : Event) :
    (observe localTime observed event).1.state = (step localTime observed.state event).1 ∧
      (observe localTime observed event).2 = (step localTime observed.state event).2 := by
  unfold observe
  dsimp only
  split <;> exact ⟨rfl, rfl⟩

/-- Watching a run changes nothing. -/
theorem run_observe (localTime : ℤ → String) (observed : Observed lib) (events : List Event) :
    (run (observe localTime) observed events).2 = (run (step localTime) observed.state events).2 := by
  induction events generalizing observed with
  | nil => rfl
  | cons event events ih =>
    obtain ⟨hstate, hresults⟩ := observe_state localTime observed event
    rw [run_cons, run_cons, ih, hstate, hresults]

/-! ### The events that a stream holds -/

/-- What was returned, the batch and the backlog are in their order, before all that follows. -/
structure Lined (returned : List LiveEvent) (batch : Batch) (stream : ProviderEventStream) :
    Prop where
  sorted : ((returned ++ batch.events ++ stream.pending.map Prod.fst).map LiveEvent.seq).Pairwise
    (· < ·)
  below : ∀ event ∈ returned ++ batch.events ++ stream.pending.map Prod.fst,
    event.seq < stream.nextSeq

namespace Lined

theorem opened : Lined [] ⟨[], 0⟩ .opened where
  sorted := List.Pairwise.nil
  below _ h := absurd h List.not_mem_nil

/-- The same events in other places. -/
theorem transfer (h : Lined returned batch stream) {returned' : List LiveEvent} {batch' : Batch}
    {stream' : ProviderEventStream}
    (hheld : returned' ++ batch'.events ++ stream'.pending.map Prod.fst
      = returned ++ batch.events ++ stream.pending.map Prod.fst)
    (hseq : stream'.nextSeq = stream.nextSeq) : Lined returned' batch' stream' where
  sorted := hheld ▸ h.sorted
  below := by
    rw [hheld, hseq]
    exact h.below

/-- An event with the next number comes last. -/
theorem number (h : Lined returned batch stream) {batch' : Batch} {stream' : ProviderEventStream}
    (message : MqttMessage)
    (hheld : batch'.events ++ stream'.pending.map Prod.fst
      = batch.events ++ stream.pending.map Prod.fst ++ [⟨stream.nextSeq, message⟩])
    (hseq : stream'.nextSeq = saturatingAdd stream.nextSeq 1) (hlt : stream.nextSeq + 1 < 2 ^ 64) :
    Lined returned batch' stream' where
  sorted := by
    rw [List.append_assoc, hheld, ← List.append_assoc, ← List.append_assoc, List.map_append]
    refine List.pairwise_append.mpr ⟨h.sorted, List.pairwise_singleton _ _, ?_⟩
    intro seq hmem seq' hlast
    obtain ⟨event, hevent, rfl⟩ := List.mem_map.mp hmem
    obtain rfl := List.mem_singleton.mp hlast
    exact h.below event hevent
  below := by
    intro event hevent
    rw [List.append_assoc, hheld, ← List.append_assoc, ← List.append_assoc] at hevent
    rw [hseq, saturatingAdd_of_lt hlt]
    obtain hold | hnew := List.mem_append.mp hevent
    · exact Nat.lt_succ_of_lt (h.below event hold)
    · rw [List.mem_singleton.mp hnew]
      exact Nat.lt_succ_self _

/-- A message is placed without overtaking another. -/
theorem place (h : Lined returned batch stream) {message : MqttMessage} {batch' : Batch}
    {stream' : ProviderEventStream}
    (hplace : placeMessage localTime stream batch message = (stream', batch'))
    (hlt : stream.nextSeq + 1 < 2 ^ 64)
    (horder : batch.Fits (LiveEvent.size localTime ⟨stream.nextSeq, message⟩) →
      stream.pending = []) : Lined returned batch' stream' := by
  obtain ⟨hfits, rfl, rfl⟩ | ⟨-, -, rfl, rfl⟩ | ⟨-, -, rfl, rfl⟩ := placeMessage_cases hplace
  · refine h.number message ?_ rfl hlt
    simp [Batch.push, horder hfits]
  · refine h.number message ?_ rfl hlt
    simp
  · refine ⟨h.sorted, fun event hevent => ?_⟩
    exact (h.below event hevent).trans_le (le_saturatingAdd (Nat.lt_of_succ_lt hlt) 1)

end Lined

theorem nextSeq_placeMessage (localTime : ℤ → String) (stream : ProviderEventStream) (batch : Batch)
    (message : MqttMessage) :
    (placeMessage localTime stream batch message).1.nextSeq = saturatingAdd stream.nextSeq 1 := by
  obtain ⟨-, hstream, -⟩ | ⟨-, -, hstream, -⟩ | ⟨-, -, hstream, -⟩ := placeMessage_cases
      (rfl : placeMessage localTime stream batch message = (_, _))
  · exact congrArg ProviderEventStream.nextSeq hstream
  · exact congrArg ProviderEventStream.nextSeq hstream
  · exact congrArg ProviderEventStream.nextSeq hstream

/-- What a read takes from the backlog is what it had, from its front. -/
theorem takePending_spec (pending : List (LiveEvent × ℕ)) (pendingBytes : ℕ) (batch : Batch) :
    (takePending pending pendingBytes batch).1.events
        ++ (takePending pending pendingBytes batch).2.1.map Prod.fst
      = batch.events ++ pending.map Prod.fst := by
  induction pending generalizing pendingBytes batch with
  | nil => rfl
  | cons entry pending ih =>
    obtain ⟨event, size⟩ := entry
    rw [takePending]
    split
    · rw [ih (pendingBytes - size) (batch.push event size), Batch.push, List.append_assoc]
      rfl
    · rfl

/-! ### What fills a batch -/

/-- How a batch and a backlog have come from sizes. Either the batch has taken all of them, or it has
taken those before the first one that it had no room for, which waits. -/
inductive Filled (sizes : List ℕ) (batch : Batch) (pending : List (LiveEvent × ℕ)) : Prop
  | all (hused : batch.used = min sizes.sum (2 ^ 64 - 1)) (hevents : batch.events = [] ↔ sizes = [])
      (hpending : pending = [])
  | stopped (before : List ℕ) (waiting : ℕ) (between : List ℕ)
      (hsizes : sizes = before ++ waiting :: between) (hbefore : before ≠ [])
      (hfull : batchMaxBytes < before.sum + waiting)
      (hused : batch.used = min before.sum (2 ^ 64 - 1)) (hevents : batch.events ≠ [])

namespace Filled

variable {sizes : List ℕ} {pending : List (LiveEvent × ℕ)}

theorem empty : Filled [] ⟨[], 0⟩ [] := .all rfl (iff_of_true rfl rfl) rfl

/-- While the batch is empty, nothing waits. -/
theorem pending_eq_nil (h : Filled sizes batch pending) (hnil : batch.events = []) : pending = [] := by
  cases h with
  | all _ _ hpending => exact hpending
  | stopped _ _ _ _ _ _ _ hevents => exact absurd hnil hevents

/-- What fits into the batch behind some sizes. -/
theorem fits_iff {before : List ℕ} (hused : batch.used = min before.sum (2 ^ 64 - 1)) (size : ℕ) :
    batch.Fits size ↔ batch.events = [] ∨ before.sum + size ≤ batchMaxBytes := by
  unfold Batch.Fits
  rw [hused, saturatingAdd_min]
  refine or_congr_right ?_
  unfold batchMaxBytes
  omega

theorem used_push (hused : batch.used = min sizes.sum (2 ^ 64 - 1)) (event : LiveEvent) (size : ℕ) :
    (batch.push event size).used = min (sizes ++ [size]).sum (2 ^ 64 - 1) := by
  change saturatingAdd batch.used size = _
  rw [hused, saturatingAdd_min, List.sum_append, List.sum_singleton]

theorem events_push (sizes : List ℕ) (batch : Batch) (event : LiveEvent) (size : ℕ) :
    (batch.push event size).events = [] ↔ sizes ++ [size] = [] :=
  iff_of_false (List.append_ne_nil_of_right_ne_nil _ (List.cons_ne_nil _ _))
    (List.append_ne_nil_of_right_ne_nil _ (List.cons_ne_nil _ _))

/-- The backlog fills the batch, up to the first event that it has no room for. -/
theorem takePending (pending : List (LiveEvent × ℕ)) (pendingBytes : ℕ)
    (hused : batch.used = min sizes.sum (2 ^ 64 - 1)) (hevents : batch.events = [] ↔ sizes = []) :
    Filled (sizes ++ pending.map Prod.snd) (Mqtt.takePending pending pendingBytes batch).1
      (Mqtt.takePending pending pendingBytes batch).2.1 := by
  induction pending generalizing sizes pendingBytes batch with
  | nil =>
    rw [List.map_nil, List.append_nil]
    exact .all hused hevents rfl
  | cons entry pending ih =>
    obtain ⟨event, size⟩ := entry
    rw [Mqtt.takePending, List.map_cons, List.append_cons]
    split
    · exact ih (pendingBytes - size) (used_push hused event size) (events_push sizes batch event size)
    · next hfull =>
      rw [fits_iff hused, not_or, not_le] at hfull
      rw [List.append_assoc]
      exact .stopped sizes size (pending.map Prod.snd) rfl (fun hnil => hfull.1 (hevents.2 hnil))
        hfull.2 hused hfull.1

/-- **A message is placed** behind what the read has found so far. If it does not overtake another, it
goes into the batch only if nothing waits. -/
theorem place {backlog fresh : List ℕ} (h : Filled (placeable (backlog ++ fresh)) batch stream.pending)
    (hbytes : stream.pendingBytes = (stream.pending.map Prod.snd).sum)
    (hbacklog : ∀ size ∈ backlog, size ≤ pendingMaxBytes) {message : MqttMessage}
    {stream' : ProviderEventStream} {batch' : Batch}
    (hplace : placeMessage localTime stream batch message = (stream', batch'))
    (hnot : ¬ Overtakes backlog (fresh ++ [LiveEvent.size localTime ⟨stream.nextSeq, message⟩])) :
    (batch.Fits (LiveEvent.size localTime ⟨stream.nextSeq, message⟩) → stream.pending = []) ∧
      Filled (placeable (backlog ++ (fresh ++ [LiveEvent.size localTime ⟨stream.nextSeq, message⟩])))
        batch' stream'.pending := by
  have hplaced := placeMessage_cases hplace
  generalize LiveEvent.size localTime ⟨stream.nextSeq, message⟩ = size at hplaced hnot ⊢
  rw [← List.append_assoc]
  cases h with
  | all hused hevents hpending =>
    refine ⟨fun _ => hpending, ?_⟩
    have hfits := fits_iff hused size
    rw [hevents, placeable_eq_nil_iff] at hfits
    rcases hplaced with ⟨htaken, rfl, rfl⟩ | ⟨hfull, hroom, rfl, rfl⟩ | ⟨hfull, hroom, rfl, rfl⟩
    · -- whatever fits behind another event is not too large for the backlog either
      have hgrown : placeable (backlog ++ fresh ++ [size]) = placeable (backlog ++ fresh) ++ [size] := by
        rcases hfits.1 htaken with hnil | hle
        · rw [hnil]
          rfl
        · by_cases hnil : backlog ++ fresh = []
          · rw [hnil]
            rfl
          · have hsmall : size ≤ pendingMaxBytes := (Nat.le_add_left _ _).trans hle
            rw [placeable_concat hnil, if_pos hsmall]
      rw [hgrown]
      exact .all (used_push hused _ size) (events_push _ batch _ size) hpending
    · rw [hfits, not_or, not_le] at hfull
      have hsmall : size ≤ pendingMaxBytes :=
        (Nat.le_add_left _ _).trans ((saturatingAdd_le_iff (by decide)).1 hroom)
      rw [placeable_concat hfull.1, if_pos hsmall]
      refine .stopped _ size [] rfl (mt placeable_eq_nil_iff.1 hfull.1) hfull.2 hused ?_
      exact mt (fun hnil => placeable_eq_nil_iff.1 (hevents.1 hnil)) hfull.1
    · -- the backlog is empty, so that the message is dropped because of its own size
      rw [hfits, not_or, not_le] at hfull
      have hlarge : ¬ size ≤ pendingMaxBytes := by
        rwa [saturatingAdd_le_iff (by decide), hbytes, hpending, List.map_nil, List.sum_nil,
          Nat.zero_add] at hroom
      rw [placeable_concat hfull.1, if_neg hlarge, List.append_nil]
      exact .all hused hevents hpending
  | stopped before waiting between hsizes hbefore hfull hused hevents =>
    have hsome : backlog ++ fresh ≠ [] := by
      intro hnil
      rw [hnil] at hsizes
      exact List.append_ne_nil_of_right_ne_nil before (List.cons_ne_nil waiting between) hsizes.symm
    have hstopped (pending : List (LiveEvent × ℕ)) :
        Filled (placeable (backlog ++ fresh ++ [size])) batch pending := by
      refine .stopped before waiting (between ++ if size ≤ pendingMaxBytes then [size] else []) ?_
        hbefore hfull hused hevents
      rw [placeable_concat hsome, hsizes, List.append_assoc]
      rfl
    have hwaits : ¬ batch.Fits size := by
      rw [fits_iff hused]
      rintro (hnil | hshort)
      · exact hevents hnil
      · have hsmall : size ≤ pendingMaxBytes := (Nat.le_add_left _ _).trans hshort
        have hlength := (placeable_grows backlog fresh).length_le
        rw [placeable_eq_self hbacklog, hsizes] at hlength
        refine hnot ⟨before, waiting, between, size, [], ?_, hbefore, hlength, hfull, hshort⟩
        rw [← List.append_assoc, placeable_concat hsome, if_pos hsmall, hsizes]
    refine ⟨fun hfits => absurd hfits hwaits, ?_⟩
    rcases hplaced with ⟨hfits, -, -⟩ | ⟨-, -, rfl, rfl⟩ | ⟨-, -, rfl, rfl⟩
    · exact absurd hfits hwaits
    · exact hstopped _
    · exact hstopped _

end Filled

/-! ### Runs -/

/-- The events of a stream are in their order, whichever read is under way, and the batch is filled by what
the read has found so far: some sizes in the backlog, and messages with numbers from one on. -/
def State.Ordered (localTime : ℤ → String) (backlog : List ℕ) (first : ℕ) (returned : List LiveEvent)
    (state : State lib) : Prop :=
  match state.phase with
  | .idle => Lined returned ⟨[], 0⟩ state.stream
  | .draining _ batch _ _ _ =>
    Lined returned batch state.stream ∧ state.stream.nextSeq = first ∧
      (∀ size ∈ backlog, size ≤ pendingMaxBytes) ∧
      Filled (placeable backlog) batch state.stream.pending
  | .placing _ batch messages =>
    Lined returned batch state.stream ∧ (∀ size ∈ backlog, size ≤ pendingMaxBytes) ∧
      ∃ placed, state.stream.nextSeq = first + placed.length ∧
        Filled (placeable (backlog ++ sizesFrom localTime first placed)) batch state.stream.pending ∧
        ¬ Overtakes backlog (sizesFrom localTime first (placed ++ messages))
  | .waiting => Lined returned ⟨[], 0⟩ state.stream ∧ state.stream.pending = []

namespace State.Ordered

variable {state : State lib} {backlog : List ℕ} {first : ℕ} {docs : Documented channelCapacity lib}

theorem answer (state : State lib) {events : List LiveEvent} {used : ℕ}
    (h : Lined (returnedEvents results) ⟨events, used⟩ state.stream) :
    (state.answer events).1.Ordered localTime backlog first
      (returnedEvents (results ++ (state.answer events).2)) := by
  change Lined (returnedEvents (results ++ [_])) ⟨[], 0⟩ state.stream
  rw [returnedEvents_concat]
  refine h.transfer ?_ rfl
  simp

theorem settle (state : State lib) (h : Lined (returnedEvents results) batch state.stream)
    (hempty : batch.events = [] → state.stream.pending = []) (waitMs : ℕ) :
    (state.settle waitMs batch).1.Ordered localTime backlog first
      (returnedEvents (results ++ (state.settle waitMs batch).2)) := by
  unfold State.settle
  split
  · next hwait =>
    rw [List.append_nil]
    refine ⟨h.transfer ?_ rfl, hempty hwait.1⟩
    rw [hwait.1]
  · exact answer state h

/-- A read begins: the backlog fills the batch. -/
theorem read (hbooks : Books docs localTime results state) (hidle : state.phase = .idle)
    (h : state.Ordered localTime backlog first (returnedEvents results)) (maxEvents : ℕ)
    (waitMs : Option ℕ) :
    (state.read maxEvents waitMs).1.Ordered localTime (state.stream.pending.map Prod.snd)
      state.stream.nextSeq (returnedEvents (results ++ (state.read maxEvents waitMs).2)) := by
  have hbalanced := hbooks.balanced
  rw [State.Balanced, hidle] at hbalanced
  rw [State.Ordered, hidle] at h
  have hsmall : ∀ size ∈ state.stream.pending.map Prod.snd, size ≤ pendingMaxBytes := by
    intro size hsize
    exact (hbalanced.bytes ▸ List.le_sum_of_mem hsize).trans hbalanced.bounded
  have hheld := takePending_spec state.stream.pending state.stream.pendingBytes ⟨[], 0⟩
  have hfilled : Filled (state.stream.pending.map Prod.snd)
      (takePending state.stream.pending state.stream.pendingBytes ⟨[], 0⟩).1
      (takePending state.stream.pending state.stream.pendingBytes ⟨[], 0⟩).2.1 :=
    Filled.takePending _ _ rfl (iff_of_true rfl rfl)
  unfold State.read
  dsimp only
  -- taking from the backlog keeps the order
  have htaken : ∀ {batch : Batch} {pending : List (LiveEvent × ℕ)} {pendingBytes : ℕ},
      batch.events ++ pending.map Prod.fst = [] ++ state.stream.pending.map Prod.fst →
      Lined (returnedEvents results) batch { state.stream with pending, pendingBytes } :=
    fun heq => h.transfer (by rw [List.append_assoc, heq, ← List.append_assoc]) rfl
  split
  · rw [List.append_nil]
    refine ⟨htaken hheld, rfl, hsmall, ?_⟩
    rw [placeable_eq_self hsmall]
    exact hfilled
  · exact settle { state with stream := { state.stream with pending := _, pendingBytes := _ } }
      (htaken hheld) hfilled.pending_eq_nil _

/-- A read drains the channel. When it is done, none of the messages overtakes another. -/
theorem drain {messages : List MqttMessage} {waitMs limit missed : ℕ}
    (h : state.Ordered localTime backlog first returned)
    (hphase : state.phase = .draining waitMs batch limit messages missed)
    (hnot : ¬ Overtakes backlog (sizesFrom localTime first messages)) :
    (state.drain waitMs batch limit messages missed).Ordered localTime backlog first returned := by
  rw [State.Ordered, hphase] at h
  obtain ⟨hlined, hseq, hsmall, hfilled⟩ := h
  -- placing begins with nothing placed
  have hdone (channel : lib.Channel) : State.Ordered localTime backlog first returned
      (⟨channel, { state.stream with dropped := saturatingAdd state.stream.dropped missed },
        .placing waitMs batch messages⟩ : State lib) := by
    refine ⟨hlined.transfer rfl rfl, hsmall, [], hseq, ?_, hnot⟩
    rw [sizesFrom, List.append_nil]
    exact hfilled
  unfold State.drain
  dsimp only
  split
  · cases lib.tryRecv state.channel with
    | mk channel received =>
      cases received with
      | message message => exact ⟨hlined, hseq, hsmall, hfilled⟩
      | lagged count => exact ⟨hlined, hseq, hsmall, hfilled⟩
      | empty => exact hdone channel
      | closed => exact hdone channel
  · exact hdone state.channel

/-- The next message is placed. -/
theorem place {message : MqttMessage} {messages : List MqttMessage} {waitMs : ℕ}
    (hbooks : Books docs localTime results state)
    (h : state.Ordered localTime backlog first (returnedEvents results))
    (hphase : state.phase = .placing waitMs batch (message :: messages)) :
    State.Ordered localTime backlog first (returnedEvents results)
      ({ state with
        stream := (placeMessage localTime state.stream batch message).1
        phase := .placing waitMs (placeMessage localTime state.stream batch message).2 messages }
        : State lib) := by
  have hbalanced := hbooks.balanced
  rw [State.Balanced, hphase] at hbalanced
  rw [State.Ordered, hphase] at h
  obtain ⟨hlined, hsmall, placed, hseq, hfilled, hnot⟩ := h
  rw [List.append_cons] at hnot
  have hsizes : sizesFrom localTime first (placed ++ [message]) = sizesFrom localTime first placed
      ++ [LiveEvent.size localTime ⟨state.stream.nextSeq, message⟩] := by
    rw [sizesFrom_append, hseq]
    rfl
  have hplaced := hfilled.place hbalanced.bytes hsmall rfl (by
    rw [← hsizes]
    intro hovertakes
    rw [sizesFrom_append] at hnot
    exact hnot (hovertakes.append _))
  rw [← hsizes] at hplaced
  refine ⟨hlined.place rfl hbalanced.next_lt hplaced.1, hsmall, placed ++ [message], ?_, hplaced.2, hnot⟩
  have hnext := nextSeq_placeMessage localTime state.stream batch message
  rw [saturatingAdd_of_lt hbalanced.next_lt, hseq] at hnext
  rw [List.length_append]
  exact hnext

theorem wake (hbooks : Books docs localTime results state)
    (h : state.Ordered localTime backlog first (returnedEvents results))
    (hphase : state.phase = .waiting) :
    state.wake.1.Ordered localTime backlog first (returnedEvents (results ++ state.wake.2)) := by
  have hbalanced := hbooks.balanced
  rw [State.Balanced, hphase] at hbalanced
  dsimp only at hbalanced
  have hwaiting := h
  rw [State.Ordered, hphase] at hwaiting
  obtain ⟨hlined, hnone⟩ := hwaiting
  unfold State.wake
  cases hrecv : lib.tryRecv state.channel with
  | mk channel received =>
    cases received with
    | message message =>
      -- the receiver was given a message, so that there is a number for it
      have hlt : state.stream.nextSeq + 1 < 2 ^ 64 := by
        obtain ⟨hvalid, hcases⟩ := hbalanced.valid.tryRecv (docs.of_tryRecv hrecv)
        obtain ⟨_, heq, hnext, hpassed⟩ | ⟨_, heq, -⟩ | ⟨heq | heq, -⟩ := hcases
        · exact (hbalanced.receive hvalid (docs.sent_of_tryRecv hrecv) hnext hpassed).next_lt
        · cases heq
        · cases heq
        · cases heq
      have hnumbered : Lined (returnedEvents results) ⟨[⟨state.stream.nextSeq, message⟩], 0⟩
          { state.stream with nextSeq := saturatingAdd state.stream.nextSeq 1 } :=
        hlined.number message (by simp [hnone]) rfl hlt
      exact answer (⟨channel, { state.stream with nextSeq := saturatingAdd state.stream.nextSeq 1 },
        state.phase⟩ : State lib) hnumbered
    | lagged count =>
      exact answer (⟨channel, { state.stream with dropped := saturatingAdd state.stream.dropped count },
        state.phase⟩ : State lib) (hlined.transfer rfl rfl)
    | empty =>
      rw [List.append_nil]
      unfold State.Ordered
      rw [hphase]
      exact ⟨hlined, hnone⟩
    | closed =>
      exact answer { state with channel, stream := { state.stream with closed := true } }
        (hlined.transfer rfl rfl)

end State.Ordered

/-- What has been found is in order. -/
def Observed.Ordered (localTime : ℤ → String) (returned : List LiveEvent) (observed : Observed lib) :
    Prop :=
  observed.state.Ordered localTime observed.backlog observed.first returned

namespace Observed.Ordered

variable {observed : Observed lib} {docs : Documented channelCapacity lib}

theorem ignore (h : observed.Ordered localTime (returnedEvents results)) :
    observed.Ordered localTime (returnedEvents (results ++ [])) := by
  rw [List.append_nil]
  exact h

/-- **Every step keeps the order**, if no message overtakes another. -/
theorem step (hbooks : Books docs localTime results observed.state)
    (h : observed.Ordered localTime (returnedEvents results)) {event : Event}
    (hnot : NoOvertaking localTime observed event) :
    (observe localTime observed event).1.Ordered localTime
      (returnedEvents (results ++ (observe localTime observed event).2)) := by
  obtain ⟨state, backlog, first⟩ := observed
  have hstate : state.Ordered localTime backlog first (returnedEvents results) := h
  -- what is observed changes only where a read begins
  cases event with
  | publish message => exact h.ignore
  | hangUp => exact h.ignore
  | read maxEvents waitMs =>
    unfold observe Mqtt.step
    dsimp only
    cases hphase : state.phase with
    | idle => exact State.Ordered.read hbooks hphase hstate maxEvents waitMs
    | draining => exact h.ignore
    | placing => exact h.ignore
    | waiting => exact h.ignore
  | drain =>
    unfold observe Mqtt.step
    unfold NoOvertaking at hnot
    dsimp only at hnot ⊢
    split
    · next hphase =>
      rw [hphase] at hnot
      rw [List.append_nil]
      exact hstate.drain hphase hnot
    · exact h.ignore
  | place =>
    unfold observe Mqtt.step
    dsimp only
    split
    · next hphase =>
      rw [State.Ordered, hphase] at hstate
      obtain ⟨hlined, -, placed, -, hfilled, -⟩ := hstate
      exact State.Ordered.settle state hlined hfilled.pending_eq_nil _
    · next hphase =>
      rw [List.append_nil]
      exact State.Ordered.place hbooks hstate hphase
    · exact h.ignore
  | wake =>
    unfold observe Mqtt.step
    dsimp only
    split
    · next hphase => exact State.Ordered.wake hbooks hstate hphase
    · exact h.ignore
  | elapse =>
    unfold observe Mqtt.step
    dsimp only
    split
    · next hphase =>
      rw [State.Ordered, hphase] at hstate
      exact State.Ordered.answer state hstate.1
    · exact h.ignore

end Observed.Ordered

/-- What is kept of a run that is watched. -/
structure Watched (docs : Documented channelCapacity lib) (localTime : ℤ → String) (events : List Event)
    (results : List EventReadResult) (observed : Observed lib) : Prop where
  books : Books docs localTime results observed.state
  sent : (docs.view observed.state.channel).sent.length ≤ published events
  ordered : observed.Ordered localTime (returnedEvents results)

theorem Watched.step {docs : Documented channelCapacity lib} {events : List Event}
    {observed : Observed lib} (h : Watched docs localTime events results observed) {event : Event}
    (hnot : NoOvertaking localTime observed event) (hfew : published (events ++ [event]) < 2 ^ 64) :
    Watched docs localTime (events ++ [event]) (results ++ (observe localTime observed event).2)
      (observe localTime observed event).1 := by
  obtain ⟨hstate, hresults⟩ := observe_state localTime observed event
  rw [published_concat] at hfew
  refine ⟨?_, ?_, h.ordered.step h.books hnot⟩
  · rw [hstate, hresults]
    exact h.books.step event ((Nat.add_le_add_right h.sent _).trans_lt hfew)
  · rw [hstate, published_concat]
    exact (length_sent_step docs localTime observed.state event).trans (Nat.add_le_add_right h.sent _)

/-- **Messages in their order.** In every run in which fewer than `2 ^ 64` messages are published and no
message overtakes another, the events returned over all reads have strictly increasing numbers. Whether a
message overtakes is said of what the read finds: the sizes in the backlog, and those of the messages
that it gets from the channel. -/
theorem returned_in_order (docs : Documented channelCapacity lib) (localTime : ℤ → String)
    {events : List Event} (hfew : published events < 2 ^ 64)
    (hnot : Guarded (observe localTime) (NoOvertaking localTime) (.opened lib) events) :
    ((returnedEvents (run (step localTime) (.opened lib) events).2).map LiveEvent.seq).Pairwise
      (· < ·) := by
  have hopened : published [] < 2 ^ 64 → Watched docs localTime [] [] (.opened lib) := by
    intro hlt
    obtain ⟨hbooks, hsent⟩ := books_of_run docs localTime hlt
    exact ⟨hbooks, hsent, Lined.opened⟩
  have hwatched := run_guarded (H := fun events results observed =>
    published events < 2 ^ 64 → Watched docs localTime events results observed)
    (fun events results observed event h hevent hlt => by
      have hbefore := hlt
      rw [published_concat] at hbefore
      exact (h ((Nat.le_add_right _ _).trans_lt hbefore)).step hevent hlt)
    hopened hnot hfew
  have hordered := hwatched.ordered
  rw [run_observe] at hordered
  have hlined : ∃ batch stream, Lined
      (returnedEvents (run (step localTime) (State.opened lib) events).2) batch stream := by
    unfold Observed.Ordered State.Ordered at hordered
    split at hordered
    · exact ⟨_, _, hordered⟩
    · exact ⟨_, _, hordered.1⟩
    · exact ⟨_, _, hordered.1⟩
    · exact ⟨_, _, hordered.1⟩
  obtain ⟨batch, stream, hlined⟩ := hlined
  have hsorted := hlined.sorted
  rw [List.append_assoc, List.map_append] at hsorted
  exact (List.pairwise_append.mp hsorted).1

/-! ### Messages of one size -/

section Examples

variable {long short : MqttMessage}

/-- A drain in which no message overtakes. -/
theorem guarded_drain (localTime : ℤ → String) (stream : ProviderEventStream)
    (before messages received : List MqttMessage) (waitMs limit missed : ℕ) (batch : Batch)
    (backlog : List ℕ) (first : ℕ) (hfew : (before ++ messages).length ≤ channelCapacity)
    (hlimit : received.length + messages.length ≤ limit)
    (hnot : ¬ Overtakes backlog (sizesFrom localTime first (received ++ messages))) :
    Guarded (observe localTime) (NoOvertaking localTime)
      (⟨⟨⟨before ++ messages, before.length, true⟩, stream,
        .draining waitMs batch limit received missed⟩, backlog, first⟩
        : Observed (reference channelCapacity)) (List.replicate (messages.length + 1) .drain) := by
  -- what has been drained up to now does not overtake either
  have hnow : ¬ Overtakes backlog (sizesFrom localTime first received) := by
    rw [sizesFrom_append] at hnot
    exact fun hovertakes => hnot (hovertakes.append _)
  induction messages generalizing before received with
  | nil => exact .cons hnow guarded_nil
  | cons message messages ih =>
    have hmore : received.length < limit := by
      rw [List.length_cons] at hlimit
      omega
    have hstep := step_drain localTime stream before message messages received waitMs limit missed batch
      hfew hmore
    have hobserve : (observe localTime (⟨⟨⟨before ++ message :: messages, before.length, true⟩, stream,
        .draining waitMs batch limit received missed⟩, backlog, first⟩
        : Observed (reference channelCapacity)) .drain).1
        = ⟨⟨⟨before ++ [message] ++ messages, (before ++ [message]).length, true⟩, stream,
          .draining waitMs batch limit (received ++ [message]) missed⟩, backlog, first⟩ :=
      congrArg (fun next => (⟨next.1, backlog, first⟩ : Observed (reference channelCapacity))) hstep
    rw [List.append_cons] at hnot
    refine .cons hnow ?_
    rw [hobserve]
    refine ih (before ++ [message]) (received ++ [message]) (by simpa using hfew)
      (by simp at hlimit ⊢; omega) hnot ?_
    rw [sizesFrom_append] at hnot
    exact fun hovertakes => hnot (hovertakes.append _)

/-- Five messages are published and read twice. -/
def readTwiceRun (long : MqttMessage) : List Event := waitingRun long ++ [.read 2 none]

theorem guarded_readTwiceRun (hlong : ∀ seq < 10, LiveEvent.size localTime ⟨seq, long⟩ = 131389) :
    Guarded (observe localTime) (NoOvertaking localTime) (.opened (reference channelCapacity))
      (readTwiceRun long) := by
  have hread : (observe localTime (run (observe localTime) (.opened (reference channelCapacity))
        ((List.replicate 5 long).map .publish)).1 (.read 8 none)).1
      = ⟨⟨⟨List.replicate 5 long, 0, true⟩, .opened, .draining 0 ⟨[], 0⟩ 8 [] 0⟩, [], 0⟩ := by
    simp [List.replicate_succ, run_cons, observe, step, Observed.opened, State.opened, Channel.subscribe,
      Channel.send, State.read, takePending, ProviderEventStream.opened]
  have hnot : ¬ Overtakes [] (sizesFrom localTime 0 (List.replicate 5 long)) := by
    have hsame : ∀ size ∈ [] ++ sizesFrom localTime 0 (List.replicate 5 long), size = 131389 := by
      simp [List.replicate_succ, sizesFrom, hlong]
    exact not_overtakes_of_forall_eq hsame
  have hdrain := guarded_drain localTime .opened [] (List.replicate 5 long) [] 0 8 0 ⟨[], 0⟩ [] 0
    (by simp [channelCapacity]) (by simp) hnot
  rw [readTwiceRun, waitingRun, List.append_assoc, List.cons_append, List.append_assoc]
  -- only a drain can tell that a message overtakes
  refine .append (guarded_of_forall fun s event hevent => ?_) (.cons trivial (.append ?_
    (guarded_of_forall fun s event hevent => ?_)))
  · obtain ⟨message, -, rfl⟩ := List.mem_map.1 hevent
    trivial
  · rw [hread]
    exact hdrain
  · rcases List.mem_append.1 hevent with hplace | hagain
    · obtain rfl := List.eq_of_mem_replicate hplace
      trivial
    · obtain rfl := List.mem_singleton.1 hagain
      trivial

theorem run_readTwiceRun (hlong : ∀ seq < 10, LiveEvent.size localTime ⟨seq, long⟩ = 131389) :
    (run (step localTime) (.opened (reference channelCapacity)) (readTwiceRun long)).2
      = [⟨[⟨0, long⟩, ⟨1, long⟩, ⟨2, long⟩], false, 0⟩, ⟨[⟨3, long⟩, ⟨4, long⟩], false, 0⟩] := by
  rw [readTwiceRun, run_append, run_waitingRun hlong, run_cons, read_two localTime _ _ _ 131389 (by decide)]
  rfl

/-- Three events are returned by the first read, and the two that had to wait by the second. -/
theorem returned_in_order_readTwice :
    (returnedEvents (run (step noonClock) (.opened (reference channelCapacity))
        (readTwiceRun (quotedMessage 65535))).2).map LiveEvent.seq = [0, 1, 2, 3, 4] ∧
      ((returnedEvents (run (step noonClock) (.opened (reference channelCapacity))
        (readTwiceRun (quotedMessage 65535))).2).map LiveEvent.seq).Pairwise (· < ·) := by
  have hfew : published (readTwiceRun (quotedMessage 65535)) < 2 ^ 64 := by
    have hcount : published (readTwiceRun (quotedMessage 65535)) = 5 := rfl
    rw [hcount]
    decide
  refine ⟨?_, returned_in_order (documentedReference channelCapacity) noonClock hfew
    (guarded_readTwiceRun fun _ => size_longMessage)⟩
  rw [run_readTwiceRun fun _ => size_longMessage]
  rfl

/-! ### A message that overtakes -/

/-- Four long messages and a short one are published, and read twice. -/
def overtakingRun (long short : MqttMessage) : List Event :=
  (List.replicate 4 long ++ [short]).map .publish
    ++ .read 8 none :: (List.replicate 6 .drain ++ (List.replicate 6 .place
      ++ [.read 8 none, .drain, .place]))

/-- Three of the long messages fit into a batch. The fourth one has to wait, and the short one does
not. -/
theorem overtaking_placed (channel : (reference channelCapacity).Channel)
    (hlong : ∀ seq < 10, LiveEvent.size localTime ⟨seq, long⟩ = 131389)
    (hshort : ∀ seq < 10, LiveEvent.size localTime ⟨seq, short⟩ = 321) :
    run (step localTime)
        (⟨channel, .opened, .placing 0 ⟨[], 0⟩ (List.replicate 4 long ++ [short])⟩
          : State (reference channelCapacity)) (List.replicate 6 .place)
      = (⟨channel, ⟨0, 5, false, [(⟨3, long⟩, 131389)], 131389⟩, .idle⟩,
          [⟨[⟨0, long⟩, ⟨1, long⟩, ⟨2, long⟩, ⟨4, short⟩], false, 0⟩]) := by
  simp [List.replicate_succ, run_cons, step, placeMessage, ProviderEventStream.eventFor, Batch.Fits,
    Batch.push, saturatingAdd, batchMaxBytes, pendingMaxBytes, hlong, hshort, State.settle,
    State.answer, ProviderEventStream.opened]

theorem overtaking_again (localTime : ℤ → String) {sent : List MqttMessage}
    (hsent : sent.length ≤ 1024) (event : LiveEvent) (size nextSeq : ℕ) :
    (run (step localTime)
        (⟨⟨sent, sent.length, true⟩, ⟨0, nextSeq, false, [(event, size)], size⟩, .idle⟩
          : State (reference channelCapacity)) [.read 8 none, .drain, .place]).2
      = [⟨[event], false, 0⟩] := by
  simp [run_cons, step, State.read, State.drain, takePending, Channel.tryRecv, Channel.oldest,
    channelCapacity, Batch.Fits, Batch.push, hsent, State.settle, State.answer, saturatingAdd]

theorem seqs_overtakingRun
    (hlong : ∀ seq < 10, LiveEvent.size localTime ⟨seq, long⟩ = 131389)
    (hshort : ∀ seq < 10, LiveEvent.size localTime ⟨seq, short⟩ = 321) :
    (returnedEvents (run (step localTime) (.opened (reference channelCapacity))
      (overtakingRun long short)).2).map LiveEvent.seq = [0, 1, 2, 4, 3] := by
  have hpublish := run_publish localTime .opened [] (List.replicate 4 long ++ [short]) 0 .idle
  have hread (sent : List MqttMessage) : step localTime (⟨⟨sent, 0, true⟩, .opened, .idle⟩
        : State (reference channelCapacity)) (.read 8 none)
      = (⟨⟨sent, 0, true⟩, .opened, .draining 0 ⟨[], 0⟩ 8 [] 0⟩, []) := rfl
  have hdrain := run_drain localTime .opened [] (List.replicate 4 long ++ [short]) [] 0 8 0 ⟨[], 0⟩
    (by simp [channelCapacity]) (by simp)
  have hsent : (List.replicate 4 long ++ [short]).length ≤ 1024 := by simp
  have hagain := overtaking_again localTime hsent ⟨3, long⟩ 131389 5
  have hlength : (List.replicate 4 long ++ [short]).length = 5 := rfl
  have hnone : saturatingAdd ProviderEventStream.opened.dropped 0 = ProviderEventStream.opened.dropped :=
    saturatingAdd_of_lt (by decide)
  rw [hnone] at hdrain
  rw [hlength] at hagain
  simp only [List.nil_append, List.length_nil, hlength] at hdrain
  rw [overtakingRun, run_append, opened_reference, hpublish, run_cons, List.nil_append, hread, run_append,
    hdrain, run_append, overtaking_placed _ hlong hshort]
  dsimp only
  rw [hagain]
  rfl

/-- Messages with topics of 65535 quotation marks, and one with a single mark. -/
theorem short_message_overtakes :
    ¬ ((returnedEvents (run (step noonClock) (.opened (reference channelCapacity))
      (overtakingRun (quotedMessage 65535) (quotedMessage 1))).2).map LiveEvent.seq).Pairwise
        (· < ·) := by
  rw [seqs_overtakingRun (fun _ => size_longMessage) fun _ => size_quotedMessage 1]
  decide

end Examples

end Mqtt
end Navop
