import NavopExtensions.Rdp.Mailbox.Control

/-!
# The session barrier

The end of a session must not be followed by pixels or cursors of that session. To say "sent
before" about events that are merged, split and overwritten on their way, the mailbox is run with
stamps: every send has a number, and every event handed out carries the numbers of the sends it may
come from (`Stamped.step`). Erasing the stamps gives back the mailbox (`erase_step`,
`stampedLog_erase`), so the stamps are proof-only.

`Separated` is the property: a barrier that was handed out has a smaller stamp than every session
event handed out after it. A terminal event purges all three queues, so it can overtake nothing.
`Reconnecting` purges the cursor events only, and overtakes a frame or a delta that is still waiting
(`reconnecting_overtakes_frame`). The property holds of every run in which no pixels are waiting
when `Reconnecting` is sent (`received_separated`).
-/

namespace Navop
namespace Rdp
namespace Mailbox

/-! ### The stamped mailbox -/

/-- The mailbox with send numbers. A coalesced cursor event carries the number of the one that
overwrote it; deltas are merged freely, so the queue as a whole carries the numbers of the deltas
sent since it was last empty. -/
structure Stamped where
  /-- The number the next send gets. -/
  clock : Nat
  control : List (HelperEvent × Nat)
  latestFrame : Option (HelperEvent × Nat)
  pendingDeltas : List HelperEvent
  deltaStamps : List Nat

namespace Stamped

/-- The sends whose pixels may be in the pending deltas. -/
def carried (t : Stamped) : List Nat := if t.pendingDeltas = [] then [] else t.deltaStamps

theorem mem_deltaStamps {t : Stamped} {j : Nat} (h : j ∈ t.carried) : j ∈ t.deltaStamps := by
  unfold carried at h
  split at h
  · exact absurd h (by simp)
  · exact h

/-- A fresh mailbox: nothing waits, and the clock stands at zero. -/
def initial : Stamped := ⟨0, [], none, [], []⟩

/-- Does an event overwrite the one at the back of the control queue? -/
def coalesces : Option HelperEvent → HelperEvent → Bool
  | some (.cursorPosition ..), .cursorPosition .. => true
  | some (.cursorRgbaBytes ..), .cursorRgbaBytes .. => true
  | _, _ => false

/-- `enqueueControl` with stamps: what coalesces takes the stamp of the later event. -/
def enqueue (control : List (HelperEvent × Nat)) (event : HelperEvent × Nat) :
    List (HelperEvent × Nat) :=
  (if coalesces (control.getLast?.map Prod.fst) event.1 then control.dropLast else control)
    ++ [event]

/-- `discardPendingCursorEvents` with stamps. -/
def discard (control : List (HelperEvent × Nat)) : List (HelperEvent × Nat) :=
  control.filter fun event => !event.1.isCursor

/-- `send` with stamps. -/
def send (cap : Nat) (t : Stamped) (event : HelperEvent) : Stamped :=
  match event with
  | .frameBgraBytes .. =>
    { t with clock := t.clock + 1, latestFrame := some (event, t.clock), pendingDeltas := [] }
  | .frameBgraRects .. =>
    { t with
      clock := t.clock + 1
      pendingDeltas := queueDeltaWithCap t.pendingDeltas event cap
      deltaStamps := t.carried ++ [t.clock] }
  | .connectionFailure .. | .terminated .. =>
    { t with
      clock := t.clock + 1
      latestFrame := none
      pendingDeltas := []
      control := discard t.control ++ [(event, t.clock)] }
  | .reconnecting .. =>
    { t with clock := t.clock + 1, control := discard t.control ++ [(event, t.clock)] }
  | control => { t with clock := t.clock + 1, control := enqueue t.control (control, t.clock) }

/-- One call with stamps. -/
def step (cap : Nat) (t : Stamped) : Op → Stamped × List (HelperEvent × List Nat)
  | .send event => (t.send cap event, [])
  | .recv =>
    match t.control with
    | control :: rest => ({ t with control := rest }, [(control.1, [control.2])])
    | [] =>
      match t.latestFrame with
      | some frame => ({ t with latestFrame := none }, [(frame.1, [frame.2])])
      | none =>
        match t.pendingDeltas with
        | delta :: rest => ({ t with pendingDeltas := rest }, [(delta, t.carried)])
        | [] => (t, [])

/-- Forget the stamps: what is left is a state of the mailbox. -/
def erase (t : Stamped) : State where
  control := t.control.map Prod.fst
  latestFrame := t.latestFrame.map Prod.fst
  pendingDeltas := t.pendingDeltas
  senderCount := 1
  receiverAlive := true

theorem enqueue_erase (control : List (HelperEvent × Nat)) (event : HelperEvent × Nat) :
    (enqueue control event).map Prod.fst = enqueueControl (control.map Prod.fst) event.1 := by
  obtain ⟨e, stamp⟩ := event
  unfold enqueue enqueueControl
  rw [List.getLast?_map]
  -- whether the event at the back is overwritten depends on its kind alone
  generalize control.getLast?.map Prod.fst = last
  rcases last with _ | last
  · simp [coalesces]
  · cases last <;> cases e <;> simp [coalesces, List.map_dropLast]

theorem discard_erase (control : List (HelperEvent × Nat)) :
    (discard control).map Prod.fst = discardPendingCursorEvents (control.map Prod.fst) := by
  simp [discard, discardPendingCursorEvents, List.filter_map, Function.comp_def]

/-- The stamps do not change what the mailbox does. -/
theorem erase_step (cap : Nat) (t : Stamped) (op : Op) :
    Mailbox.step cap t.erase op = ((t.step cap op).1.erase, (t.step cap op).2.map Prod.fst) := by
  cases op with
  | send e =>
    cases e <;>
      simp [Mailbox.step, Mailbox.send, step, send, erase, discard_erase, enqueue_erase]
  | recv =>
    obtain ⟨clock, control, frame, deltas, stamps⟩ := t
    rcases control with _ | ⟨c, rest⟩
    · rcases frame with _ | frame
      · rcases deltas with _ | ⟨d, rest⟩ <;> simp [Mailbox.step, Mailbox.recv, step, erase]
      · simp [Mailbox.step, Mailbox.recv, step, erase]
    · simp [Mailbox.step, Mailbox.recv, step, erase]

end Stamped

/-- The stamped events a list of calls hands to the consumer, in order. -/
def stampedLog (cap : Nat) (ops : List Op) : List (HelperEvent × List Nat) :=
  (Machine.run (Stamped.step cap) .initial ops).2

/-- The stamped log is the log, with stamps. -/
theorem stampedLog_erase (cap : Nat) (ops : List Op) :
    (stampedLog cap ops).map Prod.fst = received cap ops := by
  have hstep : ∀ (t : Stamped) (log : List (HelperEvent × List Nat)) (s : State)
      (log' : List HelperEvent) (op : Op), s = t.erase ∧ log' = log.map Prod.fst → True →
      (Mailbox.step cap s op).1 = (Stamped.step cap t op).1.erase ∧
        log' ++ (Mailbox.step cap s op).2
          = (log ++ (Stamped.step cap t op).2).map Prod.fst := by
    rintro t log s log' op ⟨rfl, rfl⟩ -
    rw [Stamped.erase_step, List.map_append]
    exact ⟨rfl, rfl⟩
  have hsim := Machine.run_sim
    (R := fun t log s log' => s = Stamped.erase t ∧ log' = log.map Prod.fst) hstep
    (s := .initial) (t := outputMailbox) ⟨rfl, rfl⟩ (fun op (_ : op ∈ ops) => trivial)
  exact hsim.2.symm

/-! ### Separation of sessions -/

/-- No session event follows a barrier that was sent after it. -/
def Separated (log : List (HelperEvent × List Nat)) : Prop :=
  log.Pairwise fun barrier event => barrier.1.isBarrier = true → event.1.isSessionEvent = true →
    ∀ i ∈ barrier.2, ∀ j ∈ event.2, i < j

instance (log : List (HelperEvent × List Nat)) : Decidable (Separated log) :=
  inferInstanceAs (Decidable (log.Pairwise _))

/-- Every `Reconnecting` of the run is sent while neither a frame nor a delta is waiting. -/
def ReconnectsQuietly (cap : Nat) (ops : List Op) : Prop :=
  ∀ k reason delay, ops[k]? = some (.send (.reconnecting reason delay)) →
    (reached cap (ops.take k)).latestFrame = none ∧ (reached cap (ops.take k)).pendingDeltas = []

/-- The send `i` was made before every send whose pixels are waiting. -/
structure Stamped.Before (t : Stamped) (i : Nat) : Prop where
  clock : i < t.clock
  frame : ∀ f, t.latestFrame = some f → i < f.2
  deltas : ∀ j ∈ t.carried, i < j

variable {log : List (HelperEvent × List Nat)} {t t' : Stamped}

/-- What a step may do to the waiting pixels: drop some, or add those of the send being made. -/
theorem Stamped.Before.mono {i : Nat} (h : t.Before i)
    (hclock : t.clock ≤ t'.clock)
    (hframe : ∀ f, t'.latestFrame = some f → t.latestFrame = some f ∨ f.2 = t.clock)
    (hdeltas : ∀ j ∈ t'.carried, j ∈ t.carried ∨ j = t.clock) : t'.Before i := by
  refine ⟨lt_of_lt_of_le h.clock hclock, fun f hf => ?_, fun j hj => ?_⟩
  · rcases hframe f hf with hold | hnew
    · exact h.frame f hold
    · exact hnew ▸ h.clock
  · rcases hdeltas j hj with hold | hnew
    · exact h.deltas j hold
    · exact hnew ▸ h.clock

/-- The stamps of the log and of the queues, relative to the barriers. -/
structure BarrierInv (log : List (HelperEvent × List Nat)) (t : Stamped) : Prop where
  separated : Separated log
  /-- A barrier handed out was sent before everything still queued. -/
  past : ∀ a ∈ log, a.1.isBarrier = true → ∀ i ∈ a.2, t.Before i ∧ ∀ c ∈ t.control, i < c.2
  /-- A queued barrier was sent before every pixel it will overtake. -/
  queued : ∀ c ∈ t.control, c.1.isBarrier = true → t.Before c.2
  /-- The control queue is in send order. -/
  order : t.control.Pairwise fun c d => c.2 < d.2
  fresh : ∀ c ∈ t.control, c.2 < t.clock

theorem BarrierInv.initial : BarrierInv [] .initial where
  separated := .nil
  past := by simp
  queued := by simp [Stamped.initial]
  order := .nil
  fresh := by simp [Stamped.initial]

/-- A send that leaves the control queue alone. -/
private theorem BarrierInv.sendPixels (h : BarrierInv log t)
    (hcontrol : t'.control = t.control) (hclock : t.clock ≤ t'.clock)
    (hmono : ∀ i, t.Before i → t'.Before i) : BarrierInv log t' := by
  refine ⟨h.separated, fun a ha hb i hi => ?_, ?_, ?_, ?_⟩
  · obtain ⟨hbefore, hcs⟩ := h.past a ha hb i hi
    exact ⟨hmono i hbefore, hcontrol ▸ hcs⟩
  · exact fun c hc hb => hmono _ (h.queued c (hcontrol ▸ hc) hb)
  · exact hcontrol ▸ h.order
  · exact fun c hc => lt_of_lt_of_le (h.fresh c (hcontrol ▸ hc)) hclock

/-- A send that keeps part of the control queue and puts the event sent at its back. The event may
be a barrier when it was sent before every pixel still waiting. -/
private theorem BarrierInv.sendControl {kept : List (HelperEvent × Nat)} {e : HelperEvent}
    (h : BarrierInv log t)
    (hkept : kept.Sublist t.control) (hcontrol : t'.control = kept ++ [(e, t.clock)])
    (hclock : t'.clock = t.clock + 1) (hmono : ∀ i, t.Before i → t'.Before i)
    (hbarrier : e.isBarrier = true → t'.Before t.clock) : BarrierInv log t' := by
  refine ⟨h.separated, fun a ha hb i hi => ?_, fun c hc hb => ?_, ?_, fun c hc => ?_⟩
  · obtain ⟨hbefore, hcs⟩ := h.past a ha hb i hi
    refine ⟨hmono i hbefore, fun c hc => ?_⟩
    rw [hcontrol] at hc
    -- an event that was kept, or the one that is sent now, with the newest stamp
    rcases List.mem_append.mp hc with hc | hc
    · exact hcs c (hkept.subset hc)
    · rw [List.mem_singleton.mp hc]; exact hbefore.clock
  · rw [hcontrol] at hc
    rcases List.mem_append.mp hc with hc | hc
    · exact hmono _ (h.queued c (hkept.subset hc) hb)
    · obtain rfl := List.mem_singleton.mp hc
      exact hbarrier hb
  · rw [hcontrol]
    refine List.pairwise_append.mpr ⟨h.order.sublist hkept, List.pairwise_singleton _ _, ?_⟩
    intro c hc d hd
    rw [List.mem_singleton.mp hd]
    exact h.fresh c (hkept.subset hc)
  · rw [hcontrol] at hc
    rw [hclock]
    rcases List.mem_append.mp hc with hc | hc
    · exact Nat.lt_succ_of_lt (h.fresh c (hkept.subset hc))
    · rw [List.mem_singleton.mp hc]; exact Nat.lt_succ_self _

/-- Handing out the frame or a delta: it was sent after every barrier handed out before. -/
private theorem BarrierInv.recvPixels {e : HelperEvent} {stamps : List Nat}
    (h : BarrierInv log t) (he : e.isBarrier = false)
    (hstamps : ∀ i, t.Before i → ∀ j ∈ stamps, i < j) (hcontrol : t'.control = t.control)
    (hclock : t'.clock = t.clock) (hmono : ∀ i, t.Before i → t'.Before i) :
    BarrierInv (log ++ [(e, stamps)]) t' := by
  have hkeep := h.sendPixels hcontrol hclock.ge hmono
  refine ⟨?_, fun a ha hb => ?_, hkeep.queued, hkeep.order, hkeep.fresh⟩
  · refine List.pairwise_append.mpr ⟨h.separated, List.pairwise_singleton _ _, ?_⟩
    intro a ha x hx hb _ i hi j hj
    obtain rfl := List.mem_singleton.mp hx
    exact hstamps i (h.past a ha hb i hi).1 j hj
  · rcases List.mem_append.mp ha with ha | ha
    · exact hkeep.past a ha hb
    · obtain rfl := List.mem_singleton.mp ha
      exact absurd hb (by simp [he])

/-- Handing out the oldest control event. -/
private theorem BarrierInv.recvControl {c : HelperEvent × Nat}
    {rest : List (HelperEvent × Nat)} (h : BarrierInv log t)
    (hc : t.control = c :: rest) :
    BarrierInv (log ++ [(c.1, [c.2])]) { t with control := rest } := by
  have hmem : c ∈ t.control := by rw [hc]; exact List.mem_cons_self
  have hrest : ∀ d ∈ rest, d ∈ t.control := fun d hd => by
    rw [hc]; exact List.mem_cons_of_mem _ hd
  have horder := h.order
  rw [hc, List.pairwise_cons] at horder
  have hkeep : ∀ i, t.Before i → Stamped.Before { t with control := rest } i :=
    fun i hi => ⟨hi.clock, hi.frame, hi.deltas⟩
  refine ⟨?_, fun a ha hb i hi => ?_, ?_, horder.2, fun d hd => h.fresh d (hrest d hd)⟩
  · refine List.pairwise_append.mpr ⟨h.separated, List.pairwise_singleton _ _, ?_⟩
    intro a ha x hx hb _ i hi j hj
    obtain rfl := List.mem_singleton.mp hx
    rw [List.mem_singleton.mp hj]
    exact (h.past a ha hb i hi).2 c hmem
  -- handed out before, or now
  · rcases List.mem_append.mp ha with ha | ha
    · obtain ⟨hbefore, hcs⟩ := h.past a ha hb i hi
      exact ⟨hkeep i hbefore, fun d hd => hcs d (hrest d hd)⟩
    · -- a barrier handed out now was sent before everything queued behind it
      obtain rfl := List.mem_singleton.mp ha
      rw [List.mem_singleton.mp hi]
      exact ⟨hkeep _ (h.queued c hmem hb), horder.1⟩
  · exact fun d hd hb => hkeep _ (h.queued d (hrest d hd) hb)

private theorem enqueue_eq (control : List (HelperEvent × Nat)) (event : HelperEvent × Nat) :
    ∃ kept, kept.Sublist control ∧ Stamped.enqueue control event = kept ++ [event] := by
  unfold Stamped.enqueue
  split
  · exact ⟨_, List.dropLast_sublist _, rfl⟩
  · exact ⟨_, List.Sublist.refl _, rfl⟩

theorem BarrierInv.send {cap : Nat} (h : BarrierInv log t) (e : HelperEvent)
    (hquiet : ∀ reason delay, e = .reconnecting reason delay →
      t.latestFrame = none ∧ t.pendingDeltas = []) : BarrierInv log (t.send cap e) := by
  -- neither the frame slot nor the delta queue changes for a control event
  have hmono : ∀ control, ∀ i, t.Before i →
      Stamped.Before { t with clock := t.clock + 1, control := control } i :=
    fun control i hi => hi.mono (Nat.le_succ _) (fun _ => .inl) (fun _ => .inl)
  -- nothing is waiting after a purge
  have hempty : ∀ control stamps, Stamped.Before ⟨t.clock + 1, control, none, [], stamps⟩ t.clock :=
    fun control stamps => ⟨Nat.lt_succ_self _, by simp, by simp [Stamped.carried]⟩
  cases e with
  | frameBgraBytes width height bgra =>
    -- the frame has the stamp of this send, and the deltas are gone
    refine h.sendPixels rfl (Nat.le_succ _) fun i hi => hi.mono (Nat.le_succ _) ?_ ?_
    · intro f hf
      rw [← Option.some.inj hf]
      exact .inr rfl
    · simp [Stamped.carried, Stamped.send]
  | frameBgraRects width height rects bgra =>
    -- the queue carries this send in addition to those it carried
    refine h.sendPixels rfl (Nat.le_succ _) fun i hi => hi.mono (Nat.le_succ _) (fun _ => .inl) ?_
    intro j hj
    rcases List.mem_append.mp (Stamped.mem_deltaStamps hj) with hj | hj
    · exact .inl hj
    · exact .inr (List.mem_singleton.mp hj)
  | connectionFailure | terminated =>
    -- a purge leaves nothing that could be overtaken
    refine h.sendControl List.filter_sublist rfl rfl (fun i hi => ?_) fun _ => hempty _ _
    exact hi.mono (Nat.le_succ _) (by simp [Stamped.send]) (by simp [Stamped.carried, Stamped.send])
  | reconnecting reason delay =>
    -- only cursor events are purged, but nothing else is waiting
    obtain ⟨hframe, hdeltas⟩ := hquiet reason delay rfl
    refine h.sendControl List.filter_sublist rfl rfl (hmono _) fun _ => ?_
    simpa [Stamped.send, hframe, hdeltas] using hempty _ _
  | _ =>
    -- any other control event is no barrier
    obtain ⟨kept, hkept, heq⟩ := enqueue_eq t.control (_, t.clock)
    exact h.sendControl hkept heq rfl (hmono _) fun hb => nomatch hb

theorem BarrierInv.recv {cap : Nat} (h : BarrierInv log t) (hsorted : Sorted t.erase) :
    BarrierInv (log ++ (t.step cap .recv).2) (t.step cap .recv).1 := by
  simp only [Stamped.step]
  split
  · next c rest hc => exact h.recvControl hc
  · split
    · next f hf =>
      have he : f.1.isFrame = true := hsorted.frame f.1 (by simp [Stamped.erase, hf])
      refine h.recvPixels (HelperEvent.isBarrier_of_isFrame he) (fun i hi j hj => ?_) rfl rfl
        fun i hi => ?_
      · rw [List.mem_singleton.mp hj]; exact hi.frame f hf
      · exact hi.mono le_rfl (by simp) (fun _ => .inl)
    · split
      · next d rest hd =>
        have he : d.isDelta = true := hsorted.deltas d (by simp [Stamped.erase, hd])
        refine h.recvPixels (HelperEvent.isBarrier_of_isDelta he) (fun i hi => hi.deltas) rfl rfl
          fun i hi => ?_
        refine hi.mono le_rfl (fun _ => .inl) fun j hj => .inl ?_
        -- the rest of the queue carries no stamp that the whole queue did not carry
        have hcarried : t.carried = t.deltaStamps := if_neg (by simp [hd])
        rw [hcarried]
        exact Stamped.mem_deltaStamps (t := { t with pendingDeltas := rest }) hj
      · simpa using h

/-- **Sessions are separated when they end quietly.** In every run in which no frame and no delta is
waiting whenever `Reconnecting` is sent, no frame, delta or cursor event sent before a barrier is
handed out after it. -/
theorem received_separated (cap : Nat) (ops : List Op) (hquiet : ReconnectsQuietly cap ops) :
    Separated (stampedLog cap ops) ∧ (stampedLog cap ops).map Prod.fst = received cap ops := by
  refine ⟨?_, stampedLog_erase cap ops⟩
  have hrun : BarrierInv (stampedLog cap ops) (Machine.run (Stamped.step cap) .initial ops).1 ∧
      Sorted (Machine.run (Stamped.step cap) .initial ops).1.erase ∧
      (Machine.run (Stamped.step cap) .initial ops).1.erase = reached cap ops :=
    Machine.run_history (P := fun pre => pre <+: ops)
    (H := fun pre log t => BarrierInv log t ∧ Sorted t.erase ∧ t.erase = reached cap pre)
    (fun pre op hpre => (List.prefix_append pre [op]).trans hpre)
    (fun pre log t op ⟨hinv, hsorted, hreached⟩ hpre => by
      have htrans := step_transition cap (s := t.erase) rfl op
      rw [Stamped.erase_step] at htrans
      refine ⟨?_, hsorted.step htrans, ?_⟩
      · cases op with
        | recv => exact hinv.recv hsorted
        | send e =>
          refine (List.append_nil log).symm ▸ hinv.send e fun reason delay he => ?_
          -- the condition on the run, read at this send
          have hnow := hquiet pre.length reason delay
          obtain ⟨post, rfl⟩ := hpre
          simp only [List.append_assoc, List.take_left, List.singleton_append] at hnow
          obtain ⟨hframe, hdeltas⟩ := hnow (by simp [he])
          rw [← hreached] at hframe hdeltas
          exact ⟨by simpa [Stamped.erase] using hframe, hdeltas⟩
      · rw [reached, Machine.run_concat, ← reached, ← hreached, Stamped.erase_step])
    ⟨.initial, .initial, rfl⟩ (List.prefix_refl ops)
  exact hrun.1.separated

/-- A run that reconnects after the frame was handed out, with a cursor and a new frame behind. -/
def quietRun : List Op :=
  [.send (.frame 1 1 [1, 1, 1, 255]), .send .cursorHidden, .recv, .recv,
    .send (.reconnecting .manual none), .send (.frame 1 1 [2, 2, 2, 255]), .recv, .recv]

theorem received_separated_quietRun :
    ReconnectsQuietly 4 quietRun ∧
      Separated [(.cursorHidden, [1]), (.frame 1 1 [1, 1, 1, 255], [0]),
        (.reconnecting .manual none, [2]), (.frame 1 1 [2, 2, 2, 255], [3])] := by
  have hquiet : ReconnectsQuietly 4 quietRun := by
    intro k reason delay hk
    have hquiet : (reached 4 (quietRun.take 4)).latestFrame = none ∧
        (reached 4 (quietRun.take 4)).pendingDeltas = [] := by decide +kernel
    rcases k with _ | _ | _ | _ | _ | k
    · nomatch hk
    · nomatch hk
    · nomatch hk
    · nomatch hk
    · exact hquiet
    · rcases k with _ | _ | _ | k <;> nomatch hk
  have hlog := (received_separated 4 quietRun hquiet).1
  have heq : stampedLog 4 quietRun
      = [(.cursorHidden, [1]), (.frame 1 1 [1, 1, 1, 255], [0]),
        (.reconnecting .manual none, [2]), (.frame 1 1 [2, 2, 2, 255], [3])] := by
    decide +kernel
  exact ⟨hquiet, heq ▸ hlog⟩

/-- `Reconnecting` overtakes a frame that was sent before it and is still waiting. -/
theorem reconnecting_overtakes_frame :
    stampedLog 4 [.send (.frame 1 1 [1, 1, 1, 255]), .send (.reconnecting .manual none), .recv,
        .recv]
        = [(.reconnecting .manual none, [1]), (.frame 1 1 [1, 1, 1, 255], [0])] ∧
      ¬ Separated (stampedLog 4 [.send (.frame 1 1 [1, 1, 1, 255]),
        .send (.reconnecting .manual none), .recv, .recv]) := by
  constructor <;> decide +kernel

end Mailbox
end Rdp
end Navop
