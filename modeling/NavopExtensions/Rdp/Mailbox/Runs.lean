import NavopExtensions.Rdp.Mailbox.Deltas

/-!
# Runs of the mailbox

What one call can do, said once. `Transition` has one rule for every branch of `send` and `recv` of
a mailbox whose receiver is alive; `step_transition` says that the transition function takes one of
them, and `history` is the induction every result about runs goes through.

The section on the representation invariant is the first of them: in every reachable state every
pending delta is well-formed for a size that was sent and respects the cap.
-/

namespace Navop
namespace Rdp
namespace Mailbox

/-- One call on a mailbox whose receiver is alive, branch by branch. -/
inductive Transition (cap : Nat) (s : State) : Op → State → List HelperEvent → Prop
  /-- A complete frame replaces the pending one and drops the pending deltas. -/
  | frame (e : HelperEvent) (he : e.isFrame = true) :
    Transition cap s (.send e) { s with latestFrame := some e, pendingDeltas := [] } []
  | delta (e : HelperEvent) (he : e.isDelta = true) :
    Transition cap s (.send e)
      { s with pendingDeltas := queueDeltaWithCap s.pendingDeltas e cap } []
  /-- `ConnectionFailure` and `Terminated` purge all three queues. -/
  | terminal (e : HelperEvent) (he : e.isTerminal = true) :
    Transition cap s (.send e)
      { s with
        latestFrame := none
        pendingDeltas := []
        control := discardPendingCursorEvents s.control ++ [e] } []
  /-- `Reconnecting` purges the cursor events only. -/
  | reconnecting (e : HelperEvent) (he : e.isBarrier = true) (ht : e.isTerminal = false) :
    Transition cap s (.send e)
      { s with control := discardPendingCursorEvents s.control ++ [e] } []
  | control (e : HelperEvent) (he : e.isControl = true) (hb : e.isBarrier = false) :
    Transition cap s (.send e) { s with control := enqueueControl s.control e } []
  | recvControl (e : HelperEvent) (rest : List HelperEvent) (hc : s.control = e :: rest) :
    Transition cap s .recv { s with control := rest } [e]
  | recvFrame (e : HelperEvent) (hc : s.control = []) (hf : s.latestFrame = some e) :
    Transition cap s .recv { s with latestFrame := none } [e]
  | recvDelta (e : HelperEvent) (rest : List HelperEvent) (hc : s.control = [])
    (hf : s.latestFrame = none) (hd : s.pendingDeltas = e :: rest) :
    Transition cap s .recv { s with pendingDeltas := rest } [e]
  /-- Nothing is queued: the call waits, or reports that every sender is gone. -/
  | idle (hs : s.Drained) : Transition cap s .recv s []

/-- The receiver stays alive: no call of a run drops it. -/
theorem Transition.receiverAlive {cap : Nat} {s s' : State} {op : Op} {out : List HelperEvent}
    (h : Transition cap s op s' out) : s'.receiverAlive = s.receiverAlive := by
  cases h <;> rfl

theorem step_transition (cap : Nat) {s : State} (h : s.receiverAlive = true) (op : Op) :
    Transition cap s op (step cap s op).1 (step cap s op).2 := by
  cases op with
  | send e =>
    obtain ⟨control, frame, deltas, senders, alive⟩ := s
    -- with the receiver alive, each branch of `send` is one rule
    obtain rfl : alive = true := h
    cases e with
    | frameBgraBytes => apply Transition.frame; rfl
    | frameBgraRects => apply Transition.delta; rfl
    | connectionFailure | terminated => apply Transition.terminal; rfl
    | reconnecting => apply Transition.reconnecting <;> rfl
    | _ => apply Transition.control <;> rfl
  | recv =>
    -- the three places in the order in which `recv` looks at them
    cases hc : s.control with
    | cons e rest =>
      have hrecv : recv s = .event e { s with control := rest } := by simp [recv, hc]
      simp only [step, hrecv]
      exact .recvControl e rest hc
    | nil =>
      cases hf : s.latestFrame with
      | some e =>
        have hrecv : recv s = .event e { s with latestFrame := none } := by simp [recv, hc, hf]
        simp only [step, hrecv]
        exact .recvFrame e hc hf
      | none =>
        cases hd : s.pendingDeltas with
        | cons e rest =>
          have hrecv : recv s = .event e { s with pendingDeltas := rest } := by
            simp [recv, hc, hf, hd]
          simp only [step, hrecv]
          exact .recvDelta e rest hc hf hd
        | nil =>
          have hstep : step cap s .recv = (s, []) := by
            simp only [step, recv, hc, hf, hd]
            split_ifs <;> rfl
          rw [hstep]
          exact .idle ⟨hc, hf, hd⟩

@[simp] theorem sentEvents_nil : sentEvents [] = [] := rfl

@[simp] theorem sentEvents_concat_send (ops : List Op) (e : HelperEvent) :
    sentEvents (ops ++ [.send e]) = sentEvents ops ++ [e] := by
  simp [sentEvents]

@[simp] theorem sentEvents_concat_recv (ops : List Op) :
    sentEvents (ops ++ [.recv]) = sentEvents ops := by
  simp [sentEvents]

/-- **History rule of the mailbox.** A relation between the calls made, the events received and
the state, kept by every transition, holds of every run from a fresh mailbox. -/
theorem history {cap : Nat} {H : List Op → List HelperEvent → State → Prop} {P : List Op → Prop}
    (hpre : ∀ ops op, P (ops ++ [op]) → P ops) (hinit : H [] [] outputMailbox)
    (hstep : ∀ ops outs s op s' out, H ops outs s → P (ops ++ [op]) → Transition cap s op s' out →
      H (ops ++ [op]) (outs ++ out) s')
    {ops : List Op} (hops : P ops) : H ops (received cap ops) (reached cap ops) := by
  -- no call drops the receiver, so every step is a transition
  have hrun := Machine.run_history
    (H := fun ops outs s => H ops outs s ∧ s.receiverAlive = true) hpre
    (fun ops outs s op hH hP => by
      have htrans := step_transition cap hH.2 op
      exact ⟨hstep ops outs s op _ _ hH.1 hP htrans, htrans.receiverAlive.trans hH.2⟩)
    ⟨hinit, rfl⟩ hops
  exact hrun.1

/-! ### The control queue -/

theorem mem_enqueueControl {control : List HelperEvent} {event e : HelperEvent}
    (h : e ∈ enqueueControl control event) : e ∈ control ∨ e = event := by
  unfold enqueueControl at h
  split at h
  all_goals
    rcases List.mem_append.mp h with h | h
    · first | exact Or.inl h | exact Or.inl (List.dropLast_subset _ h)
    · exact Or.inr (List.mem_singleton.mp h)

theorem mem_discardPendingCursorEvents {control : List HelperEvent} {e : HelperEvent} :
    e ∈ discardPendingCursorEvents control ↔ e ∈ control ∧ e.isCursor = false := by
  simp [discardPendingCursorEvents]

/-! ### The representation invariant -/

/-- The sizes for which a well-formed delta was sent. -/
def SentSize (ops : List Op) (width height : UInt16) : Prop :=
  ∃ e ∈ sentEvents ops, DeltaOk width height e

/-- Every sent delta is well-formed for its own size. -/
def DeltasWellFormed (ops : List Op) : Prop :=
  ∀ e ∈ sentEvents ops, e.isDelta = true → ∃ width height, DeltaOk width height e

/-- One transition keeps the representation invariant of the queue. -/
theorem Transition.queueOk {S : UInt16 → UInt16 → Prop} {cap : Nat} {s s' : State} {op : Op}
    {out : List HelperEvent} (h : Transition cap s op s' out)
    (hop : ∀ e, op = .send e → e.isDelta = true → DeltaIn S e)
    (hs : QueueOk S cap s.pendingDeltas) : QueueOk S cap s'.pendingDeltas := by
  cases h with
  | frame e he => exact fun _ hmem => absurd hmem (by simp)
  | delta e he => exact queueDeltaWithCap_ok hs (hop e rfl he)
  | terminal e he => exact fun _ hmem => absurd hmem (by simp)
  | reconnecting e he ht => exact hs
  | control e he hb => exact hs
  | recvControl e rest hc => exact hs
  | recvFrame e hc hf => exact hs
  | recvDelta e rest hc hf hd =>
    rw [hd] at hs
    exact fun event hevent => hs event (List.mem_cons_of_mem _ hevent)
  | idle => exact hs

/-- **Representation invariant.** In every reachable state every queued delta is well-formed for a
size some sent delta had, and its payload is at most the cap unless it is a single row. -/
theorem reached_pendingDeltas_wellFormed (cap : Nat) (ops : List Op)
    (hops : DeltasWellFormed ops) :
    ∀ e ∈ (reached cap ops).pendingDeltas,
      ∃ width height, SentSize ops width height ∧ DeltaOk width height e ∧ Capped cap e := by
  have hrun : QueueOk (SentSize ops) cap (reached cap ops).pendingDeltas := by
    refine history (P := fun pre => pre <+: ops)
      (H := fun _ _ s => QueueOk (SentSize ops) cap s.pendingDeltas) ?_ ?_ ?_ (List.prefix_refl ops)
    · exact fun pre op h => (List.prefix_append pre [op]).trans h
    · exact fun _ hmem => absurd hmem (by simp [outputMailbox])
    · intro pre outs s op s' out hs hpre htrans
      refine htrans.queueOk (fun e he hdelta => ?_) hs
      obtain ⟨post, hpost⟩ := hpre
      have hmem : e ∈ sentEvents ops := by
        rw [← hpost, he]
        simp [sentEvents]
      obtain ⟨width, height, hok⟩ := hops e hmem hdelta
      exact ⟨width, height, ⟨e, hmem, hok⟩, hok⟩
  intro e he
  obtain ⟨⟨width, height, hsize, hok⟩, hcap⟩ := hrun e he
  exact ⟨width, height, hsize, hok, hcap⟩

/-- A delta of one pixel in column `x` of a canvas of two pixels by one. -/
def pixelDelta (x : UInt16) (value : UInt8) : HelperEvent :=
  .frameBgraRects 2 1 [⟨x, 0, 1, 1, 4⟩] [value, value, value, 255]

/-- A single row that exceeds the cap of one byte stays queued, alone in its event. -/
theorem reached_pendingDeltas_wellFormed_pixel :
    (reached 1 [.send (pixelDelta 0 7)]).pendingDeltas = [pixelDelta 0 7] ∧
      ∃ width height, SentSize [.send (pixelDelta 0 7)] width height ∧
        DeltaOk width height (pixelDelta 0 7) ∧ Capped 1 (pixelDelta 0 7) := by
  have hreached : (reached 1 [.send (pixelDelta 0 7)]).pendingDeltas = [pixelDelta 0 7] := by
    decide +kernel
  have hops : DeltasWellFormed [.send (pixelDelta 0 7)] := by
    intro e he _
    rw [show e = pixelDelta 0 7 by simpa [sentEvents] using he]
    exact ⟨2, 1, by decide⟩
  refine ⟨hreached, reached_pendingDeltas_wellFormed 1 _ hops (pixelDelta 0 7) ?_⟩
  rw [hreached]
  exact List.mem_singleton_self _

end Mailbox
end Rdp
end Navop
