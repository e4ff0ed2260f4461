import NavopExtensions.Vnc.Mailbox

/-!
# Generations do not leak into each other

Outputs of a session must not reach the host after the session is over. To say which send an output
comes from, the mailbox is run with stamps (`Stamped`): every call has a number, a queued output
carries the number of its send, and the pending delta carries the numbers of the deltas it was
merged from. Erasing the stamps gives back the mailbox (`erase_step`), so the stamps are proof-only.

The invariant is `Isolated`: whatever is queued for a session was sent while the session was open and
nothing has closed it since. The calls that close a session also throw away what is queued for it, so
that the invariant has nothing to say after them.
-/

namespace Navop
namespace Vnc
namespace Mailbox

/-! ### The stamped mailbox -/

/-- The mailbox with the numbers of the sends. -/
structure Stamped where
  /-- The number of the next call. -/
  clock : ℕ
  control : List (RemoteDesktopOutput × ℕ)
  latestFrame : Option (RemoteDesktopOutput × ℕ)
  latestDelta : Option (RemoteDesktopOutput × List ℕ)
  acceptingSessionOutputs : Bool

/-- An output that was handed out, with the sends it comes from and the call that received it. -/
structure Handed where
  output : RemoteDesktopOutput
  sends : List ℕ
  receivedAt : ℕ
  deriving DecidableEq, Repr

namespace Stamped

/-- A fresh mailbox: nothing waits, and the clock stands at zero. -/
def initial : Stamped := ⟨0, [], none, none, true⟩

/-- Does an output overwrite the one at the back of the control queue? -/
def coalesces : Option RemoteDesktopOutput → RemoteDesktopOutput → Bool
  | some (.cursorPosition ..), .cursorPosition .. => true
  | some (.cursorBitmap ..), .cursorBitmap .. => true
  | _, _ => false

/-- `enqueueControl` with stamps: what coalesces takes the stamp of the later output. -/
def enqueue (control : List (RemoteDesktopOutput × ℕ)) (output : RemoteDesktopOutput × ℕ) :
    List (RemoteDesktopOutput × ℕ) :=
  (if coalesces (control.getLast?.map Prod.fst) output.1 then control.dropLast else control)
    ++ [output]

/-- `closeSessionOutputs` with stamps. -/
def close (t : Stamped) : Stamped :=
  { t with
    latestFrame := none
    latestDelta := none
    acceptingSessionOutputs := false
    control := t.control.filter fun output => !output.1.isSessionScopedControl }

/-- `accept` with stamps. -/
def accept (t : Stamped) (output : RemoteDesktopOutput) : Stamped :=
  match output with
  | .reconnecting .. => { t.close with control := t.close.control ++ [(output, t.clock)] }
  | .connected .. =>
    { t with acceptingSessionOutputs := true, control := t.control ++ [(output, t.clock)] }
  | .frame .. =>
    if t.acceptingSessionOutputs then
      { t with latestFrame := some (output, t.clock), latestDelta := none }
    else t
  | .frameBgraRects .. =>
    if t.acceptingSessionOutputs then
      { t with
        latestDelta := some (match t.latestDelta with
          | some previous => (mergeDeltas previous.1 output, previous.2 ++ [t.clock])
          | none => (output, [t.clock])) }
    else t
  | .connectionFailure .. | .terminated .. =>
    { t.close with control := t.close.control ++ [(output, t.clock)] }
  | control =>
    if control.isSessionScopedControl && !t.acceptingSessionOutputs then t
    else { t with control := enqueue t.control (control, t.clock) }

/-- `recv` with stamps. -/
def recv (t : Stamped) : Stamped × List Handed :=
  match t.control with
  | control :: rest => ({ t with control := rest }, [⟨control.1, [control.2], t.clock⟩])
  | [] =>
    match t.latestFrame with
    | some frame => ({ t with latestFrame := none }, [⟨frame.1, [frame.2], t.clock⟩])
    | none =>
      match t.latestDelta with
      | some delta => ({ t with latestDelta := none }, [⟨delta.1, delta.2, t.clock⟩])
      | none => (t, [])

/-- The next call. -/
def tick (t : Stamped) : Stamped := { t with clock := t.clock + 1 }

/-- One call with stamps. -/
def step (t : Stamped) : Op → Stamped × List Handed
  | .beginGeneration => (t.close.tick, [])
  | .send output => ((t.accept output).tick, [])
  | .recv => (t.recv.1.tick, t.recv.2)

/-- Forget the stamps: what is left is a state of the mailbox. -/
def erase (t : Stamped) : State where
  control := t.control.map Prod.fst
  latestFrame := t.latestFrame.map Prod.fst
  latestDelta := t.latestDelta.map Prod.fst
  acceptingSessionOutputs := t.acceptingSessionOutputs
  senderCount := 1
  receiverAlive := true

@[simp] theorem erase_tick (t : Stamped) : t.tick.erase = t.erase := rfl

theorem erase_enqueue (control : List (RemoteDesktopOutput × ℕ))
    (output : RemoteDesktopOutput × ℕ) :
    (enqueue control output).map Prod.fst = enqueueControl (control.map Prod.fst) output.1 := by
  obtain ⟨e, stamp⟩ := output
  unfold enqueue enqueueControl
  rw [List.getLast?_map]
  -- whether the output at the back is overwritten depends on its kind alone
  generalize control.getLast?.map Prod.fst = last
  cases last with
  | none => simp [coalesces]
  | some last => cases last <;> cases e <;> simp [coalesces, List.map_dropLast]

theorem erase_close (t : Stamped) : t.close.erase = closeSessionOutputs t.erase := by
  simp [close, erase, closeSessionOutputs, discardPendingSessionControls, List.filter_map,
    Function.comp_def]

theorem erase_accept (t : Stamped) (output : RemoteDesktopOutput) :
    (t.accept output).erase = Mailbox.accept t.erase output := by
  -- the stamps are carried along and decide nothing
  cases output with
  | reconnecting reconnect =>
    simp only [accept, Mailbox.accept, ← t.erase_close]
    simp [erase]
  | connectionFailure message =>
    simp only [accept, Mailbox.accept, ← t.erase_close]
    simp [erase]
  | terminated message =>
    simp only [accept, Mailbox.accept, ← t.erase_close]
    simp [erase]
  | connected width height capabilities => simp [accept, Mailbox.accept, erase]
  | frame width height rgba =>
    simp only [accept, Mailbox.accept]
    by_cases haccepting : t.acceptingSessionOutputs = true <;> simp [haccepting, erase]
  | frameBgraRects width height rects bgra =>
    simp only [accept, Mailbox.accept]
    by_cases haccepting : t.acceptingSessionOutputs = true
    · cases hdelta : t.latestDelta <;> simp [haccepting, erase, hdelta]
    · simp [haccepting, erase]
  | _ =>
    simp only [accept, Mailbox.accept]
    by_cases haccepting : t.acceptingSessionOutputs = true <;>
      simp [haccepting, erase, erase_enqueue, RemoteDesktopOutput.isSessionScopedControl]

/-- The stamps do not change what the mailbox does. -/
theorem erase_step (t : Stamped) (op : Op) :
    Mailbox.step t.erase op
      = ((t.step op).1.erase, (t.step op).2.map Handed.output) := by
  cases op with
  | beginGeneration => exact Prod.ext t.erase_close.symm rfl
  | send output => exact Prod.ext (t.erase_accept output).symm rfl
  | recv =>
    obtain ⟨clock, control, frame, delta, accepting⟩ := t
    cases control with
    | cons c rest => rfl
    | nil =>
      cases frame with
      | some f => rfl
      | none => cases delta <;> rfl

end Stamped

/-- The run with stamps. -/
def stampedRun (ops : List Op) : Stamped × List Handed := Machine.run Stamped.step .initial ops

/-- The stamped run is the run, with stamps. -/
theorem stampedRun_erase (ops : List Op) :
    (stampedRun ops).1.erase = reached ops ∧
      (stampedRun ops).2.map Handed.output = received ops := by
  refine Machine.run_sim (P := fun _ => True)
    (R := fun t log s outs => Stamped.erase t = s ∧ log.map Handed.output = outs) ?_ ⟨rfl, rfl⟩
    (fun _ _ => trivial)
  rintro t log s outs op ⟨rfl, rfl⟩ -
  rw [Stamped.erase_step, List.map_append]
  exact ⟨rfl, rfl⟩

/-! ### Sessions -/

/-- The calls that end a session. -/
def Op.closes : Op → Bool
  | .beginGeneration => true
  | .send output => output.closes
  | .recv => false

/-- A session is ended by the call with this number. -/
def ClosesAt (ops : List Op) (k : ℕ) : Prop := ∃ op, ops[k]? = some op ∧ op.closes = true

/-- `Connected` is sent by the call with this number. -/
def ConnectsAt (ops : List Op) (k : ℕ) : Prop :=
  ∃ width height capabilities, ops[k]? = some (.send (.connected width height capabilities))

/-- The session is open before the call with this number: none has been ended yet, or `Connected` was
sent since the last one was. -/
def OpenAt (ops : List Op) (i : ℕ) : Prop :=
  (∀ k < i, ¬ ClosesAt ops k) ∨
    ∃ k < i, ConnectsAt ops k ∧ ∀ j, k < j → j < i → ¬ ClosesAt ops j

/-- The output is the one of the first of these sends, with the others merged into it. -/
def CarriedFrom (ops : List Op) (sends : List ℕ) (output : RemoteDesktopOutput) : Prop :=
  ∃ first rest, sends.map (fun i => ops[i]?) = (first :: rest).map (fun o => some (Op.send o)) ∧
    output = rest.foldl mergeDeltas first

/-- Sent in an open session, which nothing has ended up to the call with number `r`. -/
def Current (ops : List Op) (i r : ℕ) : Prop :=
  OpenAt ops i ∧ ∀ k, i < k → k < r → ¬ ClosesAt ops k

/-- Outputs that come from current sends. -/
def CurrentFrom (ops : List Op) (sends : List ℕ) (r : ℕ) (output : RemoteDesktopOutput) : Prop :=
  CarriedFrom ops sends output ∧ ∀ i ∈ sends, Current ops i r

variable {ops : List Op} {t : Stamped} {log : List Handed}

theorem OpenAt.next {i : ℕ} (h : OpenAt ops i) (hopen : ¬ ClosesAt ops i) : OpenAt ops (i + 1) := by
  obtain hnever | ⟨k, hk, hconnects, hsince⟩ := h
  · left
    intro k hk
    obtain hlt | rfl := Nat.lt_succ_iff_lt_or_eq.mp hk
    · exact hnever k hlt
    · exact hopen
  · right
    refine ⟨k, Nat.lt_succ_of_lt hk, hconnects, ?_⟩
    intro j hkj hj
    obtain hlt | rfl := Nat.lt_succ_iff_lt_or_eq.mp hj
    · exact hsince j hkj hlt
    · exact hopen

theorem ConnectsAt.openAt {i : ℕ} (h : ConnectsAt ops i) : OpenAt ops (i + 1) :=
  .inr ⟨i, Nat.lt_succ_self i, h, fun _ hj hj' => absurd hj (Nat.not_lt.mpr (Nat.lt_succ_iff.mp hj'))⟩

theorem Current.next {i r : ℕ} (h : Current ops i r) (hopen : ¬ ClosesAt ops r) :
    Current ops i (r + 1) := by
  refine ⟨h.1, ?_⟩
  intro k hik hk
  obtain hlt | rfl := Nat.lt_succ_iff_lt_or_eq.mp hk
  · exact h.2 k hik hlt
  · exact hopen

theorem CurrentFrom.next {sends : List ℕ} {r : ℕ} {output : RemoteDesktopOutput}
    (h : CurrentFrom ops sends r output) (hopen : ¬ ClosesAt ops r) :
    CurrentFrom ops sends (r + 1) output :=
  ⟨h.1, fun i hi => (h.2 i hi).next hopen⟩

/-- An output that is being sent in an open session. -/
theorem CurrentFrom.sent {i : ℕ} {output : RemoteDesktopOutput} (h : OpenAt ops i)
    (hsend : ops[i]? = some (.send output)) : CurrentFrom ops [i] (i + 1) output := by
  refine ⟨⟨output, [], by simp [hsend], rfl⟩, ?_⟩
  intro j hj
  obtain rfl := List.mem_singleton.mp hj
  exact ⟨h, fun k hk hk' => absurd hk (Nat.not_lt.mpr (Nat.lt_succ_iff.mp hk'))⟩

/-- A delta that is being merged into the pending one. -/
theorem CurrentFrom.merged {sends : List ℕ} {i : ℕ} {previous output : RemoteDesktopOutput}
    (hprevious : CurrentFrom ops sends (i + 1) previous) (h : OpenAt ops i)
    (hsend : ops[i]? = some (.send output)) :
    CurrentFrom ops (sends ++ [i]) (i + 1) (mergeDeltas previous output) := by
  obtain ⟨⟨first, rest, hsends, rfl⟩, hcurrent⟩ := hprevious
  refine ⟨⟨first, rest ++ [output], ?_, ?_⟩, ?_⟩
  · rw [List.map_append, hsends]
    simp [hsend]
  · rw [List.foldl_append]
    rfl
  · intro j hj
    obtain hj | hj := List.mem_append.mp hj
    · exact hcurrent j hj
    · exact (CurrentFrom.sent h hsend).2 j hj

/-! ### The invariant -/

/-- Whatever is queued for a session, or has been handed out for one, is current. -/
structure Isolated (ops : List Op) (log : List Handed) (t : Stamped) : Prop where
  accepting : t.acceptingSessionOutputs = true → OpenAt ops t.clock
  noPicture : ∀ c ∈ t.control, c.1.isPicture = false
  control : ∀ c ∈ t.control, c.1.isSessionScopedControl = true →
    CurrentFrom ops [c.2] t.clock c.1
  frame : ∀ f, t.latestFrame = some f → CurrentFrom ops [f.2] t.clock f.1
  delta : ∀ d, t.latestDelta = some d → CurrentFrom ops d.2 t.clock d.1
  handed : ∀ h ∈ log, h.output.isSessionScoped = true →
    CurrentFrom ops h.sends h.receivedAt h.output

theorem Isolated.initial (ops : List Op) : Isolated ops [] .initial where
  accepting _ := .inl fun k hk => absurd hk (Nat.not_lt_zero k)
  noPicture c hc := absurd hc List.not_mem_nil
  control c hc := absurd hc List.not_mem_nil
  frame f hf := absurd hf (by simp [Stamped.initial])
  delta d hd := absurd hd (by simp [Stamped.initial])
  handed h hh := absurd hh List.not_mem_nil

/-- A call that ends no session and queues nothing. -/
theorem Isolated.tick (h : Isolated ops log t) (hopen : ¬ ClosesAt ops t.clock) :
    Isolated ops log t.tick where
  accepting haccepting := (h.accepting haccepting).next hopen
  noPicture := h.noPicture
  control c hc hscoped := (h.control c hc hscoped).next hopen
  frame f hf := (h.frame f hf).next hopen
  delta d hd := (h.delta d hd).next hopen
  handed := h.handed

/-- The end of a session leaves nothing that belongs to it. -/
theorem Isolated.close (h : Isolated ops log t) : Isolated ops log t.close.tick where
  accepting haccepting := absurd haccepting Bool.false_ne_true
  noPicture c hc := h.noPicture c (List.mem_filter.mp hc).1
  control c hc hscoped := by
    have hkept := (List.mem_filter.mp hc).2
    rw [hscoped] at hkept
    exact absurd hkept (by simp)
  frame f hf := absurd hf (by simp [Stamped.close, Stamped.tick])
  delta d hd := absurd hd (by simp [Stamped.close, Stamped.tick])
  handed := h.handed

/-- One more control output at the back of what is left of the queue. -/
theorem Isolated.enqueue (h : Isolated ops log t) {kept : List (RemoteDesktopOutput × ℕ)}
    (hkept : ∀ c ∈ kept, c ∈ t.control) {c : RemoteDesktopOutput × ℕ}
    (hpicture : c.1.isPicture = false)
    (hcurrent : c.1.isSessionScopedControl = true → CurrentFrom ops [c.2] t.clock c.1) :
    Isolated ops log { t with control := kept ++ [c] } := by
  refine ⟨h.accepting, ?_, ?_, h.frame, h.delta, h.handed⟩
  · intro c' hc'
    obtain hc' | hc' := List.mem_append.mp hc'
    · exact h.noPicture c' (hkept c' hc')
    · rw [List.mem_singleton.mp hc']
      exact hpicture
  · intro c' hc'
    obtain hc' | hc' := List.mem_append.mp hc'
    · exact h.control c' (hkept c' hc')
    · rw [List.mem_singleton.mp hc']
      exact hcurrent

/-- An output that ends a session is queued behind what is left. -/
theorem Isolated.closeWith (h : Isolated ops log t) {output : RemoteDesktopOutput}
    (hcloses : output.closes = true) :
    Isolated ops log { t.close with control := t.close.control ++ [(output, t.clock)] }.tick := by
  have hlifecycle : output.isPicture = false ∧ output.isSessionScopedControl = false := by
    cases output <;> simp_all [RemoteDesktopOutput.closes, RemoteDesktopOutput.isPicture,
      RemoteDesktopOutput.isSessionScopedControl]
  refine h.close.enqueue (c := (output, t.clock)) (fun _ hc => hc) hlifecycle.1 fun hscoped => ?_
  rw [hlifecycle.2] at hscoped
  exact absurd hscoped Bool.false_ne_true

/-- A control output that ends no session. -/
theorem Isolated.sendControl (h : Isolated ops log t) {output : RemoteDesktopOutput}
    (hsend : ops[t.clock]? = some (.send output)) (hopen : ¬ ClosesAt ops t.clock)
    (hpicture : output.isPicture = false) :
    Isolated ops log (if output.isSessionScopedControl && !t.acceptingSessionOutputs then t
      else { t with control := Stamped.enqueue t.control (output, t.clock) }).tick := by
  split
  · exact h.tick hopen
  · next hnot =>
    have hkept : ∃ kept, (∀ c ∈ kept, c ∈ t.control) ∧
        Stamped.enqueue t.control (output, t.clock) = kept ++ [(output, t.clock)] := by
      unfold Stamped.enqueue
      split
      · exact ⟨_, fun _ hc => List.dropLast_subset _ hc, rfl⟩
      · exact ⟨_, fun _ hc => hc, rfl⟩
    obtain ⟨kept, hkept, henqueue⟩ := hkept
    rw [henqueue]
    refine (h.tick hopen).enqueue hkept hpicture fun hscoped => ?_
    -- the output is queued only because the session is open
    rw [hscoped, Bool.true_and, Bool.not_eq_true, Bool.not_eq_false'] at hnot
    exact CurrentFrom.sent (h.accepting hnot) hsend

theorem Isolated.send (h : Isolated ops log t) {output : RemoteDesktopOutput}
    (hsend : ops[t.clock]? = some (.send output)) :
    Isolated ops log (t.accept output).tick := by
  -- an output that closes nothing leaves the generation open
  have hopen : output.closes = false → ¬ ClosesAt ops t.clock := by
    rintro hno ⟨op, hop, hcloses⟩
    rw [hsend] at hop
    rw [← Option.some.inj hop, Op.closes, hno] at hcloses
    exact absurd hcloses Bool.false_ne_true
  cases output with
  | reconnecting reconnect => exact h.closeWith rfl
  | connectionFailure message => exact h.closeWith rfl
  | terminated message => exact h.closeWith rfl
  | connected width height capabilities =>
    have hqueued := (h.tick (hopen rfl)).enqueue (c := (_, t.clock)) (fun _ hc => hc)
      (show RemoteDesktopOutput.isPicture (.connected width height capabilities) = false from rfl)
      (fun hscoped => absurd hscoped Bool.false_ne_true)
    have hconnects : ConnectsAt ops t.clock := ⟨width, height, capabilities, hsend⟩
    exact ⟨fun _ => hconnects.openAt, hqueued.noPicture, hqueued.control, hqueued.frame,
      hqueued.delta, hqueued.handed⟩
  | frame width height rgba =>
    have hkeep := h.tick (hopen rfl)
    simp only [Stamped.accept]
    split
    · next haccepting =>
      refine ⟨hkeep.accepting, hkeep.noPicture, hkeep.control, ?_, ?_, hkeep.handed⟩
      · intro f hf
        rw [← Option.some.inj hf]
        exact CurrentFrom.sent (h.accepting haccepting) hsend
      · intro d hd
        exact absurd hd (by simp [Stamped.tick])
    · exact hkeep
  | frameBgraRects width height rects bgra =>
    have hkeep := h.tick (hopen rfl)
    simp only [Stamped.accept]
    split
    · next haccepting =>
      refine ⟨hkeep.accepting, hkeep.noPicture, hkeep.control, hkeep.frame, ?_, hkeep.handed⟩
      intro d hd
      cases hdelta : t.latestDelta with
      | none =>
        simp only [Stamped.tick, hdelta] at hd
        rw [← Option.some.inj hd]
        exact CurrentFrom.sent (h.accepting haccepting) hsend
      | some previous =>
        simp only [Stamped.tick, hdelta] at hd
        rw [← Option.some.inj hd]
        -- the two deltas that are merged are of one generation
        exact (hkeep.delta previous hdelta).merged (h.accepting haccepting) hsend
    · exact hkeep
  | _ => exact h.sendControl hsend (hopen rfl) rfl

theorem Isolated.recv (h : Isolated ops log t) (hrecv : ops[t.clock]? = some .recv) :
    Isolated ops (log ++ t.recv.2) t.recv.1.tick := by
  have hopen : ¬ ClosesAt ops t.clock := by
    rintro ⟨op, hop, hcloses⟩
    rw [hrecv] at hop
    rw [← Option.some.inj hop] at hcloses
    exact absurd hcloses Bool.false_ne_true
  have hkeep := h.tick hopen
  -- what is handed out is current at this call
  have hlog : ∀ entry : Handed, (entry.output.isSessionScoped = true →
      CurrentFrom ops entry.sends entry.receivedAt entry.output) →
      ∀ h ∈ log ++ [entry], h.output.isSessionScoped = true →
        CurrentFrom ops h.sends h.receivedAt h.output := by
    intro entry hentry h' hh'
    obtain hh' | hh' := List.mem_append.mp hh'
    · exact h.handed h' hh'
    · rw [List.mem_singleton.mp hh']
      exact hentry
  unfold Stamped.recv
  split
  · next c rest hc =>
    have hmem : ∀ c' ∈ rest, c' ∈ t.control := by
      intro c' hc'
      rw [hc]
      exact List.mem_cons_of_mem _ hc'
    refine ⟨hkeep.accepting, fun c' hc' => hkeep.noPicture c' (hmem c' hc'),
      fun c' hc' => hkeep.control c' (hmem c' hc'), hkeep.frame, hkeep.delta, hlog _ ?_⟩
    intro hscoped
    have hfirst : c ∈ t.control := by rw [hc]; exact List.mem_cons_self
    have hsession : c.1.isSessionScopedControl = true := by
      simpa [RemoteDesktopOutput.isSessionScoped, h.noPicture c hfirst] using hscoped
    exact h.control c hfirst hsession
  · split
    · next f hf =>
      exact ⟨hkeep.accepting, hkeep.noPicture, hkeep.control,
        fun f' hf' => absurd hf' (by simp [Stamped.tick]), hkeep.delta,
        hlog _ fun _ => h.frame f hf⟩
    · split
      · next d hd =>
        exact ⟨hkeep.accepting, hkeep.noPicture, hkeep.control, hkeep.frame,
          fun d' hd' => absurd hd' (by simp [Stamped.tick]), hlog _ fun _ => h.delta d hd⟩
      · rw [List.append_nil]
        exact hkeep

theorem Isolated.step (h : Isolated ops log t) {op : Op} (hop : ops[t.clock]? = some op) :
    Isolated ops (log ++ (t.step op).2) (t.step op).1 := by
  cases op with
  | beginGeneration =>
    rw [show (t.step .beginGeneration).2 = [] from rfl, List.append_nil]
    exact h.close
  | send output =>
    rw [show (t.step (.send output)).2 = [] from rfl, List.append_nil]
    exact h.send hop
  | recv => exact h.recv hop

theorem Stamped.clock_accept (t : Stamped) (output : RemoteDesktopOutput) :
    (t.accept output).clock = t.clock := by
  cases output <;> simp only [accept, close] <;> first | rfl | (split <;> rfl)

theorem Stamped.clock_step (t : Stamped) (op : Op) : (t.step op).1.clock = t.clock + 1 := by
  cases op with
  | beginGeneration => rfl
  | send output =>
    change (t.accept output).clock + 1 = t.clock + 1
    rw [t.clock_accept]
  | recv =>
    change t.recv.1.clock + 1 = t.clock + 1
    unfold recv
    split
    · rfl
    · split
      · rfl
      · split <;> rfl

/-- Every run, with the numbers of its calls. -/
theorem isolated_run (ops : List Op) : Isolated ops (stampedRun ops).2 (stampedRun ops).1 := by
  have hrun : (stampedRun ops).1.clock = ops.length ∧
      Isolated ops (stampedRun ops).2 (stampedRun ops).1 := by
    refine Machine.run_history (P := fun pre => pre <+: ops)
      (H := fun pre log t => Stamped.clock t = pre.length ∧ Isolated ops log t)
      (fun pre op hpre => (List.prefix_append pre [op]).trans hpre) ?_ ⟨rfl, .initial ops⟩
      List.prefix_rfl
    rintro pre log t op ⟨hclock, h⟩ ⟨post, hpost⟩
    refine ⟨?_, h.step ?_⟩
    · rw [t.clock_step, hclock, List.length_append, List.length_singleton]
    · rw [hclock, ← hpost]
      simp
  exact hrun.2

/-! ### Outputs of the connection -/

theorem filter_lifecycle_enqueueControl (control : List RemoteDesktopOutput)
    (output : RemoteDesktopOutput) :
    (enqueueControl control output).filter RemoteDesktopOutput.isLifecycle
      = control.filter RemoteDesktopOutput.isLifecycle
        ++ [output].filter RemoteDesktopOutput.isLifecycle := by
  -- an overwritten output and the one overwriting it are both filtered out
  have hoverwrite : ∀ old new : RemoteDesktopOutput, control.getLast? = some old →
      old.isLifecycle = false → new.isLifecycle = false →
      (control.dropLast ++ [new]).filter RemoteDesktopOutput.isLifecycle
        = control.filter RemoteDesktopOutput.isLifecycle
          ++ [new].filter RemoteDesktopOutput.isLifecycle := by
    intro old new hlast hold hnew
    conv_rhs => rw [← List.dropLast_append_getLast? old hlast]
    simp [hold, hnew]
  unfold enqueueControl
  split
  · next hlast => exact hoverwrite _ _ hlast rfl rfl
  · next hlast => exact hoverwrite _ _ hlast rfl rfl
  · exact List.filter_append _ _

theorem filter_lifecycle_discard (control : List RemoteDesktopOutput) :
    (discardPendingSessionControls control).filter RemoteDesktopOutput.isLifecycle
      = control.filter RemoteDesktopOutput.isLifecycle := by
  rw [discardPendingSessionControls, List.filter_filter]
  refine List.filter_congr ?_
  intro output _
  cases output <;> rfl

/-- Sending adds the output to those that the queue keeps for the host. -/
theorem filter_lifecycle_accept (s : State) (output : RemoteDesktopOutput) :
    (accept s output).control.filter RemoteDesktopOutput.isLifecycle
      = s.control.filter RemoteDesktopOutput.isLifecycle
        ++ [output].filter RemoteDesktopOutput.isLifecycle := by
  cases output with
  | reconnecting reconnect => simp [accept, closeSessionOutputs, filter_lifecycle_discard]
  | connectionFailure message => simp [accept, closeSessionOutputs, filter_lifecycle_discard]
  | terminated message => simp [accept, closeSessionOutputs, filter_lifecycle_discard]
  | connected width height capabilities => simp [accept]
  | status message => exact filter_lifecycle_enqueueControl s.control _
  | frame width height rgba =>
    simp only [accept]
    split <;> simp [RemoteDesktopOutput.isLifecycle]
  | frameBgraRects width height rects bgra =>
    simp only [accept]
    split <;> simp [RemoteDesktopOutput.isLifecycle]
  | _ =>
    simp only [accept]
    split
    · simp [RemoteDesktopOutput.isLifecycle]
    · exact filter_lifecycle_enqueueControl s.control _

/-- What tells the host about the connection is neither lost, duplicated nor reordered. -/
structure Relayed (ops : List Op) (outs : List RemoteDesktopOutput) (s : State) : Prop where
  alive : s.receiverAlive = true
  lifecycle : (sentOutputs ops).filter RemoteDesktopOutput.isLifecycle
    = outs.filter RemoteDesktopOutput.isLifecycle
      ++ s.control.filter RemoteDesktopOutput.isLifecycle
  frame : ∀ f, s.latestFrame = some f → f.isLifecycle = false
  delta : ∀ d, s.latestDelta = some d → d.isLifecycle = false

theorem mergeDeltas_isLifecycle {previous next : RemoteDesktopOutput}
    (h : next.isLifecycle = false) : (mergeDeltas previous next).isLifecycle = false := by
  unfold mergeDeltas
  split
  · split
    · rfl
    · exact h
  · exact h

theorem accept_alive (s : State) (output : RemoteDesktopOutput) :
    (accept s output).receiverAlive = s.receiverAlive := by
  cases output <;> simp only [accept, closeSessionOutputs] <;> first | rfl | (split <;> rfl)

/-- The two slots hold pictures only. -/
theorem accept_slots {s : State} (output : RemoteDesktopOutput)
    (hframe : ∀ f, s.latestFrame = some f → f.isLifecycle = false)
    (hdelta : ∀ d, s.latestDelta = some d → d.isLifecycle = false) :
    (∀ f, (accept s output).latestFrame = some f → f.isLifecycle = false) ∧
      ∀ d, (accept s output).latestDelta = some d → d.isLifecycle = false := by
  -- only pictures go into the two slots, and closing empties them
  cases output with
  | reconnecting reconnect => simp [accept, closeSessionOutputs]
  | connectionFailure message => simp [accept, closeSessionOutputs]
  | terminated message => simp [accept, closeSessionOutputs]
  | connected width height capabilities => exact ⟨hframe, hdelta⟩
  | frame width height rgba =>
    simp only [accept]
    split
    · simp [RemoteDesktopOutput.isLifecycle]
    · exact ⟨hframe, hdelta⟩
  | frameBgraRects width height rects bgra =>
    simp only [accept]
    split
    · refine ⟨hframe, ?_⟩
      intro d hd
      rw [← Option.some.inj hd]
      cases s.latestDelta with
      | none => rfl
      | some previous => exact mergeDeltas_isLifecycle rfl
    · exact ⟨hframe, hdelta⟩
  | _ =>
    simp only [accept]
    split <;> exact ⟨hframe, hdelta⟩

theorem Relayed.step {outs : List RemoteDesktopOutput} {s : State} (h : Relayed ops outs s)
    (op : Op) : Relayed (ops ++ [op]) (outs ++ (step s op).2) (step s op).1 := by
  cases op with
  | beginGeneration =>
    refine ⟨h.alive, ?_, by simp [Mailbox.step, beginGeneration, closeSessionOutputs],
      by simp [Mailbox.step, beginGeneration, closeSessionOutputs]⟩
    change _ = _ ++ (discardPendingSessionControls s.control).filter _
    -- what is discarded is session-scoped, and a lifecycle event is not
    rw [filter_lifecycle_discard]
    simpa [sentOutputs, Mailbox.step] using h.lifecycle
  | send output =>
    have hstep : Mailbox.step s (.send output) = (accept s output, []) := by
      simp [Mailbox.step, send, h.alive]
    rw [hstep]
    obtain ⟨hframe, hdelta⟩ := accept_slots output h.frame h.delta
    refine ⟨(accept_alive s output).trans h.alive, ?_, hframe, hdelta⟩
    have hsent : sentOutputs (ops ++ [.send output]) = sentOutputs ops ++ [output] := by
      simp [sentOutputs]
    rw [hsent, List.filter_append, h.lifecycle, filter_lifecycle_accept, List.append_nil,
      List.append_assoc]
  | recv =>
    have hsent : sentOutputs (ops ++ [.recv]) = sentOutputs ops := by simp [sentOutputs]
    obtain ⟨control, frame, delta, accepting, senders, alive⟩ := s
    have hlifecycle := h.lifecycle
    cases control with
    | cons c rest =>
      refine ⟨h.alive, ?_, h.frame, h.delta⟩
      have hsplit : (c :: rest).filter RemoteDesktopOutput.isLifecycle
          = [c].filter RemoteDesktopOutput.isLifecycle
            ++ rest.filter RemoteDesktopOutput.isLifecycle := List.filter_append [c] rest
      rw [hsent, hlifecycle, List.filter_append, List.append_assoc]
      exact congrArg _ hsplit
    | nil =>
      rw [List.filter_nil, List.append_nil] at hlifecycle
      cases frame with
      | some f =>
        -- a picture is handed out, which is none either
        have hf : f.isLifecycle = false := h.frame f rfl
        refine ⟨h.alive, ?_, by simp [Mailbox.step, recv], h.delta⟩
        rw [hsent, hlifecycle]
        simp [Mailbox.step, recv, hf]
      | none =>
        cases delta with
        | some d =>
          have hd : d.isLifecycle = false := h.delta d rfl
          refine ⟨h.alive, ?_, h.frame, by simp [Mailbox.step, recv]⟩
          rw [hsent, hlifecycle]
          simp [Mailbox.step, recv, hd]
        | none =>
          refine ⟨h.alive, ?_, h.frame, h.delta⟩
          rw [hsent, hlifecycle]
          simp [Mailbox.step, recv]

theorem relayed_run (ops : List Op) : Relayed ops (received ops) (reached ops) :=
  Machine.run_history (P := fun _ => True) (fun _ _ _ => trivial)
    (fun _ _ _ op h _ => h.step op) ⟨rfl, rfl, by simp [outputMailbox], by simp [outputMailbox]⟩
    trivial

/-- However the calls interleave: an output that belongs to a session is handed out only while that
session lasts, and what tells the host about the connection arrives once and in order. -/
theorem generations_isolated (ops : List Op) :
    (stampedRun ops).2.map Handed.output = received ops ∧
    (∀ h ∈ (stampedRun ops).2, h.output.isSessionScoped = true →
      CarriedFrom ops h.sends h.output ∧ ∀ i ∈ h.sends,
        OpenAt ops i ∧ ∀ k, i < k → k < h.receivedAt → ¬ ClosesAt ops k) ∧
    ((reached ops).Drained → (received ops).filter RemoteDesktopOutput.isLifecycle
      = (sentOutputs ops).filter RemoteDesktopOutput.isLifecycle) := by
  refine ⟨(stampedRun_erase ops).2, (isolated_run ops).handed, ?_⟩
  rintro ⟨hcontrol, -, -⟩
  have hlifecycle := (relayed_run ops).lifecycle
  rw [hcontrol] at hlifecycle
  simpa using hlifecycle.symm

/-- A frame is thrown away by the new generation; the frame after `Connected` arrives. -/
def newGenerationRun : List Op :=
  [.send (.frame 1 1 [1, 1, 1, 255]), .beginGeneration, .send .cursorHidden,
    .send (.connected 1 1 ⟨.localScaleOnly, true, false, false, false⟩),
    .send (.frame 1 1 [2, 2, 2, 255]), .recv, .recv]

theorem generations_isolated_newGenerationRun :
    (stampedRun newGenerationRun).2
      = [⟨.connected 1 1 ⟨.localScaleOnly, true, false, false, false⟩, [3], 5⟩,
        ⟨.frame 1 1 [2, 2, 2, 255], [4], 6⟩] ∧
    (received newGenerationRun).filter RemoteDesktopOutput.isLifecycle
      = (sentOutputs newGenerationRun).filter RemoteDesktopOutput.isLifecycle := by
  refine ⟨by decide +kernel, (generations_isolated newGenerationRun).2.2 ?_⟩
  decide +kernel

end Mailbox
end Vnc
end Navop
