import NavopExtensions.Vnc.Reconnect

/-!
# The clipboard survives reconnects

A new session gives the server the text that was taken last from the input channel
(`clipboard_survives_reconnects`). Inputs are taken from the channel in two places. The wait before a
reconnect looks at every input it takes. A connected session takes a batch and handles it up to the
first input that ends the session: what follows it in the batch has left the channel and is
forgotten, and a text among it is lost (`reconnect_forgets_clipboard`). The theorem therefore asks of
every batch that no text follows an input that makes the session reconnect (`Kept`).
-/

namespace Navop
namespace Vnc
namespace Backend

/-! ### Texts -/

/-- The snapshot of an input that is a text, if it can be encoded. -/
def encodedText : RemoteDesktopInput → Option VncClipboardSnapshot
  | .clipboardText text => VncClipboardSnapshot.encode text
  | .text text => VncClipboardSnapshot.encode text
  | _ => none

/-- The snapshot of the last text that can be encoded. -/
def latestText (inputs : List RemoteDesktopInput) : Option VncClipboardSnapshot :=
  (inputs.filterMap encodedText).getLast?

@[simp] theorem latestText_nil : latestText [] = none := rfl

theorem latestText_append (inputs inputs' : List RemoteDesktopInput) :
    latestText (inputs ++ inputs') = (latestText inputs').or (latestText inputs) := by
  rw [latestText, List.filterMap_append, List.getLast?_append]
  rfl

theorem latestText_cons (input : RemoteDesktopInput) (inputs : List RemoteDesktopInput) :
    latestText (input :: inputs) = (latestText inputs).or (encodedText input) := by
  rw [← List.singleton_append, latestText_append]
  congr 1
  cases h : encodedText input <;> simp [latestText, h]

theorem latestText_of_none {inputs : List RemoteDesktopInput}
    (h : ∀ input ∈ inputs, encodedText input = none) : latestText inputs = none := by
  rw [latestText, List.filterMap_eq_nil_iff.mpr h]
  rfl

/-! ### Handling inputs -/

variable {state : InputState}

theorem sendWheelEvents_latest (state : InputState) (masks : List UInt8) :
    (state.sendWheelEvents masks).2.latestClipboard = state.latestClipboard := by
  induction masks generalizing state with
  | nil => rfl
  | cons mask masks ih =>
    rw [InputState.sendWheelEvents]
    split
    · exact ih _
    · rfl

theorem sendPointer_latest (state : InputState) (next : VncPointerState) :
    (state.sendPointer next).2.latestClipboard = state.latestClipboard := by
  unfold InputState.sendPointer
  split <;> rfl

theorem sendKey_latest (state : InputState) (keysym : UInt32) (pressed : Bool) :
    (state.sendKey keysym pressed).2.latestClipboard = state.latestClipboard := by
  unfold InputState.sendKey
  split <;> rfl

theorem sendClipboardText_latest (state : InputState) (text : String) :
    (state.sendClipboardText text).2.latestClipboard
      = (VncClipboardSnapshot.encode text).or state.latestClipboard := by
  unfold InputState.sendClipboardText
  split
  · next h => rw [h, Option.none_or]
  · next snapshot h =>
    rw [h, Option.some_or]
    split <;> rfl

/-- **One input** changes the clipboard if it is a text, whether it is sent or not. -/
theorem sendVncInput_latest (state : InputState) (input : RemoteDesktopInput) :
    (state.sendVncInput input).2.latestClipboard
      = (encodedText input).or state.latestClipboard := by
  cases input with
  | clipboardText text => exact sendClipboardText_latest state text
  | text text => exact sendClipboardText_latest state text
  | mouseMove x y => exact sendPointer_latest state _
  | mouseButton button pressed => exact sendPointer_latest state _
  | wheel vertical units => exact sendWheelEvents_latest state _
  | key key pressed =>
    simp only [InputState.sendVncInput]
    split
    · exact sendKey_latest state _ pressed
    · rfl
  | _ => rfl

theorem handleVncInput_latest (state : InputState) (input : RemoteDesktopInput) :
    (state.handleVncInput input).2.latestClipboard
      = (encodedText input).or state.latestClipboard := by
  rw [← sendVncInput_latest, InputState.handleVncInput]
  split <;> next h => rw [h]

/-- No text follows the input that makes the session reconnect. -/
def Kept : InputState → List RemoteDesktopInput → Prop
  | _, [] => True
  | state, input :: inputs =>
    match state.handleVncInput input with
    | (.continues, state) => Kept state inputs
    | (.closed, _) => True
    | _ => ∀ later ∈ inputs, encodedText later = none

/-- **A batch** whose texts are kept leaves the last of them. -/
theorem handleInputs_latest {inputs : List RemoteDesktopInput} (h : Kept state inputs) :
    (state.handleInputs inputs).1 = .closed ∨
      (state.handleInputs inputs).2.latestClipboard
        = (latestText inputs).or state.latestClipboard := by
  induction inputs generalizing state with
  | nil => exact .inr rfl
  | cons input inputs ih =>
    have hinput := handleVncInput_latest state input
    rw [latestText_cons, Option.or_assoc, ← hinput]
    rw [InputState.handleInputs]
    rw [Kept] at h
    split at h
    · next next hnext =>
      rw [hnext]
      exact ih h
    · next next hnext =>
      rw [hnext]
      exact .inl rfl
    · next hcontinues hclosed =>
      -- the rest of the batch holds no text
      rw [latestText_of_none h, Option.none_or]
      split
      · next next hnext => exact absurd hnext (hcontinues next)
      · next action next _ hnext =>
        rw [hnext]
        exact .inr rfl

/-! ### Taking inputs -/

theorem coalesceInputs_texts {pending : Option RemoteDesktopInput}
    (h : ∀ input ∈ pending, encodedText input = none) (inputs : List RemoteDesktopInput) :
    (coalesceInputs pending inputs).filterMap encodedText = inputs.filterMap encodedText := by
  -- what is coalesced are moves, which hold no text
  have hpending : ∀ pending : Option RemoteDesktopInput,
      (∀ input ∈ pending, encodedText input = none) →
      pending.toList.filterMap encodedText = [] := by
    intro pending hnone
    exact List.filterMap_eq_nil_iff.mpr fun input hinput =>
      hnone input (Option.mem_toList.mp hinput)
  induction inputs generalizing pending with
  | nil => exact hpending pending h
  | cons input inputs ih =>
    have hnone : ∀ input ∈ (none : Option RemoteDesktopInput), encodedText input = none := by simp
    cases input with
    | mouseMove x y =>
      refine (ih ?_).trans rfl
      intro input hinput
      rw [← Option.some.inj hinput]
      rfl
    | _ =>
      simp only [coalesceInputs]
      rw [List.filterMap_append, hpending pending h, List.nil_append, List.filterMap_cons,
        List.filterMap_cons, ih hnone]

theorem latestText_coalesceRemoteInputs (inputs : List RemoteDesktopInput) :
    latestText (coalesceRemoteInputs inputs) = latestText inputs := by
  rw [latestText, coalesceRemoteInputs, coalesceInputs_texts (by simp)]
  rfl

theorem taken_of_append {rx rx' : InputRx} {inputs : List RemoteDesktopInput}
    (h : rx.queue = inputs ++ rx'.queue) : rx.taken rx' = inputs := by
  rw [InputRx.taken, h, List.length_append, Nat.add_sub_cancel, List.take_left]

/-- What draining takes goes into the batch, unless the channel is closed. -/
theorem drainInputs_eq (n : ℕ) (rx : InputRx) (inputs : List RemoteDesktopInput) :
    ∃ more, rx.queue = more ++ (drainInputs n rx inputs).2.queue ∧
      ((drainInputs n rx inputs).1 = .disconnected ∨
        (drainInputs n rx inputs).1 = .inputs (coalesceRemoteInputs (inputs ++ more))) := by
  induction n generalizing rx inputs with
  | zero => exact ⟨[], rfl, .inr (by rw [List.append_nil]; rfl)⟩
  | succ n ih =>
    obtain ⟨queue, closed⟩ := rx
    cases queue with
    | nil =>
      cases closed with
      | true => exact ⟨[], rfl, .inl rfl⟩
      | false => exact ⟨[], rfl, .inr (by rw [List.append_nil]; rfl)⟩
    | cons input rest =>
      obtain ⟨more, hqueue, hbatch⟩ := ih ⟨rest, closed⟩ (inputs ++ [input])
      refine ⟨input :: more, congrArg (input :: ·) hqueue, hbatch.imp_right ?_⟩
      intro hinputs
      rw [List.append_assoc] at hinputs
      exact hinputs

/-- **Waiting** looks at everything it takes. -/
theorem waitInputs_latest (n : ℕ) (rx : InputRx) (latest : Option VncClipboardSnapshot)
    (action : WaitAction) :
    ∃ inputs, rx.queue = inputs ++ (waitInputs n rx latest action).2.1.queue ∧
      (waitInputs n rx latest action).2.2 = (latestText inputs).or latest := by
  induction n generalizing rx latest action with
  | zero => exact ⟨[], rfl, rfl⟩
  | succ n ih =>
    obtain ⟨queue, closed⟩ := rx
    cases queue with
    | nil => cases closed <;> exact ⟨[], rfl, rfl⟩
    | cons input rest =>
      -- one input, and what the rest of the loop takes
      have hnext : ∀ latest' action', latest' = (encodedText input).or latest →
          waitInputs (n + 1) ⟨input :: rest, closed⟩ latest action
            = waitInputs n ⟨rest, closed⟩ latest' action' →
          ∃ inputs, input :: rest
              = inputs ++ (waitInputs (n + 1) ⟨input :: rest, closed⟩ latest action).2.1.queue ∧
            (waitInputs (n + 1) ⟨input :: rest, closed⟩ latest action).2.2
              = (latestText inputs).or latest := by
        intro latest' action' hlatest hstep
        obtain ⟨inputs, hqueue, hinputs⟩ := ih ⟨rest, closed⟩ latest' action'
        rw [hstep]
        refine ⟨input :: inputs, congrArg (input :: ·) hqueue, ?_⟩
        rw [hinputs, hlatest, latestText_cons, Option.or_assoc]
      cases input with
      | close => exact ⟨[.close], rfl, rfl⟩
      | _ => exact hnext _ _ rfl rfl

/-! ### Ending and starting sessions -/

variable {backend : State}

/-- The inputs taken from the channel, in order. -/
def takenInputs (log : List Effect) : List RemoteDesktopInput :=
  log.flatMap fun effect => match effect with
    | .took inputs => inputs
    | _ => []

theorem takenInputs_append (log log' : List Effect) :
    takenInputs (log ++ log') = takenInputs log ++ takenInputs log' := List.flatMap_append

/-- Effects that take nothing and start nothing. -/
def Quiet (effects : List Effect) : Prop :=
  ∀ effect ∈ effects, (∃ event, effect = .sent event) ∨ ∃ op, effect = .mailbox op

theorem Quiet.append {effects effects' : List Effect} (h : Quiet effects) (h' : Quiet effects') :
    Quiet (effects ++ effects') := List.forall_mem_append.mpr ⟨h, h'⟩

theorem quiet_sent (events : List X11Event) : Quiet (events.map .sent) := by
  intro effect heffect
  obtain ⟨event, -, rfl⟩ := List.mem_map.mp heffect
  exact .inl ⟨event, rfl⟩

theorem quiet_mailbox (op : Mailbox.Op) : Quiet [.mailbox op] := by
  intro effect heffect
  exact .inr ⟨op, List.mem_singleton.mp heffect⟩

theorem Quiet.takenInputs_eq {effects : List Effect} (h : Quiet effects) :
    takenInputs effects = [] := by
  refine List.flatMap_eq_nil_iff.mpr fun effect heffect => ?_
  obtain ⟨event, rfl⟩ | ⟨op, rfl⟩ := h effect heffect <;> rfl

theorem afterSession_quiet (backend : State) (result : VncSessionResult) :
    (afterSession backend result).1.latestClipboard = backend.latestClipboard ∧
      Quiet (afterSession backend result).2 := by
  cases result with
  | closed => exact ⟨rfl, by simp [afterSession, Quiet]⟩
  | inputClosed => exact ⟨rfl, by simp [afterSession, Quiet]⟩
  | reconnect reason diagnostic manual wasConnected =>
    cases manual with
    | true => exact ⟨rfl, quiet_mailbox _⟩
    | false => exact ⟨rfl, quiet_mailbox _⟩

theorem shutdownSession_latest (inputs : InputState) (close : Except AnyhowError Unit) :
    (shutdownSession inputs close).2.latestClipboard = inputs.latestClipboard := by
  have hinputs : (shutdownInputs inputs).2.latestClipboard = inputs.latestClipboard := by
    unfold shutdownInputs
    split
    split <;> rfl
  unfold shutdownSession
  split <;> exact hinputs

theorem finishSession_quiet (backend : State) (inputs : InputState)
    (close : Except AnyhowError Unit) (result : VncSessionResult) :
    (finishSession backend inputs close result).1.latestClipboard = inputs.latestClipboard ∧
      Quiet (finishSession backend inputs close result).2 := by
  have hnext := afterSession_quiet
    { backend with latestClipboard := (shutdownSession inputs close).2.latestClipboard }
  unfold finishSession
  exact ⟨(hnext _).1.trans (shutdownSession_latest inputs close),
    (quiet_sent _).append (hnext _).2⟩

theorem openSession_quiet (backend : State) (answers : List (Except AnyhowError Unit))
    (close : Except AnyhowError Unit) :
    (openSession backend answers close).1.latestClipboard = backend.latestClipboard ∧
      Quiet (openSession backend answers close).2 := by
  simp only [openSession]
  split
  · exact finishSession_quiet _ _ _ _
  · split
    · exact ⟨rfl, quiet_sent _⟩
    · split
      · exact finishSession_quiet _ _ _ _
      · exact ⟨rfl, quiet_sent _⟩

/-- A session that was closed is the last one. -/
theorem finishSession_ended (backend : State) (inputs : InputState)
    (close : Except AnyhowError Unit) {result : VncSessionResult}
    (h : result = .closed ∨ result = .inputClosed) :
    (finishSession backend inputs close result).1.phase = .ended := by
  simp only [finishSession]
  split
  all_goals obtain rfl | rfl := h <;> rfl

/-! ### Whole runs -/

/-- Every session that starts is given the last text taken from the channel before. -/
def Restored (log : List Effect) : Prop :=
  ∀ before latest after, log = before ++ .starts latest :: after →
    latest = latestText (takenInputs before)

variable {log effects : List Effect}

theorem Restored.append (h : Restored log)
    (h' : ∀ before latest after, effects = before ++ .starts latest :: after →
      latest = latestText (takenInputs (log ++ before))) : Restored (log ++ effects) := by
  intro before latest after heq
  obtain ⟨rest, hbefore, heffects⟩ | ⟨rest, hlog, hafter⟩ := List.append_eq_append_iff.mp heq
  · rw [hbefore]
    exact h' rest latest after heffects
  · cases rest with
    | nil =>
      rw [List.append_nil] at hlog
      have hfirst := h' [] latest after hafter.symm
      rwa [List.append_nil, hlog] at hfirst
    | cons effect rest =>
      obtain ⟨rfl, -⟩ := List.cons_eq_cons.mp hafter
      exact h before latest rest hlog

theorem Quiet.not_starts (h : Quiet effects) (latest : Option VncClipboardSnapshot) :
    .starts latest ∉ effects := by
  intro hmem
  obtain ⟨_, h⟩ | ⟨_, h⟩ := h _ hmem <;> exact absurd h (by simp)

/-- The clipboard is up to date, until the backend has ended. -/
structure Tracks (log : List Effect) (backend : State) : Prop where
  restored : Restored log
  latest : backend.phase ≠ .ended → backend.latestClipboard = latestText (takenInputs log)

variable {backend' : State}

theorem Tracks.quiet (h : Tracks log backend) (hphase : backend.phase ≠ .ended)
    (hlatest : backend'.latestClipboard = backend.latestClipboard) (hquiet : Quiet effects) :
    Tracks (log ++ effects) backend' := by
  refine ⟨h.restored.append ?_, fun _ => ?_⟩
  · rintro before latest after rfl
    exact absurd (List.mem_append_right _ List.mem_cons_self) (hquiet.not_starts latest)
  · rw [hlatest, takenInputs_append, hquiet.takenInputs_eq, List.append_nil]
    exact h.latest hphase

theorem Tracks.took (h : Tracks log backend) (hphase : backend.phase ≠ .ended)
    {inputs : List RemoteDesktopInput}
    (hlatest : backend'.phase ≠ .ended →
      backend'.latestClipboard = (latestText inputs).or backend.latestClipboard)
    (hquiet : Quiet effects) : Tracks (log ++ .took inputs :: effects) backend' := by
  refine ⟨h.restored.append ?_, fun hphase' => ?_⟩
  · intro before latest after heq
    have hmem : .starts latest ∈ .took inputs :: effects := by
      rw [heq]
      exact List.mem_append_right _ List.mem_cons_self
    obtain hhead | htail := List.mem_cons.mp hmem
    · exact absurd hhead (by simp)
    · exact absurd htail (hquiet.not_starts latest)
  · have htaken : takenInputs (.took inputs :: effects) = inputs := by
      change inputs ++ takenInputs effects = inputs
      rw [hquiet.takenInputs_eq, List.append_nil]
    rw [hlatest hphase', takenInputs_append, htaken, latestText_append, h.latest hphase]

/-- A session starts with what is known then. -/
theorem Tracks.starts (h : Tracks log backend) (hphase : backend.phase ≠ .ended) :
    Tracks (log ++ [.starts backend.latestClipboard]) backend := by
  refine ⟨h.restored.append ?_, fun _ => ?_⟩
  · intro before latest after heq
    obtain ⟨rfl, hsingle⟩ | ⟨-, hnil⟩ := List.append_eq_singleton_iff.mp heq.symm
    · obtain ⟨hsame, -⟩ := List.cons_eq_cons.mp hsingle
      obtain rfl := Effect.starts.inj hsame
      rw [List.append_nil]
      exact h.latest hphase
    · exact absurd hnil (by simp)
  · rw [takenInputs_append]
    exact (h.latest hphase).trans (by simp [takenInputs])

/-- **Starting a session.** The latest text goes out with it. -/
theorem Tracks.start (h : Tracks log backend) (hphase : backend.phase ≠ .ended)
    (destination : String) (result : ConnectResult) (answers : List (Except AnyhowError Unit))
    (close : Except AnyhowError Unit) :
    Tracks (log ++ (startSession destination backend result answers close).2)
      (startSession destination backend result answers close).1 := by
  cases result with
  | terminal message =>
    obtain ⟨hlatest, hquiet⟩ := afterSession_quiet backend .closed
    exact h.quiet hphase hlatest ((quiet_mailbox _).append ((quiet_mailbox _).append hquiet))
  | error message =>
    obtain ⟨hlatest, hquiet⟩ :=
      afterSession_quiet backend (.reconnect .sessionError message false false)
    exact h.quiet hphase hlatest ((quiet_mailbox _).append hquiet)
  | connected =>
    obtain ⟨hlatest, hquiet⟩ := openSession_quiet backend answers close
    have hready : Tracks (log ++
        [.mailbox (.send (.status ("connecting to VNC " ++ destination))),
          .mailbox .beginGeneration]) backend :=
      h.quiet hphase rfl ((quiet_mailbox _).append (quiet_mailbox _))
    have hopened := (hready.starts hphase).quiet hphase hlatest hquiet
    rw [List.append_assoc, List.append_assoc] at hopened
    exact hopened

/-- In this round no text of the batch follows an input that makes the session reconnect. -/
def RoundKept (backend : State) (round : Round) : Prop :=
  ∀ session inputs, backend.phase = .connected session → round.events = .ok () →
    (drainRemoteInputs backend.input).1 = .inputs inputs →
    Kept ⟨⟨round.answers, []⟩, backend.latestClipboard, session.keyboard, session.pointer⟩ inputs

/-- **The inputs of a round**: the channel is closed, a `Close` was among them, or the clipboard is
the last text of what was taken. -/
theorem handlePendingInputs_latest {rx : InputRx}
    (h : ∀ inputs, (drainRemoteInputs rx).1 = .inputs inputs → Kept state inputs) :
    (handlePendingInputs state rx).1 = .inputClosed ∨ (handlePendingInputs state rx).1 = .closed ∨
      (handlePendingInputs state rx).2.1.latestClipboard
        = (latestText (rx.taken (handlePendingInputs state rx).2.2)).or state.latestClipboard := by
  obtain ⟨taken, hqueue, hbatch⟩ := drainInputs_eq maxInputsPerPoll rx []
  cases hdrain : drainRemoteInputs rx with
  | mk batch rx' =>
    have hdrained : drainInputs maxInputsPerPoll rx [] = (batch, rx') := hdrain
    rw [hdrained] at hqueue hbatch
    obtain rfl | rfl := hbatch
    · refine .inl ?_
      simp only [handlePendingInputs, hdrain]
    · refine .inr ?_
      have hkept := h _ (congrArg Prod.fst hdrain)
      simp only [handlePendingInputs, hdrain]
      rw [taken_of_append hqueue, ← latestText_coalesceRemoteInputs taken]
      exact handleInputs_latest hkept

/-- **One round of a session.** -/
theorem Tracks.poll (h : Tracks log backend) {session : ConnectedVncSession} {round : Round}
    (hphase : backend.phase = .connected session) (hkept : RoundKept backend round) :
    Tracks (log ++ (pollSession backend session round).2)
      (pollSession backend session round).1 := by
  have hnot : backend.phase ≠ .ended := by simp [hphase]
  cases hevents : round.events with
  | error reason =>
    obtain ⟨hlatest, hquiet⟩ := finishSession_quiet backend
      ⟨⟨round.answers, []⟩, backend.latestClipboard, session.keyboard, session.pointer⟩ round.close
      (.reconnect (reconnectReason (session.wasConnected || round.resolutionSet)) reason false
        (session.wasConnected || round.resolutionSet))
    simp only [pollSession, hevents]
    exact h.quiet hnot hlatest hquiet
  | ok =>
    have hlatest := handlePendingInputs_latest fun inputs hinputs =>
      hkept session inputs hphase hevents hinputs
    simp only [pollSession, hevents]
    generalize handlePendingInputs _ backend.input = pending at hlatest ⊢
    obtain ⟨action, inputs, rx⟩ := pending
    -- ending the session does not change the clipboard
    have hfinish : ∀ result, (result = .closed ∨ result = .inputClosed ∨
          inputs.latestClipboard
            = (latestText (backend.input.taken rx)).or backend.latestClipboard) →
        Tracks (log ++ .took (backend.input.taken rx)
            :: (finishSession { backend with input := rx } inputs round.close result).2)
          (finishSession { backend with input := rx } inputs round.close result).1 := by
      intro result hresult
      obtain ⟨hsame, hquiet⟩ :=
        finishSession_quiet { backend with input := rx } inputs round.close result
      refine h.took hnot (fun hgoes => ?_) hquiet
      obtain hclosed | hclosed | hlatest := hresult
      · exact absurd (finishSession_ended _ _ _ (.inl hclosed)) hgoes
      · exact absurd (finishSession_ended _ _ _ (.inr hclosed)) hgoes
      · exact hsame.trans hlatest
    cases action with
    | closed => exact hfinish .closed (.inl rfl)
    | inputClosed => exact hfinish .inputClosed (.inr (.inl rfl))
    | reconnect =>
      have htext := (hlatest.resolve_left (by simp)).resolve_left (by simp)
      exact hfinish _ (.inr (.inr htext))
    | failed diagnostic =>
      have htext := (hlatest.resolve_left (by simp)).resolve_left (by simp)
      exact hfinish _ (.inr (.inr htext))
    | continues =>
      have htext := (hlatest.resolve_left (by simp)).resolve_left (by simp)
      simp only [sessionResultFromAction]
      cases round.refresh with
      | error reason => exact hfinish _ (.inr (.inr htext))
      | ok => exact h.took hnot (fun _ => htext) (quiet_sent _)

/-- **One round of a wait.** -/
theorem Tracks.wait (h : Tracks log backend) (hphase : backend.phase = .waiting) (expired : Bool) :
    Tracks (log ++ (pollWait backend expired).2) (pollWait backend expired).1 := by
  have hnot : backend.phase ≠ .ended := by simp [hphase]
  obtain ⟨inputs, hqueue, hlatest⟩ := waitInputs_latest maxReconnectWaitInputsPerPoll backend.input
    backend.latestClipboard .continues
  have htaken := taken_of_append hqueue
  simp only [pollWait, handleWaitInput]
  generalize waitInputs _ _ _ _ = waited at hlatest htaken ⊢
  obtain ⟨action, rx, latest⟩ := waited
  rw [← htaken] at hlatest
  have hquiet : Quiet [] := by simp [Quiet]
  cases action with
  | stop => exact h.took hnot (fun _ => hlatest) hquiet
  | reconnectNow => exact h.took hnot (fun _ => hlatest) hquiet
  | continues =>
    cases expired with
    | true => exact h.took hnot (fun _ => hlatest) hquiet
    | false => exact h.took hnot (fun _ => hlatest) hquiet

theorem Tracks.step (h : Tracks log backend) (destination : String) (label : Label)
    (hkept : ∀ round, label = .poll round → RoundKept backend round) :
    Tracks (log ++ (Backend.step destination backend label).2)
      (Backend.step destination backend label).1 := by
  -- a label that does not fit the phase changes nothing
  have hstay : Tracks (log ++ []) backend := by rwa [List.append_nil]
  cases label with
  | deliver input =>
    refine ⟨hstay.restored, ?_⟩
    simp only [Backend.step]
    split
    · exact hstay.latest
    · exact hstay.latest
  | hangUp => exact ⟨hstay.restored, hstay.latest⟩
  | start result answers close =>
    simp only [Backend.step]
    split
    · next hphase => exact h.start (by simp [hphase]) destination result answers close
    · exact hstay
  | poll round =>
    simp only [Backend.step]
    split
    · next session hphase => exact h.poll hphase (hkept round rfl)
    · exact hstay
  | wait expired =>
    simp only [Backend.step]
    split
    · next hphase => exact h.wait hphase expired
    · exact hstay

/-- Every batch of a run is kept. -/
def KeptRun (destination : String) (labels : List Label) : Prop :=
  ∀ before round after, labels = before ++ .poll round :: after →
    RoundKept (run destination before).1 round

/-- **The clipboard survives reconnects.** However inputs arrive, batches are cut, sends and servers
fail and waits go: if in every batch no text follows an input that makes the session reconnect, a new
session is given the last text that was taken from the channel and can be encoded. -/
theorem clipboard_survives_reconnects {destination : String} {labels : List Label}
    (h : KeptRun destination labels) {before after : List Effect}
    {latest : Option VncClipboardSnapshot}
    (hstarts : (run destination labels).2 = before ++ .starts latest :: after) :
    latest = latestText (takenInputs before) := by
  have htracks : Tracks (run destination labels).2 (run destination labels).1 := by
    refine (Machine.run_history
      (H := fun labels log backend =>
        backend = (run destination labels).1 ∧ Tracks log backend)
      (P := KeptRun destination) ?_ ?_ ⟨rfl, ?_⟩ h).2
    · intro labels label hkept before round after hlabels
      exact hkept before round (after ++ [label]) (by simp [hlabels])
    · rintro labels log _ label ⟨rfl, htracks⟩ hkept
      refine ⟨?_, htracks.step destination label fun round hround => ?_⟩
      · exact (congrArg Prod.fst (Machine.run_concat initial labels label)).symm
      · exact hkept labels round [] (by rw [hround])
    · refine ⟨fun before latest after hnil => ?_, fun _ => rfl⟩
      exact absurd hnil (by simp)
  exact htracks.restored before latest after hstarts

/-- A text that cannot be sent, and another one during the wait. -/
def lostConnectionRun : List Label :=
  [.deliver (.clipboardText "a"), .start .connected [] (.ok ()),
    .poll ⟨true, .ok (), [.error (.msg "broken pipe")], .ok (), .ok ()⟩, .deliver (.text "b"),
    .wait true, .start .connected [] (.ok ())]

theorem keptRun_lostConnectionRun : KeptRun "host:5900" lostConnectionRun := by
  intro before round after hlabels
  have hround : lostConnectionRun[before.length]? = some (.poll round) := by simp [hlabels]
  have hbefore : before = lostConnectionRun.take before.length := by simp [hlabels]
  generalize before.length = n at hround hbefore
  match n with
  | 0 => exact absurd hround (by simp [lostConnectionRun])
  | 1 => exact absurd hround (by simp [lostConnectionRun])
  | 2 =>
    subst hbefore
    obtain rfl := Label.poll.inj (Option.some.inj hround)
    intro session inputs hphase _ hdrain
    obtain rfl := Phase.connected.inj hphase
    obtain rfl := VncInputBatch.inputs.inj hdrain
    -- the text is the last input of its batch
    intro later hlater
    exact absurd hlater List.not_mem_nil
  | 3 => exact absurd hround (by simp [lostConnectionRun])
  | 4 => exact absurd hround (by simp [lostConnectionRun])
  | 5 => exact absurd hround (by simp [lostConnectionRun])
  | n + 6 => exact absurd hround (by simp [lostConnectionRun])

theorem clipboard_survives_reconnects_lostConnectionRun : ∃ before after,
    (run "host:5900" lostConnectionRun).2 = before ++ .starts (some ⟨[98]⟩) :: after ∧
    takenInputs before = [.clipboardText "a", .text "b"] ∧
    some ⟨[98]⟩ = latestText (takenInputs before) := by
  have hstarts : (run "host:5900" lostConnectionRun).2
      = (run "host:5900" lostConnectionRun).2.take 9 ++ .starts (some ⟨[98]⟩)
        :: (run "host:5900" lostConnectionRun).2.drop 10 := by decide +kernel
  exact ⟨_, _, hstarts, by decide +kernel,
    clipboard_survives_reconnects keptRun_lostConnectionRun hstarts⟩

/-- A text that follows `Reconnect` in a batch. -/
def manualReconnectRun : List Label :=
  [.deliver .reconnect, .deliver (.clipboardText "x"), .start .connected [] (.ok ()),
    .poll ⟨true, .ok (), [], .ok (), .ok ()⟩, .start .connected [] (.ok ())]

/-- The text has left the channel, and the new session does not know it. -/
theorem reconnect_forgets_clipboard : ∃ before after,
    (run "host:5900" manualReconnectRun).2 = before ++ .starts none :: after ∧
    takenInputs before = [.reconnect, .clipboardText "x"] ∧
    latestText (takenInputs before) = some ⟨[120]⟩ := by
  refine ⟨(run "host:5900" manualReconnectRun).2.take 8,
    (run "host:5900" manualReconnectRun).2.drop 9, ?_, ?_, ?_⟩
  · decide +kernel
  · decide +kernel
  · decide +kernel

end Backend
end Vnc
end Navop
