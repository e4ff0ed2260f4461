import NavopExtensions.Rocketmq.Codec
import NavopExtensions.Rocketmq.Remoting

/-!
# Responses find their requests

Every waiter in the table of pending requests is filed under the number of its own request, a frame
is handed to one waiter at most, and numbers are not used twice before the counter has wrapped around
(`responses_paired`). What the reader does not look at is whether a frame is a response: a request of
the server that happens to carry the number of a pending request completes it
(`request_completes_invoke`).
-/

namespace Navop
namespace Rocketmq
namespace Remoting

variable {good : RemotingCommand → Prop} {s s' : State}

/-! ### What a transition does to the calls -/

theorem getElem?_modify_calls (calls : List Call) (i j : ℕ) (f : Call → Call) :
    (calls.modify i f)[j]? = calls[j]?.map fun call => if i = j then f call else call := by
  rw [List.getElem?_modify]
  rfl

/-- Calls stay, and keep their command once they have a number. -/
def Evolves (s s' : State) : Prop :=
  ∀ (i : ℕ) (call : Call), s.calls[i]? = some call → ∃ call' : Call, s'.calls[i]? = some call' ∧
    (call.stage ≠ .entered → call'.stage ≠ .entered ∧ call'.command = call.command)

theorem Evolves.of_calls_eq (h : s'.calls = s.calls) : Evolves s s' := by
  intro i call hcall
  rw [← h] at hcall
  exact ⟨call, hcall, fun hstage => ⟨hstage, rfl⟩⟩

theorem Evolves.trans {s'' : State} (h : Evolves s s') (h' : Evolves s' s'') : Evolves s s'' := by
  intro i call hcall
  obtain ⟨call', hcall', hkept⟩ := h i call hcall
  obtain ⟨call'', hcall'', hkept'⟩ := h' i call' hcall'
  refine ⟨call'', hcall'', fun hstage => ?_⟩
  obtain ⟨hstage', hcommand⟩ := hkept hstage
  obtain ⟨hstage'', hcommand'⟩ := hkept' hstage'
  exact ⟨hstage'', hcommand'.trans hcommand⟩

/-- One call is changed. -/
theorem Evolves.modify {i : ℕ} {f : Call → Call} (hcalls : s'.calls = s.calls.modify i f)
    (hf : ∀ call, s.calls[i]? = some call → call.stage ≠ .entered →
      (f call).stage ≠ .entered ∧ (f call).command = call.command) : Evolves s s' := by
  intro j call hcall
  by_cases hij : i = j
  · subst hij
    refine ⟨f call, ?_, hf call hcall⟩
    rw [hcalls, getElem?_modify_calls, hcall, Option.map_some, if_pos rfl]
  · refine ⟨call, ?_, fun hstage => ⟨hstage, rfl⟩⟩
    rw [hcalls, getElem?_modify_calls, hcall, Option.map_some, if_neg hij]

/-- The frame has been handed to this call, or is about to be. -/
def Owns (s : State) (i : ℕ) (d : Delivery) : Prop :=
  s.reader = .holding i d ∨
    ∃ call : Call, s.calls[i]? = some call ∧ (call.slot = .sent d ∨ call.stage = .returned (.ok d))

/-- One call is changed, and gets no new frame. -/
theorem Owns.of_modify {i j : ℕ} {d : Delivery} {f : Call → Call} (h : Owns s' j d)
    (hcalls : s'.calls = s.calls.modify i f) (hreader : s'.reader = s.reader)
    (hf : ∀ call, s.calls[i]? = some call →
      (f call).slot = .sent d ∨ (f call).stage = .returned (.ok d) →
      call.slot = .sent d ∨ call.stage = .returned (.ok d)) : Owns s j d := by
  obtain hholding | ⟨call', hcall', hframe⟩ := h
  · exact .inl (hreader ▸ hholding)
  · rw [hcalls, getElem?_modify_calls] at hcall'
    obtain ⟨call, hcall, rfl⟩ := Option.map_eq_some_iff.mp hcall'
    refine .inr ⟨call, hcall, ?_⟩
    by_cases hij : i = j
    · subst hij
      rw [if_pos rfl] at hframe
      exact hf call hcall hframe
    · rw [if_neg hij] at hframe
      exact hframe

/-! ### The invariant -/

/-- Waiters are filed under the number of their request, and so are the frames they get; `good` holds
of these frames. -/
structure Paired (good : RemotingCommand → Prop) (s : State) : Prop where
  table : ∀ key i, s.pending.lookup key = some i → ∃ call : Call, s.calls[i]? = some call ∧
    call.stage ≠ .entered ∧ call.command.opaqueId = key
  owns : ∀ i d, Owns s i d → d.frame < s.arrived ∧ good d.command ∧
    ∃ call : Call, s.calls[i]? = some call ∧ call.stage ≠ .entered ∧
      call.command.opaqueId = d.command.opaqueId
  once : ∀ i j d d', Owns s i d → Owns s j d' → d.frame = d'.frame → i = j

theorem Evolves.filed (h : Evolves s s') {i : ℕ} {key : Int32}
    (hfiled : ∃ call : Call, s.calls[i]? = some call ∧ call.stage ≠ .entered ∧
      call.command.opaqueId = key) :
    ∃ call : Call, s'.calls[i]? = some call ∧ call.stage ≠ .entered ∧ call.command.opaqueId = key := by
  obtain ⟨call, hcall, hstage, hkey⟩ := hfiled
  obtain ⟨call', hcall', hkept⟩ := h i call hcall
  obtain ⟨hstage', hcommand⟩ := hkept hstage
  exact ⟨call', hcall', hstage', hcommand ▸ hkey⟩

/-- Transitions that file nothing and hand out nothing. -/
theorem Paired.transfer (h : Paired good s) (hcalls : Evolves s s')
    (hpending : ∀ key i, s'.pending.lookup key = some i → s.pending.lookup key = some i)
    (howns : ∀ i d, Owns s' i d → Owns s i d) (harrived : s.arrived ≤ s'.arrived) :
    Paired good s' := by
  refine ⟨?_, ?_, ?_⟩
  · intro key i hkey
    exact hcalls.filed (h.table key i (hpending key i hkey))
  · intro i d hd
    obtain ⟨hframe, hgood, hfiled⟩ := h.owns i d (howns i d hd)
    exact ⟨lt_of_lt_of_le hframe harrived, hgood, hcalls.filed hfiled⟩
  · intro i j d d' hd hd'
    exact h.once i j d d' (howns i d hd) (howns j d' hd')

theorem Paired.flags (h : Paired good s) (hcalls : s'.calls = s.calls)
    (hpending : s'.pending = s.pending)
    (hreader : ∀ i d, s'.reader = .holding i d → s.reader = .holding i d)
    (harrived : s.arrived ≤ s'.arrived) : Paired good s' := by
  refine h.transfer (.of_calls_eq hcalls) (fun key i => by rw [hpending]; exact id) ?_ harrived
  intro i d hd
  refine hd.imp (hreader i d) ?_
  rw [hcalls]
  exact id

theorem Paired.setStage (h : Paired good s) {i : ℕ} {stage : Stage} (hstage : stage ≠ .entered)
    (hanswer : ∀ call d, s.calls[i]? = some call → stage = .returned (.ok d) →
      call.slot = .sent d) : Paired good (s.setStage i stage) := by
  refine h.transfer (.modify rfl fun _ _ _ => ⟨hstage, rfl⟩) (fun _ _ => id) ?_ le_rfl
  intro j d hd
  refine hd.of_modify rfl rfl ?_
  intro call hcall hframe
  exact .inl (hframe.elim id (hanswer call d hcall))

theorem Paired.setSlot (h : Paired good s) (i : ℕ) {slot : Slot} (hslot : ∀ d, slot ≠ .sent d) :
    Paired good (s.setSlot i slot) := by
  refine h.transfer (.modify rfl fun _ _ hstage => ⟨hstage, rfl⟩) (fun _ _ => id) ?_ le_rfl
  intro j d hd
  refine hd.of_modify rfl rfl ?_
  intro call hcall hframe
  exact .inr (hframe.resolve_left (hslot d))

theorem lookup_erase_eq_some {pending : Finmap fun _ : Int32 => ℕ} {key key' : Int32} {i : ℕ}
    (h : (pending.erase key).lookup key' = some i) :
    key' ≠ key ∧ pending.lookup key' = some i := by
  by_cases hkey : key' = key
  · rw [hkey, Finmap.lookup_erase] at h
    exact absurd h (by simp)
  · exact ⟨hkey, (Finmap.lookup_erase_ne hkey).symm.trans h⟩

theorem Paired.remove (h : Paired good s) (key : Int32) : Paired good (s.remove key) := by
  unfold State.remove
  split
  · exact h
  · next i _ =>
    refine (h.setSlot i (by simp)).transfer (.of_calls_eq rfl) ?_ (fun _ _ => id) le_rfl
    intro key' j hkey'
    exact (lookup_erase_eq_some hkey').2

theorem Evolves.setSlot (i : ℕ) (slot : Slot) : Evolves s (s.setSlot i slot) :=
  .modify rfl fun _ _ hstage => ⟨hstage, rfl⟩

theorem Evolves.remove (key : Int32) : Evolves s (s.remove key) := by
  unfold State.remove
  split
  · exact .of_calls_eq rfl
  · next i _ => exact (Evolves.setSlot i .dropped).trans (.of_calls_eq rfl)

/-- **A waiter is filed** under the number of its request. -/
theorem Paired.register (h : Paired good s) {i : ℕ} {call : Call} (hcall : s.calls[i]? = some call)
    (hstage : call.stage ≠ .entered) : Paired good (s.register i call.command.opaqueId) := by
  have hmade : Paired good ((s.remove call.command.opaqueId).setSlot i .empty) :=
    (h.remove call.command.opaqueId).setSlot i (by simp)
  refine ⟨?_, hmade.owns, hmade.once⟩
  intro key j hkey
  by_cases hself : key = call.command.opaqueId
  · subst hself
    obtain rfl : i = j := by
      have hnew : (s.register i call.command.opaqueId).pending.lookup call.command.opaqueId
          = some i := Finmap.lookup_insert _
      exact Option.some.inj (hnew.symm.trans hkey)
    have hkept : Evolves s ((s.remove call.command.opaqueId).setSlot i .empty) :=
      (Evolves.remove _).trans (Evolves.setSlot i .empty)
    exact hkept.filed ⟨call, hcall, hstage, rfl⟩
  · refine hmade.table key j ?_
    exact (Finmap.lookup_insert_of_ne _ hself).symm.trans hkey

/-- A call after `clear`: at most its sender is gone. -/
theorem getElem?_clear (s : State) (i : ℕ) :
    s.clear.calls[i]? = s.calls[i]?.map fun call =>
      if s.pending.lookup call.command.opaqueId = some i then { call with slot := .dropped }
      else call :=
  List.getElem?_mapIdx

/-- The table is emptied. -/
theorem Paired.clear (h : Paired good s) : Paired good s.clear := by
  refine h.transfer ?_ ?_ ?_ le_rfl
  · intro i call hcall
    refine ⟨_, by rw [getElem?_clear, hcall, Option.map_some], fun hstage => ?_⟩
    split
    · exact ⟨hstage, rfl⟩
    · exact ⟨hstage, rfl⟩
  · intro key i hkey
    exact absurd hkey (by simp [State.clear])
  · intro i d hd
    obtain hholding | ⟨call', hcall', hframe⟩ := hd
    · exact .inl hholding
    · rw [getElem?_clear] at hcall'
      obtain ⟨call, hcall, rfl⟩ := Option.map_eq_some_iff.mp hcall'
      refine .inr ⟨call, hcall, ?_⟩
      by_cases hpending : s.pending.lookup call.command.opaqueId = some i
      · rw [if_pos hpending] at hframe
        exact .inr (hframe.resolve_left (by simp))
      · rw [if_neg hpending] at hframe
        exact hframe

/-- A call enters: it has sent nothing and got nothing. -/
theorem Paired.append (h : Paired good s) {call : Call} (hslot : ∀ d, call.slot ≠ .sent d)
    (hstage : ∀ d, call.stage ≠ .returned (.ok d)) :
    Paired good { s with calls := s.calls ++ [call] } := by
  refine h.transfer ?_ (fun _ _ => id) ?_ le_rfl
  · intro i old hold
    refine ⟨old, ?_, fun hstage => ⟨hstage, rfl⟩⟩
    rw [List.getElem?_append_left (List.getElem?_eq_some_iff.mp hold).1]
    exact hold
  · intro i d hd
    obtain hholding | ⟨old, hold, hframe⟩ := hd
    · exact .inl hholding
    · rw [List.getElem?_append] at hold
      split at hold
      · exact .inr ⟨old, hold, hframe⟩
      · obtain rfl := List.mem_singleton.mp (List.mem_of_getElem? hold)
        exact (hframe.elim (hslot d) (hstage d)).elim

theorem Paired.number (h : Paired good s) (crypto : Crypto) (acl : Option AclCredentials) {i : ℕ}
    {call : Call} (hcall : s.calls[i]? = some call) (hstage : call.stage = .entered) :
    Paired good (number crypto acl s i) := by
  refine h.transfer (.modify rfl ?_) (fun _ _ => id) ?_ le_rfl
  · intro call' hcall' hnot
    obtain rfl := Option.some.inj (hcall.symm.trans hcall')
    exact absurd hstage hnot
  · intro j d hd
    refine hd.of_modify rfl rfl ?_
    intro call' _ hframe
    exact .inl (hframe.resolve_right (by simp))

/-- **A frame finds its waiter.** It is a new frame, and it carries the number under which the waiter
is filed. -/
theorem Paired.take (h : Paired good s) {i : ℕ} {command : RemotingCommand}
    (hpending : s.pending.lookup command.opaqueId = some i) (hgood : good command) :
    Paired good { s with
      pending := s.pending.erase command.opaqueId
      reader := .holding i ⟨s.arrived, command⟩
      arrived := s.arrived + 1 } := by
  generalize hnew : { s with
      pending := s.pending.erase command.opaqueId
      reader := .holding i ⟨s.arrived, command⟩
      arrived := s.arrived + 1 } = s'
  -- the reader holds the new delivery, and nothing else changes hands
  have howns : ∀ j d, Owns s' j d → (i = j ∧ d = ⟨s.arrived, command⟩) ∨ Owns s j d := by
    intro j d hd
    subst hnew
    obtain hholding | hcall := hd
    · obtain ⟨rfl, rfl⟩ := Reader.holding.inj hholding
      exact .inl ⟨rfl, rfl⟩
    · exact .inr (.inr hcall)
  refine ⟨?_, ?_, ?_⟩
  · intro key j hkey
    subst hnew
    exact h.table key j (lookup_erase_eq_some hkey).2
  · intro j d hd
    obtain ⟨rfl, rfl⟩ | hold := howns j d hd
    · subst hnew
      exact ⟨Nat.lt_succ_self _, hgood, h.table _ i hpending⟩
    · obtain ⟨hframe, hrest⟩ := h.owns j d hold
      subst hnew
      exact ⟨Nat.lt_succ_of_lt hframe, hrest⟩
  · intro j k d d' hd hd' hframe
    obtain ⟨rfl, rfl⟩ | hold := howns j d hd <;> obtain ⟨rfl, rfl⟩ | hold' := howns k d' hd'
    · rfl
    · exact absurd hframe (h.owns k d' hold').1.ne'
    · exact absurd hframe (h.owns j d hold).1.ne
    · exact h.once j k d d' hold hold' hframe

theorem eq_of_handed {i : ℕ} {d d' : Delivery} (h : handed s i d = .sent d') : d = d' := by
  unfold handed at h
  split at h
  · split at h
    · exact Slot.sent.inj h
    · exact absurd h (by simp)
  · exact absurd h (by simp)

/-- The frame in the reader's hand goes to its waiter. -/
theorem Paired.deliver (h : Paired good s) {i : ℕ} {d : Delivery}
    (hreader : s.reader = .holding i d) : Paired good (deliver s i d) := by
  refine h.transfer (.modify rfl fun _ _ hstage => ⟨hstage, rfl⟩) (fun _ _ => id) ?_ le_rfl
  intro j d' hd'
  obtain hholding | ⟨call', hcall', hframe⟩ := hd'
  · exact absurd hholding (by simp [Remoting.deliver])
  · have hcalls : (Remoting.deliver s i d).calls = s.calls.modify i fun call =>
        { call with slot := handed s i d } := rfl
    rw [hcalls, getElem?_modify_calls] at hcall'
    obtain ⟨call, hcall, rfl⟩ := Option.map_eq_some_iff.mp hcall'
    by_cases hij : i = j
    · subst hij
      rw [if_pos rfl] at hframe
      obtain hslot | hstage := hframe
      · exact .inl (hreader.trans (by rw [eq_of_handed hslot]))
      · exact .inr ⟨call, hcall, .inr hstage⟩
    · rw [if_neg hij] at hframe
      exact .inr ⟨call, hcall, hframe⟩

theorem Paired.readBody (h : Paired good s) (json : SerdeJson) (body : List UInt8)
    (hgood : ∀ command, decodeFrame json body = .ok command → command.opaqueId ∈ s.pending →
      good command) : Paired good (readBody json s body) := by
  unfold Remoting.readBody
  split
  · next command hdecode =>
    split
    · next i hpending =>
      exact h.take hpending (hgood command hdecode (Finmap.mem_of_lookup_eq_some hpending))
    · exact h.flags rfl rfl (fun _ _ => id) (Nat.le_succ _)
  · exact h.flags rfl rfl (fun _ _ hstopping => absurd hstopping (by simp)) le_rfl
  · exact h.flags rfl rfl (fun _ _ hstopped => absurd hstopped (by simp)) le_rfl

theorem Paired.finish (h : Paired good s) (i : ℕ) {result : Except RocketmqError Delivery}
    (hanswer : ∀ call d, s.calls[i]? = some call → result = .ok d → call.slot = .sent d) :
    Paired good (s.finish i result).1 := by
  refine h.setStage (by simp) ?_
  intro call d hcall hresult
  exact hanswer call d hcall (Stage.returned.inj hresult)

section Channel

variable {json : SerdeJson} {crypto : Crypto} {acl : Option AclCredentials} {addr : String}

theorem Paired.advance (h : Paired good s) {i : ℕ} {call : Call} (hcall : s.calls[i]? = some call)
    (expired : Bool) : Paired good (advance json crypto acl addr s i call expired).1 := by
  -- a step that returns nothing gives no delivery away
  have hstay : ∀ {stage : Stage}, stage ≠ .entered → (∀ d, stage ≠ .returned (.ok d)) →
      Paired good (s.setStage i stage) := by
    intro stage hentered hreturned
    exact h.setStage hentered fun _ d _ hok => absurd hok (hreturned d)
  -- neither does one that ends in an error
  have hfails : ∀ {s' : State}, Paired good s' → ∀ error : RocketmqError,
      Paired good (s'.finish i (.error error)).1 := by
    intro s' h' error
    exact h'.finish i fun _ _ _ hok => absurd hok (by simp)
  unfold Remoting.advance
  split
  case h_1 hstage => exact h.number crypto acl hcall hstage
  case h_2 hstage =>
    refine (h.register hcall (by simp [hstage])).setStage (by simp) ?_
    intro _ _ _ hok
    exact absurd hok (by simp)
  case h_3 hstage =>
    split
    · exact hstay (by simp) (by simp)
    · exact hfails h _
  case h_4 hstage =>
    split
    · exact hstay (by simp) (by simp)
    · exact hstay (by simp) (by simp)
  case h_5 hstage =>
    refine hfails ?_ _
    exact (h.remove call.command.opaqueId).flags rfl rfl (fun _ _ => id) le_rfl
  case h_6 hstage =>
    split
    · next delivery hslot =>
      refine h.finish i ?_
      intro call' d hcall' hok
      -- what is returned is what was put into the call's own slot
      obtain rfl := Option.some.inj (hcall.symm.trans hcall')
      rw [hslot, Except.ok.inj hok]
    · exact hfails h _
    · split
      · exact hstay (by simp) (by simp)
      · exact h
  case h_7 hstage => exact hfails (h.remove call.command.opaqueId) _
  case h_8 => exact h

/-- The reader completes requests with responses only: a frame whose number is pending is one. -/
def TakesResponses (json : SerdeJson) (s : State) (label : Label) : Prop :=
  ∀ body command, label = .frame body → s.reader = .reading →
    decodeFrame json body = .ok command → command.opaqueId ∈ s.pending → command.isResponse = true

/-- **A transition keeps the pairing.** -/
theorem Paired.step (h : Paired (fun command => command.isResponse = true) s) {label : Label}
    (hguard : TakesResponses json s label) :
    Paired (fun command => command.isResponse = true) (step json crypto acl addr s label).1 := by
  cases label with
  | call command =>
    simp only [Remoting.step, enter]
    split
    · exact h.append (by simp) (by simp)
    · exact h.append (by simp) (by simp)
  | advance i expired =>
    simp only [Remoting.step]
    split
    · next call hcall => exact h.advance hcall expired
    · exact h
  | frame body =>
    simp only [Remoting.step]
    split
    · next hreader =>
      refine h.readBody json body ?_
      intro command
      -- the frame is a response, by the guard
      exact hguard body command rfl hreader
    · exact h
  | deliver =>
    simp only [Remoting.step]
    split
    · next hreader => exact h.deliver hreader
    · exact h
  | readerStops =>
    simp only [Remoting.step]
    split
    · exact h.flags rfl rfl (fun _ _ hstopping => absurd hstopping (by simp)) le_rfl
    · exact h
  | readerClears =>
    simp only [Remoting.step]
    split
    · exact h.clear.flags rfl rfl (fun _ _ hstopped => absurd hstopped (by simp)) le_rfl
    · exact h
  | writerStops => exact h.flags rfl rfl (fun _ _ => id) le_rfl
  | shutdown => exact h.clear.flags rfl rfl (fun _ _ => id) le_rfl

theorem paired_connected : Paired good connected := by
  have hfree : ∀ i d, ¬ Owns connected i d := by
    rintro i d (hholding | ⟨call, hcall, -⟩)
    · exact absurd hholding (by simp [connected])
    · exact absurd hcall (by simp [connected])
  refine ⟨?_, fun i d hd => absurd hd (hfree i d), fun i _ d _ hd => absurd hd (hfree i d)⟩
  intro key i hkey
  exact absurd hkey (by simp [connected])

/-! ### Numbers -/

/-- The numbers that calls have are the first ones of the counter, each handed out once, and a call
without a number has not begun or was refused at once. -/
structure Numbered (s : State) : Prop where
  issued : ∀ (i : ℕ) (call : Call) (ticket : ℕ), s.calls[i]? = some call →
    call.ticket = some ticket → ticket < s.issued ∧ call.command.opaqueId = opaqueOf ticket
  once : ∀ (i j : ℕ) (call call' : Call) (ticket : ℕ), s.calls[i]? = some call →
    s.calls[j]? = some call' → call.ticket = some ticket → call'.ticket = some ticket → i = j
  early : ∀ (i : ℕ) (call : Call), s.calls[i]? = some call → call.ticket = none →
    call.stage = .entered ∨ ∃ error, call.stage = .returned (.error error)

/-- No call gets a number, a call or another command. -/
def Keeps (s s' : State) : Prop :=
  s'.issued = s.issued ∧ ∀ (i : ℕ) (call' : Call), s'.calls[i]? = some call' →
    ∃ call : Call, s.calls[i]? = some call ∧ call'.command = call.command ∧
      call'.ticket = call.ticket ∧ (call.ticket = none → call'.stage = call.stage)

theorem Keeps.trans {s'' : State} (h : Keeps s s') (h' : Keeps s' s'') : Keeps s s'' := by
  refine ⟨h'.1.trans h.1, ?_⟩
  intro i call'' hcall''
  obtain ⟨call', hcall', hcommand', hticket', hstage'⟩ := h'.2 i call'' hcall''
  obtain ⟨call, hcall, hcommand, hticket, hstage⟩ := h.2 i call' hcall'
  refine ⟨call, hcall, hcommand'.trans hcommand, hticket'.trans hticket, fun hnone => ?_⟩
  exact (hstage' (hticket.trans hnone)).trans (hstage hnone)

theorem Keeps.of_calls_eq (hissued : s'.issued = s.issued) (hcalls : s'.calls = s.calls) :
    Keeps s s' := by
  refine ⟨hissued, ?_⟩
  intro i call hcall
  exact ⟨call, hcalls ▸ hcall, rfl, rfl, fun _ => rfl⟩

theorem Keeps.modify {i : ℕ} {f : Call → Call} (hissued : s'.issued = s.issued)
    (hcalls : s'.calls = s.calls.modify i f)
    (hf : ∀ call, s.calls[i]? = some call → (f call).command = call.command ∧
      (f call).ticket = call.ticket ∧ (call.ticket = none → (f call).stage = call.stage)) :
    Keeps s s' := by
  refine ⟨hissued, ?_⟩
  intro j call' hcall'
  rw [hcalls, getElem?_modify_calls] at hcall'
  obtain ⟨call, hcall, rfl⟩ := Option.map_eq_some_iff.mp hcall'
  refine ⟨call, hcall, ?_⟩
  by_cases hij : i = j
  · subst hij
    rw [if_pos rfl]
    exact hf call hcall
  · rw [if_neg hij]
    exact ⟨rfl, rfl, fun _ => rfl⟩

theorem Keeps.setSlot (i : ℕ) (slot : Slot) : Keeps s (s.setSlot i slot) :=
  .modify rfl rfl fun _ _ => ⟨rfl, rfl, fun _ => rfl⟩

theorem Keeps.remove (key : Int32) : Keeps s (s.remove key) := by
  unfold State.remove
  split
  · exact .of_calls_eq rfl rfl
  · next i _ => exact (Keeps.setSlot i .dropped).trans (.of_calls_eq rfl rfl)

theorem Keeps.register (i : ℕ) (key : Int32) : Keeps s (s.register i key) :=
  (Keeps.remove key).trans ((Keeps.setSlot i .empty).trans (.of_calls_eq rfl rfl))

theorem Keeps.clear : Keeps s s.clear := by
  refine ⟨rfl, ?_⟩
  intro i call' hcall'
  rw [getElem?_clear] at hcall'
  obtain ⟨call, hcall, rfl⟩ := Option.map_eq_some_iff.mp hcall'
  refine ⟨call, hcall, ?_⟩
  split
  · exact ⟨rfl, rfl, fun _ => rfl⟩
  · exact ⟨rfl, rfl, fun _ => rfl⟩

theorem Keeps.readBody (body : List UInt8) : Keeps s (readBody json s body) := by
  unfold Remoting.readBody
  split
  · split
    · exact .of_calls_eq rfl rfl
    · exact .of_calls_eq rfl rfl
  · exact .of_calls_eq rfl rfl
  · exact .of_calls_eq rfl rfl

theorem Numbered.transfer (h : Numbered s) (hkeeps : Keeps s s') : Numbered s' := by
  obtain ⟨hissued, hcalls⟩ := hkeeps
  refine ⟨?_, ?_, ?_⟩
  · intro i call' ticket hcall' hticket
    obtain ⟨call, hcall, hcommand, hsame, -⟩ := hcalls i call' hcall'
    rw [hissued, hcommand]
    exact h.issued i call ticket hcall (hsame ▸ hticket)
  · intro i j calli' callj' ticket hcalli' hcallj' hi hj
    obtain ⟨calli, hcalli, -, hsamei, -⟩ := hcalls i calli' hcalli'
    obtain ⟨callj, hcallj, -, hsamej, -⟩ := hcalls j callj' hcallj'
    exact h.once i j calli callj ticket hcalli hcallj (hsamei ▸ hi) (hsamej ▸ hj)
  · intro i call' hcall' hnone
    obtain ⟨call, hcall, -, hsame, hstage⟩ := hcalls i call' hcall'
    rw [hsame] at hnone
    rw [hstage hnone]
    exact h.early i call hcall hnone

/-- A call with a number goes on. -/
theorem Numbered.setStage (h : Numbered s) {i : ℕ} {stage : Stage}
    (hticket : ∀ call, s.calls[i]? = some call → call.ticket ≠ none) :
    Numbered (s.setStage i stage) := by
  refine h.transfer (.modify rfl rfl ?_)
  intro call hcall
  exact ⟨rfl, rfl, fun hnone => absurd hnone (hticket call hcall)⟩

theorem Numbered.append (h : Numbered s) {call : Call} (hticket : call.ticket = none)
    (hstage : call.stage = .entered ∨ ∃ error, call.stage = .returned (.error error)) :
    Numbered { s with calls := s.calls ++ [call] } := by
  -- the new call has no ticket yet
  have hold : ∀ (i : ℕ) (call' : Call), (s.calls ++ [call])[i]? = some call' →
      s.calls[i]? = some call' ∨ call' = call := by
    intro i call' hcall'
    rw [List.getElem?_append] at hcall'
    split at hcall'
    · exact .inl hcall'
    · exact .inr (List.mem_singleton.mp (List.mem_of_getElem? hcall'))
  refine ⟨?_, ?_, ?_⟩
  · intro i call' ticket hcall' hsome
    obtain hcall' | rfl := hold i call' hcall'
    · exact h.issued i call' ticket hcall' hsome
    · exact absurd hsome (by simp [hticket])
  · intro i j calli callj ticket hcalli hcallj hi hj
    obtain hcalli | rfl := hold i calli hcalli
    · obtain hcallj | rfl := hold j callj hcallj
      · exact h.once i j calli callj ticket hcalli hcallj hi hj
      · exact absurd hj (by simp [hticket])
    · exact absurd hi (by simp [hticket])
  · intro i call' hcall' hnone
    obtain hcall' | rfl := hold i call' hcall'
    · exact h.early i call' hcall' hnone
    · exact hstage

/-- A call after `number`: the one that gets its number, or another one. -/
theorem of_getElem?_number {i j : ℕ} {call' : Call}
    (h : (number crypto acl s i).calls[j]? = some call') :
    (i = j ∧ call'.ticket = some s.issued ∧ call'.command.opaqueId = opaqueOf s.issued ∧
      call'.stage = .numbered ∧ ∃ call : Call, s.calls[j]? = some call ∧ call'.slot = call.slot) ∨
    (i ≠ j ∧ s.calls[j]? = some call') := by
  have hcalls := getElem?_modify_calls s.calls i j fun call =>
    { call with
      command := signWith crypto acl { call.command with opaqueId := opaqueOf s.issued }
      stage := .numbered
      ticket := some s.issued }
  obtain ⟨call, hcall, rfl⟩ := Option.map_eq_some_iff.mp (hcalls.symm.trans h)
  by_cases hij : i = j
  · refine .inl ⟨hij, ?_⟩
    rw [if_pos hij]
    exact ⟨rfl, opaqueId_signWith crypto acl _, rfl, call, hcall, rfl⟩
  · rw [if_neg hij]
    exact .inr ⟨hij, hcall⟩

/-- **A call gets the next number of the counter.** -/
theorem Numbered.number (h : Numbered s) (i : ℕ) : Numbered (number crypto acl s i) := by
  refine ⟨?_, ?_, ?_⟩
  · intro j call' ticket hcall' hticket
    obtain ⟨-, hnew, hsameId, -⟩ | ⟨-, hcall⟩ := of_getElem?_number hcall'
    · obtain rfl := Option.some.inj (hnew.symm.trans hticket)
      exact ⟨Nat.lt_succ_self _, hsameId⟩
    · obtain ⟨hlt, hsameId⟩ := h.issued j call' ticket hcall hticket
      exact ⟨Nat.lt_succ_of_lt hlt, hsameId⟩
  · intro j k callj callk ticket hcallj hcallk hj hk
    obtain ⟨rfl, hnew, -⟩ | ⟨-, hcallj⟩ := of_getElem?_number hcallj <;>
      obtain ⟨rfl, hnew', -⟩ | ⟨-, hcallk⟩ := of_getElem?_number hcallk
    · rfl
    · obtain rfl := Option.some.inj (hnew.symm.trans hj)
      exact absurd (h.issued k callk s.issued hcallk hk).1 (lt_irrefl _)
    · obtain rfl := Option.some.inj (hnew'.symm.trans hk)
      exact absurd (h.issued j callj s.issued hcallj hj).1 (lt_irrefl _)
    · exact h.once j k callj callk ticket hcallj hcallk hj hk
  · intro j call' hcall' hnone
    obtain ⟨-, hnew, -⟩ | ⟨-, hcall⟩ := of_getElem?_number hcall'
    · exact absurd hnone (by simp [hnew])
    · exact h.early j call' hcall hnone

theorem Numbered.advance (h : Numbered s) {i : ℕ} {call : Call} (hcall : s.calls[i]? = some call)
    (expired : Bool) : Numbered (advance json crypto acl addr s i call expired).1 := by
  -- past its first access a running call has a number, and keeps it in what follows
  have hrunning : call.stage ≠ .entered → (∀ result, call.stage ≠ .returned result) →
      ∀ {s' : State}, Keeps s s' → ∀ stage, Numbered (s'.setStage i stage) := by
    intro hentered hreturned s' hkeeps stage
    refine (h.transfer hkeeps).setStage ?_
    intro call' hcall' hnone
    obtain ⟨call₀, hcall₀, -, hticket, -⟩ := hkeeps.2 i call' hcall'
    obtain rfl := Option.some.inj (hcall.symm.trans hcall₀)
    obtain hstage | ⟨error, hstage⟩ := h.early i call hcall (hticket.symm.trans hnone)
    · exact hentered hstage
    · exact hreturned _ hstage
  have hsame : Keeps s s := .of_calls_eq rfl rfl
  unfold Remoting.advance
  split
  case h_1 => exact h.number i
  case h_2 hstage => exact hrunning (by simp [hstage]) (by simp [hstage]) (Keeps.register i _) _
  case h_3 hstage =>
    have hgo := hrunning (by simp [hstage]) (by simp [hstage]) hsame
    split
    · exact hgo _
    · exact hgo _
  case h_4 hstage =>
    have hgo := hrunning (by simp [hstage]) (by simp [hstage]) hsame
    split
    · exact hgo _
    · exact hgo _
  case h_5 hstage =>
    refine hrunning (by simp [hstage]) (by simp [hstage]) ?_ _
    exact (Keeps.remove call.command.opaqueId).trans (.of_calls_eq rfl rfl)
  case h_6 hstage =>
    have hgo := hrunning (by simp [hstage]) (by simp [hstage]) hsame
    split
    · exact hgo _
    · exact hgo _
    · split
      · exact hgo _
      · exact h
  case h_7 hstage =>
    exact hrunning (by simp [hstage]) (by simp [hstage]) (Keeps.remove call.command.opaqueId) _
  case h_8 => exact h

theorem Numbered.step (h : Numbered s) (label : Label) :
    Numbered (step json crypto acl addr s label).1 := by
  cases label with
  | call command =>
    simp only [Remoting.step, enter]
    split
    · exact h.append rfl (.inl rfl)
    · exact h.append rfl (.inr ⟨_, rfl⟩)
  | advance i expired =>
    simp only [Remoting.step]
    split
    · next call hcall => exact h.advance hcall expired
    · exact h
  | frame body =>
    simp only [Remoting.step]
    split
    · exact h.transfer (Keeps.readBody body)
    · exact h
  | deliver =>
    simp only [Remoting.step]
    split
    · exact h.transfer ((Keeps.setSlot _ _).trans (.of_calls_eq rfl rfl))
    · exact h
  | readerStops =>
    simp only [Remoting.step]
    split
    · exact h.transfer (.of_calls_eq rfl rfl)
    · exact h
  | readerClears =>
    simp only [Remoting.step]
    split
    · exact h.transfer (Keeps.clear.trans (.of_calls_eq rfl rfl))
    · exact h
  | writerStops => exact h.transfer (.of_calls_eq rfl rfl)
  | shutdown => exact h.transfer (Keeps.clear.trans (.of_calls_eq rfl rfl))

theorem numbered_connected : Numbered connected := by
  have hnone : ∀ (i : ℕ) (call : Call), connected.calls[i]? ≠ some call := by
    intro i call hcall
    exact absurd hcall (by simp [connected])
  exact ⟨fun i call _ hcall => absurd hcall (hnone i call),
    fun i _ call _ _ hcall => absurd hcall (hnone i call),
    fun i call hcall => absurd hcall (hnone i call)⟩

/-- The counter does not repeat itself before it has wrapped around. -/
theorem opaqueOf_injective {ticket ticket' : ℕ} (h : ticket < 2 ^ 32) (h' : ticket' < 2 ^ 32)
    (heq : opaqueOf ticket = opaqueOf ticket') : ticket = ticket' := by
  have hnat := congrArg (fun n : Int32 => n.toBitVec.toNat) heq
  simp only [opaqueOf, Int32.toBitVec_ofNat', BitVec.toNat_ofNat] at hnat
  omega

/-! ### Runs -/

/-- **Responses find their requests.** However calls, frames, timeouts and the ends of reader and
writer interleave: if the reader takes only responses for numbers that are pending, a call returns
nothing but a response with the number that it was given, no two calls return the same frame, and as
long as the counter has not wrapped around no two calls have the same number. -/
theorem responses_paired {labels : List Label}
    (hguard : Machine.Guarded (step json crypto acl addr) (TakesResponses json) connected labels) :
    (∀ (i : ℕ) (call : Call) (d : Delivery),
      (reached json crypto acl addr labels).calls[i]? = some call →
      call.stage = .returned (.ok d) →
        d.command.isResponse = true ∧ d.command.opaqueId = call.command.opaqueId ∧
          ∃ ticket < (reached json crypto acl addr labels).issued,
            call.ticket = some ticket ∧ call.command.opaqueId = opaqueOf ticket) ∧
    (∀ (i j : ℕ) (call call' : Call) (d d' : Delivery),
      (reached json crypto acl addr labels).calls[i]? = some call →
      (reached json crypto acl addr labels).calls[j]? = some call' →
      call.stage = .returned (.ok d) → call'.stage = .returned (.ok d') →
        d.frame = d'.frame → i = j) ∧
    ((reached json crypto acl addr labels).issued ≤ 2 ^ 32 →
      ∀ (i j : ℕ) (call call' : Call), (reached json crypto acl addr labels).calls[i]? = some call →
        (reached json crypto acl addr labels).calls[j]? = some call' →
        call.ticket ≠ none → call'.ticket ≠ none →
          call.command.opaqueId = call'.command.opaqueId → i = j) := by
  -- both invariants at once, over the guarded run
  obtain ⟨hpaired, hnumbered⟩ := Machine.run_guarded
    (H := fun _ _ s => Paired (fun command => command.isResponse = true) s ∧ Numbered s)
    (fun _ _ s label h hlabel => ⟨h.1.step hlabel, h.2.step label⟩)
    ⟨paired_connected, numbered_connected⟩ hguard
  refine ⟨?_, ?_, ?_⟩
  · intro i call d hcall hstage
    obtain ⟨-, hresponse, call', hcall', -, hsameId⟩ :=
      hpaired.owns i d (.inr ⟨call, hcall, .inr hstage⟩)
    obtain rfl := Option.some.inj (hcall.symm.trans hcall')
    refine ⟨hresponse, hsameId.symm, ?_⟩
    cases hticket : call.ticket with
    | none =>
      obtain hentered | ⟨error, herror⟩ := hnumbered.early i call hcall hticket
      · exact absurd (hstage.symm.trans hentered) (by simp)
      · exact absurd (hstage.symm.trans herror) (by simp)
    | some ticket =>
      obtain ⟨hlt, hnumber⟩ := hnumbered.issued i call ticket hcall hticket
      exact ⟨ticket, hlt, rfl, hnumber⟩
  · intro i j call call' d d' hcall hcall' hstage hstage' hframe
    exact hpaired.once i j d d' (.inr ⟨call, hcall, .inr hstage⟩)
      (.inr ⟨call', hcall', .inr hstage'⟩) hframe
  · intro hfew i j call call' hcall hcall' hsome hsome' hsameId
    obtain ⟨ticket, hticket⟩ := Option.ne_none_iff_exists'.mp hsome
    obtain ⟨ticket', hticket'⟩ := Option.ne_none_iff_exists'.mp hsome'
    obtain ⟨hlt, hnumber⟩ := hnumbered.issued i call ticket hcall hticket
    obtain ⟨hlt', hnumber'⟩ := hnumbered.issued j call' ticket' hcall' hticket'
    -- below 2^32 tickets the numbers are told apart
    obtain rfl := opaqueOf_injective (lt_of_lt_of_le hlt hfew) (lt_of_lt_of_le hlt' hfew)
      (hnumber.symm.trans (hsameId.trans hnumber'))
    exact hnumbered.once i j call call' ticket hcall hcall' hticket hticket'

end Channel

/-! ### A request, and what the server sends for it -/

open BigEndian

/-- The JSON of a command without fields, as `serde_json` writes it. -/
def headerText (code : ℕ) (language : String) (flag : ℕ) : List UInt8 :=
  asBytes ("\x7b\"code\":" ++ toString code ++ ",\"language\":\"" ++ language
    ++ "\",\"version\":0,\"opaque\":1,\"flag\":" ++ toString flag ++ "\x7d")

/-- A command of the server with number 1: the answer to a request, or a notification. -/
def serverCommand (code flag : Int32) : RemotingCommand := ⟨code, "JAVA", 0, 1, flag, none, ∅, none⟩

/-- `serde_json`, as far as the commands below go. -/
def exchangeSerde : SerdeJson where
  toVec command :=
    if command = { RemotingCommand.createRequest 106 ∅ with opaqueId := 1 } then
      .ok (headerText 106 "OTHER" 0)
    else .error "another command"
  fromSlice bytes :=
    if bytes = headerText 0 "JAVA" 1 then .ok (serverCommand 0 1)
    else if bytes = headerText 40 "JAVA" 0 then .ok (serverCommand 40 0)
    else .error "another header"

/-- Digests and encodings that nothing here computes. -/
def noCrypto : Crypto := ⟨fun _ => [], fun _ => ""⟩

/-- A call waits, a frame with the given header arrives, and the call goes on. -/
def exchange (header : List UInt8) : List Label :=
  [.call (.createRequest 106 ∅), .advance 0 false, .advance 0 false, .advance 0 false,
    .advance 0 false, .frame (toBe 4 header.length ++ header), .deliver, .advance 0 false]

theorem takesResponses_of_ne {json : SerdeJson} {label : Label}
    (h : ∀ body, label ≠ .frame body) : TakesResponses json s label := by
  intro body _ hlabel
  exact absurd hlabel (h body)

theorem responses_paired_answer : ∃ (call : Call) (d : Delivery),
    (reached exchangeSerde noCrypto none "127.0.0.1:10911"
      (exchange (headerText 0 "JAVA" 1))).calls[0]? = some call ∧
    call.stage = .returned (.ok d) ∧ d.command.isResponse = true ∧
    d.command.opaqueId = call.command.opaqueId := by
  have hdecode : decodeFrame exchangeSerde
      (toBe 4 (headerText 0 "JAVA" 1).length ++ headerText 0 "JAVA" 1
        ++ (serverCommand 0 1).body.getD []) = .ok (serverCommand 0 1).received :=
    decodeFrame_encoded (by simp [exchangeSerde, serverCommand]) (by decide)
  rw [show (serverCommand 0 1).body.getD [] = [] from rfl, List.append_nil] at hdecode
  have hguard : Machine.Guarded (step exchangeSerde noCrypto none "127.0.0.1:10911")
      (TakesResponses exchangeSerde) connected (exchange (headerText 0 "JAVA" 1)) := by
    refine .cons (takesResponses_of_ne (by simp)) (.cons (takesResponses_of_ne (by simp))
      (.cons (takesResponses_of_ne (by simp)) (.cons (takesResponses_of_ne (by simp))
        (.cons (takesResponses_of_ne (by simp)) (.cons ?_ (.cons (takesResponses_of_ne (by simp))
          (.cons (takesResponses_of_ne (by simp)) Machine.guarded_nil)))))))
    intro body command hlabel _ hcommand _
    obtain rfl := Label.frame.inj hlabel
    obtain rfl := Except.ok.inj (hdecode.symm.trans hcommand)
    rfl
  obtain ⟨hresponse, hsameId, -⟩ := (responses_paired hguard).1 0 _ ⟨0, serverCommand 0 1⟩ rfl rfl
  exact ⟨_, ⟨0, serverCommand 0 1⟩, rfl, rfl, hresponse, hsameId⟩

/-- **A request of the server completes a call** that has the number it carries. -/
theorem request_completes_invoke : ∃ (call : Call) (d : Delivery),
    (reached exchangeSerde noCrypto none "127.0.0.1:10911"
      (exchange (headerText 40 "JAVA" 0))).calls[0]? = some call ∧
    call.stage = .returned (.ok d) ∧ d.command.isResponse = false :=
  ⟨_, ⟨0, serverCommand 40 0⟩, rfl, rfl, rfl⟩


end Remoting
end Rocketmq
end Navop
