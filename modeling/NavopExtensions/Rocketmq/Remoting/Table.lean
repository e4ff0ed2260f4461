import NavopExtensions.Rocketmq.Remoting.Pairing

/-!
# The table of pending requests

A call puts its waiter into the table before it encodes its frame, and has five ways out. Four of them
leave nothing behind: the reader takes the waiter out for a response, a cleared table has lost it, and
a failed send and a timeout remove it. A frame that cannot be encoded is the fifth, and there the
waiter stays (`failed_encoding_stays_pending`). In runs without it, and as long as no number is handed
out that a running call has, the keys of the table are the numbers of the calls that wait for an
answer (`pending_exact`).
-/

namespace Navop
namespace Rocketmq
namespace Remoting

variable {s s' : State} {cancelled : Prop} {i : ℕ} {call : Call} {key : Int32}

/-! ### The invariant -/

/-- The call has a number and has not returned. -/
def Stage.isOpen : Stage → Bool
  | .entered | .returned _ => false
  | _ => true

/-- The call has registered its waiter and has not returned. -/
def Stage.isRegistered : Stage → Bool
  | .entered | .numbered | .returned _ => false
  | _ => true

/-- The call has not come to register its waiter. -/
def Stage.isEarly : Stage → Bool
  | .entered | .numbered => true
  | _ => false

theorem Stage.isOpen_of_isRegistered {stage : Stage} (h : stage.isRegistered = true) :
    stage.isOpen = true := by
  cases stage <;> first | rfl | exact absurd h (by simp [Stage.isRegistered])

theorem Stage.not_isEarly_of_isRegistered {stage : Stage} (h : stage.isRegistered = true) :
    stage.isEarly = false := by
  cases stage <;> first | rfl | exact absurd h (by simp [Stage.isRegistered])

/-- Where the sender of a call's channel is: in the table, in the reader's hand, used up or gone. A
call that still listens has lost it only to a cancellation. -/
structure Filed (cancelled inTable inHand : Prop) (call : Call) : Prop where
  located : call.slot = .empty → inTable ∨ inHand
  ofTable : inTable → call.slot = .empty ∧ call.stage.isRegistered = true
  ofHand : inHand → call.slot = .empty ∧ ¬ inTable
  early : call.stage.isEarly = true → call.slot = .unmade
  dropped : call.stage.isRegistered = true → call.stage.receives = true → call.slot = .dropped →
    cancelled

/-- The sender of call `i` is where the table and the reader say, waiters are filed under their
numbers, and calls that run have numbers of their own. -/
structure Tabled (cancelled : Prop) (s : State) : Prop where
  filed : ∀ (i : ℕ) (call : Call), s.calls[i]? = some call →
    Filed cancelled (s.pending.lookup call.command.opaqueId = some i)
      (∃ d, s.reader = .holding i d) call
  table : ∀ (key : Int32) (i : ℕ), s.pending.lookup key = some i →
    ∃ call : Call, s.calls[i]? = some call ∧ call.command.opaqueId = key
  hand : ∀ (i : ℕ) (d : Delivery), s.reader = .holding i d → ∃ call : Call, s.calls[i]? = some call
  distinct : ∀ (i j : ℕ) (call call' : Call), s.calls[i]? = some call →
    s.calls[j]? = some call' → call.stage.isOpen = true → call'.stage.isOpen = true →
      call.command.opaqueId = call'.command.opaqueId → i = j

theorem Filed.mono {cancelled' inTable inTable' inHand inHand' : Prop}
    (h : Filed cancelled inTable inHand call) (hcancelled : cancelled → cancelled')
    (htable : inTable ↔ inTable') (hhand : inHand ↔ inHand') :
    Filed cancelled' inTable' inHand' call := by
  refine ⟨?_, ?_, ?_, h.early, fun hstage hreceives hslot => ?_⟩
  · rw [← htable, ← hhand]
    exact h.located
  · rw [← htable]
    exact h.ofTable
  · rw [← htable, ← hhand]
    exact h.ofHand
  · exact hcancelled (h.dropped hstage hreceives hslot)

theorem Tabled.mono {cancelled' : Prop} (h : Tabled cancelled s) (hcancelled : cancelled → cancelled') :
    Tabled cancelled' s :=
  ⟨fun i call hcall => (h.filed i call hcall).mono hcancelled .rfl .rfl, h.table, h.hand,
    h.distinct⟩

/-- **The table holds waiters of running calls.** -/
theorem Tabled.waiter (h : Tabled cancelled s) (hkey : s.pending.lookup key = some i) :
    ∃ call : Call, s.calls[i]? = some call ∧ call.command.opaqueId = key ∧ call.slot = .empty ∧
      call.stage.isRegistered = true ∧ ∀ d, s.reader ≠ .holding i d := by
  obtain ⟨call, hcall, rfl⟩ := h.table key i hkey
  obtain ⟨hslot, hstage⟩ := (h.filed i call hcall).ofTable hkey
  refine ⟨call, hcall, rfl, hslot, hstage, fun d hd => ?_⟩
  exact ((h.filed i call hcall).ofHand ⟨d, hd⟩).2 hkey

/-- The call of an entry of the table. -/
theorem Tabled.key_eq (h : Tabled cancelled s) (hcall : s.calls[i]? = some call)
    (hkey : s.pending.lookup key = some i) : key = call.command.opaqueId := by
  obtain ⟨call', hcall', hsameId⟩ := h.table key i hkey
  obtain rfl := Option.some.inj (hcall.symm.trans hcall')
  exact hsameId.symm

/-- The number of a running call is filed for this call or not at all. -/
theorem Tabled.lookup_eq (h : Tabled cancelled s) (hcall : s.calls[i]? = some call)
    (hopen : call.stage.isOpen = true) {j : ℕ}
    (hkey : s.pending.lookup call.command.opaqueId = some j) : j = i := by
  obtain ⟨call', hcall', hsameId, -, hstage, -⟩ := h.waiter hkey
  exact h.distinct j i call' call hcall' hcall (Stage.isOpen_of_isRegistered hstage) hopen hsameId

/-! ### One call is changed -/

/-- A transition that changes one call, and the table and the reader for this call only. -/
theorem Tabled.modify (h : Tabled cancelled s) {f : Call → Call} (hcall : s.calls[i]? = some call)
    (hcalls : s'.calls = s.calls.modify i f)
    (hsameId : (f call).command.opaqueId = call.command.opaqueId)
    (hopen : (f call).stage.isOpen = true → call.stage.isOpen = true)
    (hself : Filed cancelled (s'.pending.lookup call.command.opaqueId = some i)
      (∃ d, s'.reader = .holding i d) (f call))
    (hkeys : ∀ key, s'.pending.lookup key = some i → key = call.command.opaqueId)
    (hothers : ∀ j ≠ i, ∀ key, s'.pending.lookup key = some j ↔ s.pending.lookup key = some j)
    (hreader : ∀ j ≠ i, ∀ d, s'.reader = .holding j d ↔ s.reader = .holding j d) :
    Tabled cancelled s' := by
  -- every call but this one is as it was
  have hold : ∀ (j : ℕ) (call' : Call), s'.calls[j]? = some call' →
      (j = i ∧ call' = f call) ∨ (j ≠ i ∧ s.calls[j]? = some call') := by
    intro j call' hcall'
    rw [hcalls, getElem?_modify_calls] at hcall'
    obtain ⟨call₀, hcall₀, rfl⟩ := Option.map_eq_some_iff.mp hcall'
    by_cases hij : i = j
    · subst hij
      obtain rfl := Option.some.inj (hcall.symm.trans hcall₀)
      exact .inl ⟨rfl, if_pos rfl⟩
    · rw [if_neg hij]
      exact .inr ⟨Ne.symm hij, hcall₀⟩
  have hnew : s'.calls[i]? = some (f call) := by
    rw [hcalls, getElem?_modify_calls, hcall, Option.map_some, if_pos rfl]
  have hstays : ∀ (j : ℕ) (call' : Call), j ≠ i → s.calls[j]? = some call' →
      s'.calls[j]? = some call' := by
    intro j call' hj hcall'
    rw [hcalls, getElem?_modify_calls, hcall', Option.map_some, if_neg (Ne.symm hj)]
  refine ⟨?_, ?_, ?_, ?_⟩
  · intro j call' hcall'
    obtain ⟨rfl, rfl⟩ | ⟨hj, hcall'⟩ := hold j call' hcall'
    · rw [hsameId]
      exact hself
    · refine (h.filed j call' hcall').mono id (hothers j hj _).symm ?_
      exact exists_congr fun d => (hreader j hj d).symm
  · intro key j hkey
    by_cases hj : j = i
    · subst hj
      exact ⟨f call, hnew, hsameId.trans (hkeys key hkey).symm⟩
    · obtain ⟨call', hcall', hkey'⟩ := h.table key j ((hothers j hj key).mp hkey)
      exact ⟨call', hstays j call' hj hcall', hkey'⟩
  · intro j d hd
    by_cases hj : j = i
    · subst hj
      exact ⟨f call, hnew⟩
    · obtain ⟨call', hcall'⟩ := h.hand j d ((hreader j hj d).mp hd)
      exact ⟨call', hstays j call' hj hcall'⟩
  · intro j k callj callk hcallj hcallk hj hk heq
    obtain ⟨rfl, rfl⟩ | ⟨-, hcallj⟩ := hold j callj hcallj <;>
      obtain ⟨rfl, rfl⟩ | ⟨-, hcallk⟩ := hold k callk hcallk
    · rfl
    · exact h.distinct _ k call callk hcall hcallk (hopen hj) hk (hsameId.symm.trans heq)
    · exact h.distinct j _ callj call hcallj hcall hj (hopen hk) (heq.trans hsameId)
    · exact h.distinct j k callj callk hcallj hcallk hj hk heq

/-- Transitions that touch neither the calls nor the table. -/
theorem Tabled.flags (h : Tabled cancelled s) (hcalls : s'.calls = s.calls)
    (hpending : s'.pending = s.pending)
    (hreader : ∀ i d, s'.reader = .holding i d ↔ s.reader = .holding i d) : Tabled cancelled s' := by
  refine ⟨?_, ?_, ?_, ?_⟩
  · intro i call hcall
    rw [hcalls] at hcall
    rw [hpending]
    exact (h.filed i call hcall).mono id .rfl (exists_congr fun d => (hreader i d).symm)
  · rw [hpending, hcalls]
    exact h.table
  · intro i d hd
    rw [hcalls]
    exact h.hand i d ((hreader i d).mp hd)
  · rw [hcalls]
    exact h.distinct

/-- A registered call goes on. -/
theorem Tabled.setStage (h : Tabled cancelled s) {stage : Stage} (hcall : s.calls[i]? = some call)
    (hstage : call.stage.isRegistered = true) (hnext : stage.isRegistered = true)
    (hreceives : stage.receives = true → call.stage.receives = true) :
    Tabled cancelled (s.setStage i stage) := by
  have hfiled := h.filed i call hcall
  refine h.modify hcall rfl rfl (fun _ => Stage.isOpen_of_isRegistered hstage)
    ⟨hfiled.located, ?_, hfiled.ofHand, ?_, ?_⟩ ?_ (fun _ _ _ => .rfl) (fun _ _ _ => .rfl)
  · intro hkey
    exact ⟨(hfiled.ofTable hkey).1, hnext⟩
  · intro hearly
    exact absurd hearly (by simp [Stage.not_isEarly_of_isRegistered hnext])
  · intro _ hlistens hslot
    exact hfiled.dropped hstage (hreceives hlistens) hslot
  · intro key hkey
    exact h.key_eq hcall hkey

/-- A call whose waiter is not in the table returns. -/
theorem Tabled.finish (h : Tabled cancelled s) (hcall : s.calls[i]? = some call)
    (hopen : call.stage.isOpen = true) (hfree : s.pending.lookup call.command.opaqueId ≠ some i)
    (result : Except RocketmqError Delivery) : Tabled cancelled (s.finish i result).1 := by
  have hfiled := h.filed i call hcall
  refine h.modify hcall rfl rfl (fun _ => hopen)
    ⟨hfiled.located, fun hkey => absurd hkey hfree, hfiled.ofHand, ?_, ?_⟩ ?_ (fun _ _ _ => .rfl)
    (fun _ _ _ => .rfl)
  · intro hearly
    exact absurd hearly (by simp [Stage.isEarly])
  · intro hstage
    exact absurd hstage (by simp [Stage.isRegistered])
  · intro key hkey
    exact h.key_eq hcall hkey

/-- Erasing the number of a call takes its waiter out of the table, and no other one. -/
theorem lookup_erase_iff (hkey : s.pending.lookup key = some i) {j : ℕ} (hj : j ≠ i)
    (key' : Int32) :
    (s.pending.erase key).lookup key' = some j ↔ s.pending.lookup key' = some j := by
  by_cases hsame : key' = key
  · subst hsame
    rw [Finmap.lookup_erase, hkey]
    simp [Ne.symm hj]
  · rw [Finmap.lookup_erase_ne hsame]

/-- **A waiter is taken out of the table**, by the call itself or by the reader. -/
theorem Tabled.takeOut (h : Tabled cancelled s) {f : Call → Call}
    (hcall : s.calls[i]? = some call) (hkey : s.pending.lookup call.command.opaqueId = some i)
    (hcalls : s'.calls = s.calls.modify i f)
    (hpending : s'.pending = s.pending.erase call.command.opaqueId)
    (hreader : ∀ j ≠ i, ∀ d, s'.reader = .holding j d ↔ s.reader = .holding j d)
    (hsameId : (f call).command.opaqueId = call.command.opaqueId)
    (hopen : (f call).stage.isOpen = true → call.stage.isOpen = true)
    (hself : Filed cancelled False (∃ d, s'.reader = .holding i d) (f call)) :
    Tabled cancelled s' := by
  have hgone : ∀ key, s'.pending.lookup key ≠ some i := by
    intro key hlookup
    rw [hpending] at hlookup
    obtain ⟨hne, hlookup⟩ := lookup_erase_eq_some hlookup
    exact hne (h.key_eq hcall hlookup)
  refine h.modify hcall hcalls hsameId hopen ?_ ?_ ?_ hreader
  · exact hself.mono id (iff_of_false id (hgone _)) .rfl
  · intro key hlookup
    exact absurd hlookup (hgone key)
  · intro j hj key
    rw [hpending]
    exact lookup_erase_iff hkey hj key

theorem remove_of_none (h : s.pending.lookup key = none) : s.remove key = s := by
  unfold State.remove
  rw [h]

theorem lookup_remove (s : State) (key : Int32) : (s.remove key).pending.lookup key = none := by
  unfold State.remove
  split
  · next h => exact h
  · exact Finmap.lookup_erase key s.pending

/-- **A call gives up**: it takes its waiter out of the table, if it is there, and returns. -/
theorem Tabled.leave (h : Tabled cancelled s) (hcall : s.calls[i]? = some call)
    (hstage : call.stage.isRegistered = true) (result : Except RocketmqError Delivery) :
    Tabled cancelled ((s.remove call.command.opaqueId).finish i result).1 := by
  have hopen := Stage.isOpen_of_isRegistered hstage
  cases hkey : s.pending.lookup call.command.opaqueId with
  | none =>
    rw [remove_of_none hkey]
    exact h.finish hcall hopen (by simp [hkey]) result
  | some j =>
    obtain rfl := h.lookup_eq hcall hopen hkey
    -- the entry found under the number is the call's own
    have hremove : s.remove call.command.opaqueId
        = { s.setSlot j .dropped with pending := s.pending.erase call.command.opaqueId } := by
      unfold State.remove
      rw [hkey]
    rw [hremove]
    refine h.takeOut hcall hkey (List.modify_modify_eq ..) rfl (fun _ _ _ => .rfl) rfl
      (fun _ => hopen) ⟨?_, False.elim, ?_, ?_, ?_⟩
    · intro hslot
      exact absurd hslot (by simp)
    · intro hheld
      exact absurd hkey ((h.filed j call hcall).ofHand hheld).2
    · intro hearly
      exact absurd hearly (by simp [Stage.isEarly])
    · intro hregistered
      exact absurd hregistered (by simp [Stage.isRegistered])

/-- **A call registers its waiter.** Nobody has used its number. -/
theorem Tabled.register (h : Tabled cancelled s) (hcall : s.calls[i]? = some call)
    (hstage : call.stage = .numbered) :
    Tabled cancelled ((s.register i call.command.opaqueId).setStage i .registered) := by
  have hopen : call.stage.isOpen = true := by rw [hstage]; rfl
  have hunmade := (h.filed i call hcall).early (by rw [hstage]; rfl)
  -- no open call has the number, so that nobody is pushed out of the table
  have hfree : s.pending.lookup call.command.opaqueId = none := by
    cases hkey : s.pending.lookup call.command.opaqueId with
    | none => rfl
    | some j =>
      obtain rfl := h.lookup_eq hcall hopen hkey
      exact absurd ((h.filed j call hcall).ofTable hkey).1 (by simp [hunmade])
  unfold State.register
  rw [remove_of_none hfree]
  refine h.modify hcall (List.modify_modify_eq ..) rfl (fun _ => hopen) ⟨?_, ?_, ?_, ?_, ?_⟩ ?_ ?_
    (fun _ _ _ => .rfl)
  · intro _
    exact .inl (Finmap.lookup_insert s.pending)
  · intro _
    exact ⟨rfl, rfl⟩
  · intro hheld
    exact absurd ((h.filed i call hcall).ofHand hheld).1 (by simp [hunmade])
  · intro hearly
    exact absurd hearly (by simp [Stage.isEarly])
  · intro _ _ hslot
    exact absurd hslot (by simp)
  · intro key hkey
    by_contra hne
    have hold : s.pending.lookup key = some i :=
      (Finmap.lookup_insert_of_ne s.pending hne).symm.trans hkey
    exact hne (h.key_eq hcall hold)
  · intro j hj key
    by_cases hsame : key = call.command.opaqueId
    · subst hsame
      change (s.pending.insert call.command.opaqueId i).lookup call.command.opaqueId = some j ↔ _
      rw [Finmap.lookup_insert, hfree]
      simp [Ne.symm hj]
    · exact iff_of_eq (congrArg (· = some j) (Finmap.lookup_insert_of_ne s.pending hsame))

/-- **A frame finds its waiter**, and the reader takes it out of the table. -/
theorem Tabled.take (h : Tabled cancelled s) (hreader : s.reader = .reading)
    (hkey : s.pending.lookup key = some i) (d : Delivery) (arrived : ℕ) :
    Tabled cancelled { s with
      pending := s.pending.erase key
      reader := .holding i d
      arrived := arrived } := by
  obtain ⟨call, hcall, rfl, hslot, hstage, -⟩ := h.waiter hkey
  refine h.takeOut hcall hkey (List.modify_id ..).symm rfl ?_ rfl id ⟨?_, False.elim, ?_, ?_, ?_⟩
  · intro j hj d'
    refine iff_of_false ?_ (by simp [hreader])
    intro hholding
    exact hj (Reader.holding.inj hholding).1.symm
  · intro _
    exact .inr ⟨d, rfl⟩
  · intro _
    exact ⟨hslot, id⟩
  · exact (h.filed i call hcall).early
  · exact (h.filed i call hcall).dropped

/-- The reader sends to the waiter in its hand. -/
theorem Tabled.deliver (h : Tabled cancelled s) {d : Delivery} (hreader : s.reader = .holding i d) :
    Tabled cancelled (deliver s i d) := by
  obtain ⟨call, hcall⟩ := h.hand i d hreader
  obtain ⟨hslot, hfree⟩ := (h.filed i call hcall).ofHand ⟨d, hreader⟩
  have hhanded : handed s i d = if call.stage.receives then .sent d else .dropped := by
    unfold handed
    rw [hcall]
  -- the reader's hand is empty again
  have hreading : ∀ j d', (Remoting.deliver s i d).reader ≠ .holding j d' := by
    intro j d' hholding
    exact absurd hholding (by simp [Remoting.deliver])
  refine h.modify hcall rfl rfl id ⟨?_, fun hkey => absurd hkey hfree, ?_, ?_, ?_⟩ ?_
    (fun _ _ _ => .rfl) ?_
  · intro hempty
    change handed s i d = .empty at hempty
    rw [hhanded] at hempty
    split at hempty <;> exact absurd hempty (by simp)
  · rintro ⟨d', hholding⟩
    exact absurd hholding (hreading i d')
  · intro hearly
    exact absurd ((h.filed i call hcall).early hearly) (by simp [hslot])
  · intro _ hreceives hdropped
    change handed s i d = .dropped at hdropped
    rw [hhanded, if_pos hreceives] at hdropped
    exact absurd hdropped (by simp)
  · intro key hkey
    exact h.key_eq hcall hkey
  · intro j hj d'
    refine iff_of_false (hreading j d') ?_
    rw [hreader]
    intro hholding
    exact hj (Reader.holding.inj hholding).1.symm

/-! ### All calls, and new ones -/

/-- **The table is cleared.** -/
theorem Tabled.clear (h : Tabled cancelled s) (hcancelled : cancelled) :
    Tabled cancelled s.clear := by
  -- every call that was in the table finds its slot dropped
  have hold : ∀ (i : ℕ) (call' : Call), s.clear.calls[i]? = some call' → ∃ call : Call,
      s.calls[i]? = some call ∧ call'.stage = call.stage ∧
        call'.command = call.command ∧
        ((s.pending.lookup call.command.opaqueId = some i ∧ call'.slot = .dropped) ∨
          (s.pending.lookup call.command.opaqueId ≠ some i ∧ call'.slot = call.slot)) := by
    intro i call' hcall'
    rw [getElem?_clear] at hcall'
    obtain ⟨call, hcall, rfl⟩ := Option.map_eq_some_iff.mp hcall'
    refine ⟨call, hcall, ?_⟩
    split
    · next hkey => exact ⟨rfl, rfl, .inl ⟨hkey, rfl⟩⟩
    · next hkey => exact ⟨rfl, rfl, .inr ⟨hkey, rfl⟩⟩
  refine ⟨?_, ?_, ?_, ?_⟩
  · intro i call' hcall'
    obtain ⟨call, hcall, hstage, -, hslot⟩ := hold i call' hcall'
    have hfiled := h.filed i call hcall
    refine ⟨?_, fun hkey => absurd hkey (by simp [State.clear]), ?_, ?_, fun _ _ _ => hcancelled⟩
    · intro hempty
      obtain ⟨-, hdropped⟩ | ⟨hfree, hsame⟩ := hslot
      · exact absurd (hdropped.symm.trans hempty) (by simp)
      · exact .inr ((hfiled.located (hsame.symm.trans hempty)).resolve_left hfree)
    · intro hheld
      obtain ⟨hempty, hfree⟩ := hfiled.ofHand hheld
      obtain ⟨hkey, -⟩ | ⟨-, hsame⟩ := hslot
      · exact absurd hkey hfree
      · exact ⟨hsame.trans hempty, by simp [State.clear]⟩
    · intro hearly
      rw [hstage] at hearly
      obtain ⟨hkey, -⟩ | ⟨-, hsame⟩ := hslot
      · exact absurd (hfiled.ofTable hkey).1 (by simp [hfiled.early hearly])
      · exact hsame.trans (hfiled.early hearly)
  · intro key i hkey
    exact absurd hkey (by simp [State.clear])
  · intro i d hd
    obtain ⟨call, hcall⟩ := h.hand i d hd
    exact ⟨_, by rw [getElem?_clear, hcall, Option.map_some]⟩
  · intro i j calli' callj' hcalli' hcallj' hi hj heq
    obtain ⟨calli, hcalli, hstagei, hcommandi, -⟩ := hold i calli' hcalli'
    obtain ⟨callj, hcallj, hstagej, hcommandj, -⟩ := hold j callj' hcallj'
    rw [hstagei] at hi
    rw [hstagej] at hj
    rw [hcommandi, hcommandj] at heq
    exact h.distinct i j calli callj hcalli hcallj hi hj heq

/-- A call enters: the table does not know it yet. -/
theorem Tabled.append (h : Tabled cancelled s) (hslot : call.slot = .unmade)
    (hopen : call.stage.isOpen = false) :
    Tabled cancelled { s with calls := s.calls ++ [call] } := by
  -- the new call comes last and is in no table
  have hold : ∀ (i : ℕ) (call' : Call), (s.calls ++ [call])[i]? = some call' →
      s.calls[i]? = some call' ∨ (s.calls[i]? = none ∧ call' = call) := by
    intro i call' hcall'
    rw [List.getElem?_append] at hcall'
    split at hcall'
    · exact .inl hcall'
    · next hlength =>
      exact .inr ⟨List.getElem?_eq_none (Nat.not_lt.mp hlength),
        List.mem_singleton.mp (List.mem_of_getElem? hcall')⟩
  have hstays : ∀ (i : ℕ) (call' : Call), s.calls[i]? = some call' →
      (s.calls ++ [call])[i]? = some call' := by
    intro i call' hcall'
    rw [List.getElem?_append_left (List.getElem?_eq_some_iff.mp hcall').1]
    exact hcall'
  refine ⟨?_, ?_, ?_, ?_⟩
  · intro i call' hcall'
    obtain hcall' | ⟨hnone, rfl⟩ := hold i call' hcall'
    · exact h.filed i call' hcall'
    · refine ⟨fun hempty => absurd hempty (by simp [hslot]), ?_, ?_, fun _ => hslot,
        fun _ _ hdropped => absurd hdropped (by simp [hslot])⟩
      · intro hkey
        obtain ⟨call₀, hcall₀, -⟩ := h.table _ i hkey
        exact absurd (hnone.symm.trans hcall₀) (by simp)
      · rintro ⟨d, hd⟩
        obtain ⟨call₀, hcall₀⟩ := h.hand i d hd
        exact absurd (hnone.symm.trans hcall₀) (by simp)
  · intro key i hkey
    obtain ⟨call', hcall', hsameId⟩ := h.table key i hkey
    exact ⟨call', hstays i call' hcall', hsameId⟩
  · intro i d hd
    obtain ⟨call', hcall'⟩ := h.hand i d hd
    exact ⟨call', hstays i call' hcall'⟩
  · intro i j calli callj hcalli hcallj hi hj heq
    obtain hcalli | ⟨-, rfl⟩ := hold i calli hcalli
    · obtain hcallj | ⟨-, rfl⟩ := hold j callj hcallj
      · exact h.distinct i j calli callj hcalli hcallj hi hj heq
      · exact absurd hj (by simp [hopen])
    · exact absurd hi (by simp [hopen])

section Channel

variable {json : SerdeJson} {crypto : Crypto} {acl : Option AclCredentials} {addr : String}
  {label : Label}

/-- **A call gets a number** that no running call has. -/
theorem Tabled.number (h : Tabled cancelled s) (hcall : s.calls[i]? = some call)
    (hstage : call.stage = .entered)
    (hfresh : ∀ (j : ℕ) (other : Call), s.calls[j]? = some other → other.stage.isOpen = true →
      other.command.opaqueId ≠ opaqueOf s.issued) :
    Tabled cancelled (number crypto acl s i) := by
  have hunmade := (h.filed i call hcall).early (by rw [hstage]; rfl)
  -- the number is fresh among the open calls, and only such are in the table
  have hfree : ∀ j, s.pending.lookup (opaqueOf s.issued) ≠ some j := by
    intro j hkey
    obtain ⟨other, hother, hsameId, -, hregistered, -⟩ := h.waiter hkey
    exact hfresh j other hother (Stage.isOpen_of_isRegistered hregistered) hsameId
  refine ⟨?_, ?_, ?_, ?_⟩
  · intro j call' hcall'
    obtain ⟨rfl, -, hsameId, hnumbered, call₀, hcall₀, hslot⟩ | ⟨-, hcall'⟩ :=
      of_getElem?_number hcall'
    · obtain rfl := Option.some.inj (hcall.symm.trans hcall₀)
      rw [hunmade] at hslot
      refine ⟨fun hempty => absurd hempty (by simp [hslot]), ?_, ?_, fun _ => hslot,
        fun _ _ hdropped => absurd hdropped (by simp [hslot])⟩
      · intro hkey
        rw [hsameId] at hkey
        exact absurd hkey (hfree i)
      · intro hheld
        exact absurd ((h.filed i call hcall).ofHand hheld).1 (by simp [hunmade])
    · exact h.filed j call' hcall'
  · intro key j hkey
    obtain ⟨other, hother, hsameId, -, hregistered, -⟩ := h.waiter hkey
    refine ⟨other, ?_, hsameId⟩
    have hij : i ≠ j := by
      rintro rfl
      obtain rfl := Option.some.inj (hcall.symm.trans hother)
      exact absurd hregistered (by simp [hstage, Stage.isRegistered])
    refine (getElem?_modify_calls s.calls i j _).trans ?_
    rw [hother, Option.map_some, if_neg hij]
  · intro j d hd
    obtain ⟨other, hother⟩ := h.hand j d hd
    exact ⟨_, (getElem?_modify_calls s.calls i j _).trans (by rw [hother, Option.map_some])⟩
  · intro j k callj callk hcallj hcallk hj hk heq
    obtain ⟨rfl, -, hsameId, -⟩ | ⟨-, hcallj⟩ := of_getElem?_number hcallj <;>
      obtain ⟨rfl, -, hsameId', -⟩ | ⟨-, hcallk⟩ := of_getElem?_number hcallk
    · rfl
    · exact absurd (heq.symm.trans hsameId) (hfresh k callk hcallk hk)
    · exact absurd (heq.trans hsameId') (hfresh j callj hcallj hj)
    · exact h.distinct j k callj callk hcallj hcallk hj hk heq

/-! ### Transitions -/

/-- No number is handed out that a running call has, and the frames of registered calls can be
encoded. -/
def Orderly (json : SerdeJson) (s : State) (label : Label) : Prop :=
  ∀ (i : ℕ) (expired : Bool) (call : Call), label = .advance i expired → s.calls[i]? = some call →
    (call.stage = .entered → ∀ (j : ℕ) (other : Call), s.calls[j]? = some other →
      other.stage.isOpen = true → other.command.opaqueId ≠ opaqueOf s.issued) ∧
    (call.stage = .registered → ∃ frame, encodeFrame json call.command = .ok frame)

/-- The waiter of a call that has its answer, or has lost its sender, is not in the table. -/
theorem Tabled.lookup_eq_none (h : Tabled cancelled s) (hcall : s.calls[i]? = some call)
    (hopen : call.stage.isOpen = true) (hslot : call.slot ≠ .empty) :
    s.pending.lookup call.command.opaqueId = none := by
  cases hkey : s.pending.lookup call.command.opaqueId with
  | none => rfl
  | some j =>
    obtain rfl := h.lookup_eq hcall hopen hkey
    exact absurd ((h.filed j call hcall).ofTable hkey).1 hslot

theorem Tabled.advance (h : Tabled cancelled s) {expired : Bool} (hcall : s.calls[i]? = some call)
    (hguard : Orderly json s (.advance i expired)) :
    Tabled cancelled (advance json crypto acl addr s i call expired).1 := by
  -- the guard: fresh numbers, and requests that can be encoded
  obtain ⟨hfresh, hencodes⟩ := hguard i expired call rfl hcall
  unfold Remoting.advance
  split
  case h_1 hstage => exact h.number hcall hstage (hfresh hstage)
  case h_2 hstage => exact h.register hcall hstage
  case h_3 hstage =>
    obtain ⟨frame, hframe⟩ := hencodes hstage
    rw [hframe]
    exact h.setStage hcall (by rw [hstage]; rfl) rfl (by simp [hstage, Stage.receives])
  case h_4 hstage =>
    split
    · exact h.setStage hcall (by rw [hstage]; rfl) rfl (by simp [hstage, Stage.receives])
    · exact h.setStage hcall (by rw [hstage]; rfl) rfl (by simp [hstage, Stage.receives])
  case h_5 hstage =>
    exact (h.leave hcall (by rw [hstage]; rfl) _).flags rfl rfl (fun _ _ => .rfl)
  case h_6 hstage =>
    have hopen : call.stage.isOpen = true := by rw [hstage]; rfl
    split
    · next hslot =>
      have hfree := h.lookup_eq_none hcall hopen (by simp [hslot])
      exact h.finish hcall hopen (by simp [hfree]) _
    · next hslot =>
      have hfree := h.lookup_eq_none hcall hopen (by simp [hslot])
      exact h.finish hcall hopen (by simp [hfree]) _
    · split
      · exact h.setStage hcall (by rw [hstage]; rfl) rfl (by simp [hstage, Stage.receives])
      · exact h
  case h_7 hstage => exact h.leave hcall (by rw [hstage]; rfl) _
  case h_8 => exact h

theorem Tabled.readBody (h : Tabled cancelled s) (hreader : s.reader = .reading)
    (body : List UInt8) : Tabled cancelled (readBody json s body) := by
  unfold Remoting.readBody
  split
  · split
    · next hkey => exact h.take hreader hkey _ _
    · exact h.flags rfl rfl (fun _ _ => .rfl)
  · exact h.flags rfl rfl (fun _ _ => iff_of_false (by simp) (by simp [hreader]))
  · exact h.flags rfl rfl (fun _ _ => iff_of_false (by simp) (by simp [hreader]))

/-- The table is cleared by `shutdown` and at the end of the reader. -/
def Label.clears : Label → Bool
  | .shutdown | .readerClears => true
  | _ => false

/-- **A transition keeps the table in order.** -/
theorem Tabled.step (h : Tabled cancelled s) (hguard : Orderly json s label) :
    Tabled (cancelled ∨ label.clears = true) (step json crypto acl addr s label).1 := by
  have hstay : Tabled (cancelled ∨ label.clears = true) s := h.mono .inl
  cases label with
  | call command =>
    simp only [Remoting.step, enter]
    split
    · exact hstay.append rfl rfl
    · exact hstay.append rfl rfl
  | advance i expired =>
    simp only [Remoting.step]
    split
    · next call hcall => exact hstay.advance hcall hguard
    · exact hstay
  | frame body =>
    simp only [Remoting.step]
    split
    · next hreader => exact hstay.readBody hreader body
    · exact hstay
  | deliver =>
    simp only [Remoting.step]
    split
    · next hreader => exact hstay.deliver hreader
    · exact hstay
  | readerStops =>
    simp only [Remoting.step]
    split
    · next hreader => exact hstay.flags rfl rfl (fun _ _ => iff_of_false (by simp) (by simp [hreader]))
    · exact hstay
  -- the two steps that clear the table are those after which a slot may be dropped
  | readerClears =>
    simp only [Remoting.step]
    split
    · next hreader =>
      refine (hstay.clear (.inr rfl)).flags rfl rfl fun _ _ => iff_of_false (by simp) ?_
      change s.reader ≠ _
      simp [hreader]
    · exact hstay
  | writerStops => exact hstay.flags rfl rfl (fun _ _ => .rfl)
  | shutdown => exact (hstay.clear (.inr rfl)).flags rfl rfl (fun _ _ => .rfl)

/-- The call has returned, and its number, if it got one, is not pending. -/
def Gone (s : State) (i : ℕ) (result : Except RocketmqError Delivery) : Prop :=
  ∃ call : Call, s.calls[i]? = some call ∧ call.stage = .returned result ∧
    (call.ticket ≠ none → call.command.opaqueId ∉ s.pending)

theorem gone_finish (hcall : s.calls[i]? = some call)
    (hfree : s.pending.lookup call.command.opaqueId = none)
    (result : Except RocketmqError Delivery) : Gone (s.finish i result).1 i result := by
  refine ⟨{ call with stage := .returned result }, ?_, rfl, fun _ => ?_⟩
  · refine (getElem?_modify_calls s.calls i i _).trans ?_
    rw [hcall, Option.map_some, if_pos rfl]
  · exact Finmap.lookup_eq_none.mp hfree

/-- A call that takes its waiter out of the table before it returns. -/
theorem gone_leave (hcall : s.calls[i]? = some call) (hstage : call.stage ≠ .entered)
    (result : Except RocketmqError Delivery) :
    Gone ((s.remove call.command.opaqueId).finish i result).1 i result := by
  obtain ⟨call', hcall', hkept⟩ := Evolves.remove call.command.opaqueId i call hcall
  refine gone_finish hcall' ?_ result
  rw [(hkept hstage).2]
  exact lookup_remove s call.command.opaqueId

/-- **When a call returns**, its number is not pending. -/
theorem Tabled.gone (h : Tabled cancelled s) (hguard : Orderly json s label)
    {result : Except RocketmqError Delivery}
    (hreturn : ⟨i, result⟩ ∈ (Remoting.step json crypto acl addr s label).2) :
    Gone (Remoting.step json crypto acl addr s label).1 i result := by
  cases label with
  | call command =>
    simp only [Remoting.step, enter] at hreturn ⊢
    split at hreturn
    · exact absurd hreturn List.not_mem_nil
    · next hclosed =>
      obtain ⟨rfl, rfl⟩ := Return.mk.inj (List.mem_singleton.mp hreturn)
      rw [if_neg hclosed]
      exact ⟨_, List.getElem?_concat_length, rfl, fun hticket => absurd rfl hticket⟩
  | advance j expired =>
    simp only [Remoting.step] at hreturn ⊢
    cases hcall : s.calls[j]? with
    | none =>
      rw [hcall] at hreturn
      exact absurd hreturn List.not_mem_nil
    | some call =>
      rw [hcall] at hreturn
      simp only [Remoting.advance] at hreturn ⊢
      cases hstage : call.stage with
      | entered =>
        rw [hstage] at hreturn
        exact absurd hreturn List.not_mem_nil
      | numbered =>
        rw [hstage] at hreturn
        exact absurd hreturn List.not_mem_nil
      | registered =>
        obtain ⟨frame, hframe⟩ := (hguard j expired call rfl hcall).2 hstage
        rw [hstage, hframe] at hreturn
        exact absurd hreturn List.not_mem_nil
      | sending frame =>
        rw [hstage] at hreturn
        dsimp only at hreturn
        split at hreturn <;> exact absurd hreturn List.not_mem_nil
      | rejected =>
        rw [hstage] at hreturn
        obtain ⟨rfl, rfl⟩ := Return.mk.inj (List.mem_singleton.mp hreturn)
        exact gone_leave hcall (by simp [hstage]) _
      | waiting =>
        have hopen : call.stage.isOpen = true := by rw [hstage]; rfl
        rw [hstage] at hreturn
        dsimp only at hreturn ⊢
        split at hreturn
        · next hslot =>
          obtain ⟨rfl, rfl⟩ := Return.mk.inj (List.mem_singleton.mp hreturn)
          -- the slot is used, so that the call is no more in the table
          exact gone_finish hcall (h.lookup_eq_none hcall hopen (by simp [hslot])) _
        · next hslot =>
          obtain ⟨rfl, rfl⟩ := Return.mk.inj (List.mem_singleton.mp hreturn)
          exact gone_finish hcall (h.lookup_eq_none hcall hopen (by simp [hslot])) _
        · split at hreturn <;> exact absurd hreturn List.not_mem_nil
      | expired =>
        rw [hstage] at hreturn
        obtain ⟨rfl, rfl⟩ := Return.mk.inj (List.mem_singleton.mp hreturn)
        exact gone_leave hcall (by simp [hstage]) _
      | returned result =>
        rw [hstage] at hreturn
        exact absurd hreturn List.not_mem_nil
  | frame body =>
    simp only [Remoting.step] at hreturn
    split at hreturn <;> exact absurd hreturn List.not_mem_nil
  | deliver =>
    simp only [Remoting.step] at hreturn
    split at hreturn <;> exact absurd hreturn List.not_mem_nil
  | readerStops =>
    simp only [Remoting.step] at hreturn
    split at hreturn <;> exact absurd hreturn List.not_mem_nil
  | readerClears =>
    simp only [Remoting.step] at hreturn
    split at hreturn <;> exact absurd hreturn List.not_mem_nil
  | writerStops => exact absurd hreturn List.not_mem_nil
  | shutdown => exact absurd hreturn List.not_mem_nil

/-! ### Runs -/

theorem tabled_connected : Tabled cancelled connected := by
  refine ⟨?_, ?_, ?_, ?_⟩
  · intro i call hcall
    exact absurd hcall (by simp [connected])
  · intro key i hkey
    exact absurd hkey (by simp [connected])
  · intro i d hd
    exact absurd hd (by simp [connected])
  · intro i j call call' hcall
    exact absurd hcall (by simp [connected])

theorem tabled_reached {labels : List Label}
    (hguard : Machine.Guarded (step json crypto acl addr) (Orderly json) connected labels) :
    Tabled (∃ label ∈ labels, label.clears = true) (reached json crypto acl addr labels) := by
  refine Machine.run_guarded
    (H := fun labels _ s => Tabled (∃ label ∈ labels, label.clears = true) s) ?_
    tabled_connected hguard
  intro labels _ s label h hlabel
  refine (h.step hlabel).mono ?_
  rintro (⟨earlier, hmem, hclears⟩ | hclears)
  · exact ⟨earlier, List.mem_append_left _ hmem, hclears⟩
  · exact ⟨label, List.mem_append_right _ List.mem_cons_self, hclears⟩

/-- **The table of pending requests leaks nothing.** However calls, frames, timeouts and the ends of
reader and writer interleave: if the frame of every registered call can be encoded and no number is
handed out that a running call has, the number of a call is not pending when the call returns; the
numbers that are pending are those of the running calls with a registered waiter that has not been
answered, taken by the reader or cancelled; and what cancels the waiter of a call that still listens
is `shutdown` or the end of the reader. -/
theorem pending_exact {labels : List Label}
    (hguard : Machine.Guarded (step json crypto acl addr) (Orderly json) connected labels) :
    (∀ before label after i result, labels = before ++ label :: after →
      ⟨i, result⟩ ∈ (step json crypto acl addr (reached json crypto acl addr before) label).2 →
        Gone (reached json crypto acl addr (before ++ [label])) i result) ∧
    (∀ key, key ∈ (reached json crypto acl addr labels).pending ↔ ∃ (i : ℕ) (call : Call),
      (reached json crypto acl addr labels).calls[i]? = some call ∧
      call.command.opaqueId = key ∧ call.stage.isRegistered = true ∧ call.slot = .empty ∧
      ∀ d, (reached json crypto acl addr labels).reader ≠ .holding i d) ∧
    (∀ (i : ℕ) (call : Call), (reached json crypto acl addr labels).calls[i]? = some call →
      call.stage.isRegistered = true → call.stage.receives = true → call.slot = .dropped →
        ∃ label ∈ labels, label.clears = true) := by
  have htabled := tabled_reached hguard
  refine ⟨?_, ?_, ?_⟩
  · intro before label after i result hlabels hreturn
    -- a prefix of a guarded run is guarded
    have hbefore : Machine.Guarded (step json crypto acl addr) (Orderly json) connected before := by
      intro before' label' after' hsplit
      exact hguard before' label' (after' ++ label :: after) (by simp [hlabels, hsplit])
    have hgone := (tabled_reached hbefore).gone (hguard before label after hlabels) hreturn
    rw [reached, Machine.run_concat]
    exact hgone
  · intro key
    constructor
    · intro hkey
      obtain ⟨i, hlookup⟩ := Finmap.mem_iff.mp hkey
      obtain ⟨call, hcall, hsameId, hslot, hstage, hreader⟩ := htabled.waiter hlookup
      exact ⟨i, call, hcall, hsameId, hstage, hslot, hreader⟩
    · rintro ⟨i, call, hcall, rfl, -, hslot, hreader⟩
      -- an empty slot is in the table or in the reader's hand
      obtain hlookup | ⟨d, hd⟩ := (htabled.filed i call hcall).located hslot
      · exact Finmap.mem_of_lookup_eq_some hlookup
      · exact absurd hd (hreader d)
  · intro i call hcall
    exact (htabled.filed i call hcall).dropped

end Channel

/-! ### An exchange, and a request that is too large -/

theorem orderly_of_ne {json : SerdeJson} {label : Label}
    (h : ∀ i expired, label ≠ .advance i expired) : Orderly json s label := by
  intro i expired _ hlabel
  exact absurd hlabel (h i expired)

/-- The first call is alone. -/
theorem orderly_alone {json : SerdeJson} {label : Label} (hcalls : s.calls = [call])
    (hencodes : call.stage = .registered → ∃ frame, encodeFrame json call.command = .ok frame) :
    Orderly json s label := by
  intro i expired call' _ hcall'
  rw [hcalls] at hcall'
  obtain rfl := List.mem_singleton.mp (List.mem_of_getElem? hcall')
  refine ⟨fun hstage j other hother hopen => ?_, hencodes⟩
  rw [hcalls] at hother
  obtain rfl := List.mem_singleton.mp (List.mem_of_getElem? hother)
  exact absurd hopen (by simp [hstage, Stage.isOpen])

theorem pending_exact_answer :
    Gone (reached exchangeSerde noCrypto none "127.0.0.1:10911"
      (exchange (headerText 0 "JAVA" 1))) 0 (.ok ⟨0, serverCommand 0 1⟩) := by
  have hencodes : ∃ frame, encodeFrame exchangeSerde
      { RemotingCommand.createRequest 106 ∅ with opaqueId := 1 } = .ok frame := by
    refine ⟨_, encodeFrame_eq_ok.mpr ⟨headerText 106 "OTHER" 0, by simp [exchangeSerde], ?_, rfl⟩⟩
    decide
  -- one call from beginning to end, with its request encoded
  have hguard : Machine.Guarded (step exchangeSerde noCrypto none "127.0.0.1:10911")
      (Orderly exchangeSerde) connected (exchange (headerText 0 "JAVA" 1)) := by
    refine .cons (orderly_of_ne (by simp)) (.cons (orderly_alone rfl (by rintro ⟨⟩))
      (.cons (orderly_alone rfl (by rintro ⟨⟩)) (.cons (orderly_alone rfl fun _ => hencodes)
        (.cons (orderly_alone rfl (by rintro ⟨⟩)) (.cons (orderly_of_ne (by simp))
          (.cons (orderly_of_ne (by simp)) (.cons (orderly_alone rfl (by rintro ⟨⟩))
            Machine.guarded_nil)))))))
  have hreturn : ⟨0, .ok ⟨0, serverCommand 0 1⟩⟩ ∈
      (step exchangeSerde noCrypto none "127.0.0.1:10911"
        (reached exchangeSerde noCrypto none "127.0.0.1:10911"
          ((exchange (headerText 0 "JAVA" 1)).take 7)) (.advance 0 false)).2 :=
    List.mem_singleton.mpr rfl
  have hsplit : ∀ header, exchange header = (exchange header).take 7 ++ [.advance 0 false] :=
    fun _ => rfl
  rw [hsplit]
  exact (pending_exact hguard).1 _ _ [] 0 _ (hsplit _) hreturn

/-- A message of 16 MiB. -/
def hugeRequest : RemotingCommand :=
  (RemotingCommand.createRequest 10 ∅).withBody (List.replicate maxFrameLength 0)

/-- `serde_json`, as far as this request goes. -/
def hugeSerde : SerdeJson where
  toVec command :=
    if { command with body := none } = { RemotingCommand.createRequest 10 ∅ with opaqueId := 1 } then
      .ok (headerText 10 "OTHER" 0)
    else .error "another command"
  fromSlice _ := .error "another header"

/-- A call whose frame cannot be encoded. -/
theorem stays_pending {json : SerdeJson} {request : RemotingCommand} {error : RocketmqError}
    {addr : String} (hfails : encodeFrame json { request with opaqueId := 1 } = .error error) :
    ∃ call : Call, (reached json noCrypto none addr
      [.call request, .advance 0 false, .advance 0 false, .advance 0 false]).calls[0]? = some call ∧
    call.stage = .returned (.error error) ∧ call.ticket = some 0 ∧
    call.command.opaqueId ∈ (reached json noCrypto none addr
      [.call request, .advance 0 false, .advance 0 false, .advance 0 false]).pending := by
  have hcall : (reached json noCrypto none addr
      [.call request, .advance 0 false, .advance 0 false]).calls[0]?
        = some ⟨{ request with opaqueId := 1 }, .registered, .empty, some 0⟩ := rfl
  have hlast : reached json noCrypto none addr
      [.call request, .advance 0 false, .advance 0 false, .advance 0 false]
        = ((reached json noCrypto none addr
          [.call request, .advance 0 false, .advance 0 false]).finish 0 (.error error)).1 := by
    change (step json noCrypto none addr (reached json noCrypto none addr
      [.call request, .advance 0 false, .advance 0 false]) (.advance 0 false)).1 = _
    simp only [step, hcall, advance, hfails]
  rw [hlast]
  exact ⟨_, rfl, rfl, rfl, Finmap.mem_of_lookup_eq_some (b := 0) rfl⟩

/-- **A frame that cannot be encoded** leaves the waiter of its call in the table. -/
theorem failed_encoding_stays_pending : ∃ call : Call,
    (reached hugeSerde noCrypto none "127.0.0.1:10911"
      [.call hugeRequest, .advance 0 false, .advance 0 false, .advance 0 false]).calls[0]?
        = some call ∧
    call.stage = .returned (.error frameTooLong) ∧ call.ticket = some 0 ∧
    call.command.opaqueId ∈ (reached hugeSerde noCrypto none "127.0.0.1:10911"
      [.call hugeRequest, .advance 0 false, .advance 0 false, .advance 0 false]).pending := by
  refine stays_pending ?_
  have hheader : headerJson hugeSerde { hugeRequest with opaqueId := 1 }
      = .ok (headerText 10 "OTHER" 0) := by
    simp [headerJson, hugeSerde, hugeRequest, RemotingCommand.createRequest,
      RemotingCommand.withBody, Except.mapError]
  unfold encodeFrame
  rw [hheader, Checks.ok_bind]
  refine if_pos ?_
  simp only [hugeRequest, RemotingCommand.withBody, Option.getD_some, List.length_replicate]
  omega

end Remoting
end Rocketmq
end Navop
