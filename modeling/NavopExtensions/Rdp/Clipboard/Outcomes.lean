import NavopExtensions.Rdp.Clipboard.Controller
import NavopExtensions.Rdp.Clipboard.EndToEnd

/-!
# One outcome for every remote transfer

A remote transfer is *known* while its id is pending, while it is running, or while the callback
under way owes the host an outcome for it (`SharedClipboard.Knows`). Ids enter through
`reserve_remote_transfer` only, and the counter does not repeat itself before 2^63 reservations. A
section under the lock never makes an id known that was not, the controller makes ids unknown at
most, and handing out an outcome makes its id unknown for good: nothing else refers to it by then,
because a section that decides on an outcome also takes the id out of the state. That is the
invariant `Settling`, from which `remote_transfer_one_outcome` is read off.
-/

namespace Navop
namespace Rdp
namespace Clipboard

open Checks

variable {P N ρ : Type} {rules : NameRules}

/-! ### What is seen of a run -/

/-- The transfer whose outcome an event is. -/
def outcomeId : HelperEvent → Option UInt64
  | .clipboardFilesReady transferId _ => some transferId
  | .clipboardTransferFailed transferId _ => some transferId
  | _ => none

/-- The transfers whose outcome was handed to the host, in order. -/
def outcomes (trace : List Trace) : List UInt64 :=
  trace.filterMap fun
    | .sent event => outcomeId event
    | _ => none

/-- The ids reserved for remote transfers, in order. -/
def reservedIds (trace : List Trace) : List UInt64 :=
  trace.filterMap fun
    | .reserved transferId => some transferId
    | _ => none

/-- The ids of the local transfers that were accepted, in order. -/
def acceptedIds (trace : List Trace) : List UInt64 :=
  trace.filterMap fun
    | .accepted transferId => some transferId
    | _ => none

@[simp] theorem outcomes_append (xs ys : List Trace) :
    outcomes (xs ++ ys) = outcomes xs ++ outcomes ys := List.filterMap_append

@[simp] theorem reservedIds_append (xs ys : List Trace) :
    reservedIds (xs ++ ys) = reservedIds xs ++ reservedIds ys := List.filterMap_append

@[simp] theorem acceptedIds_append (xs ys : List Trace) :
    acceptedIds (xs ++ ys) = acceptedIds xs ++ acceptedIds ys := List.filterMap_append

/-! ### The id of a transfer does not change -/

namespace RemoteClipboardTransfer

variable (t : RemoteClipboardTransfer)

theorem transferId_create {fs : StagingFs} {layout : RemoteClipboardLayout}
    {settings : RemoteTransferSettings} (h : create fs layout settings = .ok t) :
    t.transferId = settings.transferId := by
  obtain ⟨staging, -, h⟩ := bind_eq_ok.mp h
  rw [← Except.ok.inj h]

@[simp] theorem transferId_complete : t.complete.1.transferId = t.transferId := rfl

@[simp] theorem transferId_requestSize (streamId : UInt32) :
    (t.requestSize streamId).1.transferId = t.transferId := by
  unfold requestSize
  simp only
  split <;> rfl

@[simp] theorem transferId_requestRange (streamId : UInt32) :
    (t.requestRange streamId).1.transferId = t.transferId := by
  unfold requestRange
  simp only
  split
  · rfl
  · split <;> rfl

@[simp] theorem transferId_start (streamId : UInt32) :
    (t.start streamId).1.transferId = t.transferId := by
  unfold start
  split <;> simp

@[simp] theorem transferId_nextFile (streamId : UInt32) :
    (t.nextFile streamId).1.transferId = t.transferId := by
  unfold nextFile
  simp only
  split <;> simp

@[simp] theorem transferId_finishFile (fs : StagingFs) (streamId : UInt32) :
    (t.finishFile fs streamId).1.transferId = t.transferId := by
  unfold finishFile
  split
  · simp
  · simp only
    split <;> simp

@[simp] theorem transferId_accountSize (size : Nat) :
    (t.accountSize size).1.transferId = t.transferId := by
  unfold accountSize
  split
  · split
    · simp only
      split <;> rfl
    · rfl
  · rfl

variable (pdu : Pdu ρ)

@[simp] theorem transferId_acceptSize (fs : StagingFs) (response : ρ) (streamId : UInt32) :
    (t.acceptSize pdu fs response streamId).1.transferId = t.transferId := by
  unfold acceptSize
  split
  · rfl
  · split
    · rfl
    · split
      · split
        · next size _ _ _ _ _ _ t' _ h =>
          rw [← t.transferId_accountSize size, h]
        · next size _ _ _ _ _ _ t' h =>
          have hsame : t'.transferId = t.transferId := by
            rw [← t.transferId_accountSize size, h]
          split
          · exact hsame
          · simp only
            split <;> simp [hsame]
      · rfl

@[simp] theorem transferId_acceptRange (fs : StagingFs) (data : List UInt8) (requested : Nat)
    (streamId : UInt32) :
    (t.acceptRange fs data requested streamId).1.transferId = t.transferId := by
  unfold acceptRange
  split
  · rfl
  · split_ifs
    · rfl
    · rfl
    · rfl
    · rfl
    · split
      · rfl
      · split
        · rfl
        · simp only
          split <;> simp

@[simp] theorem transferId_advance (fs : StagingFs) (response : ρ) (streamId : UInt32) :
    (t.advance pdu fs response streamId).1.transferId = t.transferId := by
  unfold advance
  split
  · rfl
  · split_ifs
    · rfl
    · rfl
    · split <;> simp

end RemoteClipboardTransfer

/-! ### Sequence numbers -/

/-- The id of the reservation with this number. -/
def sequenceId (n : ℕ) : UInt64 := remoteClipboardTransferBit ||| UInt64.ofNat (n + 1)

theorem remoteClipboardTransferBit_toNat : remoteClipboardTransferBit.toNat = 2 ^ 63 := by decide

private theorem toNat_ofNat_sequence {n : ℕ} (h : n < 2 ^ 63) : (UInt64.ofNat n).toNat = n :=
  UInt64.toNat_ofNat_of_lt' (by unfold UInt64.size; omega)

theorem sequenceId_toNat {n : ℕ} (h : n + 1 < 2 ^ 63) :
    (sequenceId n).toNat = 2 ^ 63 + (n + 1) := by
  have hor := Nat.two_pow_add_eq_or_of_lt h 1
  rw [Nat.mul_one] at hor
  rw [sequenceId, UInt64.toNat_or, remoteClipboardTransferBit_toNat, toNat_ofNat_sequence h, hor]

/-- Remote ids carry the bit that local ids must not carry. -/
theorem sequenceId_remote (n : ℕ) : sequenceId n &&& remoteClipboardTransferBit ≠ 0 := by
  intro h
  have hnat := congrArg UInt64.toNat h
  rw [sequenceId, UInt64.toNat_and, UInt64.toNat_or, Nat.and_or_distrib_right, Nat.and_self,
    UInt64.toNat_zero, Nat.or_eq_zero_iff, remoteClipboardTransferBit_toNat] at hnat
  exact absurd hnat.1 (by decide)

theorem followingSequence_ofNat {n : ℕ} (h : n + 1 < 2 ^ 63) :
    TextClipboardState.followingSequence (UInt64.ofNat (n + 1))
      = if n + 2 = 2 ^ 63 then firstSequenceId else UInt64.ofNat (n + 2) := by
  have hmask : localClipboardTransferMask.toNat = 2 ^ 63 - 1 := by decide
  -- the mask wraps the counter at 2^63
  have hnext : ((UInt64.ofNat (n + 1) + 1) &&& localClipboardTransferMask).toNat
      = (n + 2) % 2 ^ 63 := by
    rw [UInt64.toNat_and, hmask, Nat.and_two_pow_sub_one_eq_mod, UInt64.toNat_add,
      toNat_ofNat_sequence h]
    simp
  unfold TextClipboardState.followingSequence
  simp only
  split_ifs with hzero hlast hlast
  · rfl
  · rw [hzero, UInt64.toNat_zero] at hnext
    omega
  · refine absurd (UInt64.toNat.inj ?_) hzero
    rw [hnext, hlast]
    rfl
  · refine UInt64.toNat.inj ?_
    rw [hnext, toNat_ofNat_sequence (by omega), Nat.mod_eq_of_lt (by omega)]

/-! ### Known transfers -/

/-- The callback under way may hand out an outcome of this transfer. -/
def Task.Owes : Task → UInt64 → Prop
  | .initiatePaste transferId _, id => transferId = id
  | .pasteFailed transferId, id => transferId = id
  | .dispatch _ (.ok .ignore), _ => False
  | .dispatch transferId _, id => transferId = id
  | .requestFailed transferId, id => transferId = id
  | .report event, id => outcomeId event = some id
  | _, _ => False

/-- The callback initiates the paste of a list that may still be pending. -/
def Task.IsPaste : Task → Prop
  | .initiatePaste .. | .pasteFailed .. => True
  | _ => False

/-- The callback sends a request of a transfer that may be running. -/
def Task.IsRequest : Task → Prop
  | .dispatch _ (.ok (.request _)) | .requestFailed .. => True
  | _ => False

namespace SharedClipboard

/-- The id of the transfer that is running. -/
def running (c : SharedClipboard P rules) : Option UInt64 :=
  c.state.remoteTransfer.map RemoteClipboardTransfer.transferId

/-- The transfer is pending or running, or the callback under way owes its outcome. -/
def Knows (c : SharedClipboard P rules) (id : UInt64) : Prop :=
  c.state.pendingRemote = some id ∨ c.running = some id ∨ c.task.Owes id

end SharedClipboard

/-- What holds between any two sections, apart from what has been seen. -/
structure Orderly (c : SharedClipboard P rules) : Prop where
  /-- Not more than one transfer is pending or running. -/
  single : c.state.pendingRemote = none ∨ c.running = none
  pendingOwed : ∀ id, c.task.Owes id → c.state.pendingRemote = some id → c.task.IsPaste
  runningOwed : ∀ id, c.task.Owes id → c.running = some id → c.task.IsRequest
  /-- A transfer is installed under its own id. -/
  installs : ∀ id transfer, c.task = .install id (.ok transfer) → transfer.transferId = id

/-- What has been seen, relative to the transfers that are known. -/
structure Settling (trace : List Trace) (c : SharedClipboard P rules) : Prop where
  orderly : Orderly c
  known : ∀ id, c.Knows id → id ∈ reservedIds trace
  settled : ∀ id ∈ outcomes trace, id ∈ reservedIds trace ∧ ¬ c.Knows id
  once : (outcomes trace).Nodup
  ids : reservedIds trace = (List.range (reservedIds trace).length).map sequenceId
  next : c.state.nextRemoteSequence = if (reservedIds trace).length + 1 = 2 ^ 63
    then firstSequenceId else UInt64.ofNat ((reservedIds trace).length + 1)
  accepted : ∀ id ∈ acceptedIds trace, id &&& remoteClipboardTransferBit = 0

theorem Settling.initial : Settling [] (SharedClipboard.initial : SharedClipboard P rules) where
  orderly := ⟨.inl rfl, by simp [SharedClipboard.initial, Task.Owes],
    by simp [SharedClipboard.initial, Task.Owes], by simp [SharedClipboard.initial]⟩
  known id h := by
    simp [SharedClipboard.Knows, SharedClipboard.initial, SharedClipboard.running,
      TextClipboardState.new, Task.Owes] at h
  settled := by simp [outcomes]
  once := .nil
  ids := rfl
  next := rfl
  accepted := by simp [acceptedIds]

variable {trace : List Trace} {c c' : SharedClipboard P rules}

/-- A section that reserves no id and hands out no outcome may only make transfers unknown. -/
theorem Settling.quiet (h : Settling trace c) (horderly : Orderly c')
    (hknows : ∀ id, c'.Knows id → c.Knows id)
    (hnext : c'.state.nextRemoteSequence = c.state.nextRemoteSequence) {seen : List Trace}
    (hreserved : reservedIds seen = []) (houtcomes : outcomes seen = [])
    (haccepted : ∀ id ∈ acceptedIds seen, id &&& remoteClipboardTransferBit = 0) :
    Settling (trace ++ seen) c' := by
  have hids : reservedIds (trace ++ seen) = reservedIds trace := by simp [hreserved]
  have houts : outcomes (trace ++ seen) = outcomes trace := by simp [houtcomes]
  refine ⟨horderly, ?_, ?_, ?_, ?_, ?_, ?_⟩
  · intro id hid
    rw [hids]
    exact h.known id (hknows id hid)
  · intro id hid
    rw [houts] at hid
    rw [hids]
    -- what is settled stays settled, for nothing is known anew
    obtain ⟨hmem, hnot⟩ := h.settled id hid
    exact ⟨hmem, fun hknown => hnot (hknows id hknown)⟩
  · rw [houts]
    exact h.once
  · rw [hids]
    exact h.ids
  · rw [hids, hnext]
    exact h.next
  · intro id hid
    rw [acceptedIds_append] at hid
    rcases List.mem_append.mp hid with hid | hid
    · exact h.accepted id hid
    · exact haccepted id hid

/-- A task that owes nothing is in order. -/
theorem Orderly.of_owes_nothing (hsingle : c.state.pendingRemote = none ∨ c.running = none)
    (howes : ∀ id, ¬ c.task.Owes id)
    (hinstalls : ∀ id transfer, c.task = .install id (.ok transfer) → transfer.transferId = id) :
    Orderly c :=
  ⟨hsingle, fun id hid => absurd hid (howes id), fun id hid => absurd hid (howes id), hinstalls⟩

/-- The two slots of the state: each is kept or emptied. -/
structure Shrinks (state state' : TextClipboardState P rules) : Prop where
  pending : state'.pendingRemote = none ∨ state'.pendingRemote = state.pendingRemote
  running : state'.remoteTransfer = none ∨ state'.remoteTransfer = state.remoteTransfer
  next : state'.nextRemoteSequence = state.nextRemoteSequence

theorem Shrinks.refl (state : TextClipboardState P rules) : Shrinks state state :=
  ⟨.inr rfl, .inr rfl, rfl⟩

theorem Shrinks.single (h : Shrinks c.state c'.state)
    (hsingle : c.state.pendingRemote = none ∨ c.running = none) :
    c'.state.pendingRemote = none ∨ c'.running = none := by
  rcases h.pending with hnone | hsame
  · exact .inl hnone
  · rcases h.running with hnone | hkept
    · exact .inr (by simp [SharedClipboard.running, hnone])
    · rw [SharedClipboard.running, hsame, hkept]
      exact hsingle

theorem Shrinks.pending_of (h : Shrinks c.state c'.state) {id : UInt64}
    (hid : c'.state.pendingRemote = some id) : c.state.pendingRemote = some id := by
  rcases h.pending with hnone | hsame
  · rw [hnone] at hid
    exact absurd hid (by simp)
  · rw [← hsame]
    exact hid

theorem Shrinks.running_of (h : Shrinks c.state c'.state) {id : UInt64}
    (hid : c'.running = some id) : c.running = some id := by
  rcases h.running with hnone | hsame
  · rw [SharedClipboard.running, hnone] at hid
    exact absurd hid (by simp)
  · rw [SharedClipboard.running, ← hsame]
    exact hid

/-- The controller: the slots shrink, and the task is left alone. -/
theorem Orderly.shrink (h : Orderly c) {state' : TextClipboardState P rules}
    (hshrinks : Shrinks c.state state') : Orderly ⟨state', c.task⟩ := by
  have hs : Shrinks c.state (⟨state', c.task⟩ : SharedClipboard P rules).state := hshrinks
  refine ⟨hs.single h.single, ?_, ?_, h.installs⟩
  · exact fun id howes hid => h.pendingOwed id howes (hs.pending_of hid)
  · exact fun id howes hid => h.runningOwed id howes (hs.running_of hid)

theorem Shrinks.knows {state' : TextClipboardState P rules} (hshrinks : Shrinks c.state state')
    (id : UInt64) (hid : (⟨state', c.task⟩ : SharedClipboard P rules).Knows id) : c.Knows id := by
  have hs : Shrinks c.state (⟨state', c.task⟩ : SharedClipboard P rules).state := hshrinks
  rcases hid with hid | hid | hid
  · exact .inl (hs.pending_of hid)
  · exact .inr (.inl (hs.running_of hid))
  · exact .inr (.inr hid)

theorem Settling.shrink (h : Settling trace c) {state' : TextClipboardState P rules}
    (hshrinks : Shrinks c.state state') : Settling (trace ++ []) ⟨state', c.task⟩ :=
  h.quiet (h.orderly.shrink hshrinks) hshrinks.knows hshrinks.next rfl rfl (by simp [acceptedIds])

/-- `set_local_files`: the id of the files it accepts is a local one. -/
theorem Settling.accept (h : Settling trace c) {state' : TextClipboardState P rules}
    (hshrinks : Shrinks c.state state') {id : UInt64}
    (hlocal : id &&& remoteClipboardTransferBit = 0) :
    Settling (trace ++ [.accepted id]) ⟨state', c.task⟩ := by
  refine h.quiet (h.orderly.shrink hshrinks) hshrinks.knows hshrinks.next rfl rfl ?_
  intro id' hid'
  obtain rfl : id' = id := by simpa [acceptedIds] using hid'
  exact hlocal

/-- A section of a callback after which it owes nothing. -/
theorem Settling.rest (h : Settling trace c) {state' : TextClipboardState P rules}
    (hshrinks : Shrinks c.state state') {task' : Task} (howes : ∀ id, ¬ task'.Owes id)
    (hinstalls : ∀ id transfer, task' = .install id (.ok transfer) → transfer.transferId = id) :
    Settling (trace ++ []) ⟨state', task'⟩ := by
  have hs : Shrinks c.state (⟨state', task'⟩ : SharedClipboard P rules).state := hshrinks
  refine h.quiet (.of_owes_nothing (hs.single h.orderly.single) howes hinstalls) ?_ hshrinks.next
    rfl rfl (by simp [acceptedIds])
  rintro id (hid | hid | hid)
  · exact .inl (hs.pending_of hid)
  · exact .inr (.inl (hs.running_of hid))
  · exact absurd hid (howes id)

/-- A section that ends its callback. -/
theorem Settling.idle (h : Settling trace c) {state' : TextClipboardState P rules}
    (hshrinks : Shrinks c.state state') : Settling (trace ++ []) ⟨state', .idle⟩ :=
  h.rest hshrinks (fun _ howes => howes) (fun _ _ hidle => absurd hidle (by simp))

/-- A section that decides on the outcome of a transfer: it takes the transfer out of the state. -/
theorem Settling.settle (h : Settling trace c) {state' : TextClipboardState P rules}
    (hshrinks : Shrinks c.state state') {id : UInt64} (hknown : c.Knows id)
    (hpending : state'.pendingRemote ≠ some id)
    (hrunning : state'.remoteTransfer.map RemoteClipboardTransfer.transferId ≠ some id)
    {task' : Task} (howes : ∀ id', task'.Owes id' ↔ id = id')
    (hinstalls : ∀ id transfer, task' = .install id (.ok transfer) → transfer.transferId = id) :
    Settling (trace ++ []) ⟨state', task'⟩ := by
  have hs : Shrinks c.state (⟨state', task'⟩ : SharedClipboard P rules).state := hshrinks
  refine h.quiet ⟨hs.single h.orderly.single, ?_, ?_, hinstalls⟩ ?_ hshrinks.next rfl rfl
    (by simp [acceptedIds])
  · intro id' hid' hpend
    rw [← (howes id').mp hid'] at hpend
    exact absurd hpend hpending
  · intro id' hid' hrun
    rw [← (howes id').mp hid'] at hrun
    exact absurd hrun hrunning
  · rintro id' (hid | hid | hid)
    · exact .inl (hs.pending_of hid)
    · exact .inr (.inl (hs.running_of hid))
    · rw [← (howes id').mp hid]
      exact hknown

/-- Handing out an event. -/
theorem Settling.report (h : Settling trace c) {event : HelperEvent} (htask : c.task = .report event) :
    Settling (trace ++ [.sent event]) ⟨c.state, .idle⟩ := by
  have hquiet : Settling (trace ++ []) ⟨c.state, .idle⟩ := h.idle (Shrinks.refl c.state)
  rw [List.append_nil] at hquiet
  cases houtcome : outcomeId event with
  | none =>
    refine hquiet.quiet hquiet.orderly (fun _ hid => hid) rfl rfl ?_ (by simp [acceptedIds])
    simp [outcomes, houtcome]
  | some id =>
    have howes : c.task.Owes id := by rw [htask]; exact houtcome
    -- nothing else refers to the transfer any more
    have hgone : ¬ (⟨c.state, .idle⟩ : SharedClipboard P rules).Knows id := by
      rintro (hid | hid | hid)
      · have hpaste := h.orderly.pendingOwed id howes hid
        rw [htask] at hpaste
        exact hpaste
      · have hrequest := h.orderly.runningOwed id howes hid
        rw [htask] at hrequest
        exact hrequest
      · exact hid
    have hfresh : id ∉ outcomes trace := fun hmem =>
      (h.settled id hmem).2 (.inr (.inr howes))
    have houtcomes : outcomes (trace ++ [.sent event]) = outcomes trace ++ [id] := by
      simp [outcomes, houtcome]
    have hids : reservedIds (trace ++ [.sent event]) = reservedIds trace := by
      simp [reservedIds]
    refine ⟨hquiet.orderly, ?_, ?_, ?_, ?_, ?_, ?_⟩
    · rw [hids]
      exact hquiet.known
    · intro id' hmem
      rw [houtcomes] at hmem
      rw [hids]
      rcases List.mem_append.mp hmem with hmem | hmem
      · exact hquiet.settled id' hmem
      · obtain rfl := List.mem_singleton.mp hmem
        exact ⟨h.known _ (.inr (.inr howes)), hgone⟩
    · rw [houtcomes]
      refine List.nodup_append.mpr ⟨h.once, List.nodup_singleton _, fun a ha b hb hab => ?_⟩
      rw [List.mem_singleton.mp hb] at hab
      exact hfresh (hab ▸ ha)
    · rw [hids]
      exact h.ids
    · rw [hids]
      exact h.next
    · simpa [acceptedIds] using h.accepted

/-- `reserve_remote_transfer`: a fresh id becomes known, and nothing else is. -/
theorem Settling.reserve (h : Settling trace c)
    (hfew : (reservedIds trace).length + 1 < 2 ^ 63) (format : UInt32) :
    Settling (trace ++ [.reserved c.state.reserveRemoteTransfer.1])
      ⟨c.state.reserveRemoteTransfer.2,
        .initiatePaste c.state.reserveRemoteTransfer.1 format⟩ := by
  have hseq : c.state.nextRemoteSequence = UInt64.ofNat ((reservedIds trace).length + 1) := by
    rw [h.next, if_neg (by omega)]
  have hid : c.state.reserveRemoteTransfer.1 = sequenceId (reservedIds trace).length := by
    rw [TextClipboardState.reserveRemoteTransfer, hseq]
    rfl
  have hids : reservedIds (trace ++ [.reserved c.state.reserveRemoteTransfer.1])
      = (List.range ((reservedIds trace).length + 1)).map sequenceId := by
    rw [reservedIds_append, h.ids, hid, List.range_succ, List.map_append]
    simp [reservedIds]
  have hlength : (reservedIds (trace ++ [.reserved c.state.reserveRemoteTransfer.1])).length
      = (reservedIds trace).length + 1 := by
    rw [hids]
    simp
  -- the id was never reserved before
  have hfresh : c.state.reserveRemoteTransfer.1 ∉ reservedIds trace := by
    intro hmem
    rw [h.ids, hid] at hmem
    obtain ⟨k, hk, hsame⟩ := List.mem_map.mp hmem
    rw [List.mem_range] at hk
    have hnat := congrArg UInt64.toNat hsame
    rw [sequenceId_toNat (by omega), sequenceId_toNat hfew] at hnat
    omega
  have hknows : ∀ id, (⟨c.state.reserveRemoteTransfer.2,
      .initiatePaste c.state.reserveRemoteTransfer.1 format⟩ : SharedClipboard P rules).Knows id →
      id = c.state.reserveRemoteTransfer.1 := by
    rintro id (hid | hid | hid)
    · exact (Option.some.inj hid).symm
    · exact absurd hid (by simp [SharedClipboard.running, TextClipboardState.reserveRemoteTransfer])
    · exact hid.symm
  refine ⟨⟨.inr rfl, fun _ _ _ => trivial, ?_, by simp⟩, ?_, ?_, ?_, ?_, ?_, ?_⟩
  · exact fun id _ hrun => absurd hrun
      (by simp [SharedClipboard.running, TextClipboardState.reserveRemoteTransfer])
  · intro id hknown
    rw [hknows id hknown, reservedIds_append]
    exact List.mem_append_right _ (by simp [reservedIds])
  · intro id hmem
    have hold : id ∈ outcomes trace := by simpa [outcomes] using hmem
    have hreserved := (h.settled id hold).1
    refine ⟨?_, fun hknown => hfresh (hknows id hknown ▸ hreserved)⟩
    rw [reservedIds_append]
    exact List.mem_append_left _ hreserved
  · simpa [outcomes] using h.once
  · rw [hlength]
    exact hids
  · rw [hlength]
    simp only [TextClipboardState.reserveRemoteTransfer, hseq]
    exact followingSequence_ofNat hfew
  · simpa [acceptedIds] using h.accepted

/-! ### The sections of the callbacks -/

@[simp] theorem allocateStreamId_pendingRemote (state : TextClipboardState P rules) :
    state.allocateStreamId.2.pendingRemote = state.pendingRemote := rfl

@[simp] theorem allocateStreamId_remoteTransfer (state : TextClipboardState P rules) :
    state.allocateStreamId.2.remoteTransfer = state.remoteTransfer := rfl

@[simp] theorem allocateStreamId_nextRemoteSequence (state : TextClipboardState P rules) :
    state.allocateStreamId.2.nextRemoteSequence = state.nextRemoteSequence := rfl

theorem forgetPending_ne (state : TextClipboardState P rules) (id : UInt64) :
    (state.forgetPending id).pendingRemote ≠ some id := by
  unfold TextClipboardState.forgetPending
  split
  · simp
  · assumption

theorem forgetPending_shrinks (state : TextClipboardState P rules) (id : UInt64) :
    Shrinks state (state.forgetPending id) := by
  unfold TextClipboardState.forgetPending
  split
  · exact ⟨.inl rfl, .inr rfl, rfl⟩
  · exact Shrinks.refl state

theorem stopRunning_ne (state : TextClipboardState P rules) (id : UInt64) :
    (state.stopRunning id).remoteTransfer.map RemoteClipboardTransfer.transferId ≠ some id := by
  unfold TextClipboardState.stopRunning
  split
  · simp
  · next h =>
    intro hsame
    obtain ⟨transfer, htransfer, rfl⟩ := Option.map_eq_some_iff.mp hsame
    exact h (by simp [TextClipboardState.running, htransfer])

theorem stopRunning_shrinks (state : TextClipboardState P rules) (id : UInt64) :
    Shrinks state (state.stopRunning id) := by
  unfold TextClipboardState.stopRunning
  split
  · exact ⟨.inr rfl, .inl rfl, rfl⟩
  · exact Shrinks.refl state

theorem Shrinks.trans {a b d : TextClipboardState P rules} (h : Shrinks a b) (h' : Shrinks b d) :
    Shrinks a d := by
  refine ⟨?_, ?_, h'.next.trans h.next⟩
  · rcases h'.pending with hnone | hsame
    · exact .inl hnone
    · rw [hsame]
      exact h.pending
  · rcases h'.running with hnone | hsame
    · exact .inl hnone
    · rw [hsame]
      exact h.running

theorem cancelTransfer_shrinks (state : TextClipboardState P rules) (id : UInt64) :
    Shrinks state (state.cancelTransfer id).2 := by
  have hlocal : Shrinks state (state.cancelLocalTransfer id).2 := ⟨.inr rfl, .inr rfl, rfl⟩
  exact (hlocal.trans (forgetPending_shrinks _ id)).trans (stopRunning_shrinks _ id)

theorem setLocalFiles_ok {state state' : TextClipboardState P rules} {fs : SourceFs P N}
    {id : UInt64} {paths : List String} (h : state.setLocalFiles fs id paths = .ok state') :
    id &&& remoteClipboardTransferBit = 0 ∧ Shrinks state state' := by
  obtain ⟨⟨⟩, hlocal, h⟩ := bind_eq_ok.mp h
  obtain ⟨transfer, -, h⟩ := bind_eq_ok.mp h
  rw [← Except.ok.inj h]
  exact ⟨ensure_eq_ok.mp hlocal, .inr rfl, .inr rfl, rfl⟩

/-- A transfer that goes on with a request: it is put back into the state. -/
theorem Settling.goOn (h : Settling trace c) {state' : TextClipboardState P rules} {id : UInt64}
    (hknown : c.Knows id) (hpending : state'.pendingRemote = none)
    {transfer : RemoteClipboardTransfer} (hrunning : state'.remoteTransfer = some transfer)
    (hid : transfer.transferId = id)
    (hnext : state'.nextRemoteSequence = c.state.nextRemoteSequence)
    {action : RemoteTransferAction} (haction : ∀ paths, action ≠ .ready paths) :
    Settling (trace ++ []) ⟨state', .dispatch id (.ok action)⟩ := by
  refine h.quiet ⟨.inl hpending, ?_, ?_, by simp⟩ ?_ hnext rfl rfl (by simp [acceptedIds])
  · intro id' _ hpend
    rw [hpending] at hpend
    exact absurd hpend (by simp)
  · intro id' howes _
    cases action with
    | request => trivial
    | ready paths => exact absurd rfl (haction paths)
    | ignore => exact howes
  · rintro id' (hid' | hid' | hid')
    · rw [hpending] at hid'
      exact absurd hid' (by simp)
    · rw [SharedClipboard.running, hrunning] at hid'
      -- the transfer that runs on is the one that was known
      rw [← Option.some.inj hid', hid]
      exact hknown
    · cases action with
      | ignore => exact False.elim hid'
      | _ =>
        obtain rfl : id = id' := hid'
        exact hknown

/-- Nothing is sent yet, and the task goes on under the same id. -/
theorem Settling.retask (h : Settling trace c) {task' : Task}
    (howes : ∀ id, task'.Owes id ↔ c.task.Owes id) (hpaste : c.task.IsPaste → task'.IsPaste)
    (hrequest : c.task.IsRequest → task'.IsRequest)
    (hinstalls : ∀ id transfer, task' = .install id (.ok transfer) → transfer.transferId = id) :
    Settling (trace ++ []) ⟨c.state, task'⟩ := by
  have horderly : Orderly (⟨c.state, task'⟩ : SharedClipboard P rules) := by
    refine ⟨h.orderly.single, ?_, ?_, hinstalls⟩
    · exact fun id hid hpend => hpaste (h.orderly.pendingOwed id ((howes id).mp hid) hpend)
    · exact fun id hid hrun => hrequest (h.orderly.runningOwed id ((howes id).mp hid) hrun)
  refine h.quiet horderly ?_ rfl rfl rfl (by simp [acceptedIds])
  rintro id (hid | hid | hid)
  · exact .inl hid
  · exact .inr (.inl hid)
  · exact .inr (.inr ((howes id).mp hid))

theorem stageRemoteFiles_transferId {env : Env} {id : UInt64} {files : List FileDescriptor}
    {clipDataId : Option UInt32} {transfer : RemoteClipboardTransfer}
    (h : stageRemoteFiles rules env id files clipDataId = .ok transfer) :
    transfer.transferId = id := by
  obtain ⟨layout, -, h⟩ := bind_eq_ok.mp h
  obtain ⟨staging, -, h⟩ := bind_eq_ok.mp h
  exact RemoteClipboardTransfer.transferId_create _ h

theorem Settling.install (h : Settling trace c) {id : UInt64}
    {result : Except String RemoteClipboardTransfer} (htask : c.task = .install id result) :
    Settling (trace ++ (installRemoteTransfer c.state id result).2.2)
      ⟨(installRemoteTransfer c.state id result).1,
        (installRemoteTransfer c.state id result).2.1⟩ := by
  unfold installRemoteTransfer
  split
  · exact h.idle (Shrinks.refl c.state)
  · next hpending =>
    have hpending := not_not.mp hpending
    have hknown : c.Knows id := .inl hpending
    have hrunning : c.state.remoteTransfer = none := by
      rcases h.orderly.single with hnone | hnone
      · rw [hnone] at hpending
        exact absurd hpending (by simp)
      · exact Option.map_eq_none_iff.mp hnone
    -- the slots are empty now, and what is decided below is this transfer's outcome
    have hempty : Shrinks c.state { c.state with pendingRemote := none } :=
      ⟨.inl rfl, .inr rfl, rfl⟩
    cases result with
    | error message =>
      exact h.settle hempty hknown (by simp) (by simp [hrunning]) (fun _ => Iff.rfl) (by simp)
    | ok transfer =>
      have hid : transfer.transferId = id := h.orderly.installs id transfer htask
      have hstream : Shrinks c.state
          { c.state with pendingRemote := none }.allocateStreamId.2 := ⟨.inl rfl, .inr rfl, rfl⟩
      simp only
      split
      · next started request hstart =>
        have hsame := congrArg (fun r => r.1.transferId) hstart
        have hstarted : started.transferId = id := by
          rw [← hid, ← transfer.transferId_start]
          exact hsame.symm
        exact h.goOn hknown (by rfl) (by rfl) hstarted (by rfl) (by simp)
      · next started action hnot hstart =>
        cases action with
        | request request => exact absurd rfl (hnot request)
        | ready paths =>
          exact h.settle hstream hknown (by simp) (by simp [hrunning]) (fun _ => Iff.rfl) (by simp)
        | ignore => exact h.rest hstream (fun _ hid => hid) (by simp)
      · exact h.settle hstream hknown (by simp) (by simp [hrunning]) (fun _ => Iff.rfl) (by simp)
      · exact h.rest hstream (fun _ hid => hid) (by simp)

theorem Settling.advance (h : Settling trace c) (pdu : Pdu ρ) (response : ρ) (env : Env) :
    Settling (trace ++ (advanceRemoteTransfer pdu c.state response env).2.2)
      ⟨(advanceRemoteTransfer pdu c.state response env).1,
        (advanceRemoteTransfer pdu c.state response env).2.1⟩ := by
  unfold advanceRemoteTransfer
  split
  · exact h.idle (Shrinks.refl c.state)
  · next transfer htransfer =>
    have hrunning : c.running = some transfer.transferId := by
      rw [SharedClipboard.running, htransfer]
      rfl
    have hknown : c.Knows transfer.transferId := .inr (.inl hrunning)
    -- while a transfer runs no other one is pending
    have hpending : c.state.pendingRemote = none := by
      rcases h.orderly.single with hnone | hnone
      · exact hnone
      · rw [hnone] at hrunning
        exact absurd hrunning (by simp)
    have hstream : Shrinks c.state
        { c.state with remoteTransfer := none }.allocateStreamId.2 := ⟨.inr rfl, .inl rfl, rfl⟩
    simp only
    split
    · have hready : Shrinks c.state
          { { c.state with remoteTransfer := none }.allocateStreamId.2 with
            lastRemoteFileReadyAt := some env.now } := ⟨.inr rfl, .inl rfl, rfl⟩
      refine h.settle hready hknown ?_ (by simp) (fun _ => Iff.rfl) (by simp)
      simp [hpending]
    · next advanced action hnot hadvance =>
      have hsame := congrArg (fun r => r.1.transferId) hadvance
      -- advancing keeps the id
      have hadvanced : advanced.transferId = transfer.transferId := by
        rw [← transfer.transferId_advance pdu]
        exact hsame.symm
      exact h.goOn hknown (by exact hpending) (by rfl) hadvanced (by rfl) hnot
    · refine h.settle hstream hknown ?_ (by simp) (fun _ => Iff.rfl) (by simp)
      simp [hpending]
    · exact h.rest hstream (fun _ hid => hid) (by simp)

theorem Settling.dispatch (h : Settling trace c) {id : UInt64}
    {result : Except String RemoteTransferAction} (htask : c.task = .dispatch id result)
    (sent : Bool) :
    Settling (trace ++ (dispatchRemoteResult c.state id result sent).2.2)
      ⟨(dispatchRemoteResult c.state id result sent).1,
        (dispatchRemoteResult c.state id result sent).2.1⟩ := by
  -- an outcome is dispatched only when neither slot holds the transfer any more
  have howed (howes : c.task.Owes id) (hrequest : ¬ c.task.IsRequest) (event : HelperEvent)
      (hevent : outcomeId event = some id) :
      Settling (trace ++ []) ⟨c.state, .report event⟩ := by
    refine h.settle (Shrinks.refl c.state) (.inr (.inr howes)) ?_ ?_ (fun id' => ?_) (by simp)
    · intro hpend
      have hpaste := h.orderly.pendingOwed id howes hpend
      rw [htask] at hpaste
      exact hpaste
    · exact fun hrun => hrequest (h.orderly.runningOwed id howes hrun)
    · rw [Task.Owes, hevent, Option.some_inj]
  unfold dispatchRemoteResult
  rcases result with message | ⟨request⟩ | ⟨paths⟩ | _
  · exact howed (by rw [htask]; rfl) (by rw [htask]; exact not_false) _ rfl
  · cases sent with
    | true => exact h.idle (Shrinks.refl c.state)
    | false =>
      refine h.retask (fun id' => ?_) (fun hpaste => ?_) (fun _ => trivial) (by simp)
      · rw [htask]
        exact Iff.rfl
      · rw [htask] at hpaste
        exact hpaste
  · exact howed (by rw [htask]; rfl) (by rw [htask]; exact not_false) _ rfl
  · exact h.idle (Shrinks.refl c.state)

theorem Settling.locks (h : Settling trace c) (clipDataIds : List UInt32) :
    Settling (trace ++ (cancelRemoteLocks c.state clipDataIds).2.2)
      ⟨(cancelRemoteLocks c.state clipDataIds).1,
        (cancelRemoteLocks c.state clipDataIds).2.1⟩ := by
  unfold cancelRemoteLocks
  split
  · exact h.idle (Shrinks.refl c.state)
  · next transfer htransfer =>
    have hrunning : c.running = some transfer.transferId := by
      rw [SharedClipboard.running, htransfer]
      rfl
    split
    · have hstopped : Shrinks c.state { c.state with remoteTransfer := none } :=
        ⟨.inr rfl, .inl rfl, rfl⟩
      refine h.settle hstopped (.inr (.inl hrunning)) ?_ (by simp) (fun id' => ?_) (by simp)
      · rcases h.orderly.single with hnone | hnone
        · simp [hnone]
        · rw [hnone] at hrunning
          exact absurd hrunning (by simp)
      · rw [Task.Owes, outcomeId, Option.some_inj]
    · exact h.idle (Shrinks.refl c.state)

theorem Settling.remoteCopy (h : Settling trace c) (formats : List ClipboardFormat) (now : ℕ)
    (hfew : (reservedIds (trace ++ (beginRemoteCopy c.state formats now).2.2)).length < 2 ^ 63) :
    Settling (trace ++ (beginRemoteCopy c.state formats now).2.2)
      ⟨(beginRemoteCopy c.state formats now).1,
        (beginRemoteCopy c.state formats now).2.1⟩ := by
  unfold beginRemoteCopy at hfew ⊢
  split at hfew
  · next format _ =>
    have hshrinks : Shrinks c.state { c.state with waitingRemoteText := false } :=
      ⟨.inr rfl, .inr rfl, rfl⟩
    -- a copy of files reserves an id, a copy of text only drops what was there
    have hsilent := h.shrink hshrinks
    rw [List.append_nil] at hsilent
    refine hsilent.reserve ?_ format.id
    simpa [reservedIds] using hfew
  · unfold beginRemoteText
    simp only
    split
    · exact h.idle (Shrinks.refl c.state)
    · have hshrinks : Shrinks c.state { c.state with
          pendingRemote := none
          remoteTransfer := none
          waitingRemoteText := formats.any fun format => format.id = cfUnicodeText } :=
        ⟨.inl rfl, .inl rfl, rfl⟩
      refine h.rest hshrinks (fun id hid => ?_) (fun id transfer htask => ?_)
      · split at hid <;> exact hid
      · split at htask <;> exact absurd htask (by simp)

theorem Settling.formatDataResponse (h : Settling trace c) (text : Option String) :
    Settling (trace ++ []) ⟨{ c.state with waitingRemoteText := false },
      match text with
      | some text => if c.state.waitingRemoteText then .report (.clipboardText text) else .idle
      | none => .idle⟩ := by
  have hshrinks : Shrinks c.state { c.state with waitingRemoteText := false } :=
    ⟨.inr rfl, .inr rfl, rfl⟩
  cases text with
  | none => exact h.idle hshrinks
  | some text =>
    simp only
    split
    · exact h.rest hshrinks (by simp [Task.Owes, outcomeId]) (by simp)
    · exact h.idle hshrinks

theorem Settling.call (h : Settling trace c) (pdu : Pdu ρ) (env : Env) (callback : Callback ρ)
    (hfew : (reservedIds (trace ++ (call pdu c.state env callback).2.2)).length < 2 ^ 63) :
    Settling (trace ++ (call pdu c.state env callback).2.2)
      ⟨(call pdu c.state env callback).1, (call pdu c.state env callback).2.1⟩ := by
  cases callback with
  | buildCliprdrBackend =>
    have hshrinks : Shrinks c.state c.state.buildCliprdrBackend := ⟨.inl rfl, .inl rfl, rfl⟩
    exact h.idle hshrinks
  | remoteCopy formats => exact h.remoteCopy formats env.now hfew
  | remoteFileList files clipDataId =>
    simp only [Clipboard.call, receiveRemoteFiles]
    split
    · exact h.idle (Shrinks.refl c.state)
    · exact h.rest (Shrinks.refl c.state) (fun _ howes => howes) (by simp)
  | fileContentsResponse response => exact h.advance pdu response env
  | formatDataResponse text => exact h.formatDataResponse text
  | lock dataId =>
    simp only [Clipboard.call]
    split
    · exact h.idle ⟨.inr rfl, .inr rfl, rfl⟩
    · exact h.idle (Shrinks.refl c.state)
  | unlock dataId =>
    simp only [Clipboard.call]
    exact h.idle ⟨.inr rfl, .inr rfl, rfl⟩
  | outgoingLocksCleared clipDataIds => exact h.locks clipDataIds
  | outgoingLocksExpired clipDataIds => exact h.locks clipDataIds

theorem Settling.resume (h : Settling trace c) (env : Env) :
    Settling (trace ++ (resume c.state env c.task).2.2)
      ⟨(resume c.state env c.task).1, (resume c.state env c.task).2.1⟩ := by
  cases htask : c.task with
  | idle => exact h.idle (Shrinks.refl c.state)
  | initiatePaste id format =>
    simp only [Clipboard.resume]
    split
    · exact h.idle (Shrinks.refl c.state)
    · refine h.retask (fun id' => ?_) (fun _ => trivial) (fun hrequest => ?_) (by simp)
      · rw [htask]
        exact Iff.rfl
      · rw [htask] at hrequest
        exact hrequest
  | pasteFailed id =>
    have howes : c.task.Owes id := by rw [htask]; rfl
    refine h.settle (forgetPending_shrinks c.state id) (.inr (.inr howes))
      (forgetPending_ne c.state id) (fun hrun => ?_) (fun id' => ?_) ?_
    -- the transfer that runs is not touched
    · have hkept : (c.state.forgetPending id).remoteTransfer = c.state.remoteTransfer := by
        unfold TextClipboardState.forgetPending
        split <;> rfl
      rw [hkept] at hrun
      have hrequest := h.orderly.runningOwed id howes hrun
      rw [htask] at hrequest
      exact hrequest
    · exact Option.some_inj
    · simp [Clipboard.resume]
  | initiateTextPaste => exact h.idle (Shrinks.refl c.state)
  | stage id files clipDataId =>
    refine h.rest (Shrinks.refl c.state) (fun _ hid => hid) (fun id' transfer hinstall => ?_)
    obtain ⟨rfl, hstaged⟩ := Task.install.inj hinstall
    exact stageRemoteFiles_transferId hstaged
  | install id result => exact h.install htask
  | dispatch id result => exact h.dispatch htask env.sent
  | requestFailed id =>
    have howes : c.task.Owes id := by rw [htask]; rfl
    refine h.settle (stopRunning_shrinks c.state id) (.inr (.inr howes)) (fun hpend => ?_)
      (stopRunning_ne c.state id) (fun id' => ?_) ?_
    -- and neither is the one that is pending
    · have hkept : (c.state.stopRunning id).pendingRemote = c.state.pendingRemote := by
        unfold TextClipboardState.stopRunning
        split <;> rfl
      rw [hkept] at hpend
      have hpaste := h.orderly.pendingOwed id howes hpend
      rw [htask] at hpaste
      exact hpaste
    · exact Option.some_inj
    · simp [Clipboard.resume]
  | report event => exact h.report htask
  | unwound =>
    simp only [Clipboard.resume]
    exact h.rest (Shrinks.refl c.state) (fun _ howes => howes) (by simp)

/-! ### Runs -/

/-- One step of either side. -/
theorem Settling.step (h : Settling trace c) (pdu : Pdu ρ) (step : Step P N ρ)
    (hfew : (reservedIds (trace ++ (c.step pdu step).2)).length < 2 ^ 63) :
    Settling (trace ++ (c.step pdu step).2) (c.step pdu step).1 := by
  cases step with
  | call env callback =>
    simp only [SharedClipboard.step] at hfew ⊢
    -- a callback waits until the task of the last one is done
    split at hfew
    · exact h.call pdu env callback hfew
    · rw [List.append_nil]
      exact h
  | resume env => exact h.resume env
  | cancelTransfer id => exact h.shrink (cancelTransfer_shrinks c.state id)
  | setLocalText text =>
    have hshrinks : Shrinks c.state (c.state.setLocalText text) := ⟨.inr rfl, .inr rfl, rfl⟩
    exact h.shrink hshrinks
  | setLocalFiles fs id paths =>
    simp only [SharedClipboard.step]
    split
    · next state hset =>
      obtain ⟨hlocal, hshrinks⟩ := setLocalFiles_ok hset
      exact h.accept hshrinks hlocal
    · rw [List.append_nil]
      exact h
  | shutdown =>
    have hshrinks : Shrinks c.state c.state.shutdown := ⟨.inl rfl, .inl rfl, rfl⟩
    exact h.shrink hshrinks

/-- Every run with fewer than 2^63 reservations. -/
theorem settling_run (pdu : Pdu ρ) (steps : List (Step P N ρ))
    (hfew : (reservedIds (SharedClipboard.trace pdu rules steps)).length < 2 ^ 63) :
    Settling (SharedClipboard.trace pdu rules steps) (SharedClipboard.reached pdu rules steps) := by
  refine Machine.run_history (P := fun _ => True)
    (H := fun _ trace c => (reservedIds trace).length < 2 ^ 63 → Settling trace c)
    (fun _ _ _ => trivial) ?_ (fun _ => Settling.initial) trivial hfew
  intro _ trace c step ih _ hfew
  refine (ih ?_).step pdu step hfew
  rw [reservedIds_append, List.length_append] at hfew
  omega

/-- However the callbacks and the controller interleave: no transfer gets two outcomes, the ids of
remote transfers are not ids of local ones, and not more than one transfer is under way. -/
theorem remote_transfer_one_outcome (pdu : Pdu ρ) (rules : NameRules) (steps : List (Step P N ρ))
    (hfew : (reservedIds (SharedClipboard.trace pdu rules steps)).length < 2 ^ 63) :
    (∀ id, (outcomes (SharedClipboard.trace pdu rules steps)).count id ≤ 1) ∧
    (∀ id ∈ reservedIds (SharedClipboard.trace pdu rules steps),
      id ∉ acceptedIds (SharedClipboard.trace pdu rules steps)) ∧
    ((SharedClipboard.reached pdu rules steps).state.pendingRemote = none ∨
      (SharedClipboard.reached pdu rules steps).state.remoteTransfer = none) := by
  have h := settling_run pdu steps hfew
  refine ⟨List.nodup_iff_count_le_one.mp h.once, fun id hreserved haccepted => ?_, ?_⟩
  · rw [h.ids] at hreserved
    obtain ⟨n, -, rfl⟩ := List.mem_map.mp hreserved
    exact sequenceId_remote n (h.accepted _ haccepted)
  · rcases h.orderly.single with hnone | hnone
    · exact .inl hnone
    · exact .inr (Option.map_eq_none_iff.mp hnone)

/-- A file list whose paste cannot be initiated and is cancelled before that is reported, a local
copy, and a second file list. -/
def pasteRun : List (Step (List String) String WireResponse) :=
  let env (sent : Bool) : Env := ⟨sent, .ok "/staging", exactFs, 0⟩
  let fileList : Callback WireResponse := .remoteCopy [⟨0xC0FE, some fileListName⟩]
  [.call (env true) fileList, .resume (env false),
    .cancelTransfer (remoteClipboardTransferBit ||| 1), .resume (env true),
    .setLocalFiles (twoFiles "a" "b") 1 ["/d"], .resume (env true), .call (env true) fileList]

theorem remote_transfer_one_outcome_pasteRun :
    outcomes (SharedClipboard.trace wirePdu asciiRules pasteRun)
      = [remoteClipboardTransferBit ||| 1] ∧
    reservedIds (SharedClipboard.trace wirePdu asciiRules pasteRun)
      = [remoteClipboardTransferBit ||| 1, remoteClipboardTransferBit ||| 2] ∧
    acceptedIds (SharedClipboard.trace wirePdu asciiRules pasteRun) = [1] ∧
    (outcomes (SharedClipboard.trace wirePdu asciiRules pasteRun)).count
      (remoteClipboardTransferBit ||| 1) ≤ 1 := by
  have hreserved : reservedIds (SharedClipboard.trace wirePdu asciiRules pasteRun)
      = [remoteClipboardTransferBit ||| 1, remoteClipboardTransferBit ||| 2] := by decide +kernel
  refine ⟨by decide +kernel, hreserved, by decide +kernel, ?_⟩
  refine (remote_transfer_one_outcome wirePdu asciiRules pasteRun ?_).1 _
  rw [hreserved]
  decide

end Clipboard
end Rdp
end Navop
