import NavopExtensions.Rdp.Mailbox.Runs

/-!
# The control channel

Control events travel through a queue of their own. Two cursor positions, or two cursor bitmaps,
that meet at its back are coalesced, and the end of a session deletes the cursor events still
queued. Neither loses anything a consumer needs: control events that are not cursor events arrive
exactly as they were sent, and the cursor state a consumer folds out of the control events it
receives is the one folded out of those sent (`received_control_faithful`).

Each is one field of the invariant `Relayed`, relating what was sent to what was received followed
by what is still queued. Deltas need not be well-formed here; that the pending queue holds nothing
but deltas is enough.
-/

namespace Navop
namespace Rdp
namespace Mailbox

/-! ### The pending queue holds deltas only -/

theorem mergeDeltas_isDelta {previous next : HelperEvent} (hnext : next.isDelta = true) :
    (mergeDeltas previous next).isDelta = true := by
  unfold mergeDeltas
  split
  · split <;> rfl
  · exact hnext

theorem splitDeltaIntoChunks_isDelta {event : HelperEvent} (h : event.isDelta = true) (cap : Nat) :
    ∀ chunk ∈ splitDeltaIntoChunks event cap, chunk.isDelta = true := by
  intro chunk hchunk
  unfold splitDeltaIntoChunks at hchunk
  split at hchunk
  · obtain ⟨group, -, rfl⟩ := List.mem_map.mp hchunk
    rfl
  · rw [List.mem_singleton.mp hchunk]; exact h

theorem foldOldestPair_isDelta {cap : Nat} {pending : List HelperEvent}
    (h : ∀ e ∈ pending, e.isDelta = true) :
    ∀ e ∈ foldOldestPair cap pending, e.isDelta = true := by
  unfold foldOldestPair
  split
  · next oldest second rest =>
    intro e he
    -- a chunk of the merged pair, or one of the events behind it
    rcases List.mem_append.mp he with he | he
    · exact splitDeltaIntoChunks_isDelta
        (mergeDeltas_isDelta (h second (List.mem_cons_of_mem _ List.mem_cons_self))) cap e he
    · exact h e (List.mem_cons_of_mem _ (List.mem_cons_of_mem _ he))
  · exact h

theorem queueDeltaWithCap_isDelta {cap : Nat} {pending : List HelperEvent} {delta : HelperEvent}
    (h : ∀ e ∈ pending, e.isDelta = true) (hdelta : delta.isDelta = true) :
    ∀ e ∈ queueDeltaWithCap pending delta cap, e.isDelta = true := by
  have hmerged : (mergeIntoNewest pending delta).isDelta = true := by
    unfold mergeIntoNewest
    split
    · exact mergeDeltas_isDelta hdelta
    · cases delta <;> first | rfl | nomatch hdelta
  have hchunks := splitDeltaIntoChunks_isDelta hmerged cap
  exact foldl_pushChunk_forall (fun _ => foldOldestPair_isDelta) _
    (fun e he => h e (List.dropLast_subset _ he)) hchunks

/-- What the three places of the mailbox can hold. -/
structure Sorted (s : State) : Prop where
  control : ∀ e ∈ s.control, e.isControl = true
  frame : ∀ e, s.latestFrame = some e → e.isFrame = true
  deltas : ∀ e ∈ s.pendingDeltas, e.isDelta = true

theorem Sorted.initial : Sorted outputMailbox where
  control := by simp [outputMailbox]
  frame := by simp [outputMailbox]
  deltas := by simp [outputMailbox]

private theorem control_discard {control : List HelperEvent} {e : HelperEvent}
    (h : ∀ e ∈ control, e.isControl = true) (he : e.isBarrier = true) :
    ∀ e' ∈ discardPendingCursorEvents control ++ [e], e'.isControl = true := by
  intro e' he'
  rcases List.mem_append.mp he' with he' | he'
  · exact h e' (mem_discardPendingCursorEvents.mp he').1
  · rw [List.mem_singleton.mp he']; exact HelperEvent.isControl_of_isBarrier he

theorem Sorted.step {cap : Nat} {s s' : State} {op : Op} {out : List HelperEvent}
    (h : Sorted s) (htrans : Transition cap s op s' out) : Sorted s' := by
  cases htrans with
  | frame e he =>
    refine ⟨h.control, fun e' he' => ?_, by simp⟩
    rw [← Option.some.inj he']; exact he
  | delta e he => exact ⟨h.control, h.frame, queueDeltaWithCap_isDelta h.deltas he⟩
  -- a terminal event discards the others of its kind, and the image with the deltas
  | terminal e he =>
    exact ⟨control_discard h.control (HelperEvent.isBarrier_of_isTerminal he), by simp, by simp⟩
  | reconnecting e he ht => exact ⟨control_discard h.control he, h.frame, h.deltas⟩
  | control e he hb =>
    refine ⟨fun e' he' => ?_, h.frame, h.deltas⟩
    rcases mem_enqueueControl he' with hmem | rfl
    · exact h.control e' hmem
    · exact he
  | recvControl e rest hc =>
    exact ⟨fun e' he' => h.control e' (by rw [hc]; exact List.mem_cons_of_mem _ he'), h.frame,
      h.deltas⟩
  | recvFrame e hc hf => exact ⟨h.control, by simp, h.deltas⟩
  | recvDelta e rest hc hf hd =>
    exact ⟨h.control, h.frame, fun e' he' => h.deltas e' (by
      rw [hd]; exact List.mem_cons_of_mem _ he')⟩
  | idle hs => exact h

/-! ### What the control queue owes the consumer -/

/-- Control events that must arrive one by one: all but the cursor events. -/
def isPlainControl (e : HelperEvent) : Bool := e.isControl && !e.isCursor

theorem isPlainControl_of_isCursor {e : HelperEvent} (h : e.isCursor = true) :
    isPlainControl e = false := by
  simp [isPlainControl, h]

/-- Coalescing at the back of the queue touches cursor events only. -/
theorem filter_enqueueControl (control : List HelperEvent) (e : HelperEvent) :
    (enqueueControl control e).filter isPlainControl
      = control.filter isPlainControl ++ [e].filter isPlainControl := by
  -- an overwritten event and the one overwriting it are both filtered out
  have hoverwrite : ∀ old new : HelperEvent, control.getLast? = some old → old.isCursor = true →
      new.isCursor = true → (control.dropLast ++ [new]).filter isPlainControl
        = control.filter isPlainControl ++ [new].filter isPlainControl := by
    intro old new hlast hold hnew
    conv_rhs => rw [← List.dropLast_append_getLast? old hlast]
    simp [isPlainControl_of_isCursor hold, isPlainControl_of_isCursor hnew]
  unfold enqueueControl
  split
  · next hlast => exact hoverwrite _ _ hlast rfl rfl
  · next hlast => exact hoverwrite _ _ hlast rfl rfl
  · exact List.filter_append _ _

/-- Coalescing at the back of the queue keeps the cursor state the queue folds to: the event
overwritten set nothing that its successor does not set again. -/
theorem applyAll_enqueueControl (cursor : CursorState) (control : List HelperEvent)
    (e : HelperEvent) :
    cursor.applyAll (enqueueControl control e) = (cursor.applyAll control).apply e := by
  -- the event at the back is overwritten by one of its own kind
  have hoverwrite : ∀ old new : HelperEvent, control.getLast? = some old →
      (∀ c : CursorState, (c.apply old).apply new = c.apply new) →
      cursor.applyAll (control.dropLast ++ [new]) = (cursor.applyAll control).apply new := by
    intro old new hlast habsorb
    conv_rhs => rw [← List.dropLast_append_getLast? old hlast]
    rw [CursorState.applyAll_append, CursorState.applyAll_append]
    exact (habsorb _).symm
  unfold enqueueControl
  split
  · next hlast => exact hoverwrite _ _ hlast fun _ => rfl
  · next hlast => exact hoverwrite _ _ hlast fun _ => rfl
  · rw [CursorState.applyAll_append]; rfl

/-- The end of a session deletes cursor events only. -/
theorem filter_discardPendingCursorEvents (control : List HelperEvent) (e : HelperEvent) :
    (discardPendingCursorEvents control ++ [e]).filter isPlainControl
      = control.filter isPlainControl ++ [e].filter isPlainControl := by
  rw [List.filter_append, discardPendingCursorEvents, List.filter_filter]
  congr 1
  refine List.filter_congr fun e' _ => ?_
  simp only [isPlainControl]
  cases e'.isCursor <;> simp

/-- The control events sent so far, against those received followed by those still queued. -/
structure Relayed (ops : List Op) (outs : List HelperEvent) (s : State) : Prop where
  sorted : Sorted s
  /-- Plain control events are neither lost, duplicated nor reordered. -/
  plain : (sentEvents ops).filter isPlainControl
    = outs.filter isPlainControl ++ s.control.filter isPlainControl
  /-- What is still queued brings the consumer's cursor to the sender's. -/
  cursor : ∀ c : CursorState, c.applyAll ((sentEvents ops).filter HelperEvent.isControl)
    = (c.applyAll (outs.filter HelperEvent.isControl)).applyAll s.control

variable {ops : List Op} {outs : List HelperEvent} {s s' : State}

theorem Relayed.initial : Relayed [] [] outputMailbox where
  sorted := .initial
  plain := rfl
  cursor _ := rfl

/-- Sending an event that does not travel through the control queue. -/
private theorem Relayed.sendPixels {e : HelperEvent} (h : Relayed ops outs s)
    (he : e.isControl = false) (hs' : Sorted s')
    (hc : s'.control = s.control) : Relayed (ops ++ [.send e]) (outs ++ []) s' := by
  refine ⟨hs', ?_, fun c => ?_⟩
  · simpa [isPlainControl, he, hc] using h.plain
  · simpa [he, hc] using h.cursor c

/-- Sending a control event, in terms of what it does to the queue. -/
private theorem Relayed.sendControl {e : HelperEvent} (h : Relayed ops outs s)
    (he : e.isControl = true) (hs' : Sorted s')
    (hplain : s'.control.filter isPlainControl
      = s.control.filter isPlainControl ++ [e].filter isPlainControl)
    (hcursor : ∀ c : CursorState, c.applyAll s'.control = (c.applyAll s.control).apply e) :
    Relayed (ops ++ [.send e]) (outs ++ []) s' := by
  refine ⟨hs', ?_, fun c => ?_⟩
  · rw [sentEvents_concat_send, List.filter_append, h.plain, hplain, List.append_nil,
      List.append_assoc]
  · rw [sentEvents_concat_send, List.filter_append, CursorState.applyAll_append, h.cursor c,
      List.append_nil, hcursor]
    simp [he, CursorState.applyAll]

/-- Receiving an event that did not travel through the control queue. -/
private theorem Relayed.recvPixels {e : HelperEvent} (h : Relayed ops outs s)
    (he : e.isControl = false) (hs' : Sorted s')
    (hc : s'.control = s.control) : Relayed (ops ++ [.recv]) (outs ++ [e]) s' := by
  refine ⟨hs', ?_, fun c => ?_⟩
  · simpa [isPlainControl, he, hc] using h.plain
  · simpa [he, hc] using h.cursor c

theorem Relayed.step {cap : Nat} {op : Op} {out : List HelperEvent} (h : Relayed ops outs s)
    (htrans : Transition cap s op s' out) :
    Relayed (ops ++ [op]) (outs ++ out) s' := by
  have hsorted : Sorted s' := h.sorted.step htrans
  cases htrans with
  | frame e he => exact h.sendPixels (by simp [HelperEvent.isControl, he]) hsorted rfl
  | delta e he => exact h.sendPixels (by simp [HelperEvent.isControl, he]) hsorted rfl
  | terminal e he =>
    -- the cursor events deleted here are forgotten at the barrier anyway
    have hb := HelperEvent.isBarrier_of_isTerminal he
    refine h.sendControl (HelperEvent.isControl_of_isBarrier hb) hsorted
      (filter_discardPendingCursorEvents _ e) fun c => ?_
    rw [CursorState.apply_barrier hb, CursorState.applyAll_append]
    exact CursorState.apply_barrier hb _
  | reconnecting e he ht =>
    refine h.sendControl (HelperEvent.isControl_of_isBarrier he) hsorted
      (filter_discardPendingCursorEvents _ e) fun c => ?_
    rw [CursorState.apply_barrier he, CursorState.applyAll_append]
    exact CursorState.apply_barrier he _
  | control e he hb =>
    exact h.sendControl he hsorted (filter_enqueueControl _ e)
      fun c => applyAll_enqueueControl c _ e
  | recvControl e rest hc =>
    -- the oldest queued event moves to the received ones
    have he : e.isControl = true := h.sorted.control e (by rw [hc]; exact List.mem_cons_self)
    refine ⟨hsorted, ?_, fun c => ?_⟩
    · have hsplit : (e :: rest).filter isPlainControl
          = [e].filter isPlainControl ++ rest.filter isPlainControl :=
        List.filter_append [e] rest
      rw [sentEvents_concat_recv, h.plain, hc, hsplit, List.filter_append, List.append_assoc]
    · rw [sentEvents_concat_recv, h.cursor c, hc, List.filter_append, CursorState.applyAll_append]
      simp [he, CursorState.applyAll]
  | recvFrame e hc hf =>
    have he : e.isFrame = true := h.sorted.frame e hf
    exact h.recvPixels (by simp [HelperEvent.isControl, he]) hsorted rfl
  | recvDelta e rest hc hf hd =>
    have he : e.isDelta = true := h.sorted.deltas e (by rw [hd]; exact List.mem_cons_self)
    exact h.recvPixels (by simp [HelperEvent.isControl, he]) hsorted rfl
  | idle hs => exact ⟨hsorted, by simpa using h.plain, by simpa using h.cursor⟩

/-- **The control channel loses nothing.** Once the mailbox is drained, the plain control events
received are those sent, in order, and the control events received fold to the same cursor state
as those sent. -/
theorem received_control_faithful (cap : Nat) (cursor : CursorState) (ops : List Op)
    (hdrained : (reached cap ops).Drained) :
    (received cap ops).filter isPlainControl = (sentEvents ops).filter isPlainControl ∧
      cursor.applyAll ((received cap ops).filter HelperEvent.isControl)
        = cursor.applyAll ((sentEvents ops).filter HelperEvent.isControl) := by
  have hrun : Relayed ops (received cap ops) (reached cap ops) :=
    history (P := fun _ => True) (fun _ _ _ => trivial) .initial
      (fun _ _ _ _ _ _ h _ htrans => h.step htrans) trivial
  obtain ⟨hcontrol, -, -⟩ := hdrained
  have hplain := hrun.plain
  have hcursor := hrun.cursor cursor
  rw [hcontrol] at hplain hcursor
  exact ⟨by simpa using hplain.symm, hcursor.symm⟩

/-- Two positions coalesce, a third is deleted by the reconnect; the status line survives. -/
def cursorRun : List Op :=
  [.send (.status "up"), .send (.cursorPosition 1 1), .send (.cursorPosition 2 2), .recv,
    .send (.reconnecting .manual none), .send .cursorHidden, .recv, .recv, .recv]

theorem received_control_faithful_cursorRun :
    (reached 4 cursorRun).Drained ∧
      (received 4 cursorRun).filter isPlainControl
        = [.status "up", .reconnecting .manual none] ∧
      CursorState.unknown.applyAll ((received 4 cursorRun).filter HelperEvent.isControl)
        = ⟨some .cursorHidden, none⟩ := by
  have hdrained : (reached 4 cursorRun).Drained := by decide +kernel
  obtain ⟨hplain, hcursor⟩ := received_control_faithful 4 .unknown cursorRun hdrained
  refine ⟨hdrained, hplain.trans ?_, hcursor.trans ?_⟩ <;> decide +kernel

end Mailbox
end Rdp
end Navop
