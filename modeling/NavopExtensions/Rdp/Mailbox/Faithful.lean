import NavopExtensions.Rdp.Mailbox.Runs

/-!
# The mailbox is pixel-faithful

The consumer keeps a canvas: a full frame replaces it, a delta writes its rectangles in list order,
everything else leaves it alone (`applyEvent`). The mailbox drops superseded frames and deltas,
merges, trims, splits and folds; none of that changes what is finally on the canvas.

The invariant along a run is `Painted`: applying the events sent so far gives what the consumer
has, once what is still pending is applied on top. It needs the sizes to agree, because
`merge_deltas` drops the older of two deltas of different sizes; a delta that carries the size of
the last full frame before it always meets deltas of its own size in the queue, as that frame
emptied the queue.
-/

namespace Navop
namespace Rdp
namespace Mailbox

open Overlay

/-- The consumer's picture. -/
@[ext] structure Canvas where
  width : UInt16
  height : UInt16
  bytes : Patch Px UInt8

/-- The picture of a complete frame. -/
def framePatch (width height : UInt16) (bgra : List UInt8) : Patch Px UInt8 := fun p =>
  if p.1 < width.toNat ∧ p.2.1 < height.toNat ∧ p.2.2 < 4 then
    bgra[(p.2.1 * width.toNat + p.1) * 4 + p.2.2]?
  else none

/-- What the consumer does with one event. -/
def applyEvent (canvas : Canvas) : HelperEvent → Canvas
  | .frameBgraBytes width height bgra => ⟨width, height, framePatch width height bgra⟩
  | .frameBgraRects _ _ rects bgra =>
    { canvas with
      bytes := (splitPayload rects bgra).foldl
        (fun bytes entry => paint bytes (entryPatch entry)) canvas.bytes }
  | _ => canvas

/-- What the consumer does with a sequence of events. -/
def applyEvents (canvas : Canvas) (events : List HelperEvent) : Canvas :=
  events.foldl applyEvent canvas

/-- The size of the last complete frame of a sequence of events. -/
def lastFrameSize (events : List HelperEvent) : Option (UInt16 × UInt16) :=
  events.foldl (fun size event => match event with
    | .frameBgraBytes width height _ => some (width, height)
    | _ => size) none

/-- Every delta is well-formed for the size of the last complete frame sent before it. -/
def DeltasFollowFrames (events : List HelperEvent) : Prop :=
  ∀ pre delta post, events = pre ++ delta :: post → delta.isDelta = true →
    ∃ width height, lastFrameSize pre = some (width, height) ∧ DeltaOk width height delta

/-- The runs the mailbox is used with inside one session: deltas follow frames, and neither
terminal event is sent. -/
def SessionRun (ops : List Op) : Prop :=
  DeltasFollowFrames (sentEvents ops) ∧ ∀ e ∈ sentEvents ops, e.isTerminal = false

/-! ### Applying events -/

@[simp] theorem applyEvents_nil (canvas : Canvas) : applyEvents canvas [] = canvas := rfl

theorem applyEvents_append (canvas : Canvas) (xs ys : List HelperEvent) :
    applyEvents canvas (xs ++ ys) = applyEvents (applyEvents canvas xs) ys :=
  List.foldl_append

theorem applyEvents_cons (canvas : Canvas) (e : HelperEvent) (es : List HelperEvent) :
    applyEvents canvas (e :: es) = applyEvents (applyEvent canvas e) es := rfl

/-- Control events do not paint. -/
theorem applyEvent_control {e : HelperEvent} (h : e.isControl = true) (canvas : Canvas) :
    applyEvent canvas e = canvas := by
  cases e <;> first | rfl | nomatch h

/-- A frame forgets the canvas it is applied to. -/
theorem applyEvent_frame {e : HelperEvent} (h : e.isFrame = true) (canvas canvas' : Canvas) :
    applyEvent canvas e = applyEvent canvas' e := by
  cases e <;> first | rfl | nomatch h

private theorem foldl_paint_entries (entries : List DeltaEntry) (bytes : Patch Px UInt8) :
    entries.foldl (fun bytes entry => paint bytes (entryPatch entry)) bytes
      = paint bytes (entriesPatch entries) := by
  induction entries generalizing bytes with
  | nil => simp
  | cons entry entries ih => rw [List.foldl_cons, ih, entriesPatch_cons, paint_assoc]

/-- A delta paints its patch over the canvas. -/
theorem applyEvent_delta {e : HelperEvent} (h : e.isDelta = true) (canvas : Canvas) :
    applyEvent canvas e = { canvas with bytes := paint canvas.bytes (deltaPatch e) } := by
  cases e with
  | frameBgraRects w h' rects bgra =>
    simp only [applyEvent]
    rw [foldl_paint_entries]
    rfl
  | _ => exact absurd h (by simp [HelperEvent.isDelta])

theorem DeltaOk.isDelta {width height : UInt16} {e : HelperEvent} (h : DeltaOk width height e) :
    e.isDelta = true := by
  obtain ⟨rects, bgra, rfl⟩ := h.exists_eq
  rfl

/-- A queue of deltas paints its patch over the canvas. -/
theorem applyEvents_queue {width height : UInt16} {pending : List HelperEvent}
    (h : AllOk width height pending) (canvas : Canvas) :
    applyEvents canvas pending
      = { canvas with bytes := paint canvas.bytes (queuePatch pending) } := by
  induction pending generalizing canvas with
  | nil => simp
  | cons e pending ih =>
    rw [applyEvents_cons, applyEvent_delta (h e List.mem_cons_self).isDelta,
      ih fun e' he' => h e' (List.mem_cons_of_mem _ he'), queuePatch_cons, paint_assoc]

/-! ### Runs inside a session -/

theorem lastFrameSize_concat (events : List HelperEvent) (e : HelperEvent) :
    lastFrameSize (events ++ [e]) = match e with
      | .frameBgraBytes width height _ => some (width, height)
      | _ => lastFrameSize events := by
  unfold lastFrameSize
  rw [List.foldl_append]
  rfl

theorem lastFrameSize_concat_of_not_frame {e : HelperEvent} (h : e.isFrame = false)
    (events : List HelperEvent) : lastFrameSize (events ++ [e]) = lastFrameSize events := by
  rw [lastFrameSize_concat]
  cases e <;> first | rfl | nomatch h

theorem DeltasFollowFrames.init {events : List HelperEvent} {e : HelperEvent}
    (h : DeltasFollowFrames (events ++ [e])) : DeltasFollowFrames events := by
  intro pre delta post hsplit
  exact h pre delta (post ++ [e]) (by rw [hsplit]; simp)

theorem DeltasFollowFrames.concat {events : List HelperEvent} {e : HelperEvent}
    (h : DeltasFollowFrames events)
    (he : e.isDelta = true →
      ∃ width height, lastFrameSize events = some (width, height) ∧ DeltaOk width height e) :
    DeltasFollowFrames (events ++ [e]) := by
  intro pre delta post hsplit hdelta
  -- the delta is the event that was added, or was there before
  rcases List.eq_nil_or_concat post with rfl | ⟨post, last, rfl⟩
  · obtain ⟨rfl, hlast⟩ := List.append_inj' hsplit rfl
    obtain rfl := (List.cons.inj hlast).1
    exact he hdelta
  · have hcons : pre ++ delta :: (post ++ [last]) = (pre ++ delta :: post) ++ [last] := by simp
    rw [List.concat_eq_append, hcons] at hsplit
    obtain ⟨hevents, -⟩ := List.append_inj' hsplit rfl
    exact h pre delta post hevents hdelta

theorem SessionRun.init {ops : List Op} {op : Op} (h : SessionRun (ops ++ [op])) :
    SessionRun ops := by
  cases op with
  | send e =>
    obtain ⟨hdeltas, hterminal⟩ := h
    rw [sentEvents_concat_send] at hdeltas hterminal
    exact ⟨hdeltas.init, fun e' he' => hterminal e' (List.mem_append_left _ he')⟩
  | recv =>
    unfold SessionRun at h
    rwa [sentEvents_concat_recv] at h

/-- The events still pending, in the order `recv` will hand them out, control events aside. -/
def State.pictures (s : State) : List HelperEvent := s.latestFrame.toList ++ s.pendingDeltas

/-- The invariant of a run that starts from the consumer's canvas `start`. -/
structure Painted (start : Canvas) (ops : List Op) (outs : List HelperEvent) (s : State) :
    Prop where
  /-- What was sent is what was received plus what is pending. -/
  same : applyEvents start (sentEvents ops) = applyEvents (applyEvents start outs) s.pictures
  /-- Only control events are in the control queue. -/
  control : ∀ e ∈ s.control, e.isControl = true
  frame : ∀ e, s.latestFrame = some e → e.isFrame = true
  /-- The pending deltas have the size of the last frame. -/
  deltas : s.pendingDeltas = [] ∨ ∃ width height,
    lastFrameSize (sentEvents ops) = some (width, height) ∧ AllOk width height s.pendingDeltas

theorem Painted.initial (start : Canvas) : Painted start [] [] outputMailbox where
  same := rfl
  control := by simp [outputMailbox]
  frame := by simp [outputMailbox]
  deltas := Or.inl rfl

/-- Sending something that does not paint: only the control queue changes. -/
private theorem Painted.sendControl {start : Canvas} {ops : List Op} {outs : List HelperEvent}
    {s : State} {e : HelperEvent} (h : Painted start ops outs s) (he : e.isControl = true)
    {control : List HelperEvent} (hcontrol : ∀ e' ∈ control, e' ∈ s.control ∨ e' = e) :
    Painted start (ops ++ [.send e]) outs { s with control := control } where
  same := by
    rw [sentEvents_concat_send, applyEvents_append, applyEvents_cons, applyEvent_control he]
    exact h.same
  control := by
    intro e' he'
    rcases hcontrol e' he' with hmem | rfl
    · exact h.control e' hmem
    · exact he
  frame := h.frame
  deltas := by
    rw [sentEvents_concat_send,
      lastFrameSize_concat_of_not_frame ((HelperEvent.isControl_eq_true e).mp he).1]
    exact h.deltas

/-- **One transition keeps the picture.** -/
theorem Painted.step {start : Canvas} {ops : List Op} {outs : List HelperEvent} {s s' : State}
    {op : Op} {out : List HelperEvent} {cap : Nat} (h : Painted start ops outs s)
    (hrun : SessionRun (ops ++ [op])) (htrans : Transition cap s op s' out) :
    Painted start (ops ++ [op]) (outs ++ out) s' := by
  cases htrans with
  | frame e he =>
    -- whatever was received or is pending, the frame hides it
    refine ⟨?_, h.control, fun e' he' => ?_, Or.inl rfl⟩
    · rw [sentEvents_concat_send, applyEvents_append, List.append_nil]
      exact applyEvent_frame he _ _
    · obtain rfl : e = e' := Option.some.inj he'
      exact he
  | delta e he =>
    rw [List.append_nil]
    obtain ⟨hdeltas, -⟩ := hrun
    rw [sentEvents_concat_send] at hdeltas
    obtain ⟨width, height, hsize, hok⟩ := hdeltas (sentEvents ops) e [] rfl he
    -- what is pending has the size of the last frame, which is the size of this delta
    have hall : AllOk width height s.pendingDeltas := by
      rcases h.deltas with hnil | ⟨w, h', hsize', hall⟩
      · rw [hnil]; exact fun _ hmem => absurd hmem (by simp)
      · rw [hsize] at hsize'
        obtain ⟨rfl, rfl⟩ := Prod.mk.inj (Option.some.inj hsize')
        exact hall
    obtain ⟨hall', hpatch⟩ := queueDeltaWithCap_patch cap hall hok
    refine ⟨?_, h.control, h.frame, Or.inr ⟨width, height, ?_, hall'⟩⟩
    · -- both sides paint the delta over what was pending
      rw [sentEvents_concat_send, applyEvents_append, h.same]
      unfold State.pictures
      simp only
      rw [applyEvents_append, applyEvents_append, applyEvents_queue hall, applyEvents_queue hall',
        applyEvents_cons, applyEvents_nil, applyEvent_delta he, hpatch, paint_assoc]
    · rw [sentEvents_concat_send, lastFrameSize_concat_of_not_frame (by
        obtain ⟨rects, bgra, rfl⟩ := hok.exists_eq; rfl)]
      exact hsize
  | terminal e he =>
    -- no terminal event is sent inside a session
    have := hrun.2 e (by rw [sentEvents_concat_send]; simp)
    rw [he] at this
    exact absurd this (by simp)
  | reconnecting e he ht =>
    rw [List.append_nil]
    refine h.sendControl (by cases e <;> first | rfl | nomatch he) ?_
    -- the cursor events that are deleted do not paint
    intro e' he'
    rcases List.mem_append.mp he' with hmem | hmem
    · exact Or.inl (mem_discardPendingCursorEvents.mp hmem).1
    · exact Or.inr (List.mem_singleton.mp hmem)
  | control e he hb =>
    rw [List.append_nil]
    exact h.sendControl he fun e' he' => mem_enqueueControl he'
  | recvControl e rest hc =>
    have he : e.isControl = true := h.control e (by rw [hc]; exact List.mem_cons_self)
    refine ⟨?_, fun e' he' => h.control e' (by rw [hc]; exact List.mem_cons_of_mem _ he'),
      h.frame, ?_⟩
    · rw [sentEvents_concat_recv, applyEvents_append, applyEvents_cons, applyEvent_control he]
      exact h.same
    · rw [sentEvents_concat_recv]; exact h.deltas
  | recvFrame e hc hf =>
    refine ⟨?_, h.control, fun _ he' => absurd he' (by simp), ?_⟩
    · -- the frame moves from the pending pictures to the received ones
      rw [sentEvents_concat_recv, h.same, applyEvents_append]
      unfold State.pictures
      rw [hf]
      rfl
    · rw [sentEvents_concat_recv]; exact h.deltas
  | recvDelta e rest hc hf hd =>
    refine ⟨?_, h.control, h.frame, ?_⟩
    · -- so does the oldest delta, as no frame is waiting
      rw [sentEvents_concat_recv, h.same, applyEvents_append]
      unfold State.pictures
      rw [hf, hd]
      rfl
    · rw [sentEvents_concat_recv]
      rcases h.deltas with hnil | ⟨w, h', hsize, hall⟩
      · rw [hd] at hnil; exact absurd hnil (by simp)
      · exact Or.inr ⟨w, h', hsize, fun e' he' => hall e' (by
          rw [hd]; exact List.mem_cons_of_mem _ he')⟩
  | idle hs =>
    rw [List.append_nil]
    refine ⟨?_, h.control, h.frame, ?_⟩
    · rw [sentEvents_concat_recv]; exact h.same
    · rw [sentEvents_concat_recv]; exact h.deltas

/-- **Pixel faithfulness.** Once the mailbox is drained, the consumer's canvas is the one that
applying everything sent, directly and in order, would have given. -/
theorem received_paints_sent (cap : Nat) (ops : List Op) (hrun : SessionRun ops)
    (hdrained : (reached cap ops).Drained) (start : Canvas) :
    applyEvents start (received cap ops) = applyEvents start (sentEvents ops) := by
  have hpainted : Painted start ops (received cap ops) (reached cap ops) :=
    history (P := SessionRun) (H := Painted start) (fun _ _ h => h.init) (Painted.initial start)
      (fun _ _ _ _ _ _ h hP htrans => h.step hP htrans) hrun
  obtain ⟨-, hframe, hdeltas⟩ := hdrained
  rw [hpainted.same]
  unfold State.pictures
  rw [hframe, hdeltas]
  rfl

/-- Two overlapping repaints behind a frame, received as one frame and one merged delta. -/
theorem received_paints_sent_repaint :
    received 4 [.send (.frame 2 1 [0, 0, 0, 255, 0, 0, 0, 255]), .send (pixelDelta 1 1),
        .send (pixelDelta 1 2), .recv, .recv]
      = [.frame 2 1 [0, 0, 0, 255, 0, 0, 0, 255], pixelDelta 1 2] ∧
    applyEvents ⟨0, 0, blank⟩ (received 4
        [.send (.frame 2 1 [0, 0, 0, 255, 0, 0, 0, 255]), .send (pixelDelta 1 1),
          .send (pixelDelta 1 2), .recv, .recv])
      = applyEvents ⟨0, 0, blank⟩
          [.frame 2 1 [0, 0, 0, 255, 0, 0, 0, 255], pixelDelta 1 1, pixelDelta 1 2] := by
  refine ⟨by decide +kernel, received_paints_sent 4 _ ⟨?_, ?_⟩ (by decide +kernel) _⟩
  · have hnil : DeltasFollowFrames [] := fun pre _ _ h => absurd h (by simp)
    have hframe := hnil.concat (e := .frame 2 1 [0, 0, 0, 255, 0, 0, 0, 255])
      (fun h => absurd h (by decide))
    have hfirst := hframe.concat (e := pixelDelta 1 1) fun _ => ⟨2, 1, rfl, by decide⟩
    exact hfirst.concat (e := pixelDelta 1 2) fun _ => ⟨2, 1, rfl, by decide⟩
  · decide

end Mailbox
end Rdp
end Navop
