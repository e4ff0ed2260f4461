import NavopExtensions.Rdp.Mailbox.Control
import NavopExtensions.Rdp.Mailbox.Faithful
import NavopExtensions.Rdp.Output

/-!
# What pacing may change

Pacing is a rewriting of the sequence of client events, by two rules:

* an image directly before another image can be dropped (`Equivalent.image_image`);
* an image can be moved behind a pointer event (`Equivalent.image_pointer`).

Both keep the mapper's state and what a consumer makes of the events sent: its canvas, its cursor
and the other events up to the size reported in `Connected` (`SameSession`). The exception for the
size is needed: the image that is dropped may be the one that would have announced the session.

`SameSession` and `Equivalent` are congruences for concatenation, so a rule applies anywhere in a
sequence.
-/

namespace Navop
namespace Rdp
namespace Pacing

open Mailbox (Canvas applyEvents applyEvents_append applyEvents_cons applyEvent_control
  isPlainControl)

/-! ### What a consumer makes of the events -/

/-- An event without the size reported in `Connected`. -/
def unsized : HelperEvent → HelperEvent
  | .connected .. => .connected 0 0
  | event => event

/-- The events that are neither pixels nor cursors, up to the size reported in `Connected`. -/
def plainEvents (events : List HelperEvent) : List HelperEvent :=
  (events.filter isPlainControl).map unsized

/-- Two sequences of events that a consumer cannot tell apart in the end. -/
structure SameSession (xs ys : List HelperEvent) : Prop where
  canvas : ∀ canvas : Canvas, applyEvents canvas xs = applyEvents canvas ys
  cursor : ∀ cursor : CursorState, cursor.applyAll xs = cursor.applyAll ys
  plain : plainEvents xs = plainEvents ys

namespace SameSession

theorem refl (xs : List HelperEvent) : SameSession xs xs := ⟨fun _ => rfl, fun _ => rfl, rfl⟩

theorem trans {xs ys zs : List HelperEvent} (h : SameSession xs ys) (h' : SameSession ys zs) :
    SameSession xs zs :=
  ⟨fun c => (h.canvas c).trans (h'.canvas c), fun c => (h.cursor c).trans (h'.cursor c),
    h.plain.trans h'.plain⟩

theorem symm {xs ys : List HelperEvent} (h : SameSession xs ys) : SameSession ys xs :=
  ⟨fun c => (h.canvas c).symm, fun c => (h.cursor c).symm, h.plain.symm⟩

theorem append {xs xs' ys ys' : List HelperEvent} (h : SameSession xs xs')
    (h' : SameSession ys ys') : SameSession (xs ++ ys) (xs' ++ ys') := by
  refine ⟨fun c => ?_, fun c => ?_, ?_⟩
  · rw [applyEvents_append, applyEvents_append, h.canvas, h'.canvas]
  · rw [CursorState.applyAll_append, CursorState.applyAll_append, h.cursor, h'.cursor]
  · have hxs := h.plain
    have hys := h'.plain
    simp only [plainEvents, List.filter_append, List.map_append] at hxs hys ⊢
    rw [hxs, hys]

/-- Cursor events neither paint nor count as other events. -/
theorem of_cursors {xs ys : List HelperEvent} (hxs : ∀ e ∈ xs, e.isCursor = true)
    (hys : ∀ e ∈ ys, e.isCursor = true)
    (h : ∀ cursor : CursorState, cursor.applyAll xs = cursor.applyAll ys) : SameSession xs ys := by
  have hcanvas : ∀ zs : List HelperEvent, (∀ e ∈ zs, e.isCursor = true) → ∀ canvas,
      applyEvents canvas zs = canvas := by
    -- cursor events leave the canvas alone, one by one
    intro zs hzs
    induction zs with
    | nil => exact fun _ => rfl
    | cons e zs ih =>
      intro canvas
      have he : e.isControl = true := HelperEvent.isControl_of_isCursor (hzs e List.mem_cons_self)
      rw [applyEvents_cons, applyEvent_control he]
      exact ih (fun e' he' => hzs e' (List.mem_cons_of_mem _ he')) canvas
  have hplain : ∀ zs : List HelperEvent, (∀ e ∈ zs, e.isCursor = true) → plainEvents zs = [] := by
    intro zs hzs
    have hfilter : zs.filter isPlainControl = [] :=
      List.filter_eq_nil_iff.mpr fun e he => by simp [isPlainControl, hzs e he]
    rw [plainEvents, hfilter, List.map_nil]
  exact ⟨fun c => (hcanvas xs hxs c).trans (hcanvas ys hys c).symm, h,
    (hplain xs hxs).trans (hplain ys hys).symm⟩

/-- The size reported in `Connected` is not compared. -/
theorem connected (width height width' height' : UInt16) :
    SameSession [.connected width height] [.connected width' height'] :=
  ⟨fun _ => rfl, fun _ => rfl, rfl⟩

/-- A frame hides the frame before it. -/
theorem frame_frame (width height width' height' : UInt16) (bgra bgra' : List UInt8) :
    SameSession [.frame width height bgra, .frame width' height' bgra']
      [.frame width' height' bgra'] :=
  ⟨fun _ => rfl, fun _ => rfl, rfl⟩

/-- A frame and a cursor event do not interfere. -/
theorem frame_cursor {c : HelperEvent} (hc : c.isCursor = true) (width height : UInt16)
    (bgra : List UInt8) :
    SameSession [.frame width height bgra, c] [c, .frame width height bgra] := by
  cases c with
  | cursorDefault | cursorHidden | cursorPosition | cursorRgbaBytes =>
    exact ⟨fun _ => rfl, fun _ => rfl, rfl⟩
  | _ => nomatch hc

end SameSession

/-! ### Rewriting the client's events -/

/-- The slot for the cursor holds an appearance, if anything. -/
def ValidCursor (cursor : PendingCursor) : Prop :=
  ∀ a, cursor.appearance = some a → a.isAppearance = true

theorem validCursor_empty : ValidCursor .empty := by
  intro a ha
  nomatch ha

theorem ValidCursor.record {cursor : PendingCursor} (h : ValidCursor cursor) {c : HelperEvent}
    (hc : c.isCursor = true) : ValidCursor (cursor.record c) := by
  intro a ha
  cases c with
  | cursorPosition x y => exact h a ha
  | cursorDefault | cursorHidden | cursorRgbaBytes =>
    rw [← Option.some.inj ha]
    rfl
  | _ => nomatch hc

theorem ValidCursor.isCursor {cursor : PendingCursor} (h : ValidCursor cursor) :
    ∀ e ∈ cursor.events, e.isCursor = true := by
  intro e he
  rcases List.mem_append.mp he with he | he
  · have happearance := h e (Option.mem_toList.mp he)
    cases e <;> first | rfl | nomatch happearance
  · obtain ⟨p, -, rfl⟩ := Option.map_eq_some_iff.mp (Option.mem_toList.mp he)
    rfl

/-- Recording a cursor event in the slot is as good as sending it after the slot's events. -/
theorem ValidCursor.sameSession_record {cursor : PendingCursor} (h : ValidCursor cursor)
    {c : HelperEvent} (hc : c.isCursor = true) :
    SameSession (cursor.events ++ [c]) (cursor.record c).events := by
  refine .of_cursors (fun e he => ?_) (h.record hc).isCursor fun known => ?_
  · rcases List.mem_append.mp he with he | he
    · exact h.isCursor e he
    · rw [List.mem_singleton.mp he]; exact hc
  · obtain ⟨appearance, position⟩ := cursor
    cases c with
    | cursorPosition x y =>
      rcases appearance with _ | a <;> rcases position with _ | p <;> rfl
    | cursorDefault | cursorHidden | cursorRgbaBytes =>
      rcases appearance with _ | a
      · rcases position with _ | p <;> rfl
      · -- the slot's appearance says nothing about the position, so it is overwritten as a whole
        have hok := h a rfl
        cases a with
        | cursorDefault | cursorHidden | cursorRgbaBytes => rcases position with _ | p <;> rfl
        | _ => nomatch hok
    | _ => nomatch hc

theorem validCursor_map {mapper : RdpOutputMapper} (h : ValidCursor mapper.pendingCursor)
    (e : RdpOutputEvent) : ValidCursor (mapper.map e).1.pendingCursor := by
  have hemits := mapper.map_emits e
  generalize mapper.map e = next at hemits ⊢
  obtain ⟨mapper', out⟩ := next
  cases hemits with
  | ignored hr hp => exact h
  | reset b hr hb => exact validCursor_empty
  | announce width height bgra hr hp hlen hc => exact validCursor_empty
  | frame width height bgra hr hp hlen hc => exact h
  | region width height rect bgra hr hp hc hbase hrect => exact h
  | cursor c hr hp hc => exact h
  | record c hr hp hc => exact h.record (RdpOutputEvent.isCursor_of_pointerEvent hp)

theorem validCursor_run {mapper : RdpOutputMapper} (h : ValidCursor mapper.pendingCursor)
    (events : List RdpOutputEvent) :
    ValidCursor (Machine.run RdpOutputMapper.map mapper events).1.pendingCursor :=
  Machine.run_inv (I := fun mapper : RdpOutputMapper => ValidCursor mapper.pendingCursor)
    (P := fun _ => True)
    (fun _ e hm _ => validCursor_map hm e) h fun _ _ => trivial

/-- Two sequences of client events that leave the mapper in the same state and the consumer with
the same session. -/
def Equivalent (xs ys : List RdpOutputEvent) : Prop :=
  ∀ mapper : RdpOutputMapper, ValidCursor mapper.pendingCursor →
    (Machine.run RdpOutputMapper.map mapper xs).1 = (Machine.run RdpOutputMapper.map mapper ys).1 ∧
      SameSession (Machine.run RdpOutputMapper.map mapper xs).2
        (Machine.run RdpOutputMapper.map mapper ys).2

namespace Equivalent

theorem refl (xs : List RdpOutputEvent) : Equivalent xs xs := fun _ _ => ⟨rfl, .refl _⟩

theorem trans {xs ys zs : List RdpOutputEvent} (h : Equivalent xs ys) (h' : Equivalent ys zs) :
    Equivalent xs zs :=
  fun mapper hm => ⟨(h mapper hm).1.trans (h' mapper hm).1, (h mapper hm).2.trans (h' mapper hm).2⟩

theorem append {xs xs' ys ys' : List RdpOutputEvent} (h : Equivalent xs xs')
    (h' : Equivalent ys ys') : Equivalent (xs ++ ys) (xs' ++ ys') := by
  intro mapper hm
  obtain ⟨hstate, hsent⟩ := h mapper hm
  obtain ⟨hstate', hsent'⟩ := h' _ (validCursor_run hm xs')
  rw [Machine.run_append, Machine.run_append, hstate]
  exact ⟨hstate', hsent.append hsent'⟩

/-- An image directly before another image can be dropped. -/
theorem image_image (buffer buffer' : List UInt32) (width height width' height' : NonZeroU16) :
    Equivalent [.image buffer width height, .image buffer' width' height']
      [.image buffer' width' height'] := by
  intro mapper hm
  obtain ⟨connected, base, cursor⟩ := mapper
  cases connected with
  -- two frames, of which the second hides the first
  | true => exact ⟨rfl, .frame_frame ..⟩
  | false =>
    refine ⟨rfl, ?_⟩
    -- the session is announced with the size of one image or of the other
    have hsent := ((SameSession.connected width.get height.get width'.get height'.get).append
      (.refl cursor.events)).append (.frame_frame width.get height.get width'.get height'.get
        (rdpU32PixelsToBgra buffer) (rdpU32PixelsToBgra buffer'))
    simpa [Machine.run_cons, RdpOutputMapper.map, RdpOutputMapper.mapBaseFrame] using hsent

/-- A pointer event and an image commute. -/
theorem image_pointer (buffer : List UInt32) (width height : NonZeroU16) {e : RdpOutputEvent}
    {c : HelperEvent} (hp : e.pointerEvent = some c) :
    Equivalent [.image buffer width height, e] [e, .image buffer width height] := by
  -- all pointer events are mapped alike
  have hmap : ∀ mapper : RdpOutputMapper, mapper.map e = mapper.mapCursor c := by
    intro mapper
    cases e with
    | pointerDefault | pointerHidden | pointerPosition | pointerBitmap =>
      rw [← Option.some.inj hp]
      rfl
    | _ => nomatch hp
  have himage : ∀ mapper : RdpOutputMapper, mapper.map (.image buffer width height)
      = mapper.mapBaseFrame width.get height.get (rdpU32PixelsToBgra buffer) := fun _ => rfl
  have hc := RdpOutputEvent.isCursor_of_pointerEvent hp
  intro mapper hm
  obtain ⟨connected, base, cursor⟩ := mapper
  cases connected with
  | true =>
    refine ⟨by simp [Machine.run_cons, hmap]; rfl, ?_⟩
    have hsent := SameSession.frame_cursor hc width.get height.get (rdpU32PixelsToBgra buffer)
    simpa [Machine.run_cons, hmap, himage, RdpOutputMapper.mapBaseFrame,
      RdpOutputMapper.mapCursor] using hsent
  | false =>
    refine ⟨by simp [Machine.run_cons, hmap]; rfl, ?_⟩
    -- the event is sent after the frame, or recorded and sent before it
    have hrecord : ∀ bgra, SameSession (cursor.events ++ [.frame width.get height.get bgra, c])
        ((cursor.record c).events ++ [.frame width.get height.get bgra]) := by
      intro bgra
      have hmove := (SameSession.refl cursor.events).append
        (.frame_cursor hc width.get height.get bgra)
      have hslot := (hm.sameSession_record hc).append (.refl [.frame width.get height.get bgra])
      exact hmove.trans (by simpa using hslot)
    have hsent := (SameSession.refl [.connected width.get height.get]).append
      (hrecord (rdpU32PixelsToBgra buffer))
    simpa [Machine.run_cons, hmap, himage, RdpOutputMapper.mapBaseFrame,
      RdpOutputMapper.mapCursor] using hsent

end Equivalent

end Pacing
end Rdp
end Navop
