import NavopExtensions.Rdp.Pacing
import NavopExtensions.Rdp.Pacing.Rewriting

/-!
# Pacing does not change the session

The books of the loop: which events of the client have been published, in which order, and which
image waits (`Paces`). Every entry is an application of one of the two rewriting rules, so the
events published so far, followed by the image that waits, are equivalent to the events received
(`Paces.equivalent`); and an event is missing only when a later image took its place
(`Paces.accounted`).

`Tracks` ties the books to the loop's variables: the mapper has mapped exactly what was published,
and the slot holds exactly what waits. One pass keeps it, and at the end of the channel the slot is
flushed, which gives the main theorem (`mapOutputEvents_sameSession`).
-/

namespace Navop
namespace Rdp
namespace Pacing

/-! ### What has been published -/

variable {inputs : List RdpOutputEvent} {published : List (Nat × RdpOutputEvent)}
variable {pending : Option (Nat × RdpOutputEvent)} {sent : List HelperEvent} {pacer : Pacer}

/-- The events that wait in the slot. -/
def isImage : RdpOutputEvent → Bool
  | .image .. => true
  | _ => false

theorem exists_of_isImage {e : RdpOutputEvent} (h : isImage e = true) :
    ∃ buffer width height, e = .image buffer width height := by
  cases e with
  | image buffer width height => exact ⟨buffer, width, height, rfl⟩
  | _ => nomatch h

/-- The events that bypass the slot. -/
def isPointer (e : RdpOutputEvent) : Bool := e.pointerEvent.isSome

/-- The bookkeeping of the loop: of the events `inputs` received so far, those in `published` have
been mapped, in that order and with their positions in `inputs`, and `pending` waits in the slot. -/
inductive Paces : List RdpOutputEvent → List (Nat × RdpOutputEvent) →
    Option (Nat × RdpOutputEvent) → Prop
  | nil : Paces [] [] none
  /-- An image takes the slot, whether or not another one waited there. -/
  | image {inputs published pending e} (h : Paces inputs published pending)
    (he : isImage e = true) : Paces (inputs ++ [e]) published (some (inputs.length, e))
  /-- A pointer event bypasses the slot. -/
  | pointer {inputs published pending e} (h : Paces inputs published pending)
    (he : isPointer e = true) :
    Paces (inputs ++ [e]) (published ++ [(inputs.length, e)]) pending
  /-- Any other event is mapped when the slot is empty. -/
  | other {inputs published e} (h : Paces inputs published none) (hi : isImage e = false)
    (hp : isPointer e = false) : Paces (inputs ++ [e]) (published ++ [(inputs.length, e)]) none
  /-- The slot is emptied. -/
  | flush {inputs published image} (h : Paces inputs published (some image)) :
    Paces inputs (published ++ [image]) none

/-- A later image arrives before anything but pointer events. -/
def Superseded (inputs : List RdpOutputEvent) (k : Nat) : Prop :=
  ∃ j e, k < j ∧ inputs[j]? = some e ∧ isImage e = true ∧
    ∀ i e', k < i → i < j → inputs[i]? = some e' → isPointer e' = true

theorem Superseded.append {k : Nat} (h : Superseded inputs k) (more : List RdpOutputEvent) :
    Superseded (inputs ++ more) k := by
  obtain ⟨j, e, hkj, hj, he, hbetween⟩ := h
  have hlt : j < inputs.length := (List.getElem?_eq_some_iff.mp hj).1
  refine ⟨j, e, hkj, by rw [List.getElem?_append_left hlt]; exact hj, he, fun i e' hki hij hi => ?_⟩
  rw [List.getElem?_append_left (hij.trans hlt)] at hi
  exact hbetween i e' hki hij hi

/-- Where every received event is. -/
structure Accounted (inputs : List RdpOutputEvent) (published : List (Nat × RdpOutputEvent))
    (pending : Option (Nat × RdpOutputEvent)) : Prop where
  published_get : ∀ x ∈ published, inputs[x.1]? = some x.2
  pending_get : ∀ x, pending = some x → inputs[x.1]? = some x.2 ∧ isImage x.2 = true
  /-- Only pointer events arrive while an image waits. -/
  pending_last : ∀ x, pending = some x →
    ∀ i e, x.1 < i → inputs[i]? = some e → isPointer e = true
  /-- No event is published twice. -/
  nodup : (published.map Prod.fst ++ (pending.map Prod.fst).toList).Nodup
  /-- An event that is neither published nor waiting was superseded. -/
  omitted : ∀ k e, inputs[k]? = some e →
    k ∈ published.map Prod.fst ∨ pending.map Prod.fst = some k ∨
      isImage e = true ∧ Superseded inputs k

/-- Reading the sequence of inputs after one more has arrived. -/
private theorem getElem?_concat_eq {e e' : RdpOutputEvent} {k : Nat}
    (h : (inputs ++ [e])[k]? = some e') :
    inputs[k]? = some e' ∨ k = inputs.length ∧ e' = e := by
  -- an old position, the new one, or none
  rcases Nat.lt_trichotomy k inputs.length with hk | rfl | hk
  · rw [List.getElem?_append_left hk] at h
    exact .inl h
  · simp at h
    exact .inr ⟨rfl, h.symm⟩
  · rw [List.getElem?_eq_none (by simp; omega)] at h
    nomatch h

private theorem getElem?_concat_of {e e' : RdpOutputEvent} {k : Nat}
    (h : inputs[k]? = some e') : (inputs ++ [e])[k]? = some e' := by
  rw [List.getElem?_append_left (List.getElem?_eq_some_iff.mp h).1]
  exact h

/-- The positions in use are below the number of inputs. -/
private theorem Accounted.not_mem (h : Accounted inputs published pending) :
    inputs.length ∉ published.map Prod.fst ++ (pending.map Prod.fst).toList := by
  intro hmem
  rcases List.mem_append.mp hmem with hmem | hmem
  · obtain ⟨x, hx, hlen⟩ := List.mem_map.mp hmem
    have hget := h.published_get x hx
    rw [hlen, List.getElem?_eq_none le_rfl] at hget
    nomatch hget
  · obtain ⟨x, hx, hlen⟩ := Option.map_eq_some_iff.mp (Option.mem_toList.mp hmem)
    have hget := (h.pending_get x hx).1
    rw [hlen, List.getElem?_eq_none le_rfl] at hget
    nomatch hget

/-- An event that is published as soon as it arrives. -/
private theorem Accounted.publish {e : RdpOutputEvent} (h : Accounted inputs published pending)
    (he : ∀ x, pending = some x → isPointer e = true) :
    Accounted (inputs ++ [e]) (published ++ [(inputs.length, e)]) pending := by
  refine ⟨fun x hx => ?_, fun x hx => ?_, fun x hx i e' hi hget => ?_, ?_, fun k e' hk => ?_⟩
  · rcases List.mem_append.mp hx with hx | hx
    · exact getElem?_concat_of (h.published_get x hx)
    · rw [List.mem_singleton.mp hx]
      simp
  · exact ⟨getElem?_concat_of (h.pending_get x hx).1, (h.pending_get x hx).2⟩
  · rcases getElem?_concat_eq hget with hold | ⟨-, rfl⟩
    · exact h.pending_last x hx i e' hi hold
    · exact he x hx
  · -- the position of the new event is above all positions in use
    have hperm : (published.map Prod.fst ++ (pending.map Prod.fst).toList ++ [inputs.length]).Perm
        ((published ++ [(inputs.length, e)]).map Prod.fst ++ (pending.map Prod.fst).toList) := by
      rw [List.map_append, List.append_assoc, List.append_assoc]
      exact List.perm_append_comm.append_left _
    refine hperm.nodup_iff.mp (List.nodup_append.mpr ⟨h.nodup, by simp, fun a ha b hb hab => ?_⟩)
    rw [List.mem_singleton.mp hb] at hab
    exact h.not_mem (hab ▸ ha)
  · rcases getElem?_concat_eq hk with hold | ⟨rfl, rfl⟩
    · rcases h.omitted k e' hold with hpub | hpend | ⟨himage, hsup⟩
      · exact .inl (by rw [List.map_append]; exact List.mem_append_left _ hpub)
      · exact .inr (.inl hpend)
      · exact .inr (.inr ⟨himage, hsup.append [e]⟩)
    · exact .inl (by simp)

theorem Paces.accounted (h : Paces inputs published pending) :
    Accounted inputs published pending := by
  induction h with
  | nil => exact ⟨by simp, by simp, by simp, by simp, by simp⟩
  | @image inputs published pending e h he ih =>
    have hnew : (inputs ++ [e])[inputs.length]? = some e := by simp
    refine ⟨fun x hx => getElem?_concat_of (ih.published_get x hx), ?_, ?_, ?_, ?_⟩
    · intro x hx
      obtain rfl := Option.some.inj hx
      exact ⟨hnew, he⟩
    · intro x hx i e' hi hget
      obtain rfl := Option.some.inj hx
      -- nothing has arrived after the image yet
      rw [List.getElem?_eq_none (by simp; omega)] at hget
      nomatch hget
    · have hnodup := (List.nodup_append.mp ih.nodup).1
      have hfresh := fun hmem => ih.not_mem (List.mem_append_left _ hmem)
      simpa [List.nodup_append] using ⟨hnodup, fun a b hab heq => hfresh (by
        rw [← heq]; exact List.mem_map_of_mem hab)⟩
    · intro k e' hk
      rcases getElem?_concat_eq hk with hold | ⟨rfl, rfl⟩
      · rcases ih.omitted k e' hold with hpub | hpend | ⟨himage, hsup⟩
        · exact .inl hpub
        · -- the image that waited is superseded by the one that takes its place
          obtain ⟨x, hx, rfl⟩ := Option.map_eq_some_iff.mp hpend
          have hget := (ih.pending_get x hx).1
          rw [hold] at hget
          obtain rfl := Option.some.inj hget
          refine .inr (.inr ⟨(ih.pending_get x hx).2, inputs.length, e,
            (List.getElem?_eq_some_iff.mp hold).1, hnew, he, fun i e'' hki hij hi => ?_⟩)
          rw [List.getElem?_append_left hij] at hi
          exact ih.pending_last x hx i e'' hki hi
        · exact .inr (.inr ⟨himage, hsup.append [e]⟩)
      · exact .inr (.inl rfl)
  | pointer h he ih => exact ih.publish fun _ _ => he
  | other h hi hp ih => exact ih.publish fun _ hpend => nomatch hpend
  | @flush inputs published image h ih =>
    -- what waited is published now, and nothing waits any more
    refine ⟨fun x hx => ?_, nofun, nofun, ?_, fun k e hk => ?_⟩
    · rcases List.mem_append.mp hx with hx | hx
      · exact ih.published_get x hx
      · rw [List.mem_singleton.mp hx]
        exact (ih.pending_get image rfl).1
    · simpa using ih.nodup
    · rcases ih.omitted k e hk with hpub | hpend | hsup
      · exact .inl (by rw [List.map_append]; exact List.mem_append_left _ hpub)
      · have hk' : image.1 = k := Option.some.inj hpend
        exact .inl (by simp [hk'])
      · exact .inr (.inr hsup)

/-- Publishing what waits would leave the mapper and the consumer where mapping every event in
order leaves them. -/
theorem Paces.equivalent (h : Paces inputs published pending) :
    Equivalent inputs ((published ++ pending.toList).map Prod.snd) := by
  -- by induction on how the pacing got here; each event moves past the image that waits
  induction h with
  | nil => exact .refl _
  | @image inputs published pending e h he ih =>
    refine (ih.append (.refl [e])).trans ?_
    rw [List.map_append, List.append_assoc, List.map_append]
    refine (Equivalent.refl _).append ?_
    rcases pending with _ | ⟨k, waiting⟩
    · exact .refl _
    · -- the image that waited stands directly before the one that takes its place
      have hwaiting : isImage waiting = true := (h.accounted.pending_get _ rfl).2
      obtain ⟨buffer, width, height, rfl⟩ := exists_of_isImage hwaiting
      obtain ⟨buffer', width', height', rfl⟩ := exists_of_isImage he
      exact .image_image buffer buffer' width height width' height'
  | @pointer inputs published pending e h he ih =>
    refine (ih.append (.refl [e])).trans ?_
    rw [List.map_append, List.append_assoc, List.append_assoc, List.map_append]
    refine (Equivalent.refl _).append ?_
    rcases pending with _ | ⟨k, waiting⟩
    · exact .refl _
    · -- the pointer event was published before the image that waits
      obtain ⟨buffer, width, height, rfl⟩ :=
        exists_of_isImage (h.accounted.pending_get _ rfl).2
      obtain ⟨c, hc⟩ := Option.isSome_iff_exists.mp he
      exact .image_pointer buffer width height hc
  | @other inputs published e h hi hp ih =>
    have happend := ih.append (.refl [e])
    simpa using happend
  | @flush inputs published image h ih => simpa using ih

/-! ### The loop keeps its books -/

/-- The loop's variables and the events sent, in terms of the bookkeeping. -/
structure Tracks (inputs : List RdpOutputEvent) (published : List (Nat × RdpOutputEvent))
    (pending : Option (Nat × RdpOutputEvent)) (sent : List HelperEvent) (pacer : Pacer) : Prop where
  paces : Paces inputs published pending
  slot : pacer.pendingImage = pending.map Prod.snd
  mapper : pacer.outputMapper = mapperAfter (published.map Prod.snd)
  sent : sent = mapped (published.map Prod.snd)

theorem Tracks.initial : Tracks [] [] none [] .initial := ⟨.nil, rfl, rfl, rfl⟩

/-- Mapping one more event extends what was sent. -/
private theorem sent_concat (published : List (Nat × RdpOutputEvent)) (x : Nat × RdpOutputEvent) :
    mapped ((published ++ [x]).map Prod.snd)
      = mapped (published.map Prod.snd) ++ ((mapperAfter (published.map Prod.snd)).map x.2).2 := by
  rw [List.map_append]
  exact mapped_concat _ _

private theorem mapper_concat (published : List (Nat × RdpOutputEvent)) (x : Nat × RdpOutputEvent) :
    mapperAfter ((published ++ [x]).map Prod.snd)
      = ((mapperAfter (published.map Prod.snd)).map x.2).1 := by
  rw [List.map_append]
  exact mapperAfter_concat _ _

/-- Publishing an event, once the bookkeeping allows it. -/
theorem Tracks.publish {inputs' : List RdpOutputEvent} {pending' : Option (Nat × RdpOutputEvent)}
    {pacer' : Pacer} {x : Nat × RdpOutputEvent}
    (h : Tracks inputs published pending sent pacer)
    (hpaces : Paces inputs' (published ++ [x]) pending')
    (hslot : pacer'.pendingImage = pending'.map Prod.snd)
    (hmapper : pacer'.outputMapper = pacer.outputMapper) :
    Tracks inputs' (published ++ [x]) pending' (sent ++ (publishOutputEvent pacer' x.2).2)
      (publishOutputEvent pacer' x.2).1 := by
  refine ⟨hpaces, hslot, ?_, ?_⟩
  · rw [mapper_concat, ← h.mapper, ← hmapper]
    rfl
  · rw [sent_concat, ← h.mapper, ← h.sent, ← hmapper]
    rfl

/-- `flush_pending_image` empties the slot, and what was in it is published. -/
theorem Tracks.flush (h : Tracks inputs published pending sent pacer) :
    ∃ published', Tracks inputs published' none (sent ++ (flushPendingImage pacer).2)
      (flushPendingImage pacer).1 := by
  rcases pending with _ | image
  · have hflush : flushPendingImage pacer
        = ({ pacer with presentationSchedule := .clear }, []) := by
      simp [flushPendingImage, h.slot]
    rw [hflush, List.append_nil]
    exact ⟨published, h.paces, h.slot, h.mapper, h.sent⟩
  · have hflush : flushPendingImage pacer = publishOutputEvent
        { pacer with pendingImage := none, presentationSchedule := .clear } image.2 := by
      simp [flushPendingImage, h.slot]
    rw [hflush]
    exact ⟨published ++ [image], h.publish (.flush h.paces) rfl rfl⟩

/-- An event that empties the slot and is then mapped itself. -/
theorem Tracks.flushAndPublish {e : RdpOutputEvent}
    (h : Tracks inputs published pending sent pacer) (hi : isImage e = false)
    (hp : isPointer e = false) :
    ∃ published' pending', Tracks (inputs ++ [e]) published' pending'
      (sent ++ ((flushPendingImage pacer).2
        ++ (publishOutputEvent (flushPendingImage pacer).1 e).2))
      (publishOutputEvent (flushPendingImage pacer).1 e).1 := by
  obtain ⟨published', hflush⟩ := h.flush
  refine ⟨published' ++ [(inputs.length, e)], none, ?_⟩
  rw [← List.append_assoc]
  exact hflush.publish (.other hflush.paces hi hp) hflush.slot rfl

/-- What one `select!` does to the books. -/
theorem Tracks.select (h : Tracks inputs published pending sent pacer) (wakeup : Wakeup) :
    ∃ published' pending', Tracks (inputs ++ receivedEvents [wakeup]) published' pending'
      (sent ++ (Pacing.select pacer wakeup).2) (Pacing.select pacer wakeup).1 := by
  cases wakeup with
  | deadline now =>
    simp only [receivedEvents, List.filterMap_cons, List.filterMap_nil, List.append_nil,
      Pacing.select]
    split
    · obtain ⟨published', hflush⟩ := h.flush
      exact ⟨published', none, hflush⟩
    · exact ⟨published, pending, by simpa using h⟩
  | received event recordedAt now =>
    change ∃ published' pending', Tracks (inputs ++ [event]) published' pending' _ _
    cases event with
    | image buffer width height =>
      refine ⟨published, some (inputs.length, .image buffer width height), ?_⟩
      exact ⟨.image h.paces rfl, rfl, h.mapper, (List.append_nil sent).trans h.sent⟩
    | pointerDefault | pointerHidden | pointerPosition | pointerBitmap =>
      exact ⟨_, pending, h.publish (x := (inputs.length, _)) (.pointer h.paces rfl) h.slot rfl⟩
    | _ => exact h.flushAndPublish rfl rfl

/-- What one pass of the loop does to the books. -/
theorem Tracks.iterate (h : Tracks inputs published pending sent pacer) (wakeup : Wakeup) :
    ∃ published' pending', Tracks (inputs ++ receivedEvents [wakeup]) published' pending'
      (sent ++ (Pacing.iterate pacer wakeup).2) (Pacing.iterate pacer wakeup).1 := by
  obtain ⟨published', pending', hselect⟩ := h.select wakeup
  unfold Pacing.iterate
  simp only
  split
  · obtain ⟨published'', hflush⟩ := hselect.flush
    refine ⟨published'', none, ?_⟩
    rw [← List.append_assoc]
    exact hflush
  · exact ⟨published', pending', hselect⟩

theorem receivedEvents_concat (wakeups : List Wakeup) (wakeup : Wakeup) :
    receivedEvents (wakeups ++ [wakeup]) = receivedEvents wakeups ++ receivedEvents [wakeup] :=
  List.filterMap_append

/-- The books after a whole run: everything that was not superseded has been published. -/
theorem tracks_mapOutputEvents (wakeups : List Wakeup) :
    ∃ published, Tracks (receivedEvents wakeups) published none (mapOutputEvents wakeups).2
      (mapOutputEvents wakeups).1 := by
  have hloop : ∃ published pending, Tracks (receivedEvents wakeups) published pending
      (Machine.run Pacing.iterate .initial wakeups).2
      (Machine.run Pacing.iterate .initial wakeups).1 := Machine.run_history (P := fun _ => True)
    (H := fun wakeups sent pacer =>
      ∃ published pending, Tracks (receivedEvents wakeups) published pending sent pacer)
    (fun _ _ _ => trivial)
    (fun wakeups sent pacer wakeup ⟨published, pending, h⟩ _ => by
      rw [receivedEvents_concat]
      exact h.iterate wakeup)
    ⟨[], none, .initial⟩ trivial
  obtain ⟨published, pending, h⟩ := hloop
  exact h.flush

/-- **Pacing does not change the session.** Whatever the client publishes and whenever the
presentation deadline fires, what `map_output_events` sends leaves a consumer where mapping every
event in order leaves it, no image waits when the channel closes, and every event of the client is
published exactly once unless it is an image that a later image superseded. -/
theorem mapOutputEvents_sameSession (wakeups : List Wakeup) :
    SameSession (mapOutputEvents wakeups).2 (mapped (receivedEvents wakeups)) ∧
      (mapOutputEvents wakeups).1.pendingImage = none ∧
      ∃ published : List (Nat × RdpOutputEvent),
        (mapOutputEvents wakeups).2 = mapped (published.map Prod.snd) ∧
        (∀ x ∈ published, (receivedEvents wakeups)[x.1]? = some x.2) ∧
        (published.map Prod.fst).Nodup ∧
        ∀ k e, (receivedEvents wakeups)[k]? = some e → k ∉ published.map Prod.fst →
          isImage e = true ∧ Superseded (receivedEvents wakeups) k := by
  obtain ⟨published, h⟩ := tracks_mapOutputEvents wakeups
  have haccounted := h.paces.accounted
  have hequivalent := h.paces.equivalent .default validCursor_empty
  refine ⟨?_, h.slot, published, h.sent, haccounted.published_get, ?_, fun k e hk hnot => ?_⟩
  · rw [h.sent]
    simpa [mapped] using hequivalent.2.symm
  · simpa using haccounted.nodup
  · rcases haccounted.omitted k e hk with hpub | hpend | hsup
    · exact absurd hpub hnot
    · exact absurd hpend (by simp)
    · exact hsup

end Pacing
end Rdp
end Navop
