import NavopExtensions.Rdp.Mailbox.Faithful
import NavopExtensions.Rdp.Output

/-!
# The grammar of the event stream

What the mapper promises about the helper events it emits, over every sequence of client events:
nothing of a session precedes its `Connected`, which comes once and opens a batch that ends with a
frame of its size; every delta fits the last frame of its session; and the cursor a session starts
with is the last one the client reported (`mapped_grammar`).

A session is what was emitted since the last barrier. The promise is made about every occurrence
of an event in the output (`InGrammar`), and carried along a run with the invariant `Mirrors`, which
says that the mapper's fields are determined by what it has emitted and received.
-/

namespace Navop
namespace Rdp

open Mailbox (lastFrameSize lastFrameSize_concat lastFrameSize_concat_of_not_frame DeltaOk RectOk
  DeltasFollowFrames)

/-! ### Sessions -/

/-- What was emitted since the last barrier. -/
def session (events : List HelperEvent) : List HelperEvent :=
  events.rtakeWhile fun e => !e.isBarrier

theorem session_concat_barrier {e : HelperEvent} (h : e.isBarrier = true)
    (events : List HelperEvent) : session (events ++ [e]) = [] := by
  simp [session, h]

theorem session_concat {e : HelperEvent} (h : e.isBarrier = false) (events : List HelperEvent) :
    session (events ++ [e]) = session events ++ [e] := by
  simp [session, h]

theorem session_append {more : List HelperEvent} (h : ∀ e ∈ more, e.isBarrier = false)
    (events : List HelperEvent) : session (events ++ more) = session events ++ more := by
  induction more using List.reverseRecOn with
  | nil => simp
  | append_singleton more e ih =>
    rw [← List.append_assoc, session_concat (h e (by simp)),
      ih fun e' he' => h e' (List.mem_append_left _ he'), List.append_assoc]

/-- The client events received since the last one that ended a session. -/
def sinceReset (inputs : List RdpOutputEvent) : List RdpOutputEvent :=
  inputs.rtakeWhile fun e => !e.isReset

/-- The position a cursor event reports. -/
def cursorPosition? : HelperEvent → Option (UInt16 × UInt16)
  | .cursorPosition x y => some (x, y)
  | _ => none

/-- The last appearance and the last position received since the session was reset. -/
def cursorSinceReset (inputs : List RdpOutputEvent) : PendingCursor :=
  let cursors := (sinceReset inputs).filterMap RdpOutputEvent.pointerEvent
  ⟨(cursors.filter HelperEvent.isAppearance).getLast?, (cursors.filterMap cursorPosition?).getLast?⟩

theorem cursorSinceReset_reset {e : RdpOutputEvent} (h : e.isReset = true)
    (inputs : List RdpOutputEvent) : cursorSinceReset (inputs ++ [e]) = .empty := by
  simp [cursorSinceReset, sinceReset, h, PendingCursor.empty]

theorem cursorSinceReset_other {e : RdpOutputEvent} (hr : e.isReset = false)
    (hp : e.pointerEvent = none) (inputs : List RdpOutputEvent) :
    cursorSinceReset (inputs ++ [e]) = cursorSinceReset inputs := by
  simp [cursorSinceReset, sinceReset, hr, hp]

theorem cursorSinceReset_pointer {e : RdpOutputEvent} {c : HelperEvent} (hr : e.isReset = false)
    (hp : e.pointerEvent = some c) (inputs : List RdpOutputEvent) :
    cursorSinceReset (inputs ++ [e]) = (cursorSinceReset inputs).record c := by
  have hc := RdpOutputEvent.isCursor_of_pointerEvent hp
  have hcursors : (sinceReset (inputs ++ [e])).filterMap RdpOutputEvent.pointerEvent
      = (sinceReset inputs).filterMap RdpOutputEvent.pointerEvent ++ [c] := by
    simp [sinceReset, hr, hp]
  simp only [cursorSinceReset, hcursors, List.filter_append, List.filterMap_append]
  generalize (sinceReset inputs).filterMap RdpOutputEvent.pointerEvent = cursors
  cases c with
  | cursorDefault | cursorHidden | cursorRgbaBytes =>
    change PendingCursor.mk (_ ++ [_]).getLast? (_ ++ []).getLast? = _
    rw [List.getLast?_concat, List.append_nil]
    rfl
  | cursorPosition =>
    change PendingCursor.mk (_ ++ []).getLast? (_ ++ [_]).getLast? = _
    rw [List.getLast?_concat, List.append_nil]
    rfl
  | _ => nomatch hc

theorem isCursor_of_mem_cursorSinceReset {inputs : List RdpOutputEvent} {c : HelperEvent}
    (h : c ∈ (cursorSinceReset inputs).events) : c.isCursor = true := by
  rcases List.mem_append.mp h with h | h
  · have hlast := List.mem_of_getLast? (Option.mem_toList.mp h)
    have happearance := (List.mem_filter.mp hlast).2
    cases c <;> first | rfl | nomatch happearance
  · obtain ⟨p, -, rfl⟩ := Option.map_eq_some_iff.mp (Option.mem_toList.mp h)
    rfl

/-! ### The grammar -/

/-- One occurrence of an event in the output, with what was emitted before it. -/
structure InGrammar (inputs : List RdpOutputEvent) (past : List HelperEvent) (event : HelperEvent) :
    Prop where
  /-- Pixels and cursors come after `Connected`. -/
  live : event.isSessionEvent = true → ∃ c ∈ session past, c.isConnected = true
  /-- `Connected` is the first of its session, and opens a batch that goes on with the cursor
  received since the session was reset and ends with a frame of the size announced. -/
  connected : ∀ width height, event = .connected width height →
    (∀ c ∈ session past, c.isConnected = false) ∧
      ∃ pre e post bgra, inputs = pre ++ e :: post ∧ past = mapped pre ∧
        batch pre e = .connected width height :: (cursorSinceReset pre).events
          ++ [.frame width height bgra]
  /-- A delta is one region of the last frame of its session. -/
  region : ∀ width height rects bgra, event = .frameBgraRects width height rects bgra →
    lastFrameSize (session past) = some (width, height) ∧
      ∃ rect, rects = [rect] ∧ RegionOk width height rect bgra
  frame : ∀ width height bgra, event = .frameBgraBytes width height bgra →
    bgra.length = 4 * (width.toNat * height.toNat)

variable {inputs : List RdpOutputEvent} {past : List HelperEvent}

theorem InGrammar.mono {event : HelperEvent} (h : InGrammar inputs past event)
    (more : List RdpOutputEvent) : InGrammar (inputs ++ more) past event := by
  refine ⟨h.live, fun width height heq => ?_, h.region, h.frame⟩
  obtain ⟨hfirst, pre, e, post, bgra, hinputs, hpast, hbatch⟩ := h.connected width height heq
  exact ⟨hfirst, pre, e, post ++ more, bgra, by simp [hinputs], hpast, hbatch⟩

/-- Events that the grammar says nothing about. -/
theorem InGrammar.of_barrier {event : HelperEvent} (h : event.isBarrier = true) :
    InGrammar inputs past event := by
  cases event with
  | reconnecting | connectionFailure | terminated =>
    constructor <;> simp [HelperEvent.isSessionEvent, HelperEvent.isFrame, HelperEvent.isDelta,
      HelperEvent.isCursor]
  | _ => exact absurd h Bool.false_ne_true

/-- A cursor event only has to come after `Connected`. -/
theorem InGrammar.of_cursor {event : HelperEvent} (h : event.isCursor = true)
    (hlive : ∃ c ∈ session past, c.isConnected = true) : InGrammar inputs past event := by
  cases event with
  | cursorDefault | cursorHidden | cursorPosition | cursorRgbaBytes =>
    exact ⟨fun _ => hlive, by simp, by simp, by simp⟩
  | _ => nomatch h

/-- A frame has to come after `Connected` and carry its payload. -/
theorem InGrammar.of_frame {width height : UInt16} {bgra : List UInt8}
    (hlive : ∃ c ∈ session past, c.isConnected = true)
    (hlen : bgra.length = 4 * (width.toNat * height.toNat)) :
    InGrammar inputs past (.frame width height bgra) := by
  refine ⟨fun _ => hlive, by simp [HelperEvent.frame], by simp [HelperEvent.frame], ?_⟩
  intro width' height' bgra' heq
  simp only [HelperEvent.frame, HelperEvent.frameBgraBytes.injEq] at heq
  obtain ⟨rfl, rfl, rfl⟩ := heq
  exact hlen

/-- The mapper's fields, in terms of what it has emitted and received. -/
structure Mirrors (inputs : List RdpOutputEvent) (outs : List HelperEvent)
    (mapper : RdpOutputMapper) : Prop where
  connected : mapper.connected = true ↔ ∃ c ∈ session outs, c.isConnected = true
  base : mapper.connected = true → mapper.baseSize = lastFrameSize (session outs)
  cursor : mapper.connected = false → mapper.pendingCursor = cursorSinceReset inputs

theorem Mirrors.initial : Mirrors [] [] .default where
  connected := by simp [RdpOutputMapper.default, session]
  base := by simp [RdpOutputMapper.default]
  cursor _ := rfl

/-- The events of the batch that announces a session are not barriers. -/
private theorem announce_not_barrier (inputs : List RdpOutputEvent) (width height : UInt16)
    (bgra : List UInt8) {e : HelperEvent}
    (h : e ∈ HelperEvent.connected width height :: (cursorSinceReset inputs).events
      ++ [.frame width height bgra]) : e.isBarrier = false := by
  simp only [List.cons_append, List.mem_cons, List.mem_append, List.not_mem_nil, or_false] at h
  rcases h with rfl | h | rfl
  · rfl
  · exact HelperEvent.isBarrier_of_isCursor (isCursor_of_mem_cursorSinceReset h)
  · rfl

theorem Mirrors.step {outs out : List HelperEvent} {mapper mapper' : RdpOutputMapper}
    {e : RdpOutputEvent}
    (h : Mirrors inputs outs mapper) (hemits : Emits mapper e mapper' out) :
    Mirrors (inputs ++ [e]) (outs ++ out) mapper' := by
  cases hemits with
  | ignored hr hp =>
    rw [List.append_nil]
    exact ⟨h.connected, h.base, fun hc => (h.cursor hc).trans (cursorSinceReset_other hr hp _).symm⟩
  | reset b hr hb =>
    -- a barrier begins an empty session
    refine ⟨?_, by simp [RdpOutputMapper.default], fun _ => (cursorSinceReset_reset hr _).symm⟩
    rw [session_concat_barrier hb]
    simp [RdpOutputMapper.default]
  | announce width height bgra hr hp hlen hc =>
    -- the slot that is sent along is the cursor received since the reset
    rw [h.cursor hc]
    have hsession := session_append (fun e => announce_not_barrier inputs width height bgra) outs
    refine ⟨⟨fun _ => ⟨.connected width height, ?_, rfl⟩, fun _ => rfl⟩, fun _ => ?_, nofun⟩
    · rw [hsession]
      simp
    · rw [hsession, ← List.append_assoc, lastFrameSize_concat]
      rfl
  | frame width height bgra hr hp hlen hc =>
    have hsession := session_concat (e := .frame width height bgra) rfl outs
    refine ⟨?_, fun _ => ?_, fun hc' => absurd hc (by simpa using hc')⟩
    · rw [hsession]
      simpa [HelperEvent.frame, HelperEvent.isConnected] using h.connected
    · rw [hsession, lastFrameSize_concat]
      rfl
  | region width height rect bgra hr hp hc hbase hrect =>
    have hsession := session_concat (e := .frameBgraRects width height [rect] bgra) rfl outs
    refine ⟨?_, fun _ => ?_, fun hc' => absurd hc (by simp [hc'])⟩
    · rw [hsession]
      simpa [HelperEvent.isConnected] using h.connected
    · rw [hsession, lastFrameSize_concat]
      exact h.base hc
  | cursor c hr hp hc =>
    have hcursor := RdpOutputEvent.isCursor_of_pointerEvent hp
    have hsession := session_concat (HelperEvent.isBarrier_of_isCursor hcursor) outs
    refine ⟨?_, fun _ => ?_, fun hc' => absurd hc (by simp [hc'])⟩
    · rw [hsession]
      simpa [HelperEvent.isConnected_of_isCursor hcursor] using h.connected
    · rw [hsession, lastFrameSize_concat_of_not_frame (HelperEvent.isFrame_of_isCursor hcursor)]
      exact h.base hc
  | record c hr hp hc =>
    rw [List.append_nil]
    refine ⟨h.connected, h.base, fun _ => ?_⟩
    -- the slot records what the definition of `cursorSinceReset` looks for
    rw [cursorSinceReset_pointer hr hp, h.cursor hc]

/-- Every event of a batch obeys the grammar. -/
theorem Mirrors.inGrammar {mapper' : RdpOutputMapper} {e : RdpOutputEvent}
    {out front back : List HelperEvent} {event : HelperEvent}
    (h : Mirrors inputs (mapped inputs) (mapperAfter inputs)) (hbatch : batch inputs e = out)
    (himage : e.ImageOk) (hemits : Emits (mapperAfter inputs) e mapper' out)
    (hout : out = front ++ event :: back) :
    InGrammar (inputs ++ [e]) (mapped inputs ++ front) event := by
  -- in a batch of one event, that event comes right after what was emitted before
  have hone : ∀ {b : HelperEvent}, [b] = front ++ event :: back → front = [] ∧ event = b := by
    intro b hb
    rcases front with _ | ⟨f, front⟩
    · exact ⟨rfl, (List.cons.inj hb).1.symm⟩
    · simp at hb
  cases hemits with
  | ignored | record => exact absurd hout (by simp)
  | reset b hr hb =>
    obtain ⟨rfl, rfl⟩ := hone hout
    exact .of_barrier hb
  | announce width height bgra hr hp hlen hc =>
    rw [h.cursor hc] at hbatch hout
    -- the mapper was not connected, so this session has no announcement yet
    have hfirst : ∀ c ∈ session (mapped inputs), c.isConnected = false := by
      intro c hmem
      by_contra hne
      exact absurd (h.connected.mpr ⟨c, hmem, by simpa using hne⟩) (by simp [hc])
    rcases front with _ | ⟨f, front⟩
    · -- the announcement itself
      obtain ⟨rfl, -⟩ := List.cons.inj hout
      rw [List.append_nil]
      refine ⟨nofun, ?_, nofun, nofun⟩
      intro width' height' heq
      simp only [HelperEvent.connected.injEq] at heq
      obtain ⟨rfl, rfl⟩ := heq
      exact ⟨hfirst, inputs, e, [], bgra, rfl, rfl, hbatch⟩
    · -- an event after it in the same batch: a cursor event or the frame
      obtain ⟨rfl, hrest⟩ := List.cons.inj hout
      have hlive : ∃ c ∈ session (mapped inputs ++ .connected width height :: front),
          c.isConnected = true := by
        refine ⟨.connected width height, ?_, rfl⟩
        rw [session_append fun e' he' => announce_not_barrier inputs width height bgra
          (by rw [hout]; exact List.mem_append_left _ he')]
        simp
      have hmem : event ∈ (cursorSinceReset inputs).events ++ [.frame width height bgra] := by
        change (cursorSinceReset inputs).events ++ [.frame width height bgra] = _ at hrest
        rw [hrest]
        simp
      rcases List.mem_append.mp hmem with hmem | hmem
      · exact .of_cursor (isCursor_of_mem_cursorSinceReset hmem) hlive
      · rw [List.mem_singleton.mp hmem]
        exact .of_frame hlive (hlen himage)
  | frame width height bgra hr hp hlen hc =>
    obtain ⟨rfl, rfl⟩ := hone hout
    rw [List.append_nil]
    exact .of_frame (h.connected.mp hc) (hlen himage)
  | region width height rect bgra hr hp hc hbase hrect =>
    obtain ⟨rfl, rfl⟩ := hone hout
    rw [List.append_nil]
    refine ⟨fun _ => h.connected.mp hc, nofun, ?_, nofun⟩
    intro width' height' rects bgra' heq
    simp only [HelperEvent.frameBgraRects.injEq] at heq
    obtain ⟨rfl, rfl, rfl, rfl⟩ := heq
    exact ⟨(h.base hc).symm.trans hbase, rect, rfl, hrect⟩
  | cursor c hr hp hc =>
    obtain ⟨rfl, rfl⟩ := hone hout
    rw [List.append_nil]
    exact .of_cursor (RdpOutputEvent.isCursor_of_pointerEvent hp) (h.connected.mp hc)

/-- The mapper's fields mirror the run that led to it. -/
theorem mirrors_run (inputs : List RdpOutputEvent) :
    Mirrors inputs (mapped inputs) (mapperAfter inputs) :=
  Machine.run_history (P := fun _ => True) (fun _ _ _ => trivial)
    (fun _ _ mapper e h _ => h.step (mapper.map_emits e)) .initial trivial

/-- Every occurrence of an event in the output obeys the grammar. -/
theorem inGrammar_run (inputs : List RdpOutputEvent) (himages : ∀ e ∈ inputs, e.ImageOk)
    (past : List HelperEvent) (event : HelperEvent) (future : List HelperEvent)
    (hout : mapped inputs = past ++ event :: future) : InGrammar inputs past event := by
  induction inputs using List.reverseRecOn generalizing past event future with
  | nil => simp [mapped] at hout
  | append_singleton inputs e ih =>
    have hinit := ih fun e' he' => himages e' (List.mem_append_left _ he')
    rw [mapped_concat] at hout
    -- the occurrence lies either in what was emitted before or in the last batch
    rcases List.append_eq_append_iff.mp hout with ⟨front, hpast, hbatch⟩ | ⟨rest, houts, hrest⟩
    · rw [hpast]
      exact (mirrors_run inputs).inGrammar rfl (himages e (by simp))
        ((mapperAfter inputs).map_emits e) hbatch
    · rcases rest with _ | ⟨f, rest⟩
      · have hpast : past = mapped inputs ++ [] := by simpa using houts.symm
        rw [hpast]
        exact (mirrors_run inputs).inGrammar rfl (himages e (by simp))
          ((mapperAfter inputs).map_emits e) hrest.symm
      · obtain ⟨rfl, -⟩ := List.cons.inj hrest
        exact (hinit past event rest houts).mono [e]

/-! ### What the mailbox relies on -/

theorem lastFrameSize_of_session {events : List HelperEvent} {width height : UInt16}
    (h : lastFrameSize (session events) = some (width, height)) :
    lastFrameSize events = some (width, height) := by
  induction events using List.reverseRecOn with
  | nil => exact h
  | append_singleton events e ih =>
    -- the session either goes on or begins anew, without a frame
    rcases hb : e.isBarrier with _ | _
    · rw [session_concat hb, lastFrameSize_concat] at h
      rw [lastFrameSize_concat]
      cases e <;> first | exact h | exact ih h
    · rw [session_concat_barrier hb] at h
      simp [lastFrameSize] at h

theorem RegionOk.deltaOk {width height : UInt16} {rect : HelperFrameRect} {bgra : List UInt8}
    (h : RegionOk width height rect bgra) :
    DeltaOk width height (.frameBgraRects width height [rect] bgra) := by
  have hrect : RectOk width height rect :=
    ⟨h.right_le, h.bottom_le, by rw [h.byteLen, Nat.mul_assoc]⟩
  refine ⟨⟨rfl, rfl⟩, by simpa using hrect, ?_⟩
  rw [h.length, List.map_singleton, List.sum_singleton, h.byteLen]

/-- The mapper's output meets the mailbox's precondition: every delta is well-formed for the last
frame before it. -/
theorem mapped_deltasFollowFrames (inputs : List RdpOutputEvent)
    (himages : ∀ e ∈ inputs, e.ImageOk) : DeltasFollowFrames (mapped inputs) := by
  intro past delta future hout hdelta
  have hgrammar := inGrammar_run inputs himages past delta future hout
  cases delta with
  | frameBgraRects width height rects bgra =>
    obtain ⟨hsize, rect, rfl, hrect⟩ := hgrammar.region width height rects bgra rfl
    exact ⟨width, height, lastFrameSize_of_session hsize, hrect.deltaOk⟩
  | _ => nomatch hdelta

/-- **Event-stream grammar.** For every sequence of client events whose images carry all their
pixels, every event of the output obeys the grammar of its session. -/
theorem mapped_grammar (inputs : List RdpOutputEvent) (himages : ∀ e ∈ inputs, e.ImageOk)
    (past : List HelperEvent) (event : HelperEvent) (future : List HelperEvent)
    (hout : mapped inputs = past ++ event :: future) : InGrammar inputs past event :=
  inGrammar_run inputs himages past event future hout

/-- A cursor before the first picture, then the picture, then a region of it. -/
def firstPicture : List RdpOutputEvent :=
  [.pointerHidden, .image [1, 2] ⟨2, by decide⟩ ⟨1, by decide⟩,
    .desktopUpdate ⟨[3], ⟨2, by decide⟩, ⟨1, by decide⟩, ⟨1, 0, 1, 0⟩⟩]

theorem mapped_grammar_firstPicture :
    (∀ e ∈ firstPicture, e.ImageOk) ∧
      InGrammar firstPicture
        [.connected 2 1, .cursorHidden, .frame 2 1 [1, 0, 0, 255, 2, 0, 0, 255]]
        (.frameBgraRects 2 1 [⟨1, 0, 1, 1, 4⟩] [3, 0, 0, 255]) := by
  have himages : ∀ e ∈ firstPicture, e.ImageOk := by
    simp [firstPicture, RdpOutputEvent.ImageOk]
  exact ⟨himages, mapped_grammar firstPicture himages _ _ [] (by decide)⟩

end Rdp
end Navop
