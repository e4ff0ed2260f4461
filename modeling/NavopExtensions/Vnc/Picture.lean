import NavopExtensions.Vnc.Framebuffer
import NavopExtensions.Vnc.Mailbox.Generations

/-!
# The host sees the framebuffer

The host keeps a canvas: a frame replaces it, a delta writes its rectangles in order. What the host
has received, followed by what is waiting for it in the mailbox, shows the framebuffer everywhere but
in the dirty rectangles (`Painted.agrees`); flushing sends these, and draining the mailbox leaves the
host with the framebuffer's picture (`picture_faithful`).

That needs rectangles to lie inside the columns of the framebuffer. The check of `patch_rgba_rect`
uses saturating addition, so that on a framebuffer of the largest width a rectangle may begin at, or
run over, the right edge; its pixels go to the next row of the framebuffer, but not to the next row of
the canvas (`wide_rectangle_not_shown`).
-/

namespace Navop
namespace Vnc

open Overlay Raster Checks

/-! ### The host's canvas -/

/-- The host's picture. -/
@[ext] structure Canvas where
  width : UInt16
  height : UInt16
  picture : Patch Point UInt8

/-- What a delta paints: each rectangle takes its bytes from the payload. -/
def deltaPatch : List RemoteDesktopFrameRect → List UInt8 → Patch Point UInt8
  | [], _ => blank
  | rect :: rects, bgra =>
    paint ((rectOf rect.x rect.y rect.width rect.height).patch (bgra.take rect.byteLen))
      (deltaPatch rects (bgra.drop rect.byteLen))

/-- What the host does with one output. -/
def applyOutput (canvas : Canvas) : RemoteDesktopOutput → Canvas
  | .frame width height bytes => ⟨width, height, (whole width.toNat height.toNat).patch bytes⟩
  | .frameBgraRects _ _ rects bgra =>
    { canvas with picture := paint canvas.picture (deltaPatch rects bgra) }
  | _ => canvas

/-- What the host does with a sequence of outputs. -/
def applyOutputs (canvas : Canvas) (outputs : List RemoteDesktopOutput) : Canvas :=
  outputs.foldl applyOutput canvas

/-- The canvas that shows a framebuffer: `clone_bgra` in the framebuffer's size. -/
def RgbaFramebuffer.canvas (framebuffer : RgbaFramebuffer) : Canvas :=
  ⟨framebuffer.width, framebuffer.height,
    (whole framebuffer.width.toNat framebuffer.height.toNat).patch framebuffer.cloneBgra⟩

/-- The rectangle of an event, as numbers. -/
def VncRect.rect (r : VncRect) : Raster.Rect := rectOf r.x r.y r.width r.height

theorem applyOutputs_append (canvas : Canvas) (xs ys : List RemoteDesktopOutput) :
    applyOutputs canvas (xs ++ ys) = applyOutputs (applyOutputs canvas xs) ys := List.foldl_append

theorem applyOutput_of_not_picture {output : RemoteDesktopOutput} (h : output.isPicture = false)
    (canvas : Canvas) : applyOutput canvas output = canvas := by
  cases output with
  | frame => exact absurd h (by simp [RemoteDesktopOutput.isPicture])
  | frameBgraRects => exact absurd h (by simp [RemoteDesktopOutput.isPicture])
  | _ => rfl

theorem deltaPatch_append {rects : List RemoteDesktopFrameRect} {bgra : List UInt8}
    (h : bgra.length = (rects.map RemoteDesktopFrameRect.byteLen).sum)
    (rects' : List RemoteDesktopFrameRect) (bgra' : List UInt8) :
    deltaPatch (rects ++ rects') (bgra ++ bgra')
      = paint (deltaPatch rects bgra) (deltaPatch rects' bgra') := by
  induction rects generalizing bgra with
  | nil =>
    obtain rfl := List.length_eq_zero_iff.mp h
    simp [deltaPatch]
  | cons rect rects ih =>
    rw [List.map_cons, List.sum_cons] at h
    have hdrop : (bgra.drop rect.byteLen).length
        = (rects.map RemoteDesktopFrameRect.byteLen).sum := by
      rw [List.length_drop]
      omega
    rw [List.cons_append, deltaPatch, deltaPatch, List.take_append_of_le_length (by omega),
      List.drop_append_of_le_length (by omega), ih hdrop, paint_assoc]

/-! ### Patching the framebuffer -/

variable {framebuffer framebuffer' : RgbaFramebuffer}

theorem RgbaFramebuffer.canvas_picture (framebuffer : RgbaFramebuffer) :
    framebuffer.canvas.picture = swapPicture
      ((whole framebuffer.width.toNat framebuffer.height.toNat).patch framebuffer.rgba) :=
  patch_swap _ framebuffer.length

/-- The rectangle lies inside the columns of a raster, unless it has no rows. -/
def FitsWidth (width : UInt16) (r : VncRect) : Prop :=
  r.x.toNat + r.width.toNat ≤ width.toNat ∨ r.height.toNat = 0

/-- What patching does: the size stays, the rectangle is in bounds, and if it fits the columns then
no pixel outside it has changed. -/
structure Patched (framebuffer : RgbaFramebuffer) (r : VncRect) (framebuffer' : RgbaFramebuffer) :
    Prop where
  width : framebuffer'.width = framebuffer.width
  height : framebuffer'.height = framebuffer.height
  inBounds : InBounds framebuffer.width.toNat r.rect framebuffer.rgba.length
  outside : FitsWidth framebuffer.width r → ∀ p, ¬ r.rect.Has p →
    framebuffer'.canvas.picture p = framebuffer.canvas.picture p

theorem patched_of_writeRect {r : VncRect} {block : List UInt8}
    {hblock : block.length = r.rect.width * r.rect.height * 4}
    (h : framebuffer.writeRect r.rect block hblock = .ok framebuffer') :
    Patched framebuffer r framebuffer' := by
  unfold RgbaFramebuffer.writeRect at h
  split at h
  · next rgba hwrite =>
    obtain rfl := Except.ok.inj h
    refine ⟨rfl, rfl, (writeRows_eq_some hblock hwrite).1, ?_⟩
    intro hfits p hp
    have hcolumns : r.rect.x + r.rect.width ≤ framebuffer.width.toNat ∨ r.rect.height = 0 := hfits
    obtain ⟨-, hpatch⟩ := patch_writeRows hcolumns framebuffer.length hblock hwrite
    rw [RgbaFramebuffer.canvas_picture, RgbaFramebuffer.canvas_picture, hpatch, swapPicture_paint,
      paint_apply]
    -- outside of the rectangle nothing is painted
    have hnone : swapPicture (r.rect.patch block) p = none := by
      rw [swapPicture]
      split
      · next hc =>
        refine Rect.patch_of_not ?_ block
        rintro ⟨hx, hy, -⟩
        exact hp ⟨hx, hy, hc⟩
      · rfl
    rw [hnone, Option.none_or]
  · exact absurd h (by simp)

theorem patchRgbaRect_ok {r : VncRect} {data : List UInt8}
    (h : framebuffer.patchRgbaRect r.x r.y r.width r.height data = .ok framebuffer') :
    Patched framebuffer r framebuffer' := by
  unfold RgbaFramebuffer.patchRgbaRect at h
  split at h
  · obtain ⟨⟨⟩, -, h⟩ := bind_eq_ok.mp h
    obtain ⟨⟨⟩, -, h⟩ := bind_eq_ok.mp h
    obtain ⟨⟨⟩, -, h⟩ := bind_eq_ok.mp h
    obtain ⟨⟨⟩, -, h⟩ := bind_eq_ok.mp h
    exact patched_of_writeRect h
  · exact absurd h (by simp)

theorem copyRect_ok {dst src : VncRect}
    (h : framebuffer.copyRect src.x src.y dst.x dst.y dst.width dst.height = .ok framebuffer') :
    Patched framebuffer dst framebuffer' := by
  unfold RgbaFramebuffer.copyRect at h
  obtain ⟨⟨⟩, -, h⟩ := bind_eq_ok.mp h
  obtain ⟨⟨⟩, -, h⟩ := bind_eq_ok.mp h
  obtain ⟨⟨⟩, -, h⟩ := bind_eq_ok.mp h
  obtain ⟨⟨⟩, -, h⟩ := bind_eq_ok.mp h
  obtain ⟨⟨⟩, -, h⟩ := bind_eq_ok.mp h
  obtain ⟨⟨⟩, -, h⟩ := bind_eq_ok.mp h
  obtain ⟨⟨⟩, -, h⟩ := bind_eq_ok.mp h
  obtain ⟨⟨⟩, -, h⟩ := bind_eq_ok.mp h
  split at h
  · exact patchRgbaRect_ok h
  · exact absurd h (by simp)

/-! ### The payload of a delta -/

/-- A point of a rectangle that is in bounds and fits the columns is a point of the framebuffer. -/
theorem picture_isSome {r : VncRect}
    (hbounds : InBounds framebuffer.width.toNat r.rect framebuffer.rgba.length)
    (hfits : FitsWidth framebuffer.width r) {p : Point} (hp : r.rect.Has p) :
    (framebuffer.canvas.picture p).isSome := by
  have hpoint := hp
  obtain ⟨hx, ⟨hy, hy'⟩, hc⟩ := hpoint
  have hrows : r.rect.height ≠ 0 := by omega
  -- the row of the point
  have hrow : (r.rect.row (p.2.1 - r.rect.y)).Has (p.1, p.2.1, swapChannel p.2.2) := by
    refine ⟨hx, ?_, swapChannel_lt hc⟩
    simp only [Rect.row]
    omega
  have hwhole := whole_of_row (hfits.resolve_right hrows) framebuffer.length
    (hbounds _ (by omega)) hrow
  rw [RgbaFramebuffer.canvas_picture, swapPicture, if_pos hc]
  exact isSome_patch_whole framebuffer.length hwhole

theorem cloneBgraRect_of_read {x y width height : UInt16} {pixels : List UInt8}
    (h : readRows framebuffer.width.toNat (rectOf x y width height) framebuffer.rgba = some pixels) :
    framebuffer.cloneBgraRect x y width height = .ok (swapFirstThird pixels) := by
  unfold RgbaFramebuffer.cloneBgraRect
  rw [h]

/-- **The pixels of the dirty rectangles** show the framebuffer there. -/
theorem cloneRects_ok {rects : List VncRect}
    (h : ∀ r ∈ rects, InBounds framebuffer.width.toNat r.rect framebuffer.rgba.length ∧
      FitsWidth framebuffer.width r) :
    ∃ bgra, VncFramebufferState.cloneRects framebuffer rects = .ok bgra ∧
      bgra.length = ((rects.map VncFramebufferState.frameRect).map
        RemoteDesktopFrameRect.byteLen).sum ∧
      ∀ p, ((∃ r ∈ rects, r.rect.Has p) →
          deltaPatch (rects.map VncFramebufferState.frameRect) bgra p
            = framebuffer.canvas.picture p) ∧
        ((∀ r ∈ rects, ¬ r.rect.Has p) →
          deltaPatch (rects.map VncFramebufferState.frameRect) bgra p = none) := by
  induction rects with
  | nil =>
    refine ⟨[], rfl, rfl, fun p => ⟨?_, fun _ => rfl⟩⟩
    rintro ⟨r, hr, _⟩
    exact absurd hr List.not_mem_nil
  | cons r rects ih =>
    obtain ⟨⟨hbounds, hfits⟩, hrest⟩ := List.forall_mem_cons.mp h
    obtain ⟨rest, hclone, hlength, hshows⟩ := ih hrest
    obtain ⟨pixels, hread⟩ := readRows_of_inBounds hbounds
    obtain ⟨hpixels, hpatch⟩ := patch_readRows framebuffer.length hread
    have hlen : (swapFirstThird pixels).length = r.width.toNat * r.height.toNat * 4 := by
      rw [length_swapFirstThird]
      exact hpixels
    refine ⟨swapFirstThird pixels ++ rest, ?_, ?_, ?_⟩
    · rw [VncFramebufferState.cloneRects, cloneBgraRect_of_read hread, hclone]
      rfl
    · rw [List.length_append, hlength, hlen]
      rfl
    · -- the first rectangle takes its own pixels, the others the rest
      have hsplit : deltaPatch ((r :: rects).map VncFramebufferState.frameRect)
          (swapFirstThird pixels ++ rest)
          = paint (restrict r.rect framebuffer.canvas.picture)
            (deltaPatch (rects.map VncFramebufferState.frameRect) rest) := by
        have hself : r.rect.patch (swapFirstThird pixels)
            = restrict r.rect framebuffer.canvas.picture := by
          rw [patch_swap _ hpixels, hpatch hfits, swapPicture_restrict,
            RgbaFramebuffer.canvas_picture]
        rw [List.map_cons, deltaPatch]
        change paint (r.rect.patch ((swapFirstThird pixels ++ rest).take
          (r.width.toNat * r.height.toNat * 4))) (deltaPatch _ ((swapFirstThird pixels ++ rest).drop
          (r.width.toNat * r.height.toNat * 4))) = _
        rw [← hlen, List.take_left, List.drop_left, hself]
      intro p
      rw [hsplit, paint_apply]
      obtain ⟨hin, hout⟩ := hshows p
      -- a point that a later rectangle has as well shows the same pixel in both
      by_cases hany : ∃ r ∈ rects, r.rect.Has p
      · rw [hin hany]
        refine ⟨fun _ => ?_, fun hnone => ?_⟩
        · unfold restrict
          split
          · exact Option.or_self
          · exact Option.or_none
        · obtain ⟨r', hr', hp⟩ := hany
          exact absurd hp (hnone r' (List.mem_cons_of_mem _ hr'))
      · have hnone : ∀ r ∈ rects, ¬ r.rect.Has p := fun r hr hp => hany ⟨r, hr, hp⟩
        rw [hout hnone, Option.none_or, restrict]
        refine ⟨?_, fun hnot => if_neg (hnot r List.mem_cons_self)⟩
        rintro ⟨r', hr', hp⟩
        obtain rfl | hr' := List.mem_cons.mp hr'
        · exact if_pos hp
        · exact absurd hp (hnone r' hr')

/-! ### Pictures in the mailbox -/

/-- The pictures that wait in the mailbox, in the order `recv` hands them out. -/
def Mailbox.State.pictures (mailbox : Mailbox.State) : List RemoteDesktopOutput :=
  mailbox.latestFrame.toList ++ mailbox.latestDelta.toList

/-- What the places of the mailbox hold: a delta has its payload in full. -/
structure Filed (mailbox : Mailbox.State) : Prop where
  alive : mailbox.receiverAlive = true
  control : ∀ output ∈ mailbox.control, output.isPicture = false
  frame : ∀ output, mailbox.latestFrame = some output →
    ∃ width height bytes, output = .frame width height bytes
  delta : ∀ output, mailbox.latestDelta = some output → ∃ width height rects bgra,
    output = .frameBgraRects width height rects bgra ∧
      bgra.length = (rects.map RemoteDesktopFrameRect.byteLen).sum

variable {mailbox : Mailbox.State}

theorem Filed.sendIgnored_eq (h : Filed mailbox) (output : RemoteDesktopOutput) :
    sendIgnored mailbox output = Mailbox.accept mailbox output := by
  simp [sendIgnored, Mailbox.send, h.alive]

/-- Receiving moves a picture from the mailbox to the host. -/
theorem Filed.recv (h : Filed mailbox) (canvas : Canvas) :
    Filed (Mailbox.recv mailbox).1 ∧
      applyOutputs (applyOutputs canvas (Mailbox.recv mailbox).2.toList)
        (Mailbox.recv mailbox).1.pictures = applyOutputs canvas mailbox.pictures := by
  obtain ⟨control, frame, delta, accepting, senders, alive⟩ := mailbox
  cases control with
  | cons output rest =>
    refine ⟨⟨h.alive, fun o ho => h.control o (List.mem_cons_of_mem _ ho), h.frame, h.delta⟩, ?_⟩
    -- a control output paints nothing
    have hsame : applyOutputs canvas [output] = canvas :=
      applyOutput_of_not_picture (h.control output List.mem_cons_self) canvas
    change applyOutputs (applyOutputs canvas [output]) _ = _
    rw [hsame]
    rfl
  | nil =>
    cases frame with
    | some output =>
      refine ⟨⟨h.alive, h.control, fun o ho => absurd ho (by simp [Mailbox.recv]), h.delta⟩, ?_⟩
      rfl
    | none =>
      cases delta with
      | some output =>
        exact ⟨⟨h.alive, h.control, h.frame, fun o ho => absurd ho (by simp [Mailbox.recv])⟩, rfl⟩
      | none => exact ⟨h, rfl⟩

/-- The outputs a session sends apart from pictures. -/
def IsNotice (output : RemoteDesktopOutput) : Prop :=
  output.isPicture = false ∧ output.closes = false

theorem mem_enqueueControl {control : List RemoteDesktopOutput} {output o : RemoteDesktopOutput}
    (h : o ∈ Mailbox.enqueueControl control output) : o ∈ control ∨ o = output := by
  unfold Mailbox.enqueueControl at h
  split at h
  all_goals
    obtain h | h := List.mem_append.mp h
    · first | exact .inl h | exact .inl (List.dropLast_subset _ h)
    · exact .inr (List.mem_singleton.mp h)

/-- A notice leaves the pictures alone, and does not end the session. -/
theorem Filed.notice (h : Filed mailbox) {output : RemoteDesktopOutput} (hnotice : IsNotice output) :
    Filed (Mailbox.accept mailbox output) ∧
      (Mailbox.accept mailbox output).latestFrame = mailbox.latestFrame ∧
      (Mailbox.accept mailbox output).latestDelta = mailbox.latestDelta ∧
      (mailbox.acceptingSessionOutputs = true →
        (Mailbox.accept mailbox output).acceptingSessionOutputs = true) := by
  obtain ⟨hpicture, hcloses⟩ := hnotice
  -- one more control output at most
  have hcontrol : ∀ control : List RemoteDesktopOutput,
      (∀ o ∈ control, o ∈ mailbox.control ∨ o = output) →
      ∀ o ∈ control, o.isPicture = false := by
    intro control hsub o ho
    obtain hmem | rfl := hsub o ho
    · exact h.control o hmem
    · exact hpicture
  cases output with
  | frame => exact absurd hpicture (by simp [RemoteDesktopOutput.isPicture])
  | frameBgraRects => exact absurd hpicture (by simp [RemoteDesktopOutput.isPicture])
  | reconnecting => exact absurd hcloses (by simp [RemoteDesktopOutput.closes])
  | connectionFailure => exact absurd hcloses (by simp [RemoteDesktopOutput.closes])
  | terminated => exact absurd hcloses (by simp [RemoteDesktopOutput.closes])
  | connected width height capabilities =>
    refine ⟨⟨h.alive, hcontrol _ fun o ho => ?_, h.frame, h.delta⟩, rfl, rfl, fun _ => rfl⟩
    exact (List.mem_append.mp ho).imp_right List.mem_singleton.mp
  | _ =>
    simp only [Mailbox.accept]
    split
    · exact ⟨h, rfl, rfl, id⟩
    · exact ⟨⟨h.alive, hcontrol _ fun o ho => mem_enqueueControl ho, h.frame, h.delta⟩, rfl, rfl, id⟩

/-- A frame in the mailbox hides what was there. -/
theorem Filed.sendFrame (h : Filed mailbox) (haccepting : mailbox.acceptingSessionOutputs = true)
    (canvas : Canvas) (width height : UInt16) (bytes : List UInt8) :
    Filed (Mailbox.accept mailbox (.frame width height bytes)) ∧
      (Mailbox.accept mailbox (.frame width height bytes)).latestDelta = none ∧
      (Mailbox.accept mailbox (.frame width height bytes)).acceptingSessionOutputs = true ∧
      applyOutputs canvas (Mailbox.accept mailbox (.frame width height bytes)).pictures
        = ⟨width, height, (whole width.toNat height.toNat).patch bytes⟩ := by
  have haccept : Mailbox.accept mailbox (.frame width height bytes)
      = { mailbox with latestFrame := some (.frame width height bytes), latestDelta := none } := by
    simp [Mailbox.accept, haccepting]
  rw [haccept]
  refine ⟨⟨h.alive, h.control, ?_, fun o ho => absurd ho (by simp)⟩, rfl, haccepting, rfl⟩
  intro o ho
  exact ⟨width, height, bytes, (Option.some.inj ho).symm⟩

/-- A delta in the mailbox is painted after what was there, if it meets a delta of its own size. -/
theorem Filed.sendDelta (h : Filed mailbox) (haccepting : mailbox.acceptingSessionOutputs = true)
    {width height : UInt16}
    (hsize : ∀ width' height' rects bgra,
      mailbox.latestDelta = some (.frameBgraRects width' height' rects bgra) →
      width' = width ∧ height' = height)
    {rects : List RemoteDesktopFrameRect} {bgra : List UInt8}
    (hlength : bgra.length = (rects.map RemoteDesktopFrameRect.byteLen).sum) (canvas : Canvas) :
    Filed (Mailbox.accept mailbox (.frameBgraRects width height rects bgra)) ∧
      (∀ width' height' rects' bgra',
        (Mailbox.accept mailbox (.frameBgraRects width height rects bgra)).latestDelta
          = some (.frameBgraRects width' height' rects' bgra') → width' = width ∧ height' = height) ∧
      (Mailbox.accept mailbox (.frameBgraRects width height rects bgra)).acceptingSessionOutputs
        = true ∧
      applyOutputs canvas
          (Mailbox.accept mailbox (.frameBgraRects width height rects bgra)).pictures
        = applyOutput (applyOutputs canvas mailbox.pictures)
          (.frameBgraRects width height rects bgra) := by
  cases hdelta : mailbox.latestDelta with
  | none =>
    have haccept : Mailbox.accept mailbox (.frameBgraRects width height rects bgra)
        = { mailbox with latestDelta := some (.frameBgraRects width height rects bgra) } := by
      simp [Mailbox.accept, haccepting, hdelta]
    rw [haccept]
    refine ⟨⟨h.alive, h.control, h.frame, ?_⟩, ?_, haccepting, ?_⟩
    · intro o ho
      exact ⟨width, height, rects, bgra, (Option.some.inj ho).symm, hlength⟩
    · intro width' height' rects' bgra' hsome
      obtain ⟨hw, hh, -, -⟩ := RemoteDesktopOutput.frameBgraRects.inj (Option.some.inj hsome)
      exact ⟨hw.symm, hh.symm⟩
    · unfold Mailbox.State.pictures
      rw [hdelta, applyOutputs_append, applyOutputs_append]
      rfl
  | some previous =>
    obtain ⟨width', height', rects', bgra', rfl, hlength'⟩ := h.delta previous hdelta
    -- the delta that waits is of the same size, or it could not be merged
    obtain ⟨rfl, rfl⟩ := hsize width' height' rects' bgra' hdelta
    have haccept : Mailbox.accept mailbox (.frameBgraRects width' height' rects bgra)
        = { mailbox with
            latestDelta := some
              (.frameBgraRects width' height' (rects' ++ rects) (bgra' ++ bgra)) } := by
      simp [Mailbox.accept, haccepting, hdelta, Mailbox.mergeDeltas]
    rw [haccept]
    refine ⟨⟨h.alive, h.control, h.frame, ?_⟩, ?_, haccepting, ?_⟩
    · intro o ho
      refine ⟨width', height', rects' ++ rects, bgra' ++ bgra, (Option.some.inj ho).symm, ?_⟩
      rw [List.length_append, List.map_append, List.sum_append, hlength, hlength']
    · intro width'' height'' rects'' bgra'' hsome
      obtain ⟨hw, hh, -, -⟩ := RemoteDesktopOutput.frameBgraRects.inj (Option.some.inj hsome)
      exact ⟨hw.symm, hh.symm⟩
    · -- the merged payload paints one delta after the other
      unfold Mailbox.State.pictures
      rw [hdelta, applyOutputs_append, applyOutputs_append]
      simp only [Option.toList_some, applyOutputs, List.foldl_cons, List.foldl_nil, applyOutput]
      rw [deltaPatch_append hlength', paint_assoc]

/-! ### The session -/

/-- What the host will show once it has received what waits for it. -/
def Session.shown (session : Session) (canvas : Canvas) (outs : List RemoteDesktopOutput) : Canvas :=
  applyOutputs (applyOutputs canvas outs) session.mailbox.pictures

/-- What holds of a session that has not come to its end. -/
structure Painted (canvas : Canvas) (outs : List RemoteDesktopOutput) (session : Session) : Prop where
  running : session.stopped = none
  filed : Filed session.mailbox
  accepting : session.framebuffer.framebuffer ≠ none →
    session.mailbox.acceptingSessionOutputs = true
  /-- The dirty rectangles can be sent. -/
  dirty : ∀ fb, session.framebuffer.framebuffer = some fb → ∀ r ∈ session.framebuffer.dirtyRects,
    InBounds fb.width.toNat r.rect fb.rgba.length ∧ FitsWidth fb.width r
  /-- Deltas meet deltas of their own size. -/
  sizes : ∀ fb, session.framebuffer.framebuffer = some fb → session.framebuffer.keyframe = false →
    ∀ width height rects bgra,
      session.mailbox.latestDelta = some (.frameBgraRects width height rects bgra) →
      width = fb.width ∧ height = fb.height
  /-- Outside the dirty rectangles the host will show the framebuffer. -/
  agrees : ∀ fb, session.framebuffer.framebuffer = some fb → session.framebuffer.keyframe = false →
    (session.shown canvas outs).width = fb.width ∧ (session.shown canvas outs).height = fb.height ∧
      ∀ p, (∀ r ∈ session.framebuffer.dirtyRects, ¬ r.rect.Has p) →
        (session.shown canvas outs).picture p = fb.canvas.picture p

variable {canvas : Canvas} {outs : List RemoteDesktopOutput} {session session' : Session}

theorem Painted.recv (h : Painted canvas outs session) :
    Painted canvas (outs ++ (session.step .recv).2) (session.step .recv).1 := by
  obtain ⟨hfiled, hsame⟩ := h.filed.recv (applyOutputs canvas outs)
  have hshown : (session.step .recv).1.shown canvas (outs ++ (session.step .recv).2)
      = session.shown canvas outs := by
    rw [Session.shown, applyOutputs_append]
    exact hsame
  -- receiving takes things out only
  have hkept : (Mailbox.recv session.mailbox).1.acceptingSessionOutputs
        = session.mailbox.acceptingSessionOutputs ∧
      ∀ output, (Mailbox.recv session.mailbox).1.latestDelta = some output →
        session.mailbox.latestDelta = some output := by
    obtain ⟨control, frame, delta, accepting, senders, alive⟩ := session.mailbox
    cases control with
    | cons => exact ⟨rfl, fun _ hdelta => hdelta⟩
    | nil =>
      cases frame with
      | some => exact ⟨rfl, fun _ hdelta => hdelta⟩
      | none => cases delta <;> exact ⟨rfl, fun _ hdelta => by simp [Mailbox.recv] at hdelta⟩
  refine ⟨h.running, hfiled, fun hsome => hkept.1.trans (h.accepting hsome), h.dirty, ?_, ?_⟩
  · intro fb hfb hkey width height rects bgra hdelta
    exact h.sizes fb hfb hkey width height rects bgra (hkept.2 _ hdelta)
  · rw [hshown]
    exact h.agrees

/-- A notice changes nothing the host can see. -/
theorem Painted.notice (h : Painted canvas outs session) {output : RemoteDesktopOutput}
    (hnotice : IsNotice output) :
    Painted canvas outs { session with mailbox := sendIgnored session.mailbox output } := by
  rw [h.filed.sendIgnored_eq]
  obtain ⟨hfiled, hframe, hdelta, haccepting⟩ := h.filed.notice hnotice
  have hshown : Session.shown { session with mailbox := Mailbox.accept session.mailbox output }
      canvas outs = session.shown canvas outs := by
    simp only [Session.shown, Mailbox.State.pictures, hframe, hdelta]
  refine ⟨h.running, hfiled, fun hsome => haccepting (h.accepting hsome), h.dirty, ?_, ?_⟩
  · intro fb hfb hkey width height rects bgra hsome
    exact h.sizes fb hfb hkey width height rects bgra (hdelta ▸ hsome)
  · rw [hshown]
    exact h.agrees

/-- A rectangle has been patched: it is dirty now. -/
theorem Painted.patched (h : Painted canvas outs session) {fb fb' : RgbaFramebuffer} {r : VncRect}
    (hfb : session.framebuffer.framebuffer = some fb) (hpatched : Patched fb r fb')
    (hfits : FitsWidth fb.width r) :
    Painted canvas outs { session with framebuffer := { session.framebuffer with
      framebuffer := some fb'
      dirtyRects := session.framebuffer.dirtyRects ++ [r] } } := by
  have hlength : fb'.rgba.length = fb.rgba.length := by
    rw [fb'.length, fb.length, hpatched.width, hpatched.height]
  refine ⟨h.running, h.filed, fun _ => h.accepting (by simp [hfb]), ?_, ?_, ?_⟩
  · intro fb'' hfb'' r' hr'
    obtain rfl := Option.some.inj hfb''
    rw [hpatched.width, hlength]
    obtain hr' | hr' := List.mem_append.mp hr'
    · exact h.dirty fb hfb r' hr'
    · rw [List.mem_singleton.mp hr']
      exact ⟨hpatched.inBounds, hfits⟩
  · intro fb'' hfb'' hkey width height rects bgra hdelta
    obtain rfl := Option.some.inj hfb''
    rw [hpatched.width, hpatched.height]
    exact h.sizes fb hfb hkey width height rects bgra hdelta
  · intro fb'' hfb'' hkey
    obtain rfl := Option.some.inj hfb''
    obtain ⟨hw, hh, hagrees⟩ := h.agrees fb hfb hkey
    rw [hpatched.width, hpatched.height]
    refine ⟨hw, hh, fun p hp => ?_⟩
    -- a point that is clean now was clean before, and lies outside of the new rectangle
    have hclean : ∀ r' ∈ session.framebuffer.dirtyRects, ¬ r'.rect.Has p :=
      fun r' hr' => hp r' (List.mem_append_left _ hr')
    have hnot : ¬ r.rect.Has p := hp r (List.mem_append_right _ List.mem_cons_self)
    rw [hpatched.outside hfits p hnot]
    exact hagrees p hclean

/-- A new resolution begins with a key frame. -/
theorem Painted.setResolution (h : Painted canvas outs session) (width height : UInt16) :
    Painted canvas outs { session with
      framebuffer := ⟨some (.new width height), true, []⟩
      mailbox := sendIgnored session.mailbox (.connected width height vncCapabilities) } := by
  rw [h.filed.sendIgnored_eq]
  have hnotice : IsNotice (.connected width height vncCapabilities) := ⟨rfl, rfl⟩
  refine ⟨h.running, (h.filed.notice hnotice).1, fun _ => rfl, ?_, ?_, ?_⟩
  · intro fb _ r hr
    exact absurd hr List.not_mem_nil
  · intro fb _ hkey
    exact absurd hkey (by simp)
  · intro fb _ hkey
    exact absurd hkey (by simp)

/-- What a rectangle of the server does to the state: it is patched in and marked, or there is no
framebuffer yet. -/
def Marked (state : VncFramebufferState) (r : VncRect) (state' : VncFramebufferState) : Prop :=
  (state.framebuffer = none ∧ state' = state) ∨
    ∃ fb fb', state.framebuffer = some fb ∧ Patched fb r fb' ∧
      state' = { state with framebuffer := some fb', dirtyRects := state.dirtyRects ++ [r] }

theorem marked_of_patchRect {state state' : VncFramebufferState} {rect : VncRect}
    {data : List UInt8} (h : state.patchRect rect data = .ok state') : Marked state rect state' := by
  unfold VncFramebufferState.patchRect at h
  split at h
  · next hnone => exact .inl ⟨hnone, (Except.ok.inj h).symm⟩
  · next fb hfb =>
    obtain ⟨fb', hpatch, h⟩ := bind_eq_ok.mp h
    exact .inr ⟨fb, fb', hfb, patchRgbaRect_ok hpatch, (Except.ok.inj h).symm⟩

theorem marked_of_copyRect {state state' : VncFramebufferState} {dst src : VncRect}
    (h : state.copyRect dst src = .ok state') : Marked state dst state' := by
  unfold VncFramebufferState.copyRect at h
  split at h
  · next hnone => exact .inl ⟨hnone, (Except.ok.inj h).symm⟩
  · next fb hfb =>
    obtain ⟨fb', hcopy, h⟩ := bind_eq_ok.mp h
    exact .inr ⟨fb, fb', hfb, copyRect_ok hcopy, (Except.ok.inj h).symm⟩

/-- The rectangle an event writes lies inside the columns of the framebuffer, if there is one. -/
def EventFits (resolution : Option (UInt16 × UInt16)) : VncEvent → Prop
  | .rawImage rect _ => ∀ size, resolution = some size → FitsWidth size.1 rect
  | .copy dst _ => ∀ size, resolution = some size → FitsWidth size.1 dst
  | _ => True

/-- The size of the framebuffer. -/
def VncFramebufferState.resolution (state : VncFramebufferState) : Option (UInt16 × UInt16) :=
  state.framebuffer.map fun fb => (fb.width, fb.height)

theorem Painted.marked (h : Painted canvas outs session) {r : VncRect}
    {state : VncFramebufferState} (hmarked : Marked session.framebuffer r state)
    (hfits : ∀ size, session.framebuffer.resolution = some size → FitsWidth size.1 r) :
    Painted canvas outs { session with framebuffer := state } := by
  obtain ⟨-, rfl⟩ | ⟨fb, fb', hfb, hpatched, rfl⟩ := hmarked
  · exact h
  · refine h.patched hfb hpatched (hfits (fb.width, fb.height) ?_)
    rw [VncFramebufferState.resolution, hfb]
    rfl

/-- **An event that is handled.** -/
theorem Painted.event (h : Painted canvas outs session) {event : VncEvent}
    (hfits : EventFits session.framebuffer.resolution event)
    (hok : session.handleEvent event = .ok session') : Painted canvas outs session' := by
  cases event with
  | setResolution width height =>
    obtain rfl := Except.ok.inj hok
    exact h.setResolution width height
  | rawImage rect data =>
    obtain ⟨state, hstate, hok⟩ := bind_eq_ok.mp hok
    obtain rfl := Except.ok.inj hok
    exact h.marked (marked_of_patchRect hstate) hfits
  | copy dst src =>
    obtain ⟨state, hstate, hok⟩ := bind_eq_ok.mp hok
    obtain rfl := Except.ok.inj hok
    exact h.marked (marked_of_copyRect hstate) hfits
  | text text =>
    obtain rfl := Except.ok.inj hok
    exact h.notice ⟨rfl, rfl⟩
  | cutTextBytes decoded =>
    cases decoded with
    | none =>
      obtain rfl := Except.ok.inj hok
      exact h
    | some text =>
      obtain rfl := Except.ok.inj hok
      exact h.notice ⟨rfl, rfl⟩
  -- an error ends the session
  | error message => exact absurd hok (by simp [Session.handleEvent])
  | jpegImage =>
    obtain rfl := Except.ok.inj hok
    exact h.notice ⟨rfl, rfl⟩
  | other =>
    obtain rfl := Except.ok.inj hok
    exact h

/-- The damage has been sent as a key frame. -/
theorem Painted.keyframe (h : Painted canvas outs session) {fb : RgbaFramebuffer}
    (hfb : session.framebuffer.framebuffer = some fb) :
    Painted canvas outs { session with
      framebuffer := { session.framebuffer with keyframe := false, dirtyRects := [] }
      mailbox := sendIgnored session.mailbox (.frame fb.width fb.height fb.cloneBgra) } := by
  have haccepting := h.accepting (by simp [hfb])
  obtain ⟨hfiled, hnone, haccepting', hshown⟩ :=
    h.filed.sendFrame haccepting (applyOutputs canvas outs) fb.width fb.height fb.cloneBgra
  rw [h.filed.sendIgnored_eq]
  refine ⟨h.running, hfiled, fun _ => haccepting', ?_, ?_, ?_⟩
  · intro _ _ r hr
    exact absurd hr List.not_mem_nil
  · intro _ _ _ width height rects bgra hdelta
    exact absurd (hnone.symm.trans hdelta) (by simp)
  · intro fb' hfb' _
    obtain rfl := Option.some.inj (hfb.symm.trans hfb')
    rw [Session.shown, hshown]
    exact ⟨rfl, rfl, fun _ _ => rfl⟩

/-- The damage has been sent as a delta. -/
theorem Painted.delta (h : Painted canvas outs session) {fb : RgbaFramebuffer} {bgra : List UInt8}
    (hfb : session.framebuffer.framebuffer = some fb) (hkey : session.framebuffer.keyframe = false)
    (hclone : VncFramebufferState.cloneRects fb session.framebuffer.dirtyRects = .ok bgra) :
    Painted canvas outs { session with
      framebuffer := { session.framebuffer with dirtyRects := [] }
      mailbox := sendIgnored session.mailbox (.frameBgraRects fb.width fb.height
        (session.framebuffer.dirtyRects.map VncFramebufferState.frameRect) bgra) } := by
  obtain ⟨bgra', hclone', hlength, hshows⟩ := cloneRects_ok (h.dirty fb hfb)
  obtain rfl := Except.ok.inj (hclone.symm.trans hclone')
  obtain ⟨hwidth, hheight, hagrees⟩ := h.agrees fb hfb hkey
  obtain ⟨hfiled, hsizes, haccepting, hshown⟩ := h.filed.sendDelta (h.accepting (by simp [hfb]))
    (h.sizes fb hfb hkey) hlength (applyOutputs canvas outs)
  rw [h.filed.sendIgnored_eq]
  refine ⟨h.running, hfiled, fun _ => haccepting, ?_, ?_, ?_⟩
  · intro _ _ r hr
    exact absurd hr List.not_mem_nil
  · intro fb' hfb' _
    obtain rfl := Option.some.inj (hfb.symm.trans hfb')
    exact hsizes
  · intro fb' hfb' _
    obtain rfl := Option.some.inj (hfb.symm.trans hfb')
    rw [Session.shown, hshown]
    refine ⟨hwidth, hheight, fun p _ => ?_⟩
    change ((deltaPatch _ bgra) p).or ((session.shown canvas outs).picture p) = _
    obtain ⟨hin, hout⟩ := hshows p
    by_cases hdirty : ∃ r ∈ session.framebuffer.dirtyRects, r.rect.Has p
    · -- a dirty point of the framebuffer is painted over whatever was there
      rw [hin hdirty]
      obtain ⟨r, hr, hp⟩ := hdirty
      obtain ⟨hbounds, hfits⟩ := h.dirty fb hfb r hr
      exact Option.or_of_isSome (picture_isSome hbounds hfits hp)
    · have hclean : ∀ r ∈ session.framebuffer.dirtyRects, ¬ r.rect.Has p :=
        fun r hr hp => hdirty ⟨r, hr, hp⟩
      rw [hout hclean, Option.none_or]
      exact hagrees p hclean

theorem step_flush {state : VncFramebufferState} {mailbox : Mailbox.State}
    (hrunning : session.stopped = none)
    (h : session.framebuffer.flushFrame session.mailbox = .ok (state, mailbox)) :
    session.step .flush = ({ session with framebuffer := state, mailbox := mailbox }, []) := by
  simp [Session.step, hrunning, h]

/-- **Flushing** cannot fail, and leaves no damage behind. -/
theorem Painted.flush (h : Painted canvas outs session) :
    Painted canvas outs (session.step .flush).1 ∧ (session.step .flush).2 = [] ∧
      (session.step .flush).1.framebuffer.framebuffer = session.framebuffer.framebuffer ∧
      (session.framebuffer.framebuffer ≠ none →
        (session.step .flush).1.framebuffer.dirtyRects = []) ∧
      ((session.framebuffer.keyframe = true → session.framebuffer.dirtyRects ≠ []) →
        session.framebuffer.framebuffer ≠ none →
        (session.step .flush).1.framebuffer.keyframe = false) := by
  cases hfb : session.framebuffer.framebuffer with
  | none =>
    have hflush : session.framebuffer.flushFrame session.mailbox
        = .ok (session.framebuffer, session.mailbox) := by
      simp [VncFramebufferState.flushFrame, hfb]
    rw [step_flush h.running hflush]
    exact ⟨h, rfl, hfb, fun hsome => absurd rfl hsome, fun _ hsome => absurd rfl hsome⟩
  | some fb =>
    by_cases hdirty : session.framebuffer.dirtyRects = []
    · have hflush : session.framebuffer.flushFrame session.mailbox
          = .ok (session.framebuffer, session.mailbox) := by
        simp [VncFramebufferState.flushFrame, hfb, hdirty]
      rw [step_flush h.running hflush]
      refine ⟨h, rfl, hfb, fun _ => hdirty, fun htouched _ => ?_⟩
      exact Bool.eq_false_iff.mpr fun hkey => htouched hkey hdirty
    · cases hkey : session.framebuffer.keyframe with
      | true =>
        have hflush : session.framebuffer.flushFrame session.mailbox
            = .ok ({ session.framebuffer with keyframe := false, dirtyRects := [] },
              sendIgnored session.mailbox (.frame fb.width fb.height fb.cloneBgra)) := by
          simp [VncFramebufferState.flushFrame, hfb, hdirty, hkey]
        rw [step_flush h.running hflush]
        exact ⟨h.keyframe hfb, rfl, hfb, fun _ => rfl, fun _ _ => rfl⟩
      | false =>
        -- the dirty rectangles lie within the picture, so that they can be cloned
        obtain ⟨bgra, hclone, -⟩ := cloneRects_ok (h.dirty fb hfb)
        -- the first frame of a picture is sent whole
        have hflush : session.framebuffer.flushFrame session.mailbox
            = .ok ({ session.framebuffer with dirtyRects := [] },
              sendIgnored session.mailbox (.frameBgraRects fb.width fb.height
                (session.framebuffer.dirtyRects.map VncFramebufferState.frameRect) bgra)) := by
          simp [VncFramebufferState.flushFrame, hfb, hdirty, hkey, hclone]
        rw [step_flush h.running hflush]
        exact ⟨h.delta hfb hkey hclone, rfl, hfb, fun _ => rfl, fun _ _ => hkey⟩

/-! ### Whole sessions -/

/-- What the events so far have done to the framebuffer: its size, and whether a rectangle was
patched or copied since the size was set. -/
structure Progress where
  resolution : Option (UInt16 × UInt16)
  touched : Bool
  deriving DecidableEq, Repr

def Progress.next (progress : Progress) : Step → Progress
  | .event (.setResolution width height) => ⟨some (width, height), false⟩
  | .event (.rawImage ..) | .event (.copy ..) =>
    { progress with touched := progress.touched || progress.resolution.isSome }
  | _ => progress

def progress (steps : List Step) : Progress := steps.foldl Progress.next ⟨none, false⟩

/-- Every rectangle the server writes lies inside the columns of the framebuffer it is written to. -/
def Fitting (steps : List Step) : Prop :=
  ∀ (k : ℕ) (event : VncEvent), steps[k]? = some (.event event) →
    EventFits (progress (steps.take k)).resolution event

theorem progress_concat (steps : List Step) (step : Step) :
    progress (steps ++ [step]) = (progress steps).next step := by
  rw [progress, List.foldl_append]
  rfl

theorem Fitting.before {steps : List Step} {step : Step} (h : Fitting (steps ++ [step])) :
    Fitting steps := by
  intro k event hk
  have hlt : k < steps.length := (List.getElem?_eq_some_iff.mp hk).1
  have hfits := h k event ((List.getElem?_append_left hlt).trans hk)
  rwa [List.take_append_of_le_length hlt.le] at hfits

theorem Fitting.last {steps : List Step} {event : VncEvent}
    (h : Fitting (steps ++ [.event event])) : EventFits (progress steps).resolution event := by
  have hfits := h steps.length event List.getElem?_concat_length
  rwa [List.take_left] at hfits

/-- The session follows the events. -/
structure Followed (canvas : Canvas) (steps : List Step) (outs : List RemoteDesktopOutput)
    (session : Session) : Prop where
  painted : Painted canvas outs session
  resolution : session.framebuffer.resolution = (progress steps).resolution
  /-- The next flush sends a key frame, if one is due. -/
  touched : (progress steps).touched = true → session.framebuffer.framebuffer ≠ none ∧
    (session.framebuffer.keyframe = true → session.framebuffer.dirtyRects ≠ [])

variable {steps : List Step}

/-- Steps that leave the size, the key frame and the damage alone. -/
theorem Followed.quiet (h : Followed canvas steps outs session)
    (hpainted : Painted canvas outs session')
    (hsame : session'.framebuffer = session.framebuffer) {step : Step}
    (hnext : (progress steps).next step = progress steps) :
    Followed canvas (steps ++ [step]) outs session' := by
  refine ⟨hpainted, ?_, ?_⟩
  · rw [progress_concat, hnext, hsame]
    exact h.resolution
  · rw [progress_concat, hnext, hsame]
    exact h.touched

theorem Followed.marked (h : Followed canvas steps outs session) {r : VncRect}
    {state : VncFramebufferState} (hmarked : Marked session.framebuffer r state)
    (hpainted : Painted canvas outs { session with framebuffer := state }) {step : Step}
    (hnext : (progress steps).next step = { progress steps with
      touched := (progress steps).touched || (progress steps).resolution.isSome }) :
    Followed canvas (steps ++ [step]) outs { session with framebuffer := state } := by
  refine ⟨hpainted, ?_, ?_⟩
  · rw [progress_concat, hnext]
    obtain ⟨-, rfl⟩ | ⟨fb, fb', hfb, hpatched, rfl⟩ := hmarked
    · exact h.resolution
    · rw [← h.resolution]
      simp only [VncFramebufferState.resolution, hfb, Option.map_some, hpatched.width,
        hpatched.height]
  · rw [progress_concat, hnext]
    intro htouched
    obtain ⟨hnone, rfl⟩ | ⟨fb, fb', hfb, hpatched, rfl⟩ := hmarked
    · refine h.touched ?_
      have hresolution : (progress steps).resolution = none := by
        rw [← h.resolution, VncFramebufferState.resolution, hnone]
        rfl
      simpa [hresolution] using htouched
    · exact ⟨by simp, fun _ => by simp⟩

theorem Followed.event (h : Followed canvas steps outs session) {event : VncEvent}
    (hfits : EventFits (progress steps).resolution event)
    (hok : session.handleEvent event = .ok session') :
    Followed canvas (steps ++ [.event event]) outs session' := by
  rw [← h.resolution] at hfits
  have hpainted := h.painted.event hfits hok
  cases event with
  | setResolution width height =>
    obtain rfl := Except.ok.inj hok
    refine ⟨hpainted, ?_, ?_⟩
    · rw [progress_concat]
      rfl
    · rw [progress_concat]
      -- a new size starts a picture in which nothing is touched
      intro htouched
      exact absurd htouched (by simp [Progress.next])
  | rawImage rect data =>
    obtain ⟨state, hstate, hok⟩ := bind_eq_ok.mp hok
    obtain rfl := Except.ok.inj hok
    exact h.marked (marked_of_patchRect hstate) hpainted rfl
  | copy dst src =>
    obtain ⟨state, hstate, hok⟩ := bind_eq_ok.mp hok
    obtain rfl := Except.ok.inj hok
    exact h.marked (marked_of_copyRect hstate) hpainted rfl
  | cutTextBytes decoded =>
    cases decoded <;>
    · obtain rfl := Except.ok.inj hok
      exact h.quiet hpainted rfl rfl
  | error message => exact absurd hok (by simp [Session.handleEvent])
  | _ =>
    obtain rfl := Except.ok.inj hok
    exact h.quiet hpainted rfl rfl

theorem Followed.flush (h : Followed canvas steps outs session) :
    Followed canvas (steps ++ [.flush]) (outs ++ (session.step .flush).2)
      (session.step .flush).1 := by
  obtain ⟨hpainted, hnothing, hsame, -, hkey⟩ := h.painted.flush
  rw [hnothing, List.append_nil]
  refine ⟨hpainted, ?_, ?_⟩
  · rw [progress_concat, VncFramebufferState.resolution, hsame]
    exact h.resolution
  · rw [progress_concat, hsame]
    intro htouched
    obtain ⟨hsome, hdirty⟩ := h.touched htouched
    refine ⟨hsome, fun hstill => ?_⟩
    exact absurd (hkey hdirty hsome) (by simp [hstill])

theorem Followed.recv (h : Followed canvas steps outs session) :
    Followed canvas (steps ++ [.recv]) (outs ++ (session.step .recv).2)
      (session.step .recv).1 := by
  refine ⟨h.painted.recv, ?_, ?_⟩
  · rw [progress_concat]
    exact h.resolution
  · rw [progress_concat]
    exact h.touched

/-- A session that an event has ended stays so. -/
theorem stopped_step {failure : Failure} (h : session.stopped = some (.event failure)) (step : Step) :
    (session.step step).1.stopped = some (.event failure) := by
  cases step <;> simp [Session.step, h]

theorem step_event {event : VncEvent} (hrunning : session.stopped = none)
    (h : session.handleEvent event = .ok session') :
    session.step (.event event) = (session', []) := by
  simp [Session.step, hrunning, h]

/-- **One step** of a session in which every event is handled. -/
theorem Followed.step (h : Followed canvas steps outs session) (step : Step)
    (hfitting : Fitting (steps ++ [step]))
    (hok : ∀ failure, (session.step step).1.stopped ≠ some (.event failure)) :
    Followed canvas (steps ++ [step]) (outs ++ (session.step step).2) (session.step step).1 := by
  cases step with
  | event event =>
    have hrunning := h.painted.running
    cases hevent : session.handleEvent event with
    | error failure =>
      refine absurd ?_ (hok failure)
      simp [Session.step, hrunning, hevent]
    | ok session' =>
      rw [step_event hrunning hevent, List.append_nil]
      exact h.event hfitting.last hevent
  | flush => exact h.flush
  | recv => exact h.recv

/-- Where sessions start: with a mailbox that is new, or with a new generation of one. -/
def Starts (start : Mailbox.State) : Prop :=
  start = Mailbox.outputMailbox ∨ ∃ ops, start = Mailbox.beginGeneration (Mailbox.reached ops)

/-- Nothing is left of the pictures of earlier sessions. -/
theorem Starts.filed {start : Mailbox.State} (h : Starts start) : Filed start := by
  obtain rfl | ⟨ops, rfl⟩ := h
  · refine ⟨rfl, ?_, ?_, ?_⟩ <;> simp [Mailbox.outputMailbox]
  · refine ⟨(Mailbox.relayed_run ops).alive, ?_, ?_, ?_⟩
    · intro output houtput
      have hqueued : output ∈ (Mailbox.reached ops).control := List.mem_of_mem_filter houtput
      rw [← (Mailbox.stampedRun_erase ops).1] at hqueued
      obtain ⟨stamped, hstamped, rfl⟩ := List.mem_map.mp hqueued
      exact (Mailbox.isolated_run ops).noPicture stamped hstamped
    · simp [Mailbox.beginGeneration, Mailbox.closeSessionOutputs]
    · simp [Mailbox.beginGeneration, Mailbox.closeSessionOutputs]

theorem Followed.start {start : Mailbox.State} (h : Starts start) (canvas : Canvas) :
    Followed canvas [] [] ⟨.default, start, none⟩ := by
  refine ⟨⟨rfl, h.filed, ?_, ?_, ?_, ?_⟩, rfl, ?_⟩
  all_goals simp [VncFramebufferState.default, progress]

theorem followed_run {start : Mailbox.State} (hstart : Starts start) (canvas : Canvas)
    (hfitting : Fitting steps)
    (hok : ∀ failure, (Session.run start steps).1.stopped ≠ some (.event failure)) :
    Followed canvas steps (Session.run start steps).2 (Session.run start steps).1 := by
  refine Machine.run_history
    (H := fun steps outs session => (∀ failure, session.stopped ≠ some (.event failure)) →
      Followed canvas steps outs session) (P := Fitting)
    (fun _ _ h => h.before) ?_ (fun _ => Followed.start hstart canvas) hfitting hok
  intro steps outs session step hfollowed hfits hstill
  refine (hfollowed fun failure hstopped => ?_).step step hfits hstill
  exact hstill failure (stopped_step hstopped step)

/-- Receiving leaves the framebuffer alone. -/
theorem Painted.drain (h : Painted canvas outs session) (n : ℕ) :
    Painted canvas
        (outs ++ (Machine.run Session.step session (List.replicate n .recv)).2)
        (Machine.run Session.step session (List.replicate n .recv)).1 ∧
      (Machine.run Session.step session (List.replicate n .recv)).1.framebuffer
        = session.framebuffer := by
  induction n generalizing outs session with
  | zero => exact ⟨by simpa using h, rfl⟩
  | succ n ih =>
    rw [List.replicate_succ, Machine.run_cons, ← List.append_assoc]
    exact ih h.recv

/-- With nothing dirty and nothing waiting, the host shows the framebuffer. -/
theorem Painted.shows (h : Painted canvas outs session) {fb : RgbaFramebuffer}
    (hfb : session.framebuffer.framebuffer = some fb)
    (hkey : session.framebuffer.keyframe = false) (hdirty : session.framebuffer.dirtyRects = [])
    (hdrained : session.mailbox.Drained) : applyOutputs canvas outs = fb.canvas := by
  obtain ⟨-, hframe, hdelta⟩ := hdrained
  have hshown : session.shown canvas outs = applyOutputs canvas outs := by
    simp only [Session.shown, Mailbox.State.pictures, hframe, hdelta]
    rfl
  obtain ⟨hwidth, hheight, hpicture⟩ := h.agrees fb hfb hkey
  rw [hshown] at hwidth hheight hpicture
  refine Canvas.ext hwidth hheight (funext fun p => hpicture p ?_)
  intro r hr
  rw [hdirty] at hr
  exact absurd hr List.not_mem_nil

/-- These steps, a flush, and calls of the host. -/
def thenDrain (steps : List Step) (n : ℕ) : List Step :=
  steps ++ Step.flush :: List.replicate n Step.recv

/-- **The host sees the framebuffer.** However events, flushes and the host's calls interleave: once
the damage has been flushed and the mailbox drained, and if a rectangle was written since the size
was set, the host shows the framebuffer, as long as rectangles lie inside its columns. -/
theorem picture_faithful {start : Mailbox.State} (hstart : Starts start) (canvas : Canvas)
    {steps : List Step} (hfitting : Fitting steps) (n : ℕ)
    (hok : ∀ failure, (Session.run start (thenDrain steps n)).1.stopped
      ≠ some (.event failure))
    (hdrained : (Session.run start (thenDrain steps n)).1.mailbox.Drained)
    (htouched : (progress steps).touched = true) :
    (Session.run start (thenDrain steps n)).1.stopped = none ∧
    ∃ fb, (Session.run start (thenDrain steps n)).1.framebuffer.framebuffer
        = some fb ∧
      applyOutputs canvas (Session.run start (thenDrain steps n)).2
        = fb.canvas := by
  have hrun : Session.run start (thenDrain steps n)
      = ((Machine.run Session.step ((Session.run start steps).1.step .flush).1
            (List.replicate n .recv)).1,
          (Session.run start steps).2 ++ (((Session.run start steps).1.step .flush).2 ++
            (Machine.run Session.step ((Session.run start steps).1.step .flush).1
              (List.replicate n .recv)).2)) := by
    rw [Session.run, thenDrain, Machine.run_append, Machine.run_cons]
    rfl
  have hok' : ∀ failure, (Session.run start steps).1.stopped ≠ some (.event failure) := by
    intro failure hstopped
    refine hok failure ?_
    rw [hrun]
    exact Machine.run_inv (I := fun session : Session => session.stopped = some (.event failure))
      (P := fun _ => True) (fun _ step h _ => stopped_step h step) (stopped_step hstopped .flush)
      (fun _ _ => trivial)
  -- after the steps, after the flush, after the last call of the host
  have hfollowed := followed_run hstart canvas hfitting hok'
  obtain ⟨hflushed, hnothing, hsame, hclean, hkey⟩ := hfollowed.painted.flush
  obtain ⟨hpainted, hframebuffer⟩ := hflushed.drain n
  obtain ⟨hsome, hdirty⟩ := hfollowed.touched htouched
  rw [hrun, hnothing, List.nil_append]
  rw [hrun] at hdrained
  refine ⟨hpainted.running, ?_⟩
  obtain ⟨fb, hfb⟩ := Option.ne_none_iff_exists'.mp hsome
  rw [← hframebuffer] at hsame hclean hkey
  exact ⟨fb, hsame.trans hfb,
    hpainted.shows (hsame.trans hfb) (hkey hdirty hsome) (hclean hsome) hdrained⟩

/-- A key frame, and a delta that copies the pixel it has just written. -/
def copyRun : List Step :=
  [.event (.setResolution 2 1), .event (.rawImage ⟨0, 0, 1, 1⟩ [1, 2, 3, 255]), .flush, .recv,
    .event (.rawImage ⟨0, 0, 1, 1⟩ [4, 5, 6, 255]), .event (.copy ⟨1, 0, 1, 1⟩ ⟨0, 0, 1, 1⟩)]

theorem fitting_copyRun : Fitting copyRun := by
  intro k event hk
  match k with
  | 0 =>
    obtain rfl := Step.event.inj (Option.some.inj hk)
    trivial
  | 1 =>
    obtain rfl := Step.event.inj (Option.some.inj hk)
    intro size hsize
    obtain rfl := Option.some.inj hsize
    exact .inl (by decide)
  | 2 => exact absurd hk (by simp [copyRun])
  | 3 => exact absurd hk (by simp [copyRun])
  | 4 =>
    obtain rfl := Step.event.inj (Option.some.inj hk)
    -- the rectangles lie within the two columns and two rows
    intro size hsize
    obtain rfl := Option.some.inj hsize
    exact .inl (by decide)
  | 5 =>
    obtain rfl := Step.event.inj (Option.some.inj hk)
    intro size hsize
    obtain rfl := Option.some.inj hsize
    exact .inl (by decide)
  | k + 6 => exact absurd hk (by simp [copyRun])

theorem picture_faithful_copyRun :
    (Session.run Mailbox.outputMailbox (thenDrain copyRun 3)).2.length = 3 ∧
    ∃ fb, (Session.run Mailbox.outputMailbox
        (thenDrain copyRun 3)).1.framebuffer.framebuffer = some fb ∧
      applyOutputs ⟨0, 0, blank⟩ (Session.run Mailbox.outputMailbox
        (thenDrain copyRun 3)).2 = fb.canvas := by
  have hstopped : (Session.run Mailbox.outputMailbox
      (thenDrain copyRun 3)).1.stopped = none := by decide +kernel
  refine ⟨by decide +kernel,
    (picture_faithful (.inl rfl) ⟨0, 0, blank⟩ fitting_copyRun 3 ?_ ?_ ?_).2⟩
  · intro failure
    rw [hstopped]
    simp
  · decide +kernel
  · decide

/-! ### Rectangles beyond the right edge -/

/-- Patching one pixel, wherever the checks let it begin. -/
theorem patchRgbaRect_pixel {x y : UInt16} {pixel : List UInt8} (hpixel : pixel.length = 4)
    (hx : x ≤ framebuffer.width) (hy : y ≤ framebuffer.height)
    (hx' : saturatingAdd x 1 ≤ framebuffer.width) (hy' : saturatingAdd y 1 ≤ framebuffer.height)
    (hbound : (y.toNat * framebuffer.width.toNat + x.toNat) * 4 + 4 ≤ framebuffer.rgba.length) :
    ∃ framebuffer', framebuffer.patchRgbaRect x y 1 1 pixel = .ok framebuffer' ∧
      framebuffer'.width = framebuffer.width ∧ framebuffer'.height = framebuffer.height ∧
      framebuffer'.rgba = overwrite framebuffer.rgba
        ((y.toNat * framebuffer.width.toNat + x.toNat) * 4) pixel := by
  -- one row of one pixel
  have hwrite : writeRows framebuffer.width.toNat (rectOf x y 1 1) pixel framebuffer.rgba
      = some (overwrite framebuffer.rgba
        ((y.toNat * framebuffer.width.toNat + x.toNat) * 4) pixel) := by
    have htake : pixel.take 4 = pixel := List.take_of_length_le hpixel.le
    change writeRow _ _ _ _ 0 >>= _ = _
    simp [writeRow, Rect.rowStart, Rect.rowBlock, rectOf, hbound, htake]
  refine ⟨⟨framebuffer.width, framebuffer.height, _,
    (writeRows_eq_some hpixel hwrite).2.trans framebuffer.length⟩, ?_, rfl, rfl, rfl⟩
  unfold RgbaFramebuffer.patchRgbaRect
  split
  swap
  · next hnot => exact absurd hpixel hnot
  simp only [ensure, hx, hy, hx', hy', if_true]
  change framebuffer.writeRect (rectOf x y 1 1) pixel hpixel = _
  unfold RgbaFramebuffer.writeRect
  split
  · next rgba hrgba =>
    obtain rfl := Option.some.inj (hwrite.symm.trans hrgba)
    rfl
  · next hnone => exact absurd (hwrite.symm.trans hnone) (by simp)

/-- On a screen of the largest width, a pixel that begins at the right edge. -/
def wideRun : List Step :=
  [.event (.setResolution 65535 2), .event (.rawImage ⟨0, 0, 1, 1⟩ [0, 0, 0, 0]), .flush, .recv,
    .recv, .event (.rawImage ⟨65535, 0, 1, 1⟩ [1, 2, 3, 4])]

/-- The second pixel goes to the first column of the next row. -/
theorem wideRun_framebuffers : ∃ fb₁ fb₂ : RgbaFramebuffer,
    (RgbaFramebuffer.new 65535 2).patchRgbaRect 0 0 1 1 [0, 0, 0, 0] = .ok fb₁ ∧
    fb₁.patchRgbaRect 65535 0 1 1 [1, 2, 3, 4] = .ok fb₂ ∧
    (fb₁.width = 65535 ∧ fb₁.height = 2) ∧ (fb₂.width = 65535 ∧ fb₂.height = 2) ∧
    fb₁.rgba[262140]? = some 0 ∧ fb₂.rgba[262140]? = some 1 := by
  have hlength : (RgbaFramebuffer.new 65535 2).rgba.length = 524280 := List.length_replicate
  obtain ⟨fb₁, hpatch₁, hwidth₁, hheight₁, hrgba₁⟩ := @patchRgbaRect_pixel
    (RgbaFramebuffer.new 65535 2) 0 0 [0, 0, 0, 0] rfl (by decide) (by decide) (by decide)
    (by decide) (by rw [hlength]; decide)
  have hsize₁ : fb₁.width = 65535 ∧ fb₁.height = 2 := ⟨hwidth₁, hheight₁⟩
  have hlength₁ : fb₁.rgba.length = 524280 := by rw [fb₁.length, hsize₁.1, hsize₁.2]; rfl
  obtain ⟨fb₂, hpatch₂, hwidth₂, hheight₂, hrgba₂⟩ := @patchRgbaRect_pixel
    fb₁ 65535 0 [1, 2, 3, 4] rfl (by rw [hsize₁.1]; decide) (by rw [hsize₁.2]; decide)
    (by rw [hsize₁.1]; decide) (by rw [hsize₁.2]; decide) (by rw [hlength₁, hsize₁.1]; decide)
  refine ⟨fb₁, fb₂, hpatch₁, hpatch₂, hsize₁, ⟨hwidth₂.trans hsize₁.1, hheight₂.trans hsize₁.2⟩,
    ?_, ?_⟩
  · rw [hrgba₁, getElem?_overwrite (by rw [hlength]; decide), if_neg (by decide)]
    exact (List.getElem?_replicate ..).trans (if_pos (by decide))
  · rw [hrgba₂, hsize₁.1, getElem?_overwrite (by rw [hlength₁]; decide), if_pos (by decide)]
    rfl

/-- The first pixel of the second row, in the order of the canvas. -/
theorem picture_secondRow (h : framebuffer.width = 65535 ∧ framebuffer.height = 2) :
    framebuffer.canvas.picture (0, 1, 2) = framebuffer.rgba[262140]? := by
  have hhas : (whole 65535 2).Has (0, 1, 0) := by decide
  rw [RgbaFramebuffer.canvas_picture, h.1, h.2, swapPicture, if_pos (by decide)]
  exact Rect.patch_of_has hhas framebuffer.rgba

/-- The mailbox when the size of the screen has been set. -/
def connectedMailbox : Mailbox.State :=
  { Mailbox.outputMailbox with control := [.connected 65535 2 vncCapabilities] }

/-- The host is told of a rectangle that begins where its canvas ends. -/
theorem wideRun_outputs : ∃ (fb₁ fb₂ : RgbaFramebuffer) (bgra : List UInt8),
    Session.run Mailbox.outputMailbox (thenDrain wideRun 1)
      = (⟨⟨some fb₂, false, []⟩, ⟨[], none, none, true, 1, true⟩, none⟩,
        [.connected 65535 2 vncCapabilities, .frame fb₁.width fb₁.height fb₁.cloneBgra,
          .frameBgraRects fb₂.width fb₂.height [⟨65535, 0, 1, 1, 4⟩] bgra]) ∧
    fb₁.canvas.picture (0, 1, 2) = some 0 ∧ fb₂.canvas.picture (0, 1, 2) = some 1 := by
  obtain ⟨fb₁, fb₂, hpatch₁, hpatch₂, hsize₁, hsize₂, hpixel₁, hpixel₂⟩ := wideRun_framebuffers
  have hbounds : InBounds fb₂.width.toNat (rectOf 65535 0 1 1) fb₂.rgba.length := by
    intro k hk
    obtain rfl : k = 0 := Nat.lt_one_iff.mp hk
    rw [fb₂.length, hsize₂.1, hsize₂.2]
    decide
  obtain ⟨pixels, hread⟩ := readRows_of_inBounds hbounds
  refine ⟨fb₁, fb₂, swapFirstThird pixels, ?_, ?_, ?_⟩
  · -- the first pixel, and the key frame
    have hresolution : Session.step ⟨.default, Mailbox.outputMailbox, none⟩
        (.event (.setResolution 65535 2))
        = (⟨⟨some (.new 65535 2), true, []⟩, connectedMailbox, none⟩, []) := rfl
    have hfirst : Session.step ⟨⟨some (.new 65535 2), true, []⟩, connectedMailbox, none⟩
        (.event (.rawImage ⟨0, 0, 1, 1⟩ [0, 0, 0, 0]))
        = (⟨⟨some fb₁, true, [⟨0, 0, 1, 1⟩]⟩, connectedMailbox, none⟩, []) := by
      refine step_event rfl ?_
      simp only [Session.handleEvent, VncFramebufferState.patchRect, hpatch₁]
      rfl
    have hkeyframe : Session.step
          ⟨⟨some fb₁, true, [⟨0, 0, 1, 1⟩]⟩, connectedMailbox, none⟩ .flush
        = (⟨⟨some fb₁, false, []⟩, { connectedMailbox with
          latestFrame := some (.frame fb₁.width fb₁.height fb₁.cloneBgra) }, none⟩, []) := rfl
    have hconnected : Session.step ⟨⟨some fb₁, false, []⟩, { connectedMailbox with
          latestFrame := some (.frame fb₁.width fb₁.height fb₁.cloneBgra) }, none⟩ .recv
        = (⟨⟨some fb₁, false, []⟩, { Mailbox.outputMailbox with
          latestFrame := some (.frame fb₁.width fb₁.height fb₁.cloneBgra) }, none⟩,
          [.connected 65535 2 vncCapabilities]) := rfl
    have hframe : Session.step ⟨⟨some fb₁, false, []⟩, { Mailbox.outputMailbox with
          latestFrame := some (.frame fb₁.width fb₁.height fb₁.cloneBgra) }, none⟩ .recv
        = (⟨⟨some fb₁, false, []⟩, Mailbox.outputMailbox, none⟩,
          [.frame fb₁.width fb₁.height fb₁.cloneBgra]) := rfl
    -- the second pixel, and the delta
    have hsecond : Session.step ⟨⟨some fb₁, false, []⟩, Mailbox.outputMailbox, none⟩
        (.event (.rawImage ⟨65535, 0, 1, 1⟩ [1, 2, 3, 4]))
        = (⟨⟨some fb₂, false, [⟨65535, 0, 1, 1⟩]⟩, Mailbox.outputMailbox, none⟩, []) := by
      refine step_event rfl ?_
      simp only [Session.handleEvent, VncFramebufferState.patchRect, hpatch₂]
      rfl
    have hclone : VncFramebufferState.cloneRects fb₂ [⟨65535, 0, 1, 1⟩]
        = .ok (swapFirstThird pixels ++ []) := by
      rw [VncFramebufferState.cloneRects, cloneBgraRect_of_read hread]
      rfl
    have hdelta : Session.step
          ⟨⟨some fb₂, false, [⟨65535, 0, 1, 1⟩]⟩, Mailbox.outputMailbox, none⟩ .flush
        = (⟨⟨some fb₂, false, []⟩, { Mailbox.outputMailbox with
            latestDelta := some (.frameBgraRects fb₂.width fb₂.height
              [⟨65535, 0, 1, 1, 4⟩] (swapFirstThird pixels ++ [])) }, none⟩, []) := by
      refine step_flush rfl ?_
      simp only [VncFramebufferState.flushFrame, hclone]
      rfl
    have hreceived : Session.step ⟨⟨some fb₂, false, []⟩, { Mailbox.outputMailbox with
          latestDelta := some (.frameBgraRects fb₂.width fb₂.height
            [⟨65535, 0, 1, 1, 4⟩] (swapFirstThird pixels ++ [])) }, none⟩ .recv
        = (⟨⟨some fb₂, false, []⟩, Mailbox.outputMailbox, none⟩, [.frameBgraRects fb₂.width
          fb₂.height [⟨65535, 0, 1, 1, 4⟩] (swapFirstThird pixels ++ [])]) := rfl
    have hsteps : thenDrain wideRun 1 = [.event (.setResolution 65535 2),
      .event (.rawImage ⟨0, 0, 1, 1⟩ [0, 0, 0, 0]), .flush, .recv, .recv,
      .event (.rawImage ⟨65535, 0, 1, 1⟩ [1, 2, 3, 4]), .flush, .recv] := rfl
    rw [hsteps, Session.run]
    rw [Machine.run_cons, hresolution, Machine.run_cons, hfirst, Machine.run_cons, hkeyframe,
      Machine.run_cons, hconnected, Machine.run_cons, hframe, Machine.run_cons, hsecond,
      Machine.run_cons, hdelta, Machine.run_cons, hreceived, Machine.run_nil]
    simp only [List.append_nil, List.nil_append, List.cons_append]
    rfl
  · rw [picture_secondRow hsize₁]
    exact hpixel₁
  · rw [picture_secondRow hsize₂]
    exact hpixel₂

/-- The pixel is written to the next row of the framebuffer, and shown in no row by the host. -/
theorem wide_rectangle_not_shown :
    (Session.run Mailbox.outputMailbox (thenDrain wideRun 1)).1.stopped
      = none ∧
    (Session.run Mailbox.outputMailbox
      (thenDrain wideRun 1)).1.mailbox.Drained ∧
    (progress wideRun).touched = true ∧
    ¬ ∃ fb, (Session.run Mailbox.outputMailbox
        (thenDrain wideRun 1)).1.framebuffer.framebuffer = some fb ∧
      applyOutputs ⟨0, 0, blank⟩ (Session.run Mailbox.outputMailbox
        (thenDrain wideRun 1)).2 = fb.canvas := by
  obtain ⟨fb₁, fb₂, bgra, hrun, hpixel₁, hpixel₂⟩ := wideRun_outputs
  rw [hrun]
  refine ⟨rfl, ⟨rfl, rfl, rfl⟩, by decide, ?_⟩
  rintro ⟨fb, hfb, hcanvas⟩
  obtain rfl := Option.some.inj hfb
  -- the delta does not touch the first column
  have hshown : (applyOutputs ⟨0, 0, blank⟩ [.connected 65535 2 vncCapabilities,
      .frame fb₁.width fb₁.height fb₁.cloneBgra,
      .frameBgraRects fb₂.width fb₂.height [⟨65535, 0, 1, 1, 4⟩] bgra]).picture (0, 1, 2)
        = fb₁.canvas.picture (0, 1, 2) := rfl
  rw [hcanvas, hpixel₁, hpixel₂] at hshown
  exact absurd hshown (by decide)

end Vnc
end Navop
