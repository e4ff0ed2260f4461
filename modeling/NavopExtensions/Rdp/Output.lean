import NavopExtensions.Lib.Machine
import NavopExtensions.Rdp.Protocol

/-!
# The output mapper

`RdpOutputMapper` (`rdp-helper/src/rdp/output.rs`) turns the events of the RDP client into helper
events. It holds back everything until the first complete picture of a session, which it announces
with `Connected`, and drops dirty regions that cannot be painted over the current base frame.

The client's events are those the mapper matches on. A payload that the mapper does not read is
left out, and an error is represented by the text the mapper renders it to. `Emits` says once what
one call of `map` can emit, and `map_emits` that it covers every branch.
-/

namespace Navop
namespace Rdp

/-! ### Events of the client -/

/-- `NonZeroU16`: the number goes with the fact that it is not zero. -/
structure NonZeroU16 where
  get : UInt16
  ne_zero : get ≠ 0
  deriving DecidableEq, Repr

/-- `InclusiveRectangle`: both corners belong to the rectangle. -/
structure InclusiveRectangle where
  left : UInt16
  top : UInt16
  right : UInt16
  bottom : UInt16
  deriving DecidableEq, Repr

/-- The parts of a `DesktopUpdate`. -/
structure DesktopUpdate where
  buffer : List UInt32
  width : NonZeroU16
  height : NonZeroU16
  region : InclusiveRectangle
  deriving DecidableEq, Repr

/-- `DecodedPointer`: a picture, and the point of it that points. -/
structure DecodedPointer where
  width : UInt16
  height : UInt16
  hotspotX : UInt16
  hotspotY : UInt16
  bitmapData : List UInt8
  deriving DecidableEq, Repr

/-- `RdpOutputEvent`: what the session reports. -/
inductive RdpOutputEvent where
  | connected
  | loginComplete
  | postLogonDisplayRedraw
  | malformedBitmapDisplayRedraw
  | monitorLayout
  | windowingOrders
  | railHandshake
  | railDesktopSynchronized
  | railPostHandshakeQueueReleased
  | railExecuteResult
  | railExecuteFailed
  | railApplicationId
  | railControl
  | autoReconnected
  | autoReconnecting
  | displayResizeFallback
  | image (buffer : List UInt32) (width height : NonZeroU16)
  | desktopUpdate (update : DesktopUpdate)
  /-- The error, as `report().with_locations()` renders it. -/
  | connectionFailure (report : String)
  /-- The reason, or the error as `report()` renders it. -/
  | terminated (result : Except String String)
  | pointerDefault
  | pointerHidden
  | pointerPosition (x y : UInt16)
  | pointerBitmap (pointer : DecodedPointer)

/-! ### Arithmetic and pixels -/

/-- `u16::checked_sub`: none below zero. -/
def checkedSub (a b : UInt16) : Option UInt16 := if b ≤ a then some (a - b) else none

/-- `u16::checked_add`: none beyond 16 bits. -/
def checkedAdd (a b : UInt16) : Option UInt16 :=
  if a.toNat + b.toNat < 2 ^ 16 then some (a + b) else none

/-- `usize::checked_mul`: none beyond 64 bits. -/
def checkedMul (a b : Nat) : Option Nat := if a * b < 2 ^ 64 then some (a * b) else none

/-- `rdp_u32_pixels_to_bgra`: the client's `0x00RRGGBB` pixels as opaque BGRA bytes. -/
def rdpU32PixelsToBgra (buffer : List UInt32) : List UInt8 :=
  buffer.flatMap fun (pixel : UInt32) =>
    [pixel.toUInt8, (pixel >>> 8).toUInt8, (pixel >>> 16).toUInt8, 0xff]

@[simp] theorem length_rdpU32PixelsToBgra (buffer : List UInt32) :
    (rdpU32PixelsToBgra buffer).length = 4 * buffer.length := by
  induction buffer with
  | nil => rfl
  | cons pixel buffer ih =>
    simp only [rdpU32PixelsToBgra, List.flatMap_cons, List.length_append, List.length_cons,
      List.length_nil] at ih ⊢
    omega

example : rdpU32PixelsToBgra [0x00112233, 0x00abcdef]
    = [0x33, 0x22, 0x11, 0xff, 0xef, 0xcd, 0xab, 0xff] := by decide

/-! ### The mapper -/

/-- `PendingCursor`: the cursor state published before the session was announced. -/
structure PendingCursor where
  appearance : Option HelperEvent
  position : Option (UInt16 × UInt16)
  deriving DecidableEq, Repr

namespace PendingCursor

/-- `PendingCursor::default`, and what `clear` leaves: no shape, no position. -/
def empty : PendingCursor := ⟨none, none⟩

/-- `PendingCursor::record`. Other events are refused by a debug assertion. -/
def record (cursor : PendingCursor) (event : HelperEvent) : PendingCursor :=
  match event with
  | .cursorPosition x y => { cursor with position := some (x, y) }
  | .cursorDefault | .cursorHidden | .cursorRgbaBytes .. => { cursor with appearance := some event }
  | _ => cursor

/-- The events `PendingCursor::append_to` appends. It leaves the slot empty. -/
def events (cursor : PendingCursor) : List HelperEvent :=
  cursor.appearance.toList ++ (cursor.position.map fun p => .cursorPosition p.1 p.2).toList

end PendingCursor

/-- `RdpOutputMapper`: whether the client knows of the session, the size of its screen, and the cursor that
waits. -/
structure RdpOutputMapper where
  connected : Bool
  baseSize : Option (UInt16 × UInt16)
  pendingCursor : PendingCursor
  deriving DecidableEq, Repr

namespace RdpOutputMapper

/-- `RdpOutputMapper::default`: not connected, and no size known. -/
def default : RdpOutputMapper := ⟨false, none, .empty⟩

/-- `RdpOutputMapper::reset_session`: as at the start. -/
def resetSession (_ : RdpOutputMapper) : RdpOutputMapper where
  connected := false
  baseSize := none
  pendingCursor := .empty

/-- `RdpOutputMapper::map_cursor`: it waits until the client knows of the session. -/
def mapCursor (mapper : RdpOutputMapper) (event : HelperEvent) :
    RdpOutputMapper × List HelperEvent :=
  if mapper.connected then (mapper, [event])
  else ({ mapper with pendingCursor := mapper.pendingCursor.record event }, [])

/-- The base frame branch, shared by `Image` and by a `DesktopUpdate` of the full extent. -/
def mapBaseFrame (mapper : RdpOutputMapper) (width height : UInt16) (bgra : List UInt8) :
    RdpOutputMapper × List HelperEvent :=
  if mapper.connected then
    ({ mapper with baseSize := some (width, height) }, [.frame width height bgra])
  else
    ({ connected := true, baseSize := some (width, height), pendingCursor := .empty },
      .connected width height :: mapper.pendingCursor.events ++ [.frame width height bgra])

/-- The `DesktopUpdate` branch of `map`: the region has to fit the screen, and the pixels the region. -/
def mapDesktopUpdate (mapper : RdpOutputMapper) (update : DesktopUpdate) :
    RdpOutputMapper × List HelperEvent :=
  let width := update.width.get
  let height := update.height.get
  let region := update.region
  match (checkedSub region.right region.left).bind (checkedAdd · 1),
      (checkedSub region.bottom region.top).bind (checkedAdd · 1) with
  | some regionWidth, some regionHeight =>
    -- an empty, overhanging or mis-sized region is dropped
    if regionWidth = 0 ∨ regionHeight = 0 ∨ region.right ≥ width ∨ region.bottom ≥ height ∨
        checkedMul regionWidth.toNat regionHeight.toNat ≠ some update.buffer.length then
      (mapper, [])
    else
      let bgra := rdpU32PixelsToBgra update.buffer
      -- the full extent is a new base frame
      if region.left = 0 ∧ region.top = 0 ∧ regionWidth = width ∧ regionHeight = height then
        mapper.mapBaseFrame width height bgra
      -- any other region needs an announced session and a base frame of its size
      else if !mapper.connected then (mapper, [])
      else if mapper.baseSize ≠ some (width, height) then (mapper, [])
      else
        (mapper, [.frameBgraRects width height
          [⟨region.left, region.top, regionWidth, regionHeight, bgra.length⟩] bgra])
  | _, _ => (mapper, [])

/-- The cursor event a pointer bitmap stands for: an empty bitmap hides the cursor. -/
def pointerCursor (pointer : DecodedPointer) : HelperEvent :=
  if pointer.width = 0 ∨ pointer.height = 0 then .cursorHidden
  else .cursorRgbaBytes pointer.width pointer.height pointer.hotspotX pointer.hotspotY
    pointer.bitmapData

/-- `RdpOutputMapper::map`: an event of the session as events for the client. -/
def map (mapper : RdpOutputMapper) (event : RdpOutputEvent) : RdpOutputMapper × List HelperEvent :=
  match event with
  | .displayResizeFallback => (mapper.resetSession, [.reconnecting .displayUpdate none])
  | .image buffer width height =>
    mapper.mapBaseFrame width.get height.get (rdpU32PixelsToBgra buffer)
  | .desktopUpdate update => mapper.mapDesktopUpdate update
  | .connectionFailure report => (mapper.resetSession, [.connectionFailure report])
  | .terminated (.ok reason) => (mapper.resetSession, [.terminated reason])
  | .terminated (.error report) => (mapper.resetSession, [.terminated report])
  | .pointerDefault => mapper.mapCursor .cursorDefault
  | .pointerHidden => mapper.mapCursor .cursorHidden
  | .pointerPosition x y => mapper.mapCursor (.cursorPosition x y)
  | .pointerBitmap pointer => mapper.mapCursor (pointerCursor pointer)
  -- the client's other events are none of the consumer's business
  | .connected | .loginComplete | .postLogonDisplayRedraw | .malformedBitmapDisplayRedraw
  | .monitorLayout | .windowingOrders | .railHandshake | .railDesktopSynchronized
  | .railPostHandshakeQueueReleased | .railExecuteResult | .railExecuteFailed
  | .railApplicationId | .railControl | .autoReconnected | .autoReconnecting => (mapper, [])

end RdpOutputMapper

/-! ### What one call emits -/

namespace RdpOutputEvent

/-- The events that make the mapper forget the session. -/
def isReset : RdpOutputEvent → Bool
  | .displayResizeFallback | .connectionFailure .. | .terminated .. => true
  | _ => false

/-- The cursor event a pointer event stands for. -/
def pointerEvent : RdpOutputEvent → Option HelperEvent
  | .pointerDefault => some .cursorDefault
  | .pointerHidden => some .cursorHidden
  | .pointerPosition x y => some (.cursorPosition x y)
  | .pointerBitmap pointer => some (RdpOutputMapper.pointerCursor pointer)
  | _ => none

/-- An image carries one pixel for every position of its extent. -/
def ImageOk : RdpOutputEvent → Prop
  | .image buffer width height => buffer.length = width.get.toNat * height.get.toNat
  | _ => True

theorem isCursor_of_pointerEvent {e : RdpOutputEvent} {c : HelperEvent}
    (h : e.pointerEvent = some c) : c.isCursor = true := by
  cases e <;> simp only [pointerEvent, Option.some.injEq, reduceCtorEq] at h
  case pointerBitmap pointer =>
    subst h
    unfold RdpOutputMapper.pointerCursor
    split <;> rfl
  all_goals (subst h; rfl)

end RdpOutputEvent

/-- A non-empty rectangle inside a canvas that owns the whole payload. -/
structure RegionOk (width height : UInt16) (rect : HelperFrameRect) (bgra : List UInt8) : Prop where
  width_pos : 0 < rect.width.toNat
  height_pos : 0 < rect.height.toNat
  right_le : rect.x.toNat + rect.width.toNat ≤ width.toNat
  bottom_le : rect.y.toNat + rect.height.toNat ≤ height.toNat
  byteLen : rect.byteLen = 4 * (rect.width.toNat * rect.height.toNat)
  length : bgra.length = 4 * (rect.width.toNat * rect.height.toNat)

/-- One call of `map`, by what it emits. -/
inductive Emits (mapper : RdpOutputMapper) :
    RdpOutputEvent → RdpOutputMapper → List HelperEvent → Prop
  | ignored (e : RdpOutputEvent) (hr : e.isReset = false) (hp : e.pointerEvent = none) :
    Emits mapper e mapper []
  /-- The session ends, and everything known about it is forgotten. -/
  | reset (e : RdpOutputEvent) (b : HelperEvent) (hr : e.isReset = true) (hb : b.isBarrier = true) :
    Emits mapper e .default [b]
  /-- The first complete picture of a session announces it. -/
  | announce (e : RdpOutputEvent) (width height : UInt16) (bgra : List UInt8)
    (hr : e.isReset = false) (hp : e.pointerEvent = none)
    (hlen : e.ImageOk → bgra.length = 4 * (width.toNat * height.toNat))
    (hc : mapper.connected = false) :
    Emits mapper e ⟨true, some (width, height), .empty⟩
      (.connected width height :: mapper.pendingCursor.events ++ [.frame width height bgra])
  | frame (e : RdpOutputEvent) (width height : UInt16) (bgra : List UInt8)
    (hr : e.isReset = false) (hp : e.pointerEvent = none)
    (hlen : e.ImageOk → bgra.length = 4 * (width.toNat * height.toNat))
    (hc : mapper.connected = true) :
    Emits mapper e { mapper with baseSize := some (width, height) } [.frame width height bgra]
  /-- A dirty region that fits the base frame. -/
  | region (e : RdpOutputEvent) (width height : UInt16) (rect : HelperFrameRect) (bgra : List UInt8)
    (hr : e.isReset = false) (hp : e.pointerEvent = none) (hc : mapper.connected = true)
    (hbase : mapper.baseSize = some (width, height)) (hrect : RegionOk width height rect bgra) :
    Emits mapper e mapper [.frameBgraRects width height [rect] bgra]
  | cursor (e : RdpOutputEvent) (c : HelperEvent) (hr : e.isReset = false)
    (hp : e.pointerEvent = some c) (hc : mapper.connected = true) : Emits mapper e mapper [c]
  /-- Before the session is announced the cursor is only recorded. -/
  | record (e : RdpOutputEvent) (c : HelperEvent) (hr : e.isReset = false)
    (hp : e.pointerEvent = some c) (hc : mapper.connected = false) :
    Emits mapper e { mapper with pendingCursor := mapper.pendingCursor.record c } []

namespace RdpOutputMapper

theorem mapCursor_emits (mapper : RdpOutputMapper) {e : RdpOutputEvent} {c : HelperEvent}
    (hr : e.isReset = false) (hp : e.pointerEvent = some c) :
    Emits mapper e (mapper.mapCursor c).1 (mapper.mapCursor c).2 := by
  unfold mapCursor
  split
  · next hc => exact .cursor e c hr hp hc
  · next hc => exact .record e c hr hp (by simpa using hc)

theorem mapBaseFrame_emits (mapper : RdpOutputMapper) {e : RdpOutputEvent} {width height : UInt16}
    {bgra : List UInt8} (hr : e.isReset = false) (hp : e.pointerEvent = none)
    (hlen : e.ImageOk → bgra.length = 4 * (width.toNat * height.toNat)) :
    Emits mapper e (mapper.mapBaseFrame width height bgra).1
      (mapper.mapBaseFrame width height bgra).2 := by
  unfold mapBaseFrame
  split
  · next hc => exact .frame e width height bgra hr hp hlen hc
  · next hc => exact .announce e width height bgra hr hp hlen (by simpa using hc)

/-- The extent of an inclusive span that passed the checked arithmetic. -/
theorem checkedSpan_eq {low high span : UInt16}
    (h : (checkedSub high low).bind (checkedAdd · 1) = some span) :
    low.toNat + span.toNat = high.toNat + 1 := by
  unfold checkedSub at h
  split at h
  · next hle =>
    simp only [Option.bind_some, checkedAdd] at h
    split at h
    · next hlt =>
      -- neither the subtraction nor the addition wrapped
      have hspan := Option.some.inj h
      have hsub : (high - low).toNat = high.toNat - low.toNat := UInt16.toNat_sub_of_le _ _ hle
      have hle' : low.toNat ≤ high.toNat := hle
      rw [← hspan, UInt16.toNat_add, Nat.mod_eq_of_lt hlt, hsub, UInt16.toNat_one]
      omega
    · simp at h
  · simp at h

theorem mapDesktopUpdate_emits (mapper : RdpOutputMapper) (update : DesktopUpdate) :
    Emits mapper (.desktopUpdate update) (mapper.mapDesktopUpdate update).1
      (mapper.mapDesktopUpdate update).2 := by
  have hignored : Emits mapper (.desktopUpdate update) mapper [] := .ignored _ rfl rfl
  unfold mapDesktopUpdate
  simp only
  split
  · next regionWidth regionHeight hwidth hheight =>
    split
    · exact hignored
    · next hok =>
      simp only [not_or, not_not, ge_iff_le, UInt16.not_le] at hok
      obtain ⟨hw, hh, hright, hbottom, hpixels⟩ := hok
      -- the product that the buffer was compared with did not overflow
      have hlen : update.buffer.length = regionWidth.toNat * regionHeight.toNat := by
        unfold checkedMul at hpixels
        split at hpixels
        · exact (Option.some.inj hpixels).symm
        · simp at hpixels
      split
      · next hfull =>
        obtain ⟨-, -, rfl, rfl⟩ := hfull
        exact mapBaseFrame_emits mapper rfl rfl fun _ => by simp [hlen]
      · split
        · exact hignored
        · next hc =>
          split
          · exact hignored
          · next hbase =>
            refine .region _ _ _ _ _ rfl rfl (by simpa using hc) (by simpa using hbase) ?_
            -- an inclusive span that ends inside the canvas fits into it
            have hx := checkedSpan_eq hwidth
            have hy := checkedSpan_eq hheight
            have hright' : update.region.right.toNat < update.width.get.toNat := hright
            have hbottom' : update.region.bottom.toNat < update.height.get.toNat := hbottom
            exact
              { width_pos := Nat.pos_of_ne_zero fun h => hw (UInt16.toNat_inj.mp h)
                height_pos := Nat.pos_of_ne_zero fun h => hh (UInt16.toNat_inj.mp h)
                right_le := by simp only; omega
                bottom_le := by simp only; omega
                byteLen := by simp [hlen]
                length := by simp [hlen] }
  · exact hignored

theorem map_emits (mapper : RdpOutputMapper) (e : RdpOutputEvent) :
    Emits mapper e (mapper.map e).1 (mapper.map e).2 := by
  cases e with
  | displayResizeFallback => exact .reset _ _ rfl rfl
  | connectionFailure report => exact .reset _ _ rfl rfl
  | terminated result => cases result <;> exact .reset _ _ rfl rfl
  | image buffer width height =>
    refine mapBaseFrame_emits mapper rfl rfl fun himage => ?_
    rw [length_rdpU32PixelsToBgra, himage]
  | desktopUpdate update => exact mapDesktopUpdate_emits mapper update
  | pointerDefault | pointerHidden | pointerPosition | pointerBitmap =>
    exact mapCursor_emits mapper rfl rfl
  | _ => exact .ignored _ rfl rfl

end RdpOutputMapper

/-! ### Runs -/

/-- The mapper after a sequence of client events. -/
def mapperAfter (inputs : List RdpOutputEvent) : RdpOutputMapper :=
  (Machine.run RdpOutputMapper.map .default inputs).1

/-- The helper events emitted for a sequence of client events, in order. -/
def mapped (inputs : List RdpOutputEvent) : List HelperEvent :=
  (Machine.run RdpOutputMapper.map .default inputs).2

/-- The helper events emitted for the client event `e` after `inputs`. -/
def batch (inputs : List RdpOutputEvent) (e : RdpOutputEvent) : List HelperEvent :=
  ((mapperAfter inputs).map e).2

theorem mapped_concat (inputs : List RdpOutputEvent) (e : RdpOutputEvent) :
    mapped (inputs ++ [e]) = mapped inputs ++ batch inputs e := by
  rw [mapped, Machine.run_concat]
  rfl

theorem mapperAfter_concat (inputs : List RdpOutputEvent) (e : RdpOutputEvent) :
    mapperAfter (inputs ++ [e]) = ((mapperAfter inputs).map e).1 := by
  rw [mapperAfter, Machine.run_concat]
  rfl

end Rdp
end Navop
