import NavopExtensions.Lib.Fallible
import NavopExtensions.Lib.Raster
import NavopExtensions.Vnc.Mailbox

/-!
# The framebuffer of a VNC session

`RgbaFramebuffer` (`vnc-helper/src/framebuffer.rs`) and `VncFramebufferState`
(`vnc-helper/src/vnc_encoding.rs`), with the session that feeds it: server events are handled one by
one, the damage is flushed into the mailbox now and then, and the host receives from the mailbox at
any time.

Slices that end outside the buffer panic in the source; here the access has no result and the failure
is `panic`.
-/

namespace Navop
namespace Vnc

open Checks Raster

/-- `u16::saturating_add`: the sum, or the largest value if it is beyond that. -/
def saturatingAdd (a b : UInt16) : UInt16 :=
  if a.toNat + b.toNat < 65536 then a + b else 65535

/-- An error, or a panic. -/
inductive Failure where
  | error (message : String)
  | panic
  deriving DecidableEq, Repr

/-! ### The framebuffer -/

/-- `RgbaFramebuffer`: the pixels go with the fact that there are as many as the size says. -/
structure RgbaFramebuffer where
  width : UInt16
  height : UInt16
  rgba : List UInt8
  length : rgba.length = width.toNat * height.toNat * 4

/-- A rectangle in `u16` coordinates, as numbers. -/
def rectOf (x y width height : UInt16) : Raster.Rect :=
  ⟨x.toNat, y.toNat, width.toNat, height.toNat⟩

namespace RgbaFramebuffer

/-- `RgbaFramebuffer::new`: everything black and transparent. -/
def new (width height : UInt16) : RgbaFramebuffer where
  width := width
  height := height
  rgba := List.replicate (width.toNat * height.toNat * 4) 0
  length := List.length_replicate

variable (framebuffer : RgbaFramebuffer)

/-- `RgbaFramebuffer::clone_bgra`: red and blue change places. -/
def cloneBgra : List UInt8 := swapFirstThird framebuffer.rgba

/-- `RgbaFramebuffer::clone_bgra_rect`. A row is a whole number of pixels, so the channels may be
exchanged in all the rows at once. -/
def cloneBgraRect (x y width height : UInt16) : Except Failure (List UInt8) :=
  match readRows framebuffer.width.toNat (rectOf x y width height) framebuffer.rgba with
  | some pixels => .ok (swapFirstThird pixels)
  | none => .error .panic

/-- The loop of `patch_rgba_rect`: row by row, and it keeps the number of pixels. -/
def writeRect (rect : Raster.Rect) (block : List UInt8)
    (hblock : block.length = rect.width * rect.height * 4) : Except Failure RgbaFramebuffer :=
  match hwrite : writeRows framebuffer.width.toNat rect block framebuffer.rgba with
  | some rgba => .ok { framebuffer with
      rgba := rgba
      -- the rows of the block take the place of as many bytes
      length := (writeRows_eq_some hblock hwrite).2.trans framebuffer.length }
  | none => .error .panic

/-- `RgbaFramebuffer::patch_rgba_rect`: the rectangle has to be inside, and the pixels as many as it
says. -/
def patchRgbaRect (x y width height : UInt16) (rectRgba : List UInt8) :
    Except Failure RgbaFramebuffer :=
  if hlength : rectRgba.length = width.toNat * height.toNat * 4 then do
    ensure (x ≤ framebuffer.width) (.error "rectangle x is outside framebuffer")
    ensure (y ≤ framebuffer.height) (.error "rectangle y is outside framebuffer")
    -- a sum beyond 16 bits saturates, which is wider than any framebuffer but the widest
    ensure (saturatingAdd x width ≤ framebuffer.width)
      (.error "rectangle width exceeds framebuffer")
    ensure (saturatingAdd y height ≤ framebuffer.height)
      (.error "rectangle height exceeds framebuffer")
    framebuffer.writeRect (rectOf x y width height) rectRgba hlength
  else .error (.error "invalid rectangle buffer length")

/-- `RgbaFramebuffer::copy_rect`. -/
def copyRect (srcX srcY dstX dstY width height : UInt16) : Except Failure RgbaFramebuffer := do
  ensure (srcX ≤ framebuffer.width) (.error "source x is outside framebuffer")
  ensure (srcY ≤ framebuffer.height) (.error "source y is outside framebuffer")
  ensure (dstX ≤ framebuffer.width) (.error "destination x is outside framebuffer")
  ensure (dstY ≤ framebuffer.height) (.error "destination y is outside framebuffer")
  ensure (saturatingAdd srcX width ≤ framebuffer.width) (.error "source width exceeds framebuffer")
  ensure (saturatingAdd srcY height ≤ framebuffer.height)
    (.error "source height exceeds framebuffer")
  ensure (saturatingAdd dstX width ≤ framebuffer.width)
    (.error "destination width exceeds framebuffer")
  ensure (saturatingAdd dstY height ≤ framebuffer.height)
    (.error "destination height exceeds framebuffer")
  match readRows framebuffer.width.toNat (rectOf srcX srcY width height) framebuffer.rgba with
  | some pixels => framebuffer.patchRgbaRect dstX dstY width height pixels
  | none => .error .panic

end RgbaFramebuffer

/-! ### The damage -/

/-- `Rect`, of the VNC client library. -/
structure VncRect where
  x : UInt16
  y : UInt16
  width : UInt16
  height : UInt16
  deriving DecidableEq, Repr

/-- `VncFramebufferState`: the pixels, and what of them the client has not seen. -/
structure VncFramebufferState where
  framebuffer : Option RgbaFramebuffer
  keyframe : Bool
  dirtyRects : List VncRect

/-- `vnc_capabilities`: what the client may offer to the user. -/
def vncCapabilities : RemoteDesktopCapabilities where
  resize := .localScaleOnly
  clipboardText := true
  cursorShape := false
  audio := false
  fileTransfer := false

/-- `let _ = output_tx.send(..)`: a mailbox that is closed keeps its state. -/
def sendIgnored (mailbox : Mailbox.State) (output : RemoteDesktopOutput) : Mailbox.State :=
  match Mailbox.send mailbox output with
  | .ok mailbox => mailbox
  | .error _ => mailbox

namespace VncFramebufferState

/-- `VncFramebufferState::default`: no pixels before the size is known. -/
def default : VncFramebufferState := ⟨none, false, []⟩

/-- `VncFramebufferState::set_resolution`: nothing is left of the state before. -/
def setResolution (width height : UInt16) (mailbox : Mailbox.State) :
    VncFramebufferState × Mailbox.State :=
  (⟨some (.new width height), true, []⟩,
    sendIgnored mailbox (.connected width height vncCapabilities))

variable (state : VncFramebufferState)

/-- `VncFramebufferState::patch_rect`: without a framebuffer nothing happens. -/
def patchRect (rect : VncRect) (data : List UInt8) : Except Failure VncFramebufferState :=
  match state.framebuffer with
  -- pixels without a size are dropped
  | none => .ok state
  | some framebuffer => do
    let framebuffer ← framebuffer.patchRgbaRect rect.x rect.y rect.width rect.height data
    return { state with
      framebuffer := some framebuffer
      dirtyRects := state.dirtyRects ++ [rect] }

/-- `VncFramebufferState::copy_rect`. -/
def copyRect (dst src : VncRect) : Except Failure VncFramebufferState :=
  match state.framebuffer with
  | none => .ok state
  | some framebuffer => do
    let framebuffer ← framebuffer.copyRect src.x src.y dst.x dst.y dst.width dst.height
    return { state with
      framebuffer := some framebuffer
      dirtyRects := state.dirtyRects ++ [dst] }

/-- The rectangle of a delta for a dirty rectangle. -/
def frameRect (rect : VncRect) : RemoteDesktopFrameRect :=
  ⟨rect.x, rect.y, rect.width, rect.height, rect.width.toNat * rect.height.toNat * 4⟩

/-- The pixels of the dirty rectangles, one after another. -/
def cloneRects (framebuffer : RgbaFramebuffer) : List VncRect → Except Failure (List UInt8)
  | [] => .ok []
  | rect :: rects => do
    -- the pixels are those of now, not of the moment the rectangle was marked
    let pixels ← framebuffer.cloneBgraRect rect.x rect.y rect.width rect.height
    let rest ← cloneRects framebuffer rects
    return pixels ++ rest

/-- `VncFramebufferState::flush_frame`: the whole of it at first, and after that what has changed. -/
def flushFrame (mailbox : Mailbox.State) : Except Failure (VncFramebufferState × Mailbox.State) :=
  match state.framebuffer with
  | none => .ok (state, mailbox)
  | some framebuffer =>
    -- also a keyframe waits for the first pixels
    if state.dirtyRects.isEmpty then .ok (state, mailbox)
    -- after a new size the client has nothing that a delta could change
    else if state.keyframe then
      .ok ({ state with keyframe := false, dirtyRects := [] },
        sendIgnored mailbox
          (.frame framebuffer.width framebuffer.height framebuffer.cloneBgra))
    else do
      let bgra ← cloneRects framebuffer state.dirtyRects
      return ({ state with dirtyRects := [] },
        sendIgnored mailbox (.frameBgraRects framebuffer.width framebuffer.height
          (state.dirtyRects.map frameRect) bgra))

end VncFramebufferState

/-! ### Sessions -/

/-- `VncEvent`, as far as events are handled; bytes of a cut buffer are given as what
`decode_clipboard_text` makes of them. -/
inductive VncEvent where
  | setResolution (width height : UInt16)
  | rawImage (rect : VncRect) (data : List UInt8)
  | copy (dst src : VncRect)
  | text (text : String)
  | cutTextBytes (decoded : Option String)
  | error (message : String)
  | jpegImage
  | other
  deriving DecidableEq, Repr

/-- Why a session has come to its end: an event could not be handled, or flushing panicked. -/
inductive Stop where
  | event (failure : Failure)
  | flush
  deriving DecidableEq, Repr

/-- A session and the mailbox it sends to. -/
structure Session where
  framebuffer : VncFramebufferState
  mailbox : Mailbox.State
  stopped : Option Stop

/-- One step of the session or of the host. -/
inductive Step where
  | event (event : VncEvent)
  | flush
  | recv
  deriving DecidableEq, Repr

namespace Session

/-- `ConnectedVncSession::handle_event`: pixels into the framebuffer, all else into the mailbox. -/
def handleEvent (session : Session) : VncEvent → Except Failure Session
  | .setResolution width height =>
    let next := VncFramebufferState.setResolution width height session.mailbox
    .ok { session with framebuffer := next.1, mailbox := next.2 }
  | .rawImage rect data => do
    let framebuffer ← session.framebuffer.patchRect rect data
    return { session with framebuffer := framebuffer }
  | .copy dst src => do
    let framebuffer ← session.framebuffer.copyRect dst src
    return { session with framebuffer := framebuffer }
  | .text text =>
    .ok { session with mailbox := sendIgnored session.mailbox (.clipboardText text) }
  | .cutTextBytes (some text) =>
    .ok { session with mailbox := sendIgnored session.mailbox (.clipboardText text) }
  | .cutTextBytes none => .ok session
  | .error message => .error (.error message)
  | .jpegImage =>
    .ok { session with
      mailbox := sendIgnored session.mailbox (.status "VNC JPEG rectangles are not enabled") }
  | .other => .ok session

/-- One step. A session that has come to its end does nothing; the host goes on receiving. -/
def step (session : Session) : Step → Session × List RemoteDesktopOutput
  | .event event =>
    if session.stopped.isSome then (session, [])
    else
      match session.handleEvent event with
      | .ok session => (session, [])
      | .error failure => ({ session with stopped := some (.event failure) }, [])
  | .flush =>
    if session.stopped.isSome then (session, [])
    else
      match session.framebuffer.flushFrame session.mailbox with
      | .ok (framebuffer, mailbox) =>
        ({ session with framebuffer := framebuffer, mailbox := mailbox }, [])
      | .error _ => ({ session with stopped := some .flush }, [])
  | .recv =>
    ({ session with mailbox := (Mailbox.recv session.mailbox).1 },
      (Mailbox.recv session.mailbox).2.toList)

/-- A session that starts with this mailbox: what it becomes, and what the host receives. -/
def run (mailbox : Mailbox.State) (steps : List Step) : Session × List RemoteDesktopOutput :=
  Machine.run step ⟨.default, mailbox, none⟩ steps

end Session

end Vnc
end Navop
