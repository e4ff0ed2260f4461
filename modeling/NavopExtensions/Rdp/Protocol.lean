import Mathlib

/-!
# The RDP helper's event protocol

The events the helper writes to its host (`rdp-helper/src/protocol.rs`), with every field they
carry. Byte payloads are lists of `UInt8`, `u16` fields are `UInt16`, and `usize` byte counts are
`Nat`. Only the event type and its classification live here; the JSON and binary encodings are not
read by the mailbox, the output mapper or the pacing loop.
-/

namespace Navop
namespace Rdp

/-- `HelperReconnectReason`: why the session starts anew. -/
inductive HelperReconnectReason where
  | displayUpdate
  | sessionError
  | connectionLost
  | manual
  deriving DecidableEq, Repr

/-- `HelperFrameRect`: one damaged rectangle and the number of payload bytes it owns. -/
structure HelperFrameRect where
  x : UInt16
  y : UInt16
  width : UInt16
  height : UInt16
  byteLen : Nat
  deriving DecidableEq, Repr

/-- `HelperEvent`: what the helper tells the client. -/
inductive HelperEvent where
  | status (message : String)
  | connected (width height : UInt16)
  | frameBgraBytes (width height : UInt16) (bgra : List UInt8)
  | frameBgraRects (width height : UInt16) (rects : List HelperFrameRect) (bgra : List UInt8)
  | cursorDefault
  | cursorHidden
  | cursorPosition (x y : UInt16)
  | cursorRgbaBytes (width height hotspotX hotspotY : UInt16) (rgba : List UInt8)
  | clipboardText (text : String)
  | clipboardFilesReady (transferId : UInt64) (paths : List String)
  | clipboardTransferFailed (transferId : UInt64) (message : String)
  | reconnecting (reason : HelperReconnectReason) (delaySecs : Option UInt64)
  | connectionFailure (message : String)
  | terminated (message : String)
  deriving DecidableEq, Repr

namespace HelperEvent

/-- `HelperEvent::frame`: a complete frame. -/
def frame (width height : UInt16) (bgra : List UInt8) : HelperEvent :=
  .frameBgraBytes width height bgra

/-- Whether it is a complete frame. -/
def isFrame : HelperEvent → Bool
  | .frameBgraBytes .. => true
  | _ => false

/-- A delta: a list of damaged rectangles. -/
def isDelta : HelperEvent → Bool
  | .frameBgraRects .. => true
  | _ => false

/-- The events `discard_pending_cursor_events` removes. -/
def isCursor : HelperEvent → Bool
  | .cursorDefault | .cursorHidden | .cursorPosition .. | .cursorRgbaBytes .. => true
  | _ => false

/-- The two events after which the session is over. -/
def isTerminal : HelperEvent → Bool
  | .connectionFailure .. | .terminated .. => true
  | _ => false

/-- The events that end a session: the terminal ones and `Reconnecting`. -/
def isBarrier : HelperEvent → Bool
  | .reconnecting .. | .connectionFailure .. | .terminated .. => true
  | _ => false

/-- The events that belong to a session: pixels and cursors. -/
def isSessionEvent (e : HelperEvent) : Bool := e.isFrame || e.isDelta || e.isCursor

/-- The announcement of a session. -/
def isConnected : HelperEvent → Bool
  | .connected .. => true
  | _ => false

/-- Everything that travels through the mailbox's control queue. -/
def isControl (e : HelperEvent) : Bool := !e.isFrame && !e.isDelta

@[simp] theorem isControl_eq_true (e : HelperEvent) :
    e.isControl = true ↔ e.isFrame = false ∧ e.isDelta = false := by
  simp [isControl]

theorem isBarrier_of_isTerminal {e : HelperEvent} (h : e.isTerminal = true) :
    e.isBarrier = true := by
  cases e <;> first | rfl | nomatch h

/-! The classes exclude each other: pixels, cursor events, barriers, the announcement. -/

theorem isControl_of_isBarrier {e : HelperEvent} (h : e.isBarrier = true) :
    e.isControl = true := by
  cases e <;> first | rfl | nomatch h

theorem isBarrier_of_isFrame {e : HelperEvent} (h : e.isFrame = true) : e.isBarrier = false := by
  cases e <;> first | rfl | nomatch h

theorem isBarrier_of_isDelta {e : HelperEvent} (h : e.isDelta = true) : e.isBarrier = false := by
  cases e <;> first | rfl | nomatch h

theorem isControl_of_isCursor {e : HelperEvent} (h : e.isCursor = true) : e.isControl = true := by
  cases e <;> first | rfl | nomatch h

theorem isBarrier_of_isCursor {e : HelperEvent} (h : e.isCursor = true) :
    e.isBarrier = false := by
  cases e <;> first | rfl | nomatch h

theorem isFrame_of_isCursor {e : HelperEvent} (h : e.isCursor = true) : e.isFrame = false := by
  cases e <;> first | rfl | nomatch h

theorem isConnected_of_isCursor {e : HelperEvent} (h : e.isCursor = true) :
    e.isConnected = false := by
  cases e <;> first | rfl | nomatch h

/-- The cursor events that say how the cursor looks, as opposed to where it is. -/
def isAppearance : HelperEvent → Bool
  | .cursorDefault | .cursorHidden | .cursorRgbaBytes .. => true
  | _ => false

end HelperEvent

/-! ### The cursor a consumer shows -/

/-- What a consumer knows about the cursor: the last appearance and the last position since the
session began. -/
structure CursorState where
  appearance : Option HelperEvent
  position : Option (UInt16 × UInt16)
  deriving DecidableEq, Repr

namespace CursorState

/-- Nothing is known yet. -/
def unknown : CursorState := ⟨none, none⟩

/-- Take one event into account. The end of a session forgets the cursor. -/
def apply (cursor : CursorState) (event : HelperEvent) : CursorState :=
  match event with
  | .cursorPosition x y => { cursor with position := some (x, y) }
  | .cursorDefault | .cursorHidden | .cursorRgbaBytes .. => { cursor with appearance := some event }
  | .reconnecting .. | .connectionFailure .. | .terminated .. => unknown
  | _ => cursor

/-- Take a sequence of events into account. -/
def applyAll (cursor : CursorState) (events : List HelperEvent) : CursorState :=
  events.foldl apply cursor

@[simp] theorem applyAll_nil (cursor : CursorState) : cursor.applyAll [] = cursor := rfl

theorem applyAll_append (cursor : CursorState) (xs ys : List HelperEvent) :
    cursor.applyAll (xs ++ ys) = (cursor.applyAll xs).applyAll ys := List.foldl_append

/-- The end of a session forgets whatever was known. -/
theorem apply_barrier {e : HelperEvent} (h : e.isBarrier = true) (cursor : CursorState) :
    cursor.apply e = unknown := by
  cases e <;> first | rfl | nomatch h

end CursorState

end Rdp
end Navop
