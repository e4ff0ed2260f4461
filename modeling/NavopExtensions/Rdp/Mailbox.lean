import NavopExtensions.Lib.Machine
import NavopExtensions.Rdp.Protocol

/-!
# The RDP output mailbox

The model of `rdp-helper/src/output_mailbox.rs`. The mailbox keeps a control queue, the latest
complete frame and a queue of pending deltas; `send` and `recv` each run under one lock, so a
state and one atomic transition per call describe every interleaving.

Conventions.

* Lists stand for `Vec` and `VecDeque`, front first; `Vec::push` in a loop becomes the list the
  loop produces.
* A `usize` sum over lengths of vectors in memory is a sum in `Nat`: a `Vec` holds at most
  `isize::MAX` bytes, so `saturating_add` never saturates where the result is compared with such
  a length. The product that a configured cap can overflow, the backlog budget, and the byte count
  that bounds the folding loop are reduced to what a `usize` holds (`usize`).
* The merge cap, read from `NAVOP_RDP_MERGE_CAP_BYTES` with a default of four mebibytes, is a
  parameter.
* `recv` blocks on a condition variable when nothing is queued; the model reports that pass of its
  loop as `RecvOutcome.wait`.
-/

namespace Navop
namespace Rdp

/-- `usize::MAX` on the 64-bit targets the helper ships for. -/
def usizeMax : Nat := 2 ^ 64 - 1

/-- What a `usize` holds of the result of a computation in a release build. -/
def usize (n : Nat) : Nat := n % 2 ^ 64

theorem usize_le (n : Nat) : usize n ≤ n := Nat.mod_le _ _

theorem usize_lt (n : Nat) : usize n < 2 ^ 64 := Nat.mod_lt _ (by decide)

/-- `slice::get(start..stop)`: none when the range is not inside. -/
def getRange {α : Type} (xs : List α) (start stop : Nat) : Option (List α) :=
  if start ≤ stop ∧ stop ≤ xs.length then some ((xs.drop start).take (stop - start)) else none

namespace Mailbox

/-! ### Payloads -/

/-- `DeltaEntry`: a rectangle of a delta together with the pixels it occupies in the payload. -/
abbrev DeltaEntry := HelperFrameRect × List UInt8

/-- The loop of `split_payload`, from byte `offset` of the payload on. -/
def splitPayloadFrom (bgra : List UInt8) (offset : Nat) :
    List HelperFrameRect → List DeltaEntry
  | [] => []
  | rect :: rects =>
    let stop := offset + rect.byteLen
    -- a payload that is too short leaves the rectangle without pixels
    (rect, (getRange bgra offset stop).getD []) :: splitPayloadFrom bgra stop rects

/-- `split_payload`: each rectangle with its part of the pixels. -/
def splitPayload (rects : List HelperFrameRect) (bgra : List UInt8) : List DeltaEntry :=
  splitPayloadFrom bgra 0 rects

/-- `join_payload`: the parts behind one another, and each rectangle says how long its own is. -/
def joinPayload (entries : List DeltaEntry) : List HelperFrameRect × List UInt8 :=
  (entries.map fun entry => { entry.1 with byteLen := entry.2.length },
    entries.flatMap fun entry => entry.2)

/-- The row loop of `push_band`: `slice row` is the row's part of the payload. A missing row
abandons the whole band. -/
def copyRows (slice : Nat → Option (List UInt8)) : List Nat → Option (List UInt8)
  | [] => some []
  | row :: rows =>
    match slice row with
    | none => none
    | some bytes => (copyRows slice rows).map (bytes ++ ·)

/-- `push_band`: the part it pushes, if any. -/
def pushBand (rect : HelperFrameRect) (pixels : List UInt8)
    (rowStart rowEnd columnStart columnEnd : Nat) : List DeltaEntry :=
  if rowStart ≥ rowEnd ∨ columnStart ≥ columnEnd then []
  else
    let rectLeft := rect.x.toNat
    let rectTop := rect.y.toNat
    let stride := rect.width.toNat * 4
    let bandWidth := columnEnd - columnStart
    -- rows and columns are counted on the screen, bytes from the corner of the rectangle
    let slice := fun row =>
      let start := (row - rectTop) * stride + (columnStart - rectLeft) * 4
      getRange pixels start (start + bandWidth * 4)
    match copyRows slice (List.range' rowStart (rowEnd - rowStart)) with
    -- a payload that is too short loses the band
    | none => []
    | some band =>
      [({ x := UInt16.ofNat columnStart
          y := UInt16.ofNat rowStart
          width := UInt16.ofNat bandWidth
          height := UInt16.ofNat (rowEnd - rowStart)
          byteLen := band.length }, band)]

/-- `trim_covered_pixels`: the parts of `rect` minus `cover`, in the order they are pushed. -/
def trimCoveredPixels (rect : HelperFrameRect) (pixels : List UInt8) (cover : HelperFrameRect) :
    List DeltaEntry :=
  let rectLeft := rect.x.toNat
  let rectTop := rect.y.toNat
  let rectRight := rectLeft + rect.width.toNat
  let rectBottom := rectTop + rect.height.toNat
  let coverLeft := cover.x.toNat
  let coverTop := cover.y.toNat
  let coverRight := coverLeft + cover.width.toNat
  let coverBottom := coverTop + cover.height.toNat
  let left := max coverLeft rectLeft
  let top := max coverTop rectTop
  let right := min coverRight rectRight
  let bottom := min coverBottom rectBottom
  -- they do not meet: the rectangle stays as it is
  if left ≥ right ∨ top ≥ bottom then [(rect, pixels)]
  else
    -- above the cover, below it, and then what is left and right of it
    pushBand rect pixels rectTop top rectLeft rectRight
      ++ pushBand rect pixels bottom rectBottom rectLeft rectRight
      ++ pushBand rect pixels top bottom rectLeft left
      ++ pushBand rect pixels top bottom right rectRight

/-- `MAX_MERGED_DELTA_RECTS`: beyond so many rectangles nothing is trimmed any more. -/
def maxMergedDeltaRects : Nat := 4096

/-- One cover of `fold_payload`: past the rectangle limit the cover is appended untrimmed. -/
def foldCover (entries : List DeltaEntry) (cover : DeltaEntry) : List DeltaEntry :=
  -- the entries may overlap from here on
  if entries.length > maxMergedDeltaRects then entries ++ [cover]
  else entries.flatMap (fun entry => trimCoveredPixels entry.1 entry.2 cover.1) ++ [cover]

/-- `fold_payload`: the covers one after another, each over what is there. -/
def foldPayload (entries covers : List DeltaEntry) : List DeltaEntry :=
  covers.foldl foldCover entries

/-- `merge_delta_payload`: the later pixels cover the earlier ones. -/
def mergeDeltaPayload (rects : List HelperFrameRect) (bgra : List UInt8)
    (nextRects : List HelperFrameRect) (nextBgra : List UInt8) :
    List HelperFrameRect × List UInt8 :=
  joinPayload (foldPayload (splitPayload rects bgra) (splitPayload nextRects nextBgra))

/-! ### Deltas -/

/-- `delta_payload_bytes`: the pixels that a delta carries. -/
def deltaPayloadBytes : HelperEvent → Nat
  | .frameBgraRects _ _ _ bgra => bgra.length
  | _ => 0

/-- `delta_extent_bytes`: the pixels of the whole screen. -/
def deltaExtentBytes : HelperEvent → Nat
  | .frameBgraRects width height _ _ => width.toNat * height.toNat * 4
  | _ => 0

/-- `merge_deltas`: the next delta alone survives when the sizes differ. -/
def mergeDeltas (previous next : HelperEvent) : HelperEvent :=
  match previous, next with
  | .frameBgraRects width height rects bgra,
      .frameBgraRects nextWidth nextHeight nextRects nextBgra =>
    if width = nextWidth ∧ height = nextHeight then
      let merged := mergeDeltaPayload rects bgra nextRects nextBgra
      .frameBgraRects width height merged.1 merged.2
    -- pixels of another size mean nothing any more
    else .frameBgraRects nextWidth nextHeight nextRects nextBgra
  | _, next => next

/-- `normalize_delta`: a delta folded over nothing: each of its rectangles covers those before it. -/
def normalizeDelta : HelperEvent → HelperEvent
  | .frameBgraRects width height rects bgra =>
    let joined := joinPayload (foldPayload [] (splitPayload rects bgra))
    .frameBgraRects width height joined.1 joined.2
  | event => event

/-- `frame_chunk`: some of the parts as an event of their own. -/
def frameChunk (width height : UInt16) (entries : List DeltaEntry) : HelperEvent :=
  let joined := joinPayload entries
  .frameBgraRects width height joined.1 joined.2

/-- `u16::try_from(n).unwrap_or(u16::MAX)`: the number, or the largest one. -/
def u16OrMax (n : Nat) : UInt16 := UInt16.ofNatClamp n

/-- `u16::saturating_add`: the sum, or the largest value if it is beyond that. -/
def u16SaturatingAdd (a b : UInt16) : UInt16 := u16OrMax (a.toNat + b.toNat)

/-- `band_rect`: some rows of a rectangle. -/
def bandRect (rect : HelperFrameRect) (row rows byteLen : Nat) : HelperFrameRect where
  x := rect.x
  y := u16SaturatingAdd rect.y (u16OrMax row)
  width := rect.width
  height := u16OrMax rows
  byteLen := byteLen

/-- The row loop of `split_entry_into_bands`, from `row` on. The second arm is the truncated
payload: what is left becomes one last band. -/
def bandsFrom (rect : HelperFrameRect) (pixels : List UInt8) (cap row : Nat) : List DeltaEntry :=
  let stride := rect.width.toNat * 4
  let height := rect.height.toNat
  if row < height then
    -- a row that is wider than the cap is a band of its own
    let rows := min (max (cap / stride) 1) (height - row)
    let start := row * stride
    match getRange pixels start (start + rows * stride) with
    | some band =>
      (bandRect rect row rows band.length, band) :: bandsFrom rect pixels cap (row + rows)
    | none => [(bandRect rect row (height - row) (pixels.length - start), pixels.drop start)]
  else []
termination_by rect.height.toNat - row

/-- `split_entry_into_bands`: as many rows at a time as fit, and at least one. -/
def splitEntryIntoBands (entry : DeltaEntry) (cap : Nat) : List DeltaEntry :=
  if entry.1.width.toNat * 4 = 0 ∨ entry.2.length ≤ cap then [entry]
  else bandsFrom entry.1 entry.2 cap 0

/-- The grouping loop of `split_delta_into_chunks`, with the chunk being filled. -/
def chunkEntries (cap : Nat) (current : List DeltaEntry) (currentBytes : Nat) :
    List DeltaEntry → List (List DeltaEntry)
  | [] => if current = [] then [] else [current]
  | entry :: rest =>
    -- an entry that is larger than the cap is a chunk of its own
    if current ≠ [] ∧ currentBytes + entry.2.length > cap then
      current :: chunkEntries cap [entry] entry.2.length rest
    else chunkEntries cap (current ++ [entry]) (currentBytes + entry.2.length) rest

/-- `split_delta_into_chunks`: bands, and as many of them in an event as fit. -/
def splitDeltaIntoChunks (event : HelperEvent) (cap : Nat) : List HelperEvent :=
  match event with
  | .frameBgraRects width height rects bgra =>
    let bands := (splitPayload rects bgra).flatMap (splitEntryIntoBands · cap)
    (chunkEntries cap [] 0 bands).map (frameChunk width height)
  | event => [event]

/-! ### The pending queue -/

/-- `MAX_PENDING_DELTA_EVENTS`: the deltas that wait at most. -/
def maxPendingDeltaEvents : Nat := 12

/-- `MAX_PENDING_DELTA_SCREENS`: the screens that their pixels may amount to. -/
def maxPendingDeltaScreens : Nat := 3

/-- `queued_bytes`, on the pending queue. -/
def queuedBytes (pending : List HelperEvent) : Nat := (pending.map deltaPayloadBytes).sum

/-- The shape the folding loop compares: number of events, then queued bytes. -/
def shape (pending : List HelperEvent) : Nat × Nat :=
  (pending.length, usize (queuedBytes pending))

/-- Lexicographic `<` on shapes, the order of Rust tuples. -/
def ShapeLt (a b : Nat × Nat) : Prop := a.1 < b.1 ∨ a.1 = b.1 ∧ a.2 < b.2

instance (a b : Nat × Nat) : Decidable (ShapeLt a b) :=
  inferInstanceAs (Decidable (a.1 < b.1 ∨ a.1 = b.1 ∧ a.2 < b.2))

/-- The position of a shape in the lexicographic order. -/
def shapeRank (a : Nat × Nat) : Nat := a.1 * 2 ^ 64 + a.2

theorem shapeRank_lt {a b : Nat × Nat} (ha : a.2 < 2 ^ 64) (h : ShapeLt a b) :
    shapeRank a < shapeRank b := by
  unfold ShapeLt at h
  unfold shapeRank
  omega

/-- The condition of the folding loop. -/
def Overfull (budget chunkBytes : Nat) (pending : List HelperEvent) : Prop :=
  2 ≤ pending.length ∧
    (maxPendingDeltaEvents ≤ pending.length ∨ budget < queuedBytes pending + chunkBytes)

instance (budget chunkBytes : Nat) (pending : List HelperEvent) :
    Decidable (Overfull budget chunkBytes pending) :=
  inferInstanceAs (Decidable (2 ≤ pending.length ∧ (_ ∨ _)))

/-- One pass of the folding loop: the two oldest events are merged, split again and put back at
the front. A queue of fewer than two events is put back as it was. -/
def foldOldestPair (cap : Nat) : List HelperEvent → List HelperEvent
  | oldest :: second :: rest => splitDeltaIntoChunks (mergeDeltas oldest second) cap ++ rest
  | pending => pending

/-- The folding loop of `queue_delta_with_cap`. It stops when the queue is no longer overfull, or
when the previous pass did not shrink the shape. -/
def foldOldest (cap budget chunkBytes : Nat) (previousShape : Nat × Nat)
    (pending : List HelperEvent) : List HelperEvent :=
  if Overfull budget chunkBytes pending then
    -- splitting may undo the merge: a pass that does not shrink the queue is the last
    if ShapeLt (shape pending) previousShape then
      foldOldest cap budget chunkBytes (shape pending) (foldOldestPair cap pending)
    else pending
  else pending
termination_by shapeRank previousShape
decreasing_by
  exact shapeRank_lt (usize_lt _) (by assumption)

/-- The body of the chunk loop of `queue_delta_with_cap`: make room, then push. -/
def pushChunk (cap budget : Nat) (pending : List HelperEvent) (chunk : HelperEvent) :
    List HelperEvent :=
  foldOldest cap budget (deltaPayloadBytes chunk) (usizeMax, usizeMax) pending ++ [chunk]

/-- What a delta becomes before it is queued: merged into the newest pending delta, which leaves
the queue, or normalized when there is none. -/
def mergeIntoNewest (pending : List HelperEvent) (delta : HelperEvent) : HelperEvent :=
  match pending.getLast? with
  -- the newest delta is the one that still changes, the older ones wait as they are
  | some previous => mergeDeltas previous delta
  | none => normalizeDelta delta

/-- The backlog budget of `queue_delta_with_cap`. -/
def backlogBudget (cap : Nat) (delta : HelperEvent) : Nat :=
  usize (max cap (deltaExtentBytes delta) * maxPendingDeltaScreens)

/-- `queue_delta_with_cap`, on the pending queue, which is all of the state it touches. -/
def queueDeltaWithCap (pending : List HelperEvent) (delta : HelperEvent) (cap : Nat) :
    List HelperEvent :=
  (splitDeltaIntoChunks (mergeIntoNewest pending delta) cap).foldl
    -- the budget is measured by the delta that comes in, not by the ones that wait
    (pushChunk cap (backlogBudget cap delta)) pending.dropLast

/-! ### The mailbox -/

/-- `State`: what waits in each of the three places, and who is still there. -/
structure State where
  control : List HelperEvent
  latestFrame : Option HelperEvent
  pendingDeltas : List HelperEvent
  senderCount : Nat
  receiverAlive : Bool
  deriving DecidableEq, Repr

/-- `MailboxClosed`. -/
inductive MailboxClosed where
  | mailboxClosed
  deriving DecidableEq, Repr

/-- `output_mailbox`: nothing waits, and one sender is there. -/
def outputMailbox : State where
  control := []
  latestFrame := none
  pendingDeltas := []
  senderCount := 1
  receiverAlive := true

/-- `enqueue_control`: a cursor position or a cursor bitmap replaces one at the back. -/
def enqueueControl (control : List HelperEvent) (event : HelperEvent) : List HelperEvent :=
  match control.getLast?, event with
  -- only the last event is looked at: nothing is moved past another one
  | some (.cursorPosition ..), .cursorPosition nextX nextY =>
    control.dropLast ++ [.cursorPosition nextX nextY]
  | some (.cursorRgbaBytes ..), .cursorRgbaBytes width height hotspotX hotspotY rgba =>
    control.dropLast ++ [.cursorRgbaBytes width height hotspotX hotspotY rgba]
  | _, event => control ++ [event]

/-- `discard_pending_cursor_events`: the other events stay, in their order. -/
def discardPendingCursorEvents (control : List HelperEvent) : List HelperEvent :=
  control.filter fun event => !event.isCursor

/-- `OutputSender::send`: a complete frame takes the place of all deltas, and a delta joins them. -/
def send (cap : Nat) (state : State) (event : HelperEvent) : Except MailboxClosed State :=
  if state.receiverAlive then
    .ok <| match event with
      -- a complete frame makes every delta before it pointless
      | .frameBgraBytes .. => { state with latestFrame := some event, pendingDeltas := [] }
      | .frameBgraRects .. =>
        { state with pendingDeltas := queueDeltaWithCap state.pendingDeltas event cap }
      -- what is left of the session's pictures goes, and its cursor
      | .connectionFailure .. | .terminated .. =>
        { state with
          latestFrame := none
          pendingDeltas := []
          control := discardPendingCursorEvents state.control ++ [event] }
      -- the frame and the deltas stay where they are
      | .reconnecting .. =>
        { state with control := discardPendingCursorEvents state.control ++ [event] }
      | control => { state with control := enqueueControl state.control control }
  else .error .mailboxClosed

/-- One pass of the loop of `OutputReceiver::recv`. -/
inductive RecvOutcome where
  | event (event : HelperEvent) (state : State)
  | closed
  | wait
  deriving DecidableEq, Repr

/-- `OutputReceiver::recv`: control events first, then the frame, then the deltas. -/
def recv (state : State) : RecvOutcome :=
  match state.control with
  | control :: rest => .event control { state with control := rest }
  | [] =>
    match state.latestFrame with
    | some frame => .event frame { state with latestFrame := none }
    | none =>
      match state.pendingDeltas with
      | delta :: rest => .event delta { state with pendingDeltas := rest }
      | [] => if state.senderCount = 0 then .closed else .wait

/-! ### Runs -/

/-- One call on the mailbox. -/
inductive Op where
  | send (event : HelperEvent)
  | recv
  deriving DecidableEq, Repr

/-- The transition of one call and the event it hands to the consumer, if any. A refused `send`
and a `recv` that waits or reports the end leave the mailbox as it is. -/
def step (cap : Nat) (state : State) : Op → State × List HelperEvent
  | .send event =>
    match send cap state event with
    | .ok next => (next, [])
    | .error _ => (state, [])
  | .recv =>
    match recv state with
    | .event event next => (next, [event])
    | .closed | .wait => (state, [])

/-- The events sent by a list of calls, in order. -/
def sentEvents (ops : List Op) : List HelperEvent :=
  ops.filterMap fun op => match op with
    | .send event => some event
    | .recv => none

/-- The state a list of calls reaches from a fresh mailbox. -/
def reached (cap : Nat) (ops : List Op) : State := (Machine.run (step cap) outputMailbox ops).1

/-- The events a list of calls hands to the consumer, in order. -/
def received (cap : Nat) (ops : List Op) : List HelperEvent :=
  (Machine.run (step cap) outputMailbox ops).2

/-- Nothing is left to receive. -/
def State.Drained (state : State) : Prop :=
  state.control = [] ∧ state.latestFrame = none ∧ state.pendingDeltas = []

instance (state : State) : Decidable state.Drained :=
  inferInstanceAs (Decidable (_ ∧ _ ∧ _))

end Mailbox
end Rdp
end Navop
