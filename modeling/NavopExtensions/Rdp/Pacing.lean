import NavopExtensions.Rdp.Output

/-!
# Frame pacing

`map_output_events` (`rdp-helper/src/rdp.rs`) does not map every image at once. The latest image
waits in a slot until it has settled or has waited too long; pointer events bypass the slot, every
other event empties it first. One pass of the loop is `iterate`: it wakes up for an event of the
client or for the presentation deadline, and the clock readings it makes are inputs. The statistics
it keeps are only logged and are left out, and the mailbox it sends to is taken to be open: a send
to a closed one ends the loop.

The results are in `Rdp/Pacing/Rewriting.lean` (what may be dropped and moved without a consumer
noticing) and `Rdp/Pacing/Books.lean` (the loop only does that).
-/

namespace Navop
namespace Rdp
namespace Pacing

/-! ### The loop -/

/-- `FRAME_SETTLE_INTERVAL`, in milliseconds: how long nothing new may come before an image goes out. -/
def frameSettleInterval : Nat := 4

/-- `MAX_FRAME_PRESENTATION_LATENCY`, in milliseconds: how long an image waits at most. -/
def maxFramePresentationLatency : Nat := 16

/-- `FramePresentationSchedule`. Instants are milliseconds on the loop's clock. -/
structure FramePresentationSchedule where
  settleDeadline : Option Nat
  maxLatencyDeadline : Option Nat
  deriving DecidableEq, Repr

namespace FramePresentationSchedule

/-- `FramePresentationSchedule::default`, and what `clear` leaves: nothing is due. -/
def clear : FramePresentationSchedule := ⟨none, none⟩

/-- `FramePresentationSchedule::record_image`: the first deadline moves with each image, the second does
not. -/
def recordImage (schedule : FramePresentationSchedule) (now : Nat) : FramePresentationSchedule where
  settleDeadline := some (now + frameSettleInterval)
  maxLatencyDeadline := some (schedule.maxLatencyDeadline.getD (now + maxFramePresentationLatency))

/-- `FramePresentationSchedule::deadline`: the earlier of the two. -/
def deadline (schedule : FramePresentationSchedule) : Option Nat :=
  match schedule.settleDeadline, schedule.maxLatencyDeadline with
  | some settle, some maxLatency => some (min settle maxLatency)
  | some settle, none => some settle
  | none, some maxLatency => some maxLatency
  | none, none => none

/-- `FramePresentationSchedule::is_due`: the deadline is reached. -/
def isDue (schedule : FramePresentationSchedule) (now : Nat) : Bool :=
  schedule.deadline.any (· ≤ now)

end FramePresentationSchedule

/-- The loop's variables. -/
structure Pacer where
  outputMapper : RdpOutputMapper
  pendingImage : Option RdpOutputEvent
  presentationSchedule : FramePresentationSchedule

/-- The loop's variables before its first pass. -/
def Pacer.initial : Pacer := ⟨.default, none, .clear⟩

/-- `publish_output_event`: map an event and send what it maps to. -/
def publishOutputEvent (pacer : Pacer) (event : RdpOutputEvent) : Pacer × List HelperEvent :=
  let mapped := pacer.outputMapper.map event
  ({ pacer with outputMapper := mapped.1 }, mapped.2)

/-- `flush_pending_image`: the image goes out, if there is one, and nothing is due any more. -/
def flushPendingImage (pacer : Pacer) : Pacer × List HelperEvent :=
  match pacer.pendingImage with
  | some image =>
    publishOutputEvent { pacer with pendingImage := none, presentationSchedule := .clear } image
  | none => ({ pacer with presentationSchedule := .clear }, [])

/-- What a pass of the loop wakes up for, with the clock readings it makes. -/
inductive Wakeup where
  /-- The client published an event; an image is recorded at `recordedAt`. -/
  | received (event : RdpOutputEvent) (recordedAt now : Nat)
  /-- `sleep_until` returned. -/
  | deadline (now : Nat)

/-- The reading of the clock at the end of a pass. -/
def Wakeup.now : Wakeup → Nat
  | .received _ _ now => now
  | .deadline now => now

/-- The `select!` of one pass. Without a deadline the timer branch never completes. -/
def select (pacer : Pacer) : Wakeup → Pacer × List HelperEvent
  | .received event recordedAt _ =>
    match event with
    -- the newest image takes the slot, whatever waited there
    | .image .. =>
      ({ pacer with
        pendingImage := some event
        presentationSchedule := pacer.presentationSchedule.recordImage recordedAt }, [])
    -- pointer events bypass the slot
    | .pointerDefault | .pointerHidden | .pointerPosition .. | .pointerBitmap .. =>
      publishOutputEvent pacer event
    | event =>
      -- every other event empties the slot first
      let flushed := flushPendingImage pacer
      let published := publishOutputEvent flushed.1 event
      (published.1, flushed.2 ++ published.2)
  | .deadline _ =>
    match pacer.presentationSchedule.deadline with
    | some _ => flushPendingImage pacer
    | none => (pacer, [])

/-- One pass of the loop of `map_output_events`. -/
def iterate (pacer : Pacer) (wakeup : Wakeup) : Pacer × List HelperEvent :=
  let selected := select pacer wakeup
  -- a burst that lasts too long is presented without waiting for the timer
  if selected.1.presentationSchedule.isDue wakeup.now then
    let flushed := flushPendingImage selected.1
    (flushed.1, selected.2 ++ flushed.2)
  else selected

/-- `map_output_events`: any number of passes, then the channel closes. The variables at the end and
the events sent. -/
def mapOutputEvents (wakeups : List Wakeup) : Pacer × List HelperEvent :=
  let loop := Machine.run iterate .initial wakeups
  let flushed := flushPendingImage loop.1
  (flushed.1, loop.2 ++ flushed.2)

/-- The events of the client, in order. -/
def receivedEvents (wakeups : List Wakeup) : List RdpOutputEvent :=
  wakeups.filterMap fun wakeup => match wakeup with
    | .received event _ _ => some event
    | .deadline _ => none

end Pacing
end Rdp
end Navop
