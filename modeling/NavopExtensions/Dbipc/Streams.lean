import NavopExtensions.Dbipc.Changes
import NavopExtensions.Lib.Handles
import NavopExtensions.Lib.Machine

/-!
# Streams of the Go server

An exported document is kept under the name that the caller gives it, and read chunk by chunk. The table of
streams keeps `Handles.Books`, so that every chunk goes on where the one before has ended, and the last one
is the one that says so (`streams_delivered`). The last chunk closes the stream; a connection that is closed
leaves its streams as they are.
-/

namespace Navop
namespace DbipcServer

open Handles Machine

variable {ρ : Type*}

/-- What a request does to the handles. -/
def Event.handles (event : DbipcServer.Event ρ) : List (Handles.Event String UInt8) :=
  match event.request, event.reply with
  | .dataExport _ streamID _, .exported _ _ => [.opened streamID event.answers.exported.1]
  | .streamRead streamID _, .chunk data done => [.read streamID data done]
  | _, _ => []

/-- What has happened to the handles. -/
def handlesOf (log : List (DbipcServer.Event ρ)) : List (Handles.Event String UInt8) :=
  log.flatMap Event.handles

/-- A stream as a reader. -/
def Stream.reader (stream : Stream) : Reader UInt8 := ⟨stream.data, stream.offset⟩

/-- The streams as readers. -/
def readers (streams : Finmap fun _ : String => Stream) (streamID : String) : Option (Reader UInt8) :=
  (streams.lookup streamID).map Stream.reader

/-- No stream has been read beyond its end. -/
def InBounds (streams : Finmap fun _ : String => Stream) : Prop :=
  ∀ streamID stream, streams.lookup streamID = some stream → stream.offset ≤ stream.data.length

/-- The table agrees with what has happened, and that is as it should be. -/
structure Kept (streams : Finmap fun _ : String => Stream) (log : List (Handles.Event String UInt8)) :
    Prop where
  inBounds : InBounds streams
  books : Books (readers streams) log
  delivered : Delivered log

section Steps

variable {streams : Finmap fun _ : String => Stream} {log : List (Handles.Event String UInt8)}
  {streamID : String} {stream : Stream}

theorem kept_empty : Kept ∅ [] := by
  refine ⟨fun streamID stream h => ?_, fun streamID reader h => ?_, delivered_nil⟩
  · rw [Finmap.lookup_empty] at h
    cases h
  · rw [readers, Finmap.lookup_empty] at h
    cases h

/-- A table with fewer streams keeps the books, for a stream that is gone is read no more. -/
theorem Kept.mono {streams' : Finmap fun _ : String => Stream} (h : Kept streams log)
    (hsub : ∀ streamID stream, streams'.lookup streamID = some stream →
      streams.lookup streamID = some stream) : Kept streams' log := by
  refine ⟨fun streamID stream hstream => h.inBounds streamID stream (hsub _ _ hstream),
    h.books.mono fun streamID reader hreader => ?_, h.delivered⟩
  obtain ⟨stream, hstream, rfl⟩ := Option.map_eq_some_iff.1 hreader
  rw [readers, hsub streamID stream hstream, Option.map_some]

theorem lookup_of_erase {other : String} (h : (streams.erase streamID).lookup other = some stream) :
    streams.lookup other = some stream := by
  by_cases hother : other = streamID
  · subst hother
    rw [Finmap.lookup_erase] at h
    cases h
  · rwa [Finmap.lookup_erase_ne hother] at h

/-- A document is exported. -/
theorem Kept.opened (h : Kept streams log) (streamID : String) (data : List UInt8) :
    Kept (streams.insert streamID ⟨data, 0⟩) (log ++ [.opened streamID data]) := by
  refine ⟨fun other stream hstream => ?_, h.books.opened ?_ fun other hother => ?_,
    delivered_concat.2 ⟨h.delivered, trivial⟩⟩
  · by_cases hother : other = streamID
    · subst hother
      rw [Finmap.lookup_insert] at hstream
      obtain rfl := Option.some.inj hstream
      exact Nat.zero_le _
    · rw [Finmap.lookup_insert_of_ne _ hother] at hstream
      exact h.inBounds other stream hstream
  · rw [readers, Finmap.lookup_insert]
    rfl
  · rw [readers, Finmap.lookup_insert_of_ne _ hother, readers]

/-- A chunk is read, up to a place; at the end, the stream goes. -/
theorem Kept.read (h : Kept streams log) (hlookup : streams.lookup streamID = some stream) (stop : ℕ)
    (hstop : stream.offset ≤ stop) (hend : stop ≤ stream.data.length) :
    Kept (if decide (stream.data.length ≤ stop) = true then streams.erase streamID
        else streams.insert streamID { stream with offset := stop })
      (log ++ [.read streamID ((stream.data.take stop).drop stream.offset)
        (decide (stream.data.length ≤ stop))]) := by
  have hreader : readers streams streamID = some stream.reader := by
    rw [readers, hlookup, Option.map_some]
  have hdone : decide (stream.data.length ≤ stop) = true ↔ stop = stream.reader.content.length := by
    rw [decide_eq_true_iff]
    exact ⟨fun hle => Nat.le_antisymm hend hle, fun heq => heq ▸ Nat.le_refl _⟩
  -- the stream has moved, or is erased because it is done; the others are as they were
  refine ⟨fun other stream' hstream => ?_, h.books.advanced hreader hstop _ ?_ fun other hother => ?_,
    delivered_concat.2 ⟨h.delivered, h.books.good hreader hstop hend hdone⟩⟩
  · split at hstream
    · exact h.inBounds other stream' (lookup_of_erase hstream)
    · by_cases hother : other = streamID
      · subst hother
        rw [Finmap.lookup_insert] at hstream
        obtain rfl := Option.some.inj hstream
        exact hend
      · rw [Finmap.lookup_insert_of_ne _ hother] at hstream
        exact h.inBounds other stream' hstream
  · intro reader' hreader'
    split at hreader'
    · rw [readers, Finmap.lookup_erase] at hreader'
      cases hreader'
    · rw [readers, Finmap.lookup_insert] at hreader'
      exact (Option.some.inj hreader').symm
  · split
    · rw [readers, Finmap.lookup_erase_ne hother, readers]
    · rw [readers, Finmap.lookup_insert_of_ne _ hother, readers]

end Steps

section Requests

variable {spec : String} {marshals : ρ → Bool} {quote : String → String} {isPrint : Char → Bool}
  {answers : Answers ρ}
  {s s' : State ρ} {request : Request} {reply : Reply ρ} {log : List (DbipcServer.Event ρ)}

/-- Where the streams do not change, or all go. -/
theorem Change.streams_eq (h : Change spec answers s request s' reply)
    (hrequest : request.isStream = false) : s'.streams = s.streams ∨ s'.streams = ∅ := by
  cases h with
  | shutDown => exact .inr rfl
  | streams _ hstream => exact absurd (hrequest.symm.trans hstream) Bool.noConfusion
  | _ => exact .inl rfl

theorem handles_of_not_isStream {event : DbipcServer.Event ρ} (h : event.request.isStream = false) :
    event.handles = [] := by
  unfold Event.handles
  split
  · next hrequest _ => rw [hrequest] at h; cases h
  · next hrequest _ => rw [hrequest] at h; cases h
  · rfl

theorem handlesOf_concat (event : DbipcServer.Event ρ) :
    handlesOf (log ++ [event]) = handlesOf log ++ event.handles := by
  rw [handlesOf, List.flatMap_append, List.flatMap_singleton, ← handlesOf]

theorem Kept.step (h : Kept s.streams (handlesOf log)) (input : Answers ρ × Request) :
    Kept (DbipcServer.step spec marshals quote isPrint s input).1.streams
      (handlesOf (log ++ (DbipcServer.step spec marshals quote isPrint s input).2)) := by
  obtain ⟨answers, request⟩ := input
  have hchange : Change spec answers s request (handle spec marshals quote isPrint answers s request).state
      (handle spec marshals quote isPrint answers s request).reply := change request
  change Kept (handle spec marshals quote isPrint answers s request).state.streams
    (handlesOf (log ++ [⟨answers, request, (handle spec marshals quote isPrint answers s request).calls,
      (handle spec marshals quote isPrint answers s request).reply⟩]))
  rw [handlesOf_concat]
  -- only three requests are about streams, and of the others only a shutdown changes their table
  by_cases hrequest : request.isStream = false
  · rw [handles_of_not_isStream hrequest, List.append_nil]
    rcases hchange.streams_eq hrequest with heq | heq
    · rwa [heq]
    · refine h.mono fun streamID stream hstream => ?_
      rw [heq, Finmap.lookup_empty] at hstream
      cases hstream
  · unfold handle
    split
    · cases request <;> first | exact absurd rfl hrequest | simpa [refuse, Event.handles] using h
    clear hchange
    cases request with
    | dataExport connID streamID statement =>
      dsimp only
      unfold handleDataExport
      split
      · split
        · simpa [refuse, Event.handles] using h
        · cases statement with
          | error message => simpa [refuse, Event.handles] using h
          | ok sql =>
            dsimp only
            split
            · simpa [Event.handles] using h
            · exact h.opened streamID answers.exported.1
      · simpa [unknownConn, refuse, Event.handles] using h
    | streamRead streamID maxBytes =>
      dsimp only
      unfold handleStreamRead
      cases hlookup : s.streams.lookup streamID with
      | none => simpa [refuse, Event.handles] using h
      | some stream =>
        have hbound := h.inBounds streamID stream hlookup
        exact h.read hlookup _ (le_min (Nat.le_add_right _ _) hbound) (min_le_right _ _)
    | streamClose streamID =>
      simpa [Event.handles] using h.mono fun other stream hstream => lookup_of_erase hstream
    | _ => exact absurd rfl hrequest

end Requests

/-- **Streams are delivered.** In every run, whatever comes between them, the chunks of a stream are its
document, in order, without gaps and without repetitions, and the last chunk is the one that says so. -/
theorem streams_delivered (spec : String) (marshals : ρ → Bool) (quote : String → String)
    (isPrint : Char → Bool)
    (inputs : List (Answers ρ × Request)) :
    Delivered (handlesOf (run (step spec marshals quote isPrint) (newServer ρ) inputs).2) := by
  have h : Kept (run (step spec marshals quote isPrint) (newServer ρ) inputs).1.streams
      (handlesOf (run (step spec marshals quote isPrint) (newServer ρ) inputs).2) :=
    run_history (H := fun _ log (s : State ρ) => Kept s.streams (handlesOf log)) (P := fun _ => True)
      (fun _ _ _ => trivial) (fun _ _ _ input h _ => h.step input) kept_empty trivial
  exact h.delivered

end DbipcServer
end Navop
