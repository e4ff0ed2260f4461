import NavopExtensions.Composite.Elasticsearch.Jobs

/-!
# Event streams of the Elasticsearch provider, and its budget

An event stream keeps a bounded part of what is announced. Every read returns what comes next of everything
that was announced since the stream was opened, behind what was read before and what was missed, and says how
much that is; something is missed only when the buffer is full (`events_delivered`).

Everything that the provider keeps is bounded, and belongs to a resource that is open (`within_budget`).
-/

namespace Navop
namespace Elasticsearch

open Backlog Composite History Machine Saturating Tables

variable {α : Type*}

/-! ### Streams and what is known of them -/

/-- The stream that should be in the table. -/
def StreamView.stream (view : StreamView α) : ProviderEventStream α :=
  ⟨view.ledger.unread, view.capacity, min view.ledger.missed (2 ^ 64 - 1)⟩

/-- Something fits into the stream, and what is left to read does. -/
structure StreamView.Sound (view : StreamView α) : Prop where
  pos : 0 < view.capacity
  fits : view.ledger.Fits view.capacity

/-- What is in the table is what should be there. -/
def Follows (view : Option (StreamView α)) (stream : Option (ProviderEventStream α)) : Prop :=
  stream = view.map StreamView.stream ∧ ∀ v, view = some v → v.Sound

section Table

variable {protocol : Protocol α} {s s' : ProviderState α} {request : Request α}
  {announced : Option (JobEvent α)} {reply : Reply α} {view : Option (StreamView α)} {streamId : String}

theorem push_stream {v : StreamView α} (h : v.Sound) (told : JobEvent α) :
    v.stream.push told = StreamView.stream { v with ledger := v.ledger.send v.capacity told } := by
  have hunread := Ledger.unread_send (x := told) h.fits.le_sent h.pos
  unfold ProviderEventStream.push StreamView.stream
  dsimp only
  by_cases hfull : v.ledger.unread.length < v.capacity
  · have hmissed : (v.ledger.send v.capacity told).missed = v.ledger.missed := if_pos hfull
    rw [if_neg (Nat.not_le.2 hfull), hunread, if_pos hfull, hmissed]
  · have hmissed : (v.ledger.send v.capacity told).missed = v.ledger.missed + 1 := if_neg hfull
    rw [if_pos (Nat.le_of_not_lt hfull), hunread, if_neg hfull, hmissed]
    -- The count stops at its end, and stays there.
    have hcount : saturatingAdd (min v.ledger.missed (2 ^ 64 - 1)) 1
        = min (v.ledger.missed + 1) (2 ^ 64 - 1) := by
      unfold saturatingAdd
      omega
    rw [hcount]

theorem follows_none : Follows (none : Option (StreamView α)) none := ⟨rfl, nofun⟩

/-- The table changes as what is known does. -/
theorem Change.streamView (h : Change protocol s request s' announced reply)
    (hfollows : Follows view (s.eventStreams.lookup streamId)) :
    Follows (Event.streamView protocol streamId view ⟨request, announced, reply⟩)
      (s'.eventStreams.lookup streamId) := by
  obtain ⟨hlookup, hsound⟩ := hfollows
  cases h with
  | kept hidle | stored hidle | blobRead hidle =>
    rw [hidle.streams]
    exact ⟨hlookup, hsound⟩
  | opened | blobClosed | started => exact ⟨hlookup, hsound⟩
  | closed hresource =>
    rw [closeResource, if_pos hresource]
    exact ⟨hlookup, hsound⟩
  | @jobClosed id =>
    have hsame : (closeJobById s id).eventStreams = s.eventStreams := by
      unfold closeJobById
      split <;> rfl
    rw [hsame]
    exact ⟨hlookup, hsound⟩
  -- the event goes to every stream, and pushes the oldest one out of a full buffer
  | @finished _ jobId _ job =>
    unfold Event.streamView
    dsimp only [broadcastEvent]
    rw [lookup_mapValues, hlookup]
    cases view with
    | none => exact follows_none
    | some v =>
      have hv := hsound v rfl
      refine ⟨congrArg some (push_stream hv (job.event jobId)), ?_⟩
      rintro _ ⟨⟩
      exact ⟨hv.pos, hv.fits.send hv.pos⟩
  -- a new stream has room for one event at least, and no event yet
  | @streamOpened _ _ capacity uuid _ =>
    unfold Event.streamView
    dsimp only
    by_cases hid : streamIdOf uuid = streamId
    · subst hid
      rw [Finmap.lookup_insert, if_pos rfl]
      refine ⟨rfl, ?_⟩
      rintro _ ⟨⟩
      exact ⟨Nat.lt_of_lt_of_le Nat.zero_lt_one (Nat.le_max_left _ _), Ledger.fits_empty⟩
    · rw [Finmap.lookup_insert_of_ne _ (Ne.symm hid), if_neg hid]
      exact ⟨hlookup, hsound⟩
  -- a read takes the events in front, which the view advances over
  | @streamRead id _ stream count hstream hcount =>
    unfold Event.streamView
    dsimp only
    by_cases hid : id = streamId
    · subst hid
      rw [Finmap.lookup_insert, if_pos rfl]
      obtain ⟨v, rfl, rfl⟩ := Option.map_eq_some_iff.1 (hlookup.symm.trans hstream)
      have hlength : (v.stream.buffer.take count).length = count := List.length_take_of_le hcount
      have hv := hsound v rfl
      rw [Option.map_some, hlength]
      refine ⟨?_, ?_⟩
      · simp only [Option.map_some, StreamView.stream, Ledger.unread_advance, Ledger.missed_advance]
      · rintro _ ⟨⟩
        exact ⟨hv.pos, hv.fits.advance hcount⟩
    · rw [Finmap.lookup_insert_of_ne _ (Ne.symm hid), if_neg hid]
      exact ⟨hlookup, hsound⟩
  | @streamClosed id =>
    unfold Event.streamView
    dsimp only
    by_cases hid : id = streamId
    · subst hid
      rw [Finmap.lookup_erase, if_pos rfl]
      exact follows_none
    · rw [Finmap.lookup_erase_ne (Ne.symm hid), if_neg hid]
      exact ⟨hlookup, hsound⟩
  | shutDown =>
    have hgone : (ProviderState.new α).eventStreams.lookup streamId = none := by simp [ProviderState.new]
    rw [hgone]
    exact follows_none

end Table

/-! ### What is read -/

/-- The reply to a read of a stream. -/
def eventsOf (protocol : Protocol α) (maxEvents : Option ℕ) : Option (StreamView α) → Reply α
  | none => .events [] true 0
  | some view =>
    .events (view.ledger.unread.take (protocol.effectiveMaxEvents maxEvents)) false
      (min view.ledger.missed (2 ^ 64 - 1))

/-- A read returns what comes next, after a log. -/
def Event.Delivers (protocol : Protocol α) (before : List (Event α)) (event : Event α) : Prop :=
  ∀ streamId maxEvents, event.request = .eventRead streamId maxEvents →
    event.reply = eventsOf protocol maxEvents (Elasticsearch.streamView protocol before streamId) ∧
      ∀ view, Elasticsearch.streamView protocol before streamId = some view →
        view.ledger.Fits view.capacity

/-- **Nothing is delivered twice or out of order, and what is lost is counted.** In every run, a read of an
event stream returns the first announcements behind those that were read and those that were missed, out of
all that were made since the stream was opened, and the number of those that were missed. One is missed only
where as many as the capacity are waiting to be read. -/
theorem events_delivered (protocol : Protocol α) (requests : List (Request α)) :
    ∀ before event after, (run (step protocol) (ProviderState.new α) requests).2
        = before ++ event :: after → event.Delivers protocol before := by
  refine run_each (e := eventOf protocol)
    (I := fun log s => JobsSound s ∧
      ∀ streamId, Follows (streamView protocol log streamId) (s.eventStreams.lookup streamId))
    (G := fun before event => event.Delivers protocol before) (fun _ _ => rfl) ?_ ?_ ⟨?_, ?_⟩ requests
  · rintro log s request ⟨hs, hfollows⟩
    refine ⟨(change protocol hs request).jobsSound hs, fun streamId => ?_⟩
    rw [streamView_concat]
    exact (change protocol hs request).streamView (hfollows streamId)
  · rintro log s request ⟨hs, hfollows⟩ streamId maxEvents (rfl : request = _)
    obtain ⟨hlookup, hsound⟩ := hfollows streamId
    refine ⟨?_, fun view hview => (hsound view hview).fits⟩
    change (readEventStream protocol s streamId maxEvents).2 = _
    rw [readEventStream, hlookup]
    cases streamView protocol log streamId with
    | none => rfl
    | some view =>
      change Reply.events (view.ledger.unread.take (min _ view.ledger.unread.length)) false _ = _
      -- as many events as are asked for, or all that are there
      rw [← List.take_eq_take_min]
      rfl
  · exact fun jobId job h => absurd h (by simp [ProviderState.new])
  · intro streamId
    rw [show (ProviderState.new α).eventStreams.lookup streamId = none by simp [ProviderState.new]]
    exact follows_none

/-- The search is found to have succeeded. -/
def found : List (Request Unit) := searching ++ [.jobStatus "es-job-j" (.value ()) "b"]

theorem events_delivered_found :
    (eventOf nulls (run (step nulls) (ProviderState.new Unit) found).1
        (.eventRead "es-stream-s" none)).Delivers nulls
      (run (step nulls) (ProviderState.new Unit) found).2 :=
  events_delivered nulls (found ++ [.eventRead "es-stream-s" none]) _ _ [] rfl

/-! ### The budget -/

/-- Everything is inside its bounds, and belongs to a resource that is open. -/
structure WithinBudget (protocol : Protocol α) (s : ProviderState α) : Prop where
  blobs : totalBytes s.blobs ≤ maxTotalBlobBytes
  jobs : s.jobs.keys.card ≤ maxJobs
  streams : s.eventStreams.keys.card ≤ maxJobs
  buffers : ∀ streamId stream, s.eventStreams.lookup streamId = some stream →
    stream.buffer.length ≤ stream.capacity ∧ 1 ≤ stream.capacity ∧
      stream.capacity ≤ max 1 protocol.maxEventMaxEvents
  jobOwners : ∀ jobId job, s.jobs.lookup jobId = some job → job.resourceId ∈ s.resources
  blobOwners : ∀ blobId blob, s.blobs.lookup blobId = some blob → blob.resourceId ∈ s.resources

section Budget

variable {protocol : Protocol α} {s s' : ProviderState α} {request : Request α}
  {announced : Option (JobEvent α)} {reply : Reply α}

theorem withinBudget_new : WithinBudget protocol (ProviderState.new α) where
  blobs := Nat.zero_le _
  jobs := Nat.zero_le _
  streams := Nat.zero_le _
  buffers _ _ h := absurd h (by simp [ProviderState.new])
  jobOwners _ _ h := absurd h (by simp [ProviderState.new])
  blobOwners _ _ h := absurd h (by simp [ProviderState.new])

theorem StoredFor.total_le {resourceId : String} {blobs blobs' : ProviderBlobTable}
    (h : StoredFor resourceId blobs blobs') (hle : totalBytes blobs ≤ maxTotalBlobBytes) :
    totalBytes blobs' ≤ maxTotalBlobBytes := by
  rcases h with rfl | ⟨blobId, data, hbudget, rfl⟩
  · exact hle
  · have herase := Finmap.total_erase_le (fun blob : ProviderBlob => blob.data.length) blobs blobId
    rw [totalBytes, Finmap.total_insert]
    exact (Nat.add_le_add_left herase _).trans hbudget

/-- Every blob belongs to a resource that is open. -/
def BlobOwners (resources : Finset String) (blobs : ProviderBlobTable) : Prop :=
  ∀ blobId blob, blobs.lookup blobId = some blob → blob.resourceId ∈ resources

theorem BlobOwners.insert {resources : Finset String} {blobs : ProviderBlobTable}
    (h : BlobOwners resources blobs) {blobId : String} {blob : ProviderBlob}
    (howner : blob.resourceId ∈ resources) : BlobOwners resources (blobs.insert blobId blob) := by
  intro id other hother
  by_cases hid : id = blobId
  · subst hid
    rw [Finmap.lookup_insert] at hother
    exact Option.some.inj hother ▸ howner
  · rw [Finmap.lookup_insert_of_ne _ hid] at hother
    exact h id other hother

theorem StoredFor.owners {resourceId : String} {resources : Finset String}
    {blobs blobs' : ProviderBlobTable} (h : StoredFor resourceId blobs blobs')
    (howner : resourceId ∈ resources) (hblobs : BlobOwners resources blobs) :
    BlobOwners resources blobs' := by
  rcases h with rfl | ⟨blobId, data, -, rfl⟩
  · exact hblobs
  · exact hblobs.insert howner

theorem blobOwners_erase {resources : Finset String} {blobs : ProviderBlobTable}
    (h : BlobOwners resources blobs) (blobId : String) : BlobOwners resources (blobs.erase blobId) := by
  intro id blob hblob
  by_cases hid : id = blobId
  · subst hid
    rw [Finmap.lookup_erase] at hblob
    cases hblob
  · rw [Finmap.lookup_erase_ne hid] at hblob
    exact h id blob hblob

/-- An event is pushed. -/
theorem length_push {stream : ProviderEventStream α} (hle : stream.buffer.length ≤ stream.capacity)
    (hpos : 1 ≤ stream.capacity) (event : JobEvent α) :
    (stream.push event).buffer.length ≤ (stream.push event).capacity ∧
      (stream.push event).capacity = stream.capacity := by
  unfold ProviderEventStream.push
  split
  · refine ⟨?_, rfl⟩
    rw [List.length_append, List.length_tail, List.length_singleton]
    dsimp only
    omega
  · refine ⟨?_, rfl⟩
    rw [List.length_append, List.length_singleton]
    dsimp only
    omega

/-- A resource is closed, with what belongs to it. -/
theorem WithinBudget.close (h : WithinBudget protocol s) {resourceId : String}
    (hresource : resourceId ∈ s.resources) : WithinBudget protocol (closeResource s resourceId).1 := by
  rw [closeResource, if_pos hresource]
  refine ⟨?_, ?_, h.streams, h.buffers, fun jobId job hjob => ?_, fun blobId blob hblob => ?_⟩
  · dsimp only [closeJobsForResource, closeForResource, totalBytes]
    exact ((Finmap.total_retain_le _ _ _).trans (Finmap.total_retain_le _ _ _)).trans h.blobs
  · refine (card_le_of_lookup fun jobId hjob => ?_).trans h.jobs
    obtain ⟨job, hjob⟩ := Option.isSome_iff_exists.1 hjob
    exact Option.isSome_iff_exists.2 ⟨job, (Option.filter_eq_some_iff.1
      ((Finmap.lookup_retain _ _ _).symm.trans hjob)).1⟩
  · obtain ⟨hold, hkeep⟩ := Option.filter_eq_some_iff.1 ((Finmap.lookup_retain _ _ _).symm.trans hjob)
    exact Finset.mem_erase.2 ⟨of_decide_eq_true hkeep, h.jobOwners jobId job hold⟩
  · obtain ⟨hkept, hkeep⟩ := Option.filter_eq_some_iff.1 ((Finmap.lookup_retain _ _ _).symm.trans hblob)
    obtain ⟨hold, -⟩ := Option.filter_eq_some_iff.1 ((Finmap.lookup_retain _ _ _).symm.trans hkept)
    exact Finset.mem_erase.2 ⟨bne_iff_ne.1 hkeep, h.blobOwners blobId blob hold⟩

theorem WithinBudget.closeJob (h : WithinBudget protocol s) (jobId : String) :
    WithinBudget protocol (closeJobById s jobId) := by
  unfold closeJobById
  split
  · exact h
  next job hlookup =>
  refine ⟨?_, ?_, h.streams, h.buffers, fun id job' hjob => ?_, ?_⟩
  · dsimp only
    split
    · exact (Finmap.total_erase_le _ _ _).trans h.blobs
    · exact h.blobs
  -- the table of jobs has lost one, and the blobs of its result are gone
  · refine (card_le_of_lookup fun id hjob => ?_).trans h.jobs
    by_cases hid : id = jobId
    · subst hid
      exact absurd hjob (by simp [Finmap.lookup_erase])
    · exact (Finmap.lookup_erase_ne hid) ▸ hjob
  · by_cases hid : id = jobId
    · subst hid
      exact absurd hjob (by simp [Finmap.lookup_erase])
    · exact h.jobOwners id job' ((Finmap.lookup_erase_ne hid).symm.trans hjob)
  · dsimp only
    split
    · exact blobOwners_erase h.blobOwners _
    · exact h.blobOwners

theorem Change.withinBudget (h : Change protocol s request s' announced reply)
    (hs : WithinBudget protocol s) : WithinBudget protocol s' := by
  cases h with
  | kept => exact hs
  | opened => exact ⟨hs.blobs, hs.jobs, hs.streams, hs.buffers,
      fun jobId job hjob => Finset.mem_insert_of_mem (hs.jobOwners jobId job hjob),
      fun blobId blob hblob => Finset.mem_insert_of_mem (hs.blobOwners blobId blob hblob)⟩
  | closed hresource => exact hs.close hresource
  | stored _ hresource hstored =>
    exact ⟨hstored.total_le hs.blobs, hs.jobs, hs.streams, hs.buffers, hs.jobOwners,
      hstored.owners hresource hs.blobOwners⟩
  | blobRead _ hlookup =>
    have howner := hs.blobOwners _ _ hlookup
    refine ⟨?_, hs.jobs, hs.streams, hs.buffers, hs.jobOwners, BlobOwners.insert hs.blobOwners howner⟩
    rw [totalBytes, Finmap.total_insert_of_lookup _ hlookup (by rfl)]
    exact hs.blobs
  | blobClosed => exact ⟨(Finmap.total_erase_le _ _ _).trans hs.blobs, hs.jobs, hs.streams, hs.buffers,
      hs.jobOwners, blobOwners_erase hs.blobOwners _⟩
  -- a job is started only below the limit, and for a resource that is open
  | @started resourceId _ _ uuid hresource hlimit =>
    refine ⟨hs.blobs, (card_insert_le _ _ _).trans hlimit, hs.streams, hs.buffers, fun id job hjob => ?_,
      hs.blobOwners⟩
    by_cases hid : id = jobIdOf uuid
    · subst hid
      obtain rfl := Option.some.inj ((Finmap.lookup_insert _).symm.trans hjob)
      exact hresource
    · exact hs.jobOwners id job ((Finmap.lookup_insert_of_ne _ hid).symm.trans hjob)
  -- finishing replaces a job, may store blobs within the budget, and sends an event to all streams
  | @finished _ jobId old job _ _ _ hlookup _ howner _ _ hstored =>
    have hresource := hs.jobOwners jobId old hlookup
    refine ⟨hstored.total_le hs.blobs, ?_, ?_, fun id stream hstream => ?_, fun id job' hjob => ?_,
      hstored.owners hresource hs.blobOwners⟩
    · refine (card_le_of_lookup fun id hjob => ?_).trans hs.jobs
      by_cases hid : id = jobId
      · subst hid
        rw [hlookup]
        rfl
      · exact (Finmap.lookup_insert_of_ne _ hid) ▸ hjob
    · refine (card_le_of_lookup fun id hstream => ?_).trans hs.streams
      change ((mapValues _ s.eventStreams).lookup id).isSome at hstream
      rwa [lookup_mapValues, Option.isSome_map] at hstream
    · change (mapValues _ s.eventStreams).lookup id = _ at hstream
      rw [lookup_mapValues] at hstream
      obtain ⟨old', hold, rfl⟩ := Option.map_eq_some_iff.1 hstream
      obtain ⟨hle, hpos, hcapacity⟩ := hs.buffers id old' hold
      have hpush := length_push hle hpos (job.event jobId)
      exact ⟨hpush.1, hpush.2 ▸ hpos, hpush.2 ▸ hcapacity⟩
    · by_cases hid : id = jobId
      · subst hid
        obtain rfl := Option.some.inj ((Finmap.lookup_insert _).symm.trans hjob)
        exact howner ▸ hresource
      · exact hs.jobOwners id job' ((Finmap.lookup_insert_of_ne _ hid).symm.trans hjob)
  | jobClosed => exact hs.closeJob _
  -- a stream is opened only below the limit, with a capacity that is capped
  | @streamOpened _ _ capacity uuid hlimit =>
    refine ⟨hs.blobs, hs.jobs, (card_insert_le _ _ _).trans hlimit, fun id stream hstream => ?_,
      hs.jobOwners, hs.blobOwners⟩
    by_cases hid : id = streamIdOf uuid
    · subst hid
      obtain rfl := Option.some.inj ((Finmap.lookup_insert _).symm.trans hstream)
      exact ⟨Nat.zero_le _, Nat.le_max_left _ _, max_le_max le_rfl (min_le_right _ _)⟩
    · exact hs.buffers id stream ((Finmap.lookup_insert_of_ne _ hid).symm.trans hstream)
  | @streamRead streamId _ stream count hlookup hcount =>
    obtain ⟨hle, hpos, hcapacity⟩ := hs.buffers streamId stream hlookup
    refine ⟨hs.blobs, hs.jobs, (card_le_of_lookup fun id hstream => ?_).trans hs.streams,
      fun id other hother => ?_, hs.jobOwners, hs.blobOwners⟩
    · by_cases hid : id = streamId
      · subst hid
        rw [hlookup]
        rfl
      · exact (Finmap.lookup_insert_of_ne _ hid) ▸ hstream
    · by_cases hid : id = streamId
      · subst hid
        obtain rfl := Option.some.inj ((Finmap.lookup_insert _).symm.trans hother)
        refine ⟨?_, hpos, hcapacity⟩
        rw [List.length_drop]
        exact (Nat.sub_le _ _).trans hle
      · exact hs.buffers id other ((Finmap.lookup_insert_of_ne _ hid).symm.trans hother)
  -- what is left are streams that were there
  | @streamClosed streamId =>
    have hold : ∀ id stream, (s.eventStreams.erase streamId).lookup id = some stream →
        s.eventStreams.lookup id = some stream := by
      intro id stream hstream
      by_cases hid : id = streamId
      · subst hid
        exact absurd hstream (by simp [Finmap.lookup_erase])
      · exact (Finmap.lookup_erase_ne hid).symm.trans hstream
    refine ⟨hs.blobs, hs.jobs, (card_le_of_lookup fun id hstream => ?_).trans hs.streams,
      fun id stream hstream => hs.buffers id stream (hold id stream hstream), hs.jobOwners, hs.blobOwners⟩
    obtain ⟨stream, hstream⟩ := Option.isSome_iff_exists.1 hstream
    exact Option.isSome_iff_exists.2 ⟨stream, hold id stream hstream⟩
  | shutDown => exact withinBudget_new

end Budget

/-- **The budget.** After every run the blobs together are inside their budget, there are no more jobs and
event streams than there may be, no stream keeps more than its capacity, and every job and every blob belongs
to a resource that is open. -/
theorem within_budget (protocol : Protocol α) (requests : List (Request α)) :
    WithinBudget protocol (run (step protocol) (ProviderState.new α) requests).1 := by
  have hrun : ∀ (s : ProviderState α), JobsSound s ∧ WithinBudget protocol s →
      JobsSound (run (step protocol) s requests).1 ∧
        WithinBudget protocol (run (step protocol) s requests).1 := by
    intro s hs
    refine run_inv (I := fun s => JobsSound s ∧ WithinBudget protocol s) (P := fun _ => True) ?_ hs
      fun _ _ => trivial
    rintro s request ⟨hs, hbudget⟩ -
    exact ⟨(change protocol hs request).jobsSound hs, (change protocol hs request).withinBudget hbudget⟩
  exact (hrun _ ⟨fun jobId job h => absurd h (by simp [ProviderState.new]), withinBudget_new⟩).2

end Elasticsearch
end Navop
