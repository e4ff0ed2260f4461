import NavopExtensions.Composite.Elasticsearch
import NavopExtensions.Lib.Backlog
import NavopExtensions.Lib.Since

/-!
# What the requests of the Elasticsearch provider do

What a client can know of a job and of an event stream, from the requests and replies alone: a job is running
until it is announced, and a stream has what was announced since it was opened. Then what a request can do to
the state is said once, for every request (`change`).
-/

namespace Navop
namespace Elasticsearch

open Backlog Composite Saturating Tables

variable {α : Type*}

/-! ### What a client knows -/

/-- What is known of a job: the resource that it was started for, and what was announced. -/
structure JobView (α : Type*) where
  resourceId : Option String
  told : Option (JobEvent α)

/-- What is known of an event stream. -/
structure StreamView (α : Type*) where
  capacity : ℕ
  ledger : Ledger (JobEvent α)

/-- What is known of a job after an event. -/
def Event.jobView (jobId : String) (view : Option (JobView α)) (event : Event α) : Option (JobView α) :=
  match event.announced with
  | some told => if told.jobId = jobId then view.map fun v => { v with told := some told } else view
  | none =>
    match event.request, event.reply with
    | .jobStart resourceId _ _ _, .started id => if id = jobId then some ⟨resourceId, none⟩ else view
    | .jobClose id, _ => if id = jobId then none else view
    | .close resourceId, .null => view.filter fun v => v.resourceId ≠ some resourceId
    | .shutdown, _ => none
    | _, _ => view

/-- What is known of a job after a log. -/
def jobView (log : List (Event α)) (jobId : String) : Option (JobView α) :=
  log.foldl (Event.jobView jobId) none

/-- What is known of an event stream after an event. -/
def Event.streamView (protocol : Protocol α) (streamId : String) (view : Option (StreamView α))
    (event : Event α) : Option (StreamView α) :=
  match event.announced with
  | some told => view.map fun v => { v with ledger := v.ledger.send v.capacity told }
  | none =>
    match event.request, event.reply with
    | .eventOpen _ _ capacity _, .streamOpened id =>
      if id = streamId then some ⟨protocol.capacityOf capacity, .empty⟩ else view
    | .eventRead id _, .events events _ _ =>
      if id = streamId then view.map fun v => { v with ledger := v.ledger.advance events.length }
      else view
    | .eventClose id, _ => if id = streamId then none else view
    | .shutdown, _ => none
    | _, _ => view

/-- What is known of an event stream after a log. -/
def streamView (protocol : Protocol α) (log : List (Event α)) (streamId : String) :
    Option (StreamView α) :=
  log.foldl (Event.streamView protocol streamId) none

theorem jobView_concat (log : List (Event α)) (event : Event α) (jobId : String) :
    jobView (log ++ [event]) jobId = event.jobView jobId (jobView log jobId) := by
  rw [jobView, List.foldl_concat, jobView]

theorem streamView_concat (protocol : Protocol α) (log : List (Event α)) (event : Event α)
    (streamId : String) :
    streamView protocol (log ++ [event]) streamId
      = event.streamView protocol streamId (streamView protocol log streamId) := by
  rw [streamView, List.foldl_concat, streamView]

/-! ### Changes -/

/-- A request with its reply tells nothing of jobs and of streams. -/
structure Idle (protocol : Protocol α) (request : Request α) (reply : Reply α) : Prop where
  jobs : ∀ jobId view, Event.jobView jobId view ⟨request, none, reply⟩ = view
  streams : ∀ streamId view, Event.streamView protocol streamId view ⟨request, none, reply⟩ = view

/-- A job of the table: it is running and can be asked, or it has ended, with a result if it has succeeded. -/
structure ProviderJob.Sound (job : ProviderJob α) : Prop where
  running : job.state = .running → job.completion = true ∧ job.progressPercent = none ∧
    job.message = some "search running" ∧ job.result = none
  result : job.state = .succeeded ↔ job.result.isSome

/-- Nothing was stored, or something for a resource. -/
def StoredFor (resourceId : String) (blobs blobs' : ProviderBlobTable) : Prop :=
  blobs' = blobs ∨ ∃ blobId data, data.length + totalBytes blobs ≤ maxTotalBlobBytes ∧
    blobs' = blobs.insert blobId ⟨resourceId, data, 0⟩

/-- The job that a request is about. -/
def Request.job : Request α → Option String
  | .jobStatus jobId _ _ => some jobId
  | .jobCancel jobId => some jobId
  | .jobResult jobId _ _ => some jobId
  | _ => none

/-- What a request can do. -/
inductive Change (protocol : Protocol α) (s : ProviderState α) :
    Request α → ProviderState α → Option (JobEvent α) → Reply α → Prop
  | kept {request reply} : Idle protocol request reply → Change protocol s request s none reply
  | opened {uuid} : Change protocol s (.open uuid) { s with resources := insert uuid s.resources } none
      (.opened uuid)
  | closed {resourceId} : resourceId ∈ s.resources →
      Change protocol s (.close resourceId) (closeResource s resourceId).1 none .null
  | stored {request resourceId blobs' reply} : Idle protocol request reply → resourceId ∈ s.resources →
      StoredFor resourceId s.blobs blobs' →
      Change protocol s request { s with blobs := blobs' } none reply
  | blobRead {request blobId blob offset reply} : Idle protocol request reply →
      s.blobs.lookup blobId = some blob →
      Change protocol s request { s with blobs := s.blobs.insert blobId { blob with offset := offset } } none
        reply
  | blobClosed {blobId} :
      Change protocol s (.blobClose blobId) { s with blobs := s.blobs.erase blobId } none .null
  | started {resourceId method body uuid} : resourceId ∈ s.resources → s.jobs.keys.card < maxJobs →
      Change protocol s (.jobStart (some resourceId) method body uuid)
        { s with jobs := s.jobs.insert (jobIdOf uuid) (.start resourceId) } none (.started (jobIdOf uuid))
  | finished {request jobId old job blobs' reply} : request.job = some jobId →
      s.jobs.lookup jobId = some old → old.state = .running → job.resourceId = old.resourceId →
      job.state ≠ .running → job.Sound → StoredFor old.resourceId s.blobs blobs' →
      Change protocol s request
        (broadcastEvent { s with blobs := blobs', jobs := s.jobs.insert jobId job } (job.event jobId))
        (some (job.event jobId)) reply
  | jobClosed {jobId} : Change protocol s (.jobClose jobId) (closeJobById s jobId) none .null
  | streamOpened {kind connId capacity uuid} : s.eventStreams.keys.card < maxJobs →
      Change protocol s (.eventOpen kind connId capacity uuid)
        { s with
          eventStreams :=
            s.eventStreams.insert (streamIdOf uuid) ⟨[], protocol.capacityOf capacity, 0⟩ }
        none (.streamOpened (streamIdOf uuid))
  | streamRead {streamId maxEvents stream count} : s.eventStreams.lookup streamId = some stream →
      count ≤ stream.buffer.length →
      Change protocol s (.eventRead streamId maxEvents)
        { s with
          eventStreams :=
            s.eventStreams.insert streamId { stream with buffer := stream.buffer.drop count } }
        none (.events (stream.buffer.take count) false stream.droppedCount)
  | streamClosed {streamId} : Change protocol s (.eventClose streamId)
      { s with eventStreams := s.eventStreams.erase streamId } none .null
  | shutDown : Change protocol s .shutdown (ProviderState.new α) none .null

section Changes

variable {protocol : Protocol α} {s : ProviderState α}

theorem storeBlob_eq_some {resourceId uuid blobId : String} {data : List UInt8}
    {blobs' : ProviderBlobTable} (h : storeBlob s resourceId data uuid = some (blobId, blobs')) :
    StoredFor resourceId s.blobs blobs' := by
  unfold storeBlob at h
  split at h
  · cases h
  · next hbudget =>
    cases h
    obtain ⟨-, hbudget⟩ := not_or.1 hbudget
    refine .inr ⟨_, data, ?_, rfl⟩
    unfold saturatingAdd at hbudget
    have hmax : maxTotalBlobBytes < 2 ^ 64 - 1 := by decide
    omega

variable (protocol) (s) in
/-- What a job comes to when its worker has answered. -/
theorem completeJob_spec (jobId : String) (job : ProviderJob α) (value : α) (uuid : String) :
    ∃ job' blobs', completeJob protocol s jobId job value uuid
        = { s with blobs := blobs', jobs := s.jobs.insert jobId job' } ∧
      job'.resourceId = job.resourceId ∧ job'.state ≠ .running ∧ job'.Sound ∧
      StoredFor job.resourceId s.blobs blobs' := by
  unfold completeJob
  dsimp only
  split
  · exact ⟨_, s.blobs, rfl, rfl, nofun, ⟨nofun, by simp⟩, .inl rfl⟩
  · split
    · split
      · exact ⟨_, s.blobs, rfl, rfl, nofun, ⟨nofun, by simp [ProviderJob.fail]⟩, .inl rfl⟩
      · next hstore =>
        exact ⟨_, _, rfl, rfl, nofun, ⟨nofun, by simp [ProviderJob.succeed]⟩,
          storeBlob_eq_some hstore⟩
    · exact ⟨_, s.blobs, rfl, rfl, nofun, ⟨nofun, by simp [ProviderJob.succeed]⟩, .inl rfl⟩

/-- The jobs of the table are as they should be. -/
def JobsSound (s : ProviderState α) : Prop :=
  ∀ jobId job, s.jobs.lookup jobId = some job → job.Sound

variable (s) in
/-- A job that was set, and is announced. -/
theorem emitJobEvent_set (jobId : String) (job : ProviderJob α) (blobs' : ProviderBlobTable) :
    emitJobEvent { s with blobs := blobs', jobs := s.jobs.insert jobId job } jobId
      = (broadcastEvent { s with blobs := blobs', jobs := s.jobs.insert jobId job } (job.event jobId),
        some (job.event jobId)) := by
  rw [emitJobEvent, Finmap.lookup_insert]

variable (protocol) in
/-- The worker of a running job is asked. -/
theorem pollJob_of_running {jobId : String} {old : ProviderJob α} (hlookup : s.jobs.lookup jobId = some old)
    (hrunning : old.state = .running) (hcompletion : old.completion = true) (polled : Polled α)
    (uuid : String) :
    pollJob protocol s jobId polled uuid =
      match polled with
      | .empty => (s, false)
      | .value value => (completeJob protocol s jobId { old with completion := false } value uuid, true)
      | .error message => (s.setJob jobId (({ old with completion := false }).fail message), true)
      | .disconnected =>
        (s.setJob jobId (({ old with completion := false }).fail "search worker terminated"), true) := by
  unfold pollJob
  rw [hlookup]
  dsimp only
  have hpresent : ¬ old.completion = false := by rw [hcompletion]; exact Bool.noConfusion
  exact (if_neg (not_not.2 hrunning)).trans (if_neg hpresent)

variable (protocol) in
/-- A job is asked about: it is still running, or it has ended and is announced. -/
theorem poll_cases (hs : JobsSound s) (jobId : String) (polled : Polled α) (uuid : String) :
    (poll protocol s jobId polled uuid = (s, none) ∧
      ∀ job, s.jobs.lookup jobId = some job → job.state = .running → polled = .empty) ∨
    polled ≠ .empty ∧ ∃ old job blobs', s.jobs.lookup jobId = some old ∧ old.state = .running ∧
      job.resourceId = old.resourceId ∧ job.state ≠ .running ∧ job.Sound ∧
      StoredFor old.resourceId s.blobs blobs' ∧
      poll protocol s jobId polled uuid
        = (broadcastEvent { s with blobs := blobs', jobs := s.jobs.insert jobId job } (job.event jobId),
          some (job.event jobId)) := by
  cases hlookup : s.jobs.lookup jobId with
  | none =>
    refine .inl ⟨?_, nofun⟩
    unfold poll pollJob
    rw [hlookup]
    rfl
  | some old =>
    by_cases hrunning : old.state = .running
    swap
    -- a job that is not running is not polled any more
    · have hpoll : pollJob protocol s jobId polled uuid = (s, false) := by
        unfold pollJob
        rw [hlookup]
        exact if_pos hrunning
      refine .inl ⟨by rw [poll, hpoll]; rfl, ?_⟩
      rintro _ ⟨⟩ h
      exact absurd h hrunning
    have hpoll := pollJob_of_running protocol hlookup hrunning
      ((hs jobId old hlookup).running hrunning).1 polled uuid
    -- a job that fails is over: it has no completion to wait for and no blobs
    have hfailed (message : String) : (({ old with completion := false }).fail message).Sound :=
      ⟨nofun, by simp [ProviderJob.fail]⟩
    have hended : JobState.failed ≠ .running := by decide
    cases polled with
    | empty => exact .inl ⟨by rw [poll, hpoll]; rfl, fun _ _ _ => rfl⟩
    -- a value completes the job, which stores its result as blobs or fails for lack of room
    | value value =>
      obtain ⟨job, blobs', hcomplete, howner, hstate, hsound, hblobs⟩ :=
        completeJob_spec protocol s jobId { old with completion := false } value uuid
      refine .inr ⟨nofun, old, job, blobs', rfl, hrunning, howner, hstate, hsound, hblobs, ?_⟩
      rw [poll, hpoll]
      dsimp only
      rw [hcomplete, if_pos rfl, emitJobEvent_set]
    | error message =>
      refine .inr ⟨nofun, old, ({ old with completion := false }).fail message, s.blobs, rfl, hrunning, rfl,
        hended, hfailed message, .inl rfl, ?_⟩
      rw [poll, hpoll]
      dsimp only [ProviderState.setJob]
      rw [if_pos rfl, emitJobEvent_set]
    | disconnected =>
      refine .inr ⟨nofun, old, ({ old with completion := false }).fail "search worker terminated", s.blobs,
        rfl, hrunning, rfl, hended, hfailed "search worker terminated", .inl rfl, ?_⟩
      rw [poll, hpoll]
      dsimp only [ProviderState.setJob]
      rw [if_pos rfl, emitJobEvent_set]

/-- A reply that is an error is idle. -/
theorem idle_error {request : Request α} {code : Code} {message : String}
    (hjob : ∀ jobId, request ≠ .jobClose jobId) (hstream : ∀ streamId, request ≠ .eventClose streamId)
    (hshutdown : request ≠ .shutdown) : Idle protocol request (.error code message) := by
  cases request <;> first
    | exact ⟨fun _ _ => rfl, fun _ _ => rfl⟩
    | exact absurd rfl (hjob _)
    | exact absurd rfl (hstream _)
    | exact absurd rfl hshutdown

variable (protocol) in
/-- **What a request does.** -/
theorem change (hs : JobsSound s) (request : Request α) :
    Change protocol s request (dispatch protocol s request).1 (dispatch protocol s request).2.1
      (dispatch protocol s request).2.2 := by
  -- A request that asks about a job does what the poll does.
  have hpoll : ∀ (request : Request α) (jobId : String) (polled : Polled α) (uuid : String)
      (reply : Reply α), request.job = some jobId → Idle protocol request reply →
      Change protocol s request (poll protocol s jobId polled uuid).1 (poll protocol s jobId polled uuid).2
        reply := by
    intro request jobId polled uuid reply hjob hidle
    rcases poll_cases protocol hs jobId polled uuid with ⟨h, -⟩ |
      ⟨-, old, job, blobs', hlookup, hrunning, howner, hstate, hsound, hblobs, h⟩
    · rw [h]
      exact .kept hidle
    · rw [h]
      exact .finished hjob hlookup hrunning howner hstate hsound hblobs
  cases request with
  | «open» uuid => exact .opened
  | invoke resourceId executed uuid =>
    unfold dispatch
    dsimp only
    split
    swap
    · exact .kept (idle_error nofun nofun nofun)
    next hresource =>
    cases executed with
    | error error => exact .kept (idle_error nofun nofun nofun)
    | ok value =>
      dsimp only
      unfold blobResult
      split
      · exact .kept (idle_error nofun nofun nofun)
      · split
        · split
          · exact .kept (idle_error nofun nofun nofun)
          · next hstore =>
            exact .stored ⟨fun _ _ => rfl, fun _ _ => rfl⟩ hresource (storeBlob_eq_some hstore)
        · exact .kept ⟨fun _ _ => rfl, fun _ _ => rfl⟩
  | close resourceId =>
    by_cases hresource : resourceId ∈ s.resources
    · have hreply : (closeResource s resourceId).2 = .null := by rw [closeResource, if_pos hresource]
      change Change protocol s _ (closeResource s resourceId).1 none (closeResource s resourceId).2
      rw [hreply]
      exact .closed hresource
    · have hclose : closeResource s resourceId = (s, resourceError) := by
        rw [closeResource, if_neg hresource]
      change Change protocol s _ (closeResource s resourceId).1 none (closeResource s resourceId).2
      rw [hclose]
      exact .kept (idle_error nofun nofun nofun)
  | blobRead blobId maxBytes =>
    unfold dispatch readBlob
    dsimp only
    cases hlookup : s.blobs.lookup blobId with
    | none => exact .kept (idle_error nofun nofun nofun)
    | some blob => exact .blobRead ⟨fun _ _ => rfl, fun _ _ => rfl⟩ hlookup
  | blobClose blobId => exact .blobClosed
  | jobStart resourceId method body uuid =>
    unfold dispatch startJob
    dsimp only
    cases resourceId with
    | none => exact .kept (idle_error nofun nofun nofun)
    | some resourceId =>
      dsimp only
      split
      · exact .kept (idle_error nofun nofun nofun)
      next hresource =>
      split
      · exact .kept (idle_error nofun nofun nofun)
      split
      · exact .kept (idle_error nofun nofun nofun)
      next hlimit =>
      cases body with
      | some error => exact .kept (idle_error nofun nofun nofun)
      | none => exact .started (not_not.1 hresource) (Nat.lt_of_not_le hlimit)
  | jobStatus jobId polled uuid =>
    refine hpoll _ jobId polled uuid _ rfl ?_
    change Idle protocol _ (jobStatus (poll protocol s jobId polled uuid).1 jobId)
    unfold jobStatus
    split <;> exact ⟨fun _ _ => rfl, fun _ _ => rfl⟩
  | jobCancel jobId =>
    unfold dispatch
    dsimp only
    cases hlookup : s.jobs.lookup jobId with
    | none => exact .kept (idle_error nofun nofun nofun)
    | some job =>
      dsimp only
      by_cases hrunning : job.state = .running
      · have hemit := emitJobEvent_set s jobId job.cancel s.blobs
        rw [show cancelJob s jobId job = (s.setJob jobId job.cancel, true) from if_pos hrunning]
        dsimp only [ProviderState.setJob]
        rw [if_pos rfl, hemit]
        exact .finished rfl hlookup hrunning rfl nofun ⟨nofun, by simp [ProviderJob.cancel]⟩ (.inl rfl)
      · rw [show cancelJob s jobId job = (s, false) from if_neg hrunning]
        exact .kept ⟨fun _ _ => rfl, fun _ _ => rfl⟩
  | jobResult jobId polled uuid =>
    refine hpoll _ jobId polled uuid _ rfl ?_
    change Idle protocol _ (jobResult (poll protocol s jobId polled uuid).1 jobId)
    unfold jobResult
    split
    · exact idle_error nofun nofun nofun
    · split <;> try exact idle_error nofun nofun nofun
      split <;> exact ⟨fun _ _ => rfl, fun _ _ => rfl⟩
  | jobClose jobId => exact .jobClosed
  | eventOpen kind connId capacity uuid =>
    unfold dispatch openEventStream
    dsimp only
    split
    · exact .kept (idle_error nofun nofun nofun)
    split
    · exact .kept (idle_error nofun nofun nofun)
    split
    · exact .kept (idle_error nofun nofun nofun)
    split
    · exact .kept (idle_error nofun nofun nofun)
    next hlimit => exact .streamOpened (Nat.lt_of_not_le hlimit)
  | eventRead streamId maxEvents =>
    unfold dispatch readEventStream
    dsimp only
    cases hlookup : s.eventStreams.lookup streamId with
    | none =>
      refine .kept ⟨fun _ _ => rfl, fun id view => ?_⟩
      unfold Event.streamView
      dsimp only
      split
      · cases view <;> rfl
      · rfl
    | some stream => exact .streamRead hlookup (Nat.min_le_right _ _)
  | eventClose streamId => exact .streamClosed
  | shutdown => exact .shutDown

end Changes

end Elasticsearch
end Navop
