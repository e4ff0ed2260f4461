import NavopExtensions.Composite.Elasticsearch.Changes

/-!
# Jobs of the Elasticsearch provider

What a client is told of a job follows from what was announced of it. A job that was started is running until
it is announced; it is announced once, as ended, and by the request that finds that it has ended; what is said
of it afterwards is what was announced (`jobs_told`).
-/

namespace Navop
namespace Elasticsearch

open History Machine Tables

variable {α : Type*}

/-! ### What is to be told -/

/-- What is said of the state of a job. -/
def statusOf (jobId : String) : Option (JobView α) → Reply α
  | none => .error .resourceClosed "job is closed or unknown"
  | some ⟨_, none⟩ => .status jobId .running none (some "search running")
  | some ⟨_, some told⟩ => .status jobId told.state told.progressPercent told.message

/-- What is said of the result of a job. -/
def resultOf : Option (JobView α) → Reply α
  | none => .error .resourceClosed "job is closed or unknown"
  | some ⟨_, none⟩ => .error .resourceBusy "job result is not ready"
  | some ⟨_, some told⟩ =>
    match told.state, told.result with
    | .succeeded, some result => .result result
    | .cancelled, _ => .error .requestCancelled "job was cancelled"
    | _, _ => .error .internalError "job failed with state `Failed`"

/-- A job is known, and has not been announced. -/
def Running (log : List (Event α)) (jobId : String) : Prop :=
  ∃ resourceId, jobView log jobId = some ⟨resourceId, none⟩

/-- A request asks the worker of a job. -/
def Request.asks (jobId : String) (polled : Polled α) : Request α → Prop
  | .jobStatus id found _ => id = jobId ∧ found = polled
  | .jobResult id found _ => id = jobId ∧ found = polled
  | _ => False

/-- What is told by an event is right, after a log. -/
structure Event.Tells (before : List (Event α)) (event : Event α) : Prop where
  announced : ∀ told, event.announced = some told → event.request.job = some told.jobId ∧
    Running before told.jobId ∧ told.state ≠ .running ∧ (told.state = .succeeded ↔ told.result.isSome)
  found : ∀ jobId polled, event.request.asks jobId polled → Running before jobId →
    (event.announced.isSome ↔ polled ≠ .empty)
  status : ∀ jobId polled uuid, event.request = .jobStatus jobId polled uuid →
    event.reply = statusOf jobId (Elasticsearch.jobView (before ++ [event]) jobId)
  result : ∀ jobId polled uuid, event.request = .jobResult jobId polled uuid →
    event.reply = resultOf (Elasticsearch.jobView (before ++ [event]) jobId)
  cancelled : ∀ jobId, event.request = .jobCancel jobId → Running before jobId →
    event.reply = .null ∧ ∃ told, event.announced = some told ∧ told.state = .cancelled

/-! ### The table and what is known -/

/-- What a client should know of a job in the table. -/
def ProviderJob.view (jobId : String) (job : ProviderJob α) : JobView α :=
  ⟨some job.resourceId, if job.state = .running then none else some (job.event jobId)⟩

/-- What is known is what is in the table. -/
def Agrees (log : List (Event α)) (s : ProviderState α) : Prop :=
  ∀ jobId, jobView log jobId = (s.jobs.lookup jobId).map (ProviderJob.view jobId)

section Table

variable {protocol : Protocol α} {s s' : ProviderState α} {request : Request α}
  {announced : Option (JobEvent α)} {reply : Reply α} {log : List (Event α)}

theorem jobs_closeResource {resourceId : String} (h : resourceId ∈ s.resources) :
    (closeResource s resourceId).1.jobs = s.jobs.retain fun _ job => job.resourceId ≠ resourceId := by
  rw [closeResource, if_pos h]
  rfl

theorem lookup_closeJobById (jobId id : String) :
    (closeJobById s id).jobs.lookup jobId = if id = jobId then none else s.jobs.lookup jobId := by
  unfold closeJobById
  by_cases hid : id = jobId
  · subst hid
    rw [if_pos rfl]
    cases hlookup : s.jobs.lookup id with
    | none => exact hlookup
    | some job => exact Finmap.lookup_erase _ _
  · rw [if_neg hid]
    cases s.jobs.lookup id with
    | none => rfl
    | some job => exact Finmap.lookup_erase_ne (Ne.symm hid)

/-- The jobs stay as they should be. -/
theorem Change.jobsSound (h : Change protocol s request s' announced reply) (hs : JobsSound s) :
    JobsSound s' := by
  intro jobId job hlookup
  cases h with
  | kept | opened | stored | blobRead | blobClosed | streamOpened | streamRead | streamClosed =>
    exact hs jobId job hlookup
  | closed hresource =>
    rw [jobs_closeResource hresource, Finmap.lookup_retain] at hlookup
    exact hs jobId job (Option.filter_eq_some_iff.1 hlookup).1
  -- a new job runs and has its completion, and nothing else
  | @started resourceId _ _ uuid _ _ =>
    by_cases hid : jobId = jobIdOf uuid
    · subst hid
      obtain rfl := Option.some.inj ((Finmap.lookup_insert _).symm.trans hlookup)
      exact ⟨fun _ => ⟨rfl, rfl, rfl, rfl⟩, by simp [ProviderJob.start]⟩
    · exact hs jobId job ((Finmap.lookup_insert_of_ne _ hid).symm.trans hlookup)
  -- a job that has finished is sound as the poll says
  | @finished _ id _ job' _ _ _ _ _ _ _ hsound _ =>
    by_cases hid : jobId = id
    · subst hid
      obtain rfl := Option.some.inj ((Finmap.lookup_insert _).symm.trans hlookup)
      exact hsound
    · exact hs jobId job ((Finmap.lookup_insert_of_ne _ hid).symm.trans hlookup)
  | @jobClosed id =>
    rw [lookup_closeJobById] at hlookup
    split at hlookup
    · cases hlookup
    · exact hs jobId job hlookup
  | shutDown => exact absurd hlookup (by simp [ProviderState.new])

/-- The table changes as what is known does. -/
theorem Change.jobView (h : Change protocol s request s' announced reply) (jobId : String) :
    (s'.jobs.lookup jobId).map (ProviderJob.view jobId)
      = Event.jobView jobId ((s.jobs.lookup jobId).map (ProviderJob.view jobId))
          ⟨request, announced, reply⟩ := by
  cases h with
  -- the requests that leave the jobs alone leave the view alone, too
  | kept hidle | stored hidle | blobRead hidle => exact (hidle.jobs jobId _).symm
  | opened | blobClosed | streamOpened | streamRead | streamClosed => rfl
  | @closed resourceId hresource =>
    rw [jobs_closeResource hresource, Finmap.lookup_retain]
    cases s.jobs.lookup jobId with
    | none => rfl
    | some job =>
      -- closing a resource takes its jobs, and the view forgets those that it saw started there
      by_cases howner : job.resourceId = resourceId <;>
        simp [Event.jobView, ProviderJob.view, Option.filter_some, howner]
  | @started resourceId method body uuid hresource hlimit =>
    unfold Event.jobView
    dsimp only
    by_cases hid : jobIdOf uuid = jobId
    · subst hid
      rw [Finmap.lookup_insert, if_pos rfl]
      rfl
    · rw [Finmap.lookup_insert_of_ne _ (Ne.symm hid), if_neg hid]
  | @finished _ id old job _ _ hjob hlookup hrunning howner hended hsound hblobs =>
    unfold Event.jobView
    dsimp only [broadcastEvent, ProviderJob.event]
    -- the view has a job run until it is announced to have finished
    by_cases hid : id = jobId
    · subst hid
      rw [Finmap.lookup_insert, if_pos rfl, hlookup]
      simp only [Option.map_some, ProviderJob.view, if_neg hended, if_pos hrunning, howner]
      rfl
    · rw [Finmap.lookup_insert_of_ne _ (Ne.symm hid), if_neg hid]
  | @jobClosed id =>
    rw [lookup_closeJobById]
    unfold Event.jobView
    dsimp only
    split <;> rfl
  | shutDown => simp [ProviderState.new, Event.jobView]

theorem Agrees.change (h : Change protocol s request s' announced reply) (hagrees : Agrees log s) :
    Agrees (log ++ [⟨request, announced, reply⟩]) s' := by
  intro jobId
  rw [jobView_concat, hagrees, h.jobView]

/-- A job that is known to be running is running in the table. -/
theorem Agrees.running (h : Agrees log s) {jobId : String} (hrunning : Running log jobId) :
    ∃ job, s.jobs.lookup jobId = some job ∧ job.state = .running := by
  obtain ⟨resourceId, hview⟩ := hrunning
  rw [h jobId] at hview
  obtain ⟨job, hlookup, hjob⟩ := Option.map_eq_some_iff.1 hview
  refine ⟨job, hlookup, not_not.1 fun hended => ?_⟩
  have htold := congrArg JobView.told hjob
  simp [ProviderJob.view, if_neg hended] at htold

/-- What is said of the state of a job is what should be said. -/
theorem Agrees.status (h : Agrees log s) (hs : JobsSound s) (jobId : String) :
    jobStatus s jobId = statusOf jobId (Elasticsearch.jobView log jobId) := by
  rw [h jobId, jobStatus]
  cases hlookup : s.jobs.lookup jobId with
  | none => rfl
  | some job =>
    by_cases hrunning : job.state = .running
    · obtain ⟨-, hprogress, hmessage, -⟩ := (hs jobId job hlookup).running hrunning
      rw [Option.map_some, ProviderJob.view, if_pos hrunning]
      change Reply.status jobId job.state job.progressPercent job.message = _
      rw [hrunning, hprogress, hmessage]
      rfl
    · simp only [Option.map_some, ProviderJob.view, if_neg hrunning, statusOf]
      rfl

/-- What is said of the result of a job is what should be said. -/
theorem Agrees.result (h : Agrees log s) (hs : JobsSound s) (jobId : String) :
    jobResult s jobId = resultOf (Elasticsearch.jobView log jobId) := by
  rw [h jobId, jobResult]
  cases hlookup : s.jobs.lookup jobId with
  | none => rfl
  | some job =>
    have hresult := (hs jobId job hlookup).result
    cases hstate : job.state with
    | running => simp only [Option.map_some, ProviderJob.view, hstate, if_true, resultOf]
    | cancelled | failed =>
      simp only [Option.map_some, ProviderJob.view, hstate, reduceCtorEq, if_false, resultOf,
        ProviderJob.event]
    | succeeded =>
      obtain ⟨result, hsome⟩ := Option.isSome_iff_exists.1 (hresult.1 hstate)
      simp only [Option.map_some, ProviderJob.view, hstate, reduceCtorEq, if_false, resultOf,
        ProviderJob.event, hsome]

/-- A request that asks about a job that is running finds out whether it has ended. -/
theorem announced_iff (hagrees : Agrees log s) (hs : JobsSound s) {jobId : String} {polled : Polled α}
    (hasks : request.asks jobId polled) (hrunning : Running log jobId) :
    (dispatch protocol s request).2.1.isSome ↔ polled ≠ .empty := by
  obtain ⟨job, hlookup, hstate⟩ := hagrees.running hrunning
  -- a running job that is polled is announced exactly if there is something to announce
  have hpoll : ∀ uuid, (poll protocol s jobId polled uuid).2.isSome ↔ polled ≠ .empty := by
    intro uuid
    rcases poll_cases protocol hs jobId polled uuid with ⟨h, hempty⟩ |
      ⟨hpolled, _, _, _, _, _, _, _, _, _, h⟩
    · rw [h]
      exact iff_of_false Bool.noConfusion (not_not.2 (hempty job hlookup hstate))
    · rw [h]
      exact iff_of_true rfl hpolled
  cases request with
  | jobStatus id found uuid =>
    obtain ⟨rfl, rfl⟩ := hasks
    exact hpoll uuid
  | jobResult id found uuid =>
    obtain ⟨rfl, rfl⟩ := hasks
    exact hpoll uuid
  | _ => exact hasks.elim

/-- What is announced is that a job has ended. -/
theorem Change.tells (h : Change protocol s request s' announced reply) (hagrees : Agrees log s)
    {told : JobEvent α} (htold : announced = some told) :
    request.job = some told.jobId ∧ Running log told.jobId ∧ told.state ≠ .running ∧
      (told.state = .succeeded ↔ told.result.isSome) := by
  cases h with
  | @finished _ id old job _ _ hjob hlookup hrunning howner hended hsound hblobs =>
    obtain rfl := Option.some.inj htold
    refine ⟨hjob, ⟨some old.resourceId, ?_⟩, hended, hsound.result⟩
    rw [hagrees]
    change (s.jobs.lookup id).map (ProviderJob.view id) = _
    rw [hlookup, Option.map_some, ProviderJob.view, if_pos hrunning]
  | _ => cases htold

/-- A job that is running is cancelled. -/
theorem cancelled_of_running (hagrees : Agrees log s) {jobId : String} (hrunning : Running log jobId) :
    (dispatch protocol s (.jobCancel jobId)).2.2 = .null ∧
      ∃ told, (dispatch protocol s (.jobCancel jobId)).2.1 = some told ∧ told.state = .cancelled := by
  obtain ⟨job, hlookup, hstate⟩ := hagrees.running hrunning
  have hemit := emitJobEvent_set s jobId job.cancel s.blobs
  unfold dispatch
  dsimp only
  rw [hlookup]
  dsimp only
  rw [show cancelJob s jobId job = (s.setJob jobId job.cancel, true) from if_pos hstate]
  dsimp only [ProviderState.setJob]
  rw [if_pos rfl, hemit]
  exact ⟨rfl, _, rfl, rfl⟩

end Table

/-! ### Runs -/

/-- The event of a request. -/
def eventOf (protocol : Protocol α) (s : ProviderState α) (request : Request α) : Event α :=
  ⟨request, (dispatch protocol s request).2.1, (dispatch protocol s request).2.2⟩

/-- **What is told of jobs.** In every run a job is announced only while it is running, once for every time
that it was started, and as ended. A request that asks about it announces it exactly if its worker has
answered or is gone; what is said of its state and of its result, then and later, is what was announced. -/
theorem jobs_told (protocol : Protocol α) (requests : List (Request α)) :
    ∀ before event after, (run (step protocol) (ProviderState.new α) requests).2
        = before ++ event :: after → event.Tells before := by
  refine run_each (e := eventOf protocol) (I := fun log s => Agrees log s ∧ JobsSound s)
    (G := fun before event => event.Tells before) (fun _ _ => rfl) ?_ ?_ ⟨?_, ?_⟩ requests
  · rintro log s request ⟨hagrees, hs⟩
    exact ⟨hagrees.change (change protocol hs request), (change protocol hs request).jobsSound hs⟩
  -- what a request tells about a job is what the log before it says
  · rintro log s request ⟨hagrees, hs⟩
    have hchange := change protocol hs request
    have hafter := hagrees.change hchange
    have hs' := hchange.jobsSound hs
    refine ⟨fun told htold => hchange.tells hagrees htold,
      fun jobId polled hasks hrunning => announced_iff hagrees hs hasks hrunning, ?_, ?_, ?_⟩
    · rintro jobId polled uuid (rfl : request = _)
      exact hafter.status hs' jobId
    · rintro jobId polled uuid (rfl : request = _)
      exact hafter.result hs' jobId
    · rintro jobId (rfl : request = _) hrunning
      exact cancelled_of_running hagrees hrunning
  · intro jobId
    simp [jobView, ProviderState.new]
  · intro jobId job h
    exact absurd h (by simp [ProviderState.new])

/-- Small results, which are all the same. -/
def nulls : Protocol Unit where
  shouldStreamBlob length := 65536 < length
  effectiveMaxBytes maxBytes := maxBytes.getD 65536
  defaultEventMaxEvents := 100
  maxEventMaxEvents := 1000
  effectiveMaxEvents maxEvents := min (max 1 (maxEvents.getD 100)) 1000
  toVec _ := .ok [110, 117, 108, 108]
  normalizeSearch := id

/-- A search that is started, with a stream that is told of it. -/
def searching : List (Request Unit) :=
  [.open "r", .eventOpen searchEventKind none (some 1) "s",
    .jobStart (some "r") "elasticsearch/search/async" none "j"]

theorem jobs_told_searching :
    (eventOf nulls (run (step nulls) (ProviderState.new Unit) searching).1
        (.jobStatus "es-job-j" (.value ()) "b")).Tells
      (run (step nulls) (ProviderState.new Unit) searching).2 :=
  jobs_told nulls (searching ++ [.jobStatus "es-job-j" (.value ()) "b"]) _ _ [] rfl

end Elasticsearch
end Navop
