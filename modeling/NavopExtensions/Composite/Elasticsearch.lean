import NavopExtensions.Composite.Blobs
import NavopExtensions.Lib.Tables

/-!
# The state of the Elasticsearch provider

`elasticsearch/src/state` and `elasticsearch/src/server`: the resources that are open, and what they own:
blobs, which are large results, and jobs, which are searches that run in the background. Whether a search has
finished is found out when its job is asked about, and that is also when the event streams are told. What a
search comes to, and the ids of `Uuid::new_v4`, are part of the request; `extension_protocol` and
`serde_json` are parameters. Event streams are all of one kind, and closing a stream takes it away.
-/

namespace Navop
namespace Elasticsearch

open Composite Saturating Tables

/-- `JobState`, of which all but the first are ends. -/
inductive JobState
  | running
  | succeeded
  | failed
  | cancelled
  deriving DecidableEq

/-- `ResultRef`: a result as it is, or the blob that holds it. -/
inductive ResultRef (α : Type*)
  | inline (value : α)
  | blob (id : String)

/-- `ProviderJob`; `completion` says whether the receiver is there. -/
structure ProviderJob (α : Type*) where
  resourceId : String
  state : JobState
  progressPercent : Option ℕ
  message : Option String
  result : Option (ResultRef α)
  completion : Bool

/-- The event of `emit_job_event`: the job as it is at that moment. -/
structure JobEvent (α : Type*) where
  jobId : String
  state : JobState
  progressPercent : Option ℕ
  message : Option String
  result : Option (ResultRef α)

/-- `ProviderEventStream`: the events that nobody has read yet, at most `capacity` of them, and how many
were dropped to make room. -/
structure ProviderEventStream (α : Type*) where
  buffer : List (JobEvent α)
  capacity : ℕ
  droppedCount : ℕ

/-- `ProviderState`: what is open, the blobs, the jobs and the streams, each by its id. -/
structure ProviderState (α : Type*) where
  resources : Finset String
  blobs : ProviderBlobTable
  jobs : Finmap fun _ : String => ProviderJob α
  eventStreams : Finmap fun _ : String => ProviderEventStream α

/-- `ProviderState::new`: nothing is open. -/
def ProviderState.new (α : Type*) : ProviderState α := ⟨∅, ∅, ∅, ∅⟩

/-- What is used of `extension_protocol`, of `serde_json` and of the client. -/
structure Protocol (α : Type*) where
  shouldStreamBlob : ℕ → Bool
  effectiveMaxBytes : Option ℕ → ℕ
  defaultEventMaxEvents : ℕ
  maxEventMaxEvents : ℕ
  effectiveMaxEvents : Option ℕ → ℕ
  toVec : α → Except String (List UInt8)
  normalizeSearch : α → α

/-- What `try_recv` finds in the channel of a job: nothing yet, its end, or a sender that is gone. -/
inductive Polled (α : Type*)
  | empty
  | value (value : α)
  | error (message : String)
  | disconnected

/-- The error codes that the provider answers with. -/
inductive Code
  | methodNotFound
  | invalidParams
  | resourceClosed
  | resourceBusy
  | requestCancelled
  | internalError
  | dataValueOutOfRange
  deriving DecidableEq

/-- The replies, one for each kind of request and one for errors. -/
inductive Reply (α : Type*)
  | null
  | opened (resourceId : String)
  | result (result : ResultRef α)
  | bytes (data : List UInt8) (done : Bool)
  | started (jobId : String)
  | status (jobId : String) (state : JobState) (progressPercent : Option ℕ) (message : Option String)
  | streamOpened (streamId : String)
  | events (events : List (JobEvent α)) (closed : Bool) (droppedCount : ℕ)
  | error (code : Code) (message : String)

/-- The requests, with what they draw and find. What is opened has been connected to, what is invoked has
been executed, and `body` is the error that `search_body` finds, if it finds one. -/
inductive Request (α : Type*)
  | open (uuid : String)
  | invoke (resourceId : String) (executed : Except (Code × String) α) (uuid : String)
  | close (resourceId : String)
  | blobRead (blobId : String) (maxBytes : Option ℕ)
  | blobClose (blobId : String)
  | jobStart (resourceId : Option String) (method : String) (body : Option String) (uuid : String)
  | jobStatus (jobId : String) (polled : Polled α) (uuid : String)
  | jobCancel (jobId : String)
  | jobResult (jobId : String) (polled : Polled α) (uuid : String)
  | jobClose (jobId : String)
  | eventOpen (kind : String) (connId : Option ℕ) (capacity : Option ℕ) (uuid : String)
  | eventRead (streamId : String) (maxEvents : Option ℕ)
  | eventClose (streamId : String)
  | shutdown

/-- `MAX_JOBS`, and `MAX_EVENT_STREAMS`: how many there may be at a time. -/
def maxJobs : ℕ := 64

/-- `SEARCH_EVENT_KIND`: the one kind of event stream there is. -/
def searchEventKind : String := "elasticsearch/search/events"

/-- The id of a blob. -/
def blobIdOf (uuid : String) : String := "es-blob-" ++ uuid

/-- The id of a job. -/
def jobIdOf (uuid : String) : String := "es-job-" ++ uuid

/-- The id of an event stream. -/
def streamIdOf (uuid : String) : String := "es-stream-" ++ uuid

section Operations

variable {α : Type*} (protocol : Protocol α) (s : ProviderState α)

/-- `resource_error`: the reply to a request for a resource that is not open. -/
def resourceError : Reply α := .error .resourceClosed "Elasticsearch resource is not open"

/-! ### Blobs -/

/-- `store_blob`: a new blob of the resource, unless the budget is used up. -/
def storeBlob (resourceId : String) (data : List UInt8) (uuid : String) :
    Option (String × ProviderBlobTable) :=
  -- the budget is for the blobs of all resources together
  if maxTotalBlobBytes < data.length
      ∨ maxTotalBlobBytes < saturatingAdd (totalBytes s.blobs) data.length then none
  else some (blobIdOf uuid, s.blobs.insert (blobIdOf uuid) ⟨resourceId, data, 0⟩)

/-- `blob_result`: a large result becomes a blob, a small one is sent as it is. -/
def blobResult (resourceId : String) (value : α) (uuid : String) : ProviderState α × Reply α :=
  match protocol.toVec value with
  | .error error => (s, .error .invalidParams ("failed to encode result: " ++ error))
  | .ok data =>
    if protocol.shouldStreamBlob data.length then
      match storeBlob s resourceId data uuid with
      | none =>
        (s, .error .dataValueOutOfRange "Elasticsearch result exceeds the provider blob budget")
      | some (blobId, blobs) => ({ s with blobs := blobs }, .result (.blob blobId))
    else (s, .result (.inline value))

/-- `read_blob`: the next bytes of the blob, and whether it ends with them. -/
def readBlob (blobId : String) (maxBytes : Option ℕ) : ProviderState α × Reply α :=
  match s.blobs.lookup blobId with
  | none => (s, .error .resourceClosed "blob is closed or unknown")
  | some blob =>
    -- the offset is never beyond the end; the source takes the minimum anyway
    let start := min blob.offset blob.data.length
    let stop := min (saturatingAdd start (protocol.effectiveMaxBytes maxBytes)) blob.data.length
    -- a read that gets nothing does not say that the blob is done
    let done := stop == blob.data.length && decide (0 < UInt32.ofNat (stop - start))
    ({ s with blobs := s.blobs.insert blobId { blob with offset := stop } },
      .bytes ((blob.data.take stop).drop start) done)

/-! ### Event streams -/

/-- The capacity of an event stream. -/
def Protocol.capacityOf (capacity : Option ℕ) : ℕ :=
  max 1 (min (capacity.getD protocol.defaultEventMaxEvents) protocol.maxEventMaxEvents)

/-- `open_event_stream`, with its refusals: another kind, a connection, no resource, too many streams. -/
def openEventStream (kind : String) (connId capacity : Option ℕ) (uuid : String) :
    ProviderState α × Reply α :=
  if kind ≠ searchEventKind then
    (s, .error .methodNotFound ("unknown Elasticsearch event stream `" ++ kind ++ "`"))
  else if connId.isSome then
    (s, .error .invalidParams "Elasticsearch event streams are provider-global")
  -- any open resource will do, as the streams hear of the jobs of all of them
  else if s.resources = ∅ then (s, resourceError)
  else if maxJobs ≤ s.eventStreams.keys.card then
    (s, .error .resourceBusy "Elasticsearch event stream limit reached")
  else
    let stream : ProviderEventStream α := ⟨[], protocol.capacityOf capacity, 0⟩
    ({ s with eventStreams := s.eventStreams.insert (streamIdOf uuid) stream },
      .streamOpened (streamIdOf uuid))

/-- `push_event`: the oldest event goes when there is no room, and is counted. -/
def ProviderEventStream.push (stream : ProviderEventStream α) (event : JobEvent α) :
    ProviderEventStream α :=
  if stream.capacity ≤ stream.buffer.length then
    { stream with
      -- the capacity is at least one, so the new event always finds room
      buffer := stream.buffer.tail ++ [event]
      droppedCount := saturatingAdd stream.droppedCount 1 }
  else { stream with buffer := stream.buffer ++ [event] }

/-- `broadcast_event`: every stream gets the event. -/
def broadcastEvent (event : JobEvent α) : ProviderState α :=
  { s with eventStreams := mapValues (fun stream => stream.push event) s.eventStreams }

/-- `read_event_stream`: the oldest events, which leave the stream; an unknown one is closed. -/
def readEventStream (streamId : String) (maxEvents : Option ℕ) : ProviderState α × Reply α :=
  match s.eventStreams.lookup streamId with
  -- an unknown stream is no error for a reader: it is told that it is closed
  | none => (s, .events [] true 0)
  | some stream =>
    let count := min (protocol.effectiveMaxEvents maxEvents) stream.buffer.length
    let rest : ProviderEventStream α := { stream with buffer := stream.buffer.drop count }
    ({ s with eventStreams := s.eventStreams.insert streamId rest },
      .events (stream.buffer.take count) false stream.droppedCount)

/-! ### Jobs -/

/-- The event of a job. -/
def ProviderJob.event (jobId : String) (job : ProviderJob α) : JobEvent α :=
  ⟨jobId, job.state, job.progressPercent, job.message, job.result⟩

/-- `emit_job_event`: the job as it is now is sent to every stream. -/
def emitJobEvent (jobId : String) : ProviderState α × Option (JobEvent α) :=
  match s.jobs.lookup jobId with
  | none => (s, none)
  | some job => (broadcastEvent s (job.event jobId), some (job.event jobId))

/-- A job that has been started. -/
def ProviderJob.start (resourceId : String) : ProviderJob α :=
  ⟨resourceId, .running, none, some "search running", none, true⟩

/-- `start_job`, with its refusals: no resource, another method, too many jobs, no body. -/
def startJob (resourceId : Option String) (method : String) (body : Option String) (uuid : String) :
    ProviderState α × Reply α :=
  match resourceId with
  | none => (s, resourceError)
  | some resourceId =>
    -- the resource is looked at before the method
    if resourceId ∉ s.resources then (s, resourceError)
    else if method ≠ "elasticsearch/search/async" then
      (s, .error .methodNotFound ("unknown Elasticsearch job method `" ++ method ++ "`"))
    else if maxJobs ≤ s.jobs.keys.card then
      (s, .error .resourceBusy "Elasticsearch job limit reached")
    else
      -- the worker is only started with a body that has been read
      match body with
      | some error => (s, .error .invalidParams error)
      | none =>
        ({ s with jobs := s.jobs.insert (jobIdOf uuid) (.start resourceId) }, .started (jobIdOf uuid))

/-- A job has failed. -/
def ProviderJob.fail (job : ProviderJob α) (message : String) : ProviderJob α :=
  { job with state := .failed, progressPercent := none, message := some message, result := none }

/-- A job has succeeded. -/
def ProviderJob.succeed (job : ProviderJob α) (result : ResultRef α) : ProviderJob α :=
  { job with
    state := .succeeded
    progressPercent := some 100
    message := some "search completed"
    result := some result }

/-- Another job under an id. -/
def ProviderState.setJob (s : ProviderState α) (jobId : String) (job : ProviderJob α) : ProviderState α :=
  { s with jobs := s.jobs.insert jobId job }

/-- `complete_job`: the job succeeds with its result, or fails because that cannot be encoded or stored. -/
def completeJob (jobId : String) (job : ProviderJob α) (value : α) (uuid : String) : ProviderState α :=
  -- the result is brought into one form before it is measured
  let value := protocol.normalizeSearch value
  match protocol.toVec value with
  | .error error => s.setJob jobId { job with state := .failed, message := some error, result := none }
  | .ok data =>
    if protocol.shouldStreamBlob data.length then
      match storeBlob s job.resourceId data uuid with
      | none => s.setJob jobId (job.fail "Elasticsearch job result exceeds the provider blob budget")
      | some (blobId, blobs) => { s with blobs := blobs }.setJob jobId (job.succeed (.blob blobId))
    else s.setJob jobId (job.succeed (.inline value))

/-- `poll_job`, and whether it has changed the job. -/
def pollJob (jobId : String) (polled : Polled α) (uuid : String) : ProviderState α × Bool :=
  match s.jobs.lookup jobId with
  | none => (s, false)
  | some job =>
    -- a job that has ended is never changed again
    if job.state ≠ .running then (s, false)
    else if job.completion = false then
      (s.setJob jobId { job with state := .failed, message := some "search worker is unavailable" }, true)
    else
      -- `completion.take()`: the receiver is put back only when the channel was empty
      let job := { job with completion := false }
      match polled with
      | .empty => (s, false)
      | .value value => (completeJob protocol s jobId job value uuid, true)
      | .error message => (s.setJob jobId (job.fail message), true)
      | .disconnected => (s.setJob jobId (job.fail "search worker terminated"), true)

/-- `poll_job` and `emit_job_event`, as `status` and `result` have them. -/
def poll (jobId : String) (polled : Polled α) (uuid : String) : ProviderState α × Option (JobEvent α) :=
  let (s, changed) := pollJob protocol s jobId polled uuid
  if changed then emitJobEvent s jobId else (s, none)

/-- `job_status`: where the job stands, and its message. -/
def jobStatus (jobId : String) : Reply α :=
  match s.jobs.lookup jobId with
  | none => .error .resourceClosed "job is closed or unknown"
  | some job => .status jobId job.state job.progressPercent job.message

/-- A job is cancelled. -/
def ProviderJob.cancel (job : ProviderJob α) : ProviderJob α :=
  { job with
    state := .cancelled
    progressPercent := none
    message := some "search cancelled"
    result := none
    completion := false }

/-- `cancel_job`, and whether it has changed the job. -/
def cancelJob (jobId : String) (job : ProviderJob α) : ProviderState α × Bool :=
  if job.state = .running then (s.setJob jobId job.cancel, true) else (s, false)

/-- `job_result`: the result of a job that succeeded, and an error in every other state. -/
def jobResult (jobId : String) : Reply α :=
  match s.jobs.lookup jobId with
  | none => .error .resourceClosed "job is closed or unknown"
  | some job =>
    match job.state with
    -- a client that is too early may ask again
    | .running => .error .resourceBusy "job result is not ready"
    | .cancelled => .error .requestCancelled "job was cancelled"
    | .failed => .error .internalError "job failed with state `Failed`"
    | .succeeded =>
      match job.result with
      | none => .error .internalError "job result is unavailable"
      | some result => .result result

/-- `close_job_by_id`: the job goes, and with it the blob of its result. -/
def closeJobById (jobId : String) : ProviderState α :=
  match s.jobs.lookup jobId with
  | none => s
  | some job =>
    { s with
      jobs := s.jobs.erase jobId
      -- a result that nobody can ask for any more would fill the budget for ever
      blobs := match job.result with
        | some (.blob id) => s.blobs.erase id
        | _ => s.blobs }

/-- Whether the result of a job is in a blob. -/
def ProviderJob.isBlob (job : ProviderJob α) (blobId : String) : Bool :=
  match job.result with
  | some (.blob id) => id == blobId
  | _ => false

/-- `close_jobs_for_resource`: the jobs of the resource go, and the blobs of their results. -/
def closeJobsForResource (resourceId : String) : ProviderState α :=
  { s with
    jobs := s.jobs.retain fun _ job => job.resourceId ≠ resourceId
    blobs := s.blobs.retain fun blobId _ =>
      !s.jobs.any fun _ job => job.resourceId == resourceId && job.isBlob blobId }

/-- `close_resource`: the resource with its jobs and its blobs. -/
def closeResource (resourceId : String) : ProviderState α × Reply α :=
  if resourceId ∈ s.resources then
    -- jobs before blobs: their results are among the blobs that go
    let s := closeJobsForResource { s with resources := s.resources.erase resourceId } resourceId
    ({ s with blobs := closeForResource s.blobs resourceId }, .null)
  else (s, resourceError)

/-- `dispatch`, for the requests above: the state, what is announced to the streams, and the reply. -/
def dispatch : Request α → ProviderState α × Option (JobEvent α) × Reply α
  | .open uuid => ({ s with resources := insert uuid s.resources }, none, .opened uuid)
  -- the call to the cluster has been made when this is handled
  | .invoke resourceId executed uuid =>
    if resourceId ∈ s.resources then
      match executed with
      | .error error => (s, none, .error error.1 error.2)
      | .ok value =>
        let (s, reply) := blobResult protocol s resourceId value uuid
        (s, none, reply)
    else (s, none, resourceError)
  | .close resourceId =>
    let (s, reply) := closeResource s resourceId
    (s, none, reply)
  | .blobRead blobId maxBytes =>
    let (s, reply) := readBlob protocol s blobId maxBytes
    (s, none, reply)
  | .blobClose blobId => ({ s with blobs := s.blobs.erase blobId }, none, .null)
  | .jobStart resourceId method body uuid =>
    let (s, reply) := startJob s resourceId method body uuid
    (s, none, reply)
  -- the status of an unknown job polls nothing, and is an error
  | .jobStatus jobId polled uuid =>
    let (s, event) := poll protocol s jobId polled uuid
    (s, event, jobStatus s jobId)
  | .jobCancel jobId =>
    match s.jobs.lookup jobId with
    | none => (s, none, .error .resourceClosed "job is closed or unknown")
    | some job =>
      let (s, changed) := cancelJob s jobId job
      let (s, event) := if changed then emitJobEvent s jobId else (s, none)
      (s, event, .null)
  | .jobResult jobId polled uuid =>
    let (s, event) := poll protocol s jobId polled uuid
    (s, event, jobResult s jobId)
  | .jobClose jobId => (closeJobById s jobId, none, .null)
  | .eventOpen kind connId capacity uuid =>
    let (s, reply) := openEventStream protocol s kind connId capacity uuid
    (s, none, reply)
  | .eventRead streamId maxEvents =>
    let (s, reply) := readEventStream protocol s streamId maxEvents
    (s, none, reply)
  | .eventClose streamId => ({ s with eventStreams := s.eventStreams.erase streamId }, none, .null)
  -- the loop of the server ends behind this reply
  | .shutdown => (ProviderState.new α, none, .null)

/-- A request with what it has announced, and its reply. -/
structure Event (α : Type*) where
  request : Request α
  announced : Option (JobEvent α)
  reply : Reply α

/-- A request is handled. -/
def step (request : Request α) : ProviderState α × List (Event α) :=
  let (s, announced, reply) := dispatch protocol s request
  (s, [⟨request, announced, reply⟩])

end Operations

end Elasticsearch
end Navop
