import NavopExtensions.Lib.Machine
import NavopExtensions.Lib.Text

/-!
# Resources and jobs of the Docker provider

The resources of `docker/src/main.rs` and the `JobRegistry` of `docker/src/jobs.rs`. A job's worker runs
on its own and sends one message at most; the registry looks for it when the job is asked about, and
takes the receiving end of the channel out of the job while it does.

A step reads a request or something that a worker does. Besides the reply it emits what happens outside:
which worker is started for which resource, which workers are told to stop, and, for the record, which
message has arrived in a channel and which job has been closed by its own request.
-/

namespace Navop
namespace Docker

/-- The codes of the errors below. -/
inductive ErrorCode
  | invalidParams
  | methodNotFound
  | resourceBusy
  | resourceClosed
  | requestCancelled
  | internalError
  deriving DecidableEq

/-- `ProtocolError`: a code, and a message for the user. -/
structure ProtocolError where
  code : ErrorCode
  message : String
  deriving DecidableEq

/-- `invalid`: the error for parameters that are wrong. -/
def invalid (message : String) : ProtocolError := ⟨.invalidParams, message⟩

/-- `closed`: the error for a resource that is not open. -/
def closed : ProtocolError := ⟨.resourceClosed, "Docker resource is not open"⟩

/-- `job_not_found`: the error for a job that is gone, or never was. -/
def jobNotFound : ProtocolError := ⟨.resourceClosed, "job is closed or unknown"⟩

/-- `MAX_JOBS`: how many jobs there may be at a time. -/
def maxJobs : ℕ := 32

/-- `PULL_METHOD`: the one method that runs as a job. -/
def pullMethod : String := "docker/image/pull"

/-- `JobState`, of which the last three are ends. -/
inductive JobState
  | queued
  | running
  | succeeded
  | failed
  | cancelled
  deriving DecidableEq

/-- `Completion`: what the task of a job sends when it is through. -/
abbrev Completion (ν : Type*) := Except String ν

/-- The receiving end of the channel to a worker: nothing in it yet, a message, or nothing any more. -/
inductive Channel (ν : Type*)
  | waiting
  | ready (completion : Completion ν)
  | disconnected

/-- `ProviderJob`. The result is always an inline one; `cancellation` says whether the sending end of
the channel to stop the worker is there. -/
structure ProviderJob (ν : Type*) where
  state : JobState := .queued
  progressPercent : Option ℕ := none
  message : Option String := none
  result : Option ν := none
  completion : Option (Channel ν) := none
  cancellation : Bool := false

/-- The jobs of a `JobRegistry`. -/
abbrev Jobs (ν : Type*) := Finmap fun _ : String => ProviderJob ν

/-- `JobStatusResult`: the job as a request sees it. -/
structure JobStatus where
  jobId : String
  state : JobState
  progressPercent : Option ℕ
  message : Option String
  deriving DecidableEq

section Registry

variable {ν : Type*}

/-- A job whose worker has just been spawned. -/
def ProviderJob.started : ProviderJob ν :=
  { state := .running
    message := some "running"
    completion := some .waiting
    cancellation := true }

/-- The end of a job: what its worker has sent, or that there is no worker any more. -/
def ProviderJob.settle (job : ProviderJob ν) : Completion ν → ProviderJob ν
  | .ok value =>
    { job with
      state := .succeeded
      progressPercent := some 100
      message := some "completed"
      result := some value }
  | .error message =>
    { job with state := .failed, progressPercent := none, message := some message, result := none }

/-- `JobRegistry::poll` of a job that is there; whether its state has changed. -/
def ProviderJob.poll (job : ProviderJob ν) : ProviderJob ν × Bool :=
  -- an end is never left again
  if job.state ≠ .running then (job, false)
  else
    match job.completion with
    | none =>
      ({ job with state := .failed, message := some "job worker is unavailable" }, true)
    -- the receiver goes back into the job
    | some .waiting => (job, false)
    | some (.ready completion) => ({ job with completion := none }.settle completion, true)
    | some .disconnected =>
      ({ job with completion := none }.settle (.error "job worker terminated"), true)

/-- `JobRegistry::cancel` of a job that is running. -/
def ProviderJob.cancel (job : ProviderJob ν) : ProviderJob ν :=
  { job with
    state := .cancelled
    progressPercent := none
    message := some "cancelled"
    result := none
    completion := none
    cancellation := false }

/-- What `JobRegistry::result` makes of a job. -/
def ProviderJob.outcome (job : ProviderJob ν) : Except ProtocolError ν :=
  match job.state with
  | .succeeded =>
    match job.result with
    -- the result stays, so that it can be asked for again
    | some value => .ok value
    | none => .error ⟨.internalError, "job result is unavailable"⟩
  | .running => .error ⟨.resourceBusy, "job result is not ready"⟩
  | .queued => .error ⟨.resourceBusy, "job result is not ready"⟩
  | .cancelled => .error ⟨.requestCancelled, "job was cancelled"⟩
  | .failed => .error ⟨.internalError, job.message.getD "job failed"⟩

/-- Whether closing a job tells its worker to stop. -/
def ProviderJob.isStoppable (job : ProviderJob ν) : Bool :=
  -- a worker that is through needs no telling
  job.state = .running && job.cancellation

variable (jobs : Jobs ν) (jobId : String)

/-- A job is changed, if it is there. -/
def Jobs.update (change : ProviderJob ν → ProviderJob ν) : Jobs ν :=
  match jobs.lookup jobId with
  | some job => jobs.insert jobId (change job)
  | none => jobs

/-- `JobRegistry::poll`: the job takes over what its task has sent, if anything. -/
def Jobs.poll : Jobs ν := jobs.update jobId fun job => job.poll.1

/-- `JobRegistry::status`: the job is polled first, so that an end that has come is seen. -/
def Jobs.status : Jobs ν × Except ProtocolError JobStatus :=
  let jobs := jobs.poll jobId
  match jobs.lookup jobId with
  | none => (jobs, .error jobNotFound)
  | some job => (jobs, .ok ⟨jobId, job.state, job.progressPercent, job.message⟩)

/-- `JobRegistry::cancel`: whether the job was running, and the workers that are told to stop. -/
def Jobs.cancel : Jobs ν × Except ProtocolError Bool × Finset String :=
  match jobs.lookup jobId with
  | none => (jobs, .error jobNotFound, ∅)
  | some job =>
    -- the job is not polled first: an end that has come is overtaken
    if job.state ≠ .running then (jobs, .ok false, ∅)
    else (jobs.insert jobId job.cancel, .ok true, if job.cancellation then {jobId} else ∅)

/-- `JobRegistry::result`: polled first, too; a job that has not succeeded has an error for a result. -/
def Jobs.result : Jobs ν × Except ProtocolError ν :=
  let jobs := jobs.poll jobId
  match jobs.lookup jobId with
  | none => (jobs, .error jobNotFound)
  | some job => (jobs, job.outcome)

/-- The workers that are told to stop when the given jobs are dropped. -/
def Jobs.stoppable : Finset String :=
  -- a job that is dropped while it runs tells its worker to stop
  jobs.keys.filter fun jobId => (jobs.lookup jobId).any ProviderJob.isStoppable

/-- `JobRegistry::close`, and the workers that are told to stop. -/
def Jobs.close : Jobs ν × Finset String :=
  (jobs.erase jobId, if jobId ∈ jobs.stoppable then {jobId} else ∅)

/-- `JobRegistry::clear`, and the workers that are told to stop. -/
def Jobs.clear : Jobs ν × Finset String := (∅, jobs.stoppable)

end Registry

/-! ### Requests -/

/-- `JobStartParams`; the parameters of a pull as far as they are strings. -/
structure JobStartParams where
  method : String
  resourceId : Option String
  image : Option String
  tag : Option String
  platform : Option String

/-- What `pull_image` is called with, besides the connection. -/
structure Pull where
  image : String
  tag : Option String
  platform : Option String
  deriving DecidableEq

/-- The requests about resources and jobs. -/
inductive Request
  /-- The request's resource type, and what resolving the target, connecting and asking for the
  version gives. -/
  | resourceOpen (resourceType : String) (connection : Except ProtocolError Unit)
  | resourceClose (resourceId : String)
  | jobStart (params : JobStartParams)
  | jobStatus (jobId : String)
  | jobCancel (jobId : String)
  | jobResult (jobId : String)
  | jobClose (jobId : String)
  /-- The parameters of one of them cannot be read. -/
  | undecodable (error : ProtocolError)

/-- What arrives: a request, or a job's worker has sent its message, or is gone without one. -/
inductive Input (ν : Type*)
  | request (request : Request)
  | sent (jobId : String) (completion : Completion ν)
  | lost (jobId : String)

/-- What a request is answered with. -/
inductive Reply (ν : Type*)
  | null
  | opened (resourceId : String)
  | started (jobId : String) (state : JobState)
  | status (status : JobStatus)
  | result (value : ν)

/-- What a step emits. -/
inductive Output (ν : Type*)
  | reply (reply : Except ProtocolError (Reply ν))
  | spawn (jobId resourceId : String) (pull : Pull)
  | stop (jobIds : Finset String)
  | delivered (jobId : String) (completion : Completion ν)
  | jobClosed (jobId : String)

/-- `State`; a resource is a connection to Docker under its id. `drawn` counts the identifiers that
`Uuid::new_v4` has given. -/
structure State (ν : Type*) where
  resources : Finset String
  jobs : Jobs ν
  drawn : ℕ

/-- `State::default`: nothing is open, and no id has been drawn. -/
def State.initial (ν : Type*) : State ν := ⟨∅, ∅, 0⟩

section Dispatch

variable {ν : Type*} (uuid : ℕ → String) (s : State ν)

/-- `open`: a resource of the one type there is, under a new id. -/
def openResource (resourceType : String) (connection : Except ProtocolError Unit) :
    State ν × List (Output ν) :=
  if resourceType ≠ "docker" then
    (s, [.reply (.error (invalid "resourceType must be docker"))])
  else
    match connection with
    | .error error => (s, [.reply (.error error)])
    | .ok () =>
      ({ s with resources := insert (uuid s.drawn) s.resources, drawn := s.drawn + 1 },
        [.reply (.ok (.opened (uuid s.drawn)))])

/-- `close`: the resource goes, and all the jobs with it, those of other resources as well. -/
def close (resourceId : String) : State ν × List (Output ν) :=
  if resourceId ∈ s.resources then
    -- `clear` does not look at the resource of a job
    ({ s with resources := s.resources.erase resourceId, jobs := s.jobs.clear.1 },
      [.stop s.jobs.clear.2, .reply (.ok .null)])
  else (s, [.reply (.error closed)])

/-- What `start_job` makes of the parameters of a pull. -/
def pullOf (params : JobStartParams) : Except ProtocolError Pull :=
  let named (value : String) : Bool := !(Text.trim value.toList).isEmpty
  match params.image with
  | none => .error (invalid "image is required")
  | some image =>
    if named image then
      -- the image is trimmed, tag and platform are passed on as they are
      .ok ⟨String.ofList (Text.trim image.toList), params.tag.filter named,
        params.platform.filter named⟩
    else .error (invalid "image is required")

/-- The identifier of a job. -/
def jobIdOf (drawn : ℕ) : String := "docker-job-" ++ uuid drawn

/-- `JobRegistry::start`: a new job, if there is room, and a task for it. -/
def start (resourceId : String) (pull : Pull) : State ν × List (Output ν) :=
  -- jobs that have ended count until they are closed
  if maxJobs ≤ s.jobs.keys.card then
    (s, [.reply (.error ⟨.resourceBusy, "Docker job limit reached"⟩)])
  else
    ({ s with jobs := s.jobs.insert (jobIdOf uuid s.drawn) .started, drawn := s.drawn + 1 },
      [.spawn (jobIdOf uuid s.drawn) resourceId pull,
        .reply (.ok (.started (jobIdOf uuid s.drawn) .running))])

/-- `start_job`: method, resource and parameters are checked in this order. -/
def startJob (params : JobStartParams) : State ν × List (Output ν) :=
  if params.method ≠ pullMethod then
    (s, [.reply (.error ⟨.methodNotFound, "unknown Docker job method `" ++ params.method ++ "`"⟩)])
  else
    match params.resourceId with
    | none => (s, [.reply (.error (invalid "resourceId is required"))])
    | some resourceId =>
      if resourceId ∈ s.resources then
        match pullOf params with
        | .error error => (s, [.reply (.error error)])
        | .ok pull => start uuid s resourceId pull
      else (s, [.reply (.error closed)])

/-- `dispatch`: one request, with what it sends and starts. -/
def dispatch : Request → State ν × List (Output ν)
  | .resourceOpen resourceType connection => openResource uuid s resourceType connection
  | .resourceClose resourceId => close s resourceId
  | .jobStart params => startJob uuid s params
  | .jobStatus jobId =>
    ({ s with jobs := (s.jobs.status jobId).1 },
      [.reply ((s.jobs.status jobId).2.map .status)])
  | .jobCancel jobId =>
    ({ s with jobs := (s.jobs.cancel jobId).1 },
      [.stop (s.jobs.cancel jobId).2.2, .reply ((s.jobs.cancel jobId).2.1.map fun _ => .null)])
  | .jobResult jobId =>
    ({ s with jobs := (s.jobs.result jobId).1 },
      [.reply ((s.jobs.result jobId).2.map .result)])
  | .jobClose jobId =>
    ({ s with jobs := (s.jobs.close jobId).1 },
      .stop (s.jobs.close jobId).2 :: (if jobId ∈ s.jobs then [.jobClosed jobId] else [])
        ++ [.reply (.ok .null)])
  | .undecodable error => (s, [.reply (.error error)])

/-- A worker's message arrives in its channel, if nothing has happened to the channel. -/
def deliver (jobId : String) (completion : Completion ν) : State ν × List (Output ν) :=
  match s.jobs.lookup jobId with
  | none => (s, [])
  | some job =>
    match job.completion with
    | some .waiting =>
      ({ s with jobs := s.jobs.insert jobId { job with completion := some (.ready completion) } },
        [.delivered jobId completion])
    | _ => (s, [])

/-- A worker ends without a message. -/
def lose (jobId : String) : State ν × List (Output ν) :=
  match s.jobs.lookup jobId with
  | none => (s, [])
  | some job =>
    match job.completion with
    | some .waiting =>
      ({ s with jobs := s.jobs.insert jobId { job with completion := some .disconnected } }, [])
    | _ => (s, [])

/-- The provider takes a step. -/
def step : Input ν → State ν × List (Output ν)
  | .request request => dispatch uuid s request
  | .sent jobId completion => deliver s jobId completion
  | .lost jobId => lose s jobId

/-- The provider reads what arrives. -/
def run (inputs : List (Input ν)) : State ν × List (Output ν) :=
  Machine.run (step uuid) (.initial ν) inputs

end Dispatch

end Docker
end Navop
