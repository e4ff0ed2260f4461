import NavopExtensions.Docker.Jobs

/-!
# Resources of the Docker provider side by side

The registry of jobs does not know on which resource a job was started, and closing a resource clears it
all. As long as a resource is closed only when no job of another one is in the registry, resources do
not disturb each other (`docker_undisturbed`); two resources at work are enough for the contrary.
-/

namespace Navop
namespace Docker

variable {ν : Type*} {uuid : ℕ → String}

/-- The resource on which a job was started, from what has been emitted. -/
def owner (outputs : List (Output ν)) (jobId : String) : Option String :=
  outputs.findSome? fun output =>
    match output with
    | .spawn started resourceId _ => if started = jobId then some resourceId else none
    | _ => none

/-- A job that has come to its end. -/
def ProviderJob.IsOver (job : ProviderJob ν) : Prop :=
  job.state = .succeeded ∨ job.state = .failed ∨ job.state = .cancelled

/-! ### What a step does to a job -/

/-- A step that emits nothing that belongs to the history of a job. -/
def Unseen (jobId : String) (outputs : List (Output ν)) : Prop :=
  owner outputs jobId = none ∧ ∀ completion, Output.delivered jobId completion ∉ outputs

/-- What a step does to a job, by what it emits. -/
inductive Change (uuid : ℕ → String) (s : State ν) (input : Input ν) (jobId : String)
    (outputs : List (Output ν)) :
    Option (ProviderJob ν) → Option (ProviderJob ν) → Prop
  | same {job : Option (ProviderJob ν)} (hunseen : Unseen jobId outputs) :
      Change uuid s input jobId outputs job job
  | spawned {job : Option (ProviderJob ν)} {resourceId : String}
      (hid : jobId = jobIdOf uuid s.drawn) (hresource : resourceId ∈ s.resources)
      (howner : owner outputs jobId = some resourceId)
      (hdelivered : ∀ completion, Output.delivered jobId completion ∉ outputs) :
      Change uuid s input jobId outputs job (some .started)
  | polled {job : ProviderJob ν} (hunseen : Unseen jobId outputs) :
      Change uuid s input jobId outputs (some job) (some job.poll.1)
  | delivered {job : ProviderJob ν} {completion : Completion ν}
      (hwaiting : job.completion = some .waiting)
      (houtputs : outputs = [.delivered jobId completion]) :
      Change uuid s input jobId outputs (some job)
        (some { job with completion := some (.ready completion) })
  | lost {job : ProviderJob ν} (hwaiting : job.completion = some .waiting) (houtputs : outputs = []) :
      Change uuid s input jobId outputs (some job)
        (some { job with completion := some .disconnected })
  | cancelled {job : ProviderJob ν} (hunseen : Unseen jobId outputs) (hrunning : job.state = .running)
      (hstop : job.cancellation = true → .stop {jobId} ∈ outputs) :
      Change uuid s input jobId outputs (some job) (some job.cancel)
  | closed {job : ProviderJob ν} (hunseen : Unseen jobId outputs)
      (hclosed : .jobClosed jobId ∈ outputs) :
      Change uuid s input jobId outputs (some job) none
  | cleared {job : ProviderJob ν} {resourceId : String} (hunseen : Unseen jobId outputs)
      (hinput : input = .request (.resourceClose resourceId))
      (hresource : resourceId ∈ s.resources) :
      Change uuid s input jobId outputs (some job) none

variable {input : Input ν}

theorem owner_append (before after : List (Output ν)) (jobId : String) :
    owner (before ++ after) jobId = (owner before jobId).or (owner after jobId) := by
  unfold owner
  rw [List.findSome?_append]

theorem owner_spawn (started resourceId jobId : String) (pull : Pull) (outputs : List (Output ν)) :
    owner (.spawn started resourceId pull :: outputs) jobId
      = if started = jobId then some resourceId else owner outputs jobId := by
  unfold owner
  rw [List.findSome?_cons]
  dsimp only
  by_cases hstarted : started = jobId
  · rw [if_pos hstarted, if_pos hstarted]
  · rw [if_neg hstarted, if_neg hstarted]

theorem unseen_reply (jobId : String) (reply : Except ProtocolError (Reply ν)) :
    Unseen jobId [.reply reply] :=
  ⟨rfl, fun _ h => by cases List.mem_singleton.mp h⟩

theorem unseen_stop_reply (jobId : String) (jobIds : Finset String)
    (reply : Except ProtocolError (Reply ν)) : Unseen jobId [.stop jobIds, .reply reply] := by
  refine ⟨rfl, fun completion h => ?_⟩
  rcases List.mem_cons.mp h with h | h
  · cases h
  · cases List.mem_singleton.mp h

theorem lookup_update (jobs : Jobs ν) (jobId other : String)
    (change : ProviderJob ν → ProviderJob ν) :
    (jobs.update jobId change).lookup other
      = if other = jobId then (jobs.lookup other).map change else jobs.lookup other := by
  unfold Jobs.update
  by_cases hother : other = jobId
  · subst hother
    rw [if_pos rfl]
    cases hjob : jobs.lookup other with
    | none => exact hjob
    | some job => exact Finmap.lookup_insert _
  · rw [if_neg hother]
    cases jobs.lookup jobId with
    | none => rfl
    | some job => exact Finmap.lookup_insert_of_ne _ hother

/-- What looking for a job's message does to any job. -/
theorem change_poll (s : State ν) (jobId polled : String)
    {outputs : List (Output ν)} (hunseen : Unseen jobId outputs) :
    Change uuid s input jobId outputs (s.jobs.lookup jobId) ((s.jobs.poll polled).lookup jobId) := by
  unfold Jobs.poll
  rw [lookup_update]
  split
  · cases s.jobs.lookup jobId with
    | none => exact .same hunseen
    | some job => exact .polled hunseen
  · exact .same hunseen

theorem status_fst (jobs : Jobs ν) (jobId : String) : (jobs.status jobId).1 = jobs.poll jobId := by
  unfold Jobs.status
  dsimp only
  split <;> rfl

theorem result_fst (jobs : Jobs ν) (jobId : String) : (jobs.result jobId).1 = jobs.poll jobId := by
  unfold Jobs.result
  dsimp only
  split <;> rfl

theorem change_cancel (s : State ν) (jobId cancelled : String)
    (reply : Except ProtocolError (Reply ν)) :
    Change uuid s input jobId [.stop (s.jobs.cancel cancelled).2.2, .reply reply] (s.jobs.lookup jobId)
      ((s.jobs.cancel cancelled).1.lookup jobId) := by
  unfold Jobs.cancel
  cases hjob : s.jobs.lookup cancelled with
  | none => exact .same (unseen_stop_reply ..)
  | some job =>
    -- a job that is over is left as it is
    by_cases hrunning : job.state ≠ .running
    · dsimp only
      rw [if_pos hrunning]
      exact .same (unseen_stop_reply ..)
    · dsimp only
      rw [if_neg hrunning]
      -- the cancelled job has its worker stopped
      by_cases hother : jobId = cancelled
      · subst hother
        rw [hjob, Finmap.lookup_insert]
        refine .cancelled (unseen_stop_reply ..) (not_not.mp hrunning) fun hcancellation => ?_
        rw [if_pos hcancellation]
        exact List.mem_cons_self
      · rw [Finmap.lookup_insert_of_ne _ hother]
        exact .same (unseen_stop_reply ..)

theorem unseen_close (s : State ν) (jobId closing : String) :
    Unseen jobId (dispatch uuid s (.jobClose closing)).2 := by
  change Unseen jobId (Output.stop (s.jobs.close closing).2
    :: (if closing ∈ s.jobs then [Output.jobClosed closing] else []) ++ [.reply (.ok .null)])
  by_cases hclosing : closing ∈ s.jobs
  · rw [if_pos hclosing]
    refine ⟨rfl, fun completion h => ?_⟩
    simp at h
  · rw [if_neg hclosing]
    exact unseen_stop_reply ..

theorem change_close (s : State ν) (jobId closing : String) :
    Change uuid s input jobId (dispatch uuid s (.jobClose closing)).2 (s.jobs.lookup jobId)
      ((dispatch uuid s (.jobClose closing)).1.jobs.lookup jobId) := by
  have hunseen := @unseen_close ν uuid s jobId closing
  change Change uuid s input jobId _ _ ((s.jobs.erase closing).lookup jobId)
  by_cases hother : jobId = closing
  · subst hother
    rw [Finmap.lookup_erase]
    cases hjob : s.jobs.lookup jobId with
    | none => exact .same hunseen
    | some job =>
      refine .closed hunseen ?_
      change _ ∈ Output.stop _ :: (if jobId ∈ s.jobs then [Output.jobClosed jobId] else []) ++ _
      rw [if_pos (Finmap.mem_of_lookup_eq_some hjob)]
      exact List.mem_cons_of_mem _ List.mem_cons_self
  · rw [Finmap.lookup_erase_ne hother]
    exact .same hunseen

theorem change_resourceClose (s : State ν) (jobId resourceId : String) :
    Change uuid s (.request (.resourceClose resourceId)) jobId (close s resourceId).2
      (s.jobs.lookup jobId) ((close s resourceId).1.jobs.lookup jobId) := by
  unfold close
  split
  · next hresource =>
    change Change uuid s _ jobId _ _ ((∅ : Jobs ν).lookup jobId)
    rw [Finmap.lookup_empty]
    cases s.jobs.lookup jobId with
    | none => exact .same (unseen_stop_reply ..)
    | some job => exact .cleared (unseen_stop_reply ..) rfl hresource
  · exact .same (unseen_reply ..)

theorem change_openResource (s : State ν) (jobId resourceType : String)
    (connection : Except ProtocolError Unit) :
    Change uuid s input jobId (openResource uuid s resourceType connection).2 (s.jobs.lookup jobId)
      ((openResource uuid s resourceType connection).1.jobs.lookup jobId) := by
  unfold openResource
  split
  · exact .same (unseen_reply ..)
  · cases connection with
    | error error => exact .same (unseen_reply ..)
    | ok connected => exact .same (unseen_reply ..)

theorem change_startJob (s : State ν) (jobId : String) (params : JobStartParams) :
    Change uuid s input jobId (startJob uuid s params).2 (s.jobs.lookup jobId)
      ((startJob uuid s params).1.jobs.lookup jobId) := by
  unfold startJob
  split
  · exact .same (unseen_reply ..)
  cases params.resourceId with
  | none => exact .same (unseen_reply ..)
  | some resourceId =>
    dsimp only
    split
    -- an unknown resource, a wrong kind of job or too many jobs: nothing happens
    case isFalse => exact .same (unseen_reply ..)
    case isTrue hresource =>
      cases pullOf params with
      | error error => exact .same (unseen_reply ..)
      | ok pull =>
        dsimp only
        unfold start
        split
        · exact .same (unseen_reply ..)
        · have hdelivered : ∀ completion, Output.delivered jobId completion ∉
              ([.spawn (jobIdOf uuid s.drawn) resourceId pull,
                .reply (.ok (.started (jobIdOf uuid s.drawn) .running))] : List (Output ν)) := by
            intro completion h
            simp at h
          -- the new job is spawned for the resource; its id is nobody else's
          by_cases hid : jobId = jobIdOf uuid s.drawn
          · subst hid
            rw [Finmap.lookup_insert]
            exact .spawned rfl hresource ((owner_spawn ..).trans (if_pos rfl)) hdelivered
          · rw [Finmap.lookup_insert_of_ne _ hid]
            exact .same ⟨(owner_spawn ..).trans (if_neg (Ne.symm hid)), hdelivered⟩

theorem change_deliver (s : State ν) (jobId sender : String) (completion : Completion ν) :
    Change uuid s input jobId (deliver s sender completion).2 (s.jobs.lookup jobId)
      ((deliver s sender completion).1.jobs.lookup jobId) := by
  have hnothing : Unseen jobId ([] : List (Output ν)) := ⟨rfl, fun _ => List.not_mem_nil⟩
  unfold deliver
  cases hjob : s.jobs.lookup sender with
  | none => exact .same hnothing
  | some job =>
    dsimp only
    split
    · next hwaiting =>
      -- the completion goes to the job whose worker has sent it, if that one waits for it
      by_cases hother : jobId = sender
      · subst hother
        rw [hjob, Finmap.lookup_insert]
        exact .delivered hwaiting rfl
      · rw [Finmap.lookup_insert_of_ne _ hother]
        refine .same ⟨rfl, fun completion h => ?_⟩
        cases List.mem_singleton.mp h
        exact hother rfl
    · exact .same hnothing

theorem change_lose (s : State ν) (jobId gone : String) :
    Change uuid s input jobId (lose s gone).2 (s.jobs.lookup jobId)
      ((lose s gone).1.jobs.lookup jobId) := by
  have hnothing : Unseen jobId ([] : List (Output ν)) := ⟨rfl, fun _ => List.not_mem_nil⟩
  unfold lose
  cases hjob : s.jobs.lookup gone with
  | none => exact .same hnothing
  | some job =>
    dsimp only
    split
    · next hwaiting =>
      by_cases hother : jobId = gone
      · subst hother
        rw [hjob, Finmap.lookup_insert]
        exact .lost hwaiting rfl
      · rw [Finmap.lookup_insert_of_ne _ hother]
        exact .same hnothing
    · exact .same hnothing

/-- What a step does to a job. -/
theorem step_change (s : State ν) (jobId : String) (input : Input ν) :
    Change uuid s input jobId (step uuid s input).2 (s.jobs.lookup jobId)
      ((step uuid s input).1.jobs.lookup jobId) := by
  cases input with
  | sent sender completion => exact change_deliver s jobId sender completion
  | lost gone => exact change_lose s jobId gone
  | request request =>
    cases request with
    | resourceOpen resourceType connection =>
      exact change_openResource s jobId resourceType connection
    | resourceClose resourceId => exact change_resourceClose s jobId resourceId
    | jobStart params => exact change_startJob s jobId params
    | jobStatus asked =>
      change Change uuid s _ jobId _ _ ((s.jobs.status asked).1.lookup jobId)
      rw [status_fst]
      exact change_poll s jobId asked (unseen_reply ..)
    | jobCancel cancelled => exact change_cancel s jobId cancelled _
    | jobResult asked =>
      change Change uuid s _ jobId _ _ ((s.jobs.result asked).1.lookup jobId)
      rw [result_fst]
      exact change_poll s jobId asked (unseen_reply ..)
    | jobClose closing => exact change_close s jobId closing
    | undecodable error => exact .same (unseen_reply ..)

/-- Only the delivery gives out a result, to a job that waits for one. -/
theorem Change.of_delivered {s : State ν} {jobId : String} {outputs : List (Output ν)}
    {old new : Option (ProviderJob ν)} {completion : Completion ν}
    (h : Change uuid s input jobId outputs old new) (hmem : .delivered jobId completion ∈ outputs) :
    ∃ job, old = some job ∧ job.completion = some .waiting
      ∧ new = some { job with completion := some (.ready completion) } := by
  cases h with
  | same hunseen => exact absurd hmem (hunseen.2 completion)
  | polled hunseen => exact absurd hmem (hunseen.2 completion)
  | cancelled hunseen _ _ => exact absurd hmem (hunseen.2 completion)
  | closed hunseen _ => exact absurd hmem (hunseen.2 completion)
  | cleared hunseen _ _ => exact absurd hmem (hunseen.2 completion)
  | spawned _ _ _ hnone => exact absurd hmem (hnone completion)
  | lost _ houtputs =>
    rw [houtputs] at hmem
    cases hmem
  | delivered hwaiting houtputs =>
    rw [houtputs] at hmem
    cases List.mem_singleton.mp hmem
    exact ⟨_, rfl, hwaiting, rfl⟩

/-! ### What a step does to the resources -/

/-- What a step does to everything but the single jobs. -/
inductive Turn (uuid : ℕ → String) (s : State ν) (outputs : List (Output ν)) (s' : State ν) : Prop
  | same (hresources : s'.resources = s.resources) (hdrawn : s'.drawn = s.drawn)
      (howner : ∀ jobId, owner outputs jobId = none) : Turn uuid s outputs s'
  | opened (hresources : s'.resources = insert (uuid s.drawn) s.resources)
      (hdrawn : s'.drawn = s.drawn + 1) (howner : ∀ jobId, owner outputs jobId = none) :
      Turn uuid s outputs s'
  | spawned {resourceId : String} (hresource : resourceId ∈ s.resources)
      (hresources : s'.resources = s.resources) (hdrawn : s'.drawn = s.drawn + 1)
      (howner : ∀ jobId, owner outputs jobId
        = if jobIdOf uuid s.drawn = jobId then some resourceId else none) : Turn uuid s outputs s'
  | closed {resourceId : String} (hresource : resourceId ∈ s.resources)
      (hresources : s'.resources = s.resources.erase resourceId) (hdrawn : s'.drawn = s.drawn)
      (hjobs : s'.jobs = ∅) (howner : ∀ jobId, owner outputs jobId = none) : Turn uuid s outputs s'

theorem turn_startJob (s : State ν) (params : JobStartParams) :
    Turn uuid s (startJob uuid s params).2 (startJob uuid s params).1 := by
  unfold startJob
  split
  · exact .same rfl rfl fun _ => rfl
  cases params.resourceId with
  | none => exact .same rfl rfl fun _ => rfl
  | some resourceId =>
    dsimp only
    split
    case isFalse => exact .same rfl rfl fun _ => rfl
    case isTrue hresource =>
      cases pullOf params with
      | error error => exact .same rfl rfl fun _ => rfl
      | ok pull =>
        dsimp only
        unfold start
        split
        · exact .same rfl rfl fun _ => rfl
        · exact .spawned hresource rfl rfl fun jobId => owner_spawn ..

theorem turn_openResource (s : State ν) (resourceType : String)
    (connection : Except ProtocolError Unit) :
    Turn uuid s (openResource uuid s resourceType connection).2
      (openResource uuid s resourceType connection).1 := by
  unfold openResource
  split
  · exact .same rfl rfl fun _ => rfl
  · cases connection with
    | error error => exact .same rfl rfl fun _ => rfl
    | ok connected => exact .opened rfl rfl fun _ => rfl

theorem turn_close (s : State ν) (resourceId : String) :
    Turn uuid s (close s resourceId).2 (close s resourceId).1 := by
  unfold close
  split
  · next hresource => exact .closed hresource rfl rfl rfl fun _ => rfl
  · exact .same rfl rfl fun _ => rfl

/-- What a step does to everything but the single jobs. -/
theorem step_turn (s : State ν) (input : Input ν) :
    Turn uuid s (step uuid s input).2 (step uuid s input).1 := by
  cases input with
  -- answers of workers change jobs, never who owns them
  | sent sender completion =>
    change Turn uuid s (deliver s sender completion).2 (deliver s sender completion).1
    unfold deliver
    split
    · exact .same rfl rfl fun _ => rfl
    · split <;> exact .same rfl rfl fun _ => rfl
  | lost gone =>
    change Turn uuid s (lose s gone).2 (lose s gone).1
    unfold lose
    split
    · exact .same rfl rfl fun _ => rfl
    · split <;> exact .same rfl rfl fun _ => rfl
  | request request =>
    cases request with
    | resourceOpen resourceType connection => exact turn_openResource s resourceType connection
    | resourceClose resourceId => exact turn_close s resourceId
    | jobStart params => exact turn_startJob s params
    | jobStatus asked => exact .same rfl rfl fun _ => rfl
    | jobCancel cancelled => exact .same rfl rfl fun _ => rfl
    | jobResult asked => exact .same rfl rfl fun _ => rfl
    | jobClose closing => exact .same rfl rfl fun jobId => (@unseen_close ν uuid s jobId closing).1
    | undecodable error => exact .same rfl rfl fun _ => rfl

/-- No resource is lost in a step after which there are jobs. -/
theorem Turn.resources_subset {s s' : State ν} {outputs : List (Output ν)}
    (h : Turn uuid s outputs s') {jobId : String} {job : ProviderJob ν}
    (hjob : s'.jobs.lookup jobId = some job) : s.resources ⊆ s'.resources := by
  cases h with
  | same hresources _ _ => exact hresources.symm ▸ Finset.Subset.refl _
  | opened hresources _ _ => exact hresources.symm ▸ Finset.subset_insert _ _
  | spawned _ hresources _ _ => exact hresources.symm ▸ Finset.Subset.refl _
  | closed _ _ _ hjobs _ =>
    rw [hjobs, Finmap.lookup_empty] at hjob
    cases hjob

theorem Turn.drawn_le {s s' : State ν} {outputs : List (Output ν)} (h : Turn uuid s outputs s') :
    s.drawn ≤ s'.drawn := by
  cases h <;> omega

/-! ### The books -/

/-- A job runs and listens to its worker, or it is over and does not. -/
def ProviderJob.Sound (job : ProviderJob ν) : Prop :=
  (job.state = .running ∧ job.cancellation = true ∧ job.completion ≠ none) ∨
    (job.IsOver ∧ job.completion = none)

theorem sound_started : (ProviderJob.started : ProviderJob ν).Sound := Or.inl ⟨rfl, rfl, nofun⟩

theorem ProviderJob.Sound.poll {job : ProviderJob ν} (h : job.Sound) : job.poll.1.Sound := by
  unfold ProviderJob.poll
  split
  · exact h
  · split
    · next hcompletion =>
      rcases h with ⟨-, -, hsome⟩ | ⟨-, hnone⟩
      · exact absurd hcompletion hsome
      · exact Or.inr ⟨Or.inr (Or.inl rfl), hnone⟩
    · exact h
    · next completion _ =>
      cases completion with
      | ok value => exact Or.inr ⟨Or.inl rfl, rfl⟩
      | error message => exact Or.inr ⟨Or.inr (Or.inl rfl), rfl⟩
    · exact Or.inr ⟨Or.inr (Or.inl rfl), rfl⟩

theorem ProviderJob.Sound.receive {job : ProviderJob ν} (h : job.Sound)
    (hwaiting : job.completion = some .waiting) (channel : Channel ν) :
    ProviderJob.Sound { job with completion := some channel } := by
  rcases h with ⟨hrunning, hcancellation, -⟩ | ⟨-, hnone⟩
  · exact Or.inl ⟨hrunning, hcancellation, nofun⟩
  · rw [hnone] at hwaiting
    cases hwaiting

theorem ProviderJob.sound_cancel (job : ProviderJob ν) : job.cancel.Sound :=
  Or.inr ⟨Or.inr (Or.inr rfl), rfl⟩

/-- What is known of the identifiers and of the jobs that are there. -/
structure Books (uuid : ℕ → String) (outputs : List (Output ν)) (s : State ν) : Prop where
  opened : ∀ resourceId ∈ s.resources, ∃ n < s.drawn, resourceId = uuid n
  issued : ∀ jobId resourceId, owner outputs jobId = some resourceId →
    (∃ n < s.drawn, jobId = jobIdOf uuid n) ∧ ∃ n < s.drawn, resourceId = uuid n
  owned : ∀ jobId job, s.jobs.lookup jobId = some job →
    ∃ resourceId ∈ s.resources, owner outputs jobId = some resourceId
  sound : ∀ jobId job, s.jobs.lookup jobId = some job → job.Sound
  seen : ∀ jobId completion, .delivered jobId completion ∈ outputs →
    owner outputs jobId ≠ none

theorem books_initial : Books uuid [] (.initial ν) where
  opened _ h := absurd h (Finset.notMem_empty _)
  issued _ _ h := by cases h
  owned jobId job h := by
    rw [State.initial, Finmap.lookup_empty] at h
    cases h
  sound jobId job h := by
    rw [State.initial, Finmap.lookup_empty] at h
    cases h
  seen _ _ h := absurd h List.not_mem_nil

theorem jobIdOf_injective (huuid : Function.Injective uuid) : Function.Injective (jobIdOf uuid) := by
  intro m n h
  have htext := congrArg String.toList h
  unfold jobIdOf at htext
  rw [String.toList_append, String.toList_append] at htext
  exact huuid (String.toList_inj.mp (List.append_cancel_left htext))

/-- The next job's identifier has not been used. -/
theorem Books.fresh (huuid : Function.Injective uuid) {outputs : List (Output ν)} {s : State ν}
    (h : Books uuid outputs s) : owner outputs (jobIdOf uuid s.drawn) = none := by
  by_contra hne
  obtain ⟨resourceId, howner⟩ := Option.ne_none_iff_exists'.mp hne
  obtain ⟨⟨n, hn, hid⟩, -⟩ := h.issued _ _ howner
  exact absurd (jobIdOf_injective huuid hid) (Nat.ne_of_gt hn)

theorem owner_append_of_some {before : List (Output ν)} {jobId resourceId : String}
    (h : owner before jobId = some resourceId) (after : List (Output ν)) :
    owner (before ++ after) jobId = some resourceId := by
  rw [owner_append, h]
  rfl

theorem owner_append_of_none {after : List (Output ν)} {jobId : String}
    (h : owner after jobId = none) (before : List (Output ν)) :
    owner (before ++ after) jobId = owner before jobId := by
  rw [owner_append, h, Option.or_none]

/-- The resources and the identifiers are where they were, or the next ones. -/
theorem Books.turn {outputs emitted : List (Output ν)} {s s' : State ν}
    (h : Books uuid outputs s) (hturn : Turn uuid s emitted s') :
    (∀ resourceId ∈ s'.resources, ∃ n < s'.drawn, resourceId = uuid n) ∧
      ∀ jobId resourceId, owner (outputs ++ emitted) jobId = some resourceId →
        (∃ n < s'.drawn, jobId = jobIdOf uuid n) ∧ ∃ n < s'.drawn, resourceId = uuid n := by
  have hle := hturn.drawn_le
  -- what was given out before is still below the counter
  have hopened : ∀ resourceId ∈ s.resources, ∃ n < s'.drawn, resourceId = uuid n := by
    intro resourceId hresource
    obtain ⟨n, hn, hid⟩ := h.opened resourceId hresource
    exact ⟨n, lt_of_lt_of_le hn hle, hid⟩
  have hissued : ∀ jobId resourceId, owner outputs jobId = some resourceId →
      (∃ n < s'.drawn, jobId = jobIdOf uuid n) ∧ ∃ n < s'.drawn, resourceId = uuid n := by
    intro jobId resourceId howner
    obtain ⟨⟨m, hm, hjob⟩, n, hn, hresource⟩ := h.issued jobId resourceId howner
    exact ⟨⟨m, lt_of_lt_of_le hm hle, hjob⟩, n, lt_of_lt_of_le hn hle, hresource⟩
  cases hturn with
  | same hresources hdrawn howner =>
    rw [hresources]
    refine ⟨hopened, fun jobId resourceId hsome => hissued jobId resourceId ?_⟩
    rwa [owner_append_of_none (howner jobId)] at hsome
  | opened hresources hdrawn howner =>
    rw [hresources]
    refine ⟨fun resourceId hresource => ?_, fun jobId resourceId hsome => ?_⟩
    · rcases Finset.mem_insert.mp hresource with hnew | hold
      · exact ⟨s.drawn, by omega, hnew⟩
      · exact hopened resourceId hold
    · rw [owner_append_of_none (howner jobId)] at hsome
      exact hissued jobId resourceId hsome
  -- a new job is owned by the resource that it was started for
  | @spawned resource hresource hresources hdrawn howner =>
    rw [hresources]
    refine ⟨hopened, fun jobId resourceId hsome => ?_⟩
    rw [owner_append, howner] at hsome
    cases hold : owner outputs jobId with
    | some old =>
      rw [hold] at hsome
      cases hsome
      exact hissued jobId _ hold
    | none =>
      rw [hold, Option.none_or] at hsome
      split at hsome
      · next hid =>
        cases hsome
        exact ⟨⟨s.drawn, by omega, hid.symm⟩, hopened _ hresource⟩
      · cases hsome
  | closed hresource hresources hdrawn hjobs howner =>
    rw [hresources]
    refine ⟨fun resourceId hmem => hopened resourceId (Finset.mem_of_mem_erase hmem),
      fun jobId resourceId hsome => hissued jobId resourceId ?_⟩
    rwa [owner_append_of_none (howner jobId)] at hsome

theorem Books.step (huuid : Function.Injective uuid) {outputs : List (Output ν)} {s : State ν}
    (h : Books uuid outputs s) (input : Input ν) :
    Books uuid (outputs ++ (step uuid s input).2) (step uuid s input).1 := by
  have hturn := @step_turn ν uuid s input
  have hchange := fun jobId => @step_change ν uuid s jobId input
  obtain ⟨hopened, hissued⟩ := h.turn hturn
  refine ⟨hopened, hissued, ?_, ?_, ?_⟩
  · intro jobId job' hjob'
    have hsubset := hturn.resources_subset hjob'
    -- whatever happens to a job that was there, its resource stays the same
    have hkept : ∀ job, s.jobs.lookup jobId = some job → ∃ resourceId ∈ (Docker.step uuid s input).1.resources,
        owner (outputs ++ (Docker.step uuid s input).2) jobId = some resourceId := by
      intro job hjob
      obtain ⟨resourceId, hresource, howner⟩ := h.owned jobId job hjob
      exact ⟨resourceId, hsubset hresource, owner_append_of_some howner _⟩
    have hjobChange := hchange jobId
    rw [hjob'] at hjobChange
    generalize hold : s.jobs.lookup jobId = old at hjobChange
    cases hjobChange with
    | same _ => exact hkept _ hold
    | polled _ => exact hkept _ hold
    | delivered _ _ => exact hkept _ hold
    | lost _ _ => exact hkept _ hold
    | cancelled _ _ _ => exact hkept _ hold
    | @spawned _ resourceId hid hresource howner _ =>
      refine ⟨resourceId, hsubset hresource, ?_⟩
      rw [owner_append, hid, h.fresh huuid, ← hid, howner]
      rfl
  · intro jobId job' hjob'
    have hjobChange := hchange jobId
    rw [hjob'] at hjobChange
    generalize hold : s.jobs.lookup jobId = old at hjobChange
    cases hjobChange with
    | same _ => exact h.sound jobId _ hold
    | polled _ => exact (h.sound jobId _ hold).poll
    | delivered hwaiting _ => exact (h.sound jobId _ hold).receive hwaiting _
    | lost hwaiting _ => exact (h.sound jobId _ hold).receive hwaiting _
    | cancelled _ _ _ => exact ProviderJob.sound_cancel _
    | spawned _ _ _ _ => exact sound_started
  · intro jobId completion hdelivered
    have hseen : ∀ resourceId, owner outputs jobId = some resourceId →
        owner (outputs ++ (Docker.step uuid s input).2) jobId ≠ none := by
      intro resourceId howner
      rw [owner_append_of_some howner]
      exact nofun
    rcases List.mem_append.mp hdelivered with hbefore | hnow
    · obtain ⟨resourceId, howner⟩ := Option.ne_none_iff_exists'.mp (h.seen jobId completion hbefore)
      exact hseen resourceId howner
    · obtain ⟨job, hold, -, -⟩ := (hchange jobId).of_delivered hnow
      obtain ⟨resourceId, -, howner⟩ := h.owned jobId job hold
      exact hseen resourceId howner

theorem books_run (huuid : Function.Injective uuid) (inputs : List (Input ν)) :
    Books uuid (run uuid inputs).2 (run uuid inputs).1 :=
  Machine.run_history (H := fun _ outputs s => Books uuid outputs s) (P := fun _ => True)
    (fun _ _ _ => trivial) (fun _ _ _ input h _ => h.step huuid input) books_initial trivial

/-! ### Jobs that are over -/

/-- Nothing happens any more to a job that is over, but that it is removed. -/
theorem Change.settled {s : State ν} {jobId : String} {outputs : List (Output ν)} {job : ProviderJob ν}
    {new : Option (ProviderJob ν)} (h : Change uuid s input jobId outputs (some job) new)
    (hover : job.IsOver) (hcompletion : job.completion = none)
    (hid : jobId ≠ jobIdOf uuid s.drawn) : new = none ∨ new = some job := by
  -- a job that is over is not running, so that nothing but taking it away can change it
  have hstopped : job.state ≠ .running := by
    intro hrunning
    rcases hover with h | h | h <;> rw [h] at hrunning <;> cases hrunning
  cases h with
  | same _ => exact Or.inr rfl
  | spawned hnew _ _ _ => exact absurd hnew hid
  | polled _ =>
    refine Or.inr (congrArg some ?_)
    unfold ProviderJob.poll
    rw [if_pos hstopped]
  | delivered hwaiting _ =>
    rw [hcompletion] at hwaiting
    cases hwaiting
  | lost hwaiting _ =>
    rw [hcompletion] at hwaiting
    cases hwaiting
  | cancelled _ hrunning _ => exact absurd hrunning hstopped
  | closed _ _ => exact Or.inl rfl
  | cleared _ _ _ => exact Or.inl rfl

/-- A job that was removed does not come back. -/
theorem Change.gone {s : State ν} {jobId : String} {outputs : List (Output ν)}
    {new : Option (ProviderJob ν)} (h : Change uuid s input jobId outputs none new)
    (hid : jobId ≠ jobIdOf uuid s.drawn) : new = none := by
  cases h with
  | same _ => rfl
  | spawned hnew _ _ _ => exact absurd hnew hid

/-- A job that is over stays as it is, for as long as it is there. -/
theorem settled_run (huuid : Function.Injective uuid) (before after : List (Input ν)) {jobId : String}
    {job job' : ProviderJob ν} (hjob : (run uuid before).1.jobs.lookup jobId = some job)
    (hover : job.IsOver) (hjob' : (run uuid (before ++ after)).1.jobs.lookup jobId = some job') :
    job' = job := by
  have hbooks := books_run huuid before
  obtain ⟨resourceId, -, howner⟩ := hbooks.owned jobId job hjob
  obtain ⟨hissued, -⟩ := hbooks.issued jobId resourceId howner
  -- a job that is over waits for nothing
  have hcompletion : job.completion = none := by
    rcases hbooks.sound jobId job hjob with ⟨hrunning, -⟩ | ⟨-, hnone⟩
    · rcases hover with h | h | h <;> rw [h] at hrunning <;> cases hrunning
    · exact hnone
  have hkept : (∃ n < (Machine.run (step uuid) (run uuid before).1 after).1.drawn,
        jobId = jobIdOf uuid n) ∧
      ((Machine.run (step uuid) (run uuid before).1 after).1.jobs.lookup jobId = none ∨
        (Machine.run (step uuid) (run uuid before).1 after).1.jobs.lookup jobId = some job) := by
    -- along the rest of the run the job stays as it is, or is gone for good, since its id is not given
    -- out again
    refine Machine.run_inv
      (I := fun s : State ν => (∃ n < s.drawn, jobId = jobIdOf uuid n) ∧
        (s.jobs.lookup jobId = none ∨ s.jobs.lookup jobId = some job))
      (P := fun _ => True) (fun s input hs _ => ?_) ⟨hissued, Or.inr hjob⟩ fun _ _ => trivial
    obtain ⟨⟨n, hn, hid⟩, hlookup⟩ := hs
    have hne : jobId ≠ jobIdOf uuid s.drawn := by
      rw [hid]
      exact fun h => absurd (jobIdOf_injective huuid h) (Nat.ne_of_lt hn)
    refine ⟨⟨n, lt_of_lt_of_le hn (step_turn s input).drawn_le, hid⟩, ?_⟩
    have hchange := @step_change ν uuid s jobId input
    rcases hlookup with hnone | hsome
    · rw [hnone] at hchange
      exact Or.inl (hchange.gone hne)
    · rw [hsome] at hchange
      exact hchange.settled hover hcompletion hne
  have hrun : (run uuid (before ++ after)).1
      = (Machine.run (step uuid) (run uuid before).1 after).1 := by
    unfold run
    rw [Machine.run_append]
  rw [hrun] at hjob'
  rcases hkept.2 with hnone | hsome
  · rw [hnone] at hjob'
    cases hjob'
  · rw [hsome] at hjob'
    cases hjob'
    rfl

/-! ### Results -/

/-- A job has received a result, or has it already. -/
def ProviderJob.Holds (job : ProviderJob ν) (value : ν) : Prop :=
  (job.state = .running ∧ job.completion = some (.ready (.ok value))) ∨
    (job.state = .succeeded ∧ job.result = some value)

theorem ProviderJob.Holds.poll {job : ProviderJob ν} {value : ν} (h : job.Holds value) :
    job.poll.1.state = .succeeded ∧ job.poll.1.result = some value := by
  rcases h with ⟨hrunning, hready⟩ | ⟨hsucceeded, hresult⟩
  · unfold ProviderJob.poll
    rw [if_neg (not_not.mpr hrunning), hready]
    exact ⟨rfl, rfl⟩
  · unfold ProviderJob.poll
    rw [if_pos (by rw [hsucceeded]; decide)]
    exact ⟨hsucceeded, hresult⟩

theorem ProviderJob.Holds.not_waiting {job : ProviderJob ν} {value : ν} (h : job.Holds value)
    (hsound : job.Sound) : job.completion ≠ some .waiting := by
  intro hwaiting
  rcases h with ⟨-, hready⟩ | ⟨hsucceeded, -⟩
  · rw [hready] at hwaiting
    cases hwaiting
  · rcases hsound with ⟨hrunning, -⟩ | ⟨-, hnone⟩
    · rw [hsucceeded] at hrunning
      cases hrunning
    · rw [hnone] at hwaiting
      cases hwaiting

/-- A job was told to stop, or removed by its own request. -/
def Ended (outputs : List (Output ν)) (jobId : String) : Prop :=
  .jobClosed jobId ∈ outputs ∨ ∃ jobIds, .stop jobIds ∈ outputs ∧ jobId ∈ jobIds

/-- The results of jobs that went on, on resources that are still open, are there. -/
def Kept (outputs : List (Output ν)) (s : State ν) : Prop :=
  ∀ jobId resourceId value, owner outputs jobId = some resourceId → resourceId ∈ s.resources →
    .delivered jobId (.ok value) ∈ outputs → ¬ Ended outputs jobId →
    ∃ job, s.jobs.lookup jobId = some job ∧ job.Holds value

theorem Ended.append {before : List (Output ν)} {jobId : String} (h : Ended before jobId)
    (after : List (Output ν)) : Ended (before ++ after) jobId := by
  rcases h with hclosed | ⟨jobIds, hstop, hmem⟩
  · exact Or.inl (List.mem_append_left _ hclosed)
  · exact Or.inr ⟨jobIds, List.mem_append_left _ hstop, hmem⟩

/-- The jobs that are there when a resource is closed were started on it. -/
def OwnJobs (outputs : List (Output ν)) (s : State ν) (input : Input ν) : Prop :=
  ∀ resourceId, input = .request (.resourceClose resourceId) → resourceId ∈ s.resources →
    ∀ jobId job, s.jobs.lookup jobId = some job → owner outputs jobId = some resourceId

theorem close_of_mem {s : State ν} {resourceId : String} (h : resourceId ∈ s.resources) :
    close s resourceId
      = ({ s with resources := s.resources.erase resourceId, jobs := ∅ },
        [.stop s.jobs.stoppable, .reply (.ok .null)]) := if_pos h

theorem Kept.step (huuid : Function.Injective uuid) {outputs : List (Output ν)} {s : State ν}
    (hbooks : Books uuid outputs s) (h : Kept outputs s) (hown : OwnJobs outputs s input) :
    Kept (outputs ++ (step uuid s input).2) (step uuid s input).1 := by
  intro jobId resourceId value howner' hresource' hdelivered hended'
  have hended : ¬ Ended outputs jobId := fun hended => hended' (hended.append _)
  have hchange := @step_change ν uuid s jobId input
  have hsome : owner outputs jobId ≠ none := by
    rcases List.mem_append.mp hdelivered with hbefore | hnow
    · exact hbooks.seen jobId _ hbefore
    · obtain ⟨job, hold, -, -⟩ := hchange.of_delivered hnow
      obtain ⟨resourceId, -, howner⟩ := hbooks.owned jobId job hold
      rw [howner]
      exact nofun
  obtain ⟨resource, howner⟩ := Option.ne_none_iff_exists'.mp hsome
  rw [owner_append_of_some howner] at howner'
  cases howner'
  obtain ⟨-, n, hn, hid⟩ := hbooks.issued jobId resourceId howner
  have hresource : resourceId ∈ s.resources := by
    cases @step_turn ν uuid s input with
    | same hresources _ _ => exact hresources ▸ hresource'
    | spawned _ hresources _ _ => exact hresources ▸ hresource'
    | closed _ hresources _ _ _ => exact Finset.mem_of_mem_erase (hresources ▸ hresource')
    | opened hresources _ _ =>
      rcases Finset.mem_insert.mp (hresources ▸ hresource') with hnew | hold
      · exact absurd (huuid (hid.symm.trans hnew)) (Nat.ne_of_lt hn)
      · exact hold
  rcases List.mem_append.mp hdelivered with hbefore | hnow
  · obtain ⟨job, hjob, hholds⟩ := h jobId resourceId value howner hresource hbefore hended
    have hsound := hbooks.sound jobId job hjob
    rw [hjob] at hchange
    generalize hnew : (Docker.step uuid s input).1.jobs.lookup jobId = new at hchange
    cases hchange with
    | same _ => exact ⟨job, rfl, hholds⟩
    | polled _ => exact ⟨_, rfl, Or.inr hholds.poll⟩
    | spawned hid _ _ _ =>
      rw [hid, hbooks.fresh huuid] at howner
      cases howner
    | delivered hwaiting _ => exact absurd hwaiting (hholds.not_waiting hsound)
    | lost hwaiting _ => exact absurd hwaiting (hholds.not_waiting hsound)
    | cancelled _ hrunning hstop =>
      rcases hsound with ⟨-, hcancellation, -⟩ | ⟨hover, -⟩
      · exact absurd (Or.inr ⟨{jobId}, List.mem_append_right _ (hstop hcancellation),
          Finset.mem_singleton_self _⟩) hended'
      · rcases hover with hstate | hstate | hstate <;> rw [hstate] at hrunning <;> cases hrunning
    | closed _ hclosed => exact absurd (Or.inl (List.mem_append_right _ hclosed)) hended'
    | cleared _ hinput hclosed =>
      -- the job is one of the resource that is closed, which is not open any more
      have hsame := hown _ hinput hclosed jobId job hjob
      rw [howner] at hsame
      cases hsame
      rw [hinput] at hresource'
      change resourceId ∈ (close s resourceId).1.resources at hresource'
      rw [close_of_mem hclosed] at hresource'
      exact absurd hresource' (Finset.notMem_erase _ _)
  · obtain ⟨job, hold, hwaiting, hnew⟩ := hchange.of_delivered hnow
    rcases hbooks.sound jobId job hold with ⟨hrunning, -⟩ | ⟨-, hnone⟩
    · exact ⟨_, hnew, Or.inl ⟨hrunning, rfl⟩⟩
    · rw [hnone] at hwaiting
      cases hwaiting

/-- Whenever an open resource is closed in a run, all jobs there are were started on it. -/
def OnlyOwnJobs (uuid : ℕ → String) (inputs : List (Input ν)) : Prop :=
  ∀ before input after, inputs = before ++ input :: after →
    OwnJobs (run uuid before).2 (run uuid before).1 input

theorem run_concat (inputs : List (Input ν)) (input : Input ν) :
    run uuid (inputs ++ [input])
      = ((step uuid (run uuid inputs).1 input).1,
        (run uuid inputs).2 ++ (step uuid (run uuid inputs).1 input).2) :=
  Machine.run_concat _ inputs input

theorem kept_run (huuid : Function.Injective uuid) (inputs : List (Input ν))
    (hown : OnlyOwnJobs uuid inputs) : Kept (run uuid inputs).2 (run uuid inputs).1 := by
  induction inputs using List.reverseRecOn with
  | nil =>
    intro jobId resourceId value howner
    cases howner
  | append_singleton inputs input ih =>
    rw [run_concat]
    refine Kept.step huuid (books_run huuid inputs) (ih ?_) (hown inputs input [] rfl)
    intro before earlier after h
    exact hown before earlier (after ++ [input]) (by rw [h, List.append_assoc, List.cons_append])

/-! ### Side by side -/

/-- Closing a resource removes its jobs and tells those of them to stop that run, and no others. -/
structure ClosesOwn (outputs : List (Output ν)) (s : State ν) (resourceId : String) : Prop where
  removed : ∀ jobId, owner outputs jobId = some resourceId →
    (close s resourceId).1.jobs.lookup jobId = none
  unchanged : ∀ jobId job, s.jobs.lookup jobId = some job → owner outputs jobId ≠ some resourceId →
    (close s resourceId).1.jobs.lookup jobId = some job
  stopped : ∃ jobIds, (close s resourceId).2 = [.stop jobIds, .reply (.ok .null)] ∧
    ∀ jobId, jobId ∈ jobIds ↔ owner outputs jobId = some resourceId ∧
      ∃ job, s.jobs.lookup jobId = some job ∧ job.state = .running

/-- Resources do not disturb each other in a run. -/
structure Undisturbed (uuid : ℕ → String) (inputs : List (Input ν)) : Prop where
  closes : ∀ before resourceId after,
    inputs = before ++ .request (.resourceClose resourceId) :: after →
    resourceId ∈ (run uuid before).1.resources →
    ClosesOwn (run uuid before).2 (run uuid before).1 resourceId
  /-- Every job belongs to a resource that is open. -/
  owned : ∀ jobId job, (run uuid inputs).1.jobs.lookup jobId = some job →
    ∃ resourceId ∈ (run uuid inputs).1.resources,
      owner (run uuid inputs).2 jobId = some resourceId
  /-- A job that is over never changes. -/
  settled : ∀ before after, inputs = before ++ after → ∀ jobId job job',
    (run uuid before).1.jobs.lookup jobId = some job → job.IsOver →
    (run uuid inputs).1.jobs.lookup jobId = some job' → job' = job
  /-- The result that a worker has delivered is what a job that went on is asked for. -/
  results : ∀ jobId resourceId value,
    owner (run uuid inputs).2 jobId = some resourceId →
    resourceId ∈ (run uuid inputs).1.resources →
    .delivered jobId (.ok value) ∈ (run uuid inputs).2 → ¬ Ended (run uuid inputs).2 jobId →
    (step uuid (run uuid inputs).1 (.request (.jobResult jobId))).2
      = [.reply (.ok (.result value))]

theorem mem_stoppable {jobs : Jobs ν} {jobId : String} :
    jobId ∈ jobs.stoppable ↔ ∃ job, jobs.lookup jobId = some job ∧ job.isStoppable = true := by
  unfold Jobs.stoppable
  rw [Finset.mem_filter, Option.any_eq_true]
  constructor
  · rintro ⟨-, job, hjob, hstoppable⟩
    exact ⟨job, hjob, hstoppable⟩
  · rintro ⟨job, hjob, hstoppable⟩
    exact ⟨Finmap.mem_keys.mpr (Finmap.mem_of_lookup_eq_some hjob), job, hjob, hstoppable⟩

theorem closesOwn {outputs : List (Output ν)} {s : State ν} (hbooks : Books uuid outputs s)
    {resourceId : String} (hresource : resourceId ∈ s.resources)
    (hown : OwnJobs outputs s (.request (.resourceClose resourceId))) :
    ClosesOwn outputs s resourceId := by
  -- closing clears all jobs, which are the resource's own under the condition
  have howner := hown resourceId rfl hresource
  refine ⟨fun jobId _ => ?_, fun jobId job hjob hother => ?_, s.jobs.stoppable, ?_, fun jobId => ?_⟩
  · rw [close_of_mem hresource]
    exact Finmap.lookup_empty _
  · exact absurd (howner jobId job hjob) hother
  · rw [close_of_mem hresource]
  · rw [mem_stoppable]
    constructor
    · rintro ⟨job, hjob, hstoppable⟩
      obtain ⟨hrunning, -⟩ := Bool.and_eq_true_iff.mp hstoppable
      exact ⟨howner jobId job hjob, job, hjob, of_decide_eq_true hrunning⟩
    · rintro ⟨-, job, hjob, hrunning⟩
      refine ⟨job, hjob, Bool.and_eq_true_iff.mpr ⟨decide_eq_true hrunning, ?_⟩⟩
      -- a running job can be cancelled
      rcases hbooks.sound jobId job hjob with ⟨-, hcancellation, -⟩ | ⟨hover, -⟩
      · exact hcancellation
      · rcases hover with hstate | hstate | hstate <;> rw [hstate] at hrunning <;> cases hrunning

theorem reply_of_holds {s : State ν} {jobId : String} {job : ProviderJob ν} {value : ν}
    (hjob : s.jobs.lookup jobId = some job) (hholds : job.Holds value) :
    (step uuid s (.request (.jobResult jobId))).2 = [.reply (.ok (.result value))] := by
  obtain ⟨hsucceeded, hresult⟩ := hholds.poll
  have hpolled : (s.jobs.poll jobId).lookup jobId = some job.poll.1 := by
    unfold Jobs.poll
    rw [lookup_update, if_pos rfl, hjob]
    rfl
  have houtcome : (s.jobs.result jobId).2 = .ok value := by
    unfold Jobs.result
    dsimp only
    rw [hpolled]
    dsimp only
    unfold ProviderJob.outcome
    rw [hsucceeded, hresult]
  change [Output.reply ((s.jobs.result jobId).2.map .result)] = _
  rw [houtcome]
  rfl

/-- **Resources do not disturb each other.** In every run in which a resource is closed only when all
jobs were started on it, closing a resource concerns its jobs only, no job is left without its resource,
jobs that are over do not change, and delivered results stay. -/
theorem docker_undisturbed (uuid : ℕ → String) (huuid : Function.Injective uuid)
    (inputs : List (Input ν)) (hown : OnlyOwnJobs uuid inputs) : Undisturbed uuid inputs where
  closes before resourceId after hinputs hresource :=
    closesOwn (books_run huuid before) hresource (hown before _ after hinputs)
  owned := (books_run huuid inputs).owned
  settled before after hinputs jobId job job' hjob hover hjob' := by
    rw [hinputs] at hjob'
    exact settled_run huuid before after hjob hover hjob'
  results jobId resourceId value howner hresource hdelivered hended := by
    obtain ⟨job, hjob, hholds⟩ :=
      kept_run huuid inputs hown jobId resourceId value howner hresource hdelivered hended
    exact reply_of_holds hjob hholds

/-! ### Runs -/

/-- A run that closes a resource at its end only. -/
theorem onlyOwnJobs_concat {inputs : List (Input ν)} {input : Input ν}
    (hopen : ∀ resourceId, .request (.resourceClose resourceId) ∉ inputs)
    (hown : OwnJobs (run uuid inputs).2 (run uuid inputs).1 input) :
    OnlyOwnJobs uuid (inputs ++ [input]) := by
  intro before earlier after h
  obtain rfl | ⟨init, last, rfl⟩ := List.eq_nil_or_concat after
  · obtain ⟨rfl, hlast⟩ := List.append_inj' h rfl
    cases hlast
    exact hown
  · rw [List.concat_eq_append, ← List.cons_append, ← List.append_assoc] at h
    obtain ⟨rfl, -⟩ := List.append_inj' h rfl
    intro resourceId hearlier
    rw [hearlier] at hopen
    exact absurd (List.mem_append_right _ List.mem_cons_self) (hopen resourceId)

/-- The request to pull an image. -/
def pullRequest (resourceId : String) : Input ℕ :=
  .request (.jobStart ⟨pullMethod, some resourceId, some "alpine", none, none⟩)

/-- A job is started, and its worker succeeds. -/
def oneResource : List (Input ℕ) :=
  [.request (.resourceOpen "docker" (.ok ())), pullRequest (Nat.repr 0),
    .sent (jobIdOf Nat.repr 1) (.ok 7), .request (.jobResult (jobIdOf Nat.repr 1))]

theorem docker_undisturbed_oneResource :
    Undisturbed Nat.repr (oneResource ++ [.request (.resourceClose (Nat.repr 0))]) := by
  refine docker_undisturbed Nat.repr (fun _ _ => Nat.repr_injective) _ (onlyOwnJobs_concat ?_ ?_)
  · intro resourceId h
    simp [oneResource, pullRequest] at h
  · intro resourceId hinput _ jobId job hjob
    cases hinput
    have hkeys : (run Nat.repr oneResource).1.jobs.keys = {jobIdOf Nat.repr 1} := by decide +kernel
    have hmem := Finmap.mem_keys.mpr (Finmap.mem_of_lookup_eq_some hjob)
    rw [hkeys, Finset.mem_singleton] at hmem
    rw [hmem]
    decide +kernel

/-- A job is started on the second of two resources. -/
def twoResources : List (Input ℕ) :=
  [.request (.resourceOpen "docker" (.ok ())), .request (.resourceOpen "docker" (.ok ())),
    pullRequest (Nat.repr 1)]

/-- Closing the first of two resources removes the job of the second one. -/
theorem foreign_job_removed :
    ¬ ∀ (uuid : ℕ → String) (inputs : List (Input ℕ)), Function.Injective uuid →
      Undisturbed uuid inputs := by
  intro hall
  have hcloses := (hall Nat.repr (twoResources ++ [.request (.resourceClose (Nat.repr 0))])
    fun _ _ => Nat.repr_injective).closes twoResources (Nat.repr 0) [] rfl (by decide +kernel)
  have hjob : (run Nat.repr twoResources).1.jobs.lookup (jobIdOf Nat.repr 2) = some .started := rfl
  have hother : owner (run Nat.repr twoResources).2 (jobIdOf Nat.repr 2) ≠ some (Nat.repr 0) := by
    decide +kernel
  have hkept := hcloses.unchanged _ _ hjob hother
  have hgone : (close (run Nat.repr twoResources).1 (Nat.repr 0)).1.jobs.lookup (jobIdOf Nat.repr 2)
      = none := rfl
  rw [hgone] at hkept
  cases hkept

end Docker
end Navop
