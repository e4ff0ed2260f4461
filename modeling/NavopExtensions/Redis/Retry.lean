import NavopExtensions.Redis.Command

/-!
# Writes are sent once

A command is repeated only if the bytes that were sent as its name say that it reads. Both sides decode
the arguments of a request the same way, so what was classified is what was sent.
-/

namespace Navop
namespace Redis

variable {κ α β : Type*} {codec : Codec}

/-- A command that only reads, up to the case of its letters; `MEMORY` does with `USAGE`. -/
def ReadOnly (command : List (List UInt8)) : Prop :=
  (∃ sent ∈ command.head?, ∃ listed ∈ readOnlyCommands, eqIgnoreAsciiCase sent listed = true) ∨
    (∃ sent ∈ command.head?, eqIgnoreAsciiCase sent (name "MEMORY") = true) ∧
      ∃ sent ∈ command[1]?, eqIgnoreAsciiCase sent (name "USAGE") = true

/-- What a request does to the server and what it says: `request` is what it is decoded to, `commands`
are the commands in that, and `convert` is what becomes of the values. -/
structure Outcome.Disciplined (request : Except ProtocolError κ)
    (commands : κ → List (List (List UInt8))) (convert : α → β) (outcome : Outcome κ α β) : Prop where
  /-- Nothing but the request is sent. -/
  given : ∀ payload answer, (payload, answer) ∈ outcome.sent → request = .ok payload
  /-- A write is sent once. -/
  once : ∀ payload, request = .ok payload → (∃ command ∈ commands payload, ¬ ReadOnly command) →
    outcome.sent.length ≤ 1
  /-- Nothing is sent more than twice, and again only if the connection was lost. -/
  twice : outcome.sent.length ≤ 1 ∨ ∃ payload lost answer,
    outcome.sent = [(payload, .error lost), (payload, answer)] ∧ lost.isConnectionDropped = true
  /-- The values that are returned are those of one attempt. -/
  single : ∀ values, outcome.result = .ok values →
    ∃ payload received, (payload, .ok received) ∈ outcome.sent ∧ values = convert received
  /-- A write that was sent and is reported as failed is not to be repeated. -/
  failed : ∀ payload error, request = .ok payload →
    (∃ command ∈ commands payload, ¬ ReadOnly command) → outcome.sent ≠ [] →
      outcome.result = .error error → error.retryable = some false

/-! ### What is classified is what is sent -/

theorem decodeWireBytes_eq_ok {value : WireBytes} {bytes : List UInt8}
    (h : decodeWireBytes codec value = .ok bytes) :
    wireBytesForRetryCheck codec value = some bytes := by
  cases value with
  | utf8 text => exact congrArg some (Except.ok.inj h)
  | base64 text =>
    simp only [decodeWireBytes] at h
    split at h
    · next decoded hdecoded =>
      obtain rfl := Except.ok.inj h
      rw [wireBytesForRetryCheck, hdecoded]
      rfl
    · exact absurd h (by simp)

/-- The first arguments of a command, as they are sent. -/
theorem mapM_decode_eq_ok {args : List WireBytes} {sent : List (List UInt8)}
    (h : args.mapM (decodeWireBytes codec) = .ok sent) (i : ℕ) :
    args[i]?.bind (wireBytesForRetryCheck codec) = sent[i]? := by
  induction args generalizing sent i with
  | nil =>
    obtain rfl := Except.ok.inj h
    rfl
  | cons arg args ih =>
    rw [List.mapM_cons] at h
    cases hfirst : decodeWireBytes codec arg with
    | error error =>
      rw [hfirst] at h
      exact absurd h (by simp [bind, Except.bind])
    | ok first =>
      cases hrest : args.mapM (decodeWireBytes codec) with
      | error error =>
        rw [hfirst, hrest] at h
        exact absurd h (by simp [bind, Except.bind])
      | ok rest =>
        rw [hfirst, hrest] at h
        obtain rfl := Except.ok.inj h
        -- the first argument, or one of the rest
        cases i with
        | zero => exact decodeWireBytes_eq_ok hfirst
        | succ i => exact ih hrest i

/-- A command that may be repeated only reads. -/
theorem readOnly_of_canRetryCommand {args : List WireBytes} {command : List (List UInt8)}
    (hbuild : buildCommand codec args = .ok command) (hretry : canRetryCommand codec args = true) :
    ReadOnly command := by
  -- a command is not empty
  have hargs : args.mapM (decodeWireBytes codec) = .ok command := by
    cases args with
    | nil => exact absurd hbuild (by simp [buildCommand])
    | cons arg args => exact hbuild
  have hsent := mapM_decode_eq_ok hargs
  unfold canRetryCommand at hretry
  rw [List.head?_eq_getElem?, hsent 0, hsent 1] at hretry
  rw [ReadOnly, List.head?_eq_getElem?]
  cases hname : command[0]? with
  | none =>
    rw [hname] at hretry
    exact absurd hretry (by simp)
  | some sent =>
    simp only [hname] at hretry
    -- `MEMORY` is safe with some subcommands only, every other name is looked up in the list
    by_cases hmemory : eqIgnoreAsciiCase sent (name "MEMORY") = true
    · simp only [hmemory, ↓reduceIte] at hretry
      refine .inr ⟨⟨sent, rfl, hmemory⟩, ?_⟩
      split at hretry
      · next subcommand hsub => exact ⟨subcommand, hsub, hretry⟩
      · exact absurd hretry (by simp)
    · simp only [hmemory] at hretry
      obtain ⟨listed, hlisted, hequal⟩ := List.any_eq_true.mp hretry
      exact .inl ⟨sent, rfl, listed, hlisted, hequal⟩

/-- So do all commands of a pipeline that may be repeated. -/
theorem readOnly_of_canRetryPipeline {commands : List (List WireBytes)}
    {pipeline : List (List (List UInt8))} (hbuild : buildPipeline codec commands = .ok pipeline)
    (hretry : canRetryPipeline codec commands = true) : ∀ command ∈ pipeline, ReadOnly command := by
  rw [canRetryPipeline, Bool.and_eq_true] at hretry
  have hall := List.all_eq_true.mp hretry.2
  clear hretry
  unfold buildPipeline at hbuild
  induction commands generalizing pipeline with
  | nil =>
    obtain rfl := Except.ok.inj hbuild
    exact fun command hcommand => absurd hcommand List.not_mem_nil
  | cons args commands ih =>
    rw [List.mapM_cons] at hbuild
    -- each command of the pipeline is built on its own
    cases hfirst : buildCommand codec args with
    | error error =>
      rw [hfirst] at hbuild
      exact absurd hbuild (by simp [bind, Except.bind])
    | ok first =>
      cases hrest : commands.mapM (buildCommand codec) with
      | error error =>
        rw [hfirst, hrest] at hbuild
        exact absurd hbuild (by simp [bind, Except.bind])
      | ok rest =>
        rw [hfirst, hrest] at hbuild
        obtain rfl := Except.ok.inj hbuild
        intro command hcommand
        obtain rfl | hcommand := List.mem_cons.mp hcommand
        · exact readOnly_of_canRetryCommand hfirst (hall args List.mem_cons_self)
        · exact ih hrest (fun other hother => hall other (List.mem_cons_of_mem _ hother)) command
            hcommand

/-! ### Exchanges -/

section Exchanges

variable {commands : κ → List (List (List UInt8))} {convert : α → β}

/-- A request that sends nothing. -/
theorem Outcome.Disciplined.unsent (request : Except ProtocolError κ) (connection : Connection)
    (error : ProtocolError) :
    (Outcome.mk connection [] (.error error) : Outcome κ α β).Disciplined request commands convert where
  given := fun payload answer hsent => absurd hsent List.not_mem_nil
  once := fun payload _ _ => Nat.zero_le 1
  twice := .inl (Nat.zero_le 1)
  single := fun values hvalues => absurd hvalues (by simp)
  failed := fun payload error _ _ hsent => absurd rfl hsent

/-- A request that sends once and fails, with an error that says so. -/
theorem Outcome.Disciplined.lost (connection : Connection) (payload : κ)
    (answer : Except RedisError α) (error : ProtocolError)
    (hwrite : (∃ command ∈ commands payload, ¬ ReadOnly command) → error.retryable = some false) :
    (Outcome.mk connection [(payload, answer)] (.error error) : Outcome κ α β).Disciplined
      (.ok payload) commands convert where
  given := by
    intro sent answer hsent
    obtain ⟨rfl, -⟩ := Prod.mk.inj (List.mem_singleton.mp hsent)
    rfl
  once := fun payload _ _ => le_rfl
  twice := .inl le_rfl
  single := fun values hvalues => absurd hvalues (by simp)
  failed := by
    intro sent failure hrequest hcommand _ hresult
    obtain rfl := Except.ok.inj hrequest
    obtain rfl := Except.error.inj hresult
    exact hwrite hcommand

/-- A request of reads that is sent again. -/
theorem Outcome.Disciplined.again (connection : Connection) (payload : κ) (error : RedisError)
    (answer : Except RedisError α) (result : Except ProtocolError β)
    (hdropped : error.isConnectionDropped = true)
    (hreads : ¬ ∃ command ∈ commands payload, ¬ ReadOnly command)
    (hsingle : ∀ values, result = .ok values →
      ∃ received, answer = .ok received ∧ values = convert received) :
    (Outcome.mk connection [(payload, .error error), (payload, answer)] result :
      Outcome κ α β).Disciplined (.ok payload) commands convert where
  given := by
    intro sent other hsent
    simp only [List.mem_cons, List.not_mem_nil, or_false, Prod.mk.injEq] at hsent
    obtain ⟨rfl, -⟩ | ⟨rfl, -⟩ := hsent
    · rfl
    · rfl
  -- a pipeline that is sent twice holds no command but such that only read
  once := by
    intro sent hrequest hcommand
    obtain rfl := Except.ok.inj hrequest
    exact absurd hcommand hreads
  twice := .inr ⟨payload, error, answer, rfl, hdropped⟩
  single := by
    intro values hvalues
    obtain ⟨received, rfl, hconvert⟩ := hsingle values hvalues
    exact ⟨payload, received, List.mem_cons_of_mem _ List.mem_cons_self, hconvert⟩
  failed := by
    intro sent failure hrequest hcommand
    obtain rfl := Except.ok.inj hrequest
    exact absurd hcommand hreads

/-- An exchange is disciplined when what may be repeated only reads. -/
theorem exchange_disciplined (network : Network α) (connection : Connection) (database : UInt8)
    {replaySafe : Bool} (payload : κ)
    (hsafe : replaySafe = true → ∀ command ∈ commands payload, ReadOnly command) :
    (exchange network connection database replaySafe payload convert).Disciplined (.ok payload)
      commands convert := by
  have hwrite : (∃ command ∈ commands payload, ¬ ReadOnly command) → replaySafe = false := by
    rintro ⟨command, hcommand, hnot⟩
    cases replaySafe with
    | false => rfl
    | true => exact absurd (hsafe rfl command hcommand) hnot
  unfold exchange
  split
  · exact .unsent _ _ _
  split
  · next value hvalue =>
    -- the first attempt succeeds
    exact {
      given := by
        intro sent answer hsent
        obtain ⟨rfl, -⟩ := Prod.mk.inj (List.mem_singleton.mp hsent)
        rfl
      once := fun _ _ _ => le_rfl
      twice := .inl le_rfl
      single := by
        intro values hvalues
        obtain rfl := Except.ok.inj hvalues
        exact ⟨payload, value, List.mem_cons_self, rfl⟩
      failed := fun _ _ _ _ _ herror => absurd herror (by simp) }
  · next error herror =>
    dsimp only
    by_cases hdropped : error.isConnectionDropped = true
    · simp only [hdropped, ↓reduceIte]
      cases replaySafe with
      | false => exact .lost _ _ _ _ fun _ => rfl
      | true =>
        have hreads : ¬ ∃ command ∈ commands payload, ¬ ReadOnly command :=
          fun hcommand => absurd (hwrite hcommand) (by simp)
        simp only [Bool.not_true, Bool.false_eq_true, ↓reduceIte]
        split
        · exact .lost _ _ _ _ fun hcommand => absurd hcommand hreads
        split
        · exact .lost _ _ _ _ fun hcommand => absurd hcommand hreads
        split
        · next value hvalue =>
          exact .again _ _ _ _ _ hdropped hreads fun values hvalues =>
            ⟨value, rfl, (Except.ok.inj hvalues).symm⟩
        · exact .again _ _ _ _ _ hdropped hreads fun values hvalues => absurd hvalues (by simp)
    · simp only [hdropped]
      refine .lost _ _ _ _ fun hcommand => ?_
      rw [hwrite hcommand]
      rfl

end Exchanges

/-- **Retries never repeat a write**, of a command or of a pipeline. -/
theorem retries_repeat_no_write (codec : Codec) (connection : Connection) (database : Option UInt8) :
    (∀ (network : Network Value) (args : List WireBytes),
      (execute codec network connection database args).Disciplined (buildCommand codec args)
        (fun command => [command]) (redisValue codec)) ∧
    ∀ (network : Network (List Value)) (commands : List (List WireBytes)),
      (executePipeline codec network connection database commands).Disciplined
        (buildPipeline codec commands) id (fun values => values.map (redisValue codec)) := by
  constructor
  · intro network args
    unfold execute
    cases hcommand : buildCommand codec args with
    | error error => exact .unsent _ _ _
    | ok command =>
      refine exchange_disciplined _ _ _ _ fun hretry other hother => ?_
      obtain rfl := List.mem_singleton.mp hother
      exact readOnly_of_canRetryCommand hcommand hretry
  · intro network commands
    unfold executePipeline
    cases hpipeline : buildPipeline codec commands with
    | error error => exact .unsent _ _ _
    | ok pipeline => exact exchange_disciplined _ _ _ _ (readOnly_of_canRetryPipeline hpipeline)

end Redis
end Navop
