import NavopExtensions.Dbipc.Calls

/-!
# Transactions that the database has failed to end

A transaction whose commit or rollback fails stays in the table, though nothing can be done with it any
more: it has ended as far as `database/sql` is concerned. `Marked` says that the entry knows this, exactly
if the history does. So everything that is asked of it afterwards is answered with an error, a rollback as
well as the closing of its connection, until that closing takes it away (`stuck`).
-/

namespace Navop
namespace DbipcServer

open History Machine Tables

variable {ρ : Type*} {spec : String} {answers : Answers ρ} {s s' : State ρ} {request : Request}
  {reply : Reply ρ} {log : List (Event ρ)} {txID : String}

/-- A transaction has once failed to end. -/
def EndFailed (log : List (Event ρ)) (txID : String) : Prop :=
  ∃ event ∈ log, FailedEnd event.request event.reply txID

/-- The transactions in the table that have ended are those that have failed to end; they were begun. -/
structure Marked (spec : String) (log : List (Event ρ)) (s : State ρ) : Prop where
  ended_iff : ∀ txID tx, s.txs.lookup txID = some tx → (tx.ended = true ↔ EndFailed log txID)
  given : ∀ txID, EndFailed log txID → Given spec s (.tx txID)

theorem endFailed_concat {event : Event ρ} : EndFailed (log ++ [event]) txID ↔
    EndFailed log txID ∨ FailedEnd event.request event.reply txID := by
  simp [EndFailed, or_and_right, exists_or]

/-- What a request does to a transaction: it fails to end it, or leaves it; or it begins it. -/
theorem Change.tx_of_lookup (h : Change spec answers s request s' reply) {tx' : Tx}
    (hlookup : s'.txs.lookup txID = some tx') :
    (∃ tx, s.txs.lookup txID = some tx ∧
        (tx'.ended = true ↔ tx.ended = true ∨ FailedEnd request reply txID)) ∨
      (txID = txIDOf spec s.nextTx ∧ tx'.ended = false ∧ ¬ FailedEnd request reply txID) := by
  -- Where no transaction fails to end, the entry is an old one.
  have hold : s.txs.lookup txID = some tx' → ¬ FailedEnd request reply txID →
      (∃ tx, s.txs.lookup txID = some tx ∧
        (tx'.ended = true ↔ tx.ended = true ∨ FailedEnd request reply txID)) ∨
      (txID = txIDOf spec s.nextTx ∧ tx'.ended = false ∧ ¬ FailedEnd request reply txID) :=
    fun hbefore hnot => .inl ⟨tx', hbefore, by rw [or_iff_left hnot]⟩
  have hends : ∀ {request : Request} {reply : Reply ρ}, request.ends ≠ some (.tx txID) →
      ¬ FailedEnd request reply txID := fun hne hfailed => hne hfailed.1
  cases h with
  | kept hidle => exact hold hlookup (hidle.failedEnd txID)
  | cursorSet hidle => exact hold hlookup (hidle.failedEnd txID)
  | importSet => exact hold hlookup (hends (by simp [Request.ends]))
  | streams hidle => exact hold hlookup (hidle.failedEnd txID)
  | initialized => exact hold hlookup (hends (by simp [Request.ends]))
  | opened => exact hold hlookup (hends (by simp [Request.ends]))
  | started => exact hold hlookup (hends (by simp [Request.ends]))
  | cursorErased => exact hold hlookup (hends (by simp [Request.ends]))
  | importing => exact hold hlookup (hends (by simp [Request.ends]))
  | importErased hrequest => exact hold hlookup (hends (by simp [hrequest]))
  | shutDown => rw [Finmap.lookup_empty] at hlookup; cases hlookup
  | closed =>
    rw [Finmap.lookup_retain] at hlookup
    exact hold (Option.filter_eq_some_iff.1 hlookup).1 (hends (by simp [Request.ends]))
  | begun =>
    by_cases hkey : txID = txIDOf spec s.nextTx
    · subst hkey
      rw [Finmap.lookup_insert] at hlookup
      obtain rfl := Option.some.inj hlookup
      exact .inr ⟨rfl, rfl, hends (by simp [Request.ends])⟩
    · rw [Finmap.lookup_insert_of_ne _ hkey] at hlookup
      exact hold hlookup (hends (by simp [Request.ends]))
  | @endFailed request failedID tx hrequest hbefore =>
    by_cases hkey : txID = failedID
    · subst hkey
      rw [Finmap.lookup_insert] at hlookup
      obtain rfl := Option.some.inj hlookup
      exact .inl ⟨tx, hbefore, iff_of_true rfl (.inr ⟨hrequest, rfl⟩)⟩
    · rw [Finmap.lookup_insert_of_ne _ hkey] at hlookup
      exact hold hlookup (hends (by simp [hrequest, Ne.symm hkey]))
  | @ended request endedID hrequest =>
    by_cases hkey : txID = endedID
    · subst hkey
      rw [Finmap.lookup_erase] at hlookup
      cases hlookup
    · rw [Finmap.lookup_erase_ne hkey] at hlookup
      exact hold hlookup fun h => by cases h.2

/-- A transaction that fails to end was begun. -/
theorem Change.given_of_failedEnd (h : Change spec answers s request s' reply) (hs : Sound spec s)
    (hfailed : FailedEnd request reply txID) : Given spec s (.tx txID) := by
  obtain ⟨hends, hreply⟩ := hfailed
  cases h with
  | kept hidle => exact absurd ⟨hends, hreply⟩ (hidle.failedEnd txID)
  | cursorSet hidle => exact absurd ⟨hends, hreply⟩ (hidle.failedEnd txID)
  | importSet => cases hends
  | streams hidle => exact absurd ⟨hends, hreply⟩ (hidle.failedEnd txID)
  | importErased hrequest => rw [hrequest] at hends; cases hends
  | endFailed hrequest hlookup =>
    rw [hrequest] at hends
    cases hends
    exact (hs.txs _ _ hlookup).2
  | closed => cases hends
  | shutDown => cases hends
  | _ => cases hreply

theorem Marked.step {event : Event ρ} (h : Marked spec log s) (hs : Sound spec s)
    (hchange : Change spec answers s event.request s' event.reply) : Marked spec (log ++ [event]) s' where
  ended_iff txID tx' hlookup := by
    rw [endFailed_concat]
    rcases hchange.tx_of_lookup hlookup with ⟨tx, hbefore, hiff⟩ | ⟨rfl, hended, hnot⟩
    · rw [hiff, h.ended_iff txID tx hbefore]
    · -- A new transaction has no history.
      have hnew : ¬ EndFailed log (txIDOf spec s.nextTx) := fun hfailed =>
        not_exists_idOf (h.given _ hfailed)
      simp [hended, hnew, hnot]
  given txID hfailed := by
    rcases endFailed_concat.1 hfailed with hfailed | hfailed
    · exact hchange.given (h.given txID hfailed)
    · exact hchange.given (hchange.given_of_failedEnd hs hfailed)

/-! ### What is asked of a transaction -/

/-- A request asks something of a transaction. -/
def Request.AsksOf (txID : String) : Request → Prop
  | .queryStart _ _ _ _ named => named = txID
  | .execRun _ _ _ named => named = txID
  | .txCommit named => named = txID
  | .txRollback named _ => named = txID
  | .txSavepoint named _ => named = txID
  | .txRelease named _ => named = txID
  | _ => False

section Ended

variable {marshals : ρ → Bool} {quote : String → String} {isPrint : Char → Bool} {tx : Tx}

theorem executorFor_of_ended (hlookup : s.txs.lookup txID = some tx) (hended : tx.ended = true)
    (hne : txID ≠ "") (connID : ℕ) :
    (∃ code message, executorFor s txID connID = .error (refuse s code message)) ∨
      executorFor s txID connID = .ok (some txID, true) := by
  unfold executorFor txForRequest
  rw [if_neg hne, hlookup]
  by_cases hconn : tx.connID ≠ connID
  · simp only [if_pos hconn]
    exact .inl ⟨_, _, rfl⟩
  · simp only [if_neg hconn]
    exact .inr (by rw [Except.map, hended])

theorem isError_savepoint (hended : tx.ended = true) (sql : String) :
    (runSavepoint answers s txID tx sql).reply.isError = true := by
  simp [runSavepoint, hended, Reply.isError]

theorem isError_endTx (hended : tx.ended = true) (call : Call) :
    (endTx answers s txID tx call).reply.isError = true := by
  simp [endTx, hended, Reply.isError]

theorem isError_handleSavepoint (hlookup : s.txs.lookup txID = some tx) (hended : tx.ended = true)
    (statement name : String) :
    (handleSavepoint quote answers s statement txID name).reply.isError = true := by
  unfold handleSavepoint
  rw [hlookup]
  dsimp only
  split
  · rfl
  · exact isError_savepoint hended _

/-- Nothing that is asked of a transaction that has ended succeeds. -/
theorem isError_of_asksOf (hlookup : s.txs.lookup txID = some tx) (hended : tx.ended = true)
    (hne : txID ≠ "") (hrequest : request.AsksOf txID) :
    (handle spec marshals quote isPrint answers s request).reply.isError = true := by
  unfold handle
  split
  · rfl
  next hserved =>
    clear hserved
    -- every request that names the transaction uses the connection that it has no more
    cases request <;> first | exact absurd hrequest id | dsimp only
    case queryStart connID sql params maxRows named =>
      obtain rfl := hrequest
      unfold handleQueryStart
      split
      · cases params with
        | some message => rfl
        | none =>
          rcases executorFor_of_ended hlookup hended hne connID with ⟨code, message, h⟩ | h
          · rw [h]; rfl
          · rw [h]; rfl
      · rfl
    case execRun connID sql params named =>
      obtain rfl := hrequest
      unfold handleExecRun
      split
      · cases params with
        | some message => rfl
        | none =>
          rcases executorFor_of_ended hlookup hended hne connID with ⟨code, message, h⟩ | h
          · rw [h]; rfl
          · rw [h]; rfl
      · rfl
    case txCommit named =>
      obtain rfl := hrequest
      unfold handleTxCommit
      rw [hlookup]
      exact isError_endTx hended _
    case txRollback named toSavepoint =>
      obtain rfl := hrequest
      unfold handleTxRollback
      rw [hlookup]
      dsimp only
      split
      · exact isError_savepoint hended _
      · exact isError_endTx hended _
    case txSavepoint named name =>
      obtain rfl := hrequest
      exact isError_handleSavepoint hlookup hended _ name
    case txRelease named name =>
      obtain rfl := hrequest
      exact isError_handleSavepoint hlookup hended _ name

/-- The closing of its connection fails. -/
theorem isError_connClose (hlookup : s.txs.lookup txID = some tx) (hended : tx.ended = true) :
    (handle spec marshals quote isPrint answers s (.connClose tx.connID)).reply.isError = true := by
  unfold handle
  split
  · rfl
  · dsimp only
    unfold handleConnClose
    split
    · have hany : s.txs.any (fun id tx' => tx'.connID = tx.connID && rollbackFails answers id tx')
          = true := (any_iff _ _).2 ⟨txID, tx, hlookup, by simp [rollbackFails, hended]⟩
      simp [hany, Reply.isError]
    · rfl

end Ended

theorem idOf_ne_empty (spec kind : String) (n : ℕ) : idOf spec kind n ≠ "" := by
  intro h
  have hlist := congrArg String.toList h
  simp only [idOf, String.toList_append, String.toList_empty, List.append_eq_nil_iff] at hlist
  exact absurd hlist.2 (by simp)

/-- **A transaction that has once failed to end stays stuck.** In every run, as long as it is in the table,
whatever is asked of it is answered with an error, and so is the closing of its connection. -/
theorem stuck (spec : String) (marshals : ρ → Bool) (quote : String → String) (isPrint : Char → Bool)
    (inputs : List (Answers ρ × Request)) :
    ∀ before event after, (run (step spec marshals quote isPrint) (newServer ρ) inputs).2
        = before ++ event :: after →
      ∀ txID connID, Open before (.tx txID) (some connID) →
        (∃ earlier ∈ before, FailedEnd earlier.request earlier.reply txID) →
        event.request.AsksOf txID ∨ event.request = .connClose connID →
        event.reply.isError = true := by
  refine run_each (e := eventOf spec marshals quote isPrint)
    (I := fun log s => Agree spec log s ∧ Marked spec log s)
    (G := fun before event => ∀ txID connID, Open before (.tx txID) (some connID) →
      EndFailed before txID → event.request.AsksOf txID ∨ event.request = .connClose connID →
      event.reply.isError = true) (fun _ _ => rfl) ?_ ?_ ⟨agree_newServer spec, ?_, ?_⟩ inputs
  · rintro log s input ⟨hagree, hmarked⟩
    exact ⟨hagree.step input, hmarked.step hagree.sound (change input.2)⟩
  -- the transaction is open by the log, so that it is in the table, and it is marked as ended there
  · rintro log s input ⟨hagree, hmarked⟩ txID connID hopen hfailed hrequest
    have hhas := (hagree.has_iff _ _).2 hopen
    obtain ⟨tx, hlookup, rfl⟩ := Option.map_eq_some_iff.1 hhas
    have hended := (hmarked.ended_iff txID tx hlookup).2 hfailed
    obtain ⟨n, -, hid⟩ := (hagree.sound.txs txID tx hlookup).2
    rcases hrequest with hrequest | hrequest
    · exact isError_of_asksOf hlookup hended (hid ▸ idOf_ne_empty spec "-tx-" n) hrequest
    · have hclose : (handle spec marshals quote isPrint input.1 s (.connClose tx.connID)).reply.isError
          = true := isError_connClose hlookup hended
      rw [← hrequest] at hclose
      exact hclose
  · intro txID tx h
    change (∅ : Finmap fun _ : String => Tx).lookup txID = some tx at h
    rw [Finmap.lookup_empty] at h
    cases h
  · rintro txID ⟨event, hevent, -⟩
    exact absurd hevent List.not_mem_nil

/-- The transaction fails to commit, and then to be rolled back. -/
theorem stuck_opening :
    (eventOf "d" (fun _ => true) id (fun _ => true)
      (served (opening ++ [(answering [.commit "d-tx-1"], .txCommit "d-tx-1")])).1
      (answering [], .txRollback "d-tx-1" "")).reply.isError = true := by
  refine stuck "d" (fun _ => true) id (fun _ => true)
    (opening ++ [(answering [.commit "d-tx-1"], .txCommit "d-tx-1"),
      (answering [], .txRollback "d-tx-1" "")])
    (served (opening ++ [(answering [.commit "d-tx-1"], .txCommit "d-tx-1")])).2 _ [] rfl
    "d-tx-1" 1 ?_ ?_ (.inl rfl)
  · refine ⟨(served (opening.take 2)).2, _, [_], rfl, ⟨rfl, rfl⟩, fun later hlater => ?_⟩
    rw [List.mem_singleton.1 hlater]
    rintro (h | h)
    · exact h.2
    · exact absurd h.1 (by decide)
  · exact ⟨eventOf "d" (fun _ => true) id (fun _ => true) (served opening).1
      (answering [.commit "d-tx-1"], .txCommit "d-tx-1"),
      List.mem_append_right (served opening).2 (List.mem_singleton.2 rfl), rfl, rfl⟩

end DbipcServer
end Navop
