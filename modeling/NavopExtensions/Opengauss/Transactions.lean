import NavopExtensions.Lib.Machine

/-!
# Transactions of an openGauss connection

The driver gives out ids for transactions and keeps a table of them, beside the one session with the
server, which has one transaction block at most. Statements go to that session whatever id they name.

So an id means its transaction only as long as transactions do not overlap, statements name a live one,
and the statements that end a transaction succeed, since its id is forgotten before they are sent
(`Apart`). In runs of such requests a statement takes effect as its transaction does
(`transactions_kept`).
-/

namespace Navop
namespace Opengauss

open Machine

/-! ### The server -/

/-- What a statement has done: the number of its request, and the transaction that it named. -/
structure Effect where
  request : ℕ
  tx : Option String
  deriving DecidableEq

/-- A transaction block; after an error it is aborted. -/
structure Block where
  effects : List Effect
  aborted : Bool
  deriving DecidableEq

/-- The session with the server. -/
structure Session where
  durable : List Effect
  block : Option Block
  deriving DecidableEq

/-- The statements about transactions that the driver sends. -/
inductive Control
  | begin (sql : String)
  | commit
  | rollback
  | rollbackTo (savepoint : String)
  deriving DecidableEq

/-- What is not committed yet. -/
def Session.pending (session : Session) : List Effect :=
  match session.block with
  | some block => block.effects
  | none => []

/-- A statement that is executed, and whether it succeeds. An error aborts the block. -/
def Session.statement (session : Session) (effect : Effect) (fails : Bool) : Session × Bool :=
  match session.block with
  | none =>
    if fails then (session, false)
    else ({ session with durable := session.durable ++ [effect] }, true)
  | some block =>
    if fails || block.aborted then
      ({ session with block := some { block with aborted := true } }, false)
    else ({ session with block := some { block with effects := block.effects ++ [effect] } }, true)

/-- A statement about the transaction block, and whether it succeeds. `BEGIN` in a block changes nothing,
nor do `COMMIT` and `ROLLBACK` outside of one; there are no savepoints. -/
def Session.control (session : Session) (control : Control) (fails : Bool) : Session × Bool :=
  if fails then (session, false)
  else match control, session.block with
    | .begin _, none => ({ session with block := some ⟨[], false⟩ }, true)
    | .begin _, some _ => (session, true)
    | .commit, none => (session, true)
    | .commit, some block =>
      (⟨if block.aborted then session.durable else session.durable ++ block.effects, none⟩, true)
    | .rollback, _ => ({ session with block := none }, true)
    | .rollbackTo _, none => (session, false)
    | .rollbackTo _, some block => ({ session with block := some { block with aborted := true } }, false)

/-! ### The driver -/

/-- `IsolationLevel`: the four of the standard, and whichever the server prefers. -/
inductive IsolationLevel
  | readUncommitted
  | readCommitted
  | repeatableRead
  | serializable
  | default
  deriving DecidableEq

/-- `TxBeginParams`: what the opening statement says. -/
structure TxBeginParams where
  isolation : Option IsolationLevel
  readOnly : Bool
  deferrable : Option Bool
  deriving DecidableEq

/-- The statement that begins a transaction. -/
def TxBeginParams.sql (params : TxBeginParams) : String :=
  "BEGIN"
    ++ (match params.isolation with
      | some .readUncommitted => " ISOLATION LEVEL READ UNCOMMITTED"
      | some .readCommitted => " ISOLATION LEVEL READ COMMITTED"
      | some .repeatableRead => " ISOLATION LEVEL REPEATABLE READ"
      | some .serializable => " ISOLATION LEVEL SERIALIZABLE"
      | some .default => " ISOLATION LEVEL READ COMMITTED"
      | none => "")
    ++ (if params.readOnly then " READ ONLY" else "")
    ++ (match params.deferrable with
      | some true => " DEFERRABLE"
      | some false => " NOT DEFERRABLE"
      | none => "")

/-- The requests. `binds` says whether the parameters of a statement can be bound. -/
inductive Request
  | txBegin (params : TxBeginParams)
  | txCommit (txId : String)
  | txRollback (txId : String) (toSavepoint : Option String)
  | queryStart (txId : Option String) (sql : String) (binds : Bool)
  | execRun (txId : Option String) (sql : String) (binds : Bool)
  deriving DecidableEq

/-- The transaction that a request names. -/
def Request.named : Request → Option String
  | .txBegin _ => none
  | .txCommit txId => some txId
  | .txRollback txId _ => some txId
  | .queryStart txId _ _ => txId
  | .execRun txId _ _ => txId

/-- A request, and whether the server refuses the statement that it sends. -/
structure Input where
  request : Request
  fails : Bool

/-- `ConnectionState`, with the session, the number of ids given out and the number of requests. -/
structure State where
  session : Session
  txConn : Finset String
  ids : ℕ
  requests : ℕ

/-- A connection that has just been opened. -/
def State.initial : State := ⟨⟨[], none⟩, ∅, 0, 0⟩

/-- What has come of a request: whether the transaction that it named was live, what it has executed,
and whether it was answered without an error. -/
structure Entry where
  request : Request
  live : Bool
  effect : Option Effect
  ok : Bool

/-- The id of a transaction, from the `uuid`s. -/
def txId (uuid : ℕ → String) (n : ℕ) : String := "opengauss-tx-" ++ uuid n

/-- `session.query` and `session.execute`: parameters that cannot be bound are an error, and nothing
is sent. -/
def State.statement (state : State) (input : Input) (named : Option String) (binds : Bool) :
    State × List Entry :=
  let live := named.any (· ∈ state.txConn)
  if !binds then (state, [⟨input.request, live, none, false⟩])
  else
    let effect : Effect := ⟨state.requests, named⟩
    let (session, ok) := state.session.statement effect input.fails
    ({ state with session := session },
      [⟨input.request, live, if ok then some effect else none, ok⟩])

/-- A request is handled: `handle_tx_begin`, `handle_tx_commit`, `handle_tx_rollback`,
`handle_query_start`, `handle_exec_run`. -/
def State.handle (uuid : ℕ → String) (state : State) (input : Input) : State × List Entry :=
  match input.request with
  | .txBegin params =>
    let (session, ok) := state.session.control (.begin params.sql) input.fails
    if ok then
      ({ state with
          session := session
          txConn := insert (txId uuid state.ids) state.txConn
          ids := state.ids + 1 }, [⟨input.request, false, none, true⟩])
    else ({ state with session := session }, [⟨input.request, false, none, false⟩])
  | .txCommit id =>
    if id ∈ state.txConn then
      let (session, ok) := state.session.control .commit input.fails
      ({ state with session := session, txConn := state.txConn.erase id },
        [⟨input.request, true, none, ok⟩])
    else (state, [⟨input.request, false, none, false⟩])
  | .txRollback id toSavepoint =>
    if id ∈ state.txConn then
      match toSavepoint with
      | some savepoint =>
        let (session, ok) := state.session.control (.rollbackTo savepoint) input.fails
        ({ state with session := session }, [⟨input.request, true, none, ok⟩])
      | none =>
        let (session, ok) := state.session.control .rollback input.fails
        ({ state with session := session, txConn := state.txConn.erase id },
          [⟨input.request, true, none, ok⟩])
    else (state, [⟨input.request, false, none, false⟩])
  | .queryStart named _ binds => state.statement input named binds
  | .execRun named _ binds => state.statement input named binds

/-- Requests are numbered, and what is sent for each is recorded. -/
def step (uuid : ℕ → String) (state : State) (input : Input) : State × List Entry :=
  let next := state.handle uuid input
  ({ next.1 with requests := state.requests + 1 }, next.2)

/-! ### What transactions are for -/

/-- A transaction was committed. -/
def Committed (log : List Entry) (id : String) : Prop :=
  ∃ entry ∈ log, entry.request = .txCommit id ∧ entry.ok = true

/-- A transaction was rolled back. -/
def RolledBack (log : List Entry) (id : String) : Prop :=
  ∃ entry ∈ log, entry.request = .txRollback id none ∧ entry.ok = true

/-- Statements take effect as their transactions do. -/
structure Kept (log : List Entry) (state : State) : Prop where
  /-- A request that names a transaction which is not live executes nothing and is an error. -/
  refused : ∀ entry ∈ log, entry.request.named.isSome = true → entry.live = false →
    entry.effect = none ∧ entry.ok = false
  /-- What names a transaction is durable only if that was committed. -/
  durable : ∀ effect ∈ state.session.durable, ∀ id, effect.tx = some id → Committed log id
  /-- A transaction that was rolled back has left nothing behind. -/
  undone : ∀ id, RolledBack log id →
    ∀ effect ∈ state.session.durable ++ state.session.pending, effect.tx ≠ some id

/-- Transactions are kept apart: one begins when none is live, statements name a live one if any, and
what ends one is not refused by the server. -/
def Apart (state : State) (input : Input) : Prop :=
  match input.request with
  | .txBegin _ => state.txConn = ∅
  | .txCommit id => id ∈ state.txConn → input.fails = false
  | .txRollback id toSavepoint => id ∈ state.txConn → toSavepoint = none → input.fails = false
  | .queryStart named _ _ => ∀ id, named = some id → id ∈ state.txConn
  | .execRun named _ _ => ∀ id, named = some id → id ∈ state.txConn

/-! ### Along a run -/

section Runs

variable {uuid : ℕ → String} {log : List Entry} {state : State} {entry : Entry} {id : String}

theorem txId_injective (huuid : Function.Injective uuid) : Function.Injective (txId uuid) := by
  intro m n h
  refine huuid ?_
  have hlists := congrArg String.toList h
  simp only [txId, String.toList_append] at hlists
  exact String.toList_inj.mp (List.append_cancel_left hlists)

theorem committed_concat : Committed (log ++ [entry]) id ↔
    Committed log id ∨ entry.request = .txCommit id ∧ entry.ok = true := by
  simp [Committed, or_and_right, exists_or]

theorem rolledBack_concat : RolledBack (log ++ [entry]) id ↔
    RolledBack log id ∨ entry.request = .txRollback id none ∧ entry.ok = true := by
  simp [RolledBack, or_and_right, exists_or]

/-- What holds along a run of transactions that are kept apart. -/
structure Inv (uuid : ℕ → String) (log : List Entry) (state : State) : Prop extends
    Kept log state where
  /-- Ids of live transactions were given out. -/
  issued : ∀ id ∈ state.txConn, ∃ n < state.ids, id = txId uuid n
  /-- So were those of transactions that are over. -/
  ended : ∀ id, Committed log id ∨ RolledBack log id →
    id ∉ state.txConn ∧ ∃ n < state.ids, id = txId uuid n
  /-- One transaction is live at most. -/
  single : ∀ id ∈ state.txConn, ∀ other ∈ state.txConn, id = other
  /-- What names a transaction and is not committed yet is in the block of that transaction. -/
  pending : ∀ effect ∈ state.session.pending, ∀ id, effect.tx = some id → id ∈ state.txConn
  /-- A live transaction has a block. -/
  inBlock : ∀ id ∈ state.txConn, state.session.block.isSome = true

theorem Inv.initial : Inv uuid [] State.initial where
  refused := fun entry hentry => absurd hentry List.not_mem_nil
  durable := fun effect heffect => absurd heffect List.not_mem_nil
  undone := by
    rintro id ⟨entry, hentry, -⟩
    exact absurd hentry List.not_mem_nil
  issued := fun id hid => absurd hid (Finset.notMem_empty id)
  ended := by
    rintro id (⟨entry, hentry, -⟩ | ⟨entry, hentry, -⟩)
    · exact absurd hentry List.not_mem_nil
    · exact absurd hentry List.not_mem_nil
  single := fun id hid => absurd hid (Finset.notMem_empty id)
  pending := fun effect heffect => absurd heffect List.not_mem_nil
  inBlock := fun id hid => absurd hid (Finset.notMem_empty id)

/-- An entry that ends no transaction. -/
def Entry.Quiet (entry : Entry) : Prop :=
  entry.ok = false ∨ (∀ id, entry.request ≠ .txCommit id) ∧ ∀ id, entry.request ≠ .txRollback id none

theorem Entry.Quiet.committed (h : entry.Quiet) :
    Committed (log ++ [entry]) id ↔ Committed log id := by
  rw [committed_concat, or_iff_left]
  rintro ⟨hrequest, hok⟩
  obtain hnot | ⟨hnot, -⟩ := h
  · exact absurd hok (by simp [hnot])
  · exact hnot id hrequest

theorem Entry.Quiet.rolledBack (h : entry.Quiet) :
    RolledBack (log ++ [entry]) id ↔ RolledBack log id := by
  rw [rolledBack_concat, or_iff_left]
  rintro ⟨hrequest, hok⟩
  obtain hnot | ⟨-, hnot⟩ := h
  · exact absurd hok (by simp [hnot])
  · exact hnot id hrequest

/-- An entry that says nothing about a transaction which is not live. -/
def Entry.Fine (entry : Entry) : Prop :=
  entry.request.named.isSome = true → entry.live = false → entry.effect = none ∧ entry.ok = false

theorem Inv.refused_concat (h : Inv uuid log state) (hfine : entry.Fine) :
    ∀ other ∈ log ++ [entry], other.request.named.isSome = true → other.live = false →
      other.effect = none ∧ other.ok = false := by
  intro other hother
  obtain hold | hnew := List.mem_append.mp hother
  · exact h.refused other hold
  · obtain rfl := List.mem_singleton.mp hnew
    exact hfine

/-- **A request that ends no transaction** keeps the invariant if what it makes durable names none,
what it adds to the block names a live one, and the block stays. -/
theorem Inv.quiet (h : Inv uuid log state) (hquiet : entry.Quiet) (hfine : entry.Fine)
    {session : Session} {requests : ℕ}
    (hdurable : ∀ effect ∈ session.durable,
      effect ∈ state.session.durable ∨ effect.tx = none)
    (hpending : ∀ effect ∈ session.pending, effect ∈ state.session.pending ∨
      ∀ id, effect.tx = some id → id ∈ state.txConn)
    (hblock : state.session.block.isSome = true → session.block.isSome = true) :
    Inv uuid (log ++ [entry]) { state with session := session, requests := requests } where
  refused := h.refused_concat hfine
  durable := by
    intro effect heffect id hid
    obtain hold | hnone := hdurable effect heffect
    · exact hquiet.committed.mpr (h.durable effect hold id hid)
    · exact absurd hid (by simp [hnone])
  undone := by
    intro id hid effect heffect htx
    have hrolled := hquiet.rolledBack.mp hid
    obtain hdur | hpend := List.mem_append.mp heffect
    -- an effect is one from before, or made outside of every transaction
    · obtain hold | hnone := hdurable effect hdur
      · exact h.undone id hrolled effect (List.mem_append_left _ hold) htx
      · exact absurd htx (by simp [hnone])
    · obtain hold | hlive := hpending effect hpend
      · exact h.undone id hrolled effect (List.mem_append_right _ hold) htx
      · exact (h.ended id (.inr hrolled)).1 (hlive id htx)
  issued := h.issued
  ended := by
    rintro id (hcommitted | hrolled)
    · exact h.ended id (.inl (hquiet.committed.mp hcommitted))
    · exact h.ended id (.inr (hquiet.rolledBack.mp hrolled))
  single := h.single
  pending := by
    intro effect heffect id hid
    obtain hold | hlive := hpending effect heffect
    · exact h.pending effect hold id hid
    · exact hlive id hid
  inBlock := fun id hid => hblock (h.inBlock id hid)

/-- A request that changes nothing. -/
theorem Inv.same (h : Inv uuid log state) (hquiet : entry.Quiet) (hfine : entry.Fine)
    {requests : ℕ} : Inv uuid (log ++ [entry]) { state with requests := requests } :=
  h.quiet hquiet hfine (fun _ => .inl) (fun _ => .inl) id

/-- Statements about the block that are refused, or that end in an error, leave the effects. -/
theorem control_rollbackTo (session : Session) (savepoint : String) (fails : Bool) :
    (session.control (.rollbackTo savepoint) fails).1.durable = session.durable ∧
      (session.control (.rollbackTo savepoint) fails).1.pending = session.pending ∧
      (session.control (.rollbackTo savepoint) fails).1.block.isSome = session.block.isSome ∧
      (session.control (.rollbackTo savepoint) fails).2 = false := by
  obtain ⟨durable, block⟩ := session
  cases fails
  · cases block
    · exact ⟨rfl, rfl, rfl, rfl⟩
    · exact ⟨rfl, rfl, rfl, rfl⟩
  · exact ⟨rfl, rfl, rfl, rfl⟩

section Statements

variable {session : Session} {effect other : Effect} {fails : Bool}

/-- A statement is durable at once when there is no block. -/
theorem mem_durable_statement (h : other ∈ (session.statement effect fails).1.durable) :
    other ∈ session.durable ∨ other = effect ∧ session.block = none := by
  obtain ⟨durable, block⟩ := session
  cases block with
  | none =>
    cases fails with
    | false =>
      obtain hold | hnew := List.mem_append.mp h
      · exact .inl hold
      · exact .inr ⟨List.mem_singleton.mp hnew, rfl⟩
    | true => exact .inl h
  | some block =>
    unfold Session.statement at h
    dsimp only at h
    split at h
    · exact .inl h
    · exact .inl h

theorem mem_pending_statement (h : other ∈ (session.statement effect fails).1.pending) :
    other ∈ session.pending ∨ other = effect := by
  obtain ⟨durable, block⟩ := session
  cases block with
  | none =>
    cases fails with
    | false => exact absurd h List.not_mem_nil
    | true => exact absurd h List.not_mem_nil
  | some block =>
    unfold Session.statement at h
    dsimp only at h
    split at h
    · exact .inl h
    · obtain hold | hnew := List.mem_append.mp h
      · exact .inl hold
      · exact .inr (List.mem_singleton.mp hnew)

theorem isSome_block_statement :
    (session.statement effect fails).1.block.isSome = session.block.isSome := by
  obtain ⟨durable, block⟩ := session
  cases block with
  | none =>
    cases fails with
    | false => rfl
    | true => rfl
  | some block =>
    unfold Session.statement
    dsimp only
    split
    · rfl
    · rfl

end Statements

/-! ### One request at a time -/

/-- A transaction begins: its id is fresh, and no other one was open. -/
theorem Inv.begin (huuid : Function.Injective uuid) (h : Inv uuid log state)
    (hnone : state.txConn = ∅) {params : TxBeginParams} {requests : ℕ} :
    Inv uuid (log ++ [⟨.txBegin params, false, none, true⟩])
      { session := (state.session.control (.begin params.sql) false).1
        txConn := insert (txId uuid state.ids) state.txConn
        ids := state.ids + 1
        requests := requests } := by
  have hquiet : (Entry.mk (.txBegin params) false none true).Quiet := .inr ⟨by simp, by simp⟩
  have hdurable : (state.session.control (.begin params.sql) false).1.durable
      = state.session.durable := by
    unfold Session.control
    cases state.session.block
    · rfl
    · rfl
  have hpending : (state.session.control (.begin params.sql) false).1.pending
      = state.session.pending := by
    unfold Session.control Session.pending
    cases hblock : state.session.block
    · rfl
    · simp [hblock]
  -- no other transaction is live
  have hlive : insert (txId uuid state.ids) state.txConn = {txId uuid state.ids} := by
    rw [hnone]
    rfl
  -- what is pending was not made in a transaction, for none was live
  have hnamed : ∀ effect ∈ state.session.pending, ∀ id, effect.tx ≠ some id := by
    intro effect heffect id hid
    have hmem := h.pending effect heffect id hid
    rw [hnone] at hmem
    exact Finset.notMem_empty id hmem
  exact {
    refused := h.refused_concat fun hnamed => absurd hnamed (by simp [Request.named])
    durable := by
      intro effect heffect id hid
      rw [hdurable] at heffect
      exact hquiet.committed.mpr (h.durable effect heffect id hid)
    undone := by
      intro id hid effect heffect
      rw [hdurable, hpending] at heffect
      exact h.undone id (hquiet.rolledBack.mp hid) effect heffect
    issued := by
      intro id hid
      rw [hlive, Finset.mem_singleton] at hid
      exact ⟨state.ids, Nat.lt_succ_self _, hid⟩
    ended := by
      intro id hid
      rw [hquiet.committed, hquiet.rolledBack] at hid
      obtain ⟨-, n, hn, rfl⟩ := h.ended id hid
      refine ⟨?_, n, Nat.lt_succ_of_lt hn, rfl⟩
      rw [hlive, Finset.mem_singleton]
      exact fun heq => absurd (txId_injective huuid heq) (Nat.ne_of_lt hn)
    single := by
      intro id hid other hother
      rw [hlive, Finset.mem_singleton] at hid hother
      exact hid.trans hother.symm
    pending := by
      intro effect heffect id hid
      rw [hpending] at heffect
      exact absurd hid (hnamed effect heffect id)
    inBlock := by
      intro id _
      unfold Session.control
      cases hblock : state.session.block
      · rfl
      · simp [hblock] }

/-- A transaction ends with the block: what was in it is durable only if it was committed. -/
theorem Inv.ends (h : Inv uuid log state) {id : String} (hid : id ∈ state.txConn)
    {session : Session} {requests : ℕ} {request : Request}
    (hrequest : request = .txCommit id ∨ request = .txRollback id none)
    (hblock : session.block = none)
    (hdurable : ∀ effect ∈ session.durable, effect ∈ state.session.durable ∨
      effect ∈ state.session.pending ∧ request = .txCommit id) :
    Inv uuid (log ++ [⟨request, true, none, true⟩])
      { state with session := session, txConn := state.txConn.erase id, requests := requests } := by
  have hpending : session.pending = [] := by rw [Session.pending, hblock]
  -- the one live transaction has ended
  have hempty : state.txConn.erase id = ∅ := by
    refine Finset.eq_empty_of_forall_notMem fun other hother => ?_
    obtain ⟨hne, hmem⟩ := Finset.mem_erase.mp hother
    exact hne (h.single other hmem id hid)
  -- only the transaction that is named ends
  have hends : ∀ other, Committed (log ++ [⟨request, true, none, true⟩]) other ∨
      RolledBack (log ++ [⟨request, true, none, true⟩]) other →
        (Committed log other ∨ RolledBack log other) ∨ other = id := by
    intro other hother
    rw [committed_concat, rolledBack_concat] at hother
    obtain (hold | ⟨hnew, -⟩) | (hold | ⟨hnew, -⟩) := hother
    · exact .inl (.inl hold)
    · obtain rfl | rfl := hrequest
      · exact .inr (Request.txCommit.inj hnew).symm
      · exact absurd hnew (by simp)
    · exact .inl (.inr hold)
    · obtain rfl | rfl := hrequest
      · exact absurd hnew (by simp)
      · exact .inr (Request.txRollback.inj hnew).1.symm
  exact {
    refused := h.refused_concat fun _ hlive => absurd hlive (by simp)
    durable := by
      intro effect heffect other hother
      rw [committed_concat]
      obtain hold | ⟨hpend, hcommit⟩ := hdurable effect heffect
      · exact .inl (h.durable effect hold other hother)
      · have hsame := h.single other (h.pending effect hpend other hother) id hid
        exact .inr ⟨hsame ▸ hcommit, rfl⟩
    undone := by
      intro other hother effect heffect htx
      rw [hpending, List.append_nil] at heffect
      rw [rolledBack_concat] at hother
      obtain hrolled | ⟨hnew, -⟩ := hother
      · obtain hold | ⟨hpend, -⟩ := hdurable effect heffect
        · exact h.undone other hrolled effect (List.mem_append_left _ hold) htx
        · exact (h.ended other (.inr hrolled)).1 (h.pending effect hpend other htx)
      · obtain rfl : request = .txRollback other none := hnew
        obtain hold | ⟨-, hcommit⟩ := hdurable effect heffect
        · have hother : other = id := by
            obtain hcommit | hrollback := hrequest
            · exact absurd hcommit (by simp)
            · exact (Request.txRollback.inj hrollback).1
          exact (h.ended other (.inl (h.durable effect hold other htx))).1 (hother ▸ hid)
        · exact absurd hcommit (by simp)
    issued := by
      intro other hother
      exact h.issued other (Finset.mem_of_mem_erase hother)
    ended := by
      intro other hother
      obtain hold | rfl := hends other hother
      · obtain ⟨hnot, hissued⟩ := h.ended other hold
        exact ⟨fun hmem => hnot (Finset.mem_of_mem_erase hmem), hissued⟩
      · exact ⟨Finset.notMem_erase other _, h.issued other hid⟩
    single := by
      intro other hother
      rw [hempty] at hother
      exact absurd hother (Finset.notMem_empty other)
    pending := by
      intro effect heffect
      rw [hpending] at heffect
      exact absurd heffect List.not_mem_nil
    inBlock := by
      intro other hother
      rw [hempty] at hother
      exact absurd hother (Finset.notMem_empty other) }

/-- A statement of a live transaction, or of none. -/
theorem Inv.statement (h : Inv uuid log state) {input : Input} {named : Option String} {binds : Bool}
    (hrequest : input.request.named = named)
    (hquiet : (∀ id, input.request ≠ .txCommit id) ∧ ∀ id, input.request ≠ .txRollback id none)
    (hlive : ∀ id, named = some id → id ∈ state.txConn) {requests : ℕ} :
    Inv uuid (log ++ (state.statement input named binds).2)
      { (state.statement input named binds).1 with requests := requests } := by
  -- the transaction that the request names is live
  have hfine : ∀ effect ok, (Entry.mk input.request (named.any (· ∈ state.txConn)) effect ok).Fine := by
    intro effect ok hnamed hdead
    rw [hrequest] at hnamed
    obtain ⟨id, rfl⟩ := Option.isSome_iff_exists.mp hnamed
    exact absurd hdead (by simp [hlive id rfl])
  unfold State.statement
  cases binds with
  | false => exact h.same (.inr hquiet) (hfine _ _)
  | true =>
    simp only [Bool.not_true, Bool.false_eq_true, ↓reduceIte]
    refine h.quiet (.inr hquiet) (hfine _ _) ?_ ?_ ?_
    · intro effect heffect
      obtain hold | ⟨rfl, hblock⟩ := mem_durable_statement heffect
      · exact .inl hold
      · -- outside of a block no transaction is live, so that the statement names none
        refine .inr (Option.eq_none_iff_forall_not_mem.mpr fun id hid => ?_)
        exact absurd (h.inBlock id (hlive id hid)) (by simp [hblock])
    · intro effect heffect
      obtain hold | rfl := mem_pending_statement heffect
      · exact .inl hold
      · exact .inr hlive
    · intro hsome
      rw [isSome_block_statement]
      exact hsome

/-- A request that keeps transactions apart keeps the invariant. -/
theorem Inv.step (huuid : Function.Injective uuid) (h : Inv uuid log state) {input : Input}
    (hapart : Apart state input) :
    Inv uuid (log ++ (step uuid state input).2) (Opengauss.step uuid state input).1 := by
  obtain ⟨request, fails⟩ := input
  unfold Opengauss.step State.handle
  cases request with
  | txBegin params =>
    cases fails with
    | true =>
      exact h.same (.inl rfl) fun hnamed => absurd hnamed (by simp [Request.named])
    | false =>
      -- a BEGIN inside of a block is a warning only
      have hok : (state.session.control (.begin params.sql) false).2 = true := by
        unfold Session.control
        cases state.session.block
        · rfl
        · rfl
      simp only [hok, ↓reduceIte]
      exact h.begin huuid hapart
  | txCommit id =>
    by_cases hid : id ∈ state.txConn
    · obtain rfl : fails = false := hapart hid
      simp only [hid, ↓reduceIte]
      obtain ⟨block, hblock⟩ := Option.isSome_iff_exists.mp (h.inBlock id hid)
      unfold Session.control
      simp only [hblock, Bool.false_eq_true, ↓reduceIte]
      refine h.ends hid (.inl rfl) rfl fun effect heffect => ?_
      dsimp only at heffect
      split at heffect
      · exact .inl heffect
      · obtain hold | hpend := List.mem_append.mp heffect
        · exact .inl hold
        · refine .inr ⟨?_, rfl⟩
          rw [Session.pending, hblock]
          exact hpend
    · simp only [hid, ↓reduceIte]
      exact h.same (.inl rfl) fun _ _ => ⟨rfl, rfl⟩
  | txRollback id toSavepoint =>
    by_cases hid : id ∈ state.txConn
    · simp only [hid, ↓reduceIte]
      cases toSavepoint with
      | some savepoint =>
        obtain ⟨hdurable, hpending, hblock, hok⟩ :=
          control_rollbackTo state.session savepoint fails
        refine h.quiet (.inl hok) (fun _ hlive => absurd hlive (by simp)) ?_ ?_ ?_
        · intro effect heffect
          exact .inl (hdurable ▸ heffect)
        · intro effect heffect
          exact .inl (hpending ▸ heffect)
        · intro hsome
          rw [hblock]
          exact hsome
      | none =>
        -- a COMMIT or a ROLLBACK that fails is excluded by `Apart`
        obtain rfl : fails = false := hapart hid rfl
        exact h.ends hid (.inr rfl) rfl fun effect => .inl
    · simp only [hid, ↓reduceIte]
      exact h.same (.inl rfl) fun _ _ => ⟨rfl, rfl⟩
  | queryStart named sql binds =>
    have hstatement := @Inv.statement uuid log state h ⟨.queryStart named sql binds, fails⟩ named
      binds rfl ⟨by simp, by simp⟩ hapart
    exact hstatement
  | execRun named sql binds =>
    have hstatement := @Inv.statement uuid log state h ⟨.execRun named sql binds, fails⟩ named
      binds rfl ⟨by simp, by simp⟩ hapart
    exact hstatement

/-- **Statements take effect as their transactions do**, in every run of transactions that are kept
apart. -/
theorem transactions_kept (huuid : Function.Injective uuid) {inputs : List Input}
    (hapart : Guarded (step uuid) Apart State.initial inputs) :
    Kept (run (step uuid) State.initial inputs).2 (run (step uuid) State.initial inputs).1 := by
  have hinv : Inv uuid (run (step uuid) State.initial inputs).2
      (run (step uuid) State.initial inputs).1 :=
    run_guarded (H := fun _ log state => Inv uuid log state)
      (fun _ log state input h hinput => h.step huuid hinput) Inv.initial hapart
  exact hinv.toKept

end Runs

/-- Ids of growing length. -/
def longerAndLonger (n : ℕ) : String := String.ofList (List.replicate n 'x')

theorem longerAndLonger_injective : Function.Injective longerAndLonger := by
  intro m n h
  have hlength := congrArg (fun text => text.toList.length) h
  simpa [longerAndLonger] using hlength

/-- A statement in a transaction that is committed. -/
theorem transactions_kept_commit :
    Kept (run (step longerAndLonger) State.initial
        [⟨.txBegin ⟨none, false, none⟩, false⟩,
          ⟨.execRun (some (txId longerAndLonger 0)) "DELETE FROM t" true, false⟩,
          ⟨.txCommit (txId longerAndLonger 0), false⟩]).2
      (run (step longerAndLonger) State.initial
        [⟨.txBegin ⟨none, false, none⟩, false⟩,
          ⟨.execRun (some (txId longerAndLonger 0)) "DELETE FROM t" true, false⟩,
          ⟨.txCommit (txId longerAndLonger 0), false⟩]).1 := by
  refine transactions_kept longerAndLonger_injective ?_
  refine .cons rfl (.cons ?_ (.cons ?_ guarded_nil))
  · intro id hid
    obtain rfl := Option.some.inj hid
    exact Finset.mem_insert_self _ _
  · exact fun _ => rfl

/-- A statement that names a transaction which does not exist is executed at once, and is durable. -/
theorem unknown_transaction_executes :
    ¬ Kept (run (step longerAndLonger) State.initial
        [⟨.execRun (some "opengauss-tx-gone") "DELETE FROM t" true, false⟩]).2
      (run (step longerAndLonger) State.initial
        [⟨.execRun (some "opengauss-tx-gone") "DELETE FROM t" true, false⟩]).1 := by
  intro hkept
  have hrefused := hkept.refused _ List.mem_cons_self rfl rfl
  exact absurd hrefused.2 (by decide)

end Opengauss
end Navop
