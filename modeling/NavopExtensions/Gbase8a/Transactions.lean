import NavopExtensions.Gbase8a.Server

/-!
# Transactions are what their ids say

What a transaction's statements have done is durable only once the transaction is committed, and gone once
it is rolled back; a connection is closed only after a rollback of its transaction; and the two places
where the server keeps a transaction, the table and the connection, agree. That holds along every run in
which no batch commits on its own within a transaction, no connection is closed with a transaction, the
auto-commit flag can be restored after a transaction, and a shutdown can roll back (`Settles`,
`transactions_sound`).
-/

namespace Navop
namespace Gbase8a

open Machine

/-! ### What transactions are for -/

/-- A request commits a transaction. -/
def Entry.Commits (entry : Entry) (txId : String) : Prop :=
  entry.request = .txCommit txId ∧ ∃ connId, ⟨connId, .commit, true⟩ ∈ entry.calls

/-- A request rolls back a transaction. -/
def Entry.RollsBack (entry : Entry) (txId : String) : Prop :=
  entry.request = .txRollback txId "" ∧ entry.reply = .ok

/-- A transaction was committed. -/
def Committed (log : List Entry) (txId : String) : Prop := ∃ entry ∈ log, entry.Commits txId

/-- A transaction was rolled back. -/
def RolledBack (log : List Entry) (txId : String) : Prop := ∃ entry ∈ log, entry.RollsBack txId

/-- An effect is durable. -/
def State.Durable (state : State) (effect : Effect) : Prop :=
  effect ∈ state.left ∨
    ∃ connId conn, state.connections.lookup connId = some conn ∧ effect ∈ conn.connection.durable

/-- An effect may become durable. -/
def State.Pending (state : State) (effect : Effect) : Prop :=
  ∃ connId conn, state.connections.lookup connId = some conn ∧ effect ∈ conn.connection.pending

/-- The connection for which the table holds a transaction. -/
def State.owner (state : State) (txId : String) : Option ℤ :=
  (state.transactions.lookup txId).map (·.connId)

/-- Transactions are what their ids say. -/
structure Transactional (log : List Entry) (state : State) : Prop where
  /-- What was executed in a transaction is durable only if that was committed. -/
  durable : ∀ effect txId, state.Durable effect → effect.tx = some txId → Committed log txId
  /-- A transaction that was rolled back has left nothing behind. -/
  undone : ∀ effect txId, RolledBack log txId → state.Durable effect ∨ state.Pending effect →
    effect.tx ≠ some txId
  /-- A connection with a transaction is rolled back before it is closed. -/
  closed : ∀ entry ∈ log, ∀ connId, entry.request = .connClose connId → entry.live.isSome = true →
    ∃ ok, ⟨connId, .rollback, ok⟩ ∈ entry.calls.takeWhile (·.site ≠ .close)
  /-- A connection has the transaction that the table holds for it. -/
  active : ∀ connId conn, state.connections.lookup connId = some conn →
    ∀ txId, conn.activeTxId = some txId ↔ state.owner txId = some connId

/-- A batch reaches its own commit. -/
def CommitsBatch (answers : Answers) (connId : ℤ) (statements : List String) : Prop :=
  answers.fails .getAutoCommit connId = false ∧ answers.fails .disableAutoCommit connId = false ∧
    (∀ index < statements.length, (answers.outcome index).fails = false) ∧
    answers.fails .commit connId = false

/-- A request leaves transactions alone, or ends them as it should. -/
def Settles (state : State) (input : Input) : Prop :=
  match input.request with
  | .connClose connId => state.live connId = none
  | .execBatch connId statements _ inTransaction =>
    inTransaction = true → (state.live connId).isSome = true →
      ¬ CommitsBatch input.answers connId statements
  | .txCommit txId => ∀ connId, state.owner txId = some connId →
    input.answers.fails .commit connId = false →
      input.answers.fails .restoreAutoCommit connId = false
  | .txRollback txId toSavepoint => ∀ connId, state.owner txId = some connId → toSavepoint = "" →
    input.answers.fails .rollback connId = false →
      input.answers.fails .restoreAutoCommit connId = false
  | .shutdown => ∀ txId connId, state.owner txId = some connId →
    input.answers.fails .rollback connId = false ∨ input.answers.survives connId = false
  | _ => True

/-! ### Connections -/

/-- What is not committed on a connection belongs to its transaction, and auto-commit is off then. -/
structure Sound (live : Option String) (connection : Connection) : Prop where
  pending : ∀ effect ∈ connection.pending, effect.tx = none ∨ effect.tx = live
  manual : live.isSome = true → connection.autoCommit = false

/-- A connection is used within its transaction. -/
structure Works (live : Option String) (before after : Connection) : Prop where
  sound : Sound live after
  durable : ∀ effect ∈ after.durable, effect ∈ before.durable ∨ effect.tx = none

section Connections

variable {live : Option String} {connection other : Connection}

theorem Works.refl (h : Sound live connection) : Works live connection connection :=
  ⟨h, fun _ => .inl⟩

theorem Works.trans {last : Connection} (h : Works live connection other)
    (h' : Works live other last) : Works live connection last := by
  refine ⟨h'.sound, fun effect heffect => ?_⟩
  rcases h'.durable effect heffect with hbefore | hnone
  · exact h.durable effect hbefore
  · exact .inr hnone

theorem Works.execute (h : Sound live connection) {effect : Effect} (heffect : effect.tx = live) :
    Works live connection (connection.execute effect) := by
  unfold Connection.execute
  split
  · next hauto =>
    -- auto-commit is on only without a transaction
    have hnone : live = none := by
      cases live with
      | none => rfl
      | some txId =>
        have hmanual := h.manual rfl
        rw [hauto] at hmanual
        cases hmanual
    refine ⟨⟨h.pending, h.manual⟩, fun other hother => ?_⟩
    rcases List.mem_append.mp hother with hold | hnew
    · exact .inl hold
    · rw [List.mem_singleton.mp hnew]
      exact .inr (heffect.trans hnone)
  · refine ⟨⟨fun other hother => ?_, h.manual⟩, fun _ => .inl⟩
    rcases List.mem_append.mp hother with hold | hnew
    · exact h.pending other hold
    · rw [List.mem_singleton.mp hnew]
      exact .inr heffect

theorem Works.commit (h : Sound none connection) : Works none connection connection.commit := by
  refine ⟨⟨fun _ heffect => absurd heffect List.not_mem_nil, fun h => nomatch h⟩, ?_⟩
  intro effect heffect
  rcases List.mem_append.mp heffect with hold | hpending
  · exact .inl hold
  · exact .inr ((h.pending effect hpending).elim id id)

theorem Works.rollback (h : Sound live connection) : Works live connection connection.rollback :=
  ⟨⟨fun _ heffect => absurd heffect List.not_mem_nil, h.manual⟩, fun _ => .inl⟩

theorem Works.rollbackTo (h : Sound live connection) (savepoint : ℕ) :
    Works live connection (connection.rollbackTo savepoint) :=
  ⟨⟨fun effect heffect => h.pending effect (List.mem_of_mem_take heffect), h.manual⟩,
    fun _ => .inl⟩

theorem Works.setAutoCommit (h : Sound live connection) {autoCommit : Bool}
    (hauto : live.isSome = true → autoCommit = false) :
    Works live connection (connection.setAutoCommit autoCommit) := by
  unfold Connection.setAutoCommit
  split
  -- auto-commit is switched on, which commits: that happens only without a transaction
  · next hswitched =>
    have hnone : live = none := by
      cases live with
      | none => rfl
      | some txId =>
        rw [hauto rfl] at hswitched
        cases hswitched
    subst hnone
    have hcommit := Works.commit h
    exact ⟨⟨hcommit.sound.pending, fun h => nomatch h⟩, hcommit.durable⟩
  -- the flag changes and nothing else
  · exact ⟨⟨h.pending, hauto⟩, fun _ => .inl⟩

theorem Works.executeStatement {answers : Answers} {state : State} {connId : ℤ}
    (h : Sound (state.live connId) connection) (index : ℕ) :
    Works (state.live connId) connection
      (executeStatement answers state connId index connection) := by
  unfold Gbase8a.executeStatement
  split
  · exact Works.execute h rfl
  · exact Works.refl h

theorem Works.runStatements {answers : Answers} {state : State} {connId : ℤ} {stopOnError : Bool}
    (h : Sound (state.live connId) connection) (index : ℕ) (statements : List String) :
    Works (state.live connId) connection
      (runStatements answers state connId stopOnError index statements connection).1 := by
  induction statements generalizing index connection with
  | nil => exact Works.refl h
  | cons statement statements ih =>
    -- the statement itself, whether it succeeds or not; then the rest of the batch, if it goes on
    have hfirst := @Works.executeStatement connection answers state connId h index
    unfold Gbase8a.runStatements
    dsimp only
    split
    · split
      · exact hfirst
      · exact hfirst.trans (ih hfirst.sound (index + 1))
    · exact hfirst.trans (ih hfirst.sound (index + 1))

/-- A batch without errors has executed all statements. -/
theorem fails_of_errors_nil {answers : Answers} {state : State} {connId : ℤ} {stopOnError : Bool}
    {index : ℕ} {statements : List String}
    (h : (runStatements answers state connId stopOnError index statements connection).2.2 = []) :
    ∀ i < statements.length, (answers.outcome (index + i)).fails = false := by
  induction statements generalizing index connection with
  | nil => exact fun i hi => absurd hi (Nat.not_lt_zero i)
  | cons statement statements ih =>
    unfold runStatements at h
    dsimp only at h
    split at h
    -- a statement that fails is in the list of errors, stopped or not
    · split at h
      · cases h
      · cases h
    · next hfirst =>
      intro i hi
      cases i with
      | zero => exact Bool.eq_false_iff.mpr hfirst
      | succ i =>
        have hrest := ih h i (Nat.lt_of_succ_lt_succ hi)
        rwa [Nat.add_assoc, Nat.add_comm 1 i] at hrest

end Connections

/-! ### The table -/

section Table

variable {state : State} {connId : ℤ} {txId : String}

theorem owner_eq_some : state.owner txId = some connId ↔
    ∃ tx, state.transactions.lookup txId = some tx ∧ tx.connId = connId := Option.map_eq_some_iff

theorem owner_of_live (h : state.live connId = some txId) : state.owner txId = some connId := by
  obtain ⟨entry, hentry, rfl⟩ := Option.map_eq_some_iff.mp h
  have hmem := List.mem_of_find?_eq_some hentry
  have hconn := List.find?_some hentry
  exact owner_eq_some.mpr ⟨entry.2, AList.mem_lookup_iff.mpr hmem, of_decide_eq_true hconn⟩

theorem live_isSome_of_owner (h : state.owner txId = some connId) :
    (state.live connId).isSome = true := by
  obtain ⟨tx, hlookup, hconn⟩ := owner_eq_some.mp h
  unfold State.live
  rw [Option.isSome_map, List.find?_isSome]
  exact ⟨⟨txId, tx⟩, AList.mem_lookup_iff.mp hlookup, decide_eq_true hconn⟩

/-- The transaction that the table holds for a connection is the connection's own. -/
theorem live_eq {conn : ConnectionState}
    (h : ∀ txId, conn.activeTxId = some txId ↔ state.owner txId = some connId) :
    state.live connId = conn.activeTxId := by
  cases hlive : state.live connId with
  | some txId => exact ((h txId).mpr (owner_of_live hlive)).symm
  | none =>
    cases hactive : conn.activeTxId with
    | none => rfl
    | some txId =>
      have hsome := live_isSome_of_owner ((h txId).mp hactive)
      rw [hlive] at hsome
      cases hsome

theorem lookup_put (conn : ConnectionState) (other : ℤ) :
    (state.put connId conn).connections.lookup other
      = if other = connId then some conn else state.connections.lookup other := by
  unfold State.put
  split
  · next h =>
    subst h
    exact AList.lookup_insert _
  · next h => exact AList.lookup_insert_ne h

end Table

/-! ### Along a run -/

/-- What holds along a run of requests that settle. -/
structure Inv (log : List Entry) (state : State) : Prop where
  durable : ∀ effect txId, state.Durable effect → effect.tx = some txId → Committed log txId
  closed : ∀ entry ∈ log, ∀ connId, entry.request = .connClose connId → entry.live.isSome = true →
    ∃ ok, ⟨connId, .rollback, ok⟩ ∈ entry.calls.takeWhile (·.site ≠ .close)
  active : ∀ connId conn, state.connections.lookup connId = some conn →
    ∀ txId, conn.activeTxId = some txId ↔ state.owner txId = some connId
  /-- Connections of transactions are open. -/
  held : ∀ txId connId, state.owner txId = some connId →
    ∃ conn, state.connections.lookup connId = some conn
  sound : ∀ connId conn, state.connections.lookup connId = some conn →
    Sound conn.activeTxId conn.connection
  /-- Transactions that are over are not in the table. -/
  ended : ∀ txId, Committed log txId ∨ RolledBack log txId → state.owner txId = none
  /-- A transaction ends once. -/
  once : ∀ txId, ¬ (Committed log txId ∧ RolledBack log txId)
  /-- Ids were given out. -/
  issued : ∀ txId, (state.owner txId).isSome = true ∨ Committed log txId ∨ RolledBack log txId →
    ∃ n < state.nextTxId, txId = txIdOf n
  fresh : ∀ connId conn, state.connections.lookup connId = some conn → connId < state.nextConnId

section Runs

variable {log : List Entry} {state : State} {entry : Entry} {txId : String}

theorem Inv.transactional (h : Inv log state) : Transactional log state where
  durable := h.durable
  undone := by
    intro effect txId hrolled heffect htx
    rcases heffect with hdurable | ⟨connId, conn, hconn, hpending⟩
    · exact h.once txId ⟨h.durable effect txId hdurable htx, hrolled⟩
    · rcases (h.sound connId conn hconn).pending effect hpending with hnone | hlive
      · rw [htx] at hnone
        cases hnone
      · have howner := (h.active connId conn hconn txId).mp (hlive.symm.trans htx)
        rw [h.ended txId (.inr hrolled)] at howner
        cases howner
  closed := h.closed
  active := h.active

theorem Inv.initial : Inv [] State.initial where
  durable := by
    -- nothing is durable: no connection was closed and none is open
    rintro effect txId (hleft | ⟨connId, conn, hconn, -⟩)
    · exact absurd hleft List.not_mem_nil
    · cases hconn
  closed := fun entry hentry => absurd hentry List.not_mem_nil
  active := fun connId conn hconn => nomatch hconn
  held := fun txId connId howner => nomatch howner
  sound := fun connId conn hconn => nomatch hconn
  ended := fun txId _ => rfl
  once := by
    rintro txId ⟨⟨entry, hentry, -⟩, -⟩
    exact absurd hentry List.not_mem_nil
  issued := by
    rintro txId (howner | ⟨entry, hentry, -⟩ | ⟨entry, hentry, -⟩)
    · cases howner
    · exact absurd hentry List.not_mem_nil
    · exact absurd hentry List.not_mem_nil
  fresh := fun connId conn hconn => nomatch hconn

theorem committed_concat :
    Committed (log ++ [entry]) txId ↔ Committed log txId ∨ entry.Commits txId := by
  unfold Committed
  simp only [List.mem_append, List.mem_singleton, or_and_right, exists_or, exists_eq_left]

theorem rolledBack_concat :
    RolledBack (log ++ [entry]) txId ↔ RolledBack log txId ∨ entry.RollsBack txId := by
  unfold RolledBack
  simp only [List.mem_append, List.mem_singleton, or_and_right, exists_or, exists_eq_left]

/-- An entry that ends no transaction and closes no connection that has one. -/
structure Entry.Quiet (entry : Entry) : Prop where
  notCommits : ∀ txId, ¬ entry.Commits txId
  notRollsBack : ∀ txId, ¬ entry.RollsBack txId
  notCloses : ∀ connId, entry.request = .connClose connId → entry.live = none

theorem Entry.Quiet.committed (h : entry.Quiet) :
    Committed (log ++ [entry]) txId ↔ Committed log txId := by
  rw [committed_concat, or_iff_left (h.notCommits txId)]

theorem Entry.Quiet.rolledBack (h : entry.Quiet) :
    RolledBack (log ++ [entry]) txId ↔ RolledBack log txId := by
  rw [rolledBack_concat, or_iff_left (h.notRollsBack txId)]

theorem Inv.closed_concat (h : Inv log state)
    (hentry : ∀ connId, entry.request = .connClose connId → entry.live = none) :
    ∀ other ∈ log ++ [entry], ∀ connId, other.request = .connClose connId →
      other.live.isSome = true →
      ∃ ok, ⟨connId, .rollback, ok⟩ ∈ other.calls.takeWhile (·.site ≠ .close) := by
  intro other hother connId hrequest hlive
  rcases List.mem_append.mp hother with hold | hnew
  · exact h.closed other hold connId hrequest hlive
  · rw [List.mem_singleton.mp hnew] at hrequest hlive
    rw [hentry connId hrequest] at hlive
    cases hlive

/-- A request that keeps the table, and uses the connections within their transactions. -/
theorem Inv.works (h : Inv log state) (hquiet : entry.Quiet) {next : State}
    (howner : ∀ txId, next.owner txId = state.owner txId)
    (hconns : ∀ connId conn', next.connections.lookup connId = some conn' →
      ∃ conn, state.connections.lookup connId = some conn ∧ conn'.activeTxId = conn.activeTxId ∧
        Works conn.activeTxId conn.connection conn'.connection)
    (hkept : ∀ connId conn, state.connections.lookup connId = some conn →
      ∃ conn', next.connections.lookup connId = some conn')
    (hleft : next.left = state.left) (hnextTxId : next.nextTxId = state.nextTxId)
    (hnextConnId : next.nextConnId = state.nextConnId) : Inv (log ++ [entry]) next where
  durable := by
    intro effect txId heffect htx
    rw [hquiet.committed]
    -- an effect was left behind by a closed connection, or is durable on an open one
    rcases heffect with hold | ⟨connId, conn', hconn', heffect⟩
    · exact h.durable effect txId (.inl (hleft ▸ hold)) htx
    · obtain ⟨conn, hconn, -, hworks⟩ := hconns connId conn' hconn'
      -- it was there before, or belongs to no transaction
      rcases hworks.durable effect heffect with hold | hnone
      · exact h.durable effect txId (.inr ⟨connId, conn, hconn, hold⟩) htx
      · rw [htx] at hnone
        cases hnone
  closed := h.closed_concat hquiet.notCloses
  active := by
    intro connId conn' hconn' txId
    obtain ⟨conn, hconn, hactive, -⟩ := hconns connId conn' hconn'
    rw [hactive, howner]
    exact h.active connId conn hconn txId
  held := by
    intro txId connId howns
    rw [howner] at howns
    obtain ⟨conn, hconn⟩ := h.held txId connId howns
    exact hkept connId conn hconn
  sound := by
    intro connId conn' hconn'
    obtain ⟨conn, -, hactive, hworks⟩ := hconns connId conn' hconn'
    rw [hactive]
    exact hworks.sound
  ended := by
    intro txId hended
    -- a quiet entry ends no transaction, so that those that are over were over before
    rw [hquiet.committed, hquiet.rolledBack] at hended
    rw [howner]
    exact h.ended txId hended
  once := by
    intro txId
    rw [hquiet.committed, hquiet.rolledBack]
    exact h.once txId
  issued := by
    intro txId hissued
    rw [hquiet.committed, hquiet.rolledBack, howner] at hissued
    rw [hnextTxId]
    exact h.issued txId hissued
  fresh := by
    intro connId conn' hconn'
    obtain ⟨conn, hconn, -, -⟩ := hconns connId conn' hconn'
    rw [hnextConnId]
    exact h.fresh connId conn hconn

/-- A request that changes nothing but savepoints. -/
theorem Inv.same (h : Inv log state) (hquiet : entry.Quiet)
    {transactions : AList fun _ : String => TxState}
    (howner : ∀ txId, (transactions.lookup txId).map (·.connId) = state.owner txId)
    (requests : ℕ) :
    Inv (log ++ [entry]) { state with transactions := transactions, requests := requests } :=
  h.works hquiet howner
    (fun connId conn hconn => ⟨conn, hconn, rfl, Works.refl (h.sound connId conn hconn)⟩)
    (fun _ conn hconn => ⟨conn, hconn⟩) rfl rfl rfl

/-- A request that uses one connection within its transaction. -/
theorem Inv.put (h : Inv log state) (hquiet : entry.Quiet) {connId : ℤ} {conn : ConnectionState}
    {connection : Connection} (hconn : state.connections.lookup connId = some conn)
    (hworks : Works conn.activeTxId conn.connection connection) (originalAutoCommit : Bool)
    (requests : ℕ) :
    Inv (log ++ [entry])
      { state.put connId ⟨connection, originalAutoCommit, conn.activeTxId⟩ with
        requests := requests } := by
  have hlookup := @lookup_put state connId ⟨connection, originalAutoCommit, conn.activeTxId⟩
  -- the request has worked on one connection; all the others are as they were
  refine h.works hquiet (fun _ => rfl) ?_ ?_ rfl rfl rfl
  · intro other otherConn hother
    have hfound := (hlookup other).symm.trans hother
    split at hfound
    · next hsame =>
      subst hsame
      obtain rfl := Option.some.inj hfound
      exact ⟨conn, hconn, rfl, hworks⟩
    · exact ⟨otherConn, hfound, rfl, Works.refl (h.sound other otherConn hfound)⟩
  · intro other otherConn hother
    by_cases hsame : other = connId
    · exact ⟨_, (hlookup other).trans (if_pos hsame)⟩
    · exact ⟨otherConn, ((hlookup other).trans (if_neg hsame)).trans hother⟩

theorem txIdOf_injective : Function.Injective txIdOf := by
  intro m n h
  have hlists := congrArg String.toList h
  unfold txIdOf at hlists
  rw [String.toList_append, String.toList_append] at hlists
  exact Nat.repr_injective (String.toList_inj.mp (List.append_cancel_left hlists))

/-- The next id is that of no transaction before. -/
theorem Inv.next_new (h : Inv log state) : state.owner (txIdOf state.nextTxId) = none ∧
    ¬ Committed log (txIdOf state.nextTxId) ∧ ¬ RolledBack log (txIdOf state.nextTxId) := by
  have hnot : ¬ ((state.owner (txIdOf state.nextTxId)).isSome = true ∨
      Committed log (txIdOf state.nextTxId) ∨ RolledBack log (txIdOf state.nextTxId)) := by
    intro hissued
    obtain ⟨n, hn, heq⟩ := h.issued _ hissued
    exact absurd (txIdOf_injective heq) (Nat.ne_of_gt hn)
  obtain ⟨howner, hnot⟩ := not_or.mp hnot
  obtain ⟨hcommitted, hrolled⟩ := not_or.mp hnot
  exact ⟨Option.not_isSome_iff_eq_none.mp howner, hcommitted, hrolled⟩

/-- `tx/begin`: a fresh id is given to a connection that has no transaction. -/
theorem Inv.begins (h : Inv log state) (hquiet : entry.Quiet) {connId : ℤ}
    {conn conn' : ConnectionState} (hconn : state.connections.lookup connId = some conn)
    (hnone : conn.activeTxId = none) (hactive : conn'.activeTxId = some (txIdOf state.nextTxId))
    (hworks : Works none conn.connection conn'.connection)
    (hmanual : conn'.connection.autoCommit = false) (requests : ℕ) :
    Inv (log ++ [entry])
      { state.put connId conn' with
        nextTxId := state.nextTxId + 1
        transactions := state.transactions.insert (txIdOf state.nextTxId) ⟨connId, ∅⟩
        requests := requests } := by
  obtain ⟨hnew, hnewCommitted, hnewRolled⟩ := h.next_new
  -- the table has the new transaction, and the others as before
  have howner : ∀ txId, ((state.transactions.insert (txIdOf state.nextTxId)
      (⟨connId, ∅⟩ : TxState)).lookup txId).map (·.connId)
      = if txId = txIdOf state.nextTxId then some connId else state.owner txId := by
    intro txId
    split
    · next hsame =>
      subst hsame
      rw [AList.lookup_insert]
      rfl
    · next hsame =>
      rw [AList.lookup_insert_ne hsame]
      rfl
  have hlookup := @lookup_put state connId conn'
  constructor
  -- what is durable was durable, or has no transaction
  · intro effect txId heffect htx
    rw [hquiet.committed]
    rcases heffect with hleft | ⟨other, otherConn, hother, heffect⟩
    · exact h.durable effect txId (.inl hleft) htx
    · have hother := (hlookup other).symm.trans hother
      split at hother
      · obtain rfl := Option.some.inj hother
        rcases hworks.durable effect heffect with hold | hno
        · exact h.durable effect txId (.inr ⟨connId, conn, hconn, hold⟩) htx
        · rw [htx] at hno
          cases hno
      · exact h.durable effect txId (.inr ⟨other, otherConn, hother, heffect⟩) htx
  · exact h.closed_concat hquiet.notCloses
  -- the connection has the new transaction by the table and by its own field; others have neither
  · intro other otherConn hother txId
    have hother := (hlookup other).symm.trans hother
    refine Iff.trans ?_ (iff_of_eq (congrArg (· = some other) (howner txId))).symm
    by_cases hsame : other = connId
    · subst hsame
      rw [if_pos rfl] at hother
      obtain rfl := Option.some.inj hother
      rw [hactive]
      by_cases hid : txId = txIdOf state.nextTxId
      · subst hid
        rw [if_pos rfl]
        exact iff_of_true rfl rfl
      · rw [if_neg hid]
        refine iff_of_false (fun hsome => hid (Option.some.inj hsome).symm) fun hsome => ?_
        have hsome := (h.active other conn hconn txId).mpr hsome
        rw [hnone] at hsome
        cases hsome
    · rw [if_neg hsame] at hother
      by_cases hid : txId = txIdOf state.nextTxId
      -- the new id is nobody's so far, so that no other connection has it
      · subst hid
        rw [if_pos rfl]
        refine iff_of_false (fun hsome => ?_) fun hsome => hsame (Option.some.inj hsome).symm
        have hsome := (h.active other otherConn hother _).mp hsome
        rw [hnew] at hsome
        cases hsome
      · rw [if_neg hid]
        exact h.active other otherConn hother txId
  -- the connection of the new transaction is open
  · intro txId other howns
    have howns := (howner txId).symm.trans howns
    by_cases hsame : other = connId
    · exact ⟨conn', (hlookup other).trans (if_pos hsame)⟩
    · rw [if_neg] at howns
      · obtain ⟨otherConn, hother⟩ := h.held txId other howns
        exact ⟨otherConn, ((hlookup other).trans (if_neg hsame)).trans hother⟩
      · rintro rfl
        rw [if_pos rfl] at howns
        exact hsame (Option.some.inj howns).symm
  -- nothing is pending there but what belongs to no transaction
  · intro other otherConn hother
    have hother := (hlookup other).symm.trans hother
    split at hother
    · obtain rfl := Option.some.inj hother
      refine ⟨fun effect heffect => ?_, fun _ => hmanual⟩
      exact .inl ((hworks.sound.pending effect heffect).elim id id)
    · exact h.sound other otherConn hother
  -- the new id has not ended: it was not given out before
  · intro txId hended
    rw [hquiet.committed, hquiet.rolledBack] at hended
    refine (howner txId).trans ?_
    rw [if_neg]
    · exact h.ended txId hended
    · rintro rfl
      exact hended.elim hnewCommitted hnewRolled
  · intro txId
    rw [hquiet.committed, hquiet.rolledBack]
    exact h.once txId
  -- the new id is the next one, and the others are below it
  · intro txId hissued
    rw [hquiet.committed, hquiet.rolledBack] at hissued
    by_cases hid : txId = txIdOf state.nextTxId
    · exact ⟨state.nextTxId, Nat.lt_succ_self _, hid⟩
    · have hold : (state.owner txId).isSome = true ∨ Committed log txId ∨ RolledBack log txId := by
        refine hissued.imp_left fun hsome => ?_
        have hsome' := congrArg Option.isSome ((howner txId).trans (if_neg hid))
        exact hsome'.symm.trans hsome
      obtain ⟨n, hn, heq⟩ := h.issued txId hold
      exact ⟨n, Nat.lt_succ_of_lt hn, heq⟩
  · intro other otherConn hother
    have hother := (hlookup other).symm.trans hother
    split at hother
    · next hsame =>
      rw [hsame]
      exact h.fresh connId conn hconn
    · exact h.fresh other otherConn hother

/-- The end of a transaction: `tx/commit`, or `tx/rollback` without a savepoint. -/
theorem Inv.ends (h : Inv log state) {connId : ℤ} {conn conn' : ConnectionState}
    (hconn : state.connections.lookup connId = some conn) (howns : state.owner txId = some connId)
    (hcommits : ∀ other, entry.Commits other → other = txId)
    (hrolls : ∀ other, entry.RollsBack other → other = txId)
    (hone : ¬ (entry.Commits txId ∧ entry.RollsBack txId))
    (hcloses : ∀ connId, entry.request ≠ .connClose connId)
    (hactive : conn'.activeTxId = none) (hpending : conn'.connection.pending = [])
    (hdurable : ∀ effect ∈ conn'.connection.durable, effect ∈ conn.connection.durable ∨
      effect ∈ conn.connection.pending ∧ entry.Commits txId) (requests : ℕ) :
    Inv (log ++ [entry])
      { ({ state with transactions := state.transactions.erase txId } : State).put connId conn' with
        requests := requests } := by
  -- the connection's transaction is the one that ends
  have hmine : ∀ other, conn.activeTxId = some other → other = txId := by
    intro other hother
    have hown := (h.active connId conn hconn txId).mpr howns
    exact Option.some.inj (hother.symm.trans hown)
  have howner : ∀ other, ((state.transactions.erase txId).lookup other).map (·.connId)
      = if other = txId then none else state.owner other := by
    intro other
    split
    · next hsame =>
      subst hsame
      rw [AList.lookup_erase]
      rfl
    · next hsame =>
      rw [AList.lookup_erase_ne hsame]
      rfl
  -- it has not ended before, for it is in the table
  have hnotEnded : ¬ Committed log txId ∧ ¬ RolledBack log txId := by
    constructor
    · intro hcommitted
      rw [h.ended txId (.inl hcommitted)] at howns
      cases howns
    · intro hrolled
      rw [h.ended txId (.inr hrolled)] at howns
      cases howns
  have hlookup := @lookup_put { state with transactions := state.transactions.erase txId } connId
    conn'
  constructor
  -- what becomes durable was pending, so that it belongs to the transaction that is committed
  · intro effect other heffect htx
    rw [committed_concat]
    rcases heffect with hleft | ⟨otherId, otherConn, hother, heffect⟩
    · exact .inl (h.durable effect other (.inl hleft) htx)
    · have hother := (hlookup otherId).symm.trans hother
      split at hother
      · obtain rfl := Option.some.inj hother
        rcases hdurable effect heffect with hold | ⟨hpend, hcommit⟩
        · exact .inl (h.durable effect other (.inr ⟨connId, conn, hconn, hold⟩) htx)
        · -- what was pending belongs to the transaction that is committed
          rcases (h.sound connId conn hconn).pending effect hpend with hno | hlive
          · rw [htx] at hno
            cases hno
          · rw [hmine other (hlive.symm.trans htx)]
            exact .inr hcommit
      · exact .inl (h.durable effect other (.inr ⟨otherId, otherConn, hother, heffect⟩) htx)
  · exact h.closed_concat fun connId hrequest => absurd hrequest (hcloses connId)
  -- no connection has the transaction any more; the others keep theirs
  · intro otherId otherConn hother other
    have hother := (hlookup otherId).symm.trans hother
    refine Iff.trans ?_ (iff_of_eq (congrArg (· = some otherId) (howner other))).symm
    by_cases hsame : otherId = connId
    · subst hsame
      rw [if_pos rfl] at hother
      obtain rfl := Option.some.inj hother
      rw [hactive]
      refine iff_of_false (fun hsome => nomatch hsome) fun hsome => ?_
      split at hsome
      · cases hsome
      · next hid => exact hid (hmine other ((h.active otherId conn hconn other).mpr hsome))
    · rw [if_neg hsame] at hother
      by_cases hid : other = txId
      · subst hid
        rw [if_pos rfl]
        refine iff_of_false (fun hsome => ?_) fun hsome => nomatch hsome
        have hsome := (h.active otherId otherConn hother other).mp hsome
        exact hsame (Option.some.inj (hsome.symm.trans howns))
      · rw [if_neg hid]
        exact h.active otherId otherConn hother other
  -- transactions that are left belong to open connections
  · intro other otherId hown
    have hown := (howner other).symm.trans hown
    split at hown
    · cases hown
    · by_cases hsame : otherId = connId
      · exact ⟨conn', (hlookup otherId).trans (if_pos hsame)⟩
      · obtain ⟨otherConn, hother⟩ := h.held other otherId hown
        exact ⟨otherConn, ((hlookup otherId).trans (if_neg hsame)).trans hother⟩
  -- the connection is without a transaction, and nothing is pending there
  · intro otherId otherConn hother
    have hother := (hlookup otherId).symm.trans hother
    split at hother
    · obtain rfl := Option.some.inj hother
      constructor
      · rw [hpending]
        exact fun effect heffect => absurd heffect List.not_mem_nil
      · rw [hactive]
        exact fun hsome => nomatch hsome
    · exact h.sound otherId otherConn hother
  -- what is over now was over before, or is the transaction that ends here
  · intro other hended
    rw [committed_concat, rolledBack_concat] at hended
    refine (howner other).trans ?_
    by_cases hid : other = txId
    · exact if_pos hid
    · rw [if_neg hid]
      rcases hended with (hold | hnew) | (hold | hnew)
      · exact h.ended other (.inl hold)
      · exact absurd (hcommits other hnew) hid
      · exact h.ended other (.inr hold)
      · exact absurd (hrolls other hnew) hid
  -- it ends in one way only: it had not ended, and the entry is not of both kinds
  · rintro other ⟨hcommitted, hrolled⟩
    rw [committed_concat] at hcommitted
    rw [rolledBack_concat] at hrolled
    rcases hcommitted with hcommitted | hcommitted
    · rcases hrolled with hrolled | hrolled
      · exact h.once other ⟨hcommitted, hrolled⟩
      · rw [hrolls other hrolled] at hcommitted
        exact hnotEnded.1 hcommitted
    · obtain rfl := hcommits other hcommitted
      rcases hrolled with hrolled | hrolled
      · exact hnotEnded.2 hrolled
      · exact hone ⟨hcommitted, hrolled⟩
  -- all ids were given out before
  · intro other hissued
    rw [committed_concat, rolledBack_concat] at hissued
    by_cases hid : other = txId
    · subst hid
      refine h.issued other (.inl ?_)
      rw [howns]
      rfl
    · refine h.issued other ?_
      rcases hissued with hsome | (hold | hnew) | (hold | hnew)
      · have hsome' := congrArg Option.isSome ((howner other).trans (if_neg hid))
        exact .inl (hsome'.symm.trans hsome)
      · exact .inr (.inl hold)
      · exact absurd (hcommits other hnew) hid
      · exact .inr (.inr hold)
      · exact absurd (hrolls other hnew) hid
  · intro otherId otherConn hother
    have hother := (hlookup otherId).symm.trans hother
    split at hother
    · next hsame =>
      rw [hsame]
      exact h.fresh connId conn hconn
    · exact h.fresh otherId otherConn hother

/-- `conn/open`: a fresh connection joins, which nobody's transaction names. -/
theorem Inv.opens (h : Inv log state) (hquiet : entry.Quiet) (requests : ℕ) :
    Inv (log ++ [entry])
      { state.put state.nextConnId {} with
        nextConnId := state.nextConnId + 1
        requests := requests } := by
  have hlookup := @lookup_put state state.nextConnId {}
  -- the id of the connection is new, so that no transaction is on it
  have hnotOwner : ∀ txId, state.owner txId ≠ some state.nextConnId := by
    intro txId howns
    obtain ⟨conn, hconn⟩ := h.held txId _ howns
    exact lt_irrefl _ (h.fresh _ conn hconn)
  constructor
  · intro effect txId heffect htx
    rw [hquiet.committed]
    rcases heffect with hleft | ⟨connId, conn, hconn, heffect⟩
    · exact h.durable effect txId (.inl hleft) htx
    · have hconn := (hlookup connId).symm.trans hconn
      split at hconn
      -- the new connection has done nothing
      · obtain rfl := Option.some.inj hconn
        exact absurd heffect List.not_mem_nil
      · exact h.durable effect txId (.inr ⟨connId, conn, hconn, heffect⟩) htx
  · exact h.closed_concat hquiet.notCloses
  · intro connId conn hconn txId
    have hfound := (hlookup connId).symm.trans hconn
    split at hfound
    · next hsame =>
      rw [hsame, ← Option.some.inj hfound]
      exact iff_of_false (fun hsome => nomatch hsome) (hnotOwner txId)
    · exact h.active connId conn hfound txId
  · intro txId connId howns
    by_cases hsame : connId = state.nextConnId
    · exact ⟨{}, (hlookup connId).trans (if_pos hsame)⟩
    · obtain ⟨conn, hconn⟩ := h.held txId connId howns
      exact ⟨conn, ((hlookup connId).trans (if_neg hsame)).trans hconn⟩
  · intro connId conn hconn
    have hconn := (hlookup connId).symm.trans hconn
    split at hconn
    · obtain rfl := Option.some.inj hconn
      exact ⟨fun effect heffect => absurd heffect List.not_mem_nil, fun hsome => nomatch hsome⟩
    · exact h.sound connId conn hconn
  · intro txId hended
    rw [hquiet.committed, hquiet.rolledBack] at hended
    exact h.ended txId hended
  · intro txId
    rw [hquiet.committed, hquiet.rolledBack]
    exact h.once txId
  · intro txId hissued
    rw [hquiet.committed, hquiet.rolledBack] at hissued
    exact h.issued txId hissued
  · intro connId conn hconn
    have hconn := (hlookup connId).symm.trans hconn
    split at hconn
    · next hsame =>
      rw [hsame]
      exact Int.lt_succ _
    · exact lt_trans (h.fresh connId conn hconn) (Int.lt_succ _)

/-- Connections are closed, whose transactions are over and have left nothing durable. -/
theorem Inv.drops (h : Inv log state) (hquiet : entry.Quiet)
    {connections : AList fun _ : ℤ => ConnectionState}
    {transactions : AList fun _ : String => TxState} {left : List Effect}
    (hconns : ∀ connId conn, connections.lookup connId = some conn →
      state.connections.lookup connId = some conn)
    (howner : ∀ txId connId, (transactions.lookup txId).map (·.connId) = some connId ↔
      state.owner txId = some connId ∧ ∃ conn, connections.lookup connId = some conn)
    (hleft : ∀ effect ∈ left, state.Durable effect ∨ effect.tx = none) (requests : ℕ) :
    Inv (log ++ [entry])
      { state with
        connections := connections
        transactions := transactions
        left := left
        requests := requests } where
  durable := by
    intro effect txId heffect htx
    rw [hquiet.committed]
    rcases heffect with hdropped | ⟨connId, conn, hconn, heffect⟩
    -- what the closed connections leave was durable before, or belongs to no transaction
    · rcases hleft effect hdropped with hold | hnone
      · exact h.durable effect txId hold htx
      · rw [htx] at hnone
        cases hnone
    · exact h.durable effect txId (.inr ⟨connId, conn, hconns connId conn hconn, heffect⟩) htx
  closed := h.closed_concat hquiet.notCloses
  active := by
    intro connId conn hconn txId
    rw [h.active connId conn (hconns connId conn hconn) txId]
    exact ⟨fun howns => (howner txId connId).mpr ⟨howns, conn, hconn⟩,
      fun howns => ((howner txId connId).mp howns).1⟩
  held := fun txId connId howns => ((howner txId connId).mp howns).2
  sound := fun connId conn hconn => h.sound connId conn (hconns connId conn hconn)
  ended := by
    intro txId hended
    rw [hquiet.committed, hquiet.rolledBack] at hended
    refine Option.eq_none_iff_forall_ne_some.mpr fun connId howns => ?_
    have hold := ((howner txId connId).mp howns).1
    rw [h.ended txId hended] at hold
    cases hold
  once := by
    intro txId
    rw [hquiet.committed, hquiet.rolledBack]
    exact h.once txId
  issued := by
    intro txId hissued
    rw [hquiet.committed, hquiet.rolledBack] at hissued
    refine h.issued txId (hissued.imp_left fun hsome => ?_)
    obtain ⟨connId, howns⟩ := Option.isSome_iff_exists.mp hsome
    rw [((howner txId connId).mp howns).1]
    rfl
  fresh := fun connId conn hconn => h.fresh connId conn (hconns connId conn hconn)

/-! ### Shutdown -/

/-- The first loop of a shutdown discards work, and makes nothing durable. -/
theorem lookup_rollbackAll (answers : Answers) (connIds : List ℤ)
    (connections : AList fun _ : ℤ => ConnectionState) {connId : ℤ} {conn' : ConnectionState}
    (hconn' : (rollbackAll answers connections connIds).1.lookup connId = some conn') :
    ∃ conn, connections.lookup connId = some conn ∧
      conn'.connection.durable = conn.connection.durable ∧
      conn'.connection.pending ⊆ conn.connection.pending ∧
      (connId ∈ connIds → answers.fails .rollback connId = false → conn'.connection.pending = []) := by
  induction connIds generalizing connections with
  | nil => exact ⟨conn', hconn', rfl, List.Subset.refl _, fun hmem => absurd hmem List.not_mem_nil⟩
  | cons first connIds ih =>
    unfold rollbackAll at hconn'
    cases hfirst : connections.lookup first with
    | none =>
      rw [hfirst] at hconn'
      obtain ⟨conn, hconn, hdurable, hpending, hrolled⟩ := ih connections hconn'
      refine ⟨conn, hconn, hdurable, hpending, fun hmem hok => ?_⟩
      rcases List.mem_cons.mp hmem with rfl | hmem
      · rw [hfirst] at hconn
        cases hconn
      · exact hrolled hmem hok
    | some firstConn =>
      rw [hfirst] at hconn'
      dsimp only at hconn'
      by_cases hfails : answers.fails .rollback first = true
      · rw [if_pos hfails] at hconn'
        obtain ⟨conn, hconn, hdurable, hpending, hrolled⟩ := ih connections hconn'
        refine ⟨conn, hconn, hdurable, hpending, fun hmem hok => ?_⟩
        rcases List.mem_cons.mp hmem with rfl | hmem
        · rw [hok] at hfails
          cases hfails
        · exact hrolled hmem hok
      · rw [if_neg hfails] at hconn'
        obtain ⟨conn, hconn, hdurable, hpending, hrolled⟩ := ih _ hconn'
        by_cases hsame : connId = first
        · subst hsame
          rw [AList.lookup_insert] at hconn
          obtain rfl := Option.some.inj hconn
          -- nothing is left that switching auto-commit on could commit
          have hempty : ∀ connection : Connection, connection.pending = [] →
              ∀ autoCommit, (connection.setAutoCommit autoCommit).pending = [] ∧
                (connection.setAutoCommit autoCommit).durable = connection.durable := by
            intro connection hnil autoCommit
            unfold Connection.setAutoCommit
            split
            · refine ⟨rfl, ?_⟩
              change connection.durable ++ connection.pending = _
              rw [hnil, List.append_nil]
            · exact ⟨hnil, rfl⟩
          have hfirstEmpty : ∀ connection : Connection,
              connection = (if answers.fails .restoreAutoCommit connId = true
                then firstConn.connection.rollback
                else firstConn.connection.rollback.setAutoCommit firstConn.originalAutoCommit) →
              connection.pending = [] ∧ connection.durable = firstConn.connection.durable := by
            rintro connection rfl
            split
            · exact ⟨rfl, rfl⟩
            · exact hempty firstConn.connection.rollback rfl _
          obtain ⟨hnil, hsameDurable⟩ := hfirstEmpty _ rfl
          have hall : conn'.connection.pending = [] := by
            refine List.subset_nil.mp fun effect heffect => ?_
            have hmem := hpending heffect
            dsimp only at hmem
            rwa [hnil] at hmem
          refine ⟨firstConn, hfirst, hdurable.trans hsameDurable, ?_, fun _ _ => hall⟩
          rw [hall]
          exact List.nil_subset _
        · rw [AList.lookup_insert_ne hsame] at hconn
          refine ⟨conn, hconn, hdurable, hpending, fun hmem hok => ?_⟩
          rcases List.mem_cons.mp hmem with hfirst' | hmem
          · exact absurd hfirst' hsame
          · exact hrolled hmem hok

/-! ### Handlers -/

/-- The invariant holds after a request has been handled. -/
def Keeps (log : List Entry) (request : Request) (live : Option String) (handled : Handled) : Prop :=
  ∀ requests, Inv (log ++ [⟨request, live, handled.calls, handled.reply⟩])
    { handled.state with requests := requests }

section Handlers

variable {answers : Answers} {request : Request} {live : Option String}

theorem Inv.idle (h : Inv log state) {calls : List JdbcCall} {reply : Reply}
    (hquiet : Entry.Quiet ⟨request, live, calls, reply⟩) :
    Keeps log request live ⟨state, calls, reply⟩ :=
  fun requests => h.same hquiet (fun _ => rfl) requests

/-- The requests that neither end transactions nor close connections. -/
def Request.isPlain : Request → Bool
  | .connClose _ => false
  | .txCommit _ => false
  | .txRollback _ toSavepoint => toSavepoint ≠ ""
  | _ => true

theorem quiet_of_isPlain (hplain : request.isPlain = true) (calls : List JdbcCall) (reply : Reply) :
    Entry.Quiet ⟨request, live, calls, reply⟩ := by
  refine ⟨?_, ?_, ?_⟩
  · rintro txId ⟨hrequest, -⟩
    obtain rfl : request = .txCommit txId := hrequest
    cases hplain
  · rintro txId ⟨hrequest, -⟩
    obtain rfl : request = .txRollback txId "" := hrequest
    cases hplain
  · intro connId hrequest
    obtain rfl : request = .connClose connId := hrequest
    cases hplain

theorem quiet_commit {calls : List JdbcCall} {reply : Reply}
    (hcalls : ∀ connId, ⟨connId, .commit, true⟩ ∉ calls) :
    Entry.Quiet ⟨.txCommit txId, live, calls, reply⟩ where
  notCommits := fun _ ⟨_, connId, hmem⟩ => hcalls connId hmem
  notRollsBack := fun _ ⟨hrequest, _⟩ => nomatch hrequest
  notCloses := fun _ hrequest => nomatch hrequest

theorem quiet_rollback {toSavepoint : String} {calls : List JdbcCall} {reply : Reply}
    (hreply : toSavepoint = "" → reply ≠ .ok) :
    Entry.Quiet ⟨.txRollback txId toSavepoint, live, calls, reply⟩ where
  notCommits := fun _ ⟨hrequest, _⟩ => nomatch hrequest
  notRollsBack := by
    rintro other ⟨hrequest, hok⟩
    exact hreply (Request.txRollback.inj hrequest).2 hok
  notCloses := fun _ hrequest => nomatch hrequest

theorem Inv.handleConnOpen (h : Inv log state) :
    Keeps log .connOpen live (handleConnOpen answers state) := by
  unfold Gbase8a.handleConnOpen
  dsimp only
  split
  · exact h.idle (quiet_of_isPlain rfl _ _)
  · split
    · exact h.idle (quiet_of_isPlain rfl _ _)
    · exact fun requests => h.opens (quiet_of_isPlain rfl _ _) requests

theorem Inv.handleStatement (h : Inv log state) (hplain : request.isPlain = true) (connId : ℤ)
    (named : String) : Keeps log request live (handleStatement answers state connId named) := by
  unfold Gbase8a.handleStatement
  cases hconn : state.connections.lookup connId with
  | none => exact h.idle (quiet_of_isPlain hplain _ _)
  | some conn =>
    dsimp only
    split
    · exact h.idle (quiet_of_isPlain hplain _ _)
    -- the transaction of the effect is the one that the table has for the connection
    · have hlive := live_eq (h.active connId conn hconn)
      have hsound := h.sound connId conn hconn
      rw [← hlive] at hsound
      have hworks := @Works.executeStatement conn.connection answers state connId hsound 0
      rw [hlive] at hworks
      exact fun requests => h.put (quiet_of_isPlain hplain _ _) hconn hworks _ requests

theorem Inv.handleExecBatch (h : Inv log state) (connId : ℤ) (statements : List String)
    (stopOnError inTransaction : Bool)
    (hsettles : inTransaction = true → (state.live connId).isSome = true →
      ¬ CommitsBatch answers connId statements) :
    Keeps log (.execBatch connId statements stopOnError inTransaction) live
      (handleExecBatch answers state connId statements stopOnError inTransaction) := by
  unfold Gbase8a.handleExecBatch
  cases hconn : state.connections.lookup connId with
  | none => exact h.idle (quiet_of_isPlain rfl _ _)
  | some conn =>
    have hlive := live_eq (h.active connId conn hconn)
    have hsound : Sound (state.live connId) conn.connection := hlive ▸ h.sound connId conn hconn
    -- however the batch ends, it is one connection that has worked
    have hput : ∀ {connection : Connection} {calls : List JdbcCall} {reply : Reply},
        Works (state.live connId) conn.connection connection →
        Keeps log (.execBatch connId statements stopOnError inTransaction) live
          ⟨state.put connId { conn with connection := connection }, calls, reply⟩ :=
      fun hworks requests =>
        h.put (quiet_of_isPlain rfl _ _) hconn (hlive ▸ hworks) _ requests
    dsimp only
    split
    · exact h.idle (quiet_of_isPlain rfl _ _)
    · next hreading =>
      split
      · next hin =>
        split
        · exact h.idle (quiet_of_isPlain rfl _ _)
        · next hdisabling =>
          -- auto-commit is off, the statements run, and the connection is committed or rolled back
          have hdisabled := Works.setAutoCommit hsound fun _ => (rfl : false = false)
          have hran := hdisabled.trans
            (@Works.runStatements _ answers state connId stopOnError hdisabled.sound 0 statements)
          have herrors := @fails_of_errors_nil (conn.connection.setAutoCommit false) answers state
            connId stopOnError 0 statements
          generalize runStatements answers state connId stopOnError 0 statements
            (conn.connection.setAutoCommit false) = ran at hran herrors ⊢
          obtain ⟨connection, results, errors⟩ := ran
          dsimp only at hran herrors ⊢
          -- a call that fails leaves the connection as the statements have left it
          have hends : Works (state.live connId) conn.connection
              (if answers.fails (if errors.isEmpty then Site.commit else Site.rollback) connId = true
                then connection
                else if errors.isEmpty = true then connection.commit else connection.rollback) := by
            split
            · next hempty =>
              split
              · exact hran
              · next hfails =>
                -- a batch that commits does so outside of transactions
                have hnone : state.live connId = none := by
                  refine Option.not_isSome_iff_eq_none.mp fun hsome => hsettles hin hsome ?_
                  refine ⟨Bool.eq_false_iff.mpr hreading, Bool.eq_false_iff.mpr hdisabling, ?_,
                    Bool.eq_false_iff.mpr hfails⟩
                  intro index hindex
                  have hok := herrors (List.isEmpty_iff.mp hempty) index hindex
                  rwa [Nat.zero_add] at hok
                rw [hnone] at hran ⊢
                exact hran.trans (Works.commit hran.sound)
            · split
              · exact hran
              · exact hran.trans (Works.rollback hran.sound)
          split
          -- auto-commit cannot be restored, or it is, which may commit once more
          · exact hput hends
          · exact hput (hends.trans (Works.setAutoCommit hends.sound hsound.manual))
      -- without a transaction of its own the batch only runs its statements
      · exact hput (Works.runStatements hsound 0 statements)

theorem Inv.handleTxBegin (h : Inv log state) (connId : ℤ) :
    Keeps log (.txBegin connId) live (handleTxBegin answers state connId) := by
  unfold Gbase8a.handleTxBegin
  cases hconn : state.connections.lookup connId with
  | none => exact h.idle (quiet_of_isPlain rfl _ _)
  | some conn =>
    dsimp only
    split
    · exact h.idle (quiet_of_isPlain rfl _ _)
    · next hactive =>
      -- only a connection without a transaction gets one
      have hnone : conn.activeTxId = none := Option.not_isSome_iff_eq_none.mp hactive
      have hsound := h.sound connId conn hconn
      split
      · exact h.idle (quiet_of_isPlain rfl _ _)
      · split
        -- turning auto-commit off has failed: the connection stays as it is
        · exact fun requests =>
            h.put (quiet_of_isPlain rfl _ _) hconn (Works.refl hsound) _ requests
        -- auto-commit is off, and the id is given out
        · rw [hnone] at hsound
          have hworks := Works.setAutoCommit hsound fun _ => (rfl : false = false)
          exact fun requests => h.begins (quiet_of_isPlain rfl _ _) hconn hnone rfl hworks rfl requests

/-- `requireTransaction` finds what the table holds. -/
theorem requireTransaction_ok {expectedConnId : ℤ} {tx : TxState}
    (h : requireTransaction state txId expectedConnId = .ok tx) :
    state.transactions.lookup txId = some tx := by
  unfold requireTransaction at h
  cases hlookup : state.transactions.lookup txId with
  | none =>
    rw [hlookup] at h
    cases h
  | some found =>
    rw [hlookup] at h
    dsimp only at h
    split at h
    · cases h
    · exact congrArg some (Except.ok.inj h)

theorem owner_of_lookup {tx : TxState} (h : state.transactions.lookup txId = some tx) :
    state.owner txId = some tx.connId := owner_eq_some.mpr ⟨tx, h, rfl⟩

theorem Inv.handleTxCommit (h : Inv log state) (txId : String)
    (hsettles : ∀ connId, state.owner txId = some connId → answers.fails .commit connId = false →
      answers.fails .restoreAutoCommit connId = false) :
    Keeps log (.txCommit txId) live (handleTxCommit answers state txId) := by
  unfold Gbase8a.handleTxCommit
  cases hrequire : requireTransaction state txId (-1) with
  | error reply => exact h.idle (quiet_commit fun _ => List.not_mem_nil)
  | ok tx =>
    have howns := owner_of_lookup (requireTransaction_ok hrequire)
    dsimp only
    cases hconn : state.connections.lookup tx.connId with
    | none => exact h.idle (quiet_commit fun _ => List.not_mem_nil)
    | some conn =>
      dsimp only
      split
      -- the commit has failed: the transaction stays in the table, and its work stays pending
      · next hfails =>
        refine h.idle (quiet_commit fun connId hmem => ?_)
        have hcall := congrArg JdbcCall.ok (List.mem_singleton.mp hmem)
        unfold Answers.call at hcall
        rw [hfails] at hcall
        cases hcall
      · next hfails =>
        -- the run settles: auto-commit is restored after a commit that succeeds
        have hok := hsettles tx.connId howns (Bool.eq_false_iff.mpr hfails)
        unfold finishTransaction
        dsimp only
        rw [if_neg (Bool.eq_false_iff.mp hok)]
        intro requests
        refine h.ends hconn howns ?_ ?_ ?_ ?_ rfl ?_ ?_ requests
        -- the only transaction that this entry commits is the one of the request
        · rintro other ⟨hrequest, -⟩
          exact (Request.txCommit.inj hrequest).symm
        · rintro other ⟨hrequest, -⟩
          cases hrequest
        · rintro ⟨-, hrequest, -⟩
          cases hrequest
        · exact fun connId hrequest => nomatch hrequest
        -- nothing is pending after a commit
        · unfold Connection.setAutoCommit
          split <;> rfl
        -- what is durable now was durable, or was pending until this commit
        · intro effect heffect
          have hmem : effect ∈ conn.connection.durable ++ conn.connection.pending := by
            unfold Connection.setAutoCommit at heffect
            split at heffect
            · exact (List.append_nil (conn.connection.durable ++ conn.connection.pending)) ▸ heffect
            · exact heffect
          rcases List.mem_append.mp hmem with hold | hpending
          · exact .inl hold
          · refine .inr ⟨hpending, rfl, tx.connId, List.mem_cons.mpr (.inl ?_)⟩
            unfold Answers.call
            rw [Bool.eq_false_iff.mpr hfails]
            rfl

theorem Inv.handleTxRollback (h : Inv log state) (txId toSavepoint : String)
    (hsettles : ∀ connId, state.owner txId = some connId → toSavepoint = "" →
      answers.fails .rollback connId = false → answers.fails .restoreAutoCommit connId = false) :
    Keeps log (.txRollback txId toSavepoint) live
      (handleTxRollback answers state txId toSavepoint) := by
  unfold Gbase8a.handleTxRollback
  cases hrequire : requireTransaction state txId (-1) with
  -- an unknown transaction: the answer is an error, and nothing is rolled back
  | error reply =>
    refine h.idle (quiet_rollback fun _ hok => ?_)
    subst hok
    unfold requireTransaction at hrequire
    split at hrequire
    · cases hrequire
    · split at hrequire
      · cases hrequire
      · cases hrequire
  | ok tx =>
    have howns := owner_of_lookup (requireTransaction_ok hrequire)
    dsimp only
    split
    -- back to a savepoint: the transaction goes on with a part of its work
    · next hsavepoint =>
      have hquiet : ∀ calls reply,
          Entry.Quiet ⟨.txRollback txId toSavepoint, live, calls, reply⟩ :=
        fun calls reply => quiet_rollback fun hempty => absurd hempty hsavepoint
      split
      · exact h.idle (hquiet _ _)
      · cases hconn : state.connections.lookup tx.connId with
        | none => exact h.idle (hquiet _ _)
        | some conn =>
          dsimp only
          split
          · exact h.idle (hquiet _ _)
          · exact fun requests => h.put (hquiet _ _) hconn
              (Works.rollbackTo (h.sound tx.connId conn hconn) _) _ requests
    -- back to the beginning, which ends the transaction
    · next hsavepoint =>
      obtain rfl : toSavepoint = "" := not_not.mp hsavepoint
      cases hconn : state.connections.lookup tx.connId with
      | none => exact h.idle (quiet_rollback fun _ hok => nomatch hok)
      | some conn =>
        dsimp only
        split
        · exact h.idle (quiet_rollback fun _ hok => nomatch hok)
        · next hfails =>
          -- the run settles: auto-commit is restored after a rollback that succeeds
          have hok := hsettles tx.connId howns rfl (Bool.eq_false_iff.mpr hfails)
          unfold finishTransaction
          dsimp only
          rw [if_neg (Bool.eq_false_iff.mp hok)]
          intro requests
          refine h.ends hconn howns ?_ ?_ ?_ ?_ rfl ?_ ?_ requests
          · rintro other ⟨hrequest, -⟩
            cases hrequest
          · rintro other ⟨hrequest, -⟩
            exact (Request.txRollback.inj hrequest).1.symm
          · rintro ⟨⟨hrequest, -⟩, -⟩
            cases hrequest
          · exact fun connId hrequest => nomatch hrequest
          · unfold Connection.setAutoCommit
            split <;> rfl
          -- a rollback makes nothing durable
          · intro effect heffect
            refine .inl ?_
            unfold Connection.setAutoCommit at heffect
            split at heffect
            · exact (List.append_nil conn.connection.durable) ▸ heffect
            · exact heffect

/-- Savepoints are no part of what the table says about connections. -/
theorem owner_insert_savepoints {tx : TxState} (h : state.transactions.lookup txId = some tx)
    (savepoints : AList fun _ : String => ℕ) (other : String) :
    ((state.transactions.insert txId { tx with savepoints := savepoints }).lookup other).map
      (·.connId) = state.owner other := by
  by_cases hsame : other = txId
  · subst hsame
    rw [AList.lookup_insert, owner_of_lookup h]
    rfl
  · rw [AList.lookup_insert_ne hsame]
    rfl

theorem Inv.handleTxSavepoint (h : Inv log state) (txId name : String) :
    Keeps log (.txSavepoint txId name) live (handleTxSavepoint answers state txId name) := by
  unfold Gbase8a.handleTxSavepoint
  cases hrequire : requireTransaction state txId (-1) with
  | error reply => exact h.idle (quiet_of_isPlain rfl _ _)
  | ok tx =>
    dsimp only
    cases hconn : state.connections.lookup tx.connId with
    | none => exact h.idle (quiet_of_isPlain rfl _ _)
    | some conn =>
      dsimp only
      split
      · exact h.idle (quiet_of_isPlain rfl _ _)
      · exact fun requests => h.same (quiet_of_isPlain rfl _ _)
          (owner_insert_savepoints (requireTransaction_ok hrequire) _) requests

theorem Inv.handleTxRelease (h : Inv log state) (txId name : String) :
    Keeps log (.txRelease txId name) live (handleTxRelease answers state txId name) := by
  unfold Gbase8a.handleTxRelease
  cases hrequire : requireTransaction state txId (-1) with
  | error reply => exact h.idle (quiet_of_isPlain rfl _ _)
  | ok tx =>
    have howner := owner_insert_savepoints (requireTransaction_ok hrequire)
    dsimp only
    split
    · exact h.idle (quiet_of_isPlain rfl _ _)
    · split
      · exact fun requests => h.same (quiet_of_isPlain rfl _ _) (howner _) requests
      · exact fun requests => h.same (quiet_of_isPlain rfl _ _) (howner _) requests

theorem lookup_erase_eq_some {connections : AList fun _ : ℤ => ConnectionState} {connId other : ℤ}
    {conn : ConnectionState} : (connections.erase connId).lookup other = some conn ↔
      other ≠ connId ∧ connections.lookup other = some conn := by
  by_cases hsame : other = connId
  · subst hsame
    rw [AList.lookup_erase]
    exact iff_of_false (fun h => nomatch h) fun h => h.1 rfl
  · rw [AList.lookup_erase_ne hsame]
    exact (and_iff_right hsame).symm

theorem Inv.handleConnClose (h : Inv log state) (connId : ℤ) (hsettles : state.live connId = none) :
    Keeps log (.connClose connId) none (handleConnClose answers state connId) := by
  have hquiet : ∀ calls reply, Entry.Quiet ⟨.connClose connId, none, calls, reply⟩ :=
    fun calls reply => ⟨fun _ ⟨hrequest, _⟩ => (nomatch hrequest),
      fun _ ⟨hrequest, _⟩ => (nomatch hrequest), fun _ _ => rfl⟩
  unfold Gbase8a.handleConnClose
  cases hconn : state.connections.lookup connId with
  | none => exact h.idle (hquiet _ _)
  | some conn =>
    -- the run settles: the connection has no transaction that would have to be rolled back
    have hids : (state.transactions.entries.filter fun entry => entry.2.connId = connId) = [] := by
      rw [List.filter_eq_nil_iff, ← List.find?_eq_none]
      exact Option.map_eq_none_iff.mp hsettles
    have hclosing : closeTransactionsForConn answers
        { state with connections := state.connections.erase connId } connId
        = ({ state with connections := state.connections.erase connId }, [], true) := by
      unfold closeTransactionsForConn
      rw [hids]
      rfl
    dsimp only
    rw [hclosing]
    dsimp only
    rw [if_pos rfl]
    intro requests
    refine h.drops (hquiet _ _) (fun other otherConn hother => (lookup_erase_eq_some.mp hother).2)
      ?_ ?_ requests
    -- the transactions in the table are those of other connections
    · intro txId other
      refine ⟨fun howns => ⟨howns, ?_⟩, And.left⟩
      obtain ⟨otherConn, hother⟩ := h.held txId other howns
      refine ⟨otherConn, lookup_erase_eq_some.mpr ⟨?_, hother⟩⟩
      rintro rfl
      have hsome : (state.live other).isSome = true := live_isSome_of_owner howns
      rw [hsettles] at hsome
      cases hsome
    -- what a closing connection leaves behind was durable, or was pending without a transaction
    · intro effect heffect
      have hactive := (live_eq (h.active connId conn hconn)).symm.trans hsettles
      rcases List.mem_append.mp heffect with hleft | hclosed
      · exact .inl (.inl hleft)
      · unfold Connection.close at hclosed
        split at hclosed
        · rcases List.mem_append.mp hclosed with hdurable | hpending
          · exact .inl (.inr ⟨connId, conn, hconn, hdurable⟩)
          · have hno := (h.sound connId conn hconn).pending effect hpending
            rw [hactive] at hno
            exact .inr (hno.elim id id)
        · exact .inl (.inr ⟨connId, conn, hconn, hclosed⟩)

theorem Inv.closeAll (h : Inv log state)
    (hsettles : ∀ txId connId, state.owner txId = some connId →
      answers.fails .rollback connId = false ∨ answers.survives connId = false) :
    Keeps log .shutdown live (closeAll answers state) := by
  unfold Gbase8a.closeAll
  intro requests
  refine h.drops (quiet_of_isPlain rfl _ _) ?_ ?_ ?_ requests
  · intro connId conn hconn
    cases hconn
  · intro txId connId
    refine iff_of_false (fun howns => nomatch howns) ?_
    rintro ⟨-, conn, hconn⟩
    cases hconn
  · intro effect heffect
    rcases List.mem_append.mp heffect with hleft | hclosed
    · exact .inl (.inl hleft)
    · obtain ⟨⟨connId, conn'⟩, hentry, hclosed⟩ := List.mem_flatMap.mp hclosed
      obtain ⟨conn, hconn, hdurable, hpending, hrolled⟩ :=
        lookup_rollbackAll answers _ _ (AList.mem_lookup_iff.mpr hentry)
      unfold Connection.close at hclosed
      split at hclosed
      · next hsurvives =>
        rcases List.mem_append.mp hclosed with hold | hnew
        · exact .inl (.inr ⟨connId, conn, hconn, hdurable ▸ hold⟩)
        · rcases (h.sound connId conn hconn).pending effect (hpending hnew) with hno | hlive
          · exact .inr hno
          · cases hactive : conn.activeTxId with
            | none => exact .inr (hlive.trans hactive)
            | some txId =>
              -- the transaction's connection is rolled back before it is closed
              have howns := (h.active connId conn hconn txId).mp hactive
              obtain ⟨tx, hlookup, rfl⟩ := owner_eq_some.mp howns
              have hok := (hsettles txId tx.connId howns).resolve_right fun hlost => by
                rw [hlost] at hsurvives
                cases hsurvives
              have hmem : tx.connId ∈ state.transactions.entries.map (·.2.connId) :=
                List.mem_map.mpr ⟨⟨txId, tx⟩, AList.mem_lookup_iff.mp hlookup, rfl⟩
              dsimp only at hnew
              rw [hrolled hmem hok] at hnew
              exact absurd hnew List.not_mem_nil
      · exact .inl (.inr ⟨connId, conn, hconn, hdurable ▸ hclosed⟩)

end Handlers

/-- A request that settles keeps the invariant. -/
theorem Inv.step (h : Inv log state) {input : Input} (hsettles : Settles state input) :
    Inv (log ++ (step state input).2) (step state input).1 := by
  obtain ⟨request, answers⟩ := input
  unfold Gbase8a.step
  -- one lemma for each request; those that can leave a transaction half done use that the run settles
  cases request with
  | connOpen => exact h.handleConnOpen _
  | connClose connId =>
    have hkeeps := @Inv.handleConnClose log state answers h connId hsettles (state.requests + 1)
    have hlive : state.live connId = none := hsettles
    rw [← hlive] at hkeeps
    exact hkeeps
  | queryStart connId txId sql => exact h.handleStatement rfl connId txId _
  | execRun connId txId sql => exact h.handleStatement rfl connId txId _
  | execBatch connId statements stopOnError inTransaction =>
    exact h.handleExecBatch connId statements stopOnError inTransaction hsettles _
  | txBegin connId => exact h.handleTxBegin connId _
  | txCommit txId => exact h.handleTxCommit txId hsettles _
  | txRollback txId toSavepoint => exact h.handleTxRollback txId toSavepoint hsettles _
  | txSavepoint txId name => exact h.handleTxSavepoint txId name _
  | txRelease txId name => exact h.handleTxRelease txId name _
  | shutdown => exact h.closeAll hsettles _

/-- **Transactions are what their ids say**, in every run of requests that settle. -/
theorem transactions_sound {inputs : List Input}
    (hsettles : Guarded Gbase8a.step Settles State.initial inputs) :
    Transactional (run Gbase8a.step State.initial inputs).2
      (run Gbase8a.step State.initial inputs).1 := by
  have hinv : Inv (run Gbase8a.step State.initial inputs).2
      (run Gbase8a.step State.initial inputs).1 :=
    run_guarded (H := fun _ log state => Inv log state)
      (fun _ log state input h hinput => h.step hinput) Inv.initial hsettles
  exact hinv.transactional

end Runs

/-! ### Four runs -/

/-- A transaction is begun on a new connection, and a statement is executed in it. -/
def begun : List Input :=
  [{ request := .connOpen }, { request := .txBegin 1 },
    { request := .execRun 1 "gbase8a-tx-1" "DELETE FROM t" }]

/-- The transaction is rolled back. -/
def undoneRun : List Input := begun ++ [{ request := .txRollback "gbase8a-tx-1" "" }]

/-- A batch commits on its own. -/
def batchRun : List Input := begun ++ [{ request := .execBatch 1 ["DELETE FROM u"] true true }]

/-- The connection is closed. -/
def closeRun : List Input := begun ++ [{ request := .connClose 1 }]

/-- The transaction is committed, and the auto-commit flag is not restored. -/
def restoreRun : List Input :=
  begun ++ [{
    request := .txCommit "gbase8a-tx-1"
    answers := { fails := fun site _ => site = .restoreAutoCommit } }]

theorem transactions_sound_undone :
    Transactional (run step State.initial undoneRun).2 (run step State.initial undoneRun).1 := by
  refine transactions_sound ?_
  unfold undoneRun begun
  refine .cons trivial (.cons trivial (.cons trivial (.cons ?_ guarded_nil)))
  exact fun _ _ _ _ => rfl

/-- A batch of its own makes a transaction's work durable, a connection is closed without a rollback, and
a connection keeps the id of a transaction that is over. -/
theorem transactions_broken :
    ¬ Transactional (run step State.initial batchRun).2 (run step State.initial batchRun).1 ∧
    ¬ Transactional (run step State.initial closeRun).2 (run step State.initial closeRun).1 ∧
    ¬ Transactional (run step State.initial restoreRun).2 (run step State.initial restoreRun).1 := by
  refine ⟨fun h => ?_, fun h => ?_, fun h => ?_⟩
  -- a batch commits a transaction that is under way, and no commit of it is in the log
  · have hlookup : ((run step State.initial batchRun).1.connections.lookup 1).any
        (fun conn => decide (⟨2, 0, some "gbase8a-tx-1"⟩ ∈ conn.connection.durable)) = true := by
      decide +kernel
    have hlog : (run step State.initial batchRun).2.all
        (fun entry => decide (entry.request ≠ .txCommit "gbase8a-tx-1")) = true := by
      decide +kernel
    obtain ⟨conn, hconn, heffect⟩ := (Option.any_eq_true _ _).mp hlookup
    obtain ⟨entry, hentry, hrequest, -⟩ :=
      h.durable _ "gbase8a-tx-1" (.inr ⟨1, conn, hconn, of_decide_eq_true heffect⟩) rfl
    exact of_decide_eq_true (List.all_eq_true.mp hlog entry hentry) hrequest
  -- the connection is closed first, and its transaction is looked for afterwards without a rollback
  · have hlog : (run step State.initial closeRun).2.any (fun entry =>
        decide (entry.request = .connClose 1) && entry.live.isSome &&
          decide (entry.calls = [⟨1, .close, true⟩])) = true := by
      decide +kernel
    obtain ⟨entry, hentry, hlast⟩ := List.any_eq_true.mp hlog
    rw [Bool.and_eq_true, Bool.and_eq_true, decide_eq_true_eq, decide_eq_true_eq] at hlast
    obtain ⟨⟨hrequest, hlive⟩, hcalls⟩ := hlast
    obtain ⟨ok, hrolling⟩ := h.closed entry hentry 1 hrequest hlive
    rw [hcalls] at hrolling
    exact absurd hrolling List.not_mem_nil
  -- the table forgets the transaction, and the connection still has it
  · have hlookup : ((run step State.initial restoreRun).1.connections.lookup 1).any
        (fun conn => decide (conn.activeTxId = some "gbase8a-tx-1")) = true := by
      decide +kernel
    have howner : (run step State.initial restoreRun).1.owner "gbase8a-tx-1" = none := by
      decide +kernel
    obtain ⟨conn, hconn, hactive⟩ := (Option.any_eq_true _ _).mp hlookup
    have howns := (h.active 1 conn hconn "gbase8a-tx-1").mp (of_decide_eq_true hactive)
    rw [howner] at howns
    cases howns

end Gbase8a
end Navop
