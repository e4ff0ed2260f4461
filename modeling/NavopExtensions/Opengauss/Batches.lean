import NavopExtensions.Opengauss.Transactions

/-!
# Batches of openGauss statements

`exec/batch` sends its statements one after another until one fails, whatever its flags say: neither
`in_transaction` nor `stop_on_error` is looked at.
-/

namespace Navop
namespace Opengauss

/-- A statement of a batch: its number, its text, and whether the server refuses it. -/
structure BatchStatement where
  effect : Effect
  sql : String
  fails : Bool

/-- `ExecBatchParams`. -/
structure ExecBatchParams where
  statements : List BatchStatement
  inTransaction : Bool
  stopOnError : Bool

/-- `ExecBatchResult`: the number of results, and the indices of the statements that failed. -/
structure ExecBatchResult where
  results : ℕ
  errors : List ℕ
  deriving DecidableEq

/-- What a batch has sent, with the outcomes. -/
abbrev Sent := List (BatchStatement × Bool)

/-- `OpenGaussSession::execute_batch`: the first error ends it. -/
def executeBatch (session : Session) : List BatchStatement → Session × Sent × Option ℕ
  | [] => (session, [], some 0)
  | statement :: statements =>
    let (next, ok) := session.statement statement.effect statement.fails
    if ok then
      let (last, sent, count) := executeBatch next statements
      (last, (statement, true) :: sent, count.map (· + 1))
    else (next, [(statement, false)], none)

/-- `handle_exec_batch`: the session after it, what was sent, and the answer. -/
def handleExecBatch (session : Session) (p : ExecBatchParams) :
    Session × Sent × Option ExecBatchResult :=
  let (last, sent, count) := executeBatch session p.statements
  (last, sent, count.map fun results => ⟨results, []⟩)

/-- Everything that a session has done, committed or not. -/
def Session.effects (session : Session) : List Effect := session.durable ++ session.pending

/-- A batch does what its flags say: in a transaction of its own it has all of its effects or none; and
if it does not stop at errors, every statement is sent once, and the answer has the indices of those
that failed. -/
structure BatchRight (session : Session) (p : ExecBatchParams) : Prop where
  atomic : p.inTransaction = true → session.block = none →
    (handleExecBatch session p).1.effects = session.effects ∨
      (handleExecBatch session p).1.effects
        = session.effects ++ p.statements.map BatchStatement.effect
  complete : p.stopOnError = false →
    (handleExecBatch session p).2.1.map Prod.fst = p.statements ∧
      ∃ result, (handleExecBatch session p).2.2 = some result ∧
        result.errors = (handleExecBatch session p).2.1.findIdxs fun sent => !sent.2

/-- No statement is refused, and the transaction block, if there is one, is not aborted. -/
def Accepted (session : Session) (statements : List BatchStatement) : Prop :=
  ∀ statement ∈ statements, statement.fails = false ∧
    ∀ block, session.block = some block → block.aborted = false

variable {session : Session} {statements : List BatchStatement} {p : ExecBatchParams}

/-- A statement that is accepted leaves a session that accepts the rest. -/
theorem statement_accepted {statement : BatchStatement}
    (h : Accepted session (statement :: statements)) :
    (session.statement statement.effect statement.fails).2 = true ∧
      (session.statement statement.effect statement.fails).1.effects
        = session.effects ++ [statement.effect] ∧
      Accepted (session.statement statement.effect statement.fails).1 statements := by
  obtain ⟨hfails, haborted⟩ := h statement List.mem_cons_self
  have hrest := fun other hother => h other (List.mem_cons_of_mem _ hother)
  obtain ⟨durable, block⟩ := session
  cases block with
  | none =>
    simp only [Session.statement, hfails, Bool.false_eq_true, if_false, Session.effects,
      Session.pending, List.append_nil, true_and]
    exact fun other hother => ⟨(hrest other hother).1, fun block hblock => absurd hblock (by simp)⟩
  | some block =>
    have hopen : block.aborted = false := haborted block rfl
    simp only [Session.statement, hfails, hopen, Bool.or_self, Bool.false_eq_true, if_false,
      Session.effects, Session.pending, List.append_assoc, true_and]
    intro other hother
    refine ⟨(hrest other hother).1, fun block' hblock => ?_⟩
    exact Option.some.inj hblock ▸ rfl

/-- A batch that is accepted is executed to its end. -/
theorem executeBatch_accepted (h : Accepted session statements) :
    (executeBatch session statements).1.effects
        = session.effects ++ statements.map BatchStatement.effect ∧
      (executeBatch session statements).2.1 = statements.map (fun statement => (statement, true)) ∧
      (executeBatch session statements).2.2 = some statements.length := by
  induction statements generalizing session with
  | nil => exact ⟨(List.append_nil _).symm, rfl, rfl⟩
  | cons statement statements ih =>
    obtain ⟨hok, heffects, hrest⟩ := statement_accepted h
    obtain ⟨hlast, hsent, hcount⟩ := ih hrest
    simp only [executeBatch, hok, if_true, hsent, hcount, Option.map_some, List.map_cons,
      List.length_cons, and_true]
    rw [hlast, heffects, List.append_assoc]
    rfl

/-- A batch that is not accepted ends at the first statement that fails. -/
theorem executeBatch_refused (h : ¬ Accepted session statements) :
    (executeBatch session statements).2.2 = none := by
  induction statements generalizing session with
  | nil => exact absurd (fun statement hmem => absurd hmem List.not_mem_nil) h
  | cons statement statements ih =>
    rw [executeBatch]
    cases hok : (session.statement statement.effect statement.fails).2 with
    | false => simp [hok]
    | true =>
      simp only [hok, if_true, Option.map_eq_none_iff]
      refine ih fun hrest => h fun other hother => ?_
      obtain ⟨durable, block⟩ := session
      -- the first statement went through, so that what is refused comes later
      have hfirst : statement.fails = false ∧
          ∀ other, block = some other → other.aborted = false := by
        cases block with
        | none =>
          refine ⟨?_, fun other hother => absurd hother (by simp)⟩
          cases hfails : statement.fails with
          | false => rfl
          | true => exact absurd hok (by simp [Session.statement, hfails])
        | some block =>
          cases hfails : statement.fails with
          | true => exact absurd hok (by simp [Session.statement, hfails])
          | false =>
            refine ⟨rfl, fun other hother => ?_⟩
            obtain rfl := Option.some.inj hother
            cases haborted : block.aborted with
            | false => rfl
            | true => exact absurd hok (by simp [Session.statement, hfails, haborted])
      obtain rfl | hother := List.mem_cons.1 hother
      · exact hfirst
      · exact ⟨(hrest other hother).1, hfirst.2⟩

/-- Outside of a transaction, the statements before the first one that is refused have their
effects. -/
theorem effects_executeBatch (hblock : session.block = none) :
    (executeBatch session statements).1.effects = session.effects
      ++ (statements.takeWhile fun statement => !statement.fails).map BatchStatement.effect := by
  induction statements generalizing session with
  | nil => exact (List.append_nil _).symm
  | cons statement statements ih =>
    obtain ⟨durable, block⟩ := session
    obtain rfl : block = none := hblock
    rw [executeBatch]
    cases hfails : statement.fails with
    | true =>
      simp [Session.statement, hfails]
    | false =>
      simp only [Session.statement, Bool.false_eq_true, if_false, if_true]
      rw [ih rfl]
      simp [hfails, Session.effects, Session.pending]

/-- **A batch does what its flags say** exactly when no statement is refused; if it only has to be
atomic, then also when the first one is. -/
theorem batchRight_iff : BatchRight session p ↔
    (p.inTransaction = true → session.block = none →
      (∀ statement ∈ p.statements, statement.fails = false) ∨
        ∃ statement, p.statements.head? = some statement ∧ statement.fails = true) ∧
    (p.stopOnError = false → Accepted session p.statements) := by
  -- in a session without a block the statements in front of the first failure stay
  have hatomic : session.block = none →
      (((handleExecBatch session p).1.effects = session.effects ∨
        (handleExecBatch session p).1.effects
          = session.effects ++ p.statements.map BatchStatement.effect) ↔
      ((∀ statement ∈ p.statements, statement.fails = false) ∨
        ∃ statement, p.statements.head? = some statement ∧ statement.fails = true)) := by
    intro hblock
    change (((executeBatch session p.statements).1.effects = _) ∨
      (executeBatch session p.statements).1.effects = _) ↔ _
    rw [effects_executeBatch hblock, List.append_right_inj, List.append_right_eq_self]
    rw [List.map_eq_nil_iff]
    have hall : (p.statements.takeWhile fun statement => !statement.fails).map BatchStatement.effect
          = p.statements.map BatchStatement.effect ↔
        ∀ statement ∈ p.statements, statement.fails = false := by
      constructor
      · intro heq
        have hlength := congrArg List.length heq
        rw [List.length_map, List.length_map] at hlength
        have hself := (List.takeWhile_prefix _).eq_of_length hlength
        intro statement hmem
        simpa using List.takeWhile_eq_self_iff.1 hself statement hmem
      · intro hfine
        rw [List.takeWhile_eq_self_iff.2 fun statement hmem => by simp [hfine statement hmem]]
    rw [hall]
    cases hstatements : p.statements with
    | nil => simp
    | cons statement statements =>
      cases hfails : statement.fails with
      | true => simp [hfails]
      | false => simp [hfails]
  -- a refusal is an error of the whole batch, without a result
  have hcomplete : ((handleExecBatch session p).2.1.map Prod.fst = p.statements ∧
      ∃ result, (handleExecBatch session p).2.2 = some result ∧
        result.errors = (handleExecBatch session p).2.1.findIdxs fun sent => !sent.2) ↔
      Accepted session p.statements := by
    constructor
    · rintro ⟨-, result, hresult, -⟩
      by_contra hrefused
      rw [handleExecBatch] at hresult
      simp only [executeBatch_refused hrefused, Option.map_none] at hresult
      exact absurd hresult (by simp)
    · intro haccepted
      obtain ⟨-, hsent, hcount⟩ := executeBatch_accepted haccepted
      simp only [handleExecBatch, hsent, hcount, Option.map_some, List.map_map]
      refine ⟨List.map_id'' (fun _ => rfl) _, _, rfl, ?_⟩
      exact (List.findIdxs_eq_nil_iff.2 (by simp)).symm
  constructor
  · rintro ⟨hright, hsent⟩
    exact ⟨fun hin hblock => (hatomic hblock).1 (hright hin hblock),
      fun hstop => hcomplete.1 (hsent hstop)⟩
  · rintro ⟨hfine, haccepted⟩
    exact ⟨fun hin hblock => (hatomic hblock).2 (hfine hin hblock),
      fun hstop => hcomplete.2 (haccepted hstop)⟩

end Opengauss
end Navop
