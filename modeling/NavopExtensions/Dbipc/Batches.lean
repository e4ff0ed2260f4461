import NavopExtensions.Dbipc.Server

/-!
# Batches of the Go server

The statements of a batch are executed in their order, up to the first one that fails where the batch is to
stop there. A batch in a transaction is all or nothing: its transaction is committed exactly if all the
statements were executed and none failed, and rolled back otherwise (`batch_all_or_nothing`). The results
have one entry for every statement, executed or not.
-/

namespace Navop
namespace DbipcServer

variable {ρ : Type*}

/-- How many rows a statement of a batch has affected, if it succeeds. -/
def affectedBy (answers : Answers ρ) (connID : ℕ) (inTransaction : Bool) (place : ℕ) : Option ℕ :=
  rowsAffected (answers.outcome (.statement connID inTransaction place))

/-- What the statements of a batch come to, from a place on: the first `k` of them are executed. -/
structure Ran (affected : ℕ → Option ℕ) (stopOnError : Bool) (place n k : ℕ) (results errors : List ℕ) :
    Prop where
  le : k ≤ n
  length : results.length = n
  result : ∀ offset, offset < n → results[offset]?
    = some (if offset < k then (affected (place + offset)).getD 0 else 0)
  failed : errors = (List.range' place k).filter fun place => (affected place).isNone
  all : stopOnError = false → k = n
  before : stopOnError = true → ∀ offset, offset + 1 < k → (affected (place + offset)).isSome = true
  last : k < n → ∃ offset, k = offset + 1 ∧ affected (place + offset) = none

section Ran

variable {affected : ℕ → Option ℕ} {stopOnError : Bool} {place n k : ℕ} {results errors : List ℕ}

theorem ran_nil : Ran affected stopOnError place 0 0 [] [] :=
  ⟨Nat.le_refl 0, rfl, nofun, rfl, fun _ => rfl, nofun, nofun⟩

/-- A statement is executed, and the others after it. -/
theorem Ran.cons (h : Ran affected stopOnError (place + 1) n k results errors)
    (hgo : stopOnError = true → (affected place).isSome = true) :
    Ran affected stopOnError place (n + 1) (k + 1) ((affected place).getD 0 :: results)
      (if (affected place).isNone then place :: errors else errors) where
  le := Nat.succ_le_succ h.le
  length := by rw [List.length_cons, h.length]
  result offset hoffset := by
    cases offset with
    | zero => simp
    | succ offset =>
      rw [List.getElem?_cons_succ, h.result offset (Nat.lt_of_succ_lt_succ hoffset), Nat.add_right_comm,
        Nat.add_assoc]
      simp
  failed := by
    rw [List.range'_succ, List.filter_cons, h.failed]
  all hstop := by rw [h.all hstop]
  -- the batch goes on behind a failed statement only if it is told to
  before hstop offset hoffset := by
    cases offset with
    | zero => exact hgo hstop
    | succ offset =>
      have hnext := h.before hstop offset (Nat.lt_of_succ_lt_succ hoffset)
      rwa [Nat.add_right_comm, Nat.add_assoc] at hnext
  last hk := by
    obtain ⟨offset, rfl, hnone⟩ := h.last (Nat.lt_of_succ_lt_succ hk)
    rw [Nat.add_right_comm, Nat.add_assoc] at hnone
    exact ⟨offset + 1, rfl, hnone⟩

/-- A statement fails, and the others are not executed. -/
theorem ran_stopped (hnone : affected place = none) :
    Ran affected true place (n + 1) 1 (0 :: List.replicate n 0) [place] where
  le := Nat.succ_le_succ (Nat.zero_le n)
  length := by simp
  result offset hoffset := by
    cases offset with
    | zero => simp [hnone]
    | succ offset => simp [Nat.lt_of_succ_lt_succ hoffset]
  failed := by simp [hnone]
  all h := absurd h Bool.noConfusion
  before _ offset hoffset := absurd hoffset (by omega)
  last _ := ⟨0, rfl, hnone⟩

/-- No error means that every statement is executed and succeeds. -/
theorem Ran.errors_eq_nil_iff (h : Ran affected stopOnError place n k results errors) :
    errors = [] ↔ k = n ∧ ∀ offset < n, (affected (place + offset)).isSome = true := by
  rw [h.failed, List.filter_eq_nil_iff]
  constructor
  · intro hnone
    have hall : ∀ offset < k, (affected (place + offset)).isSome = true := fun offset hoffset => by
      have hsome := hnone (place + offset) (List.mem_range'_1.2 ⟨Nat.le_add_right _ _, by omega⟩)
      rwa [Bool.not_eq_true, Option.isNone_eq_false_iff] at hsome
    rcases Nat.lt_or_eq_of_le h.le with hk | rfl
    · obtain ⟨offset, rfl, hfails⟩ := h.last hk
      have hsome := hall offset (Nat.lt_succ_self offset)
      rw [hfails] at hsome
      cases hsome
    · exact ⟨rfl, hall⟩
  · rintro ⟨rfl, hall⟩ other hother
    obtain ⟨hle, hlt⟩ := List.mem_range'_1.1 hother
    have hsome := hall (other - place) (by omega)
    rw [Nat.add_sub_cancel' hle] at hsome
    rwa [Bool.not_eq_true, Option.isNone_eq_false_iff]

end Ran

theorem ran_runStatements (answers : Answers ρ) (connID : ℕ) (stopOnError inTransaction : Bool)
    (place : ℕ) (statements : List String) :
    ∃ k, (runStatements answers connID stopOnError inTransaction place statements).1
          = (List.range' place k).map (Call.statement connID inTransaction) ∧
      Ran (affectedBy answers connID inTransaction) stopOnError place statements.length k
        (runStatements answers connID stopOnError inTransaction place statements).2.1
        (runStatements answers connID stopOnError inTransaction place statements).2.2 := by
  induction statements generalizing place with
  | nil => exact ⟨0, rfl, ran_nil⟩
  | cons statement statements ih =>
    obtain ⟨k, hcalls, hran⟩ := ih (place + 1)
    rw [runStatements]
    cases hresult : rowsAffected (answers.outcome (.statement connID inTransaction place)) with
    -- the statement succeeds, and the batch goes on
    | some affected =>
      have hsome : affectedBy answers connID inTransaction place = some affected := hresult
      have hcons := hran.cons fun _ => by rw [hsome]; rfl
      rw [hsome] at hcons
      exact ⟨k + 1, by rw [List.range'_succ, List.map_cons, ← hcalls], hcons⟩
    | none =>
      have hnone : affectedBy answers connID inTransaction place = none := hresult
      cases stopOnError with
      -- it fails and stops the batch: the rest is answered with zeros
      | true =>
        refine ⟨1, rfl, ?_⟩
        have hzeros : (statements.map fun _ => 0) = List.replicate statements.length 0 :=
          List.map_const'
        dsimp only [if_true]
        rw [if_pos rfl, hzeros]
        exact ran_stopped hnone
      -- it fails, is noted, and the batch goes on
      | false =>
        have hcons := hran.cons nofun
        rw [hnone] at hcons
        exact ⟨k + 1, by rw [List.range'_succ, List.map_cons, ← hcalls]; rfl, hcons⟩

/-- What a batch in a transaction comes to: `k` of its statements are executed, in their order, and the
transaction is committed exactly if these are all of them and none fails. The server stays as it is. -/
def AllOrNothing (answers : Answers ρ) (s : State ρ) (connID : ℕ) (statements : List String)
    (stopOnError : Bool) (handled : Handled ρ) : Prop :=
  ∃ k results errors finish,
    handled = ⟨s, .begin connID :: (List.range k).map (Call.statement connID true) ++ [finish],
      if answers.fails finish then .failed .sqlSyntax else .batch results errors⟩ ∧
    Ran (affectedBy answers connID true) stopOnError 0 statements.length k results errors ∧
    (finish = .commitBatch connID ↔ k = statements.length ∧
      ∀ place < statements.length, (affectedBy answers connID true place).isSome = true) ∧
    (finish = .commitBatch connID ∨ finish = .rollbackBatch connID)

/-- **A batch in a transaction is all or nothing.** -/
theorem batch_all_or_nothing (spec : String) (marshals : ρ → Bool) (quote : String → String)
    (isPrint : Char → Bool)
    (answers : Answers ρ) (s : State ρ) (connID : ℕ) (statements : List String) (stopOnError : Bool)
    (hinitialized : s.initialized = true) (hconn : connID ∈ s.conns)
    (hbegin : answers.fails (.begin connID) = false) :
    AllOrNothing answers s connID statements stopOnError
      (handle spec marshals quote isPrint answers s (.execBatch connID statements stopOnError true)) := by
  obtain ⟨k, hcalls, hran⟩ := ran_runStatements answers connID stopOnError true 0 statements
  refine ⟨k, _, _, if (runStatements answers connID stopOnError true 0 statements).2.2 = []
    then .commitBatch connID else .rollbackBatch connID, ?_, hran, ?_, ?_⟩
  · simp only [handle, Request.needsInit, hinitialized, Bool.not_true, Bool.and_false, Bool.false_eq_true,
      if_false, handleExecBatch, if_pos hconn, if_true, hbegin]
    rw [hcalls, List.range_eq_range']
  -- the last call is a commit exactly if no statement has failed
  · have hiff := hran.errors_eq_nil_iff
    simp only [Nat.zero_add] at hiff
    rw [← hiff]
    split
    · next h => exact iff_of_true rfl h
    · next h => exact iff_of_false nofun h
  · split
    · exact .inl rfl
    · exact .inr rfl

/-- A server with a connection. -/
def opened : State Unit := { newServer Unit with initialized := true, nextConnID := 2, conns := {1} }

/-- The second statement of a batch fails. -/
def secondFails : Answers Unit :=
  ⟨fun _ => false, fun call => if call = .statement 1 true 1 then .failed else .done (some 1),
    ⟨[], none⟩, ([], 0), .sorted String, .sorted ℕ⟩

theorem batch_all_or_nothing_opened :
    AllOrNothing secondFails opened 1 ["UPDATE a", "UPDATE b", "UPDATE c"] true
      (handle "d" (fun _ => true) id (fun _ => true) secondFails opened
        (.execBatch 1 ["UPDATE a", "UPDATE b", "UPDATE c"] true true)) :=
  batch_all_or_nothing "d" (fun _ => true) id (fun _ => true) secondFails opened 1 _ true rfl
    (Finset.mem_singleton_self 1)
    rfl

end DbipcServer
end Navop
