import Mathlib

/-!
# Machines that read inputs and emit outputs

A transition function `σ → ι → σ × List ο` reads one input at a time and emits any number of
outputs. `run` iterates it over a list of inputs and concatenates what was emitted. The rules
below are the only way the developments on top of it induct over a run:

* `run_inv`: a state predicate that every admissible input preserves holds after the run;
* `run_history`: a relation between the inputs read so far, the outputs emitted so far and the
  state, preserved by appending one step, holds of the whole run;
* `run_guarded`: the same, for inputs that satisfy a condition on the state that they meet;
* `run_sim`: two machines in lockstep.

A machine that is fed for as long as it asks for input is `feed`; `feed_reaches` is the rule for
its termination, by a rank that every step decreases.
-/

namespace Machine

variable {σ τ ι ο ο' : Type*}

/-- Iterate a transition function over a list of inputs, concatenating the outputs. -/
def run (step : σ → ι → σ × List ο) (s : σ) : List ι → σ × List ο
  | [] => (s, [])
  | i :: is =>
    let next := step s i
    let rest := run step next.1 is
    (rest.1, next.2 ++ rest.2)

variable {step : σ → ι → σ × List ο}

@[simp] theorem run_nil (s : σ) : run step s [] = (s, []) := rfl

theorem run_cons (s : σ) (i : ι) (is : List ι) :
    run step s (i :: is)
      = ((run step (step s i).1 is).1, (step s i).2 ++ (run step (step s i).1 is).2) := rfl

theorem run_append (s : σ) (is js : List ι) :
    run step s (is ++ js)
      = ((run step (run step s is).1 js).1,
          (run step s is).2 ++ (run step (run step s is).1 js).2) := by
  induction is generalizing s with
  | nil => simp
  | cons i is ih => simp [run_cons, ih, List.append_assoc]

theorem run_concat (s : σ) (is : List ι) (i : ι) :
    run step s (is ++ [i])
      = ((step (run step s is).1 i).1, (run step s is).2 ++ (step (run step s is).1 i).2) := by
  rw [run_append]
  simp [run_cons]

/-- **Invariant rule.** A state predicate preserved by every input satisfying `P` holds after
every run over such inputs. -/
theorem run_inv {I : σ → Prop} {P : ι → Prop}
    (hstep : ∀ s i, I s → P i → I (step s i).1)
    {s : σ} (hs : I s) {is : List ι} (his : ∀ i ∈ is, P i) : I (run step s is).1 := by
  induction is generalizing s with
  | nil => exact hs
  | cons i is ih =>
    rw [run_cons]
    exact ih (hstep s i hs (his i List.mem_cons_self))
      fun j hj => his j (List.mem_cons_of_mem _ hj)

/-- **History rule.** A relation between the inputs read, the outputs emitted and the state
reached, preserved by appending one step, holds of every run. The step may use `P`, a property of
the input list up to and including the input being read. -/
theorem run_history {H : List ι → List ο → σ → Prop} {P : List ι → Prop}
    (hpre : ∀ is i, P (is ++ [i]) → P is)
    (hstep : ∀ is os s i, H is os s → P (is ++ [i]) →
      H (is ++ [i]) (os ++ (step s i).2) (step s i).1)
    {s : σ} (hs : H [] [] s) {is : List ι} (his : P is) :
    H is (run step s is).2 (run step s is).1 := by
  induction is using List.reverseRecOn with
  | nil => exact hs
  | append_singleton is i ih =>
    rw [run_concat]
    exact hstep is _ _ i (ih (hpre is i his)) his

/-- Every input satisfies `G` in the state that it meets. -/
def Guarded (step : σ → ι → σ × List ο) (G : σ → ι → Prop) (s : σ) (is : List ι) : Prop :=
  ∀ before i after, is = before ++ i :: after → G (run step s before).1 i

theorem Guarded.before {G : σ → ι → Prop} {s : σ} {is : List ι} {i : ι}
    (h : Guarded step G s (is ++ [i])) : Guarded step G s is := by
  intro before j after his
  exact h before j (after ++ [i]) (by simp [his])

theorem guarded_nil {G : σ → ι → Prop} {s : σ} : Guarded step G s [] := by
  intro before i after h
  exact absurd h (by simp)

theorem Guarded.cons {G : σ → ι → Prop} {s : σ} {is : List ι} {i : ι} (hi : G s i)
    (his : Guarded step G (step s i).1 is) : Guarded step G s (i :: is) := by
  intro before j after h
  cases before with
  | nil =>
    obtain ⟨rfl, -⟩ := List.cons.inj h
    exact hi
  | cons k before =>
    obtain ⟨rfl, hrest⟩ := List.cons.inj h
    exact his before j after hrest

theorem guarded_concat {G : σ → ι → Prop} {s : σ} {is : List ι} {i : ι} :
    Guarded step G s (is ++ [i]) ↔ Guarded step G s is ∧ G (run step s is).1 i := by
  constructor
  · exact fun h => ⟨h.before, h is i [] rfl⟩
  · rintro ⟨his, hi⟩ before j after heq
    rcases List.eq_nil_or_concat' after with rfl | ⟨after, last, rfl⟩
    · obtain ⟨rfl, hlast⟩ := List.append_inj' heq rfl
      obtain ⟨rfl, -⟩ := List.cons.inj hlast
      exact hi
    · have hinit : is = before ++ j :: after := by
        rw [← List.cons_append, ← List.append_assoc] at heq
        exact (List.append_inj' heq rfl).1
      exact his before j after hinit

theorem guarded_of_forall {G : σ → ι → Prop} {s : σ} {is : List ι} (h : ∀ s, ∀ i ∈ is, G s i) :
    Guarded step G s is := by
  intro before i after his
  exact h _ i (his ▸ List.mem_append_right _ List.mem_cons_self)

theorem Guarded.append {G : σ → ι → Prop} {s : σ} {is js : List ι} (his : Guarded step G s is)
    (hjs : Guarded step G (run step s is).1 js) : Guarded step G s (is ++ js) := by
  induction js using List.reverseRecOn with
  | nil => rwa [List.append_nil]
  | append_singleton js j ih =>
    rw [guarded_concat] at hjs
    rw [← List.append_assoc, guarded_concat, run_append]
    exact ⟨ih hjs.1, hjs.2⟩

/-- **Guard rule.** A relation between the inputs read, the outputs emitted and the state reached,
preserved by every step whose input satisfies `G` in the state before it, holds of every run of such
steps. -/
theorem run_guarded {H : List ι → List ο → σ → Prop} {G : σ → ι → Prop}
    (hstep : ∀ is os s i, H is os s → G s i → H (is ++ [i]) (os ++ (step s i).2) (step s i).1)
    {s : σ} (hs : H [] [] s) {is : List ι} (his : Guarded step G s is) :
    H is (run step s is).2 (run step s is).1 := by
  induction is using List.reverseRecOn with
  | nil => exact hs
  | append_singleton is i ih =>
    rw [run_concat]
    exact hstep is _ _ i (ih his.before) (his is i [] rfl)

/-- **Lockstep rule.** Two machines reading the same inputs stay related when every step keeps
their states and the outputs emitted so far related. -/
theorem run_sim {step' : τ → ι → τ × List ο'} {R : σ → List ο → τ → List ο' → Prop}
    {P : ι → Prop}
    (hstep : ∀ s os t os' i, R s os t os' → P i →
      R (step s i).1 (os ++ (step s i).2) (step' t i).1 (os' ++ (step' t i).2))
    {s : σ} {t : τ} (hst : R s [] t []) {is : List ι} (his : ∀ i ∈ is, P i) :
    R (run step s is).1 (run step s is).2 (run step' t is).1 (run step' t is).2 := by
  induction is using List.reverseRecOn with
  | nil => exact hst
  | append_singleton is i ih =>
    rw [run_concat, run_concat]
    exact hstep _ _ _ _ i (ih fun j hj => his j (List.mem_append_left _ hj))
      (his i (List.mem_append_right _ List.mem_cons_self))

/-! ### Feeding a machine until it is done -/

/-- The state after `n` inputs of an infinite supply. -/
def feed (step : σ → ι → σ) (inputs : ℕ → ι) (s : σ) : ℕ → σ
  | 0 => s
  | n + 1 => step (feed step inputs s n) (inputs n)

/-- **Progress rule.** When every state of some rank is done or steps to a state of a smaller rank,
a machine that starts with a rank is done after finitely many steps, and keeps having one on the
way. -/
theorem feed_reaches {step : σ → ι → σ} {R : ℕ → σ → Prop} {D : σ → Prop}
    (hstep : ∀ n s i, R n s → D s ∨ ∃ m < n, R m (step s i))
    {n : ℕ} {s : σ} (hs : R n s) (inputs : ℕ → ι) :
    ∃ k, D (feed step inputs s k) ∧ ∀ j ≤ k, (∃ m, R m (feed step inputs s j)) ∧
      (j < k → ¬ D (feed step inputs s j)) := by
  classical
  -- while the machine is not done, its rank falls by one at least in every step
  have hfalls : ∀ j, (∀ i < j, ¬ D (feed step inputs s i)) →
      ∃ m, m + j ≤ n ∧ R m (feed step inputs s j) := by
    intro j
    induction j with
    | zero => exact fun _ => ⟨n, le_rfl, hs⟩
    | succ j ih =>
      intro hnot
      obtain ⟨m, hm, hrank⟩ := ih fun i hi => hnot i (Nat.lt_succ_of_lt hi)
      obtain ⟨m', hlt, hrank'⟩ := (hstep m _ (inputs j) hrank).resolve_left
        (hnot j (Nat.lt_succ_self j))
      exact ⟨m', by omega, hrank'⟩
  have hdone : ∃ k, D (feed step inputs s k) := by
    by_contra hnever
    obtain ⟨m, hm, -⟩ := hfalls (n + 1) fun i _ hi => hnever ⟨i, hi⟩
    omega
  refine ⟨Nat.find hdone, Nat.find_spec hdone, fun j hj => ⟨?_, Nat.find_min hdone⟩⟩
  obtain ⟨m, -, hrank⟩ := hfalls j fun i hi => Nat.find_min hdone (lt_of_lt_of_le hi hj)
  exact ⟨m, hrank⟩

end Machine
