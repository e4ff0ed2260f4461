import Mathlib

/-!
# Steps that may fail, and loops that may not end

Fallible code in `Except`, read backwards: what the success of a computation says about its parts.
A `do` block that succeeded is taken apart with `bind_eq_ok`, a check with `ensure_eq_ok`, and a
check of every element of a list with `forM_eq_ok`.

Forwards, a step panics where it subtracts too much, divides by zero or reaches beyond a list, and a loop
is given some fuel and fails when it runs out of it. A computation `Settles` at a value if it returns the
value with all fuel from some amount on: it does not panic, and its loops end. Computations that settle
are put together by `Settles.bind`, `Settles.mapM` and `Settles.foldlM`. A loop settles if every step from
a state that keeps an invariant does, and decreases a rank where the loop goes on (`settles_run`).
-/

namespace Checks

variable {ε α β : Type}

/-- Fail with `e` unless `p` holds. -/
def ensure (p : Prop) [Decidable p] (e : ε) : Except ε Unit := if p then .ok () else .error e

@[simp] theorem ensure_eq_ok {p : Prop} [Decidable p] {e : ε} {u : Unit} :
    ensure p e = .ok u ↔ p := by
  unfold ensure
  split <;> simp [*]

theorem ensure_bind {p : Prop} [Decidable p] {e : ε} {f : Unit → Except ε β} :
    (ensure p e >>= f) = if p then f () else .error e := by
  unfold ensure
  split <;> rfl

theorem ok_bind (a : α) (f : α → Except ε β) : ((.ok a : Except ε α) >>= f) = f a := rfl

/-- A sequence succeeds when its parts do. -/
theorem bind_eq_ok {x : Except ε α} {f : α → Except ε β} {b : β} :
    (x >>= f) = .ok b ↔ ∃ a, x = .ok a ∧ f a = .ok b := by
  cases x <;> simp [bind, Except.bind]

/-- A check of every element succeeds when each check does. -/
theorem forM_eq_ok {f : α → Except ε Unit} {xs : List α} {u : Unit} :
    xs.forM f = .ok u ↔ ∀ x ∈ xs, f x = .ok () := by
  induction xs with
  | nil => simp [List.forM, pure, Except.pure]
  | cons x xs ih =>
    change (f x >>= fun _ => xs.forM f) = _ ↔ _
    rw [bind_eq_ok, List.forall_mem_cons, ih]
    constructor
    · rintro ⟨_, hx, hxs⟩
      exact ⟨hx, hxs⟩
    · rintro ⟨hx, hxs⟩
      exact ⟨(), hx, hxs⟩

end Checks

namespace Loop

variable {σ α β : Type}

/-- What keeps a program from returning. -/
inductive Fault
  | panicked
  | unfinished
  deriving DecidableEq

/-- A computation that may fail. -/
abbrev Checked (α : Type) := Except Fault α

/-- A difference. -/
def sub (a b : ℕ) : Checked ℕ := if b ≤ a then pure (a - b) else throw .panicked

/-- A quotient. -/
def div (a b : ℕ) : Checked ℕ := if b = 0 then throw .panicked else pure (a / b)

/-- What a list has from a place on. -/
def sliceFrom (xs : List α) (start : ℕ) : Checked (List α) :=
  if start ≤ xs.length then pure (xs.drop start) else throw .panicked

/-- A loop: its body goes on with a new state, or returns. -/
def run (body : σ → Checked (σ ⊕ α)) : ℕ → σ → Checked α
  | 0, _ => throw .unfinished
  | fuel + 1, s => do
    match ← body s with
    | .inl s => run body fuel s
    | .inr a => pure a

/-- A computation returns a value, from some fuel on. -/
def Settles (f : ℕ → Checked α) (a : α) : Prop := ∀ᶠ fuel in Filter.atTop, f fuel = .ok a

theorem sub_eq {a b : ℕ} (h : b ≤ a) : sub a b = .ok (a - b) := if_pos h

theorem div_eq {a b : ℕ} (h : b ≠ 0) : div a b = .ok (a / b) := if_neg h

theorem sliceFrom_eq {xs : List α} {start : ℕ} (h : start ≤ xs.length) :
    sliceFrom xs start = .ok (xs.drop start) := if_pos h

/-! ### Putting computations together -/

theorem Settles.of_eq {x : Checked α} {a : α} (h : x = .ok a) : Settles (fun _ => x) a :=
  Filter.Eventually.of_forall fun _ => h

theorem Settles.bind {f : ℕ → Checked α} {g : ℕ → α → Checked β} {a : α} {b : β}
    (hf : Settles f a) (hg : Settles (g · a) b) : Settles (fun fuel => f fuel >>= g fuel) b := by
  filter_upwards [hf, hg] with fuel hf hg
  rw [hf]
  exact hg

theorem Settles.map {f : ℕ → Checked α} {a : α} (hf : Settles f a) (g : α → β) :
    Settles (fun fuel => g <$> f fuel) (g a) := by
  filter_upwards [hf] with fuel hf
  rw [hf]
  rfl

theorem Settles.mapM {f : ℕ → α → Checked β} {g : α → β} {l : List α}
    (h : ∀ a ∈ l, Settles (f · a) (g a)) : Settles (fun fuel => l.mapM (f fuel)) (l.map g) := by
  induction l with
  | nil => exact .of_eq rfl
  | cons a l ih =>
    have hrest := ih fun b hb => h b (List.mem_cons_of_mem a hb)
    filter_upwards [h a List.mem_cons_self, hrest] with fuel ha hrest
    rw [List.mapM_cons, ha, hrest]
    rfl

theorem Settles.foldlM {f : ℕ → σ → α → Checked σ} {g : σ → α → σ} {xs : List α}
    (h : ∀ s, ∀ a ∈ xs, Settles (f · s a) (g s a)) (s : σ) :
    Settles (fun fuel => xs.foldlM (f fuel) s) (xs.foldl g s) := by
  induction xs generalizing s with
  | nil => exact .of_eq rfl
  | cons a xs ih =>
    have hrest := ih (fun s b hb => h s b (List.mem_cons_of_mem a hb)) (g s a)
    filter_upwards [h s a List.mem_cons_self, hrest] with fuel ha hrest
    rw [List.foldlM_cons, ha]
    exact hrest

/-! ### Loops -/

/-- **Loop rule.** From every state that keeps the invariant, a step settles, and either it returns the
value of the state, or it goes on with a state of the same value that keeps the invariant and has a lower
rank. -/
theorem settles_run {f : ℕ → σ → Checked (σ ⊕ α)} {I : σ → Prop} (rank : σ → ℕ) (value : σ → α)
    (hstep : ∀ s, I s → Settles (f · s) (.inr (value s)) ∨
      ∃ s', Settles (f · s) (.inl s') ∧ I s' ∧ rank s' < rank s ∧ value s' = value s)
    {s : σ} (hs : I s) : Settles (fun fuel => run (f fuel) fuel s) (value s) := by
  -- The steps need their own fuel, whatever that of the loop is.
  have hloop : ∀ n, ∀ s, I s → rank s < n →
      ∀ᶠ fuel in Filter.atTop, ∀ k, n ≤ k → run (f fuel) k s = .ok (value s) := by
    intro n
    induction n with
    | zero => exact fun s _ hlt => absurd hlt (Nat.not_lt_zero _)
    | succ n ih =>
      intro s hs hlt
      rcases hstep s hs with hdone | ⟨s', hbody, hs', hrank, hvalue⟩
      · filter_upwards [hdone] with fuel hdone k hk
        cases k with
        | zero => omega
        | succ k =>
          rw [run, hdone]
          rfl
      · filter_upwards [hbody, ih s' hs' (by omega)] with fuel hbody hrest k hk
        cases k with
        | zero => omega
        | succ k =>
          rw [run, hbody]
          exact (hrest k (by omega)).trans (by rw [hvalue])
  filter_upwards [hloop (rank s + 1) s hs (Nat.lt_succ_self _),
    Filter.eventually_ge_atTop (rank s + 1)] with fuel hloop hfuel
  exact hloop fuel hfuel

end Loop
