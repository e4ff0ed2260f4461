import Mathlib

/-!
# Scripts of commands that may fail

A command turns a state into another one or fails, and a script fails with its first command that does.
`run_undo` is the rule for scripts that are taken back: when every command has an inverse, the inverses
in reverse order lead back. `run_part` is the rule for commands on a part of the state, and
`foldl_pushes` says what a loop adds to a script.
-/

namespace Script

variable {σ κ : Type*}

/-- Commands in order, as long as none fails. -/
def run (exec : σ → κ → Option σ) (s : σ) : List κ → Option σ
  | [] => some s
  | c :: cs => (exec s c).bind fun s' => run exec s' cs

variable {exec : σ → κ → Option σ} {s s' : σ} {c : κ} {cs ds : List κ}

@[simp] theorem run_nil : run exec s [] = some s := rfl

theorem run_cons : run exec s (c :: cs) = (exec s c).bind fun s' => run exec s' cs := rfl

theorem run_append : run exec s (cs ++ ds) = (run exec s cs).bind fun s' => run exec s' ds := by
  induction cs generalizing s with
  | nil => rfl
  | cons c cs ih =>
    rw [List.cons_append, run_cons, run_cons, Option.bind_assoc]
    exact congrArg _ (funext fun s' => ih)

theorem run_cons_eq_some :
    run exec s (c :: cs) = some s' ↔ ∃ t, exec s c = some t ∧ run exec t cs = some s' := by
  rw [run_cons, Option.bind_eq_some_iff]

theorem run_append_eq_some :
    run exec s (cs ++ ds) = some s' ↔ ∃ t, run exec s cs = some t ∧ run exec t ds = some s' := by
  rw [run_append, Option.bind_eq_some_iff]

/-- **Invariant rule.** What every command of a script keeps holds after it. -/
theorem run_inv {I : σ → Prop} (hstep : ∀ c ∈ cs, ∀ t t', I t → exec t c = some t' → I t')
    (hrun : run exec s cs = some s') (hs : I s) : I s' := by
  induction cs generalizing s with
  | nil => exact Option.some.inj hrun ▸ hs
  | cons c cs ih =>
    obtain ⟨t, hc, hcs⟩ := run_cons_eq_some.mp hrun
    exact ih (fun d hd => hstep d (List.mem_cons_of_mem _ hd)) hcs
      (hstep c List.mem_cons_self s t hs hc)

/-- **Undo rule.** Commands that have inverses are taken back by these, in reverse order. -/
theorem run_undo {steps : List (κ × κ)}
    (hinv : ∀ step ∈ steps, ∀ t t', exec t step.1 = some t' → exec t' step.2 = some t)
    (hrun : run exec s (steps.map Prod.fst) = some s') :
    run exec s' (steps.map Prod.snd).reverse = some s := by
  induction steps generalizing s with
  | nil => exact Option.some.inj hrun ▸ rfl
  | cons step steps ih =>
    obtain ⟨t, hstep, hsteps⟩ := run_cons_eq_some.mp hrun
    rw [List.map_cons, List.reverse_cons, run_append_eq_some]
    refine ⟨t, ih (fun later hlater => hinv later (List.mem_cons_of_mem _ hlater)) hsteps, ?_⟩
    rw [run_cons, hinv step List.mem_cons_self s t hstep]
    rfl

/-- Commands on a part of the state. -/
theorem run_part {τ ι α : Type*} {part : τ → ι → Option τ} {p : τ → σ} {command : α → κ}
    {inner : α → ι} (h : ∀ t c, exec (p t) (command c) = (part t (inner c)).map p) (t : τ)
    (cs : List α) : run exec (p t) (cs.map command) = (run part t (cs.map inner)).map p := by
  induction cs generalizing t with
  | nil => rfl
  | cons c cs ih =>
    rw [List.map_cons, List.map_cons, run_cons, run_cons, h]
    cases part t (inner c) with
    | none => rfl
    | some t' => exact ih t'

/-- Two scripts on a part of the state. -/
theorem run_part_append {τ ι : Type*} {part : τ → ι → Option τ} {p : τ → σ} {is js : List ι}
    (hcs : ∀ t, run exec (p t) cs = (run part t is).map p)
    (hds : ∀ t, run exec (p t) ds = (run part t js).map p) (t : τ) :
    run exec (p t) (cs ++ ds) = (run part t (is ++ js)).map p := by
  rw [run_append, run_append, hcs]
  cases run part t is with
  | none => rfl
  | some t' => exact hds t'

/-! ### Building scripts -/

/-- A loop that never fails. -/
theorem foldlM_ok {σ ι ε : Type*} {f : σ → ι → Except ε σ} {g : σ → ι → σ} {items : List ι}
    (h : ∀ s, ∀ item ∈ items, f s item = .ok (g s item)) (s : σ) :
    items.foldlM f s = .ok (items.foldl g s) := by
  induction items generalizing s with
  | nil => rfl
  | cons item items ih =>
    rw [List.foldlM_cons, h s item List.mem_cons_self]
    exact ih (fun t other hother => h t other (List.mem_cons_of_mem _ hother)) _

/-- What a loop pushes to a list. -/
theorem foldl_pushes {σ ι α : Type*} {f : σ → ι → σ} (list : σ → List α) {g : ι → List α}
    {items : List ι} (s : σ) (h : ∀ s, ∀ item ∈ items, list (f s item) = list s ++ g item) :
    list (items.foldl f s) = list s ++ items.flatMap g := by
  induction items generalizing s with
  | nil => simp
  | cons item items ih =>
    rw [List.foldl_cons, ih _ fun s other hother => h s other (List.mem_cons_of_mem _ hother),
      h s item List.mem_cons_self, List.flatMap_cons, List.append_assoc]

/-- A loop that pushes something for some items. -/
theorem flatMap_ite {ι α : Type*} (q : ι → Prop) [DecidablePred q] (f : ι → α) (items : List ι) :
    items.flatMap (fun item => if q item then [f item] else [])
      = (items.filter fun item => q item).map f := by
  induction items with
  | nil => rfl
  | cons item items ih =>
    rw [List.flatMap_cons, ih]
    by_cases hq : q item
    · simp [hq]
    · simp [hq]

end Script
