import NavopExtensions.Lib.Handles
import NavopExtensions.Lib.Machine

/-!
# What has happened, and what has not happened since

`Since P Q log` says that something of the kind `P` has happened, and nothing of the kind `Q` after it. What
a machine remembers is often of this form: something is there if it was made and not taken away since. One
event more makes it, or leaves it unless it takes it away (`since_concat`). What every step guarantees of its
event, given what was emitted before, holds of every event of a run (`run_each`).
-/

namespace History

open Machine

variable {ο σ ι : Type*}

/-- There is an event of one kind, with none of another kind after it. -/
def Since (P Q : ο → Prop) (log : List ο) : Prop :=
  ∃ before event after, log = before ++ event :: after ∧ P event ∧ ∀ later ∈ after, ¬ Q later

variable {P Q : ο → Prop} {log : List ο} {event : ο}

theorem not_since_nil : ¬ Since P Q [] := by
  rintro ⟨before, event, after, h, -⟩
  exact absurd h (by simp)

theorem since_concat : Since P Q (log ++ [event]) ↔ P event ∨ (Since P Q log ∧ ¬ Q event) := by
  constructor
  · rintro ⟨before, first, after, h, hfirst, hafter⟩
    -- The event is the first one, or the last one after it.
    obtain rfl | ⟨after, last, rfl⟩ := after.eq_nil_or_concat
    · obtain ⟨-, hlast⟩ := List.append_inj' h rfl
      exact .inl ((List.cons.inj hlast).1 ▸ hfirst)
    · have hsplit : log ++ [event] = (before ++ first :: after) ++ [last] := by simp [h]
      obtain ⟨rfl, hlast⟩ := List.append_inj' hsplit rfl
      obtain rfl := (List.cons.inj hlast).1
      exact .inr ⟨⟨before, first, after, rfl, hfirst,
        fun later hlater => hafter later (by simp [hlater])⟩,
        hafter event (by simp)⟩
  · rintro (h | ⟨⟨before, first, after, rfl, hfirst, hafter⟩, hevent⟩)
    · exact ⟨log, event, [], rfl, h, by simp⟩
    · refine ⟨before, first, after ++ [event], by simp, hfirst, fun later hlater => ?_⟩
      rcases List.mem_append.1 hlater with hlater | hlater
      · exact hafter later hlater
      · exact List.mem_singleton.1 hlater ▸ hevent

/-- Something that holds of every event, with what has happened before it, in every run. -/
theorem run_each {step : σ → ι → σ × List ο} {I : List ο → σ → Prop} {G : List ο → ο → Prop}
    {e : σ → ι → ο} (hemit : ∀ s i, (step s i).2 = [e s i])
    (hinv : ∀ log s i, I log s → I (log ++ [e s i]) (step s i).1)
    (hgood : ∀ log s i, I log s → G log (e s i)) {s : σ} (hs : I [] s) (is : List ι) :
    ∀ before event after, (run step s is).2 = before ++ event :: after → G before event := by
  refine (run_history (P := fun _ => True)
    (H := fun _ log s => I log s ∧
      ∀ before event after, log = before ++ event :: after → G before event)
    (fun _ _ _ => trivial) ?_ ⟨hs, fun before event after h => absurd h (by simp)⟩ trivial).2
  rintro is log s i ⟨hs, hlog⟩ -
  rw [hemit]
  exact ⟨hinv log s i hs, Handles.forall_split_concat.2 ⟨hlog, hgood log s i hs⟩⟩

end History
