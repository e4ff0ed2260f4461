import Mathlib

/-!
# Draining queues in turn

Several queues are visited in some order, and every visit takes the next `batch` elements of its
queue. What the visits take is `drained`; it depends on the order of the visits only, and longer
sequences of visits take more at the end (`drained_append`). Visits that have been to every queue
often enough have taken everything once (`drained_perm`), and what follows takes nothing
(`drained_append_of_exhausted`).

A visitor that goes round the queues again and again makes a prefix of `rounds n keys` for some `n`;
any two such prefixes are comparable (`prefix_or_prefix_rounds`).
-/

namespace Drain

variable {κ α : Type*}

/-! ### Visits -/

section Visits

variable (queue : κ → List α) (batch : ℕ)

/-- What the visit of a queue takes that was visited `n` times before. -/
def piece (k : κ) (n : ℕ) : List α := ((queue k).drop (batch * n)).take batch

variable [BEq κ]

/-- What visits take, after others. -/
def drainFrom (seen : List κ) : List κ → List α
  | [] => []
  | k :: ks => piece queue batch k (seen.count k) ++ drainFrom (seen ++ [k]) ks

/-- What a sequence of visits takes. -/
def drained (visits : List κ) : List α := drainFrom queue batch [] visits

/-- Everything is taken. -/
def Exhausted (keys visits : List κ) : Prop :=
  ∀ k ∈ keys, (queue k).length ≤ batch * visits.count k

end Visits

/-! ### One queue -/

variable {queue : κ → List α} {batch : ℕ} {keys visits visits' : List κ} {k : κ}

theorem piece_eq_nil {n : ℕ} (h : (queue k).length ≤ batch * n) : piece queue batch k n = [] := by
  rw [piece, List.drop_eq_nil_of_le h, List.take_nil]

theorem piece_eq_nil_iff (hbatch : 0 < batch) {n : ℕ} :
    piece queue batch k n = [] ↔ (queue k).length ≤ batch * n := by
  refine ⟨fun h => ?_, piece_eq_nil⟩
  rw [piece, List.take_eq_nil_iff] at h
  obtain hzero | hdrop := h
  · omega
  · exact List.drop_eq_nil_iff.mp hdrop

theorem take_add_piece (k : κ) (n : ℕ) :
    (queue k).take (batch * n) ++ piece queue batch k n = (queue k).take (batch * (n + 1)) := by
  rw [piece, Nat.mul_succ, List.take_add]

/-- One list of many gets something at its end. -/
theorem flatMap_perm_append {f g : κ → List α} {extra : List α} (hnodup : keys.Nodup) (hk : k ∈ keys)
    (hself : g k = f k ++ extra) (hothers : ∀ k' ≠ k, g k' = f k') :
    (keys.flatMap g).Perm (keys.flatMap f ++ extra) := by
  obtain ⟨before, after, rfl⟩ := List.append_of_mem hk
  have hnot : k ∉ before ∧ k ∉ after := by
    rw [List.nodup_append] at hnodup
    refine ⟨fun hmem => ?_, (List.nodup_cons.mp hnodup.2.1).1⟩
    exact hnodup.2.2 k hmem k List.mem_cons_self rfl
  have hbefore : before.flatMap g = before.flatMap f :=
    List.flatMap_congr fun k' hk' => hothers k' fun heq => hnot.1 (heq ▸ hk')
  have hafter : after.flatMap g = after.flatMap f :=
    List.flatMap_congr fun k' hk' => hothers k' fun heq => hnot.2 (heq ▸ hk')
  simp only [List.flatMap_append, List.flatMap_cons, hbefore, hafter, hself, List.append_assoc]
  exact List.Perm.append_left _ (List.Perm.append_left _ List.perm_append_comm)

/-! ### Going round -/

/-- All queues in turn, `n` times. -/
def rounds (n : ℕ) (keys : List κ) : List κ := (List.replicate n keys).flatten

@[simp] theorem rounds_zero (keys : List κ) : rounds 0 keys = [] := rfl

theorem rounds_succ (n : ℕ) (keys : List κ) : rounds (n + 1) keys = rounds n keys ++ keys := by
  rw [rounds, List.replicate_succ', List.flatten_append, List.flatten_singleton, rounds]

theorem map_rounds {β : Type*} (f : κ → β) (n : ℕ) (keys : List κ) :
    (rounds n keys).map f = rounds n (keys.map f) := by
  rw [rounds, rounds, List.map_flatten, List.map_replicate]

theorem mem_of_mem_rounds {n : ℕ} (h : k ∈ rounds n keys) : k ∈ keys := by
  induction n with
  | zero => exact absurd h List.not_mem_nil
  | succ n ih =>
    rw [rounds_succ, List.mem_append] at h
    exact h.elim ih id

theorem rounds_mono {m n : ℕ} (h : m ≤ n) (keys : List κ) : rounds m keys <+: rounds n keys := by
  induction h with
  | refl => exact List.prefix_rfl
  | step _ ih =>
    rw [rounds_succ]
    exact ih.trans (List.prefix_append _ _)

/-- Visitors that go round do the same for as long as both go. -/
theorem prefix_or_prefix_rounds {m n : ℕ} (h : visits <+: rounds m keys)
    (h' : visits' <+: rounds n keys) : visits <+: visits' ∨ visits' <+: visits :=
  List.prefix_or_prefix_of_prefix (h.trans (rounds_mono (le_max_left m n) keys))
    (h'.trans (rounds_mono (le_max_right m n) keys))

/-! ### All queues -/

variable [BEq κ]

theorem drainFrom_append (seen ks ks' : List κ) :
    drainFrom queue batch seen (ks ++ ks')
      = drainFrom queue batch seen ks ++ drainFrom queue batch (seen ++ ks) ks' := by
  induction ks generalizing seen with
  | nil => simp [drainFrom]
  | cons k ks ih => simp [drainFrom, ih, List.append_assoc]

theorem drained_append (visits visits' : List κ) :
    drained queue batch (visits ++ visits')
      = drained queue batch visits ++ drainFrom queue batch visits visits' :=
  drainFrom_append [] visits visits'

theorem drained_concat (visits : List κ) (k : κ) :
    drained queue batch (visits ++ [k])
      = drained queue batch visits ++ piece queue batch k (visits.count k) := by
  rw [drained_append, drainFrom, drainFrom, List.append_nil]

theorem drained_mono (h : visits <+: visits') :
    drained queue batch visits <+: drained queue batch visits' := by
  obtain ⟨rest, rfl⟩ := h
  rw [drained_append]
  exact List.prefix_append _ _

theorem Exhausted.mono (h : Exhausted queue batch keys visits) (hbefore : visits <+: visits') :
    Exhausted queue batch keys visits' := by
  intro k hk
  exact (h k hk).trans (Nat.mul_le_mul_left batch (hbefore.sublist.count_le k))

theorem drainFrom_of_exhausted (h : Exhausted queue batch keys visits) {rest : List κ}
    (hrest : ∀ k ∈ rest, k ∈ keys) : drainFrom queue batch visits rest = [] := by
  induction rest generalizing visits with
  | nil => rfl
  | cons k rest ih =>
    rw [drainFrom, piece_eq_nil (h k (hrest k List.mem_cons_self)), List.nil_append]
    exact ih (h.mono (List.prefix_append _ _)) fun k' hk' => hrest k' (List.mem_cons_of_mem _ hk')

/-- **Nothing is left**: further visits take nothing. -/
theorem drained_append_of_exhausted (h : Exhausted queue batch keys visits) {rest : List κ}
    (hrest : ∀ k ∈ rest, k ∈ keys) :
    drained queue batch (visits ++ rest) = drained queue batch visits := by
  rw [drained_append, drainFrom_of_exhausted h hrest, List.append_nil]

/-- A round that takes nothing has found every queue empty. -/
theorem exhausted_of_drainFrom_eq_nil (hbatch : 0 < batch) {seen ks : List κ}
    (h : drainFrom queue batch seen ks = []) : Exhausted queue batch ks (seen ++ ks) := by
  induction ks generalizing seen with
  | nil => exact fun k hk => absurd hk List.not_mem_nil
  | cons k ks ih =>
    rw [drainFrom, List.append_eq_nil_iff] at h
    obtain ⟨hpiece, hrest⟩ := h
    have htail := ih hrest
    rw [List.append_assoc] at htail
    intro k' hk'
    obtain rfl | hmem := List.mem_cons.mp hk'
    · refine ((piece_eq_nil_iff hbatch).mp hpiece).trans (Nat.mul_le_mul_left batch ?_)
      rw [List.count_append]
      exact Nat.le_add_right _ _
    · exact htail k' hmem

variable [LawfulBEq κ]

/-- What visits take is the beginning of every queue. -/
theorem drained_perm_take (hnodup : keys.Nodup) (hvisits : ∀ k ∈ visits, k ∈ keys) :
    (drained queue batch visits).Perm
      (keys.flatMap fun k => (queue k).take (batch * visits.count k)) := by
  induction visits using List.reverseRecOn with
  | nil => simp [drained, drainFrom]
  | append_singleton visits k ih =>
    have hk : k ∈ keys := hvisits k (by simp)
    have hstep := ih fun k' hk' => hvisits k' (List.mem_append_left _ hk')
    rw [drained_concat]
    refine (hstep.append_right _).trans (flatMap_perm_append hnodup hk ?_ ?_).symm
    · rw [take_add_piece, List.count_append, List.count_singleton_self]
    · intro k' hk'
      rw [List.count_append, List.count_singleton, if_neg (by simpa using Ne.symm hk'), Nat.add_zero]

/-- **Everything is taken once.** -/
theorem drained_perm (hnodup : keys.Nodup) (hvisits : ∀ k ∈ visits, k ∈ keys)
    (h : Exhausted queue batch keys visits) :
    (drained queue batch visits).Perm (keys.flatMap queue) := by
  refine (drained_perm_take hnodup hvisits).trans (List.Perm.of_eq ?_)
  exact List.flatMap_congr fun k hk => List.take_of_length_le (h k hk)

theorem le_count_rounds (n : ℕ) (hk : k ∈ keys) : n ≤ (rounds n keys).count k := by
  induction n with
  | zero => exact Nat.zero_le _
  | succ n ih =>
    rw [rounds_succ, List.count_append]
    exact Nat.add_le_add ih (List.count_pos_iff.mpr hk)

end Drain
