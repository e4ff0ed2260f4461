import Mathlib

/-!
# Data that is taken chunk by chunk

`Delivered` are the chunks that a reader with a position takes from some data, one after another, each
as large as it asks for and the data allows. Together they are the beginning of the data up to the
position (`flatten_eq`). `lasts` marks the chunks that reach the end of the data; there is one as soon
as everything is delivered, and never another (`count_lasts`).

Pages are chunks of one size, and numbered from zero: together they are the list (`flatten_pages`), and a
page is empty exactly when it begins behind the end (`page_ne_nil_iff`).
-/

namespace Chunks

variable {β : Type}

/-- The chunks that have been taken, and the position behind them. -/
inductive Delivered (data : List β) : List (List β) → ℕ → Prop
  | start : Delivered data [] 0
  | next {chunks : List (List β)} {offset : ℕ} (size : ℕ) (hsize : 1 ≤ size)
      (h : Delivered data chunks offset) :
      Delivered data (chunks ++ [(data.drop offset).take size]) (min (offset + size) data.length)

namespace Delivered

variable {data : List β} {chunks : List (List β)} {offset : ℕ}

theorem offset_le (h : Delivered data chunks offset) : offset ≤ data.length := by
  cases h with
  | start => exact Nat.zero_le _
  | next => exact Nat.min_le_right _ _

/-- **The chunks are the data up to the position.** -/
theorem flatten_eq (h : Delivered data chunks offset) : chunks.flatten = data.take offset := by
  induction h with
  | start => rfl
  | next size _ h ih =>
    rw [List.flatten_append, List.flatten_singleton, ih, ← List.take_add, ← List.take_eq_take_min]

/-- With every chunk something is delivered, until everything is. -/
theorem min_length_le (h : Delivered data chunks offset) :
    min data.length chunks.length ≤ offset := by
  induction h with
  | start => exact Nat.min_le_right _ _
  | next size hsize h ih =>
    rw [List.length_append, List.length_singleton]
    omega

theorem flatten_prefix (h : Delivered data chunks offset) : chunks.flatten <+: data :=
  h.flatten_eq ▸ List.take_prefix _ _

/-- As many chunks as there are elements deliver everything. -/
theorem flatten_eq_of_length_le (h : Delivered data chunks offset)
    (hlength : data.length ≤ chunks.length) : chunks.flatten = data := by
  have hoffset : data.length ≤ offset := by
    have hmin := h.min_length_le
    rwa [Nat.min_eq_left hlength] at hmin
  rw [h.flatten_eq, List.take_of_length_le hoffset]

end Delivered

/-! ### The chunk that reaches the end -/

section Lasts

variable [DecidableEq β]

/-- Which chunks have something and reach the end of the data, behind what has been taken before. -/
def lastsAfter (data taken : List β) : List (List β) → List Bool
  | [] => []
  | chunk :: chunks =>
    decide (chunk ≠ [] ∧ taken ++ chunk = data) :: lastsAfter data (taken ++ chunk) chunks

/-- Which chunks have something and reach the end of the data. -/
def lasts (data : List β) (chunks : List (List β)) : List Bool := lastsAfter data [] chunks

theorem lastsAfter_concat (data taken : List β) (chunks : List (List β)) (chunk : List β) :
    lastsAfter data taken (chunks ++ [chunk]) = lastsAfter data taken chunks
      ++ [decide (chunk ≠ [] ∧ taken ++ chunks.flatten ++ chunk = data)] := by
  induction chunks generalizing taken with
  | nil => rw [List.flatten_nil, List.append_nil]; rfl
  | cons first chunks ih =>
    rw [List.cons_append, lastsAfter, ih, lastsAfter, List.flatten_cons, List.append_assoc taken first]
    rfl

theorem lasts_concat (data : List β) (chunks : List (List β)) (chunk : List β) :
    lasts data (chunks ++ [chunk])
      = lasts data chunks ++ [decide (chunk ≠ [] ∧ chunks.flatten ++ chunk = data)] :=
  lastsAfter_concat data [] chunks chunk

/-- **The end is reached once**, by a chunk of data that are not empty. -/
theorem count_lasts {data : List β} {chunks : List (List β)} (h : chunks.flatten <+: data) :
    (lasts data chunks).count true = if data ≠ [] ∧ chunks.flatten = data then 1 else 0 := by
  induction chunks using List.reverseRecOn with
  | nil =>
    refine (if_neg fun hall => hall.1 ?_).symm
    exact hall.2.symm
  | append_singleton chunks chunk ih =>
    rw [List.flatten_append, List.flatten_singleton] at h ⊢
    rw [lasts_concat, List.count_append, ih ((List.prefix_append _ _).trans h)]
    by_cases hchunk : chunk = []
    · subst hchunk
      simp
    · -- Something was left before this chunk.
      have hbefore : chunks.flatten ≠ data := by
        intro heq
        have hlength := h.length_le
        rw [heq, List.length_append] at hlength
        exact hchunk (List.length_eq_zero_iff.1 (by omega))
      by_cases hend : chunks.flatten ++ chunk = data
      · have hdata : data ≠ [] := fun hnil => hchunk (List.append_eq_nil_iff.1 (hend.trans hnil)).2
        simp [hbefore, hend, hchunk, hdata]
      · simp [hbefore, hend]

end Lasts

end Chunks

/-! ### Pages of a list -/

namespace Pages

variable {α : Type*}

/-- A page of a list. -/
def page (size : ℕ) (xs : List α) (n : ℕ) : List α := (xs.drop (n * size)).take size

/-- **The pages put together.** -/
theorem flatten_pages (size : ℕ) (xs : List α) (n : ℕ) :
    ((List.range n).map (page size xs)).flatten = xs.take (n * size) := by
  induction n with
  | zero => rw [Nat.zero_mul, List.take_zero]; rfl
  | succ n ih =>
    rw [List.range_succ, List.map_append, List.flatten_append, ih, List.map_singleton,
      List.flatten_singleton, page, ← List.take_add, Nat.succ_mul]

theorem page_ne_nil_iff {size : ℕ} (hsize : 0 < size) (xs : List α) (n : ℕ) :
    page size xs n ≠ [] ↔ n * size < xs.length := by
  rw [← List.length_pos_iff, page, List.length_take, List.length_drop]
  omega

/-- A page reaches the end of the list exactly when the next one is empty. -/
theorem more_iff {size : ℕ} (hsize : 0 < size) (xs : List α) (n : ℕ) :
    n * size + (page size xs n).length < xs.length ↔ page size xs (n + 1) ≠ [] := by
  rw [page_ne_nil_iff hsize, page, List.length_take, List.length_drop, Nat.succ_mul]
  omega

end Pages
