import Mathlib

/-!
# Results that are read page by page

The DuckDB driver keeps no results. Cursors and export streams have a query and a position, and every
page is a query of its own, with a limit and an offset. `CursorState` and `ExportStreamState` count rows
in the same way; that part is the `Pager`.
-/

namespace Navop
namespace Duckdb

variable {ρ : Type*}

/-- The rows of a query; DuckDB numbers them with 64 bits. -/
structure QueryResult (ρ : Type*) where
  rows : List ρ
  length_lt : rows.length < 2 ^ 64

/-- `run_query_page`: the rows of `SELECT * FROM (..) LIMIT limit OFFSET offset`. -/
def QueryResult.page (result : QueryResult ρ) (limit offset : ℕ) : List ρ :=
  (result.rows.drop offset).take limit

/-- The first `max_rows` rows, or all of them without a limit. -/
def QueryResult.truncated (result : QueryResult ρ) (maxRows : Option UInt64) : List ρ :=
  match maxRows with
  | some maxRows => result.rows.take maxRows.toNat
  | none => result.rows

/-- The position of a reader: `next_row`, `max_rows` and `done`. -/
structure Pager where
  nextRow : ℕ
  maxRows : Option UInt64
  done : Bool
  deriving DecidableEq

/-- A reader that has not started yet. -/
def Pager.new (maxRows : Option UInt64) : Pager := ⟨0, maxRows, maxRows = some 0⟩

/-- `remaining_max_rows`: what is left of the limit, if there is one. -/
def Pager.remainingMaxRows (pager : Pager) : Option ℕ :=
  pager.maxRows.map fun maxRows => maxRows.toNat - pager.nextRow

/-- `advance`: the next row moves on, and the pager is done after a short page or at the limit. -/
def Pager.advance (pager : Pager) (fetched requested : ℕ) : Pager :=
  let pager := { pager with nextRow := min (pager.nextRow + fetched) (2 ^ 64 - 1) }
  { pager with done :=
      pager.done || decide (fetched < requested) || decide (pager.remainingMaxRows = some 0) }

@[simp] theorem Pager.advance_maxRows (pager : Pager) (fetched requested : ℕ) :
    (pager.advance fetched requested).maxRows = pager.maxRows := rfl

/-- A limit that a reader may ask for. -/
def Pager.Allows (pager : Pager) (limit : ℕ) : Prop :=
  ∀ remaining, pager.remainingMaxRows = some remaining → limit ≤ remaining

section Pages

variable {result : QueryResult ρ} {pager : Pager} {limit : ℕ}

theorem length_truncated_lt (maxRows : Option UInt64) :
    (result.truncated maxRows).length < 2 ^ 64 := by
  unfold QueryResult.truncated
  split
  · rw [List.length_take]
    exact lt_of_le_of_lt (min_le_right _ _) result.length_lt
  · exact result.length_lt

/-- A page is a piece of the truncated result. -/
theorem page_eq (hlimit : pager.Allows limit) :
    result.page limit pager.nextRow
      = ((result.truncated pager.maxRows).drop pager.nextRow).take limit := by
  unfold QueryResult.page QueryResult.truncated
  split
  · next maxRows hmax =>
    have hle : limit ≤ maxRows.toNat - pager.nextRow :=
      hlimit _ (by rw [Pager.remainingMaxRows, hmax]; rfl)
    rw [List.drop_take, List.take_take, min_eq_left hle]
  · rfl

theorem length_page (hlimit : pager.Allows limit) :
    (result.page limit pager.nextRow).length
      = min limit ((result.truncated pager.maxRows).length - pager.nextRow) := by
  rw [page_eq hlimit, List.length_take, List.length_drop]

/-- The position after a page. -/
theorem nextRow_advance (hlimit : pager.Allows limit)
    (hnext : pager.nextRow ≤ (result.truncated pager.maxRows).length) :
    (pager.advance (result.page limit pager.nextRow).length limit).nextRow
      = pager.nextRow + (result.page limit pager.nextRow).length := by
  have hlength := @length_page ρ result pager limit hlimit
  have hbound := @length_truncated_lt ρ result pager.maxRows
  change min _ _ = _
  rw [hlength]
  omega

/-- The position stays within the result. -/
theorem nextRow_advance_le (hlimit : pager.Allows limit)
    (hnext : pager.nextRow ≤ (result.truncated pager.maxRows).length) :
    (pager.advance (result.page limit pager.nextRow).length limit).nextRow
      ≤ (result.truncated pager.maxRows).length := by
  have hlength := @length_page ρ result pager limit hlimit
  rw [nextRow_advance hlimit hnext, hlength]
  omega

/-- **A page continues what was read.** -/
theorem take_append_page (hlimit : pager.Allows limit)
    (hnext : pager.nextRow ≤ (result.truncated pager.maxRows).length) :
    (result.truncated pager.maxRows).take pager.nextRow ++ result.page limit pager.nextRow
      = (result.truncated pager.maxRows).take
          (pager.advance (result.page limit pager.nextRow).length limit).nextRow := by
  rw [nextRow_advance hlimit hnext, List.take_add]
  congr 1
  rw [length_page hlimit, page_eq hlimit, ← List.length_drop, List.take_eq_take_iff]
  simp

/-- **A reader is done** only at the end of the result, if it was not done before. -/
theorem done_advance (hlimit : pager.Allows limit)
    (hnext : pager.nextRow ≤ (result.truncated pager.maxRows).length) (hdone : pager.done = false)
    (h : (pager.advance (result.page limit pager.nextRow).length limit).done = true) :
    (pager.advance (result.page limit pager.nextRow).length limit).nextRow
      = (result.truncated pager.maxRows).length := by
  have hlength := @length_page ρ result pager limit hlimit
  have hposition := nextRow_advance hlimit hnext
  have hle := nextRow_advance_le hlimit hnext
  -- the pager was not done before, so that the page was short or used up the budget
  have hends : (result.page limit pager.nextRow).length < limit ∨
      (pager.advance (result.page limit pager.nextRow).length limit).remainingMaxRows = some 0 := by
    change (pager.done || decide _ || decide _) = true at h
    rw [hdone, Bool.false_or, Bool.or_eq_true, decide_eq_true_iff, decide_eq_true_iff] at h
    exact h
  obtain hshort | hbudget := hends
  · rw [hposition]
    omega
  · obtain ⟨maxRows, hmax, hzero⟩ := Option.map_eq_some_iff.mp hbudget
    rw [Pager.advance_maxRows] at hmax
    have htruncated : (result.truncated pager.maxRows).length ≤ maxRows.toNat := by
      rw [hmax]
      exact List.length_take_le _ _
    omega

end Pages

end Duckdb
end Navop
