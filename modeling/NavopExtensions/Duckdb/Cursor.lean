import NavopExtensions.Duckdb.Paging
import NavopExtensions.Lib.Machine

/-!
# Cursors of a DuckDB connection

`cursor/fetch` executes the query of the cursor once more, with the offset that the cursor has reached.
Between two pages the tables may change, and then the pages are pieces of different results. A cursor
shows one result when no write between its first and its last page changes the result of its query
(`cursor_shows_one_result`).
-/

namespace Navop
namespace Duckdb

open Machine

variable {δ ρ : Type*}

/-- `DEFAULT_CURSOR_FETCH_SIZE`: the rows of a page for which no size is asked. -/
def defaultCursorFetchSize : ℕ := 1000

/-- `MAX_CURSOR_FETCH_SIZE`: the rows of a page at most. -/
def maxCursorFetchSize : ℕ := 10000

/-- `CursorState`: the query is what it yields for the contents of the tables. -/
structure CursorState (δ ρ : Type*) where
  query : δ → QueryResult ρ
  fetchSize : Option UInt32
  pager : Pager

/-- `CursorState::new`: a cursor keeps the statement, not its rows. -/
def CursorState.new (query : δ → QueryResult ρ) (fetchSize : Option UInt32)
    (maxRows : Option UInt64) : CursorState δ ρ :=
  ⟨query, fetchSize, Pager.new maxRows⟩

/-- `cursor_fetch_limit`: the size asked for, within the largest one and within what is left of
`max_rows`. -/
def CursorState.fetchLimit (cursor : CursorState δ ρ) (requested : Option UInt32) : ℕ :=
  if cursor.pager.remainingMaxRows = some 0 then 0
  else
    let requested := min (match requested with
      | some n => n.toNat
      | none => ((cursor.fetchSize.filter (0 < ·)).map UInt32.toNat).getD defaultCursorFetchSize)
      maxCursorFetchSize
    match cursor.pager.remainingMaxRows with
    | some remaining => min requested (min remaining (2 ^ 32 - 1))
    | none => requested

/-- `fetch_cursor_page`; the page may fail. -/
def CursorState.fetchPage (cursor : CursorState δ ρ) (contents : δ) (requested : Option UInt32)
    (fails : Bool) : CursorState δ ρ × Option (List ρ × Bool) :=
  if cursor.pager.done then (cursor, some ([], true))
  else
    let limit := cursor.fetchLimit requested
    if limit = 0 then (cursor, some ([], cursor.pager.done))
    else if fails then (cursor, none)
    else
      let rows := (cursor.query contents).page limit cursor.pager.nextRow
      let pager := cursor.pager.advance rows.length limit
      ({ cursor with pager := pager }, some (rows, pager.done))

/-- `cancel`: the cursor is done, and stays where it is. -/
def CursorState.cancel (cursor : CursorState δ ρ) : CursorState δ ρ :=
  { cursor with pager := { cursor.pager with done := true } }

/-- The requests of a connection with a cursor: `exec/run` writes, `cursor/fetch` and `cursor/cancel`. -/
inductive CursorInput (δ : Type*)
  | write (change : δ → δ)
  | fetch (n : Option UInt32) (fails : Bool)
  | cancel

/-- The tables and the cursor. -/
structure CursorSession (δ ρ : Type*) where
  contents : δ
  cursor : CursorState δ ρ

/-- A request is handled; a page that was fetched is the output. -/
def CursorSession.step (session : CursorSession δ ρ) (input : CursorInput δ) :
    CursorSession δ ρ × List (List ρ × Bool) :=
  match input with
  | .write change => ({ session with contents := change session.contents }, [])
  | .fetch n fails =>
    let (cursor, page) := session.cursor.fetchPage session.contents n fails
    ({ session with cursor := cursor }, page.toList)
  | .cancel => ({ session with cursor := session.cursor.cancel }, [])

/-- A cursor that has just been opened. -/
def CursorSession.start (contents : δ) (query : δ → QueryResult ρ) (fetchSize : Option UInt32)
    (maxRows : Option UInt64) : CursorSession δ ρ :=
  ⟨contents, CursorState.new query fetchSize maxRows⟩

/-! ### One result -/

/-- The rows of all pages. -/
def delivered (pages : List (List ρ × Bool)) : List ρ := pages.flatMap Prod.fst

/-- The pages are those of a result: the rows are the first ones of it, and all of them if a page says
so, unless the cursor was cancelled. -/
structure Shows (result : List ρ) (cancelled : Prop) (pages : List (List ρ × Bool)) : Prop where
  first : delivered pages <+: result
  all : (∃ page ∈ pages, page.2 = true) → cancelled ∨ delivered pages = result

/-- A write between the first and the last page leaves the result of the query as it is. -/
def Unchanged (session : CursorSession δ ρ) : CursorInput δ → Prop
  | .write change => session.cursor.pager.done = true ∨ session.cursor.pager.nextRow = 0 ∨
      session.cursor.query (change session.contents) = session.cursor.query session.contents
  | .fetch _ _ => True
  | .cancel => True

theorem fetchLimit_allows (cursor : CursorState δ ρ) (requested : Option UInt32) :
    cursor.pager.Allows (cursor.fetchLimit requested) := by
  intro remaining hremaining
  unfold CursorState.fetchLimit
  split
  · exact Nat.zero_le _
  · rw [hremaining]
    exact le_trans (min_le_right _ _) (min_le_left _ _)

/-- Where a reader of a result is, after some pages of it. -/
structure Position (result : List ρ) (cancelled : Prop) (pages : List (List ρ × Bool))
    (pager : Pager) : Prop where
  within : pager.nextRow ≤ result.length
  rows : delivered pages = result.take pager.nextRow
  done : pager.done = true → cancelled ∨ pager.nextRow = result.length
  said : (∃ page ∈ pages, page.2 = true) → pager.done = true

theorem Position.shows {result : List ρ} {cancelled : Prop} {pages : List (List ρ × Bool)}
    {pager : Pager} (h : Position result cancelled pages pager) : Shows result cancelled pages where
  first := by
    rw [h.rows]
    exact List.take_prefix _ _
  all := by
    intro hsaid
    obtain hcancelled | hend := h.done (h.said hsaid)
    · exact .inl hcancelled
    · refine .inr ?_
      rw [h.rows, hend, List.take_length]

section Reader

variable {cancelled : Prop} {pages : List (List ρ × Bool)} {pager : Pager}

/-- A reader that has not started may read any result. -/
theorem Position.restart {result other : List ρ} (h : Position result cancelled pages pager)
    (hdone : pager.done = false) (hzero : pager.nextRow = 0) :
    Position other cancelled pages pager where
  within := hzero ▸ Nat.zero_le _
  rows := by
    have hrows := h.rows
    rw [hzero] at hrows ⊢
    exact hrows
  done := fun htrue => absurd htrue (by simp [hdone])
  said := h.said

/-- A page that adds nothing. -/
theorem Position.idle {result : List ρ} (h : Position result cancelled pages pager) :
    Position result cancelled (pages ++ [([], pager.done)]) pager where
  within := h.within
  rows := by
    rw [delivered, List.flatMap_append]
    exact (List.append_nil _).trans h.rows
  done := h.done
  said := by
    rintro ⟨page, hpage, hdone⟩
    obtain hold | hnew := List.mem_append.mp hpage
    · exact h.said ⟨page, hold, hdone⟩
    · rw [List.mem_singleton.mp hnew] at hdone
      exact hdone

/-- **A page of the result takes the reader on.** -/
theorem Position.fetch {result : QueryResult ρ} {limit : ℕ}
    (h : Position (result.truncated pager.maxRows) cancelled pages pager) (hdone : pager.done = false)
    (hlimit : pager.Allows limit) :
    let rows := result.page limit pager.nextRow
    Position (result.truncated pager.maxRows) cancelled
      (pages ++ [(rows, (pager.advance rows.length limit).done)]) (pager.advance rows.length limit) where
  within := nextRow_advance_le hlimit h.within
  rows := by
    rw [← take_append_page hlimit h.within, delivered, List.flatMap_append, ← h.rows]
    exact congrArg (delivered pages ++ ·) (List.append_nil _)
  done := fun htrue => .inr (done_advance hlimit h.within hdone htrue)
  said := by
    rintro ⟨page, hpage, hsaid⟩
    obtain hold | hnew := List.mem_append.mp hpage
    · exact absurd (h.said ⟨page, hold, hsaid⟩) (by simp [hdone])
    · rw [List.mem_singleton.mp hnew] at hsaid
      exact hsaid

end Reader

section Runs

/-- The result of the query after some requests. -/
def resultAfter (start : CursorSession δ ρ) (inputs : List (CursorInput δ)) : QueryResult ρ :=
  start.cursor.query (run CursorSession.step start inputs).1.contents

/-- What holds along a run: the reader is in the result of some moment, and while it is under way, the
query still has that result. -/
structure Tracks (start : CursorSession δ ρ) (inputs : List (CursorInput δ))
    (pages : List (List ρ × Bool)) (session : CursorSession δ ρ) : Prop where
  query : session.cursor.query = start.cursor.query
  maxRows : session.cursor.pager.maxRows = start.cursor.pager.maxRows
  now : session.contents = (run CursorSession.step start inputs).1.contents
  moment : ∃ before, before <+: inputs ∧
    Position ((resultAfter start before).truncated start.cursor.pager.maxRows)
      (CursorInput.cancel ∈ inputs) pages session.cursor.pager ∧
    (session.cursor.pager.done = false → session.cursor.pager.nextRow ≠ 0 →
      resultAfter start inputs = resultAfter start before)

variable {start session : CursorSession δ ρ} {inputs : List (CursorInput δ)}
  {pages : List (List ρ × Bool)}

theorem resultAfter_concat_fetch (n : Option UInt32) (fails : Bool) :
    resultAfter start (inputs ++ [.fetch n fails]) = resultAfter start inputs := by
  rw [resultAfter, run_concat]
  rfl

/-- A cursor that is not done and is not at its start is in the result that its query has now; at its
start it may as well be. -/
theorem Tracks.current (h : Tracks start inputs pages session)
    (hdone : session.cursor.pager.done = false) :
    Position ((resultAfter start inputs).truncated start.cursor.pager.maxRows)
      (CursorInput.cancel ∈ inputs) pages session.cursor.pager := by
  obtain ⟨before, -, hposition, hsame⟩ := h.moment
  by_cases hzero : session.cursor.pager.nextRow = 0
  · exact hposition.restart hdone hzero
  · rw [hsame hdone hzero]
    exact hposition

theorem Position.mono {result : List ρ} {cancelled cancelled' : Prop} {pager : Pager}
    (h : Position result cancelled pages pager) (himp : cancelled → cancelled') :
    Position result cancelled' pages pager where
  within := h.within
  rows := h.rows
  done := fun hdone => (h.done hdone).imp_left himp
  said := h.said

/-- A request that leaves the reader where it is, and the result if the reader is under way. -/
theorem Tracks.stay (h : Tracks start inputs pages session) {input : CursorInput δ} {contents : δ}
    (hnow : contents = (run CursorSession.step start (inputs ++ [input])).1.contents)
    (hsame : session.cursor.pager.done = false → session.cursor.pager.nextRow ≠ 0 →
      resultAfter start (inputs ++ [input]) = resultAfter start inputs)
    {more : List (List ρ × Bool)} (hmore : more = [] ∨ more = [([], session.cursor.pager.done)]) :
    Tracks start (inputs ++ [input]) (pages ++ more) { session with contents := contents } where
  query := h.query
  maxRows := h.maxRows
  now := hnow
  moment := by
    obtain ⟨before, hbefore, hposition, hunder⟩ := h.moment
    have hlater := hposition.mono (List.mem_append_left [input])
    refine ⟨before, hbefore.trans (List.prefix_append _ _), ?_, fun hdone hnext => ?_⟩
    · obtain rfl | rfl := hmore
      · rw [List.append_nil]
        exact hlater
      · exact hlater.idle
    · rw [hsame hdone hnext]
      exact hunder hdone hnext

/-- The contents after one more request. -/
theorem contents_concat (h : Tracks start inputs pages session) (input : CursorInput δ) :
    (run CursorSession.step start (inputs ++ [input])).1.contents
      = match input with
        | .write change => change session.contents
        | _ => session.contents := by
  rw [run_concat, h.now]
  cases input with
  | write change => rfl
  | fetch n fails => rfl
  | cancel => rfl

/-- One request keeps track, if it does not change the result under the reader. -/
theorem Tracks.step (h : Tracks start inputs pages session) {input : CursorInput δ}
    (hinput : Unchanged session input) :
    Tracks start (inputs ++ [input]) (pages ++ (session.step input).2) (session.step input).1 := by
  have hcontents := contents_concat h input
  cases input with
  | write change =>
    -- a write leaves the rest of the result alone, as assumed, or comes before the first page or behind
    -- the last
    refine h.stay hcontents.symm (fun hdone hnext => ?_) (.inl rfl)
    obtain htrue | hzero | hsame := hinput
    · exact absurd htrue (by simp [hdone])
    · exact absurd hzero hnext
    · unfold resultAfter
      rw [hcontents, ← h.now, ← h.query]
      exact hsame
  | cancel =>
    -- the cursor is done, with the pages that it has given
    exact {
      query := h.query
      maxRows := h.maxRows
      now := hcontents.symm
      moment := by
        obtain ⟨before, hbefore, hposition, -⟩ := h.moment
        refine ⟨before, hbefore.trans (List.prefix_append _ _), ?_, fun hdone => absurd hdone (by simp
          [CursorSession.step, CursorState.cancel])⟩
        change Position _ _ (pages ++ []) _
        rw [List.append_nil]
        exact ⟨hposition.within, hposition.rows, fun _ => .inl (List.mem_append_right _
          List.mem_cons_self), fun _ => rfl⟩ }
  | fetch n fails =>
    have hsame := @resultAfter_concat_fetch δ ρ start inputs n fails
    unfold CursorSession.step CursorState.fetchPage
    dsimp only
    by_cases hdone : session.cursor.pager.done = true
    -- no statement is run: an empty page that says done
    · simp only [hdone, ↓reduceIte]
      exact h.stay hcontents.symm (fun _ _ => hsame) (.inr (by rw [hdone]; rfl))
    · have hfalse : session.cursor.pager.done = false := by simpa using hdone
      simp only [hfalse, Bool.false_eq_true, ↓reduceIte]
      by_cases hlimit : session.cursor.fetchLimit n = 0
      · simp only [hlimit, ↓reduceIte]
        exact h.stay hcontents.symm (fun _ _ => hsame) (.inr (by rw [hfalse]; rfl))
      · simp only [hlimit, ↓reduceIte]
        cases fails with
        -- a statement that fails moves nothing
        | true => exact h.stay hcontents.symm (fun _ _ => hsame) (.inl rfl)
        | false =>
          -- the page continues where the last one ended, for the result is the same one
          have hposition := h.current hfalse
          have hresult : session.cursor.query session.contents = resultAfter start inputs := by
            rw [h.query, h.now]
            rfl
          rw [← h.maxRows] at hposition
          exact {
            query := h.query
            maxRows := h.maxRows
            now := hcontents.symm
            moment := by
              refine ⟨inputs, List.prefix_append _ _, ?_, fun _ _ => hsame⟩
              rw [← h.maxRows, hresult]
              exact (hposition.fetch hfalse (fetchLimit_allows _ n)).mono
                (List.mem_append_left _) }

theorem tracks_start (contents : δ) (query : δ → QueryResult ρ) (fetchSize : Option UInt32)
    (maxRows : Option UInt64) :
    Tracks (.start contents query fetchSize maxRows) [] []
      (.start contents query fetchSize maxRows) where
  query := rfl
  maxRows := rfl
  now := rfl
  moment := by
    refine ⟨[], List.prefix_rfl, ⟨Nat.zero_le _, rfl, fun hdone => .inr ?_, ?_⟩, fun _ _ => rfl⟩
    · obtain rfl : maxRows = some 0 := of_decide_eq_true hdone
      rfl
    · rintro ⟨page, hpage, -⟩
      exact absurd hpage List.not_mem_nil

end Runs

/-- **A cursor shows one result**, that of its query at one moment of the run, if no write between its
first and its last page changes it. -/
theorem cursor_shows_one_result (contents : δ) (query : δ → QueryResult ρ) (fetchSize : Option UInt32)
    (maxRows : Option UInt64) {inputs : List (CursorInput δ)}
    (hinputs : Guarded CursorSession.step Unchanged (.start contents query fetchSize maxRows) inputs) :
    ∃ before, before <+: inputs ∧
      Shows ((query (run CursorSession.step (.start contents query fetchSize maxRows) before).1.contents
          ).truncated maxRows)
        (CursorInput.cancel ∈ inputs)
        (run CursorSession.step (.start contents query fetchSize maxRows) inputs).2 := by
  have htracks : Tracks (.start contents query fetchSize maxRows) inputs
      (run CursorSession.step (.start contents query fetchSize maxRows) inputs).2
      (run CursorSession.step (.start contents query fetchSize maxRows) inputs).1 :=
    run_guarded (H := Tracks (.start contents query fetchSize maxRows))
      (fun _ _ _ _ h hinput => h.step hinput) (tracks_start contents query fetchSize maxRows) hinputs
  obtain ⟨before, hbefore, hposition, -⟩ := htracks.moment
  exact ⟨before, hbefore, hposition.shows⟩

/-- The rows of the first of two tables. -/
def firstTable (tables : List ℕ × List ℕ) : QueryResult ℕ where
  rows := tables.1.take 10
  length_lt := lt_of_le_of_lt (List.length_take_le _ _) (by decide)

/-- A row is read, then there is a write, then the next row is read. -/
def readAround (change : List ℕ × List ℕ → List ℕ × List ℕ) : List (CursorInput (List ℕ × List ℕ)) :=
  [.fetch (some 1) false, .write change, .fetch (some 1) false]

/-- A write to the other table does no harm. -/
theorem cursor_shows_two_rows :
    ∃ before, before <+: readAround (fun tables => (tables.1, 5 :: tables.2)) ∧
      Shows ((firstTable (run CursorSession.step (.start ([1, 2], []) firstTable none none)
          before).1.contents).truncated none)
        (CursorInput.cancel ∈ readAround (fun tables => (tables.1, 5 :: tables.2)))
        (run CursorSession.step (.start ([1, 2], []) firstTable none none)
          (readAround (fun tables => (tables.1, 5 :: tables.2)))).2 := by
  refine cursor_shows_one_result ([1, 2], []) firstTable none none ?_
  have hfetch : ∀ session : CursorSession (List ℕ × List ℕ) ℕ,
      Unchanged session (.fetch (some 1) false) := fun _ => trivial
  refine .cons (hfetch _) (.cons ?_ (.cons (hfetch _) guarded_nil))
  exact .inr (.inr rfl)

/-- A row is inserted before the one that was read, which is then delivered twice. -/
theorem cursor_repeats_row :
    ¬ ∃ before, before <+: readAround (fun tables => (0 :: tables.1, tables.2)) ∧
      Shows ((firstTable (run CursorSession.step (.start ([1, 2], []) firstTable none none)
          before).1.contents).truncated none)
        (CursorInput.cancel ∈ readAround (fun tables => (0 :: tables.1, tables.2)))
        (run CursorSession.step (.start ([1, 2], []) firstTable none none)
          (readAround (fun tables => (0 :: tables.1, tables.2)))).2 := by
  rintro ⟨before, hbefore, hshows⟩
  have hpages : delivered (run CursorSession.step (.start ([1, 2], []) firstTable none none)
      (readAround (fun tables => (0 :: tables.1, tables.2)))).2 = [1, 1] := by decide
  have hfirst := hshows.first
  rw [hpages] at hfirst
  simp only [readAround, ← List.mem_inits, List.inits, List.map_cons, List.map_nil, List.mem_cons,
    List.not_mem_nil, or_false] at hbefore
  obtain rfl | rfl | rfl | rfl := hbefore
  · exact absurd hfirst (by decide)
  · exact absurd hfirst (by decide)
  · exact absurd hfirst (by decide)
  · exact absurd hfirst (by decide)

end Duckdb
end Navop
