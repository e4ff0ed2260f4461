import NavopExtensions.Dbipc.Sessions

/-!
# The rows of a cursor

A query is started once, and its rows are fetched page by page, between any other requests. What has been
delivered is always a part of the rows of the query, in their order and none of them twice, and no more than
the query asked for. Rows go missing where a fetch is answered with an error: the rows that it had read are
not read again. Up to such an error, and until the cursor is closed, what has been delivered is a beginning
of the rows, and all of them as soon as a fetch says that it is the last one (`fetched_rows`).
-/

namespace Navop
namespace DbipcServer

open History Machine Tables

variable {ρ : Type*}

/-! ### A page -/

/-- The rows that can be scanned. -/
def Result.scanned (rows : List (Except String ρ)) : List ρ := rows.filterMap Except.toOption

theorem Result.scanned_map_ok (rows : List ρ) : Result.scanned (rows.map .ok) = rows := by
  rw [scanned, List.filterMap_map]
  exact List.filterMap_some

/-- The number of rows does not exceed what may be fetched. -/
def Within (maxRows : Option ℕ) (fetched : ℕ) : Prop := ∀ most, maxRows = some most → fetched ≤ most

theorem within_succ {maxRows : Option ℕ} {fetched : ℕ} (h : reached maxRows fetched = false) :
    Within maxRows (fetched + 1) := by
  rintro most rfl
  exact Nat.lt_of_not_le fun hle => by simp [reached, hle] at h

theorem eq_of_reached {maxRows : Option ℕ} {fetched : ℕ} (hwithin : Within maxRows fetched)
    (h : reached maxRows fetched = true) : maxRows = some fetched := by
  cases maxRows with
  | none => exact absurd h Bool.noConfusion
  | some most =>
    have hle : most ≤ fetched := by simpa [reached] using h
    rw [Nat.le_antisymm hle (hwithin most rfl)]

/-- What has been delivered is a beginning of the rows, and all that was to be delivered. -/
def Complete (result : Result ρ) (maxRows : Option ℕ) (delivered : List ρ) : Prop :=
  ∃ left, result.rows = delivered.map .ok ++ left ∧
    (maxRows = some delivered.length ∨ (left = [] ∧ result.failure = none))

/-- What a page is: rows that follow one another, and whether they are the last ones. -/
structure Page (failure : Option String) (maxRows : Option ℕ) (n : ℕ) (rows : List (Except String ρ))
    (fetched : ℕ) (left : List (Except String ρ)) (got : List ρ) (done : Bool) (fetched' : ℕ) : Prop where
  rows : rows = got.map .ok ++ left
  fetched : fetched' = fetched + got.length
  within : Within maxRows fetched'
  last : done = true → reached maxRows fetched' = true ∨ (left = [] ∧ failure = none)
  full : done = false → got.length = n

theorem fetchRows_page {failure : Option String} {maxRows : Option ℕ} {n : ℕ}
    {rows left : List (Except String ρ)} {fetched fetched' : ℕ} {out out' : List ρ} {done : Bool}
    (hwithin : Within maxRows fetched)
    (h : fetchRows failure maxRows n rows fetched out = (left, .ok (out', done, fetched'))) :
    ∃ got, out' = out ++ got ∧ Page failure maxRows n rows fetched left got done fetched' := by
  induction n generalizing rows fetched out with
  | zero =>
    obtain ⟨rfl, hread⟩ := Prod.mk.inj h
    cases hread
    exact ⟨[], (List.append_nil _).symm, rfl, rfl, hwithin, .inl, fun _ => rfl⟩
  | succ n ih =>
    rw [fetchRows.eq_def] at h
    dsimp only at h
    -- the limit of the query is reached: the page ends, and says that it is the last one
    by_cases hreached : reached maxRows fetched = true
    · rw [if_pos hreached] at h
      cases h
      exact ⟨[], (List.append_nil _).symm, rfl, rfl, hwithin, fun _ => .inl hreached, nofun⟩
    · rw [if_neg hreached] at h
      cases rows with
      -- no rows are left: the page is the last one, unless the scan has failed
      | nil =>
        cases failure with
        | some error => cases h
        | none =>
          cases h
          exact ⟨[], (List.append_nil _).symm, rfl, rfl, hwithin, fun _ => .inr ⟨rfl, rfl⟩, nofun⟩
      | cons row rows =>
        cases row with
        | error error => cases h
        -- a row is read, and the rest of the page behind it
        | ok row =>
          obtain ⟨got, rfl, hpage⟩ := ih (within_succ (Bool.eq_false_iff.2 hreached)) h
          refine ⟨row :: got, by simp, by simp [hpage.rows], ?_, hpage.within, hpage.last,
            fun hdone => by simp [hpage.full hdone]⟩
          rw [hpage.fetched, List.length_cons]
          omega

/-- What is left is the end of what there was. -/
theorem fetchRows_left {failure : Option String} {maxRows : Option ℕ} {n : ℕ}
    {rows : List (Except String ρ)} {fetched : ℕ} {out : List ρ} :
    ∃ read, rows = read ++ (fetchRows failure maxRows n rows fetched out).1 := by
  induction n generalizing rows fetched out with
  | zero => exact ⟨[], rfl⟩
  | succ n ih =>
    rw [fetchRows.eq_def]
    dsimp only
    split
    · exact ⟨[], rfl⟩
    · cases rows with
      | nil => cases failure <;> exact ⟨[], rfl⟩
      | cons row rows =>
        cases row with
        | error error => exact ⟨[.error error], rfl⟩
        | ok row =>
          obtain ⟨read, hread⟩ := @ih rows (fetched + 1) (out ++ [row])
          exact ⟨.ok row :: read, congrArg (List.cons (.ok row)) hread⟩

/-! ### What has been delivered -/

/-- The rows that a fetch of a cursor is answered with. -/
def Event.rowsOf (cursorID : String) (event : Event ρ) : List ρ :=
  match event.request, event.reply with
  | .cursorFetch id _, .rows rows _ => if id = cursorID then rows else []
  | _, _ => []

/-- What has been delivered of a cursor. -/
def delivered (cursorID : String) (log : List (Event ρ)) : List ρ := log.flatMap (Event.rowsOf cursorID)

/-- The query of a cursor: its result, and how many rows it asks for. -/
def Started (log : List (Event ρ)) (cursorID : String) (result : Result ρ) (maxRows : Option ℕ) : Prop :=
  ∃ event ∈ log, event.reply = .started cursorID ∧ event.answers.result = result ∧
    ∃ connID sql params txID, event.request = .queryStart connID sql params maxRows txID

/-- A fetch of the cursor is answered with an error, or the cursor is closed. -/
def Event.Disturbs (cursorID : String) (event : Event ρ) : Prop :=
  event.request.cursor = some cursorID ∧
    ((∀ n, event.request ≠ .cursorFetch cursorID n) ∨ event.reply.isError = true)

/-- Nothing has come between the fetches of a cursor. -/
def Undisturbed (log : List (Event ρ)) (cursorID : String) : Prop :=
  ∀ event ∈ log, ¬ event.Disturbs cursorID

/-- The rows that have not been read. -/
def Cursor.left (cursor : Cursor ρ) : List (Except String ρ) :=
  match cursor.rows with
  | some result => result.rows
  | none => []

/-- What is known of a cursor in the table: `sent` is what has been delivered of it. -/
structure Progress (result : Result ρ) (maxRows : Option ℕ) (sent : List ρ) (undisturbed : Prop)
    (cursor : Cursor ρ) : Prop where
  most : cursor.maxRows = maxRows
  failure : ∀ rows, cursor.rows = some rows → rows.failure = result.failure
  read : ∃ read, result.rows = read ++ cursor.left ∧ sent.Sublist (Result.scanned read)
  length : sent.length ≤ cursor.fetched
  within : Within maxRows cursor.fetched
  reading : undisturbed → cursor.done = false → ∃ rows, cursor.rows = some rows ∧
    result.rows = sent.map .ok ++ rows.rows ∧ cursor.fetched = sent.length
  finished : undisturbed → cursor.done = true → Complete result maxRows sent

section Progress

variable {result : Result ρ} {maxRows : Option ℕ} {sent : List ρ} {undisturbed : Prop}
  {cursor : Cursor ρ}

theorem progress_new (result : Result ρ) (maxRows : Option ℕ) (connID : ℕ) :
    Progress result maxRows [] undisturbed ⟨connID, some result, maxRows, 0, false⟩ where
  most := rfl
  failure rows h := by rw [← Option.some.inj h]
  read := ⟨[], rfl, List.nil_sublist _⟩
  length := Nat.le_refl 0
  within _ _ := Nat.zero_le _
  reading _ _ := ⟨result, rfl, rfl, rfl⟩
  finished _ h := absurd h Bool.noConfusion

/-- What has been delivered is a part of the rows, and not too much. -/
theorem Progress.sound (h : Progress result maxRows sent undisturbed cursor) :
    sent.Sublist (Result.scanned result.rows) ∧ Within maxRows sent.length := by
  obtain ⟨read, hread, hsublist⟩ := h.read
  refine ⟨?_, fun most hmost => Nat.le_trans h.length (h.within most hmost)⟩
  rw [hread, Result.scanned, List.filterMap_append]
  exact hsublist.trans (List.sublist_append_left _ _)

/-- A cursor that is closed, or disturbed. -/
theorem Progress.close (h : Progress result maxRows sent undisturbed cursor) :
    Progress result maxRows sent False cursor.close where
  most := h.most
  failure _ hrows := nomatch hrows
  read := ⟨result.rows, (List.append_nil _).symm, h.sound.1⟩
  length := h.length
  within := h.within
  reading := False.elim
  finished := False.elim

theorem Progress.mono {undisturbed' : Prop} (h : Progress result maxRows sent undisturbed cursor)
    (himp : undisturbed' → undisturbed) : Progress result maxRows sent undisturbed' cursor where
  most := h.most
  failure := h.failure
  read := h.read
  length := h.length
  within := h.within
  reading hundisturbed := h.reading (himp hundisturbed)
  finished hundisturbed := h.finished (himp hundisturbed)

/-- Rows that are left to be read. -/
theorem Progress.left_eq {rows : Result ρ} (h : Progress result maxRows sent undisturbed cursor)
    (hrows : cursor.rows = some rows) :
    ∃ read, result.rows = read ++ rows.rows ∧ sent.Sublist (Result.scanned read) := by
  obtain ⟨read, hread, hsublist⟩ := h.read
  refine ⟨read, ?_, hsublist⟩
  rw [hread, Cursor.left, hrows]

/-- Rows are read and not delivered: the cursor stays open, or it is done, with its rows or without. -/
theorem Progress.skip {rows : Result ρ} {left : List (Except String ρ)} {fetched : ℕ}
    (h : Progress result maxRows sent undisturbed cursor) (hrows : cursor.rows = some rows)
    (hleft : ∃ read, rows.rows = read ++ left) (hfetched : cursor.fetched ≤ fetched)
    (hwithin : Within maxRows fetched) :
    Progress result maxRows sent False
        { cursor with rows := some { rows with rows := left }, fetched := fetched } ∧
      Progress result maxRows sent False
        { cursor with rows := some { rows with rows := left }, fetched := fetched, done := true } ∧
      Progress result maxRows sent False { cursor with rows := none, fetched := fetched, done := true } := by
  obtain ⟨read, hread, hsublist⟩ := h.left_eq hrows
  obtain ⟨more, hmore⟩ := hleft
  -- rows that were read but not sent are lost, so that what was sent is a part of what was read
  have hleft : ∃ read, result.rows = read ++ left ∧ sent.Sublist (Result.scanned read) := by
    refine ⟨read ++ more, by rw [hread, hmore, List.append_assoc], ?_⟩
    rw [Result.scanned, List.filterMap_append]
    exact hsublist.trans (List.sublist_append_left _ _)
  have hfailure : ∀ rows', some { rows with rows := left } = some rows' → rows'.failure = result.failure :=
    fun _ heq => Option.some.inj heq ▸ h.failure rows hrows
  have hlength := Nat.le_trans h.length hfetched
  exact ⟨⟨h.most, hfailure, hleft, hlength, hwithin, False.elim, False.elim⟩,
    ⟨h.most, hfailure, hleft, hlength, hwithin, False.elim, False.elim⟩,
    ⟨h.most, nofun, ⟨result.rows, (List.append_nil _).symm, h.sound.1⟩, hlength, hwithin, False.elim,
      False.elim⟩⟩

/-- A page is delivered. -/
theorem Progress.page {rows : Result ρ} {n : ℕ} {left : List (Except String ρ)} {got : List ρ}
    {done : Bool} {fetched : ℕ} {cursor' : Cursor ρ}
    (h : Progress result maxRows sent undisturbed cursor) (hrows : cursor.rows = some rows)
    (hdone : cursor.done = false)
    (hpage : Page rows.failure maxRows n rows.rows cursor.fetched left got done fetched)
    (hcursor : (done = false ∧
        cursor' = { cursor with rows := some { rows with rows := left }, fetched := fetched }) ∨
      (done = true ∧ cursor' = { cursor with rows := none, fetched := fetched, done := true })) :
    Progress result maxRows (sent ++ got) undisturbed cursor' := by
  obtain ⟨read, hread, hsublist⟩ := h.left_eq hrows
  have hleft : ∃ read, result.rows = read ++ left ∧ (sent ++ got).Sublist (Result.scanned read) := by
    refine ⟨read ++ got.map .ok, by rw [hread, hpage.rows, List.append_assoc], ?_⟩
    rw [Result.scanned, List.filterMap_append]
    exact hsublist.append (by rw [← Result.scanned, Result.scanned_map_ok])
  have hlength : (sent ++ got).length ≤ fetched := by
    rw [List.length_append, hpage.fetched]
    exact Nat.add_le_add_right h.length _
  -- as long as nothing has disturbed the cursor, what was sent is all that was read
  have hexact : undisturbed → result.rows = (sent ++ got).map .ok ++ left
      ∧ fetched = (sent ++ got).length := by
    intro hundisturbed
    obtain ⟨rows', hrows', hsent, hfetched⟩ := h.reading hundisturbed hdone
    obtain rfl := Option.some.inj (hrows.symm.trans hrows')
    rw [hsent, hpage.rows, hpage.fetched, hfetched, List.length_append, List.map_append,
      List.append_assoc]
    exact ⟨rfl, rfl⟩
  rcases hcursor with ⟨rfl, rfl⟩ | ⟨rfl, rfl⟩
  · exact ⟨h.most, fun _ heq => Option.some.inj heq ▸ h.failure rows hrows, hleft, hlength,
      hpage.within, fun hundisturbed _ => ⟨_, rfl, hexact hundisturbed⟩,
      fun _ hdone' => absurd (hdone'.symm.trans hdone) Bool.noConfusion⟩
  · refine ⟨h.most, nofun, ?_, hlength, hpage.within, nofun, fun hundisturbed _ => ?_⟩
    · obtain ⟨read, hread, hsublist⟩ := hleft
      refine ⟨result.rows, (List.append_nil _).symm, ?_⟩
      rw [hread, Result.scanned, List.filterMap_append]
      exact hsublist.trans (List.sublist_append_left _ _)
    · obtain ⟨hrows', hfetched⟩ := hexact hundisturbed
      refine ⟨left, hrows', ?_⟩
      -- the last page: the limit is reached, or the rows are at their end without a failure
      rcases hpage.last rfl with hreached | ⟨rfl, hfailure⟩
      · rw [← hfetched]
        exact .inl (eq_of_reached hpage.within hreached)
      · exact .inr ⟨rfl, (h.failure rows hrows).symm.trans hfailure⟩

end Progress

/-! ### Requests -/

section Requests

variable {spec : String} {marshals : ρ → Bool} {quote : String → String} {isPrint : Char → Bool}
  {answers : Answers ρ}
  {s s' : State ρ} {request : Request} {reply : Reply ρ} {log : List (Event ρ)} {cursorID : String}

/-- What a fetch comes to: there is nothing to read, or it fails, or a page is delivered. -/
theorem fetch_cases {cursor : Cursor ρ} {result : Result ρ} {maxRows : Option ℕ} {sent : List ρ}
    {undisturbed : Prop} (n : Option ℕ) (hlookup : s.cursors.lookup cursorID = some cursor)
    (h : Progress result maxRows sent undisturbed cursor) :
    ((handleCursorFetch marshals answers s cursorID n).state = s ∧
        (handleCursorFetch marshals answers s cursorID n).reply = .rows [] true ∧
        (undisturbed → Complete result maxRows sent)) ∨
      ∃ cursor', (handleCursorFetch marshals answers s cursorID n).state
          = { s with cursors := s.cursors.insert cursorID cursor' } ∧
        (((handleCursorFetch marshals answers s cursorID n).reply.isError = true ∧
            Progress result maxRows sent False cursor') ∨
          ∃ got done, (handleCursorFetch marshals answers s cursorID n).reply = .rows got done ∧
            Progress result maxRows (sent ++ got) undisturbed cursor' ∧ cursor'.done = done ∧
            (done = false → got.length = requestedRows n)) := by
  unfold handleCursorFetch
  rw [hlookup]
  obtain ⟨connID, rows, most, fetched, done⟩ := cursor
  cases done with
  -- a cursor that is done answers with no rows, and changes nothing
  | true => exact .inl ⟨rfl, rfl, fun hundisturbed => h.finished hundisturbed rfl⟩
  | false =>
    cases rows with
    -- a cursor without rows is disturbed, or it would be reading
    | none =>
      refine .inl ⟨rfl, rfl, fun hundisturbed => ?_⟩
      obtain ⟨rows, hrows, -⟩ := h.reading hundisturbed rfl
      cases hrows
    | some rows =>
      right
      obtain rfl : most = maxRows := h.most
      rcases hread : fetchRows rows.failure most (requestedRows n) rows.rows fetched [] with ⟨left, read⟩
      have hleft : ∃ read, rows.rows = read ++ left := by
        obtain ⟨read, heq⟩ := @fetchRows_left ρ rows.failure most (requestedRows n) rows.rows fetched []
        rw [hread] at heq
        exact ⟨read, heq⟩
      dsimp only
      rw [hread]
      cases read with
      -- the scan has failed: the rows that were read before it are lost
      | error error =>
        exact ⟨_, rfl, .inl ⟨rfl, (h.skip rfl hleft (Nat.le_refl _) h.within).1⟩⟩
      | ok read =>
        obtain ⟨got, done, fetched'⟩ := read
        obtain ⟨got, rfl, hpage⟩ := fetchRows_page h.within hread
        obtain ⟨hopen, hdone, hclosed⟩ := h.skip rfl hleft
          (by rw [hpage.fetched]; exact Nat.le_add_right _ _) hpage.within
        dsimp only [List.nil_append]
        cases done with
        | false =>
          refine ⟨_, rfl, ?_⟩
          -- a page that cannot be marshalled is lost, too
          by_cases hmarshals : got.all marshals = true
          · exact .inr ⟨got, false, if_pos hmarshals, h.page rfl rfl hpage (.inl ⟨rfl, rfl⟩), rfl,
              hpage.full⟩
          · refine .inl ⟨?_, hopen⟩
            simp only [if_neg hmarshals, Bool.false_eq_true, if_false]
            rfl
        | true =>
          -- and so is the last page if the rows cannot be closed
          by_cases hfails : answers.fails (.closeRows cursorID) = true
          · simp only [if_pos hfails, if_true]
            exact ⟨_, rfl, .inl ⟨rfl, hdone⟩⟩
          · simp only [if_neg hfails, if_true]
            refine ⟨_, rfl, ?_⟩
            by_cases hmarshals : got.all marshals = true
            · exact .inr ⟨got, true, if_pos hmarshals, h.page rfl rfl hpage (.inr ⟨rfl, rfl⟩), rfl,
                nofun⟩
            · exact .inl ⟨by rw [if_neg hmarshals]; rfl, hclosed⟩

/-- A cursor that a request is not about is an old one, or the one that it starts. -/
theorem Change.cursor_of_lookup (h : Change spec answers s request s' reply) {cursor : Cursor ρ}
    (hlookup : s'.cursors.lookup cursorID = some cursor) (hother : request.cursor ≠ some cursorID) :
    s.cursors.lookup cursorID = some cursor ∨
      (cursorID = cursorIDOf spec s.nextCursor ∧ reply = .started cursorID ∧
        ∃ connID sql maxRows txID, request = .queryStart connID sql none maxRows txID ∧
          cursor = ⟨connID, some answers.result, maxRows, 0, false⟩) := by
  cases h with
  | shutDown => rw [Finmap.lookup_empty] at hlookup; cases hlookup
  | closed =>
    rw [Finmap.lookup_retain] at hlookup
    exact .inl (Option.filter_eq_some_iff.1 hlookup).1
  | started =>
    -- a cursor that is there was there before, or it is the one that was started
    by_cases hkey : cursorID = cursorIDOf spec s.nextCursor
    · subst hkey
      rw [Finmap.lookup_insert] at hlookup
      exact .inr ⟨rfl, rfl, _, _, _, _, rfl, (Option.some.inj hlookup).symm⟩
    · rw [Finmap.lookup_insert_of_ne _ hkey] at hlookup
      exact .inl hlookup
  | cursorSet _ hcursor =>
    have hkey := fun heq => hother (hcursor.trans (congrArg some (Eq.symm heq)))
    rw [Finmap.lookup_insert_of_ne _ hkey] at hlookup
    exact .inl hlookup
  | cursorErased =>
    have hkey := fun heq => hother (congrArg some (Eq.symm heq))
    rw [Finmap.lookup_erase_ne hkey] at hlookup
    exact .inl hlookup
  | _ => exact .inl hlookup

theorem rowsOf_of_isError {event : Event ρ} (h : event.reply.isError = true) :
    event.rowsOf cursorID = [] := by
  unfold Event.rowsOf
  split
  · next heq => rw [heq] at h; exact absurd h Bool.noConfusion
  · rfl

theorem rowsOf_of_request {event : Event ρ} (h : ∀ n, event.request ≠ .cursorFetch cursorID n) :
    event.rowsOf cursorID = [] := by
  unfold Event.rowsOf
  split
  · next hrequest _ => exact if_neg fun hid => h _ (hid ▸ hrequest)
  · rfl

theorem rowsOf_eq {event : Event ρ} {n : Option ℕ} {rows : List ρ} {done : Bool}
    (hrequest : event.request = .cursorFetch cursorID n) (hreply : event.reply = .rows rows done) :
    event.rowsOf cursorID = rows := by
  unfold Event.rowsOf
  rw [hrequest, hreply]
  exact if_pos rfl

/-- Nothing is delivered of a cursor that is not in the table. -/
theorem handleCursorFetch_none (hlookup : s.cursors.lookup cursorID = none) (n : Option ℕ) :
    handleCursorFetch marshals answers s cursorID n = unknownCursor s cursorID := by
  rw [handleCursorFetch, hlookup]

theorem handle_cursorFetch (cursorID : String) (n : Option ℕ) :
    handle spec marshals quote isPrint answers s (.cursorFetch cursorID n) =
      if s.initialized then handleCursorFetch marshals answers s cursorID n
      else refuse s .notInitialized "init must be called first" := by
  cases h : s.initialized <;> simp [handle, Request.needsInit, h]

/-- A cursor that is closed or cancelled is gone, or closed. -/
theorem cursor_of_closed (hcursor : request.cursor = some cursorID)
    (hfetch : ∀ n, request ≠ .cursorFetch cursorID n) {cursor : Cursor ρ}
    (hlookup : (handle spec marshals quote isPrint answers s request).state.cursors.lookup cursorID
      = some cursor) :
    ∃ old, s.cursors.lookup cursorID = some old ∧ (cursor = old ∧
      (handle spec marshals quote isPrint answers s request).reply.isError = true ∨ cursor = old.close) := by
  unfold handle at hlookup ⊢
  split at hlookup
  · next hserved =>
    rw [if_pos hserved]
    exact ⟨cursor, hlookup, .inl ⟨rfl, rfl⟩⟩
  next hserved =>
    rw [if_neg hserved]
    clear hserved
    cases request with
    | cursorFetch id n => exact absurd (congrArg (Request.cursorFetch · n) (Option.some.inj hcursor)) (hfetch n)
    -- a close that fails leaves the cursor in the table, done
    | cursorClose id =>
      obtain rfl : id = cursorID := Option.some.inj hcursor
      dsimp only at hlookup ⊢
      unfold handleCursorClose at hlookup ⊢
      cases hold : s.cursors.lookup id with
      | none =>
        rw [hold] at hlookup
        exact absurd (hold.symm.trans hlookup) nofun
      | some old =>
        rw [hold] at hlookup
        by_cases hfails : closeCursorFails answers id old = true
        · simp only [if_pos hfails, Finmap.lookup_insert] at hlookup
          exact ⟨old, rfl, .inr (Option.some.inj hlookup).symm⟩
        · simp only [if_neg hfails, Finmap.lookup_erase] at hlookup
          cases hlookup
    -- a cancel leaves it there, done
    | cursorCancel id =>
      obtain rfl : id = cursorID := Option.some.inj hcursor
      dsimp only at hlookup ⊢
      unfold handleCursorCancel at hlookup ⊢
      cases hold : s.cursors.lookup id with
      | none =>
        rw [hold] at hlookup
        exact absurd (hold.symm.trans hlookup) nofun
      | some old =>
        simp only [hold, Finmap.lookup_insert] at hlookup
        exact ⟨old, rfl, .inr (Option.some.inj hlookup).symm⟩
    | _ => cases hcursor

end Requests

/-! ### Runs -/

section Runs

variable {spec : String} {marshals : ρ → Bool} {quote : String → String} {isPrint : Char → Bool} {s : State ρ}
  {log : List (Event ρ)} {cursorID : String}

/-- What is known of the cursors. -/
structure Followed (spec : String) (log : List (Event ρ)) (s : State ρ) : Prop where
  progress : ∀ cursorID cursor, s.cursors.lookup cursorID = some cursor →
    ∃ result maxRows, Started log cursorID result maxRows ∧
      Progress result maxRows (delivered cursorID log) (Undisturbed log cursorID) cursor
  given : ∀ cursorID, delivered cursorID log ≠ [] → Given spec s (.cursor cursorID)

theorem Started.concat {result : Result ρ} {maxRows : Option ℕ} (h : Started log cursorID result maxRows)
    (event : Event ρ) : Started (log ++ [event]) cursorID result maxRows :=
  h.imp fun _ hevent => ⟨List.mem_append_left _ hevent.1, hevent.2⟩

theorem delivered_concat (event : Event ρ) :
    delivered cursorID (log ++ [event]) = delivered cursorID log ++ event.rowsOf cursorID := by
  rw [delivered, List.flatMap_append, List.flatMap_singleton, ← delivered]

theorem Undisturbed.of_concat {event : Event ρ} (h : Undisturbed (log ++ [event]) cursorID) :
    Undisturbed log cursorID := fun earlier hearlier => h earlier (List.mem_append_left _ hearlier)

theorem not_undisturbed {event : Event ρ} (h : event.Disturbs cursorID) :
    ¬ Undisturbed (log ++ [event]) cursorID := fun hundisturbed =>
  hundisturbed event (List.mem_append_right _ (List.mem_singleton.2 rfl)) h

/-- What a fetch that is answered with rows tells. -/
def Event.Delivers (before : List (Event ρ)) (event : Event ρ) : Prop :=
  ∀ cursorID n rows done, event.request = .cursorFetch cursorID n → event.reply = .rows rows done →
    ∃ result maxRows, Started before cursorID result maxRows ∧
      (delivered cursorID before ++ rows).Sublist (Result.scanned result.rows) ∧
      Within maxRows (delivered cursorID before ++ rows).length ∧
      (done = false → rows.length = requestedRows n) ∧
      (Undisturbed before cursorID →
        (∃ left, result.rows = (delivered cursorID before ++ rows).map .ok ++ left) ∧
        (done = true → Complete result maxRows (delivered cursorID before ++ rows)))

/-- Where a fetch is answered with rows, its cursor is in the table. -/
theorem lookup_of_rows {answers : Answers ρ} {n : Option ℕ} {rows : List ρ} {done : Bool}
    (h : (handle spec marshals quote isPrint answers s (.cursorFetch cursorID n)).reply = .rows rows done) :
    ∃ cursor, s.cursors.lookup cursorID = some cursor ∧
      handle spec marshals quote isPrint answers s (.cursorFetch cursorID n)
        = handleCursorFetch marshals answers s cursorID n := by
  rw [handle_cursorFetch] at h ⊢
  split at h
  · next hinitialized =>
    cases hlookup : s.cursors.lookup cursorID with
    | none =>
      rw [handleCursorFetch_none hlookup] at h
      cases h
    | some cursor => exact ⟨cursor, rfl, if_pos hinitialized⟩
  · cases h

theorem Followed.delivers (h : Followed spec log s) (input : Answers ρ × Request) :
    (eventOf spec marshals quote isPrint s input).Delivers log := by
  intro cursorID n rows done hrequest hreply
  obtain ⟨answers, request⟩ := input
  obtain rfl : request = .cursorFetch cursorID n := hrequest
  obtain ⟨cursor, hlookup, hhandle⟩ := lookup_of_rows hreply
  obtain ⟨result, maxRows, hstarted, hprogress⟩ := h.progress cursorID cursor hlookup
  have hreply : (handleCursorFetch marshals answers s cursorID n).reply = .rows rows done :=
    hhandle ▸ hreply
  refine ⟨result, maxRows, hstarted, ?_⟩
  -- the cursor was done, the fetch has failed, or it has read a page
  rcases fetch_cases n hlookup hprogress with ⟨-, hrows, hcomplete⟩ | ⟨cursor', -, herror | hpage⟩
  · cases hrows.symm.trans hreply
    rw [List.append_nil]
    refine ⟨hprogress.sound.1, hprogress.sound.2, nofun, fun hundisturbed => ⟨?_, fun _ =>
      hcomplete hundisturbed⟩⟩
    exact (hcomplete hundisturbed).imp fun _ h => h.1
  · rw [hreply] at herror
    exact absurd herror.1 Bool.noConfusion
  · obtain ⟨got, done', hrows, hprogress', hdone, hfull⟩ := hpage
    cases hrows.symm.trans hreply
    refine ⟨hprogress'.sound.1, hprogress'.sound.2, hfull, fun hundisturbed => ⟨?_, fun hdone' =>
      hprogress'.finished hundisturbed (hdone.trans hdone')⟩⟩
    cases hcursor : cursor'.done with
    | true => exact (hprogress'.finished hundisturbed hcursor).imp fun _ h => h.1
    | false =>
      obtain ⟨rows', -, hleft, -⟩ := hprogress'.reading hundisturbed hcursor
      exact ⟨rows'.rows, hleft⟩

/-- What is known of a cursor after a fetch of it. -/
theorem Followed.fetch (h : Followed spec log s) {answers : Answers ρ} {n : Option ℕ} {cursor : Cursor ρ}
    (hlookup : (handle spec marshals quote isPrint answers s (.cursorFetch cursorID n)).state.cursors.lookup
      cursorID = some cursor) :
    ∃ result maxRows, Started log cursorID result maxRows ∧
      Progress result maxRows
        (delivered cursorID (log ++ [eventOf spec marshals quote isPrint s (answers, .cursorFetch cursorID n)]))
        (Undisturbed (log ++ [eventOf spec marshals quote isPrint s (answers, .cursorFetch cursorID n)]) cursorID)
        cursor := by
  rw [delivered_concat]
  -- An answer that is an error delivers nothing, and disturbs.
  have hfailed : ∀ cursor result maxRows,
      (handle spec marshals quote isPrint answers s (.cursorFetch cursorID n)).reply.isError = true →
      Progress result maxRows (delivered cursorID log) False cursor →
      Progress result maxRows (delivered cursorID log
          ++ (eventOf spec marshals quote isPrint s (answers, .cursorFetch cursorID n)).rowsOf cursorID)
        (Undisturbed (log ++ [eventOf spec marshals quote isPrint s (answers, .cursorFetch cursorID n)]) cursorID)
        cursor := by
    intro cursor result maxRows herror hprogress
    rw [rowsOf_of_isError herror, List.append_nil]
    exact hprogress.mono (not_undisturbed ⟨rfl, .inr herror⟩)
  rw [handle_cursorFetch] at hlookup
  by_cases hinitialized : s.initialized = true
  swap
  · rw [if_neg hinitialized] at hlookup
    obtain ⟨result, maxRows, hstarted, hprogress⟩ := h.progress cursorID cursor hlookup
    refine ⟨result, maxRows, hstarted, hfailed _ _ _ ?_ (hprogress.mono False.elim)⟩
    rw [handle_cursorFetch, if_neg hinitialized]
    rfl
  have hhandle : handle spec marshals quote isPrint answers s (.cursorFetch cursorID n)
      = handleCursorFetch marshals answers s cursorID n := by
    rw [handle_cursorFetch, if_pos hinitialized]
  rw [if_pos hinitialized] at hlookup
  cases hold : s.cursors.lookup cursorID with
  | none =>
    rw [handleCursorFetch_none hold] at hlookup
    exact absurd (hold.symm.trans hlookup) nofun
  | some old =>
    obtain ⟨result, maxRows, hstarted, hprogress⟩ := h.progress cursorID old hold
    refine ⟨result, maxRows, hstarted, ?_⟩
    rcases fetch_cases n hold hprogress with ⟨hstate, hrows, -⟩ | ⟨cursor', hstate, hcases⟩
    · rw [hstate, hold] at hlookup
      obtain rfl := Option.some.inj hlookup
      rw [rowsOf_eq rfl (hhandle ▸ hrows : (handle spec marshals quote isPrint answers s _).reply = _),
        List.append_nil]
      exact hprogress.mono Undisturbed.of_concat
    · rw [hstate, Finmap.lookup_insert] at hlookup
      obtain rfl := Option.some.inj hlookup
      rcases hcases with ⟨herror, hprogress'⟩ | ⟨got, done, hrows, hprogress', -⟩
      · exact hfailed _ _ _ (by rw [hhandle]; exact herror) hprogress'
      · rw [rowsOf_eq rfl (hhandle ▸ hrows : (handle spec marshals quote isPrint answers s _).reply = _)]
        exact hprogress'.mono Undisturbed.of_concat

theorem Followed.step (h : Followed spec log s) (hs : Sound spec s) (input : Answers ρ × Request) :
    Followed spec (log ++ [eventOf spec marshals quote isPrint s input])
      (DbipcServer.step spec marshals quote isPrint s input).1 := by
  obtain ⟨answers, request⟩ := input
  have hchange : Change spec answers s request (handle spec marshals quote isPrint answers s request).state
      (handle spec marshals quote isPrint answers s request).reply := change request
  constructor
  · intro cursorID cursor hlookup
    by_cases hcursor : request.cursor = some cursorID
    -- a request for this cursor: it fetches, and the progress is the page's; or it closes the cursor and
    -- disturbs it
    · by_cases hfetch : ∃ n, request = .cursorFetch cursorID n
      · obtain ⟨n, rfl⟩ := hfetch
        obtain ⟨result, maxRows, hstarted, hprogress⟩ := h.fetch hlookup
        exact ⟨result, maxRows, hstarted.concat _, hprogress⟩
      · have hfetch := not_exists.1 hfetch
        obtain ⟨old, hold, hcases⟩ := cursor_of_closed hcursor hfetch hlookup
        obtain ⟨result, maxRows, hstarted, hprogress⟩ := h.progress cursorID old hold
        refine ⟨result, maxRows, hstarted.concat _, ?_⟩
        rw [delivered_concat, rowsOf_of_request hfetch, List.append_nil]
        have hdisturbs :
            ¬ Undisturbed (log ++ [eventOf spec marshals quote isPrint s (answers, request)]) cursorID :=
          not_undisturbed ⟨hcursor, .inl hfetch⟩
        rcases hcases with ⟨rfl, -⟩ | rfl
        · exact hprogress.mono fun h => (hdisturbs h).elim
        · exact hprogress.close.mono hdisturbs
    -- a request for something else leaves the cursor alone, or starts it
    · have hfetch : ∀ n, request ≠ .cursorFetch cursorID n := fun n heq => hcursor (heq ▸ rfl)
      rcases hchange.cursor_of_lookup hlookup hcursor with hold | ⟨hid, hreply, hquery⟩
      · obtain ⟨result, maxRows, hstarted, hprogress⟩ := h.progress cursorID cursor hold
        refine ⟨result, maxRows, hstarted.concat _, ?_⟩
        rw [delivered_concat, rowsOf_of_request hfetch, List.append_nil]
        exact hprogress.mono Undisturbed.of_concat
      · -- A new cursor has no history.
        obtain ⟨connID, sql, maxRows, txID, rfl, rfl⟩ := hquery
        have hnew : delivered cursorID log = [] := not_not.1 fun hne =>
          not_exists_idOf (hid ▸ h.given cursorID hne)
        refine ⟨answers.result, maxRows, ⟨_, List.mem_append_right _ (List.mem_singleton.2 rfl), hreply,
          rfl, _, _, _, _, rfl⟩, ?_⟩
        rw [delivered_concat, rowsOf_of_request hfetch, List.append_nil, hnew]
        exact progress_new _ _ _
  · intro cursorID hne
    refine hchange.given ?_
    -- rows were delivered for ids only that have been given out
    by_cases hbefore : delivered cursorID log = []
    · rw [delivered_concat, hbefore, List.nil_append] at hne
      obtain ⟨n, hfetch⟩ := not_forall_not.1 fun hfetch => hne (rowsOf_of_request hfetch)
      obtain rfl : request = .cursorFetch cursorID n := hfetch
      cases hlookup : s.cursors.lookup cursorID with
      | some cursor => exact (hs.cursors cursorID cursor hlookup).2
      | none =>
        refine absurd (rowsOf_of_isError ?_) hne
        change (handle spec marshals quote isPrint answers s (.cursorFetch cursorID n)).reply.isError = true
        rw [handle_cursorFetch, handleCursorFetch_none hlookup]
        split <;> rfl
    · exact h.given cursorID hbefore

end Runs

/-- **Rows are delivered in order, and once.** In every run, the rows that a fetch is answered with go on
where the ones before have ended: together they are a part of the rows of the query, and not more than it
asked for. If no fetch of the cursor has failed and it was not closed, they are a beginning of the rows, and
all of them if the fetch says that it is the last one. -/
theorem fetched_rows (spec : String) (marshals : ρ → Bool) (quote : String → String) (isPrint : Char → Bool)
    (inputs : List (Answers ρ × Request)) :
    ∀ before event after, (run (step spec marshals quote isPrint) (newServer ρ) inputs).2
        = before ++ event :: after → event.Delivers before := by
  refine run_each (e := eventOf spec marshals quote isPrint)
    (I := fun log s => Followed spec log s ∧ Sound spec s)
    (G := fun before event => event.Delivers before) (fun _ _ => rfl) ?_ ?_
    ⟨⟨?_, ?_⟩, sound_newServer⟩ inputs
  · rintro log s input ⟨h, hs⟩
    exact ⟨h.step hs input, (change input.2).sound hs⟩
  · rintro log s input ⟨h, -⟩
    exact h.delivers input
  · intro cursorID cursor h
    change (∅ : Finmap fun _ : String => Cursor ρ).lookup cursorID = some cursor at h
    rw [Finmap.lookup_empty] at h
    cases h
  · exact fun cursorID h => absurd rfl h

/-- A result of three rows. -/
def threeRows : Answers Unit := ⟨fun _ => false, fun _ => .failed, ⟨[.ok (), .ok (), .ok ()], none⟩, ([], 0),
  .sorted String, .sorted ℕ⟩

/-- A query that asks for two rows, and is fetched row by row. -/
def querying : List (Answers Unit × Request) :=
  [(threeRows, .init none), (threeRows, .connOpen none), (threeRows, .queryStart 1 "SELECT" none (some 2) ""),
    (threeRows, .cursorFetch "d-cursor-1" (some 1))]

theorem fetched_rows_querying :
    (eventOf "d" (fun _ => true) id (fun _ => true)
        (run (step "d" (fun _ => true) id (fun _ => true)) (newServer Unit) querying).1
        (threeRows, .cursorFetch "d-cursor-1" (some 1))).Delivers
      (run (step "d" (fun _ => true) id (fun _ => true)) (newServer Unit) querying).2 :=
  fetched_rows "d" (fun _ => true) id (fun _ => true)
    (querying ++ [(threeRows, .cursorFetch "d-cursor-1" (some 1))]) _ _ []
    rfl

end DbipcServer
end Navop
