import NavopExtensions.Dbipc.Sessions

/-!
# Imports of the Go server

The rows of an import are sent chunk by chunk and inserted at once, each by a statement of its own. Every row
that is sent is counted once, as inserted or as failed, in the reply to its chunk and again in the reply to
the commit, whatever else goes on between the chunks (`imported_rows`). The place of a failed row is one in
its chunk.
-/

namespace Navop
namespace DbipcServer

open History Machine Tables

variable {ρ : Type*}

/-! ### A chunk -/

/-- The places of the rows of a chunk that fail, from some place on. -/
def failedPlaces (answers : Answers ρ) (connID : ℕ) : ℕ → List (Option String) → List ℕ
  | _, [] => []
  | index, row :: rows =>
    (if rowInserted answers connID index row then [] else [index])
      ++ failedPlaces answers connID (index + 1) rows

theorem insertRows_snd (answers : Answers ρ) (connID index : ℕ) (rows : List (Option String)) :
    (insertRows answers connID index rows).2.2 = failedPlaces answers connID index rows ∧
      (insertRows answers connID index rows).2.1
        + (failedPlaces answers connID index rows).length = rows.length := by
  induction rows generalizing index with
  | nil => exact ⟨rfl, rfl⟩
  | cons row rows ih =>
    obtain ⟨hplaces, hlength⟩ := ih (index + 1)
    rw [insertRows, failedPlaces]
    by_cases hinserted : rowInserted answers connID index row = true
    · simp only [if_pos hinserted, List.nil_append, List.length_cons]
      exact ⟨hplaces, by rw [Nat.add_right_comm, hlength]⟩
    · simp only [if_neg hinserted, List.singleton_append, List.length_cons]
      exact ⟨congrArg _ hplaces, by rw [← Nat.add_assoc, hlength]⟩

/-- The places are those of the rows that are not inserted. -/
theorem mem_failedPlaces {answers : Answers ρ} {connID index place : ℕ} {rows : List (Option String)} :
    place ∈ failedPlaces answers connID index rows ↔
      ∃ offset row, rows[offset]? = some row ∧ place = index + offset ∧
        rowInserted answers connID place row = false := by
  induction rows generalizing index with
  | nil => simp [failedPlaces]
  | cons row rows ih =>
    rw [failedPlaces, List.mem_append, ih]
    constructor
    · rintro (h | ⟨offset, other, hother, rfl, hfailed⟩)
      · split at h
        · exact absurd h List.not_mem_nil
        -- the first row has failed, or a later one
        · next hinserted =>
          obtain rfl := List.mem_singleton.1 h
          exact ⟨0, row, rfl, rfl, Bool.eq_false_iff.2 hinserted⟩
      · exact ⟨offset + 1, other, hother, by omega, hfailed⟩
    · rintro ⟨offset, other, hother, rfl, hfailed⟩
      cases offset with
      | zero =>
        obtain rfl := Option.some.inj hother
        exact .inl (by simp [show rowInserted answers connID index row = false from hfailed])
      | succ offset => exact .inr ⟨offset, other, hother, by omega, hfailed⟩

/-- The places go up. -/
theorem sorted_failedPlaces (answers : Answers ρ) (connID index : ℕ) (rows : List (Option String)) :
    (failedPlaces answers connID index rows).Pairwise (· < ·) := by
  induction rows generalizing index with
  | nil => exact .nil
  | cons row rows ih =>
    rw [failedPlaces]
    split
    · exact ih (index + 1)
    · refine .cons (fun place hplace => ?_) (ih (index + 1))
      obtain ⟨offset, -, -, rfl, -⟩ := mem_failedPlaces.1 hplace
      omega

/-! ### What has been sent -/

/-- A chunk that has been answered. -/
structure Chunk where
  sent : ℕ
  inserted : ℕ
  failed : List ℕ

/-- The chunk of an import that a request is. -/
def Event.chunkOf (importID : String) (event : Event ρ) : List Chunk :=
  match event.request, event.reply with
  | .importChunk id rows, .imported inserted failed =>
    if id = importID then [⟨rows.length, inserted, failed⟩] else []
  | _, _ => []

/-- The chunks of an import. -/
def chunks (importID : String) (log : List (Event ρ)) : List Chunk := log.flatMap (Event.chunkOf importID)

/-- The replies count every row once. -/
def Event.Counts (before : List (Event ρ)) (event : Event ρ) : Prop :=
  (∀ importID rows inserted failed, event.request = .importChunk importID rows →
      event.reply = .imported inserted failed →
      inserted + failed.length = rows.length ∧ failed.Pairwise (· < ·) ∧
        ∃ connID, Open before (.import importID) (some connID) ∧ Open before (.conn connID) none ∧
          ∀ place, place ∈ failed ↔ ∃ row, rows[place]? = some row ∧
            (row.isSome = true ∨ event.answers.fails (.insert connID place) = true)) ∧
    ∀ importID inserted failed, event.request = .importCommit importID →
      event.reply = .imported inserted failed →
      inserted = ((chunks importID before).map Chunk.inserted).sum ∧
        failed = (chunks importID before).flatMap Chunk.failed ∧
        inserted + failed.length = ((chunks importID before).map Chunk.sent).sum

/-- What is known of the imports. -/
structure Counted (spec : String) (log : List (Event ρ)) (s : State ρ) : Prop where
  totals : ∀ importID imp, s.imports.lookup importID = some imp →
    imp.inserted = ((chunks importID log).map Chunk.inserted).sum ∧
      imp.failed = (chunks importID log).flatMap Chunk.failed
  given : ∀ importID, chunks importID log ≠ [] → Given spec s (.import importID)
  sent : ∀ importID, ∀ chunk ∈ chunks importID log, chunk.inserted + chunk.failed.length = chunk.sent

section Requests

variable {spec : String} {marshals : ρ → Bool} {quote : String → String} {isPrint : Char → Bool}
  {answers : Answers ρ}
  {s s' : State ρ} {request : Request} {reply : Reply ρ} {log : List (Event ρ)} {importID : String}

theorem chunks_concat (event : Event ρ) :
    chunks importID (log ++ [event]) = chunks importID log ++ event.chunkOf importID := by
  rw [chunks, List.flatMap_append, List.flatMap_singleton, ← chunks]

theorem chunkOf_of_request {event : Event ρ} (h : ∀ rows, event.request ≠ .importChunk importID rows) :
    event.chunkOf importID = [] := by
  unfold Event.chunkOf
  split
  · next hrequest _ => exact if_neg fun hid => h _ (hid ▸ hrequest)
  · rfl

theorem chunkOf_of_refusal {event : Event ρ} (h : event.reply.isRefusal = true) :
    event.chunkOf importID = [] := by
  unfold Event.chunkOf
  split
  · next hreply => rw [hreply] at h; exact absurd h Bool.noConfusion
  · rfl

theorem chunkOf_eq {event : Event ρ} {rows : List (Option String)} {inserted : ℕ} {failed : List ℕ}
    (hrequest : event.request = .importChunk importID rows)
    (hreply : event.reply = .imported inserted failed) :
    event.chunkOf importID = [⟨rows.length, inserted, failed⟩] := by
  unfold Event.chunkOf
  rw [hrequest, hreply]
  exact if_pos rfl

variable (spec marshals quote isPrint answers s) in
/-- A chunk is refused, or its rows are inserted. -/
theorem chunk_cases (importID : String) (rows : List (Option String)) :
    ((handle spec marshals quote isPrint answers s (.importChunk importID rows)).state = s ∧
        (handle spec marshals quote isPrint answers s (.importChunk importID rows)).reply.isRefusal = true) ∨
      ∃ imp inserted failed, s.imports.lookup importID = some imp ∧ imp.connID ∈ s.conns ∧
        (handle spec marshals quote isPrint answers s (.importChunk importID rows)).state
          = { s with imports := s.imports.insert importID { imp with
                inserted := imp.inserted + inserted, failed := imp.failed ++ failed } } ∧
        (handle spec marshals quote isPrint answers s (.importChunk importID rows)).reply
          = .imported inserted failed ∧
        failed = failedPlaces answers imp.connID 0 rows ∧ inserted + failed.length = rows.length := by
  unfold handle
  split
  · exact .inl ⟨rfl, rfl⟩
  dsimp only
  unfold handleDataImportChunk
  cases hlookup : s.imports.lookup importID with
  | none => exact .inl ⟨rfl, rfl⟩
  | some imp =>
    dsimp only
    split
    -- the connection is open: the rows are inserted, and the import counts them
    · next hconn =>
      cases insertError imp with
      | some message => exact .inl ⟨rfl, rfl⟩
      | none =>
        obtain ⟨hfailed, hlength⟩ := insertRows_snd answers imp.connID 0 rows
        exact .inr ⟨imp, _, _, rfl, hconn, rfl, rfl, hfailed, hfailed ▸ hlength⟩
    · exact .inl ⟨rfl, rfl⟩

/-- An import that gets no chunk is an old one, or a new one. -/
theorem Change.import_of_lookup (h : Change spec answers s request s' reply) {imp : Import}
    (hlookup : s'.imports.lookup importID = some imp)
    (hother : ∀ rows, request ≠ .importChunk importID rows) :
    s.imports.lookup importID = some imp ∨
      (importID = importIDOf spec s.nextImport ∧ imp.inserted = 0 ∧ imp.failed = []) := by
  cases h with
  | shutDown => rw [Finmap.lookup_empty] at hlookup; cases hlookup
  | closed =>
    rw [Finmap.lookup_retain] at hlookup
    exact .inl (Option.filter_eq_some_iff.1 hlookup).1
  | importing =>
    -- an import that is there was there before, or it has just begun and has counted nothing
    by_cases hkey : importID = importIDOf spec s.nextImport
    · subst hkey
      rw [Finmap.lookup_insert] at hlookup
      obtain rfl := Option.some.inj hlookup
      exact .inr ⟨rfl, rfl, rfl⟩
    · rw [Finmap.lookup_insert_of_ne _ hkey] at hlookup
      exact .inl hlookup
  | @importSet id =>
    have hkey : importID ≠ id := fun heq => hother _ (by rw [heq])
    rw [Finmap.lookup_insert_of_ne _ hkey] at hlookup
    exact .inl hlookup
  | @importErased request id =>
    by_cases hkey : importID = id
    · subst hkey
      rw [Finmap.lookup_erase] at hlookup
      cases hlookup
    · rw [Finmap.lookup_erase_ne hkey] at hlookup
      exact .inl hlookup
  | _ => exact .inl hlookup

/-- The totals of an import, with one chunk more. -/
theorem totals_concat {event : Event ρ} {imp : Import} {inserted : ℕ} {failed : List ℕ} {sent : ℕ}
    (h : imp.inserted = ((chunks importID log).map Chunk.inserted).sum ∧
      imp.failed = (chunks importID log).flatMap Chunk.failed)
    (hchunk : event.chunkOf importID = [⟨sent, inserted, failed⟩]) :
    imp.inserted + inserted = ((chunks importID (log ++ [event])).map Chunk.inserted).sum ∧
      imp.failed ++ failed = (chunks importID (log ++ [event])).flatMap Chunk.failed := by
  rw [chunks_concat, hchunk, h.1, h.2]
  simp

theorem Counted.step (h : Counted spec log s) (hs : Sound spec s) (input : Answers ρ × Request) :
    Counted spec (log ++ [eventOf spec marshals quote isPrint s input])
      (DbipcServer.step spec marshals quote isPrint s input).1 := by
  obtain ⟨answers, request⟩ := input
  have hchange : Change spec answers s request (handle spec marshals quote isPrint answers s request).state
      (handle spec marshals quote isPrint answers s request).reply := change request
  refine ⟨fun importID imp hlookup => ?_, fun importID hne => ?_, fun importID chunk hchunk => ?_⟩
  -- a chunk of this import is refused and changes nothing, or it is counted; other requests leave the
  -- import alone
  · by_cases hrows : ∃ rows, request = .importChunk importID rows
    · obtain ⟨rows, rfl⟩ := hrows
      rcases chunk_cases spec marshals quote isPrint answers s importID rows with
        ⟨hstate, hrefusal⟩ | ⟨old, inserted, failed, hold, -, hstate, hreply, -, -⟩
      · have hsame : s.imports.lookup importID = some imp := hstate ▸ hlookup
        rw [chunks_concat, chunkOf_of_refusal hrefusal, List.append_nil]
        exact h.totals importID imp hsame
      · have hnew := hlookup
        change (handle spec marshals quote isPrint answers s _).state.imports.lookup importID = _ at hnew
        rw [hstate, Finmap.lookup_insert] at hnew
        obtain rfl := Option.some.inj hnew
        exact totals_concat (h.totals importID old hold) (chunkOf_eq rfl hreply)
    · have hother := not_exists.1 hrows
      rw [chunks_concat, chunkOf_of_request hother, List.append_nil]
      rcases hchange.import_of_lookup hlookup hother with hold | ⟨hid, hinserted, hfailed⟩
      · exact h.totals importID imp hold
      -- a new import has no history, for its id was not given out before
      · have hnew : chunks importID log = [] := not_not.1 fun hne =>
          not_exists_idOf (hid ▸ h.given importID hne)
        rw [hnew, hinserted, hfailed]
        exact ⟨rfl, rfl⟩
  · refine hchange.given ?_
    by_cases hbefore : chunks importID log = []
    · rw [chunks_concat, hbefore, List.nil_append] at hne
      obtain ⟨rows, hrequest⟩ := not_forall_not.1 fun hother => hne (chunkOf_of_request hother)
      obtain rfl : request = .importChunk importID rows := hrequest
      rcases chunk_cases spec marshals quote isPrint answers s importID rows with
        ⟨-, hrefusal⟩ | ⟨old, -, -, hold, -⟩
      · exact absurd (chunkOf_of_refusal hrefusal) hne
      · exact (hs.imports importID old hold).2
    · exact h.given importID hbefore
  -- every chunk says how many of its rows were inserted and how many have failed
  · rw [chunks_concat] at hchunk
    rcases List.mem_append.1 hchunk with hchunk | hchunk
    · exact h.sent importID chunk hchunk
    · obtain ⟨rows, hrequest⟩ := not_forall_not.1 fun hother =>
        List.ne_nil_of_mem hchunk (chunkOf_of_request hother)
      obtain rfl : request = .importChunk importID rows := hrequest
      rcases chunk_cases spec marshals quote isPrint answers s importID rows with
        ⟨-, hrefusal⟩ | ⟨old, inserted, failed, -, -, -, hreply, -, hlength⟩
      · rw [chunkOf_of_refusal hrefusal] at hchunk
        cases hchunk
      · rw [chunkOf_eq rfl hreply] at hchunk
        rw [List.mem_singleton.1 hchunk]
        exact hlength

theorem sum_sent {list : List Chunk} (h : ∀ chunk ∈ list, chunk.inserted + chunk.failed.length = chunk.sent) :
    (list.map Chunk.inserted).sum + (list.flatMap Chunk.failed).length = (list.map Chunk.sent).sum := by
  induction list with
  | nil => rfl
  | cons chunk list ih =>
    have hfirst := h chunk List.mem_cons_self
    have hrest := ih fun other hother => h other (List.mem_cons_of_mem _ hother)
    rw [List.map_cons, List.sum_cons, List.flatMap_cons, List.length_append, List.map_cons, List.sum_cons,
      ← hfirst, ← hrest]
    omega

theorem Counted.counts (h : Counted spec log s) (hagree : Agree spec log s)
    (input : Answers ρ × Request) : (eventOf spec marshals quote isPrint s input).Counts log := by
  obtain ⟨answers, request⟩ := input
  constructor
  -- a chunk: the failed places are those of the rows whose statement fails, in order
  · intro importID rows inserted failed hrequest hreply
    obtain rfl : request = .importChunk importID rows := hrequest
    rcases chunk_cases spec marshals quote isPrint answers s importID rows with
      ⟨-, hrefusal⟩ | ⟨imp, n, places, hlookup, hconn, -, hreply', hplaces, hlength⟩
    · rw [show (handle spec marshals quote isPrint answers s _).reply = _ from hreply] at hrefusal
      cases hrefusal
    · cases hreply'.symm.trans hreply
      refine ⟨hlength, hplaces ▸ sorted_failedPlaces answers imp.connID 0 rows, imp.connID, ?_, ?_, ?_⟩
      · refine (hagree.has_iff _ _).1 ?_
        change (s.imports.lookup importID).map Import.connID = some imp.connID
        rw [hlookup, Option.map_some]
      · exact (hagree.has_iff (.conn imp.connID) none).1 hconn
      · intro place
        rw [hplaces, mem_failedPlaces]
        simp only [Nat.zero_add, rowInserted, Bool.and_eq_false_iff, Option.isNone_eq_false_iff,
          Bool.not_eq_false']
        constructor
        · rintro ⟨offset, row, hrow, rfl, hfailed⟩
          exact ⟨row, hrow, hfailed⟩
        · rintro ⟨row, hrow, hfailed⟩
          exact ⟨place, row, hrow, rfl, hfailed⟩
  -- a commit answers with the sums over all chunks
  · intro importID inserted failed hrequest hreply
    obtain rfl : request = .importCommit importID := hrequest
    have hcommit : (handle spec marshals quote isPrint answers s (.importCommit importID)).reply
        = .imported inserted failed := hreply
    unfold handle at hcommit
    split at hcommit
    · cases hcommit
    · dsimp only at hcommit
      unfold handleDataImportCommit at hcommit
      cases hlookup : s.imports.lookup importID with
      | none => rw [hlookup] at hcommit; cases hcommit
      | some imp =>
        rw [hlookup] at hcommit
        cases hcommit
        obtain ⟨hinserted, hfailed⟩ := h.totals importID imp hlookup
        refine ⟨hinserted, hfailed, ?_⟩
        rw [hinserted, hfailed, sum_sent (h.sent importID)]

end Requests

/-- **Every row of an import is counted once.** In every run, a chunk is inserted on the open connection of
its import, and its reply says how many of its rows were inserted and which were not; the reply to the commit
is the sum of these. -/
theorem imported_rows (spec : String) (marshals : ρ → Bool) (quote : String → String) (isPrint : Char → Bool)
    (inputs : List (Answers ρ × Request)) :
    ∀ before event after, (run (step spec marshals quote isPrint) (newServer ρ) inputs).2
        = before ++ event :: after → event.Counts before := by
  refine run_each (e := eventOf spec marshals quote isPrint)
    (I := fun log s => Counted spec log s ∧ Agree spec log s)
    (G := fun before event => event.Counts before) (fun _ _ => rfl) ?_ ?_
    ⟨⟨?_, ?_, ?_⟩, agree_newServer spec⟩ inputs
  · rintro log s input ⟨h, hagree⟩
    exact ⟨h.step hagree.sound input, hagree.step input⟩
  · rintro log s input ⟨h, hagree⟩
    exact h.counts hagree input
  · intro importID imp h
    change (∅ : Finmap fun _ : String => Import).lookup importID = some imp at h
    rw [Finmap.lookup_empty] at h
    cases h
  · exact fun importID h => absurd rfl h
  · exact fun importID chunk h => absurd h List.not_mem_nil

/-- A database that does not insert the row at place 2 of a chunk. -/
def insertingAnswers : Answers Unit :=
  ⟨fun call => call = .insert 1 2, fun _ => .failed, ⟨[], none⟩, ([], 0), .sorted String, .sorted ℕ⟩

/-- An import of three rows, of which the second one cannot be sent. -/
def importingRows : List (Answers Unit × Request) :=
  [(insertingAnswers, .init none), (insertingAnswers, .connOpen none),
    (insertingAnswers, .importBegin 1 "t" "csv" ["a"]),
    (insertingAnswers, .importChunk "d-import-1" [none, some "invalid base64", none])]

theorem imported_rows_importingRows :
    (eventOf "d" (fun _ => true) id (fun _ => true)
        (run (step "d" (fun _ => true) id (fun _ => true)) (newServer Unit) importingRows).1
        (insertingAnswers, .importCommit "d-import-1")).Counts
      (run (step "d" (fun _ => true) id (fun _ => true)) (newServer Unit) importingRows).2 :=
  imported_rows "d" (fun _ => true) id (fun _ => true)
    (importingRows ++ [(insertingAnswers, .importCommit "d-import-1")])
    _ _ [] rfl

end DbipcServer
end Navop
