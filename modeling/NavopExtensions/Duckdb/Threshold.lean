import NavopExtensions.Duckdb.Ownership

/-!
# The failure threshold of an import

`abort_on_failures` is looked at in the loop over the rows of a chunk, after every row. The rows that
were inserted before stay in the open transaction, and `data/import_commit` does not look at the
threshold at all: it is only up to the client not to send it. What a request says of a row by itself is
its `Fate`; the fates of the rows decide whether the threshold is honoured (`CommitsFailures`,
`threshold_honoured_iff`).

The counters are kept by every row (`Tally`); they are saturating, so that this is about imports of less
than `2 ^ 64` rows.
-/

namespace Navop
namespace Duckdb

open Machine Saturating

section Threshold

variable (library : Library) (importId : String)

/-- A chunk of an import. -/
def chunkStep (state : ConnectionState) (chunk : List Row × Answers) :
    ConnectionState × List (Except ProtocolError Reply) :=
  step library state (.importChunk importId chunk.1, chunk.2)

/-- The number of rows of the chunks. -/
def rowsOf (chunks : List (List Row × Answers)) : ℕ := (chunks.map fun chunk => chunk.1.length).sum

/-- The failures that a reply reports. -/
def reportedBy : Except ProtocolError Reply → List FailedRow
  | .ok (.importChunk result) => result.failed
  | _ => []

/-- The threshold of an import is honoured: with too many failures a commit makes nothing durable, and
the rows are counted. -/
structure Honoured (state : ConnectionState) (chunks : List (List Row × Answers)) (commit : Answers)
    (importState : ImportState) : Prop where
  aborted : ∀ limit, importState.options.abortOnFailures = some limit →
    limit.toNat < importState.failedCount →
    (handle library (run (chunkStep library importId) state chunks).1 (.importCommit importId)
      commit).1.engine.durable = (run (chunkStep library importId) state chunks).1.engine.durable
  counted : importState.inserted + importState.failedCount = importState.nextRow
  /-- No row is left out as long as no chunk is answered with an error. -/
  whole : (∀ reply ∈ (run (chunkStep library importId) state chunks).2, reply.isOk = true) →
    importState.nextRow = rowsOf chunks
  increasing : (importState.failed.map FailedRow.rowIndex).Pairwise (· < ·)
  reported : (((run (chunkStep library importId) state chunks).2.flatMap reportedBy).map
    FailedRow.rowIndex).Pairwise (· < ·)

/-! ### The fates of rows -/

/-- What becomes of a row that the loop comes to, as long as the transaction is not aborted. -/
inductive Fate
  | inserted
  | failed
  /-- The row fails, and the engine aborts the transaction. -/
  | aborting
  deriving DecidableEq

/-- What becomes of a row of a table of `width` columns, for what the engine says to the statement. -/
def rowFate (width : ℕ) (row : Row) (said : Said) : Fate :=
  match library.values row with
  | .error _ => .failed
  | .ok _ =>
    if row.length ≠ width then .failed
    else if !said.fails then .inserted
    else if said.aborts then .aborting
    else .failed

/-- The fates of the rows of a chunk. When the engine refuses to prepare the statement no row is come
to, but the transaction may be aborted. -/
def chunkFates (width : ℕ) (chunk : List Row × Answers) : List Fate :=
  if chunk.1.isEmpty then []
  else if chunk.2.query.fails then (if chunk.2.query.aborts then [.aborting] else [])
  else chunk.1.zipIdx.map fun row => rowFate library width row.1 (chunk.2.statements row.2)

/-- The number of rows that fail. -/
def failures (fates : List Fate) : ℕ := fates.countP (· ≠ .inserted)

/-- A row with a fate is come to: it is the first of its chunk, or not too many rows before it fail. -/
def Reached (limit : ℕ) (chunks : List (List Fate)) (fate : Fate) : Prop :=
  ∃ earlier rows rest later, chunks = earlier ++ (rows ++ fate :: rest) :: later ∧
    (rows = [] ∨ failures (earlier.flatten ++ rows) ≤ limit)

/-- More rows fail than the options allow, and still there is something to commit, and no reason for the
engine not to commit it. -/
def CommitsFailures (width : ℕ) (options : ImportOptions) (chunks : List (List Row × Answers))
    (commit : Answers) : Prop :=
  ∃ limit, options.abortOnFailures = some limit ∧
    limit.toNat < failures (chunks.map (chunkFates library width)).flatten ∧
    Reached limit.toNat (chunks.map (chunkFates library width)) .inserted ∧
    ¬ Reached limit.toNat (chunks.map (chunkFates library width)) .aborting ∧
    commit.ends.fails = false

/-! ### Counting -/

variable {library importId}

/-- What holds of an import all the time. -/
structure Tally (kept : List Effect) (options : ImportOptions) (engine : Engine Effect)
    (importState : ImportState) : Prop where
  /-- The rows are in the open transaction, and only there. -/
  durable_eq : engine.durable = kept
  pending : ∃ transaction, engine.transaction = some transaction ∧
    transaction.effects.length = importState.inserted
  options_eq : importState.options = options
  counted : importState.inserted + importState.failedCount = importState.nextRow
  increasing : (importState.failed.map FailedRow.rowIndex).Pairwise (· < ·)
  below : ∀ row ∈ importState.failed, row.rowIndex < importState.nextRow

/-- What a statement does to an open transaction. -/
theorem execute_cases {engine : Engine Effect} {transaction : Transaction Effect}
    (hopen : engine.transaction = some transaction) (said : Said) (effects : List Effect) :
    ∃ next, (engine.execute said effects).1 = { engine with transaction := some next } ∧
      ((∃ message, (engine.execute said effects).2 = .error message ∧
          next.effects = transaction.effects) ∨
        ((engine.execute said effects).2 = .ok () ∧ next.effects = transaction.effects ++ effects)) := by
  unfold Engine.execute
  rw [hopen]
  dsimp only
  split
  · exact ⟨transaction, by rw [← hopen], Or.inl ⟨_, rfl, rfl⟩⟩
  · split
    · exact ⟨_, rfl, Or.inl ⟨_, rfl, rfl⟩⟩
    · exact ⟨_, rfl, Or.inr ⟨rfl, rfl⟩⟩

/-- The failure that a row adds to the reported ones. -/
def Insertion.reported : Insertion → List FailedRow
  | .failed (some row) => [row]
  | _ => []

@[simp] theorem failed_record (result : ImportChunkResult) (insertion : Insertion) :
    (result.record insertion).failed = result.failed ++ insertion.reported := by
  obtain _ | _ | row := insertion
  · exact (List.append_nil _).symm
  · exact (List.append_nil _).symm
  · rfl

section Rows

variable {kept : List Effect} {options : ImportOptions} {engine : Engine Effect}
  {importState : ImportState}

/-- A row that fails is counted, and reported with its number. -/
theorem Tally.failRow (h : Tally kept options engine importState)
    (hroom : importState.nextRow + 1 < 2 ^ 64) {next : Engine Effect}
    (hdurable : next.durable = engine.durable)
    (hpending : ∃ transaction, next.transaction = some transaction ∧
      transaction.effects.length = importState.inserted) (message : String) (code : ErrorCode) :
    Tally kept options next (failRow next importState message code).2.1 ∧
      (failRow next importState message code).2.1.nextRow = importState.nextRow + 1 ∧
      (failRow next importState message code).2.1.failed
        = importState.failed ++ (failRow next importState message code).2.2.reported := by
  -- the rows counted are below 2^64, so that no counter saturates
  have hcount : saturatingAdd importState.failedCount 1 = importState.failedCount + 1 :=
    saturatingAdd_of_lt (by have := h.counted; omega)
  have hnext := saturatingAdd_of_lt hroom
  have hcounted := h.counted
  unfold Duckdb.failRow ImportState.recordFailed
  dsimp only
  -- the failure is listed while there is room for it in the sample, and counted in any case
  split
  · refine ⟨?_, hnext, rfl⟩
    exact {
      durable_eq := hdurable.trans h.durable_eq
      pending := hpending
      options_eq := h.options_eq
      counted := by
        change importState.inserted + saturatingAdd _ 1 = saturatingAdd _ 1
        rw [hcount, hnext]
        omega
      increasing := by
        change ((importState.failed ++ [_]).map _).Pairwise _
        rw [List.map_append, List.pairwise_append]
        refine ⟨h.increasing, List.pairwise_singleton _ _, ?_⟩
        intro index hindex last hlast
        obtain ⟨row, hrow, rfl⟩ := List.mem_map.mp hindex
        rw [List.mem_singleton.mp hlast]
        exact h.below row hrow
      below := by
        intro row hrow
        change row.rowIndex < saturatingAdd _ 1
        rw [hnext]
        obtain hold | hnew := List.mem_append.mp hrow
        · exact Nat.lt_succ_of_lt (h.below row hold)
        · rw [List.mem_singleton.mp hnew]
          exact Nat.lt_succ_self _ }
  · refine ⟨?_, hnext, (List.append_nil _).symm⟩
    exact {
      durable_eq := hdurable.trans h.durable_eq
      pending := hpending
      options_eq := h.options_eq
      counted := by
        change importState.inserted + saturatingAdd _ 1 = saturatingAdd _ 1
        rw [hcount, hnext]
        omega
      increasing := h.increasing
      below := fun row hrow => by
        change row.rowIndex < saturatingAdd _ 1
        rw [hnext]
        exact Nat.lt_succ_of_lt (h.below row hrow) }

/-- **Every row is counted once.** -/
theorem Tally.insertRow (h : Tally kept options engine importState)
    (hroom : importState.nextRow + 1 < 2 ^ 64) (row : Row) (said : Said) :
    Tally kept options (insertRow library engine importState row said).1
        (insertRow library engine importState row said).2.1 ∧
      (insertRow library engine importState row said).2.1.nextRow = importState.nextRow + 1 ∧
      (insertRow library engine importState row said).2.1.failed
        = importState.failed ++ (insertRow library engine importState row said).2.2.reported := by
  unfold Duckdb.insertRow
  split
  · exact h.failRow hroom rfl h.pending _ _
  · split
    · exact h.failRow hroom rfl h.pending _ _
    · next values _ =>
      obtain ⟨transaction, hopen, hlength⟩ := h.pending
      obtain ⟨next, hengine, ⟨message, herror, heffects⟩ | ⟨hok, heffects⟩⟩ :=
        execute_cases hopen said [⟨insertSql importState, values⟩]
      · rw [← Prod.mk.eta (p := engine.execute said _), hengine, herror]
        -- a statement that fails adds no effect to the transaction
        have hpending : ∃ transaction,
            ({ engine with transaction := some next } : Engine Effect).transaction = some transaction ∧
              transaction.effects.length = importState.inserted :=
          ⟨next, rfl, by rw [heffects, hlength]⟩
        exact @Tally.failRow kept options engine importState h hroom
          { engine with transaction := some next } rfl hpending _ _
      · rw [← Prod.mk.eta (p := engine.execute said _), hengine, hok]
        have hcounted := h.counted
        -- one more effect and one more inserted row
        have hinserted : saturatingAdd importState.inserted 1 = importState.inserted + 1 :=
          saturatingAdd_of_lt (by omega)
        have hnext := saturatingAdd_of_lt hroom
        refine ⟨?_, hnext, (List.append_nil _).symm⟩
        exact {
          durable_eq := h.durable_eq
          pending := by
            refine ⟨next, rfl, ?_⟩
            change _ = saturatingAdd _ 1
            rw [heffects, hinserted, List.length_append, hlength, List.length_singleton]
          options_eq := h.options_eq
          counted := by
            change saturatingAdd _ 1 + importState.failedCount = saturatingAdd _ 1
            rw [hinserted, hnext]
            omega
          increasing := h.increasing
          below := fun row hrow => by
            change row.rowIndex < saturatingAdd _ 1
            rw [hnext]
            exact Nat.lt_succ_of_lt (h.below row hrow) }

/-- What a chunk does to the counters and to its result. -/
structure Chunk (importState next : ImportState) (rows : ℕ) (already : List FailedRow)
    (result : Except ProtocolError ImportChunkResult) : Prop where
  within : next.nextRow ≤ importState.nextRow + rows
  more : importState.failed <+: next.failed
  whole : ∀ done, result = .ok done → next.nextRow = importState.nextRow + rows ∧
    ∃ new, next.failed = importState.failed ++ new ∧ done.failed = already ++ new

/-- A loop over rows counts every row that it comes to. -/
theorem Tally.insertRows (rows : List Row) (answers : ℕ → Said) (index : ℕ)
    (result : ImportChunkResult) (h : Tally kept options engine importState)
    (hroom : importState.nextRow + rows.length < 2 ^ 64) :
    Tally kept options (insertRows library answers engine importState result index rows).1
        (insertRows library answers engine importState result index rows).2.1 ∧
      Chunk importState (insertRows library answers engine importState result index rows).2.1
        rows.length result.failed
        (insertRows library answers engine importState result index rows).2.2 := by
  induction rows generalizing engine importState result index with
  | nil =>
    refine ⟨h, le_rfl, List.prefix_rfl, ?_⟩
    rintro _ ⟨⟩
    exact ⟨rfl, [], (List.append_nil _).symm, (List.append_nil _).symm⟩
  | cons row rows ih =>
    rw [List.length_cons] at hroom
    -- the first row, and then by induction the rest, unless the threshold ends the chunk here
    obtain ⟨htally, hnext, hfailed⟩ :=
      @Tally.insertRow library kept options engine importState h (by omega) row (answers index)
    unfold Duckdb.insertRows
    dsimp only
    split
    · refine ⟨htally, ?_, ⟨_, hfailed.symm⟩, fun _ herror => Except.noConfusion rfl rfl (heq_of_eq herror)⟩
      rw [hnext, List.length_cons]
      omega
    · obtain ⟨hall, hwithin, hmore, hwhole⟩ := ih (index + 1)
        (result.record (Duckdb.insertRow library engine importState row (answers index)).2.2) htally
        (by omega)
      refine ⟨hall, ?_, List.IsPrefix.trans ⟨_, hfailed.symm⟩ hmore, ?_⟩
      · refine le_trans hwithin ?_
        rw [hnext, List.length_cons]
        omega
      · intro done hdone
        obtain ⟨hcount, new, hnew, hreported⟩ := hwhole done hdone
        refine ⟨hcount.trans (by rw [hnext, List.length_cons]; omega),
          (Duckdb.insertRow library engine importState row (answers index)).2.2.reported ++ new, ?_, ?_⟩
        · rw [hnew, hfailed, List.append_assoc]
        · rw [hreported, failed_record, List.append_assoc]

/-- A chunk keeps the tally. -/
theorem Tally.runImportChunk (rows : List Row) (prepares : Said) (answers : ℕ → Said)
    (h : Tally kept options engine importState)
    (hroom : importState.nextRow + rows.length < 2 ^ 64) :
    Tally kept options (runImportChunk library engine importState rows prepares answers).1
        (runImportChunk library engine importState rows prepares answers).2.1 ∧
      Chunk importState (runImportChunk library engine importState rows prepares answers).2.1
        rows.length [] (runImportChunk library engine importState rows prepares answers).2.2 := by
  unfold Duckdb.runImportChunk
  split
  · next hempty =>
    rw [List.isEmpty_iff.mp hempty]
    refine ⟨h, le_rfl, List.prefix_rfl, ?_⟩
    rintro _ ⟨⟩
    exact ⟨rfl, [], (List.append_nil _).symm, rfl⟩
  · obtain ⟨transaction, hopen, hlength⟩ := h.pending
    obtain ⟨next, hengine, hcases⟩ := execute_cases hopen prepares []
    -- preparing the statement adds no effect
    have heffects : next.effects = transaction.effects := by
      obtain ⟨_, -, heffects⟩ | ⟨-, heffects⟩ := hcases
      · exact heffects
      · rw [heffects, List.append_nil]
    have htally : Tally kept options { engine with transaction := some next } importState :=
      { h with pending := ⟨next, rfl, by rw [heffects, hlength]⟩ }
    rw [← Prod.mk.eta (p := engine.execute prepares []), hengine]
    obtain ⟨message, herror, -⟩ | ⟨hok, -⟩ := hcases
    · rw [herror]
      exact ⟨htally, Nat.le_add_right _ _, List.prefix_rfl,
        fun _ hdone => Except.noConfusion rfl rfl (heq_of_eq hdone)⟩
    · rw [hok]
      exact htally.insertRows rows answers 0 ⟨0, []⟩ hroom

end Rows

/-! ### What the fates say -/

/-- The open transaction of an engine is aborted, or is not. -/
def Engine.Open {ε : Type*} (engine : Engine ε) (aborted : Bool) : Prop :=
  ∃ effects, engine.transaction = some ⟨effects, aborted⟩

theorem Engine.Open.unaborted_iff {ε : Type*} {engine : Engine ε} {aborted : Bool}
    (h : engine.Open aborted) : engine.Unaborted ↔ aborted = false := by
  obtain ⟨effects, hopen⟩ := h
  constructor
  · exact fun hunaborted => hunaborted _ hopen
  · rintro rfl transaction htransaction
    rw [hopen] at htransaction
    cases htransaction
    rfl

/-- An aborted transaction takes no statement. -/
theorem Engine.Open.execute_aborted {ε : Type*} {engine : Engine ε} (h : engine.Open true)
    (said : Said) (effects : List ε) :
    engine.execute said effects = (engine, .error said.message) := by
  obtain ⟨before, hopen⟩ := h
  unfold Engine.execute
  rw [hopen]
  rfl

/-- A statement that fails aborts the transaction or does not; one that succeeds leaves it as it is. -/
theorem Engine.Open.execute {ε : Type*} {engine : Engine ε} (h : engine.Open false)
    (said : Said) (effects : List ε) :
    (engine.execute said effects).1.Open (said.fails && said.aborts) ∧
      (engine.execute said effects).2 = if said.fails then .error said.message else .ok () := by
  obtain ⟨before, hopen⟩ := h
  unfold Engine.execute
  rw [hopen]
  cases hfails : said.fails
  · exact ⟨⟨_, rfl⟩, rfl⟩
  · exact ⟨⟨_, rfl⟩, rfl⟩

@[simp] theorem failures_nil : failures [] = 0 := rfl

theorem failures_cons (fate : Fate) (fates : List Fate) :
    failures (fate :: fates) = failures [fate] + failures fates := by
  unfold failures
  rw [← List.countP_append, List.singleton_append]

theorem failures_append (before after : List Fate) :
    failures (before ++ after) = failures before + failures after := List.countP_append

/-- A row with a fate is come to among the rows of one chunk, when `failed` rows have failed before. -/
def ReachedIn (limit failed : ℕ) (fates : List Fate) (fate : Fate) : Prop :=
  ∃ rows rest, fates = rows ++ fate :: rest ∧ (rows = [] ∨ failed + failures rows ≤ limit)

theorem not_reachedIn_nil (limit failed : ℕ) (fate : Fate) : ¬ ReachedIn limit failed [] fate := by
  rintro ⟨rows, rest, hfates, -⟩
  exact List.append_ne_nil_of_right_ne_nil rows (List.cons_ne_nil fate rest) hfates.symm

/-- The first row is come to, and the others if it does not bring the failures over the limit. -/
theorem reachedIn_cons (limit failed : ℕ) (first : Fate) (fates : List Fate) (fate : Fate) :
    ReachedIn limit failed (first :: fates) fate ↔ first = fate ∨
      failed + failures [first] ≤ limit ∧ ReachedIn limit (failed + failures [first]) fates fate := by
  constructor
  · rintro ⟨rows, rest, hfates, hrows⟩
    cases rows with
    | nil => exact Or.inl (List.cons.inj hfates).1
    | cons row rows =>
      obtain ⟨rfl, hrest⟩ := List.cons.inj hfates
      have hlimit := hrows.resolve_left (List.cons_ne_nil _ _)
      rw [failures_cons, ← Nat.add_assoc] at hlimit
      exact Or.inr ⟨le_trans (Nat.le_add_right _ _) hlimit, rows, rest, hrest, Or.inr hlimit⟩
  · rintro (rfl | ⟨hfirst, rows, rest, rfl, hrows⟩)
    · exact ⟨[], fates, rfl, Or.inl rfl⟩
    · refine ⟨first :: rows, rest, rfl, Or.inr ?_⟩
      rw [failures_cons, ← Nat.add_assoc]
      obtain rfl | hlimit := hrows
      · exact hfirst
      · exact hlimit

theorem not_reached_nil (limit : ℕ) (fate : Fate) : ¬ Reached limit [] fate := by
  rintro ⟨earlier, rows, rest, later, hchunks, -⟩
  exact List.append_ne_nil_of_right_ne_nil earlier (List.cons_ne_nil _ later) hchunks.symm

/-- A row is come to in the chunks before, or in the last one. -/
theorem reached_concat (limit : ℕ) (chunks : List (List Fate)) (chunk : List Fate) (fate : Fate) :
    Reached limit (chunks ++ [chunk]) fate ↔
      Reached limit chunks fate ∨ ReachedIn limit (failures chunks.flatten) chunk fate := by
  constructor
  · rintro ⟨earlier, rows, rest, later, hchunks, hrows⟩
    obtain rfl | ⟨later, last, rfl⟩ := List.eq_nil_or_concat' later
    · obtain ⟨rfl, hlast⟩ := List.append_inj' hchunks rfl
      obtain ⟨rfl, -⟩ := List.cons.inj hlast
      rw [failures_append] at hrows
      exact Or.inr ⟨rows, rest, rfl, hrows⟩
    · rw [← List.cons_append, ← List.append_assoc] at hchunks
      obtain ⟨rfl, -⟩ := List.append_inj' hchunks rfl
      exact Or.inl ⟨earlier, rows, rest, later, rfl, hrows⟩
  · rintro (⟨earlier, rows, rest, later, rfl, hrows⟩ | ⟨rows, rest, rfl, hrows⟩)
    · refine ⟨earlier, rows, rest, later ++ [chunk], ?_, hrows⟩
      rw [← List.cons_append, ← List.append_assoc]
    · refine ⟨chunks, rows, rest, [], rfl, ?_⟩
      rw [failures_append]
      exact hrows

section Fates

variable {limit : UInt32} {width : ℕ} {engine : Engine Effect} {importState : ImportState}

/-- An import that has a limit, with as many columns as the rows should have. -/
structure Limited (limit : UInt32) (width : ℕ) (importState : ImportState) : Prop where
  limit_eq : importState.options.abortOnFailures = some limit
  width_eq : importState.columns.length = width

/-- `failed` rows have failed; past the limit it does not matter how many. -/
def Counts (limit : UInt32) (failed : ℕ) (importState : ImportState) : Prop :=
  min importState.failedCount (limit.toNat + 1) = min failed (limit.toNat + 1)

theorem Counts.exceedsThreshold_iff {failed : ℕ} (h : Counts limit failed importState)
    (hlimited : Limited limit width importState) :
    exceedsThreshold importState = true ↔ limit.toNat < failed := by
  unfold exceedsThreshold
  rw [hlimited.limit_eq]
  unfold Counts at h
  rw [decide_eq_true_iff]
  omega

/-- What a row does to the limit and the counters of an import. -/
structure After (limit : UInt32) (width : ℕ) (importState : ImportState) (fate : Fate)
    (next : ImportState) : Prop where
  limited : Limited limit width next
  counts : ∀ failed, Counts limit failed importState → Counts limit (failed + failures [fate]) next
  inserted_iff : 0 < next.inserted ↔ 0 < importState.inserted ∨ fate = .inserted

theorem After.failRow {fate : Fate} (h : Limited limit width importState) (hfate : fate ≠ .inserted)
    (message : String) (code : ErrorCode) :
    After limit width importState fate (failRow engine importState message code).2.1 := by
  have hlimit : limit.toNat < 2 ^ 32 := limit.toNat_lt
  have hone : failures [fate] = 1 := List.countP_singleton.trans (if_pos (decide_eq_true hfate))
  -- the count saturates far above the limit, which is a 32-bit number
  have hcounts : ∀ failed, Counts limit failed importState →
      min (saturatingAdd importState.failedCount 1) (limit.toNat + 1)
        = min (failed + failures [fate]) (limit.toNat + 1) := by
    intro failed hcounts
    unfold Counts at hcounts
    rw [hone]
    unfold saturatingAdd
    omega
  have hinserted : 0 < importState.inserted ↔ 0 < importState.inserted ∨ fate = .inserted :=
    (or_iff_left hfate).symm
  unfold Duckdb.failRow ImportState.recordFailed
  dsimp only
  split
  · exact ⟨⟨h.limit_eq, h.width_eq⟩, hcounts, hinserted⟩
  · exact ⟨⟨h.limit_eq, h.width_eq⟩, hcounts, hinserted⟩

/-- **A row meets its fate** while the transaction is not aborted. -/
theorem insertRow_fate (hopen : engine.Open false) (h : Limited limit width importState) (row : Row)
    (said : Said) :
    (insertRow library engine importState row said).1.Open
        (decide (rowFate library width row said = .aborting)) ∧
      After limit width importState (rowFate library width row said)
        (insertRow library engine importState row said).2.1 := by
  unfold Duckdb.insertRow rowFate
  rw [h.width_eq]
  cases hvalues : library.values row with
  | error error =>
    -- the row has the wrong length or a wrong value: in both cases it fails
    dsimp only
    split
    · exact ⟨hopen, After.failRow h (by decide) _ _⟩
    · exact ⟨hopen, After.failRow h (by decide) _ _⟩
  | ok values =>
    dsimp only
    split
    · exact ⟨hopen, After.failRow h (by decide) _ _⟩
    · obtain ⟨hnext, hresult⟩ := hopen.execute said [⟨insertSql importState, values⟩]
      rw [← Prod.mk.eta (p := engine.execute said _), hresult]
      cases hfails : said.fails with
      | false =>
        rw [hfails] at hnext
        refine ⟨hnext, ⟨h.limit_eq, h.width_eq⟩, fun failed hcounts => hcounts, ?_⟩
        refine iff_of_true ?_ (Or.inr rfl)
        change 0 < saturatingAdd importState.inserted 1
        unfold saturatingAdd
        omega
      | true =>
        rw [hfails] at hnext
        cases haborts : said.aborts with
        | false =>
          rw [haborts] at hnext
          exact ⟨hnext, After.failRow h (by decide) _ _⟩
        | true =>
          rw [haborts] at hnext
          exact ⟨hnext, After.failRow h (by decide) _ _⟩

theorem insertRow_aborted (hopen : engine.Open true) (row : Row) (said : Said) :
    (insertRow library engine importState row said).1 = engine := by
  unfold Duckdb.insertRow
  split
  · rfl
  · split
    · rfl
    · rw [hopen.execute_aborted]
      rfl

theorem insertRows_aborted (hopen : engine.Open true) (answers : ℕ → Said) (rows : List Row)
    (result : ImportChunkResult) (index : ℕ) :
    (insertRows library answers engine importState result index rows).1 = engine := by
  induction rows generalizing importState result index with
  | nil => rfl
  | cons row rows ih =>
    unfold Duckdb.insertRows
    dsimp only
    rw [insertRow_aborted hopen]
    split
    · rfl
    · exact ih _ _

/-- What some rows do to an import that may be aborted by one of them. -/
structure Follows (limit : UInt32) (width failed : ℕ) (importState : ImportState) (fates : List Fate)
    (engine : Engine Effect) (next : ImportState) : Prop where
  aborted : ReachedIn limit.toNat failed fates .aborting → engine.Open true
  unaborted : ¬ ReachedIn limit.toNat failed fates .aborting →
    engine.Open false ∧ Limited limit width next ∧ Counts limit (failed + failures fates) next ∧
      (0 < next.inserted ↔
        0 < importState.inserted ∨ ReachedIn limit.toNat failed fates .inserted)

/-- **The loop comes to the rows that are to be come to**, by induction on the rows: a row over the limit
ends the loop, and then the rows after it do not matter. -/
theorem follows_insertRows (answers : ℕ → Said) (rows : List Row) (result : ImportChunkResult)
    (index failed : ℕ) (hopen : engine.Open false) (h : Limited limit width importState)
    (hcounts : Counts limit failed importState) :
    Follows limit width failed importState
      ((rows.zipIdx index).map fun row => rowFate library width row.1 (answers row.2))
      (insertRows library answers engine importState result index rows).1
      (insertRows library answers engine importState result index rows).2.1 := by
  induction rows generalizing engine importState result index failed with
  | nil =>
    refine ⟨fun hreached => absurd hreached (not_reachedIn_nil _ _ _), fun _ => ?_⟩
    exact ⟨hopen, h, hcounts, (or_iff_left (not_reachedIn_nil _ _ _)).symm⟩
  | cons row rows ih =>
    obtain ⟨hnext, hafter⟩ := @insertRow_fate library _ _ _ _ hopen h row (answers index)
    have hcount := hafter.counts failed hcounts
    rw [List.zipIdx_cons, List.map_cons]
    dsimp only
    -- only the fate of the row matters from here on
    generalize rowFate library width row (answers index) = fate at hnext hafter hcount ⊢
    unfold Duckdb.insertRows
    dsimp only
    -- the chunk ends when the failures exceed the limit, and then no later row is reached
    by_cases hexceeds : limit.toNat < failed + failures [fate]
    · rw [if_pos ((hcount.exceedsThreshold_iff hafter.limited).mpr hexceeds)]
      have hlast : ∀ fates other, ReachedIn limit.toNat failed (fate :: fates) other ↔ fate = other := by
        intro fates other
        rw [reachedIn_cons]
        exact or_iff_left fun hmore => absurd hmore.1 (Nat.not_le.mpr hexceeds)
      refine ⟨?_, ?_⟩
      · rw [hlast]
        rintro rfl
        exact hnext
      · rw [hlast, hlast]
        intro hfate
        rw [decide_eq_false hfate] at hnext
        refine ⟨hnext, hafter.limited, ?_, hafter.inserted_iff⟩
        unfold Counts at hcount ⊢
        rw [hcount, failures_cons fate (List.map _ _)]
        omega
    · rw [if_neg fun hover => hexceeds ((hcount.exceedsThreshold_iff hafter.limited).mp hover)]
      have hmore : ∀ fates other, ReachedIn limit.toNat failed (fate :: fates) other ↔
          fate = other ∨ ReachedIn limit.toNat (failed + failures [fate]) fates other := by
        intro fates other
        rw [reachedIn_cons]
        exact or_congr_right (and_iff_right (Nat.not_lt.mp hexceeds))
      by_cases haborting : fate = .aborting
      · rw [decide_eq_true haborting] at hnext
        rw [insertRows_aborted hnext]
        exact ⟨fun _ => hnext, fun hnot => absurd ((hmore _ _).mpr (Or.inl haborting)) hnot⟩
      · rw [decide_eq_false haborting] at hnext
        obtain ⟨haborted, hunaborted⟩ := ih (result.record _) (index + 1)
          (failed + failures [fate]) hnext hafter.limited hcount
        refine ⟨fun hreached => ?_, fun hnot => ?_⟩
        · exact haborted (((hmore _ _).mp hreached).resolve_left haborting)
        · rw [hmore] at hnot
          obtain ⟨hstill, hlimited, hall, hinserted⟩ := hunaborted fun hlater => hnot (Or.inr hlater)
          refine ⟨hstill, hlimited, ?_, ?_⟩
          · rwa [failures_cons, ← Nat.add_assoc]
          · rw [hinserted, hafter.inserted_iff, hmore, or_assoc]

/-- A chunk with the fates of its rows. -/
theorem follows_runImportChunk (chunk : List Row × Answers) (failed : ℕ) (hopen : engine.Open false)
    (h : Limited limit width importState) (hcounts : Counts limit failed importState) :
    Follows limit width failed importState (chunkFates library width chunk)
      (runImportChunk library engine importState chunk.1 chunk.2.query chunk.2.statements).1
      (runImportChunk library engine importState chunk.1 chunk.2.query chunk.2.statements).2.1 := by
  -- a chunk that inserts no row leaves the books alone
  have hnothing : ∀ engine : Engine Effect, engine.Open false →
      Follows limit width failed importState [] engine importState := fun engine hopen =>
    ⟨fun hreached => absurd hreached (not_reachedIn_nil _ _ _), fun _ =>
      ⟨hopen, h, hcounts, (or_iff_left (not_reachedIn_nil _ _ _)).symm⟩⟩
  unfold Duckdb.runImportChunk chunkFates
  split
  · exact hnothing engine hopen
  · obtain ⟨hnext, hresult⟩ := hopen.execute chunk.2.query []
    rw [← Prod.mk.eta (p := engine.execute chunk.2.query []), hresult]
    cases hfails : chunk.2.query.fails with
    | false =>
      rw [hfails] at hnext
      exact follows_insertRows chunk.2.statements chunk.1 ⟨0, []⟩ 0 failed hnext h hcounts
    -- preparing the statement can end the transaction before the first row
    | true =>
      rw [hfails] at hnext
      cases haborts : chunk.2.query.aborts with
      | false =>
        rw [haborts] at hnext
        exact hnothing _ hnext
      | true =>
        rw [haborts] at hnext
        exact ⟨fun _ => hnext, fun hnot => absurd ⟨[], [], rfl, Or.inl rfl⟩ hnot⟩

/-- No chunk brings an aborted transaction back. -/
theorem runImportChunk_aborted (hopen : engine.Open true) (chunk : List Row × Answers) :
    (runImportChunk library engine importState chunk.1 chunk.2.query chunk.2.statements).1
      = engine := by
  unfold Duckdb.runImportChunk
  split
  · rfl
  · rw [hopen.execute_aborted]

end Fates

/-! ### Over the chunks of an import -/

/-- What holds after some chunks of an import with a limit: unless a row that is come to has aborted the
transaction, the counters are those of the fates. -/
structure Following (limit : UInt32) (width : ℕ) (chunks : List (List Fate)) (engine : Engine Effect)
    (importState : ImportState) : Prop where
  aborted : Reached limit.toNat chunks .aborting → engine.Open true
  unaborted : ¬ Reached limit.toNat chunks .aborting →
    engine.Open false ∧ Limited limit width importState ∧
      Counts limit (failures chunks.flatten) importState ∧
      (0 < importState.inserted ↔ Reached limit.toNat chunks .inserted)

theorem Following.chunk {limit : UInt32} {width : ℕ} {fates : List (List Fate)}
    {engine : Engine Effect} {importState : ImportState}
    (h : Following limit width fates engine importState) (chunk : List Row × Answers) :
    Following limit width (fates ++ [chunkFates library width chunk])
      (runImportChunk library engine importState chunk.1 chunk.2.query chunk.2.statements).1
      (runImportChunk library engine importState chunk.1 chunk.2.query chunk.2.statements).2.1 := by
  by_cases haborted : Reached limit.toNat fates .aborting
  · have hopen := h.aborted haborted
    rw [← @runImportChunk_aborted library _ importState hopen chunk] at hopen
    exact ⟨fun _ => hopen, fun hnot => absurd ((reached_concat _ _ _ _).mpr (Or.inl haborted)) hnot⟩
  · obtain ⟨hopen, hlimited, hcounts, hinserted⟩ := h.unaborted haborted
    obtain ⟨hnow, hthen⟩ := @follows_runImportChunk library _ _ _ _ chunk _ hopen hlimited hcounts
    refine ⟨fun hreached => ?_, fun hnot => ?_⟩
    · exact hnow (((reached_concat _ _ _ _).mp hreached).resolve_left haborted)
    · rw [reached_concat] at hnot
      obtain ⟨hstill, hlimited, hall, hmore⟩ := hthen fun hlast => hnot (Or.inr hlast)
      refine ⟨hstill, hlimited, ?_, ?_⟩
      · rwa [List.flatten_append, List.flatten_singleton, failures_append]
      · rw [hmore, hinserted, reached_concat]

/-- What holds after some chunks. -/
structure Importing (library : Library) (kept : List Effect) (options : ImportOptions) (width : ℕ)
    (importId : String) (chunks : List (List Row × Answers))
    (replies : List (Except ProtocolError Reply)) (state : ConnectionState)
    (importState : ImportState) : Prop where
  lookup : state.imports.lookup importId = some importState
  tally : Tally kept options state.engine importState
  within : importState.nextRow ≤ rowsOf chunks
  whole : (∀ reply ∈ replies, reply.isOk = true) → importState.nextRow = rowsOf chunks
  /-- What was reported was tracked. -/
  tracked : (replies.flatMap reportedBy).Sublist importState.failed
  following : ∀ limit, options.abortOnFailures = some limit →
    Following limit width (chunks.map (chunkFates library width)) state.engine importState

theorem rowsOf_concat (chunks : List (List Row × Answers)) (chunk : List Row × Answers) :
    rowsOf (chunks ++ [chunk]) = rowsOf chunks + chunk.1.length := by
  unfold rowsOf
  rw [List.map_append, List.sum_append, List.map_singleton, List.sum_singleton]

section Chunks

variable {kept : List Effect} {options : ImportOptions} {width : ℕ} {chunks : List (List Row × Answers)}
  {replies : List (Except ProtocolError Reply)} {state : ConnectionState} {importState : ImportState}

/-- A chunk goes on with the import. -/
theorem Importing.chunk (h : Importing library kept options width importId chunks replies state importState)
    (chunk : List Row × Answers) (hroom : rowsOf (chunks ++ [chunk]) < 2 ^ 64) :
    ∃ next, Importing library kept options width importId (chunks ++ [chunk])
      (replies ++ (chunkStep library importId state chunk).2)
      (chunkStep library importId state chunk).1 next := by
  rw [rowsOf_concat] at hroom
  have hwithin := h.within
  obtain ⟨htally, hcount⟩ := @Tally.runImportChunk library kept options state.engine importState
    chunk.1 chunk.2.query chunk.2.statements h.tally (by omega)
  -- the import is taken out, worked on and put back under its id
  have hstep : chunkStep library importId state chunk
      = (ConnectionState.insertImport { state.removeImport importId with
            engine := (runImportChunk library state.engine importState chunk.1 chunk.2.query
              chunk.2.statements).1 } importId
          (runImportChunk library state.engine importState chunk.1 chunk.2.query
            chunk.2.statements).2.1,
        [(runImportChunk library state.engine importState chunk.1 chunk.2.query
          chunk.2.statements).2.2.map .importChunk]) := by
    unfold chunkStep step
    dsimp only [handle]
    unfold handleDataImportChunk
    rw [h.lookup]
  rw [hstep]
  refine ⟨_, Finmap.lookup_insert _, htally, ?_, ?_, ?_, ?_⟩
  · rw [rowsOf_concat]
    exact le_trans hcount.within (Nat.add_le_add_right hwithin _)
  -- as long as every chunk is answered, all its rows are counted
  · intro hok
    have hbefore := h.whole fun reply hreply => hok reply (List.mem_append_left _ hreply)
    have hnow := hok _ (List.mem_append_right _ (List.mem_singleton_self _))
    cases hresult : (runImportChunk library state.engine importState chunk.1 chunk.2.query
        chunk.2.statements).2.2 with
    | error error =>
      rw [hresult] at hnow
      exact absurd hnow Bool.false_ne_true
    | ok done => rw [(hcount.whole done hresult).1, hbefore, rowsOf_concat]
  -- the failures of an answered chunk follow those reported before
  · rw [List.flatMap_append, List.flatMap_singleton]
    cases hresult : (runImportChunk library state.engine importState chunk.1 chunk.2.query
        chunk.2.statements).2.2 with
    | error error =>
      change List.Sublist (_ ++ []) _
      rw [List.append_nil]
      exact h.tracked.trans hcount.more.sublist
    | ok done =>
      obtain ⟨-, new, hnew, hreported⟩ := hcount.whole done hresult
      change List.Sublist (_ ++ done.failed) _
      rw [hnew, hreported, List.nil_append]
      exact h.tracked.append (List.Sublist.refl new)
  · intro limit hlimit
    rw [List.map_append]
    exact (h.following limit hlimit).chunk chunk

/-- Any chunks go on with the import. -/
theorem Importing.run (h : Importing library kept options width importId [] [] state importState)
    (hrows : rowsOf chunks < 2 ^ 64) :
    ∃ next, Importing library kept options width importId chunks
      (run (chunkStep library importId) state chunks).2 (run (chunkStep library importId) state chunks).1 next := by
  refine @run_history _ _ _ (chunkStep library importId)
    (fun chunks replies state =>
      ∃ next, Importing library kept options width importId chunks replies state next)
    (fun chunks => rowsOf chunks < 2 ^ 64) ?_ ?_ state ⟨importState, h⟩ chunks hrows
  · intro chunks chunk hlt
    rw [rowsOf_concat] at hlt
    exact lt_of_le_of_lt (Nat.le_add_right _ _) hlt
  · rintro chunks replies state chunk ⟨next, hnext⟩ hlt
    exact hnext.chunk chunk hlt

/-- What a commit makes durable. -/
theorem durable_commit_iff
    (h : Importing library kept options width importId chunks replies state importState)
    (commit : Answers) :
    (handle library state (.importCommit importId) commit).1.engine.durable = state.engine.durable ↔
      ¬ (0 < importState.inserted ∧ commit.ends.fails = false ∧ state.engine.Unaborted) := by
  obtain ⟨transaction, hopen, hlength⟩ := h.tally.pending
  -- the engine sees one COMMIT, whatever the handler answers
  have hhandle : (handle library state (.importCommit importId) commit).1.engine
      = (state.engine.commit commit.ends).1 := by
    change (handleDataImportCommit state importId commit).1.engine = _
    unfold handleDataImportCommit
    rw [h.lookup]
    dsimp only [ConnectionState.removeImport]
    split
    · next heq => rw [heq]
    · next heq => rw [heq]
  rw [hhandle]
  -- the effects of the transaction are the inserted rows, so that nothing is kept exactly if there are
  -- none
  by_cases haccepts : commit.ends.fails = false ∧ state.engine.Unaborted
  · obtain ⟨hfails, hunaborted⟩ := haccepts
    rw [commit_ok hopen (hunaborted transaction hopen) hfails]
    change state.engine.durable ++ transaction.effects = _ ↔ _
    rw [List.append_right_eq_self, ← List.length_eq_zero_iff, hlength]
    constructor
    · rintro hzero ⟨hpos, -⟩
      omega
    · intro hnot
      by_contra hne
      exact hnot ⟨Nat.pos_of_ne_zero hne, hfails, hunaborted⟩
  · refine iff_of_true ?_ fun hboth => haccepts hboth.2
    obtain ⟨message, hcommit⟩ | ⟨other, hother, haborted, hcommit⟩ :=
      commit_cases state.engine commit.ends
    · rw [hcommit]
    · exfalso
      refine haccepts ⟨?_, fun third hthird => ?_⟩
      · by_contra hfails
        rw [Bool.not_eq_false] at hfails
        simp only [Engine.commit, hother, hfails, Bool.true_or, ↓reduceIte, Prod.mk.injEq] at hcommit
        exact Except.noConfusion rfl rfl (heq_of_eq hcommit.2)
      · rw [hother] at hthird
        cases hthird
        exact haborted

end Chunks

/-- A commit makes something durable when the counters say so, and the counters are those of the fates. -/
theorem exceeds_iff (h : Importing library kept options width importId chunks replies state importState)
    {limit : UInt32} (hlimit : options.abortOnFailures = some limit) :
    (limit.toNat < importState.failedCount ∧ 0 < importState.inserted ∧ state.engine.Unaborted) ↔
      limit.toNat < failures (chunks.map (chunkFates library width)).flatten ∧
        Reached limit.toNat (chunks.map (chunkFates library width)) .inserted ∧
        ¬ Reached limit.toNat (chunks.map (chunkFates library width)) .aborting := by
  have hfollowing := h.following limit hlimit
  by_cases haborted : Reached limit.toNat (chunks.map (chunkFates library width)) .aborting
  · refine iff_of_false ?_ fun hnot => hnot.2.2 haborted
    rintro ⟨-, -, hunaborted⟩
    exact Bool.noConfusion ((hfollowing.aborted haborted).unaborted_iff.mp hunaborted)
  · obtain ⟨hopen, -, hcounts, hinserted⟩ := hfollowing.unaborted haborted
    rw [hopen.unaborted_iff, hinserted]
    unfold Counts at hcounts
    have hexceeds : limit.toNat < importState.failedCount ↔
        limit.toNat < failures (chunks.map (chunkFates library width)).flatten := by
      omega
    rw [hexceeds]
    exact ⟨fun hall => ⟨hall.1, hall.2.1, haborted⟩, fun hall => ⟨hall.1, hall.2.1, rfl⟩⟩

/-- A successful `data/import_begin` starts an import. -/
theorem importing_begin {before : ConnectionState} {params : ImportBeginParams} {answers : Answers}
    (h : (handle library before (.importBegin params) answers).2 = .ok (.importBegin importId)) :
    ∃ columns importState, importColumns params answers.tableColumns = .ok columns ∧
      Importing library (handle library before (.importBegin params) answers).1.engine.durable
        params.options columns.length importId [] []
        (handle library before (.importBegin params) answers).1 importState := by
  change (handleDataImportBegin before params answers).2 = _ at h
  change ∃ columns importState, importColumns params answers.tableColumns = .ok columns ∧
    Importing library (handleDataImportBegin before params answers).1.engine.durable params.options
      columns.length importId [] [] (handleDataImportBegin before params answers).1 importState
  unfold handleDataImportBegin at h ⊢
  split at h
  · cases h
  · split at h
    · cases h
    · next engine hquery =>
      split at h
      · cases h
      · next columns hcolumns =>
        obtain ⟨message, hbegin⟩ | ⟨-, -, hbegin⟩ := begin_cases engine answers.begins
        · rw [hbegin] at h
          cases h
        · rw [hbegin] at h
          cases h
          rw [hbegin]
          refine ⟨columns, _, hcolumns, Finmap.lookup_insert _, ?_, le_rfl, fun _ => rfl,
            List.Sublist.refl _, fun limit hlimit => ?_⟩
          -- the books of an import without a chunk
          · exact ⟨rfl, ⟨_, rfl, rfl⟩, rfl, rfl, List.Pairwise.nil,
              fun row hrow => absurd hrow List.not_mem_nil⟩
          · refine ⟨fun hreached => absurd hreached (not_reached_nil _ _), fun _ => ?_⟩
            exact ⟨⟨[], rfl⟩, ⟨hlimit, rfl⟩, rfl, iff_of_false (lt_irrefl 0) (not_reached_nil _ _)⟩

/-- **When the failure threshold is honoured**: unless more rows fail than are allowed, a row that can be
inserted is come to and none that aborts the transaction, and the engine accepts the commit. -/
theorem threshold_honoured_iff {before : ConnectionState} {params : ImportBeginParams}
    {answers : Answers}
    (hbegin : (handle library before (.importBegin params) answers).2 = .ok (.importBegin importId))
    {chunks : List (List Row × Answers)} (hrows : rowsOf chunks < 2 ^ 64) (commit : Answers) :
    let begun := (handle library before (.importBegin params) answers).1
    ∃ columns importState, importColumns params answers.tableColumns = .ok columns ∧
      (run (chunkStep library importId) begun chunks).1.imports.lookup importId = some importState ∧
      (Honoured library importId begun chunks commit importState ↔
        ¬ CommitsFailures library columns.length params.options chunks commit) := by
  intro begun
  obtain ⟨columns, first, hcolumns, hfirst⟩ := importing_begin hbegin
  obtain ⟨importState, himporting⟩ :=
    @Importing.run library importId _ _ columns.length chunks _ _ hfirst hrows
  have hdurable := durable_commit_iff himporting commit
  have htally := himporting.tally
  refine ⟨columns, importState, hcolumns, himporting.lookup, ?_⟩
  constructor
  -- the limit was passed, and the COMMIT made the rows before it durable all the same
  · rintro hhonoured ⟨limit, hlimit, hfails, hreached, hunaborted, hends⟩
    obtain ⟨hexceeds, hinserted, hengine⟩ :=
      (exceeds_iff himporting hlimit).mpr ⟨hfails, hreached, hunaborted⟩
    have hoptions : importState.options.abortOnFailures = some limit := by
      rw [htally.options_eq]
      exact hlimit
    exact hdurable.mp (hhonoured.aborted limit hoptions hexceeds) ⟨hinserted, hends, hengine⟩
  · intro hnot
    exact {
      -- if something became durable past the limit, these options, rows and answers are the ones ruled
      -- out
      aborted := by
        intro limit hlimit hexceeds
        rw [htally.options_eq] at hlimit
        refine hdurable.mpr fun hcommits => hnot ?_
        obtain ⟨hfails, hreached, hunaborted⟩ :=
          (exceeds_iff himporting hlimit).mp ⟨hexceeds, hcommits.1, hcommits.2.2⟩
        exact ⟨limit, hlimit, hfails, hreached, hunaborted, hcommits.2.1⟩
      counted := htally.counted
      whole := himporting.whole
      increasing := htally.increasing
      reported := htally.increasing.sublist (himporting.tracked.map _) }

end Threshold

/-- An import that is to have no failures, of a row without values, which fails, and of a row that would be
inserted: the second row is not come to, and the commit makes nothing durable. -/
theorem threshold_honoured_row :
    let begun := (handle plainLibrary .withConn (importIntoT (some 0)) .yes).1
    let chunks := [([[], [.i64 1]], Answers.yes)]
    ∃ importState, (run (chunkStep plainLibrary "i-1") begun chunks).1.imports.lookup "i-1"
        = some importState ∧
      0 < importState.failedCount ∧ Honoured plainLibrary "i-1" begun chunks .yes importState := by
  intro begun chunks
  have hbegin : (handle plainLibrary .withConn (importIntoT (some 0)) .yes).2
      = .ok (.importBegin "i-1") := by
    decide +kernel
  obtain ⟨columns, importState, hcolumns, hlookup, hiff⟩ :=
    @threshold_honoured_iff plainLibrary "i-1" _ _ _ hbegin chunks (by decide) .yes
  refine ⟨importState, hlookup, ?_, hiff.mpr ?_⟩
  · have hcount : ((run (chunkStep plainLibrary "i-1") begun chunks).1.imports.lookup "i-1").map
        (fun importState => importState.failedCount) = some 1 := by
      decide +kernel
    obtain ⟨other, hother, hfailed⟩ := Option.map_eq_some_iff.mp hcount
    rw [Option.some.inj (hlookup.symm.trans hother), hfailed]
    exact Nat.one_pos
  · rintro ⟨limit, hlimit, -, hreached, -⟩
    cases hlimit
    have hcolumn : columns = ["a"] := (Except.ok.inj hcolumns).symm
    -- the row without a value fails, the next one goes in, and only an engine that aborts would be
    -- reached
    have hfates : chunks.map (chunkFates plainLibrary 1) = [] ++ [[.failed, .inserted]] := by
      decide +kernel
    rw [hcolumn, List.length_singleton, hfates, reached_concat, reachedIn_cons] at hreached
    obtain hnone | hfirst | ⟨hsecond, -⟩ := hreached
    · exact not_reached_nil _ _ hnone
    · exact Fate.noConfusion hfirst
    · revert hsecond
      decide

/-- An import that is to have no failures, of a row that is inserted and of a row without values, which
fails: its commit makes the first row durable. -/
theorem exceeded_import_committed :
    let begun := (handle plainLibrary .withConn (importIntoT (some 0)) .yes).1
    let chunks := [([[.i64 1], []], Answers.yes)]
    ∃ importState,
      (run (chunkStep plainLibrary "i-1") begun chunks).1.imports.lookup "i-1" = some importState ∧
      ¬ Honoured plainLibrary "i-1" begun chunks .yes importState := by
  intro begun chunks
  have hcounts : ((run (chunkStep plainLibrary "i-1") begun chunks).1.imports.lookup "i-1").map
      (fun importState => (importState.options.abortOnFailures, importState.failedCount))
        = some (some 0, 1) := by
    decide +kernel
  obtain ⟨importState, hlookup, hcounts⟩ := Option.map_eq_some_iff.mp hcounts
  have hlimit : importState.options.abortOnFailures = some 0 := congrArg Prod.fst hcounts
  have hfailed : importState.failedCount = 1 := congrArg Prod.snd hcounts
  refine ⟨importState, hlookup, fun hhonoured => ?_⟩
  have hdurable := hhonoured.aborted 0 hlimit (by rw [hfailed]; decide)
  have hlength := congrArg List.length hdurable
  have hbefore : (run (chunkStep plainLibrary "i-1") begun chunks).1.engine.durable.length = 0 := by
    decide +kernel
  -- one row is durable although one failure exceeds a limit of none
  have hafter : (handle plainLibrary (run (chunkStep plainLibrary "i-1") begun chunks).1
      (.importCommit "i-1") .yes).1.engine.durable.length = 1 := by
    decide +kernel
  rw [hbefore, hafter] at hlength
  exact Nat.one_ne_zero hlength

end Duckdb
end Navop
