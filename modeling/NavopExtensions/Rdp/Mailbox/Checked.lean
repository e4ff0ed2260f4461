import NavopExtensions.Lib.Fallible
import NavopExtensions.Rdp.Mailbox

/-!
# Queueing a delta ends without a panic

The functions of the mailbox once more, with everything spelled out that could go wrong in them: a
subtraction below zero, a division by zero, a slice that begins behind its end, and a loop that does not
end. Each of them settles at what the mailbox's own function returns, for all queues, deltas and caps,
also where a payload is shorter than its rectangles announce.

The bands of an entry are cut from its beginning, so that the place of the next one lies inside the
pixels when it is the first that they do not hold (`bandsBody_settles`). The folding loop goes on only
while the shape of the queue shrinks (`foldBody_descends`), which ends it.
-/

namespace Navop
namespace Rdp
namespace Mailbox

open Loop

/-! ### Parts of an entry -/

/-- The row loop of `push_band`. -/
def copyRowsChecked (slice : ℕ → Checked (Option (List UInt8))) :
    List ℕ → Checked (Option (List UInt8))
  | [] => pure (some [])
  | row :: rows => do
    match ← slice row with
    | none => pure none
    | some bytes => return (← copyRowsChecked slice rows).map (bytes ++ ·)

/-- `push_band`: the subtractions may not go below zero, and the slices have to be there. -/
def pushBandChecked (rect : HelperFrameRect) (pixels : List UInt8)
    (rowStart rowEnd columnStart columnEnd : ℕ) : Checked (List DeltaEntry) := do
  if rowStart ≥ rowEnd ∨ columnStart ≥ columnEnd then return []
  let stride := rect.width.toNat * 4
  let bandWidth ← sub columnEnd columnStart
  let rows ← sub rowEnd rowStart
  let slice := fun row => do
    let row ← sub row rect.y.toNat
    let column ← sub columnStart rect.x.toNat
    let start := row * stride + column * 4
    return getRange pixels start (start + bandWidth * 4)
  match ← copyRowsChecked slice (List.range' rowStart rows) with
  | none => return []
  | some band =>
    return [({ x := UInt16.ofNat columnStart
               y := UInt16.ofNat rowStart
               width := UInt16.ofNat bandWidth
               height := UInt16.ofNat rows
               byteLen := band.length }, band)]

/-- `trim_covered_pixels`: the four bands, with each sum and difference checked. -/
def trimCoveredPixelsChecked (rect : HelperFrameRect) (pixels : List UInt8) (cover : HelperFrameRect) :
    Checked (List DeltaEntry) := do
  let rectLeft := rect.x.toNat
  let rectTop := rect.y.toNat
  let rectRight := rectLeft + rect.width.toNat
  let rectBottom := rectTop + rect.height.toNat
  let coverLeft := cover.x.toNat
  let coverTop := cover.y.toNat
  let coverRight := coverLeft + cover.width.toNat
  let coverBottom := coverTop + cover.height.toNat
  let left := max coverLeft rectLeft
  let top := max coverTop rectTop
  let right := min coverRight rectRight
  let bottom := min coverBottom rectBottom
  if left ≥ right ∨ top ≥ bottom then return [(rect, pixels)]
  let above ← pushBandChecked rect pixels rectTop top rectLeft rectRight
  let below ← pushBandChecked rect pixels bottom rectBottom rectLeft rectRight
  let before ← pushBandChecked rect pixels top bottom rectLeft left
  let after ← pushBandChecked rect pixels top bottom right rectRight
  return above ++ below ++ before ++ after

/-- One cover of `fold_payload`: every entry is trimmed, or none when there are too many. -/
def foldCoverChecked (entries : List DeltaEntry) (cover : DeltaEntry) : Checked (List DeltaEntry) :=
  if entries.length > maxMergedDeltaRects then pure (entries ++ [cover])
  else do
    let parts ← entries.mapM fun entry => trimCoveredPixelsChecked entry.1 entry.2 cover.1
    return parts.flatten ++ [cover]

/-- `fold_payload`: it stops at the first cover whose arithmetic fails. -/
def foldPayloadChecked (entries covers : List DeltaEntry) : Checked (List DeltaEntry) :=
  covers.foldlM foldCoverChecked entries

/-! ### Deltas -/

/-- `merge_deltas`: deltas of two sizes are not merged. -/
def mergeDeltasChecked (previous next : HelperEvent) : Checked HelperEvent :=
  match previous, next with
  | .frameBgraRects width height rects bgra,
      .frameBgraRects nextWidth nextHeight nextRects nextBgra =>
    if width = nextWidth ∧ height = nextHeight then do
      let entries ← foldPayloadChecked (splitPayload rects bgra) (splitPayload nextRects nextBgra)
      return .frameBgraRects width height (joinPayload entries).1 (joinPayload entries).2
    else pure (.frameBgraRects nextWidth nextHeight nextRects nextBgra)
  | _, next => pure next

/-- `normalize_delta`: other events have no payload to check. -/
def normalizeDeltaChecked : HelperEvent → Checked HelperEvent
  | .frameBgraRects width height rects bgra => do
    let entries ← foldPayloadChecked [] (splitPayload rects bgra)
    return .frameBgraRects width height (joinPayload entries).1 (joinPayload entries).2
  | event => pure event

/-- The body of the loop of `split_entry_into_bands`: the next row, and the bands so far. -/
def bandsBody (rect : HelperFrameRect) (pixels : List UInt8) (rowsPerBand : ℕ)
    (state : ℕ × List DeltaEntry) : Checked ((ℕ × List DeltaEntry) ⊕ List DeltaEntry) := do
  let (row, bands) := state
  let stride := rect.width.toNat * 4
  let height := rect.height.toNat
  if row < height then
    let rows := min rowsPerBand (← sub height row)
    let start := row * stride
    match getRange pixels start (start + rows * stride) with
    | none =>
      let rows ← sub height row
      let left ← sub pixels.length start
      return .inr (bands ++ [(bandRect rect row rows left, ← sliceFrom pixels start)])
    | some band => return .inl (row + rows, bands ++ [(bandRect rect row rows band.length, band)])
  else return .inr bands

/-- `split_entry_into_bands`: a stride of zero is ruled out before it divides. -/
def splitEntryIntoBandsChecked (fuel : ℕ) (entry : DeltaEntry) (cap : ℕ) :
    Checked (List DeltaEntry) := do
  let stride := entry.1.width.toNat * 4
  if stride = 0 ∨ entry.2.length ≤ cap then return [entry]
  let rows ← div cap stride
  run (bandsBody entry.1 entry.2 (max rows 1)) fuel (0, [])

/-- `split_delta_into_chunks`: the bands of every entry, and then the chunks. -/
def splitDeltaIntoChunksChecked (fuel : ℕ) (event : HelperEvent) (cap : ℕ) :
    Checked (List HelperEvent) :=
  match event with
  | .frameBgraRects width height rects bgra => do
    let bands ← (splitPayload rects bgra).mapM (splitEntryIntoBandsChecked fuel · cap)
    return (chunkEntries cap [] 0 bands.flatten).map (frameChunk width height)
  | event => pure [event]

/-! ### The pending queue -/

/-- The two oldest events are folded. -/
def foldOldestPairChecked (fuel cap : ℕ) : List HelperEvent → Checked (List HelperEvent)
  | oldest :: second :: rest => do
    let merged ← mergeDeltasChecked oldest second
    return (← splitDeltaIntoChunksChecked fuel merged cap) ++ rest
  | pending => pure pending

/-- The body of the folding loop of `queue_delta_with_cap`: the shape before the last pass, and the
queue. -/
def foldBody (fuel cap budget chunkBytes : ℕ) (state : (ℕ × ℕ) × List HelperEvent) :
    Checked (((ℕ × ℕ) × List HelperEvent) ⊕ List HelperEvent) := do
  let (previousShape, pending) := state
  if Overfull budget chunkBytes pending then
    if ShapeLt (shape pending) previousShape then
      return .inl (shape pending, ← foldOldestPairChecked fuel cap pending)
    else return .inr pending
  else return .inr pending

/-- The body of the chunk loop of `queue_delta_with_cap`. -/
def pushChunkChecked (fuel cap budget : ℕ) (pending : List HelperEvent) (chunk : HelperEvent) :
    Checked (List HelperEvent) := do
  let pending ← run (foldBody fuel cap budget (deltaPayloadBytes chunk)) fuel
    ((usizeMax, usizeMax), pending)
  return pending ++ [chunk]

/-- What a delta becomes before it is queued. -/
def mergeIntoNewestChecked (pending : List HelperEvent) (delta : HelperEvent) :
    Checked HelperEvent :=
  match pending.getLast? with
  | some previous => mergeDeltasChecked previous delta
  | none => normalizeDeltaChecked delta

/-- `queue_delta_with_cap`: the merge, the split and the pushes, each checked. -/
def queueDeltaChecked (fuel : ℕ) (pending : List HelperEvent) (delta : HelperEvent) (cap : ℕ) :
    Checked (List HelperEvent) := do
  let merged ← mergeIntoNewestChecked pending delta
  let chunks ← splitDeltaIntoChunksChecked fuel merged cap
  chunks.foldlM (pushChunkChecked fuel cap (backlogBudget cap delta)) pending.dropLast

/-! ### Parts of an entry settle -/

section Parts

variable {rect cover : HelperFrameRect} {pixels : List UInt8}

theorem copyRowsChecked_eq {f : ℕ → Checked (Option (List UInt8))}
    {g : ℕ → Option (List UInt8)} (rows : List ℕ) (h : ∀ row ∈ rows, f row = .ok (g row)) :
    copyRowsChecked f rows = .ok (copyRows g rows) := by
  induction rows with
  | nil => rfl
  | cons row rows ih =>
    rw [copyRowsChecked, copyRows, h row List.mem_cons_self,
      ih fun r hr => h r (List.mem_cons_of_mem row hr)]
    cases g row <;> rfl

/-- A band that begins inside its rectangle is copied without a panic, however long the pixels are. -/
theorem pushBandChecked_eq {rowStart rowEnd columnStart columnEnd : ℕ}
    (htop : rect.y.toNat ≤ rowStart) (hleft : rect.x.toNat ≤ columnStart) :
    pushBandChecked rect pixels rowStart rowEnd columnStart columnEnd
      = .ok (pushBand rect pixels rowStart rowEnd columnStart columnEnd) := by
  unfold pushBandChecked pushBand
  by_cases hempty : rowStart ≥ rowEnd ∨ columnStart ≥ columnEnd
  · rw [if_pos hempty, if_pos hempty]
    rfl
  · obtain ⟨hrow, hcolumn⟩ := not_or.mp hempty
    rw [if_neg hempty, if_neg hempty]
    simp only
    rw [sub_eq (by omega), sub_eq (by omega)]
    -- each row starts at or behind the rectangle, so that no subtraction fails
    have hcopy := copyRowsChecked_eq (List.range' rowStart (rowEnd - rowStart))
      (f := fun row => do
        let row ← sub row rect.y.toNat
        let column ← sub columnStart rect.x.toNat
        return getRange pixels (row * (rect.width.toNat * 4) + column * 4)
          (row * (rect.width.toNat * 4) + column * 4 + (columnEnd - columnStart) * 4))
      (g := fun row =>
        getRange pixels ((row - rect.y.toNat) * (rect.width.toNat * 4) + (columnStart - rect.x.toNat) * 4)
          ((row - rect.y.toNat) * (rect.width.toNat * 4) + (columnStart - rect.x.toNat) * 4
            + (columnEnd - columnStart) * 4))
      fun row hrow => by
        rw [List.mem_range'_1] at hrow
        rw [sub_eq (by omega), sub_eq hleft]
        rfl
    show (copyRowsChecked _ _ >>= _) = _
    rw [hcopy]
    cases copyRows _ _ <;> rfl

theorem trimCoveredPixelsChecked_eq : trimCoveredPixelsChecked rect pixels cover
    = .ok (trimCoveredPixels rect pixels cover) := by
  unfold trimCoveredPixelsChecked trimCoveredPixels
  simp only
  split
  · rfl
  · next hmeet =>
    obtain ⟨hcolumns, hrows⟩ := not_or.mp hmeet
    rw [pushBandChecked_eq le_rfl le_rfl, pushBandChecked_eq (by omega) le_rfl,
      pushBandChecked_eq (le_max_right _ _) le_rfl,
      pushBandChecked_eq (le_max_right _ _) (by omega)]
    rfl

end Parts

theorem settles_foldCover (entries : List DeltaEntry) (cover : DeltaEntry) :
    Settles (fun _ => foldCoverChecked entries cover) (foldCover entries cover) := by
  unfold foldCoverChecked foldCover
  split
  · exact .of_eq rfl
  · have htrim : ∀ entry ∈ entries, Settles
        (fun _ => trimCoveredPixelsChecked entry.1 entry.2 cover.1)
        (trimCoveredPixels entry.1 entry.2 cover.1) :=
      fun entry _ => .of_eq trimCoveredPixelsChecked_eq
    have hparts := Settles.mapM htrim
    rw [List.flatMap_def]
    exact hparts.map fun parts => parts.flatten ++ [cover]

theorem settles_foldPayload (entries covers : List DeltaEntry) :
    Settles (fun _ => foldPayloadChecked entries covers) (foldPayload entries covers) :=
  Settles.foldlM (fun entries cover _ => settles_foldCover entries cover) entries

/-! ### Deltas settle -/

theorem settles_mergeDeltas (previous next : HelperEvent) :
    Settles (fun _ => mergeDeltasChecked previous next) (mergeDeltas previous next) := by
  cases previous with
  | frameBgraRects width height rects bgra =>
    cases next with
    | frameBgraRects nextWidth nextHeight nextRects nextBgra =>
      simp only [mergeDeltasChecked, mergeDeltas]
      by_cases hsame : width = nextWidth ∧ height = nextHeight
      · simp only [if_pos hsame]
        have hfold := settles_foldPayload (splitPayload rects bgra) (splitPayload nextRects nextBgra)
        exact hfold.map fun entries =>
          HelperEvent.frameBgraRects width height (joinPayload entries).1 (joinPayload entries).2
      · simp only [if_neg hsame]
        exact .of_eq rfl
    | _ => exact .of_eq rfl
  | _ => exact .of_eq rfl

theorem settles_normalizeDelta (delta : HelperEvent) :
    Settles (fun _ => normalizeDeltaChecked delta) (normalizeDelta delta) := by
  cases delta with
  | frameBgraRects width height rects bgra =>
    exact (settles_foldPayload [] (splitPayload rects bgra)).map fun entries =>
      HelperEvent.frameBgraRects width height (joinPayload entries).1 (joinPayload entries).2
  | _ => exact .of_eq rfl

/-- **The bands** of an entry: what has been cut off lies inside the pixels, and every pass cuts off at
least one row. -/
theorem settles_bands (rect : HelperFrameRect) (pixels : List UInt8) (cap : ℕ) :
    Settles (fun fuel => run (bandsBody rect pixels (max (cap / (rect.width.toNat * 4)) 1)) fuel (0, []))
      (bandsFrom rect pixels cap 0) := by
  -- the loop ends for the rows that are left get fewer, and what is cut lies within the pixels
  refine settles_run (f := fun _ => bandsBody rect pixels (max (cap / (rect.width.toNat * 4)) 1))
    (I := fun state => state.1 * (rect.width.toNat * 4) ≤ pixels.length)
    (fun state => rect.height.toNat - state.1) (fun state => state.2 ++ bandsFrom rect pixels cap state.1)
    ?_ (s := (0, [])) (by simp)
  rintro ⟨row, bands⟩ hcut
  simp only at hcut
  unfold bandsBody
  rw [bandsFrom]
  simp only
  by_cases hrow : row < rect.height.toNat
  · rw [if_pos hrow, if_pos hrow, sub_eq hrow.le]
    cases hband : getRange pixels (row * (rect.width.toNat * 4))
        (row * (rect.width.toNat * 4) + min (max (cap / (rect.width.toNat * 4)) 1)
          (rect.height.toNat - row) * (rect.width.toNat * 4)) with
    | none =>
      refine .inl (.of_eq ?_)
      show (match getRange pixels _ _ with | none => _ | some _ => _) = _
      rw [hband]
      simp only
      rw [sub_eq hcut, sliceFrom_eq hcut]
      rfl
    | some band =>
      -- the band was there, so that the next one starts within the pixels
      have hinside : row * (rect.width.toNat * 4) + min (max (cap / (rect.width.toNat * 4)) 1)
          (rect.height.toNat - row) * (rect.width.toNat * 4) ≤ pixels.length := by
        unfold getRange at hband
        split at hband
        · next h => exact h.2
        · cases hband
      refine .inr ⟨(row + min (max (cap / (rect.width.toNat * 4)) 1) (rect.height.toNat - row),
        bands ++ [(bandRect rect row (min (max (cap / (rect.width.toNat * 4)) 1)
          (rect.height.toNat - row)) band.length, band)]), .of_eq ?_, ?_, ?_, ?_⟩
      · show (match getRange pixels _ _ with | none => _ | some _ => _) = _
        rw [hband]
        rfl
      · rw [Nat.add_mul]
        exact hinside
      · show rect.height.toNat - (row + _) < rect.height.toNat - row
        omega
      · simp only
        rw [List.append_assoc]
        rfl
  · rw [if_neg hrow, if_neg hrow, List.append_nil]
    exact .inl (.of_eq rfl)

theorem settles_splitEntryIntoBands (entry : DeltaEntry) (cap : ℕ) :
    Settles (splitEntryIntoBandsChecked · entry cap) (splitEntryIntoBands entry cap) := by
  unfold splitEntryIntoBandsChecked splitEntryIntoBands
  simp only
  split
  · exact .of_eq rfl
  · next hsplit =>
    rw [div_eq fun hzero => hsplit (.inl hzero)]
    exact settles_bands entry.1 entry.2 cap

theorem settles_splitDeltaIntoChunks (event : HelperEvent) (cap : ℕ) :
    Settles (splitDeltaIntoChunksChecked · event cap) (splitDeltaIntoChunks event cap) := by
  cases event with
  | frameBgraRects width height rects bgra =>
    have hbands := Settles.mapM (l := splitPayload rects bgra)
      fun entry _ => settles_splitEntryIntoBands entry cap
    simp only [splitDeltaIntoChunks, List.flatMap_def]
    exact hbands.map fun bands => (chunkEntries cap [] 0 bands.flatten).map (frameChunk width height)
  | _ => exact .of_eq rfl

/-! ### The pending queue settles -/

theorem settles_foldOldestPair (cap : ℕ) (pending : List HelperEvent) :
    Settles (foldOldestPairChecked · cap pending) (foldOldestPair cap pending) := by
  match pending with
  | [] => exact .of_eq rfl
  | [_] => exact .of_eq rfl
  | oldest :: second :: rest =>
    refine (settles_mergeDeltas oldest second).bind ?_
    exact (settles_splitDeltaIntoChunks _ cap).map (· ++ rest)

/-- **The folding loop** goes on only while the shape of the queue shrinks. -/
theorem foldBody_descends {fuel cap budget chunkBytes : ℕ}
    {state state' : (ℕ × ℕ) × List HelperEvent}
    (h : foldBody fuel cap budget chunkBytes state = .ok (.inl state')) :
    ShapeLt (shape state.2) state.1 ∧ state'.1 = shape state.2 := by
  unfold foldBody at h
  simp only at h
  split at h
  · split at h
    · next hless =>
      cases hpair : foldOldestPairChecked fuel cap state.2 with
      | error fault => rw [hpair] at h; cases h
      | ok pending =>
        rw [hpair] at h
        cases h
        exact ⟨hless, rfl⟩
    · cases h
  · cases h

theorem settles_foldOldest (cap budget chunkBytes : ℕ) (pending : List HelperEvent) :
    Settles (fun fuel => run (foldBody fuel cap budget chunkBytes) fuel
        ((usizeMax, usizeMax), pending))
      (foldOldest cap budget chunkBytes (usizeMax, usizeMax) pending) := by
  refine settles_run (f := fun fuel => foldBody fuel cap budget chunkBytes) (I := fun _ => True)
    (fun state => shapeRank state.1) (fun state => foldOldest cap budget chunkBytes state.1 state.2)
    ?_ (s := ((usizeMax, usizeMax), pending)) trivial
  rintro ⟨previousShape, pending⟩ -
  unfold foldBody
  rw [foldOldest]
  simp only
  split
  · split
    · next hless =>
      refine .inr ⟨(shape pending, foldOldestPair cap pending), ?_, trivial,
        shapeRank_lt (usize_lt _) hless, rfl⟩
      exact (settles_foldOldestPair cap pending).map fun pending' => Sum.inl (shape pending, pending')
    · exact .inl (.of_eq rfl)
  · exact .inl (.of_eq rfl)

theorem settles_pushChunk (cap budget : ℕ) (pending : List HelperEvent) (chunk : HelperEvent) :
    Settles (pushChunkChecked · cap budget pending chunk) (pushChunk cap budget pending chunk) :=
  (settles_foldOldest cap budget _ pending).map (· ++ [chunk])

theorem settles_mergeIntoNewest (pending : List HelperEvent) (delta : HelperEvent) :
    Settles (fun _ => mergeIntoNewestChecked pending delta) (mergeIntoNewest pending delta) := by
  unfold mergeIntoNewestChecked mergeIntoNewest
  cases pending.getLast? with
  | none => exact settles_normalizeDelta delta
  | some previous => exact settles_mergeDeltas previous delta

theorem settles_queueDelta (pending : List HelperEvent) (delta : HelperEvent) (cap : ℕ) :
    Settles (queueDeltaChecked · pending delta cap) (queueDeltaWithCap pending delta cap) := by
  refine (settles_mergeIntoNewest pending delta).bind ?_
  refine (settles_splitDeltaIntoChunks _ cap).bind ?_
  exact Settles.foldlM (fun pending chunk _ => settles_pushChunk cap _ pending chunk) _

/-- **Queueing a delta** ends without a panic, for every queue, delta and cap, and from one pass of the
folding loop to the next the shape of the queue gets smaller. -/
theorem queueDelta_finishes (pending : List HelperEvent) (delta : HelperEvent) (cap : ℕ) :
    (∃ enough, ∀ fuel ≥ enough,
      queueDeltaChecked fuel pending delta cap = .ok (queueDeltaWithCap pending delta cap)) ∧
    ∀ fuel budget chunkBytes state state' state'',
      foldBody fuel cap budget chunkBytes state = .ok (.inl state') →
      foldBody fuel cap budget chunkBytes state' = .ok (.inl state'') →
      ShapeLt (shape state'.2) (shape state.2) := by
  refine ⟨Filter.eventually_atTop.1 (settles_queueDelta pending delta cap), ?_⟩
  intro fuel budget chunkBytes state state' state'' hfirst hsecond
  rw [← (foldBody_descends hfirst).2]
  exact (foldBody_descends hsecond).1

end Mailbox
end Rdp
end Navop
