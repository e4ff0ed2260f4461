import NavopExtensions.Rdp.Mailbox.Grid
import NavopExtensions.Rdp.Mailbox.Runs

/-!
# The backlog of a consumer that falls behind

`queue_delta_with_cap` means to keep the pixels waiting for delivery within
`MAX_PENDING_DELTA_SCREENS` screens by folding the two oldest events before each push. Folding only
helps when those two share pixels or fit into one event, and the loop gives up after the first fold
that does not shrink the queue, even when newer events would fold. So the bound is not an invariant:
two screen halves painted alternately, each as large as the cap, are queued once per repaint
(`alternating_exceeds_budget`).

The loop folds the oldest events into one for as long as their pixels fit into one event together,
and the pixels that they share are then queued once. So the bound holds where this frees enough of the
budget: where some of the oldest events are `Foldable`, and their pixels, counted once, leave room for
the other events and for what the newest of them becomes (`RoomFor`). Every run whose calls all find
that room keeps the bound (`backlog_bounded`). They do when the cap is at least a screen and the
rectangles are not too many to be trimmed (`roomFor_of_screen_le_cap`).

A fold never adds bytes (`foldOldestPair_bytes`), because trimming removes exactly what the newer
rectangle covers and splitting copies.
-/

namespace Navop
namespace Rdp
namespace Mailbox

variable {width height : UInt16}

/-! ### Bytes of entries -/

/-- The payload bytes of a list of entries. -/
def entriesBytes (entries : List DeltaEntry) : Nat :=
  (entries.map fun entry => entry.2.length).sum

@[simp] theorem entriesBytes_nil : entriesBytes [] = 0 := rfl

@[simp] theorem entriesBytes_cons (entry : DeltaEntry) (entries : List DeltaEntry) :
    entriesBytes (entry :: entries) = entry.2.length + entriesBytes entries := by
  simp [entriesBytes]

@[simp] theorem entriesBytes_append (xs ys : List DeltaEntry) :
    entriesBytes (xs ++ ys) = entriesBytes xs + entriesBytes ys := by
  simp [entriesBytes]

theorem entriesBytes_flatMap_le {entries : List DeltaEntry} {f : DeltaEntry → List DeltaEntry}
    (h : ∀ entry ∈ entries, entriesBytes (f entry) ≤ entry.2.length) :
    entriesBytes (entries.flatMap f) ≤ entriesBytes entries := by
  induction entries with
  | nil => exact le_rfl
  | cons entry entries ih =>
    rw [List.flatMap_cons, entriesBytes_append, entriesBytes_cons]
    exact Nat.add_le_add (h entry List.mem_cons_self)
      (ih fun e he => h e (List.mem_cons_of_mem _ he))

section Trim

variable {rect cover : HelperFrameRect} {pixels : List UInt8}

theorem pushBand_bytes {rowStart rowEnd columnStart columnEnd : Nat}
    (h : EntryOk width height (rect, pixels))
    (hleft : rect.x.toNat ≤ columnStart) (hright : columnEnd ≤ rect.x.toNat + rect.width.toNat)
    (htop : rect.y.toNat ≤ rowStart) (hbottom : rowEnd ≤ rect.y.toNat + rect.height.toNat) :
    entriesBytes (pushBand rect pixels rowStart rowEnd columnStart columnEnd)
      = (rowEnd - rowStart) * ((columnEnd - columnStart) * 4) := by
  by_cases hempty : rowStart ≥ rowEnd ∨ columnStart ≥ columnEnd
  · have hzero : (rowEnd - rowStart) * ((columnEnd - columnStart) * 4) = 0 := by
      rcases hempty with h | h
      · rw [Nat.sub_eq_zero_of_le h, Nat.zero_mul]
      · rw [Nat.sub_eq_zero_of_le h, Nat.zero_mul, Nat.mul_zero]
    simp [pushBand, hempty, hzero]
  · have hpush := pushBand_eq h (by omega) (by omega) hleft hright htop hbottom
    have hlen := (pushBand_ok h hleft hright htop hbottom _
      (by rw [hpush]; exact List.mem_singleton_self _)).length
    rw [hpush]
    simpa using hlen

/-- Trimming never adds bytes: the four bands lie side by side in the rectangle. -/
theorem trimCoveredPixels_bytes (h : EntryOk width height (rect, pixels)) :
    entriesBytes (trimCoveredPixels rect pixels cover) ≤ pixels.length := by
  unfold trimCoveredPixels
  simp only
  split
  · simp
  · next hoverlap =>
    rw [entriesBytes_append, entriesBytes_append, entriesBytes_append,
      pushBand_bytes h (by omega) (by omega) (by omega) (by omega),
      pushBand_bytes h (by omega) (by omega) (by omega) (by omega),
      pushBand_bytes h (by omega) (by omega) (by omega) (by omega),
      pushBand_bytes h (by omega) (by omega) (by omega) (by omega), h.length_eq]
    simp only
    generalize hl : max cover.x.toNat rect.x.toNat = left at *
    generalize ht : max cover.y.toNat rect.y.toNat = top at *
    generalize hr : min (cover.x.toNat + cover.width.toNat)
      (rect.x.toNat + rect.width.toNat) = right at *
    generalize hb : min (cover.y.toNat + cover.height.toNat)
      (rect.y.toNat + rect.height.toNat) = bottom at *
    -- rows above, inside and below the cover add up to the height
    obtain ⟨above, habove⟩ : ∃ n, top - rect.y.toNat = n := ⟨_, rfl⟩
    obtain ⟨inside, hinside⟩ : ∃ n, bottom - top = n := ⟨_, rfl⟩
    obtain ⟨below, hbelow⟩ : ∃ n, rect.y.toNat + rect.height.toNat - bottom = n := ⟨_, rfl⟩
    have hrows : rect.height.toNat = above + inside + below := by omega
    have hside : (left - rect.x.toNat) * 4 + (rect.x.toNat + rect.width.toNat - right) * 4
        ≤ rect.width.toNat * 4 := by omega
    have hmul := Nat.mul_le_mul_left inside hside
    rw [Nat.add_sub_cancel_left, habove, hinside, hbelow, hrows]
    calc above * (rect.width.toNat * 4) + below * (rect.width.toNat * 4)
          + inside * ((left - rect.x.toNat) * 4)
          + inside * ((rect.x.toNat + rect.width.toNat - right) * 4)
        = above * (rect.width.toNat * 4) + below * (rect.width.toNat * 4)
          + inside * ((left - rect.x.toNat) * 4
            + (rect.x.toNat + rect.width.toNat - right) * 4) := by ring
      _ ≤ above * (rect.width.toNat * 4) + below * (rect.width.toNat * 4)
          + inside * (rect.width.toNat * 4) := by omega
      _ = 4 * rect.width.toNat * (above + inside + below) := by ring

end Trim

theorem foldCover_bytes {entries : List DeltaEntry} (cover : DeltaEntry)
    (h : ∀ entry ∈ entries, EntryOk width height entry) :
    entriesBytes (foldCover entries cover) ≤ entriesBytes entries + cover.2.length := by
  unfold foldCover
  split
  · simp
  · rw [entriesBytes_append]
    have htrim := entriesBytes_flatMap_le
      (f := fun entry => trimCoveredPixels entry.1 entry.2 cover.1)
      fun entry hentry => trimCoveredPixels_bytes (h entry hentry)
    simpa using htrim

theorem foldPayload_bytes {entries covers : List DeltaEntry}
    (h : ∀ entry ∈ entries, EntryOk width height entry)
    (hcovers : ∀ cover ∈ covers, EntryOk width height cover) :
    entriesBytes (foldPayload entries covers) ≤ entriesBytes entries + entriesBytes covers := by
  induction covers generalizing entries with
  | nil => simp [foldPayload]
  | cons cover covers ih =>
    have hstep := foldCover_bytes cover h
    have hrest := ih (foldCover_ok h (hcovers cover List.mem_cons_self))
      fun c hc => hcovers c (List.mem_cons_of_mem _ hc)
    change entriesBytes (foldPayload (foldCover entries cover) covers) ≤ _
    rw [entriesBytes_cons]
    omega

/-! ### Bytes of deltas -/

theorem DeltaOk.payloadBytes {event : HelperEvent} (h : DeltaOk width height event) :
    deltaPayloadBytes event = entriesBytes (deltaEntries event) := by
  have hentry := h.entryOk
  obtain ⟨rects, bgra, rfl⟩ := h.exists_eq
  obtain ⟨-, -, hlen⟩ := h
  change bgra.length = _
  rw [hlen]
  -- the length of the payload is the sum that the rectangles announce
  conv_lhs => rw [← splitPayload_map_fst rects bgra, List.map_map]
  unfold entriesBytes
  congr 1
  exact List.map_congr_left fun entry hmem => (hentry entry hmem).length.symm

theorem mergeDeltas_bytes {previous next : HelperEvent} (hprev : DeltaOk width height previous)
    (hnext : DeltaOk width height next) :
    deltaPayloadBytes (mergeDeltas previous next)
      ≤ deltaPayloadBytes previous + deltaPayloadBytes next := by
  rw [mergeDeltas_eq hprev hnext, deltaPayloadBytes_frameChunk, hprev.payloadBytes,
    hnext.payloadBytes]
  exact foldPayload_bytes hprev.entryOk hnext.entryOk

@[simp] theorem queuedBytes_nil : queuedBytes [] = 0 := rfl

@[simp] theorem queuedBytes_cons (event : HelperEvent) (pending : List HelperEvent) :
    queuedBytes (event :: pending) = deltaPayloadBytes event + queuedBytes pending := by
  simp [queuedBytes]

@[simp] theorem queuedBytes_append (xs ys : List HelperEvent) :
    queuedBytes (xs ++ ys) = queuedBytes xs + queuedBytes ys := by
  simp [queuedBytes]

/-- Splitting copies: the chunks carry the bytes of the delta. -/
theorem splitDeltaIntoChunks_bytes {event : HelperEvent} (h : DeltaOk width height event)
    (cap : Nat) : queuedBytes (splitDeltaIntoChunks event cap) = deltaPayloadBytes event := by
  rw [splitDeltaIntoChunks_eq h, h.payloadBytes]
  set bands := (deltaEntries event).flatMap (splitEntryIntoBands · cap) with hbands
  -- a chunk carries the bytes of its group, and the groups are the bands in order
  have hgroups : ∀ groups : List (List DeltaEntry),
      queuedBytes (groups.map (frameChunk width height)) = entriesBytes groups.flatten := by
    intro groups
    induction groups with
    | nil => rfl
    | cons group groups ih =>
      rw [List.map_cons, queuedBytes_cons, ih, deltaPayloadBytes_frameChunk, List.flatten_cons,
        entriesBytes_append]
      rfl
  rw [hgroups, chunkEntries_flatten, List.nil_append, hbands]
  have hentries := h.entryOk
  generalize deltaEntries event = entries at hentries
  induction entries with
  | nil => rfl
  | cons entry entries ih =>
    rw [List.flatMap_cons, entriesBytes_append, entriesBytes_cons,
      ih fun e he => hentries e (List.mem_cons_of_mem _ he)]
    congr 1
    exact splitEntryIntoBands_bytes (hentries entry List.mem_cons_self) cap

/-- **A fold never adds bytes.** -/
theorem foldOldestPair_bytes (cap : Nat) {pending : List HelperEvent}
    (h : AllOk width height pending) :
    queuedBytes (foldOldestPair cap pending) ≤ queuedBytes pending := by
  unfold foldOldestPair
  split
  · next oldest second rest =>
    have holdest := h oldest List.mem_cons_self
    have hsecond := h second (List.mem_cons_of_mem _ List.mem_cons_self)
    have hmerge := mergeDeltas_bytes holdest hsecond
    rw [queuedBytes_append, splitDeltaIntoChunks_bytes (mergeDeltas_ok holdest hsecond) cap,
      queuedBytes_cons, queuedBytes_cons]
    omega
  · exact le_rfl

/-- The bound on the bytes waiting for delivery. -/
def backlogBound (cap : Nat) (width height : UInt16) : Nat :=
  maxPendingDeltaScreens * max cap (4 * width.toNat * height.toNat)

/-- The budget of a call is the bound, computed in `usize`. -/
theorem backlogBudget_le {cap : Nat} {delta : HelperEvent} (h : DeltaOk width height delta) :
    backlogBudget cap delta ≤ backlogBound cap width height := by
  obtain ⟨rects, bgra, rfl⟩ := h.exists_eq
  refine (usize_le _).trans_eq ?_
  unfold backlogBound deltaExtentBytes
  rw [Nat.mul_comm maxPendingDeltaScreens]
  congr 2
  ring

/-! ### Events that fold into one -/

/-- The entries of some events, oldest first. -/
def eventEntries (events : List HelperEvent) : List DeltaEntry := events.flatMap deltaEntries

/-- Four bytes for each pixel of some events, the pixels that they share counted once. -/
def pixelBytes (events : List HelperEvent) : Nat := 4 * (unionPixels (eventEntries events)).card

/-- Events that fold into one, the last of them perhaps into several: folding trims their rectangles,
and the pixels of the others fit into one event together. -/
structure Foldable (cap : Nat) (events : List HelperEvent) : Prop where
  apart : ∀ event ∈ events, EntriesApart (deltaEntries event)
  grid : gridSize (eventEntries events) ≤ maxMergedDeltaRects
  fits : pixelBytes events.dropLast ≤ cap

/-- The bytes that the newest event and a delta take once they are merged: no more than both carry,
and those of their pixels where folding trims their rectangles. -/
inductive MergedWithin (newest : Option HelperEvent) (delta : HelperEvent) : Nat → Prop
  | summed : MergedWithin newest delta (queuedBytes newest.toList + deltaPayloadBytes delta)
  | trimmed (apart : ∀ event ∈ newest, EntriesApart (deltaEntries event))
    (grid : gridSize (eventEntries (newest.toList ++ [delta])) ≤ maxMergedDeltaRects) :
    MergedWithin newest delta (pixelBytes (newest.toList ++ [delta]))

/-- There is room for a delta: the pixels of some foldable events at the front, counted once, leave
enough of the bound to the events behind them and to what the newest event becomes. The length is
that of a list in memory. -/
def RoomFor (cap : Nat) (width height : UInt16) (pending : List HelperEvent) (delta : HelperEvent) :
    Prop :=
  ∃ oldest newer bytes, pending.dropLast = oldest ++ newer ∧ Foldable cap oldest ∧
    MergedWithin pending.getLast? delta bytes ∧
    pixelBytes oldest + queuedBytes newer + bytes ≤ backlogBound cap width height ∧
    pending.length ≤ usizeMax

theorem eventEntries_append (xs ys : List HelperEvent) :
    eventEntries (xs ++ ys) = eventEntries xs ++ eventEntries ys :=
  List.flatMap_append

theorem AllOk.eventEntries {events : List HelperEvent} (h : AllOk width height events) :
    ∀ entry ∈ eventEntries events, EntryOk width height entry := by
  intro entry hentry
  obtain ⟨event, hevent, hentry⟩ := List.mem_flatMap.1 hentry
  exact (h event hevent).entryOk entry hentry

theorem unionPixels_subset {xs ys : List DeltaEntry}
    (h : ∀ p, (∃ entry ∈ xs, RectHas entry.1 p) → ∃ entry ∈ ys, RectHas entry.1 p) :
    unionPixels xs ⊆ unionPixels ys := by
  intro q hq
  rw [mem_unionPixels] at hq ⊢
  exact h _ hq

/-- Fewer events have fewer pixels. -/
theorem pixelBytes_le {xs ys : List HelperEvent} (h : xs ⊆ ys) : pixelBytes xs ≤ pixelBytes ys := by
  refine Nat.mul_le_mul_left _ (Finset.card_le_card (unionPixels_subset ?_))
  rintro p ⟨entry, hentry, hp⟩
  obtain ⟨event, hevent, hentry⟩ := List.mem_flatMap.1 hentry
  exact ⟨entry, List.mem_flatMap.2 ⟨event, h hevent, hentry⟩, hp⟩

theorem length_joinPayload_eq (entries : List DeltaEntry) :
    (joinPayload entries).2.length = entriesBytes entries :=
  deltaPayloadBytes_frameChunk 0 0 entries

/-- Folding that trims leaves the bytes of the pixels. -/
theorem entriesBytes_foldPayload {entries covers : List DeltaEntry}
    (hok : ∀ entry ∈ entries, EntryOk width height entry)
    (hcovers : ∀ cover ∈ covers, EntryOk width height cover) (h : EntriesApart entries)
    (hgrid : gridSize (entries ++ covers) ≤ maxMergedDeltaRects) :
    entriesBytes (foldPayload entries covers) = 4 * (unionPixels (entries ++ covers)).card := by
  have hlimit := withinLimit_of_gridSize hok hcovers h hgrid
  have harea := area_foldPayload hok hcovers
  rw [← length_joinPayload_eq, length_joinPayload (entriesApart_foldPayload hok hcovers h hlimit)
    (foldPayload_ok hok hcovers)]
  congr 2
  exact (unionPixels_subset fun p => (harea p).1).antisymm
    (unionPixels_subset fun p => (harea p).2)

/-- An event whose rectangles are apart carries the bytes of its pixels. -/
theorem payloadBytes_of_apart {event : HelperEvent} (hok : DeltaOk width height event)
    (h : EntriesApart (deltaEntries event)) : deltaPayloadBytes event = pixelBytes [event] := by
  rw [hok.payloadBytes, ← length_joinPayload_eq, length_joinPayload h hok.entryOk, pixelBytes,
    eventEntries, List.flatMap_singleton]

/-- What the newest event and the delta become carries no more than that. -/
theorem mergeIntoNewest_bytes {pending : List HelperEvent} {delta : HelperEvent} {bytes : Nat}
    (hok : AllOk width height pending) (hdelta : DeltaOk width height delta)
    (h : MergedWithin pending.getLast? delta bytes) :
    deltaPayloadBytes (mergeIntoNewest pending delta) ≤ bytes := by
  unfold mergeIntoNewest
  cases hlast : pending.getLast? with
  | none =>
    rw [hlast] at h
    simp only
    rw [normalizeDelta_eq hdelta, deltaPayloadBytes_frameChunk]
    -- summed up, or by the pixels that the two rectangles cover together
    cases h with
    | summed =>
      have hbytes := @foldPayload_bytes width height [] _ (by simp) hdelta.entryOk
      rw [entriesBytes_nil, Nat.zero_add, ← hdelta.payloadBytes] at hbytes
      exact hbytes.trans (Nat.le_add_left _ _)
    | trimmed _ hgrid =>
      refine (entriesBytes_foldPayload (by simp) hdelta.entryOk .nil ?_).le.trans_eq ?_
      · simpa [eventEntries] using hgrid
      · simp [pixelBytes, eventEntries]
  | some newest =>
    rw [hlast] at h
    have hnewest := hok newest (List.mem_of_getLast? hlast)
    simp only
    cases h with
    | summed => simpa using mergeDeltas_bytes hnewest hdelta
    | trimmed hapart hgrid =>
      rw [mergeDeltas_eq hnewest hdelta, deltaPayloadBytes_frameChunk]
      refine (entriesBytes_foldPayload hnewest.entryOk hdelta.entryOk (hapart newest rfl)
        ?_).le.trans_eq ?_
      · simpa [eventEntries] using hgrid
      · simp [pixelBytes, eventEntries]

/-! ### What the folding loop does to them -/

/-- Entries that fit into one chunk are grouped into one. -/
theorem chunkEntries_of_fits {cap : Nat} {current : List DeltaEntry} {currentBytes : Nat}
    (rest : List DeltaEntry) (h : currentBytes + entriesBytes rest ≤ cap) :
    chunkEntries cap current currentBytes rest
      = if current ++ rest = [] then [] else [current ++ rest] := by
  induction rest generalizing current currentBytes with
  | nil => simp [chunkEntries]
  | cons entry rest ih =>
    rw [entriesBytes_cons] at h
    rw [chunkEntries, if_neg (by omega), ih (by omega), List.append_assoc]
    rfl

/-- A delta that fits into one chunk is one, unless it is empty. -/
theorem splitDeltaIntoChunks_of_fits {cap : Nat} {event : HelperEvent}
    (hok : DeltaOk width height event) (h : deltaPayloadBytes event ≤ cap) :
    (splitDeltaIntoChunks event cap).length ≤ 1 ∧
      eventEntries (splitDeltaIntoChunks event cap) = deltaEntries event := by
  rw [hok.payloadBytes] at h
  have hbands : (deltaEntries event).flatMap (splitEntryIntoBands · cap) = deltaEntries event := by
    conv_rhs => rw [← List.flatMap_singleton' (deltaEntries event)]
    refine List.flatMap_congr fun entry hentry => if_pos (.inr ?_)
    -- an entry carries no more than the entries together
    exact (List.single_le_sum (by simp) _ (List.mem_map_of_mem hentry)).trans h
  rw [splitDeltaIntoChunks_eq hok, hbands, chunkEntries_of_fits _ (by omega), List.nil_append]
  split
  · next hnil => exact ⟨Nat.zero_le _, hnil.symm⟩
  · refine ⟨le_rfl, ?_⟩
    rw [eventEntries, List.map_singleton, List.flatMap_singleton, deltaEntries_frameChunk hok.entryOk]

/-- The queue carries no more than this, or it does once its oldest events are folded. -/
def Reducible (cap bytes : Nat) (pending : List HelperEvent) : Prop :=
  queuedBytes pending ≤ bytes ∨ pending.length < usizeMax ∧ ∃ oldest newer,
    pending = oldest ++ newer ∧ 2 ≤ oldest.length ∧ Foldable cap oldest ∧
      pixelBytes oldest + queuedBytes newer ≤ bytes

/-- Fewer than two events need no folding. -/
theorem reducible_of_foldable {cap bytes : Nat} {oldest newer : List HelperEvent}
    (hok : AllOk width height oldest) (h : Foldable cap oldest)
    (hlength : (oldest ++ newer).length < usizeMax)
    (hbytes : pixelBytes oldest + queuedBytes newer ≤ bytes) :
    Reducible cap bytes (oldest ++ newer) := by
  match oldest, hok, h, hlength, hbytes with
  | [], _, _, _, hbytes => exact .inl (by simpa using (Nat.le_add_left _ _).trans hbytes)
  | [event], hok, h, _, hbytes =>
    left
    have hevent := payloadBytes_of_apart (hok event List.mem_cons_self)
      (h.apart event List.mem_cons_self)
    rw [List.singleton_append, queuedBytes_cons, hevent]
    exact hbytes
  | first :: second :: rest, _, h, hlength, hbytes =>
    exact .inr ⟨hlength, _, _, rfl, by simp, h, hbytes⟩

/-- Folding leaves the pixels that there were. -/
theorem unionPixels_foldPayload_append {entries covers : List DeltaEntry}
    (hok : ∀ entry ∈ entries, EntryOk width height entry)
    (hcovers : ∀ cover ∈ covers, EntryOk width height cover) (rest : List DeltaEntry) :
    unionPixels (foldPayload entries covers ++ rest) = unionPixels (entries ++ covers ++ rest) := by
  have happend : ∀ xs ys : List DeltaEntry,
      unionPixels (xs ++ ys) = unionPixels xs ∪ unionPixels ys := by
    intro xs ys
    ext q
    simp only [Finset.mem_union, mem_unionPixels, List.mem_append, or_and_right, exists_or]
  rw [happend, happend (entries ++ covers)]
  congr 1
  have harea := area_foldPayload hok hcovers
  exact (unionPixels_subset fun p => (harea p).1).antisymm
    (unionPixels_subset fun p => (harea p).2)

section Fold

variable {cap bytes : Nat} {first second : HelperEvent} {rest : List HelperEvent}

theorem eventEntries_cons_cons :
    eventEntries (first :: second :: rest)
      = deltaEntries first ++ deltaEntries second ++ eventEntries rest := by
  simp [eventEntries]

/-- Merging two foldable events leaves the bytes of their pixels, in rectangles that are apart. -/
theorem Foldable.mergeDeltas (hok : AllOk width height (first :: second :: rest))
    (h : Foldable cap (first :: second :: rest)) :
    deltaPayloadBytes (mergeDeltas first second) = pixelBytes [first, second] ∧
      EntriesApart (deltaEntries (mergeDeltas first second)) := by
  have hfirst := hok first List.mem_cons_self
  have hsecond := hok second (List.mem_cons_of_mem _ List.mem_cons_self)
  have hapart := h.apart first List.mem_cons_self
  have hgrid : gridSize (deltaEntries first ++ deltaEntries second) ≤ maxMergedDeltaRects := by
    refine (gridSize_le_of_sublist ?_).trans h.grid
    rw [eventEntries_cons_cons]
    exact List.sublist_append_left _ _
  rw [mergeDeltas_eq hfirst hsecond, deltaPayloadBytes_frameChunk,
    deltaEntries_frameChunk (foldPayload_ok hfirst.entryOk hsecond.entryOk)]
  constructor
  · refine (entriesBytes_foldPayload hfirst.entryOk hsecond.entryOk hapart hgrid).trans ?_
    rw [pixelBytes, eventEntries_cons_cons]
    simp [eventEntries]
  · exact entriesApart_foldPayload hfirst.entryOk hsecond.entryOk hapart
      (withinLimit_of_gridSize hfirst.entryOk hsecond.entryOk hapart hgrid)

/-- Two foldable events before others fit into one, which is foldable with the others. -/
theorem Foldable.foldOldest (hok : AllOk width height (first :: second :: rest))
    (h : Foldable cap (first :: second :: rest)) (hrest : rest ≠ []) :
    (splitDeltaIntoChunks (Mailbox.mergeDeltas first second) cap).length ≤ 1 ∧
      Foldable cap (splitDeltaIntoChunks (Mailbox.mergeDeltas first second) cap ++ rest) ∧
      pixelBytes (splitDeltaIntoChunks (Mailbox.mergeDeltas first second) cap ++ rest)
        = pixelBytes (first :: second :: rest) := by
  have hfirst := hok first List.mem_cons_self
  have hsecond := hok second (List.mem_cons_of_mem _ List.mem_cons_self)
  have hmerged := mergeDeltas_ok hfirst hsecond
  obtain ⟨hbytes, hapart⟩ := h.mergeDeltas hok
  have hdrop : (first :: second :: rest).dropLast = first :: second :: rest.dropLast := by
    rw [List.dropLast_cons_of_ne_nil (by simp), List.dropLast_cons_of_ne_nil hrest]
  have hfits : deltaPayloadBytes (Mailbox.mergeDeltas first second) ≤ cap := by
    rw [hbytes]
    refine (pixelBytes_le ?_).trans h.fits
    rw [hdrop]
    simp
  obtain ⟨hcount, hentries⟩ := splitDeltaIntoChunks_of_fits hmerged hfits
  -- the chunk has the folded entries, before whatever follows it
  have hchunk : ∀ events,
      eventEntries (splitDeltaIntoChunks (Mailbox.mergeDeltas first second) cap ++ events)
        = foldPayload (deltaEntries first) (deltaEntries second) ++ eventEntries events := by
    intro events
    rw [eventEntries_append, hentries, mergeDeltas_eq hfirst hsecond,
      deltaEntries_frameChunk (foldPayload_ok hfirst.entryOk hsecond.entryOk)]
  have hpixels : ∀ events,
      pixelBytes (splitDeltaIntoChunks (Mailbox.mergeDeltas first second) cap ++ events)
        = pixelBytes (first :: second :: events) := by
    intro events
    rw [pixelBytes, pixelBytes, hchunk, eventEntries_cons_cons,
      unionPixels_foldPayload_append hfirst.entryOk hsecond.entryOk]
  refine ⟨hcount, ⟨fun event hevent => ?_, ?_, ?_⟩, hpixels rest⟩
  · rcases List.mem_append.1 hevent with hevent | hevent
    · obtain ⟨chunk, hone⟩ := List.length_eq_one_iff.1
        (le_antisymm hcount (List.length_pos_of_mem hevent))
      rw [hone, List.mem_singleton] at hevent
      rw [hone, eventEntries, List.flatMap_singleton] at hentries
      rw [hevent, hentries]
      exact hapart
    · exact h.apart event (List.mem_cons_of_mem _ (List.mem_cons_of_mem _ hevent))
  · have hgrid := h.grid
    rw [eventEntries_cons_cons] at hgrid
    rw [hchunk]
    exact (gridSize_foldPayload hfirst.entryOk hsecond.entryOk _).trans hgrid
  · rw [List.dropLast_append_of_ne_nil hrest, hpixels, ← hdrop]
    exact h.fits

end Fold

/-- **A fold makes progress** towards what the foldable events leave: the queue has fewer events
afterwards, or it carries no more than that. -/
theorem Reducible.foldOldestPair {cap bytes : Nat} {pending : List HelperEvent}
    (hok : AllOk width height pending) (h : Reducible cap bytes pending) :
    Reducible cap bytes (foldOldestPair cap pending) ∧
      (ShapeLt (shape (foldOldestPair cap pending)) (shape pending) ∨
        queuedBytes (foldOldestPair cap pending) ≤ bytes) := by
  rcases h with hbytes | ⟨hlength, oldest, newer, rfl, hcount, hfoldable, hbytes⟩
  · have hle := (foldOldestPair_bytes cap hok).trans hbytes
    exact ⟨.inl hle, .inr hle⟩
  match oldest, hcount, hfoldable, hlength, hbytes, hok with
  | first :: second :: rest, _, hfoldable, hlength, hbytes, hok =>
    have hoks : AllOk width height (first :: second :: rest) := fun event hevent =>
      hok event (List.mem_append_left _ hevent)
    have hmerged := mergeDeltas_ok (hoks first List.mem_cons_self)
      (hoks second (List.mem_cons_of_mem _ List.mem_cons_self))
    have hfold : Mailbox.foldOldestPair cap (first :: second :: rest ++ newer)
        = splitDeltaIntoChunks (mergeDeltas first second) cap ++ rest ++ newer := by
      rw [List.append_assoc]
      rfl
    rw [hfold]
    by_cases hlast : rest = []
    · -- the last of them is folded: its chunks carry the bytes of the pixels
      subst hlast
      have hle : queuedBytes (splitDeltaIntoChunks (mergeDeltas first second) cap ++ [] ++ newer)
          ≤ bytes := by
        rw [List.append_nil, queuedBytes_append, splitDeltaIntoChunks_bytes hmerged,
          (hfoldable.mergeDeltas hoks).1]
        exact hbytes
      exact ⟨.inl hle, .inr hle⟩
    · -- the two fit into one event, which takes their place
      obtain ⟨hone, hfoldable', hpixels⟩ := hfoldable.foldOldest hoks hlast
      have hshort : (splitDeltaIntoChunks (mergeDeltas first second) cap ++ rest ++ newer).length
          < (first :: second :: rest ++ newer).length := by
        simp only [List.length_append, List.length_cons]
        omega
      have hok' : AllOk width height (splitDeltaIntoChunks (mergeDeltas first second) cap ++ rest) := by
        intro event hevent
        rcases List.mem_append.1 hevent with hevent | hevent
        · exact (splitDeltaIntoChunks_ok hmerged cap event hevent).1
        · exact hoks event (List.mem_cons_of_mem _ (List.mem_cons_of_mem _ hevent))
      have hbytes' : pixelBytes (splitDeltaIntoChunks (mergeDeltas first second) cap ++ rest)
          + queuedBytes newer ≤ bytes := by
        rw [hpixels]
        exact hbytes
      exact ⟨reducible_of_foldable hok' hfoldable' (hshort.trans hlength) hbytes', .inl (.inl hshort)⟩

/-- Fewer than two events carry no more than that. -/
theorem Reducible.of_short {cap bytes : Nat} {pending : List HelperEvent}
    (h : Reducible cap bytes pending) (hshort : pending.length < 2) : queuedBytes pending ≤ bytes := by
  rcases h with hbytes | ⟨-, oldest, newer, rfl, hcount, -, -⟩
  · exact hbytes
  · rw [List.length_append] at hshort
    omega

/-- The loop makes room for the chunk. It gives up after a fold without progress, and there is
progress as long as there are foldable events. -/
theorem Reducible.foldOldest {cap bytes bound budget chunkBytes : Nat} {previousShape : Nat × Nat}
    {pending : List HelperEvent} (hbudget : budget ≤ bound) (hbound : bytes + chunkBytes ≤ bound)
    (hok : AllOk width height pending) (h : Reducible cap bytes pending)
    (hprogress : ShapeLt (shape pending) previousShape ∨ queuedBytes pending ≤ bytes) :
    Reducible cap bytes (foldOldest cap budget chunkBytes previousShape pending) ∧
      (queuedBytes (foldOldest cap budget chunkBytes previousShape pending) ≤ bytes ∨
        (foldOldest cap budget chunkBytes previousShape pending).length < maxPendingDeltaEvents) ∧
      queuedBytes (foldOldest cap budget chunkBytes previousShape pending) + chunkBytes ≤ bound := by
  -- the induction is that of the loop, which goes on only while the shape gets smaller
  induction previousShape, pending using foldOldest.induct cap budget chunkBytes with
  | case1 previousShape pending hover hshrunk ih =>
    rw [Mailbox.foldOldest, if_pos hover, if_pos hshrunk]
    obtain ⟨hfold, hnext⟩ := h.foldOldestPair hok
    exact ih (foldOldestPair_patch hok).1 hfold hnext
  | case2 previousShape pending hover hstuck =>
    rw [Mailbox.foldOldest, if_pos hover, if_neg hstuck]
    -- a shape that stays says that the bytes have come down
    have hbytes := hprogress.resolve_left hstuck
    exact ⟨h, .inl hbytes, by omega⟩
  | case3 previousShape pending hfits =>
    rw [foldOldest_of_not_overfull hfits]
    unfold Overfull at hfits
    by_cases hshort : pending.length < 2
    · have hbytes := h.of_short hshort
      exact ⟨h, .inl hbytes, by omega⟩
    · exact ⟨h, .inr (by omega), by omega⟩

/-- Pushing a chunk for which there is room keeps the bound, and room for the chunks after it. -/
theorem Reducible.pushChunk {cap bytes bound budget : Nat} {pending : List HelperEvent}
    {chunk : HelperEvent} (hbudget : budget ≤ bound)
    (hbound : bytes + deltaPayloadBytes chunk ≤ bound) (hok : AllOk width height pending)
    (h : Reducible cap bytes pending) :
    Reducible cap (bytes + deltaPayloadBytes chunk) (pushChunk cap budget pending chunk) ∧
      queuedBytes (pushChunk cap budget pending chunk) ≤ bound := by
  -- the loop starts with the largest shape there is
  have hstart : ShapeLt (shape pending) (usizeMax, usizeMax) ∨ queuedBytes pending ≤ bytes := by
    rcases h with hbytes | ⟨hlength, -⟩
    · exact .inr hbytes
    · exact .inl (.inl hlength)
  obtain ⟨hq, hfew, hroom⟩ := h.foldOldest hbudget hbound hok hstart
  unfold Mailbox.pushChunk
  generalize Mailbox.foldOldest cap budget (deltaPayloadBytes chunk) (usizeMax, usizeMax) pending
    = queue at hq hfew hroom ⊢
  have hpushed : queuedBytes (queue ++ [chunk]) = queuedBytes queue + deltaPayloadBytes chunk := by
    rw [queuedBytes_append, queuedBytes_cons, queuedBytes_nil, Nat.add_zero]
  refine ⟨?_, hpushed.trans_le hroom⟩
  rcases hfew with hbytes | hfew
  · exact .inl (hpushed.trans_le (Nat.add_le_add_right hbytes _))
  · rcases hq with hbytes | ⟨-, oldest, newer, rfl, hcount, hfoldable, hbytes⟩
    · exact .inl (hpushed.trans_le (Nat.add_le_add_right hbytes _))
    · -- the chunk comes behind the foldable events
      refine .inr ⟨?_, oldest, newer ++ [chunk], List.append_assoc .., hcount, hfoldable, ?_⟩
      · rw [List.length_append, List.length_singleton]
        exact (Nat.succ_le_of_lt hfew).trans_lt (by decide)
      · rw [queuedBytes_append, queuedBytes_cons, queuedBytes_nil]
        omega

/-- Pushing chunks for which there is room keeps the bound. -/
theorem Reducible.foldl_pushChunk {cap bytes bound budget : Nat} {pending chunks : List HelperEvent}
    (hbudget : budget ≤ bound) (hbound : bytes + queuedBytes chunks ≤ bound)
    (hok : AllOk width height pending) (hchunks : AllOk width height chunks)
    (h : Reducible cap bytes pending) (hbytes : queuedBytes pending ≤ bound) :
    queuedBytes (chunks.foldl (Mailbox.pushChunk cap budget) pending) ≤ bound := by
  induction chunks generalizing pending bytes with
  | nil => exact hbytes
  | cons chunk chunks ih =>
    rw [queuedBytes_cons] at hbound
    obtain ⟨hpushed, hle⟩ :=
      @Reducible.pushChunk width height cap bytes bound budget pending chunk hbudget (by omega) hok h
    exact ih (by omega) (pushChunk_patch cap budget hok (hchunks chunk List.mem_cons_self)).1
      (fun event hevent => hchunks event (List.mem_cons_of_mem _ hevent)) hpushed hle

/-- A call that finds room ends within the bound. -/
theorem queueDeltaWithCap_bytes {cap : Nat} {pending : List HelperEvent} {delta : HelperEvent}
    (hok : AllOk width height pending) (hdelta : DeltaOk width height delta)
    (hroom : RoomFor cap width height pending delta)
    (hbytes : queuedBytes pending ≤ backlogBound cap width height) :
    queuedBytes (queueDeltaWithCap pending delta cap) ≤ backlogBound cap width height := by
  obtain ⟨oldest, newer, bytes, hsplit, hfoldable, hmerged, hfits, hlength⟩ := hroom
  have hrest : AllOk width height pending.dropLast :=
    fun event hevent => hok event (List.dropLast_subset _ hevent)
  have hnew : DeltaOk width height (mergeIntoNewest pending delta) := by
    unfold mergeIntoNewest
    split
    · next previous hlast => exact mergeDeltas_ok (hok previous (List.mem_of_getLast? hlast)) hdelta
    · exact normalizeDelta_ok hdelta
  have hchunks : queuedBytes (splitDeltaIntoChunks (mergeIntoNewest pending delta) cap) ≤ bytes := by
    rw [splitDeltaIntoChunks_bytes hnew]
    exact mergeIntoNewest_bytes hok hdelta hmerged
  -- the newest event is taken out to be merged
  have hbefore : queuedBytes pending.dropLast ≤ backlogBound cap width height := by
    refine le_trans ?_ hbytes
    rcases List.eq_nil_or_concat pending with rfl | ⟨rest, newest, rfl⟩
    · exact le_rfl
    · rw [List.concat_eq_append, List.dropLast_concat, queuedBytes_append]
      exact Nat.le_add_right _ _
  -- the older events fold into no more than their pixels
  have hreducible : Reducible cap (pixelBytes oldest + queuedBytes newer) pending.dropLast := by
    rw [hsplit] at hrest ⊢
    refine reducible_of_foldable (fun event hevent => hrest event (List.mem_append_left _ hevent))
      hfoldable ?_ le_rfl
    rw [← hsplit, List.length_dropLast]
    have : 0 < usizeMax := by decide
    omega
  exact hreducible.foldl_pushChunk (backlogBudget_le hdelta) (by omega) hrest
    (fun chunk hchunk => (splitDeltaIntoChunks_ok hnew cap chunk hchunk).1) hbefore

/-- The pixels of well-formed events are pixels of the screen. -/
theorem pixelBytes_le_screen {events : List HelperEvent} (hok : AllOk width height events) :
    pixelBytes events ≤ 4 * width.toNat * height.toNat := by
  have hsubset : unionPixels (eventEntries events)
      ⊆ Finset.range width.toNat ×ˢ Finset.range height.toNat := by
    intro q hq
    obtain ⟨entry, hentry, hp⟩ := mem_unionPixels.1 hq
    have hright := (hok.eventEntries entry hentry).right
    have hbottom := (hok.eventEntries entry hentry).bottom
    rw [rectHas_iff] at hp
    rw [Finset.mem_product, Finset.mem_range, Finset.mem_range]
    dsimp only at hp
    omega
  have hcard := Finset.card_le_card hsubset
  rw [Finset.card_product, Finset.card_range, Finset.card_range] at hcard
  rw [pixelBytes, Nat.mul_assoc]
  exact Nat.mul_le_mul_left _ hcard

theorem dropLast_append_getLast?_toList (pending : List HelperEvent) :
    pending.dropLast ++ pending.getLast?.toList = pending := by
  rcases List.eq_nil_or_concat pending with rfl | ⟨rest, newest, rfl⟩
  · rfl
  · simp

/-- Where all the bytes fit, there is room without any fold. -/
theorem roomFor_of_bytes_le {cap : Nat} {pending : List HelperEvent} {delta : HelperEvent}
    (hbytes : queuedBytes pending + deltaPayloadBytes delta ≤ backlogBound cap width height)
    (hlength : pending.length ≤ usizeMax) : RoomFor cap width height pending delta := by
  refine ⟨[], pending.dropLast, _, rfl, ⟨by simp, Nat.zero_le _, Nat.zero_le _⟩, .summed, ?_, hlength⟩
  have hzero : pixelBytes [] = 0 := rfl
  rw [← dropLast_append_getLast?_toList pending, queuedBytes_append] at hbytes
  rw [hzero]
  omega

/-- **With a cap of at least a screen there is room**, as long as the rectangles are not too many to
be trimmed: all the older events fold into one. -/
theorem roomFor_of_screen_le_cap {cap : Nat} {pending : List HelperEvent} {delta : HelperEvent}
    (hcap : 4 * width.toNat * height.toNat ≤ cap) (hok : AllOk width height (pending ++ [delta]))
    (hapart : ∀ event ∈ pending, EntriesApart (deltaEntries event))
    (hgrid : gridSize (eventEntries (pending ++ [delta])) ≤ maxMergedDeltaRects)
    (hlength : pending.length ≤ usizeMax) : RoomFor cap width height pending delta := by
  rw [← dropLast_append_getLast?_toList pending, List.append_assoc] at hok hgrid
  -- each half of the queue lies on the screen
  have holder : AllOk width height pending.dropLast := fun event hevent =>
    hok event (List.mem_append_left _ hevent)
  have hnewest : AllOk width height (pending.getLast?.toList ++ [delta]) := fun event hevent =>
    hok event (List.mem_append_right _ hevent)
  rw [eventEntries_append] at hgrid
  refine ⟨pending.dropLast, [], _, (List.append_nil _).symm, ⟨?_, ?_, ?_⟩, .trimmed ?_ ?_, ?_,
    hlength⟩
  · exact fun event hevent => hapart event (List.dropLast_subset _ hevent)
  · exact (gridSize_le_of_sublist (List.sublist_append_left _ _)).trans hgrid
  · refine (pixelBytes_le_screen ?_).trans hcap
    exact fun event hevent => holder event (List.dropLast_subset _ hevent)
  · exact fun event hevent => hapart event (List.mem_of_getLast? hevent)
  · exact (gridSize_le_of_sublist (List.sublist_append_right _ _)).trans hgrid
  · -- the older events and the newest one take a screen each
    have hold := pixelBytes_le_screen holder
    have hnew := pixelBytes_le_screen hnewest
    rw [queuedBytes_nil, backlogBound, maxPendingDeltaScreens]
    omega

/-! ### Runs without a receiver -/

/-- The queue after a sequence of deltas that nobody receives. -/
def queueAll (cap : Nat) (deltas : List HelperEvent) : List HelperEvent :=
  deltas.foldl (fun pending delta => queueDeltaWithCap pending delta cap) []

theorem queueAll_concat (cap : Nat) (deltas : List HelperEvent) (delta : HelperEvent) :
    queueAll cap (deltas ++ [delta]) = queueDeltaWithCap (queueAll cap deltas) delta cap := by
  unfold queueAll
  rw [List.foldl_append]
  rfl

theorem queueAll_ok {cap : Nat} {deltas : List HelperEvent} (h : AllOk width height deltas) :
    AllOk width height (queueAll cap deltas) := by
  induction deltas using List.reverseRecOn with
  | nil => exact fun _ hmem => absurd hmem (by simp [queueAll])
  | append_singleton deltas delta ih =>
    rw [queueAll_concat]
    exact (queueDeltaWithCap_patch cap (ih fun d hd => h d (List.mem_append_left _ hd))
      (h delta (List.mem_append_right _ List.mem_cons_self))).1

/-- **Backlog bound.** In a run of well-formed deltas of one size, none of them received, in which
there is room for every delta, the bytes waiting for delivery stay within the bound after every
call. -/
theorem backlog_bounded (cap : Nat) (width height : UInt16) (deltas : List HelperEvent)
    (hok : AllOk width height deltas)
    (hroom : ∀ before delta after, deltas = before ++ delta :: after →
      RoomFor cap width height (queueAll cap before) delta) :
    ∀ before after, deltas = before ++ after →
      queuedBytes (queueAll cap before) ≤ backlogBound cap width height := by
  intro before
  induction before using List.reverseRecOn with
  | nil => exact fun _ _ => Nat.zero_le _
  | append_singleton before delta ih =>
    intro after hsplit
    -- the last call of the prefix is a call of the run
    have hsplit' : deltas = before ++ delta :: after := by rw [hsplit]; simp
    have hmem : ∀ d ∈ before ++ [delta], DeltaOk width height d := fun d hd =>
      hok d (by rw [hsplit]; exact List.mem_append_left _ hd)
    rw [queueAll_concat]
    exact queueDeltaWithCap_bytes (queueAll_ok fun d hd => hmem d (List.mem_append_left _ hd))
      (hmem delta (List.mem_append_right _ List.mem_cons_self))
      (hroom before delta after hsplit') (ih (delta :: after) hsplit')

/-- The left and the right pixel of a two-pixel screen, painted in turn. -/
def alternating : List HelperEvent :=
  [pixelDelta 0 1, pixelDelta 1 2, pixelDelta 0 3, pixelDelta 1 4, pixelDelta 0 5,
    pixelDelta 1 6, pixelDelta 0 7]

/-- **The bound is not an invariant.** With a cap of one pixel, seven repaints leave seven events
queued: the two oldest are disjoint and full, so folding them changes nothing and the loop stops,
although every later event repaints one of them. -/
theorem alternating_exceeds_budget :
    AllOk 2 1 alternating ∧
      backlogBound 4 2 1 < queuedBytes (queueAll 4 alternating) := by
  refine ⟨?_, by decide +kernel⟩
  unfold AllOk
  decide

/-- One of the three pixels of a screen. -/
def turn (x : UInt16) : HelperEvent := .frameBgraRects 3 1 [⟨x, 0, 1, 1, 4⟩] [0, 0, 0, 255]

/-- The three pixels, painted in turn. -/
def turns : List HelperEvent := [0, 1, 2, 0, 1, 2, 0, 1, 2, 0].map turn

/-- Two of the pixels in one event. -/
def pair (x y : UInt16) : HelperEvent :=
  .frameBgraRects 3 1 [⟨x, 0, 1, 1, 4⟩, ⟨y, 0, 1, 1, 4⟩] [0, 0, 0, 255, 0, 0, 0, 255]

theorem entriesApart_pair {x y : UInt16} (h : x.toNat ≠ y.toNat) :
    EntriesApart (deltaEntries (pair x y)) := by
  refine List.pairwise_pair.2 fun p hp hq => ?_
  rw [rectHas_iff] at hp hq
  simp only [UInt16.toNat_one] at hp hq
  omega

/-- With a cap of two pixels, nine repaints fit as they are, and the tenth has room because the two
oldest events share a pixel. -/
theorem roomFor_turns : ∀ before delta after, turns = before ++ delta :: after →
    RoomFor 8 3 1 (queueAll 8 before) delta := by
  intro before delta after hsplit
  have hbefore : before = turns.take before.length := by rw [hsplit, List.take_left']; rfl
  have hdelta : turns[before.length]? = some delta := by simp [hsplit]
  have hlength : before.length < 10 := by
    have := congrArg List.length hsplit
    simp [turns] at this
    omega
  rw [hbefore]
  generalize before.length = n at hdelta hlength
  -- nine deltas fit by their bytes alone, the tenth one because the two oldest fold
  by_cases hfirst : n < 9
  · have hbytes : ∀ n < 9, queuedBytes (queueAll 8 (turns.take n)) + 4 ≤ backlogBound 8 3 1 ∧
        (queueAll 8 (turns.take n)).length ≤ usizeMax := by decide +kernel
    obtain ⟨x, -, rfl⟩ := List.mem_map.1 (List.mem_of_getElem? hdelta)
    exact roomFor_of_bytes_le (hbytes n hfirst).1 (hbytes n hfirst).2
  · obtain rfl : n = 9 := by omega
    have hqueue : queueAll 8 (turns.take 9) = [pair 0 1, pair 2 0, pair 1 2, pair 0 1, turn 2] := by
      decide +kernel
    rw [hqueue]
    refine ⟨[pair 0 1, pair 2 0], [pair 1 2, pair 0 1], _, rfl,
      ⟨?_, by decide +kernel, by decide +kernel⟩, .summed, ?_, by decide +kernel⟩
    · intro event hevent
      rcases List.mem_pair.1 hevent with rfl | rfl
      · exact entriesApart_pair (by decide)
      · exact entriesApart_pair (by decide)
    · obtain rfl : turn 0 = delta := Option.some.inj hdelta
      decide +kernel

/-- The ten repaints stay within three screens. -/
theorem backlog_bounded_turns : queuedBytes (queueAll 8 turns) ≤ backlogBound 8 3 1 :=
  backlog_bounded 8 3 1 turns (by unfold AllOk; decide) roomFor_turns turns []
    (List.append_nil _).symm

end Mailbox
end Rdp
end Navop
