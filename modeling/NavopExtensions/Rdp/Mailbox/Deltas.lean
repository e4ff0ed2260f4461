import NavopExtensions.Rdp.Mailbox.Entries

/-!
# Deltas and the pending queue

The operations of the mailbox on whole deltas, each with one statement about what it keeps and one
about what it paints. A delta is well-formed for a canvas size when its rectangles fit, announce
four bytes per pixel, and the payload is exactly as long as they announce (`DeltaOk`); it respects
the cap when it fits under it or is a single row (`Capped`).

* `merge_deltas` of two deltas of one size paints the second over the first (`mergeDeltas_patch`);
* `split_delta_into_chunks` paints what the delta paints (`splitDeltaIntoChunks_patch`) in chunks
  that respect the cap (`splitDeltaIntoChunks_ok`);
* the folding loop only ever replaces the two oldest events by the chunks of their merge, so what
  one such pass keeps the loop keeps (`foldOldest_inv`).

`queueDeltaWithCap_ok` and `queueDeltaWithCap_patch` are the two results the runs of the mailbox
use.
-/

namespace Navop
namespace Rdp
namespace Mailbox

open Overlay

/-- A rectangle fits into the canvas and announces four bytes per pixel. -/
structure RectOk (width height : UInt16) (rect : HelperFrameRect) : Prop where
  right : rect.x.toNat + rect.width.toNat ≤ width.toNat
  bottom : rect.y.toNat + rect.height.toNat ≤ height.toNat
  byteLen : rect.byteLen = 4 * rect.width.toNat * rect.height.toNat

instance (width height : UInt16) (rect : HelperFrameRect) : Decidable (RectOk width height rect) :=
  decidable_of_iff (rect.x.toNat + rect.width.toNat ≤ width.toNat ∧
      rect.y.toNat + rect.height.toNat ≤ height.toNat ∧
      rect.byteLen = 4 * rect.width.toNat * rect.height.toNat)
    ⟨fun h => ⟨h.1, h.2.1, h.2.2⟩, fun h => ⟨h.right, h.bottom, h.byteLen⟩⟩

/-- A delta is well-formed for a canvas of the given size. -/
def DeltaOk (width height : UInt16) : HelperEvent → Prop
  | .frameBgraRects w h rects bgra =>
    (w = width ∧ h = height) ∧ (∀ rect ∈ rects, RectOk width height rect) ∧
      bgra.length = (rects.map (·.byteLen)).sum
  | _ => False

instance (width height : UInt16) : DecidablePred (DeltaOk width height) := fun event =>
  match event with
  | .frameBgraRects .. => inferInstanceAs (Decidable ((_ ∧ _) ∧ (∀ rect ∈ _, _) ∧ _))
  | .status .. | .connected .. | .frameBgraBytes .. | .cursorDefault | .cursorHidden
  | .cursorPosition .. | .cursorRgbaBytes .. | .clipboardText .. | .clipboardFilesReady ..
  | .clipboardTransferFailed .. | .reconnecting .. | .connectionFailure .. | .terminated .. =>
    isFalse id

/-- A delta fits under the cap, or is a single row. -/
def Capped (cap : Nat) : HelperEvent → Prop
  | .frameBgraRects _ _ rects bgra =>
    bgra.length ≤ cap ∨ ∃ rect, rects = [rect] ∧ rect.height = 1
  | _ => True

/-- The entries of a delta. -/
def deltaEntries : HelperEvent → List DeltaEntry
  | .frameBgraRects _ _ rects bgra => splitPayload rects bgra
  | _ => []

/-- What a delta paints. -/
def deltaPatch (event : HelperEvent) : Patch Px UInt8 := entriesPatch (deltaEntries event)

/-- What a queue of deltas paints, oldest first. -/
def queuePatch (pending : List HelperEvent) : Patch Px UInt8 := stack (pending.map deltaPatch)

@[simp] theorem queuePatch_nil : queuePatch [] = blank := rfl

theorem queuePatch_append (xs ys : List HelperEvent) :
    queuePatch (xs ++ ys) = paint (queuePatch xs) (queuePatch ys) := by
  unfold queuePatch
  rw [List.map_append, stack_append]

theorem queuePatch_cons (event : HelperEvent) (pending : List HelperEvent) :
    queuePatch (event :: pending) = paint (deltaPatch event) (queuePatch pending) :=
  stack_cons _ _

theorem queuePatch_singleton (event : HelperEvent) : queuePatch [event] = deltaPatch event := by
  rw [queuePatch_cons, queuePatch_nil, paint_blank]

variable {width height : UInt16}

/-- Only rectangle events are well-formed deltas. -/
theorem DeltaOk.exists_eq {event : HelperEvent} (h : DeltaOk width height event) :
    ∃ rects bgra, event = .frameBgraRects width height rects bgra := by
  cases event with
  | frameBgraRects w h' rects bgra =>
    obtain ⟨⟨rfl, rfl⟩, -⟩ := h
    exact ⟨rects, bgra, rfl⟩
  | _ => exact h.elim

theorem DeltaOk.entryOk {event : HelperEvent} (h : DeltaOk width height event) :
    ∀ entry ∈ deltaEntries event, EntryOk width height entry := by
  obtain ⟨rects, bgra, rfl⟩ := h.exists_eq
  obtain ⟨-, hrects, hlen⟩ := h
  intro entry hentry
  have hmem : entry.1 ∈ rects := by
    rw [← splitPayload_map_fst rects bgra]
    exact List.mem_map_of_mem hentry
  have hrect := hrects entry.1 hmem
  exact ⟨hrect.right, hrect.bottom, hrect.byteLen,
    splitPayloadFrom_length (by omega) entry hentry⟩

/-! ### Joining entries back into a delta -/

section FrameChunk

variable {entries : List DeltaEntry}

theorem joinPayload_rects (h : ∀ entry ∈ entries, EntryOk width height entry) :
    (joinPayload entries).1 = entries.map Prod.fst := by
  refine List.map_congr_left fun entry hentry => ?_
  have := (h entry hentry).length
  obtain ⟨rect, pixels⟩ := entry
  simp only at this ⊢
  rw [this]

theorem deltaEntries_frameChunk (h : ∀ entry ∈ entries, EntryOk width height entry) :
    deltaEntries (frameChunk width height entries) = entries :=
  splitPayload_joinPayload fun entry hentry => (h entry hentry).length

theorem deltaPatch_frameChunk (h : ∀ entry ∈ entries, EntryOk width height entry) :
    deltaPatch (frameChunk width height entries) = entriesPatch entries := by
  unfold deltaPatch
  rw [deltaEntries_frameChunk h]

theorem deltaPayloadBytes_frameChunk (width height : UInt16) (entries : List DeltaEntry) :
    deltaPayloadBytes (frameChunk width height entries)
      = (entries.map fun entry => entry.2.length).sum := by
  change (entries.flatMap fun entry => entry.2).length = _
  rw [List.length_flatMap]

theorem frameChunk_ok (h : ∀ entry ∈ entries, EntryOk width height entry) :
    DeltaOk width height (frameChunk width height entries) := by
  refine ⟨⟨rfl, rfl⟩, ?_, ?_⟩
  · rw [joinPayload_rects h]
    intro rect hrect
    obtain ⟨entry, hentry, rfl⟩ := List.mem_map.mp hrect
    exact ⟨(h entry hentry).right, (h entry hentry).bottom, (h entry hentry).byteLen⟩
  · change deltaPayloadBytes (frameChunk width height entries) = _
    rw [deltaPayloadBytes_frameChunk, joinPayload, List.map_map]
    rfl

end FrameChunk

/-! ### Folding and merging -/

section Fold

variable {entries covers : List DeltaEntry}

theorem foldCover_ok {cover : DeltaEntry} (h : ∀ entry ∈ entries, EntryOk width height entry)
    (hcover : EntryOk width height cover) :
    ∀ entry ∈ foldCover entries cover, EntryOk width height entry := by
  intro entry hentry
  unfold foldCover at hentry
  split at hentry
  · rcases List.mem_append.mp hentry with hentry | hentry
    · exact h entry hentry
    · rw [List.mem_singleton.mp hentry]; exact hcover
  · rcases List.mem_append.mp hentry with hentry | hentry
    · -- a part of an entry that was there before
      obtain ⟨old, hold, hpart⟩ := List.mem_flatMap.mp hentry
      exact trimCoveredPixels_ok (h old hold) entry hpart
    · rw [List.mem_singleton.mp hentry]; exact hcover

/-- One cover is painted over the entries, trimmed or not. -/
theorem foldCover_patch {cover : DeltaEntry} (h : ∀ entry ∈ entries, EntryOk width height entry)
    (hcover : EntryOk width height cover) :
    entriesPatch (foldCover entries cover) = paint (entriesPatch entries) (entryPatch cover) := by
  unfold foldCover
  split
  · rw [entriesPatch_append, entriesPatch_singleton]
  · -- what is trimmed away is what the cover paints next
    unfold entriesPatch
    rw [List.map_append, List.map_flatMap, List.map_singleton]
    exact stack_erase_append (RectHas cover.1)
      (fun entry hentry => trimCoveredPixels_patch (h entry hentry)) (covers_entryPatch hcover)

theorem foldPayload_ok (h : ∀ entry ∈ entries, EntryOk width height entry)
    (hcovers : ∀ cover ∈ covers, EntryOk width height cover) :
    ∀ entry ∈ foldPayload entries covers, EntryOk width height entry := by
  induction covers generalizing entries with
  | nil => exact h
  | cons cover covers ih =>
    exact ih (foldCover_ok h (hcovers cover List.mem_cons_self))
      fun c hc => hcovers c (List.mem_cons_of_mem _ hc)

/-- **Folding.** `fold_payload` paints the covers over the entries. -/
theorem foldPayload_patch (h : ∀ entry ∈ entries, EntryOk width height entry)
    (hcovers : ∀ cover ∈ covers, EntryOk width height cover) :
    entriesPatch (foldPayload entries covers)
      = paint (entriesPatch entries) (entriesPatch covers) := by
  induction covers generalizing entries with
  | nil => simp [foldPayload]
  | cons cover covers ih =>
    have hcover := hcovers cover List.mem_cons_self
    change entriesPatch (foldPayload (foldCover entries cover) covers) = _
    rw [ih (foldCover_ok h hcover) fun c hc => hcovers c (List.mem_cons_of_mem _ hc),
      foldCover_patch h hcover, paint_assoc, ← entriesPatch_cons]

end Fold

/-- Two deltas of one size merge into the chunk of their folded entries. -/
theorem mergeDeltas_eq {previous next : HelperEvent} (hprev : DeltaOk width height previous)
    (hnext : DeltaOk width height next) :
    mergeDeltas previous next
      = frameChunk width height (foldPayload (deltaEntries previous) (deltaEntries next)) := by
  obtain ⟨rects, bgra, rfl⟩ := hprev.exists_eq
  obtain ⟨nextRects, nextBgra, rfl⟩ := hnext.exists_eq
  simp only [mergeDeltas, and_self, if_true]
  rfl

theorem mergeDeltas_ok {previous next : HelperEvent} (hprev : DeltaOk width height previous)
    (hnext : DeltaOk width height next) : DeltaOk width height (mergeDeltas previous next) := by
  rw [mergeDeltas_eq hprev hnext]
  exact frameChunk_ok (foldPayload_ok hprev.entryOk hnext.entryOk)

theorem mergeDeltas_patch {previous next : HelperEvent} (hprev : DeltaOk width height previous)
    (hnext : DeltaOk width height next) :
    deltaPatch (mergeDeltas previous next) = paint (deltaPatch previous) (deltaPatch next) := by
  rw [mergeDeltas_eq hprev hnext,
    deltaPatch_frameChunk (foldPayload_ok hprev.entryOk hnext.entryOk),
    foldPayload_patch hprev.entryOk hnext.entryOk]
  rfl

theorem normalizeDelta_eq {delta : HelperEvent} (h : DeltaOk width height delta) :
    normalizeDelta delta = frameChunk width height (foldPayload [] (deltaEntries delta)) := by
  obtain ⟨rects, bgra, rfl⟩ := h.exists_eq
  rfl

theorem normalizeDelta_ok {delta : HelperEvent} (h : DeltaOk width height delta) :
    DeltaOk width height (normalizeDelta delta) := by
  rw [normalizeDelta_eq h]
  exact frameChunk_ok (foldPayload_ok (by simp) h.entryOk)

theorem normalizeDelta_patch {delta : HelperEvent} (h : DeltaOk width height delta) :
    deltaPatch (normalizeDelta delta) = deltaPatch delta := by
  rw [normalizeDelta_eq h, deltaPatch_frameChunk (foldPayload_ok (by simp) h.entryOk),
    foldPayload_patch (by simp) h.entryOk, entriesPatch_nil, blank_paint]
  rfl

/-! ### Splitting into chunks -/

section Chunks

variable {cap : Nat}

/-- The grouping keeps every entry, in order. -/
theorem chunkEntries_flatten (cap : Nat) (current : List DeltaEntry) (currentBytes : Nat)
    (rest : List DeltaEntry) :
    (chunkEntries cap current currentBytes rest).flatten = current ++ rest := by
  induction rest generalizing current currentBytes with
  | nil =>
    rw [chunkEntries]
    split
    · next h => rw [h]; rfl
    · simp
  | cons entry rest ih =>
    rw [chunkEntries]
    split
    · rw [List.flatten_cons, ih]
      rfl
    · rw [ih, List.append_assoc]
      rfl

/-- A group fits under the cap, or is one entry alone. -/
def GroupOk (cap : Nat) (group : List DeltaEntry) : Prop :=
  (group.map fun entry => entry.2.length).sum ≤ cap ∨ ∃ entry, group = [entry]

/-- The group being filled satisfies `GroupOk` throughout: a non-empty group only grows while the
sum stays under the cap. -/
theorem chunkEntries_groupOk {current : List DeltaEntry} {currentBytes : Nat}
    (hbytes : currentBytes = (current.map fun entry => entry.2.length).sum)
    (hcurrent : GroupOk cap current) (rest : List DeltaEntry) :
    ∀ group ∈ chunkEntries cap current currentBytes rest, GroupOk cap group := by
  induction rest generalizing current currentBytes with
  | nil =>
    intro group hgroup
    rw [chunkEntries] at hgroup
    split at hgroup
    · exact absurd hgroup (by simp)
    · rw [List.mem_singleton.mp hgroup]; exact hcurrent
  | cons entry rest ih =>
    intro group hgroup
    rw [chunkEntries] at hgroup
    -- the group is full and the entry starts the next one, or it still has room
    split at hgroup
    · rcases List.mem_cons.mp hgroup with rfl | hgroup
      · exact hcurrent
      · exact ih (by simp) (Or.inr ⟨entry, rfl⟩) group hgroup
    · next hroom =>
      refine ih ?_ ?_ group hgroup
      · rw [hbytes, List.map_append, List.sum_append]
        simp
      · -- the first entry of a group is taken even when it exceeds the cap alone
        by_cases hempty : current = []
        · exact Or.inr ⟨entry, by rw [hempty]; rfl⟩
        · left
          have hle : currentBytes + entry.2.length ≤ cap := by
            by_contra hgt
            exact hroom ⟨hempty, by omega⟩
          rw [List.map_append, List.sum_append, ← hbytes]
          simpa using hle

theorem mem_of_mem_chunkEntries {entries group : List DeltaEntry} {entry : DeltaEntry}
    (hgroup : group ∈ chunkEntries cap [] 0 entries) (hentry : entry ∈ group) :
    entry ∈ entries := by
  have := chunkEntries_flatten cap [] 0 entries
  rw [List.nil_append] at this
  rw [← this]
  exact List.mem_flatten.mpr ⟨group, hgroup, hentry⟩

variable {event : HelperEvent}

theorem splitDeltaIntoChunks_eq (h : DeltaOk width height event) (cap : Nat) :
    splitDeltaIntoChunks event cap
      = (chunkEntries cap [] 0 ((deltaEntries event).flatMap (splitEntryIntoBands · cap))).map
          (frameChunk width height) := by
  obtain ⟨rects, bgra, rfl⟩ := h.exists_eq
  rfl

private theorem mem_bands (h : DeltaOk width height event) {group : List DeltaEntry}
    {entry : DeltaEntry}
    (hgroup : group ∈ chunkEntries cap [] 0
      ((deltaEntries event).flatMap (splitEntryIntoBands · cap))) (hentry : entry ∈ group) :
    EntryOk width height entry ∧ (entry.2.length ≤ cap ∨ entry.1.height.toNat = 1) := by
  obtain ⟨old, hold, hband⟩ := List.mem_flatMap.mp (mem_of_mem_chunkEntries hgroup hentry)
  exact splitEntryIntoBands_ok (h.entryOk old hold) cap entry hband

/-- Every chunk of a well-formed delta is well-formed and respects the cap. -/
theorem splitDeltaIntoChunks_ok (h : DeltaOk width height event) (cap : Nat) :
    ∀ chunk ∈ splitDeltaIntoChunks event cap, DeltaOk width height chunk ∧ Capped cap chunk := by
  rw [splitDeltaIntoChunks_eq h]
  intro chunk hchunk
  obtain ⟨group, hgroup, rfl⟩ := List.mem_map.mp hchunk
  have hok : ∀ entry ∈ group, EntryOk width height entry ∧
      (entry.2.length ≤ cap ∨ entry.1.height.toNat = 1) :=
    fun entry hentry => mem_bands h hgroup hentry
  refine ⟨frameChunk_ok fun entry hentry => (hok entry hentry).1, ?_⟩
  -- a group above the cap is a single entry, and a band above the cap is a single row
  rcases chunkEntries_groupOk (by simp) (Or.inl (by simp)) _ group hgroup with hfits | ⟨entry, rfl⟩
  · left
    change deltaPayloadBytes (frameChunk width height group) ≤ cap
    rw [deltaPayloadBytes_frameChunk]
    exact hfits
  · obtain ⟨hentry, hcap⟩ := hok entry List.mem_cons_self
    rcases hcap with hcap | hrow
    · left
      change deltaPayloadBytes (frameChunk width height [entry]) ≤ cap
      rw [deltaPayloadBytes_frameChunk]
      simpa using hcap
    · exact Or.inr ⟨_, rfl, UInt16.toNat_inj.mp hrow⟩

/-- **Splitting.** The chunks of a delta paint what the delta paints. -/
theorem splitDeltaIntoChunks_patch (h : DeltaOk width height event) (cap : Nat) :
    queuePatch (splitDeltaIntoChunks event cap) = deltaPatch event := by
  rw [splitDeltaIntoChunks_eq h]
  set bands := (deltaEntries event).flatMap (splitEntryIntoBands · cap) with hbands
  have hgroups : ∀ group ∈ chunkEntries cap [] 0 bands,
      stack (group.map entryPatch) = deltaPatch (frameChunk width height group) :=
    fun group hgroup =>
      (deltaPatch_frameChunk fun entry hentry => (mem_bands h hgroup hentry).1).symm
  -- neither cutting nor grouping changes the order of the pixels
  have hflat : (chunkEntries cap [] 0 bands).flatMap (fun group => group.map entryPatch)
      = (deltaEntries event).flatMap
          (fun entry => (splitEntryIntoBands entry cap).map entryPatch) := by
    rw [List.flatMap_def, ← List.map_flatten, chunkEntries_flatten, List.nil_append, hbands,
      List.map_flatMap]
  calc queuePatch ((chunkEntries cap [] 0 bands).map (frameChunk width height))
      = stack ((chunkEntries cap [] 0 bands).map
          fun group => deltaPatch (frameChunk width height group)) := by
        unfold queuePatch
        rw [List.map_map]
        rfl
    _ = stack ((chunkEntries cap [] 0 bands).flatMap fun group => group.map entryPatch) :=
        (stack_flatMap hgroups).symm
    _ = deltaPatch event := by
        rw [hflat]
        exact stack_flatMap fun entry hentry =>
          splitEntryIntoBands_patch (h.entryOk entry hentry) cap

end Chunks

/-! ### The pending queue -/

/-- The folding loop does nothing to a queue that is not overfull. -/
theorem foldOldest_of_not_overfull {cap budget chunkBytes : Nat} {previousShape : Nat × Nat}
    {pending : List HelperEvent} (h : ¬ Overfull budget chunkBytes pending) :
    foldOldest cap budget chunkBytes previousShape pending = pending := by
  rw [foldOldest, if_neg h]

/-- What one pass of the folding loop keeps, the loop keeps. -/
theorem foldOldest_inv {P : List HelperEvent → Prop} {cap : Nat}
    (hstep : ∀ pending, P pending → P (foldOldestPair cap pending)) (budget chunkBytes : Nat)
    (previousShape : Nat × Nat) (pending : List HelperEvent) (h : P pending) :
    P (foldOldest cap budget chunkBytes previousShape pending) := by
  rw [foldOldest]
  split
  · split
    · -- the shape shrank, which is also why the loop ends
      exact foldOldest_inv hstep budget chunkBytes (shape pending) _ (hstep pending h)
    · exact h
  · exact h
termination_by shapeRank previousShape
decreasing_by
  exact shapeRank_lt (usize_lt _) (by assumption)

/-- A property of events that a fold of the two oldest keeps is kept by the chunk loop. -/
theorem foldl_pushChunk_forall {Q : HelperEvent → Prop} {cap : Nat}
    (hpair : ∀ pending, (∀ e ∈ pending, Q e) → ∀ e ∈ foldOldestPair cap pending, Q e)
    (budget : Nat) {pending chunks : List HelperEvent} (h : ∀ e ∈ pending, Q e)
    (hchunks : ∀ e ∈ chunks, Q e) :
    ∀ e ∈ chunks.foldl (pushChunk cap budget) pending, Q e := by
  induction chunks generalizing pending with
  | nil => exact h
  | cons chunk chunks ih =>
    refine ih (fun e he => ?_) fun e he => hchunks e (List.mem_cons_of_mem _ he)
    rcases List.mem_append.mp he with he | he
    · exact foldOldest_inv (P := fun q => ∀ e ∈ q, Q e) hpair budget _ _ pending h e he
    · rw [List.mem_singleton.mp he]
      exact hchunks chunk List.mem_cons_self

section Sizes

variable {S : UInt16 → UInt16 → Prop} {cap : Nat}

/-- A delta that is well-formed for one of the sizes in `S`. -/
def DeltaIn (S : UInt16 → UInt16 → Prop) (event : HelperEvent) : Prop :=
  ∃ width height, S width height ∧ DeltaOk width height event

/-- Merging deltas of different sizes keeps the newer one, so a merge is always well-formed for a
size that one of the two had. -/
theorem mergeDeltas_in {previous next : HelperEvent} (hprev : DeltaIn S previous)
    (hnext : DeltaIn S next) : DeltaIn S (mergeDeltas previous next) := by
  obtain ⟨w, h, hS, hprev⟩ := hprev
  obtain ⟨w', h', hS', hnext⟩ := hnext
  by_cases hsize : w = w' ∧ h = h'
  · obtain ⟨rfl, rfl⟩ := hsize
    exact ⟨w, h, hS, mergeDeltas_ok hprev hnext⟩
  · -- the sizes differ: the next delta survives as it is
    refine ⟨w', h', hS', ?_⟩
    obtain ⟨rects, bgra, rfl⟩ := hprev.exists_eq
    obtain ⟨nextRects, nextBgra, rfl⟩ := hnext.exists_eq
    simp only [mergeDeltas, hsize, if_false]
    exact hnext

/-- The representation invariant of the pending queue. -/
def QueueOk (S : UInt16 → UInt16 → Prop) (cap : Nat) (pending : List HelperEvent) : Prop :=
  ∀ event ∈ pending, DeltaIn S event ∧ Capped cap event

theorem splitDeltaIntoChunks_queueOk {event : HelperEvent} (h : DeltaIn S event) (cap : Nat) :
    QueueOk S cap (splitDeltaIntoChunks event cap) := by
  obtain ⟨w, h', hS, hok⟩ := h
  intro chunk hchunk
  obtain ⟨hchunk, hcap⟩ := splitDeltaIntoChunks_ok hok cap chunk hchunk
  exact ⟨⟨w, h', hS, hchunk⟩, hcap⟩

theorem QueueOk.append {xs ys : List HelperEvent} (hx : QueueOk S cap xs) (hy : QueueOk S cap ys) :
    QueueOk S cap (xs ++ ys) := by
  intro event hevent
  rcases List.mem_append.mp hevent with h | h
  · exact hx event h
  · exact hy event h

theorem foldOldestPair_ok {pending : List HelperEvent} (h : QueueOk S cap pending) :
    QueueOk S cap (foldOldestPair cap pending) := by
  unfold foldOldestPair
  split
  · next oldest second rest =>
    have hmerged : DeltaIn S (mergeDeltas oldest second) :=
      mergeDeltas_in (h oldest List.mem_cons_self).1
        (h second (List.mem_cons_of_mem _ List.mem_cons_self)).1
    refine (splitDeltaIntoChunks_queueOk hmerged cap).append fun event hevent => h event ?_
    exact List.mem_cons_of_mem _ (List.mem_cons_of_mem _ hevent)
  · exact h

theorem mergeIntoNewest_in {pending : List HelperEvent} {delta : HelperEvent}
    (h : QueueOk S cap pending) (hdelta : DeltaIn S delta) :
    DeltaIn S (mergeIntoNewest pending delta) := by
  unfold mergeIntoNewest
  split
  · next previous hlast =>
    exact mergeDeltas_in (h previous (List.mem_of_getLast? hlast)).1 hdelta
  · obtain ⟨w, h', hS, hok⟩ := hdelta
    exact ⟨w, h', hS, normalizeDelta_ok hok⟩

theorem foldl_pushChunk_ok (budget : Nat) {pending chunks : List HelperEvent}
    (h : QueueOk S cap pending) (hchunks : QueueOk S cap chunks) :
    QueueOk S cap (chunks.foldl (pushChunk cap budget) pending) :=
  foldl_pushChunk_forall (fun _ hq => foldOldestPair_ok hq) budget h hchunks

/-- **Queueing keeps the representation invariant.** -/
theorem queueDeltaWithCap_ok {pending : List HelperEvent} {delta : HelperEvent}
    (h : QueueOk S cap pending) (hdelta : DeltaIn S delta) :
    QueueOk S cap (queueDeltaWithCap pending delta cap) :=
  foldl_pushChunk_ok _ (fun event hevent => h event (List.dropLast_subset _ hevent))
    (splitDeltaIntoChunks_queueOk (mergeIntoNewest_in h hdelta) cap)

end Sizes

/-! ### What the queue paints -/

section OneSize

variable {cap : Nat}

/-- The deltas of a queue that holds one canvas size. -/
def AllOk (width height : UInt16) (pending : List HelperEvent) : Prop :=
  ∀ event ∈ pending, DeltaOk width height event

theorem foldOldestPair_patch {pending : List HelperEvent} (h : AllOk width height pending) :
    AllOk width height (foldOldestPair cap pending) ∧
      queuePatch (foldOldestPair cap pending) = queuePatch pending := by
  unfold foldOldestPair
  split
  · next oldest second rest =>
    have holdest := h oldest List.mem_cons_self
    have hsecond := h second (List.mem_cons_of_mem _ List.mem_cons_self)
    have hmerged := mergeDeltas_ok holdest hsecond
    constructor
    · intro event hevent
      rcases List.mem_append.mp hevent with hevent | hevent
      · exact (splitDeltaIntoChunks_ok hmerged cap event hevent).1
      · exact h event (List.mem_cons_of_mem _ (List.mem_cons_of_mem _ hevent))
    · rw [queuePatch_append, splitDeltaIntoChunks_patch hmerged,
        mergeDeltas_patch holdest hsecond, queuePatch_cons, queuePatch_cons, paint_assoc]
  · exact ⟨h, rfl⟩

theorem pushChunk_patch (cap budget : Nat) {pending : List HelperEvent} {chunk : HelperEvent}
    (h : AllOk width height pending) (hchunk : DeltaOk width height chunk) :
    AllOk width height (pushChunk cap budget pending chunk) ∧
      queuePatch (pushChunk cap budget pending chunk)
        = paint (queuePatch pending) (deltaPatch chunk) := by
  -- making room first: the loop keeps what the queue paints
  obtain ⟨hok, hpatch⟩ := foldOldest_inv
    (P := fun q => AllOk width height q ∧ queuePatch q = queuePatch pending)
    (fun q hq => ⟨(foldOldestPair_patch hq.1).1, (foldOldestPair_patch hq.1).2.trans hq.2⟩)
    budget (deltaPayloadBytes chunk) (usizeMax, usizeMax) pending ⟨h, rfl⟩
  constructor
  · intro event hevent
    rcases List.mem_append.mp hevent with hevent | hevent
    · exact hok event hevent
    · rw [List.mem_singleton.mp hevent]; exact hchunk
  · unfold pushChunk
    rw [queuePatch_append, hpatch, queuePatch_singleton]

theorem foldl_pushChunk_patch (cap budget : Nat) {pending chunks : List HelperEvent}
    (h : AllOk width height pending) (hchunks : AllOk width height chunks) :
    AllOk width height (chunks.foldl (pushChunk cap budget) pending) ∧
      queuePatch (chunks.foldl (pushChunk cap budget) pending)
        = paint (queuePatch pending) (queuePatch chunks) := by
  induction chunks generalizing pending with
  | nil => exact ⟨h, by simp⟩
  | cons chunk chunks ih =>
    obtain ⟨hok, hpatch⟩ := pushChunk_patch cap budget h (hchunks chunk List.mem_cons_self)
    obtain ⟨hok', hpatch'⟩ := ih hok fun event hevent =>
      hchunks event (List.mem_cons_of_mem _ hevent)
    refine ⟨hok', ?_⟩
    rw [List.foldl_cons, hpatch', hpatch, paint_assoc, queuePatch_cons]

/-- **Queueing paints.** On a queue of one canvas size, queueing a delta of that size paints the
delta over what was pending, whatever was merged, trimmed, split or folded on the way. -/
theorem queueDeltaWithCap_patch (cap : Nat) {pending : List HelperEvent} {delta : HelperEvent}
    (h : AllOk width height pending) (hdelta : DeltaOk width height delta) :
    AllOk width height (queueDeltaWithCap pending delta cap) ∧
      queuePatch (queueDeltaWithCap pending delta cap)
        = paint (queuePatch pending) (deltaPatch delta) := by
  have hrest : AllOk width height pending.dropLast :=
    fun event hevent => h event (List.dropLast_subset _ hevent)
  obtain ⟨hok, hpatch⟩ : DeltaOk width height (mergeIntoNewest pending delta) ∧
      paint (queuePatch pending.dropLast) (deltaPatch (mergeIntoNewest pending delta))
        = paint (queuePatch pending) (deltaPatch delta) := by
    unfold mergeIntoNewest
    cases hlast : pending.getLast? with
    | none =>
      -- nothing is pending, and normalizing a delta does not change what it paints
      have hnil : pending = [] := List.getLast?_eq_none_iff.mp hlast
      refine ⟨normalizeDelta_ok hdelta, ?_⟩
      simp only
      rw [normalizeDelta_patch hdelta, hnil]
      rfl
    | some previous =>
      have hprev := h previous (List.mem_of_getLast? hlast)
      -- the newest event leaves the queue and comes back merged with the delta
      have hsplit : pending = pending.dropLast ++ [previous] :=
        (List.dropLast_append_getLast? previous hlast).symm
      refine ⟨mergeDeltas_ok hprev hdelta, ?_⟩
      simp only
      rw [mergeDeltas_patch hprev hdelta, ← paint_assoc]
      conv_rhs => rw [hsplit, queuePatch_append, queuePatch_singleton]
  obtain ⟨hall, hqueue⟩ := foldl_pushChunk_patch cap (backlogBudget cap delta) hrest
    fun chunk hchunk => (splitDeltaIntoChunks_ok hok cap chunk hchunk).1
  refine ⟨hall, ?_⟩
  unfold queueDeltaWithCap
  rw [hqueue, splitDeltaIntoChunks_patch hok, hpatch]

end OneSize

end Mailbox
end Rdp
end Navop
