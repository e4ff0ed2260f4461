import NavopExtensions.Rdp.Mailbox.Deltas

/-!
# Folding keeps rectangles apart

`fold_payload` trims from the earlier rectangles what a later one covers. As long as there are few
enough rectangles that it does, the result is the exact overlay of its inputs (`fold_exact`): the
rectangles are apart, they cover what the inputs cover, and a byte is the one of the last cover that
has it.

The limit is on the rectangles there are while a cover is applied, not on the rectangles of the
delta. A cover that crosses many rectangles cuts each of them in two, so that a delta of 130
rectangles that form a grid passes the limit, and what comes after that is appended untrimmed
(`grid_overlaps`).
-/

namespace Navop
namespace Rdp
namespace Mailbox

open Overlay

/-- No byte is in both rectangles. -/
def Apart (a b : HelperFrameRect) : Prop := ∀ p, RectHas a p → ¬ RectHas b p

/-- The rectangles of the entries are pairwise apart. -/
def EntriesApart (entries : List DeltaEntry) : Prop :=
  entries.Pairwise fun a b => Apart a.1 b.1

/-- Every cover finds few enough entries to trim them. -/
def WithinLimit (entries covers : List DeltaEntry) : Prop :=
  ∀ k < covers.length, (foldPayload entries (covers.take k)).length ≤ maxMergedDeltaRects

instance (entries covers : List DeltaEntry) : Decidable (WithinLimit entries covers) := by
  unfold WithinLimit
  infer_instance

/-- The pixels of a rectangle. -/
def rectPixels (rect : HelperFrameRect) : Finset (ℕ × ℕ) :=
  Finset.Ico rect.x.toNat (rect.x.toNat + rect.width.toNat)
    ×ˢ Finset.Ico rect.y.toNat (rect.y.toNat + rect.height.toNat)

/-- The pixels of all rectangles. -/
def unionPixels : List DeltaEntry → Finset (ℕ × ℕ)
  | [] => ∅
  | entry :: entries => rectPixels entry.1 ∪ unionPixels entries

/-- The byte of the last cover that has it, or of the entry that does if no cover has it. -/
def overlayByte (entries covers : List DeltaEntry) (p : Px) : Option UInt8 :=
  ((covers.reverse ++ entries).find? fun entry => decide (RectHas entry.1 p)).bind
    fun entry => entryPatch entry p

/-- The exact overlay of some covers over some entries. -/
structure ExactOverlay (width height : UInt16) (entries covers result : List DeltaEntry) : Prop where
  ok : ∀ entry ∈ result, EntryOk width height entry
  apart : EntriesApart result
  area : ∀ p, (∃ entry ∈ result, RectHas entry.1 p) ↔ ∃ entry ∈ entries ++ covers, RectHas entry.1 p
  byte : ∀ entry ∈ result, ∀ p, RectHas entry.1 p → entryPatch entry p = overlayByte entries covers p
  payload : (joinPayload result).2.length = 4 * (unionPixels (entries ++ covers)).card

variable {width height : UInt16}

/-! ### Parts of a rectangle -/

theorem Apart.symm {a b : HelperFrameRect} (h : Apart a b) : Apart b a :=
  fun p hb ha => h p ha hb

/-- A well-formed entry paints the bytes of its rectangle. -/
theorem covers_entryPatch_iff {entry : DeltaEntry} (h : EntryOk width height entry) (p : Px) :
    covers (entryPatch entry) p ↔ RectHas entry.1 p := by
  refine ⟨fun hcovers => ?_, covers_entryPatch h p⟩
  by_contra hno
  rw [covers, entryPatch_of_not hno] at hcovers
  exact absurd hcovers (by simp)

/-- Together, well-formed entries paint the bytes of their rectangles. -/
theorem covers_entriesPatch_iff {entries : List DeltaEntry}
    (h : ∀ entry ∈ entries, EntryOk width height entry) (p : Px) :
    covers (entriesPatch entries) p ↔ ∃ entry ∈ entries, RectHas entry.1 p := by
  induction entries with
  | nil => simp [covers]
  | cons entry entries ih =>
    obtain ⟨hentry, hentries⟩ := List.forall_mem_cons.1 h
    have hrest := ih hentries
    have hfirst := covers_entryPatch_iff hentry p
    unfold covers at hrest hfirst ⊢
    rw [entriesPatch_cons, paint_apply, Option.isSome_or, Bool.or_eq_true, hrest, hfirst,
      List.exists_mem_cons_iff, or_comm]

/-- What is painted by one of some well-formed entries is painted by all together. -/
theorem covers_of_mem {entries : List DeltaEntry} {entry : DeltaEntry} {p : Px}
    (h : ∀ entry ∈ entries, EntryOk width height entry) (hentry : entry ∈ entries)
    (hp : RectHas entry.1 p) : covers (entriesPatch entries) p :=
  (covers_entriesPatch_iff h p).2 ⟨entry, hentry, hp⟩

section Parts

variable {rect cover : HelperFrameRect} {pixels : List UInt8} {part : DeltaEntry}

/-- The parts of a rectangle lie in it and outside the cover. -/
theorem rectHas_of_mem_trim (h : EntryOk width height (rect, pixels))
    (hpart : part ∈ trimCoveredPixels rect pixels cover) {p : Px} (hp : RectHas part.1 p) :
    RectHas rect p ∧ ¬ RectHas cover p := by
  have hcovers := covers_of_mem (trimCoveredPixels_ok h) hpart hp
  rw [trimCoveredPixels_patch h, covers, erase_apply] at hcovers
  split at hcovers
  · exact absurd hcovers (by simp)
  · next hcover => exact ⟨(covers_entryPatch_iff h p).1 hcovers, hcover⟩

variable {rowStart rowEnd columnStart columnEnd : ℕ}

/-- The part that `push_band` pushes lies in the band. -/
theorem inBand_of_mem_pushBand (h : EntryOk width height (rect, pixels))
    (hleft : rect.x.toNat ≤ columnStart) (hright : columnEnd ≤ rect.x.toNat + rect.width.toNat)
    (htop : rect.y.toNat ≤ rowStart) (hbottom : rowEnd ≤ rect.y.toNat + rect.height.toNat)
    (hpart : part ∈ pushBand rect pixels rowStart rowEnd columnStart columnEnd) {p : Px}
    (hp : RectHas part.1 p) : InBand rowStart rowEnd columnStart columnEnd p := by
  have hcovers := covers_of_mem (pushBand_ok h hleft hright htop hbottom) hpart hp
  rw [covers, pushBand_patch h hleft hright htop hbottom] at hcovers
  split at hcovers
  · next hin => exact hin
  · exact absurd hcovers (by simp)

/-- `push_band` pushes at most one part. -/
theorem entriesApart_pushBand :
    EntriesApart (pushBand rect pixels rowStart rowEnd columnStart columnEnd) := by
  unfold pushBand
  split
  · exact .nil
  · dsimp only
    split
    · exact .nil
    · exact List.pairwise_singleton _ _

/-- Parts that lie in disjoint bands are apart. -/
theorem apart_of_bands {rowStart' rowEnd' columnStart' columnEnd' : ℕ} {part' : DeltaEntry}
    (h : ∀ p, RectHas part.1 p → InBand rowStart rowEnd columnStart columnEnd p)
    (h' : ∀ p, RectHas part'.1 p → InBand rowStart' rowEnd' columnStart' columnEnd' p)
    (hdisjoint : rowEnd ≤ rowStart' ∨ rowEnd' ≤ rowStart ∨ columnEnd ≤ columnStart'
      ∨ columnEnd' ≤ columnStart) : Apart part.1 part'.1 := by
  intro p hp hp'
  have hin := h p hp
  have hin' := h' p hp'
  unfold InBand at hin hin'
  omega

/-- The parts of a rectangle are apart. -/
theorem entriesApart_trim (h : EntryOk width height (rect, pixels)) :
    EntriesApart (trimCoveredPixels rect pixels cover) := by
  unfold trimCoveredPixels EntriesApart
  dsimp only
  split
  · exact List.pairwise_singleton _ _
  · next hoverlap =>
    -- above, below, left and right of the cover
    rw [List.pairwise_append, List.pairwise_append, List.pairwise_append]
    simp only [List.mem_append]
    refine ⟨⟨⟨entriesApart_pushBand, entriesApart_pushBand, ?_⟩, entriesApart_pushBand, ?_⟩,
      entriesApart_pushBand, ?_⟩
    · intro above habove below hbelow
      refine apart_of_bands
        (fun p => inBand_of_mem_pushBand h ?_ ?_ ?_ ?_ habove)
        (fun p => inBand_of_mem_pushBand h ?_ ?_ ?_ ?_ hbelow) ?_ <;> omega
    · rintro outer (habove | hbelow) left hleft
      · refine apart_of_bands
          (fun p => inBand_of_mem_pushBand h ?_ ?_ ?_ ?_ habove)
          (fun p => inBand_of_mem_pushBand h ?_ ?_ ?_ ?_ hleft) ?_ <;> omega
      · refine apart_of_bands
          (fun p => inBand_of_mem_pushBand h ?_ ?_ ?_ ?_ hbelow)
          (fun p => inBand_of_mem_pushBand h ?_ ?_ ?_ ?_ hleft) ?_ <;> omega
    · rintro outer ((habove | hbelow) | hleft) right hright
      · refine apart_of_bands
          (fun p => inBand_of_mem_pushBand h ?_ ?_ ?_ ?_ habove)
          (fun p => inBand_of_mem_pushBand h ?_ ?_ ?_ ?_ hright) ?_ <;> omega
      · refine apart_of_bands
          (fun p => inBand_of_mem_pushBand h ?_ ?_ ?_ ?_ hbelow)
          (fun p => inBand_of_mem_pushBand h ?_ ?_ ?_ ?_ hright) ?_ <;> omega
      · refine apart_of_bands
          (fun p => inBand_of_mem_pushBand h ?_ ?_ ?_ ?_ hleft)
          (fun p => inBand_of_mem_pushBand h ?_ ?_ ?_ ?_ hright) ?_ <;> omega

end Parts

/-! ### One cover after another -/

section Fold

variable {entries covers : List DeltaEntry}

/-- Trimming by a cover: what is left of the entries, and the cover. -/
theorem foldCover_of_le {cover : DeltaEntry} (hcount : entries.length ≤ maxMergedDeltaRects) :
    foldCover entries cover
      = entries.flatMap (fun entry => trimCoveredPixels entry.1 entry.2 cover.1) ++ [cover] :=
  if_neg (by omega)

/-- One cover keeps the entries apart. -/
theorem entriesApart_foldCover {cover : DeltaEntry}
    (hok : ∀ entry ∈ entries, EntryOk width height entry) (h : EntriesApart entries)
    (hcount : entries.length ≤ maxMergedDeltaRects) : EntriesApart (foldCover entries cover) := by
  rw [foldCover_of_le hcount]
  refine List.pairwise_append.2 ⟨List.pairwise_flatMap.2 ⟨?_, ?_⟩, List.pairwise_singleton _ _, ?_⟩
  · exact fun entry hentry => entriesApart_trim (hok entry hentry)
  · -- parts of rectangles that are apart
    refine h.imp_of_mem fun ha hb hapart part hpart part' hpart' p hp hp' => ?_
    exact hapart p (rectHas_of_mem_trim (hok _ ha) hpart hp).1
      (rectHas_of_mem_trim (hok _ hb) hpart' hp').1
  · intro part hpart last hlast p hp hcover
    obtain ⟨entry, hentry, hpart⟩ := List.mem_flatMap.1 hpart
    rw [List.mem_singleton.1 hlast] at hcover
    exact (rectHas_of_mem_trim (hok entry hentry) hpart hp).2 hcover

theorem WithinLimit.head {cover : DeltaEntry} (h : WithinLimit entries (cover :: covers)) :
    entries.length ≤ maxMergedDeltaRects :=
  h 0 (Nat.zero_lt_succ _)

theorem WithinLimit.tail {cover : DeltaEntry} (h : WithinLimit entries (cover :: covers)) :
    WithinLimit (foldCover entries cover) covers :=
  fun k hk => h (k + 1) (Nat.succ_lt_succ hk)

/-- **Folding keeps the entries apart**, within the limit. -/
theorem entriesApart_foldPayload (hok : ∀ entry ∈ entries, EntryOk width height entry)
    (hcovers : ∀ cover ∈ covers, EntryOk width height cover) (h : EntriesApart entries)
    (hcount : WithinLimit entries covers) : EntriesApart (foldPayload entries covers) := by
  induction covers generalizing entries with
  | nil => exact h
  | cons cover covers ih =>
    obtain ⟨hcover, hrest⟩ := List.forall_mem_cons.1 hcovers
    exact ih (foldCover_ok hok hcover) hrest (entriesApart_foldCover hok h hcount.head) hcount.tail

/-- What the folded entries cover. -/
theorem area_foldPayload (hok : ∀ entry ∈ entries, EntryOk width height entry)
    (hcovers : ∀ cover ∈ covers, EntryOk width height cover) (p : Px) :
    (∃ entry ∈ foldPayload entries covers, RectHas entry.1 p)
      ↔ ∃ entry ∈ entries ++ covers, RectHas entry.1 p := by
  have hall : ∀ entry ∈ entries ++ covers, EntryOk width height entry := by
    intro entry hentry
    rcases List.mem_append.1 hentry with hentry | hentry
    · exact hok entry hentry
    · exact hcovers entry hentry
  rw [← covers_entriesPatch_iff (foldPayload_ok hok hcovers), ← covers_entriesPatch_iff hall,
    foldPayload_patch hok hcovers, entriesPatch_append]

end Fold

/-! ### What is seen of entries that are apart -/

section Bytes

variable {entries covers : List DeltaEntry} {p : Px}

/-- What a list of entries paints is the byte of the last one that has it. -/
theorem entriesPatch_eq_find (h : ∀ entry ∈ entries, EntryOk width height entry) :
    entriesPatch entries p
      = (entries.reverse.find? fun entry => decide (RectHas entry.1 p)).bind
        fun entry => entryPatch entry p := by
  induction entries with
  | nil => rfl
  | cons entry entries ih =>
    obtain ⟨hentry, hentries⟩ := List.forall_mem_cons.1 h
    rw [entriesPatch_cons, paint_apply, ih hentries, List.reverse_cons, List.find?_append]
    cases hfind : entries.reverse.find? fun entry => decide (RectHas entry.1 p) with
    | some last =>
      have hlast : RectHas last.1 p := by simpa using List.find?_some hfind
      have hmem : last ∈ entries := List.mem_reverse.1 (List.mem_of_find?_eq_some hfind)
      obtain ⟨byte, hbyte⟩ := Option.isSome_iff_exists.1
        (covers_entryPatch (hentries last hmem) p hlast)
      simp [hbyte]
    | none =>
      by_cases hp : RectHas entry.1 p
      · simp [hp]
      · simp [hp, entryPatch_of_not hp]

/-- Of entries that are apart, at most one has a byte. -/
theorem find_eq_of_mem (h : EntriesApart entries) {entry : DeltaEntry} (hentry : entry ∈ entries)
    (hp : RectHas entry.1 p) :
    (entries.find? fun entry => decide (RectHas entry.1 p)) = some entry := by
  induction entries with
  | nil => simp at hentry
  | cons first entries ih =>
    obtain ⟨hfirst, hrest⟩ := List.pairwise_cons.1 h
    rcases List.mem_cons.1 hentry with rfl | hentry
    · simp [hp]
    · have hno : ¬ RectHas first.1 p := fun hhas => hfirst entry hentry p hhas hp
      rw [List.find?_cons_of_neg (by simpa using hno)]
      exact ih hrest hentry

/-- Entries that are apart paint the same in any order. -/
theorem entriesPatch_of_mem (h : EntriesApart entries)
    (hok : ∀ entry ∈ entries, EntryOk width height entry) {entry : DeltaEntry}
    (hentry : entry ∈ entries) (hp : RectHas entry.1 p) :
    entriesPatch entries p = entryPatch entry p := by
  have hreverse : EntriesApart entries.reverse :=
    List.pairwise_reverse.2 (h.imp fun hapart => hapart.symm)
  rw [entriesPatch_eq_find hok, find_eq_of_mem hreverse (List.mem_reverse.2 hentry) hp]
  rfl

/-- The covers painted over entries that are apart show the bytes of the overlay. -/
theorem paint_eq_overlayByte (h : EntriesApart entries)
    (hok : ∀ entry ∈ entries, EntryOk width height entry)
    (hcovers : ∀ cover ∈ covers, EntryOk width height cover) :
    paint (entriesPatch entries) (entriesPatch covers) p = overlayByte entries covers p := by
  rw [paint_apply, entriesPatch_eq_find hcovers, overlayByte, List.find?_append]
  -- the last cover over the point decides
  cases hfind : covers.reverse.find? fun cover => decide (RectHas cover.1 p) with
  | some last =>
    have hlast : RectHas last.1 p := by simpa using List.find?_some hfind
    have hmem : last ∈ covers := List.mem_reverse.1 (List.mem_of_find?_eq_some hfind)
    obtain ⟨byte, hbyte⟩ := Option.isSome_iff_exists.1
      (covers_entryPatch (hcovers last hmem) p hlast)
    simp [hbyte]
  | none =>
    -- without a cover over the point it is the one entry that has it
    cases hold : entries.find? fun entry => decide (RectHas entry.1 p) with
    | some entry =>
      have hp : RectHas entry.1 p := by simpa using List.find?_some hold
      rw [entriesPatch_of_mem h hok (List.mem_of_find?_eq_some hold) hp]
      rfl
    | none =>
      have hnone : entriesPatch entries p = none := by
        by_contra hsome
        have hcovered : Overlay.covers (entriesPatch entries) p := Option.isSome_iff_ne_none.2 hsome
        obtain ⟨entry, hentry, hp⟩ := (covers_entriesPatch_iff hok p).1 hcovered
        simpa [hp] using List.find?_eq_none.1 hold entry hentry
      rw [hnone]
      rfl

end Bytes

/-! ### The payload -/

section Payload

variable {entries : List DeltaEntry}

theorem mem_rectPixels {rect : HelperFrameRect} {q : ℕ × ℕ} :
    q ∈ rectPixels rect ↔ RectHas rect (q.1, q.2, 0) := by
  simp [rectPixels, rectHas_iff]

theorem mem_unionPixels {q : ℕ × ℕ} :
    q ∈ unionPixels entries ↔ ∃ entry ∈ entries, RectHas entry.1 (q.1, q.2, 0) := by
  induction entries with
  | nil => simp [unionPixels]
  | cons entry entries ih =>
    rw [unionPixels, Finset.mem_union, mem_rectPixels, ih, List.exists_mem_cons_iff]

/-- Entries that are apart carry four bytes for each of their pixels. -/
theorem length_joinPayload (h : EntriesApart entries)
    (hok : ∀ entry ∈ entries, EntryOk width height entry) :
    (joinPayload entries).2.length = 4 * (unionPixels entries).card := by
  induction entries with
  | nil => rfl
  | cons entry entries ih =>
    obtain ⟨hentry, hentries⟩ := List.forall_mem_cons.1 hok
    obtain ⟨hapart, hrest⟩ := List.pairwise_cons.1 h
    have hdisjoint : Disjoint (rectPixels entry.1) (unionPixels entries) := by
      refine Finset.disjoint_left.2 fun q hq hq' => ?_
      obtain ⟨other, hother, hp⟩ := mem_unionPixels.1 hq'
      exact hapart other hother _ (mem_rectPixels.1 hq) hp
    have hjoin : (joinPayload (entry :: entries)).2 = entry.2 ++ (joinPayload entries).2 := by
      simp [joinPayload]
    have hcard : (rectPixels entry.1).card = entry.1.width.toNat * entry.1.height.toNat := by
      simp [rectPixels]
    rw [hjoin, List.length_append, ih hrest hentries, hentry.length_eq, unionPixels,
      Finset.card_union_of_disjoint hdisjoint, hcard]
    ring

end Payload

/-- **Folding is exact.** Within the limit, `fold_payload` computes the exact overlay of the covers
over entries that are apart, and `normalize_delta` yields rectangles that are apart. -/
theorem fold_exact {entries covers : List DeltaEntry} {delta : HelperEvent}
    (hok : ∀ entry ∈ entries, EntryOk width height entry)
    (hcovers : ∀ cover ∈ covers, EntryOk width height cover) (hapart : EntriesApart entries)
    (hcount : WithinLimit entries covers) (hdelta : DeltaOk width height delta)
    (hlimit : WithinLimit [] (deltaEntries delta)) :
    ExactOverlay width height entries covers (foldPayload entries covers) ∧
      EntriesApart (deltaEntries (normalizeDelta delta)) := by
  have hresult := entriesApart_foldPayload hok hcovers hapart hcount
  have harea := area_foldPayload hok hcovers
  have hbytes : ∀ entry ∈ foldPayload entries covers, ∀ p, RectHas entry.1 p →
      entryPatch entry p = overlayByte entries covers p := by
    intro entry hentry p hp
    rw [← entriesPatch_of_mem hresult (foldPayload_ok hok hcovers) hentry hp,
      foldPayload_patch hok hcovers, paint_eq_overlayByte hapart hok hcovers]
  have hpixels : unionPixels (foldPayload entries covers) = unionPixels (entries ++ covers) := by
    ext q
    rw [mem_unionPixels, mem_unionPixels, harea]
  refine ⟨⟨foldPayload_ok hok hcovers, hresult, harea, hbytes, ?_⟩, ?_⟩
  · rw [length_joinPayload hresult (foldPayload_ok hok hcovers), hpixels]
  · rw [normalizeDelta_eq hdelta, deltaEntries_frameChunk (foldPayload_ok (by simp) hdelta.entryOk)]
    exact entriesApart_foldPayload (by simp) hdelta.entryOk .nil hlimit

/-- Two pixels, and a cover over the second one. -/
def twoPixels : DeltaEntry := (⟨0, 0, 2, 1, 8⟩, [1, 1, 1, 1, 2, 2, 2, 2])

/-- The cover: one pixel in the first row. -/
def onePixel : DeltaEntry := (⟨1, 0, 1, 1, 4⟩, [9, 9, 9, 9])

/-- With them, folding leaves one pixel of each. -/
theorem fold_exact_pixels :
    ExactOverlay 2 1 [twoPixels] [onePixel] (foldPayload [twoPixels] [onePixel]) ∧
      EntriesApart (deltaEntries (normalizeDelta (frameChunk 2 1 [twoPixels, onePixel]))) :=
  fold_exact (List.forall_mem_singleton.2 ⟨by decide, by decide, by decide, by decide⟩)
    (List.forall_mem_singleton.2 ⟨by decide, by decide, by decide, by decide⟩)
    (List.pairwise_singleton _ _) (by decide) (by decide) (by decide)

/-! ### A delta that passes the limit -/

section Grid

variable {entries covers : List DeltaEntry}

/-- Every folded entry lies in an entry, and apart from the covers, or in a cover. -/
theorem origin_of_mem_foldPayload (hok : ∀ entry ∈ entries, EntryOk width height entry)
    (hcovers : ∀ cover ∈ covers, EntryOk width height cover) (hcount : WithinLimit entries covers)
    {part : DeltaEntry} (hpart : part ∈ foldPayload entries covers) :
    (∃ entry ∈ entries, (∀ p, RectHas part.1 p → RectHas entry.1 p) ∧
        ∀ cover ∈ covers, Apart part.1 cover.1)
      ∨ ∃ cover ∈ covers, ∀ p, RectHas part.1 p → RectHas cover.1 p := by
  induction covers generalizing entries with
  | nil => exact .inl ⟨part, hpart, fun _ => id, by simp⟩
  | cons cover covers ih =>
    obtain ⟨hcover, hrest⟩ := List.forall_mem_cons.1 hcovers
    rcases ih (foldCover_ok hok hcover) hrest hcount.tail hpart with
      ⟨old, hold, hwithin, hapart⟩ | ⟨later, hlater, hwithin⟩
    · rw [foldCover_of_le hcount.head, List.mem_append] at hold
      rcases hold with hold | hold
      · obtain ⟨entry, hentry, htrim⟩ := List.mem_flatMap.1 hold
        have hin := fun p hp => rectHas_of_mem_trim (hok entry hentry) htrim (hwithin p hp)
        exact .inl ⟨entry, hentry, fun p hp => (hin p hp).1,
          List.forall_mem_cons.2 ⟨fun p hp => (hin p hp).2, hapart⟩⟩
      · rw [List.mem_singleton.1 hold] at hwithin
        exact .inr ⟨cover, List.mem_cons_self, hwithin⟩
    · exact .inr ⟨later, List.mem_cons_of_mem _ hlater, hwithin⟩

/-- Past the limit, entries are only added. -/
theorem foldPayload_of_gt (hcount : maxMergedDeltaRects < entries.length) :
    foldPayload entries covers = entries ++ covers := by
  induction covers generalizing entries with
  | nil => simp [foldPayload]
  | cons cover covers ih =>
    have hstep : foldCover entries cover = entries ++ [cover] := if_pos hcount
    change foldPayload (foldCover entries cover) covers = _
    rw [hstep, ih (by rw [List.length_append]; omega), List.append_assoc]
    rfl

/-- Once the limit is passed, it stays passed. -/
theorem length_of_not_withinLimit (h : ¬ WithinLimit entries covers) :
    maxMergedDeltaRects < (foldPayload entries covers).length := by
  unfold WithinLimit at h
  push Not at h
  obtain ⟨k, -, hk⟩ := h
  have hsplit : foldPayload entries covers
      = foldPayload (foldPayload entries (covers.take k)) (covers.drop k) := by
    conv_lhs => rw [← List.take_append_drop k covers]
    exact List.foldl_append
  rw [hsplit, foldPayload_of_gt hk, List.length_append]
  omega

/-- A rectangle of one colour. -/
def solid (x y width height : ℕ) : DeltaEntry :=
  (⟨UInt16.ofNat x, UInt16.ofNat y, UInt16.ofNat width, UInt16.ofNat height, 4 * width * height⟩,
    List.replicate (4 * width * height) 0)

variable {side x y w h n : ℕ}

theorem solid_ok (hside : side < 65536) (hx : x + w ≤ side) (hy : y + h ≤ side) :
    EntryOk (UInt16.ofNat side) (UInt16.ofNat side) (solid x y w h) := by
  have hs : (UInt16.ofNat side).toNat = side := toNat_ofNat16 hside
  have hw : (UInt16.ofNat w).toNat = w := toNat_ofNat16 (by omega)
  have hh : (UInt16.ofNat h).toNat = h := toNat_ofNat16 (by omega)
  refine ⟨?_, ?_, ?_, List.length_replicate⟩
  · rw [hs]
    simpa only [solid, toNat_ofNat16 (show x < 65536 by omega), hw] using hx
  · rw [hs]
    simpa only [solid, toNat_ofNat16 (show y < 65536 by omega), hh] using hy
  · simp only [solid, hw, hh]

theorem rectHas_solid (hside : side < 65536) (hx : x + w ≤ side) (hy : y + h ≤ side) (p : Px) :
    RectHas (solid x y w h).1 p ↔
      (x ≤ p.1 ∧ p.1 < x + w) ∧ (y ≤ p.2.1 ∧ p.2.1 < y + h) ∧ p.2.2 < 4 := by
  simp only [rectHas_iff, solid, toNat_ofNat16 (show x < 65536 by omega),
    toNat_ofNat16 (show y < 65536 by omega), toNat_ofNat16 (show w < 65536 by omega),
    toNat_ofNat16 (show h < 65536 by omega)]

/-- Every other row of a square with `2 * n + 3` rows. -/
def gridRows (n : ℕ) : List DeltaEntry :=
  (List.range (n + 1)).map fun i => solid 0 (2 * i) (2 * n + 3) 1

/-- Every other column of it, without the last one. -/
def gridColumns (n : ℕ) : List DeltaEntry :=
  (List.range n).map fun j => solid (2 * j + 1) 0 1 (2 * n + 3)

/-- The last one: a column beyond all the others. -/
def lastColumn (n : ℕ) : DeltaEntry := solid (2 * n + 1) 0 1 (2 * n + 3)

/-- The entries of the square are well-formed. -/
abbrev GridOk (n : ℕ) (entry : DeltaEntry) : Prop :=
  EntryOk (UInt16.ofNat (2 * n + 3)) (UInt16.ofNat (2 * n + 3)) entry

theorem gridRows_ok (hn : 2 * n + 3 < 65536) : ∀ entry ∈ gridRows n, GridOk n entry := by
  refine List.forall_mem_map.2 fun i hi => solid_ok hn (by omega) ?_
  rw [List.mem_range] at hi
  omega

theorem gridColumns_ok (hn : 2 * n + 3 < 65536) : ∀ entry ∈ gridColumns n, GridOk n entry := by
  refine List.forall_mem_map.2 fun j hj => solid_ok hn ?_ (by omega)
  rw [List.mem_range] at hj
  omega

/-- The pixel in row `2 * i` and column `2 * j`. -/
def crossing (q : ℕ × ℕ) : Px := (2 * q.1, 2 * q.2, 0)

/-- Some entry has the pixel between the columns of a row. -/
theorem exists_crossing (hn : 2 * n + 3 < 65536) {q : ℕ × ℕ}
    (hq : q ∈ Finset.range (n + 1) ×ˢ Finset.range (n + 1)) :
    ∃ entry ∈ foldPayload (foldPayload [] (gridRows n)) (gridColumns n),
      RectHas entry.1 (crossing q) := by
  rw [Finset.mem_product, Finset.mem_range, Finset.mem_range] at hq
  have hok : ∀ entry ∈ foldPayload [] (gridRows n), GridOk n entry :=
    foldPayload_ok (by simp) (gridRows_ok hn)
  have hrow : ∃ entry ∈ foldPayload [] (gridRows n), RectHas entry.1 (crossing q) := by
    refine (area_foldPayload (by simp) (gridRows_ok hn) _).2
      ⟨solid 0 (2 * q.2) (2 * n + 3) 1, List.mem_map.2 ⟨q.2, List.mem_range.2 hq.2, rfl⟩, ?_⟩
    rw [rectHas_solid hn (by omega) (by omega)]
    simp only [crossing]
    omega
  obtain ⟨entry, hentry, hp⟩ := hrow
  exact (area_foldPayload hok (gridColumns_ok hn) _).2 ⟨entry, List.mem_append_left _ hentry, hp⟩

/-- No entry has two such pixels: it lies in one row, and has no pixel of a column. -/
theorem crossing_inj (hn : 2 * n + 3 < 65536) (hrows : WithinLimit [] (gridRows n))
    (hcolumns : WithinLimit (foldPayload [] (gridRows n)) (gridColumns n)) {entry : DeltaEntry}
    (hentry : entry ∈ foldPayload (foldPayload [] (gridRows n)) (gridColumns n)) {q q' : ℕ × ℕ}
    (hq : q.1 < n + 1) (hq' : q'.1 < n + 1) (hp : RectHas entry.1 (crossing q))
    (hp' : RectHas entry.1 (crossing q')) : q = q' := by
  have hok : ∀ entry ∈ foldPayload [] (gridRows n), GridOk n entry :=
    foldPayload_ok (by simp) (gridRows_ok hn)
  rcases origin_of_mem_foldPayload hok (gridColumns_ok hn) hcolumns hentry with
    ⟨old, hold, hwithin, hapart⟩ | ⟨column, hcolumn, hwithin⟩
  · have hrow : ∃ row ∈ gridRows n, ∀ p, RectHas old.1 p → RectHas row.1 p := by
      have hnone : ∀ entry ∈ ([] : List DeltaEntry), GridOk n entry := by simp
      rcases origin_of_mem_foldPayload hnone (gridRows_ok hn) hrows hold with ⟨_, hmem, -⟩ | hrow
      · exact absurd hmem List.not_mem_nil
      · exact hrow
    obtain ⟨row, hrow, hin⟩ := hrow
    obtain ⟨i, hi, rfl⟩ := List.mem_map.1 hrow
    rw [List.mem_range] at hi
    have hy := hin _ (hwithin _ hp)
    have hy' := hin _ (hwithin _ hp')
    rw [rectHas_solid hn (by omega) (by omega)] at hy hy'
    simp only [crossing] at hy hy'
    have hno : ∀ j < n, ¬ RectHas entry.1 (2 * j + 1, 2 * q.2, 0) := by
      intro j hj hhas
      refine hapart _ (List.mem_map.2 ⟨j, List.mem_range.2 hj, rfl⟩) _ hhas ?_
      rw [rectHas_solid hn (by omega) (by omega)]
      dsimp only
      omega
    have hx : q.1 = q'.1 := by
      by_contra hne
      -- The column right of the first of the two.
      have hbetween := hno (min q.1 q'.1) (by omega)
      simp only [rectHas_iff, crossing] at *
      omega
    exact Prod.ext hx (by omega)
  · obtain ⟨j, hj, rfl⟩ := List.mem_map.1 hcolumn
    rw [List.mem_range] at hj
    have hx := hwithin _ hp
    rw [rectHas_solid hn (by omega) (by omega)] at hx
    simp only [crossing] at hx
    omega

/-- Rows and columns are cut into at least as many rectangles as there are such pixels. -/
theorem length_grid (hn : 2 * n + 3 < 65536) (hrows : WithinLimit [] (gridRows n))
    (hcolumns : WithinLimit (foldPayload [] (gridRows n)) (gridColumns n)) :
    (n + 1) * (n + 1) ≤ (foldPayload (foldPayload [] (gridRows n)) (gridColumns n)).length := by
  -- an entry over every crossing
  have hentry : ∀ q : ℕ × ℕ, ∃ entry, q ∈ Finset.range (n + 1) ×ˢ Finset.range (n + 1) →
      entry ∈ foldPayload (foldPayload [] (gridRows n)) (gridColumns n)
        ∧ RectHas entry.1 (crossing q) := by
    intro q
    by_cases hq : q ∈ Finset.range (n + 1) ×ˢ Finset.range (n + 1)
    · obtain ⟨entry, hmem, hp⟩ := exists_crossing hn hq
      exact ⟨entry, fun _ => ⟨hmem, hp⟩⟩
    · exact ⟨lastColumn n, fun hmem => absurd hmem hq⟩
  choose entry hentry using hentry
  -- and no entry over two of them, for the rows and columns between are other entries
  have hinjective : Set.InjOn entry ↑(Finset.range (n + 1) ×ˢ Finset.range (n + 1)) := by
    intro q hq q' hq' hsame
    obtain ⟨hmem, hp⟩ := hentry q hq
    obtain ⟨-, hp'⟩ := hentry q' hq'
    rw [← hsame] at hp'
    have hlt := Finset.mem_range.1 (Finset.mem_product.1 hq).1
    have hlt' := Finset.mem_range.1 (Finset.mem_product.1 hq').1
    exact crossing_inj hn hrows hcolumns hmem hlt hlt' hp hp'
  calc (n + 1) * (n + 1) = (Finset.range (n + 1) ×ˢ Finset.range (n + 1)).card := by simp
    _ = ((Finset.range (n + 1) ×ˢ Finset.range (n + 1)).image entry).card :=
        (Finset.card_image_of_injOn hinjective).symm
    _ ≤ (foldPayload (foldPayload [] (gridRows n)) (gridColumns n)).toFinset.card := by
        refine Finset.card_le_card fun e he => ?_
        obtain ⟨q, hq, rfl⟩ := Finset.mem_image.1 he
        exact List.mem_toFinset.2 (hentry q hq).1
    _ ≤ (foldPayload (foldPayload [] (gridRows n)) (gridColumns n)).length :=
        List.toFinset_card_le _

/-- The entries of the grid with all columns. -/
def gridEntries (n : ℕ) : List DeltaEntry := gridRows n ++ gridColumns n ++ [lastColumn n]

theorem gridEntries_ok (hn : 2 * n + 3 < 65536) : ∀ entry ∈ gridEntries n, GridOk n entry := by
  intro entry hentry
  rw [gridEntries, List.mem_append, List.mem_append, List.mem_singleton] at hentry
  rcases hentry with (hentry | hentry) | rfl
  · exact gridRows_ok hn entry hentry
  · exact gridColumns_ok hn entry hentry
  · exact solid_ok hn (by omega) (by omega)

/-- With more crossings than the limit, the limit is passed before the last column. -/
theorem length_before_lastColumn (hn : 2 * n + 3 < 65536)
    (hlimit : maxMergedDeltaRects < (n + 1) * (n + 1)) :
    maxMergedDeltaRects < (foldPayload [] (gridRows n ++ gridColumns n)).length := by
  have hfold : foldPayload [] (gridRows n ++ gridColumns n)
      = foldPayload (foldPayload [] (gridRows n)) (gridColumns n) := List.foldl_append
  rw [hfold]
  by_cases hrows : WithinLimit [] (gridRows n)
  · by_cases hcolumns : WithinLimit (foldPayload [] (gridRows n)) (gridColumns n)
    · exact hlimit.trans_le (length_grid hn hrows hcolumns)
    · exact length_of_not_withinLimit hcolumns
  · have hlength := length_of_not_withinLimit hrows
    rw [foldPayload_of_gt hlength, List.length_append]
    omega

/-- The last column is then appended over the first row. -/
theorem not_entriesApart_grid (hn : 2 * n + 3 < 65536)
    (hlimit : maxMergedDeltaRects < (n + 1) * (n + 1)) :
    ¬ EntriesApart (foldPayload [] (gridEntries n)) := by
  -- past the limit the last column is appended as it is
  have hpassed := length_before_lastColumn hn hlimit
  have hresult : foldPayload [] (gridEntries n)
      = foldPayload [] (gridRows n ++ gridColumns n) ++ [lastColumn n] := by
    rw [← foldPayload_of_gt hpassed]
    exact List.foldl_append
  rw [hresult]
  intro hapart
  have hok : ∀ entry ∈ gridRows n ++ gridColumns n, GridOk n entry := fun entry hentry =>
    gridEntries_ok hn entry (List.mem_append_left _ hentry)
  have hnone : ∀ entry ∈ ([] : List DeltaEntry), GridOk n entry := by simp
  -- it crosses the first row, which is still there
  have hfirst : RectHas (solid 0 (2 * 0) (2 * n + 3) 1).1 (2 * n + 1, 0, 0) := by
    rw [rectHas_solid hn (by omega) (by omega)]
    dsimp only
    omega
  obtain ⟨entry, hentry, hp⟩ := (area_foldPayload hnone hok _).2
    ⟨_, List.mem_append_right _ (List.mem_append_left _
      (List.mem_map.2 ⟨0, List.mem_range.2 (Nat.succ_pos n), rfl⟩)), hfirst⟩
  refine (List.pairwise_append.1 hapart).2.2 entry hentry _ List.mem_cons_self _ hp ?_
  rw [lastColumn, rectHas_solid hn (by omega) (by omega)]
  dsimp only
  omega

end Grid

/-- The 65 rows and 65 columns of a grid, as a delta. -/
def gridDelta : HelperEvent := frameChunk 131 131 (gridEntries 64)

/-- **A delta that is not trimmed.** There are few enough rectangles in the grid, but they pass the
limit before the last column, which is appended over the rows. -/
theorem grid_overlaps : DeltaOk 131 131 gridDelta ∧
    (deltaEntries gridDelta).length ≤ maxMergedDeltaRects ∧
    ¬ EntriesApart (deltaEntries (normalizeDelta gridDelta)) := by
  have hok : ∀ entry ∈ gridEntries 64, EntryOk 131 131 entry := gridEntries_ok (by decide)
  have hdelta : DeltaOk 131 131 gridDelta := frameChunk_ok hok
  have hentries : deltaEntries gridDelta = gridEntries 64 := deltaEntries_frameChunk hok
  refine ⟨hdelta, ?_, ?_⟩
  · rw [hentries]
    simp [gridEntries, gridRows, gridColumns, maxMergedDeltaRects]
  · rw [normalizeDelta_eq hdelta, deltaEntries_frameChunk (foldPayload_ok (by simp) hdelta.entryOk),
      hentries]
    exact not_entriesApart_grid (by decide) (by decide)

end Mailbox
end Rdp
end Navop
