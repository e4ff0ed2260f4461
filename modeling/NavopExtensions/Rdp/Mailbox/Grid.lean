import NavopExtensions.Rdp.Mailbox.Folding

/-!
# How many rectangles folding can leave

Trimming cuts along the sides of the cover, so the sides of the parts are sides of the rectangles
that went in (`corners_foldPayload`). Rectangles that are apart begin at different corners, unless
they are empty, and an empty rectangle is never cut. So there are never more rectangles than the
corners of the grid that the sides draw, and the empty ones (`length_le_gridSize`): a grid within the
limit keeps `fold_payload` trimming (`withinLimit_of_gridSize`), whatever the rectangles are.
-/

namespace Navop
namespace Rdp
namespace Mailbox

variable {width height : UInt16} {entries covers : List DeltaEntry}

/-- A rectangle begins or ends at this coordinate. -/
def IsSide (start size : HelperFrameRect → UInt16) (rect : HelperFrameRect) (c : ℕ) : Prop :=
  c = (start rect).toNat ∨ c = (start rect).toNat + (size rect).toNat

/-- The coordinates at which one of the rectangles begins or ends. -/
def sides (start size : HelperFrameRect → UInt16) (entries : List DeltaEntry) : Finset ℕ :=
  (entries.flatMap fun entry =>
    [(start entry.1).toNat, (start entry.1).toNat + (size entry.1).toNat]).toFinset

/-- The columns in which a rectangle begins or ends. -/
def columnsOf (entries : List DeltaEntry) : Finset ℕ := sides (·.x) (·.width) entries

/-- The rows in which a rectangle begins or ends. -/
def rowsOf (entries : List DeltaEntry) : Finset ℕ := sides (·.y) (·.height) entries

/-- The entries whose rectangle has no pixel. -/
def emptyEntries (entries : List DeltaEntry) : List DeltaEntry :=
  entries.filter fun entry => entry.1.width.toNat = 0 ∨ entry.1.height.toNat = 0

/-- The corners of the grid that the sides of the rectangles draw, and the empty rectangles. -/
def gridSize (entries : List DeltaEntry) : ℕ :=
  (columnsOf entries).card * (rowsOf entries).card + (emptyEntries entries).length

theorem mem_sides {start size : HelperFrameRect → UInt16} {c : ℕ} :
    c ∈ sides start size entries ↔ ∃ entry ∈ entries, IsSide start size entry.1 c := by
  simp [sides, IsSide]

@[simp] theorem emptyEntries_append (xs ys : List DeltaEntry) :
    emptyEntries (xs ++ ys) = emptyEntries xs ++ emptyEntries ys :=
  List.filter_append ..

/-! ### Rectangles that are apart -/

/-- The pixel in which a rectangle begins is one of its pixels, unless it is empty. -/
theorem rectHas_corner {rect : HelperFrameRect} (hw : rect.width.toNat ≠ 0)
    (hh : rect.height.toNat ≠ 0) : RectHas rect (rect.x.toNat, rect.y.toNat, 0) := by
  rw [rectHas_iff]
  dsimp only
  omega

/-- Rectangles that are apart are no more than the corners of their grid and the empty ones. -/
theorem length_le_gridSize (h : EntriesApart entries) : entries.length ≤ gridSize entries := by
  set full := entries.filter fun entry =>
    !decide (entry.1.width.toNat = 0 ∨ entry.1.height.toNat = 0) with hfull
  have hsplit : entries.length = (emptyEntries entries).length + full.length := by
    rw [hfull, emptyEntries, ← List.length_eq_length_filter_add]
  have hpos : ∀ entry ∈ full, entry ∈ entries ∧ entry.1.width.toNat ≠ 0 ∧
      entry.1.height.toNat ≠ 0 := by
    intro entry hentry
    simpa [hfull] using hentry
  -- the corners in which the others begin are different
  have hnodup : (full.map fun entry => (entry.1.x.toNat, entry.1.y.toNat)).Nodup := by
    refine List.pairwise_map.2 ((h.sublist List.filter_sublist).imp_of_mem ?_)
    intro a b ha hb hapart heq
    obtain ⟨-, haw, hah⟩ := hpos a ha
    obtain ⟨-, hbw, hbh⟩ := hpos b hb
    obtain ⟨hx, hy⟩ := Prod.mk.inj heq
    refine hapart _ (rectHas_corner haw hah) ?_
    rw [hx, hy]
    exact rectHas_corner hbw hbh
  have hsubset : (full.map fun entry => (entry.1.x.toNat, entry.1.y.toNat)).toFinset
      ⊆ columnsOf entries ×ˢ rowsOf entries := by
    intro corner hcorner
    obtain ⟨entry, hentry, rfl⟩ := List.mem_map.1 (List.mem_toFinset.1 hcorner)
    have hmem := (hpos entry hentry).1
    exact Finset.mem_product.2
      ⟨mem_sides.2 ⟨entry, hmem, .inl rfl⟩, mem_sides.2 ⟨entry, hmem, .inl rfl⟩⟩
  have hcard := Finset.card_le_card hsubset
  rw [List.toFinset_card_of_nodup hnodup, List.length_map, Finset.card_product] at hcard
  rw [hsplit, gridSize]
  omega

/-! ### Trimming draws no new sides -/

section Trim

variable {rect cover : HelperFrameRect} {pixels : List UInt8}
  {rowStart rowEnd columnStart columnEnd : ℕ}

/-- A part that `push_band` pushes has the rows and columns it is asked for, and is not empty. -/
theorem sides_of_mem_pushBand (h : EntryOk width height (rect, pixels))
    (hleft : rect.x.toNat ≤ columnStart) (hright : columnEnd ≤ rect.x.toNat + rect.width.toNat)
    (htop : rect.y.toNat ≤ rowStart) (hbottom : rowEnd ≤ rect.y.toNat + rect.height.toNat)
    {part : DeltaEntry} (hpart : part ∈ pushBand rect pixels rowStart rowEnd columnStart columnEnd) :
    (part.1.x.toNat = columnStart ∧ part.1.width.toNat = columnEnd - columnStart ∧
        columnStart < columnEnd) ∧
      part.1.y.toNat = rowStart ∧ part.1.height.toNat = rowEnd - rowStart ∧ rowStart < rowEnd := by
  by_cases hempty : rowStart ≥ rowEnd ∨ columnStart ≥ columnEnd
  · simp [pushBand, hempty] at hpart
  · have hw := h.right
    have hh := h.bottom
    have hw' := width.toNat_lt
    have hh' := height.toNat_lt
    dsimp only at hw hh
    rw [pushBand_eq h (by omega) (by omega) hleft hright htop hbottom, List.mem_singleton] at hpart
    subst hpart
    dsimp only
    rw [toNat_ofNat16 (by omega), toNat_ofNat16 (by omega), toNat_ofNat16 (by omega),
      toNat_ofNat16 (by omega)]
    omega

/-- The sides of a part are sides of the rectangle or of the cover. -/
def CutAlong (start size : HelperFrameRect → UInt16) (rect cover part : HelperFrameRect) : Prop :=
  ∀ c, IsSide start size part c → IsSide start size rect c ∨ IsSide start size cover c

/-- Trimming keeps the rectangle, or cuts one that is not empty along the sides of the cover into
parts that are not empty. -/
theorem trim_sides (h : EntryOk width height (rect, pixels)) :
    trimCoveredPixels rect pixels cover = [(rect, pixels)] ∨
      ((rect.width.toNat ≠ 0 ∧ rect.height.toNat ≠ 0) ∧
        ∀ part ∈ trimCoveredPixels rect pixels cover,
          (part.1.width.toNat ≠ 0 ∧ part.1.height.toNat ≠ 0) ∧
            CutAlong (·.x) (·.width) rect cover part.1 ∧
            CutAlong (·.y) (·.height) rect cover part.1) := by
  unfold trimCoveredPixels CutAlong IsSide
  dsimp only
  split
  · exact .inl rfl
  · refine .inr ⟨by omega, fun part hpart => ?_⟩
    rw [List.mem_append, List.mem_append, List.mem_append] at hpart
    -- above, below, left and right of the cover
    rcases hpart with ((hpart | hpart) | hpart) | hpart
    all_goals
      have hsides := sides_of_mem_pushBand h (by omega) (by omega) (by omega) (by omega) hpart
      exact ⟨by omega, by omega, by omega⟩

end Trim

/-! ### Folding draws no new sides -/

/-- Where trimming cuts along the sides of the cover, so does folding. -/
theorem sides_foldCover {start size : HelperFrameRect → UInt16} {cover : DeltaEntry}
    (h : ∀ entry ∈ entries, trimCoveredPixels entry.1 entry.2 cover.1 = [entry] ∨
      ∀ part ∈ trimCoveredPixels entry.1 entry.2 cover.1,
        CutAlong start size entry.1 cover.1 part.1) :
    sides start size (foldCover entries cover) ⊆ sides start size (entries ++ [cover]) := by
  unfold foldCover
  split
  · exact subset_rfl
  · intro c hc
    obtain ⟨part, hpart, hc⟩ := mem_sides.1 hc
    rcases List.mem_append.1 hpart with hpart | hpart
    · obtain ⟨entry, hentry, hpart⟩ := List.mem_flatMap.1 hpart
      have hmem : entry ∈ entries ++ [cover] := List.mem_append_left _ hentry
      rcases h entry hentry with hwhole | hparts
      · rw [hwhole, List.mem_singleton] at hpart
        exact mem_sides.2 ⟨entry, hmem, hpart ▸ hc⟩
      · rcases hparts part hpart c hc with hc | hc
        · exact mem_sides.2 ⟨entry, hmem, hc⟩
        · exact mem_sides.2 ⟨cover, by simp, hc⟩
    · exact mem_sides.2 ⟨part, List.mem_append_right _ hpart, hc⟩

/-- An empty rectangle is kept as it is, and no part of another one is empty. -/
theorem emptyEntries_foldCover {cover : DeltaEntry}
    (hok : ∀ entry ∈ entries, EntryOk width height entry) :
    emptyEntries (foldCover entries cover) = emptyEntries (entries ++ [cover]) := by
  -- an entry is kept whole or cut into parts with points, so that no empty one comes or goes
  have htrim : emptyEntries (entries.flatMap fun entry =>
      trimCoveredPixels entry.1 entry.2 cover.1) = emptyEntries entries := by
    induction entries with
    | nil => rfl
    | cons entry entries ih =>
      obtain ⟨hentry, hrest⟩ := List.forall_mem_cons.1 hok
      rw [List.flatMap_cons, emptyEntries_append, ih hrest, ← List.singleton_append,
        emptyEntries_append]
      congr 1
      rcases @trim_sides width height entry.1 cover.1 entry.2 hentry with hwhole | ⟨hpos, hparts⟩
      · rw [hwhole]
      · have hparts' : emptyEntries (trimCoveredPixels entry.1 entry.2 cover.1) = [] :=
          List.filter_eq_nil_iff.2 fun part hpart => by simpa using (hparts part hpart).1
        have hentry' : emptyEntries [entry] = [] :=
          List.filter_eq_nil_iff.2 fun e he => by
            rw [List.mem_singleton.1 he]
            simpa using hpos
        rw [hparts', hentry']
  unfold foldCover
  split
  · rfl
  · rw [emptyEntries_append, emptyEntries_append, htrim]

theorem sides_append (start size : HelperFrameRect → UInt16) (xs ys : List DeltaEntry) :
    sides start size (xs ++ ys) = sides start size xs ∪ sides start size ys := by
  ext c
  simp only [Finset.mem_union, mem_sides, List.mem_append, or_and_right, exists_or]

/-- The grid of what one cover leaves, and of any other rectangles, is no larger than it was. -/
theorem gridSize_foldCover {cover : DeltaEntry}
    (hok : ∀ entry ∈ entries, EntryOk width height entry) (rest : List DeltaEntry) :
    gridSize (foldCover entries cover ++ rest) ≤ gridSize (entries ++ cover :: rest) := by
  have hcolumns := @sides_foldCover entries (·.x) (·.width) cover
    fun entry hentry => (trim_sides (hok entry hentry)).imp_right fun h part hpart =>
      (h.2 part hpart).2.1
  have hrows := @sides_foldCover entries (·.y) (·.height) cover
    fun entry hentry => (trim_sides (hok entry hentry)).imp_right fun h part hpart =>
      (h.2 part hpart).2.2
  rw [← List.singleton_append (l := rest), ← List.append_assoc]
  unfold gridSize columnsOf rowsOf
  rw [emptyEntries_append, emptyEntries_foldCover hok, ← emptyEntries_append]
  refine Nat.add_le_add_right (Nat.mul_le_mul ?_ ?_) _
  · rw [sides_append, sides_append _ _ (entries ++ [cover])]
    exact Finset.card_le_card (Finset.union_subset_union_left hcolumns)
  · rw [sides_append, sides_append _ _ (entries ++ [cover])]
    exact Finset.card_le_card (Finset.union_subset_union_left hrows)

/-- The grid of what folding leaves, and of any other rectangles, is no larger than it was. -/
theorem gridSize_foldPayload (hok : ∀ entry ∈ entries, EntryOk width height entry)
    (hcovers : ∀ cover ∈ covers, EntryOk width height cover) (rest : List DeltaEntry) :
    gridSize (foldPayload entries covers ++ rest) ≤ gridSize (entries ++ covers ++ rest) := by
  induction covers generalizing entries with
  | nil => simp [foldPayload]
  | cons cover covers ih =>
    obtain ⟨hcover, hrest⟩ := List.forall_mem_cons.1 hcovers
    refine (ih (foldCover_ok hok hcover) hrest).trans ?_
    rw [List.append_assoc, List.append_assoc, List.cons_append]
    exact gridSize_foldCover hok _

/-- Fewer rectangles draw a smaller grid. -/
theorem gridSize_le_of_sublist {xs ys : List DeltaEntry} (h : xs.Sublist ys) :
    gridSize xs ≤ gridSize ys := by
  have hsides : ∀ start size, sides start size xs ⊆ sides start size ys := by
    intro start size c hc
    obtain ⟨entry, hentry, hc⟩ := mem_sides.1 hc
    exact mem_sides.2 ⟨entry, h.subset hentry, hc⟩
  exact Nat.add_le_add (Nat.mul_le_mul (Finset.card_le_card (hsides _ _))
    (Finset.card_le_card (hsides _ _))) (h.filter _).length_le

/-- **A small grid keeps folding within the limit**: every cover finds rectangles that are apart, so
no more of them than the grid has corners. -/
theorem withinLimit_of_gridSize (hok : ∀ entry ∈ entries, EntryOk width height entry)
    (hcovers : ∀ cover ∈ covers, EntryOk width height cover) (h : EntriesApart entries)
    (hgrid : gridSize (entries ++ covers) ≤ maxMergedDeltaRects) : WithinLimit entries covers := by
  induction covers generalizing entries with
  | nil => exact fun k hk => absurd hk (Nat.not_lt_zero k)
  | cons cover covers ih =>
    obtain ⟨hcover, hrest⟩ := List.forall_mem_cons.1 hcovers
    have hcount : entries.length ≤ maxMergedDeltaRects :=
      (length_le_gridSize h).trans
        ((gridSize_le_of_sublist (List.sublist_append_left _ _)).trans hgrid)
    have htail := ih (foldCover_ok hok hcover) hrest (entriesApart_foldCover hok h hcount)
      ((gridSize_foldCover hok covers).trans hgrid)
    intro k hk
    cases k with
    | zero => exact hcount
    | succ k => exact htail k (Nat.lt_of_succ_lt_succ hk)

end Mailbox
end Rdp
end Navop
