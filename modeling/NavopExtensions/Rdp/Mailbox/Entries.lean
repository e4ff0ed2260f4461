import NavopExtensions.Lib.Raster
import NavopExtensions.Rdp.Mailbox

/-!
# Delta entries as pictures

An entry of a delta is a rectangle with its row-major BGRA block. Read as a picture it is a patch
over byte positions `(x, y, channel)` (`entryPatch`), and the payload surgery of the mailbox is a
set of equations between stacks of such patches:

* `split_payload` inverts `join_payload` (`splitPayload_joinPayload`);
* `push_band` shows exactly the requested rows and columns (`pushBand_patch`);
* `trim_covered_pixels` shows the entry without the cover (`trimCoveredPixels_patch`);
* `split_entry_into_bands` shows the entry (`splitEntryIntoBands_patch`).

All of them keep `EntryOk`, the well-formedness of an entry inside a canvas: the rectangle fits,
and the block has four bytes for each of its pixels.
-/

namespace Navop
namespace Rdp
namespace Mailbox

open Overlay

/-- A byte of the picture: column, row, and channel of the pixel. -/
abbrev Px := Raster.Point

/-- The rectangle of the raster that a `HelperFrameRect` names. -/
def rectOf (rect : HelperFrameRect) : Raster.Rect :=
  ⟨rect.x.toNat, rect.y.toNat, rect.width.toNat, rect.height.toNat⟩

/-- The bytes of the picture that a rectangle covers. -/
def RectHas (rect : HelperFrameRect) (p : Px) : Prop := (rectOf rect).Has p

instance (rect : HelperFrameRect) : DecidablePred (RectHas rect) := fun p =>
  inferInstanceAs (Decidable ((rectOf rect).Has p))

theorem rectHas_iff {rect : HelperFrameRect} {p : Px} : RectHas rect p ↔
    (rect.x.toNat ≤ p.1 ∧ p.1 < rect.x.toNat + rect.width.toNat) ∧
      (rect.y.toNat ≤ p.2.1 ∧ p.2.1 < rect.y.toNat + rect.height.toNat) ∧ p.2.2 < 4 :=
  Iff.rfl

/-- What an entry paints. -/
def entryPatch (entry : DeltaEntry) : Patch Px UInt8 := (rectOf entry.1).patch entry.2

theorem entryPatch_of_not {entry : DeltaEntry} {p : Px} (h : ¬ RectHas entry.1 p) :
    entryPatch entry p = none :=
  Raster.Rect.patch_of_not h _

theorem entryPatch_of_has {entry : DeltaEntry} {p : Px} (h : RectHas entry.1 p) :
    entryPatch entry p = entry.2[(rectOf entry.1).index p]? :=
  Raster.Rect.patch_of_has h _

/-- What a list of entries paints, first to last. -/
def entriesPatch (entries : List DeltaEntry) : Patch Px UInt8 := stack (entries.map entryPatch)

/-- An entry is well-formed inside a canvas of the given size. -/
structure EntryOk (width height : UInt16) (entry : DeltaEntry) : Prop where
  right : entry.1.x.toNat + entry.1.width.toNat ≤ width.toNat
  bottom : entry.1.y.toNat + entry.1.height.toNat ≤ height.toNat
  byteLen : entry.1.byteLen = 4 * entry.1.width.toNat * entry.1.height.toNat
  length : entry.2.length = entry.1.byteLen

theorem EntryOk.length_eq {width height : UInt16} {entry : DeltaEntry}
    (h : EntryOk width height entry) :
    entry.2.length = 4 * entry.1.width.toNat * entry.1.height.toNat :=
  h.length.trans h.byteLen

@[simp] theorem entriesPatch_nil : entriesPatch [] = blank := rfl

theorem entriesPatch_append (xs ys : List DeltaEntry) :
    entriesPatch (xs ++ ys) = paint (entriesPatch xs) (entriesPatch ys) := by
  unfold entriesPatch
  rw [List.map_append, stack_append]

theorem entriesPatch_cons (entry : DeltaEntry) (entries : List DeltaEntry) :
    entriesPatch (entry :: entries) = paint (entryPatch entry) (entriesPatch entries) :=
  stack_cons _ _

theorem entriesPatch_singleton (entry : DeltaEntry) :
    entriesPatch [entry] = entryPatch entry := by
  simp [entriesPatch]

/-- A cast to `u16` keeps a number that fits. -/
theorem toNat_ofNat16 {n : Nat} (h : n < 65536) : (UInt16.ofNat n).toNat = n := by
  rw [UInt16.toNat_ofNat']
  exact Nat.mod_eq_of_lt h

/-- A byte inside the rectangle lies inside the block. -/
theorem index_lt {width height : UInt16} {entry : DeltaEntry}
    (h : EntryOk width height entry) {p : Px} (hp : RectHas entry.1 p) :
    (rectOf entry.1).index p < entry.2.length := by
  obtain ⟨⟨hx, hx'⟩, ⟨hy, hy'⟩, hc⟩ := rectHas_iff.1 hp
  rw [h.length_eq]
  simp only [Raster.Rect.index, rectOf]
  -- the row of the byte ends inside the block
  have hrow : (p.2.1 - entry.1.y.toNat + 1) * entry.1.width.toNat
      ≤ entry.1.height.toNat * entry.1.width.toNat :=
    Nat.mul_le_mul_right _ (by omega)
  have hexp : (p.2.1 - entry.1.y.toNat + 1) * entry.1.width.toNat
      = (p.2.1 - entry.1.y.toNat) * entry.1.width.toNat + entry.1.width.toNat := by ring
  have hlen : 4 * entry.1.width.toNat * entry.1.height.toNat
      = 4 * (entry.1.height.toNat * entry.1.width.toNat) := by ring
  omega

/-- A well-formed entry paints every byte of its rectangle. -/
theorem covers_entryPatch {width height : UInt16} {entry : DeltaEntry}
    (h : EntryOk width height entry) (p : Px) (hp : RectHas entry.1 p) :
    covers (entryPatch entry) p := by
  unfold covers
  rw [entryPatch_of_has hp, List.getElem?_eq_getElem (index_lt h hp)]
  rfl

/-! ### Slices of a payload -/

theorem getRange_eq_some {α : Type} {xs : List α} {start stop : Nat} (h : start ≤ stop)
    (h' : stop ≤ xs.length) :
    getRange xs start stop = some ((xs.drop start).take (stop - start)) := by
  unfold getRange
  rw [if_pos ⟨h, h'⟩]

/-- The blocks of `split_payload` have the length their rectangle announces when the payload is
long enough for all of them. -/
theorem splitPayloadFrom_length {bgra : List UInt8} {rects : List HelperFrameRect} {offset : Nat}
    (h : offset + (rects.map (·.byteLen)).sum ≤ bgra.length) :
    ∀ entry ∈ splitPayloadFrom bgra offset rects, entry.2.length = entry.1.byteLen := by
  induction rects generalizing offset with
  | nil => simp [splitPayloadFrom]
  | cons rect rects ih =>
    rw [List.map_cons, List.sum_cons] at h
    intro entry hentry
    rw [splitPayloadFrom, List.mem_cons] at hentry
    -- the first block is cut out at `offset`, the others behind it
    rcases hentry with rfl | hentry
    · simp only
      rw [getRange_eq_some (by omega) (by omega), Option.getD_some, Raster.length_take_drop (by omega)]
      omega
    · exact ih (by omega) entry hentry

theorem splitPayloadFrom_map_fst (bgra : List UInt8) (rects : List HelperFrameRect)
    (offset : Nat) : (splitPayloadFrom bgra offset rects).map Prod.fst = rects := by
  induction rects generalizing offset with
  | nil => rfl
  | cons rect rects ih => rw [splitPayloadFrom, List.map_cons, ih]

theorem splitPayload_map_fst (rects : List HelperFrameRect) (bgra : List UInt8) :
    (splitPayload rects bgra).map Prod.fst = rects :=
  splitPayloadFrom_map_fst bgra rects 0

/-- The entries a join was made of come back, from behind the bytes of earlier ones. -/
private theorem splitPayloadFrom_join (entries : List DeltaEntry) (before after : List UInt8)
    (h : ∀ entry ∈ entries, entry.2.length = entry.1.byteLen) :
    splitPayloadFrom (before ++ (joinPayload entries).2 ++ after) before.length
      (joinPayload entries).1 = entries := by
  -- `before` grows by the block of every entry that is passed
  induction entries generalizing before with
  | nil => rfl
  | cons entry entries ih =>
    obtain ⟨rect, pixels⟩ := entry
    have hlen : pixels.length = rect.byteLen := h (rect, pixels) List.mem_cons_self
    have hjoin : (joinPayload ((rect, pixels) :: entries)).2
        = pixels ++ (joinPayload entries).2 := by
      simp [joinPayload]
    have hrects : (joinPayload ((rect, pixels) :: entries)).1
        = rect :: (joinPayload entries).1 := by
      simp only [joinPayload, List.map_cons, List.cons.injEq, and_true]
      rw [hlen]
    have hassoc : before ++ (pixels ++ (joinPayload entries).2) ++ after
        = (before ++ pixels) ++ (joinPayload entries).2 ++ after := by
      simp [List.append_assoc]
    -- the payload from `before.length` on starts with this block
    have hblock : (getRange (before ++ (pixels ++ (joinPayload entries).2) ++ after)
        before.length (before.length + rect.byteLen)).getD [] = pixels := by
      rw [getRange_eq_some (by omega) (by simp [← hlen]), Option.getD_some,
        List.append_assoc, List.drop_left, Nat.add_sub_cancel_left, ← hlen, List.append_assoc,
        List.take_left]
    rw [hjoin, hrects, splitPayloadFrom, hblock]
    have hnext : before.length + rect.byteLen = (before ++ pixels).length := by
      rw [List.length_append, hlen]
    rw [hnext, hassoc, ih (before ++ pixels) fun e he => h e (List.mem_cons_of_mem _ he)]

theorem splitPayload_joinPayload {entries : List DeltaEntry}
    (h : ∀ entry ∈ entries, entry.2.length = entry.1.byteLen) :
    splitPayload (joinPayload entries).1 (joinPayload entries).2 = entries := by
  have := splitPayloadFrom_join entries [] [] h
  simpa [splitPayload] using this

/-! ### Copying rows -/

theorem copyRows_eq_some {slice : Nat → Option (List UInt8)} {bytes : Nat → List UInt8}
    {rows : List Nat} (h : ∀ row ∈ rows, slice row = some (bytes row)) :
    copyRows slice rows = some (rows.flatMap bytes) := by
  induction rows with
  | nil => rfl
  | cons row rows ih =>
    rw [copyRows, h row List.mem_cons_self, ih fun r hr => h r (List.mem_cons_of_mem _ hr)]
    rfl

theorem length_flatMap_range' {bytes : Nat → List UInt8} {n : Nat} (start count : Nat)
    (h : ∀ row, start ≤ row → row < start + count → (bytes row).length = n) :
    ((List.range' start count).flatMap bytes).length = count * n := by
  induction count generalizing start with
  | zero => simp
  | succ count ih =>
    rw [List.range'_succ, List.flatMap_cons, List.length_append, h start (by omega) (by omega),
      ih (start + 1) fun row h1 h2 => h row (by omega) (by omega)]
    ring

/-- Byte `j` of row `i` in a block of rows of equal length. -/
theorem getElem?_flatMap_range' {bytes : Nat → List UInt8} {n : Nat} (start count : Nat)
    (h : ∀ row, start ≤ row → row < start + count → (bytes row).length = n)
    {i j : Nat} (hi : i < count) (hj : j < n) :
    ((List.range' start count).flatMap bytes)[i * n + j]? = (bytes (start + i))[j]? := by
  induction count generalizing start i with
  | zero => omega
  | succ count ih =>
    rw [List.range'_succ, List.flatMap_cons]
    have hrow : (bytes start).length = n := h start (by omega) (by omega)
    -- row 0 is the block in front, row `i + 1` is row `i` of the rest
    cases i with
    | zero =>
      rw [Nat.zero_mul, Nat.zero_add, List.getElem?_append_left (by omega)]
      rfl
    | succ i =>
      have hidx : (i + 1) * n + j = n + (i * n + j) := by ring
      rw [hidx, List.getElem?_append_right (by omega), hrow, Nat.add_sub_cancel_left,
        ih (start + 1) (fun row h1 h2 => h row (by omega) (by omega)) (by omega)]
      congr 2
      omega

/-! ### Bands and trimming -/

/-- The bytes in rows `[rowStart, rowEnd)` and columns `[columnStart, columnEnd)`. -/
def InBand (rowStart rowEnd columnStart columnEnd : Nat) (p : Px) : Prop :=
  (rowStart ≤ p.2.1 ∧ p.2.1 < rowEnd) ∧ columnStart ≤ p.1 ∧ p.1 < columnEnd

instance (rowStart rowEnd columnStart columnEnd : Nat) :
    DecidablePred (InBand rowStart rowEnd columnStart columnEnd) := fun p =>
  inferInstanceAs (Decidable ((rowStart ≤ p.2.1 ∧ p.2.1 < rowEnd) ∧ columnStart ≤ p.1 ∧ _))

section PushBand

variable {width height : UInt16} {rect : HelperFrameRect} {pixels : List UInt8}
  {rowStart rowEnd columnStart columnEnd : Nat}

/-- The bytes `push_band` copies out of row `row`. -/
private def bandRow (rect : HelperFrameRect) (pixels : List UInt8)
    (columnStart columnEnd row : Nat) : List UInt8 :=
  (pixels.drop ((row - rect.y.toNat) * (rect.width.toNat * 4)
    + (columnStart - rect.x.toNat) * 4)).take ((columnEnd - columnStart) * 4)

/-- The last byte `push_band` reads of a row is still inside the block. -/
private theorem bandRow_fits (h : EntryOk width height (rect, pixels))
    (hleft : rect.x.toNat ≤ columnStart) (hcol : columnStart ≤ columnEnd)
    (hright : columnEnd ≤ rect.x.toNat + rect.width.toNat)
    {row : Nat} (hrow : row < rect.y.toNat + rect.height.toNat) (htop : rect.y.toNat ≤ row) :
    (row - rect.y.toNat) * (rect.width.toNat * 4) + (columnStart - rect.x.toNat) * 4
      + (columnEnd - columnStart) * 4 ≤ pixels.length := by
  rw [h.length_eq]
  -- the row that is read ends inside the block, and the columns end inside the row
  have hmul : (row - rect.y.toNat + 1) * (rect.width.toNat * 4)
      ≤ rect.height.toNat * (rect.width.toNat * 4) := Nat.mul_le_mul_right _ (by omega)
  have hexp : (row - rect.y.toNat + 1) * (rect.width.toNat * 4)
      = (row - rect.y.toNat) * (rect.width.toNat * 4) + rect.width.toNat * 4 := by ring
  have hlen : 4 * rect.width.toNat * rect.height.toNat
      = rect.height.toNat * (rect.width.toNat * 4) := by ring
  simp only
  omega

private theorem bandRow_length (h : EntryOk width height (rect, pixels))
    (hleft : rect.x.toNat ≤ columnStart) (hcol : columnStart ≤ columnEnd)
    (hright : columnEnd ≤ rect.x.toNat + rect.width.toNat)
    (htop : rect.y.toNat ≤ rowStart) (hbottom : rowEnd ≤ rect.y.toNat + rect.height.toNat)
    (row : Nat) (h1 : rowStart ≤ row) (h2 : row < rowStart + (rowEnd - rowStart)) :
    (bandRow rect pixels columnStart columnEnd row).length = (columnEnd - columnStart) * 4 :=
  Raster.length_take_drop (bandRow_fits h hleft hcol hright (by omega) (by omega))

/-- The part `push_band` pushes for a non-empty band inside a well-formed entry. -/
theorem pushBand_eq (h : EntryOk width height (rect, pixels))
    (hrow : rowStart < rowEnd) (hcol : columnStart < columnEnd)
    (hleft : rect.x.toNat ≤ columnStart) (hright : columnEnd ≤ rect.x.toNat + rect.width.toNat)
    (htop : rect.y.toNat ≤ rowStart) (hbottom : rowEnd ≤ rect.y.toNat + rect.height.toNat) :
    pushBand rect pixels rowStart rowEnd columnStart columnEnd =
      [({ x := UInt16.ofNat columnStart
          y := UInt16.ofNat rowStart
          width := UInt16.ofNat (columnEnd - columnStart)
          height := UInt16.ofNat (rowEnd - rowStart)
          byteLen := (rowEnd - rowStart) * ((columnEnd - columnStart) * 4) },
        (List.range' rowStart (rowEnd - rowStart)).flatMap
          (bandRow rect pixels columnStart columnEnd))] := by
  -- every slice is in range, so no row is missing and the band is not abandoned
  have hcopy : copyRows (fun row => getRange pixels
        ((row - rect.y.toNat) * (rect.width.toNat * 4) + (columnStart - rect.x.toNat) * 4)
        ((row - rect.y.toNat) * (rect.width.toNat * 4) + (columnStart - rect.x.toNat) * 4
          + (columnEnd - columnStart) * 4)) (List.range' rowStart (rowEnd - rowStart))
      = some ((List.range' rowStart (rowEnd - rowStart)).flatMap
          (bandRow rect pixels columnStart columnEnd)) := by
    refine copyRows_eq_some fun row hmem => ?_
    rw [List.mem_range'_1] at hmem
    rw [getRange_eq_some (by omega)
      (bandRow_fits h hleft hcol.le hright (by omega) (by omega)), Nat.add_sub_cancel_left]
    rfl
  unfold pushBand
  rw [if_neg (by omega)]
  simp only
  rw [hcopy]
  simp only
  rw [length_flatMap_range' rowStart _ (bandRow_length h hleft hcol.le hright htop hbottom)]

/-- A part of a well-formed entry is well-formed: its coordinates are sub-ranges of the entry's,
so the casts to `u16` keep them. -/
theorem pushBand_ok (h : EntryOk width height (rect, pixels))
    (hleft : rect.x.toNat ≤ columnStart) (hright : columnEnd ≤ rect.x.toNat + rect.width.toNat)
    (htop : rect.y.toNat ≤ rowStart) (hbottom : rowEnd ≤ rect.y.toNat + rect.height.toNat) :
    ∀ part ∈ pushBand rect pixels rowStart rowEnd columnStart columnEnd,
      EntryOk width height part := by
  by_cases hempty : rowStart ≥ rowEnd ∨ columnStart ≥ columnEnd
  · simp [pushBand, hempty]
  · have hrow : rowStart < rowEnd := by omega
    have hcol : columnStart < columnEnd := by omega
    rw [pushBand_eq h hrow hcol hleft hright htop hbottom]
    intro part hpart
    rw [List.mem_singleton] at hpart
    subst hpart
    have hw := h.right
    have hh := h.bottom
    -- the band lies on the screen, so that its corners fit into sixteen bits
    have hw' := width.toNat_lt
    have hh' := height.toNat_lt
    simp only at hw hh
    constructor
    · simp only
      rw [toNat_ofNat16 (by omega), toNat_ofNat16 (by omega)]
      omega
    · simp only
      rw [toNat_ofNat16 (by omega), toNat_ofNat16 (by omega)]
      omega
    · simp only
      rw [toNat_ofNat16 (by omega), toNat_ofNat16 (by omega)]
      ring
    · simp only
      rw [length_flatMap_range' rowStart _ (bandRow_length h hleft hcol.le hright htop hbottom)]

/-- `push_band` shows the requested part of the entry and nothing else. -/
theorem pushBand_patch (h : EntryOk width height (rect, pixels))
    (hleft : rect.x.toNat ≤ columnStart) (hright : columnEnd ≤ rect.x.toNat + rect.width.toNat)
    (htop : rect.y.toNat ≤ rowStart) (hbottom : rowEnd ≤ rect.y.toNat + rect.height.toNat)
    (p : Px) :
    entriesPatch (pushBand rect pixels rowStart rowEnd columnStart columnEnd) p =
      if InBand rowStart rowEnd columnStart columnEnd p
      then entryPatch (rect, pixels) p else none := by
  by_cases hempty : rowStart ≥ rowEnd ∨ columnStart ≥ columnEnd
  · have hout : ¬ InBand rowStart rowEnd columnStart columnEnd p := by
      unfold InBand; omega
    simp [pushBand, hempty, hout]
  · have hrow : rowStart < rowEnd := by omega
    have hcol : columnStart < columnEnd := by omega
    have hw := h.right
    have hh := h.bottom
    have hw' := width.toNat_lt
    have hh' := height.toNat_lt
    simp only at hw hh
    obtain ⟨x, y, c⟩ := p
    rw [pushBand_eq h hrow hcol hleft hright htop hbottom, entriesPatch_singleton]
    have hx16 : (UInt16.ofNat columnStart).toNat = columnStart := toNat_ofNat16 (by omega)
    have hy16 : (UInt16.ofNat rowStart).toNat = rowStart := toNat_ofNat16 (by omega)
    have hw16 : (UInt16.ofNat (columnEnd - columnStart)).toNat = columnEnd - columnStart :=
      toNat_ofNat16 (by omega)
    have hh16 : (UInt16.ofNat (rowEnd - rowStart)).toNat = rowEnd - rowStart :=
      toNat_ofNat16 (by omega)
    by_cases hin : InBand rowStart rowEnd columnStart columnEnd (x, y, c)
    · rw [if_pos hin]
      unfold InBand at hin
      simp only at hin
      by_cases hc : c < 4
      · rw [entryPatch_of_has (by rw [rectHas_iff]; simp only [hx16, hy16, hw16, hh16]; omega),
          entryPatch_of_has (by rw [rectHas_iff]; simp only; omega)]
        simp only [Raster.Rect.index, rectOf]
        simp only [hx16, hy16, hw16]
        -- the byte sits in copied row `y - rowStart`, at column `x - columnStart`
        have hidx : ((y - rowStart) * (columnEnd - columnStart) + (x - columnStart)) * 4 + c
            = (y - rowStart) * ((columnEnd - columnStart) * 4) + ((x - columnStart) * 4 + c) := by
          ring
        rw [hidx, getElem?_flatMap_range' rowStart _
          (bandRow_length h hleft hcol.le hright htop hbottom) (by omega) (by omega)]
        unfold bandRow
        rw [Raster.getElem?_take_drop _ _ (by omega), show rowStart + (y - rowStart) = y by omega]
        have hstride : (y - rect.y.toNat) * (rect.width.toNat * 4)
            = (y - rect.y.toNat) * rect.width.toNat * 4 := by ring
        congr 1
        omega
      · rw [entryPatch_of_not fun hp => hc hp.2.2, entryPatch_of_not fun hp => hc hp.2.2]
    · rw [if_neg hin, entryPatch_of_not]
      unfold InBand at hin
      rw [rectHas_iff]
      simp only [hx16, hy16, hw16, hh16]
      simp only at hin
      omega

end PushBand

section Trim

variable {width height : UInt16} {rect cover : HelperFrameRect} {pixels : List UInt8}

/-- A byte that one of four bands shows is shown by the four together. -/
private theorem or_of_some_band {a b c d : Prop} [Decidable a] [Decidable b] [Decidable c]
    [Decidable d] (byte : Option UInt8) (h : a ∨ b ∨ c ∨ d) :
    (if d then byte else none).or ((if c then byte else none).or
      ((if b then byte else none).or (if a then byte else none))) = byte := by
  cases byte with
  | none => simp
  | some value => rcases h with h | h | h | h <;> simp only [h, if_true] <;> split_ifs <;> rfl

theorem trimCoveredPixels_ok (h : EntryOk width height (rect, pixels)) :
    ∀ part ∈ trimCoveredPixels rect pixels cover, EntryOk width height part := by
  intro part hpart
  unfold trimCoveredPixels at hpart
  simp only at hpart
  split at hpart
  · rw [List.mem_singleton] at hpart
    exact hpart ▸ h
  · simp only [List.mem_append] at hpart
    rcases hpart with ((hpart | hpart) | hpart) | hpart
    -- the bounds of the four bands lie between those of the rectangle
    all_goals
      refine pushBand_ok h ?_ ?_ ?_ ?_ part hpart <;> omega

/-- **Trimming.** The parts `trim_covered_pixels` pushes show the entry without the cover. -/
theorem trimCoveredPixels_patch (h : EntryOk width height (rect, pixels)) :
    entriesPatch (trimCoveredPixels rect pixels cover)
      = erase (RectHas cover) (entryPatch (rect, pixels)) := by
  funext p
  rw [erase_apply]
  unfold trimCoveredPixels
  simp only
  split
  · next hdisjoint =>
    -- no overlap: a byte of the cover is not a byte of the rectangle
    rw [entriesPatch_singleton]
    by_cases hp : RectHas cover p
    · rw [if_pos hp, entryPatch_of_not]
      intro hrect
      rw [rectHas_iff] at hp hrect
      simp only at hrect
      omega
    · rw [if_neg hp]
  · next hoverlap =>
    rw [entriesPatch_append, entriesPatch_append, entriesPatch_append]
    simp only [paint_apply]
    rw [pushBand_patch h (by omega) (by omega) (by omega) (by omega),
      pushBand_patch h (by omega) (by omega) (by omega) (by omega),
      pushBand_patch h (by omega) (by omega) (by omega) (by omega),
      pushBand_patch h (by omega) (by omega) (by omega) (by omega)]
    by_cases hrect : RectHas rect p
    · -- the four bands and the cover partition the rectangle
      rw [rectHas_iff] at hrect
      by_cases hcover : RectHas cover p
      · rw [if_pos hcover]
        rw [rectHas_iff] at hcover
        rw [if_neg (by unfold InBand; omega), if_neg (by unfold InBand; omega),
          if_neg (by unfold InBand; omega), if_neg (by unfold InBand; omega)]
        rfl
      · rw [if_neg hcover]
        refine or_of_some_band _ ?_
        rw [rectHas_iff] at hcover
        unfold InBand
        omega
    · have hnone : entryPatch (rect, pixels) p = none := entryPatch_of_not hrect
      simp [hnone]

end Trim

/-! ### Cutting an entry into bands of whole rows -/

section Bands

variable {width height : UInt16} {rect : HelperFrameRect} {pixels : List UInt8}

/-- The number of rows the band starting at `row` takes. -/
private def bandRows (rect : HelperFrameRect) (cap row : Nat) : Nat :=
  min (max (cap / (rect.width.toNat * 4)) 1) (rect.height.toNat - row)

/-- The band starting at `row`. -/
private def bandAt (rect : HelperFrameRect) (pixels : List UInt8) (cap row : Nat) : DeltaEntry :=
  (bandRect rect row (bandRows rect cap row) (bandRows rect cap row * (rect.width.toNat * 4)),
    (pixels.drop (row * (rect.width.toNat * 4))).take
      (bandRows rect cap row * (rect.width.toNat * 4)))

private theorem bandRows_bounds (cap : Nat) {row : Nat} (hrow : row < rect.height.toNat) :
    1 ≤ bandRows rect cap row ∧ row + bandRows rect cap row ≤ rect.height.toNat := by
  unfold bandRows
  omega

private theorem bandAt_fits (h : EntryOk width height (rect, pixels)) (cap : Nat) {row : Nat}
    (hrow : row < rect.height.toNat) :
    row * (rect.width.toNat * 4) + bandRows rect cap row * (rect.width.toNat * 4)
      ≤ pixels.length := by
  have hlen := h.length_eq
  simp only at hlen
  have hmul : (row + bandRows rect cap row) * (rect.width.toNat * 4)
      ≤ rect.height.toNat * (rect.width.toNat * 4) :=
    Nat.mul_le_mul_right _ (bandRows_bounds cap hrow).2
  calc row * (rect.width.toNat * 4) + bandRows rect cap row * (rect.width.toNat * 4)
      = (row + bandRows rect cap row) * (rect.width.toNat * 4) := by ring
    _ ≤ rect.height.toNat * (rect.width.toNat * 4) := hmul
    _ = pixels.length := by rw [hlen]; ring

/-- On a well-formed entry the truncated arm is never taken. -/
private theorem bandsFrom_of_lt (h : EntryOk width height (rect, pixels)) (cap : Nat) {row : Nat}
    (hrow : row < rect.height.toNat) :
    bandsFrom rect pixels cap row
      = bandAt rect pixels cap row
        :: bandsFrom rect pixels cap (row + bandRows rect cap row) := by
  have hfits := bandAt_fits h cap hrow
  rw [bandsFrom, if_pos hrow]
  simp only
  -- the slice is in range, so it is the first arm
  rw [getRange_eq_some (by omega) (by unfold bandRows at hfits; exact hfits)]
  simp only [Nat.add_sub_cancel_left]
  rw [Raster.length_take_drop (by unfold bandRows at hfits; exact hfits)]
  rfl

private theorem bandsFrom_of_ge (cap : Nat) {row : Nat} (hrow : rect.height.toNat ≤ row) :
    bandsFrom rect pixels cap row = [] := by
  rw [bandsFrom, if_neg (by omega)]

/-- The coordinates of a band are those of its rows: nothing saturates. -/
private theorem bandRect_toNat (h : EntryOk width height (rect, pixels)) (cap : Nat) {row : Nat}
    (hrow : row < rect.height.toNat) :
    (bandAt rect pixels cap row).1.y.toNat = rect.y.toNat + row ∧
      (bandAt rect pixels cap row).1.height.toNat = bandRows rect cap row := by
  have hh := h.bottom
  have hh' := height.toNat_lt
  simp only at hh
  have hrows := bandRows_bounds cap hrow
  -- a row of the canvas fits into `u16`
  have hclamp : (u16OrMax row).toNat = row :=
    UInt16.toNat_ofNatClamp_of_lt (by change row < 65536; omega)
  constructor
  · change (UInt16.ofNatClamp (rect.y.toNat + (u16OrMax row).toNat)).toNat = _
    rw [hclamp, UInt16.toNat_ofNatClamp_of_lt (by change _ < 65536; omega)]
  · exact UInt16.toNat_ofNatClamp_of_lt (by change _ < 65536; omega)

private theorem bandAt_ok (h : EntryOk width height (rect, pixels)) (cap : Nat) {row : Nat}
    (hrow : row < rect.height.toNat) : EntryOk width height (bandAt rect pixels cap row) := by
  obtain ⟨hy, hheight⟩ := bandRect_toNat h cap hrow
  have hrows := bandRows_bounds cap hrow
  have hh := h.bottom
  simp only at hh
  constructor
  · exact h.right
  · rw [hy, hheight]
    omega
  · rw [hheight]
    change bandRows rect cap row * (rect.width.toNat * 4)
      = 4 * rect.width.toNat * bandRows rect cap row
    ring
  · exact Raster.length_take_drop (bandAt_fits h cap hrow)

/-- A band fits under the cap, unless it is a single row. -/
private theorem bandAt_capped (h : EntryOk width height (rect, pixels)) (cap : Nat) {row : Nat}
    (hrow : row < rect.height.toNat) :
    (bandAt rect pixels cap row).2.length ≤ cap ∨
      (bandAt rect pixels cap row).1.height.toNat = 1 := by
  rw [(bandRect_toNat h cap hrow).2]
  have hlen : (bandAt rect pixels cap row).2.length
      = bandRows rect cap row * (rect.width.toNat * 4) :=
    Raster.length_take_drop (bandAt_fits h cap hrow)
  rw [hlen]
  -- a stride above the cap gives single rows, any other one whole rows below the cap
  by_cases hdiv : cap / (rect.width.toNat * 4) = 0
  · right
    unfold bandRows
    omega
  · left
    have hle : bandRows rect cap row ≤ cap / (rect.width.toNat * 4) :=
      (min_le_left _ _).trans (max_eq_left (Nat.one_le_iff_ne_zero.mpr hdiv)).le
    exact (Nat.mul_le_mul_right _ hle).trans (Nat.div_mul_le_self _ _)

private theorem bandAt_patch (h : EntryOk width height (rect, pixels)) (cap : Nat) {row : Nat}
    (hrow : row < rect.height.toNat) (p : Px) :
    entryPatch (bandAt rect pixels cap row) p =
      if rect.y.toNat + row ≤ p.2.1 ∧ p.2.1 < rect.y.toNat + row + bandRows rect cap row
      then entryPatch (rect, pixels) p else none := by
  obtain ⟨hy, hheight⟩ := bandRect_toNat h cap hrow
  have hrows := bandRows_bounds cap hrow
  obtain ⟨x, y, c⟩ := p
  have hx : (bandAt rect pixels cap row).1.x = rect.x := rfl
  have hw : (bandAt rect pixels cap row).1.width = rect.width := rfl
  simp only
  split
  · next hin =>
    by_cases hp : RectHas rect (x, y, c)
    · have hp' : RectHas (bandAt rect pixels cap row).1 (x, y, c) := by
        rw [rectHas_iff] at hp ⊢
        rw [hx, hw, hy, hheight]
        simp only at hp ⊢
        omega
      rw [entryPatch_of_has hp', entryPatch_of_has hp]
      have hlt := index_lt (bandAt_ok h cap hrow) hp'
      change ((pixels.drop (row * (rect.width.toNat * 4))).take
        (bandRows rect cap row * (rect.width.toNat * 4)))[_]? = pixels[_]?
      rw [Raster.getElem?_take_drop _ _ (by
        rw [(bandAt_ok h cap hrow).length_eq, hheight, hw] at hlt
        calc _ < 4 * rect.width.toNat * bandRows rect cap row := hlt
          _ = _ := by ring)]
      congr 1
      simp only [Raster.Rect.index, rectOf]
      rw [hx, hw, hy]
      -- the band's rows start `row` rows further down
      have hsplit : y - rect.y.toNat = row + (y - (rect.y.toNat + row)) := by omega
      rw [hsplit]
      ring
    · have hnone : entryPatch (rect, pixels) (x, y, c) = none := entryPatch_of_not hp
      rw [hnone, entryPatch_of_not]
      intro hp'
      apply hp
      rw [rectHas_iff] at hp' ⊢
      rw [hx, hw, hy, hheight] at hp'
      simp only at hp' ⊢
      omega
  · next hout =>
    rw [entryPatch_of_not]
    intro hp'
    rw [rectHas_iff] at hp'
    rw [hy, hheight] at hp'
    simp only at hp'
    omega

/-- What the bands from `row` on have in common: they are well-formed, they respect the cap unless
they are single rows, and together they show the entry from that row down. -/
private theorem bandsFrom_spec (h : EntryOk width height (rect, pixels)) (cap row : Nat) :
    (∀ band ∈ bandsFrom rect pixels cap row, EntryOk width height band ∧
        (band.2.length ≤ cap ∨ band.1.height.toNat = 1)) ∧
      ∀ p, entriesPatch (bandsFrom rect pixels cap row) p =
        if rect.y.toNat + row ≤ p.2.1 then entryPatch (rect, pixels) p else none := by
  by_cases hrow : row < rect.height.toNat
  · have hrows := bandRows_bounds cap hrow
    -- the recursion of the loop: the band at `row`, then those from its last row on
    obtain ⟨ihOk, ihPatch⟩ := bandsFrom_spec h cap (row + bandRows rect cap row)
    rw [bandsFrom_of_lt h cap hrow]
    constructor
    · intro band hband
      rcases List.mem_cons.mp hband with rfl | hband
      · exact ⟨bandAt_ok h cap hrow, bandAt_capped h cap hrow⟩
      · exact ihOk band hband
    · intro p
      rw [entriesPatch_cons, paint_apply, ihPatch, bandAt_patch h cap hrow]
      by_cases hp : RectHas rect p
      · rw [rectHas_iff] at hp
        -- a byte of the rectangle is above this band, in it, or below it
        by_cases habove : p.2.1 < rect.y.toNat + row
        · rw [if_neg (by omega), if_neg (by omega), if_neg (by omega)]
          rfl
        · by_cases hbelow : p.2.1 < rect.y.toNat + row + bandRows rect cap row
          · rw [if_neg (by omega), if_pos (by omega), if_pos (by omega)]
            rfl
          · rw [if_pos (by omega), if_neg (by omega), if_pos (by omega), Option.or_none]
      · have hnone : entryPatch (rect, pixels) p = none := entryPatch_of_not hp
        simp [hnone]
  · rw [bandsFrom_of_ge cap (by omega)]
    refine ⟨by simp, fun p => ?_⟩
    simp only [entriesPatch_nil, blank_apply]
    split
    · rw [entryPatch_of_not]
      intro hp
      rw [rectHas_iff] at hp
      simp only at hp
      omega
    · rfl
termination_by rect.height.toNat - row

/-- The bands of a well-formed entry are well-formed, and only a single row exceeds the cap. -/
theorem splitEntryIntoBands_ok {entry : DeltaEntry} (h : EntryOk width height entry) (cap : Nat) :
    ∀ band ∈ splitEntryIntoBands entry cap, EntryOk width height band ∧
      (band.2.length ≤ cap ∨ band.1.height.toNat = 1) := by
  intro band hband
  unfold splitEntryIntoBands at hband
  split at hband
  · next hwhole =>
    rw [List.mem_singleton] at hband
    subst hband
    refine ⟨h, Or.inl ?_⟩
    -- the entry is kept whole when it has no bytes, or when it fits
    rcases hwhole with hstride | hle
    · have hzero : 4 * band.1.width.toNat = 0 := by omega
      rw [h.length_eq, hzero, Nat.zero_mul]
      exact Nat.zero_le _
    · exact hle
  · exact (bandsFrom_spec h cap 0).1 band hband

/-- The bands of an entry show the entry. -/
theorem splitEntryIntoBands_patch {entry : DeltaEntry} (h : EntryOk width height entry)
    (cap : Nat) : entriesPatch (splitEntryIntoBands entry cap) = entryPatch entry := by
  unfold splitEntryIntoBands
  split
  · exact entriesPatch_singleton entry
  · funext p
    rw [(bandsFrom_spec h cap 0).2 p]
    split
    · rfl
    · next hout =>
      rw [entryPatch_of_not]
      intro hp
      rw [rectHas_iff] at hp
      omega

private theorem bandsFrom_bytes (h : EntryOk width height (rect, pixels)) (cap row : Nat) :
    ((bandsFrom rect pixels cap row).map fun band => band.2.length).sum
      = (rect.height.toNat - row) * (rect.width.toNat * 4) := by
  by_cases hrow : row < rect.height.toNat
  · have hrows := bandRows_bounds cap hrow
    have ih := bandsFrom_bytes h cap (row + bandRows rect cap row)
    have hband : (bandAt rect pixels cap row).2.length
        = bandRows rect cap row * (rect.width.toNat * 4) :=
      Raster.length_take_drop (bandAt_fits h cap hrow)
    rw [bandsFrom_of_lt h cap hrow, List.map_cons, List.sum_cons, ih, hband, ← Nat.add_mul]
    congr 1
    omega
  · rw [bandsFrom_of_ge cap (by omega), Nat.sub_eq_zero_of_le (by omega), Nat.zero_mul]
    rfl
termination_by rect.height.toNat - row

/-- The bands of an entry carry its bytes, no more and no fewer. -/
theorem splitEntryIntoBands_bytes {entry : DeltaEntry} (h : EntryOk width height entry)
    (cap : Nat) :
    ((splitEntryIntoBands entry cap).map fun band => band.2.length).sum = entry.2.length := by
  unfold splitEntryIntoBands
  split
  · simp
  · rw [bandsFrom_bytes h cap 0, h.length_eq, Nat.sub_zero]
    ring

end Bands

end Mailbox
end Rdp
end Navop
