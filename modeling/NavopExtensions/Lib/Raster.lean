import NavopExtensions.Lib.Overlay

/-!
# Rasters: pictures stored row by row

A raster stores a picture as a flat list, four values for each pixel, row after row. A `Rect` with
its block of values is a patch over the points of the picture (`Rect.patch`), and so is the raster as
a whole (`whole`). What programs do to the flat list is then an equation between patches:

* writing the rows of a block into a raster paints its patch (`patch_writeRows`);
* the rows read out of a raster form the block of the raster's own picture (`patch_readRows`);
* permuting the values of every pixel permutes the channels (`patch_swap`).

They hold for rectangles inside the columns of the raster. Beyond its right edge the rows of a block
run into the next row of the raster, although every access is in bounds.
-/

namespace Raster

open Overlay

variable {α : Type*}

/-! ### Slices -/

theorem getElem?_take_drop (xs : List α) (start : ℕ) {n i : ℕ} (h : i < n) :
    ((xs.drop start).take n)[i]? = xs[start + i]? := by
  rw [List.getElem?_take_of_lt h, List.getElem?_drop]

theorem length_take_drop {xs : List α} {start n : ℕ} (h : start + n ≤ xs.length) :
    ((xs.drop start).take n).length = n := by
  rw [List.length_take, List.length_drop]
  omega

/-- Write a block over part of a list. -/
def overwrite (xs : List α) (start : ℕ) (block : List α) : List α :=
  xs.take start ++ block ++ xs.drop (start + block.length)

theorem length_overwrite {xs block : List α} {start : ℕ} (h : start + block.length ≤ xs.length) :
    (overwrite xs start block).length = xs.length := by
  simp only [overwrite, List.length_append, List.length_take, List.length_drop]
  omega

theorem getElem?_overwrite {xs block : List α} {start : ℕ}
    (h : start + block.length ≤ xs.length) (i : ℕ) :
    (overwrite xs start block)[i]?
      = if start ≤ i ∧ i < start + block.length then block[i - start]? else xs[i]? := by
  have htake : (xs.take start).length = start := by
    rw [List.length_take]
    omega
  unfold overwrite
  rw [List.append_assoc]
  by_cases hbefore : i < start
  · rw [List.getElem?_append_left (by omega), List.getElem?_take_of_lt hbefore, if_neg (by omega)]
  · rw [List.getElem?_append_right (by omega), htake]
    by_cases hinside : i < start + block.length
    · rw [List.getElem?_append_left (by omega), if_pos (by omega)]
    · rw [List.getElem?_append_right (by omega), List.getElem?_drop, if_neg (by omega)]
      congr 1
      omega

/-! ### Rectangles -/

/-- A point of the picture: column, row, and channel. -/
abbrev Point := ℕ × ℕ × ℕ

/-- A rectangle of pixels. -/
structure Rect where
  x : ℕ
  y : ℕ
  width : ℕ
  height : ℕ
  deriving DecidableEq, Repr

/-- All of a raster. -/
def whole (width height : ℕ) : Rect := ⟨0, 0, width, height⟩

namespace Rect

/-- The points of a rectangle. -/
def Has (r : Rect) (p : Point) : Prop :=
  (r.x ≤ p.1 ∧ p.1 < r.x + r.width) ∧ (r.y ≤ p.2.1 ∧ p.2.1 < r.y + r.height) ∧ p.2.2 < 4

instance (r : Rect) : DecidablePred r.Has := fun p =>
  inferInstanceAs (Decidable ((_ ∧ _) ∧ (_ ∧ _) ∧ p.2.2 < 4))

/-- The position of a point in the block of a rectangle. -/
def index (r : Rect) (p : Point) : ℕ := ((p.2.1 - r.y) * r.width + (p.1 - r.x)) * 4 + p.2.2

/-- What a block of values shows in a rectangle. -/
def patch (r : Rect) (block : List α) : Patch Point α := fun p =>
  if r.Has p then block[r.index p]? else none

theorem patch_of_has {r : Rect} {p : Point} (h : r.Has p) (block : List α) :
    r.patch block p = block[r.index p]? := if_pos h

theorem patch_of_not {r : Rect} {p : Point} (h : ¬ r.Has p) (block : List α) :
    r.patch block p = none := if_neg h

/-- One row of a rectangle. -/
def row (r : Rect) (k : ℕ) : Rect := ⟨r.x, r.y + k, r.width, 1⟩

/-- The first rows of a rectangle. -/
def upTo (r : Rect) (n : ℕ) : Rect := { r with height := n }

/-- Where a row of a rectangle begins in a raster with rows of `stride` pixels. -/
def rowStart (r : Rect) (stride k : ℕ) : ℕ := ((r.y + k) * stride + r.x) * 4

/-- The values of one row of a rectangle in its block. -/
def rowBlock (r : Rect) (block : List α) (k : ℕ) : List α :=
  (block.drop (k * r.width * 4)).take (r.width * 4)

theorem length_rowBlock {r : Rect} {block : List α} {k : ℕ}
    (hlength : block.length = r.width * r.height * 4) (hk : k < r.height) :
    (r.rowBlock block k).length = r.width * 4 := by
  refine length_take_drop ?_
  have hrows : (k + 1) * r.width ≤ r.height * r.width := Nat.mul_le_mul_right _ hk
  rw [Nat.succ_mul, Nat.mul_comm r.height] at hrows
  omega

theorem not_has_upTo_zero (r : Rect) (p : Point) : ¬ (r.upTo 0).Has p := by
  rintro ⟨-, ⟨hy, hy'⟩, -⟩
  simp only [upTo] at hy hy'
  omega

theorem has_upTo_succ {r : Rect} {n : ℕ} {p : Point} :
    (r.upTo (n + 1)).Has p ↔ (r.upTo n).Has p ∨ (r.row n).Has p := by
  unfold Has
  simp only [row, upTo]
  omega

theorem not_has_upTo_of_row {r : Rect} {n : ℕ} {p : Point} (h : (r.row n).Has p) :
    ¬ (r.upTo n).Has p := by
  unfold Has at h ⊢
  simp only [row, upTo] at h ⊢
  omega

/-- Where a point of a row is in the block of the row. -/
theorem index_row_eq {r : Rect} {k : ℕ} {p : Point} (h : (r.row k).Has p) :
    (r.row k).index p = (p.1 - r.x) * 4 + p.2.2 := by
  obtain ⟨-, ⟨-, hy⟩, -⟩ := h
  simp only [row] at hy
  have hline : p.2.1 - (r.y + k) = 0 := by omega
  simp only [index, row, hline, Nat.zero_mul, Nat.zero_add]

theorem index_row_lt {r : Rect} {k : ℕ} {p : Point} (h : (r.row k).Has p) :
    (r.row k).index p < r.width * 4 := by
  rw [index_row_eq h]
  obtain ⟨⟨hx, hx'⟩, -, hc⟩ := h
  simp only [row] at hx hx'
  omega

/-- A block is shown row by row. -/
theorem patch_upTo_succ (r : Rect) (block : List α) (n : ℕ) :
    (r.upTo (n + 1)).patch block
      = paint ((r.upTo n).patch block) ((r.row n).patch (r.rowBlock block n)) := by
  funext p
  rw [paint_apply]
  by_cases hrow : (r.row n).Has p
  · -- a point of the last row
    have hindex : (r.upTo (n + 1)).index p
        = n * r.width * 4 + ((p.1 - r.x) * 4 + p.2.2) := by
      obtain ⟨-, ⟨hy, hy'⟩, -⟩ := hrow
      simp only [row] at hy hy'
      have hline : p.2.1 - r.y = n := by omega
      simp only [index, upTo, hline]
      ring
    have hinside := index_row_lt hrow
    rw [index_row_eq hrow] at hinside
    rw [patch_of_has (has_upTo_succ.mpr (.inr hrow)), patch_of_has hrow,
      patch_of_not (not_has_upTo_of_row hrow), Option.or_none, index_row_eq hrow, hindex, rowBlock,
      getElem?_take_drop _ _ hinside]
  · rw [patch_of_not hrow, Option.none_or]
    by_cases hupTo : (r.upTo n).Has p
    · rw [patch_of_has hupTo, patch_of_has (has_upTo_succ.mpr (.inl hupTo))]
      rfl
    · rw [patch_of_not hupTo, patch_of_not fun h => (has_upTo_succ.mp h).elim hupTo hrow]

/-- What follows the values of the first rows is not shown in them. -/
theorem patch_upTo_append {r : Rect} {n : ℕ} {block : List α}
    (h : block.length = r.width * n * 4) (rest : List α) :
    (r.upTo n).patch (block ++ rest) = (r.upTo n).patch block := by
  funext p
  by_cases hp : (r.upTo n).Has p
  · rw [patch_of_has hp, patch_of_has hp, List.getElem?_append_left]
    obtain ⟨⟨hx, hx'⟩, ⟨hy, hy'⟩, hc⟩ := hp
    simp only [upTo] at hx hx' hy hy'
    have hmul : (p.2.1 - r.y + 1) * r.width ≤ n * r.width := Nat.mul_le_mul_right _ (by omega)
    rw [Nat.succ_mul, Nat.mul_comm n] at hmul
    simp only [index, upTo, h]
    omega
  · rw [patch_of_not hp, patch_of_not hp]

end Rect

/-! ### Writing and reading rows -/

/-- Write one row of a block into a raster, unless it ends outside the list. -/
def writeRow (stride : ℕ) (r : Rect) (block : List α) (xs : List α) (k : ℕ) : Option (List α) :=
  if r.rowStart stride k + r.width * 4 ≤ xs.length then
    some (overwrite xs (r.rowStart stride k) (r.rowBlock block k))
  else none

/-- Write the rows of a block into a raster. -/
def writeRows (stride : ℕ) (r : Rect) (block : List α) (xs : List α) : Option (List α) :=
  (List.range r.height).foldlM (writeRow stride r block) xs

/-- Read one row of a rectangle out of a raster, unless it ends outside the list. -/
def readRow (stride : ℕ) (r : Rect) (xs : List α) (out : List α) (k : ℕ) : Option (List α) :=
  if r.rowStart stride k + r.width * 4 ≤ xs.length then
    some (out ++ (xs.drop (r.rowStart stride k)).take (r.width * 4))
  else none

/-- Read the rows of a rectangle out of a raster. -/
def readRows (stride : ℕ) (r : Rect) (xs : List α) : Option (List α) :=
  (List.range r.height).foldlM (readRow stride r xs) []

variable {width height : ℕ} {r : Rect} {xs ys block : List α} {k : ℕ}

/-- Every row of the rectangle ends inside a list of this length. -/
def InBounds (stride : ℕ) (r : Rect) (length : ℕ) : Prop :=
  ∀ k < r.height, r.rowStart stride k + r.width * 4 ≤ length

theorem writeRow_eq_some (stride : ℕ) (hblock : (r.rowBlock block k).length = r.width * 4)
    (h : writeRow stride r block xs k = some ys) :
    r.rowStart stride k + r.width * 4 ≤ xs.length ∧ ys.length = xs.length := by
  unfold writeRow at h
  split at h
  · next hrow =>
    obtain rfl := Option.some.inj h
    refine ⟨hrow, length_overwrite ?_⟩
    rw [hblock]
    exact hrow
  · exact absurd h (by simp)

/-- Rows are written in bounds, and the raster keeps its length. -/
theorem writeRows_eq_some {stride : ℕ} (hblock : block.length = r.width * r.height * 4)
    (h : writeRows stride r block xs = some ys) :
    InBounds stride r xs.length ∧ ys.length = xs.length := by
  -- by induction on the rows: every write keeps the length, so that the bounds are the same for all
  have hrows : ∀ n ≤ r.height, ∀ zs,
      (List.range n).foldlM (writeRow stride r block) xs = some zs →
      (∀ k < n, r.rowStart stride k + r.width * 4 ≤ xs.length) ∧ zs.length = xs.length := by
    intro n
    induction n with
    | zero =>
      intro _ zs hzs
      obtain rfl : xs = zs := Option.some.inj hzs
      exact ⟨fun k hk => absurd hk (Nat.not_lt_zero k), rfl⟩
    | succ n ih =>
      intro hn zs hzs
      rw [List.range_succ, List.foldlM_append] at hzs
      obtain ⟨ws, hws, hzs⟩ := Option.bind_eq_some_iff.mp hzs
      obtain ⟨hbounds, hlen⟩ := ih (by omega) ws hws
      have hone : writeRow stride r block ws n = some zs := by simpa using hzs
      obtain ⟨hrow, hlen'⟩ := writeRow_eq_some stride (Rect.length_rowBlock hblock hn) hone
      refine ⟨fun k hk => ?_, hlen'.trans hlen⟩
      obtain hlt | rfl := Nat.lt_succ_iff_lt_or_eq.mp hk
      · exact hbounds k hlt
      · rw [← hlen]
        exact hrow
  exact hrows r.height le_rfl ys h

/-- What is in bounds can be read. -/
theorem readRows_of_inBounds {stride : ℕ} (h : InBounds stride r xs.length) :
    ∃ block, readRows stride r xs = some block := by
  have hrows : ∀ n ≤ r.height, ∃ out,
      (List.range n).foldlM (readRow stride r xs) [] = some out := by
    intro n
    induction n with
    | zero => exact fun _ => ⟨[], rfl⟩
    | succ n ih =>
      intro hn
      obtain ⟨out, hout⟩ := ih (by omega)
      refine ⟨out ++ (xs.drop (r.rowStart stride n)).take (r.width * 4), ?_⟩
      rw [List.range_succ, List.foldlM_append, hout]
      simp [readRow, h n hn]
  exact hrows r.height le_rfl

/-- What is in bounds can be written. -/
theorem writeRows_of_inBounds {stride : ℕ} (hblock : block.length = r.width * r.height * 4)
    (h : InBounds stride r xs.length) : ∃ ys, writeRows stride r block xs = some ys := by
  have hrows : ∀ n ≤ r.height, ∃ zs, (List.range n).foldlM (writeRow stride r block) xs = some zs
      ∧ zs.length = xs.length := by
    intro n
    induction n with
    | zero => exact fun _ => ⟨xs, rfl, rfl⟩
    | succ n ih =>
      intro hn
      obtain ⟨zs, hzs, hlen⟩ := ih (by omega)
      have hrow : r.rowStart stride n + r.width * 4 ≤ zs.length := hlen ▸ h n hn
      refine ⟨overwrite zs (r.rowStart stride n) (r.rowBlock block n), ?_, ?_⟩
      · rw [List.range_succ, List.foldlM_append, hzs]
        simp [writeRow, hrow]
      · rw [length_overwrite (by rwa [Rect.length_rowBlock hblock hn]), hlen]
  obtain ⟨ys, hys, -⟩ := hrows r.height le_rfl
  exact ⟨ys, hys⟩

/-- A rectangle inside a raster is in bounds. -/
theorem inBounds_of_fits (hcolumns : r.x + r.width ≤ width) (hrows : r.y + r.height ≤ height) :
    InBounds width r (width * height * 4) := by
  intro k hk
  have hmul : (r.y + k + 1) * width ≤ height * width := Nat.mul_le_mul_right _ (by omega)
  rw [Nat.succ_mul, Nat.mul_comm height] at hmul
  rw [Rect.rowStart]
  omega

/-- A row that ends inside the list is one of the raster's rows. -/
theorem row_lt (hlength : xs.length = width * height * 4)
    (hrow : r.rowStart width k + r.width * 4 ≤ xs.length) (hpos : 0 < r.width) :
    r.y + k < height := by
  by_contra hge
  have hmul : height * width ≤ (r.y + k) * width := Nat.mul_le_mul_right _ (Nat.not_lt.mp hge)
  rw [hlength, Rect.rowStart, Nat.mul_comm width] at hrow
  omega

/-- Where a point of a row is in the raster. -/
theorem index_row {p : Point} (hp : (r.row k).Has p) :
    (whole width height).index p = r.rowStart width k + (r.row k).index p := by
  obtain ⟨⟨hx, -⟩, ⟨hy, hy'⟩, -⟩ := hp
  simp only [Rect.row] at hx hy hy'
  have hline : p.2.1 = r.y + k := by omega
  simp only [Rect.index, whole, Rect.row, Rect.rowStart, hline, Nat.sub_zero, Nat.sub_self,
    Nat.zero_mul, Nat.zero_add]
  omega

/-- A point that is not in a row is not written with it. -/
theorem index_not_row (hfits : r.x + r.width ≤ width) {p : Point} (hp : ¬ (r.row k).Has p)
    (hwhole : (whole width height).Has p) :
    ¬ (r.rowStart width k ≤ (whole width height).index p ∧
      (whole width height).index p < r.rowStart width k + r.width * 4) := by
  obtain ⟨⟨-, hx⟩, -, hc⟩ := hwhole
  simp only [whole, Nat.zero_add] at hx
  simp only [Rect.index, whole, Rect.rowStart, Nat.sub_zero]
  rintro ⟨hstart, hend⟩
  -- a line above, the line itself, where the point is left or right of the row, or a line below
  rcases Nat.lt_trichotomy p.2.1 (r.y + k) with hlt | heq | hgt
  · have hmul : (p.2.1 + 1) * width ≤ (r.y + k) * width := Nat.mul_le_mul_right _ hlt
    rw [Nat.succ_mul] at hmul
    omega
  · refine hp ⟨?_, ?_, hc⟩
    · simp only [Rect.row]
      rw [heq] at hstart hend
      omega
    · simp only [Rect.row]
      omega
  · have hmul : (r.y + k + 1) * width ≤ p.2.1 * width := Nat.mul_le_mul_right _ hgt
    rw [Nat.succ_mul] at hmul
    omega

/-- A row inside the columns of the raster lies in the raster. -/
theorem whole_of_row (hfits : r.x + r.width ≤ width) (hlength : xs.length = width * height * 4)
    (hrow : r.rowStart width k + r.width * 4 ≤ xs.length) {p : Point} (hp : (r.row k).Has p) :
    (whole width height).Has p := by
  obtain ⟨⟨hx, hx'⟩, ⟨hy, hy'⟩, hc⟩ := hp
  simp only [Rect.row] at hx hx' hy hy'
  have hline := row_lt hlength hrow (by omega)
  refine ⟨⟨Nat.zero_le _, ?_⟩, ⟨Nat.zero_le _, ?_⟩, hc⟩
  · simp only [whole]
    omega
  · simp only [whole]
    omega

/-- A raster shows every point it has. -/
theorem isSome_patch_whole (hlength : xs.length = width * height * 4) {p : Point}
    (hp : (whole width height).Has p) : ((whole width height).patch xs p).isSome := by
  have hinside : (whole width height).index p < xs.length := by
    obtain ⟨⟨-, hx⟩, ⟨-, hy⟩, hc⟩ := hp
    simp only [whole, Nat.zero_add] at hx hy
    have hmul : (p.2.1 + 1) * width ≤ height * width := Nat.mul_le_mul_right _ hy
    rw [Nat.succ_mul, Nat.mul_comm height] at hmul
    simp only [Rect.index, whole, Nat.sub_zero, hlength]
    omega
  rw [Rect.patch_of_has hp, List.getElem?_eq_getElem hinside]
  rfl

/-- **Writing one row** paints it. -/
theorem patch_writeRow (hfits : r.x + r.width ≤ width) (hlength : xs.length = width * height * 4)
    (hblock : (r.rowBlock block k).length = r.width * 4)
    (hwrite : writeRow width r block xs k = some ys) :
    ys.length = xs.length ∧ (whole width height).patch ys
      = paint ((whole width height).patch xs) ((r.row k).patch (r.rowBlock block k)) := by
  unfold writeRow at hwrite
  split at hwrite
  swap
  · exact absurd hwrite (by simp)
  next hrow =>
  obtain rfl := Option.some.inj hwrite
  have hbound : r.rowStart width k + (r.rowBlock block k).length ≤ xs.length := by
    rw [hblock]
    exact hrow
  refine ⟨length_overwrite hbound, ?_⟩
  funext p
  rw [paint_apply]
  -- a point of the row is overwritten, any other keeps its sample
  by_cases hp : (r.row k).Has p
  · have hwhole := whole_of_row hfits hlength hrow hp
    have hinside : (r.row k).index p < (r.rowBlock block k).length := by
      rw [hblock]
      exact Rect.index_row_lt hp
    rw [Rect.patch_of_has hwhole, Rect.patch_of_has hp, getElem?_overwrite hbound, index_row hp,
      if_pos (by omega), Nat.add_sub_cancel_left, List.getElem?_eq_getElem hinside]
    rfl
  · rw [Rect.patch_of_not hp, Option.none_or]
    by_cases hwhole : (whole width height).Has p
    · rw [Rect.patch_of_has hwhole, Rect.patch_of_has hwhole, getElem?_overwrite hbound, hblock,
        if_neg (index_not_row hfits hp hwhole)]
    · rw [Rect.patch_of_not hwhole, Rect.patch_of_not hwhole]

/-- **Writing rows** paints the block, for a rectangle inside the columns of the raster. -/
theorem patch_writeRows (hfits : r.x + r.width ≤ width ∨ r.height = 0)
    (hlength : xs.length = width * height * 4) (hblock : block.length = r.width * r.height * 4)
    (hwrite : writeRows width r block xs = some ys) :
    ys.length = xs.length ∧
      (whole width height).patch ys = paint ((whole width height).patch xs) (r.patch block) := by
  -- the first `n` rows have been written
  have hrows : ∀ n ≤ r.height, ∀ zs,
      (List.range n).foldlM (writeRow width r block) xs = some zs →
      zs.length = xs.length ∧ (whole width height).patch zs
        = paint ((whole width height).patch xs) ((r.upTo n).patch block) := by
    intro n
    induction n with
    | zero =>
      intro _ zs hzs
      obtain rfl : xs = zs := Option.some.inj hzs
      have hblank : (r.upTo 0).patch block = blank := by
        funext p
        exact Rect.patch_of_not (r.not_has_upTo_zero p) block
      rw [hblank, paint_blank]
      exact ⟨rfl, rfl⟩
    | succ n ih =>
      intro hn zs hzs
      rw [List.range_succ, List.foldlM_append] at hzs
      obtain ⟨ws, hws, hzs⟩ := Option.bind_eq_some_iff.mp hzs
      obtain ⟨hlen, hpatch⟩ := ih (by omega) ws hws
      have hone : writeRow width r block ws n = some zs := by simpa using hzs
      obtain ⟨hlen', hpatch'⟩ := patch_writeRow (hfits.resolve_right (by omega))
        (hlen.trans hlength) (Rect.length_rowBlock hblock hn) hone
      refine ⟨hlen'.trans hlen, ?_⟩
      rw [hpatch', hpatch, Rect.patch_upTo_succ, paint_assoc]
  exact hrows r.height le_rfl ys hwrite

/-- What a rectangle shows of a picture. -/
def restrict (r : Rect) (picture : Patch Point α) : Patch Point α := fun p =>
  if r.Has p then picture p else none

/-- **Reading one row** shows what the raster shows there. -/
theorem patch_readRow {out out' : List α} (hlength : xs.length = width * height * 4)
    (hout : out.length = r.width * k * 4) (hread : readRow width r xs out k = some out') :
    out'.length = r.width * (k + 1) * 4 ∧ (r.x + r.width ≤ width →
      (r.upTo k).patch out = restrict (r.upTo k) ((whole width height).patch xs) →
      (r.upTo (k + 1)).patch out'
        = restrict (r.upTo (k + 1)) ((whole width height).patch xs)) := by
  unfold readRow at hread
  split at hread
  swap
  · exact absurd hread (by simp)
  next hrow =>
  obtain rfl := Option.some.inj hread
  have hslice := length_take_drop hrow
  refine ⟨?_, ?_⟩
  · have hsucc : r.width * (k + 1) = r.width * k + r.width := Nat.mul_succ _ _
    rw [List.length_append, hout, hslice, hsucc]
    omega
  intro hfits hbefore
  -- the row is appended behind those that have been read
  have hblock : r.rowBlock (out ++ (xs.drop (r.rowStart width k)).take (r.width * 4)) k
      = (xs.drop (r.rowStart width k)).take (r.width * 4) := by
    have hstart : k * r.width * 4 = out.length := by rw [hout, Nat.mul_comm k]
    rw [Rect.rowBlock, hstart, List.drop_left, List.take_of_length_le hslice.le]
  rw [Rect.patch_upTo_succ, hblock, Rect.patch_upTo_append hout, hbefore]
  funext p
  rw [paint_apply]
  by_cases hp : (r.row k).Has p
  · -- a point of the row that was read
    have hinside := Rect.index_row_lt hp
    have hbound : r.rowStart width k + (r.row k).index p < xs.length := by omega
    rw [restrict, restrict, if_pos (Rect.has_upTo_succ.mpr (.inr hp)),
      Rect.patch_of_has (whole_of_row hfits hlength hrow hp), Rect.patch_of_has hp,
      getElem?_take_drop _ _ hinside, index_row hp, List.getElem?_eq_getElem hbound]
    rfl
  · rw [Rect.patch_of_not hp, Option.none_or]
    refine if_congr ?_ rfl rfl
    exact ⟨fun h => Rect.has_upTo_succ.mpr (.inl h),
      fun h => (Rect.has_upTo_succ.mp h).resolve_right hp⟩

/-- **Reading rows** gives a block that shows what the raster shows, for a rectangle inside the
columns of the raster. -/
theorem patch_readRows (hlength : xs.length = width * height * 4)
    (hread : readRows width r xs = some block) :
    block.length = r.width * r.height * 4 ∧ (r.x + r.width ≤ width ∨ r.height = 0 →
      r.patch block = restrict r ((whole width height).patch xs)) := by
  -- the first `n` rows have been read
  have hrows : ∀ n, ∀ out, (List.range n).foldlM (readRow width r xs) [] = some out →
      out.length = r.width * n * 4 ∧ (r.x + r.width ≤ width ∨ n = 0 →
        (r.upTo n).patch out = restrict (r.upTo n) ((whole width height).patch xs)) := by
    intro n
    induction n with
    | zero =>
      intro out hout
      obtain rfl : [] = out := Option.some.inj hout
      refine ⟨by simp, fun _ => ?_⟩
      funext p
      have hnot := r.not_has_upTo_zero p
      rw [Rect.patch_of_not hnot, restrict, if_neg hnot]
    | succ n ih =>
      intro out hout
      rw [List.range_succ, List.foldlM_append] at hout
      obtain ⟨before, hbefore, hout⟩ := Option.bind_eq_some_iff.mp hout
      obtain ⟨hlen, hpatch⟩ := ih before hbefore
      have hone : readRow width r xs before n = some out := by simpa using hout
      obtain ⟨hlen', hpatch'⟩ := patch_readRow hlength hlen hone
      refine ⟨hlen', fun hfits => ?_⟩
      have hfits' := hfits.resolve_right (Nat.succ_ne_zero n)
      exact hpatch' hfits' (hpatch (.inl hfits'))
  exact hrows r.height block hread

/-- What a picture shows in a rectangle, moved to another one. -/
def moved (src dst : Rect) (picture : Patch Point α) : Patch Point α := fun p =>
  if dst.Has p then picture (p.1 - dst.x + src.x, p.2.1 - dst.y + src.y, p.2.2) else none

/-- A block that is read in one rectangle is shown in another of the same size. -/
theorem patch_moved {src dst : Rect} {picture : Patch Point α} (hwidth : dst.width = src.width)
    (hheight : dst.height = src.height) (h : src.patch block = restrict src picture) :
    dst.patch block = moved src dst picture := by
  funext p
  by_cases hp : dst.Has p
  · have hsrc : src.Has (p.1 - dst.x + src.x, p.2.1 - dst.y + src.y, p.2.2) := by
      unfold Rect.Has at hp ⊢
      dsimp only
      omega
    have hshown := congrFun h (p.1 - dst.x + src.x, p.2.1 - dst.y + src.y, p.2.2)
    rw [restrict, if_pos hsrc, Rect.patch_of_has hsrc] at hshown
    have hindex : src.index (p.1 - dst.x + src.x, p.2.1 - dst.y + src.y, p.2.2) = dst.index p := by
      simp only [Rect.index, Nat.add_sub_cancel, hwidth]
    rw [Rect.patch_of_has hp, moved, if_pos hp, ← hshown, hindex]
  · rw [Rect.patch_of_not hp, moved, if_neg hp]

/-! ### Channels -/

/-- Exchange the first and the third value of every pixel. -/
def swapFirstThird : List α → List α
  | first :: second :: third :: fourth :: rest =>
    third :: second :: first :: fourth :: swapFirstThird rest
  | rest => rest

/-- The channel that is shown after the exchange. -/
def swapChannel : ℕ → ℕ
  | 0 => 2
  | 2 => 0
  | c => c

theorem getElem?_swapFirstThird {xs : List α} {n : ℕ} (h : xs.length = n * 4) (i : ℕ) {c : ℕ}
    (hc : c < 4) : (swapFirstThird xs)[i * 4 + c]? = xs[i * 4 + swapChannel c]? := by
  induction xs using swapFirstThird.induct generalizing n i with
  | case1 first second third fourth rest ih =>
    cases i with
    | zero =>
      match c, hc with
      | 0, _ => rfl
      | 1, _ => rfl
      | 2, _ => rfl
      | 3, _ => rfl
    | succ i =>
      have hrest : rest.length = (n - 1) * 4 := by
        simp only [List.length_cons] at h
        omega
      have hshift : ∀ c, (i + 1) * 4 + c = i * 4 + c + 1 + 1 + 1 + 1 := by
        intro c
        omega
      rw [swapFirstThird, hshift, hshift]
      simp only [List.getElem?_cons_succ]
      exact ih hrest i
  | case2 rest hshort =>
    -- fewer than four values, and a multiple of four
    rcases rest with _ | ⟨_, _ | ⟨_, _ | ⟨_, _ | ⟨_, _⟩⟩⟩⟩
    · rfl
    · simp at h
      omega
    · simp at h
      omega
    · simp at h
      omega
    · exact absurd rfl (hshort _ _ _ _ _)

theorem length_swapFirstThird (xs : List α) : (swapFirstThird xs).length = xs.length := by
  fun_induction swapFirstThird xs with
  | case1 first second third fourth rest ih => simp [ih]
  | case2 rest _ => rfl

/-- Exchange the channels of a picture. -/
def swapPicture (picture : Patch Point α) : Patch Point α := fun p =>
  if p.2.2 < 4 then picture (p.1, p.2.1, swapChannel p.2.2) else none

theorem swapChannel_lt {c : ℕ} (h : c < 4) : swapChannel c < 4 := by
  match c, h with
  | 0, _ => decide
  | 1, _ => decide
  | 2, _ => decide
  | 3, _ => decide

/-- **Exchanging the values of every pixel** exchanges the channels of the picture. -/
theorem patch_swap (r : Rect) {n : ℕ} (h : block.length = n * 4) :
    r.patch (swapFirstThird block) = swapPicture (r.patch block) := by
  funext p
  by_cases hp : r.Has p
  · have hc : p.2.2 < 4 := hp.2.2
    have hp' : r.Has (p.1, p.2.1, swapChannel p.2.2) := ⟨hp.1, hp.2.1, swapChannel_lt hc⟩
    rw [swapPicture, if_pos hc, Rect.patch_of_has hp, Rect.patch_of_has hp', Rect.index,
      getElem?_swapFirstThird h _ hc]
    rfl
  · rw [Rect.patch_of_not hp, swapPicture]
    split
    · refine (Rect.patch_of_not ?_ block).symm
      rintro ⟨hx, hy, -⟩
      exact hp ⟨hx, hy, by assumption⟩
    · rfl

theorem swapPicture_restrict (r : Rect) (picture : Patch Point α) :
    swapPicture (restrict r picture) = restrict r (swapPicture picture) := by
  funext p
  by_cases hc : p.2.2 < 4
  · have hiff : r.Has (p.1, p.2.1, swapChannel p.2.2) ↔ r.Has p :=
      ⟨fun h => ⟨h.1, h.2.1, hc⟩, fun h => ⟨h.1, h.2.1, swapChannel_lt hc⟩⟩
    simp only [swapPicture, restrict, hc, if_true]
    exact if_congr hiff rfl rfl
  · have hnot : ¬ r.Has p := fun h => hc h.2.2
    simp [swapPicture, restrict, hc, hnot]

theorem swapPicture_paint (base top : Patch Point α) :
    swapPicture (paint base top) = paint (swapPicture base) (swapPicture top) := by
  funext p
  by_cases hc : p.2.2 < 4
  · simp [swapPicture, paint_apply, hc]
  · simp [swapPicture, paint_apply, hc]

end Raster
