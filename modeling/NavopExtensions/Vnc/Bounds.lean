import NavopExtensions.Vnc.Picture

/-!
# What the checks of the framebuffer let through

`patch_rgba_rect` and `copy_rect` check that a rectangle fits with saturating addition. On a
framebuffer of the largest width, every width is taken to fit, and likewise with the height. Apart
from rectangles that fit only so, patching and copying are exact: they fail if and only if the
rectangle does not fit, and otherwise they change the pixels of the rectangle and no others.
-/

namespace Navop
namespace Vnc

open Overlay Raster Checks

/-- The picture of a framebuffer. -/
def RgbaFramebuffer.picture (framebuffer : RgbaFramebuffer) : Patch Point UInt8 :=
  (whole framebuffer.width.toNat framebuffer.height.toNat).patch framebuffer.rgba

section Framebuffer

variable (framebuffer : RgbaFramebuffer)

/-- The rectangle lies in the framebuffer. -/
def Fits (r : Raster.Rect) : Prop :=
  r.x + r.width ≤ framebuffer.width.toNat ∧ r.y + r.height ≤ framebuffer.height.toNat

/-- The checks of a rectangle. -/
def Passes (r : Raster.Rect) : Prop :=
  (r.x ≤ framebuffer.width.toNat ∧ min (r.x + r.width) 65535 ≤ framebuffer.width.toNat)
    ∧ r.y ≤ framebuffer.height.toNat ∧ min (r.y + r.height) 65535 ≤ framebuffer.height.toNat

instance (r : Raster.Rect) : Decidable (Fits framebuffer r) :=
  inferInstanceAs (Decidable (_ ∧ _))

instance (r : Raster.Rect) : Decidable (Passes framebuffer r) :=
  inferInstanceAs (Decidable ((_ ∧ _) ∧ _ ∧ _))

/-- An operation with a result like this one has left the framebuffer as it was, and returned an
error. -/
def Fails (result : Except Failure RgbaFramebuffer) : Prop :=
  ∃ message, result = .error (.error message)

/-- An operation has succeeded, and has painted a patch over the framebuffer. -/
def Paints (result : Except Failure RgbaFramebuffer) (top : Patch Point UInt8) : Prop :=
  ∃ framebuffer', result = .ok framebuffer' ∧ framebuffer'.width = framebuffer.width
    ∧ framebuffer'.height = framebuffer.height
    ∧ framebuffer'.picture = paint framebuffer.picture top

/-- Patching is exact: it fails if and only if the buffer has the wrong length or the rectangle does
not fit, and otherwise paints the buffer in the rectangle. -/
def PatchExact (x y width height : UInt16) (rectRgba : List UInt8) : Prop :=
  (Fails (framebuffer.patchRgbaRect x y width height rectRgba)
      ↔ rectRgba.length ≠ width.toNat * height.toNat * 4
        ∨ ¬ Fits framebuffer (rectOf x y width height)) ∧
    (Fails (framebuffer.patchRgbaRect x y width height rectRgba)
      ∨ Paints framebuffer (framebuffer.patchRgbaRect x y width height rectRgba)
        ((rectOf x y width height).patch rectRgba))

/-- Copying is exact: it fails if and only if one of the rectangles does not fit, and otherwise paints
what was in the one rectangle in the other. -/
def CopyExact (srcX srcY dstX dstY width height : UInt16) : Prop :=
  (Fails (framebuffer.copyRect srcX srcY dstX dstY width height)
      ↔ ¬ (Fits framebuffer (rectOf srcX srcY width height)
        ∧ Fits framebuffer (rectOf dstX dstY width height))) ∧
    (Fails (framebuffer.copyRect srcX srcY dstX dstY width height)
      ∨ Paints framebuffer (framebuffer.copyRect srcX srcY dstX dstY width height)
        (moved (rectOf srcX srcY width height) (rectOf dstX dstY width height)
          framebuffer.picture))

/-- A rectangle passes the checks and does not fit. -/
def PatchSlips (x y width height : UInt16) (rectRgba : List UInt8) : Prop :=
  rectRgba.length = width.toNat * height.toNat * 4
    ∧ Passes framebuffer (rectOf x y width height) ∧ ¬ Fits framebuffer (rectOf x y width height)

instance (x y width height : UInt16) (rectRgba : List UInt8) :
    Decidable (PatchSlips framebuffer x y width height rectRgba) :=
  inferInstanceAs (Decidable (_ ∧ _ ∧ ¬ _))

/-- Two rectangles pass the checks and one does not fit. -/
def CopySlips (srcX srcY dstX dstY width height : UInt16) : Prop :=
  (Passes framebuffer (rectOf srcX srcY width height)
      ∧ Passes framebuffer (rectOf dstX dstY width height))
    ∧ ¬ (Fits framebuffer (rectOf srcX srcY width height)
      ∧ Fits framebuffer (rectOf dstX dstY width height))

end Framebuffer

variable {framebuffer : RgbaFramebuffer} {x y width height srcX srcY dstX dstY : UInt16}
  {rectRgba : List UInt8}

/-! ### The checks -/

theorem toNat_saturatingAdd (a b : UInt16) :
    (saturatingAdd a b).toNat = min (a.toNat + b.toNat) 65535 := by
  unfold saturatingAdd
  split
  · next h =>
    rw [UInt16.toNat_add, Nat.mod_eq_of_lt h]
    omega
  · next h =>
    change 65535 = _
    omega

theorem Fits.passes {r : Raster.Rect} (h : Fits framebuffer r) : Passes framebuffer r := by
  unfold Fits at h
  unfold Passes
  omega

theorem passes_rectOf : Passes framebuffer (rectOf x y width height) ↔
    (x.toNat ≤ framebuffer.width.toNat
        ∧ min (x.toNat + width.toNat) 65535 ≤ framebuffer.width.toNat)
      ∧ y.toNat ≤ framebuffer.height.toNat
        ∧ min (y.toNat + height.toNat) 65535 ≤ framebuffer.height.toNat := Iff.rfl

/-- A check as the source writes it. -/
theorem ensure_le {a limit : UInt16} {e : Failure} {α : Type} {f : Unit → Except Failure α} :
    (ensure (a ≤ limit) e >>= f) = if a.toNat ≤ limit.toNat then f () else .error e := by
  rw [ensure_bind]
  exact if_congr UInt16.le_iff_toNat_le rfl rfl

/-- Patching with a buffer of the right length, where the checks are passed. -/
theorem patchRgbaRect_of_passes (hlength : rectRgba.length = width.toNat * height.toNat * 4)
    (h : Passes framebuffer (rectOf x y width height)) :
    framebuffer.patchRgbaRect x y width height rectRgba
      = framebuffer.writeRect (rectOf x y width height) rectRgba hlength := by
  obtain ⟨⟨hx, hwidth⟩, hy, hheight⟩ := passes_rectOf.1 h
  unfold RgbaFramebuffer.patchRgbaRect
  rw [dif_pos hlength]
  simp only [ensure_le, toNat_saturatingAdd]
  rw [if_pos hx, if_pos hy, if_pos hwidth, if_pos hheight]

/-- Patching fails where the checks are not passed. -/
theorem patchRgbaRect_of_not_passes (h : ¬ Passes framebuffer (rectOf x y width height)) :
    Fails (framebuffer.patchRgbaRect x y width height rectRgba) := by
  unfold RgbaFramebuffer.patchRgbaRect
  split
  · simp only [ensure_le, toNat_saturatingAdd]
    by_cases hx : x.toNat ≤ framebuffer.width.toNat
    swap
    · exact ⟨_, if_neg hx⟩
    by_cases hy : y.toNat ≤ framebuffer.height.toNat
    swap
    · exact ⟨_, by rw [if_pos hx, if_neg hy]⟩
    by_cases hwidth : min (x.toNat + width.toNat) 65535 ≤ framebuffer.width.toNat
    swap
    · exact ⟨_, by rw [if_pos hx, if_pos hy, if_neg hwidth]⟩
    have hheight : ¬ min (y.toNat + height.toNat) 65535 ≤ framebuffer.height.toNat :=
      fun hheight => h ⟨⟨hx, hwidth⟩, hy, hheight⟩
    exact ⟨_, by rw [if_pos hx, if_pos hy, if_pos hwidth, if_neg hheight]⟩
  · exact ⟨_, rfl⟩

/-- Copying, where the checks are passed. -/
theorem copyRect_of_passes (hsrc : Passes framebuffer (rectOf srcX srcY width height))
    (hdst : Passes framebuffer (rectOf dstX dstY width height)) :
    framebuffer.copyRect srcX srcY dstX dstY width height
      = match readRows framebuffer.width.toNat (rectOf srcX srcY width height) framebuffer.rgba with
        | some pixels => framebuffer.patchRgbaRect dstX dstY width height pixels
        | none => .error .panic := by
  obtain ⟨⟨hx, hwidth⟩, hy, hheight⟩ := passes_rectOf.1 hsrc
  obtain ⟨⟨hx', hwidth'⟩, hy', hheight'⟩ := passes_rectOf.1 hdst
  unfold RgbaFramebuffer.copyRect
  simp only [ensure_le, toNat_saturatingAdd]
  have hpass : ∀ {α : Type} {c : Prop} [Decidable c] {a b : α}, c → (if c then a else b) = a :=
    fun h => if_pos h
  exact (hpass hx).trans <| (hpass hy).trans <| (hpass hx').trans <| (hpass hy').trans <|
    (hpass hwidth).trans <| (hpass hheight).trans <| (hpass hwidth').trans (hpass hheight')

/-- Copying fails where the checks are not passed. -/
theorem copyRect_of_not_passes (h : ¬ (Passes framebuffer (rectOf srcX srcY width height)
      ∧ Passes framebuffer (rectOf dstX dstY width height))) :
    Fails (framebuffer.copyRect srcX srcY dstX dstY width height) := by
  unfold RgbaFramebuffer.copyRect Fails
  simp only [ensure_le, toNat_saturatingAdd]
  split_ifs with hx hy hx' hy' hwidth hheight hwidth' hheight'
  · exact absurd ⟨⟨⟨hx, hwidth⟩, hy, hheight⟩, ⟨hx', hwidth'⟩, hy', hheight'⟩ h
  all_goals exact ⟨_, rfl⟩

/-! ### Rectangles that fit -/

/-- Writing a rectangle that fits paints its block. -/
theorem paints_writeRect {r : Raster.Rect} (h : Fits framebuffer r)
    (hlength : rectRgba.length = r.width * r.height * 4) :
    Paints framebuffer (framebuffer.writeRect r rectRgba hlength) (r.patch rectRgba) := by
  have hbounds : InBounds framebuffer.width.toNat r framebuffer.rgba.length :=
    framebuffer.length ▸ inBounds_of_fits h.1 h.2
  obtain ⟨rgba, hwrite⟩ := writeRows_of_inBounds hlength hbounds
  obtain ⟨-, hpatch⟩ := patch_writeRows (.inl h.1) framebuffer.length hlength hwrite
  unfold RgbaFramebuffer.writeRect Paints
  split
  · next rgba' hwrite' =>
    obtain rfl := Option.some.inj (hwrite.symm.trans hwrite')
    exact ⟨_, rfl, rfl, rfl, hpatch⟩
  · next hnone => exact absurd (hwrite.symm.trans hnone) (by simp)

/-- Writing has no errors of its own. -/
theorem not_fails_writeRect {r : Raster.Rect}
    (hlength : rectRgba.length = r.width * r.height * 4) :
    ¬ Fails (framebuffer.writeRect r rectRgba hlength) := by
  rintro ⟨message, hmessage⟩
  unfold RgbaFramebuffer.writeRect at hmessage
  split at hmessage <;> cases hmessage

/-- Patching has no errors where the checks are passed. -/
theorem not_fails_patchRgbaRect (hlength : rectRgba.length = width.toNat * height.toNat * 4)
    (h : Passes framebuffer (rectOf x y width height)) :
    ¬ Fails (framebuffer.patchRgbaRect x y width height rectRgba) := by
  rw [patchRgbaRect_of_passes hlength h]
  exact not_fails_writeRect hlength

theorem not_fails_of_paints {result : Except Failure RgbaFramebuffer} {top : Patch Point UInt8}
    (h : Paints framebuffer result top) : ¬ Fails result := by
  rintro ⟨message, hmessage⟩
  obtain ⟨framebuffer', hok, -⟩ := h
  rw [hok] at hmessage
  cases hmessage

/-- Patching a rectangle that fits. -/
theorem paints_patchRgbaRect (hlength : rectRgba.length = width.toNat * height.toNat * 4)
    (h : Fits framebuffer (rectOf x y width height)) :
    Paints framebuffer (framebuffer.patchRgbaRect x y width height rectRgba)
      ((rectOf x y width height).patch rectRgba) := by
  rw [patchRgbaRect_of_passes hlength h.passes]
  exact paints_writeRect h hlength

/-- Copying between rectangles that fit. -/
theorem paints_copyRect (hsrc : Fits framebuffer (rectOf srcX srcY width height))
    (hdst : Fits framebuffer (rectOf dstX dstY width height)) :
    Paints framebuffer (framebuffer.copyRect srcX srcY dstX dstY width height)
      (moved (rectOf srcX srcY width height) (rectOf dstX dstY width height)
        framebuffer.picture) := by
  have hbounds : InBounds framebuffer.width.toNat (rectOf srcX srcY width height)
      framebuffer.rgba.length := framebuffer.length ▸ inBounds_of_fits hsrc.1 hsrc.2
  obtain ⟨pixels, hread⟩ := readRows_of_inBounds hbounds
  obtain ⟨hlength, hshown⟩ := patch_readRows framebuffer.length hread
  rw [copyRect_of_passes hsrc.passes hdst.passes, hread]
  have hmoved := @patch_moved _ pixels (rectOf srcX srcY width height)
    (rectOf dstX dstY width height) framebuffer.picture rfl rfl (hshown (.inl hsrc.1))
  rw [← hmoved]
  exact paints_patchRgbaRect hlength hdst

/-! ### When patching and copying are exact -/

theorem patchExact_iff : PatchExact framebuffer x y width height rectRgba
    ↔ ¬ PatchSlips framebuffer x y width height rectRgba := by
  constructor
  · rintro ⟨hfails, -⟩ ⟨hlength, hpasses, hout⟩
    exact not_fails_patchRgbaRect hlength hpasses (hfails.2 (.inr hout))
  · intro hslips
    by_cases hlength : rectRgba.length = width.toNat * height.toNat * 4
    · by_cases hfits : Fits framebuffer (rectOf x y width height)
      · have hpaints := paints_patchRgbaRect hlength hfits
        refine ⟨⟨fun herror => absurd herror (not_fails_of_paints hpaints), ?_⟩, .inr hpaints⟩
        rintro (hwrong | hout)
        · exact absurd hlength hwrong
        · exact absurd hfits hout
      · have herror : Fails (framebuffer.patchRgbaRect x y width height rectRgba) :=
          patchRgbaRect_of_not_passes fun hpasses => hslips ⟨hlength, hpasses, hfits⟩
        exact ⟨iff_of_true herror (.inr hfits), .inl herror⟩
    · have herror : Fails (framebuffer.patchRgbaRect x y width height rectRgba) :=
        ⟨_, dif_neg hlength⟩
      exact ⟨iff_of_true herror (.inl hlength), .inl herror⟩

theorem copyExact_iff : CopyExact framebuffer srcX srcY dstX dstY width height
    ↔ ¬ CopySlips framebuffer srcX srcY dstX dstY width height := by
  constructor
  · rintro ⟨hfails, -⟩ ⟨⟨hsrc, hdst⟩, hout⟩
    obtain ⟨message, herror⟩ := hfails.2 hout
    rw [copyRect_of_passes hsrc hdst] at herror
    split at herror
    · next pixels hread =>
      have hlength : pixels.length = width.toNat * height.toNat * 4 :=
        (patch_readRows framebuffer.length hread).1
      exact not_fails_patchRgbaRect hlength hdst ⟨message, herror⟩
    · cases herror
  · intro hslips
    by_cases hfits : Fits framebuffer (rectOf srcX srcY width height)
        ∧ Fits framebuffer (rectOf dstX dstY width height)
    · have hpaints := paints_copyRect hfits.1 hfits.2
      exact ⟨iff_of_false (not_fails_of_paints hpaints) (not_not_intro hfits), .inr hpaints⟩
    · have herror : Fails (framebuffer.copyRect srcX srcY dstX dstY width height) :=
        copyRect_of_not_passes fun hpasses => hslips ⟨hpasses, hfits⟩
      exact ⟨iff_of_true herror hfits, .inl herror⟩

/-- **Updates of the framebuffer** are exact if and only if no rectangle slips through the checks. -/
theorem updates_exact_iff (framebuffer : RgbaFramebuffer) :
    (∀ x y width height rectRgba, PatchExact framebuffer x y width height rectRgba
        ↔ ¬ PatchSlips framebuffer x y width height rectRgba) ∧
      ∀ srcX srcY dstX dstY width height,
        CopyExact framebuffer srcX srcY dstX dstY width height
          ↔ ¬ CopySlips framebuffer srcX srcY dstX dstY width height :=
  ⟨fun _ _ _ _ _ => patchExact_iff, fun _ _ _ _ _ _ => copyExact_iff⟩

/-- A pixel at the right edge of a framebuffer of the largest width slips through. -/
theorem pixel_slips : PatchSlips (.new 65535 2) 65535 0 1 1 [1, 2, 3, 4] := by decide

/-- **An update that is not exact.** The pixel lies outside the framebuffer, but patching does not
fail. -/
theorem pixel_not_exact : ¬ PatchExact (.new 65535 2) 65535 0 1 1 [1, 2, 3, 4] :=
  fun hexact => patchExact_iff.1 hexact pixel_slips

end Vnc
end Navop
