import Mathlib.Tactic.Ring
import PlotSheet.Proofs.Number.Nearest
import PlotSheet.Session.Turn

/-!
# The projection in exact arithmetic

Without rounding a valid window maps the plane onto itself, stretched along either axis and turned
upside down, so that its logical box is what falls into the rectangle of pixels. Rounding to whole
pixels does not leave the rectangle, whose corners are whole pixels themselves; so all that is drawn
of the box falls on the canvas of a plot.

## Main definitions

* `Viewport.Shows`, `Frame.Holds`: the logical box of a window, and its rectangle of pixels
* `Frame.HoldsPixel`: the pixels of the rectangle
* `Viewport.unproject`: the inverse of the projection

## Main results

* `toInt_pixelCoordinate_mem`: rounding does not cross a whole pixel
* `Viewport.IsValid.shows_iff_holds_project`: the box falls onto the rectangle
* `Viewport.project_onto_frame`: the projection of a valid window, and the pixels of its box
-/

namespace PlotSheet

/-! ## Pixels -/

/-- The pixel coordinate of a rational number is its nearest integer, kept within 32 bits. -/
theorem toInt_pixelCoordinate_rat (x : Rat) : (pixelCoordinate x).toInt =
    max Int32.minValue.toInt (min Int32.maxValue.toInt (nearestInt x)) := by
  have hleast : Int32.minValue.toInt = -2 ^ 31 := rfl
  have hgreatest : Int32.maxValue.toInt = 2 ^ 31 - 1 := rfl
  change (Int32.ofInt (max Int32.minValue.toInt (min Int32.maxValue.toInt (nearestInt x)))).toInt = _
  rw [hleast, hgreatest]
  exact Int32.toInt_ofInt_of_le (le_max_left _ _) (by omega)

/-- Rounding to pixels does not cross a whole pixel. -/
theorem toInt_pixelCoordinate_mem {lo hi : Int} {x : Rat} (hlo : (lo : Rat) ≤ x) (hhi : x ≤ hi)
    (hleast : Int32.minValue.toInt ≤ lo) (hgreatest : lo ≤ Int32.maxValue.toInt) :
    lo ≤ (pixelCoordinate x).toInt ∧
      (pixelCoordinate x).toInt ≤ min hi Int32.maxValue.toInt := by
  have hnear := nearestInt_mem hlo hhi
  rw [toInt_pixelCoordinate_rat]
  omega

/-! ## Boxes and rectangles -/

namespace Frame

/-- The point lies in the rectangle of pixels. -/
structure Holds (f : Frame) (q : Point Rat) : Prop where
  left : f.x.toInt ≤ q.x
  right : q.x ≤ f.x.toInt + f.width.toNat
  top : f.y.toInt ≤ q.y
  bottom : q.y ≤ f.y.toInt + f.height.toNat

/-- The pixel lies in the rectangle, of which 32 bits may not reach the far ends. -/
structure HoldsPixel (f : Frame) (k : Pixel) : Prop where
  left : f.x.toInt ≤ k.x.toInt
  right : k.x.toInt ≤ min (f.x.toInt + f.width.toNat) Int32.maxValue.toInt
  top : f.y.toInt ≤ k.y.toInt
  bottom : k.y.toInt ≤ min (f.y.toInt + f.height.toNat) Int32.maxValue.toInt

/-- A point of the rectangle is rounded to a pixel of it. -/
theorem Holds.holdsPixel {f : Frame} {q : Point Rat} (h : f.Holds q) : f.HoldsPixel (pixel q) := by
  have hright : q.x ≤ ((f.x.toInt + f.width.toNat : Int) : Rat) := by
    exact_mod_cast h.right
  have hbottom : q.y ≤ ((f.y.toInt + f.height.toNat : Int) : Rat) := by
    exact_mod_cast h.bottom
  have hx := toInt_pixelCoordinate_mem h.left hright f.x.minValue_le_toInt f.x.toInt_le
  have hy := toInt_pixelCoordinate_mem h.top hbottom f.y.minValue_le_toInt f.y.toInt_le
  exact ⟨hx.1, hx.2, hy.1, hy.2⟩

end Frame

/-- A canvas is as large as the rectangle and its offset, as far as 32 bits reach. -/
theorem le_canvasSize {offset k : Int32} {size : UInt32}
    (h : k.toInt ≤ min (offset.toInt + size.toNat) Int32.maxValue.toInt) :
    k.toInt ≤ (Session.canvasSize offset size).toNat := by
  have hcanvas : (Session.canvasSize offset size).toNat =
      min (size.toNat + offset.toInt.toNat) (UInt32.size - 1) :=
    UInt32.toNat_ofNat_of_lt (by have : UInt32.size = 2 ^ 32 := rfl; omega)
  have hsize : UInt32.size = 2 ^ 32 := rfl
  have hgreatest : Int32.maxValue.toInt = 2 ^ 31 - 1 := rfl
  rw [hcanvas, hsize]
  rw [hgreatest] at h
  omega

namespace Viewport

/-- The point lies in the logical box of the window. -/
structure Shows (v : Viewport Rat) (p : Point Rat) : Prop where
  left : v.x.start ≤ p.x
  right : p.x ≤ v.x.stop
  bottom : v.y.start ≤ p.y
  top : p.y ≤ v.y.stop

/-- The logical point with the given pixel coordinates. -/
def unproject (v : Viewport Rat) (q : Point Rat) : Point Rat where
  x := v.x.start + (q.x - v.frame.x.toInt) / v.scale.x
  y := v.y.stop - (q.y - v.frame.y.toInt) / v.scale.y

theorem project_x (v : Viewport Rat) (p : Point Rat) :
    (v.project p).x = v.frame.x.toInt + (p.x - v.x.start) * v.scale.x := rfl

theorem project_y (v : Viewport Rat) (p : Point Rat) :
    (v.project p).y = v.frame.y.toInt + (v.y.stop - p.y) * v.scale.y := by
  have hstop : v.y.start + v.y.extent = v.y.stop := add_sub_cancel _ _
  rw [project, hstop]
  rfl

section Valid

variable {v : Viewport Rat} (h : v.IsValid)

include h

theorem IsValid.scale_pos : 0 < v.scale.x ∧ 0 < v.scale.y := by
  obtain ⟨hx, hy, hwidth, hheight⟩ := h
  have hwidth' : (0 : Rat) < ((v.frame.width.toNat : Int) : Rat) := by
    exact_mod_cast UInt32.lt_iff_toNat_lt.1 hwidth
  have hheight' : (0 : Rat) < ((v.frame.height.toNat : Int) : Rat) := by
    exact_mod_cast UInt32.lt_iff_toNat_lt.1 hheight
  exact ⟨div_pos hwidth' (sub_pos.2 hx.2.2), div_pos hheight' (sub_pos.2 hy.2.2)⟩

/-- The extents of the box are scaled to the size of the rectangle. -/
theorem IsValid.extent_mul_scale : (v.x.stop - v.x.start) * v.scale.x = v.frame.width.toNat ∧
    (v.y.stop - v.y.start) * v.scale.y = v.frame.height.toNat :=
  ⟨mul_div_cancel₀ _ (sub_pos.2 h.1.2.2).ne', mul_div_cancel₀ _ (sub_pos.2 h.2.1.2.2).ne'⟩

theorem IsValid.project_x_lt_iff (p q : Point Rat) :
    (v.project p).x < (v.project q).x ↔ p.x < q.x := by
  rw [project_x, project_x, add_lt_add_iff_left, mul_lt_mul_iff_left₀ h.scale_pos.1,
    sub_lt_sub_iff_right]

theorem IsValid.project_y_lt_iff (p q : Point Rat) :
    (v.project p).y < (v.project q).y ↔ q.y < p.y := by
  rw [project_y, project_y, add_lt_add_iff_left, mul_lt_mul_iff_left₀ h.scale_pos.2,
    sub_lt_sub_iff_left]

theorem IsValid.bijective_project : Function.Bijective v.project := by
  obtain ⟨hx, hy⟩ := h.scale_pos
  rw [Function.bijective_iff_has_inverse]
  refine ⟨v.unproject, fun p => ?_, fun q => ?_⟩
  · have hpx : v.x.start + ((v.project p).x - v.frame.x.toInt) / v.scale.x = p.x := by
      rw [project_x, add_sub_cancel_left, mul_div_cancel_right₀ _ hx.ne', add_sub_cancel]
    have hpy : v.y.stop - ((v.project p).y - v.frame.y.toInt) / v.scale.y = p.y := by
      rw [project_y, add_sub_cancel_left, mul_div_cancel_right₀ _ hy.ne', sub_sub_cancel]
    exact congrArg₂ Point.mk hpx hpy
  · have hqx : (v.project (v.unproject q)).x = q.x := by
      rw [project_x, unproject, add_sub_cancel_left, div_mul_cancel₀ _ hx.ne', add_sub_cancel]
    have hqy : (v.project (v.unproject q)).y = q.y := by
      rw [project_y, unproject, sub_sub_cancel, div_mul_cancel₀ _ hy.ne', add_sub_cancel]
    exact congrArg₂ Point.mk hqx hqy

/-- The logical box is what falls into the rectangle of pixels. -/
theorem IsValid.shows_iff_holds_project (p : Point Rat) :
    v.Shows p ↔ v.frame.Holds (v.project p) := by
  obtain ⟨hx, hy⟩ := h.scale_pos
  obtain ⟨hwidth, hheight⟩ := h.extent_mul_scale
  have hleft : (v.frame.x.toInt : Rat) ≤ (v.project p).x ↔ v.x.start ≤ p.x := by
    rw [project_x, le_add_iff_nonneg_right, mul_nonneg_iff_of_pos_right hx, sub_nonneg]
  have hright : (v.project p).x ≤ v.frame.x.toInt + v.frame.width.toNat ↔ p.x ≤ v.x.stop := by
    rw [project_x, add_le_add_iff_left, ← hwidth, mul_le_mul_iff_left₀ hx, sub_le_sub_iff_right]
  have htop : (v.frame.y.toInt : Rat) ≤ (v.project p).y ↔ p.y ≤ v.y.stop := by
    rw [project_y, le_add_iff_nonneg_right, mul_nonneg_iff_of_pos_right hy, sub_nonneg]
  have hbottom : (v.project p).y ≤ v.frame.y.toInt + v.frame.height.toNat ↔ v.y.start ≤ p.y := by
    rw [project_y, add_le_add_iff_left, ← hheight, mul_le_mul_iff_left₀ hy, sub_le_sub_iff_left]
  constructor
  · intro hp
    exact ⟨hleft.2 hp.left, hright.2 hp.right, htop.2 hp.top, hbottom.2 hp.bottom⟩
  · intro hq
    exact ⟨hleft.1 hq.left, hright.1 hq.right, hbottom.1 hq.bottom, htop.1 hq.top⟩

end Valid

/-- **The projection of a valid window.** In exact arithmetic it is an affine bijection of the plane
that grows to the right and falls upward, and the logical box is what it takes into the rectangle of
pixels. The points of the box are rounded to pixels of the rectangle. If its offset is not negative,
these are coordinates on the canvas of a plot. -/
theorem project_onto_frame {v : Viewport Rat} (h : v.IsValid) :
    (∃ a b c d : Rat, 0 < a ∧ 0 < b ∧ ∀ p, v.project p = ⟨c + a * p.x, d - b * p.y⟩) ∧
    Function.Bijective v.project ∧
    (∀ p q, ((v.project p).x < (v.project q).x ↔ p.x < q.x) ∧
      ((v.project p).y < (v.project q).y ↔ q.y < p.y)) ∧
    (∀ p, v.Shows p ↔ v.frame.Holds (v.project p)) ∧
    (∀ p, v.Shows p → v.frame.HoldsPixel (pixel (v.project p)) ∧
      (0 ≤ v.frame.x.toInt → 0 ≤ (pixel (v.project p)).x.toInt ∧
        (pixel (v.project p)).x.toInt ≤ (Session.canvasSize v.frame.x v.frame.width).toNat) ∧
      (0 ≤ v.frame.y.toInt → 0 ≤ (pixel (v.project p)).y.toInt ∧
        (pixel (v.project p)).y.toInt ≤ (Session.canvasSize v.frame.y v.frame.height).toNat)) := by
  refine ⟨?_, h.bijective_project, fun p q => ⟨h.project_x_lt_iff p q, h.project_y_lt_iff p q⟩,
    h.shows_iff_holds_project, fun p hp => ?_⟩
  · refine ⟨v.scale.x, v.scale.y, v.frame.x.toInt - v.x.start * v.scale.x,
      v.frame.y.toInt + v.y.stop * v.scale.y, h.scale_pos.1, h.scale_pos.2, fun p => ?_⟩
    have hx : (v.project p).x =
        v.frame.x.toInt - v.x.start * v.scale.x + v.scale.x * p.x := by
      rw [project_x]
      ring
    have hy : (v.project p).y =
        v.frame.y.toInt + v.y.stop * v.scale.y - v.scale.y * p.y := by
      rw [project_y]
      ring
    rw [← hx, ← hy]
  · have hpixel := ((h.shows_iff_holds_project p).1 hp).holdsPixel
    exact ⟨hpixel, fun hx => ⟨hx.trans hpixel.left, le_canvasSize hpixel.right⟩,
      fun hy => ⟨hy.trans hpixel.top, le_canvasSize hpixel.bottom⟩⟩

/-- A window whose rectangle reaches past all coordinates of 32 bits. -/
def pastTheEnd : Viewport Rat :=
  ⟨⟨-3, 5⟩, ⟨2, 6⟩, ⟨2147483000, 20, 4294967295, 300⟩⟩

/-- The far corner of the box is drawn in the last column that there is. -/
theorem project_onto_frame_pastTheEnd :
    pastTheEnd.IsValid ∧ pastTheEnd.Shows ⟨5, 6⟩ ∧
      pastTheEnd.frame.HoldsPixel (pixel (pastTheEnd.project ⟨5, 6⟩)) ∧
      pixel (pastTheEnd.project ⟨5, 6⟩) = ⟨2147483647, 20⟩ ∧
      (pixel (pastTheEnd.project ⟨5, 6⟩)).x.toInt ≤
        (Session.canvasSize 2147483000 4294967295).toNat := by
  have hvalid : pastTheEnd.IsValid := by decide +kernel
  have hshows : pastTheEnd.Shows ⟨5, 6⟩ := by constructor <;> decide +kernel
  obtain ⟨hpixel, hcanvas, -⟩ := (project_onto_frame hvalid).2.2.2.2 ⟨5, 6⟩ hshows
  exact ⟨hvalid, hshows, hpixel, by decide +kernel, (hcanvas (by decide)).2⟩

end Viewport

end PlotSheet
