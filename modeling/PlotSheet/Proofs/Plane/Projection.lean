import PlotSheet.Plane.Viewport
import PlotSheet.Proofs.Number.Quotient

/-!
# What a window is drawn with

A window is valid by the ends of its ranges alone. It is drawn with the extents of the ranges, the
pixels for each unit along them, and the projections of its points, and each of these is a rounded
result that may overflow. A valid window is usable if none of them does, which five exact values
tell: the lengths of both ranges, the quotients of the pixels by the extents, and the sum of the
lower end of the vertical range and its extent.

## Main definitions

* `Interval.density`: the pixels for each unit of a range
* `Viewport.Contains`: the points of the logical box
* `Viewport.IsUsable`: all that a window is drawn with is finite, and extents and scales are
  positive
* `Interval.Measures`: which measures of a range are positive, and which are finite
* `Interval.Fits`: neither the length of a range nor its density overflows

## Main results

* `Interval.IsProper.measures`: the measures of a proper range
* `Viewport.isUsable_iff_of_isValid`: the valid windows that are usable
-/

namespace PlotSheet

open Binary

/-! ## Ranges -/

namespace Interval

variable {i : Interval Float} {size : UInt32} {c : Float}

/-- The pixels for each unit of a range that is mapped onto `size` of them. -/
def density (i : Interval Float) (size : UInt32) : Float :=
  Scalar.ofInt size.toNat / i.extent

/-- The number lies in the range. -/
def Contains (i : Interval Float) (c : Float) : Prop :=
  i.start ≤ c ∧ c ≤ i.stop

/-- Which measures of a range of `size` pixels are positive, and which are finite. An infinite
extent leaves no pixels for a unit. -/
structure Measures (i : Interval Float) (size : UInt32) : Prop where
  extent_pos : 0 < i.extent
  isFinite_extent_iff : i.extent.isFinite = true ↔ exact i.stop - exact i.start < threshold
  density_pos_iff : 0 < i.density size ↔ i.extent.isFinite = true
  isFinite_density_iff : (i.density size).isFinite = true ↔
    (i.extent.isFinite = true → size.toNat / exact i.extent < threshold)

/-- Neither the length of a range nor the number of pixels for each unit overflows. -/
def Fits (i : Interval Float) (size : UInt32) : Prop :=
  exact i.stop - exact i.start < threshold ∧ size.toNat / exact i.extent < threshold

theorem IsProper.isFinite_start (h : i.IsProper) : i.start.isFinite = true :=
  h.1

theorem IsProper.isFinite_stop (h : i.IsProper) : i.stop.isFinite = true :=
  h.2.1

theorem IsProper.exact_lt (h : i.IsProper) : exact i.start < exact i.stop :=
  (lt_iff_exact_lt (isNaN_of_isFinite h.isFinite_start) (isNaN_of_isFinite h.isFinite_stop)).1 h.2.2

theorem IsProper.isRounding_extent (h : i.IsProper) :
    IsRounding i.extent (exact i.stop - exact i.start) :=
  isRounding_sub h.isFinite_stop h.isFinite_start

/-- Different numbers have a difference, however near they are. -/
theorem IsProper.exact_extent_pos (h : i.IsProper) : 0 < exact i.extent :=
  h.isRounding_extent.pos_of_le (le_exact_sub_exact h.isFinite_start h.isFinite_stop h.exact_lt)

theorem IsProper.isFinite_extent_iff (h : i.IsProper) :
    i.extent.isFinite = true ↔ exact i.stop - exact i.start < threshold := by
  rw [h.isRounding_extent.isFinite_iff, abs_of_pos (sub_pos.2 h.exact_lt)]

/-- The number of pixels is exact. -/
theorem exact_size (size : UInt32) :
    (Float.ofInt size.toNat).isFinite = true ∧ exact (Float.ofInt size.toNat) = size.toNat := by
  have hlt : (size.toNat : Int).natAbs < 2 * fractionSize :=
    Nat.lt_of_lt_of_le size.toNat_lt (by decide)
  exact exact_ofInt hlt

theorem IsProper.isRounding_density (h : i.IsProper) (hextent : i.extent.isFinite = true) :
    IsRounding (i.density size) (size.toNat / exact i.extent) := by
  have hquotient := isRounding_div (exact_size size).1 hextent h.exact_extent_pos.ne'
  rw [(exact_size size).2] at hquotient
  exact hquotient

/-- **The measures of a proper range.** -/
theorem IsProper.measures (h : i.IsProper) (hsize : 0 < size) : i.Measures size := by
  have hpos := h.exact_extent_pos
  have hnan := h.isRounding_extent.isNaN_eq_false
  have hpixels : (1 : Rat) ≤ size.toNat := by
    have : 1 ≤ size.toNat := UInt32.lt_iff_toNat_lt.1 hsize
    exact_mod_cast this
  have hextent := (zero_lt_iff_exact_pos hnan).2 hpos
  by_cases hfinite : i.extent.isFinite = true
  · have hdensity : IsRounding (i.density size) (size.toNat / exact i.extent) :=
      h.isRounding_density hfinite
    have hquotient : 0 < size.toNat / exact i.extent := div_pos (by linarith) hpos
    refine ⟨hextent, h.isFinite_extent_iff, iff_of_true ?_ hfinite, ?_⟩
    · rw [zero_lt_iff_exact_pos hdensity.isNaN_eq_false]
      apply hdensity.pos_of_le
      rw [le_div_iff₀ hpos]
      calc 2 ^ leastExponent * exact i.extent ≤ 2 ^ leastExponent * overflow :=
            mul_le_mul_of_nonneg_left (exact_bounds hfinite).2.le (by positivity)
        _ = 2 ^ (leastExponent + 1024) := (zpow_add₀ two_ne_zero _ _).symm
        _ ≤ 1 := zpow_le_one_of_nonpos₀ one_le_two (by decide)
        _ ≤ size.toNat := hpixels
    · rw [hdensity.isFinite_iff, abs_of_pos hquotient]
      exact ⟨fun hlt _ => hlt, fun hlt => hlt hfinite⟩
  · obtain ⟨hzero, hvalue⟩ := exact_div_of_infinite (exact_size size).1
      (Bool.eq_false_iff.2 hfinite) hnan
    refine ⟨hextent, h.isFinite_extent_iff, iff_of_false ?_ hfinite, iff_of_true hzero ?_⟩
    · intro hlt
      have hpositive := (zero_lt_iff_exact_pos (isNaN_of_isFinite hzero)).1 hlt
      exact hpositive.ne' hvalue
    · exact fun hextent => absurd hextent hfinite

/-- A range may be so narrow that its density overflows. -/
example : (⟨0, 5e-324⟩ : Interval Float).IsProper ∧
    ((⟨0, 5e-324⟩ : Interval Float).density 600).isFinite = false := by
  decide +kernel

/-! ### Scaled distances -/

/-- A finite density is at most twice the exact one. -/
theorem IsProper.abs_density_mul_le (h : i.IsProper) (hextent : i.extent.isFinite = true)
    (hdensity : (i.density size).isFinite = true) :
    |exact (i.density size)| * exact i.extent ≤ 2 * size.toNat := by
  have hpos := h.exact_extent_pos
  have hle := (h.isRounding_density hextent).abs_le hdensity
  rw [abs_of_nonneg (div_nonneg (Nat.cast_nonneg _) hpos.le), mul_div_assoc',
    le_div_iff₀ hpos] at hle
  exact hle

/-- The offset of a rectangle is exact. -/
theorem exact_offset (offset : Int32) :
    (Float.ofInt offset.toInt).isFinite = true ∧ |exact (Float.ofInt offset.toInt)| ≤ 2 ^ 31 := by
  have hbounds : -2 ^ 31 ≤ offset.toInt ∧ offset.toInt < 2 ^ 31 :=
    ⟨offset.le_toInt, offset.toInt_lt⟩
  have hwidth : offset.toInt.natAbs < 2 * fractionSize := by
    have hsize : (2 : Nat) ^ 31 < 2 * fractionSize := by decide
    omega
  obtain ⟨hfinite, hvalue⟩ := exact_ofInt hwidth
  have hcast : (-2 ^ 31 : Rat) ≤ offset.toInt ∧ (offset.toInt : Rat) ≤ 2 ^ 31 :=
    ⟨by exact_mod_cast hbounds.1, by exact_mod_cast hbounds.2.le⟩
  rw [hvalue]
  exact ⟨hfinite, abs_le.2 hcast⟩

/-- A distance of the size of the range is scaled to one of the size of the pixels, which stays
finite under the offset of the rectangle. -/
theorem IsProper.isFinite_offset_add (h : i.IsProper) (offset : Int32) {d : Float}
    (hextent : i.extent.isFinite = true) (hdensity : (i.density size).isFinite = true)
    (hd : d.isFinite = true) (hle : |exact d| ≤ 4 * exact i.extent) :
    (Float.ofInt offset.toInt + d * i.density size).isFinite = true := by
  have hpixels : (size.toNat : Rat) ≤ 2 ^ 32 := by exact_mod_cast size.toNat_lt.le
  -- the exact product is at most a few times the number of pixels
  have hscaled : |exact d * exact (i.density size)| ≤ 2 ^ 35 := by
    rw [abs_mul]
    calc |exact d| * |exact (i.density size)|
        ≤ 4 * exact i.extent * |exact (i.density size)| :=
          mul_le_mul_of_nonneg_right hle (abs_nonneg _)
      _ = 4 * (|exact (i.density size)| * exact i.extent) := by ring
      _ ≤ 4 * (2 * 2 ^ 32) := by linarith [h.abs_density_mul_le hextent hdensity]
      _ = 2 ^ 35 := by norm_num
  have hproduct := isRounding_mul hd hdensity
  have hfinite : (d * i.density size).isFinite = true :=
    hproduct.isFinite_iff.2 (lt_threshold (hscaled.trans (by norm_num)))
  have hdouble := hproduct.abs_le hfinite
  obtain ⟨hoffset, hshift⟩ := exact_offset offset
  apply (isRounding_add hoffset hfinite).isFinite_iff.2
  apply lt_threshold
  calc |exact (Float.ofInt offset.toInt) + exact (d * i.density size)|
      ≤ |exact (Float.ofInt offset.toInt)| + |exact (d * i.density size)| := abs_add_le _ _
    _ ≤ 2 ^ 31 + 2 * 2 ^ 35 := add_le_add hshift (by linarith)
    _ ≤ 2 ^ 52 := by norm_num

theorem IsProper.exact_of_contains (h : i.IsProper) (hc : i.Contains c) :
    c.isFinite = true ∧ exact i.start ≤ exact c ∧ exact c ≤ exact i.stop := by
  have hfinite := isFinite_of_le_of_le h.isFinite_start h.isFinite_stop hc.1 hc.2
  exact ⟨hfinite, exact_le_of_le h.isFinite_start hfinite hc.1,
    exact_le_of_le hfinite h.isFinite_stop hc.2⟩

/-- The exact length of a range is at most twice its extent. -/
theorem IsProper.length_le (h : i.IsProper) (hextent : i.extent.isFinite = true) :
    exact i.stop - exact i.start ≤ 2 * exact i.extent := by
  have hpos := h.exact_extent_pos
  have hle := h.isRounding_extent.le_two_mul_abs hextent hpos.ne'
  rw [abs_of_pos hpos, abs_of_pos (sub_pos.2 h.exact_lt)] at hle
  exact hle

/-- The distance of a number in the range from its lower end. -/
theorem IsProper.sub_start (h : i.IsProper) (hextent : i.extent.isFinite = true)
    (hc : i.Contains c) :
    (c - i.start).isFinite = true ∧ |exact (c - i.start)| ≤ 4 * exact i.extent := by
  obtain ⟨hfinite, hlo, hhi⟩ := h.exact_of_contains hc
  have hdistance := isRounding_sub hfinite h.isFinite_start
  have hlength := h.length_le hextent
  have habs : |exact c - exact i.start| = exact c - exact i.start := abs_of_nonneg (by linarith)
  have hd : (c - i.start).isFinite = true := by
    rw [hdistance.isFinite_iff, habs]
    linarith [h.isFinite_extent_iff.1 hextent]
  have hdouble := hdistance.abs_le hd
  rw [habs] at hdouble
  exact ⟨hd, by linarith⟩

/-- The sum of the lower end and the extent is as near to the exact one as the upper end is. So its
distance from a number in the range is at most the exact length, or that length mirrored in the
extent. -/
theorem IsProper.abs_add_extent_sub_le (h : i.IsProper) (hextent : i.extent.isFinite = true)
    (htop : (i.start + i.extent).isFinite = true) (hc : i.Contains c) :
    |exact (i.start + i.extent) - exact c| ≤ exact i.stop - exact i.start ∨
      |exact (i.start + i.extent) - exact c| ≤
        2 * exact i.extent - (exact i.stop - exact i.start) := by
  obtain ⟨-, hlo, hhi⟩ := h.exact_of_contains hc
  have hpos := h.exact_extent_pos
  have hlt := h.exact_lt
  have hsum := isRounding_add h.isFinite_start hextent
  have hle : exact i.start ≤ exact (i.start + i.extent) := by
    apply exact_le_of_le h.isFinite_start htop
    exact (isRounding_exact h.isFinite_start).le hsum (by linarith)
  have hnear := (le_abs_self _).trans ((hsum.rounds htop).abs_sub_le h.isFinite_stop)
  rcases le_total (exact i.extent) (exact i.stop - exact i.start) with hcase | hcase
  · rw [abs_of_nonneg (by linarith)] at hnear
    exact .inl (abs_le.2 ⟨by linarith, by linarith⟩)
  · rw [abs_of_nonpos (by linarith)] at hnear
    exact .inr (abs_le.2 ⟨by linarith, by linarith⟩)

/-- The distance of a number in the range from the upper end, as the sum of the lower end and the
extent gives it. -/
theorem IsProper.add_extent_sub (h : i.IsProper) (hextent : i.extent.isFinite = true)
    (htop : (i.start + i.extent).isFinite = true) (hc : i.Contains c) :
    (i.start + i.extent - c).isFinite = true ∧
      |exact (i.start + i.extent - c)| ≤ 4 * exact i.extent := by
  have hpos := h.exact_extent_pos
  have hlt := h.exact_lt
  have hlength := h.length_le hextent
  have hdistance := isRounding_sub htop (h.exact_of_contains hc).1
  have hmirrored : 2 * exact i.extent - (exact i.stop - exact i.start) < threshold := by
    have := h.isRounding_extent.two_mul_abs_sub_lt hextent
    rwa [abs_of_pos hpos, abs_of_pos (sub_pos.2 hlt)] at this
  have hbound : |exact (i.start + i.extent) - exact c| < threshold ∧
      |exact (i.start + i.extent) - exact c| ≤ 2 * exact i.extent := by
    rcases h.abs_add_extent_sub_le hextent htop hc with hbound | hbound
    · exact ⟨hbound.trans_lt (h.isFinite_extent_iff.1 hextent), hbound.trans hlength⟩
    · exact ⟨hbound.trans_lt hmirrored, hbound.trans (by linarith)⟩
  have hd := hdistance.isFinite_iff.2 hbound.1
  have hdouble := hdistance.abs_le hd
  exact ⟨hd, by linarith⟩

end Interval

/-! ## Windows -/

/-- Both coordinates are finite. -/
def Point.IsFinite (p : Point Float) : Prop :=
  p.x.isFinite = true ∧ p.y.isFinite = true

namespace Viewport

variable {v : Viewport Float}

/-- The point lies in the logical box of the window. -/
def Contains (v : Viewport Float) (p : Point Float) : Prop :=
  v.x.Contains p.x ∧ v.y.Contains p.y

/-- All that a window is drawn with is finite, and its extents and scales are positive. -/
structure IsUsable (v : Viewport Float) : Prop where
  extent_x : v.x.extent.isFinite = true ∧ 0 < v.x.extent
  extent_y : v.y.extent.isFinite = true ∧ 0 < v.y.extent
  scale_x : v.scale.x.isFinite = true ∧ 0 < v.scale.x
  scale_y : v.scale.y.isFinite = true ∧ 0 < v.scale.y
  project : ∀ p, v.Contains p → (v.project p).IsFinite

theorem IsValid.contains_corner (h : v.IsValid) : v.Contains ⟨v.x.stop, v.y.stop⟩ := by
  have hcorner {i : Interval Float} (hi : i.IsProper) : i.Contains i.stop := by
    have hstart := isNaN_of_isFinite hi.isFinite_start
    have hstop := isNaN_of_isFinite hi.isFinite_stop
    exact ⟨(le_iff_exact_le hstart hstop).2 hi.exact_lt.le, (le_iff_exact_le hstop hstop).2 le_rfl⟩
  exact ⟨hcorner h.1, hcorner h.2.1⟩

/-- A point with finite projections shows that nothing overflowed on the way to it. -/
theorem isFinite_of_project {p : Point Float} (h : (v.project p).IsFinite) :
    ((p.x - v.x.start).isFinite = true ∧ (v.x.density v.frame.width).isFinite = true) ∧
      (v.y.start + v.y.extent).isFinite = true ∧ (v.y.density v.frame.height).isFinite = true := by
  have hx := isFinite_of_isFinite_mul (isFinite_of_isFinite_add h.1).2
  have hy := isFinite_of_isFinite_mul (isFinite_of_isFinite_add h.2).2
  exact ⟨hx, (isFinite_of_isFinite_sub hy.1).1, hy.2⟩

theorem IsValid.isFinite_project (h : v.IsValid) (hx : v.x.extent.isFinite = true)
    (hy : v.y.extent.isFinite = true) (hscale_x : (v.x.density v.frame.width).isFinite = true)
    (hscale_y : (v.y.density v.frame.height).isFinite = true)
    (htop : (v.y.start + v.y.extent).isFinite = true) {p : Point Float} (hp : v.Contains p) :
    (v.project p).IsFinite := by
  obtain ⟨hd, hle⟩ := h.1.sub_start hx hp.1
  obtain ⟨hd', hle'⟩ := h.2.1.add_extent_sub hy htop hp.2
  exact ⟨h.1.isFinite_offset_add v.frame.x hx hscale_x hd hle,
    h.2.1.isFinite_offset_add v.frame.y hy hscale_y hd' hle'⟩

theorem IsValid.isFinite_top_iff (h : v.IsValid) (hy : v.y.extent.isFinite = true) :
    (v.y.start + v.y.extent).isFinite = true ↔ exact v.y.start + exact v.y.extent < threshold := by
  have hstart := h.2.1.isFinite_start
  have hbound := (isRounding_exact hstart).isFinite_iff.1 hstart
  have hpos := h.2.1.exact_extent_pos
  rw [(isRounding_add hstart hy).isFinite_iff, abs_lt]
  constructor
  · exact fun hlt => hlt.2
  · intro hlt
    exact ⟨by linarith [(abs_lt.1 hbound).1], hlt⟩

/-- **The valid windows that are usable.** The extents of a valid window are positive. They are
finite as long as the lengths of its ranges do not overflow; only then its scales are positive, and
they are finite as long as the quotients do not overflow. The window is usable if none of these
does, nor the sum of the lower end of the vertical range and its extent, and that is, if the points
of its logical box have finite projections. -/
theorem isUsable_iff_of_isValid (h : v.IsValid) :
    v.x.Measures v.frame.width ∧ v.y.Measures v.frame.height ∧
      (v.IsUsable ↔ v.x.Fits v.frame.width ∧ v.y.Fits v.frame.height ∧
        exact v.y.start + exact v.y.extent < threshold) ∧
      (v.IsUsable ↔ ∀ p, v.Contains p → (v.project p).IsFinite) := by
  have hx := h.1.measures h.2.2.1
  have hy := h.2.1.measures h.2.2.2
  have hfits : v.x.Fits v.frame.width ∧ v.y.Fits v.frame.height ∧
      exact v.y.start + exact v.y.extent < threshold → v.IsUsable := by
    rintro ⟨⟨hlength_x, hquotient_x⟩, ⟨hlength_y, hquotient_y⟩, htop⟩
    have hextent_x := hx.isFinite_extent_iff.2 hlength_x
    have hextent_y := hy.isFinite_extent_iff.2 hlength_y
    have hdensity_x := hx.isFinite_density_iff.2 fun _ => hquotient_x
    have hdensity_y := hy.isFinite_density_iff.2 fun _ => hquotient_y
    exact ⟨⟨hextent_x, hx.extent_pos⟩, ⟨hextent_y, hy.extent_pos⟩,
      ⟨hdensity_x, hx.density_pos_iff.2 hextent_x⟩, ⟨hdensity_y, hy.density_pos_iff.2 hextent_y⟩,
      fun p => h.isFinite_project hextent_x hextent_y hdensity_x hdensity_y
        ((h.isFinite_top_iff hextent_y).2 htop)⟩
  have hpoints (hpoint : ∀ p, v.Contains p → (v.project p).IsFinite) :
      v.x.Fits v.frame.width ∧ v.y.Fits v.frame.height ∧
        exact v.y.start + exact v.y.extent < threshold := by
    obtain ⟨⟨hextent_x, hdensity_x⟩, htop, hdensity_y⟩ :=
      isFinite_of_project (hpoint _ h.contains_corner)
    have hextent_y := (isFinite_of_isFinite_add htop).2
    exact ⟨⟨hx.isFinite_extent_iff.1 hextent_x, hx.isFinite_density_iff.1 hdensity_x hextent_x⟩,
      ⟨hy.isFinite_extent_iff.1 hextent_y, hy.isFinite_density_iff.1 hdensity_y hextent_y⟩,
      (h.isFinite_top_iff hextent_y).1 htop⟩
  exact ⟨hx, hy, ⟨fun husable => hpoints husable.project, hfits⟩,
    fun husable => husable.project, fun hpoint => hfits (hpoints hpoint)⟩

/-- The window that a session starts with is usable. -/
theorem isUsable_iff_of_isValid_initial :
    (initial : Viewport Float).IsValid ∧ (initial : Viewport Float).IsUsable := by
  have hvalid : (initial : Viewport Float).IsValid := by decide
  obtain ⟨hx, hy, husable, -⟩ := isUsable_iff_of_isValid hvalid
  have hextent_x := hx.isFinite_extent_iff.1 (by decide)
  have hextent_y := hy.isFinite_extent_iff.1 (by decide)
  have hdensity_x := hx.isFinite_density_iff.1 (by decide) (by decide)
  have hdensity_y := hy.isFinite_density_iff.1 (by decide) (by decide)
  have htop := (hvalid.isFinite_top_iff (by decide)).1 (by decide)
  exact ⟨hvalid, husable.2 ⟨⟨hextent_x, hdensity_x⟩, ⟨hextent_y, hdensity_y⟩, htop⟩⟩

/-- A window with ends so far apart that their distance overflows. -/
def tooWide : Viewport Float :=
  { initial with x := ⟨-1e308, 1e308⟩ }

/-- Not every valid window is usable: the extent of a range with finite ends may be infinite. -/
theorem not_forall_isUsable : ¬ ∀ v : Viewport Float, v.IsValid → v.IsUsable := by
  intro h
  have husable := h tooWide (by decide +kernel)
  have hinfinite : tooWide.x.extent.isFinite = false := by decide +kernel
  rw [husable.extent_x.1] at hinfinite
  cases hinfinite

end Viewport

end PlotSheet
