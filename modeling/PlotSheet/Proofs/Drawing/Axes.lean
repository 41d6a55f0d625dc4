import PlotSheet.Drawing.Scene
import PlotSheet.Proofs.Drawing.Trace
import PlotSheet.Proofs.Plane.Affine

/-!
# Axes among curves

The axes of a window are where its projection takes the points with a zero coordinate, whichever way
its ranges run and wherever its rectangle lies. So in exact arithmetic a curve that comes to an axis
is drawn in the very pixel row or column of the axis.

## Main definitions

* `FollowsAxes`: a line that meets the axes where its ends lie on them

## Main results

* `horizontalAxis_eq_project`, `verticalAxis_eq_project`: the axes as projected points
* `axes_follow_project`: which axes are visible, where they are drawn, and how curves meet them
-/

namespace PlotSheet

namespace Viewport

/-- The row of the horizontal axis is that of every point on it. -/
theorem horizontalAxis_eq_project (v : Viewport Rat) (x : Rat) :
    v.horizontalAxis = (v.project ⟨x, 0⟩).y := by
  have hzero : v.y.start + v.y.extent - 0 = v.y.start + v.y.extent := sub_zero _
  rw [project, hzero]
  rfl

/-- The column of the vertical axis is that of every point on it. -/
theorem verticalAxis_eq_project (v : Viewport Rat) (y : Rat) :
    v.verticalAxis = (v.project ⟨0, y⟩).x := by
  have hcolumn : v.verticalAxis = v.frame.x.toInt - v.x.start * v.scale.x := rfl
  rw [hcolumn, project_x]
  ring

theorem inside?_eq_some_iff {position c : Rat} {length : UInt32} :
    inside? position length = some c ↔ c = position ∧ 0 < c ∧ c < length.toNat := by
  have hinside : (Scalar.ofInt 0 < position ∧ position < Scalar.ofInt length.toNat) ↔
      0 < position ∧ position < length.toNat := Iff.rfl
  rw [inside?]
  split
  · next h =>
    rw [Option.some.injEq]
    constructor
    · rintro rfl
      exact ⟨rfl, hinside.1 h⟩
    · exact fun hc => hc.1.symm
  · next h =>
    refine iff_of_false nofun ?_
    rintro ⟨rfl, hc⟩
    exact h (hinside.2 hc)

/-- A coordinate inside a length is rounded to a pixel that is not past its ends. -/
theorem toInt_pixelCoordinate_of_inside? {position c : Rat} {length : UInt32}
    (h : inside? position length = some c) :
    0 ≤ (pixelCoordinate c).toInt ∧ (pixelCoordinate c).toInt ≤ length.toNat := by
  obtain ⟨-, hpos, hlt⟩ := inside?_eq_some_iff.1 h
  have hlo : ((0 : Int) : Rat) ≤ c := by exact_mod_cast hpos.le
  have hhi : c ≤ ((length.toNat : Int) : Rat) := by exact_mod_cast hlt.le
  have hmem := toInt_pixelCoordinate_mem hlo hhi (by decide) (by decide)
  exact ⟨hmem.1, le_trans hmem.2 (min_le_left _ _)⟩

end Viewport

namespace Drawing

/-- The line between two points meets the axes where its ends lie on them. -/
structure FollowsAxes (v : Viewport Rat) (p q : SamplePoint Rat) (start stop : Pixel) : Prop where
  start_row : p.y = 0 → start.y = pixelCoordinate v.horizontalAxis
  stop_row : q.y = 0 → stop.y = pixelCoordinate v.horizontalAxis
  start_column : p.x = 0 → start.x = pixelCoordinate v.verticalAxis
  stop_column : q.x = 0 → stop.x = pixelCoordinate v.verticalAxis

/-- A line from pixel to pixel of two points meets the axes where they do. -/
theorem followsAxes_pixel_project (v : Viewport Rat) (p q : SamplePoint Rat) :
    FollowsAxes v p q (pixel (v.project ⟨p.x, p.y⟩)) (pixel (v.project ⟨q.x, q.y⟩)) where
  start_row h := by rw [v.horizontalAxis_eq_project p.x, ← h]; rfl
  stop_row h := by rw [v.horizontalAxis_eq_project q.x, ← h]; rfl
  start_column h := by rw [v.verticalAxis_eq_project p.y, ← h]; rfl
  stop_column h := by rw [v.verticalAxis_eq_project q.y, ← h]; rfl

/-- **Axes and curves follow one projection.** In exact arithmetic the row and the column of the
axes are those of all points with a zero coordinate. An axis is visible exactly if it lies strictly
inside the target; its line is then drawn in the nearest pixels, not past the ends of the target.
The lines of a curve meet those pixels where their ends lie on an axis. -/
theorem axes_follow_project (v : Viewport Rat) :
    (∀ c, v.horizontalAxis = (v.project ⟨c, 0⟩).y ∧ v.verticalAxis = (v.project ⟨0, c⟩).x) ∧
    (∀ row, v.axes.horizontal = some row ↔
      row = v.horizontalAxis ∧ 0 < row ∧ row < v.frame.height.toNat) ∧
    (∀ column, v.axes.vertical = some column ↔
      column = v.verticalAxis ∧ 0 < column ∧ column < v.frame.width.toNat) ∧
    (∀ row, v.axes.horizontal = some row →
      .line ⟨0, pixelCoordinate row⟩ ⟨farEnd v.frame.width, pixelCoordinate row⟩ ∈ drawAxes v ∧
      0 ≤ (pixelCoordinate row).toInt ∧ (pixelCoordinate row).toInt ≤ v.frame.height.toNat) ∧
    (∀ column, v.axes.vertical = some column →
      .line ⟨pixelCoordinate column, 0⟩ ⟨pixelCoordinate column, farEnd v.frame.height⟩ ∈
        drawAxes v ∧
      0 ≤ (pixelCoordinate column).toInt ∧
      (pixelCoordinate column).toInt ≤ v.frame.width.toNat) ∧
    ∀ points, List.Forall₂ (fun pair step => ∃ start stop, step = .line start stop ∧
        FollowsAxes v pair.1 pair.2 start stop)
      ((points.zip points.tail).filter fun pair => pair.1.canStart && pair.2.canEnd)
      (trace v points).1 := by
  refine ⟨fun c => ⟨v.horizontalAxis_eq_project c, v.verticalAxis_eq_project c⟩,
    fun row => Viewport.inside?_eq_some_iff, fun column => Viewport.inside?_eq_some_iff,
    fun row h => ⟨?_, Viewport.toInt_pixelCoordinate_of_inside? h⟩,
    fun column h => ⟨?_, Viewport.toInt_pixelCoordinate_of_inside? h⟩, fun points => ?_⟩
  · simp [drawAxes, axisLines, h, rowLine]
  · simp [drawAxes, axisLines, h, columnLine]
  · rw [steps_trace]
    refine (forall₂_segment? v _).imp ?_
    rintro ⟨p, q⟩ _ ⟨-, rfl⟩
    exact ⟨_, _, rfl, followsAxes_pixel_project v p q⟩

/-- A window from right to left, away from the corner of the target. -/
def turned : Viewport Rat :=
  ⟨⟨5, -5⟩, ⟨-5, 5⟩, ⟨10, 5, 100, 100⟩⟩

/-- The line `y = 2 * x` starts where the two axes of a turned window cross. -/
theorem axes_follow_project_turned :
    turned.axes = ⟨some 55, some 60⟩ ∧
      .line ⟨0, 55⟩ ⟨100, 55⟩ ∈ drawAxes turned ∧ .line ⟨60, 0⟩ ⟨60, 100⟩ ∈ drawAxes turned ∧
      ∃ stop, (trace turned [.ordinary 0 0, .ordinary 1 2]).1 = [.line ⟨60, 55⟩ stop] := by
  have haxes : turned.axes = ⟨some 55, some 60⟩ := by decide +kernel
  obtain ⟨-, -, -, hrow, hcolumn, hcurve⟩ := axes_follow_project turned
  have hpixels : pixelCoordinate (55 : Rat) = 55 ∧ pixelCoordinate (60 : Rat) = 60 := by
    decide +kernel
  have hrowLine := (hrow 55 (by rw [haxes])).1
  have hcolumnLine := (hcolumn 60 (by rw [haxes])).1
  rw [hpixels.1] at hrowLine
  rw [hpixels.2] at hcolumnLine
  refine ⟨haxes, hrowLine, hcolumnLine, ?_⟩
  have hjoined := hcurve [.ordinary 0 0, .ordinary 1 2]
  generalize (trace turned [.ordinary 0 0, .ordinary 1 2]).1 = steps at hjoined
  change List.Forall₂ _ [(SamplePoint.ordinary 0 0, SamplePoint.ordinary 1 2)] steps at hjoined
  cases hjoined with
  | cons hline hrest =>
    cases hrest
    obtain ⟨⟨x, y⟩, stop, rfl, hfollows⟩ := hline
    have hx : x = 60 := (hfollows.start_column rfl).trans (by decide +kernel)
    have hy : y = 55 := (hfollows.start_row rfl).trans (by decide +kernel)
    exact ⟨stop, by rw [hx, hy]⟩

end Drawing

end PlotSheet
