import PlotSheet.Drawing.Scene
import PlotSheet.Proofs.Drawing.Trace

/-!
# The drawing of a scene

A scene is drawn figure by figure: nothing of a figure depends on those ahead of it, and a figure
that is not visible leaves no mark, neither on the drawing nor on its counts.

## Main definitions

* `Figure.drawing`: what one visible figure adds to a drawing

## Main results

* `steps_drawScene`: the axes, then the visible figures in order
* `drawScene_filter_visible`: a scene is drawn as its visible figures alone
* `lineCount_drawScene`: the counted segments and axes are the lines of the drawing
-/

namespace PlotSheet.Drawing

variable {α : Type} [Scalar α]

theorem lineCount_append (a b : List Step) : lineCount (a ++ b) = lineCount a + lineCount b :=
  List.countP_append

theorem lineCount_drawAxes (v : Viewport α) : lineCount (drawAxes v) = (axisLines v).length := by
  unfold drawAxes axisLines
  cases v.axes.horizontal <;> cases v.axes.vertical <;> rfl

/-! ## One figure more -/

variable [Pow α Nat] [Trigonometric α]

/-- What a visible figure adds to a drawing: its color, the width of curves, and the lines of its
own curve. -/
def Figure.drawing (v : Viewport α) (f : Figure α) : List Step :=
  .color f.color :: .width curveWidth :: (trace v f.curve.points).1

section AddFigure

variable (v : Viewport α) (drawn : List Step × Stats) {f : Figure α}

theorem addFigure_of_not_visible (h : ¬ f.visible = true) : addFigure v drawn f = drawn := by
  unfold addFigure
  exact if_neg h

theorem addFigure_of_visible (h : f.visible = true) :
    addFigure v drawn f = (drawn.1 ++ f.drawing v,
      ⟨drawn.2.axes, drawn.2.curves + 1,
        drawn.2.segments + (trace v f.curve.points).2.segments,
        drawn.2.breaks + (trace v f.curve.points).2.breaks⟩) := by
  unfold addFigure
  exact if_pos h

/-- A figure has the lines that its trace counts. -/
theorem lineCount_drawing (f : Figure α) :
    lineCount (f.drawing v) = (trace v f.curve.points).2.segments := by
  rw [← lineCount_trace]
  rfl

end AddFigure

/-! ## Scenes -/

variable (v : Viewport α) (figures : List (Figure α))

theorem steps_foldl_addFigure (drawn : List Step × Stats) :
    (figures.foldl (addFigure v) drawn).1 =
      drawn.1 ++ (figures.filter Figure.visible).flatMap (Figure.drawing v) := by
  induction figures generalizing drawn with
  | nil => simp
  | cons f figures ih =>
    rw [List.foldl_cons, ih]
    by_cases h : f.visible = true
    · rw [addFigure_of_visible v drawn h, List.filter_cons_of_pos h, List.flatMap_cons,
        List.append_assoc]
    · rw [addFigure_of_not_visible v drawn h, List.filter_cons_of_neg h]

/-- The axes are drawn first, then every visible figure in order. -/
theorem steps_drawScene :
    (drawScene v figures).1 =
      drawAxes v ++ (figures.filter Figure.visible).flatMap (Figure.drawing v) :=
  steps_foldl_addFigure v figures _

/-- Figures that are not visible change nothing about the drawing of a scene and its counts. -/
theorem drawScene_filter_visible :
    drawScene v (figures.filter Figure.visible) = drawScene v figures := by
  unfold drawScene
  rw [List.foldl_filter]
  refine congrArg (fun add => figures.foldl add _) ?_
  funext drawn f
  by_cases h : f.visible = true
  · exact if_pos h
  · rw [addFigure_of_not_visible v drawn h]
    exact if_neg h

/-- What is counted apart from lines: the axes stay, and every visible figure is a curve. -/
theorem axes_curves_foldl_addFigure (drawn : List Step × Stats) :
    (figures.foldl (addFigure v) drawn).2.axes = drawn.2.axes ∧
      (figures.foldl (addFigure v) drawn).2.curves =
        drawn.2.curves + figures.countP Figure.visible := by
  induction figures generalizing drawn with
  | nil => simp
  | cons f figures ih =>
    rw [List.foldl_cons]
    obtain ⟨haxes, hcurves⟩ := ih (addFigure v drawn f)
    rw [haxes, hcurves]
    by_cases h : f.visible = true
    · rw [addFigure_of_visible v drawn h, List.countP_cons_of_pos h]
      exact ⟨rfl, Nat.add_right_comm ..⟩
    · rw [addFigure_of_not_visible v drawn h, List.countP_cons_of_neg h]
      exact ⟨rfl, rfl⟩

/-- The lines of a drawing go on being its segments and its axes. -/
theorem lineCount_foldl_addFigure {drawn : List Step × Stats}
    (h : lineCount drawn.1 = drawn.2.segments + drawn.2.axes) :
    lineCount (figures.foldl (addFigure v) drawn).1 =
      (figures.foldl (addFigure v) drawn).2.segments +
        (figures.foldl (addFigure v) drawn).2.axes := by
  induction figures generalizing drawn with
  | nil => exact h
  | cons f figures ih =>
    rw [List.foldl_cons]
    apply ih
    by_cases hvisible : f.visible = true
    · rw [addFigure_of_visible v drawn hvisible]
      dsimp only
      rw [lineCount_append, lineCount_drawing, h]
      exact Nat.add_right_comm ..
    · rw [addFigure_of_not_visible v drawn hvisible]
      exact h

/-- The counted segments and axes of a scene are the lines of its drawing. -/
theorem lineCount_drawScene :
    lineCount (drawScene v figures).1 =
      (drawScene v figures).2.segments + (drawScene v figures).2.axes := by
  apply lineCount_foldl_addFigure
  rw [lineCount_drawAxes, Nat.zero_add]

end PlotSheet.Drawing
