import Mathlib.Data.List.Induction
import PlotSheet.Proofs.Drawing.Scene
import PlotSheet.Proofs.Drawing.Svg
import PlotSheet.Proofs.Number.Nearest

/-!
# Drawing on a canvas

A canvas is drawn on step by step through a backend. If the backend writes tags, the document shows
one line for each step that draws one, in the color and the width that were set last ahead of that
step, however the steps are mixed and wherever they come from, and the canvas counts these lines.
Once a line fails, nothing more is drawn and the document cannot be finished, whatever the backend.

## Main definitions

* `lastColor`, `lastWidth`, `drawnLines`: what steps draw, from the steps alone
* `Picture.ofLines`: a white picture with lines
* `Canvas.Shows`: the state of a canvas after steps
* `Action`: a step or the drawing of a scene

## Main results

* `Shows.drawAll`: a canvas shows the steps that were drawn on it
* `Shows.finish`: the finished document shows them, and its lines are counted
* `finish_drawAll_of_failed`: nothing is drawn behind a line that failed
* `read_document_perform`: the document after any actions, read back, and the counts of its lines
-/

namespace PlotSheet.Drawing

/-! ## What steps draw -/

/-- The color that a step sets. -/
def Step.color? : Step → Option Rgb
  | color c => some c
  | _ => none

/-- The width that a step sets. -/
def Step.width? : Step → Option Float
  | width w => some w
  | _ => none

/-- The greatest line width. -/
def mostWidth : Int := 4294967295

/-- A line width in whole pixels: the nearest integer of its exact value, kept within 32 bits, and
zero for an undefined width. -/
def strokeWidth (w : Float) : Int :=
  if w.isNaN then 0 else max 0 (min mostWidth (nearestInt (Binary.exact w)))

/-- The color that was set last. Lines are black until a color is set. -/
def lastColor (steps : List Step) : Rgb :=
  (steps.reverse.findSome? Step.color?).getD .black

/-- The width that was set last. Lines are one pixel wide until a width is set. -/
def lastWidth (steps : List Step) : Int :=
  (steps.reverse.findSome? Step.width?).elim 1 strokeWidth

/-- The line that a step draws behind others. -/
def drawnLine? (ahead : List Step) : Step → Option DrawnLine
  | .line p q =>
    some ⟨lastColor ahead, lastWidth ahead, p.x.toInt, p.y.toInt, q.x.toInt, q.y.toInt⟩
  | _ => none

/-- The lines that steps draw: at each place among the steps, that of the step there behind all the
steps ahead of it. -/
def drawnLines (steps : List Step) : List DrawnLine :=
  (List.range steps.length).filterMap fun i => steps[i]?.bind (drawnLine? (steps.take i))

theorem lastColor_concat (steps : List Step) (s : Step) :
    lastColor (steps ++ [s]) = s.color?.getD (lastColor steps) := by
  rw [lastColor, List.reverse_concat, List.findSome?_cons]
  cases s.color? <;> rfl

theorem lastWidth_concat (steps : List Step) (s : Step) :
    lastWidth (steps ++ [s]) = s.width?.elim (lastWidth steps) strokeWidth := by
  rw [lastWidth, List.reverse_concat, List.findSome?_cons]
  cases s.width? <;> rfl

/-- One step more draws at most one line more. -/
theorem drawnLines_concat (steps : List Step) (s : Step) :
    drawnLines (steps ++ [s]) = drawnLines steps ++ (drawnLine? steps s).toList := by
  unfold drawnLines
  rw [List.length_append, List.length_singleton, List.range_succ, List.filterMap_append]
  congr 1
  · refine List.filterMap_congr fun i hi => ?_
    have hlt := List.mem_range.1 hi
    rw [List.getElem?_append_left hlt, List.take_append_of_le_length hlt.le]
  · rw [List.filterMap_cons, List.getElem?_concat_length, List.take_left', Option.bind_some]
    · cases drawnLine? steps s <;> rfl
    · rfl

theorem length_drawnLines (steps : List Step) : (drawnLines steps).length = lineCount steps := by
  induction steps using List.reverseRecOn with
  | nil => rfl
  | append_singleton steps s ih =>
    rw [drawnLines_concat, List.length_append, ih, lineCount_append]
    cases s <;> rfl

/-- The lines of the first steps are the first lines. -/
theorem drawnLines_prefix (a b : List Step) : drawnLines a <+: drawnLines (a ++ b) := by
  induction b using List.reverseRecOn with
  | nil => rw [List.append_nil]
  | append_singleton b s ih =>
    rw [← List.append_assoc, drawnLines_concat]
    exact ih.trans (List.prefix_append ..)

theorem drawnLines_take (steps : List Step) (n : Nat) :
    drawnLines (steps.take n) = (drawnLines steps).take (lineCount (steps.take n)) := by
  have hprefix := drawnLines_prefix (steps.take n) (steps.drop n)
  rw [List.take_append_drop, List.prefix_iff_eq_take, length_drawnLines] at hprefix
  exact hprefix

/-- A picture of a size with a white rectangle over all of it and lines. -/
def Picture.ofLines (width height : UInt32) (lines : List DrawnLine) : Picture :=
  ⟨width.toNat, height.toNat,
    ⟨0, 0, min width.toNat Int32.maxValue.toInt, min height.toNat Int32.maxValue.toInt, .white⟩,
    lines⟩

/-! ## The state of a canvas -/

namespace Canvas

variable {b : Backend}

/-- A canvas rounds widths as their exact values are rounded. -/
theorem toNat_wholeWidth (w : Float) : ((wholeWidth w).toNat : Int) = strokeWidth w := by
  have hnearest : nearestWithin 0 mostWidth w = strokeWidth w := by
    unfold strokeWidth
    by_cases hw : w.isNaN = true
    · rw [if_pos hw, nearestWithin_of_isNaN 0 mostWidth hw]
    · have hoverflow : (mostWidth : Rat) ≤ Binary.overflow :=
        calc (mostWidth : Rat) ≤ 2 ^ (32 : Int) := by norm_num [mostWidth]
          _ ≤ 2 ^ (1024 : Int) := zpow_le_zpow_right₀ (by norm_num) (by norm_num)
      rw [if_neg hw]
      refine nearestWithin_eq (Bool.eq_false_of_not_eq_true hw) ?_ hoverflow (by decide)
      rw [Int.cast_zero, neg_nonpos]
      exact Binary.overflow_pos.le
  have hbounds : 0 ≤ strokeWidth w ∧ strokeWidth w < UInt32.size := by
    unfold strokeWidth mostWidth UInt32.size
    split <;> omega
  change ((UInt32.ofNat (nearestWithin 0 mostWidth w).toNat).toNat : Int) = strokeWidth w
  rw [hnearest, UInt32.toNat_ofNat_of_lt' (by omega), Int.toNat_of_nonneg hbounds.1]

theorem toInt_farEnd (length : UInt32) :
    (farEnd length).toInt = min (length.toNat : Int) Int32.maxValue.toInt := by
  have hmost : Int32.maxValue.toInt = 2147483647 := rfl
  have hnonneg : (0 : Int) ≤ length.toNat := Int.natCast_nonneg _
  exact Int32.toInt_ofInt_of_le (by omega) (by omega)

/-- The canvas has drawn the lines of the steps, and is set to their last color and width. -/
structure Shows (c : Canvas b) (width height : UInt32) (steps : List Step) : Prop where
  color : c.color = lastColor steps
  lineWidth : (c.lineWidth.toNat : Int) = lastWidth steps
  lines : c.lines = lineCount steps
  failed : c.failed = none
  picture : Picture.readUnfinished (b.text c.document) =
    some (.ofLines width height (drawnLines steps))

/-- A document is started, and shows no lines. -/
theorem exists_start (hb : b.WritesTags) (width height : UInt32) :
    ∃ c, start b width height = .ok c ∧ c.Shows width height [] := by
  obtain ⟨e, hopening, hname, hwidth, hheight⟩ := hb.start width height
  obtain ⟨d, text, background, hd, hdocument, htext, hbackground⟩ :=
    hb.rectangle (b.start width height) ⟨farEnd width, farEnd height⟩ .white
  rw [toInt_farEnd, toInt_farEnd] at hbackground
  refine ⟨⟨d, .black, 1, 0, none⟩, by rw [start, hd]; rfl, rfl, rfl, rfl, rfl, ?_⟩
  have htags : readTags (b.text d).toList = some [.opening e, .empty background] := by
    rw [hdocument]
    exact readTags_append (readTags_of_isTagText hopening) htext
  rw [Picture.readUnfinished, htags, Option.bind_some,
    Picture.ofTags?_opening hname hwidth hheight hbackground]
  rfl

/-- One step more is shown. -/
theorem Shows.draw (hb : b.WritesTags) {c : Canvas b} {width height : UInt32} {steps : List Step}
    (h : c.Shows width height steps) (s : Step) :
    (c.draw s).Shows width height (steps ++ [s]) := by
  cases s with
  | color color =>
    refine ⟨?_, ?_, ?_, h.failed, ?_⟩
    · rw [lastColor_concat]
      rfl
    · rw [lastWidth_concat]
      exact h.lineWidth
    · rw [lineCount_append]
      exact h.lines
    · rw [drawnLines_concat]
      exact h.picture.trans (by simp [drawnLine?])
  | width w =>
    refine ⟨?_, ?_, ?_, h.failed, ?_⟩
    · rw [lastColor_concat]
      exact h.color
    · rw [lastWidth_concat]
      exact toNat_wholeWidth w
    · rw [lineCount_append]
      exact h.lines
    · rw [drawnLines_concat]
      exact h.picture.trans (by simp [drawnLine?])
  | line p q =>
    obtain ⟨d, text, e, hd, hdocument, htext, he⟩ := hb.line c.document p q c.color c.lineWidth
    have hdraw : c.draw (.line p q) = { c with document := d, lines := c.lines + 1 } := by
      rw [Canvas.draw, line, h.failed, hd]
    rw [h.color, h.lineWidth] at he
    refine ⟨?_, ?_, ?_, ?_, ?_⟩
    · rw [hdraw, lastColor_concat]
      exact h.color
    · rw [hdraw, lastWidth_concat]
      exact h.lineWidth
    · rw [hdraw, lineCount_append, ← h.lines]
      rfl
    · rw [hdraw]
      exact h.failed
    · rw [hdraw, drawnLines_concat]
      dsimp only
      rw [hdocument]
      exact Picture.readUnfinished_append_line h.picture htext he

theorem drawAll_append (c : Canvas b) (a a' : List Step) :
    c.drawAll (a ++ a') = (c.drawAll a).drawAll a' :=
  List.foldl_append

/-- All steps are shown. -/
theorem Shows.drawAll (hb : b.WritesTags) {c : Canvas b} {width height : UInt32}
    (h : c.Shows width height []) (steps : List Step) :
    (c.drawAll steps).Shows width height steps := by
  induction steps using List.reverseRecOn with
  | nil => exact h
  | append_singleton steps s ih =>
    rw [drawAll_append]
    exact ih.draw hb s

/-- The finished document shows the lines, and they are counted. -/
theorem Shows.finish (hb : b.WritesTags) {c : Canvas b} {width height : UInt32} {steps : List Step}
    (h : c.Shows width height steps) :
    ∃ document, c.finish = .ok (document, lineCount steps) ∧
      Picture.read document = some (.ofLines width height (drawnLines steps)) := by
  obtain ⟨d, text, hd, hdocument, htext⟩ := hb.present c.document
  refine ⟨b.text d, ?_, ?_⟩
  · rw [Canvas.finish, h.failed, ← h.lines]
    dsimp only
    rw [hd]
    rfl
  · rw [hdocument]
    exact Picture.read_append_closing h.picture htext

/-! ## Lines that fail -/

/-- Nothing is drawn behind a line that failed, and the document cannot be finished. -/
theorem finish_drawAll_of_failed {c : Canvas b} {reason : String} (h : c.failed = some reason)
    (steps : List Step) :
    (c.drawAll steps).document = c.document ∧ (c.drawAll steps).lines = c.lines ∧
      (c.drawAll steps).finish = .error reason := by
  have hkept : (c.drawAll steps).document = c.document ∧ (c.drawAll steps).lines = c.lines ∧
      (c.drawAll steps).failed = some reason := by
    induction steps using List.reverseRecOn with
    | nil => exact ⟨rfl, rfl, h⟩
    | append_singleton steps s ih =>
      rw [drawAll_append]
      cases s with
      | color color => exact ih
      | width w => exact ih
      | line p q =>
        have hdraw : (c.drawAll steps).drawAll [.line p q] = c.drawAll steps := by
          change (c.drawAll steps).line p q = c.drawAll steps
          rw [line, ih.2.2]
        rw [hdraw]
        exact ih
  refine ⟨hkept.1, hkept.2.1, ?_⟩
  rw [Canvas.finish, hkept.2.2]

end Canvas

/-! ## Actions -/

/-- What a canvas is asked for: a step, or the drawing of a scene. -/
inductive Action (α : Type) where
  | step (s : Step)
  | render (v : Viewport α) (figures : List (Figure α))

variable {α : Type} [Scalar α] [Pow α Nat] [Trigonometric α]

/-- The steps of an action. -/
def Action.steps : Action α → List Step
  | step s => [s]
  | render v figures => (drawScene v figures).1

namespace Canvas

variable {b : Backend}

/-- The canvas after an action. -/
def perform (c : Canvas b) : Action α → Canvas b
  | .step s => c.draw s
  | .render v figures => c.drawAll (drawScene v figures).1

theorem foldl_perform (c : Canvas b) (actions : List (Action α)) :
    actions.foldl perform c = c.drawAll (actions.flatMap Action.steps) := by
  induction actions generalizing c with
  | nil => rfl
  | cons a actions ih =>
    rw [List.foldl_cons, ih, List.flatMap_cons, drawAll_append]
    cases a <;> rfl

/-- **A document shows what was drawn.** Through a backend that writes tags, a document is started
and finished with any actions between. Read back as a text of tags, it is of the size of the canvas,
with a white rectangle over it and the lines of the steps in order, each in the color and width set
last before it, and finishing it answers with their number. After every step, the lines that are
counted are those that the document shows so far. -/
theorem read_document_perform (hb : b.WritesTags) (width height : UInt32)
    (actions : List (Action α)) :
    let steps := actions.flatMap Action.steps
    ∃ canvas, start b width height = .ok canvas ∧
      (∃ document,
        (actions.foldl perform canvas).finish = .ok (document, (drawnLines steps).length) ∧
        Picture.read document = some ⟨width.toNat, height.toNat,
          ⟨0, 0, min width.toNat Int32.maxValue.toInt, min height.toNat Int32.maxValue.toInt,
            .white⟩,
          drawnLines steps⟩) ∧
      (drawnLines steps).length = lineCount steps ∧
      ∀ n, (canvas.drawAll (steps.take n)).lines = (drawnLines (steps.take n)).length ∧
        (Picture.readUnfinished (b.text (canvas.drawAll (steps.take n)).document)).map
          Picture.lines = some (drawnLines (steps.take n)) ∧
        drawnLines (steps.take n) = (drawnLines steps).take (lineCount (steps.take n)) := by
  intro steps
  obtain ⟨canvas, hstart, hshows⟩ := exists_start hb width height
  refine ⟨canvas, hstart, ?_, length_drawnLines steps, fun n => ⟨?_, ?_, drawnLines_take steps n⟩⟩
  · rw [foldl_perform, length_drawnLines]
    exact (hshows.drawAll hb steps).finish hb
  · rw [length_drawnLines, (hshows.drawAll hb (steps.take n)).lines]
  · rw [(hshows.drawAll hb (steps.take n)).picture]
    rfl

/-- A line in black, and behind a color and a width that is no whole number a line into negative
coordinates. -/
theorem read_document_perform_two_lines :
    svgBackend.WritesTags ∧
    ∃ canvas document, start svgBackend 30 20 = .ok canvas ∧
      ([.step (.line ⟨1, 2⟩ ⟨3, 4⟩), .step (.color ⟨255, 0, 0⟩), .step (.width 2.5),
          .step (.line ⟨-5, 6⟩ ⟨7, -8⟩)].foldl (perform (α := Float)) canvas).finish =
        .ok (document, 2) ∧
      Picture.read document = some ⟨30, 20, ⟨0, 0, 30, 20, .white⟩,
        [⟨.black, 1, 1, 2, 3, 4⟩, ⟨⟨255, 0, 0⟩, 3, -5, 6, 7, -8⟩]⟩ := by
  obtain ⟨canvas, hstart, ⟨document, hfinish, hread⟩, -⟩ :=
    read_document_perform (α := Float) writesTags_svgBackend 30 20
      [.step (.line ⟨1, 2⟩ ⟨3, 4⟩), .step (.color ⟨255, 0, 0⟩), .step (.width 2.5),
        .step (.line ⟨-5, 6⟩ ⟨7, -8⟩)]
  have hlines : drawnLines [.line ⟨1, 2⟩ ⟨3, 4⟩, .color ⟨255, 0, 0⟩, .width 2.5,
      .line ⟨-5, 6⟩ ⟨7, -8⟩] =
        [⟨.black, 1, 1, 2, 3, 4⟩, ⟨⟨255, 0, 0⟩, 3, -5, 6, 7, -8⟩] := by decide +kernel
  refine ⟨writesTags_svgBackend, canvas, document, hstart, ?_, ?_⟩
  · exact hfinish.trans (congrArg (fun lines => Except.ok (document, List.length lines)) hlines)
  · exact hread.trans (congrArg (fun lines => some (Picture.ofLines 30 20 lines)) hlines)

end Canvas

end PlotSheet.Drawing
