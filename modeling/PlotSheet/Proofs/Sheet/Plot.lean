import PlotSheet.Proofs.Drawing.Scene
import PlotSheet.Proofs.Sheet.Change

/-!
# The drawing of a sheet

Only the graphed entries of a sheet are drawn, each in its own color and with its own lines, in the
order of the sheet. Hidden and invalid entries leave no mark, so that removing one, or breaking its
text, changes neither the drawing nor its counts.

## Main definitions

* `Sheet.graphed`: the graphed entries
* `Entry.drawing`: what one of them adds to a drawing

## Main results

* `filter_visible_figures`: the visible figures of a sheet are those of its graphed entries
* `drawScene_figures_congr`: sheets with the same graphed entries are drawn alike
* `drawScene_figures`: the steps and the counts of a sheet's drawing
-/

namespace PlotSheet

open Drawing

/-- The graphed entries, in order. -/
def Sheet.graphed (s : Sheet) : List Entry :=
  s.entries.filter fun e => e.status = .graphed

namespace Entry

/-- What a graphed entry adds to a drawing: its color, a width of two, and the lines between the
points of its own curve. -/
def drawing (v : Viewport Float) (e : Entry) : List Step :=
  match e.reading with
  | .ok curve => .color e.color :: .width 2 :: (trace v curve.points).1
  | .error _ => []

/-- The figure of an entry is visible if the entry is graphed. -/
theorem filter_visible_figure? (e : Entry) :
    e.figure?.filter Figure.visible =
      if decide (e.status = .graphed) = true then e.figure? else none := by
  unfold figure? status isValid
  cases e.reading with
  | error f => rfl
  | ok curve => cases h : e.shown <;> simp [Option.filter]

theorem drawing_of_figure? {e : Entry} {f : Figure Float} (h : e.figure? = some f)
    (v : Viewport Float) : e.drawing v = f.drawing v := by
  unfold figure? at h
  unfold drawing
  cases hreading : e.reading with
  | error failure =>
    rw [hreading] at h
    cases h
  | ok curve =>
    rw [hreading] at h
    obtain rfl := Option.some.inj h
    rfl

theorem drawing_of_figure?_eq_none {e : Entry} (h : e.figure? = none) (v : Viewport Float) :
    e.drawing v = [] := by
  unfold figure? at h
  unfold drawing
  cases hreading : e.reading with
  | error failure => rfl
  | ok curve =>
    rw [hreading] at h
    cases h

end Entry

namespace Sheet

/-! ## Graphed entries -/

/-- The visible figures of a sheet are those of its graphed entries. -/
theorem filter_visible_figures (s : Sheet) :
    s.figures.filter Figure.visible = s.graphed.filterMap Entry.figure? := by
  unfold figures graphed
  rw [List.filter_filterMap, List.filterMap_filter]
  exact congrArg (fun f => s.entries.filterMap f) (funext Entry.filter_visible_figure?)

theorem flatMap_drawing_filterMap (v : Viewport Float) (entries : List Entry) :
    (entries.filterMap Entry.figure?).flatMap (Figure.drawing v) =
      entries.flatMap (Entry.drawing v) := by
  induction entries with
  | nil => rfl
  | cons e entries ih =>
    rw [List.flatMap_cons, ← ih]
    cases h : e.figure? with
    | none =>
      rw [List.filterMap_cons_none h, Entry.drawing_of_figure?_eq_none h, List.nil_append]
    | some f =>
      rw [List.filterMap_cons_some h, Entry.drawing_of_figure? h, List.flatMap_cons]

/-- Sheets with the same graphed entries are drawn alike. -/
theorem drawScene_figures_congr (v : Viewport Float) {s s' : Sheet} (h : s'.graphed = s.graphed) :
    drawScene v s'.figures = drawScene v s.figures := by
  rw [← drawScene_filter_visible v s'.figures, ← drawScene_filter_visible v s.figures,
    filter_visible_figures, filter_visible_figures, h]

theorem countP_visible_figures (s : Sheet) : s.figures.countP Figure.visible = s.graphedCount := by
  unfold figures graphedCount Entry.status Entry.isValid Entry.figure?
  rw [List.countP_filterMap]
  refine List.countP_congr fun e _ => ?_
  cases e.reading with
  | error f => simp
  | ok curve => cases e.shown <;> simp

/-! ## Changes of other entries -/

section Changes

/-- Entries that are not graphed do not count among the graphed ones. -/
theorem graphed_splice (ahead : List Entry) {entries : List Entry} (behind : List Entry)
    (h : ∀ e ∈ entries, e.status ≠ .graphed) :
    (⟨ahead ++ entries ++ behind⟩ : Sheet).graphed = (⟨ahead ++ behind⟩ : Sheet).graphed := by
  have hnone : (entries.filter fun e => e.status = .graphed) = [] := by
    rw [List.filter_eq_nil_iff]
    intro e he
    simpa using h e he
  unfold graphed
  simp only [List.filter_append, hnone, List.append_nil]

variable {s : Sheet} {i : Nat} {e : Entry}

theorem eq_splice (he : s.get? i = some e) :
    s = ⟨s.entries.take i ++ [e] ++ s.entries.drop (i + 1)⟩ := by
  obtain ⟨hlt, rfl⟩ := List.getElem?_eq_some_iff.1 he
  rw [List.append_assoc, List.singleton_append, List.getElem_cons_drop, List.take_append_drop]

/-- Removing an entry that is not graphed leaves the graphed ones. -/
theorem graphed_remove (he : s.get? i = some e) (h : e.status ≠ .graphed) :
    ∃ s', s.remove i = some (e, s') ∧ s'.graphed = s.graphed := by
  refine ⟨⟨s.entries.eraseIdx i⟩, by simp [remove, he], ?_⟩
  calc (⟨s.entries.eraseIdx i⟩ : Sheet).graphed
      = (⟨s.entries.take i ++ s.entries.drop (i + 1)⟩ : Sheet).graphed := by
        rw [List.eraseIdx_eq_take_drop_succ]
    _ = (⟨s.entries.take i ++ [e] ++ s.entries.drop (i + 1)⟩ : Sheet).graphed :=
        (graphed_splice _ _ (List.forall_mem_singleton.2 h)).symm
    _ = s.graphed := by rw [← eq_splice he]

theorem status_setText {most : Nat} {text : String}
    (htext : ∀ c : Curve Float, Equation.parse most text ≠ .ok c) :
    (e.setText most text).status ≠ .graphed := by
  have hvalid : (e.setText most text).isValid = false := by
    unfold Entry.isValid Entry.setText Entry.ofText
    dsimp only
    split
    · next curve hcurve => exact absurd hcurve (htext curve)
    · rfl
  unfold Entry.status
  rw [hvalid]
  simp

/-- An entry that is not graphed, given a text that is no equation, leaves the graphed ones. -/
theorem graphed_edit (he : s.get? i = some e) (h : e.status ≠ .graphed) {text : String}
    (htext : ∀ c : Curve Float, Equation.parse most text ≠ .ok c) :
    ∃ s', s.edit most i text = some s' ∧ s'.graphed = s.graphed := by
  have hlt : i < s.size := (List.getElem?_eq_some_iff.1 he).1
  refine ⟨⟨s.entries.modify i (·.setText most text)⟩, if_pos hlt, ?_⟩
  calc (⟨s.entries.modify i (·.setText most text)⟩ : Sheet).graphed
      = (⟨s.entries.take i ++ [s.entries[i].setText most text] ++ s.entries.drop (i + 1)⟩ :
          Sheet).graphed := by
        rw [List.modify_eq_take_cons_drop hlt, List.append_assoc, List.singleton_append]
    _ = (⟨s.entries.take i ++ s.entries.drop (i + 1)⟩ : Sheet).graphed :=
        graphed_splice _ _ (List.forall_mem_singleton.2 (status_setText htext))
    _ = (⟨s.entries.take i ++ [e] ++ s.entries.drop (i + 1)⟩ : Sheet).graphed :=
        (graphed_splice _ _ (List.forall_mem_singleton.2 h)).symm
    _ = s.graphed := by rw [← eq_splice he]

end Changes

/-! ## The drawing of a sheet -/

/-- **The drawing of a sheet.** In any viewport a sheet is drawn as the axes that are visible, in
their gray and one pixel wide, and then its graphed entries in order, each in its own color, two
pixels wide, with the lines of its own curve. The counted segments and axes are the lines drawn.
Removing an entry that is not graphed, or giving it a text that is no equation, changes neither the
steps nor the counts. -/
theorem drawScene_figures (v : Viewport Float) (s : Sheet) :
    (drawScene v s.figures).1 =
      .color ⟨165, 165, 165⟩ :: .width 1 ::
        (axisLines v ++ s.graphed.flatMap (Entry.drawing v)) ∧
    (drawScene v s.figures).2.axes = (axisLines v).length ∧
    (drawScene v s.figures).2.curves = s.graphed.length ∧
    (drawScene v s.figures).2.segments + (drawScene v s.figures).2.axes =
      lineCount (drawScene v s.figures).1 ∧
    ∀ i e, s.get? i = some e → e.status ≠ .graphed →
      (∃ s', s.remove i = some (e, s') ∧ drawScene v s'.figures = drawScene v s.figures) ∧
      ∀ most text, (∀ c : Curve Float, Equation.parse most text ≠ .ok c) →
        ∃ s', s.edit most i text = some s' ∧ drawScene v s'.figures = drawScene v s.figures := by
  refine ⟨?_, ?_, ?_, (lineCount_drawScene v s.figures).symm, ?_⟩
  · rw [steps_drawScene, filter_visible_figures, flatMap_drawing_filterMap]
    rfl
  · exact (axes_curves_foldl_addFigure v s.figures _).1
  · rw [drawScene, (axes_curves_foldl_addFigure v s.figures _).2, countP_visible_figures,
      Nat.zero_add]
    exact List.countP_eq_length_filter
  · intro i e he h
    constructor
    · obtain ⟨s', hremove, hgraphed⟩ := graphed_remove he h
      exact ⟨s', hremove, drawScene_figures_congr v hgraphed⟩
    · intro most text htext
      obtain ⟨s', hedit, hgraphed⟩ := graphed_edit he h htext
      exact ⟨s', hedit, drawScene_figures_congr v hgraphed⟩

/-- A hidden line and an equation with a bad factor stand beside a parabola: without the line, or
with the bad equation made worse, the same is drawn. -/
theorem drawScene_figures_around_parabola :
    ∃ (s : Sheet) (hidden invalid : Entry),
      s = ⟨[.ofText 1000 "y = x^2", hidden, invalid]⟩ ∧
      hidden.status = .hidden ∧ invalid.status = .invalid ∧
      s.graphed.map Entry.text = ["y = x^2"] ∧
      (∃ s', s.remove 1 = some (hidden, s') ∧
        drawScene .initial s'.figures = drawScene .initial s.figures) ∧
      ∃ s', s.edit 1000 2 "y = 2**x" = some s' ∧
        drawScene .initial s'.figures = drawScene .initial s.figures := by
  have hhidden : (Entry.ofText 1000 "y = x").flip.status = .hidden := by decide
  have hinvalid : (Entry.ofText 1000 "y = 2*x").status = .invalid := by decide
  have htext : ∀ c : Curve Float, Equation.parse 1000 "y = 2**x" ≠ .ok c := by
    intro c hc
    have hread : (Equation.parse (α := Float) 1000 "y = 2**x").isOk = false := by decide
    rw [hc] at hread
    cases hread
  obtain ⟨-, -, -, -, hchange⟩ := drawScene_figures .initial
    ⟨[.ofText 1000 "y = x^2", (Entry.ofText 1000 "y = x").flip, .ofText 1000 "y = 2*x"]⟩
  refine ⟨_, _, _, rfl, hhidden, hinvalid, by decide, ?_, ?_⟩
  · exact (hchange 1 _ rfl (by rw [hhidden]; decide)).1
  · exact (hchange 2 _ rfl (by rw [hinvalid]; decide)).2 _ _ htext

end Sheet

end PlotSheet
