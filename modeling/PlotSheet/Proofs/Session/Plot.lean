import PlotSheet.Proofs.Curve.Ending
import PlotSheet.Proofs.Drawing.Canvas
import PlotSheet.Proofs.Session.Causality
import PlotSheet.Proofs.Session.Request
import PlotSheet.Proofs.Sheet.Plot

/-!
# What a plot accounts for

A session counts what it plots three times: the header ahead of the command counts the graphed
entries of the sheet, the report behind it counts the curves and segments that the drawing counted,
and the document holds the lines that were drawn. The three agree, for every backend that writes
tags. A plot leaves at most one file behind: the document if it is saved, nothing if no file can be
created, and the beginning of the document if it is given up later. The session goes on from the
same state.

## Main definitions

* `Viewport.axisCount`: the number of visible axes
* `plotReport`: what is said about a plot

## Main results

* `endsPlot_iff`: the plots that come to an end
* `exists_finishPlot`: what the document of a plot holds
* `run_plot`: the run of the command
* `plot_accounts_agree`: header, report and document agree
-/

namespace PlotSheet

open Drawing

/-- The number of visible axes. -/
def Viewport.axisCount {α : Type} [Scalar α] (v : Viewport α) : Nat :=
  v.axes.horizontal.isSome.toNat + v.axes.vertical.isSome.toNat

namespace Drawing

variable {α : Type} [Scalar α]

theorem length_axisLines (v : Viewport α) : (axisLines v).length = v.axisCount := by
  unfold axisLines Viewport.axisCount
  cases v.axes.horizontal <;> cases v.axes.vertical <;> rfl

theorem axes_drawScene [Pow α Nat] [Trigonometric α] (v : Viewport α) (figures : List (Figure α)) :
    (drawScene v figures).2.axes = v.axisCount := by
  rw [drawScene, (axes_curves_foldl_addFigure v figures _).1, length_axisLines]

end Drawing

namespace Session

open Dialogue

variable {p : Platform} {s : State}

/-! ## The document of a plot -/

/-- A plot comes to an end if the curves of the graphed entries do. -/
theorem endsPlot_iff : endsPlot s = true ↔
    ∀ e ∈ s.sheet.graphed, ∀ curve, e.reading = .ok curve → curve.ends = true := by
  unfold endsPlot
  rw [s.sheet.filter_visible_figures, List.all_eq_true]
  constructor
  · intro h e he curve hreading
    have hfigure : e.figure? = some ⟨curve, e.color, e.shown⟩ := by
      unfold Entry.figure?
      rw [hreading]
    exact h _ (List.mem_filterMap.2 ⟨e, he, hfigure⟩)
  · intro h f hf
    obtain ⟨e, he, hfigure⟩ := List.mem_filterMap.1 hf
    exact h e he f.curve (Entry.reading_of_figure? hfigure)

/-- The curves that are counted are the graphed entries. -/
theorem curves_drawScene (s : State) :
    (drawScene s.window s.sheet.figures).2.curves = s.sheet.graphedCount := by
  rw [drawScene, (axes_curves_foldl_addFigure _ _ _).2, s.sheet.countP_visible_figures,
    Nat.zero_add]

/-- The document shows one line for each segment that is counted and each visible axis. -/
theorem exists_finishPlot (hb : p.backend.WritesTags) (s : State) :
    ∃ canvas document picture stats, startPlot p s = .ok canvas ∧
      finishPlot p s canvas = .ok (document, stats) ∧
      Picture.read document = some picture ∧
      picture.lines.length = stats.segments + s.window.axisCount ∧
      stats.curves = s.sheet.graphedCount := by
  have hlines := lineCount_drawScene s.window s.sheet.figures
  rw [axes_drawScene] at hlines
  obtain ⟨canvas, hstart, hshows⟩ := Canvas.exists_start hb
    (canvasSize s.window.frame.x s.window.frame.width)
    (canvasSize s.window.frame.y s.window.frame.height)
  obtain ⟨document, hfinish, hread⟩ :=
    (hshows.drawAll hb (drawScene s.window s.sheet.figures).1).finish hb
  refine ⟨canvas, document, _, (drawScene s.window s.sheet.figures).2, ?_, ?_, hread, ?_,
    curves_drawScene s⟩
  · rw [startPlot, hstart]
    rfl
  · rw [finishPlot]
    dsimp only
    rw [hfinish]
    rfl
  · exact (length_drawnLines _).trans hlines

/-! ## The run of the command -/

/-- What is said about a plot. -/
def plotReport (curves segments : Nat) : Except SaveError String → String
  | .ok path => s!"plotted {curves} curve{plural curves} " ++ s!"({segments} segments) to {path}\n"
  | .error e => errorText "error" e.message e.causes

section Runs

variable {canvas : Canvas p.backend} {document : String} {stats : Stats}
  (hne : s.sheet.isEmpty = false) (hstart : startPlot p s = .ok canvas)
  (hends : endsPlot s = true) (hfinish : finishPlot p s canvas = .ok (document, stats))

include hne hstart hends hfinish

theorem plotSheet_eq : plotSheet p s = savePlot document stats := by
  rw [plotSheet, hne, if_neg Bool.false_ne_true, hstart]
  dsimp only
  rw [hends, if_pos rfl, hfinish]

theorem run_plot (disk : Disk) (w : World) :
    (plot p s).run disk s w =
      (.done (), s, (w.save disk document).2.told
        (plotReport stats.curves stats.segments (disk w.attempts).answer)) := by
  have hsaved : (w.save disk document).1 = (disk w.attempts).answer := rfl
  rw [plot, plotSheet_eq hne hstart hends hfinish, ← hsaved, savePlot, bind_assoc, run_bind]
  unfold saveDocument
  rw [run_save]
  dsimp only [run]
  cases (w.save disk document).1 with
  | ok path => rfl
  | error e => rfl

/-! ## Turns -/

/-- The turn of a plot leads back to its own state. -/
theorem run_turn_of_plot (disk : Disk) {w : World} {line : String}
    (hline : (readLine w.console.input).1 = .ok line) (hplot : commandOf? line = some .plot) :
    (turn p s).run disk s w =
      (.done true, s, ((((commanded s w).save disk document).2.told
        (plotReport stats.curves stats.segments (disk w.attempts).answer)).told "\n")) := by
  have hattempts : (commanded s w).attempts = w.attempts := rfl
  rw [run_turn hline, respond_of_ne_quit hplot (by decide)]
  change (plot p s >>= fun _ => Dialogue.say "\n" (pure true)).run disk s (commanded s w) = _
  rw [run_bind, run_plot hne hstart hends hfinish, hattempts]
  rfl

end Runs

section Turns

variable {disk : Disk} {w w' : World} {s' : State}
  (hturn : (turn p s).run disk s w = (.done true, s', w'))

include hturn

theorem turns_of_run_turn (fuel : Nat) :
    turns p disk (fuel + 1) s w = turns p disk fuel s' w' := by
  rw [turns_succ, hturn]

/-- Behind a turn that leads to a state, a session goes on with the header of that state. -/
theorem exists_output_turns (fuel : Nat) :
    ∃ text, (turns p disk (fuel + 2) s w).2.2.console.output =
      w'.console.output ++ header s'.sheet ++ text := by
  have hextends := @turns_extends_turn p disk fuel s' w'
  rw [turn_eq, run_say] at hextends
  rw [turns_of_run_turn hturn]
  exact (hextends.trans (run_extends disk _ _ _)).1

end Turns

theorem output_commanded (s : State) (w : World) :
    (commanded s w).console.output = w.console.output ++ header s.sheet ++ "> \n" := by
  change w.console.output ++ header s.sheet ++ "> " ++ "\n" = _
  rw [String.append_assoc]
  rfl

/-- **The accounts of a plot agree.** Through a backend that writes tags, and in every state with
equations whose graphed ones have a last point each, the command to plot leads back to the same
state. The header ahead of it shows the number of graphed equations, and the report behind it shows
the same number of curves; the segments that are reported are the lines of the document without
those of the visible axes. If the document is saved, it is the only new file. If no file can be
created, there is none, and if the plot is given up later, the only new file holds a beginning of
the document. In all cases the session goes on with the same header. -/
theorem plot_accounts_agree (hb : p.backend.WritesTags) (s : State) (disk : Disk) (w : World)
    (hne : s.sheet.isEmpty = false)
    (hends : ∀ e ∈ s.sheet.graphed, ∀ curve, e.reading = .ok curve → curve.ends = true)
    {line : String} (hline : (readLine w.console.input).1 = .ok line)
    (hplot : commandOf? line = some .plot) :
    ∃ document picture segments w',
      (turn p s).run disk s w = (.done true, s, w') ∧
      Picture.read document = some picture ∧
      picture.lines.length = segments + s.window.axisCount ∧
      w'.console.output = w.console.output ++
        s!"{s.sheet.size} equation{plural s.sheet.size}, {s.sheet.graphedCount} graphed\n" ++
        "> \n" ++ plotReport s.sheet.graphedCount segments (disk w.attempts).answer ++ "\n" ∧
      (∀ path, (disk w.attempts).answer = .ok path → w'.files = w.files ++ [document]) ∧
      (∀ reason, (disk w.attempts).answer = .error (.opening reason) → w'.files = w.files) ∧
      (∀ e, (disk w.attempts).answer = .error e → (∀ reason, e ≠ .opening reason) →
        ∃ part, part.toList <+: document.toList ∧ w'.files = w.files ++ [part]) ∧
      ∀ fuel, turns p disk (fuel + 1) s w = turns p disk fuel s w' ∧
        ∃ text, (turns p disk (fuel + 2) s w).2.2.console.output = w'.console.output ++
          s!"{s.sheet.size} equation{plural s.sheet.size}, {s.sheet.graphedCount} graphed\n" ++
          text := by
  obtain ⟨canvas, document, picture, stats, hstart, hfinish, hread, hlength, hcurves⟩ :=
    exists_finishPlot hb s
  have hturn := run_turn_of_plot hne hstart (endsPlot_iff.2 hends) hfinish disk hline hplot
  rw [hcurves] at hturn
  obtain ⟨hsaved, hunopened, hgivenUp⟩ := Attempt.file?_eq document (disk w.attempts)
  have hfiles : ((commanded s w).save disk document).2.files =
      w.files ++ ((disk w.attempts).file? document).toList := rfl
  refine ⟨document, picture, stats.segments, _, hturn, hread, hlength, ?_, ?_, ?_, ?_,
    fun fuel => ⟨turns_of_run_turn hturn fuel, exists_output_turns hturn fuel⟩⟩
  · change (commanded s w).console.output ++ plotReport _ _ _ ++ "\n" = _
    rw [output_commanded]
    rfl
  · intro path hpath
    rw [hsaved path hpath] at hfiles
    exact hfiles
  · intro reason hreason
    rw [hunopened reason hreason] at hfiles
    exact hfiles.trans (List.append_nil _)
  · intro e he hopened
    obtain ⟨part, hpart, hprefix⟩ := hgivenUp e he hopened
    rw [hpart] at hfiles
    exact ⟨part, hprefix, hfiles⟩

/-- The first equation of a session is plotted. -/
theorem plot_accounts_agree_initial :
    Platform.standard.backend.WritesTags ∧
    (State.initial .standard).sheet.isEmpty = false ∧
    (∀ e ∈ (State.initial .standard).sheet.graphed, ∀ curve, e.reading = .ok curve →
      curve.ends = true) ∧
    (readLine "plot\n".toUTF8.data.toList).1 = .ok "plot" ∧ commandOf? "plot" = some .plot ∧
    ∃ document picture segments w',
      (turn .standard (.initial .standard)).run (fun _ => .saved "plot.svg") (.initial .standard)
        ⟨⟨"plot\n".toUTF8.data.toList, ""⟩, 0, []⟩ = (.done true, .initial .standard, w') ∧
      Picture.read document = some picture ∧ picture.lines.length = segments + 2 ∧
      w'.files = [document] ∧
      w'.console.output = "" ++ "1 equation, 1 graphed\n" ++ "> \n" ++
        plotReport 1 segments (.ok "plot.svg") ++ "\n" := by
  have hb : Platform.standard.backend.WritesTags := writesTags_svgBackend
  have hne : (State.initial .standard).sheet.isEmpty = false := rfl
  have hends : ∀ e ∈ (State.initial .standard).sheet.graphed, ∀ curve, e.reading = .ok curve →
      curve.ends = true := by
    intro e he curve hreading
    have hpast : e.reading.toOption.all (fun c => (c.point? 201).isNone) = true := by
      obtain rfl := List.mem_singleton.1 (List.mem_filter.1 he).1
      decide +kernel
    rw [hreading] at hpast
    exact curve.ends_iff.2 ⟨201, by decide, Option.isNone_iff_eq_none.1 hpast⟩
  have hline : (readLine "plot\n".toUTF8.data.toList).1 = .ok "plot" := by decide +kernel
  have hplot : commandOf? "plot" = some .plot := by decide
  obtain ⟨document, picture, segments, w', hturn, hread, hlines, houtput, hsaved, -⟩ :=
    plot_accounts_agree hb (.initial .standard) (fun _ => .saved "plot.svg")
      ⟨⟨"plot\n".toUTF8.data.toList, ""⟩, 0, []⟩ hne hends hline hplot
  have haxes : (State.initial .standard).window.axisCount = 2 := by decide +kernel
  have hcount : (State.initial .standard).sheet.graphedCount = 1 := by decide +kernel
  have hheader : header (State.initial .standard).sheet = "1 equation, 1 graphed\n" := by
    decide +kernel
  rw [haxes] at hlines
  rw [← hcount, ← hheader]
  exact ⟨hb, hne, hends, hline, hplot, document, picture, segments, w', hturn, hread, hlines,
    hsaved _ rfl, houtput⟩

end Session

end PlotSheet
