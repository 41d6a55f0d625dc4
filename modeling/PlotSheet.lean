import PlotSheet.Main
import PlotSheet.Proofs.Sheet.History
import PlotSheet.Proofs.Curve.Ending
import PlotSheet.Proofs.Curve.Grid
import PlotSheet.Proofs.Equation.Blame
import PlotSheet.Proofs.Equation.Promises
import PlotSheet.Proofs.Equation.Display
import PlotSheet.Proofs.Equation.Dispatch
import PlotSheet.Proofs.Equation.Evidence
import PlotSheet.Proofs.Equation.Note
import PlotSheet.Proofs.Equation.RangeOrder
import PlotSheet.Proofs.Equation.Spelling
import PlotSheet.Proofs.Equation.Sum
import PlotSheet.Proofs.Equation.ZeroTerms
import PlotSheet.Proofs.Drawing.Axes
import PlotSheet.Proofs.Drawing.Canvas
import PlotSheet.Proofs.Drawing.Exclusion
import PlotSheet.Proofs.Drawing.Joined
import PlotSheet.Proofs.Plane.Projection
import PlotSheet.Proofs.Color
import PlotSheet.Proofs.Sheet.Plot
import PlotSheet.Proofs.Session.Plot
import PlotSheet.Proofs.Session.Prompts
import PlotSheet.Proofs.Session.Safety
import PlotSheet.Proofs.Text.Narrowing
import PlotSheet.Proofs.Text.Separation
