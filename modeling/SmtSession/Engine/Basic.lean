import SmtSession.Action
import SmtSession.Model.Basic
import SmtSession.Solver.Failure
import SmtSession.Ty
import SmtSession.Verdict

/-!
# Engines

What a session needs from a solver: declarations, a stack of frames with assertions in them, and
checks of what is asserted.
-/

namespace SmtSession

/-- A model that refutes a formula, and the labels of the parts that matter, as the solver writes
them. -/
structure Counterexample where
  model : Model
  labels : List String
deriving DecidableEq

/-- The result of a check. Only an invalid one has counterexamples. -/
structure Report where
  verdict : Verdict
  counterexamples : List Counterexample := []
deriving DecidableEq

/-- The operations of a solver with state `σ`. -/
class Engine (σ : Type) where
  declareSort : String → Action σ Solver.Failure Unit
  declareConst : String → Ty → Action σ Solver.Failure Unit
  declareFun : String → List Ty → Ty → Action σ Solver.Failure Unit
  push : Action σ Solver.Failure Unit
  /-- Drops the latest frame and what was asserted in it. -/
  pop : Action σ Solver.Failure Unit
  assertAxiom : SExpr → Action σ Solver.Failure Unit
  /-- Asserts the negation, so that a check decides whether the formula is valid. -/
  assertConjecture : SExpr → Action σ Solver.Failure Unit
  check : Action σ Solver.Failure Report
  remark : String → σ → σ
  saveTranscript : String → σ → σ

end SmtSession
