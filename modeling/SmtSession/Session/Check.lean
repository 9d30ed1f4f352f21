import SmtSession.Session.Basic

/-!
# Checks

A goal can be checked in two ways. `checkGoal` asserts the theory once and keeps one goal at a time
in a frame on top of it. `stageGoal` opens a frame for the theory and one for the goal and leaves
both to the caller.
-/

namespace SmtSession.Session

variable {σ : Type} [Engine σ]

def push : Action (Session σ) Failure Unit := do
  call Engine.push
  .modify fun session => { session with depth := session.depth + 1 }

/-- A level is forgotten when its frame is gone. -/
def keepDepth (depth : Nat) : Option Nat → Option Nat
  | some level => if depth < level then none else some level
  | none => none

def leaveFrame (session : Session σ) : Session σ :=
  let depth := session.depth - 1
  { session with
    depth
    goalDepth := keepDepth depth session.goalDepth
    theoryDepth := keepDepth depth session.theoryDepth }

def pop : Action (Session σ) Failure Unit := do
  let session ← .get
  if session.depth = 0 then .fail .noFrame
  else
    call Engine.pop
    .modify leaveFrame

def popMany : Nat → Action (Session σ) Failure Unit
  | 0 => pure ()
  | count + 1 => do
    pop
    popMany count

def assumeInFrame (formula : SExpr) : Action (Session σ) Failure Unit := do
  push
  call (Engine.assertAxiom formula)

def refuteInFrame (formula : SExpr) : Action (Session σ) Failure Unit := do
  push
  call (Engine.assertConjecture formula)

def stageGoal (name : String) (goal : SExpr) : Action (Session σ) Failure Unit := do
  note (Engine.remark ("prepare " ++ name))
  let session ← .get
  assumeInFrame session.theory
  refuteInFrame goal

def clear (session : Session σ) : Session σ :=
  { session with verdict := .undetermined, counterexamples := [] }

def conclude (report : Report) (session : Session σ) : Session σ :=
  { session with verdict := report.verdict, counterexamples := report.counterexamples }

/-- Checks what is asserted. The transcript is saved also when the check fails, and a check that
fails leaves no verdict. -/
def checkAsserted (name : String) : Action (Session σ) Failure Unit := do
  .modify clear
  let result ← (call Engine.check).attempt
  note (Engine.saveTranscript name)
  let report ← .ofExcept result
  .modify (conclude report)

def dropGoal : Action (Session σ) Failure Unit := do
  let session ← .get
  match session.goalDepth with
  | some level => popMany (session.depth + 1 - level)
  | none => pure ()

/-- Asserts the theory in the latest frame, unless it is asserted already. -/
def loadTheory : Action (Session σ) Failure Unit := do
  let session ← .get
  if session.theoryDepth.isNone then
    call (Engine.assertAxiom session.theory)
    .modify fun session => { session with theoryDepth := some session.depth }

/-- Checks a goal against the theory in a frame of its own, in place of the goal before it. The
frame is the goal's as soon as it is open, so that the next check drops it also when the goal does
not reach the engine. -/
def checkGoal (name : String) (goal : SExpr) : Action (Session σ) Failure Unit := do
  dropGoal
  loadTheory
  note (Engine.remark ("check " ++ name))
  push
  .modify fun session => { session with goalDepth := some session.depth }
  call (Engine.assertConjecture goal)
  checkAsserted name

structure Finding where
  labels : List Label
  model : Model
deriving DecidableEq

omit [Engine σ] in
/-- Decodes the labels of all counterexamples, or refuses the first label that is unknown. -/
def findings : List Counterexample → Except UnknownLabel (List Finding)
  | [] => .ok []
  | counterexample :: counterexamples =>
    match Label.readAll counterexample.labels with
    | .error error => .error error
    | .ok labels => (findings counterexamples).map (⟨labels, counterexample.model⟩ :: ·)

/-- What the latest check tells: the counterexamples to report, in order, and the verdict. An
unknown label anywhere leaves nothing to report. -/
structure Outcome where
  findings : List Finding
  result : Except Failure Verdict

omit [Engine σ] in
def outcome (session : Session σ) : Outcome :=
  if session.verdict = .invalid then
    match findings session.counterexamples with
    | .ok findings => ⟨findings, .ok .invalid⟩
    | .error error => ⟨[], .error (.label error)⟩
  else ⟨[], .ok session.verdict⟩

end SmtSession.Session
