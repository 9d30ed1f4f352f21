import SmtSession.Engine.Basic
import SmtSession.Label
import SmtSession.Settings.Basic
import SmtSession.Signature

/-!
# Sessions

A session declares symbols, collects the axioms of a theory, and checks goals against it. It keeps
track of the engine's frames: how many there are, below which the theory was asserted, and which
holds the goal of the latest check.
-/

namespace SmtSession

structure Session (σ : Type) where
  engine : σ
  signature : Signature := .empty
  /-- The theory, in the order its axioms were added. -/
  axioms : List SExpr := []
  settings : Settings
  depth : Nat := 0
  /-- The depth at which the theory was asserted, while it is. -/
  theoryDepth : Option Nat := none
  /-- The depth of the goal's frame, while there is one. -/
  goalDepth : Option Nat := none
  verdict : Verdict := .undetermined
  counterexamples : List Counterexample := []

namespace Session

inductive Failure where
  | declaration (error : DeclarationError)
  | label (error : UnknownLabel)
  | solver (failure : Solver.Failure)
  /-- An axiom would come after the theory was asserted. -/
  | lateAxiom
  | noFrame
deriving DecidableEq

def Failure.message : Failure → String
  | .declaration error => error.message
  | .label error => "label protocol violation: " ++ error.message
  | .solver failure => "solver unavailable: " ++ failure.message
  | .lateAxiom => "background theory is already asserted; axioms can no longer be added"
  | .noFrame => "pop with no backtrack point"

inductive Phase where
  | idle
  | loaded
  | goalOpen
deriving DecidableEq

variable {σ : Type}

/-- A session on an engine that has been started with `settings`. -/
def start (engine : σ) (settings : Settings) : Session σ :=
  { engine, settings := settings.enforced }

def phase (session : Session σ) : Phase :=
  if session.goalDepth.isSome then .goalOpen
  else if session.theoryDepth.isSome then .loaded
  else .idle

def theory (session : Session σ) : SExpr := .conjunction session.axioms

def call {α : Type} (action : Action σ Solver.Failure α) : Action (Session σ) Failure α :=
  action.onPart Session.engine (fun session engine => { session with engine }) .solver

/-- Has the engine do something that cannot fail. -/
def note (f : σ → σ) : Action (Session σ) Failure Unit :=
  .modify fun session => { session with engine := f session.engine }

def onSignature {α : Type} (action : Action Signature DeclarationError α) :
    Action (Session σ) Failure α :=
  action.onPart Session.signature (fun session signature => { session with signature }) .declaration

/-- Records a declaration that the signature accepts, and has the engine take it. -/
def declareWith (declaration : Declaration) (take : Action σ Solver.Failure Unit) :
    Action (Session σ) Failure Unit := do
  onSignature (Signature.enter declaration)
  call take

/-- The range comes from a check of its own, before the one that goes with the recording. -/
def declareFunction [Engine σ] (function : Function) : Action (Session σ) Failure Unit := do
  let range ← onSignature (Signature.checkFunction function)
  declareWith (.function function) (Engine.declareFun function.name function.inputs range)

def declare [Engine σ] : Declaration → Action (Session σ) Failure Unit
  | .type name => declareWith (.type name) (Engine.declareSort name)
  | .constant content =>
    declareWith (.constant content) (Engine.declareConst content.name content.ty)
  | .function content => declareFunction content
  | .global content => declareWith (.global content) (Engine.declareConst content.name content.ty)

/-- Adds an axiom whether or not the theory has been asserted. -/
def extendTheory (formula : SExpr) (session : Session σ) : Session σ :=
  { session with axioms := session.axioms ++ [formula] }

/-- Adds an axiom while the theory has not been asserted; later it would never reach the engine. -/
def assume (formula : SExpr) : Action (Session σ) Failure Unit := do
  let session ← .get
  if session.theoryDepth.isSome then .fail .lateAxiom
  else .modify (extendTheory formula)

end Session

end SmtSession
