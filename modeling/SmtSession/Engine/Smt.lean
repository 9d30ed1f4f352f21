import SmtSession.Engine.Basic
import SmtSession.Model.Reader
import SmtSession.Solver.Dialogue

/-!
# The SMT engine

Runs a session on a solver. With a limit above one, a check that is refuted looks for further
counterexamples: it rules out the values of the latest one in a frame of its own, and checks again.
-/

namespace SmtSession

open Solver

/-- Values that can be written into an assertion. Elements of uninterpreted sorts cannot. -/
def isLiteralText (text : String) : Bool :=
  text = "true" || text = "false" ||
    ['#', 'b'].isPrefixOf text.toList || ['#', 'x'].isPrefixOf text.toList ||
    (text ≠ "" && text.toList.all fun c => c.isDigit || c = '.')

mutual

def SExpr.isLiteral : SExpr → Bool
  | .atom (.numeral _) => true
  | .atom (.symbol text) => isLiteralText text
  | .list (.atom (.symbol "-") :: arg :: args) => areLiterals (arg :: args)
  | .list (.atom (.symbol "/") :: arg :: args) => areLiterals (arg :: args)
  | .list [.atom (.symbol "_"), .atom (.symbol value), _] => ['b', 'v'].isPrefixOf value.toList
  | _ => false

def SExpr.areLiterals : List SExpr → Bool
  | [] => true
  | expr :: exprs => expr.isLiteral && areLiterals exprs

end

def Ty.hasLiterals : Ty → Bool
  | .bool | .int | .real | .bitVector _ => true
  | .map _ _ | .named _ => false

/-- How a solver is started for a session. -/
def Settings.invocation (settings : Settings) (program : String) : Invocation :=
  Invocation.base program
    |>.modelGeneration settings.modelGeneration
    |>.modelCompletion settings.modelCompletion
    |>.typeCheck settings.typeCheck
    |>.timeout settings.timeout?

structure Smt where
  dialogue : Dialogue
  /-- The most counterexamples that one check reports. -/
  limit : Nat
  /-- The declared constants whose values can be ruled out. -/
  constants : List String := []

namespace Smt

def talk {α : Type} (action : Action Dialogue Failure α) : Action Smt Failure α :=
  action.onPart Smt.dialogue (fun smt dialogue => { smt with dialogue }) id

def send (command : SExpr) : Action Smt Failure Unit := talk (Dialogue.send command)

/-- The counterexample of the latest check. The labels come first, since they are those of the
latest check. -/
def counterexample : Action Smt Failure Counterexample := do
  let labels ← talk Dialogue.labels
  let reply ← talk Dialogue.model
  let model ← .ofExcept (Model.ofReply reply)
  pure { model, labels }

def equation? (model : Model) (name : String) : Option SExpr :=
  match model.value? name with
  | some value => if value.isLiteral then some (.application "=" [.symbol name, value]) else none
  | none => none

/-- Rules out the values that a model gives to the constants, if it gives any. -/
def exclusion? (constants : List String) (model : Model) : Option SExpr :=
  match constants.filterMap (equation? model) with
  | [] => none
  | equations => some (.negation (.conjunction equations))

def search : Nat → Counterexample → Action Smt Failure (List Counterexample)
  | 0, _ => pure []
  | count + 1, latest => do
    let smt ← .get
    match exclusion? smt.constants latest.model with
    | none => pure []
    | some clause =>
      send (.application "assert" [clause])
      match ← talk Dialogue.checkSat with
      | .sat =>
        let next ← counterexample
        let others ← search count next
        pure (next :: others)
      | .unsat => pure []
      | .unknown _ => pure []

/-- Looks for further counterexamples in a frame that is dropped in any case. -/
def moreCounterexamples (first : Counterexample) : Action Smt Failure (List Counterexample) := do
  let smt ← .get
  if smt.limit ≤ 1 then pure []
  else
    talk Dialogue.push
    let found ← (search (smt.limit - 1) first).attempt
    talk Dialogue.pop
    .ofExcept found

def check : Action Smt Failure Report := do
  match ← talk Dialogue.checkSat with
  | .unsat => pure ⟨.valid, []⟩
  | .unknown reason => pure ⟨.ofReason reason, []⟩
  | .sat =>
    let first ← counterexample
    let others ← moreCounterexamples first
    pure ⟨.invalid, first :: others⟩

def declareConst (name : String) (ty : Ty) : Action Smt Failure Unit := do
  send (.application "declare-fun" [.symbol name, .list [], ty.toSort])
  if ty.hasLiterals then
    Action.modify fun smt => { smt with constants := smt.constants ++ [name] }

instance : Engine Smt where
  declareSort name := send (.application "declare-sort" [.symbol name, .numeral 0])
  declareConst := declareConst
  declareFun name domain range :=
    send (.application "declare-fun" [.symbol name, .list (domain.map Ty.toSort), range.toSort])
  push := talk Dialogue.push
  pop := talk Dialogue.pop
  assertAxiom formula := send (.application "assert" [formula])
  assertConjecture formula := send (.application "assert" [.negation formula])
  check := check
  remark text smt := { smt with dialogue := smt.dialogue.remark text }
  saveTranscript name smt := { smt with dialogue := (smt.dialogue.saveTranscript name).2 }

def start (host : Dialogue.Host) (program : String) (settings : Settings)
    (archive : Option Archive) : Except Failure Unit × Smt :=
  let settings := settings.enforced
  let (result, dialogue) := Dialogue.start host (settings.invocation program) archive
  (result, { dialogue, limit := settings.reportLimit })

end Smt

end SmtSession
