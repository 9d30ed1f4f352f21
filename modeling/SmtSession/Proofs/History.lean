import SmtSession.Proofs.Operation
import SmtSession.Proofs.ScriptedCalls

/-!
# Histories of a session

A session on an engine in memory, from its start through any operations of its client. Between them
the engine may be told anew which calls to fail and what to answer, so that every call of every
operation may fail. Nothing else touches the frames or the theory.

Along with the session a history keeps what its client can know: the axioms that were accepted, and
the goals that checks asserted in the frames that are still there.
-/

namespace SmtSession

namespace Scripted

def callsSince (before after : Scripted) : List Event := after.events.drop before.events.length

end Scripted

namespace Session

inductive Step where
  | perform (operation : Operation)
  | script (answers : List (Except String Report)) (conjectureFault : Option String)
      (faults : List (Scripted.Call × Option String))

structure History where
  session : Session Scripted
  accepted : List SExpr := []
  /-- For each frame the goals that checks asserted in it, also in vain. -/
  goals : Stack SExpr := {}

/-- The goals on the stack after a call that an operation makes. Only the check of a goal asserts a
goal. -/
def Operation.noteCall (operation : Operation) (goals : Stack SExpr) :
    Scripted.Event → Stack SExpr
  | .push => goals.push
  | .pop => goals.truncate (goals.depth - 1)
  | .assertConjecture formula =>
    match operation with
    | .checkGoal _ _ => goals.assert formula
    | _ => goals
  | _ => goals

def Operation.noteAxiom (operation : Operation) (result : Except Failure Unit)
    (accepted : List SExpr) : List SExpr :=
  match operation, result with
  | .assume formula, .ok () => accepted ++ [formula]
  | _, _ => accepted

namespace History

def start (settings : Settings) : History := { session := Session.start .empty settings }

def perform (operation : Operation) (history : History) : History :=
  let (result, session) := operation.perform.run history.session
  { session
    accepted := operation.noteAxiom result history.accepted
    goals := (Scripted.callsSince history.session.engine session.engine).foldl operation.noteCall
      history.goals }

theorem perform_eq {history : History} (operation : Operation) {events : List Scripted.Event}
    (h : (operation.perform.run history.session).2.engine.events =
      history.session.engine.events ++ events) :
    history.perform operation =
      { session := (operation.perform.run history.session).2
        accepted := operation.noteAxiom (operation.perform.run history.session).1 history.accepted
        goals := events.foldl operation.noteCall history.goals } := by
  simp [perform, Scripted.callsSince, h]

def take (history : History) : Step → History
  | .perform operation => history.perform operation
  | .script answers conjectureFault faults =>
    let engine := { history.session.engine with answers, conjectureFault, faults }
    { history with session := { history.session with engine } }

def after (settings : Settings) (steps : List Step) : History := steps.foldl take (start settings)

theorem after_induction {motive : History → Prop} (hstart : ∀ settings, motive (start settings))
    (htake : ∀ history step, motive history → motive (history.take step)) (settings : Settings)
    (steps : List Step) : motive (after settings steps) := by
  have hrun (history : History) (h : motive history) : motive (steps.foldl take history) := by
    induction steps generalizing history with
    | nil => exact h
    | cons step steps ih => exact ih (history.take step) (htake history step h)
  exact hrun (start settings) (hstart settings)

end History

end Session

end SmtSession
