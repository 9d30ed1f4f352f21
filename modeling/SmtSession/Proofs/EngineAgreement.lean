import SmtSession.Proofs.CommandStack
import SmtSession.Proofs.ScriptedCalls

/-!
# Agreement of the engines

A session on a solver and one on an engine in memory, with the same operations and the same results
of the checks, hold the same frames. What the solver replies does not matter for it, only that it
takes what is written to it.
-/

namespace SmtSession

open Solver

/-- What a solver is told to assert. -/
def Scripted.Assertion.formula : Scripted.Assertion → SExpr
  | .axiomatic formula => formula
  | .conjectured formula => formula.negation

/-! ### Calls -/

namespace Scripted

structure Unfaulted (engine : Scripted) : Prop where
  faults_eq : engine.faults = []
  conjectureFault_eq : engine.conjectureFault = none

def withAnswers (answers : List (Except String Report)) (engine : Scripted) : Scripted :=
  { engine with answers }

variable {engine : Scripted} {answers : List (Except String Report)}

theorem run_perform (h : engine.Unfaulted) (call : Call) (event : Event)
    (effect : Scripted → Scripted) :
    (perform call event effect).run engine = (.ok (), effect (engine.record event)) := by
  have hfault : (checkFault call).run engine = (.ok (), engine) := by
    obtain ⟨hfaults, -⟩ := h
    obtain ⟨events, base, frames, answers, conjectureFault, faults⟩ := engine
    obtain rfl : faults = [] := hfaults
    rfl
  rw [perform, Action.run_bind_ok hfault, Action.run_modify]

/-- A call that succeeds, whatever answers are left for the checks after it. -/
def Obeys (action : Action Scripted Solver.Failure Unit) (engine : Scripted)
    (stack : Stack Assertion) : Prop :=
  ∃ after : Scripted, after.Unfaulted ∧ after.stack = stack ∧
    ∀ answers, action.run (engine.withAnswers answers) = (.ok (), after.withAnswers answers)

theorem obeys_perform (h : engine.Unfaulted) (call : Call) (event : Event)
    {effect : Scripted → Scripted} {stack : Stack Assertion}
    (heffect : ∀ answers, effect ((engine.withAnswers answers).record event) =
      (effect (engine.record event)).withAnswers answers)
    (hunfaulted : (effect (engine.record event)).Unfaulted)
    (hstack : (effect (engine.record event)).stack = stack) :
    Obeys (perform call event effect) engine stack := by
  refine ⟨effect (engine.record event), hunfaulted, hstack, ?_⟩
  intro answers
  have hqueued : (engine.withAnswers answers).Unfaulted := ⟨h.faults_eq, h.conjectureFault_eq⟩
  rw [run_perform hqueued, heffect]

theorem obeys_declare (h : engine.Unfaulted) (call : Call) (event : Event) :
    Obeys (perform call event id) engine engine.stack :=
  obeys_perform h call event (fun _ => rfl) ⟨h.faults_eq, h.conjectureFault_eq⟩ rfl

theorem obeys_push (h : engine.Unfaulted) : Obeys Engine.push engine engine.stack.push :=
  obeys_perform h .push .push (fun _ => rfl) ⟨h.faults_eq, h.conjectureFault_eq⟩ rfl

theorem assert_withAnswers (assertion : Assertion) (engine : Scripted) :
    (engine.withAnswers answers).assert assertion =
      (engine.assert assertion).withAnswers answers := by
  unfold assert withAnswers
  cases engine.frames <;> rfl

theorem Unfaulted.assert (h : engine.Unfaulted) (assertion : Assertion) :
    (engine.assert assertion).Unfaulted := by
  unfold Scripted.assert
  split
  · exact ⟨h.faults_eq, h.conjectureFault_eq⟩
  · exact ⟨h.faults_eq, h.conjectureFault_eq⟩

theorem obeys_assertAxiom (h : engine.Unfaulted) (formula : SExpr) :
    Obeys (Engine.assertAxiom formula) engine (engine.stack.assert (.axiomatic formula)) := by
  refine obeys_perform h .assertAxiom (.assertAxiom formula) ?_ ?_ ?_
  · intro answers
    exact assert_withAnswers (.axiomatic formula) (engine.record (.assertAxiom formula))
  · have hrecord : (engine.record (.assertAxiom formula)).Unfaulted :=
      ⟨h.faults_eq, h.conjectureFault_eq⟩
    exact hrecord.assert (.axiomatic formula)
  · exact stack_assert (.axiomatic formula) (engine.record (.assertAxiom formula))

theorem run_conjecture (h : engine.Unfaulted) (formula : SExpr) :
    (conjecture formula).run engine =
      (.ok (), (engine.record (.assertConjecture formula)).assert (.conjectured formula)) := by
  obtain ⟨-, hfault⟩ := h
  obtain ⟨events, base, frames, answers, conjectureFault, faults⟩ := engine
  obtain rfl : conjectureFault = none := hfault
  rfl

theorem obeys_assertConjecture (h : engine.Unfaulted) (formula : SExpr) :
    Obeys (Engine.assertConjecture formula) engine
      (engine.stack.assert (.conjectured formula)) := by
  have hrecord : (engine.record (.assertConjecture formula)).Unfaulted :=
    ⟨h.faults_eq, h.conjectureFault_eq⟩
  refine ⟨(engine.record (.assertConjecture formula)).assert (.conjectured formula),
    hrecord.assert _, stack_assert _ _, ?_⟩
  intro answers
  have hqueued : (engine.withAnswers answers).Unfaulted := ⟨h.faults_eq, h.conjectureFault_eq⟩
  rw [← assert_withAnswers]
  exact run_conjecture hqueued formula

theorem obeys_pop (h : engine.Unfaulted) {stack : Stack Assertion}
    (hpop : engine.stack.pop? = some stack) : Obeys Engine.pop engine stack := by
  obtain ⟨events, base, frames, answers, conjectureFault, faults⟩ := engine
  cases frames with
  | nil => contradiction
  | cons frame frames =>
      obtain rfl := Option.some.inj hpop
      obtain rfl : conjectureFault = none := h.conjectureFault_eq
      obtain rfl : faults = [] := h.faults_eq
      exact ⟨{ events := events ++ [.pop], base, frames }, ⟨rfl, rfl⟩, rfl, fun answers => rfl⟩

end Scripted

/-! ### The two engines -/

namespace Smt

/-- The solver has the frames of an engine in memory that is not told to fail. -/
structure Matches (smt : Smt) (engine : Scripted) : Prop where
  stack_eq : smt.stack? = some (engine.stack.map Scripted.Assertion.formula)
  unfaulted : engine.Unfaulted

variable {smt : Smt} {engine : Scripted}

/-- A call of both engines that leaves them with the same frames, if its writes succeed. -/
def Agrees (action : Action Smt Failure Unit) (action' : Action Scripted Failure Unit) (smt : Smt)
    (engine : Scripted) (stack : Stack Scripted.Assertion) : Prop :=
  Written (action.run smt).1 → ∃ smt' engine',
    action.run smt = (.ok (), smt') ∧ smt'.Matches engine' ∧ engine'.stack = stack ∧
      ∀ answers, action'.run (engine.withAnswers answers) = (.ok (), engine'.withAnswers answers)

theorem Matches.told (h : smt.Matches engine) {action' : Action Scripted Failure Unit}
    {stack : Stack Scripted.Assertion} {command : SExpr}
    (hobeys : Scripted.Obeys action' engine stack)
    (hcommand : (engine.stack.map Scripted.Assertion.formula).obey? command =
      some (stack.map Scripted.Assertion.formula)) :
    Agrees (Smt.send command) action' smt engine stack := by
  intro hwritten
  rcases told_cases command smt with ⟨smt', hrun, hconversation⟩ | hrun
  · obtain ⟨engine', hunfaulted, hstack, hrun'⟩ := hobeys
    refine ⟨smt', engine', hrun, ⟨?_, hunfaulted⟩, hstack, hrun'⟩
    rw [stack?_eq hconversation.log_eq h.stack_eq, hstack]
    exact Stack.obeyAll?_cons hcommand
  · rw [hrun] at hwritten
    exact absurd rfl hwritten

theorem agrees_push (h : smt.Matches engine) :
    Agrees Engine.push Engine.push smt engine engine.stack.push :=
  h.told (Scripted.obeys_push h.unfaulted) (Stack.obey?_push _)

theorem agrees_pop (h : smt.Matches engine) {stack : Stack Scripted.Assertion}
    (hpop : engine.stack.pop? = some stack) :
    Agrees Engine.pop Engine.pop smt engine stack := by
  have hcommand : (engine.stack.map Scripted.Assertion.formula).obey? popCommand =
      some (stack.map Scripted.Assertion.formula) := by
    rw [Stack.obey?_pop, Stack.pop?_map, hpop]
    rfl
  exact h.told (Scripted.obeys_pop h.unfaulted hpop) hcommand

theorem agrees_assertAxiom (h : smt.Matches engine) (formula : SExpr) :
    Agrees (Engine.assertAxiom formula) (Engine.assertAxiom formula) smt engine
      (engine.stack.assert (.axiomatic formula)) := by
  apply h.told (Scripted.obeys_assertAxiom h.unfaulted formula)
  rw [Stack.map_assert]
  exact Stack.obey?_assert _ formula

theorem agrees_assertConjecture (h : smt.Matches engine) (formula : SExpr) :
    Agrees (Engine.assertConjecture formula) (Engine.assertConjecture formula) smt engine
      (engine.stack.assert (.conjectured formula)) := by
  apply h.told (Scripted.obeys_assertConjecture h.unfaulted formula)
  rw [Stack.map_assert]
  exact Stack.obey?_assert _ formula.negation

theorem agrees_declare (h : smt.Matches engine) (call : Scripted.Call) (event : Scripted.Event)
    {head : String} (hhead : head ∉ ["push", "pop", "assert"]) (args : List SExpr) :
    Agrees (Smt.send (.application head args)) (Scripted.perform call event id) smt engine
      engine.stack :=
  h.told (Scripted.obeys_declare h.unfaulted call event) (Stack.obey?_of_head hhead _)

theorem agrees_declareConst (h : smt.Matches engine) (name : String) (ty : Ty) :
    Agrees (Engine.declareConst name ty) (Engine.declareConst name ty) smt engine engine.stack := by
  have hsend : Agrees (Smt.send (.application "declare-fun" [.symbol name, .list [], ty.toSort]))
      (Scripted.perform .declareConst (.declareConst name ty) id) smt engine engine.stack :=
    agrees_declare h _ _ (by decide) _
  intro hwritten
  change Written ((declareConst name ty).run smt).1 at hwritten
  rcases hrun : (Smt.send (.application "declare-fun" [.symbol name, .list [], ty.toSort])).run smt
    with ⟨failure | _, sent⟩
  · rw [declareConst, Action.run_bind_error hrun] at hwritten
    obtain ⟨_, _, hok, -⟩ := hsend (by rw [hrun]; exact hwritten)
    rw [hrun] at hok
    simp at hok
  · obtain ⟨smt', engine', hok, hmatches, hstack, hrun'⟩ := hsend (by rw [hrun]; exact nofun)
    rw [hrun, Prod.mk.injEq] at hok
    obtain ⟨-, rfl⟩ := hok
    change ∃ smt' engine', (declareConst name ty).run smt = _ ∧ _
    rw [declareConst, Action.run_bind_ok hrun]
    by_cases hliterals : ty.hasLiterals
    · rw [if_pos hliterals]
      exact ⟨_, engine', rfl, ⟨hmatches.stack_eq, hmatches.unfaulted⟩, hstack, hrun'⟩
    · rw [if_neg hliterals]
      exact ⟨_, engine', rfl, hmatches, hstack, hrun'⟩

theorem agrees_declareTo (h : smt.Matches engine) (declaration : Declaration) :
    Agrees (Session.declareTo declaration) (Session.declareTo declaration) smt engine
      engine.stack := by
  cases declaration with
  | type name => exact agrees_declare h _ _ (by decide) _
  | constant content => exact agrees_declareConst h content.name content.ty
  | global content => exact agrees_declareConst h content.name content.ty
  | function content =>
      simp only [Session.declareTo]
      split
      · exact agrees_declare h _ _ (by decide) _
      · intro _
        exact ⟨smt, engine, rfl, h, rfl, fun answers => rfl⟩

def answerOf : Except Failure Report → Except String Report
  | .ok report => .ok report
  | .error failure => .error failure.message

/-- A check changes no frame of either engine, if the one in memory is given its result. -/
theorem matches_check (h : smt.Matches engine) (hwritten : Written (Engine.check.run smt).1) :
    ∃ engine', (Engine.check.run smt).2.Matches engine' ∧ engine'.stack = engine.stack ∧
      ∀ answers,
        Engine.check.run (engine.withAnswers (answerOf (Engine.check.run smt).1 :: answers)) =
          ((answerOf (Engine.check.run smt).1).mapError .refused,
            engine'.withAnswers answers) := by
  obtain ⟨commands, hlog, hobey, -⟩ := obeyAll?_check hwritten _
  refine ⟨engine.record .check,
    ⟨?_, h.unfaulted.faults_eq, h.unfaulted.conjectureFault_eq⟩, rfl, ?_⟩
  · exact (stack?_eq hlog h.stack_eq).trans hobey
  · intro answers
    cases (Engine.check.run smt).1 <;> rfl

theorem Matches.saveTranscript (h : smt.Matches engine) (name : String) :
    (Engine.saveTranscript name smt).Matches (Engine.saveTranscript name engine) := by
  refine ⟨?_, h.unfaulted.faults_eq, h.unfaulted.conjectureFault_eq⟩
  rw [stack?, log_saveTranscript]
  exact h.stack_eq

end Smt

end SmtSession
