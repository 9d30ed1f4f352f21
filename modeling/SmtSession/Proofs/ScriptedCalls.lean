import SmtSession.Proofs.Operation
import SmtSession.Proofs.Stack

/-!
# Calls of an engine in memory

What one call records and does to the frames. A call that is told to fail leaves the frames as they
were, so everything a session does to them is the sum of its calls that succeed.
-/

namespace SmtSession.Scripted

/-- The calls recorded between two states of an engine, and the frames of the later one. -/
structure Called (before after : Scripted) (events : List Event) (stack : Stack Assertion) :
    Prop where
  events_eq : after.events = before.events ++ events
  stack_eq : after.stack = stack

def Event.isDeclaration : Event → Bool
  | .declareSort _ | .declareConst _ _ | .declareFun _ _ _ => true
  | _ => false

/-- A call that either succeeds, and then leaves these events and frames, or changes nothing. -/
def Answers (action : Action Scripted Solver.Failure Unit) (engine : Scripted)
    (events : List Event) (stack : Stack Assertion) : Prop :=
  (∃ after, action.run engine = (.ok (), after) ∧ engine.Called after events stack) ∨
    ∃ failure after, action.run engine = (.error failure, after) ∧
      engine.Called after [] engine.stack

variable {first second third : Scripted} {events later : List Event} {stack : Stack Assertion}

theorem Called.refl (engine : Scripted) : engine.Called engine [] engine.stack :=
  ⟨(List.append_nil _).symm, rfl⟩

theorem Called.trans (h : first.Called second events second.stack)
    (h' : second.Called third later stack) : first.Called third (events ++ later) stack := by
  refine ⟨?_, h'.stack_eq⟩
  rw [h'.events_eq, h.events_eq, List.append_assoc]

theorem Called.record (h : first.Called second events stack) (event : Event) :
    first.Called (second.record event) (events ++ [event]) stack := by
  refine ⟨?_, h.stack_eq⟩
  simp [Scripted.record, h.events_eq]

theorem run_checkFault (call : Call) (engine : Scripted) :
    ∃ faults, (checkFault call).run engine = (.ok (), { engine with faults }) ∨
      ∃ message, (checkFault call).run engine = (.error (.refused message),
        { engine with faults }) := by
  refine ⟨engine.faults.eraseP (·.1 = call), ?_⟩
  simp only [checkFault, Action.run]
  split
  · exact Or.inr ⟨_, rfl⟩
  · exact Or.inl rfl

theorem answers_perform (call : Call) (event : Event) (effect : Scripted → Scripted)
    (hevents : ∀ engine, (effect engine).events = engine.events)
    (hstack : ∀ before after : Scripted, before.stack = after.stack →
      (effect before).stack = (effect after).stack) (engine : Scripted) :
    Answers (perform call event effect) engine [event] (effect engine).stack := by
  obtain ⟨faults, hfault | ⟨message, hfault⟩⟩ := run_checkFault call engine
  · refine Or.inl ⟨effect (Scripted.record event { engine with faults }), ?_, ?_, ?_⟩
    · rw [perform, Action.run_bind_ok hfault, Action.run_modify]
    · exact hevents _
    · exact hstack _ _ rfl
  · refine Or.inr ⟨.refused message, { engine with faults }, ?_, (List.append_nil _).symm, rfl⟩
    rw [perform, Action.run_bind_error hfault]

theorem answers_push (engine : Scripted) :
    Answers Engine.push engine [.push] engine.stack.push := by
  refine answers_perform .push .push
    (fun scripted => { scripted with frames := [] :: scripted.frames }) (fun _ => rfl) ?_ engine
  intro before after h
  exact congrArg Stack.push h

theorem answers_assertAxiom (formula : SExpr) (engine : Scripted) :
    Answers (Engine.assertAxiom formula) engine [.assertAxiom formula]
      (engine.stack.assert (.axiomatic formula)) := by
  rw [← stack_assert]
  refine answers_perform .assertAxiom (.assertAxiom formula) (assert (.axiomatic formula))
    ?_ ?_ engine
  · intro engine
    unfold assert
    split <;> rfl
  · intro before after h
    rw [stack_assert, stack_assert, h]

theorem answers_pop {engine : Scripted} (h : engine.depth ≠ 0) :
    Answers Engine.pop engine [.pop] (engine.stack.truncate (engine.depth - 1)) := by
  rcases answers_perform .pop .pop id (fun _ => rfl) (fun _ _ h => h) engine with
    ⟨after, hrun, hcalled⟩ | ⟨failure, after, hrun, hcalled⟩
  · have hframes : after.frames = engine.frames := congrArg Stack.frames hcalled.stack_eq
    cases hcons : engine.frames with
    | nil =>
        rw [depth, hcons] at h
        exact absurd rfl h
    | cons frame frames =>
        rw [hcons] at hframes
        refine Or.inl ⟨{ after with frames }, ?_, hcalled.events_eq, ?_⟩
        · change ((perform .pop .pop id) >>= fun _ => dropFrame).run engine = _
          rw [Action.run_bind_ok hrun]
          simp [dropFrame, Action.run, hframes]
        · have hbase : after.base = engine.base := congrArg Stack.base hcalled.stack_eq
          simp [Scripted.stack, Stack.truncate, Stack.depth, depth, hcons, hbase]
  · refine Or.inr ⟨failure, after, ?_, hcalled⟩
    change ((perform .pop .pop id) >>= fun _ => dropFrame).run engine = _
    rw [Action.run_bind_error hrun]

/-- A conjecture is recorded also when it fails. -/
theorem run_assertConjecture (formula : SExpr) (engine : Scripted) :
    (∃ after, (Engine.assertConjecture formula).run engine = (.ok (), after) ∧
        engine.Called after [.assertConjecture formula]
          (engine.stack.assert (.conjectured formula))) ∨
      ∃ failure after, (Engine.assertConjecture formula).run engine = (.error failure, after) ∧
        engine.Called after [.assertConjecture formula] engine.stack := by
  change (∃ after, conjecture formula engine = _ ∧ _) ∨
    ∃ failure after, conjecture formula engine = _ ∧ _
  unfold conjecture
  simp only
  split
  · exact Or.inr ⟨_, _, rfl, rfl, rfl⟩
  · refine Or.inl ⟨_, rfl, ?_, ?_⟩
    · unfold assert
      split <;> rfl
    · rw [stack_assert]
      rfl

theorem called_check (engine : Scripted) :
    engine.Called ((Engine.check : Action Scripted _ _).run engine).2 [.check] engine.stack := by
  change engine.Called (nextAnswer engine).2 [.check] engine.stack
  unfold nextAnswer
  simp only
  split <;> exact ⟨rfl, rfl⟩

theorem called_declareTo (declaration : Declaration) (engine : Scripted) :
    ∃ events, engine.Called ((Session.declareTo declaration).run engine).2 events engine.stack ∧
      ∀ event ∈ events, event.isDeclaration := by
  have hperform (call : Call) {event : Event} (hevent : event.isDeclaration) :
      ∃ events, engine.Called ((perform call event id).run engine).2 events engine.stack ∧
        ∀ event ∈ events, event.isDeclaration := by
    rcases answers_perform call event id (fun _ => rfl) (fun _ _ h => h) engine with
      ⟨after, hrun, hcalled⟩ | ⟨failure, after, hrun, hcalled⟩
    · rw [hrun]
      exact ⟨[event], hcalled, by simpa using hevent⟩
    · rw [hrun]
      exact ⟨[], hcalled, by simp⟩
  cases declaration with
  | type name => exact hperform .declareSort rfl
  | constant content => exact hperform .declareConst rfl
  | global content => exact hperform .declareConst rfl
  | function content =>
      simp only [Session.declareTo]
      split
      · exact hperform .declareFun rfl
      · exact ⟨[], Called.refl engine, by simp⟩

end SmtSession.Scripted
