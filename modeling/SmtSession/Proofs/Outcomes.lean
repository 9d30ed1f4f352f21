import SmtSession.Proofs.History

/-!
# Outcomes of the operations on an engine in memory

Every way an operation can end, with the session it leaves and the calls and frames of the engine.
All that is proved of histories rests on these case analyses.
-/

namespace SmtSession.Session

open Scripted

/-- The levels that a session remembers fit the frames of its engine. -/
structure Levelled (session : Session Scripted) : Prop where
  depth_eq : session.depth = session.engine.depth
  theory_le : ∀ level, session.theoryDepth = some level → level ≤ session.depth
  goal_le : ∀ level, session.goalDepth = some level →
    ∃ lower, session.theoryDepth = some lower ∧ lower < level ∧ level ≤ session.depth

variable {session : Session Scripted} {engine : Scripted}

theorem Levelled.keptDepth_le (h : session.Levelled) : session.keptDepth ≤ session.depth := by
  unfold keptDepth
  split
  · rename_i level hgoal
    obtain ⟨lower, -, -, hle⟩ := h.goal_le level hgoal
    omega
  · exact Nat.le_refl _

theorem Levelled.theory_le_keptDepth (h : session.Levelled) {level : Nat}
    (htheory : session.theoryDepth = some level) : level ≤ session.keptDepth := by
  unfold keptDepth
  split
  · rename_i goal hgoal
    obtain ⟨lower, hlower, hlt, -⟩ := h.goal_le goal hgoal
    rw [htheory, Option.some.injEq] at hlower
    omega
  · exact h.theory_le level htheory

theorem Levelled.lower_depth (h : session.Levelled) : session.lower session.depth = session := by
  have hgoal : keepDepth session.depth session.goalDepth = session.goalDepth := by
    cases hcase : session.goalDepth with
    | none => rfl
    | some level =>
        obtain ⟨-, -, -, hle⟩ := h.goal_le level hcase
        exact keepDepth_of_le hle
  have htheory : keepDepth session.depth session.theoryDepth = session.theoryDepth := by
    cases hcase : session.theoryDepth with
    | none => rfl
    | some level => exact keepDepth_of_le (h.theory_le level hcase)
  unfold lower
  rw [hgoal, htheory]

/-- Dropping frames forgets the levels that are gone with them, and the goal before the theory. -/
theorem Levelled.lower (h : session.Levelled) {depth : Nat} (hdepth : depth ≤ session.depth)
    {events : List Event} (hcalled : session.engine.Called engine events
      (session.engine.stack.truncate depth)) :
    (Session.lower depth { session with engine }).Levelled := by
  constructor
  · change depth = engine.depth
    rw [← depth_stack, hcalled.stack_eq, Stack.depth_truncate, depth_stack, ← h.depth_eq]
    omega
  · intro level htheory
    exact (keepDepth_eq_some htheory).2
  · intro level hgoal
    obtain ⟨hgoal, hle⟩ := keepDepth_eq_some hgoal
    obtain ⟨lower, htheory, hlt, -⟩ := h.goal_le level hgoal
    refine ⟨lower, ?_, hlt, hle⟩
    change keepDepth depth session.theoryDepth = some lower
    rw [htheory, keepDepth_of_le (by omega)]

theorem Levelled.lower_of_goal_le (h : session.Levelled) {level depth : Nat}
    (hgoal : session.goalDepth = some level) (hle : level ≤ depth) (engine : Scripted) :
    Session.lower depth { session with engine } = { session with engine, depth } := by
  obtain ⟨lower, htheory, hlt, -⟩ := h.goal_le level hgoal
  unfold Session.lower
  rw [hgoal, htheory, keepDepth_of_le hle, keepDepth_of_le (show lower ≤ depth by omega)]

theorem Levelled.lower_keptDepth (h : session.Levelled) (engine : Scripted) :
    Session.lower session.keptDepth { session with engine } =
      { session with engine, depth := session.keptDepth, goalDepth := none } := by
  have hgoal : keepDepth session.keptDepth session.goalDepth = none := by
    cases hcase : session.goalDepth with
    | none => rfl
    | some level =>
        obtain ⟨lower, -, hlt, -⟩ := h.goal_le level hcase
        have hkept : session.keptDepth = level - 1 := by simp [keptDepth, hcase]
        rw [hkept]
        exact keepDepth_of_lt (by omega)
  have htheory : keepDepth session.keptDepth session.theoryDepth = session.theoryDepth := by
    cases hcase : session.theoryDepth with
    | none => rfl
    | some level => exact keepDepth_of_le (h.theory_le_keptDepth hcase)
  unfold Session.lower
  rw [hgoal, htheory]

/-! ### Calls -/

theorem call_outcome {action : Action Scripted Solver.Failure Unit} {events : List Event}
    {stack : Stack Assertion} (h : Answers action session.engine events stack) :
    (∃ engine, (call action).run session = (.ok (), { session with engine }) ∧
        session.engine.Called engine events stack) ∨
      ∃ failure engine, (call action).run session =
          (.error (.solver failure), { session with engine }) ∧
        session.engine.Called engine [] session.engine.stack := by
  rcases h with ⟨after, hrun, hcalled⟩ | ⟨failure, after, hrun, hcalled⟩
  · exact Or.inl ⟨after, run_call_ok hrun, hcalled⟩
  · exact Or.inr ⟨failure, after, run_call_error hrun, hcalled⟩

theorem push_outcome (session : Session Scripted) :
    (∃ engine, push.run session =
          (.ok (), { session with engine, depth := session.depth + 1 }) ∧
        session.engine.Called engine [.push] session.engine.stack.push) ∨
      ∃ failure engine, push.run session =
          (.error (.solver failure), { session with engine }) ∧
        session.engine.Called engine [] session.engine.stack := by
  rcases answers_push session.engine with ⟨after, hrun, hcalled⟩ | ⟨failure, after, hrun, hcalled⟩
  · exact Or.inl ⟨after, run_push_ok hrun, hcalled⟩
  · exact Or.inr ⟨failure, after, run_push_error hrun, hcalled⟩

theorem pop_outcome (h : session.Levelled) (hdepth : session.depth ≠ 0) :
    (∃ engine, pop.run session =
          (.ok (), Session.lower (session.depth - 1) { session with engine }) ∧
        session.engine.Called engine [.pop]
          (session.engine.stack.truncate (session.depth - 1))) ∨
      ∃ failure engine, pop.run session =
          (.error (.solver failure), { session with engine }) ∧
        session.engine.Called engine [] session.engine.stack := by
  have hengine : session.engine.depth ≠ 0 := by rwa [← h.depth_eq]
  have hanswers := answers_pop hengine
  rw [← h.depth_eq] at hanswers
  rcases hanswers with ⟨after, hrun, hcalled⟩ | ⟨failure, after, hrun, hcalled⟩
  · exact Or.inl ⟨after, run_pop_ok hdepth hrun, hcalled⟩
  · exact Or.inr ⟨failure, after, run_pop_error hdepth hrun, hcalled⟩

theorem conjecture_outcome (formula : SExpr) (session : Session Scripted) :
    (∃ engine, (call (Engine.assertConjecture formula)).run session =
          (.ok (), { session with engine }) ∧
        session.engine.Called engine [.assertConjecture formula]
          (session.engine.stack.assert (.conjectured formula))) ∨
      ∃ failure engine, (call (Engine.assertConjecture formula)).run session =
          (.error (.solver failure), { session with engine }) ∧
        session.engine.Called engine [.assertConjecture formula] session.engine.stack := by
  rcases run_assertConjecture formula session.engine with
    ⟨after, hrun, hcalled⟩ | ⟨failure, after, hrun, hcalled⟩
  · exact Or.inl ⟨after, run_call_ok hrun, hcalled⟩
  · exact Or.inr ⟨failure, after, run_call_error hrun, hcalled⟩

theorem checkAsserted_outcome (name : String) (session : Session Scripted) :
    ∃ result verdict counterexamples engine, (checkAsserted name).run session =
        (result, { session with engine, verdict, counterexamples }) ∧
      result ≠ .error .noFrame ∧
      session.engine.Called engine [.check, .saveTranscript name] session.engine.stack := by
  have hcalled : session.engine.Called
      (Engine.saveTranscript name ((Engine.check : Action Scripted _ _).run session.engine).2)
      [.check, .saveTranscript name] session.engine.stack :=
    (called_check session.engine).record (.saveTranscript name)
  rcases hcheck : (Engine.check : Action Scripted _ _).run session.engine with
    ⟨failure | report, after⟩
  · rw [hcheck] at hcalled
    exact ⟨_, _, _, _, run_checkAsserted_error hcheck, by simp, hcalled⟩
  · rw [hcheck] at hcalled
    exact ⟨_, _, _, _, run_checkAsserted_ok hcheck, by simp, hcalled⟩

theorem checkAsserted_eq_ok {name : String} {final : Session Scripted}
    (h : (checkAsserted name).run session = (.ok (), final)) :
    ∃ report answered, Engine.check.run session.engine = (.ok report, answered) ∧
      final.engine = Engine.saveTranscript name answered := by
  rcases hcheck : (Engine.check : Action Scripted _ _).run session.engine with
    ⟨failure | report, answered⟩
  · rw [run_checkAsserted_error hcheck] at h
    simp at h
  · rw [run_checkAsserted_ok hcheck] at h
    obtain ⟨-, rfl⟩ := Prod.mk.inj h
    exact ⟨report, answered, rfl, rfl⟩

/-! ### The check of a goal, phase by phase -/

theorem popMany_outcome (count : Nat) {session : Session Scripted} (h : session.Levelled)
    (hcount : count ≤ session.depth) :
    ∃ depth engine, depth ≤ session.depth ∧
      session.engine.Called engine (List.replicate (session.depth - depth) .pop)
        (session.engine.stack.truncate depth) ∧
      ((depth = session.depth - count ∧ (popMany count).run session =
          (.ok (), Session.lower depth { session with engine })) ∨
        (session.depth - count < depth ∧ ∃ failure, (popMany count).run session =
          (.error (.solver failure), Session.lower depth { session with engine }))) := by
  induction count generalizing session with
  | zero =>
      refine ⟨session.depth, session.engine, Nat.le_refl _, ?_, Or.inl ⟨rfl, ?_⟩⟩
      · rw [Nat.sub_self, h.depth_eq, ← depth_stack, Stack.truncate_of_depth_le (Nat.le_refl _)]
        exact Called.refl session.engine
      · rw [popMany, Action.run_pure, h.lower_depth]
  | succ count ih =>
      rcases pop_outcome h (by omega) with
        ⟨engine, hrun, hcalled⟩ | ⟨failure, engine, hrun, hcalled⟩
      · have hlower : (Session.lower (session.depth - 1) { session with engine }).Levelled :=
          h.lower (by omega) hcalled
        obtain ⟨depth, last, hdepth, hlast, hend⟩ :=
          ih hlower (show count ≤ session.depth - 1 by omega)
        change depth ≤ session.depth - 1 at hdepth
        have hstack : engine.stack.truncate depth = session.engine.stack.truncate depth := by
          rw [hcalled.stack_eq, Stack.truncate_truncate hdepth]
        have hpops : List.replicate (session.depth - depth) Event.pop =
            [.pop] ++ List.replicate (session.depth - 1 - depth) .pop := by
          rw [← List.replicate_one, List.replicate_append_replicate]
          congr 1
          omega
        refine ⟨depth, last, by omega, ?_, ?_⟩
        · rw [hpops, ← hstack]
          exact Called.trans ⟨hcalled.events_eq, rfl⟩ hlast
        · have hsame : Session.lower depth
              { Session.lower (session.depth - 1) { session with engine } with engine := last } =
              Session.lower depth { session with engine := last } :=
            lower_lower hdepth { session with engine := last }
          rw [hsame] at hend
          rw [popMany, Action.run_bind_ok hrun]
          rcases hend with ⟨heq, hend⟩ | ⟨hlt, hend⟩
          · exact Or.inl ⟨by rw [heq]; change session.depth - 1 - count = _; omega, hend⟩
          · refine Or.inr ⟨?_, hend⟩
            change session.depth - 1 - count < depth at hlt
            omega
      · have hsame : ({ session with engine } : Session Scripted) =
            Session.lower session.depth { session with engine } := by
          have hlower := congrArg (fun s : Session Scripted => { s with engine }) h.lower_depth
          exact hlower.symm
        refine ⟨session.depth, engine, Nat.le_refl _, ?_, Or.inr ⟨by omega, failure, ?_⟩⟩
        · rw [Nat.sub_self, h.depth_eq, ← depth_stack,
            Stack.truncate_of_depth_le (Nat.le_refl _)]
          exact hcalled
        · rw [popMany, Action.run_bind_error hrun, ← hsame]

theorem dropGoal_outcome (h : session.Levelled) :
    (∃ engine, dropGoal.run session =
          (.ok (), { session with engine, depth := session.keptDepth, goalDepth := none }) ∧
        session.engine.Called engine
          (List.replicate (session.depth - session.keptDepth) .pop)
          (session.engine.stack.truncate session.keptDepth)) ∨
      ∃ level depth failure engine, session.goalDepth = some level ∧ level ≤ depth ∧
        depth ≤ session.depth ∧
        dropGoal.run session = (.error (.solver failure), { session with engine, depth }) ∧
        session.engine.Called engine (List.replicate (session.depth - depth) .pop)
          (session.engine.stack.truncate depth) := by
  cases hgoal : session.goalDepth with
  | none =>
      have hkept : session.keptDepth = session.depth := by simp [keptDepth, hgoal]
      have hsame : ({ session with depth := session.depth, goalDepth := none } :
          Session Scripted) = session := by
        rw [← hgoal]
      refine Or.inl ⟨session.engine, ?_, ?_⟩
      · rw [run_dropGoal_none hgoal, hkept, hsame]
      · rw [hkept, Nat.sub_self, h.depth_eq, ← depth_stack,
          Stack.truncate_of_depth_le (Nat.le_refl _)]
        exact Called.refl session.engine
  | some level =>
      obtain ⟨lower, htheory, hlt, hle⟩ := h.goal_le level hgoal
      have hkept : session.keptDepth = level - 1 := by simp [keptDepth, hgoal]
      have hrun := run_dropGoal_some hgoal
      obtain ⟨depth, engine, hdepth, hcalled, hend⟩ :=
        popMany_outcome (session.depth + 1 - level) h (by omega)
      rcases hend with ⟨heq, hend⟩ | ⟨habove, failure, hend⟩
      · have hdepthEq : depth = session.keptDepth := by omega
        subst hdepthEq
        refine Or.inl ⟨engine, ?_, hcalled⟩
        rw [hrun, hend, h.lower_keptDepth]
      · refine Or.inr ⟨level, depth, failure, engine, rfl, by omega, hdepth, ?_, hcalled⟩
        rw [hrun, hend, h.lower_of_goal_le hgoal (by omega), hgoal]

/-- The calls that assert the theory, unless it is asserted already. -/
def theoryCalls (session : Session Scripted) : List Event :=
  match session.theoryDepth with
  | some _ => []
  | none => [.assertAxiom session.theory]

/-- The frames beneath the next goal: those below the goal before it, with the theory in the last
of them if it was not asserted. -/
def groundStack (session : Session Scripted) : Stack Assertion :=
  let kept := session.engine.stack.truncate session.keptDepth
  match session.theoryDepth with
  | some _ => kept
  | none => kept.assert (.axiomatic session.theory)

def groundLevel (session : Session Scripted) : Nat :=
  session.theoryDepth.getD session.keptDepth

theorem loadTheory_outcome (hcalled : session.engine.Called engine
      (List.replicate (session.depth - session.keptDepth) .pop)
      (session.engine.stack.truncate session.keptDepth)) :
    let dropped : Session Scripted :=
      { session with engine, depth := session.keptDepth, goalDepth := none }
    (∃ engine, loadTheory.run dropped =
          (.ok (), { dropped with engine, theoryDepth := some session.groundLevel }) ∧
        session.engine.Called engine
          (List.replicate (session.depth - session.keptDepth) .pop ++ session.theoryCalls)
          session.groundStack) ∨
      ∃ failure engine, session.theoryDepth = none ∧
        loadTheory.run dropped = (.error (.solver failure), { dropped with engine }) ∧
        session.engine.Called engine
          (List.replicate (session.depth - session.keptDepth) .pop)
          (session.engine.stack.truncate session.keptDepth) := by
  intro dropped
  by_cases htheory : session.theoryDepth = none
  · have hlevel : session.groundLevel = session.keptDepth := by simp [groundLevel, htheory]
    rcases answers_assertAxiom session.theory engine with
      ⟨after, hrun, hafter⟩ | ⟨failure, after, hrun, hafter⟩
    · refine Or.inl ⟨after, ?_, ?_⟩
      · rw [hlevel]
        exact run_loadTheory_ok htheory hrun
      · simp only [theoryCalls, groundStack, htheory]
        rw [← hcalled.stack_eq]
        exact Called.trans ⟨hcalled.events_eq, rfl⟩ hafter
    · refine Or.inr ⟨failure, after, htheory, run_loadTheory_error htheory hrun, ?_⟩
      rw [← hcalled.stack_eq, ← List.append_nil (List.replicate _ _)]
      exact Called.trans ⟨hcalled.events_eq, rfl⟩ hafter
  · obtain ⟨level, htheory⟩ := Option.ne_none_iff_exists'.mp htheory
    have hload : loadTheory.run dropped = (.ok (), dropped) := run_loadTheory_loaded htheory
    have hlevel : some session.groundLevel = session.theoryDepth := by
      rw [groundLevel, htheory, Option.getD_some]
    refine Or.inl ⟨engine, ?_, ?_⟩
    · rw [hload, hlevel]
    · simp only [theoryCalls, groundStack, htheory, List.append_nil]
      exact hcalled

/-- The ways a goal is posed in a frame of its own. -/
inductive PoseOutcome (session : Session Scripted) (name : String) (goal : SExpr) :
    Except Failure Unit × Session Scripted → Prop
  /-- No frame could be opened for the goal. -/
  | unopened {failure engine} :
      session.engine.Called engine [.remark ("check " ++ name)] session.engine.stack →
      PoseOutcome session name goal (.error (.solver failure), { session with engine })
  /-- The goal could not be asserted in its frame. -/
  | unposed {failure engine} :
      session.engine.Called engine
        [.remark ("check " ++ name), .push, .assertConjecture goal] session.engine.stack.push →
      PoseOutcome session name goal (.error (.solver failure),
        { session with
          engine, depth := session.depth + 1, goalDepth := some (session.depth + 1) })
  /-- What is asserted was checked, whatever the engine answered. -/
  | asked {engine final} :
      session.engine.Called engine
        [.remark ("check " ++ name), .push, .assertConjecture goal]
        (session.engine.stack.push.assert (.conjectured goal)) →
      (checkAsserted name).run { session with
          engine, depth := session.depth + 1, goalDepth := some (session.depth + 1) } = final →
      PoseOutcome session name goal final

theorem poseGoal_outcome (name : String) (goal : SExpr) (session : Session Scripted) :
    PoseOutcome session name goal ((poseGoal name goal).run session) := by
  have hremark : session.engine.Called (Engine.remark ("check " ++ name) session.engine)
      [.remark ("check " ++ name)] session.engine.stack :=
    (Called.refl session.engine).record (.remark ("check " ++ name))
  rw [poseGoal, note, Action.run_bind_ok (Action.run_modify _ _)]
  rcases (push_outcome _).symm with ⟨failure, engine, hpush, hcalled⟩ | ⟨opened, hpush, hcalled⟩
  · rw [Action.run_bind_error hpush]
    exact .unopened (hremark.trans hcalled)
  rw [Action.run_bind_ok hpush, Action.run_bind_ok (Action.run_modify _ _)]
  have hopened : session.engine.Called opened [.remark ("check " ++ name), .push]
      session.engine.stack.push :=
    hremark.trans hcalled
  rcases (conjecture_outcome goal _).symm with
    ⟨failure, engine, hpose, hcalled⟩ | ⟨posed, hpose, hcalled⟩
  · rw [Action.run_bind_error hpose]
    refine .unposed ?_
    rw [← hopened.stack_eq]
    exact Called.trans ⟨hopened.events_eq, rfl⟩ hcalled
  rw [Action.run_bind_ok hpose]
  refine .asked ?_ rfl
  rw [← hopened.stack_eq]
  exact Called.trans ⟨hopened.events_eq, rfl⟩ hcalled

theorem PoseOutcome.eq_ok {name : String} {goal : SExpr} {final : Session Scripted}
    (h : PoseOutcome session name goal (.ok (), final)) :
    ∃ posed report answered,
      session.engine.Called posed [.remark ("check " ++ name), .push, .assertConjecture goal]
        (session.engine.stack.push.assert (.conjectured goal)) ∧
      Engine.check.run posed = (.ok report, answered) ∧
      final.engine = Engine.saveTranscript name answered := by
  cases h with
  | asked hposed hcheck =>
      obtain ⟨report, answered, hanswer, hfinal⟩ := checkAsserted_eq_ok hcheck
      exact ⟨_, report, answered, hposed, hanswer, hfinal⟩

/-- The ways a check of a goal ends. -/
inductive CheckOutcome (session : Session Scripted) (name : String) (goal : SExpr) :
    Except Failure Unit × Session Scripted → Prop
  /-- The goal before could not be dropped, or the theory not be asserted. -/
  | unready {failure final} : CheckOutcome session name goal (.error (.solver failure), final)
  | ready {engine final} :
      session.engine.Called engine
        (List.replicate (session.depth - session.keptDepth) .pop ++ session.theoryCalls)
        session.groundStack →
      PoseOutcome { session with
          engine, depth := session.keptDepth, goalDepth := none
          theoryDepth := some session.groundLevel } name goal final →
      CheckOutcome session name goal final

theorem checkGoal_outcome (h : session.Levelled) (name : String) (goal : SExpr) :
    CheckOutcome session name goal ((checkGoal name goal).run session) := by
  rw [checkGoal_eq]
  rcases (dropGoal_outcome h).symm with
    ⟨_, _, failure, _, _, _, _, hdrop, _⟩ | ⟨dropped, hdrop, hcalled⟩
  · rw [Action.run_bind_error hdrop]
    exact .unready
  rw [Action.run_bind_ok hdrop]
  rcases (loadTheory_outcome hcalled).symm with
    ⟨failure, _, _, hload, _⟩ | ⟨loaded, hload, hcalled⟩
  · rw [Action.run_bind_error hload]
    exact .unready
  rw [Action.run_bind_ok hload]
  exact .ready hcalled (poseGoal_outcome name goal _)

/-- The calls of a check of a goal up to the question. -/
def checkCalls (session : Session Scripted) (name : String) (goal : SExpr) : List Event :=
  List.replicate (session.depth - session.keptDepth) .pop ++ session.theoryCalls ++
    [.remark ("check " ++ name), .push, .assertConjecture goal]

/-- A check of a goal that succeeds asked the engine once, with the goal on top of its ground. -/
theorem checkGoal_eq_ok (h : session.Levelled) {name : String} {goal : SExpr}
    {final : Session Scripted} (hrun : (checkGoal name goal).run session = (.ok (), final)) :
    ∃ asked report answered,
      session.engine.Called asked (session.checkCalls name goal)
        (session.groundStack.push.assert (.conjectured goal)) ∧
      Engine.check.run asked = (.ok report, answered) ∧
      final.engine = Engine.saveTranscript name answered := by
  have houtcome := checkGoal_outcome h name goal
  rw [hrun] at houtcome
  cases houtcome with
  | ready hcalled hpose =>
      obtain ⟨posed, report, answered, hposed, hanswer, hfinal⟩ := hpose.eq_ok
      refine ⟨posed, report, answered, ?_, hanswer, hfinal⟩
      rw [← hcalled.stack_eq]
      exact Called.trans ⟨hcalled.events_eq, rfl⟩ hposed

end SmtSession.Session
