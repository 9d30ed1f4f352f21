import SmtSession.Proofs.Coherence

/-!
# What a check asks

A check of a goal that succeeds asked its engine about the frames below the goal before it, with the
theory in them, and a new frame with the goal. Nothing of an earlier check is left there, so the
engine was asked what it would have been asked with the theory and the goal staged in two frames.
-/

namespace SmtSession.Session

open Scripted

variable {session session' : Session Scripted} {accepted : List SExpr} {goals : Stack SExpr}

namespace History

/-- The frames strictly below that of the live goal, or all of them if there is none. -/
def kept (history : History) : Stack Assertion :=
  match history.session.goalDepth with
  | some level => history.session.engine.stack.truncate (level - 1)
  | none => history.session.engine.stack

/-- The frames to put a goal on: the theory is added to the last of them unless it was loaded. -/
def ground (history : History) : Stack Assertion :=
  match history.session.theoryDepth with
  | some _ => history.kept
  | none => history.kept.assert (.axiomatic (.conjunction history.accepted))

theorem kept_eq {history : History} (h : history.session.Levelled) :
    history.kept = history.session.engine.stack.truncate history.session.keptDepth := by
  unfold kept keptDepth
  cases history.session.goalDepth with
  | some level => rfl
  | none =>
      have hdepth : history.session.engine.stack.depth ≤ history.session.depth := by
        exact Nat.le_of_eq h.depth_eq.symm
      exact (Stack.truncate_of_depth_le hdepth).symm

theorem ground_eq {history : History} (h : history.Coherent) :
    history.ground = history.session.groundStack := by
  have hkept := kept_eq h.toLevelled
  have htheory : history.session.theory = .conjunction history.accepted := by
    rw [theory, h.axioms_eq]
  unfold ground groundStack
  cases history.session.theoryDepth with
  | some level => exact hkept
  | none =>
      change history.kept.assert _ = Stack.assert _ _
      rw [hkept, htheory]

theorem theory_mem_ground {history : History} (h : history.Coherent) :
    .axiomatic (.conjunction history.accepted) ∈ history.ground.entries := by
  have haccepted := h.axioms_eq
  unfold ground
  cases htheory : history.session.theoryDepth with
  | some level =>
      have hmem := h.theory_mem level htheory
      have hle := h.toLevelled.theory_le_keptDepth htheory
      rw [← Stack.truncate_truncate hle, ← kept_eq h.toLevelled, theory, haccepted] at hmem
      exact Stack.mem_of_mem_truncate hmem
  | none =>
      rw [Stack.entries_assert]
      exact List.mem_append_right _ (List.mem_singleton.mpr rfl)

theorem mem_ground_iff {history : History} (h : history.Coherent)
    (assertion : Assertion) :
    assertion ∈ history.ground.entries ↔
      assertion ∈ history.kept.entries ∨
        assertion = .axiomatic (.conjunction history.accepted) := by
  have htheory := theory_mem_ground h
  unfold ground at htheory ⊢
  cases hlevel : history.session.theoryDepth with
  | some level =>
      rw [hlevel] at htheory
      constructor
      · exact Or.inl
      · rintro (hmem | rfl)
        · exact hmem
        · exact htheory
  | none => rw [Stack.entries_assert, List.mem_append, List.mem_singleton]

end History

/-! ### The goals that are left -/

theorem foldl_noteCall_pop (operation : Operation) (count : Nat) (goals : Stack SExpr) :
    (List.replicate count Event.pop).foldl operation.noteCall goals =
      goals.truncate (goals.depth - count) := by
  induction count generalizing goals with
  | zero => exact (Stack.truncate_of_depth_le (Nat.le_refl _)).symm
  | succ count ih =>
      rw [List.replicate_succ, List.foldl_cons, ih]
      have hdepth : (goals.truncate (goals.depth - 1)).depth - count =
          goals.depth - (count + 1) := by
        rw [Stack.depth_truncate]
        omega
      change (goals.truncate (goals.depth - 1)).truncate
        ((goals.truncate (goals.depth - 1)).depth - count) = _
      rw [hdepth, Stack.truncate_truncate (by omega)]

theorem foldl_noteCall_theoryCalls (operation : Operation) (session : Session Scripted)
    (goals : Stack SExpr) : session.theoryCalls.foldl operation.noteCall goals = goals := by
  unfold theoryCalls
  split <;> rfl

theorem Coherent.goals_after_check (h : session.Coherent accepted goals) (name : String)
    (goal : SExpr) :
    ((session.checkCalls name goal ++ [Event.check, .saveTranscript name]).foldl
      (Operation.checkGoal name goal).noteCall goals).entries = [goal] := by
  have hkept : goals.depth - (session.depth - session.keptDepth) = session.keptDepth := by
    have hle := h.toLevelled.keptDepth_le
    rw [h.goals_depth]
    omega
  rw [checkCalls, List.foldl_append, List.foldl_append, List.foldl_append, foldl_noteCall_pop,
    foldl_noteCall_theoryCalls, hkept]
  change (((goals.truncate session.keptDepth).push.assert goal)).entries = _
  rw [Stack.entries_assert, Stack.entries_push, h.goals_kept, List.nil_append]

/-! ### The other way to check a goal -/

theorem push_eq_ok (h : push.run session = (.ok (), session')) :
    session'.engine.stack = session.engine.stack.push ∧ session'.axioms = session.axioms := by
  rcases push_outcome session with ⟨engine, hrun, hcalled⟩ | ⟨failure, engine, hrun, -⟩
  · rw [hrun] at h
    obtain ⟨-, rfl⟩ := Prod.mk.inj h
    exact ⟨hcalled.stack_eq, rfl⟩
  · rw [hrun] at h
    simp at h

theorem assumeInFrame_eq_ok {formula : SExpr}
    (h : (assumeInFrame formula).run session = (.ok (), session')) :
    session'.engine.stack = session.engine.stack.push.assert (.axiomatic formula) := by
  rcases Action.run_bind_cases h with ⟨_, pushed, hpush, hcall⟩ | ⟨error, -, herror⟩
  · obtain ⟨hstack, -⟩ := push_eq_ok hpush
    rw [← hstack]
    rcases call_outcome (answers_assertAxiom formula pushed.engine) with
      ⟨engine, hrun, hcalled⟩ | ⟨failure, engine, hrun, -⟩
    · rw [hrun] at hcall
      obtain ⟨-, rfl⟩ := Prod.mk.inj hcall
      exact hcalled.stack_eq
    · rw [hrun] at hcall
      simp at hcall
  · contradiction

theorem refuteInFrame_eq_ok {formula : SExpr}
    (h : (refuteInFrame formula).run session = (.ok (), session')) :
    session'.engine.stack = session.engine.stack.push.assert (.conjectured formula) := by
  rcases Action.run_bind_cases h with ⟨_, pushed, hpush, hcall⟩ | ⟨error, -, herror⟩
  · obtain ⟨hstack, -⟩ := push_eq_ok hpush
    rw [← hstack]
    rcases conjecture_outcome formula pushed with
      ⟨engine, hrun, hcalled⟩ | ⟨failure, engine, hrun, -⟩
    · rw [hrun] at hcall
      obtain ⟨-, rfl⟩ := Prod.mk.inj hcall
      exact hcalled.stack_eq
    · rw [hrun] at hcall
      simp at hcall
  · contradiction

theorem stageGoal_eq_ok {name : String} {goal : SExpr}
    (h : (stageGoal name goal).run session = (.ok (), session')) :
    session'.engine.stack =
      ((session.engine.stack.push.assert (.axiomatic session.theory)).push.assert
        (.conjectured goal)) := by
  rw [stageGoal, note, Action.run_bind_ok (Action.run_modify _ _),
    Action.run_bind_ok (Action.run_get _)] at h
  rcases Action.run_bind_cases h with ⟨_, assumed, hassume, hrefute⟩ | ⟨error, -, herror⟩
  · rw [refuteInFrame_eq_ok hrefute, assumeInFrame_eq_ok hassume]
    rfl
  · contradiction

theorem stack_checkAsserted {name : String} {result : Except Failure Unit}
    (h : (checkAsserted name).run session = (result, session')) :
    session'.engine.stack = session.engine.stack := by
  obtain ⟨_, _, _, engine, hrun, -, hcalled⟩ := checkAsserted_outcome name session
  rw [hrun] at h
  obtain ⟨-, rfl⟩ := Prod.mk.inj h
  exact hcalled.stack_eq

/-! ### The question of a check -/

namespace History

variable {history : History} {name : String} {goal : SExpr}

theorem Coherent.asked (h : history.Coherent)
    (hok : ((checkGoal name goal).run history.session).1 = .ok ()) :
    ∃ asked report answered,
      history.session.engine.Called asked (history.session.checkCalls name goal)
        (history.ground.push.assert (.conjectured goal)) ∧
      Engine.check.run asked = (.ok report, answered) ∧
      (history.perform (.checkGoal name goal)).session.engine =
        Engine.saveTranscript name answered := by
  have hrun : (checkGoal name goal).run history.session =
      (.ok (), (history.perform (.checkGoal name goal)).session) :=
    Prod.ext hok rfl
  rw [ground_eq h]
  exact checkGoal_eq_ok h.toLevelled hrun

theorem Coherent.goals_of_asked (h : history.Coherent) {asked answered : Scripted}
    {report : Report} {stack : Stack Assertion}
    (hcalled : history.session.engine.Called asked (history.session.checkCalls name goal) stack)
    (hanswer : Engine.check.run asked = (.ok report, answered))
    (hfinal : (history.perform (.checkGoal name goal)).session.engine =
      Engine.saveTranscript name answered) :
    (history.perform (.checkGoal name goal)).goals.depth = asked.depth ∧
      (history.perform (.checkGoal name goal)).goals.entries = [goal] := by
  have hchecked : asked.Called (history.perform (.checkGoal name goal)).session.engine
      [.check, .saveTranscript name] asked.stack := by
    have hcheck := called_check asked
    rw [hanswer] at hcheck
    rw [hfinal]
    exact hcheck.record (.saveTranscript name)
  have hnext := h.perform (.checkGoal name goal)
  constructor
  · rw [hnext.goals_depth, hnext.depth_eq]
    exact congrArg Stack.depth hchecked.stack_eq
  · have hevents := (Called.trans ⟨hcalled.events_eq, rfl⟩ hchecked).events_eq
    have hperform : history.perform (.checkGoal name goal) = _ :=
      perform_eq (.checkGoal name goal) hevents
    rw [hperform]
    exact Session.Coherent.goals_after_check h name goal

theorem Coherent.mem_staged_iff (h : history.Coherent) {other staged : Session Scripted}
    (hstack : other.engine.stack = history.kept) (haxioms : other.axioms = history.accepted)
    (hrun : (stageGoal name goal >>= fun _ => checkAsserted name).run other = (.ok (), staged))
    (assertion : Assertion) :
    assertion ∈ staged.engine.stack.entries ↔
      assertion ∈ (history.ground.push.assert (.conjectured goal)).entries := by
  rcases Action.run_bind_cases hrun with ⟨_, posed, hstage, hcheck⟩ | ⟨error, -, herror⟩
  · rw [stack_checkAsserted hcheck, stageGoal_eq_ok hstage, hstack, theory, haxioms]
    simp [mem_ground_iff h, or_assoc]
  · contradiction

end History

/-- After every history, whatever calls failed in it: a check of a goal that succeeds asked the
engine, as its last call but for the transcript, about the ground and one new frame with the goal
alone. The theory is among what was asserted and no goal of an earlier check is; as a set it is what
`stageGoal` and `checkAsserted` ask about on top of the same frames. -/
theorem checkGoal_asked (settings : Settings) (steps : List Step) (name : String) (goal : SExpr)
    (hok : ((checkGoal name goal).run (History.after settings steps).session).1 = .ok ()) :
    let history := History.after settings steps
    let next := history.perform (.checkGoal name goal)
    ∃ asked report answered,
      history.session.engine.Called asked (history.session.checkCalls name goal)
        (history.ground.push.assert (.conjectured goal)) ∧
      Engine.check.run asked = (.ok report, answered) ∧
      next.session.engine = Engine.saveTranscript name answered ∧
      .axiomatic (.conjunction history.accepted) ∈ asked.stack.entries ∧
      next.goals.depth = asked.depth ∧ next.goals.entries = [goal] ∧
      ∀ (other staged : Session Scripted) (name' : String),
        other.engine.stack = history.kept → other.axioms = history.accepted →
        (stageGoal name' goal >>= fun _ => checkAsserted name').run other = (.ok (), staged) →
        ∀ assertion, assertion ∈ staged.engine.stack.entries ↔ assertion ∈ asked.stack.entries := by
  intro history next
  have h : history.Coherent := History.coherent_after settings steps
  obtain ⟨asked, report, answered, hcalled, hanswer, hfinal⟩ := h.asked hok
  obtain ⟨hdepth, hgoals⟩ := h.goals_of_asked hcalled hanswer hfinal
  refine ⟨asked, report, answered, hcalled, hanswer, hfinal, ?_, hdepth, hgoals, ?_⟩
  · rw [hcalled.stack_eq, Stack.entries_assert, Stack.entries_push]
    exact List.mem_append_left _ (History.theory_mem_ground h)
  · intro other staged name' hstack haxioms hrun assertion
    rw [hcalled.stack_eq]
    exact h.mem_staged_iff hstack haxioms hrun assertion

theorem checkGoal_asked_twice :
    let steps : List Step :=
      [.perform (.assume (.symbol "a")), .perform (.checkGoal "first" (.symbol "p")),
        .perform .push, .perform (.refuteInFrame (.symbol "q"))]
    ((checkGoal "second" (.symbol "r")).run (History.after {} steps).session).1 = .ok () ∧
      ∃ (asked : Scripted) (report : Report) (answered : Scripted),
        Engine.check.run asked = (.ok report, answered) ∧
        asked.base = [.axiomatic (.conjunction [.symbol "a"])] ∧
        asked.frames = [[.conjectured (.symbol "r")]] := by
  intro steps
  have hok : ((checkGoal "second" (.symbol "r")).run (History.after {} steps).session).1 = .ok () :=
    rfl
  obtain ⟨asked, report, answered, hcalled, hanswer, -⟩ :=
    checkGoal_asked {} steps "second" (.symbol "r") hok
  exact ⟨hok, asked, report, answered, hanswer, congrArg Stack.base hcalled.stack_eq,
    congrArg Stack.frames hcalled.stack_eq⟩

end SmtSession.Session
