import SmtSession.Proofs.Coherence

/-!
# Checks that fail

A check begins by discarding the results of the check before it, and one that fails leaves none. The
check of a goal does more before that: it drops the goal before, asserts the theory and poses the
goal. If one of these steps fails, the session still tells the results of the check before.
-/

namespace SmtSession.Session

open Scripted

/-- Nothing is left of the checks so far. -/
structure Cleared {σ : Type} (session : Session σ) : Prop where
  verdict_eq : session.verdict = .undetermined
  counterexamples_eq : session.counterexamples = []

theorem Cleared.outcome_eq {σ : Type} {session : Session σ} (h : session.Cleared) :
    session.outcome = ⟨[], .ok .undetermined⟩ := by
  simp [outcome, h.verdict_eq]

/-- Whatever the engine is, and whatever was checked before. -/
theorem cleared_of_checkAsserted {σ : Type} [Engine σ] {session final : Session σ} {name : String}
    {failure : Failure} (h : (checkAsserted name).run session = (.error failure, final)) :
    final.Cleared := by
  rcases hcheck : (Engine.check : Action σ _ _).run session.engine with ⟨error | report, engine⟩
  · rw [run_checkAsserted_error hcheck] at h
    obtain ⟨-, rfl⟩ := Prod.mk.inj h
    exact ⟨rfl, rfl⟩
  · rw [run_checkAsserted_ok hcheck] at h
    simp at h

/-- The session before and after a check that fails, whether or not the engine was asked. -/
inductive FailedCheck (session final : Session Scripted) : Prop
  | unasked {events : List Event} : final.engine.events = session.engine.events ++ events →
      .check ∉ events → final.verdict = session.verdict →
      final.counterexamples = session.counterexamples → FailedCheck session final
  | asked {events : List Event} : final.engine.events = session.engine.events ++ events →
      .check ∈ events → final.Cleared → FailedCheck session final

variable {session final : Session Scripted} {name : String} {goal : SExpr} {failure : Failure}

/-- Calls before the check that do not ask the engine make no difference. -/
theorem FailedCheck.after {middle : Session Scripted} {events : List Event}
    (h : FailedCheck middle final)
    (hevents : middle.engine.events = session.engine.events ++ events) (hnone : .check ∉ events)
    (hverdict : middle.verdict = session.verdict)
    (hcounterexamples : middle.counterexamples = session.counterexamples) :
    FailedCheck session final := by
  cases h with
  | unasked hlater hnone' hverdict' hcounterexamples' =>
      rw [hevents, List.append_assoc] at hlater
      refine .unasked hlater ?_ (hverdict'.trans hverdict)
        (hcounterexamples'.trans hcounterexamples)
      rw [List.mem_append, not_or]
      exact ⟨hnone, hnone'⟩
  | asked hlater hasked hcleared =>
      rw [hevents, List.append_assoc] at hlater
      exact .asked hlater (List.mem_append_right _ hasked) hcleared

theorem failedCheck_checkAsserted
    (h : (checkAsserted name).run session = (.error failure, final)) :
    FailedCheck session final := by
  obtain ⟨_, _, _, engine, hrun, -, hcalled⟩ := checkAsserted_outcome name session
  have hcleared := cleared_of_checkAsserted h
  rw [hrun] at h
  obtain ⟨-, rfl⟩ := Prod.mk.inj h
  exact .asked hcalled.events_eq (List.mem_cons_self ..) hcleared

theorem PoseOutcome.failedCheck (h : PoseOutcome session name goal (.error failure, final)) :
    FailedCheck session final := by
  cases h with
  | unopened hcalled => exact .unasked hcalled.events_eq (by simp) rfl rfl
  | unposed hcalled => exact .unasked hcalled.events_eq (by simp) rfl rfl
  | asked hcalled hcheck =>
      exact (failedCheck_checkAsserted hcheck).after hcalled.events_eq (by simp) rfl rfl

theorem check_not_mem_replicate_pop (count : Nat) : Event.check ∉ List.replicate count .pop := by
  intro hmem
  exact absurd (List.eq_of_mem_replicate hmem) (by simp)

theorem check_not_mem_theoryCalls (session : Session Scripted) :
    Event.check ∉ session.theoryCalls := by
  unfold theoryCalls
  split <;> simp

theorem Levelled.failedCheck (h : session.Levelled)
    (hrun : (checkGoal name goal).run session = (.error failure, final)) :
    FailedCheck session final := by
  rw [checkGoal_eq] at hrun
  rcases (dropGoal_outcome h).symm with
    ⟨_, _, _, _, _, _, _, hdrop, hcalled⟩ | ⟨dropped, hdrop, hcalled⟩
  · rw [Action.run_bind_error hdrop] at hrun
    obtain ⟨-, rfl⟩ := Prod.mk.inj hrun
    exact .unasked hcalled.events_eq (check_not_mem_replicate_pop _) rfl rfl
  rw [Action.run_bind_ok hdrop] at hrun
  rcases (loadTheory_outcome hcalled).symm with
    ⟨_, _, _, hload, hcalled⟩ | ⟨loaded, hload, hcalled⟩
  · rw [Action.run_bind_error hload] at hrun
    obtain ⟨-, rfl⟩ := Prod.mk.inj hrun
    exact .unasked hcalled.events_eq (check_not_mem_replicate_pop _) rfl rfl
  rw [Action.run_bind_ok hload] at hrun
  have hpose := poseGoal_outcome name goal
    { session with
      engine := loaded, depth := session.keptDepth, goalDepth := none
      theoryDepth := some session.groundLevel }
  rw [hrun] at hpose
  refine hpose.failedCheck.after hcalled.events_eq ?_ rfl rfl
  rw [List.mem_append, not_or]
  exact ⟨check_not_mem_replicate_pop _, check_not_mem_theoryCalls session⟩

/-- After every history, whatever calls failed in it: a check that fails once the engine was asked
leaves no verdict and no counterexample, and a check of a goal that fails before leaves those of the
check before it. To check what is asserted begins with asking. -/
theorem results_after_failure (settings : Settings) (steps : List Step) (name : String)
    (goal : SExpr) :
    let session := (History.after settings steps).session
    (∀ failure final, (checkAsserted name).run session = (.error failure, final) →
      final.Cleared ∧ final.outcome = ⟨[], .ok .undetermined⟩) ∧
    (∀ failure final, (checkGoal name goal).run session = (.error failure, final) →
      (.check ∈ callsSince session.engine final.engine →
        final.Cleared ∧ final.outcome = ⟨[], .ok .undetermined⟩) ∧
      (.check ∉ callsSince session.engine final.engine →
        final.verdict = session.verdict ∧ final.counterexamples = session.counterexamples ∧
          final.outcome = session.outcome)) := by
  intro session
  have h : session.Levelled := (History.coherent_after settings steps).toLevelled
  refine ⟨?_, ?_⟩
  · intro failure final hrun
    have hcleared := cleared_of_checkAsserted hrun
    exact ⟨hcleared, hcleared.outcome_eq⟩
  · intro failure final hrun
    cases h.failedCheck hrun with
    | unasked hevents hnone hverdict hcounterexamples =>
        rw [callsSince, hevents, List.drop_left]
        refine ⟨fun hasked => absurd hasked hnone, fun _ => ⟨hverdict, hcounterexamples, ?_⟩⟩
        rw [outcome, hverdict, hcounterexamples, outcome]
    | asked hevents hasked hcleared =>
        rw [callsSince, hevents, List.drop_left]
        exact ⟨fun _ => ⟨hcleared, hcleared.outcome_eq⟩, fun hnone => absurd hasked hnone⟩

/-- A goal that does not reach the engine is reported with the counterexample of the goal before. -/
theorem stale_counterexample :
    ¬∀ (settings : Settings) (steps : List Step) (name : String) (goal : SExpr)
        (failure : Failure) (final : Session Scripted),
      (checkGoal name goal).run (History.after settings steps).session = (.error failure, final) →
        final.verdict = .undetermined ∧ final.outcome = ⟨[], .ok .undetermined⟩ := by
  intro hclaim
  let refutation : Report := ⟨.invalid, [⟨.empty, ["+A"]⟩]⟩
  let steps : List Step :=
    [.script [.ok refutation] none [], .perform (.checkGoal "first" (.symbol "p")),
      .script [] (some "solver died") []]
  let next := (checkGoal "second" (.symbol "q")).run (History.after {} steps).session
  have hrun : next = (.error (.solver (.refused "solver died")), next.2) := rfl
  have hstale : next.2.outcome.findings = [⟨[⟨.positive, "A"⟩], .empty⟩] := by
    decide
  have hfresh := (hclaim {} steps "second" (.symbol "q") _ _ hrun).2
  rw [hfresh] at hstale
  contradiction

end SmtSession.Session
