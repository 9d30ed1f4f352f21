import SmtSession.Proofs.Outcomes

/-!
# What every history keeps

The levels a session remembers fit the frames of its engine, the theory stands where the session
remembers it, and the only goal of a check on the stack is the one in the frame the session
remembers for it. Each operation keeps this however it ends, so it holds after every history.
-/

namespace SmtSession.Session

open Scripted

structure Coherent (session : Session Scripted) (accepted : List SExpr) (goals : Stack SExpr) :
    Prop extends Levelled session where
  axioms_eq : session.axioms = accepted
  theory_mem : ∀ level, session.theoryDepth = some level →
    .axiomatic session.theory ∈ (session.engine.stack.truncate level).entries
  goals_depth : goals.depth = session.depth
  /-- Beneath the frame of the live goal, or anywhere if there is none. -/
  goals_kept : (goals.truncate session.keptDepth).entries = []

variable {session : Session Scripted} {accepted : List SExpr} {goals : Stack SExpr}
  {engine : Scripted}

/-! ### What single effects keep -/

theorem Coherent.sameFrames (h : session.Coherent accepted goals)
    (hstack : engine.stack = session.engine.stack) (signature : Signature) (verdict : Verdict)
    (counterexamples : List Counterexample) :
    ({ session with engine, signature, verdict, counterexamples } : Session Scripted).Coherent
      accepted goals := by
  have hdepth : engine.depth = session.engine.depth := congrArg Stack.depth hstack
  refine
    { depth_eq := h.depth_eq.trans hdepth.symm, theory_le := h.theory_le, goal_le := h.goal_le,
      axioms_eq := h.axioms_eq, theory_mem := ?_, goals_depth := h.goals_depth,
      goals_kept := h.goals_kept }
  intro level htheory
  rw [hstack]
  exact h.theory_mem level htheory

theorem Coherent.assert (h : session.Coherent accepted goals) {assertion : Assertion}
    (hstack : engine.stack = session.engine.stack.assert assertion) :
    ({ session with engine } : Session Scripted).Coherent accepted goals := by
  have hdepth : engine.depth = session.engine.depth := by
    rw [← depth_stack, hstack, Stack.depth_assert, depth_stack]
  refine
    { depth_eq := h.depth_eq.trans hdepth.symm, theory_le := h.theory_le, goal_le := h.goal_le,
      axioms_eq := h.axioms_eq, theory_mem := ?_, goals_depth := h.goals_depth,
      goals_kept := h.goals_kept }
  intro level htheory
  have hmem := h.theory_mem level htheory
  rw [hstack]
  by_cases hlevel : level < session.engine.stack.depth
  · rwa [Stack.truncate_assert hlevel]
  · rw [Stack.truncate_of_depth_le (by simpa using hlevel), Stack.entries_assert]
    exact List.mem_append_left _ (Stack.mem_of_mem_truncate hmem)

theorem Coherent.push (h : session.Coherent accepted goals)
    (hstack : engine.stack = session.engine.stack.push) :
    ({ session with engine, depth := session.depth + 1 } : Session Scripted).Coherent accepted
      goals.push := by
  have hdepth : engine.depth = session.engine.depth + 1 := congrArg Stack.depth hstack
  refine
    { depth_eq := ?_, theory_le := ?_, goal_le := ?_, axioms_eq := h.axioms_eq, theory_mem := ?_,
      goals_depth := ?_, goals_kept := ?_ }
  · change session.depth + 1 = engine.depth
    rw [hdepth, h.depth_eq]
  · intro level htheory
    exact Nat.le_succ_of_le (h.theory_le level htheory)
  · intro level hgoal
    obtain ⟨lower, htheory, hlt, hle⟩ := h.goal_le level hgoal
    exact ⟨lower, htheory, hlt, Nat.le_succ_of_le hle⟩
  · intro level htheory
    have hle : level ≤ session.engine.stack.depth := by
      rw [depth_stack, ← h.depth_eq]
      exact h.theory_le level htheory
    rw [hstack, Stack.truncate_push hle]
    exact h.theory_mem level htheory
  · rw [Stack.depth_push, h.goals_depth]
  · have hkept := h.goals_kept
    unfold keptDepth at hkept ⊢
    cases hgoal : session.goalDepth with
    | none =>
        rw [hgoal] at hkept
        simp only at hkept ⊢
        rw [← h.goals_depth, Stack.truncate_of_depth_le (Nat.le_refl _)] at hkept
        rw [← h.goals_depth, Stack.truncate_of_depth_le (by simp), Stack.entries_push, hkept]
    | some level =>
        obtain ⟨-, -, -, hle⟩ := h.goal_le level hgoal
        rw [hgoal] at hkept
        simp only at hkept ⊢
        have hgoals : level - 1 ≤ goals.depth := by
          rw [h.goals_depth]
          omega
        rw [Stack.truncate_push hgoals, hkept]

theorem Coherent.lower (h : session.Coherent accepted goals) {depth : Nat}
    (hdepth : depth ≤ session.depth) {events : List Event}
    (hcalled : session.engine.Called engine events (session.engine.stack.truncate depth)) :
    (Session.lower depth { session with engine }).Coherent accepted (goals.truncate depth) := by
  have hlevelled := h.toLevelled.lower hdepth hcalled
  refine
    { toLevelled := hlevelled, axioms_eq := h.axioms_eq, theory_mem := ?_, goals_depth := ?_,
      goals_kept := ?_ }
  · intro level htheory
    obtain ⟨htheory, hle⟩ := keepDepth_eq_some htheory
    change _ ∈ (engine.stack.truncate level).entries
    rw [hcalled.stack_eq, Stack.truncate_truncate hle]
    exact h.theory_mem level htheory
  · rw [Stack.depth_truncate, h.goals_depth]
    exact Nat.min_eq_left hdepth
  · -- What the session keeps now, it kept before.
    have hkept : (Session.lower depth { session with engine }).keptDepth ≤ depth ∧
        (Session.lower depth { session with engine }).keptDepth ≤ session.keptDepth := by
      refine ⟨hlevelled.keptDepth_le, ?_⟩
      cases hgoal : session.goalDepth with
      | none =>
          simpa [keptDepth, Session.lower, hgoal] using hdepth
      | some level =>
          by_cases hlt : depth < level
          · have hlow : depth ≤ level - 1 := by omega
            simpa [keptDepth, Session.lower, hgoal, keepDepth_of_lt hlt] using hlow
          · have hle : level ≤ depth := by omega
            simp [keptDepth, Session.lower, hgoal, keepDepth_of_le hle]
    rw [Stack.truncate_truncate hkept.1, ← Stack.truncate_truncate hkept.2]
    exact Stack.entries_truncate_eq_nil h.goals_kept _

theorem Levelled.goalDepth_eq_none (h : session.Levelled) (htheory : session.theoryDepth = none) :
    session.goalDepth = none := by
  cases hgoal : session.goalDepth with
  | none => rfl
  | some level =>
      obtain ⟨lower, hlower, -, -⟩ := h.goal_le level hgoal
      rw [htheory] at hlower
      contradiction

theorem Coherent.load (h : session.Coherent accepted goals) (htheory : session.theoryDepth = none)
    (hstack : engine.stack = session.engine.stack.assert (.axiomatic session.theory)) :
    ({ session with engine, theoryDepth := some session.depth } : Session Scripted).Coherent
      accepted goals := by
  have hgoal := h.goalDepth_eq_none htheory
  have hassert := h.assert hstack
  refine
    { depth_eq := hassert.depth_eq, theory_le := ?_, goal_le := ?_, axioms_eq := h.axioms_eq,
      theory_mem := ?_, goals_depth := h.goals_depth, goals_kept := hassert.goals_kept }
  · intro level hlevel
    exact Nat.le_of_eq (Option.some.inj hlevel).symm
  · intro level hlevel
    change session.goalDepth = some level at hlevel
    rw [hgoal] at hlevel
    contradiction
  · intro level hlevel
    obtain rfl := Option.some.inj hlevel
    have hfull : engine.stack.depth ≤ session.depth := Nat.le_of_eq hassert.depth_eq.symm
    change Assertion.axiomatic session.theory ∈ (engine.stack.truncate session.depth).entries
    rw [Stack.truncate_of_depth_le hfull, hstack, Stack.entries_assert]
    exact List.mem_append_right _ (List.mem_singleton.mpr rfl)

/-- The frame that was opened last becomes the goal's, whatever is asserted in it. -/
theorem Coherent.pose (h : session.Coherent accepted goals) (hgoal : session.goalDepth = none)
    {level : Nat} (htheory : session.theoryDepth = some level) (assertion : Assertion)
    (hstack : engine.stack = session.engine.stack.push ∨
      engine.stack = session.engine.stack.push.assert assertion)
    (goal : SExpr) :
    ({ session with
        engine, depth := session.depth + 1, goalDepth := some (session.depth + 1) } :
        Session Scripted).Coherent accepted
      (goals.push.assert goal) := by
  have hpush : ({ session with
      engine := { session.engine with frames := [] :: session.engine.frames }
      depth := session.depth + 1 } : Session Scripted).Coherent accepted goals.push :=
    h.push rfl
  have hassert : ({ session with engine, depth := session.depth + 1 } :
      Session Scripted).Coherent accepted goals.push := by
    rcases hstack with hstack | hstack
    · exact hpush.sameFrames hstack session.signature session.verdict session.counterexamples
    · exact hpush.assert hstack
  have hkept := h.goals_kept
  have hdepth : session.keptDepth = session.depth := by simp [keptDepth, hgoal]
  rw [hdepth] at hkept
  refine
    { depth_eq := hassert.depth_eq, theory_le := hassert.theory_le, goal_le := ?_,
      axioms_eq := h.axioms_eq, theory_mem := hassert.theory_mem, goals_depth := ?_,
      goals_kept := ?_ }
  · intro posed hposed
    obtain rfl := Option.some.inj hposed
    exact ⟨level, htheory, Nat.lt_succ_of_le (h.theory_le level htheory), Nat.le_refl _⟩
  · simp [h.goals_depth]
  · have hbelow : session.depth < goals.push.depth := by simp [h.goals_depth]
    change ((goals.push.assert goal).truncate session.depth).entries = []
    rw [Stack.truncate_assert hbelow, Stack.truncate_push (Nat.le_of_eq h.goals_depth.symm), hkept]

/-! ### What the steps of an operation keep -/

/-- Coherence after an action from this session, however it ends, with its calls noted as calls of
`operation`. -/
def KeepsAt (operation : Operation) (action : Action (Session Scripted) Failure Unit)
    (session : Session Scripted) (accepted : List SExpr) (goals : Stack SExpr) : Prop :=
  ∃ events, (action.run session).2.engine.events = session.engine.events ++ events ∧
    Coherent (action.run session).2 accepted (events.foldl operation.noteCall goals)

def Keeps (operation : Operation) (action : Action (Session Scripted) Failure Unit) : Prop :=
  ∀ session accepted goals, Coherent session accepted goals →
    KeepsAt operation action session accepted goals

variable {operation : Operation}

theorem Coherent.bind (h : session.Coherent accepted goals)
    {action : Action (Session Scripted) Failure Unit}
    {next : Unit → Action (Session Scripted) Failure Unit} (hfirst : Keeps operation action)
    (hnext : ∀ middle goals, action.run session = (.ok (), middle) →
      Coherent middle accepted goals → KeepsAt operation (next ()) middle accepted goals) :
    KeepsAt operation (action >>= next) session accepted goals := by
  obtain ⟨events, hevents, hmiddle⟩ := hfirst session accepted goals h
  rcases hrun : action.run session with ⟨failure | _, middle⟩
  · rw [hrun] at hevents hmiddle
    rw [KeepsAt, Action.run_bind_error hrun]
    exact ⟨events, hevents, hmiddle⟩
  · rw [hrun] at hevents hmiddle
    rw [KeepsAt, Action.run_bind_ok hrun]
    obtain ⟨later, hlater, hlast⟩ := hnext middle _ hrun hmiddle
    refine ⟨events ++ later, ?_, ?_⟩
    · rw [hlater, hevents, List.append_assoc]
    · rwa [List.foldl_append]

theorem keeps_bind {action : Action (Session Scripted) Failure Unit}
    {next : Unit → Action (Session Scripted) Failure Unit} (hfirst : Keeps operation action)
    (hnext : Keeps operation (next ())) : Keeps operation (action >>= next) := by
  intro session accepted goals h
  exact h.bind hfirst fun middle goals _ hmiddle => hnext middle accepted goals hmiddle

theorem Coherent.unchanged (h : session.Coherent accepted goals) {events : List Event}
    (hcalled : session.engine.Called engine events session.engine.stack)
    (hnote : events.foldl operation.noteCall goals = goals) (signature : Signature)
    (verdict : Verdict) (counterexamples : List Counterexample) :
    ∃ events, engine.events = session.engine.events ++ events ∧
      ({ session with engine, signature, verdict, counterexamples } : Session Scripted).Coherent
        accepted (events.foldl operation.noteCall goals) := by
  refine ⟨events, hcalled.events_eq, ?_⟩
  rw [hnote]
  exact h.sameFrames hcalled.stack_eq signature verdict counterexamples

theorem keeps_push : Keeps operation push := by
  intro session accepted goals h
  rcases push_outcome session with ⟨engine, hrun, hcalled⟩ | ⟨failure, engine, hrun, hcalled⟩
  · rw [KeepsAt, hrun]
    exact ⟨_, hcalled.events_eq, h.push hcalled.stack_eq⟩
  · rw [KeepsAt, hrun]
    exact h.unchanged hcalled rfl _ _ _

theorem keeps_pop : Keeps operation pop := by
  intro session accepted goals h
  by_cases hdepth : session.depth = 0
  · rw [KeepsAt, run_pop_noFrame hdepth]
    exact ⟨[], (List.append_nil _).symm, h⟩
  · rcases pop_outcome h.toLevelled hdepth with
      ⟨engine, hrun, hcalled⟩ | ⟨failure, engine, hrun, hcalled⟩
    · rw [KeepsAt, hrun]
      refine ⟨_, hcalled.events_eq, ?_⟩
      change Coherent _ accepted (goals.truncate (goals.depth - 1))
      rw [h.goals_depth]
      exact h.lower (Nat.sub_le _ _) hcalled
    · rw [KeepsAt, hrun]
      exact h.unchanged hcalled rfl _ _ _

theorem keeps_assertAxiom (formula : SExpr) :
    Keeps operation (call (Engine.assertAxiom formula)) := by
  intro session accepted goals h
  rcases call_outcome (answers_assertAxiom formula session.engine) with
    ⟨engine, hrun, hcalled⟩ | ⟨failure, engine, hrun, hcalled⟩
  · rw [KeepsAt, hrun]
    exact ⟨_, hcalled.events_eq, h.assert hcalled.stack_eq⟩
  · rw [KeepsAt, hrun]
    exact h.unchanged hcalled rfl _ _ _

/-- A conjecture is a goal of a check only for the check itself. -/
theorem keeps_assertConjecture (formula : SExpr) (hoperation : ∀ name goal,
    operation ≠ .checkGoal name goal) :
    Keeps operation (call (Engine.assertConjecture formula)) := by
  intro session accepted goals h
  have hnote : [Event.assertConjecture formula].foldl operation.noteCall goals = goals := by
    cases operation with
    | checkGoal name goal => exact absurd rfl (hoperation name goal)
    | _ => rfl
  rcases conjecture_outcome formula session with
    ⟨engine, hrun, hcalled⟩ | ⟨failure, engine, hrun, hcalled⟩
  · rw [KeepsAt, hrun]
    refine ⟨_, hcalled.events_eq, ?_⟩
    rw [hnote]
    exact h.assert hcalled.stack_eq
  · rw [KeepsAt, hrun]
    exact h.unchanged hcalled hnote _ _ _

theorem keeps_remark (text : String) : Keeps operation (note (Engine.remark text)) := by
  intro session accepted goals h
  exact h.unchanged ((Called.refl session.engine).record (.remark text)) rfl _ _ _

theorem keeps_checkAsserted (name : String) : Keeps operation (checkAsserted name) := by
  intro session accepted goals h
  obtain ⟨result, verdict, counterexamples, engine, hrun, -, hcalled⟩ :=
    checkAsserted_outcome name session
  rw [KeepsAt, hrun]
  exact h.unchanged hcalled rfl _ _ _

theorem foldl_noteCall_of_isDeclaration {events : List Event}
    (h : ∀ event ∈ events, event.isDeclaration) (goals : Stack SExpr) :
    events.foldl operation.noteCall goals = goals := by
  induction events with
  | nil => rfl
  | cons event events ih =>
      have hhead : operation.noteCall goals event = goals := by
        have hevent := h event (List.mem_cons_self ..)
        cases event with
        | declareSort name => rfl
        | declareConst name ty => rfl
        | declareFun name domain range => rfl
        | _ => contradiction
      rw [List.foldl_cons, hhead]
      exact ih fun event hmem => h event (List.mem_cons_of_mem _ hmem)

theorem keeps_declare (declaration : Declaration) :
    Keeps operation (Session.declare declaration) := by
  intro session accepted goals h
  cases hdeclare : session.signature.declare declaration with
  | error error =>
      rw [KeepsAt, run_declare_refused hdeclare]
      exact ⟨[], (List.append_nil _).symm, h⟩
  | ok signature =>
      rw [KeepsAt, run_declare_accepted hdeclare]
      obtain ⟨events, hcalled, hevents⟩ := called_declareTo declaration session.engine
      exact h.unchanged hcalled (foldl_noteCall_of_isDeclaration hevents goals) _ _ _

theorem keeps_assumeInFrame (formula : SExpr) : Keeps operation (assumeInFrame formula) :=
  keeps_bind keeps_push (keeps_assertAxiom formula)

theorem keeps_refuteInFrame (formula : SExpr) (hoperation : ∀ name goal,
    operation ≠ .checkGoal name goal) : Keeps operation (refuteInFrame formula) :=
  keeps_bind keeps_push (keeps_assertConjecture formula hoperation)

theorem keeps_stageGoal (name : String) (goal : SExpr) (hoperation : ∀ name goal,
    operation ≠ .checkGoal name goal) : Keeps operation (stageGoal name goal) := by
  apply keeps_bind (keeps_remark _)
  intro session accepted goals h
  rw [KeepsAt, Action.run_bind_ok (Action.run_get session)]
  exact keeps_bind (keeps_assumeInFrame _) (keeps_refuteInFrame goal hoperation) session accepted
    goals h

/-! ### The check of a goal -/

theorem keeps_popMany (count : Nat) : Keeps operation (popMany count) := by
  induction count with
  | zero =>
      intro session accepted goals h
      exact ⟨[], (List.append_nil _).symm, h⟩
  | succ count ih => exact keeps_bind keeps_pop ih

theorem keeps_dropGoal : Keeps operation dropGoal := by
  intro session accepted goals h
  by_cases hgoal : session.goalDepth = none
  · rw [KeepsAt, run_dropGoal_none hgoal]
    exact ⟨[], (List.append_nil _).symm, h⟩
  · obtain ⟨level, hgoal⟩ := Option.ne_none_iff_exists'.mp hgoal
    rw [KeepsAt, run_dropGoal_some hgoal]
    exact keeps_popMany _ session accepted goals h

theorem keeps_loadTheory : Keeps operation loadTheory := by
  intro session accepted goals h
  by_cases htheory : session.theoryDepth = none
  · rcases answers_assertAxiom session.theory session.engine with
      ⟨engine, hrun, hcalled⟩ | ⟨failure, engine, hrun, hcalled⟩
    · rw [KeepsAt, run_loadTheory_ok htheory hrun]
      exact ⟨_, hcalled.events_eq, h.load htheory hcalled.stack_eq⟩
    · rw [KeepsAt, run_loadTheory_error htheory hrun]
      exact h.unchanged hcalled rfl _ _ _
  · obtain ⟨level, htheory⟩ := Option.ne_none_iff_exists'.mp htheory
    rw [KeepsAt, run_loadTheory_loaded htheory]
    exact ⟨[], (List.append_nil _).symm, h⟩

theorem run_loadTheory_fields {loaded : Session Scripted}
    (h : loadTheory.run session = (.ok (), loaded)) :
    (∃ level, loaded.theoryDepth = some level) ∧ loaded.goalDepth = session.goalDepth := by
  by_cases htheory : session.theoryDepth = none
  · rcases answers_assertAxiom session.theory session.engine with
      ⟨engine, hrun, -⟩ | ⟨failure, engine, hrun, -⟩
    · rw [run_loadTheory_ok htheory hrun] at h
      obtain ⟨-, rfl⟩ := Prod.mk.inj h
      exact ⟨⟨session.depth, rfl⟩, rfl⟩
    · rw [run_loadTheory_error htheory hrun] at h
      simp at h
  · obtain ⟨level, htheory⟩ := Option.ne_none_iff_exists'.mp htheory
    rw [run_loadTheory_loaded htheory] at h
    obtain ⟨-, rfl⟩ := Prod.mk.inj h
    exact ⟨⟨level, htheory⟩, rfl⟩

theorem Levelled.goalDepth_dropGoal (h : session.Levelled) {dropped : Session Scripted}
    (hdrop : dropGoal.run session = (.ok (), dropped)) : dropped.goalDepth = none := by
  rcases dropGoal_outcome h with ⟨engine, hrun, -⟩ | ⟨_, _, _, _, _, _, _, hrun, -⟩
  · rw [hrun] at hdrop
    obtain ⟨-, rfl⟩ := Prod.mk.inj hdrop
    rfl
  · rw [hrun] at hdrop
    simp at hdrop

theorem Coherent.poseGoal (h : session.Coherent accepted goals) {level : Nat}
    (htheory : session.theoryDepth = some level) (hgoal : session.goalDepth = none)
    (name : String) (goal : SExpr) :
    KeepsAt (.checkGoal name goal) (Session.poseGoal name goal) session accepted goals := by
  have houtcome := poseGoal_outcome name goal session
  unfold KeepsAt
  generalize (Session.poseGoal name goal).run session = final at houtcome ⊢
  cases houtcome with
  | unopened hcalled => exact h.unchanged hcalled rfl _ _ _
  | unposed hcalled =>
      exact ⟨_, hcalled.events_eq,
        h.pose hgoal htheory (.conjectured goal) (Or.inl hcalled.stack_eq) goal⟩
  | asked hcalled hcheck =>
      have hposed := h.pose hgoal htheory _ (Or.inr hcalled.stack_eq) goal
      have hkeeps : KeepsAt (.checkGoal name goal) (checkAsserted name) _ accepted _ :=
        keeps_checkAsserted name _ _ _ hposed
      rw [KeepsAt, hcheck] at hkeeps
      obtain ⟨events, hevents, hchecked⟩ := hkeeps
      refine ⟨[.remark ("check " ++ name), .push, .assertConjecture goal] ++ events, ?_, ?_⟩
      · rw [hevents, ← List.append_assoc]
        exact congrArg (· ++ events) hcalled.events_eq
      · rwa [List.foldl_append]

theorem keeps_checkGoal (name : String) (goal : SExpr) :
    Keeps (.checkGoal name goal) (checkGoal name goal) := by
  intro session accepted goals h
  rw [checkGoal_eq]
  refine h.bind keeps_dropGoal fun dropped goals hdrop hdropped => ?_
  refine hdropped.bind keeps_loadTheory fun loaded goals hload hloaded => ?_
  obtain ⟨⟨level, htheory⟩, hgoal⟩ := run_loadTheory_fields hload
  rw [h.goalDepth_dropGoal hdrop] at hgoal
  exact hloaded.poseGoal htheory hgoal name goal

/-! ### Histories -/

theorem Coherent.assume (h : session.Coherent accepted goals) (formula : SExpr) :
    ((Session.assume formula).run session).2.engine = session.engine ∧
      Coherent ((Session.assume formula).run session).2
        ((Operation.assume formula).noteAxiom ((Session.assume formula).run session).1 accepted)
        goals := by
  by_cases htheory : session.theoryDepth = none
  · rw [run_assume_ok htheory]
    refine ⟨rfl, ?_⟩
    refine
      { depth_eq := h.depth_eq, theory_le := h.theory_le, goal_le := h.goal_le
        axioms_eq := congrArg (· ++ [formula]) h.axioms_eq
        theory_mem := ?_, goals_depth := h.goals_depth, goals_kept := h.goals_kept }
    intro level hlevel
    change session.theoryDepth = some level at hlevel
    rw [htheory] at hlevel
    contradiction
  · obtain ⟨level, htheory⟩ := Option.ne_none_iff_exists'.mp htheory
    rw [run_assume_late htheory]
    exact ⟨rfl, h⟩

theorem Coherent.perform (h : session.Coherent accepted goals) (operation : Operation) :
    ∃ events, (operation.perform.run session).2.engine.events =
        session.engine.events ++ events ∧
      Coherent (operation.perform.run session).2
        (operation.noteAxiom (operation.perform.run session).1 accepted)
        (events.foldl operation.noteCall goals) := by
  cases operation with
  | declare declaration => exact keeps_declare declaration session accepted goals h
  | assume formula =>
      obtain ⟨hengine, hcoherent⟩ := h.assume formula
      exact ⟨[], by rw [List.append_nil]; exact congrArg Scripted.events hengine, hcoherent⟩
  | push => exact keeps_push session accepted goals h
  | pop => exact keeps_pop session accepted goals h
  | assumeInFrame formula => exact keeps_assumeInFrame formula session accepted goals h
  | refuteInFrame formula =>
      exact keeps_refuteInFrame formula (by simp) session accepted goals h
  | stageGoal name goal =>
      exact keeps_stageGoal name goal (by simp) session accepted goals h
  | checkAsserted name => exact keeps_checkAsserted name session accepted goals h
  | checkGoal name goal => exact keeps_checkGoal name goal session accepted goals h
  | outcome => exact ⟨[], (List.append_nil _).symm, h⟩

theorem coherent_start (settings : Settings) :
    (start Scripted.empty settings).Coherent [] {} where
  depth_eq := rfl
  theory_le := nofun
  goal_le := nofun
  axioms_eq := rfl
  theory_mem := nofun
  goals_depth := rfl
  goals_kept := rfl

namespace History

def Coherent (history : History) : Prop :=
  history.session.Coherent history.accepted history.goals

variable {history : History}

theorem Coherent.perform (h : history.Coherent) (operation : Operation) :
    (history.perform operation).Coherent := by
  obtain ⟨events, hevents, hcoherent⟩ := Session.Coherent.perform h operation
  rw [perform_eq operation hevents]
  exact hcoherent

theorem Coherent.take (h : history.Coherent) (step : Step) : (history.take step).Coherent := by
  cases step with
  | perform operation => exact h.perform operation
  | script answers conjectureFault faults =>
      have hengine : ({ history.session.engine with answers, conjectureFault, faults } :
          Scripted).stack = history.session.engine.stack := rfl
      exact Session.Coherent.sameFrames h hengine history.session.signature history.session.verdict
        history.session.counterexamples

theorem coherent_after (settings : Settings) (steps : List Step) :
    (after settings steps).Coherent :=
  after_induction coherent_start (fun _ step h => h.take step) settings steps

end History

end SmtSession.Session
