import SmtSession.Proofs.Coherence

/-!
# Scopes

A client opens a scope with a frame and closes it by dropping the frames down to where it began. As
long as nothing drops the scope's own frame in between, not even a check that drops the goal before
it, the frames and the levels are then what they were. The declarations and the axioms that were
accepted in the scope stay.
-/

namespace SmtSession

open Scripted

/-- The depth of the frames after a call. -/
def Scripted.Event.depthAfter (depth : Nat) : Event → Nat
  | .push => depth + 1
  | .pop => depth - 1
  | _ => depth

namespace Session

/-- These calls never bring the frames down to `floor`, not even for a time. -/
def StaysAbove (floor depth : Nat) (events : List Event) : Prop :=
  ∀ prior, prior <+: events → floor < prior.foldl Event.depthAfter depth

instance (floor depth : Nat) (events : List Event) : Decidable (StaysAbove floor depth events) := by
  refine decidable_of_iff (∀ count < events.length + 1,
    floor < (events.take count).foldl Event.depthAfter depth) ⟨?_, ?_⟩
  · intro h prior hprior
    rw [List.prefix_iff_eq_take.mp hprior]
    exact h prior.length (Nat.lt_succ_of_le hprior.length_le)
  · intro h count _
    exact h (events.take count) (List.take_prefix count events)

theorem staysAbove_append {floor depth : Nat} {events later : List Event}
    (h : StaysAbove floor depth (events ++ later)) :
    StaysAbove floor depth events ∧
      StaysAbove floor (events.foldl Event.depthAfter depth) later := by
  refine ⟨?_, ?_⟩
  · intro prior hprior
    exact h prior (hprior.trans (List.prefix_append events later))
  · intro prior hprior
    rw [← List.foldl_append]
    exact h (events ++ prior) ((List.prefix_append_right_inj events).mpr hprior)

theorem StaysAbove.lt_foldl {floor depth : Nat} {events : List Event}
    (h : StaysAbove floor depth events) : floor < events.foldl Event.depthAfter depth :=
  h events (List.prefix_refl events)

/-- A state inside the scope that was opened in `outer`: below the scope's own frame everything is
as it was. -/
structure Within (outer session : Session Scripted) : Prop where
  depth_eq : session.depth = session.engine.depth
  above : outer.depth < session.depth
  stack_eq : session.engine.stack.truncate outer.depth = outer.engine.stack
  theory_eq : keepDepth outer.depth session.theoryDepth = outer.theoryDepth
  goal_eq : keepDepth outer.depth session.goalDepth = outer.goalDepth

variable {outer session next last : Session Scripted} {engine : Scripted} {events later : List Event}

/-! ### What single effects do inside a scope -/

theorem Within.depth_lt (h : Within outer session) :
    outer.depth < session.engine.stack.depth := by
  rw [depth_stack, ← h.depth_eq]
  exact h.above

theorem Within.sameFrames (h : Within outer session)
    (hstack : engine.stack = session.engine.stack) (signature : Signature) (axioms : List SExpr)
    (verdict : Verdict) (counterexamples : List Counterexample) :
    Within outer { session with engine, signature, axioms, verdict, counterexamples } := by
  have hdepth : engine.depth = session.engine.depth := congrArg Stack.depth hstack
  refine
    { depth_eq := h.depth_eq.trans hdepth.symm, above := h.above, stack_eq := ?_,
      theory_eq := h.theory_eq, goal_eq := h.goal_eq }
  rw [hstack]
  exact h.stack_eq

theorem Within.assert (h : Within outer session) {assertion : Assertion}
    (hstack : engine.stack = session.engine.stack.assert assertion) :
    Within outer { session with engine } := by
  have hdepth : engine.depth = session.engine.depth := by
    rw [← depth_stack, hstack, Stack.depth_assert, depth_stack]
  refine
    { depth_eq := h.depth_eq.trans hdepth.symm, above := h.above, stack_eq := ?_,
      theory_eq := h.theory_eq, goal_eq := h.goal_eq }
  rw [hstack, Stack.truncate_assert h.depth_lt]
  exact h.stack_eq

theorem Within.push (h : Within outer session)
    (hstack : engine.stack = session.engine.stack.push) :
    Within outer { session with engine, depth := session.depth + 1 } := by
  have hdepth : engine.depth = session.engine.depth + 1 := congrArg Stack.depth hstack
  refine
    { depth_eq := ?_, above := Nat.lt_succ_of_lt h.above, stack_eq := ?_, theory_eq := h.theory_eq,
      goal_eq := h.goal_eq }
  · change session.depth + 1 = engine.depth
    rw [hdepth, h.depth_eq]
  · rw [hstack, Stack.truncate_push (Nat.le_of_lt h.depth_lt)]
    exact h.stack_eq

theorem Within.lower (h : Within outer session) {depth : Nat} (habove : outer.depth < depth)
    (hdepth : depth ≤ session.depth)
    (hstack : engine.stack = session.engine.stack.truncate depth) :
    Within outer (Session.lower depth { session with engine }) := by
  have hle : outer.depth ≤ depth := Nat.le_of_lt habove
  refine
    { depth_eq := ?_, above := habove, stack_eq := ?_, theory_eq := ?_, goal_eq := ?_ }
  · change depth = engine.depth
    rw [← depth_stack, hstack, Stack.depth_truncate, depth_stack, ← h.depth_eq]
    exact (Nat.min_eq_left hdepth).symm
  · change engine.stack.truncate outer.depth = _
    rw [hstack, Stack.truncate_truncate hle]
    exact h.stack_eq
  · exact (keepDepth_keepDepth hle _).trans h.theory_eq
  · exact (keepDepth_keepDepth hle _).trans h.goal_eq

/-- A level that is reached inside the scope is forgotten with it. -/
theorem Within.load (h : Within outer session) (htheory : session.theoryDepth = none) :
    Within outer { session with theoryDepth := some session.depth } := by
  refine
    { depth_eq := h.depth_eq, above := h.above, stack_eq := h.stack_eq, theory_eq := ?_,
      goal_eq := h.goal_eq }
  rw [← h.theory_eq, htheory]
  exact keepDepth_of_lt h.above

theorem Within.pose (h : Within outer session) (hgoal : session.goalDepth = none) :
    Within outer { session with goalDepth := some session.depth } := by
  refine
    { depth_eq := h.depth_eq, above := h.above, stack_eq := h.stack_eq, theory_eq := h.theory_eq,
      goal_eq := ?_ }
  rw [← h.goal_eq, hgoal]
  exact keepDepth_of_lt h.above

/-! ### What operations do inside a scope -/

/-- From one state to another by these calls: the depth is theirs, and a scope that they stay in is
not left. -/
structure Reaches (session : Session Scripted) (events : List Event) (next : Session Scripted) :
    Prop where
  events_eq : next.engine.events = session.engine.events ++ events
  depth_eq : next.depth = events.foldl Event.depthAfter session.depth
  within : ∀ outer, Within outer session → StaysAbove outer.depth session.depth events →
    Within outer next

theorem Reaches.refl (session : Session Scripted) : Reaches session [] session :=
  ⟨(List.append_nil _).symm, rfl, fun _ h _ => h⟩

theorem Reaches.trans (h : Reaches session events next) (h' : Reaches next later last) :
    Reaches session (events ++ later) last := by
  refine ⟨?_, ?_, ?_⟩
  · rw [h'.events_eq, h.events_eq, List.append_assoc]
  · rw [h'.depth_eq, h.depth_eq, List.foldl_append]
  · intro outer houter habove
    obtain ⟨hfirst, hlast⟩ := staysAbove_append habove
    rw [← h.depth_eq] at hlast
    exact h'.within outer (h.within outer houter hfirst) hlast

theorem foldl_depthAfter_of_forall (h : ∀ event ∈ events, event ≠ .push ∧ event ≠ .pop)
    (depth : Nat) : events.foldl Event.depthAfter depth = depth := by
  induction events with
  | nil => rfl
  | cons event events ih =>
      obtain ⟨⟨hpush, hpop⟩, hrest⟩ := List.forall_mem_cons.mp h
      have hhead : Event.depthAfter depth event = depth := by
        cases event with
        | push => exact absurd rfl hpush
        | pop => exact absurd rfl hpop
        | _ => rfl
      rw [List.foldl_cons, hhead, ih hrest]

theorem foldl_depthAfter_pop (count depth : Nat) :
    (List.replicate count Event.pop).foldl Event.depthAfter depth = depth - count := by
  induction count generalizing depth with
  | zero => rfl
  | succ count ih =>
      rw [List.replicate_succ, List.foldl_cons, ih]
      change depth - 1 - count = _
      omega

theorem reaches_sameFrames (hcalled : session.engine.Called engine events session.engine.stack)
    (hevents : ∀ event ∈ events, event ≠ .push ∧ event ≠ .pop) (signature : Signature)
    (axioms : List SExpr) (verdict : Verdict) (counterexamples : List Counterexample) :
    Reaches session events
      { session with engine, signature, axioms, verdict, counterexamples } := by
  refine ⟨hcalled.events_eq, (foldl_depthAfter_of_forall hevents _).symm, ?_⟩
  intro outer h _
  exact h.sameFrames hcalled.stack_eq signature axioms verdict counterexamples

theorem reaches_assert {assertion : Assertion}
    (hcalled : session.engine.Called engine events (session.engine.stack.assert assertion))
    (hevents : ∀ event ∈ events, event ≠ .push ∧ event ≠ .pop) :
    Reaches session events { session with engine } := by
  refine ⟨hcalled.events_eq, (foldl_depthAfter_of_forall hevents _).symm, ?_⟩
  intro outer h _
  exact h.assert hcalled.stack_eq

theorem reaches_lower {depth : Nat} (hdepth : depth ≤ session.depth)
    (hcalled : session.engine.Called engine (List.replicate (session.depth - depth) .pop)
      (session.engine.stack.truncate depth)) :
    Reaches session (List.replicate (session.depth - depth) .pop)
      (Session.lower depth { session with engine }) := by
  have hfoldl : (List.replicate (session.depth - depth) Event.pop).foldl Event.depthAfter
      session.depth = depth := by
    rw [foldl_depthAfter_pop]
    omega
  refine ⟨hcalled.events_eq, hfoldl.symm, ?_⟩
  intro outer h habove
  have hlt := habove.lt_foldl
  rw [hfoldl] at hlt
  exact h.lower hlt hdepth hcalled.stack_eq

/-- What an action does from a state, however it ends. The declarations stay as they are. -/
def Advances (action : Action (Session Scripted) Failure Unit) (session : Session Scripted) :
    Prop :=
  ∃ events, Reaches session events (action.run session).2 ∧
    (action.run session).2.signature = session.signature

theorem advances_bind {action : Action (Session Scripted) Failure Unit}
    {next : Unit → Action (Session Scripted) Failure Unit} (hfirst : Advances action session)
    (hnext : ∀ middle, action.run session = (.ok (), middle) → Advances (next ()) middle) :
    Advances (action >>= next) session := by
  obtain ⟨events, hreaches, hsignature⟩ := hfirst
  rcases hrun : action.run session with ⟨failure | _, middle⟩
  · rw [hrun] at hreaches hsignature
    rw [Advances, Action.run_bind_error hrun]
    exact ⟨events, hreaches, hsignature⟩
  · rw [hrun] at hreaches hsignature
    rw [Advances, Action.run_bind_ok hrun]
    obtain ⟨later, hlater, hsignature'⟩ := hnext middle hrun
    exact ⟨events ++ later, hreaches.trans hlater, hsignature'.trans hsignature⟩

theorem advances_push (session : Session Scripted) : Advances push session := by
  rcases push_outcome session with ⟨engine, hrun, hcalled⟩ | ⟨failure, engine, hrun, hcalled⟩
  · rw [Advances, hrun]
    exact ⟨[.push], ⟨hcalled.events_eq, rfl, fun outer h _ => h.push hcalled.stack_eq⟩, rfl⟩
  · rw [Advances, hrun]
    exact ⟨[], reaches_sameFrames hcalled nofun _ _ _ _, rfl⟩

theorem Levelled.advances_pop (h : session.Levelled) : Advances pop session := by
  by_cases hdepth : session.depth = 0
  · rw [Advances, run_pop_noFrame hdepth]
    exact ⟨[], .refl session, rfl⟩
  · have hone : session.depth - (session.depth - 1) = 1 := by omega
    rcases pop_outcome h hdepth with ⟨engine, hrun, hcalled⟩ | ⟨failure, engine, hrun, hcalled⟩
    · rw [Advances, hrun]
      refine ⟨_, reaches_lower (Nat.sub_le _ _) ?_, rfl⟩
      rw [hone]
      exact hcalled
    · rw [Advances, hrun]
      exact ⟨[], reaches_sameFrames hcalled nofun _ _ _ _, rfl⟩

theorem advances_assertAxiom (formula : SExpr) (session : Session Scripted) :
    Advances (call (Engine.assertAxiom formula)) session := by
  rcases call_outcome (answers_assertAxiom formula session.engine) with
    ⟨engine, hrun, hcalled⟩ | ⟨failure, engine, hrun, hcalled⟩
  · rw [Advances, hrun]
    exact ⟨_, reaches_assert hcalled (by simp), rfl⟩
  · rw [Advances, hrun]
    exact ⟨[], reaches_sameFrames hcalled nofun _ _ _ _, rfl⟩

theorem advances_assertConjecture (formula : SExpr) (session : Session Scripted) :
    Advances (call (Engine.assertConjecture formula)) session := by
  rcases conjecture_outcome formula session with
    ⟨engine, hrun, hcalled⟩ | ⟨failure, engine, hrun, hcalled⟩
  · rw [Advances, hrun]
    exact ⟨_, reaches_assert hcalled (by simp), rfl⟩
  · rw [Advances, hrun]
    exact ⟨_, reaches_sameFrames hcalled (by simp) _ _ _ _, rfl⟩

theorem advances_remark (text : String) (session : Session Scripted) :
    Advances (note (Engine.remark text)) session := by
  have hcalled := (Called.refl session.engine).record (.remark text)
  exact ⟨_, reaches_sameFrames hcalled (by simp) _ _ _ _, rfl⟩

theorem advances_checkAsserted (name : String) (session : Session Scripted) :
    Advances (checkAsserted name) session := by
  obtain ⟨result, verdict, counterexamples, engine, hrun, -, hcalled⟩ :=
    checkAsserted_outcome name session
  rw [Advances, hrun]
  exact ⟨_, reaches_sameFrames hcalled (by simp) _ _ _ _, rfl⟩

theorem advances_assume (formula : SExpr) (session : Session Scripted) :
    Advances (Session.assume formula) session := by
  by_cases htheory : session.theoryDepth = none
  · rw [Advances, run_assume_ok htheory]
    exact ⟨[], reaches_sameFrames (Called.refl session.engine) nofun _ _ _ _, rfl⟩
  · obtain ⟨level, htheory⟩ := Option.ne_none_iff_exists'.mp htheory
    rw [Advances, run_assume_late htheory]
    exact ⟨[], .refl session, rfl⟩

theorem advances_assumeInFrame (formula : SExpr) (session : Session Scripted) :
    Advances (assumeInFrame formula) session :=
  advances_bind (advances_push session) fun middle _ => advances_assertAxiom formula middle

theorem advances_refuteInFrame (formula : SExpr) (session : Session Scripted) :
    Advances (refuteInFrame formula) session :=
  advances_bind (advances_push session) fun middle _ => advances_assertConjecture formula middle

theorem advances_stageGoal (name : String) (goal : SExpr) (session : Session Scripted) :
    Advances (stageGoal name goal) session := by
  refine advances_bind (advances_remark _ session) fun remarked _ => ?_
  rw [Advances, Action.run_bind_ok (Action.run_get remarked)]
  exact advances_bind (advances_assumeInFrame _ remarked) fun assumed _ =>
    advances_refuteInFrame goal assumed

theorem Levelled.advances_dropGoal (h : session.Levelled) : Advances dropGoal session := by
  rcases dropGoal_outcome h with
    ⟨engine, hrun, hcalled⟩ | ⟨level, depth, _, engine, hgoal, hle, hdepth, hrun, hcalled⟩
  · rw [Advances, hrun, ← h.lower_keptDepth]
    exact ⟨_, reaches_lower h.keptDepth_le hcalled, rfl⟩
  · rw [Advances, hrun, ← h.lower_of_goal_le hgoal hle]
    exact ⟨_, reaches_lower hdepth hcalled, rfl⟩

theorem advances_loadTheory (session : Session Scripted) : Advances loadTheory session := by
  by_cases htheory : session.theoryDepth = none
  · rcases answers_assertAxiom session.theory session.engine with
      ⟨engine, hrun, hcalled⟩ | ⟨failure, engine, hrun, hcalled⟩
    · rw [Advances, run_loadTheory_ok htheory hrun]
      have hassert : Reaches session _ { session with engine } :=
        reaches_assert hcalled (by simp)
      refine ⟨_, ⟨hassert.events_eq, hassert.depth_eq, fun outer h habove => ?_⟩, rfl⟩
      exact (hassert.within outer h habove).load htheory
    · rw [Advances, run_loadTheory_error htheory hrun]
      exact ⟨[], reaches_sameFrames hcalled nofun _ _ _ _, rfl⟩
  · obtain ⟨level, htheory⟩ := Option.ne_none_iff_exists'.mp htheory
    rw [Advances, run_loadTheory_loaded htheory]
    exact ⟨[], .refl session, rfl⟩

theorem goalDepth_push (h : push.run session = (.ok (), next)) :
    next.goalDepth = session.goalDepth := by
  rcases push_outcome session with ⟨engine, hrun, -⟩ | ⟨failure, engine, hrun, -⟩
  · rw [hrun] at h
    obtain ⟨-, rfl⟩ := Prod.mk.inj h
    rfl
  · rw [hrun] at h
    simp at h

theorem advances_poseGoal (hgoal : session.goalDepth = none) (name : String) (goal : SExpr) :
    Advances (poseGoal name goal) session := by
  refine advances_bind (advances_remark _ session) fun remarked hremark => ?_
  obtain ⟨-, rfl⟩ := Prod.mk.inj hremark
  refine advances_bind (advances_push _) fun opened hpush => ?_
  have hopened : opened.goalDepth = none := (goalDepth_push hpush).trans hgoal
  have hmark : Reaches opened [] { opened with goalDepth := some opened.depth } :=
    ⟨(List.append_nil _).symm, rfl, fun outer h _ => h.pose hopened⟩
  refine advances_bind ⟨[], hmark, rfl⟩ fun posed _ => ?_
  exact advances_bind (advances_assertConjecture goal posed) fun asserted _ =>
    advances_checkAsserted name asserted

theorem Levelled.advances_checkGoal (h : session.Levelled) (name : String) (goal : SExpr) :
    Advances (checkGoal name goal) session := by
  rw [checkGoal_eq]
  refine advances_bind h.advances_dropGoal fun dropped hdrop => ?_
  refine advances_bind (advances_loadTheory dropped) fun loaded hload => ?_
  obtain ⟨-, hgoal⟩ := run_loadTheory_fields hload
  rw [h.goalDepth_dropGoal hdrop] at hgoal
  exact advances_poseGoal hgoal name goal

/-- The signature after an operation. A declaration is recorded also if the engine fails to take
it. -/
def Operation.noteDeclaration (signature : Signature) : Operation → Signature
  | .declare declaration =>
    match signature.declare declaration with
    | .ok extended => extended
    | .error _ => signature
  | _ => signature

theorem reaches_declare (declaration : Declaration) (session : Session Scripted) :
    ∃ events, Reaches session events ((Session.declare declaration).run session).2 ∧
      ((Session.declare declaration).run session).2.signature =
        (Operation.declare declaration).noteDeclaration session.signature := by
  cases hdeclare : session.signature.declare declaration with
  | error error =>
      rw [run_declare_refused hdeclare, Operation.noteDeclaration, hdeclare]
      exact ⟨[], .refl session, rfl⟩
  | ok signature =>
      rw [run_declare_accepted hdeclare, Operation.noteDeclaration, hdeclare]
      obtain ⟨events, hcalled, hevents⟩ := called_declareTo declaration session.engine
      refine ⟨events, reaches_sameFrames hcalled ?_ _ _ _ _, rfl⟩
      intro event hmem
      have hevent := hevents event hmem
      refine ⟨?_, ?_⟩
      · rintro rfl
        contradiction
      · rintro rfl
        contradiction

theorem Levelled.reaches_perform (h : session.Levelled) (operation : Operation) :
    ∃ events, Reaches session events (operation.perform.run session).2 ∧
      (operation.perform.run session).2.signature =
        operation.noteDeclaration session.signature := by
  cases operation with
  | declare declaration => exact reaches_declare declaration session
  | assume formula => exact advances_assume formula session
  | push => exact advances_push session
  | pop => exact h.advances_pop
  | assumeInFrame formula => exact advances_assumeInFrame formula session
  | refuteInFrame formula => exact advances_refuteInFrame formula session
  | stageGoal name goal => exact advances_stageGoal name goal session
  | checkAsserted name => exact advances_checkAsserted name session
  | checkGoal name goal => exact h.advances_checkGoal name goal
  | outcome => exact ⟨[], .refl session, rfl⟩

/-! ### What is left when frames are dropped -/

/-- Some frames were dropped and the levels above them forgotten. -/
structure Lowered (session final : Session Scripted) : Prop where
  depth_le : final.depth ≤ session.depth
  stack_eq : final.engine.stack = session.engine.stack.truncate final.depth
  theory_eq : final.theoryDepth = keepDepth final.depth session.theoryDepth
  goal_eq : final.goalDepth = keepDepth final.depth session.goalDepth

theorem Lowered.trans {first second third : Session Scripted} (h : Lowered first second)
    (h' : Lowered second third) : Lowered first third := by
  refine ⟨Nat.le_trans h'.depth_le h.depth_le, ?_, ?_, ?_⟩
  · rw [h'.stack_eq, h.stack_eq, Stack.truncate_truncate h'.depth_le]
  · rw [h'.theory_eq, h.theory_eq, keepDepth_keepDepth h'.depth_le]
  · rw [h'.goal_eq, h.goal_eq, keepDepth_keepDepth h'.depth_le]

theorem lowered_sameFrames {session : Session Scripted} (h : session.Levelled) {engine : Scripted}
    (hstack : engine.stack = session.engine.stack) : Lowered session { session with engine } := by
  have hlower := h.lower_depth
  refine ⟨Nat.le_refl _, ?_, (congrArg theoryDepth hlower).symm, (congrArg goalDepth hlower).symm⟩
  have hdepth : session.engine.stack.depth ≤ session.depth := Nat.le_of_eq h.depth_eq.symm
  exact hstack.trans (Stack.truncate_of_depth_le hdepth).symm

/-! ### Histories -/

def Step.noteDeclaration (signature : Signature) : Step → Signature
  | .perform operation => operation.noteDeclaration signature
  | .script .. => signature

/-- The axioms that a step adds to the theory. -/
def Step.addedAxioms (session : Session Scripted) : Step → List SExpr
  | .perform operation => operation.noteAxiom (operation.perform.run session).1 []
  | .script .. => []

/-- A step that drops a frame, or tries to in vain. -/
def Step.Closes : Step → Prop
  | .perform .pop => True
  | .perform _ => False
  | .script .. => True

theorem Step.Closes.noteDeclaration_eq {step : Step} (h : step.Closes) (signature : Signature) :
    step.noteDeclaration signature = signature := by
  cases step with
  | perform operation =>
      cases operation with
      | pop => rfl
      | _ => exact h.elim
  | script => rfl

theorem Step.Closes.addedAxioms_eq {step : Step} (h : step.Closes) (session : Session Scripted) :
    step.addedAxioms session = [] := by
  cases step with
  | perform operation =>
      cases operation with
      | pop => rfl
      | _ => exact h.elim
  | script => rfl

namespace History

/-- The axioms that are accepted in these steps. -/
def acceptedIn : List Step → History → List SExpr
  | [], _ => []
  | step :: steps, history =>
    step.addedAxioms history.session ++ acceptedIn steps (history.take step)

variable {history outer : History} {steps : List Step}

theorem Coherent.takeAll (h : history.Coherent) (steps : List Step) :
    (steps.foldl History.take history).Coherent := by
  induction steps generalizing history with
  | nil => exact h
  | cons step steps ih => exact ih (h.take step)

theorem Coherent.reaches_take (h : history.Coherent) (step : Step) :
    ∃ events, Reaches history.session events (history.take step).session ∧
      (history.take step).session.signature =
        step.noteDeclaration history.session.signature := by
  cases step with
  | perform operation => exact h.toLevelled.reaches_perform operation
  | script answers conjectureFault faults =>
      have hcalled : history.session.engine.Called
          { history.session.engine with answers, conjectureFault, faults } []
          history.session.engine.stack :=
        ⟨(List.append_nil _).symm, rfl⟩
      exact ⟨[], reaches_sameFrames hcalled nofun _ _ _ _, rfl⟩

theorem Coherent.reaches_takeAll (h : history.Coherent) (steps : List Step) :
    ∃ events, Reaches history.session events (steps.foldl History.take history).session ∧
      (steps.foldl History.take history).session.signature =
        steps.foldl Step.noteDeclaration history.session.signature := by
  induction steps generalizing history with
  | nil => exact ⟨[], .refl _, rfl⟩
  | cons step steps ih =>
      obtain ⟨events, hreaches, hsignature⟩ := h.reaches_take step
      obtain ⟨later, hlater, hsignature'⟩ := ih (h.take step)
      rw [hsignature] at hsignature'
      exact ⟨events ++ later, hreaches.trans hlater, hsignature'⟩

theorem noteAxiom_eq (operation : Operation) (result : Except Failure Unit)
    (accepted : List SExpr) :
    operation.noteAxiom result accepted = accepted ++ operation.noteAxiom result [] := by
  unfold Operation.noteAxiom
  split <;> simp

theorem accepted_takeAll (history : History) (steps : List Step) :
    (steps.foldl History.take history).accepted = history.accepted ++ acceptedIn steps history := by
  induction steps generalizing history with
  | nil => exact (List.append_nil _).symm
  | cons step steps ih =>
      have hstep : (history.take step).accepted =
          history.accepted ++ step.addedAxioms history.session := by
        cases step with
        | perform operation => exact noteAxiom_eq operation _ _
        | script => exact (List.append_nil _).symm
      rw [List.foldl_cons, ih, hstep, List.append_assoc]
      rfl

/-! ### The end of a scope -/

theorem foldl_noteDeclaration_of_closes (h : ∀ step ∈ steps, step.Closes) (signature : Signature) :
    steps.foldl Step.noteDeclaration signature = signature := by
  induction steps with
  | nil => rfl
  | cons step steps ih =>
      obtain ⟨hstep, hsteps⟩ := List.forall_mem_cons.mp h
      rw [List.foldl_cons, hstep.noteDeclaration_eq, ih hsteps]

theorem acceptedIn_of_closes (h : ∀ step ∈ steps, step.Closes) (history : History) :
    acceptedIn steps history = [] := by
  induction steps generalizing history with
  | nil => rfl
  | cons step steps ih =>
      obtain ⟨hstep, hsteps⟩ := List.forall_mem_cons.mp h
      rw [acceptedIn, hstep.addedAxioms_eq, ih hsteps, List.nil_append]

theorem Coherent.lowered_take (h : history.Coherent) {step : Step} (hstep : step.Closes) :
    Lowered history.session (history.take step).session := by
  have hlevelled := h.toLevelled
  cases step with
  | script => exact lowered_sameFrames hlevelled rfl
  | perform operation =>
      cases operation with
      | pop =>
          change Lowered history.session (pop.run history.session).2
          by_cases hdepth : history.session.depth = 0
          · rw [run_pop_noFrame hdepth]
            exact lowered_sameFrames hlevelled rfl
          · rcases pop_outcome hlevelled hdepth with
              ⟨engine, hrun, hcalled⟩ | ⟨failure, engine, hrun, hcalled⟩
            · rw [hrun]
              exact ⟨Nat.sub_le _ _, hcalled.stack_eq, rfl, rfl⟩
            · rw [hrun]
              exact lowered_sameFrames hlevelled hcalled.stack_eq
      | _ => exact hstep.elim

theorem Coherent.lowered_takeAll (h : history.Coherent) (hsteps : ∀ step ∈ steps, step.Closes) :
    Lowered history.session (steps.foldl History.take history).session := by
  induction steps generalizing history with
  | nil => exact lowered_sameFrames h.toLevelled rfl
  | cons step steps ih =>
      obtain ⟨hstep, hsteps⟩ := List.forall_mem_cons.mp hsteps
      exact (h.lowered_take hstep).trans (ih (h.take step) hsteps)

end History

theorem Levelled.within_push (h : session.Levelled) (hpush : push.run session = (.ok (), next)) :
    Within session next := by
  rcases push_outcome session with ⟨engine, hrun, hcalled⟩ | ⟨failure, engine, hrun, -⟩
  · rw [hrun] at hpush
    obtain ⟨-, rfl⟩ := Prod.mk.inj hpush
    have hdepth : session.engine.stack.depth = session.depth := h.depth_eq.symm
    have hlower := h.lower_depth
    refine
      { depth_eq := ?_, above := Nat.lt_succ_self _, stack_eq := ?_,
        theory_eq := congrArg theoryDepth hlower, goal_eq := congrArg goalDepth hlower }
    · change session.depth + 1 = engine.stack.depth
      rw [hcalled.stack_eq, Stack.depth_push, hdepth]
    · change engine.stack.truncate session.depth = _
      rw [hcalled.stack_eq, Stack.truncate_push (Nat.le_of_eq hdepth.symm),
        Stack.truncate_of_depth_le (Nat.le_of_eq hdepth)]
  · rw [hrun] at hpush
    simp at hpush

/-- Once the frames are dropped down to where the scope was opened, all is as it was there. -/
theorem Within.restored (h : Within outer session) (hlowered : Lowered session last)
    (hdepth : last.depth = outer.depth) :
    last.engine.stack = outer.engine.stack ∧ last.theoryDepth = outer.theoryDepth ∧
      last.goalDepth = outer.goalDepth := by
  refine ⟨?_, ?_, ?_⟩
  · rw [hlowered.stack_eq, hdepth, h.stack_eq]
  · rw [hlowered.theory_eq, hdepth, h.theory_eq]
  · rw [hlowered.goal_eq, hdepth, h.goal_eq]

/-- After every history: a scope that is opened, used in any way that stays in it, and closed by
dropping frames restores the frames and the levels, whatever calls failed in it. The declarations
and the axioms that were accepted in it are added to those before. -/
theorem scope_restores (settings : Settings) (steps scope closing : List Step) :
    let outer := History.after settings steps
    let opened := outer.perform .push
    let inner := scope.foldl History.take opened
    let final := closing.foldl History.take inner
    (push.run outer.session).1 = .ok () →
    StaysAbove outer.session.depth opened.session.depth
      (callsSince opened.session.engine inner.session.engine) →
    (∀ step ∈ closing, step.Closes) → final.session.depth = outer.session.depth →
    (final.session.engine.stack = outer.session.engine.stack ∧
      final.session.theoryDepth = outer.session.theoryDepth ∧
      final.session.goalDepth = outer.session.goalDepth) ∧
    final.session.phase = outer.session.phase ∧
    final.session.keptDepth = outer.session.keptDepth ∧
    final.session.signature = scope.foldl Step.noteDeclaration outer.session.signature ∧
    final.session.axioms = outer.session.axioms ++ History.acceptedIn scope opened := by
  intro outer opened inner final hopen hscope hclosing hdepth
  have houter : outer.Coherent := History.coherent_after settings steps
  have hopened : opened.Coherent := houter.perform .push
  have hinner : inner.Coherent := hopened.takeAll scope
  have hfinal : final.Coherent := hinner.takeAll closing
  have hpush : push.run outer.session = (.ok (), opened.session) := Prod.ext hopen rfl
  obtain ⟨events, hreaches, hsignature⟩ := hopened.reaches_takeAll scope
  have hevents : callsSince opened.session.engine inner.session.engine = events := by
    rw [callsSince, hreaches.events_eq, List.drop_left]
  rw [hevents] at hscope
  have hwithin : Within outer.session inner.session :=
    hreaches.within outer.session (houter.toLevelled.within_push hpush) hscope
  obtain ⟨hstack, htheory, hgoal⟩ :=
    hwithin.restored (hinner.lowered_takeAll hclosing) hdepth
  refine ⟨⟨hstack, htheory, hgoal⟩, ?_, ?_, ?_, ?_⟩
  · rw [phase, phase, htheory, hgoal]
  · rw [keptDepth, keptDepth, hgoal, hdepth]
  · obtain ⟨-, -, hclosed⟩ := hinner.reaches_takeAll closing
    rw [History.foldl_noteDeclaration_of_closes hclosing] at hclosed
    obtain ⟨-, -, hpushed⟩ := houter.toLevelled.reaches_perform .push
    rw [hclosed, hsignature]
    exact congrArg (scope.foldl Step.noteDeclaration) hpushed
  · have haccepted : final.accepted = outer.accepted ++ History.acceptedIn scope opened := by
      rw [History.accepted_takeAll, History.accepted_takeAll,
        History.acceptedIn_of_closes hclosing, List.append_nil]
      rfl
    rw [hfinal.axioms_eq, haccepted, houter.axioms_eq]

/-- A frame cannot be dropped for the second check, an axiom comes too late, and a frame is left
open. -/
def stuckScope : List Step :=
  [.perform (.assume (.symbol "b")), .perform (.checkGoal "first" (.symbol "p")),
    .script [] none [(.pop, some "busy")], .perform (.checkGoal "second" (.symbol "r")),
    .perform (.assume (.symbol "late")), .perform .push]

theorem scope_restores_stuck :
    let outer := History.after {}
      [.perform (.assume (.symbol "a")), .perform .push, .perform (.refuteInFrame (.symbol "q"))]
    let inner := stuckScope.foldl History.take (outer.perform .push)
    let final := (List.replicate 3 (.perform .pop)).foldl History.take inner
    inner.session.depth = 5 ∧ final.session.depth = 2 ∧
      final.session.engine.stack = outer.session.engine.stack ∧
      final.session.theoryDepth = none ∧
      final.session.axioms = [.symbol "a", .symbol "b"] := by
  obtain ⟨⟨hstack, htheory, -⟩, -, -, -, haxioms⟩ := scope_restores {}
    [.perform (.assume (.symbol "a")), .perform .push, .perform (.refuteInFrame (.symbol "q"))]
    stuckScope (List.replicate 3 (.perform .pop)) rfl (by decide +kernel)
    (by simp [Step.Closes]) (by decide +kernel)
  refine ⟨by decide +kernel, by decide +kernel, hstack, htheory, haxioms.trans ?_⟩
  decide +kernel

end Session

end SmtSession
