import SmtSession.Proofs.EngineAgreement
import SmtSession.Proofs.Operation
import SmtSession.Solver.Scripted

/-!
# Agreement of sessions

Whatever a session does on a solver that takes every command, it does on an engine in memory that is
given the results of the checks: the frames, what the session remembers, and the results are the
same, up to what a failure of the solver says.
-/

namespace SmtSession.Session

open Solver (Written)

def bare {σ : Type} (session : Session σ) : Session Unit := { session with engine := () }

def withAnswers (answers : List (Except String Report)) (session : Session Scripted) :
    Session Scripted :=
  { session with engine := session.engine.withAnswers answers }

/-- A failure up to what the solver says. -/
def Failure.kind : Failure → Failure
  | .solver _ => .solver (.refused "")
  | failure => failure

def kindOf (result : Except Failure Unit) : Except Failure Unit := result.mapError Failure.kind

structure Agree (real : Session Smt) (scripted : Session Scripted) : Prop where
  bare_eq : real.bare = scripted.bare
  depth_eq : scripted.depth = scripted.engine.depth
  engines : real.engine.Matches scripted.engine

/-- Every write of a step succeeded: one that fails is the failure of the step. -/
def Unbroken (result : Except Failure Unit) : Prop :=
  result ≠ .error (.solver (.channel .broken))

instance : (result : Except Failure Unit) → Decidable (Unbroken result)
  | .ok _ => isTrue nofun
  | .error failure =>
    if h : failure = .solver (.channel .broken) then isFalse fun hunbroken => hunbroken (h ▸ rfl)
    else isTrue fun herror => h (Except.error.inj herror)

variable {real : Session Smt} {scripted : Session Scripted}
  {action next : Action (Session Smt) Failure Unit}
  {action' next' : Action (Session Scripted) Failure Unit}

/-- A step from these sessions that succeeds or fails alike in both, if its writes succeed and the
engine in memory has the right answers first. -/
def Simulates (action : Action (Session Smt) Failure Unit)
    (action' : Action (Session Scripted) Failure Unit) (real : Session Smt)
    (scripted : Session Scripted) : Prop :=
  Unbroken (action.run real).1 → ∃ answers result scripted',
    kindOf result = kindOf (action.run real).1 ∧ Agree (action.run real).2 scripted' ∧
      ∀ rest, action'.run (scripted.withAnswers (answers ++ rest)) =
        (result, scripted'.withAnswers rest)

theorem Simulates.bind {next : Unit → Action (Session Smt) Failure Unit}
    {next' : Unit → Action (Session Scripted) Failure Unit}
    (hfirst : Simulates action action' real scripted)
    (hnext : ∀ real' scripted', action.run real = (.ok (), real') → Agree real' scripted' →
      Simulates (next ()) (next' ()) real' scripted') :
    Simulates (action >>= next) (action' >>= next') real scripted := by
  intro hunbroken
  rcases hrun : action.run real with ⟨failure | _, real'⟩
  · rw [Action.run_bind_error hrun] at hunbroken ⊢
    obtain ⟨answers, result, scripted', hresult, hagree, hrun'⟩ := hfirst (by rwa [hrun])
    rw [hrun] at hresult hagree
    rcases result with failure' | _
    · refine ⟨answers, .error failure', scripted', hresult, hagree, ?_⟩
      intro rest
      rw [Action.run_bind_error (hrun' rest)]
    · contradiction
  · rw [Action.run_bind_ok hrun] at hunbroken ⊢
    obtain ⟨answers, result, scripted', hresult, hagree, hrun'⟩ :=
      hfirst (by rw [hrun]; exact nofun)
    rw [hrun] at hresult hagree
    rcases result with failure' | _
    · contradiction
    · obtain ⟨later, result, last, hlast, hagree', hrun''⟩ :=
        hnext real' scripted' hrun hagree hunbroken
      refine ⟨answers ++ later, result, last, hlast, hagree', ?_⟩
      intro rest
      rw [List.append_assoc, Action.run_bind_ok (hrun' (later ++ rest)), hrun'' rest]

/-! ### Calls -/

theorem simulates_call {action : Action Smt Solver.Failure Unit}
    {action' : Action Scripted Solver.Failure Unit} {stack : Stack Scripted.Assertion}
    (h : Agree real scripted) (hdepth : stack.depth = scripted.engine.stack.depth)
    (hcall : Smt.Agrees action action' real.engine scripted.engine stack) :
    Simulates (call action) (call action') real scripted := by
  intro hunbroken
  have hwritten : Written (action.run real.engine).1 := by
    intro hbroken
    exact hunbroken (by rw [run_call_error (Prod.ext hbroken rfl)])
  obtain ⟨smt, engine, hrun, hmatches, hstack, hrun'⟩ := hcall hwritten
  have hsame : engine.depth = scripted.engine.depth := by
    rw [← Scripted.depth_stack, hstack, hdepth, Scripted.depth_stack]
  rw [run_call_ok hrun]
  refine ⟨[], .ok (), { scripted with engine }, rfl, ?_, fun rest => run_call_ok (hrun' rest)⟩
  exact ⟨h.bare_eq, h.depth_eq.trans hsame.symm, hmatches⟩

theorem simulates_push (h : Agree real scripted) : Simulates push push real scripted := by
  intro hunbroken
  have hwritten : Written (Engine.push.run real.engine).1 := by
    intro hbroken
    exact hunbroken (by rw [run_push_error (Prod.ext hbroken rfl)])
  obtain ⟨smt, engine, hrun, hmatches, hstack, hrun'⟩ := Smt.agrees_push h.engines hwritten
  have hdepth : engine.depth = scripted.engine.depth + 1 := congrArg Stack.depth hstack
  rw [run_push_ok hrun]
  refine ⟨[], .ok (), { scripted with engine, depth := scripted.depth + 1 }, rfl, ?_,
    fun rest => run_push_ok (hrun' rest)⟩
  refine ⟨?_, ?_, hmatches⟩
  · exact congrArg (fun session : Session Unit => { session with depth := session.depth + 1 })
      h.bare_eq
  · change scripted.depth + 1 = engine.depth
    rw [hdepth, h.depth_eq]

theorem simulates_pop (h : Agree real scripted) : Simulates pop pop real scripted := by
  have hsame : real.depth = scripted.depth := congrArg Session.depth h.bare_eq
  intro hunbroken
  by_cases hdepth : real.depth = 0
  · rw [run_pop_noFrame hdepth]
    refine ⟨[], .error .noFrame, scripted, rfl, h, ?_⟩
    intro rest
    exact run_pop_noFrame (show scripted.depth = 0 by rw [← hsame, hdepth])
  · have hdepth' : scripted.depth ≠ 0 := by rwa [← hsame]
    have hwritten : Written (Engine.pop.run real.engine).1 := by
      intro hbroken
      exact hunbroken (by rw [run_pop_error hdepth (Prod.ext hbroken rfl)])
    obtain ⟨stack, hpop, hstackDepth⟩ := Stack.pop?_of_depth_ne_zero
      (show scripted.engine.stack.depth ≠ 0 by
        rwa [Scripted.depth_stack, ← h.depth_eq])
    obtain ⟨smt, engine, hrun, hmatches, hstack, hrun'⟩ :=
      Smt.agrees_pop h.engines hpop hwritten
    rw [run_pop_ok hdepth hrun]
    refine ⟨[], .ok (), Session.lower (scripted.depth - 1) { scripted with engine }, rfl, ?_,
      fun rest => run_pop_ok hdepth' (hrun' rest)⟩
    refine ⟨?_, ?_, hmatches⟩
    · exact congrArg (fun session : Session Unit => session.lower (session.depth - 1)) h.bare_eq
    · change scripted.depth - 1 = engine.depth
      rw [← Scripted.depth_stack, hstack, hstackDepth, Scripted.depth_stack, ← h.depth_eq]

theorem simulates_assertAxiom (h : Agree real scripted) (formula : SExpr) :
    Simulates (call (Engine.assertAxiom formula)) (call (Engine.assertAxiom formula)) real
      scripted :=
  simulates_call h (Stack.depth_assert _ _) (Smt.agrees_assertAxiom h.engines formula)

theorem simulates_assertConjecture (h : Agree real scripted) (formula : SExpr) :
    Simulates (call (Engine.assertConjecture formula)) (call (Engine.assertConjecture formula)) real
      scripted :=
  simulates_call h (Stack.depth_assert _ _) (Smt.agrees_assertConjecture h.engines formula)

theorem simulates_remark (h : Agree real scripted) (text : String) :
    Simulates (note (Engine.remark text)) (note (Engine.remark text)) real scripted := by
  intro _
  refine ⟨[], .ok (), { scripted with engine := Engine.remark text scripted.engine }, rfl,
    ⟨h.bare_eq, h.depth_eq, ?_⟩, fun rest => rfl⟩
  refine ⟨?_, h.engines.unfaulted.faults_eq, h.engines.unfaulted.conjectureFault_eq⟩
  exact Smt.stack?_remark text h.engines.stack_eq

theorem simulates_checkAsserted (h : Agree real scripted) (name : String) :
    Simulates (checkAsserted name) (checkAsserted name) real scripted := by
  intro hunbroken
  have hwritten : Written (Engine.check.run real.engine).1 := by
    intro hbroken
    exact hunbroken (by rw [run_checkAsserted_error (Prod.ext hbroken rfl)])
  obtain ⟨engine, hmatches, hstack, hrun⟩ := Smt.matches_check h.engines hwritten
  have hdepth : scripted.depth = engine.depth :=
    h.depth_eq.trans (congrArg Stack.depth hstack).symm
  rcases hcheck : Engine.check.run real.engine with ⟨failure | report, smt⟩
  · rw [hcheck] at hmatches hrun
    rw [run_checkAsserted_error hcheck]
    refine ⟨[.error failure.message], .error (.solver (.refused failure.message)),
      clear { scripted with engine := Engine.saveTranscript name engine }, rfl,
      ⟨congrArg clear h.bare_eq, hdepth, hmatches.saveTranscript name⟩, ?_⟩
    intro rest
    have hanswer : Engine.check.run (scripted.withAnswers (.error failure.message :: rest)).engine =
        (.error (.refused failure.message), engine.withAnswers rest) := hrun rest
    exact run_checkAsserted_error hanswer
  · rw [hcheck] at hmatches hrun
    rw [run_checkAsserted_ok hcheck]
    refine ⟨[.ok report], .ok (),
      conclude report { scripted with engine := Engine.saveTranscript name engine }, rfl,
      ⟨congrArg (conclude report) h.bare_eq, hdepth, hmatches.saveTranscript name⟩, ?_⟩
    intro rest
    have hanswer : Engine.check.run (scripted.withAnswers (.ok report :: rest)).engine =
        (.ok report, engine.withAnswers rest) := hrun rest
    exact run_checkAsserted_ok hanswer

/-! ### Operations -/

/-- A step that goes the same way in both sessions without a call of their engines. -/
theorem simulates_same {result : Except Failure Unit} {real' : Session Smt}
    {scripted' : Session Scripted} (hrun : action.run real = (result, real'))
    (hagree : Agree real' scripted')
    (hrun' : ∀ rest, action'.run (scripted.withAnswers rest) =
      (result, scripted'.withAnswers rest)) : Simulates action action' real scripted := by
  intro _
  rw [hrun]
  exact ⟨[], result, scripted', rfl, hagree, hrun'⟩

theorem Simulates.of_run {real' : Session Smt} {scripted₀ : Session Scripted}
    (h : Simulates action action' real' scripted₀) (hrun : next.run real = action.run real')
    (hrun' : ∀ answers, next'.run (scripted.withAnswers answers) =
      action'.run (scripted₀.withAnswers answers)) : Simulates next next' real scripted := by
  intro hunbroken
  rw [hrun] at hunbroken ⊢
  obtain ⟨answers, result, scripted', hresult, hagree, hrun''⟩ := h hunbroken
  refine ⟨answers, result, scripted', hresult, hagree, ?_⟩
  intro rest
  rw [hrun', hrun'']

theorem simulates_declare (h : Agree real scripted) (declaration : Declaration) :
    Simulates (Session.declare declaration) (Session.declare declaration) real scripted := by
  have hsignature : real.signature = scripted.signature := congrArg Session.signature h.bare_eq
  cases hdeclare : real.signature.declare declaration with
  | error error =>
      apply simulates_same (run_declare_refused hdeclare) h
      intro rest
      have hrest : (scripted.withAnswers rest).signature.declare declaration = .error error := by
        rw [← hdeclare, hsignature]
        rfl
      exact run_declare_refused hrest
  | ok signature =>
      have hagree : Agree { real with signature } { scripted with signature } :=
        ⟨congrArg (fun session : Session Unit => { session with signature }) h.bare_eq,
          h.depth_eq, h.engines⟩
      have hcall := simulates_call hagree rfl (Smt.agrees_declareTo h.engines declaration)
      apply hcall.of_run (run_declare_accepted hdeclare)
      intro answers
      have hrest : (scripted.withAnswers answers).signature.declare declaration =
          .ok signature := by
        rw [← hdeclare, hsignature]
        rfl
      exact run_declare_accepted hrest

theorem simulates_assume (h : Agree real scripted) (formula : SExpr) :
    Simulates (assume formula) (assume formula) real scripted := by
  have htheory : real.theoryDepth = scripted.theoryDepth := congrArg Session.theoryDepth h.bare_eq
  by_cases hnone : real.theoryDepth = none
  · have hagree : Agree (extendTheory formula real) (extendTheory formula scripted) :=
      ⟨congrArg (extendTheory formula) h.bare_eq, h.depth_eq, h.engines⟩
    apply simulates_same (run_assume_ok hnone) hagree
    intro rest
    have hrest : (scripted.withAnswers rest).theoryDepth = none := htheory.symm.trans hnone
    exact run_assume_ok hrest
  · obtain ⟨level, hlevel⟩ := Option.ne_none_iff_exists'.mp hnone
    apply simulates_same (run_assume_late hlevel) h
    intro rest
    have hrest : (scripted.withAnswers rest).theoryDepth = some level :=
      htheory.symm.trans hlevel
    exact run_assume_late hrest

theorem simulates_loadTheory (h : Agree real scripted) :
    Simulates loadTheory loadTheory real scripted := by
  have htheory : real.theoryDepth = scripted.theoryDepth := congrArg Session.theoryDepth h.bare_eq
  have hformula : real.theory = scripted.theory := congrArg Session.theory h.bare_eq
  by_cases hnone : real.theoryDepth = none
  · have hload : Simulates
        (call (Engine.assertAxiom real.theory) >>= fun _ =>
          .modify fun session => { session with theoryDepth := some session.depth })
        (call (Engine.assertAxiom real.theory) >>= fun _ =>
          .modify fun session => { session with theoryDepth := some session.depth })
        real scripted := by
      refine (simulates_assertAxiom h real.theory).bind fun real' scripted' _ h' => ?_
      have hagree : Agree { real' with theoryDepth := some real'.depth }
          { scripted' with theoryDepth := some scripted'.depth } :=
        ⟨congrArg (fun session : Session Unit =>
          { session with theoryDepth := some session.depth }) h'.bare_eq, h'.depth_eq, h'.engines⟩
      exact simulates_same rfl hagree fun rest => rfl
    apply hload.of_run (run_loadTheory_unloaded hnone)
    intro answers
    have hrest : (scripted.withAnswers answers).theoryDepth = none := htheory.symm.trans hnone
    have hsame : (scripted.withAnswers answers).theory = real.theory := hformula.symm
    rw [run_loadTheory_unloaded hrest, hsame]
  · obtain ⟨level, hlevel⟩ := Option.ne_none_iff_exists'.mp hnone
    apply simulates_same (run_loadTheory_loaded hlevel) h
    intro rest
    have hrest : (scripted.withAnswers rest).theoryDepth = some level :=
      htheory.symm.trans hlevel
    exact run_loadTheory_loaded hrest

theorem simulates_assumeInFrame (h : Agree real scripted) (formula : SExpr) :
    Simulates (assumeInFrame formula) (assumeInFrame formula) real scripted :=
  (simulates_push h).bind fun _ _ _ h' => simulates_assertAxiom h' formula

theorem simulates_refuteInFrame (h : Agree real scripted) (formula : SExpr) :
    Simulates (refuteInFrame formula) (refuteInFrame formula) real scripted :=
  (simulates_push h).bind fun _ _ _ h' => simulates_assertConjecture h' formula

theorem simulates_stageGoal (h : Agree real scripted) (name : String) (goal : SExpr) :
    Simulates (stageGoal name goal) (stageGoal name goal) real scripted := by
  refine (simulates_remark h _).bind fun real' scripted' _ h' => ?_
  have hformula : real'.theory = scripted'.theory := congrArg Session.theory h'.bare_eq
  have hstage : Simulates
      (assumeInFrame real'.theory >>= fun _ => refuteInFrame goal)
      (assumeInFrame real'.theory >>= fun _ => refuteInFrame goal) real' scripted' :=
    (simulates_assumeInFrame h' real'.theory).bind fun _ _ _ h'' => simulates_refuteInFrame h'' goal
  apply hstage.of_run (Action.run_bind_ok (Action.run_get real') _)
  intro answers
  rw [hformula]
  exact Action.run_bind_ok (Action.run_get _) _

theorem simulates_popMany (h : Agree real scripted) (count : Nat) :
    Simulates (popMany count) (popMany count) real scripted := by
  induction count generalizing real scripted with
  | zero => exact simulates_same rfl h fun rest => rfl
  | succ count ih => exact (simulates_pop h).bind fun _ _ _ h' => ih h'

theorem simulates_dropGoal (h : Agree real scripted) :
    Simulates dropGoal dropGoal real scripted := by
  have hdepth : real.depth = scripted.depth := congrArg Session.depth h.bare_eq
  have hgoal : real.goalDepth = scripted.goalDepth := congrArg Session.goalDepth h.bare_eq
  by_cases hnone : real.goalDepth = none
  · apply simulates_same (run_dropGoal_none hnone) h
    intro rest
    have hrest : (scripted.withAnswers rest).goalDepth = none := hgoal.symm.trans hnone
    exact run_dropGoal_none hrest
  · obtain ⟨level, hlevel⟩ := Option.ne_none_iff_exists'.mp hnone
    apply (simulates_popMany h (real.depth + 1 - level)).of_run (run_dropGoal_some hlevel)
    intro answers
    have hrest : (scripted.withAnswers answers).goalDepth = some level :=
      hgoal.symm.trans hlevel
    rw [run_dropGoal_some hrest, hdepth]
    rfl

theorem simulates_poseGoal (h : Agree real scripted) (name : String) (goal : SExpr) :
    Simulates (poseGoal name goal) (poseGoal name goal) real scripted := by
  refine (simulates_remark h _).bind fun _ _ _ h => ?_
  refine (simulates_push h).bind fun real' scripted' _ h' => ?_
  have hagree : Agree { real' with goalDepth := some real'.depth }
      { scripted' with goalDepth := some scripted'.depth } :=
    ⟨congrArg (fun session : Session Unit => { session with goalDepth := some session.depth })
      h'.bare_eq, h'.depth_eq, h'.engines⟩
  have hmark : Simulates
      (.modify fun session => { session with goalDepth := some session.depth })
      (.modify fun session => { session with goalDepth := some session.depth }) real' scripted' :=
    simulates_same rfl hagree fun rest => rfl
  refine hmark.bind fun _ _ _ h => ?_
  exact (simulates_assertConjecture h goal).bind fun _ _ _ h => simulates_checkAsserted h name

theorem simulates_checkGoal (h : Agree real scripted) (name : String) (goal : SExpr) :
    Simulates (checkGoal name goal) (checkGoal name goal) real scripted :=
  (simulates_dropGoal h).bind fun _ _ _ h =>
    (simulates_loadTheory h).bind fun _ _ _ h => simulates_poseGoal h name goal

theorem simulates_perform (h : Agree real scripted) (operation : Operation) :
    Simulates operation.perform operation.perform real scripted := by
  cases operation with
  | declare declaration => exact simulates_declare h declaration
  | assume formula => exact simulates_assume h formula
  | push => exact simulates_push h
  | pop => exact simulates_pop h
  | assumeInFrame formula => exact simulates_assumeInFrame h formula
  | refuteInFrame formula => exact simulates_refuteInFrame h formula
  | stageGoal name goal => exact simulates_stageGoal h name goal
  | checkAsserted name => exact simulates_checkAsserted h name
  | checkGoal name goal => exact simulates_checkGoal h name goal
  | outcome => exact simulates_same rfl h fun rest => rfl

theorem simulates_performAll (operations : List Operation) (h : Agree real scripted)
    (hunbroken : ∀ result ∈ (performAll operations real).1, Unbroken result) :
    ∃ answers results scripted',
      results.map kindOf = (performAll operations real).1.map kindOf ∧
        Agree (performAll operations real).2 scripted' ∧
        ∀ rest, performAll operations (scripted.withAnswers (answers ++ rest)) =
          (results, scripted'.withAnswers rest) := by
  induction operations generalizing real scripted with
  | nil => exact ⟨[], [], scripted, rfl, h, fun rest => rfl⟩
  | cons operation operations ih =>
      rcases hrun : operation.perform.run real with ⟨result, real'⟩
      rw [performAll_cons hrun] at hunbroken ⊢
      have hfirst : Unbroken (operation.perform.run real).1 := by
        rw [hrun]
        exact hunbroken result (List.mem_cons_self ..)
      obtain ⟨answers, result', scripted', hresult, hagree, hrun'⟩ :=
        simulates_perform h operation hfirst
      rw [hrun] at hresult hagree
      obtain ⟨later, results, last, hresults, hlast, hrest⟩ :=
        ih hagree fun result hmem => hunbroken result (List.mem_cons_of_mem _ hmem)
      refine ⟨answers ++ later, result' :: results, last, ?_, hlast, ?_⟩
      · rw [List.map_cons, List.map_cons, hresult, hresults]
      · intro rest
        rw [List.append_assoc, performAll_cons (hrun' (later ++ rest)), hrest]

theorem agree_start {smt : Smt} (hstack : smt.stack? = some {}) (settings : Settings) :
    Agree (start smt settings) (start Scripted.empty settings) :=
  ⟨rfl, rfl, hstack, rfl, rfl⟩

/-- For every solver that takes all that is written to it, and whatever it replies: the commands it
is sent leave it with the frames of an engine in memory that goes through the same operations and is
given the results of the checks. A check of its own accord touches none of the frames it finds. -/
theorem engines_agree (host : Solver.Dialogue.Host) (program : String) (settings : Settings)
    (archive : Option Solver.Archive) (smt : Smt) (limit : Nat) (constants : List String)
    (operations : List Operation)
    (hstart : Smt.start host program settings archive = (.ok (), smt))
    (hunbroken : ∀ result ∈
      (performAll operations (start { smt with limit, constants } settings)).1,
      Unbroken result) :
    let run := performAll operations (start { smt with limit, constants } settings)
    let real := run.2
    ∃ answers results scripted stack,
      performAll operations (start ({ answers } : Scripted) settings) = (results, scripted) ∧
      results.map kindOf = run.1.map kindOf ∧ scripted.bare = real.bare ∧
      real.engine.stack? = some stack ∧
      stack = scripted.engine.stack.map Scripted.Assertion.formula ∧
      stack.depth = real.depth ∧
      ∀ (engine : Smt) (outer : Stack SExpr), engine.stack? = some outer →
        Written (Engine.check.run engine).1 → ∃ commands,
          (Engine.check.run engine).2.dialogue.log = engine.dialogue.log ++ commands ∧
          (Engine.check.run engine).2.stack? = some outer ∧
          ∀ earlier rest, commands = earlier ++ rest → ∃ stack',
            outer.obeyAll? earlier = some stack' ∧
              (stack' = outer ∨
                ∃ frame, stack' = { outer with frames := frame :: outer.frames }) := by
  have hstarted : smt.stack? = some {} := Smt.stack?_start hstart
  have hstack : Smt.stack? { smt with limit, constants } = some {} := hstarted
  obtain ⟨answers, results, scripted, hresults, hagree, hrun⟩ :=
    simulates_performAll operations (agree_start hstack settings) hunbroken
  have hrun' := hrun []
  rw [List.append_nil] at hrun'
  refine ⟨answers, results, scripted.withAnswers [], _, hrun', hresults, hagree.bare_eq.symm,
    hagree.engines.stack_eq, rfl, ?_, ?_⟩
  · rw [Stack.depth_map, Scripted.depth_stack, ← hagree.depth_eq]
    exact (congrArg Session.depth hagree.bare_eq).symm
  · intro engine outer houter hwritten
    obtain ⟨commands, hlog, hobey, hprefix⟩ := Smt.obeyAll?_check hwritten outer
    exact ⟨commands, hlog, (Smt.stack?_eq hlog houter).trans hobey, hprefix⟩

/-- A solver that refutes a goal once. -/
def refutingHost : Solver.Dialogue.Host := fun _ => some (Solver.Behaviour.scripted
  [.text "", .text "sat", .text "(labels)", .text "(model (define-fun x () Int 1))", .text "unsat"])

theorem engines_agree_refuted :
    (Smt.start refutingHost "z3" {} none).1 = .ok () ∧
    ∃ answers results scripted,
      performAll [.push, .checkGoal "goal" (.symbol "p")] (start ({ answers } : Scripted) {}) =
        (results, scripted) ∧
      (performAll [.push, .checkGoal "goal" (.symbol "p")]
          (start (⟨(Smt.start refutingHost "z3" {} none).2.dialogue, 2, ["x"]⟩ : Smt)
            {})).2.engine.stack? =
        some (scripted.engine.stack.map Scripted.Assertion.formula) := by
  have hstart := Smt.start_eq_ok (show (Smt.start refutingHost "z3" {} none).1.isOk by
    decide +kernel)
  obtain ⟨answers, results, scripted, stack, hrun, -, -, hstack, rfl, -⟩ :=
    engines_agree refutingHost "z3" {} none (Smt.start refutingHost "z3" {} none).2 2 ["x"]
      [.push, .checkGoal "goal" (.symbol "p")] hstart (by decide +kernel)
  exact ⟨congrArg Prod.fst hstart, answers, results, scripted, hrun, hstack⟩

end SmtSession.Session
