import SmtSession.Session.Check

/-!
# Operations of a session

What the client of a session can do, and how each operation goes for the answers of the engine it
calls. Nothing here depends on the engine.
-/

namespace SmtSession.Session

inductive Operation where
  | declare (declaration : Declaration)
  | assume (formula : SExpr)
  | push
  | pop
  | assumeInFrame (formula : SExpr)
  | refuteInFrame (formula : SExpr)
  | stageGoal (name : String) (goal : SExpr)
  | checkAsserted (name : String)
  | checkGoal (name : String) (goal : SExpr)
  | outcome

/-- The effect of an operation. To read the outcome changes nothing. -/
def Operation.perform {σ : Type} [Engine σ] : Operation → Action (Session σ) Failure Unit
  | .declare declaration => Session.declare declaration
  | .assume formula => Session.assume formula
  | .push => Session.push
  | .pop => Session.pop
  | .assumeInFrame formula => Session.assumeInFrame formula
  | .refuteInFrame formula => Session.refuteInFrame formula
  | .stageGoal name goal => Session.stageGoal name goal
  | .checkAsserted name => Session.checkAsserted name
  | .checkGoal name goal => Session.checkGoal name goal
  | .outcome => pure ()

def performAll {σ : Type} [Engine σ] :
    List Operation → Session σ → List (Except Failure Unit) × Session σ
  | [], session => ([], session)
  | operation :: operations, session =>
    let (result, session) := operation.perform.run session
    let (results, session) := performAll operations session
    (result :: results, session)

theorem performAll_cons {σ : Type} [Engine σ] {operation : Operation} {session session' : Session σ}
    {result : Except Failure Unit} (h : operation.perform.run session = (result, session'))
    (operations : List Operation) :
    performAll (operation :: operations) session =
      (result :: (performAll operations session').1, (performAll operations session').2) := by
  rw [performAll, h]

section Levels

@[simp]
theorem keepDepth_none (depth : Nat) : keepDepth depth none = none := rfl

theorem keepDepth_of_le {depth level : Nat} (h : level ≤ depth) :
    keepDepth depth (some level) = some level := by
  have hnot : ¬depth < level := by omega
  simp [keepDepth, hnot]

theorem keepDepth_of_lt {depth level : Nat} (h : depth < level) :
    keepDepth depth (some level) = none := by
  simp [keepDepth, h]

theorem keepDepth_eq_some {depth level : Nat} {remembered : Option Nat}
    (h : keepDepth depth remembered = some level) : remembered = some level ∧ level ≤ depth := by
  cases remembered with
  | none => simp at h
  | some known =>
      by_cases hlt : depth < known
      · simp [keepDepth_of_lt hlt] at h
      · rw [keepDepth_of_le (by omega), Option.some.injEq] at h
        subst h
        exact ⟨rfl, by omega⟩

theorem keepDepth_keepDepth {lower upper : Nat} (h : lower ≤ upper) (remembered : Option Nat) :
    keepDepth lower (keepDepth upper remembered) = keepDepth lower remembered := by
  cases remembered with
  | none => rfl
  | some level =>
      by_cases hupper : upper < level
      · rw [keepDepth_of_lt hupper, keepDepth_of_lt (show lower < level by omega)]
        rfl
      · rw [keepDepth_of_le (show level ≤ upper by omega)]

variable {σ : Type}

/-- The depth to which the next check of a goal goes back. -/
def keptDepth (session : Session σ) : Nat :=
  match session.goalDepth with
  | some level => level - 1
  | none => session.depth

/-- A session whose frames above `depth` are gone. -/
def lower (depth : Nat) (session : Session σ) : Session σ :=
  { session with
    depth
    goalDepth := keepDepth depth session.goalDepth
    theoryDepth := keepDepth depth session.theoryDepth }

theorem lower_lower {inner outer : Nat} (h : inner ≤ outer) (session : Session σ) :
    (session.lower outer).lower inner = session.lower inner := by
  simp only [lower, keepDepth_keepDepth h]

end Levels

section Run

variable {σ : Type} {session session' : Session σ} {engine : σ} {failure : Solver.Failure}

theorem run_call_ok {α : Type} {action : Action σ Solver.Failure α} {a : α}
    (h : action.run session.engine = (.ok a, engine)) :
    (call action).run session = (.ok a, { session with engine }) :=
  Action.run_onPart_ok h

theorem run_call_error {α : Type} {action : Action σ Solver.Failure α}
    (h : action.run session.engine = (.error failure, engine)) :
    (call action).run session = (.error (.solver failure), { session with engine }) :=
  Action.run_onPart_error h

theorem run_onSignature_ok {α : Type} {action : Action Signature DeclarationError α} {a : α}
    {signature : Signature} (h : action.run session.signature = (.ok a, signature)) :
    (onSignature action).run session = (.ok a, { session with signature }) :=
  Action.run_onPart_ok h

theorem run_onSignature_error {α : Type} {action : Action Signature DeclarationError α}
    {error : DeclarationError} {signature : Signature}
    (h : action.run session.signature = (.error error, signature)) :
    (onSignature action).run session =
      (.error (.declaration error), { session with signature }) :=
  Action.run_onPart_error h

theorem run_assume_ok {formula : SExpr} (hlevel : session.theoryDepth = none) :
    (assume formula).run session = (.ok (), extendTheory formula session) := by
  have hnone : session.theoryDepth.isSome = false := by rw [hlevel]; rfl
  rw [assume, Action.run_bind_ok (Action.run_get session), hnone]
  rfl

theorem run_assume_late {formula : SExpr} {level : Nat}
    (hlevel : session.theoryDepth = some level) :
    (assume formula).run session = (.error .lateAxiom, session) := by
  have hsome : session.theoryDepth.isSome = true := by rw [hlevel]; rfl
  rw [assume, Action.run_bind_ok (Action.run_get session), hsome]
  rfl

variable [Engine σ]

/-- What the engine has to know of a declaration. A function without a range is refused before. -/
def declareTo : Declaration → Action σ Solver.Failure Unit
  | .type name => Engine.declareSort name
  | .constant content => Engine.declareConst content.name content.ty
  | .global content => Engine.declareConst content.name content.ty
  | .function content =>
    match content.outputs with
    | [range] => Engine.declareFun content.name content.inputs range
    | _ => pure ()

/-- A function is checked twice: for its range, and when it is recorded. The first check changes
nothing, refuses what the second would refuse, and gives the one output as the range. So a function
is declared like everything else: it is recorded, then passed on. -/
theorem declareFunction_eq (function : Function) :
    declareFunction function =
      declareWith (.function function) (declareTo (σ := σ) (.function function)) := by
  apply Action.ext
  intro session
  cases hrange : session.signature.functionRange function with
  | error error =>
      have hcheck : (onSignature (Signature.checkFunction function)).run session =
          (.error (.declaration error), session) :=
        run_onSignature_error (by rw [Signature.run_checkFunction, hrange])
      have henter : (onSignature (Signature.enter (.function function))).run session =
          (.error (.declaration error), session) :=
        run_onSignature_error (by rw [Signature.enter, Signature.run_enterFunction, hrange])
      rw [declareFunction, Action.run_bind_error hcheck, declareWith,
        Action.run_bind_error henter]
  | ok range =>
      have hcheck : (onSignature (Signature.checkFunction function)).run session =
          (.ok range, session) :=
        run_onSignature_ok (by rw [Signature.run_checkFunction, hrange])
      rw [declareFunction, Action.run_bind_ok hcheck, declareTo,
        Signature.output_of_functionRange hrange]

theorem declare_eq (declaration : Declaration) :
    Session.declare declaration = declareWith declaration (declareTo (σ := σ) declaration) := by
  cases declaration with
  | type name => rfl
  | constant content => rfl
  | function content => exact declareFunction_eq content
  | global content => rfl

theorem run_declare_refused {declaration : Declaration} {error : DeclarationError}
    (h : session.signature.declare declaration = .error error) :
    (Session.declare declaration).run session = (.error (.declaration error), session) := by
  have henter : (onSignature (Signature.enter declaration)).run session =
      (.error (.declaration error), session) :=
    run_onSignature_error (by rw [Signature.run_enter, h])
  rw [declare_eq, declareWith, Action.run_bind_error henter]

theorem run_declare_accepted {declaration : Declaration} {signature : Signature}
    (h : session.signature.declare declaration = .ok signature) :
    (Session.declare declaration).run session =
      (call (declareTo declaration)).run { session with signature } := by
  have henter : (onSignature (Signature.enter declaration)).run session =
      (.ok (), { session with signature }) :=
    run_onSignature_ok (by rw [Signature.run_enter, h])
  rw [declare_eq, declareWith, Action.run_bind_ok henter]

theorem run_push_ok (h : Engine.push.run session.engine = (.ok (), engine)) :
    push.run session = (.ok (), { session with engine, depth := session.depth + 1 }) := by
  rw [push, Action.run_bind_ok (run_call_ok h), Action.run_modify]

theorem run_push_error (h : Engine.push.run session.engine = (.error failure, engine)) :
    push.run session = (.error (.solver failure), { session with engine }) := by
  rw [push, Action.run_bind_error (run_call_error h)]

theorem run_pop_noFrame (hdepth : session.depth = 0) :
    pop.run session = (.error .noFrame, session) := by
  rw [pop, Action.run_bind_ok (Action.run_get session), if_pos hdepth, Action.run_fail]

theorem run_pop_ok (hdepth : session.depth ≠ 0)
    (h : Engine.pop.run session.engine = (.ok (), engine)) :
    pop.run session = (.ok (), lower (session.depth - 1) { session with engine }) := by
  rw [pop, Action.run_bind_ok (Action.run_get session), if_neg hdepth,
    Action.run_bind_ok (run_call_ok h), Action.run_modify]
  rfl

theorem run_pop_error (hdepth : session.depth ≠ 0)
    (h : Engine.pop.run session.engine = (.error failure, engine)) :
    pop.run session = (.error (.solver failure), { session with engine }) := by
  rw [pop, Action.run_bind_ok (Action.run_get session), if_neg hdepth,
    Action.run_bind_error (run_call_error h)]

theorem pop_eq_ok (h : pop.run session = (.ok (), session')) :
    session.depth ≠ 0 ∧ session'.depth = session.depth - 1 := by
  by_cases hdepth : session.depth = 0
  · rw [run_pop_noFrame hdepth] at h
    simp at h
  · rcases hcall : (Engine.pop : Action σ _ _).run session.engine with ⟨_ | _, engine⟩
    · rw [run_pop_error hdepth hcall] at h
      simp at h
    · rw [run_pop_ok hdepth hcall] at h
      obtain ⟨-, rfl⟩ := Prod.mk.inj h
      exact ⟨hdepth, rfl⟩

theorem run_dropGoal_none (hgoal : session.goalDepth = none) :
    dropGoal.run session = (.ok (), session) := by
  rw [dropGoal, Action.run_bind_ok (Action.run_get session), hgoal]
  rfl

theorem run_dropGoal_some {level : Nat} (hgoal : session.goalDepth = some level) :
    dropGoal.run session = (popMany (session.depth + 1 - level)).run session := by
  rw [dropGoal, Action.run_bind_ok (Action.run_get session), hgoal]

theorem run_loadTheory_loaded {level : Nat} (hlevel : session.theoryDepth = some level) :
    loadTheory.run session = (.ok (), session) := by
  rw [loadTheory, Action.run_bind_ok (Action.run_get session), hlevel]
  rfl

theorem run_loadTheory_unloaded (hlevel : session.theoryDepth = none) :
    loadTheory.run session =
      (call (Engine.assertAxiom session.theory) >>= fun _ =>
        .modify fun session => { session with theoryDepth := some session.depth }).run session := by
  have hnone : session.theoryDepth.isNone = true := by rw [hlevel]; rfl
  rw [loadTheory, Action.run_bind_ok (Action.run_get session), if_pos hnone]

theorem run_loadTheory_ok (hlevel : session.theoryDepth = none)
    (h : (Engine.assertAxiom session.theory).run session.engine = (.ok (), engine)) :
    loadTheory.run session =
      (.ok (), { session with engine, theoryDepth := some session.depth }) := by
  rw [run_loadTheory_unloaded hlevel, Action.run_bind_ok (run_call_ok h), Action.run_modify]

theorem run_loadTheory_error (hlevel : session.theoryDepth = none)
    (h : (Engine.assertAxiom session.theory).run session.engine = (.error failure, engine)) :
    loadTheory.run session = (.error (.solver failure), { session with engine }) := by
  rw [run_loadTheory_unloaded hlevel, Action.run_bind_error (run_call_error h)]

/-- The last phase of the check of a goal, once the theory is asserted. -/
def poseGoal (name : String) (goal : SExpr) : Action (Session σ) Failure Unit := do
  note (Engine.remark ("check " ++ name))
  push
  .modify fun session => { session with goalDepth := some session.depth }
  call (Engine.assertConjecture goal)
  checkAsserted name

theorem checkGoal_eq (name : String) (goal : SExpr) :
    (checkGoal name goal : Action (Session σ) Failure Unit) =
      dropGoal >>= fun _ => loadTheory >>= fun _ => poseGoal name goal :=
  rfl

/-- The check itself, whose failure waits until the transcript is saved. -/
theorem run_checkAsserted {name : String} {result : Except Failure Report} {engine : σ}
    (h : (call Engine.check).run (clear session) = (result, { clear session with engine })) :
    (checkAsserted name).run session =
      (Action.ofExcept result >>= fun report => .modify (conclude report)).run
        (clear { session with engine := Engine.saveTranscript name engine }) := by
  have hattempt : (call Engine.check).attempt.run (clear session) =
      (.ok result, { clear session with engine }) := by
    rw [Action.run_attempt, h]
  rw [checkAsserted, Action.run_bind_ok (Action.run_modify clear session),
    Action.run_bind_ok hattempt, note, Action.run_bind_ok (Action.run_modify _ _)]
  rfl

theorem run_checkAsserted_ok {name : String} {report : Report}
    (h : Engine.check.run session.engine = (.ok report, engine)) :
    (checkAsserted name).run session =
      (.ok (), conclude report { session with engine := Engine.saveTranscript name engine }) := by
  have hcall : (call Engine.check).run (clear session) =
      (.ok report, { clear session with engine }) := run_call_ok h
  rw [run_checkAsserted hcall]
  rfl

theorem run_checkAsserted_error {name : String}
    (h : Engine.check.run session.engine = (.error failure, engine)) :
    (checkAsserted name).run session =
      (.error (.solver failure),
        clear { session with engine := Engine.saveTranscript name engine }) := by
  have hcall : (call Engine.check).run (clear session) =
      (.error (.solver failure), { clear session with engine }) := run_call_error h
  rw [run_checkAsserted hcall]
  rfl

end Run

/-! ### The loop that drops the frames of a goal -/

section Loop

variable {σ : Type} [Engine σ]

/-- The loop that drops a frame as long as there are `level` of them: how many frames it dropped,
and how it ended. -/
inductive DropsFrames (level : Nat) :
    Session σ → Nat → Except Failure Unit → Session σ → Prop
  | done {session} : session.depth < level → DropsFrames level session 0 (.ok ()) session
  | next {session middle session' count result} : level ≤ session.depth →
      pop.run session = (.ok (), middle) → DropsFrames level middle count result session' →
      DropsFrames level session (count + 1) result session'
  | stuck {session session' failure} : level ≤ session.depth →
      pop.run session = (.error failure, session') →
      DropsFrames level session 0 (.error failure) session'

/-- To drop the frames counted beforehand is to drop them while there are too many. -/
theorem dropsFrames_popMany (level count : Nat) (session : Session σ)
    (hcount : count = session.depth + 1 - level) :
    ∃ dropped, DropsFrames level session dropped ((popMany count).run session).1
      ((popMany count).run session).2 := by
  induction count generalizing session with
  | zero => exact ⟨0, .done (by omega)⟩
  | succ count ih =>
      have hlevel : level ≤ session.depth := by omega
      rcases hpop : (pop : Action (Session σ) _ _).run session with ⟨failure | _, middle⟩
      · rw [popMany, Action.run_bind_error hpop]
        exact ⟨0, .stuck hlevel hpop⟩
      · rw [popMany, Action.run_bind_ok hpop]
        obtain ⟨hdepth, hmiddle⟩ := pop_eq_ok hpop
        obtain ⟨dropped, hrest⟩ := ih middle (by omega)
        exact ⟨dropped + 1, .next hlevel hpop hrest⟩

end Loop

end SmtSession.Session
