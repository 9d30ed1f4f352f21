import SmtSession.Engine.Scripted
import SmtSession.Proofs.Operation
import SmtSession.Proofs.SignatureInvariant

/-!
# Declarations that do not reach the engine

A session records a declaration before it passes it on, and what is recorded stays whatever becomes
of the call. So the signature tells what was passed on, not what the engine took: it is that of an
engine that never fails. A declaration that was lost cannot be made again, and others are accepted
because of it.
-/

namespace SmtSession.Session

variable {σ : Type} [Engine σ]

/-- Makes one declaration after the other, whatever becomes of them, and tells each with its
result. -/
def declareAll : List Declaration → Session σ →
    List (Declaration × Except Failure Unit) × Session σ
  | [], session => ([], session)
  | declaration :: attempts, session =>
    let (result, session) := (Session.declare declaration).run session
    let (outcomes, session) := declareAll attempts session
    ((declaration, result) :: outcomes, session)

def isRefusal : Except Failure Unit → Bool
  | .error (.declaration _) => true
  | _ => false

/-- The declarations that the signature accepted. -/
def passedOn (outcomes : List (Declaration × Except Failure Unit)) : List Declaration :=
  (outcomes.filter (!isRefusal ·.2)).map Prod.fst

/-- The declarations that succeeded, so that the engine took them. -/
def succeeded (outcomes : List (Declaration × Except Failure Unit)) : List Declaration :=
  (outcomes.filter (·.2.isOk)).map Prod.fst

theorem map_filter_cons {α β : Type} (f : α → β) (keep : α → Bool) (item : α) (items : List α) :
    ((item :: items).filter keep).map f =
      ([item].filter keep).map f ++ (items.filter keep).map f := by
  rw [← List.map_append, ← List.filter_append, List.singleton_append]

theorem passedOn_cons (outcome : Declaration × Except Failure Unit)
    (outcomes : List (Declaration × Except Failure Unit)) :
    passedOn (outcome :: outcomes) = passedOn [outcome] ++ passedOn outcomes :=
  map_filter_cons Prod.fst _ outcome outcomes

theorem succeeded_cons (outcome : Declaration × Except Failure Unit)
    (outcomes : List (Declaration × Except Failure Unit)) :
    succeeded (outcome :: outcomes) = succeeded [outcome] ++ succeeded outcomes :=
  map_filter_cons Prod.fst _ outcome outcomes

/-- How a declaration can go: the signature refuses it, the engine takes it, or the engine fails. -/
inductive DeclareOutcome (session : Session σ) (declaration : Declaration) :
    Except Failure Unit → Session σ → Prop
  | refused {error : DeclarationError} : session.signature.check declaration = .error error →
      DeclareOutcome session declaration (.error (.declaration error)) session
  | taken {engine : σ} : session.signature.check declaration = .ok () →
      (declareTo declaration).run session.engine = (.ok (), engine) →
      DeclareOutcome session declaration (.ok ())
        { session with engine, signature := session.signature.record declaration }
  | lost {failure : Solver.Failure} {engine : σ} :
      session.signature.check declaration = .ok () →
      (declareTo declaration).run session.engine = (.error failure, engine) →
      DeclareOutcome session declaration (.error (.solver failure))
        { session with engine, signature := session.signature.record declaration }

variable {session session' : Session σ} {declaration : Declaration}
  {attempts : List Declaration} {result : Except Failure Unit}
  {outcomes : List (Declaration × Except Failure Unit)}

theorem declare_outcome (declaration : Declaration) (session : Session σ) :
    DeclareOutcome session declaration ((Session.declare declaration).run session).1
      ((Session.declare declaration).run session).2 := by
  cases hcheck : session.signature.check declaration with
  | error error =>
      have hdeclare : session.signature.declare declaration = .error error := by
        rw [Signature.declare, hcheck]
      rw [run_declare_refused hdeclare]
      exact .refused hcheck
  | ok _ =>
      let recorded := { session with signature := session.signature.record declaration }
      have hdeclare : session.signature.declare declaration = .ok recorded.signature := by
        rw [Signature.declare, hcheck]
      rw [run_declare_accepted hdeclare]
      rcases hrun : (declareTo declaration).run session.engine with ⟨failure | _, engine⟩
      · have hcall : (call (declareTo declaration)).run recorded =
            (.error (.solver failure), { recorded with engine }) := run_call_error hrun
        rw [hcall]
        exact .lost hcheck hrun
      · have hcall : (call (declareTo declaration)).run recorded =
            (.ok (), { recorded with engine }) := run_call_ok hrun
        rw [hcall]
        exact .taken hcheck hrun

/-- Whether the engine takes a declaration makes no difference to the signature. -/
theorem DeclareOutcome.signature_eq (h : DeclareOutcome session declaration result session') :
    session'.signature = ((Signature.enter declaration).run session.signature).2 := by
  cases h with
  | refused hcheck => rw [Signature.run_enter_error hcheck]
  | taken hcheck => rw [Signature.run_enter_ok hcheck]
  | lost hcheck => rw [Signature.run_enter_ok hcheck]

theorem DeclareOutcome.isRefusal_eq_false_iff
    (h : DeclareOutcome session declaration result session') :
    isRefusal result = false ↔ session.signature.check declaration = .ok () := by
  cases h with
  | refused hcheck => exact ⟨nofun, fun h => nomatch hcheck.symm.trans h⟩
  | taken hcheck => exact ⟨fun _ => hcheck, fun _ => rfl⟩
  | lost hcheck => exact ⟨fun _ => hcheck, fun _ => rfl⟩

theorem DeclareOutcome.eq_of_isRefusal (h : DeclareOutcome session declaration result session')
    (hrefusal : isRefusal result) : session' = session := by
  cases h with
  | refused _ => rfl
  | taken _ _ => contradiction
  | lost _ _ => contradiction

theorem DeclareOutcome.declarations_eq (h : DeclareOutcome session declaration result session') :
    session'.signature.declarations =
      session.signature.declarations ++ passedOn [(declaration, result)] := by
  cases h with
  | refused hcheck => exact (List.append_nil _).symm
  | taken hcheck => exact Signature.declarations_record _ _
  | lost hcheck => exact Signature.declarations_record _ _

/-! ### Any number of declarations -/

theorem signature_declareAll (attempts : List Declaration) (session : Session σ) :
    (declareAll attempts session).2.signature = session.signature.enterAll attempts := by
  induction attempts generalizing session with
  | nil => rfl
  | cons declaration attempts ih =>
      exact (ih _).trans (congrArg (Signature.enterAll attempts)
        (declare_outcome declaration session).signature_eq)

theorem consistent_declareAll (attempts : List Declaration) (engine : σ) (settings : Settings) :
    (declareAll attempts (start engine settings)).2.signature.Consistent := by
  rw [signature_declareAll]
  exact Signature.consistent_empty.enterAll attempts

theorem declarations_declareAll (attempts : List Declaration) (session : Session σ) :
    (declareAll attempts session).2.signature.declarations =
      session.signature.declarations ++ passedOn (declareAll attempts session).1 := by
  induction attempts generalizing session with
  | nil => exact (List.append_nil _).symm
  | cons declaration attempts ih =>
      have hfirst := (declare_outcome declaration session).declarations_eq
      calc
        (declareAll (declaration :: attempts) session).2.signature.declarations
          = ((Session.declare declaration).run session).2.signature.declarations ++ passedOn
              (declareAll attempts ((Session.declare declaration).run session).2).1 := ih _
        _ = session.signature.declarations ++
              passedOn (declareAll (declaration :: attempts) session).1 := by
          rw [hfirst, List.append_assoc, ← passedOn_cons]
          rfl

theorem outcome_of_mem {outcome : Declaration × Except Failure Unit}
    (h : outcome ∈ (declareAll attempts session).1) :
    ∃ before after : Session σ, DeclareOutcome before outcome.1 outcome.2 after := by
  induction attempts generalizing session with
  | nil => exact nomatch h
  | cons declaration attempts ih =>
      rcases List.mem_cons.mp h with rfl | h
      · exact ⟨session, _, declare_outcome declaration session⟩
      · exact ih h

theorem mem_passedOn {failure : Solver.Failure}
    (h : (declaration, .error (.solver failure)) ∈ outcomes) : declaration ∈ passedOn outcomes :=
  List.mem_map.mpr ⟨_, List.mem_filter.mpr ⟨h, rfl⟩, rfl⟩

theorem succeeded_eq_filter (outcomes : List (Declaration × Except Failure Unit)) :
    succeeded outcomes = ((outcomes.filter (!isRefusal ·.2)).filter (·.2.isOk)).map Prod.fst := by
  rw [List.filter_filter]
  apply congrArg (List.map Prod.fst)
  apply List.filter_congr
  rintro ⟨declaration, failure | _⟩ -
  · rfl
  · rfl

theorem succeeded_sublist_passedOn (outcomes : List (Declaration × Except Failure Unit)) :
    (succeeded outcomes).Sublist (passedOn outcomes) := by
  rw [succeeded_eq_filter]
  exact List.filter_sublist.map _

/-- What was passed on is what succeeded, unless the engine failed. -/
theorem passedOn_eq_succeeded_iff (attempts : List Declaration) (session : Session σ) :
    let outcomes := (declareAll attempts session).1
    passedOn outcomes = succeeded outcomes ↔
      ∀ declaration failure, (declaration, .error (.solver failure)) ∉ outcomes := by
  intro outcomes
  rw [succeeded_eq_filter]
  constructor
  · intro heq declaration failure hmem
    have hlength := congrArg List.length heq
    rw [passedOn, List.length_map, List.length_map, eq_comm,
      List.length_filter_eq_length_iff] at hlength
    have hok := hlength _ (List.mem_filter.mpr ⟨hmem, rfl⟩)
    contradiction
  · intro hnone
    rw [List.filter_eq_self.mpr, passedOn]
    rintro ⟨declaration, result⟩ hmem
    obtain ⟨hmem, hpassed⟩ := List.mem_filter.mp hmem
    obtain ⟨before, after, houtcome⟩ := outcome_of_mem hmem
    cases houtcome with
    | refused _ => contradiction
    | taken _ _ => rfl
    | lost _ _ => exact absurd hmem (hnone declaration _)

/-- After any declarations, whichever calls of the engine failed: the signature is the one that the
declarations make without an engine. It lists what was passed on, which is what succeeded only if no
call failed. What comes next is accepted if it fits that list, also where it builds on a declaration
that was lost; and a declaration that was lost is refused when it is made again. -/
theorem recorded_whatever_fails (engine : σ) (settings : Settings) (attempts : List Declaration) :
    let run := declareAll attempts (start engine settings)
    let session := run.2
    session.signature = Signature.empty.enterAll attempts ∧
    session.signature.declarations = passedOn run.1 ∧
    (session.signature.declarations = succeeded run.1 ↔
      ∀ declaration failure, (declaration, .error (.solver failure)) ∉ run.1) ∧
    (∀ declaration, isRefusal ((Session.declare declaration).run session).1 = false ↔
      declaration.Admissible session.signature.declarations) ∧
    ∀ declaration failure, (declaration, .error (.solver failure)) ∈ run.1 →
      declaration ∈ session.signature.declarations ∧
        (Session.declare declaration).run session =
          (.error (.declaration (.duplicate declaration.kind declaration.name)), session) := by
  intro run session
  have hconsistent : session.signature.Consistent := consistent_declareAll attempts engine settings
  have hpassed : session.signature.declarations = passedOn run.1 :=
    declarations_declareAll attempts (start engine settings)
  refine ⟨signature_declareAll attempts (start engine settings), hpassed, ?_, ?_, ?_⟩
  · rw [hpassed]
    exact passedOn_eq_succeeded_iff attempts _
  · intro declaration
    rw [(declare_outcome declaration session).isRefusal_eq_false_iff, hconsistent.check_eq_ok_iff]
  · intro declaration failure hmem
    have hrecorded : declaration ∈ session.signature.declarations := hpassed ▸ mem_passedOn hmem
    refine ⟨hrecorded, run_declare_refused ?_⟩
    rw [Signature.declare, hconsistent.check_of_mem hrecorded]

/-- A type that the engine never got: it is refused when it is declared again, and a constant of it
reaches the engine. -/
theorem declaration_lost :
    (let lost : Scripted := { faults := [(.declareSort, some "solver died")] }
      let attempts : List Declaration :=
        [.type "T", .type "T", .constant ⟨"x", .named "T", false⟩]
      let run := declareAll attempts (start lost {})
      run.1.map Prod.snd = [.error (.solver (.refused "solver died")),
        .error (.declaration (.duplicate .type "T")), .ok ()] ∧
      run.2.engine.events = [.declareConst "x" (.named "T")]) ∧
    ¬∀ (engine : Scripted) (settings : Settings) (attempts : List Declaration),
      let run := declareAll attempts (start engine settings)
      run.2.signature.declarations = succeeded run.1 := by
  refine ⟨⟨rfl, rfl⟩, fun hclaim => ?_⟩
  have hsame := hclaim { faults := [(.declareSort, some "solver died")] } {} [.type "T"]
  have hlisted : [Declaration.type "T"] = [] := hsame
  contradiction

end SmtSession.Session
