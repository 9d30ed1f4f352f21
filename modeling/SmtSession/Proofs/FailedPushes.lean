import SmtSession.Proofs.Coherence

/-!
# Pushes that fail

Three operations open a frame for what they assert: an axiom, a conjecture, or the theory and the
goal in a frame each. A frame they could open stays when a later call of theirs fails, so what is
left of a failed operation depends on the call that failed, which its failure does not tell.
-/

namespace SmtSession.Session

open Scripted

/-- These calls brought the engine from one state to the other, opened these frames on top of those
it had, and changed nothing else of the session. -/
structure Opened (session final : Session Scripted) (events : List Event) (frames : List Frame) :
    Prop where
  called : session.engine.Called final.engine events
    ⟨session.engine.base, frames ++ session.engine.frames⟩
  rest_eq : final = { session with
    engine := final.engine, depth := session.depth + frames.length }

variable {session middle final : Session Scripted} {events later : List Event}
  {frames upper : List Frame} {engine : Scripted}

theorem opened_sameFrames (hcalled : session.engine.Called engine events session.engine.stack) :
    Opened session { session with engine } events [] :=
  ⟨hcalled, rfl⟩

theorem opened_push (session : Session Scripted) :
    (∃ opened, push.run session = (.ok (), opened) ∧ Opened session opened [.push] [[]]) ∨
      ∃ failure final, push.run session = (.error (.solver failure), final) ∧
        Opened session final [] [] := by
  rcases push_outcome session with ⟨engine, hrun, hcalled⟩ | ⟨failure, engine, hrun, hsame⟩
  · exact Or.inl ⟨_, hrun, hcalled, rfl⟩
  · exact Or.inr ⟨failure, _, hrun, opened_sameFrames hsame⟩

theorem Opened.trans (h : Opened session middle events frames)
    (h' : Opened middle final later upper) :
    Opened session final (events ++ later) (upper ++ frames) := by
  have hstack := h.called.stack_eq
  obtain ⟨hbase, hframes⟩ := Stack.mk.inj hstack
  refine ⟨⟨?_, ?_⟩, ?_⟩
  · rw [h'.called.events_eq, h.called.events_eq, List.append_assoc]
  · rw [h'.called.stack_eq, hbase, hframes, List.append_assoc]
  · have hdepth : session.depth + frames.length + upper.length =
        session.depth + (upper ++ frames).length := by
      rw [List.length_append]
      omega
    rw [h'.rest_eq, h.rest_eq, ← hdepth]

/-- An assertion goes to the latest of the frames that were opened. -/
theorem Opened.assert {frame : Frame} (h : Opened session middle events (frame :: frames))
    {assertion : Assertion}
    (hcalled : middle.engine.Called engine later (middle.engine.stack.assert assertion)) :
    Opened session { middle with engine } (events ++ later)
      ((frame ++ [assertion]) :: frames) := by
  refine ⟨⟨?_, ?_⟩, ?_⟩
  · rw [hcalled.events_eq, h.called.events_eq, List.append_assoc]
  · rw [hcalled.stack_eq, h.called.stack_eq]
    rfl
  · rw [h.rest_eq]
    rfl

/-- What an operation that opens frames comes to: its result, the calls of the engine, and the
frames it opened, the latest first. -/
inductive Ending (theory : SExpr) :
    Operation → Except Failure Unit → List Event → List Frame → Prop
  | assumeUnopened {formula failure} :
      Ending theory (.assumeInFrame formula) (.error (.solver failure)) [] []
  | assumeRefused {formula failure} :
      Ending theory (.assumeInFrame formula) (.error (.solver failure)) [.push] [[]]
  | assumed {formula} :
      Ending theory (.assumeInFrame formula) (.ok ()) [.push, .assertAxiom formula]
        [[.axiomatic formula]]
  | refuteUnopened {formula failure} :
      Ending theory (.refuteInFrame formula) (.error (.solver failure)) [] []
  /-- A conjecture is recorded also when it fails. -/
  | refuteRefused {formula failure} :
      Ending theory (.refuteInFrame formula) (.error (.solver failure))
        [.push, .assertConjecture formula] [[]]
  | refuted {formula} :
      Ending theory (.refuteInFrame formula) (.ok ()) [.push, .assertConjecture formula]
        [[.conjectured formula]]
  | stageRefused {name goal failure events frames} :
      Ending theory (.assumeInFrame theory) (.error failure) events frames →
      Ending theory (.stageGoal name goal) (.error failure)
        (.remark ("prepare " ++ name) :: events) frames
  /-- The frame of the theory stays whatever becomes of the goal. -/
  | staged {name goal result events frames} :
      Ending theory (.refuteInFrame goal) result events frames →
      Ending theory (.stageGoal name goal) result
        (.remark ("prepare " ++ name) :: .push :: .assertAxiom theory :: events)
        (frames ++ [[.axiomatic theory]])

variable {theory : SExpr} {operation : Operation} {result : Except Failure Unit}

theorem Ending.length_eq (h : Ending theory operation result events frames) :
    frames.length = events.count .push := by
  induction h with
  | stageRefused _ ih => simpa using ih
  | staged _ ih => simpa using ih
  | _ => rfl

/-- Of an operation that succeeds the client knows how many frames to drop. -/
def Operation.frameCount : Operation → Nat
  | .assumeInFrame _ | .refuteInFrame _ => 1
  | .stageGoal _ _ => 2
  | _ => 0

theorem Ending.frameCount_eq (h : Ending theory operation (.ok ()) events frames) :
    frames.length = operation.frameCount := by
  cases h with
  | staged hgoal =>
      cases hgoal
      rfl
  | _ => rfl

theorem assumeInFrame_ending (theory formula : SExpr) (session : Session Scripted) :
    ∃ result final events frames, (assumeInFrame formula).run session = (result, final) ∧
      Ending theory (.assumeInFrame formula) result events frames ∧
      Opened session final events frames := by
  rcases opened_push session with ⟨opened, hpush, hopened⟩ | ⟨failure, final, hpush, hsame⟩
  · rw [assumeInFrame, Action.run_bind_ok hpush]
    rcases call_outcome (answers_assertAxiom formula opened.engine) with
      ⟨engine, hassert, hcalled⟩ | ⟨failure, engine, hassert, hsame⟩
    · exact ⟨_, _, _, _, hassert, .assumed, hopened.assert hcalled⟩
    · exact ⟨_, _, _, _, hassert, .assumeRefused, hopened.trans (opened_sameFrames hsame)⟩
  · rw [assumeInFrame, Action.run_bind_error hpush]
    exact ⟨_, _, _, _, rfl, .assumeUnopened, hsame⟩

theorem refuteInFrame_ending (theory formula : SExpr) (session : Session Scripted) :
    ∃ result final events frames, (refuteInFrame formula).run session = (result, final) ∧
      Ending theory (.refuteInFrame formula) result events frames ∧
      Opened session final events frames := by
  rcases opened_push session with ⟨opened, hpush, hopened⟩ | ⟨failure, final, hpush, hsame⟩
  · rw [refuteInFrame, Action.run_bind_ok hpush]
    rcases conjecture_outcome formula opened with
      ⟨engine, hassert, hcalled⟩ | ⟨failure, engine, hassert, hsame⟩
    · exact ⟨_, _, _, _, hassert, .refuted, hopened.assert hcalled⟩
    · exact ⟨_, _, _, _, hassert, .refuteRefused, hopened.trans (opened_sameFrames hsame)⟩
  · rw [refuteInFrame, Action.run_bind_error hpush]
    exact ⟨_, _, _, _, rfl, .refuteUnopened, hsame⟩

theorem stageGoal_ending (name : String) (goal : SExpr) (session : Session Scripted) :
    ∃ result final events frames, (stageGoal name goal).run session = (result, final) ∧
      Ending session.theory (.stageGoal name goal) result events frames ∧
      Opened session final events frames := by
  let remarked : Session Scripted :=
    { session with engine := Engine.remark ("prepare " ++ name) session.engine }
  have hremarked : Opened session remarked [.remark ("prepare " ++ name)] [] :=
    opened_sameFrames ((Called.refl session.engine).record _)
  have hstage : (stageGoal name goal).run session =
      (assumeInFrame session.theory >>= fun _ => refuteInFrame goal).run remarked := rfl
  obtain ⟨result, assumed, events, frames, hassume, hending, hassumed⟩ :=
    assumeInFrame_ending session.theory session.theory remarked
  have hopened := hremarked.trans hassumed
  rw [List.append_nil] at hopened
  cases result with
  | error failure =>
      rw [hstage, Action.run_bind_error hassume]
      exact ⟨_, _, _, _, rfl, .stageRefused hending, hopened⟩
  | ok =>
      cases hending
      rw [hstage, Action.run_bind_ok hassume]
      obtain ⟨result, final, later, upper, hrefute, hending, hrefuted⟩ :=
        refuteInFrame_ending session.theory goal assumed
      exact ⟨_, _, _, _, hrefute, .staged hending, hopened.trans hrefuted⟩

theorem Opened.levelled (h : Opened session final events frames) (hlevelled : session.Levelled) :
    final.Levelled := by
  have hdepth : final.depth = session.depth + frames.length := by rw [h.rest_eq]
  have htheory : final.theoryDepth = session.theoryDepth := by rw [h.rest_eq]
  have hgoal : final.goalDepth = session.goalDepth := by rw [h.rest_eq]
  refine ⟨?_, ?_, ?_⟩
  · rw [hdepth, ← depth_stack, h.called.stack_eq, Stack.depth, List.length_append,
      hlevelled.depth_eq, Scripted.depth]
    exact Nat.add_comm _ _
  · intro level hlevel
    have hle := hlevelled.theory_le level (htheory ▸ hlevel)
    omega
  · intro level hlevel
    obtain ⟨lower, hlower, hlt, hle⟩ := hlevelled.goal_le level (hgoal ▸ hlevel)
    exact ⟨lower, htheory.trans hlower, hlt, by omega⟩

/-- To drop as many frames as were opened restores the session, unless the engine fails to. -/
theorem Opened.dropped (h : Opened session final events frames) (hlevelled : session.Levelled) :
    (∃ engine, (popMany frames.length).run final = (.ok (), { session with engine }) ∧
        engine.stack = session.engine.stack) ∨
      ∃ failure kept, (popMany frames.length).run final = (.error (.solver failure), kept) := by
  have hdepth : final.depth - frames.length = session.depth := by
    rw [h.rest_eq]
    exact Nat.add_sub_cancel ..
  have hle : frames.length ≤ final.depth := by
    rw [h.rest_eq]
    exact Nat.le_add_left ..
  obtain ⟨depth, engine, -, hcalled, hend⟩ :=
    popMany_outcome frames.length (h.levelled hlevelled) hle
  rcases hend with ⟨rfl, hend⟩ | ⟨-, failure, hend⟩
  · refine Or.inl ⟨engine, ?_, ?_⟩
    · rw [hend, hdepth, h.rest_eq]
      exact congrArg (fun s : Session Scripted => (Except.ok (), { s with engine }))
        hlevelled.lower_depth
    · rw [hcalled.stack_eq, hdepth, h.called.stack_eq, Stack.truncate, Stack.depth,
        List.length_append, hlevelled.depth_eq, Scripted.depth, Nat.add_sub_cancel,
        List.drop_left]
      rfl
  · exact Or.inr ⟨failure, _, hend⟩

/-- An operation that opens frames for what it asserts. -/
def Operation.OpensFrames : Operation → Prop
  | .assumeInFrame _ | .refuteInFrame _ | .stageGoal _ _ => True
  | _ => False

theorem Operation.OpensFrames.ending (h : operation.OpensFrames) (session : Session Scripted) :
    ∃ result final events frames, operation.perform.run session = (result, final) ∧
      Ending session.theory operation result events frames ∧
      Opened session final events frames := by
  cases operation with
  | assumeInFrame formula => exact assumeInFrame_ending session.theory formula session
  | refuteInFrame formula => exact refuteInFrame_ending session.theory formula session
  | stageGoal name goal => exact stageGoal_ending name goal session
  | _ => exact h.elim

/-- After every history: an operation that opens frames for what it asserts leaves those that its
own calls opened, whichever call failed, and all else as it was. To drop as many restores the
session, but how many there are is fixed only for an operation that succeeds. One that fails leaves
the frames as they were exactly if it failed before it opened any. -/
theorem frames_of_pushes (settings : Settings) (steps : List Step) (operation : Operation)
    (hopens : operation.OpensFrames) :
    let session := (History.after settings steps).session
    let result := (operation.perform.run session).1
    let final := (operation.perform.run session).2
    let calls := callsSince session.engine final.engine
    ∃ frames, Ending session.theory operation result calls frames ∧
      final.engine.base = session.engine.base ∧
      final.engine.frames = frames ++ session.engine.frames ∧
      final = { session with
        engine := final.engine, depth := session.depth + frames.length } ∧
      frames.length = calls.count .push ∧
      (result = .ok () → frames.length = operation.frameCount) ∧
      (final.depth = session.depth ∧ final.phase = session.phase ∧
        final.engine.frames = session.engine.frames ↔ .push ∉ calls) ∧
      ((∃ engine, (popMany frames.length).run final = (.ok (), { session with engine }) ∧
          engine.stack = session.engine.stack) ∨
        ∃ failure kept, (popMany frames.length).run final = (.error (.solver failure), kept)) := by
  intro session result final calls
  have hlevelled : session.Levelled := (History.coherent_after settings steps).toLevelled
  obtain ⟨result', final', events, frames, hrun, hending, hopened⟩ := hopens.ending session
  obtain rfl : result = result' := congrArg Prod.fst hrun
  obtain rfl : final = final' := congrArg Prod.snd hrun
  obtain rfl : calls = events := by
    simp only [calls, callsSince]
    rw [hopened.called.events_eq, List.drop_left]
  obtain ⟨hbase, hframes⟩ := Stack.mk.inj hopened.called.stack_eq
  have hlength := hending.length_eq
  refine ⟨frames, hending, hbase, hframes, hopened.rest_eq, hlength, ?_, ?_,
    hopened.dropped hlevelled⟩
  · intro hok
    rw [hok] at hending
    exact hending.frameCount_eq
  · have hnone : .push ∉ calls ↔ frames = [] := by
      rw [← List.count_eq_zero, ← hlength, List.length_eq_zero_iff]
    rw [hnone, hframes, hopened.rest_eq]
    refine ⟨fun h => List.append_left_eq_self.mp h.2.2, ?_⟩
    rintro rfl
    exact ⟨rfl, rfl, rfl⟩

/-- Two frames are left of a goal that the engine refuses. -/
theorem frames_of_pushes_refused :
    let session := (History.after {} [.script [] (some "solver died") []]).session
    let run := (Operation.stageGoal "goal" (.symbol "p")).perform.run session
    (Operation.stageGoal "goal" (.symbol "p")).OpensFrames ∧
      run.1 = .error (.solver (.refused "solver died")) ∧
      run.2 = { session with engine := run.2.engine, depth := 2 } ∧
      run.2.engine.frames = [[], [.axiomatic session.theory]] := by
  intro session run
  obtain ⟨frames, -, -, -, hrest, hlength, -⟩ :=
    frames_of_pushes {} [.script [] (some "solver died") []] (.stageGoal "goal" (.symbol "p"))
      trivial
  have hcount : frames.length = 2 := hlength.trans (by decide)
  rw [hcount] at hrest
  exact ⟨trivial, rfl, hrest, rfl⟩

/-- A frame is left of an axiom that the engine refuses. -/
theorem frame_left_open :
    ¬∀ (settings : Settings) (steps : List Step) (operation : Operation) (failure : Failure)
        (final : Session Scripted), operation.OpensFrames →
      operation.perform.run (History.after settings steps).session = (.error failure, final) →
        final.depth = (History.after settings steps).session.depth ∧
        final.phase = (History.after settings steps).session.phase ∧
        final.engine.frames = (History.after settings steps).session.engine.frames := by
  intro hclaim
  let steps : List Step := [.script [] none [(.assertAxiom, some "solver died")]]
  let refused := (assumeInFrame (.symbol "p")).run (History.after {} steps).session
  have hrun : refused = (.error (.solver (.refused "solver died")), refused.2) := rfl
  have hdepth := (hclaim {} steps (.assumeInFrame (.symbol "p")) _ _ trivial hrun).1
  have hopen : refused.2.depth = 1 := rfl
  rw [hopen] at hdepth
  contradiction

end SmtSession.Session
