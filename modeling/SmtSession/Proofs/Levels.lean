import SmtSession.Proofs.Coherence

/-!
# Levels

The levels a session remembers fit the frames of its engine after every history, so the loop that
drops the frames of a goal always finds the frames it drops.
-/

namespace SmtSession.Session

open Scripted

section Loop

variable {σ : Type} [Engine σ] {level count : Nat} {session final : Session σ}

theorem DropsFrames.count_eq {result : Except Failure Unit}
    (h : DropsFrames level session count result final) (hresult : result = .ok ()) :
    count = session.depth + 1 - level := by
  induction h with
  | done hdepth => omega
  | next hlevel hpop hrest ih =>
      obtain ⟨hdepth, hmiddle⟩ := pop_eq_ok hpop
      have hcount := ih hresult
      omega
  | stuck hlevel hpop => contradiction

end Loop

variable {session : Session Scripted}

theorem Levelled.pop_noFrame_iff (h : session.Levelled) :
    (pop.run session).1 = .error .noFrame ↔ session.engine.frames = [] := by
  have hempty : session.engine.frames = [] ↔ session.depth = 0 := by
    rw [h.depth_eq, Scripted.depth, List.length_eq_zero_iff]
  rw [hempty]
  by_cases hdepth : session.depth = 0
  · rw [run_pop_noFrame hdepth]
    exact iff_of_true rfl hdepth
  · refine iff_of_false ?_ hdepth
    rcases pop_outcome h hdepth with ⟨engine, hrun, -⟩ | ⟨failure, engine, hrun, -⟩
    · rw [hrun]
      simp
    · rw [hrun]
      simp

theorem Levelled.dropGoal_loop (h : session.Levelled) {level : Nat}
    (hgoal : session.goalDepth = some level) :
    ∃ count result final, DropsFrames level session count result final ∧
      dropGoal.run session = (result, final) ∧ result ≠ .error .noFrame ∧
      (result = .ok () → count = session.depth - level + 1 ∧ final.depth = level - 1 ∧
        final.engine.base = session.engine.base ∧
        final.engine.frames = session.engine.frames.drop count) := by
  obtain ⟨lower, -, hlt, hle⟩ := h.goal_le level hgoal
  obtain ⟨count, hloop⟩ :=
    dropsFrames_popMany level (session.depth + 1 - level) session rfl
  rw [← run_dropGoal_some hgoal] at hloop
  refine ⟨count, (dropGoal.run session).1, (dropGoal.run session).2, hloop, rfl, ?_, ?_⟩
  · rcases dropGoal_outcome h with ⟨engine, hdrop, -⟩ | ⟨_, _, failure, _, _, _, _, hdrop, -⟩
    · rw [hdrop]
      simp
    · rw [hdrop]
      simp
  · intro hresult
    have hcount : count = session.depth - level + 1 := by
      have := hloop.count_eq hresult
      omega
    have hkept : session.keptDepth = level - 1 := by simp [keptDepth, hgoal]
    rcases dropGoal_outcome h with
      ⟨engine, hdrop, hcalled⟩ | ⟨_, _, failure, _, _, _, _, hdrop, -⟩
    · rw [hdrop]
      have hframes : engine.frames =
          session.engine.frames.drop (session.engine.depth - session.keptDepth) :=
        congrArg Stack.frames hcalled.stack_eq
      have hdrops : session.engine.depth - session.keptDepth = count := by
        rw [hkept, hcount, ← h.depth_eq]
        omega
      rw [hdrops] at hframes
      exact ⟨hcount, hkept, congrArg Stack.base hcalled.stack_eq, hframes⟩
    · rw [hdrop] at hresult
      simp at hresult

theorem PoseOutcome.ne_noFrame {name : String} {goal : SExpr}
    {final : Except Failure Unit × Session Scripted} (h : PoseOutcome session name goal final) :
    final.1 ≠ .error .noFrame := by
  cases h with
  | unopened _ => simp
  | unposed _ => simp
  | asked _ hcheck =>
      obtain ⟨result, verdict, counterexamples, engine, hrun, hresult, -⟩ :=
        checkAsserted_outcome name _
      rw [← hcheck, hrun]
      exact hresult

theorem Levelled.checkGoal_ne_noFrame (h : session.Levelled) (name : String) (goal : SExpr) :
    ((checkGoal name goal).run session).1 ≠ .error .noFrame := by
  have houtcome := checkGoal_outcome h name goal
  generalize (checkGoal name goal).run session = final at houtcome ⊢
  cases houtcome with
  | unready => simp
  | ready _ hpose => exact hpose.ne_noFrame

/-- After every history, whatever calls failed in it: the levels fit the frames, the loop that drops
the goal of the latest check drops all frames from its level on and never misses one, and a frame
to drop is missing exactly when the engine has none. -/
theorem levels_after (settings : Settings) (steps : List Step) :
    let session := (History.after settings steps).session
    session.depth = session.engine.depth ∧
    (∀ level, session.theoryDepth = some level → level ≤ session.depth) ∧
    (∀ level, session.goalDepth = some level →
      ∃ lower, session.theoryDepth = some lower ∧ lower < level ∧ level ≤ session.depth) ∧
    (∀ level, session.goalDepth = some level →
      ∃ count result final, DropsFrames level session count result final ∧
        dropGoal.run session = (result, final) ∧ result ≠ .error .noFrame ∧
        (result = .ok () → count = session.depth - level + 1 ∧ final.depth = level - 1 ∧
          final.engine.base = session.engine.base ∧
          final.engine.frames = session.engine.frames.drop count)) ∧
    (∀ name goal, ((checkGoal name goal).run session).1 ≠ .error .noFrame) ∧
    ((pop.run session).1 = .error .noFrame ↔ session.engine.frames = []) ∧
    (session.engine.frames = [] → (pop.run session).2 = session) := by
  intro session
  have h : session.Levelled := (History.coherent_after settings steps).toLevelled
  refine ⟨h.depth_eq, h.theory_le, h.goal_le, fun level hgoal => h.dropGoal_loop hgoal,
    h.checkGoal_ne_noFrame, h.pop_noFrame_iff, ?_⟩
  intro hframes
  have hdepth : session.depth = 0 := by
    rw [h.depth_eq, Scripted.depth, hframes]
    rfl
  rw [run_pop_noFrame hdepth]

end SmtSession.Session
