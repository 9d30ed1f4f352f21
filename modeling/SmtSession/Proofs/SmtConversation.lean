import SmtSession.Proofs.Conversation

/-!
# The conversations of the SMT engine

A check asks for a verdict and for what belongs to it; a search for further counterexamples asserts
clauses in a frame that it opens before and drops after, whatever it finds. Nothing but a verdict is
ever asked for right after a command that is only told.
-/

namespace SmtSession

open Solver

namespace Smt

/-- The order of the exchanges of a check. `heard` tells that nothing was told since the latest
reply, and `inner` that the frame of the search is open. -/
inductive Course : Bool → Bool → List Exchange → Bool → Bool → Prop
  | done {heard inner} : Course heard inner [] heard inner
  | verdict {heard inner heard' inner' reply rest} : Course true inner rest heard' inner' →
      Course heard inner (.asked checkSatCommand reply :: rest) heard' inner'
  | detail {inner heard' inner' command reply rest} : awaitsReply command →
      Course true inner rest heard' inner' →
      Course true inner (.asked command reply :: rest) heard' inner'
  | clause {heard heard' inner' formula rest} : Course false true rest heard' inner' →
      Course heard true (.told (assertCommand formula) :: rest) heard' inner'
  | open {heard heard' inner' rest} : Course false true rest heard' inner' →
      Course heard false (.told pushCommand :: rest) heard' inner'
  | close {heard heard' inner' rest} : Course false false rest heard' inner' →
      Course heard true (.told popCommand :: rest) heard' inner'

variable {α β : Type} {heard inner inner' : Bool} {exchanges later : List Exchange}

theorem Course.append {middle last last' : Bool} (h : Course heard inner exchanges middle inner')
    (h' : Course middle inner' later last last') :
    Course heard inner (exchanges ++ later) last last' := by
  induction h with
  | done => exact h'
  | verdict _ ih => exact .verdict (ih h')
  | detail hreply _ ih => exact .detail hreply (ih h')
  | clause _ ih => exact .clause (ih h')
  | «open» _ ih => exact .open (ih h')
  | close _ ih => exact .close (ih h')

/-- A reply to a check that is not a verdict is what the whole step fails with. -/
def Faithful (exchanges : List Exchange) (result : Except Failure α) : Prop :=
  ∀ text, .asked checkSatCommand (.ok text) ∈ exchanges →
    text ∈ verdictTexts ∨ result = .error (.refused (errorText text))

def Proceeds (heard inner inner' : Bool) (exchanges : List Exchange) (result : Except Failure α) :
    Prop :=
  (∃ heard', Course heard inner exchanges heard' inner') ∧ Faithful exchanges result

theorem faithful_nil (result : Except Failure α) : Faithful [] result := by
  intro text hmem
  contradiction

theorem Faithful.cons {exchange : Exchange} {result : Except Failure α}
    (h : Faithful exchanges result) (hhead : ∀ text, exchange = .asked checkSatCommand (.ok text) →
      text ∈ verdictTexts ∨ result = .error (.refused (errorText text))) :
    Faithful (exchange :: exchanges) result := by
  intro text hmem
  rcases List.mem_cons.mp hmem with heq | hmem
  · exact hhead text heq.symm
  · exact h text hmem

theorem Faithful.error {failure : Failure}
    (h : Faithful exchanges (.error failure : Except Failure α)) :
    Faithful exchanges (.error failure : Except Failure β) := by
  intro text hmem
  rcases h text hmem with hverdict | hrefused
  · exact Or.inl hverdict
  · exact Or.inr (by rw [Except.error.inj hrefused])

/-- Where a step succeeds, every reply to a check was a verdict. -/
theorem Faithful.of_ok {a : α} (h : Faithful exchanges (.ok a : Except Failure α))
    (result : Except Failure β) : Faithful exchanges result := by
  intro text hmem
  rcases h text hmem with hverdict | hrefused
  · exact Or.inl hverdict
  · contradiction

theorem Faithful.append {a : α} {result : Except Failure β}
    (h : Faithful exchanges (.ok a : Except Failure α)) (h' : Faithful later result) :
    Faithful (exchanges ++ later) result := by
  intro text hmem
  rcases List.mem_append.mp hmem with hmem | hmem
  · exact h.of_ok result text hmem
  · exact h' text hmem

theorem faithful_of_judged {reply : Except Failure String} {result : Except Failure Satisfiability}
    (h : Judged reply later result) : Faithful (.asked checkSatCommand reply :: later) result := by
  cases h with
  | sat =>
      apply (faithful_nil _).cons
      rintro text ⟨⟩
      exact Or.inl (by decide)
  | unsat =>
      apply (faithful_nil _).cons
      rintro text ⟨⟩
      exact Or.inl (by decide)
  | unknown =>
      refine ((faithful_nil _).cons ?_).cons ?_
      · intro text hinfo
        rw [Exchange.asked.injEq] at hinfo
        exact absurd hinfo.1 (by decide)
      · rintro text ⟨⟩
        exact Or.inl (by decide)
  | refused hrefused =>
      apply (faithful_nil _).cons
      rintro text ⟨⟩
      exact Or.inr rfl
  | unheard =>
      apply (faithful_nil _).cons
      intro text hheard
      rw [Exchange.asked.injEq] at hheard
      exact absurd hheard.2 nofun

theorem course_of_judged {reply : Except Failure String} {result : Except Failure Satisfiability}
    (h : Judged reply later result) :
    Course heard inner (.asked checkSatCommand reply :: later) true inner := by
  cases h with
  | unknown => exact .verdict (.detail rfl .done)
  | _ => exact .verdict .done

theorem conducts_talk {action : Action Dialogue Failure α}
    {claim : List Exchange → Except Failure α → Prop} (h : Conducts id action claim) :
    Conducts Smt.dialogue (talk action) claim := by
  intro smt hwritten
  have hsame : ((talk action).run smt).1 = (action.run smt.dialogue).1 := by
    rw [talk, Action.run_onPart]
    cases (action.run smt.dialogue).1 <;> rfl
  rw [hsame] at hwritten ⊢
  exact h smt.dialogue hwritten

theorem conducts_result (result : Except Failure α) :
    Conducts Smt.dialogue (.ofExcept result) (Proceeds heard inner inner) := by
  apply (conducts_ofExcept result).mono
  rintro exchanges result' ⟨rfl, -⟩
  exact ⟨⟨heard, .done⟩, faithful_nil result'⟩

/-! ### Steps followed by the rest of a check -/

section Rest

variable {next : α → Action Smt Failure β}

theorem conducts_result_bind (result : Except Failure α)
    (hnext : ∀ a, Conducts Smt.dialogue (next a) (Proceeds heard inner inner)) :
    Conducts Smt.dialogue (.ofExcept result >>= next) (Proceeds heard inner inner) := by
  cases result with
  | ok a => exact hnext a
  | error failure => exact conducts_result (.error failure)

theorem conducts_detail_bind {action : Action Dialogue Failure α} {command : SExpr}
    (hreply : awaitsReply command) (hcommand : command ≠ checkSatCommand)
    (haction : Conducts id action fun exchanges _ => ∃ reply, exchanges = [.asked command reply])
    (hnext : ∀ a, Conducts Smt.dialogue (next a) (Proceeds true inner inner)) :
    Conducts Smt.dialogue (talk action >>= next) (Proceeds true inner inner) := by
  have hother (reply : Except Failure String) (text : String) :
      Exchange.asked command reply ≠ .asked checkSatCommand (.ok text) := by
    intro hasked
    exact hcommand (Exchange.asked.inj hasked).1
  refine (conducts_talk haction).bind hnext ?_ ?_
  · rintro exchanges failure ⟨reply, rfl⟩
    refine ⟨⟨true, .detail hreply .done⟩, (faithful_nil _).cons ?_⟩
    intro text hasked
    exact absurd hasked (hother reply text)
  · rintro exchanges a later result ⟨reply, rfl⟩ ⟨⟨heard', hcourse⟩, hrest⟩
    refine ⟨⟨heard', .detail hreply hcourse⟩, hrest.cons ?_⟩
    intro text hasked
    exact absurd hasked (hother reply text)

/-- A verdict is the first that is asked for. -/
def AsksFirst (exchanges : List Exchange) : Prop :=
  ∃ reply rest, exchanges = .asked checkSatCommand reply :: rest

theorem conducts_checkSat_bind {next : Satisfiability → Action Smt Failure β}
    (hnext : ∀ a, Conducts Smt.dialogue (next a) (Proceeds true inner inner)) :
    Conducts Smt.dialogue (talk Dialogue.checkSat >>= next) fun exchanges result =>
      AsksFirst exchanges ∧ Proceeds heard inner inner exchanges result := by
  refine (conducts_talk conducts_checkSat).bind hnext ?_ ?_
  · rintro exchanges failure ⟨reply, later, rfl, hjudged⟩
    exact ⟨⟨reply, later, rfl⟩, ⟨true, course_of_judged hjudged⟩,
      (faithful_of_judged hjudged).error⟩
  · rintro exchanges a rest result ⟨reply, later, rfl, hjudged⟩ ⟨⟨heard', hrest⟩, hfaithful⟩
    exact ⟨⟨reply, later ++ rest, rfl⟩, ⟨heard', (course_of_judged hjudged).append hrest⟩,
      (faithful_of_judged hjudged).append hfaithful⟩

theorem conducts_counterexample_bind {next : Counterexample → Action Smt Failure β}
    (hnext : ∀ a, Conducts Smt.dialogue (next a) (Proceeds true inner inner)) :
    Conducts Smt.dialogue (counterexample >>= next) (Proceeds true inner inner) := by
  rw [counterexample, bind_assoc]
  refine conducts_detail_bind rfl (by decide) conducts_labels fun labels => ?_
  rw [bind_assoc]
  refine conducts_detail_bind rfl (by decide) (conducts_ask _) fun reply => ?_
  rw [bind_assoc]
  refine conducts_result_bind _ fun model => ?_
  exact hnext { model, labels }

theorem conducts_told_bind {command : SExpr} {next : Unit → Action Smt Failure β}
    {inner'' : Bool} (hnext : Conducts Smt.dialogue (next ()) (Proceeds false inner' inner''))
    (hcourse : ∀ {rest heard'}, Course false inner' rest heard' inner'' →
      Course heard inner (.told command :: rest) heard' inner'') :
    Conducts Smt.dialogue (Smt.send command >>= next) (Proceeds heard inner inner'') := by
  refine (conducts_talk (conducts_send command)).bind (fun _ => hnext) ?_ ?_
  · rintro exchanges failure ⟨-, hresult⟩
    contradiction
  · rintro exchanges a rest result ⟨rfl, -⟩ ⟨⟨heard', hrest⟩, hfaithful⟩
    refine ⟨⟨heard', hcourse hrest⟩, hfaithful.cons ?_⟩
    intro text htold
    contradiction

end Rest

theorem conducts_map {action : Action Smt Failure α} {claim : List Exchange → Prop} (f : α → β)
    (h : Conducts Smt.dialogue action fun exchanges result =>
      claim exchanges ∧ Faithful exchanges result) :
    Conducts Smt.dialogue (action >>= fun a => pure (f a)) fun exchanges result =>
      claim exchanges ∧ Faithful exchanges result := by
  refine h.bind (fun a => conducts_ofExcept (.ok (f a))) ?_ ?_
  · rintro exchanges failure ⟨hclaim, hfaithful⟩
    exact ⟨hclaim, hfaithful.error⟩
  · rintro exchanges a later result ⟨hclaim, hfaithful⟩ ⟨rfl, rfl⟩
    rw [List.append_nil]
    exact ⟨hclaim, hfaithful.of_ok _⟩

/-! ### Checks -/

theorem conducts_search (count : Nat) (latest : Counterexample) :
    Conducts Smt.dialogue (search count latest) (Proceeds heard true true) := by
  induction count generalizing heard latest with
  | zero => exact conducts_result (.ok [])
  | succ count ih =>
      intro smt hwritten
      rw [search, Action.run_bind_ok (Action.run_get smt)] at hwritten ⊢
      revert hwritten
      suffices h : Conducts Smt.dialogue _ (Proceeds heard true true) from h smt
      cases exclusion? smt.constants latest.model with
      | none => exact conducts_result (.ok [])
      | some clause =>
          refine conducts_told_bind (Conducts.mono (conducts_checkSat_bind fun answer => ?_)
            fun _ _ h => h.2) .clause
          cases answer with
          | sat =>
              refine conducts_counterexample_bind fun next => ?_
              exact conducts_map _ (ih next)
          | unsat => exact conducts_result (.ok [])
          | unknown reason => exact conducts_result (.ok [])

theorem told_cases (command : SExpr) (smt : Smt) :
    (∃ smt', (Smt.send command).run smt = (.ok (), smt') ∧
        Conversation smt.dialogue [.told command] smt'.dialogue) ∨
      (Smt.send command).run smt = (.error (.channel .broken), smt) := by
  rcases send_cases command smt.dialogue with ⟨connection, -, hrun⟩ | hrun
  · refine Or.inl ⟨{ smt with dialogue := _ }, ?_, .told hrun .nil⟩
    rw [Smt.send, talk, Action.run_onPart_ok hrun]
  · apply Or.inr
    rw [Smt.send, talk, Action.run_onPart_error hrun]
    rfl

/-- The frame of a search is dropped in any case. -/
theorem conducts_close {action : Action Smt Failure α}
    (h : Conducts Smt.dialogue action (Proceeds heard true true)) :
    Conducts Smt.dialogue
      (action.attempt >>= fun found => talk Dialogue.pop >>= fun _ => .ofExcept found)
      (Proceeds heard true false) := by
  intro smt hwritten
  have hsend : talk Dialogue.pop = Smt.send popCommand := rfl
  rw [hsend, Action.run_bind_ok (Action.run_attempt action smt)] at hwritten ⊢
  rcases told_cases popCommand (action.run smt).2 with ⟨smt', hpop, htold⟩ | hpop
  · rw [Action.run_bind_ok hpop] at hwritten ⊢
    obtain ⟨exchanges, hconversation, ⟨heard', hcourse⟩, hfaithful⟩ := h smt hwritten
    refine ⟨_, hconversation.append htold, ⟨false, hcourse.append (.close .done)⟩, ?_⟩
    intro text hmem
    rw [List.mem_append, List.mem_singleton] at hmem
    rcases hmem with hmem | hmem
    · exact hfaithful text hmem
    · contradiction
  · rw [Action.run_bind_error hpop] at hwritten
    exact absurd rfl hwritten

theorem conducts_moreCounterexamples (first : Counterexample) :
    Conducts Smt.dialogue (moreCounterexamples first) (Proceeds heard false false) := by
  intro smt hwritten
  rw [moreCounterexamples, Action.run_bind_ok (Action.run_get smt)] at hwritten ⊢
  revert hwritten
  suffices h : Conducts Smt.dialogue _ (Proceeds heard false false) from h smt
  by_cases hlimit : smt.limit ≤ 1
  · rw [if_pos hlimit]
    exact conducts_result (.ok [])
  · rw [if_neg hlimit]
    exact conducts_told_bind (conducts_close (conducts_search _ first)) .open

theorem conducts_check :
    Conducts Smt.dialogue check fun exchanges result =>
      AsksFirst exchanges ∧ Proceeds heard false false exchanges result := by
  refine conducts_checkSat_bind fun answer => ?_
  cases answer with
  | unsat => exact conducts_result (.ok _)
  | unknown reason => exact conducts_result (.ok _)
  | sat =>
      refine conducts_counterexample_bind fun first => ?_
      exact conducts_map _ (conducts_moreCounterexamples first)

/-! ### The transcript -/

theorem log_remark (text : String) (smt : Smt) :
    ∃ entries, (Engine.remark text smt).dialogue.log = smt.dialogue.log ++ entries ∧
      ∀ entry ∈ entries, ∃ text, entry = .comment text := by
  change ∃ entries, (smt.dialogue.remark text).log = smt.dialogue.log ++ entries ∧ _
  unfold Dialogue.remark
  split
  · refine ⟨[.comment "", .comment text], List.append_assoc .., ?_⟩
    simp
  · exact ⟨[], (List.append_nil _).symm, nofun⟩

theorem log_saveTranscript (name : String) (smt : Smt) :
    (Engine.saveTranscript name smt).dialogue.log = smt.dialogue.log := by
  change (smt.dialogue.saveTranscript name).2.log = _
  unfold Dialogue.saveTranscript
  split <;> rfl

end Smt

end SmtSession
