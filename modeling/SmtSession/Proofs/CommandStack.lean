import SmtSession.Proofs.SmtConversation
import SmtSession.Proofs.Stack

/-!
# The frames of a solver

What stands asserted in a solver is told by the commands it was sent: `push` opens a frame, `pop`
drops the latest one, and `assert` adds to it. A check of the SMT engine works in a frame of its own
on top of those it finds, and leaves them as they were.
-/

namespace SmtSession

open Solver

namespace Stack

def pop? {α : Type} (stack : Stack α) : Option (Stack α) :=
  match stack.frames with
  | [] => none
  | _ :: frames => some { stack with frames }

/-- The effect of a command on the frames, unless there is none to drop. -/
def obey? (stack : Stack SExpr) (command : SExpr) : Option (Stack SExpr) :=
  if command = pushCommand then some stack.push
  else if command = popCommand then stack.pop?
  else
    match command.application? with
    | some ("assert", [formula]) => some (stack.assert formula)
    | _ => some stack

def obeyAll? (stack : Stack SExpr) (commands : List SExpr) : Option (Stack SExpr) :=
  commands.foldlM obey? stack

variable {stack stack' outer : Stack SExpr} {command : SExpr} {commands later : List SExpr}

theorem obeyAll?_append (h : stack.obeyAll? commands = some stack') :
    stack.obeyAll? (commands ++ later) = stack'.obeyAll? later := by
  rw [obeyAll?, List.foldlM_append]
  change (stack.obeyAll? commands >>= fun middle => middle.obeyAll? later) = _
  rw [h]
  rfl

theorem obeyAll?_cons (h : stack.obey? command = some stack') :
    stack.obeyAll? (command :: commands) = stack'.obeyAll? commands := by
  rw [obeyAll?, List.foldlM_cons, h]
  rfl

theorem obeyAll?_of_forall (h : ∀ command ∈ commands, stack.obey? command = some stack) :
    stack.obeyAll? commands = some stack := by
  induction commands with
  | nil => rfl
  | cons command commands ih =>
      rw [obeyAll?_cons (h command (List.mem_cons_self ..))]
      exact ih fun command hmem => h command (List.mem_cons_of_mem _ hmem)

theorem pop?_map {α β : Type} (f : α → β) (stack : Stack α) :
    (stack.map f).pop? = stack.pop?.map (Stack.map f) := by
  obtain ⟨base, frames⟩ := stack
  cases frames <;> rfl

theorem pop?_of_depth_ne_zero {α : Type} {stack : Stack α} (h : stack.depth ≠ 0) :
    ∃ stack', stack.pop? = some stack' ∧ stack'.depth = stack.depth - 1 := by
  obtain ⟨base, frames⟩ := stack
  cases frames with
  | nil => exact absurd rfl h
  | cons frame frames => exact ⟨⟨base, frames⟩, rfl, rfl⟩

theorem obey?_push (stack : Stack SExpr) : stack.obey? pushCommand = some stack.push := rfl

theorem obey?_pop (stack : Stack SExpr) : stack.obey? popCommand = stack.pop? := rfl

theorem obey?_assert (stack : Stack SExpr) (formula : SExpr) :
    stack.obey? (assertCommand formula) = some (stack.assert formula) := by
  have hpush : assertCommand formula ≠ pushCommand := by
    simp [assertCommand, pushCommand, SExpr.application]
  have hpop : assertCommand formula ≠ popCommand := by
    simp [assertCommand, popCommand, SExpr.application]
  rw [obey?, if_neg hpush, if_neg hpop]
  rfl

theorem obey?_comment (stack : Stack SExpr) (text : String) :
    stack.obey? (.comment text) = some stack := rfl

theorem obey?_of_head {head : String} {args : List SExpr} (hhead : head ∉ ["push", "pop", "assert"])
    (stack : Stack SExpr) : stack.obey? (.application head args) = some stack := by
  simp only [List.mem_cons, List.not_mem_nil, or_false, not_or] at hhead
  obtain ⟨hpush, hpop, hassert⟩ := hhead
  have hpush : SExpr.application head args ≠ pushCommand := by
    simp [pushCommand, SExpr.application, hpush]
  have hpop : SExpr.application head args ≠ popCommand := by
    simp [popCommand, SExpr.application, hpop]
  rw [obey?, if_neg hpush, if_neg hpop, SExpr.application?_application]
  split
  · rename_i formula happlication
    rw [Option.some.injEq, Prod.mk.injEq] at happlication
    exact absurd happlication.1 hassert
  · rfl

theorem obey?_of_awaitsReply (h : awaitsReply command) (stack : Stack SExpr) :
    stack.obey? command = some stack := by
  unfold awaitsReply at h
  split at h
  · rename_i head args happlication
    have hcommand : command = .application head args := by
      unfold SExpr.application? at happlication
      split at happlication
      · rw [Option.some.injEq, Prod.mk.injEq] at happlication
        rw [← happlication.1, ← happlication.2]
        rfl
      · contradiction
    rw [hcommand]
    refine obey?_of_head ?_ stack
    intro hmem
    simp only [List.mem_cons, List.not_mem_nil, or_false] at hmem
    rcases hmem with rfl | rfl | rfl <;> revert h <;> decide
  · contradiction

/-- A stack as a check finds it, or with the frame of a search on top. -/
def Above (stack outer : Stack SExpr) : Bool → Prop
  | false => stack = outer
  | true => ∃ frame, stack = { outer with frames := frame :: outer.frames }

end Stack

namespace Smt

variable {heard inner heard' inner' : Bool} {exchanges later : List Exchange}
  {outer stack : Stack SExpr}

theorem Course.obeyAll? (h : Course heard inner exchanges heard' inner')
    (habove : stack.Above outer inner) :
    ∃ stack', stack.obeyAll? (exchanges.map Exchange.command) = some stack' ∧
      stack'.Above outer inner' := by
  induction h generalizing stack with
  | done => exact ⟨stack, rfl, habove⟩
  | verdict _ ih =>
      have hsame : stack.obey? checkSatCommand = some stack := Stack.obey?_of_awaitsReply rfl stack
      rw [List.map_cons, Exchange.command, Stack.obeyAll?_cons hsame]
      exact ih habove
  | detail hreply _ ih =>
      have hsame := Stack.obey?_of_awaitsReply hreply stack
      rw [List.map_cons, Exchange.command, Stack.obeyAll?_cons hsame]
      exact ih habove
  | clause _ ih =>
      rw [List.map_cons, Exchange.command, Stack.obeyAll?_cons (Stack.obey?_assert stack _)]
      obtain ⟨frame, rfl⟩ := habove
      exact ih ⟨_, rfl⟩
  | «open» _ ih =>
      rw [List.map_cons, Exchange.command, Stack.obeyAll?_cons (Stack.obey?_push stack)]
      obtain rfl := habove
      exact ih ⟨_, rfl⟩
  | close _ ih =>
      obtain ⟨frame, rfl⟩ := habove
      have hpop : ({ outer with frames := frame :: outer.frames } : Stack SExpr).obey? popCommand =
          some outer := rfl
      rw [List.map_cons, Exchange.command, Stack.obeyAll?_cons hpop]
      exact ih rfl

theorem Course.of_append (h : Course heard inner (exchanges ++ later) heard' inner') :
    ∃ middle between, Course heard inner exchanges middle between := by
  induction exchanges generalizing heard inner with
  | nil => exact ⟨heard, inner, .done⟩
  | cons exchange exchanges ih =>
      cases h with
      | verdict h =>
          obtain ⟨middle, between, hcourse⟩ := ih h
          exact ⟨middle, between, .verdict hcourse⟩
      | detail hreply h =>
          obtain ⟨middle, between, hcourse⟩ := ih h
          exact ⟨middle, between, .detail hreply hcourse⟩
      | clause h =>
          obtain ⟨middle, between, hcourse⟩ := ih h
          exact ⟨middle, between, .clause hcourse⟩
      | «open» h =>
          obtain ⟨middle, between, hcourse⟩ := ih h
          exact ⟨middle, between, .open hcourse⟩
      | close h =>
          obtain ⟨middle, between, hcourse⟩ := ih h
          exact ⟨middle, between, .close hcourse⟩

/-- The frames of the solver, as far as the commands sent to it make sense. -/
def stack? (smt : Smt) : Option (Stack SExpr) := Stack.obeyAll? {} smt.dialogue.log

/-- A check leaves the frames as they were, however it ends, and at no time is any of them touched:
there is at most one more, on top of them. -/
theorem obeyAll?_check {smt : Smt} (hwritten : Written (check.run smt).1) (outer : Stack SExpr) :
    ∃ commands, (check.run smt).2.dialogue.log = smt.dialogue.log ++ commands ∧
      outer.obeyAll? commands = some outer ∧
      ∀ earlier rest, commands = earlier ++ rest → ∃ stack,
        outer.obeyAll? earlier = some stack ∧
          (stack = outer ∨ ∃ frame, stack = { outer with frames := frame :: outer.frames }) := by
  have hcheck : Conducts Smt.dialogue check fun exchanges result =>
      AsksFirst exchanges ∧ Proceeds true false false exchanges result := conducts_check
  obtain ⟨exchanges, hconversation, -, ⟨heard, hcourse⟩, -⟩ := hcheck smt hwritten
  have hfound : outer.Above outer false := rfl
  refine ⟨exchanges.map Exchange.command, hconversation.log_eq, ?_, ?_⟩
  · obtain ⟨stack, hobey, habove⟩ := hcourse.obeyAll? hfound
    rw [hobey, habove]
  · intro earlier rest hsplit
    obtain ⟨first, last, rfl, rfl, -⟩ := List.map_eq_append_iff.mp hsplit
    obtain ⟨middle, between, hfirst⟩ := hcourse.of_append
    obtain ⟨stack, hobey, habove⟩ := hfirst.obeyAll? hfound
    refine ⟨stack, hobey, ?_⟩
    cases between with
    | false => exact Or.inl habove
    | true => exact Or.inr habove

theorem stack?_eq {smt smt' : Smt} {commands : List SExpr}
    (hlog : smt'.dialogue.log = smt.dialogue.log ++ commands) (hstack : smt.stack? = some stack) :
    smt'.stack? = stack.obeyAll? commands := by
  rw [stack?, hlog, Stack.obeyAll?_append hstack]

theorem stack?_start {host : Dialogue.Host} {program : String} {settings : Settings}
    {archive : Option Archive} {smt : Smt}
    (h : Smt.start host program settings archive = (.ok (), smt)) : smt.stack? = some {} := by
  obtain ⟨behaviour, log, -, hcomments, told, reply, hconversation, hawait⟩ :=
    conversation_of_start h
  have hreply := log_awaitReply told
  rw [hawait] at hreply
  rw [stack?, hreply, hconversation.log_eq]
  apply Stack.obeyAll?_of_forall
  intro command hmem
  rcases List.mem_append.mp hmem with hmem | hmem
  · obtain ⟨text, rfl⟩ := hcomments command hmem
    exact Stack.obey?_comment _ text
  · rw [List.map_map] at hmem
    obtain ⟨option, -, rfl⟩ := List.mem_map.mp hmem
    exact Stack.obey?_of_head (by decide) _

theorem stack?_remark (text : String) {smt : Smt} (hstack : smt.stack? = some stack) :
    (Engine.remark text smt).stack? = some stack := by
  obtain ⟨entries, hlog, hcomments⟩ := log_remark text smt
  rw [stack?_eq hlog hstack]
  apply Stack.obeyAll?_of_forall
  intro entry hmem
  obtain ⟨text, rfl⟩ := hcomments entry hmem
  exact Stack.obey?_comment stack text

end Smt

end SmtSession
