import Mathlib.Data.List.Infix
import SmtSession.Proofs.Clients
import SmtSession.Proofs.CommandStack
import SmtSession.Proofs.SmtCalls
import SmtSession.Solver.Scripted

/-!
# Counterexamples, one after another

A check that is refuted rules out the values of each counterexample before it asks for the next. So
it asks no more often than the limit allows, every question finds exactly the clauses of the
counterexamples before it in a frame of its own, and a solver that respects those clauses never
gives the same values twice. Which constants the values are ruled out of is settled by the
declarations that succeeded before.
-/

namespace SmtSession

open Solver

/-! ### The frame of a search -/

namespace Stack

/-- A stack with one more frame. -/
def withFrame {α : Type} (frame : List α) (outer : Stack α) : Stack α :=
  { outer with frames := frame :: outer.frames }

end Stack

/-! ### Clauses that rule out values -/

namespace Model

/-- Whether the symbol on the left of an equation has the value on its right. -/
def satisfies (model : Model) : SExpr → Bool
  | .list [.atom (.symbol "="), .atom (.symbol name), value] => model.value? name = some value
  | _ => false

/-- Whether a model satisfies all the equations that a clause denies together. -/
def repeats (model : Model) : SExpr → Bool
  | .list [.atom (.symbol "not"), .list (.atom (.symbol "and") :: equations)] =>
    equations.all model.satisfies
  | .list [.atom (.symbol "not"), equation] => model.satisfies equation
  | _ => false

/-- Two models that give one of the constants different values. -/
def Differ (constants : List String) (model model' : Model) : Prop :=
  ∃ name ∈ constants, model.value? name ≠ model'.value? name

end Model

/-! ### What passes in a check -/

namespace Solver

def getModelCommand : SExpr := .application "get-model" []

/-- The model that a reply gives, where it is one. -/
def Exchange.model? : Exchange → Option Model
  | .asked command (.ok reply) =>
    if command = getModelCommand then
      (Client.answer command reply >>= Model.ofReply).toOption
    else none
  | _ => none

theorem Exchange.model?_asked {command : SExpr} (h : command ≠ getModelCommand)
    (reply : Except Failure String) : (Exchange.asked command reply).model? = none := by
  cases reply with
  | ok reply => rw [model?, if_neg h]
  | error failure => rfl

def modelsIn (exchanges : List Exchange) : List Model := exchanges.filterMap Exchange.model?

/-- A question about the latest verdict. -/
def Exchange.IsDetail : Exchange → Prop
  | .told _ => False
  | .asked command _ => awaitsReply command ∧ command ≠ checkSatCommand

/-- Questions about the latest verdict, with the models among the replies. -/
structure Details (exchanges : List Exchange) (models : List Model) : Prop where
  isDetail : ∀ exchange ∈ exchanges, exchange.IsDetail
  modelsIn_eq : modelsIn exchanges = models

def Exchange.clause? : Exchange → Option SExpr
  | .told (.list [.atom (.symbol "assert"), clause]) => some clause
  | _ => none

/-- What passes when the commands are sent, and the reply is awaited where there is one. -/
def retrace : List SExpr → Dialogue → List Exchange
  | [], _ => []
  | command :: commands, dialogue =>
    if awaitsReply command then
      let (reply, dialogue) := (Dialogue.consult command).run dialogue
      .asked command reply :: retrace commands dialogue
    else .told command :: retrace commands ((Dialogue.send command).run dialogue).2

variable {exchanges later earlier : List Exchange} {models models' : List Model}

theorem told_ne_asked (command command' : SExpr) (reply : Except Failure String) :
    Exchange.told command ≠ .asked command' reply := nofun

theorem modelsIn_append (exchanges later : List Exchange) :
    modelsIn (exchanges ++ later) = modelsIn exchanges ++ modelsIn later :=
  List.filterMap_append ..

theorem modelsIn_told (command : SExpr) (exchanges : List Exchange) :
    modelsIn (.told command :: exchanges) = modelsIn exchanges := rfl

theorem modelsIn_checkSat (reply : Except Failure String) (exchanges : List Exchange) :
    modelsIn (.asked checkSatCommand reply :: exchanges) = modelsIn exchanges :=
  List.filterMap_cons_none (Exchange.model?_asked (by decide) reply)

theorem Details.append (h : Details exchanges models) (h' : Details later models') :
    Details (exchanges ++ later) (models ++ models') where
  isDetail := List.forall_mem_append.mpr ⟨h.isDetail, h'.isDetail⟩
  modelsIn_eq := by rw [modelsIn_append, h.modelsIn_eq, h'.modelsIn_eq]

theorem details_of_judged {reply : Except Failure String} {result : Except Failure Satisfiability}
    (h : Judged reply exchanges result) : Details exchanges [] := by
  cases h with
  | unknown =>
      refine ⟨List.forall_mem_singleton.mpr ⟨rfl, by decide⟩, ?_⟩
      exact List.filterMap_cons_none (Exchange.model?_asked (by decide) _)
  | _ => exact ⟨nofun, rfl⟩

theorem Details.fits (h : Details exchanges models) : ∀ exchange ∈ exchanges, exchange.Fits := by
  intro exchange hmem
  have hdetail := h.isDetail exchange hmem
  cases exchange with
  | told command => exact hdetail.elim
  | asked command reply => exact hdetail.1

theorem Details.checks_eq (h : Details exchanges models) :
    (exchanges.map Exchange.command).count checkSatCommand = 0 := by
  apply List.count_eq_zero_of_not_mem
  intro hmem
  obtain ⟨exchange, hexchange, hcommand⟩ := List.mem_map.mp hmem
  cases exchange with
  | told command => exact h.isDetail _ hexchange
  | asked command reply => exact (h.isDetail _ hexchange).2 hcommand

/-- Among details there is no question for a verdict. -/
theorem Details.split {reply : Except Failure String} {rest : List Exchange}
    (h : Details exchanges models)
    (hsplit : exchanges ++ rest = earlier ++ .asked checkSatCommand reply :: later) :
    ∃ middle, earlier = exchanges ++ middle ∧
      rest = middle ++ .asked checkSatCommand reply :: later := by
  rcases List.append_eq_append_iff.mp hsplit with
    ⟨middle, hearlier, hrest⟩ | ⟨middle, hdetails, hrest⟩
  · exact ⟨middle, hearlier, hrest⟩
  · cases middle with
    | nil => exact ⟨[], by rw [hdetails, List.append_nil, List.append_nil], hrest.symm⟩
    | cons exchange middle =>
        obtain ⟨rfl, -⟩ := List.cons.inj hrest
        have hmem : .asked checkSatCommand reply ∈ exchanges := by
          rw [hdetails]
          exact List.mem_append_right _ (List.mem_cons_self ..)
        exact absurd rfl (h.isDetail _ hmem).2

/-- Whether no model that is answered satisfies all the equations of a clause that stands asserted
by then. -/
def freshAfter : List SExpr → List Exchange → Bool
  | _, [] => true
  | clauses, exchange :: exchanges =>
    exchange.model?.all (fun model => clauses.all fun clause => !model.repeats clause) &&
      freshAfter (clauses ++ exchange.clause?.toList) exchanges

theorem freshAfter_of_append {clauses : List SExpr} (h : freshAfter clauses (exchanges ++ later)) :
    freshAfter clauses exchanges := by
  induction exchanges generalizing clauses with
  | nil => rfl
  | cons exchange exchanges ih =>
      rw [List.cons_append, freshAfter, Bool.and_eq_true] at h
      rw [freshAfter, Bool.and_eq_true]
      exact ⟨h.1, ih h.2⟩

theorem freshAfter_told {clauses : List SExpr} {clause : SExpr} :
    freshAfter clauses (.told (assertCommand clause) :: exchanges) =
      freshAfter (clauses ++ [clause]) exchanges := rfl

theorem freshAfter_checkSat {clauses : List SExpr} {reply : Except Failure String} :
    freshAfter clauses (.asked checkSatCommand reply :: exchanges) =
      freshAfter clauses exchanges := by
  rw [freshAfter, Exchange.model?_asked (by decide)]
  exact congrArg (freshAfter · exchanges) (List.append_nil clauses)

theorem Details.freshAfter {clauses : List SExpr} (h : Details exchanges models)
    (hfresh : freshAfter clauses (exchanges ++ later)) :
    (∀ model ∈ models, ∀ clause ∈ clauses, ¬model.repeats clause) ∧ freshAfter clauses later := by
  obtain ⟨hdetail, rfl⟩ := h
  induction exchanges with
  | nil => exact ⟨nofun, hfresh⟩
  | cons exchange exchanges ih =>
      obtain ⟨hhead, hdetail⟩ := List.forall_mem_cons.mp hdetail
      have hclause : exchange.clause? = none := by
        cases exchange with
        | told command => exact hhead.elim
        | asked command reply => rfl
      rw [List.cons_append, Solver.freshAfter, hclause, Option.toList_none, List.append_nil,
        Bool.and_eq_true] at hfresh
      obtain ⟨hmodels, hlater⟩ := ih hfresh.2 hdetail
      refine ⟨?_, hlater⟩
      intro model hmem clause hstands
      rw [modelsIn, List.mem_filterMap] at hmem
      obtain ⟨other, hother, hmodel⟩ := hmem
      rcases List.mem_cons.mp hother with rfl | hother
      · have hall := hfresh.1
        rw [hmodel, Option.all_some, List.all_eq_true] at hall
        simpa using hall clause hstands
      · exact hmodels model (List.mem_filterMap.mpr ⟨other, hother, hmodel⟩) clause hstands

theorem Conversation.retrace_eq {first second : Dialogue} {exchanges : List Exchange}
    (h : Conversation first exchanges second) (hfits : ∀ exchange ∈ exchanges, exchange.Fits) :
    retrace (exchanges.map Exchange.command) first = exchanges := by
  induction h with
  | nil => rfl
  | @told first second third command exchanges hsend _ ih =>
      obtain ⟨⟨hsilent, -⟩, hfits⟩ := List.forall_mem_cons.mp hfits
      rw [List.map_cons, Exchange.command, retrace, if_neg hsilent, hsend, ih hfits]
  | @asked first second third command reply exchanges hconsult _ _ ih =>
      obtain ⟨hreply, hfits⟩ := List.forall_mem_cons.mp hfits
      have hreply : awaitsReply command := hreply
      rw [List.map_cons, Exchange.command, retrace, if_pos hreply, hconsult]
      simp only [ih hfits]

end Solver

/-! ### Why a clause tells models apart -/

namespace Smt

variable {constants : List String} {model model' : Model} {clause : SExpr}

theorem equation?_eq_some {name : String} {equation : SExpr}
    (h : equation? model name = some equation) :
    ∃ value, model.value? name = some value ∧
      equation = .application "=" [.symbol name, value] := by
  unfold equation? at h
  split at h
  · next value hvalue =>
    split at h
    · exact ⟨value, hvalue, (Option.some.inj h).symm⟩
    · contradiction
  · contradiction

/-- A model repeats a clause if it satisfies the equations that the clause was made from. -/
theorem repeats_of_exclusion (h : exclusion? constants model = some clause)
    (hall : ∀ equation ∈ constants.filterMap (equation? model), model'.satisfies equation) :
    model'.repeats clause := by
  rw [exclusion?] at h
  cases hequations : constants.filterMap (equation? model) with
  | nil =>
      rw [hequations] at h
      contradiction
  | cons equation equations =>
      rw [hequations] at h hall
      obtain rfl := Option.some.inj h
      cases equations with
      | nil =>
          -- A single equation stands for itself, and is no conjunction.
          have hequation : equation ∈ constants.filterMap (equation? model) :=
            hequations ▸ List.mem_singleton_self equation
          obtain ⟨name, -, hname⟩ := List.mem_filterMap.mp hequation
          obtain ⟨value, -, rfl⟩ := equation?_eq_some hname
          exact hall _ (List.mem_singleton_self _)
      | cons equation' equations => exact List.all_eq_true.mpr hall

theorem differ_of_not_repeats (h : exclusion? constants model = some clause)
    (hrepeats : ¬model'.repeats clause) : model.Differ constants model' := by
  by_contra hsame
  apply hrepeats
  apply repeats_of_exclusion h
  intro equation hequation
  obtain ⟨name, hname, heq⟩ := List.mem_filterMap.mp hequation
  obtain ⟨value, hvalue, rfl⟩ := equation?_eq_some heq
  have hvalue' : model'.value? name = some value := by
    by_contra hne
    exact hsame ⟨name, hname, fun h => hne (h ▸ hvalue)⟩
  exact decide_eq_true hvalue'

/-! ### A search that succeeds -/

/-- How a search for at most `count` further counterexamples goes after the latest one: what
passes, and what is found. In every round one clause is added and one verdict asked for, and then
what belongs to that verdict. -/
inductive Searches (constants : List String) :
    Nat → Model → List Exchange → List Counterexample → Prop
  | spent {latest} : Searches constants 0 latest [] []
  | exhausted {count latest} : exclusion? constants latest = none →
      Searches constants (count + 1) latest [] []
  | ended {count latest clause reply details} : exclusion? constants latest = some clause →
      Details details [] →
      Searches constants (count + 1) latest
        (.told (assertCommand clause) :: .asked checkSatCommand reply :: details) []
  | found {count latest clause reply details next rest others} :
      exclusion? constants latest = some clause → Details details [next.model] →
      Searches constants count next.model rest others →
      Searches constants (count + 1) latest
        (.told (assertCommand clause) :: .asked checkSatCommand reply :: (details ++ rest))
        (next :: others)

variable {α β : Type} {smt smt' : Smt}

/-- A step that leaves the limit and the constants of the engine alone. -/
def Steady (action : Action Smt Failure α) : Prop :=
  ∀ smt, (action.run smt).2.limit = smt.limit ∧ (action.run smt).2.constants = smt.constants

theorem steady_talk (action : Action Dialogue Failure α) : Steady (talk action) :=
  fun _ => ⟨rfl, rfl⟩

theorem steady_ofExcept (result : Except Failure α) : Steady (.ofExcept result) :=
  fun _ => ⟨rfl, rfl⟩

theorem steady_get : Steady .get := fun _ => ⟨rfl, rfl⟩

theorem Steady.attempt {action : Action Smt Failure α} (h : Steady action) :
    Steady action.attempt := fun smt => h smt

theorem Steady.bind {action : Action Smt Failure α} {next : α → Action Smt Failure β}
    (h : Steady action) (hnext : ∀ a, Steady (next a)) : Steady (action >>= next) := by
  intro smt
  obtain ⟨hlimit, hconstants⟩ := h smt
  rcases hrun : action.run smt with ⟨failure | a, middle⟩
  · rw [Action.run_bind_error hrun]
    rw [hrun] at hlimit hconstants
    exact ⟨hlimit, hconstants⟩
  · rw [Action.run_bind_ok hrun]
    rw [hrun] at hlimit hconstants
    obtain ⟨hlimit', hconstants'⟩ := hnext a middle
    exact ⟨hlimit'.trans hlimit, hconstants'.trans hconstants⟩

theorem Steady.constants_eq {action : Action Smt Failure α} {result : Except Failure α}
    (h : Steady action) (hrun : action.run smt = (result, smt')) :
    smt'.constants = smt.constants := by
  have hconstants := (h smt).2
  rwa [hrun] at hconstants

theorem Steady.limit_eq {action : Action Smt Failure α} {result : Except Failure α}
    (h : Steady action) (hrun : action.run smt = (result, smt')) : smt'.limit = smt.limit := by
  have hlimit := (h smt).1
  rwa [hrun] at hlimit

theorem steady_counterexample : Steady counterexample :=
  (steady_talk _).bind fun _ => (steady_talk _).bind fun _ => (steady_ofExcept _).bind fun _ =>
    steady_ofExcept (.ok _)

theorem steady_search (count : Nat) (latest : Counterexample) : Steady (search count latest) := by
  induction count generalizing latest with
  | zero => exact steady_ofExcept (.ok [])
  | succ count ih =>
      refine steady_get.bind fun smt => ?_
      split
      · exact steady_ofExcept (.ok [])
      · refine (steady_talk _).bind fun _ => (steady_talk _).bind fun answer => ?_
        cases answer with
        | sat =>
            refine steady_counterexample.bind fun next => (ih next).bind fun others => ?_
            exact steady_ofExcept (.ok _)
        | unsat => exact steady_ofExcept (.ok [])
        | unknown reason => exact steady_ofExcept (.ok [])

theorem steady_moreCounterexamples (first : Counterexample) :
    Steady (moreCounterexamples first) := by
  refine steady_get.bind fun smt => ?_
  split
  · exact steady_ofExcept (.ok [])
  · refine (steady_talk _).bind fun _ => (steady_search _ first).attempt.bind fun found => ?_
    exact (steady_talk _).bind fun _ => steady_ofExcept found

theorem steady_check : Steady check := by
  refine (steady_talk _).bind fun answer => ?_
  cases answer with
  | unsat => exact steady_ofExcept (.ok _)
  | unknown reason => exact steady_ofExcept (.ok _)
  | sat =>
      refine steady_counterexample.bind fun first => ?_
      exact (steady_moreCounterexamples first).bind fun others => steady_ofExcept (.ok _)

theorem run_of_talk {action : Action Dialogue Failure α} {a : α}
    (h : (talk action).run smt = (.ok a, smt')) :
    action.run smt.dialogue = (.ok a, smt'.dialogue) := by
  rw [talk, Action.run_onPart] at h
  rcases hrun : action.run smt.dialogue with ⟨failure | b, dialogue⟩
  · rw [hrun] at h
    cases h
  · rw [hrun] at h
    cases h
    rfl

/-- Where a step succeeds, so does each of the two it consists of. -/
theorem run_of_bind {σ : Type} {action : Action σ Failure α} {next : α → Action σ Failure β}
    {state state' : σ} {b : β} (h : (action >>= next).run state = (.ok b, state')) :
    ∃ a middle, action.run state = (.ok a, middle) ∧ (next a).run middle = (.ok b, state') := by
  rcases Action.run_bind_cases h with hboth | ⟨failure, -, hfailure⟩
  · exact hboth
  · contradiction

theorem eq_of_run_pure {σ : Type} {a a' : α} {state state' : σ}
    (h : (pure a : Action σ Failure α).run state = (.ok a', state')) :
    a = a' ∧ state = state' := by
  obtain ⟨ha, hstate⟩ := Prod.mk.inj h
  exact ⟨Except.ok.inj ha, hstate⟩

theorem conversation_of_ask {command expr : SExpr} {first second : Dialogue}
    (h : (Dialogue.ask command).run first = (.ok expr, second)) :
    ∃ reply, Client.answer command reply = .ok expr ∧
      Conversation first [.asked command (.ok reply)] second := by
  rw [Dialogue.ask_eq] at h
  obtain ⟨reply, middle, hconsult, hanswer⟩ := run_of_bind h
  rw [← Client.run_answer] at hanswer
  obtain ⟨hexpr, rfl⟩ := Prod.mk.inj hanswer
  exact ⟨reply, hexpr, .asked hconsult nofun .nil⟩

theorem conversation_of_checkSat {answer : Satisfiability}
    (h : (talk Dialogue.checkSat).run smt = (.ok answer, smt')) :
    ∃ reply details, Details details [] ∧
      Conversation smt.dialogue (.asked checkSatCommand reply :: details) smt'.dialogue := by
  have hrun := run_of_talk h
  obtain ⟨exchanges, hconversation, reply, details, rfl, hjudged⟩ :=
    conducts_checkSat smt.dialogue (by rw [hrun]; exact nofun)
  rw [hrun] at hconversation
  exact ⟨reply, details, details_of_judged hjudged, hconversation⟩

theorem conversation_of_counterexample {found : Counterexample}
    (h : counterexample.run smt = (.ok found, smt')) :
    ∃ details, Details details [found.model] ∧
      Conversation smt.dialogue details smt'.dialogue := by
  obtain ⟨labels, told, hlabels, hrest⟩ := run_of_bind h
  obtain ⟨expr, asked, hask, hlast⟩ := run_of_bind hrest
  obtain ⟨model, last, hmodel, hend⟩ := run_of_bind hlast
  obtain ⟨hread, rfl⟩ := Prod.mk.inj hmodel
  obtain ⟨rfl, rfl⟩ := eq_of_run_pure hend
  have hlabels := run_of_talk hlabels
  obtain ⟨exchanges, hconversation, reply, rfl⟩ :=
    conducts_labels smt.dialogue (by rw [hlabels]; exact nofun)
  rw [hlabels] at hconversation
  obtain ⟨answer, hanswer, hmore⟩ := conversation_of_ask (run_of_talk hask)
  have hmodel? : (Exchange.asked getModelCommand (.ok answer)).model? = some model := by
    rw [Exchange.model?, if_pos rfl, getModelCommand, hanswer]
    change (Model.ofReply expr).toOption = _
    rw [hread]
    rfl
  refine ⟨_, ⟨?_, ?_⟩, hconversation.append hmore⟩
  · exact List.forall_mem_cons.mpr
      ⟨⟨rfl, by decide⟩, List.forall_mem_singleton.mpr ⟨rfl, by decide⟩⟩
  · have hnone : (Exchange.asked Client.labelsCommand reply).model? = none :=
      Exchange.model?_asked (by decide) reply
    exact (List.filterMap_cons_none hnone).trans (List.filterMap_cons_some hmodel?)

theorem searches_of_search {count : Nat} {latest : Counterexample} {found : List Counterexample}
    (h : (search count latest).run smt = (.ok found, smt')) :
    ∃ exchanges, Searches smt.constants count latest.model exchanges found ∧
      Conversation smt.dialogue exchanges smt'.dialogue := by
  induction count generalizing latest found smt with
  | zero =>
      obtain ⟨rfl, rfl⟩ := eq_of_run_pure h
      exact ⟨[], .spent, .nil⟩
  | succ count ih =>
      rw [search, Action.run_bind_ok (Action.run_get smt)] at h
      cases hclause : exclusion? smt.constants latest.model with
      | none =>
          rw [hclause] at h
          obtain ⟨rfl, rfl⟩ := eq_of_run_pure h
          exact ⟨[], .exhausted hclause, .nil⟩
      | some clause =>
          rw [hclause] at h
          obtain ⟨_, told, hsend, hasking⟩ := run_of_bind h
          obtain ⟨answer, asked, hasked, hanswered⟩ := run_of_bind hasking
          obtain ⟨reply, reasons, hreasons, hverdict⟩ := conversation_of_checkSat hasked
          have hround : Conversation smt.dialogue
              (.told (assertCommand clause) :: .asked checkSatCommand reply :: reasons)
              asked.dialogue :=
            .told (run_of_talk hsend) hverdict
          cases answer with
          | sat =>
              obtain ⟨next, described, hnext, hmore⟩ := run_of_bind hanswered
              obtain ⟨others, last, hothers, hend⟩ := run_of_bind hmore
              obtain ⟨rfl, rfl⟩ := eq_of_run_pure hend
              obtain ⟨details, hdetails, hdescribed⟩ := conversation_of_counterexample hnext
              obtain ⟨rest, hsearches, hrest⟩ := ih hothers
              rw [steady_counterexample.constants_eq hnext, (steady_talk _).constants_eq hasked,
                (steady_talk _).constants_eq hsend] at hsearches
              have hwhole := hround.append (hdescribed.append hrest)
              rw [List.cons_append, List.cons_append, ← List.append_assoc] at hwhole
              exact ⟨_, .found hclause (hreasons.append hdetails) hsearches, hwhole⟩
          | unsat =>
              obtain ⟨rfl, rfl⟩ := eq_of_run_pure hanswered
              exact ⟨_, .ended hclause hreasons, hround⟩
          | unknown reason =>
              obtain ⟨rfl, rfl⟩ := eq_of_run_pure hanswered
              exact ⟨_, .ended hclause hreasons, hround⟩

/-! ### What a search finds -/

variable {count : Nat} {exchanges earlier later : List Exchange} {found : List Counterexample}
  {outer : Stack SExpr} {clauses : List SExpr} {reply : Except Failure String}

theorem Searches.length_le (h : Searches constants count model exchanges found) :
    found.length ≤ count := by
  induction h with
  | spent => exact Nat.le_refl 0
  | exhausted => exact Nat.zero_le _
  | ended => exact Nat.zero_le _
  | found _ _ _ ih => exact Nat.succ_le_succ ih

theorem Searches.modelsIn_eq (h : Searches constants count model exchanges found) :
    modelsIn exchanges = found.map Counterexample.model := by
  induction h with
  | spent => rfl
  | exhausted => rfl
  | ended _ hdetails => rw [modelsIn_told, modelsIn_checkSat, hdetails.modelsIn_eq, List.map_nil]
  | found _ hdetails _ ih =>
      rw [modelsIn_told, modelsIn_checkSat, modelsIn_append, hdetails.modelsIn_eq, ih,
        List.map_cons, List.singleton_append]

theorem Searches.fits (h : Searches constants count model exchanges found) :
    ∀ exchange ∈ exchanges, exchange.Fits := by
  have hclause (clause : SExpr) : (Exchange.told (assertCommand clause)).Fits :=
    ⟨Bool.false_ne_true, Bool.false_ne_true⟩
  have hverdict (reply : Except Failure String) : (Exchange.asked checkSatCommand reply).Fits := rfl
  induction h with
  | spent => exact nofun
  | exhausted => exact nofun
  | ended _ hdetails =>
      exact List.forall_mem_cons.mpr
        ⟨hclause _, List.forall_mem_cons.mpr ⟨hverdict _, hdetails.fits⟩⟩
  | found _ hdetails _ ih =>
      exact List.forall_mem_cons.mpr ⟨hclause _, List.forall_mem_cons.mpr
        ⟨hverdict _, List.forall_mem_append.mpr ⟨hdetails.fits, ih⟩⟩⟩

theorem checks_cons_clause (clause : SExpr) (commands : List SExpr) :
    (assertCommand clause :: checkSatCommand :: commands).count checkSatCommand =
      commands.count checkSatCommand + 1 := by
  have hne : assertCommand clause ≠ checkSatCommand := by
    simp [assertCommand, checkSatCommand, SExpr.application]
  rw [List.count_cons_of_ne hne, List.count_cons_self]

/-- A verdict is asked for once in a round. -/
theorem Searches.checks_le (h : Searches constants count model exchanges found) :
    (exchanges.map Exchange.command).count checkSatCommand ≤ count := by
  induction h with
  | spent => exact Nat.le_refl 0
  | exhausted => exact Nat.zero_le _
  | @ended count latest clause reply details _ hdetails =>
      calc ((Exchange.told (assertCommand clause) :: .asked checkSatCommand reply :: details).map
            Exchange.command).count checkSatCommand
          = (details.map Exchange.command).count checkSatCommand + 1 := checks_cons_clause ..
        _ ≤ count + 1 := by rw [hdetails.checks_eq]; omega
  | @found count latest clause reply details next rest others _ hdetails _ ih =>
      calc ((Exchange.told (assertCommand clause) :: .asked checkSatCommand reply ::
            (details ++ rest)).map Exchange.command).count checkSatCommand
          = ((details ++ rest).map Exchange.command).count checkSatCommand + 1 :=
            checks_cons_clause ..
        _ = (rest.map Exchange.command).count checkSatCommand + 1 := by
          rw [List.map_append, List.count_append, hdetails.checks_eq, Nat.zero_add]
        _ ≤ count + 1 := by omega

/-- A model that is answered while the values of others are ruled out differs from them. -/
theorem differ_of_fresh {known : List Model}
    (hknown : ∀ model ∈ known, ∃ clause ∈ clauses, exclusion? constants model = some clause)
    (hfresh : ∀ clause ∈ clauses, ¬model'.repeats clause) :
    ∀ model ∈ known, model.Differ constants model' := by
  intro model hmem
  obtain ⟨clause, hclause, hexclusion⟩ := hknown model hmem
  exact differ_of_not_repeats hexclusion (hfresh clause hclause)

/-- All that is found differs from what is ruled out already, from the latest counterexample, and
from one another. -/
theorem Searches.apart (h : Searches constants count model exchanges found) {known : List Model}
    (hknown : ∀ model ∈ known, ∃ clause ∈ clauses, exclusion? constants model = some clause)
    (hfresh : freshAfter clauses exchanges) :
    (∀ earlier ∈ known ++ [model], ∀ later ∈ found.map Counterexample.model,
        earlier.Differ constants later) ∧
      (found.map Counterexample.model).Pairwise (Model.Differ constants) := by
  induction h generalizing clauses known with
  | spent => exact ⟨nofun, .nil⟩
  | exhausted => exact ⟨nofun, .nil⟩
  | ended => exact ⟨nofun, .nil⟩
  | @found count latest clause reply details next rest others hclause hdetails _ ih =>
      have hknown' : ∀ model ∈ known ++ [latest],
          ∃ clause' ∈ clauses ++ [clause], exclusion? constants model = some clause' := by
        intro model hmem
        rcases List.mem_append.mp hmem with hmem | hmem
        · obtain ⟨clause', hstands, hexclusion⟩ := hknown model hmem
          exact ⟨clause', List.mem_append_left _ hstands, hexclusion⟩
        · obtain rfl := List.mem_singleton.mp hmem
          exact ⟨clause, List.mem_append_right _ (List.mem_singleton_self _), hclause⟩
      rw [freshAfter_told, freshAfter_checkSat] at hfresh
      obtain ⟨hnext, hrest⟩ := hdetails.freshAfter hfresh
      obtain ⟨hothers, hpairs⟩ := ih hknown' hrest
      have hnow := differ_of_fresh hknown' (hnext next.model (List.mem_singleton_self _))
      rw [List.map_cons]
      refine ⟨?_, List.pairwise_cons.mpr ⟨?_, hpairs⟩⟩
      · intro earlier hearlier
        exact List.forall_mem_cons.mpr
          ⟨hnow earlier hearlier, hothers earlier (List.mem_append_left _ hearlier)⟩
      · exact hothers next.model (List.mem_append_right _ (List.mem_singleton_self _))

/-- The questions for a verdict up to and after a round. -/
theorem round_split {clause : SExpr} {reply' : Except Failure String} {details rest : List Exchange}
    {models : List Model} (hdetails : Details details models)
    (hsplit : .told (assertCommand clause) :: .asked checkSatCommand reply :: (details ++ rest) =
      earlier ++ .asked checkSatCommand reply' :: later) :
    earlier = [.told (assertCommand clause)] ∨
      ∃ middle, rest = middle ++ .asked checkSatCommand reply' :: later ∧
        earlier =
          .told (assertCommand clause) :: .asked checkSatCommand reply :: (details ++ middle) := by
  rcases List.cons_eq_append_iff.mp hsplit with ⟨-, hhead⟩ | ⟨asking, rfl, hasking⟩
  · exact absurd (List.cons.inj hhead).1.symm (told_ne_asked _ _ _)
  rcases List.cons_eq_append_iff.mp hasking with ⟨rfl, -⟩ | ⟨asked, rfl, hasked⟩
  · exact Or.inl rfl
  · obtain ⟨middle, rfl, hrest⟩ := hdetails.split hasked
    exact Or.inr ⟨middle, hrest, rfl⟩

theorem obeyAll?_clause (clause : SExpr) (commands : List SExpr) :
    (outer.withFrame clauses).obeyAll? (assertCommand clause :: commands) =
      (outer.withFrame (clauses ++ [clause])).obeyAll? commands :=
  Stack.obeyAll?_cons (Stack.obey?_assert _ clause)

theorem obeyAll?_round {stack : Stack SExpr} {details middle : List Exchange} {models : List Model}
    (hdetails : Details details models) :
    stack.obeyAll? ((.asked checkSatCommand reply :: (details ++ middle)).map Exchange.command) =
      stack.obeyAll? (middle.map Exchange.command) := by
  have hsame : stack.obeyAll? ((.asked checkSatCommand reply :: details).map Exchange.command) =
      some stack := by
    apply Stack.obeyAll?_of_forall
    intro command hmem
    rcases List.mem_cons.mp hmem with rfl | hmem
    · exact Stack.obey?_of_awaitsReply rfl stack
    · obtain ⟨exchange, hexchange, rfl⟩ := List.mem_map.mp hmem
      have hdetail := hdetails.isDetail exchange hexchange
      cases exchange with
      | told command => exact hdetail.elim
      | asked command reply => exact Stack.obey?_of_awaitsReply hdetail.1 stack
  rw [← List.cons_append, List.map_append, Stack.obeyAll?_append hsame]

/-- A verdict is asked for where the frame of the search has a clause for every model so far. -/
theorem Searches.cumulative (h : Searches constants count model exchanges found)
    (hsplit : exchanges = earlier ++ .asked checkSatCommand reply :: later) :
    ∃ added, (outer.withFrame clauses).obeyAll? (earlier.map Exchange.command) =
        some (outer.withFrame (clauses ++ added)) ∧
      added.map some = (model :: modelsIn earlier).map (exclusion? constants) := by
  induction h generalizing clauses earlier with
  | spent => simp at hsplit
  | exhausted => simp at hsplit
  | @ended count latest clause _ details hclause hdetails =>
      rw [← List.append_nil details] at hsplit
      rcases round_split hdetails hsplit with rfl | ⟨middle, hnil, -⟩
      · exact ⟨[clause], obeyAll?_clause clause [], congrArg (fun first => [first]) hclause.symm⟩
      · simp at hnil
  | @found count latest clause _ details next rest others hclause hdetails _ ih =>
      rcases round_split hdetails hsplit with rfl | ⟨middle, hrest, rfl⟩
      · exact ⟨[clause], obeyAll?_clause clause [], congrArg (fun first => [first]) hclause.symm⟩
      · obtain ⟨added, hobey, hadded⟩ := @ih middle (clauses ++ [clause]) hrest
        refine ⟨clause :: added, ?_, ?_⟩
        · rw [List.map_cons, Exchange.command, obeyAll?_clause, obeyAll?_round hdetails, hobey,
            List.append_assoc, List.singleton_append]
        · rw [modelsIn_told, modelsIn_checkSat, modelsIn_append, hdetails.modelsIn_eq,
            List.map_cons, List.map_cons, List.singleton_append, hadded, hclause]

/-! ### A whole check -/

/-- The constants whose declaration succeeded and whose values can be written down. -/
def literalConstants (calls : List Call) (results : List (Except Failure (Option Report))) :
    List String :=
  (calls.zip results).filterMap fun
    | (.declareConst name ty, .ok _) => if ty.hasLiterals then some name else none
    | _ => none

/-- What a call does to the limit and to the constants. -/
def Call.Settles (call : Call) (smt : Smt) : Prop :=
  (call.perform.run smt).2.limit = smt.limit ∧
    (call.perform.run smt).2.constants =
      smt.constants ++ literalConstants [call] [(call.perform.run smt).1]

theorem literalConstants_declared (name : String) (ty : Ty) (report : Option Report) :
    literalConstants [.declareConst name ty] [.ok report] =
      if ty.hasLiterals then [name] else [] := by
  by_cases h : ty.hasLiterals <;> simp [literalConstants, h]

theorem settles_declareConst (name : String) (ty : Ty) (smt : Smt) :
    (Call.declareConst name ty).Settles smt := by
  have hperform : (Call.declareConst name ty).perform =
      Smt.send (.application "declare-fun" [.symbol name, .list [], ty.toSort]) >>= fun _ =>
        (if ty.hasLiterals then
          .modify fun smt => { smt with constants := smt.constants ++ [name] }
        else pure ()) >>= fun _ => pure none :=
    bind_assoc _ _ _
  rw [Call.Settles, hperform]
  rcases hrun : (Smt.send (.application "declare-fun" [.symbol name, .list [], ty.toSort])).run smt
    with ⟨failure | _, declared⟩
  · rw [Action.run_bind_error hrun]
    exact ⟨(steady_talk _).limit_eq hrun,
      ((steady_talk _).constants_eq hrun).trans (List.append_nil _).symm⟩
  · have hlimit := (steady_talk _).limit_eq hrun
    have hconstants := (steady_talk _).constants_eq hrun
    rw [Action.run_bind_ok hrun]
    by_cases hliterals : ty.hasLiterals
    · rw [if_pos hliterals]
      refine ⟨hlimit, ?_⟩
      change declared.constants ++ [name] =
        smt.constants ++ literalConstants [.declareConst name ty] [.ok none]
      rw [literalConstants_declared, if_pos hliterals, hconstants]
    · rw [if_neg hliterals]
      refine ⟨hlimit, ?_⟩
      change declared.constants =
        smt.constants ++ literalConstants [.declareConst name ty] [.ok none]
      rw [literalConstants_declared, if_neg hliterals, hconstants, List.append_nil]

/-- Only a successful declaration adds to the constants, and nothing changes the limit. -/
theorem settles_perform (call : Call) (smt : Smt) : call.Settles smt := by
  have hsteady (h : Steady call.perform)
      (hnone : literalConstants [call] [(call.perform.run smt).1] = []) : call.Settles smt := by
    rw [Call.Settles, hnone, List.append_nil]
    exact h smt
  have hsend (command : SExpr) :
      Steady (Smt.send command >>= fun _ => pure (none : Option Report)) :=
    (steady_talk _).bind fun _ => steady_ofExcept (.ok none)
  cases call with
  | declareConst name ty => exact settles_declareConst name ty smt
  | check => exact hsteady (steady_check.bind fun report => steady_ofExcept (.ok (some report))) rfl
  | remark text => exact hsteady (fun _ => ⟨rfl, rfl⟩) rfl
  | saveTranscript name => exact hsteady (fun _ => ⟨rfl, rfl⟩) rfl
  | declareSort name => exact hsteady (hsend _) rfl
  | declareFun name domain range => exact hsteady (hsend _) rfl
  | push => exact hsteady (hsend _) rfl
  | pop => exact hsteady (hsend _) rfl
  | assertAxiom formula => exact hsteady (hsend _) rfl
  | assertConjecture formula => exact hsteady (hsend _) rfl

theorem settings_performAll (calls : List Call) (smt : Smt) :
    (performAll calls smt).2.limit = smt.limit ∧
      (performAll calls smt).2.constants =
        smt.constants ++ literalConstants calls (performAll calls smt).1 := by
  induction calls generalizing smt with
  | nil => exact ⟨rfl, (List.append_nil _).symm⟩
  | cons call calls ih =>
      obtain ⟨hlimit, hconstants⟩ := settles_perform call smt
      obtain ⟨hlimit', hconstants'⟩ := ih (call.perform.run smt).2
      refine ⟨hlimit'.trans hlimit, ?_⟩
      have hcons (result : Except Failure (Option Report))
          (results : List (Except Failure (Option Report))) :
          literalConstants (call :: calls) (result :: results) =
            literalConstants [call] [result] ++ literalConstants calls results :=
        (List.filterMap_append : List.filterMap _ ([(call, result)] ++ calls.zip results) = _)
      calc (performAll (call :: calls) smt).2.constants
          = (performAll calls (call.perform.run smt).2).2.constants := rfl
        _ = smt.constants ++ (literalConstants [call] [(call.perform.run smt).1] ++
              literalConstants calls (performAll calls (call.perform.run smt).2).1) := by
          rw [hconstants', hconstants, List.append_assoc]
        _ = smt.constants ++
              literalConstants (call :: calls) (performAll (call :: calls) smt).1 := by
          rw [← hcons]
          rfl

theorem ofReason_ne_invalid (reason : String) : Verdict.ofReason reason ≠ .invalid := by
  unfold Verdict.ofReason
  dsimp only
  split
  · nofun
  · split
    · nofun
    · split <;> nofun

/-- What a check that is refuted tells the solver and reports. -/
structure Enumerates (limit : Nat) (constants : List String) (exchanges : List Exchange)
    (models : List Model) : Prop where
  found : 1 ≤ models.length
  within : models.length ≤ limit
  checks_le : (exchanges.map Exchange.command).count checkSatCommand ≤ limit
  answered : modelsIn exchanges = models
  /-- Every question for a verdict but the first finds a frame of exactly the clauses that rule out
  the models before it. -/
  cumulative : ∀ earlier reply later,
    exchanges = earlier ++ .asked checkSatCommand reply :: later → earlier ≠ [] →
      ∀ outer : Stack SExpr, ∃ clauses,
        outer.obeyAll? (earlier.map Exchange.command) = some (outer.withFrame clauses) ∧
          clauses.map some = (modelsIn earlier).map (exclusion? constants)
  apart : freshAfter [] exchanges → models.Pairwise (Model.Differ constants)

theorem enumerates_one {limit : Nat} {details : List Exchange} (hlimit : 1 ≤ limit)
    (hdetails : Details details [model]) :
    Enumerates limit constants (.asked checkSatCommand reply :: details) [model] where
  found := Nat.le_refl 1
  within := hlimit
  checks_le := by
    rw [List.map_cons, Exchange.command, List.count_cons_self, hdetails.checks_eq]
    exact hlimit
  answered := by rw [modelsIn_checkSat, hdetails.modelsIn_eq]
  cumulative := by
    intro earlier reply' later hsplit hne
    rcases List.cons_eq_append_iff.mp hsplit with ⟨hnil, -⟩ | ⟨middle, rfl, hmiddle⟩
    · exact absurd hnil hne
    · rw [← List.append_nil details] at hmiddle
      obtain ⟨_, -, hnothing⟩ := hdetails.split hmiddle
      simp at hnothing
  apart _ := List.pairwise_singleton ..

theorem split_of_append_told {command : SExpr}
    (h : exchanges ++ [.told command] = earlier ++ .asked checkSatCommand reply :: later) :
    ∃ later', exchanges = earlier ++ .asked checkSatCommand reply :: later' := by
  rcases List.append_eq_append_iff.mp h with ⟨middle, -, hrest⟩ | ⟨middle, hexchanges, hrest⟩
  · rcases List.cons_eq_append_iff.mp hrest with ⟨rfl, hhead⟩ | ⟨_, -, hnil⟩
    · exact absurd (List.cons.inj hhead).1.symm (told_ne_asked _ _ _)
    · simp at hnil
  · rcases List.cons_eq_append_iff.mp hrest with ⟨rfl, hhead⟩ | ⟨later', rfl, -⟩
    · exact absurd (List.cons.inj hhead).1 (told_ne_asked _ _ _)
    · exact ⟨later', hexchanges⟩

theorem Searches.enumerates {details : List Exchange}
    (h : Searches constants count model exchanges found) (hdetails : Details details [model]) :
    Enumerates (count + 1) constants
      (.asked checkSatCommand reply ::
        (details ++ .told pushCommand :: (exchanges ++ [.told popCommand])))
      (model :: found.map Counterexample.model) where
  found := Nat.le_add_left ..
  within := by
    rw [List.length_cons, List.length_map]
    exact Nat.succ_le_succ h.length_le
  checks_le := by
    calc
      _ = ((details ++ Exchange.told pushCommand ::
            (exchanges ++ [Exchange.told popCommand])).map Exchange.command).count
              checkSatCommand + 1 := List.count_cons_self
      _ = (exchanges.map Exchange.command).count checkSatCommand + 1 := by
        rw [List.map_append, List.count_append, hdetails.checks_eq, Nat.zero_add]
        change (pushCommand :: (exchanges ++ [Exchange.told popCommand]).map
          Exchange.command).count checkSatCommand + 1 = _
        rw [List.count_cons_of_ne (by decide), List.map_append, List.count_append]
        rfl
      _ ≤ count + 1 := Nat.succ_le_succ h.checks_le
  answered := by
    rw [modelsIn_checkSat, modelsIn_append, hdetails.modelsIn_eq, modelsIn_told, modelsIn_append,
      h.modelsIn_eq, modelsIn_told]
    exact congrArg (model :: ·) (List.append_nil _)
  cumulative := by
    intro earlier reply' later hsplit hne outer
    rcases List.cons_eq_append_iff.mp hsplit with ⟨hnil, -⟩ | ⟨asked, rfl, hasked⟩
    · exact absurd hnil hne
    obtain ⟨told, rfl, htold⟩ := hdetails.split hasked
    rcases List.cons_eq_append_iff.mp htold with ⟨-, hhead⟩ | ⟨middle, rfl, hmiddle⟩
    · exact absurd (List.cons.inj hhead).1.symm (told_ne_asked _ _ _)
    obtain ⟨later', hexchanges⟩ := split_of_append_told hmiddle
    obtain ⟨added, hobey, hadded⟩ := h.cumulative hexchanges
    refine ⟨added, ?_, ?_⟩
    · rw [obeyAll?_round hdetails, List.map_cons, Exchange.command,
        Stack.obeyAll?_cons (Stack.obey?_push outer)]
      exact hobey
    · rw [hadded, modelsIn_checkSat, modelsIn_append, hdetails.modelsIn_eq, modelsIn_told]
      rfl
  apart hfresh := by
    rw [freshAfter_checkSat] at hfresh
    obtain ⟨-, hrest⟩ := hdetails.freshAfter hfresh
    have hsearch : freshAfter [] exchanges := freshAfter_of_append hrest
    obtain ⟨hfirst, hothers⟩ := @Searches.apart _ _ _ _ _ _ h [] (List.forall_mem_nil _) hsearch
    exact List.pairwise_cons.mpr ⟨hfirst model (List.mem_singleton_self _), hothers⟩

/-- A check that is refuted reports what the solver answered. -/
theorem enumerates_of_moreCounterexamples {first : Counterexample} {others : List Counterexample}
    {details : List Exchange} (hlimit : 1 ≤ smt.limit) (hdetails : Details details [first.model])
    (h : (moreCounterexamples first).run smt = (.ok others, smt')) :
    ∃ exchanges, Conversation smt.dialogue exchanges smt'.dialogue ∧
      (∀ exchange ∈ exchanges, exchange.Fits) ∧
      Enumerates smt.limit smt.constants (.asked checkSatCommand reply :: (details ++ exchanges))
        ((first :: others).map Counterexample.model) := by
  rw [moreCounterexamples, Action.run_bind_ok (Action.run_get smt)] at h
  by_cases hone : smt.limit ≤ 1
  · rw [if_pos hone] at h
    obtain ⟨rfl, rfl⟩ := eq_of_run_pure h
    refine ⟨[], .nil, List.forall_mem_nil _, ?_⟩
    rw [List.append_nil]
    exact enumerates_one hlimit hdetails
  · rw [if_neg hone] at h
    obtain ⟨_, opened, hopen, hrest⟩ := run_of_bind h
    obtain ⟨result, searched, hattempt, hclosing⟩ := run_of_bind hrest
    obtain ⟨_, closed, hclose, hend⟩ := run_of_bind hclosing
    obtain ⟨hresult, rfl⟩ := Prod.mk.inj hend
    obtain ⟨hfound, hsearched⟩ := Prod.mk.inj hattempt
    have hsearch : (search (smt.limit - 1) first).run opened = (.ok others, searched) :=
      Prod.ext ((Except.ok.inj hfound).trans hresult) hsearched
    obtain ⟨exchanges, hsearches, hconversation⟩ := searches_of_search hsearch
    rw [(steady_talk _).constants_eq hopen] at hsearches
    have hclosed : Conversation searched.dialogue [.told popCommand] closed.dialogue :=
      .told (run_of_talk hclose) .nil
    refine ⟨_, .told (run_of_talk hopen) (hconversation.append hclosed), ?_, ?_⟩
    · have hpush : (Exchange.told pushCommand).Fits := ⟨Bool.false_ne_true, Bool.false_ne_true⟩
      have hpop : (Exchange.told popCommand).Fits := ⟨Bool.false_ne_true, Bool.false_ne_true⟩
      exact List.forall_mem_cons.mpr ⟨hpush,
        List.forall_mem_append.mpr ⟨hsearches.fits, List.forall_mem_singleton.mpr hpop⟩⟩
    have hlimit' : smt.limit - 1 + 1 = smt.limit := by omega
    rw [← hlimit']
    exact hsearches.enumerates hdetails

/-- What has passed since an earlier state, retraced along the transcript. -/
def exchangesSince (earlier smt : Smt) : List Exchange :=
  retrace (smt.dialogue.log.drop earlier.dialogue.log.length) earlier.dialogue

theorem exchangesSince_eq (h : Conversation smt.dialogue exchanges smt'.dialogue)
    (hfits : ∀ exchange ∈ exchanges, exchange.Fits) : exchangesSince smt smt' = exchanges := by
  rw [exchangesSince, h.log_eq, List.drop_left, h.retrace_eq hfits]

theorem enumerates_of_check {report : Report} (hlimit : 1 ≤ smt.limit)
    (h : check.run smt = (.ok report, smt')) :
    (report.verdict ≠ .invalid → report.counterexamples = []) ∧
      (report.verdict = .invalid →
        Conversation smt.dialogue (exchangesSince smt smt') smt'.dialogue ∧
          Enumerates smt.limit smt.constants (exchangesSince smt smt')
            (report.counterexamples.map Counterexample.model)) := by
  obtain ⟨answer, judged, hjudged, hrest⟩ := run_of_bind h
  obtain ⟨reply, reasons, hreasons, hverdict⟩ := conversation_of_checkSat hjudged
  cases answer with
  | unsat =>
      obtain ⟨rfl, rfl⟩ := eq_of_run_pure hrest
      exact ⟨fun _ => rfl, nofun⟩
  | unknown reason =>
      obtain ⟨rfl, rfl⟩ := eq_of_run_pure hrest
      exact ⟨fun _ => rfl, fun hinvalid => absurd hinvalid (ofReason_ne_invalid reason)⟩
  | sat =>
      obtain ⟨first, described, hfirst, hmore⟩ := run_of_bind hrest
      obtain ⟨others, last, hothers, hend⟩ := run_of_bind hmore
      obtain ⟨rfl, rfl⟩ := eq_of_run_pure hend
      refine ⟨fun hvalid => absurd rfl hvalid, fun _ => ?_⟩
      obtain ⟨details, hdetails, hdescribed⟩ := conversation_of_counterexample hfirst
      have hlimit' : described.limit = smt.limit := by
        rw [steady_counterexample.limit_eq hfirst, (steady_talk _).limit_eq hjudged]
      have hconstants : described.constants = smt.constants := by
        rw [steady_counterexample.constants_eq hfirst, (steady_talk _).constants_eq hjudged]
      have hboth := hreasons.append hdetails
      obtain ⟨exchanges, hconversation, hfits, henumerates⟩ :=
        enumerates_of_moreCounterexamples (hlimit'.symm ▸ hlimit) hboth hothers
      rw [hlimit', hconstants] at henumerates
      have hwhole := hverdict.append (hdescribed.append hconversation)
      rw [List.cons_append, ← List.append_assoc] at hwhole
      have hsince := exchangesSince_eq hwhole (List.forall_mem_cons.mpr
        ⟨rfl, List.forall_mem_append.mpr ⟨hboth.fits, hfits⟩⟩)
      rw [hsince]
      exact ⟨hwhole, henumerates⟩

variable {host : Dialogue.Host} {program : String} {settings : Settings}
  {archive : Option Archive} {calls : List Call} {results : List (Except Failure (Option Report))}
  {opened : Smt} {report : Report}

/-- The search for counterexamples is bounded, cumulative and makes progress. Whatever the solver
does, a check that is refuted reports at least one counterexample and at most as many as the limit
allows, and asks for no more verdicts than that. Each time but the first, a frame of its own holds
exactly the clauses that rule out the counterexamples so far. Where no model that the solver gives
satisfies the equations of a clause that stands asserted, no two counterexamples give the same
values to the constants that were declared with literals. No other verdict has counterexamples. -/
theorem check_enumerates (hstart : Smt.start host program settings archive = (.ok (), opened))
    (hcalls : performAll calls opened = (results, smt))
    (hcheck : check.run smt = (.ok report, smt')) :
    (report.verdict ≠ .invalid → report.counterexamples = []) ∧
      (report.verdict = .invalid →
        Conversation smt.dialogue (exchangesSince smt smt') smt'.dialogue ∧
          Enumerates settings.enforced.reportLimit (literalConstants calls results)
            (exchangesSince smt smt') (report.counterexamples.map Counterexample.model)) := by
  obtain ⟨-, hopened⟩ := Prod.mk.inj hstart
  have hlimit : opened.limit = settings.enforced.reportLimit := by rw [← hopened]
  have hconstants : opened.constants = [] := by rw [← hopened]
  have hsettled := settings_performAll calls opened
  rw [hcalls, hlimit, hconstants, List.nil_append] at hsettled
  rw [← hsettled.1, ← hsettled.2]
  refine enumerates_of_check ?_ hcheck
  rw [hsettled.1]
  exact Nat.le_max_left ..

/-- A solver that refutes twice, and then finds nothing more. -/
def twofoldHost : Dialogue.Host := fun _ => some (Behaviour.scripted
  [.text "", .text "sat", .text "(labels)", .text "((define-fun x () Int 1))", .text "sat",
    .text "(labels)", .text "((define-fun x () Int 2))", .text "unsat"])

def twofoldSettings : Settings := { counterexampleLimit := some 3 }

def twofoldOpened : Smt := (Smt.start twofoldHost "z3" twofoldSettings none).2

def twofoldCalls : List Call := [.declareConst "x" .int]

def twofoldSmt : Smt := (performAll twofoldCalls twofoldOpened).2

def twofoldReport : Report where
  verdict := .invalid
  counterexamples :=
    [⟨Model.empty.setValue "x" (.symbol "Int") (.numeral 1), []⟩,
      ⟨Model.empty.setValue "x" (.symbol "Int") (.numeral 2), []⟩]

theorem check_enumerates_twofold :
    (check.run twofoldSmt).1 = .ok twofoldReport ∧
      ((exchangesSince twofoldSmt (check.run twofoldSmt).2).map Exchange.command).count
        checkSatCommand ≤ 3 ∧
      (twofoldReport.counterexamples.map Counterexample.model).Pairwise (Model.Differ ["x"]) := by
  have hstart := start_eq_ok (show (Smt.start twofoldHost "z3" twofoldSettings none).1.isOk by
    decide +kernel)
  have hcalls : performAll twofoldCalls twofoldOpened =
      ((performAll twofoldCalls twofoldOpened).1, twofoldSmt) :=
    (Prod.eta _).symm
  have hreport : (check.run twofoldSmt).1 = .ok twofoldReport := by decide +kernel
  have hcheck : check.run twofoldSmt = (.ok twofoldReport, (check.run twofoldSmt).2) := by
    rw [← hreport]
  have hlimit : twofoldSettings.enforced.reportLimit = 3 := by decide
  have hconstants : literalConstants twofoldCalls (performAll twofoldCalls twofoldOpened).1 =
      ["x"] := by
    decide +kernel
  obtain ⟨-, henumerates⟩ := check_enumerates hstart hcalls hcheck
  obtain ⟨-, henumerates⟩ := henumerates rfl
  rw [hlimit, hconstants] at henumerates
  exact ⟨hreport, henumerates.checks_le, henumerates.apart (by decide +kernel)⟩

end Smt

end SmtSession
