import SmtSession.Proofs.Listening
import SmtSession.Proofs.SmtConversation

/-!
# Calls to the SMT engine

What the calls to the engine write to the solver. A reply is only ever asked for by a check, and the
first thing that is asked for after a silent command is a verdict.
-/

namespace SmtSession

open Solver

/-! ### The order of the exchanges -/

namespace Solver

/-- `heard` tells that nothing was told since the latest reply. -/
inductive Orderly : Bool → List Exchange → Bool → Prop
  | done {heard} : Orderly heard [] heard
  | told {heard heard' command rest} : ¬awaitsReply command → ¬command.isComment →
      Orderly false rest heard' → Orderly heard (.told command :: rest) heard'
  | verdict {heard heard' reply rest} : Orderly true rest heard' →
      Orderly heard (.asked checkSatCommand reply :: rest) heard'
  | detail {heard' command reply rest} : awaitsReply command → Orderly true rest heard' →
      Orderly true (.asked command reply :: rest) heard'

variable {heard middle heard' : Bool} {exchanges later : List Exchange}

theorem Orderly.told_application {head : String} {args : List SExpr} (hhead : head ∉ replyHeads)
    (h : Orderly false later heard') :
    Orderly heard (.told (.application head args) :: later) heard' := by
  refine .told ?_ ?_ h
  · intro hreply
    exact hhead (List.contains_iff_mem.mp hreply)
  · exact Bool.false_ne_true

theorem Orderly.append (h : Orderly heard exchanges middle) (h' : Orderly middle later heard') :
    Orderly heard (exchanges ++ later) heard' := by
  induction h with
  | done => exact h'
  | told hsilent hcomment _ ih => exact .told hsilent hcomment (ih h')
  | verdict _ ih => exact .verdict (ih h')
  | detail hreply _ ih => exact .detail hreply (ih h')

theorem Orderly.of_append (h : Orderly heard (exchanges ++ later) heard') :
    ∃ middle, Orderly heard exchanges middle ∧ Orderly middle later heard' := by
  induction exchanges generalizing heard with
  | nil => exact ⟨heard, .done, h⟩
  | cons exchange exchanges ih =>
      cases h with
      | told hsilent hcomment h =>
          obtain ⟨middle, hfirst, hlast⟩ := ih h
          exact ⟨middle, .told hsilent hcomment hfirst, hlast⟩
      | verdict h =>
          obtain ⟨middle, hfirst, hlast⟩ := ih h
          exact ⟨middle, .verdict hfirst, hlast⟩
      | detail hreply h =>
          obtain ⟨middle, hfirst, hlast⟩ := ih h
          exact ⟨middle, .detail hreply hfirst, hlast⟩

/-- A reply is awaited for the commands that have one. -/
def Exchange.Fits : Exchange → Prop
  | .told command => ¬awaitsReply command ∧ ¬command.isComment
  | .asked command _ => awaitsReply command

theorem Orderly.fits (h : Orderly heard exchanges heard') :
    ∀ exchange ∈ exchanges, exchange.Fits := by
  induction h with
  | done => exact nofun
  | told hsilent hcomment _ ih => exact List.forall_mem_cons.mpr ⟨⟨hsilent, hcomment⟩, ih⟩
  | verdict _ ih => exact List.forall_mem_cons.mpr ⟨rfl, ih⟩
  | detail hreply _ ih => exact List.forall_mem_cons.mpr ⟨hreply, ih⟩

end Solver

/-! ### What is written -/

namespace Solver

/-- What is written to the solver for an entry of the transcript. -/
def Message.ofEntry (entry : SExpr) : List Message :=
  if awaitsReply entry then [.command entry, .request]
  else if entry.isComment then []
  else [.command entry]

theorem Exchange.Fits.eq_asked {exchange : Exchange} (h : exchange.Fits)
    (hreply : awaitsReply exchange.command) :
    ∃ reply, exchange = .asked exchange.command reply := by
  cases exchange with
  | told command => exact absurd hreply h.1
  | asked command reply => exact ⟨reply, rfl⟩

theorem Exchange.Fits.eq_told {exchange : Exchange} (h : exchange.Fits)
    (hsilent : ¬awaitsReply exchange.command) : exchange = .told exchange.command := by
  cases exchange with
  | told command => rfl
  | asked command reply => exact absurd h hsilent

theorem Exchange.Fits.messages_eq {exchange : Exchange} (h : exchange.Fits) :
    Message.ofEntry exchange.command = exchange.messages := by
  cases exchange with
  | told command =>
      obtain ⟨hsilent, hcomment⟩ := h
      rw [Exchange.command, Message.ofEntry, if_neg hsilent, if_neg hcomment]
      rfl
  | asked command reply =>
      have hreply : awaitsReply command := h
      rw [Exchange.command, Message.ofEntry, if_pos hreply]
      rfl

theorem Orderly.messages_eq {heard heard' : Bool} {exchanges : List Exchange}
    (h : Orderly heard exchanges heard') :
    (exchanges.map Exchange.command).flatMap Message.ofEntry =
      exchanges.flatMap Exchange.messages := by
  rw [List.flatMap_map, List.flatMap_def, List.flatMap_def]
  exact congrArg List.flatten
    (List.map_congr_left fun exchange hmem => (h.fits exchange hmem).messages_eq)

theorem exists_exchange {exchanges : List Exchange} {before after : List Message} {command : SExpr}
    (h : exchanges.flatMap Exchange.messages = before ++ .command command :: after) :
    ∃ first exchange last, exchanges = first ++ exchange :: last ∧
      first.flatMap Exchange.messages = before ∧ exchange.command = command ∧
      exchange.messages ++ last.flatMap Exchange.messages = .command command :: after := by
  induction exchanges generalizing before with
  | nil => simp at h
  | cons exchange exchanges ih =>
      rw [List.flatMap_cons] at h
      cases before with
      | nil =>
          refine ⟨[], exchange, exchanges, rfl, rfl, ?_, h⟩
          cases exchange <;> exact Message.command.inj (List.cons.inj h).1
      | cons message before =>
          cases exchange with
          | told content =>
              obtain ⟨rfl, hrest⟩ := List.cons.inj h
              obtain ⟨first, exchange, last, rfl, rfl, hcommand, hlast⟩ := ih hrest
              exact ⟨.told content :: first, exchange, last, rfl, rfl, hcommand, hlast⟩
          | asked content reply =>
              obtain ⟨rfl, hrequest⟩ := List.cons.inj h
              cases before with
              | nil => exact absurd (List.cons.inj hrequest).1 nofun
              | cons message before =>
                  obtain ⟨rfl, hrest⟩ := List.cons.inj hrequest
                  obtain ⟨first, exchange, last, rfl, rfl, hcommand, hlast⟩ := ih hrest
                  exact ⟨.asked content reply :: first, exchange, last, rfl, rfl, hcommand, hlast⟩

end Solver

namespace Smt

theorem Course.orderly {heard inner heard' inner' : Bool} {exchanges : List Exchange}
    (h : Course heard inner exchanges heard' inner') : Orderly heard exchanges heard' := by
  induction h with
  | done => exact .done
  | verdict _ ih => exact .verdict ih
  | detail hreply _ ih => exact .detail hreply ih
  | clause _ ih => exact .told_application (by decide) ih
  | «open» _ ih => exact .told_application (by decide) ih
  | close _ ih => exact .told_application (by decide) ih

/-! ### Calls -/

inductive Call where
  | declareSort (name : String)
  | declareConst (name : String) (ty : Ty)
  | declareFun (name : String) (domain : List Ty) (range : Ty)
  | push
  | pop
  | assertAxiom (formula : SExpr)
  | assertConjecture (formula : SExpr)
  | check
  | remark (text : String)
  | saveTranscript (name : String)

def Call.perform : Call → Action Smt Failure (Option Report)
  | .declareSort name => Engine.declareSort name >>= fun _ => pure none
  | .declareConst name ty => Engine.declareConst name ty >>= fun _ => pure none
  | .declareFun name domain range => Engine.declareFun name domain range >>= fun _ => pure none
  | .push => Engine.push >>= fun _ => pure none
  | .pop => Engine.pop >>= fun _ => pure none
  | .assertAxiom formula => Engine.assertAxiom formula >>= fun _ => pure none
  | .assertConjecture formula => Engine.assertConjecture formula >>= fun _ => pure none
  | .check => Engine.check >>= fun report => pure (some report)
  | .remark text => Action.modify (Engine.remark text) >>= fun _ => pure none
  | .saveTranscript name => Action.modify (Engine.saveTranscript name) >>= fun _ => pure none

def performAll : List Call → Smt → List (Except Failure (Option Report)) × Smt
  | [], smt => ([], smt)
  | call :: calls, smt =>
    let (result, smt) := call.perform.run smt
    let (results, smt) := performAll calls smt
    (result :: results, smt)

/-- What was written to the solver since an earlier state. -/
def messagesSince (earlier smt : Smt) : List Message :=
  (smt.dialogue.log.drop earlier.dialogue.log.length).flatMap Message.ofEntry

structure Passes (earlier : Smt) (exchanges : List Exchange) (smt : Smt) : Prop where
  passage : Passage earlier.dialogue.connection exchanges smt.dialogue.connection
  messages_eq : ∃ entries, smt.dialogue.log = earlier.dialogue.log ++ entries ∧
    entries.flatMap Message.ofEntry = exchanges.flatMap Exchange.messages

variable {first second third : Smt} {exchanges later : List Exchange} {call : Call}
  {calls : List Call}

theorem Passes.messagesSince_eq (h : Passes first exchanges second) :
    messagesSince first second = exchanges.flatMap Exchange.messages := by
  obtain ⟨entries, hlog, hentries⟩ := h.messages_eq
  rw [messagesSince, hlog, List.drop_left, hentries]

theorem Passes.append (h : Passes first exchanges second) (h' : Passes second later third) :
    Passes first (exchanges ++ later) third := by
  obtain ⟨entries, hlog, hentries⟩ := h.messages_eq
  obtain ⟨entries', hlog', hentries'⟩ := h'.messages_eq
  refine ⟨h.passage.append h'.passage, entries ++ entries', ?_, ?_⟩
  · rw [hlog', hlog, List.append_assoc]
  · rw [List.flatMap_append, List.flatMap_append, hentries, hentries']

theorem passes_of_conversation {heard heard' : Bool}
    (h : Conversation first.dialogue exchanges second.dialogue)
    (horderly : Orderly heard exchanges heard') : Passes first exchanges second :=
  ⟨h.passage, exchanges.map Exchange.command, h.log_eq, horderly.messages_eq⟩

/-- What holds of the exchanges of a call. -/
structure Call.Holds (call : Call) (exchanges : List Exchange)
    (result : Except Failure (Option Report)) : Prop where
  orderly : ∀ heard, ∃ heard', Orderly heard exchanges heard'
  faithful : Faithful exchanges result
  asksFirst : call = .check → AsksFirst exchanges
  of_asked : ∀ command reply, .asked command reply ∈ exchanges → call = .check

theorem Call.holds_nil (hcall : call ≠ .check) (result : Except Failure (Option Report)) :
    call.Holds [] result where
  orderly heard := ⟨heard, .done⟩
  faithful := nofun
  asksFirst hcheck := absurd hcheck hcall
  of_asked := nofun

theorem Call.holds_told {head : String} (hcall : call ≠ .check)
    (hhead : head ∉ replyHeads) (args : List SExpr)
    (result : Except Failure (Option Report)) :
    call.Holds [.told (.application head args)] result where
  orderly heard := ⟨false, .told_application hhead .done⟩
  faithful text hmem := by
    rw [List.mem_singleton] at hmem
    contradiction
  asksFirst hcheck := absurd hcheck hcall
  of_asked command reply hmem := by
    rw [List.mem_singleton] at hmem
    contradiction

theorem conducts_told {head : String} {args : List SExpr}
    {next : Unit → Action Smt Failure (Option Report)} (hcall : call ≠ .check)
    (hhead : head ∉ replyHeads)
    (hnext : ∀ smt, ((next ()).run smt).2.dialogue = smt.dialogue) :
    Conducts Smt.dialogue (Smt.send (.application head args) >>= next) call.Holds := by
  refine (conducts_talk (conducts_send _)).bind (fun _ => conducts_nothing hnext) ?_ ?_
  · rintro exchanges failure ⟨-, hresult⟩
    contradiction
  · rintro exchanges a later result ⟨rfl, -⟩ rfl
    exact Call.holds_told hcall hhead args result

theorem conducts_performCheck : Conducts Smt.dialogue Call.check.perform Call.check.Holds := by
  have hproceeds : Conducts Smt.dialogue Smt.check fun exchanges result =>
      AsksFirst exchanges ∧ Proceeds true false false exchanges result := conducts_check
  have hcheck : Conducts Smt.dialogue Smt.check fun exchanges result =>
      ((∀ heard, ∃ heard', Orderly heard exchanges heard') ∧ AsksFirst exchanges) ∧
        Faithful exchanges result := by
    apply hproceeds.mono
    rintro exchanges result ⟨⟨reply, rest, rfl⟩, ⟨heard', hcourse⟩, hfaithful⟩
    refine ⟨⟨fun heard => ⟨heard', ?_⟩, reply, rest, rfl⟩, hfaithful⟩
    cases hcourse with
    | verdict hrest => exact .verdict hrest.orderly
    | detail _ hrest => exact .verdict hrest.orderly
  apply (conducts_map some hcheck).mono
  rintro exchanges result ⟨⟨horderly, hfirst⟩, hfaithful⟩
  exact ⟨horderly, hfaithful, fun _ => hfirst, fun _ _ _ => rfl⟩

theorem passes_remarks {entries : List SExpr}
    (hconnection : second.dialogue.connection = first.dialogue.connection)
    (hlog : second.dialogue.log = first.dialogue.log ++ entries)
    (hcomments : ∀ entry ∈ entries, ∃ text, entry = .comment text) : Passes first [] second := by
  refine ⟨?_, entries, hlog, ?_⟩
  · rw [hconnection]
    exact .nil
  · apply List.flatMap_eq_nil_iff.mpr
    intro entry hmem
    obtain ⟨text, rfl⟩ := hcomments entry hmem
    rfl

theorem passes_perform (hwritten : Written (call.perform.run first).1) :
    ∃ exchanges, Passes first exchanges (call.perform.run first).2 ∧
      call.Holds exchanges (call.perform.run first).1 := by
  have hconducts (h : Conducts Smt.dialogue call.perform call.Holds) :
      ∃ exchanges, Passes first exchanges (call.perform.run first).2 ∧
        call.Holds exchanges (call.perform.run first).1 := by
    obtain ⟨exchanges, hconversation, hholds⟩ := h first hwritten
    obtain ⟨heard, horderly⟩ := hholds.orderly true
    exact ⟨exchanges, passes_of_conversation hconversation horderly, hholds⟩
  cases call with
  | declareSort name => exact hconducts (conducts_told nofun (by decide) fun _ => rfl)
  | declareConst name ty =>
      apply hconducts
      change Conducts _ (declareConst name ty >>= fun _ => pure none) _
      rw [declareConst, bind_assoc]
      refine conducts_told nofun (by decide) fun smt => ?_
      split <;> rfl
  | declareFun name domain range =>
      exact hconducts (conducts_told nofun (by decide) fun _ => rfl)
  | push => exact hconducts (conducts_told nofun (by decide) fun _ => rfl)
  | pop => exact hconducts (conducts_told nofun (by decide) fun _ => rfl)
  | assertAxiom formula => exact hconducts (conducts_told nofun (by decide) fun _ => rfl)
  | assertConjecture formula => exact hconducts (conducts_told nofun (by decide) fun _ => rfl)
  | check => exact hconducts conducts_performCheck
  | remark text =>
      obtain ⟨entries, hlog, hcomments⟩ := log_remark text first
      have hconnection : (Engine.remark text first).dialogue.connection =
          first.dialogue.connection := by
        change (first.dialogue.remark text).connection = _
        unfold Dialogue.remark
        split <;> rfl
      have hcall : Call.remark text ≠ .check := nofun
      exact ⟨[], passes_remarks hconnection hlog hcomments, Call.holds_nil hcall _⟩
  | saveTranscript name =>
      have hconnection : (Engine.saveTranscript name first).dialogue.connection =
          first.dialogue.connection := by
        change (first.dialogue.saveTranscript name).2.connection = _
        unfold Dialogue.saveTranscript
        split <;> rfl
      have hlog : (Engine.saveTranscript name first).dialogue.log =
          first.dialogue.log ++ [] := by
        rw [log_saveTranscript, List.append_nil]
      have hcall : Call.saveTranscript name ≠ .check := nofun
      exact ⟨[], passes_remarks hconnection hlog nofun, Call.holds_nil hcall _⟩

theorem passes_performAll (hwritten : ∀ result ∈ (performAll calls first).1, Written result) :
    ∃ exchanges, Passes first exchanges (performAll calls first).2 ∧
      ∀ heard, ∃ heard', Orderly heard exchanges heard' := by
  induction calls generalizing first with
  | nil =>
      refine ⟨[], passes_remarks rfl (List.append_nil _).symm nofun, ?_⟩
      intro heard
      exact ⟨heard, .done⟩
  | cons call calls ih =>
      obtain ⟨hresult, hresults⟩ := List.forall_mem_cons.mp hwritten
      obtain ⟨exchanges, hpasses, hholds⟩ := passes_perform hresult
      obtain ⟨later, hlater, horderly⟩ := ih hresults
      refine ⟨exchanges ++ later, hpasses.append hlater, ?_⟩
      intro heard
      obtain ⟨middle, hfirst⟩ := hholds.orderly heard
      obtain ⟨heard', hlast⟩ := horderly middle
      exact ⟨heard', hfirst.append hlast⟩

/-! ### The start -/

/-- What is written to a solver that is started. -/
def opening (settings : Settings) (program : String) : List Message :=
  (settings.enforced.invocation program).options.map (fun option => .command (optionCommand option))
    ++ [.request]

/-- All that a solver says about its options is read. -/
theorem unread_of_start {host : Dialogue.Host} {program : String} {settings : Settings}
    {archive : Option Archive} {smt : Smt} {behaviour : Behaviour}
    {said spoken : List (Message × List String)}
    (hstart : Smt.start host program settings archive = (.ok (), smt))
    (hhost : host program = some behaviour)
    (hsaid : said.map Prod.fst = opening settings program)
    (hprints : ({ behaviour } : Connection).Prints (said ++ spoken)) :
    Unread smt.dialogue.connection [] ∧ smt.dialogue.connection.Prints spoken := by
  obtain ⟨behaviour', log, hhost', -, told, reply, hconversation, hawait⟩ :=
    conversation_of_start hstart
  obtain rfl : behaviour = behaviour' := Option.some.inj (hhost.symm.trans hhost')
  obtain ⟨asked, left, hrequest, hcollect, hconnection⟩ := run_awaitReply_written hawait nofun
  obtain ⟨options, marked, rfl, hoptions, hmarked⟩ := List.map_eq_append_iff.mp hsaid
  obtain ⟨⟨asking, mark⟩, nothing, rfl, hasking, hnothing⟩ := List.map_eq_cons_iff.mp hmarked
  obtain rfl : asking = .request := hasking
  obtain rfl := List.map_eq_nil_iff.mp hnothing
  have hfresh : Unread { behaviour } [] := ⟨rfl, nofun⟩
  have htold : options.map Prod.fst =
      ((settings.enforced.invocation program).options.map fun option =>
        Exchange.told (optionCommand option)).flatMap Exchange.messages := by
    rw [hoptions, List.map_eq_flatMap, List.flatMap_map]
    rfl
  rw [List.append_assoc] at hprints
  obtain ⟨hunread, hprints'⟩ := hconversation.passage.unread htold hprints hfresh
  rw [hconnection]
  exact (hunread.requested hrequest hcollect hprints').2

end Smt

end SmtSession
