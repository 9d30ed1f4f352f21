import SmtSession.Engine.Smt

/-!
# Conversations with a solver

What passes in a dialogue: commands that are only told, and commands whose reply is awaited. The
engine holds such a conversation in every call whose writes succeed. In which order it tells and
asks does not depend on the solver, and a check that is answered by anything but a verdict fails.
-/

namespace SmtSession

namespace Solver

/-- A write that fails is the failure of the step it is part of, so all writes of a step with any
other result succeeded. -/
def Written {α : Type} (result : Except Failure α) : Prop := result ≠ .error (.channel .broken)

instance {α : Type} : (result : Except Failure α) → Decidable (Written result)
  | .ok _ => isTrue nofun
  | .error failure =>
    if h : failure = .channel .broken then isFalse fun hwritten => hwritten (h ▸ rfl)
    else isTrue fun herror => h (Except.error.inj herror)

inductive Exchange where
  | told (command : SExpr)
  | asked (command : SExpr) (reply : Except Failure String)

def Exchange.command : Exchange → SExpr
  | .told command => command
  | .asked command _ => command

def checkSatCommand : SExpr := .application "check-sat" []

def pushCommand : SExpr := .application "push" [.numeral 1]

def popCommand : SExpr := .application "pop" [.numeral 1]

def assertCommand (formula : SExpr) : SExpr := .application "assert" [formula]

/-- The commands that have a reply. -/
def replyHeads : List String := ["check-sat", "get-info", "labels", "get-model"]

def awaitsReply (command : SExpr) : Bool :=
  match command.application? with
  | some (head, _) => replyHeads.contains head
  | none => false

namespace Dialogue

def consult (command : SExpr) : Action Dialogue Failure String := do
  send command
  awaitReply

/-- What `ask` makes of a reply. -/
def readAnswer (command : SExpr) (reply : String) : Action Dialogue Failure SExpr :=
  match SExpr.read reply with
  | .ok expr => if isError expr then .fail (.refused (errorText reply)) else pure expr
  | .error _ => .fail (.unexpected command.print reply)

theorem ask_eq (command : SExpr) : ask command = consult command >>= readAnswer command := by
  rw [consult, bind_assoc]
  rfl

/-- What `checkSat` makes of a reply. -/
def readVerdict (reply : String) : Action Dialogue Failure Satisfiability :=
  match reply with
  | "unsat" => pure .unsat
  | "sat" => pure .sat
  | "unknown" => info ":reason-unknown" >>= fun reason => pure (.unknown reason.print)
  | _ => .fail (.refused (errorText reply))

theorem checkSat_eq : checkSat = consult checkSatCommand >>= readVerdict := by
  rw [consult, bind_assoc]
  rfl

end Dialogue

open Dialogue

/-- The exchanges between two states of a dialogue, all of whose writes succeed. -/
inductive Conversation : Dialogue → List Exchange → Dialogue → Prop
  | nil {dialogue} : Conversation dialogue [] dialogue
  | told {first second third command exchanges} :
      (send command).run first = (.ok (), second) → Conversation second exchanges third →
      Conversation first (.told command :: exchanges) third
  | asked {first second third command reply exchanges} :
      (consult command).run first = (reply, second) → Written reply →
      Conversation second exchanges third →
      Conversation first (.asked command reply :: exchanges) third

variable {first second third : Dialogue} {exchanges later : List Exchange} {command : SExpr}

theorem Conversation.append (h : Conversation first exchanges second)
    (h' : Conversation second later third) : Conversation first (exchanges ++ later) third := by
  induction h with
  | nil => exact h'
  | told hsend _ ih => exact .told hsend (ih h')
  | asked hconsult hreply _ ih => exact .asked hconsult hreply (ih h')

theorem writeLine_cases (text : List Char) (dialogue : Dialogue) :
    (∃ connection, dialogue.connection.writeLine text = .ok connection ∧
        (Dialogue.writeLine text).run dialogue = (.ok (), { dialogue with connection })) ∨
      (Dialogue.writeLine text).run dialogue = (.error (.channel .broken), dialogue) := by
  simp only [Dialogue.writeLine, Action.run, Connection.writeLine]
  by_cases hopen : dialogue.connection.isOpen
  · rw [if_pos hopen]
    exact Or.inl ⟨_, rfl, rfl⟩
  · rw [if_neg hopen]
    exact Or.inr rfl

theorem send_cases (command : SExpr) (dialogue : Dialogue) :
    (∃ connection, dialogue.connection.writeLine command.chars = .ok connection ∧
        (send command).run dialogue =
          (.ok (), { dialogue with connection, log := dialogue.log ++ [command] })) ∨
      (send command).run dialogue = (.error (.channel .broken), dialogue) := by
  rcases writeLine_cases command.chars dialogue with ⟨connection, hwrite, hrun⟩ | hrun
  · refine Or.inl ⟨connection, hwrite, ?_⟩
    rw [send, Action.run_bind_ok hrun]
    rfl
  · apply Or.inr
    rw [send, Action.run_bind_error hrun]

theorem log_send {result : Except Failure Unit} (h : (send command).run first = (result, second))
    (hwritten : Written result) : result = .ok () ∧ second.log = first.log ++ [command] := by
  rcases send_cases command first with ⟨connection, -, hrun⟩ | hrun
  · rw [hrun] at h
    obtain ⟨rfl, rfl⟩ := Prod.mk.inj h
    exact ⟨rfl, rfl⟩
  · rw [hrun] at h
    obtain ⟨rfl, -⟩ := Prod.mk.inj h
    exact absurd rfl hwritten

theorem log_awaitReply (dialogue : Dialogue) : (awaitReply.run dialogue).2.log = dialogue.log := by
  rcases writeLine_cases markerCommand.toList dialogue with ⟨connection, -, hrun⟩ | hrun
  · rw [awaitReply, Action.run_bind_ok hrun]
    rfl
  · rw [awaitReply, Action.run_bind_error hrun]

theorem log_consult {reply : Except Failure String}
    (h : (consult command).run first = (reply, second)) (hwritten : Written reply) :
    second.log = first.log ++ [command] := by
  rcases Action.run_bind_cases h with ⟨_, middle, hsend, hawait⟩ | ⟨failure, hsend, rfl⟩
  · obtain ⟨-, hlog⟩ := log_send hsend nofun
    have hreply := log_awaitReply middle
    rw [hawait] at hreply
    rw [hreply, hlog]
  · obtain ⟨hok, -⟩ := log_send hsend fun hbroken => hwritten (by rw [Except.error.inj hbroken])
    contradiction

theorem Conversation.log_eq (h : Conversation first exchanges second) :
    second.log = first.log ++ exchanges.map Exchange.command := by
  induction h with
  | nil => rw [List.map_nil, List.append_nil]
  | told hsend _ ih =>
      rw [ih, (log_send hsend nofun).2, List.append_assoc]
      rfl
  | asked hconsult hreply _ ih =>
      rw [ih, log_consult hconsult hreply, List.append_assoc]
      rfl

/-! ### Steps that hold conversations -/

section Conducts

variable {σ α β : Type} {view : σ → Dialogue} {action : Action σ Failure α}
  {next : α → Action σ Failure β}

/-- A step on a state with a dialogue in it, whose conversation and result are as claimed. -/
def Conducts (view : σ → Dialogue) (action : Action σ Failure α)
    (claim : List Exchange → Except Failure α → Prop) : Prop :=
  ∀ state, Written (action.run state).1 → ∃ exchanges,
    Conversation (view state) exchanges (view (action.run state).2) ∧
      claim exchanges (action.run state).1

theorem Conducts.mono {claim claim' : List Exchange → Except Failure α → Prop}
    (h : Conducts view action claim)
    (himp : ∀ exchanges result, claim exchanges result → claim' exchanges result) :
    Conducts view action claim' := by
  intro state hwritten
  obtain ⟨exchanges, hconversation, hclaim⟩ := h state hwritten
  exact ⟨exchanges, hconversation, himp _ _ hclaim⟩

theorem Conducts.bind {claim : List Exchange → Except Failure α → Prop}
    {claim' : α → List Exchange → Except Failure β → Prop}
    {whole : List Exchange → Except Failure β → Prop} (hfirst : Conducts view action claim)
    (hnext : ∀ a, Conducts view (next a) (claim' a))
    (herror : ∀ exchanges failure, claim exchanges (.error failure) →
      whole exchanges (.error failure))
    (hok : ∀ exchanges a later result, claim exchanges (.ok a) → claim' a later result →
      whole (exchanges ++ later) result) :
    Conducts view (action >>= next) whole := by
  intro state hwritten
  rcases hrun : action.run state with ⟨failure | a, middle⟩
  · rw [Action.run_bind_error hrun] at hwritten ⊢
    have hfailure : Written (action.run state).1 := by
      rw [hrun]
      intro hbroken
      exact hwritten (by rw [Except.error.inj hbroken])
    obtain ⟨exchanges, hconversation, hclaim⟩ := hfirst state hfailure
    rw [hrun] at hconversation hclaim
    exact ⟨exchanges, hconversation, herror _ _ hclaim⟩
  · rw [Action.run_bind_ok hrun] at hwritten ⊢
    have hvalue : Written (action.run state).1 := by
      rw [hrun]
      exact nofun
    obtain ⟨exchanges, hconversation, hclaim⟩ := hfirst state hvalue
    obtain ⟨later, hlater, hclaim'⟩ := hnext a middle hwritten
    rw [hrun] at hconversation hclaim
    exact ⟨exchanges ++ later, hconversation.append hlater, hok _ _ _ _ hclaim hclaim'⟩

theorem conducts_nothing (h : ∀ state, view (action.run state).2 = view state) :
    Conducts view action fun exchanges _ => exchanges = [] := by
  intro state _
  rw [h]
  exact ⟨[], .nil, rfl⟩

theorem conducts_ofExcept (result : Except Failure α) :
    Conducts view (.ofExcept result) fun exchanges result' =>
      exchanges = [] ∧ result' = result := by
  intro state _
  exact ⟨[], .nil, rfl, rfl⟩

theorem conducts_send (command : SExpr) :
    Conducts id (send command) fun exchanges result =>
      exchanges = [.told command] ∧ result = .ok () := by
  intro dialogue hwritten
  obtain ⟨hok, -⟩ := log_send rfl hwritten
  exact ⟨_, .told (Prod.ext hok rfl) .nil, rfl, hok⟩

theorem conducts_consult (command : SExpr) :
    Conducts id (consult command) fun exchanges reply => exchanges = [.asked command reply] := by
  intro dialogue hwritten
  exact ⟨_, .asked rfl hwritten .nil, rfl⟩

theorem Conducts.conclude {command : SExpr} {action : Action Dialogue Failure α}
    {next : α → Action Dialogue Failure β}
    (h : Conducts id action fun exchanges _ => ∃ reply, exchanges = [.asked command reply])
    (hnext : ∀ a state, ((next a).run state).2 = state) :
    Conducts id (action >>= next) fun exchanges _ =>
      ∃ reply, exchanges = [.asked command reply] := by
  refine h.bind (fun a => conducts_nothing (hnext a)) (fun _ _ h => h) ?_
  rintro exchanges a later result ⟨reply, rfl⟩ rfl
  exact ⟨reply, rfl⟩

end Conducts

theorem conducts_ask (command : SExpr) :
    Conducts id (ask command) fun exchanges _ => ∃ reply, exchanges = [.asked command reply] := by
  have hconsult : Conducts id (consult command) fun exchanges _ =>
      ∃ reply, exchanges = [.asked command reply] :=
    (conducts_consult command).mono fun _ reply h => ⟨reply, h⟩
  rw [ask_eq]
  apply hconsult.conclude
  intro reply dialogue
  unfold readAnswer
  split
  · split <;> rfl
  · rfl

theorem conducts_info (keyword : String) :
    Conducts id (info keyword) fun exchanges _ =>
      ∃ reply, exchanges = [.asked (.application "get-info" [.symbol keyword]) reply] := by
  apply (conducts_ask _).conclude
  intro reply dialogue
  split
  · split <;> rfl
  · rfl

theorem conducts_labels :
    Conducts id labels fun exchanges _ =>
      ∃ reply, exchanges = [.asked (.application "labels" []) reply] := by
  apply (conducts_ask _).conclude
  intro reply dialogue
  split
  · split <;> rfl
  · rfl

def verdictTexts : List String := ["sat", "unsat", "unknown"]

/-- What becomes of the reply to a check: what is asked after it, and the result. -/
inductive Judged :
    Except Failure String → List Exchange → Except Failure Satisfiability → Prop
  | sat : Judged (.ok "sat") [] (.ok .sat)
  | unsat : Judged (.ok "unsat") [] (.ok .unsat)
  | unknown {reply result} :
      Judged (.ok "unknown")
        [.asked (.application "get-info" [.symbol ":reason-unknown"]) reply] result
  | refused {text} : text ∉ verdictTexts →
      Judged (.ok text) [] (.error (.refused (errorText text)))
  | unheard {failure} : Judged (.error failure) [] (.error failure)

theorem conducts_readVerdict (reply : String) :
    Conducts id (readVerdict reply) (Judged (.ok reply)) := by
  unfold readVerdict
  split
  · apply (conducts_ofExcept (.ok Satisfiability.unsat)).mono
    rintro exchanges result ⟨rfl, rfl⟩
    exact .unsat
  · apply (conducts_ofExcept (.ok Satisfiability.sat)).mono
    rintro exchanges result ⟨rfl, rfl⟩
    exact .sat
  · refine ((conducts_info _).conclude fun _ _ => rfl).mono ?_
    rintro exchanges result ⟨reason, rfl⟩
    exact .unknown
  · rename_i hunsat hsat hunknown
    apply (conducts_ofExcept (.error _)).mono
    rintro exchanges result ⟨rfl, rfl⟩
    refine .refused ?_
    simp only [verdictTexts, List.mem_cons, List.not_mem_nil, or_false, not_or]
    exact ⟨hsat, hunsat, hunknown⟩

theorem conducts_checkSat :
    Conducts id checkSat fun exchanges result => ∃ reply later,
      exchanges = .asked checkSatCommand reply :: later ∧ Judged reply later result := by
  rw [checkSat_eq]
  refine (conducts_consult checkSatCommand).bind conducts_readVerdict ?_ ?_
  · intro exchanges failure h
    exact ⟨_, _, h, .unheard⟩
  · intro exchanges reply later result h hjudged
    refine ⟨_, later, ?_, hjudged⟩
    rw [h]
    rfl

/-! ### The start of a solver -/

def optionCommand (option : String × String) : SExpr :=
  .application "set-option" [.symbol (":" ++ option.1), .symbol option.2]

theorem configure_cons (option : String × String) (options : List (String × String)) :
    configure (option :: options) = send (optionCommand option) >>= fun _ => configure options := by
  change ((send (optionCommand option) >>= fun _ => options.forM _) >>= fun _ => _) = _
  rw [bind_assoc]
  rfl

/-- The options are told, and whatever the solver says of them is read up to the marker. -/
theorem conversation_of_configure {options : List (String × String)}
    (h : (configure options).run first = (.ok (), third)) :
    ∃ second reply,
      Conversation first (options.map fun option => .told (optionCommand option)) second ∧
        awaitReply.run second = (.ok reply, third) := by
  induction options generalizing first with
  | nil =>
      have hawait : (awaitReply >>= fun _ => pure ()).run first = (.ok (), third) := h
      rcases Action.run_bind_cases hawait with ⟨reply, last, hrun, hlast⟩ | ⟨failure, -, hfailure⟩
      · obtain ⟨-, rfl⟩ := Prod.mk.inj hlast
        exact ⟨first, reply, .nil, hrun⟩
      · contradiction
  | cons option options ih =>
      rw [configure_cons] at h
      rcases Action.run_bind_cases h with ⟨_, second, hsend, hrest⟩ | ⟨failure, -, hfailure⟩
      · obtain ⟨last, reply, hconversation, hawait⟩ := ih hrest
        exact ⟨last, reply, .told hsend hconversation, hawait⟩
      · contradiction

end Solver

namespace Smt

open Solver Dialogue

theorem start_eq_ok {host : Dialogue.Host} {program : String} {settings : Settings}
    {archive : Option Archive} (h : (Smt.start host program settings archive).1.isOk) :
    Smt.start host program settings archive =
      (.ok (), (Smt.start host program settings archive).2) := by
  rcases hstart : Smt.start host program settings archive with ⟨failure | _, smt⟩
  · rw [hstart] at h
    contradiction
  · rfl

/-- A solver that starts takes its options. -/
theorem configure_of_start {host : Dialogue.Host} {program : String} {settings : Settings}
    {archive : Option Archive} {smt : Smt}
    (h : Smt.start host program settings archive = (.ok (), smt)) :
    ∃ behaviour, host program = some behaviour ∧
      (configure (settings.enforced.invocation program).options).run
        { connection := { behaviour }, archive,
          log := [.comment (settings.enforced.invocation program).commandLine] } =
        (.ok (), smt.dialogue) := by
  have hprogram : (settings.enforced.invocation program).program = program := by
    unfold Settings.invocation Invocation.timeout
    split <;> rfl
  obtain ⟨hstart, hsmt⟩ := Prod.mk.inj h
  have hdialogue : Dialogue.start host (settings.enforced.invocation program) archive =
      (.ok (), smt.dialogue) := Prod.ext hstart (congrArg Smt.dialogue hsmt)
  rw [Dialogue.start, hprogram] at hdialogue
  cases hhost : host program with
  | none =>
      rw [hhost] at hdialogue
      simp at hdialogue
  | some behaviour =>
      rw [hhost] at hdialogue
      exact ⟨behaviour, rfl, hdialogue⟩

theorem conversation_of_start {host : Dialogue.Host} {program : String} {settings : Settings}
    {archive : Option Archive} {smt : Smt}
    (h : Smt.start host program settings archive = (.ok (), smt)) :
    ∃ behaviour log, host program = some behaviour ∧
      (∀ entry ∈ log, ∃ text, entry = .comment text) ∧
      ∃ told reply,
        Conversation { connection := { behaviour }, log, archive }
          ((settings.enforced.invocation program).options.map
            fun option => .told (optionCommand option)) told ∧
        awaitReply.run told = (.ok reply, smt.dialogue) := by
  obtain ⟨behaviour, hhost, hconfigure⟩ := configure_of_start h
  obtain ⟨told, reply, hconversation, hawait⟩ := conversation_of_configure hconfigure
  exact ⟨behaviour, _, hhost, by simp, told, reply, hconversation, hawait⟩

end Smt

end SmtSession
