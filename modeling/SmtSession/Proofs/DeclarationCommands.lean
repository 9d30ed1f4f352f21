import SmtSession.Proofs.FailedDeclarations
import SmtSession.Proofs.SessionAgreement

/-!
# The declarations a solver is sent

A declaration that succeeds is one command to the solver, and any other is none. So the solver gets
the declarations in the order of the signature, and every sort before it is used. Constants and
functions have namespaces of their own in the signature, but a solver tells its symbols apart by
name and argument sorts: a function without inputs that has the name of a constant is declared to it
a second time.
-/

namespace SmtSession

open Solver

def declareSortCommand (name : String) : SExpr :=
  .application "declare-sort" [.symbol name, .numeral 0]

def declareFunCommand (name : String) (domain : List SExpr) (range : SExpr) : SExpr :=
  .application "declare-fun" [.symbol name, .list domain, range]

namespace Declaration

/-- What a solver is told of a declaration. Only functions with one output can be told. -/
def command? : Declaration → Option SExpr
  | .type name => some (declareSortCommand name)
  | .constant content => some (declareFunCommand content.name [] content.ty.toSort)
  | .global content => some (declareFunCommand content.name [] content.ty.toSort)
  | .function content =>
    match content.outputs with
    | [range] =>
      some (declareFunCommand content.name (content.inputs.map Ty.toSort) range.toSort)
    | _ => none

variable {declaration : Declaration} {name : String} {domain : List SExpr} {range : SExpr}

theorem exists_command? (h : declaration.HasRange) :
    ∃ command, declaration.command? = some command := by
  cases declaration with
  | type name => exact ⟨_, rfl⟩
  | constant content => exact ⟨_, rfl⟩
  | global content => exact ⟨_, rfl⟩
  | function content =>
      obtain ⟨range, hrange⟩ := List.length_eq_one_iff.mp h
      rw [command?, hrange]
      exact ⟨_, rfl⟩

theorem declareFunCommand_inj {name' : String} {domain' : List SExpr} {range' : SExpr}
    (h : declareFunCommand name domain range = declareFunCommand name' domain' range') :
    name = name' ∧ domain = domain' ∧ range = range' := by
  simpa [declareFunCommand, SExpr.application] using h

theorem declareSortCommand_ne {name' : String} :
    declareSortCommand name' ≠ declareFunCommand name domain range := by
  simp [declareSortCommand, declareFunCommand, SExpr.application]

theorem of_command?_function {content : Function} {command : SExpr}
    (h : (Declaration.function content).command? = some command) :
    ∃ output, content.outputs = [output] ∧
      command = declareFunCommand content.name (content.inputs.map Ty.toSort) output.toSort := by
  rw [command?] at h
  split at h
  · rename_i output houtput
    exact ⟨output, houtput, (Option.some.inj h).symm⟩
  · contradiction

theorem command?_of_symbol (h : declaration.space = .symbols) :
    ∃ range, declaration.command? = some (declareFunCommand declaration.name [] range) := by
  cases declaration with
  | constant content => exact ⟨_, rfl⟩
  | global content => exact ⟨_, rfl⟩
  | type name => contradiction
  | function content => contradiction

/-- The sorts of a command are those of the types in the declaration, and the declaration is of a
symbol without arguments or of a function. -/
theorem of_command? (h : declaration.command? = some (declareFunCommand name domain range)) :
    declaration.name = name ∧ domain ++ [range] = declaration.tys.map Ty.toSort ∧
      ((declaration.space = .symbols ∧ domain = []) ∨
        ∃ inputs output, declaration = .function ⟨name, inputs, [output]⟩) := by
  cases declaration with
  | type name' =>
      exact absurd (Option.some.inj h) declareSortCommand_ne
  | constant content =>
      obtain ⟨rfl, rfl, rfl⟩ := declareFunCommand_inj (Option.some.inj h)
      exact ⟨rfl, rfl, Or.inl ⟨rfl, rfl⟩⟩
  | global content =>
      obtain ⟨rfl, rfl, rfl⟩ := declareFunCommand_inj (Option.some.inj h)
      exact ⟨rfl, rfl, Or.inl ⟨rfl, rfl⟩⟩
  | function content =>
      obtain ⟨output, houtput, hcommand⟩ := of_command?_function h
      obtain ⟨rfl, rfl, rfl⟩ := declareFunCommand_inj hcommand
      obtain ⟨name, inputs, outputs⟩ := content
      obtain rfl : outputs = [output] := houtput
      exact ⟨rfl, by simp [tys], Or.inr ⟨inputs, output, rfl⟩⟩

end Declaration

namespace Session

open Declaration (namesIn)

variable {session session' : Session Smt} {declaration : Declaration} {command : SExpr}

/-- One command for a declaration goes to the solver, or it cannot be written and all is as
before. -/
inductive Sent (command : SExpr) (smt : Smt) : Except Solver.Failure Unit × Smt → Prop
  | taken {smt' : Smt} : Conversation smt.dialogue [.told command] smt'.dialogue →
      Sent command smt (.ok (), smt')
  | lost : Sent command smt (.error (.channel .broken), smt)

theorem sent_send (command : SExpr) (smt : Smt) :
    Sent command smt ((Smt.send command).run smt) := by
  rcases Smt.told_cases command smt with ⟨told, hsend, htold⟩ | hsend
  · rw [hsend]
    exact .taken htold
  · rw [hsend]
    exact .lost

/-- What is noted of a constant after its command changes nothing in the dialogue. -/
theorem sent_declareConst (name : String) (ty : Ty) (smt : Smt) :
    Sent (declareFunCommand name [] ty.toSort) smt ((Smt.declareConst name ty).run smt) := by
  rw [Smt.declareConst, ← declareFunCommand]
  rcases Smt.told_cases (declareFunCommand name [] ty.toSort) smt with
    ⟨told, hsend, htold⟩ | hsend
  · rw [Action.run_bind_ok hsend]
    split
    · exact .taken htold
    · exact .taken htold
  · rw [Action.run_bind_error hsend]
    exact .lost

theorem sent_declareTo (h : declaration.command? = some command) (smt : Smt) :
    Sent command smt ((declareTo declaration).run smt) := by
  cases declaration with
  | type name =>
      obtain rfl := Option.some.inj h
      exact sent_send _ smt
  | constant content =>
      obtain rfl := Option.some.inj h
      exact sent_declareConst content.name content.ty smt
  | global content =>
      obtain rfl := Option.some.inj h
      exact sent_declareConst content.name content.ty smt
  | function content =>
      obtain ⟨output, houtput, rfl⟩ := Declaration.of_command?_function h
      rw [declareTo, houtput]
      exact sent_send _ smt

theorem sent_of_check {signature : Signature} (hcheck : signature.check declaration = .ok ())
    (smt : Smt) :
    ∃ command, declaration.command? = some command ∧
      Sent command smt ((declareTo declaration).run smt) := by
  obtain ⟨command, hcommand⟩ := Declaration.exists_command? (Signature.hasRange_of_check hcheck)
  exact ⟨command, hcommand, sent_declareTo hcommand smt⟩

/-- A declaration is lost only where nothing can be written. -/
theorem DeclareOutcome.failure_eq {failure : Solver.Failure}
    (h : DeclareOutcome session declaration (.error (.solver failure)) session') :
    failure = .channel .broken ∧ session'.engine = session.engine := by
  cases h with
  | lost hcheck hrun =>
      obtain ⟨command, -, hsent⟩ := sent_of_check hcheck session.engine
      rw [hrun] at hsent
      cases hsent with
      | lost => exact ⟨rfl, rfl⟩

theorem DeclareOutcome.conversation {result : Except Failure Unit}
    (h : DeclareOutcome session declaration result session') :
    ∃ commands : List SExpr,
      Conversation session.engine.dialogue (commands.map .told) session'.engine.dialogue ∧
      (succeeded [(declaration, result)]).map Declaration.command? = commands.map some := by
  cases h with
  | refused _ => exact ⟨[], .nil, rfl⟩
  | taken hcheck hrun =>
      obtain ⟨command, hcommand, hsent⟩ := sent_of_check hcheck session.engine
      rw [hrun] at hsent
      cases hsent with
      | taken htold => exact ⟨[command], htold, congrArg (fun image => [image]) hcommand⟩
  | lost hcheck hrun =>
      obtain ⟨-, hengine⟩ := (DeclareOutcome.lost hcheck hrun).failure_eq
      refine ⟨[], ?_, rfl⟩
      rw [hengine]
      exact .nil

/-- Whatever the solver does, it is sent one command for each declaration that succeeds, and no
other. -/
theorem conversation_of_declareAll (attempts : List Declaration) (session : Session Smt) :
    ∃ commands : List SExpr,
      Conversation session.engine.dialogue (commands.map .told)
        (declareAll attempts session).2.engine.dialogue ∧
      (succeeded (declareAll attempts session).1).map Declaration.command? =
        commands.map some := by
  induction attempts generalizing session with
  | nil => exact ⟨[], .nil, rfl⟩
  | cons declaration attempts ih =>
      obtain ⟨first, hfirst, hcommand⟩ := (declare_outcome declaration session).conversation
      obtain ⟨rest, hrest, hcommands⟩ := ih ((Session.declare declaration).run session).2
      refine ⟨first ++ rest, ?_, ?_⟩
      · rw [List.map_append]
        exact hfirst.append hrest
      · rw [declareAll, succeeded_cons, List.map_append, List.map_append, hcommand, hcommands]

/-- If every write succeeds, the solver got all that is recorded. -/
theorem declarations_eq_succeeded {attempts : List Declaration} {smt : Smt} {settings : Settings}
    (hunbroken : ∀ outcome ∈ (declareAll attempts (start smt settings)).1, Unbroken outcome.2) :
    (declareAll attempts (start smt settings)).2.signature.declarations =
      succeeded (declareAll attempts (start smt settings)).1 := by
  have hpassed := declarations_declareAll attempts (start smt settings)
  rw [← (passedOn_eq_succeeded_iff attempts (start smt settings)).mpr]
  · exact hpassed
  · intro declaration failure hmem
    obtain ⟨before, after, houtcome⟩ := outcome_of_mem hmem
    exact hunbroken _ hmem (by rw [houtcome.failure_eq.1])

/-! ### Sorts -/

/-- Every name in the sorts of a command is one that the solver knows, or that of a sort declared
before. -/
theorem declared_before_use {signature : Signature} (h : signature.Consistent)
    {commands earlier later : List SExpr} {name text : String} {domain : List SExpr}
    {range sort : SExpr}
    (hcommands : signature.declarations.map Declaration.command? = commands.map some)
    (hsplit : commands = earlier ++ declareFunCommand name domain range :: later)
    (hsort : sort ∈ domain ++ [range]) (htext : sort.Holds text) :
    text ∈ Ty.solverSorts ∨ declareSortCommand text ∈ earlier := by
  rw [hsplit, List.map_append, List.map_cons, List.map_eq_append_iff] at hcommands
  obtain ⟨before, rest, hdeclarations, hbefore, hrest⟩ := hcommands
  obtain ⟨declaration, after, rfl, hcommand, -⟩ := List.map_eq_cons_iff.mp hrest
  obtain ⟨-, hsorts, -⟩ := Declaration.of_command? hcommand
  rw [hsorts] at hsort
  obtain ⟨ty, hty, rfl⟩ := List.mem_map.mp hsort
  rcases Ty.mentions_or_mem_of_holds_toSort htext with hmentions | hknown
  · right
    have hdeclared := h.declared_before _ _ _ hdeclarations text ⟨ty, hty, hmentions⟩
    have himage : some (declareSortCommand text) ∈ earlier.map some :=
      hbefore ▸ List.mem_map_of_mem hdeclared
    simpa using himage
  · exact Or.inl hknown

/-- If every write succeeds, the solver is sent exactly the declarations of the signature, one
command each and in order; a declaration that is refused sends nothing. In the sorts of each command
stand only names that the solver knows and sorts declared before it: the sort for a type names the
declared types the type mentions, and otherwise only what a solver knows. -/
theorem commands_of_declarations (smt : Smt) (settings : Settings) (attempts : List Declaration)
    (hunbroken : ∀ outcome ∈ (declareAll attempts (start smt settings)).1, Unbroken outcome.2) :
    let session := (declareAll attempts (start smt settings)).2
    (∃ commands : List SExpr,
      Conversation smt.dialogue (commands.map .told) session.engine.dialogue ∧
      session.engine.dialogue.log = smt.dialogue.log ++ commands ∧
      session.signature.declarations.map Declaration.command? = commands.map some ∧
      ∀ earlier name domain range later,
        commands = earlier ++ declareFunCommand name domain range :: later →
        ∀ sort ∈ domain ++ [range], ∀ text, sort.Holds text →
          text ∈ Ty.solverSorts ∨ declareSortCommand text ∈ earlier) ∧
    (∀ declaration, isRefusal ((Session.declare declaration).run session).1 →
      ((Session.declare declaration).run session).2 = session) ∧
    ∀ ty : Ty, (∀ name ∈ ty.names, ty.toSort.Holds name) ∧
      ∀ text, ty.toSort.Holds text → text ∈ ty.names ∨ text ∈ Ty.solverSorts := by
  intro session
  have hconsistent : session.signature.Consistent := consistent_declareAll attempts smt settings
  refine ⟨?_, ?_, ?_⟩
  · obtain ⟨commands, hconversation, hcommands⟩ :=
      conversation_of_declareAll attempts (start smt settings)
    rw [← declarations_eq_succeeded hunbroken] at hcommands
    refine ⟨commands, hconversation, ?_, hcommands, ?_⟩
    · have hlog := hconversation.log_eq
      rwa [List.map_map, show Exchange.command ∘ Exchange.told = id from rfl, List.map_id] at hlog
    · intro earlier name domain range later hsplit sort hsort text htext
      exact declared_before_use hconsistent hcommands hsplit hsort htext
  · intro declaration hrefusal
    exact (declare_outcome declaration session).eq_of_isRefusal hrefusal
  · intro ty
    refine ⟨fun name hname => ?_, fun text htext => ?_⟩
    · exact Ty.holds_toSort_of_mentions (Ty.mem_names_iff.mp hname)
    · rw [Ty.mem_names_iff]
      exact Ty.mentions_or_mem_of_holds_toSort htext

/-- A solver that takes everything in silence. -/
def silentSmt : Smt := { dialogue := { connection := { behaviour := fun _ => {} } }, limit := 1 }

theorem commands_of_declarations_nested :
    let attempts : List Declaration := [.constant ⟨"early", .named "T", false⟩, .type "T",
      .global ⟨"heap", .map [.named "T", .int] (.map [] (.named "T"))⟩, .type "T",
      .function ⟨"pair", [.named "T"], [.bool, .real]⟩,
      .function ⟨"next", [.named "T"], [.bitVector 8]⟩]
    let run := declareAll attempts (start silentSmt {})
    (∀ outcome ∈ run.1, Unbroken outcome.2) ∧
      run.2.engine.dialogue.log = [declareSortCommand "T",
        declareFunCommand "heap" [] (.application "Array" [.symbol "T",
          .application "Array" [.symbol "Int", .symbol "T"]]),
        declareFunCommand "next" [.symbol "T"]
          (.application "_" [.symbol "BitVec", .numeral 8])] := by
  intro attempts run
  have hunbroken : ∀ outcome ∈ run.1, Unbroken outcome.2 := by
    decide +kernel
  obtain ⟨⟨commands, -, hlog, hcommands, -⟩, -⟩ :=
    commands_of_declarations silentSmt {} attempts hunbroken
  refine ⟨hunbroken, hlog.trans ?_⟩
  exact (List.map_inj_right fun _ _ => Option.some.inj).mp hcommands.symm

/-! ### Symbols -/

theorem sublist_pair {α : Type} {first second : α} {items : List α} (hfirst : first ∈ items)
    (hsecond : second ∈ items) (hne : first ≠ second) :
    [first, second].Sublist items ∨ [second, first].Sublist items := by
  obtain ⟨before, after, rfl⟩ := List.append_of_mem hfirst
  rcases List.mem_append.mp hsecond with hbefore | hrest
  · right
    exact (List.singleton_sublist.mpr hbefore).append
      (List.singleton_sublist.mpr List.mem_cons_self)
  · left
    rcases List.mem_cons.mp hrest with heq | hafter
    · exact absurd heq.symm hne
    · exact ((List.singleton_sublist.mpr hafter).cons_cons first).trans
        (List.sublist_append_right ..)

/-- Two declarations in one namespace take different names. -/
theorem name_ne_of_sublist {declarations : List Declaration} {first second : Declaration}
    (hnodup : ∀ space, (namesIn space declarations).Nodup)
    (hsublist : [first, second].Sublist declarations) (hspace : first.space = second.space) :
    first.name ≠ second.name := by
  have hnames := (hnodup second.space).sublist (Declaration.namesIn_sublist hsublist second.space)
  rw [namesIn, List.filter_cons_of_pos (by simp [hspace]), List.filter_cons_of_pos (by simp)]
    at hnames
  simpa using hnames

section Twice

variable {declarations : List Declaration} {commands : List SExpr} {first second : Declaration}
  {command' : SExpr} {name : String} {domain : List SExpr}

theorem commands_sublist (hcommands : declarations.map Declaration.command? = commands.map some)
    (hsublist : [first, second].Sublist declarations) (hfirst : first.command? = some command)
    (hsecond : second.command? = some command') : [command, command'].Sublist commands := by
  have himages := hsublist.map Declaration.command?
  rw [hcommands, List.map_cons, List.map_singleton, hfirst, hsecond] at himages
  obtain ⟨pair, hpair, heq⟩ := List.sublist_map_iff.mp himages
  have hsame : [command, command'] = pair :=
    (List.map_inj_right fun _ _ => Option.some.inj).mp heq
  rwa [hsame]

theorem declarations_sublist
    (hcommands : declarations.map Declaration.command? = commands.map some)
    (hsublist : [command, command'].Sublist commands) :
    ∃ first second, [first, second].Sublist declarations ∧ first.command? = some command ∧
      second.command? = some command' := by
  have himages := hsublist.map some
  rw [← hcommands] at himages
  obtain ⟨pair, hpair, heq⟩ := List.sublist_map_iff.mp himages
  obtain ⟨first, rest, rfl, hfirst, hrest⟩ := List.map_eq_cons_iff.mp heq.symm
  obtain ⟨second, rest, rfl, hsecond, hnil⟩ := List.map_eq_cons_iff.mp hrest
  obtain rfl := List.map_eq_nil_iff.mp hnil
  exact ⟨first, second, hpair, hfirst, hsecond⟩

/-- A symbol without arguments and a function have one command only where the function has no
inputs. -/
theorem function_without_inputs {inputs : List Ty} {output : Ty} {range : SExpr}
    (h : ([] : List SExpr) ++ [range] =
      (Declaration.function ⟨name, inputs, [output]⟩).tys.map Ty.toSort) : inputs = [] := by
  have hlength := congrArg List.length h
  simpa [Declaration.tys] using hlength

theorem twice_iff (hnodup : ∀ space, (namesIn space declarations).Nodup)
    (hcommands : declarations.map Declaration.command? = commands.map some) :
    (∃ range range', [declareFunCommand name domain range,
        declareFunCommand name domain range'].Sublist commands) ↔
      domain = [] ∧ name ∈ namesIn .symbols declarations ∧
        ∃ output, .function ⟨name, [], [output]⟩ ∈ declarations := by
  constructor
  · rintro ⟨range, range', hsublist⟩
    obtain ⟨first, second, hpair, hfirst, hsecond⟩ := declarations_sublist hcommands hsublist
    have hmem : first ∈ declarations ∧ second ∈ declarations := by
      simpa using hpair.subset
    obtain ⟨hname, htys, hkind⟩ := Declaration.of_command? hfirst
    obtain ⟨hname', htys', hkind'⟩ := Declaration.of_command? hsecond
    have hspace : first.space ≠ second.space := by
      intro hspace
      exact name_ne_of_sublist hnodup hpair hspace (hname.trans hname'.symm)
    rcases hkind with ⟨hsymbol, rfl⟩ | ⟨inputs, output, rfl⟩
    · rcases hkind' with ⟨hsymbol', -⟩ | ⟨inputs, output, rfl⟩
      · exact absurd (hsymbol.trans hsymbol'.symm) hspace
      · obtain rfl := function_without_inputs htys'
        exact ⟨rfl, Declaration.mem_namesIn_iff.mpr ⟨first, hmem.1, hsymbol, hname⟩, output, hmem.2⟩
    · rcases hkind' with ⟨hsymbol, rfl⟩ | ⟨inputs', output', rfl⟩
      · obtain rfl := function_without_inputs htys
        exact ⟨rfl, Declaration.mem_namesIn_iff.mpr ⟨second, hmem.2, hsymbol, hname'⟩, output,
          hmem.1⟩
      · exact absurd rfl hspace
  · rintro ⟨rfl, hname, output, hfunction⟩
    obtain ⟨symbol, hsymbol, hspace, rfl⟩ := Declaration.mem_namesIn_iff.mp hname
    obtain ⟨range, hcommand⟩ := Declaration.command?_of_symbol hspace
    have hcommand' : (Declaration.function ⟨symbol.name, [], [output]⟩).command? =
        some (declareFunCommand symbol.name [] output.toSort) := rfl
    have hne : symbol ≠ .function ⟨symbol.name, [], [output]⟩ := by
      intro heq
      rw [heq] at hspace
      contradiction
    rcases sublist_pair hsymbol hfunction hne with hpair | hpair
    · exact ⟨range, output.toSort, commands_sublist hcommands hpair hcommand hcommand'⟩
    · exact ⟨output.toSort, range, commands_sublist hcommands hpair hcommand' hcommand⟩

end Twice

/-- Whatever the solver does: it is sent the declarations that succeed, one command each, and two of
these declare the same symbol, by name and argument sorts, if and only if a constant or a global
variable and a function without inputs have that name. -/
theorem declared_twice_iff (smt : Smt) (settings : Settings) (attempts : List Declaration) :
    let run := declareAll attempts (start smt settings)
    ∃ commands : List SExpr,
      Conversation smt.dialogue (commands.map .told) run.2.engine.dialogue ∧
      (succeeded run.1).map Declaration.command? = commands.map some ∧
      ∀ name domain,
        (∃ range range', [declareFunCommand name domain range,
            declareFunCommand name domain range'].Sublist commands) ↔
          domain = [] ∧ name ∈ namesIn .symbols (succeeded run.1) ∧
            ∃ output, .function ⟨name, [], [output]⟩ ∈ succeeded run.1 := by
  intro run
  obtain ⟨commands, hconversation, hcommands⟩ :=
    conversation_of_declareAll attempts (start smt settings)
  refine ⟨commands, hconversation, hcommands, fun name domain => twice_iff ?_ hcommands⟩
  intro space
  have hpassed : run.2.signature.declarations = passedOn run.1 :=
    declarations_declareAll attempts (start smt settings)
  have hnodup := (consistent_declareAll attempts smt settings).nodup space
  rw [hpassed] at hnodup
  exact hnodup.sublist (Declaration.namesIn_sublist (succeeded_sublist_passedOn run.1) space)

/-- A constant and a function without inputs, declared one after the other. -/
theorem symbol_declared_twice :
    ¬∀ (smt : Smt) (settings : Settings) (attempts : List Declaration) (commands : List SExpr),
      let run := declareAll attempts (start smt settings)
      Conversation smt.dialogue (commands.map .told) run.2.engine.dialogue →
        (∀ outcome ∈ run.1, outcome.2 = .ok ()) →
        ∀ name domain range range', ¬[declareFunCommand name domain range,
          declareFunCommand name domain range'].Sublist commands := by
  intro hclaim
  let attempts : List Declaration := [.constant ⟨"c", .int, false⟩, .function ⟨"c", [], [.int]⟩]
  let command := declareFunCommand "c" [] (.symbol "Int")
  obtain ⟨commands, hconversation, hcommands⟩ :=
    conversation_of_declareAll attempts (start silentSmt {})
  have hsent : [command, command].map some = commands.map some := hcommands
  have hsame : [command, command] = commands :=
    (List.map_inj_right fun _ _ => Option.some.inj).mp hsent
  have haccepted : ∀ outcome ∈ (declareAll attempts (start silentSmt {})).1,
      outcome.2 = .ok () := by
    have hresults : (declareAll attempts (start silentSmt {})).1.map Prod.snd =
        [.ok (), .ok ()] := rfl
    intro outcome hmem
    have hresult : outcome.2 ∈ (declareAll attempts (start silentSmt {})).1.map Prod.snd :=
      List.mem_map.mpr ⟨outcome, hmem, rfl⟩
    rw [hresults] at hresult
    simpa using hresult
  refine hclaim silentSmt {} attempts commands hconversation haccepted "c" [] (.symbol "Int")
    (.symbol "Int") ?_
  exact hsame ▸ List.Sublist.refl _

end Session

end SmtSession
