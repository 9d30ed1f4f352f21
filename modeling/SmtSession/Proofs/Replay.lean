import SmtSession.Proofs.LegibleCommands
import SmtSession.Solver.Scripted

/-!
# Transcripts that replay a session

All that a session has a solver told is entered in the transcript of their dialogue. What a client
passes is read back from there if it is read back on its own, and a check ends it with a command. A
remark is written behind semicolons as it is: one that is longer than a line goes on between the
commands, and so does what the solver was started with.
-/

namespace SmtSession.Session

open Solver Dialogue Transcript SExpr Smt

def dialogue (session : Session Smt) : Dialogue := session.engine.dialogue

/-- Entries that are read back and ask for no verdict. -/
def Quiet (entry : SExpr) : Prop := (∃ exprs, Legible entry exprs) ∧ entry ≠ checkSatCommand

/-- Entries that are read back, unless they are clauses with values of the solver. -/
inductive Accounted : SExpr → Prop
  | legible {entry : SExpr} {exprs : List SExpr} (h : Legible entry exprs) : Accounted entry
  | clause {constants : List String} {model : Model} {clause : SExpr}
      (h : exclusion? constants model = some clause) : Accounted (assertCommand clause)

theorem accounted_of_quiet (entry : SExpr) (h : Quiet entry) : Accounted entry := by
  obtain ⟨⟨exprs, hlegible⟩, -⟩ := h
  exact .legible hlegible

theorem quiet_application {head : String} {args : List SExpr} (hhead : head ≠ "check-sat")
    {exprs : List SExpr} (h : Legible (.application head args) exprs) :
    Quiet (.application head args) := by
  refine ⟨⟨exprs, h⟩, ?_⟩
  intro heq
  have hargs : head = "check-sat" ∧ args = [] := by
    simpa [checkSatCommand, SExpr.application] using heq
  exact hhead hargs.1

theorem quiet_assert {formula : SExpr} (h : Writable formula) : Quiet (assertCommand formula) :=
  quiet_application (by decide) (legible_assert h)

theorem quiet_push : Quiet pushCommand :=
  quiet_application (by decide)
    (legible_application (by decide) (List.forall_mem_singleton.mpr (.numeral 1)))

theorem quiet_pop : Quiet popCommand :=
  quiet_application (by decide)
    (legible_application (by decide) (List.forall_mem_singleton.mpr (.numeral 1)))

theorem accounted_of_check (entry : SExpr) (h : CheckEntry entry) : Accounted entry := by
  cases h with
  | verdict => exact .legible (legible_application (by decide) nofun)
  | reason =>
      exact .legible (legible_application (by decide)
        (List.forall_mem_singleton.mpr (writable_word (by decide))))
  | labels => exact .legible (legible_application (by decide) nofun)
  | model => exact .legible (legible_application (by decide) nofun)
  | push => exact accounted_of_quiet _ quiet_push
  | pop => exact accounted_of_quiet _ quiet_pop
  | clause h => exact .clause h

theorem quiet_command {declaration : Declaration} {command : SExpr}
    (h : declaration.command? = some command) (hname : Readable declaration.name.toList)
    (hnames : ∀ name ∈ declaration.mentioned, Readable name.toList) : Quiet command := by
  have hsorts : ∀ ty ∈ declaration.tys, Writable ty.toSort := by
    intro ty hty
    exact writable_toSort fun name hname => hnames name (List.mem_flatMap.mpr ⟨ty, hty, hname⟩)
  cases declaration with
  | type name =>
      obtain rfl := Option.some.inj h
      exact quiet_application (by decide) (legible_declareSort hname)
  | constant content =>
      obtain rfl := Option.some.inj h
      exact quiet_application (by decide)
        (legible_declareFun hname nofun (hsorts content.ty (List.mem_singleton_self _)))
  | global content =>
      obtain rfl := Option.some.inj h
      exact quiet_application (by decide)
        (legible_declareFun hname nofun (hsorts content.ty (List.mem_singleton_self _)))
  | function content =>
      obtain ⟨output, houtput, rfl⟩ := Declaration.of_command?_function h
      rw [Declaration.tys, houtput, List.forall_mem_append] at hsorts
      exact quiet_application (by decide) (legible_declareFun hname
        (List.forall_mem_map.mpr hsorts.1) (hsorts.2 output (List.mem_singleton_self _)))

/-! ### Operations -/

/-- What the client passed so far is read back. -/
structure Plain (session : Session Smt) : Prop where
  axioms : ∀ formula ∈ session.axioms, read formula.print = .ok formula
  types : ∀ name ∈ session.signature.types, Readable name.toList

/-- The names and the formulas of an operation are read back from what they are written as. -/
def Operation.ReadsBack : Operation → Prop
  | .declare declaration =>
    read (symbol declaration.name).print = .ok (symbol declaration.name)
  | .assume formula | .assumeInFrame formula | .refuteInFrame formula =>
    read formula.print = .ok formula
  | .stageGoal _ goal | .checkGoal _ goal => read goal.print = .ok goal
  | .push | .pop | .checkAsserted _ | .outcome => True

/-- The remark that an operation makes. -/
def Operation.remark? : Operation → Option String
  | .stageGoal name _ => some ("prepare " ++ name)
  | .checkGoal name _ => some ("check " ++ name)
  | _ => none

/-- The name of the transcript that an operation saves. -/
def Operation.transcriptName? : Operation → Option String
  | .checkAsserted name | .checkGoal name _ => some name
  | _ => none

section Operations

variable {α : Type} {kind : SExpr → Prop} {session : Session Smt} {formula goal : SExpr}
  {name text : String} {operation : Operation} {operations : List Operation}

theorem Plain.theory_writable (h : session.Plain) : Writable session.theory :=
  writable_conjunction fun formula hmem => writable_of_read (h.axioms formula hmem)

theorem transcribes_call {action : Action Smt Solver.Failure α}
    (h : Transcribes Smt.dialogue anyState kind action) :
    Transcribes dialogue Plain kind (call action) :=
  h.onPart (fun _ => rfl) (fun _ _ => rfl) fun _ _ hplain => ⟨hplain.axioms, hplain.types⟩

theorem transcribes_modify {f : Session Smt → Session Smt}
    (hdialogue : ∀ session, (f session).dialogue = session.dialogue)
    (haxioms : ∀ session, (f session).axioms = session.axioms)
    (hsignature : ∀ session, (f session).signature = session.signature) :
    Transcribes dialogue Plain kind (.modify f : Action (Session Smt) Failure Unit) := by
  refine transcribes_same hdialogue fun session hplain => ⟨?_, ?_⟩
  · rw [Action.run_modify, haxioms]
    exact hplain.axioms
  · rw [Action.run_modify, hsignature]
    exact hplain.types

theorem transcribes_remark (htext : text ≠ "") (hline : '\n' ∉ text.toList) :
    Transcribes dialogue Plain Quiet (note (Engine.remark text)) := by
  intro session hplain
  refine ⟨?_, hplain.axioms, hplain.types⟩
  change Traced Quiet session.dialogue (session.dialogue.remark text)
  rcases enters_remark text session.dialogue with henters | hsame
  · refine ⟨_, henters, ?_⟩
    have hblank : Quiet (.comment "") := ⟨⟨_, .blank⟩, nofun⟩
    have hremark : Quiet (.comment text) := ⟨⟨_, .remark htext hline⟩, nofun⟩
    exact List.forall_mem_cons.mpr ⟨hblank, List.forall_mem_singleton.mpr hremark⟩
  · exact traced_of_eq hsame

theorem transcribes_push : Transcribes dialogue Plain Quiet push :=
  (transcribes_call (transcribes_sendCommand rfl quiet_push)).bind fun _ =>
    transcribes_modify (fun _ => rfl) (fun _ => rfl) fun _ => rfl

theorem transcribes_pop : Transcribes dialogue Plain Quiet pop := by
  refine transcribes_get_bind fun session _ => ?_
  split
  · exact transcribes_ofExcept _
  · refine (transcribes_call (transcribes_sendCommand rfl quiet_pop)).bind fun _ => ?_
    exact transcribes_modify (fun _ => rfl) (fun _ => rfl) fun _ => rfl

theorem transcribes_popMany (count : Nat) : Transcribes dialogue Plain Quiet (popMany count) := by
  induction count with
  | zero => exact transcribes_ofExcept _
  | succ count ih => exact transcribes_pop.bind fun _ => ih

theorem transcribes_dropGoal : Transcribes dialogue Plain Quiet dropGoal := by
  refine transcribes_get_bind fun session _ => ?_
  split
  · exact transcribes_popMany _
  · exact transcribes_ofExcept _

theorem transcribes_assertAxiom (h : Writable formula) :
    Transcribes dialogue Plain Quiet (call (Engine.assertAxiom formula)) :=
  transcribes_call (transcribes_sendCommand rfl (quiet_assert h))

theorem transcribes_assertConjecture (h : Writable formula) :
    Transcribes dialogue Plain Quiet (call (Engine.assertConjecture formula)) :=
  transcribes_call (transcribes_sendCommand rfl (quiet_assert (writable_negation h)))

theorem transcribes_loadTheory : Transcribes dialogue Plain Quiet loadTheory := by
  refine transcribes_get_bind fun session hplain => ?_
  split
  · refine (transcribes_assertAxiom hplain.theory_writable).bind fun _ => ?_
    exact transcribes_modify (fun _ => rfl) (fun _ => rfl) fun _ => rfl
  · exact transcribes_ofExcept _

theorem transcribes_assumeInFrame (h : Writable formula) :
    Transcribes dialogue Plain Quiet (assumeInFrame formula) :=
  transcribes_push.bind fun _ => transcribes_assertAxiom h

theorem transcribes_refuteInFrame (h : Writable formula) :
    Transcribes dialogue Plain Quiet (refuteInFrame formula) :=
  transcribes_push.bind fun _ => transcribes_assertConjecture h

theorem transcribes_stageGoal (hgoal : Writable goal) (hline : '\n' ∉ ("prepare " ++ name).toList) :
    Transcribes dialogue Plain Quiet (stageGoal name goal) := by
  refine (transcribes_remark (by simp) hline).bind fun _ => ?_
  refine transcribes_get_bind fun session hplain => ?_
  exact (transcribes_assumeInFrame hplain.theory_writable).bind fun _ =>
    transcribes_refuteInFrame hgoal

theorem transcribes_declareTo {declaration : Declaration} (hrange : declaration.HasRange)
    (hcommand : ∀ command, declaration.command? = some command → kind command) :
    Transcribes Smt.dialogue anyState kind (declareTo declaration) := by
  cases declaration with
  | type name => exact transcribes_sendCommand rfl (hcommand _ rfl)
  | constant content => exact transcribes_declareConst (hcommand _ rfl)
  | global content => exact transcribes_declareConst (hcommand _ rfl)
  | function content =>
      obtain ⟨range, houtputs⟩ := List.length_eq_one_iff.mp hrange
      rw [Declaration.command?, houtputs] at hcommand
      rw [declareTo, houtputs]
      exact transcribes_sendCommand rfl (hcommand _ rfl)

theorem DeclareOutcome.plain {declaration : Declaration} {result : Except Failure Unit}
    {session' : Session Smt} (h : DeclareOutcome session declaration result session')
    (hname : Readable declaration.name.toList) (hplain : session.Plain) : session'.Plain := by
  have hrecord : ∀ name ∈ (session.signature.record declaration).table .types,
      Readable name.toList := by
    intro name hmem
    rcases Signature.mem_table_record.mp hmem with ⟨-, rfl⟩ | hmem
    · exact hname
    · exact hplain.types name hmem
  cases h with
  | refused _ => exact hplain
  | taken _ _ => exact ⟨hplain.axioms, hrecord⟩
  | lost _ _ => exact ⟨hplain.axioms, hrecord⟩

/-- The types in a declaration that is accepted were declared before, so their names are read
back. -/
theorem transcribes_declare {declaration : Declaration} (hname : Readable declaration.name.toList) :
    Transcribes dialogue Plain Quiet (Session.declare declaration) := by
  intro session hplain
  have houtcome := declare_outcome declaration session
  refine ⟨?_, houtcome.plain hname hplain⟩
  have hpassed (hcheck : session.signature.check declaration = .ok ()) :
      Traced Quiet session.dialogue ((declareTo declaration).run session.engine).2.dialogue := by
    have hrange := Signature.hasRange_of_check hcheck
    refine (transcribes_declareTo hrange ?_ session.engine trivial).1
    intro command hcommand
    refine quiet_command hcommand hname fun type htype => ?_
    exact hplain.types type (Signature.mem_types_of_check hcheck htype)
  generalize ((Session.declare declaration).run session).1 = result at houtcome
  generalize ((Session.declare declaration).run session).2 = session' at houtcome
  cases houtcome with
  | refused _ => exact traced_refl _
  | taken hcheck hrun =>
      have htraced := hpassed hcheck
      rw [hrun] at htraced
      exact htraced
  | lost hcheck hrun =>
      have htraced := hpassed hcheck
      rw [hrun] at htraced
      exact htraced

theorem transcribes_assume (hformula : read formula.print = .ok formula) :
    Transcribes dialogue Plain kind (assume formula) := by
  refine transcribes_get_bind fun session _ => ?_
  split
  · exact transcribes_ofExcept _
  · refine transcribes_same (fun _ => rfl) fun session hplain => ⟨?_, hplain.types⟩
    exact List.forall_mem_append.mpr
      ⟨hplain.axioms, List.forall_mem_singleton.mpr hformula⟩

theorem transcribes_checkAsserted (name : String) :
    Transcribes dialogue Plain Accounted (checkAsserted name) := by
  have hclear : Transcribes dialogue Plain Accounted
      (.modify clear : Action (Session Smt) Failure Unit) :=
    transcribes_modify (fun _ => rfl) (fun _ => rfl) fun _ => rfl
  have hsave : Transcribes dialogue Plain Accounted (note (Engine.saveTranscript name)) := by
    intro session hplain
    exact ⟨⟨[], enters_saveTranscript name session.dialogue, nofun⟩, hplain.axioms, hplain.types⟩
  refine hclear.bind fun _ => ?_
  refine (transcribes_call (transcribes_check.mono accounted_of_check)).attempt.bind
    fun result => ?_
  refine hsave.bind fun _ => (transcribes_ofExcept result).bind fun report => ?_
  exact transcribes_modify (fun _ => rfl) (fun _ => rfl) fun _ => rfl

/-- The check of a goal up to the check itself. -/
def setGoal (name : String) (goal : SExpr) : Action (Session Smt) Failure Unit := do
  dropGoal
  loadTheory
  note (Engine.remark ("check " ++ name))
  push
  .modify fun session => { session with goalDepth := some session.depth }
  call (Engine.assertConjecture goal)

theorem checkGoal_eq_setGoal (name : String) (goal : SExpr) :
    checkGoal name goal = setGoal name goal >>= fun _ => checkAsserted name := by
  simp only [checkGoal, setGoal, bind_assoc]

theorem transcribes_setGoal (hgoal : Writable goal) (hline : '\n' ∉ ("check " ++ name).toList) :
    Transcribes dialogue Plain Quiet (setGoal name goal) := by
  refine transcribes_dropGoal.bind fun _ => transcribes_loadTheory.bind fun _ => ?_
  refine (transcribes_remark (by simp) hline).bind fun _ => transcribes_push.bind fun _ => ?_
  have hlevel : Transcribes dialogue Plain Quiet
      (.modify fun session => { session with goalDepth := some session.depth } :
        Action (Session Smt) Failure Unit) :=
    transcribes_modify (fun _ => rfl) (fun _ => rfl) fun _ => rfl
  exact hlevel.bind fun _ => transcribes_assertConjecture hgoal

theorem transcribes_perform (hread : operation.ReadsBack)
    (hline : ∀ text, operation.remark? = some text → '\n' ∉ text.toList) :
    Transcribes dialogue Plain Accounted operation.perform := by
  cases operation with
  | declare declaration =>
      exact (transcribes_declare (readable_of_read hread)).mono accounted_of_quiet
  | assume formula => exact transcribes_assume hread
  | push => exact transcribes_push.mono accounted_of_quiet
  | pop => exact transcribes_pop.mono accounted_of_quiet
  | assumeInFrame formula =>
      exact (transcribes_assumeInFrame (writable_of_read hread)).mono accounted_of_quiet
  | refuteInFrame formula =>
      exact (transcribes_refuteInFrame (writable_of_read hread)).mono accounted_of_quiet
  | stageGoal name goal =>
      exact (transcribes_stageGoal (writable_of_read hread) (hline _ rfl)).mono
        accounted_of_quiet
  | checkAsserted name => exact transcribes_checkAsserted name
  | checkGoal name goal =>
      rw [Operation.perform, checkGoal_eq_setGoal]
      exact ((transcribes_setGoal (writable_of_read hread) (hline _ rfl)).mono
        accounted_of_quiet).bind fun _ => transcribes_checkAsserted name
  | outcome => exact transcribes_ofExcept _

theorem traced_performAll (hplain : session.Plain)
    (hread : ∀ operation ∈ operations, operation.ReadsBack)
    (hline : ∀ operation ∈ operations, ∀ text, operation.remark? = some text → '\n' ∉ text.toList) :
    Traced Accounted session.dialogue (performAll operations session).2.dialogue ∧
      (performAll operations session).2.Plain := by
  induction operations generalizing session with
  | nil => exact ⟨traced_refl _, hplain⟩
  | cons operation operations ih =>
      obtain ⟨hreadFirst, hreadRest⟩ := List.forall_mem_cons.mp hread
      obtain ⟨hlineFirst, hlineRest⟩ := List.forall_mem_cons.mp hline
      obtain ⟨hfirst, hmiddle⟩ := transcribes_perform hreadFirst hlineFirst session hplain
      obtain ⟨hrest, hlast⟩ := ih hmiddle hreadRest hlineRest
      exact ⟨hfirst.trans hrest, hlast⟩

end Operations

/-! ### Checks -/

section Checks

variable {session : Session Smt} {name : String} {operation : Operation} {first last : Dialogue}
  {entries : List SExpr}

theorem dialogue_checkAsserted (name : String) (session : Session Smt) :
    ((checkAsserted name).run session).2.dialogue =
      ((Smt.check.run session.engine).2.dialogue.saveTranscript name).2 := by
  rcases hrun : Smt.check.run session.engine with ⟨failure | report, engine⟩
  · rw [run_checkAsserted_error hrun]
    rfl
  · rw [run_checkAsserted_ok hrun]
    rfl

theorem endsInCommand_of_check (h : first.Enters entries last)
    (hentries : ∀ entry ∈ entries, CheckEntry entry) (hsome : entries ≠ []) :
    EndsInCommand last.log := by
  refine ⟨entries.getLast hsome, ?_, (hentries _ (List.getLast_mem hsome)).isComment_eq⟩
  rw [h.log_eq, List.getLast?_append_of_ne_nil _ hsome, List.getLast?_eq_some_getLast hsome]

/-- The transcript is saved after entries that are accounted for, the last of them a command. -/
def Saves (session : Session Smt) (name : String) (final : Dialogue) : Prop :=
  ∃ checked, Traced Accounted session.dialogue checked ∧ EndsInCommand checked.log ∧
    final = (checked.saveTranscript name).2

/-- No verdict is asked for in the entries before the check, so it is in those of the check, and
they end the transcript. -/
theorem saves_of_checkAsserted {middle : Session Smt}
    (h : Traced Quiet session.dialogue middle.dialogue)
    (hwritten : checkSatCommand ∈
      ((checkAsserted name).run middle).2.dialogue.log.drop session.dialogue.log.length) :
    session.Saves name ((checkAsserted name).run middle).2.dialogue := by
  obtain ⟨earlier, henters, hquiet⟩ := h
  obtain ⟨⟨entries, hcheck, hentries⟩, -⟩ := transcribes_check middle.engine trivial
  have hboth := henters.append hcheck
  have hsaved := enters_saveTranscript name (Smt.check.run middle.engine).2.dialogue
  rw [dialogue_checkAsserted] at hwritten ⊢
  rw [hsaved.log_eq, List.append_nil, hboth.log_eq, List.drop_left, List.mem_append] at hwritten
  have hverdict : checkSatCommand ∈ entries :=
    hwritten.resolve_left fun hmem => (hquiet _ hmem).2 rfl
  refine ⟨_, ⟨_, hboth, List.forall_mem_append.mpr ⟨?_, ?_⟩⟩, ?_, rfl⟩
  · exact fun entry hmem => accounted_of_quiet entry (hquiet entry hmem)
  · exact fun entry hmem => accounted_of_check entry (hentries entry hmem)
  · exact endsInCommand_of_check hcheck hentries (List.ne_nil_of_mem hverdict)

theorem saves_of_checkGoal {goal : SExpr} (hplain : session.Plain) (hgoal : Writable goal)
    (hline : '\n' ∉ ("check " ++ name).toList)
    (hwritten : checkSatCommand ∈
      ((checkGoal name goal).run session).2.dialogue.log.drop session.dialogue.log.length) :
    session.Saves name ((checkGoal name goal).run session).2.dialogue := by
  obtain ⟨htraced, -⟩ := transcribes_setGoal hgoal hline session hplain
  rw [checkGoal_eq_setGoal] at hwritten ⊢
  rcases hset : (setGoal name goal).run session with ⟨failure | _, middle⟩
  · rw [hset] at htraced
    obtain ⟨earlier, henters, hquiet⟩ := htraced
    rw [Action.run_bind_error hset, henters.log_eq, List.drop_left] at hwritten
    exact absurd rfl (hquiet _ hwritten).2
  · rw [hset] at htraced
    rw [Action.run_bind_ok hset] at hwritten ⊢
    exact saves_of_checkAsserted htraced hwritten

theorem saves_of_perform (hplain : session.Plain) (hread : operation.ReadsBack)
    (hline : ∀ text, operation.remark? = some text → '\n' ∉ text.toList)
    (hname : operation.transcriptName? = some name)
    (hwritten : checkSatCommand ∈
      (operation.perform.run session).2.dialogue.log.drop session.dialogue.log.length) :
    session.Saves name (operation.perform.run session).2.dialogue := by
  cases operation with
  | checkAsserted other =>
      obtain rfl : other = name := Option.some.inj hname
      exact saves_of_checkAsserted (traced_refl _) hwritten
  | checkGoal other goal =>
      obtain rfl : other = name := Option.some.inj hname
      exact saves_of_checkGoal hplain (writable_of_read hread) (hline _ rfl) hwritten
  | _ => cases hname

end Checks

/-! ### What is saved -/

/-- But for comments, a text is read as the commands that were written to a solver since it was
started, in order. -/
def Replays (behaviour : Behaviour) (connection : Connection) (text : String) : Prop :=
  ∃ messages exprs, ({ behaviour } : Connection).Heard messages connection ∧
    readMany text = .ok exprs ∧
    List.Forall₂ Rereads (messages.filterMap Message.command?) (exprs.filter (!·.isComment))

/-- Every command in a text that replays was read by the solver. -/
theorem Replays.mem_received {behaviour : Behaviour} {connection : Connection} {text : String}
    {exprs : List SExpr} {expr : SExpr} {line : List Char} {rest : List (List Char)}
    (h : Replays behaviour connection text) (hread : readMany text = .ok exprs)
    (hmem : expr ∈ exprs.filter (!·.isComment)) (hlines : Text.lines expr.chars = line :: rest) :
    String.ofList line ∈ connection.received := by
  obtain ⟨messages, exprs', hheard, hread', hrereads⟩ := h
  obtain rfl : exprs = exprs' := Except.ok.inj (hread.symm.trans hread')
  obtain ⟨command, hcommand, -, hprint⟩ := exists_rereads hrereads hmem
  obtain ⟨message, hmessage, hcontent⟩ := List.mem_filterMap.mp hcommand
  cases message with
  | request => contradiction
  | command content =>
      obtain rfl : content = command := Option.some.inj hcontent
      rw [String.ofList_injective hprint] at hlines
      exact hheard.mem_received hmessage hlines

theorem isComment_of_exclusion {constants : List String} {model : Model} {clause : SExpr}
    (h : exclusion? constants model = some clause) : clause.isComment = false := by
  unfold exclusion? at h
  split at h
  · contradiction
  · obtain rfl := Option.some.inj h
    rfl

theorem saved_saveTranscript {dialogue : Dialogue} {archive : Archive} (name : String)
    (h : dialogue.archive = some archive) :
    ∃ saved, (dialogue.saveTranscript name).2.archive = some saved ∧
      (archive.writable → Archive.fits (fileStem name) →
        (fileStem name, render dialogue.log) ∈ saved.files) := by
  unfold Dialogue.saveTranscript
  rw [h]
  refine ⟨_, rfl, fun hwritable hfits => ?_⟩
  simp only [Archive.save, hwritable, hfits, Bool.and_self, if_true]
  split
  · rename_i hcontains
    exact List.contains_iff_mem.mp hcontains
  · exact List.mem_append_right _ (List.mem_singleton_self _)

/-- Whatever the solver does and whichever writes fail: once a check has asked for its verdict, the
transcript that is saved is read as exactly the commands written to the solver. For this the line
that the solver was started with and the remarks with the names of goals have to be single lines,
and the values of the solver in the clauses of a search have to be read back. -/
theorem transcript_replays {host : Host} {program : String} {settings : Settings}
    {archive : Archive} {smt : Smt} {operations : List Operation} {operation : Operation}
    {name : String}
    (hstart : Smt.start host program settings (some archive) = (.ok (), smt))
    (hprogram : '\n' ∉ program.toList)
    (hname : operation.transcriptName? = some name)
    (hread : ∀ operation' ∈ operations ++ [operation], operation'.ReadsBack)
    (hline : ∀ operation' ∈ operations ++ [operation], ∀ text, operation'.remark? = some text →
      '\n' ∉ text.toList) :
    let session := (performAll operations (start smt settings)).2
    let final := (operation.perform.run session).2.dialogue
    checkSatCommand ∈ final.log.drop session.dialogue.log.length →
    (∀ constants model clause, exclusion? constants model = some clause →
      assertCommand clause ∈ final.log → ∃ expr, Rereads clause expr) →
    ∃ behaviour saved, host program = some behaviour ∧ final.archive = some saved ∧
      (archive.writable → Archive.fits (fileStem name) →
        (fileStem name, render final.log) ∈ saved.files) ∧
      Replays behaviour final.connection (render final.log) := by
  intro session final hwritten hclauses
  have hoptions : ∀ option ∈ (settings.enforced.invocation program).options,
      Accounted (optionCommand option) :=
    fun option hmem => (exists_legible_option hmem).elim fun _ => .legible
  obtain ⟨behaviour, hhost, hopened⟩ := traced_start hstart hoptions
  obtain ⟨hreadBefore, hreadLast⟩ := List.forall_mem_append.mp hread
  obtain ⟨hlineBefore, hlineLast⟩ := List.forall_mem_append.mp hline
  have hfresh : (start smt settings).Plain := ⟨nofun, nofun⟩
  obtain ⟨hperformed, hplain⟩ := traced_performAll hfresh hreadBefore hlineBefore
  obtain ⟨checked, hchecked, hends, (hfinal : final = _)⟩ :=
    saves_of_perform hplain (List.forall_mem_singleton.mp hreadLast)
      (List.forall_mem_singleton.mp hlineLast) hname hwritten
  obtain ⟨entries, henters, haccounted⟩ := (hopened.trans hperformed).trans hchecked
  have hsave := enters_saveTranscript name checked
  have hlog : final.log = checked.log := by
    rw [hfinal, hsave.log_eq, List.append_nil]
  have hlegible : ∀ entry ∈ checked.log, ∃ exprs, Legible entry exprs := by
    intro entry hmem
    rw [henters.log_eq, List.mem_append, List.mem_singleton] at hmem
    rcases hmem with rfl | hmem
    · exact exists_legible_commandLine hprogram settings
    · cases haccounted entry hmem with
      | legible h => exact ⟨_, h⟩
      | @clause constants model clause h =>
          have hentered : assertCommand clause ∈ final.log := by
            rw [hlog, henters.log_eq]
            exact List.mem_append_right _ hmem
          obtain ⟨expr, hrereads⟩ := hclauses _ _ _ h hentered
          exact ⟨_, legible_assert_of_rereads hrereads (isComment_of_exclusion h)⟩
  have hcommands : checked.log.filter (!·.isComment) = entries.filter (!·.isComment) := by
    rw [henters.log_eq, List.singleton_append, List.filter_cons_of_neg (by simp [isComment])]
  obtain ⟨messages, hheard, hmessages⟩ := (henters.append hsave).written
  obtain ⟨exprs, hexprs, hrereads⟩ := readMany_render hlegible hends
  obtain ⟨kept, hkept, hwritable⟩ := Option.map_eq_some_iff.mp henters.writable_eq
  obtain ⟨saved, hsaved, hfile⟩ := saved_saveTranscript name hkept
  rw [hwritable, ← hlog] at hfile
  rw [← hlog] at hexprs
  rw [hcommands, ← List.append_nil entries, ← hmessages] at hrereads
  refine ⟨behaviour, saved, hhost, ?_, hfile, messages, exprs, ?_, hexprs, hrereads⟩
  · rw [hfinal, hsaved]
  · rw [hfinal]
    exact hheard

/-- A solver that refutes one goal with one value. -/
def refutingOnce : Host := fun _ => some (Behaviour.scripted
  [.text "", .text "sat", .text "(labels)", .text "((define-fun x () Int 5))", .text "unsat"])

/-- The formula of a command that asserts one. -/
def asserted? : SExpr → Option SExpr
  | .list [.atom (.symbol "assert"), formula] => some formula
  | _ => none

theorem transcript_replays_clause :
    let settings : Settings := { counterexampleLimit := some 2, timeout := some 500 }
    let smt := (Smt.start refutingOnce "z3" settings (some { writable := true })).2
    let operations : List Operation := [.declare (.constant ⟨"x", .int, false⟩)]
    let operation : Operation :=
      .checkGoal "x < 5" (.application "<" [.symbol "x", .numeral 5])
    let final := (operation.perform.run (performAll operations (start smt settings)).2).2.dialogue
    assertCommand (.negation (.application "=" [.symbol "x", .numeral 5])) ∈ final.log ∧
      ∃ behaviour saved, refutingOnce "z3" = some behaviour ∧ final.archive = some saved ∧
        ("x___5", render final.log) ∈ saved.files ∧
        Replays behaviour final.connection (render final.log) := by
  intro settings smt operations operation final
  have hstart : Smt.start refutingOnce "z3" settings (some { writable := true }) = (.ok (), smt) :=
    start_eq_ok (by decide +kernel)
  have hread : ∀ operation' ∈ operations ++ [operation], operation'.ReadsBack := by
    refine List.forall_mem_cons.mpr ⟨?_, List.forall_mem_singleton.mpr ?_⟩
    · change read (symbol "x").print = .ok (symbol "x")
      decide +kernel
    · change read (SExpr.application "<" [symbol "x", numeral 5]).print = .ok _
      decide +kernel
  have hline : ∀ operation' ∈ operations ++ [operation], ∀ text,
      operation'.remark? = some text → '\n' ∉ text.toList := by
    refine List.forall_mem_cons.mpr ⟨nofun, List.forall_mem_singleton.mpr ?_⟩
    rintro text ⟨⟩
    decide
  have hasserted : ∀ formula ∈ final.log.filterMap asserted?,
      read formula.print = .ok formula := by
    decide +kernel
  have hclause {clause : SExpr} (hmem : assertCommand clause ∈ final.log) :
      Rereads clause clause :=
    ⟨hasserted clause (List.mem_filterMap.mpr ⟨_, hmem, rfl⟩), rfl⟩
  obtain ⟨behaviour, saved, hhost, hsaved, hfile, hreplays⟩ :=
    transcript_replays hstart (by decide) rfl hread hline (by decide +kernel)
      fun _ _ clause _ hmem => ⟨clause, hclause hmem⟩
  exact ⟨by decide +kernel, behaviour, saved, hhost, hsaved, hfile rfl (by decide), hreplays⟩

/-- The rest of a name that is longer than a line is read as commands that nobody wrote. -/
theorem remark_replayed :
    ¬∀ (host : Host) (program : String) (settings : Settings) (archive : Archive) (smt : Smt)
        (operations : List Operation) (operation : Operation) (name : String),
      Smt.start host program settings (some archive) = (.ok (), smt) →
      operation.transcriptName? = some name →
      (∀ operation' ∈ operations ++ [operation], operation'.ReadsBack) →
      let session := (performAll operations (start smt settings)).2
      let final := (operation.perform.run session).2.dialogue
      checkSatCommand ∈ final.log.drop session.dialogue.log.length →
      ∃ behaviour saved, host program = some behaviour ∧ final.archive = some saved ∧
        (archive.writable → Archive.fits (fileStem name) →
          (fileStem name, render final.log) ∈ saved.files) ∧
        Replays behaviour final.connection (render final.log) := by
  intro hclaim
  let host : Host := fun _ => some (Behaviour.scripted [.text "", .text "unsat"])
  let archive : Archive := { writable := true }
  let smt := (Smt.start host "z3" {} (some archive)).2
  let operation : Operation := .checkGoal "g\n(exit)" (.symbol "p")
  let final := (operation.perform.run (start smt {})).2.dialogue
  have hread : ∀ operation' ∈ [] ++ [operation], operation'.ReadsBack := by
    refine List.forall_mem_singleton.mpr ?_
    change read (symbol "p").print = .ok (symbol "p")
    decide +kernel
  obtain ⟨behaviour, saved, -, -, -, hreplays⟩ := hclaim host "z3" {} archive smt [] operation
    "g\n(exit)" (start_eq_ok (by decide +kernel)) rfl hread (by decide +kernel)
  have hlog : final.log =
      [.comment "z3 -in -smt2", optionCommand ("global-declarations", "true"),
        optionCommand ("produce-models", "true"), optionCommand ("model.completion", "false"),
        optionCommand ("well_sorted_check", "true"), assertCommand (.symbol "true"),
        .comment "", .comment "check g\n(exit)", pushCommand,
        assertCommand (.negation (.symbol "p")), checkSatCommand] := by
    decide +kernel
  have hexprs : readMany (render final.log) = .ok
      [.comment "; z3 -in -smt2", optionCommand ("global-declarations", "true"),
        optionCommand ("produce-models", "true"), optionCommand ("model.completion", "false"),
        optionCommand ("well_sorted_check", "true"), assertCommand (.symbol "true"),
        .comment "; check g", .application "exit" [], pushCommand,
        assertCommand (.negation (.symbol "p")), checkSatCommand] := by
    rw [hlog, readMany, toList_render]
    decide +kernel
  have hlines : Text.lines (SExpr.application "exit" []).chars = ["(exit)".toList] := by decide
  have hreceived := hreplays.mem_received hexprs (by decide) hlines
  exact absurd hreceived (by decide +kernel)

end SmtSession.Session
