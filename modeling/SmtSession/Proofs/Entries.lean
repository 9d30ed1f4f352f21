import SmtSession.Proofs.Listening

/-!
# What is written and what is entered

A dialogue enters a command as soon as it is written, and a remark where transcripts are kept. So
the commands that it wrote between two of its states are those it entered, whichever writes failed
on the way.
-/

namespace SmtSession

namespace Solver

def Message.command? : Message → Option SExpr
  | .command content => some content
  | .request => none

namespace Connection

def writeAll (messages : List Message) (connection : Connection) :
    Except ChannelFault Connection :=
  messages.foldlM (fun connection message => connection.writeLine message.text) connection

/-- These messages were written between two states. What the solver printed may have been read. -/
def Heard (first : Connection) (messages : List Message) (last : Connection) : Prop :=
  ∃ unread, first.writeAll messages = .ok (last.withUnread unread)

variable {first middle last : Connection} {message : Message} {messages later : List Message}

theorem writeAll_cons (h : first.writeLine message.text = .ok middle) :
    first.writeAll (message :: messages) = middle.writeAll messages := by
  rw [writeAll, List.foldlM_cons, h]
  rfl

theorem writeAll_append (h : first.writeAll messages = .ok middle) :
    first.writeAll (messages ++ later) = middle.writeAll later := by
  rw [writeAll, List.foldlM_append]
  change (first.writeAll messages >>= fun middle => middle.writeAll later) = _
  rw [h]
  rfl

theorem of_writeAll_cons (h : first.writeAll (message :: messages) = .ok last) :
    ∃ middle, first.writeLine message.text = .ok middle ∧ middle.writeAll messages = .ok last := by
  rw [writeAll, List.foldlM_cons] at h
  cases hwrite : first.writeLine message.text with
  | error fault =>
      rw [hwrite] at h
      contradiction
  | ok middle =>
      rw [hwrite] at h
      exact ⟨middle, rfl, h⟩

/-- What was unread before a message makes a difference only to what is unread after it. -/
theorem writeLine_withUnread (h : first.writeLine message.text = .ok middle)
    (bytes : List UInt8) :
    ∃ unread, (first.withUnread bytes).writeLine message.text = .ok (middle.withUnread unread) := by
  obtain rfl := hear_of_writeLine h
  refine ⟨bytes ++ first.output message, ?_⟩
  have hsame : (first.withUnread bytes).hear message =
      (first.hear message).withUnread (bytes ++ first.output message) := by
    rw [hear_eq message (first.withUnread bytes), hear_eq message first]
    rfl
  rw [← hsame]
  unfold writeLine at h ⊢
  split at h
  · rename_i hopen
    exact if_pos hopen
  · contradiction

theorem writeAll_withUnread (h : first.writeAll messages = .ok last) (bytes : List UInt8) :
    ∃ unread, (first.withUnread bytes).writeAll messages = .ok (last.withUnread unread) := by
  induction messages generalizing first bytes with
  | nil =>
      obtain rfl := Except.ok.inj h
      exact ⟨bytes, rfl⟩
  | cons message messages ih =>
      obtain ⟨middle, hwrite, hrest⟩ := of_writeAll_cons h
      obtain ⟨unread, hwrite'⟩ := writeLine_withUnread hwrite bytes
      rw [writeAll_cons hwrite']
      exact ih hrest unread

theorem heard_nil : Heard first [] first := ⟨first.unread, rfl⟩

theorem heard_of_writeLine (h : first.writeLine message.text = .ok last) :
    Heard first [message] last := by
  refine ⟨last.unread, ?_⟩
  rw [writeAll_cons h]
  rfl

theorem Heard.append (h : Heard first messages middle) (h' : Heard middle later last) :
    Heard first (messages ++ later) last := by
  obtain ⟨unread, hmessages⟩ := h
  obtain ⟨left, hlater⟩ := h'
  obtain ⟨left', hlater'⟩ := writeAll_withUnread hlater unread
  refine ⟨left', ?_⟩
  rw [writeAll_append hmessages, hlater']
  rfl

/-! ### What was read -/

theorem received_subset_foldl (lines : List String) (connection : Connection) :
    connection.received ⊆ (lines.foldl deliver connection).received := by
  induction lines generalizing connection with
  | nil => exact fun _ hmem => hmem
  | cons line lines ih =>
      refine List.Subset.trans ?_ (ih (connection.deliver line))
      unfold deliver
      split
      · exact List.subset_cons_self _ _
      · exact fun _ hmem => hmem

theorem received_subset_writeLine (h : first.writeLine message.text = .ok last) :
    first.received ⊆ last.received := by
  rw [hear_of_writeLine h]
  exact received_subset_foldl _ first

theorem received_subset_writeAll (h : first.writeAll messages = .ok last) :
    first.received ⊆ last.received := by
  induction messages generalizing first with
  | nil =>
      obtain rfl := Except.ok.inj h
      exact fun _ hmem => hmem
  | cons message messages ih =>
      obtain ⟨middle, hwrite, hrest⟩ := of_writeAll_cons h
      exact List.Subset.trans (received_subset_writeLine hwrite) (ih hrest)

/-- A message can be written only while the solver reads, so its first line is read. -/
theorem mem_received_writeLine {line : List Char} {rest : List (List Char)}
    (h : first.writeLine message.text = .ok last) (hlines : Text.lines message.text = line :: rest) :
    String.ofList line ∈ last.received := by
  unfold writeLine at h
  split at h
  · rename_i hopen
    rw [hlines, List.map_cons, List.foldl_cons] at h
    obtain rfl := Except.ok.inj h
    apply received_subset_foldl
    rw [deliver, if_pos hopen]
    exact List.mem_cons_self
  · contradiction

theorem Heard.mem_received {line : List Char} {rest : List (List Char)}
    (h : Heard first messages last) (hmem : message ∈ messages)
    (hlines : Text.lines message.text = line :: rest) : String.ofList line ∈ last.received := by
  obtain ⟨unread, hwritten⟩ := h
  change _ ∈ (last.withUnread unread).received
  generalize last.withUnread unread = last at hwritten
  induction messages generalizing first with
  | nil => contradiction
  | cons other messages ih =>
      obtain ⟨middle, hwrite, hrest⟩ := of_writeAll_cons hwritten
      rcases List.mem_cons.mp hmem with rfl | hmem
      · exact received_subset_writeAll hrest (mem_received_writeLine hwrite hlines)
      · exact ih hmem hrest

/-- Between two states the messages of the exchanges were written. -/
theorem heard_of_passage {exchanges : List Exchange} (h : Passage first exchanges last) :
    Heard first (exchanges.flatMap Exchange.messages) last := by
  induction h with
  | nil => exact heard_nil
  | @told _ _ _ command _ hwrite _ ih =>
      have hcommand : Heard _ [.command command] _ := heard_of_writeLine hwrite
      exact hcommand.append ih
  | @asked _ _ third _ command _ left _ hwrite hrequest _ _ ih =>
      have hcommand : Heard _ [.command command] _ := heard_of_writeLine hwrite
      have hasked : Heard _ [.request] third := heard_of_writeLine hrequest
      have hread : Heard _ [.request] (third.withUnread left.flatten) := hasked
      exact (hcommand.append hread).append ih

end Connection

namespace Dialogue

/-- The entries that were made between two states. -/
structure Enters (first : Dialogue) (entries : List SExpr) (last : Dialogue) : Prop where
  written : ∃ messages, first.connection.Heard messages last.connection ∧
    messages.filterMap Message.command? = entries.filter (!·.isComment)
  log_eq : last.log = first.log ++ entries
  writable_eq : last.archive.map Archive.writable = first.archive.map Archive.writable

variable {first middle last : Dialogue} {command : SExpr} {entries later : List SExpr}

theorem enters_nil : Enters first [] first :=
  ⟨⟨[], Connection.heard_nil, rfl⟩, (List.append_nil _).symm, rfl⟩

theorem Enters.append (h : Enters first entries middle) (h' : Enters middle later last) :
    Enters first (entries ++ later) last := by
  obtain ⟨messages, hheard, hcommands⟩ := h.written
  obtain ⟨messages', hheard', hcommands'⟩ := h'.written
  refine ⟨⟨messages ++ messages', hheard.append hheard', ?_⟩, ?_, ?_⟩
  · rw [List.filterMap_append, List.filter_append, hcommands, hcommands']
  · rw [h'.log_eq, h.log_eq, List.append_assoc]
  · rw [h'.writable_eq, h.writable_eq]

theorem enters_send (hcommand : command.isComment = false) (dialogue : Dialogue) :
    Enters dialogue [command] ((send command).run dialogue).2 ∨
      ((send command).run dialogue).2 = dialogue := by
  rcases send_cases command dialogue with ⟨connection, hwrite, hrun⟩ | hrun
  · rw [hrun]
    have hheard : dialogue.connection.Heard [.command command] connection :=
      Connection.heard_of_writeLine hwrite
    exact Or.inl ⟨⟨_, hheard, by simp [Message.command?, hcommand]⟩, rfl, rfl⟩
  · rw [hrun]
    exact Or.inr rfl

theorem enters_awaitReply (dialogue : Dialogue) :
    Enters dialogue [] (awaitReply.run dialogue).2 := by
  rcases writeLine_cases markerCommand.toList dialogue with ⟨connection, hwrite, hrun⟩ | hrun
  · rw [awaitReply, Action.run_bind_ok hrun]
    have hheard : dialogue.connection.Heard [.request] connection :=
      Connection.heard_of_writeLine hwrite
    exact ⟨⟨_, hheard, rfl⟩, (List.append_nil _).symm, rfl⟩
  · rw [awaitReply, Action.run_bind_error hrun]
    exact enters_nil

/-- A remark stands after an empty line, where transcripts are kept. -/
theorem enters_remark (text : String) (dialogue : Dialogue) :
    Enters dialogue [.comment "", .comment text] (dialogue.remark text) ∨
      dialogue.remark text = dialogue := by
  unfold remark
  split
  · refine Or.inl ⟨⟨[], Connection.heard_nil, rfl⟩, ?_, rfl⟩
    simp [enter]
  · exact Or.inr rfl

theorem enters_saveTranscript (name : String) (dialogue : Dialogue) :
    Enters dialogue [] (dialogue.saveTranscript name).2 := by
  unfold saveTranscript
  split
  · exact enters_nil
  · rename_i archive harchive
    refine ⟨⟨[], Connection.heard_nil, rfl⟩, (List.append_nil _).symm, ?_⟩
    rw [harchive, Archive.save]
    dsimp only
    split <;> rfl

end Dialogue

open Dialogue

/-! ### Steps that make entries -/

/-- Only entries of this kind were made. -/
def Traced (kind : SExpr → Prop) (first last : Dialogue) : Prop :=
  ∃ entries, first.Enters entries last ∧ ∀ entry ∈ entries, kind entry

/-- Any state will do. -/
def anyState {σ : Type} : σ → Prop := fun _ => True

/-- A step on a state with a dialogue in it, which makes only entries of a kind and keeps a property
of the state. -/
def Transcribes {σ ε α : Type} (view : σ → Dialogue) (inv : σ → Prop) (kind : SExpr → Prop)
    (action : Action σ ε α) : Prop :=
  ∀ state, inv state →
    Traced kind (view state) (view (action.run state).2) ∧ inv (action.run state).2

section Steps

variable {σ τ ε ε' α β : Type} {view : σ → Dialogue} {inv : σ → Prop} {kind kind' : SExpr → Prop}
  {action : Action σ ε α} {next : α → Action σ ε β}

theorem traced_refl (dialogue : Dialogue) : Traced kind dialogue dialogue :=
  ⟨[], enters_nil, nofun⟩

theorem traced_of_eq {first last : Dialogue} (h : last = first) : Traced kind first last := by
  rw [h]
  exact traced_refl first

theorem Traced.trans {first middle last : Dialogue} (h : Traced kind first middle)
    (h' : Traced kind middle last) : Traced kind first last := by
  obtain ⟨entries, henters, hkind⟩ := h
  obtain ⟨later, hlater, hkind'⟩ := h'
  exact ⟨entries ++ later, henters.append hlater, List.forall_mem_append.mpr ⟨hkind, hkind'⟩⟩

theorem Transcribes.mono (h : Transcribes view inv kind action)
    (hkind : ∀ entry, kind entry → kind' entry) : Transcribes view inv kind' action := by
  intro state hinv
  obtain ⟨⟨entries, henters, hentries⟩, hinv'⟩ := h state hinv
  exact ⟨⟨entries, henters, fun entry hmem => hkind entry (hentries entry hmem)⟩, hinv'⟩

theorem transcribes_same (h : ∀ state, view (action.run state).2 = view state)
    (hinv : ∀ state, inv state → inv (action.run state).2) : Transcribes view inv kind action :=
  fun state hstate => ⟨traced_of_eq (h state), hinv state hstate⟩

theorem transcribes_ofExcept (result : Except ε α) :
    Transcribes view inv kind (.ofExcept result) :=
  transcribes_same (fun _ => rfl) fun _ h => h

theorem Transcribes.bind (h : Transcribes view inv kind action)
    (hnext : ∀ a, Transcribes view inv kind (next a)) :
    Transcribes view inv kind (action >>= next) := by
  intro state hinv
  obtain ⟨htraced, hinv'⟩ := h state hinv
  rcases hrun : action.run state with ⟨error | a, middle⟩
  · rw [hrun] at htraced hinv'
    rw [Action.run_bind_error hrun]
    exact ⟨htraced, hinv'⟩
  · rw [hrun] at htraced hinv'
    rw [Action.run_bind_ok hrun]
    obtain ⟨hlater, hinv''⟩ := hnext a middle hinv'
    exact ⟨htraced.trans hlater, hinv''⟩

/-- A step that looks at the state first may be taken with its property known. -/
theorem transcribes_get_bind {next : σ → Action σ ε β}
    (hnext : ∀ state, inv state → Transcribes view inv kind (next state)) :
    Transcribes view inv kind (.get >>= next) :=
  fun state hinv => hnext state hinv state hinv

theorem Transcribes.attempt (h : Transcribes view inv kind action) :
    Transcribes view inv kind action.attempt :=
  h

theorem Transcribes.onPart {part : τ → σ} {update : τ → σ → τ} {cause : ε → ε'}
    {whole : τ → Dialogue} {inv : τ → Prop}
    (h : Transcribes view anyState kind action)
    (hpart : ∀ state, whole state = view (part state))
    (hupdate : ∀ state inner, whole (update state inner) = view inner)
    (hinv : ∀ state inner, inv state → inv (update state inner)) :
    Transcribes whole inv kind (.onPart part update cause action) := by
  intro state hstate
  rw [Action.run_onPart, hpart, hupdate]
  exact ⟨(h (part state) trivial).1, hinv state _ hstate⟩

end Steps

/-! ### Dialogues -/

section Dialogues

variable {kind : SExpr → Prop} {command : SExpr}

theorem transcribes_send (hcommand : command.isComment = false) (hkind : kind command) :
    Transcribes id anyState kind (send command) := by
  intro dialogue _
  refine ⟨?_, trivial⟩
  rcases enters_send hcommand dialogue with henters | hsame
  · exact ⟨_, henters, List.forall_mem_singleton.mpr hkind⟩
  · exact traced_of_eq hsame

theorem transcribes_awaitReply : Transcribes id anyState kind awaitReply :=
  fun dialogue _ => ⟨⟨[], enters_awaitReply dialogue, nofun⟩, trivial⟩

theorem transcribes_consult (hcommand : command.isComment = false) (hkind : kind command) :
    Transcribes id anyState kind (consult command) :=
  (transcribes_send hcommand hkind).bind fun _ => transcribes_awaitReply

theorem transcribes_ask (hcommand : command.isComment = false) (hkind : kind command) :
    Transcribes id anyState kind (ask command) := by
  rw [ask_eq]
  refine (transcribes_consult hcommand hkind).bind fun reply => ?_
  unfold readAnswer
  split
  · split <;> exact transcribes_ofExcept _
  · exact transcribes_ofExcept _

theorem transcribes_info {keyword : String}
    (hkind : kind (.application "get-info" [.symbol keyword])) :
    Transcribes id anyState kind (info keyword) := by
  refine (transcribes_ask rfl hkind).bind fun reply => ?_
  split
  · split <;> exact transcribes_ofExcept _
  · exact transcribes_ofExcept _

theorem transcribes_labels (hkind : kind (.application "labels" [])) :
    Transcribes id anyState kind labels := by
  refine (transcribes_ask rfl hkind).bind fun reply => ?_
  split
  · split <;> exact transcribes_ofExcept _
  · exact transcribes_ofExcept _

theorem transcribes_checkSat (hcheck : kind checkSatCommand)
    (hreason : kind (.application "get-info" [.symbol ":reason-unknown"])) :
    Transcribes id anyState kind checkSat := by
  rw [checkSat_eq]
  refine (transcribes_consult rfl hcheck).bind fun reply => ?_
  unfold readVerdict
  split
  · exact transcribes_ofExcept _
  · exact transcribes_ofExcept _
  · exact (transcribes_info hreason).bind fun reason => transcribes_ofExcept _
  · exact transcribes_ofExcept _

theorem transcribes_configure {options : List (String × String)}
    (hkind : ∀ option ∈ options, kind (optionCommand option)) :
    Transcribes id anyState kind (configure options) := by
  induction options with
  | nil => exact transcribes_awaitReply.bind fun _ => transcribes_ofExcept _
  | cons option options ih =>
      obtain ⟨hoption, hoptions⟩ := List.forall_mem_cons.mp hkind
      rw [configure_cons]
      exact (transcribes_send rfl hoption).bind fun _ => ih hoptions

end Dialogues

end Solver

/-! ### The SMT engine -/

namespace Smt

open Solver Dialogue

section Calls

variable {α : Type} {kind : SExpr → Prop} {command : SExpr}

theorem transcribes_talk {action : Action Dialogue Failure α}
    (h : Transcribes id anyState kind action) :
    Transcribes Smt.dialogue anyState kind (talk action) :=
  h.onPart (fun _ => rfl) (fun _ _ => rfl) fun _ _ _ => trivial

theorem transcribes_sendCommand (hcommand : command.isComment = false) (hkind : kind command) :
    Transcribes Smt.dialogue anyState kind (Smt.send command) :=
  transcribes_talk (transcribes_send hcommand hkind)

theorem transcribes_declareConst {name : String} {ty : Ty}
    (hkind : kind (.application "declare-fun" [.symbol name, .list [], ty.toSort])) :
    Transcribes Smt.dialogue anyState kind (declareConst name ty) := by
  refine (transcribes_sendCommand rfl hkind).bind fun _ => ?_
  split
  · exact transcribes_same (fun _ => rfl) fun _ _ => trivial
  · exact transcribes_ofExcept _

end Calls

/-- What a check enters. -/
inductive CheckEntry : SExpr → Prop
  | verdict : CheckEntry checkSatCommand
  | reason : CheckEntry (.application "get-info" [.symbol ":reason-unknown"])
  | labels : CheckEntry (.application "labels" [])
  | model : CheckEntry (.application "get-model" [])
  | push : CheckEntry pushCommand
  | pop : CheckEntry popCommand
  | clause {constants : List String} {model : Model} {clause : SExpr}
      (h : exclusion? constants model = some clause) : CheckEntry (assertCommand clause)

theorem CheckEntry.isComment_eq {entry : SExpr} (h : CheckEntry entry) :
    entry.isComment = false := by
  cases h <;> rfl

theorem transcribes_checkSat :
    Transcribes Smt.dialogue anyState CheckEntry (talk Dialogue.checkSat) :=
  transcribes_talk (Solver.transcribes_checkSat .verdict .reason)

theorem transcribes_counterexample :
    Transcribes Smt.dialogue anyState CheckEntry counterexample := by
  refine (transcribes_talk (transcribes_labels .labels)).bind fun labels => ?_
  refine (transcribes_talk (transcribes_ask rfl .model)).bind fun reply => ?_
  exact (transcribes_ofExcept _).bind fun model => transcribes_ofExcept _

theorem transcribes_search (count : Nat) (latest : Counterexample) :
    Transcribes Smt.dialogue anyState CheckEntry (search count latest) := by
  induction count generalizing latest with
  | zero => exact transcribes_ofExcept _
  | succ count ih =>
      refine transcribes_get_bind fun smt _ => ?_
      split
      · exact transcribes_ofExcept _
      · rename_i clause hclause
        refine (transcribes_sendCommand rfl (.clause hclause)).bind fun _ => ?_
        refine transcribes_checkSat.bind fun answer => ?_
        cases answer with
        | sat =>
            refine transcribes_counterexample.bind fun next => ?_
            exact (ih next).bind fun others => transcribes_ofExcept _
        | unsat => exact transcribes_ofExcept _
        | unknown reason => exact transcribes_ofExcept _

theorem transcribes_moreCounterexamples (first : Counterexample) :
    Transcribes Smt.dialogue anyState CheckEntry (moreCounterexamples first) := by
  refine transcribes_get_bind fun smt _ => ?_
  split
  · exact transcribes_ofExcept _
  · refine (transcribes_talk (transcribes_send rfl .push)).bind fun _ => ?_
    refine (transcribes_search _ first).attempt.bind fun found => ?_
    refine (transcribes_talk (transcribes_send rfl .pop)).bind fun _ => ?_
    exact transcribes_ofExcept _

/-- Besides questions, a check only enters what opens and drops a frame, and the clauses of its
search in there. -/
theorem transcribes_check : Transcribes Smt.dialogue anyState CheckEntry check := by
  refine transcribes_checkSat.bind fun answer => ?_
  cases answer with
  | unsat => exact transcribes_ofExcept _
  | unknown reason => exact transcribes_ofExcept _
  | sat =>
      refine transcribes_counterexample.bind fun first => ?_
      exact (transcribes_moreCounterexamples first).bind fun others => transcribes_ofExcept _

/-- A solver that starts was written its options, and nothing else is entered but the line it was
started with. -/
theorem traced_start {host : Dialogue.Host} {program : String} {settings : Settings}
    {archive : Option Archive} {smt : Smt} {kind : SExpr → Prop}
    (h : Smt.start host program settings archive = (.ok (), smt))
    (hkind : ∀ option ∈ (settings.enforced.invocation program).options,
      kind (optionCommand option)) :
    ∃ behaviour, host program = some behaviour ∧
      Traced kind
        { connection := { behaviour }, archive,
          log := [.comment (settings.enforced.invocation program).commandLine] }
        smt.dialogue := by
  obtain ⟨behaviour, hhost, hconfigure⟩ := configure_of_start h
  let fresh : Dialogue :=
    { connection := { behaviour }, archive,
      log := [.comment (settings.enforced.invocation program).commandLine] }
  obtain ⟨htraced, -⟩ := transcribes_configure hkind fresh trivial
  rw [hconfigure] at htraced
  exact ⟨behaviour, hhost, htraced⟩

end Smt

end SmtSession
