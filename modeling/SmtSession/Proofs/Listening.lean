import SmtSession.Proofs.Conversation
import SmtSession.Proofs.PrintedLines

/-!
# What a solver prints, and when it is read

Everything is a message to the solver: the commands, and the request to echo the marker that follows
a command with a reply. What the solver prints for one message after another stays unread until the
next request.
-/

namespace SmtSession.Solver

open Text Dialogue

inductive Message where
  | command (content : SExpr)
  | request
deriving DecidableEq

def Message.text : Message → List Char
  | .command content => content.chars
  | .request => markerCommand.toList

/-- A command after which no reply is asked for. -/
def Message.IsSilent : Message → Prop
  | .command content => ¬awaitsReply content
  | .request => False

def Exchange.messages : Exchange → List Message
  | .told command => [.command command]
  | .asked command _ => [.command command, .request]

namespace Connection

def withUnread (bytes : List UInt8) (connection : Connection) : Connection :=
  { connection with unread := bytes }

def hear (message : Message) (connection : Connection) : Connection :=
  ((Text.lines message.text).map String.ofList).foldl deliver connection

/-- What the solver prints when it reads a message. -/
def output (message : Message) (connection : Connection) : List UInt8 :=
  ((connection.withUnread []).hear message).unread

variable {connection next : Connection} {message : Message}

theorem hear_of_writeLine (h : connection.writeLine message.text = .ok next) :
    next = connection.hear message := by
  unfold writeLine at h
  split at h
  · exact (Except.ok.inj h).symm
  · contradiction

theorem deliver_eq (line : String) (connection : Connection) :
    connection.deliver line =
      ((connection.withUnread []).deliver line).withUnread
        (connection.unread ++ ((connection.withUnread []).deliver line).unread) := by
  unfold deliver withUnread
  by_cases hopen : connection.isOpen
  · simp [hopen]
  · rw [if_neg hopen, if_neg hopen]
    simp

theorem foldl_deliver_eq (lines : List String) (connection : Connection) :
    lines.foldl deliver connection =
      (lines.foldl deliver (connection.withUnread [])).withUnread
        (connection.unread ++ (lines.foldl deliver (connection.withUnread [])).unread) := by
  induction lines generalizing connection with
  | nil =>
      change connection = connection.withUnread (connection.unread ++ [])
      rw [List.append_nil]
      rfl
  | cons line lines ih =>
      rw [List.foldl_cons, List.foldl_cons, ih (connection.deliver line),
        ih ((connection.withUnread []).deliver line), deliver_eq line connection]
      simp [withUnread]

/-- What is unread already does not matter to the solver. -/
theorem hear_eq (message : Message) (connection : Connection) :
    connection.hear message =
      ((connection.withUnread []).hear message).withUnread
        (connection.unread ++ connection.output message) :=
  foldl_deliver_eq _ connection

end Connection

/-- The lines that a well-behaved solver prints for a message: whatever it likes for a command, at
least one line that is not blank for a check, and the marker on request. -/
def Message.Admits (printed : List String) : Message → Prop
  | .command content =>
    (∀ line ∈ printed, IsPlain line) ∧
      (content = checkSatCommand → ∃ line ∈ printed, ¬isBlank line)
  | .request => ∃ mark, printed = [mark] ∧ IsMark mark

/-- The solver prints these lines for these messages. -/
def Connection.Prints : Connection → List (Message × List String) → Prop
  | _, [] => True
  | connection, (message, printed) :: rest =>
    connection.output message = bytesOf (String.ofList (unlines printed)) ∧
      message.Admits printed ∧ (connection.hear message).Prints rest

instance : (message : Message) → (printed : List String) → Decidable (message.Admits printed)
  | .command _, _ => inferInstanceAs (Decidable (_ ∧ (_ → _)))
  | .request, printed => by
    refine decidable_of_iff (∃ mark ∈ printed, printed = [mark] ∧ IsMark mark) ⟨?_, ?_⟩
    · rintro ⟨mark, -, h⟩
      exact ⟨mark, h⟩
    · rintro ⟨mark, rfl, h⟩
      exact ⟨mark, List.mem_singleton_self mark, rfl, h⟩

instance decidablePrints : (connection : Connection) → (spoken : List (Message × List String)) →
    Decidable (connection.Prints spoken)
  | _, [] => isTrue trivial
  | connection, (message, _) :: rest =>
    have := decidablePrints (connection.hear message) rest
    inferInstanceAs (Decidable (_ ∧ _ ∧ _))

/-- The lines printed since the latest request, after those printed before. -/
def unheard : List String → List (Message × List String) → List String
  | before, [] => before
  | before, (.command _, printed) :: rest => unheard (before ++ printed) rest
  | _, (.request, _) :: rest => unheard [] rest

theorem unheard_append (before : List String) (spoken later : List (Message × List String)) :
    unheard before (spoken ++ later) = unheard (unheard before spoken) later := by
  induction spoken generalizing before with
  | nil => rfl
  | cons said spoken ih =>
      obtain ⟨message, printed⟩ := said
      cases message with
      | command content => exact ih (before ++ printed)
      | request => exact ih []

theorem unheard_of_silent {spoken : List (Message × List String)}
    (h : ∀ said ∈ spoken, said.1.IsSilent) (before : List String) :
    unheard before spoken = before ++ spoken.flatMap Prod.snd := by
  induction spoken generalizing before with
  | nil => simp [unheard]
  | cons said spoken ih =>
      obtain ⟨message, printed⟩ := said
      obtain ⟨hsilent, hrest⟩ := List.forall_mem_cons.mp h
      cases message with
      | command content => rw [unheard, ih hrest, List.flatMap_cons, List.append_assoc]
      | request => exact hsilent.elim

/-- The exchanges between two states of a connection. -/
inductive Passage : Connection → List Exchange → Connection → Prop
  | nil {connection} : Passage connection [] connection
  | told {first second third command exchanges} :
      first.writeLine command.chars = .ok second → Passage second exchanges third →
      Passage first (.told command :: exchanges) third
  | asked {first second third last command reply left exchanges} :
      first.writeLine command.chars = .ok second →
      second.writeLine markerCommand.toList = .ok third →
      collect [] (byteLines third.unread) = (reply, left) →
      Passage (third.withUnread left.flatten) exchanges last →
      Passage first (.asked command reply :: exchanges) last

theorem run_awaitReply_written {first last : Dialogue} {reply : Except Failure String}
    (h : awaitReply.run first = (reply, last)) (hwritten : Written reply) :
    ∃ asked left, first.connection.writeLine markerCommand.toList = .ok asked ∧
      collect [] (byteLines asked.unread) = (reply, left) ∧
      last.connection = asked.withUnread left.flatten := by
  rcases writeLine_cases markerCommand.toList first with ⟨asked, hrequest, hrun⟩ | hrun
  · rw [awaitReply, Action.run_bind_ok hrun] at h
    rcases hcollect : collect [] (byteLines asked.unread) with ⟨result, left⟩
    have hread : readReply.run { first with connection := asked } =
        (result, { first with connection := asked.withUnread left.flatten }) := by
      simp [readReply, Action.run, hcollect, Connection.withUnread]
    rw [hread] at h
    obtain ⟨rfl, rfl⟩ := Prod.mk.inj h
    exact ⟨asked, left, hrequest, hcollect, rfl⟩
  · rw [awaitReply, Action.run_bind_error hrun] at h
    obtain ⟨rfl, -⟩ := Prod.mk.inj h
    exact absurd rfl hwritten

theorem run_consult_written {first last : Dialogue} {command : SExpr}
    {reply : Except Failure String} (h : (consult command).run first = (reply, last))
    (hwritten : Written reply) :
    ∃ told asked left, first.connection.writeLine command.chars = .ok told ∧
      told.writeLine markerCommand.toList = .ok asked ∧
      collect [] (byteLines asked.unread) = (reply, left) ∧
      last.connection = asked.withUnread left.flatten := by
  rcases send_cases command first with ⟨told, hwrite, hsend⟩ | hsend
  · rw [consult, Action.run_bind_ok hsend] at h
    obtain ⟨asked, left, hasked⟩ := run_awaitReply_written h hwritten
    exact ⟨told, asked, left, hwrite, hasked⟩
  · rw [consult, Action.run_bind_error hsend] at h
    obtain ⟨rfl, -⟩ := Prod.mk.inj h
    exact absurd rfl hwritten

theorem run_writeLine_ok {text : List Char} {dialogue : Dialogue} {connection : Connection}
    (h : dialogue.connection.writeLine text = .ok connection) :
    (Dialogue.writeLine text).run dialogue = (.ok (), { dialogue with connection }) := by
  simp only [Dialogue.writeLine, Action.run, h]

theorem run_consult_of_writes {command : SExpr} {dialogue : Dialogue} {told asked : Connection}
    (hcommand : dialogue.connection.writeLine command.chars = .ok told)
    (hrequest : told.writeLine markerCommand.toList = .ok asked) :
    (consult command).run dialogue = ((collect [] (byteLines asked.unread)).1,
      { dialogue with
        connection := asked.withUnread (collect [] (byteLines asked.unread)).2.flatten
        log := dialogue.log ++ [command] }) := by
  have hsend : (send command).run dialogue =
      (.ok (), { dialogue with connection := told, log := dialogue.log ++ [command] }) := by
    rw [send, Action.run_bind_ok (run_writeLine_ok hcommand)]
    rfl
  rw [consult, Action.run_bind_ok hsend, awaitReply, Action.run_bind_ok (run_writeLine_ok hrequest)]
  rfl

theorem Conversation.passage {first second : Dialogue} {exchanges : List Exchange}
    (h : Conversation first exchanges second) :
    Passage first.connection exchanges second.connection := by
  induction h with
  | nil => exact .nil
  | @told first second third command exchanges hsend _ ih =>
      rcases send_cases command first with ⟨connection, hwrite, hrun⟩ | hrun
      · rw [hrun] at hsend
        obtain ⟨-, rfl⟩ := Prod.mk.inj hsend
        exact .told hwrite ih
      · rw [hrun] at hsend
        simp at hsend
  | asked hconsult hwritten _ ih =>
      obtain ⟨second, third, left, hwrite, hrequest, hcollect, hunread⟩ :=
        run_consult_written hconsult hwritten
      rw [hunread] at ih
      exact .asked hwrite hrequest hcollect ih

theorem Passage.of_append {first last : Connection} {exchanges later : List Exchange}
    (h : Passage first (exchanges ++ later) last) :
    ∃ middle, Passage first exchanges middle ∧ Passage middle later last := by
  induction exchanges generalizing first with
  | nil => exact ⟨first, .nil, h⟩
  | cons exchange exchanges ih =>
      cases h with
      | told hwrite hrest =>
          obtain ⟨middle, hfirst, hlast⟩ := ih hrest
          exact ⟨middle, .told hwrite hfirst, hlast⟩
      | asked hwrite hrequest hcollect hrest =>
          obtain ⟨middle, hfirst, hlast⟩ := ih hrest
          exact ⟨middle, .asked hwrite hrequest hcollect hfirst, hlast⟩

theorem Passage.append {first middle last : Connection} {exchanges later : List Exchange}
    (h : Passage first exchanges middle) (h' : Passage middle later last) :
    Passage first (exchanges ++ later) last := by
  induction h with
  | nil => exact h'
  | told hwrite _ ih => exact .told hwrite (ih h')
  | asked hwrite hrequest hcollect _ ih => exact .asked hwrite hrequest hcollect (ih h')

/-! ### What is unread -/

theorem prints_withUnread (bytes : List UInt8) {connection : Connection}
    {spoken : List (Message × List String)} (h : connection.Prints spoken) :
    (connection.withUnread bytes).Prints spoken := by
  induction spoken generalizing connection bytes with
  | nil => trivial
  | cons said rest ih =>
      obtain ⟨message, printed⟩ := said
      obtain ⟨houtput, hadmits, hrest⟩ := h
      refine ⟨houtput, hadmits, ?_⟩
      have hsame : (connection.withUnread bytes).hear message =
          (connection.hear message).withUnread (bytes ++ connection.output message) := by
        rw [Connection.hear_eq message (connection.withUnread bytes),
          Connection.hear_eq message connection]
        rfl
      rw [hsame]
      exact ih _ hrest

theorem Connection.Prints.admits {connection : Connection} {spoken : List (Message × List String)}
    (h : connection.Prints spoken) : ∀ said ∈ spoken, said.1.Admits said.2 := by
  induction spoken generalizing connection with
  | nil => exact nofun
  | cons said rest ih =>
      obtain ⟨-, hadmits, hrest⟩ := h
      exact List.forall_mem_cons.mpr ⟨hadmits, ih hrest⟩

/-- The lines that were printed and not read. -/
structure Unread (connection : Connection) (pending : List String) : Prop where
  unread_eq : connection.unread = bytesOf (String.ofList (unlines pending))
  plain : ∀ line ∈ pending, IsPlain line

variable {first second third : Connection} {pending printed : List String}
  {spoken rest : List (Message × List String)} {message : Message}

theorem unread_hear (hunread : first.unread = bytesOf (String.ofList (unlines pending)))
    (hprints : first.Prints ((message, printed) :: rest)) :
    (first.hear message).unread = bytesOf (String.ofList (unlines (pending ++ printed))) := by
  obtain ⟨houtput, -, -⟩ := hprints
  rw [Connection.hear_eq, houtput, hunread, unlines_append, bytesOf_append]
  rfl

theorem Unread.told {command : SExpr} (h : Unread first pending)
    (hwrite : first.writeLine command.chars = .ok second)
    (hprints : first.Prints ((.command command, printed) :: rest)) :
    Unread second (pending ++ printed) ∧ second.Prints rest := by
  have hsecond : second = first.hear (.command command) := Connection.hear_of_writeLine hwrite
  have hunread := unread_hear h.unread_eq hprints
  obtain ⟨-, ⟨hplain, -⟩, hrest⟩ := hprints
  rw [hsecond]
  refine ⟨⟨hunread, ?_⟩, hrest⟩
  intro line hmem
  rcases List.mem_append.mp hmem with hmem | hmem
  · exact h.plain line hmem
  · exact hplain line hmem

/-- All that is unread is read, and makes the reply. -/
theorem Unread.requested {reply : Except Failure String} {left : List (List UInt8)}
    (h : Unread first pending) (hwrite : first.writeLine markerCommand.toList = .ok second)
    (hcollect : collect [] (byteLines second.unread) = (reply, left))
    (hprints : first.Prints ((.request, printed) :: rest)) :
    reply = .ok (String.ofList (trimEnd (unlines pending))) ∧
      Unread (second.withUnread left.flatten) [] ∧
        (second.withUnread left.flatten).Prints rest := by
  have hsecond : second = first.hear .request := Connection.hear_of_writeLine hwrite
  have hunread := unread_hear h.unread_eq hprints
  obtain ⟨-, ⟨mark, rfl, hmark⟩, hrest⟩ := hprints
  rw [hsecond, hunread, ← List.append_nil (bytesOf _), collect_unlines h.plain hmark] at hcollect
  obtain ⟨rfl, rfl⟩ := Prod.mk.inj hcollect
  refine ⟨rfl, ⟨rfl, nofun⟩, ?_⟩
  rw [hsecond]
  exact prints_withUnread _ hrest

theorem Passage.unread {last : Connection} {exchanges : List Exchange}
    (h : Passage first exchanges last)
    (hspoken : spoken.map Prod.fst = exchanges.flatMap Exchange.messages)
    (hprints : first.Prints (spoken ++ rest)) (hunread : Unread first pending) :
    Unread last (unheard pending spoken) ∧ last.Prints rest := by
  induction h generalizing spoken pending with
  | nil =>
      rw [List.flatMap_nil, List.map_eq_nil_iff] at hspoken
      subst hspoken
      exact ⟨hunread, hprints⟩
  | told hwrite _ ih =>
      rw [List.flatMap_cons] at hspoken
      obtain ⟨⟨message, printed⟩, spoken', rfl, hmessage, hspoken'⟩ :=
        List.map_eq_cons_iff.mp hspoken
      obtain rfl : message = .command _ := hmessage
      obtain ⟨hunread', hprints'⟩ := hunread.told hwrite hprints
      have hlast := ih hspoken' hprints' hunread'
      exact hlast
  | asked hwrite hrequest hcollect _ ih =>
      rw [List.flatMap_cons] at hspoken
      obtain ⟨⟨message, printed⟩, spoken', rfl, hmessage, hspoken'⟩ :=
        List.map_eq_cons_iff.mp hspoken
      obtain ⟨⟨asking, marked⟩, spoken'', rfl, hrequest', hspoken''⟩ :=
        List.map_eq_cons_iff.mp hspoken'
      obtain rfl : message = .command _ := hmessage
      obtain rfl : asking = .request := hrequest'
      obtain ⟨hunread', hprints'⟩ := hunread.told hwrite hprints
      obtain ⟨-, hnothing, hprints''⟩ := hunread'.requested hrequest hcollect hprints'
      have hlast := ih hspoken'' hprints'' hnothing
      exact hlast

theorem Passage.reply_eq {last : Connection} {exchanges later : List Exchange} {command : SExpr}
    {reply : Except Failure String} {before after : List (Message × List String)}
    (h : Passage first (exchanges ++ .asked command reply :: later) last)
    (hbefore : before.map Prod.fst = exchanges.flatMap Exchange.messages)
    (hafter : after.map Prod.fst = .request :: later.flatMap Exchange.messages)
    (hprints : first.Prints (before ++ (.command command, printed) :: after))
    (hunread : Unread first pending) :
    reply = .ok (String.ofList (trimEnd (unlines (unheard pending before ++ printed)))) := by
  obtain ⟨middle, hfirst, hlast⟩ := h.of_append
  obtain ⟨hpending, hprints'⟩ := hfirst.unread hbefore hprints hunread
  obtain ⟨⟨asking, marked⟩, after', rfl, hrequest', -⟩ := List.map_eq_cons_iff.mp hafter
  obtain rfl : asking = .request := hrequest'
  cases hlast with
  | asked hwrite hrequest hcollect _ =>
      obtain ⟨htold, hprints''⟩ := hpending.told hwrite hprints'
      exact (htold.requested hrequest hcollect hprints'').1

end SmtSession.Solver
