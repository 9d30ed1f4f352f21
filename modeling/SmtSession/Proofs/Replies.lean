import Mathlib.Data.List.Infix
import SmtSession.Proofs.Blocks
import SmtSession.Proofs.Clients
import SmtSession.Solver.Scripted

/-!
# Requests and replies

Every exchange with a solver takes one block of its output, and obtains the text of that block. What
the replies of the exchanges before were, and what was made of them, does not matter: an operation
that fails has read up to the marker like any other.
-/

namespace SmtSession.Solver

open Text Dialogue

variable {connection : Connection} {messages : List Message} {output : Output}

/-! ### What a solver writes in time -/

namespace Connection

/-- What the solver writes when it reads one message after another. -/
def outputs : List Message → Connection → List UInt8
  | [], _ => []
  | message :: messages, connection =>
    connection.output message ++ outputs messages (connection.hear message)

/-- With what is unread already, the solver writes the whole output, and nothing of it too late:
when a request is read, its block is written, or all that is ever written is. An exchange whose block
were still to come would wait for it, while the solver waits for the next message. -/
structure Writes (connection : Connection) (messages : List Message) (output : Output) : Prop where
  total : connection.unread ++ outputs messages connection = output.bytes
  inTime : ∀ sent, sent ++ [.request] <+: messages →
    output.Covered (sent.count .request + 1)
      (connection.unread ++ outputs (sent ++ [.request]) connection)

theorem writes_iff :
    connection.Writes messages output ↔
      connection.unread ++ outputs messages connection = output.bytes ∧
        ∀ sent ∈ messages.inits, sent.getLast? = some .request →
          output.Covered (sent.count .request) (connection.unread ++ outputs sent connection) := by
  constructor
  · rintro ⟨htotal, hinTime⟩
    refine ⟨htotal, fun sent hsent hlast => ?_⟩
    obtain ⟨before, rfl⟩ := List.getLast?_eq_some_iff.mp hlast
    rw [List.count_append]
    exact hinTime before ((List.mem_inits _ _).mp hsent)
  · rintro ⟨htotal, hinTime⟩
    refine ⟨htotal, fun sent hsent => ?_⟩
    have hcovered := hinTime _ ((List.mem_inits _ _).mpr hsent) List.getLast?_concat
    rwa [List.count_append] at hcovered

instance : Decidable (connection.Writes messages output) := decidable_of_iff' _ writes_iff

theorem outputs_withUnread (bytes : List UInt8) (messages : List Message)
    (connection : Connection) :
    outputs messages (connection.withUnread bytes) = outputs messages connection := by
  induction messages generalizing connection bytes with
  | nil => rfl
  | cons message messages ih =>
      rw [outputs, outputs, hear_eq message (connection.withUnread bytes), ih,
        hear_eq message connection, ih]
      rfl

theorem unread_append_outputs (message : Message) (messages : List Message)
    (connection : Connection) :
    connection.unread ++ outputs (message :: messages) connection =
      (connection.hear message).unread ++ outputs messages (connection.hear message) := by
  rw [outputs, ← List.append_assoc]
  congr 1
  rw [hear_eq]
  rfl

theorem Writes.command {content : SExpr}
    (h : connection.Writes (.command content :: messages) output) :
    (connection.hear (.command content)).Writes messages output := by
  constructor
  · rw [← unread_append_outputs, h.total]
  · intro sent hsent
    have hcovered := h.inTime (.command content :: sent) ((List.prefix_cons_inj _).mpr hsent)
    have hcount : (Message.command content :: sent).count .request = sent.count .request :=
      List.count_cons_of_ne (by simp)
    rwa [List.cons_append, unread_append_outputs, hcount] at hcovered

/-- An exchange obtains the first block, and the solver goes on with the others. -/
theorem Writes.request {reply : Except Failure String} {left : List (List UInt8)}
    (h : connection.Writes (.request :: messages) output)
    (hcollect : collect [] (byteLines (connection.hear .request).unread) = (reply, left)) :
    reply = output.reply 0 ∧
      ((connection.hear .request).withUnread left.flatten).Writes messages (output.drop 1) := by
  have htotal := h.total
  rw [unread_append_outputs] at htotal
  have hfirst : output.Covered 1 (connection.hear .request).unread := by
    have hcovered := h.inTime [] ((List.prefix_cons_inj _).mpr List.nil_prefix)
    rwa [List.nil_append, unread_append_outputs, outputs, List.append_nil] at hcovered
  obtain ⟨taken, left', hread, hunread, hbytes⟩ := Output.read ⟨_, htotal⟩ hfirst
  obtain ⟨rfl, rfl⟩ := Prod.mk.inj (hread.symm.trans hcollect)
  refine ⟨rfl, ?_, ?_⟩
  · rw [outputs_withUnread]
    rw [hunread, hbytes, List.append_assoc] at htotal
    exact List.append_cancel_left htotal
  · intro sent hsent
    have hcovered := h.inTime (.request :: sent) ((List.prefix_cons_inj _).mpr hsent)
    rw [List.cons_append, unread_append_outputs, hunread, List.append_assoc,
      List.count_cons_self] at hcovered
    rw [outputs_withUnread]
    exact hcovered.drop hbytes

end Connection

/-! ### A client that is replayed -/

namespace Client

variable {α : Type}

/-- A client whose writes succeed does in a dialogue what it does in a replay of the blocks, and
leaves the blocks of the exchanges to come. -/
theorem run_eq_replay (client : Client α) {dialogue : Dialogue} {count : Nat}
    {later : List Message} (hwritten : Written (client.run.run dialogue).1)
    (h : dialogue.connection.Writes (client.messages dialogue ++ later) (output.drop count)) :
    client.replay output.reply count =
        ((client.run.run dialogue).1, count + (client.messages dialogue).count .request) ∧
      (client.run.run dialogue).2.connection.Writes later
        (output.drop (count + (client.messages dialogue).count .request)) := by
  induction client generalizing dialogue count with
  | done result => exact ⟨rfl, h⟩
  | tell command next ih =>
      rcases send_cases command dialogue with ⟨connection, hwrite, hsend⟩ | hsend
      · have hheard : connection = dialogue.connection.hear (.command command) :=
          Connection.hear_of_writeLine hwrite
        have hmessages : (tell command next).messages dialogue =
            .command command :: next.messages
              { dialogue with connection, log := dialogue.log ++ [command] } := by
          rw [messages, hsend]
        have hcount : ((tell command next).messages dialogue).count .request =
            (next.messages { dialogue with connection, log := dialogue.log ++ [command] }).count
              .request := by
          rw [hmessages, List.count_cons_of_ne (by simp)]
        rw [run, Action.run_bind_ok hsend] at hwritten ⊢
        rw [hmessages, List.cons_append] at h
        rw [hcount]
        exact ih hwritten (hheard ▸ h.command)
      · rw [run, Action.run_bind_error hsend] at hwritten
        exact absurd rfl hwritten
  | await next ih =>
      rcases hawait : awaitReply.run dialogue with ⟨reply, last⟩
      have hreply : Written reply := by
        rintro rfl
        rw [run, Action.run_bind_error hawait] at hwritten
        exact hwritten rfl
      obtain ⟨asked, left, hwrite, hcollect, hlast⟩ := run_awaitReply_written hawait hreply
      obtain rfl : asked = dialogue.connection.hear .request :=
        Connection.hear_of_writeLine hwrite
      rw [messages, hawait, List.cons_append] at h
      obtain ⟨hblock, hwrites⟩ := h.request hcollect
      rw [Output.reply_drop] at hblock
      rw [Output.drop_drop, ← hlast] at hwrites
      cases reply with
      | error failure =>
          have hmessages : (await next).messages dialogue = [.request] := by
            rw [messages, hawait]
          rw [run, Action.run_bind_error hawait, replay, ← hblock, hmessages]
          exact ⟨rfl, hwrites⟩
      | ok reply =>
          have hmessages : (await next).messages dialogue =
              .request :: (next reply).messages last := by
            rw [messages, hawait]
          rw [run, Action.run_bind_ok hawait] at hwritten ⊢
          rw [replay, ← hblock, hmessages, List.count_cons_self]
          have hnext := ih reply hwritten hwrites
          rwa [Nat.add_right_comm, Nat.add_assoc] at hnext

end Client

namespace Operation

theorem performAll_eq_replayAll {operations : List Operation} {dialogue : Dialogue} {count : Nat}
    (hwritten : ∀ result ∈ (performAll operations dialogue).1, Written result)
    (h : dialogue.connection.Writes (messagesOfAll operations dialogue) (output.drop count)) :
    replayAll output.reply operations count =
        ((performAll operations dialogue).1,
          count + (messagesOfAll operations dialogue).count .request) ∧
      (performAll operations dialogue).2.connection.Writes []
        (output.drop (count + (messagesOfAll operations dialogue).count .request)) := by
  induction operations generalizing dialogue count with
  | nil => exact ⟨rfl, h⟩
  | cons operation operations ih =>
      rw [performAll_cons, ← run_client] at hwritten
      rw [messagesOfAll, ← run_client] at h
      obtain ⟨hresult, hresults⟩ := List.forall_mem_cons.mp hwritten
      obtain ⟨hreplay, hwrites⟩ := operation.client.run_eq_replay hresult h
      obtain ⟨hreplayAll, hlast⟩ := ih hresults hwrites
      rw [messagesOfAll, performAll_cons, ← run_client, List.count_append, ← Nat.add_assoc]
      refine ⟨?_, hlast⟩
      simp only [replayAll, hreplay, hreplayAll]

end Operation

/-! ### A whole run -/

/-- What is written to a solver from its start: the options, the request for what it has to say of
them, and the messages of the operations. -/
def messagesFrom (invocation : Invocation) (operations : List Operation) (dialogue : Dialogue) :
    List Message :=
  invocation.options.map (fun option => .command (optionCommand option)) ++
    .request :: Operation.messagesOfAll operations dialogue

/-- The start of a solver takes the first block. -/
theorem writes_of_configure {first dialogue : Dialogue} {options : List (String × String)}
    {later : List Message} (h : (configure options).run first = (.ok (), dialogue))
    (hwrites : first.connection.Writes
      (options.map (fun option => .command (optionCommand option)) ++ .request :: later) output) :
    dialogue.connection.Writes later (output.drop 1) := by
  rw [← Client.run_configure] at h
  have hmessages := Client.messages_configure options first
  have hcount : ((Client.configure options).messages first).count .request = 1 := by
    rw [hmessages, List.count_append, List.count_eq_zero_of_not_mem (by simp)]
    rfl
  have hwritten : Written ((Client.configure options).run.run first).1 := by
    rw [h]
    exact nofun
  rw [List.append_cons, ← hmessages, ← Output.drop_zero output] at hwrites
  obtain ⟨-, hlast⟩ := Client.run_eq_replay _ hwritten hwrites
  rwa [h, hcount] at hlast

/-- Requests and replies never drift apart. Where the output of the solver is blocks and a rest, the
start takes the first block, and from then on every exchange obtains the block of its number, or
fails when there is none, whatever the exchanges before it returned. What is left in the end is what
no exchange has asked for. -/
theorem exchanges_keep_step {host : Host} {invocation : Invocation} {archive : Option Archive}
    {behaviour : Behaviour} {dialogue : Dialogue} {operations : List Operation} {output : Output}
    (hhost : host invocation.program = some behaviour)
    (hstart : Dialogue.start host invocation archive = (.ok (), dialogue))
    (hwritten : ∀ result ∈ (Operation.performAll operations dialogue).1, Written result)
    (hwrites : Connection.Writes { behaviour } (messagesFrom invocation operations dialogue)
      output) :
    Operation.replayAll output.reply operations 1 =
        ((Operation.performAll operations dialogue).1,
          1 + (Operation.messagesOfAll operations dialogue).count .request) ∧
      (Operation.performAll operations dialogue).2.connection.unread =
        (output.drop (1 + (Operation.messagesOfAll operations dialogue).count .request)).bytes := by
  rw [Dialogue.start, hhost] at hstart
  have hstarted := writes_of_configure hstart hwrites
  obtain ⟨hreplay, hlast⟩ := Operation.performAll_eq_replayAll hwritten hstarted
  refine ⟨hreplay, ?_⟩
  have htotal := hlast.total
  rwa [Connection.outputs, List.append_nil] at htotal

/-- Has no model, gives up a check, and ends in the middle of its labels. -/
def failingSolver : Behaviour :=
  .scripted [.text "hello", .text "(error \"no model\")",
    .bytes (bytesOf "unknown\n\"<<DONE>>\" \n"), .text "(:reason-unknown \"timeout\")",
    .lastWords "(labels\n+A"]

def failingInvocation : Invocation := ⟨"z3", [], []⟩

def failingDialogue : Dialogue :=
  (Dialogue.start (fun _ => some failingSolver) failingInvocation none).2

def failingOutput : Output where
  blocks :=
    [⟨["hello"], "<<DONE>>", by decide, by decide⟩,
      ⟨["(error \"no model\")"], "<<DONE>>", by decide, by decide⟩,
      ⟨["unknown"], "\"<<DONE>>\" ", by decide, by decide⟩,
      ⟨["(:reason-unknown \"timeout\")"], "<<DONE>>", by decide, by decide⟩]
  rest := ["(labels", "+A"]
  plain := by decide

def failingOperations : List Operation :=
  [.model, .send (assertCommand (.symbol "p")), .checkSat, .labels]

theorem exchanges_keep_step_failing :
    (Operation.performAll failingOperations failingDialogue).1 =
        [.error (.refused "no model"), .ok .nothing, .ok (.verdict (.unknown "timeout")),
          .error (.refused "(labels\n+A")] ∧
      (Operation.performAll failingOperations failingDialogue).2.connection.unread = [] := by
  have hstart : Dialogue.start (fun _ => some failingSolver) failingInvocation none =
      (.ok (), failingDialogue) :=
    Prod.ext (by decide +kernel) rfl
  have hmessages : Operation.messagesOfAll failingOperations failingDialogue =
      [.command (.application "get-model" []), .request, .command (assertCommand (.symbol "p")),
        .command checkSatCommand, .request, .command (Client.infoCommand ":reason-unknown"),
        .request, .command Client.labelsCommand, .request] := by
    decide +kernel
  have hwrites : Connection.Writes { behaviour := failingSolver }
      (messagesFrom failingInvocation failingOperations failingDialogue) failingOutput := by
    rw [messagesFrom, hmessages]
    decide +kernel
  obtain ⟨hreplay, hunread⟩ := exchanges_keep_step rfl hstart (by decide +kernel) hwrites
  have hresults : (Operation.replayAll failingOutput.reply failingOperations 1).1 =
      [.error (.refused "no model"), .ok .nothing, .ok (.verdict (.unknown "timeout")),
        .error (.refused "(labels\n+A")] := by
    decide +kernel
  refine ⟨?_, hunread.trans ?_⟩
  · rw [← hresults, hreplay]
  · rw [hmessages]
    decide +kernel

end SmtSession.Solver
