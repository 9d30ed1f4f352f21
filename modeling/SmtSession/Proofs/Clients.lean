import SmtSession.Proofs.Listening

/-!
# Clients of a solver

What a client does, apart from the dialogue it does it in: it tells commands, awaits replies, and
goes on by what they say. In a dialogue the replies are what the solver writes; a replay gives the
client replies that are known beforehand. Every operation of a dialogue is a client.
-/

namespace SmtSession.Solver

open Dialogue

inductive Client (α : Type) where
  | done (result : Except Failure α)
  | tell (command : SExpr) (next : Client α)
  | await (next : String → Client α)

namespace Client

variable {α β : Type}

def bind : Client α → (α → Client β) → Client β
  | .done (.ok a), next => next a
  | .done (.error failure), _ => .done (.error failure)
  | .tell command rest, next => .tell command (rest.bind next)
  | .await rest, next => .await fun reply => (rest reply).bind next

instance : Monad Client where
  pure a := .done (.ok a)
  bind := bind

def run : Client α → Action Dialogue Failure α
  | .done result => .ofExcept result
  | .tell command next => send command >>= fun _ => next.run
  | .await next => awaitReply >>= fun reply => (next reply).run

/-- The messages that the client writes in a dialogue. -/
def messages : Client α → Dialogue → List Message
  | .done _, _ => []
  | .tell command next, dialogue =>
    .command command :: next.messages ((send command).run dialogue).2
  | .await next, dialogue =>
    .request ::
      match awaitReply.run dialogue with
      | (.ok reply, dialogue) => (next reply).messages dialogue
      | (.error _, _) => []

/-- The client where the exchange after `count` others obtains the reply of that number. Gives the
result and how many exchanges there are then. -/
def replay (replies : Nat → Except Failure String) : Client α → Nat → Except Failure α × Nat
  | .done result, count => (result, count)
  | .tell _ next, count => next.replay replies count
  | .await next, count =>
    match replies count with
    | .ok reply => (next reply).replay replies (count + 1)
    | .error failure => (.error failure, count + 1)

theorem run_bind (client : Client α) (next : α → Client β) :
    (client >>= next).run = client.run >>= fun a => (next a).run := by
  induction client with
  | done result => cases result <;> rfl
  | tell command rest ih =>
      change (send command >>= fun _ => (rest >>= next).run) = _
      rw [ih, ← bind_assoc]
      rfl
  | await rest ih =>
      change (awaitReply >>= fun reply => (rest reply >>= next).run) = _
      rw [funext ih, ← bind_assoc]
      rfl

/-! ### The operations of a dialogue -/

/-- The s-expression that a reply is. -/
def answer (command : SExpr) (reply : String) : Except Failure SExpr :=
  match SExpr.read reply with
  | .ok expr => if isError expr then .error (.refused (errorText reply)) else .ok expr
  | .error _ => .error (.unexpected command.print reply)

def ask (command : SExpr) : Client SExpr :=
  .tell command (.await fun reply => .done (answer command reply))

def infoCommand (keyword : String) : SExpr := .application "get-info" [.symbol keyword]

def infoValue (keyword : String) (reply : SExpr) : Except Failure SExpr :=
  match reply with
  | .list [key, value] =>
    if key = .symbol keyword then .ok value
    else .error (.unexpected (infoCommand keyword).print reply.print)
  | _ => .error (.unexpected (infoCommand keyword).print reply.print)

def info (keyword : String) : Client SExpr := do
  let reply ← ask (infoCommand keyword)
  .done (infoValue keyword reply)

def verdict (reply : String) : Client Satisfiability :=
  match reply with
  | "unsat" => pure .unsat
  | "sat" => pure .sat
  | "unknown" => do
    let reason ← info ":reason-unknown"
    pure (.unknown reason.print)
  | _ => .done (.error (.refused (errorText reply)))

def checkSat : Client Satisfiability := .tell checkSatCommand (.await verdict)

def labelsCommand : SExpr := .application "labels" []

def labelTexts (reply : SExpr) : Except Failure (List String) :=
  match reply with
  | .list (.atom (.symbol "labels") :: labels) =>
    match labels.mapM labelText? with
    | some texts => .ok texts
    | none => .error (.unexpected labelsCommand.print reply.print)
  | _ => .error (.unexpected labelsCommand.print reply.print)

def labels : Client (List String) := do
  let reply ← ask labelsCommand
  .done (labelTexts reply)

theorem run_answer (command : SExpr) (reply : String) :
    (done (answer command reply)).run = readAnswer command reply := by
  unfold answer readAnswer
  cases SExpr.read reply with
  | error place => rfl
  | ok expr =>
      by_cases h : isError expr
      · simp only [h]
        rfl
      · simp only [h]
        rfl

theorem run_ask (command : SExpr) : (ask command).run = Dialogue.ask command := by
  rw [ask_eq, consult, bind_assoc, ← funext (run_answer command)]
  rfl

theorem run_info (keyword : String) : (info keyword).run = Dialogue.info keyword := by
  rw [info, run_bind, run_ask]
  unfold Dialogue.info
  congr 1
  funext reply
  match reply with
  | .atom _ => rfl
  | .comment _ => rfl
  | .list [] => rfl
  | .list [_] => rfl
  | .list [key, value] =>
      by_cases h : key = .symbol keyword
      · simp only [infoValue, h, if_true]
        rfl
      · simp only [infoValue, h, if_false]
        rfl
  | .list (_ :: _ :: _ :: _) => rfl

theorem run_verdict (reply : String) : (verdict reply).run = readVerdict reply := by
  by_cases hunsat : reply = "unsat"
  · subst hunsat
    rfl
  by_cases hsat : reply = "sat"
  · subst hsat
    rfl
  by_cases hunknown : reply = "unknown"
  · subst hunknown
    change (info ":reason-unknown" >>= fun reason =>
      pure (Satisfiability.unknown reason.print)).run = _
    rw [run_bind, run_info]
    rfl
  · simp only [verdict, readVerdict]
    rfl

theorem run_checkSat : checkSat.run = Dialogue.checkSat := by
  rw [checkSat_eq, consult, bind_assoc, ← funext run_verdict]
  rfl

theorem run_labels : labels.run = Dialogue.labels := by
  rw [labels, run_bind, run_ask]
  unfold Dialogue.labels
  congr 1
  funext reply
  match reply with
  | .atom _ => rfl
  | .comment _ => rfl
  | .list [] => rfl
  | .list (.atom (.numeral _) :: _) => rfl
  | .list (.comment _ :: _) => rfl
  | .list (.list _ :: _) => rfl
  | .list (.atom (.symbol head) :: texts) =>
      by_cases h : head = "labels"
      · subst h
        simp only [labelTexts]
        cases texts.mapM labelText? <;> rfl
      · simp [labelTexts, h]
        rfl

/-! ### The start of a solver -/

def configure : List (String × String) → Client Unit
  | [] => .await fun _ => pure ()
  | option :: options => .tell (optionCommand option) (configure options)

theorem run_configure (options : List (String × String)) :
    (configure options).run = Dialogue.configure options := by
  induction options with
  | nil => rfl
  | cons option options ih => rw [configure_cons, ← ih, configure, run]

theorem messages_configure (options : List (String × String)) (dialogue : Dialogue) :
    (configure options).messages dialogue =
      options.map (fun option => .command (optionCommand option)) ++ [.request] := by
  induction options generalizing dialogue with
  | nil =>
      rw [configure, messages]
      split <;> rfl
  | cons option options ih =>
      rw [configure, messages, ih]
      rfl

end Client

/-! ### Operations one after another -/

/-- What a user of a solver asks of a dialogue. -/
inductive Operation where
  | send (command : SExpr)
  | ask (command : SExpr)
  | checkSat
  | info (keyword : String)
  | model
  | labels

inductive Answer where
  | nothing
  | verdict (result : Satisfiability)
  | expr (value : SExpr)
  | texts (labels : List String)
deriving DecidableEq

namespace Operation

def perform : Operation → Action Dialogue Failure Answer
  | .send command => do
    Dialogue.send command
    pure .nothing
  | .ask command => return .expr (← Dialogue.ask command)
  | .checkSat => return .verdict (← Dialogue.checkSat)
  | .info keyword => return .expr (← Dialogue.info keyword)
  | .model => return .expr (← Dialogue.model)
  | .labels => return .texts (← Dialogue.labels)

def client : Operation → Client Answer
  | .send command => .tell command (pure .nothing)
  | .ask command => return .expr (← Client.ask command)
  | .checkSat => return .verdict (← Client.checkSat)
  | .info keyword => return .expr (← Client.info keyword)
  | .model => return .expr (← Client.ask (.application "get-model" []))
  | .labels => return .texts (← Client.labels)

theorem run_client (operation : Operation) : operation.client.run = operation.perform := by
  cases operation with
  | send command => rfl
  | ask command => rw [client, Client.run_bind, Client.run_ask]; rfl
  | checkSat => rw [client, Client.run_bind, Client.run_checkSat]; rfl
  | info keyword => rw [client, Client.run_bind, Client.run_info]; rfl
  | model => rw [client, Client.run_bind, Client.run_ask]; rfl
  | labels => rw [client, Client.run_bind, Client.run_labels]; rfl

/-- All results, and the dialogue after the operations. An operation that fails does not keep the
others from being performed. -/
def performAll : List Operation → Dialogue → List (Except Failure Answer) × Dialogue
  | [], dialogue => ([], dialogue)
  | operation :: operations, dialogue =>
    let (result, dialogue) := operation.perform.run dialogue
    let (results, dialogue) := performAll operations dialogue
    (result :: results, dialogue)

theorem performAll_cons (operation : Operation) (operations : List Operation)
    (dialogue : Dialogue) :
    performAll (operation :: operations) dialogue =
      ((operation.perform.run dialogue).1 ::
          (performAll operations (operation.perform.run dialogue).2).1,
        (performAll operations (operation.perform.run dialogue).2).2) :=
  rfl

def messagesOfAll : List Operation → Dialogue → List Message
  | [], _ => []
  | operation :: operations, dialogue =>
    operation.client.messages dialogue ++
      messagesOfAll operations (operation.perform.run dialogue).2

def replayAll (replies : Nat → Except Failure String) :
    List Operation → Nat → List (Except Failure Answer) × Nat
  | [], count => ([], count)
  | operation :: operations, count =>
    let (result, count) := operation.client.replay replies count
    let (results, count) := replayAll replies operations count
    (result :: results, count)

end Operation

end SmtSession.Solver
