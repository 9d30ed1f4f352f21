import SmtSession.Action
import SmtSession.Invocation
import SmtSession.SExpr.Reader
import SmtSession.Solver.Connection
import SmtSession.Solver.Transcript
import SmtSession.Text.WhiteSpace

/-!
# Dialogues with a solver

Commands are sent one after another. Most are silent; to get a reply, the solver is asked to echo a
marker, and the reply is everything it wrote up to the marker.
-/

namespace SmtSession.Solver

structure Dialogue where
  connection : Connection
  /-- The commands sent so far, and the remarks between them. -/
  log : List SExpr := []
  /-- Where transcripts are saved, if they are kept. -/
  archive : Option Archive := none

inductive Satisfiability where
  | sat
  | unsat
  | unknown (reason : String)
deriving DecidableEq

/-- An `error` reply with a message. -/
def errorMessage? : SExpr → Option String
  | .list [.atom (.symbol "error"), .atom (.symbol message)] => some message
  | _ => none

/-- The message of the first error in a reply, or all of the reply. -/
def errorText (reply : String) : String :=
  match SExpr.readMany reply with
  | .ok exprs => (exprs.findSome? errorMessage?).getD reply
  | .error _ => reply

def isError : SExpr → Bool
  | .list (.atom (.symbol "error") :: _) => true
  | _ => false

namespace Dialogue

def marker : String := "<<DONE>>"

def markerCommand : String := "(echo \"" ++ marker ++ "\")"

/-- A solver may echo the marker with or without quotes. -/
def isMarker (line : List Char) : Bool :=
  let line := Text.trimEnd line
  line = marker.toList || line = ('"' :: marker.toList ++ ['"'])

/-- Reads lines up to the marker, after the text read before. Gives the text without the white space
at its end, and the lines left over. -/
def collect (before : List Char) :
    List (List UInt8) → Except Failure String × List (List UInt8)
  | [] => (.error (.refused (errorText (String.ofList before))), [])
  | line :: lines =>
    match Text.ofBytes? line with
    | none => (.error (.channel .notText), lines)
    | some text =>
      if isMarker text.toList then (.ok (String.ofList (Text.trimEnd before)), lines)
      else collect (before ++ text.toList) lines

def writeLine (text : List Char) : Action Dialogue Failure Unit := fun dialogue =>
  match dialogue.connection.writeLine text with
  | .ok connection => (.ok (), { dialogue with connection })
  | .error fault => (.error (.channel fault), dialogue)

def enter (entry : SExpr) (dialogue : Dialogue) : Dialogue :=
  { dialogue with log := dialogue.log ++ [entry] }

def send (command : SExpr) : Action Dialogue Failure Unit := do
  writeLine command.chars
  Action.modify (enter command)

def readReply : Action Dialogue Failure String := fun dialogue =>
  let (result, lines) := collect [] (Text.byteLines dialogue.connection.unread)
  (result, { dialogue with connection := { dialogue.connection with unread := lines.flatten } })

def awaitReply : Action Dialogue Failure String := do
  writeLine markerCommand.toList
  readReply

/-- Sends a command whose reply is one s-expression. -/
def ask (command : SExpr) : Action Dialogue Failure SExpr := do
  send command
  let reply ← awaitReply
  match SExpr.read reply with
  | .ok expr => if isError expr then .fail (.refused (errorText reply)) else pure expr
  | .error _ => .fail (.unexpected command.print reply)

/-- The value that the solver gives for a keyword. -/
def info (keyword : String) : Action Dialogue Failure SExpr := do
  let command := SExpr.application "get-info" [.symbol keyword]
  let reply ← ask command
  match reply with
  | .list [key, value] =>
    if key = .symbol keyword then pure value else .fail (.unexpected command.print reply.print)
  | _ => .fail (.unexpected command.print reply.print)

/-- Asks whether what is asserted can be satisfied, and for the reason where the solver cannot tell.
-/
def checkSat : Action Dialogue Failure Satisfiability := do
  send (.application "check-sat" [])
  let reply ← awaitReply
  match reply with
  | "unsat" => pure .unsat
  | "sat" => pure .sat
  | "unknown" => do
    let reason ← info ":reason-unknown"
    pure (.unknown reason.print)
  | _ => .fail (.refused (errorText reply))

def model : Action Dialogue Failure SExpr := ask (.application "get-model" [])

def labelText? : SExpr → Option String
  | .atom atom => some (match atom with
    | .symbol text => text
    | .numeral value => toString value.toNat)
  | _ => none

/-- The labels that the solver gives for its latest answer, as it writes them. -/
def labels : Action Dialogue Failure (List String) := do
  let command := SExpr.application "labels" []
  let reply ← ask command
  match reply with
  | .list (.atom (.symbol "labels") :: labels) =>
    match labels.mapM labelText? with
    | some texts => pure texts
    | none => .fail (.unexpected command.print reply.print)
  | _ => .fail (.unexpected command.print reply.print)

def push : Action Dialogue Failure Unit := send (.application "push" [.numeral 1])

def pop : Action Dialogue Failure Unit := send (.application "pop" [.numeral 1])

def keepsTranscripts (dialogue : Dialogue) : Bool := dialogue.archive.isSome

/-- Records a remark after an empty line, where transcripts are kept. -/
def remark (text : String) (dialogue : Dialogue) : Dialogue :=
  if dialogue.keepsTranscripts then
    dialogue |> enter (.comment "") |> enter (.comment text)
  else dialogue

/-- Saves the transcript so far, where transcripts are kept. Gives the stem of the file's name. -/
def saveTranscript (name : String) (dialogue : Dialogue) : Option String × Dialogue :=
  match dialogue.archive with
  | none => (none, dialogue)
  | some archive =>
    let (stem, archive) := archive.save name (Transcript.render dialogue.log)
    (stem, { dialogue with archive := some archive })

/-- Sets the options, and drops what the solver has to say about them. -/
def configure (options : List (String × String)) : Action Dialogue Failure Unit := do
  options.forM fun (name, value) =>
    send (.application "set-option" [.symbol (":" ++ name), .symbol value])
  discard awaitReply

abbrev Host := String → Option Behaviour

/-- Starts a solver. The dialogue is there to be closed also where the start fails. -/
def start (host : Host) (invocation : Invocation) (archive : Option Archive) :
    Except Failure Unit × Dialogue :=
  let log := [.comment invocation.commandLine]
  match host invocation.program with
  | none => (.error (.channel .notFound), { connection := .closed, log, archive })
  | some behaviour =>
    (configure invocation.options).run { connection := { behaviour }, log, archive }

def close (dialogue : Dialogue) : Dialogue := ((writeLine "(exit)".toList).run dialogue).2

end Dialogue

end SmtSession.Solver
