import SmtSession.Solver.Failure
import SmtSession.Text.Lines

/-!
# Connections to a solver

A solver reads lines and writes bytes. What it has written and nobody has read stays for the next
reading.
-/

namespace SmtSession.Solver

/-- What a solver does when it has read a line. -/
structure Reaction where
  output : List UInt8 := []
  /-- The solver closes its input, writes its output and ends. -/
  ends : Bool := false

/-- The reaction to the lines read so far, the latest first. -/
abbrev Behaviour := List String → Reaction

structure Connection where
  behaviour : Behaviour
  /-- The lines the solver has read, the latest first. -/
  received : List String := []
  unread : List UInt8 := []
  /-- Whether the solver still reads its input. -/
  isOpen : Bool := true

namespace Connection

def closed : Connection := { behaviour := fun _ => {}, isOpen := false }

def deliver (connection : Connection) (line : String) : Connection :=
  if connection.isOpen then
    let received := line :: connection.received
    let reaction := connection.behaviour received
    { connection with
      received, unread := connection.unread ++ reaction.output, isOpen := !reaction.ends }
  else connection

def writeLine (connection : Connection) (text : List Char) : Except ChannelFault Connection :=
  if connection.isOpen then
    .ok (((Text.lines text).map String.ofList).foldl deliver connection)
  else .error .broken

/-- The lines the solver has read, the earliest first. -/
def lines (connection : Connection) : List String := connection.received.reverse

end Connection

end SmtSession.Solver
