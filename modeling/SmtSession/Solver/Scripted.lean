import SmtSession.Solver.Dialogue

/-!
# Scripted solvers

A solver that accepts every line in silence and gives one reply after another, each when it is asked
for the marker.
-/

namespace SmtSession.Solver

inductive Reply where
  /-- A text on lines of its own, and the marker. -/
  | text (content : String)
  /-- Exactly these bytes. -/
  | bytes (content : List UInt8)
  /-- The solver ends with exactly this text. -/
  | lastWords (content : String)

namespace Reply

def onLines (content : String) : String :=
  if content = "" || content.toList.getLast? = some '\n' then content else content ++ "\n"

def reaction : Reply → Reaction
  | .text content => { output := Text.bytesOf (onLines content ++ Dialogue.marker ++ "\n") }
  | .bytes content => { output := content }
  | .lastWords content => { output := Text.bytesOf content, ends := true }

end Reply

/-- Gives the replies in order, and empty ones when they are used up. -/
def Behaviour.scripted (replies : List Reply) : Behaviour
  | [] => {}
  | line :: earlier =>
    if line = Dialogue.markerCommand then
      (replies[earlier.count Dialogue.markerCommand]?.getD (.text "")).reaction
    else {}

end SmtSession.Solver
