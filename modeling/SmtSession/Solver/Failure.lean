/-!
# Failures of a solver
-/

namespace SmtSession.Solver

inductive ChannelFault where
  /-- The solver has closed its input. -/
  | broken
  | notFound
  /-- A line of the output is not text. -/
  | notText
deriving DecidableEq

def ChannelFault.message : ChannelFault → String
  | .broken => "Broken pipe (os error 32)"
  | .notFound => "No such file or directory (os error 2)"
  | .notText => "stream did not contain valid UTF-8"

inductive Failure where
  | channel (fault : ChannelFault)
  /-- The solver reported an error, or its output ended. -/
  | refused (output : String)
  /-- The reply is not what the command asks for. -/
  | unexpected (command : String) (reply : String)
deriving DecidableEq

def Failure.message : Failure → String
  | .channel fault => "some I/O went wrong: " ++ fault.message
  | .refused output => "solver returned an error:\n" ++ output
  | .unexpected command reply => "unexpected solver response to " ++ command ++ ": " ++ reply

end SmtSession.Solver
