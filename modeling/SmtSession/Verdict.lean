/-!
# Verdicts
-/

namespace SmtSession

inductive Verdict where
  | valid
  | invalid
  | undetermined
  | outOfMemory
  | outOfResource
  | timeout
deriving DecidableEq, Inhabited

namespace Verdict

def print : Verdict → String
  | .valid => "valid"
  | .invalid => "invalid"
  | .undetermined => "undetermined"
  | .outOfMemory => "out of memory"
  | .outOfResource => "out of resource"
  | .timeout => "timeout"

def occursIn (word : List Char) : List Char → Bool
  | [] => word.isEmpty
  | c :: text => word.isPrefixOf (c :: text) || occursIn word text

/-- The verdict for a check the solver gave up, by the words of its reason in any letter case. The
words are ASCII, and no other letter has one of theirs as its lower case. -/
def ofReason (reason : String) : Verdict :=
  let text := reason.toList.map Char.toLower
  let mentions (word : String) : Bool := occursIn word.toList text
  if mentions "timeout" || mentions "canceled" then .timeout
  else if mentions "memout" || mentions "memory" then .outOfMemory
  else if mentions "resource" || mentions "rlimit" then .outOfResource
  else .undetermined

end Verdict

end SmtSession
