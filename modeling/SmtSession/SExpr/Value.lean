import SmtSession.SExpr.Basic

/-!
# Values

A solver writes truth values as `true` and `false`, and a negative integer as `(- n)`.
-/

namespace SmtSession

inductive Value where
  | bool (value : Bool)
  | int (value : Int64)
deriving DecidableEq

/-- A numeral above the largest signed word has no value. -/
def Value.ofNumeral? (n : UInt64) : Option Value :=
  if n ≤ Int64.maxValue.toUInt64 then some (.int n.toInt64) else none

def Value.ofSymbol? (text : String) : Option Value :=
  if text = "true" then some (.bool true)
  else if text = "false" then some (.bool false)
  else none

/-- The value an s-expression stands for. As numerals have no values above the largest signed word,
no negation on the way leaves the range of signed words. -/
def SExpr.value? : SExpr → Option Value
  | .atom (.numeral n) => Value.ofNumeral? n
  | .atom (.symbol text) => Value.ofSymbol? text
  | .list [.atom (.symbol "-"), magnitude] =>
    match magnitude.value? with
    | some (.int n) => some (.int (-n))
    | _ => none
  | _ => none

end SmtSession
