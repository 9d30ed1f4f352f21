import SmtSession.Json.Basic

/-!
# Settings

Limits and model options of one session.
-/

namespace SmtSession

/-- A negative number means the same as none. -/
structure Settings where
  /-- The time for one check, in milliseconds. -/
  timeout : Option Int64 := none
  /-- The most counterexamples that one check reports. -/
  counterexampleLimit : Option Int64 := none
  modelGeneration : Bool := true
  modelCompletion : Bool := false
  typeCheck : Bool := true
deriving DecidableEq

namespace Settings

def default : Settings := {}

/-- The largest signed word stands for everything above it. -/
def clamp (n : UInt64) : Int64 :=
  if n ≤ Int64.maxValue.toUInt64 then n.toInt64 else Int64.maxValue

def setTimeout (settings : Settings) (milliseconds : Option UInt64) : Settings :=
  { settings with timeout := milliseconds.map clamp }

def setCounterexampleLimit (settings : Settings) (limit : Option UInt64) : Settings :=
  { settings with counterexampleLimit := limit.map clamp }

def nonNegative? (n : Int64) : Option Nat := if 0 ≤ n then some n.toInt.toNat else none

def timeout? (settings : Settings) : Option Nat := settings.timeout.bind nonNegative?

def counterexampleLimit? (settings : Settings) : Option Nat :=
  settings.counterexampleLimit.bind nonNegative?

/-- How many counterexamples an invalid check reports: one without a limit, and never none. -/
def reportLimit (settings : Settings) : Nat := max 1 (settings.counterexampleLimit?.getD 1)

/-- The settings that a session runs with: it needs models for the labels, leaves uninterpreted
values partial and has every term checked, whatever was asked. -/
def enforced (settings : Settings) : Settings :=
  { settings with modelGeneration := true, modelCompletion := false, typeCheck := true }

def toJson (settings : Settings) : Json :=
  let number : Option Int64 → Json
    | some n => .number n.toInt
    | none => .null
  .object [("timeout", number settings.timeout),
    ("counterexampleLimit", number settings.counterexampleLimit),
    ("modelGeneration", .bool settings.modelGeneration),
    ("modelCompletion", .bool settings.modelCompletion), ("typeCheck", .bool settings.typeCheck)]

end Settings

end SmtSession
