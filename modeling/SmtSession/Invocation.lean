import SmtSession.Settings.Basic
import SmtSession.Text.Upper

/-!
# Invocations

How a solver is started: its program, its arguments, and the options it is sent first. An option set
again keeps its place.
-/

namespace SmtSession

structure Invocation where
  program : String
  args : List String
  options : List (String × String)
deriving DecidableEq

namespace Invocation

/-- Replaces the value of a name, or adds the name at the end. -/
def put (name value : String) : List (String × String) → List (String × String)
  | [] => [(name, value)]
  | (other, old) :: rest =>
    if other = name then (name, value) :: rest else (other, old) :: put name value rest

def setOption (invocation : Invocation) (name value : String) : Invocation :=
  { invocation with options := put name value invocation.options }

def dropOption (invocation : Invocation) (name : String) : Invocation :=
  { invocation with options := invocation.options.filter (·.1 ≠ name) }

def option? (invocation : Invocation) (name : String) : Option String :=
  (invocation.options.find? (·.1 = name)).map (·.2)

def addArg (invocation : Invocation) (arg : String) : Invocation :=
  { invocation with args := invocation.args ++ [arg] }

theorem find?_put (name name' value : String) (options : List (String × String)) :
    ((put name value options).find? (·.1 = name')).map (·.2) =
      if name = name' then some value else (options.find? (·.1 = name')).map (·.2) := by
  induction options with
  | nil => by_cases h : name = name' <;> simp [put, h]
  | cons option options ih =>
    obtain ⟨other, old⟩ := option
    by_cases hname : other = name
    · subst hname
      by_cases h : other = name' <;> simp [put, h]
    · rw [put, if_neg hname]
      by_cases h : other = name'
      · have : name ≠ name' := fun heq => hname (h.trans heq.symm)
        simp [h, this]
      · simpa [h] using ih

@[simp]
theorem option?_setOption (invocation : Invocation) (name name' value : String) :
    (invocation.setOption name value).option? name' =
      if name = name' then some value else invocation.option? name' :=
  find?_put name name' value invocation.options

@[simp]
theorem option?_dropOption (invocation : Invocation) (name name' : String) :
    (invocation.dropOption name).option? name' =
      if name = name' then none else invocation.option? name' := by
  rw [option?, dropOption, List.find?_filter]
  by_cases h : name = name'
  · simp [h]
  · rw [if_neg h, option?]
    congr 2
    funext option
    by_cases hoption : option.1 = name'
    · simp [hoption, Ne.symm h]
    · simp [hoption]

/-- A solver that reads commands from its input, reports models, and keeps declarations when a frame
is dropped. -/
def base (program : String) : Invocation :=
  ({ program, args := ["-in", "-smt2"], options := [] } : Invocation)
    |>.setOption "global-declarations" "true"
    |>.setOption "produce-models" "true"

def boolText (value : Bool) : String := if value then "true" else "false"

def modelGeneration (invocation : Invocation) (enabled : Bool) : Invocation :=
  invocation.setOption "produce-models" (boolText enabled)

def modelCompletion (invocation : Invocation) (enabled : Bool) : Invocation :=
  invocation.setOption "model.completion" (boolText enabled)

def typeCheck (invocation : Invocation) (enabled : Bool) : Invocation :=
  invocation.setOption "well_sorted_check" (boolText enabled)

/-- Sets the time for one check, or removes the bound. -/
def timeout (invocation : Invocation) : Option Nat → Invocation
  | some milliseconds => invocation.setOption "timeout" (toString milliseconds)
  | none => invocation.dropOption "timeout"

/-- The command line to show: an argument with a space in it is quoted. -/
def commandLine (invocation : Invocation) : String :=
  let quoted (arg : String) := if arg.toList.contains ' ' then "\"" ++ arg ++ "\"" else arg
  invocation.program ++ " " ++ " ".intercalate (invocation.args.map quoted)

/-- The program to run for a solver: what the variable named after it says, or else its name. -/
def locate (environment : List (String × String)) (program : String) : String :=
  match environment.find? (·.1 = Text.upper program ++ "_BIN") with
  | some (_, path) => path
  | none => program

end Invocation

end SmtSession
