import SmtSession.Engine.Basic

/-!
# Scripted engines

An engine in memory. It records every call, keeps the frames of assertions, gives its checks answers
from a queue, and fails the calls it is told to fail.
-/

namespace SmtSession

namespace Scripted

inductive Event where
  | declareSort (name : String)
  | declareConst (name : String) (ty : Ty)
  | declareFun (name : String) (domain : List Ty) (range : Ty)
  | push
  | pop
  | assertAxiom (formula : SExpr)
  | assertConjecture (formula : SExpr)
  | check
  | remark (text : String)
  | saveTranscript (name : String)
deriving DecidableEq

inductive Assertion where
  | axiomatic (formula : SExpr)
  | conjectured (formula : SExpr)
deriving DecidableEq

/-- A call that can be told to fail before it has any effect. -/
inductive Call where
  | declareSort
  | declareConst
  | declareFun
  | push
  | pop
  | assertAxiom
deriving DecidableEq

abbrev Frame := List Assertion

end Scripted

open Scripted

structure Scripted where
  /-- All calls, the earliest first. -/
  events : List Event := []
  /-- The frame that is never dropped, the oldest assertion first. -/
  base : Frame := []
  /-- The frames above, the latest first. -/
  frames : List Frame := []
  answers : List (Except String Report) := []
  /-- The failure of the next conjecture, which is recorded all the same. -/
  conjectureFault : Option String := none
  /-- Whether the next calls of the other kinds fail, the earliest first. -/
  faults : List (Call × Option String) := []

namespace Scripted

def empty : Scripted := {}

def queueAnswer (answer : Except String Report) (scripted : Scripted) : Scripted :=
  { scripted with answers := scripted.answers ++ [answer] }

def setConjectureFault (message : String) (scripted : Scripted) : Scripted :=
  { scripted with conjectureFault := some message }

def addFault (call : Call) (message : String) (scripted : Scripted) : Scripted :=
  { scripted with faults := scripted.faults ++ [(call, some message)] }

def depth (scripted : Scripted) : Nat := scripted.frames.length

def assertions (scripted : Scripted) : List Assertion :=
  scripted.base ++ scripted.frames.reverse.flatten

def record (event : Event) (scripted : Scripted) : Scripted :=
  { scripted with events := scripted.events ++ [event] }

def assert (assertion : Assertion) (scripted : Scripted) : Scripted :=
  match scripted.frames with
  | [] => { scripted with base := scripted.base ++ [assertion] }
  | frame :: frames => { scripted with frames := (frame ++ [assertion]) :: frames }

@[simp]
theorem depth_assert (assertion : Assertion) (scripted : Scripted) :
    (scripted.assert assertion).depth = scripted.depth := by
  unfold assert depth
  split <;> simp_all

def checkFault (call : Call) : Action Scripted Solver.Failure Unit := fun scripted =>
  let rest := { scripted with faults := scripted.faults.eraseP (·.1 = call) }
  match scripted.faults.find? (·.1 = call) with
  | some (_, some message) => (.error (.refused message), rest)
  | _ => (.ok (), rest)

/-- A call that is recorded and then has its effect, unless it is told to fail. -/
def perform (call : Call) (event : Event) (effect : Scripted → Scripted) :
    Action Scripted Solver.Failure Unit := do
  checkFault call
  Action.modify fun scripted => effect (record event scripted)

def dropFrame : Action Scripted Solver.Failure Unit := fun scripted =>
  match scripted.frames with
  | [] => (.error (.refused "pop on an empty stack"), scripted)
  | _ :: frames => (.ok (), { scripted with frames })

def conjecture (formula : SExpr) : Action Scripted Solver.Failure Unit := fun scripted =>
  let scripted := record (.assertConjecture formula) scripted
  match scripted.conjectureFault with
  | some message => (.error (.refused message), { scripted with conjectureFault := none })
  | none => (.ok (), assert (.conjectured formula) scripted)

/-- A check without an answer in the queue finds no counterexample. -/
def nextAnswer : Action Scripted Solver.Failure Report := fun scripted =>
  let scripted := record .check scripted
  match scripted.answers with
  | [] => (.ok ⟨.valid, []⟩, scripted)
  | .ok report :: answers => (.ok report, { scripted with answers })
  | .error message :: answers => (.error (.refused message), { scripted with answers })

instance : Engine Scripted where
  declareSort name := perform .declareSort (.declareSort name) id
  declareConst name ty := perform .declareConst (.declareConst name ty) id
  declareFun name domain range :=
    perform .declareFun (.declareFun name domain range) id
  push := perform .push .push fun scripted => { scripted with frames := [] :: scripted.frames }
  pop := do
    perform .pop .pop id
    dropFrame
  assertAxiom formula :=
    perform .assertAxiom (.assertAxiom formula) (assert (.axiomatic formula))
  assertConjecture := conjecture
  check := nextAnswer
  remark text := record (.remark text)
  saveTranscript name := record (.saveTranscript name)

end Scripted

end SmtSession
