import SmtSession.SExpr.Printer
import SmtSession.SExpr.Value
import SmtSession.Table

/-!
# Counterexample models

What a solver says the symbols of a refuted formula stand for. A model is partial: a declared symbol
may be missing.
-/

namespace SmtSession

/-- The interpretation of a symbol: the value of a constant, or the body of a function over its
parameters. -/
structure Interpretation where
  params : List (String × SExpr)
  sort : SExpr
  body : SExpr
deriving DecidableEq

structure Model where
  definitions : Table Interpretation := .empty
  /-- The elements of each uninterpreted sort. -/
  universes : Table (List String) := .empty
deriving DecidableEq

namespace Model

def empty : Model := {}

def define (model : Model) (name : String) (interpretation : Interpretation) : Model :=
  { model with definitions := model.definitions.insert name interpretation }

def addElement (model : Model) (sort element : String) : Model :=
  let elements := (model.universes.find? sort).getD []
  { model with universes := model.universes.insert sort (elements ++ [element]) }

def setValue (model : Model) (name : String) (sort value : SExpr) : Model :=
  model.define name ⟨[], sort, value⟩

def definition? (model : Model) (name : String) : Option Interpretation :=
  model.definitions.find? name

def value? (model : Model) (name : String) : Option SExpr :=
  match model.definition? name with
  | some interpretation => if interpretation.params.isEmpty then some interpretation.body else none
  | none => none

def interpreted? (model : Model) (name : String) : Option Value :=
  (model.value? name).bind SExpr.value?

@[simp]
theorem definition?_define (model : Model) (name name' : String)
    (interpretation : Interpretation) :
    (model.define name interpretation).definition? name' =
      if name = name' then some interpretation else model.definition? name' :=
  Table.find?_insert model.definitions name name' interpretation

def symbols (model : Model) : List String := model.definitions.keys

def elements (model : Model) (sort : String) : List String :=
  (model.universes.find? sort).getD []

@[simp]
theorem elements_addElement (model : Model) (sort sort' element : String) :
    (model.addElement sort element).elements sort' =
      if sort = sort' then model.elements sort ++ [element] else model.elements sort' := by
  unfold elements addElement
  rw [Table.find?_insert]
  split <;> rfl

def isEmpty (model : Model) : Bool := model.definitions.entries.isEmpty

def printEntry (name : String) (interpretation : Interpretation) : String :=
  let params := interpretation.params.map (·.1)
  let head := if params.isEmpty then name else name ++ "(" ++ ", ".intercalate params ++ ")"
  head ++ " = " ++ interpretation.body.print ++ "\n"

def print (model : Model) : String :=
  String.join (model.definitions.entries.map fun (name, interpretation) =>
    printEntry name interpretation)

end Model

end SmtSession
