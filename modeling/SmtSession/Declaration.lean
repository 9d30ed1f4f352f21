import SmtSession.Ty

/-!
# Declarations

What a theory introduces: types, constants, functions and global variables.
-/

namespace SmtSession

structure Constant where
  name : String
  ty : Ty
  /-- Whether the constant differs from every other unique constant of its type. -/
  unique : Bool := false
deriving DecidableEq

/-- A function may have any number of outputs; a solver takes those with one. -/
structure Function where
  name : String
  inputs : List Ty
  outputs : List Ty
deriving DecidableEq

/-- A variable of the program, which a solver sees as a constant. -/
structure GlobalVariable where
  name : String
  ty : Ty
deriving DecidableEq

inductive Declaration where
  | type (name : String)
  | constant (content : Constant)
  | function (content : Function)
  | global (content : GlobalVariable)
deriving DecidableEq

namespace Declaration

inductive Kind where
  | type
  | constant
  | function
  | global
deriving DecidableEq

def Kind.print : Kind → String
  | .type => "type"
  | .constant => "constant"
  | .function => "function"
  | .global => "global variable"

def kind : Declaration → Kind
  | .type _ => .type
  | .constant _ => .constant
  | .function _ => .function
  | .global _ => .global

def name : Declaration → String
  | .type name => name
  | .constant content => content.name
  | .function content => content.name
  | .global content => content.name

def toJson : Declaration → Json
  | .type name => .object [("Type", .string name)]
  | .constant content =>
    .object [("Constant", .object [("name", .string content.name), ("ty", content.ty.toJson),
      ("unique", .bool content.unique)])]
  | .function content =>
    .object [("Function", .object [("name", .string content.name),
      ("inputs", .array (content.inputs.map Ty.toJson)),
      ("outputs", .array (content.outputs.map Ty.toJson))])]
  | .global content =>
    .object [("GlobalVariable", .object [("name", .string content.name),
      ("ty", content.ty.toJson)])]

end Declaration

end SmtSession
