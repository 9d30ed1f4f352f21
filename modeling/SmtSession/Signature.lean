import SmtSession.Action
import SmtSession.Declaration

/-!
# Signatures

The declarations of a session so far. Types, symbols without arguments, and functions have a
namespace each: a constant and a global variable cannot share a name, a constant and a function can.
-/

namespace SmtSession

inductive DeclarationError where
  | duplicate (kind : Declaration.Kind) (name : String)
  | arity (name : String) (outputs : Nat)
  | undeclaredType (name : String) (type : String)
deriving DecidableEq

def DeclarationError.message : DeclarationError → String
  | .duplicate kind name => kind.print ++ " " ++ name ++ " is already declared"
  | .arity name outputs =>
    "cannot handle function " ++ name ++ " with " ++ toString outputs ++ " out parameters"
  | .undeclaredType name type => name ++ " uses undeclared type " ++ type

/-- The declarations in the order they were made, and the names taken in each namespace. -/
structure Signature where
  declarations : List Declaration := []
  types : List String := []
  symbols : List String := []
  functions : List String := []

namespace Signature

def empty : Signature := {}

def hasType (signature : Signature) (name : String) : Bool := signature.types.contains name

def hasSymbol (signature : Signature) (name : String) : Bool := signature.symbols.contains name

def hasFunction (signature : Signature) (name : String) : Bool := signature.functions.contains name

/-- Refuses the first type mentioned in `tys` that has not been declared. -/
def requireTypes (signature : Signature) (name : String) (tys : List Ty) :
    Except DeclarationError Unit :=
  match (tys.flatMap Ty.names).find? (!signature.hasType ·) with
  | some type => .error (.undeclaredType name type)
  | none => .ok ()

def requireSymbol (signature : Signature) (kind : Declaration.Kind) (name : String) (ty : Ty) :
    Except DeclarationError Unit :=
  if signature.hasSymbol name then .error (.duplicate kind name)
  else signature.requireTypes name [ty]

def functionRange (signature : Signature) (function : Function) : Except DeclarationError Ty :=
  match function.outputs with
  | [range] =>
    if signature.hasFunction function.name then .error (.duplicate .function function.name)
    else
      match signature.requireTypes function.name (function.inputs ++ [range]) with
      | .error error => .error error
      | .ok () => .ok range
  | outputs => .error (.arity function.name outputs.length)

def check (signature : Signature) : Declaration → Except DeclarationError Unit
  | .type name => if signature.hasType name then .error (.duplicate .type name) else .ok ()
  | .constant content => signature.requireSymbol .constant content.name content.ty
  | .function content => (signature.functionRange content).map fun _ => ()
  | .global content => signature.requireSymbol .global content.name content.ty

def record (signature : Signature) (declaration : Declaration) : Signature :=
  let recorded := { signature with declarations := signature.declarations ++ [declaration] }
  match declaration with
  | .type name => { recorded with types := name :: signature.types }
  | .constant content => { recorded with symbols := content.name :: signature.symbols }
  | .function content => { recorded with functions := content.name :: signature.functions }
  | .global content => { recorded with symbols := content.name :: signature.symbols }

def declare (signature : Signature) (declaration : Declaration) :
    Except DeclarationError Signature :=
  match signature.check declaration with
  | .error error => .error error
  | .ok () => .ok (signature.record declaration)

def uniquesOf (signature : Signature) (ty : Ty) : List Constant :=
  signature.declarations.filterMap fun
    | .constant content => if content.unique && content.ty = ty then some content else none
    | _ => none

/-- Puts a name into a table, and tells whether it was not there before. -/
def insertName (name : String) (table : List String) : Bool × List String :=
  if table.contains name then (false, table) else (true, name :: table)

def append (declaration : Declaration) (signature : Signature) : Signature :=
  { signature with declarations := signature.declarations ++ [declaration] }

/-- The name is put into the table before it is known whether it was free. -/
def enterType (name : String) : Action Signature DeclarationError Unit := do
  let signature ← .get
  let (isNew, types) := insertName name signature.types
  .modify fun signature => { signature with types }
  if isNew then .modify (append (.type name))
  else .fail (.duplicate .type name)

def enterSymbol (declaration : Declaration) (ty : Ty) :
    Action Signature DeclarationError Unit := do
  let signature ← .get
  .ofExcept (signature.requireSymbol declaration.kind declaration.name ty)
  .modify fun signature =>
    { signature with symbols := (insertName declaration.name signature.symbols).2 }
  .modify (append declaration)

/-- Whether a function can be declared at all. Nothing is recorded. -/
def checkFunction (function : Function) : Action Signature DeclarationError Ty := do
  let signature ← .get
  .ofExcept (signature.functionRange function)

def enterFunction (function : Function) : Action Signature DeclarationError Unit := do
  discard (checkFunction function)
  .modify fun signature =>
    { signature with functions := (insertName function.name signature.functions).2 }
  .modify (append (.function function))

/-- Records a declaration in place. -/
def enter : Declaration → Action Signature DeclarationError Unit
  | .type name => enterType name
  | .constant content => enterSymbol (.constant content) content.ty
  | .function content => enterFunction content
  | .global content => enterSymbol (.global content) content.ty

@[simp]
theorem declarations_record (signature : Signature) (declaration : Declaration) :
    (signature.record declaration).declarations = signature.declarations ++ [declaration] := by
  cases declaration <;> rfl

theorem insertName_of_not_contains {name : String} {table : List String}
    (h : table.contains name = false) : insertName name table = (true, name :: table) := by
  rw [insertName, h]
  rfl

theorem run_checkFunction (function : Function) (signature : Signature) :
    (checkFunction function).run signature = (signature.functionRange function, signature) :=
  rfl

theorem run_enterType (name : String) (signature : Signature) :
    (enterType name).run signature =
      match signature.check (.type name) with
      | .ok () => (.ok (), signature.record (.type name))
      | .error error => (.error error, signature) := by
  rw [enterType, Action.run_bind_ok (Action.run_get signature), check, hasType, insertName]
  cases signature.types.contains name <;> rfl

theorem hasSymbol_of_requireSymbol {signature : Signature} {kind : Declaration.Kind}
    {name : String} {ty : Ty} (h : signature.requireSymbol kind name ty = .ok ()) :
    signature.symbols.contains name = false := by
  unfold requireSymbol hasSymbol at h
  cases hcontains : signature.symbols.contains name with
  | false => rfl
  | true =>
      rw [hcontains] at h
      contradiction

theorem run_enterSymbol (declaration : Declaration) (ty : Ty) (signature : Signature) :
    (enterSymbol declaration ty).run signature =
      match signature.requireSymbol declaration.kind declaration.name ty with
      | .ok () => (.ok (), append declaration
          { signature with symbols := declaration.name :: signature.symbols })
      | .error error => (.error error, signature) := by
  rw [enterSymbol, Action.run_bind_ok (Action.run_get signature)]
  cases hrequire : signature.requireSymbol declaration.kind declaration.name ty with
  | error error => rfl
  | ok _ =>
      have hfree := insertName_of_not_contains (hasSymbol_of_requireSymbol hrequire)
      rw [Action.run_bind_ok (Action.run_ofExcept _ signature),
        Action.run_bind_ok (Action.run_modify _ signature), Action.run_modify, hfree]

theorem hasFunction_of_functionRange {signature : Signature} {function : Function} {range : Ty}
    (h : signature.functionRange function = .ok range) :
    signature.functions.contains function.name = false := by
  unfold functionRange hasFunction at h
  cases hcontains : signature.functions.contains function.name with
  | false => rfl
  | true =>
      rw [hcontains] at h
      split at h <;> contradiction

theorem output_of_functionRange {signature : Signature} {function : Function} {range : Ty}
    (h : signature.functionRange function = .ok range) : function.outputs = [range] := by
  unfold functionRange at h
  split at h
  · rename_i output houtput
    split at h
    · contradiction
    · split at h
      · contradiction
      · rw [houtput, Except.ok.inj h]
  · contradiction

theorem run_enterFunction (function : Function) (signature : Signature) :
    (enterFunction function).run signature =
      match signature.functionRange function with
      | .ok _ => (.ok (), append (.function function)
          { signature with functions := function.name :: signature.functions })
      | .error error => (.error error, signature) := by
  rw [enterFunction]
  cases hrange : signature.functionRange function with
  | error error =>
      have hcheck : (discard (checkFunction function)).run signature =
          (.error error, signature) := by
        change (checkFunction function >>= fun _ => pure ()).run signature = _
        rw [Action.run_bind_error (by rw [run_checkFunction, hrange])]
      rw [Action.run_bind_error hcheck]
  | ok range =>
      have hcheck : (discard (checkFunction function)).run signature = (.ok (), signature) := by
        change (checkFunction function >>= fun _ => pure ()).run signature = _
        rw [Action.run_bind_ok (by rw [run_checkFunction, hrange]), Action.run_pure]
      have hfree := insertName_of_not_contains (hasFunction_of_functionRange hrange)
      rw [Action.run_bind_ok hcheck, Action.run_bind_ok (Action.run_modify _ signature),
        Action.run_modify, hfree]

/-- To declare in place is to declare, and a declaration that is refused leaves everything as it
was. -/
theorem run_enter (declaration : Declaration) (signature : Signature) :
    (enter declaration).run signature =
      match signature.declare declaration with
      | .ok extended => (.ok (), extended)
      | .error error => (.error error, signature) := by
  cases declaration with
  | type name =>
      rw [enter, run_enterType, declare]
      cases signature.check (.type name) <;> rfl
  | constant content =>
      rw [enter, run_enterSymbol, declare, check]
      change (match signature.requireSymbol .constant content.name content.ty with
        | .ok () => _ | .error error => _) = _
      cases signature.requireSymbol .constant content.name content.ty <;> rfl
  | function content =>
      rw [enter, run_enterFunction, declare, check]
      cases signature.functionRange content <;> rfl
  | global content =>
      rw [enter, run_enterSymbol, declare, check]
      change (match signature.requireSymbol .global content.name content.ty with
        | .ok () => _ | .error error => _) = _
      cases signature.requireSymbol .global content.name content.ty <;> rfl

end Signature

end SmtSession
