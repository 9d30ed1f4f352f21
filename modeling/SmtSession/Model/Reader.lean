import SmtSession.Model.Basic
import SmtSession.Solver.Failure

/-!
# Reading models

A model is a list of definitions and universe elements, in the words of the solver's reply to
`(get-model)`. Entries of any other shape say nothing about symbols and are skipped.
-/

namespace SmtSession.Model

open Solver

def malformed (what : String) (part : SExpr) : Failure :=
  .unexpected "(get-model)" (what ++ ": " ++ part.print)

def readParam (binder : SExpr) : Except Failure (String × SExpr) :=
  match binder with
  | .list [.atom (.symbol name), sort] => .ok (name, sort)
  | .list [_, _] => .error (malformed "binder name should be a symbol" binder)
  | _ => .error (malformed "binder should be (name sort)" binder)

def readParams (binders : SExpr) : Except Failure (List (String × SExpr)) :=
  match binders with
  | .list binders => binders.mapM readParam
  | _ => .error (malformed "binders should be a list" binders)

def readEntry (model : Model) (entry : SExpr) : Except Failure Model :=
  match entry with
  | .list [.atom (.symbol "define-fun"), name, binders, sort, body] =>
    match name with
    | .atom (.symbol name) =>
      match readParams binders with
      | .error failure => .error failure
      | .ok params => .ok (model.define name ⟨params, sort, body⟩)
    | _ => .error (malformed "define-fun name should be a symbol" entry)
  | .list [.atom (.symbol "declare-fun"), name, .list [], sort] =>
    match name, sort with
    | .atom (.symbol name), .atom (.symbol sort) => .ok (model.addElement sort name)
    | _, _ => .error (malformed "ill-formed universe element" entry)
  | _ => .ok model

/-- Some solvers begin the list with the word `model`. -/
def dropHeading : List SExpr → List SExpr
  | .atom (.symbol "model") :: entries => entries
  | entries => entries

def ofReply (reply : SExpr) : Except Failure Model :=
  match reply.dropComments with
  | .list entries => (dropHeading entries).foldlM readEntry empty
  | other => .error (malformed "model should be a list" other)

end SmtSession.Model
