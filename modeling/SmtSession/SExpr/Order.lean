import SmtSession.SExpr.Basic

/-!
# The order of s-expressions

Atoms come before comments and comments before lists; numerals come before symbols, text is compared
character by character, and lists are compared item by item.
-/

namespace SmtSession

def Atom.compare : Atom → Atom → Ordering
  | .numeral a, .numeral b => Ord.compare a b
  | .numeral _, .symbol _ => .lt
  | .symbol _, .numeral _ => .gt
  | .symbol a, .symbol b => Ord.compare a b

namespace SExpr

mutual

def compare : SExpr → SExpr → Ordering
  | .atom a, .atom b => Atom.compare a b
  | .atom _, _ => .lt
  | .comment _, .atom _ => .gt
  | .comment a, .comment b => Ord.compare a b
  | .comment _, .list _ => .lt
  | .list as, .list bs => compareItems as bs
  | .list _, _ => .gt

def compareItems : List SExpr → List SExpr → Ordering
  | [], [] => .eq
  | [], _ :: _ => .lt
  | _ :: _, [] => .gt
  | a :: as, b :: bs => (compare a b).then (compareItems as bs)

end

instance : Ord SExpr := ⟨compare⟩

def sort (exprs : List SExpr) : List SExpr :=
  exprs.mergeSort fun a b => (compare a b).isLE

/-- How many items equal the item right before them. -/
def countRepeats : List SExpr → Nat
  | [] => 0
  | [_] => 0
  | a :: b :: rest => (if a = b then 1 else 0) + countRepeats (b :: rest)

end SExpr

end SmtSession
