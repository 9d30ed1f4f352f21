/-!
# S-expressions

Commands sent to a solver and the replies it gives are both s-expressions: atoms, lists, and the
comments that stand between them.
-/

namespace SmtSession

/-- A numeral that fits a machine word, or any other atom as its text without quotes. -/
inductive Atom where
  | numeral (value : UInt64)
  | symbol (text : String)
deriving DecidableEq, Inhabited

inductive SExpr where
  | atom (content : Atom)
  | comment (text : String)
  | list (items : List SExpr)
deriving Inhabited

namespace SExpr

mutual

def decEq : (left right : SExpr) → Decidable (left = right)
  | .atom a, .atom b =>
    if h : a = b then isTrue (h ▸ rfl) else isFalse fun heq => h (SExpr.atom.inj heq)
  | .comment a, .comment b =>
    if h : a = b then isTrue (h ▸ rfl) else isFalse fun heq => h (SExpr.comment.inj heq)
  | .list as, .list bs =>
    match decEqItems as bs with
    | isTrue h => isTrue (h ▸ rfl)
    | isFalse h => isFalse fun heq => h (SExpr.list.inj heq)
  | .atom _, .comment _ => isFalse nofun
  | .atom _, .list _ => isFalse nofun
  | .comment _, .atom _ => isFalse nofun
  | .comment _, .list _ => isFalse nofun
  | .list _, .atom _ => isFalse nofun
  | .list _, .comment _ => isFalse nofun

def decEqItems : (left right : List SExpr) → Decidable (left = right)
  | [], [] => isTrue rfl
  | [], _ :: _ => isFalse nofun
  | _ :: _, [] => isFalse nofun
  | a :: as, b :: bs =>
    match decEq a b, decEqItems as bs with
    | isTrue h, isTrue hs => isTrue (h ▸ hs ▸ rfl)
    | isFalse h, _ => isFalse fun heq => h (List.cons.inj heq).1
    | _, isFalse hs => isFalse fun heq => hs (List.cons.inj heq).2

end

instance : DecidableEq SExpr := decEq

@[match_pattern]
abbrev symbol (text : String) : SExpr := .atom (.symbol text)

@[match_pattern]
abbrev numeral (value : UInt64) : SExpr := .atom (.numeral value)

def application (head : String) (args : List SExpr) : SExpr := .list (symbol head :: args)

/-- The empty conjunction is `true` and a single formula stands for itself, since solvers may
refuse `and` without arguments. -/
def conjunction : List SExpr → SExpr
  | [] => symbol "true"
  | [formula] => formula
  | formulas => application "and" formulas

def negation (formula : SExpr) : SExpr := application "not" [formula]

def isComment : SExpr → Bool
  | .comment _ => true
  | _ => false

def list? : SExpr → Option (List SExpr)
  | .list items => some items
  | _ => none

def symbol? : SExpr → Option String
  | .atom (.symbol text) => some text
  | _ => none

def numeral? : SExpr → Option UInt64
  | .atom (.numeral value) => some value
  | _ => none

/-- The head and the arguments of a list that begins with a symbol. -/
def application? : SExpr → Option (String × List SExpr)
  | .list (.atom (.symbol head) :: args) => some (head, args)
  | _ => none

mutual

def dropComments : SExpr → SExpr
  | .list items => .list (dropCommentsAll items)
  | expr => expr

def dropCommentsAll : List SExpr → List SExpr
  | [] => []
  | item :: items =>
    if item.isComment then dropCommentsAll items
    else dropComments item :: dropCommentsAll items

end

@[simp]
theorem symbol?_symbol (text : String) : (symbol text).symbol? = some text := rfl

@[simp]
theorem application?_application (head : String) (args : List SExpr) :
    (application head args).application? = some (head, args) :=
  rfl

theorem dropCommentsAll_eq (items : List SExpr) :
    dropCommentsAll items = (items.filter (!·.isComment)).map dropComments := by
  induction items with
  | nil => simp [dropCommentsAll]
  | cons item items ih =>
    by_cases h : item.isComment <;> simp [dropCommentsAll, h, ih]

end SExpr

end SmtSession
