import SmtSession.SExpr.Basic

/-!
# Printing

Items of a list are separated by single spaces. A comment ends at the end of its line, so inside a
list it stands on a line of its own.
-/

namespace SmtSession

/-- A symbol with a space or a quote in it is written between bars, any other symbol with a bar in
it between double quotes, and all else as it is. -/
def Atom.chars : Atom → List Char
  | .numeral value => Nat.toDigits 10 value.toNat
  | .symbol text =>
    let text := text.toList
    if text.any (fun c => c = ' ' || c = '"' || c = '\'') then '|' :: text ++ ['|']
    else if text.contains '|' then '"' :: text ++ ['"']
    else text

def Atom.print (atom : Atom) : String := String.ofList atom.chars

namespace SExpr

/-- A space, unless the item before or after it is a comment or the list ends. -/
def gap (item : SExpr) : List SExpr → List Char
  | [] => []
  | next :: _ => if item.isComment || next.isComment then [] else [' ']

mutual

def chars : SExpr → List Char
  | .atom content => content.chars
  | .comment text => ';' :: text.toList
  | .list items => '(' :: itemsChars items ++ [')']

def itemsChars : List SExpr → List Char
  | [] => []
  | item :: items =>
    (if item.isComment then '\n' :: chars item ++ ['\n'] else chars item) ++
      gap item items ++ itemsChars items

end

def print (expr : SExpr) : String := String.ofList expr.chars

end SExpr

end SmtSession
