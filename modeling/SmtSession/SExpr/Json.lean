import SmtSession.Json.Basic
import SmtSession.SExpr.Basic

/-!
# S-expressions as JSON documents
-/

namespace SmtSession

namespace SExpr

mutual

def toJson : SExpr → Json
  | .atom (.numeral value) => .object [("Atom", .object [("I", .number value.toNat)])]
  | .atom (.symbol text) => .object [("Atom", .object [("S", .string text)])]
  | .comment text => .object [("Comment", .string text)]
  | .list items => .object [("List", .array (itemsToJson items))]

def itemsToJson : List SExpr → List Json
  | [] => []
  | item :: items => toJson item :: itemsToJson items

end

end SExpr

end SmtSession
