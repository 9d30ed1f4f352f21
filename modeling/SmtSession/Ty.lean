import SmtSession.Json.Basic
import SmtSession.SExpr.Basic

/-!
# Types

The types of the symbols a theory declares, and the solver sorts that stand for them.
-/

namespace SmtSession

inductive Ty where
  | bool
  | int
  | real
  | bitVector (width : UInt32)
  /-- The total maps from the domain, in the order of its arguments, to the range. -/
  | map (domain : List Ty) (range : Ty)
  | named (name : String)
deriving Inhabited

namespace Ty

mutual

def decEq : (left right : Ty) → Decidable (left = right)
  | .bool, .bool => isTrue rfl
  | .int, .int => isTrue rfl
  | .real, .real => isTrue rfl
  | .bitVector a, .bitVector b =>
    if h : a = b then isTrue (h ▸ rfl) else isFalse fun heq => h (Ty.bitVector.inj heq)
  | .named a, .named b =>
    if h : a = b then isTrue (h ▸ rfl) else isFalse fun heq => h (Ty.named.inj heq)
  | .map domain range, .map domain' range' =>
    match decEqList domain domain', decEq range range' with
    | isTrue h, isTrue h' => isTrue (h ▸ h' ▸ rfl)
    | isFalse h, _ => isFalse fun heq => h (Ty.map.inj heq).1
    | _, isFalse h => isFalse fun heq => h (Ty.map.inj heq).2
  | .bool, .int | .bool, .real | .bool, .bitVector _ | .bool, .map _ _ | .bool, .named _
  | .int, .bool | .int, .real | .int, .bitVector _ | .int, .map _ _ | .int, .named _
  | .real, .bool | .real, .int | .real, .bitVector _ | .real, .map _ _ | .real, .named _
  | .bitVector _, .bool | .bitVector _, .int | .bitVector _, .real | .bitVector _, .map _ _
  | .bitVector _, .named _
  | .map _ _, .bool | .map _ _, .int | .map _ _, .real | .map _ _, .bitVector _
  | .map _ _, .named _
  | .named _, .bool | .named _, .int | .named _, .real | .named _, .bitVector _
  | .named _, .map _ _ => isFalse nofun

def decEqList : (left right : List Ty) → Decidable (left = right)
  | [], [] => isTrue rfl
  | [], _ :: _ => isFalse nofun
  | _ :: _, [] => isFalse nofun
  | a :: as, b :: bs =>
    match decEq a b, decEqList as bs with
    | isTrue h, isTrue hs => isTrue (h ▸ hs ▸ rfl)
    | isFalse h, _ => isFalse fun heq => h (List.cons.inj heq).1
    | _, isFalse hs => isFalse fun heq => hs (List.cons.inj heq).2

end

instance : DecidableEq Ty := decEq

mutual

def names : Ty → List String
  | .named name => [name]
  | .map domain range => namesOfAll domain ++ names range
  | _ => []

def namesOfAll : List Ty → List String
  | [] => []
  | ty :: tys => names ty ++ namesOfAll tys

end

mutual

def print : Ty → String
  | .bool => "bool"
  | .int => "int"
  | .real => "real"
  | .bitVector width => "bv" ++ toString width.toNat
  | .map domain range => "[" ++ ", ".intercalate (printAll domain) ++ "]" ++ print range
  | .named name => name

def printAll : List Ty → List String
  | [] => []
  | ty :: tys => print ty :: printAll tys

end

mutual

/-- The solver's sort. A map is an array from its first argument to the arrays over the others. -/
def toSort : Ty → SExpr
  | .bool => .symbol "Bool"
  | .int => .symbol "Int"
  | .real => .symbol "Real"
  | .bitVector width => .application "_" [.symbol "BitVec", .numeral width.toUInt64]
  | .named name => .symbol name
  | .map domain range => toArraySort domain (toSort range)

def toArraySort : List Ty → SExpr → SExpr
  | [], range => range
  | ty :: tys, range => .application "Array" [toSort ty, toArraySort tys range]

end

mutual

def toJson : Ty → Json
  | .bool => .string "Bool"
  | .int => .string "Int"
  | .real => .string "Real"
  | .bitVector width => .object [("BitVector", .number width.toNat)]
  | .named name => .object [("Ctor", .string name)]
  | .map domain range =>
    .object [("Map", .object [("domain", .array (allToJson domain)), ("range", toJson range)])]

def allToJson : List Ty → List Json
  | [] => []
  | ty :: tys => toJson ty :: allToJson tys

end

theorem namesOfAll_eq (tys : List Ty) : namesOfAll tys = tys.flatMap names := by
  induction tys with
  | nil => rfl
  | cons ty tys ih => simp [namesOfAll, ih]

end Ty

end SmtSession
