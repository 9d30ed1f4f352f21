import SmtSession.Proofs.SortNames

/-!
# Sorts up to currying

A solver has no maps of several arguments, so the sort of a map is built as if it took its arguments
one by one, and the sort of a type is that of the curried type. No more is lost. From a sort the
curried type is read back, so types whose curried forms differ have different sorts. Only a declared
type that has the name of a sort without arguments cannot be told from that sort.
-/

namespace SmtSession.Ty

/-- The map that takes its arguments one by one, in their order. -/
def nested (domain : List Ty) (range : Ty) : Ty :=
  domain.foldr (fun ty range => .map [ty] range) range

mutual

/-- The type in which every map, at any depth, takes its arguments one by one. -/
def curried : Ty → Ty
  | .map domain range => nested (curriedAll domain) (curried range)
  | .bool => .bool
  | .int => .int
  | .real => .real
  | .bitVector width => .bitVector width
  | .named name => .named name

def curriedAll : List Ty → List Ty
  | [] => []
  | ty :: tys => curried ty :: curriedAll tys

end

/-- The sorts that are written as a single word. -/
def wordSorts : List String := ["Bool", "Int", "Real"]

/-- The curried type that has a sort. -/
def ofSort? : SExpr → Option Ty
  | .atom (.symbol "Bool") => some .bool
  | .atom (.symbol "Int") => some .int
  | .atom (.symbol "Real") => some .real
  | .atom (.symbol name) => some (.named name)
  | .list [.atom (.symbol "_"), .atom (.symbol "BitVec"), .atom (.numeral width)] =>
    some (.bitVector width.toUInt32)
  | .list [.atom (.symbol "Array"), argument, range] => do
    return .map [← ofSort? argument] (← ofSort? range)
  | _ => none

variable {ty range left right : Ty} {domain : List Ty} {sort : SExpr}

theorem curriedAll_eq (tys : List Ty) : curriedAll tys = tys.map curried := by
  induction tys with
  | nil => rfl
  | cons ty tys ih => rw [curriedAll, ih, List.map_cons]

/-- The sort of a map is folded up from its range, the last argument first. -/
theorem toArraySort_eq (domain : List Ty) (sort : SExpr) :
    toArraySort domain sort =
      (domain.map toSort).foldr (fun argument sort => .application "Array" [argument, sort])
        sort := by
  induction domain with
  | nil => rfl
  | cons ty domain ih => rw [toArraySort, ih, List.map_cons, List.foldr_cons]

theorem toSort_nested (domain : List Ty) (range : Ty) :
    (nested domain range).toSort = toArraySort domain range.toSort := by
  induction domain with
  | nil => rfl
  | cons ty domain ih =>
      change (Ty.map [ty] (nested domain range)).toSort = _
      rw [toSort, ih]
      rfl

/-- Currying does not change the sort. -/
theorem toSort_curried (ty : Ty) : ty.curried.toSort = ty.toSort := by
  induction ty with
  | bool => rfl
  | int => rfl
  | real => rfl
  | bitVector width => rfl
  | named name => rfl
  | map domain range hdomain hrange =>
      have hsorts : (domain.map curried).map toSort = domain.map toSort := by
        rw [List.map_map]
        exact List.map_congr_left hdomain
      rw [curried, curriedAll_eq, toSort_nested, hrange, toArraySort_eq, hsorts, ← toArraySort_eq,
        toSort]

/-! ### Reading a sort back -/

theorem ofSort?_symbol {name : String} (h : name ∉ wordSorts) :
    ofSort? (.symbol name) = some (.named name) := by
  simp only [wordSorts, List.mem_cons, List.not_mem_nil, or_false, not_or] at h
  obtain ⟨hbool, hint, hreal⟩ := h
  rw [ofSort?]
  · exact hbool
  · exact hint
  · exact hreal

theorem ofSort?_array {argument : SExpr} (hargument : ofSort? argument = some ty)
    (hsort : ofSort? sort = some range) :
    ofSort? (.application "Array" [argument, sort]) = some (.map [ty] range) := by
  rw [SExpr.application, ofSort?, hargument, hsort]
  rfl

theorem ofSort?_toArraySort (hdomain : ∀ ty ∈ domain, ofSort? ty.toSort = some ty.curried)
    (hsort : ofSort? sort = some range) :
    ofSort? (toArraySort domain sort) = some (nested (curriedAll domain) range) := by
  induction domain with
  | nil => exact hsort
  | cons ty domain ih =>
      obtain ⟨hty, hrest⟩ := List.forall_mem_cons.mp hdomain
      exact ofSort?_array hty (ih hrest)

/-- A sort tells the curried type. The names of word sorts are read as these sorts, so they are left
out. -/
theorem ofSort?_toSort (h : ∀ name ∈ wordSorts, ¬ty.Mentions name) :
    ofSort? ty.toSort = some ty.curried := by
  induction ty with
  | bool => rfl
  | int => rfl
  | real => rfl
  | bitVector width =>
      rw [toSort, SExpr.application, ofSort?, UInt32.toUInt32_toUInt64, curried]
  | named name => exact ofSort?_symbol fun hmem => h name hmem .named
  | map domain range hdomain hrange =>
      rw [toSort, curried]
      apply ofSort?_toArraySort
      · intro ty hmem
        exact hdomain ty hmem fun name hname hmentions => h name hname (.domain hmem hmentions)
      · exact hrange fun name hname hmentions => h name hname (.range hmentions)

/-- Two types that mention no declared type with the name of a word sort have the same sort if and
only if they are the same type once every map in them takes its arguments one by one. -/
theorem same_sort_iff (hleft : ∀ name ∈ wordSorts, ¬left.Mentions name)
    (hright : ∀ name ∈ wordSorts, ¬right.Mentions name) :
    left.toSort = right.toSort ↔ left.curried = right.curried := by
  constructor
  · intro h
    have hread : some left.curried = some right.curried := by
      rw [← ofSort?_toSort hleft, h, ofSort?_toSort hright]
    exact Option.some.inj hread
  · intro h
    rw [← toSort_curried left, h, toSort_curried]

/-- A map of maps and its curried form share a sort, and to swap two arguments gives another. -/
theorem same_sort_iff_nested :
    let field : Ty := .map [.named "ref", .int] .bool
    let bits : Ty := .bitVector 8
    let both : Ty := .map [field, bits] (.map [] .real)
    let single : Ty := .map [.map [.named "ref"] (.map [.int] .bool)] (.map [bits] .real)
    let swapped : Ty := .map [bits, field] .real
    both.toSort = single.toSort ∧ both.toSort ≠ swapped.toSort := by
  intro field bits both single swapped
  have hboth : ∀ name ∈ wordSorts, ¬both.Mentions name := by decide
  have hsingle : ∀ name ∈ wordSorts, ¬single.Mentions name := by decide
  have hswapped : ∀ name ∈ wordSorts, ¬swapped.Mentions name := by decide
  refine ⟨(same_sort_iff hboth hsingle).mpr rfl, fun h => ?_⟩
  have hcurried := (same_sort_iff hboth hswapped).mp h
  exact absurd hcurried (by decide)

/-- A declared type may take the name of a sort. -/
example : (named "Bool").toSort = bool.toSort ∧ (named "Bool").curried ≠ bool.curried := by decide

end SmtSession.Ty
