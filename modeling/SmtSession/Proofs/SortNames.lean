import Mathlib.Data.List.Basic
import SmtSession.Ty

/-!
# Names in types and sorts

A type mentions declared types at any depth of nested maps. The sort that stands for it is built
the other way round, from the last argument of a map to the first; it names the same declared types,
and besides them only sorts that every solver knows.
-/

namespace SmtSession

namespace SExpr

/-- A symbol that stands somewhere in an expression. -/
inductive Holds (text : String) : SExpr → Prop
  | symbol : Holds text (symbol text)
  | item {items : List SExpr} {item : SExpr} : item ∈ items → Holds text item →
      Holds text (.list items)

variable {text head : String} {args : List SExpr}

theorem holds_symbol_iff {other : String} : Holds text (symbol other) ↔ text = other := by
  constructor
  · rintro ⟨⟩
    rfl
  · rintro rfl
    exact .symbol

theorem not_holds_numeral (value : UInt64) : ¬Holds text (numeral value) := nofun

theorem holds_application_iff :
    Holds text (application head args) ↔ text = head ∨ ∃ arg ∈ args, Holds text arg := by
  constructor
  · rintro (_ | ⟨hmem, h⟩)
    rcases List.mem_cons.mp hmem with rfl | hmem
    · exact Or.inl (holds_symbol_iff.mp h)
    · exact Or.inr ⟨_, hmem, h⟩
  · rintro (rfl | ⟨arg, hmem, h⟩)
    · exact .item List.mem_cons_self .symbol
    · exact .item (List.mem_cons_of_mem _ hmem) h

theorem holds_binary_iff {left right : SExpr} :
    Holds text (application head [left, right]) ↔
      text = head ∨ Holds text left ∨ Holds text right := by
  rw [holds_application_iff, List.exists_mem_cons_iff, List.exists_mem_cons_iff]
  simp

end SExpr

namespace Ty

/-- Induction over nested maps: what is to be shown of a map may be assumed of its arguments and of
its range. -/
@[elab_as_elim, induction_eliminator]
theorem induct {motive : Ty → Prop} (bool : motive .bool) (int : motive .int) (real : motive .real)
    (bitVector : ∀ width, motive (.bitVector width))
    (map : ∀ domain range, (∀ ty ∈ domain, motive ty) → motive range → motive (.map domain range))
    (named : ∀ name, motive (.named name)) (ty : Ty) : motive ty := by
  refine Ty.rec (motive_2 := fun tys => ∀ ty ∈ tys, motive ty) bool int real bitVector map named
    ?_ ?_ ty
  · exact nofun
  · intro ty tys hty htys
    exact List.forall_mem_cons.mpr ⟨hty, htys⟩

/-- A declared type that stands somewhere in a type. -/
inductive Mentions (name : String) : Ty → Prop
  | named : Mentions name (.named name)
  | domain {domain : List Ty} {range ty : Ty} : ty ∈ domain → Mentions name ty →
      Mentions name (.map domain range)
  | range {domain : List Ty} {range : Ty} : Mentions name range → Mentions name (.map domain range)

variable {name text : String} {ty range : Ty} {domain : List Ty}

theorem mentions_named_iff {other : String} : Mentions name (.named other) ↔ name = other := by
  constructor
  · rintro ⟨⟩
    rfl
  · rintro rfl
    exact .named

theorem mentions_map_iff :
    Mentions name (.map domain range) ↔
      (∃ ty ∈ domain, Mentions name ty) ∨ Mentions name range := by
  constructor
  · rintro (_ | ⟨hmem, h⟩ | h)
    · exact Or.inl ⟨_, hmem, h⟩
    · exact Or.inr h
  · rintro (⟨ty, hmem, h⟩ | h)
    · exact .domain hmem h
    · exact .range h

theorem mem_names_iff : name ∈ ty.names ↔ Mentions name ty := by
  induction ty with
  | bool => exact ⟨nofun, nofun⟩
  | int => exact ⟨nofun, nofun⟩
  | real => exact ⟨nofun, nofun⟩
  | bitVector width => exact ⟨nofun, nofun⟩
  | named other => rw [names, List.mem_singleton, mentions_named_iff]
  | map domain range hdomain hrange =>
      rw [names, namesOfAll_eq, List.mem_append, List.mem_flatMap, mentions_map_iff, hrange]
      apply or_congr_left
      exact exists_congr fun ty => and_congr_right fun hmem => hdomain ty hmem

instance (name : String) (ty : Ty) : Decidable (ty.Mentions name) :=
  decidable_of_iff (name ∈ ty.names) mem_names_iff

/-- The names of sorts and of sort constructors that a solver knows without being told. -/
def solverSorts : List String := ["Bool", "Int", "Real", "Array", "_", "BitVec"]

theorem holds_toArraySort_iff {sort : SExpr} :
    (toArraySort domain sort).Holds text ↔
      (domain ≠ [] ∧ text = "Array") ∨ (∃ ty ∈ domain, ty.toSort.Holds text) ∨
        sort.Holds text := by
  induction domain with
  | nil => simp [toArraySort]
  | cons ty domain ih =>
      rw [toArraySort, SExpr.holds_binary_iff, ih, List.exists_mem_cons_iff]
      have hcons : ty :: domain ≠ [] := List.cons_ne_nil ty domain
      grind

theorem holds_toSort_of_mentions (h : Mentions name ty) : ty.toSort.Holds name := by
  induction h with
  | named => exact .symbol
  | domain hmem _ ih => exact holds_toArraySort_iff.mpr (Or.inr (Or.inl ⟨_, hmem, ih⟩))
  | range _ ih => exact holds_toArraySort_iff.mpr (Or.inr (Or.inr ih))

/-- A sort invents no name. -/
theorem mentions_or_mem_of_holds_toSort (h : ty.toSort.Holds text) :
    Mentions text ty ∨ text ∈ solverSorts := by
  induction ty with
  | bool => exact Or.inr (by simp [SExpr.holds_symbol_iff.mp h, solverSorts])
  | int => exact Or.inr (by simp [SExpr.holds_symbol_iff.mp h, solverSorts])
  | real => exact Or.inr (by simp [SExpr.holds_symbol_iff.mp h, solverSorts])
  | bitVector width =>
      rcases SExpr.holds_binary_iff.mp h with rfl | hname | hwidth
      · exact Or.inr (by decide)
      · exact Or.inr (by simp [SExpr.holds_symbol_iff.mp hname, solverSorts])
      · exact absurd hwidth (SExpr.not_holds_numeral _)
  | named name => exact Or.inl (mentions_named_iff.mpr (SExpr.holds_symbol_iff.mp h))
  | map domain range hdomain hrange =>
      rcases holds_toArraySort_iff.mp h with ⟨-, rfl⟩ | ⟨ty, hmem, hty⟩ | hsort
      · exact Or.inr (by decide)
      · exact (hdomain ty hmem hty).imp_left (.domain hmem)
      · exact (hrange hsort).imp_left .range

end Ty

end SmtSession
