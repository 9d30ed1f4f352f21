import Mathlib.Data.List.Nodup
import SmtSession.Proofs.SortNames
import SmtSession.Signature

/-!
# What a signature has recorded

A signature keeps its declarations in a list and the names they take in tables beside it. Whatever
is declared, accepted or not, the tables tell the names in the list, no name is taken twice in its
namespace, and every type was declared before it was mentioned. Whether a declaration is accepted,
and with which error it is refused, is told by the list alone.
-/

namespace SmtSession

namespace Declaration

inductive Namespace where
  | types
  | symbols
  | functions
deriving DecidableEq

def space : Declaration → Namespace
  | .type _ => .types
  | .constant _ | .global _ => .symbols
  | .function _ => .functions

/-- The types a declaration is written with, from left to right. -/
def tys : Declaration → List Ty
  | .type _ => []
  | .constant content => [content.ty]
  | .function content => content.inputs ++ content.outputs
  | .global content => [content.ty]

def Mentions (declaration : Declaration) (type : String) : Prop :=
  ∃ ty ∈ declaration.tys, ty.Mentions type

/-- The declared types that a declaration mentions, as they occur from left to right. -/
def mentioned (declaration : Declaration) : List String := declaration.tys.flatMap Ty.names

/-- A function has exactly one output. -/
def HasRange : Declaration → Prop
  | .function content => content.outputs.length = 1
  | _ => True

/-- The names taken in a namespace, in the order they were taken. -/
def namesIn (space : Namespace) (declarations : List Declaration) : List String :=
  (declarations.filter (·.space = space)).map name

/-- The declarations that fit those made before. -/
structure Admissible (declared : List Declaration) (declaration : Declaration) : Prop where
  hasRange : declaration.HasRange
  fresh : declaration.name ∉ namesIn declaration.space declared
  mentions : ∀ type, declaration.Mentions type → .type type ∈ declared

/-- The declarations that do not, and what is wrong with them: the number of outputs, else the name,
else the first type that is not declared. -/
inductive Refused (declared : List Declaration) : Declaration → DeclarationError → Prop
  | arity {function : Function} : function.outputs.length ≠ 1 →
      Refused declared (.function function) (.arity function.name function.outputs.length)
  | duplicate {declaration : Declaration} : declaration.HasRange →
      declaration.name ∈ namesIn declaration.space declared →
      Refused declared declaration (.duplicate declaration.kind declaration.name)
  | undeclaredType {declaration : Declaration} {before after : List String} {type : String} :
      declaration.HasRange → declaration.name ∉ namesIn declaration.space declared →
      declaration.mentioned = before ++ type :: after →
      (∀ earlier ∈ before, .type earlier ∈ declared) → .type type ∉ declared →
      Refused declared declaration (.undeclaredType declaration.name type)

variable {declaration : Declaration} {declarations : List Declaration} {space : Namespace}
  {name type : String}

theorem mem_mentioned_iff : type ∈ declaration.mentioned ↔ declaration.Mentions type := by
  simp only [mentioned, Mentions, List.mem_flatMap, Ty.mem_names_iff]

theorem mem_namesIn_iff :
    name ∈ namesIn space declarations ↔
      ∃ declaration ∈ declarations, declaration.space = space ∧ declaration.name = name := by
  simp only [namesIn, List.mem_map, List.mem_filter, decide_eq_true_eq, and_assoc]

theorem mem_namesIn_types_iff :
    type ∈ namesIn .types declarations ↔ .type type ∈ declarations := by
  rw [mem_namesIn_iff]
  constructor
  · rintro ⟨declaration, hmem, hspace, rfl⟩
    cases declaration with
    | type name => exact hmem
    | _ => contradiction
  · intro hmem
    exact ⟨_, hmem, rfl, rfl⟩

theorem namesIn_sublist {declarations' : List Declaration} (h : declarations.Sublist declarations')
    (space : Namespace) : (namesIn space declarations).Sublist (namesIn space declarations') :=
  (h.filter _).map _

theorem function_of_not_hasRange (h : ¬declaration.HasRange) :
    ∃ function, declaration = .function function ∧ function.outputs.length ≠ 1 := by
  cases declaration with
  | function function => exact ⟨function, rfl, h⟩
  | _ => exact absurd trivial h

theorem namesIn_concat :
    namesIn space (declarations ++ [declaration]) =
      namesIn space declarations ++
        if declaration.space = space then [declaration.name] else [] := by
  rw [namesIn, List.filter_append, List.map_append]
  by_cases h : declaration.space = space
  · simp [namesIn, h]
  · simp [namesIn, h]

end Declaration

namespace Signature

open Declaration

variable {signature : Signature} {declaration : Declaration} {error : DeclarationError}
  {name type : String} {tys : List Ty} {space : Namespace}

def table (signature : Signature) : Namespace → List String
  | .types => signature.types
  | .symbols => signature.symbols
  | .functions => signature.functions

/-- The tables and the list tell the same, and the list can be declared from its start to its
end. -/
structure Consistent (signature : Signature) : Prop where
  mem_table_iff : ∀ space name,
    name ∈ signature.table space ↔ name ∈ namesIn space signature.declarations
  nodup : ∀ space, (namesIn space signature.declarations).Nodup
  hasRange : ∀ declaration ∈ signature.declarations, declaration.HasRange
  declared_before : ∀ earlier declaration later,
    signature.declarations = earlier ++ declaration :: later →
      ∀ type, declaration.Mentions type → .type type ∈ earlier

/-! ### What is checked -/

theorem requireTypes_eq_ok_iff :
    signature.requireTypes name tys = .ok () ↔
      ∀ type ∈ tys.flatMap Ty.names, type ∈ signature.types := by
  unfold requireTypes
  split
  · rename_i type hfind
    obtain ⟨hundeclared, hmem⟩ := List.find?_some hfind, List.mem_of_find?_eq_some hfind
    refine ⟨nofun, fun h => ?_⟩
    simp [hasType, h type hmem] at hundeclared
  · rename_i hfind
    refine ⟨fun _ type hmem => ?_, fun _ => rfl⟩
    simpa [hasType] using List.find?_eq_none.mp hfind type hmem

/-- The first type that is not declared is the one reported. -/
theorem requireTypes_eq_error_iff :
    signature.requireTypes name tys = .error error ↔
      ∃ before type after, tys.flatMap Ty.names = before ++ type :: after ∧
        (∀ earlier ∈ before, earlier ∈ signature.types) ∧ type ∉ signature.types ∧
          error = .undeclaredType name type := by
  have hfind (type : String) :
      (tys.flatMap Ty.names).find? (!signature.hasType ·) = some type ↔
        ∃ before after, tys.flatMap Ty.names = before ++ type :: after ∧
          (∀ earlier ∈ before, earlier ∈ signature.types) ∧ type ∉ signature.types := by
    rw [List.find?_eq_some_iff_append]
    simp only [hasType, Bool.not_eq_true', Bool.not_not, List.contains_iff_mem]
    grind
  constructor
  · intro h
    unfold requireTypes at h
    split at h
    · rename_i type hsome
      obtain ⟨before, after, hsplit, hbefore, htype⟩ := (hfind type).mp hsome
      exact ⟨before, type, after, hsplit, hbefore, htype, (Except.error.inj h).symm⟩
    · contradiction
  · rintro ⟨before, type, after, hsplit, hbefore, htype, rfl⟩
    rw [requireTypes, (hfind type).mpr ⟨before, after, hsplit, hbefore, htype⟩]

theorem functionRange_of_output {function : Function} {range : Ty}
    (h : function.outputs = [range]) (signature : Signature) :
    signature.functionRange function =
      if (signature.table .functions).contains function.name then
        .error (.duplicate .function function.name)
      else
        (signature.requireTypes function.name (function.inputs ++ [range])).map fun _ => range := by
  rw [functionRange, h]
  apply ite_congr rfl (fun _ => rfl)
  intro _
  cases signature.requireTypes function.name (function.inputs ++ [range]) <;> rfl

theorem check_of_hasRange (h : declaration.HasRange) (signature : Signature) :
    signature.check declaration =
      if (signature.table declaration.space).contains declaration.name then
        .error (.duplicate declaration.kind declaration.name)
      else signature.requireTypes declaration.name declaration.tys := by
  cases declaration with
  | type name => rfl
  | constant content => rfl
  | global content => rfl
  | function content =>
      obtain ⟨range, hrange⟩ := List.length_eq_one_iff.mp h
      have htys : (Declaration.function content).tys = content.inputs ++ [range] := by
        rw [Declaration.tys, hrange]
      rw [check, functionRange_of_output hrange, htys, apply_ite (Except.map _)]
      apply ite_congr rfl (fun _ => rfl)
      intro _
      change Except.map _ (Except.map _ (signature.requireTypes content.name _)) =
        signature.requireTypes content.name _
      cases signature.requireTypes content.name (content.inputs ++ [range]) <;> rfl

theorem functionRange_of_not_hasRange {function : Function} (h : function.outputs.length ≠ 1)
    (signature : Signature) :
    signature.functionRange function = .error (.arity function.name function.outputs.length) := by
  unfold functionRange
  split
  · rename_i range hrange
    rw [hrange] at h
    exact absurd rfl h
  · rfl

theorem hasRange_of_check (h : signature.check declaration = .ok ()) : declaration.HasRange := by
  by_contra hnot
  obtain ⟨function, rfl, houtputs⟩ := function_of_not_hasRange hnot
  rw [check, functionRange_of_not_hasRange houtputs] at h
  contradiction

theorem mem_types_of_check (h : signature.check declaration = .ok ())
    (htype : type ∈ declaration.mentioned) : type ∈ signature.types := by
  rw [check_of_hasRange (hasRange_of_check h)] at h
  split at h
  · contradiction
  · exact requireTypes_eq_ok_iff.mp h type htype

theorem functionRange_eq_ok_iff {function : Function} {range : Ty} :
    signature.functionRange function = .ok range ↔
      signature.check (.function function) = .ok () ∧ function.outputs = [range] := by
  rw [check]
  cases hrange : signature.functionRange function with
  | error error =>
      constructor
      · intro h
        contradiction
      · rintro ⟨h, -⟩
        contradiction
  | ok range' =>
      have houtput : function.outputs = [range'] := output_of_functionRange hrange
      rw [Except.ok.injEq, houtput, List.singleton_inj]
      exact ⟨fun h => ⟨rfl, h⟩, And.right⟩

theorem functionRange_eq_error_iff {function : Function} :
    signature.functionRange function = .error error ↔
      signature.check (.function function) = .error error := by
  rw [check]
  cases signature.functionRange function with
  | error error' =>
      constructor
      · intro h
        rw [h]
        rfl
      · intro h
        rw [Except.error.inj h]
  | ok range =>
      constructor
      · intro h
        contradiction
      · intro h
        contradiction

/-! ### What is accepted -/

section Checks

variable (h : signature.Consistent)
include h

theorem Consistent.mem_types_iff : type ∈ signature.types ↔ .type type ∈ signature.declarations :=
  (h.mem_table_iff .types type).trans mem_namesIn_types_iff

theorem Consistent.check_of_taken (hrange : declaration.HasRange)
    (htaken : declaration.name ∈ namesIn declaration.space signature.declarations) :
    signature.check declaration = .error (.duplicate declaration.kind declaration.name) := by
  rw [← h.mem_table_iff, ← List.contains_iff_mem] at htaken
  rw [check_of_hasRange hrange, if_pos htaken]

theorem Consistent.check_of_mem (hmem : declaration ∈ signature.declarations) :
    signature.check declaration = .error (.duplicate declaration.kind declaration.name) :=
  h.check_of_taken (h.hasRange declaration hmem) (mem_namesIn_iff.mpr ⟨_, hmem, rfl, rfl⟩)

theorem Consistent.check_of_fresh (hrange : declaration.HasRange)
    (hfresh : declaration.name ∉ namesIn declaration.space signature.declarations) :
    signature.check declaration = signature.requireTypes declaration.name declaration.tys := by
  rw [← h.mem_table_iff, ← List.contains_iff_mem] at hfresh
  rw [check_of_hasRange hrange, if_neg hfresh]

theorem Consistent.check_eq_ok_iff :
    signature.check declaration = .ok () ↔ declaration.Admissible signature.declarations := by
  constructor
  · intro hcheck
    have hrange : declaration.HasRange := hasRange_of_check hcheck
    have hfresh : declaration.name ∉ namesIn declaration.space signature.declarations := by
      intro htaken
      rw [h.check_of_taken hrange htaken] at hcheck
      contradiction
    rw [h.check_of_fresh hrange hfresh, requireTypes_eq_ok_iff] at hcheck
    refine ⟨hrange, hfresh, fun type hmentions => ?_⟩
    exact h.mem_types_iff.mp (hcheck type (mem_mentioned_iff.mpr hmentions))
  · rintro ⟨hrange, hfresh, hmentions⟩
    rw [h.check_of_fresh hrange hfresh, requireTypes_eq_ok_iff]
    intro type hmem
    exact h.mem_types_iff.mpr (hmentions type (mem_mentioned_iff.mp hmem))

theorem Consistent.check_eq_error_iff :
    signature.check declaration = .error error ↔
      declaration.Refused signature.declarations error := by
  constructor
  · intro hcheck
    by_cases hrange : declaration.HasRange
    · by_cases htaken : declaration.name ∈ namesIn declaration.space signature.declarations
      · rw [h.check_of_taken hrange htaken] at hcheck
        obtain rfl := Except.error.inj hcheck
        exact .duplicate hrange htaken
      · rw [h.check_of_fresh hrange htaken, requireTypes_eq_error_iff] at hcheck
        obtain ⟨before, type, after, hsplit, hbefore, htype, rfl⟩ := hcheck
        simp only [h.mem_types_iff] at hbefore htype
        exact .undeclaredType hrange htaken hsplit hbefore htype
    · obtain ⟨function, rfl, houtputs⟩ := function_of_not_hasRange hrange
      rw [check, functionRange_of_not_hasRange houtputs] at hcheck
      obtain rfl := Except.error.inj hcheck
      exact .arity houtputs
  · intro hrefused
    cases hrefused with
    | arity houtputs =>
        rw [check, functionRange_of_not_hasRange houtputs]
        rfl
    | duplicate hrange htaken => exact h.check_of_taken hrange htaken
    | undeclaredType hrange hfresh hsplit hbefore htype =>
        rw [h.check_of_fresh hrange hfresh, requireTypes_eq_error_iff]
        simp only [h.mem_types_iff]
        exact ⟨_, _, _, hsplit, hbefore, htype, rfl⟩

end Checks

/-! ### What is recorded -/

theorem mem_table_record :
    name ∈ (signature.record declaration).table space ↔
      (declaration.space = space ∧ name = declaration.name) ∨ name ∈ signature.table space := by
  cases declaration <;> cases space <;>
    simp [record, table, Declaration.space, Declaration.name]

theorem consistent_empty : empty.Consistent where
  mem_table_iff space name := by cases space <;> exact ⟨nofun, nofun⟩
  nodup space := List.nodup_nil
  hasRange := nofun
  declared_before earlier declaration later h := by
    have hnil : [] = earlier ++ declaration :: later := h
    simp at hnil

theorem Consistent.record (h : signature.Consistent)
    (hadmissible : declaration.Admissible signature.declarations) :
    (signature.record declaration).Consistent where
  mem_table_iff space name := by
    rw [mem_table_record, declarations_record, namesIn_concat, List.mem_append, h.mem_table_iff,
      or_comm]
    by_cases hspace : declaration.space = space
    · simp [hspace]
    · simp [hspace]
  nodup space := by
    rw [declarations_record, namesIn_concat]
    split
    · rename_i hspace
      subst hspace
      exact List.nodup_append.mpr ⟨h.nodup _, List.nodup_singleton _, by
        rintro name hmem name' hmem' rfl
        rw [List.mem_singleton] at hmem'
        exact hadmissible.fresh (hmem' ▸ hmem)⟩
    · rw [List.append_nil]
      exact h.nodup space
  hasRange other hmem := by
    rw [declarations_record, List.mem_append, List.mem_singleton] at hmem
    rcases hmem with hmem | rfl
    · exact h.hasRange other hmem
    · exact hadmissible.hasRange
  declared_before earlier other later hsplit type hmentions := by
    rw [declarations_record] at hsplit
    rcases List.eq_nil_or_concat later with rfl | ⟨middle, last, rfl⟩
    · obtain ⟨rfl, hlast⟩ := List.append_inj' hsplit rfl
      rw [List.singleton_inj] at hlast
      subst hlast
      exact hadmissible.mentions type hmentions
    · rw [List.concat_eq_append, ← List.cons_append, ← List.append_assoc] at hsplit
      obtain ⟨hsplit, -⟩ := List.append_inj' hsplit rfl
      exact h.declared_before earlier other middle hsplit type hmentions

theorem run_enter_ok (h : signature.check declaration = .ok ()) :
    (enter declaration).run signature = (.ok (), signature.record declaration) := by
  rw [run_enter, declare, h]

theorem run_enter_error (h : signature.check declaration = .error error) :
    (enter declaration).run signature = (.error error, signature) := by
  rw [run_enter, declare, h]

theorem result_enter (declaration : Declaration) (signature : Signature) :
    ((enter declaration).run signature).1 = signature.check declaration := by
  cases hcheck : signature.check declaration with
  | ok _ => rw [run_enter_ok hcheck]
  | error error => rw [run_enter_error hcheck]

theorem Consistent.enter (h : signature.Consistent) (declaration : Declaration) :
    ((enter declaration).run signature).2.Consistent := by
  cases hcheck : signature.check declaration with
  | ok _ =>
      rw [run_enter_ok hcheck]
      exact h.record (h.check_eq_ok_iff.mp hcheck)
  | error error =>
      rw [run_enter_error hcheck]
      exact h

theorem declarations_prefix_enter (declaration : Declaration) (signature : Signature) :
    signature.declarations <+: ((enter declaration).run signature).2.declarations := by
  cases hcheck : signature.check declaration with
  | ok _ =>
      rw [run_enter_ok hcheck, declarations_record]
      exact List.prefix_append _ _
  | error error =>
      have hsame : ((enter declaration).run signature).2 = signature := by
        rw [run_enter_error hcheck]
      exact hsame.symm ▸ List.prefix_rfl

/-! ### Any number of declarations -/

/-- Declares one after the other, whether or not the ones before were accepted. -/
def enterAll (attempts : List Declaration) (signature : Signature) : Signature :=
  attempts.foldl (fun signature declaration => ((enter declaration).run signature).2) signature

theorem Consistent.enterAll (h : signature.Consistent) (attempts : List Declaration) :
    (signature.enterAll attempts).Consistent := by
  induction attempts generalizing signature with
  | nil => exact h
  | cons declaration attempts ih => exact ih (h.enter declaration)

theorem declarations_prefix_enterAll (attempts : List Declaration) (signature : Signature) :
    signature.declarations <+: (signature.enterAll attempts).declarations := by
  induction attempts generalizing signature with
  | nil => exact List.prefix_rfl
  | cons declaration attempts ih =>
      exact (declarations_prefix_enter declaration signature).trans (ih _)

theorem enterAll_append (attempts more : List Declaration) (signature : Signature) :
    signature.enterAll (attempts ++ more) = (signature.enterAll attempts).enterAll more :=
  List.foldl_append

/-- After any declarations, accepted or not, the signature is consistent, and has only grown at its
end. The next is accepted if and only if it fits what is recorded; else the first thing wrong with
it is told, and nothing has changed. To check a function tells the same of it, and changes nothing.
-/
theorem accepts_exactly (attempts : List Declaration) :
    let signature := empty.enterAll attempts
    signature.Consistent ∧
    (∀ more, signature.declarations <+: (empty.enterAll (attempts ++ more)).declarations) ∧
    (∀ declaration,
      let attempt := (enter declaration).run signature
      (attempt.1 = .ok () ↔ declaration.Admissible signature.declarations) ∧
      (attempt.1 = .ok () →
        attempt.2.declarations = signature.declarations ++ [declaration]) ∧
      ∀ error,
        (attempt.1 = .error error ↔ declaration.Refused signature.declarations error) ∧
        (attempt.1 = .error error → attempt.2 = signature)) ∧
    ∀ function,
      let attempt := (checkFunction function).run signature
      attempt.2 = signature ∧
      (∀ range, attempt.1 = .ok range ↔
        (Declaration.function function).Admissible signature.declarations ∧
          function.outputs = [range]) ∧
      ∀ error, attempt.1 = .error error ↔
        (Declaration.function function).Refused signature.declarations error := by
  intro signature
  have h : signature.Consistent := consistent_empty.enterAll attempts
  refine ⟨h, ?_, ?_, ?_⟩
  · intro more
    rw [enterAll_append]
    exact declarations_prefix_enterAll more _
  · intro declaration attempt
    have hresult : attempt.1 = signature.check declaration := result_enter declaration signature
    refine ⟨?_, ?_, fun error => ⟨?_, ?_⟩⟩
    · rw [hresult, h.check_eq_ok_iff]
    · intro hok
      have hrun : attempt = (.ok (), signature.record declaration) :=
        run_enter_ok (hresult.symm.trans hok)
      rw [hrun, declarations_record]
    · rw [hresult, h.check_eq_error_iff]
    · intro herror
      have hrun : attempt = (.error error, signature) :=
        run_enter_error (hresult.symm.trans herror)
      rw [hrun]
  · intro function attempt
    refine ⟨rfl, fun range => ?_, fun error => ?_⟩
    · rw [← h.check_eq_ok_iff]
      exact functionRange_eq_ok_iff
    · rw [← h.check_eq_error_iff]
      exact functionRange_eq_error_iff

end Signature

end SmtSession
