import SmtSession.Model.Reader
import SmtSession.Signature

/-!
# The entries of a model

A model is read entry by entry, and a definition replaces what was defined under its name before.
The names of constants and of functions are two namespaces to a signature, but one to a model: of a
constant and a function that share a name only the one that stands later is kept. So the order of
the entries decides whether the constant has a value.
-/

namespace SmtSession

def Interpretation.isConstant (interpretation : Interpretation) : Bool :=
  interpretation.params.isEmpty

def Interpretation.isFunction (interpretation : Interpretation) : Bool :=
  !interpretation.params.isEmpty

namespace Model

open Solver

/-- What says nothing about symbols: it is neither a definition nor a universe element. -/
structure Skipped (expr : SExpr) : Prop where
  not_definition : ∀ name binders sort body,
    expr ≠ .application "define-fun" [name, binders, sort, body]
  not_element : ∀ name sort, expr ≠ .application "declare-fun" [name, .list [], sort]

/-- A well-formed entry. -/
inductive Entry where
  | definition (name : String) (interpretation : Interpretation)
  | element (name sort : String)
  | other (expr : SExpr) (skipped : Skipped expr)

namespace Entry

def binder (param : String × SExpr) : SExpr := .list [.symbol param.1, param.2]

/-- The entry as the solver writes it. -/
def expr : Entry → SExpr
  | .definition name ⟨params, sort, body⟩ =>
    .application "define-fun" [.symbol name, .list (params.map binder), sort, body]
  | .element name sort => .application "declare-fun" [.symbol name, .list [], .symbol sort]
  | .other expr _ => expr

def record (model : Model) : Entry → Model
  | .definition name interpretation => model.define name interpretation
  | .element name sort => model.addElement sort name
  | .other _ _ => model

def interpretation? (name : String) : Entry → Option Interpretation
  | .definition name' interpretation => if name' = name then some interpretation else none
  | .element _ _ => none
  | .other _ _ => none

/-- All that the entries define under a name, in their order. -/
def definitionsOf (name : String) (entries : List Entry) : List Interpretation :=
  entries.filterMap (interpretation? name)

def definesFunction (name : String) (entries : List Entry) : Bool :=
  (definitionsOf name entries).any Interpretation.isFunction

def name? (kind : Interpretation → Bool) : Entry → Option String
  | .definition name interpretation => if kind interpretation then some name else none
  | .element _ _ => none
  | .other _ _ => none

/-- Every constant and every function is defined at most once. -/
def Unrepeated (entries : List Entry) : Prop :=
  (entries.filterMap (name? Interpretation.isConstant)).Nodup ∧
    (entries.filterMap (name? Interpretation.isFunction)).Nodup

instance (entries : List Entry) : Decidable (Unrepeated entries) :=
  inferInstanceAs (Decidable (_ ∧ _))

end Entry

open Entry

variable {entries before later : List Entry} {name : String} {sort value : SExpr}

/-! ### Reading the entries -/

theorem readParams_binders (params : List (String × SExpr)) :
    readParams (.list (params.map binder)) = .ok params := by
  change (params.map binder).mapM readParam = .ok params
  induction params with
  | nil => rfl
  | cons param params ih =>
      rw [List.map_cons, List.mapM_cons, ih]
      rfl

theorem readEntry_expr (model : Model) (entry : Entry) :
    readEntry model entry.expr = .ok (entry.record model) := by
  cases entry with
  | definition name interpretation =>
      obtain ⟨params, sort, body⟩ := interpretation
      simp only [expr, SExpr.application, SExpr.symbol, readEntry, readParams_binders]
      rfl
  | element name sort => rfl
  | other expr skipped =>
      change readEntry model expr = .ok model
      unfold readEntry
      split
      · next name binders sort body =>
        exact absurd rfl (skipped.not_definition name binders sort body)
      · next name sort => exact absurd rfl (skipped.not_element name sort)
      · rfl

theorem foldlM_readEntry (entries : List Entry) (model : Model) :
    (entries.map expr).foldlM readEntry model = .ok (entries.foldl record model) := by
  induction entries generalizing model with
  | nil => rfl
  | cons entry entries ih =>
      rw [List.map_cons, List.foldlM_cons, readEntry_expr]
      exact ih (entry.record model)

theorem ofReply_eq_ok {reply : SExpr} {items : List SExpr}
    (hreply : reply.dropComments = .list items) (hentries : dropHeading items = entries.map expr) :
    ofReply reply = .ok (entries.foldl record empty) := by
  unfold ofReply
  rw [hreply]
  simp only
  rw [hentries, foldlM_readEntry]

/-! ### The last definition counts -/

theorem definition?_record (model : Model) (entry : Entry) :
    (entry.record model).definition? name =
      (entry.interpretation? name).or (model.definition? name) := by
  cases entry with
  | definition name' interpretation =>
      rw [record, definition?_define, interpretation?]
      by_cases h : name' = name
      · rw [if_pos h, if_pos h, Option.some_or]
      · rw [if_neg h, if_neg h, Option.none_or]
  | element name' sort => rfl
  | other expr skipped => rfl

theorem definition?_foldl_record (entries : List Entry) (model : Model) :
    (entries.foldl record model).definition? name =
      (definitionsOf name entries).getLast?.or (model.definition? name) := by
  induction entries generalizing model with
  | nil => rfl
  | cons entry entries ih =>
      rw [List.foldl_cons, ih, definition?_record, definitionsOf, definitionsOf,
        List.filterMap_cons]
      cases entry.interpretation? name with
      | none => rw [Option.none_or]
      | some interpretation =>
          rw [Option.some_or, List.getLast?_cons]
          cases (entries.filterMap (interpretation? name)).getLast? <;> rfl

theorem definition?_of_entries (name : String) (entries : List Entry) :
    (entries.foldl record empty).definition? name = (definitionsOf name entries).getLast? := by
  rw [definition?_foldl_record]
  exact Option.or_none

theorem definitionsOf_append (name : String) (entries later : List Entry) :
    definitionsOf name (entries ++ later) =
      definitionsOf name entries ++ definitionsOf name later :=
  List.filterMap_append

theorem definitionsOf_cons_self (name : String) (interpretation : Interpretation)
    (entries : List Entry) :
    definitionsOf name (.definition name interpretation :: entries) =
      interpretation :: definitionsOf name entries :=
  List.filterMap_cons_some (if_pos rfl)

/-! ### Two namespaces in one -/

theorem countP_definitionsOf (kind : Interpretation → Bool) (name : String)
    (entries : List Entry) :
    (definitionsOf name entries).countP kind = (entries.filterMap (name? kind)).count name := by
  induction entries with
  | nil => rfl
  | cons entry entries ih =>
      unfold definitionsOf at ih ⊢
      cases entry with
      | definition name' interpretation =>
          by_cases hname : name' = name <;> by_cases hkind : kind interpretation <;>
            simp [interpretation?, name?, hname, hkind, ih]
      | element name' sort => exact ih
      | other expr skipped => exact ih

theorem Entry.Unrepeated.countP_constant_le (h : Unrepeated entries) (name : String) :
    (definitionsOf name entries).countP Interpretation.isConstant ≤ 1 := by
  rw [countP_definitionsOf]
  exact List.nodup_iff_count.mp h.1 name

/-- What is defined under the name of a constant after it are functions. -/
theorem Entry.Unrepeated.isFunction_of_later
    (h : Unrepeated (before ++ .definition name ⟨[], sort, value⟩ :: later)) :
    ∀ interpretation ∈ definitionsOf name later, interpretation.isFunction := by
  have hcount := h.countP_constant_le name
  rw [definitionsOf_append, definitionsOf_cons_self, List.countP_append,
    List.countP_cons_of_pos (by rfl)] at hcount
  have hnone : (definitionsOf name later).countP Interpretation.isConstant = 0 := by
    omega
  intro interpretation hmem
  have hconstant := List.countP_eq_zero.mp hnone interpretation hmem
  unfold Interpretation.isConstant at hconstant
  unfold Interpretation.isFunction
  simpa using hconstant

/-- A function of the same name hides a constant if it stands after it. -/
theorem value?_of_definition
    (h : Unrepeated (before ++ .definition name ⟨[], sort, value⟩ :: later)) :
    ((before ++ .definition name ⟨[], sort, value⟩ :: later).foldl record empty).value? name =
      if definesFunction name later then none else some value := by
  rw [value?, definition?_of_entries, definitionsOf_append, definitionsOf_cons_self,
    List.getLast?_append, List.getLast?_cons]
  cases hlater : (definitionsOf name later).getLast? with
  | none =>
      have hempty := List.getLast?_eq_none_iff.mp hlater
      rw [definesFunction, hempty]
      rfl
  | some interpretation =>
      have hmem := List.mem_of_getLast? hlater
      have hfunction := h.isFunction_of_later interpretation hmem
      have hdefines : definesFunction name later :=
        List.any_eq_true.mpr ⟨interpretation, hmem, hfunction⟩
      have hparams : interpretation.params.isEmpty = false := by
        simpa [Interpretation.isFunction] using hfunction
      rw [if_pos hdefines]
      simp [hparams]

theorem Entry.Unrepeated.length_definitionsOf_le (h : Unrepeated entries)
    (hfunction : definesFunction name entries = false) :
    (definitionsOf name entries).length ≤ 1 := by
  have hconstants : ∀ interpretation ∈ definitionsOf name entries, interpretation.isConstant := by
    intro interpretation hmem
    have hparams := List.any_eq_false.mp hfunction interpretation hmem
    simpa [Interpretation.isFunction, Interpretation.isConstant] using hparams
  calc
    (definitionsOf name entries).length
      = (definitionsOf name entries).countP Interpretation.isConstant :=
        (List.countP_eq_length.mpr hconstants).symm
    _ ≤ 1 := h.countP_constant_le name

/-- Without a function of the same name, the order of the entries makes no difference. -/
theorem value?_of_perm {entries' : List Entry} (hperm : entries'.Perm entries)
    (h : Unrepeated entries) (hfunction : definesFunction name entries = false) :
    (entries'.foldl record empty).value? name = (entries.foldl record empty).value? name := by
  have hlength := h.length_definitionsOf_le hfunction
  have hdefinitions : (definitionsOf name entries').Perm (definitionsOf name entries) :=
    hperm.filterMap _
  have hsame : definitionsOf name entries' = definitionsOf name entries := by
    match hlist : definitionsOf name entries, hlength with
    | [], _ => exact List.perm_nil.mp (hlist ▸ hdefinitions)
    | [interpretation], _ => exact List.perm_singleton.mp (hlist ▸ hdefinitions)
  rw [value?, value?, definition?_of_entries, definition?_of_entries, hsame]

/-- An answer of well-formed entries, in which every constant and every function is defined at most
once, is read as a model. A constant has the value it was given if no function of its name stands
later, and no value otherwise; where no function has its name, its value is the same in every order
of the entries. -/
theorem values_of_reply {reply : SExpr} {items : List SExpr} {entries : List Entry}
    (hreply : reply.dropComments = .list items) (hentries : dropHeading items = entries.map expr)
    (hunrepeated : Unrepeated entries) :
    ∃ model, ofReply reply = .ok model ∧
      (∀ before name sort value later,
        entries = before ++ .definition name ⟨[], sort, value⟩ :: later →
        model.value? name = if definesFunction name later then none else some value) ∧
      ∀ (reply' : SExpr) (items' : List SExpr) (entries' : List Entry),
        reply'.dropComments = .list items' → dropHeading items' = entries'.map expr →
        entries'.Perm entries → ∃ model', ofReply reply' = .ok model' ∧
          ∀ name, definesFunction name entries = false →
            model'.value? name = model.value? name := by
  refine ⟨_, ofReply_eq_ok hreply hentries, ?_, ?_⟩
  · rintro before name sort value later rfl
    exact value?_of_definition hunrepeated
  · intro reply' items' entries' hreply' hentries' hperm
    refine ⟨_, ofReply_eq_ok hreply' hentries', fun name hfunction => ?_⟩
    exact value?_of_perm hperm hunrepeated hfunction

def sharedConstant : Entry := .definition "c" ⟨[], .symbol "Int", .numeral 1⟩

def sharedFunction : Entry :=
  .definition "c" ⟨[("x!0", .symbol "Int")], .symbol "Int", .numeral 2⟩

theorem values_of_reply_shared :
    let reply := SExpr.list [.symbol "model", sharedFunction.expr, .comment " the constant",
      sharedConstant.expr, (Entry.element "T!val!0" "T").expr]
    ∃ model, ofReply reply = .ok model ∧ model.value? "c" = some (.numeral 1) := by
  intro reply
  let entries := [sharedFunction, sharedConstant, .element "T!val!0" "T"]
  obtain ⟨model, hmodel, hvalue, -⟩ :=
    values_of_reply (show reply.dropComments = .list (.symbol "model" :: entries.map expr) by rfl)
      rfl (show Unrepeated entries by decide)
  exact ⟨model, hmodel, hvalue [sharedFunction] "c" (.symbol "Int") (.numeral 1) _ rfl⟩

/-- A signature takes a constant and a function of one name, and a solver may define the constant
first. -/
theorem constant_hidden :
    (∃ signature signature',
        Signature.empty.declare (.constant ⟨"c", .int, false⟩) = .ok signature ∧
          signature.declare (.function ⟨"c", [.int], [.int]⟩) = .ok signature') ∧
      ¬∀ (reply : SExpr) (items : List SExpr) (entries : List Entry),
        reply.dropComments = .list items → dropHeading items = entries.map expr →
        Unrepeated entries → ∃ model, ofReply reply = .ok model ∧
          ∀ name sort value, .definition name ⟨[], sort, value⟩ ∈ entries →
            model.value? name = some value := by
  refine ⟨⟨_, _, rfl, rfl⟩, fun hclaim => ?_⟩
  let entries := [sharedConstant, sharedFunction]
  have hunrepeated : Unrepeated entries := by decide
  obtain ⟨model, hmodel, hvalue⟩ :=
    hclaim (.list (entries.map expr)) (entries.map expr) entries rfl rfl hunrepeated
  have hread : ofReply (.list (entries.map expr)) = .ok (entries.foldl record empty) := rfl
  obtain rfl := Except.ok.inj (hread.symm.trans hmodel)
  have hnone : (entries.foldl record empty).value? "c" = none := by decide
  have hsome := hvalue "c" (.symbol "Int") (.numeral 1) List.mem_cons_self
  rw [hnone] at hsome
  contradiction

end Model

end SmtSession
