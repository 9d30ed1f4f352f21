import Mathlib.Logic.Relation
import SmtSession.Proofs.ModelEntries

/-!
# Replies as models

A reply is refused as a model if it is not a list, or if an item of it has the form of a definition
or of a universe element but a part of another kind. A definition with a part too many is no such
item: it says nothing, like every other item, and is passed over. Otherwise all that counts is what
the definitions and the elements say, one after another. Comments do not count in whatever list they
stand, and neither does the word that some solvers put before the first item.
-/

namespace SmtSession

namespace Model

open Solver Entry

/-- An item in the form of a definition or of a universe element, with a part of another kind. -/
inductive Malformed : SExpr → Prop where
  | definitionName {name binders sort body : SExpr} (h : name.symbol? = none) :
    Malformed (.application "define-fun" [name, binders, sort, body])
  | definitionBinders {name binders sort body : SExpr}
    (h : ∀ params : List (String × SExpr), binders ≠ .list (params.map binder)) :
    Malformed (.application "define-fun" [name, binders, sort, body])
  | elementName {name sort : SExpr} (h : name.symbol? = none) :
    Malformed (.application "declare-fun" [name, .list [], sort])
  | elementSort {name sort : SExpr} (h : sort.symbol? = none) :
    Malformed (.application "declare-fun" [name, .list [], sort])

/-- The second expression is the first with a comment put into one of its lists. -/
inductive Annotated : SExpr → SExpr → Prop where
  | here (before after : List SExpr) (text : String) :
    Annotated (.list (before ++ after)) (.list (before ++ .comment text :: after))
  | within {item item' : SExpr} (before after : List SExpr) (h : Annotated item item') :
    Annotated (.list (before ++ item :: after)) (.list (before ++ item' :: after))

/-- The second reply is the first with something put into it that says nothing about symbols. -/
inductive Padded : SExpr → SExpr → Prop where
  | comment {reply reply' : SExpr} (h : Annotated reply reply') : Padded reply reply'
  | heading (items : List SExpr) : Padded (.list items) (.list (.symbol "model" :: items))
  | item (before after : List SExpr) {expr : SExpr} (h : Skipped expr.dropComments) :
    Padded (.list (before ++ after)) (.list (before ++ expr :: after))

/-- The name of an element of a sort. -/
def Entry.element? (sort : String) : Entry → Option String
  | .definition _ _ => none
  | .element name sort' => if sort' = sort then some name else none
  | .other _ _ => none

/-- All that the entries give a sort as its elements, in their order. -/
def Entry.elementsOf (sort : String) (entries : List Entry) : List String :=
  entries.filterMap (element? sort)

variable {expr expr' reply : SExpr} {items : List SExpr}

/-! ### Items that are refused -/

theorem eq_symbol_of_symbol? {text : String} (h : expr.symbol? = some text) :
    expr = .symbol text := by
  unfold SExpr.symbol? at h
  split at h
  · rw [Option.some.inj h]
  · contradiction

theorem eq_binder_of_readParam {param : String × SExpr} (h : readParam expr = .ok param) :
    expr = binder param := by
  unfold readParam at h
  split at h
  · rw [← Except.ok.inj h]
    rfl
  · contradiction
  · contradiction

theorem eq_binders_of_readParams {params : List (String × SExpr)}
    (h : readParams expr = .ok params) : expr = .list (params.map binder) := by
  unfold readParams at h
  split at h
  · next binders =>
    congr 1
    induction binders generalizing params with
    | nil =>
        obtain rfl := Except.ok.inj h
        rfl
    | cons first binders ih =>
        rw [List.mapM_cons] at h
        cases hfirst : readParam first with
        | error failure =>
            rw [hfirst] at h
            contradiction
        | ok param =>
            cases hrest : binders.mapM readParam with
            | error failure =>
                rw [hfirst, hrest] at h
                contradiction
            | ok others =>
                rw [hfirst, hrest] at h
                obtain rfl := Except.ok.inj h
                rw [eq_binder_of_readParam hfirst, ih hrest]
                rfl
  · contradiction

/-- Every item is an entry, or malformed. -/
theorem entry_or_malformed (expr : SExpr) :
    (∃ entry : Entry, entry.expr = expr) ∨ Malformed expr := by
  by_cases hdefinition : ∃ name binders sort body,
      expr = .application "define-fun" [name, binders, sort, body]
  · obtain ⟨name, binders, sort, body, rfl⟩ := hdefinition
    cases hname : name.symbol? with
    | none => exact .inr (.definitionName hname)
    | some text =>
        obtain rfl := eq_symbol_of_symbol? hname
        by_cases hbinders : ∃ params : List (String × SExpr), binders = .list (params.map binder)
        · obtain ⟨params, rfl⟩ := hbinders
          exact .inl ⟨.definition text ⟨params, sort, body⟩, rfl⟩
        · exact .inr (.definitionBinders (not_exists.mp hbinders))
  by_cases helement : ∃ name sort, expr = .application "declare-fun" [name, .list [], sort]
  · obtain ⟨name, sort, rfl⟩ := helement
    cases hname : name.symbol? with
    | none => exact .inr (.elementName hname)
    | some text =>
        cases hsort : sort.symbol? with
        | none => exact .inr (.elementSort hsort)
        | some sortText =>
            obtain rfl := eq_symbol_of_symbol? hname
            obtain rfl := eq_symbol_of_symbol? hsort
            exact .inl ⟨.element text sortText, rfl⟩
  · refine .inl ⟨.other expr ⟨?_, ?_⟩, rfl⟩
    · intro name binders sort body heq
      exact hdefinition ⟨name, binders, sort, body, heq⟩
    · intro name sort heq
      exact helement ⟨name, sort, heq⟩

theorem readEntry_of_malformed (h : Malformed expr) (model : Model) :
    ∃ failure, readEntry model expr = .error failure := by
  cases h with
  | @definitionName name binders sort body h =>
      simp only [SExpr.application, SExpr.symbol, readEntry]
      split
      · contradiction
      · exact ⟨_, rfl⟩
  | @definitionBinders name binders sort body h =>
      simp only [SExpr.application, SExpr.symbol, readEntry]
      split
      · cases hparams : readParams binders with
        | error failure => exact ⟨failure, rfl⟩
        | ok params => exact absurd (eq_binders_of_readParams hparams) (h params)
      · exact ⟨_, rfl⟩
  | @elementName name sort h =>
      simp only [SExpr.application, SExpr.symbol, readEntry]
      split
      · contradiction
      · exact ⟨_, rfl⟩
  | @elementSort name sort h =>
      simp only [SExpr.application, SExpr.symbol, readEntry]
      split
      · contradiction
      · exact ⟨_, rfl⟩

theorem Malformed.ne_entry (h : Malformed expr) (entry : Entry) : entry.expr ≠ expr := by
  rintro rfl
  obtain ⟨failure, hfailure⟩ := readEntry_of_malformed h empty
  rw [readEntry_expr] at hfailure
  contradiction

/-- Items are entries up to the first of them that is malformed. -/
theorem entries_or_malformed (items : List SExpr) :
    (∃ entries : List Entry, items = entries.map Entry.expr) ∨
      ∃ (entries : List Entry) (item : SExpr) (later : List SExpr),
        items = entries.map Entry.expr ++ item :: later ∧ Malformed item := by
  induction items with
  | nil => exact .inl ⟨[], rfl⟩
  | cons item items ih =>
      rcases entry_or_malformed item with ⟨entry, rfl⟩ | hitem
      · rcases ih with ⟨entries, rfl⟩ | ⟨entries, item, later, rfl, hitem⟩
        · exact .inl ⟨entry :: entries, rfl⟩
        · exact .inr ⟨entry :: entries, item, later, rfl, hitem⟩
      · exact .inr ⟨[], item, items, rfl, hitem⟩

/-! ### Whole replies -/

theorem skipped_atom (content : Atom) : Skipped (.atom content) := ⟨nofun, nofun⟩

theorem readEntry_skipped (h : Skipped expr) (model : Model) : readEntry model expr = .ok model :=
  readEntry_expr model (.other expr h)

/-- The word before the first item is passed over like any other item that says nothing. -/
theorem foldlM_dropHeading (items : List SExpr) (model : Model) :
    (dropHeading items).foldlM readEntry model = items.foldlM readEntry model := by
  unfold dropHeading
  split
  · rw [List.foldlM_cons, readEntry_skipped (skipped_atom _)]
    rfl
  · rfl

theorem ofReply_of_list (h : reply.dropComments = .list items) :
    ofReply reply = items.foldlM readEntry empty := by
  unfold ofReply
  rw [h]
  exact foldlM_dropHeading items empty

theorem ofReply_of_not_list (h : ∀ items, reply.dropComments ≠ .list items) :
    ∃ failure, ofReply reply = .error failure := by
  unfold ofReply
  split
  · next items hitems => exact absurd hitems (h items)
  · exact ⟨_, rfl⟩

theorem ofReply_of_malformed {entries : List Entry} {item : SExpr} {later : List SExpr}
    (h : reply.dropComments = .list (entries.map Entry.expr ++ item :: later))
    (hitem : Malformed item) : ∃ failure, ofReply reply = .error failure := by
  obtain ⟨failure, hfailure⟩ := readEntry_of_malformed hitem (entries.foldl record empty)
  refine ⟨failure, ?_⟩
  rw [ofReply_of_list h, List.foldlM_append, foldlM_readEntry]
  change (item :: later).foldlM readEntry (entries.foldl record empty) = _
  rw [List.foldlM_cons, hfailure]
  rfl

theorem ofReply_of_entries {entries : List Entry}
    (h : reply.dropComments = .list (entries.map Entry.expr)) :
    ofReply reply = .ok (entries.foldl record empty) := by
  rw [ofReply_of_list h, foldlM_readEntry]

/-! ### What the entries say -/

theorem elements_record (model : Model) (entry : Entry) (sort : String) :
    (entry.record model).elements sort = model.elements sort ++ (entry.element? sort).toList := by
  cases entry with
  | definition name interpretation => exact (List.append_nil _).symm
  | element name sort' =>
      rw [record, elements_addElement, element?]
      by_cases h : sort' = sort
      · rw [if_pos h, if_pos h, h]
        rfl
      · rw [if_neg h, if_neg h]
        exact (List.append_nil _).symm
  | other expr skipped => exact (List.append_nil _).symm

theorem elements_foldl_record (entries : List Entry) (model : Model) (sort : String) :
    (entries.foldl record model).elements sort =
      model.elements sort ++ elementsOf sort entries := by
  induction entries generalizing model with
  | nil => exact (List.append_nil _).symm
  | cons entry entries ih =>
      rw [List.foldl_cons, ih, elements_record, List.append_assoc]
      congr 1
      unfold elementsOf
      rw [List.filterMap_cons]
      cases entry.element? sort <;> rfl

theorem mem_symbols_of_entries (name : String) (entries : List Entry) :
    name ∈ (entries.foldl record empty).symbols ↔ definitionsOf name entries ≠ [] := by
  have hdefined := definition?_of_entries name entries
  rw [symbols, ← Table.find?_isSome_iff]
  change ((entries.foldl record empty).definition? name).isSome ↔ _
  rw [hdefined, List.getLast?_isSome]

/-! ### What makes no difference -/

theorem isComment_of_annotated (h : Annotated expr expr') :
    expr.isComment = false ∧ expr'.isComment = false := by
  cases h <;> exact ⟨rfl, rfl⟩

theorem dropCommentsAll_append (items later : List SExpr) :
    SExpr.dropCommentsAll (items ++ later) =
      SExpr.dropCommentsAll items ++ SExpr.dropCommentsAll later := by
  rw [SExpr.dropCommentsAll_eq, SExpr.dropCommentsAll_eq, SExpr.dropCommentsAll_eq,
    List.filter_append, List.map_append]

theorem dropCommentsAll_cons (h : expr.isComment = false) (items : List SExpr) :
    SExpr.dropCommentsAll (expr :: items) = expr.dropComments :: SExpr.dropCommentsAll items := by
  rw [SExpr.dropCommentsAll, h]
  rfl

theorem Annotated.dropComments_eq (h : Annotated expr expr') :
    expr'.dropComments = expr.dropComments := by
  induction h with
  | here before after text =>
      rw [SExpr.dropComments, SExpr.dropComments, dropCommentsAll_append, dropCommentsAll_append]
      rfl
  | @within item item' before after h ih =>
      obtain ⟨hitem, hitem'⟩ := isComment_of_annotated h
      rw [SExpr.dropComments, SExpr.dropComments, dropCommentsAll_append, dropCommentsAll_append,
        dropCommentsAll_cons hitem, dropCommentsAll_cons hitem', ih]

theorem Padded.ofReply_eq {reply' : SExpr} (h : Padded reply reply') :
    ofReply reply' = ofReply reply := by
  cases h with
  | comment h =>
      unfold ofReply
      rw [h.dropComments_eq]
  | heading items =>
      have hheading : (SExpr.list (.symbol "model" :: items)).dropComments =
          .list (.symbol "model" :: SExpr.dropCommentsAll items) := rfl
      have hitems : (SExpr.list items).dropComments = .list (SExpr.dropCommentsAll items) := rfl
      rw [ofReply_of_list hheading, ofReply_of_list hitems, List.foldlM_cons,
        readEntry_skipped (skipped_atom _)]
      rfl
  | @item before after expr h =>
      by_cases hcomment : expr.isComment
      · have hsame : (SExpr.list (before ++ expr :: after)).dropComments =
            (SExpr.list (before ++ after)).dropComments := by
          rw [SExpr.dropComments, SExpr.dropComments, dropCommentsAll_append,
            dropCommentsAll_append, SExpr.dropCommentsAll, if_pos hcomment]
        unfold ofReply
        rw [hsame]
      · have hlist (items : List SExpr) :
            (SExpr.list items).dropComments = .list (SExpr.dropCommentsAll items) := rfl
        rw [ofReply_of_list (hlist _), ofReply_of_list (hlist _), dropCommentsAll_append,
          dropCommentsAll_append, dropCommentsAll_cons (Bool.eq_false_iff.mpr hcomment),
          List.foldlM_append, List.foldlM_append]
        congr 1
        funext model
        rw [List.foldlM_cons, readEntry_skipped h]
        rfl

/-! ### Every reply -/

/-- Without its comments, the reply is not a list, or has a malformed item. -/
def Unreadable (reply : SExpr) : Prop :=
  (∀ items, reply.dropComments ≠ .list items) ∨
    ∃ items, reply.dropComments = .list items ∧ ∃ item ∈ items, Malformed item

theorem ofReply_cases (reply : SExpr) :
    Unreadable reply ∧ (∃ failure, ofReply reply = .error failure) ∨
      ¬Unreadable reply ∧ ∃ entries : List Entry,
        reply.dropComments = .list (entries.map Entry.expr) ∧
          ofReply reply = .ok (entries.foldl record empty) := by
  by_cases hlist : ∃ items, reply.dropComments = .list items
  · obtain ⟨items, hitems⟩ := hlist
    rcases entries_or_malformed items with ⟨entries, rfl⟩ | ⟨entries, item, later, rfl, hitem⟩
    · refine .inr ⟨?_, entries, hitems, ofReply_of_entries hitems⟩
      rintro (hnone | ⟨items, hitems', item, hmem, hitem⟩)
      · exact hnone _ hitems
      · obtain rfl := SExpr.list.inj (hitems.symm.trans hitems')
        obtain ⟨entry, -, hentry⟩ := List.mem_map.mp hmem
        exact hitem.ne_entry entry hentry
    · have hmem : item ∈ entries.map Entry.expr ++ item :: later :=
        List.mem_append_right _ List.mem_cons_self
      exact .inl ⟨.inr ⟨_, hitems, item, hmem, hitem⟩, ofReply_of_malformed hitems hitem⟩
  · have hnone := not_exists.mp hlist
    exact .inl ⟨.inl hnone, ofReply_of_not_list hnone⟩

theorem ofReply_of_padded {reply' : SExpr} (h : Relation.ReflTransGen Padded reply reply') :
    ofReply reply' = ofReply reply := by
  induction h with
  | refl => rfl
  | tail _ hlast ih => rw [hlast.ofReply_eq, ih]

/-- A reply is refused if and only if, without its comments, it is not a list or has a malformed
item. Otherwise its items are entries. A name has the last definition that they give it, with the
parameters in order; the names that have one are listed once each, in ascending order; and a sort has
the elements they give it, in order. Comments in any of its lists, the word `model` in front, and
items that are neither a definition nor an element make no difference, however many are put in. -/
theorem model_of_reply (reply : SExpr) :
    ((∃ failure, ofReply reply = .error failure) ↔
      (∀ items, reply.dropComments ≠ .list items) ∨
        ∃ items, reply.dropComments = .list items ∧ ∃ item ∈ items, Malformed item) ∧
    (∀ model, ofReply reply = .ok model →
      ∃ entries : List Entry, reply.dropComments = .list (entries.map Entry.expr) ∧
        (∀ name, model.definition? name = (definitionsOf name entries).getLast?) ∧
        model.symbols.Pairwise (· < ·) ∧
        (∀ name, name ∈ model.symbols ↔ definitionsOf name entries ≠ []) ∧
        ∀ sort, model.elements sort = elementsOf sort entries) ∧
    ∀ reply', Relation.ReflTransGen Padded reply reply' → ofReply reply' = ofReply reply := by
  refine ⟨?_, ?_, fun reply' hpadded => ofReply_of_padded hpadded⟩
  · rcases ofReply_cases reply with ⟨hunreadable, hfailure⟩ | ⟨hreadable, entries, -, hmodel⟩
    · exact iff_of_true hfailure hunreadable
    · refine iff_of_false ?_ hreadable
      rintro ⟨failure, hfailure⟩
      rw [hmodel] at hfailure
      contradiction
  · intro model hmodel
    rcases ofReply_cases reply with ⟨-, failure, hfailure⟩ | ⟨-, entries, hentries, hmodel'⟩
    · rw [hfailure] at hmodel
      contradiction
    · obtain rfl := Except.ok.inj (hmodel'.symm.trans hmodel)
      refine ⟨entries, hentries, fun name => definition?_of_entries name entries,
        Table.pairwise_keys _, fun name => mem_symbols_of_entries name entries, fun sort => ?_⟩
      exact elements_foldl_record entries empty sort

/-- A reply in which a constant and a function share a name, and one sort has an element. -/
def sharedReply : SExpr :=
  .list [sharedFunction.expr, sharedConstant.expr, (Entry.element "T!val!0" "T").expr]

/-- The same reply with a comment between a parameter and its sort, a heading, and a constraint on
the sort. -/
def paddedReply : SExpr :=
  .list [.symbol "model",
    .application "define-fun" [.symbol "c",
      .list [.list [.symbol "x!0", .comment " an argument", .symbol "Int"]], .symbol "Int",
      .numeral 2],
    sharedConstant.expr, (Entry.element "T!val!0" "T").expr,
    .application "forall" [.list [], .symbol "true"]]

theorem model_of_reply_padded :
    ∃ model, ofReply paddedReply = .ok model ∧ model.symbols.Pairwise (· < ·) ∧
      model.definition? "c" = some ⟨[], .symbol "Int", .numeral 1⟩ := by
  have hconstraint :
      Skipped (SExpr.application "forall" [.list [], .symbol "true"]).dropComments :=
    ⟨by simp [SExpr.application, SExpr.dropComments, SExpr.dropCommentsAll, SExpr.isComment],
      by simp [SExpr.application, SExpr.dropComments, SExpr.dropCommentsAll, SExpr.isComment]⟩
  have hcomment : Annotated sharedReply _ :=
    .within [] [_, _] (.within [_, _] [_, _] (.within [] [] (.here [_] [_] " an argument")))
  have hpadded : Relation.ReflTransGen Padded sharedReply paddedReply :=
    .tail (.tail (.single (.comment hcomment)) (.heading _)) (.item [_, _, _, _] [] hconstraint)
  obtain ⟨-, hmodel, hsame⟩ := model_of_reply sharedReply
  obtain ⟨-, -, -, hsorted, -⟩ := hmodel _ rfl
  exact ⟨_, (hsame paddedReply hpadded).trans rfl, hsorted, by decide⟩

end Model

end SmtSession
