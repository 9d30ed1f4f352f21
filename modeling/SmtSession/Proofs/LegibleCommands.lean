import SmtSession.Proofs.DeclarationCommands
import SmtSession.Proofs.Entries
import SmtSession.Proofs.Transcripts

/-!
# Commands that are read back

The commands of a session are made of words that stand as they are, of names and formulas that are
read back, and of the sorts for the types in them. The value of an option may be digits: written as
a symbol, they are read as a numeral, and look the same. A remark is read as the comment it is meant
for if it is a single line.
-/

namespace SmtSession

namespace SExpr

open Reader

/-- A word that needs no quotes. -/
def isWord : List Char → Bool
  | c :: tail => isSymbolStart c && tail.all isSymbolChar
  | [] => false

theorem readable_of_isWord {text : List Char} (h : isWord text) : Readable text := by
  cases text with
  | nil => contradiction
  | cons c tail =>
      obtain ⟨hstart, htail⟩ := Bool.and_eq_true_iff.mp h
      exact readable_of_bare (.name hstart (List.all_eq_true.mp htail))

variable {head name : String} {args items others formulas : List SExpr}
  {formula expr range : SExpr} {domain : List SExpr}

theorem writable_word {text : String} (h : isWord text.toList) : Writable (symbol text) :=
  .symbol (readable_of_isWord h)

theorem writable_application (hhead : isWord head.toList) (h : ∀ arg ∈ args, Writable arg) :
    Writable (application head args) :=
  .list (List.forall_mem_cons.mpr ⟨writable_word hhead, h⟩)

theorem writable_negation (h : Writable formula) : Writable (negation formula) :=
  writable_application (by decide) (List.forall_mem_singleton.mpr h)

theorem writable_conjunction (h : ∀ formula ∈ formulas, Writable formula) :
    Writable (conjunction formulas) := by
  match formulas with
  | [] => exact writable_word (by decide)
  | [formula] => exact h formula (List.mem_singleton_self formula)
  | _ :: _ :: _ => exact writable_application (by decide) h

/-! ### Formulas -/

/-- A comment on its own is not read back: the end of its line is missing. -/
theorem isComment_of_read_print (h : read expr.print = .ok expr) : expr.isComment = false := by
  cases expr with
  | atom content => rfl
  | list items => rfl
  | comment text =>
      obtain ⟨rest, hreads⟩ := reads_of_read h
      rw [print, String.toList_ofList, chars] at hreads
      cases hreads with
      | blank hblank _ => contradiction
      | token htoken _ =>
          generalize hwhole : ';' :: text.toList = whole at htoken
          cases htoken with
          | @comment inner rest _ =>
              rw [String.toList_ofList] at hwhole
              simp at hwhole

theorem writable_of_read (h : read expr.print = .ok expr) : Writable expr := by
  obtain ⟨rest, hreads⟩ := reads_of_read h
  have hlined := hreads.lined expr (List.mem_singleton_self expr)
  exact writable_of_read_print hlined (isComment_of_read_print h) h

/-! ### Sorts -/

theorem writable_toArraySort {domain : List Ty} (hdomain : ∀ ty ∈ domain, Writable ty.toSort)
    (hrange : Writable range) : Writable (Ty.toArraySort domain range) := by
  induction domain with
  | nil =>
      rw [Ty.toArraySort]
      exact hrange
  | cons ty domain ih =>
      obtain ⟨hty, htys⟩ := List.forall_mem_cons.mp hdomain
      rw [Ty.toArraySort]
      refine writable_application (by decide) ?_
      exact List.forall_mem_cons.mpr ⟨hty, List.forall_mem_singleton.mpr (ih htys)⟩

theorem writable_toSort {ty : Ty} (h : ∀ name ∈ ty.names, Readable name.toList) :
    Writable ty.toSort := by
  induction ty with
  | bool => exact writable_word (by decide)
  | int => exact writable_word (by decide)
  | real => exact writable_word (by decide)
  | bitVector width =>
      refine writable_application (by decide) ?_
      exact List.forall_mem_cons.mpr
        ⟨writable_word (by decide), List.forall_mem_singleton.mpr (.numeral _)⟩
  | named name => exact .symbol (h name (List.mem_singleton_self name))
  | map domain range hdomain hrange =>
      rw [Ty.names, List.forall_mem_append, Ty.namesOfAll_eq, List.forall_mem_flatMap] at h
      rw [Ty.toSort]
      refine writable_toArraySort (fun ty hty => ?_) (hrange h.2)
      exact hdomain ty hty (h.1 ty hty)

/-! ### Texts that look the same -/

/-- Two expressions that are written the same, wherever they stand. -/
def Alike (expr other : SExpr) : Prop :=
  expr.chars = other.chars ∧ expr.isComment = other.isComment

theorem alike_refl (expr : SExpr) : Alike expr expr := ⟨rfl, rfl⟩

theorem itemsChars_congr (h : List.Forall₂ Alike items others) :
    itemsChars items = itemsChars others := by
  induction h with
  | nil => rfl
  | @cons item other items others hitem hitems ih =>
      obtain ⟨hchars, hcomment⟩ := hitem
      have hgap : gap item items = gap other others := by
        cases hitems with
        | nil => rfl
        | cons hnext _ => rw [gap, gap, hcomment, hnext.2]
      rw [itemsChars, itemsChars, hchars, hcomment, hgap, ih]

theorem chars_application_congr (h : List.Forall₂ Alike items others) :
    (application head items).chars = (application head others).chars := by
  have hitems := itemsChars_congr (List.Forall₂.cons (alike_refl (symbol head)) h)
  rw [application, application, chars, chars, hitems]

/-- A number is written the same as a symbol and as a numeral. -/
theorem alike_numeral {value : Nat} (h : value < UInt64.size) :
    Alike (numeral (UInt64.ofNat value)) (symbol (toString value)) := by
  have hvalue : (UInt64.ofNat value).toNat = value := UInt64.toNat_ofNat_of_lt' h
  have hdigits : (toString value).toList = (numeral (UInt64.ofNat value)).chars := by
    rw [chars, Atom.chars, hvalue]
    exact String.toList_ofList
  have hplain {c : Char} (hc : c.isDigit = false) : c ∉ (toString value).toList := by
    rw [hdigits]
    exact not_mem_numeral _ hc
  have hspaced : ¬Spaced (toString value).toList := by
    rintro (hspace | hquote | hapostrophe)
    · exact hplain (by decide) hspace
    · exact hplain (by decide) hquote
    · exact hplain (by decide) hapostrophe
  exact ⟨by rw [chars_symbol_bare hspaced (hplain (by decide)), hdigits], rfl⟩

end SExpr

/-! ### Entries -/

namespace Solver.Transcript

open SExpr

variable {formula clause command expr range : SExpr} {domain : List SExpr} {name text : String}

theorem legible_of_writable (h : Writable command) (hcommand : command.isComment = false) :
    Legible command [command] :=
  .command hcommand hcommand h rfl

theorem legible_application {head : String} {args : List SExpr} (hhead : isWord head.toList)
    (h : ∀ arg ∈ args, Writable arg) :
    Legible (.application head args) [.application head args] :=
  legible_of_writable (writable_application hhead h) rfl

theorem legible_assert (h : Writable formula) :
    Legible (assertCommand formula) [assertCommand formula] :=
  legible_application (by decide) (List.forall_mem_singleton.mpr h)

/-- A clause is a list, whatever it is read as. -/
theorem legible_assert_of_rereads (h : Rereads clause expr) (hclause : clause.isComment = false) :
    Legible (assertCommand clause) [assertCommand expr] := by
  obtain ⟨hread, hprint⟩ := h
  rw [← hprint] at hread
  have hwritable : Writable (assertCommand expr) :=
    writable_application (by decide) (List.forall_mem_singleton.mpr (writable_of_read hread))
  have halike : Alike expr clause :=
    ⟨String.ofList_injective hprint, (isComment_of_read_print hread).trans hclause.symm⟩
  exact .command rfl rfl hwritable (chars_application_congr (.cons halike .nil))

theorem legible_declareSort (h : Readable name.toList) :
    Legible (declareSortCommand name) [declareSortCommand name] := by
  refine legible_application (by decide) ?_
  exact List.forall_mem_cons.mpr ⟨.symbol h, List.forall_mem_singleton.mpr (.numeral 0)⟩

theorem legible_declareFun (hname : Readable name.toList)
    (hdomain : ∀ sort ∈ domain, Writable sort) (hrange : Writable range) :
    Legible (declareFunCommand name domain range) [declareFunCommand name domain range] := by
  refine legible_application (by decide) ?_
  exact List.forall_mem_cons.mpr ⟨.symbol hname,
    List.forall_mem_cons.mpr ⟨.list hdomain, List.forall_mem_singleton.mpr hrange⟩⟩

/-! ### Options -/

theorem options_invocation (settings : Settings) (program : String) :
    (settings.enforced.invocation program).options =
      [("global-declarations", "true"), ("produce-models", "true"), ("model.completion", "false"),
        ("well_sorted_check", "true")] ++
      (settings.timeout?.map fun milliseconds => ("timeout", toString milliseconds)).toList := by
  have htimeout : settings.enforced.timeout? = settings.timeout? := rfl
  unfold Settings.invocation
  rw [htimeout]
  cases settings.timeout? <;> rfl

theorem timeout_lt {settings : Settings} {milliseconds : Nat}
    (h : settings.timeout? = some milliseconds) : milliseconds < UInt64.size := by
  obtain ⟨word, -, hword⟩ := Option.bind_eq_some_iff.mp h
  unfold Settings.nonNegative? at hword
  split at hword
  · have hbound := word.toInt_lt
    have hsize : UInt64.size = 2 ^ 64 := rfl
    have hvalue := Option.some.inj hword
    omega
  · contradiction

theorem exists_legible_option {settings : Settings} {program : String} {option : String × String}
    (h : option ∈ (settings.enforced.invocation program).options) :
    ∃ exprs, Legible (optionCommand option) exprs := by
  rw [options_invocation, List.mem_append, Option.mem_toList, Option.map_eq_some_iff] at h
  rcases h with hfixed | ⟨milliseconds, hmilliseconds, rfl⟩
  · have hwords : ∀ option ∈ [("global-declarations", "true"), ("produce-models", "true"),
        ("model.completion", "false"), ("well_sorted_check", "true")],
        isWord (":" ++ option.1).toList ∧ isWord option.2.toList := by
      decide
    obtain ⟨hname, hvalue⟩ := hwords option hfixed
    refine ⟨_, legible_application (by decide) ?_⟩
    exact List.forall_mem_cons.mpr
      ⟨writable_word hname, List.forall_mem_singleton.mpr (writable_word hvalue)⟩
  · let value := numeral (UInt64.ofNat milliseconds)
    have hwritable : Writable (.application "set-option" [symbol ":timeout", value]) :=
      writable_application (by decide) (List.forall_mem_cons.mpr
        ⟨writable_word (by decide), List.forall_mem_singleton.mpr (.numeral _)⟩)
    have halike := alike_numeral (timeout_lt hmilliseconds)
    exact ⟨_, .command rfl rfl hwritable
      (chars_application_congr (.cons (alike_refl _) (.cons halike .nil)))⟩

theorem commandLine_eq (settings : Settings) (program : String) :
    (settings.enforced.invocation program).commandLine = program ++ " " ++ "-in -smt2" := by
  have harguments : (settings.enforced.invocation program).program = program ∧
      (settings.enforced.invocation program).args = ["-in", "-smt2"] := by
    unfold Settings.invocation Invocation.timeout
    split <;> exact ⟨rfl, rfl⟩
  rw [Invocation.commandLine, harguments.1, harguments.2]
  have hwords : " ".intercalate (["-in", "-smt2"].map fun arg =>
      if arg.toList.contains ' ' then "\"" ++ arg ++ "\"" else arg) = "-in -smt2" := by
    decide
  rw [hwords]

/-- The line that the solver was started with. -/
theorem exists_legible_commandLine {program : String} (h : '\n' ∉ program.toList)
    (settings : Settings) :
    ∃ exprs, Legible (.comment (settings.enforced.invocation program).commandLine) exprs := by
  rw [commandLine_eq]
  refine ⟨_, .remark ?_ ?_⟩
  · intro hempty
    have hlength := congrArg String.length hempty
    simp at hlength
  · simp [h]

end Solver.Transcript

end SmtSession
