import Mathlib.Data.List.Forall2
import SmtSession.Proofs.ReadBack
import SmtSession.Solver.Transcript

/-!
# Transcripts, read back

The lines of a transcript are commands, and remarks that stand behind semicolons. Where each remark
is a single line and each command is read as something that is written the same, the transcript is
read as its commands in order, and its remarks as the comments between them. The last line has no
end, so it has to be a command: a comment is read only with the end of its line.
-/

namespace SmtSession.Solver.Transcript

open SExpr Reader

/-- A command whose text is read as this expression, and not necessarily as itself: digits that are
written as a symbol are read as a numeral. -/
def Rereads (command expr : SExpr) : Prop :=
  read command.print = .ok expr ∧ expr.print = command.print

/-- What is read of an entry. -/
inductive Legible : SExpr → List SExpr → Prop
  | blank : Legible (.comment "") []
  | remark {text : String} (hsome : text ≠ "") (hline : '\n' ∉ text.toList) :
      Legible (.comment text) [.comment ("; " ++ text)]
  | command {command expr : SExpr} (hcommand : command.isComment = false)
      (hexpr : expr.isComment = false) (hwritable : Writable expr)
      (hchars : expr.chars = command.chars) : Legible command [expr]

variable {entry : SExpr} {entries exprs : List SExpr} {reads : List (List SExpr)} {fuel : Nat}

theorem Legible.rereads (h : Legible entry exprs) :
    List.Forall₂ Rereads ([entry].filter (!·.isComment)) (exprs.filter (!·.isComment)) := by
  cases h with
  | blank => exact .nil
  | remark => exact .nil
  | @command _ expr hcommand hexpr hwritable hchars =>
      have hprint : expr.print = entry.print := congrArg String.ofList hchars
      have hread := hwritable.read_print_eq hexpr
      rw [hprint] at hread
      simpa [hcommand, hexpr] using ⟨hread, hprint⟩

theorem rereads_of_legible (h : List.Forall₂ Legible entries reads) :
    List.Forall₂ Rereads (entries.filter (!·.isComment))
      (reads.flatten.filter (!·.isComment)) := by
  induction h with
  | nil => exact .nil
  | @cons entry exprs entries reads hentry _ ih =>
      rw [← List.singleton_append, List.filter_append, List.flatten_cons, List.filter_append]
      exact List.rel_append hentry.rereads ih

theorem exists_rereads {commands : List SExpr} {expr : SExpr}
    (h : List.Forall₂ Rereads commands exprs) (hmem : expr ∈ exprs) :
    ∃ command ∈ commands, Rereads command expr := by
  induction h with
  | nil => contradiction
  | @cons command _ commands _ hcommand _ ih =>
      rcases List.mem_cons.mp hmem with rfl | hmem
      · exact ⟨command, List.mem_cons_self, hcommand⟩
      · obtain ⟨later, hlater, hrereads⟩ := ih hmem
        exact ⟨later, List.mem_cons_of_mem _ hlater, hrereads⟩

/-! ### The text -/

/-- An entry as characters. -/
def entryChars : SExpr → List Char
  | .comment text => if text = "" then [] else ';' :: ';' :: ' ' :: text.toList
  | command => command.chars

theorem toList_entryText (entry : SExpr) : (entryText entry).toList = entryChars entry := by
  cases entry with
  | comment text =>
      rw [entryText, entryChars]
      split
      · rfl
      · exact String.toList_append
  | atom content => exact String.toList_ofList
  | list items => exact String.toList_ofList

theorem toList_render (entries : List SExpr) :
    (render entries).toList = ['\n'].intercalate (entries.map entryChars) := by
  have hentries : String.toList ∘ entryText = entryChars := funext toList_entryText
  simp [render, hentries]

theorem toList_render_singleton (entry : SExpr) : (render [entry]).toList = entryChars entry := by
  rw [toList_render, List.map_singleton, List.intercalate_singleton]

theorem toList_render_cons (entry : SExpr) (h : entries ≠ []) :
    (render (entry :: entries)).toList = entryChars entry ++ '\n' :: (render entries).toList := by
  rw [toList_render, toList_render, List.map_cons,
    List.intercalate_cons_of_ne_nil (by simpa using h)]
  simp

theorem entryChars_of_command (h : entry.isComment = false) : entryChars entry = entry.chars := by
  cases entry with
  | comment text => contradiction
  | atom content => rfl
  | list items => rfl

/-- What an entry is written as, if something is. -/
theorem Legible.entryChars_eq (h : Legible entry exprs) :
    (exprs = [] ∧ entryChars entry = []) ∨
      ∃ expr, exprs = [expr] ∧ Writable expr ∧ entryChars entry = expr.chars := by
  cases h with
  | blank => exact Or.inl ⟨rfl, rfl⟩
  | @remark text hsome hline =>
      refine Or.inr ⟨_, rfl, .comment ?_, ?_⟩
      · simpa using hline
      · rw [entryChars, if_neg hsome]
        simp [chars]
  | command hcommand hexpr hwritable hchars =>
      exact Or.inr ⟨_, rfl, hwritable, (entryChars_of_command hcommand).trans hchars.symm⟩

/-- An expression on a line of its own, and what is read after it. -/
theorem items_line {expr : SExpr} (h : Writable expr) {rest : List Char}
    (hrest : ∀ fuel, rest.length < fuel → ∃ furthest, items fuel rest = ⟨exprs, [], furthest⟩)
    (hfuel : (expr.chars ++ '\n' :: rest).length < fuel) :
    ∃ furthest, items fuel (expr.chars ++ '\n' :: rest) = ⟨expr :: exprs, [], furthest⟩ := by
  rw [List.length_append, List.length_cons] at hfuel
  obtain ⟨fuel, rfl⟩ := Nat.exists_eq_add_one_of_ne_zero (Nat.ne_zero_of_lt hfuel)
  obtain ⟨furthest, hitems⟩ := hrest fuel (by omega)
  cases hcomment : expr.isComment with
  | true =>
      have hline : expr.chars ++ '\n' :: rest = expr.line ++ rest := by simp [line, hcomment]
      have hread := h.yields fuel rest (by simp [line, hcomment]; omega) (.inl hcomment)
      rw [hline, items_cons ((dropWhile_of_item hread).2.symm ▸ hread), hitems]
      exact ⟨furthest, rfl⟩
  | false =>
      have hline : expr.chars = expr.line := by simp [line, hcomment]
      have hread := h.yields fuel ('\n' :: rest) (by rw [← hline]; omega)
        (.inr (clear_of_mem (by decide) rest))
      obtain ⟨fuel, rfl⟩ := Nat.exists_eq_add_one_of_ne_zero (show fuel ≠ 0 by omega)
      rw [hline, items_cons ((dropWhile_of_item hread).2.symm ▸ hread)]
      simp only [items_blank (show isBlank '\n' by decide), hitems]
      exact ⟨furthest, rfl⟩

theorem items_nil (fuel : Nat) : ∃ furthest, items fuel [] = ⟨[], [], furthest⟩ := by
  match fuel with
  | 0 => exact ⟨_, rfl⟩
  | 1 => exact ⟨_, rfl⟩
  | fuel + 2 => exact ⟨_, rfl⟩

theorem items_last {expr : SExpr} (h : Writable expr) (hcomment : expr.isComment = false)
    (hfuel : expr.chars.length < fuel) :
    ∃ furthest, items fuel expr.chars = ⟨[expr], [], furthest⟩ := by
  obtain ⟨fuel, rfl⟩ := Nat.exists_eq_add_one_of_ne_zero (Nat.ne_zero_of_lt hfuel)
  have hline : expr.line = expr.chars := by simp [line, hcomment]
  have hread := h.yields fuel [] (by rw [hline]; omega) (.inr clear_nil)
  rw [List.append_nil, hline] at hread
  obtain ⟨furthest, hitems⟩ := items_nil fuel
  rw [items_cons ((dropWhile_of_item hread).2.symm ▸ hread), hitems]
  exact ⟨furthest, rfl⟩

/-- The last entry is a command. -/
def EndsInCommand (entries : List SExpr) : Prop :=
  ∃ command, entries.getLast? = some command ∧ command.isComment = false

theorem items_render (h : List.Forall₂ Legible entries reads) (hlast : EndsInCommand entries)
    (hfuel : (render entries).toList.length < fuel) :
    ∃ furthest, items fuel (render entries).toList = ⟨reads.flatten, [], furthest⟩ := by
  induction h generalizing fuel with
  | nil =>
      obtain ⟨command, hnone, -⟩ := hlast
      contradiction
  | @cons entry exprs entries reads hentry hentries ih =>
      by_cases hmore : entries = []
      · subst hmore
        obtain rfl : reads = [] := List.forall₂_nil_left_iff.mp hentries
        obtain ⟨command, hcommand, hcomment⟩ := hlast
        obtain rfl : entry = command := by simpa using hcommand
        cases hentry with
        | command _ hexpr hwritable hchars =>
            rw [toList_render_singleton, entryChars_of_command hcomment, ← hchars] at hfuel ⊢
            exact items_last hwritable hexpr hfuel
        | _ => contradiction
      · have hrest : EndsInCommand entries := by
          obtain ⟨command, hcommand, hcomment⟩ := hlast
          rw [List.getLast?_cons_of_ne_nil hmore] at hcommand
          exact ⟨command, hcommand, hcomment⟩
        rw [toList_render_cons entry hmore] at hfuel ⊢
        rcases hentry.entryChars_eq with ⟨rfl, hblank⟩ | ⟨expr, rfl, hwritable, htext⟩
        · rw [hblank, List.nil_append] at hfuel ⊢
          obtain ⟨fuel, rfl⟩ := Nat.exists_eq_add_one_of_ne_zero (Nat.ne_zero_of_lt hfuel)
          rw [items_blank (by decide)]
          exact ih hrest (Nat.lt_of_succ_lt hfuel)
        · rw [htext] at hfuel ⊢
          exact items_line hwritable (fun fuel hfuel => ih hrest hfuel) hfuel

theorem exists_reads (h : ∀ entry ∈ entries, ∃ exprs, Legible entry exprs) :
    ∃ reads, List.Forall₂ Legible entries reads := by
  induction entries with
  | nil => exact ⟨[], .nil⟩
  | cons entry entries ih =>
      obtain ⟨⟨exprs, hentry⟩, hentries⟩ := List.forall_mem_cons.mp h
      obtain ⟨reads, hreads⟩ := ih hentries
      exact ⟨exprs :: reads, .cons hentry hreads⟩

/-- A transcript that ends in a command is read, and but for comments as its commands in order. -/
theorem readMany_render (h : ∀ entry ∈ entries, ∃ exprs, Legible entry exprs)
    (hlast : EndsInCommand entries) :
    ∃ exprs, readMany (render entries) = .ok exprs ∧
      List.Forall₂ Rereads (entries.filter (!·.isComment)) (exprs.filter (!·.isComment)) := by
  obtain ⟨reads, hreads⟩ := exists_reads h
  obtain ⟨furthest, hitems⟩ := items_render hreads hlast
    (show (render entries).toList.length < fuelFor (render entries).toList by
      rw [fuelFor]
      omega)
  refine ⟨reads.flatten, ?_, rereads_of_legible hreads⟩
  rw [readMany, manyChars, hitems]

end SmtSession.Solver.Transcript
