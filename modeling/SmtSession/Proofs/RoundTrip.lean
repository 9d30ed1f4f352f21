import SmtSession.Proofs.Tokens
import SmtSession.SExpr.Printer

/-!
# Printed s-expressions read back

What the printer writes, the reader reads as the same s-expression. The printer puts nothing but
single spaces and line ends between the items of a list, and often nothing at all, so the argument
is about the places where two items meet: a token without quotes is always followed by a space, a
line end, a closing parenthesis or the end of the text, and after a comment, whose line end belongs
to it, anything may follow.
-/

namespace SmtSession.SExpr

open Reader

/-- A text with one of the characters that make the printer put bars around it. -/
def Spaced (text : List Char) : Prop := ' ' ∈ text ∨ '"' ∈ text ∨ '\'' ∈ text

instance (text : List Char) : Decidable (Spaced text) :=
  inferInstanceAs (Decidable (_ ∨ _ ∨ _))

/-- The texts of symbols that survive being printed: the closing quote the printer chooses does not
stand in them, and those it writes as they are read as symbols. -/
inductive Readable (text : List Char) : Prop where
  | bars (spaced : Spaced text) (noBar : '|' ∉ text)
  | quotes (plain : ¬Spaced text) (bar : '|' ∈ text)
  | bare (plain : ¬Spaced text) (noBar : '|' ∉ text) (h : Bare text)

/-- Every symbol in it is readable and every comment a single line. -/
inductive Writable : SExpr → Prop where
  | numeral (value : UInt64) : Writable (numeral value)
  | symbol {text : String} (h : Readable text.toList) : Writable (symbol text)
  | comment {text : String} (h : '\n' ∉ text.toList) : Writable (.comment text)
  | list {items : List SExpr} (h : ∀ item ∈ items, Writable item) : Writable (.list items)

/-! ### The quoting of symbols -/

section Symbol

variable {text : String}

theorem chars_symbol_bars (h : Spaced text.toList) :
    (symbol text).chars = '|' :: text.toList ++ ['|'] := by
  refine if_pos (List.any_eq_true.mpr ?_)
  rcases h with h | h | h
  all_goals exact ⟨_, h, by decide⟩

theorem any_of_not_spaced (h : ¬Spaced text.toList) :
    ¬text.toList.any (fun c => c = ' ' || c = '"' || c = '\'') := by
  simp only [List.any_eq_true, not_exists, not_and, Bool.or_eq_true, decide_eq_true_eq]
  rintro c hc ((rfl | rfl) | rfl)
  exacts [h (.inl hc), h (.inr (.inl hc)), h (.inr (.inr hc))]

theorem chars_symbol_quotes (h : ¬Spaced text.toList) (hbar : '|' ∈ text.toList) :
    (symbol text).chars = '"' :: text.toList ++ ['"'] :=
  (if_neg (any_of_not_spaced h)).trans (if_pos (List.contains_iff_mem.mpr hbar))

theorem chars_symbol_bare (h : ¬Spaced text.toList) (hbar : '|' ∉ text.toList) :
    (symbol text).chars = text.toList :=
  (if_neg (any_of_not_spaced h)).trans (if_neg (mt List.contains_iff_mem.mp hbar))

theorem single_symbol_chars {rest : List Char} (h : Readable text.toList) (hrest : Clear rest) :
    single ((symbol text).chars ++ rest) = .ok ⟨symbol text, rest, rest⟩ := by
  cases h with
  | bars spaced noBar =>
    simpa [chars_symbol_bars spaced, single] using quoted_append noBar
  | quotes plain bar =>
    have hquote : '"' ∉ text.toList := fun h => plain (.inr (.inl h))
    simpa [chars_symbol_quotes plain bar, single] using quoted_append hquote
  | bare plain noBar h =>
    rw [chars_symbol_bare plain noBar, h.single hrest, String.ofList_toList]

end Symbol

/-! ### One expression -/

/-- An expression as it is printed, with the line end that a comment needs. -/
def line (expr : SExpr) : List Char :=
  if expr.isComment then expr.chars ++ ['\n'] else expr.chars

/-- The reader takes the expression, and no more, from the front of every text it begins. -/
def Yields (expr : SExpr) : Prop :=
  ∀ (fuel : Nat) (rest : List Char), expr.line.length ≤ fuel → expr.isComment ∨ Clear rest →
    item fuel (expr.line ++ rest) = .ok ⟨expr, rest, rest⟩

theorem Yields.line_ne_nil {expr : SExpr} (h : Yields expr) : expr.line ≠ [] := by
  have hread := h _ [] le_rfl (.inr clear_nil)
  simpa using (dropWhile_of_item hread).1

theorem Yields.line_length {expr : SExpr} (h : Yields expr) : 0 < expr.line.length :=
  List.length_pos_iff.mpr h.line_ne_nil

theorem yields_of_single {content : Atom}
    (h : ∀ rest, Clear rest → single (content.chars ++ rest) = .ok ⟨.atom content, rest, rest⟩) :
    Yields (.atom content) := by
  intro fuel rest hfuel hrest
  have hclear : Clear rest := hrest.resolve_left (by simp [isComment])
  have hline : (SExpr.atom content).line = content.chars := by simp [line, isComment, chars]
  rw [hline] at hfuel ⊢
  cases fuel with
  | zero =>
    have hempty := h [] clear_nil
    rw [List.eq_nil_of_length_eq_zero (Nat.le_zero.mp hfuel)] at hempty
    cases hempty
  | succ fuel => exact item_of_single (h rest hclear)

theorem yields_comment {text : String} (h : '\n' ∉ text.toList) : Yields (.comment text) := by
  intro fuel rest hfuel _
  have hline : (SExpr.comment text).line = ';' :: text.toList ++ ['\n'] := by
    simp [line, isComment, chars]
  rw [hline] at hfuel ⊢
  cases fuel with
  | zero => simp at hfuel
  | succ fuel =>
    apply item_of_single
    simpa [single] using commentLine_append h

/-! ### The items of a list -/

theorem clear_of_mem {c : Char} (h : c ∈ [' ', '\n', ')']) (tail : List Char) :
    Clear (c :: tail) := by
  rintro d hd
  obtain rfl : c = d := by simpa using hd
  simp only [List.mem_cons, List.not_mem_nil, or_false] at h
  rcases h with rfl | rfl | rfl <;> decide

/-- What follows an item of a list: the end of the list, the line of a comment, or a space. -/
theorem clear_gap (expr : SExpr) (exprs : List SExpr) (rest : List Char) :
    expr.isComment ∨ Clear (gap expr exprs ++ (itemsChars exprs ++ ')' :: rest)) := by
  cases h : expr.isComment
  · right
    cases exprs with
    | nil => exact clear_of_mem (by decide) _
    | cons next exprs =>
      cases hnext : next.isComment
      · simpa [gap, h, hnext] using clear_of_mem (by decide) _
      · simpa [gap, h, hnext, itemsChars] using clear_of_mem (by decide) _
  · exact .inl rfl

theorem items_gap (fuel : Nat) (expr : SExpr) (exprs : List SExpr) (text : List Char) :
    items (fuel + 1) (gap expr exprs ++ text) = items (fuel + 1) text := by
  cases exprs with
  | nil => rfl
  | cons next exprs =>
    simp only [gap]
    split
    · rfl
    · exact items_blank (by decide) text

theorem itemsChars_cons (expr : SExpr) (exprs : List SExpr) :
    itemsChars (expr :: exprs) =
      (if expr.isComment then ['\n'] else []) ++ expr.line ++ gap expr exprs ++
        itemsChars exprs := by
  cases h : expr.isComment <;> simp [itemsChars, line, h]

/-- The closing parenthesis ends the items: none of them begins with one. -/
theorem items_paren (fuel : Nat) (rest : List Char) :
    ∃ furthest, items fuel (')' :: rest) = ⟨[], ')' :: rest, furthest⟩ := by
  match fuel with
  | 0 => exact ⟨_, rfl⟩
  | 1 => exact ⟨_, rfl⟩
  | fuel + 2 => exact ⟨_, rfl⟩

theorem items_itemsChars {exprs : List SExpr} (h : ∀ expr ∈ exprs, Yields expr)
    (rest : List Char) {fuel : Nat} (hfuel : (itemsChars exprs).length < fuel) :
    ∃ furthest, items fuel (itemsChars exprs ++ ')' :: rest) = ⟨exprs, ')' :: rest, furthest⟩ := by
  induction exprs generalizing fuel with
  | nil => exact items_paren fuel rest
  | cons expr exprs ih =>
    rw [itemsChars_cons] at hfuel ⊢
    simp only [List.length_append] at hfuel
    have hexpr := h expr List.mem_cons_self
    have hlength := hexpr.line_length
    match fuel with
    | 0 => omega
    | 1 => omega
    | fuel + 2 =>
      have hread := hexpr (fuel + 1) _ (by omega) (clear_gap expr exprs rest)
      -- The line end before a comment is a blank; the expression itself begins with none.
      have hstart : ((if expr.isComment then ['\n'] else []) ++ (expr.line ++ (gap expr exprs ++
          (itemsChars exprs ++ ')' :: rest)))).dropWhile isBlank =
            expr.line ++ (gap expr exprs ++ (itemsChars exprs ++ ')' :: rest)) := by
        split <;> exact (dropWhile_of_item hread).2
      have hexprs : (itemsChars exprs).length < fuel + 1 := by omega
      obtain ⟨furthest, hothers⟩ :=
        ih (fun other hother => h other (List.mem_cons_of_mem _ hother)) hexprs
      simp only [List.append_assoc]
      rw [items_cons (hstart ▸ hread)]
      simp only [items_gap, hothers]
      exact ⟨furthest, rfl⟩

theorem yields_list {exprs : List SExpr} (h : ∀ expr ∈ exprs, Yields expr) :
    Yields (.list exprs) := by
  intro fuel rest hfuel _
  have hline : (list exprs).line = '(' :: itemsChars exprs ++ [')'] := rfl
  rw [hline] at hfuel ⊢
  simp only [List.length_append, List.length_cons, List.length_nil] at hfuel
  cases fuel with
  | zero => omega
  | succ fuel =>
    have hitems : (itemsChars exprs).length < fuel := by omega
    obtain ⟨furthest, hread⟩ := items_itemsChars h rest hitems
    simpa only [List.cons_append, List.append_assoc, List.nil_append] using item_list hread

theorem Writable.yields {expr : SExpr} (h : expr.Writable) : Yields expr := by
  induction h with
  | numeral value => exact yields_of_single fun _ => single_toDigits value
  | symbol h => exact yields_of_single fun _ => single_symbol_chars h
  | comment h => exact yields_comment h
  | list _ ih => exact yields_list ih

/-! ### Whole texts -/

theorem read_eq_ok {text : String} {expr : SExpr}
    (h : item (fuelFor text.toList) (text.toList.dropWhile isBlank) = .ok ⟨expr, [], []⟩) :
    read text = .ok expr := by
  simp [read, oneChars, h]

theorem item_of_read {text : String} {expr : SExpr} (h : read text = .ok expr) :
    ∃ reading, item (fuelFor text.toList) (text.toList.dropWhile isBlank) = .ok reading ∧
      reading.value = expr := by
  unfold read oneChars at h
  split at h
  · cases h
  · next reading hitem =>
    split at h <;> cases h
    exact ⟨reading, hitem, rfl⟩

theorem Writable.read_print_eq {expr : SExpr} (h : expr.Writable)
    (hcomment : expr.isComment = false) : read expr.print = .ok expr := by
  have hline : expr.line = expr.chars := by simp [line, hcomment]
  have hitem := h.yields (fuelFor expr.chars) [] (by rw [hline, fuelFor]; omega) (.inr clear_nil)
  rw [List.append_nil, hline] at hitem
  have hprint : expr.print.toList = expr.chars := String.toList_ofList
  apply read_eq_ok
  rw [hprint, (dropWhile_of_item hitem).2, hitem]

/-- A bar inside bars ends the symbol early. -/
theorem not_read_bars {text : String} (hspaced : Spaced text.toList) (hbar : '|' ∈ text.toList) :
    read (symbol text).print ≠ .ok (symbol text) := by
  intro h
  obtain ⟨reading, hitem, hvalue⟩ := item_of_read h
  have hsingle := single_of_item hitem hvalue
  rw [print, String.toList_ofList, chars_symbol_bars hspaced] at hsingle
  obtain ⟨inner, hinner, -, heq⟩ : ∃ inner, '|' ∉ inner ∧ _ ∧ reading.value = _ :=
    of_quoted hsingle
  obtain rfl : String.ofList inner = text := by simpa using heq.symm.trans hvalue
  rw [String.toList_ofList] at hbar
  exact hinner hbar

theorem readable_of_read {text : String} (h : read (symbol text).print = .ok (symbol text)) :
    Readable text.toList := by
  by_cases hspaced : Spaced text.toList
  · exact .bars hspaced fun hbar => not_read_bars hspaced hbar h
  by_cases hbar : '|' ∈ text.toList
  · exact .quotes hspaced hbar
  obtain ⟨reading, hitem, hvalue⟩ := item_of_read h
  have hsingle := single_of_item hitem hvalue
  rw [print, String.toList_ofList, chars_symbol_bare hspaced hbar] at hsingle
  have hmem {c : Char} (hc : c ∉ text.toList) : c ∉ text.toList.dropWhile isBlank :=
    fun h => hc ((List.dropWhile_sublist _).mem h)
  exact .bare hspaced hbar
    (bare_of_single (hmem fun hquote => hspaced (.inr (.inl hquote))) (hmem hbar) hsingle hvalue)

/-- Every writable s-expression that is not itself a comment is read back from what it is printed
as, and a symbol on its own is read back only if it is readable. -/
theorem printed_reads_back :
    (∀ expr : SExpr, expr.isComment = false → expr.Writable → read expr.print = .ok expr) ∧
      ∀ text : String, read (symbol text).print = .ok (symbol text) ↔ Readable text.toList := by
  constructor
  · intro expr hcomment h
    exact h.read_print_eq hcomment
  · intro text
    constructor
    · exact readable_of_read
    · intro h
      exact (Writable.symbol h).read_print_eq rfl

theorem printed_reads_back_nested :
    let expr := list [symbol "a b", .comment " (x",
      list [numeral 7, .comment "", symbol "1.50"], symbol "p|q"]
    expr.print = "(|a b|\n; (x\n(7\n;\n1.50) \"p|q\")" ∧ read expr.print = .ok expr := by
  intro expr
  have hbars : Writable (symbol "a b") := .symbol (.bars (.inl (by decide)) (by decide))
  have hquotes : Writable (symbol "p|q") := .symbol (.quotes (by simp [Spaced]) (by decide))
  have hdecimal : Bare ['1', '.', '5', '0'] :=
    @Bare.decimal ['1'] ['5', '0'] (by simp [IsRun]) (by simp [IsRun])
  have hbare : Writable (symbol "1.50") := .symbol (.bare (by simp [Spaced]) (by decide) hdecimal)
  have hinner : Writable (list [numeral 7, .comment "", symbol "1.50"]) := by
    refine .list ?_
    simp only [List.forall_mem_cons, List.not_mem_nil, false_imp_iff, implies_true, and_true]
    exact ⟨.numeral 7, .comment (by decide), hbare⟩
  have hexpr : expr.Writable := by
    refine .list ?_
    simp only [List.forall_mem_cons, List.not_mem_nil, false_imp_iff, implies_true, and_true]
    exact ⟨hbars, .comment (by decide), hinner, hquotes⟩
  exact ⟨by decide +kernel, printed_reads_back.1 expr rfl hexpr⟩

end SmtSession.SExpr
