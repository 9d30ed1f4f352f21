import SmtSession.Proofs.RoundTrip

/-!
# Texts that were read, written back

Reading forgets how a symbol was quoted, and the printer chooses anew by three characters. The
choice can go wrong in two ways. A symbol that needs quotes may be written without any, and then
something else stands in its place. And a symbol with a bar may be put between bars, which uses
fewer double quotes than reading it back takes: what is read from a text has no more of them than
the text, so no such symbol ever comes back. All other symbols do come back, wherever they stand.
-/

namespace SmtSession.SExpr

open Reader

/-! ### What the reader accepts -/

/-- The expressions that stand at the front of a text, and the rest of it. -/
inductive Reads : List Char → List SExpr → List Char → Prop where
  | done {text : List Char} : Reads text [] text
  | blank {c : Char} {text rest : List Char} {exprs : List SExpr} (h : isBlank c)
    (hrest : Reads text exprs rest) : Reads (c :: text) exprs rest
  | token {text middle rest : List Char} {expr : SExpr} {exprs : List SExpr}
    (h : Token text expr middle) (hrest : Reads middle exprs rest) :
    Reads text (expr :: exprs) rest
  | list {tail middle rest : List Char} {inner exprs : List SExpr}
    (h : Reads tail inner (')' :: middle)) (hrest : Reads middle exprs rest) :
    Reads ('(' :: tail) (.list inner :: exprs) rest

variable {text rest : List Char} {expr : SExpr} {exprs : List SExpr} {fuel : Nat}
  {reading : Reading SExpr}

theorem reads_of_dropWhile (h : Reads (text.dropWhile isBlank) exprs rest) :
    Reads text exprs rest := by
  induction text with
  | nil => exact h
  | cons c text ih =>
      by_cases hblank : isBlank c
      · rw [List.dropWhile_cons_of_pos hblank] at h
        exact .blank hblank (ih h)
      · rwa [List.dropWhile_cons_of_neg hblank] at h

/-- An item at the front, with any reading of what it leaves, and all items of a text. -/
theorem reads_of_fuel (fuel : Nat) :
    (∀ {text : List Char} {reading : Reading SExpr} {exprs : List SExpr} {rest : List Char},
        item fuel text = .ok reading → Reads reading.rest exprs rest →
        Reads text (reading.value :: exprs) rest) ∧
      ∀ text, Reads text (items fuel text).value (items fuel text).rest := by
  induction fuel with
  | zero => exact ⟨nofun, fun _ => .done⟩
  | succ fuel ih =>
      obtain ⟨hitem, hitems⟩ := ih
      constructor
      · intro text reading exprs rest h hrest
        by_cases hopen : ∃ tail, text = '(' :: tail
        · obtain ⟨tail, rfl⟩ := hopen
          rw [item] at h
          split at h
          · next content left furthest hcontent =>
            cases h
            have hinner := hitems tail
            rw [hcontent] at hinner
            exact .list hinner hrest
          · cases h
        · rw [item_eq_single fun tail htail => hopen ⟨tail, htail⟩] at h
          exact .token (token_of_single h) hrest
      · intro text
        apply reads_of_dropWhile
        rw [items]
        dsimp only
        split
        · exact .done
        · next first hfirst => exact hitem hfirst (hitems first.rest)

theorem reads_of_read {text : String} (h : read text = .ok expr) :
    ∃ rest, Reads text.toList [expr] rest := by
  obtain ⟨reading, hitem, rfl⟩ := item_of_read h
  exact ⟨reading.rest, reads_of_dropWhile ((reads_of_fuel _).1 hitem .done)⟩

theorem suffix_of_token (h : Token text expr rest) : rest <:+ text := by
  have hclose (c close : Char) (inner rest : List Char) :
      rest <:+ c :: (inner ++ close :: rest) :=
    ⟨c :: inner ++ [close], by simp⟩
  cases h with
  | quotes _ => exact hclose ..
  | bars _ => exact hclose ..
  | comment _ => exact hclose ..
  | numeral _ hrest => exact hrest
  | bare _ hrest => exact hrest

/-! ### Comments that were read -/

/-- Every comment in it is a single line. -/
inductive Lined : SExpr → Prop where
  | atom (content : Atom) : Lined (.atom content)
  | comment {text : String} (h : '\n' ∉ text.toList) : Lined (.comment text)
  | list {items : List SExpr} (h : ∀ item ∈ items, Lined item) : Lined (.list items)

theorem Reads.lined (h : Reads text exprs rest) : ∀ expr ∈ exprs, Lined expr := by
  induction h with
  | done => exact nofun
  | blank _ _ ih => exact ih
  | token h _ ih =>
      refine List.forall_mem_cons.mpr ⟨?_, ih⟩
      cases h with
      | comment h => exact .comment (by rwa [String.toList_ofList])
      | _ => exact .atom _
  | list _ _ ihInner ih => exact List.forall_mem_cons.mpr ⟨.list ihInner, ih⟩

/-! ### Texts without quotes -/

theorem readable_of_bare (h : Bare text) : Readable text := by
  have hbar : '|' ∉ text := h.not_mem (by decide)
  by_cases hspaced : Spaced text
  · exact .bars hspaced hbar
  · exact .bare hspaced hbar h

/-- What is read from a text without double quotes and bars is writable. -/
theorem Reads.writable (h : Reads text exprs rest) (hquote : '"' ∉ text) (hbar : '|' ∉ text) :
    (∀ expr ∈ exprs, Writable expr) ∧ '"' ∉ rest ∧ '|' ∉ rest := by
  induction h with
  | done => exact ⟨nofun, hquote, hbar⟩
  | blank _ _ ih =>
      exact ih (List.not_mem_of_not_mem_cons hquote) (List.not_mem_of_not_mem_cons hbar)
  | @token text middle rest expr exprs h _ ih =>
      have hsubset := (suffix_of_token h).subset
      obtain ⟨hexprs, hrest⟩ :=
        ih (fun hmem => hquote (hsubset hmem)) fun hmem => hbar (hsubset hmem)
      refine ⟨List.forall_mem_cons.mpr ⟨?_, hexprs⟩, hrest⟩
      cases h with
      | quotes _ => exact absurd (List.mem_cons_self ..) hquote
      | bars _ => exact absurd (List.mem_cons_self ..) hbar
      | comment h => exact .comment (by rwa [String.toList_ofList])
      | numeral value _ => exact .numeral value
      | bare h _ => exact .symbol (by rw [String.toList_ofList]; exact readable_of_bare h)
  | list _ _ ihInner ih =>
      obtain ⟨hinner, hquote, hbar⟩ :=
        ihInner (List.not_mem_of_not_mem_cons hquote) (List.not_mem_of_not_mem_cons hbar)
      obtain ⟨hexprs, hrest⟩ :=
        ih (List.not_mem_of_not_mem_cons hquote) (List.not_mem_of_not_mem_cons hbar)
      exact ⟨List.forall_mem_cons.mpr ⟨.list hinner, hexprs⟩, hrest⟩

/-! ### Counting double quotes -/

mutual

/-- How many symbols with a bar in them the printer puts between bars. -/
def clashes : SExpr → Nat
  | .atom (.symbol text) => if Spaced text.toList ∧ '|' ∈ text.toList then 1 else 0
  | .list items => clashesAll items
  | _ => 0

def clashesAll : List SExpr → Nat
  | [] => 0
  | item :: items => clashes item + clashesAll items

end

theorem clashes_comment (text : String) : (comment text).clashes = 0 := by simp [clashes]

theorem clashes_numeral (value : UInt64) : (numeral value).clashes = 0 := by simp [clashes]

theorem clashesAll_eq_zero : clashesAll exprs = 0 ↔ ∀ expr ∈ exprs, expr.clashes = 0 := by
  induction exprs with
  | nil => simp [clashesAll]
  | cons expr exprs ih => simp [clashesAll, ih]

/-- Without clashes, a symbol is printed with as many double quotes as reading it takes at most. -/
theorem count_symbol (text : String) :
    (symbol text).chars.count '"' + 2 * (symbol text).clashes =
      text.toList.count '"' + if '|' ∈ text.toList then 2 else 0 := by
  rw [clashes]
  by_cases hspaced : Spaced text.toList
  · rw [chars_symbol_bars hspaced]
    by_cases hbar : '|' ∈ text.toList
    · rw [if_pos ⟨hspaced, hbar⟩, if_pos hbar]
      simp
    · rw [if_neg (fun h => hbar h.2), if_neg hbar]
      simp
  · rw [if_neg (fun h => hspaced h.1)]
    by_cases hbar : '|' ∈ text.toList
    · rw [chars_symbol_quotes hspaced hbar, if_pos hbar]
      simp
    · rw [chars_symbol_bare hspaced hbar, if_neg hbar]

theorem not_mem_numeral (value : UInt64) {c : Char} (hc : c.isDigit = false) :
    c ∉ (numeral value).chars := by
  intro hmem
  have hdigit : c.isDigit := Nat.isDigit_of_mem_toDigits (by decide) (by decide) hmem
  rw [hc] at hdigit
  contradiction

theorem count_numeral (value : UInt64) : (numeral value).chars.count '"' = 0 :=
  List.count_eq_zero_of_not_mem (not_mem_numeral value (by decide))

/-- Nothing between the items of a list is a double quote. -/
theorem count_itemsChars_cons (expr : SExpr) (exprs : List SExpr) :
    (itemsChars (expr :: exprs)).count '"' =
      expr.line.count '"' + (itemsChars exprs).count '"' := by
  have hlead : (if expr.isComment then ['\n'] else []).count '"' = 0 := by
    split <;> rfl
  have hgap : (gap expr exprs).count '"' = 0 := by
    cases exprs with
    | nil => rfl
    | cons next exprs =>
        rw [gap]
        split <;> rfl
  rw [itemsChars_cons, List.count_append, List.count_append, List.count_append, hlead, hgap]
  omega

theorem count_line_list (items : List SExpr) :
    (list items).line.count '"' = (itemsChars items).count '"' := by
  have hline : (list items).line = '(' :: itemsChars items ++ [')'] := rfl
  rw [hline]
  simp

theorem line_symbol (text : String) : (symbol text).line = (symbol text).chars := rfl

theorem line_numeral (value : UInt64) : (numeral value).line = (numeral value).chars := rfl

theorem count_token (h : Token text expr rest) :
    expr.line.count '"' + 2 * expr.clashes + rest.count '"' ≤ text.count '"' := by
  cases h with
  | @quotes inner rest h =>
      have hsymbol := count_symbol (String.ofList inner)
      rw [String.toList_ofList, List.count_eq_zero_of_not_mem h] at hsymbol
      rw [line_symbol, hsymbol, List.count_cons_self, List.count_append, List.count_cons_self]
      split <;> omega
  | @bars inner rest h =>
      have hsymbol := count_symbol (String.ofList inner)
      rw [String.toList_ofList, if_neg h] at hsymbol
      rw [line_symbol, hsymbol, List.count_cons_of_ne (by decide), List.count_append,
        List.count_cons_of_ne (by decide)]
      omega
  | @comment inner rest h =>
      have hline : (comment (String.ofList inner)).line = ';' :: (inner ++ ['\n']) := by
        simp [line, isComment, chars]
      rw [hline, clashes_comment]
      simp
  | numeral value hrest =>
      rw [line_numeral, count_numeral, clashes_numeral]
      simpa using hrest.sublist.count_le '"'
  | @bare text inner rest h hrest =>
      have hsymbol := count_symbol (String.ofList inner)
      have hbar : '|' ∉ inner := h.not_mem (by decide)
      have hquote : '"' ∉ inner := h.not_mem (by decide)
      rw [String.toList_ofList, List.count_eq_zero_of_not_mem hquote, if_neg hbar] at hsymbol
      rw [line_symbol, hsymbol]
      simpa using hrest.sublist.count_le '"'

/-- What is printed of what was read has at most the double quotes that were read, and two fewer for
every clash. -/
theorem Reads.count_le (h : Reads text exprs rest) :
    (itemsChars exprs).count '"' + 2 * clashesAll exprs + rest.count '"' ≤ text.count '"' := by
  induction h with
  | done => simp [itemsChars, clashesAll]
  | @blank c text _ _ _ _ ih => exact ih.trans ((List.sublist_cons_self c text).count_le _)
  | token h _ ih =>
      have htoken := count_token h
      rw [count_itemsChars_cons, clashesAll]
      omega
  | @list tail middle rest inner exprs _ _ ihInner ih =>
      rw [count_itemsChars_cons, clashesAll, clashes, count_line_list]
      rw [List.count_cons_of_ne (by decide)] at ihInner ⊢
      omega

/-- No symbol clashes in an expression that is read back from what it is printed as. -/
theorem clashes_of_read_print (h : read expr.print = .ok expr) : expr.clashes = 0 := by
  obtain ⟨rest, hreads⟩ := reads_of_read h
  have hcount := hreads.count_le
  have hline : expr.chars.count '"' ≤ expr.line.count '"' := by
    rw [line]
    split
    · rw [List.count_append]
      omega
    · exact Nat.le_refl _
  rw [print, String.toList_ofList, count_itemsChars_cons, itemsChars, clashesAll, clashesAll]
    at hcount
  simp only [List.count_nil] at hcount
  omega

/-! ### Symbols that are written without quotes -/

theorem bare_of_item {c : Char} {s : String} (h : item fuel (c :: text) = .ok reading)
    (hvalue : reading.value = symbol s) (hquote : c ≠ '"') (hbar : c ≠ '|') :
    Bare s.toList := by
  have htoken := token_of_single (single_of_item h hvalue)
  rw [hvalue] at htoken
  exact htoken.bare_of_head hquote hbar

theorem not_blank_of_bare (h : Bare text) : ¬∀ c ∈ text, isBlank c := by
  intro hblank
  obtain ⟨c, hc⟩ : ∃ c, c ∈ text := by
    cases h with
    | name _ _ => exact ⟨_, List.mem_cons_self ..⟩
    | decimal _ _ => exact ⟨'.', List.mem_append_right _ (List.mem_cons_self ..)⟩
    | binary _ => exact ⟨_, List.mem_cons_self ..⟩
    | hex _ => exact ⟨_, List.mem_cons_self ..⟩
    | overflow run _ => exact List.exists_mem_of_ne_nil _ run.1
  have hchar := h.isSymbolChar c hc
  have hblank := hblank c hc
  simp only [isBlank, Bool.or_eq_true, decide_eq_true_eq] at hblank
  rcases hblank with ((rfl | rfl) | rfl) | rfl
  all_goals exact absurd hchar (by decide)

/-- A symbol read from behind a text without double quotes and bars is bare, unless that text is
blank. -/
theorem bare_of_item_append {before : List Char} {s : String} (hquote : '"' ∉ before)
    (hbar : '|' ∉ before) (h : item fuel ((before ++ text).dropWhile isBlank) = .ok reading)
    (hvalue : reading.value = symbol s) :
    Bare s.toList ∨
      (∀ c ∈ before, isBlank c) ∧ item fuel (text.dropWhile isBlank) = .ok reading := by
  rw [List.dropWhile_append] at h
  cases hdrop : before.dropWhile isBlank with
  | nil =>
      rw [hdrop] at h
      exact Or.inr ⟨List.dropWhile_eq_nil_iff.mp hdrop, h⟩
  | cons c tail =>
      have hmem : c ∈ before :=
        (List.dropWhile_sublist isBlank).subset (hdrop ▸ List.mem_cons_self ..)
      rw [hdrop] at h
      exact Or.inl
        (bare_of_item h hvalue (fun hc => hquote (hc ▸ hmem)) fun hc => hbar (hc ▸ hmem))

/-- A symbol that is not readable and does not clash is written without quotes. -/
theorem plain_of_not_readable {text : String} (h : ¬Readable text.toList)
    (hclashes : (symbol text).clashes = 0) : ¬Spaced text.toList ∧ '|' ∉ text.toList := by
  have hclash : ¬(Spaced text.toList ∧ '|' ∈ text.toList) := by
    intro hboth
    rw [clashes, if_pos hboth] at hclashes
    contradiction
  have hspaced : ¬Spaced text.toList := by
    intro hspaced
    exact h (.bars hspaced fun hbar => hclash ⟨hspaced, hbar⟩)
  exact ⟨hspaced, fun hbar => h (.quotes hspaced hbar)⟩

theorem dropWhile_gap (expr : SExpr) (exprs : List SExpr) (text : List Char) :
    (gap expr exprs ++ text).dropWhile isBlank = text.dropWhile isBlank := by
  cases exprs with
  | nil => rfl
  | cons next exprs =>
      rw [gap]
      split
      · rfl
      · exact List.dropWhile_cons_of_pos (by decide)

/-- The text of a list from one of its items on, without the blanks before it. -/
theorem dropWhile_itemsChars_cons (expr : SExpr) (exprs : List SExpr) (text : List Char) :
    (itemsChars (expr :: exprs) ++ text).dropWhile isBlank =
      (expr.line ++ (gap expr exprs ++ (itemsChars exprs ++ text))).dropWhile isBlank := by
  rw [itemsChars_cons, List.append_assoc, List.append_assoc, List.append_assoc]
  split
  · exact List.dropWhile_cons_of_pos (by decide)
  · rfl

/-- A readable symbol in a list is what is read from there. -/
theorem eq_of_item_symbol {text s : String} (hreadable : Readable text.toList)
    (h : item fuel ((itemsChars (symbol text :: exprs) ++ ')' :: rest).dropWhile isBlank) =
      .ok reading) (hvalue : reading.value = symbol s) : s = text := by
  have hclear := (clear_gap (symbol text) exprs rest).resolve_left (by simp [isComment])
  have hsingle := single_symbol_chars hreadable hclear
  have hstart := (dropWhile_of_item (@item_of_single _ _ 0 hsingle)).2
  rw [dropWhile_itemsChars_cons, line_symbol, hstart] at h
  have hread := (single_of_item h hvalue).symm.trans hsingle
  obtain rfl := Except.ok.inj hread
  simpa using hvalue.symm

theorem not_blank_of_readable (h : Readable text) (hspaced : ¬Spaced text) :
    ¬∀ c ∈ text, isBlank c := by
  cases h with
  | bars spaced _ => exact absurd spaced hspaced
  | quotes _ bar => exact fun hblank => absurd (hblank _ bar) (by decide)
  | bare _ _ h => exact not_blank_of_bare h

/-- A blank symbol is read neither from the items of a list nor from what follows them: those that
are printed as blanks are passed, and all others begin with a character of their own. -/
theorem not_blank_of_item (hclashes : clashesAll exprs = 0) {s : String}
    (h : item fuel ((itemsChars exprs ++ ')' :: rest).dropWhile isBlank) = .ok reading)
    (hvalue : reading.value = symbol s) (hspaced : ¬Spaced s.toList) :
    ¬∀ c ∈ s.toList, isBlank c := by
  induction exprs with
  | nil => exact not_blank_of_bare (bare_of_item h hvalue (by decide) (by decide))
  | cons expr exprs ih =>
      obtain ⟨hexpr, hexprs⟩ := List.forall_mem_cons.mp (clashesAll_eq_zero.mp hclashes)
      have hothers := ih (clashesAll_eq_zero.mpr hexprs)
      -- What is printed without quotes begins with no quote, or is blank and passed.
      have hpass (before : List Char) (hbefore : expr.line = before) (hquote : '"' ∉ before)
          (hbar : '|' ∉ before) : ¬∀ c ∈ s.toList, isBlank c := by
        rw [dropWhile_itemsChars_cons, hbefore] at h
        rcases bare_of_item_append hquote hbar h hvalue with hbare | ⟨-, hpassed⟩
        · exact not_blank_of_bare hbare
        · rw [dropWhile_gap] at hpassed
          exact hothers hpassed
      cases expr with
      | comment text =>
          rw [dropWhile_itemsChars_cons] at h
          exact not_blank_of_bare (bare_of_item h hvalue (by decide) (by decide))
      | list items =>
          rw [dropWhile_itemsChars_cons] at h
          exact not_blank_of_bare (bare_of_item h hvalue (by decide) (by decide))
      | atom content =>
          cases content with
          | numeral value =>
              exact hpass _ rfl (not_mem_numeral value (by decide))
                (not_mem_numeral value (by decide))
          | symbol text =>
              by_cases hreadable : Readable text.toList
              · rw [eq_of_item_symbol hreadable h hvalue] at hspaced ⊢
                exact not_blank_of_readable hreadable hspaced
              · obtain ⟨hplain, hbar⟩ := plain_of_not_readable hreadable hexpr
                refine hpass text.toList ?_ (fun hquote => hplain (.inr (.inl hquote))) hbar
                exact chars_symbol_bare hplain hbar

/-! ### The items of a list, read back -/

/-- A symbol that is written without quotes and read back from there is bare. -/
theorem bare_of_item_plain {text : String} (hplain : ¬Spaced text.toList)
    (hbar : '|' ∉ text.toList) (hclashes : clashesAll exprs = 0)
    (h : item fuel ((itemsChars (symbol text :: exprs) ++ ')' :: rest).dropWhile isBlank) =
      .ok reading) (hvalue : reading.value = symbol text) : Bare text.toList := by
  have hquote : '"' ∉ text.toList := fun hquote => hplain (.inr (.inl hquote))
  rw [dropWhile_itemsChars_cons, line_symbol, chars_symbol_bare hplain hbar] at h
  rcases bare_of_item_append hquote hbar h hvalue with hbare | ⟨hblank, hpassed⟩
  · exact hbare
  · rw [dropWhile_gap] at hpassed
    exact absurd hblank (not_blank_of_item hclashes hpassed hvalue hplain)

/-- Items that are read back with this fuel are writable. -/
def WritableWithin (fuel : Nat) : Prop :=
  ∀ (exprs : List SExpr) (rest : List Char), (∀ expr ∈ exprs, Lined expr) →
    clashesAll exprs = 0 → (itemsChars exprs).length < fuel →
    (items fuel (itemsChars exprs ++ ')' :: rest)).value = exprs → ∀ expr ∈ exprs, Writable expr

theorem writable_of_item (hlined : Lined expr) (hexpr : expr.clashes = 0)
    (hexprs : clashesAll exprs = 0) (hfuel : expr.line.length ≤ fuel)
    (hless : ∀ less < fuel, WritableWithin less)
    (h : item fuel ((itemsChars (expr :: exprs) ++ ')' :: rest).dropWhile isBlank) = .ok reading)
    (hvalue : reading.value = expr) : Writable expr := by
  cases hlined with
  | comment hline => exact .comment hline
  | @list inner hinner =>
      rw [dropWhile_itemsChars_cons] at h
      change item fuel ('(' :: (itemsChars inner ++ [')'] ++ _)) = _ at h
      rw [List.append_assoc] at h
      have hlength : (list inner).line.length = (itemsChars inner).length + 2 := by
        change (_ :: (_ ++ [_])).length = _
        simp
      cases fuel with
      | zero => cases h
      | succ fuel =>
          have hitems := (value_of_item_list h).symm.trans hvalue
          exact .list (hless fuel (Nat.lt_succ_self _) inner _ hinner hexpr (by omega)
            (SExpr.list.inj hitems))
  | atom content =>
      cases content with
      | numeral value => exact .numeral value
      | symbol text =>
          by_cases hreadable : Readable text.toList
          · exact .symbol hreadable
          · obtain ⟨hplain, hbar⟩ := plain_of_not_readable hreadable hexpr
            exact .symbol (.bare hplain hbar (bare_of_item_plain hplain hbar hexprs h hvalue))

/-- The first item that is written unreadably would be read back as something else. The items of a
list are read with less fuel than the list, and so are those after it. -/
theorem writableWithin (fuel : Nat) : WritableWithin fuel := by
  induction fuel using Nat.strongRecOn with
  | ind fuel ih =>
      intro exprs rest hlined hclashes hfuel h
      cases exprs with
      | nil => exact List.forall_mem_nil _
      | cons expr exprs =>
          obtain ⟨hline, hlines⟩ := List.forall_mem_cons.mp hlined
          obtain ⟨hexpr, hexprs⟩ := List.forall_mem_cons.mp (clashesAll_eq_zero.mp hclashes)
          have hafter := clashesAll_eq_zero.mpr hexprs
          have hlength := congrArg List.length (itemsChars_cons expr exprs)
          simp only [List.length_append] at hlength
          obtain ⟨fuel, rfl⟩ := Nat.exists_eq_add_one_of_ne_zero (Nat.ne_zero_of_lt hfuel)
          rw [items] at h
          dsimp only at h
          split at h
          · contradiction
          next first hfirst =>
          obtain ⟨hvalue, hothers⟩ := List.cons.inj h
          have hwritable : Writable expr :=
            writable_of_item hline hexpr hafter (by omega)
              (fun less hless => ih less (Nat.lt_succ_of_lt hless)) hfirst hvalue
          have hsome := hwritable.yields.line_length
          have hread := hwritable.yields fuel _ (by omega) (clear_gap expr exprs rest)
          rw [dropWhile_itemsChars_cons, (dropWhile_of_item hread).2, hread] at hfirst
          obtain rfl := Except.ok.inj hfirst
          obtain ⟨fuel, rfl⟩ : ∃ less, fuel = less + 1 := ⟨fuel - 1, by omega⟩
          rw [items_gap] at hothers
          have hrest := ih (fuel + 1) (Nat.lt_succ_self _) exprs rest hlines hafter (by omega)
            hothers
          exact List.forall_mem_cons.mpr ⟨hwritable, hrest⟩

/-! ### Whole texts -/

/-- What was read is read back from what it is printed as only if it is writable. -/
theorem writable_of_read_print (hlined : Lined expr) (hcomment : expr.isComment = false)
    (h : read expr.print = .ok expr) : Writable expr := by
  have hclashes := clashes_of_read_print h
  cases hlined with
  | comment => contradiction
  | atom content =>
      cases content with
      | numeral value => exact .numeral value
      | symbol text => exact .symbol (readable_of_read h)
  | @list items hlines =>
      obtain ⟨reading, hitem, hvalue⟩ := item_of_read h
      have hchars : (list items).chars = '(' :: (itemsChars items ++ [')']) := rfl
      rw [print, String.toList_ofList, hchars, List.dropWhile_cons_of_neg (by decide)] at hitem
      have hlength : (itemsChars items).length <
          2 * ('(' :: (itemsChars items ++ [')'])).length + 1 := by
        simp only [List.length_cons, List.length_append, List.length_nil]
        omega
      have hitems := (value_of_item_list hitem).symm.trans hvalue
      rw [clashes] at hclashes
      exact .list (writableWithin _ items [] hlines hclashes hlength (SExpr.list.inj hitems))

/-- A text that was read as anything but a comment is read back from what it is printed as if and
only if every symbol in it is readable. So it is where no double quotes and no bars stand in it. -/
theorem read_print_iff {text : String} (h : read text = .ok expr)
    (hcomment : expr.isComment = false) :
    (read expr.print = .ok expr ↔ Writable expr) ∧
      ('"' ∉ text.toList → '|' ∉ text.toList → read expr.print = .ok expr) := by
  obtain ⟨rest, hreads⟩ := reads_of_read h
  have hlined := hreads.lined expr (List.mem_singleton_self expr)
  refine ⟨⟨writable_of_read_print hlined hcomment, fun hwritable => ?_⟩, ?_⟩
  · exact hwritable.read_print_eq hcomment
  · intro hquote hbar
    obtain ⟨hwritable, -⟩ := hreads.writable hquote hbar
    exact (hwritable expr (List.mem_singleton_self expr)).read_print_eq hcomment

theorem read_print_iff_bars :
    let expr := list [symbol "=", symbol "s t", symbol "1.50"]
    read "(= |s t| 1.50)" = .ok expr ∧ expr.print = "(= |s t| 1.50)" ∧
      read expr.print = .ok expr := by
  intro expr
  have hread : read "(= |s t| 1.50)" = .ok expr := by decide +kernel
  have hequals : Readable "=".toList :=
    readable_of_bare (.name (by decide) (List.all_eq_true.mp (by decide)))
  have hbars : Readable "s t".toList := .bars (.inl (by decide)) (by decide)
  have hdecimal : Readable "1.50".toList :=
    readable_of_bare (@Bare.decimal ['1'] ['5', '0'] (by simp [IsRun]) (by simp [IsRun]))
  have hwritable : Writable expr := by
    refine .list ?_
    simp only [List.forall_mem_cons, List.not_mem_nil, false_imp_iff, implies_true, and_true]
    exact ⟨.symbol hequals, .symbol hbars, .symbol hdecimal⟩
  exact ⟨hread, by decide +kernel, (read_print_iff hread rfl).1.mpr hwritable⟩

/-- Digits that were read from between quotes are written without them, and are a numeral then. -/
theorem quoted_digits_lost :
    ¬∀ (text : String) (expr : SExpr), read text = .ok expr → expr.isComment = false →
      read expr.print = .ok expr := by
  intro hclaim
  let expr := list [symbol "=", symbol "s", symbol "1"]
  have hread : read "(= s \"1\")" = .ok expr := by decide +kernel
  have hprinted : read expr.print = .ok (list [symbol "=", symbol "s", numeral 1]) := by
    decide +kernel
  have hback := hclaim _ expr hread rfl
  rw [hprinted] at hback
  exact absurd hback (by decide)

end SmtSession.SExpr
