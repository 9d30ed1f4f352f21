import Mathlib.Data.List.TakeWhile
import SmtSession.SExpr.Reader

/-!
# Where tokens end

A token without quotes is the longest run of characters that fits, so it ends where a character
stands that no such token goes on with. A quoted token and a comment end at their own closing
character and may be followed by anything. An expression is a token or a list, and the reader
passes blanks only between expressions.
-/

namespace SmtSession.SExpr.Reader

/-- What stands after a token without quotes: nothing, or a character that none goes on with. -/
def Clear (rest : List Char) : Prop := ∀ c ∈ rest.head?, isSymbolChar c = false

theorem clear_nil : Clear [] := by simp [Clear]

/-- At least one character, all of one kind. -/
def IsRun (kind : Char → Bool) (text : List Char) : Prop := text ≠ [] ∧ ∀ c ∈ text, kind c

/-- The texts that are symbols as they stand, with no quotes around them. -/
inductive Bare : List Char → Prop where
  | name {c : Char} {tail : List Char} (start : isSymbolStart c)
    (run : ∀ d ∈ tail, isSymbolChar d) : Bare (c :: tail)
  | decimal {whole fraction : List Char} (run : IsRun Char.isDigit whole)
    (fractionRun : IsRun Char.isDigit fraction) : Bare (whole ++ '.' :: fraction)
  | binary {digits : List Char} (run : IsRun isBinaryDigit digits) : Bare ('#' :: 'b' :: digits)
  | hex {digits : List Char} (run : IsRun isHexDigit digits) : Bare ('#' :: 'x' :: digits)
  | overflow {digits : List Char} (run : IsRun Char.isDigit digits)
    (large : UInt64.size ≤ Nat.ofDigitChars 10 digits 0) : Bare digits

/-! ### Kinds of characters -/

theorem isSymbolChar_of_isSymbolStart {c : Char} (h : isSymbolStart c) : isSymbolChar c := by
  simp [isSymbolChar, h]

theorem isSymbolChar_of_isDigit {c : Char} (h : c.isDigit) : isSymbolChar c := by
  simp [isSymbolChar, h]

theorem isDigit_of_isBinaryDigit {c : Char} (h : isBinaryDigit c) : c.isDigit := by
  simp only [isBinaryDigit, Bool.or_eq_true, decide_eq_true_eq] at h
  rcases h with rfl | rfl <;> decide

theorem isAlpha_iff (c : Char) :
    c.isAlpha ↔ ('A' ≤ c ∧ c ≤ 'Z') ∨ ('a' ≤ c ∧ c ≤ 'z') := by
  have h : c.isAlpha = (decide ('A' ≤ c ∧ c ≤ 'Z') ||
      (decide ('a' ≤ c) && decide (c ≤ 'z'))) := rfl
  simp only [h, Bool.or_eq_true, Bool.and_eq_true, decide_eq_true_eq]

theorem isSymbolChar_of_isHexDigit {c : Char} (h : isHexDigit c) : isSymbolChar c := by
  have halpha (hc : c.isAlpha) : isSymbolChar c := by simp [isSymbolChar, isSymbolStart, hc]
  simp only [isHexDigit, Bool.or_eq_true, Bool.and_eq_true, decide_eq_true_eq] at h
  rcases h with (hdigit | ⟨hlow, hhigh⟩) | ⟨hlow, hhigh⟩
  · exact isSymbolChar_of_isDigit hdigit
  · exact halpha ((isAlpha_iff c).mpr (.inr ⟨hlow, Char.le_trans hhigh (by decide)⟩))
  · exact halpha ((isAlpha_iff c).mpr (.inl ⟨hlow, Char.le_trans hhigh (by decide)⟩))

theorem isDigit_of_isSymbolStart {c : Char} (h : isSymbolStart c) : c.isDigit = false := by
  simp only [isSymbolStart, Bool.or_eq_true, List.contains_iff_mem] at h
  rcases h with halpha | hmem
  · have hdigit : ¬c ≤ '9' := by
      intro hle
      rcases (isAlpha_iff c).mp halpha with ⟨hlow, -⟩ | ⟨hlow, -⟩
      · exact absurd (Char.le_trans hlow hle) (by decide)
      · exact absurd (Char.le_trans hlow hle) (by decide)
    have heq : c.isDigit = (decide ('0' ≤ c) && decide (c ≤ '9')) := rfl
    simp [heq, hdigit]
  · have hlist := List.all_eq_true.mp (by decide : List.all _ fun d => !d.isDigit) c hmem
    simpa using hlist

/-! ### The end of a run -/

section Run

variable {kind : Char → Bool} {token rest : List Char}

theorem head_not_kind (hkind : ∀ c, kind c → isSymbolChar c) (hrest : Clear rest) :
    ∀ c ∈ rest.head?, kind c = false := by
  intro c hc
  have := hrest c hc
  cases h : kind c
  · rfl
  · simp [hkind c h] at this

theorem head_dropWhile (kind : Char → Bool) (text : List Char) :
    ∀ c ∈ (text.dropWhile kind).head?, kind c = false := by
  intro c hc
  have hstop := List.head?_dropWhile_not kind text
  rw [Option.mem_def.mp hc] at hstop
  simpa using hstop

theorem takeWhile_append_stop (htoken : ∀ c ∈ token, kind c)
    (hrest : ∀ c ∈ rest.head?, kind c = false) : (token ++ rest).takeWhile kind = token := by
  rw [List.takeWhile_append_of_pos htoken]
  cases rest with
  | nil => simp
  | cons c tail => simp [hrest c rfl]

theorem dropWhile_append_stop (htoken : ∀ c ∈ token, kind c)
    (hrest : ∀ c ∈ rest.head?, kind c = false) : (token ++ rest).dropWhile kind = rest := by
  rw [List.dropWhile_append_of_pos htoken]
  cases rest with
  | nil => simp
  | cons c tail => simp [hrest c rfl]

theorem takeWhile_append_close {close : Char} (h : close ∉ token) :
    (token ++ close :: rest).takeWhile (· ≠ close) = token :=
  takeWhile_append_stop (fun _ hc => decide_eq_true (ne_of_mem_of_not_mem hc h)) (by simp)

theorem dropWhile_append_close {close : Char} (h : close ∉ token) :
    (token ++ close :: rest).dropWhile (· ≠ close) = close :: rest :=
  dropWhile_append_stop (fun _ hc => decide_eq_true (ne_of_mem_of_not_mem hc h)) (by simp)

end Run

/-! ### One token at a time -/

section Token

variable {text digits fraction rest : List Char}

theorem quoted_append {close : Char} (h : close ∉ text) :
    quoted close (text ++ close :: rest) = .ok ⟨symbol (String.ofList text), rest, rest⟩ := by
  simp only [quoted, takeWhile_append_close h, dropWhile_append_close h]

theorem commentLine_append (h : '\n' ∉ text) :
    commentLine (text ++ '\n' :: rest) = .ok ⟨.comment (String.ofList text), rest, rest⟩ := by
  simp only [commentLine, takeWhile_append_close h, dropWhile_append_close h]

theorem number_append (hdigits : ∀ c ∈ digits, c.isDigit) (hrest : Clear rest) :
    number (digits ++ rest) = .ok ⟨.atom (integerAtom digits), rest, rest⟩ := by
  have hstop := head_not_kind (fun _ => isSymbolChar_of_isDigit) hrest
  simp only [number, takeWhile_append_stop hdigits hstop, dropWhile_append_stop hdigits hstop]
  split
  · exact absurd (hrest '.' rfl) (by decide)
  · rfl

theorem number_append_fraction (hdigits : ∀ c ∈ digits, c.isDigit)
    (hfraction : IsRun Char.isDigit fraction) (hrest : Clear rest) :
    number (digits ++ '.' :: (fraction ++ rest)) =
      .ok ⟨symbol (String.ofList (digits ++ '.' :: fraction)), rest, rest⟩ := by
  have hpoint : ∀ c ∈ ('.' :: (fraction ++ rest)).head?, c.isDigit = false := by
    simp [show Char.isDigit '.' = false by decide]
  have hstop := head_not_kind (fun _ => isSymbolChar_of_isDigit) hrest
  obtain ⟨hne, hrun⟩ := hfraction
  simp only [number, takeWhile_append_stop hdigits hpoint, dropWhile_append_stop hdigits hpoint,
    takeWhile_append_stop hrun hstop, dropWhile_append_stop hrun hstop]

theorem bitVector_append {mark : List Char} {kind : Char → Bool} (hdigits : IsRun kind digits)
    (hkind : ∀ c, kind c → isSymbolChar c) (hrest : Clear rest) :
    bitVector mark kind (digits ++ rest) =
      .ok ⟨symbol (String.ofList (mark ++ digits)), rest, rest⟩ := by
  obtain ⟨hne, hrun⟩ := hdigits
  have hstop := head_not_kind hkind hrest
  simp only [bitVector, takeWhile_append_stop hrun hstop, dropWhile_append_stop hrun hstop]

theorem integerAtom_of_lt (h : Nat.ofDigitChars 10 digits 0 < UInt64.size) :
    integerAtom digits = .numeral (Nat.ofDigitChars 10 digits 0).toUInt64 :=
  if_pos h

theorem integerAtom_of_le (h : UInt64.size ≤ Nat.ofDigitChars 10 digits 0) :
    integerAtom digits = .symbol (String.ofList digits) :=
  if_neg (Nat.not_lt.mpr h)

theorem integerAtom_toDigits (value : UInt64) :
    integerAtom (Nat.toDigits 10 value.toNat) = .numeral value := by
  have hvalue : Nat.ofDigitChars 10 (Nat.toDigits 10 value.toNat) 0 = value.toNat :=
    Nat.ofDigitChars_toDigits (by decide) (by decide)
  rw [integerAtom_of_lt (by rw [hvalue]; exact value.toNat_lt), hvalue]
  simp

/-! ### The first character decides -/

/-- A character that opens neither quotes nor a comment nor a bit vector begins a number or a
symbol. -/
theorem single_cons {c : Char} (h : c ∉ ['"', '|', ';', '#']) (tail : List Char) :
    single (c :: tail) =
      if c.isDigit then number (c :: tail)
      else if isSymbolStart c then
        .ok ⟨symbol (String.ofList ((c :: tail).takeWhile isSymbolChar)),
          (c :: tail).dropWhile isSymbolChar, (c :: tail).dropWhile isSymbolChar⟩
      else .error (c :: tail) := by
  unfold single
  split <;> simp_all

/-- A hash that begins no bit vector begins nothing. -/
theorem single_hash (hbinary : text.head? ≠ some 'b') (hhex : text.head? ≠ some 'x') :
    single ('#' :: text) = .error ('#' :: text) := by
  unfold single
  split
  case h_5 digits h =>
    cases h
    contradiction
  case h_6 digits h =>
    cases h
    contradiction
  case h_7 h =>
    cases h
    rfl
  all_goals simp_all

theorem not_mem_openers {c : Char} (h : c.isDigit ∨ isSymbolStart c) :
    c ∉ ['"', '|', ';', '#'] := by
  intro hmem
  simp only [List.mem_cons, List.not_mem_nil, or_false] at hmem
  rcases hmem with rfl | rfl | rfl | rfl <;> exact absurd h (by decide)

theorem single_digit {c : Char} (h : c.isDigit) (tail : List Char) :
    single (c :: tail) = number (c :: tail) := by
  rw [single_cons (not_mem_openers (.inl h)), if_pos h]

theorem single_symbol {c : Char} (h : isSymbolStart c) (tail : List Char) :
    single (c :: tail) =
      .ok ⟨symbol (String.ofList ((c :: tail).takeWhile isSymbolChar)),
        (c :: tail).dropWhile isSymbolChar, (c :: tail).dropWhile isSymbolChar⟩ := by
  rw [single_cons (not_mem_openers (.inr h)), if_neg (by simp [isDigit_of_isSymbolStart h]),
    if_pos h]

/-- A bare text reads as its symbol, whatever follows it clear of it. -/
theorem Bare.single (h : Bare text) (hrest : Clear rest) :
    single (text ++ rest) = .ok ⟨symbol (String.ofList text), rest, rest⟩ := by
  cases h with
  | @name c tail start run =>
    have hrun : ∀ d ∈ c :: tail, isSymbolChar d := by
      rintro d (_ | ⟨_, hd⟩)
      exacts [isSymbolChar_of_isSymbolStart start, run d hd]
    have hstop := head_not_kind (fun _ => id) hrest
    rw [List.cons_append, single_symbol start, ← List.cons_append,
      takeWhile_append_stop hrun hstop, dropWhile_append_stop hrun hstop]
  | @decimal whole fraction run fractionRun =>
    obtain ⟨c, digits, rfl⟩ := List.exists_cons_of_ne_nil run.1
    have hnumber := number_append_fraction run.2 fractionRun hrest
    simp only [List.cons_append, List.append_assoc] at hnumber ⊢
    rw [single_digit (run.2 c List.mem_cons_self), hnumber]
  | binary run =>
    exact bitVector_append run
      (fun _ hc => isSymbolChar_of_isDigit (isDigit_of_isBinaryDigit hc)) hrest
  | hex run => exact bitVector_append run (fun _ => isSymbolChar_of_isHexDigit) hrest
  | overflow run large =>
    have hnumber := number_append run.2 hrest
    rw [integerAtom_of_le large] at hnumber
    obtain ⟨c, digits, rfl⟩ := List.exists_cons_of_ne_nil run.1
    rw [List.cons_append, single_digit (run.2 c List.mem_cons_self), ← List.cons_append, hnumber]

theorem single_toDigits (value : UInt64) (hrest : Clear rest) :
    single (Nat.toDigits 10 value.toNat ++ rest) = .ok ⟨numeral value, rest, rest⟩ := by
  have hrun : ∀ c ∈ Nat.toDigits 10 value.toNat, c.isDigit := fun _ =>
    Nat.isDigit_of_mem_toDigits (by decide) (by decide)
  have hnumber := number_append hrun hrest
  rw [integerAtom_toDigits] at hnumber
  obtain ⟨c, digits, h⟩ : ∃ c digits, Nat.toDigits 10 value.toNat = c :: digits :=
    List.exists_cons_of_ne_nil Nat.toDigits_ne_nil
  rw [h] at hrun hnumber ⊢
  rw [List.cons_append, single_digit (hrun c List.mem_cons_self), ← List.cons_append, hnumber]

/-! ### What a token was -/

/-- A token at the front of a text, the expression it is read as, and the text it leaves. -/
inductive Token : List Char → SExpr → List Char → Prop where
  | quotes {inner rest : List Char} (h : '"' ∉ inner) :
    Token ('"' :: (inner ++ '"' :: rest)) (symbol (String.ofList inner)) rest
  | bars {inner rest : List Char} (h : '|' ∉ inner) :
    Token ('|' :: (inner ++ '|' :: rest)) (symbol (String.ofList inner)) rest
  | comment {inner rest : List Char} (h : '\n' ∉ inner) :
    Token (';' :: (inner ++ '\n' :: rest)) (.comment (String.ofList inner)) rest
  | numeral {text rest : List Char} (value : UInt64) (hrest : rest <:+ text) :
    Token text (numeral value) rest
  | bare {text inner rest : List Char} (h : Bare inner) (hrest : rest <:+ text) :
    Token text (symbol (String.ofList inner)) rest

theorem isRun_takeWhile {kind : Char → Bool} (h : text.takeWhile kind ≠ []) :
    IsRun kind (text.takeWhile kind) :=
  ⟨h, fun _ => List.mem_takeWhile_imp⟩

/-- A text up to the first closing character, and the rest after it. -/
theorem eq_append_close {close c : Char} (h : text.dropWhile (· ≠ close) = c :: rest) :
    ∃ inner, text.takeWhile (· ≠ close) = inner ∧ close ∉ inner ∧
      text = inner ++ close :: rest := by
  have hclose : c = close := by
    simpa using head_dropWhile (· ≠ close) text c (by rw [h]; rfl)
  refine ⟨_, rfl, ?_, ?_⟩
  · intro hmem
    simpa using List.mem_takeWhile_imp hmem
  · rw [← hclose, ← h, hclose, List.takeWhile_append_dropWhile]

theorem of_quoted {close : Char} {reading : Reading SExpr} (h : quoted close text = .ok reading) :
    ∃ inner, close ∉ inner ∧ text = inner ++ close :: reading.rest ∧
      reading.value = symbol (String.ofList inner) := by
  simp only [quoted] at h
  split at h
  · cases h
  · next hdrop =>
    cases h
    obtain ⟨inner, htake, hclose, htext⟩ := eq_append_close hdrop
    exact ⟨inner, hclose, htext, by rw [htake]⟩

theorem of_commentLine {reading : Reading SExpr} (h : commentLine text = .ok reading) :
    ∃ inner, '\n' ∉ inner ∧ text = inner ++ '\n' :: reading.rest ∧
      reading.value = .comment (String.ofList inner) := by
  simp only [commentLine] at h
  split at h
  · cases h
  · next hdrop =>
    cases h
    obtain ⟨inner, htake, hclose, htext⟩ := eq_append_close hdrop
    exact ⟨inner, hclose, htext, by rw [htake]⟩

theorem token_of_integer (h : IsRun Char.isDigit digits) (hrest : rest <:+ text) :
    Token text (.atom (integerAtom digits)) rest := by
  rcases Nat.lt_or_ge (Nat.ofDigitChars 10 digits 0) UInt64.size with hlt | hle
  · rw [integerAtom_of_lt hlt]
    exact .numeral _ hrest
  · rw [integerAtom_of_le hle]
    exact .bare (.overflow h hle) hrest

theorem token_of_number {reading : Reading SExpr} {c : Char} (hc : c.isDigit)
    (h : number (c :: text) = .ok reading) : Token (c :: text) reading.value reading.rest := by
  have hwhole : IsRun Char.isDigit ((c :: text).takeWhile Char.isDigit) :=
    isRun_takeWhile (by simp [hc])
  have hsuffix : (c :: text).dropWhile Char.isDigit <:+ c :: text := List.dropWhile_suffix _
  simp only [number] at h
  split at h
  · next tail hpoint =>
    split at h
    · cases h
      exact token_of_integer hwhole (hpoint ▸ hsuffix)
    · next hfraction =>
      cases h
      have htail : tail <:+ c :: text := (List.suffix_cons ..).trans (hpoint ▸ hsuffix)
      exact .bare (.decimal hwhole (isRun_takeWhile hfraction))
        ((List.dropWhile_suffix _).trans htail)
  · cases h
    exact token_of_integer hwhole hsuffix

theorem of_bitVector {mark : List Char} {kind : Char → Bool} {reading : Reading SExpr}
    (h : bitVector mark kind text = .ok reading) :
    ∃ digits, IsRun kind digits ∧ reading.value = symbol (String.ofList (mark ++ digits)) ∧
      reading.rest <:+ text := by
  simp only [bitVector] at h
  split at h
  · cases h
  · next hdigits =>
    cases h
    exact ⟨_, isRun_takeWhile hdigits, rfl, List.dropWhile_suffix _⟩

theorem token_of_single {reading : Reading SExpr} (h : single text = .ok reading) :
    Token text reading.value reading.rest := by
  unfold single at h
  split at h
  case h_1 => cases h
  case h_2 tail =>
    obtain ⟨inner, hinner, rfl, hvalue⟩ := of_quoted h
    rw [hvalue]
    exact .quotes hinner
  case h_3 tail =>
    obtain ⟨inner, hinner, rfl, hvalue⟩ := of_quoted h
    rw [hvalue]
    exact .bars hinner
  case h_4 tail =>
    obtain ⟨inner, hinner, rfl, hvalue⟩ := of_commentLine h
    rw [hvalue]
    exact .comment hinner
  case h_5 tail =>
    obtain ⟨digits, hrun, hvalue, hrest⟩ := of_bitVector h
    rw [hvalue]
    exact .bare (.binary hrun) (hrest.trans ((List.suffix_cons ..).trans (List.suffix_cons ..)))
  case h_6 tail =>
    obtain ⟨digits, hrun, hvalue, hrest⟩ := of_bitVector h
    rw [hvalue]
    exact .bare (.hex hrun) (hrest.trans ((List.suffix_cons ..).trans (List.suffix_cons ..)))
  case h_7 c tail _ _ _ _ _ =>
    split at h
    · next hdigit => exact token_of_number hdigit h
    · split at h
      · next hstart =>
        cases h
        rw [List.takeWhile_cons_of_pos (isSymbolChar_of_isSymbolStart hstart)]
        exact .bare (.name hstart fun _ => List.mem_takeWhile_imp) (List.dropWhile_suffix _)
      · cases h

/-- A token that neither a quote nor a bar opens is a symbol only if it is bare. -/
theorem Token.bare_of_head {c : Char} {s : String} (h : Token (c :: text) (symbol s) rest)
    (hquote : c ≠ '"') (hbar : c ≠ '|') : Bare s.toList := by
  generalize hvalue : symbol s = expr at h
  generalize hall : c :: text = whole at h
  cases h with
  | quotes _ => exact absurd (List.cons.inj hall).1 hquote
  | bars _ => exact absurd (List.cons.inj hall).1 hbar
  | comment _ => cases hvalue
  | numeral _ _ => cases hvalue
  | bare h _ =>
      cases hvalue
      rwa [String.toList_ofList]

/-- A symbol read from a text without quotes and bars. -/
theorem bare_of_single {reading : Reading SExpr} {s : String} (hquote : '"' ∉ text)
    (hbar : '|' ∉ text) (h : single text = .ok reading) (hvalue : reading.value = symbol s) :
    Bare s.toList := by
  have htoken := token_of_single h
  rw [hvalue] at htoken
  cases text with
  | nil => cases h
  | cons c text =>
      exact htoken.bare_of_head (List.ne_of_not_mem_cons hquote).symm
        (List.ne_of_not_mem_cons hbar).symm

theorem Bare.isSymbolChar (h : Bare text) : ∀ c ∈ text, isSymbolChar c := by
  cases h with
  | name start run =>
      exact List.forall_mem_cons.mpr ⟨isSymbolChar_of_isSymbolStart start, run⟩
  | decimal run fractionRun =>
      refine List.forall_mem_append.mpr ⟨?_, List.forall_mem_cons.mpr ⟨by decide, ?_⟩⟩
      · exact fun c hc => isSymbolChar_of_isDigit (run.2 c hc)
      · exact fun c hc => isSymbolChar_of_isDigit (fractionRun.2 c hc)
  | binary run =>
      refine List.forall_mem_cons.mpr ⟨by decide, List.forall_mem_cons.mpr ⟨by decide, ?_⟩⟩
      exact fun c hc => isSymbolChar_of_isDigit (isDigit_of_isBinaryDigit (run.2 c hc))
  | hex run =>
      refine List.forall_mem_cons.mpr ⟨by decide, List.forall_mem_cons.mpr ⟨by decide, ?_⟩⟩
      exact fun c hc => isSymbolChar_of_isHexDigit (run.2 c hc)
  | overflow run _ => exact fun c hc => isSymbolChar_of_isDigit (run.2 c hc)

theorem Bare.not_mem (h : Bare text) {c : Char} (hc : Reader.isSymbolChar c = false) :
    c ∉ text := by
  intro hmem
  rw [h.isSymbolChar c hmem] at hc
  contradiction

end Token

/-! ### From tokens to expressions -/

section Item

variable {text : List Char} {reading : Reading SExpr} {fuel : Nat}

theorem single_paren (tail : List Char) : single ('(' :: tail) = .error ('(' :: tail) := rfl

theorem item_eq_single (h : ∀ tail, text ≠ '(' :: tail) : item (fuel + 1) text = single text :=
  item.eq_3 text fuel h

theorem item_of_single (h : single text = .ok reading) : item (fuel + 1) text = .ok reading := by
  rw [item_eq_single, h]
  rintro tail rfl
  simp [single_paren] at h

theorem single_of_item {content : Atom} (h : item fuel text = .ok reading)
    (hvalue : reading.value = .atom content) : single text = .ok reading := by
  cases fuel with
  | zero => simp [item] at h
  | succ fuel =>
    by_cases hopen : ∃ tail, text = '(' :: tail
    · obtain ⟨tail, rfl⟩ := hopen
      rw [item] at h
      split at h <;> cases h
      cases hvalue
    · rwa [item_eq_single fun tail htail => hopen ⟨tail, htail⟩] at h

/-- Nothing is read from an empty text or at a blank. -/
theorem dropWhile_of_item (h : item fuel text = .ok reading) :
    text ≠ [] ∧ text.dropWhile isBlank = text := by
  cases fuel with
  | zero => simp [item] at h
  | succ fuel =>
    cases text with
    | nil => simp [item, single] at h
    | cons c tail =>
      refine ⟨List.cons_ne_nil _ _, List.dropWhile_cons_of_neg fun hblank => ?_⟩
      simp only [isBlank, Bool.or_eq_true, decide_eq_true_eq] at hblank
      rcases hblank with ((rfl | rfl) | rfl) | rfl
      all_goals cases h

theorem item_list {tail rest furthest : List Char} {exprs : List SExpr}
    (h : items fuel tail = ⟨exprs, ')' :: rest, furthest⟩) :
    item (fuel + 1) ('(' :: tail) = .ok ⟨.list exprs, rest, rest⟩ := by
  simp only [item, h]

theorem value_of_item_list (h : item (fuel + 1) ('(' :: text) = .ok reading) :
    reading.value = .list (items fuel text).value := by
  rw [item] at h
  split at h
  · next content left furthest hitems =>
    cases h
    rw [hitems]
  · cases h

theorem items_cons (h : item fuel (text.dropWhile isBlank) = .ok reading) :
    items (fuel + 1) text =
      { items fuel reading.rest with
        value := reading.value :: (items fuel reading.rest).value } := by
  simp only [items, h]

theorem items_blank {c : Char} (h : isBlank c) (text : List Char) :
    items (fuel + 1) (c :: text) = items (fuel + 1) text := by
  simp only [items, List.dropWhile_cons_of_pos h]

theorem items_append_gap {gap : List Char} (h : ∀ c ∈ gap, isBlank c) (text : List Char) :
    items (fuel + 1) (gap ++ text) = items (fuel + 1) text := by
  simp only [items, List.dropWhile_append_of_pos h]

/-- A token after a gap is the first of the items. -/
theorem items_single {gap : List Char} (hgap : ∀ c ∈ gap, isBlank c)
    (h : single text = .ok reading) :
    items (fuel + 2) (gap ++ text) =
      { items (fuel + 1) reading.rest with
        value := reading.value :: (items (fuel + 1) reading.rest).value } := by
  have hitem : item (fuel + 1) text = .ok reading := item_of_single h
  rw [items_append_gap hgap, items_cons ((dropWhile_of_item hitem).2.symm ▸ hitem)]

end Item

end SmtSession.SExpr.Reader
