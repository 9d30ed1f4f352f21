import Mathlib.Data.List.DropRight
import Mathlib.Data.List.TakeDrop
import SmtSession.Proofs.Tokens

/-!
# Reading in two stages

What the reader accepts can be said without recursion through lists and without a choice to take
back: the text is cut into lexemes from left to right, each decided by its first characters and as
long as it can be, and the lexemes are folded over a stack of open lists. The reader accepts the same
texts and reads the same from them.

The argument follows the reader. What is left to do at a place of the text, for given open lists, is
a function of both, and everything the reader takes from the text moves that function on. Where the
reader stops, either the text ends or a list closes, or there is nothing that could go on.
-/

namespace SmtSession.SExpr

open Reader

inductive Lexeme where
  | opening
  | closing
  | leaf (expr : SExpr)
deriving DecidableEq

namespace Lexeme

/-- The text before the first closing character, and the text after it. -/
def upTo (close : Char) : List Char → Option (List Char × List Char)
  | [] => none
  | c :: text =>
    if c = close then some ([], text)
    else (upTo close text).map fun (inner, rest) => (c :: inner, rest)

/-- A number that a machine word holds, or else the digits as they stand. -/
def integer (digits : List Char) : SExpr :=
  let value := Nat.ofDigitChars 10 digits 0
  if value < UInt64.size then numeral value.toUInt64 else symbol (String.ofList digits)

/-- Digits with a point and digits after it, if there are any, and else the first digits alone. -/
def number (text : List Char) : SExpr × List Char :=
  let (whole, rest) := text.span Char.isDigit
  let (fraction, after) := rest.tail.span Char.isDigit
  if rest.head? = some '.' ∧ fraction ≠ [] then
    (symbol (String.ofList (whole ++ '.' :: fraction)), after)
  else (integer whole, rest)

def bits (mark : List Char) (kind : Char → Bool) (text : List Char) :
    Option (SExpr × List Char) :=
  let (digits, rest) := text.span kind
  if digits = [] then none else some (symbol (String.ofList (mark ++ digits)), rest)

def name (text : List Char) : SExpr × List Char :=
  let (name, rest) := text.span isSymbolChar
  (symbol (String.ofList name), rest)

/-- The lexeme that a text begins with, and the rest of the text. -/
def next : List Char → Option (Lexeme × List Char)
  | [] => none
  | '(' :: text => some (opening, text)
  | ')' :: text => some (closing, text)
  | '"' :: text => (upTo '"' text).map (Prod.map (leaf ∘ symbol ∘ String.ofList) id)
  | '|' :: text => (upTo '|' text).map (Prod.map (leaf ∘ symbol ∘ String.ofList) id)
  | ';' :: text => (upTo '\n' text).map (Prod.map (leaf ∘ comment ∘ String.ofList) id)
  | '#' :: 'b' :: text => (bits ['#', 'b'] isBinaryDigit text).map (Prod.map leaf id)
  | '#' :: 'x' :: text => (bits ['#', 'x'] isHexDigit text).map (Prod.map leaf id)
  | c :: text =>
    if isSymbolStart c then some (Prod.map leaf id (name (c :: text)))
    else if c.isDigit then some (Prod.map leaf id (number (c :: text)))
    else none

variable {text rest : List Char}

theorem length_of_upTo {close : Char} {inner : List Char}
    (h : upTo close text = some (inner, rest)) : rest.length < text.length := by
  induction text generalizing inner with
  | nil => cases h
  | cons c text ih =>
      rw [upTo] at h
      split at h
      · cases h
        exact Nat.lt_succ_self _
      · obtain ⟨⟨inner, rest⟩, hrest, heq⟩ := Option.map_eq_some_iff.mp h
        cases heq
        exact Nat.lt_succ_of_lt (ih hrest)

theorem length_of_bits {mark : List Char} {kind : Char → Bool} {expr : SExpr}
    (h : bits mark kind text = some (expr, rest)) : rest.length ≤ text.length := by
  rw [bits, List.span_eq_takeWhile_dropWhile] at h
  dsimp only at h
  split at h
  · cases h
  · cases h
    exact List.length_dropWhile_le ..

theorem length_name_cons {c : Char} (h : isSymbolStart c) (text : List Char) :
    (name (c :: text)).2.length ≤ text.length := by
  rw [name, List.span_eq_takeWhile_dropWhile,
    List.dropWhile_cons_of_pos (isSymbolChar_of_isSymbolStart h)]
  exact List.length_dropWhile_le ..

theorem length_number_cons {c : Char} (h : c.isDigit) (text : List Char) :
    (number (c :: text)).2.length ≤ text.length := by
  have hrest : (text.dropWhile Char.isDigit).length ≤ text.length := List.length_dropWhile_le ..
  rw [number, List.span_eq_takeWhile_dropWhile, List.dropWhile_cons_of_pos h]
  simp only [List.span_eq_takeWhile_dropWhile]
  split
  · have hafter : ((text.dropWhile Char.isDigit).tail.dropWhile Char.isDigit).length ≤
        (text.dropWhile Char.isDigit).tail.length := List.length_dropWhile_le ..
    rw [List.length_tail] at hafter
    dsimp only
    omega
  · exact hrest

/-- A lexeme takes at least one character. -/
theorem length_of_next {lexeme : Lexeme} (h : next text = some (lexeme, rest)) :
    rest.length < text.length := by
  unfold next at h
  split at h
  case h_1 => cases h
  case h_2 => cases h; exact Nat.lt_succ_self _
  case h_3 => cases h; exact Nat.lt_succ_self _
  case h_4 | h_5 | h_6 =>
    obtain ⟨⟨inner, rest⟩, hrest, heq⟩ := Option.map_eq_some_iff.mp h
    cases heq
    exact Nat.lt_succ_of_lt (length_of_upTo hrest)
  case h_7 | h_8 =>
    obtain ⟨⟨expr, rest⟩, hrest, heq⟩ := Option.map_eq_some_iff.mp h
    cases heq
    have hle := length_of_bits hrest
    simp only [List.length_cons, id_eq]
    omega
  case h_9 c text _ _ _ _ _ _ _ =>
    split at h
    · next hstart =>
      cases h
      exact Nat.lt_succ_of_le (length_name_cons hstart text)
    · split at h
      · next hdigit =>
        cases h
        exact Nat.lt_succ_of_le (length_number_cons hdigit text)
      · cases h

end Lexeme

/-- The lexemes of a text, if there are no characters but blanks between them. -/
def lex (text : List Char) : Option (List Lexeme) :=
  match _ : text.dropWhile isBlank with
  | [] => some []
  | c :: tail =>
    match _ : Lexeme.next (c :: tail) with
    | none => none
    | some (lexeme, rest) => (lex rest).map (lexeme :: ·)
termination_by text.length
decreasing_by
  rename_i hstart hnext
  have hle : (text.dropWhile isBlank).length ≤ text.length := List.length_dropWhile_le ..
  rw [hstart] at hle
  exact Nat.lt_of_lt_of_le (Lexeme.length_of_next hnext) hle

/-- The items of the list that is read, the latest first, and those of the lists it stands in, the
innermost first. -/
structure OpenLists where
  items : List SExpr := []
  outer : List (List SExpr) := []

namespace OpenLists

def add (expr : SExpr) (lists : OpenLists) : OpenLists :=
  { lists with items := expr :: lists.items }

def take (lists : OpenLists) : Lexeme → Option OpenLists
  | .leaf expr => some (lists.add expr)
  | .opening => some ⟨[], lists.items :: lists.outer⟩
  | .closing =>
    match lists.outer with
    | [] => none
    | items :: outer => some ⟨.list lists.items.reverse :: items, outer⟩

/-- What was read, once no list is open. -/
def close (lists : OpenLists) : Option (List SExpr) :=
  if lists.outer = [] then some lists.items.reverse else none

end OpenLists

/-- What is read from a text on, if these lists are open there. -/
def resume (text : List Char) (lists : OpenLists) : Option (List SExpr) := do
  let lexemes ← lex text
  let lists ← lexemes.foldlM OpenLists.take lists
  lists.close

/-- The text is cut into lexemes, and these are folded from the first on. -/
def readInStages (text : String) : Option (List SExpr) := resume text.toList {}

/-! ### Lexemes and tokens -/

section Lexeme

variable {text rest : List Char} {reading : Reading SExpr}

theorem upTo_eq (close : Char) (text : List Char) :
    Lexeme.upTo close text =
      match text.dropWhile (· ≠ close) with
      | [] => none
      | _ :: rest => some (text.takeWhile (· ≠ close), rest) := by
  induction text with
  | nil => rfl
  | cons c text ih =>
      by_cases hclose : c = close
      · simp [Lexeme.upTo, hclose]
      · rw [Lexeme.upTo, if_neg hclose, ih, List.dropWhile_cons_of_pos (by simpa using hclose),
          List.takeWhile_cons_of_pos (by simpa using hclose)]
        split <;> rfl

/-- A token, as a lexeme and the text after it. -/
def asLexeme (attempt : Attempt SExpr) : Option (Lexeme × List Char) :=
  attempt.toOption.map fun reading => (.leaf reading.value, reading.rest)

theorem asLexeme_quoted (close : Char) (text : List Char) :
    asLexeme (quoted close text) =
      (Lexeme.upTo close text).map (Prod.map (Lexeme.leaf ∘ symbol ∘ String.ofList) id) := by
  rw [upTo_eq, quoted]
  cases text.dropWhile (· ≠ close) <;> rfl

theorem asLexeme_commentLine (text : List Char) :
    asLexeme (commentLine text) =
      (Lexeme.upTo '\n' text).map (Prod.map (Lexeme.leaf ∘ comment ∘ String.ofList) id) := by
  rw [upTo_eq, commentLine]
  cases text.dropWhile (· ≠ '\n') <;> rfl

theorem asLexeme_bitVector (mark : List Char) (kind : Char → Bool) (text : List Char) :
    asLexeme (bitVector mark kind text) =
      (Lexeme.bits mark kind text).map (Prod.map Lexeme.leaf id) := by
  rw [Lexeme.bits, List.span_eq_takeWhile_dropWhile, bitVector]
  split
  · next hnone =>
    simp only [hnone, if_pos]
    rfl
  · next hsome =>
    simp only [if_neg hsome]
    rfl

theorem atom_integerAtom (digits : List Char) :
    .atom (integerAtom digits) = Lexeme.integer digits := by
  rcases Nat.lt_or_ge (Nat.ofDigitChars 10 digits 0) UInt64.size with hlt | hle
  · rw [integerAtom_of_lt hlt]
    exact (if_pos hlt).symm
  · rw [integerAtom_of_le hle]
    exact (if_neg (Nat.not_lt.mpr hle)).symm

theorem asLexeme_number (text : List Char) :
    asLexeme (Reader.number text) = some (Prod.map Lexeme.leaf id (Lexeme.number text)) := by
  rw [Lexeme.number, List.span_eq_takeWhile_dropWhile, Reader.number]
  simp only [List.span_eq_takeWhile_dropWhile, atom_integerAtom]
  split
  · next tail hpoint =>
    rw [hpoint]
    simp only [List.head?_cons, List.tail_cons, true_and]
    split
    · next hnone =>
      rw [hnone, if_neg (by simp)]
      rfl
    · next hsome =>
      rw [if_pos hsome]
      rfl
  · next hpoint =>
    have hnone : ¬((text.dropWhile Char.isDigit).head? = some '.' ∧
        (text.dropWhile Char.isDigit).tail.takeWhile Char.isDigit ≠ []) := by
      rintro ⟨hhead, -⟩
      obtain ⟨tail, htail⟩ := List.head?_eq_some_iff.mp hhead
      exact hpoint tail htail
    rw [if_neg hnone]
    rfl

/-- A text that begins with no parenthesis begins with the token that the reader takes. -/
theorem next_eq (hopen : text.head? ≠ some '(') (hclose : text.head? ≠ some ')') :
    Lexeme.next text = asLexeme (single text) := by
  unfold Lexeme.next
  split
  · rfl
  · exact absurd rfl hopen
  · exact absurd rfl hclose
  · exact (asLexeme_quoted '"' _).symm
  · exact (asLexeme_quoted '|' _).symm
  · exact (asLexeme_commentLine _).symm
  · exact (asLexeme_bitVector _ _ _).symm
  · exact (asLexeme_bitVector _ _ _).symm
  · next c text _ _ hquote hbar hcomment hbinary hhex =>
    rw [single.eq_7 c text hquote hbar hcomment hbinary hhex]
    by_cases hstart : isSymbolStart c
    · rw [if_pos hstart, if_neg (by simp [isDigit_of_isSymbolStart hstart]), if_pos hstart,
        Lexeme.name, List.span_eq_takeWhile_dropWhile]
      rfl
    · rw [if_neg hstart]
      split
      · exact (asLexeme_number _).symm
      · rfl

end Lexeme

/-! ### One lexeme after the other -/

section Resume

variable {text rest tail : List Char} {lists : OpenLists}

theorem resume_blank (hblank : text.dropWhile isBlank = []) (lists : OpenLists) :
    resume text lists = lists.close := by
  have hlex : lex text = some [] := by
    rw [lex]
    split
    · rfl
    · next hstart =>
      rw [hblank] at hstart
      cases hstart
  rw [resume, hlex]
  rfl

theorem lex_cons {c : Char} (hstart : text.dropWhile isBlank = c :: tail) :
    lex text = (Lexeme.next (c :: tail)).bind fun (lexeme, rest) => (lex rest).map (lexeme :: ·) := by
  rw [lex]
  split
  · next hnone =>
    rw [hnone] at hstart
    cases hstart
  · next hsome =>
    rw [hstart] at hsome
    cases hsome
    split <;> next hnext => rw [hnext]; rfl

theorem resume_lexeme {lexeme : Lexeme}
    (hnext : Lexeme.next (text.dropWhile isBlank) = some (lexeme, rest)) (lists : OpenLists) :
    resume text lists = (lists.take lexeme).bind (resume rest) := by
  obtain ⟨c, tail, hstart⟩ : ∃ c tail, text.dropWhile isBlank = c :: tail := by
    refine List.exists_cons_of_ne_nil fun hnil => ?_
    rw [hnil] at hnext
    cases hnext
  rw [hstart] at hnext
  have hresume : resume rest = fun lists =>
      (lex rest).bind fun lexemes => (lexemes.foldlM OpenLists.take lists).bind OpenLists.close :=
    rfl
  rw [resume, lex_cons hstart, hnext, Option.bind_some, hresume]
  dsimp only
  cases lex rest with
  | none => cases lists.take lexeme <;> rfl
  | some lexemes =>
      change ((lexeme :: lexemes).foldlM OpenLists.take lists).bind OpenLists.close = _
      rw [List.foldlM_cons]
      cases lists.take lexeme <;> rfl

theorem resume_none (hnext : Lexeme.next (text.dropWhile isBlank) = none)
    (hstart : text.dropWhile isBlank ≠ []) (lists : OpenLists) : resume text lists = none := by
  obtain ⟨c, tail, hstart⟩ := List.exists_cons_of_ne_nil hstart
  rw [hstart] at hnext
  rw [resume, lex_cons hstart, hnext]
  rfl

theorem resume_dropWhile (text : List Char) (lists : OpenLists) :
    resume text lists = resume (text.dropWhile isBlank) lists := by
  have hidem : (text.dropWhile isBlank).dropWhile isBlank = text.dropWhile isBlank :=
    List.dropWhile_idempotent ..
  cases hstart : text.dropWhile isBlank with
  | nil => rw [resume_blank hstart, resume_blank rfl]
  | cons c tail =>
      rw [hstart] at hidem
      rw [resume, resume, lex_cons hstart, lex_cons hidem]

/-- Nothing can be read from a text on, whatever lists are open there. -/
def Stuck (text : List Char) : Prop := ∀ lists, resume text lists = none

/-- Where the reader stops: at the end of the text, where a list closes, or where nothing more can
be read. -/
inductive Stop : List Char → Prop where
  | ended : Stop []
  | closes {rest : List Char} : Stop (')' :: rest)
  | stuck {text : List Char} (h : Stuck text) : Stop text

theorem resume_opening (hstart : text.dropWhile isBlank = '(' :: tail) (lists : OpenLists) :
    resume text lists = resume tail ⟨[], lists.items :: lists.outer⟩ := by
  have hnext : Lexeme.next (text.dropWhile isBlank) = some (.opening, tail) := by rw [hstart]; rfl
  exact resume_lexeme hnext lists

theorem resume_closing (tail : List Char) (lists : OpenLists) :
    resume (')' :: tail) lists = (lists.take .closing).bind (resume tail) :=
  @resume_lexeme (')' :: tail) tail .closing rfl lists

end Resume

/-! ### The reader, followed through the text -/

variable {text : List Char}

def OpenLists.addAll (exprs : List SExpr) (lists : OpenLists) : OpenLists :=
  { lists with items := exprs.reverse ++ lists.items }

/-- What an attempt at one expression did to the rest of the work. -/
def Follows (text : List Char) : Attempt SExpr → Prop
  | .ok reading => reading.rest.length < text.length ∧
      ∀ lists, resume text lists = resume reading.rest (lists.add reading.value)
  | .error _ => Stop text

theorem follows_single (hstart : text.dropWhile isBlank = text) (hopen : text.head? ≠ some '(') :
    Follows text (single text) := by
  by_cases hclose : text.head? = some ')'
  · obtain ⟨tail, rfl⟩ := List.head?_eq_some_iff.mp hclose
    exact .closes
  have hnext := next_eq hopen hclose
  cases hsingle : single text with
  | ok reading =>
      rw [hsingle] at hnext
      exact ⟨Lexeme.length_of_next hnext, resume_lexeme (hstart.symm ▸ hnext)⟩
  | error furthest =>
      rw [hsingle] at hnext
      cases text with
      | nil => exact .ended
      | cons c tail =>
          refine .stuck (resume_none (hstart.symm ▸ hnext) ?_)
          rw [hstart]
          exact List.cons_ne_nil _ _

/-- What the reader made of the items at the front of a text. -/
structure FollowsAll (text : List Char) (reading : Reading (List SExpr)) : Prop where
  stop : Stop reading.rest
  length_le : reading.rest.length ≤ text.length
  resume_eq : ∀ lists, resume text lists = resume reading.rest (lists.addAll reading.value)

theorem follows_list {fuel : Nat} {tail : List Char} (h : FollowsAll tail (items fuel tail)) :
    Follows ('(' :: tail) (item (fuel + 1) ('(' :: tail)) := by
  have hresume (lists : OpenLists) : resume ('(' :: tail) lists =
      resume (items fuel tail).rest
        ⟨(items fuel tail).value.reverse, lists.items :: lists.outer⟩ := by
    rw [resume_opening rfl, h.resume_eq]
    simp [OpenLists.addAll]
  have hstop := h.stop
  have hlength := h.length_le
  rw [item]
  split
  · next content rest furthest hitems =>
    rw [hitems] at hlength hresume
    refine ⟨?_, fun lists => ?_⟩
    · simp only [List.length_cons] at hlength ⊢
      omega
    · rw [hresume, resume_closing]
      simp [OpenLists.take, OpenLists.add]
  · next content rest furthest hnone hitems =>
    rw [hitems] at hstop hresume
    refine .stuck fun lists => ?_
    rw [hresume]
    cases hstop with
    | ended => exact resume_blank rfl _
    | closes => exact (hnone _ rfl).elim
    | stuck h => exact h _

theorem follows (fuel : Nat) :
    (∀ text, 2 * text.length + 1 ≤ fuel → text.dropWhile isBlank = text →
      Follows text (item fuel text)) ∧
    ∀ text, 2 * text.length + 2 ≤ fuel → FollowsAll text (items fuel text) := by
  induction fuel with
  | zero => exact ⟨fun _ h => absurd h (by omega), fun _ h => absurd h (by omega)⟩
  | succ fuel ih =>
      obtain ⟨ihItem, ihItems⟩ := ih
      refine ⟨?_, ?_⟩
      · intro text hfuel hstart
        by_cases hopen : text.head? = some '('
        · obtain ⟨tail, rfl⟩ := List.head?_eq_some_iff.mp hopen
          rw [List.length_cons] at hfuel
          exact follows_list (ihItems tail (by omega))
        · rw [item_eq_single (by rintro tail rfl; exact hopen rfl)]
          exact follows_single hstart hopen
      · intro text hfuel
        have hle : (text.dropWhile isBlank).length ≤ text.length := List.length_dropWhile_le ..
        have hfirst := ihItem (text.dropWhile isBlank) (by omega) (List.dropWhile_idempotent _ _)
        rw [items]
        dsimp only
        split
        · next furthest hitem =>
          rw [hitem] at hfirst
          exact ⟨hfirst, hle, resume_dropWhile text⟩
        · next first hitem =>
          rw [hitem] at hfirst
          obtain ⟨hlength, hresume⟩ := hfirst
          have hothers := ihItems first.rest (by omega)
          refine ⟨hothers.stop, ?_, fun lists => ?_⟩
          · have hrest := hothers.length_le
            dsimp only
            omega
          · rw [resume_dropWhile, hresume, hothers.resume_eq]
            simp [OpenLists.add, OpenLists.addAll]

/-! ### Whole texts -/

theorem resume_addAll_eq (h : Stop text) (exprs : List SExpr) :
    resume text (OpenLists.addAll exprs {}) = if text = [] then some exprs else none := by
  cases h with
  | ended =>
      rw [resume_blank rfl]
      simp [OpenLists.close, OpenLists.addAll]
  | closes =>
      rw [resume_closing]
      rfl
  | stuck h =>
      have hnonempty : text ≠ [] := by
        rintro rfl
        have hnone := h {}
        rw [resume_blank rfl] at hnone
        contradiction
      rw [h, if_neg hnonempty]

theorem toOption_readMany (text : String) : (readMany text).toOption = readInStages text := by
  obtain ⟨-, hitems⟩ := follows (fuelFor text.toList)
  have h := hitems text.toList (Nat.le_refl _)
  rw [readInStages, h.resume_eq, resume_addAll_eq h.stop, readMany, manyChars]
  split
  · next hreading =>
    rw [hreading]
    rfl
  · next exprs rest furthest hrest hreading =>
    rw [hreading, if_neg hrest]
    rfl

theorem readMany_eq_ok {exprs : List SExpr} {text : String} :
    readMany text = .ok exprs ↔ readInStages text = some exprs := by
  rw [← toOption_readMany]
  cases readMany text with
  | ok read => exact (Except.ok.injEq ..).to_iff.trans (Option.some.injEq ..).to_iff.symm
  | error place => exact iff_of_false nofun nofun

/-- If nothing is read, then nothing but blanks was passed. -/
theorem rest_of_value_nil (h : (items (fuelFor text) text).value = []) :
    (items (fuelFor text) text).rest = text.dropWhile isBlank := by
  rw [fuelFor, items] at h ⊢
  dsimp only at h ⊢
  split at h
  · rfl
  · contradiction

/-- The reader accepts exactly the texts that the two stages accept, and reads the same from them;
to read a single expression is to read a text that holds nothing else. -/
theorem read_in_stages (text : String) :
    (readMany text).toOption = readInStages text ∧
      ∀ expr, read text = .ok expr ↔ readMany text = .ok [expr] := by
  refine ⟨toOption_readMany text, fun expr => ?_⟩
  have hle : (text.toList.dropWhile isBlank).length ≤ text.toList.length :=
    List.length_dropWhile_le ..
  have hfollows := (follows (fuelFor text.toList)).1 (text.toList.dropWhile isBlank)
    (by rw [fuelFor]; omega) (List.dropWhile_idempotent ..)
  rw [readMany_eq_ok, readInStages, resume_dropWhile, read, oneChars]
  cases hitem : item (fuelFor text.toList) (text.toList.dropWhile isBlank) with
  | error furthest =>
      rw [hitem] at hfollows
      have hresume := resume_addAll_eq hfollows []
      change resume _ {} = _ at hresume
      rw [hresume]
      refine iff_of_false nofun ?_
      split <;> simp
  | ok reading =>
      rw [hitem] at hfollows
      obtain ⟨-, hresume⟩ := hfollows
      rw [hresume]
      dsimp only
      constructor
      · intro h
        split at h
        · next hblank =>
          cases h
          exact resume_blank hblank _
        · contradiction
      · intro h
        obtain ⟨-, hitems⟩ := follows (fuelFor reading.rest)
        have hothers := hitems reading.rest (Nat.le_refl _)
        have hadd (exprs : List SExpr) : (OpenLists.add reading.value {}).addAll exprs =
            OpenLists.addAll (reading.value :: exprs) {} := by
          simp [OpenLists.add, OpenLists.addAll]
        rw [hothers.resume_eq, hadd, resume_addAll_eq hothers.stop] at h
        split at h
        · next hrest =>
          obtain ⟨hvalue, hnone⟩ := List.cons.inj (Option.some.inj h)
          rw [rest_of_value_nil hnone] at hrest
          rw [hrest, hvalue]
        · contradiction

end SmtSession.SExpr
