import SmtSession.Proofs.Lexemes
import SmtSession.Proofs.ViablePrefixes

/-!
# Where a text is refused

The reader takes back what it tried, and refuses a text at the furthest place that it looked at in
vain. It looks no further than the first place where the text becomes unreadable, and does look at
that.
-/

namespace SmtSession.SExpr

open Reader

namespace Scan

variable {scan other : Scan} {text tail : List Char} {c : Char} {nesting : Nesting} {kind : Kind}

theorem missed_dropWhile {taken : Char → Bool} (h : ∀ c, taken c → scan.step c = some scan)
    (text : List Char) : scan.missed text = scan.missed (text.dropWhile taken) := by
  induction text with
  | nil => rfl
  | cons c text ih =>
      by_cases hc : taken c
      · rw [missed_cons (h c hc), List.dropWhile_cons_of_pos hc, ih]
      · rw [List.dropWhile_cons_of_neg hc]

/-- Two places from which the next character leads to the same place are alike. -/
theorem missed_congr (hcomplete : scan.IsComplete ↔ other.IsComplete)
    (hpending : scan.pending = other.pending) (h : ∀ c ∈ text.head?, scan.step c = other.step c) :
    scan.missed text = other.missed text := by
  cases text with
  | nil => simp [missed, hcomplete, hpending]
  | cons c text => rw [missed, missed, h c rfl, hpending]

theorem missed_blank (nesting : Nesting) (text : List Char) :
    missed ⟨.between, nesting⟩ text = missed ⟨.between, nesting⟩ (text.dropWhile isBlank) :=
  missed_dropWhile (fun _ => step_blank) text

theorem missed_token (kind : Kind) (nesting : Nesting) (text : List Char) :
    missed ⟨.token kind, nesting⟩ text =
      missed ⟨.between, nesting⟩ (text.dropWhile kind.holds) := by
  rw [missed_dropWhile fun _ => step_token]
  refine missed_congr Iff.rfl rfl fun c hc => ?_
  have hkind := head_dropWhile kind.holds text c hc
  simp [step, hkind]

theorem missed_enclosed (close : Char) (nesting : Nesting) (text : List Char) :
    missed ⟨.enclosed close, nesting⟩ text =
      match text.dropWhile (· ≠ close) with
      | [] => some []
      | _ :: rest => missed ⟨.between, nesting⟩ rest := by
  have hstay : ∀ c, decide (c ≠ close) →
      step ⟨.enclosed close, nesting⟩ c = some ⟨.enclosed close, nesting⟩ := by
    intro c hc
    simp [step, of_decide_eq_true hc]
  rw [missed_dropWhile hstay]
  split
  · next hdrop =>
    rw [hdrop]
    rfl
  · next c rest hdrop =>
    have hclose := head_dropWhile (· ≠ close) text c (by rw [hdrop]; rfl)
    rw [hdrop]
    refine missed_cons ?_ rest
    simpa [step] using hclose

theorem missed_bits (kind : Kind) (nesting : Nesting) (text : List Char) :
    missed ⟨.bits kind, nesting⟩ text =
      match text.takeWhile kind.holds with
      | [] => some text
      | _ => missed ⟨.between, nesting⟩ (text.dropWhile kind.holds) := by
  cases text with
  | nil => rfl
  | cons c text =>
      by_cases hc : kind.holds c
      · have hstep : step ⟨.bits kind, nesting⟩ c = some ⟨.token kind, nesting⟩ := if_pos hc
        rw [missed_cons hstep, missed_token, List.takeWhile_cons_of_pos hc,
          List.dropWhile_cons_of_pos hc]
      · have hnone : step ⟨.bits kind, nesting⟩ c = none := if_neg hc
        rw [missed, hnone, List.takeWhile_cons_of_neg hc]
        rfl

theorem missed_digits_stop (hdigit : ∀ c ∈ text.head?, c.isDigit = false)
    (hpoint : text.head? ≠ some '.') :
    missed ⟨.digits, nesting⟩ text = missed ⟨.between, nesting⟩ text := by
  refine missed_congr Iff.rfl rfl fun c hc => ?_
  have hne : c ≠ '.' := by
    rintro rfl
    exact hpoint hc
  simp [step, hdigit c hc, hne]

theorem missed_digits (nesting : Nesting) (text : List Char) :
    missed ⟨.digits, nesting⟩ text = missed ⟨.digits, nesting⟩ (text.dropWhile Char.isDigit) :=
  missed_dropWhile (fun _ => step_digits) text

theorem missed_fraction (nesting : Nesting) (h : text.takeWhile Char.isDigit ≠ []) :
    missed ⟨.point, nesting⟩ text = missed ⟨.between, nesting⟩ (text.dropWhile Char.isDigit) := by
  cases text with
  | nil => exact absurd rfl h
  | cons c text =>
      have hc : c.isDigit := by
        by_contra hc
        exact h (List.takeWhile_cons_of_neg hc)
      have hstep : step ⟨.point, nesting⟩ c = some ⟨.token .decimal, nesting⟩ := if_pos hc
      rw [missed_cons hstep, missed_token, List.dropWhile_cons_of_pos hc]
      rfl

/-- A point after digits begins a symbol if no digit follows. -/
theorem missed_point (h : nesting.Unlimited) (hdigit : ∀ c ∈ text.head?, c.isDigit = false) :
    missed ⟨.point, nesting⟩ text = missed ⟨.between, nesting⟩ ('.' :: text) := by
  have hopen := Nesting.isOpen_of_unlimited h
  have hstep : step ⟨.between, nesting⟩ '.' = some ⟨.token .symbol, nesting⟩ := by
    rw [step_first hopen (by decide) (by decide) rfl, Nesting.begin_of_unlimited h]
  rw [missed_cons hstep]
  refine missed_congr ?_ rfl fun c hc => ?_
  · rcases h with hdepth | hroom
    · simp [IsComplete, Nat.ne_of_gt hdepth]
    · simp [IsComplete, hroom]
  · simp only [step, hdigit c hc, if_pos hopen, Nesting.begin_of_unlimited h, Bool.false_eq_true, if_false]
    rfl

/-- A point after digits needs a digit if no expression may begin. -/
theorem missed_point_full (h : ¬nesting.IsOpen) (hdigit : ∀ c ∈ text.head?, c.isDigit = false) :
    missed ⟨.point, nesting⟩ text = some text := by
  cases text with
  | nil =>
      refine if_neg fun hcomplete => h (.inr ?_)
      simp [show nesting.room = .many from hcomplete.2]
  | cons c text =>
      have hnone : step ⟨.point, nesting⟩ c = none := by
        simp [step, hdigit c rfl, h]
      rw [missed, hnone]
      rfl

end Scan

/-! ### The reader -/

variable {text tail : List Char} {nesting : Nesting} {c : Char}

/-- The end of a text, or of a list. -/
def AtEnd (text : List Char) : Prop := text = [] ∨ ∃ tail, text = ')' :: tail

/-- What the reader looked at in an attempt at one expression. If it looked at a point after digits
and left it, this is further than what it took. -/
def Explores (nesting : Nesting) (text : List Char) : Attempt SExpr → Prop
  | .ok reading =>
    reading.furthest = reading.rest ∧ Scan.missed ⟨.between, nesting⟩ text =
        Scan.missed ⟨.between, nesting.begin⟩ reading.rest ∨
      reading.rest = '.' :: reading.furthest ∧
        (∀ c ∈ reading.furthest.head?, c.isDigit = false) ∧
        Scan.missed ⟨.between, nesting⟩ text = Scan.missed ⟨.point, nesting.begin⟩ reading.furthest
  | .error furthest =>
    AtEnd text ∧ furthest = text ∨ Scan.missed ⟨.between, nesting⟩ text = some furthest

theorem explores_enclosed {close : Char} {expr : SExpr}
    (hstep : Scan.step ⟨.between, nesting⟩ c = some ⟨.enclosed close, nesting.begin⟩) :
    Explores nesting (c :: tail)
      (match tail.dropWhile (· ≠ close) with
      | [] => .error []
      | _ :: rest => .ok ⟨expr, rest, rest⟩) := by
  have hmissed := Scan.missed_cons hstep tail
  rw [Scan.missed_enclosed] at hmissed
  split
  · next hdrop =>
    rw [hdrop] at hmissed
    exact .inr hmissed
  · next close rest hdrop =>
    rw [hdrop] at hmissed
    exact .inl ⟨rfl, hmissed⟩

theorem explores_bitVector {mark : List Char} {kind : Kind}
    (h : Scan.missed ⟨.between, nesting⟩ text = Scan.missed ⟨.bits kind, nesting.begin⟩ tail) :
    Explores nesting text (bitVector mark kind.holds tail) := by
  rw [Scan.missed_bits] at h
  unfold bitVector
  split
  · next hnone =>
    rw [hnone] at h
    exact .inr h
  · next digits hsome =>
    split at h
    · contradiction
    · exact .inl ⟨rfl, h⟩

theorem head_of_takeWhile {taken : Char → Bool} (h : text.takeWhile taken = []) :
    ∀ c ∈ text.head?, taken c = false := by
  have hrest : text.dropWhile taken = text := by
    simpa [h] using List.takeWhile_append_dropWhile (p := taken) (l := text)
  exact hrest ▸ head_dropWhile taken text

theorem explores_number (hc : c.isDigit)
    (hstep : Scan.step ⟨.between, nesting⟩ c = some ⟨.digits, nesting.begin⟩) :
    Explores nesting (c :: tail) (number (c :: tail)) := by
  have hmissed := Scan.missed_cons hstep tail
  rw [Scan.missed_digits, ← List.dropWhile_cons_of_pos hc] at hmissed
  have hdigit := head_dropWhile Char.isDigit (c :: tail)
  simp only [number]
  split
  · next fraction hrest =>
    have hpoint : Scan.step ⟨.digits, nesting.begin⟩ '.' = some ⟨.point, nesting.begin⟩ := rfl
    rw [hrest, Scan.missed_cons hpoint] at hmissed
    split
    · next hnone => exact .inr ⟨hrest, head_of_takeWhile hnone, hmissed⟩
    · next digits hsome =>
      rw [Scan.missed_fraction _ hsome] at hmissed
      exact .inl ⟨rfl, hmissed⟩
  · next hrest =>
    have hpoint : ((c :: tail).dropWhile Char.isDigit).head? ≠ some '.' := by
      intro hhead
      obtain ⟨fraction, hfraction⟩ := List.head?_eq_some_iff.mp hhead
      exact hrest fraction hfraction
    rw [Scan.missed_digits_stop hdigit hpoint] at hmissed
    exact .inl ⟨rfl, hmissed⟩

theorem first?_of_not_mem (h : c ∉ ['"', '|', ';', '#']) :
    Mode.first? c =
      if c.isDigit then some .digits
      else if isSymbolStart c then some (.token .symbol)
      else none := by
  unfold Mode.first?
  simp_all

/-- A hash is missed together with what follows it. -/
theorem missed_mark (hbinary : text.head? ≠ some 'b') (hhex : text.head? ≠ some 'x') :
    Scan.missed ⟨.mark, nesting⟩ text = some ('#' :: text) := by
  cases text with
  | nil => rfl
  | cons c text =>
      have hb : c ≠ 'b' := by
        rintro rfl
        exact hbinary rfl
      have hx : c ≠ 'x' := by
        rintro rfl
        exact hhex rfl
      have hnone : Scan.step ⟨.mark, nesting⟩ c = none := (if_neg hb).trans (if_neg hx)
      rw [Scan.missed, hnone]
      rfl

/-- Where nothing is enclosed, the first character belongs to a number, to a symbol or to nothing. -/
theorem explores_cons (hopen : nesting.IsOpen) (hblank : ¬isBlank c) (hparen : c ∉ ['(', ')'])
    (hopener : c ∉ ['"', '|', ';', '#']) : Explores nesting (c :: tail) (single (c :: tail)) := by
  have hmode := first?_of_not_mem hopener
  rw [single_cons hopener]
  split
  · next hdigit =>
    rw [if_pos hdigit] at hmode
    exact explores_number hdigit (Scan.step_first hopen hblank hparen hmode)
  · next hdigit =>
    rw [if_neg hdigit] at hmode
    split
    · next hsymbol =>
      rw [if_pos hsymbol] at hmode
      refine .inl ⟨rfl, ?_⟩
      rw [Scan.missed_cons (Scan.step_first hopen hblank hparen hmode), Scan.missed_token,
        List.dropWhile_cons_of_pos (isSymbolChar_of_isSymbolStart hsymbol)]
      rfl
    · next hsymbol =>
      rw [if_neg hsymbol] at hmode
      refine .inr ?_
      rw [Scan.missed, Scan.step_between hopen hblank hparen, hmode]
      rfl

/-- A bit vector, or a hash that begins none. -/
theorem explores_hash (hopen : nesting.IsOpen) (tail : List Char) :
    Explores nesting ('#' :: tail) (single ('#' :: tail)) := by
  have hmark : Scan.missed ⟨.between, nesting⟩ ('#' :: tail) =
      Scan.missed ⟨.mark, nesting.begin⟩ tail :=
    Scan.missed_cons (Scan.step_first hopen (by decide) (by decide) rfl) tail
  by_cases hbinary : tail.head? = some 'b'
  · obtain ⟨digits, rfl⟩ := List.head?_eq_some_iff.mp hbinary
    exact @explores_bitVector _ digits nesting _ .binary (hmark.trans (Scan.missed_cons rfl digits))
  by_cases hhex : tail.head? = some 'x'
  · obtain ⟨digits, rfl⟩ := List.head?_eq_some_iff.mp hhex
    exact @explores_bitVector _ digits nesting _ .hexadecimal
      (hmark.trans (Scan.missed_cons rfl digits))
  rw [single_hash hbinary hhex]
  exact .inr (hmark.trans (missed_mark hbinary hhex))

theorem explores_single (hopen : nesting.IsOpen) (hstart : text.dropWhile isBlank = text)
    (hparen : text.head? ≠ some '(') : Explores nesting text (single text) := by
  cases text with
  | nil => exact .inl ⟨.inl rfl, rfl⟩
  | cons c tail =>
      by_cases hclose : c = ')'
      · subst hclose
        exact .inl ⟨.inr ⟨tail, rfl⟩, rfl⟩
      by_cases hopener : c ∈ ['"', '|', ';', '#']
      · simp only [List.mem_cons, List.not_mem_nil, or_false] at hopener
        rcases hopener with rfl | rfl | rfl | rfl
        · exact explores_enclosed (Scan.step_first hopen (by decide) (by decide) rfl)
        · exact explores_enclosed (Scan.step_first hopen (by decide) (by decide) rfl)
        · exact explores_enclosed (Scan.step_first hopen (by decide) (by decide) rfl)
        · exact explores_hash hopen tail
      · have hblank := head_dropWhile isBlank (c :: tail) c (by rw [hstart]; rfl)
        exact explores_cons hopen (by simp [hblank]) (by simpa [hclose] using hparen) hopener

/-- What the reader looked at for the items at the front of a text. -/
structure ExploresAll (nesting : Nesting) (text : List Char) (reading : Reading (List SExpr)) :
    Prop where
  missed_eq :
    Scan.missed ⟨.between, nesting⟩ text = Scan.missed ⟨.between, nesting⟩ reading.rest
  stop : AtEnd reading.rest ∧ reading.furthest = reading.rest ∨
    Scan.missed ⟨.between, nesting⟩ reading.rest = some reading.furthest

theorem explores_list {fuel : Nat} (hopen : nesting.IsOpen)
    (h : ExploresAll nesting.inner tail (items fuel tail)) :
    Explores nesting ('(' :: tail) (item (fuel + 1) ('(' :: tail)) := by
  have hmissed := (Scan.missed_cons (Scan.step_opening hopen) tail).trans h.missed_eq
  have hstop := h.stop
  rw [item]
  split
  · next content rest furthest hitems =>
    rw [hitems] at hmissed
    exact .inl ⟨rfl, hmissed.trans (Scan.missed_cons (Scan.step_closing nesting) rest)⟩
  · next content rest furthest hnone hitems =>
    rw [hitems] at hmissed hstop
    refine .inr (hmissed.trans ?_)
    dsimp only at hstop ⊢
    rcases hstop with ⟨hend | ⟨others, hend⟩, hfurthest⟩ | hstop
    · rw [hfurthest, hend]
      rfl
    · exact absurd hend (hnone others)
    · exact hstop

/-- Where any number of expressions may begin, the reader is back between them after each. -/
theorem Explores.missed_eq {reading : Reading SExpr} (hnesting : nesting.Unlimited)
    (h : Explores nesting text (.ok reading)) :
    Scan.missed ⟨.between, nesting⟩ text = Scan.missed ⟨.between, nesting⟩ reading.rest := by
  simp only [Explores, Nesting.begin_of_unlimited hnesting] at h
  rcases h with ⟨-, hmissed⟩ | ⟨hrest, hdigit, hmissed⟩
  · exact hmissed
  · rw [hmissed, hrest, Scan.missed_point hnesting hdigit]

/-- With enough fuel the reader looks at a text up to where it is missed, in a list as outside. -/
theorem explores (fuel : Nat) :
    (∀ nesting text, 2 * text.length + 1 ≤ fuel → nesting.IsOpen →
      text.dropWhile isBlank = text → Explores nesting text (item fuel text)) ∧
    ∀ nesting text, 2 * text.length + 2 ≤ fuel → nesting.Unlimited →
      ExploresAll nesting text (items fuel text) := by
  induction fuel with
  | zero => exact ⟨fun _ _ h => absurd h (by omega), fun _ _ h => absurd h (by omega)⟩
  | succ fuel ih =>
      obtain ⟨ihItem, ihItems⟩ := ih
      refine ⟨?_, ?_⟩
      · intro nesting text hfuel hopen hstart
        by_cases hparen : text.head? = some '('
        · obtain ⟨tail, rfl⟩ := List.head?_eq_some_iff.mp hparen
          rw [List.length_cons] at hfuel
          exact explores_list hopen (ihItems _ tail (by omega) (.inl (Nat.succ_pos _)))
        · rw [item_eq_single (by rintro tail rfl; exact hparen rfl)]
          exact explores_single hopen hstart hparen
      · intro nesting text hfuel hnesting
        have hle : (text.dropWhile isBlank).length ≤ text.length := List.length_dropWhile_le ..
        have hidem := List.dropWhile_idempotent isBlank text
        have hfirst := ihItem nesting (text.dropWhile isBlank) (by omega)
          (Nesting.isOpen_of_unlimited hnesting) hidem
        have hfollows := (follows fuel).1 (text.dropWhile isBlank) (by omega) hidem
        rw [items]
        dsimp only
        split
        · next furthest hitem =>
          rw [hitem] at hfirst
          exact ⟨Scan.missed_blank nesting text, hfirst⟩
        · next first hitem =>
          rw [hitem] at hfirst hfollows
          have hlength : first.rest.length < (text.dropWhile isBlank).length := hfollows.1
          obtain ⟨hmissed, hstop⟩ := ihItems nesting first.rest (by omega) hnesting
          exact ⟨by rw [Scan.missed_blank, hfirst.missed_eq hnesting, hmissed], hstop⟩

/-! ### Whole texts -/

/-- A text is read if it is missed nowhere, and else refused where it is missed. -/
def RefusedAt {α : Type} (result : Except Place α) (text : List Char) :
    Option (List Char) → Prop
  | none => ∃ value, result = .ok value
  | some rest => result = .error (Place.ofRest text rest)

/-- Outside of all lists none closes. -/
theorem missed_of_atEnd {room : Room} (h : AtEnd text) (hnonempty : text ≠ []) :
    Scan.missed ⟨.between, ⟨0, room⟩⟩ text = some text := by
  obtain rfl | ⟨tail, rfl⟩ := h
  · contradiction
  · rfl

/-- After the one expression nothing but blanks may follow. -/
theorem missed_full (hblank : ¬isBlank c) (tail : List Char) :
    Scan.missed ⟨.between, ⟨0, .full⟩⟩ (c :: tail) = some (c :: tail) := by
  have hnone : Scan.step ⟨.between, ⟨0, .full⟩⟩ c = none := by
    simp [Scan.step, Nesting.next, hblank, Nesting.IsOpen]
  rw [Scan.missed, hnone]
  rfl

theorem refusedAt_manyChars (text : List Char) :
    RefusedAt (manyChars text) text (Scan.missed ⟨.between, ⟨0, .many⟩⟩ text) := by
  have hitems := (explores (fuelFor text)).2 ⟨0, .many⟩ text (Nat.le_refl _) (.inr rfl)
  obtain ⟨hmissed, hstop⟩ := hitems
  rw [hmissed, manyChars]
  split
  · next exprs furthest hreading =>
    rw [hreading]
    exact ⟨exprs, rfl⟩
  · next exprs rest furthest hrest hreading =>
    rw [hreading] at hstop ⊢
    dsimp only at hstop ⊢
    rcases hstop with ⟨hend, hfurthest⟩ | hstop
    · rw [missed_of_atEnd hend hrest, hfurthest]
      rfl
    · rw [hstop]
      rfl

theorem refusedAt_oneChars (text : List Char) :
    RefusedAt (oneChars text) text (Scan.missed ⟨.between, ⟨0, .one⟩⟩ text) := by
  have hle : (text.dropWhile isBlank).length ≤ text.length := List.length_dropWhile_le ..
  have hitem := (explores (fuelFor text)).1 ⟨0, .one⟩ (text.dropWhile isBlank)
    (by rw [fuelFor]; omega) (.inr (by decide)) (List.dropWhile_idempotent ..)
  rw [Scan.missed_blank, oneChars]
  split
  · next furthest hreading =>
    rw [hreading] at hitem
    rcases hitem with ⟨hend | ⟨tail, hend⟩, rfl⟩ | hmissed
    · rw [hend]
      rfl
    · rw [hend]
      rfl
    · rw [hmissed]
      rfl
  · next reading hreading =>
    have hbegin : Nesting.begin ⟨0, .one⟩ = ⟨0, .full⟩ := rfl
    rw [hreading, Explores, hbegin] at hitem
    rcases hitem with ⟨hfurthest, hmissed⟩ | ⟨hrest, hdigit, hmissed⟩
    · rw [hmissed, Scan.missed_blank]
      have hle : (reading.rest.dropWhile isBlank).length ≤ reading.rest.length :=
        List.length_dropWhile_le ..
      split
      · next hnone =>
        rw [hnone]
        exact ⟨reading.value, rfl⟩
      · next hsome =>
        obtain ⟨c, tail, hcons⟩ := List.exists_cons_of_ne_nil hsome
        have hblank := head_dropWhile isBlank reading.rest c (by rw [hcons]; rfl)
        rw [hfurthest, further, if_neg (Nat.not_lt.mpr hle), hcons,
          missed_full (by simp [hblank]) tail]
        rfl
    · have hfull : ¬(⟨0, .full⟩ : Nesting).IsOpen := by decide
      have hpoint : reading.rest.dropWhile isBlank = '.' :: reading.furthest := by
        rw [hrest]
        rfl
      rw [hmissed, Scan.missed_point_full hfull hdigit, hpoint]
      simp [RefusedAt, further]

/-! ### Places -/

theorem after_eq (before : List Char) :
    Place.after before =
      ⟨(String.ofList before).utf8ByteSize, before.count '\n' + 1,
        (before.reverse.takeWhile (· ≠ '\n')).length + 1⟩ := by
  induction before using List.reverseRecOn with
  | nil => rfl
  | append_singleton before c ih =>
      have hafter : Place.after (before ++ [c]) = (Place.after before).advance c := by
        simp [Place.after]
      have hsize : (String.ofList (before ++ [c])).utf8ByteSize =
          (String.ofList before).utf8ByteSize + c.utf8Size := by
        simp [String.ofList_append]
      rw [hafter, ih, hsize, Place.advance]
      split
      · next hc => simp [hc]
      · next hc => simp [hc]

theorem ofRest_append (before rest : List Char) :
    Place.ofRest (before ++ rest) rest = Place.after before := by
  simp [Place.ofRest]

/-- The place at which a text is refused: the number of bytes before it, which end a character, its
line, and its column in characters, both counted from 1. -/
structure Refusal {α : Type} (reads : String → Except Place α) (text : String) (place : Place)
    (before after : List Char) : Prop where
  text_eq : text.toList = before ++ after
  boundary : String.Pos.Raw.IsValid text ⟨place.offset⟩
  offset_eq : place.offset = (String.ofList before).utf8ByteSize
  line_eq : place.line = before.count '\n' + 1
  column_eq : place.column = (before.reverse.takeWhile (· ≠ '\n')).length + 1
  unreadable :
    FirstUnreadable (fun chars => ∃ value, reads (String.ofList chars) = .ok value) before after

theorem RefusedAt.accepted_iff {α : Type} {result : Except Place α} {missed : Option (List Char)}
    (h : RefusedAt result text missed) : (∃ value, result = .ok value) ↔ missed = none := by
  cases missed with
  | none => exact iff_of_true h rfl
  | some rest =>
      refine iff_of_false ?_ nofun
      rintro ⟨value, hvalue⟩
      rw [RefusedAt, hvalue] at h
      contradiction

theorem RefusedAt.missed_eq {α : Type} {result : Except Place α} {missed : Option (List Char)}
    {place : Place} (h : RefusedAt result text missed) (hplace : result = .error place) :
    ∃ rest, missed = some rest ∧ place = Place.ofRest text rest := by
  cases missed with
  | none =>
      obtain ⟨value, hvalue⟩ := h
      rw [hvalue] at hplace
      contradiction
  | some rest =>
      rw [RefusedAt, hplace] at h
      exact ⟨rest, rfl, Except.error.inj h⟩

theorem exists_refusal {α : Type} {reads : String → Except Place α} {nesting : Nesting}
    (hreads : ∀ text,
      RefusedAt (reads text) text.toList (Scan.missed ⟨.between, nesting⟩ text.toList))
    {text : String} {place : Place} (h : reads text = .error place) :
    ∃ before after, Refusal reads text place before after := by
  obtain ⟨rest, hmissed, rfl⟩ := (hreads text).missed_eq h
  obtain ⟨before, htext, hfirst⟩ := Scan.firstUnreadable_of_missed (by simp) hmissed
  have haccepted : (fun chars => ∃ value, reads (String.ofList chars) = .ok value) =
      Scan.Reads ⟨.between, nesting⟩ := by
    funext chars
    have hiff := (hreads (String.ofList chars)).accepted_iff
    rw [String.toList_ofList, Scan.missed_eq_none_iff] at hiff
    exact propext hiff
  have hplace : Place.ofRest text.toList rest = Place.after before := by
    rw [htext, ofRest_append]
  have hsplit : text = String.ofList before ++ String.ofList rest := by
    rw [← String.ofList_append, ← htext, String.ofList_toList]
  refine ⟨before, rest, htext, ?_, ?_, ?_, ?_, haccepted ▸ hfirst⟩
  · rw [hplace, after_eq]
    exact String.Pos.Raw.isValid_iff_exists_append.mpr ⟨_, _, hsplit, rfl⟩
  all_goals rw [hplace, after_eq]

/-- A text that is refused, as one expression or as any number of them, becomes unreadable at the
place where it is refused: what stands before the place can be completed to a text that is read, and
no text that is read goes on from it as this one does. -/
theorem refused_where_unreadable (text : String) (place : Place) :
    (read text = .error place → ∃ before after, Refusal read text place before after) ∧
      (readMany text = .error place → ∃ before after, Refusal readMany text place before after) :=
  ⟨exists_refusal fun text => refusedAt_oneChars text.toList,
    exists_refusal fun text => refusedAt_manyChars text.toList⟩

/-- A point after digits is looked at and left, so the place is after it. A character of two bytes
is one column. -/
theorem refused_where_unreadable_point :
    (∃ before after, Refusal read "\n1.)" ⟨3, 2, 3⟩ before after) ∧
      ∃ before after, Refusal readMany "|é| #y" ⟨5, 1, 5⟩ before after :=
  ⟨(refused_where_unreadable "\n1.)" ⟨3, 2, 3⟩).1 (by decide +kernel),
    (refused_where_unreadable "|é| #y" ⟨5, 1, 5⟩).2 (by decide +kernel)⟩

end SmtSession.SExpr
