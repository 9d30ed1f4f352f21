import SmtSession.Proofs.Tokens

/-!
# What a text can go on with

Where a text breaks off, little decides what it can go on with: the token it breaks off in, the
number of lists that are open, and whether another expression may begin outside of them. Every such
place can be completed to a text that is read, and with a character that has no place there none is.
So the first such character is where a text becomes unreadable.

Only the mark of a bit vector is taken in one piece with the character after it. The place stays
before the mark until both are there.
-/

namespace SmtSession.SExpr

open Reader

/-- A text in two parts whose first can be completed to an accepted text, and no accepted text goes
on from it with the next character; where that is a hash, none goes on with the next two. -/
structure FirstUnreadable (accepted : List Char → Prop) (before after : List Char) : Prop where
  viable : ∃ text, accepted (before ++ text)
  single : ∀ c rest, after = c :: rest → c ≠ '#' → ∀ text, ¬accepted (before ++ c :: text)
  pair : ∀ c rest, after = '#' :: c :: rest → ∀ text, ¬accepted (before ++ '#' :: c :: text)

/-- The characters that a token goes on with. -/
inductive Kind where
  | symbol
  | decimal
  | binary
  | hexadecimal

def Kind.holds : Kind → Char → Bool
  | symbol => isSymbolChar
  | decimal => Char.isDigit
  | binary => isBinaryDigit
  | hexadecimal => isHexDigit

theorem Kind.isSymbolChar_of_holds {kind : Kind} {c : Char} (h : kind.holds c) :
    isSymbolChar c := by
  cases kind with
  | symbol => exact h
  | decimal => exact isSymbolChar_of_isDigit h
  | binary => exact isSymbolChar_of_isDigit (isDigit_of_isBinaryDigit h)
  | hexadecimal => exact isSymbolChar_of_isHexDigit h

theorem Kind.holds_zero (kind : Kind) : kind.holds '0' := by
  cases kind <;> decide

/-- What a text breaks off in. -/
inductive Mode where
  | between
  /-- A token that is complete as it stands. -/
  | token (kind : Kind)
  /-- The digits before a possible point. -/
  | digits
  /-- The point after digits, which belongs to them only if a digit follows. -/
  | point
  /-- Quotes, bars or a comment, up to the closing character. -/
  | enclosed (close : Char)
  /-- The first half of the mark of a bit vector. -/
  | mark
  /-- A bit vector without any digits yet. -/
  | bits (kind : Kind)

/-- How many more expressions may begin outside of all lists. -/
inductive Room where
  | full
  | one
  | many
deriving DecidableEq

structure Nesting where
  depth : Nat
  room : Room

structure Scan where
  mode : Mode
  nesting : Nesting

/-- The mode that the first character of a token leads to. -/
def Mode.first? (c : Char) : Option Mode :=
  if c = '"' ∨ c = '|' then some (.enclosed c)
  else if c = ';' then some (.enclosed '\n')
  else if c = '#' then some .mark
  else if c.isDigit then some .digits
  else if isSymbolStart c then some (.token .symbol)
  else none

namespace Nesting

/-- Whether another expression may begin. -/
def IsOpen (nesting : Nesting) : Prop := 0 < nesting.depth ∨ nesting.room ≠ .full

instance (nesting : Nesting) : Decidable nesting.IsOpen :=
  inferInstanceAs (Decidable (_ ∨ _))

/-- Whether any number of expressions may begin. -/
def Unlimited (nesting : Nesting) : Prop := 0 < nesting.depth ∨ nesting.room = .many

/-- What remains once another expression has begun. -/
def begin (nesting : Nesting) : Nesting :=
  if nesting.depth = 0 ∧ nesting.room = .one then { nesting with room := .full } else nesting

theorem begin_of_unlimited {nesting : Nesting} (h : nesting.Unlimited) :
    nesting.begin = nesting := by
  refine if_neg ?_
  rintro ⟨hdepth, hroom⟩
  rcases h with h | h
  · omega
  · rw [hroom] at h
    contradiction

theorem isOpen_of_unlimited {nesting : Nesting} (h : nesting.Unlimited) : nesting.IsOpen :=
  h.imp_right fun hroom => by simp [hroom]

/-- What remains inside of a list that has begun. -/
def inner (nesting : Nesting) : Nesting := { nesting.begin with depth := nesting.depth + 1 }

/-- Outside of tokens, by one character. -/
def next (nesting : Nesting) (c : Char) : Option Scan :=
  if isBlank c then some ⟨.between, nesting⟩
  else if c = ')' then
    match nesting.depth with
    | 0 => none
    | depth + 1 => some ⟨.between, { nesting with depth }⟩
  else if nesting.IsOpen then
    if c = '(' then some ⟨.between, nesting.inner⟩
    else (Mode.first? c).map (⟨·, nesting.begin⟩)
  else none

end Nesting

namespace Scan

def step (scan : Scan) (c : Char) : Option Scan :=
  let nesting := scan.nesting
  match scan.mode with
  | .between => nesting.next c
  | .token kind => if kind.holds c then some scan else nesting.next c
  | .digits =>
    if c.isDigit then some scan
    else if c = '.' then some ⟨.point, nesting⟩
    else nesting.next c
  | .point =>
    if c.isDigit then some ⟨.token .decimal, nesting⟩
    -- The digits ended before the point, which begins a symbol.
    else if nesting.IsOpen then
      if isSymbolChar c then some ⟨.token .symbol, nesting.begin⟩ else nesting.begin.next c
    else none
  | .enclosed close => some (if c = close then ⟨.between, nesting⟩ else scan)
  | .mark =>
    if c = 'b' then some ⟨.bits .binary, nesting⟩
    else if c = 'x' then some ⟨.bits .hexadecimal, nesting⟩
    else none
  | .bits kind => if kind.holds c then some ⟨.token kind, nesting⟩ else none

section Step

variable {nesting : Nesting} {kind : Kind} {mode : Mode} {c : Char}

theorem step_blank (h : isBlank c) :
    step ⟨.between, nesting⟩ c = some ⟨.between, nesting⟩ := if_pos h

theorem step_opening (h : nesting.IsOpen) :
    step ⟨.between, nesting⟩ '(' = some ⟨.between, nesting.inner⟩ := by
  simp [step, Nesting.next, isBlank, h]

/-- The end of a list that has begun leads back to where it began. -/
theorem step_closing (nesting : Nesting) :
    step ⟨.between, nesting.inner⟩ ')' = some ⟨.between, nesting.begin⟩ := by
  have hdepth : nesting.begin.depth = nesting.depth := by
    unfold Nesting.begin
    split <;> rfl
  simp only [step, Nesting.next, Nesting.inner, ← hdepth]
  rfl

theorem step_token (h : kind.holds c) :
    step ⟨.token kind, nesting⟩ c = some ⟨.token kind, nesting⟩ := if_pos h

theorem step_digits (h : c.isDigit) :
    step ⟨.digits, nesting⟩ c = some ⟨.digits, nesting⟩ := if_pos h

theorem step_between (hopen : nesting.IsOpen) (hblank : ¬isBlank c) (hparen : c ∉ ['(', ')']) :
    step ⟨.between, nesting⟩ c = (Mode.first? c).map (⟨·, nesting.begin⟩) := by
  simp only [List.mem_cons, List.not_mem_nil, or_false, not_or] at hparen
  simp only [step, Nesting.next, if_neg hblank, if_neg hparen.1, if_neg hparen.2, if_pos hopen]

/-- The first character of a token leads into it. -/
theorem step_first (hopen : nesting.IsOpen) (hblank : ¬isBlank c) (hparen : c ∉ ['(', ')'])
    (h : Mode.first? c = some mode) :
    step ⟨.between, nesting⟩ c = some ⟨mode, nesting.begin⟩ := by
  rw [step_between hopen hblank hparen, h]
  rfl

end Step

/-- Whether the text may end here. -/
def IsComplete (scan : Scan) : Prop :=
  match scan.mode with
  | .between | .token _ | .digits => scan.nesting.depth = 0 ∧ scan.nesting.room ≠ .one
  | .point => scan.nesting.depth = 0 ∧ scan.nesting.room = .many
  | _ => False

instance (scan : Scan) : Decidable scan.IsComplete := by
  unfold IsComplete
  split <;> infer_instance

def run (scan : Scan) (text : List Char) : Option Scan := text.foldlM step scan

/-- What was taken of a mark that is not complete. -/
def pending (scan : Scan) : List Char :=
  match scan.mode with
  | .mark => ['#']
  | _ => []

/-- What is left of a text at the first place that no readable text goes on from as this one does.
If there is none, the text is readable. -/
def missed : Scan → List Char → Option (List Char)
  | scan, [] => if scan.IsComplete then none else some scan.pending
  | scan, c :: text =>
    match scan.step c with
    | none => some (scan.pending ++ c :: text)
    | some next => next.missed text

/-! ### Runs -/

variable {scan next : Scan} {text before rest : List Char} {c : Char}

@[simp]
theorem run_nil (scan : Scan) : scan.run [] = some scan := rfl

@[simp]
theorem run_cons (scan : Scan) (c : Char) (text : List Char) :
    scan.run (c :: text) = (scan.step c).bind fun next => next.run text := rfl

theorem run_append (scan : Scan) (before text : List Char) :
    scan.run (before ++ text) = (scan.run before).bind fun next => next.run text :=
  List.foldlM_append

theorem run_append_of_run (h : scan.run before = some next) (text : List Char) :
    scan.run (before ++ text) = next.run text := by
  rw [run_append, h, Option.bind_some]

/-- A text is readable from a place on. -/
def Reads (scan : Scan) (text : List Char) : Prop := ∃ last ∈ scan.run text, last.IsComplete

theorem missed_cons (h : scan.step c = some next) (text : List Char) :
    scan.missed (c :: text) = next.missed text := by
  rw [missed, h]

theorem missed_eq_none_iff : scan.missed text = none ↔ scan.Reads text := by
  induction text generalizing scan with
  | nil => simp [missed, Reads]
  | cons c text ih =>
      rw [missed, Reads, run_cons]
      cases hstep : scan.step c with
      | none => simp
      | some next => exact ih

theorem Reads.of_append (h : scan.Reads (before ++ text)) (hrun : scan.run before = some next) :
    next.Reads text := by
  rwa [Reads, run_append_of_run hrun] at h

/-- Nothing readable begins with a text that has no run. -/
theorem not_reads_of_run (h : scan.run before = none) (text : List Char) :
    ¬scan.Reads (before ++ text) := by
  rintro ⟨last, hlast, -⟩
  rw [run_append, h] at hlast
  contradiction

/-! ### The first place that is missed -/

theorem pending_cases (scan : Scan) :
    scan.mode = .mark ∧ scan.pending = ['#'] ∨ scan.mode ≠ .mark ∧ scan.pending = [] := by
  unfold pending
  split
  · next h => exact .inl ⟨h, rfl⟩
  · next h => exact .inr ⟨h, rfl⟩

theorem mark_of_first? (h : Mode.first? c = some .mark) : c = '#' := by
  grind [Mode.first?]

theorem mark_of_next {nesting : Nesting} (h : nesting.next c = some next)
    (hmark : next.mode = .mark) : c = '#' := by
  unfold Nesting.next at h
  split_ifs at h
  · cases h
    contradiction
  · split at h <;> cases h
    contradiction
  · cases h
    contradiction
  · obtain ⟨mode, hmode, rfl⟩ := Option.map_eq_some_iff.mp h
    obtain rfl : mode = .mark := hmark
    exact mark_of_first? hmode

/-- Only the first half of a mark leads into one. -/
theorem mark_of_step (h : scan.step c = some next) (hmark : next.mode = .mark) :
    scan.mode ≠ .mark ∧ c = '#' := by
  obtain ⟨mode, nesting⟩ := scan
  cases mode with
  | between => exact ⟨nofun, mark_of_next h hmark⟩
  | token | digits | point =>
      refine ⟨nofun, ?_⟩
      simp only [step] at h
      split_ifs at h
      all_goals first
        | exact mark_of_next h hmark
        | cases h; contradiction
  | enclosed | mark | bits =>
      simp only [step] at h
      split_ifs at h
      all_goals
        cases h
        contradiction

/-- No readable text goes on from a place with the next character of this text, or with the next two
if the first of them is the first half of a mark. -/
structure Blocks (scan : Scan) (text : List Char) : Prop where
  single : ∀ c rest, text = c :: rest → c ≠ '#' → scan.step c = none
  mark : ∀ c rest, text = '#' :: c :: rest → scan.run ['#', c] = none

theorem eq_of_run_pending {origin : Scan} (hpending : scan.pending = [])
    (h : origin.run scan.pending = some scan) : origin = scan := by
  rw [hpending] at h
  exact Option.some.inj h

theorem blocks_of_step {origin : Scan} (horigin : origin.run scan.pending = some scan)
    (h : scan.step c = none) (text : List Char) : origin.Blocks (scan.pending ++ c :: text) := by
  rcases scan.pending_cases with ⟨-, hpending⟩ | ⟨-, hpending⟩
  · rw [hpending] at horigin ⊢
    refine ⟨?_, ?_⟩
    · rintro _ _ ⟨⟩ hne
      exact absurd rfl hne
    · rintro _ _ ⟨⟩
      have hrun := run_append_of_run horigin [c]
      rwa [run_cons, h] at hrun
  · obtain rfl := eq_of_run_pending hpending horigin
    rw [hpending]
    refine ⟨?_, ?_⟩
    · rintro _ _ ⟨⟩ -
      exact h
    · rintro _ _ ⟨⟩
      rw [run_cons, h, Option.bind_none]

/-- What is missed is missed at a place that a text can go on from, but not as this one does. The
induction is on the text; inside of a mark the origin stays before it. -/
theorem of_missed {origin : Scan} (horigin : origin.run scan.pending = some scan)
    (h : scan.missed text = some rest) :
    ∃ before last, scan.pending ++ text = before ++ rest ∧ origin.run before = some last ∧
      last.Blocks rest := by
  induction text generalizing origin scan with
  | nil =>
      rw [missed] at h
      split at h
      · contradiction
      · obtain rfl := Option.some.inj h
        refine ⟨[], origin, List.append_nil _, rfl, ?_⟩
        rcases scan.pending_cases with ⟨-, hpending⟩ | ⟨-, hpending⟩
        all_goals
          rw [hpending]
          exact ⟨by simp, by simp⟩
  | cons c text ih =>
      cases hstep : scan.step c with
      | none =>
          rw [missed, hstep] at h
          obtain rfl := Option.some.inj h
          exact ⟨[], origin, rfl, rfl, blocks_of_step horigin hstep text⟩
      | some next =>
          rw [missed_cons hstep] at h
          rcases next.pending_cases with ⟨hmark, hpending⟩ | ⟨-, hpending⟩
          · obtain ⟨hscan, rfl⟩ := mark_of_step hstep hmark
            have hnone : scan.pending = [] := by
              rcases scan.pending_cases with ⟨hmode, -⟩ | ⟨-, hnone⟩
              exacts [absurd hmode hscan, hnone]
            obtain rfl := eq_of_run_pending hnone horigin
            have hnext : origin.run next.pending = some next := by
              rw [hpending, run_cons, hstep]
              rfl
            have hmissed := ih hnext h
            rw [hpending] at hmissed
            rwa [hnone]
          · have hnext : next.run next.pending = some next := by rw [hpending, run_nil]
            obtain ⟨before, last, htext, hrun, hblocks⟩ := ih hnext h
            rw [hpending] at htext
            refine ⟨scan.pending ++ c :: before, last, ?_, ?_, hblocks⟩
            · rw [List.append_assoc, List.cons_append, ← htext]
              rfl
            · rw [run_append_of_run horigin, run_cons, hstep]
              exact hrun

/-! ### Completions -/

/-- Between expressions, or in a token that is complete as it stands. -/
def IsSettled (scan : Scan) : Prop :=
  match scan.mode with
  | .between | .token _ | .digits => True
  | _ => False

theorem isComplete_iff (h : scan.IsSettled) :
    scan.IsComplete ↔ scan.nesting.depth = 0 ∧ scan.nesting.room ≠ .one := by
  obtain ⟨mode, nesting⟩ := scan
  cases mode with
  | between | token | digits => exact Iff.rfl
  | _ => contradiction

/-- No token goes on with a parenthesis. -/
theorem step_paren (h : scan.IsSettled) (hc : c ∈ ['(', ')']) :
    scan.step c = scan.nesting.next c := by
  have hclear : ¬isSymbolChar c ∧ c ≠ '.' := by
    simp only [List.mem_cons, List.not_mem_nil, or_false] at hc
    rcases hc with rfl | rfl <;> decide
  obtain ⟨hsymbol, hpoint⟩ := hclear
  obtain ⟨mode, nesting⟩ := scan
  cases mode with
  | between => rfl
  | token kind => exact if_neg fun hkind => hsymbol (Kind.isSymbolChar_of_holds hkind)
  | digits =>
      have hdigit : ¬c.isDigit := fun hdigit => hsymbol (isSymbolChar_of_isDigit hdigit)
      exact (if_neg hdigit).trans (if_neg hpoint)
  | _ => contradiction

/-- Any token can be completed. -/
theorem exists_settled (scan : Scan) :
    ∃ text last, scan.run text = some last ∧ last.IsSettled ∧ last.nesting = scan.nesting := by
  obtain ⟨mode, nesting⟩ := scan
  cases mode with
  | between => exact ⟨[], _, rfl, trivial, rfl⟩
  | token kind => exact ⟨[], _, rfl, trivial, rfl⟩
  | digits => exact ⟨[], _, rfl, trivial, rfl⟩
  | point => exact ⟨['0'], _, rfl, trivial, rfl⟩
  | enclosed close => exact ⟨[close], ⟨.between, nesting⟩, by simp [step], trivial, rfl⟩
  | mark => exact ⟨['b', '0'], _, rfl, trivial, rfl⟩
  | bits kind =>
      exact ⟨['0'], ⟨.token kind, nesting⟩, by simp [step, kind.holds_zero], trivial, rfl⟩

/-- Any open lists can be closed. -/
theorem exists_closed (h : scan.IsSettled) :
    ∃ text last, scan.run text = some last ∧ last.IsSettled ∧
      last.nesting = { scan.nesting with depth := 0 } := by
  obtain ⟨mode, depth, room⟩ := scan
  induction depth generalizing mode with
  | zero => exact ⟨[], _, rfl, h, rfl⟩
  | succ depth ih =>
      obtain ⟨text, last, hrun, hsettled, hnesting⟩ := ih .between trivial
      refine ⟨')' :: text, last, ?_, hsettled, hnesting⟩
      rw [run_cons, step_paren h (by simp)]
      exact hrun

/-- Every place can be completed to a readable text. -/
theorem exists_reads (scan : Scan) : ∃ text, scan.Reads text := by
  obtain ⟨inner, settled, hinner, hsettled, -⟩ := scan.exists_settled
  obtain ⟨closing, closed, hclosing, hclosed, hnesting⟩ := exists_closed hsettled
  have hrun : scan.run (inner ++ closing) = some closed := by
    rw [run_append_of_run hinner, hclosing]
  have hdepth : closed.nesting.depth = 0 := by rw [hnesting]
  by_cases hroom : closed.nesting.room = .one
  · -- Where an expression has to be read still, the empty list will do.
    refine ⟨inner ++ closing ++ ['(', ')'], ⟨.between, ⟨0, .full⟩⟩, ?_, rfl, by simp⟩
    obtain ⟨mode, depth, room⟩ := closed
    obtain rfl : depth = 0 := hdepth
    obtain rfl : room = .one := hroom
    rw [run_append_of_run hrun, run_cons, step_paren hclosed (by simp)]
    rfl
  · exact ⟨inner ++ closing, closed, hrun, (isComplete_iff hclosed).mpr ⟨hdepth, hroom⟩⟩

/-- Where a text is missed, it becomes unreadable. -/
theorem firstUnreadable_of_missed (hmode : scan.mode ≠ .mark) (h : scan.missed text = some rest) :
    ∃ before, text = before ++ rest ∧ FirstUnreadable scan.Reads before rest := by
  rcases scan.pending_cases with ⟨hmark, -⟩ | ⟨-, hpending⟩
  · contradiction
  have horigin : scan.run scan.pending = some scan := by rw [hpending, run_nil]
  obtain ⟨before, last, htext, hrun, hblocks⟩ := of_missed horigin h
  rw [hpending] at htext
  obtain ⟨completion, hreads⟩ := last.exists_reads
  refine ⟨before, htext, ⟨completion, ?_⟩, ?_, ?_⟩
  · rwa [Reads, run_append_of_run hrun]
  · intro c more hrest hc text hreads
    have hnone : last.run [c] = none := by
      rw [run_cons, hblocks.single c more hrest hc]
      rfl
    exact not_reads_of_run hnone text (hreads.of_append hrun)
  · intro c more hrest text hreads
    exact not_reads_of_run (hblocks.mark c more hrest) text (hreads.of_append hrun)

end Scan

end SmtSession.SExpr
