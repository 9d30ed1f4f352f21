import SmtSession.Text.Quoted

/-!
# Labels

A solver reports with a counterexample the labels of the formulas that matter to it. The first
character of a label tells what it marks, and the rest is the identifier the caller attached.
-/

namespace SmtSession

/-- A label that begins with none of the known marks. -/
structure UnknownLabel where
  raw : String
deriving DecidableEq

def UnknownLabel.message (error : UnknownLabel) : String :=
  "unknown prefix in label " ++ Text.quote error.raw

namespace Label

inductive Kind where
  | positive
  | choice
  | tracking
deriving DecidableEq

def Kind.mark : Kind → Char
  | .positive => '+'
  | .choice => '|'
  | .tracking => '@'

def Kind.ofMark? : Char → Option Kind
  | '+' => some .positive
  | '|' => some .choice
  | '@' => some .tracking
  | _ => none

end Label

structure Label where
  kind : Label.Kind
  id : String
deriving DecidableEq

namespace Label

def print (label : Label) : String := String.ofList (label.kind.mark :: label.id.toList)

/-- What a label marks, by its first character. -/
def kindOf (raw : String) : Except UnknownLabel Kind :=
  match raw.toList.head?.bind Kind.ofMark? with
  | some kind => .ok kind
  | none => .error ⟨raw⟩

/-- The identifier in a label: all but the mark. -/
def idOf (raw : String) : Except UnknownLabel String := do
  let _ ← kindOf raw
  return String.ofList raw.toList.tail

def read (raw : String) : Except UnknownLabel Label := do
  let kind ← kindOf raw
  let id ← idOf raw
  return ⟨kind, id⟩

def readAll : List String → Except UnknownLabel (List Label)
  | [] => .ok []
  | raw :: raws =>
    match read raw with
    | .error error => .error error
    | .ok label => (readAll raws).map (label :: ·)

/-- The identifiers of all labels, in order, or the first label that cannot be read. -/
def idsOf (raws : List String) : Except UnknownLabel (List String) :=
  (readAll raws).map fun labels => labels.map Label.id

theorem ofMark?_mark (kind : Kind) : Kind.ofMark? kind.mark = some kind := by
  cases kind <;> rfl

theorem mark_of_ofMark? {mark : Char} {kind : Kind} (h : Kind.ofMark? mark = some kind) :
    kind.mark = mark := by
  unfold Kind.ofMark? at h
  split at h
  · obtain rfl := Option.some.inj h
    rfl
  · obtain rfl := Option.some.inj h
    rfl
  · obtain rfl := Option.some.inj h
    rfl
  · contradiction

theorem kindOf_print (label : Label) : kindOf label.print = .ok label.kind := by
  simp [kindOf, print, ofMark?_mark]

theorem idOf_print (label : Label) : idOf label.print = .ok label.id := by
  rw [idOf, kindOf_print, print, String.toList_ofList, List.tail_cons, String.ofList_toList]
  rfl

@[simp]
theorem read_print (label : Label) : read label.print = .ok label := by
  rw [read, kindOf_print, idOf_print]
  rfl

theorem idOf_of_kindOf_error {raw : String} {error : UnknownLabel}
    (h : kindOf raw = .error error) : idOf raw = .error error := by
  rw [idOf, h]
  rfl

theorem read_of_kindOf_error {raw : String} {error : UnknownLabel}
    (h : kindOf raw = .error error) : read raw = .error error := by
  rw [read, h]
  rfl

/-- What is refused is no label. -/
theorem print_or_refused (raw : String) :
    (∃ label : Label, label.print = raw) ∨ kindOf raw = .error ⟨raw⟩ := by
  unfold kindOf
  split
  · rename_i kind hkind
    obtain ⟨mark, hmark, hkind⟩ := Option.bind_eq_some_iff.mp hkind
    obtain ⟨id, hraw⟩ := List.head?_eq_some_iff.mp hmark
    refine Or.inl ⟨⟨kind, String.ofList id⟩, ?_⟩
    rw [print, mark_of_ofMark? hkind, String.toList_ofList, ← hraw, String.ofList_toList]
  · exact Or.inr rfl

/-- A label is written in one way only. -/
theorem print_of_read {raw : String} {label : Label} (h : read raw = .ok label) :
    label.print = raw := by
  rcases print_or_refused raw with ⟨written, rfl⟩ | hrefused
  · rw [read_print] at h
    rw [Except.ok.inj h]
  · rw [read_of_kindOf_error hrefused] at h
    contradiction

end Label

end SmtSession
