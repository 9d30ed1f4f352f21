import SmtSession.Json.Scan
import SmtSession.Settings.Basic

/-!
# Reading settings

Settings are written as a JSON object with any of the fields, each at most once, or as an array of
the fields in order. A field left out has its default, and unknown members of an object are skipped.
-/

namespace SmtSession.Settings

open Json.Scan

inductive Field where
  | timeout
  | counterexampleLimit
  | modelGeneration
  | modelCompletion
  | typeCheck
deriving DecidableEq

namespace Field

def all : List Field := [timeout, counterexampleLimit, modelGeneration, modelCompletion, typeCheck]

def name : Field → String
  | .timeout => "timeout"
  | .counterexampleLimit => "counterexampleLimit"
  | .modelGeneration => "modelGeneration"
  | .modelCompletion => "modelCompletion"
  | .typeCheck => "typeCheck"

def ofName? (name : String) : Option Field := all.find? (·.name = name)

end Field

/-- A signed word or `null`. -/
def readWord (text : List Char) : Step (Option Int64) :=
  match skipBlanks text with
  | [] => .error .truncated
  | 'n' :: rest => (literal ['u', 'l', 'l'] rest).map (none, ·)
  | c :: rest =>
    if startsNumber c then
      match number (c :: rest) with
      | .error fault => .error fault
      | .ok (numeral, rest) =>
        match numeral.int? with
        | some n =>
          if Int64.minValue.toInt ≤ n ∧ n ≤ Int64.maxValue.toInt then .ok (some n.toInt64, rest)
          else .error .mismatch
        | none => .error .mismatch
    else .error (wrongKind (c :: rest))

def readBool (text : List Char) : Step Bool :=
  match skipBlanks text with
  | 't' :: rest => (literal ['r', 'u', 'e'] rest).map (true, ·)
  | 'f' :: rest => (literal ['a', 'l', 's', 'e'] rest).map (false, ·)
  | rest => .error (wrongKind rest)

def readField (settings : Settings) (field : Field) (text : List Char) : Step Settings :=
  match field with
  | .timeout => (readWord text).map fun (n, rest) => ({ settings with timeout := n }, rest)
  | .counterexampleLimit =>
    (readWord text).map fun (n, rest) => ({ settings with counterexampleLimit := n }, rest)
  | .modelGeneration =>
    (readBool text).map fun (b, rest) => ({ settings with modelGeneration := b }, rest)
  | .modelCompletion =>
    (readBool text).map fun (b, rest) => ({ settings with modelCompletion := b }, rest)
  | .typeCheck => (readBool text).map fun (b, rest) => ({ settings with typeCheck := b }, rest)

def endItems (text : List Char) : Except Fault (List Char) :=
  match skipBlanks text with
  | ']' :: rest => .ok rest
  | [] => .error .truncated
  | _ => .error .malformed

/-- The items of an array for `fields`, after at least one other item. -/
def readOtherItems (settings : Settings) (fields : List Field) (text : List Char) : Step Settings :=
  match fields with
  | [] => (endItems text).map (settings, ·)
  | field :: fields =>
    match skipBlanks text with
    | ']' :: rest => .ok (settings, rest)
    | ',' :: rest =>
      match skipBlanks rest with
      | ']' :: _ => .error .malformed
      | rest =>
        match readField settings field rest with
        | .error fault => .error fault
        | .ok (settings, rest) => readOtherItems settings fields rest
    | [] => .error .truncated
    | _ => .error .malformed

def readItems (text : List Char) : Step Settings :=
  match skipBlanks text, Field.all with
  | ']' :: rest, _ => .ok (default, rest)
  | [], _ => .error .truncated
  | rest, [] => .ok (default, rest)
  | rest, field :: fields =>
    match readField default field rest with
    | .error fault => .error fault
    | .ok (settings, rest) => readOtherItems settings fields rest

/-- What has been read of an object: the settings, and the fields that they were given by. -/
structure Draft where
  settings : Settings := default
  given : List Field := []

def readColon (text : List Char) : Except Fault (List Char) :=
  match skipBlanks text with
  | ':' :: rest => .ok rest
  | [] => .error .truncated
  | _ => .error .malformed

/-- One member of an object, after the opening quote of its name. A field may not be given twice. -/
def readMember (draft : Draft) (text : List Char) : Step Draft :=
  match string text with
  | .error fault => .error fault
  | .ok (name, rest) =>
    match Field.ofName? name with
    | none =>
      match readColon rest with
      | .error fault => .error fault
      | .ok rest => (skip rest).map (draft, ·)
    | some field =>
      if draft.given.contains field then .error .mismatch
      else
        match readColon rest with
        | .error fault => .error fault
        | .ok rest =>
          (readField draft.settings field rest).map fun (settings, rest) =>
            (⟨settings, field :: draft.given⟩, rest)

/-- The members of an object from the first character of one of them, and the end of the object. -/
def readMembers : Nat → Draft → List Char → Step Draft
  | 0, _, _ => .error .truncated
  | fuel + 1, draft, text =>
    match skipBlanks text with
    | '"' :: rest =>
      match readMember draft rest with
      | .error fault => .error fault
      | .ok (draft, rest) =>
        match skipBlanks rest with
        | '\x7d' :: rest => .ok (draft, rest)
        | ',' :: rest => readMembers fuel draft rest
        | [] => .error .truncated
        | _ => .error .malformed
    | [] => .error .truncated
    | _ => .error .malformed

def readObject (text : List Char) : Step Settings :=
  match skipBlanks text with
  | '\x7d' :: rest => .ok (default, rest)
  | rest => (readMembers (rest.length + 1) {} rest).map fun (draft, rest) => (draft.settings, rest)

def readChars (text : List Char) : Step Settings :=
  match skipBlanks text with
  | '\x7b' :: rest => readObject rest
  | '[' :: rest => readItems rest
  | rest => .error (wrongKind rest)

/-- The settings written in a text, after which only blanks may stand. -/
def read (text : String) : Except Fault Settings :=
  match readChars text.toList with
  | .error fault => .error fault
  | .ok (settings, rest) =>
    match skipBlanks rest with
    | [] => .ok settings
    | _ => .error .malformed

end SmtSession.Settings
