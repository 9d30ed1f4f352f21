import SmtSession.SExpr.Basic
import SmtSession.Text.Place

/-!
# Reading

Reads s-expressions from text. A text that cannot be read is refused at the furthest place the
reader looked at, which is where the last character that could have continued the text was missed.
-/

namespace SmtSession

namespace SExpr.Reader

def isBlank (c : Char) : Bool := c = ' ' || c = '\t' || c = '\n' || c = '\r'

def isSymbolStart (c : Char) : Bool :=
  c.isAlpha || ['_', '\'', '<', '>', ':', '=', '$', '@', '+', '-', '*', '/', '~', '&', '^', '?',
    '!', '.'].contains c

def isSymbolChar (c : Char) : Bool := isSymbolStart c || c.isDigit || c = '#' || c = '%'

def isBinaryDigit (c : Char) : Bool := c = '0' || c = '1'

def isHexDigit (c : Char) : Bool :=
  c.isDigit || ('a' ≤ c && c ≤ 'f') || ('A' ≤ c && c ≤ 'F')

/-- A value read from the front of a text, the text left over, and the text left at the furthest
place looked at, which is never before the text left over. -/
structure Reading (α : Type) where
  value : α
  rest : List Char
  furthest : List Char

/-- A reading, or the text left at the furthest place that was looked at in vain. -/
abbrev Attempt (α : Type) := Except (List Char) (Reading α)

/-- Digits as a numeral, or as a symbol if the number does not fit a machine word. -/
def integerAtom (digits : List Char) : Atom :=
  let value := digits.foldl (fun n c => 10 * n + (c.toNat - '0'.toNat)) 0
  if value < UInt64.size then .numeral value.toUInt64 else .symbol (String.ofList digits)

/-- Everything up to the closing quote, which cannot itself be quoted. -/
def quoted (close : Char) (text : List Char) : Attempt SExpr :=
  match text.dropWhile (· ≠ close) with
  | [] => .error []
  | _ :: rest => .ok ⟨symbol (String.ofList (text.takeWhile (· ≠ close))), rest, rest⟩

/-- Everything up to the end of the line, which has to be there. -/
def commentLine (text : List Char) : Attempt SExpr :=
  match text.dropWhile (· ≠ '\n') with
  | [] => .error []
  | _ :: rest => .ok ⟨.comment (String.ofList (text.takeWhile (· ≠ '\n'))), rest, rest⟩

/-- Digits, and a fraction if a point and at least one more digit follow. A point without a fraction
is looked at and left. -/
def number (text : List Char) : Attempt SExpr :=
  let digits := text.takeWhile Char.isDigit
  let rest := text.dropWhile Char.isDigit
  match rest with
  | '.' :: tail =>
    match tail.takeWhile Char.isDigit with
    | [] => .ok ⟨.atom (integerAtom digits), rest, tail⟩
    | fraction =>
      let rest := tail.dropWhile Char.isDigit
      .ok ⟨symbol (String.ofList (digits ++ '.' :: fraction)), rest, rest⟩
  | _ => .ok ⟨.atom (integerAtom digits), rest, rest⟩

/-- The digits of a bit vector after `#b` or `#x`; there has to be one. -/
def bitVector (mark : List Char) (isDigit : Char → Bool) (text : List Char) : Attempt SExpr :=
  match text.takeWhile isDigit with
  | [] => .error text
  | digits =>
    let rest := text.dropWhile isDigit
    .ok ⟨symbol (String.ofList (mark ++ digits)), rest, rest⟩

def single (text : List Char) : Attempt SExpr :=
  match text with
  | [] => .error []
  | '"' :: tail => quoted '"' tail
  | '|' :: tail => quoted '|' tail
  | ';' :: tail => commentLine tail
  | '#' :: 'b' :: tail => bitVector ['#', 'b'] isBinaryDigit tail
  | '#' :: 'x' :: tail => bitVector ['#', 'x'] isHexDigit tail
  | c :: _ =>
    if c.isDigit then number text
    else if isSymbolStart c then
      let rest := text.dropWhile isSymbolChar
      .ok ⟨symbol (String.ofList (text.takeWhile isSymbolChar)), rest, rest⟩
    else .error text

mutual

/-- One s-expression at the front of a text that does not begin with a blank. -/
def item : Nat → List Char → Attempt SExpr
  | 0, text => .error text
  | fuel + 1, '(' :: tail =>
    match items fuel tail with
    | ⟨content, ')' :: rest, _⟩ => .ok ⟨.list content, rest, rest⟩
    | ⟨_, _, furthest⟩ => .error furthest
  | _ + 1, text => single text

/-- As many s-expressions as the text begins with, and the blanks around them. -/
def items : Nat → List Char → Reading (List SExpr)
  | 0, text => ⟨[], text, text⟩
  | fuel + 1, text =>
    let start := text.dropWhile isBlank
    match item fuel start with
    | .error furthest => ⟨[], start, furthest⟩
    | .ok first =>
      let others := items fuel first.rest
      ⟨first.value :: others.value, others.rest, others.furthest⟩

end

/-- Enough for every text: at most two calls are made before a character is taken. -/
def fuelFor (text : List Char) : Nat := 2 * text.length + 2

def further (left right : List Char) : List Char :=
  if right.length < left.length then right else left

def manyChars (text : List Char) : Except Place (List SExpr) :=
  match items (fuelFor text) text with
  | ⟨exprs, [], _⟩ => .ok exprs
  | ⟨_, _, furthest⟩ => .error (Place.ofRest text furthest)

def oneChars (text : List Char) : Except Place SExpr :=
  match item (fuelFor text) (text.dropWhile isBlank) with
  | .error furthest => .error (Place.ofRest text furthest)
  | .ok reading =>
    match reading.rest.dropWhile isBlank with
    | [] => .ok reading.value
    | rest => .error (Place.ofRest text (further rest reading.furthest))

end SExpr.Reader

namespace SExpr

def readMany (text : String) : Except Place (List SExpr) := Reader.manyChars text.toList

def read (text : String) : Except Place SExpr := Reader.oneChars text.toList

end SExpr

end SmtSession
