/-!
# Scanning JSON text

Steps that take one piece from the front of a JSON text and return what is left. A text can fail in
three ways: it ends too early, it breaks the grammar, or it holds a value of the wrong kind.
-/

namespace SmtSession.Json.Scan

inductive Fault where
  | truncated
  | malformed
  | mismatch
deriving DecidableEq

/-- What was taken from the front of a text, and the text left over. -/
abbrev Step (α : Type) := Except Fault (α × List Char)

def isBlank (c : Char) : Bool := c = ' ' || c = '\t' || c = '\n' || c = '\r'

def skipBlanks (text : List Char) : List Char := text.dropWhile isBlank

def literal : List Char → List Char → Except Fault (List Char)
  | [], text => .ok text
  | _ :: _, [] => .error .truncated
  | c :: letters, d :: text => if c = d then literal letters text else .error .malformed

/-! ## Strings -/

def hexDigit? (c : Char) : Option Nat :=
  if c.isDigit then some (c.toNat - '0'.toNat)
  else if 'a' ≤ c ∧ c ≤ 'f' then some (c.toNat - 'a'.toNat + 10)
  else if 'A' ≤ c ∧ c ≤ 'F' then some (c.toNat - 'A'.toNat + 10)
  else none

/-- The four digits after `\u`. A text with fewer than four bytes left has ended too early. -/
def codeUnit (text : List Char) : Step Nat :=
  if text.foldl (fun size c => size + c.utf8Size) 0 < 4 then .error .truncated
  else
    match text with
    | a :: b :: c :: d :: rest =>
      match [a, b, c, d].mapM hexDigit? with
      | some digits => .ok (digits.foldl (fun n digit => 16 * n + digit) 0, rest)
      | none => .error .malformed
    | _ => .error .malformed

def isLeadingSurrogate (unit : Nat) : Bool := 0xd800 ≤ unit && unit < 0xdc00

def isTrailingSurrogate (unit : Nat) : Bool := 0xdc00 ≤ unit && unit < 0xe000

/-- The second half of a character outside the first plane. -/
def trailingUnit (leading : Nat) (text : List Char) : Step Char :=
  match literal ['\\', 'u'] text with
  | .error fault => .error fault
  | .ok text =>
    match codeUnit text with
    | .error fault => .error fault
    | .ok (trailing, rest) =>
      if isTrailingSurrogate trailing then
        .ok (Char.ofNat (0x10000 + (leading - 0xd800) * 0x400 + (trailing - 0xdc00)), rest)
      else .error .malformed

/-- The character written as `\u` and digits. Halves of a pair have to come in pairs. -/
def unicodeEscape (text : List Char) : Step Char :=
  match codeUnit text with
  | .error fault => .error fault
  | .ok (unit, rest) =>
    if isTrailingSurrogate unit then .error .malformed
    else if isLeadingSurrogate unit then trailingUnit unit rest
    else .ok (Char.ofNat unit, rest)

def shortEscape? : Char → Option Char
  | '"' => some '"'
  | '\\' => some '\\'
  | '/' => some '/'
  | 'b' => some '\x08'
  | 'f' => some '\x0c'
  | 'n' => some '\n'
  | 'r' => some '\r'
  | 't' => some '\t'
  | _ => none

def prepend (c : Char) : List Char × List Char → List Char × List Char
  | (chars, rest) => (c :: chars, rest)

/-- The characters up to the closing quote, read with `unicode` for the escapes of code units. The
first argument bounds the number of characters. -/
def stringWith (unicode : List Char → Step Char) : Nat → List Char → Step (List Char)
  | 0, _ => .error .truncated
  | _ + 1, [] => .error .truncated
  | fuel + 1, c :: text =>
    if c = '"' then .ok ([], text)
    else if c = '\\' then
      match text with
      | [] => .error .truncated
      | 'u' :: text =>
        match unicode text with
        | .error fault => .error fault
        | .ok (char, rest) => (stringWith unicode fuel rest).map (prepend char)
      | letter :: text =>
        match shortEscape? letter with
        | none => .error .malformed
        | some char => (stringWith unicode fuel text).map (prepend char)
    else if c.toNat < 0x20 then .error .malformed
    else (stringWith unicode fuel text).map (prepend c)

def string (text : List Char) : Step String :=
  (stringWith unicodeEscape (text.length + 1) text).map fun (chars, rest) =>
    (String.ofList chars, rest)

/-- Skips a string after its opening quote; halves of a pair may stand alone. -/
def skipString (text : List Char) : Except Fault (List Char) :=
  (stringWith (fun text => (codeUnit text).map fun (_, rest) => (' ', rest)) (text.length + 1)
    text).map (·.2)

/-! ## Numbers -/

structure Numeral where
  negative : Bool
  whole : List Char
  fraction : List Char
  /-- Whether the exponent is negative, and its digits. -/
  exponent : Option (Bool × List Char)

def digits (text : List Char) : Step (List Char) :=
  match text with
  | [] => .error .truncated
  | c :: _ =>
    if c.isDigit then .ok (text.takeWhile Char.isDigit, text.dropWhile Char.isDigit)
    else .error .malformed

/-- Digits that do not begin with a zero, or a zero alone. -/
def wholePart (text : List Char) : Step (List Char) :=
  match text with
  | '0' :: c :: _ => if c.isDigit then .error .malformed else .ok (['0'], text.tail)
  | _ => digits text

def fractionPart (text : List Char) : Step (List Char) :=
  match text with
  | '.' :: text => digits text
  | _ => .ok ([], text)

def exponentPart (text : List Char) : Step (Option (Bool × List Char)) :=
  let signed (negative : Bool) (text : List Char) :=
    (digits text).map fun (digits, rest) => (some (negative, digits), rest)
  match text with
  | c :: text =>
    if c = 'e' || c = 'E' then
      match text with
      | '-' :: text => signed true text
      | '+' :: text => signed false text
      | text => signed false text
    else .ok (none, c :: text)
  | [] => .ok (none, [])

def numeral (text : List Char) : Step Numeral :=
  let (negative, text) :=
    match text with
    | '-' :: text => (true, text)
    | text => (false, text)
  match wholePart text with
  | .error fault => .error fault
  | .ok (whole, text) =>
    match fractionPart text with
    | .error fault => .error fault
    | .ok (fraction, text) =>
      (exponentPart text).map fun (exponent, rest) => (⟨negative, whole, fraction, exponent⟩, rest)

def digitsValue (digits : List Char) : Nat :=
  digits.foldl (fun n c => 10 * n + (c.toNat - '0'.toNat)) 0

/-- A power of ten and the word it is multiplied with. -/
structure Scaled where
  significand : Nat
  exponent : Int

/-- Takes the digits that fit the word and counts the others. -/
def scaleWhole : List Char → Scaled → Scaled
  | [], scaled => scaled
  | c :: digits, scaled =>
    let next := 10 * scaled.significand + (c.toNat - '0'.toNat)
    if next < UInt64.size then scaleWhole digits { scaled with significand := next }
    else { scaled with exponent := scaled.exponent + (digits.length + 1) }

/-- Takes the digits that fit the word and drops the others. -/
def scaleFraction : List Char → Scaled → Scaled
  | [], scaled => scaled
  | c :: digits, scaled =>
    let next := 10 * scaled.significand + (c.toNat - '0'.toNat)
    if next < UInt64.size then scaleFraction digits ⟨next, scaled.exponent - 1⟩ else scaled

/-- The nearest number with 53 significant bits; of two the even one. -/
def roundTo53 (n : Nat) : Nat :=
  let excess := n.log2 + 1 - 53
  let unit := Nat.pow 2 excess
  let quotient := n / unit
  let double := 2 * (n % unit)
  if double < unit || (double = unit && quotient % 2 = 0) then quotient * unit
  else (quotient + 1) * unit

def Numeral.isTooLarge (numeral : Numeral) : Bool :=
  let scaled := scaleFraction numeral.fraction (scaleWhole numeral.whole ⟨0, 0⟩)
  let exponent :=
    match numeral.exponent with
    | none => scaled.exponent
    | some (true, digits) => scaled.exponent - digitsValue digits
    | some (false, digits) =>
      if digitsValue digits < Nat.pow 2 31 then scaled.exponent + digitsValue digits
      else Nat.pow 2 31
  if scaled.significand = 0 then false
  else if exponent < 0 then false
  else if 308 < exponent then true
  else
    Nat.pow 2 1024 - Nat.pow 2 970 ≤
      roundTo53 scaled.significand * roundTo53 (Nat.pow 10 exponent.toNat)

/-- The integer written without fraction and exponent. A zero with a minus is no integer. -/
def Numeral.int? (numeral : Numeral) : Option Int :=
  if !numeral.fraction.isEmpty || numeral.exponent.isSome then none
  else
    let magnitude := digitsValue numeral.whole
    if numeral.negative then if magnitude = 0 then none else some (-magnitude)
    else some magnitude

/-- A number that a double can hold at least roughly. -/
def number (text : List Char) : Step Numeral :=
  match numeral text with
  | .error fault => .error fault
  | .ok (numeral, rest) => if numeral.isTooLarge then .error .malformed else .ok (numeral, rest)

/-! ## Values that are not used -/

def startsNumber (c : Char) : Bool := c = '-' || c.isDigit

mutual

def skipValue : Nat → List Char → Except Fault (List Char)
  | 0, _ => .error .truncated
  | fuel + 1, text =>
    match skipBlanks text with
    | [] => .error .truncated
    | 'n' :: rest => literal ['u', 'l', 'l'] rest
    | 't' :: rest => literal ['r', 'u', 'e'] rest
    | 'f' :: rest => literal ['a', 'l', 's', 'e'] rest
    | '"' :: rest => skipString rest
    | '[' :: rest =>
      match skipBlanks rest with
      | ']' :: rest => .ok rest
      | [] => .error .truncated
      | rest => skipItems fuel rest
    | '\x7b' :: rest =>
      match skipBlanks rest with
      | '\x7d' :: rest => .ok rest
      | [] => .error .truncated
      | rest => skipMembers fuel rest
    | c :: rest =>
      if startsNumber c then
        match numeral (c :: rest) with
        | .ok (_, rest) => .ok rest
        | .error _ => .error .malformed
      else .error .malformed

def skipItems : Nat → List Char → Except Fault (List Char)
  | 0, _ => .error .truncated
  | fuel + 1, text =>
    match skipValue fuel text with
    | .error fault => .error fault
    | .ok rest =>
      match skipBlanks rest with
      | ',' :: rest => skipItems fuel rest
      | ']' :: rest => .ok rest
      | [] => .error .truncated
      | _ => .error .malformed

def skipMembers : Nat → List Char → Except Fault (List Char)
  | 0, _ => .error .truncated
  | fuel + 1, text =>
    match skipBlanks text with
    | [] => .error .truncated
    | '"' :: rest =>
      match skipString rest with
      | .error fault => .error fault
      | .ok rest =>
        match skipBlanks rest with
        | [] => .error .truncated
        | ':' :: rest =>
          match skipValue fuel rest with
          | .error fault => .error fault
          | .ok rest =>
            match skipBlanks rest with
            | ',' :: rest => skipMembers fuel rest
            | '\x7d' :: rest => .ok rest
            | [] => .error .truncated
            | _ => .error .malformed
        | _ => .error .malformed
    | _ => .error .malformed

end

/-- Skips one value; every call takes at least one character or is followed by one that does. -/
def skip (text : List Char) : Except Fault (List Char) := skipValue (2 * text.length + 2) text

/-- The fault of a value that is not of the kind asked for: the kind, unless the value itself is
ill-formed. Arrays and objects are not looked into. -/
def wrongKind (text : List Char) : Fault :=
  let faultOf {α : Type} : Except Fault α → Fault
    | .error fault => fault
    | .ok _ => .mismatch
  match text with
  | [] => .truncated
  | 'n' :: rest => faultOf (literal ['u', 'l', 'l'] rest)
  | 't' :: rest => faultOf (literal ['r', 'u', 'e'] rest)
  | 'f' :: rest => faultOf (literal ['a', 'l', 's', 'e'] rest)
  | '"' :: rest => faultOf (string rest)
  | '[' :: _ => .mismatch
  | '\x7b' :: _ => .mismatch
  | c :: rest => if startsNumber c then faultOf (number (c :: rest)) else .malformed

end SmtSession.Json.Scan
