/-!
# Places in a text
-/

namespace SmtSession

/-- A place in a text: how many bytes stand before it, its line from 1, and its column from 1
counted in characters. -/
structure Place where
  offset : Nat
  line : Nat
  column : Nat
deriving DecidableEq

namespace Place

def start : Place := ⟨0, 1, 1⟩

def advance (place : Place) (c : Char) : Place :=
  if c = '\n' then ⟨place.offset + c.utf8Size, place.line + 1, 1⟩
  else ⟨place.offset + c.utf8Size, place.line, place.column + 1⟩

def after (before : List Char) : Place := before.foldl advance start

/-- The place in `text` at which only `rest` is left. -/
def ofRest (text rest : List Char) : Place := after (text.take (text.length - rest.length))

end Place

end SmtSession
