/-!
# Lines
-/

namespace SmtSession.Text

/-- The pieces of a text between its line ends; there is always one. -/
def lines : List Char → List (List Char)
  | [] => [[]]
  | c :: text =>
    if c = '\n' then [] :: lines text
    else
      match lines text with
      | [] => [[c]]
      | line :: rest => (c :: line) :: rest

def newline : UInt8 := 10

/-- Bytes cut after each line end. Only the last line may lack one, and no line is empty. -/
def byteLines : List UInt8 → List (List UInt8)
  | [] => []
  | b :: bytes =>
    if b = newline then [b] :: byteLines bytes
    else
      match byteLines bytes with
      | [] => [[b]]
      | line :: rest => (b :: line) :: rest

def bytesOf (text : String) : List UInt8 := text.toUTF8.data.toList

def ofBytes? (bytes : List UInt8) : Option String := String.fromUTF8? ⟨bytes.toArray⟩

@[simp]
theorem ofBytes?_bytesOf (text : String) : ofBytes? (bytesOf text) = some text := by
  have h : (⟨(bytesOf text).toArray⟩ : ByteArray) = text.toByteArray := rfl
  unfold ofBytes? String.fromUTF8?
  rw [h, dif_pos text.isValidUTF8]
  rfl

@[simp]
theorem flatten_byteLines (bytes : List UInt8) : (byteLines bytes).flatten = bytes := by
  induction bytes with
  | nil => rfl
  | cons b bytes ih =>
    rw [byteLines]
    split
    · simp [ih]
    · split
      · rename_i h
        rw [h] at ih
        simpa using ih
      · rename_i h
        rw [h] at ih
        simpa using ih

theorem byteLines_append {line : List UInt8} (h : newline ∉ line) (rest : List UInt8) :
    byteLines (line ++ newline :: rest) = (line ++ [newline]) :: byteLines rest := by
  induction line with
  | nil => simp [byteLines]
  | cons b line ih =>
    rw [List.mem_cons, not_or] at h
    have hb : b ≠ newline := Ne.symm h.1
    simp [byteLines, hb, ih h.2]

end SmtSession.Text
