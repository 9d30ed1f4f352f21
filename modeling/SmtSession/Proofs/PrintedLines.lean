import SmtSession.Solver.Dialogue

/-!
# Printed lines

Lines of text as bytes. What was printed line by line is read line by line, and a reply is all that
was printed before the marker, without the white space at its end.
-/

namespace SmtSession.Text

/-- Each line with a line end. -/
def unlines (lines : List String) : List Char := lines.flatMap fun line => line.toList ++ ['\n']

def isBlank (line : String) : Bool := line.toList.all isWhiteSpace

theorem unlines_cons (line : String) (lines : List String) :
    unlines (line :: lines) = line.toList ++ ['\n'] ++ unlines lines :=
  rfl

theorem unlines_append (lines later : List String) :
    unlines (lines ++ later) = unlines lines ++ unlines later :=
  List.flatMap_append

/-! ### Bytes -/

theorem bytesOf_ofList (text : List Char) :
    bytesOf (String.ofList text) = text.flatMap String.utf8EncodeChar := by
  unfold bytesOf
  change (String.ofList text).toByteArray.data.toList = _
  rw [String.toByteArray_ofList, List.utf8Encode, List.data_toByteArray]

theorem bytesOf_append (text later : List Char) :
    bytesOf (String.ofList (text ++ later)) =
      bytesOf (String.ofList text) ++ bytesOf (String.ofList later) := by
  rw [bytesOf_ofList, bytesOf_ofList, bytesOf_ofList, List.flatMap_append]

theorem eq_newline_of_mem {c : Char} (h : newline ∈ String.utf8EncodeChar c) : c = '\n' := by
  have hbyte (n : Nat) (hn : newline = UInt8.ofNat n) : n % 256 = 10 := by
    have hnat := congrArg UInt8.toNat hn
    simpa [newline] using hnat.symm
  unfold String.utf8EncodeChar at h
  simp only at h
  split at h
  · rw [List.mem_singleton] at h
    have hval := hbyte _ h
    refine Char.ext (UInt32.toNat_inj.mp ?_)
    change c.val.toNat = 10
    omega
  · split at h
    · simp only [List.mem_cons, List.not_mem_nil, or_false] at h
      rcases h with h | h <;> have := hbyte _ h <;> omega
    · split at h
      · simp only [List.mem_cons, List.not_mem_nil, or_false] at h
        rcases h with h | h | h <;> have := hbyte _ h <;> omega
      · simp only [List.mem_cons, List.not_mem_nil, or_false] at h
        rcases h with h | h | h | h <;> have := hbyte _ h <;> omega

theorem newline_not_mem_bytesOf {text : List Char} (h : '\n' ∉ text) :
    newline ∉ bytesOf (String.ofList text) := by
  rw [bytesOf_ofList]
  intro hmem
  obtain ⟨c, hc, hbyte⟩ := List.mem_flatMap.mp hmem
  rw [eq_newline_of_mem hbyte] at hc
  exact h hc

theorem byteLines_bytesOf_cons {line : List Char} (h : '\n' ∉ line) (rest : List UInt8) :
    byteLines (bytesOf (String.ofList (line ++ ['\n'])) ++ rest) =
      bytesOf (String.ofList (line ++ ['\n'])) :: byteLines rest := by
  have hnewline : bytesOf (String.ofList ['\n']) = [newline] := by
    rw [bytesOf_ofList]
    rfl
  rw [bytesOf_append, hnewline, List.append_assoc, List.singleton_append]
  exact byteLines_append (newline_not_mem_bytesOf h) rest

/-! ### White space at the end -/

theorem trimEnd_append_newline (text : List Char) : trimEnd (text ++ ['\n']) = trimEnd text := by
  have hspace : isWhiteSpace '\n' = true := by decide
  simp [trimEnd, hspace]

theorem trimEnd_append {later : List Char} (h : ¬later.all isWhiteSpace) (text : List Char) :
    trimEnd (text ++ later) = text ++ trimEnd later := by
  have hdrop : (later.reverse.dropWhile isWhiteSpace).isEmpty = false := by
    rw [Bool.eq_false_iff]
    intro hempty
    rw [List.isEmpty_iff] at hempty
    have htake := List.takeWhile_append_dropWhile (p := isWhiteSpace) (l := later.reverse)
    rw [hempty, List.append_nil] at htake
    apply h
    rw [← List.all_reverse, ← htake]
    exact List.all_takeWhile
  unfold trimEnd
  rw [List.reverse_append, List.dropWhile_append, hdrop]
  simp

theorem not_all_unlines {lines : List String} {line : String} (hmem : line ∈ lines)
    (hblank : ¬isBlank line) : ¬(unlines lines).all isWhiteSpace := by
  intro hall
  refine hblank (List.all_eq_true.mpr ?_)
  intro c hc
  apply List.all_eq_true.mp hall c
  exact List.mem_flatMap.mpr ⟨line, hmem, List.mem_append_left _ hc⟩

end SmtSession.Text

namespace SmtSession.Solver.Dialogue

open Text

/-- Lines that belong to a reply. -/
def IsPlain (line : String) : Prop := '\n' ∉ line.toList ∧ ¬isMarker line.toList

def IsMark (line : String) : Prop := '\n' ∉ line.toList ∧ isMarker line.toList

instance (line : String) : Decidable (IsPlain line) := inferInstanceAs (Decidable (_ ∧ _))

instance (line : String) : Decidable (IsMark line) := inferInstanceAs (Decidable (_ ∧ _))

theorem isMarker_append_newline (line : List Char) :
    isMarker (line ++ ['\n']) = isMarker line := by
  unfold isMarker
  rw [trimEnd_append_newline]

/-- A line of a reply is put after the text read before. -/
theorem collect_plain {line : String} (h : IsPlain line) (before : List Char)
    (rest : List UInt8) :
    collect before (byteLines (bytesOf (String.ofList (line.toList ++ ['\n'])) ++ rest)) =
      collect (before ++ (line.toList ++ ['\n'])) (byteLines rest) := by
  obtain ⟨hnewline, hmarker⟩ := h
  rw [byteLines_bytesOf_cons hnewline, collect, ofBytes?_bytesOf]
  simp only [String.toList_ofList]
  rw [isMarker_append_newline, if_neg hmarker]

theorem collect_lines {lines : List String} (h : ∀ line ∈ lines, IsPlain line)
    (before : List Char) (rest : List UInt8) :
    collect before (byteLines (bytesOf (String.ofList (unlines lines)) ++ rest)) =
      collect (before ++ unlines lines) (byteLines rest) := by
  induction lines generalizing before with
  | nil => simp only [unlines, List.flatMap_nil, bytesOf_ofList, List.nil_append, List.append_nil]
  | cons line lines ih =>
      obtain ⟨hline, hlines⟩ := List.forall_mem_cons.mp h
      rw [unlines_cons, bytesOf_append, List.append_assoc, collect_plain hline, ih hlines,
        List.append_assoc]

/-- The marker ends the reply, and what follows it is left over. -/
theorem collect_mark {mark : String} (h : IsMark mark) (before : List Char) (rest : List UInt8) :
    collect before (byteLines (bytesOf (String.ofList (mark.toList ++ ['\n'])) ++ rest)) =
      (.ok (String.ofList (trimEnd before)), byteLines rest) := by
  obtain ⟨hnewline, hmarker⟩ := h
  rw [byteLines_bytesOf_cons hnewline, collect, ofBytes?_bytesOf]
  simp only [String.toList_ofList]
  rw [isMarker_append_newline, if_pos hmarker]

/-- A reply is what was printed before the marker. -/
theorem collect_unlines {lines : List String} {mark : String}
    (hlines : ∀ line ∈ lines, IsPlain line) (hmark : IsMark mark) (rest : List UInt8) :
    collect [] (byteLines (bytesOf (String.ofList (unlines (lines ++ [mark]))) ++ rest)) =
      (.ok (String.ofList (trimEnd (unlines lines))), byteLines rest) := by
  have hunlines : unlines (lines ++ [mark]) = unlines lines ++ (mark.toList ++ ['\n']) := by
    simp [unlines]
  rw [hunlines, bytesOf_append, List.append_assoc, collect_lines hlines, collect_mark hmark,
    List.nil_append]

end SmtSession.Solver.Dialogue
