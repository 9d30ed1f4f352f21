import SmtSession.Proofs.PrintedLines

/-!
# The output of a solver as blocks

Every text is cut into blocks by the lines that are markers: the lines before a marker and the
marker itself are a block, and what comes after the last marker is no block. Reading up to the marker
takes exactly one block off the front of the output, however much more of it is there already.
-/

namespace SmtSession.Solver

open Text Dialogue

/-- Lines of a reply, and the marker after them. -/
structure Block where
  lines : List String
  mark : String
  plain : ∀ line ∈ lines, IsPlain line
  marked : IsMark mark

namespace Block

def printed (block : Block) : List String := block.lines ++ [block.mark]

/-- The text of the block without the white space at its end. -/
def reply (block : Block) : String := String.ofList (trimEnd (unlines block.lines))

end Block

/-- Blocks, and the lines after the last of them. -/
@[ext]
structure Output where
  blocks : List Block
  rest : List String
  plain : ∀ line ∈ rest, IsPlain line

/-- Lines with a line end between each two, but none after the last. -/
def joined : List String → List Char
  | [] => []
  | [line] => line.toList
  | line :: lines => line.toList ++ '\n' :: joined lines

namespace Output

def lines (output : Output) : List String := output.blocks.flatMap Block.printed ++ output.rest

/-- If nothing stands after the last block, then its marker has no line end. -/
def bytes (output : Output) : List UInt8 := bytesOf (String.ofList (joined output.lines))

/-- What the exchange after `count` others obtains: the text of its block. Where there is none, the
first exchange is refused for what stands after the last block, and a later one for nothing. -/
def reply (output : Output) (count : Nat) : Except Failure String :=
  match output.blocks[count]? with
  | some block => .ok block.reply
  | none => .error (.refused (errorText
      (if count = output.blocks.length then String.ofList (joined output.rest) else "")))

/-- What is left after `count` exchanges. -/
def drop (count : Nat) (output : Output) : Output where
  blocks := output.blocks.drop count
  rest := if count ≤ output.blocks.length then output.rest else []
  plain := by
    split
    · exact output.plain
    · exact List.forall_mem_nil _

/-- As much of the output is written as `count` exchanges take, or all there ever is. -/
def Covered (output : Output) (count : Nat) (written : List UInt8) : Prop :=
  written = output.bytes ∨
    count ≤ output.blocks.length ∧
      bytesOf (String.ofList (unlines ((output.blocks.take count).flatMap Block.printed))) <+:
        written

instance (output : Output) (count : Nat) (written : List UInt8) :
    Decidable (output.Covered count written) :=
  inferInstanceAs (Decidable (_ ∨ _ ∧ _))

end Output

/-! ### Joined lines -/

theorem joined_append {later : List String} (h : later ≠ []) (lines : List String) :
    joined (lines ++ later) = unlines lines ++ joined later := by
  induction lines with
  | nil => rfl
  | cons line lines ih =>
      obtain ⟨next, others, heq⟩ :=
        List.exists_cons_of_ne_nil (List.append_ne_nil_of_right_ne_nil lines h)
      rw [List.cons_append, heq, joined, ← heq, ih, unlines_cons]
      · simp
      · simp

theorem joined_cons {lines : List String} (h : lines ≠ []) (line : String) :
    joined (line :: lines) = line.toList ++ '\n' :: joined lines := by
  have happend := joined_append h [line]
  rwa [unlines_cons, List.append_assoc, List.append_assoc] at happend

theorem joined_singleton (line : String) : joined [line] = line.toList := rfl

theorem bytesOf_nil : bytesOf (String.ofList []) = [] := rfl

theorem bytesOf_ne_nil {line : String} (h : line.toList ≠ []) : bytesOf line ≠ [] := by
  intro hbytes
  have hread := ofBytes?_bytesOf line
  rw [hbytes, ← bytesOf_nil, ofBytes?_bytesOf] at hread
  rw [← Option.some.inj hread, String.toList_ofList] at h
  exact h rfl

theorem byteLines_of_not_mem {line : List UInt8} (h : newline ∉ line) (hne : line ≠ []) :
    byteLines line = [line] := by
  induction line with
  | nil => contradiction
  | cons b line ih =>
      rw [List.mem_cons, not_or] at h
      obtain ⟨hb, hline⟩ := h
      rw [byteLines, if_neg (Ne.symm hb)]
      cases line with
      | nil => rfl
      | cons next line => rw [ih hline (List.cons_ne_nil _ _)]

theorem byteLines_last {line : String} (h : '\n' ∉ line.toList) (hne : line.toList ≠ []) :
    byteLines (bytesOf line) = [bytesOf line] := by
  have hnewline := newline_not_mem_bytesOf h
  rw [String.ofList_toList] at hnewline
  exact byteLines_of_not_mem hnewline (bytesOf_ne_nil hne)

/-! ### Reading a block -/

theorem collect_last_mark {mark : String} (h : IsMark mark) (before : List Char) :
    collect before (byteLines (bytesOf mark)) = (.ok (String.ofList (trimEnd before)), []) := by
  obtain ⟨hnewline, hmarker⟩ := h
  have hne : mark.toList ≠ [] := by
    intro hempty
    rw [hempty] at hmarker
    exact absurd hmarker (by decide)
  rw [byteLines_last hnewline hne, collect, ofBytes?_bytesOf]
  simp only
  rw [if_pos hmarker]

theorem collect_last_plain {line : String} (h : IsPlain line) (before : List Char) :
    collect before (byteLines (bytesOf line)) =
      (.error (.refused (errorText (String.ofList (before ++ line.toList)))), []) := by
  obtain ⟨hnewline, hmarker⟩ := h
  by_cases hne : line.toList = []
  · obtain rfl : line = "" := String.toList_eq_nil_iff.mp hne
    rw [hne, List.append_nil]
    rfl
  · rw [byteLines_last hnewline hne, collect, ofBytes?_bytesOf]
    simp only
    rw [if_neg hmarker, collect]

/-- Without a marker everything is read, and the end of the output is an error. -/
theorem collect_joined {lines : List String} (h : ∀ line ∈ lines, IsPlain line) :
    collect [] (byteLines (bytesOf (String.ofList (joined lines)))) =
      (.error (.refused (errorText (String.ofList (joined lines)))), []) := by
  rcases List.eq_nil_or_concat lines with rfl | ⟨lines, last, rfl⟩
  · rfl
  · have hlines : ∀ line ∈ lines, IsPlain line := fun line hmem =>
      h line (by simp [hmem])
    rw [List.concat_eq_append, joined_append (List.cons_ne_nil _ _), joined_singleton,
      bytesOf_append, collect_lines hlines, String.ofList_toList,
      collect_last_plain (h last (by simp))]
    rfl

namespace Block

variable (block : Block)

theorem collect_append (rest : List UInt8) :
    collect [] (byteLines (bytesOf (String.ofList (unlines block.printed)) ++ rest)) =
      (.ok block.reply, byteLines rest) :=
  collect_unlines block.plain block.marked rest

/-- The marker may be the last of the output and lack its line end. -/
theorem collect_last :
    collect [] (byteLines (bytesOf (String.ofList (joined block.printed)))) =
      (.ok block.reply, []) := by
  rw [printed, joined_append (List.cons_ne_nil _ _), joined_singleton, bytesOf_append,
    collect_lines block.plain, String.ofList_toList, collect_last_mark block.marked]
  rfl

end Block

namespace Output

variable {output : Output} {written taken left more : List UInt8} {count : Nat} {block : Block}
  {blocks : List Block}

theorem reply_drop (output : Output) (count : Nat) :
    (output.drop count).reply 0 = output.reply count := by
  unfold reply
  have hget : (output.drop count).blocks[0]? = output.blocks[count]? := by
    simp [drop]
  rw [hget]
  cases hblock : output.blocks[count]? with
  | some block => rfl
  | none =>
      have hlength := List.getElem?_eq_none_iff.mp hblock
      by_cases heq : count = output.blocks.length
      · simp [drop, heq]
      · have hlate : ¬count ≤ output.blocks.length := by omega
        simp [drop, heq, hlate, hlength, joined]

theorem drop_zero (output : Output) : output.drop 0 = output := rfl

theorem drop_drop (output : Output) (count : Nat) :
    (output.drop count).drop 1 = output.drop (count + 1) := by
  apply Output.ext
  · exact List.drop_drop
  · change (if 1 ≤ (output.blocks.drop count).length then
      (if count ≤ output.blocks.length then output.rest else []) else []) =
        if count + 1 ≤ output.blocks.length then output.rest else []
    rw [List.length_drop]
    split
    · rw [if_pos (by omega), if_pos (by omega)]
    · rw [if_neg (by omega)]

theorem lines_eq (h : output.blocks = block :: blocks) :
    output.lines = block.printed ++ (output.drop 1).lines := by
  simp [lines, drop, h]

theorem bytes_eq (h : output.blocks = block :: blocks) (hmore : (output.drop 1).lines ≠ []) :
    output.bytes =
      bytesOf (String.ofList (unlines block.printed)) ++ (output.drop 1).bytes := by
  rw [bytes, lines_eq h, joined_append hmore, bytesOf_append]
  rfl

theorem bytes_last (h : output.blocks = block :: blocks) (hmore : (output.drop 1).lines = []) :
    output.bytes = bytesOf (String.ofList (joined block.printed)) := by
  rw [bytes, lines_eq h, hmore, List.append_nil]

theorem bytes_eq_nil (h : output.lines = []) : output.bytes = [] := by
  rw [bytes, h]
  rfl

theorem lines_drop_of_nil (h : output.blocks = []) : (output.drop 1).lines = [] := by
  simp [lines, drop, h]

theorem length_joined_printed (block : Block) :
    (bytesOf (String.ofList (joined block.printed))).length <
      (bytesOf (String.ofList (unlines block.printed))).length := by
  have hunlines : unlines block.printed = joined block.printed ++ ['\n'] := by
    rw [Block.printed, joined_append (List.cons_ne_nil _ _), joined_singleton]
    simp [unlines]
  rw [hunlines, bytesOf_append, List.length_append]
  exact Nat.lt_add_of_pos_right (by decide)

/-- Reading what is written takes the bytes of one block, and obtains its text. -/
theorem read (hwithin : written <+: output.bytes) (h : output.Covered 1 written) :
    ∃ taken left, collect [] (byteLines written) = (output.reply 0, left) ∧
      written = taken ++ left.flatten ∧ output.bytes = taken ++ (output.drop 1).bytes := by
  cases hblocks : output.blocks with
  | nil =>
      have hall : written = output.bytes := h.resolve_right (by simp [hblocks])
      have hbytes : output.bytes = bytesOf (String.ofList (joined output.rest)) := by
        simp [bytes, lines, hblocks]
      have hreply : output.reply 0 =
          .error (.refused (errorText (String.ofList (joined output.rest)))) := by
        simp [reply, hblocks]
      refine ⟨written, [], ?_, by simp, ?_⟩
      · rw [hall, hbytes, collect_joined output.plain, hreply]
      · rw [bytes_eq_nil (lines_drop_of_nil hblocks), List.append_nil, hall]
  | cons block blocks =>
      have hreply : output.reply 0 = .ok block.reply := by
        simp [reply, hblocks]
      have htake : (output.blocks.take 1).flatMap Block.printed = block.printed := by
        simp [hblocks]
      unfold Covered at h
      rw [htake] at h
      by_cases hmore : (output.drop 1).lines = []
      · have hbytes := bytes_last hblocks hmore
        have hall : written = output.bytes := by
          refine h.resolve_right ?_
          rintro ⟨-, hfirst⟩
          have hlength := (hfirst.trans hwithin).length_le
          rw [hbytes] at hlength
          exact absurd (length_joined_printed block) (Nat.not_lt.mpr hlength)
        refine ⟨written, [], ?_, by simp, ?_⟩
        · rw [hall, hbytes, block.collect_last, hreply]
        · rw [bytes_eq_nil hmore, List.append_nil, hall]
      · have hbytes := bytes_eq hblocks hmore
        obtain ⟨rest, hrest⟩ : ∃ rest,
            written = bytesOf (String.ofList (unlines block.printed)) ++ rest := by
          rcases h with hall | ⟨-, rest, hrest⟩
          · exact ⟨_, hall.trans hbytes⟩
          · exact ⟨rest, hrest.symm⟩
        refine ⟨_, byteLines rest, ?_, ?_, hbytes⟩
        · rw [hrest, block.collect_append, hreply]
        · rw [hrest, flatten_byteLines]

/-- What one exchange leaves is written as far as the exchanges after it need. -/
theorem Covered.drop (hbytes : output.bytes = taken ++ (output.drop 1).bytes)
    (h : output.Covered (count + 2) (taken ++ left)) :
    (output.drop 1).Covered (count + 1) left := by
  rcases h with hall | ⟨hcount, hfirst⟩
  · exact .inl (List.append_cancel_left (hall.trans hbytes))
  · right
    cases hblocks : output.blocks with
    | nil => simp [hblocks] at hcount
    | cons block blocks =>
        rw [hblocks, List.length_cons] at hcount
        have hmore : (output.drop 1).lines ≠ [] := by
          obtain ⟨next, others, rfl⟩ : ∃ next others, blocks = next :: others :=
            List.exists_cons_of_length_pos (by omega)
          simp [lines, Output.drop, hblocks, Block.printed]
        have htaken : taken = bytesOf (String.ofList (unlines block.printed)) :=
          List.append_cancel_right (hbytes.symm.trans (bytes_eq hblocks hmore))
        have hdrop : (output.drop 1).blocks = blocks := by simp [Output.drop, hblocks]
        rw [hblocks, List.take_succ_cons, List.flatMap_cons, unlines_append, bytesOf_append,
          htaken, List.prefix_append_right_inj] at hfirst
        rw [hdrop]
        exact ⟨by omega, hfirst⟩

end Output

/-! ### Every text is blocks -/

theorem lines_ne_nil (text : List Char) : Text.lines text ≠ [] := by
  cases text with
  | nil => exact List.cons_ne_nil _ _
  | cons c text =>
      rw [Text.lines]
      split
      · exact List.cons_ne_nil _ _
      · split <;> exact List.cons_ne_nil _ _

theorem joined_lines (text : List Char) :
    joined ((Text.lines text).map String.ofList) = text := by
  induction text with
  | nil => rfl
  | cons c text ih =>
      obtain ⟨line, rest, hlines⟩ := List.exists_cons_of_ne_nil (lines_ne_nil text)
      rw [hlines, List.map_cons] at ih
      rw [Text.lines, hlines]
      split
      · rename_i hc
        rw [List.map_cons, List.map_cons, joined_cons (List.cons_ne_nil _ _), ih, hc]
        rfl
      · rw [List.map_cons]
        cases hrest : rest.map String.ofList with
        | nil =>
            rw [hrest, joined_singleton, String.toList_ofList] at ih
            rw [joined_singleton, String.toList_ofList, ih]
        | cons next others =>
            rw [hrest, joined_cons (List.cons_ne_nil _ _), String.toList_ofList] at ih
            rw [joined_cons (List.cons_ne_nil _ _), String.toList_ofList, List.cons_append, ih]

theorem newline_not_mem_lines {text line : List Char} (h : line ∈ Text.lines text) :
    '\n' ∉ line := by
  induction text generalizing line with
  | nil =>
      obtain rfl := List.mem_singleton.mp h
      exact List.not_mem_nil
  | cons c text ih =>
      obtain ⟨first, rest, hlines⟩ := List.exists_cons_of_ne_nil (lines_ne_nil text)
      rw [hlines] at ih
      rw [Text.lines, hlines] at h
      split at h
      · rcases List.mem_cons.mp h with rfl | hmem
        · exact List.not_mem_nil
        · exact ih hmem
      · rename_i hc
        rcases List.mem_cons.mp h with rfl | hmem
        · rw [List.mem_cons, not_or]
          exact ⟨Ne.symm hc, ih List.mem_cons_self⟩
        · exact ih (List.mem_cons_of_mem _ hmem)

theorem exists_output_lines (lines : List String) (h : ∀ line ∈ lines, '\n' ∉ line.toList) :
    ∃ output : Output, output.lines = lines := by
  induction lines with
  | nil => exact ⟨⟨[], [], List.forall_mem_nil _⟩, rfl⟩
  | cons line lines ih =>
      obtain ⟨hline, hlines⟩ := List.forall_mem_cons.mp h
      obtain ⟨⟨blocks, rest, hrest⟩, rfl⟩ := ih hlines
      by_cases hmarker : isMarker line.toList
      · exact ⟨⟨⟨[], line, List.forall_mem_nil _, hline, hmarker⟩ :: blocks, rest, hrest⟩, rfl⟩
      · cases blocks with
        | nil =>
            exact ⟨⟨[], line :: rest, List.forall_mem_cons.mpr ⟨⟨hline, hmarker⟩, hrest⟩⟩, rfl⟩
        | cons block blocks =>
            have hplain := List.forall_mem_cons.mpr ⟨⟨hline, hmarker⟩, block.plain⟩
            exact ⟨⟨⟨line :: block.lines, block.mark, hplain, block.marked⟩ :: blocks, rest,
              hrest⟩, rfl⟩

/-- Whatever text a solver writes is the bytes of blocks and a rest. -/
theorem exists_output (text : String) : ∃ output : Output, output.bytes = bytesOf text := by
  obtain ⟨output, hlines⟩ :=
    exists_output_lines ((Text.lines text.toList).map String.ofList) (by
      intro line hmem
      obtain ⟨chars, hchars, rfl⟩ := List.mem_map.mp hmem
      rw [String.toList_ofList]
      exact newline_not_mem_lines hchars)
  refine ⟨output, ?_⟩
  rw [Output.bytes, hlines, joined_lines, String.ofList_toList]

end SmtSession.Solver
