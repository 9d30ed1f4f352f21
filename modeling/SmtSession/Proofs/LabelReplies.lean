import SmtSession.Label
import SmtSession.Proofs.Clients
import SmtSession.Proofs.RoundTrip
import SmtSession.Solver.Scripted

/-!
# Labels in the replies of a solver

A solver writes labels as symbols, with no quotes around them. The marks of positive and of tracking
labels begin a symbol as any letter does. The mark of a choice opens a quoted symbol: the label runs
on to the next choice, over the space before it, or the reply has no end. So labels are read as they
were written if and only if there is no choice among them.
-/

namespace SmtSession

namespace SExpr.Reader

/-- Each with a space before it. -/
def separated (words : List String) : List Char := words.flatMap fun word => ' ' :: word.toList

variable {words : List String} {text rest : List Char}

theorem separated_cons (word : String) (words : List String) :
    separated (word :: words) = ' ' :: (word.toList ++ separated words) :=
  rfl

theorem separated_append (words later : List String) :
    separated (words ++ later) = separated words ++ separated later :=
  List.flatMap_append

theorem clear_separated (words : List String) (hrest : Clear rest) :
    Clear (separated words ++ rest) := by
  cases words with
  | nil => exact hrest
  | cons word words => exact clear_of_mem (by decide) _

/-- Bare words are read one by one, and the reader goes on with what follows them. -/
theorem items_separated (h : ∀ word ∈ words, Bare word.toList) (hrest : Clear rest) (fuel : Nat) :
    items (words.length + (fuel + 1)) (separated words ++ rest) =
      { items (fuel + 1) rest with
        value := words.map symbol ++ (items (fuel + 1) rest).value } := by
  induction words with
  | nil =>
      rw [List.length_nil, Nat.zero_add]
      rfl
  | cons word words ih =>
      obtain ⟨hword, hwords⟩ := List.forall_mem_cons.mp h
      have hsingle := hword.single (clear_separated words hrest)
      rw [String.ofList_toList] at hsingle
      have hitem : item (words.length + (fuel + 1)) (word.toList ++ (separated words ++ rest)) =
          .ok ⟨symbol word, separated words ++ rest, separated words ++ rest⟩ :=
        item_of_single hsingle
      have hlength : (word :: words).length + (fuel + 1) = words.length + (fuel + 1) + 1 := by
        rw [List.length_cons]
        omega
      rw [separated_cons, List.cons_append, List.append_assoc, hlength, items_blank (by decide),
        items_cons ((dropWhile_of_item hitem).2.symm ▸ hitem), ih hwords]
      rfl

/-- The first word need not have a space before it. -/
theorem items_words {head : String} (hhead : Bare head.toList)
    (hwords : ∀ word ∈ words, Bare word.toList) (hrest : Clear rest) (fuel : Nat) :
    items (words.length + (fuel + 2)) (head.toList ++ (separated words ++ rest)) =
      { items (fuel + 1) rest with
        value := symbol head :: (words.map symbol ++ (items (fuel + 1) rest).value) } := by
  have hlength : words.length + (fuel + 2) = (head :: words).length + (fuel + 1) := by
    rw [List.length_cons]
    omega
  have hall : ∀ word ∈ head :: words, Bare word.toList :=
    List.forall_mem_cons.mpr ⟨hhead, hwords⟩
  have hblank : items (words.length + (fuel + 1) + 1)
        (' ' :: (head.toList ++ (separated words ++ rest))) =
      items (words.length + (fuel + 1) + 1) (head.toList ++ (separated words ++ rest)) :=
    items_blank (by decide) _
  have hfuel : words.length + (fuel + 2) = words.length + (fuel + 1) + 1 := rfl
  rw [hfuel, ← hblank, ← hfuel, ← List.append_assoc, ← List.cons_append, ← separated_cons,
    hlength, items_separated hall hrest]
  rfl

/-! ### A bar among the words -/

theorem item_bar (fuel : Nat) (text : List Char) :
    item (fuel + 1) ('|' :: text) = quoted '|' text := by
  rw [item_eq_single (by simp)]
  rfl

theorem items_bar_open (h : '|' ∉ text) (fuel : Nat) :
    items (fuel + 2) ('|' :: text) = ⟨[], '|' :: text, []⟩ := by
  have hall : ∀ c ∈ text, decide (c ≠ '|') := fun c hc =>
    decide_eq_true (ne_of_mem_of_not_mem hc h)
  have hitem : item (fuel + 1) ('|' :: text) = .error [] := by
    have hdrop : text.dropWhile (· ≠ '|') = [] := List.dropWhile_eq_nil_iff.mpr hall
    rw [item_bar, quoted, hdrop]
  rw [items]
  simp only [show List.dropWhile isBlank ('|' :: text) = '|' :: text from rfl, hitem]

theorem items_bar_closed {inner : List Char} (h : '|' ∉ inner) (rest : List Char) (fuel : Nat) :
    ∃ others, (items (fuel + 2) ('|' :: (inner ++ '|' :: rest))).value =
      symbol (String.ofList inner) :: others := by
  have hitem : item (fuel + 1) ('|' :: (inner ++ '|' :: rest)) =
      .ok ⟨symbol (String.ofList inner), rest, rest⟩ := by
    rw [item_bar, quoted_append h]
  have hstart : ('|' :: (inner ++ '|' :: rest)).dropWhile isBlank =
      '|' :: (inner ++ '|' :: rest) := rfl
  rw [items_cons (hstart.symm ▸ hitem)]
  exact ⟨_, rfl⟩

/-- The words before the bar are read as they stand. What begins at the bar either has no end, or
runs on over the space before the next bar. -/
theorem of_item_bar {head : String} (hhead : Bare head.toList)
    (hwords : ∀ word ∈ words, Bare word.toList) {id more : List Char} (hid : '|' ∉ id)
    (hmore : '|' ∈ more → more.head? = some ' ') {fuel : Nat} {reading : Reading SExpr}
    (h : item (words.length + (fuel + 4))
      ('(' :: (head.toList ++ (separated words ++ ' ' :: '|' :: (id ++ more)))) = .ok reading) :
    ∃ token others, ' ' ∈ token.toList ∧
      reading.value = .list (symbol head :: (words.map symbol ++ symbol token :: others)) := by
  have hclear : Clear (' ' :: '|' :: (id ++ more)) := clear_of_mem (by decide) _
  have hitems := items_words hhead hwords hclear (fuel + 1)
  rw [items_blank (by decide)] at hitems
  have hfuel : words.length + (fuel + 4) = words.length + (fuel + 1 + 2) + 1 := rfl
  rw [hfuel] at h
  by_cases hbar : '|' ∈ more
  · obtain ⟨inner, rest, rfl, hinner⟩ := List.eq_append_cons_of_mem hbar
    have hboth : '|' ∉ id ++ inner := by
      rw [List.mem_append, not_or]
      exact ⟨hid, hinner⟩
    have hspace : ' ' ∈ inner := by
      cases inner with
      | nil => exact absurd (hmore hbar) (by simp)
      | cons c inner =>
          obtain rfl : c = ' ' := by simpa using hmore hbar
          exact List.mem_cons_self
    obtain ⟨others, hothers⟩ := items_bar_closed hboth rest fuel
    rw [List.append_assoc] at hothers
    refine ⟨String.ofList (id ++ inner), others, ?_, ?_⟩
    · rw [String.toList_ofList]
      exact List.mem_append_right _ hspace
    · rw [value_of_item_list h, hitems, hothers]
  · have hnone : '|' ∉ id ++ more := by
      rw [List.mem_append, not_or]
      exact ⟨hid, hbar⟩
    rw [items_bar_open hnone] at hitems
    rw [item, hitems] at h
    cases h

end SExpr.Reader

namespace Label

open SExpr.Reader

/-- Nothing in the identifier ends a symbol without quotes. -/
def IsWord (label : Label) : Prop := ∀ c ∈ label.id.toList, isSymbolChar c

instance (label : Label) : Decidable label.IsWord :=
  decidable_of_iff (label.id.toList.all isSymbolChar) List.all_eq_true

variable {label : Label} {labels : List Label}

theorem toList_print (label : Label) : label.print.toList = label.kind.mark :: label.id.toList :=
  String.toList_ofList

theorem bare_print (h : label.IsWord) (hkind : label.kind ≠ .choice) :
    Bare label.print.toList := by
  have hstart : isSymbolStart label.kind.mark := by
    cases hmark : label.kind with
    | positive => decide
    | choice => exact absurd hmark hkind
    | tracking => decide
  rw [toList_print]
  exact .name hstart h

theorem forall_bare_print (h : ∀ label ∈ labels, label.IsWord)
    (hkind : ∀ label ∈ labels, label.kind ≠ .choice) :
    ∀ word ∈ labels.map print, Bare word.toList := by
  intro word hmem
  obtain ⟨label, hlabel, rfl⟩ := List.mem_map.mp hmem
  exact bare_print (h label hlabel) (hkind label hlabel)

theorem IsWord.not_mem (h : label.IsWord) {c : Char} (hc : isSymbolChar c = false) :
    c ∉ label.id.toList := by
  intro hmem
  rw [h c hmem] at hc
  contradiction

/-- The marks are not blank. -/
theorem mem_id_of_mem_print {c : Char} (hc : isBlank c) (h : c ∈ label.print.toList) :
    c ∈ label.id.toList := by
  rw [toList_print] at h
  refine (List.mem_cons.mp h).resolve_left ?_
  rintro rfl
  cases hmark : label.kind <;> rw [hmark] at hc <;> exact absurd hc (by decide)

theorem readAll_print (labels : List Label) : readAll (labels.map print) = .ok labels := by
  induction labels with
  | nil => rfl
  | cons label labels ih =>
      rw [List.map_cons, readAll, read_print]
      simp only [ih]
      rfl

/-- What is read from a text with a space in it has a space in its identifier. -/
theorem space_mem_of_readAll {raws : List String} {raw : String} (hraw : raw ∈ raws)
    (hspace : ' ' ∈ raw.toList) (h : readAll raws = .ok labels) :
    ∃ label ∈ labels, ' ' ∈ label.id.toList := by
  induction raws generalizing labels with
  | nil => exact absurd hraw List.not_mem_nil
  | cons first raws ih =>
      rw [readAll] at h
      cases hfirst : read first with
      | error error => simp [hfirst] at h
      | ok label =>
          cases hrest : readAll raws with
          | error error =>
              rw [hfirst, hrest] at h
              cases h
          | ok others =>
              rw [hfirst, hrest] at h
              obtain rfl : label :: others = labels := Except.ok.inj h
              rcases List.mem_cons.mp hraw with rfl | hmem
              · rw [← print_of_read hfirst] at hspace
                exact ⟨label, List.mem_cons_self, mem_id_of_mem_print (by decide) hspace⟩
              · obtain ⟨other, hother, hid⟩ := ih hmem hrest
                exact ⟨other, List.mem_cons_of_mem _ hother, hid⟩

end Label

namespace Solver

open Dialogue Label SExpr.Reader

/-- The reply of a solver that writes the labels one after another, with single spaces. -/
def labelsReply (labels : List Label) : List Char :=
  '(' :: ("labels".toList ++ (separated (labels.map print) ++ [')']))

variable {labels : List Label}

theorem length_le_separated (words : List String) : words.length ≤ (separated words).length := by
  induction words with
  | nil => exact Nat.le_refl _
  | cons word words ih =>
      rw [separated_cons, List.length_cons, List.length_cons, List.length_append]
      omega

theorem exists_fuelFor {count : Nat} (h : count ≤ labels.length) :
    ∃ fuel, fuelFor (labelsReply labels) = count + (fuel + 4) := by
  have hlength := length_le_separated (labels.map Label.print)
  rw [List.length_map] at hlength
  refine ⟨fuelFor (labelsReply labels) - count - 4, ?_⟩
  simp only [fuelFor, labelsReply, List.length_cons, List.length_append]
  omega

theorem bare_labels : Bare "labels".toList :=
  .name (by decide) (List.all_eq_true.mp (by decide))

theorem toList_labelsReply (labels : List Label) :
    (String.ofList (labelsReply labels)).toList.dropWhile isBlank = labelsReply labels := by
  rw [String.toList_ofList]
  rfl

/-- Without choices the labels are read as they were written. -/
theorem read_labelsReply (h : ∀ label ∈ labels, label.IsWord)
    (hkind : ∀ label ∈ labels, label.kind ≠ .choice) :
    SExpr.read (String.ofList (labelsReply labels)) =
      .ok (.application "labels" ((labels.map Label.print).map SExpr.symbol)) := by
  have hwords := forall_bare_print h hkind
  obtain ⟨fuel, hfuel⟩ := exists_fuelFor (Nat.le_refl labels.length)
  have hclear : Clear [')'] := SExpr.clear_of_mem (by decide) []
  have hitems := items_words bare_labels hwords hclear (fuel + 1)
  obtain ⟨furthest, hparen⟩ := SExpr.items_paren (fuel + 1 + 1) []
  rw [List.length_map, hparen, List.append_nil] at hitems
  apply SExpr.read_eq_ok
  rw [toList_labelsReply, String.toList_ofList, hfuel]
  exact item_list hitems

/-- With a choice among them, the reply cannot be read, or a label is read that has a space in it.
-/
theorem of_read_labelsReply {expr : SExpr} (h : ∀ label ∈ labels, label.IsWord)
    (hkind : ∃ label ∈ labels, label.kind = .choice)
    (hread : SExpr.read (String.ofList (labelsReply labels)) = .ok expr) :
    ∃ words token others, ' ' ∈ token.toList ∧
      expr = .application "labels" (words ++ SExpr.symbol token :: others) := by
  obtain ⟨first, hfirst⟩ : ∃ first, labels.find? (·.kind = .choice) = some first := by
    obtain ⟨label, hmem, hchoice⟩ := hkind
    apply Option.isSome_iff_exists.mp
    exact List.find?_isSome.mpr ⟨label, hmem, decide_eq_true hchoice⟩
  obtain ⟨hchoice, before, later, hsplit, hbefore⟩ := List.find?_eq_some_iff_append.mp hfirst
  have hwords : ∀ word ∈ before.map Label.print, Bare word.toList := by
    apply forall_bare_print
    · intro label hmem
      exact h label (hsplit ▸ List.mem_append_left _ hmem)
    · intro label hmem
      simpa using hbefore label hmem
  have hid : '|' ∉ first.id.toList := by
    have hlabel : first ∈ labels := hsplit ▸ List.mem_append_right _ List.mem_cons_self
    exact (h first hlabel).not_mem (by decide)
  have hmark : first.kind.mark = '|' := by
    rw [of_decide_eq_true hchoice]
    rfl
  have hmore : '|' ∈ separated (later.map Label.print) ++ [')'] →
      (separated (later.map Label.print) ++ [')']).head? = some ' ' := by
    cases later with
    | nil => intro hmem; exact absurd hmem (by decide)
    | cons label later => intro _; rfl
  have hreply : labelsReply labels = '(' :: ("labels".toList ++ (separated (before.map Label.print)
      ++ ' ' :: '|' :: (first.id.toList ++ (separated (later.map Label.print) ++ [')'])))) := by
    rw [labelsReply, hsplit, List.map_append, List.map_cons, separated_append, separated_cons,
      toList_print, hmark]
    simp
  have hlength : before.length ≤ labels.length := by
    rw [hsplit, List.length_append]
    exact Nat.le_add_right _ _
  obtain ⟨fuel, hfuel⟩ := exists_fuelFor hlength
  obtain ⟨reading, hitem, hvalue⟩ := SExpr.item_of_read hread
  rw [toList_labelsReply, String.toList_ofList, hfuel, hreply, ← List.length_map] at hitem
  obtain ⟨token, others, hspace, heq⟩ := of_item_bar bare_labels hwords hid hmore hitem
  exact ⟨_, token, others, hspace, hvalue.symm.trans heq⟩

/-! ### Over the wire -/

/-- What becomes of a reply to the question for labels. -/
theorem run_labels_of_consult {reply : String} {dialogue asked : Dialogue}
    (h : (consult Client.labelsCommand).run dialogue = (.ok reply, asked)) :
    (Dialogue.labels.run dialogue).1 =
      (Client.answer Client.labelsCommand reply).bind Client.labelTexts := by
  have hlabels : Dialogue.labels = consult Client.labelsCommand >>= fun reply =>
      readAnswer Client.labelsCommand reply >>= fun expr => .ofExcept (Client.labelTexts expr) := by
    rw [← Client.run_labels, Client.labels, Client.run_bind, Client.run_ask, ask_eq, bind_assoc]
    rfl
  rw [hlabels, Action.run_bind_ok h, ← Client.run_answer]
  cases Client.answer Client.labelsCommand reply <;> rfl

theorem mapM_labelText?_symbols (raws : List String) :
    (raws.map SExpr.symbol).mapM labelText? = some raws := by
  induction raws with
  | nil => rfl
  | cons raw raws ih =>
      rw [List.map_cons, List.mapM_cons, ih]
      rfl

theorem mem_of_mapM_labelText? {exprs : List SExpr} {raws : List String} {raw : String}
    (hraw : SExpr.symbol raw ∈ exprs) (h : exprs.mapM labelText? = some raws) : raw ∈ raws := by
  induction exprs generalizing raws with
  | nil => exact absurd hraw List.not_mem_nil
  | cons expr exprs ih =>
      rw [List.mapM_cons] at h
      cases htext : labelText? expr with
      | none => simp [htext] at h
      | some text =>
          cases hrest : exprs.mapM labelText? with
          | none => simp [htext, hrest] at h
          | some others =>
              obtain rfl : text :: others = raws := by simpa [htext, hrest] using h
              rcases List.mem_cons.mp hraw with rfl | hmem
              · obtain rfl : raw = text := Option.some.inj htext
                exact List.mem_cons_self
              · exact List.mem_cons_of_mem _ (ih hmem hrest)

theorem labelTexts_application {args : List SExpr} {raws : List String} :
    Client.labelTexts (.application "labels" args) = .ok raws ↔
      args.mapM labelText? = some raws := by
  rw [SExpr.application, SExpr.symbol, Client.labelTexts]
  cases args.mapM labelText? <;> simp

variable {labels : List Label}

theorem answer_labelsReply (h : ∀ label ∈ labels, label.IsWord)
    (hkind : ∀ label ∈ labels, label.kind ≠ .choice) :
    (Client.answer Client.labelsCommand (String.ofList (labelsReply labels))).bind
      Client.labelTexts = .ok (labels.map Label.print) := by
  rw [Client.answer, read_labelsReply h hkind]
  exact labelTexts_application.mpr (mapM_labelText?_symbols _)

theorem space_mem_of_answer {raws : List String} (h : ∀ label ∈ labels, label.IsWord)
    (hkind : ∃ label ∈ labels, label.kind = .choice)
    (hanswer : (Client.answer Client.labelsCommand (String.ofList (labelsReply labels))).bind
      Client.labelTexts = .ok raws) :
    ∃ raw ∈ raws, ' ' ∈ raw.toList := by
  unfold Client.answer at hanswer
  split at hanswer
  · next expr hread =>
    obtain ⟨words, token, others, hspace, rfl⟩ := of_read_labelsReply h hkind hread
    have htexts := labelTexts_application.mp hanswer
    exact ⟨token, mem_of_mapM_labelText? (by simp) htexts, hspace⟩
  · contradiction

theorem newline_not_mem_labelsReply (h : ∀ label ∈ labels, label.IsWord) :
    '\n' ∉ labelsReply labels := by
  have hlabel : ∀ label ∈ labels, '\n' ∉ ' ' :: label.print.toList := by
    intro label hmem hnewline
    have hprint := (List.mem_cons.mp hnewline).resolve_left (by decide)
    exact (h label hmem).not_mem (by decide) (mem_id_of_mem_print (by decide) hprint)
  intro hmem
  rw [labelsReply, List.mem_cons, List.mem_append, List.mem_append] at hmem
  rcases hmem with hmem | hmem | hmem | hmem
  · exact absurd hmem (by decide)
  · exact absurd hmem (by decide)
  · rw [separated, List.flatMap_map] at hmem
    obtain ⟨label, hlabels, hprint⟩ := List.mem_flatMap.mp hmem
    exact hlabel label hlabels hprint
  · exact absurd hmem (by decide)

theorem trimEnd_labelsReply (labels : List Label) :
    Text.trimEnd (labelsReply labels) = labelsReply labels := by
  have hend : labelsReply labels =
      ('(' :: ("labels".toList ++ separated (labels.map Label.print))) ++ [')'] := by
    simp [labelsReply]
  have hparen : ¬[')'].all Text.isWhiteSpace := by decide
  rw [hend, Text.trimEnd_append hparen]
  rfl

theorem isPlain_labelsReply (h : ∀ label ∈ labels, label.IsWord) :
    IsPlain (String.ofList (labelsReply labels)) := by
  unfold IsPlain isMarker
  rw [String.toList_ofList, trimEnd_labelsReply]
  exact ⟨newline_not_mem_labelsReply h, by simp [labelsReply, marker]⟩

theorem run_labels_of_line {dialogue : Dialogue} {told asked : Connection} {mark : String}
    {rest : List UInt8} (h : ∀ label ∈ labels, label.IsWord)
    (hcommand : dialogue.connection.writeLine Client.labelsCommand.chars = .ok told)
    (hrequest : told.writeLine markerCommand.toList = .ok asked) (hmark : IsMark mark)
    (hunread : asked.unread = Text.bytesOf (String.ofList
      (Text.unlines [String.ofList (labelsReply labels), mark])) ++ rest) :
    (Dialogue.labels.run dialogue).1 =
      (Client.answer Client.labelsCommand (String.ofList (labelsReply labels))).bind
        Client.labelTexts := by
  have hplain : ∀ line ∈ [String.ofList (labelsReply labels)], IsPlain line := by
    intro line hmem
    rw [List.mem_singleton.mp hmem]
    exact isPlain_labelsReply h
  have hreply : Text.trimEnd (Text.unlines [String.ofList (labelsReply labels)]) =
      labelsReply labels := by
    rw [Text.unlines_cons, String.toList_ofList]
    change Text.trimEnd (labelsReply labels ++ ['\n'] ++ []) = _
    rw [List.append_nil, Text.trimEnd_append_newline, trimEnd_labelsReply]
  have hconsult := run_consult_of_writes hcommand hrequest
  have hcollect := collect_unlines hplain hmark rest
  rw [List.singleton_append, ← hunread, hreply] at hcollect
  rw [hcollect] at hconsult
  exact run_labels_of_consult hconsult

/-- A solver answers the question for labels with a line of them, whenever it writes that line. They
are read as they were written, and decoded to what they were made from, if and only if there is no
choice among them. -/
theorem labels_survive_iff {labels : List Label} {dialogue : Dialogue} {told asked : Connection}
    {mark : String} {rest : List UInt8} (h : ∀ label ∈ labels, label.IsWord)
    (hcommand : dialogue.connection.writeLine Client.labelsCommand.chars = .ok told)
    (hrequest : told.writeLine markerCommand.toList = .ok asked) (hmark : IsMark mark)
    (hunread : asked.unread = Text.bytesOf (String.ofList
      (Text.unlines [String.ofList (labelsReply labels), mark])) ++ rest) :
    let result := (Dialogue.labels.run dialogue).1
    (result = .ok (labels.map Label.print) ↔ ∀ label ∈ labels, label.kind ≠ .choice) ∧
      ((∃ raws decoded, result = .ok raws ∧ Label.readAll raws = .ok decoded ∧
        decoded.map Label.id = labels.map Label.id) ↔ ∀ label ∈ labels, label.kind ≠ .choice) := by
  intro result
  have hresult : result = _ := run_labels_of_line h hcommand hrequest hmark hunread
  -- A label read over a space is none of those written, and what it decodes to is no identifier.
  have hlost (hkind : ¬∀ label ∈ labels, label.kind ≠ .choice) (raws : List String)
      (hraws : result = .ok raws) : ∃ raw ∈ raws, ' ' ∈ raw.toList := by
    have hchoice : ∃ label ∈ labels, label.kind = .choice := by
      simpa using hkind
    exact space_mem_of_answer h hchoice (hresult.symm.trans hraws)
  refine ⟨⟨?_, ?_⟩, ⟨?_, ?_⟩⟩
  · intro hraws
    by_contra hkind
    obtain ⟨raw, hraw, hspace⟩ := hlost hkind _ hraws
    obtain ⟨label, hlabel, rfl⟩ := List.mem_map.mp hraw
    exact (h label hlabel).not_mem (by decide) (mem_id_of_mem_print (by decide) hspace)
  · intro hkind
    rw [hresult, answer_labelsReply h hkind]
  · rintro ⟨raws, decoded, hraws, hdecoded, hids⟩
    by_contra hkind
    obtain ⟨raw, hraw, hspace⟩ := hlost hkind raws hraws
    obtain ⟨label, hlabel, hid⟩ := space_mem_of_readAll hraw hspace hdecoded
    have hmem : label.id ∈ labels.map Label.id := hids ▸ List.mem_map_of_mem hlabel
    obtain ⟨written, hwritten, hsame⟩ := List.mem_map.mp hmem
    rw [← hsame] at hid
    exact (h written hwritten).not_mem (by decide) hid
  · intro hkind
    refine ⟨labels.map Label.print, labels, ?_, readAll_print labels, rfl⟩
    rw [hresult, answer_labelsReply h hkind]

/-- A dialogue with a solver that answers with a text. -/
def answering (text : String) : Dialogue :=
  { connection := { behaviour := .scripted [.text text] } }

def toldAnswering (text : String) : Connection :=
  (answering text).connection.hear (.command Client.labelsCommand)

theorem labels_survive_iff_tracking :
    (Dialogue.labels.run (answering "(labels +A @goal#1)")).1 = .ok ["+A", "@goal#1"] := by
  let labels : List Label := [⟨.positive, "A"⟩, ⟨.tracking, "goal#1"⟩]
  have hwords : ∀ label ∈ labels, label.IsWord := by
    decide
  have hunread : ((toldAnswering "(labels +A @goal#1)").hear .request).unread =
      Text.bytesOf (String.ofList (Text.unlines [String.ofList (labelsReply labels), "<<DONE>>"]))
        ++ [] := by
    decide +kernel
  have hsurvive := @labels_survive_iff labels (answering "(labels +A @goal#1)") _ _ "<<DONE>>" []
    hwords rfl rfl (by decide) hunread
  exact hsurvive.1.mpr (by decide)

/-- The first of two choices takes the space before the second with it, which loses its mark. -/
theorem choices_run_together :
    ¬∀ (labels : List Label) (dialogue : Dialogue) (told asked : Connection) (mark : String)
        (rest : List UInt8), (∀ label ∈ labels, label.IsWord) →
      dialogue.connection.writeLine Client.labelsCommand.chars = .ok told →
      told.writeLine markerCommand.toList = .ok asked → IsMark mark →
      asked.unread = Text.bytesOf (String.ofList
        (Text.unlines [String.ofList (labelsReply labels), mark])) ++ rest →
      (Dialogue.labels.run dialogue).1 = .ok (labels.map Label.print) := by
  intro hclaim
  let labels : List Label := [⟨.choice, "A"⟩, ⟨.choice, "B"⟩]
  have hwords : ∀ label ∈ labels, label.IsWord := by
    decide
  have hunread : ((toldAnswering "(labels |A |B)").hear .request).unread =
      Text.bytesOf (String.ofList (Text.unlines [String.ofList (labelsReply labels), "<<DONE>>"]))
        ++ [] := by
    decide +kernel
  have hread : (Dialogue.labels.run (answering "(labels |A |B)")).1 = .ok ["A ", "B"] := by
    decide +kernel
  have hwritten := hclaim labels (answering "(labels |A |B)") _ _ "<<DONE>>" [] hwords rfl rfl
    (by decide) hunread
  rw [hread] at hwritten
  exact absurd hwritten (by decide)

end Solver

end SmtSession
