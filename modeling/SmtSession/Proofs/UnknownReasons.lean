import SmtSession.Proofs.Blocks
import SmtSession.Proofs.Clients
import SmtSession.Proofs.RoundTrip
import SmtSession.Solver.Scripted

/-!
# Reasons for unknown answers

When a solver cannot tell, its reason is read from between double quotes, printed again with
whatever quotes the printer picks, and searched for words. The words are the reason's own: bars or
double quotes about a text take nothing from it, and no word has one of them in it, so none can
begin or end in the quotes.
-/

namespace SmtSession

namespace Verdict

/-- The words by which a reason is classified. -/
def keywords : List String := ["timeout", "canceled", "memout", "memory", "resource", "rlimit"]

theorem occursIn_iff {word text : List Char} : occursIn word text ↔ word <:+: text := by
  induction text with
  | nil => simp [occursIn]
  | cons c text ih =>
      rw [occursIn, Bool.or_eq_true, List.isPrefixOf_iff_prefix, ih, List.infix_cons_iff]

/-- A keyword stands in a text in some letter case. -/
def Mentions (keyword : String) (text : List Char) : Prop :=
  ∃ word, word.map Char.toLower = keyword.toList ∧ word <:+: text

theorem occursIn_map_iff {keyword : String} {text : List Char} :
    occursIn keyword.toList (text.map Char.toLower) ↔ Mentions keyword text := by
  rw [occursIn_iff, List.infix_map_iff]
  constructor
  · rintro ⟨word, hword, heq⟩
    exact ⟨word, heq.symm, hword⟩
  · rintro ⟨word, heq, hword⟩
    exact ⟨word, hword, heq.symm⟩

theorem ofReason_congr {reason other : String}
    (h : ∀ keyword ∈ keywords, Mentions keyword reason.toList ↔ Mentions keyword other.toList) :
    ofReason reason = ofReason other := by
  have hoccurs : ∀ keyword ∈ keywords,
      occursIn keyword.toList (reason.toList.map Char.toLower) =
        occursIn keyword.toList (other.toList.map Char.toLower) := by
    intro keyword hmem
    rw [Bool.eq_iff_iff, occursIn_map_iff, occursIn_map_iff]
    exact h keyword hmem
  simp only [keywords, List.forall_mem_cons, List.not_mem_nil, false_imp_iff, implies_true,
    and_true] at hoccurs
  obtain ⟨htimeout, hcanceled, hmemout, hmemory, hresource, hrlimit⟩ := hoccurs
  simp only [ofReason, htimeout, hcanceled, hmemout, hmemory, hresource, hrlimit]

end Verdict

namespace SExpr

open Reader

/-! ### Quotes about a text -/

theorem infix_enclosed_iff {word text : List Char} {quote : Char} (h : quote ∉ word) :
    word <:+: quote :: text ++ [quote] ↔ word <:+: text := by
  constructor
  · intro hword
    rcases List.infix_concat_iff.mp hword with hsuffix | hinfix
    · rcases List.suffix_concat_iff.mp hsuffix with rfl | ⟨init, rfl, -⟩
      · exact List.nil_infix
      · exact absurd (List.mem_append_right init (List.mem_singleton_self quote)) h
    · rcases List.infix_cons_iff.mp hinfix with hprefix | hinfix
      · cases word with
        | nil => exact List.nil_infix
        | cons c word =>
            obtain ⟨rfl, -⟩ := List.cons_prefix_cons.mp hprefix
            exact absurd List.mem_cons_self h
      · exact hinfix
  · intro hword
    exact List.infix_append_of_infix_left (List.infix_cons hword)

theorem infix_symbol_iff {word : List Char} {text : String} (hquote : '"' ∉ word)
    (hbar : '|' ∉ word) : word <:+: (symbol text).chars ↔ word <:+: text.toList := by
  by_cases hspaced : Spaced text.toList
  · rw [chars_symbol_bars hspaced]
    exact infix_enclosed_iff hbar
  by_cases hmem : '|' ∈ text.toList
  · rw [chars_symbol_quotes hspaced hmem]
    exact infix_enclosed_iff hquote
  · rw [chars_symbol_bare hspaced hmem]

theorem read_quoted {text : String} (h : '"' ∉ text.toList) :
    read (String.ofList ('"' :: (text.toList ++ ['"']))) = .ok (symbol text) := by
  have hquoted : single ('"' :: (text.toList ++ ['"'])) = .ok ⟨symbol text, [], []⟩ := by
    have happend : quoted '"' (text.toList ++ '"' :: []) = _ := quoted_append h
    rwa [String.ofList_toList] at happend
  apply read_eq_ok
  rw [String.toList_ofList]
  exact item_of_single hquoted

end SExpr

namespace Solver

open Text Dialogue SExpr.Reader

/-! ### Answers of a solver -/

/-- The solver takes a command and the request after it, and by then has written a text without a
marker among its lines, and the marker; more may have been written after it. -/
inductive Answers : Connection → SExpr → List Char → Connection → Prop where
  | mk {first told asked : Connection} {command : SExpr} {text : List Char} {mark : String}
    {rest : List UInt8} (hcommand : first.writeLine command.chars = .ok told)
    (hrequest : told.writeLine markerCommand.toList = .ok asked)
    (hplain : ∀ line ∈ Text.lines text, ¬isMarker line) (hmark : IsMark mark)
    (hunread : asked.unread =
      bytesOf (String.ofList (text ++ '\n' :: (mark.toList ++ ['\n']))) ++ rest) :
    Answers first command text (asked.withUnread rest)

variable {first last : Connection} {command : SExpr} {text : List Char} {dialogue : Dialogue}

theorem unlines_eq_joined {lines : List String} (h : lines ≠ []) :
    unlines lines = joined lines ++ ['\n'] := by
  rcases List.eq_nil_or_concat lines with rfl | ⟨init, line, rfl⟩
  · contradiction
  · rw [List.concat_eq_append, joined_append (List.cons_ne_nil _ _), unlines_append,
      joined_singleton]
    simp [unlines]

theorem unlines_lines (text : List Char) :
    unlines ((Text.lines text).map String.ofList) = text ++ ['\n'] := by
  rw [unlines_eq_joined, joined_lines]
  simpa using lines_ne_nil text

theorem run_consult_of_answers (h : Answers dialogue.connection command text last) :
    ∃ next, (consult command).run dialogue = (.ok (String.ofList (trimEnd text)), next) ∧
      next.connection = last := by
  cases h with
  | @mk told asked _ _ mark rest hcommand hrequest hplain hmark hunread =>
      have hlines : ∀ line ∈ (Text.lines text).map String.ofList, IsPlain line := by
        intro line hmem
        obtain ⟨chars, hchars, rfl⟩ := List.mem_map.mp hmem
        unfold IsPlain
        rw [String.toList_ofList]
        exact ⟨newline_not_mem_lines hchars, hplain chars hchars⟩
      have hcollect := collect_unlines hlines hmark rest
      rw [unlines_append, unlines_lines, trimEnd_append_newline] at hcollect
      have htext : text ++ ['\n'] ++ unlines [mark] = text ++ '\n' :: (mark.toList ++ ['\n']) := by
        simp [unlines]
      rw [htext, ← hunread] at hcollect
      have hconsult := run_consult_of_writes hcommand hrequest
      rw [hcollect, flatten_byteLines] at hconsult
      exact ⟨_, hconsult, rfl⟩

/-- A reply that does not end in white space is read as it was written. -/
theorem run_ask_of_answers {expr : SExpr} (h : Answers dialogue.connection command text last)
    (htrim : trimEnd text = text) (hread : SExpr.read (String.ofList text) = .ok expr)
    (herror : isError expr = false) :
    ∃ next, (ask command).run dialogue = (.ok expr, next) := by
  obtain ⟨next, hconsult, -⟩ := run_consult_of_answers h
  refine ⟨next, ?_⟩
  rw [ask_eq, Action.run_bind_ok hconsult, htrim, readAnswer, hread]
  simp [herror]

/-! ### The answer to the question for a reason -/

/-- The reason between double quotes, behind the keyword that was asked for. -/
def reasonReply (reason : String) : List Char :=
  '(' :: (":reason-unknown".toList ++ ' ' :: '"' :: (reason.toList ++ ['"', ')']))

theorem trimEnd_reasonReply (reason : String) :
    trimEnd (reasonReply reason) = reasonReply reason := by
  have hend : reasonReply reason =
      ('(' :: (":reason-unknown".toList ++ ' ' :: '"' :: (reason.toList ++ ['"']))) ++ [')'] := by
    simp [reasonReply]
  have hparen : ¬[')'].all isWhiteSpace := by decide
  rw [hend, trimEnd_append hparen]
  rfl

theorem read_reasonReply {reason : String} (h : '"' ∉ reason.toList) :
    SExpr.read (String.ofList (reasonReply reason)) =
      .ok (.list [.symbol ":reason-unknown", .symbol reason]) := by
  have hbare : Bare ":reason-unknown".toList :=
    .name (by decide) (List.all_eq_true.mp (by decide))
  have hkeyword := hbare.single
    (SExpr.clear_of_mem (c := ' ') (by decide) ('"' :: (reason.toList ++ ['"', ')'])))
  have hreason : single ('"' :: (reason.toList ++ ['"', ')'])) =
      .ok ⟨.symbol reason, [')'], [')']⟩ := by
    have hquoted : quoted '"' (reason.toList ++ '"' :: [')']) = _ := quoted_append h
    rwa [String.ofList_toList] at hquoted
  have hitems (fuel : Nat) : ∃ furthest, items (fuel + 3) (reasonReply reason).tail =
      ⟨[.symbol ":reason-unknown", .symbol reason], [')'], furthest⟩ := by
    have hfirst := @items_single _ _ (fuel + 1) [] nofun hkeyword
    have hsecond := @items_single _ _ fuel [' '] (List.all_eq_true.mp (by decide)) hreason
    obtain ⟨furthest, hend⟩ := SExpr.items_paren (fuel + 1) []
    rw [List.singleton_append, hend] at hsecond
    rw [hsecond] at hfirst
    exact ⟨furthest, hfirst⟩
  apply SExpr.read_eq_ok
  rw [String.toList_ofList]
  obtain ⟨furthest, hlist⟩ := hitems (2 * (reasonReply reason).tail.length)
  exact item_list hlist

/-- The printed reason is what the dialogue hands on. -/
theorem run_info_of_answers {reason : String} (h : '"' ∉ reason.toList)
    (hanswers : Answers dialogue.connection (Client.infoCommand ":reason-unknown")
      (reasonReply reason) last) :
    ∃ next, (info ":reason-unknown").run dialogue = (.ok (.symbol reason), next) := by
  obtain ⟨next, hask⟩ :=
    run_ask_of_answers hanswers (trimEnd_reasonReply reason) (read_reasonReply h) rfl
  exact ⟨next, Action.run_bind_ok hask _⟩

theorem run_checkSat_of_answers {reason : String} {middle : Connection} (h : '"' ∉ reason.toList)
    (hunknown : Answers dialogue.connection checkSatCommand "unknown".toList middle)
    (hreason : Answers middle (Client.infoCommand ":reason-unknown") (reasonReply reason) last) :
    ∃ next, checkSat.run dialogue = (.ok (.unknown (SExpr.symbol reason).print), next) := by
  obtain ⟨asked, hconsult, rfl⟩ := run_consult_of_answers hunknown
  obtain ⟨next, hinfo⟩ := run_info_of_answers h hreason
  refine ⟨next, ?_⟩
  rw [checkSat_eq, Action.run_bind_ok hconsult]
  exact Action.run_bind_ok hinfo _

end Solver

namespace Verdict

/-- No keyword has a quote or a bar in it, in any letter case. -/
theorem not_mem_of_keyword {word : List Char} {keyword : String} {c : Char}
    (hmem : keyword ∈ keywords) (hword : word.map Char.toLower = keyword.toList)
    (hc : c ∈ ['"', '|']) : c ∉ word := by
  intro h
  have hlower : c.toLower ∈ keyword.toList := hword ▸ List.mem_map_of_mem h
  have hnone : keywords.all fun keyword => ['"', '|'].all (·.toLower ∉ keyword.toList) := by decide
  have hfree := List.all_eq_true.mp (List.all_eq_true.mp hnone keyword hmem) c hc
  exact of_decide_eq_true hfree hlower

theorem infix_print_iff {reason keyword : String} {word : List Char} (hmem : keyword ∈ keywords)
    (hword : word.map Char.toLower = keyword.toList) :
    word <:+: (SExpr.symbol reason).print.toList ↔ word <:+: reason.toList := by
  have hprint : (SExpr.symbol reason).print.toList = (SExpr.symbol reason).chars :=
    String.toList_ofList
  rw [hprint]
  exact SExpr.infix_symbol_iff (not_mem_of_keyword hmem hword (by decide))
    (not_mem_of_keyword hmem hword (by decide))

theorem ofReason_print (reason : String) :
    ofReason (SExpr.symbol reason).print = ofReason reason := by
  refine ofReason_congr fun keyword hmem => exists_congr fun word => and_congr_right fun hword => ?_
  exact infix_print_iff hmem hword

end Verdict

namespace Smt

open Solver

/-- Where a solver cannot tell and gives a reason without a double quote in it, a check has no
counterexamples, and its verdict is that of the reason as the solver has it. The reason read and
printed again has a keyword in it, in any letter case, exactly if the reason itself does. -/
theorem check_of_reason {smt : Smt} {reason : String} {middle last : Connection}
    (h : '"' ∉ reason.toList)
    (hunknown : Answers smt.dialogue.connection checkSatCommand "unknown".toList middle)
    (hreason : Answers middle (Client.infoCommand ":reason-unknown") (reasonReply reason) last) :
    (check.run smt).1 = .ok ⟨.ofReason reason, []⟩ ∧
      SExpr.read (String.ofList ('"' :: (reason.toList ++ ['"']))) = .ok (.symbol reason) ∧
      ∀ keyword ∈ Verdict.keywords, ∀ word : List Char,
        word.map Char.toLower = keyword.toList →
          (word <:+: (SExpr.symbol reason).print.toList ↔ word <:+: reason.toList) := by
  refine ⟨?_, SExpr.read_quoted h, fun keyword hmem word hword =>
    Verdict.infix_print_iff hmem hword⟩
  obtain ⟨dialogue, hcheck⟩ := run_checkSat_of_answers h hunknown hreason
  have htalk : (talk Dialogue.checkSat).run smt =
      (.ok (.unknown (SExpr.symbol reason).print), { smt with dialogue }) :=
    Action.run_onPart_ok hcheck
  rw [check, Action.run_bind_ok htalk, ← Verdict.ofReason_print]
  rfl

/-- A reason on two lines, which the printer puts between bars. -/
def crampedReason : String := "solver's\nMEMOUT"

/-- An engine on a solver that cannot tell. -/
def cramped : Smt where
  dialogue := { connection := { behaviour := .scripted [.text "unknown",
    .text (String.ofList (reasonReply crampedReason))] } }
  limit := 1

theorem check_of_reason_cramped :
    (check.run cramped).1 = .ok ⟨.outOfMemory, []⟩ ∧
      SExpr.read "\"solver's\nMEMOUT\"" = .ok (.symbol crampedReason) := by
  let asked := (cramped.dialogue.connection.hear (.command checkSatCommand)).hear .request
  let told := (asked.withUnread []).hear (.command (Client.infoCommand ":reason-unknown"))
  have hunknown : Answers cramped.dialogue.connection checkSatCommand "unknown".toList
      (asked.withUnread []) := by
    refine .mk rfl rfl (by decide) (show Dialogue.IsMark "<<DONE>>" by decide) ?_
    decide +kernel
  have hreason : Answers (asked.withUnread []) (Client.infoCommand ":reason-unknown")
      (reasonReply crampedReason) ((told.hear .request).withUnread []) := by
    refine .mk rfl rfl (by decide) (show Dialogue.IsMark "<<DONE>>" by decide) ?_
    decide +kernel
  obtain ⟨hcheck, hread, -⟩ := check_of_reason (by decide) hunknown hreason
  refine ⟨?_, ?_⟩
  · rw [hcheck]
    decide
  · rw [← hread]
    rfl

end Smt

end SmtSession
