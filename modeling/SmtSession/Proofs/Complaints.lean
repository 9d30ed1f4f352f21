import SmtSession.Proofs.SmtCalls

/-!
# Complaints of a solver

Commands are sent without waiting for what the solver thinks of them. If it does complain, that is
read together with the answer to the next check, which is then no verdict, and the check fails.
-/

namespace SmtSession

namespace Solver

open Text Dialogue

def Message.checkSat : Message := .command checkSatCommand

/-- After something was told, the next that a reply is asked for is a check. -/
theorem Orderly.silent {heard : Bool} {exchanges : List Exchange} {messages later : List Message}
    (h : Orderly false exchanges heard)
    (hmessages : exchanges.flatMap Exchange.messages = messages ++ later)
    (hnone : Message.checkSat ∉ messages) : ∀ message ∈ messages, message.IsSilent := by
  induction exchanges generalizing messages with
  | nil =>
      obtain ⟨rfl, -⟩ := List.append_eq_nil_iff.mp hmessages.symm
      exact nofun
  | cons exchange exchanges ih =>
      rw [List.flatMap_cons] at hmessages
      cases messages with
      | nil => exact nofun
      | cons message messages =>
          cases h with
          | told hsilent _ hrest =>
              obtain ⟨rfl, hmessages'⟩ := List.cons.inj hmessages
              have hnone' : Message.checkSat ∉ messages := by
                intro hmem
                exact hnone (List.mem_cons_of_mem _ hmem)
              exact List.forall_mem_cons.mpr ⟨hsilent, ih hrest hmessages' hnone'⟩
          | verdict =>
              obtain ⟨rfl, -⟩ := List.cons.inj hmessages
              exact absurd (List.mem_cons_self ..) hnone

theorem Orderly.silent_after {heard heard' : Bool} {exchanges : List Exchange} {message : Message}
    {before messages later : List Message} (h : Orderly heard exchanges heard')
    (hmessages : exchanges.flatMap Exchange.messages = before ++ message :: (messages ++ later))
    (hsilent : message.IsSilent) (hnone : Message.checkSat ∉ messages) :
    ∀ message ∈ messages, message.IsSilent := by
  cases message with
  | request => exact hsilent.elim
  | command content =>
      obtain ⟨first, exchange, last, rfl, -, rfl, hlast⟩ := exists_exchange hmessages
      obtain ⟨middle, -, horderly⟩ := h.of_append
      have hfits : exchange.Fits := horderly.fits exchange (List.mem_cons_self ..)
      rw [hfits.eq_told hsilent] at horderly hlast
      obtain ⟨-, hlast'⟩ := List.cons.inj hlast
      cases horderly with
      | told _ _ hrest => exact hrest.silent hlast' hnone

/-- What is read with anything before it is no verdict. -/
theorem not_mem_verdictTexts {lines answers : List String} (hlines : lines ≠ [])
    (hanswers : ∃ line ∈ answers, ¬isBlank line) :
    String.ofList (trimEnd (unlines (lines ++ answers))) ∉ verdictTexts := by
  obtain ⟨line, hmem, hblank⟩ := hanswers
  have hverdict : ∀ text ∈ verdictTexts, '\n' ∉ text.toList := by decide
  intro hmem'
  apply hverdict _ hmem'
  rw [String.toList_ofList, unlines_append, trimEnd_append (not_all_unlines hmem hblank)]
  apply List.mem_append_left
  obtain ⟨first, rest, rfl⟩ := List.exists_cons_of_ne_nil hlines
  rw [unlines, List.flatMap_cons]
  apply List.mem_append_left
  exact List.mem_append_right _ (List.mem_singleton_self _)

theorem errorText_of_readMany {reply message : String} {exprs : List SExpr}
    (hread : SExpr.readMany reply = .ok exprs)
    (hfind : exprs.findSome? errorMessage? = some message) : errorText reply = message := by
  rw [errorText, hread]
  simp [hfind]

end Solver

namespace Smt

open Solver Text Dialogue

/-- The exchanges of a run and of the call after it, with the lines that were printed for each
message since the start. -/
structure Ledger (earlier exchanges : List Exchange)
    (spoken within : List (Message × List String)) : Prop where
  orderly : ∃ heard, Orderly true (earlier ++ exchanges) heard
  passage : ∃ first last, Passage first (earlier ++ exchanges) last ∧ Unread first [] ∧
    first.Prints (spoken ++ within)
  spoken_eq : spoken.map Prod.fst = earlier.flatMap Exchange.messages
  within_eq : within.map Prod.fst = exchanges.flatMap Exchange.messages

variable {earlier exchanges : List Exchange} {call : Call} {result : Except Failure (Option Report)}
  {spoken within before middle inside rest : List (Message × List String)}
  {complaint : Message × List String} {answers : List String}

theorem Ledger.silent_after (h : Ledger earlier exchanges spoken within)
    (hsilent : complaint.1.IsSilent)
    (hsplit : spoken ++ within = before ++ complaint :: (middle ++ rest))
    (hnone : Message.checkSat ∉ middle.map Prod.fst) :
    ∀ message ∈ middle.map Prod.fst, message.IsSilent := by
  obtain ⟨heard, horderly⟩ := h.orderly
  have hmessages : (earlier ++ exchanges).flatMap Exchange.messages =
      before.map Prod.fst ++ complaint.1 :: (middle.map Prod.fst ++ rest.map Prod.fst) := by
    rw [List.flatMap_append, ← h.spoken_eq, ← h.within_eq, ← List.map_append, hsplit,
      List.map_append, List.map_cons, List.map_append]
  exact horderly.silent_after hmessages hsilent hnone

/-- Whatever is unread when a check is asked for makes it fail. -/
theorem Ledger.refused
    (h : Ledger earlier exchanges spoken (inside ++ (Message.checkSat, answers) :: rest))
    (hholds : call.Holds exchanges result) (hpending : unheard [] (spoken ++ inside) ≠ []) :
    call = .check ∧ result = .error (.refused (errorText
      (String.ofList (trimEnd (unlines (unheard [] (spoken ++ inside) ++ answers)))))) := by
  obtain ⟨first, last, hpassage, hunread, hprints⟩ := h.passage
  have hwithin := h.within_eq
  rw [List.map_append, List.map_cons] at hwithin
  obtain ⟨before, exchange, after, rfl, hbefore, hcommand, hafter⟩ := exists_exchange hwithin.symm
  obtain ⟨heard, horderly⟩ := h.orderly
  have hmem : exchange ∈ before ++ exchange :: after :=
    List.mem_append_right _ (List.mem_cons_self ..)
  have hfits : exchange.Fits := horderly.fits exchange (List.mem_append_right _ hmem)
  have hreply : awaitsReply exchange.command := by
    rw [hcommand]
    rfl
  obtain ⟨reply, hexchange⟩ := hfits.eq_asked hreply
  rw [hcommand] at hexchange
  subst hexchange
  have hcall : call = .check := hholds.of_asked _ _ hmem
  obtain ⟨-, hafter⟩ := List.cons.inj hafter
  have hbefore' : (spoken ++ inside).map Prod.fst =
      (earlier ++ before).flatMap Exchange.messages := by
    rw [List.map_append, List.flatMap_append, h.spoken_eq, hbefore]
  rw [← List.append_assoc] at hpassage hprints
  obtain rfl := hpassage.reply_eq hbefore' hafter.symm hprints hunread
  have hanswers : ∃ line ∈ answers, ¬isBlank line := by
    have hadmits := hprints.admits (Message.checkSat, answers)
      (List.mem_append_right _ (List.mem_cons_self ..))
    exact hadmits.2 rfl
  rcases hholds.faithful _ hmem with hverdict | hrefused
  · exact absurd hverdict (not_mem_verdictTexts hpending hanswers)
  · exact ⟨hcall, hrefused⟩

theorem Ledger.refused_of_complaint
    (h : Ledger earlier exchanges spoken (inside ++ (Message.checkSat, answers) :: rest))
    (hholds : call.Holds exchanges result) (hsilent : complaint.1.IsSilent)
    (hprinted : complaint.2 ≠ []) (hsplit : spoken ++ inside = before ++ complaint :: middle)
    (hnone : Message.checkSat ∉ middle.map Prod.fst) :
    call = .check ∧ result = .error (.refused (errorText (String.ofList (trimEnd (unlines
      (unheard [] before ++ complaint.2 ++ middle.flatMap Prod.snd ++ answers)))))) := by
  have hwhole : spoken ++ (inside ++ (Message.checkSat, answers) :: rest) =
      before ++ complaint :: (middle ++ (Message.checkSat, answers) :: rest) := by
    rw [← List.append_assoc, hsplit, List.append_assoc, List.cons_append]
  have hmiddle : ∀ said ∈ complaint :: middle, said.1.IsSilent := by
    have hafter := h.silent_after hsilent hwhole hnone
    exact List.forall_mem_cons.mpr ⟨hsilent, List.forall_mem_map.mp hafter⟩
  have hunheard : unheard [] (spoken ++ inside) =
      unheard [] before ++ complaint.2 ++ middle.flatMap Prod.snd := by
    rw [hsplit, unheard_append, unheard_of_silent hmiddle, List.flatMap_cons, List.append_assoc]
  have hpending : unheard [] (spoken ++ inside) ≠ [] := by
    rw [hunheard]
    simp [hprinted]
  rw [← hunheard]
  exact h.refused hholds hpending

theorem ledger_of_run {smt : Smt} {calls : List Call}
    (hunread : Unread smt.dialogue.connection [])
    (hprints : smt.dialogue.connection.Prints (spoken ++ within))
    (hwritten : ∀ result ∈ (performAll calls smt).1, Written result)
    (hcall : Written (call.perform.run (performAll calls smt).2).1)
    (hspoken : spoken.map Prod.fst = messagesSince smt (performAll calls smt).2)
    (hwithin : within.map Prod.fst =
      messagesSince (performAll calls smt).2 (call.perform.run (performAll calls smt).2).2) :
    ∃ earlier exchanges, Ledger earlier exchanges spoken within ∧
      call.Holds exchanges (call.perform.run (performAll calls smt).2).1 := by
  obtain ⟨earlier, hearlier, horderly⟩ := passes_performAll hwritten
  obtain ⟨exchanges, hexchanges, hholds⟩ := passes_perform hcall
  obtain ⟨heard, hfirst⟩ := horderly true
  obtain ⟨heard', hlast⟩ := hholds.orderly heard
  rw [hearlier.messagesSince_eq] at hspoken
  rw [hexchanges.messagesSince_eq] at hwithin
  have hpassage := hearlier.passage.append hexchanges.passage
  exact ⟨earlier, exchanges,
    ⟨⟨heard', hfirst.append hlast⟩, ⟨_, _, hpassage, hunread, hprints⟩, hspoken, hwithin⟩, hholds⟩

/-- For every run of calls whose writes succeed, and every solver that answers in lines: once it has
printed a line for a silent command, be it a blank one, no reply is asked for before the next check,
and the call that asks for that check fails with all that was printed. -/
theorem complaint_surfaces {host : Dialogue.Host} {program : String} {settings : Settings}
    {archive : Option Archive} {smt : Smt} {behaviour : Behaviour} (calls : List Call) (call : Call)
    {said spoken within : List (Message × List String)} {complaint : Message × List String}
    (hstart : Smt.start host program settings archive = (.ok (), smt))
    (hhost : host program = some behaviour)
    (hwritten : ∀ result ∈ (performAll calls smt).1, Written result)
    (hcall : Written (call.perform.run (performAll calls smt).2).1)
    (hsaid : said.map Prod.fst = opening settings program)
    (hspoken : spoken.map Prod.fst = messagesSince smt (performAll calls smt).2)
    (hwithin : within.map Prod.fst =
      messagesSince (performAll calls smt).2 (call.perform.run (performAll calls smt).2).2)
    (hprints : ({ behaviour } : Connection).Prints (said ++ (spoken ++ within)))
    (hsilent : complaint.1.IsSilent) (hprinted : complaint.2 ≠ []) :
    let result := (call.perform.run (performAll calls smt).2).1
    (∀ before middle rest, spoken ++ within = before ++ complaint :: (middle ++ rest) →
      Message.checkSat ∉ middle.map Prod.fst →
      ∀ message ∈ middle.map Prod.fst, message.IsSilent) ∧
    (∀ before middle inside answers rest, spoken ++ inside = before ++ complaint :: middle →
      within = inside ++ (Message.checkSat, answers) :: rest →
      Message.checkSat ∉ middle.map Prod.fst →
      call = .check ∧ ∃ reply, reply = String.ofList (trimEnd (unlines
          (unheard [] before ++ complaint.2 ++ middle.flatMap Prod.snd ++ answers))) ∧
        result = .error (.refused (errorText reply)) ∧
        ∀ exprs message, SExpr.readMany reply = .ok exprs →
          exprs.findSome? errorMessage? = some message → result = .error (.refused message)) ∧
    (∀ before after, spoken = before ++ complaint :: after →
      Message.checkSat ∉ after.map Prod.fst → call = .check →
      ∃ output, result = .error (.refused output)) := by
  intro result
  obtain ⟨hunread, hheard⟩ := unread_of_start hstart hhost hsaid hprints
  obtain ⟨earlier, exchanges, hledger, hholds⟩ :=
    ledger_of_run hunread hheard hwritten hcall hspoken hwithin
  refine ⟨?_, ?_, ?_⟩
  · intro before middle rest hsplit hnone
    exact hledger.silent_after hsilent hsplit hnone
  · intro before middle inside answers rest hsplit hinside hnone
    rw [hinside] at hledger
    obtain ⟨hcheck, hrefused⟩ :=
      hledger.refused_of_complaint hholds hsilent hprinted hsplit hnone
    refine ⟨hcheck, _, rfl, hrefused, ?_⟩
    intro exprs message hread hfind
    rw [← errorText_of_readMany hread hfind]
    exact hrefused
  · intro before after hsplit hnone hcheck
    obtain ⟨reply, later, rfl⟩ := hholds.asksFirst hcheck
    obtain ⟨⟨message, answers⟩, rest, rfl, hmessage, -⟩ :=
      List.map_eq_cons_iff.mp hledger.within_eq
    obtain rfl : message = Message.checkSat := hmessage
    have hinside : spoken ++ [] = before ++ complaint :: after := by
      rw [List.append_nil, hsplit]
    have hledger' : Ledger earlier _ spoken ([] ++ (Message.checkSat, answers) :: rest) := hledger
    exact ⟨_, (hledger'.refused_of_complaint hholds hsilent hprinted hinside hnone).2⟩

/-- A solver that does not know of a constant. -/
def grumblingHost : Dialogue.Host := fun _ => some grumble
where
  grumble : Behaviour
    | [] => {}
    | line :: _ =>
      if line = markerCommand then { output := bytesOf "<<DONE>>\n" }
      else if line = "(check-sat)" then { output := bytesOf "unsat\n" }
      else if line = "(assert p)" then { output := bytesOf "(error \"unknown constant p\")\n" }
      else {}

/-- What that solver prints when it is started. -/
def grumblingStart : List (Message × List String) :=
  (opening {} "z3").map fun message => (message, if message = .request then ["<<DONE>>"] else [])

def grumblingComplaint : Message × List String :=
  (.command (assertCommand (.symbol "p")), ["(error \"unknown constant p\")"])

theorem complaint_surfaces_unknown :
    (Smt.start grumblingHost "z3" {} none).1 = .ok () ∧
      (Call.check.perform.run (performAll [.assertAxiom (.symbol "p")]
          (Smt.start grumblingHost "z3" {} none).2).2).1 =
        .error (.refused "unknown constant p") := by
  have hstart := start_eq_ok (show (Smt.start grumblingHost "z3" {} none).1.isOk by
    decide +kernel)
  have hprints : ({ behaviour := grumblingHost.grumble } : Connection).Prints (grumblingStart ++
      ([grumblingComplaint] ++ [(Message.checkSat, ["unsat"]), (.request, ["<<DONE>>"])])) := by
    decide +kernel
  have hsilent : grumblingComplaint.1.IsSilent := by
    change ¬awaitsReply _
    decide
  obtain ⟨-, hissuing, -⟩ := complaint_surfaces [.assertAxiom (.symbol "p")] .check hstart rfl
    (by decide +kernel) (by decide +kernel) (by decide +kernel) (by decide +kernel)
    (by decide +kernel) hprints hsilent (by decide)
  obtain ⟨-, reply, rfl, hrefused, -⟩ :=
    hissuing [] [] [] ["unsat"] [(.request, ["<<DONE>>"])] rfl rfl (by decide)
  refine ⟨congrArg Prod.fst hstart, ?_⟩
  rw [hrefused]
  have htext : errorText (String.ofList (trimEnd (unlines
      (unheard [] [] ++ grumblingComplaint.2 ++ [] ++ ["unsat"])))) = "unknown constant p" := by
    decide +kernel
  exact congrArg (fun output => Except.error (Failure.refused output)) htext

end Smt

end SmtSession
