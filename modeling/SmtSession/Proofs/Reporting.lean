import SmtSession.Engine.Scripted
import SmtSession.Proofs.Operation

/-!
# Reports of counterexamples

A client is told of the counterexamples of a check all together or not at all. The labels of every
model are decoded before the client sees the first, so one label without a known mark, however far
down, leaves nothing to report. What the engine attaches to a verdict other than invalid is ignored.
-/

namespace SmtSession

namespace Label

/-- Whether the first character is one of the marks. -/
def isMarked (raw : String) : Bool := raw.toList.head?.any ['+', '|', '@'].contains

/-- A label without its first character. -/
def unmarked (raw : String) : String := String.ofList raw.toList.tail

variable {raw : String} {raws : List String}

theorem isSome_ofMark? (mark : Char) :
    (Kind.ofMark? mark).isSome = ['+', '|', '@'].contains mark := by
  unfold Kind.ofMark?
  split
  · rfl
  · rfl
  · rfl
  · next hpositive hchoice htracking =>
    simp only [List.contains_cons, List.contains_nil, beq_eq_false_iff_ne.mpr hpositive,
      beq_eq_false_iff_ne.mpr hchoice, beq_eq_false_iff_ne.mpr htracking]
    rfl

theorem read_of_isMarked (h : isMarked raw) :
    ∃ label, read raw = .ok label ∧ label.id = unmarked raw := by
  obtain ⟨mark, hmark, hknown⟩ := (Option.any_eq_true _ _).mp h
  rw [← isSome_ofMark?] at hknown
  obtain ⟨kind, hkind⟩ := Option.isSome_iff_exists.mp hknown
  have hkindOf : kindOf raw = .ok kind := by
    rw [kindOf, hmark, Option.bind_some, hkind]
  refine ⟨⟨kind, unmarked raw⟩, ?_, rfl⟩
  rw [read, idOf, hkindOf]
  rfl

theorem read_of_not_isMarked (h : isMarked raw = false) : read raw = .error ⟨raw⟩ := by
  apply read_of_kindOf_error
  unfold kindOf
  split
  · next kind hkind =>
    obtain ⟨mark, hmark, hkind⟩ := Option.bind_eq_some_iff.mp hkind
    rw [isMarked, hmark, Option.any_some, ← isSome_ofMark?, hkind] at h
    contradiction
  · rfl

theorem readAll_of_isMarked (h : ∀ raw ∈ raws, isMarked raw) :
    ∃ labels, readAll raws = .ok labels ∧ labels.map Label.id = raws.map unmarked := by
  induction raws with
  | nil => exact ⟨[], rfl, rfl⟩
  | cons raw raws ih =>
      obtain ⟨hraw, hraws⟩ := List.forall_mem_cons.mp h
      obtain ⟨label, hread, hid⟩ := read_of_isMarked hraw
      obtain ⟨labels, hreadAll, hids⟩ := ih hraws
      refine ⟨label :: labels, ?_, ?_⟩
      · rw [readAll, hread, hreadAll]
        rfl
      · rw [List.map_cons, List.map_cons, hid, hids]

/-- The first label without a mark is the one that is refused. -/
theorem readAll_of_find? (h : raws.find? (!isMarked ·) = some raw) :
    readAll raws = .error ⟨raw⟩ := by
  induction raws with
  | nil => contradiction
  | cons first raws ih =>
      cases hfirst : isMarked first with
      | false =>
          rw [List.find?_cons_of_pos (by rw [hfirst]; rfl), Option.some.injEq] at h
          rw [readAll, read_of_not_isMarked hfirst, h]
      | true =>
          rw [List.find?_cons_of_neg (by rw [hfirst]; exact Bool.false_ne_true)] at h
          obtain ⟨label, hread, -⟩ := read_of_isMarked hfirst
          rw [readAll, hread, ih h]
          rfl

end Label

namespace Session

/-- What the client is told of a finding: the decoded labels and the model. -/
def Finding.told (finding : Finding) : List String × Model :=
  (finding.labels.map Label.id, finding.model)

/-- The labels of all counterexamples, those of the first one first. -/
def rawLabels (counterexamples : List Counterexample) : List String :=
  counterexamples.flatMap Counterexample.labels

/-- What there is to tell of a counterexample, if all its labels are marked. -/
def telling (counterexample : Counterexample) : List String × Model :=
  (counterexample.labels.map Label.unmarked, counterexample.model)

theorem findings_of_isMarked {counterexamples : List Counterexample}
    (h : ∀ raw ∈ rawLabels counterexamples, Label.isMarked raw) :
    ∃ reported, findings counterexamples = .ok reported ∧
      reported.map Finding.told = counterexamples.map telling := by
  induction counterexamples with
  | nil => exact ⟨[], rfl, rfl⟩
  | cons counterexample counterexamples ih =>
      rw [rawLabels, List.flatMap_cons] at h
      obtain ⟨hhere, hothers⟩ := List.forall_mem_append.mp h
      obtain ⟨labels, hlabels, hids⟩ := Label.readAll_of_isMarked hhere
      obtain ⟨reported, hreported, htold⟩ := ih hothers
      refine ⟨⟨labels, counterexample.model⟩ :: reported, ?_, ?_⟩
      · rw [findings, hlabels, hreported]
        rfl
      · rw [List.map_cons, List.map_cons, htold, Finding.told, hids]
        rfl

theorem findings_of_find? {counterexamples : List Counterexample} {raw : String}
    (h : (rawLabels counterexamples).find? (!Label.isMarked ·) = some raw) :
    findings counterexamples = .error ⟨raw⟩ := by
  induction counterexamples with
  | nil => contradiction
  | cons counterexample counterexamples ih =>
      rw [rawLabels, List.flatMap_cons, List.find?_append] at h
      cases hhere : counterexample.labels.find? (!Label.isMarked ·) with
      | some first =>
          rw [hhere, Option.some_or, Option.some.injEq] at h
          rw [findings, Label.readAll_of_find? hhere, h]
      | none =>
          rw [hhere, Option.none_or] at h
          have hmarked : ∀ raw ∈ counterexample.labels, Label.isMarked raw := by
            simpa using List.find?_eq_none.mp hhere
          obtain ⟨labels, hlabels, -⟩ := Label.readAll_of_isMarked hmarked
          rw [findings, hlabels, ih h]
          rfl

/-- Counterexamples that are to be reported: those of an invalid verdict, if every label of theirs
is marked. -/
def Reportable (report : Report) : Prop :=
  report.verdict = .invalid ∧ ∀ raw ∈ rawLabels report.counterexamples, Label.isMarked raw

instance (report : Report) : Decidable (Reportable report) := inferInstanceAs (Decidable (_ ∧ _))

section Report

variable {σ : Type} {session : Session σ} {report : Report}

theorem outcome_of_reportable (hverdict : session.verdict = report.verdict)
    (hcounterexamples : session.counterexamples = report.counterexamples)
    (h : Reportable report) :
    session.outcome.findings.map Finding.told = report.counterexamples.map telling ∧
      session.outcome.result = .ok report.verdict := by
  obtain ⟨hinvalid, hmarked⟩ := h
  obtain ⟨reported, hreported, htold⟩ := findings_of_isMarked hmarked
  rw [outcome, if_pos (hverdict.trans hinvalid), hcounterexamples, hreported]
  exact ⟨htold, by rw [hinvalid]⟩

theorem outcome_of_find? (hverdict : session.verdict = .invalid) {raw : String}
    (h : (rawLabels session.counterexamples).find? (!Label.isMarked ·) = some raw) :
    session.outcome = ⟨[], .error (.label ⟨raw⟩)⟩ := by
  rw [outcome, if_pos hverdict, findings_of_find? h]

theorem outcome_of_ne_invalid (h : session.verdict ≠ .invalid) :
    session.outcome = ⟨[], .ok session.verdict⟩ := by
  rw [outcome, if_neg h]

/-- To read the outcome, however often, changes nothing. -/
theorem performAll_outcome [Engine σ] (count : Nat) (session : Session σ) :
    (performAll (List.replicate count .outcome) session).2 = session := by
  induction count with
  | zero => rfl
  | succ count ih =>
      have hread : Operation.outcome.perform.run session = (.ok (), session) := rfl
      rw [List.replicate_succ, performAll_cons hread, ih]

/-- Whatever an engine reports, and to whatever session: the client is told of every counterexample
once, in order and with its labels decoded, if the verdict is invalid and every label is marked, and
of none otherwise. The outcome is an error exactly if the verdict is invalid and some label is not
marked, and then it names the first of these; else it is the verdict. To read it changes nothing. -/
theorem reports_all_or_nothing [Engine σ] {engine : σ} (name : String)
    (hcheck : Engine.check.run session.engine = (.ok report, engine)) :
    let checked := (checkAsserted name).run session
    let told := checked.2.outcome.findings.map Finding.told
    let result := checked.2.outcome.result
    checked.1 = .ok () ∧
    told = (if Reportable report then report.counterexamples.map telling else []) ∧
    (∀ failure, result = .error failure ↔ report.verdict = .invalid ∧ ∃ raw,
      (rawLabels report.counterexamples).find? (!Label.isMarked ·) = some raw ∧
        failure = .label ⟨raw⟩) ∧
    ((∀ failure, result ≠ .error failure) → result = .ok report.verdict) ∧
    ∀ count, (performAll (List.replicate count .outcome) checked.2).2 = checked.2 := by
  intro checked told result
  have hrun : checked = (.ok (), _) := run_checkAsserted_ok hcheck
  have hverdict : checked.2.verdict = report.verdict := by rw [hrun]; rfl
  have hcounterexamples : checked.2.counterexamples = report.counterexamples := by rw [hrun]; rfl
  refine ⟨congrArg Prod.fst hrun, ?_⟩
  rw [← and_assoc, ← and_assoc]
  refine ⟨?_, fun count => performAll_outcome count checked.2⟩
  by_cases hinvalid : report.verdict = .invalid
  · cases hfind : (rawLabels report.counterexamples).find? (!Label.isMarked ·) with
    | none =>
        have hreportable : Reportable report := by
          refine ⟨hinvalid, ?_⟩
          simpa using List.find?_eq_none.mp hfind
        obtain ⟨htold, hresult⟩ := outcome_of_reportable hverdict hcounterexamples hreportable
        refine ⟨⟨htold.trans (if_pos hreportable).symm, fun failure => ?_⟩, fun _ => hresult⟩
        simp [result, hresult]
    | some raw =>
        have hnot : ¬Reportable report := by
          rintro ⟨-, hmarked⟩
          have hraw := List.find?_some hfind
          rw [hmarked raw (List.mem_of_find?_eq_some hfind)] at hraw
          contradiction
        have houtcome := outcome_of_find? (hverdict.trans hinvalid) (hcounterexamples ▸ hfind)
        have hresult : result = .error (.label ⟨raw⟩) := congrArg Outcome.result houtcome
        have htold : told = [] := by
          change checked.2.outcome.findings.map _ = []
          rw [houtcome, List.map_nil]
        refine ⟨⟨htold.trans (if_neg hnot).symm, fun failure => ?_⟩, fun h => absurd hresult (h _)⟩
        rw [hresult, Except.error.injEq]
        refine ⟨fun h => ⟨hinvalid, raw, rfl, h.symm⟩, ?_⟩
        rintro ⟨-, found, hfound, rfl⟩
        rw [Option.some.inj hfound]
  · have houtcome := outcome_of_ne_invalid (hverdict ▸ hinvalid)
    have hresult : result = .ok report.verdict := by
      rw [← hverdict]
      exact congrArg Outcome.result houtcome
    have htold : told = [] := by
      change checked.2.outcome.findings.map _ = []
      rw [houtcome, List.map_nil]
    have hnot : ¬Reportable report := fun h => hinvalid h.1
    refine ⟨⟨htold.trans (if_neg hnot).symm, fun failure => ?_⟩, fun _ => hresult⟩
    simp [hresult, hinvalid]

end Report

/-- The last label of the second model leaves nothing to report of the first. -/
theorem reports_all_or_nothing_spoiled :
    let report : Report := ⟨.invalid, [⟨.empty, ["+A"]⟩, ⟨.empty, ["@B", "C"]⟩]⟩
    let session := start ({ answers := [.ok report] } : Scripted) {}
    let checked := ((checkAsserted "goal").run session).2
    (Engine.check.run session.engine).1 = .ok report ∧
      checked.outcome.findings.map Finding.told = [] ∧
      checked.outcome.result = .error (.label ⟨"C"⟩) := by
  intro report session checked
  have hcheck : Engine.check.run session.engine =
      (.ok report, (Engine.check.run session.engine).2) := rfl
  obtain ⟨-, htold, hresult, -⟩ := reports_all_or_nothing "goal" hcheck
  refine ⟨congrArg Prod.fst hcheck, htold.trans (if_neg (by decide)), ?_⟩
  exact (hresult _).mpr ⟨rfl, "C", by decide, rfl⟩

end Session

end SmtSession
