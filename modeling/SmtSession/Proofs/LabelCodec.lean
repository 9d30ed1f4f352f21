import Mathlib.Data.List.Forall2
import SmtSession.Label
import SmtSession.Proofs.PrintedLines

/-!
# Labels on the wire

A raw label is the mark of a kind and an identifier, in one text. What it marks is told by its first
character and the identifier is what is left, so to write a label and to take it apart are inverse
to each other, and a text that is not written in this way is refused by both halves alike. Of a list
of labels the identifiers are given all together, or the first label that is refused.
-/

namespace SmtSession.Label

open Text

variable {raw : String} {raws ids : List String} {error : UnknownLabel}

/-- The identifier is cut off the bytes of the label where those of the mark end. -/
theorem bytesOf_id (label : Label) :
    bytesOf label.id = (bytesOf label.print).drop label.kind.mark.utf8Size := by
  rw [print, bytesOf_ofList, List.flatMap_cons, ← bytesOf_ofList, String.ofList_toList,
    ← String.length_utf8EncodeChar, List.drop_left]

/-! ### Lists of labels -/

theorem idsOf_cons_print (label : Label) (raws : List String) :
    idsOf (label.print :: raws) = (idsOf raws).map (label.id :: ·) := by
  rw [idsOf, idsOf, readAll, read_print]
  cases readAll raws <;> rfl

theorem idsOf_cons_refused (h : kindOf raw = .error error) (raws : List String) :
    idsOf (raw :: raws) = .error error := by
  rw [idsOf, readAll, read_of_kindOf_error h]
  rfl

theorem idsOf_eq_ok_iff :
    idsOf raws = .ok ids ↔ List.Forall₂ (fun raw id => idOf raw = .ok id) raws ids := by
  induction raws generalizing ids with
  | nil =>
      change Except.ok [] = Except.ok ids ↔ _
      rw [Except.ok.injEq, List.forall₂_nil_left_iff, eq_comm]
  | cons raw raws ih =>
      rw [List.forall₂_cons_left_iff]
      rcases print_or_refused raw with ⟨label, rfl⟩ | hrefused
      · have hmap : (idsOf raws).map (label.id :: ·) = .ok ids ↔
            ∃ rest, idsOf raws = .ok rest ∧ label.id :: rest = ids := by
          cases idsOf raws <;> simp [Except.map]
        simp only [idsOf_cons_print, hmap, idOf_print, ih, Except.ok.injEq]
        constructor
        · rintro ⟨rest, hrest, rfl⟩
          exact ⟨label.id, rest, rfl, hrest, rfl⟩
        · rintro ⟨_, rest, rfl, hrest, rfl⟩
          exact ⟨rest, hrest, rfl⟩
      · rw [idsOf_cons_refused hrefused, idOf_of_kindOf_error hrefused]
        exact iff_of_false nofun fun ⟨_, _, h, _⟩ => nomatch h

theorem idsOf_eq_error_iff :
    idsOf raws = .error error ↔
      ∃ raw, raws.find? (fun raw => !(idOf raw).isOk) = some raw ∧ error = ⟨raw⟩ := by
  induction raws with
  | nil => exact iff_of_false nofun (by simp)
  | cons raw raws ih =>
      rcases print_or_refused raw with ⟨label, rfl⟩ | hrefused
      · have hok : (idOf label.print).isOk := by
          rw [idOf_print]
          rfl
        rw [idsOf_cons_print, List.find?_cons_of_neg (by simp [hok]), ← ih]
        cases idsOf raws <;> simp [Except.map]
      · have hfails : (idOf raw).isOk = false := by
          rw [idOf_of_kindOf_error hrefused]
          rfl
        rw [idsOf_cons_refused hrefused, List.find?_cons_of_pos (by rw [hfails]; rfl)]
        simp [eq_comm]

/-- What a label marks and its identifier are read back as they were written. Of any text both are
given or both refused, and those that are given write the same text, so no two labels share both.
The identifier is cut off where the bytes of the mark end. A list of labels gives all its
identifiers in order, if every label gives its own, and else the first label that gives none. -/
theorem codec_exact :
    (∀ kind id, kindOf (print ⟨kind, id⟩) = .ok kind ∧ idOf (print ⟨kind, id⟩) = .ok id) ∧
    (∀ raw,
      (∃ kind id, kindOf raw = .ok kind ∧ idOf raw = .ok id ∧ print ⟨kind, id⟩ = raw ∧
        bytesOf id = (bytesOf raw).drop kind.mark.utf8Size) ∨
      (kindOf raw = .error ⟨raw⟩ ∧ idOf raw = .error ⟨raw⟩)) ∧
    (∀ raw raw' kind id, kindOf raw = .ok kind → idOf raw = .ok id →
      kindOf raw' = .ok kind → idOf raw' = .ok id → raw = raw') ∧
    ∀ raws,
      (∀ ids, idsOf raws = .ok ids ↔ List.Forall₂ (fun raw id => idOf raw = .ok id) raws ids) ∧
      ∀ error, idsOf raws = .error error ↔
        ∃ raw, raws.find? (fun raw => !(idOf raw).isOk) = some raw ∧ error = ⟨raw⟩ := by
  refine ⟨fun kind id => ⟨kindOf_print ⟨kind, id⟩, idOf_print ⟨kind, id⟩⟩, ?_, ?_, ?_⟩
  · intro raw
    rcases print_or_refused raw with ⟨label, rfl⟩ | hrefused
    · exact Or.inl ⟨label.kind, label.id, kindOf_print label, idOf_print label, rfl,
        bytesOf_id label⟩
    · exact Or.inr ⟨hrefused, idOf_of_kindOf_error hrefused⟩
  · intro raw raw' kind id hkind hid hkind' hid'
    have hread {raw : String} (hkind : kindOf raw = .ok kind) (hid : idOf raw = .ok id) :
        print ⟨kind, id⟩ = raw := by
      apply print_of_read
      rw [read, hkind, hid]
      rfl
    rw [← hread hkind hid, hread hkind' hid']
  · exact fun raws => ⟨fun ids => idsOf_eq_ok_iff, fun error => idsOf_eq_error_iff⟩

/-- Only the mark is taken off, and the first text that has none is reported as it is. -/
example :
    idsOf ["+A", "||x", "@"] = .ok ["A", "|x", ""] ∧
      idsOf ["+A", "é+", "", "@C"] = .error ⟨"é+"⟩ := by
  decide

end SmtSession.Label
