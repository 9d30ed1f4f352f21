import Mathlib.Data.List.Induction
import Mathlib.Data.List.Nodup
import SmtSession.Proofs.Entries

/-!
# The history of options

The options of an invocation are edited one name at a time: a name is set or dropped. What they are
in the end can be told from the history of the edits alone. A name has the value it was set to last,
if it was not dropped after that, and the names stand in the order in which they came in. A name
comes in where it is set and was not there before. To set it again does not move it, but once it is
dropped it comes in anew. What one edit keeps is that the options tell the history so far.
-/

namespace SmtSession.Invocation

open Solver Dialogue

inductive Edit where
  | set (name value : String)
  | drop (name : String)
deriving DecidableEq

def Edit.name : Edit → String
  | .set name _ => name
  | .drop name => name

def Edit.apply (invocation : Invocation) : Edit → Invocation
  | .set name value => invocation.setOption name value
  | .drop name => invocation.dropOption name

/-- What a client may do to the options of an invocation. -/
inductive Change where
  | modelGeneration (enabled : Bool)
  | modelCompletion (enabled : Bool)
  | typeCheck (enabled : Bool)
  | timeout (milliseconds : Option Nat)
  | set (name value : String)
  | drop (name : String)

namespace Change

def apply (invocation : Invocation) : Change → Invocation
  | .modelGeneration enabled => invocation.modelGeneration enabled
  | .modelCompletion enabled => invocation.modelCompletion enabled
  | .typeCheck enabled => invocation.typeCheck enabled
  | .timeout milliseconds => invocation.timeout milliseconds
  | .set name value => invocation.setOption name value
  | .drop name => invocation.dropOption name

def edit : Change → Edit
  | .modelGeneration enabled => .set "produce-models" (boolText enabled)
  | .modelCompletion enabled => .set "model.completion" (boolText enabled)
  | .typeCheck enabled => .set "well_sorted_check" (boolText enabled)
  | .timeout (some milliseconds) => .set "timeout" (toString milliseconds)
  | .timeout none => .drop "timeout"
  | .set name value => .set name value
  | .drop name => .drop name

/-- All edits since there were no options, those that every invocation begins with included. -/
def history (changes : List Change) : List Edit :=
  .set "global-declarations" "true" :: .set "produce-models" "true" :: changes.map edit

end Change

/-- The last that happened to the name is that it was set to the value. -/
def HasValue (name value : String) (history : List Edit) : Prop :=
  ∃ before after, history = before ++ .set name value :: after ∧ ∀ edit ∈ after, edit.name ≠ name

/-- The name comes in at this place of the history: it is set there, had no value before, and is not
dropped after. -/
def EntersAt (name : String) (history : List Edit) (place : Nat) : Prop :=
  ∃ before value after, history = before ++ .set name value :: after ∧ before.length = place ∧
    (∀ other, ¬HasValue name other before) ∧ .drop name ∉ after

def Precedes (history : List Edit) (earlier later : String) : Prop :=
  ∃ place place', EntersAt earlier history place ∧ EntersAt later history place' ∧ place < place'

def names (invocation : Invocation) : List String := invocation.options.map (·.1)

/-- The options are what their history says. -/
structure Follows (invocation : Invocation) (history : List Edit) : Prop where
  nodup : invocation.names.Nodup
  option?_iff : ∀ name value, invocation.option? name = some value ↔ HasValue name value history
  enters : ∀ name ∈ invocation.names, ∃ place, EntersAt name history place
  ordered : invocation.names.Pairwise (Precedes history)

variable {invocation : Invocation} {history : List Edit} {edit : Edit} {name value : String}
  {place : Nat}

/-! ### One edit of the options -/

theorem mem_names_iff :
    name ∈ invocation.names ↔ ∃ value, invocation.option? name = some value := by
  rw [← Option.isSome_iff_exists, option?, Option.isSome_map, List.find?_isSome, names,
    List.mem_map]
  simp

theorem map_fst_put (name value : String) (options : List (String × String)) :
    (put name value options).map (·.1) =
      if name ∈ options.map (·.1) then options.map (·.1) else options.map (·.1) ++ [name] := by
  induction options with
  | nil => rfl
  | cons option options ih =>
      obtain ⟨other, old⟩ := option
      by_cases hname : other = name
      · simp [put, hname]
      · rw [put, if_neg hname, List.map_cons, ih, List.map_cons]
        by_cases hmem : name ∈ options.map (·.1)
        · rw [if_pos hmem, if_pos (List.mem_cons_of_mem _ hmem)]
        · rw [if_neg hmem, if_neg (List.not_mem_cons_of_ne_of_not_mem (Ne.symm hname) hmem),
            List.cons_append]

theorem names_setOption (invocation : Invocation) (name value : String) :
    (invocation.setOption name value).names =
      if name ∈ invocation.names then invocation.names else invocation.names ++ [name] :=
  map_fst_put name value invocation.options

theorem names_dropOption (invocation : Invocation) (name : String) :
    (invocation.dropOption name).names = invocation.names.filter (· ≠ name) := by
  rw [names, names, dropOption, List.filter_map]
  rfl

theorem option?_apply_iff (edit : Edit) :
    (edit.apply invocation).option? name = some value ↔
      edit = .set name value ∨ edit.name ≠ name ∧ invocation.option? name = some value := by
  cases edit with
  | set other new =>
      rw [Edit.apply, option?_setOption, Edit.set.injEq, Edit.name]
      by_cases h : other = name <;> simp [h]
  | drop other =>
      rw [Edit.apply, option?_dropOption, Edit.name]
      by_cases h : other = name <;> simp [h]

/-! ### One more edit in the history -/

theorem not_hasValue_nil : ¬HasValue name value [] := by
  rintro ⟨before, after, h, -⟩
  simp at h

theorem hasValue_concat_iff :
    HasValue name value (history ++ [edit]) ↔
      edit = .set name value ∨ edit.name ≠ name ∧ HasValue name value history := by
  constructor
  · rintro ⟨before, after, h, hafter⟩
    cases after using List.reverseRecOn with
    | nil =>
        obtain ⟨-, hedit⟩ := List.append_inj' h rfl
        exact Or.inl (List.singleton_inj.mp hedit)
    | append_singleton after last =>
        rw [← List.cons_append, ← List.append_assoc] at h
        obtain ⟨hhistory, hlast⟩ := List.append_inj' h rfl
        obtain rfl := List.singleton_inj.mp hlast
        obtain ⟨hafter, hedit⟩ := List.forall_mem_append.mp hafter
        exact Or.inr ⟨hedit edit List.mem_cons_self, before, after, hhistory, hafter⟩
  · rintro (rfl | ⟨hedit, before, after, rfl, hafter⟩)
    · exact ⟨history, [], rfl, nofun⟩
    · refine ⟨before, after ++ [edit], by simp, ?_⟩
      exact List.forall_mem_append.mpr ⟨hafter, by simpa using hedit⟩

/-- A name that was set and not dropped since has a value. -/
theorem exists_hasValue {before after : List Edit} (h : .drop name ∉ after) :
    ∃ other, HasValue name other (before ++ .set name value :: after) := by
  induction after using List.reverseRecOn with
  | nil => exact ⟨value, before, [], rfl, nofun⟩
  | append_singleton after last ih =>
      rw [List.mem_append, not_or] at h
      obtain ⟨other, hother⟩ := ih h.1
      rw [← List.cons_append, ← List.append_assoc]
      by_cases hlast : last.name = name
      · cases last with
        | set new latest =>
            obtain rfl : new = name := hlast
            exact ⟨latest, hasValue_concat_iff.mpr (Or.inl rfl)⟩
        | drop new =>
            obtain rfl : new = name := hlast
            exact absurd List.mem_cons_self h.2
      · exact ⟨other, hasValue_concat_iff.mpr (Or.inr ⟨hlast, hother⟩)⟩

theorem EntersAt.exists_hasValue (h : EntersAt name history place) :
    ∃ value, HasValue name value history := by
  obtain ⟨before, value, after, rfl, -, -, hkept⟩ := h
  exact Invocation.exists_hasValue hkept

theorem EntersAt.lt_length (h : EntersAt name history place) : place < history.length := by
  obtain ⟨before, value, after, rfl, rfl, -, -⟩ := h
  simp

theorem EntersAt.concat (h : EntersAt name history place) (hedit : edit ≠ .drop name) :
    EntersAt name (history ++ [edit]) place := by
  obtain ⟨before, value, after, rfl, hplace, hfresh, hkept⟩ := h
  refine ⟨before, value, after ++ [edit], by simp, hplace, hfresh, ?_⟩
  rw [List.mem_append, not_or]
  exact ⟨hkept, fun hmem => hedit (List.mem_singleton.mp hmem).symm⟩

theorem entersAt_concat (h : ∀ other, ¬HasValue name other history) :
    EntersAt name (history ++ [.set name value]) history.length :=
  ⟨history, value, [], rfl, rfl, h, List.not_mem_nil⟩

/-- A name comes in at one place only, as the two places may be exchanged. -/
theorem EntersAt.le (h : EntersAt name history place) {place' : Nat}
    (h' : EntersAt name history place') : place ≤ place' := by
  obtain ⟨before, value, after, hhistory, rfl, hfresh, -⟩ := h
  obtain ⟨before', value', after', hhistory', rfl, -, hkept⟩ := h'
  by_contra hlt
  rw [hhistory'] at hhistory
  obtain ⟨between, rfl⟩ : ∃ between, before = before' ++ .set name value' :: between := by
    rcases List.append_eq_append_iff.mp hhistory with
      ⟨between, hbefore, hrest⟩ | ⟨more, hbefore, -⟩
    · cases between with
      | nil => simp [hbefore] at hlt
      | cons first between =>
          obtain ⟨rfl, -⟩ := List.cons.inj hrest
          exact ⟨between, hbefore⟩
    · simp [hbefore] at hlt
  -- The name is not dropped between the two places, so it still has a value at the second.
  have hnone : .drop name ∉ between := by
    intro hmem
    apply hkept
    rw [List.append_assoc, List.append_cancel_left_eq, List.cons_append,
      List.cons.injEq] at hhistory
    rw [hhistory.2]
    exact List.mem_append_left _ hmem
  obtain ⟨other, hother⟩ := Invocation.exists_hasValue hnone
  exact hfresh other hother

/-! ### All edits -/

theorem follows_nil (program : String) (args : List String) : Follows ⟨program, args, []⟩ [] where
  nodup := List.nodup_nil
  option?_iff _ _ := iff_of_false nofun not_hasValue_nil
  enters := nofun
  ordered := .nil

theorem Precedes.concat {earlier later : String} (h : Precedes history earlier later)
    (hearlier : edit ≠ .drop earlier) (hlater : edit ≠ .drop later) :
    Precedes (history ++ [edit]) earlier later := by
  obtain ⟨place, place', hplace, hplace', hlt⟩ := h
  exact ⟨place, place', hplace.concat hearlier, hplace'.concat hlater, hlt⟩

theorem Follows.option?_apply_iff (h : Follows invocation history) (edit : Edit)
    (name value : String) :
    (edit.apply invocation).option? name = some value ↔
      HasValue name value (history ++ [edit]) := by
  rw [hasValue_concat_iff, ← h.option?_iff]
  exact Invocation.option?_apply_iff edit

theorem Follows.set (h : Follows invocation history) (name value : String) :
    Follows (invocation.setOption name value) (history ++ [.set name value]) := by
  have hkept : invocation.names.Pairwise (Precedes (history ++ [.set name value])) :=
    h.ordered.imp fun hprecedes => hprecedes.concat nofun nofun
  have henters : ∀ other ∈ invocation.names, ∃ place,
      EntersAt other (history ++ [.set name value]) place := by
    intro other hmem
    obtain ⟨place, hplace⟩ := h.enters other hmem
    exact ⟨place, hplace.concat nofun⟩
  have hoption := h.option?_apply_iff (.set name value)
  by_cases hmem : name ∈ invocation.names
  · have hnames : (invocation.setOption name value).names = invocation.names := by
      rw [names_setOption, if_pos hmem]
    refine ⟨?_, hoption, ?_, ?_⟩ <;> rw [hnames]
    · exact h.nodup
    · exact henters
    · exact hkept
  · have hnames : (invocation.setOption name value).names = invocation.names ++ [name] := by
      rw [names_setOption, if_neg hmem]
    -- The name comes in now, at the end of the history and after all others.
    have hnew : EntersAt name (history ++ [.set name value]) history.length := by
      apply entersAt_concat
      intro other hother
      exact hmem (mem_names_iff.mpr ⟨other, (h.option?_iff name other).mpr hother⟩)
    refine ⟨?_, hoption, ?_, ?_⟩ <;> rw [hnames]
    · exact List.nodup_append.mpr ⟨h.nodup, List.nodup_singleton name, by grind⟩
    · exact List.forall_mem_append.mpr ⟨henters, by simpa using ⟨_, hnew⟩⟩
    · refine List.pairwise_append.mpr ⟨hkept, List.pairwise_singleton _ name, ?_⟩
      intro other hother last hlast
      obtain rfl := List.mem_singleton.mp hlast
      obtain ⟨place, hplace⟩ := h.enters other hother
      exact ⟨place, _, hplace.concat nofun, hnew, hplace.lt_length⟩

theorem Follows.drop (h : Follows invocation history) (name : String) :
    Follows (invocation.dropOption name) (history ++ [.drop name]) := by
  have hne {other : String} (hmem : other ∈ (invocation.dropOption name).names) :
      other ∈ invocation.names ∧ Edit.drop name ≠ .drop other := by
    rw [names_dropOption, List.mem_filter, decide_eq_true_eq] at hmem
    exact ⟨hmem.1, fun heq => hmem.2 (Edit.drop.inj heq).symm⟩
  have hsublist : (invocation.dropOption name).names.Sublist invocation.names := by
    rw [names_dropOption]
    exact List.filter_sublist
  refine ⟨h.nodup.sublist hsublist, h.option?_apply_iff (.drop name), ?_, ?_⟩
  · intro other hmem
    obtain ⟨place, hplace⟩ := h.enters other (hne hmem).1
    exact ⟨place, hplace.concat (hne hmem).2⟩
  · refine (h.ordered.sublist hsublist).imp_of_mem ?_
    intro earlier later hearlier hlater hprecedes
    exact hprecedes.concat (hne hearlier).2 (hne hlater).2

theorem Follows.apply (h : Follows invocation history) (edit : Edit) :
    Follows (edit.apply invocation) (history ++ [edit]) := by
  cases edit with
  | set name value => exact h.set name value
  | drop name => exact h.drop name

theorem Follows.applyAll (h : Follows invocation history) (edits : List Edit) :
    Follows (edits.foldl Edit.apply invocation) (history ++ edits) := by
  induction edits generalizing invocation history with
  | nil => rwa [List.append_nil]
  | cons edit edits ih =>
      rw [List.append_cons]
      exact ih (h.apply edit)

theorem Change.apply_eq (change : Change) (invocation : Invocation) :
    change.apply invocation = change.edit.apply invocation := by
  cases change with
  | timeout milliseconds => cases milliseconds <;> rfl
  | _ => rfl

theorem foldl_change (changes : List Change) (program : String) :
    changes.foldl Change.apply (base program) =
      (Change.history changes).foldl Edit.apply ⟨program, ["-in", "-smt2"], []⟩ := by
  rw [Change.history, List.foldl_cons, List.foldl_cons, List.foldl_map]
  simp only [← Change.apply_eq]
  rfl

theorem follows_of_changes (program : String) (changes : List Change) :
    Follows (changes.foldl Change.apply (base program)) (Change.history changes) := by
  rw [foldl_change]
  exact (follows_nil program _).applyAll _

/-! ### The commands that set the options -/

/-- A solver that takes its options was written them in their order, and then the request for what
it has to say of them. -/
theorem heard_of_configure {options : List (String × String)} {first last : Dialogue}
    (h : (configure options).run first = (.ok (), last)) :
    first.connection.Heard
      (options.map (fun option => .command (optionCommand option)) ++ [.request])
      last.connection := by
  obtain ⟨second, reply, hconversation, hawait⟩ := conversation_of_configure h
  obtain ⟨asked, left, hwrite, -, hlast⟩ := run_awaitReply_written hawait nofun
  have hoptions := Connection.heard_of_passage hconversation.passage
  have hrequest : second.connection.Heard [.request] asked := Connection.heard_of_writeLine hwrite
  have hmessages : (options.map fun option => Exchange.told (optionCommand option)).flatMap
      Exchange.messages = options.map fun option => .command (optionCommand option) := by
    rw [List.flatMap_map, List.map_eq_flatMap]
    rfl
  rw [hmessages] at hoptions
  rw [hlast]
  exact hoptions.append hrequest

/-- Whatever is set, set again and dropped, no name stands twice among the options, a name has the
value it was set to last unless it was dropped after that, and the names stand in the order in which
they were set first since they were last dropped. A solver that is started with the options is
written them in this order. -/
theorem options_keep_order (program : String) (changes : List Change) :
    let invocation := changes.foldl Change.apply (base program)
    let history := Change.history changes
    invocation.names.Nodup ∧
    (∀ name value, invocation.option? name = some value ↔ HasValue name value history) ∧
    (∀ name, name ∈ invocation.names ↔ ∃ place, EntersAt name history place) ∧
    invocation.names.Pairwise (fun earlier later => ∀ place place',
      EntersAt earlier history place → EntersAt later history place' → place < place') ∧
    ∀ host archive dialogue, Dialogue.start host invocation archive = (.ok (), dialogue) →
      ∃ behaviour, host invocation.program = some behaviour ∧
        ({ behaviour } : Connection).Heard
          (invocation.options.map (fun option => .command (optionCommand option)) ++ [.request])
          dialogue.connection := by
  intro invocation history
  have h : Follows invocation history := follows_of_changes program changes
  refine ⟨h.nodup, h.option?_iff, fun name => ⟨h.enters name, ?_⟩, ?_, ?_⟩
  · rintro ⟨place, hplace⟩
    obtain ⟨value, hvalue⟩ := hplace.exists_hasValue
    exact mem_names_iff.mpr ⟨value, (h.option?_iff name value).mpr hvalue⟩
  · refine h.ordered.imp ?_
    rintro earlier later ⟨place, place', hplace, hplace', hlt⟩ first second hfirst hsecond
    calc
      first ≤ place := hfirst.le hplace
      _ < place' := hlt
      _ ≤ second := hplace'.le hsecond
  · intro host archive dialogue hstart
    unfold Dialogue.start at hstart
    split at hstart
    · simp at hstart
    · next behaviour hhost => exact ⟨behaviour, hhost, heard_of_configure hstart⟩

/-- An option set again keeps its place, and one that was dropped comes in at the end. -/
example :
    let changes : List Change := [.timeout (some 10), .modelCompletion false, .set "a" "1",
      .modelGeneration false, .timeout none, .modelCompletion true, .timeout (some 20)]
    (changes.foldl Change.apply (base "z3")).options =
      [("global-declarations", "true"), ("produce-models", "false"), ("model.completion", "true"),
        ("a", "1"), ("timeout", "20")] := by
  decide

end SmtSession.Invocation
