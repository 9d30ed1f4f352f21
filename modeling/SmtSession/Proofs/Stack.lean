import SmtSession.Engine.Scripted

/-!
# Stacks of frames

What is asserted stands in frames: a base that stays, and frames above it that are dropped from the
latest on. An engine in memory keeps such a stack as it is. Of an engine that runs a solver it has
to be read off the commands it sends.
-/

namespace SmtSession

structure Stack (α : Type) where
  base : List α := []
  /-- The frames above the base, the latest first. -/
  frames : List (List α) := []
deriving DecidableEq

namespace Stack

variable {α β : Type}

def depth (stack : Stack α) : Nat := stack.frames.length

/-- Everything in the frames, the earliest first. -/
def entries (stack : Stack α) : List α := stack.base ++ stack.frames.reverse.flatten

def push (stack : Stack α) : Stack α := { stack with frames := [] :: stack.frames }

def assert (entry : α) (stack : Stack α) : Stack α :=
  match stack.frames with
  | [] => { stack with base := stack.base ++ [entry] }
  | frame :: frames => { stack with frames := (frame ++ [entry]) :: frames }

/-- The base and the lowest `depth` frames above it. -/
def truncate (depth : Nat) (stack : Stack α) : Stack α :=
  { stack with frames := stack.frames.drop (stack.depth - depth) }

def map (f : α → β) (stack : Stack α) : Stack β :=
  { base := stack.base.map f, frames := stack.frames.map (List.map f) }

@[simp]
theorem depth_push (stack : Stack α) : stack.push.depth = stack.depth + 1 := rfl

@[simp]
theorem depth_assert (entry : α) (stack : Stack α) :
    (stack.assert entry).depth = stack.depth := by
  unfold assert depth
  split <;> simp_all

@[simp]
theorem depth_map (f : α → β) (stack : Stack α) : (stack.map f).depth = stack.depth := by
  simp [map, depth]

@[simp]
theorem depth_truncate (depth : Nat) (stack : Stack α) :
    (stack.truncate depth).depth = min depth stack.depth := by
  have hlength : (stack.truncate depth).depth = stack.depth - (stack.depth - depth) := by
    simp [truncate, Stack.depth]
  omega

@[simp]
theorem entries_push (stack : Stack α) : stack.push.entries = stack.entries := by
  simp [push, entries]

@[simp]
theorem entries_assert (entry : α) (stack : Stack α) :
    (stack.assert entry).entries = stack.entries ++ [entry] := by
  unfold assert entries
  split
  · rename_i hframes
    simp [hframes]
  · rename_i frame frames hframes
    simp [hframes]

theorem truncate_of_depth_le {stack : Stack α} {depth : Nat} (h : stack.depth ≤ depth) :
    stack.truncate depth = stack := by
  have hnone : stack.depth - depth = 0 := by omega
  simp [truncate, hnone]

theorem truncate_truncate {lower upper : Nat} (h : lower ≤ upper) (stack : Stack α) :
    (stack.truncate upper).truncate lower = stack.truncate lower := by
  have hdrop : stack.depth - upper + (min upper stack.depth - lower) = stack.depth - lower := by
    omega
  have hdepth := depth_truncate upper stack
  simp only [truncate] at hdepth ⊢
  rw [hdepth, List.drop_drop, hdrop]

theorem truncate_push {stack : Stack α} {depth : Nat} (h : depth ≤ stack.depth) :
    stack.push.truncate depth = stack.truncate depth := by
  have hdrop : stack.depth + 1 - depth = stack.depth - depth + 1 := by omega
  simp only [truncate, depth_push, hdrop]
  rfl

theorem truncate_assert {stack : Stack α} {depth : Nat} (h : depth < stack.depth) (entry : α) :
    (stack.assert entry).truncate depth = stack.truncate depth := by
  obtain ⟨base, frames⟩ := stack
  cases frames with
  | nil => simp [Stack.depth] at h
  | cons frame frames =>
      have hdrop : frames.length + 1 - depth = frames.length - depth + 1 := by
        simp only [Stack.depth, List.length_cons] at h
        omega
      simp [assert, truncate, Stack.depth, hdrop]

theorem isPrefix_entries_truncate (depth : Nat) (stack : Stack α) :
    (stack.truncate depth).entries <+: stack.entries := by
  obtain ⟨base, frames⟩ := stack
  let dropped := frames.length - depth
  refine ⟨(frames.take dropped).reverse.flatten, ?_⟩
  calc
    base ++ (frames.drop dropped).reverse.flatten ++ (frames.take dropped).reverse.flatten
      = base ++ (frames.take dropped ++ frames.drop dropped).reverse.flatten := by
        rw [List.reverse_append, List.flatten_append, List.append_assoc]
    _ = base ++ frames.reverse.flatten := by rw [List.take_append_drop]

theorem mem_of_mem_truncate {stack : Stack α} {depth : Nat} {entry : α}
    (h : entry ∈ (stack.truncate depth).entries) : entry ∈ stack.entries :=
  (isPrefix_entries_truncate depth stack).subset h

theorem entries_truncate_eq_nil {stack : Stack α} (h : stack.entries = []) (depth : Nat) :
    (stack.truncate depth).entries = [] := by
  have hprefix := isPrefix_entries_truncate depth stack
  rw [h] at hprefix
  exact List.prefix_nil.mp hprefix

@[simp]
theorem map_assert (f : α → β) (entry : α) (stack : Stack α) :
    (stack.assert entry).map f = (stack.map f).assert (f entry) := by
  obtain ⟨base, frames⟩ := stack
  cases frames <;> simp [assert, map]

end Stack

namespace Scripted

def stack (engine : Scripted) : Stack Assertion := ⟨engine.base, engine.frames⟩

@[simp]
theorem depth_stack (engine : Scripted) : engine.stack.depth = engine.depth := rfl

@[simp]
theorem stack_assert (assertion : Assertion) (engine : Scripted) :
    (engine.assert assertion).stack = engine.stack.assert assertion := by
  unfold assert stack Stack.assert
  cases engine.frames <;> rfl

end Scripted

end SmtSession
