/-!
# Sorted tables

Values under text keys, in ascending order of the keys, so equal contents give equal tables.
-/

namespace SmtSession

namespace Table

/-- Puts a key at its place among sorted entries, or replaces its value. -/
def insertEntry {β : Type} (key : String) (value : β) : List (String × β) → List (String × β)
  | [] => [(key, value)]
  | (k, v) :: rest =>
    if key < k then (key, value) :: (k, v) :: rest
    else if key = k then (key, value) :: rest
    else (k, v) :: insertEntry key value rest

def lookup {β : Type} (key : String) : List (String × β) → Option β
  | [] => none
  | (k, v) :: rest => if k = key then some v else lookup key rest

variable {β : Type}

theorem mem_insertEntry {key : String} {value : β} {entries : List (String × β)}
    {entry : String × β} (h : entry ∈ insertEntry key value entries) :
    entry = (key, value) ∨ entry ∈ entries := by
  induction entries with
  | nil => simpa [insertEntry] using h
  | cons head rest ih =>
    simp only [insertEntry] at h
    split at h
    · exact List.mem_cons.mp h
    · split at h
      · rw [List.mem_cons] at h
        exact h.imp_right (List.mem_cons_of_mem _)
      · rw [List.mem_cons] at h
        rcases h with rfl | h
        · exact .inr List.mem_cons_self
        · exact (ih h).imp_right (List.mem_cons_of_mem _)

theorem insertEntry_sorted {key : String} {value : β} {entries : List (String × β)}
    (h : entries.Pairwise (·.1 < ·.1)) :
    (insertEntry key value entries).Pairwise (·.1 < ·.1) := by
  induction entries with
  | nil => simp [insertEntry]
  | cons head rest ih =>
    rw [List.pairwise_cons] at h
    simp only [insertEntry]
    split
    · rename_i hlt
      refine List.pairwise_cons.mpr ⟨fun entry hmem => ?_, List.pairwise_cons.mpr h⟩
      rcases List.mem_cons.mp hmem with rfl | hmem
      · exact hlt
      · exact String.lt_trans hlt (h.1 entry hmem)
    · split
      · rename_i heq
        exact List.pairwise_cons.mpr ⟨fun entry hmem => heq ▸ h.1 entry hmem, h.2⟩
      · rename_i hlt hne
        refine List.pairwise_cons.mpr ⟨fun entry hmem => ?_, ih h.2⟩
        rcases mem_insertEntry hmem with rfl | hmem
        · show head.1 < key
          grind
        · exact h.1 entry hmem

theorem lookup_insertEntry (key key' : String) (value : β) (entries : List (String × β)) :
    lookup key' (insertEntry key value entries) =
      if key = key' then some value else lookup key' entries := by
  induction entries with
  | nil => simp [insertEntry, lookup]
  | cons head rest ih =>
    simp only [insertEntry]
    split
    · simp [lookup]
    · split
      · rename_i heq
        by_cases h : key = key' <;> simp [lookup, h, ← heq]
      · rename_i hne
        simp only [lookup, ih]
        by_cases h : head.1 = key'
        · have : key ≠ key' := fun hkey => hne (hkey.trans h.symm)
          simp [h, this]
        · simp [h]

end Table

structure Table (β : Type) where
  entries : List (String × β) := []
  sorted : entries.Pairwise (·.1 < ·.1) := by exact List.Pairwise.nil
deriving DecidableEq

namespace Table

variable {β : Type}

def empty : Table β := {}

def insert (table : Table β) (key : String) (value : β) : Table β :=
  ⟨insertEntry key value table.entries, insertEntry_sorted table.sorted⟩

def find? (table : Table β) (key : String) : Option β := lookup key table.entries

def keys (table : Table β) : List String := table.entries.map (·.1)

@[simp]
theorem find?_insert (table : Table β) (key key' : String) (value : β) :
    (table.insert key value).find? key' = if key = key' then some value else table.find? key' :=
  lookup_insertEntry key key' value table.entries

theorem lookup_isSome_iff {key : String} {entries : List (String × β)} :
    (lookup key entries).isSome ↔ key ∈ entries.map (·.1) := by
  induction entries with
  | nil => simp [lookup]
  | cons head rest ih =>
    rw [lookup, List.map_cons, List.mem_cons]
    split
    · rename_i hhead
      simp [hhead]
    · rename_i hhead
      rw [ih, or_iff_right (Ne.symm hhead)]

theorem find?_isSome_iff {table : Table β} {key : String} :
    (table.find? key).isSome ↔ key ∈ table.keys :=
  lookup_isSome_iff

theorem pairwise_keys (table : Table β) : table.keys.Pairwise (· < ·) :=
  List.pairwise_map.mpr table.sorted

end Table

end SmtSession
