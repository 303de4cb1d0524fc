/-!
# Tables

A table maps keys to values and remembers the order in which its keys were first
inserted. That order is what listings and documents show, so it belongs to the type,
together with the fact that no key occurs twice.

The entries are the view of a table: every operation below is described by what it does
to them and by what it does to `get?`.
-/

namespace ScriptLowering

universe u v w

/-- A finite map in insertion order. Its keys are pairwise different. -/
structure Table (κ : Type u) (α : Type v) where
  entries : List (κ × α)
  keysDistinct : (entries.map Prod.fst).Nodup

namespace Table

variable {κ : Type u} {α : Type v} {β : Type w}

@[ext] theorem ext {left right : Table κ α} (equal : left.entries = right.entries) :
    left = right := by
  cases left
  cases right
  cases equal
  rfl

instance [DecidableEq κ] [DecidableEq α] : DecidableEq (Table κ α) := fun left right =>
  if equal : left.entries = right.entries then
    isTrue (ext equal)
  else
    isFalse fun same => equal (congrArg entries same)

/-! ## Reading -/

def empty : Table κ α where
  entries := []
  keysDistinct := List.nodup_nil

instance : Inhabited (Table κ α) := ⟨empty⟩

def keys (table : Table κ α) : List κ := table.entries.map Prod.fst

def values (table : Table κ α) : List α := table.entries.map Prod.snd

def size (table : Table κ α) : Nat := table.entries.length

def isEmpty (table : Table κ α) : Bool := table.entries.isEmpty

theorem keys_nodup (table : Table κ α) : table.keys.Nodup := table.keysDistinct

section Keyed

variable [DecidableEq κ]

/-- The value that stands beside the first occurrence of `key`. -/
def lookupEntry (key : κ) : List (κ × α) → Option α
  | [] => none
  | (other, value) :: rest => if other = key then some value else lookupEntry key rest

def get? (table : Table κ α) (key : κ) : Option α := lookupEntry key table.entries

def contains (table : Table κ α) (key : κ) : Bool := (table.get? key).isSome

@[simp] theorem get?_empty (key : κ) : (empty : Table κ α).get? key = none := rfl

theorem lookupEntry_isSome_iff (key : κ) (entries : List (κ × α)) :
    (lookupEntry key entries).isSome ↔ key ∈ entries.map Prod.fst := by
  induction entries with
  | nil => simp [lookupEntry]
  | cons head rest induction =>
      rcases head with ⟨other, value⟩
      by_cases equal : other = key
      · simp [lookupEntry, equal]
      · simp only [lookupEntry, if_neg equal, induction, List.map_cons, List.mem_cons]
        exact ⟨Or.inr, fun member => member.resolve_left fun same => equal same.symm⟩

theorem contains_iff (table : Table κ α) (key : κ) :
    table.contains key = true ↔ key ∈ table.keys :=
  lookupEntry_isSome_iff key table.entries

/-! ## Writing -/

/-- Replace the value of `key` where it stands, or add it at the end. -/
def insertEntry (key : κ) (value : α) : List (κ × α) → List (κ × α)
  | [] => [(key, value)]
  | (other, old) :: rest =>
      if other = key then (key, value) :: rest else (other, old) :: insertEntry key value rest

theorem map_fst_insertEntry (key : κ) (value : α) (entries : List (κ × α)) :
    (insertEntry key value entries).map Prod.fst =
      if key ∈ entries.map Prod.fst then entries.map Prod.fst
      else entries.map Prod.fst ++ [key] := by
  induction entries with
  | nil => simp [insertEntry]
  | cons head rest induction =>
      rcases head with ⟨other, old⟩
      by_cases equal : other = key
      · simp [insertEntry, equal]
      · have different : key ≠ other := fun same => equal same.symm
        simp only [insertEntry, if_neg equal, List.map_cons, induction, List.mem_cons,
          different, false_or]
        split <;> simp

theorem nodup_insertEntry (key : κ) (value : α) {entries : List (κ × α)}
    (distinct : (entries.map Prod.fst).Nodup) :
    ((insertEntry key value entries).map Prod.fst).Nodup := by
  rw [map_fst_insertEntry]
  split
  · exact distinct
  · rename_i fresh
    rw [List.nodup_append]
    refine ⟨distinct, by simp, ?_⟩
    intro left leftMember right rightMember equal
    simp only [List.mem_singleton] at rightMember
    exact fresh (rightMember ▸ equal ▸ leftMember)

def insert (table : Table κ α) (key : κ) (value : α) : Table κ α where
  entries := insertEntry key value table.entries
  keysDistinct := nodup_insertEntry key value table.keysDistinct

theorem mem_keys_insert {table : Table κ α} {key other : κ} {value : α} :
    other ∈ (table.insert key value).keys ↔ other = key ∨ other ∈ table.keys := by
  simp only [keys, insert, map_fst_insertEntry]
  split
  · rename_i present
    exact ⟨Or.inr, fun either => either.elim (fun equal => equal ▸ present) id⟩
  · simp [or_comm]

theorem lookupEntry_insertEntry (key other : κ) (value : α) (entries : List (κ × α)) :
    lookupEntry other (insertEntry key value entries) =
      if key = other then some value else lookupEntry other entries := by
  induction entries with
  | nil => simp [insertEntry, lookupEntry]
  | cons head rest induction =>
      rcases head with ⟨first, old⟩
      by_cases equal : first = key
      · subst equal
        by_cases same : first = other <;> simp [insertEntry, lookupEntry, same]
      · by_cases same : first = other
        · subst same
          have different : key ≠ first := fun flipped => equal flipped.symm
          simp [insertEntry, lookupEntry, equal, different]
        · simp [insertEntry, lookupEntry, equal, same, induction]

theorem get?_insert (table : Table κ α) (key other : κ) (value : α) :
    (table.insert key value).get? other =
      if key = other then some value else table.get? other :=
  lookupEntry_insertEntry key other value table.entries

@[simp] theorem get?_insert_same (table : Table κ α) (key : κ) (value : α) :
    (table.insert key value).get? key = some value := by
  simp [get?_insert]

theorem get?_insert_other (table : Table κ α) {key other : κ} (value : α)
    (different : key ≠ other) : (table.insert key value).get? other = table.get? other := by
  simp [get?_insert, different]

def modify (table : Table κ α) (key : κ) (change : α → α) : Table κ α where
  entries := table.entries.map fun entry =>
    if entry.1 = key then (entry.1, change entry.2) else entry
  keysDistinct := by
    have sameKeys : (table.entries.map fun entry =>
        if entry.1 = key then (entry.1, change entry.2) else entry).map Prod.fst =
          table.entries.map Prod.fst := by
      rw [List.map_map]
      apply List.map_congr_left
      intro entry _
      by_cases equal : entry.1 = key <;> simp [equal]
    rw [sameKeys]
    exact table.keysDistinct

@[simp] theorem keys_modify (table : Table κ α) (key : κ) (change : α → α) :
    (table.modify key change).keys = table.keys := by
  simp only [keys, modify, List.map_map]
  apply List.map_congr_left
  intro entry _
  by_cases equal : entry.1 = key <;> simp [equal]

theorem get?_modify (table : Table κ α) (key other : κ) (change : α → α) :
    (table.modify key change).get? other =
      if key = other then (table.get? other).map change else table.get? other := by
  rcases table with ⟨entries, distinct⟩
  simp only [get?, modify]
  clear distinct
  induction entries with
  | nil => simp [lookupEntry]
  | cons head rest induction =>
      rcases head with ⟨first, old⟩
      by_cases equal : first = key
      · subst equal
        by_cases same : first = other
        · simp [lookupEntry, same]
        · simpa [lookupEntry, same] using induction
      · by_cases same : first = other
        · subst same
          have different : key ≠ first := fun flipped => equal flipped.symm
          simp [lookupEntry, equal, different]
        · simpa [lookupEntry, equal, same] using induction

end Keyed

/-- Keep the entries whose key satisfies `keep`, in order. -/
def filterKeys (table : Table κ α) (keep : κ → Bool) : Table κ α where
  entries := table.entries.filter fun entry => keep entry.1
  keysDistinct := by
    have sublist : ((table.entries.filter fun entry => keep entry.1).map Prod.fst).Sublist
        (table.entries.map Prod.fst) := List.filter_sublist.map Prod.fst
    exact sublist.nodup table.keysDistinct

section Keyed

variable [DecidableEq κ]

/-- Remove `key`; the entries after it move up. -/
def erase (table : Table κ α) (key : κ) : Table κ α :=
  table.filterKeys fun other => decide (other ≠ key)

theorem get?_filterKeys (table : Table κ α) (keep : κ → Bool) (key : κ) :
    (table.filterKeys keep).get? key = if keep key then table.get? key else none := by
  rcases table with ⟨entries, distinct⟩
  simp only [get?, filterKeys]
  clear distinct
  induction entries with
  | nil => simp [lookupEntry]
  | cons head rest induction =>
      rcases head with ⟨first, value⟩
      by_cases same : first = key
      · subst same
        by_cases kept : keep first = true
        · simp [lookupEntry, kept]
        · simpa [lookupEntry, kept] using induction
      · by_cases kept : keep first = true
        · simpa [lookupEntry, kept, same] using induction
        · simpa [lookupEntry, kept, same] using induction

/-- Insert the pairs one after another: a repeated key keeps its first place and its
last value. -/
def ofList (pairs : List (κ × α)) : Table κ α :=
  pairs.foldl (fun table pair => table.insert pair.1 pair.2) empty

end Keyed

end Table

end ScriptLowering
