import Mathlib.Tactic.Common
import ScriptLowering.Table

/-! # Laws of tables

What a look-up finds is what stands among the entries, because no key occurs twice. The
laws of the writing operations are stated through `get?`, and where a write changes
nothing it gives back the same table.
-/

namespace ScriptLowering.Table

universe u v

variable {κ : Type u} {α : Type v} [DecidableEq κ]

theorem lookupEntry_eq_some_iff {key : κ} {value : α} {entries : List (κ × α)}
    (distinct : (entries.map Prod.fst).Nodup) :
    lookupEntry key entries = some value ↔ (key, value) ∈ entries := by
  induction entries with
  | nil => simp [lookupEntry]
  | cons head rest induction =>
      rcases head with ⟨other, old⟩
      have parts := List.nodup_cons.mp distinct
      by_cases equal : other = key
      · subst equal
        have absent : (other, value) ∉ rest := fun member =>
          parts.1 (List.mem_map.mpr ⟨(other, value), member, rfl⟩)
        simp [lookupEntry, absent, eq_comm]
      · have different : key ≠ other := fun same => equal same.symm
        simp [lookupEntry, equal, different, induction parts.2]

theorem get?_eq_some_iff {table : Table κ α} {key : κ} {value : α} :
    table.get? key = some value ↔ (key, value) ∈ table.entries :=
  lookupEntry_eq_some_iff table.keysDistinct

theorem mem_keys_iff {table : Table κ α} {key : κ} :
    key ∈ table.keys ↔ ∃ value, table.get? key = some value := by
  rw [← contains_iff, contains, Option.isSome_iff_exists]

theorem get?_eq_none_iff {table : Table κ α} {key : κ} :
    table.get? key = none ↔ key ∉ table.keys := by
  rw [mem_keys_iff, Option.eq_none_iff_forall_ne_some]
  simp

theorem mem_values_iff {table : Table κ α} {value : α} :
    value ∈ table.values ↔ ∃ key, table.get? key = some value := by
  simp only [values, List.mem_map, get?_eq_some_iff]
  constructor
  · rintro ⟨⟨key, found⟩, member, rfl⟩
    exact ⟨key, member⟩
  · rintro ⟨key, member⟩
    exact ⟨(key, value), member, rfl⟩

omit [DecidableEq κ] in
theorem keys_length (table : Table κ α) : table.keys.length = table.size := by
  simp [keys, size]

theorem insertEntry_of_not_mem {key : κ} {value : α} {entries : List (κ × α)}
    (fresh : key ∉ entries.map Prod.fst) :
    insertEntry key value entries = entries ++ [(key, value)] := by
  induction entries with
  | nil => rfl
  | cons head rest induction =>
      rcases head with ⟨other, old⟩
      rw [List.map_cons, List.mem_cons, not_or] at fresh
      have different : other ≠ key := fun same => fresh.1 same.symm
      simp only [insertEntry, if_neg different, induction fresh.2, List.cons_append]

/-! ## Writes that change nothing -/

theorem insertEntry_of_mem {key : κ} {value : α} {entries : List (κ × α)}
    (found : lookupEntry key entries = some value) :
    insertEntry key value entries = entries := by
  induction entries with
  | nil => simp [lookupEntry] at found
  | cons head rest induction =>
      rcases head with ⟨other, old⟩
      by_cases equal : other = key
      · subst equal
        simp only [lookupEntry, if_true, Option.some.injEq] at found
        simp [insertEntry, found]
      · simp only [lookupEntry, if_neg equal] at found
        simp [insertEntry, equal, induction found]

theorem insert_eq_self {table : Table κ α} {key : κ} {value : α}
    (found : table.get? key = some value) : table.insert key value = table :=
  ext (insertEntry_of_mem found)

theorem modify_eq_self {table : Table κ α} {key : κ} {change : α → α}
    (same : ∀ value, table.get? key = some value → change value = value) :
    table.modify key change = table := by
  apply ext
  change table.entries.map _ = table.entries
  conv_rhs => rw [← List.map_id table.entries]
  apply List.map_congr_left
  rintro ⟨other, value⟩ member
  by_cases equal : other = key
  · subst equal
    simp [same value (get?_eq_some_iff.mpr member)]
  · simp [equal]

theorem get?_insert_of_free {table : Table κ α} {key other : κ} {value found : α}
    (free : table.get? key = none) :
    (table.insert key value).get? other = some found ↔
      table.get? other = some found ∨ other = key ∧ found = value := by
  rw [get?_insert]
  by_cases equal : key = other
  · subst equal
    simp [free, eq_comm]
  · simp [equal, eq_comm]

theorem modify_modify (table : Table κ α) (key : κ) (first second : α → α) :
    (table.modify key first).modify key second = table.modify key (second ∘ first) := by
  apply ext
  simp only [modify, List.map_map]
  apply List.map_congr_left
  rintro ⟨other, value⟩ _
  by_cases equal : other = key <;> simp [equal]

/-! ## Tables made from lists -/

theorem get?_foldl_insert {pairs : List (κ × α)} (table : Table κ α) {key : κ}
    {value : α} (distinct : (pairs.map Prod.fst).Nodup) :
    (pairs.foldl (fun table pair => table.insert pair.1 pair.2) table).get? key =
        some value ↔
      (key, value) ∈ pairs ∨ key ∉ pairs.map Prod.fst ∧ table.get? key = some value := by
  induction pairs generalizing table with
  | nil => simp
  | cons head rest induction =>
      rcases head with ⟨other, first⟩
      have parts := List.nodup_cons.mp distinct
      rw [List.foldl_cons, induction (table.insert other first) parts.2]
      by_cases equal : other = key
      · subst equal
        have absent : (other, value) ∉ rest := fun member =>
          parts.1 (List.mem_map.mpr ⟨(other, value), member, rfl⟩)
        have notLater : other ∉ rest.map Prod.fst := parts.1
        simp [absent, notLater, eq_comm]
      · have different : key ≠ other := fun same => equal same.symm
        rw [get?_insert_other table first equal]
        simp [different]

theorem get?_ofList {pairs : List (κ × α)} {key : κ} {value : α}
    (distinct : (pairs.map Prod.fst).Nodup) :
    (ofList pairs).get? key = some value ↔ (key, value) ∈ pairs := by
  rw [ofList, get?_foldl_insert empty distinct]
  simp

end ScriptLowering.Table
