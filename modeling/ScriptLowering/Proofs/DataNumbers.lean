import ScriptLowering.Proofs.VariableNames

/-! # Numbers of data

Data is numbered one after the other. What has been added somewhat later has higher numbers, and if two
parts of the data are added in the other order, their numbers are exchanged.
-/

namespace ScriptLowering.Code

theorem toNat_toUInt32 {number : Nat} (small : number < 2 ^ 32) : number.toUInt32.toNat = number := by
  simp only [Nat.toUInt32, UInt32.toNat_ofNat']
  omega

theorem DataId.eq_of_toNat {id other : DataId} (same : id.number.toNat = other.number.toNat) :
    id = other := by
  rcases id with ⟨number⟩
  rcases other with ⟨otherNumber⟩
  exact congrArg mk (UInt32.toNat_inj.mp same)

/-! ## Texts that become data -/

namespace Module

theorem addTexts_append (module : Module) (texts more : List String) :
    module.addTexts (texts ++ more) = (module.addTexts texts).addTexts more :=
  List.foldl_append

theorem nextData_addTexts (module : Module) (texts : List String) :
    (module.addTexts texts).nextData = module.nextData + texts.length.toUInt32 := by
  induction texts using List.reverseRecOn with
  | nil => simp [addTexts]
  | append_singleton texts text induction =>
      rw [addTexts_concat]
      change (module.addTexts texts).nextData + 1 = _
      rw [induction]
      apply UInt32.toNat_inj.mp
      simp [Nat.add_assoc]

theorem mem_keys_addTexts {module : Module} {texts : List String} {id : DataId} :
    id ∈ (module.addTexts texts).data.keys ↔ id ∈ module.data.keys ∨
      ∃ index < texts.length, id = ⟨module.nextData + index.toUInt32⟩ := by
  induction texts using List.reverseRecOn with
  | nil => simp [addTexts]
  | append_singleton texts text induction =>
      rw [addTexts_concat]
      change id ∈ ((module.addTexts texts).data.insert ⟨(module.addTexts texts).nextData⟩ _).keys ↔ _
      rw [Table.mem_keys_insert, induction, nextData_addTexts, List.length_append,
        List.length_singleton]
      simp only [Nat.lt_add_one_iff_lt_or_eq, or_and_right, exists_or, exists_eq_left]
      exact or_comm.trans or_assoc

theorem get?_addTexts {module : Module} (next : module.nextData = module.data.size.toUInt32)
    (below : ∀ id ∈ module.data.keys, id.number.toNat < module.data.size) {texts : List String}
    (room : module.data.size + texts.length ≤ 2 ^ 32) (id : DataId) :
    (module.addTexts texts).data.get? id =
      if id.number.toNat < module.data.size then module.data.get? id
      else texts[id.number.toNat - module.data.size]?.map fun text => ⟨id, textBytes text⟩ := by
  induction texts using List.reverseRecOn with
  | nil =>
      split
      · rfl
      · rename_i late
        simp only [addTexts, List.foldl_nil, List.getElem?_nil, Option.map_none]
        exact Table.get?_eq_none_iff.mpr fun member => late (below id member)
  | append_singleton texts text induction =>
      simp only [List.length_append, List.length_singleton] at room
      have number : (module.addTexts texts).nextData.toNat = module.data.size + texts.length := by
        rw [nextData_addTexts, next, UInt32.toNat_add, toNat_toUInt32 (by omega),
          toNat_toUInt32 (by omega)]
        omega
      rw [addTexts_concat]
      change ((module.addTexts texts).data.insert ⟨(module.addTexts texts).nextData⟩ _).get? id = _
      rw [Table.get?_insert, induction (by omega)]
      by_cases isNew : (⟨(module.addTexts texts).nextData⟩ : DataId) = id
      · subst isNew
        rw [if_pos rfl, if_neg (by simp only [number]; omega)]
        simp [number]
      · have different : id.number.toNat ≠ module.data.size + texts.length := fun same =>
          isNew (DataId.eq_of_toNat (number.trans same.symm))
        rw [if_neg isNew]
        split
        · rfl
        · congr 1
          by_cases old : id.number.toNat - module.data.size < texts.length
          · rw [List.getElem?_append_left old]
          · rw [List.getElem?_eq_none (by omega), List.getElem?_eq_none (by simp; omega)]

end Module

/-! ## Higher numbers -/

/-- Data from `start` on gets a number that is higher by `gap`. -/
def shiftData (start gap : Nat) (id : DataId) : DataId :=
  if id.number.toNat < start then id else ⟨id.number + gap.toUInt32⟩

theorem shiftData_of_lt {start : Nat} (gap : Nat) {id : DataId} (old : id.number.toNat < start) :
    shiftData start gap id = id := by
  rw [shiftData, if_pos old]

theorem shiftData_of_le {start gap number : Nat} (new : start ≤ number) (small : number < 2 ^ 32) :
    shiftData start gap ⟨number.toUInt32⟩ = ⟨(number + gap).toUInt32⟩ := by
  have same : number.toUInt32.toNat = number := by
    simp only [Nat.toUInt32, UInt32.toNat_ofNat']
    omega
  rw [shiftData, if_neg (by simp only [same]; omega)]
  exact congrArg DataId.mk (UInt32.toNat_inj.mp (by simp))

/-! ## Exchanged numbers

Of the numbers from `start` on, the first ones and the ones behind them change places. -/

def exchangeNumber (start first second number : Nat) : Nat :=
  if number < start then number
  else if number < start + first then number + second
  else if number < start + first + second then number - first
  else number

theorem exchangeNumber_exchangeNumber (start first second number : Nat) :
    exchangeNumber start second first (exchangeNumber start first second number) = number := by
  grind [exchangeNumber]

theorem exchangeNumber_lt {start first second bound number : Nat}
    (room : start + first + second ≤ bound) (small : number < bound) :
    exchangeNumber start first second number < bound := by
  grind [exchangeNumber]

theorem exchangeNumber_of_le {start first second number : Nat}
    (behind : start + first + second ≤ number) : exchangeNumber start first second number = number := by
  grind [exchangeNumber]

theorem exchangeNumber_of_lt {start number : Nat} (first second : Nat) (old : number < start) :
    exchangeNumber start first second number = number := by
  rw [exchangeNumber, if_pos old]

theorem le_exchangeNumber {start number : Nat} (first second : Nat) (late : start ≤ number) :
    start ≤ exchangeNumber start first second number := by
  grind [exchangeNumber]

theorem exchangeNumber_sub {start first second number : Nat} (late : start ≤ number) :
    exchangeNumber start first second number - start =
      exchangeNumber 0 first second (number - start) := by
  grind [exchangeNumber]

theorem getElem?_exchangeNumber {α : Type} (first second more : List α) (index : Nat) :
    (second ++ first ++ more)[exchangeNumber 0 first.length second.length index]? =
      (first ++ second ++ more)[index]? := by
  grind [exchangeNumber]

/-- The number of a data object when the first ones from `start` on and the ones behind them have
changed places. -/
def exchangeData (start first second : Nat) (id : DataId) : DataId :=
  ⟨(exchangeNumber start first second id.number.toNat).toUInt32⟩

section Exchanging

variable {start first second : Nat} (room : start + first + second ≤ 2 ^ 32)

include room

theorem toNat_exchangeData (id : DataId) : (exchangeData start first second id).number.toNat =
    exchangeNumber start first second id.number.toNat := by
  have small := exchangeNumber_lt room (UInt32.toNat_lt id.number)
  simp only [exchangeData, Nat.toUInt32, UInt32.toNat_ofNat']
  omega

theorem exchangeData_exchangeData (id : DataId) :
    exchangeData start second first (exchangeData start first second id) = id := by
  apply DataId.eq_of_toNat
  rw [toNat_exchangeData (by omega), toNat_exchangeData room, exchangeNumber_exchangeNumber]

theorem exchangeData_bijective : Function.Bijective (exchangeData start first second) := by
  refine Function.bijective_iff_has_inverse.mpr ⟨exchangeData start second first, ?_, ?_⟩
  · exact exchangeData_exchangeData room
  · exact exchangeData_exchangeData (by omega)

omit room in
theorem toNat_shiftData {gap : Nat} {id : DataId} (room : id.number.toNat + gap < 2 ^ 32) :
    (shiftData start gap id).number.toNat =
      if id.number.toNat < start then id.number.toNat else id.number.toNat + gap := by
  unfold shiftData
  split
  · rfl
  · simp only [UInt32.toNat_add, Nat.toUInt32, UInt32.toNat_ofNat']
    omega

theorem exchangeData_of_lt {id : DataId} (early : id.number.toNat < start + first) :
    exchangeData start first second id = shiftData start second id := by
  apply DataId.eq_of_toNat
  rw [toNat_shiftData (by omega), toNat_exchangeData room]
  grind [exchangeNumber]

theorem exchangeData_shiftData {id : DataId} (late : id.number.toNat < start + second) :
    exchangeData start first second (shiftData start first id) = id := by
  apply DataId.eq_of_toNat
  rw [toNat_exchangeData room, toNat_shiftData (by omega)]
  grind [exchangeNumber]

end Exchanging

end ScriptLowering.Code

namespace ScriptLowering.Lowering

open Code (DataId)

theorem Session.Counts.mem_keys_iff {session : Session} (counts : session.Counts) {id : DataId} :
    id ∈ session.cursor.module.data.keys ↔ id.number.toNat < session.cursor.module.data.size := by
  refine ⟨counts.below id, fun below => ?_⟩
  let numbers := session.cursor.module.data.keys.map fun id => id.number.toNat
  have distinct : numbers.Nodup :=
    session.cursor.module.data.keys_nodup.map fun _ _ same => Code.DataId.eq_of_toNat same
  have within : numbers ⊆ List.range session.cursor.module.data.size := by
    intro number member
    rcases List.mem_map.mp member with ⟨other, isKey, rfl⟩
    exact List.mem_range.mpr (counts.below other isKey)
  have all := (List.subperm_of_subset distinct within).perm_of_length_le (by simp [numbers, Table.keys_length])
  rcases List.mem_map.mp (all.mem_iff.mpr (List.mem_range.mpr below)) with ⟨other, isKey, same⟩
  exact Code.DataId.eq_of_toNat same ▸ isKey

end ScriptLowering.Lowering
