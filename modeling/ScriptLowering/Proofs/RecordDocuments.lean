import ScriptLowering.Json.Record
import ScriptLowering.Proofs.PrintedDocuments
import ScriptLowering.Proofs.Table
import Mathlib.Data.List.Nodup

/-! # Parts of printed documents

For each way in which a document is put together there is a way to take it apart again, and
what is put together from plain parts is plain. The rules are for `simp`, which needs no more to
take apart the documents of programs and modules.
-/

namespace ScriptLowering

/-- Inserting the entries of a table one after another rebuilds it. -/
theorem Table.ofList_entries {κ α : Type} [DecidableEq κ] (table : Table κ α) :
    Table.ofList table.entries = table := by
  have rebuilds : ∀ (rest : List (κ × α)) (built : Table κ α),
      ((built.entries ++ rest).map Prod.fst).Nodup →
      (rest.foldl (fun table pair => table.insert pair.1 pair.2) built).entries =
        built.entries ++ rest := by
    intro rest
    induction rest with
    | nil => simp
    | cons entry rest induction =>
        intro built distinct
        have fresh : entry.1 ∉ built.entries.map Prod.fst := by
          intro member
          rw [List.map_append, List.nodup_append] at distinct
          exact distinct.2.2 _ member _ (by simp) rfl
        have added : (built.insert entry.1 entry.2).entries = built.entries ++ [entry] :=
          insertEntry_of_not_mem fresh
        rw [List.foldl_cons, induction _ (by rw [added]; simpa using distinct), added]
        simp
  exact Table.ext (rebuilds table.entries .empty table.keysDistinct)

namespace Json

/-! ## Plain values -/

@[simp] theorem asString?_string (text : String) : asString? (.string text) = some text := rfl

@[simp] theorem asBool?_bool (value : Bool) : asBool? (.bool value) = some value := rfl

@[simp] theorem asUInt8?_toNat (number : UInt8) :
    asUInt8? (.integer number.toNat) = some number := by
  have small : number.toNat < UInt8.size := number.toNat_lt_size
  simp [asUInt8?, asNatural?, small]

@[simp] theorem asUInt16?_toNat (number : UInt16) :
    asUInt16? (.integer number.toNat) = some number := by
  have small : number.toNat < UInt16.size := number.toNat_lt_size
  simp [asUInt16?, asNatural?, small]

@[simp] theorem asUInt32?_toNat (number : UInt32) :
    asUInt32? (.integer number.toNat) = some number := by
  have small : number.toNat < UInt32.size := number.toNat_lt_size
  simp [asUInt32?, asNatural?, small]

@[simp] theorem asInt64?_toInt (number : Int64) :
    asInt64? (.integer number.toInt) = some number := by
  have lower : Int64.minValue.toInt ≤ number.toInt := number.minValue_le_toInt
  have upper : number.toInt ≤ Int64.maxValue.toInt := number.toInt_le
  simp only [asInt64?, lower, upper, and_self, if_true, Int64.ofInt_toInt]

@[simp] theorem asOption?_ofOption {α : Type} {toJson : α → Json} {read? : Json → Option α}
    (back : ∀ value, read? (toJson value) = some value)
    (present : ∀ value, toJson value ≠ .null) (value : Option α) :
    asOption? read? (ofOption toJson value) = some value := by
  cases value with
  | none => rfl
  | some value =>
      simp only [ofOption]
      unfold asOption?
      split
      · rename_i absent
        exact absurd absent (present value)
      · rw [back, Option.map_some]

theorem mapM_map {α β : Type} {write : α → β} {read? : β → Option α}
    (back : ∀ value, read? (write value) = some value) (values : List α) :
    (values.map write).mapM read? = some values := by
  induction values with
  | nil => rfl
  | cons value rest induction => simp [List.mapM_cons, back, induction, -List.mapM_map]

@[simp] theorem asList?_ofList {α : Type} {toJson : α → Json} {read? : Json → Option α}
    (back : ∀ value, read? (toJson value) = some value) (values : List α) :
    asList? read? (ofList toJson values) = some values :=
  mapM_map back values

/-! ## Records -/

@[simp] theorem text_ofText (text : String) : (Name.ofText text).text = text := rfl

theorem countMember_le {names : List (Name × Json)} (name : String)
    (distinct : (names.map fun member => member.1.text).Nodup) : countMember name names ≤ 1 := by
  have count : countMember name names = (names.map fun member => member.1.text).count name := by
    induction names with
    | nil => rfl
    | cons member rest induction =>
        rw [List.map_cons, List.nodup_cons] at distinct
        rw [countMember, induction distinct.2, List.map_cons, List.count_cons, Nat.add_comm]
        simp
  rw [count]
  exact List.nodup_iff_count_le_one.mp distinct name

/-- A printed record names no field twice. -/
@[simp] theorem recordIn?_object {form : RecordForm} {members : List (Name × Json)}
    {names : List String} (distinct : (members.map fun member => member.1.text).Nodup) :
    recordIn? form (.object members) names = some ⟨members⟩ := by
  have once : (names.all fun name => decide (countMember name members ≤ 1)) = true := by
    simp only [List.all_eq_true, decide_eq_true_eq]
    exact fun name _ => countMember_le name distinct
  simp only [recordIn?, once, if_true]

@[simp] theorem record?_object {members : List (Name × Json)} {names : List String}
    (distinct : (members.map fun member => member.1.text).Nodup) :
    record? (.object members) names = some ⟨members⟩ :=
  recordIn?_object distinct

@[simp] theorem lookupMember_nil (name : String) : lookupMember name [] = none := rfl

@[simp] theorem lookupMember_cons (name : String) (other : Name) (value : Json)
    (rest : List (Name × Json)) : lookupMember name ((other, value) :: rest) =
      if other.text = name then some value else lookupMember name rest := rfl

@[simp] theorem Record.required?_mk {α : Type} (members : List (Name × Json)) (name : String)
    (read? : Json → Option α) :
    (Record.mk members).required? name read? = (lookupMember name members).bind read? := rfl

@[simp] theorem Record.defaulted?_mk {α : Type} (members : List (Name × Json)) (name : String)
    (default : α) (read? : Json → Option α) :
    (Record.mk members).defaulted? name default read? =
      (lookupMember name members).elim (some default) read? := by
  unfold Record.defaulted? Record.get?
  cases lookupMember name members <;> rfl

/-! ## Choices -/

@[simp] theorem choice?_string (name : String) : choice? (.string name) = some (name, none) := rfl

@[simp] theorem choice?_ofLabelled (name : String) (content : Json) :
    choice? (ofLabelled name content) = some (name, some content) := rfl

@[simp] theorem bareChoice?_string (name : String) : bareChoice? (.string name) = some name := rfl

theorem bareChoice?_ofLabelled (name : String) (content : Json) :
    bareChoice? (ofLabelled name content) = none ∨
      bareChoice? (ofLabelled name content) = some name := by
  cases content <;> simp [bareChoice?]

@[simp] theorem looseBareChoice?_string (name : String) :
    looseBareChoice? (.string name) = some name := rfl

/-! ## Tables -/

@[simp] theorem asTable?_ofTable {κ α : Type} [DecidableEq κ] {nameOf : κ → String}
    {toJson : α → Json} {readName? : Name → Option κ} {read? : Json → Option α}
    (named : ∀ key, readName? (Name.ofText (nameOf key)) = some key)
    (back : ∀ value, read? (toJson value) = some value) (table : Table κ α) :
    asTable? readName? read? (ofTable nameOf toJson table) = some table := by
  let write : κ × α → Name × Json := fun entry => (.ofText (nameOf entry.1), toJson entry.2)
  let readEntry? : Name × Json → Option (κ × α) := fun entry => do
    return (← readName? entry.1, ← read? entry.2)
  have pairs : (table.entries.map write).mapM readEntry? = some table.entries :=
    mapM_map (fun entry => by simp [write, readEntry?, named, back]) table.entries
  have opens : asTable? readName? read? (ofTable nameOf toJson table) =
      ((table.entries.map write).mapM readEntry?).bind fun pairs => some (.ofList pairs) := rfl
  rw [opens, pairs, Option.bind_some, table.ofList_entries]

/-! ## Numbers as names -/

theorem canonicalNatural?_toDigits {bound value : Nat} (small : value < bound) :
    canonicalNatural? bound (Nat.toDigits 10 value) = some value := by
  have digits : (Nat.toDigits 10 value).all Char.isDigit = true :=
    List.all_eq_true.mpr (Number.all_isDigit_toDigits value)
  have natural : Nat.ofDigitChars 10 (Nat.toDigits 10 value) 0 = value :=
    Nat.ofDigitChars_toDigits (by decide) (by decide)
  unfold canonicalNatural?
  split
  · rename_i none
    exact absurd none Nat.toDigits_ne_nil
  · rename_i zero
    rw [zero] at natural
    subst natural
    exact if_pos small
  · rename_i tail more leading
    rcases Nat.eq_zero_or_pos value with rfl | positive
    · exact (more (List.cons.inj (show ['0'] = '0' :: tail from leading)).2.symm).elim
    · exact absurd leading (Number.toDigits_ne_zero_cons positive _)
  · simp only [digits, if_true, natural, small]

theorem needsEscape_of_isDigit {character : Char} (digit : character.isDigit = true) :
    Text.needsEscape character = false := by
  have other : ∀ special : Char, special.isDigit = false → character ≠ special := by
    rintro special notDigit rfl
    rw [digit] at notDigit
    cases notDigit
  have control : ¬ character.toNat < 0x20 := by
    simp only [Char.isDigit, Bool.and_eq_true, decide_eq_true_eq, ge_iff_le,
      UInt32.le_iff_toNat_le] at digit
    exact Nat.not_lt.mpr (Nat.le_trans (by decide) digit.1)
  simp [Text.needsEscape, Text.escape, control, other '"' rfl, other '\\' rfl, other '\x08' rfl,
    other '\x0c' rfl, other '\n' rfl, other '\r' rfl, other '\t' rfl]

/-- A number is the name that it prints as. -/
@[simp] theorem numericName?_repr {bound value : Nat} (small : value < bound) :
    numericName? bound (.ofText value.repr) = some value := by
  have digits : value.repr.toList = Nat.toDigits 10 value := by
    rw [Nat.repr_eq_ofList_toDigits, String.toList_ofList]
  have unescaped : (Name.ofText value.repr).escaped = false := by
    simp only [Name.ofText, digits, List.any_eq_false, Bool.not_eq_true]
    exact fun digit member => needsEscape_of_isDigit (Number.all_isDigit_toDigits value digit member)
  rw [numericName?, unescaped, text_ofText, digits]
  exact canonicalNatural?_toDigits small

/-! ## Plain documents -/

theorem plain_natural {value : Nat} (small : value < UInt64.size) :
    (Json.integer value).plain = true := by
  have lowest : Int64.minValue.toInt = -2 ^ 63 := rfl
  simp only [plain, Number.inRange, Bool.and_eq_true, decide_eq_true_eq]
  omega

@[simp] theorem plain_uint8 (number : UInt8) : (Json.integer number.toNat).plain = true :=
  plain_natural (Nat.lt_trans number.toNat_lt_size (by decide))

@[simp] theorem plain_uint16 (number : UInt16) : (Json.integer number.toNat).plain = true :=
  plain_natural (Nat.lt_trans number.toNat_lt_size (by decide))

@[simp] theorem plain_uint32 (number : UInt32) : (Json.integer number.toNat).plain = true :=
  plain_natural (Nat.lt_trans number.toNat_lt_size (by decide))

@[simp] theorem plain_int64 (number : Int64) : (Json.integer number.toInt).plain = true := by
  have lower : Int64.minValue.toInt ≤ number.toInt := number.minValue_le_toInt
  have upper : number.toInt ≤ Int64.maxValue.toInt := number.toInt_le
  have highest : Int64.maxValue.toInt = 2 ^ 63 - 1 := rfl
  simp only [plain, Number.inRange, Bool.and_eq_true, decide_eq_true_eq]
  exact ⟨lower, by rw [highest] at upper; simp only [UInt64.size]; omega⟩

@[simp] theorem plain_bool (value : Bool) : (Json.bool value).plain = true := by rw [plain]

@[simp] theorem plain_string (text : String) : (Json.string text).plain = true := by rw [plain]

theorem plainItems_iff {items : List Json} :
    plainItems items = true ↔ ∀ item ∈ items, item.plain = true := by
  induction items with
  | nil => simp [plainItems]
  | cons item rest induction => simp [plainItems, induction]

theorem plainMembers_iff {members : List (Name × Json)} :
    plainMembers members = true ↔
      ∀ member ∈ members, member.1 = .ofText member.1.text ∧ member.2.plain = true := by
  induction members with
  | nil => simp [plainMembers]
  | cons member rest induction => simp [plainMembers, induction, and_assoc]

@[simp] theorem plain_object_nil : (Json.object []).plain = true := rfl

@[simp] theorem plain_object_cons (name : String) (value : Json) (rest : List (Name × Json)) :
    (Json.object ((.ofText name, value) :: rest)).plain =
      (value.plain && (Json.object rest).plain) := by
  simp [plain, plainMembers]

@[simp] theorem plain_ofOption {α : Type} {toJson : α → Json}
    (each : ∀ value, (toJson value).plain = true) (value : Option α) :
    (ofOption toJson value).plain = true := by
  cases value with
  | none => rfl
  | some value => exact each value

@[simp] theorem plain_ofList {α : Type} {toJson : α → Json}
    (each : ∀ value, (toJson value).plain = true) (values : List α) :
    (ofList toJson values).plain = true := by
  simp [ofList, plain, plainItems_iff, each]

@[simp] theorem plain_ofTable {κ α : Type} {nameOf : κ → String} {toJson : α → Json}
    (each : ∀ value, (toJson value).plain = true) (table : Table κ α) :
    (ofTable nameOf toJson table).plain = true := by
  simp only [ofTable, plain, plainMembers_iff, List.mem_map]
  rintro member ⟨entry, _, rfl⟩
  exact ⟨rfl, each entry.2⟩

@[simp] theorem plain_ofLabelled (name : String) (content : Json) :
    (ofLabelled name content).plain = content.plain := by
  simp [ofLabelled]

@[simp] theorem plain_ofTagged (tag : String) (members : List (Name × Json)) :
    (ofTagged tag members).plain = (Json.object members).plain := by
  simp [ofTagged]

mutual
theorem readable_of_plain : (document : Json) → document.plain = true → document.readable = true
  | .null, _ | .bool _, _ | .integer _, _ | .string _, _ => rfl
  | .fraction _, _ => rfl
  | .unreadable, isPlain => by cases isPlain
  | .array items, isPlain => readableItems_of_plain items isPlain
  | .object members, isPlain => readableMembers_of_plain members isPlain

theorem readableItems_of_plain : (items : List Json) → plainItems items = true →
    readableItems items = true
  | [], _ => rfl
  | item :: rest, isPlain => by
      simp only [plainItems, Bool.and_eq_true] at isPlain
      simp only [readableItems, readable_of_plain item isPlain.1,
        readableItems_of_plain rest isPlain.2, Bool.and_self]

theorem readableMembers_of_plain : (members : List (Name × Json)) →
    plainMembers members = true → readableMembers members = true
  | [], _ => rfl
  | (name, value) :: rest, isPlain => by
      simp only [plainMembers, Bool.and_eq_true] at isPlain
      simp only [readableMembers, readable_of_plain value isPlain.1.2,
        readableMembers_of_plain rest isPlain.2, Bool.and_self]
end

/-! ## Tagged choices -/

@[simp] theorem depthOfItems_map {α : Type} {toJson : α → Json}
    (flat : ∀ value, (toJson value).depth = 0) (values : List α) :
    depthOfItems (values.map toJson) = 0 := by
  induction values with
  | nil => rfl
  | cons value rest induction => simp [depthOfItems, flat, induction]

@[simp] theorem depth_ofList {α : Type} {toJson : α → Json}
    (flat : ∀ value, (toJson value).depth = 0) (values : List α) :
    (ofList toJson values).depth = 1 := by
  simp [ofList, depth, depthOfItems_map flat]

@[simp] theorem depth_ofOption {α : Type} {toJson : α → Json}
    (flat : ∀ value, (toJson value).depth = 0) (value : Option α) :
    (ofOption toJson value).depth = 0 := by
  cases value with
  | none => rfl
  | some value => exact flat value

@[simp] theorem depth_bool (value : Bool) : (Json.bool value).depth = 0 := by simp [depth]

@[simp] theorem depth_integer (value : Int) : (Json.integer value).depth = 0 := by simp [depth]

@[simp] theorem depth_string (text : String) : (Json.string text).depth = 0 := by simp [depth]

@[simp] theorem depth_object_nil : (Json.object []).depth = 1 := rfl

@[simp] theorem depth_object_cons (name : Name) (value : Json) (rest : List (Name × Json)) :
    (Json.object ((name, value) :: rest)).depth =
      max (value.depth + 1) (Json.object rest).depth := by
  simp only [depth, depthOfMembers]
  omega

/-- The members can be the fields of an alternative with so many containers around it. -/
def isTaggable (around : Nat) (members : List (Name × Json)) : Bool :=
  (Json.object members).plain && (lookupMember tagName members).isNone &&
    decide (around + (Json.object members).depth ≤ nestingLimit)

theorem lookupMember_eq_none_iff {name : String} {members : List (Name × Json)} :
    lookupMember name members = none ↔ ∀ member ∈ members, member.1.text ≠ name := by
  induction members with
  | nil => simp
  | cons member rest induction =>
      rcases member with ⟨other, value⟩
      by_cases same : other.text = name
      · simp [same]
      · rw [lookupMember_cons, if_neg same, induction]
        simp [same]

theorem countMember_eq_zero {name : String} {members : List (Name × Json)}
    (absent : lookupMember name members = none) : countMember name members = 0 := by
  induction members with
  | nil => rfl
  | cons member rest induction =>
      rcases member with ⟨other, value⟩
      rw [lookupMember_cons] at absent
      split at absent
      · cases absent
      · rename_i different
        simp [countMember, different, induction absent]

theorem tagged?_ofTagged {tag : String} {members : List (Name × Json)} {around : Nat}
    (taggable : isTaggable around members = true) :
    (ofTagged tag members).tagged? around = some (tag, .object members) := by
  simp only [isTaggable, Bool.and_eq_true, Option.isNone_iff_eq_none, decide_eq_true_eq] at taggable
  rcases taggable with ⟨⟨isPlain, untagged⟩, shallow⟩
  have readable : (ofTagged tag members).readable = true :=
    readable_of_plain _ (by rw [plain_ofTagged]; exact isPlain)
  have depth : (ofTagged tag members).depth = (Json.object members).depth := by
    simp [ofTagged, Json.depth]
  have once : countMember tagName (((tagName : Name), .string tag) :: members) = 1 := by
    simp [countMember, countMember_eq_zero untagged]
  simp only [tagged?, readable, depth, shallow, decide_true, Bool.and_self, if_true]
  simp only [ofTagged, once, if_true, lookupMember_cons, text_ofText, List.filter_cons]
  simpa using fun name value member => lookupMember_eq_none_iff.mp untagged (name, value) member

end Json

end ScriptLowering
