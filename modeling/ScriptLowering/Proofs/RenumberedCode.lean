import Mathlib.Data.List.Forall2
import Mathlib.Data.Option.Defs
import ScriptLowering.Code.Module
import ScriptLowering.Proofs.Table

/-! # Renumbered code

Code that is built a second time with something left out gets other numbers for its blocks, temps
and data, in the same order. A pairing says which of them stand for which. Pieces of code correspond
under a pairing if they are the same but for these numbers.
-/

namespace Option.Rel

variable {α β γ δ : Type} {related : α → β → Prop} {others : γ → δ → Prop}
  {first : Option α} {second : Option β}

theorem elim_map (all : Option.Rel related first second) {change : α → γ} {otherChange : β → δ}
    (changes : ∀ item other, related item other → others (change item) (otherChange other)) :
    Option.Rel others (first.map change) (second.map otherChange) := by
  cases all with
  | none => exact .none
  | some holds => exact .some (changes _ _ holds)

theorem imp {weaker : α → β → Prop} (all : Option.Rel related first second)
    (weakens : ∀ item other, related item other → weaker item other) :
    Option.Rel weaker first second := by
  cases all with
  | none => exact .none
  | some holds => exact .some (weakens _ _ holds)

theorem flip (all : Option.Rel related first second) :
    Option.Rel (flip related) second first := by
  cases all with
  | none => exact .none
  | some holds => exact .some holds

theorem exists_right (all : Option.Rel related first second) {item : α}
    (found : first = Option.some item) :
    ∃ other, second = Option.some other ∧ related item other := by
  subst found
  cases all with
  | some holds => exact ⟨_, rfl, holds⟩

theorem exists_left (all : Option.Rel related first second) {other : β}
    (found : second = Option.some other) :
    ∃ item, first = Option.some item ∧ related item other :=
  all.flip.exists_right found

end Option.Rel

namespace ScriptLowering.Code

/-! ## Pairings -/

/-- What is paired is paired once, and in the same order on both sides. -/
def InOrder {α : Type} (number : α → Nat) (pairs : α → α → Prop) : Prop :=
  ∀ first other second counterpart, pairs first other → pairs second counterpart →
    (first = second ↔ other = counterpart) ∧
      (number first < number second ↔ number other < number counterpart)

def withPair {α : Type} (pairs : α → α → Prop) (first second : α) (id other : α) : Prop :=
  pairs id other ∨ id = first ∧ other = second

namespace InOrder

variable {α : Type} {number : α → Nat} {pairs : α → α → Prop} {first second other counterpart : α}

theorem right_unique (inOrder : InOrder number pairs) (left : pairs first other)
    (right : pairs first counterpart) : other = counterpart :=
  (inOrder _ _ _ _ left right).1.mp rfl

theorem left_unique (inOrder : InOrder number pairs) (left : pairs first other)
    (right : pairs second other) : first = second :=
  (inOrder _ _ _ _ left right).1.mpr rfl

theorem biUnique (inOrder : InOrder number pairs) : Relator.BiUnique pairs :=
  ⟨fun _ _ _ left right => inOrder.left_unique left right,
    fun _ _ _ left right => inOrder.right_unique left right⟩

theorem withPair (inOrder : InOrder number pairs)
    (behind : ∀ id other, pairs id other → number id < number first ∧ number other < number second) :
    InOrder number (withPair pairs first second) := by
  have before : ∀ id other, pairs id other →
      (id = first ↔ other = second) ∧ (number id < number first ↔ number other < number second) ∧
      (first = id ↔ second = other) ∧ (number first < number id ↔ number second < number other) := by
    intro id other paired
    have less := behind id other paired
    have different : id ≠ first := fun same => Nat.lt_irrefl _ (same ▸ less.1)
    have otherDifferent : other ≠ second := fun same => Nat.lt_irrefl _ (same ▸ less.2)
    exact ⟨iff_of_false different otherDifferent, iff_of_true less.1 less.2,
      iff_of_false different.symm otherDifferent.symm,
      iff_of_false (Nat.lt_asymm less.1) (Nat.lt_asymm less.2)⟩
  rintro id other last counterpart (paired | ⟨rfl, rfl⟩) (pairedLast | ⟨rfl, rfl⟩)
  · exact inOrder _ _ _ _ paired pairedLast
  · exact ⟨(before _ _ paired).1, (before _ _ paired).2.1⟩
  · exact ⟨(before _ _ pairedLast).2.2.1, (before _ _ pairedLast).2.2.2⟩
  · simp

end InOrder

theorem exists_of_forall₂ {α β : Type} {related : α → β → Prop} {left : List α} {right : List β}
    (all : List.Forall₂ related left right) {item : α} (member : item ∈ left) :
    ∃ other ∈ right, related item other := by
  induction all with
  | nil => cases member
  | cons first _ induction =>
      rcases List.mem_cons.mp member with rfl | later
      · exact ⟨_, List.mem_cons_self, first⟩
      · rcases induction later with ⟨other, isOther, holds⟩
        exact ⟨other, List.mem_cons_of_mem _ isOther, holds⟩

/-- Which blocks, temps and data of some code stand for which of some other code. -/
structure Pairing where
  blocks : BlockId → BlockId → Prop
  temps : TempId → TempId → Prop
  data : DataId → DataId → Prop

namespace Pairing

structure Within (pairing more : Pairing) : Prop where
  blocks : ∀ id other, pairing.blocks id other → more.blocks id other
  temps : ∀ id other, pairing.temps id other → more.temps id other
  data : ∀ id other, pairing.data id other → more.data id other

theorem Within.refl (pairing : Pairing) : pairing.Within pairing :=
  ⟨fun _ _ => id, fun _ _ => id, fun _ _ => id⟩

theorem Within.trans {pairing middle more : Pairing} (first : pairing.Within middle)
    (second : middle.Within more) : pairing.Within more :=
  ⟨fun _ _ paired => second.blocks _ _ (first.blocks _ _ paired),
    fun _ _ paired => second.temps _ _ (first.temps _ _ paired),
    fun _ _ paired => second.data _ _ (first.data _ _ paired)⟩

def addBlock (pairing : Pairing) (id other : BlockId) : Pairing :=
  { pairing with blocks := withPair pairing.blocks id other }

def addTemp (pairing : Pairing) (id other : TempId) : Pairing :=
  { pairing with temps := withPair pairing.temps id other }

def addData (pairing : Pairing) (id other : DataId) : Pairing :=
  { pairing with data := withPair pairing.data id other }

theorem within_addBlock (pairing : Pairing) (first second : BlockId) :
    pairing.Within (pairing.addBlock first second) :=
  ⟨fun _ _ => .inl, fun _ _ paired => paired, fun _ _ paired => paired⟩

theorem within_addTemp (pairing : Pairing) (first second : TempId) :
    pairing.Within (pairing.addTemp first second) :=
  ⟨fun _ _ paired => paired, fun _ _ => .inl, fun _ _ paired => paired⟩

theorem within_addData (pairing : Pairing) (first second : DataId) :
    pairing.Within (pairing.addData first second) :=
  ⟨fun _ _ paired => paired, fun _ _ paired => paired, fun _ _ => .inl⟩

end Pairing

/-! ## Code -/

/-- The operands are the same up to their numbers. -/
inductive Operand.Pairs (pairing : Pairing) : Operand → Operand → Prop
  | temp {id other : TempId} (paired : pairing.temps id other) : Pairs pairing (.temp id) (.temp other)
  | param {id : ParamId} : Pairs pairing (.param id) (.param id)
  | global {id : GlobalId} : Pairs pairing (.global id) (.global id)
  | data {id other : DataId} (paired : pairing.data id other) : Pairs pairing (.data id) (.data other)
  | constant {value : Constant} : Pairs pairing (.constant value) (.constant value)

inductive Instruction.Pairs (pairing : Pairing) : Instruction → Instruction → Prop
  | alloca {result other : Operand} {ty : Ty} {align : UInt32} (results : result.Pairs pairing other) :
      Pairs pairing (.alloca result ty align) (.alloca other ty align)
  | load {result other address counterpart : Operand} {ty : Ty}
      (results : result.Pairs pairing other) (addresses : address.Pairs pairing counterpart) :
      Pairs pairing (.load result ty address) (.load other ty counterpart)
  | store {address counterpart value other : Operand} (addresses : address.Pairs pairing counterpart)
      (values : value.Pairs pairing other) :
      Pairs pairing (.store address value) (.store counterpart other)
  | arith {op : ArithOp} {result other left right otherLeft otherRight : Operand} {ty : Ty}
      (results : result.Pairs pairing other) (lefts : left.Pairs pairing otherLeft)
      (rights : right.Pairs pairing otherRight) :
      Pairs pairing (.arith op result left right ty) (.arith op other otherLeft otherRight ty)
  | negate {result other operand counterpart : Operand} {ty : Ty}
      (results : result.Pairs pairing other) (operands : operand.Pairs pairing counterpart) :
      Pairs pairing (.negate result operand ty) (.negate other counterpart ty)
  | compare {result other left right otherLeft otherRight : Operand} {condition : Condition}
      (results : result.Pairs pairing other) (lefts : left.Pairs pairing otherLeft)
      (rights : right.Pairs pairing otherRight) :
      Pairs pairing (.compare result condition left right)
        (.compare other condition otherLeft otherRight)
  | call {result other : Option Operand} {callee : String} {args others : List Operand}
      (results : Option.Rel (Operand.Pairs pairing) result other)
      (arguments : List.Forall₂ (Operand.Pairs pairing) args others) :
      Pairs pairing (.call result callee args) (.call other callee others)

inductive Terminator.Pairs (pairing : Pairing) : Terminator → Terminator → Prop
  | jump {target other : BlockId} (targets : pairing.blocks target other) :
      Pairs pairing (.jump target) (.jump other)
  | branch {condition other : Operand} {thenBlock otherThen elseBlock otherElse : BlockId}
      (conditions : condition.Pairs pairing other) (thenBlocks : pairing.blocks thenBlock otherThen)
      (elseBlocks : pairing.blocks elseBlock otherElse) :
      Pairs pairing (.branch condition thenBlock elseBlock) (.branch other otherThen otherElse)
  | ret {value other : Option Operand} (values : Option.Rel (Operand.Pairs pairing) value other) :
      Pairs pairing (.ret value) (.ret other)
  | unfinished : Pairs pairing .unfinished .unfinished

structure Block.Pairs (pairing : Pairing) (block other : Block) : Prop where
  ids : pairing.blocks block.id other.id
  label : other.label = block.label
  instructions : List.Forall₂ (Instruction.Pairs pairing) block.instructions other.instructions
  terminators : block.terminator.Pairs pairing other.terminator

/-- The laid-out blocks are the same and in the same order, up to numbers. -/
structure Body.Pairs (pairing : Pairing) (body other : Body) : Prop where
  layout : List.Forall₂ pairing.blocks body.layout other.layout
  blocks : ∀ id counterpart, pairing.blocks id counterpart → id ∈ body.layout →
    ∃ block found, body.block? id = some block ∧ other.block? counterpart = some found ∧
      block.Pairs pairing found
  temps : ∀ id counterpart, pairing.temps id counterpart →
    ∃ ty, body.tempType? id = some ty ∧ other.tempType? counterpart = some ty

/-- The data of the second table stands for data of the first, byte for byte. -/
structure DataPairs (pairs : DataId → DataId → Prop) (data other : Table DataId DataObject) :
    Prop where
  inOrder : InOrder (fun id : DataId => id.number.toNat) pairs
  bytes : ∀ id counterpart, pairs id counterpart → ∃ bytes,
    (data.get? id).map DataObject.bytes = some bytes ∧
      (other.get? counterpart).map DataObject.bytes = some bytes
  covered : ∀ counterpart object, other.get? counterpart = some object → ∃ id, pairs id counterpart

namespace DataPairs

variable {pairs : DataId → DataId → Prop} {data other next : Table DataId DataObject}

theorem empty : DataPairs (fun _ _ => False) .empty .empty where
  inOrder := fun _ _ _ _ absurd => absurd.elim
  bytes := fun _ _ absurd => absurd.elim
  covered := fun _ _ found => by cases found

theorem insert (same : DataPairs pairs data other) {id counterpart : DataId}
    (fresh : ∀ older ∈ data.keys, older.number.toNat < id.number.toNat)
    (otherFresh : ∀ older ∈ other.keys, older.number.toNat < counterpart.number.toNat)
    (bytes : List UInt8) : DataPairs (withPair pairs id counterpart)
      (data.insert id ⟨id, bytes⟩) (other.insert counterpart ⟨counterpart, bytes⟩) := by
  have old : ∀ older mirrored, pairs older mirrored →
      older.number.toNat < id.number.toNat ∧ mirrored.number.toNat < counterpart.number.toNat := by
    intro older mirrored paired
    rcases same.bytes older mirrored paired with ⟨_, found, otherFound⟩
    rcases Option.map_eq_some_iff.mp found with ⟨object, isObject, _⟩
    rcases Option.map_eq_some_iff.mp otherFound with ⟨mirror, isMirror, _⟩
    exact ⟨fresh older (Table.mem_keys_iff.mpr ⟨object, isObject⟩),
      otherFresh mirrored (Table.mem_keys_iff.mpr ⟨mirror, isMirror⟩)⟩
  have away : ∀ {first second : DataId}, first.number.toNat < second.number.toNat →
      second ≠ first := by
    rintro first _ less rfl
    exact Nat.lt_irrefl _ less
  refine ⟨same.inOrder.withPair old, ?_, ?_⟩
  · rintro older mirrored (paired | ⟨rfl, rfl⟩)
    · have less := old older mirrored paired
      rw [Table.get?_insert_other _ _ (away less.1), Table.get?_insert_other _ _ (away less.2)]
      exact same.bytes older mirrored paired
    · exact ⟨bytes, by simp⟩
  · intro mirrored object found
    rw [Table.get?_insert] at found
    split at found
    · rename_i isNew
      exact ⟨id, .inr ⟨rfl, isNew.symm⟩⟩
    · exact (same.covered mirrored object found).imp fun _ => .inl

theorem first (same : DataPairs pairs data other)
    (kept : ∀ id object, data.get? id = some object → next.get? id = some object) :
    DataPairs pairs next other where
  inOrder := same.inOrder
  bytes := by
    intro id counterpart paired
    rcases same.bytes id counterpart paired with ⟨bytes, found, otherFound⟩
    rcases Option.map_eq_some_iff.mp found with ⟨object, isObject, isBytes⟩
    exact ⟨bytes, by rw [kept id object isObject, Option.map_some, isBytes], otherFound⟩
  covered := same.covered

end DataPairs

/-! ## More pairs -/

section Mono

variable {pairing more : Pairing} (within : pairing.Within more)

include within

theorem Operand.Pairs.mono {operand other : Operand} (pairs : operand.Pairs pairing other) :
    operand.Pairs more other := by
  cases pairs with
  | temp paired => exact .temp (within.temps _ _ paired)
  | data paired => exact .data (within.data _ _ paired)
  | param => exact .param
  | global => exact .global
  | constant => exact .constant

theorem Operand.Pairs.mono_option {operand other : Option Operand}
    (pairs : Option.Rel (Operand.Pairs pairing) operand other) :
    Option.Rel (Operand.Pairs more) operand other :=
  pairs.imp fun _ _ pairs => pairs.mono within

theorem Instruction.Pairs.mono {instruction other : Instruction}
    (pairs : instruction.Pairs pairing other) : instruction.Pairs more other := by
  cases pairs with
  | alloca results => exact .alloca (results.mono within)
  | load results addresses => exact .load (results.mono within) (addresses.mono within)
  | store addresses values => exact .store (addresses.mono within) (values.mono within)
  | arith results lefts rights =>
      exact .arith (results.mono within) (lefts.mono within) (rights.mono within)
  | negate results operands => exact .negate (results.mono within) (operands.mono within)
  | compare results lefts rights =>
      exact .compare (results.mono within) (lefts.mono within) (rights.mono within)
  | call results arguments =>
      exact .call (Operand.Pairs.mono_option within results)
        (arguments.imp fun _ _ pairs => pairs.mono within)

theorem Terminator.Pairs.mono {terminator other : Terminator}
    (pairs : terminator.Pairs pairing other) : terminator.Pairs more other := by
  cases pairs with
  | jump targets => exact .jump (within.blocks _ _ targets)
  | branch conditions thenBlocks elseBlocks =>
      exact .branch (conditions.mono within) (within.blocks _ _ thenBlocks)
        (within.blocks _ _ elseBlocks)
  | ret values => exact .ret (Operand.Pairs.mono_option within values)
  | unfinished => exact .unfinished

theorem Block.Pairs.mono {block other : Block} (pairs : block.Pairs pairing other) :
    block.Pairs more other where
  ids := within.blocks _ _ pairs.ids
  label := pairs.label
  instructions := pairs.instructions.imp fun _ _ pairs => pairs.mono within
  terminators := pairs.terminators.mono within

end Mono

/-! ## Terminators and blocks -/

section Blocks

variable {pairing : Pairing}

theorem Terminator.Pairs.successors {terminator other : Terminator}
    (pairs : terminator.Pairs pairing other) :
    List.Forall₂ pairing.blocks terminator.successors other.successors := by
  cases pairs with
  | jump targets => exact .cons targets .nil
  | branch _ thenBlocks elseBlocks => exact .cons thenBlocks (.cons elseBlocks .nil)
  | ret | unfinished => exact .nil

theorem Terminator.Pairs.isFinished_eq {terminator other : Terminator}
    (pairs : terminator.Pairs pairing other) : other.isFinished = terminator.isFinished := by
  cases pairs <;> rfl

theorem Block.Pairs.empty {id other : BlockId} (paired : pairing.blocks id other) (label : String) :
    (Block.empty id label).Pairs pairing (.empty other label) where
  ids := paired
  label := rfl
  instructions := .nil
  terminators := .unfinished

theorem Block.Pairs.addInstruction {block other : Block} (pairs : block.Pairs pairing other)
    {instruction counterpart : Instruction} (instructions : instruction.Pairs pairing counterpart) :
    (block.addInstruction instruction).Pairs pairing (other.addInstruction counterpart) where
  ids := pairs.ids
  label := pairs.label
  instructions := List.rel_append pairs.instructions (.cons instructions .nil)
  terminators := pairs.terminators

theorem Block.Pairs.setTerminator {block other : Block} (pairs : block.Pairs pairing other)
    {terminator counterpart : Terminator} (terminators : terminator.Pairs pairing counterpart) :
    (block.setTerminator terminator).Pairs pairing (other.setTerminator counterpart) :=
  { pairs with terminators := terminators }

end Blocks

end ScriptLowering.Code
