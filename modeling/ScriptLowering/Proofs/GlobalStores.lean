import ScriptLowering.Proofs.EdgeOrigins
import ScriptLowering.Proofs.LaidOutStores
import ScriptLowering.Proofs.UndisturbedFunctions

/-! # Where globals are stored to

A variable of the top level is kept in one global. What is stored to the global in the finished
module is what the program assigns to the variable where control gets, and its initial value if the
global cannot start with it. The initial value is stored before anything else is done with the
global, even if the functions that use it are called earlier.
-/

namespace ScriptLowering.Code

/-- The address that an instruction loads from or stores to. -/
def Instruction.address? : Instruction → Option Operand
  | .load _ _ address | .store address _ => some address
  | .alloca _ _ _ | .arith _ _ _ _ _ | .negate _ _ _ | .compare _ _ _ _ | .call _ _ _ => none

/-! ## Code that is added -/

section Adds

variable {holds : Instruction → Prop} {place next : Place}

theorem Place.addsCode_ready (place : Place) : place.Adds Block.instructions holds place.ready :=
  .ready (fun _ _ => rfl) place

theorem Place.addsCode_add {instruction : Instruction} (isHeld : holds instruction) (place : Place) :
    place.Adds Block.instructions holds (place.add instruction) := by
  refine .change place fun block shown member => ?_
  rcases List.mem_append.mp member with old | new
  · exact .inl old
  · cases List.mem_singleton.mp new
    exact .inr isHeld

theorem Place.addsCode_readyAdd {instruction : Instruction} (isHeld : holds instruction)
    (place : Place) : place.Adds Block.instructions holds (place.ready.add instruction) :=
  (addsCode_ready place).trans (addsCode_add isHeld _)

theorem Place.addsCode_readyDefine {ty : Ty} {make : Operand → Instruction}
    (isHeld : ∀ result, holds (make result)) (place : Place) :
    place.Adds Block.instructions holds (place.ready.define ty make) :=
  ((addsCode_ready place).trans (.of_subset fun _ _ => id)).trans (addsCode_add (isHeld _) _)

theorem Place.addsCode_terminate (place : Place) (terminator : Terminator) :
    place.Adds Block.instructions holds (place.terminate terminator) :=
  .change place fun _ _ => .inl

theorem Place.addsCode_leaveTo (place : Place) (target : BlockId) :
    place.Adds Block.instructions holds (place.leaveTo target) := by
  unfold Place.leaveTo
  split
  · exact addsCode_terminate place _
  · exact .of_subset fun _ _ => id

theorem Place.addsCode_returnIfLive (place : Place) (value : Option Operand) :
    place.Adds Block.instructions holds (place.returnIfLive value) := by
  unfold Place.returnIfLive
  split
  · exact addsCode_terminate place _
  · exact .refl _ _ place

end Adds

end ScriptLowering.Code

namespace ScriptLowering.Lowering

open Source (Program ExprId ExprNode VarDecl VarId)
open Code (BlockId GlobalId Instruction Operand Place)

variable {program : Program} {name : String} {first middle last session next : Session}
  {vars : List (VarId × VarDecl)} {events : List Event}

/-! ## Variables and their globals -/

/-- The global is what a variable of the top level becomes. -/
structure IsGlobalOf (program : Program) (decl : VarDecl) (global : Code.Global) : Prop where
  name : global.name = decl.name
  ty : global.ty = codeType decl.ty
  align : global.align = if decl.ty = .boolean then 1 else 8
  initial : global.initial = startConstant program decl

theorem alignment_eq (ty : Source.Ty) : alignment ty = if ty = .boolean then 1 else 8 := by
  cases ty <;> rfl

def globalNumber (index : Nat) : GlobalId := ⟨index.toUInt32⟩

/-- The variable of the top level that a step declares. -/
def Task.global? (program : Program) : Task → Option (VarId × VarDecl)
  | .var id => (program.var? id).bind fun decl =>
      if decl.scope = .topLevel then some (id, decl) else none
  | _ => none

/-- The variables of the top level whose declarations have been lowered, in order. -/
def declaredGlobals (program : Program) (events : List Event) : List (VarId × VarDecl) :=
  events.filterMap fun event => event.task.global? program

/-- The globals of the session are the variables, in order, and no other variable is kept in one. -/
structure Session.Houses (program : Program) (vars : List (VarId × VarDecl)) (session : Session) :
    Prop where
  next : session.cursor.module.nextGlobal = vars.length.toUInt32
  few : vars.length ≤ session.annotations.storage.size
  once : (vars.map Prod.fst).Nodup
  keys : session.cursor.module.globals.keys = (List.range vars.length).map globalNumber
  kept : ∀ (index : Nat) id decl, vars[index]? = some (id, decl) →
    session.annotations.storageOf id = .ok (.global (globalNumber index)) ∧
      ∃ global, session.cursor.module.global? (globalNumber index) = some global ∧
        IsGlobalOf program decl global
  only : ∀ id global, session.annotations.storageOf id = .ok (.global global) →
    ∃ (index : Nat) (decl : VarDecl), vars[index]? = some (id, decl) ∧ global = globalNumber index

namespace Session.Houses

theorem same (houses : session.Houses program vars) (same : session.SameGlobals next) :
    next.Houses program vars where
  next := same.cursor.next.trans houses.next
  few := by rw [same.storage]; exact houses.few
  once := houses.once
  keys := by rw [same.cursor.globals]; exact houses.keys
  kept := by
    simp only [Annotations.storageOf, same.storage, Code.Module.global?, same.cursor.globals]
    exact houses.kept
  only := by
    simp only [Annotations.storageOf, same.storage]
    exact houses.only

theorem setSlot (houses : session.Houses program vars) {id : VarId} {temp : Code.TempId}
    {annotations : Annotations}
    (sets : session.annotations.setStorage id (.temp temp) = .ok annotations) :
    Session.Houses program vars { session with annotations := annotations } where
  next := houses.next
  few := Nat.le_trans houses.few (Nat.le_of_lt (Nat.lt_of_lt_of_eq (Nat.lt_succ_self _)
    (size_of_setStorage sets).2.symm))
  once := houses.once
  keys := houses.keys
  kept index other decl isVar :=
    ⟨Annotations.storageOf_kept sets (houses.kept index other decl isVar).1,
      (houses.kept index other decl isVar).2⟩
  only other global stored := by
    rw [Annotations.storageOf_of_setStorage sets] at stored
    split at stored
    · cases stored
    · exact houses.only other global stored

theorem room (houses : session.Houses program vars) {id : VarId}
    (fresh : session.annotations.storage.contains id = false) : vars.length < 2 ^ 32 :=
  Nat.lt_of_le_of_lt houses.few (storage_size_lt fresh)

theorem globalNumber_inj (houses : session.Houses program vars) {index other : Nat}
    (bound : index < vars.length) (otherBound : other < vars.length)
    (same : globalNumber index = globalNumber other) : index = other := by
  have distinct := session.cursor.module.globals.keys_nodup
  rw [houses.keys] at distinct
  exact List.inj_on_of_nodup_map distinct (List.mem_range.mpr bound) (List.mem_range.mpr otherBound)
    same

theorem fresh (houses : session.Houses program vars) (small : vars.length < 2 ^ 32) :
    (⟨session.cursor.module.nextGlobal⟩ : GlobalId) = globalNumber vars.length ∧
      globalNumber vars.length ∉ session.cursor.module.globals.keys := by
  refine ⟨by rw [houses.next]; rfl, fun member => ?_⟩
  rw [houses.keys] at member
  rcases List.mem_map.mp member with ⟨index, inside, same⟩
  have below := List.mem_range.mp inside
  have numbers := congrArg (fun id : GlobalId => id.number.toNat) same
  simp only [globalNumber, Nat.toUInt32, UInt32.toNat_ofNat'] at numbers
  omega

theorem addGlobal (houses : session.Houses program vars) {id : VarId} {decl : VarDecl}
    {initial : Code.Constant} {annotations : Annotations}
    (same : (session.addGlobal decl initial).SameGlobals middle)
    (starts : initial = startConstant program decl)
    (sets : middle.annotations.setStorage id (.global ⟨session.cursor.module.nextGlobal⟩) =
      .ok annotations) :
    Session.Houses program (vars ++ [(id, decl)]) { middle with annotations := annotations } := by
  rcases size_of_setStorage sets with ⟨free, size⟩
  rw [same.storage] at free size
  have small := houses.room free
  rcases houses.fresh small with ⟨number, isNew⟩
  rw [number] at sets
  have storage (other : VarId) : middle.annotations.storageOf other =
      session.annotations.storageOf other := by
    simp only [Annotations.storageOf, same.storage]
    rfl
  have globals : middle.cursor.module.globals = session.cursor.module.globals.insert
      (globalNumber vars.length) ⟨globalNumber vars.length, decl.name, codeType decl.ty, initial,
        alignment decl.ty, .exported⟩ := by
    rw [same.cursor.globals, ← number]
    rfl
  have old {index : Nat} {other : VarId} {otherDecl : VarDecl}
      (isVar : vars[index]? = some (other, otherDecl)) : index < vars.length :=
    (List.getElem?_eq_some_iff.mp isVar).1
  refine ⟨?_, ?_, ?_, ?_, fun index other otherDecl isVar => ?_, fun other global stored => ?_⟩
  · have following : middle.cursor.module.nextGlobal = session.cursor.module.nextGlobal + 1 :=
      same.cursor.next
    rw [following, houses.next, List.length_append]
    simp [Nat.toUInt32]
  · rw [List.length_append, size]
    exact Nat.succ_le_succ houses.few
  · rw [List.map_append, List.nodup_append]
    refine ⟨houses.once, List.nodup_singleton _, fun other isOther last isLast equal => ?_⟩
    cases List.mem_singleton.mp isLast
    subst equal
    rcases List.mem_map.mp isOther with ⟨⟨_, known⟩, isVar, rfl⟩
    rcases List.getElem?_of_mem isVar with ⟨index, isVar⟩
    exact Annotations.storageOf_ne_of_setStorage sets _ ((storage _).trans (houses.kept index _ known isVar).1)
  · change middle.cursor.module.globals.keys = _
    rw [globals, Table.keys_insert_of_not_mem isNew, houses.keys, List.length_append,
      List.length_singleton, List.range_succ, List.map_append]
    rfl
  · by_cases isOld : index < vars.length
    · rw [List.getElem?_append_left isOld] at isVar
      rcases houses.kept index other otherDecl isVar with ⟨stored, global, found, isGlobal⟩
      refine ⟨Annotations.storageOf_kept sets (by rw [storage]; exact stored), global, ?_, isGlobal⟩
      change middle.cursor.module.globals.get? _ = _
      rw [globals, Table.get?_insert_other]
      · exact found
      · rintro equal
        exact isNew (equal ▸ Table.mem_keys_iff.mpr ⟨global, found⟩)
    · rw [List.getElem?_append_right (Nat.le_of_not_lt isOld), List.getElem?_singleton] at isVar
      split at isVar
      · cases isVar
        have isLast : index = vars.length := by omega
        subst isLast
        have found := Table.get?_insert_same session.cursor.module.globals
          (globalNumber vars.length) ⟨globalNumber vars.length, decl.name, codeType decl.ty, initial,
            alignment decl.ty, .exported⟩
        rw [← globals] at found
        refine ⟨by rw [Annotations.storageOf_of_setStorage sets, if_pos rfl], _, found, ?_⟩
        exact ⟨rfl, rfl, alignment_eq _, starts⟩
      · cases isVar
  · rw [Annotations.storageOf_of_setStorage sets] at stored
    split at stored
    · rename_i isId
      cases stored
      exact ⟨vars.length, decl, by simp [isId], rfl⟩
    · rw [storage] at stored
      rcases houses.only other global stored with ⟨index, otherDecl, isVar, number⟩
      exact ⟨index, otherDecl, by rw [List.getElem?_append_left (old isVar)]; exact isVar, number⟩

end Session.Houses

/-! ## The values of literals -/

def Session.KnowsLiterals (program : Program) (session : Session) : Prop :=
  ∀ id expr value, program.expr? id = some expr → session.annotations.value? id = some value →
    LiteralOperand expr.node value

theorem Emits.literalOperand {final : Session} {node : ExprNode} {values : List Operand}
    {place after : Place} {operand : Operand}
    (emits : Emits program final node values place (some operand) after) :
    LiteralOperand node operand := by
  cases emits <;> first | rfl | trivial

theorem Task.Performs.knowsLiterals {task : Task} (performs : task.Performs program name session next)
    (knows : session.KnowsLiterals program) : next.KnowsLiterals program := by
  intro id expr value found known
  rcases performs.value_cases known with old | ⟨other, _, _, same, emits⟩
  · exact knows id expr value found old
  · cases found.symm.trans same
    rcases emits with ⟨_, _, emits, _⟩
    exact emits.literalOperand

theorem Session.KnowsLiterals.initial (knows : session.KnowsLiterals program) {decl : VarDecl}
    {value : Option Operand} (has : session.HasInitial decl value) :
    LiteralInitial program decl value := by
  unfold Session.HasInitial at has
  cases initial : decl.initial with
  | none =>
      cases value with
      | none => exact literalInitial_none initial
      | some value => simp [initial] at has
  | some id =>
      cases value with
      | none => simp [initial] at has
      | some value =>
          refine literalInitial_some initial fun expr found => knows id expr value found ?_
          simpa [initial] using has

theorem Task.Performs.houses {task : Task} (performs : task.Performs program name session next)
    (houses : session.Houses program vars) (knows : session.KnowsLiterals program) :
    next.Houses program (vars ++ (task.global? program).toList) := by
  have silent (noGlobal : ∀ id decl, task = .var id → program.var? id = some decl →
      decl.scope = .local) : task.global? program = none := by
    cases task with
    | var id =>
        cases found : program.var? id with
        | none => simp [Task.global?, found]
        | some decl => simp [Task.global?, found, noGlobal id decl rfl found]
    | _ => rfl
  cases performs.givesStorage with
  | none noGlobal same =>
      rw [silent noGlobal, Option.toList_none, List.append_nil]
      exact houses.same same
  | slot noGlobal same sets becomes =>
      subst becomes
      rw [silent noGlobal, Option.toList_none, List.append_nil]
      exact (houses.same same).setSlot sets
  | @global id decl _ _ _ _ declares found topLevel has starts same sets becomes =>
      subst becomes declares
      have isGlobal : (Task.var id).global? program = some (id, decl) := by
        simp [Task.global?, found, topLevel]
      rw [isGlobal]
      exact houses.addGlobal same ((knows.initial has).globalInitial_eq starts) sets

/-! ## Code that uses globals -/

/-- All code of the session, also where control does not get, is as said. -/
def Session.Everywhere (session : Session) (holds : Instruction → Prop) : Prop :=
  ∀ name function instruction, session.cursor.module.function? name = some function →
    function.body.Shows Code.Block.instructions instruction → holds instruction

namespace Session.Everywhere

variable {holds more : Instruction → Prop} {place after : Place}

theorem mono (all : session.Everywhere holds)
    (within : ∀ instruction, holds instruction → more instruction) : session.Everywhere more :=
  fun name function instruction found shown => within instruction (all name function instruction found shown)

theorem congr (all : session.Everywhere holds)
    (same : next.cursor.module.functions = session.cursor.module.functions) :
    next.Everywhere holds := by
  intro name function instruction found
  rw [Code.Module.function?, same] at found
  exact all name function instruction found

theorem put (all : session.Everywhere holds) (builds : session.Builds name place)
    (adds : place.Adds Code.Block.instructions holds after) :
    (session.put name after).Everywhere holds := by
  rcases builds.body with ⟨function, known, same⟩
  intro other function instruction found shown
  rw [Session.function?_put] at found
  split at found
  · rcases Option.map_eq_some_iff.mp found with ⟨_, _, rfl⟩
    refine (adds instruction shown).elim (fun old => ?_) id
    exact all name _ instruction known (same ▸ old)
  · exact all other function instruction found shown

theorem start {function : Code.Function} (all : session.Everywhere holds)
    (found : session.cursor.module.function? name = some function) :
    (session.put name (Place.mk function.body none).opened).Everywhere holds := by
  let moved : Session :=
    { session with cursor := session.cursor.setPosition (.inFunction name) }
  have builds : moved.Builds name ⟨function.body, none⟩ := ⟨rfl, function, found, rfl⟩
  have adds : (Place.mk function.body none).Adds Code.Block.instructions holds
      (Place.mk function.body none).opened := .create (fun _ _ => rfl) _ _
  have stays : moved.Everywhere holds := all.congr rfl
  exact stays.put builds adds

end Session.Everywhere

/-- If the instruction uses a global, this is a global of the module. -/
def Session.HasGlobalsOf (session : Session) (instruction : Instruction) : Prop :=
  ∀ global, instruction.address? = some (.global global) → global ∈ session.cursor.module.globals.keys

section Uses

variable {place after : Place} {holds : Instruction → Prop}
  (plain : ∀ instruction : Instruction,
    (∀ global, instruction.address? ≠ some (.global global)) → holds instruction)

include plain

theorem Emits.addsCode {final : Session} {node : ExprNode} {values : List Operand}
    {value : Option Operand} (emits : Emits program final node values place value after)
    (stored : ∀ id address, final.annotations.storageOf id = .ok address →
      ∀ instruction : Instruction, instruction.address? = some address → holds instruction) :
    place.Adds Code.Block.instructions holds after := by
  cases emits with
  | booleanLiteral | integerLiteral => exact .refl _ _ place
  | stringLiteral | callValue | negate | arith | compare | concat =>
      exact Place.addsCode_readyDefine (fun _ => plain _ fun _ same => by cases same) place
  | identifier _ isStored => exact Place.addsCode_readyDefine (fun _ => stored _ _ isStored _ rfl) place
  | callNothing => exact Place.addsCode_readyAdd (plain _ fun _ same => by cases same) place
  | assign _ _ isStored => exact Place.addsCode_readyAdd (stored _ _ isStored _ rfl) place
  | compareStrings _ _ compares =>
      subst compares
      exact (Place.addsCode_readyDefine (fun _ => plain _ fun _ same => by cases same) place).trans
        (Place.addsCode_readyDefine (fun _ => plain _ fun _ same => by cases same) _)

theorem addsCode_fillSlot (ty : Source.Ty) (value : Option Operand) (place : Place) :
    place.Adds Code.Block.instructions holds (fillSlot ty value place) := by
  have slotted : place.Adds Code.Block.instructions holds (fillSlot ty none place) :=
    Place.addsCode_readyDefine (fun _ => plain _ fun _ same => by cases same) place
  cases value with
  | none => exact slotted
  | some value =>
      exact slotted.trans (Place.addsCode_readyAdd (plain _ fun _ same => by cases same) _)

end Uses

theorem addsCode_storeInitial {holds : Instruction → Prop} {decl : VarDecl} {global : Operand}
    {value : Option Operand} (isHeld : ∀ value, holds (.store global value)) (place : Place) :
    place.Adds Code.Block.instructions holds (storeInitial program decl global value place) := by
  unfold Lowering.storeInitial
  split
  · split
    · exact Place.addsCode_readyAdd (isHeld _) place
    · exact .refl _ _ place
  · exact .refl _ _ place

theorem Session.Houses.mem_keys (houses : session.Houses program vars) {id : VarId}
    {global : GlobalId} (stored : session.annotations.storageOf id = .ok (.global global)) :
    global ∈ session.cursor.module.globals.keys := by
  rcases houses.only id global stored with ⟨index, decl, isVar, rfl⟩
  rw [houses.keys]
  exact List.mem_map_of_mem (List.mem_range.mpr (List.getElem?_eq_some_iff.mp isVar).1)

theorem Task.Performs.hasGlobals {task : Task} (performs : task.Performs program name session next)
    (houses : session.Houses program vars) (known : session.Everywhere session.HasGlobalsOf) :
    next.Everywhere next.HasGlobalsOf := by
  have plain (instruction : Instruction)
      (noGlobal : ∀ global, instruction.address? ≠ some (.global global)) :
      session.HasGlobalsOf instruction := fun global uses => absurd uses (noGlobal global)
  have unchanged {later : Session} (all : later.Everywhere session.HasGlobalsOf)
      (same : later.cursor.module.globals = session.cursor.module.globals) :
      later.Everywhere later.HasGlobalsOf := by
    refine all.mono fun instruction has global uses => ?_
    rw [same]
    exact has global uses
  cases performs with
  | start found => exact unchanged (known.start found) rfl
  | param _ builds | slot _ _ _ _ builds =>
      exact unchanged ((known.put builds (addsCode_fillSlot plain _ _ _)).congr rfl) rfl
  | @expr id expr value _ mid _ found emits records =>
      have same := emits.sameGlobals
      have learnt := (recordValue_eq_ok records).1
      cases emits with
      | @intro place after values builds operands emits puts =>
          have prepares : (session.prepare expr.node).Everywhere session.HasGlobalsOf :=
            known.congr (by cases expr.node <;> rfl)
          have annotations : mid.annotations = session.annotations := by
            rw [puts]
            cases expr.node <;> rfl
          have adds : place.Adds Code.Block.instructions session.HasGlobalsOf after := by
            refine emits.addsCode plain fun id address stored instruction uses global isGlobal => ?_
            rw [uses] at isGlobal
            cases isGlobal
            rw [annotations] at stored
            exact houses.mem_keys stored
          have held := prepares.put (builds.prepare expr.node) adds
          rw [← puts] at held
          refine unchanged (held.congr (by rw [learnt])) ?_
          rw [learnt]
          exact same.cursor.globals
  | @global id decl value initial _ place annotations found _ topLevel has _ builds sets =>
      let later : Session := (session.addGlobal decl initial).put name (storeInitial program decl
        (.global ⟨session.cursor.module.nextGlobal⟩) value place)
      have adds : place.Adds Code.Block.instructions later.HasGlobalsOf (storeInitial program decl
          (.global ⟨session.cursor.module.nextGlobal⟩) value place) := by
        refine addsCode_storeInitial (fun value global uses => ?_) place
        cases uses
        exact Table.mem_keys_insert.mpr (.inl rfl)
      have grown : (session.addGlobal decl initial).Everywhere later.HasGlobalsOf :=
        (known.congr rfl).mono fun instruction has global uses =>
          Table.mem_keys_insert.mpr (.inr (has global uses))
      exact (grown.put (builds.addGlobal decl initial) adds).congr rfl
  | create builds => exact unchanged (known.put builds (.create (fun _ _ => rfl) _ _)) rfl
  | loop => exact unchanged (known.congr rfl) rfl
  | test builds | jump builds =>
      exact unchanged (known.put builds
        ((Place.addsCode_ready _).trans (Place.addsCode_terminate _ _))) rfl
  | enter builds enters =>
      exact unchanged (known.put builds
        (.enter (Code.Place.enters_of_tryEnter enters) (Place.addsCode_leaveTo _ _))) rfl
  | leave builds => exact unchanged (known.put builds (Place.addsCode_leaveTo _ _)) rfl
  | returnIfLive builds => exact unchanged (known.put builds (Place.addsCode_returnIfLive _ _)) rfl
  | finish builds => exact unchanged (known.put builds (.pruned _)) rfl
  | resume | come => exact unchanged (known.congr rfl) rfl

/-! ## In the course of a run -/

/-- The variables have their globals, and code uses only these. -/
structure Session.Settled (program : Program) (vars : List (VarId × VarDecl)) (session : Session) :
    Prop where
  houses : session.Houses program vars
  literals : session.KnowsLiterals program
  code : session.Everywhere session.HasGlobalsOf

theorem declaredGlobals_cons (event : Event) (events : List Event) :
    declaredGlobals program (event :: events) =
      (event.task.global? program).toList ++ declaredGlobals program events := by
  simp only [declaredGlobals, List.filterMap_cons]
  cases event.task.global? program <;> rfl

theorem Path.settled (path : Path program first events last) (begins : first.Settled program vars) :
    last.Settled program (vars ++ declaredGlobals program events) := by
  induction path generalizing vars with
  | nil => simpa [declaredGlobals] using begins
  | @cons name event events last performs _ induction =>
      rw [declaredGlobals_cons, ← List.append_assoc]
      exact induction ⟨performs.houses begins.houses begins.literals,
        performs.knowsLiterals begins.literals, performs.hasGlobals begins.houses begins.code⟩

theorem settled_start {options : Options} {declared : Code.Module}
    (declares : declareAll program options = .ok declared) :
    (Session.start (.ofModule declared)).Settled program [] := by
  rcases holds_declareAll declares with ⟨signatures, _, ⟨_, holds⟩, tables⟩
  refine ⟨⟨tables.nextGlobal, Nat.zero_le _, List.nodup_nil, ?_, ?_, ?_⟩, ?_, ?_⟩
  · change declared.globals.keys = []
    rw [tables.globals]
    rfl
  · rintro index id decl ⟨⟩
  · intro id global stored
    cases stored
  · intro id expr value _ recorded
    cases recorded
  · rintro name function instruction found ⟨id, block, foundBlock, _⟩
    rcases (holds name function).mp found with ⟨signature, _, _, rfl⟩
    cases foundBlock

theorem unstored_start {options : Options} {declared : Code.Module}
    (declares : declareAll program options = .ok declared) (address : Operand) :
    (Session.start (.ofModule declared)).LaysOutOnce ∧ declared.storesTo address = 0 := by
  rcases holds_declareAll declares with ⟨signatures, _, ⟨_, holds⟩, _⟩
  have empty (name : String) (function : Code.Function)
      (found : declared.function? name = some function) : function.body = .empty := by
    rcases (holds name function).mp found with ⟨signature, _, _, rfl⟩
    rfl
  refine ⟨fun name function found => ?_, List.sum_eq_zero fun count member => ?_⟩
  · rw [empty name function found]
    exact List.nodup_nil
  · rcases List.mem_map.mp member with ⟨function, isFunction, rfl⟩
    rcases Table.mem_values_iff.mp isFunction with ⟨name, found⟩
    rw [empty name function found]
    rfl

/-! ## What is stored to a global -/

/-- At a live cursor, the step assigns to the variable. -/
def Event.assigns (program : Program) (id : VarId) (event : Event) : Bool :=
  event.before.cursor.isLive && event.task.assigned? program = some id

/-- At a live cursor, the step declares the variable. -/
def Event.declares (id : VarId) (event : Event) : Bool :=
  event.before.cursor.isLive && event.task = .var id

theorem Emits.exists_assigned {final : Session} {node : ExprNode} {values : List Operand}
    {value : Option Operand} {place after : Place}
    (emits : Emits program final node values place value after) {id : VarId}
    (assigns : assignedVar? program node = some id) :
    ∃ address, final.annotations.storageOf id = .ok address := by
  cases emits with
  | assign found isIdentifier stored =>
      simp only [assignedVar?, found, Option.map_some, isIdentifier, Option.some.injEq] at assigns
      exact ⟨_, assigns ▸ stored⟩
  | arith _ means | compare _ means | concat _ means | compareStrings _ means _ =>
      rw [assignedVar?_eq_none means] at assigns
      cases assigns
  | _ => cases assigns

theorem Task.Performs.exists_assigned {task : Task}
    (performs : task.Performs program name session next) {id : VarId}
    (assigns : task.assigned? program = some id) :
    ∃ address, session.annotations.storageOf id = .ok address := by
  cases performs with
  | @expr _ expr value _ mid _ found emits _ =>
      cases emits with
      | @intro place after values builds operands emits puts =>
          have annotations : mid.annotations = session.annotations := by
            rw [puts]
            cases expr.node <;> rfl
          simp only [Task.assigned?, found, Option.bind_some] at assigns
          rw [← annotations]
          exact emits.exists_assigned assigns
  | _ => cases assigns

/-- A global that is declared is the next one, and stays the storage of its variable. -/
theorem Task.Performs.declared_global {id : VarId} {decl : VarDecl}
    (performs : (Task.var id).Performs program name session next)
    (found : program.var? id = some decl) (topLevel : decl.scope = .topLevel) :
    next.annotations.storageOf id = .ok (.global ⟨session.cursor.module.nextGlobal⟩) := by
  cases performs with
  | global _ _ _ _ _ _ sets => rw [Annotations.storageOf_of_setStorage sets, if_pos rfl]
  | slot known _ isLocal =>
      rw [found] at known
      cases known
      rw [topLevel] at isLocal
      cases isLocal

section Last

variable {index : Nat} {id : VarId} {decl : VarDecl} (houses : last.Houses program vars)
  (isVar : vars[index]? = some (id, decl))

include houses isVar

theorem Session.Houses.eq_of_stored {other : VarId}
    (stored : last.annotations.storageOf other = .ok (.global (globalNumber index))) : other = id := by
  rcases houses.only other _ stored with ⟨place, otherDecl, isOther, same⟩
  have equal := houses.globalNumber_inj (List.getElem?_eq_some_iff.mp isVar).1
    (List.getElem?_eq_some_iff.mp isOther).1 same
  subst equal
  rw [isVar] at isOther
  cases isOther
  rfl

/-- A store to the global is an assignment to its variable, or comes from its declaration. -/
theorem Task.Performs.storesTo_eq {event : Event}
    (performs : event.task.Performs program name event.before event.after)
    (retains : event.after.Retains last) (found : program.var? id = some decl)
    (topLevel : decl.scope = .topLevel) :
    event.storesTo program (.global (globalNumber index)) =
      (event.assigns program id || (storesInitial program decl && event.declares id)) := by
  have stored := (houses.kept index id decl isVar).1
  rcases event with ⟨task, before, after⟩
  have step : before.Retains after := performs.retains
  have keeps := step.trans retains
  cases task with
  | expr expr =>
      have target : (Task.expr expr).target? program before = some (.global (globalNumber index)) ↔
          (Task.expr expr).assigned? program = some id := by
        rw [Task.target?]
        cases assigned : (Task.expr expr).assigned? program with
        | none => simp
        | some other =>
            rcases performs.exists_assigned assigned with ⟨address, has⟩
            have kept := keeps.storage other address has
            rw [Option.bind_some, Annotations.storageOf_eq_ok.mp has, Option.some.injEq, Option.some.injEq]
            refine ⟨fun same => ?_, fun same => ?_⟩
            · subst same
              exact houses.eq_of_stored isVar kept
            · subst same
              rw [stored] at kept
              exact (Except.ok.inj kept).symm
      simp [Event.storesTo, Event.assigns, Event.declares, target]
  | var other =>
      have target : (Task.var other).target? program before = some (.global (globalNumber index)) ↔
          storesInitial program decl = true ∧ other = id := by
        rw [Task.target?]
        refine ⟨fun isTarget => ?_, ?_⟩
        · rcases Option.bind_eq_some_iff.mp isTarget with ⟨otherDecl, foundOther, isTarget⟩
          rcases Option.ite_none_right_eq_some.mp isTarget with ⟨⟨isGlobal, stores⟩, same⟩
          have kept := retains.storage _ _ (performs.declared_global foundOther isGlobal)
          rw [Option.some.inj same] at kept
          have equal := houses.eq_of_stored isVar kept
          subst equal
          rw [found] at foundOther
          cases foundOther
          exact ⟨stores, rfl⟩
        · rintro ⟨stores, rfl⟩
          have kept := retains.storage _ _ (performs.declared_global found topLevel)
          rw [stored] at kept
          rw [found, Option.bind_some, if_pos ⟨topLevel, stores⟩, ← Except.ok.inj kept]
      simp only [Event.storesTo, Event.assigns, Event.declares, Task.assigned?, target,
        Bool.decide_and, Task.var.injEq, reduceCtorEq, decide_false, Bool.and_false, Bool.false_or]
      cases before.cursor.isLive <;> cases storesInitial program decl <;> simp
  | _ => simp [Event.storesTo, Event.assigns, Event.declares, Task.target?, Task.assigned?]

end Last

theorem countP_storesTo {id : VarId} {starts : Bool} {stores : Event → Bool}
    (same : ∀ event ∈ events, stores event =
      (event.assigns program id || (starts && event.declares id))) :
    events.countP stores = events.countP (Event.assigns program id) +
      events.countP fun event => starts && event.declares id := by
  induction events with
  | nil => rfl
  | cons event events induction =>
      have apart : ¬ (event.assigns program id = true ∧ event.declares id = true) := by
        rintro ⟨assigns, declares⟩
        have isVar := of_decide_eq_true (Bool.and_eq_true_iff.mp declares).2
        have isExpr := of_decide_eq_true (Bool.and_eq_true_iff.mp assigns).2
        rw [isVar] at isExpr
        cases isExpr
      rw [List.countP_cons, List.countP_cons, List.countP_cons, same event List.mem_cons_self,
        induction fun other member => same other (List.mem_cons_of_mem _ member)]
      cases assigns : event.assigns program id <;> cases declares : event.declares id <;>
        cases starts <;> simp_all <;> omega

theorem countP_declares_le_one (once : ((declaredGlobals program events).map Prod.fst).Nodup)
    {id : VarId} {decl : VarDecl} (found : program.var? id = some decl)
    (topLevel : decl.scope = .topLevel) : events.countP (Event.declares id) ≤ 1 := by
  have isGlobal : (Task.var id).global? program = some (id, decl) := by
    simp [Task.global?, found, topLevel]
  refine Nat.le_trans ?_ (List.nodup_iff_count_le_one.mp once id)
  induction events with
  | nil => exact Nat.zero_le _
  | cons event events induction =>
      rw [declaredGlobals_cons, List.map_append] at once ⊢
      have rest := induction (List.nodup_append.mp once).2.1
      rw [List.countP_cons, List.count_append]
      cases declares : event.declares id with
      | false =>
          rw [if_neg Bool.false_ne_true]
          omega
      | true =>
          have isVar := of_decide_eq_true (Bool.and_eq_true_iff.mp declares).2
          rw [isVar, isGlobal, if_pos rfl]
          simp only [Option.toList_some, List.map_cons, List.map_nil, List.count_cons_self,
            List.count_nil]
          omega

theorem countP_declares_eq (once : ((declaredGlobals program events).map Prod.fst).Nodup)
    {id : VarId} {decl : VarDecl} (found : program.var? id = some decl)
    (topLevel : decl.scope = .topLevel) (starts : Bool) :
    (events.countP fun event => starts && event.declares id) =
      if starts && events.any (Event.declares id) then 1 else 0 := by
  have few := countP_declares_le_one once found topLevel
  cases starts with
  | false => simp
  | true =>
      simp only [Bool.true_and]
      split
      · rename_i declared
        have some := List.countP_pos_iff.mpr (List.any_eq_true.mp declared)
        change events.countP (Event.declares id) = 1
        omega
      · rename_i missing
        refine List.countP_eq_zero.mpr fun event member declares => missing ?_
        exact List.any_eq_true.mpr ⟨event, member, declares⟩

theorem Session.HasInitial.initial_eq_none {decl : VarDecl} (has : session.HasInitial decl none) :
    decl.initial = none := by
  cases initial : decl.initial with
  | none => rfl
  | some id => simp [Session.HasInitial, initial] at has

/-! ## Finished modules -/

/-- The step adds the instruction where the cursor stands, and no other code. -/
def Event.AddsOnly (event : Event) (instruction : Instruction) : Prop :=
  ∃ name place, event.before.Builds name place ∧
    event.after.Builds name (place.ready.add instruction) ∧
      ∀ other, other ≠ name → event.after.cursor.module.function? other =
        event.before.cursor.module.function? other

/-- The variable is kept in the global. What is stored to the global are the assignments where
control gets, and the initial value if it is no constant and control gets to the declaration. That
value is stored when no other instruction has the address of the global. -/
structure KeptIn (program : Program) (events : List Event) (module : Code.Module) (id : VarId)
    (decl : VarDecl) (global : GlobalId) : Prop where
  entry : ∃ entry, module.global? global = some entry ∧ IsGlobalOf program decl entry
  stores : module.storesTo (.global global) = events.countP (Event.assigns program id) +
    if storesInitial program decl && events.any (Event.declares id) then 1 else 0
  unused : ∀ event ∈ events, event.task = .var id →
    event.before.Everywhere fun instruction => instruction.address? ≠ some (.global global)
  initial : ∀ event ∈ events, event.task = .var id → storesInitial program decl = true →
    ∃ value, event.before.HasInitial decl (some value) ∧ event.AddsOnly (.store (.global global) value)

/-- The globals of the module are the variables of the top level whose declarations have been
lowered, each of them in one global of its own. -/
structure KeepsGlobals (program : Program) (events : List Event) (module : Code.Module) : Prop where
  once : ((declaredGlobals program events).map Prod.fst).Nodup
  globals : module.globals.keys = (List.range (declaredGlobals program events).length).map globalNumber
  kept : ∀ (index : Nat) id decl, (declaredGlobals program events)[index]? = some (id, decl) →
    KeptIn program events module id decl (globalNumber index)

section Declared

variable {id : VarId} {decl : VarDecl} (found : program.var? id = some decl)
  (topLevel : decl.scope = .topLevel)

include found topLevel

theorem Task.Performs.fresh_global (performs : (Task.var id).Performs program name session next)
    (houses : session.Houses program vars) :
    (⟨session.cursor.module.nextGlobal⟩ : GlobalId) = globalNumber vars.length ∧
      globalNumber vars.length ∉ session.cursor.module.globals.keys := by
  cases performs with
  | global _ _ _ _ _ _ sets => exact houses.fresh (houses.room (size_of_setStorage sets).1)
  | slot known _ isLocal =>
      rw [found] at known
      cases known
      rw [topLevel] at isLocal
      cases isLocal

/-- The initial value of a variable is stored to its global, if this is needed. -/
theorem Task.Performs.stores_initial (performs : (Task.var id).Performs program name session next)
    (stores : storesInitial program decl = true) :
    ∃ value, session.HasInitial decl (some value) ∧ Event.AddsOnly ⟨.var id, session, next⟩
      (.store (.global ⟨session.cursor.module.nextGlobal⟩) value) := by
  have others := performs.rebuilds.others
  cases performs with
  | @global _ _ value initial _ place annotations known _ _ has _ builds sets =>
      rw [found] at known
      cases known
      simp only [storesInitial, Bool.and_eq_true, Bool.or_eq_true, decide_eq_true_eq,
        Bool.not_eq_true'] at stores
      cases value with
      | none =>
          rw [has.initial_eq_none] at stores
          cases stores.1
      | some value =>
          refine ⟨value, has, name, place, builds, ?_, others⟩
          have needed : decl.ty = .string ∨ ¬ isLiteralInitial program decl = true := by
            rw [Bool.not_eq_true]
            exact stores.2
          have after := (builds.addGlobal decl initial).put
            (place.ready.add (.store (.global ⟨session.cursor.module.nextGlobal⟩) value))
          simp only [Session.Builds, storeInitial, if_pos needed]
          exact after
  | slot known _ isLocal =>
      rw [found] at known
      cases known
      rw [topLevel] at isLocal
      cases isLocal

/-- The variable that a step declares stands behind those that have been declared earlier. -/
theorem index_of_declared {early late : List Event} {event : Event} (isVar : event.task = .var id)
    (once : ((declaredGlobals program (early ++ event :: late)).map Prod.fst).Nodup) {index : Nat}
    (isIndex : (declaredGlobals program (early ++ event :: late))[index]? = some (id, decl)) :
    index = (declaredGlobals program early).length := by
  have isGlobal : event.task.global? program = some (id, decl) := by
    simp [isVar, Task.global?, found, topLevel]
  have splits : declaredGlobals program (early ++ event :: late) =
      declaredGlobals program early ++ (id, decl) :: declaredGlobals program late := by
    simp [declaredGlobals, isGlobal]
  rw [splits] at once isIndex
  have atPlace : (declaredGlobals program early ++ (id, decl) :: declaredGlobals program late)[
      (declaredGlobals program early).length]? = some (id, decl) := by simp
  have named := congrArg (Option.map Prod.fst) (isIndex.trans atPlace.symm)
  rw [← List.getElem?_map, ← List.getElem?_map] at named
  refine (List.getElem?_inj ?_ once).mp named
  rw [List.length_map]
  exact (List.getElem?_eq_some_iff.mp isIndex).1

end Declared

theorem mem_declaredGlobals {id : VarId} {decl : VarDecl}
    (member : (id, decl) ∈ declaredGlobals program events) :
    program.var? id = some decl ∧ decl.scope = .topLevel := by
  rcases List.mem_filterMap.mp member with ⟨event, _, isGlobal⟩
  cases isTask : event.task with
  | var other =>
      rw [isTask] at isGlobal
      rcases Option.bind_eq_some_iff.mp isGlobal with ⟨known, found, isGlobal⟩
      rcases Option.ite_none_right_eq_some.mp isGlobal with ⟨topLevel, same⟩
      cases same
      exact ⟨found, topLevel⟩
  | _ =>
      rw [isTask] at isGlobal
      cases isGlobal

/-- In a run that comes to its end, each variable of the top level is kept in a global of its own. -/
theorem global_storage_policy {options : Options} {module : Code.Module}
    (lowers : lowerProgram program options = .ok module)
    (numbered : Numbered (history program options)) :
    KeepsGlobals program (history program options) module := by
  rcases @history_stretch program False _ _ lowers nofun with ⟨declared, last, declares, stretch, rfl, _⟩
  have begins := settled_start declares
  have settled := stretch.path.settled begins
  rw [List.nil_append] at settled
  have orderly := (stretch.tidily numbered (sound_start declares)).orderly
  refine ⟨settled.houses.once, settled.houses.keys, fun index id decl isVar => ?_⟩
  rcases mem_declaredGlobals (List.mem_of_getElem? isVar) with ⟨found, topLevel⟩
  -- What is known of a step that declares the variable.
  have declares_ (event : Event) (member : event ∈ history program options)
      (isTask : event.task = .var id) : ∃ name, (Task.var id).Performs program name event.before
        event.after ∧ (⟨event.before.cursor.module.nextGlobal⟩ : GlobalId) = globalNumber index ∧
          globalNumber index ∉ event.before.cursor.module.globals.keys ∧
            event.before.Everywhere event.before.HasGlobalsOf := by
    rcases stretch.path.exists_of_mem member with ⟨name, early, late, splits, leads, performs, _⟩
    have before := leads.settled begins
    rw [isTask] at performs
    have once := settled.houses.once
    rw [splits] at once isVar
    have place := index_of_declared found topLevel isTask once isVar
    rcases performs.fresh_global found topLevel before.houses with ⟨number, isNew⟩
    rw [List.nil_append, ← place] at number isNew
    exact ⟨name, performs, number, isNew, before.code⟩
  refine ⟨(settled.houses.kept index id decl isVar).2, ?_, fun event member isTask => ?_,
    fun event member isTask stores => ?_⟩
  · rcases unstored_start declares (.global (globalNumber index)) with ⟨tidy, nothing⟩
    have counts : last.cursor.module.storesTo (.global (globalNumber index)) = declared.storesTo _ + _ :=
      (stretch.path.addsStores orderly numbered).count tidy
    rw [counts, nothing, Nat.zero_add, ← countP_declares_eq settled.houses.once found topLevel]
    refine countP_storesTo fun event member => ?_
    rcases stretch.path.exists_of_mem member with ⟨name, early, late, _, _, performs, goesOn⟩
    exact performs.storesTo_eq settled.houses isVar goesOn.retains found topLevel
  · rcases declares_ event member isTask with ⟨_, _, _, isNew, code⟩
    exact code.mono fun instruction has uses => isNew (has _ uses)
  · rcases declares_ event member isTask with ⟨name, performs, number, _, _⟩
    rcases performs.stores_initial found topLevel stores with ⟨value, has, adds⟩
    rw [number] at adds
    exact ⟨value, has, adds⟩

/-- A global that starts with the result of a call. The function that is called assigns to the global,
and goes on to do so behind its `return`. -/
def totalProgram : Program where
  filename := "total"
  items := [⟨0⟩, ⟨1⟩, ⟨2⟩]
  stmts := #[.varDecl [⟨0⟩, ⟨1⟩], .functionDecl ⟨0⟩, .expr ⟨2⟩, .compound [⟨4⟩, ⟨5⟩, ⟨6⟩], .expr ⟨5⟩,
    .returnValue (some ⟨8⟩), .expr ⟨9⟩]
  exprs := #[⟨.call "next" [], .integer⟩, ⟨.booleanLiteral true, .boolean⟩,
    ⟨.binary .assign ⟨3⟩ ⟨4⟩, .integer⟩, ⟨.identifier "total" ⟨0⟩, .integer⟩,
    ⟨.integerLiteral 3, .integer⟩, ⟨.binary .assign ⟨6⟩ ⟨7⟩, .integer⟩,
    ⟨.identifier "total" ⟨0⟩, .integer⟩, ⟨.integerLiteral 4, .integer⟩,
    ⟨.integerLiteral 1, .integer⟩, ⟨.binary .assign ⟨10⟩ ⟨11⟩, .integer⟩,
    ⟨.identifier "total" ⟨0⟩, .integer⟩, ⟨.integerLiteral 5, .integer⟩]
  vars := #[⟨"total", .integer, some ⟨0⟩, .topLevel, .ordinary⟩,
    ⟨"ready", .boolean, some ⟨1⟩, .topLevel, .ordinary⟩]
  functions := #[⟨"next", [], some .integer, ⟨3⟩⟩]

theorem total_accepted : (lowerProgram totalProgram .default).toBool = true ∧
    (∀ event ∈ history totalProgram .default, event.before.hasNumbers = true) ∧
    (declaredGlobals totalProgram (history totalProgram .default))[0]? =
      some (⟨0⟩, ⟨"total", .integer, some ⟨0⟩, .topLevel, .ordinary⟩) ∧
    (history totalProgram .default).countP (Event.assigns totalProgram ⟨0⟩) = 2 ∧
    ((history totalProgram .default).countP fun event =>
      event.task.assigned? totalProgram = some ⟨0⟩) = 3 ∧
    (history totalProgram .default).any (Event.declares ⟨0⟩) = true := by decide +kernel

/-- Of the three assignments two are counted, and the initial value is stored as well. -/
theorem total_stored_thrice : ∃ module, lowerProgram totalProgram .default = .ok module ∧
    Numbered (history totalProgram .default) ∧
    KeepsGlobals totalProgram (history totalProgram .default) module ∧
    module.storesTo (.global ⟨0⟩) = 3 := by
  rcases total_accepted with ⟨accepted, numbered, isFirst, assigned, _, declares⟩
  cases lowers : lowerProgram totalProgram .default with
  | error error =>
      rw [lowers] at accepted
      cases accepted
  | ok module =>
      have keeps := global_storage_policy lowers numbered
      have stores := (keeps.kept 0 _ _ isFirst).stores
      rw [assigned, declares] at stores
      exact ⟨module, rfl, numbered, keeps, stores⟩

end ScriptLowering.Lowering
