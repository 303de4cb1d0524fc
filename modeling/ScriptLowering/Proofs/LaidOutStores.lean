import Mathlib.Algebra.BigOperators.Group.List.Basic
import ScriptLowering.Proofs.FinishedHistory

/-! # Counting stores

The stores to an address in the blocks that are laid out are counted. A step that adds code changes
the count only if it stores to the address at a live cursor: what is parked is not counted, and a
block that is laid out later has no code in it yet.
-/

namespace ScriptLowering

/-! ## Sums over tables -/

theorem Table.sum_values_modify {κ α : Type} [DecidableEq κ] {table : Table κ α} {key : κ} {value : α}
    (found : table.get? key = some value) (change : α → α) (weight : α → Nat) :
    ((table.modify key change).values.map weight).sum + weight value =
      (table.values.map weight).sum + weight (change value) := by
  rcases List.append_of_mem (Table.get?_eq_some_iff.mp found) with ⟨before, behind, splits⟩
  have distinct := table.keysDistinct
  rw [splits, List.map_append, List.map_cons, List.nodup_append] at distinct
  rcases distinct with ⟨_, distinctBehind, apart⟩
  have same {entries : List (κ × α)} (away : ∀ entry ∈ entries, entry.1 ≠ key) :
      (entries.map fun entry => if entry.1 = key then (entry.1, change entry.2) else entry) =
        entries := by
    refine (List.map_congr_left fun entry member => ?_).trans (List.map_id _)
    exact if_neg (away entry member)
  have awayBefore (entry : κ × α) (member : entry ∈ before) : entry.1 ≠ key :=
    apart _ (List.mem_map_of_mem member) key List.mem_cons_self
  have awayBehind (entry : κ × α) (member : entry ∈ behind) : entry.1 ≠ key := fun equal =>
    (List.nodup_cons.mp distinctBehind).1 (List.mem_map.mpr ⟨entry, member, equal⟩)
  simp only [Table.values, Table.modify, splits, List.map_append, List.map_cons, same awayBefore,
    same awayBehind, if_true, List.sum_append, List.sum_cons]
  omega

theorem sum_map_raise {α : Type} [DecidableEq α] {items : List α} (distinct : items.Nodup)
    {item : α} {weight heavier : α → Nat} {more : Nat}
    (raised : heavier item = weight item + more)
    (others : ∀ other, other ≠ item → heavier other = weight other) :
    (items.map heavier).sum = (items.map weight).sum + if item ∈ items then more else 0 := by
  induction items with
  | nil => rfl
  | cons head tail induction =>
      rcases List.nodup_cons.mp distinct with ⟨fresh, distinct⟩
      simp only [List.map_cons, List.sum_cons, induction distinct]
      by_cases same : head = item
      · subst same
        rw [if_neg fresh, if_pos List.mem_cons_self, raised]
        omega
      · have membership : item ∈ head :: tail ↔ item ∈ tail := by simp [Ne.symm same]
        rw [others head same]
        simp only [membership]
        omega

end ScriptLowering

namespace ScriptLowering.Code

/-! ## Stores in a function -/

def Block.storesTo (block : Block) (address : Operand) : Nat :=
  block.instructions.countP fun instruction => instruction.storeTarget? = some address

/-- The number of stores to the address in the blocks that are laid out. -/
def Body.storesTo (body : Body) (address : Operand) : Nat :=
  (body.laidOut.flatMap Block.instructions).countP fun instruction =>
    instruction.storeTarget? = some address

/-- The number of stores to the address in the laid-out blocks of all functions. -/
def Module.storesTo (module : Module) (address : Operand) : Nat :=
  (module.functions.values.map fun function => function.body.storesTo address).sum

variable {address : Operand}

/-- The stores in the block that a body knows by the name. -/
def Body.storesIn (body : Body) (address : Operand) (id : BlockId) : Nat :=
  (body.block? id).elim 0 fun block => block.storesTo address

theorem Body.storesTo_eq (body : Body) (address : Operand) :
    body.storesTo address = (body.layout.map (body.storesIn address)).sum := by
  have counts (ids : List BlockId) : (((ids.filterMap body.block?).flatMap Block.instructions).countP
      fun instruction => instruction.storeTarget? = some address) =
        (ids.map (body.storesIn address)).sum := by
    induction ids with
    | nil => rfl
    | cons id ids induction =>
        rw [List.map_cons, List.sum_cons, ← induction, storesIn]
        cases found : body.block? id with
        | none => simp [found]
        | some block =>
            simp only [List.filterMap_cons, found, List.flatMap_cons, List.countP_append]
            rfl
  exact counts body.layout

/-- The layout has no repetitions, and `more` stores to the address come to what is laid out. -/
structure Place.AddsStores (address : Operand) (more : Nat) (place next : Place) : Prop where
  distinct : place.body.layout.Nodup → next.body.layout.Nodup
  count : place.body.layout.Nodup →
    next.body.storesTo address = place.body.storesTo address + more

namespace Place.AddsStores

variable {place middle next : Place} {more added count : Nat} {id : BlockId}

theorem trans (first : place.AddsStores address more middle)
    (second : middle.AddsStores address added next) :
    place.AddsStores address (more + added) next where
  distinct nodup := second.distinct (first.distinct nodup)
  count nodup := by rw [second.count (first.distinct nodup), first.count nodup, Nat.add_assoc]

theorem same (layout : next.body.layout = place.body.layout)
    (blocks : ∀ id ∈ place.body.layout,
      next.body.storesIn address id = place.body.storesIn address id) :
    place.AddsStores address 0 next where
  distinct nodup := by rw [layout]; exact nodup
  count _ := by
    rw [Body.storesTo_eq, Body.storesTo_eq, layout, List.map_congr_left blocks]
    rfl

theorem refl (place : Place) : place.AddsStores address 0 place := same rfl fun _ _ => rfl

theorem moveTo (place : Place) (block : Option BlockId) :
    place.AddsStores address 0 ⟨place.body, block⟩ := same rfl fun _ _ => rfl

theorem create (holds : place.body.Holds [] (count + 1)) (label : String) :
    place.AddsStores address 0 (place.create label) := by
  refine same rfl fun id member => ?_
  rw [Body.storesIn, Body.storesIn, block?_create, if_neg]
  rintro rfl
  exact holds.fresh_not_mem_layout member

theorem ready (holds : place.body.Holds [] (place.owed + count)) :
    place.AddsStores address 0 place.ready := by
  unfold Place.ready
  split
  · exact refl place
  · rename_i closed
    rw [owed, if_neg closed, Nat.add_comm] at holds
    exact (create holds _).trans (moveTo _ _)

theorem change (isOpen : place.isOpen = true) {change : Block → Block}
    (adds : ∀ block : Block, (change block).storesTo address = block.storesTo address + more) :
    place.AddsStores address (if place.isLive then more else 0) (place.change change) := by
  rcases exists_of_isOpen isOpen with ⟨here, block, stands, found, _⟩
  have live : place.isLive = true ↔ here ∈ place.body.layout := by
    simp only [isLive, stands, isOpen, Bool.true_and, Body.isLaidOut_iff]
  refine ⟨fun nodup => by rw [layout_change]; exact nodup, fun nodup => ?_⟩
  rw [Body.storesTo_eq, Body.storesTo_eq, layout_change]
  have raised : (place.change change).body.storesIn address here =
      place.body.storesIn address here + more := by
    rw [Body.storesIn, Body.storesIn, block?_change stands, if_pos rfl, found]
    exact adds block
  rw [sum_map_raise nodup raised fun other different => ?_]
  · simp only [live]
  · rw [Body.storesIn, Body.storesIn, block?_change stands, if_neg (Ne.symm different)]

theorem add (isOpen : place.isOpen = true) (instruction : Instruction) :
    place.AddsStores address
      (if place.isLive then if instruction.storeTarget? = some address then 1 else 0 else 0)
      (place.add instruction) := by
  refine change isOpen fun block => ?_
  simp [Block.storesTo, Block.addInstruction, List.countP_append, List.countP_cons]

theorem define (isOpen : place.isOpen = true) (ty : Ty) {make : Operand → Instruction}
    (noStore : ∀ result, (make result).storeTarget? = none) :
    place.AddsStores address 0 (place.define ty make) := by
  have takes : place.AddsStores address 0 (place.takeTemp ty) := same rfl fun _ _ => rfl
  have adds : (place.takeTemp ty).AddsStores address _ (place.define ty make) :=
    add ((Cursor.isOpen_takeTemp place ty).trans isOpen) _
  simp only [noStore, reduceCtorEq, if_false, ite_self] at adds
  exact takes.trans adds

theorem terminate (isOpen : place.isOpen = true) (terminator : Terminator) :
    place.AddsStores address 0 (place.terminate terminator) := by
  have changes : place.AddsStores address (if place.isLive then 0 else 0)
      (place.terminate terminator) := change isOpen fun _ => rfl
  rw [ite_self] at changes
  exact changes

theorem leaveTo (place : Place) (target : BlockId) :
    place.AddsStores address 0 (place.leaveTo target) := by
  unfold Place.leaveTo
  split
  · rename_i isOpen
    exact (terminate isOpen _).trans (moveTo _ _)
  · exact moveTo _ _

theorem discard (missing : id ∉ place.body.layout) :
    place.AddsStores address 0 (place.discard id) := by
  refine same rfl fun other member => ?_
  rw [Body.storesIn, Body.storesIn, block?_discard, if_neg]
  rintro rfl
  exact missing member

theorem pruned (place : Place) : place.AddsStores address 0 place.pruned :=
  same rfl fun _ member => by rw [Body.storesIn, Body.storesIn, Place.pruned, block?_prune_of_mem member]

theorem layOut {before behind : List BlockId} (splits : place.body.layout = before ++ behind)
    (missing : id ∉ place.body.layout) (blank : place.body.storesIn address id = 0) :
    place.AddsStores address 0 ⟨{ place.body with layout := before ++ id :: behind }, some id⟩ := by
  refine ⟨fun nodup => ?_, fun _ => ?_⟩
  · rw [splits] at nodup missing
    exact List.nodup_middle.mpr (List.nodup_cons.mpr ⟨missing, nodup⟩)
  · have parts : (Body.storesIn { place.body with layout := before ++ id :: behind } address) =
        place.body.storesIn address := rfl
    rw [Body.storesTo_eq, Body.storesTo_eq, parts, splits, List.map_append, List.map_cons,
      List.map_append, List.sum_append, List.sum_cons, List.sum_append, blank]
    omega

theorem storesIn_of_spares (spares : place.Spares id) : place.body.storesIn address id = 0 := by
  unfold Body.storesIn
  cases found : place.body.block? id with
  | none => rfl
  | some block =>
      rw [Option.elim_some, Block.storesTo, (spares.unused block found).1]
      rfl

theorem enter (enters : place.Enters id next) (spares : place.Spares id) :
    place.AddsStores address 0 next := by
  have leaves : place.AddsStores address 0 (place.leaveTo id) := leaveTo place id
  have layout := layout_leaveTo place id
  cases enters with
  | dropped missing => exact leaves.trans (discard (by rw [layout]; exact missing))
  | detached => exact leaves.trans (moveTo _ _)
  | laidOut missing _ splits =>
      refine leaves.trans (layOut (layout.trans splits) (by rw [layout]; exact missing) ?_)
      rw [Body.storesIn, block?_leaveTo_other id spares.away]
      exact storesIn_of_spares spares

theorem returnIfLive (place : Place) (value : Option Operand) :
    place.AddsStores address 0 (place.returnIfLive value) := by
  unfold Place.returnIfLive
  split
  · rename_i live
    exact terminate (Lowering.isOpen_of_isLive live) _
  · exact refl place

theorem storesIn_create (place : Place) (label : String) :
    (place.create label).body.storesIn address place.freshBlock = 0 := by
  rw [Body.storesIn, block?_create, if_pos rfl]
  rfl

theorem opened {body : Body} (holds : body.Holds [] (count + 1)) :
    (Place.mk body none).AddsStores address 0 (Place.mk body none).opened := by
  have creates : (Place.mk body none).AddsStores address 0 ((Place.mk body none).create "entry") :=
    create holds _
  exact creates.trans (layOut (List.append_nil _).symm holds.fresh_not_mem_layout
    (storesIn_create (Place.mk body none) "entry"))

end Place.AddsStores

/-! ## Adding code where the cursor stands -/

section Ready

variable {place : Place} {count : Nat}

theorem Place.Sound.isLive_ready (sound : place.Sound count) : place.ready.isLive = place.isLive := by
  unfold Place.ready
  split
  · rfl
  · rename_i closed
    have dead : place.isLive = false := by
      cases stands : place.block <;> simp [Place.isLive, stands, closed]
    have holds : place.body.Holds [] (count + 1) := by
      have here := sound.holds
      rwa [owed, if_neg closed, Nat.add_comm] at here
    rw [dead, ← Bool.not_eq_true]
    intro live
    have laidOut := (Bool.and_eq_true_iff.mp live).2
    exact holds.fresh_not_mem_layout (Body.isLaidOut_iff.mp laidOut)

/-- A store that is added at a live place is counted, and one that is added elsewhere is not. -/
theorem Place.AddsStores.readyAdd (sound : place.Sound count) (instruction : Instruction) :
    place.AddsStores address
      (if place.isLive then if instruction.storeTarget? = some address then 1 else 0 else 0)
      (place.ready.add instruction) := by
  have adds : place.AddsStores address (0 + _) (place.ready.add instruction) :=
    (Place.AddsStores.ready sound.holds).trans (.add (Lowering.isOpen_ready place) instruction)
  rw [sound.isLive_ready, Nat.zero_add] at adds
  exact adds

theorem Place.AddsStores.readyAddOther (sound : place.Sound count) {instruction : Instruction}
    (other : instruction.storeTarget? ≠ some address) :
    place.AddsStores address 0 (place.ready.add instruction) := by
  have adds : place.AddsStores address _ (place.ready.add instruction) := .readyAdd sound instruction
  rw [if_neg other, ite_self] at adds
  exact adds

theorem Place.AddsStores.readyDefine (sound : place.Sound count) (ty : Ty)
    {make : Operand → Instruction} (noStore : ∀ result, (make result).storeTarget? = none) :
    place.AddsStores address 0 (place.ready.define ty make) :=
  (Place.AddsStores.ready sound.holds).trans (.define (Lowering.isOpen_ready place) ty noStore)

theorem Place.AddsStores.readyTerminate (sound : place.Sound count) (terminator : Terminator) :
    place.AddsStores address 0 (place.ready.terminate terminator) :=
  (Place.AddsStores.ready sound.holds).trans (.terminate (Lowering.isOpen_ready place) terminator)

end Ready

end ScriptLowering.Code

namespace ScriptLowering.Lowering

open Source (Program ExprId ExprNode StmtId VarDecl VarId)
open Code (BlockId Operand Place)

variable {program : Program}

/-! ## Stores that a step adds -/

/-- The variable that an expression assigns to. -/
def assignedVar? (program : Program) : ExprNode → Option VarId
  | .binary .assign left _ =>
      match (program.expr? left).map Source.Expr.node with
      | some (.identifier _ decl) => some decl
      | _ => none
  | _ => none

/-- Whether the initial value of a global is stored where its declaration stands. -/
def storesInitial (program : Program) (decl : VarDecl) : Bool :=
  decl.initial.isSome && (decl.ty = .string || !isLiteralInitial program decl)

/-- The variable that a step assigns to. -/
def Task.assigned? (program : Program) : Task → Option VarId
  | .expr id => (program.expr? id).bind fun expr => assignedVar? program expr.node
  | _ => none

/-- The address that a step stores to, unless it is a slot of the function. -/
def Task.target? (program : Program) (session : Session) : Task → Option Operand
  | .expr id => ((Task.expr id).assigned? program).bind session.annotations.storage.get?
  | .var id => (program.var? id).bind fun decl =>
      if decl.scope = .topLevel ∧ storesInitial program decl = true then
        some (.global ⟨session.cursor.module.nextGlobal⟩)
      else none
  | _ => none

/-- At the cursor of the session, the step adds a store to the address to what is laid out. -/
def Event.storesTo (program : Program) (address : Operand) (event : Event) : Bool :=
  event.before.cursor.isLive && event.task.target? program event.before = some address

def Session.LaysOutOnce (session : Session) : Prop :=
  ∀ name function, session.cursor.module.function? name = some function →
    function.body.layout.Nodup

/-- As for places, in all functions of the module. -/
structure Session.AddsStores (address : Operand) (more : Nat) (session next : Session) : Prop where
  once : session.LaysOutOnce → next.LaysOutOnce
  count : session.LaysOutOnce →
    next.cursor.module.storesTo address = session.cursor.module.storesTo address + more

namespace Session.AddsStores

variable {address : Operand} {name : String} {place next : Place} {more : Nat}
  {session middle final : Session}

theorem refl (session : Session) : session.AddsStores address 0 session := ⟨id, fun _ => rfl⟩

theorem trans {added : Nat} (first : session.AddsStores address more middle)
    (second : middle.AddsStores address added final) :
    session.AddsStores address (more + added) final where
  once tidy := second.once (first.once tidy)
  count tidy := by rw [second.count (first.once tidy), first.count tidy, Nat.add_assoc]

theorem same (functions : middle.cursor.module.functions = session.cursor.module.functions) :
    session.AddsStores address 0 middle where
  once tidy other function found := by
    rw [Code.Module.function?, functions] at found
    exact tidy other function found
  count tidy := by
    rw [Code.Module.storesTo, functions]
    rfl

theorem congr (adds : session.AddsStores address more middle)
    (functions : final.cursor.module.functions = middle.cursor.module.functions) :
    session.AddsStores address more final :=
  adds.trans (same functions)

theorem put (builds : session.Builds name place) (adds : place.AddsStores address more next) :
    session.AddsStores address more (session.put name next) := by
  rcases builds.body with ⟨function, found, same⟩
  refine ⟨fun tidy other after foundAfter => ?_, fun tidy => ?_⟩
  · rw [Session.function?_put] at foundAfter
    split at foundAfter
    · rcases Option.map_eq_some_iff.mp foundAfter with ⟨_, _, rfl⟩
      exact adds.distinct (same ▸ tidy name function found)
    · exact tidy other after foundAfter
  · have sums := Table.sum_values_modify found
      (fun function => { function with body := next.body })
      fun function => function.body.storesTo address
    have counts := adds.count (same ▸ tidy name function found)
    simp only [same] at sums
    change _ + _ = session.cursor.module.storesTo address + next.body.storesTo address at sums
    change (((session.cursor.module.functions.modify name _).values).map _).sum = _
    omega

theorem start {function : Code.Function} (found : session.cursor.module.function? name = some function)
    {count : Nat} (holds : function.body.Holds [] (count + 1)) :
    session.AddsStores address 0 (session.put name (Place.mk function.body none).opened) := by
  let moved : Session :=
    { session with cursor := session.cursor.setPosition (.inFunction name) }
  have builds : moved.Builds name ⟨function.body, none⟩ := ⟨rfl, function, found, rfl⟩
  have opens : (Place.mk function.body none).AddsStores address 0 _ := .opened holds
  have puts := put builds opens
  exact ⟨puts.once, puts.count⟩

end Session.AddsStores

section Steps

variable {name : String} {place next : Place} {session after first last : Session} {global : Code.GlobalId}

theorem assignedVar?_eq_none {op : Source.BinaryOp} {left right : ExprId} {ty : Source.Ty}
    {operation : Operation} (means : operation? op ty = some operation) :
    assignedVar? program (.binary op left right) = none := by
  cases op <;> first | rfl | simp [operation?] at means

/-- Of the code of an expression, only that of an assignment stores, and it stores to the variable. -/
theorem Emits.addsStores {final : Session} {node : ExprNode} {values : List Operand}
    {value : Option Operand} {count : Nat}
    (emits : Emits program final node values place value next) (sound : place.Sound count) :
    place.AddsStores (.global global)
      (if place.isLive ∧ (assignedVar? program node).bind final.annotations.storage.get? =
        some (.global global) then 1 else 0) next := by
  have silent (added : place.AddsStores (.global global) 0 next)
      (nothing : assignedVar? program node = none) : place.AddsStores (.global global)
        (if place.isLive ∧ (assignedVar? program node).bind final.annotations.storage.get? =
          some (.global global) then 1 else 0) next := by
    rw [nothing, if_neg fun both => by cases both.2]
    exact added
  cases emits with
  | booleanLiteral | integerLiteral => exact silent (.refl place) rfl
  | stringLiteral | identifier | callValue | negate =>
      exact silent (.readyDefine sound _ fun _ => rfl) rfl
  | arith _ means | compare _ means | concat _ means =>
      exact silent (.readyDefine sound _ fun _ => rfl) (assignedVar?_eq_none means)
  | callNothing => exact silent (.readyAddOther sound nofun) rfl
  | @assign left right target _ decl value address _ found isIdentifier stored =>
      have isTarget : assignedVar? program (.binary .assign left right) = some decl := by
        simp only [assignedVar?, found, Option.map_some, isIdentifier]
      rw [isTarget, Option.bind_some, Annotations.storageOf_eq_ok.mp stored, ite_and]
      exact .readyAdd sound (.store address value)
  | @compareStrings _ _ _ _ _ left right _ _ _ means compares =>
      subst compares
      refine silent ?_ (assignedVar?_eq_none means)
      have ready := sound.ready.define (isOpen_ready place) StringLibrary.orderingType
        fun result => .call (some result) StringLibrary.equals [left, right]
      exact (Place.AddsStores.readyDefine sound _ fun _ => rfl).trans
        (.readyDefine ready _ fun _ => rfl)

theorem addsStores_fillSlot {count : Nat} (sound : place.Sound count) (ty : Source.Ty)
    (value : Option Operand) :
    place.AddsStores (.global global) 0 (fillSlot ty value place) := by
  have slotted : place.AddsStores (.global global) 0 (fillSlot ty none place) :=
    Place.AddsStores.readyDefine sound .ptr (fun _ => rfl :
      ∀ result, (Code.Instruction.alloca result (codeType ty) (alignment ty)).storeTarget? = none)
  cases value with
  | none => exact slotted
  | some value =>
      have soundSlotted := sound.ready.define (isOpen_ready place) .ptr
        fun result => .alloca result (codeType ty) (alignment ty)
      exact slotted.trans (.readyAddOther soundSlotted fun same => by cases same)

theorem addsStores_storeInitial {count : Nat} (sound : place.Sound count) {decl : VarDecl}
    {value : Option Operand} (has : session.HasInitial decl value) (other : Code.GlobalId) :
    place.AddsStores (.global global)
      (if place.isLive ∧ storesInitial program decl = true ∧ other = global then 1 else 0)
      (storeInitial program decl (.global other) value place) := by
  have given : decl.initial.isSome = value.isSome := by
    have lengths := congrArg List.length has
    cases initial : decl.initial <;> cases value <;> simp [initial] at lengths ⊢
  have needed : storesInitial program decl = true ↔
      value.isSome = true ∧ (decl.ty = .string ∨ ¬ isLiteralInitial program decl = true) := by
    simp [storesInitial, given]
  unfold storeInitial
  cases value with
  | none =>
      rw [if_neg fun all => by cases (needed.mp all.2.1).1]
      exact .refl place
  | some value =>
      by_cases stores : decl.ty = .string ∨ ¬ isLiteralInitial program decl = true
      · simp only [if_pos stores, needed.mpr ⟨rfl, stores⟩, true_and, ite_and]
        have adds : place.AddsStores (.global global) _
            (place.ready.add (.store (.global other) value)) := .readyAdd sound _
        simpa only [Code.Instruction.storeTarget?, Option.some.injEq, Operand.global.injEq] using adds
      · simp only [if_neg stores]
        rw [if_neg fun all => stores (needed.mp all.2.1).2]
        exact .refl place

/-- A step changes the count of stores to a global if it stores to the global at a live cursor. -/
theorem Task.Performs.addsStores {task : Task} (performs : task.Performs program name session after)
    (sound : session.Sound 16)
    (prepared : ∀ id block closing, task = .enter id block closing → session.Spares name block) :
    session.AddsStores (.global global)
      (if Event.storesTo program (.global global) ⟨task, session, after⟩ then 1 else 0) after := by
  -- Only the code of an expression and the declaration of a variable store to a global.
  have silent (nothing : task.target? program session = none)
      (adds : session.AddsStores (.global global) 0 after) : session.AddsStores (.global global)
        (if Event.storesTo program (.global global) ⟨task, session, after⟩ then 1 else 0) after := by
    rw [if_neg (by simp [Event.storesTo, nothing])]
    exact adds
  cases performs with
  | start found =>
      have holds := (sound name _ (Option.map_eq_some_iff.mpr ⟨_, found, rfl⟩)).holds
      exact silent rfl (.start found (holds.mono (by omega : 15 + 1 ≤ _)))
  | param _ builds =>
      exact silent rfl ((Session.AddsStores.put builds
        (addsStores_fillSlot (builds.sound sound) _ _)).congr rfl)
  | @expr id expr value _ mid _ found emits records =>
      cases emits with
      | @intro place next values builds operands emits puts =>
          have learnt : mid.annotations = session.annotations := by
            rw [puts]
            cases expr.node <;> rfl
          have prepares : (session.prepare expr.node).cursor.module.functions =
              session.cursor.module.functions := by
            cases expr.node <;> rfl
          have adds : place.AddsStores (.global global) _ next := emits.addsStores (builds.sound sound)
          have same := (Session.AddsStores.same prepares).trans
            (Session.AddsStores.put (builds.prepare expr.node) adds)
          rw [← puts, Nat.zero_add] at same
          have keeps : after.cursor.module.functions = mid.cursor.module.functions := by
            rw [(recordValue_eq_ok records).1]
          simp only [Event.storesTo, Task.target?, Task.assigned?, found, Option.bind_some, builds.isLive,
            Bool.and_eq_true, decide_eq_true_eq, ← learnt]
          exact same.congr keeps
  | @global id decl value initial _ place _ found _ topLevel has _ builds =>
      have adds : place.AddsStores (.global global) _ (storeInitial program decl _ value place) :=
        addsStores_storeInitial (builds.sound sound) has ⟨session.cursor.module.nextGlobal⟩
      have same : session.AddsStores (.global global) 0 (session.addGlobal decl initial) := .same rfl
      have puts := (same.trans (Session.AddsStores.put (builds.addGlobal decl initial) adds))
      rw [Nat.zero_add] at puts
      simp only [Event.storesTo, Task.target?, found, topLevel, Option.bind_some, builds.isLive,
        Bool.and_eq_true, decide_eq_true_eq, true_and, Option.ite_none_right_eq_some,
        Option.some.injEq, Operand.global.injEq]
      exact puts.congr rfl
  | slot found _ isLocal _ builds =>
      refine silent ?_ ((Session.AddsStores.put builds
        (addsStores_fillSlot (builds.sound sound) _ _)).congr rfl)
      simp only [Task.target?, found, Option.bind_some, isLocal, reduceCtorEq, false_and, if_false]
  | create builds => exact silent rfl (.put builds (.create (builds.sound sound).holds _))
  | loop => exact silent rfl (.same rfl)
  | test builds | jump builds =>
      exact silent rfl (.put builds (.readyTerminate (builds.sound sound) _))
  | enter builds enters =>
      rcases prepared _ _ _ rfl with ⟨place, found, spares⟩
      rw [builds.placeIn?] at found
      cases found
      exact silent rfl (.put builds (.enter (Code.Place.enters_of_tryEnter enters) spares))
  | leave builds => exact silent rfl (.put builds (.leaveTo _ _))
  | returnIfLive builds => exact silent rfl (.put builds (.returnIfLive _ _))
  | finish builds => exact silent rfl (.put builds (.pruned _))
  | resume | come => exact silent rfl (.same rfl)

/-- In the course of a run, the stores at live cursors are counted. -/
theorem Path.addsStores {events : List Event} (path : Path program first events last)
    (orderly : ∀ event ∈ events, event.Orderly program) (numbered : Numbered events) :
    first.AddsStores (.global global) (events.countP (Event.storesTo program (.global global)))
      last := by
  induction path with
  | nil => exact .refl _
  | @cons name event events last performs _ induction =>
      have isOrderly := orderly event List.mem_cons_self
      have step : event.before.AddsStores (.global global) _ event.after := performs.addsStores
        (isOrderly.sound.refill (numbered event List.mem_cons_self)) (performs.spares isOrderly)
      have rest := induction (fun other member => orderly other (List.mem_cons_of_mem _ member))
        fun other member => numbered other (List.mem_cons_of_mem _ member)
      rw [List.countP_cons, Nat.add_comm]
      exact step.trans rest

end Steps

end ScriptLowering.Lowering
