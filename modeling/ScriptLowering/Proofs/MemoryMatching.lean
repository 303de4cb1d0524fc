import ScriptLowering.Proofs.FollowedEvaluation
import ScriptLowering.Proofs.Resolution
import ScriptLowering.Proofs.MachineAtPlace

/-! # Variables in memory

A variable of the top level is a global of the module, and a local variable is the slot that its
declaration has reserved last. A store and the memory of the machine match if every variable that
can be seen holds the same in both.
-/

namespace ScriptLowering.Lowering

open Source (Program VarId VarDecl Datum Store)
open Code (Frame GlobalId Module Operand State TempId Value)

/-! ## Where variables are kept -/

/-- The variables of the top level that have storage are different globals of the right types. -/
structure GlobalsPlaced (program : Program) (final : Session) : Prop where
  become : ∀ id decl address, program.var? id = some decl → decl.scope = .topLevel →
    final.annotations.storageOf id = .ok address → ∃ global entry, address = .global global ∧
      final.cursor.module.global? global = some entry ∧ entry.ty = codeType decl.ty
  distinct : ∀ id other decl otherDecl global, program.var? id = some decl →
    decl.scope = .topLevel → program.var? other = some otherDecl → otherDecl.scope = .topLevel →
    final.annotations.storageOf id = .ok (.global global) →
    final.annotations.storageOf other = .ok (.global global) → id = other

variable (program : Program) (final : Session)

def GlobalsMatch (store : VarId → Datum) (globals : GlobalId → Option Value) : Prop :=
  ∀ id decl global, program.var? id = some decl → decl.scope = .topLevel →
    final.annotations.storageOf id = .ok (.global global) →
      globals global = some (store id).value ∧ (store id).hasType decl.ty = true

/-- The local variable is the slot `index` of the frame. -/
structure LocalMatches (store : Store) (frame : Frame) (bound : Nat) (id : VarId) (index : Nat)
    (decl : VarDecl) (temp : TempId) (datum : Datum) : Prop where
  found : program.var? id = some decl
  isLocal : decl.scope = .local
  stored : final.annotations.storageOf id = .ok (.temp temp)
  below : temp.number.toNat < bound
  address : frame.temps temp = some (.address (.slot frame.serial index))
  slot : frame.slots[index]? = some ⟨codeType decl.ty, datum.value⟩
  holds : store.locals id = some datum
  typed : datum.hasType decl.ty = true

/-- The store matches the memory at a place with `bound` temps, as far as `locals` and the
variables of the top level are concerned. -/
structure Matches (locals : List VarId) (bound : Nat) (store : Store) (frame : Frame)
    (globals : GlobalId → Option Value) : Prop where
  globals : GlobalsMatch program final store.globals globals
  slots : ∃ slotOf : VarId → Nat,
    (∀ id ∈ locals, ∃ decl temp datum,
      LocalMatches program final store frame bound id (slotOf id) decl temp datum) ∧
    ∀ id ∈ locals, ∀ other ∈ locals, slotOf id = slotOf other → id = other

/-- Only temps from `bound` on, the slots and the position of the frame have changed. -/
structure Continues (bound : Nat) (frame next : Frame) : Prop where
  serial : next.serial = frame.serial
  function : next.function = frame.function
  args : next.args = frame.args
  temps : ∀ temp : TempId, temp.number.toNat < bound → next.temps temp = frame.temps temp

namespace Continues

variable {bound : Nat} {first second third : Frame}

theorem refl (bound : Nat) (frame : Frame) : Continues bound frame frame :=
  ⟨rfl, rfl, rfl, fun _ _ => rfl⟩

theorem trans {more : Nat} (left : Continues bound first second)
    (right : Continues more second third) (less : bound ≤ more) : Continues bound first third where
  serial := right.serial.trans left.serial
  function := right.function.trans left.function
  args := right.args.trans left.args
  temps := fun temp below =>
    (right.temps temp (Nat.lt_of_lt_of_le below less)).trans (left.temps temp below)

theorem jump (bound : Nat) (frame : Frame) (target : Code.BlockId) :
    Continues bound frame (frame.jump target) :=
  ⟨rfl, rfl, rfl, fun _ _ => rfl⟩

theorem advance (frame : Frame) {result : Option Operand} (value : Value)
    (fresh : ∀ temp, result = some (.temp temp) → bound ≤ temp.number.toNat) :
    Continues bound frame (frame.advance result value) where
  serial := rfl
  function := rfl
  args := rfl
  temps := by
    intro temp below
    simp only [Frame.advance]
    split
    · rename_i other
      have above := fresh other rfl
      rw [if_neg]
      intro same
      subst same
      omega
    · rfl

end Continues

/-- The operand stands for the datum, and will do so as long as the temps below `bound` stay. -/
structure Denotes (module : Module) (frame : Frame) (bound : Nat) (operand : Operand)
    (datum : Datum) : Prop where
  value : frame.operand module operand = .ok datum.value
  below : ∀ temp, operand = .temp temp → temp.number.toNat < bound

theorem Denotes.later {module : Module} {frame next : Frame} {bound more : Nat}
    {operand : Operand} {datum : Datum} (denotes : Denotes module frame bound operand datum)
    (continues : Continues bound frame next) (less : bound ≤ more) :
    Denotes module next more operand datum where
  value := by
    rw [← denotes.value]
    cases operand with
    | temp temp => simp only [Frame.operand, continues.temps temp (denotes.below temp rfl)]
    | param param => simp only [Frame.operand, continues.args]
    | global | data | constant => rfl
  below := fun temp same => Nat.lt_of_lt_of_le (denotes.below temp same) less

theorem Denotes.constant {module : Module} {frame : Frame} {bound : Nat}
    {constant : Code.Constant} {datum : Datum} (same : Value.ofConstant constant = datum.value) :
    Denotes module frame bound (.constant constant) datum :=
  ⟨congrArg Except.ok same, fun _ isTemp => by cases isTemp⟩

namespace Matches

variable {program : Program} {final : Session} {locals : List VarId} {bound : Nat} {store : Store}
  {frame : Frame} {globals : GlobalId → Option Value}

theorem mono (agrees : Matches program final locals bound store frame globals)
    {fewer : List VarId} {more : Nat} (fewerLocals : ∀ id ∈ fewer, id ∈ locals)
    (less : bound ≤ more) : Matches program final fewer more store frame globals where
  globals := agrees.globals
  slots := by
    rcases agrees.slots with ⟨slotOf, holds, distinct⟩
    refine ⟨slotOf, ?_, ?_⟩
    · intro id member
      rcases holds id (fewerLocals id member) with ⟨decl, temp, datum, matched⟩
      exact ⟨decl, temp, datum, { matched with below := Nat.lt_of_lt_of_le matched.below less }⟩
    · intro id member other otherMember
      exact distinct id (fewerLocals id member) other (fewerLocals other otherMember)

/-- Going on in the same function does not touch its variables as long as the slots stay. -/
theorem continues (agrees : Matches program final locals bound store frame globals)
    {next : Frame} (continues : Continues bound frame next)
    (slots : ∀ (index : Nat) slot, frame.slots[index]? = some slot → next.slots[index]? = some slot) :
    Matches program final locals bound store next globals where
  globals := agrees.globals
  slots := by
    rcases agrees.slots with ⟨slotOf, holds, distinct⟩
    refine ⟨slotOf, ?_, distinct⟩
    intro id member
    rcases holds id member with ⟨decl, temp, datum, matched⟩
    exact ⟨decl, temp, datum, { matched with
      address := by rw [continues.temps temp matched.below, continues.serial]; exact matched.address
      slot := slots _ _ matched.slot }⟩

theorem advance (agrees : Matches program final locals bound store frame globals)
    {result : Option Operand} (value : Value)
    (fresh : ∀ temp, result = some (.temp temp) → bound ≤ temp.number.toNat) :
    Matches program final locals bound store (frame.advance result value) globals :=
  agrees.continues (.advance frame value fresh) fun _ _ => id

theorem jump (agrees : Matches program final locals bound store frame globals)
    (target : Code.BlockId) :
    Matches program final locals bound store (frame.jump target) globals :=
  agrees.continues (.jump bound frame target) fun _ _ => id

theorem called (agrees : Matches program final locals bound store frame globals) {after : Store}
    {memory : GlobalId → Option Value} (same : after.locals = store.locals)
    (others : GlobalsMatch program final after.globals memory) :
    Matches program final locals bound after frame memory where
  globals := others
  slots := by
    rcases agrees.slots with ⟨slotOf, holds, distinct⟩
    refine ⟨slotOf, ?_, distinct⟩
    intro id member
    rcases holds id member with ⟨decl, temp, datum, matched⟩
    exact ⟨decl, temp, datum, { matched with holds := by rw [same]; exact matched.holds }⟩

/-! ## Reading -/

theorem read (agrees : Matches program final locals bound store frame globals)
    (placed : GlobalsPlaced program final) {id : VarId} {decl : VarDecl} {address : Operand}
    (found : program.var? id = some decl) (visible : InScope program locals id)
    (stored : final.annotations.storageOf id = .ok address) :
    ∃ target datum, frame.operand final.cursor.module address = .ok target ∧
      (∀ (callers : List Frame) (serial : Nat),
        State.read final.cursor.module ⟨frame :: callers, globals, serial⟩ target =
          .ok (codeType decl.ty, datum.value)) ∧
      Source.readVar program id store = .ok (datum, store) ∧ datum.hasType decl.ty = true := by
  rcases visible with member | ⟨other, otherFound, topLevel⟩
  · rcases agrees.slots with ⟨slotOf, holds, _⟩
    rcases holds id member with ⟨other, temp, datum, matched⟩
    have same := matched.found
    rw [found] at same
    cases same
    have sameAddress := matched.stored
    rw [stored] at sameAddress
    cases sameAddress
    refine ⟨.address (.slot frame.serial (slotOf id)), datum, ?_, ?_, ?_, matched.typed⟩
    · simp only [Frame.operand, matched.address]
    · intro callers serial
      simp [State.read, matched.slot]
    · exact Source.readVar_local program found matched.isLocal matched.holds
  · rw [found] at otherFound
    cases otherFound
    rcases placed.become id decl address found topLevel stored with
      ⟨global, entry, rfl, known, isType⟩
    rcases agrees.globals id decl global found topLevel stored with ⟨holds, typed⟩
    refine ⟨.address (.global global), store.globals id, ?_, ?_, ?_, typed⟩
    · have contains : final.cursor.module.globals.contains global = true := by
        simp only [Module.global?] at known
        simp [Table.contains, known]
      simp [Frame.operand, contains]
    · intro callers serial
      simp only [State.read, known, holds, isType]
    · exact Source.readVar_topLevel program found topLevel store

/-! ## Writing -/

theorem setGlobal (agrees : Matches program final locals bound store frame globals)
    (placed : GlobalsPlaced program final) {id : VarId} {decl : VarDecl} {global : GlobalId}
    (found : program.var? id = some decl) (topLevel : decl.scope = .topLevel)
    (stored : final.annotations.storageOf id = .ok (.global global)) {datum : Datum}
    (typed : datum.hasType decl.ty = true) :
    Matches program final locals bound (store.setGlobal id datum) frame
      fun other => if global = other then some datum.value else globals other where
  globals := by
    intro other otherDecl otherGlobal otherFound otherTopLevel otherStored
    by_cases same : id = other
    · subst same
      rw [found] at otherFound
      cases otherFound
      rw [stored] at otherStored
      cases otherStored
      simp [Store.setGlobal, typed]
    · have different : global ≠ otherGlobal := by
        intro equal
        subst equal
        exact same (placed.distinct id other decl otherDecl global found topLevel otherFound
          otherTopLevel stored otherStored)
      simp only [Store.setGlobal, if_neg same, if_neg different]
      exact agrees.globals other otherDecl otherGlobal otherFound otherTopLevel otherStored
  slots := by
    rcases agrees.slots with ⟨slotOf, holds, distinct⟩
    refine ⟨slotOf, ?_, distinct⟩
    intro other member
    rcases holds other member with ⟨otherDecl, temp, otherDatum, matched⟩
    exact ⟨otherDecl, temp, otherDatum, { matched with holds := matched.holds }⟩

theorem setLocal {slotOf : VarId → Nat}
    (agrees : GlobalsMatch program final store.globals globals)
    (slots : ∀ id ∈ locals, ∃ decl temp datum,
      LocalMatches program final store frame bound id (slotOf id) decl temp datum)
    (distinct : ∀ id ∈ locals, ∀ other ∈ locals, slotOf id = slotOf other → id = other)
    {id : VarId} (member : id ∈ locals) {decl : VarDecl} (found : program.var? id = some decl)
    {datum : Datum} (typed : datum.hasType decl.ty = true) :
    Matches program final locals bound (store.setLocal id datum)
      (frame.setSlot (slotOf id) datum.value) globals where
  globals := agrees
  slots := by
    refine ⟨slotOf, ?_, distinct⟩
    intro other otherMember
    rcases slots other otherMember with ⟨otherDecl, temp, otherDatum, matched⟩
    by_cases same : id = other
    · subst same
      have sameDecl := matched.found
      rw [found] at sameDecl
      cases sameDecl
      exact ⟨decl, temp, datum, { matched with
        slot := by simp [Frame.setSlot, matched.slot]
        holds := by simp [Store.setLocal]
        typed := typed }⟩
    · have different : slotOf id ≠ slotOf other :=
        fun equal => same (distinct id member other otherMember equal)
      exact ⟨otherDecl, temp, otherDatum, { matched with
        slot := by simp [Frame.setSlot, different, matched.slot]
        holds := by simp [Store.setLocal, same, matched.holds] }⟩

theorem write (agrees : Matches program final locals bound store frame globals)
    (placed : GlobalsPlaced program final) {id : VarId} {decl : VarDecl} {address : Operand}
    (found : program.var? id = some decl) (visible : InScope program locals id)
    (stored : final.annotations.storageOf id = .ok address) {datum : Datum}
    (typed : datum.hasType decl.ty = true) :
    ∃ target next memory written, frame.operand final.cursor.module address = .ok target ∧
      (∀ (callers : List Frame) (serial : Nat), ∃ content,
        State.read final.cursor.module ⟨frame :: callers, globals, serial⟩ target =
          .ok (codeType decl.ty, content)) ∧
      (∀ (callers : List Frame) (serial : Nat),
        State.write ⟨frame.advance none .void :: callers, globals, serial⟩ target datum.value =
          ⟨next :: callers, memory, serial⟩) ∧
      Source.writeVar program id datum store = .ok ((), written) ∧
      Matches program final locals bound written next memory ∧ Continues bound frame next ∧
      next.block = frame.block ∧ next.index = frame.index + 1 := by
  rcases agrees.read placed found visible stored with ⟨target, old, operand, reads, _, _⟩
  have advanced : Matches program final locals bound store (frame.advance none .void) globals :=
    agrees.advance .void fun _ absurd => by cases absurd
  rcases visible with member | ⟨other, otherFound, topLevel⟩
  · rcases advanced.slots with ⟨slotOf, holds, distinct⟩
    rcases holds id member with ⟨other, temp, datum', matched⟩
    have same := matched.found
    rw [found] at same
    cases same
    have sameAddress := matched.stored
    rw [stored] at sameAddress
    cases sameAddress
    have isTarget : target = .address (.slot frame.serial (slotOf id)) := by
      have address : frame.temps temp = some (.address (.slot frame.serial (slotOf id))) :=
        matched.address
      exact Option.some.inj ((Frame.operand_temp_eq_ok.mp operand).symm.trans address)
    subst isTarget
    refine ⟨_, (frame.advance none .void).setSlot (slotOf id) datum.value, globals,
      store.setLocal id datum, operand, ?_, ?_,
      Source.writeVar_local program found matched.isLocal datum store,
      setLocal agrees.globals holds distinct member found typed, ⟨rfl, rfl, rfl, fun _ _ => rfl⟩,
      rfl, rfl⟩
    · intro callers serial
      exact ⟨_, reads callers serial⟩
    · intro callers serial
      simp [State.write, State.writeSlot, Frame.advance]
  · rw [found] at otherFound
    cases otherFound
    rcases placed.become id decl address found topLevel stored with ⟨global, entry, rfl, known, _⟩
    rcases Frame.operand_global_eq_ok.mp operand with ⟨_, rfl⟩
    refine ⟨_, frame.advance none .void,
      fun other => if global = other then some datum.value else globals other,
      store.setGlobal id datum, operand, ?_, ?_,
      Source.writeVar_topLevel program found topLevel datum store,
      advanced.setGlobal placed found topLevel stored typed, ⟨rfl, rfl, rfl, fun _ _ => rfl⟩, rfl,
      rfl⟩
    · intro callers serial
      exact ⟨_, reads callers serial⟩
    · intro callers serial
      rfl

theorem reserve (agrees : Matches program final locals bound store frame globals) {id : VarId}
    {decl : VarDecl} (found : program.var? id = some decl) (isLocal : decl.scope = .local)
    {temp : TempId} (stored : final.annotations.storageOf id = .ok (.temp temp))
    (fresh : bound ≤ temp.number.toNat) {datum : Datum} (typed : datum.hasType decl.ty = true)
    {more : Nat} (below : temp.number.toNat < more) :
    Matches program final (id :: locals) more (store.setLocal id datum)
      (frame.reserve (.temp temp) (codeType decl.ty) datum.value) globals where
  globals := agrees.globals
  slots := by
    rcases agrees.slots with ⟨slotOf, holds, distinct⟩
    have old : ∀ other ∈ locals, slotOf other < frame.slots.length := by
      intro other member
      rcases holds other member with ⟨_, _, _, matched⟩
      exact (List.getElem?_eq_some_iff.mp matched.slot).1
    refine ⟨fun other => if id = other then frame.slots.length else slotOf other, ?_, ?_⟩
    · intro other member
      by_cases same : id = other
      · subst same
        refine ⟨decl, temp, datum, found, isLocal, stored, below, ?_, ?_, ?_, typed⟩
        · simp [Frame.reserve, Frame.advance]
        · simp [Frame.reserve]
        · simp [Store.setLocal]
      · have oldMember : other ∈ locals :=
          (List.mem_cons.mp member).resolve_left fun equal => same equal.symm
        rcases holds other oldMember with ⟨otherDecl, otherTemp, otherDatum, matched⟩
        have different : temp ≠ otherTemp := by
          intro equal
          have := matched.below
          rw [← equal] at this
          omega
        refine ⟨otherDecl, otherTemp, otherDatum, matched.found, matched.isLocal, matched.stored,
          ?_, ?_, ?_, ?_, matched.typed⟩
        · have := matched.below
          omega
        · simp [Frame.reserve, Frame.advance, different, same, matched.address]
        · simp only [Frame.reserve, if_neg same]
          rw [List.getElem?_append_left (old other oldMember)]
          exact matched.slot
        · simp [Store.setLocal, same, matched.holds]
    · intro first firstMember second secondMember equal
      by_cases isFirst : id = first
      · by_cases isSecond : id = second
        · exact isFirst.symm.trans isSecond
        · have member : second ∈ locals :=
            (List.mem_cons.mp secondMember).resolve_left fun same => isSecond same.symm
          have := old second member
          simp only [if_pos isFirst, if_neg isSecond] at equal
          omega
      · have member : first ∈ locals :=
          (List.mem_cons.mp firstMember).resolve_left fun same => isFirst same.symm
        by_cases isSecond : id = second
        · have := old first member
          simp only [if_neg isFirst, if_pos isSecond] at equal
          omega
        · have otherMember : second ∈ locals :=
            (List.mem_cons.mp secondMember).resolve_left fun same => isSecond same.symm
          simp only [if_neg isFirst, if_neg isSecond] at equal
          exact distinct first member second otherMember equal

end Matches

end ScriptLowering.Lowering
