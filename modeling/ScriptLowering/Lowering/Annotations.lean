import ScriptLowering.Lowering.Error

/-!
# What lowering has learnt

While a program is lowered, its nodes gain the values, the storage and the blocks that
stand for them. Each of these is written once: a second lowering of the same node is a
fault of the program, and the first entry stays.
-/

namespace ScriptLowering.Lowering

open Source (StmtId ExprId VarId)
open Code (BlockId Operand)

structure LoopBlocks where
  condition : BlockId
  update : Option BlockId
  exit : BlockId
  deriving DecidableEq, Repr

/-- Where `continue` goes: to the update if the loop has one, else to the condition. -/
def LoopBlocks.continueTarget (blocks : LoopBlocks) : BlockId :=
  blocks.update.getD blocks.condition

structure Annotations where
  values : Table ExprId Operand
  storage : Table VarId Operand
  loops : Table StmtId LoopBlocks

namespace Annotations

def empty : Annotations := ⟨.empty, .empty, .empty⟩

def value? (annotations : Annotations) (id : ExprId) : Option Operand :=
  annotations.values.get? id

def setValue (annotations : Annotations) (id : ExprId) (value : Operand) :
    Except ProgramFault Annotations :=
  if annotations.values.contains id then .error (.loweredTwice id)
  else .ok { annotations with values := annotations.values.insert id value }

theorem setValue_eq_ok {annotations next : Annotations} {id : ExprId} {value : Operand} :
    annotations.setValue id value = .ok next ↔ annotations.values.contains id = false ∧
      { annotations with values := annotations.values.insert id value } = next := by
  unfold setValue
  split <;> simp_all

theorem value?_of_setValue {annotations next : Annotations} {id : ExprId} {value : Operand}
    (done : annotations.setValue id value = .ok next) (other : ExprId) :
    next.value? other = if id = other then some value else annotations.value? other := by
  rcases setValue_eq_ok.mp done with ⟨_, rfl⟩
  exact Table.get?_insert _ _ _ _

theorem value?_ne_of_setValue {annotations next : Annotations} {id : ExprId} {value : Operand}
    (done : annotations.setValue id value = .ok next) (old : Operand) :
    annotations.value? id ≠ some old := by
  intro known
  have fresh := (setValue_eq_ok.mp done).1
  rw [Table.contains, show annotations.values.get? id = some old from known] at fresh
  cases fresh

theorem value?_kept {annotations next : Annotations} {id other : ExprId} {value old : Operand}
    (done : annotations.setValue id value = .ok next) (known : annotations.value? other = some old) :
    next.value? other = some old := by
  rw [value?_of_setValue done, if_neg]
  · exact known
  · rintro rfl
    exact value?_ne_of_setValue done old known

def storageOf (annotations : Annotations) (id : VarId) : Except ProgramFault Operand :=
  match annotations.storage.get? id with
  | some address => .ok address
  | none => .error (.beforeDeclaration id)

theorem storageOf_eq_ok {annotations : Annotations} {id : VarId} {address : Operand} :
    annotations.storageOf id = .ok address ↔ annotations.storage.get? id = some address := by
  unfold storageOf
  cases annotations.storage.get? id <;> simp

def setStorage (annotations : Annotations) (id : VarId) (address : Operand) :
    Except ProgramFault Annotations :=
  if annotations.storage.contains id then .error (.storageTwice id)
  else .ok { annotations with storage := annotations.storage.insert id address }

theorem setStorage_eq_ok {annotations next : Annotations} {id : VarId} {address : Operand} :
    annotations.setStorage id address = .ok next ↔ annotations.storage.contains id = false ∧
      { annotations with storage := annotations.storage.insert id address } = next := by
  unfold setStorage
  split <;> simp_all

theorem storageOf_of_setStorage {annotations next : Annotations} {id : VarId}
    {address : Operand} (done : annotations.setStorage id address = .ok next) (other : VarId) :
    next.storageOf other = if id = other then .ok address else annotations.storageOf other := by
  rcases setStorage_eq_ok.mp done with ⟨_, rfl⟩
  simp only [storageOf, Table.get?_insert]
  by_cases equal : id = other <;> simp [equal]

theorem storageOf_ne_of_setStorage {annotations next : Annotations} {id : VarId} {address : Operand}
    (done : annotations.setStorage id address = .ok next) (old : Operand) :
    annotations.storageOf id ≠ .ok old := by
  intro stored
  have fresh := (setStorage_eq_ok.mp done).1
  rw [Table.contains, storageOf_eq_ok.mp stored] at fresh
  cases fresh

theorem storageOf_kept {annotations next : Annotations} {id other : VarId} {address old : Operand}
    (done : annotations.setStorage id address = .ok next)
    (stored : annotations.storageOf other = .ok old) : next.storageOf other = .ok old := by
  rw [storageOf_of_setStorage done, if_neg]
  · exact stored
  · rintro rfl
    exact storageOf_ne_of_setStorage done old stored

def loopOf (annotations : Annotations) (id : StmtId) : Except ProgramFault LoopBlocks :=
  match annotations.loops.get? id with
  | some blocks => .ok blocks
  | none => .error (.notEnclosing id)

theorem loopOf_eq_ok {annotations : Annotations} {id : StmtId} {blocks : LoopBlocks} :
    annotations.loopOf id = .ok blocks ↔ annotations.loops.get? id = some blocks := by
  unfold loopOf
  cases annotations.loops.get? id <;> simp

def setLoop (annotations : Annotations) (id : StmtId) (blocks : LoopBlocks) :
    Except ProgramFault Annotations :=
  if annotations.loops.contains id then .error (.loopTwice id)
  else .ok { annotations with loops := annotations.loops.insert id blocks }

theorem setLoop_eq_ok {annotations next : Annotations} {id : StmtId} {blocks : LoopBlocks} :
    annotations.setLoop id blocks = .ok next ↔ annotations.loops.contains id = false ∧
      { annotations with loops := annotations.loops.insert id blocks } = next := by
  unfold setLoop
  split <;> simp_all

theorem loopOf_of_setLoop {annotations next : Annotations} {id : StmtId}
    {blocks : LoopBlocks} (done : annotations.setLoop id blocks = .ok next) (other : StmtId) :
    next.loopOf other = if id = other then .ok blocks else annotations.loopOf other := by
  rcases setLoop_eq_ok.mp done with ⟨_, rfl⟩
  simp only [loopOf, Table.get?_insert]
  by_cases equal : id = other <;> simp [equal]

theorem loopOf_ne_of_setLoop {annotations next : Annotations} {id : StmtId} {blocks : LoopBlocks}
    (done : annotations.setLoop id blocks = .ok next) (old : LoopBlocks) :
    annotations.loopOf id ≠ .ok old := by
  intro known
  have fresh := (setLoop_eq_ok.mp done).1
  rw [Table.contains, loopOf_eq_ok.mp known] at fresh
  cases fresh

theorem loopOf_kept {annotations next : Annotations} {id other : StmtId} {blocks old : LoopBlocks}
    (done : annotations.setLoop id blocks = .ok next) (known : annotations.loopOf other = .ok old) :
    next.loopOf other = .ok old := by
  rw [loopOf_of_setLoop done, if_neg]
  · exact known
  · rintro rfl
    exact loopOf_ne_of_setLoop done old known

end Annotations

end ScriptLowering.Lowering
