import ScriptLowering.Code.Value

/-!
# Instructions and blocks

A block is a straight run of instructions that ends in a terminator. The terminator alone
decides where control goes, so the edges out of a block are read off it.
-/

namespace ScriptLowering.Code

/-! ## Instructions -/

/-- Addition, subtraction and multiplication trap on overflow; division is signed. -/
inductive ArithOp where
  | add
  | sub
  | mul
  | div
  deriving DecidableEq, Repr, Inhabited

def ArithOp.mnemonic : ArithOp → String
  | .add => "iadd.nsw"
  | .sub => "isub.nsw"
  | .mul => "imul.nsw"
  | .div => "sdiv"

/-- The condition of a signed comparison. -/
inductive Condition where
  | equal
  | notEqual
  | lessThan
  | greaterThan
  | lessThanOrEqual
  | greaterThanOrEqual
  deriving DecidableEq, Repr, Inhabited

def Condition.mnemonic : Condition → String
  | .equal => "eq"
  | .notEqual => "ne"
  | .lessThan => "slt"
  | .greaterThan => "sgt"
  | .lessThanOrEqual => "sle"
  | .greaterThanOrEqual => "sge"

inductive Instruction where
  /-- Reserve a stack slot; the result is its address. -/
  | alloca (result : Operand) (ty : Ty) (align : UInt32)
  | load (result : Operand) (ty : Ty) (address : Operand)
  | store (address value : Operand)
  | arith (op : ArithOp) (result left right : Operand) (ty : Ty)
  | negate (result operand : Operand) (ty : Ty)
  | compare (result : Operand) (condition : Condition) (left right : Operand)
  | call (result : Option Operand) (callee : String) (args : List Operand)
  deriving DecidableEq, Repr

namespace Instruction

def result? : Instruction → Option Operand
  | .alloca result _ _ | .load result _ _ | .arith _ result _ _ _ | .negate result _ _
  | .compare result _ _ _ => some result
  | .call result _ _ => result
  | .store _ _ => none

/-- The temp that the instruction defines. -/
def defined? (instruction : Instruction) : Option TempId :=
  instruction.result?.bind Operand.asTemp?

/-- The values that the instruction reads, in the order in which it names them. -/
def operands : Instruction → List Operand
  | .alloca _ _ _ => []
  | .load _ _ address => [address]
  | .store address value => [address, value]
  | .arith _ _ left right _ | .compare _ _ left right => [left, right]
  | .negate _ operand _ => [operand]
  | .call _ _ args => args

def isStore : Instruction → Bool
  | .store _ _ => true
  | _ => false

def isCall : Instruction → Bool
  | .call _ _ _ => true
  | _ => false

def storeTarget? : Instruction → Option Operand
  | .store address _ => some address
  | _ => none

def callee? : Instruction → Option String
  | .call _ callee _ => some callee
  | _ => none

end Instruction

/-! ## Terminators -/

inductive Terminator where
  | jump (target : BlockId)
  | branch (condition : Operand) (thenBlock elseBlock : BlockId)
  | ret (value : Option Operand)
  /-- The end of a block that still accepts instructions. -/
  | unfinished
  deriving DecidableEq, Repr

namespace Terminator

/-- The targets of the edges, one for each edge. -/
def successors : Terminator → List BlockId
  | .jump target => [target]
  | .branch _ thenBlock elseBlock => [thenBlock, elseBlock]
  | .ret _ | .unfinished => []

def operands : Terminator → List Operand
  | .branch condition _ _ => [condition]
  | .ret (some value) => [value]
  | _ => []

def isReturn : Terminator → Bool
  | .ret _ => true
  | _ => false

def isFinished : Terminator → Bool
  | .unfinished => false
  | _ => true

end Terminator

/-! ## Blocks -/

structure Block where
  id : BlockId
  label : String
  instructions : List Instruction
  terminator : Terminator
  deriving DecidableEq, Repr

namespace Block

def empty (id : BlockId) (label : String) : Block where
  id := id
  label := label
  instructions := []
  terminator := .unfinished

def isTerminated (block : Block) : Bool := block.terminator.isFinished

def successors (block : Block) : List BlockId := block.terminator.successors

def addInstruction (block : Block) (instruction : Instruction) : Block :=
  { block with instructions := block.instructions ++ [instruction] }

def setTerminator (block : Block) (terminator : Terminator) : Block :=
  { block with terminator := terminator }

end Block

end ScriptLowering.Code
