import ScriptLowering.Code.Instruction
import ScriptLowering.Table

/-!
# Functions

The blocks of a function live in an arena from their creation on. Only those that the
layout names belong to the finished function, in the order of the layout; the others are
detached. The arena is keyed by block, and it is the key that the layout names.
-/

namespace ScriptLowering.Code

/-- Whether the rest of the world can see a function or a global. -/
inductive Linkage where
  | exported
  | internal
  deriving DecidableEq, Repr, Inhabited

structure Parameter where
  name : String
  ty : Ty
  deriving DecidableEq, Repr

structure Signature where
  name : String
  params : List Parameter
  returns : Ty
  deriving DecidableEq, Repr

/-! ## Bodies -/

structure Body where
  blocks : Table BlockId Block
  layout : List BlockId
  /-- The types of the temps, by number. -/
  temps : Array Ty
  nextBlock : UInt32
  deriving DecidableEq

namespace Body

def empty : Body where
  blocks := .empty
  layout := []
  temps := #[]
  nextBlock := 0

instance : Inhabited Body := ⟨empty⟩

def block? (body : Body) (id : BlockId) : Option Block := body.blocks.get? id

def tempType? (body : Body) (id : TempId) : Option Ty := body.temps[id.number.toNat]?

def isLaidOut (body : Body) (id : BlockId) : Bool := body.layout.contains id

def position? (body : Body) (id : BlockId) : Option Nat := body.layout.idxOf? id

/-- The laid-out blocks in order; names that the arena does not know are passed over. -/
def laidOut (body : Body) : List Block := body.layout.filterMap body.block?

def createBlock (body : Body) (label : String) : BlockId × Body :=
  let id : BlockId := ⟨body.nextBlock⟩
  (id, { body with
    blocks := body.blocks.insert id (.empty id label)
    nextBlock := body.nextBlock + 1 })

def newTemp (body : Body) (ty : Ty) : TempId × Body :=
  (⟨body.temps.size.toUInt32⟩, { body with temps := body.temps.push ty })

def modifyBlock (body : Body) (id : BlockId) (change : Block → Block) : Body :=
  { body with blocks := body.blocks.modify id change }

/-- Drop the detached blocks. -/
def prune (body : Body) : Body :=
  { body with blocks := body.blocks.filterKeys body.isLaidOut }

/-- How many edges lead from laid-out blocks to a block. An edge out of a detached block is
never taken and does not count. -/
def predecessorCount (body : Body) (id : BlockId) : Nat :=
  (body.laidOut.flatMap Block.successors).count id

end Body

/-! ## Functions -/

structure Function where
  signature : Signature
  linkage : Linkage
  body : Body
  deriving DecidableEq

namespace Function

def declared (signature : Signature) (linkage : Linkage) : Function where
  signature := signature
  linkage := linkage
  body := .empty

def name (function : Function) : String := function.signature.name

/-- A function without laid-out blocks is only declared. -/
def isDeclaration (function : Function) : Bool := function.body.layout.isEmpty

def entry? (function : Function) : Option BlockId := function.body.layout.head?

def arity (function : Function) : Nat := function.signature.params.length

/-- The recorded type of an operand. Globals and data objects are addresses, and `null` has
no type of its own. -/
def typeOf? (function : Function) : Operand → Option Ty
  | .temp id => function.body.tempType? id
  | .param id => function.signature.params[id.number.toNat]?.map Parameter.ty
  | .global _ | .data _ => some .ptr
  | .constant value => value.ty?

end Function

end ScriptLowering.Code
