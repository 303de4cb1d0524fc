import ScriptLowering.Code.Module

/-!
# The build cursor

A cursor is a module under construction together with the place where the next instruction
goes. Blocks are created detached and join the layout of their function only once
something leads to them, so a block that nothing reaches can be dropped again.

A step that is refused leaves the cursor as it was. The one exception is a step that yields
a value: it takes a temp first, and the temp stays taken when the instruction is refused.
-/

namespace ScriptLowering.Code

/-- A function and, within it, the block that is being filled. Without a block, the next
instruction goes into a fresh detached one. -/
structure Position where
  function : Option String
  block : Option BlockId
  deriving DecidableEq, Repr

namespace Position

def nowhere : Position := ⟨none, none⟩

def inFunction (function : String) : Position := ⟨some function, none⟩

def atEnd (function : String) (block : BlockId) : Position := ⟨some function, some block⟩

def isNowhere (position : Position) : Bool := position.function.isNone

end Position

structure Cursor where
  module : Module
  position : Position

namespace Cursor

def ofModule (module : Module) : Cursor := ⟨module, .nowhere⟩

/-- The label of the blocks that receive code behind a terminator. -/
def unreachableLabel : String := "unreachable"

/-! ## Moving -/

def setPosition (cursor : Cursor) (position : Position) : Cursor :=
  { cursor with position := position }

def positionAtEnd (cursor : Cursor) (function : String) (block : BlockId) : Cursor :=
  cursor.setPosition (.atEnd function block)

/-- Stay in the function and leave the block. -/
def clearBlock (cursor : Cursor) : Cursor :=
  cursor.setPosition { cursor.position with block := none }

/-! ## The current function -/

def currentName (cursor : Cursor) : Except BuildError String :=
  match cursor.position.function with
  | some name => .ok name
  | none => .error .notPositioned

def currentFunction (cursor : Cursor) : Except BuildError Function := do
  let name ← cursor.currentName
  match cursor.module.function? name with
  | some function => .ok function
  | none => .error (.functionMissing name)

def currentBody (cursor : Cursor) : Except BuildError Body := do
  return (← cursor.currentFunction).body

def setBody (cursor : Cursor) (name : String) (body : Body) : Cursor :=
  { cursor with module := cursor.module.modifyFunction name fun function =>
      { function with body := body } }

/-! ## Blocks -/

/-- A new block of the current function, outside of its layout. -/
def createBlock (cursor : Cursor) (label : String) : Except BuildError (BlockId × Cursor) := do
  let name ← cursor.currentName
  let body ← cursor.currentBody
  let (id, body) := body.createBlock label
  return (id, cursor.setBody name body)

def checkDetached (body : Body) (block : BlockId) : Except BuildError Unit :=
  if (body.block? block).isNone then .error (.blockMissing block)
  else if body.isLaidOut block then .error (.alreadyLaidOut block)
  else .ok ()

def appendBlock (cursor : Cursor) (block : BlockId) : Except BuildError Cursor := do
  let name ← cursor.currentName
  let body ← cursor.currentBody
  checkDetached body block
  return cursor.setBody name { body with layout := body.layout ++ [block] }

/-- Lay out `block` directly behind `after`. -/
def insertBlockAfter (cursor : Cursor) (block after : BlockId) : Except BuildError Cursor := do
  let name ← cursor.currentName
  let body ← cursor.currentBody
  checkDetached body block
  match body.position? after with
  | some index =>
      return cursor.setBody name { body with layout := body.layout.insertIdx (index + 1) block }
  | none => throw (.notLaidOut after)

/-- Remove a detached block. A cursor that stood in it is left without a block. -/
def discardBlock (cursor : Cursor) (block : BlockId) : Except BuildError Cursor := do
  let name ← cursor.currentName
  let body ← cursor.currentBody
  if body.isLaidOut block then throw (.discardOfLaidOut block)
  else if (body.block? block).isNone then throw (.blockMissing block)
  else
    let cursor := cursor.setBody name { body with blocks := body.blocks.erase block }
    return if cursor.position.block = some block then cursor.clearBlock else cursor

def isLaidOut (cursor : Cursor) (block : BlockId) : Bool :=
  match cursor.currentBody with
  | .ok body => body.isLaidOut block
  | .error _ => false

def predecessorCount (cursor : Cursor) (block : BlockId) : Except BuildError Nat := do
  return (← cursor.currentBody).predecessorCount block

def isTerminated (cursor : Cursor) (block : BlockId) : Except BuildError Bool := do
  match (← cursor.currentBody).block? block with
  | some found => return found.isTerminated
  | none => throw (.blockMissing block)

/-- The cursor stands in a block that accepts instructions. -/
def hasOpenBlock (cursor : Cursor) : Bool :=
  match cursor.position.block with
  | some block =>
      match cursor.isTerminated block with
      | .ok terminated => !terminated
      | .error _ => false
  | none => false

/-- The open block is laid out as well, so that code added here can run. -/
def isLive (cursor : Cursor) : Bool :=
  match cursor.position.block with
  | some block => cursor.hasOpenBlock && cursor.isLaidOut block
  | none => false

/-- Whether a position is in a block of the function `name` that `body` does not lay out. -/
def standsDetached (position : Position) (name : String) (body : Body) : Bool :=
  match position.block with
  | some block => position.function = some name && !body.isLaidOut block
  | none => false

/-- Drop the detached blocks of a function, and count them. -/
def finalize (cursor : Cursor) (name : String) : Except BuildError (Nat × Cursor) :=
  match cursor.module.function? name with
  | none => .error (.functionMissing name)
  | some function =>
      let body := function.body.prune
      let pruned := function.body.blocks.size - body.blocks.size
      let cursor := cursor.setBody name body
      .ok (pruned,
        if standsDetached cursor.position name body then cursor.clearBlock else cursor)

/-! ## Instructions -/

/-- Make sure that the cursor stands in an open block, by parking it in a fresh detached
block if it does not. -/
def ready (cursor : Cursor) : Except BuildError Cursor := do
  if cursor.hasOpenBlock then return cursor
  else
    let (parked, cursor) ← cursor.createBlock unreachableLabel
    return cursor.setPosition { cursor.position with block := some parked }

/-- Change the block at the cursor, which has to be open. -/
def changeBlock (cursor : Cursor) (change : Block → Block) : Except BuildError Cursor := do
  let name ← cursor.currentName
  let body ← cursor.currentBody
  match cursor.position.block with
  | none => throw .notPositioned
  | some id =>
      match body.block? id with
      | none => throw (.blockMissing id)
      | some block =>
          if block.isTerminated then throw (.alreadyTerminated id)
          else return cursor.setBody name (body.modifyBlock id change)

def insert (cursor : Cursor) (instruction : Instruction) : Except BuildError Cursor :=
  cursor.changeBlock fun block => block.addInstruction instruction

def terminate (cursor : Cursor) (terminator : Terminator) : Except BuildError Cursor :=
  cursor.changeBlock fun block => block.setTerminator terminator

def newTemp (cursor : Cursor) (ty : Ty) : Except BuildError (TempId × Cursor) := do
  let name ← cursor.currentName
  let body ← cursor.currentBody
  let (id, body) := body.newTemp ty
  return (id, cursor.setBody name body)

/-- Add the instruction that defines a new temp of type `ty`. -/
def define (cursor : Cursor) (ty : Ty) (instruction : Operand → Instruction) :
    Except BuildError Operand × Cursor :=
  match cursor.newTemp ty with
  | .error error => (.error error, cursor)
  | .ok (id, taken) =>
      match taken.insert (instruction (.temp id)) with
      | .error error => (.error error, taken)
      | .ok next => (.ok (.temp id), next)

def alloca (cursor : Cursor) (ty : Ty) (align : UInt32) : Except BuildError Operand × Cursor :=
  cursor.define .ptr fun result => .alloca result ty align

def load (cursor : Cursor) (ty : Ty) (address : Operand) :
    Except BuildError Operand × Cursor :=
  cursor.define ty fun result => .load result ty address

def store (cursor : Cursor) (address value : Operand) : Except BuildError Cursor :=
  cursor.insert (.store address value)

def arith (cursor : Cursor) (op : ArithOp) (left right : Operand) (ty : Ty) :
    Except BuildError Operand × Cursor :=
  cursor.define ty fun result => .arith op result left right ty

def negate (cursor : Cursor) (operand : Operand) (ty : Ty) :
    Except BuildError Operand × Cursor :=
  cursor.define ty fun result => .negate result operand ty

def compare (cursor : Cursor) (condition : Condition) (left right : Operand) :
    Except BuildError Operand × Cursor :=
  cursor.define .bool fun result => .compare result condition left right

/-- A call yields a value unless the callee returns nothing. -/
def call (cursor : Cursor) (callee : String) (returns : Ty) (args : List Operand) :
    Except BuildError (Option Operand) × Cursor :=
  if returns.isVoid then
    match cursor.insert (.call none callee args) with
    | .error error => (.error error, cursor)
    | .ok next => (.ok none, next)
  else
    let (result, next) := cursor.define returns fun result => .call (some result) callee args
    (result.map some, next)

def jump (cursor : Cursor) (target : BlockId) : Except BuildError Cursor :=
  cursor.terminate (.jump target)

def branch (cursor : Cursor) (condition : Operand) (thenBlock elseBlock : BlockId) :
    Except BuildError Cursor :=
  cursor.terminate (.branch condition thenBlock elseBlock)

def ret (cursor : Cursor) (value : Option Operand) : Except BuildError Cursor :=
  cursor.terminate (.ret value)

end Cursor

end ScriptLowering.Code
