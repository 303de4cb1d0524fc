import ScriptLowering.Code.Dominance
import ScriptLowering.Code.Module

/-!
# Verification

A function is accepted if its laid-out blocks form a closed flow graph, every temp is
defined once and before its uses, and every instruction finds operands of the types that it
asks for. A module is accepted if its globals start with fitting values and all functions
that it defines are accepted.

Faults are looked for in a fixed order, and the first one is reported.
-/

namespace ScriptLowering.Code

/-! ## Faults -/

inductive Fault where
  | initialMismatch (initial : Constant) (ty : Ty)
  | voidGlobal
  | noBlocks
  | detachedBlocks (count : Nat)
  | unterminated (block : BlockId) (label : String)
  | targetNotLaidOut (block target : BlockId)
  | orphan (block : BlockId)
  | definedTwice (temp : TempId)
  | undefined (temp : TempId)
  | notDominated (temp : TempId) (block : BlockId)
  | paramOutOfRange (param : ParamId)
  | unknownGlobal (global : GlobalId)
  | unknownData (data : DataId)
  | voidSlot
  | loadFromNonAddress (address : Operand)
  | loadMismatch (ty stored : Ty)
  | storeToNonAddress (address : Operand)
  | storeMismatch (value : Operand) (stored : Ty)
  | arithmeticType (ty : Ty)
  | arithmeticOperands (left right : Operand) (ty : Ty)
  | negation (operand : Operand) (ty : Ty)
  | comparisonMismatch (left right : Operand)
  | comparisonType
  | unknownCallee (callee : String)
  | callArity (callee : String) (found expected : Nat)
  | argumentMismatch (argument : Operand) (callee : String) (ty : Ty)
  | droppedResult (callee : String)
  | resultMismatch (callee : String) (ty : Ty)
  | conditionMismatch (condition : Operand)
  | valueFromVoid
  | returnMismatch (value : Operand) (ty : Ty)
  | missingValue (ty : Ty)
  | openBlock
  deriving DecidableEq, Repr

namespace Fault

def reason : Fault → String
  | initialMismatch initial ty =>
      "initializer " ++ initial.text ++ " does not match global type " ++ ty.text
  | voidGlobal => "global of void type"
  | noBlocks => "function has no blocks"
  | detachedBlocks count => count.repr ++ " detached block(s) left in function"
  | unterminated block label => block.text ++ " (" ++ label ++ ") has no terminator"
  | targetNotLaidOut block target =>
      block.text ++ " branches to " ++ target.text ++ " which is not laid out"
  | orphan block => block.text ++ " has no predecessors"
  | definedTwice temp => temp.text ++ " defined more than once"
  | undefined temp => temp.text ++ " used but never defined"
  | notDominated temp block =>
      "definition of " ++ temp.text ++ " does not dominate its use in " ++ block.text
  | paramOutOfRange param => param.text ++ " out of range"
  | unknownGlobal global => "unknown global " ++ global.text
  | unknownData data => "unknown data object " ++ data.text
  | voidSlot => "stack slot of void type"
  | loadFromNonAddress address => "load from non-address " ++ address.text
  | loadMismatch ty stored => "load of " ++ ty.text ++ " from a slot of type " ++ stored.text
  | storeToNonAddress address => "store to non-address " ++ address.text
  | storeMismatch value stored =>
      "store of " ++ value.text ++ " into a slot of type " ++ stored.text
  | arithmeticType ty => "arithmetic on non-integer type " ++ ty.text
  | arithmeticOperands left right ty =>
      "arithmetic operands " ++ left.text ++ " and " ++ right.text ++ " are not " ++ ty.text
  | negation operand ty => "negation of " ++ operand.text ++ " as " ++ ty.text
  | comparisonMismatch left right =>
      "comparison operands " ++ left.text ++ " and " ++ right.text ++ " disagree in type"
  | comparisonType => "comparison of non-integer operands"
  | unknownCallee callee => "call to unknown function " ++ callee
  | callArity callee found expected =>
      "call to " ++ callee ++ " with " ++ found.repr ++ " argument(s), expected " ++
        expected.repr
  | argumentMismatch argument callee ty =>
      "argument " ++ argument.text ++ " to " ++ callee ++ " is not " ++ ty.text
  | droppedResult callee => "result of " ++ callee ++ " dropped"
  | resultMismatch callee ty => "result of " ++ callee ++ " is not " ++ ty.text
  | conditionMismatch condition => "branch condition " ++ condition.text ++ " is not i1"
  | valueFromVoid => "value returned from void function"
  | returnMismatch value ty => "returned " ++ value.text ++ " is not " ++ ty.text
  | missingValue ty => "missing return value of type " ++ ty.text
  | openBlock => "open block"

end Fault

/-- A fault and the function or global in which it was found. -/
structure Rejection where
  subject : String
  fault : Fault
  deriving DecidableEq, Repr

def Rejection.message (rejection : Rejection) : String :=
  "Verification failed in " ++ rejection.subject ++ ": " ++ rejection.fault.reason

/-! ## The shape of a function -/

/-- A check that passes or finds a fault. -/
abbrev Check := Except Fault Unit

def require (condition : Bool) (fault : Fault) : Check :=
  if condition then .ok () else .error fault

def checkEdges (body : Body) (block : Block) : Check := do
  require block.isTerminated (.unterminated block.id block.label)
  block.successors.forM fun target =>
    require (body.isLaidOut target) (.targetNotLaidOut block.id target)

/-- Nothing is detached, every block is terminated, every edge ends in the layout, and
every block but the entry has an edge that leads to it. -/
def checkShape (function : Function) : Check := do
  let body := function.body
  require (!body.layout.isEmpty) .noBlocks
  require (body.blocks.size == body.layout.length)
    (.detachedBlocks (body.blocks.size - body.layout.length))
  body.laidOut.forM (checkEdges body)
  match (FlowGraph.ofFunction function).orphans with
  | [] => .ok ()
  | block :: _ => .error (.orphan block)

/-! ## Definitions and uses -/

/-- Where each temp is defined, as a block and an index in it, and what the slots among the
temps store. -/
structure Definitions where
  sites : Table TempId (BlockId × Nat)
  slots : Table TempId Ty

namespace Definitions

def empty : Definitions := ⟨.empty, .empty⟩

def add (definitions : Definitions) (block : BlockId) (index : Nat)
    (instruction : Instruction) : Except Fault Definitions :=
  match instruction.defined? with
  | none => .ok definitions
  | some temp =>
      if definitions.sites.contains temp then .error (.definedTwice temp)
      else .ok {
        sites := definitions.sites.insert temp (block, index)
        slots :=
          match instruction with
          | .alloca _ ty _ => definitions.slots.insert temp ty
          | _ => definitions.slots }

def addBlock (definitions : Definitions) (block : Block) : Except Fault Definitions :=
  block.instructions.zipIdx.foldlM (fun definitions (instruction, index) =>
    definitions.add block.id index instruction) definitions

def collect (body : Body) : Except Fault Definitions :=
  body.laidOut.foldlM addBlock empty

end Definitions

/-- What the checks of single instructions look at. -/
structure Scene where
  module : Module
  function : Function
  definitions : Definitions
  dominators : Dominators

namespace Scene

/-- Whether a definition reaches a use. Within a block it has to come earlier; a use in the
terminator, which has no index, comes after all instructions. -/
def reaches (scene : Scene) (site : BlockId × Nat) (block : BlockId) (index : Option Nat) :
    Bool :=
  if site.1 = block then
    match index with
    | some index => site.2 < index
    | none => true
  else scene.dominators.dominates site.1 block

def checkUse (scene : Scene) (block : BlockId) (index : Option Nat) : Operand → Check
  | .temp temp =>
      match scene.definitions.sites.get? temp with
      | none => .error (.undefined temp)
      | some site => require (scene.reaches site block index) (.notDominated temp block)
  | .param param =>
      require (param.number.toNat < scene.function.arity) (.paramOutOfRange param)
  | .global global => require (scene.module.globals.contains global) (.unknownGlobal global)
  | .data data => require (scene.module.data.contains data) (.unknownData data)
  | .constant _ => .ok ()

/-! ## Types -/

/-- Whether an operand may stand where a value of type `ty` is asked for. -/
def fits (scene : Scene) (operand : Operand) (ty : Ty) : Bool :=
  match operand with
  | .constant value => value.fits ty
  | other => scene.function.typeOf? other = some ty

def stored? (scene : Scene) : Operand → Option Ty
  | .temp temp => scene.definitions.slots.get? temp
  | .global global => (scene.module.global? global).map Global.ty
  | _ => none

/-- The type at which two operands are compared: that of the first unless it is a constant. -/
def comparedType? (scene : Scene) (left right : Operand) : Option Ty :=
  scene.function.typeOf? (if left.isConstant then right else left)

def checkArguments (scene : Scene) (callee : String) :
    List Operand → List Parameter → Check
  | argument :: arguments, parameter :: parameters => do
      require (scene.fits argument parameter.ty)
        (.argumentMismatch argument callee parameter.ty)
      scene.checkArguments callee arguments parameters
  | _, _ => .ok ()

def checkResult (scene : Scene) (callee : String) (returns : Ty) : Option Operand → Check
  | none => require returns.isVoid (.droppedResult callee)
  | some result => require (scene.fits result returns) (.resultMismatch callee returns)

def checkInstruction (scene : Scene) : Instruction → Check
  | .alloca _ ty _ => require (!ty.isVoid) .voidSlot
  | .load _ ty address =>
      match scene.stored? address with
      | none => .error (.loadFromNonAddress address)
      | some stored => require (stored = ty) (.loadMismatch ty stored)
  | .store address value =>
      match scene.stored? address with
      | none => .error (.storeToNonAddress address)
      | some stored => require (scene.fits value stored) (.storeMismatch value stored)
  | .arith _ _ left right ty => do
      require ty.isArithmetic (.arithmeticType ty)
      require (scene.fits left ty && scene.fits right ty) (.arithmeticOperands left right ty)
  | .negate _ operand ty =>
      require (ty.isArithmetic && scene.fits operand ty) (.negation operand ty)
  | .compare _ _ left right =>
      match scene.comparedType? left right with
      | none => .error .comparisonType
      | some ty => do
          require ty.isInteger .comparisonType
          require (scene.fits left ty && scene.fits right ty) (.comparisonMismatch left right)
  | .call result callee arguments =>
      match scene.module.function? callee with
      | none => .error (.unknownCallee callee)
      | some target => do
          let parameters := target.signature.params
          require (parameters.length == arguments.length)
            (.callArity callee arguments.length parameters.length)
          scene.checkArguments callee arguments parameters
          scene.checkResult callee target.signature.returns result

def checkTerminator (scene : Scene) : Terminator → Check
  | .branch condition _ _ => require (scene.fits condition .bool) (.conditionMismatch condition)
  | .ret (some value) => do
      let returns := scene.function.signature.returns
      require (!returns.isVoid) .valueFromVoid
      require (scene.fits value returns) (.returnMismatch value returns)
  | .ret none =>
      let returns := scene.function.signature.returns
      require returns.isVoid (.missingValue returns)
  | .jump _ => .ok ()
  | .unfinished => .error .openBlock

/-- All operands of a block are defined, and all its parts are well typed. -/
def checkBlock (scene : Scene) (block : Block) : Check := do
  block.instructions.zipIdx.forM fun (instruction, index) => do
    instruction.operands.forM (scene.checkUse block.id (some index))
    scene.checkInstruction instruction
  block.terminator.operands.forM (scene.checkUse block.id none)
  scene.checkTerminator block.terminator

end Scene

/-! ## Functions and modules -/

namespace Module

def checkFunction (module : Module) (function : Function) : Check := do
  checkShape function
  let definitions ← Definitions.collect function.body
  let dominators := (FlowGraph.ofFunction function).dominators
  let scene : Scene := { module, function, definitions, dominators }
  function.body.laidOut.forM scene.checkBlock

def verifyFunction (module : Module) (function : Function) : Except Rejection Unit :=
  (module.checkFunction function).mapError fun fault => ⟨function.name, fault⟩

def checkGlobal (global : Global) : Check := do
  require (global.initial.fits global.ty) (.initialMismatch global.initial global.ty)
  require (!global.ty.isVoid) .voidGlobal

def verifyGlobal (global : Global) : Except Rejection Unit :=
  (checkGlobal global).mapError fun fault => ⟨"@" ++ global.name, fault⟩

def verify (module : Module) : Except Rejection Unit := do
  module.globals.values.forM verifyGlobal
  module.definitions.forM module.verifyFunction

end Module

end ScriptLowering.Code
