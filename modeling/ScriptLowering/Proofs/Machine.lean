import Mathlib.Algebra.Group.Nat.Defs
import Mathlib.Logic.Relation
import ScriptLowering.Code.Module

/-! # Running code

A machine that runs the code of a module one instruction at a time. It checks everything it
relies on: that operands exist and have the types an instruction works on, that addresses
are those of globals or of slots whose frame is still active, and that control has somewhere
to go. What does not hold is a breach, and a breach is an ending of its own. Arithmetic that
has no result traps, which is not a breach.

Two things are not decided by the code: what a function that is only declared answers, and
what a fresh slot holds. The machine asks for them and goes on with whatever it is given.
-/

namespace ScriptLowering.Code

/-! ## Values -/

/-- The place that an address stands for. A slot belongs to a frame, which is known by its
serial number. -/
inductive Address where
  | slot (frame index : Nat)
  | global (id : GlobalId)
  | data (id : DataId)
  deriving DecidableEq, Repr

/-- A function that returns nothing yields `void`. An object is known by a number to whoever
manages its handle. -/
inductive Value where
  | void
  | bool (value : Bool)
  | int (bits : UInt16) (value : Int)
  | address (target : Address)
  | object (handle : String) (number : Nat)
  | null
  deriving DecidableEq, Repr

namespace Value

def hasType : Value → Ty → Bool
  | .void, .void => true
  | .bool _, .bool => true
  | .int bits _, .int width => bits = width
  | .address _, .ptr => true
  | .object handle _, .handle name => handle = name
  | .null, ty => ty.isPointerLike
  | _, _ => false

/-- The integer that stands for `value` in `bits` bits. -/
def wrapped (bits : UInt16) (value : Int) : Int := value.bmod (2 ^ bits.toNat)

def ofConstant : Constant → Value
  | .bool value => .bool value
  | .int value bits => .int bits (wrapped bits value.toInt)
  | .null => .null

/-- The number that a comparison looks at; a truth value is a signed integer of one bit. -/
def ofTruth (value : Bool) : Int := if value then -1 else 0

theorem hasType_ofConstant {constant : Constant} {ty : Ty}
    (fits : constant.fits ty = true) : (ofConstant constant).hasType ty = true := by
  cases constant with
  | bool value =>
      simp only [Constant.fits, Constant.ty?, decide_eq_true_eq] at fits
      subst fits
      rfl
  | int value bits =>
      simp only [Constant.fits, Constant.ty?, decide_eq_true_eq] at fits
      subst fits
      simp [ofConstant, hasType]
  | null => exact fits

end Value

/-! ## Operations -/

/-- The result of arithmetic if it can be represented. -/
def checked (bits : UInt16) (value : Int) : Option Int :=
  if Value.wrapped bits value = value then some value else none

def ArithOp.apply (op : ArithOp) (bits : UInt16) (left right : Int) : Option Int :=
  match op with
  | .add => checked bits (left + right)
  | .sub => checked bits (left - right)
  | .mul => checked bits (left * right)
  | .div => if right = 0 then none else checked bits (left.tdiv right)

def Condition.holds (condition : Condition) (left right : Int) : Bool :=
  match condition with
  | .equal => left = right
  | .notEqual => left ≠ right
  | .lessThan => left < right
  | .greaterThan => right < left
  | .lessThanOrEqual => left ≤ right
  | .greaterThanOrEqual => right ≤ left

/-! ## States -/

/-- A stack slot: what may be stored in it and what is. -/
structure Slot where
  ty : Ty
  value : Value

/-- One activation of a function. A frame that waits for a call stands at the call. -/
structure Frame where
  serial : Nat
  function : String
  args : List Value
  block : BlockId
  index : Nat
  temps : TempId → Option Value
  slots : List Slot

structure State where
  /-- The active frames; the first one is running. -/
  frames : List Frame
  globals : GlobalId → Option Value
  nextSerial : Nat

/-- What the machine finds wrong with the code it runs. -/
inductive Breach where
  | noFrame
  | missingFunction (name : String)
  | missingBlock (block : BlockId)
  | undefinedTemp (temp : TempId)
  | missingParam (param : ParamId)
  | missingGlobal (global : GlobalId)
  | missingData (data : DataId)
  | deadAddress
  | wrongType
  | unterminated
  | notWaiting
  deriving DecidableEq, Repr

inductive Event where
  | goes (next : State)
  /-- A function that is only declared is called, and its answer is needed. -/
  | calls (callee : String) (args : List Value) (resume : Value → State)
  /-- A slot is reserved, and what it holds at first is needed. -/
  | reserves (ty : Ty) (resume : Value → State)
  | returns (value : Value) (globals : GlobalId → Option Value)
  | traps

/-! ## Frames -/

namespace Frame

def operand (module : Module) (frame : Frame) : Operand → Except Breach Value
  | .temp temp =>
      match frame.temps temp with
      | some value => .ok value
      | none => .error (.undefinedTemp temp)
  | .param param =>
      match frame.args[param.number.toNat]? with
      | some value => .ok value
      | none => .error (.missingParam param)
  | .global global =>
      if module.globals.contains global then .ok (.address (.global global))
      else .error (.missingGlobal global)
  | .data data =>
      if module.data.contains data then .ok (.address (.data data))
      else .error (.missingData data)
  | .constant value => .ok (.ofConstant value)

theorem operand_temp_eq_ok {module : Module} {frame : Frame} {temp : TempId} {value : Value} :
    frame.operand module (.temp temp) = .ok value ↔ frame.temps temp = some value := by
  simp only [operand]
  cases frame.temps temp <;> simp

theorem operand_global_eq_ok {module : Module} {frame : Frame} {id : GlobalId} {value : Value} :
    frame.operand module (.global id) = .ok value ↔
      module.globals.contains id = true ∧ .address (.global id) = value := by
  simp only [operand]
  split <;> simp_all

/-- Go past an instruction whose result, if it has one, is `value`. -/
def advance (frame : Frame) (result : Option Operand) (value : Value) : Frame :=
  { frame with
    index := frame.index + 1
    temps :=
      match result with
      | some (.temp temp) =>
          fun other => if temp = other then some value else frame.temps other
      | _ => frame.temps }

def jump (frame : Frame) (target : BlockId) : Frame :=
  { frame with block := target, index := 0 }

def reserve (frame : Frame) (result : Operand) (ty : Ty) (content : Value) : Frame :=
  { frame.advance (some result) (.address (.slot frame.serial frame.slots.length)) with
    slots := frame.slots ++ [⟨ty, content⟩] }

def setSlot (frame : Frame) (index : Nat) (content : Value) : Frame :=
  { frame with slots := frame.slots.modify index fun slot => { slot with value := content } }

def start (serial : Nat) (name : String) (entry : BlockId) (args : List Value) : Frame where
  serial := serial
  function := name
  args := args
  block := entry
  index := 0
  temps := fun _ => none
  slots := []

end Frame

/-! ## Steps -/

namespace State

/-- The type and the content of what an address stands for. -/
def read (module : Module) (state : State) : Value → Except Breach (Ty × Value)
  | .address (.slot serial index) =>
      match (state.frames.find? fun frame => frame.serial = serial).bind
          fun frame => frame.slots[index]? with
      | some slot => .ok (slot.ty, slot.value)
      | none => .error .deadAddress
  | .address (.global id) =>
      match module.global? id, state.globals id with
      | some global, some value => .ok (global.ty, value)
      | _, _ => .error .deadAddress
  | _ => .error .deadAddress

def writeSlot (serial index : Nat) (content : Value) : List Frame → List Frame
  | [] => []
  | frame :: rest =>
      if frame.serial = serial then frame.setSlot index content :: rest
      else frame :: writeSlot serial index content rest

def write (state : State) (target content : Value) : State :=
  match target with
  | .address (.slot serial index) =>
      { state with frames := writeSlot serial index content state.frames }
  | .address (.global id) =>
      { state with globals := fun other =>
          if id = other then some content else state.globals other }
  | _ => state

def resume (state : State) (frame : Frame) (callers : List Frame) : State :=
  { state with frames := frame :: callers }

/-- Whether arguments have the types of parameters. -/
def argumentsFit (args : List Value) (params : List Parameter) : Bool :=
  args.length = params.length ∧
    (args.zip params).all fun pair => pair.1.hasType pair.2.ty

def execute (module : Module) (state : State) (frame : Frame) (callers : List Frame) :
    Instruction → Except Breach Event
  | .alloca result ty _ =>
      .ok (.reserves ty fun content => state.resume (frame.reserve result ty content) callers)
  | .load result ty address => do
      let target ← frame.operand module address
      let (stored, value) ← state.read module target
      if stored = ty ∧ value.hasType ty then
        .ok (.goes (state.resume (frame.advance (some result) value) callers))
      else .error .wrongType
  | .store address value => do
      let target ← frame.operand module address
      let content ← frame.operand module value
      let (stored, _) ← state.read module target
      if content.hasType stored then
        .ok (.goes ((state.resume (frame.advance none .void) callers).write target content))
      else .error .wrongType
  | .arith op result left right ty => do
      let leftValue ← frame.operand module left
      let rightValue ← frame.operand module right
      match ty, leftValue, rightValue with
      | .int bits, .int leftBits leftNumber, .int rightBits rightNumber =>
          if leftBits = bits ∧ rightBits = bits then
            match op.apply bits leftNumber rightNumber with
            | some number =>
                .ok (.goes (state.resume (frame.advance (some result) (.int bits number))
                  callers))
            | none => .ok .traps
          else .error .wrongType
      | _, _, _ => .error .wrongType
  | .negate result operand ty => do
      let value ← frame.operand module operand
      match ty, value with
      | .int bits, .int valueBits number =>
          if valueBits = bits then
            match checked bits (-number) with
            | some negated =>
                .ok (.goes (state.resume (frame.advance (some result) (.int bits negated))
                  callers))
            | none => .ok .traps
          else .error .wrongType
      | _, _ => .error .wrongType
  | .compare result condition left right => do
      let leftValue ← frame.operand module left
      let rightValue ← frame.operand module right
      match leftValue, rightValue with
      | .bool leftTruth, .bool rightTruth =>
          let holds := condition.holds (Value.ofTruth leftTruth) (Value.ofTruth rightTruth)
          .ok (.goes (state.resume (frame.advance (some result) (.bool holds)) callers))
      | .int leftBits leftNumber, .int rightBits rightNumber =>
          if leftBits = rightBits then
            let holds := condition.holds leftNumber rightNumber
            .ok (.goes (state.resume (frame.advance (some result) (.bool holds)) callers))
          else .error .wrongType
      | _, _ => .error .wrongType
  | .call result callee args =>
      match module.function? callee with
      | none => .error (.missingFunction callee)
      | some target => do
          let values ← args.mapM (frame.operand module)
          if argumentsFit values target.signature.params then
            match target.entry? with
            | none =>
                .ok (.calls callee values fun answer =>
                  state.resume (frame.advance result answer) callers)
            | some entry =>
                .ok (.goes {
                  frames := .start state.nextSerial callee entry values :: frame :: callers
                  globals := state.globals
                  nextSerial := state.nextSerial + 1 })
          else .error .wrongType

/-- Hand `value` to the frame that waits for it, or end the run. -/
def giveBack (module : Module) (state : State) (value : Value) :
    List Frame → Except Breach Event
  | [] => .ok (.returns value state.globals)
  | caller :: callers =>
      match ((module.function? caller.function).bind fun function =>
          function.body.block? caller.block).bind fun block =>
          block.instructions[caller.index]? with
      | some (.call result _ _) =>
          .ok (.goes (state.resume (caller.advance result value) callers))
      | _ => .error .notWaiting

def leave (module : Module) (state : State) (function : Function) (frame : Frame)
    (callers : List Frame) : Terminator → Except Breach Event
  | .jump target =>
      if (function.body.block? target).isSome then
        .ok (.goes (state.resume (frame.jump target) callers))
      else .error (.missingBlock target)
  | .branch condition thenBlock elseBlock => do
      match ← frame.operand module condition with
      | .bool truth =>
          let target := if truth then thenBlock else elseBlock
          if (function.body.block? target).isSome then
            .ok (.goes (state.resume (frame.jump target) callers))
          else .error (.missingBlock target)
      | _ => .error .wrongType
  | .ret result => do
      let value ←
        match result with
        | some operand => frame.operand module operand
        | none => .ok .void
      if value.hasType function.signature.returns then state.giveBack module value callers
      else .error .wrongType
  | .unfinished => .error .unterminated

def next (module : Module) (state : State) : Except Breach Event :=
  match state.frames with
  | [] => .error .noFrame
  | frame :: callers =>
      match module.function? frame.function with
      | none => .error (.missingFunction frame.function)
      | some function =>
          match function.body.block? frame.block with
          | none => .error (.missingBlock frame.block)
          | some block =>
              match block.instructions[frame.index]? with
              | some instruction => state.execute module frame callers instruction
              | none => state.leave module function frame callers block.terminator

end State

/-! ## Runs -/

/-- The globals of a module before anything runs. -/
def Module.initialGlobals (module : Module) (id : GlobalId) : Option Value :=
  (module.global? id).map fun global => .ofConstant global.initial

/-- A call of a function from outside. -/
def State.call (name : String) (entry : BlockId) (args : List Value)
    (globals : GlobalId → Option Value) : State where
  frames := [.start 0 name entry args]
  globals := globals
  nextSerial := 1

/-- What the world outside of the code may do: the answers of functions that are only
declared and the contents of fresh slots. -/
structure Surroundings where
  answers : String → List Value → Value → Prop
  contents : Ty → Value → Prop

inductive Step (module : Module) (surroundings : Surroundings) : State → State → Prop
  | goes {state next : State} (event : state.next module = .ok (.goes next)) :
      Step module surroundings state next
  | answered {state : State} {callee : String} {args : List Value}
      {resume : Value → State} {value : Value}
      (event : state.next module = .ok (.calls callee args resume))
      (answer : surroundings.answers callee args value) :
      Step module surroundings state (resume value)
  | reserved {state : State} {ty : Ty} {resume : Value → State} {value : Value}
      (event : state.next module = .ok (.reserves ty resume))
      (content : surroundings.contents ty value) :
      Step module surroundings state (resume value)

/-- `last` is reached from `first` in any number of steps. -/
abbrev Run (module : Module) (surroundings : Surroundings) : State → State → Prop :=
  Relation.ReflTransGen (Step module surroundings)

end ScriptLowering.Code
