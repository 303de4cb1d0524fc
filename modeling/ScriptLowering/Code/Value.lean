/-!
# Values of the code

The types that code computes with, the constants that stand in it, and the operands of its
instructions. An address is a value like any other; what is stored behind it is not part
of its type.
-/

namespace ScriptLowering.Code

/-! ## Types -/

/-- A pointer is a raw address. A handle is an object that is managed outside the code, so
that the code only passes it around. -/
inductive Ty where
  | void
  | bool
  | int (bits : UInt16)
  | ptr
  | handle (name : String)
  deriving DecidableEq, Repr, Inhabited

namespace Ty

def i32 : Ty := int 32

def i64 : Ty := int 64

def isVoid : Ty → Bool
  | void => true
  | _ => false

/-- A truth value counts as an integer of one bit. -/
def isInteger : Ty → Bool
  | bool | int _ => true
  | _ => false

def isArithmetic : Ty → Bool
  | int _ => true
  | _ => false

/-- The types that have a null value. -/
def isPointerLike : Ty → Bool
  | ptr | handle _ => true
  | _ => false

def width : Ty → UInt16
  | void => 0
  | bool => 1
  | int bits => bits
  | ptr | handle _ => 64

def text : Ty → String
  | void => "void"
  | bool => "i1"
  | int bits => "i" ++ bits.toNat.repr
  | ptr => "ptr"
  | handle name => "handle<" ++ name ++ ">"

end Ty

/-! ## Constants -/

/-- The width of an integer constant is its type and does not bound its value. -/
inductive Constant where
  | bool (value : Bool)
  | int (value : Int64) (bits : UInt16)
  | null
  deriving DecidableEq, Repr, Inhabited

namespace Constant

/-- The value that storage of a type holds at first. -/
def zero? : Ty → Option Constant
  | .bool => some (.bool false)
  | .int bits => some (.int 0 bits)
  | .ptr | .handle _ => some .null
  | .void => none

/-- The type of a constant; `null` takes the type that its place asks for. -/
def ty? : Constant → Option Ty
  | .bool _ => some .bool
  | .int _ bits => some (.int bits)
  | .null => none

def isZero : Constant → Bool
  | .bool value => !value
  | .int value _ => value == 0
  | .null => true

/-- Whether the constant may stand where a value of type `ty` is asked for. -/
def fits (constant : Constant) (ty : Ty) : Bool :=
  match constant.ty? with
  | some own => own = ty
  | none => ty.isPointerLike

def text : Constant → String
  | .bool true => "true"
  | .bool false => "false"
  | .int value _ => value.toInt.repr
  | .null => "null"

theorem fits_zero? {ty : Ty} {constant : Constant} (found : zero? ty = some constant) :
    constant.fits ty = true := by
  cases ty <;> simp only [zero?, Option.some.injEq, reduceCtorEq] at found <;>
    cases found <;> simp [fits, ty?, Ty.isPointerLike]

end Constant

/-! ## Operands -/

structure BlockId where
  number : UInt32
  deriving DecidableEq, Repr, Inhabited

structure TempId where
  number : UInt32
  deriving DecidableEq, Repr, Inhabited

structure ParamId where
  number : UInt32
  deriving DecidableEq, Repr, Inhabited

structure GlobalId where
  number : UInt32
  deriving DecidableEq, Repr, Inhabited

structure DataId where
  number : UInt32
  deriving DecidableEq, Repr, Inhabited

def BlockId.text (id : BlockId) : String := "block" ++ id.number.toNat.repr

def TempId.text (id : TempId) : String := "v" ++ id.number.toNat.repr

def ParamId.text (id : ParamId) : String := "p" ++ id.number.toNat.repr

def GlobalId.text (id : GlobalId) : String := "g" ++ id.number.toNat.repr

def DataId.text (id : DataId) : String := "d" ++ id.number.toNat.repr

/-- A global stands for its address, and so does a data object. -/
inductive Operand where
  | temp (id : TempId)
  | param (id : ParamId)
  | global (id : GlobalId)
  | data (id : DataId)
  | constant (value : Constant)
  deriving DecidableEq, Repr, Inhabited

namespace Operand

def ofBool (value : Bool) : Operand := .constant (.bool value)

def ofInt64 (value : Int64) : Operand := .constant (.int value 64)

def asTemp? : Operand → Option TempId
  | .temp id => some id
  | _ => none

def asConstant? : Operand → Option Constant
  | .constant value => some value
  | _ => none

def isConstant (operand : Operand) : Bool := operand.asConstant?.isSome

def text : Operand → String
  | .temp id => id.text
  | .param id => id.text
  | .global id => id.text
  | .data id => id.text
  | .constant value => value.text

end Operand

end ScriptLowering.Code
