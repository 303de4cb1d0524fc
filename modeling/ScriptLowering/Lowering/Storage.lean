import ScriptLowering.Lowering.StringLibrary
import ScriptLowering.Source.Basic

/-!
# How source types are stored
-/

namespace ScriptLowering.Lowering

def codeType : Source.Ty → Code.Ty
  | .void => .void
  | .boolean => .bool
  | .integer => .i64
  | .string => StringLibrary.stringType

/-- A function without a declared result returns nothing. -/
def returnType (ty : Option Source.Ty) : Code.Ty := codeType (ty.getD .void)

def alignment : Source.Ty → UInt32
  | .boolean => 1
  | _ => 8

end ScriptLowering.Lowering
