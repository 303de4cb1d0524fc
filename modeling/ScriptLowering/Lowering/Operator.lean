import ScriptLowering.Code.Instruction
import ScriptLowering.Source.Basic

/-!
# What operators become

The type of its left operand decides what a binary operator becomes. Integers and truth
values have instructions of their own; strings are handed to the string library.
-/

namespace ScriptLowering.Lowering

open Code (ArithOp Condition)
open Source (BinaryOp)

inductive Operation where
  | arith (op : ArithOp)
  | compare (condition : Condition)
  | concat
  | compareStrings (condition : Condition)
  deriving DecidableEq, Repr

/-- The operation behind an operator at a type, if there is one. -/
def operation? : BinaryOp → Source.Ty → Option Operation
  | .plus, .integer => some (.arith .add)
  | .plus, .string => some .concat
  | .minus, .integer => some (.arith .sub)
  | .multiply, .integer => some (.arith .mul)
  | .divide, .integer => some (.arith .div)
  | .lessThan, .integer => some (.compare .lessThan)
  | .greaterThan, .integer => some (.compare .greaterThan)
  | .lessThanEquals, .integer => some (.compare .lessThanOrEqual)
  | .greaterThanEquals, .integer => some (.compare .greaterThanOrEqual)
  | .equals, .integer | .equals, .boolean => some (.compare .equal)
  | .notEquals, .integer | .notEquals, .boolean => some (.compare .notEqual)
  | .equals, .string => some (.compareStrings .equal)
  | .notEquals, .string => some (.compareStrings .notEqual)
  | _, _ => none

end ScriptLowering.Lowering
