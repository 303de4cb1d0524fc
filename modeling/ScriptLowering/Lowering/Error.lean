import ScriptLowering.Code.Pipeline
import ScriptLowering.Source.Basic

/-!
# Failures of lowering

Lowering stops at the first failure. Most failures are faults of the program: an annotation
that contradicts another, or a reference to a node that does not exist.
-/

namespace ScriptLowering.Lowering

open Source (StmtId ExprId VarId FuncId UnaryOp BinaryOp)

/-- A program that is not resolved properly. -/
inductive ProgramFault where
  | missingStmt (id : StmtId)
  | missingExpr (id : ExprId)
  | missingVar (id : VarId)
  | missingFunction (id : FuncId)
  | functionTwice (name : String)
  | voidVariable (name : String)
  | literalNotConstant (name : String)
  | noValue (id : ExprId)
  | targetNotIdentifier (id : ExprId)
  | loweredTwice (id : ExprId)
  | storageTwice (id : VarId)
  | loopTwice (id : StmtId)
  | beforeDeclaration (id : VarId)
  | notEnclosing (id : StmtId)
  /-- Following the references of the program does not end. -/
  | endless
  deriving DecidableEq, Repr

def ProgramFault.reason : ProgramFault → String
  | missingStmt id => id.text ++ " not in module"
  | missingExpr id => id.text ++ " not in module"
  | missingVar id => id.text ++ " not in module"
  | missingFunction id => id.text ++ " not in module"
  | functionTwice name => "function " ++ name ++ " declared twice"
  | voidVariable name => "variable " ++ name ++ " declared with void type"
  | literalNotConstant name => "literal initializer of " ++ name ++ " is not a constant"
  | noValue id => id.text ++ " has no value but one is required"
  | targetNotIdentifier id => "assignment target " ++ id.text ++ " is not an identifier"
  | loweredTwice id => id.text ++ " lowered twice"
  | storageTwice id => id.text ++ " given storage twice"
  | loopTwice id => "loop " ++ id.text ++ " lowered twice"
  | beforeDeclaration id => id.text ++ " used before its declaration"
  | notEnclosing id => id.text ++ " is not an enclosing loop"
  | endless => "the program refers to itself without end"

inductive Error where
  | undefinedFunction (name : String)
  | arityMismatch (callee : String) (expected found : Nat)
  | unsupportedUnary (op : UnaryOp)
  | unsupportedBinary (op : BinaryOp) (ty : Source.Ty)
  | rejected (rejection : Code.Rejection)
  | build (error : Code.BuildError)
  | program (fault : ProgramFault)
  | pipeline (error : Code.PipelineError)
  deriving DecidableEq, Repr

def Error.message : Error → String
  | undefinedFunction name => "Undefined function: " ++ name
  | arityMismatch callee expected found =>
      "Argument count mismatch calling " ++ callee ++ ": expected " ++ expected.repr ++
        ", found " ++ found.repr
  | unsupportedUnary op => "Unsupported unary operator: " ++ op.symbol
  | unsupportedBinary op ty => "Unsupported binary operator " ++ op.symbol ++ " on " ++ ty.name
  | rejected rejection => rejection.message
  | build error => "IR builder error: " ++ error.message
  | program fault => "Internal error: " ++ fault.reason
  | pipeline error => "Pass pipeline failed: " ++ error.message

end ScriptLowering.Lowering
