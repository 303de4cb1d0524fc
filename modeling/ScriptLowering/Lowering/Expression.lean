import ScriptLowering.Lowering.Operator
import ScriptLowering.Lowering.Session
import ScriptLowering.Lowering.Storage

/-!
# Lowering expressions

An expression is lowered into the block at the cursor and leaves the cursor there. Its
operands are lowered from left to right. The value it denotes is recorded, so that an
expression that the program reaches twice is noticed.

Expressions refer to one another by index, and nothing keeps these references from going
round in circles. `lowerExprWithin` therefore follows them only to a given depth, and
`lowerExpr` gives it a depth that a program without circles cannot exceed.
-/

namespace ScriptLowering.Lowering

open Source (Program Expr ExprId UnaryOp BinaryOp)
open Code (Operand Constant Cursor Instruction)

variable (program : Program)

/-! ## Single forms

`lower` lowers an operand that has to have a value. -/

/-- A string literal becomes data and a call that makes a string of it. -/
def lowerStringLiteral (text : String) : Lower Operand := do
  let data ← Lower.buildWith fun cursor =>
    let (data, module) := cursor.module.addText text
    .ok (data, { cursor with module := module })
  Lower.emit fun cursor => cursor.define StringLibrary.stringType fun result =>
    .call (some result) StringLibrary.create [.data data]

/-- Reading a variable loads from its storage. -/
def lowerIdentifier (decl : Source.VarId) : Lower Operand := do
  let var ← Lower.orFault (program.var? decl) (.missingVar decl)
  let address ← Lower.consult fun annotations => annotations.storageOf decl
  Lower.emit fun cursor => cursor.load (codeType var.ty) address

/-- The callee and the number of arguments are checked before any argument is lowered. -/
def lowerCall (lower : ExprId → Lower Operand) (callee : String) (args : List ExprId) :
    Lower (Option Operand) := do
  match (← Lower.cursor).module.function? callee with
  | none => Lower.fail (.undefinedFunction callee)
  | some function =>
      if function.arity = args.length then
        let values ← args.mapM lower
        Lower.emit fun cursor => cursor.call callee function.signature.returns values
      else Lower.fail (.arityMismatch callee function.arity args.length)

/-- Of the unary operators only the negation of integers is supported. -/
def lowerUnary (lower : ExprId → Lower Operand) (op : UnaryOp) (operand : ExprId) :
    Lower Operand := do
  let expr ← Lower.orFault (program.expr? operand) (.missingExpr operand)
  if op = .minus ∧ expr.ty = .integer then
    let value ← lower operand
    Lower.emit fun cursor => cursor.negate value .i64
  else Lower.fail (.unsupportedUnary op)

/-- The left side of an assignment is an address and is not read. The value of the
assignment is the value that it stores. -/
def lowerAssignment (lower : ExprId → Lower Operand) (left right : ExprId) :
    Lower Operand := do
  let target ← Lower.orFault (program.expr? left) (.missingExpr left)
  match target.node with
  | .identifier _ decl =>
      let value ← lower right
      let address ← Lower.consult fun annotations => annotations.storageOf decl
      Lower.append fun cursor => cursor.store address value
      return value
  | _ => Lower.fault (.targetNotIdentifier left)

def emitOperation (left right : Operand) : Operation → Lower Operand
  | .arith op => Lower.emit fun cursor => cursor.arith op left right .i64
  | .compare condition => Lower.emit fun cursor => cursor.compare condition left right
  | .concat =>
      Lower.emit fun cursor => cursor.define StringLibrary.stringType fun result =>
        .call (some result) StringLibrary.concat [left, right]
  | .compareStrings condition => do
      let order ← Lower.emit fun cursor =>
        cursor.define StringLibrary.orderingType fun result =>
          .call (some result) StringLibrary.equals [left, right]
      let zero : Operand := .constant (.int 0 StringLibrary.orderingType.width)
      Lower.emit fun cursor => cursor.compare condition order zero

def lowerBinary (lower : ExprId → Lower Operand) (op : BinaryOp) (left right : ExprId) :
    Lower Operand :=
  if op = .assign then lowerAssignment program lower left right
  else do
    let expr ← Lower.orFault (program.expr? left) (.missingExpr left)
    match operation? op expr.ty with
    | none => Lower.fail (.unsupportedBinary op expr.ty)
    | some operation =>
        let leftValue ← lower left
        let rightValue ← lower right
        emitOperation leftValue rightValue operation

/-- The value of an expression whose operands are lowered by `lower`. Only a call of a
function that returns nothing has none. -/
def lowerNode (lower : ExprId → Lower Operand) :
    Source.ExprNode → Lower (Option Operand)
  | .booleanLiteral value => return some (.ofBool value)
  | .integerLiteral value => return some (.ofInt64 value)
  | .stringLiteral text => some <$> lowerStringLiteral text
  | .identifier _ decl => some <$> lowerIdentifier program decl
  | .call callee args => lowerCall lower callee args
  | .unary op operand => some <$> lowerUnary program lower op operand
  | .binary op left right => some <$> lowerBinary program lower op left right

/-! ## Expressions -/

def requireValue (id : ExprId) (value : Option Operand) : Lower Operand :=
  Lower.orFault value (.noValue id)

def recordValue (id : ExprId) : Option Operand → Lower Unit
  | none => return ()
  | some value => Lower.annotate fun annotations => annotations.setValue id value

def lowerExprWithin : (depth : Nat) → ExprId → Lower (Option Operand)
  | 0, _ => Lower.fault .endless
  | depth + 1, id => do
      let expr ← Lower.orFault (program.expr? id) (.missingExpr id)
      let value ← lowerNode program (fun operand => do
        requireValue operand (← lowerExprWithin depth operand)) expr.node
      recordValue id value
      return value

/-- A circle of references is followed at most twice before some expression on it turns out
to be lowered already, so twice the number of expressions is deep enough. -/
def exprDepth : Nat := 2 * program.exprs.size + 2

def lowerExpr (id : ExprId) : Lower (Option Operand) :=
  lowerExprWithin program (exprDepth program) id

def lowerValue (id : ExprId) : Lower Operand := do
  requireValue id (← lowerExpr program id)

end ScriptLowering.Lowering
