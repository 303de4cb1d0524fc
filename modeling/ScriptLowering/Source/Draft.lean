import ScriptLowering.Source.Basic
import ScriptLowering.Table

/-!
# Drafting programs

A draft builds a program node by node and annotates the nodes as resolution would: an
identifier gets the name and the type of its variable, a call the result type of its
function, and an operator the type that follows from its operands.

A loop whose body leaves or resumes it is drafted in two steps. `beginLoop` takes a number
for it, so that the jumps can name it, and `finishWhile` or `finishFor` fill it in.
-/

namespace ScriptLowering.Source

structure Draft where
  program : Program
  /-- The result types of the functions that have been declared. -/
  returnTypes : Table String Ty

/-- A function that has been declared and has no body yet. -/
structure PendingFunction where
  name : String
  params : List VarId
  returns : Option Ty
  deriving DecidableEq, Repr

namespace Draft

def start (filename : String) : Draft := ⟨.empty filename, .empty⟩

/-! ## Arenas -/

def pushExpr (draft : Draft) (node : ExprNode) (ty : Ty) : ExprId × Draft :=
  (⟨draft.program.exprs.size.toUInt32⟩,
    { draft with program :=
      { draft.program with exprs := draft.program.exprs.push ⟨node, ty⟩ } })

def pushStmt (draft : Draft) (stmt : Stmt) : StmtId × Draft :=
  (⟨draft.program.stmts.size.toUInt32⟩,
    { draft with program :=
      { draft.program with stmts := draft.program.stmts.push stmt } })

def pushVar (draft : Draft) (decl : VarDecl) : VarId × Draft :=
  (⟨draft.program.vars.size.toUInt32⟩,
    { draft with program := { draft.program with vars := draft.program.vars.push decl } })

def pushFunction (draft : Draft) (decl : FunctionDecl) : FuncId × Draft :=
  (⟨draft.program.functions.size.toUInt32⟩,
    { draft with program :=
      { draft.program with functions := draft.program.functions.push decl } })

/-- Put a statement where another stands; a number without a statement is left alone. -/
def replaceStmt (draft : Draft) (id : StmtId) (stmt : Stmt) : StmtId × Draft :=
  (id, { draft with program :=
    { draft.program with stmts := draft.program.stmts.setIfInBounds id.index stmt } })

/-- The type of an expression; an unknown expression counts as `void`. -/
def typeOf (draft : Draft) (id : ExprId) : Ty :=
  match draft.program.expr? id with
  | some expr => expr.ty
  | none => .void

/-! ## Expressions -/

def boolean (draft : Draft) (value : Bool) : ExprId × Draft :=
  draft.pushExpr (.booleanLiteral value) .boolean

def integer (draft : Draft) (value : Int64) : ExprId × Draft :=
  draft.pushExpr (.integerLiteral value) .integer

def string (draft : Draft) (value : String) : ExprId × Draft :=
  draft.pushExpr (.stringLiteral value) .string

/-- An unknown variable has no name and the type `void`. -/
def identifier (draft : Draft) (decl : VarId) : ExprId × Draft :=
  match draft.program.var? decl with
  | some var => draft.pushExpr (.identifier var.name decl) var.ty
  | none => draft.pushExpr (.identifier "" decl) .void

/-- A call of a function that has not been declared has the type `void`. -/
def call (draft : Draft) (callee : String) (args : List ExprId) : ExprId × Draft :=
  draft.pushExpr (.call callee args) ((draft.returnTypes.get? callee).getD .void)

def unary (draft : Draft) (op : UnaryOp) (operand : ExprId) : ExprId × Draft :=
  draft.pushExpr (.unary op operand) (if op = .not then .boolean else draft.typeOf operand)

def binary (draft : Draft) (op : BinaryOp) (left right : ExprId) : ExprId × Draft :=
  draft.pushExpr (.binary op left right)
    (if op.isLogical then .boolean else draft.typeOf left)

def assign (draft : Draft) (var : VarId) (value : ExprId) : ExprId × Draft :=
  let (target, draft) := draft.identifier var
  draft.binary .assign target value

/-! ## Declarations -/

def varDecl (draft : Draft) (scope : Scope) (name : String) (ty : Ty)
    (initial : Option ExprId) : (VarId × StmtId) × Draft :=
  let (var, draft) := draft.pushVar { name, ty, initial, scope, kind := .ordinary }
  let (stmt, draft) := draft.pushStmt (.varDecl [var])
  ((var, stmt), draft)

def pushParams (draft : Draft) : List (String × Ty) → List VarId × Draft
  | [] => ([], draft)
  | (name, ty) :: rest =>
      let (var, draft) :=
        draft.pushVar { name, ty, initial := none, scope := .local, kind := .parameter }
      let (vars, draft) := draft.pushParams rest
      (var :: vars, draft)

/-- Declare a function, so that calls of it have a type before it has a body. -/
def declareFunction (draft : Draft) (name : String) (params : List (String × Ty))
    (returns : Option Ty) : PendingFunction × Draft :=
  let (params, draft) := draft.pushParams params
  (⟨name, params, returns⟩,
    { draft with returnTypes := draft.returnTypes.insert name (returns.getD .void) })

/-! ## Statements -/

def item (draft : Draft) (stmt : StmtId) : StmtId × Draft :=
  (stmt, { draft with program :=
    { draft.program with items := draft.program.items ++ [stmt] } })

def exprStmt (draft : Draft) (expr : ExprId) : StmtId × Draft := draft.pushStmt (.expr expr)

def compound (draft : Draft) (stmts : List StmtId) : StmtId × Draft :=
  draft.pushStmt (.compound stmts)

/-- Give a declared function its body; the result is its declaration statement. -/
def defineFunction (draft : Draft) (pending : PendingFunction) (body : List StmtId) :
    StmtId × Draft :=
  let (body, draft) := draft.compound body
  let (func, draft) := draft.pushFunction ⟨pending.name, pending.params, pending.returns, body⟩
  draft.pushStmt (.functionDecl func)

def ifThenElse (draft : Draft) (condition : ExprId) (thenBody : StmtId)
    (elseBody : Option StmtId) : StmtId × Draft :=
  draft.pushStmt (.ifThenElse condition thenBody elseBody)

/-- Take a number for a loop; until it is filled in, an empty compound stands there. -/
def beginLoop (draft : Draft) : StmtId × Draft := draft.compound []

def finishWhile (draft : Draft) (id : StmtId) (condition : ExprId) (body : StmtId) :
    StmtId × Draft :=
  draft.replaceStmt id (.whileLoop condition body)

def finishFor (draft : Draft) (id : StmtId) (initial : ForInit) (condition : Option ExprId)
    (updates : List ExprId) (body : StmtId) : StmtId × Draft :=
  draft.replaceStmt id (.forLoop initial condition updates body)

def whileLoop (draft : Draft) (condition : ExprId) (body : StmtId) : StmtId × Draft :=
  let (id, draft) := draft.beginLoop
  draft.finishWhile id condition body

def forLoop (draft : Draft) (initial : ForInit) (condition : Option ExprId)
    (updates : List ExprId) (body : StmtId) : StmtId × Draft :=
  let (id, draft) := draft.beginLoop
  draft.finishFor id initial condition updates body

def breakLoop (draft : Draft) (target : StmtId) : StmtId × Draft :=
  draft.pushStmt (.breakLoop target)

def continueLoop (draft : Draft) (target : StmtId) : StmtId × Draft :=
  draft.pushStmt (.continueLoop target)

def returnValue (draft : Draft) (value : Option ExprId) : StmtId × Draft :=
  draft.pushStmt (.returnValue value)

end Draft

end ScriptLowering.Source
