/-!
# Resolved programs

A program is what remains of a script once names, scopes and types have been resolved. Its
nodes live in four arenas and refer to one another by index. Every declaration knows its
scope, every expression its static type, every identifier its declaration, and every
`break` and `continue` the loop that it leaves or resumes.

Nothing in the type forces these annotations to be right or the references to form a tree;
lowering has to cope with any program.
-/

namespace ScriptLowering.Source

/-! ## Identifiers of nodes -/

structure StmtId where
  number : UInt32
  deriving DecidableEq, Repr, Inhabited

structure ExprId where
  number : UInt32
  deriving DecidableEq, Repr, Inhabited

structure VarId where
  number : UInt32
  deriving DecidableEq, Repr, Inhabited

structure FuncId where
  number : UInt32
  deriving DecidableEq, Repr, Inhabited

def StmtId.index (id : StmtId) : Nat := id.number.toNat

def ExprId.index (id : ExprId) : Nat := id.number.toNat

def VarId.index (id : VarId) : Nat := id.number.toNat

def FuncId.index (id : FuncId) : Nat := id.number.toNat

def StmtId.text (id : StmtId) : String := "stmt#" ++ id.index.repr

def ExprId.text (id : ExprId) : String := "expr#" ++ id.index.repr

def VarId.text (id : VarId) : String := "var#" ++ id.index.repr

def FuncId.text (id : FuncId) : String := "func#" ++ id.index.repr

/-! ## Types and declarations -/

/-- The static types of the language. -/
inductive Ty where
  | void
  | boolean
  | integer
  | string
  deriving DecidableEq, Repr, Inhabited

def Ty.name : Ty → String
  | .void => "void"
  | .boolean => "boolean"
  | .integer => "integer"
  | .string => "string"

/-- Where a declaration lives. -/
inductive Scope where
  | topLevel
  | local
  deriving DecidableEq, Repr, Inhabited

inductive VarKind where
  | ordinary
  | parameter
  deriving DecidableEq, Repr, Inhabited

structure VarDecl where
  name : String
  ty : Ty
  initial : Option ExprId
  scope : Scope
  kind : VarKind
  deriving DecidableEq, Repr

structure FunctionDecl where
  name : String
  params : List VarId
  /-- The declared result type, if there is one. -/
  returns : Option Ty
  body : StmtId
  deriving DecidableEq, Repr

/-- A function that declares no result, or the result `void`, returns nothing. -/
def FunctionDecl.returnsNothing (function : FunctionDecl) : Bool :=
  function.returns = none || function.returns = some .void

/-! ## Operators -/

inductive UnaryOp where
  | minus
  | plus
  | not
  | bitNot
  deriving DecidableEq, Repr, Inhabited

def UnaryOp.symbol : UnaryOp → String
  | .minus => "-"
  | .plus => "+"
  | .not => "!"
  | .bitNot => "~"

inductive BinaryOp where
  | assign
  | plus
  | minus
  | multiply
  | divide
  | modulus
  | shiftLeft
  | shiftRight
  | lessThan
  | greaterThan
  | lessThanEquals
  | greaterThanEquals
  | equals
  | notEquals
  | bitAnd
  | bitXor
  | bitOr
  | and
  | or
  | plusAssign
  | minusAssign
  | multiplyAssign
  | divideAssign
  deriving DecidableEq, Repr, Inhabited

namespace BinaryOp

def symbol : BinaryOp → String
  | assign => "="
  | plus => "+"
  | minus => "-"
  | multiply => "*"
  | divide => "/"
  | modulus => "%"
  | shiftLeft => "<<"
  | shiftRight => ">>"
  | lessThan => "<"
  | greaterThan => ">"
  | lessThanEquals => "<="
  | greaterThanEquals => ">="
  | equals => "=="
  | notEquals => "!="
  | bitAnd => "&"
  | bitXor => "^"
  | bitOr => "|"
  | and => "&&"
  | or => "||"
  | plusAssign => "+="
  | minusAssign => "-="
  | multiplyAssign => "*="
  | divideAssign => "/="

def isRelational : BinaryOp → Bool
  | lessThan | greaterThan | lessThanEquals | greaterThanEquals => true
  | _ => false

def isEquality : BinaryOp → Bool
  | equals | notEquals => true
  | _ => false

/-- The operators whose result is a truth value whatever their operands are. -/
def isLogical (op : BinaryOp) : Bool :=
  op.isRelational || op.isEquality || op = and || op = or

end BinaryOp

/-! ## Expressions and statements -/

inductive ExprNode where
  | booleanLiteral (value : Bool)
  | integerLiteral (value : Int64)
  | stringLiteral (value : String)
  | identifier (name : String) (decl : VarId)
  | call (callee : String) (args : List ExprId)
  | unary (op : UnaryOp) (operand : ExprId)
  | binary (op : BinaryOp) (left right : ExprId)
  deriving DecidableEq, Repr

structure Expr where
  node : ExprNode
  /-- The static type; `void` for a call that yields nothing. -/
  ty : Ty
  deriving DecidableEq, Repr

/-- Literals proper: a negated literal is a unary expression. -/
def Expr.isLiteral (expr : Expr) : Bool :=
  match expr.node with
  | .booleanLiteral _ | .integerLiteral _ | .stringLiteral _ => true
  | _ => false

/-- What a `for` statement does first. -/
inductive ForInit where
  | decl (stmt : StmtId)
  | exprs (exprs : List ExprId)
  deriving DecidableEq, Repr

inductive Stmt where
  | expr (expr : ExprId)
  | compound (stmts : List StmtId)
  | varDecl (vars : List VarId)
  | functionDecl (func : FuncId)
  | ifThenElse (condition : ExprId) (thenBody : StmtId) (elseBody : Option StmtId)
  | whileLoop (condition : ExprId) (body : StmtId)
  | forLoop (initial : ForInit) (condition : Option ExprId) (updates : List ExprId)
      (body : StmtId)
  | continueLoop (target : StmtId)
  | breakLoop (target : StmtId)
  | returnValue (value : Option ExprId)
  deriving DecidableEq, Repr

/-! ## Programs -/

structure Program where
  filename : String
  /-- The statements of the top level in source order, function declarations included. -/
  items : List StmtId
  stmts : Array Stmt
  exprs : Array Expr
  vars : Array VarDecl
  functions : Array FunctionDecl
  deriving DecidableEq, Repr

namespace Program

def empty (filename : String) : Program where
  filename := filename
  items := []
  stmts := #[]
  exprs := #[]
  vars := #[]
  functions := #[]

def stmt? (program : Program) (id : StmtId) : Option Stmt := program.stmts[id.index]?

def expr? (program : Program) (id : ExprId) : Option Expr := program.exprs[id.index]?

def var? (program : Program) (id : VarId) : Option VarDecl := program.vars[id.index]?

def function? (program : Program) (id : FuncId) : Option FunctionDecl :=
  program.functions[id.index]?

/-- How many nodes the arenas hold. A chain of references that visits no node twice is not
longer than this. -/
def nodeCount (program : Program) : Nat :=
  program.stmts.size + program.exprs.size + program.vars.size + program.functions.size

end Program

end ScriptLowering.Source
