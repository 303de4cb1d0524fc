import ScriptLowering.Lowering.Branching
import ScriptLowering.Lowering.Options

/-!
# Lowering declarations and statements

Variables of the top level become globals and all others become stack slots. Parameters
are copied into slots of their own, so that a variable is an address wherever it comes
from.
-/

namespace ScriptLowering.Lowering

open Source (Program StmtId VarId FuncId VarDecl FunctionDecl)
open Code (Constant Cursor Operand Position)

variable (program : Program) (options : Options) (finish : String → Lower Unit)

/-! ## Variables -/

/-- The initial value of a global. A string has to be made when the program runs, so a
string global starts as `null`; otherwise a literal is the initial value, and any other
initialiser is computed later and leaves the zero of its type. -/
def globalInitial (decl : VarDecl) (isLiteral : Bool) (value : Option Operand) :
    Except ProgramFault Constant :=
  if decl.ty = .string then .ok .null
  else if isLiteral then
    match value.bind Operand.asConstant? with
    | some constant => .ok constant
    | none => .error (.literalNotConstant decl.name)
  else .ok ((Constant.zero? (codeType decl.ty)).getD .null)

def isLiteralInitial (decl : VarDecl) : Bool :=
  match decl.initial.bind program.expr? with
  | some expr => expr.isLiteral
  | none => false

def lowerInitial (decl : VarDecl) : Lower (Option Operand) :=
  match decl.initial with
  | some expr => some <$> lowerValue program expr
  | none => return none

/-- An initial value that is not in the global itself is stored where the declaration
stands. -/
def lowerGlobal (id : VarId) (decl : VarDecl) (value : Option Operand) : Lower Unit := do
  let isLiteral := isLiteralInitial program decl
  let initial ← Lower.consult fun _ => globalInitial decl isLiteral value
  let global ← Lower.buildWith fun cursor =>
    let (global, module) := cursor.module.addGlobal decl.name (codeType decl.ty) initial
      (alignment decl.ty)
    .ok (global, { cursor with module := module })
  match value with
  | some value =>
      if decl.ty = .string ∨ ¬ isLiteral then
        Lower.append fun cursor => cursor.store (.global global) value
  | none => pure ()
  Lower.annotate fun annotations => annotations.setStorage id (.global global)

def lowerLocal (id : VarId) (decl : VarDecl) (value : Option Operand) : Lower Unit := do
  let slot ← Lower.emit fun cursor => cursor.alloca (codeType decl.ty) (alignment decl.ty)
  match value with
  | some value => Lower.append fun cursor => cursor.store slot value
  | none => pure ()
  Lower.annotate fun annotations => annotations.setStorage id slot

def lowerVarDecl (id : VarId) : Lower Unit := do
  let decl ← Lower.orFault (program.var? id) (.missingVar id)
  if decl.ty = .void then Lower.fault (.voidVariable decl.name)
  else
    let value ← lowerInitial program decl
    match decl.scope with
    | .topLevel => lowerGlobal program id decl value
    | .local => lowerLocal id decl value

/-! ## Functions -/

/-- Drop what was never laid out, and verify the function if that is asked for. -/
def finishFunction (name : String) : Lower Unit := do
  let _ ← Lower.buildWith fun cursor => cursor.finalize name
  if options.verifyFunctions then
    let module := (← Lower.cursor).module
    match module.function? name with
    | some function =>
        match module.verifyFunction function with
        | .ok () => return ()
        | .error rejection => Lower.fail (.rejected rejection)
    | none => Lower.fail (.build (.functionMissing name))

def openFunction (name : String) : Lower Unit := do
  Lower.moveCursor fun cursor => cursor.setPosition (.inFunction name)
  let entry ← createBlock "entry"
  Lower.build fun cursor => cursor.appendBlock entry
  Lower.moveCursor fun cursor => cursor.positionAtEnd name entry

def lowerParam (id : VarId) (index : Nat) : Lower Unit := do
  let decl ← Lower.orFault (program.var? id) (.missingVar id)
  let slot ← Lower.emit fun cursor => cursor.alloca (codeType decl.ty) (alignment decl.ty)
  Lower.append fun cursor => cursor.store slot (.param ⟨index.toUInt32⟩)
  Lower.annotate fun annotations => annotations.setStorage id slot

def returnIfLive (value : Option Operand) : Lower Unit := do
  if (← Lower.cursor).isLive then
    Lower.append fun cursor => cursor.ret value

/-- Lower a function into its declaration, `finish` it and go back to where the cursor was. A
function that returns nothing may end without a `return`. -/
def lowerFunctionDecl (lower : StmtId → Lower Unit) (id : FuncId) : Lower Unit := do
  let decl ← Lower.orFault (program.function? id) (.missingFunction id)
  let saved := (← Lower.cursor).position
  openFunction decl.name
  decl.params.zipIdx.forM fun (param, index) => lowerParam program param index
  lower decl.body
  if decl.returnsNothing then returnIfLive none
  finish decl.name
  Lower.moveCursor fun cursor => cursor.setPosition saved

/-! ## Statements -/

def lowerNodeOf (lower : StmtId → Lower Unit) (id : StmtId) : Source.Stmt → Lower Unit
  | .expr expr => do let _ ← lowerExpr program expr
  | .compound stmts => stmts.forM lower
  | .varDecl vars => vars.forM (lowerVarDecl program)
  | .functionDecl func => lowerFunctionDecl program finish lower func
  | .ifThenElse condition thenBody elseBody =>
      lowerIf program lower condition thenBody elseBody
  | .whileLoop condition body => lowerWhile program lower id condition body
  | .forLoop initial condition updates body =>
      lowerFor program lower id initial condition updates body
  | .continueLoop target => lowerContinue target
  | .breakLoop target => lowerBreak target
  | .returnValue value => lowerReturn program value

def lowerStmtWithin : (depth : Nat) → StmtId → Lower Unit
  | 0, _ => Lower.fault .endless
  | depth + 1, id => do
      let stmt ← Lower.orFault (program.stmt? id) (.missingStmt id)
      lowerNodeOf program finish (lowerStmtWithin depth) id stmt

/-- As for expressions, a circle of references is followed at most twice. -/
def stmtDepth : Nat := 2 * program.nodeCount + 2

def lowerStmt (id : StmtId) : Lower Unit :=
  lowerStmtWithin program finish (stmtDepth program) id

end ScriptLowering.Lowering
