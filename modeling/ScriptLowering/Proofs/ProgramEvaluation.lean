import ScriptLowering.Proofs.LoweringWalk

/-! # What programs mean

A program is evaluated on its nodes, without any code. Operands are evaluated from left to
right. A variable of the top level that is initialised by a truth value or a number holds it from
the start; every other initial value is stored where the declaration stands. A local declaration
makes its variable anew each time it is executed.

Evaluation is bounded by an amount of fuel, which loops and calls use up. What a program does is
what it does with enough of it.
-/

namespace ScriptLowering.Source

open Lowering (Node operandsOf walkProgram)

/-! ## Data -/

/-- A string is known by a number to the library that manages strings, or it is null. -/
inductive Datum where
  | truth (value : Bool)
  | number (value : Int64)
  | text (handle : Option Nat)
  deriving DecidableEq, Repr

def Datum.hasType : Datum → Ty → Bool
  | .truth _, .boolean => true
  | .number _, .integer => true
  | .text _, .string => true
  | _, _ => false

/-- What a variable of the top level holds before anything is stored in it. -/
def Datum.zero : Ty → Datum
  | .boolean => .truth false
  | .integer => .number 0
  | .string | .void => .text none

/-- What a program does not decide itself: how strings are made, joined and compared, and what a
local variable holds before anything is stored in it. -/
structure Library where
  /-- A string from its bytes and a zero byte behind them. -/
  create : List UInt8 → Option Nat
  concat : Option Nat → Option Nat → Option Nat
  /-- Zero for equal strings. -/
  compare : Option Nat → Option Nat → Int32
  fresh : Ty → Datum
  hasType_fresh : ∀ ty, ty ≠ .void → (fresh ty).hasType ty = true

/-! ## Evaluations -/

/-- Why an evaluation ends without a result. -/
inductive Halt where
  /-- Arithmetic has no result that can be represented. -/
  | trap
  /-- There is no fuel left. -/
  | unfinished
  /-- The program is not resolved properly. -/
  | meaningless
  deriving DecidableEq, Repr

/-- The variables of the top level, and the local variables of the running function. -/
structure Store where
  globals : VarId → Datum
  locals : VarId → Option Datum

def Store.setGlobal (store : Store) (id : VarId) (datum : Datum) : Store :=
  { store with globals := fun other => if id = other then datum else store.globals other }

def Store.setLocal (store : Store) (id : VarId) (datum : Datum) : Store :=
  { store with locals := fun other => if id = other then some datum else store.locals other }

abbrev Eval := StateT Store (Except Halt)

namespace Eval

def halt {α : Type} (reason : Halt) : Eval α := fun _ => .error reason

/-- What a program that is resolved properly has. -/
def known {α : Type} : Option α → Eval α
  | some value => pure value
  | none => halt .meaningless

def truth : Datum → Eval Bool
  | .truth value => pure value
  | _ => halt .meaningless

/-- The number if it can be represented. -/
def checked (value : Int) : Eval Datum :=
  if Int64.minValue.toInt ≤ value ∧ value ≤ Int64.maxValue.toInt then
    pure (.number (.ofInt value))
  else halt .trap

def setGlobal (id : VarId) (datum : Datum) : Eval Unit := fun store =>
  .ok ((), store.setGlobal id datum)

def setLocal (id : VarId) (datum : Datum) : Eval Unit := fun store =>
  .ok ((), store.setLocal id datum)

theorem map_eq_ok {α β : Type} {step : Eval α} {convert : α → β} {store after : Store}
    {value : α} (runs : step store = .ok (value, after)) :
    (convert <$> step) store = .ok (convert value, after) := by
  simp only [Functor.map, StateT.map, runs, bind, Except.bind, pure, Except.pure]

theorem map_eq_error {α β : Type} {step : Eval α} {convert : α → β} {store : Store} {halt : Halt}
    (fails : step store = .error halt) : (convert <$> step) store = .error halt := by
  simp only [Functor.map, StateT.map, fails, bind, Except.bind]

theorem bind_eq_ok {α β : Type} {step : Eval α} {rest : α → Eval β} {store after : Store}
    {value : α} (runs : step store = .ok (value, after)) :
    (step >>= rest) store = rest value after := by
  simp only [bind, StateT.bind, runs, Except.bind]

end Eval

open Eval

variable (program : Program) (library : Library)

/-! ## Variables and operators -/

def readVar (id : VarId) : Eval Datum := do
  match (← known (program.var? id)).scope with
  | .topLevel => return (← get).globals id
  | .local => known ((← get).locals id)

def writeVar (id : VarId) (datum : Datum) : Eval Unit := do
  match (← known (program.var? id)).scope with
  | .topLevel => setGlobal id datum
  | .local => setLocal id datum

theorem readVar_topLevel {id : VarId} {decl : VarDecl} (found : program.var? id = some decl)
    (topLevel : decl.scope = .topLevel) (store : Store) :
    readVar program id store = .ok (store.globals id, store) := by
  simp only [readVar, found, known, pure_bind, topLevel]
  rfl

theorem readVar_local {id : VarId} {decl : VarDecl} {datum : Datum} {store : Store}
    (found : program.var? id = some decl) (isLocal : decl.scope = .local)
    (holds : store.locals id = some datum) : readVar program id store = .ok (datum, store) := by
  simp only [readVar, found, known, pure_bind, isLocal]
  change known (store.locals id) store = _
  rw [holds]
  rfl

theorem writeVar_topLevel {id : VarId} {decl : VarDecl} (found : program.var? id = some decl)
    (topLevel : decl.scope = .topLevel) (datum : Datum) (store : Store) :
    writeVar program id datum store = .ok ((), store.setGlobal id datum) := by
  simp only [writeVar, found, known, pure_bind, topLevel]
  rfl

theorem writeVar_local {id : VarId} {decl : VarDecl} (found : program.var? id = some decl)
    (isLocal : decl.scope = .local) (datum : Datum) (store : Store) :
    writeVar program id datum store = .ok ((), store.setLocal id datum) := by
  simp only [writeVar, found, known, pure_bind, isLocal]
  rfl

/-- Division is rounded towards zero. -/
def operate : BinaryOp → Datum → Datum → Eval Datum
  | .plus, .number left, .number right => checked (left.toInt + right.toInt)
  | .minus, .number left, .number right => checked (left.toInt - right.toInt)
  | .multiply, .number left, .number right => checked (left.toInt * right.toInt)
  | .divide, .number left, .number right =>
      if right = 0 then halt .trap else checked (left.toInt.tdiv right.toInt)
  | .lessThan, .number left, .number right => return .truth (left < right)
  | .greaterThan, .number left, .number right => return .truth (right < left)
  | .lessThanEquals, .number left, .number right => return .truth (left ≤ right)
  | .greaterThanEquals, .number left, .number right => return .truth (right ≤ left)
  | .equals, .number left, .number right => return .truth (left = right)
  | .notEquals, .number left, .number right => return .truth (left ≠ right)
  | .equals, .truth left, .truth right => return .truth (left = right)
  | .notEquals, .truth left, .truth right => return .truth (left ≠ right)
  | .plus, .text left, .text right => return .text (library.concat left right)
  | .equals, .text left, .text right => return .truth (library.compare left right = 0)
  | .notEquals, .text left, .text right => return .truth (library.compare left right ≠ 0)
  | _, _, _ => halt .meaningless

/-! ## Expressions

`call` calls a function. -/

variable (call : FunctionDecl → List Datum → Eval (Option Datum))

def functionNamed? (name : String) : Option FunctionDecl :=
  program.functions.toList.find? fun decl => decl.name = name

/-- The value of an expression whose operands have the given values. -/
def evalNode : ExprNode → List Datum → Eval (Option Datum)
  | .booleanLiteral value, [] => return some (.truth value)
  | .integerLiteral value, [] => return some (.number value)
  | .stringLiteral text, [] => return some (.text (library.create (Code.Module.textBytes text)))
  | .identifier _ decl, [] => some <$> readVar program decl
  | .call callee _, args => do call (← known (functionNamed? program callee)) args
  | .unary .minus _, [.number value] => some <$> checked (-value.toInt)
  | .binary .assign left _, [value] => do
      match (← known (program.expr? left)).node with
      | .identifier _ decl =>
          writeVar program decl value
          return some value
      | _ => halt .meaningless
  | .binary op _ _, [left, right] => some <$> operate library op left right
  | _, _ => halt .meaningless

def evalExprWithin : (depth : Nat) → ExprId → Eval (Option Datum)
  | 0, _ => halt .meaningless
  | depth + 1, id => do
      let expr ← known (program.expr? id)
      let operands ← (operandsOf expr.node).mapM fun operand => do
        known (← evalExprWithin depth operand)
      evalNode program library call expr.node operands

def evalOperands (depth : Nat) (ids : List ExprId) : Eval (List Datum) :=
  ids.mapM fun operand => do known (← evalExprWithin program library call depth operand)

theorem evalOperands_cons (depth : Nat) (id : ExprId) (ids : List ExprId) :
    evalOperands program library call depth (id :: ids) = do
      let value ← evalExprWithin program library call depth id
      let datum ← known value
      return datum :: (← evalOperands program library call depth ids) := by
  simp only [evalOperands, List.mapM_cons, bind_assoc]

theorem evalExprWithin_succ {depth : Nat} {id : ExprId} {expr : Expr}
    (found : program.expr? id = some expr) :
    evalExprWithin program library call (depth + 1) id =
      evalOperands program library call depth (operandsOf expr.node) >>=
        evalNode program library call expr.node := by
  simp only [evalExprWithin, found, known, pure_bind]
  rfl

/-- More than the depth of any program whose references do not go round in circles. -/
def Program.depth : Nat := 2 * program.nodeCount + 2

def evalExpr (id : ExprId) : Eval (Option Datum) :=
  evalExprWithin program library call program.depth id

def evalValue (id : ExprId) : Eval Datum := do
  known (← evalExpr program library call id)

def evalCondition (id : ExprId) : Eval Bool := do
  truth (← evalValue program library call id)

def evalEach (ids : List ExprId) : Eval Unit :=
  ids.forM fun id => do let _ ← evalExpr program library call id

/-! ## Statements -/

/-- The truth value or number that a variable is initialised by. -/
def literal? (decl : VarDecl) : Option Datum :=
  match (decl.initial.bind program.expr?).map Expr.node with
  | some (.booleanLiteral value) => some (.truth value)
  | some (.integerLiteral value) => some (.number value)
  | _ => none

def evalInitial : Option ExprId → Eval (Option Datum)
  | some id => some <$> evalValue program library call id
  | none => return none

/-- Give a variable its initial value. -/
def startVar (id : VarId) (decl : VarDecl) : Option Datum → Eval Unit
  | some datum =>
      match decl.scope with
      | .topLevel => if (literal? program decl).isSome then return () else setGlobal id datum
      | .local => setLocal id datum
  | none =>
      match decl.scope with
      | .topLevel => return ()
      | .local => setLocal id (library.fresh decl.ty)

def evalVar (id : VarId) : Eval Unit := do
  let decl ← known (program.var? id)
  startVar program library id decl (← evalInitial program library call decl.initial)

theorem evalVar_eq {id : VarId} {decl : VarDecl} (found : program.var? id = some decl) :
    evalVar program library call id =
      evalInitial program library call decl.initial >>= startVar program library id decl := by
  simp only [evalVar, found, known, pure_bind]

inductive Flow where
  | normal
  | broke (target : StmtId)
  | continued (target : StmtId)
  | returned (value : Option Datum)
  deriving DecidableEq, Repr

/-- Whether the loop `id` goes on when its body ends in this way. -/
def Flow.resumes (id : StmtId) : Flow → Bool
  | .normal => true
  | .continued target => target = id
  | _ => false

/-- How the loop `id` ends when its body ends in this way. -/
def Flow.leaves (id : StmtId) (flow : Flow) : Flow :=
  if flow = .broke id then .normal else flow

def evalLoop (id : StmtId) (condition : Eval Bool) (body : Eval Flow) (update : Eval Unit) :
    (fuel : Nat) → Eval Flow
  | 0 => halt .unfinished
  | fuel + 1 => do
      if ← condition then
        let flow ← body
        if flow.resumes id then
          update
          evalLoop id condition body update fuel
        else return flow.leaves id
      else return .normal

/-- What comes next is done after a normal end only. -/
def Flow.andThen (rest : Eval Flow) : Flow → Eval Flow
  | .normal => rest
  | flow => return flow

def evalSequence (eval : StmtId → Eval Flow) : List StmtId → Eval Flow
  | [] => return .normal
  | stmt :: rest => do
      let flow ← eval stmt
      flow.andThen (evalSequence eval rest)

def evalForInit (eval : StmtId → Eval Flow) : ForInit → Eval Flow
  | .decl stmt => eval stmt
  | .exprs exprs => do
      evalEach program library call exprs
      return .normal

def evalForCondition : Option ExprId → Eval Bool
  | some condition => evalCondition program library call condition
  | none => return true

/-- `eval` evaluates a statement inside the one at hand, and `fuel` bounds the rounds of a loop. -/
def evalNodeOf (fuel : Nat) (eval : StmtId → Eval Flow) (id : StmtId) : Stmt → Eval Flow
  | .expr expr => do
      let _ ← evalExpr program library call expr
      return .normal
  | .compound stmts => evalSequence eval stmts
  | .varDecl vars => do
      vars.forM (evalVar program library call)
      return .normal
  | .functionDecl _ => return .normal
  | .ifThenElse condition thenBody elseBody => do
      if ← evalCondition program library call condition then eval thenBody
      else
        match elseBody with
        | some elseBody => eval elseBody
        | none => return .normal
  | .whileLoop condition body =>
      evalLoop id (evalCondition program library call condition) (eval body) (pure ()) fuel
  | .forLoop initial condition updates body => do
      let flow ← evalForInit program library call eval initial
      flow.andThen (evalLoop id (evalForCondition program library call condition) (eval body)
        (evalEach program library call updates) fuel)
  | .continueLoop target => return .continued target
  | .breakLoop target => return .broke target
  | .returnValue (some expr) => do
      return .returned (some (← evalValue program library call expr))
  | .returnValue none => return .returned none

def evalStmtWithin (fuel : Nat) : (depth : Nat) → StmtId → Eval Flow
  | 0, _ => halt .meaningless
  | depth + 1, id => do
      let stmt ← known (program.stmt? id)
      evalNodeOf program library call fuel (evalStmtWithin fuel depth) id stmt

/-! ## Functions and programs -/

/-- The parameters of a function hold its arguments. -/
def bindParams : List VarId → List Datum → VarId → Option Datum
  | param :: params, arg :: args => fun id =>
      if param = id then some arg else bindParams params args id
  | _, _ => fun _ => none

/-- What a function returns when its body ends in this way. -/
def Flow.result (decl : FunctionDecl) : Flow → Except Halt (Option Datum)
  | .returned value => .ok value
  | .normal => if decl.returnsNothing then .ok none else .error .meaningless
  | _ => .error .meaningless

/-- A function sees the variables of the top level and its own. -/
def runFunction : (fuel : Nat) → FunctionDecl → List Datum → Eval (Option Datum)
  | 0, _, _ => halt .unfinished
  | fuel + 1, decl, args => fun store => do
      let (flow, after) ← evalStmtWithin program library (runFunction fuel) (fuel + 1)
        program.depth decl.body ⟨store.globals, bindParams decl.params args⟩
      let value ← flow.result decl
      return (value, ⟨after.globals, store.locals⟩)

/-- What a variable of the top level holds at the start. -/
def initialDatum (id : VarId) : Datum :=
  match program.var? id with
  | some decl => (literal? program decl).getD (.zero decl.ty)
  | none => .text none

/-- What a program returns when its statements end in this way. -/
def Flow.exitValue : Flow → Except Halt Int64
  | .normal => .ok 0
  | .returned (some (.number value)) => .ok value
  | _ => .error .meaningless

def runProgram (fuel : Nat) : Except Halt (Int64 × Store) := do
  let (flow, store) ← evalSequence
    (evalStmtWithin program library (runFunction program library fuel) fuel program.depth)
    program.items ⟨initialDatum program, fun _ => none⟩
  return (← flow.exitValue, store)

/-! ## Outcomes -/

/-- The variable if it is one of the top level. -/
def global? : Node → Option (VarId × VarDecl)
  | .var id => (program.var? id).bind fun decl =>
      if decl.scope = .topLevel then some (id, decl) else none
  | _ => none

/-- The variables of the top level in the order of their declarations. -/
def globalVars : List (VarId × VarDecl) := (walkProgram program).filterMap (global? program)

/-- How a program ends: with a number and with what its variables of the top level hold, or by a
trap. -/
inductive Outcome where
  | finished (value : Int64) (globals : List (String × Datum))
  | trapped
  deriving DecidableEq, Repr

def outcome? (fuel : Nat) : Option Outcome :=
  match runProgram program library fuel with
  | .ok (value, store) =>
      some (.finished value ((globalVars program).map fun var =>
        (var.2.name, store.globals var.1)))
  | .error .trap => some .trapped
  | .error _ => none

def EndsWith (outcome : Outcome) : Prop := ∃ fuel, outcome? program library fuel = some outcome

end ScriptLowering.Source
