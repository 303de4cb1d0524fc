import ScriptLowering.Lowering.Program

/-! # The way of lowering through a program

The nodes that lowering comes to, in the order in which it comes to them. A node that is
referred to more than once is listed as often. The left side of an assignment is not listed:
it is looked at and not lowered. A variable is listed behind its initial value, which is where
it gets its storage.
-/

namespace ScriptLowering.Lowering

open Source (Program ExprNode ExprId Stmt StmtId VarId FuncId ForInit FunctionDecl)

inductive Node where
  | stmt (id : StmtId)
  | expr (id : ExprId)
  | var (id : VarId)
  | param (id : VarId)
  | function (id : FuncId)
  deriving DecidableEq, Repr

/-- The expressions that are lowered as part of another one. -/
def operandsOf : ExprNode → List ExprId
  | .booleanLiteral _ | .integerLiteral _ | .stringLiteral _ | .identifier _ _ => []
  | .call _ args => args
  | .unary _ operand => [operand]
  | .binary op left right => if op = .assign then [right] else [left, right]

variable (program : Program)

def walkExprWithin : (depth : Nat) → ExprId → List Node
  | 0, _ => []
  | depth + 1, id =>
      .expr id :: match program.expr? id with
        | some expr => (operandsOf expr.node).flatMap (walkExprWithin depth)
        | none => []

def walkExpr (id : ExprId) : List Node := walkExprWithin program (exprDepth program) id

def walkVar (id : VarId) : List Node :=
  match program.var? id with
  | some decl => decl.initial.toList.flatMap (walkExpr program) ++ [.var id]
  | none => [.var id]

def walkForInit (walk : StmtId → List Node) : ForInit → List Node
  | .decl stmt => walk stmt
  | .exprs exprs => exprs.flatMap (walkExpr program)

def walkFunction (walk : StmtId → List Node) (id : FuncId) : List Node :=
  .function id :: match program.function? id with
    | some decl => decl.params.map .param ++ walk decl.body
    | none => []

/-- `walk` lists the nodes of a statement inside the one at hand. -/
def walkNodeOf (walk : StmtId → List Node) : Stmt → List Node
  | .expr expr => walkExpr program expr
  | .compound stmts => stmts.flatMap walk
  | .varDecl vars => vars.flatMap (walkVar program)
  | .functionDecl func => walkFunction program walk func
  | .ifThenElse condition thenBody elseBody =>
      walkExpr program condition ++ (walk thenBody ++ elseBody.toList.flatMap walk)
  | .whileLoop condition body => walkExpr program condition ++ walk body
  | .forLoop initial condition updates body =>
      walkForInit program walk initial ++ (condition.toList.flatMap (walkExpr program) ++
        (walk body ++ updates.flatMap (walkExpr program)))
  | .continueLoop _ | .breakLoop _ => []
  | .returnValue value => value.toList.flatMap (walkExpr program)

def walkStmtWithin : (depth : Nat) → StmtId → List Node
  | 0, _ => []
  | depth + 1, id =>
      .stmt id :: match program.stmt? id with
        | some stmt => walkNodeOf program (walkStmtWithin depth) stmt
        | none => []

def walkStmt (id : StmtId) : List Node := walkStmtWithin program (stmtDepth program) id

/-- All nodes that lowering comes to. -/
def walkProgram : List Node := program.items.flatMap (walkStmt program)

/-! ## Functions on the way -/

def Node.function? : Node → Option FuncId
  | .function id => some id
  | _ => none

def functionsOf (nodes : List Node) : List FuncId := nodes.filterMap Node.function?

@[simp] theorem functionsOf_nil : functionsOf [] = [] := rfl

@[simp] theorem functionsOf_append (first second : List Node) :
    functionsOf (first ++ second) = functionsOf first ++ functionsOf second :=
  List.filterMap_append

@[simp] theorem functionsOf_cons (node : Node) (nodes : List Node) :
    functionsOf (node :: nodes) = node.function?.toList ++ functionsOf nodes := by
  cases node <;> rfl

theorem functionsOf_flatMap {α : Type} (walk : α → List Node) (items : List α) :
    functionsOf (items.flatMap walk) = items.flatMap fun item => functionsOf (walk item) := by
  induction items with
  | nil => rfl
  | cons head tail induction => simp [induction]

theorem exists_expr_of_mem_walkExprWithin {depth : Nat} {id : ExprId} {node : Node}
    (member : node ∈ walkExprWithin program depth id) : ∃ expr, node = .expr expr := by
  induction depth generalizing id with
  | zero => cases member
  | succ depth induction =>
      cases member with
      | head => exact ⟨id, rfl⟩
      | tail _ inside =>
          split at inside
          · rcases List.mem_flatMap.mp inside with ⟨operand, _, inOperand⟩
            exact induction inOperand
          · cases inside

@[simp] theorem functionsOf_walkExprWithin (depth : Nat) (id : ExprId) :
    functionsOf (walkExprWithin program depth id) = [] := by
  refine List.filterMap_eq_nil_iff.mpr fun node member => ?_
  rcases exists_expr_of_mem_walkExprWithin program member with ⟨_, rfl⟩
  rfl

@[simp] theorem functionsOf_walkExpr (id : ExprId) :
    functionsOf (walkExpr program id) = [] :=
  functionsOf_walkExprWithin program _ id

/-! ## The demand for numbers

Blocks, temps, data and globals are numbered. Lists of statements and of declarations lead to other
nodes and take no numbers themselves. -/

/-- The statement has blocks or jumps of its own. -/
def isControl : Stmt → Bool
  | .expr _ | .compound _ | .varDecl _ | .functionDecl _ => false
  | .ifThenElse _ _ _ | .whileLoop _ _ | .forLoop _ _ _ _ | .continueLoop _ | .breakLoop _
  | .returnValue _ => true

def Node.takesNumbers : Node → Bool
  | .stmt id => (program.stmt? id).any isControl
  | .expr _ | .var _ | .param _ | .function _ => true

def demand (nodes : List Node) : Nat := nodes.countP (Node.takesNumbers program)

@[simp] theorem demand_nil : demand program [] = 0 := rfl

@[simp] theorem demand_append (first second : List Node) :
    demand program (first ++ second) = demand program first + demand program second :=
  List.countP_append

theorem demand_le_length (nodes : List Node) : demand program nodes ≤ nodes.length :=
  List.countP_le_length

/-- A statement takes less numbers itself than eight. -/
theorem demand_stmt_le {id : StmtId} {stmt : Stmt} (known : program.stmt? id = some stmt)
    (nodes : List Node) : 8 * demand program nodes + (if isControl stmt then 5 else 0) ≤
      8 * demand program (.stmt id :: nodes) := by
  simp only [demand, List.countP_cons, Node.takesNumbers, known, Option.any_some]
  split <;> omega

@[simp] theorem demand_function (id : FuncId) (nodes : List Node) :
    demand program (.function id :: nodes) = demand program nodes + 1 :=
  List.countP_cons_of_pos rfl

@[simp] theorem demand_params (params : List VarId) :
    demand program (params.map .param) = params.length := by
  simp [demand, List.countP_map, Function.comp_def, Node.takesNumbers]

@[simp] theorem demand_walkExpr (id : ExprId) :
    demand program (walkExpr program id) = (walkExpr program id).length := by
  refine List.countP_eq_length.mpr fun node member => ?_
  rcases exists_expr_of_mem_walkExprWithin program member with ⟨_, rfl⟩
  rfl

@[simp] theorem demand_walkExprs (ids : List ExprId) :
    demand program (ids.flatMap (walkExpr program)) = (ids.flatMap (walkExpr program)).length := by
  induction ids with
  | nil => rfl
  | cons id ids induction => simp only [List.flatMap_cons, demand_append, demand_walkExpr,
      induction, List.length_append]

@[simp] theorem demand_walkVars (vars : List VarId) :
    demand program (vars.flatMap (walkVar program)) = (vars.flatMap (walkVar program)).length := by
  refine List.countP_eq_length.mpr fun node member => ?_
  rcases List.mem_flatMap.mp member with ⟨var, _, inside⟩
  unfold walkVar at inside
  split at inside
  · rcases List.mem_append.mp inside with inside | inside
    · rcases List.mem_flatMap.mp inside with ⟨expr, _, inside⟩
      rcases exists_expr_of_mem_walkExprWithin program inside with ⟨_, rfl⟩
      rfl
    · cases List.mem_singleton.mp inside
      rfl
  · cases List.mem_singleton.mp inside
    rfl

/-! ## Programs with other statements

What is lowered of an expression, and what is walked of it, is looked up in the tables of
expressions, variables and functions. -/

/-- The programs differ in their statements and items at most. -/
structure SameButStmts (program other : Program) : Prop where
  exprs : other.exprs = program.exprs
  vars : other.vars = program.vars
  functions : other.functions = program.functions

namespace SameButStmts

variable {program} {other : Program} (same : SameButStmts program other)

include same

theorem lowerExpr_eq : lowerExpr other = lowerExpr program := by
  rcases program with ⟨filename, items, stmts, _, _, _⟩
  rcases other with ⟨otherFilename, otherItems, otherStmts, exprs, vars, functions⟩
  rcases same with ⟨rfl, rfl, rfl⟩
  have within (depth : Nat) :
      lowerExprWithin ⟨otherFilename, otherItems, otherStmts, exprs, vars, functions⟩ depth =
        lowerExprWithin ⟨filename, items, stmts, exprs, vars, functions⟩ depth := by
    induction depth with
    | zero => rfl
    | succ depth induction =>
        funext id
        unfold lowerExprWithin
        rw [induction]
        rfl
  funext id
  exact congrFun (within _) id

theorem lowerValue_eq : lowerValue other = lowerValue program := by
  funext id
  unfold lowerValue
  rw [same.lowerExpr_eq]

theorem lowerVarDecl_eq : lowerVarDecl other = lowerVarDecl program := by
  have looks : other.expr? = program.expr? := by
    funext id
    simp only [Program.expr?, same.exprs]
  have literals (decl : Source.VarDecl) :
      isLiteralInitial other decl = isLiteralInitial program decl := by
    rw [isLiteralInitial, isLiteralInitial, looks]
  funext id
  simp only [lowerVarDecl, lowerInitial, lowerGlobal, Program.var?, same.vars, same.lowerValue_eq,
    literals]

theorem lowerNodeOf_eq (finish : String → Lower Unit) (lower : StmtId → Lower Unit) (id : StmtId)
    (stmt : Stmt) : lowerNodeOf other finish lower id stmt = lowerNodeOf program finish lower id stmt := by
  have exprs := same.lowerExpr_eq
  have values := same.lowerValue_eq
  cases stmt with
  | functionDecl func =>
      simp only [lowerNodeOf, lowerFunctionDecl, lowerParam, Program.function?, Program.var?,
        same.functions, same.vars]
  | forLoop initial condition updates body =>
      cases initial <;> cases condition <;>
        simp only [lowerNodeOf, lowerFor, lowerForInit, lowerForCondition, lowerForUpdates, exprs,
          values]
  | expr | compound | varDecl | ifThenElse | whileLoop | continueLoop | breakLoop | returnValue =>
      simp only [lowerNodeOf, lowerIf, lowerWhile, lowerReturn, exprs, values, same.lowerVarDecl_eq]

theorem walkExpr_eq : walkExpr other = walkExpr program := by
  have within (depth : Nat) : walkExprWithin other depth = walkExprWithin program depth := by
    induction depth with
    | zero => rfl
    | succ depth induction =>
        funext id
        simp only [walkExprWithin, Program.expr?, same.exprs, induction]
  funext id
  rw [walkExpr, walkExpr, within, exprDepth, exprDepth, same.exprs]

theorem walkVar_eq : walkVar other = walkVar program := by
  funext id
  simp only [walkVar, Program.var?, same.vars, same.walkExpr_eq]

theorem walkNodeOf_eq (walk : StmtId → List Node) (stmt : Stmt) :
    walkNodeOf other walk stmt = walkNodeOf program walk stmt := by
  cases stmt with
  | functionDecl func => simp only [walkNodeOf, walkFunction, Program.function?, same.functions]
  | forLoop initial => cases initial <;> simp only [walkNodeOf, walkForInit, same.walkExpr_eq]
  | expr | compound | varDecl | ifThenElse | whileLoop | continueLoop | breakLoop | returnValue =>
      simp only [walkNodeOf, same.walkExpr_eq, same.walkVar_eq]

end SameButStmts

end ScriptLowering.Lowering
