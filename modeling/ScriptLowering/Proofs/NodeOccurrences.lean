import Mathlib.Tactic.Common
import ScriptLowering.Proofs.LoweringWalk

/-! # References in a program

A `break` or `continue` is supposed to name a loop around it, and a local variable is supposed
to be used in the function that declares it. To say this of a program whose nodes may refer to
each other at will, each node is taken where lowering comes to it.
-/

namespace ScriptLowering.Lowering

open Source (Program ExprId ExprNode ForInit FuncId Stmt StmtId VarDecl VarId)

/-! ## Occurrences

The way of lowering through a program again, with what stands around each node. -/

/-- The function that a node belongs to, if it is not the entry function, and the loops around
it in that function, innermost first. -/
structure Setting where
  function : Option FuncId
  loops : List StmtId
  deriving DecidableEq, Repr

namespace Setting

def top : Setting := ⟨none, []⟩

def inFunction (id : FuncId) : Setting := ⟨some id, []⟩

def inLoop (setting : Setting) (id : StmtId) : Setting :=
  { setting with loops := id :: setting.loops }

/-- The nodes occur in the setting. -/
def occurrences (setting : Setting) (nodes : List Node) : List (Setting × Node) :=
  nodes.map fun node => (setting, node)

end Setting

variable (program : Program)

def occurrencesOfInit (walk : StmtId → List (Setting × Node)) (setting : Setting) :
    ForInit → List (Setting × Node)
  | .decl stmt => walk stmt
  | .exprs exprs => setting.occurrences (exprs.flatMap (walkExpr program))

def occurrencesOfFunction (walk : Setting → StmtId → List (Setting × Node)) (id : FuncId) :
    List (Setting × Node) :=
  match program.function? id with
  | some decl =>
      (Setting.inFunction id).occurrences (decl.params.map .param) ++
        walk (.inFunction id) decl.body
  | none => []

/-- `walk` lists what occurs in a statement inside the one at hand, which is `id`. The first part
of a `for` is not yet inside the loop. -/
def occurrencesOf (walk : Setting → StmtId → List (Setting × Node)) (setting : Setting)
    (id : StmtId) : Stmt → List (Setting × Node)
  | .expr expr => setting.occurrences (walkExpr program expr)
  | .compound stmts => stmts.flatMap (walk setting)
  | .varDecl vars => setting.occurrences (vars.flatMap (walkVar program))
  | .functionDecl func => (setting, .function func) :: occurrencesOfFunction program walk func
  | .ifThenElse condition thenBody elseBody =>
      setting.occurrences (walkExpr program condition) ++
        (walk setting thenBody ++ elseBody.toList.flatMap (walk setting))
  | .whileLoop condition body =>
      (setting.inLoop id).occurrences (walkExpr program condition) ++
        walk (setting.inLoop id) body
  | .forLoop initial condition updates body =>
      occurrencesOfInit program (walk setting) setting initial ++
        ((setting.inLoop id).occurrences (condition.toList.flatMap (walkExpr program)) ++
          (walk (setting.inLoop id) body ++
            (setting.inLoop id).occurrences (updates.flatMap (walkExpr program))))
  | .continueLoop _ | .breakLoop _ => []
  | .returnValue value => setting.occurrences (value.toList.flatMap (walkExpr program))

def occurrencesWithin : (depth : Nat) → Setting → StmtId → List (Setting × Node)
  | 0, _, _ => []
  | depth + 1, setting, id =>
      (setting, .stmt id) :: match program.stmt? id with
        | some stmt => occurrencesOf program (occurrencesWithin depth) setting id stmt
        | none => []

/-- All that lowering comes to, in order. -/
def occurrencesIn : List (Setting × Node) :=
  program.items.flatMap (occurrencesWithin program (stmtDepth program) .top)

/-! ## References -/

/-- The loop that a statement leaves or continues. -/
def jumpTarget? : Stmt → Option StmtId
  | .continueLoop target | .breakLoop target => some target
  | _ => none

def isLoop : Stmt → Bool
  | .whileLoop _ _ | .forLoop _ _ _ _ => true
  | _ => false

/-- The variable that an expression reads, or writes as the target of an assignment. -/
def usedVar? : ExprNode → Option VarId
  | .identifier _ decl => some decl
  | .binary .assign left _ =>
      match (program.expr? left).map Source.Expr.node with
      | some (.identifier _ decl) => some decl
      | _ => none
  | _ => none

def Node.jumpsTo? : Node → Option StmtId
  | .stmt id => (program.stmt? id).bind jumpTarget?
  | _ => none

def Node.uses? : Node → Option VarId
  | .expr id => (program.expr? id).bind fun expr => usedVar? program expr.node
  | _ => none

/-- Among the occurrences there is the loop. -/
def HasLoop (before : List (Setting × Node)) (id : StmtId) : Prop :=
  (∃ setting, (setting, Node.stmt id) ∈ before) ∧
    ∃ stmt, program.stmt? id = some stmt ∧ isLoop stmt = true

/-- Among the occurrences there is the declaration of the variable, in the given setting. -/
def DeclaresIn (before : List (Setting × Node)) (setting : Setting) (id : VarId) : Prop :=
  (setting, Node.var id) ∈ before ∨ (setting, Node.param id) ∈ before

/-- Jumps stay inside of the loop that they name, and local variables are used behind their
declaration in the same function. -/
structure HasProperReferences : Prop where
  jumps : ∀ before setting node after target,
    occurrencesIn program = before ++ (setting, node) :: after →
    node.jumpsTo? program = some target → target ∈ setting.loops
  uses : ∀ before setting node after id decl,
    occurrencesIn program = before ++ (setting, node) :: after →
    node.uses? program = some id → program.var? id = some decl → decl.scope = .local →
    ∃ declaring, DeclaresIn before declaring id ∧ declaring.function = setting.function

/-- A jump names a loop that has been left, or one of another function, or a local variable is
used that has been declared only in other functions. -/
inductive HasStaleReference : Prop
  | jump {before after : List (Setting × Node)} {setting : Setting} {node : Node}
      {target : StmtId} (occurs : occurrencesIn program = before ++ (setting, node) :: after)
      (jumps : node.jumpsTo? program = some target) (begun : HasLoop program before target)
      (outside : target ∉ setting.loops)
  | use {before after : List (Setting × Node)} {setting declaring : Setting} {node : Node}
      {id : VarId} {decl : VarDecl}
      (occurs : occurrencesIn program = before ++ (setting, node) :: after)
      (uses : node.uses? program = some id) (known : program.var? id = some decl)
      (isLocal : decl.scope = .local) (declared : DeclaresIn before declaring id)
      (elsewhere : ∀ other, DeclaresIn before other id → other.function ≠ setting.function)

/-! ## Grounded references -/

/-- What the node refers to has been come to before. -/
structure Node.Grounded (before : List (Setting × Node)) (node : Node) : Prop where
  jumps : ∀ target, node.jumpsTo? program = some target → HasLoop program before target
  uses : ∀ id, node.uses? program = some id → ∃ setting, DeclaresIn before setting id

/-- What the nodes refer to has been come to before them. -/
def Grounded : List (Setting × Node) → List (Setting × Node) → Prop
  | _, [] => True
  | before, first :: rest =>
      first.2.Grounded program before ∧ Grounded (before ++ [first]) rest

variable {program}

theorem jumpTarget?_of_isLoop {stmt : Stmt} (loops : isLoop stmt = true) :
    jumpTarget? stmt = none := by
  cases stmt with
  | whileLoop condition body => rfl
  | forLoop initial condition updates body => rfl
  | _ => cases loops

theorem HasLoop.mono {before more : List (Setting × Node)} {id : StmtId}
    (begun : HasLoop program before id) (within : before ⊆ more) : HasLoop program more id := by
  rcases begun with ⟨⟨setting, member⟩, rest⟩
  exact ⟨⟨setting, within member⟩, rest⟩

theorem DeclaresIn.mono {before more : List (Setting × Node)} {setting : Setting} {id : VarId}
    (declared : DeclaresIn before setting id) (within : before ⊆ more) :
    DeclaresIn more setting id := by
  cases declared with
  | inl member => exact .inl (within member)
  | inr member => exact .inr (within member)

theorem Node.Grounded.mono {before more : List (Setting × Node)} {node : Node}
    (grounded : node.Grounded program before) (within : before ⊆ more) :
    node.Grounded program more where
  jumps := fun target jumps => (grounded.jumps target jumps).mono within
  uses := by
    intro id uses
    rcases grounded.uses id uses with ⟨setting, declared⟩
    exact ⟨setting, declared.mono within⟩

theorem grounded_append {before first second : List (Setting × Node)} :
    Grounded program before (first ++ second) ↔
      Grounded program before first ∧ Grounded program (before ++ first) second := by
  induction first generalizing before with
  | nil => simp [Grounded]
  | cons head rest induction =>
      simp only [List.cons_append, Grounded, induction, and_assoc, List.append_assoc,
        List.nil_append]

theorem grounded_of_all {before occurring : List (Setting × Node)}
    (all : ∀ pair ∈ occurring, pair.2.Grounded program before) :
    Grounded program before occurring := by
  induction occurring generalizing before with
  | nil => trivial
  | cons head rest induction =>
      refine ⟨all head (by simp), induction fun pair member => ?_⟩
      exact (all pair (by simp [member])).mono (List.subset_append_left _ _)

theorem Grounded.node {occurring : List (Setting × Node)} (grounded : Grounded program [] occurring)
    {before after : List (Setting × Node)} {setting : Setting} {node : Node}
    (occurs : occurring = before ++ (setting, node) :: after) :
    node.Grounded program before := by
  rw [occurs, grounded_append] at grounded
  exact grounded.2.1

end ScriptLowering.Lowering
