import ScriptLowering.Proofs.LoopExits
import ScriptLowering.Proofs.LearningSteps
import ScriptLowering.Proofs.Resolution

/-! # Scopes

A variable of the top level can be seen everywhere, a parameter in the whole body of its function, and
any other variable from its declaration to the end of the statement around it. What can be seen at each
node is computed along the way of lowering, so that it can be tested whether a program keeps to its
scopes. Nothing is said about types.
-/

namespace ScriptLowering.Lowering

open Source (Program ExprId ForInit FuncId Stmt StmtId VarDecl VarId)

variable (program : Program)

/-! ## Sights -/

/-- The nodes, with the local variables that can be seen at them. -/
def sightsAt (locals : List VarId) (nodes : List Node) : List (List VarId × Node) :=
  nodes.map fun node => (locals, node)

/-- A variable can be seen by those that are declared after it. -/
def sightsOfVars (locals : List VarId) : List VarId → List (List VarId × Node)
  | [] => []
  | var :: rest =>
      sightsAt locals (walkVar program var) ++ sightsOfVars (localsOf program [var] ++ locals) rest

/-- The local variables that a statement declares for what follows it. -/
def localsBehind (id : StmtId) : List VarId :=
  ((program.stmt? id).map (declares program)).getD []

section Parts

variable (see : List VarId → StmtId → List (List VarId × Node))

/-- One statement after another, each behind the declarations before it. -/
def sightsInTurn (locals : List VarId) : List StmtId → List (List VarId × Node)
  | [] => []
  | head :: tail => see locals head ++ sightsInTurn (localsBehind program head ++ locals) tail

def sightsOfInit (locals : List VarId) : ForInit → List (List VarId × Node)
  | .decl stmt => see locals stmt
  | .exprs exprs => sightsAt locals (exprs.flatMap (walkExpr program))

/-- `see` lists the sights in a statement inside the one at hand. -/
def sightsOf (locals : List VarId) : Stmt → List (List VarId × Node)
  | .expr expr => sightsAt locals (walkExpr program expr)
  | .compound stmts => sightsInTurn program see locals stmts
  | .varDecl vars => sightsOfVars program locals vars
  | .functionDecl func =>
      (program.function? func).toList.flatMap fun decl => see decl.params decl.body
  | .ifThenElse condition thenBody elseBody =>
      sightsAt locals (walkExpr program condition) ++
        (see locals thenBody ++ elseBody.toList.flatMap (see locals))
  | .whileLoop condition body =>
      sightsAt locals (walkExpr program condition) ++ see locals body
  | .forLoop initial condition updates body =>
      let inner := initialDeclares program initial ++ locals
      sightsOfInit program see locals initial ++
        (sightsAt inner (condition.toList.flatMap (walkExpr program)) ++
          (see inner body ++ sightsAt inner (updates.flatMap (walkExpr program))))
  | .continueLoop _ | .breakLoop _ => []
  | .returnValue value => sightsAt locals (value.toList.flatMap (walkExpr program))

end Parts

def sightsWithin : (depth : Nat) → List VarId → StmtId → List (List VarId × Node)
  | 0, _, _ => []
  | depth + 1, locals, id =>
      match program.stmt? id with
      | some stmt => sightsOf program (sightsWithin depth) locals stmt
      | none => []

/-- All that can be seen, in the order of lowering. -/
def sightsIn : List (List VarId × Node) :=
  sightsInTurn program (sightsWithin program (stmtDepth program)) [] program.items

/-! ## Programs that keep to their scopes -/

/-- The variables that the nodes use can be seen there. -/
def Scoped (sights : List (List VarId × Node)) : Prop :=
  ∀ locals node id, (locals, node) ∈ sights → node.uses? program = some id →
    InScope program locals id

def Node.param? : Node → Option VarId
  | .param id => some id
  | .stmt _ | .expr _ | .var _ | .function _ => none

/-- Variables are used in their scopes, jumps stay inside of the loops that they name, and
parameters are local. -/
structure KeepsScopes : Prop where
  uses : Scoped program (sightsIn program)
  jumps : Enclosed program (occurrencesIn program)
  params : ∀ id decl, .param id ∈ walkProgram program → program.var? id = some decl →
    decl.scope = .local

variable {program}

theorem scoped_iff {sights : List (List VarId × Node)} : Scoped program sights ↔
    ∀ sight ∈ sights, ∀ id ∈ sight.2.uses? program, InScope program sight.1 id :=
  ⟨fun inScope sight member id uses => inScope sight.1 sight.2 id member uses,
    fun all locals node id member uses => all (locals, node) member id uses⟩

theorem inScope_iff {locals : List VarId} {id : VarId} : InScope program locals id ↔
    id ∈ locals ∨ (program.var? id).map VarDecl.scope = some .topLevel :=
  or_congr_right Option.map_eq_some_iff.symm

instance (locals : List VarId) (id : VarId) : Decidable (InScope program locals id) :=
  decidable_of_iff _ inScope_iff.symm

instance (sights : List (List VarId × Node)) : Decidable (Scoped program sights) :=
  decidable_of_iff _ scoped_iff.symm

theorem keepsScopes_iff : KeepsScopes program ↔ Scoped program (sightsIn program) ∧
    Enclosed program (occurrencesIn program) ∧ ∀ node ∈ walkProgram program, ∀ id ∈ node.param?,
      ∀ decl ∈ program.var? id, decl.scope = .local := by
  constructor
  · intro keeps
    refine ⟨keeps.uses, keeps.jumps, fun node member id isParam decl found => ?_⟩
    cases node with
    | param other =>
        cases isParam
        exact keeps.params id decl member found
    | stmt | expr | var | function => cases isParam
  · rintro ⟨uses, jumps, params⟩
    exact ⟨uses, jumps, fun id decl member found => params _ member id rfl decl found⟩

instance : Decidable (KeepsScopes program) :=
  decidable_of_iff _ keepsScopes_iff.symm

/-! ## Sights of parts -/

theorem Scoped.mono {sights fewer : List (List VarId × Node)} (inScope : Scoped program sights)
    (subset : fewer ⊆ sights) : Scoped program fewer :=
  fun locals node id member => inScope locals node id (subset member)

theorem scoped_append {first second : List (List VarId × Node)} :
    Scoped program (first ++ second) ↔ Scoped program first ∧ Scoped program second := by
  simp only [scoped_iff, List.forall_mem_append]

theorem Scoped.first {see : List VarId → StmtId → List (List VarId × Node)} {locals : List VarId}
    {first second : List StmtId}
    (inScope : Scoped program (sightsInTurn program see locals (first ++ second))) :
    Scoped program (sightsInTurn program see locals first) := by
  induction first generalizing locals with
  | nil => exact fun _ _ _ member => by cases member
  | cons head tail induction =>
      rw [List.cons_append, sightsInTurn, scoped_append] at inScope
      rw [sightsInTurn, scoped_append]
      exact ⟨inScope.1, induction inScope.2⟩

theorem sightsWithin_eq {depth : Nat} {locals : List VarId} {id : StmtId} {stmt : Stmt}
    (found : program.stmt? id = some stmt) : sightsWithin program (depth + 1) locals id =
      sightsOf program (sightsWithin program depth) locals stmt := by
  simp only [sightsWithin, found]

theorem localsBehind_eq {id : StmtId} {stmt : Stmt} (found : program.stmt? id = some stmt) :
    localsBehind program id = declares program stmt := by
  simp only [localsBehind, found, Option.map_some, Option.getD_some]

theorem localsOf_cons (var : VarId) (vars : List VarId) :
    localsOf program (var :: vars) = localsOf program [var] ++ localsOf program vars :=
  List.filter_append [var] vars

def SeesAll (program : Program) (locals : List VarId) (nodes : List Node) : Prop :=
  ∀ id ∈ usesOf program nodes, InScope program locals id

theorem SeesAll.mono {locals : List VarId} {nodes fewer : List Node}
    (sees : SeesAll program locals nodes) (within : fewer ⊆ nodes) : SeesAll program locals fewer := by
  intro id member
  rcases List.mem_filterMap.mp member with ⟨node, isNode, uses⟩
  exact sees id (List.mem_filterMap.mpr ⟨node, within isNode, uses⟩)

theorem Scoped.seesAll {locals : List VarId} {nodes : List Node}
    (inScope : Scoped program (sightsAt locals nodes)) : SeesAll program locals nodes := by
  intro id member
  rcases List.mem_filterMap.mp member with ⟨node, isNode, uses⟩
  exact inScope locals node id (List.mem_map_of_mem isNode) uses

end ScriptLowering.Lowering
