import Mathlib.Logic.Relation
import ScriptLowering.Proofs.FaultlessLowering
import ScriptLowering.Proofs.VariableNames
import ScriptLowering.Proofs.WatchedRuns

/-! # Programs without circles

Nodes refer to their parts by index, and nothing but the references themselves tells whether following
them comes to an end. Lowering is told here once more without a bound on the depth, as relations that
relate nothing to a node whose parts go round in circles. In a program without circles every node is
related to just one step, which is the one that is taken.
-/

namespace ScriptLowering.Lowering

open Relation (ReflTransGen TransGen)
open Source (Program ExprId ExprNode ForInit FuncId Stmt StmtId VarId)
open Code (Operand)

variable {program : Program}

/-! ## Parts -/

/-- The expressions of a statement itself, and those that its variables start with. -/
def exprsOf (program : Program) : Stmt → List ExprId
  | .expr expr => [expr]
  | .varDecl vars => vars.flatMap fun id => ((program.var? id).bind (·.initial)).toList
  | .ifThenElse condition _ _ | .whileLoop condition _ => [condition]
  | .forLoop (.decl _) condition updates _ => condition.toList ++ updates
  | .forLoop (.exprs exprs) condition updates _ => exprs ++ (condition.toList ++ updates)
  | .returnValue value => value.toList
  | .compound _ | .functionDecl _ | .continueLoop _ | .breakLoop _ => []

/-- What a node consists of. The loop that a jump names, the declaration behind a name and the left side
of an assignment are looked up and not followed. -/
def partsOf (program : Program) : Node → List Node
  | .stmt id =>
      match program.stmt? id with
      | some stmt => (exprsOf program stmt).map .expr ++ (children program stmt).map .stmt
      | none => []
  | .expr id =>
      match program.expr? id with
      | some expr => (operandsOf expr.node).map .expr
      | none => []
  | .var _ | .param _ | .function _ => []

def HasPart (program : Program) (whole part : Node) : Prop := part ∈ partsOf program whole

/-- The node is an item of the program or a part of one, at any depth. -/
def Comprises (program : Program) (node : Node) : Prop :=
  ∃ item ∈ program.items, ReflTransGen (HasPart program) (.stmt item) node

/-- No node of the program is a part of itself, at any depth. Nothing is said of the order of the nodes,
of nodes that are parts of several others, nor of references that lead to no node. -/
def Acyclic (program : Program) : Prop :=
  ∀ node, Comprises program node → ¬ TransGen (HasPart program) node node

theorem hasPart_operand {id operand : ExprId} {expr : Source.Expr}
    (found : program.expr? id = some expr) (member : operand ∈ operandsOf expr.node) :
    HasPart program (.expr id) (.expr operand) := by
  simp only [HasPart, partsOf, found]
  exact List.mem_map_of_mem member

theorem hasPart_expr {id : StmtId} {expr : ExprId} {stmt : Stmt}
    (found : program.stmt? id = some stmt) (member : expr ∈ exprsOf program stmt) :
    HasPart program (.stmt id) (.expr expr) := by
  simp only [HasPart, partsOf, found]
  exact List.mem_append_left _ (List.mem_map_of_mem member)

theorem hasPart_child {id child : StmtId} {stmt : Stmt} (found : program.stmt? id = some stmt)
    (member : child ∈ children program stmt) : HasPart program (.stmt id) (.stmt child) := by
  simp only [HasPart, partsOf, found]
  exact List.mem_append_right _ (List.mem_map_of_mem member)

theorem Comprises.part {whole part : Node} (comprises : Comprises program whole)
    (hasPart : HasPart program whole part) : Comprises program part := by
  rcases comprises with ⟨item, isItem, path⟩
  exact ⟨item, isItem, path.tail hasPart⟩

/-- Where the nodes can be listed so that parts come first, there are no circles. -/
theorem acyclic_of_order {nodes : List Node} (items : ∀ item ∈ program.items, .stmt item ∈ nodes)
    (ordered : ∀ whole ∈ nodes, ∀ part ∈ partsOf program whole,
      nodes.idxOf part < nodes.idxOf whole) : Acyclic program := by
  have falls {whole part : Node} (listed : whole ∈ nodes) (hasPart : HasPart program whole part) :
      part ∈ nodes ∧ nodes.idxOf part < nodes.idxOf whole := by
    have earlier := ordered whole listed part hasPart
    exact ⟨List.idxOf_lt_length_iff.mp (earlier.trans (List.idxOf_lt_length_of_mem listed)), earlier⟩
  intro node comprises circle
  have listed : node ∈ nodes := by
    rcases comprises with ⟨item, isItem, path⟩
    clear circle
    induction path with
    | refl => exact items item isItem
    | tail _ hasPart induction => exact (falls induction hasPart).1
  have descends {part : Node} (path : TransGen (HasPart program) node part) :
      part ∈ nodes ∧ nodes.idxOf part < nodes.idxOf node := by
    induction path with
    | single hasPart => exact falls listed hasPart
    | tail _ hasPart induction =>
        have next := falls induction.1 hasPart
        exact ⟨next.1, next.2.trans induction.2⟩
  exact Nat.lt_irrefl _ (descends circle).2

/-! ## Coming down -/

/-- Lowering has come down to `node` through the nodes `above`, which are in the pool, and there is
enough depth left for all the others of the pool. -/
structure Descends (program : Program) (pool above : List Node) (depth : Nat) (node : Node) :
    Prop where
  deep : Deep pool above depth above
  distinct : above.Nodup
  leads : ∀ other ∈ above, TransGen (HasPart program) other node
  comprised : Comprises program node

namespace Descends

variable {pool above : List Node} {depth : Nat} {node : Node}

theorem start (comprised : Comprises program node) (enough : pool.length < depth) :
    Descends program pool [] depth node where
  deep := ⟨.refl _, by simp, by simpa using enough⟩
  distinct := .nil
  leads := by simp
  comprised := comprised

theorem not_bottom (descends : Descends program pool above 0 node) : False :=
  descends.deep.not_bottom descends.distinct

theorem down (acyclic : Acyclic program) (descends : Descends program pool above (depth + 1) node)
    (member : node ∈ pool) {part : Node} (hasPart : HasPart program node part) :
    Descends program pool (above ++ [node]) depth part where
  deep := descends.deep.down member
  distinct := by
    have fresh : node ∉ above := fun isAbove =>
      acyclic node descends.comprised (descends.leads node isAbove)
    exact descends.distinct.append (List.nodup_singleton node) (by simpa using fresh)
  leads := by
    intro other isAbove
    rcases List.mem_append.mp isAbove with old | new
    · exact (descends.leads other old).tail hasPart
    · rw [List.mem_singleton.mp new]
      exact .single hasPart
  comprised := descends.comprised.part hasPart

end Descends

/-! ## Lowering without a bound -/

/-- An expression whose operands are lowered by `lower`. -/
def lowerExprBy (program : Program) (lower : ExprId → Lower (Option Operand)) (id : ExprId) :
    Lower (Option Operand) := do
  let expr ← Lower.orFault (program.expr? id) (.missingExpr id)
  let value ← lowerNode program (fun operand => do requireValue operand (← lower operand)) expr.node
  recordValue id value
  return value

/-- A statement inside of which the statements are lowered by `lower`. -/
def lowerStmtBy (program : Program) (finish : String → Lower Unit) (lower : StmtId → Lower Unit)
    (id : StmtId) : Lower Unit := do
  let stmt ← Lower.orFault (program.stmt? id) (.missingStmt id)
  lowerNodeOf program finish lower id stmt

/-- Lowering an expression comes down to `step`, however deep its operands are. -/
inductive UnfoldsExpr (program : Program) : ExprId → Lower (Option Operand) → Prop
  | intro {id : ExprId} {lower : ExprId → Lower (Option Operand)}
      (operands : ∀ expr, program.expr? id = some expr → ∀ operand ∈ operandsOf expr.node,
        UnfoldsExpr program operand (lower operand)) :
      UnfoldsExpr program id (lowerExprBy program lower id)

/-- Lowering a statement comes down to `step`, however deep the statements inside of it are. -/
inductive UnfoldsStmt (program : Program) (finish : String → Lower Unit) :
    StmtId → Lower Unit → Prop
  | intro {id : StmtId} {lower : StmtId → Lower Unit}
      (inside : ∀ stmt, program.stmt? id = some stmt → ∀ child ∈ children program stmt,
        UnfoldsStmt program finish child (lower child)) :
      UnfoldsStmt program finish id (lowerStmtBy program finish lower id)

theorem mapM_congr_mem {α β : Type} {items : List α} {first second : α → Lower β}
    (same : ∀ item ∈ items, first item = second item) : items.mapM first = items.mapM second := by
  induction items with
  | nil => rfl
  | cons head tail induction =>
      rw [List.mapM_cons, List.mapM_cons, same head List.mem_cons_self,
        induction fun item member => same item (List.mem_cons_of_mem _ member)]

theorem forM_congr_mem {α : Type} {items : List α} {first second : α → Lower Unit}
    (same : ∀ item ∈ items, first item = second item) : items.forM first = items.forM second := by
  induction items with
  | nil => rfl
  | cons head tail induction =>
      rw [Lower.forM_cons, Lower.forM_cons, same head List.mem_cons_self,
        induction fun item member => same item (List.mem_cons_of_mem _ member)]

theorem lowerNode_congr {first second : ExprId → Lower Operand} {node : ExprNode}
    (same : ∀ operand ∈ operandsOf node, first operand = second operand) :
    lowerNode program first node = lowerNode program second node := by
  cases node with
  | call callee args =>
      have values : args.mapM first = args.mapM second := mapM_congr_mem same
      simp only [lowerNode, lowerCall, values]
  | unary op operand =>
      simp only [lowerNode, lowerUnary, same operand (List.mem_singleton_self _)]
  | binary op left right =>
      by_cases assigns : op = .assign
      · simp only [lowerNode, lowerBinary, if_pos assigns, lowerAssignment,
          same right (by simp [operandsOf, assigns])]
      · simp only [lowerNode, lowerBinary, if_neg assigns, same left (by simp [operandsOf, assigns]),
          same right (by simp [operandsOf, assigns])]
  | booleanLiteral | integerLiteral | stringLiteral | identifier => rfl

theorem lowerNodeOf_congr {finish : String → Lower Unit} {first second : StmtId → Lower Unit}
    {id : StmtId} {stmt : Stmt}
    (same : ∀ child ∈ children program stmt, first child = second child) :
    lowerNodeOf program finish first id stmt = lowerNodeOf program finish second id stmt := by
  cases stmt with
  | compound stmts => exact forM_congr_mem same
  | functionDecl func =>
      cases found : program.function? func with
      | none => simp only [lowerNodeOf, lowerFunctionDecl, found, Lower.orFault_none_bind]
      | some decl =>
          simp only [lowerNodeOf, lowerFunctionDecl, found, Lower.orFault_some_bind,
            same decl.body (by simp [children, found])]
  | ifThenElse condition thenBody elseBody =>
      have thenSame := same thenBody (by simp [children])
      cases elseBody with
      | none => simp only [lowerNodeOf, lowerIf, thenSame]
      | some elseBody =>
          simp only [lowerNodeOf, lowerIf, thenSame, same elseBody (by simp [children])]
  | whileLoop condition body =>
      simp only [lowerNodeOf, lowerWhile, same body (by simp [children])]
  | forLoop initial condition updates body =>
      cases initial with
      | decl stmt =>
          simp only [lowerNodeOf, lowerFor, lowerForInit, same stmt (by simp [children]),
            same body (by simp [children])]
      | exprs exprs =>
          simp only [lowerNodeOf, lowerFor, lowerForInit, same body (by simp [children])]
  | expr | varDecl | continueLoop | breakLoop | returnValue => rfl

theorem UnfoldsExpr.unique {id : ExprId} {first second : Lower (Option Operand)}
    (one : UnfoldsExpr program id first) (other : UnfoldsExpr program id second) :
    first = second := by
  induction one generalizing second with
  | @intro id lower _ induction =>
      cases other with
      | @intro _ otherLower otherOperands =>
          cases found : program.expr? id with
          | none => simp only [lowerExprBy, found, Lower.orFault_none_bind]
          | some expr =>
              have same : ∀ operand ∈ operandsOf expr.node, lower operand = otherLower operand :=
                fun operand member =>
                  induction expr found operand member (otherOperands expr found operand member)
              simp only [lowerExprBy, found, Lower.orFault_some_bind]
              rw [lowerNode_congr fun operand member => by rw [same operand member]]

theorem UnfoldsStmt.unique {finish : String → Lower Unit} {id : StmtId} {first second : Lower Unit}
    (one : UnfoldsStmt program finish id first) (other : UnfoldsStmt program finish id second) :
    first = second := by
  induction one generalizing second with
  | @intro id lower _ induction =>
      cases other with
      | @intro _ otherLower otherInside =>
          cases found : program.stmt? id with
          | none => simp only [lowerStmtBy, found, Lower.orFault_none_bind]
          | some stmt =>
              simp only [lowerStmtBy, found, Lower.orFault_some_bind]
              exact lowerNodeOf_congr fun child member =>
                induction stmt found child member (otherInside stmt found child member)

/-- An expression that is a part of itself unfolds to nothing. -/
theorem UnfoldsExpr.no_circle {id : ExprId} {step : Lower (Option Operand)}
    (unfolds : UnfoldsExpr program id step) : ¬ TransGen (HasPart program) (.expr id) (.expr id) := by
  induction unfolds with
  | @intro id lower _ induction =>
      intro circle
      rcases TransGen.head'_iff.mp circle with ⟨part, hasPart, back⟩
      cases found : program.expr? id with
      | none => simp [HasPart, partsOf, found] at hasPart
      | some expr =>
          have isOperand := hasPart
          simp only [HasPart, partsOf, found, List.mem_map] at isOperand
          rcases isOperand with ⟨operand, member, rfl⟩
          exact induction expr found operand member (.tail' back hasPart)

/-! ## Enough depth -/

theorem Descends.unfoldsExpr (acyclic : Acyclic program) {above : List Node} {depth : Nat}
    {id : ExprId} (descends : Descends program (exprNodes program) above depth (.expr id)) :
    UnfoldsExpr program id (lowerExprWithin program depth id) := by
  induction depth generalizing above id with
  | zero => exact descends.not_bottom.elim
  | succ depth induction =>
      have operands (expr : Source.Expr) (found : program.expr? id = some expr) :
          ∀ operand ∈ operandsOf expr.node,
            UnfoldsExpr program operand (lowerExprWithin program depth operand) :=
        fun operand member =>
          induction (descends.down acyclic (mem_exprNodes found) (hasPart_operand found member))
      exact .intro operands

theorem Descends.unfoldsStmt (acyclic : Acyclic program) (finish : String → Lower Unit)
    {above : List Node} {depth : Nat} {id : StmtId}
    (descends : Descends program (stmtNodes program) above depth (.stmt id)) :
    UnfoldsStmt program finish id (lowerStmtWithin program finish depth id) := by
  induction depth generalizing above id with
  | zero => exact descends.not_bottom.elim
  | succ depth induction =>
      have inside (stmt : Stmt) (found : program.stmt? id = some stmt) :
          ∀ child ∈ children program stmt,
            UnfoldsStmt program finish child (lowerStmtWithin program finish depth child) :=
        fun child member =>
          induction (descends.down acyclic (mem_stmtNodes found) (hasPart_child found member))
      exact .intro inside

theorem unfoldsExpr_lowerExpr (acyclic : Acyclic program) {id : ExprId}
    (comprised : Comprises program (.expr id)) : UnfoldsExpr program id (lowerExpr program id) := by
  refine (Descends.start comprised ?_).unfoldsExpr acyclic
  simp only [exprNodes, exprDepth, List.length_map, List.length_range]
  omega

theorem unfoldsStmt_lowerStmt (acyclic : Acyclic program) (finish : String → Lower Unit) {id : StmtId}
    (comprised : Comprises program (.stmt id)) :
    UnfoldsStmt program finish id (lowerStmt program finish id) := by
  refine (Descends.start comprised ?_).unfoldsStmt acyclic finish
  simp only [stmtNodes, stmtDepth, Program.nodeCount, List.length_map, List.length_range]
  omega

/-! ## No want of depth -/

def Ending {α : Type} (step : Lower α) : Prop :=
  ∀ session, step session ≠ .error (.program .endless)

namespace Ending

variable {α β : Type}

theorem of_silent {step : Lower α} (silent : Silent step) : Ending step :=
  fun session stops => (silent session).of_error_eq stops trivial

theorem bind {step : Lower α} {rest : α → Lower β} (ending : Ending step)
    (rests : ∀ value, Ending (rest value)) : Ending (step >>= rest) := by
  intro session stops
  cases outcome : step session with
  | error error =>
      rw [Lower.bind_eq_error outcome] at stops
      cases stops
      exact ending session outcome
  | ok pair =>
      rw [Lower.bind_eq outcome] at stops
      exact rests pair.1 pair.2 stops

theorem pure (value : α) : Ending (Pure.pure value) := of_silent (.pure value)

theorem map {step : Lower α} (ending : Ending step) (convert : α → β) : Ending (convert <$> step) :=
  ending.bind fun value => pure (convert value)

theorem fail {error : Error} (other : error ≠ .program .endless) :
    Ending (Lower.fail error : Lower α) := by
  intro session stops
  cases stops
  exact other rfl

theorem orFault (found : Option α) {fault : ProgramFault} (other : fault ≠ .endless) :
    Ending (Lower.orFault found fault) := by
  cases found with
  | none => exact fail (by simpa using other)
  | some value => exact pure value

theorem consult {question : Annotations → Except ProgramFault α}
    (other : ∀ annotations, question annotations ≠ .error .endless) :
    Ending (Lower.consult question) := by
  intro session stops
  unfold Lower.consult at stops
  split at stops <;> cases stops
  exact other _ ‹_›

theorem annotate {change : Annotations → Except ProgramFault Annotations}
    (other : ∀ annotations, change annotations ≠ .error .endless) :
    Ending (Lower.annotate change) := by
  intro session stops
  unfold Lower.annotate at stops
  split at stops <;> cases stops
  exact other _ ‹_›

theorem storageOf (id : VarId) :
    Ending (Lower.consult fun annotations => annotations.storageOf id) := by
  refine consult fun annotations => ?_
  unfold Annotations.storageOf
  split <;> simp

theorem loopOf (id : StmtId) :
    Ending (Lower.consult fun annotations => annotations.loopOf id) := by
  refine consult fun annotations => ?_
  unfold Annotations.loopOf
  split <;> simp

theorem setStorage (id : VarId) (address : Operand) :
    Ending (Lower.annotate fun annotations => annotations.setStorage id address) := by
  refine annotate fun annotations => ?_
  unfold Annotations.setStorage
  split <;> simp

theorem setLoop (id : StmtId) (blocks : LoopBlocks) :
    Ending (Lower.annotate fun annotations => annotations.setLoop id blocks) := by
  refine annotate fun annotations => ?_
  unfold Annotations.setLoop
  split <;> simp

theorem recordValue (id : ExprId) (value : Option Operand) : Ending (recordValue id value) := by
  cases value with
  | none => exact pure ()
  | some value =>
      unfold Lowering.recordValue
      refine annotate fun annotations => ?_
      unfold Annotations.setValue
      split <;> simp

theorem requireValue (id : ExprId) (value : Option Operand) : Ending (requireValue id value) :=
  orFault value (by simp)

theorem mapM {items : List α} {body : α → Lower β} (each : ∀ item ∈ items, Ending (body item)) :
    Ending (items.mapM body) := by
  induction items with
  | nil => exact pure []
  | cons head tail induction =>
      rw [List.mapM_cons]
      exact (each head List.mem_cons_self).bind fun value =>
        (induction fun item member => each item (List.mem_cons_of_mem _ member)).bind fun values =>
        pure (value :: values)

theorem forM {items : List α} {body : α → Lower Unit} (each : ∀ item ∈ items, Ending (body item)) :
    Ending (items.forM body) := by
  induction items with
  | nil => exact pure ()
  | cons head tail induction =>
      rw [Lower.forM_cons]
      exact (each head List.mem_cons_self).bind fun _ =>
        induction fun item member => each item (List.mem_cons_of_mem _ member)

/-! ### Expressions -/

theorem lowerNode {lower : ExprId → Lower Operand} {node : ExprNode}
    (each : ∀ operand ∈ operandsOf node, Ending (lower operand)) :
    Ending (lowerNode program lower node) := by
  cases node with
  | booleanLiteral value => exact pure _
  | integerLiteral value => exact pure _
  | stringLiteral text => exact (of_silent (.lowerStringLiteral text)).map _
  | identifier name decl =>
      exact ((orFault _ (by simp)).bind fun var => (storageOf decl).bind fun address =>
        of_silent (.define _ _)).map _
  | call callee args =>
      refine (of_silent .cursor).bind fun cursor => ?_
      split
      · exact fail (by simp)
      · split
        · exact (mapM each).bind fun values => of_silent (.call _ _ _)
        · exact fail (by simp)
  | unary op operand =>
      refine map ((orFault _ (by simp)).bind fun expr => ?_) _
      split
      · exact (each operand (by simp [operandsOf])).bind fun value => of_silent (.define _ _)
      · exact fail (by simp)
  | binary op left right =>
      refine map ?_ _
      unfold lowerBinary
      split
      · rename_i assigns
        refine (orFault _ (by simp)).bind fun target => ?_
        split
        · exact (each right (by simp [operandsOf, assigns])).bind fun value =>
            (storageOf _).bind fun address => (of_silent (.insert _)).bind fun _ => pure value
        · exact fail (by simp)
      · rename_i other
        refine (orFault _ (by simp)).bind fun expr => ?_
        split
        · exact fail (by simp)
        · exact (each left (by simp [operandsOf, other])).bind fun leftValue =>
            (each right (by simp [operandsOf, other])).bind fun rightValue =>
            of_silent (.emitOperation _ _ _)

theorem of_unfoldsExpr {id : ExprId} {step : Lower (Option Operand)}
    (unfolds : UnfoldsExpr program id step) : Ending step := by
  induction unfolds with
  | @intro id lower _ induction =>
      cases found : program.expr? id with
      | none =>
          simp only [lowerExprBy, found, Lower.orFault_none_bind]
          exact fail (by simp)
      | some expr =>
          simp only [lowerExprBy, found, Lower.orFault_some_bind]
          refine (lowerNode fun operand member => ?_).bind fun value =>
            (recordValue id value).bind fun _ => pure value
          exact (induction expr found operand member).bind fun value => requireValue operand value

/-! ### Statements -/

section Statements

variable {finish : String → Lower Unit} {lower : StmtId → Lower Unit} {id : StmtId}

theorem lowerExprs {exprs : List ExprId} (each : ∀ expr ∈ exprs, Ending (lowerExpr program expr)) :
    Ending (exprs.forM fun expr => do let _ ← lowerExpr program expr) :=
  forM fun expr member => (each expr member).bind fun _ => pure ()

theorem lowerValue {expr : ExprId} (ending : Ending (lowerExpr program expr)) :
    Ending (lowerValue program expr) :=
  ending.bind fun value => requireValue expr value

theorem lowerInitial {decl : Source.VarDecl}
    (each : ∀ initial, decl.initial = some initial → Ending (lowerExpr program initial)) :
    Ending (lowerInitial program decl) := by
  unfold Lowering.lowerInitial
  cases starts : decl.initial with
  | none => exact pure none
  | some initial => exact (lowerValue (each initial starts)).map some

theorem globalInitial (decl : Source.VarDecl) (isLiteral : Bool) (value : Option Operand) :
    Ending (Lower.consult fun _ => globalInitial decl isLiteral value) := by
  refine consult fun annotations => ?_
  unfold Lowering.globalInitial
  split
  · simp
  · split
    · split <;> simp
    · simp

theorem lowerGlobal (id : VarId) (decl : Source.VarDecl) (value : Option Operand) :
    Ending (lowerGlobal program id decl value) := by
  refine (globalInitial _ _ _).bind fun initial => Ending.bind
    (of_silent (.buildWith fun _ _ _ adds _ => by cases adds; rfl)) fun global => ?_
  cases value with
  | none => exact setStorage id _
  | some value =>
      dsimp only
      split
      · exact (of_silent (.insert _)).bind fun _ => setStorage id _
      · exact setStorage id _

theorem lowerLocal (id : VarId) (decl : Source.VarDecl) (value : Option Operand) :
    Ending (lowerLocal id decl value) := by
  refine (of_silent (.define _ _)).bind fun slot => ?_
  cases value with
  | none => exact setStorage id slot
  | some value => exact (of_silent (.insert _)).bind fun _ => setStorage id slot

theorem lowerVarDecl {id : VarId}
    (each : ∀ decl initial, program.var? id = some decl → decl.initial = some initial →
      Ending (lowerExpr program initial)) : Ending (lowerVarDecl program id) := by
  unfold Lowering.lowerVarDecl
  cases found : program.var? id with
  | none =>
      rw [Lower.orFault_none_bind]
      exact fail (by simp)
  | some decl =>
      rw [Lower.orFault_some_bind]
      split
      · exact fail (by simp)
      · refine (lowerInitial (each decl · found)).bind fun value => ?_
        split
        · exact lowerGlobal id decl value
        · exact lowerLocal id decl value

theorem lowerParam (id : VarId) (index : Nat) : Ending (lowerParam program id index) :=
  (orFault _ (by simp)).bind fun decl => (of_silent (.define _ _)).bind fun slot =>
    (of_silent (.insert _)).bind fun _ => setStorage id slot

variable (finishes : ∀ name, Ending (finish name))

include finishes in
theorem lowerFunctionDecl {func : FuncId}
    (each : ∀ decl, program.function? func = some decl → Ending (lower decl.body)) :
    Ending (lowerFunctionDecl program finish lower func) := by
  unfold Lowering.lowerFunctionDecl
  cases found : program.function? func with
  | none =>
      rw [Lower.orFault_none_bind]
      exact fail (by simp)
  | some decl =>
      rw [Lower.orFault_some_bind]
      refine (of_silent .cursor).bind fun cursor => (of_silent (.openFunction _)).bind fun _ =>
        (forM fun pair _ => lowerParam pair.1 pair.2).bind fun _ => (each decl found).bind fun _ => ?_
      have closes : Ending (do
          finish decl.name
          Lower.moveCursor fun next => next.setPosition cursor.position : Lower Unit) :=
        (finishes _).bind fun _ => of_silent (.setPosition _)
      split
      · exact (of_silent (.returnIfLive _)).bind fun _ => closes
      · exact closes

theorem lowerIf {condition : ExprId} {thenBody : StmtId} {elseBody : Option StmtId}
    (tests : Ending (lowerExpr program condition)) (first : Ending (lower thenBody))
    (second : ∀ body ∈ elseBody, Ending (lower body)) :
    Ending (lowerIf program lower condition thenBody elseBody) := by
  refine (lowerValue tests).bind fun value => (of_silent (.createBlock _)).bind fun thenBlock =>
    (of_silent (.createBlock _)).bind fun endBlock => ?_
  cases elseBody with
  | none =>
      exact (of_silent (.terminate _)).bind fun _ => (of_silent (.enter _ _)).bind fun _ =>
        first.bind fun _ => (of_silent (.leaveTo _)).bind fun _ => of_silent (.enter _ _)
  | some elseBody =>
      exact (of_silent (.createBlock _)).bind fun elseBlock =>
        (of_silent (.terminate _)).bind fun _ => (of_silent (.enter _ _)).bind fun _ =>
        first.bind fun _ => (of_silent (.leaveTo _)).bind fun _ =>
        (of_silent (.enter _ _)).bind fun _ => (second elseBody rfl).bind fun _ =>
        (of_silent (.leaveTo _)).bind fun _ => of_silent (.enter _ _)

theorem lowerWhile {condition : ExprId} {body : StmtId}
    (tests : Ending (lowerExpr program condition)) (inside : Ending (lower body)) :
    Ending (lowerWhile program lower id condition body) :=
  (of_silent (.createBlock _)).bind fun _ => (of_silent (.createBlock _)).bind fun _ =>
    (of_silent (.createBlock _)).bind fun _ => (setLoop id _).bind fun _ =>
    (of_silent (.enter _ _)).bind fun _ => (lowerValue tests).bind fun _ =>
    (of_silent (.terminate _)).bind fun _ => (of_silent (.enter _ _)).bind fun _ =>
    inside.bind fun _ => (of_silent (.leaveTo _)).bind fun _ => of_silent (.enter _ _)

theorem lowerForCondition (endBlock : Code.BlockId) {condition : Option ExprId}
    (tests : ∀ expr ∈ condition, Ending (lowerExpr program expr)) :
    Ending (lowerForCondition program endBlock condition) := by
  cases condition with
  | none => exact pure ()
  | some condition =>
      exact (of_silent (.createBlock _)).bind fun _ => (lowerValue (tests condition rfl)).bind fun _ =>
        (of_silent (.terminate _)).bind fun _ => of_silent (.enter _ _)

theorem lowerForUpdates {updates : List ExprId} (updateBlock : Option Code.BlockId)
    (renews : ∀ expr ∈ updates, Ending (lowerExpr program expr)) :
    Ending (lowerForUpdates program updates updateBlock) := by
  cases updateBlock with
  | none => exact pure ()
  | some block => exact (of_silent (.enter _ _)).bind fun _ => lowerExprs renews

theorem lowerFor {initial : ForInit} {condition : Option ExprId} {updates : List ExprId}
    {body : StmtId} (starts : Ending (lowerForInit program lower initial))
    (tests : ∀ expr ∈ condition, Ending (lowerExpr program expr))
    (renews : ∀ expr ∈ updates, Ending (lowerExpr program expr)) (inside : Ending (lower body)) :
    Ending (lowerFor program lower id initial condition updates body) :=
  starts.bind fun _ => (of_silent (.createBlock _)).bind fun _ =>
    (of_silent (.createBlock _)).bind fun endBlock => (of_silent (.enter _ _)).bind fun _ =>
    (of_silent (.createUpdateBlock _)).bind fun updateBlock => (setLoop id _).bind fun _ =>
    (lowerForCondition endBlock tests).bind fun _ => inside.bind fun _ =>
    (lowerForUpdates updateBlock renews).bind fun _ => (of_silent (.leaveTo _)).bind fun _ =>
    of_silent (.enter _ _)

include finishes in
theorem lowerNodeOf {stmt : Stmt}
    (exprs : ∀ expr ∈ exprsOf program stmt, Ending (lowerExpr program expr))
    (inside : ∀ child ∈ children program stmt, Ending (lower child)) :
    Ending (lowerNodeOf program finish lower id stmt) := by
  cases stmt with
  | expr expr => exact (exprs expr (by simp [exprsOf])).bind fun _ => pure ()
  | compound stmts => exact forM inside
  | varDecl vars =>
      refine forM fun var member => lowerVarDecl fun decl initial found starts => exprs initial ?_
      exact List.mem_flatMap.mpr ⟨var, member, by simp [found, starts]⟩
  | functionDecl func =>
      exact lowerFunctionDecl finishes fun decl found => inside decl.body (by simp [children, found])
  | ifThenElse condition thenBody elseBody =>
      exact lowerIf (exprs condition (by simp [exprsOf])) (inside thenBody (by simp [children]))
        fun body member => inside body (by simp [children, Option.mem_def.mp member])
  | whileLoop condition body =>
      exact lowerWhile (exprs condition (by simp [exprsOf])) (inside body (by simp [children]))
  | forLoop initial condition updates body =>
      cases initial with
      | decl stmt =>
          exact lowerFor (inside stmt (by simp [children]))
            (fun expr member => exprs expr (by simp_all [exprsOf]))
            (fun expr member => exprs expr (by simp_all [exprsOf])) (inside body (by simp [children]))
      | exprs initials =>
          exact lowerFor (lowerExprs fun expr member => exprs expr (by simp_all [exprsOf]))
            (fun expr member => exprs expr (by simp_all [exprsOf]))
            (fun expr member => exprs expr (by simp_all [exprsOf])) (inside body (by simp [children]))
  | continueLoop target => exact (loopOf target).bind fun _ => of_silent (.terminate _)
  | breakLoop target => exact (loopOf target).bind fun _ => of_silent (.terminate _)
  | returnValue value =>
      cases value with
      | none => exact of_silent (.terminate _)
      | some expr =>
          exact (lowerValue (exprs expr (by simp [exprsOf]))).bind fun _ => of_silent (.terminate _)

include finishes in
theorem of_unfoldsStmt (acyclic : Acyclic program) {step : Lower Unit}
    (comprised : Comprises program (.stmt id)) (unfolds : UnfoldsStmt program finish id step) :
    Ending step := by
  induction unfolds with
  | @intro id lower _ induction =>
      cases found : program.stmt? id with
      | none =>
          simp only [lowerStmtBy, found, Lower.orFault_none_bind]
          exact fail (by simp)
      | some stmt =>
          simp only [lowerStmtBy, found, Lower.orFault_some_bind]
          refine lowerNodeOf finishes (fun expr member => ?_) fun child member => ?_
          · exact of_unfoldsExpr
              (unfoldsExpr_lowerExpr acyclic (comprised.part (hasPart_expr found member)))
          · exact induction stmt found child member (comprised.part (hasPart_child found member))

end Statements

end Ending

/-! ## Whole programs -/

theorem liftBuild_ending {α : Type} (outcome : Except Code.BuildError α) :
    liftBuild outcome ≠ .error (.program .endless) := by
  cases outcome <;> simp [liftBuild, Except.mapError]

theorem Except.bind_ending {α β : Type} {outcome : Except Error α} {rest : α → Except Error β}
    (first : outcome ≠ .error (.program .endless))
    (rests : ∀ value, rest value ≠ .error (.program .endless)) :
    (outcome >>= rest) ≠ .error (.program .endless) := by
  cases outcome with
  | error error => exact fun stops => first (by cases stops; rfl)
  | ok value => exact rests value

theorem declaredParams_ending (ids : List VarId) :
    ids.mapM (declaredParam program) ≠ .error (.program .endless) := by
  induction ids with
  | nil => exact fun stops => by cases stops
  | cons id rest induction =>
      rw [List.mapM_cons]
      refine Except.bind_ending ?_ fun _ => Except.bind_ending induction fun _ stops => by cases stops
      unfold declaredParam
      split <;> simp

theorem declareAll_ending (program : Program) (options : Options) :
    declareAll program options ≠ .error (.program .endless) := by
  have functions (decls : List Source.FunctionDecl) (module : Code.Module) :
      decls.foldlM (declareFunction program) module ≠ .error (.program .endless) := by
    induction decls generalizing module with
    | nil => exact fun stops => by cases stops
    | cons decl rest induction =>
        rw [List.foldlM_cons]
        refine Except.bind_ending ?_ induction
        unfold declareFunction
        split
        · simp
        · exact Except.bind_ending (declaredParams_ending _) fun _ => liftBuild_ending _
  exact Except.bind_ending (liftBuild_ending _) fun _ => Except.bind_ending (liftBuild_ending _)
    fun module => functions _ module

theorem comprises_item {item : StmtId} (isItem : item ∈ program.items) :
    Comprises program (.stmt item) := ⟨item, isItem, .refl⟩

theorem lowerItems_ending (acyclic : Acyclic program) (options : Options) :
    Ending (lowerItems program (finishFunction options) options.entryFunction) := by
  have finishes (name : String) : Ending (finishFunction options name) :=
    .of_silent (.finishFunction options name)
  refine (Ending.of_silent (.openFunction _)).bind fun _ => (Ending.forM fun item isItem => ?_).bind
    fun _ => (Ending.of_silent (.returnIfLive _)).bind fun _ => finishes _
  exact .of_unfoldsStmt finishes acyclic (comprises_item isItem)
    (unfoldsStmt_lowerStmt acyclic _ (comprises_item isItem))

theorem lowerProgram_ending (acyclic : Acyclic program) (options : Options) :
    lowerProgram program options ≠ .error (.program .endless) := by
  refine Except.bind_ending (declareAll_ending program options) fun module =>
    Except.bind_ending (lowerItems_ending acyclic options _) fun pair =>
    Except.bind_ending ?_ fun _ stops => by cases stops
  cases pair.2.cursor.module.verify <;> simp [Except.mapError]

/-- If no node of a program is a part of itself, then lowering it comes to an end with a module or an
error. Followed without a bound, each expression and each statement comes down to one step only, and
this is the step that is taken. -/
theorem lowering_ends_without_circles (options : Options) (acyclic : Acyclic program) :
    (∀ id step, Comprises program (.expr id) →
      (UnfoldsExpr program id step ↔ step = lowerExpr program id)) ∧
    (∀ id step, Comprises program (.stmt id) →
      (UnfoldsStmt program (finishFunction options) id step ↔
        step = lowerStmt program (finishFunction options) id)) ∧
    ((∃ module, (compile program options .empty).1 = .ok module) ∨
      ∃ error, (compile program options .empty).1 = .error error ∧ error ≠ .program .endless) := by
  refine ⟨fun id step comprised => ?_, fun id step comprised => ?_, ?_⟩
  · have unfolds := unfoldsExpr_lowerExpr acyclic comprised
    constructor
    · exact fun unfoldsTo => unfoldsTo.unique unfolds
    · rintro rfl
      exact unfolds
  · have unfolds := unfoldsStmt_lowerStmt acyclic (finishFunction options) comprised
    constructor
    · exact fun unfoldsTo => unfoldsTo.unique unfolds
    · rintro rfl
      exact unfolds
  · rw [compile_empty]
    cases outcome : lowerProgram program options with
    | ok module => exact .inl ⟨module, rfl⟩
    | error error =>
        refine .inr ⟨error, rfl, ?_⟩
        rintro rfl
        exact lowerProgram_ending acyclic options outcome

/-- A loop that is left by a jump back to it, an empty statement that is come to four times, and behind
them a statement that contains itself and one that refers to nothing, both of them no part of the
program. -/
def windingProgram : Program where
  filename := "winding"
  items := [⟨2⟩, ⟨0⟩]
  stmts := #[.functionDecl ⟨0⟩, .whileLoop ⟨1⟩ ⟨4⟩, .compound [⟨5⟩, ⟨1⟩, ⟨5⟩], .compound [⟨5⟩, ⟨5⟩],
    .breakLoop ⟨1⟩, .compound [], .compound [⟨6⟩], .compound [⟨99⟩]]
  exprs := #[⟨.integerLiteral 1, .integer⟩, ⟨.binary .lessThan ⟨2⟩ ⟨0⟩, .boolean⟩,
    ⟨.integerLiteral 0, .integer⟩]
  vars := #[]
  functions := #[⟨"twice", [], none, ⟨3⟩⟩]

theorem windingProgram_lowering_ends : Acyclic windingProgram ∧
    UnfoldsStmt windingProgram (finishFunction .default) ⟨1⟩
      (lowerStmt windingProgram (finishFunction .default) ⟨1⟩) ∧
    ∃ module, (compile windingProgram .default .empty).1 = .ok module := by
  let nodes : List Node := [.expr ⟨0⟩, .expr ⟨2⟩, .expr ⟨1⟩, .stmt ⟨4⟩, .stmt ⟨5⟩, .stmt ⟨1⟩, .stmt ⟨3⟩,
    .stmt ⟨0⟩, .stmt ⟨2⟩]
  have items : ∀ item ∈ windingProgram.items, .stmt item ∈ nodes := by decide
  have acyclic : Acyclic windingProgram := acyclic_of_order items (by decide)
  rcases lowering_ends_without_circles .default acyclic with ⟨_, stmts, outcome⟩
  have comprised : Comprises windingProgram (.stmt ⟨1⟩) :=
    (comprises_item (show ⟨2⟩ ∈ windingProgram.items by decide)).part (hasPart_child rfl (by decide))
  refine ⟨acyclic, (stmts ⟨1⟩ _ comprised).mpr rfl, outcome.resolve_right ?_⟩
  rintro ⟨error, fails, _⟩
  have accepted : (compile windingProgram .default .empty).1.toBool = true := by decide +kernel
  rw [fails] at accepted
  cases accepted

end ScriptLowering.Lowering
