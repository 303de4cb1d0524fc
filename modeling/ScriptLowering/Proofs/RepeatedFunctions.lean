import Mathlib.Data.List.Flatten
import ScriptLowering.Proofs.LoopExits
import ScriptLowering.Proofs.LoweringMarks

/-! # Functions that are come to again

The way through a statement that ends does not depend on how deep it is followed. So a function is
walked through in the same way wherever it is declared, and whatever lowering marks in it, it would mark
as often as it comes to the function.
-/

namespace ScriptLowering.Lowering

open Source (Program ExprId ForInit FuncId FunctionDecl Stmt StmtId VarId)

variable {program : Program}

/-! ## Statements inside a statement -/

/-- The function that a statement declares itself. -/
def declaredBy? : Stmt → Option FuncId
  | .functionDecl func => some func
  | _ => none

theorem walkNodeOf_congr {walk other : StmtId → List Node} {stmt : Stmt}
    (same : ∀ child ∈ children program stmt, walk child = other child) :
    walkNodeOf program walk stmt = walkNodeOf program other stmt := by
  cases stmt with
  | compound stmts => exact List.flatMap_congr same
  | functionDecl func =>
      cases found : program.function? func with
      | none => simp only [walkNodeOf, walkFunction, found]
      | some decl => simp only [walkNodeOf, walkFunction, found, same decl.body (by simp [children, found])]
  | ifThenElse condition thenBody elseBody =>
      cases elseBody <;> simp_all [walkNodeOf, children]
  | whileLoop condition body => simp_all [walkNodeOf, children]
  | forLoop initial condition updates body =>
      cases initial <;> simp_all [walkNodeOf, walkForInit, children]
  | expr | varDecl | continueLoop | breakLoop | returnValue => rfl

/-- The way through a statement goes through the statements inside of it, one after the other. -/
theorem sublist_walkNodeOf (walk : StmtId → List Node) (stmt : Stmt) :
    ((children program stmt).flatMap walk).Sublist (walkNodeOf program walk stmt) := by
  cases stmt with
  | compound stmts => exact .refl _
  | functionDecl func =>
      cases found : program.function? func with
      | none => simp [children, found]
      | some decl => simp [walkNodeOf, walkFunction, children, found]
  | ifThenElse condition thenBody elseBody =>
      cases elseBody <;> simp [walkNodeOf, children]
  | whileLoop condition body => simp [walkNodeOf, children]
  | forLoop initial condition updates body =>
      cases initial with
      | decl stmt =>
          simp only [children, walkNodeOf, walkForInit, List.flatMap_cons, List.flatMap_nil,
            List.append_nil]
          exact (List.Sublist.refl _).append
            ((List.sublist_append_left _ _).trans (List.sublist_append_right _ _))
      | exprs exprs =>
          simp only [children, walkNodeOf, List.flatMap_cons, List.flatMap_nil, List.append_nil]
          exact ((List.sublist_append_left _ _).trans (List.sublist_append_right _ _)).trans
            (List.sublist_append_right _ _)
  | expr | varDecl | continueLoop | breakLoop | returnValue => simp [children]

theorem functionsOf_walkNodeOf (walk : StmtId → List Node) (stmt : Stmt) :
    functionsOf (walkNodeOf program walk stmt) = (declaredBy? stmt).toList ++
      functionsOf ((children program stmt).flatMap walk) := by
  have exprs (ids : List ExprId) : functionsOf (ids.flatMap (walkExpr program)) = [] := by
    simp [functionsOf_flatMap]
  cases stmt with
  | compound stmts => rfl
  | functionDecl func =>
      have params (ids : List VarId) : functionsOf (ids.map Node.param) = [] := by
        simp [functionsOf, Node.function?]
      cases found : program.function? func <;>
        simp [walkNodeOf, walkFunction, children, found, declaredBy?, Node.function?, params]
  | ifThenElse condition thenBody elseBody =>
      cases elseBody <;> simp [walkNodeOf, children, declaredBy?]
  | whileLoop condition body => simp [walkNodeOf, children, declaredBy?]
  | forLoop initial condition updates body =>
      cases initial <;> simp [walkNodeOf, walkForInit, children, declaredBy?, exprs]
  | varDecl vars =>
      have none (id : VarId) : functionsOf (walkVar program id) = [] := by
        unfold walkVar
        cases program.var? id <;> simp [Node.function?, exprs]
      simp [walkNodeOf, children, declaredBy?, functionsOf_flatMap, none]
  | returnValue value => simp [walkNodeOf, children, declaredBy?, exprs]
  | expr | continueLoop | breakLoop => simp [walkNodeOf, children, declaredBy?]

theorem walkStmtWithin_eq {depth : Nat} {id : StmtId} {stmt : Stmt}
    (known : program.stmt? id = some stmt) : walkStmtWithin program (depth + 1) id =
      .stmt id :: walkNodeOf program (walkStmtWithin program depth) stmt := by
  simp only [walkStmtWithin, known]

theorem walkNodeOf_subset {walk other : StmtId → List Node} (stmt : Stmt)
    (fewer : ∀ child, walk child ⊆ other child) :
    walkNodeOf program walk stmt ⊆ walkNodeOf program other stmt := by
  have each (stmts : List StmtId) : stmts.flatMap walk ⊆ stmts.flatMap other := by
    intro node member
    rcases List.mem_flatMap.mp member with ⟨child, isChild, inChild⟩
    exact List.mem_flatMap.mpr ⟨child, isChild, fewer child inChild⟩
  cases stmt with
  | compound stmts => exact each stmts
  | functionDecl func =>
      cases found : program.function? func with
      | none =>
          simp only [walkNodeOf, walkFunction, found]
          exact List.Subset.refl _
      | some decl =>
          intro node
          simp only [walkNodeOf, walkFunction, found, List.mem_cons, List.mem_append]
          exact Or.imp_right (Or.imp_right fun inBody => fewer decl.body inBody)
  | ifThenElse condition thenBody elseBody =>
      intro node
      simp only [walkNodeOf, List.mem_append]
      exact Or.imp_right (Or.imp (fun inThen => fewer thenBody inThen) fun inElse => each _ inElse)
  | whileLoop condition body =>
      intro node
      simp only [walkNodeOf, List.mem_append]
      exact Or.imp_right fun inBody => fewer body inBody
  | forLoop initial condition updates body =>
      intro node
      have inInit : node ∈ walkForInit program walk initial → node ∈ walkForInit program other initial := by
        cases initial with
        | decl stmt => exact fun inStmt => fewer stmt inStmt
        | exprs exprs => exact id
      simp only [walkNodeOf, List.mem_append]
      exact Or.imp inInit (Or.imp_right (Or.imp_left fun inBody => fewer body inBody))
  | expr | varDecl | continueLoop | breakLoop | returnValue => exact List.Subset.refl _

theorem walkStmtWithin_subset {depth more : Nat} (id : StmtId) (less : depth ≤ more) :
    walkStmtWithin program depth id ⊆ walkStmtWithin program more id := by
  induction depth generalizing id more with
  | zero => exact List.nil_subset _
  | succ depth induction =>
      cases more with
      | zero => exact absurd less (Nat.not_succ_le_zero _)
      | succ more =>
          cases found : program.stmt? id with
          | none =>
              simp only [walkStmtWithin, found]
              exact List.Subset.refl _
          | some stmt =>
              rw [walkStmtWithin_eq found, walkStmtWithin_eq found]
              exact List.cons_subset_cons _ (walkNodeOf_subset stmt fun child =>
                induction child (Nat.le_of_succ_le_succ less))

/-- The way through a statement that ends is the same at any depth. -/
theorem EndsWithin.walk_eq {depth more : Nat} {id : StmtId} (ends : EndsWithin program depth id)
    (less : depth ≤ more) : walkStmtWithin program more id = walkStmtWithin program depth id := by
  induction depth generalizing id more with
  | zero => exact ends.elim
  | succ depth induction =>
      rcases ends with ⟨stmt, known, inner⟩
      cases more with
      | zero => exact absurd less (Nat.not_succ_le_zero _)
      | succ more =>
          rw [walkStmtWithin_eq known, walkStmtWithin_eq known]
          refine congrArg _ (walkNodeOf_congr fun child member => ?_)
          exact induction (inner child member) (Nat.le_of_succ_le_succ less)

/-! ## Functions inside a statement -/

def nodesIn (program : Program) (decl : FunctionDecl) : List Node :=
  decl.params.map .param ++ walkStmt program decl.body

theorem mem_functionsOf {nodes : List Node} {func : FuncId} :
    func ∈ functionsOf nodes ↔ .function func ∈ nodes := by
  simp only [functionsOf, List.mem_filterMap]
  constructor
  · rintro ⟨node, member, isFunction⟩
    cases node <;> cases isFunction
    exact member
  · exact fun member => ⟨_, member, rfl⟩

theorem contains_of_mem_walk {depth : Nat} {id : StmtId} {func : FuncId} {decl : FunctionDecl}
    (known : program.function? func = some decl)
    (member : func ∈ functionsOf (walkStmtWithin program depth id)) :
    Contains program decl.name id := by
  induction depth generalizing id with
  | zero => cases member
  | succ depth induction =>
      cases found : program.stmt? id with
      | none =>
          simp only [walkStmtWithin, found] at member
          cases member
      | some stmt =>
          rw [walkStmtWithin_eq found, functionsOf_cons, functionsOf_walkNodeOf] at member
          rcases List.mem_append.mp member with here | inside
          · cases here
          rcases List.mem_append.mp inside with declares | inside
          · cases stmt <;> cases declares
            · exact .declares found known rfl
            · contradiction
          · rw [functionsOf_flatMap] at inside
            rcases List.mem_flatMap.mp inside with ⟨child, isChild, inChild⟩
            exact .inside found isChild (induction inChild)

section Walks

variable {depth : Nat} {id : StmtId} {func : FuncId} {decl : FunctionDecl}

/-- Where lowering comes to a function, it comes to all that belongs to the function. -/
theorem subset_walk_of_function (ends : EndsWithin program depth id)
    (less : depth ≤ stmtDepth program) (known : program.function? func = some decl)
    (member : func ∈ functionsOf (walkStmtWithin program depth id)) :
    nodesIn program decl ⊆ walkStmtWithin program depth id := by
  induction depth generalizing id with
  | zero => exact ends.elim
  | succ depth induction =>
      rcases ends with ⟨stmt, found, inner⟩
      rw [walkStmtWithin_eq found] at member ⊢
      refine List.subset_cons_of_subset _ ?_
      rw [functionsOf_cons, functionsOf_walkNodeOf] at member
      rcases List.mem_append.mp member with here | inside
      · cases here
      rcases List.mem_append.mp inside with declares | inside
      · cases stmt with
        | functionDecl other =>
            cases List.mem_singleton.mp declares
            have same : walkStmt program decl.body = walkStmtWithin program depth decl.body :=
              (inner decl.body (by simp [children, known])).walk_eq (Nat.le_of_succ_le less)
            rw [nodesIn, same]
            simp only [walkNodeOf, walkFunction, known]
            exact List.subset_cons_self _ _
        | _ => cases declares
      · rw [functionsOf_flatMap] at inside
        rcases List.mem_flatMap.mp inside with ⟨child, isChild, inChild⟩
        have here := induction (inner child isChild) (Nat.le_of_succ_le less) inChild
        refine fun node inDecl => (sublist_walkNodeOf _ _).subset ?_
        exact List.mem_flatMap.mpr ⟨child, isChild, here inDecl⟩

/-! ## Functions with marks

What has a mark is come to once, so the function that it belongs to is. -/

def MarkedOnce (program : Program) (start : Session) (nodes : List Node) : Prop :=
  nodes.Pairwise fun node other => node.Marked program start → node.plain ≠ other.plain

variable {start : Session} {node : Node}

theorem count_flatMap_le_one {ι : Type} {items : List ι} {walk : ι → List Node}
    (once : MarkedOnce program start (items.flatMap walk)) (marked : node.Marked program start)
    (along : ∀ item ∈ items, func ∈ functionsOf (walk item) → node ∈ walk item)
    (each : ∀ item ∈ items, (functionsOf (walk item)).count func ≤ 1) :
    (functionsOf (items.flatMap walk)).count func ≤ 1 := by
  induction items with
  | nil => exact Nat.zero_le 1
  | cons item rest induction =>
      rw [List.flatMap_cons] at once ⊢
      rcases List.pairwise_append.mp once with ⟨_, onceRest, apart⟩
      have others := induction onceRest (fun other member => along other (List.mem_cons_of_mem _ member))
        fun other member => each other (List.mem_cons_of_mem _ member)
      rw [functionsOf_append, List.count_append]
      by_cases member : func ∈ functionsOf (walk item)
      · have nowhere : func ∉ functionsOf (rest.flatMap walk) := by
          intro again
          rw [functionsOf_flatMap] at again
          rcases List.mem_flatMap.mp again with ⟨other, isOther, inOther⟩
          have there := along other (List.mem_cons_of_mem _ isOther) inOther
          exact apart node (along item List.mem_cons_self member) node
            (List.mem_flatMap.mpr ⟨other, isOther, there⟩) marked rfl
        rw [List.count_eq_zero_of_not_mem nowhere]
        exact each item List.mem_cons_self
      · rw [List.count_eq_zero_of_not_mem member, Nat.zero_add]
        exact others

theorem count_walkStmtWithin_le_one (apart : NamesApart program)
    (known : program.function? func = some decl) (inside : node ∈ nodesIn program decl)
    (marked : node.Marked program start) (ends : EndsWithin program depth id)
    (less : depth ≤ stmtDepth program)
    (once : MarkedOnce program start (walkStmtWithin program depth id)) :
    (functionsOf (walkStmtWithin program depth id)).count func ≤ 1 := by
  induction depth generalizing id with
  | zero => exact ends.elim
  | succ depth induction =>
      rcases ends with ⟨stmt, found, inner⟩
      rw [walkStmtWithin_eq found] at once ⊢
      rw [functionsOf_cons, functionsOf_walkNodeOf, List.count_append, List.count_append]
      have onceInside : MarkedOnce program start
          ((children program stmt).flatMap (walkStmtWithin program depth)) :=
        once.sublist ((sublist_walkNodeOf _ stmt).trans (List.sublist_cons_self _ _))
      have insideOnce := count_flatMap_le_one onceInside marked
        (fun child isChild member =>
          subset_walk_of_function (inner child isChild) (Nat.le_of_succ_le less) known member inside)
        fun child isChild => induction (inner child isChild) (Nat.le_of_succ_le less)
          (onceInside.sublist (by
            simpa using (List.singleton_sublist.mpr isChild).flatMap (walkStmtWithin program depth)))
      have here : ((Node.stmt id).function?.toList).count func = 0 := rfl
      rw [here, Nat.zero_add]
      by_cases declares : declaredBy? stmt = some func
      · -- The function is not declared inside itself, since its body ends.
        have nowhere : func ∉ functionsOf
            ((children program stmt).flatMap (walkStmtWithin program depth)) := by
          intro again
          cases stmt with
          | functionDecl other =>
              cases declares
              simp only [children, known, Option.toList_some, List.map_cons, List.map_nil,
                List.flatMap_cons, List.flatMap_nil, List.append_nil] at again
              exact endless_of_contains apart known (contains_of_mem_walk known again) func decl depth
                known rfl (inner decl.body (by simp [children, known]))
          | _ => cases declares
        rw [List.count_eq_zero_of_not_mem nowhere, declares, Nat.add_zero]
        exact Nat.le_of_eq (by simp)
      · have absent : func ∉ (declaredBy? stmt).toList := by simpa using fun same => declares same
        rw [List.count_eq_zero_of_not_mem absent, Nat.zero_add]
        exact insideOnce

end Walks

end ScriptLowering.Lowering
