import Mathlib.Data.List.Flatten
import ScriptLowering.Proofs.RepeatedFunctions

/-! # Programs with another statement

Another statement is put in the place of one of a program. Expressions and variables are lowered as
before. If a compound statement is cut short, the way through the program gets shorter, and if what is
left out declares no function, the way comes to the same functions.
-/

namespace ScriptLowering.Source

namespace Program

/-- Another statement in the place of one of the program. -/
def withStmt (program : Program) (id : StmtId) (stmt : Stmt) : Program :=
  { program with stmts := program.stmts.setIfInBounds id.index stmt }

variable {program : Program} {id : StmtId} {stmt : Stmt}

theorem stmt?_withStmt_self {old : Stmt} (found : program.stmt? id = some old) :
    (program.withStmt id stmt).stmt? id = some stmt := by
  have within := (Array.getElem?_eq_some_iff.mp found).1
  simp only [stmt?, withStmt, Array.getElem?_setIfInBounds_self_of_lt within]

theorem stmt?_withStmt_other {other : StmtId} (different : other ≠ id) :
    (program.withStmt id stmt).stmt? other = program.stmt? other := by
  have apart : id.index ≠ other.index := by
    rcases id with ⟨number⟩
    rcases other with ⟨otherNumber⟩
    intro same
    exact different (congrArg StmtId.mk (UInt32.toNat_inj.mp same.symm))
  simp only [stmt?, withStmt, Array.getElem?_setIfInBounds_ne apart]

theorem nodeCount_withStmt (program : Program) (id : StmtId) (stmt : Stmt) :
    (program.withStmt id stmt).nodeCount = program.nodeCount := by
  simp only [nodeCount, withStmt, Array.size_setIfInBounds]

end Program

end ScriptLowering.Source

namespace ScriptLowering.Lowering

open Source (Program ExprId FuncId Stmt StmtId VarId)

section Replaced

variable {program : Program} (replaced : StmtId) (replacement : Stmt)

theorem stmtDepth_withStmt :
    stmtDepth (program.withStmt replaced replacement) = stmtDepth program := by
  simp only [stmtDepth, Program.nodeCount_withStmt]

theorem sameButStmts_withStmt :
    SameButStmts program (program.withStmt replaced replacement) := ⟨rfl, rfl, rfl⟩

theorem lowerNodeOf_withStmt (finish : String → Lower Unit) (lower : StmtId → Lower Unit)
    (id : StmtId) (stmt : Stmt) :
    lowerNodeOf (program.withStmt replaced replacement) finish lower id stmt =
      lowerNodeOf program finish lower id stmt :=
  (sameButStmts_withStmt replaced replacement).lowerNodeOf_eq finish lower id stmt

theorem walkNodeOf_withStmt (walk : StmtId → List Node) (stmt : Stmt) :
    walkNodeOf (program.withStmt replaced replacement) walk stmt = walkNodeOf program walk stmt :=
  (sameButStmts_withStmt replaced replacement).walkNodeOf_eq walk stmt

end Replaced

/-! ## Compound statements that are cut short -/

section Cut

variable {program : Program}

theorem walkNodeOf_sublist {walk other : StmtId → List Node}
    (shorter : ∀ child, (walk child).Sublist (other child)) (stmt : Stmt) :
    (walkNodeOf program walk stmt).Sublist (walkNodeOf program other stmt) := by
  have each (stmts : List StmtId) : (stmts.flatMap walk).Sublist (stmts.flatMap other) :=
    .flatMap_right stmts fun child _ => shorter child
  cases stmt with
  | compound stmts => exact each stmts
  | functionDecl func =>
      refine .cons_cons _ ?_
      cases program.function? func with
      | none => exact .refl _
      | some decl => exact (List.Sublist.refl _).append (shorter decl.body)
  | ifThenElse condition thenBody elseBody =>
      exact (List.Sublist.refl _).append ((shorter thenBody).append (each _))
  | whileLoop condition body => exact (List.Sublist.refl _).append (shorter body)
  | forLoop initial condition updates body =>
      have starts : (walkForInit program walk initial).Sublist (walkForInit program other initial) := by
        cases initial with
        | decl stmt => exact shorter stmt
        | exprs exprs => exact .refl _
      exact starts.append ((List.Sublist.refl _).append ((shorter body).append (.refl _)))
  | expr | varDecl | continueLoop | breakLoop | returnValue => exact .refl _

variable {block : StmtId} {kept after : List StmtId}
  (isCompound : program.stmt? block = some (.compound (kept ++ after)))

include isCompound

theorem walkStmtWithin_cut_sublist (depth : Nat) (id : StmtId) :
    (walkStmtWithin (program.withStmt block (.compound kept)) depth id).Sublist
      (walkStmtWithin program depth id) := by
  induction depth generalizing id with
  | zero => exact .refl _
  | succ depth induction =>
      by_cases isBlock : id = block
      · subst isBlock
        rw [walkStmtWithin_eq isCompound, walkStmtWithin_eq (Program.stmt?_withStmt_self isCompound),
          walkNodeOf_withStmt]
        refine .cons_cons _ ((walkNodeOf_sublist induction _).trans ?_)
        simp only [walkNodeOf, List.flatMap_append]
        exact List.sublist_append_left _ _
      · simp only [walkStmtWithin, Program.stmt?_withStmt_other isBlock]
        cases program.stmt? id with
        | none => exact .refl _
        | some stmt =>
            simp only [walkNodeOf_withStmt]
            exact .cons_cons _ (walkNodeOf_sublist induction stmt)

theorem takesNumbers_cut :
    Node.takesNumbers (program.withStmt block (.compound kept)) = Node.takesNumbers program := by
  funext node
  cases node with
  | expr | var | param | function => rfl
  | stmt id =>
      change ((program.withStmt block _).stmt? id).any isControl = (program.stmt? id).any isControl
      by_cases isBlock : id = block
      · subst isBlock
        rw [isCompound, Program.stmt?_withStmt_self isCompound]
        rfl
      · rw [Program.stmt?_withStmt_other isBlock]

theorem demand_walkStmtWithin_cut_le (depth : Nat) (id : StmtId) :
    demand (program.withStmt block (.compound kept))
        (walkStmtWithin (program.withStmt block (.compound kept)) depth id) ≤
      demand program (walkStmtWithin program depth id) := by
  rw [demand, takesNumbers_cut isCompound]
  exact (walkStmtWithin_cut_sublist isCompound depth id).countP_le

theorem functionsOf_walkStmtWithin_cut
    (noFunctions : functionsOf (after.flatMap (walkStmt program)) = []) {depth : Nat}
    (shallow : depth ≤ stmtDepth program) (id : StmtId) :
    functionsOf (walkStmtWithin (program.withStmt block (.compound kept)) depth id) =
      functionsOf (walkStmtWithin program depth id) := by
  induction depth generalizing id with
  | zero => rfl
  | succ depth induction =>
      have inner := induction (Nat.le_of_succ_le shallow)
      have each (stmts : List StmtId) : functionsOf (stmts.flatMap
          (walkStmtWithin (program.withStmt block (.compound kept)) depth)) =
            functionsOf (stmts.flatMap (walkStmtWithin program depth)) := by
        simp only [functionsOf_flatMap, inner]
      by_cases isBlock : id = block
      · subst isBlock
        rw [walkStmtWithin_eq isCompound, walkStmtWithin_eq (Program.stmt?_withStmt_self isCompound),
          walkNodeOf_withStmt]
        have nothing : functionsOf (after.flatMap (walkStmtWithin program depth)) = [] := by
          rw [List.eq_nil_iff_forall_not_mem] at noFunctions ⊢
          intro func member
          rw [mem_functionsOf] at member
          rcases List.mem_flatMap.mp member with ⟨child, isChild, inChild⟩
          refine noFunctions func (mem_functionsOf.mpr (List.mem_flatMap.mpr ⟨child, isChild, ?_⟩))
          exact walkStmtWithin_subset child (Nat.le_of_succ_le shallow) inChild
        simp only [functionsOf_cons, walkNodeOf, List.flatMap_append, functionsOf_append, each, nothing,
          List.append_nil]
      · simp only [walkStmtWithin, Program.stmt?_withStmt_other isBlock]
        cases program.stmt? id with
        | none => rfl
        | some stmt =>
            have same : children (program.withStmt block (.compound kept)) stmt =
                children program stmt := by
              cases stmt with
              | forLoop initial => cases initial <;> rfl
              | _ => rfl
            simp only [functionsOf_cons, functionsOf_walkNodeOf, same, each]

theorem walkProgram_cut_sublist :
    (walkProgram (program.withStmt block (.compound kept))).Sublist (walkProgram program) := by
  unfold walkProgram walkStmt
  rw [stmtDepth_withStmt]
  exact .flatMap_right program.items fun item _ => walkStmtWithin_cut_sublist isCompound _ item

theorem demand_walkProgram_cut_le :
    demand (program.withStmt block (.compound kept))
        (walkProgram (program.withStmt block (.compound kept))) ≤
      demand program (walkProgram program) := by
  rw [demand, takesNumbers_cut isCompound]
  exact (walkProgram_cut_sublist isCompound).countP_le

theorem functionsOf_walkProgram_cut
    (noFunctions : functionsOf (after.flatMap (walkStmt program)) = []) :
    functionsOf (walkProgram (program.withStmt block (.compound kept))) =
      functionsOf (walkProgram program) := by
  simp only [walkProgram, walkStmt, functionsOf_flatMap, stmtDepth_withStmt,
    functionsOf_walkStmtWithin_cut isCompound noFunctions (Nat.le_refl _)]
  rfl

end Cut

end ScriptLowering.Lowering
