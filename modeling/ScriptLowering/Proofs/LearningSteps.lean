import ScriptLowering.Proofs.NodeOccurrences
import ScriptLowering.Proofs.CursorRoutines

/-! # What steps learn

Only declarations and loops add to what later steps look up. All that builds code learns
nothing, and expressions learn values only.
-/

namespace ScriptLowering.Lowering

open Source (Program ExprId ExprNode VarDecl VarId)
open Code (BlockId Cursor Operand)

variable {program : Program}

/-! ## Building -/

def Steady {α : Type} (step : Lower α) : Prop :=
  ∀ session, step.Ensures session (fun _ next => next.annotations = session.annotations)
    fun _ => True

namespace Steady

variable {α β : Type}

theorem routine : Routine (fun session next => next.annotations = session.annotations)
    fun _ => True where
  refl := fun _ => rfl
  trans := fun first second => second.trans first
  refused := fun _ => trivial
  rejected := fun _ => trivial
  moves := fun _ _ => rfl
  fills := fun _ _ _ => rfl
  texts := fun _ _ => rfl
  finalizes := fun _ _ _ _ _ => rfl

theorem pure (value : α) : Steady (Pure.pure value) := routine.pure value

theorem bind {step : Lower α} {rest : α → Lower β} (steady : Steady step)
    (restSteady : ∀ value, Steady (rest value)) : Steady (step >>= rest) :=
  routine.bind steady restSteady

theorem cursor : Steady Lower.cursor := routine.cursor

theorem moveCursor (move : Cursor → Cursor) : Steady (Lower.moveCursor move) :=
  fun _ => .of_ok rfl rfl

theorem buildWith (step : Cursor → Except Code.BuildError (α × Cursor)) :
    Steady (Lower.buildWith step) := fun _ => .buildWith (fun _ _ => trivial) fun _ _ _ => rfl

theorem build (step : Cursor → Except Code.BuildError Cursor) : Steady (Lower.build step) :=
  fun _ => .build (fun _ _ => trivial) fun _ _ => rfl

theorem append (step : Cursor → Except Code.BuildError Cursor) : Steady (Lower.append step) :=
  .bind (.build _) fun _ => .build _

theorem emit (step : Cursor → Except Code.BuildError α × Cursor) : Steady (Lower.emit step) :=
  .bind (.build _) fun _ => .buildWith _

theorem orFault (found : Option α) (fault : ProgramFault) : Steady (Lower.orFault found fault) :=
  routine.orFault found trivial

theorem consult (question : Annotations → Except ProgramFault α) :
    Steady (Lower.consult question) := routine.consult question fun _ => trivial

theorem createBlock (label : String) : Steady (createBlock label) := routine.createBlock label

theorem leaveTo (target : BlockId) : Steady (leaveTo target) := routine.leaveTo target

theorem enter (block : BlockId) (closing : Bool) : Steady (enter block closing) :=
  routine.enter block closing

theorem openFunction (name : String) : Steady (openFunction name) := routine.openFunction name

theorem returnIfLive (value : Option Operand) : Steady (returnIfLive value) :=
  routine.returnIfLive value

theorem finishFunction (options : Options) (name : String) :
    Steady (finishFunction options name) := routine.finishFunction options name

theorem emitOperation (left right : Operand) (operation : Operation) :
    Steady (emitOperation left right operation) := routine.emitOperation left right operation

end Steady

/-! ## Expressions

Expressions declare nothing. They can only use what has storage. -/

/-- The step learns of no storage and no loop, and the variables `used` have storage. -/
def Reads {α : Type} (used : List VarId) (step : Lower α) : Prop :=
  ∀ session, step.Ensures session (fun _ next =>
    (next.annotations.storage = session.annotations.storage ∧
      next.annotations.loops = session.annotations.loops) ∧
    ∀ id ∈ used, session.annotations.storage.contains id = true) fun _ => True

namespace Reads

variable {α β : Type} {used more : List VarId}

theorem of_steady {step : Lower α} (steady : Steady step) : Reads [] step := by
  intro session
  apply (steady session).mono
  intro _ next same
  exact ⟨⟨congrArg Annotations.storage same, congrArg Annotations.loops same⟩, by simp⟩

theorem mono {step : Lower α} (reads : Reads used step) (within : more ⊆ used) :
    Reads more step := by
  intro session
  apply (reads session).mono
  rintro _ next ⟨same, stored⟩
  exact ⟨same, fun id member => stored id (within member)⟩

theorem bind {step : Lower α} {rest : α → Lower β} (reads : Reads used step)
    (restReads : ∀ value, Reads more (rest value)) : Reads (used ++ more) (step >>= rest) := by
  intro session
  apply (reads session).bind
  rintro value between ⟨⟨storage, loops⟩, early⟩
  apply (restReads value between).mono
  rintro _ next ⟨⟨laterStorage, laterLoops⟩, late⟩
  refine ⟨⟨laterStorage.trans storage, laterLoops.trans loops⟩, ?_⟩
  intro id member
  cases List.mem_append.mp member with
  | inl isEarly => exact early id isEarly
  | inr isLate =>
      rw [storage] at late
      exact late id isLate

theorem after {step : Lower α} {rest : α → Lower β} (steady : Steady step)
    (restReads : ∀ value, Reads used (rest value)) : Reads used (step >>= rest) :=
  bind (of_steady steady) restReads

theorem thenSteady {step : Lower α} {rest : α → Lower β} (reads : Reads used step)
    (steady : ∀ value, Steady (rest value)) : Reads used (step >>= rest) := by
  apply (reads.bind fun value => of_steady (steady value)).mono
  exact List.subset_append_left _ _

theorem map {step : Lower α} (reads : Reads used step) (convert : α → β) :
    Reads used (convert <$> step) :=
  fun session => .map (reads session)

theorem storageOf (id : VarId) :
    Reads [id] (Lower.consult fun annotations => annotations.storageOf id) := by
  intro session
  apply Lower.Ensures.of_bind_pure
  refine .consult_bind (fun _ _ => trivial) fun address known => .pure ⟨⟨rfl, rfl⟩, ?_⟩
  intro other member
  cases List.mem_singleton.mp member
  rw [Table.contains, Annotations.storageOf_eq_ok.mp known]
  rfl

theorem mapM {items : List ExprId} {uses : ExprId → List VarId} {body : ExprId → Lower β}
    (reads : ∀ item, Reads (uses item) (body item)) :
    Reads (items.flatMap uses) (items.mapM body) := by
  induction items with
  | nil => exact of_steady (.pure _)
  | cons item rest induction =>
      rw [List.mapM_cons, List.flatMap_cons]
      exact (reads item).bind fun _ => induction.thenSteady fun _ => .pure _

theorem forM {items : List ExprId} {uses : ExprId → List VarId} {body : ExprId → Lower Unit}
    (reads : ∀ item, Reads (uses item) (body item)) :
    Reads (items.flatMap uses) (items.forM body) := by
  induction items with
  | nil => exact of_steady (.pure _)
  | cons item rest induction =>
      rw [Lower.forM_cons, List.flatMap_cons]
      exact (reads item).bind fun _ => induction

end Reads

section Expressions

variable {lower : ExprId → Lower Operand} {uses : ExprId → List VarId}

theorem reads_recordValue (id : ExprId) (value : Option Operand) :
    Reads [] (recordValue id value) := by
  cases value with
  | none => exact .of_steady (.pure _)
  | some value =>
      intro session
      change Lower.Ensures (Lower.annotate fun annotations => annotations.setValue id value) _ _ _
      apply Lower.Ensures.of_bind_pure
      refine .annotate_bind (fun _ _ => trivial) fun annotations records => .pure ?_
      rcases Annotations.setValue_eq_ok.mp records with ⟨_, rfl⟩
      exact ⟨⟨rfl, rfl⟩, by simp⟩

theorem reads_lowerStringLiteral (text : String) : Reads [] (lowerStringLiteral text) :=
  .of_steady (Steady.routine.lowerStringLiteral text)

theorem reads_lowerIdentifier (id : VarId) : Reads [id] (lowerIdentifier program id) :=
  .after (.orFault _ _) fun _ => (Reads.storageOf id).thenSteady fun _ => .emit _

theorem reads_lowerCall (reads : ∀ id, Reads (uses id) (lower id)) (callee : String)
    (args : List ExprId) : Reads (args.flatMap uses) (lowerCall lower callee args) := by
  apply Reads.after .cursor
  intro cursor
  cases cursor.module.function? callee with
  | none => exact fun _ => .of_error rfl trivial
  | some function =>
      dsimp only
      split
      · exact (Reads.mapM reads).thenSteady fun _ => .emit _
      · exact fun _ => .of_error rfl trivial

theorem reads_lowerUnary (reads : ∀ id, Reads (uses id) (lower id)) (op : Source.UnaryOp)
    (operand : ExprId) : Reads (uses operand) (lowerUnary program lower op operand) := by
  apply Reads.after (.orFault _ _)
  intro expr
  split
  · exact (reads operand).thenSteady fun _ => .emit _
  · exact fun _ => .of_error rfl trivial

theorem reads_lowerAssignment (reads : ∀ id, Reads (uses id) (lower id)) (left right : ExprId) :
    Reads ((usedVar? program (.binary .assign left right)).toList ++ uses right)
      (lowerAssignment program lower left right) := by
  intro session
  refine .orFault_bind (fun _ => trivial) fun target known => ?_
  split
  · rename_i name decl isIdentifier
    have both : Reads (uses right ++ [decl]) (do
        let value ← lower right
        let address ← Lower.consult fun annotations => annotations.storageOf decl
        Lower.append fun cursor => cursor.store address value
        return value) :=
      (reads right).bind fun _ => (Reads.storageOf decl).thenSteady fun _ =>
        .bind (.append _) fun _ => .pure _
    refine both.mono ?_ session
    simp [usedVar?, known, isIdentifier]
  · exact .of_error rfl trivial

theorem reads_lowerBinary (reads : ∀ id, Reads (uses id) (lower id)) (op : Source.BinaryOp)
    (left right : ExprId) :
    Reads ((usedVar? program (.binary op left right)).toList ++
      (operandsOf (.binary op left right)).flatMap uses)
      (lowerBinary program lower op left right) := by
  unfold lowerBinary
  split
  · rename_i isAssign
    subst isAssign
    simpa [operandsOf] using reads_lowerAssignment reads left right
  · rename_i notAssign
    have none : usedVar? program (.binary op left right) = none := by
      cases op <;> first | rfl | exact absurd rfl notAssign
    rw [none]
    apply Reads.after (.orFault _ _)
    intro expr
    split
    · exact fun _ => .of_error rfl trivial
    · have both := (reads left).bind fun leftValue => (reads right).thenSteady fun rightValue =>
        Steady.emitOperation leftValue rightValue ‹Operation›
      simpa [operandsOf, notAssign] using both

theorem reads_lowerNode (program : Program) (reads : ∀ id, Reads (uses id) (lower id))
    (node : ExprNode) :
    Reads ((usedVar? program node).toList ++ (operandsOf node).flatMap uses)
      (lowerNode program lower node) := by
  cases node with
  | booleanLiteral value => exact .of_steady (.pure _)
  | integerLiteral value => exact .of_steady (.pure _)
  | stringLiteral text => exact .map (reads_lowerStringLiteral text) _
  | identifier name decl =>
      exact .map (reads_lowerIdentifier decl) _
  | call callee args => exact reads_lowerCall reads callee args
  | unary op operand =>
      have same : (usedVar? program (.unary op operand)).toList ++
          (operandsOf (.unary op operand)).flatMap uses = uses operand := by
        simp [usedVar?, operandsOf]
      rw [same]
      exact .map (reads_lowerUnary reads op operand) _
  | binary op left right => exact .map (reads_lowerBinary reads op left right) _

def usesOf (program : Program) (nodes : List Node) : List VarId :=
  nodes.filterMap (Node.uses? program)

theorem usesOf_flatMap {α : Type} (walk : α → List Node) (items : List α) :
    usesOf program (items.flatMap walk) = items.flatMap fun item => usesOf program (walk item) := by
  induction items with
  | nil => rfl
  | cons head tail induction => simp_all [usesOf]

theorem reads_lowerExprWithin (depth : Nat) (id : ExprId) :
    Reads (usesOf program (walkExprWithin program depth id))
      (lowerExprWithin program depth id) := by
  induction depth generalizing id with
  | zero => exact fun _ => .of_error rfl trivial
  | succ depth induction =>
      intro session
      refine .orFault_bind (fun _ => trivial) fun expr known => ?_
      have operands : ∀ operand, Reads (usesOf program (walkExprWithin program depth operand))
          (do requireValue operand (← lowerExprWithin program depth operand)) :=
        fun operand => (induction operand).thenSteady fun _ => .orFault _ _
      have whole := (reads_lowerNode program operands expr.node).bind fun value =>
        (reads_recordValue id value).thenSteady fun _ => .pure value
      refine whole.mono ?_ session
      have same : usesOf program (walkExprWithin program (depth + 1) id) =
          (usedVar? program expr.node).toList ++ (operandsOf expr.node).flatMap fun operand =>
            usesOf program (walkExprWithin program depth operand) := by
        rw [← usesOf_flatMap]
        simp only [walkExprWithin, known, usesOf, List.filterMap_cons, Node.uses?,
          Option.bind_some]
        cases usedVar? program expr.node <;> rfl
      rw [same, List.append_nil]
      exact List.Subset.refl _

theorem reads_lowerExpr (id : ExprId) :
    Reads (usesOf program (walkExpr program id)) (lowerExpr program id) :=
  reads_lowerExprWithin _ id

theorem reads_lowerValue (id : ExprId) :
    Reads (usesOf program (walkExpr program id)) (lowerValue program id) :=
  (reads_lowerExpr id).thenSteady fun _ => .orFault _ _

theorem reads_lowerExprs (ids : List ExprId) :
    Reads (usesOf program (ids.flatMap (walkExpr program)))
      (ids.forM fun id => do let _ ← lowerExpr program id) := by
  rw [usesOf_flatMap]
  exact .forM fun id => (reads_lowerExpr id).thenSteady fun _ => .pure _

theorem reads_lowerInitial (decl : VarDecl) :
    Reads (usesOf program (decl.initial.toList.flatMap (walkExpr program)))
      (lowerInitial program decl) := by
  unfold lowerInitial
  cases decl.initial with
  | none => exact .of_steady (.pure _)
  | some expr =>
      have same : (some expr).toList.flatMap (walkExpr program) = walkExpr program expr := by simp
      rw [same]
      exact .map (reads_lowerValue expr) _

theorem jumpsTo?_of_mem_walkExprWithin {depth : Nat} {id : ExprId} {node : Node}
    (member : node ∈ walkExprWithin program depth id) : node.jumpsTo? program = none := by
  rcases exists_expr_of_mem_walkExprWithin program member with ⟨_, rfl⟩
  rfl

theorem jumpsTo?_of_mem_walkExprs {ids : List ExprId} {node : Node}
    (member : node ∈ ids.flatMap (walkExpr program)) : node.jumpsTo? program = none := by
  rcases List.mem_flatMap.mp member with ⟨id, _, inside⟩
  exact jumpsTo?_of_mem_walkExprWithin inside

end Expressions

end ScriptLowering.Lowering
