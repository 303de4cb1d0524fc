import ScriptLowering.Proofs.LoweringStages

/-! # What expressions build

Lowering an expression adds a straight run of instructions, whatever its operands are.
-/

namespace ScriptLowering.Lowering

open Source (Program ExprNode ExprId VarId)
open Code (Operand Place)

variable {program : Program}

theorem LowersValues.prepend {final : Session} {depth : Nat} {id : ExprId} {ids : List ExprId}
    {value : Operand} {values : List Operand} {place middle after : Place}
    (first : LowersValues program final depth [id] place [value] middle)
    (rest : LowersValues program final depth ids middle values after) :
    LowersValues program final depth (id :: ids) place (value :: values) after := by
  cases first with
  | cons found computes fit emits ends =>
      cases ends
      exact .cons found computes fit emits rest

theorem LowersExprWithin.value {final : Session} {depth : Nat} {id : ExprId} {value : Operand}
    {place after : Place}
    (lowers : LowersExprWithin program final depth id place (some value) after) :
    LowersValues program final depth [id] place [value] after := by
  cases lowers with
  | intro found computes fit emits => exact .cons found computes fit emits .nil

/-- The operands of an expression and what is added for the expression itself. -/
def LowersNode (program : Program) (depth : Nat) (node : ExprNode) (final : Session)
    (place : Place) (value : Option Operand) (after : Place) : Prop :=
  ∃ values ready, LowersValues program final depth (operandsOf node) place values ready ∧
    ready.Fit ∧ Emits program final node values ready value after

/-! ## Single forms -/

section Forms

variable {errors : Error → Prop}
  (ordinary : ∀ error : Error, error.IsOrdinary → errors error)
  {lower : ExprId → Lower Operand} {walk : ExprId → List Node} {depth : Nat}
  (operands : ∀ id, Computes program errors (8 * (walk id).length) (lower id)
    fun final place value after => LowersValues program final depth [id] place [value] after)

theorem keeps_lowerStringLiteral (text : String) :
    Computes program errors 3 (lowerStringLiteral text) fun final place value after =>
      LowersNode program depth (.stringLiteral text) final place (some value) after := by
  refine .start fun final session name place count fills => ?_
  have start : session.Fills name place (count + 2 + 1) := fills.mono (by omega)
  refine (Stage.start program final start).thenAddText fun data _ stage => ?_
  refine .of_bind_pure (stage.thenDefine (fun _ => rfl) fun stage => ?_)
  refine stage.finish fun facts => ?_
  exact ⟨[], place, .nil, fills.fit, .stringLiteral facts.2⟩

include ordinary

theorem keeps_lowerIdentifier (text : String) (decl : VarId) :
    Computes program errors 2 (lowerIdentifier program decl)
      fun final place value after =>
        LowersNode program depth (.identifier text decl) final place (some value) after := by
  refine .start fun final session name place count fills => ?_
  have start : session.Fills name place (count + 2) := fills.mono (by omega)
  refine .orFault_bind (fun _ => ordinary _ trivial) fun var found => ?_
  refine (Stage.start program final start).thenStorage ordinary fun address stage => ?_
  refine .of_bind_pure (stage.thenDefine (fun _ => rfl) fun stage => ?_)
  refine stage.finish fun facts => ?_
  exact ⟨[], place, .nil, fills.fit, .identifier found facts.2⟩

include operands

omit ordinary in
theorem keeps_operands (ids : List ExprId) :
    Computes program errors (8 * (ids.flatMap walk).length) (ids.mapM lower)
      fun final place values after => LowersValues program final depth ids place values after := by
  induction ids with
  | nil =>
      refine .start fun final session name place count fills => ?_
      rw [List.mapM_nil]
      exact ((Stage.start program final fills).mono (by omega)).finish fun _ => .nil
  | cons id ids induction =>
      refine .start fun final session name place count fills => ?_
      rw [List.flatMap_cons, List.length_append, Nat.mul_add] at fills
      rw [List.mapM_cons]
      refine (Stage.start program final fills).thenCompute (operands id)
        (8 * (ids.flatMap walk).length + count) (by omega) fun value _ _ stage => ?_
      refine stage.thenCompute induction count (Nat.le_refl _) fun values _ _ stage => ?_
      exact stage.finish fun facts => facts.1.2.prepend facts.2

theorem keeps_lowerCall (callee : String) (args : List ExprId) :
    Computes program errors (8 * (args.flatMap walk).length + 2)
      (lowerCall lower callee args) (LowersNode program depth (.call callee args)) := by
  refine .start fun final session name place count fills => ?_
  have looks : Lower.cursor session = .ok (session.cursor, session) := rfl
  unfold lowerCall
  refine .bind_ok looks ?_
  cases found : session.cursor.module.function? callee with
  | none => exact .of_error rfl (ordinary _ trivial)
  | some function =>
      simp only
      split
      · rename_i arity
        refine ((Stage.start program final fills).remember fun precedes =>
          (precedes.signatures callee).trans (congrArg _ found)).thenCompute
          (keeps_operands operands args) (count + 2) (by omega) fun values _ ready stage => ?_
        have calls := emit_call_eq stage.builds callee function.signature.returns values
        cases returns : function.signature.returns.isVoid with
        | true =>
            rw [returns] at calls
            refine .of_bind_pure (.bind_ok calls ?_)
            refine Stage.finish ((stage.mono (Nat.le_succ (count + 1))).operate (.add rfl))
              fun facts => ?_
            exact ⟨values, ready, facts.2, stage.fit, .callNothing facts.1.2 arity returns⟩
        | false =>
            rw [returns] at calls
            refine .of_bind_pure (.bind_ok calls ?_)
            refine Stage.finish (stage.operate (.define _ fun _ => rfl)) fun facts => ?_
            exact ⟨values, ready, facts.2, stage.fit, .callValue facts.1.2 arity returns⟩
      · exact .of_error rfl (ordinary _ trivial)

theorem keeps_lowerUnary (op : Source.UnaryOp) (operand : ExprId) :
    Computes program errors (8 * (walk operand).length + 2)
      (lowerUnary program lower op operand) fun final place value after =>
        LowersNode program depth (.unary op operand) final place (some value) after := by
  refine .start fun final session name place count fills => ?_
  unfold lowerUnary
  refine .orFault_bind (fun _ => ordinary _ trivial) fun expr found => ?_
  split
  · rename_i isMinus
    refine (Stage.start program final fills).thenCompute (operands operand) (count + 2) (by omega)
      fun value _ ready stage => ?_
    refine .of_bind_pure (stage.thenDefine (fun _ => rfl) fun next => ?_)
    refine next.finish fun facts => ?_
    rw [isMinus.1]
    exact ⟨[value], ready, facts.2, stage.fit, .negate⟩
  · exact .of_error rfl (ordinary _ trivial)

theorem keeps_lowerAssignment (left right : ExprId) :
    Computes program errors (8 * (walk right).length + 1)
      (lowerAssignment program lower left right) fun final place value after =>
        LowersNode program depth (.binary .assign left right) final place (some value) after := by
  refine .start fun final session name place count fills => ?_
  unfold lowerAssignment
  refine .orFault_bind (fun _ => ordinary _ trivial) fun target found => ?_
  split
  · rename_i text decl isIdentifier
    refine (Stage.start program final fills).thenCompute (operands right) (count + 1) (by omega)
      fun value _ ready stage => ?_
    refine stage.thenStorage ordinary fun address stage => ?_
    refine stage.thenAdd rfl fun next => ?_
    refine next.finish fun facts => ?_
    exact ⟨[value], ready, facts.1.2, stage.fit, .assign found isIdentifier facts.2⟩
  · exact .of_error rfl (ordinary _ trivial)

omit ordinary operands in
theorem keeps_emitOperation {op : Source.BinaryOp} {left : ExprId} {expr : Source.Expr}
    {operation : Operation} (found : program.expr? left = some expr)
    (means : operation? op expr.ty = some operation) (right : ExprId) (first second : Operand) :
    Computes program errors 4 (emitOperation first second operation)
      fun final place value after => Emits program final (.binary op left right) [first, second]
        place (some value) after := by
  refine .start fun final session name place count fills => ?_
  have start : session.Fills name place (count + 2 + 2) := fills.mono (by omega)
  have stage := Stage.start program final start
  have fewer := stage.mono (Nat.le_add_right (count + 2) 2)
  cases operation with
  | arith operator =>
      refine .of_bind_pure (fewer.thenDefine (fun _ => rfl) fun stage => ?_)
      exact stage.finish fun _ => .arith found means
  | compare condition =>
      refine .of_bind_pure (fewer.thenDefine (fun _ => rfl) fun stage => ?_)
      exact stage.finish fun _ => .compare found means
  | concat =>
      refine .of_bind_pure (fewer.thenDefine (fun _ => rfl) fun stage => ?_)
      exact stage.finish fun _ => .concat found means
  | compareStrings condition =>
      refine stage.thenDefine (fun _ => rfl) fun stage => ?_
      refine .of_bind_pure (stage.thenDefine (fun _ => rfl) fun stage => ?_)
      exact stage.finish fun _ => .compareStrings found means rfl

theorem keeps_lowerBinary (op : Source.BinaryOp) (left right : ExprId) :
    Computes program errors
      (8 * ((operandsOf (.binary op left right)).flatMap walk).length + 4)
      (lowerBinary program lower op left right) fun final place value after =>
        LowersNode program depth (.binary op left right) final place (some value) after := by
  refine .start fun final session name place count fills => ?_
  unfold lowerBinary
  by_cases assigns : op = .assign
  · subst assigns
    rw [if_pos rfl]
    refine (keeps_lowerAssignment ordinary operands left right).apply final (fills.mono ?_)
    simp [operandsOf]
  · have both : operandsOf (.binary op left right) = [left, right] := by
      simp [operandsOf, assigns]
    rw [both] at fills
    simp only [List.flatMap_cons, List.flatMap_nil, List.append_nil, List.length_append] at fills
    rw [if_neg assigns]
    refine .orFault_bind (fun _ => ordinary _ trivial) fun expr found => ?_
    cases means : operation? op expr.ty with
    | none => exact .of_error rfl (ordinary _ trivial)
    | some operation =>
        refine (Stage.start program final fills).thenCompute (operands left)
          (8 * (walk right).length + (4 + count)) (by omega) fun first _ _ stage => ?_
        refine stage.thenCompute (operands right) (4 + count) (Nat.le_refl _)
          fun second _ ready stage => ?_
        have emits : Computes program errors 4 (emitOperation first second operation) _ :=
          keeps_emitOperation found means right first second
        refine .of_bind_pure (stage.thenCompute emits count (Nat.le_refl _)
          fun _ _ _ next => ?_)
        refine next.finish fun facts => ?_
        refine ⟨[first, second], ready, ?_, stage.fit, facts.2⟩
        rw [both]
        exact facts.1.1.2.prepend facts.1.2

theorem keeps_lowerNode (node : ExprNode) :
    Computes program errors (8 * ((operandsOf node).flatMap walk).length + 4)
      (lowerNode program lower node) (LowersNode program depth node) := by
  cases node with
  | booleanLiteral value =>
      refine .start fun final session name place count fills => ?_
      refine ((Stage.start program final fills).mono (by omega)).finish fun _ => ?_
      exact ⟨[], place, .nil, fills.fit, .booleanLiteral⟩
  | integerLiteral value =>
      refine .start fun final session name place count fills => ?_
      refine ((Stage.start program final fills).mono (by omega)).finish fun _ => ?_
      exact ⟨[], place, .nil, fills.fit, .integerLiteral⟩
  | stringLiteral text => exact ((keeps_lowerStringLiteral text).mono (by omega)).some
  | identifier text decl =>
      exact ((keeps_lowerIdentifier ordinary text decl).mono (by omega)).some
  | call callee args =>
      refine (keeps_lowerCall ordinary operands callee args).mono ?_
      simp only [operandsOf]
      omega
  | unary op operand =>
      refine ((keeps_lowerUnary ordinary operands op operand).mono ?_).some
      simp [operandsOf]
  | binary op left right => exact (keeps_lowerBinary ordinary operands op left right).some

end Forms

/-! ## Whole expressions -/

section Whole

variable {errors : Error → Prop}
  (ordinary : ∀ error : Error, error.IsOrdinary → errors error)

include ordinary

theorem keeps_operand {depth : Nat} {id : ExprId}
    (computes : Computes program errors (8 * (walkExprWithin program depth id).length)
      (lowerExprWithin program depth id) fun final => LowersExprWithin program final depth id) :
    Computes program errors (8 * (walkExprWithin program depth id).length)
      (do requireValue id (← lowerExprWithin program depth id))
      fun final place value after =>
        LowersValues program final depth [id] place [value] after := by
  refine .start fun final session name place count fills => ?_
  refine (Stage.start program final fills).thenCompute computes count (Nat.le_refl _)
    fun result _ _ stage => ?_
  refine .of_bind_pure (.orFault_bind (fun _ => ordinary _ trivial) fun value found => ?_)
  subst found
  exact stage.finish fun facts => facts.2.value

theorem keeps_lowerExprWithin (depth : Nat) (id : ExprId) :
    Computes program errors (8 * (walkExprWithin program depth id).length)
      (lowerExprWithin program depth id)
      fun final => LowersExprWithin program final depth id := by
  induction depth generalizing id with
  | zero =>
      refine .start fun final session name place count fills => ?_
      exact .of_error rfl (ordinary _ trivial)
  | succ depth induction =>
      have operands := fun operand => keeps_operand ordinary (induction operand)
      refine .start fun final session name place count fills => ?_
      unfold lowerExprWithin
      refine .orFault_bind (fun _ => ordinary _ trivial) fun expr found => ?_
      simp only [walkExprWithin, found, List.length_cons] at fills
      refine (Stage.start program final fills).thenCompute (keeps_lowerNode ordinary operands expr.node)
        count (by omega) fun value _ _ stage => ?_
      refine stage.thenRecord ordinary fun _ stage => ?_
      refine stage.finish fun facts => ?_
      rcases facts.2 with ⟨values, ready, computes, fit, emits⟩
      exact .intro found computes fit emits

theorem keeps_lowerExpr (id : ExprId) :
    Computes program errors (8 * (walkExpr program id).length) (lowerExpr program id)
      fun final => LowersExpr program final id :=
  keeps_lowerExprWithin ordinary _ id

theorem keeps_lowerValue (id : ExprId) :
    Computes program errors (8 * (walkExpr program id).length) (lowerValue program id)
      fun final place value after => LowersExpr program final id place (some value) after := by
  refine .start fun final session name place count fills => ?_
  refine (Stage.start program final fills).thenCompute (keeps_lowerExpr ordinary id) count
    (Nat.le_refl _) fun result _ _ stage => ?_
  refine .of_bind_pure (.orFault_bind (fun _ => ordinary _ trivial) fun value found => ?_)
  subst found
  exact stage.finish fun facts => facts.2

theorem keeps_lowerEffect (id : ExprId) :
    Computes program errors (8 * (walkExpr program id).length)
      (do let _ ← lowerExpr program id)
      fun final place _ after => ∃ value, LowersExpr program final id place value after := by
  refine .start fun final session name place count fills => ?_
  refine (Stage.start program final fills).thenCompute (keeps_lowerExpr ordinary id) count
    (Nat.le_refl _) fun value _ _ stage => ?_
  exact stage.finish fun facts => ⟨value, facts.2⟩

theorem keeps_lowerExprs (ids : List ExprId) :
    Computes program errors (8 * (ids.flatMap (walkExpr program)).length)
      (ids.forM fun id => do let _ ← lowerExpr program id)
      fun final place _ after => LowersEach program final ids place after := by
  induction ids with
  | nil =>
      refine .start fun final session name place count fills => ?_
      exact ((Stage.start program final fills).mono (by omega)).finish fun _ => .nil
  | cons id ids induction =>
      refine .start fun final session name place count fills => ?_
      rw [List.flatMap_cons, List.length_append, Nat.mul_add] at fills
      rw [Lower.forM_cons]
      refine (Stage.start program final fills).thenCompute (keeps_lowerEffect ordinary id)
        (8 * (ids.flatMap (walkExpr program)).length + count) (by omega) fun _ _ _ stage => ?_
      refine .of_bind_pure (stage.thenCompute induction count (Nat.le_refl _)
        fun _ _ _ stage => ?_)
      refine stage.finish fun facts => ?_
      rcases facts.1.2 with ⟨value, computes⟩
      exact .cons computes facts.2

end Whole

end ScriptLowering.Lowering
