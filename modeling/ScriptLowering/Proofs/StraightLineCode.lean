import ScriptLowering.Proofs.WorkableSessions

/-! # Straight-line code

Expressions and variables become instructions behind each other: no block is entered or left, and
at most a fresh block is opened to stand in. Whatever is kept by adding an instruction and by
learning of a value or of storage is kept by lowering them.
-/

namespace ScriptLowering.Lowering

open Source (Program ExprId ExprNode VarDecl VarId)
open Code (BlockId Instruction Operand Place Ty)

theorem Error.isUnrefused_program (fault : ProgramFault) : (Error.program fault).IsUnrefused :=
  fun _ same => by cases same

/-- Adding an instruction and learning something other than a loop keep the property. -/
structure Session.Stable (keeps : Session → Prop) : Prop where
  stands : ∀ session, keeps session → ∃ name place, session.Builds name place
  learn : ∀ session next, keeps session → next.cursor.position = session.cursor.position →
    next.cursor.module.functions = session.cursor.module.functions →
    next.annotations.loops = session.annotations.loops → keeps next
  add : ∀ session name place, keeps session → session.Builds name place →
    ∀ instruction, keeps (session.put name (place.ready.add instruction))
  define : ∀ session name place, keeps session → session.Builds name place →
    ∀ ty make, keeps (session.put name (place.ready.define ty make))

/-- The step is not refused and keeps all such properties. -/
def Straight {α : Type} (step : Lower α) : Prop :=
  ∀ keeps, Session.Stable keeps → ∀ session, keeps session →
    step.Ensures session (fun _ => keeps) Error.IsUnrefused

namespace Straight

variable {α β : Type}

theorem pure (value : α) : Straight (Pure.pure value) := fun _ _ _ kept => .pure kept

theorem fail {error : Error} (unrefused : error.IsUnrefused) :
    Straight (Lower.fail error : Lower α) :=
  fun _ _ _ _ => .of_error rfl unrefused

theorem bind {step : Lower α} {rest : α → Lower β} (straight : Straight step)
    (restStraight : ∀ value, Straight (rest value)) : Straight (step >>= rest) :=
  fun keeps stable session kept => (straight keeps stable session kept).bind
    fun value next kept => restStraight value keeps stable next kept

theorem map {step : Lower α} (straight : Straight step) (convert : α → β) :
    Straight (convert <$> step) :=
  fun keeps stable session kept => .map (straight keeps stable session kept)

theorem learn {step : Lower α} {result : Session → α} {later : Session → Session}
    (runs : ∀ session, step session = .ok (result session, later session))
    (position : ∀ session, (later session).cursor.position = session.cursor.position)
    (functions : ∀ session,
      (later session).cursor.module.functions = session.cursor.module.functions)
    (loops : ∀ session, (later session).annotations.loops = session.annotations.loops) :
    Straight step :=
  fun _ stable session kept => .of_ok (runs session)
    (stable.learn session _ kept (position session) (functions session) (loops session))

theorem cursor : Straight Lower.cursor :=
  .learn (fun _ => rfl) (fun _ => rfl) (fun _ => rfl) fun _ => rfl

theorem orFault (found : Option α) (fault : ProgramFault) :
    Straight (Lower.orFault found fault) := by
  cases found with
  | none => exact fail (Error.isUnrefused_program fault)
  | some value => exact pure value

theorem consult (question : Annotations → Except ProgramFault α) :
    Straight (Lower.consult question) :=
  fun _ _ _ kept => .of_bind_pure <|
    .consult_bind (fun fault _ => Error.isUnrefused_program fault) fun _ _ => .pure kept

theorem annotate {change : Annotations → Except ProgramFault Annotations}
    (loops : ∀ annotations next, change annotations = .ok next →
      next.loops = annotations.loops) : Straight (Lower.annotate change) :=
  fun _ stable session kept => .of_bind_pure <|
    .annotate_bind (fun fault _ => Error.isUnrefused_program fault) fun _ changed =>
      .pure (stable.learn session _ kept rfl rfl (loops _ _ changed))

theorem setValue (id : ExprId) (value : Operand) :
    Straight (Lower.annotate fun annotations => annotations.setValue id value) :=
  .annotate fun _ _ done => (Annotations.setValue_eq_ok.mp done).2 ▸ rfl

theorem setStorage (id : VarId) (address : Operand) :
    Straight (Lower.annotate fun annotations => annotations.setStorage id address) :=
  .annotate fun _ _ done => (Annotations.setStorage_eq_ok.mp done).2 ▸ rfl

theorem add (instruction : Instruction) :
    Straight (Lower.append fun cursor => cursor.insert instruction) := by
  intro keeps stable session kept
  rcases stable.stands session kept with ⟨name, place, builds⟩
  exact .of_ok (append_add_eq builds instruction) (stable.add session name place kept builds _)

theorem define (ty : Ty) (make : Operand → Instruction) :
    Straight (Lower.emit fun cursor => cursor.define ty make) := by
  intro keeps stable session kept
  rcases stable.stands session kept with ⟨name, place, builds⟩
  exact .of_ok (emit_define_eq builds ty make)
    (stable.define session name place kept builds ty make)

theorem call (callee : String) (returns : Ty) (args : List Operand) :
    Straight (Lower.emit fun cursor => cursor.call callee returns args) := by
  intro keeps stable session kept
  rcases stable.stands session kept with ⟨name, place, builds⟩
  have runs := emit_call_eq builds callee returns args
  split at runs
  · exact .of_ok runs (stable.add session name place kept builds _)
  · exact .of_ok runs (stable.define session name place kept builds returns _)

theorem forM (items : List α) {body : α → Lower Unit}
    (straight : ∀ item, Straight (body item)) : Straight (items.forM body) := by
  intro keeps stable session kept
  let keepsOn (_ : List α) := keeps
  have start : keepsOn items session := kept
  exact .forM start fun item _ next kept => straight item keeps stable next kept

theorem mapM (items : List α) {body : α → Lower β}
    (straight : ∀ item, Straight (body item)) : Straight (items.mapM body) := by
  induction items with
  | nil => exact pure []
  | cons item rest induction =>
      rw [List.mapM_cons]
      exact (straight item).bind fun _ => induction.bind fun _ => pure _

end Straight

/-! ## Expressions -/

section Expressions

variable {program : Program} {lower : ExprId → Lower Operand}

theorem straight_lowerStringLiteral (text : String) :
    Straight (lowerStringLiteral text) := by
  exact .bind (.learn (fun _ => rfl) (fun _ => rfl) (fun _ => rfl) fun _ => rfl)
    fun _ => .define _ _

theorem straight_lowerIdentifier (decl : VarId) : Straight (lowerIdentifier program decl) :=
  .bind (.orFault _ _) fun _ => .bind (.consult _) fun _ => .define _ _

theorem straight_lowerCall (straight : ∀ id, Straight (lower id)) (callee : String)
    (args : List ExprId) : Straight (lowerCall lower callee args) := by
  refine .bind .cursor fun cursor => ?_
  cases cursor.module.function? callee with
  | none => exact .fail fun _ same => by cases same
  | some function =>
      dsimp only
      split
      · exact .bind (.mapM args straight) fun _ => .call _ _ _
      · exact .fail fun _ same => by cases same

theorem straight_lowerUnary (straight : ∀ id, Straight (lower id)) (op : Source.UnaryOp)
    (operand : ExprId) : Straight (lowerUnary program lower op operand) := by
  refine .bind (.orFault _ _) fun expr => ?_
  split
  · exact .bind (straight operand) fun _ => .define _ _
  · exact .fail fun _ same => by cases same

theorem straight_lowerAssignment (straight : ∀ id, Straight (lower id)) (left right : ExprId) :
    Straight (lowerAssignment program lower left right) := by
  refine .bind (.orFault _ _) fun target => ?_
  split
  · exact .bind (straight right) fun _ => .bind (.consult _) fun _ => .bind (.add _) fun _ =>
      .pure _
  · exact .fail (Error.isUnrefused_program _)

theorem straight_emitOperation (left right : Operand) (operation : Operation) :
    Straight (emitOperation left right operation) := by
  cases operation with
  | arith op => exact .define _ _
  | compare condition => exact .define _ _
  | concat => exact .define _ _
  | compareStrings condition => exact .bind (.define _ _) fun _ => .define _ _

theorem straight_lowerBinary (straight : ∀ id, Straight (lower id)) (op : Source.BinaryOp)
    (left right : ExprId) : Straight (lowerBinary program lower op left right) := by
  unfold lowerBinary
  split
  · exact straight_lowerAssignment straight left right
  · refine .bind (.orFault _ _) fun expr => ?_
    split
    · exact .fail fun _ same => by cases same
    · exact .bind (straight left) fun _ => .bind (straight right) fun _ =>
        straight_emitOperation _ _ _

theorem straight_lowerNode (straight : ∀ id, Straight (lower id)) (node : ExprNode) :
    Straight (lowerNode program lower node) := by
  cases node with
  | booleanLiteral value => exact .pure _
  | integerLiteral value => exact .pure _
  | stringLiteral text => exact .map (straight_lowerStringLiteral text) _
  | identifier name decl => exact .map (straight_lowerIdentifier decl) _
  | call callee args => exact straight_lowerCall straight callee args
  | unary op operand => exact .map (straight_lowerUnary straight op operand) _
  | binary op left right => exact .map (straight_lowerBinary straight op left right) _

theorem straight_recordValue (id : ExprId) (value : Option Operand) :
    Straight (recordValue id value) := by
  cases value with
  | none => exact .pure _
  | some value => exact .setValue id value

theorem straight_lowerExprWithin (depth : Nat) (id : ExprId) :
    Straight (lowerExprWithin program depth id) := by
  induction depth generalizing id with
  | zero => exact .fail (Error.isUnrefused_program _)
  | succ depth induction =>
      have operands : ∀ operand, Straight (do
          requireValue operand (← lowerExprWithin program depth operand)) :=
        fun operand => .bind (induction operand) fun _ => .orFault _ _
      exact .bind (.orFault _ _) fun expr => .bind (straight_lowerNode operands expr.node)
        fun value => .bind (straight_recordValue id value) fun _ => .pure _

theorem straight_lowerExpr (id : ExprId) : Straight (lowerExpr program id) :=
  straight_lowerExprWithin _ id

theorem straight_lowerValue (id : ExprId) : Straight (lowerValue program id) :=
  .bind (straight_lowerExpr id) fun _ => .orFault _ _

theorem straight_lowerExprs (ids : List ExprId) :
    Straight (ids.forM fun id => do let _ ← lowerExpr program id) :=
  .forM ids fun id => .bind (straight_lowerExpr id) fun _ => .pure _

/-! ## Variables -/

theorem straight_lowerInitial (decl : VarDecl) : Straight (lowerInitial program decl) := by
  unfold lowerInitial
  split
  · exact .map (straight_lowerValue _) _
  · exact .pure _

theorem straight_lowerGlobal (id : VarId) (decl : VarDecl) (value : Option Operand) :
    Straight (lowerGlobal program id decl value) := by
  refine .bind (.consult _) fun initial => .bind ?_ fun global => ?_
  · exact .learn (fun _ => rfl) (fun _ => rfl) (fun _ => rfl) fun _ => rfl
  · cases value with
    | none => exact .setStorage id (.global global)
    | some value =>
        dsimp only
        split
        · exact .bind (.add _) fun _ => .setStorage _ _
        · exact .setStorage _ _

theorem straight_lowerLocal (id : VarId) (decl : VarDecl) (value : Option Operand) :
    Straight (lowerLocal id decl value) := by
  refine .bind (.define _ _) fun slot => ?_
  cases value with
  | none => exact .setStorage id slot
  | some value => exact .bind (.add _) fun _ => .setStorage _ _

theorem straight_lowerVarDecl (id : VarId) : Straight (lowerVarDecl program id) := by
  refine .bind (.orFault _ _) fun decl => ?_
  split
  · exact .fail (Error.isUnrefused_program _)
  · refine .bind (straight_lowerInitial decl) fun value => ?_
    cases decl.scope with
    | topLevel => exact straight_lowerGlobal id decl value
    | «local» => exact straight_lowerLocal id decl value

theorem straight_lowerParam (id : VarId) (index : Nat) :
    Straight (lowerParam program id index) :=
  .bind (.orFault _ _) fun _ => .bind (.define _ _) fun _ => .bind (.add _) fun _ => .setStorage _ _

end Expressions

end ScriptLowering.Lowering
