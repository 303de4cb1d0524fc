import ScriptLowering.Proofs.VerifierChecks
import ScriptLowering.Proofs.Declarations
import ScriptLowering.Proofs.CursorRoutines

/-! # Steps that leave globals alone

Only the declaration of a variable of the top level adds a global. Every other step of lowering is
quiet: the globals are the same afterwards, and nothing has been given storage.
-/

namespace ScriptLowering.Code

/-! ## Building leaves globals alone -/

/-- The globals have stayed as they were. -/
structure Cursor.SameGlobals (cursor next : Cursor) : Prop where
  globals : next.module.globals = cursor.module.globals
  next : next.module.nextGlobal = cursor.module.nextGlobal

namespace Cursor.SameGlobals

variable {cursor middle next : Cursor}

theorem refl (cursor : Cursor) : cursor.SameGlobals cursor := ⟨rfl, rfl⟩

theorem trans (first : cursor.SameGlobals middle) (second : middle.SameGlobals next) :
    cursor.SameGlobals next :=
  ⟨second.globals.trans first.globals, second.next.trans first.next⟩

theorem finalize {name : String} {pruned : Nat} (prunes : cursor.finalize name = .ok (pruned, next)) :
    cursor.SameGlobals next := by
  unfold Cursor.finalize at prunes
  split at prunes
  · cases prunes
  · cases prunes
    split <;> exact ⟨rfl, rfl⟩

end Cursor.SameGlobals

end ScriptLowering.Code

namespace ScriptLowering.Lowering

open Source (Program ExprId ExprNode ForInit FuncId Stmt StmtId VarDecl VarId)
open Code (BlockId Cursor GlobalId Operand)

variable {program : Program}

/-! ## Quiet steps -/

/-- Neither globals nor storage have changed. -/
structure Session.SameGlobals (session next : Session) : Prop where
  storage : next.annotations.storage = session.annotations.storage
  cursor : session.cursor.SameGlobals next.cursor

theorem Session.SameGlobals.refl (session : Session) : session.SameGlobals session :=
  ⟨rfl, .refl session.cursor⟩

theorem Session.SameGlobals.trans {session middle next : Session}
    (first : session.SameGlobals middle) (second : middle.SameGlobals next) :
    session.SameGlobals next :=
  ⟨second.storage.trans first.storage, first.cursor.trans second.cursor⟩

def Quiet {α : Type} (step : Lower α) : Prop :=
  ∀ session, step.Ensures session (fun _ next => session.SameGlobals next) fun _ => True

namespace Quiet

variable {α β : Type}

theorem routine : Routine Session.SameGlobals fun _ => True where
  refl := .refl
  trans := .trans
  refused := fun _ => trivial
  rejected := fun _ => trivial
  moves := fun _ _ => ⟨rfl, rfl, rfl⟩
  fills := fun _ _ fills => ⟨rfl, fills.globals, fills.nextGlobal⟩
  texts := fun _ _ => ⟨rfl, rfl, rfl⟩
  finalizes := fun _ _ _ _ prunes => ⟨rfl, .finalize prunes⟩

theorem pure (value : α) : Quiet (Pure.pure value) := routine.pure value

theorem fail (error : Error) : Quiet (Lower.fail error : Lower α) := Routine.fail trivial

theorem bind {step : Lower α} {rest : α → Lower β} (quiet : Quiet step)
    (restQuiet : ∀ value, Quiet (rest value)) : Quiet (step >>= rest) := routine.bind quiet restQuiet

theorem map {step : Lower α} (quiet : Quiet step) (convert : α → β) : Quiet (convert <$> step) :=
  routine.map quiet convert

theorem forM {items : List α} {body : α → Lower Unit} (quiet : ∀ item, Quiet (body item)) :
    Quiet (items.forM body) := routine.forM quiet

theorem mapM {items : List α} {body : α → Lower β} (quiet : ∀ item, Quiet (body item)) :
    Quiet (items.mapM body) := routine.mapM quiet

theorem cursor : Quiet Lower.cursor := routine.cursor

theorem orFault (found : Option α) (fault : ProgramFault) : Quiet (Lower.orFault found fault) :=
  routine.orFault found trivial

theorem consult (question : Annotations → Except ProgramFault α) : Quiet (Lower.consult question) :=
  routine.consult question fun _ => trivial

theorem setPosition (position : Code.Position) :
    Quiet (Lower.moveCursor fun cursor => cursor.setPosition position) := routine.setPosition position

theorem insert (instruction : Code.Instruction) :
    Quiet (Lower.append fun cursor => cursor.insert instruction) := routine.insert instruction

theorem terminate (terminator : Code.Terminator) :
    Quiet (Lower.append fun cursor => cursor.terminate terminator) := routine.terminate terminator

theorem define (ty : Code.Ty) (instruction : Operand → Code.Instruction) :
    Quiet (Lower.emit fun cursor => cursor.define ty instruction) := routine.define ty instruction

theorem call (callee : String) (returns : Code.Ty) (args : List Operand) :
    Quiet (Lower.emit fun cursor => cursor.call callee returns args) :=
  routine.call callee returns args

theorem annotate {change : Annotations → Except ProgramFault Annotations}
    (same : ∀ annotations next, change annotations = .ok next → next.storage = annotations.storage) :
    Quiet (Lower.annotate change) :=
  fun session => .annotate (fun _ _ => trivial)
    fun _ changes => ⟨same _ _ changes, .refl session.cursor⟩

theorem setLoop (id : StmtId) (blocks : LoopBlocks) :
    Quiet (Lower.annotate fun annotations => annotations.setLoop id blocks) :=
  annotate fun _ _ sets => (Annotations.setLoop_eq_ok.mp sets).2 ▸ rfl

theorem createBlock (label : String) : Quiet (createBlock label) := routine.createBlock label

theorem leaveTo (target : BlockId) : Quiet (leaveTo target) := routine.leaveTo target

theorem enter (block : BlockId) (closing : Bool) : Quiet (enter block closing) :=
  routine.enter block closing

theorem createUpdateBlock (updates : List ExprId) : Quiet (createUpdateBlock updates) :=
  routine.createUpdateBlock updates

theorem openFunction (name : String) : Quiet (openFunction name) := routine.openFunction name

theorem returnIfLive (value : Option Operand) : Quiet (returnIfLive value) :=
  routine.returnIfLive value

theorem finishFunction (options : Options) (name : String) : Quiet (finishFunction options name) :=
  routine.finishFunction options name

/-! ### Expressions -/

theorem recordValue (id : ExprId) (value : Option Operand) : Quiet (recordValue id value) := by
  cases value with
  | none => exact pure _
  | some value =>
      change Quiet (Lower.annotate fun annotations => annotations.setValue id value)
      exact annotate fun _ _ sets => (Annotations.setValue_eq_ok.mp sets).2 ▸ rfl

section Expressions

variable {lower : ExprId → Lower Operand} (quiet : ∀ id, Quiet (lower id))

include quiet

theorem lowerCall (callee : String) (args : List ExprId) : Quiet (lowerCall lower callee args) := by
  apply bind cursor
  intro cursor
  cases cursor.module.function? callee with
  | none => exact fail _
  | some function =>
      dsimp only
      split
      · exact bind (mapM quiet) fun _ => call _ _ _
      · exact fail _

theorem lowerUnary (op : Source.UnaryOp) (operand : ExprId) :
    Quiet (lowerUnary program lower op operand) := by
  apply bind (orFault _ _)
  intro expr
  split
  · exact bind (quiet operand) fun _ => define _ _
  · exact fail _

theorem lowerBinary (op : Source.BinaryOp) (left right : ExprId) :
    Quiet (lowerBinary program lower op left right) := by
  unfold Lowering.lowerBinary
  split
  · apply bind (orFault _ _)
    intro target
    split
    · exact bind (quiet right) fun _ => bind (consult _) fun _ => bind (insert _) fun _ => pure _
    · exact fail _
  · apply bind (orFault _ _)
    intro expr
    split
    · exact fail _
    · exact bind (quiet left) fun _ => bind (quiet right) fun _ =>
      routine.emitOperation _ _ _

theorem lowerNode (node : ExprNode) : Quiet (lowerNode program lower node) := by
  cases node with
  | booleanLiteral value => exact pure _
  | integerLiteral value => exact pure _
  | stringLiteral text => exact map (routine.lowerStringLiteral text) _
  | identifier name decl =>
      exact map (bind (orFault _ _) fun _ => bind (consult _) fun _ => define _ _) _
  | call callee args => exact lowerCall quiet callee args
  | unary op operand => exact map (lowerUnary quiet op operand) _
  | binary op left right => exact map (lowerBinary quiet op left right) _

end Expressions

theorem lowerExprWithin (depth : Nat) (id : ExprId) : Quiet (lowerExprWithin program depth id) := by
  induction depth generalizing id with
  | zero => exact fail _
  | succ depth induction =>
      have operands : ∀ operand, Quiet (do
          requireValue operand (← Lowering.lowerExprWithin program depth operand)) :=
        fun operand => (induction operand).bind fun _ => orFault _ _
      exact bind (orFault _ _) fun expr => bind (lowerNode operands expr.node) fun value =>
        bind (recordValue id value) fun _ => pure _

theorem lowerExpr (id : ExprId) : Quiet (lowerExpr program id) := lowerExprWithin _ id

theorem lowerValue (id : ExprId) : Quiet (lowerValue program id) :=
  (lowerExpr id).bind fun _ => orFault _ _

theorem lowerExprs (ids : List ExprId) :
    Quiet (ids.forM fun id => do let _ ← Lowering.lowerExpr program id) :=
  forM fun id => (lowerExpr id).bind fun _ => pure _

theorem lowerInitial (decl : VarDecl) : Quiet (lowerInitial program decl) := by
  unfold Lowering.lowerInitial
  cases decl.initial with
  | none => exact pure _
  | some expr => exact map (lowerValue expr) _

end Quiet

end ScriptLowering.Lowering
