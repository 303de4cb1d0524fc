import ScriptLowering.Proofs.CursorRoutines
import ScriptLowering.Proofs.FunctionStructure

/-! # Steps that only build

A step that only builds learns nothing about the program and leaves signatures alone. If it fails,
then because building is refused, and not because of the program.
-/

namespace ScriptLowering.Lowering

open Source (Program ExprId StmtId VarId VarDecl)
open Code (BlockId Cursor Operand)

/-- The session knows the same of the program, and functions have the same signatures. -/
structure Session.Alike (session next : Session) : Prop where
  annotations : next.annotations = session.annotations
  signatures : ∀ name, (next.cursor.module.function? name).map Code.Function.signature =
    (session.cursor.module.function? name).map Code.Function.signature

theorem Session.Alike.refl (session : Session) : session.Alike session := ⟨rfl, fun _ => rfl⟩

theorem Session.Alike.trans {session middle next : Session} (first : session.Alike middle)
    (second : middle.Alike next) : session.Alike next :=
  ⟨second.annotations.trans first.annotations,
    fun name => (second.signatures name).trans (first.signatures name)⟩

def Silent {α : Type} (step : Lower α) : Prop :=
  ∀ session, step.Ensures session (fun _ next => session.Alike next) fun error => ¬ error.IsOrdinary

theorem signatures_finalize {cursor next : Cursor} {name : String} {pruned : Nat}
    (prunes : cursor.finalize name = .ok (pruned, next)) (other : String) :
    (next.module.function? other).map Code.Function.signature =
      (cursor.module.function? other).map Code.Function.signature := by
  have kept : ∀ body, ((cursor.setBody name body).module.function? other).map
      Code.Function.signature = (cursor.module.function? other).map Code.Function.signature := by
    intro body
    simp only [Cursor.setBody, Code.Module.modifyFunction, Code.Module.function?, Table.get?_modify]
    split
    · subst_vars
      cases cursor.module.functions.get? other <;> rfl
    · rfl
  unfold Cursor.finalize at prunes
  split at prunes
  · cases prunes
  · cases prunes
    split
    · exact kept _
    · exact kept _

namespace Silent

variable {α β : Type}

theorem routine : Routine Session.Alike fun error => ¬ error.IsOrdinary where
  refl := .refl
  trans := .trans
  refused := fun _ ordinary => ordinary
  rejected := fun _ ordinary => ordinary
  moves := fun _ _ => ⟨rfl, fun _ => rfl⟩
  fills := fun _ _ fills => ⟨rfl, fills.signatures⟩
  texts := fun _ _ => ⟨rfl, fun _ => rfl⟩
  finalizes := fun _ _ _ _ prunes => ⟨rfl, signatures_finalize prunes⟩

theorem pure (value : α) : Silent (Pure.pure value) := routine.pure value

theorem bind {step : Lower α} {rest : α → Lower β} (silent : Silent step)
    (rests : ∀ value, Silent (rest value)) : Silent (step >>= rest) := routine.bind silent rests

theorem cursor : Silent Lower.cursor := routine.cursor

theorem setPosition (position : Code.Position) :
    Silent (Lower.moveCursor fun cursor => cursor.setPosition position) :=
  routine.setPosition position

theorem buildWith {step : Cursor → Except Code.BuildError (α × Cursor)}
    (same : ∀ cursor value next, step cursor = .ok (value, next) → ∀ name,
      (next.module.function? name).map Code.Function.signature =
        (cursor.module.function? name).map Code.Function.signature) :
    Silent (Lower.buildWith step) :=
  fun _ => .buildWith (fun _ _ ordinary => ordinary) fun _ _ runs => ⟨rfl, same _ _ _ runs⟩

theorem insert (instruction : Code.Instruction) :
    Silent (Lower.append fun cursor => cursor.insert instruction) := routine.insert instruction

theorem terminate (terminator : Code.Terminator) :
    Silent (Lower.append fun cursor => cursor.terminate terminator) := routine.terminate terminator

theorem define (ty : Code.Ty) (instruction : Operand → Code.Instruction) :
    Silent (Lower.emit fun cursor => cursor.define ty instruction) := routine.define ty instruction

theorem call (callee : String) (returns : Code.Ty) (args : List Operand) :
    Silent (Lower.emit fun cursor => cursor.call callee returns args) :=
  routine.call callee returns args

theorem ensures_emit {step : Cursor → Except Code.BuildError α × Cursor} {post : α → Prop}
    (gives : ∀ cursor value next, step cursor = (.ok value, next) → post value)
    (session : Session) : (Lower.emit step).Ensures session (fun value _ => post value)
      fun error => ¬ error.IsOrdinary := by
  have readies : Silent (Lower.build Cursor.ready) := routine.build fun _ _ => .ready
  exact (readies session).bind fun _ _ _ =>
    .buildWith (fun _ _ ordinary => ordinary) fun _ _ emits => gives _ _ _ (Lower.of_emitted emits)

theorem createBlock (label : String) : Silent (createBlock label) := routine.createBlock label

theorem leaveTo (target : BlockId) : Silent (leaveTo target) := routine.leaveTo target

theorem enter (block : BlockId) (closing : Bool) : Silent (enter block closing) :=
  routine.enter block closing

theorem createUpdateBlock (updates : List ExprId) : Silent (createUpdateBlock updates) :=
  routine.createUpdateBlock updates

theorem openFunction (name : String) : Silent (openFunction name) := routine.openFunction name

theorem returnIfLive (value : Option Operand) : Silent (returnIfLive value) :=
  routine.returnIfLive value

theorem finishFunction (options : Options) (name : String) :
    Silent (finishFunction options name) := routine.finishFunction options name

theorem emitOperation (left right : Operand) (operation : Operation) :
    Silent (emitOperation left right operation) := routine.emitOperation left right operation

theorem lowerStringLiteral (text : String) : Silent (lowerStringLiteral text) :=
  routine.lowerStringLiteral text

end Silent

end ScriptLowering.Lowering
