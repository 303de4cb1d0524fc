import ScriptLowering.Lowering.Statement
import ScriptLowering.Proofs.EnsuredOutcomes
import ScriptLowering.Proofs.GrowingModules

/-! # Building as a routine

What lowering builds, it builds by changes of the cursor: by filling the function at hand, by adding
a text, by going elsewhere, and by dropping the detached blocks of a finished function. A relation
between sessions that such changes keep is kept by all that is put together from them.
-/

namespace ScriptLowering.Lowering

open Source (ExprId)
open Code (BlockId BuildError Cursor Operand Position)

/-- The step leads from any session to a related one, and fails with the given errors only. -/
def Lower.Always {α : Type} (related : Session → Session → Prop) (errors : Error → Prop)
    (step : Lower α) : Prop :=
  ∀ session, step.Ensures session (fun _ next => related session next) errors

/-- Changes of the cursor lead to related sessions. Building may be refused. -/
structure Routine (related : Session → Session → Prop) (errors : Error → Prop) : Prop where
  refl : ∀ session, related session session
  trans : ∀ {session middle next}, related session middle → related middle next →
    related session next
  refused : ∀ error, errors (.build error)
  rejected : ∀ rejection, errors (.rejected rejection)
  moves : ∀ (session : Session) position,
    related session { session with cursor := session.cursor.setPosition position }
  fills : ∀ (session : Session) next, session.cursor.Fills (fun _ => True) next →
    related session { session with cursor := next }
  texts : ∀ (session : Session) text, related session { session with cursor :=
    { session.cursor with module := (session.cursor.module.addText text).2 } }
  finalizes : ∀ (session : Session) name pruned next,
    session.cursor.finalize name = .ok (pruned, next) → related session { session with cursor := next }

namespace Routine

variable {related : Session → Session → Prop} {errors : Error → Prop} {α β : Type}
  (routine : Routine related errors)

include routine

/-! ## Putting steps together -/

theorem pure (value : α) : (Pure.pure value : Lower α).Always related errors :=
  fun session => .pure (routine.refl session)

omit routine in
theorem fail {error : Error} (isError : errors error) :
    (Lower.fail error : Lower α).Always related errors :=
  fun _ => .of_error rfl isError

theorem bind {step : Lower α} {rest : α → Lower β} (always : step.Always related errors)
    (rests : ∀ value, (rest value).Always related errors) : (step >>= rest).Always related errors :=
  fun session => (always session).bind fun value next first =>
    (rests value next).mono fun _ _ second => routine.trans first second

theorem map {step : Lower α} (always : step.Always related errors) (convert : α → β) :
    (convert <$> step).Always related errors :=
  routine.bind always fun value => routine.pure (convert value)

theorem forM {items : List α} {body : α → Lower Unit}
    (always : ∀ item, (body item).Always related errors) :
    (items.forM body).Always related errors := by
  induction items with
  | nil => exact routine.pure ()
  | cons item rest induction =>
      rw [Lower.forM_cons]
      exact routine.bind (always item) fun _ => induction

theorem mapM {items : List α} {body : α → Lower β}
    (always : ∀ item, (body item).Always related errors) :
    (items.mapM body).Always related errors := by
  induction items with
  | nil => exact routine.pure []
  | cons item rest induction =>
      rw [List.mapM_cons]
      exact routine.bind (always item) fun _ => routine.bind induction fun _ => routine.pure _

theorem consult (question : Annotations → Except ProgramFault α)
    (faults : ∀ fault, errors (.program fault)) : (Lower.consult question).Always related errors :=
  fun session => .of_bind_pure (.consult_bind (fun fault _ => faults fault)
    fun _ _ => .pure (routine.refl session))

theorem orFault (found : Option α) {fault : ProgramFault} (isError : errors (.program fault)) :
    (Lower.orFault found fault).Always related errors := by
  cases found with
  | none => exact fail isError
  | some value => exact routine.pure value

theorem cursor : Lower.cursor.Always related errors := fun session => .of_ok rfl (routine.refl session)

/-! ## Changes of the cursor -/

theorem setPosition (position : Position) :
    (Lower.moveCursor fun cursor => cursor.setPosition position).Always related errors :=
  fun session => .of_ok rfl (routine.moves session position)

theorem clearBlock : (Lower.moveCursor Cursor.clearBlock).Always related errors :=
  fun session => .of_ok rfl (routine.moves session _)

theorem build {step : Cursor → Except BuildError Cursor}
    (fills : ∀ cursor next, step cursor = .ok next → cursor.Fills (fun _ => True) next) :
    (Lower.build step).Always related errors :=
  fun session => .build (fun error _ => routine.refused error) fun next runs =>
    routine.fills session next (fills _ _ runs)

theorem buildWith {step : Cursor → Except BuildError (α × Cursor)}
    (fills : ∀ cursor value next, step cursor = .ok (value, next) →
      cursor.Fills (fun _ => True) next) : (Lower.buildWith step).Always related errors :=
  fun session => .buildWith (fun error _ => routine.refused error) fun _ next runs =>
    routine.fills session next (fills _ _ _ runs)

theorem ask (question : Cursor → Except BuildError α) : (Lower.ask question).Always related errors :=
  fun session => .ask (fun error _ => routine.refused error) fun _ _ => routine.refl session

/-! ## Adding code -/

theorem append {step : Cursor → Except BuildError Cursor}
    (fills : ∀ cursor next, step cursor = .ok next → cursor.Fills (fun _ => True) next) :
    (Lower.append step).Always related errors :=
  routine.bind (routine.build fun _ _ => .ready) fun _ => routine.build fills

theorem insert (instruction : Code.Instruction) :
    (Lower.append fun cursor => cursor.insert instruction).Always related errors :=
  routine.append fun _ _ inserts => .insert inserts fun _ _ => trivial

theorem terminate (terminator : Code.Terminator) :
    (Lower.append fun cursor => cursor.terminate terminator).Always related errors :=
  routine.append fun _ _ ends => .terminate ends fun _ _ => trivial

theorem emit {step : Cursor → Except BuildError α × Cursor}
    (fills : ∀ cursor value next, step cursor = (.ok value, next) →
      cursor.Fills (fun _ => True) next) : (Lower.emit step).Always related errors :=
  routine.bind (routine.build fun _ _ => .ready) fun _ =>
    routine.buildWith fun _ _ _ emits => fills _ _ _ (Lower.of_emitted emits)

theorem define (ty : Code.Ty) (instruction : Operand → Code.Instruction) :
    (Lower.emit fun cursor => cursor.define ty instruction).Always related errors :=
  routine.emit fun _ _ _ defines => (Cursor.Fills.define defines fun _ _ _ => trivial).1

theorem call (callee : String) (returns : Code.Ty) (args : List Operand) :
    (Lower.emit fun cursor => cursor.call callee returns args).Always related errors :=
  routine.emit fun _ _ _ calls => (Cursor.Fills.call calls fun _ _ => trivial).1

theorem emitOperation (left right : Operand) (operation : Operation) :
    (emitOperation left right operation).Always related errors := by
  cases operation with
  | arith op => exact routine.define _ _
  | compare condition => exact routine.define _ _
  | concat => exact routine.define _ _
  | compareStrings condition => exact routine.bind (routine.define _ _) fun _ => routine.define _ _

theorem lowerStringLiteral (text : String) : (lowerStringLiteral text).Always related errors :=
  routine.bind (fun session => .of_ok rfl (routine.texts session text)) fun _ => routine.define _ _

/-! ## Blocks -/

theorem createBlock (label : String) : (createBlock label).Always related errors :=
  routine.buildWith fun _ _ _ => .createBlock

theorem leaveTo (target : BlockId) : (leaveTo target).Always related errors := by
  refine routine.bind routine.cursor fun cursor => ?_
  split
  · exact routine.bind (routine.terminate _) fun _ => routine.clearBlock
  · exact routine.clearBlock

theorem layOut (block : BlockId) (previous : Option BlockId) :
    (layOut block previous).Always related errors := by
  refine routine.bind routine.cursor fun cursor => ?_
  cases previous with
  | none => exact routine.build fun _ _ => .appendBlock
  | some after =>
      dsimp only
      split
      · exact routine.build fun _ _ => .insertBlockAfter
      · exact routine.build fun _ _ => .appendBlock

theorem enter (block : BlockId) (closing : Bool) : (enter block closing).Always related errors := by
  refine routine.bind routine.cursor fun _ => routine.bind (routine.leaveTo block) fun _ =>
    routine.bind (routine.ask _) fun function => routine.bind (routine.ask _) fun count => ?_
  split
  · split
    · exact routine.build fun _ _ => .discardBlock
    · exact routine.setPosition _
  · exact routine.bind (routine.layOut _ _) fun _ => routine.setPosition _

theorem createUpdateBlock (updates : List ExprId) :
    (createUpdateBlock updates).Always related errors := by
  unfold Lowering.createUpdateBlock
  split
  · exact routine.pure _
  · exact routine.map (routine.createBlock _) _

/-! ## Functions -/

theorem openFunction (name : String) : (openFunction name).Always related errors :=
  routine.bind (routine.setPosition _) fun _ => routine.bind (routine.createBlock _) fun _ =>
    routine.bind (routine.build fun _ _ => .appendBlock) fun _ => routine.setPosition _

theorem returnIfLive (value : Option Operand) : (returnIfLive value).Always related errors := by
  refine routine.bind routine.cursor fun cursor => ?_
  split
  · exact routine.terminate _
  · exact routine.pure _

theorem finishFunction (options : Options) (name : String) :
    (finishFunction options name).Always related errors := by
  have finalizes : (Lower.buildWith fun cursor => cursor.finalize name).Always related errors :=
    fun session => .buildWith (fun error _ => routine.refused error) fun pruned next prunes =>
      routine.finalizes session name pruned next prunes
  refine routine.bind finalizes fun _ => ?_
  split
  · refine routine.bind routine.cursor fun cursor => ?_
    dsimp only
    split
    · split
      · exact routine.pure _
      · exact fail (routine.rejected _)
    · exact fail (routine.refused _)
  · exact routine.pure _

end Routine

end ScriptLowering.Lowering
