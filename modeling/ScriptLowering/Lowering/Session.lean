import ScriptLowering.Code.Cursor
import ScriptLowering.Lowering.Annotations

/-!
# Lowering sessions

A session is the state of one run: the build cursor and what has been learnt about the
program. A lowering step either fails, which ends the run, or yields a result and the next
session.
-/

namespace ScriptLowering.Lowering

open Code (BlockId Block BuildError Cursor Operand Position Ty)

structure Session where
  cursor : Cursor
  annotations : Annotations

def Session.start (cursor : Cursor) : Session := ⟨cursor, .empty⟩

abbrev Lower := StateT Session (Except Error)

namespace Lower

def fail {α : Type} (error : Error) : Lower α := fun _ => .error error

def fault {α : Type} (fault : ProgramFault) : Lower α := fail (.program fault)

def orFault {α : Type} (found : Option α) (fault : ProgramFault) : Lower α :=
  match found with
  | some value => pure value
  | none => Lower.fault fault

def cursor : Lower Cursor := fun session => .ok (session.cursor, session)

/-! ## Building -/

def moveCursor (move : Cursor → Cursor) : Lower Unit := fun session =>
  .ok ((), { session with cursor := move session.cursor })

def build (step : Cursor → Except BuildError Cursor) : Lower Unit := fun session =>
  match step session.cursor with
  | .ok cursor => .ok ((), { session with cursor := cursor })
  | .error error => .error (.build error)

def buildWith {α : Type} (step : Cursor → Except BuildError (α × Cursor)) : Lower α :=
  fun session =>
    match step session.cursor with
    | .ok (value, cursor) => .ok (value, { session with cursor := cursor })
    | .error error => .error (.build error)

def ask {α : Type} (question : Cursor → Except BuildError α) : Lower α := fun session =>
  match question session.cursor with
  | .ok value => .ok (value, session)
  | .error error => .error (.build error)

def append (step : Cursor → Except BuildError Cursor) : Lower Unit := do
  build Cursor.ready
  build step

def emit {α : Type} (step : Cursor → Except BuildError α × Cursor) : Lower α := do
  build Cursor.ready
  buildWith fun cursor =>
    match step cursor with
    | (.ok value, next) => .ok (value, next)
    | (.error error, _) => .error error

/-! ## Annotating -/

def annotate (step : Annotations → Except ProgramFault Annotations) : Lower Unit :=
  fun session =>
    match step session.annotations with
    | .ok annotations => .ok ((), { session with annotations := annotations })
    | .error fault => .error (.program fault)

def consult {α : Type} (question : Annotations → Except ProgramFault α) : Lower α :=
  fun session =>
    match question session.annotations with
    | .ok value => .ok (value, session)
    | .error fault => .error (.program fault)

end Lower

end ScriptLowering.Lowering
