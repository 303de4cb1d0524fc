import ScriptLowering.Listing.Module
import ScriptLowering.Lowering.Statement

/-!
# Lowering programs

The statements of the top level become an entry function, which returns zero unless a
statement returns first. All functions are declared before anything is lowered, so a call
may come before the declaration of its callee. The finished module is verified and handed to
a pipeline of passes.
-/

namespace ScriptLowering.Lowering

open Source (Program FunctionDecl)
open Code (BuildError Cursor Module Parameter Pipeline Signature)

variable (program : Program) (options : Options)

/-! ## Declarations -/

def liftBuild {α : Type} : Except BuildError α → Except Error α :=
  Except.mapError Error.build

def declaredParam (id : Source.VarId) : Except Error Parameter :=
  match program.var? id with
  | some var => .ok ⟨var.name, codeType var.ty⟩
  | none => .error (.program (.missingVar id))

def declareFunction (module : Module) (decl : FunctionDecl) : Except Error Module :=
  if (module.function? decl.name).isSome then .error (.program (.functionTwice decl.name))
  else do
    let params ← decl.params.mapM (declaredParam program)
    liftBuild (module.declare ⟨decl.name, params, returnType decl.returns⟩ .exported)

/-- A module in which everything that can be called is declared: the string library, the
entry function and the functions of the program. -/
def declareAll : Except Error Module := do
  let (declared, module) := StringLibrary.declare (.empty program.filename)
  liftBuild declared
  let module ← liftBuild (module.declare ⟨options.entryFunction, [], .i64⟩ .exported)
  program.functions.toList.foldlM (declareFunction program) module

/-! ## Modules -/

/-- The entry function: all statements of the top level in order. Every function that is
lowered on the way is handed to `finish`, and at last the entry function itself. -/
def lowerItems (finish : String → Lower Unit) (entry : String) : Lower Unit := do
  openFunction entry
  program.items.forM (lowerStmt program finish)
  returnIfLive (some (.ofInt64 0))
  finish entry

def lowerProgram : Except Error Module := do
  let module ← declareAll program options
  let (_, session) ← (lowerItems program (finishFunction options) options.entryFunction).run
    (.start (.ofModule module))
  let module := session.cursor.module
  module.verify.mapError .rejected
  return module

/-- Lower a program and run the passes of a pipeline on the result. -/
def compile (pipeline : Pipeline) : Except Error Module × Pipeline :=
  match lowerProgram program options with
  | .error error => (.error error, pipeline)
  | .ok module =>
      match pipeline.run module with
      | (.ok (), pipeline, module) => (.ok module, pipeline)
      | (.error error, pipeline, _) => (.error (.pipeline error), pipeline)

/-- Lower a program as it is by default and list the module without colours. -/
def compileToText : Except Error String := do
  let module ← lowerProgram program .default
  return Listing.render module .text .plain

end ScriptLowering.Lowering
