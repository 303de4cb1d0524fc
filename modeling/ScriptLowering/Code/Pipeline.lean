import ScriptLowering.Code.Verification

/-!
# Pass pipelines

A pass checks or changes a whole module. A pipeline runs its passes in order and stops at
the first failure. It can verify the module again after each pass that announces changes,
and it can keep a record of the passes that went through.
-/

namespace ScriptLowering.Code

/-- A pass reports whether it succeeded and hands back the module in any case: what it did
before failing is not undone. -/
structure Pass where
  name : String
  description : String
  /-- Whether the pass announces that it changes modules. -/
  modifies : Bool
  run : Module → Except String Unit × Module

/-- The description of a pass that does not describe itself. -/
def Pass.noDescription : String := "No description provided"

def Pass.verifier : Pass where
  name := "verifier"
  description := "Checks structural well-formedness of every function and global"
  modifies := false
  run module := (module.verify.mapError Rejection.message, module)

inductive PipelineError where
  | passFailed (pass reason : String)
  | invalidAfter (pass : String) (rejection : Rejection)
  deriving DecidableEq, Repr

def PipelineError.message : PipelineError → String
  | .passFailed pass reason => "pass '" ++ pass ++ "' failed: " ++ reason
  | .invalidAfter pass rejection =>
      "module invalid after pass '" ++ pass ++ "': " ++ rejection.message

structure Pipeline where
  passes : List Pass
  /-- The names of the passes that went through, over all runs. -/
  completed : List String
  recording : Bool
  verifyAfterChanges : Bool

namespace Pipeline

def empty : Pipeline where
  passes := []
  completed := []
  recording := false
  verifyAfterChanges := true

def names (pipeline : Pipeline) : List String := pipeline.passes.map Pass.name

/-- Run one pass and, where that is asked for, verify what it leaves behind. -/
def runPass (verifyAfterChanges : Bool) (pass : Pass) (module : Module) :
    Except PipelineError Unit × Module :=
  match pass.run module with
  | (.error reason, module) => (.error (.passFailed pass.name reason), module)
  | (.ok (), module) =>
      if pass.modifies && verifyAfterChanges then
        (module.verify.mapError (.invalidAfter pass.name), module)
      else (.ok (), module)

/-- Run passes in order up to the first failure; the names are those of the passes that
went through. -/
def runPasses (verifyAfterChanges : Bool) :
    List Pass → Module → Except PipelineError Unit × List String × Module
  | [], module => (.ok (), [], module)
  | pass :: rest, module =>
      match runPass verifyAfterChanges pass module with
      | (.error error, module) => (.error error, [], module)
      | (.ok (), module) =>
          let (outcome, names, module) := runPasses verifyAfterChanges rest module
          (outcome, pass.name :: names, module)

def run (pipeline : Pipeline) (module : Module) :
    Except PipelineError Unit × Pipeline × Module :=
  let (outcome, names, module) := runPasses pipeline.verifyAfterChanges pipeline.passes module
  let pipeline :=
    if pipeline.recording then { pipeline with completed := pipeline.completed ++ names }
    else pipeline
  (outcome, pipeline, module)

end Pipeline

end ScriptLowering.Code
