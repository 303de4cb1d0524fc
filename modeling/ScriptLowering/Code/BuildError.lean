import ScriptLowering.Code.Value

/-!
# Refused building steps

The reasons for which a step of building a module is refused.
-/

namespace ScriptLowering.Code

inductive BuildError where
  /-- The step needs a current function and there is none. -/
  | notPositioned
  | functionExists (name : String)
  | functionMissing (name : String)
  | blockMissing (block : BlockId)
  | alreadyLaidOut (block : BlockId)
  | notLaidOut (block : BlockId)
  | discardOfLaidOut (block : BlockId)
  | alreadyTerminated (block : BlockId)
  deriving DecidableEq, Repr

namespace BuildError

def reason : BuildError → String
  | notPositioned => "Cursor not positioned"
  | functionExists name => "Function " ++ name ++ " already exists"
  | functionMissing name => "Function " ++ name ++ " not found"
  | blockMissing block => "Block " ++ block.text ++ " not found"
  | alreadyLaidOut block => "Block " ++ block.text ++ " already laid out"
  | notLaidOut block => "Block " ++ block.text ++ " is not laid out"
  | discardOfLaidOut block => "Cannot discard laid-out block " ++ block.text
  | alreadyTerminated block => "Block " ++ block.text ++ " already terminated"

def message (error : BuildError) : String := "Builder error: " ++ error.reason

end BuildError

end ScriptLowering.Code
