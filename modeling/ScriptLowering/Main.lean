import ScriptLowering.Command.Execution

/-!
# The executable

Files, streams and the environment. Everything else is in `Command`.
-/

namespace ScriptLowering.Executable

/-- Colours are shown where they are forced, and otherwise on a terminal that has not
declined them. -/
def terminalColors : IO Bool := do
  match ← IO.getEnv "CLICOLOR_FORCE" with
  | some value => if value ≠ "0" then return true
  | none => pure ()
  if (← IO.getEnv "NO_COLOR").isSome then return false
  if (← IO.getEnv "CLICOLOR") = some "0" then return false
  (← IO.getStdout).isTty

/-- The wording of the system for a file that cannot be written. -/
def writeFailure : IO.Error → String
  | .noFileOrDirectory _ code _ => s!"No such file or directory (os error {code})"
  | .inappropriateType _ code _ => s!"Is a directory (os error {code})"
  | .permissionDenied _ code _ => s!"Permission denied (os error {code})"
  | error => toString error

def files : Command.Files IO where
  read path := do
    try return some (← IO.FS.readBinFile path)
    catch _ => return none
  write path text := do
    try
      IO.FS.writeFile path text
      return .ok ()
    catch error => return .error (writeFailure error)

end ScriptLowering.Executable

open ScriptLowering

def main (arguments : List String) : IO UInt32 := do
  let colors ← Executable.terminalColors
  let execution ← Command.run Executable.files colors arguments
  IO.print execution.stdout
  IO.eprint execution.stderr
  return execution.code
