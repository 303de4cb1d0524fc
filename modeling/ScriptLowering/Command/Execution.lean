import ScriptLowering.Command.Arguments
import ScriptLowering.Lowering.Program
import ScriptLowering.Source.Document

/-!
# Running the command

The command `ssc` reads the document of a program, lowers it and prints or saves the
module. Everything it decides is decided here: what it says when something is wrong, what
it writes, and with which code it exits. Where files come from is left open: `run` works
over any `Files`.
-/

namespace ScriptLowering.Command

/-! ## Texts -/

def versionText : String := "ssc 0.1.0\n"

def usageText : String := "Usage: ssc [OPTIONS] <INPUT>\n"

def helpText : String :=
  "StaticScript back end: lower a resolved AST to IR\n\n" ++ usageText ++
    "\nArguments:\n  <INPUT>  Resolved AST as JSON\n" ++
    "\nOptions:\n" ++
    "  -o, --output <OUTPUT>  \n" ++
    "      --format <FORMAT>  [default: text] [possible values: text, json]\n" ++
    "      --entry <ENTRY>    Name of the function that hosts top-level statements " ++
    "[default: main]\n" ++
    "      --no-color         \n" ++
    "  -v, --verbose          \n" ++
    "  -h, --help             Print help\n" ++
    "  -V, --version          Print version\n"

def misuseText : String :=
  "error: invalid arguments\n\n" ++ usageText ++ "\nFor more information, try '--help'.\n"

def errorLine (colors : Bool) (message : String) : String :=
  (if colors then "\x1b[1;91merror:\x1b[0m" else "error:") ++ " " ++ message ++ "\n"

/-! ## Compiling -/

inductive Failure where
  | unreadable (path : String)
  | notAProgram (path : String)
  | lowering (filename : String) (error : Lowering.Error)
  | unwritable (path reason : String)
  deriving DecidableEq, Repr

def Failure.message : Failure → String
  | unreadable path => "cannot open " ++ path
  | notAProgram path => path ++ " is not a resolved StaticScript AST"
  | lowering filename error =>
      "code generation failed for " ++ filename ++ ": " ++ error.message
  | unwritable path reason => "cannot write " ++ path ++ ": " ++ reason

namespace Invocation

/-- Whether messages may carry colours. -/
def coloredMessages (invocation : Invocation) (terminalColors : Bool) : Bool :=
  terminalColors && !invocation.noColor

/-- Only what goes to the terminal is coloured, never a file. -/
def settings (invocation : Invocation) (terminalColors : Bool) : Listing.Settings :=
  Listing.Settings.colored.withColors
    (invocation.coloredMessages terminalColors && invocation.output.isNone)

def options (invocation : Invocation) : Lowering.Options :=
  Lowering.Options.default.withEntryFunction invocation.entry

/-- The text that the command produces from the bytes of its input, or from none if the
input cannot be read. Bytes that are not UTF-8 count as unreadable. -/
def produce (invocation : Invocation) (terminalColors : Bool) (source : Option ByteArray) :
    Except Failure String := do
  let text ←
    match source.bind String.fromUTF8? with
    | some text => .ok text
    | none => .error (.unreadable invocation.input)
  let program ←
    match Source.Program.parse? text with
    | some program => .ok program
    | none => .error (.notAProgram invocation.input)
  let module ← (Lowering.lowerProgram program invocation.options).mapError
    (.lowering program.filename)
  return Listing.render module invocation.format (invocation.settings terminalColors)

end Invocation

/-! ## Execution -/

/-- Access to files. A file that cannot be written comes with a reason. -/
structure Files (m : Type → Type) where
  read : String → m (Option ByteArray)
  write : String → String → m (Except String Unit)

/-- What a finished command shows. -/
structure Execution where
  code : UInt32
  stdout : String
  stderr : String
  deriving DecidableEq, Repr

namespace Execution

def printed (text : String) : Execution := ⟨0, text, ""⟩

def failed (colors : Bool) (failure : Failure) : Execution :=
  ⟨1, "", errorLine colors failure.message⟩

end Execution

variable {m : Type → Type} [Monad m] (files : Files m) (terminalColors : Bool)

def compile (invocation : Invocation) : m Execution := do
  let colors := invocation.coloredMessages terminalColors
  match invocation.produce terminalColors (← files.read invocation.input) with
  | .error failure => return .failed colors failure
  | .ok text =>
      match invocation.output with
      | none => return .printed text
      | some path =>
          match ← files.write path text with
          | .ok () => return .printed ""
          | .error reason => return .failed colors (.unwritable path reason)

def run (arguments : List String) : m Execution :=
  match parse arguments with
  | .compile invocation => compile files terminalColors invocation
  | .showHelp => return .printed helpText
  | .showVersion => return .printed versionText
  | .misuse => return ⟨2, "", misuseText⟩

end ScriptLowering.Command
