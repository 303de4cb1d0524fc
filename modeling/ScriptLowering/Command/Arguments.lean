import ScriptLowering.Listing.Module
import ScriptLowering.Lowering.Options

/-!
# Command lines

How the arguments of the command `ssc` are read. An option is written behind two dashes,
with its value behind an equals sign or in the next argument; some options also have a
letter, and letters can be joined behind a single dash.
-/

namespace ScriptLowering.Command

open Listing (Format)

/-! ## Requests -/

structure Invocation where
  input : String
  output : Option String
  format : Format
  entry : String
  noColor : Bool
  /-- Asks for progress messages. They carry times and are not part of the result. -/
  verbose : Bool
  deriving DecidableEq, Repr

/-- What a command line asks for. -/
inductive Request where
  | compile (invocation : Invocation)
  | showHelp
  | showVersion
  | misuse
  deriving DecidableEq, Repr

/-! ## Arguments -/

/-- The arguments seen so far. -/
structure Arguments where
  input : Option String
  output : Option String
  format : Option Format
  entry : Option String
  noColor : Bool
  verbose : Bool

namespace Arguments

def none : Arguments := ⟨.none, .none, .none, .none, false, false⟩

/-- No argument may be given twice, and a path has to name something. -/
def setInput? (arguments : Arguments) (path : String) : Option Arguments :=
  if arguments.input.isSome ∨ path = "" then .none
  else some { arguments with input := some path }

def setOutput? (arguments : Arguments) (path : String) : Option Arguments :=
  if arguments.output.isSome ∨ path = "" then .none
  else some { arguments with output := some path }

def setFormat? (arguments : Arguments) (name : String) : Option Arguments :=
  if arguments.format.isSome then .none
  else if name = "text" then some { arguments with format := some .text }
  else if name = "json" then some { arguments with format := some .json }
  else .none

def setEntry? (arguments : Arguments) (name : String) : Option Arguments :=
  if arguments.entry.isSome then .none
  else some { arguments with entry := some name }

def setNoColor? (arguments : Arguments) : Option Arguments :=
  if arguments.noColor then .none else some { arguments with noColor := true }

def setVerbose? (arguments : Arguments) : Option Arguments :=
  if arguments.verbose then .none else some { arguments with verbose := true }

/-- The request once all arguments have been seen. -/
def request (arguments : Arguments) : Request :=
  match arguments.input with
  | .none => .misuse
  | some input => .compile {
      input
      output := arguments.output
      format := arguments.format.getD .text
      entry := arguments.entry.getD Lowering.Options.default.entryFunction
      noColor := arguments.noColor
      verbose := arguments.verbose }

end Arguments

/-- What one argument leads to: more arguments, a value that has to follow, or an end. -/
inductive Reading where
  | proceed (arguments : Arguments)
  | awaitValue (set? : String → Option Arguments)
  | stop (request : Request)

def Reading.ofOption : Option Arguments → Reading
  | some arguments => .proceed arguments
  | none => .stop .misuse

/-- An option with a value, which is attached to it or follows. -/
def readOption (set? : String → Option Arguments) : Option String → Reading
  | some value => .ofOption (set? value)
  | none => .awaitValue set?

/-- An option without a value. -/
def readFlag (outcome : Reading) : Option String → Reading
  | some _ => .stop .misuse
  | none => outcome

def readLong (arguments : Arguments) (name : String) (value : Option String) : Reading :=
  if name = "output" then readOption arguments.setOutput? value
  else if name = "format" then readOption arguments.setFormat? value
  else if name = "entry" then readOption arguments.setEntry? value
  else if name = "no-color" then readFlag (.ofOption arguments.setNoColor?) value
  else if name = "verbose" then readFlag (.ofOption arguments.setVerbose?) value
  else if name = "help" then readFlag (.stop .showHelp) value
  else if name = "version" then readFlag (.stop .showVersion) value
  else .stop .misuse

/-- Letters behind a single dash; whatever follows `o` is the path. -/
def readShort (arguments : Arguments) : List Char → Reading
  | [] => .proceed arguments
  | 'o' :: [] => .awaitValue arguments.setOutput?
  | 'o' :: '=' :: path => .ofOption (arguments.setOutput? (String.ofList path))
  | 'o' :: path => .ofOption (arguments.setOutput? (String.ofList path))
  | 'v' :: rest =>
      match arguments.setVerbose? with
      | some arguments => readShort arguments rest
      | none => .stop .misuse
  | 'h' :: _ => .stop .showHelp
  | 'V' :: _ => .stop .showVersion
  | _ => .stop .misuse

def readArgument (arguments : Arguments) (argument : String) : Reading :=
  match argument.toList with
  | '-' :: '-' :: rest =>
      let name := String.ofList (rest.takeWhile (· ≠ '='))
      match rest.dropWhile (· ≠ '=') with
      | _ :: value => readLong arguments name (some (String.ofList value))
      | [] => readLong arguments name none
  | '-' :: letter :: rest => readShort arguments (letter :: rest)
  | _ => .ofOption (arguments.setInput? argument)

/-- A lone dash is a value; anything longer that starts with a dash is an option. -/
def isValue (argument : String) : Bool :=
  match argument.toList with
  | '-' :: _ :: _ => false
  | _ => true

/-- Behind `--` every argument is a path. -/
def readPaths (arguments : Arguments) : List String → Request
  | [] => arguments.request
  | path :: rest =>
      match arguments.setInput? path with
      | some arguments => readPaths arguments rest
      | none => .misuse

def readArguments (arguments : Arguments) : List String → Request
  | [] => arguments.request
  | argument :: rest =>
      if argument = "--" then readPaths arguments rest
      else
        match readArgument arguments argument with
        | .proceed arguments => readArguments arguments rest
        | .stop request => request
        | .awaitValue set? =>
            match rest with
            | [] => .misuse
            | value :: rest =>
                if isValue value then
                  match set? value with
                  | some arguments => readArguments arguments rest
                  | none => .misuse
                else .misuse

/-- Read a command line from left to right. The first argument that asks for help or for
the version, or that is wrong, decides. -/
def parse (arguments : List String) : Request := readArguments .none arguments

end ScriptLowering.Command
