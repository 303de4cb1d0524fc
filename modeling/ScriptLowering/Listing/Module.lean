import ScriptLowering.Code.Document
import ScriptLowering.Listing.Layout

/-!
# Listings of modules

A listing shows a module in a fixed order: its name, the globals, the constant data, the
declared functions, and then every defined function with its blocks in layout order. The
first three groups and the declarations are left out where they are empty.
-/

namespace ScriptLowering.Listing

open Code

/-! ## Bytes -/

def hexDigits : List Char :=
  ['0', '1', '2', '3', '4', '5', '6', '7', '8', '9', 'A', 'B', 'C', 'D', 'E', 'F']

def hexDigit (value : Nat) : Char := hexDigits.getD (value % 16) '0'

/-- Printable characters stand for themselves, except for the quote and the backslash. All
other bytes are written as a backslash and two hexadecimal digits. -/
def escapeByte (byte : UInt8) : List Char :=
  let value := byte.toNat
  if value = '"'.toNat ∨ value = '\\'.toNat ∨ value < 0x20 ∨ 0x7e < value then
    ['\\', hexDigit (value / 16), hexDigit value]
  else [Char.ofNat value]

def quoteBytes (bytes : List UInt8) : String :=
  String.ofList ('"' :: bytes.flatMap escapeByte ++ ['"'])

/-! ## Parts of a function -/

/-- Globals are shown by name, all other operands by number. -/
def operandText (module : Code.Module) : Operand → String
  | .global id =>
      match module.global? id with
      | some global => "@" ++ global.name
      | none => "@" ++ id.text
  | other => other.text

def resultText (function : Function) (includeTypes : Bool) (result : Operand) : String :=
  match function.typeOf? result with
  | some ty =>
      if includeTypes then result.text ++ ": " ++ ty.text ++ " = " else result.text ++ " = "
  | none => result.text ++ " = "

def instructionText (module : Code.Module) (function : Function) (includeTypes : Bool) :
    Instruction → String
  | .alloca result ty align =>
      resultText function includeTypes result ++ "alloca " ++ ty.text ++ ", align " ++
        align.toNat.repr
  | .load result ty address =>
      resultText function includeTypes result ++ "load " ++ ty.text ++ " " ++
        operandText module address
  | .store address value =>
      "store " ++ operandText module value ++ ", " ++ operandText module address
  | .arith op result left right ty =>
      resultText function includeTypes result ++ op.mnemonic ++ " " ++ ty.text ++ " " ++
        operandText module left ++ ", " ++ operandText module right
  | .negate result operand ty =>
      resultText function includeTypes result ++ "ineg.nsw " ++ ty.text ++ " " ++
        operandText module operand
  | .compare result condition left right =>
      resultText function includeTypes result ++ "icmp " ++ condition.mnemonic ++ " " ++
        operandText module left ++ ", " ++ operandText module right
  | .call result callee args =>
      (match result with
        | some result => resultText function includeTypes result
        | none => "") ++
        "call @" ++ callee ++ "(" ++ ", ".intercalate (args.map (operandText module)) ++ ")"

def terminatorText (module : Code.Module) : Terminator → String
  | .jump target => "jump " ++ target.text
  | .branch condition thenBlock elseBlock =>
      "brif " ++ operandText module condition ++ ", " ++ thenBlock.text ++ ", " ++
        elseBlock.text
  | .ret none => "return"
  | .ret (some value) => "return " ++ operandText module value
  | .unfinished => "<unterminated>"

/-- The parameters of a definition are numbered; those of a declaration are bare types. -/
def signatureText (signature : Signature) (numbered : Bool) : String :=
  let params := signature.params.zipIdx.map fun (parameter, index) =>
    if numbered then "p" ++ index.repr ++ ": " ++ parameter.ty.text else parameter.ty.text
  "@" ++ signature.name ++ "(" ++ ", ".intercalate params ++ ") -> " ++ signature.returns.text

def linkageText : Linkage → String
  | .exported => ""
  | .internal => "internal "

/-! ## Lines -/

def blockLines (module : Code.Module) (function : Function) (includeTypes : Bool)
    (layout : Layout) (block : Block) : String :=
  let inner := layout.indent
  layout.styledLine .cyan (block.id.text ++ ": ; " ++ block.label) ++
    String.join (block.instructions.map fun instruction =>
      inner.line (instructionText module function includeTypes instruction)) ++
    inner.line (terminatorText module block.terminator)

def functionLines (module : Code.Module) (includeTypes : Bool) (layout : Layout)
    (function : Function) : String :=
  let header := "function " ++ linkageText function.linkage ++
    signatureText function.signature true
  layout.block (layout.styled .bold header) fun inner =>
    String.join (function.body.laidOut.map (blockLines module function includeTypes inner))

def globalText (global : Global) : String :=
  "global " ++ linkageText global.linkage ++ "@" ++ global.name ++ ": " ++ global.ty.text ++
    " = " ++ global.initial.text ++ ", align " ++ global.align.toNat.repr

def dataText (object : DataObject) : String :=
  "data " ++ object.id.text ++ " = " ++ quoteBytes object.bytes

def declarationText (function : Function) : String :=
  "declare " ++ linkageText function.linkage ++ signatureText function.signature false

/-- A blank line and one line for each text, or nothing if there is no text. -/
def group (layout : Layout) (texts : List String) : String :=
  if texts.isEmpty then "" else Layout.blank ++ String.join (texts.map layout.line)

def moduleLines (module : Code.Module) (settings : Settings) : String :=
  let layout := Layout.ofSettings settings
  layout.comment ("module " ++ module.name) ++
    group layout (module.globals.values.map globalText) ++
    group layout (module.data.values.map dataText) ++
    group layout (module.declarations.map declarationText) ++
    String.join (module.definitions.map fun function =>
      Layout.blank ++ functionLines module settings.includeTypes layout function)

/-! ## Formats -/

inductive Format where
  | text
  | json
  deriving DecidableEq, Repr

/-- A name of a format that no format has, in lower case. -/
structure UnknownFormat where
  name : String
  deriving DecidableEq, Repr

def UnknownFormat.message (error : UnknownFormat) : String :=
  "unknown output format '" ++ error.name ++ "'"

/-- Formats are named without regard to the case of ASCII letters. -/
def Format.ofName (name : String) : Except UnknownFormat Format :=
  let lower := String.ofList (name.toList.map Char.toLower)
  if lower = "text" ∨ lower = "ir" then .ok .text
  else if lower = "json" then .ok .json
  else .error ⟨lower⟩

/-- A document is never coloured. -/
def render (module : Code.Module) (format : Format) (settings : Settings) : String :=
  match format with
  | .text => moduleLines module settings
  | .json => module.print

end ScriptLowering.Listing
