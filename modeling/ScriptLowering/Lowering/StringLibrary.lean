import ScriptLowering.Code.Module

/-!
# The string library

Strings are handles that a library outside of the code creates, joins and compares. Code
reaches that library through three declared functions.
-/

namespace ScriptLowering.Lowering.StringLibrary

open Code

def stringType : Ty := .handle "ss_string"

/-- The type of the outcome of a comparison, which is zero for equal strings. -/
def orderingType : Ty := .i32

/-- Makes a string from data that ends in a zero byte. -/
def create : String := "ss_string_create"

def concat : String := "ss_string_concat"

def equals : String := "ss_string_equals"

def signatures : List Signature :=
  let operands : List Parameter := [⟨"lhs", stringType⟩, ⟨"rhs", stringType⟩]
  [⟨create, [⟨"literal", .ptr⟩], stringType⟩,
    ⟨concat, operands, stringType⟩,
    ⟨equals, operands, orderingType⟩]

/-- Declare functions in order up to the first that cannot be declared. -/
def declareEach : List Signature → Module → Except BuildError Unit × Module
  | [], module => (.ok (), module)
  | signature :: rest, module =>
      match module.declare signature .exported with
      | .error error => (.error error, module)
      | .ok module => declareEach rest module

/-- Declare the library. What was declared before a failure stays declared. -/
def declare (module : Module) : Except BuildError Unit × Module :=
  declareEach signatures module

end ScriptLowering.Lowering.StringLibrary
