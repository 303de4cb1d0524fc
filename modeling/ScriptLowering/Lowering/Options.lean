import ScriptLowering.Json.Record

/-!
# Options of a lowering run
-/

namespace ScriptLowering.Lowering

structure Options where
  /-- The name of the function that holds the statements of the top level. -/
  entryFunction : String
  /-- Verify each function as soon as it is complete. The module is verified in any case. -/
  verifyFunctions : Bool
  deriving DecidableEq, Repr

namespace Options

def default : Options := ⟨"main", true⟩

def withEntryFunction (options : Options) (name : String) : Options :=
  { options with entryFunction := name }

def withFunctionVerification (options : Options) (verify : Bool) : Options :=
  { options with verifyFunctions := verify }

def toJson (options : Options) : Json :=
  .object [("entry_function", .string options.entryFunction),
    ("verify_functions", .bool options.verifyFunctions)]

def ofJson? (document : Json) : Option Options := do
  let record ← document.record? ["entry_function", "verify_functions"]
  return {
    entryFunction :=
      ← record.defaulted? "entry_function" default.entryFunction Json.asString?
    verifyFunctions :=
      ← record.defaulted? "verify_functions" default.verifyFunctions Json.asBool? }

end Options

end ScriptLowering.Lowering
