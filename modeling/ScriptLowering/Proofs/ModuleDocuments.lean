import ScriptLowering.Code.Document
import ScriptLowering.Listing.Module
import ScriptLowering.Proofs.RecordDocuments

/-! # Modules read back from documents

A module is printed with all of its state, so the document of a module is read as that same
module: its tables in their order, whatever the entries say about themselves, and its counters.
-/

namespace ScriptLowering.Code

open Json (RecordForm)

/-! ## Types and constants -/

@[simp] theorem Ty.plain_toJson (ty : Ty) : ty.toJson.plain = true := by
  cases ty <;> simp [Ty.toJson]

@[simp] theorem Ty.ofJson?_toJson (ty : Ty) : Ty.ofJson? ty.toJson = some ty := by
  cases ty <;> simp [Ty.ofJson?, Ty.toJson, Json.bareChoice?]

@[simp] theorem Constant.plain_toJson (constant : Constant) : constant.toJson.plain = true := by
  cases constant <;> simp [Constant.toJson]

@[simp] theorem Constant.ofJson?_toJson (form : RecordForm) (constant : Constant) :
    Constant.ofJson? form constant.toJson = some constant := by
  cases constant <;> simp [Constant.ofJson?, Constant.toJson, Json.bareChoice?]

/-! ## Operands -/

@[simp] theorem BlockId.plain_toJson (id : BlockId) : id.toJson.plain = true := Json.plain_uint32 _

@[simp] theorem BlockId.ofJson?_toJson (id : BlockId) : BlockId.ofJson? id.toJson = some id := by
  simp [BlockId.ofJson?, BlockId.toJson]

@[simp] theorem TempId.plain_toJson (id : TempId) : id.toJson.plain = true := Json.plain_uint32 _

@[simp] theorem TempId.ofJson?_toJson (id : TempId) : TempId.ofJson? id.toJson = some id := by
  simp [TempId.ofJson?, TempId.toJson]

@[simp] theorem ParamId.plain_toJson (id : ParamId) : id.toJson.plain = true := Json.plain_uint32 _

@[simp] theorem ParamId.ofJson?_toJson (id : ParamId) : ParamId.ofJson? id.toJson = some id := by
  simp [ParamId.ofJson?, ParamId.toJson]

@[simp] theorem GlobalId.plain_toJson (id : GlobalId) : id.toJson.plain = true := Json.plain_uint32 _

@[simp] theorem GlobalId.ofJson?_toJson (id : GlobalId) : GlobalId.ofJson? id.toJson = some id := by
  simp [GlobalId.ofJson?, GlobalId.toJson]

@[simp] theorem DataId.plain_toJson (id : DataId) : id.toJson.plain = true := Json.plain_uint32 _

@[simp] theorem DataId.ofJson?_toJson (id : DataId) : DataId.ofJson? id.toJson = some id := by
  simp [DataId.ofJson?, DataId.toJson]

@[simp] theorem BlockId.ofName?_name (id : BlockId) : BlockId.ofName? (.ofText id.name) = some id := by
  have small : id.number.toNat < UInt32.size := id.number.toNat_lt_size
  simp [BlockId.ofName?, BlockId.name, Json.numericName?_repr small]

@[simp] theorem GlobalId.ofName?_name (id : GlobalId) : GlobalId.ofName? (.ofText id.name) = some id := by
  have small : id.number.toNat < UInt32.size := id.number.toNat_lt_size
  simp [GlobalId.ofName?, GlobalId.name, Json.numericName?_repr small]

@[simp] theorem DataId.ofName?_name (id : DataId) : DataId.ofName? (.ofText id.name) = some id := by
  have small : id.number.toNat < UInt32.size := id.number.toNat_lt_size
  simp [DataId.ofName?, DataId.name, Json.numericName?_repr small]

@[simp] theorem Operand.plain_toJson (operand : Operand) : operand.toJson.plain = true := by
  cases operand <;> simp [Operand.toJson]

@[simp] theorem Operand.toJson_ne_null (operand : Operand) : operand.toJson ≠ .null := by
  cases operand <;> exact nofun

@[simp] theorem Operand.ofJson?_toJson (form : RecordForm) (operand : Operand) :
    Operand.ofJson? form operand.toJson = some operand := by
  cases operand <;> simp [Operand.ofJson?, Operand.toJson]

/-! ## Instructions -/

@[simp] theorem Condition.ofJson?_name (condition : Condition) :
    Condition.ofJson? (.string condition.name) = some condition := by
  cases condition <;> simp [Condition.ofJson?, Condition.all, Condition.name]

@[simp] theorem Instruction.plain_toJson (instruction : Instruction) :
    instruction.toJson.plain = true := by
  cases instruction <;> simp [Instruction.toJson]

@[simp] theorem Instruction.ofJson?_toJson (form : RecordForm) (instruction : Instruction) :
    Instruction.ofJson? form instruction.toJson = some instruction := by
  cases instruction with
  | arith op result left right ty =>
      cases op <;>
        simp [Instruction.ofJson?, Instruction.toJson, ArithOp.name, ArithOp.ofName?, ArithOp.all,
          Instruction.arithOfJson?]
  | _ => simp [Instruction.ofJson?, Instruction.toJson]

@[simp] theorem Terminator.plain_toJson (terminator : Terminator) :
    terminator.toJson.plain = true := by
  cases terminator <;> simp [Terminator.toJson]

@[simp] theorem Terminator.ofJson?_toJson (form : RecordForm) (terminator : Terminator) :
    Terminator.ofJson? form terminator.toJson = some terminator := by
  have labelled := Json.bareChoice?_ofLabelled
  cases terminator with
  | jump target =>
      rcases labelled "Jump" target.toJson with bare | bare <;>
        simp [Terminator.ofJson?, Terminator.toJson, bare]
  | branch condition thenBlock elseBlock =>
      simp [Terminator.ofJson?, Terminator.toJson, Json.bareChoice?]
  | ret value =>
      rcases labelled "Return" (Json.ofOption Operand.toJson value) with bare | bare <;>
        simp [Terminator.ofJson?, Terminator.toJson, bare]
  | unfinished => simp [Terminator.ofJson?, Terminator.toJson]

/-! ## Functions -/

@[simp] theorem Block.plain_toJson (block : Block) : block.toJson.plain = true := by
  simp [Block.toJson]

@[simp] theorem Block.ofJson?_toJson (block : Block) : Block.ofJson? block.toJson = some block := by
  simp [Block.ofJson?, Block.toJson]

@[simp] theorem Linkage.ofJson?_name (linkage : Linkage) :
    Linkage.ofJson? (.string linkage.name) = some linkage := by
  cases linkage <;> simp [Linkage.ofJson?, Linkage.name]

@[simp] theorem Parameter.plain_toJson (parameter : Parameter) :
    parameter.toJson.plain = true := by
  simp [Parameter.toJson]

@[simp] theorem Parameter.ofJson?_toJson (parameter : Parameter) :
    Parameter.ofJson? parameter.toJson = some parameter := by
  simp [Parameter.ofJson?, Parameter.toJson]

@[simp] theorem Signature.plain_toJson (signature : Signature) :
    signature.toJson.plain = true := by
  simp [Signature.toJson]

@[simp] theorem Signature.ofJson?_toJson (signature : Signature) :
    Signature.ofJson? signature.toJson = some signature := by
  simp [Signature.ofJson?, Signature.toJson]

@[simp] theorem Body.plain_toJson (body : Body) : body.toJson.plain = true := by
  simp [Body.toJson]

@[simp] theorem Body.ofJson?_toJson (body : Body) : Body.ofJson? body.toJson = some body := by
  simp [Body.ofJson?, Body.toJson]

@[simp] theorem Function.plain_toJson (function : Function) : function.toJson.plain = true := by
  simp [Function.toJson]

@[simp] theorem Function.ofJson?_toJson (function : Function) :
    Function.ofJson? function.toJson = some function := by
  simp [Function.ofJson?, Function.toJson]

/-! ## Modules -/

@[simp] theorem Global.plain_toJson (global : Global) : global.toJson.plain = true := by
  simp [Global.toJson]

@[simp] theorem Global.ofJson?_toJson (global : Global) :
    Global.ofJson? global.toJson = some global := by
  simp [Global.ofJson?, Global.toJson]

@[simp] theorem DataObject.plain_toJson (object : DataObject) : object.toJson.plain = true := by
  simp [DataObject.toJson]

@[simp] theorem DataObject.ofJson?_toJson (object : DataObject) :
    DataObject.ofJson? object.toJson = some object := by
  simp [DataObject.ofJson?, DataObject.toJson]

theorem Module.plain_toJson (module : Module) : module.toJson.plain = true := by
  simp [Module.toJson]

theorem Module.ofJson?_toJson (module : Module) : Module.ofJson? module.toJson = some module := by
  have functions : Json.asTable? (fun name => some name.text) Function.ofJson?
      (Json.ofTable id Function.toJson module.functions) = some module.functions :=
    Json.asTable?_ofTable (fun _ => rfl) Function.ofJson?_toJson module.functions
  simp [Module.ofJson?, Module.toJson, functions]

/-- A module that is listed as a document is read back whole, under any settings. -/
theorem Module.listed_document_reads_back (module : Module) (settings : Listing.Settings) :
    parse? (Listing.render module .json settings) = some module := by
  rw [Listing.render, parse?, print, Json.read?_pretty module.plain_toJson, Option.bind_some,
    ofJson?_toJson]

end ScriptLowering.Code
