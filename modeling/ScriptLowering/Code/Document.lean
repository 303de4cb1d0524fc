import ScriptLowering.Code.Module
import ScriptLowering.Json.Printer
import ScriptLowering.Json.Reader
import ScriptLowering.Json.Record

/-!
# Modules as documents

A module is printed with all of its state, the counters for fresh identifiers included, so
that a module read back behaves as the one that was printed. Identifiers that key a table
become decimal names.

The fields of an alternative, such as an instruction, are always accepted by name; whether
they may also be listed depends on where the document comes from and is given as a
`RecordForm`.
-/

namespace ScriptLowering.Code

open Json (asList? asOption? RecordForm)

/-! ## Types and constants -/

namespace Ty

def toJson : Ty → Json
  | .void => .string "Void"
  | .bool => .string "Bool"
  | .int bits => Json.ofLabelled "Int" (.integer bits.toNat)
  | .ptr => .string "Ptr"
  | .handle name => Json.ofLabelled "Handle" (.string name)

def ofJson? (document : Json) : Option Ty :=
  match document.bareChoice? with
  | some "Void" => some .void
  | some "Bool" => some .bool
  | some "Ptr" => some .ptr
  | _ =>
      match document.choice? with
      | some ("Int", some content) => content.asUInt16?.map .int
      | some ("Handle", some content) => content.asString?.map .handle
      | _ => none

end Ty

namespace Constant

def toJson : Constant → Json
  | .bool value => Json.ofLabelled "Bool" (.bool value)
  | .int value bits =>
      Json.ofLabelled "Int"
        (.object [("value", .integer value.toInt), ("bits", .integer bits.toNat)])
  | .null => .string "Null"

def ofJson? (form : RecordForm) (document : Json) : Option Constant :=
  match document.bareChoice? with
  | some "Null" => some .null
  | _ =>
      match document.choice? with
      | some ("Bool", some content) => content.asBool?.map .bool
      | some ("Int", some content) => do
          let record ← content.recordIn? form ["value", "bits"]
          return .int (← record.required? "value" Json.asInt64?)
            (← record.required? "bits" Json.asUInt16?)
      | _ => none

end Constant

/-! ## Operands -/

namespace BlockId

def toJson (id : BlockId) : Json := .integer id.number.toNat

def ofJson? (document : Json) : Option BlockId := document.asUInt32?.map BlockId.mk

def name (id : BlockId) : String := id.number.toNat.repr

def ofName? (name : Json.Name) : Option BlockId :=
  (Json.numericName? UInt32.size name).map fun value => ⟨value.toUInt32⟩

end BlockId

namespace TempId

def toJson (id : TempId) : Json := .integer id.number.toNat

def ofJson? (document : Json) : Option TempId := document.asUInt32?.map TempId.mk

end TempId

namespace ParamId

def toJson (id : ParamId) : Json := .integer id.number.toNat

def ofJson? (document : Json) : Option ParamId := document.asUInt32?.map ParamId.mk

end ParamId

namespace GlobalId

def toJson (id : GlobalId) : Json := .integer id.number.toNat

def ofJson? (document : Json) : Option GlobalId := document.asUInt32?.map GlobalId.mk

def name (id : GlobalId) : String := id.number.toNat.repr

def ofName? (name : Json.Name) : Option GlobalId :=
  (Json.numericName? UInt32.size name).map fun value => ⟨value.toUInt32⟩

end GlobalId

namespace DataId

def toJson (id : DataId) : Json := .integer id.number.toNat

def ofJson? (document : Json) : Option DataId := document.asUInt32?.map DataId.mk

def name (id : DataId) : String := id.number.toNat.repr

def ofName? (name : Json.Name) : Option DataId :=
  (Json.numericName? UInt32.size name).map fun value => ⟨value.toUInt32⟩

end DataId

namespace Operand

def toJson : Operand → Json
  | .temp id => Json.ofLabelled "Temp" id.toJson
  | .param id => Json.ofLabelled "Param" id.toJson
  | .global id => Json.ofLabelled "Global" id.toJson
  | .data id => Json.ofLabelled "Data" id.toJson
  | .constant value => Json.ofLabelled "Constant" value.toJson

def ofJson? (form : RecordForm) (document : Json) : Option Operand := do
  match ← document.choice? with
  | ("Temp", some content) => return .temp (← TempId.ofJson? content)
  | ("Param", some content) => return .param (← ParamId.ofJson? content)
  | ("Global", some content) => return .global (← GlobalId.ofJson? content)
  | ("Data", some content) => return .data (← DataId.ofJson? content)
  | ("Constant", some content) => return .constant (← Constant.ofJson? form content)
  | _ => none

end Operand

/-! ## Instructions -/

namespace Condition

def name : Condition → String
  | .equal => "Equal"
  | .notEqual => "NotEqual"
  | .lessThan => "SignedLessThan"
  | .greaterThan => "SignedGreaterThan"
  | .lessThanOrEqual => "SignedLessThanOrEqual"
  | .greaterThanOrEqual => "SignedGreaterThanOrEqual"

def all : List Condition :=
  [.equal, .notEqual, .lessThan, .greaterThan, .lessThanOrEqual, .greaterThanOrEqual]

def ofJson? (document : Json) : Option Condition := do
  let name ← document.bareChoice?
  all.find? fun condition => condition.name = name

end Condition

namespace ArithOp

def name : ArithOp → String
  | .add => "CheckedAdd"
  | .sub => "CheckedSub"
  | .mul => "CheckedMul"
  | .div => "Div"

def all : List ArithOp := [.add, .sub, .mul, .div]

def ofName? (name : String) : Option ArithOp := all.find? fun op => op.name = name

end ArithOp

namespace Instruction

def toJson : Instruction → Json
  | .alloca result ty align =>
      Json.ofLabelled "Alloca" (.object [("result", result.toJson), ("ty", ty.toJson),
        ("align", .integer align.toNat)])
  | .load result ty address =>
      Json.ofLabelled "Load" (.object [("result", result.toJson), ("ty", ty.toJson),
        ("address", address.toJson)])
  | .store address value =>
      Json.ofLabelled "Store" (.object [("address", address.toJson), ("value", value.toJson)])
  | .arith op result left right ty =>
      Json.ofLabelled op.name (.object [("result", result.toJson), ("left", left.toJson),
        ("right", right.toJson), ("ty", ty.toJson)])
  | .negate result operand ty =>
      Json.ofLabelled "CheckedNeg" (.object [("result", result.toJson),
        ("operand", operand.toJson), ("ty", ty.toJson)])
  | .compare result condition left right =>
      Json.ofLabelled "Icmp" (.object [("result", result.toJson),
        ("cond", .string condition.name), ("left", left.toJson), ("right", right.toJson)])
  | .call result callee args =>
      Json.ofLabelled "Call" (.object [("result", Json.ofOption Operand.toJson result),
        ("callee", .string callee), ("args", Json.ofList Operand.toJson args)])

def arithOfJson? (form : RecordForm) (op : ArithOp) (content : Json) : Option Instruction := do
  let record ← content.recordIn? form ["result", "left", "right", "ty"]
  return .arith op (← record.required? "result" (Operand.ofJson? form))
    (← record.required? "left" (Operand.ofJson? form))
    (← record.required? "right" (Operand.ofJson? form))
    (← record.required? "ty" Ty.ofJson?)

def ofJson? (form : RecordForm) (document : Json) : Option Instruction := do
  match ← document.choice? with
  | ("Alloca", some content) =>
      let record ← content.recordIn? form ["result", "ty", "align"]
      return .alloca (← record.required? "result" (Operand.ofJson? form))
        (← record.required? "ty" Ty.ofJson?) (← record.required? "align" Json.asUInt32?)
  | ("Load", some content) =>
      let record ← content.recordIn? form ["result", "ty", "address"]
      return .load (← record.required? "result" (Operand.ofJson? form))
        (← record.required? "ty" Ty.ofJson?)
        (← record.required? "address" (Operand.ofJson? form))
  | ("Store", some content) =>
      let record ← content.recordIn? form ["address", "value"]
      return .store (← record.required? "address" (Operand.ofJson? form))
        (← record.required? "value" (Operand.ofJson? form))
  | ("CheckedNeg", some content) =>
      let record ← content.recordIn? form ["result", "operand", "ty"]
      return .negate (← record.required? "result" (Operand.ofJson? form))
        (← record.required? "operand" (Operand.ofJson? form))
        (← record.required? "ty" Ty.ofJson?)
  | ("Icmp", some content) =>
      let record ← content.recordIn? form ["result", "cond", "left", "right"]
      return .compare (← record.required? "result" (Operand.ofJson? form))
        (← record.required? "cond" Condition.ofJson?)
        (← record.required? "left" (Operand.ofJson? form))
        (← record.required? "right" (Operand.ofJson? form))
  | ("Call", some content) =>
      let record ← content.recordIn? form ["result", "callee", "args"]
      return .call (← record.defaulted? "result" none (asOption? (Operand.ofJson? form)))
        (← record.required? "callee" Json.asString?)
        (← record.required? "args" (asList? (Operand.ofJson? form)))
  | (name, some content) => arithOfJson? form (← ArithOp.ofName? name) content
  | _ => none

end Instruction

namespace Terminator

def toJson : Terminator → Json
  | .jump target => Json.ofLabelled "Jump" target.toJson
  | .branch condition thenBlock elseBlock =>
      Json.ofLabelled "Branch" (.object [("condition", condition.toJson),
        ("then_block", thenBlock.toJson), ("else_block", elseBlock.toJson)])
  | .ret value => Json.ofLabelled "Return" (Json.ofOption Operand.toJson value)
  | .unfinished => .string "Invalid"

def ofJson? (form : RecordForm) (document : Json) : Option Terminator :=
  match document.bareChoice? with
  | some "Invalid" => some .unfinished
  | _ => do
      match ← document.choice? with
      | ("Jump", some content) => return .jump (← BlockId.ofJson? content)
      | ("Branch", some content) =>
          let record ← content.recordIn? form ["condition", "then_block", "else_block"]
          return .branch (← record.required? "condition" (Operand.ofJson? form))
            (← record.required? "then_block" BlockId.ofJson?)
            (← record.required? "else_block" BlockId.ofJson?)
      | ("Return", some content) => return .ret (← asOption? (Operand.ofJson? form) content)
      | _ => none

end Terminator

/-! ## Functions -/

namespace Block

def toJson (block : Block) : Json :=
  .object [("id", block.id.toJson), ("label", .string block.label),
    ("instructions", Json.ofList Instruction.toJson block.instructions),
    ("terminator", block.terminator.toJson)]

def ofJson? (document : Json) : Option Block := do
  let record ← document.record? ["id", "label", "instructions", "terminator"]
  return {
    id := ← record.required? "id" BlockId.ofJson?
    label := ← record.required? "label" Json.asString?
    instructions :=
      ← record.required? "instructions" (asList? (Instruction.ofJson? .namedOrListed))
    terminator := ← record.required? "terminator" (Terminator.ofJson? .namedOrListed) }

end Block

namespace Linkage

def name : Linkage → String
  | .exported => "External"
  | .internal => "Internal"

def ofJson? (document : Json) : Option Linkage := do
  let name ← document.bareChoice?
  [Linkage.exported, .internal].find? fun linkage => linkage.name = name

end Linkage

namespace Parameter

def toJson (parameter : Parameter) : Json :=
  .object [("name", .string parameter.name), ("param_type", parameter.ty.toJson)]

def ofJson? (document : Json) : Option Parameter := do
  let record ← document.record? ["name", "param_type"]
  return {
    name := ← record.required? "name" Json.asString?
    ty := ← record.required? "param_type" Ty.ofJson? }

end Parameter

namespace Signature

def toJson (signature : Signature) : Json :=
  .object [("name", .string signature.name),
    ("params", Json.ofList Parameter.toJson signature.params),
    ("returns", signature.returns.toJson)]

def ofJson? (document : Json) : Option Signature := do
  let record ← document.record? ["name", "params", "returns"]
  return {
    name := ← record.required? "name" Json.asString?
    params := ← record.required? "params" (asList? Parameter.ofJson?)
    returns := ← record.required? "returns" Ty.ofJson? }

end Signature

namespace Body

def toJson (body : Body) : Json :=
  .object [("blocks", Json.ofTable BlockId.name Block.toJson body.blocks),
    ("layout", Json.ofList BlockId.toJson body.layout),
    ("temps", Json.ofList Ty.toJson body.temps.toList),
    ("next_block_id", .integer body.nextBlock.toNat)]

def ofJson? (document : Json) : Option Body := do
  let record ← document.record? ["blocks", "layout", "temps", "next_block_id"]
  return {
    blocks := ← record.required? "blocks" (Json.asTable? BlockId.ofName? Block.ofJson?)
    layout := ← record.required? "layout" (asList? BlockId.ofJson?)
    temps := (← record.required? "temps" (asList? Ty.ofJson?)).toArray
    nextBlock := ← record.required? "next_block_id" Json.asUInt32? }

end Body

namespace Function

def toJson (function : Function) : Json :=
  .object [("signature", function.signature.toJson),
    ("linkage", .string function.linkage.name), ("body", function.body.toJson)]

def ofJson? (document : Json) : Option Function := do
  let record ← document.record? ["signature", "linkage", "body"]
  return {
    signature := ← record.required? "signature" Signature.ofJson?
    linkage := ← record.required? "linkage" Linkage.ofJson?
    body := ← record.required? "body" Body.ofJson? }

end Function

/-! ## Modules -/

namespace Global

def toJson (global : Global) : Json :=
  .object [("id", global.id.toJson), ("name", .string global.name),
    ("ty", global.ty.toJson), ("initializer", global.initial.toJson),
    ("align", .integer global.align.toNat), ("linkage", .string global.linkage.name)]

def ofJson? (document : Json) : Option Global := do
  let record ← document.record? ["id", "name", "ty", "initializer", "align", "linkage"]
  return {
    id := ← record.required? "id" GlobalId.ofJson?
    name := ← record.required? "name" Json.asString?
    ty := ← record.required? "ty" Ty.ofJson?
    initial := ← record.required? "initializer" (Constant.ofJson? .namedOrListed)
    align := ← record.required? "align" Json.asUInt32?
    linkage := ← record.required? "linkage" Linkage.ofJson? }

end Global

namespace DataObject

def toJson (object : DataObject) : Json :=
  .object [("id", object.id.toJson),
    ("bytes", Json.ofList (fun byte : UInt8 => .integer byte.toNat) object.bytes)]

def ofJson? (document : Json) : Option DataObject := do
  let record ← document.record? ["id", "bytes"]
  return {
    id := ← record.required? "id" DataId.ofJson?
    bytes := ← record.required? "bytes" (asList? Json.asUInt8?) }

end DataObject

namespace Module

def toJson (module : Module) : Json :=
  .object [("name", .string module.name),
    ("functions", Json.ofTable id Function.toJson module.functions),
    ("globals", Json.ofTable GlobalId.name Global.toJson module.globals),
    ("data", Json.ofTable DataId.name DataObject.toJson module.data),
    ("next_global_id", .integer module.nextGlobal.toNat),
    ("next_data_id", .integer module.nextData.toNat)]

def ofJson? (document : Json) : Option Module := do
  let record ← document.record?
    ["name", "functions", "globals", "data", "next_global_id", "next_data_id"]
  return {
    name := ← record.required? "name" Json.asString?
    functions := ← record.required? "functions"
      (Json.asTable? (fun name => some name.text) Function.ofJson?)
    globals := ← record.required? "globals" (Json.asTable? GlobalId.ofName? Global.ofJson?)
    data := ← record.required? "data" (Json.asTable? DataId.ofName? DataObject.ofJson?)
    nextGlobal := ← record.required? "next_global_id" Json.asUInt32?
    nextData := ← record.required? "next_data_id" Json.asUInt32? }

def parse? (text : String) : Option Module := (Json.read? text).bind ofJson?

def print (module : Module) : String := module.toJson.pretty

end Module

end ScriptLowering.Code
