import ScriptLowering.Code.BuildError
import ScriptLowering.Code.Function

/-!
# Modules

A module is the unit of compilation: functions, global variables and constant data, each
in the order in which it was added. Every look-up goes by the key of a table, which a
module read from a document may pair with an entry of another name.
-/

namespace ScriptLowering.Code

structure Global where
  id : GlobalId
  name : String
  ty : Ty
  initial : Constant
  align : UInt32
  linkage : Linkage
  deriving DecidableEq, Repr

structure DataObject where
  id : DataId
  bytes : List UInt8
  deriving DecidableEq, Repr

structure Module where
  name : String
  functions : Table String Function
  globals : Table GlobalId Global
  data : Table DataId DataObject
  nextGlobal : UInt32
  nextData : UInt32
  deriving DecidableEq

namespace Module

def empty (name : String) : Module where
  name := name
  functions := .empty
  globals := .empty
  data := .empty
  nextGlobal := 0
  nextData := 0

instance : Inhabited Module := ⟨empty ""⟩

def function? (module : Module) (name : String) : Option Function :=
  module.functions.get? name

def global? (module : Module) (id : GlobalId) : Option Global := module.globals.get? id

def declare (module : Module) (signature : Signature) (linkage : Linkage) :
    Except BuildError Module :=
  if module.functions.contains signature.name then .error (.functionExists signature.name)
  else .ok { module with
    functions := module.functions.insert signature.name (.declared signature linkage) }

def globalNamed? (module : Module) (name : String) : Option Global :=
  module.globals.values.find? fun global => global.name = name

def modifyFunction (module : Module) (name : String) (change : Function → Function) : Module :=
  { module with functions := module.functions.modify name change }

def addGlobal (module : Module) (name : String) (ty : Ty) (initial : Constant)
    (align : UInt32) : GlobalId × Module :=
  let id : GlobalId := ⟨module.nextGlobal⟩
  let global : Global := { id, name, ty, initial, align, linkage := .exported }
  (id, { module with
    globals := module.globals.insert id global
    nextGlobal := module.nextGlobal + 1 })

def addData (module : Module) (bytes : List UInt8) : DataId × Module :=
  let id : DataId := ⟨module.nextData⟩
  (id, { module with
    data := module.data.insert id { id, bytes }
    nextData := module.nextData + 1 })

/-- A text as data: its UTF-8 bytes and a zero byte behind them. -/
def textBytes (text : String) : List UInt8 := text.toUTF8.toList ++ [0]

def addText (module : Module) (text : String) : DataId × Module :=
  module.addData (textBytes text)

def declarations (module : Module) : List Function :=
  module.functions.values.filter Function.isDeclaration

def definitions (module : Module) : List Function :=
  module.functions.values.filter fun function => !function.isDeclaration

end Module

end ScriptLowering.Code
