import ScriptLowering.Proofs.VerifierChecks
import ScriptLowering.Proofs.GrowingModules
import ScriptLowering.Proofs.Place

/-! # Code with its data renumbered

Data objects are known by number only, and parameters and globals have names that only a reader
looks at. Code in which the data has other numbers, or variables have other names, is built by the
same steps and verified with the same answer.
-/

namespace ScriptLowering.Table

universe u v w

variable {κ : Type u} {α : Type v} {β : Type w}

/-- Change every value and leave the keys as they are. -/
def mapValues (table : Table κ α) (change : α → β) : Table κ β where
  entries := table.entries.map fun entry => (entry.1, change entry.2)
  keysDistinct := by simpa [Function.comp_def] using table.keysDistinct

@[simp] theorem keys_mapValues (table : Table κ α) (change : α → β) :
    (table.mapValues change).keys = table.keys := by
  simp [keys, mapValues, Function.comp_def]

@[simp] theorem size_mapValues (table : Table κ α) (change : α → β) :
    (table.mapValues change).size = table.size := by
  simp [size, mapValues]

theorem mapValues_filterKeys (table : Table κ α) (change : α → β) (keep : κ → Bool) :
    (table.filterKeys keep).mapValues change = (table.mapValues change).filterKeys keep := by
  apply ext
  simp [filterKeys, mapValues, List.filter_map, Function.comp_def]

variable [DecidableEq κ]

@[simp] theorem get?_mapValues (table : Table κ α) (change : α → β) (key : κ) :
    (table.mapValues change).get? key = (table.get? key).map change := by
  rcases table with ⟨entries, distinct⟩
  simp only [get?, mapValues]
  clear distinct
  induction entries with
  | nil => rfl
  | cons head rest induction =>
      rcases head with ⟨other, value⟩
      by_cases equal : other = key
      · simp [lookupEntry, equal]
      · simpa [lookupEntry, equal] using induction

@[simp] theorem contains_mapValues (table : Table κ α) (change : α → β) (key : κ) :
    (table.mapValues change).contains key = table.contains key := by
  simp [contains]

theorem mapValues_insert (table : Table κ α) (change : α → β) (key : κ) (value : α) :
    (table.insert key value).mapValues change =
      (table.mapValues change).insert key (change value) := by
  rcases table with ⟨entries, distinct⟩
  apply ext
  simp only [insert, mapValues]
  clear distinct
  induction entries with
  | nil => rfl
  | cons head rest induction =>
      rcases head with ⟨other, old⟩
      by_cases equal : other = key
      · simp [insertEntry, equal]
      · simpa [insertEntry, equal] using induction

theorem mapValues_modify (table : Table κ α) (convert : α → β) (key : κ) {change : α → α}
    {changed : β → β} (natural : ∀ value, convert (change value) = changed (convert value)) :
    (table.modify key change).mapValues convert =
      (table.mapValues convert).modify key changed := by
  apply ext
  simp only [modify, mapValues, List.map_map]
  apply List.map_congr_left
  rintro ⟨other, value⟩ _
  by_cases equal : other = key <;> simp [equal, natural]

omit [DecidableEq κ] in
theorem mapValues_mapValues {γ : Type w} (table : Table κ α) (first : α → β) (second : β → γ) :
    (table.mapValues first).mapValues second = table.mapValues (second ∘ first) := by
  apply ext
  simp [mapValues, Function.comp_def]

theorem mapValues_congr {table : Table κ α} {first second : α → β}
    (same : ∀ key value, table.get? key = some value → first value = second value) :
    table.mapValues first = table.mapValues second := by
  apply ext
  apply List.map_congr_left
  rintro ⟨key, value⟩ member
  simp [same key value (get?_eq_some_iff.mpr member)]

omit [DecidableEq κ] in
@[simp] theorem mapValues_id (table : Table κ α) : table.mapValues (fun value => value) = table :=
  ext (List.map_id _)

/-- Tables with the same keys in the same order are equal if every look-up finds the same. -/
theorem ext_get? {first second : Table κ α} (keys : first.keys = second.keys)
    (values : ∀ key, first.get? key = second.get? key) : first = second := by
  apply ext
  have lengths : first.entries.length = second.entries.length := by
    simpa [Table.keys] using congrArg List.length keys
  apply List.ext_getElem lengths
  intro index bound otherBound
  have sameKey : (first.entries[index]).1 = (second.entries[index]).1 := by
    have atIndex := congrArg (·[index]?) keys
    simpa [Table.keys, bound, otherBound] using atIndex
  have firstFound : first.get? (first.entries[index]).1 = some (first.entries[index]).2 :=
    get?_eq_some_iff.mpr (List.getElem_mem bound)
  have secondFound : second.get? (second.entries[index]).1 = some (second.entries[index]).2 :=
    get?_eq_some_iff.mpr (List.getElem_mem otherBound)
  rw [values, sameKey, secondFound] at firstFound
  exact Prod.ext sameKey (Option.some.inj firstFound).symm

end ScriptLowering.Table

namespace ScriptLowering.Code

/-! ## Renumbering data

`change` gives each data object its other number. -/

def Operand.relabel (change : DataId → DataId) : Operand → Operand
  | .temp id => .temp id
  | .param id => .param id
  | .global id => .global id
  | .data id => .data (change id)
  | .constant value => .constant value

/-- What an instruction defines is a temp and stays as it is. -/
def Instruction.relabel (change : DataId → DataId) : Instruction → Instruction
  | .alloca result ty align => .alloca result ty align
  | .load result ty address => .load result ty (address.relabel change)
  | .store address value => .store (address.relabel change) (value.relabel change)
  | .arith op result left right ty =>
      .arith op result (left.relabel change) (right.relabel change) ty
  | .negate result operand ty => .negate result (operand.relabel change) ty
  | .compare result condition left right =>
      .compare result condition (left.relabel change) (right.relabel change)
  | .call result callee args => .call result callee (args.map (Operand.relabel change))

def Terminator.relabel (change : DataId → DataId) : Terminator → Terminator
  | .jump target => .jump target
  | .branch condition thenBlock elseBlock =>
      .branch (condition.relabel change) thenBlock elseBlock
  | .ret value => .ret (value.map (Operand.relabel change))
  | .unfinished => .unfinished

def Block.relabel (change : DataId → DataId) (block : Block) : Block :=
  { block with
    instructions := block.instructions.map (Instruction.relabel change)
    terminator := block.terminator.relabel change }

def Body.relabel (change : DataId → DataId) (body : Body) : Body :=
  { body with blocks := body.blocks.mapValues (Block.relabel change) }

def Function.relabel (change : DataId → DataId) (function : Function) : Function :=
  { function with body := function.body.relabel change }

def Place.relabel (change : DataId → DataId) (place : Place) : Place :=
  { place with body := place.body.relabel change }

variable (change : DataId → DataId)

@[simp] theorem Operand.relabel_temp (id : TempId) : (temp id).relabel change = .temp id := rfl

@[simp] theorem Operand.relabel_global (id : GlobalId) :
    (global id).relabel change = .global id := rfl

@[simp] theorem Operand.relabel_data (id : DataId) :
    (data id).relabel change = .data (change id) := rfl

@[simp] theorem Operand.relabel_constant (value : Constant) :
    (constant value).relabel change = .constant value := rfl

/-! ### What is read off code -/

@[simp] theorem Operand.asConstant?_relabel (operand : Operand) :
    (operand.relabel change).asConstant? = operand.asConstant? := by
  cases operand <;> rfl

@[simp] theorem Operand.isConstant_relabel (operand : Operand) :
    (operand.relabel change).isConstant = operand.isConstant := by
  simp [Operand.isConstant]

@[simp] theorem Instruction.defined?_relabel (instruction : Instruction) :
    (instruction.relabel change).defined? = instruction.defined? := by
  cases instruction <;> rfl

theorem Instruction.operands_relabel (instruction : Instruction) :
    (instruction.relabel change).operands = instruction.operands.map (Operand.relabel change) := by
  cases instruction <;> rfl

theorem Terminator.operands_relabel (terminator : Terminator) :
    (terminator.relabel change).operands = terminator.operands.map (Operand.relabel change) := by
  cases terminator with
  | ret value => cases value <;> rfl
  | _ => rfl

@[simp] theorem Block.successors_relabel (block : Block) :
    (block.relabel change).successors = block.successors := by
  rcases block with ⟨id, label, instructions, terminator⟩
  cases terminator <;> rfl

@[simp] theorem Block.isTerminated_relabel (block : Block) :
    (block.relabel change).isTerminated = block.isTerminated := by
  rcases block with ⟨id, label, instructions, terminator⟩
  cases terminator <;> rfl

@[simp] theorem Block.id_relabel (block : Block) : (block.relabel change).id = block.id := rfl

@[simp] theorem Body.block?_relabel (body : Body) (id : BlockId) :
    (body.relabel change).block? id = (body.block? id).map (Block.relabel change) :=
  Table.get?_mapValues _ _ _

@[simp] theorem Body.layout_relabel (body : Body) : (body.relabel change).layout = body.layout :=
  rfl

@[simp] theorem Body.isLaidOut_relabel (body : Body) (id : BlockId) :
    (body.relabel change).isLaidOut id = body.isLaidOut id := rfl

theorem Body.laidOut_relabel (body : Body) :
    (body.relabel change).laidOut = body.laidOut.map (Block.relabel change) := by
  simp only [Body.laidOut, layout_relabel, List.map_filterMap]
  congr 1
  funext id
  exact body.block?_relabel change id

@[simp] theorem Body.predecessorCount_relabel (body : Body) (id : BlockId) :
    (body.relabel change).predecessorCount id = body.predecessorCount id := by
  simp only [Body.predecessorCount, laidOut_relabel, List.flatMap_map, Block.successors_relabel]

theorem Body.relabel_prune (body : Body) :
    body.prune.relabel change = (body.relabel change).prune := by
  simp only [Body.prune, Body.relabel, Table.mapValues_filterKeys]
  rfl


/-! ### Numbers of the data that is mentioned -/

section Mentioned

variable {change} {other : DataId → DataId}

theorem Instruction.relabel_congr {instruction : Instruction}
    (same : ∀ operand ∈ instruction.operands, operand.relabel change = operand.relabel other) :
    instruction.relabel change = instruction.relabel other := by
  cases instruction with
  | call result callee args =>
      have agree : args.map (Operand.relabel change) = args.map (Operand.relabel other) :=
        List.map_congr_left same
      rw [Instruction.relabel, Instruction.relabel, agree]
  | _ => simp_all [Instruction.operands, Instruction.relabel]

theorem Terminator.relabel_congr {terminator : Terminator}
    (same : ∀ operand ∈ terminator.operands, operand.relabel change = operand.relabel other) :
    terminator.relabel change = terminator.relabel other := by
  cases terminator with
  | ret value => cases value <;> simp_all [Terminator.operands, Terminator.relabel]
  | _ => simp_all [Terminator.operands, Terminator.relabel]

theorem Body.relabel_congr {body : Body}
    (same : ∀ operand, body.Mentions operand → operand.relabel change = operand.relabel other) :
    body.relabel change = body.relabel other := by
  have blocks : ∀ id block, body.blocks.get? id = some block →
      block.relabel change = block.relabel other := by
    intro id block found
    have inside : ∀ operand ∈ block.operands, operand.relabel change = operand.relabel other :=
      fun operand member => same operand ⟨id, block, found, member⟩
    have instructions : block.instructions.map (Instruction.relabel change) =
        block.instructions.map (Instruction.relabel other) := by
      refine List.map_congr_left fun instruction member => ?_
      exact Instruction.relabel_congr fun operand isOperand => inside operand
        (List.mem_append_left _ (List.mem_flatMap.mpr ⟨instruction, member, isOperand⟩))
    have terminator : block.terminator.relabel change = block.terminator.relabel other :=
      Terminator.relabel_congr fun operand member =>
        inside operand (List.mem_append_right _ member)
    rw [Block.relabel, Block.relabel, instructions, terminator]
  rw [Body.relabel, Body.relabel, Table.mapValues_congr blocks]

end Mentioned

/-! ### One renumbering after the other -/

section Composing

variable (first second : DataId → DataId)

@[simp] theorem Operand.relabel_id (operand : Operand) : operand.relabel id = operand := by
  cases operand <;> rfl

@[simp] theorem Operand.relabel_relabel (operand : Operand) :
    (operand.relabel first).relabel second = operand.relabel (second ∘ first) := by
  cases operand <;> rfl

theorem Operand.map_relabel_id (operands : List Operand) : operands.map (relabel id) = operands :=
  (List.map_congr_left fun operand _ => operand.relabel_id).trans (List.map_id _)

theorem Instruction.relabel_id (instruction : Instruction) : instruction.relabel id = instruction := by
  cases instruction <;> simp [Instruction.relabel, Operand.map_relabel_id]

theorem Instruction.relabel_relabel (instruction : Instruction) :
    (instruction.relabel first).relabel second = instruction.relabel (second ∘ first) := by
  cases instruction <;> simp [Instruction.relabel, Function.comp_def]

theorem Terminator.relabel_id (terminator : Terminator) : terminator.relabel id = terminator := by
  cases terminator with
  | ret value => cases value <;> simp [Terminator.relabel]
  | _ => simp [Terminator.relabel]

theorem Terminator.relabel_relabel (terminator : Terminator) :
    (terminator.relabel first).relabel second = terminator.relabel (second ∘ first) := by
  cases terminator with
  | ret value => cases value <;> simp [Terminator.relabel]
  | _ => simp [Terminator.relabel]

theorem Block.relabel_relabel (block : Block) :
    (block.relabel first).relabel second = block.relabel (second ∘ first) := by
  simp only [Block.relabel, List.map_map, Terminator.relabel_relabel]
  rw [List.map_congr_left fun instruction _ => instruction.relabel_relabel first second]

theorem Body.relabel_id (body : Body) : body.relabel id = body := by
  have blocks (block : Block) : block.relabel id = block := by
    have instructions : block.instructions.map (Instruction.relabel id) = block.instructions :=
      (List.map_congr_left fun instruction _ => instruction.relabel_id).trans (List.map_id _)
    rw [Block.relabel, instructions, block.terminator.relabel_id]
  rw [Body.relabel, Table.mapValues_congr fun _ block _ => blocks block, Table.mapValues_id]

theorem Body.relabel_relabel (body : Body) :
    (body.relabel first).relabel second = body.relabel (second ∘ first) := by
  simp only [Body.relabel, Table.mapValues_mapValues]
  rw [Table.mapValues_congr fun _ block _ => block.relabel_relabel first second]

theorem Body.relabel_eq_self {body : Body}
    (fixed : ∀ operand, body.Mentions operand → operand.relabel change = operand) :
    body.relabel change = body := by
  rw [Body.relabel_congr fun operand mentioned =>
    (fixed operand mentioned).trans operand.relabel_id.symm, Body.relabel_id]

end Composing

/-! ### Building -/

namespace Place

variable (place : Place)

@[simp] theorem block_relabel : (place.relabel change).block = place.block := rfl

@[simp] theorem freshBlock_relabel : (place.relabel change).freshBlock = place.freshBlock := rfl

@[simp] theorem freshTemp_relabel : (place.relabel change).freshTemp = place.freshTemp := rfl

@[simp] theorem isOpen_relabel : (place.relabel change).isOpen = place.isOpen := by
  simp only [isOpen, current?, relabel]
  cases place.block with
  | none => rfl
  | some id =>
      simp only [Option.bind_some, Body.block?_relabel]
      cases place.body.block? id <;> simp

@[simp] theorem isLive_relabel : (place.relabel change).isLive = place.isLive := by
  simp only [isLive, block_relabel, isOpen_relabel]
  rfl

theorem relabel_create (label : String) :
    (place.create label).relabel change = (place.relabel change).create label := by
  simp only [create, relabel, Body.createBlock, Body.relabel, Table.mapValues_insert]
  rfl

theorem relabel_ready : place.ready.relabel change = (place.relabel change).ready := by
  simp only [ready, isOpen_relabel]
  split
  · rfl
  · rw [← relabel_create]
    rfl

theorem relabel_change {edit edited : Block → Block}
    (natural : ∀ block, (edit block).relabel change = edited (block.relabel change)) :
    (place.change edit).relabel change = (place.relabel change).change edited := by
  simp only [Place.change, block_relabel]
  cases place.block with
  | none => rfl
  | some id =>
      simp only [relabel, Body.modifyBlock, Body.relabel]
      rw [Table.mapValues_modify _ _ _ natural]

theorem relabel_add (instruction : Instruction) :
    (place.add instruction).relabel change =
      (place.relabel change).add (instruction.relabel change) := by
  apply relabel_change
  intro block
  simp [Block.addInstruction, Block.relabel]

theorem relabel_terminate (terminator : Terminator) :
    (place.terminate terminator).relabel change =
      (place.relabel change).terminate (terminator.relabel change) := by
  apply relabel_change
  intro block
  rfl

theorem relabel_define (ty : Ty) {instruction relabelled : Operand → Instruction}
    (natural : ∀ id, (instruction (.temp id)).relabel change = relabelled (.temp id)) :
    (place.define ty instruction).relabel change =
      (place.relabel change).define ty relabelled := by
  rw [define, relabel_add, natural]
  rfl

theorem relabel_leaveTo (target : BlockId) :
    (place.leaveTo target).relabel change = (place.relabel change).leaveTo target := by
  simp only [leaveTo, isOpen_relabel]
  cases place.isOpen with
  | true =>
      have ends := place.relabel_terminate change (.jump target)
      simp only [if_true, relabel] at ends ⊢
      exact congrArg (Place.mk · none) (congrArg Place.body ends)
  | false => rfl

theorem relabel_returnIfLive (value : Option Operand) :
    (place.returnIfLive value).relabel change =
      (place.relabel change).returnIfLive (value.map (Operand.relabel change)) := by
  simp only [returnIfLive, isLive_relabel]
  split
  · exact place.relabel_terminate change (.ret value)
  · rfl

theorem relabel_pruned : place.pruned.relabel change = (place.relabel change).pruned := by
  simp only [pruned, relabel, Body.relabel_prune]
  rfl

end Place

/-! ## Renaming variables -/

def Parameter.rename (view : String → String) (parameter : Parameter) : Parameter :=
  { parameter with name := view parameter.name }

def Signature.rename (view : String → String) (signature : Signature) : Signature :=
  { signature with params := signature.params.map (Parameter.rename view) }

def Global.rename (view : String → String) (global : Global) : Global :=
  { global with name := view global.name }

theorem Signature.types_of_rename {view : String → String} {first second : Signature}
    (same : first.rename view = second.rename view) :
    first.params.map Parameter.ty = second.params.map Parameter.ty ∧
      first.returns = second.returns := by
  have params := congrArg (fun signature => signature.params.map Parameter.ty) same
  have returns := congrArg Signature.returns same
  simp only [Signature.rename, List.map_map] at params returns
  exact ⟨params, returns⟩

/-! ## Verification -/

/-- What verification of code in `module` looks at is the same in `other`, where the data has
other numbers and parameters other names. -/
structure Module.Mirrors (module other : Module) : Prop where
  signatures : ∀ name, Option.Rel (fun function mirrored : Function =>
    mirrored.signature.params.map Parameter.ty = function.signature.params.map Parameter.ty ∧
      mirrored.signature.returns = function.signature.returns)
    (module.function? name) (other.function? name)
  globals : ∀ id, (other.global? id).map Global.ty = (module.global? id).map Global.ty
  data : ∀ id, other.data.contains (change id) = module.data.contains id

/-- The same function with its data renumbered and other names for its parameters. -/
structure Function.Mirrors (function other : Function) : Prop where
  params : other.signature.params.map Parameter.ty = function.signature.params.map Parameter.ty
  returns : other.signature.returns = function.signature.returns
  body : other.body = function.body.relabel change

variable {change}

theorem Function.Mirrors.ofFunction {function other : Function}
    (mirrors : function.Mirrors change other) :
    FlowGraph.ofFunction other = FlowGraph.ofFunction function := by
  simp only [FlowGraph.ofFunction, Function.entry?, mirrors.body, Body.laidOut_relabel,
    List.map_map, List.flatMap_map, Function.comp_def, Block.id_relabel, Block.successors_relabel,
    Body.layout_relabel]

theorem Function.Mirrors.checkShape_iff {function other : Function}
    (mirrors : function.Mirrors change other) :
    checkShape other = .ok () ↔ checkShape function = .ok () := by
  rw [checkShape_eq_ok, checkShape_eq_ok, mirrors.ofFunction, mirrors.body,
    Body.laidOut_relabel]
  simp [Body.relabel]

theorem Definitions.add_relabel (change : DataId → DataId) (definitions : Definitions)
    (block : BlockId) (index : Nat) (instruction : Instruction) :
    definitions.add block index (instruction.relabel change) =
      definitions.add block index instruction := by
  simp only [Definitions.add, Instruction.defined?_relabel]
  cases instruction <;> rfl

theorem Definitions.collect_relabel (change : DataId → DataId) (body : Body) :
    collect (body.relabel change) = collect body := by
  simp only [collect, Body.laidOut_relabel, List.foldlM_map]
  congr 1
  funext definitions block
  simp only [addBlock, Block.relabel, List.zipIdx_map, List.foldlM_map]
  congr 1
  funext gathered pair
  exact add_relabel change gathered block.id pair.2 pair.1

namespace Scene

/-- The scene of the mirrored function in the mirrored module. -/
def mirror (scene : Scene) (module : Module) (function : Function) : Scene :=
  { scene with module := module, function := function }

variable {scene : Scene} {module : Module} {function : Function}
  (modules : scene.module.Mirrors change module)
  (functions : scene.function.Mirrors change function)

include functions in
theorem typeOf?_same (operand : Operand) :
    function.typeOf? operand = scene.function.typeOf? operand := by
  cases operand with
  | temp id => simp [Function.typeOf?, functions.body, Body.tempType?, Body.relabel]
  | param id => simp only [Function.typeOf?, ← List.getElem?_map, functions.params]
  | global | data | constant => rfl

include functions in
theorem typeOf?_mirror (operand : Operand) :
    function.typeOf? (operand.relabel change) = scene.function.typeOf? operand := by
  rw [← typeOf?_same functions operand]
  cases operand <;> rfl

include functions in
theorem fits_mirror (operand : Operand) (ty : Ty) :
    (scene.mirror module function).fits (operand.relabel change) ty = scene.fits operand ty := by
  have types := typeOf?_mirror functions operand
  cases operand with
  | constant value => rfl
  | temp | param | global | data =>
      simp only [fits, mirror]
      exact congrArg (fun found => decide (found = some ty)) types

include modules in
theorem stored?_mirror (operand : Operand) :
    (scene.mirror module function).stored? (operand.relabel change) = scene.stored? operand := by
  cases operand with
  | global id => exact modules.globals id
  | temp | param | data | constant => rfl

include functions in
theorem comparedType?_mirror (left right : Operand) :
    (scene.mirror module function).comparedType? (left.relabel change) (right.relabel change) =
      scene.comparedType? left right := by
  simp only [comparedType?, Operand.isConstant_relabel]
  split
  · exact typeOf?_mirror functions right
  · exact typeOf?_mirror functions left

include modules functions in
theorem checkUse_mirror (block : BlockId) (index : Option Nat) (operand : Operand) :
    (scene.mirror module function).checkUse block index (operand.relabel change) = .ok () ↔
      scene.checkUse block index operand = .ok () := by
  cases operand with
  | temp | constant => rfl
  | param id =>
      have arity : function.arity = scene.function.arity := by
        simpa [Function.arity] using congrArg List.length functions.params
      simp only [Operand.relabel, checkUse, require_eq_ok, mirror, arity]
  | global id =>
      have known := congrArg Option.isSome (modules.globals id)
      simp only [Option.isSome_map] at known
      simp only [Operand.relabel, checkUse, require_eq_ok, mirror]
      exact iff_of_eq (congrArg (· = true) known)
  | data id => simp only [Operand.relabel, checkUse, require_eq_ok, mirror, modules.data]

include functions in
theorem checkArguments_mirror (callee : String) (arguments : List Operand)
    {parameters mirrored : List Parameter}
    (types : mirrored.map Parameter.ty = parameters.map Parameter.ty) :
    (scene.mirror module function).checkArguments callee
        (arguments.map (Operand.relabel change)) mirrored = .ok () ↔
      scene.checkArguments callee arguments parameters = .ok () := by
  induction arguments generalizing parameters mirrored with
  | nil => cases parameters <;> cases mirrored <;> simp [checkArguments]
  | cons argument rest induction =>
      cases parameters with
      | nil =>
          rw [List.map_nil, List.map_eq_nil_iff] at types
          subst types
          simp [checkArguments]
      | cons parameter others =>
          cases mirrored with
          | nil => simp at types
          | cons first more =>
              simp only [List.map_cons, List.cons.injEq] at types
              simp only [List.map_cons, checkArguments, bind_unit_eq_ok, require_eq_ok,
                fits_mirror functions, types.1, induction types.2]

include functions in
theorem checkResult_mirror (callee : String) (returns : Ty) (result : Option Operand) :
    (scene.mirror module function).checkResult callee returns result =
      scene.checkResult callee returns result := by
  cases result with
  | none => rfl
  | some result =>
      have types := typeOf?_same functions result
      cases result with
      | constant value => rfl
      | temp | param | global | data => simp only [checkResult, fits, mirror, types]

include modules functions in
theorem checkInstruction_mirror (instruction : Instruction) :
    (scene.mirror module function).checkInstruction (instruction.relabel change) = .ok () ↔
      scene.checkInstruction instruction = .ok () := by
  cases instruction with
  | alloca result ty align => rfl
  | load result ty address =>
      simp only [Instruction.relabel, checkInstruction, stored?_mirror modules]
      cases scene.stored? address <;> simp [require_eq_ok]
  | store address value =>
      simp only [Instruction.relabel, checkInstruction, stored?_mirror modules]
      cases scene.stored? address <;> simp [require_eq_ok, fits_mirror functions]
  | arith op result left right ty =>
      simp only [Instruction.relabel, checkInstruction, fits_mirror functions, bind_unit_eq_ok,
        require_eq_ok]
  | negate result operand ty =>
      simp only [Instruction.relabel, checkInstruction, fits_mirror functions, require_eq_ok]
  | compare result condition left right =>
      simp only [Instruction.relabel, checkInstruction, comparedType?_mirror functions]
      cases scene.comparedType? left right <;>
        simp [require_eq_ok, bind_unit_eq_ok, fits_mirror functions]
  | call result callee arguments =>
      have signatures := modules.signatures callee
      simp only [Instruction.relabel, checkInstruction, mirror]
      revert signatures
      generalize scene.module.function? callee = target
      generalize module.function? callee = mirrored
      intro signatures
      cases signatures with
      | none => simp
      | some types =>
          have lengths := congrArg List.length types.1
          simp only [List.length_map] at lengths
          simp only [bind_unit_eq_ok, require_eq_ok, lengths, List.length_map, types.2]
          refine and_congr_right fun _ => and_congr
            (checkArguments_mirror functions callee arguments types.1) (iff_of_eq ?_)
          exact congrArg (· = .ok ()) (checkResult_mirror functions callee _ result)

include functions in
theorem checkTerminator_mirror (terminator : Terminator) :
    (scene.mirror module function).checkTerminator (terminator.relabel change) = .ok () ↔
      scene.checkTerminator terminator = .ok () := by
  have returns : (scene.mirror module function).function.signature.returns =
      scene.function.signature.returns := functions.returns
  cases terminator with
  | jump target => rfl
  | unfinished => rfl
  | branch condition thenBlock elseBlock =>
      simp only [Terminator.relabel, checkTerminator, require_eq_ok, fits_mirror functions]
  | ret value =>
      cases value with
      | none => simp only [Terminator.relabel, Option.map_none, checkTerminator, returns,
          require_eq_ok]
      | some value => simp only [Terminator.relabel, Option.map_some, checkTerminator, returns,
          bind_unit_eq_ok, require_eq_ok, fits_mirror functions]

include modules functions in
theorem checkBlock_mirror (block : Block) :
    (scene.mirror module function).checkBlock (block.relabel change) = .ok () ↔
      scene.checkBlock block = .ok () := by
  rw [checkBlock_eq_ok, checkBlock_eq_ok]
  refine and_congr ?_ (and_congr ?_ (checkTerminator_mirror functions _))
  · constructor
    · intro checks index instruction found
      have mirrored := checks index (instruction.relabel change) (by
        simp [Block.relabel, found])
      rw [Instruction.operands_relabel, List.forall_mem_map] at mirrored
      exact ⟨fun operand member => (checkUse_mirror modules functions _ _ _).mp
        (mirrored.1 operand member), (checkInstruction_mirror modules functions _).mp mirrored.2⟩
    · intro checks index instruction found
      simp only [Block.relabel, List.getElem?_map, Option.map_eq_some_iff] at found
      rcases found with ⟨original, stands, rfl⟩
      rw [Instruction.operands_relabel, List.forall_mem_map]
      have checked := checks index original stands
      exact ⟨fun operand member => (checkUse_mirror modules functions _ _ _).mpr
        (checked.1 operand member), (checkInstruction_mirror modules functions _).mpr checked.2⟩
  · change (∀ operand ∈ (block.terminator.relabel change).operands, _) ↔ _
    rw [Terminator.operands_relabel, List.forall_mem_map]
    exact forall_congr' fun operand => imp_congr_right fun _ =>
      checkUse_mirror modules functions _ _ _

end Scene

/-- A mirrored function is accepted in the mirrored module if and only if the function is. -/
theorem Module.Mirrors.checkFunction_iff {module other : Module}
    (modules : module.Mirrors change other) {function mirrored : Function} (functions : function.Mirrors change mirrored) :
    other.checkFunction mirrored = .ok () ↔ module.checkFunction function = .ok () := by
  rw [Module.checkFunction_eq_ok, Module.checkFunction_eq_ok, functions.checkShape_iff,
    functions.ofFunction, functions.body, Definitions.collect_relabel, Body.laidOut_relabel]
  refine and_congr_right fun _ => exists_congr fun definitions => and_congr_right fun _ => ?_
  rw [List.forall_mem_map]
  refine forall_congr' fun block => imp_congr_right fun _ => ?_
  let scene : Scene :=
    ⟨module, function, definitions, (FlowGraph.ofFunction function).dominators⟩
  have checks : (scene.mirror other mirrored).checkBlock (block.relabel change) = .ok () ↔
      scene.checkBlock block = .ok () := Scene.checkBlock_mirror modules functions block
  exact checks

end ScriptLowering.Code
