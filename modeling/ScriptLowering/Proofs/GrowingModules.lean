import Mathlib.Data.Option.Defs
import ScriptLowering.Code.Cursor
import ScriptLowering.Proofs.VerifierChecks

/-! # Modules that grow

While a module is built, functions are filled in and globals and data are added. Verification of a
function looks at the rest of the module only through the signatures of functions and through the
globals and the data that the function mentions. So the answer does not change any more once the
function is complete, as long as all that it mentions is there.
-/

namespace ScriptLowering.Code

/-! ## What a function mentions -/

def Block.operands (block : Block) : List Operand :=
  block.instructions.flatMap Instruction.operands ++ block.terminator.operands

/-- The operand stands in one of the blocks, laid out or not. -/
def Body.Mentions (body : Body) (operand : Operand) : Prop :=
  ∃ id block, body.block? id = some block ∧ operand ∈ block.operands

/-- If the operand is the address of a global or of data, the module has it. -/
def Module.Knows (module : Module) : Operand → Prop
  | .global id => module.globals.contains id = true
  | .data id => module.data.contains id = true
  | .temp _ | .param _ | .constant _ => True

namespace Module

@[simp] theorem knows_temp (module : Module) (id : TempId) : module.Knows (.temp id) := trivial

@[simp] theorem knows_param (module : Module) (id : ParamId) : module.Knows (.param id) := trivial

@[simp] theorem knows_constant (module : Module) (value : Constant) :
    module.Knows (.constant value) := trivial

def KnowsAll (module : Module) (operands : List Operand) : Prop :=
  ∀ operand ∈ operands, module.Knows operand

@[simp] theorem knowsAll_nil (module : Module) : module.KnowsAll [] := by
  simp [KnowsAll]

@[simp] theorem knowsAll_cons {module : Module} {operand : Operand} {operands : List Operand} :
    module.KnowsAll (operand :: operands) ↔ module.Knows operand ∧ module.KnowsAll operands := by
  simp [KnowsAll]

@[simp] theorem knowsAll_append {module : Module} {first second : List Operand} :
    module.KnowsAll (first ++ second) ↔ module.KnowsAll first ∧ module.KnowsAll second := by
  simp [KnowsAll, or_imp, forall_and]

/-- Functions have kept their signatures, and globals and data are still there. -/
structure Extends (late early : Module) : Prop where
  signatures : ∀ name, (late.function? name).map Function.signature =
    (early.function? name).map Function.signature
  globals : ∀ id global, early.global? id = some global → late.global? id = some global
  data : ∀ id, early.data.contains id = true → late.data.contains id = true

namespace Extends

variable {early middle late : Module}

theorem refl (module : Module) : module.Extends module :=
  ⟨fun _ => rfl, fun _ _ found => found, fun _ known => known⟩

theorem trans (second : late.Extends middle) (first : middle.Extends early) :
    late.Extends early where
  signatures := fun name => (second.signatures name).trans (first.signatures name)
  globals := fun id global found => second.globals id global (first.globals id global found)
  data := fun id known => second.data id (first.data id known)

theorem contains_global (extension : late.Extends early) {id : GlobalId}
    (known : early.globals.contains id = true) : late.globals.contains id = true := by
  rcases Option.isSome_iff_exists.mp known with ⟨global, found⟩
  exact Option.isSome_iff_exists.mpr ⟨global, extension.globals id global found⟩

theorem knows (extension : late.Extends early) {operand : Operand}
    (known : early.Knows operand) : late.Knows operand := by
  cases operand with
  | global id => exact extension.contains_global known
  | data id => exact extension.data id known
  | temp | param | constant => trivial

end Extends

theorem extends_addText (module : Module) (text : String) :
    (module.addText text).2.Extends module where
  signatures := fun _ => rfl
  globals := fun _ _ found => found
  data := fun id known => by
    rw [Table.contains_iff] at known ⊢
    exact Table.mem_keys_insert.mpr (.inr known)

theorem extends_addGlobal {module : Module} (name : String) (ty : Ty) (initial : Constant)
    (align : UInt32) (fresh : (⟨module.nextGlobal⟩ : GlobalId) ∉ module.globals.keys) :
    (module.addGlobal name ty initial align).2.Extends module where
  signatures := fun _ => rfl
  globals := by
    intro id global found
    have different : (⟨module.nextGlobal⟩ : GlobalId) ≠ id := by
      rintro rfl
      exact fresh (Table.mem_keys_iff.mpr ⟨global, found⟩)
    exact (Table.get?_insert_other module.globals _ different).trans found
  data := fun _ known => known

end Module

/-! ## Checks in a larger module -/

theorem forM_congr {ε α : Type} {first second : α → Except ε Unit} {items : List α}
    (same : ∀ item ∈ items, first item = second item) :
    items.forM first = items.forM second := by
  induction items with
  | nil => rfl
  | cons item rest induction =>
      change (first item >>= fun _ => rest.forM first) =
        (second item >>= fun _ => rest.forM second)
      rw [same item List.mem_cons_self,
        induction fun other member => same other (List.mem_cons_of_mem item member)]

namespace Scene

def within (scene : Scene) (module : Module) : Scene := { scene with module := module }

variable {scene : Scene} {late : Module} (extension : late.Extends scene.module)

theorem checkArguments_within (callee : String) (arguments : List Operand)
    (parameters : List Parameter) :
    (scene.within late).checkArguments callee arguments parameters =
      scene.checkArguments callee arguments parameters := by
  induction arguments generalizing parameters with
  | nil => cases parameters <;> rfl
  | cons argument rest induction =>
      cases parameters with
      | nil => rfl
      | cons parameter others =>
          simp only [checkArguments, induction others]
          rfl

include extension

theorem checkUse_within (block : BlockId) (index : Option Nat) {operand : Operand}
    (known : scene.module.Knows operand) :
    (scene.within late).checkUse block index operand = scene.checkUse block index operand := by
  cases operand with
  | global id =>
      have stays : late.globals.contains id = true := extension.contains_global known
      change scene.module.globals.contains id = true at known
      simp only [checkUse, within, stays, known]
  | data id =>
      have stays : late.data.contains id = true := extension.data id known
      change scene.module.data.contains id = true at known
      simp only [checkUse, within, stays, known]
  | temp | param | constant => rfl

theorem stored?_within {operand : Operand} (known : scene.module.Knows operand) :
    (scene.within late).stored? operand = scene.stored? operand := by
  cases operand with
  | global id =>
      rcases Option.isSome_iff_exists.mp known with ⟨global, found⟩
      have stays : late.global? id = some global := extension.globals id global found
      have before : scene.module.global? id = some global := found
      simp only [stored?, within, stays, before]
  | temp | param | data | constant => rfl

theorem checkInstruction_within {instruction : Instruction}
    (known : ∀ operand ∈ instruction.operands, scene.module.Knows operand) :
    (scene.within late).checkInstruction instruction = scene.checkInstruction instruction := by
  cases instruction with
  | load result ty address =>
      simp only [checkInstruction, stored?_within extension (known address (by
        simp [Instruction.operands]))]
  | store address value =>
      simp only [checkInstruction, stored?_within extension (known address (by
        simp [Instruction.operands]))]
      rfl
  | call result callee arguments =>
      have signatures := extension.signatures callee
      simp only [checkInstruction, within]
      cases before : scene.module.function? callee with
      | none =>
          rw [before, Option.map_none, Option.map_eq_none_iff] at signatures
          rw [signatures]
      | some target =>
          rw [before, Option.map_some, Option.map_eq_some_iff] at signatures
          rcases signatures with ⟨after, found, same⟩
          simp only [found, same]
          change (do
            require _ _
            (scene.within late).checkArguments _ _ _
            (scene.within late).checkResult _ _ _) = _
          rw [checkArguments_within]
          rfl
  | alloca | arith | negate | compare => rfl

theorem checkBlock_within {block : Block}
    (known : ∀ operand ∈ block.operands, scene.module.Knows operand) :
    (scene.within late).checkBlock block = scene.checkBlock block := by
  have inside : ∀ instruction ∈ block.instructions, ∀ operand ∈ instruction.operands,
      scene.module.Knows operand := fun instruction member operand isOperand =>
    known operand (List.mem_append_left _ (List.mem_flatMap.mpr ⟨instruction, member, isOperand⟩))
  have instructions : ∀ pair ∈ block.instructions.zipIdx, (do
      pair.1.operands.forM ((scene.within late).checkUse block.id (some pair.2))
      (scene.within late).checkInstruction pair.1) = (do
      pair.1.operands.forM (scene.checkUse block.id (some pair.2))
      scene.checkInstruction pair.1) := by
    rintro ⟨instruction, index⟩ member
    have operands := inside instruction (List.fst_mem_of_mem_zipIdx member)
    rw [checkInstruction_within extension operands, forM_congr fun operand isOperand =>
      checkUse_within extension block.id (some index) (operands operand isOperand)]
  have terminator : block.terminator.operands.forM ((scene.within late).checkUse block.id none) =
      block.terminator.operands.forM (scene.checkUse block.id none) :=
    forM_congr fun operand member => checkUse_within extension block.id none
      (known operand (List.mem_append_right _ member))
  unfold checkBlock
  rw [terminator]
  rw [forM_congr instructions]
  rfl

end Scene

/-- What has been found out about a function that mentions nothing unknown stays true. -/
theorem Module.Extends.verifyFunction_eq {late early : Module} (extension : late.Extends early)
    {function : Function}
    (known : ∀ operand, function.body.Mentions operand → early.Knows operand) :
    late.verifyFunction function = early.verifyFunction function := by
  have checks : late.checkFunction function = early.checkFunction function := by
    unfold Module.checkFunction
    congr 1
    funext _
    congr 1
    funext definitions
    apply forM_congr
    intro block member
    rcases Body.mem_laidOut.mp member with ⟨id, _, found⟩
    let scene : Scene := ⟨early, function, definitions, (FlowGraph.ofFunction function).dominators⟩
    have same : (scene.within late).checkBlock block = scene.checkBlock block :=
      Scene.checkBlock_within extension fun operand isOperand =>
        known operand ⟨id, block, found, isOperand⟩
    exact same
  unfold Module.verifyFunction
  rw [checks]

/-! ## Building inside a function

A step of building changes the body of the function at the cursor and nothing else. -/

/-- No laid-out block has been lost, and the operands that are new satisfy `adds`. -/
structure Body.Grows (adds : Operand → Prop) (body next : Body) : Prop where
  layout : body.layout ≠ [] → next.layout ≠ []
  mentions : ∀ operand, next.Mentions operand → body.Mentions operand ∨ adds operand

namespace Body.Grows

variable {adds : Operand → Prop} {body middle next : Body}

theorem refl (body : Body) : body.Grows adds body := ⟨fun begun => begun, fun _ => .inl⟩

theorem trans (first : body.Grows adds middle) (second : middle.Grows adds next) :
    body.Grows adds next where
  layout := fun begun => second.layout (first.layout begun)
  mentions := by
    intro operand mentioned
    rcases second.mentions operand mentioned with before | added
    · exact first.mentions operand before
    · exact .inr added

theorem createBlock (body : Body) (label : String) :
    body.Grows adds (body.createBlock label).2 where
  layout := fun begun => begun
  mentions := by
    rintro operand ⟨id, block, found, inside⟩
    simp only [Body.createBlock, Body.block?, Table.get?_insert] at found
    split at found
    · cases found
      simp [Block.operands, Block.empty, Terminator.operands] at inside
    · exact .inl ⟨id, block, found, inside⟩

theorem newTemp (body : Body) (ty : Ty) : body.Grows adds (body.newTemp ty).2 := 
  ⟨fun begun => begun, fun _ => .inl⟩

theorem layOut (body : Body) {layout : List BlockId} (stays : body.layout ≠ [] → layout ≠ []) :
    body.Grows adds { body with layout := layout } :=
  ⟨stays, fun _ => .inl⟩

theorem filterKeys (body : Body) (keep : BlockId → Bool) :
    body.Grows adds { body with blocks := body.blocks.filterKeys keep } where
  layout := fun begun => begun
  mentions := by
    rintro operand ⟨id, block, found, inside⟩
    simp only [Body.block?, Table.get?_filterKeys] at found
    split at found
    · exact .inl ⟨id, block, found, inside⟩
    · cases found

theorem modifyBlock (body : Body) (id : BlockId) {change : Block → Block}
    (changes : ∀ block, ∀ operand ∈ (change block).operands,
      operand ∈ block.operands ∨ adds operand) :
    body.Grows adds (body.modifyBlock id change) where
  layout := fun begun => begun
  mentions := by
    rintro operand ⟨other, block, found, inside⟩
    simp only [Body.modifyBlock, Body.block?, Table.get?_modify] at found
    split at found
    · rcases Option.map_eq_some_iff.mp found with ⟨before, foundBefore, rfl⟩
      rcases changes before operand inside with old | new
      · exact .inl ⟨other, before, foundBefore, old⟩
      · exact .inr new
    · exact .inl ⟨other, block, found, inside⟩

end Body.Grows

theorem Cursor.of_call {cursor next : Cursor} {callee : String} {returns : Ty}
    {args : List Operand} {value : Option Operand}
    (calls : cursor.call callee returns args = (.ok value, next)) :
    returns.isVoid = true ∧ value = none ∧ cursor.insert (.call none callee args) = .ok next ∨
      returns.isVoid = false ∧ ∃ result, value = some result ∧
        cursor.define returns (fun result => .call (some result) callee args) = (.ok result, next) := by
  unfold Cursor.call at calls
  split at calls
  · rename_i nothing
    split at calls
    · cases calls
    · rename_i inserts
      cases calls
      exact .inl ⟨nothing, rfl, inserts⟩
  · rename_i something
    dsimp only at calls
    cases result : cursor.define returns fun result => .call (some result) callee args with
    | mk outcome between =>
        rw [result] at calls
        cases outcome with
        | error error => cases calls
        | ok value =>
            cases calls
            exact .inr ⟨Bool.eq_false_iff.mpr something, value, rfl, rfl⟩

/-- Nothing has changed but the body of the function at the cursor, which has grown. -/
structure Cursor.Fills (adds : Operand → Prop) (cursor next : Cursor) : Prop where
  inside : next.position.function = cursor.position.function
  others : ∀ name, cursor.position.function ≠ some name →
    next.module.function? name = cursor.module.function? name
  functions : ∀ name, Option.Rel (fun function after : Function =>
    after.signature = function.signature ∧ function.body.Grows adds after.body)
    (cursor.module.function? name) (next.module.function? name)
  globals : next.module.globals = cursor.module.globals
  data : next.module.data = cursor.module.data
  nextGlobal : next.module.nextGlobal = cursor.module.nextGlobal

namespace Cursor.Fills

variable {adds : Operand → Prop} {cursor middle next : Cursor}

theorem refl (cursor : Cursor) : cursor.Fills adds cursor where
  inside := rfl
  others := fun _ _ => rfl
  functions := by
    intro name
    cases cursor.module.function? name with
    | none => exact .none
    | some function => exact .some ⟨rfl, .refl _⟩
  globals := rfl
  data := rfl
  nextGlobal := rfl

theorem trans (first : cursor.Fills adds middle) (second : middle.Fills adds next) :
    cursor.Fills adds next where
  inside := second.inside.trans first.inside
  others := fun name elsewhere =>
    (second.others name (first.inside ▸ elsewhere)).trans (first.others name elsewhere)
  functions := by
    intro name
    have begins := first.functions name
    have ends := second.functions name
    revert begins ends
    generalize cursor.module.function? name = before
    generalize middle.module.function? name = between
    generalize next.module.function? name = after
    intro begins ends
    cases begins with
    | none => exact ends
    | some grows =>
        cases ends with
        | some growsOn => exact .some ⟨growsOn.1.trans grows.1, grows.2.trans growsOn.2⟩
  globals := second.globals.trans first.globals
  data := second.data.trans first.data
  nextGlobal := second.nextGlobal.trans first.nextGlobal

theorem move {position : Position} (same : position.function = cursor.position.function) :
    cursor.Fills adds (cursor.setPosition position) :=
  { refl cursor with inside := same }

theorem setBody {name : String} {function : Function} {body : Body}
    (inside : cursor.position.function = some name)
    (found : cursor.module.function? name = some function)
    (grows : function.body.Grows adds body) : cursor.Fills adds (cursor.setBody name body) where
  inside := rfl
  others := by
    intro other elsewhere
    have different : name ≠ other := by
      rintro rfl
      exact elsewhere inside
    simp [Cursor.setBody, Module.modifyFunction, Module.function?, Table.get?_modify, different]
  functions := by
    intro other
    simp only [Cursor.setBody, Module.modifyFunction, Module.function?, Table.get?_modify]
    split
    · rename_i same
      subst same
      rw [show cursor.module.functions.get? name = some function from found]
      exact .some ⟨rfl, grows⟩
    · exact (refl cursor).functions other
  globals := rfl
  data := rfl
  nextGlobal := rfl

theorem function_of_current {name : String} {body : Body} (named : cursor.currentName = .ok name)
    (found : cursor.currentBody = .ok body) : cursor.position.function = some name ∧
      ∃ function, cursor.module.function? name = some function ∧ function.body = body := by
  rcases bind_eq_ok.mp found with ⟨function, isFunction, same⟩
  rcases bind_eq_ok.mp isFunction with ⟨other, otherNamed, lookedUp⟩
  rw [named] at otherNamed
  cases otherNamed
  cases same
  have inside : cursor.position.function = some name := by
    unfold Cursor.currentName at named
    split at named
    · cases named
      assumption
    · cases named
  split at lookedUp
  · rename_i known
    cases lookedUp
    exact ⟨inside, function, known, rfl⟩
  · cases lookedUp

theorem current {name : String} {body larger : Body} (named : cursor.currentName = .ok name)
    (found : cursor.currentBody = .ok body) (grows : body.Grows adds larger) :
    cursor.Fills adds (cursor.setBody name larger) := by
  rcases function_of_current named found with ⟨inside, function, known, rfl⟩
  exact setBody inside known grows

theorem createBlock {label : String} {id : BlockId}
    (creates : cursor.createBlock label = .ok (id, next)) : cursor.Fills adds next := by
  rcases bind_eq_ok.mp creates with ⟨name, named, rest⟩
  rcases bind_eq_ok.mp rest with ⟨body, found, same⟩
  cases same
  exact current named found (.createBlock body label)

theorem appendBlock {block : BlockId} (appends : cursor.appendBlock block = .ok next) :
    cursor.Fills adds next := by
  rcases bind_eq_ok.mp appends with ⟨name, named, rest⟩
  rcases bind_eq_ok.mp rest with ⟨body, found, others⟩
  rcases bind_unit_eq_ok.mp others with ⟨_, same⟩
  cases same
  exact current named found (.layOut body (by simp))

theorem begun_of_appendBlock {name : String} {block : BlockId}
    (inside : cursor.position.function = some name)
    (appends : cursor.appendBlock block = .ok next) :
    ∃ function, next.module.function? name = some function ∧ function.body.layout ≠ [] := by
  rcases bind_eq_ok.mp appends with ⟨other, named, rest⟩
  rcases bind_eq_ok.mp rest with ⟨body, found, others⟩
  rcases bind_unit_eq_ok.mp others with ⟨_, same⟩
  cases same
  rcases function_of_current named found with ⟨isInside, function, known, _⟩
  rw [inside] at isInside
  cases isInside
  refine ⟨{ function with body := { body with layout := body.layout ++ [block] } }, ?_, by simp⟩
  simp only [Cursor.setBody, Module.modifyFunction, Module.function?, Table.get?_modify, if_true]
  rw [show cursor.module.functions.get? name = some function from known, Option.map_some]

theorem insertBlockAfter {block after : BlockId}
    (inserts : cursor.insertBlockAfter block after = .ok next) : cursor.Fills adds next := by
  rcases bind_eq_ok.mp inserts with ⟨name, named, rest⟩
  rcases bind_eq_ok.mp rest with ⟨body, found, others⟩
  rcases bind_unit_eq_ok.mp others with ⟨_, same⟩
  split at same
  · rename_i index _
    cases same
    refine current named found (.layOut body fun begun empty => begun ?_)
    have longer : body.layout.length ≤ (body.layout.insertIdx (index + 1) block).length :=
      List.length_le_length_insertIdx
    rw [empty] at longer
    exact List.eq_nil_of_length_eq_zero (Nat.le_zero.mp longer)
  · cases same

theorem discardBlock {block : BlockId} (discards : cursor.discardBlock block = .ok next) :
    cursor.Fills adds next := by
  rcases bind_eq_ok.mp discards with ⟨name, named, rest⟩
  rcases bind_eq_ok.mp rest with ⟨body, found, same⟩
  split at same
  · cases same
  split at same
  · cases same
  · cases same
    have drops : cursor.Fills adds
        (cursor.setBody name { body with blocks := body.blocks.erase block }) :=
      current named found (.filterKeys body _)
    split
    · exact drops.trans (move rfl)
    · exact drops

theorem ready (parks : cursor.ready = .ok next) : cursor.Fills adds next := by
  unfold Cursor.ready at parks
  split at parks
  · cases parks
    exact refl cursor
  · rcases bind_eq_ok.mp parks with ⟨⟨id, between⟩, creates, same⟩
    cases same
    exact (createBlock creates).trans (move rfl)

theorem changeBlock {change : Block → Block} (changed : cursor.changeBlock change = .ok next)
    (changes : ∀ block, ∀ operand ∈ (change block).operands,
      operand ∈ block.operands ∨ adds operand) : cursor.Fills adds next := by
  rcases bind_eq_ok.mp changed with ⟨name, named, rest⟩
  rcases bind_eq_ok.mp rest with ⟨body, found, same⟩
  split at same
  · cases same
  split at same
  · cases same
  split at same
  · cases same
  · cases same
    exact current named found (.modifyBlock body _ changes)

theorem insert {instruction : Instruction} (inserts : cursor.insert instruction = .ok next)
    (added : ∀ operand ∈ instruction.operands, adds operand) : cursor.Fills adds next := by
  refine changeBlock inserts fun block operand member => ?_
  simp only [Block.operands, Block.addInstruction, List.flatMap_append, List.mem_append,
    List.flatMap_singleton] at member ⊢
  rcases member with (old | new) | old
  · exact .inl (.inl old)
  · exact .inr (added operand new)
  · exact .inl (.inr old)

theorem terminate {terminator : Terminator} (ends : cursor.terminate terminator = .ok next)
    (added : ∀ operand ∈ terminator.operands, adds operand) : cursor.Fills adds next := by
  refine changeBlock ends fun block operand member => ?_
  simp only [Block.operands, Block.setTerminator, List.mem_append] at member ⊢
  rcases member with old | new
  · exact .inl (.inl old)
  · exact .inr (added operand new)

theorem define {ty : Ty} {instruction : Operand → Instruction} {value : Operand}
    (defines : cursor.define ty instruction = (.ok value, next))
    (added : ∀ id, ∀ operand ∈ (instruction (.temp id)).operands, adds operand) :
    cursor.Fills adds next ∧ ∃ id, value = .temp id := by
  unfold Cursor.define at defines
  split at defines
  · cases defines
  · rename_i id taken takes
    split at defines
    · cases defines
    · rename_i inserts
      cases defines
      rcases bind_eq_ok.mp takes with ⟨name, named, rest⟩
      rcases bind_eq_ok.mp rest with ⟨body, found, same⟩
      cases same
      exact ⟨(current named found (.newTemp body ty)).trans (insert inserts (added _)), _, rfl⟩

theorem call {callee : String} {returns : Ty} {args : List Operand} {value : Option Operand}
    (calls : cursor.call callee returns args = (.ok value, next))
    (added : ∀ operand ∈ args, adds operand) :
    cursor.Fills adds next ∧ ∀ result ∈ value, ∃ id, result = .temp id := by
  rcases Cursor.of_call calls with ⟨_, rfl, inserts⟩ | ⟨_, result, rfl, defines⟩
  · exact ⟨insert inserts added, by simp⟩
  · rcases define defines fun _ => added with ⟨fills, isTemp⟩
    refine ⟨fills, ?_⟩
    rintro _ ⟨⟩
    exact isTemp

theorem finalize {name : String} {pruned : Nat}
    (inside : cursor.position.function = some name)
    (prunes : cursor.finalize name = .ok (pruned, next)) : cursor.Fills adds next := by
  unfold Cursor.finalize at prunes
  split at prunes
  · cases prunes
  · rename_i function found
    cases prunes
    have drops : cursor.Fills adds (cursor.setBody name function.body.prune) :=
      setBody inside found (.filterKeys function.body _)
    split
    · exact drops.trans (move rfl)
    · exact drops

theorem signatures (fills : cursor.Fills adds next) (name : String) :
    (next.module.function? name).map Function.signature =
      (cursor.module.function? name).map Function.signature := by
  have grows := fills.functions name
  revert grows
  generalize cursor.module.function? name = before
  generalize next.module.function? name = after
  rintro (grows | _)
  · simp [grows.1]
  · rfl

end Cursor.Fills

end ScriptLowering.Code
