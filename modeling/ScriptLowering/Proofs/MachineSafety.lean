import ScriptLowering.Proofs.Dominance
import ScriptLowering.Proofs.Machine

/-! # Verified code does not get stuck

A state is sound if every temp whose definition reaches the running instruction holds a value
of its recorded type, every slot among them is a slot of the running frame, and every waiting
frame waits for what the frame above it returns. Soundness rules out every breach, and every
step keeps it. That a jump keeps it rests on the dominators: what dominates the target
dominates the source or is the target itself.
-/

namespace ScriptLowering.Code

/-! ## Modules as the builder makes them -/

/-- The type of the value that an instruction yields. -/
def Instruction.resultType? (module : Module) : Instruction → Option Ty
  | .alloca _ _ _ => some .ptr
  | .load _ ty _ | .arith _ _ _ _ ty | .negate _ _ ty => some ty
  | .compare _ _ _ _ => some .bool
  | .call _ callee _ => (module.function? callee).map fun target => target.signature.returns
  | .store _ _ => none

/-- The arena and the layout fit together, and every result is a temp that is recorded with
the type of the value it receives. -/
structure Function.Represented (module : Module) (function : Function) : Prop where
  indexed : function.body.Indexed
  results : ∀ id block, function.body.block? id = some block →
    ∀ instruction ∈ block.instructions, ∀ result, instruction.result? = some result →
      ∃ temp, result = .temp temp ∧
        ∀ ty, instruction.resultType? module = some ty →
          function.body.tempType? temp = some ty

def Module.Represented (module : Module) : Prop :=
  ∀ name function, module.function? name = some function → function.Represented module

/-! ## Accepted functions -/

/-- What the verifier has found out about a function that it accepts. -/
structure Accepted (module : Module) (function : Function) (definitions : Definitions) :
    Prop where
  represented : function.Represented module
  nonempty : function.body.layout ≠ []
  closed : ∀ block ∈ function.body.laidOut, block.isTerminated = true ∧
    ∀ target ∈ block.successors, target ∈ function.body.layout
  collected : Definitions.collect function.body = .ok definitions
  checked : ∀ block ∈ function.body.laidOut,
    Scene.checkBlock ⟨module, function, definitions,
      (FlowGraph.ofFunction function).dominators⟩ block = .ok ()

theorem accepted_of_verify {module : Module} (represented : module.Represented)
    (verified : module.verify = .ok ()) {name : String} {function : Function}
    (found : module.function? name = some function) (defined : function.body.layout ≠ []) :
    ∃ definitions, Accepted module function definitions := by
  have passes := (Module.verify_eq_ok.mp verified).2 name function found defined
  rcases Module.checkFunction_eq_ok.mp passes with ⟨shape, definitions, collected, checked⟩
  rcases checkShape_eq_ok.mp shape with ⟨nonempty, _, closed, _⟩
  exact ⟨definitions, ⟨represented name function found, nonempty, closed, collected, checked⟩⟩

namespace Accepted

variable {module : Module} {function : Function} {definitions : Definitions}

/-- The scene in which the blocks of the function were checked. -/
abbrev scene (_ : Accepted module function definitions) : Scene :=
  ⟨module, function, definitions, (FlowGraph.ofFunction function).dominators⟩

theorem gathers (accepted : Accepted module function definitions) :
    Definitions.empty.Gathers function.body.code definitions :=
  Definitions.gathers_collect accepted.collected

theorem mem_layout (accepted : Accepted module function definitions) {id : BlockId}
    (reached : id ∈ (FlowGraph.ofFunction function).reachable) : id ∈ function.body.layout :=
  FlowGraph.mem_layout_of_reachable accepted.represented.indexed.keyed
    (fun block laidOut => (accepted.closed block laidOut).2) reached

theorem find (accepted : Accepted module function definitions) {id : BlockId}
    (reached : id ∈ (FlowGraph.ofFunction function).reachable) :
    ∃ block, function.body.block? id = some block ∧ block ∈ function.body.laidOut ∧
      block.id = id := by
  have member := accepted.mem_layout reached
  rcases accepted.represented.indexed.known id member with ⟨block, found⟩
  exact ⟨block, found, Body.mem_laidOut.mpr ⟨id, member, found⟩,
    accepted.represented.indexed.named id block found⟩

theorem sites_iff (accepted : Accepted module function definitions) {temp : TempId}
    {id : BlockId} {index : Nat} {block : Block} (laidOut : block ∈ function.body.laidOut)
    (named : block.id = id) :
    definitions.sites.get? temp = some (id, index) ↔
      ∃ instruction, block.instructions[index]? = some instruction ∧
        instruction.defined? = some temp := by
  rw [accepted.gathers.sites]
  have none : Definitions.empty.sites.get? temp = none := rfl
  rw [none]
  constructor
  · intro either
    rcases either with absurd | ⟨instruction, member, defines⟩
    · cases absurd
    · rcases Body.mem_code.mp member with ⟨other, otherLaidOut, sameId, found⟩
      have indexed := accepted.represented.indexed
      have foundBlock := (indexed.mem_laidOut_iff.mp laidOut).2
      have foundOther := (indexed.mem_laidOut_iff.mp otherLaidOut).2
      have sameBlock : other = block := by
        rw [← sameId, ← named, foundBlock] at foundOther
        cases foundOther
        rfl
      subst sameBlock
      exact ⟨instruction, found, defines⟩
  · intro exists_
    rcases exists_ with ⟨instruction, found, defines⟩
    exact .inr ⟨instruction, Body.mem_code.mpr ⟨block, laidOut, named.symm, found⟩, defines⟩

/-- A temp that stands for a slot is defined by nothing but the instruction that reserves
the slot. -/
theorem slot_of_defined (accepted : Accepted module function definitions) {temp : TempId}
    {ty : Ty} {block : Block} {index : Nat} {instruction : Instruction}
    (slot : definitions.slots.get? temp = some ty) (laidOut : block ∈ function.body.laidOut)
    (found : block.instructions[index]? = some instruction)
    (defines : instruction.defined? = some temp) :
    ∃ align, instruction = .alloca (.temp temp) ty align := by
  have none : Definitions.empty.slots.get? temp = none := rfl
  rcases (accepted.gathers.slots temp ty).mp slot with absurd | ⟨id, place, align, member⟩
  · rw [none] at absurd
    cases absurd
  · rcases Body.mem_code.mp member with ⟨other, otherLaidOut, sameId, foundAlloca⟩
    have allocaDefines : (Instruction.alloca (.temp temp) ty align).defined? = some temp := rfl
    have here : (⟨block.id, index, instruction⟩ : Site) ∈ function.body.code :=
      Body.mem_code.mpr ⟨block, laidOut, rfl, found⟩
    have same := Definitions.site_unique accepted.collected member here allocaDefines defines
    have indexed := accepted.represented.indexed
    have foundBlock := (indexed.mem_laidOut_iff.mp laidOut).2
    have foundOther := (indexed.mem_laidOut_iff.mp otherLaidOut).2
    simp only at same sameId foundAlloca
    rw [← sameId, same.1, foundBlock] at foundOther
    cases foundOther
    rw [same.2, found] at foundAlloca
    cases foundAlloca
    exact ⟨align, rfl⟩

/-! ## Definitions that reach -/

/-- After the last instruction of a block, what reaches its end reaches the start of each of
its targets unless it stands there. -/
theorem reaches_of_edge (accepted : Accepted module function definitions) {block : Block}
    {target : BlockId} (laidOut : block ∈ function.body.laidOut)
    (reached : block.id ∈ (FlowGraph.ofFunction function).reachable)
    (edge : target ∈ block.successors) {temp : TempId} {site : BlockId × Nat}
    (found : definitions.sites.get? temp = some site)
    (reaches : accepted.scene.reaches site target (some 0) = true) :
    accepted.scene.reaches site block.id (some block.instructions.length) = true := by
  have indexed := accepted.represented.indexed
  have graphEdge : (FlowGraph.ofFunction function).Edge block.id target :=
    (FlowGraph.edge_ofFunction_iff indexed.keyed).mpr ⟨block, laidOut, rfl, edge⟩
  cases starts : (FlowGraph.ofFunction function).entry with
  | none =>
      have empty : function.body.layout = [] := by
        rw [FlowGraph.entry_ofFunction] at starts
        exact List.head?_eq_none_iff.mp starts
      exact absurd empty accepted.nonempty
  | some entry =>
      unfold Scene.reaches at reaches ⊢
      by_cases atTarget : site.1 = target
      · simp [atTarget] at reaches
      · rw [if_neg atTarget] at reaches
        by_cases here : site.1 = block.id
        · rw [if_pos here]
          have place : definitions.sites.get? temp = some (block.id, site.2) := by
            rw [found, ← here]
          rcases (accepted.sites_iff laidOut rfl).mp place with ⟨instruction, standing, _⟩
          have bound := (List.getElem?_eq_some_iff.mp standing).1
          simpa using bound
        · rw [if_neg here]
          have either := FlowGraph.dominates_of_edge starts
            (fun other otherReached => accepted.mem_layout otherReached)
            ((FlowGraph.edge_iff_mem_predecessors indexed.keyed).mp graphEdge) reached
            (FlowGraph.mem_reachable_of_edge reached graphEdge) reaches
          exact either.resolve_left atTarget

end Accepted

/-! ## Sound frames -/

/-- A frame whose temps are what the verifier takes them for. -/
structure Frame.Sound (module : Module) (frame : Frame) (function : Function)
    (definitions : Definitions) : Prop where
  found : module.function? frame.function = some function
  accepted : Accepted module function definitions
  args : State.argumentsFit frame.args function.signature.params = true
  reached : frame.block ∈ (FlowGraph.ofFunction function).reachable
  defined : ∀ temp site, definitions.sites.get? temp = some site →
    accepted.scene.reaches site frame.block (some frame.index) = true →
      ∃ value, frame.temps temp = some value
  typed : ∀ temp value, frame.temps temp = some value →
    ∃ ty, function.body.tempType? temp = some ty ∧ value.hasType ty = true
  slots : ∀ temp value ty, frame.temps temp = some value →
    definitions.slots.get? temp = some ty →
      ∃ index content, value = .address (.slot frame.serial index) ∧
        frame.slots[index]? = some ⟨ty, content⟩
  contents : ∀ slot ∈ frame.slots, slot.value.hasType slot.ty = true

theorem State.argumentsFit_iff {args : List Value} {params : List Parameter} :
    State.argumentsFit args params = true ↔
      args.length = params.length ∧
        ∀ (index : Nat) (value : Value) (param : Parameter), args[index]? = some value →
          params[index]? = some param → value.hasType param.ty = true := by
  simp only [State.argumentsFit, List.all_eq_true, decide_eq_true_eq]
  refine and_congr_right fun sameLength => ?_
  constructor
  · intro all index value param foundValue foundParam
    have member : (value, param) ∈ args.zip params := by
      rw [List.mem_iff_getElem?]
      exact ⟨index, by simp [List.getElem?_zip_eq_some, foundValue, foundParam]⟩
    exact all (value, param) member
  · intro every pair member
    rcases List.mem_iff_getElem?.mp member with ⟨index, found⟩
    rcases List.getElem?_zip_eq_some.mp found with ⟨foundValue, foundParam⟩
    exact every index pair.1 pair.2 foundValue foundParam

namespace Frame.Sound

variable {module : Module} {frame : Frame} {function : Function}
  {definitions : Definitions}

theorem operand (sound : frame.Sound module function definitions) {operand : Operand}
    (use : sound.accepted.scene.checkUse frame.block (some frame.index) operand = .ok ()) :
    ∃ value, frame.operand module operand = .ok value ∧
      ∀ ty, sound.accepted.scene.fits operand ty = true → value.hasType ty = true := by
  cases operand with
  | temp temp =>
      simp only [Scene.checkUse] at use
      cases site : definitions.sites.get? temp with
      | none => simp [site] at use
      | some place =>
          simp only [site, require_eq_ok] at use
          rcases sound.defined temp place site use with ⟨value, holds⟩
          refine ⟨value, by simp [Frame.operand, holds], ?_⟩
          intro ty fits
          rcases sound.typed temp value holds with ⟨recorded, isRecorded, typed⟩
          have same : function.body.tempType? temp = some ty := Scene.typeOf?_of_fits rfl fits
          rw [isRecorded] at same
          cases same
          exact typed
  | param param =>
      rcases State.argumentsFit_iff.mp sound.args with ⟨sameLength, typed⟩
      have declared : param.number.toNat < function.signature.params.length :=
        of_decide_eq_true (require_eq_ok.mp use)
      have bound : param.number.toNat < frame.args.length := by omega
      have given := List.getElem?_eq_getElem bound
      refine ⟨frame.args[param.number.toNat], by simp [Frame.operand, given], ?_⟩
      intro ty fits
      have same : function.signature.params[param.number.toNat]?.map Parameter.ty =
          some ty := Scene.typeOf?_of_fits rfl fits
      rcases Option.map_eq_some_iff.mp same with ⟨parameter, declared, rfl⟩
      exact typed _ _ parameter given declared
  | global global =>
      simp only [Scene.checkUse, require_eq_ok] at use
      refine ⟨.address (.global global), by simp [Frame.operand, use], ?_⟩
      intro ty fits
      have same : some Ty.ptr = some ty := Scene.typeOf?_of_fits rfl fits
      cases same
      rfl
  | data data =>
      simp only [Scene.checkUse, require_eq_ok] at use
      refine ⟨.address (.data data), by simp [Frame.operand, use], ?_⟩
      intro ty fits
      have same : some Ty.ptr = some ty := Scene.typeOf?_of_fits rfl fits
      cases same
      rfl
  | constant value =>
      exact ⟨.ofConstant value, rfl, fun ty fits => Value.hasType_ofConstant fits⟩

/-- Going past an instruction whose result has the right type, with `slots` as the slots of
the frame afterwards. -/
theorem advanceWith (sound : frame.Sound module function definitions) {block : Block}
    {instruction : Instruction} (standing : function.body.block? frame.block = some block)
    (here : block.instructions[frame.index]? = some instruction) {value : Value}
    (typed : ∀ ty, instruction.resultType? module = some ty → value.hasType ty = true)
    (produces : ∀ result, instruction.result? = some result →
      ∃ ty, instruction.resultType? module = some ty) {slots : List Slot}
    (keptSlots : ∀ (index : Nat) (slot : Slot), frame.slots[index]? = some slot →
      slots[index]? = some slot)
    (newSlot : ∀ temp ty align, instruction = .alloca (.temp temp) ty align →
      ∃ index content, value = .address (.slot frame.serial index) ∧
        slots[index]? = some ⟨ty, content⟩)
    (contents : ∀ slot ∈ slots, slot.value.hasType slot.ty = true) :
    Sound module { frame.advance instruction.result? value with slots := slots } function
      definitions := by
  have laidOut : block ∈ function.body.laidOut :=
    Body.mem_laidOut.mpr ⟨frame.block, sound.accepted.mem_layout sound.reached, standing⟩
  have named := sound.accepted.represented.indexed.named frame.block block standing
  have results := sound.accepted.represented.results frame.block block standing instruction
    (List.mem_of_getElem? here)
  -- What the frame holds afterwards: the old value, or the new one in the defined temp.
  have temps : ∀ temp holds, (frame.advance instruction.result? value).temps temp =
      some holds → frame.temps temp = some holds ∨
        instruction.defined? = some temp ∧ holds = value := by
    intro temp holds found
    cases result : instruction.result? with
    | none => exact .inl (by simpa [Frame.advance, result] using found)
    | some operand =>
        rcases results operand result with ⟨own, rfl, _⟩
        by_cases equal : own = temp
        · subst equal
          simp only [Frame.advance, result, if_true, Option.some.injEq] at found
          exact .inr ⟨by simp [Instruction.defined?, result, Operand.asTemp?], found.symm⟩
        · simp only [Frame.advance, result, if_neg equal] at found
          exact .inl found
  refine ⟨sound.found, sound.accepted, sound.args, sound.reached, ?_, ?_, ?_, contents⟩
  · intro temp site known reaches
    have kept : ∀ value', frame.temps temp = some value' →
        ∃ value', (frame.advance instruction.result? value).temps temp = some value' := by
      intro value' holds
      cases result : instruction.result? with
      | none => exact ⟨value', by simp [Frame.advance, holds]⟩
      | some operand =>
          rcases results operand result with ⟨own, rfl, _⟩
          by_cases equal : own = temp
          · exact ⟨value, by simp [Frame.advance, equal]⟩
          · exact ⟨value', by simp [Frame.advance, equal, holds]⟩
    change Scene.reaches _ site frame.block (some (frame.index + 1)) = true at reaches
    by_cases inBlock : site.1 = frame.block
    · simp only [Scene.reaches, inBlock, if_true, decide_eq_true_eq] at reaches
      by_cases justNow : site.2 = frame.index
      · have place : definitions.sites.get? temp = some (frame.block, frame.index) := by
          rw [known, ← inBlock, ← justNow]
        rcases (sound.accepted.sites_iff laidOut named).mp place with ⟨other, found, defines⟩
        rw [here] at found
        cases found
        cases result : instruction.result? with
        | none => simp [Instruction.defined?, result] at defines
        | some operand =>
            simp only [Instruction.defined?, result, Option.bind_some] at defines
            cases operand <;> simp [Operand.asTemp?] at defines
            subst defines
            exact ⟨value, by simp [Frame.advance]⟩
      · rcases sound.defined temp site known (by
          simp only [Scene.reaches, inBlock, if_true, decide_eq_true_eq]
          omega) with ⟨value', holds⟩
        exact kept value' holds
    · rcases sound.defined temp site known (by
        simpa only [Scene.reaches, if_neg inBlock] using reaches) with ⟨value', holds⟩
      exact kept value' holds
  · intro temp holds found
    rcases temps temp holds found with before | ⟨defines, rfl⟩
    · exact sound.typed temp holds before
    · cases result : instruction.result? with
      | none => simp [Instruction.defined?, result] at defines
      | some operand =>
          rcases results operand result with ⟨own, rfl, recorded⟩
          simp only [Instruction.defined?, result, Option.bind_some, Operand.asTemp?,
            Option.some.injEq] at defines
          subst defines
          rcases produces _ result with ⟨ty, produced⟩
          exact ⟨ty, recorded ty produced, typed ty produced⟩
  · intro temp holds ty found slot
    rcases temps temp holds found with before | ⟨defines, rfl⟩
    · rcases sound.slots temp holds ty before slot with ⟨index, content, same, stored⟩
      exact ⟨index, content, same, keptSlots index _ stored⟩
    · rcases sound.accepted.slot_of_defined slot laidOut here defines with ⟨align, same⟩
      exact newSlot temp ty align same

theorem advance (sound : frame.Sound module function definitions) {block : Block}
    {instruction : Instruction} (standing : function.body.block? frame.block = some block)
    (here : block.instructions[frame.index]? = some instruction)
    (notSlot : ∀ result ty align, instruction ≠ .alloca result ty align) {value : Value}
    (typed : ∀ ty, instruction.resultType? module = some ty → value.hasType ty = true)
    (produces : ∀ result, instruction.result? = some result →
      ∃ ty, instruction.resultType? module = some ty) :
    (frame.advance instruction.result? value).Sound module function definitions :=
  sound.advanceWith standing here typed produces (fun _ _ stored => stored)
    (fun _ _ _ same => absurd same (notSlot _ _ _)) sound.contents

theorem advanceTyped (sound : frame.Sound module function definitions) {block : Block}
    {instruction : Instruction} (standing : function.body.block? frame.block = some block)
    (here : block.instructions[frame.index]? = some instruction)
    (notSlot : ∀ result ty align, instruction ≠ .alloca result ty align) {ty : Ty} {value : Value}
    (announced : instruction.resultType? module = some ty) (typed : value.hasType ty = true) :
    (frame.advance instruction.result? value).Sound module function definitions := by
  refine sound.advance standing here notSlot (fun other same => ?_) fun _ _ => ⟨ty, announced⟩
  rw [announced] at same
  cases same
  exact typed

theorem reserve (sound : frame.Sound module function definitions) {block : Block}
    {result : Operand} {ty : Ty} {align : UInt32}
    (standing : function.body.block? frame.block = some block)
    (here : block.instructions[frame.index]? = some (.alloca result ty align))
    {content : Value} (typed : content.hasType ty = true) :
    (frame.reserve result ty content).Sound module function definitions := by
  refine sound.advanceWith standing here ?_ ?_ ?_ ?_ ?_
  · intro produced same
    cases same
    rfl
  · intro _ _
    exact ⟨.ptr, rfl⟩
  · intro index slot stored
    rw [List.getElem?_append_left (List.getElem?_eq_some_iff.mp stored).1]
    exact stored
  · intro temp reserved otherAlign same
    cases same
    exact ⟨frame.slots.length, content, rfl, by simp⟩
  · intro slot member
    rcases List.mem_append.mp member with old | new
    · exact sound.contents slot old
    · simp only [List.mem_singleton] at new
      subst new
      exact typed

theorem jump (sound : frame.Sound module function definitions) {block : Block}
    (standing : function.body.block? frame.block = some block)
    (atEnd : block.instructions[frame.index]? = none) {target : BlockId}
    (edge : target ∈ block.successors) :
    (frame.jump target).Sound module function definitions := by
  have laidOut : block ∈ function.body.laidOut :=
    Body.mem_laidOut.mpr ⟨frame.block, sound.accepted.mem_layout sound.reached, standing⟩
  have named := sound.accepted.represented.indexed.named frame.block block standing
  have reached := sound.reached
  rw [← named] at reached
  have graphEdge : (FlowGraph.ofFunction function).Edge block.id target :=
    (FlowGraph.edge_ofFunction_iff sound.accepted.represented.indexed.keyed).mpr
      ⟨block, laidOut, rfl, edge⟩
  refine ⟨sound.found, sound.accepted, sound.args,
    FlowGraph.mem_reachable_of_edge reached graphEdge, ?_, sound.typed, sound.slots,
    sound.contents⟩
  intro temp site known reaches
  apply sound.defined temp site known
  have before := sound.accepted.reaches_of_edge laidOut reached edge known reaches
  have beyond := List.getElem?_eq_none_iff.mp atEnd
  rw [named] at before
  simp only [Scene.reaches] at before ⊢
  by_cases inBlock : site.1 = frame.block
  · simp only [if_pos inBlock, decide_eq_true_eq] at before ⊢
    omega
  · simpa only [if_neg inBlock] using before

theorem checkUse_atEnd (sound : frame.Sound module function definitions) {block : Block}
    (standing : function.body.block? frame.block = some block)
    (atEnd : block.instructions[frame.index]? = none) {operand : Operand}
    (use : sound.accepted.scene.checkUse frame.block none operand = .ok ()) :
    sound.accepted.scene.checkUse frame.block (some frame.index) operand = .ok () := by
  cases operand with
  | temp temp =>
      simp only [Scene.checkUse] at use ⊢
      cases known : definitions.sites.get? temp with
      | none => simp [known] at use
      | some site =>
          simp only [known, require_eq_ok, Scene.reaches] at use ⊢
          by_cases inBlock : site.1 = frame.block
          · rw [if_pos inBlock]
            have laidOut : block ∈ function.body.laidOut :=
              Body.mem_laidOut.mpr
                ⟨frame.block, sound.accepted.mem_layout sound.reached, standing⟩
            have named := sound.accepted.represented.indexed.named frame.block block standing
            have place : definitions.sites.get? temp = some (frame.block, site.2) := by
              rw [known, ← inBlock]
            rcases (sound.accepted.sites_iff laidOut named).mp place with ⟨_, stands, _⟩
            have bound := (List.getElem?_eq_some_iff.mp stands).1
            have beyond := List.getElem?_eq_none_iff.mp atEnd
            simp only [decide_eq_true_eq]
            omega
          · simpa only [if_neg inBlock] using use
  | _ => exact use

theorem setSlot (sound : frame.Sound module function definitions) {index : Nat} {ty : Ty}
    {old content : Value} (stored : frame.slots[index]? = some ⟨ty, old⟩)
    (typed : content.hasType ty = true) :
    (frame.setSlot index content).Sound module function definitions := by
  refine ⟨sound.found, sound.accepted, sound.args, sound.reached, sound.defined, sound.typed,
    ?_, ?_⟩
  · intro temp value slotTy holds slot
    rcases sound.slots temp value slotTy holds slot with ⟨place, before, same, found⟩
    by_cases here : index = place
    · subst here
      exact ⟨index, content, same, by simp [Frame.setSlot, found]⟩
    · exact ⟨place, before, same, by simp [Frame.setSlot, here, found]⟩
  · intro slot member
    rcases List.mem_iff_getElem?.mp member with ⟨place, found⟩
    simp only [Frame.setSlot, List.getElem?_modify] at found
    by_cases here : index = place
    · subst here
      simp only [if_true, stored, Option.map_eq_map, Option.map_some, Option.some.injEq]
        at found
      subst found
      exact typed
    · simp only [if_neg here, Option.map_eq_map, Option.map_id_fun', id_eq] at found
      exact sound.contents slot (List.mem_of_getElem? found)

end Frame.Sound

/-! ## Sound states -/

/-- The frames wait for a value of type `ty`, each of them at a call. -/
inductive Waits (module : Module) : List Frame → Ty → Prop
  | nil (ty : Ty) : Waits module [] ty
  | cons {caller : Frame} {callers : List Frame} {function target : Function}
      {definitions : Definitions} {block : Block} {result : Option Operand} {callee : String}
      {args : List Operand} (sound : caller.Sound module function definitions)
      (standing : function.body.block? caller.block = some block)
      (here : block.instructions[caller.index]? = some (.call result callee args))
      (found : module.function? callee = some target)
      (rest : Waits module callers function.signature.returns) :
      Waits module (caller :: callers) target.signature.returns

structure State.Sound (module : Module) (state : State) : Prop where
  running : ∃ frame callers function definitions, state.frames = frame :: callers ∧
    frame.Sound module function definitions ∧
    Waits module callers function.signature.returns
  globals : ∀ id global, module.global? id = some global →
    ∃ value, state.globals id = some value ∧ value.hasType global.ty = true

/-- Whatever the surroundings contribute to an event, as long as it has the right type, the
next state is `kept`. -/
def Event.Keeps (module : Module) (kept : State → Prop) : Event → Prop
  | .goes next => kept next
  | .calls callee _ resume => ∀ value, (∀ target, module.function? callee = some target →
      value.hasType target.signature.returns = true) → kept (resume value)
  | .reserves ty resume => ∀ value, value.hasType ty = true → kept (resume value)
  | .returns _ _ | .traps => True

theorem Value.eq_bool_of_hasType {value : Value} (typed : value.hasType .bool = true) :
    ∃ truth, value = .bool truth := by
  cases value with
  | bool truth => exact ⟨truth, rfl⟩
  | _ => simp [Value.hasType, Ty.isPointerLike] at typed

theorem Value.eq_int_of_hasType {value : Value} {bits : UInt16}
    (typed : value.hasType (.int bits) = true) : ∃ number, value = .int bits number := by
  cases value with
  | int width number =>
      have same : width = bits := by simpa [Value.hasType] using typed
      subst same
      exact ⟨number, rfl⟩
  | _ => simp [Value.hasType, Ty.isPointerLike] at typed

section Steps

variable {module : Module} {state : State} {frame : Frame} {callers : List Frame}
  {function : Function} {definitions : Definitions} {block : Block}

theorem State.Sound.resume (sound : state.Sound module)
    (frameSound : frame.Sound module function definitions)
    (waits : Waits module callers function.signature.returns) :
    (state.resume frame callers).Sound module :=
  ⟨⟨frame, callers, function, definitions, rfl, frameSound, waits⟩, sound.globals⟩

theorem read_sound (sound : state.Sound module) (frames : state.frames = frame :: callers)
    (frameSound : frame.Sound module function definitions) {address : Operand} {ty : Ty}
    {target : Value} (stored : frameSound.accepted.scene.stored? address = some ty)
    (evaluates : frame.operand module address = .ok target) :
    ∃ value, state.read module target = .ok (ty, value) ∧ value.hasType ty = true := by
  cases address with
  | temp temp =>
      have holds := Frame.operand_temp_eq_ok.mp evaluates
      rcases frameSound.slots temp target ty holds stored with ⟨index, content, rfl, found⟩
      refine ⟨content, ?_, frameSound.contents _ (List.mem_of_getElem? found)⟩
      simp [State.read, frames, found]
  | global id =>
      simp only [Scene.stored?, Option.map_eq_some_iff] at stored
      rcases stored with ⟨global, known, rfl⟩
      rcases sound.globals id global known with ⟨value, holds, typed⟩
      rcases Frame.operand_global_eq_ok.mp evaluates with ⟨_, rfl⟩
      exact ⟨value, by simp [State.read, known, holds], typed⟩
  | _ => simp [Scene.stored?] at stored

/-- Writing a fitting value through an address that the verifier knows the content of. -/
theorem write_sound (sound : state.Sound module)
    (before : frame.Sound module function definitions)
    {after : Frame} (frameSound : after.Sound module function definitions)
    (sameSerial : after.serial = frame.serial) (sameSlots : after.slots = frame.slots)
    (waits : Waits module callers function.signature.returns) {address : Operand} {ty : Ty}
    {target content : Value} (stored : before.accepted.scene.stored? address = some ty)
    (evaluates : frame.operand module address = .ok target)
    (typed : content.hasType ty = true) :
    ((state.resume after callers).write target content).Sound module := by
  cases address with
  | temp temp =>
      have holds := Frame.operand_temp_eq_ok.mp evaluates
      rcases before.slots temp target ty holds stored with ⟨index, old, rfl, found⟩
      rw [← sameSlots] at found
      refine ⟨⟨after.setSlot index content, callers, function, definitions, ?_,
        frameSound.setSlot found typed, waits⟩, sound.globals⟩
      simp [State.write, State.writeSlot, State.resume, sameSerial]
  | global id =>
      simp only [Scene.stored?, Option.map_eq_some_iff] at stored
      rcases stored with ⟨global, known, rfl⟩
      rcases Frame.operand_global_eq_ok.mp evaluates with ⟨_, rfl⟩
      refine ⟨⟨after, callers, function, definitions, rfl, frameSound, waits⟩, ?_⟩
      intro other otherGlobal otherKnown
      by_cases same : id = other
      · subst same
        rw [known] at otherKnown
        cases otherKnown
        exact ⟨content, by simp [State.write], typed⟩
      · rcases sound.globals other otherGlobal otherKnown with ⟨value, holds, fits⟩
        exact ⟨value, by simp [State.write, State.resume, same, holds], fits⟩
  | _ => simp [Scene.stored?] at stored

theorem arguments_sound (frameSound : frame.Sound module function definitions)
    (callee : String) (args : List Operand) (params : List Parameter)
    (sameLength : params.length = args.length)
    (uses : ∀ operand ∈ args, frameSound.accepted.scene.checkUse frame.block
      (some frame.index) operand = .ok ())
    (fits : frameSound.accepted.scene.checkArguments callee args params = .ok ()) :
    ∃ values, args.mapM (frame.operand module) = .ok values ∧
      State.argumentsFit values params = true := by
  induction args generalizing params with
  | nil =>
      have none : params = [] := List.length_eq_zero_iff.mp sameLength
      subst none
      exact ⟨[], rfl, rfl⟩
  | cons argument rest induction =>
      cases params with
      | nil => simp at sameLength
      | cons param params =>
          simp only [Scene.checkArguments, bind_unit_eq_ok, require_eq_ok] at fits
          rcases frameSound.operand (uses argument (by simp)) with ⟨value, evaluates, typed⟩
          rcases induction params (by simpa using sameLength)
            (fun operand member => uses operand (by simp [member])) fits.2 with
            ⟨values, others, othersFit⟩
          refine ⟨value :: values, ?_, ?_⟩
          · simp only [List.mapM_cons, evaluates, others]
            rfl
          · simp only [State.argumentsFit, decide_eq_true_eq] at othersFit ⊢
            simp [typed param.ty fits.1, othersFit.1, othersFit.2]

def AllAccepted (module : Module) : Prop :=
  ∀ name function, module.function? name = some function → function.body.layout ≠ [] →
    ∃ definitions, Accepted module function definitions

theorem start_sound (accepted : Accepted module function definitions) {name : String}
    (found : module.function? name = some function) {entry : BlockId}
    (starts : function.entry? = some entry) {args : List Value}
    (fits : State.argumentsFit args function.signature.params = true) (serial : Nat) :
    (Frame.start serial name entry args).Sound module function definitions := by
  have graphStarts : (FlowGraph.ofFunction function).entry = some entry := starts
  refine ⟨found, accepted, fits, FlowGraph.mem_reachable_of_entry graphStarts, ?_, ?_, ?_, ?_⟩
  · intro temp site known reaches
    change Scene.reaches _ site entry (some 0) = true at reaches
    simp only [Scene.reaches] at reaches
    by_cases here : site.1 = entry
    · simp [here] at reaches
    · rw [if_neg here] at reaches
      exact absurd ((FlowGraph.dominates_entry graphStarts).mp reaches) here
  · intro temp value holds
    cases holds
  · intro temp value ty holds
    cases holds
  · intro slot member
    cases member

end Steps

end ScriptLowering.Code
