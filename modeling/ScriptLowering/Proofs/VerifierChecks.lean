import ScriptLowering.Code.Verification
import ScriptLowering.Proofs.Table

/-! # What the checks of verification ask for

Each check of the verifier is restated as a condition on what it looks at. Everything that
is said about verified code starts from these conditions and opens no check again.
-/

namespace ScriptLowering.Code

/-! ## Sequences of checks -/

theorem require_eq_ok {condition : Bool} {fault : Fault} :
    require condition fault = .ok () ↔ condition = true := by
  cases condition <;> simp [require]

theorem bind_eq_ok {ε α β : Type} {step : Except ε α} {rest : α → Except ε β}
    {result : β} :
    (step >>= rest) = .ok result ↔ ∃ value, step = .ok value ∧ rest value = .ok result := by
  cases step with
  | error fault => simp [bind, Except.bind]
  | ok value => simp [bind, Except.bind]

theorem bind_unit_eq_ok {ε β : Type} {step : Except ε Unit} {rest : Unit → Except ε β}
    {result : β} :
    (step >>= rest) = .ok result ↔ step = .ok () ∧ rest () = .ok result := by
  rw [bind_eq_ok]
  constructor
  · rintro ⟨⟨⟩, first, second⟩
    exact ⟨first, second⟩
  · rintro ⟨first, second⟩
    exact ⟨(), first, second⟩

theorem forM_eq_ok {ε α : Type} {check : α → Except ε Unit} {items : List α} :
    items.forM check = .ok () ↔ ∀ item ∈ items, check item = .ok () := by
  induction items with
  | nil => simp [pure, Except.pure]
  | cons head rest induction =>
      change (check head >>= fun _ => rest.forM check) = .ok () ↔ _
      rw [bind_unit_eq_ok, induction]
      simp

theorem mapError_eq_ok {ε δ α : Type} {change : ε → δ} {step : Except ε α} {value : α} :
    step.mapError change = .ok value ↔ step = .ok value := by
  cases step <;> simp [Except.mapError]

/-! ## The arena and the layout -/

/-- The layout names blocks of the arena, none twice, and every block of the arena carries
the identifier that it is stored under. -/
structure Body.Indexed (body : Body) : Prop where
  distinct : body.layout.Nodup
  known : ∀ id ∈ body.layout, ∃ block, body.block? id = some block
  named : ∀ id block, body.block? id = some block → block.id = id

theorem Body.mem_laidOut {body : Body} {block : Block} :
    block ∈ body.laidOut ↔ ∃ id ∈ body.layout, body.block? id = some block := by
  simp [laidOut, List.mem_filterMap]

/-- As for `Indexed`, but the layout may also name blocks that the arena does not know. -/
structure Body.Keyed (body : Body) : Prop where
  distinct : body.layout.Nodup
  named : ∀ id block, body.block? id = some block → block.id = id

namespace Body.Keyed

variable {body : Body}

theorem mem_laidOut_iff (keyed : body.Keyed) {block : Block} :
    block ∈ body.laidOut ↔ block.id ∈ body.layout ∧ body.block? block.id = some block := by
  rw [Body.mem_laidOut]
  constructor
  · rintro ⟨id, member, found⟩
    have same := keyed.named id block found
    subst same
    exact ⟨member, found⟩
  · rintro ⟨member, found⟩
    exact ⟨block.id, member, found⟩

theorem sublist_laidOut (keyed : body.Keyed) :
    (body.laidOut.map Block.id).Sublist body.layout := by
  have named := keyed.named
  unfold Body.laidOut
  induction body.layout with
  | nil => exact List.Sublist.slnil
  | cons id rest induction =>
      cases found : body.block? id with
      | none => simpa [found] using induction.cons id
      | some block => simpa [found, named id block found] using induction.cons_cons id

theorem laidOut_nodup (keyed : body.Keyed) : (body.laidOut.map Block.id).Nodup :=
  keyed.sublist_laidOut.nodup keyed.distinct

end Body.Keyed

namespace Body.Indexed

variable {body : Body}

theorem keyed (indexed : body.Indexed) : body.Keyed := ⟨indexed.distinct, indexed.named⟩

theorem mem_laidOut_iff (indexed : body.Indexed) {block : Block} :
    block ∈ body.laidOut ↔ block.id ∈ body.layout ∧ body.block? block.id = some block :=
  indexed.keyed.mem_laidOut_iff

end Body.Indexed

theorem Body.isLaidOut_iff {body : Body} {id : BlockId} :
    body.isLaidOut id = true ↔ id ∈ body.layout := by
  simp [Body.isLaidOut]

/-! ## The shape of a function -/

theorem checkEdges_eq_ok {body : Body} {block : Block} :
    checkEdges body block = .ok () ↔
      block.isTerminated = true ∧ ∀ target ∈ block.successors, target ∈ body.layout := by
  simp only [checkEdges, bind_unit_eq_ok, require_eq_ok, forM_eq_ok, Body.isLaidOut_iff]

theorem checkShape_eq_ok {function : Function} :
    checkShape function = .ok () ↔
      function.body.layout ≠ [] ∧
      function.body.blocks.size = function.body.layout.length ∧
      (∀ block ∈ function.body.laidOut, block.isTerminated = true ∧
        ∀ target ∈ block.successors, target ∈ function.body.layout) ∧
      (FlowGraph.ofFunction function).orphans = [] := by
  simp only [checkShape, bind_unit_eq_ok, require_eq_ok, forM_eq_ok, checkEdges_eq_ok]
  cases orphans : (FlowGraph.ofFunction function).orphans with
  | nil => simp
  | cons block rest => simp

/-! ## Definitions

The code of a body is the list of its instructions with the places where they stand. -/

structure Site where
  block : BlockId
  index : Nat
  instruction : Instruction

def Block.code (block : Block) : List Site :=
  block.instructions.zipIdx.map fun (instruction, index) => ⟨block.id, index, instruction⟩

def Body.code (body : Body) : List Site := body.laidOut.flatMap Block.code

theorem Block.mem_code {block : Block} {site : Site} :
    site ∈ block.code ↔
      site.block = block.id ∧ block.instructions[site.index]? = some site.instruction := by
  rcases site with ⟨id, index, instruction⟩
  simp only [code, List.mem_map, Prod.exists, List.mem_zipIdx_iff_getElem?, Site.mk.injEq]
  constructor
  · rintro ⟨found, place, member, same, rfl, rfl⟩
    exact ⟨same.symm, member⟩
  · rintro ⟨same, member⟩
    exact ⟨instruction, index, member, same.symm, rfl, rfl⟩

theorem Body.mem_code {body : Body} {site : Site} :
    site ∈ body.code ↔ ∃ block ∈ body.laidOut,
      site.block = block.id ∧ block.instructions[site.index]? = some site.instruction := by
  simp only [code, List.mem_flatMap, Block.mem_code]

namespace Definitions

def addSite (definitions : Definitions) (site : Site) : Except Fault Definitions :=
  definitions.add site.block site.index site.instruction

theorem foldlM_flatMap {ε σ α β : Type} (step : σ → β → Except ε σ) (spread : α → List β)
    (items : List α) (start : σ) :
    (items.flatMap spread).foldlM step start =
      items.foldlM (fun state item => (spread item).foldlM step state) start := by
  induction items generalizing start with
  | nil => rfl
  | cons head rest induction =>
      simp only [List.flatMap_cons, List.foldlM_append, List.foldlM_cons, induction]

theorem addBlock_eq (definitions : Definitions) (block : Block) :
    definitions.addBlock block = block.code.foldlM addSite definitions := by
  simp only [addBlock, Block.code, List.foldlM_map]
  rfl

theorem collect_eq (body : Body) : collect body = body.code.foldlM addSite empty := by
  rw [collect, Body.code, foldlM_flatMap]
  congr 1
  funext definitions block
  exact addBlock_eq definitions block

def Tidy (definitions : Definitions) : Prop :=
  ∀ temp ty, definitions.slots.get? temp = some ty →
    ∃ site, definitions.sites.get? temp = some site

/-- `result` knows what `start` knew and what `code` defines. -/
structure Gathers (start : Definitions) (code : List Site) (result : Definitions) :
    Prop where
  sites : ∀ temp block index, result.sites.get? temp = some (block, index) ↔
    start.sites.get? temp = some (block, index) ∨
      ∃ instruction, ⟨block, index, instruction⟩ ∈ code ∧ instruction.defined? = some temp
  slots : ∀ temp ty, result.slots.get? temp = some ty ↔
    start.slots.get? temp = some ty ∨
      ∃ block index align, ⟨block, index, .alloca (.temp temp) ty align⟩ ∈ code

theorem defined?_alloca {result : Operand} {ty : Ty} {align : UInt32} {temp : TempId} :
    (Instruction.alloca result ty align).defined? = some temp ↔ result = .temp temp := by
  cases result <;> simp [Instruction.defined?, Instruction.result?, Operand.asTemp?]

theorem gathers_addSite {definitions next : Definitions} {site : Site}
    (tidy : definitions.Tidy) (added : definitions.addSite site = .ok next) :
    definitions.Gathers [site] next ∧ next.Tidy := by
  rcases site with ⟨block, index, instruction⟩
  simp only [addSite, add] at added
  split at added
  · rename_i undefined
    cases added
    refine ⟨⟨?_, ?_⟩, tidy⟩
    · intro temp other place
      simp [undefined]
    · intro temp ty
      have notAlloca : ∀ align, Instruction.alloca (.temp temp) ty align ≠ instruction := by
        rintro align rfl
        simp [Instruction.defined?, Instruction.result?, Operand.asTemp?] at undefined
      simp [notAlloca]
  · rename_i temp defines
    split at added
    · cases added
    · rename_i absent
      have free : definitions.sites.get? temp = none := by
        simpa [Table.contains] using absent
      have noSlot : definitions.slots.get? temp = none := by
        by_contra present
        obtain ⟨ty, found⟩ := Option.ne_none_iff_exists'.mp present
        obtain ⟨site, known⟩ := tidy temp ty found
        simp [free] at known
      have sites : next.sites = definitions.sites.insert temp (block, index) := by
        cases added
        rfl
      have slots : ∀ other ty, next.slots.get? other = some ty ↔
          definitions.slots.get? other = some ty ∨
            ∃ align, .alloca (.temp other) ty align = instruction := by
        cases added
        intro other ty
        cases instruction with
        | alloca result allocated align =>
            have isTemp := defined?_alloca.mp defines
            subst isTemp
            simp [Table.get?_insert_of_free noSlot]
        | _ => simp
      refine ⟨⟨fun other otherBlock place => ?_, fun other ty => ?_⟩, fun other ty found => ?_⟩
      · rw [sites, Table.get?_insert_of_free free]
        constructor
        · rintro (known | ⟨rfl, same⟩)
          · exact .inl known
          · cases same
            exact .inr ⟨instruction, by simp, defines⟩
        · rintro (known | ⟨found, member, definesOther⟩)
          · exact .inl known
          · simp only [List.mem_singleton, Site.mk.injEq] at member
            obtain ⟨rfl, rfl, rfl⟩ := member
            rw [defines] at definesOther
            cases definesOther
            exact .inr ⟨rfl, rfl⟩
      · refine (slots other ty).trans ?_
        simp
      · rw [sites]
        rcases (slots other ty).mp found with earlier | ⟨align, rfl⟩
        · obtain ⟨site, known⟩ := tidy other ty earlier
          exact ⟨site, (Table.get?_insert_of_free free).mpr (.inl known)⟩
        · cases defines
          exact ⟨(block, index), (Table.get?_insert_of_free free).mpr (.inr ⟨rfl, rfl⟩)⟩

theorem gathers_foldlM {code : List Site} {start result : Definitions} (tidy : start.Tidy)
    (collected : code.foldlM addSite start = .ok result) :
    start.Gathers code result ∧ result.Tidy := by
  induction code generalizing start with
  | nil =>
      simp only [List.foldlM_nil, pure, Except.pure, Except.ok.injEq] at collected
      subst collected
      exact ⟨⟨by simp, by simp⟩, tidy⟩
  | cons site rest induction =>
      rw [List.foldlM_cons] at collected
      obtain ⟨next, added, later⟩ := bind_eq_ok.mp collected
      obtain ⟨first, nextTidy⟩ := gathers_addSite tidy added
      obtain ⟨others, resultTidy⟩ := induction nextTidy later
      refine ⟨⟨?_, ?_⟩, resultTidy⟩
      · intro temp block index
        rw [others.sites, first.sites, or_assoc]
        simp only [List.mem_cons, List.not_mem_nil, or_false, or_and_right, exists_or]
      · intro temp ty
        rw [others.slots, first.slots, or_assoc]
        simp only [List.mem_cons, List.not_mem_nil, or_false, exists_or]

theorem gathers_collect {body : Body} {definitions : Definitions}
    (collected : collect body = .ok definitions) : empty.Gathers body.code definitions := by
  rw [collect_eq] at collected
  have tidy : empty.Tidy := by
    intro temp ty found
    simp [empty] at found
  exact (gathers_foldlM tidy collected).1

theorem site_unique {body : Body} {definitions : Definitions}
    (collected : collect body = .ok definitions) {first second : Site} {temp : TempId}
    (firstMember : first ∈ body.code) (secondMember : second ∈ body.code)
    (firstDefines : first.instruction.defined? = some temp)
    (secondDefines : second.instruction.defined? = some temp) :
    first.block = second.block ∧ first.index = second.index := by
  have gathers := gathers_collect collected
  have foundFirst := (gathers.sites temp first.block first.index).mpr
    (.inr ⟨first.instruction, firstMember, firstDefines⟩)
  have foundSecond := (gathers.sites temp second.block second.index).mpr
    (.inr ⟨second.instruction, secondMember, secondDefines⟩)
  rw [foundFirst] at foundSecond
  simpa using foundSecond

end Definitions

/-! ## Types of operands -/

theorem Scene.typeOf?_of_fits {scene : Scene} {operand : Operand} {ty : Ty}
    (variable_ : operand.isConstant = false) (fits : scene.fits operand ty = true) :
    scene.function.typeOf? operand = some ty := by
  cases operand with
  | constant value => simp [Operand.isConstant, Operand.asConstant?] at variable_
  | _ => exact of_decide_eq_true fits

/-! ## Blocks, functions and modules -/

theorem Scene.checkBlock_eq_ok {scene : Scene} {block : Block} :
    scene.checkBlock block = .ok () ↔
      (∀ index instruction, block.instructions[index]? = some instruction →
        (∀ operand ∈ instruction.operands,
          scene.checkUse block.id (some index) operand = .ok ()) ∧
        scene.checkInstruction instruction = .ok ()) ∧
      (∀ operand ∈ block.terminator.operands,
        scene.checkUse block.id none operand = .ok ()) ∧
      scene.checkTerminator block.terminator = .ok () := by
  simp only [checkBlock, bind_unit_eq_ok, forM_eq_ok, Prod.forall,
    List.mem_zipIdx_iff_getElem?]
  constructor
  · rintro ⟨instructions, rest⟩
    exact ⟨fun index instruction found => instructions instruction index found, rest⟩
  · rintro ⟨instructions, rest⟩
    exact ⟨fun instruction index found => instructions index instruction found, rest⟩

theorem Module.checkFunction_eq_ok {module : Module} {function : Function} :
    module.checkFunction function = .ok () ↔
      checkShape function = .ok () ∧
      ∃ definitions, Definitions.collect function.body = .ok definitions ∧
        ∀ block ∈ function.body.laidOut,
          Scene.checkBlock ⟨module, function, definitions,
            (FlowGraph.ofFunction function).dominators⟩ block = .ok () := by
  rw [checkFunction, bind_unit_eq_ok]
  simp only [bind_eq_ok, forM_eq_ok]

theorem Module.verifyFunction_eq_ok {module : Module} {function : Function} :
    module.verifyFunction function = .ok () ↔ module.checkFunction function = .ok () :=
  mapError_eq_ok

theorem Module.verify_eq_ok {module : Module} :
    module.verify = .ok () ↔
      (∀ id global, module.global? id = some global →
        global.initial.fits global.ty = true ∧ global.ty.isVoid = false) ∧
      ∀ name function, module.function? name = some function → function.body.layout ≠ [] →
        module.checkFunction function = .ok () := by
  simp only [verify, bind_unit_eq_ok, forM_eq_ok, verifyGlobal, mapError_eq_ok, checkGlobal,
    require_eq_ok, verifyFunction_eq_ok, definitions, List.mem_filter, Table.mem_values_iff,
    Function.isDeclaration, Bool.not_eq_true', global?, function?]
  constructor
  · rintro ⟨globals, functions⟩
    refine ⟨fun id global found => globals global ⟨id, found⟩, ?_⟩
    intro name function found nonempty
    exact functions function ⟨⟨name, found⟩, by simpa using nonempty⟩
  · rintro ⟨globals, functions⟩
    constructor
    · rintro global ⟨id, found⟩
      exact globals id global found
    · rintro function ⟨⟨name, found⟩, nonempty⟩
      exact functions name function found (by simpa using nonempty)

end ScriptLowering.Code
