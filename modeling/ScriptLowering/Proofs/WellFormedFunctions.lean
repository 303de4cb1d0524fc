import Mathlib.Data.List.Nodup
import Mathlib.Data.List.Perm.Subperm
import ScriptLowering.Proofs.DominancePaths
import ScriptLowering.Proofs.MachineProgress

/-! # Well-formed functions

What the verifier is meant to accept, said without the verifier: the flow of a function is
closed and connected, every temp is defined once and on every way to its uses, and every part
has operands of the types that it asks for. The verifier accepts exactly the functions of
which this holds, whatever else they contain.
-/

namespace ScriptLowering.Code

/-! ## Flow -/

namespace Function

/-- A laid-out block of the function leads from `first` to `second`. -/
def Leads (function : Function) (first second : BlockId) : Prop :=
  ∃ block ∈ function.body.laidOut, block.id = first ∧ second ∈ block.successors

/-- `second` can be reached, and only by way of `first`. -/
def Dominates (function : Function) (first second : BlockId) : Prop :=
  PathDominates function.entry? function.Leads first second

theorem edge_eq_leads {function : Function} (keyed : function.body.Keyed) :
    (FlowGraph.ofFunction function).Edge = function.Leads := by
  funext first second
  exact propext (FlowGraph.edge_ofFunction_iff keyed)

/-! ## Operands -/

/-- The operand may stand where a value of the type is asked for. A null value stands for an
address or an object of any kind. -/
inductive Provides (function : Function) : Operand → Ty → Prop
  | temp {id : TempId} {ty : Ty} (recorded : function.body.tempType? id = some ty) :
      Provides function (.temp id) ty
  | param {id : ParamId} {parameter : Parameter}
      (listed : function.signature.params[id.number.toNat]? = some parameter) :
      Provides function (.param id) parameter.ty
  | global {id : GlobalId} : Provides function (.global id) .ptr
  | data {id : DataId} : Provides function (.data id) .ptr
  | bool {value : Bool} : Provides function (.constant (.bool value)) .bool
  | int {value : Int64} {bits : UInt16} :
      Provides function (.constant (.int value bits)) (.int bits)
  | nullPointer : Provides function (.constant .null) .ptr
  | nullHandle {name : String} : Provides function (.constant .null) (.handle name)

/-- The operand is the address of storage for values of the type. -/
inductive Addresses (module : Module) (function : Function) : Operand → Ty → Prop
  | slot {temp : TempId} {ty : Ty} {align : UInt32} {block : BlockId} {index : Nat}
      (reserved : ⟨block, index, .alloca (.temp temp) ty align⟩ ∈ function.body.code) :
      Addresses module function (.temp temp) ty
  | global {id : GlobalId} {global : Global} (known : module.global? id = some global) :
      Addresses module function (.global id) global.ty

/-- The operand exists at the given place. A temp has to be defined earlier in the block or
in another block that control has passed through before. -/
inductive Available (module : Module) (function : Function) (block : BlockId) (place : Nat) :
    Operand → Prop
  | earlier {temp : TempId} {site : Site} (member : site ∈ function.body.code)
      (defines : site.instruction.defined? = some temp) (here : site.block = block)
      (before : site.index < place) : Available module function block place (.temp temp)
  | elsewhere {temp : TempId} {site : Site} (member : site ∈ function.body.code)
      (defines : site.instruction.defined? = some temp) (other : site.block ≠ block)
      (dominates : function.Dominates site.block block) :
      Available module function block place (.temp temp)
  | param {id : ParamId} (listed : id.number.toNat < function.signature.params.length) :
      Available module function block place (.param id)
  | global {id : GlobalId} {global : Global} (known : module.global? id = some global) :
      Available module function block place (.global id)
  | data {id : DataId} {object : DataObject} (known : module.data.get? id = some object) :
      Available module function block place (.data id)
  | constant {value : Constant} : Available module function block place (.constant value)

/-! ## Typing rules -/

inductive TypedInstruction (module : Module) (function : Function) : Instruction → Prop
  | alloca {result : Operand} {ty : Ty} {align : UInt32} (notVoid : ty ≠ .void) :
      TypedInstruction module function (.alloca result ty align)
  | load {result address : Operand} {ty : Ty}
      (stored : function.Addresses module address ty) :
      TypedInstruction module function (.load result ty address)
  | store {address value : Operand} {ty : Ty} (stored : function.Addresses module address ty)
      (provided : function.Provides value ty) :
      TypedInstruction module function (.store address value)
  | arith {op : ArithOp} {result left right : Operand} {bits : UInt16}
      (first : function.Provides left (.int bits))
      (second : function.Provides right (.int bits)) :
      TypedInstruction module function (.arith op result left right (.int bits))
  | negate {result operand : Operand} {bits : UInt16}
      (provided : function.Provides operand (.int bits)) :
      TypedInstruction module function (.negate result operand (.int bits))
  | compareTruths {result left right : Operand} {condition : Condition}
      (first : function.Provides left .bool) (second : function.Provides right .bool) :
      TypedInstruction module function (.compare result condition left right)
  | compareNumbers {result left right : Operand} {condition : Condition} {bits : UInt16}
      (first : function.Provides left (.int bits))
      (second : function.Provides right (.int bits)) :
      TypedInstruction module function (.compare result condition left right)
  | callNothing {callee : String} {args : List Operand} {target : Function}
      (known : module.function? callee = some target)
      (provided : List.Forall₂ (fun argument (parameter : Parameter) =>
        function.Provides argument parameter.ty) args target.signature.params)
      (returns : target.signature.returns = .void) :
      TypedInstruction module function (.call none callee args)
  | callValue {result : Operand} {callee : String} {args : List Operand} {target : Function}
      (known : module.function? callee = some target)
      (provided : List.Forall₂ (fun argument (parameter : Parameter) =>
        function.Provides argument parameter.ty) args target.signature.params)
      (returns : function.Provides result target.signature.returns) :
      TypedInstruction module function (.call (some result) callee args)

inductive TypedTerminator (function : Function) : Terminator → Prop
  | jump {target : BlockId} : TypedTerminator function (.jump target)
  | branch {condition : Operand} {thenBlock elseBlock : BlockId}
      (provided : function.Provides condition .bool) :
      TypedTerminator function (.branch condition thenBlock elseBlock)
  | nothing (returns : function.signature.returns = .void) :
      TypedTerminator function (.ret none)
  | value {value : Operand} (notVoid : function.signature.returns ≠ .void)
      (provided : function.Provides value function.signature.returns) :
      TypedTerminator function (.ret (some value))

/-! ## Functions -/

structure WellFormed (module : Module) (function : Function) : Prop where
  nonempty : function.body.layout ≠ []
  attached : ∀ id block, function.body.block? id = some block → id ∈ function.body.layout
  terminated : ∀ block ∈ function.body.laidOut, block.terminator ≠ .unfinished
  closed : ∀ block ∈ function.body.laidOut, ∀ target ∈ block.successors,
    target ∈ function.body.layout
  entered : ∀ id ∈ function.body.layout, function.entry? ≠ some id →
    ∃ source, function.Leads source id
  single : ∀ first ∈ function.body.code, ∀ second ∈ function.body.code, ∀ temp,
    first.instruction.defined? = some temp → second.instruction.defined? = some temp →
      first = second
  available : ∀ block ∈ function.body.laidOut, ∀ index instruction,
    block.instructions[index]? = some instruction → ∀ operand ∈ instruction.operands,
      function.Available module block.id index operand
  availableAtEnd : ∀ block ∈ function.body.laidOut, ∀ operand ∈ block.terminator.operands,
    function.Available module block.id block.instructions.length operand
  typed : ∀ block ∈ function.body.laidOut, ∀ instruction ∈ block.instructions,
    function.TypedInstruction module instruction
  typedAtEnd : ∀ block ∈ function.body.laidOut, function.TypedTerminator block.terminator

end Function

/-! ## The shape that is checked -/

namespace Function

variable {function : Function}

theorem size_eq_length_iff (indexed : function.body.Indexed) :
    function.body.blocks.size = function.body.layout.length ↔
      ∀ id block, function.body.block? id = some block → id ∈ function.body.layout := by
  have subset : function.body.layout ⊆ function.body.blocks.keys :=
    fun id member => Table.mem_keys_iff.mpr (indexed.known id member)
  have subperm : function.body.layout.Subperm function.body.blocks.keys :=
    List.subperm_of_subset indexed.distinct subset
  rw [← Table.keys_length]
  constructor
  · intro same id block found
    have perm := subperm.perm_of_length_le (Nat.le_of_eq same)
    exact perm.mem_iff.mpr (Table.mem_keys_iff.mpr ⟨block, found⟩)
  · intro attached
    have back : function.body.blocks.keys ⊆ function.body.layout := by
      intro id member
      rcases Table.mem_keys_iff.mp member with ⟨block, found⟩
      exact attached id block found
    have fewer := (List.subperm_of_subset function.body.blocks.keys_nodup back).length_le
    exact Nat.le_antisymm fewer subperm.length_le

theorem isTerminated_iff {block : Block} :
    block.isTerminated = true ↔ block.terminator ≠ .unfinished := by
  unfold Block.isTerminated
  cases block.terminator <;> simp [Terminator.isFinished]

theorem predecessors_ne_nil_iff {id : BlockId} :
    (FlowGraph.ofFunction function).predecessors id ≠ [] ↔
      ∃ source, function.Leads source id := by
  constructor
  · intro nonempty
    rcases List.exists_mem_of_ne_nil _ nonempty with ⟨source, member⟩
    exact ⟨source, FlowGraph.mem_predecessors_iff.mp member⟩
  · rintro ⟨source, leads⟩
    exact List.ne_nil_of_mem (FlowGraph.mem_predecessors_iff.mpr leads)

theorem orphans_eq_nil_iff :
    (FlowGraph.ofFunction function).orphans = [] ↔
      ∀ id ∈ function.body.layout, function.entry? ≠ some id →
        ∃ source, function.Leads source id := by
  have blocks : (FlowGraph.ofFunction function).blocks = function.body.layout := rfl
  have entry : (FlowGraph.ofFunction function).entry = function.entry? := rfl
  rw [FlowGraph.orphans, List.filter_eq_nil_iff, blocks, entry]
  refine forall₂_congr fun id _ => ?_
  rw [← predecessors_ne_nil_iff, ne_comm (a := function.entry?)]
  simp

theorem checkShape_iff (indexed : function.body.Indexed) :
    checkShape function = .ok () ↔
      function.body.layout ≠ [] ∧
      (∀ id block, function.body.block? id = some block → id ∈ function.body.layout) ∧
      (∀ block ∈ function.body.laidOut, block.terminator ≠ .unfinished ∧
        ∀ target ∈ block.successors, target ∈ function.body.layout) ∧
      ∀ id ∈ function.body.layout, function.entry? ≠ some id →
        ∃ source, function.Leads source id := by
  simp only [checkShape_eq_ok, size_eq_length_iff indexed, isTerminated_iff,
    orphans_eq_nil_iff]

end Function

/-! ## Collecting definitions -/

namespace Body.Indexed

variable {body : Body}

theorem eq_of_site (indexed : body.Indexed) {first second : Site}
    (firstMember : first ∈ body.code) (secondMember : second ∈ body.code)
    (sameBlock : first.block = second.block) (sameIndex : first.index = second.index) :
    first = second := by
  rcases Body.mem_code.mp firstMember with ⟨block, laidOut, isBlock, found⟩
  rcases Body.mem_code.mp secondMember with ⟨other, otherLaidOut, isOther, otherFound⟩
  have blockFound := (indexed.mem_laidOut_iff.mp laidOut).2
  have blockFoundToo := (indexed.mem_laidOut_iff.mp otherLaidOut).2
  rw [← isOther, ← sameBlock, isBlock, blockFound] at blockFoundToo
  cases blockFoundToo
  rw [← sameIndex, found] at otherFound
  rcases first with ⟨_, _, _⟩
  rcases second with ⟨_, _, _⟩
  simp only [Option.some.injEq] at sameBlock sameIndex otherFound
  subst sameBlock sameIndex otherFound
  rfl

theorem code_nodup (indexed : body.Indexed) : body.code.Nodup := by
  refine List.nodup_flatMap.mpr ⟨fun block _ => ?_, ?_⟩
  · have indices : (block.code.map Site.index).Nodup := by
      simp [Block.code, List.nodup_range', Function.comp_def]
    exact .of_map _ indices
  · have distinct := indexed.keyed.laidOut_nodup
    rw [List.Nodup, List.pairwise_map] at distinct
    refine distinct.imp fun different => ?_
    intro site first second
    exact different ((Block.mem_code.mp first).1.symm.trans (Block.mem_code.mp second).1)

end Body.Indexed

/-! Collecting succeeds if no temp is met twice. No two sites of a body are the same, so it is
enough that sites that define the same temp are. -/

namespace Definitions

theorem addSite_succeeds {definitions : Definitions} {site : Site}
    (fresh : ∀ temp, site.instruction.defined? = some temp →
      definitions.sites.get? temp = none) :
    ∃ next, definitions.addSite site = .ok next := by
  unfold addSite add
  cases defines : site.instruction.defined? with
  | none => exact ⟨_, rfl⟩
  | some temp =>
      have absent : definitions.sites.contains temp = false := by
        simp [Table.contains, fresh temp defines]
      simp [absent]

theorem foldlM_addSite_succeeds {code : List Site} {start : Definitions} (tidy : start.Tidy)
    (fresh : ∀ site ∈ code, ∀ temp, site.instruction.defined? = some temp →
      start.sites.get? temp = none)
    (apart : code.Pairwise fun first second => ∀ temp,
      first.instruction.defined? = some temp → second.instruction.defined? ≠ some temp) :
    ∃ result, code.foldlM addSite start = .ok result := by
  induction code generalizing start with
  | nil => exact ⟨start, rfl⟩
  | cons site rest induction =>
      rcases addSite_succeeds (fresh site (by simp)) with ⟨next, added⟩
      rcases gathers_addSite tidy added with ⟨gathers, nextTidy⟩
      rw [List.pairwise_cons] at apart
      have nextFresh : ∀ other ∈ rest, ∀ temp, other.instruction.defined? = some temp →
          next.sites.get? temp = none := by
        intro other member temp defines
        by_contra present
        rcases Option.ne_none_iff_exists'.mp present with ⟨⟨block, index⟩, found⟩
        rcases (gathers.sites temp block index).mp found with known | ⟨instruction, here, same⟩
        · rw [fresh other (by simp [member]) temp defines] at known
          cases known
        · have isSite : site.instruction = instruction := by
            rw [← List.mem_singleton.mp here]
          exact apart.1 other member temp (isSite ▸ same) defines
      rcases induction nextTidy nextFresh apart.2 with ⟨result, collected⟩
      refine ⟨result, ?_⟩
      rw [List.foldlM_cons, added]
      exact collected

theorem collect_succeeds_iff {body : Body} (indexed : body.Indexed) :
    (∃ definitions, collect body = .ok definitions) ↔
      ∀ first ∈ body.code, ∀ second ∈ body.code, ∀ temp,
        first.instruction.defined? = some temp → second.instruction.defined? = some temp →
          first = second := by
  constructor
  · rintro ⟨definitions, collected⟩ first firstMember second secondMember temp firstDefines
      secondDefines
    obtain ⟨sameBlock, sameIndex⟩ := site_unique collected firstMember secondMember firstDefines
      secondDefines
    exact indexed.eq_of_site firstMember secondMember sameBlock sameIndex
  · intro single
    rw [collect_eq]
    refine foldlM_addSite_succeeds (by intro temp ty found; cases found) (fun _ _ _ _ => rfl) ?_
    refine indexed.code_nodup.imp_of_mem fun firstMember secondMember different temp defines
      definesToo => different (single _ firstMember _ secondMember temp defines definesToo)

end Definitions

/-! ## The checks of operands and instructions -/

theorem Scene.fits_iff {scene : Scene} {operand : Operand} {ty : Ty} :
    scene.fits operand ty = true ↔ scene.function.Provides operand ty := by
  cases operand with
  | temp id =>
      refine decide_eq_true_iff.trans ⟨.temp, ?_⟩
      rintro ⟨recorded⟩
      exact recorded
  | param id =>
      refine decide_eq_true_iff.trans ⟨fun found => ?_, ?_⟩
      · rcases Option.map_eq_some_iff.mp found with ⟨parameter, listed, rfl⟩
        exact .param listed
      · intro provides
        cases provides with
        | param listed => exact Option.map_eq_some_iff.mpr ⟨_, listed, rfl⟩
  | global id =>
      refine decide_eq_true_iff.trans ⟨fun found => ?_, fun provides => ?_⟩
      · cases found
        exact .global
      · cases provides
        rfl
  | data id =>
      refine decide_eq_true_iff.trans ⟨fun found => ?_, fun provides => ?_⟩
      · cases found
        exact .data
      · cases provides
        rfl
  | constant value =>
      refine ⟨fun found => ?_, fun provides => ?_⟩
      · cases value with
        | bool value =>
            cases of_decide_eq_true found
            exact .bool
        | int value bits =>
            cases of_decide_eq_true found
            exact .int
        | null =>
            cases ty with
            | ptr => exact .nullPointer
            | handle name => exact .nullHandle
            | _ => cases found
      · cases provides <;> simp [Scene.fits, Constant.fits, Constant.ty?, Ty.isPointerLike]

section Checked

variable {module : Module} {function : Function} {definitions : Definitions}
  {dominators : Dominators} (gathers : Definitions.empty.Gathers function.body.code definitions)

include gathers in
theorem Scene.stored?_iff {operand : Operand} {ty : Ty} :
    Scene.stored? ⟨module, function, definitions, dominators⟩ operand = some ty ↔
      function.Addresses module operand ty := by
  cases operand with
  | temp temp =>
      refine (gathers.slots temp ty).trans ⟨?_, ?_⟩
      · rintro (known | ⟨block, index, align, reserved⟩)
        · cases known
        · exact .slot reserved
      · rintro ⟨reserved⟩
        exact .inr ⟨_, _, _, reserved⟩
  | global id =>
      refine Option.map_eq_some_iff.trans ⟨?_, ?_⟩
      · rintro ⟨global, known, rfl⟩
        exact .global known
      · intro addresses
        cases addresses with
        | global known => exact ⟨_, known, rfl⟩
  | _ =>
      refine ⟨fun found => ?_, fun addresses => ?_⟩
      · cases found
      · cases addresses

theorem Scene.checkArguments_iff {scene : Scene} {callee : String} {args : List Operand}
    {parameters : List Parameter} (sameLength : parameters.length = args.length) :
    scene.checkArguments callee args parameters = .ok () ↔
      List.Forall₂ (fun argument (parameter : Parameter) =>
        scene.function.Provides argument parameter.ty) args parameters := by
  induction args generalizing parameters with
  | nil =>
      cases List.length_eq_zero_iff.mp sameLength
      exact ⟨fun _ => .nil, fun _ => rfl⟩
  | cons argument rest induction =>
      cases parameters with
      | nil => cases sameLength
      | cons parameter others =>
          rw [Scene.checkArguments, bind_unit_eq_ok, require_eq_ok, Scene.fits_iff,
            induction (Nat.succ.inj sameLength), List.forall₂_cons]

theorem Ty.isVoid_iff {ty : Ty} : ty.isVoid = true ↔ ty = .void := by
  cases ty <;> simp [Ty.isVoid]

theorem Ty.isArithmetic_iff {ty : Ty} : ty.isArithmetic = true ↔ ∃ bits, ty = .int bits := by
  cases ty <;> simp [Ty.isArithmetic]

theorem Ty.isInteger_iff {ty : Ty} :
    ty.isInteger = true ↔ ty = .bool ∨ ∃ bits, ty = .int bits := by
  cases ty <;> simp [Ty.isInteger]

theorem Function.Provides.typeOf? {function : Function} {operand : Operand} {ty : Ty}
    (provides : function.Provides operand ty) (integer : ty.isInteger = true) :
    function.typeOf? operand = some ty := by
  cases provides with
  | temp recorded => exact recorded
  | param listed => exact Option.map_eq_some_iff.mpr ⟨_, listed, rfl⟩
  | bool => rfl
  | int => rfl
  | _ => cases integer

theorem Scene.checkCompare_iff {scene : Scene} {result left right : Operand}
    {condition : Condition} :
    scene.checkInstruction (.compare result condition left right) = .ok () ↔
      ∃ ty, ty.isInteger = true ∧ scene.function.Provides left ty ∧
        scene.function.Provides right ty := by
  simp only [Scene.checkInstruction]
  constructor
  · intro checked
    cases compared : scene.comparedType? left right with
    | none => simp [compared] at checked
    | some ty =>
        simp only [compared, bind_unit_eq_ok, require_eq_ok, Bool.and_eq_true,
          Scene.fits_iff] at checked
        exact ⟨ty, checked⟩
  · rintro ⟨ty, integer, first, second⟩
    have compared : scene.comparedType? left right = some ty := by
      unfold Scene.comparedType?
      split
      · exact second.typeOf? integer
      · exact first.typeOf? integer
    simp only [compared, bind_unit_eq_ok, require_eq_ok, Bool.and_eq_true, Scene.fits_iff]
    exact ⟨integer, first, second⟩

include gathers in
theorem Scene.checkInstruction_iff {instruction : Instruction} :
    Scene.checkInstruction ⟨module, function, definitions, dominators⟩ instruction = .ok () ↔
      function.TypedInstruction module instruction := by
  cases instruction with
  | alloca result ty align =>
      rw [Scene.checkInstruction, require_eq_ok, Bool.not_eq_true', ← Bool.not_eq_true,
        Ty.isVoid_iff]
      refine ⟨.alloca, fun typed => ?_⟩
      cases typed with
      | alloca notVoid => exact notVoid
  | load result ty address =>
      simp only [Scene.checkInstruction]
      constructor
      · intro checked
        cases stored : Scene.stored? ⟨module, function, definitions, dominators⟩ address with
        | none => simp [stored] at checked
        | some held =>
            simp only [stored, require_eq_ok, decide_eq_true_eq] at checked
            subst checked
            exact .load ((Scene.stored?_iff gathers).mp stored)
      · intro typed
        cases typed with
        | load stored => simp [(Scene.stored?_iff gathers).mpr stored, require]
  | store address value =>
      simp only [Scene.checkInstruction]
      constructor
      · intro checked
        cases stored : Scene.stored? ⟨module, function, definitions, dominators⟩ address with
        | none => simp [stored] at checked
        | some held =>
            simp only [stored, require_eq_ok] at checked
            exact .store ((Scene.stored?_iff gathers).mp stored) (Scene.fits_iff.mp checked)
      · intro typed
        cases typed with
        | store stored provided =>
            simp only [(Scene.stored?_iff gathers).mpr stored, require_eq_ok]
            exact Scene.fits_iff.mpr provided
  | arith op result left right ty =>
      simp only [Scene.checkInstruction, bind_unit_eq_ok, require_eq_ok, Bool.and_eq_true,
        Scene.fits_iff, Ty.isArithmetic_iff]
      constructor
      · rintro ⟨⟨bits, rfl⟩, first, second⟩
        exact .arith first second
      · intro typed
        cases typed with
        | arith first second => exact ⟨⟨_, rfl⟩, first, second⟩
  | negate result operand ty =>
      simp only [Scene.checkInstruction, require_eq_ok, Bool.and_eq_true, Scene.fits_iff,
        Ty.isArithmetic_iff]
      constructor
      · rintro ⟨⟨bits, rfl⟩, provided⟩
        exact .negate provided
      · intro typed
        cases typed with
        | negate provided => exact ⟨⟨_, rfl⟩, provided⟩
  | compare result condition left right =>
      rw [Scene.checkCompare_iff]
      constructor
      · rintro ⟨ty, integer, first, second⟩
        rcases Ty.isInteger_iff.mp integer with rfl | ⟨bits, rfl⟩
        · exact .compareTruths first second
        · exact .compareNumbers first second
      · intro typed
        cases typed with
        | compareTruths first second => exact ⟨.bool, rfl, first, second⟩
        | compareNumbers first second => exact ⟨_, rfl, first, second⟩
  | call result callee args =>
      simp only [Scene.checkInstruction]
      cases known : module.function? callee with
      | none =>
          refine ⟨fun checked => (by cases checked), fun typed => ?_⟩
          cases typed with
          | callNothing found => simp [known] at found
          | callValue found => simp [known] at found
      | some target =>
          simp only [bind_unit_eq_ok, require_eq_ok, beq_iff_eq]
          constructor
          · rintro ⟨arity, provided, returns⟩
            have arguments := (Scene.checkArguments_iff arity).mp provided
            cases result with
            | none =>
                exact .callNothing known arguments (Ty.isVoid_iff.mp (require_eq_ok.mp returns))
            | some result =>
                exact .callValue known arguments (Scene.fits_iff.mp (require_eq_ok.mp returns))
          · intro typed
            cases typed with
            | callNothing found provided returns =>
                rw [known] at found
                cases found
                have arity := provided.length_eq.symm
                exact ⟨arity, (Scene.checkArguments_iff arity).mpr provided,
                  require_eq_ok.mpr (Ty.isVoid_iff.mpr returns)⟩
            | callValue found provided returns =>
                rw [known] at found
                cases found
                have arity := provided.length_eq.symm
                exact ⟨arity, (Scene.checkArguments_iff arity).mpr provided,
                  require_eq_ok.mpr (Scene.fits_iff.mpr returns)⟩

theorem Scene.checkTerminator_iff {scene : Scene} {terminator : Terminator} :
    scene.checkTerminator terminator = .ok () ↔
      scene.function.TypedTerminator terminator := by
  cases terminator with
  | jump target => exact ⟨fun _ => .jump, fun _ => rfl⟩
  | branch condition thenBlock elseBlock =>
      rw [Scene.checkTerminator, require_eq_ok, Scene.fits_iff]
      refine ⟨.branch, fun typed => ?_⟩
      cases typed with
      | branch provided => exact provided
  | ret value =>
      cases value with
      | none =>
          rw [Scene.checkTerminator, require_eq_ok, Ty.isVoid_iff]
          refine ⟨.nothing, fun typed => ?_⟩
          cases typed with
          | nothing returns => exact returns
      | some value =>
          rw [Scene.checkTerminator, bind_unit_eq_ok, require_eq_ok, require_eq_ok,
            Bool.not_eq_true', ← Bool.not_eq_true, Ty.isVoid_iff, Scene.fits_iff]
          refine ⟨fun both => .value both.1 both.2, fun typed => ?_⟩
          cases typed with
          | value notVoid provided => exact ⟨notVoid, provided⟩
  | unfinished =>
      refine ⟨fun checked => ?_, fun typed => ?_⟩
      · cases checked
      · cases typed

end Checked

/-! ## The checks of uses -/

theorem Function.dominators_iff {function : Function} (keyed : function.body.Keyed)
    (closed : ∀ block ∈ function.body.laidOut, ∀ target ∈ block.successors,
      target ∈ function.body.layout) {first second : BlockId} :
    (FlowGraph.ofFunction function).dominators.dominates first second = true ↔
      function.Dominates first second := by
  cases starts : (FlowGraph.ofFunction function).entry with
  | none =>
      have nowhere : (FlowGraph.ofFunction function).dominators = ⟨.empty⟩ := by
        rw [FlowGraph.dominators, starts]
      rw [nowhere]
      refine ⟨fun absurd => (by cases absurd), fun dominates => ?_⟩
      rcases dominates.1 with ⟨blocks, path⟩
      rw [← edge_eq_leads keyed] at path
      have reached : (FlowGraph.ofFunction function).Reaches second :=
        FlowGraph.reaches_iff_path.mpr ⟨blocks, path⟩
      rcases reached with ⟨entry, isEntry, _⟩
      rw [starts] at isEntry
      cases isEntry
  | some entry =>
      rw [FlowGraph.dominates_iff_pathDominates starts
        (fun block reached => FlowGraph.mem_layout_of_reachable keyed closed reached)
        (fun _ _ => FlowGraph.edge_iff_mem_predecessors keyed), edge_eq_leads keyed]
      rfl

section Uses

variable {module : Module} {function : Function} {definitions : Definitions}
  (indexed : function.body.Indexed)
  (gathers : Definitions.empty.Gathers function.body.code definitions)

include gathers in
theorem Definitions.Gathers.site_iff {temp : TempId} {block : BlockId} {index : Nat} :
    definitions.sites.get? temp = some (block, index) ↔
      ∃ site ∈ function.body.code, site.instruction.defined? = some temp ∧
        site.block = block ∧ site.index = index := by
  refine (gathers.sites temp block index).trans ⟨?_, ?_⟩
  · rintro (known | ⟨instruction, member, defines⟩)
    · cases known
    · exact ⟨_, member, defines, rfl, rfl⟩
  · rintro ⟨site, member, defines, rfl, rfl⟩
    exact .inr ⟨site.instruction, member, defines⟩

include indexed in
theorem reaches_within_iff {dominators : Dominators} {block : Block}
    (laidOut : block ∈ function.body.laidOut) {site : Site} (member : site ∈ function.body.code)
    (here : site.block = block.id) (index : Option Nat) :
    Scene.reaches ⟨module, function, definitions, dominators⟩ (site.block, site.index) block.id
        index = true ↔ site.index < index.getD block.instructions.length := by
  simp only [Scene.reaches, here, if_true]
  cases index with
  | some index => exact decide_eq_true_iff
  | none =>
      rcases Body.mem_code.mp member with ⟨other, otherLaidOut, isOther, found⟩
      have foundBlock := (indexed.mem_laidOut_iff.mp laidOut).2
      have foundOther := (indexed.mem_laidOut_iff.mp otherLaidOut).2
      rw [← isOther, here, foundBlock] at foundOther
      cases foundOther
      rcases List.getElem?_eq_some_iff.mp found with ⟨before, _⟩
      simp [before]

include indexed gathers in
theorem Scene.checkUse_iff
    (closed : ∀ block ∈ function.body.laidOut, ∀ target ∈ block.successors,
      target ∈ function.body.layout)
    {block : Block} (laidOut : block ∈ function.body.laidOut) (index : Option Nat)
    {operand : Operand} :
    Scene.checkUse ⟨module, function, definitions, (FlowGraph.ofFunction function).dominators⟩
        block.id index operand = .ok () ↔
      function.Available module block.id (index.getD block.instructions.length) operand := by
  cases operand with
  | temp temp =>
      simp only [Scene.checkUse]
      constructor
      · intro checked
        cases found : definitions.sites.get? temp with
        | none => simp [found] at checked
        | some pair =>
            rcases pair with ⟨definedIn, definedAt⟩
            rcases gathers.site_iff.mp found with ⟨site, member, defines, rfl, rfl⟩
            simp only [found, require_eq_ok] at checked
            by_cases here : site.block = block.id
            · exact .earlier member defines here
                ((reaches_within_iff indexed laidOut member here index).mp checked)
            · simp only [Scene.reaches, if_neg here] at checked
              exact .elsewhere member defines here
                ((Function.dominators_iff indexed.keyed closed).mp checked)
      · intro available
        cases available with
        | earlier member defines here before =>
            have found := gathers.site_iff.mpr ⟨_, member, defines, rfl, rfl⟩
            simp only [found, require_eq_ok]
            exact (reaches_within_iff indexed laidOut member here index).mpr before
        | elsewhere member defines other dominates =>
            have found := gathers.site_iff.mpr ⟨_, member, defines, rfl, rfl⟩
            simp only [found, require_eq_ok, Scene.reaches, if_neg other]
            exact (Function.dominators_iff indexed.keyed closed).mpr dominates
  | param id =>
      rw [Scene.checkUse, require_eq_ok, decide_eq_true_iff]
      refine ⟨.param, fun available => ?_⟩
      cases available with
      | param listed => exact listed
  | global id =>
      rw [Scene.checkUse, require_eq_ok, Table.contains, Option.isSome_iff_exists]
      constructor
      · rintro ⟨_, known⟩
        exact .global known
      · intro available
        cases available with
        | global known => exact ⟨_, known⟩
  | data id =>
      rw [Scene.checkUse, require_eq_ok, Table.contains, Option.isSome_iff_exists]
      constructor
      · rintro ⟨_, known⟩
        exact .data known
      · intro available
        cases available with
        | data known => exact ⟨_, known⟩
  | constant value => exact ⟨fun _ => .constant, fun _ => rfl⟩

end Uses

/-! ## The verifier is exact -/

theorem Function.checkFunction_iff {module : Module} {function : Function}
    (indexed : function.body.Indexed) :
    module.checkFunction function = .ok () ↔ function.WellFormed module := by
  rw [Module.checkFunction_eq_ok, Function.checkShape_iff indexed]
  constructor
  · rintro ⟨⟨nonempty, attached, ended, entered⟩, definitions, collected, checked⟩
    have gathers := Definitions.gathers_collect collected
    have closed := fun block laidOut => (ended block laidOut).2
    have blocks := fun block laidOut => Scene.checkBlock_eq_ok.mp (checked block laidOut)
    exact {
      nonempty := nonempty
      attached := attached
      terminated := fun block laidOut => (ended block laidOut).1
      closed := closed
      entered := entered
      single := (Definitions.collect_succeeds_iff indexed).mp ⟨definitions, collected⟩
      available := fun block laidOut index instruction found operand member =>
        (Scene.checkUse_iff indexed gathers closed laidOut (some index)).mp
          (((blocks block laidOut).1 index instruction found).1 operand member)
      availableAtEnd := fun block laidOut operand member =>
        (Scene.checkUse_iff indexed gathers closed laidOut none).mp
          ((blocks block laidOut).2.1 operand member)
      typed := by
        intro block laidOut instruction member
        rcases List.mem_iff_getElem?.mp member with ⟨index, found⟩
        exact (Scene.checkInstruction_iff gathers).mp
          ((blocks block laidOut).1 index instruction found).2
      typedAtEnd := fun block laidOut =>
        Scene.checkTerminator_iff.mp (blocks block laidOut).2.2 }
  · intro wellFormed
    rcases (Definitions.collect_succeeds_iff indexed).mpr wellFormed.single with
      ⟨definitions, collected⟩
    have gathers := Definitions.gathers_collect collected
    refine ⟨⟨wellFormed.nonempty, wellFormed.attached, ?_, wellFormed.entered⟩, definitions,
      collected, ?_⟩
    · exact fun block laidOut =>
        ⟨wellFormed.terminated block laidOut, wellFormed.closed block laidOut⟩
    · intro block laidOut
      refine Scene.checkBlock_eq_ok.mpr ⟨?_, ?_, ?_⟩
      · intro index instruction found
        refine ⟨fun operand member => ?_, ?_⟩
        · exact (Scene.checkUse_iff indexed gathers wellFormed.closed laidOut
            (some index)).mpr
              (wellFormed.available block laidOut index instruction found operand member)
        · exact (Scene.checkInstruction_iff gathers).mpr
            (wellFormed.typed block laidOut instruction (List.mem_of_getElem? found))
      · intro operand member
        exact (Scene.checkUse_iff indexed gathers wellFormed.closed laidOut
          none).mpr (wellFormed.availableAtEnd block laidOut operand member)
      · exact Scene.checkTerminator_iff.mpr (wellFormed.typedAtEnd block laidOut)

/-- The verifier accepts the well-formed functions and no others. -/
theorem verifyFunction_iff_wellFormed {module : Module} {function : Function}
    (indexed : function.body.Indexed) :
    module.verifyFunction function = .ok () ↔ function.WellFormed module :=
  Module.verifyFunction_eq_ok.trans (Function.checkFunction_iff indexed)

/-- The loop of `waitFunction` uses a slot of its entry block, and a temp of the loop is used
in its branch. -/
theorem waitFunction_wellFormed :
    waitFunction.body.Indexed ∧ waitModule.verifyFunction waitFunction = .ok () ∧
      waitFunction.WellFormed waitModule := by
  have indexed := waitFunction_represented.indexed
  have accepted : waitModule.verifyFunction waitFunction = .ok () := by cbv
  exact ⟨indexed, accepted, (verifyFunction_iff_wellFormed indexed).mp accepted⟩

end ScriptLowering.Code
