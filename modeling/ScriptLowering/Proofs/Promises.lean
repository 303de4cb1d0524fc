import Mathlib.Logic.Function.Basic
import ScriptLowering.Proofs.FinishedFunctions
import ScriptLowering.Proofs.MachineAtPlace
import ScriptLowering.Proofs.WellFormedFunctions

/-! # Promises

Whether the verifier accepts a function can be followed while the function is built. Every block is
promised something when it is created: a reason without which control does not come to it, and temps
that are defined on every way to it. What ends a block has to keep the promises made to its targets.
If all promises are kept, what a block is promised dominates it.
-/

namespace ScriptLowering.Code

/-- What can be relied on where a block begins. -/
structure Promise where
  /-- Control comes there only if this is the case. -/
  reason : Prop
  /-- These temps are defined on every way. -/
  temps : TempId → Prop

abbrev Promises := BlockId → Promise

/-- The operand exists where the temps `known` are defined. -/
def Signature.Offers (module : Module) (signature : Signature) (known : TempId → Prop) :
    Operand → Prop
  | .temp temp => known temp
  | .param id => id.number.toNat < signature.params.length
  | .global id => ∃ global, module.global? id = some global
  | .data id => ∃ object, module.data.get? id = some object
  | .constant _ => True

theorem Signature.Offers.mono {module : Module} {signature : Signature}
    {known more : TempId → Prop} {operand : Operand}
    (offers : signature.Offers module known operand)
    (knows : ∀ temp, known temp → more temp) : signature.Offers module more operand := by
  cases operand with
  | temp temp => exact knows temp offers
  | param | global | data | constant => exact offers

abbrev Function.withBody (function : Function) (body : Body) : Function :=
  { function with body := body }

/-! ## Bodies that grow -/

/-- What could be referred to in `body` can be referred to in `next`. -/
structure Body.Later (body next : Body) : Prop where
  numbers : body.nextBlock.toNat ≤ next.nextBlock.toNat
  layout : ∀ id ∈ body.layout, id ∈ next.layout
  temps : ∀ id ty, body.tempType? id = some ty → next.tempType? id = some ty
  code : ∀ site ∈ body.code, site ∈ next.code

namespace Body.Later

variable {first second third : Body}

theorem refl (body : Body) : body.Later body :=
  ⟨Nat.le_refl _, fun _ => id, fun _ _ => id, fun _ => id⟩

theorem trans (left : first.Later second) (right : second.Later third) : first.Later third where
  numbers := Nat.le_trans left.numbers right.numbers
  layout := fun id member => right.layout id (left.layout id member)
  temps := fun id ty found => right.temps id ty (left.temps id ty found)
  code := fun site member => right.code site (left.code site member)

end Body.Later

theorem Place.Regular.mem_code_iff {place : Place} (regular : place.Regular) {site : Site} :
    site ∈ place.body.code ↔ site.block ∈ place.body.layout ∧ ∃ block,
      place.body.block? site.block = some block ∧
        block.instructions[site.index]? = some site.instruction := by
  rw [Body.mem_code]
  constructor
  · rintro ⟨block, laidOut, isBlock, found⟩
    rcases Body.mem_laidOut.mp laidOut with ⟨id, member, foundBlock⟩
    rw [isBlock, regular.named id block foundBlock]
    exact ⟨member, block, foundBlock, found⟩
  · rintro ⟨member, block, foundBlock, found⟩
    exact ⟨block, Body.mem_laidOut.mpr ⟨_, member, foundBlock⟩,
      (regular.named _ block foundBlock).symm, found⟩

theorem Place.Within.later {place after : Place} {base : Nat} (within : place.Within base after)
    (above : place.body.nextBlock.toNat ≤ base) (regular : place.Regular)
    (regularAfter : after.Regular) : place.body.Later after.body where
  numbers := within.blocks
  layout := by
    rcases within.layout with ⟨more, grows, _⟩
    intro id member
    rw [grows]
    exact List.mem_append_left _ member
  temps := by
    intro id ty found
    rcases within.temps with ⟨more, grows⟩
    rw [Body.tempType?, ← Array.getElem?_toList] at found ⊢
    rw [grows, List.getElem?_append_left (List.getElem?_eq_some_iff.mp found).1]
    exact found
  code := by
    intro site member
    rcases (regular.mem_code_iff).mp member with ⟨laidOut, block, foundBlock, found⟩
    have old := regular.numbered _ block foundBlock
    refine regularAfter.mem_code_iff.mpr ⟨?_, ?_⟩
    · rcases within.layout with ⟨more, grows, _⟩
      rw [grows]
      exact List.mem_append_left _ laidOut
    · by_cases stands : place.block = some site.block
      · rcases within.extended _ block (Nat.lt_of_lt_of_le old above) stands foundBlock with
          ⟨grown, foundGrown, extended⟩
        rcases extended.instructions with ⟨more, instructions⟩
        refine ⟨grown, foundGrown, ?_⟩
        rw [instructions, List.getElem?_append_left (List.getElem?_eq_some_iff.mp found).1]
        exact found
      · exact ⟨block, (within.kept _ (Nat.lt_of_lt_of_le old above) stands).trans foundBlock, found⟩

section Later

variable {module : Module} {host : Function} {body next : Body} (grows : body.Later next)

include grows

theorem Function.Provides.later {operand : Operand} {ty : Ty}
    (provides : (host.withBody body).Provides operand ty) :
    (host.withBody next).Provides operand ty := by
  cases provides with
  | temp recorded => exact .temp (grows.temps _ _ recorded)
  | param listed => exact .param listed
  | global => exact .global
  | data => exact .data
  | bool => exact .bool
  | int => exact .int
  | nullPointer => exact .nullPointer
  | nullHandle => exact .nullHandle

theorem Function.Addresses.later {operand : Operand} {ty : Ty}
    (addresses : (host.withBody body).Addresses module operand ty) :
    (host.withBody next).Addresses module operand ty := by
  cases addresses with
  | slot reserved => exact .slot (grows.code _ reserved)
  | global known => exact .global known

theorem Function.TypedInstruction.later {instruction : Instruction}
    (typed : (host.withBody body).TypedInstruction module instruction) :
    (host.withBody next).TypedInstruction module instruction := by
  cases typed with
  | alloca notVoid => exact .alloca notVoid
  | load stored => exact .load (stored.later grows)
  | store stored provided => exact .store (stored.later grows) (provided.later grows)
  | arith first second => exact .arith (first.later grows) (second.later grows)
  | negate provided => exact .negate (provided.later grows)
  | compareTruths first second => exact .compareTruths (first.later grows) (second.later grows)
  | compareNumbers first second => exact .compareNumbers (first.later grows) (second.later grows)
  | callNothing known provided returns =>
      exact .callNothing known (provided.imp fun _ _ provides => provides.later grows) returns
  | callValue known provided returns =>
      exact .callValue known (provided.imp fun _ _ provides => provides.later grows)
        (returns.later grows)

theorem Function.TypedTerminator.later {terminator : Terminator}
    (typed : (host.withBody body).TypedTerminator terminator) :
    (host.withBody next).TypedTerminator terminator := by
  cases typed with
  | jump => exact .jump
  | branch provided => exact .branch (provided.later grows)
  | nothing returns => exact .nothing returns
  | value notVoid provided => exact .value notVoid (provided.later grows)

end Later

/-! ## Keeping promises -/

/-- The temp is defined when the first `count` instructions of the block have been executed. -/
def Block.Knows (promises : Promises) (block : Block) (count : Nat) (temp : TempId) : Prop :=
  (promises block.id).temps temp ∨ ∃ index < count, ∃ instruction,
    block.instructions[index]? = some instruction ∧ instruction.defined? = some temp

/-- The block uses nothing but what it may rely on, and its end keeps the promises made to its
targets. -/
structure Block.Honours (module : Module) (function : Function) (promises : Promises)
    (block : Block) : Prop where
  uses : ∀ index instruction, block.instructions[index]? = some instruction →
    ∀ operand ∈ instruction.operands,
      function.signature.Offers module (block.Knows promises index) operand
  typed : ∀ instruction ∈ block.instructions, function.TypedInstruction module instruction
  usesAtEnd : ∀ operand ∈ block.terminator.operands,
    function.signature.Offers module (block.Knows promises block.instructions.length) operand
  typedAtEnd : block.isTerminated = true → function.TypedTerminator block.terminator
  edges : ∀ target ∈ block.successors, (promises target).reason ∧
    ∀ temp, (promises target).temps temp → block.Knows promises block.instructions.length temp

/-- Every laid-out block keeps its promises. Edges lead to blocks that are laid out or are yet to be
entered. -/
structure Place.Honours (module : Module) (host : Function) (promises : Promises)
    (pending : List BlockId) (place : Place) : Prop where
  blocks : ∀ id ∈ place.body.layout, ∀ block, place.body.block? id = some block →
    block.Honours module (host.withBody place.body) promises
  reached : ∀ id ∈ place.body.layout, (promises id).reason
  targets : ∀ id ∈ place.body.layout, ∀ block, place.body.block? id = some block →
    ∀ target ∈ block.successors, target.number.toNat < place.body.nextBlock.toNat ∧
      (target ∈ place.body.layout ∨ target ∈ pending)

/-! ## Dominance -/

theorem Path.elim_of_revisits {entry : Option BlockId} {edge : BlockId → BlockId → Prop}
    {target : BlockId} (revisits : ∀ blocks, Path entry edge blocks target → target ∈ blocks.dropLast)
    {blocks : List BlockId} (path : Path entry edge blocks target) : False := by
  induction length : blocks.length using Nat.strongRecOn generalizing blocks with
  | ind count induction =>
      have visited := revisits blocks path
      cases path with
      | entry _ => cases visited
      | step path leads =>
          rw [List.dropLast_concat] at visited
          rcases path.exists_of_mem visited with ⟨others, shorter, fewer⟩
          rw [List.length_append, List.length_singleton] at length
          exact induction others.length (by omega) shorter rfl

section Dominance

variable {module : Module} {function : Function} {promises : Promises}
  (honours : ∀ block ∈ function.body.laidOut, block.Honours module function promises)
  (start : ∀ entry, function.entry? = some entry → ∀ temp, ¬ (promises entry).temps temp)

include honours start

theorem Path.exists_site {blocks : List BlockId} {target : BlockId} {temp : TempId}
    (path : Path function.entry? function.Leads blocks target)
    (promised : (promises target).temps temp) :
    ∃ site ∈ function.body.code, site.instruction.defined? = some temp ∧
      site.block ∈ blocks.dropLast := by
  induction path with
  | entry starts => exact absurd promised (start _ starts temp)
  | @step blocks source target path leads induction =>
      rw [List.dropLast_concat]
      rcases leads with ⟨block, laidOut, isSource, edge⟩
      rcases ((honours block laidOut).edges target edge).2 temp promised with
        early | ⟨index, _, instruction, found, defines⟩
      · rw [isSource] at early
        rcases induction early with ⟨site, member, defines, visited⟩
        exact ⟨site, member, defines, List.dropLast_subset _ visited⟩
      · refine ⟨⟨block.id, index, instruction⟩, Body.mem_code.mpr ⟨block, laidOut, rfl, found⟩,
          defines, ?_⟩
        change block.id ∈ blocks
        rw [isSource]
        exact path.mem_target

/-- A temp that is promised to a block is defined in another block that dominates it. -/
theorem Function.exists_dominating_site
    (single : ∀ first ∈ function.body.code, ∀ second ∈ function.body.code, ∀ temp,
      first.instruction.defined? = some temp → second.instruction.defined? = some temp →
        first = second)
    {target : BlockId} (reachable : ∃ blocks, Path function.entry? function.Leads blocks target)
    {temp : TempId} (promised : (promises target).temps temp) :
    ∃ site ∈ function.body.code, site.instruction.defined? = some temp ∧ site.block ≠ target ∧
      function.Dominates site.block target := by
  rcases reachable with ⟨blocks, path⟩
  rcases path.exists_site honours start promised with ⟨site, member, defines, _⟩
  have visited : ∀ others, Path function.entry? function.Leads others target →
      site.block ∈ others.dropLast := by
    intro others otherPath
    rcases otherPath.exists_site honours start promised with ⟨other, otherMember, otherDefines, early⟩
    rw [single site member other otherMember temp defines otherDefines]
    exact early
  refine ⟨site, member, defines, ?_, ⟨blocks, path⟩,
    fun others otherPath => List.dropLast_subset _ (visited others otherPath)⟩
  rintro rfl
  exact Path.elim_of_revisits visited path

end Dominance

/-! ## Functions that keep all promises -/

theorem Block.Honours.later {module : Module} {host : Function} {body next : Body}
    {promises : Promises} {block : Block}
    (honours : block.Honours module (host.withBody body) promises) (grows : body.Later next) :
    block.Honours module (host.withBody next) promises where
  uses := honours.uses
  typed := fun instruction member => (honours.typed instruction member).later grows
  usesAtEnd := honours.usesAtEnd
  typedAtEnd := fun ended => (honours.typedAtEnd ended).later grows
  edges := honours.edges

theorem Body.laidOut_prune (body : Body) : body.prune.laidOut = body.laidOut := by
  apply List.filterMap_congr
  intro id member
  exact Place.block?_prune_of_mem member

theorem Body.later_prune (body : Body) : body.Later body.prune where
  numbers := Nat.le_refl _
  layout := fun _ => id
  temps := fun _ _ => id
  code := by
    intro site member
    rw [Body.code, Body.laidOut_prune]
    exact member

section Complete

variable {module : Module} {function : Function} {promises : Promises} {place : Place}

theorem Function.available_of_offers (indexed : function.body.Indexed)
    (honours : ∀ block ∈ function.body.laidOut, block.Honours module function promises)
    (start : ∀ entry, function.entry? = some entry → ∀ temp, ¬ (promises entry).temps temp)
    (single : ∀ first ∈ function.body.code, ∀ second ∈ function.body.code, ∀ temp,
      first.instruction.defined? = some temp → second.instruction.defined? = some temp →
        first = second)
    (reachable : ∀ id ∈ function.body.layout, ∃ blocks,
      Path function.entry? function.Leads blocks id)
    {block : Block} (laidOut : block ∈ function.body.laidOut) {count : Nat} {operand : Operand}
    (offers : function.signature.Offers module (block.Knows promises count) operand) :
    function.Available module block.id count operand := by
  cases operand with
  | temp temp =>
      rcases offers with promised | ⟨index, before, instruction, found, defines⟩
      · have member := (indexed.mem_laidOut_iff.mp laidOut).1
        rcases Function.exists_dominating_site honours start single (reachable _ member) promised with
          ⟨site, isSite, defines, other, dominates⟩
        exact .elsewhere isSite defines other dominates
      · have isSite : ⟨block.id, index, instruction⟩ ∈ function.body.code :=
          Body.mem_code.mpr ⟨block, laidOut, rfl, found⟩
        exact .earlier isSite defines rfl before
  | param id => exact .param offers
  | global id =>
      rcases offers with ⟨global, known⟩
      exact .global known
  | data id =>
      rcases offers with ⟨object, known⟩
      exact .data known
  | constant value => exact .constant

/-- A function that has been built to its end, with nothing left to enter, is well formed. -/
theorem Place.Honours.wellFormed (honours : place.Honours module function promises [])
    (regular : place.Regular) (ended : place.isLive = false)
    (start : ∀ temp, ¬ (promises ⟨0⟩).temps temp) (body : function.body = place.pruned.body) :
    function.WellFormed module := by
  have shaped := regular.wellShaped body
  have indexed : function.body.Indexed := by
    rw [body]
    exact regular.indexed_prune
  have layout : function.body.layout = place.body.layout := by
    rw [body]
    rfl
  have isPlaced : ∀ block ∈ function.body.laidOut, block.id ∈ place.body.layout ∧
      place.body.block? block.id = some block := by
    intro block laidOut
    rcases indexed.mem_laidOut_iff.mp laidOut with ⟨member, found⟩
    rw [body] at found
    exact block?_of_prune found
  have isFunction : function.withBody place.body.prune = function := by
    rcases function with ⟨signature, linkage, _⟩
    cases body
    rfl
  have blocks : ∀ block ∈ function.body.laidOut, block.Honours module function promises := by
    intro block laidOut
    rcases isPlaced block laidOut with ⟨member, found⟩
    rw [← isFunction]
    exact (honours.blocks _ member block found).later place.body.later_prune
  have entry : function.entry? = some ⟨0⟩ := by
    rcases regular.entry with ⟨_, heads, _⟩
    rw [Function.entry?, layout]
    exact heads
  have starts : ∀ entry, function.entry? = some entry → ∀ temp, ¬ (promises entry).temps temp := by
    intro other isEntry
    rw [entry] at isEntry
    cases isEntry
    exact start
  have single : ∀ first ∈ function.body.code, ∀ second ∈ function.body.code, ∀ temp,
      first.instruction.defined? = some temp → second.instruction.defined? = some temp →
        first = second := by
    intro first firstMember second secondMember temp firstDefines secondDefines
    have defines : ∀ site ∈ function.body.code, site.instruction.defined? = some temp →
        function.body.Defines site.block site.index temp := by
      intro site member isDefined
      rcases Body.mem_code.mp member with ⟨block, laidOut, isBlock, found⟩
      refine ⟨block, site.instruction, ?_, found, isDefined⟩
      rw [isBlock]
      exact (indexed.mem_laidOut_iff.mp laidOut).2
    rcases shaped.single _ _ _ _ temp (defines first firstMember firstDefines)
      (defines second secondMember secondDefines) with ⟨sameBlock, sameIndex⟩
    exact indexed.eq_of_site firstMember secondMember sameBlock sameIndex
  have reachable : ∀ id ∈ function.body.layout, ∃ blocks,
      Path function.entry? function.Leads blocks id := by
    intro id member
    have reaches := FlowGraph.mem_reachable_iff.mp (shaped.reachable id member)
    rw [← Function.edge_eq_leads indexed.keyed]
    exact FlowGraph.reaches_iff_path.mp reaches
  have available := @Function.available_of_offers module function promises indexed blocks starts
    single reachable
  have terminated : ∀ block ∈ function.body.laidOut, block.isTerminated = true := by
    intro block laidOut
    rcases isPlaced block laidOut with ⟨member, found⟩
    by_contra isOpen
    have unfinished : block.isTerminated = false := by simpa using isOpen
    have stands := regular.terminated _ member block found unfinished
    rw [isLive_of_block stands member found unfinished] at ended
    cases ended
  exact {
    nonempty := by
      intro empty
      rw [Function.entry?, empty] at entry
      cases entry
    attached := fun id block found => (shaped.arena id).mp (Table.mem_keys_iff.mpr ⟨block, found⟩)
    terminated := fun block laidOut => Function.isTerminated_iff.mp (terminated block laidOut)
    closed := by
      intro block laidOut target edge
      rcases isPlaced block laidOut with ⟨member, found⟩
      rw [layout]
      rcases (honours.targets _ member block found target edge).2 with placed | pending
      · exact placed
      · cases pending
    entered := by
      intro id member notEntry
      rcases List.mem_iff_append.mp member with ⟨before, after, splits⟩
      have nonempty : before ≠ [] := by
        rintro rfl
        rw [Function.entry?, splits] at notEntry
        exact notEntry rfl
      rcases shaped.earlier before id after splits nonempty with
        ⟨previous, isEarlier, block, found, leads⟩
      have laidOut : previous ∈ function.body.layout := by
        rw [splits]
        exact List.mem_append_left _ isEarlier
      exact ⟨block.id, block, Body.mem_laidOut.mpr ⟨previous, laidOut, found⟩, rfl, leads⟩
    single := single
    available := fun block laidOut index instruction found operand member =>
      available laidOut ((blocks block laidOut).uses index instruction found operand member)
    availableAtEnd := fun block laidOut operand member =>
      available laidOut ((blocks block laidOut).usesAtEnd operand member)
    typed := fun block laidOut => (blocks block laidOut).typed
    typedAtEnd := fun block laidOut =>
      (blocks block laidOut).typedAtEnd (terminated block laidOut) }

end Complete

end ScriptLowering.Code
