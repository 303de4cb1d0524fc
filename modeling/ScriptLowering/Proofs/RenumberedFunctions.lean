import ScriptLowering.Proofs.TandemBuilding
import ScriptLowering.Proofs.WellFormedFunctions

/-! # Renumbered functions

Whether a function is well formed does not depend on the numbers of its blocks, temps and data. So the
verifier accepts a function if it accepts another one with the same code.
-/

namespace ScriptLowering.Code

/-! ## Lists of counterparts -/

section Lists

variable {α β γ δ : Type} {related : α → β → Prop} {left : List α} {right : List β}

theorem exists_of_forall₂_right (all : List.Forall₂ related left right) {other : β}
    (member : other ∈ right) : ∃ item ∈ left, related item other :=
  exists_of_forall₂ (List.Forall₂.flip (R := flip related) all) member

theorem forall₂_filterMap {others : γ → δ → Prop} {pick : α → Option γ} {otherPick : β → Option δ}
    (all : List.Forall₂ related left right)
    (picks : ∀ item ∈ left, ∀ other, related item other →
      Option.Rel others (pick item) (otherPick other)) :
    List.Forall₂ others (left.filterMap pick) (right.filterMap otherPick) := by
  induction all with
  | nil => exact .nil
  | @cons item other _ _ first _ induction =>
      have rest := induction fun item member => picks item (List.mem_cons_of_mem _ member)
      have picked := picks item List.mem_cons_self other first
      rw [List.filterMap_cons, List.filterMap_cons]
      cases found : pick item <;> cases otherFound : otherPick other <;>
        rw [found, otherFound] at picked <;> cases picked
      · exact rest
      · rename_i holds
        exact .cons holds rest

theorem getElem?_of_forall₂ (all : List.Forall₂ related left right) {index : Nat} {other : β}
    (found : right[index]? = some other) : ∃ item, left[index]? = some item ∧ related item other := by
  induction all generalizing index with
  | nil => cases found
  | cons first _ induction =>
      cases index with
      | zero =>
          cases found
          exact ⟨_, rfl, first⟩
      | succ index => exact induction found

end Lists

/-! ## Code in the same order -/

variable {pairing : Pairing}

theorem Operand.Pairs.asTemp? {operand other : Operand} (pairs : operand.Pairs pairing other) :
    Option.Rel pairing.temps operand.asTemp? other.asTemp? := by
  cases pairs with
  | temp paired => exact .some paired
  | param | global | data | constant => exact .none

theorem Instruction.Pairs.defined? {instruction other : Instruction}
    (pairs : instruction.Pairs pairing other) :
    Option.Rel pairing.temps instruction.defined? other.defined? := by
  cases pairs with
  | alloca results | load results | arith results | negate results | compare results =>
      exact results.asTemp?
  | store => exact .none
  | call results =>
      cases results with
      | none => exact .none
      | some results => exact results.asTemp?

theorem Instruction.Pairs.operands {instruction other : Instruction}
    (pairs : instruction.Pairs pairing other) :
    List.Forall₂ (Operand.Pairs pairing) instruction.operands other.operands := by
  cases pairs with
  | alloca => exact .nil
  | load _ addresses => exact .cons addresses .nil
  | store addresses values => exact .cons addresses (.cons values .nil)
  | arith _ lefts rights | compare _ lefts rights => exact .cons lefts (.cons rights .nil)
  | negate _ operands => exact .cons operands .nil
  | call _ arguments => exact arguments

theorem Terminator.Pairs.operands {terminator other : Terminator}
    (pairs : terminator.Pairs pairing other) :
    List.Forall₂ (Operand.Pairs pairing) terminator.operands other.operands := by
  cases pairs with
  | jump | unfinished => exact .nil
  | branch conditions => exact .cons conditions .nil
  | ret values =>
      cases values with
      | none => exact .nil
      | some values => exact .cons values .nil

structure Site.Pairs (pairing : Pairing) (site other : Site) : Prop where
  blocks : pairing.blocks site.block other.block
  index : other.index = site.index
  instructions : site.instruction.Pairs pairing other.instruction

theorem Block.Pairs.code {block other : Block} (pairs : block.Pairs pairing other) :
    List.Forall₂ (Site.Pairs pairing) block.code other.code := by
  have sites : ∀ start, List.Forall₂
      (fun first second : Instruction × Nat => Site.Pairs pairing ⟨block.id, first.2, first.1⟩
        ⟨other.id, second.2, second.1⟩)
      (block.instructions.zipIdx start) (other.instructions.zipIdx start) := by
    have instructions := pairs.instructions
    generalize block.instructions = left at instructions ⊢
    generalize other.instructions = right at instructions ⊢
    induction instructions with
    | nil => exact fun _ => .nil
    | cons first _ induction => exact fun start => .cons ⟨pairs.ids, rfl, first⟩ (induction (start + 1))
  rw [Block.code, Block.code, List.forall₂_map_left_iff, List.forall₂_map_right_iff]
  exact sites 0

namespace Body.Matches

variable {body other : Body}

theorem laidOut (agrees : body.Matches pairing other) :
    List.Forall₂ (Block.Pairs pairing) body.laidOut other.laidOut := by
  refine forall₂_filterMap agrees.pairs.layout fun id member counterpart paired => ?_
  rcases agrees.pairs.blocks id counterpart paired member with ⟨block, mirrored, found, isMirrored, pairs⟩
  rw [found, isMirrored]
  exact .some pairs

theorem code (agrees : body.Matches pairing other) :
    List.Forall₂ (Site.Pairs pairing) body.code other.code :=
  List.rel_flatMap agrees.laidOut fun _ _ pairs => pairs.code

end Body.Matches

/-! ## Paths -/

/-- A path leads along the counterparts of its blocks as well. -/
theorem Path.across {entry other : Option BlockId} {edge otherEdge pairs : BlockId → BlockId → Prop}
    (entries : Option.Rel pairs entry other)
    (edges : ∀ first second mirrored, edge first second → pairs first mirrored →
      ∃ next, otherEdge mirrored next ∧ pairs second next)
    {blocks : List BlockId} {target : BlockId} (path : Path entry edge blocks target) :
    ∃ others counterpart, Path other otherEdge others counterpart ∧
      List.Forall₂ pairs blocks others ∧ pairs target counterpart := by
  induction path with
  | entry starts =>
      rcases entries.exists_right starts with ⟨counterpart, otherStarts, paired⟩
      exact ⟨_, counterpart, .entry otherStarts, .cons paired .nil, paired⟩
  | step _ leads induction =>
      rcases induction with ⟨others, counterpart, path, blocks, paired⟩
      rcases edges _ _ _ leads paired with ⟨next, otherLeads, pairedNext⟩
      exact ⟨_, _, path.step otherLeads, List.rel_append blocks (.cons pairedNext .nil), pairedNext⟩

namespace Function

theorem leads_across {function other : Function} {pairs : BlockId → BlockId → Prop}
    (unique : ∀ id first second, pairs id first → pairs id second → first = second)
    (blocks : List.Forall₂
      (fun block mirrored : Block => pairs block.id mirrored.id ∧
        List.Forall₂ pairs block.successors mirrored.successors)
      function.body.laidOut other.body.laidOut)
    {first second mirrored : BlockId} (leads : function.Leads first second)
    (paired : pairs first mirrored) : ∃ next, other.Leads mirrored next ∧ pairs second next := by
  rcases leads with ⟨block, laidOut, rfl, edge⟩
  rcases exists_of_forall₂ blocks laidOut with ⟨counterpart, otherLaidOut, ids, successors⟩
  rcases exists_of_forall₂ successors edge with ⟨next, otherEdge, pairedNext⟩
  exact ⟨next, ⟨counterpart, otherLaidOut, unique _ _ _ ids paired, otherEdge⟩, pairedNext⟩

/-- The function `other` of the second module has the code of the function, up to numbers, and can
refer to the same functions and globals and to its own data. -/
structure Renumbers (pairing : Pairing) (module otherModule : Module) (function other : Function) :
    Prop where
  code : function.body.Matches pairing other.body
  signature : other.signature = function.signature
  headings : module.SameHeadings otherModule
  globals : otherModule.globals = module.globals
  data : ∀ id counterpart, pairing.data id counterpart →
    ∃ object, otherModule.data.get? counterpart = some object

namespace Renumbers

variable {module otherModule : Module} {function other : Function}
  (renumbers : function.Renumbers pairing module otherModule other)

include renumbers

/-! ### Flow -/

theorem entries : Option.Rel pairing.blocks function.entry? other.entry? := by
  have layout := renumbers.code.pairs.layout
  unfold Function.entry?
  generalize function.body.layout = left at layout ⊢
  generalize other.body.layout = right at layout ⊢
  cases layout with
  | nil => exact .none
  | cons first _ => exact .some first

theorem leads {first second mirrored : BlockId} (leads : function.Leads first second)
    (paired : pairing.blocks first mirrored) :
    ∃ next, other.Leads mirrored next ∧ pairing.blocks second next := by
  have unique : ∀ id first second, pairing.blocks id first → pairing.blocks id second →
      first = second := fun _ _ _ => renumbers.code.blocksInOrder.right_unique
  refine leads_across unique ?_ leads paired
  exact renumbers.code.laidOut.imp fun _ _ pairs => ⟨pairs.ids, pairs.terminators.successors⟩

theorem leads_back {first second mirrored : BlockId} (leads : other.Leads first second)
    (paired : pairing.blocks mirrored first) :
    ∃ next, function.Leads mirrored next ∧ pairing.blocks next second := by
  have unique : ∀ id first second, flip pairing.blocks id first → flip pairing.blocks id second →
      first = second := fun _ _ _ => renumbers.code.blocksInOrder.left_unique
  refine leads_across unique ?_ leads paired
  refine List.Forall₂.flip (renumbers.code.laidOut.imp fun _ _ pairs => ⟨pairs.ids, ?_⟩)
  exact List.Forall₂.flip (R := flip pairing.blocks) pairs.terminators.successors

theorem dominates {first second mirrored counterpart : BlockId}
    (dominates : function.Dominates first second) (paired : pairing.blocks first mirrored)
    (pairedSecond : pairing.blocks second counterpart) : other.Dominates mirrored counterpart := by
  have inOrder := renumbers.code.blocksInOrder
  rcases dominates with ⟨⟨blocks, path⟩, through⟩
  constructor
  · rcases path.across renumbers.entries fun _ _ _ leads paired => renumbers.leads leads paired with
      ⟨others, target, otherPath, _, isTarget⟩
    rw [inOrder.right_unique pairedSecond isTarget]
    exact ⟨others, otherPath⟩
  · intro others otherPath
    rcases otherPath.across renumbers.entries.flip fun _ _ _ leads paired =>
      renumbers.leads_back leads paired with ⟨blocks, target, path, along, isTarget⟩
    cases inOrder.left_unique pairedSecond isTarget
    rcases exists_of_forall₂_right along (through blocks path) with ⟨passed, isPassed, isFirst⟩
    rw [inOrder.right_unique paired isFirst]
    exact isPassed

/-! ### Operands -/

theorem provides {operand counterpart : Operand} {ty : Ty} (provides : function.Provides operand ty)
    (pairs : operand.Pairs pairing counterpart) : other.Provides counterpart ty := by
  cases pairs with
  | temp paired =>
      cases provides with
      | temp recorded =>
          rcases renumbers.code.pairs.temps _ _ paired with ⟨ty, known, otherKnown⟩
          cases known.symm.trans recorded
          exact .temp otherKnown
  | param =>
      cases provides with
      | param listed => exact .param (renumbers.signature ▸ listed)
  | global =>
      cases provides
      exact .global
  | data =>
      cases provides
      exact .data
  | constant =>
      cases provides with
      | bool => exact .bool
      | int => exact .int
      | nullPointer => exact .nullPointer
      | nullHandle => exact .nullHandle

theorem addresses {operand counterpart : Operand} {ty : Ty}
    (addresses : function.Addresses module operand ty) (pairs : operand.Pairs pairing counterpart) :
    other.Addresses otherModule counterpart ty := by
  cases addresses with
  | slot reserved =>
      cases pairs with
      | temp paired =>
          rcases exists_of_forall₂ renumbers.code.code reserved with ⟨⟨_, _, _⟩, member, sites⟩
          cases sites.instructions with
          | alloca results =>
              cases results with
              | temp defines =>
                  cases renumbers.code.tempsInOrder.right_unique paired defines
                  exact .slot member
  | global known =>
      cases pairs with
      | global =>
          rw [Module.global?, ← renumbers.globals] at known
          exact .global known

theorem site {site : Site} (member : site ∈ function.body.code) {temp counterpart : TempId}
    (defines : site.instruction.defined? = some temp) (paired : pairing.temps temp counterpart) :
    ∃ mirrored ∈ other.body.code, mirrored.instruction.defined? = some counterpart ∧
      site.Pairs pairing mirrored := by
  rcases exists_of_forall₂ renumbers.code.code member with ⟨mirrored, isMirrored, sites⟩
  rcases sites.instructions.defined?.exists_right defines with ⟨result, isDefined, isResult⟩
  cases renumbers.code.tempsInOrder.right_unique paired isResult
  exact ⟨mirrored, isMirrored, isDefined, sites⟩

theorem site_back {mirrored : Site} (member : mirrored ∈ other.body.code) {counterpart : TempId}
    (defines : mirrored.instruction.defined? = some counterpart) :
    ∃ site ∈ function.body.code, ∃ temp, site.instruction.defined? = some temp ∧
      pairing.temps temp counterpart ∧ site.Pairs pairing mirrored := by
  rcases exists_of_forall₂_right renumbers.code.code member with ⟨site, isSite, sites⟩
  rcases sites.instructions.defined?.exists_left defines with ⟨temp, isDefined, paired⟩
  exact ⟨site, isSite, temp, isDefined, paired, sites⟩

theorem available {block mirrored : BlockId} {place : Nat} {operand counterpart : Operand}
    (available : function.Available module block place operand)
    (blocks : pairing.blocks block mirrored) (pairs : operand.Pairs pairing counterpart) :
    other.Available otherModule mirrored place counterpart := by
  have inOrder := renumbers.code.blocksInOrder
  cases pairs with
  | temp paired =>
      cases available with
      | earlier member defines here before =>
          rcases renumbers.site member defines paired with ⟨site, isSite, otherDefines, sites⟩
          refine .earlier isSite otherDefines ?_ (sites.index ▸ before)
          exact (inOrder _ _ _ _ sites.blocks blocks).1.mp here
      | elsewhere member defines elsewhere dominates =>
          rcases renumbers.site member defines paired with ⟨site, isSite, otherDefines, sites⟩
          refine .elsewhere isSite otherDefines ?_ (renumbers.dominates dominates sites.blocks blocks)
          exact fun here => elsewhere ((inOrder _ _ _ _ sites.blocks blocks).1.mpr here)
  | param =>
      cases available with
      | param listed => exact .param (renumbers.signature ▸ listed)
  | global =>
      cases available with
      | global known =>
          rw [Module.global?, ← renumbers.globals] at known
          exact .global known
  | data paired =>
      rcases renumbers.data _ _ paired with ⟨object, known⟩
      exact .data known
  | constant => exact .constant

/-! ### Types -/

theorem callee {name : String} {target : Function} (known : module.function? name = some target) :
    ∃ otherTarget, otherModule.function? name = some otherTarget ∧
      otherTarget.signature = target.signature := by
  have headings := renumbers.headings.headings name
  rw [known, Option.map_some] at headings
  rcases Option.map_eq_some_iff.mp headings with ⟨otherTarget, otherKnown, same⟩
  exact ⟨otherTarget, otherKnown, congrArg Prod.fst same⟩

theorem providesAll {operands counterparts : List Operand} {params : List Parameter}
    (all : List.Forall₂ (fun operand (parameter : Parameter) =>
      function.Provides operand parameter.ty) operands params)
    (pairs : List.Forall₂ (Operand.Pairs pairing) operands counterparts) :
    List.Forall₂ (fun operand (parameter : Parameter) => other.Provides operand parameter.ty)
      counterparts params := by
  induction pairs generalizing params with
  | nil =>
      cases all
      exact .nil
  | cons first _ induction =>
      cases all with
      | cons provides rest => exact .cons (renumbers.provides provides first) (induction rest)

theorem typedInstruction {instruction counterpart : Instruction}
    (typed : function.TypedInstruction module instruction)
    (pairs : instruction.Pairs pairing counterpart) :
    other.TypedInstruction otherModule counterpart := by
  cases pairs with
  | alloca =>
      cases typed with
      | alloca notVoid => exact .alloca notVoid
  | load _ addresses =>
      cases typed with
      | load stored => exact .load (renumbers.addresses stored addresses)
  | store addresses values =>
      cases typed with
      | store stored provided =>
          exact .store (renumbers.addresses stored addresses) (renumbers.provides provided values)
  | arith _ lefts rights =>
      cases typed with
      | arith first second =>
          exact .arith (renumbers.provides first lefts) (renumbers.provides second rights)
  | negate _ operands =>
      cases typed with
      | negate provided => exact .negate (renumbers.provides provided operands)
  | compare _ lefts rights =>
      cases typed with
      | compareTruths first second =>
          exact .compareTruths (renumbers.provides first lefts) (renumbers.provides second rights)
      | compareNumbers first second =>
          exact .compareNumbers (renumbers.provides first lefts) (renumbers.provides second rights)
  | call results arguments =>
      cases typed with
      | callNothing known provided returns =>
          rcases renumbers.callee known with ⟨target, otherKnown, same⟩
          cases results with
          | none =>
              rw [← same] at provided returns
              exact .callNothing otherKnown (renumbers.providesAll provided arguments) returns
      | callValue known provided returns =>
          rcases renumbers.callee known with ⟨target, otherKnown, same⟩
          cases results with
          | some results =>
              rw [← same] at provided returns
              exact .callValue otherKnown (renumbers.providesAll provided arguments)
                (renumbers.provides returns results)

theorem typedTerminator {terminator counterpart : Terminator}
    (typed : function.TypedTerminator terminator) (pairs : terminator.Pairs pairing counterpart) :
    other.TypedTerminator counterpart := by
  cases pairs with
  | jump => exact .jump
  | branch conditions =>
      cases typed with
      | branch provided => exact .branch (renumbers.provides provided conditions)
  | ret values =>
      cases typed with
      | nothing returns =>
          cases values with
          | none => exact .nothing (renumbers.signature ▸ returns)
      | value notVoid provided =>
          cases values with
          | some values =>
              rw [← renumbers.signature] at notVoid provided
              exact .value notVoid (renumbers.provides provided values)
  | unfinished => cases typed

/-! ### Well-formed functions -/

/-- Without blocks that are not laid out, the function is as well formed as the one that it has the
code of. -/
theorem wellFormed (indexed : other.body.Indexed)
    (attached : ∀ id block, other.body.block? id = some block → id ∈ other.body.layout)
    (wellFormed : function.WellFormed module) : other.WellFormed otherModule := by
  have blocks {counterpart : Block} (laidOut : counterpart ∈ other.body.laidOut) :
      ∃ block ∈ function.body.laidOut, block.Pairs pairing counterpart :=
    exists_of_forall₂_right renumbers.code.laidOut laidOut
  have inOrder := renumbers.code.blocksInOrder
  exact {
    nonempty := by
      intro empty
      have layout := renumbers.code.pairs.layout
      rw [empty] at layout
      exact wellFormed.nonempty (List.forall₂_nil_right_iff.mp layout)
    attached := attached
    terminated := by
      intro counterpart laidOut unfinished
      rcases blocks laidOut with ⟨block, isBlock, pairs⟩
      have terminators := pairs.terminators
      rw [unfinished] at terminators
      refine wellFormed.terminated block isBlock ?_
      generalize block.terminator = terminator at terminators ⊢
      cases terminators
      rfl
    closed := by
      intro counterpart laidOut target edge
      rcases blocks laidOut with ⟨block, isBlock, pairs⟩
      rcases exists_of_forall₂_right pairs.terminators.successors edge with ⟨next, leads, paired⟩
      exact (renumbers.code.mem_layout_iff paired).mp (wellFormed.closed block isBlock next leads)
    entered := by
      intro counterpart member notEntry
      rcases exists_of_forall₂_right renumbers.code.pairs.layout member with ⟨id, isLaidOut, paired⟩
      have different : function.entry? ≠ some id := by
        intro isEntry
        rcases renumbers.entries.exists_right isEntry with ⟨entry, otherEntry, pairedEntry⟩
        cases inOrder.right_unique pairedEntry paired
        exact notEntry otherEntry
      rcases wellFormed.entered id isLaidOut different with ⟨_, block, isBlock, rfl, edge⟩
      rcases exists_of_forall₂ renumbers.code.laidOut isBlock with ⟨mirrored, _, pairs⟩
      rcases renumbers.leads ⟨block, isBlock, rfl, edge⟩ pairs.ids with ⟨next, leads, pairedNext⟩
      rw [inOrder.right_unique paired pairedNext]
      exact ⟨mirrored.id, leads⟩
    single := by
      intro first firstMember second secondMember temp firstDefines secondDefines
      rcases renumbers.site_back firstMember firstDefines with ⟨one, isOne, _, oneDefines, paired, ones⟩
      rcases renumbers.site_back secondMember secondDefines with ⟨two, isTwo, _, twoDefines, same, twos⟩
      cases renumbers.code.tempsInOrder.left_unique paired same
      cases wellFormed.single one isOne two isTwo _ oneDefines twoDefines
      exact indexed.eq_of_site firstMember secondMember (inOrder.right_unique ones.blocks twos.blocks)
        (ones.index.trans twos.index.symm)
    available := by
      intro counterpart laidOut index instruction found operand member
      rcases blocks laidOut with ⟨block, isBlock, pairs⟩
      rcases getElem?_of_forall₂ pairs.instructions found with ⟨original, isOriginal, same⟩
      rcases exists_of_forall₂_right same.operands member with ⟨used, isUsed, operands⟩
      exact renumbers.available (wellFormed.available block isBlock index original isOriginal used isUsed)
        pairs.ids operands
    availableAtEnd := by
      intro counterpart laidOut operand member
      rcases blocks laidOut with ⟨block, isBlock, pairs⟩
      rcases exists_of_forall₂_right pairs.terminators.operands member with ⟨used, isUsed, operands⟩
      rw [← pairs.instructions.length_eq]
      exact renumbers.available (wellFormed.availableAtEnd block isBlock used isUsed) pairs.ids operands
    typed := by
      intro counterpart laidOut instruction member
      rcases blocks laidOut with ⟨block, isBlock, pairs⟩
      rcases exists_of_forall₂_right pairs.instructions member with ⟨original, isOriginal, same⟩
      exact renumbers.typedInstruction (wellFormed.typed block isBlock original isOriginal) same
    typedAtEnd := by
      intro counterpart laidOut
      rcases blocks laidOut with ⟨block, isBlock, pairs⟩
      exact renumbers.typedTerminator (wellFormed.typedAtEnd block isBlock) pairs.terminators }

end Renumbers

end Function

end ScriptLowering.Code
