import Mathlib.Algebra.Group.Nat.Defs
import ScriptLowering.Proofs.VerifierChecks
import ScriptLowering.Proofs.Place

/-! # Regular places

What holds of a function at every moment of its construction, whatever program it is built
for: how the arena, the layout and the cursor fit together. Every operation on places keeps
it, as long as block and temp numbers do not run out.
-/

namespace ScriptLowering.Code

/-- The instruction at a place in the arena defines the temp. -/
def Body.Defines (body : Body) (id : BlockId) (index : Nat) (temp : TempId) : Prop :=
  ∃ block instruction, body.block? id = some block ∧
    block.instructions[index]? = some instruction ∧ instruction.defined? = some temp

namespace Body

theorem block?_createBlock (body : Body) (label : String) (id : BlockId) :
    (body.createBlock label).2.block? id =
      if ⟨body.nextBlock⟩ = id then some (.empty ⟨body.nextBlock⟩ label) else body.block? id :=
  Table.get?_insert _ _ _ _

theorem block?_modifyBlock (body : Body) (id : BlockId) (change : Block → Block)
    (other : BlockId) :
    (body.modifyBlock id change).block? other =
      if id = other then (body.block? other).map change else body.block? other :=
  Table.get?_modify _ _ _ _

theorem block?_erase (body : Body) (id other : BlockId) :
    Body.block? { body with blocks := body.blocks.erase id } other =
      if other = id then none else body.block? other := by
  simp only [Body.block?, Table.erase, Table.get?_filterKeys]
  by_cases same : other = id <;> simp [same]

end Body

namespace Place

structure Regular (place : Place) : Prop where
  named : ∀ id block, place.body.block? id = some block → block.id = id
  numbered : ∀ id block, place.body.block? id = some block →
    id.number.toNat < place.body.nextBlock.toNat
  known : ∀ id ∈ place.body.layout, ∃ block, place.body.block? id = some block
  standing : ∀ id, place.block = some id → ∃ block, place.body.block? id = some block
  distinct : place.body.layout.Nodup
  /-- New blocks are laid out behind the current one. -/
  last : ∀ id, place.block = some id → id ∈ place.body.layout →
    place.body.layout.getLast? = some id
  entry : ∃ block, place.body.layout.head? = some ⟨0⟩ ∧ place.body.block? ⟨0⟩ = some block ∧
    block.label = "entry"
  earlier : ∀ before id after, place.body.layout = before ++ id :: after → before ≠ [] →
    ∃ previous ∈ before, ∃ block, place.body.block? previous = some block ∧
      id ∈ block.successors
  terminated : ∀ id ∈ place.body.layout, ∀ block, place.body.block? id = some block →
    block.isTerminated = false → place.block = some id
  temps : ∀ id index temp, place.body.Defines id index temp →
    temp.number.toNat < place.body.temps.size
  single : ∀ id index other otherIndex temp, place.body.Defines id index temp →
    place.body.Defines other otherIndex temp → id = other ∧ index = otherIndex

/-- At least `count` blocks and temps can be added before their numbers run out. -/
def Room (place : Place) (count : Nat) : Prop :=
  place.body.nextBlock.toNat + count < 2 ^ 32 ∧ place.body.temps.size + count < 2 ^ 32

theorem Room.mono {place : Place} {more less : Nat} (room : place.Room more)
    (fewer : less ≤ more) : place.Room less :=
  ⟨by have := room.1; omega, by have := room.2; omega⟩

/-- A block that is in the arena and not in the layout. -/
structure Detached (place : Place) (id : BlockId) : Prop where
  known : ∃ block, place.body.block? id = some block
  missing : id ∉ place.body.layout

theorem Detached.isSome {place : Place} {id : BlockId} (detached : place.Detached id) :
    (place.body.block? id).isSome = true := by
  rcases detached.known with ⟨block, found⟩
  simp [found]

theorem Detached.isLaidOut {place : Place} {id : BlockId} (detached : place.Detached id) :
    place.body.isLaidOut id = false := by
  simpa [Body.isLaidOut] using detached.missing

/-! ## The open block -/

theorem exists_of_isOpen {place : Place} (isOpen : place.isOpen = true) :
    ∃ id block, place.block = some id ∧ place.body.block? id = some block ∧
      block.isTerminated = false := by
  simp only [Place.isOpen, Place.current?] at isOpen
  cases stands : place.block with
  | none => simp [stands] at isOpen
  | some id =>
      cases found : place.body.block? id with
      | none => simp [stands, found] at isOpen
      | some block =>
          simp only [stands, Option.bind_some, found, Bool.not_eq_true'] at isOpen
          exact ⟨id, block, rfl, found, isOpen⟩

theorem isOpen_of_block {place : Place} {id : BlockId} {block : Block}
    (stands : place.block = some id) (found : place.body.block? id = some block) :
    place.isOpen = !block.isTerminated := by
  simp [isOpen, current?, stands, found]

theorem successors_of_open {block : Block} (isOpen : block.isTerminated = false) :
    block.successors = [] := by
  cases block with
  | mk id label instructions terminator => cases terminator <;> first | rfl | cases isOpen

/-! ## What the operations do to single blocks -/

section Blocks

variable {place : Place} {id other : BlockId}

theorem block?_create (place : Place) (label : String) (id : BlockId) :
    (place.create label).body.block? id =
      if place.freshBlock = id then some (.empty place.freshBlock label)
      else place.body.block? id :=
  Table.get?_insert _ _ _ _

theorem toNat_nextBlock_create {count : Nat} (room : place.Room (count + 1))
    (label : String) :
    (place.create label).body.nextBlock.toNat = place.body.nextBlock.toNat + 1 := by
  have bound := room.1
  change (place.body.nextBlock + 1).toNat = _
  rw [UInt32.toNat_add]
  simp only [UInt32.toNat_one]
  omega

theorem block?_change (stands : place.block = some id) (change : Block → Block)
    (other : BlockId) :
    (place.change change).body.block? other =
      if id = other then (place.body.block? other).map change
      else place.body.block? other := by
  simp only [Place.change, stands, Body.block?, Body.modifyBlock, Table.get?_modify]

theorem exists_of_change (stands : place.block = some id) {change : Block → Block} {block : Block}
    (after : (place.change change).body.block? other = some block) :
    ∃ old, place.body.block? other = some old ∧
      (id = other ∧ block = change old ∨ id ≠ other ∧ block = old) := by
  rw [block?_change stands] at after
  split at after
  · rename_i same
    rcases Option.map_eq_some_iff.mp after with ⟨old, before, rfl⟩
    exact ⟨old, before, .inl ⟨same, rfl⟩⟩
  · rename_i different
    exact ⟨block, after, .inr ⟨different, rfl⟩⟩

theorem known_change (stands : place.block = some id) (change : Block → Block)
    (known : ∃ block, place.body.block? other = some block) :
    ∃ block, (place.change change).body.block? other = some block := by
  rcases known with ⟨block, before⟩
  rw [block?_change stands, before]
  split
  · exact ⟨change block, rfl⟩
  · exact ⟨block, rfl⟩

/-- A definition stands where it stood, or it is the added one at the end of the current block. -/
theorem defines_change {current : Block} (stands : place.block = some id)
    (found : place.body.block? id = some current) {change : Block → Block}
    {added : Option Instruction}
    (appends : (change current).instructions = current.instructions ++ added.toList) {index : Nat}
    {temp : TempId} (after : (place.change change).body.Defines other index temp) :
    place.body.Defines other index temp ∨ other = id ∧ index = current.instructions.length ∧
      ∃ instruction ∈ added, instruction.defined? = some temp := by
  rcases after with ⟨block, instruction, foundAfter, standsAfter, defined⟩
  rcases exists_of_change stands foundAfter with ⟨old, before, ⟨rfl, rfl⟩ | ⟨_, rfl⟩⟩
  · cases found.symm.trans before
    rw [appends] at standsAfter
    by_cases inside : index < current.instructions.length
    · rw [List.getElem?_append_left inside] at standsAfter
      exact .inl ⟨current, instruction, found, standsAfter, defined⟩
    · rw [List.getElem?_append_right (Nat.le_of_not_lt inside)] at standsAfter
      have bound := (List.getElem?_eq_some_iff.mp standsAfter).1
      have few : added.toList.length ≤ 1 := by cases added <;> simp
      have atEnd : index = current.instructions.length := by omega
      rw [atEnd, Nat.sub_self, ← List.head?_eq_getElem?] at standsAfter
      exact .inr ⟨rfl, atEnd, instruction, Option.mem_toList.mp (List.mem_of_head? standsAfter), defined⟩
  · exact .inl ⟨block, instruction, before, standsAfter, defined⟩

theorem layout_change (place : Place) (change : Block → Block) :
    (place.change change).body.layout = place.body.layout := by
  unfold Place.change
  split <;> rfl

theorem temps_change (place : Place) (change : Block → Block) :
    (place.change change).body.temps = place.body.temps := by
  unfold Place.change
  split <;> rfl

theorem nextBlock_change (place : Place) (change : Block → Block) :
    (place.change change).body.nextBlock = place.body.nextBlock := by
  unfold Place.change
  split <;> rfl

theorem block_change (place : Place) (change : Block → Block) :
    (place.change change).block = place.block := by
  unfold Place.change
  split <;> rfl

theorem block?_discard (place : Place) (id other : BlockId) :
    (place.discard id).body.block? other =
      if id = other then none else place.body.block? other := by
  simp only [Place.discard, Body.block?, Table.erase, Table.get?_filterKeys]
  by_cases same : other = id
  · simp [same]
  · have different : ¬ id = other := fun flipped => same flipped.symm
    simp [same, different]

theorem block?_prune (body : Body) (id : BlockId) :
    body.prune.block? id = if body.isLaidOut id then body.block? id else none :=
  Table.get?_filterKeys _ _ _

theorem block?_of_prune {body : Body} {id : BlockId} {block : Block}
    (found : body.prune.block? id = some block) :
    id ∈ body.layout ∧ body.block? id = some block := by
  rw [block?_prune] at found
  split at found
  · rename_i laidOut
    exact ⟨by simpa [Body.isLaidOut] using laidOut, found⟩
  · cases found

theorem block?_prune_of_mem {body : Body} {id : BlockId} (member : id ∈ body.layout) :
    body.prune.block? id = body.block? id := by
  rw [block?_prune, if_pos]
  simpa [Body.isLaidOut] using member

end Blocks

/-! ## Operations keep places regular -/

namespace Regular

variable {place : Place} {id : BlockId}

theorem block?_fresh (regular : place.Regular) : place.body.block? place.freshBlock = none := by
  cases found : place.body.block? place.freshBlock with
  | none => rfl
  | some block =>
      have below := regular.numbered _ block found
      simp [freshBlock] at below

theorem fresh_not_mem_layout (regular : place.Regular) :
    place.freshBlock ∉ place.body.layout := by
  intro member
  rcases regular.known _ member with ⟨block, found⟩
  rw [regular.block?_fresh] at found
  cases found

theorem isTerminated_of_not_isOpen (regular : place.Regular) (closed : place.isOpen = false)
    {block : Block} (member : id ∈ place.body.layout)
    (found : place.body.block? id = some block) : block.isTerminated = true := by
  cases terminated : block.isTerminated with
  | true => rfl
  | false =>
      have stands := regular.terminated id member block found terminated
      rw [isOpen_of_block stands found, terminated] at closed
      cases closed

theorem create (regular : place.Regular) {count : Nat} (room : place.Room (count + 1))
    (label : String) : (place.create label).Regular := by
  have fresh := regular.block?_fresh
  have grows := toNat_nextBlock_create room label
  have old : ∀ id block, place.body.block? id = some block →
      (place.create label).body.block? id = some block := by
    intro id block found
    rw [block?_create, if_neg]
    · exact found
    · intro same
      rw [← same, fresh] at found
      cases found
  have either : ∀ id block, (place.create label).body.block? id = some block →
      (id = place.freshBlock ∧ block = .empty place.freshBlock label) ∨
        place.body.block? id = some block := by
    intro id block found
    rw [block?_create] at found
    split at found
    · rename_i same
      cases found
      exact .inl ⟨same.symm, rfl⟩
    · exact .inr found
  have oldDefines : ∀ id index temp, (place.create label).body.Defines id index temp →
      place.body.Defines id index temp := by
    intro id index temp defines
    rcases defines with ⟨block, instruction, found, stands, defined⟩
    rcases either id block found with ⟨_, rfl⟩ | foundOld
    · cases stands
    · exact ⟨block, instruction, foundOld, stands, defined⟩
  exact {
    named := by
      intro id block found
      rcases either id block found with ⟨rfl, rfl⟩ | foundOld
      · rfl
      · exact regular.named id block foundOld
    numbered := by
      intro id block found
      rw [grows]
      rcases either id block found with ⟨rfl, rfl⟩ | foundOld
      · exact Nat.lt_succ_self _
      · exact Nat.lt_succ_of_lt (regular.numbered id block foundOld)
    known := by
      intro id member
      rcases regular.known id member with ⟨block, found⟩
      exact ⟨block, old id block found⟩
    standing := by
      intro id stands
      rcases regular.standing id stands with ⟨block, found⟩
      exact ⟨block, old id block found⟩
    distinct := regular.distinct
    last := regular.last
    entry := by
      rcases regular.entry with ⟨block, heads, found, labelled⟩
      exact ⟨block, heads, old _ block found, labelled⟩
    earlier := by
      intro before id after splits nonempty
      rcases regular.earlier before id after splits nonempty with
        ⟨previous, member, block, found, leads⟩
      exact ⟨previous, member, block, old previous block found, leads⟩
    terminated := by
      intro id member block found isOpen
      rcases either id block found with ⟨rfl, _⟩ | foundOld
      · exact absurd member regular.fresh_not_mem_layout
      · exact regular.terminated id member block foundOld isOpen
    temps := fun id index temp defines =>
      regular.temps id index temp (oldDefines id index temp defines)
    single := fun id index other otherIndex temp first second =>
      regular.single id index other otherIndex temp (oldDefines _ _ _ first)
        (oldDefines _ _ _ second) }

theorem moveTo (regular : place.Regular) (closed : place.isOpen = false) {block : Option BlockId}
    (detached : ∀ id, block = some id → place.Detached id) :
    (Place.mk place.body block).Regular where
  named := regular.named
  numbered := regular.numbered
  known := regular.known
  standing := fun id stands => (detached id stands).known
  distinct := regular.distinct
  last := fun id stands member => absurd member (detached id stands).missing
  entry := regular.entry
  earlier := regular.earlier
  terminated := by
    intro id member found isFound isOpen
    have terminated := regular.isTerminated_of_not_isOpen closed member isFound
    rw [isOpen] at terminated
    cases terminated
  temps := regular.temps
  single := regular.single

theorem ready (regular : place.Regular) {count : Nat} (room : place.Room (count + 1)) :
    place.ready.Regular := by
  unfold Place.ready
  cases closed : place.isOpen with
  | true => exact regular
  | false =>
      simp only [Bool.false_eq_true, if_false]
      have created := regular.create room Cursor.unreachableLabel
      have stillClosed : (place.create Cursor.unreachableLabel).isOpen = false := by
        cases stands : place.block with
        | none => simp [Place.isOpen, Place.current?, Place.create, stands]
        | some id =>
            rcases regular.standing id stands with ⟨block, found⟩
            rw [isOpen_of_block stands found] at closed
            have different : place.freshBlock ≠ id := by
              intro same
              rw [← same, regular.block?_fresh] at found
              cases found
            have kept : (place.create Cursor.unreachableLabel).body.block? id = some block := by
              rw [block?_create, if_neg different]
              exact found
            rw [isOpen_of_block (show (place.create _).block = some id from stands) kept]
            exact closed
      refine created.moveTo stillClosed fun id same => ?_
      cases same
      exact ⟨⟨_, by rw [block?_create, if_pos rfl]⟩, regular.fresh_not_mem_layout⟩

/-- Adding at most one instruction to the open block, which defines a temp that nothing else
defines. -/
theorem changeOpen (regular : place.Regular) (isOpen : place.isOpen = true)
    {change : Block → Block} (added : Option Instruction)
    (sameId : ∀ block, (change block).id = block.id)
    (sameLabel : ∀ block, (change block).label = block.label)
    (appends : ∀ block, (change block).instructions = block.instructions ++ added.toList)
    (fresh : ∀ instruction ∈ added, ∀ temp, instruction.defined? = some temp →
      temp.number.toNat < place.body.temps.size ∧
        ∀ id index, ¬ place.body.Defines id index temp) :
    (place.change change).Regular := by
  rcases exists_of_isOpen isOpen with ⟨here, current, stands, foundHere, unfinished⟩
  have found := block?_change stands change
  have defines {id : BlockId} {index : Nat} {temp : TempId}
      (after : (place.change change).body.Defines id index temp) :=
    defines_change stands foundHere (appends current) after
  exact {
    named := by
      intro id block after
      rcases exists_of_change stands after with ⟨old, before, ⟨_, rfl⟩ | ⟨_, rfl⟩⟩
      · rw [sameId]
        exact regular.named id old before
      · exact regular.named id _ before
    numbered := by
      intro id block after
      rcases exists_of_change stands after with ⟨old, before, _⟩
      rw [nextBlock_change]
      exact regular.numbered id old before
    known := by
      intro id member
      rw [layout_change] at member
      exact known_change stands change (regular.known id member)
    standing := by
      intro id stood
      rw [block_change] at stood
      exact known_change stands change (regular.standing id stood)
    distinct := by
      rw [layout_change]
      exact regular.distinct
    last := by
      rw [layout_change, block_change]
      exact regular.last
    entry := by
      rcases regular.entry with ⟨block, heads, before, labelled⟩
      rw [layout_change, found, before]
      split
      · exact ⟨change block, heads, rfl, (sameLabel block).trans labelled⟩
      · exact ⟨block, heads, rfl, labelled⟩
    earlier := by
      intro before id after splits nonempty
      rw [layout_change] at splits
      rcases regular.earlier before id after splits nonempty with
        ⟨previous, member, block, foundBefore, leads⟩
      have different : here ≠ previous := by
        intro same
        rw [← same, foundHere] at foundBefore
        cases foundBefore
        rw [successors_of_open unfinished] at leads
        cases leads
      refine ⟨previous, member, block, ?_, leads⟩
      rw [found, if_neg different]
      exact foundBefore
    terminated := by
      intro id member block after isOpen
      rw [layout_change] at member
      rw [block_change]
      rcases exists_of_change stands after with ⟨old, before, ⟨rfl, _⟩ | ⟨_, rfl⟩⟩
      · exact stands
      · exact regular.terminated id member _ before isOpen
    temps := by
      intro id index temp after
      rw [temps_change]
      rcases defines after with before | ⟨_, _, instruction, member, defined⟩
      · exact regular.temps id index temp before
      · exact (fresh instruction member temp defined).1
    single := by
      intro id index other otherIndex temp first second
      rcases defines first with before | ⟨rfl, rfl, instruction, member, defined⟩
      · rcases defines second with otherBefore | ⟨_, _, instruction, member, defined⟩
        · exact regular.single id index other otherIndex temp before otherBefore
        · exact absurd before ((fresh instruction member temp defined).2 _ _)
      · rcases defines second with otherBefore | ⟨rfl, rfl, _⟩
        · exact absurd otherBefore ((fresh instruction member temp defined).2 _ _)
        · exact ⟨rfl, rfl⟩ }

theorem add (regular : place.Regular) (isOpen : place.isOpen = true)
    {instruction : Instruction} (defined : instruction.defined? = none) :
    (place.add instruction).Regular := by
  refine regular.changeOpen isOpen (some instruction) (fun _ => rfl) (fun _ => rfl)
    (fun _ => rfl) ?_
  intro only member temp isDefined
  cases member
  rw [defined] at isDefined
  cases isDefined

theorem terminate (regular : place.Regular) (isOpen : place.isOpen = true)
    (terminator : Terminator) : (place.terminate terminator).Regular := by
  refine regular.changeOpen isOpen none (fun _ => rfl) (fun _ => rfl)
    (fun block => (List.append_nil block.instructions).symm) ?_
  intro instruction member
  cases member

theorem takeTemp (regular : place.Regular) (ty : Ty) : (place.takeTemp ty).Regular where
  named := regular.named
  numbered := regular.numbered
  known := regular.known
  standing := regular.standing
  distinct := regular.distinct
  last := regular.last
  entry := regular.entry
  earlier := regular.earlier
  terminated := regular.terminated
  temps := by
    intro id index temp defines
    have bound := regular.temps id index temp defines
    simp only [Place.takeTemp, Body.newTemp, Array.size_push]
    omega
  single := regular.single

theorem toNat_freshTemp {count : Nat} (room : place.Room count) :
    place.freshTemp.number.toNat = place.body.temps.size := by
  have bound := room.2
  simp only [freshTemp, Nat.toUInt32, UInt32.toNat_ofNat']
  omega

theorem define (regular : place.Regular) (isOpen : place.isOpen = true) {count : Nat}
    (room : place.Room count) {ty : Ty} {instruction : Operand → Instruction}
    (defined : ∀ temp, (instruction (.temp temp)).defined? = some temp) :
    (place.define ty instruction).Regular := by
  refine (regular.takeTemp ty).changeOpen ((Cursor.isOpen_takeTemp place ty).trans isOpen)
    (some (instruction (.temp place.freshTemp))) (fun _ => rfl) (fun _ => rfl)
    (fun _ => rfl) ?_
  intro only member temp isDefined
  cases member
  rw [defined] at isDefined
  cases isDefined
  have number := toNat_freshTemp room
  refine ⟨?_, ?_⟩
  · simp only [Place.takeTemp, Body.newTemp, Array.size_push]
    omega
  · intro id index defines
    have bound := regular.temps id index _ defines
    omega

theorem isOpen_terminate {terminator : Terminator} (isOpen : place.isOpen = true)
    (finished : terminator.isFinished = true) :
    (place.terminate terminator).isOpen = false := by
  rcases exists_of_isOpen isOpen with ⟨here, current, stands, foundHere, _⟩
  have found : (place.terminate terminator).body.block? here =
      some (current.setTerminator terminator) := by
    rw [Place.terminate, block?_change stands, if_pos rfl, foundHere]
    rfl
  have standsAfter : (place.terminate terminator).block = some here := by
    rw [Place.terminate, block_change]
    exact stands
  rw [isOpen_of_block standsAfter found]
  simp [Block.setTerminator, Block.isTerminated, finished]

theorem leaveTo (regular : place.Regular) (target : BlockId) :
    (place.leaveTo target).Regular := by
  unfold Place.leaveTo
  cases isOpen : place.isOpen with
  | true =>
      exact (regular.terminate isOpen _).moveTo (isOpen_terminate isOpen rfl)
        (fun _ absurd => by cases absurd)
  | false => exact regular.moveTo isOpen fun _ absurd => by cases absurd

theorem exists_predecessor {body : Body} {id : BlockId}
    (counted : body.predecessorCount id ≠ 0) :
    ∃ previous ∈ body.layout, ∃ block, body.block? previous = some block ∧
      id ∈ block.successors := by
  have member : id ∈ body.laidOut.flatMap Block.successors := by
    by_contra missing
    exact counted (List.count_eq_zero.mpr missing)
  rcases List.mem_flatMap.mp member with ⟨block, laidOut, leads⟩
  rcases Body.mem_laidOut.mp laidOut with ⟨previous, inLayout, found⟩
  exact ⟨previous, inLayout, block, found, leads⟩

theorem layOut (regular : place.Regular) (left : place.block = none)
    (detached : place.Detached id) (counted : place.body.predecessorCount id ≠ 0) :
    (place.layOut id).Regular where
  named := regular.named
  numbered := regular.numbered
  known := by
    intro other member
    rcases List.mem_append.mp member with old | new
    · exact regular.known other old
    · rw [List.mem_singleton.mp new]
      exact detached.known
  standing := by
    intro other stands
    cases stands
    exact detached.known
  distinct := by
    refine List.nodup_append.mpr ⟨regular.distinct, by simp, ?_⟩
    intro first firstMember second secondMember same
    rw [List.mem_singleton] at secondMember
    exact detached.missing (secondMember ▸ same ▸ firstMember)
  last := by
    intro other stands _
    cases stands
    exact List.getLast?_concat
  entry := by
    rcases regular.entry with ⟨block, heads, found, labelled⟩
    refine ⟨block, ?_, found, labelled⟩
    change (place.body.layout ++ [id]).head? = some ⟨0⟩
    rw [List.head?_append, heads]
    rfl
  earlier := by
    intro before other after splits nonempty
    change place.body.layout ++ [id] = before ++ other :: after at splits
    rcases List.append_eq_append_iff.mp splits with
      ⟨rest, splitsBefore, splitsRest⟩ | ⟨rest, splitsBefore, splitsRest⟩
    · -- The place in question is at or behind the end of the old layout.
      cases rest with
      | nil =>
          simp only [List.nil_append, List.cons.injEq] at splitsRest
          rcases splitsRest with ⟨rfl, _⟩
          rcases exists_predecessor counted with ⟨previous, member, block, found, leads⟩
          exact ⟨previous, by rw [splitsBefore]; simpa using member, block, found, leads⟩
      | cons first others =>
          have lengths := congrArg List.length splitsRest
          simp at lengths
    · cases rest with
      | nil =>
          simp only [List.nil_append, List.cons.injEq] at splitsRest
          rcases splitsRest with ⟨rfl, _⟩
          rcases exists_predecessor counted with ⟨previous, member, block, found, leads⟩
          exact ⟨previous, by simpa [splitsBefore] using member, block, found, leads⟩
      | cons first others =>
          simp only [List.cons_append, List.cons.injEq] at splitsRest
          rcases splitsRest with ⟨rfl, _⟩
          exact regular.earlier before other others splitsBefore nonempty
  terminated := by
    intro other member block found isOpen
    rcases List.mem_append.mp member with old | new
    · have stands := regular.terminated other old block found isOpen
      rw [left] at stands
      cases stands
    · rw [List.mem_singleton.mp new]
      rfl
  temps := regular.temps
  single := regular.single

theorem discard (regular : place.Regular) (left : place.block = none)
    (missing : id ∉ place.body.layout) : (place.discard id).Regular := by
  have found : ∀ other block, (place.discard id).body.block? other = some block →
      place.body.block? other = some block := by
    intro other block after
    rw [block?_discard] at after
    split at after
    · cases after
    · exact after
  have kept : ∀ other ∈ place.body.layout,
      (place.discard id).body.block? other = place.body.block? other := by
    intro other member
    rw [block?_discard, if_neg]
    intro same
    exact missing (same ▸ member)
  have defines : ∀ other index temp, (place.discard id).body.Defines other index temp →
      place.body.Defines other index temp := by
    intro other index temp after
    rcases after with ⟨block, instruction, foundAfter, stands, defined⟩
    exact ⟨block, instruction, found other block foundAfter, stands, defined⟩
  exact {
    named := fun other block after => regular.named other block (found other block after)
    numbered := fun other block after => regular.numbered other block (found other block after)
    known := by
      intro other member
      rw [kept other member]
      exact regular.known other member
    standing := by
      intro other stands
      change place.block = some other at stands
      rw [left] at stands
      cases stands
    distinct := regular.distinct
    last := regular.last
    entry := by
      rcases regular.entry with ⟨block, heads, foundEntry, labelled⟩
      refine ⟨block, heads, ?_, labelled⟩
      rw [kept _ (List.mem_of_mem_head? heads)]
      exact foundEntry
    earlier := by
      intro before other after splits nonempty
      rcases regular.earlier before other after splits nonempty with
        ⟨previous, member, block, foundBefore, leads⟩
      refine ⟨previous, member, block, ?_, leads⟩
      have inLayout : previous ∈ place.body.layout := by
        change place.body.layout = _ at splits
        rw [splits]
        exact List.mem_append_left _ member
      rw [kept previous inLayout]
      exact foundBefore
    terminated := fun other member block after =>
      regular.terminated other member block (found other block after)
    temps := fun other index temp after => regular.temps _ _ _ (defines other index temp after)
    single := fun _ _ _ _ _ first second =>
      regular.single _ _ _ _ _ (defines _ _ _ first) (defines _ _ _ second) }

end Regular

/-! ## Leaving and entering blocks -/

theorem layout_leaveTo (place : Place) (target : BlockId) :
    (place.leaveTo target).body.layout = place.body.layout := by
  unfold Place.leaveTo
  split
  · exact layout_change _ _
  · rfl

theorem block?_leaveTo_other {place : Place} {id : BlockId} (target : BlockId)
    (elsewhere : place.block ≠ some id) :
    (place.leaveTo target).body.block? id = place.body.block? id := by
  unfold Place.leaveTo
  split
  · rename_i isOpen
    rcases exists_of_isOpen isOpen with ⟨here, _, stands, _, _⟩
    have different : here ≠ id := by
      intro same
      exact elsewhere (stands.trans (congrArg some same))
    change (place.terminate (.jump target)).body.block? id = _
    rw [Place.terminate, block?_change stands, if_neg different]
  · rfl

theorem Detached.leaveTo {place : Place} {id : BlockId} (detached : place.Detached id)
    (elsewhere : place.block ≠ some id) (target : BlockId) :
    (place.leaveTo target).Detached id := by
  refine ⟨?_, ?_⟩
  · rw [block?_leaveTo_other target elsewhere]
    exact detached.known
  · rw [layout_leaveTo]
    exact detached.missing

theorem Regular.enter {place : Place} {id : BlockId} (regular : place.Regular)
    (detached : place.Detached id) (elsewhere : place.block ≠ some id) (closing : Bool) :
    (place.enter id closing).Regular := by
  have left := regular.leaveTo id
  have stillDetached := detached.leaveTo elsewhere id
  simp only [Place.enter]
  by_cases counted : (place.leaveTo id).body.predecessorCount id = 0
  · rw [if_pos counted]
    cases closing with
    | true => exact left.discard rfl stillDetached.missing
    | false =>
        refine left.moveTo rfl fun other same => ?_
        cases same
        exact stillDetached
  · rw [if_neg counted]
    exact left.layOut rfl stillDetached counted

end Place

end ScriptLowering.Code

/-! ## Steps that need a regular place -/

namespace ScriptLowering.Lowering

open Code (Body BlockId Cursor Operand Place)

variable {session : Session} {name : String} {place : Place}

theorem layOut_eq {id : BlockId} (builds : session.Builds name place)
    (regular : place.Regular) (detached : place.Detached id) (previous : Option BlockId)
    (last : ∀ after, previous = some after → after ∈ place.body.layout →
      place.body.layout.getLast? = some after) :
    layOut id previous session =
      .ok ((), session.put name ⟨(place.layOut id).body, place.block⟩) := by
  have looks : Lower.cursor session = .ok (session.cursor, session) := rfl
  have appends : Lower.build (fun cursor => cursor.appendBlock id) session =
      .ok ((), session.put name ⟨(place.layOut id).body, place.block⟩) := by
    simp only [Lower.build, Cursor.Builds.appendBlock builds detached.isSome detached.isLaidOut]
    rfl
  rw [layOut, Lower.bind_eq looks]
  cases previous with
  | none => exact appends
  | some after =>
      simp only [Cursor.Builds.isLaidOut builds]
      by_cases laidOut : place.body.isLaidOut after = true
      · rw [if_pos laidOut]
        have member : after ∈ place.body.layout := by
          simpa [Body.isLaidOut] using laidOut
        simp only [Lower.build, Cursor.Builds.insertBlockAfter builds detached.isSome
          detached.isLaidOut regular.distinct (last after rfl member)]
        rfl
      · rw [if_neg laidOut]
        exact appends

/-- Entering a block leaves the old one first, and then looks whether the block is reached. -/
theorem enter_after_leaveTo (builds : session.Builds name place) (id : BlockId) (closing : Bool) :
    enter id closing session =
      (if (place.leaveTo id).body.predecessorCount id = 0 then
        if closing then Lower.build fun cursor => cursor.discardBlock id
        else Lower.moveCursor fun cursor => cursor.positionAtEnd name id
      else do
        layOut id place.block
        Lower.moveCursor fun cursor => cursor.positionAtEnd name id)
      (session.put name (place.leaveTo id)) := by
  have looks : Lower.cursor session = .ok (session.cursor, session) := rfl
  have leftBuilds := builds.put (place.leaveTo id)
  have position : session.cursor.position.block = place.block := by
    rw [builds.position]
  have names : Lower.ask Cursor.currentName (session.put name (place.leaveTo id)) =
      .ok (name, session.put name (place.leaveTo id)) := by
    simp only [Lower.ask, Cursor.Builds.currentName leftBuilds]
  have counts : Lower.ask (fun cursor => cursor.predecessorCount id)
      (session.put name (place.leaveTo id)) =
        .ok ((place.leaveTo id).body.predecessorCount id,
          session.put name (place.leaveTo id)) := by
    simp only [Lower.ask, Cursor.predecessorCount, Cursor.Builds.currentBody leftBuilds, bind,
      Except.bind, pure, Except.pure]
  rw [enter, Lower.bind_eq looks, position]
  refine (Lower.bind_eq (leaveTo_eq builds id)).trans ?_
  refine (Lower.bind_eq names).trans ?_
  exact Lower.bind_eq counts

theorem enter_eq {id : BlockId} (builds : session.Builds name place)
    (regular : place.Regular) (detached : place.Detached id)
    (elsewhere : place.block ≠ some id) (closing : Bool) :
    enter id closing session = .ok ((), session.put name (place.enter id closing)) := by
  have leftBuilds := builds.put (place.leaveTo id)
  have leftRegular := regular.leaveTo id
  have leftDetached := detached.leaveTo elsewhere id
  rw [enter_after_leaveTo builds]
  simp only [Place.enter]
  by_cases counted : (place.leaveTo id).body.predecessorCount id = 0
  · rw [if_pos counted, if_pos counted]
    cases closing with
    | true =>
        simp only [if_true, Lower.build, Cursor.Builds.discardBlock leftBuilds
          leftDetached.isSome leftDetached.isLaidOut rfl]
        simp [Session.put, Cursor.put_put]
    | false =>
        simp only [Bool.false_eq_true, if_false, Lower.moveCursor]
        rfl
  · rw [if_neg counted, if_neg counted]
    have laysOut := layOut_eq leftBuilds leftRegular leftDetached place.block
      (by rw [Place.layout_leaveTo]; exact regular.last)
    refine (Lower.bind_eq laysOut).trans ?_
    simp only [Session.put_put]
    rfl

theorem openFunction_eq {function : Code.Function}
    (found : session.cursor.module.function? name = some function)
    (unopened : function.body = .empty) :
    openFunction name session =
      .ok ((), session.put name (Place.mk .empty none).opened) := by
  have moves : Lower.moveCursor (fun cursor => cursor.setPosition (.inFunction name)) session =
      .ok ((), session.put name ⟨.empty, none⟩) := by
    have same : session.cursor.setPosition (.inFunction name) =
        session.cursor.put name ⟨.empty, none⟩ := by
      have builds : (session.cursor.setPosition (.inFunction name)).Builds name
          ⟨.empty, none⟩ := ⟨rfl, function, found, unopened⟩
      exact builds.put_self.symm
    simp only [Lower.moveCursor, same]
    rfl
  have builds : (session.put name ⟨.empty, none⟩).Builds name ⟨.empty, none⟩ :=
    ⟨rfl, { function with body := .empty }, by simp [Session.function?_put, found], rfl⟩
  rw [openFunction, Lower.bind_eq moves]
  refine (Lower.bind_eq (createBlock_eq builds "entry")).trans ?_
  have created := builds.put ((Place.mk .empty none).create "entry")
  have appends : Lower.build (fun cursor => cursor.appendBlock ⟨0⟩)
      ((session.put name ⟨.empty, none⟩).put name ((Place.mk .empty none).create "entry")) =
        .ok ((), session.put name ⟨((Place.mk .empty none).opened).body, none⟩) := by
    have known : (((Place.mk .empty none).create "entry").body.block? ⟨0⟩).isSome = true := rfl
    simp only [Lower.build, Cursor.Builds.appendBlock created known rfl]
    simp only [Session.put, Cursor.put_put]
    rfl
  exact (Lower.bind_eq appends).trans rfl

theorem regular_opened : (Place.mk .empty none).opened.Regular := by
  have only : ∀ id block, (Place.mk .empty none).opened.body.block? id = some block →
      id = ⟨0⟩ ∧ block = .empty ⟨0⟩ "entry" := by
    intro id block found
    change Table.get? (Table.insert .empty _ _) id = some block at found
    rw [Table.get?_insert] at found
    split at found
    · rename_i same
      cases found
      exact ⟨same.symm, rfl⟩
    · cases found
  have laidOut : (Place.mk .empty none).opened.body.layout = [⟨0⟩] := rfl
  have nothing : ∀ id index temp,
      ¬ (Place.mk .empty none).opened.body.Defines id index temp := by
    intro id index temp defines
    rcases defines with ⟨block, instruction, found, stands, _⟩
    rcases only id block found with ⟨_, rfl⟩
    cases stands
  exact {
    named := by
      intro id block found
      rcases only id block found with ⟨rfl, rfl⟩
      rfl
    numbered := by
      intro id block found
      rcases only id block found with ⟨rfl, _⟩
      decide
    known := by
      intro id member
      rw [laidOut, List.mem_singleton] at member
      subst member
      exact ⟨_, rfl⟩
    standing := by
      intro id stands
      cases stands
      exact ⟨_, rfl⟩
    distinct := by decide
    last := by
      intro id stands _
      cases stands
      rfl
    entry := ⟨_, rfl, rfl, rfl⟩
    earlier := by
      intro before id after splits nonempty
      rw [laidOut] at splits
      have lengths := congrArg List.length splits
      have positive := List.length_pos_iff.mpr nonempty
      simp only [List.length_cons, List.length_nil, List.length_append] at lengths
      omega
    terminated := by
      intro id member block found _
      rcases only id block found with ⟨rfl, _⟩
      rfl
    temps := fun id index temp defines => absurd defines (nothing id index temp)
    single := fun id index _ _ temp defines => absurd defines (nothing id index temp) }

theorem isOpen_of_isLive {place : Place} (live : place.isLive = true) : place.isOpen = true := by
  unfold Place.isLive at live
  split at live
  · exact (Bool.and_eq_true_iff.mp live).1
  · cases live

theorem returnIfLive_eq (builds : session.Builds name place) (value : Option Operand) :
    returnIfLive value session = .ok ((), session.put name (place.returnIfLive value)) := by
  have looks : Lower.cursor session = .ok (session.cursor, session) := rfl
  rw [returnIfLive, Lower.bind_eq looks, Cursor.Builds.isLive builds, Place.returnIfLive]
  cases live : place.isLive with
  | true =>
      have returns := append_terminate_eq builds (.ret value)
      rw [ready_of_isOpen (isOpen_of_isLive live)] at returns
      rw [if_pos rfl]
      exact returns
  | false =>
      rw [if_neg (by simp), if_neg (by simp), builds.put_self]
      rfl

end ScriptLowering.Lowering
