import ScriptLowering.Proofs.Promises

/-! # Building on promises

Each operation on places keeps promises if what it adds to a laid-out block relies on nothing but
what is known there. Code that is added to a detached block may be anything, because it is dropped
in the end; so all that is asked for is asked for at live places only.
-/

namespace ScriptLowering.Code

theorem Block.Knows.extend {promises : Promises} {block after : Block} {count : Nat}
    {temp : TempId} (knows : block.Knows promises count temp) (extends_ : block.Extends after) :
    after.Knows promises count temp := by
  rcases knows with promised | ⟨index, before, instruction, found, defines⟩
  · rw [← extends_.sameId] at promised
    exact .inl promised
  · rcases extends_.instructions with ⟨more, instructions⟩
    refine .inr ⟨index, before, instruction, ?_, defines⟩
    rw [instructions, List.getElem?_append_left (List.getElem?_eq_some_iff.mp found).1]
    exact found

theorem Block.Knows.mono {promises : Promises} {block : Block} {count more : Nat}
    {temp : TempId} (knows : block.Knows promises count temp) (less : count ≤ more) :
    block.Knows promises more temp := by
  rcases knows with promised | ⟨index, before, rest⟩
  · exact .inl promised
  · exact .inr ⟨index, Nat.lt_of_lt_of_le before less, rest⟩

theorem Body.Later.of_kept {body next : Body}
    (numbers : body.nextBlock.toNat ≤ next.nextBlock.toNat)
    (layout : ∀ id ∈ body.layout, id ∈ next.layout) (temps : next.temps = body.temps)
    (blocks : ∀ id ∈ body.layout, next.block? id = body.block? id) : body.Later next where
  numbers := numbers
  layout := layout
  temps := by
    intro id ty found
    rw [Body.tempType?, temps]
    exact found
  code := by
    intro site member
    rcases Body.mem_code.mp member with ⟨block, laidOut, isBlock, found⟩
    rcases Body.mem_laidOut.mp laidOut with ⟨id, isLaidOut, foundBlock⟩
    refine Body.mem_code.mpr
      ⟨block, Body.mem_laidOut.mpr ⟨id, layout id isLaidOut, ?_⟩, isBlock, found⟩
    rw [blocks id isLaidOut]
    exact foundBlock

namespace Block.Honours

variable {module : Module} {function : Function} {promises : Promises} {block : Block}

theorem empty (id : BlockId) (label : String) :
    (Block.empty id label).Honours module function promises where
  uses := by simp [Block.empty]
  typed := by simp [Block.empty]
  usesAtEnd := by simp [Block.empty, Terminator.operands]
  typedAtEnd := fun ended => by cases ended
  edges := by simp [Block.empty, Block.successors, Terminator.successors]

theorem agree (honours : block.Honours module function promises) {next : Promises}
    (own : next block.id = promises block.id)
    (others : ∀ target ∈ block.successors, next target = promises target) :
    block.Honours module function next := by
  have knows : ∀ count temp, block.Knows promises count temp → block.Knows next count temp := by
    intro count temp
    unfold Block.Knows
    rw [own]
    exact fun knows => knows
  exact {
    uses := fun index instruction found operand member =>
      (honours.uses index instruction found operand member).mono (knows index)
    typed := honours.typed
    usesAtEnd := fun operand member => (honours.usesAtEnd operand member).mono (knows _)
    typedAtEnd := honours.typedAtEnd
    edges := by
      intro target edge
      rw [others target edge]
      rcases honours.edges target edge with ⟨reason, temps⟩
      exact ⟨reason, fun temp promised => knows _ temp (temps temp promised)⟩ }

theorem addInstruction (honours : block.Honours module function promises)
    (isOpen : block.isTerminated = false) {instruction : Instruction}
    (operands : ∀ operand ∈ instruction.operands, function.signature.Offers module
      (block.Knows promises block.instructions.length) operand)
    (typed : function.TypedInstruction module instruction) :
    (block.addInstruction instruction).Honours module function promises := by
  have unfinished : block.terminator = .unfinished := by
    by_contra finished
    rw [Function.isTerminated_iff.mpr finished] at isOpen
    cases isOpen
  have extends_ := Place.extends_addInstruction isOpen instruction
  exact {
    uses := by
      intro index other found operand member
      change (block.instructions ++ [instruction])[index]? = some other at found
      by_cases old : index < block.instructions.length
      · rw [List.getElem?_append_left old] at found
        exact (honours.uses index other found operand member).mono fun _ knows =>
          knows.extend extends_
      · rw [List.getElem?_append_right (Nat.le_of_not_lt old), List.getElem?_singleton] at found
        split at found
        · cases found
          exact (operands operand member).mono fun _ knows =>
            (knows.extend extends_).mono (Nat.le_of_not_lt old)
        · cases found
    typed := by
      intro other member
      rcases List.mem_append.mp member with old | new
      · exact honours.typed other old
      · rw [List.mem_singleton.mp new]
        exact typed
    usesAtEnd := by
      change ∀ operand ∈ block.terminator.operands, _
      rw [unfinished]
      intro operand member
      cases member
    typedAtEnd := by
      change block.isTerminated = true → _
      rw [isOpen]
      intro ended
      cases ended
    edges := by
      change ∀ target ∈ block.successors, _
      rw [Place.successors_of_open isOpen]
      intro target member
      cases member }

theorem setTerminator (honours : block.Honours module function promises)
    {terminator : Terminator}
    (operands : ∀ operand ∈ terminator.operands, function.signature.Offers module
      (block.Knows promises block.instructions.length) operand)
    (typed : function.TypedTerminator terminator)
    (edges : ∀ target ∈ terminator.successors, (promises target).reason ∧
      ∀ temp, (promises target).temps temp →
        block.Knows promises block.instructions.length temp) :
    (block.setTerminator terminator).Honours module function promises :=
  ⟨honours.uses, honours.typed, operands, fun _ => typed, edges⟩

end Block.Honours

namespace Place

/-! ## What is known at a place -/

/-- The temp is defined where the next instruction goes. -/
def Knows (promises : Promises) (place : Place) (temp : TempId) : Prop :=
  ∃ block, place.current? = some block ∧ block.Knows promises block.instructions.length temp

/-- The promise that control comes from this place, and only if `aim` is the case. -/
def outlook (promises : Promises) (place : Place) (aim : Prop) : Promise :=
  ⟨place.isLive = true ∧ aim, place.Knows promises⟩

/-- The operand can be used at the place as a value of the type. -/
structure Supplies (module : Module) (host : Function) (promises : Promises) (place : Place)
    (operand : Operand) (ty : Ty) : Prop where
  offers : host.signature.Offers module (place.Knows promises) operand
  provides : (host.withBody place.body).Provides operand ty

/-- The operand can be used at the place as the address of values of the type. -/
structure Locates (module : Module) (host : Function) (promises : Promises) (place : Place)
    (operand : Operand) (ty : Ty) : Prop where
  offers : host.signature.Offers module (place.Knows promises) operand
  addresses : (host.withBody place.body).Addresses module operand ty

/-- Control may go from the place to `target`. -/
structure Admits (promises : Promises) (pending : List BlockId) (place : Place)
    (target : BlockId) : Prop where
  reason : (promises target).reason
  temps : ∀ temp, (promises target).temps temp → place.Knows promises temp
  numbered : target.number.toNat < place.body.nextBlock.toNat
  placed : target ∈ place.body.layout ∨ target ∈ pending

/-- The instruction may be added at the place. -/
structure Suits (module : Module) (host : Function) (promises : Promises) (place : Place)
    (instruction : Instruction) : Prop where
  operands : ∀ operand ∈ instruction.operands,
    host.signature.Offers module (place.Knows promises) operand
  typed : (host.withBody place.body).TypedInstruction module instruction

/-- The terminator may end the block at the place. -/
structure Accepts (module : Module) (host : Function) (promises : Promises)
    (pending : List BlockId) (place : Place) (terminator : Terminator) : Prop where
  operands : ∀ operand ∈ terminator.operands,
    host.signature.Offers module (place.Knows promises) operand
  typed : (host.withBody place.body).TypedTerminator terminator
  targets : ∀ target ∈ terminator.successors, place.Admits promises pending target

/-- More has been built and promised, and control comes to the second place only by way of the
first one. -/
structure Carries (promises : Promises) (place : Place) (next : Promises) (after : Place) :
    Prop where
  later : place.body.Later after.body
  agree : ∀ id, id.number.toNat < place.body.nextBlock.toNat → next id = promises id
  live : after.isLive = true → place.isLive = true
  knows : after.isLive = true → ∀ temp, place.Knows promises temp → after.Knows next temp

variable {module : Module} {host : Function} {promises next last : Promises}
  {pending : List BlockId} {place middle after : Place}

namespace Carries

theorem refl (promises : Promises) (place : Place) : Carries promises place promises place where
  later := .refl _
  agree := fun _ _ => rfl
  live := fun live => live
  knows := fun _ _ knows => knows

theorem trans (first : Carries promises place next middle)
    (second : Carries next middle last after) : Carries promises place last after where
  later := first.later.trans second.later
  agree := fun id old =>
    (second.agree id (Nat.lt_of_lt_of_le old first.later.numbers)).trans (first.agree id old)
  live := fun live => first.live (second.live live)
  knows := fun live temp knows =>
    second.knows live temp (first.knows (second.live live) temp knows)

theorem of_dead (later : place.body.Later after.body) (dead : after.isLive = false) :
    Carries promises place promises after where
  later := later
  agree := fun _ _ => rfl
  live := fun live => by rw [dead] at live; cases live
  knows := fun live => by rw [dead] at live; cases live

theorem supplies (carries : Carries promises place next after) (live : after.isLive = true)
    {operand : Operand} {ty : Ty} (supplies : place.Supplies module host promises operand ty) :
    after.Supplies module host next operand ty :=
  ⟨supplies.offers.mono (carries.knows live), supplies.provides.later carries.later⟩

theorem locates (carries : Carries promises place next after) (live : after.isLive = true)
    {operand : Operand} {ty : Ty} (locates : place.Locates module host promises operand ty) :
    after.Locates module host next operand ty :=
  ⟨locates.offers.mono (carries.knows live), locates.addresses.later carries.later⟩

theorem admits (carries : Carries promises place next after) (live : after.isLive = true)
    {more : List BlockId} (within : ∀ id ∈ pending, id ∈ more) {target : BlockId}
    (admits : place.Admits promises pending target) : after.Admits next more target := by
  have same := carries.agree target admits.numbered
  refine ⟨?_, ?_, Nat.lt_of_lt_of_le admits.numbered carries.later.numbers, ?_⟩
  · rw [same]
    exact admits.reason
  · rw [same]
    exact fun temp promised => carries.knows live temp (admits.temps temp promised)
  · rcases admits.placed with laidOut | waits
    · exact .inl (carries.later.layout target laidOut)
    · exact .inr (within target waits)

end Carries

/-- It has been promised that control comes to `id` only from `place`, and only if `aim` is the
case. -/
structure Awaits (promises : Promises) (place : Place) (aim : Prop) (next : Promises)
    (after : Place) (id : BlockId) : Prop where
  promised : next id = place.outlook promises aim
  numbered : id.number.toNat < after.body.nextBlock.toNat

namespace Awaits

variable {aim : Prop} {id : BlockId}

theorem carried (awaits : Awaits promises place aim next middle id)
    (carries : Carries next middle last after) : Awaits promises place aim last after id :=
  ⟨(carries.agree id awaits.numbered).trans awaits.promised,
    Nat.lt_of_lt_of_le awaits.numbered carries.later.numbers⟩

theorem admits (awaits : Awaits promises place aim next after id)
    (carries : Carries promises place next after) (live : after.isLive = true) (reason : aim)
    (placed : id ∈ after.body.layout ∨ id ∈ pending) : after.Admits next pending id := by
  refine ⟨?_, ?_, awaits.numbered, placed⟩
  · rw [awaits.promised]
    exact ⟨carries.live live, reason⟩
  · rw [awaits.promised]
    exact carries.knows live

end Awaits

/-! ## Operations -/

theorem Regular.named_current (regular : place.Regular) {block : Block}
    (current : place.current? = some block) : place.block = some block.id ∧
      place.body.block? block.id = some block := by
  rcases Option.bind_eq_some_iff.mp current with ⟨id, stands, found⟩
  rw [regular.named id block found]
  exact ⟨stands, found⟩

theorem Knows.agree (regular : place.Regular)
    (agree : ∀ id, id.number.toNat < place.body.nextBlock.toNat → next id = promises id)
    {temp : TempId} (knows : place.Knows promises temp) : place.Knows next temp := by
  rcases knows with ⟨block, current, promised | defined⟩
  · refine ⟨block, current, .inl ?_⟩
    rw [agree _ (regular.numbered _ block (regular.named_current current).2)]
    exact promised
  · exact ⟨block, current, .inr defined⟩

theorem isLive_ready (regular : place.Regular) : place.ready.isLive = place.isLive := by
  cases isOpen : place.isOpen with
  | true => rw [Lowering.ready_of_isOpen isOpen]
  | false =>
      rw [isLive_of_not_isOpen isOpen]
      cases live : place.ready.isLive with
      | false => rfl
      | true =>
          rcases exists_of_isLive live with ⟨id, block, stands, member, _⟩
          simp only [Place.ready, isOpen, Bool.false_eq_true, if_false, Option.some.injEq]
            at stands member
          subst stands
          exact absurd member regular.fresh_not_mem_layout

theorem current?_create (regular : place.Regular) (label : String) :
    (place.create label).current? = place.current? := by
  unfold Place.current?
  change place.block.bind (place.create label).body.block? = _
  cases stands : place.block with
  | none => rfl
  | some id =>
      rcases regular.standing id stands with ⟨block, found⟩
      rw [Option.bind_some, Option.bind_some, block?_create, if_neg]
      rintro rfl
      rw [regular.block?_fresh] at found
      cases found

theorem isLive_create (regular : place.Regular) (label : String) :
    (place.create label).isLive = place.isLive := by
  unfold Place.isLive Place.isOpen
  rw [current?_create regular label]
  rfl

theorem later_ready {count : Nat} (regular : place.Regular) (room : place.Room (count + 1)) :
    place.body.Later place.ready.body :=
  (within_ready room (Nat.le_refl _)).later (Nat.le_refl _) regular (regular.ready room)

theorem carries_ready {count : Nat} (regular : place.Regular) (room : place.Room (count + 1)) :
    Carries promises place promises place.ready where
  later := later_ready regular room
  agree := fun _ _ => rfl
  live := fun live => (isLive_ready regular).symm.trans live
  knows := by
    intro live temp knows
    rw [isLive_ready regular] at live
    rw [Lowering.ready_of_isOpen (Lowering.isOpen_of_isLive live)]
    exact knows

theorem isLive_change (isOpen : place.isOpen = true) {change : Block → Block}
    (keepsOpen : ∀ block : Block, block.isTerminated = false →
      (change block).isTerminated = false) :
    (place.change change).isLive = place.isLive := by
  rcases exists_of_isOpen isOpen with ⟨id, block, stands, found, unfinished⟩
  have stays : (place.change change).block = some id := (block_change _ _).trans stands
  have changed : (place.change change).body.block? id = some (change block) := by
    rw [block?_change stands, if_pos rfl, found]
    rfl
  have laidOut : (place.change change).body.isLaidOut id = place.body.isLaidOut id := by
    simp only [Body.isLaidOut, layout_change]
  simp only [Place.isLive, stays, stands, laidOut, isOpen, isOpen_of_block stays changed,
    keepsOpen block unfinished, Bool.not_false]

theorem isLive_add (isOpen : place.isOpen = true) (instruction : Instruction) :
    (place.add instruction).isLive = place.isLive :=
  isLive_change isOpen fun _ unfinished => unfinished

theorem carries_add (regular : place.Regular) (isOpen : place.isOpen = true)
    {instruction : Instruction} (regularAfter : (place.add instruction).Regular) :
    Carries promises place promises (place.add instruction) where
  later := (within_add _ isOpen instruction).later (Nat.le_refl _) regular regularAfter
  agree := fun _ _ => rfl
  live := fun live => (isLive_add isOpen instruction).symm.trans live
  knows := by
    intro _ temp knows
    rcases knows with ⟨block, current, knows⟩
    rcases exists_of_isOpen isOpen with ⟨id, other, stands, found, unfinished⟩
    have same : block = other := by
      rw [Place.current?, stands, Option.bind_some, found] at current
      exact (Option.some.inj current).symm
    subst same
    refine ⟨block.addInstruction instruction, ?_, ?_⟩
    · rw [Place.current?, Place.add, block_change, stands, Option.bind_some, block?_change stands,
        if_pos rfl, found]
      rfl
    · refine (knows.extend (extends_addInstruction unfinished instruction)).mono ?_
      simp [Block.addInstruction]

theorem carries_takeTemp (regular : place.Regular) (ty : Ty) :
    Carries promises place promises (place.takeTemp ty) where
  later := (within_takeTemp _ place ty).later (Nat.le_refl _) regular (regular.takeTemp ty)
  agree := fun _ _ => rfl
  live := fun live => live
  knows := fun _ _ knows => knows

theorem tempType?_fresh {count : Nat} (room : place.Room count) (ty : Ty) :
    (place.takeTemp ty).body.tempType? place.freshTemp = some ty := by
  change (place.body.temps.push ty)[place.freshTemp.number.toNat]? = some ty
  rw [Regular.toNat_freshTemp room]
  simp

theorem knows_add (isOpen : place.isOpen = true) {instruction : Instruction} {temp : TempId}
    (defines : instruction.defined? = some temp) :
    (place.add instruction).Knows promises temp := by
  rcases exists_of_isOpen isOpen with ⟨id, block, stands, found, _⟩
  refine ⟨block.addInstruction instruction, ?_, .inr ⟨block.instructions.length, ?_, instruction,
    ?_, defines⟩⟩
  · rw [Place.current?, Place.add, block_change, stands, Option.bind_some, block?_change stands,
      if_pos rfl, found]
    rfl
  · simp [Block.addInstruction]
  · simp [Block.addInstruction]

theorem mem_code_add (live : place.isLive = true) (instruction : Instruction) :
    ∃ block index, ⟨block, index, instruction⟩ ∈ (place.add instruction).body.code := by
  rcases exists_of_isLive live with ⟨id, block, stands, member, found, _⟩
  refine ⟨block.id, block.instructions.length, Body.mem_code.mpr
    ⟨block.addInstruction instruction, Body.mem_laidOut.mpr ⟨id, ?_, ?_⟩, rfl, ?_⟩⟩
  · rw [Place.add, layout_change]
    exact member
  · rw [Place.add, block?_change stands, if_pos rfl, found]
    rfl
  · simp [Block.addInstruction]

theorem mem_layout_enter (live : place.isLive = true) (id : BlockId) (closing : Bool) :
    id ∈ (place.enter id closing).body.layout := by
  rw [enter_of_edge (edgeTo_leaveTo live id)]
  exact List.mem_append_right _ (List.mem_singleton_self id)

theorem isLive_terminate (isOpen : place.isOpen = true) {terminator : Terminator}
    (finished : terminator.isFinished = true) : (place.terminate terminator).isLive = false :=
  isLive_of_not_isOpen (Regular.isOpen_terminate isOpen finished)

namespace Honours

theorem mono (honours : place.Honours module host promises pending) {more : List BlockId}
    (within : ∀ id ∈ pending, id ∈ more) : place.Honours module host promises more :=
  { honours with
    targets := by
      intro id member block found target edge
      rcases honours.targets id member block found target edge with ⟨numbered, placed⟩
      exact ⟨numbered, placed.imp_right (within target)⟩ }

theorem of_same (honours : place.Honours module host promises pending)
    (later : place.body.Later after.body) (layout : after.body.layout = place.body.layout)
    (blocks : ∀ id ∈ place.body.layout, after.body.block? id = place.body.block? id) :
    after.Honours module host promises pending where
  blocks := by
    intro id member block found
    rw [layout] at member
    rw [blocks id member] at found
    exact (honours.blocks id member block found).later later
  reached := by
    rw [layout]
    exact honours.reached
  targets := by
    intro id member block found target edge
    rw [layout] at member ⊢
    rw [blocks id member] at found
    rcases honours.targets id member block found target edge with ⟨numbered, placed⟩
    exact ⟨Nat.lt_of_lt_of_le numbered later.numbers, placed⟩

theorem promise (honours : place.Honours module host promises pending) (regular : place.Regular)
    (promise : Promise) :
    place.Honours module host (Function.update promises place.freshBlock promise) pending where
  blocks := by
    intro id member block found
    have isOld : ∀ other : BlockId, other.number.toNat < place.body.nextBlock.toNat →
        Function.update promises place.freshBlock promise other = promises other := by
      intro other old
      apply Function.update_of_ne
      rintro rfl
      exact Nat.lt_irrefl _ old
    refine (honours.blocks id member block found).agree (isOld _ ?_) fun target edge =>
      isOld target (honours.targets id member block found target edge).1
    rw [regular.named id block found]
    exact regular.numbered id block found
  reached := by
    intro id member
    rw [Function.update_of_ne]
    · exact honours.reached id member
    · rintro rfl
      exact regular.fresh_not_mem_layout member
  targets := honours.targets

theorem create (honours : place.Honours module host promises pending) (regular : place.Regular)
    {count : Nat} (room : place.Room (count + 1)) (label : String) (promise : Promise) :
    (place.create label).Honours module host (Function.update promises place.freshBlock promise)
      (place.freshBlock :: pending) := by
  have later := (within_create room (Nat.le_refl _) label).later (Nat.le_refl _) regular
    (regular.create room label)
  refine ((honours.promise regular promise).of_same later rfl ?_).mono fun id member =>
    List.mem_cons_of_mem _ member
  intro id member
  rw [block?_create, if_neg]
  rintro rfl
  exact regular.fresh_not_mem_layout member

theorem ready (honours : place.Honours module host promises pending) (regular : place.Regular)
    {count : Nat} (room : place.Room (count + 1)) :
    place.ready.Honours module host promises pending := by
  refine honours.of_same (later_ready regular room) ?_ ?_
  · unfold Place.ready
    split <;> rfl
  · intro id member
    unfold Place.ready
    split
    · rfl
    · change (place.create Cursor.unreachableLabel).body.block? id = _
      rw [block?_create, if_neg]
      rintro rfl
      exact regular.fresh_not_mem_layout member

/-- The current block is changed. If it is laid out, what it becomes has to keep promises. -/
theorem change (honours : place.Honours module host promises pending) (isOpen : place.isOpen = true)
    {change : Block → Block} (later : place.body.Later (place.change change).body)
    (keeps : place.isLive = true → ∀ block, place.current? = some block →
      block.Honours module (host.withBody place.body) promises →
      (change block).Honours module (host.withBody place.body) promises ∧
      ∀ target ∈ (change block).successors,
        target.number.toNat < place.body.nextBlock.toNat ∧
          (target ∈ place.body.layout ∨ target ∈ pending)) :
    (place.change change).Honours module host promises pending := by
  rcases exists_of_isOpen isOpen with ⟨here, current, stands, foundHere, unfinished⟩
  have isCurrent : place.current? = some current := by
    rw [Place.current?, stands, Option.bind_some, foundHere]
  have either : ∀ id block, (place.change change).body.block? id = some block →
      place.body.block? id = some block ∨ id = here ∧ block = change current := by
    intro id block found
    rcases exists_of_change stands found with ⟨old, foundOld, ⟨rfl, rfl⟩ | ⟨_, rfl⟩⟩
    · cases foundHere.symm.trans foundOld
      exact .inr ⟨rfl, rfl⟩
    · exact .inl foundOld
  have changed : here ∈ place.body.layout → _ := fun member =>
    keeps (isLive_of_block stands member foundHere unfinished) current isCurrent
      (honours.blocks here member current foundHere)
  refine ⟨?_, ?_, ?_⟩
  · intro id member block found
    rw [layout_change] at member
    rcases either id block found with old | ⟨rfl, rfl⟩
    · exact (honours.blocks id member block old).later later
    · exact (changed member).1.later later
  · rw [layout_change]
    exact honours.reached
  · intro id member block found target edge
    rw [layout_change] at member ⊢
    rw [nextBlock_change]
    rcases either id block found with old | ⟨rfl, rfl⟩
    · exact honours.targets id member block old target edge
    · exact (changed member).2 target edge

theorem addHere (honours : place.Honours module host promises pending) (regular : place.Regular)
    (isOpen : place.isOpen = true) {instruction : Instruction}
    (regularAfter : (place.add instruction).Regular)
    (suits : place.isLive = true → place.Suits module host promises instruction) :
    (place.add instruction).Honours module host promises pending := by
  have later := (within_add _ isOpen instruction).later (Nat.le_refl _) regular regularAfter
  refine honours.change isOpen later ?_
  intro live block current keeps
  have unfinished : block.isTerminated = false := by
    rw [Place.isOpen, current] at isOpen
    simpa using isOpen
  refine ⟨keeps.addInstruction unfinished ?_ (suits live).typed, ?_⟩
  · intro operand member
    refine ((suits live).operands operand member).mono ?_
    rintro temp ⟨other, isCurrent, knows⟩
    rw [current] at isCurrent
    cases isCurrent
    exact knows
  · change ∀ target ∈ block.successors, _
    rw [successors_of_open unfinished]
    intro target edge
    cases edge

theorem terminateHere (honours : place.Honours module host promises pending)
    (regular : place.Regular) (isOpen : place.isOpen = true) {terminator : Terminator}
    (accepts : place.isLive = true → place.Accepts module host promises pending terminator) :
    (place.terminate terminator).Honours module host promises pending := by
  have later := (within_terminate _ isOpen terminator).later (Nat.le_refl _) regular
    (regular.terminate isOpen terminator)
  refine honours.change isOpen later ?_
  intro live block current keeps
  have knows : ∀ temp, place.Knows promises temp →
      block.Knows promises block.instructions.length temp := by
    rintro temp ⟨other, isCurrent, knows⟩
    rw [current] at isCurrent
    cases isCurrent
    exact knows
  refine ⟨keeps.setTerminator ?_ (accepts live).typed ?_, ?_⟩
  · exact fun operand member => ((accepts live).operands operand member).mono knows
  · intro target edge
    have admits := (accepts live).targets target edge
    exact ⟨admits.reason, fun temp promised => knows temp (admits.temps temp promised)⟩
  · intro target edge
    have admits := (accepts live).targets target edge
    exact ⟨admits.numbered, admits.placed⟩

end Honours

/-! ## Steps

What lowering does at a place, which need not be live nor even open. -/

theorem promises_create (promises : Promises) (place : Place) {count : Nat}
    (honours : middle.Honours module host next pending) (regular : middle.Regular)
    (room : middle.Room (count + 1)) (label : String) (aim : Prop) :
    ∃ last, (middle.create label).Honours module host last (middle.freshBlock :: pending) ∧
      Carries next middle last (middle.create label) ∧
      Awaits promises place aim last (middle.create label) middle.freshBlock := by
  let promise := place.outlook promises aim
  have agree : ∀ id : BlockId, id.number.toNat < middle.body.nextBlock.toNat →
      Function.update next middle.freshBlock promise id = next id := by
    intro id old
    apply Function.update_of_ne
    rintro rfl
    exact Nat.lt_irrefl _ old
  refine ⟨_, honours.create regular room label promise, ?_, Function.update_self _ _ _, ?_⟩
  · exact {
      later := (within_create room (Nat.le_refl _) label).later (Nat.le_refl _) regular
        (regular.create room label)
      agree := agree
      live := fun live => (isLive_create regular label).symm.trans live
      knows := by
        intro _ temp knows
        rcases knows.agree regular agree with ⟨block, isCurrent, known⟩
        exact ⟨block, (current?_create regular label).trans isCurrent, known⟩ }
  · rw [toNat_nextBlock_create room]
    exact Nat.lt_succ_self _

section Steps

variable {count : Nat} (honours : place.Honours module host promises pending)
  (regular : place.Regular)

include honours regular

theorem promises_add (room : place.Room (count + 1)) {instruction : Instruction}
    (nothing : instruction.defined? = none)
    (suits : place.isLive = true → place.Suits module host promises instruction) :
    (place.ready.add instruction).Honours module host promises pending ∧
      Carries promises place promises (place.ready.add instruction) := by
  have isOpen := Lowering.isOpen_ready place
  have regularReady := regular.ready room
  have regularAfter := regularReady.add isOpen nothing
  refine ⟨(honours.ready regular room).addHere regularReady isOpen regularAfter fun live => ?_,
    (carries_ready regular room).trans (carries_add regularReady isOpen regularAfter)⟩
  rw [isLive_ready regular] at live
  rw [Lowering.ready_of_isOpen (Lowering.isOpen_of_isLive live)]
  exact suits live

theorem promises_define (room : place.Room (count + 1)) {ty : Ty}
    {instruction : Operand → Instruction}
    (defined : ∀ temp, (instruction (.temp temp)).defined? = some temp)
    (suits : place.isLive = true → (place.takeTemp ty).Suits module host promises
      (instruction (.temp place.freshTemp))) :
    (place.ready.define ty instruction).Honours module host promises pending ∧
      Carries promises place promises (place.ready.define ty instruction) ∧
      ((place.ready.define ty instruction).isLive = true →
        (place.ready.define ty instruction).Supplies module host promises
          (.temp place.ready.freshTemp) ty) := by
  have isOpen := Lowering.isOpen_ready place
  have regularReady := regular.ready room
  have roomReady := room.ready
  have regularAfter : (place.ready.define ty instruction).Regular :=
    regularReady.define isOpen roomReady defined
  have taken : Carries promises place.ready promises (place.ready.takeTemp ty) :=
    carries_takeTemp regularReady ty
  have added : Carries promises (place.ready.takeTemp ty) promises
      (place.ready.define ty instruction) :=
    carries_add (regularReady.takeTemp ty) isOpen regularAfter
  refine ⟨?_, (carries_ready regular room).trans (taken.trans added), ?_⟩
  · refine ((honours.ready regular room).of_same taken.later rfl fun _ _ => rfl).addHere
      (regularReady.takeTemp ty) isOpen regularAfter fun live => ?_
    change place.ready.isLive = true at live
    rw [isLive_ready regular] at live
    rw [Lowering.ready_of_isOpen (Lowering.isOpen_of_isLive live)]
    exact suits live
  · intro live
    have isOpenTaken : (place.ready.takeTemp ty).isOpen = true := isOpen
    exact ⟨knows_add isOpenTaken (defined _),
      Function.Provides.later added.later (.temp (tempType?_fresh roomReady ty))⟩

theorem promises_terminate (room : place.Room (count + 1)) {terminator : Terminator}
    (finished : terminator.isFinished = true)
    (accepts : place.isLive = true → place.Accepts module host promises pending terminator) :
    (place.ready.terminate terminator).Honours module host promises pending ∧
      Carries promises place promises (place.ready.terminate terminator) ∧
      (place.ready.terminate terminator).isLive = false := by
  have isOpen := Lowering.isOpen_ready place
  have regularReady := regular.ready room
  have dead := isLive_terminate isOpen finished
  refine ⟨(honours.ready regular room).terminateHere regularReady isOpen fun live => ?_,
    .of_dead ((later_ready regular room).trans ((within_terminate _ isOpen terminator).later
      (Nat.le_refl _) regularReady (regularReady.terminate isOpen terminator))) dead, dead⟩
  rw [isLive_ready regular] at live
  rw [Lowering.ready_of_isOpen (Lowering.isOpen_of_isLive live)]
  exact accepts live

theorem promises_leaveTo {target : BlockId}
    (admits : place.isLive = true → place.Admits promises pending target) :
    (place.leaveTo target).Honours module host promises pending ∧
      Carries promises place promises (place.leaveTo target) := by
  have later := (within_leaveTo _ place target).later (Nat.le_refl _) regular
    (regular.leaveTo target)
  refine ⟨?_, .of_dead later rfl⟩
  unfold Place.leaveTo
  cases isOpen : place.isOpen with
  | true =>
      have accepts : place.isLive = true →
          place.Accepts module host promises pending (.jump target) := by
        intro live
        refine ⟨by simp [Terminator.operands], .jump, ?_⟩
        intro other edge
        rw [List.mem_singleton.mp edge]
        exact admits live
      have ended := honours.terminateHere regular isOpen accepts
      exact ⟨ended.blocks, ended.reached, ended.targets⟩
  | false => exact ⟨honours.blocks, honours.reached, honours.targets⟩

omit honours regular in
/-- What has been promised to a block can be relied on when it has been entered. -/
theorem promises_enter {id : BlockId} {label : String}
    (honours : place.Honours module host promises (id :: pending)) (regular : place.Regular)
    (waits : place.Waiting id label)
    (admits : place.isLive = true → place.Admits promises (id :: pending) id) (closing : Bool) :
    (place.enter id closing).Honours module host promises pending ∧
      place.body.Later (place.enter id closing).body ∧
      ((place.enter id closing).isLive = true → (promises id).reason ∧
        ∀ temp, (promises id).temps temp → (place.enter id closing).Knows promises temp) := by
  rcases promises_leaveTo honours regular admits with ⟨left, carries⟩
  have waiting := waits.leaveTo id
  have regularLeft := regular.leaveTo id
  simp only [Place.enter]
  by_cases counted : (place.leaveTo id).body.predecessorCount id = 0
  · -- Nothing leads to the block, so that it does not matter.
    rw [if_pos counted]
    have targets : ∀ other ∈ (place.leaveTo id).body.layout, ∀ block,
        (place.leaveTo id).body.block? other = some block → ∀ target ∈ block.successors,
          target.number.toNat < (place.leaveTo id).body.nextBlock.toNat ∧
            (target ∈ (place.leaveTo id).body.layout ∨ target ∈ pending) := by
      intro other member block found target edge
      rcases left.targets other member block found target edge with ⟨numbered, laidOut | waits⟩
      · exact ⟨numbered, .inl laidOut⟩
      · rcases List.mem_cons.mp waits with rfl | inPending
        · exact absurd counted (EdgeTo.predecessorCount_ne_zero ⟨other, member, block, found, edge⟩)
        · exact ⟨numbered, .inr inPending⟩
    have stays : (place.leaveTo id).Honours module host promises pending :=
      ⟨left.blocks, left.reached, targets⟩
    cases closing with
    | true =>
        rw [if_pos rfl]
        have same : ∀ other ∈ (place.leaveTo id).body.layout,
            ((place.leaveTo id).discard id).body.block? other =
              (place.leaveTo id).body.block? other := by
          intro other member
          rw [block?_discard, if_neg]
          rintro rfl
          exact waiting.missing member
        have later : (place.leaveTo id).body.Later ((place.leaveTo id).discard id).body :=
          .of_kept (Nat.le_refl _) (fun _ member => member) rfl same
        exact ⟨stays.of_same later rfl same, carries.later.trans later, fun live => by cases live⟩
    | false =>
        rw [if_neg (by simp)]
        refine ⟨⟨stays.blocks, stays.reached, stays.targets⟩, carries.later, fun live => ?_⟩
        rcases exists_of_isLive live with ⟨other, _, stands, member, _⟩
        cases stands
        exact absurd member waiting.missing
  · rw [if_neg counted]
    rcases Regular.exists_predecessor counted with ⟨source, member, block, found, edge⟩
    have reason := ((left.blocks source member block found).edges id edge).1
    have later : (place.leaveTo id).body.Later ((place.leaveTo id).layOut id).body :=
      .of_kept (Nat.le_refl _) (fun _ member => List.mem_append_left _ member) rfl fun _ _ => rfl
    refine ⟨⟨?_, ?_, ?_⟩, carries.later.trans later, fun _ => ⟨reason, fun temp promised => ?_⟩⟩
    · intro other isLaidOut current foundCurrent
      rcases List.mem_append.mp isLaidOut with old | new
      · exact (left.blocks other old current foundCurrent).later later
      · cases List.mem_singleton.mp new
        change (place.leaveTo id).body.block? id = some current at foundCurrent
        rw [waiting.found] at foundCurrent
        cases foundCurrent
        exact .empty id label
    · intro other isLaidOut
      rcases List.mem_append.mp isLaidOut with old | new
      · exact left.reached other old
      · cases List.mem_singleton.mp new
        exact reason
    · intro other isLaidOut current foundCurrent target leads
      rcases List.mem_append.mp isLaidOut with old | new
      · rcases left.targets other old current foundCurrent target leads with
          ⟨numbered, laidOut | waits⟩
        · exact ⟨numbered, .inl (List.mem_append_left _ laidOut)⟩
        · rcases List.mem_cons.mp waits with rfl | inPending
          · exact ⟨numbered, .inl (List.mem_append_right _ (List.mem_singleton_self _))⟩
          · exact ⟨numbered, .inr inPending⟩
      · cases List.mem_singleton.mp new
        change (place.leaveTo id).body.block? id = some current at foundCurrent
        rw [waiting.found] at foundCurrent
        cases foundCurrent
        cases leads
    · exact ⟨.empty id label, waiting.found, .inl promised⟩

omit honours regular in
/-- A block that control has been promised to come to from an earlier place is entered. -/
theorem carries_enter {id : BlockId} {label : String} {aim : Prop}
    (honours : middle.Honours module host next (id :: pending)) (regular : middle.Regular)
    (waits : middle.Waiting id label) (carries : Carries promises place next middle)
    (awaits : Awaits promises place aim next middle id) (reason : middle.isLive = true → aim)
    (closing : Bool) :
    (middle.enter id closing).Honours module host next pending ∧
      Carries promises place next (middle.enter id closing) ∧
      ((middle.enter id closing).isLive = true → aim) := by
  have admits : middle.isLive = true → middle.Admits next (id :: pending) id := fun live =>
    awaits.admits carries live (reason live) (.inr List.mem_cons_self)
  rcases promises_enter honours regular waits admits closing with ⟨after, later, relies⟩
  rw [awaits.promised] at relies
  refine ⟨after, ⟨carries.later.trans later, carries.agree, ?_, ?_⟩, fun live => (relies live).1.2⟩
  · exact fun live => (relies live).1.1
  · exact fun live => (relies live).2

theorem promises_returnIfLive {value : Option Operand}
    (accepts : place.isLive = true → place.Accepts module host promises pending (.ret value)) :
    (place.returnIfLive value).Honours module host promises pending := by
  unfold Place.returnIfLive
  split
  · rename_i live
    exact honours.terminateHere regular (Lowering.isOpen_of_isLive live) accepts
  · exact honours

end Steps

/-- Nothing is promised to the first block of a function. -/
def noPromises : Promises := fun _ => ⟨True, fun _ => False⟩

theorem honours_opened :
    (Place.mk .empty none).opened.Honours module host noPromises [] := by
  have only : ∀ id ∈ (Place.mk .empty none).opened.body.layout, ∀ block,
      (Place.mk .empty none).opened.body.block? id = some block → block = .empty ⟨0⟩ "entry" := by
    intro id member block found
    have first : (Place.mk .empty none).opened.body.block? ⟨0⟩ = some (.empty ⟨0⟩ "entry") := rfl
    have isFirst : id = ⟨0⟩ := List.mem_singleton.mp member
    rw [isFirst, first] at found
    exact (Option.some.inj found).symm
  refine ⟨?_, fun _ _ => trivial, ?_⟩
  · intro id member block found
    rw [only id member block found]
    exact .empty _ _
  · intro id member block found target edge
    rw [only id member block found] at edge
    cases edge

end Place

end ScriptLowering.Code
