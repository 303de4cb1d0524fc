import ScriptLowering.Proofs.RegularPlaces

/-! # How a function grows

Lowering a statement leaves nearly everything alone that was there before. Blocks keep what
they hold, and only the current one may be added to; new blocks are laid out behind the old
ones. The blocks numbered below a given one are the old ones: what is created and laid out
inside of a statement is new from the point of view of the statement as a whole.
-/

namespace ScriptLowering.Code

/-- `after` is `before` with more in it, unless `before` is complete. -/
structure Block.Extends (before after : Block) : Prop where
  sameId : after.id = before.id
  sameLabel : after.label = before.label
  instructions : ∃ more, after.instructions = before.instructions ++ more
  complete : before.isTerminated = true → after = before

namespace Block.Extends

theorem refl (block : Block) : block.Extends block :=
  ⟨rfl, rfl, ⟨[], (List.append_nil _).symm⟩, fun _ => rfl⟩

theorem trans {first second third : Block} (left : first.Extends second)
    (right : second.Extends third) : first.Extends third where
  sameId := right.sameId.trans left.sameId
  sameLabel := right.sameLabel.trans left.sameLabel
  instructions := by
    rcases left.instructions with ⟨more, first⟩
    rcases right.instructions with ⟨others, second⟩
    exact ⟨more ++ others, by rw [second, first, List.append_assoc]⟩
  complete := by
    intro terminated
    have same := left.complete terminated
    rw [same] at right
    exact right.complete terminated

end Block.Extends

namespace Place

/-- `next` has grown out of `place`, and the blocks numbered below `base` are old. -/
structure Within (base : Nat) (place next : Place) : Prop where
  blocks : place.body.nextBlock.toNat ≤ next.body.nextBlock.toNat
  temps : ∃ more, next.body.temps.toList = place.body.temps.toList ++ more
  layout : ∃ more, next.body.layout = place.body.layout ++ more ∧
    ∀ id ∈ more, base ≤ id.number.toNat
  kept : ∀ id, id.number.toNat < base → place.block ≠ some id →
    next.body.block? id = place.body.block? id
  extended : ∀ id block, id.number.toNat < base → place.block = some id →
    place.body.block? id = some block →
      ∃ after, next.body.block? id = some after ∧ block.Extends after
  moved : next.block = place.block ∨ next.block = none ∨
    ∃ id, next.block = some id ∧ base ≤ id.number.toNat

namespace Within

variable {base : Nat} {first second third : Place}

theorem refl (base : Nat) (place : Place) : place.Within base place where
  blocks := Nat.le_refl _
  temps := ⟨[], (List.append_nil _).symm⟩
  layout := ⟨[], (List.append_nil _).symm, fun _ member => by cases member⟩
  kept := fun _ _ _ => rfl
  extended := fun _ block _ _ found => ⟨block, found, .refl block⟩
  moved := .inl rfl

/-- Where the cursor may have gone to, no block is old but the one it stood in before. -/
theorem elsewhere (within : first.Within base second) {id : BlockId}
    (old : id.number.toNat < base) (away : first.block ≠ some id) :
    second.block ≠ some id := by
  intro stands
  rcases within.moved with same | left | ⟨other, atOther, new⟩
  · exact away (same ▸ stands)
  · rw [left] at stands
    cases stands
  · rw [atOther] at stands
    cases stands
    omega

theorem trans (left : first.Within base second) (right : second.Within base third) :
    first.Within base third where
  blocks := Nat.le_trans left.blocks right.blocks
  temps := by
    rcases left.temps with ⟨more, firstTemps⟩
    rcases right.temps with ⟨others, secondTemps⟩
    exact ⟨more ++ others, by rw [secondTemps, firstTemps, List.append_assoc]⟩
  layout := by
    rcases left.layout with ⟨more, firstLayout, firstNew⟩
    rcases right.layout with ⟨others, secondLayout, secondNew⟩
    refine ⟨more ++ others, by rw [secondLayout, firstLayout, List.append_assoc], ?_⟩
    intro id member
    exact (List.mem_append.mp member).elim (firstNew id) (secondNew id)
  kept := by
    intro id old away
    rw [right.kept id old (left.elsewhere old away), left.kept id old away]
  extended := by
    intro id block old stands found
    rcases left.extended id block old stands found with ⟨after, foundAfter, firstExtends⟩
    by_cases stillStands : second.block = some id
    · rcases right.extended id after old stillStands foundAfter with
        ⟨last, foundLast, secondExtends⟩
      exact ⟨last, foundLast, firstExtends.trans secondExtends⟩
    · refine ⟨after, ?_, firstExtends⟩
      rw [right.kept id old stillStands]
      exact foundAfter
  moved := by
    rcases right.moved with same | gone | new
    · rw [same]
      exact left.moved
    · exact .inr (.inl gone)
    · exact .inr (.inr new)

theorem mono {lower : Nat} (within : first.Within base second) (fewer : lower ≤ base) :
    first.Within lower second where
  blocks := within.blocks
  temps := within.temps
  layout := by
    rcases within.layout with ⟨more, grows, new⟩
    exact ⟨more, grows, fun id member => Nat.le_trans fewer (new id member)⟩
  kept := fun id old => within.kept id (Nat.lt_of_lt_of_le old fewer)
  extended := fun id block old => within.extended id block (Nat.lt_of_lt_of_le old fewer)
  moved := by
    rcases within.moved with same | gone | ⟨id, atId, new⟩
    · exact .inl same
    · exact .inr (.inl gone)
    · exact .inr (.inr ⟨id, atId, Nat.le_trans fewer new⟩)

theorem detached (within : first.Within base second) {id : BlockId}
    (detached : first.Detached id) (old : id.number.toNat < base)
    (away : first.block ≠ some id) : second.Detached id := by
  refine ⟨?_, ?_⟩
  · rw [within.kept id old away]
    exact detached.known
  · rcases within.layout with ⟨more, grows, new⟩
    rw [grows, List.mem_append]
    intro either
    rcases either with before | after
    · exact detached.missing before
    · have := new id after
      omega

end Within

/-! ## The growth of each operation -/

section Operations

variable {place : Place} {base : Nat}

theorem within_create {count : Nat} (room : place.Room (count + 1))
    (above : base ≤ place.body.nextBlock.toNat) (label : String) :
    place.Within base (place.create label) where
  blocks := by
    rw [toNat_nextBlock_create room]
    omega
  temps := ⟨[], (List.append_nil _).symm⟩
  layout := ⟨[], (List.append_nil _).symm, fun _ member => by cases member⟩
  kept := by
    intro id old _
    rw [block?_create, if_neg]
    intro same
    rw [← same] at old
    simp only [freshBlock] at old
    omega
  extended := by
    intro id block old _ found
    refine ⟨block, ?_, .refl block⟩
    rw [block?_create, if_neg]
    · exact found
    · intro same
      rw [← same] at old
      simp only [freshBlock] at old
      omega
  moved := .inl rfl

theorem within_moveTo (place : Place) {block : Option BlockId}
    (new : ∀ id, block = some id → base ≤ id.number.toNat) :
    place.Within base ⟨place.body, block⟩ where
  blocks := Nat.le_refl _
  temps := ⟨[], (List.append_nil _).symm⟩
  layout := ⟨[], (List.append_nil _).symm, fun _ member => by cases member⟩
  kept := fun _ _ _ => rfl
  extended := fun _ block _ _ found => ⟨block, found, .refl block⟩
  moved := by
    cases block with
    | none => exact .inr (.inl rfl)
    | some id => exact .inr (.inr ⟨id, rfl, new id rfl⟩)

theorem within_ready {count : Nat} (room : place.Room (count + 1))
    (above : base ≤ place.body.nextBlock.toNat) : place.Within base place.ready := by
  unfold Place.ready
  split
  · exact .refl base place
  · refine (within_create room above Cursor.unreachableLabel).trans (within_moveTo _ ?_)
    intro id same
    cases same
    exact above

theorem within_changeOpen (base : Nat) (isOpen : place.isOpen = true) {change : Block → Block}
    (extends_ : ∀ block : Block, block.isTerminated = false → block.Extends (change block)) :
    place.Within base (place.change change) := by
  rcases exists_of_isOpen isOpen with ⟨here, current, stands, foundHere, unfinished⟩
  exact {
    blocks := Nat.le_of_eq (by rw [nextBlock_change])
    temps := ⟨[], by rw [temps_change, List.append_nil]⟩
    layout := ⟨[], by rw [layout_change, List.append_nil], fun _ member => by cases member⟩
    kept := by
      intro id _ away
      rw [block?_change stands, if_neg]
      exact fun same => away (stands.trans (congrArg some same))
    extended := by
      intro id block _ stood found
      rw [stands] at stood
      cases stood
      rw [foundHere] at found
      cases found
      refine ⟨change current, ?_, extends_ current unfinished⟩
      rw [block?_change stands, if_pos rfl, foundHere]
      rfl
    moved := .inl (block_change _ _) }

theorem extends_addInstruction {block : Block} (isOpen : block.isTerminated = false)
    (instruction : Instruction) : block.Extends (block.addInstruction instruction) :=
  ⟨rfl, rfl, ⟨[instruction], rfl⟩, fun terminated => by rw [isOpen] at terminated; cases terminated⟩

theorem extends_setTerminator {block : Block} (isOpen : block.isTerminated = false)
    (terminator : Terminator) : block.Extends (block.setTerminator terminator) :=
  ⟨rfl, rfl, ⟨[], (List.append_nil _).symm⟩,
    fun terminated => by rw [isOpen] at terminated; cases terminated⟩

theorem within_add (base : Nat) (isOpen : place.isOpen = true) (instruction : Instruction) :
    place.Within base (place.add instruction) :=
  within_changeOpen base isOpen fun _ unfinished => extends_addInstruction unfinished instruction

theorem within_terminate (base : Nat) (isOpen : place.isOpen = true) (terminator : Terminator) :
    place.Within base (place.terminate terminator) :=
  within_changeOpen base isOpen fun _ unfinished => extends_setTerminator unfinished terminator

theorem within_takeTemp (base : Nat) (place : Place) (ty : Ty) :
    place.Within base (place.takeTemp ty) where
  blocks := Nat.le_refl _
  temps := ⟨[ty], by simp [Place.takeTemp, Body.newTemp]⟩
  layout := ⟨[], (List.append_nil _).symm, fun _ member => by cases member⟩
  kept := fun _ _ _ => rfl
  extended := fun _ block _ _ found => ⟨block, found, .refl block⟩
  moved := .inl rfl

theorem within_define (base : Nat) (isOpen : place.isOpen = true) (ty : Ty)
    (instruction : Operand → Instruction) :
    place.Within base (place.define ty instruction) :=
  (within_takeTemp base place ty).trans
    (within_add base ((Cursor.isOpen_takeTemp place ty).trans isOpen) _)

theorem within_leaveTo (base : Nat) (place : Place) (target : BlockId) :
    place.Within base (place.leaveTo target) := by
  unfold Place.leaveTo
  cases isOpen : place.isOpen with
  | true =>
      exact (within_terminate base isOpen _).trans
        (within_moveTo _ fun _ absurd => by cases absurd)
  | false => exact within_moveTo _ fun _ absurd => by cases absurd

theorem within_enter (place : Place) {id : BlockId} (new : base ≤ id.number.toNat)
    (closing : Bool) : place.Within base (place.enter id closing) := by
  refine (within_leaveTo base place id).trans ?_
  simp only [Place.enter]
  split
  · cases closing with
    | true =>
        exact {
          blocks := Nat.le_refl _
          temps := ⟨[], (List.append_nil _).symm⟩
          layout := ⟨[], (List.append_nil _).symm, fun _ member => by cases member⟩
          kept := by
            intro other old _
            rw [if_pos rfl, block?_discard, if_neg]
            intro same
            rw [same] at new
            omega
          extended := fun _ _ _ absurd => by cases absurd
          moved := .inl rfl }
    | false =>
        refine within_moveTo _ fun other same => ?_
        cases same
        exact new
  · exact {
      blocks := Nat.le_refl _
      temps := ⟨[], (List.append_nil _).symm⟩
      layout := ⟨[id], rfl, by
        intro other member
        rw [List.mem_singleton.mp member]
        exact new⟩
      kept := fun _ _ _ => rfl
      extended := fun _ block _ _ found => ⟨block, found, .refl block⟩
      moved := .inr (.inr ⟨id, rfl, new⟩) }

theorem Regular.returnIfLive (regular : place.Regular) (value : Option Operand) :
    (place.returnIfLive value).Regular := by
  unfold Place.returnIfLive
  split
  · rename_i live
    exact regular.terminate (Lowering.isOpen_of_isLive live) _
  · exact regular

theorem isLive_of_not_isOpen (closed : place.isOpen = false) : place.isLive = false := by
  unfold Place.isLive
  split
  · rw [closed]
    rfl
  · rfl

theorem isLive_returnIfLive (place : Place) (value : Option Operand) :
    (place.returnIfLive value).isLive = false := by
  unfold Place.returnIfLive
  cases live : place.isLive with
  | true =>
      exact isLive_of_not_isOpen
        (Regular.isOpen_terminate (Lowering.isOpen_of_isLive live) rfl)
  | false => exact live

theorem within_returnIfLive (base : Nat) (place : Place) (value : Option Operand) :
    place.Within base (place.returnIfLive value) := by
  unfold Place.returnIfLive
  split
  · rename_i live
    exact within_terminate base (Lowering.isOpen_of_isLive live) _
  · exact .refl base place

/-! ## Room -/

theorem Room.create {count : Nat} (room : place.Room (count + 1)) (label : String) :
    (place.create label).Room count := by
  refine ⟨?_, ?_⟩
  · rw [toNat_nextBlock_create room]
    have := room.1
    omega
  · have := room.2
    change place.body.temps.size + count < 2 ^ 32
    omega

theorem Room.ready {count : Nat} (room : place.Room (count + 1)) : place.ready.Room count := by
  unfold Place.ready
  split
  · exact room.mono (Nat.le_succ count)
  · exact room.create Cursor.unreachableLabel

theorem Room.change {count : Nat} (room : place.Room count) (change : Block → Block) :
    (place.change change).Room count := by
  refine ⟨?_, ?_⟩
  · rw [nextBlock_change]
    exact room.1
  · rw [temps_change]
    exact room.2

theorem Room.define {count : Nat} (room : place.Room (count + 1)) (ty : Ty)
    (instruction : Operand → Instruction) : (place.define ty instruction).Room count := by
  have taken : (place.takeTemp ty).Room count := by
    refine ⟨(room.mono (Nat.le_succ count)).1, ?_⟩
    have := room.2
    simp only [Place.takeTemp, Body.newTemp, Array.size_push]
    omega
  exact taken.change _

theorem Room.leaveTo {count : Nat} (room : place.Room count) (target : BlockId) :
    (place.leaveTo target).Room count := by
  unfold Place.leaveTo
  split
  · exact room.change _
  · exact room

theorem Room.enter {count : Nat} (room : place.Room count) (id : BlockId) (closing : Bool) :
    (place.enter id closing).Room count := by
  have left := room.leaveTo id
  simp only [Place.enter]
  split
  · cases closing <;> exact left
  · exact left

theorem Room.returnIfLive {count : Nat} (room : place.Room count) (value : Option Operand) :
    (place.returnIfLive value).Room count := by
  unfold Place.returnIfLive
  split
  · exact room.change _
  · exact room

end Operations

/-! ## Blocks that wait to be entered -/

/-- A block that has been created and not been entered. -/
structure Waiting (place : Place) (id : BlockId) (label : String) : Prop where
  found : place.body.block? id = some (.empty id label)
  missing : id ∉ place.body.layout
  away : place.block ≠ some id

namespace Waiting

variable {place next : Place} {id other : BlockId} {label : String}

theorem detached (waiting : place.Waiting id label) : place.Detached id :=
  ⟨⟨_, waiting.found⟩, waiting.missing⟩

theorem number_lt (waiting : place.Waiting id label) (regular : place.Regular) :
    id.number.toNat < place.body.nextBlock.toNat :=
  regular.numbered id _ waiting.found

theorem ne_fresh (waiting : place.Waiting id label) (regular : place.Regular) :
    id ≠ place.freshBlock := by
  intro same
  have found := waiting.found
  rw [same, regular.block?_fresh] at found
  cases found

theorem created (regular : place.Regular) (label : String) :
    (place.create label).Waiting place.freshBlock label where
  found := by rw [block?_create, if_pos rfl]
  missing := regular.fresh_not_mem_layout
  away := by
    intro stands
    rcases regular.standing _ stands with ⟨block, found⟩
    rw [regular.block?_fresh] at found
    cases found

theorem within {base : Nat} (waiting : place.Waiting id label)
    (grows : place.Within base next) (old : id.number.toNat < base) :
    next.Waiting id label where
  found := (grows.kept id old waiting.away).trans waiting.found
  missing := (grows.detached waiting.detached old waiting.away).missing
  away := grows.elsewhere old waiting.away

theorem create (waiting : place.Waiting id label) (regular : place.Regular)
    (other : String) : (place.create other).Waiting id label where
  found := by
    rw [block?_create, if_neg fun same => waiting.ne_fresh regular same.symm]
    exact waiting.found
  missing := waiting.missing
  away := waiting.away

theorem enter_other (waiting : place.Waiting id label) (different : other ≠ id)
    (closing : Bool) : (place.enter other closing).Waiting id label := by
  have found := (block?_leaveTo_other other waiting.away).trans waiting.found
  have missing : id ∉ (place.leaveTo other).body.layout := by
    rw [layout_leaveTo]
    exact waiting.missing
  have away : some other ≠ some id := fun same => different (Option.some.inj same)
  simp only [Place.enter]
  split
  · cases closing with
    | true =>
        refine ⟨?_, missing, fun stands => by cases stands⟩
        rw [if_pos rfl, block?_discard, if_neg different]
        exact found
    | false => exact ⟨found, missing, away⟩
  · refine ⟨found, ?_, away⟩
    change id ∉ (place.leaveTo other).body.layout ++ [other]
    rw [List.mem_append, List.mem_singleton, not_or]
    exact ⟨missing, fun same => different same.symm⟩

theorem leaveTo (waiting : place.Waiting id label) (target : BlockId) :
    (place.leaveTo target).Waiting id label where
  found := (block?_leaveTo_other target waiting.away).trans waiting.found
  missing := by
    rw [layout_leaveTo]
    exact waiting.missing
  away := fun stands => by cases stands

end Waiting

end Place

end ScriptLowering.Code
