import ScriptLowering.Proofs.ControlLedger
import ScriptLowering.Proofs.PlacePromises
import ScriptLowering.Proofs.RenumberedCode

/-! # Building in tandem

Two functions are built by the same operations, but in one of them other operations come in between
that change no code that can run. Their laid-out code stays the same up to numbers, and control gets
to the same blocks.
-/

namespace ScriptLowering.Code

/-! ## Bodies -/

/-- The laid-out code stays the same, and no temp or number is lost. -/
structure Body.Rests (body next : Body) : Prop where
  layout : next.layout = body.layout
  blocks : ∀ id ∈ body.layout, next.block? id = body.block? id
  temps : ∀ id ty, body.tempType? id = some ty → next.tempType? id = some ty
  numbers : body.nextBlock.toNat ≤ next.nextBlock.toNat

theorem Body.Rests.refl (body : Body) : body.Rests body :=
  ⟨rfl, fun _ _ => rfl, fun _ _ => id, Nat.le_refl _⟩

/-- Two bodies under construction. The pairs are in the order of their numbers, and the numbers have
been given out. -/
structure Body.Matches (pairing : Pairing) (body other : Body) : Prop where
  pairs : body.Pairs pairing other
  blocksInOrder : InOrder (fun id : BlockId => id.number.toNat) pairing.blocks
  tempsInOrder : InOrder (fun id : TempId => id.number.toNat) pairing.temps
  bounds : ∀ id counterpart, pairing.blocks id counterpart →
    id.number.toNat < body.nextBlock.toNat ∧ counterpart.number.toNat < other.nextBlock.toNat

namespace Body.Matches

variable {pairing : Pairing} {body other next : Body} {id counterpart : BlockId}

theorem first (agrees : body.Matches pairing other) (rests : body.Rests next) :
    next.Matches pairing other where
  pairs := {
    layout := rests.layout ▸ agrees.pairs.layout
    blocks := by
      intro id counterpart paired member
      rw [rests.layout] at member
      rw [rests.blocks id member]
      exact agrees.pairs.blocks id counterpart paired member
    temps := by
      intro id counterpart paired
      rcases agrees.pairs.temps id counterpart paired with ⟨ty, known, otherKnown⟩
      exact ⟨ty, rests.temps id ty known, otherKnown⟩ }
  blocksInOrder := agrees.blocksInOrder
  tempsInOrder := agrees.tempsInOrder
  bounds := by
    intro id counterpart paired
    have bounds := agrees.bounds id counterpart paired
    exact ⟨Nat.lt_of_lt_of_le bounds.1 rests.numbers, bounds.2⟩

theorem mem_layout_iff (agrees : body.Matches pairing other)
    (paired : pairing.blocks id counterpart) : id ∈ body.layout ↔ counterpart ∈ other.layout :=
  List.rel_mem agrees.blocksInOrder.biUnique paired agrees.pairs.layout

theorem second (agrees : body.Matches pairing other) (rests : other.Rests next) :
    body.Matches pairing next where
  pairs := {
    layout := rests.layout ▸ agrees.pairs.layout
    blocks := by
      intro id counterpart paired member
      rw [rests.blocks counterpart ((agrees.mem_layout_iff paired).mp member)]
      exact agrees.pairs.blocks id counterpart paired member
    temps := by
      intro id counterpart paired
      rcases agrees.pairs.temps id counterpart paired with ⟨ty, known, otherKnown⟩
      exact ⟨ty, known, rests.temps counterpart ty otherKnown⟩ }
  blocksInOrder := agrees.blocksInOrder
  tempsInOrder := agrees.tempsInOrder
  bounds := by
    intro id counterpart paired
    have bounds := agrees.bounds id counterpart paired
    exact ⟨bounds.1, Nat.lt_of_lt_of_le bounds.2 rests.numbers⟩

theorem moreData (agrees : body.Matches pairing other) {more : Pairing}
    (within : pairing.Within more) (blocks : more.blocks = pairing.blocks)
    (temps : more.temps = pairing.temps) : body.Matches more other where
  pairs := {
    layout := blocks ▸ agrees.pairs.layout
    blocks := by
      intro id counterpart paired member
      rcases agrees.pairs.blocks id counterpart (blocks ▸ paired) member with
        ⟨block, found, isBlock, isFound, pairs⟩
      exact ⟨block, found, isBlock, isFound, pairs.mono within⟩
    temps := by rw [temps]; exact agrees.pairs.temps }
  blocksInOrder := by rw [blocks]; exact agrees.blocksInOrder
  tempsInOrder := by rw [temps]; exact agrees.tempsInOrder
  bounds := by rw [blocks]; exact agrees.bounds

end Body.Matches

theorem Body.rests_prune (body : Body) : body.Rests body.prune where
  layout := rfl
  blocks := fun _ member => Place.block?_prune_of_mem member
  temps := fun _ _ => id
  numbers := Nat.le_refl _

namespace Place

/-! ## Operations that change no code -/

section Rests

variable {place : Place} {id : BlockId}

theorem not_mem_layout_of_dead (dead : place.isLive = false) {block : Block}
    (stands : place.block = some id) (found : place.body.block? id = some block)
    (isOpen : block.isTerminated = false) : id ∉ place.body.layout := by
  intro member
  rw [isLive_iff.mpr ⟨id, block, stands, member, found, isOpen⟩] at dead
  cases dead

theorem rests_create (regular : place.Regular) {count : Nat} (room : place.Room (count + 1))
    (label : String) : place.body.Rests (place.create label).body where
  layout := rfl
  blocks := by
    intro id member
    rw [block?_create, if_neg]
    rintro rfl
    exact regular.fresh_not_mem_layout member
  temps := fun _ _ => id
  numbers := by
    rw [toNat_nextBlock_create room]
    exact Nat.le_succ _

theorem rests_ready (regular : place.Regular) {count : Nat} (room : place.Room (count + 1)) :
    place.body.Rests place.ready.body := by
  unfold ready
  split
  · exact .refl _
  · exact rests_create regular room _

theorem rests_takeTemp (place : Place) (ty : Ty) : place.body.Rests (place.takeTemp ty).body where
  layout := rfl
  blocks := fun _ _ => rfl
  temps := by
    intro id old known
    change (place.body.temps.push ty)[id.number.toNat]? = some old
    change place.body.temps[id.number.toNat]? = some old at known
    rw [Array.getElem?_push, if_neg]
    · exact known
    · intro last
      rw [last, Array.getElem?_eq_none (Nat.le_refl _)] at known
      cases known
  numbers := Nat.le_refl _

theorem rests_change (isOpen : place.isOpen = true) (dead : place.isLive = false)
    (change : Block → Block) : place.body.Rests (place.change change).body where
  layout := layout_change place change
  blocks := by
    intro id member
    rcases exists_of_isOpen isOpen with ⟨here, block, stands, found, unfinished⟩
    rw [block?_change stands, if_neg]
    rintro rfl
    exact not_mem_layout_of_dead dead stands found unfinished member
  temps := by
    intro id ty known
    rw [Body.tempType?, temps_change]
    exact known
  numbers := by rw [nextBlock_change]

theorem rests_leaveTo (dead : place.isLive = false) (target : BlockId) :
    place.body.Rests (place.leaveTo target).body := by
  unfold leaveTo
  split
  · rename_i isOpen
    exact rests_change isOpen dead _
  · exact .refl _

theorem rests_discard (missing : id ∉ place.body.layout) :
    place.body.Rests (place.discard id).body where
  layout := rfl
  blocks := by
    intro other member
    rw [block?_discard, if_neg]
    rintro rfl
    exact missing member
  temps := fun _ _ known => known
  numbers := Nat.le_refl _

theorem rests_enter (missing : id ∉ place.body.layout)
    (unreached : ¬ (place.leaveTo id).EdgeTo id) (closing : Bool) :
    (place.leaveTo id).body.Rests (place.enter id closing).body ∧
      (place.enter id closing).isLive = false := by
  have gone : id ∉ (place.leaveTo id).body.layout := by
    rw [layout_leaveTo]
    exact missing
  have enters : place.enter id closing = if closing then (place.leaveTo id).discard id
      else ⟨(place.leaveTo id).body, some id⟩ := by
    simp only [enter]
    rw [if_pos (predecessorCount_eq_zero_iff.mpr unreached)]
  rw [enters]
  cases closing with
  | true => exact ⟨rests_discard gone, rfl⟩
  | false =>
      refine ⟨.refl _, ?_⟩
      rw [Bool.eq_false_iff, Ne, isLive_iff]
      rintro ⟨_, _, ⟨⟩, member, _⟩
      exact gone member

end Rests

/-! ## Pairs of places -/

/-- The code is the same up to numbers, and code that is added can run in both places or in
neither. -/
structure Pairs (pairing : Pairing) (place other : Place) : Prop where
  agrees : place.body.Matches pairing other.body
  live : other.isLive = place.isLive

namespace Pairs

variable {pairing : Pairing} {place other next : Place} {id counterpart : BlockId}

theorem first (pairs : place.Pairs pairing other) (rests : place.body.Rests next.body)
    (live : next.isLive = place.isLive) : next.Pairs pairing other :=
  ⟨pairs.agrees.first rests, pairs.live.trans live.symm⟩

theorem second (pairs : place.Pairs pairing other) (rests : other.body.Rests next.body)
    (live : next.isLive = other.isLive) : place.Pairs pairing next :=
  ⟨pairs.agrees.second rests, live.trans pairs.live⟩

theorem current (pairs : place.Pairs pairing other) (regular : place.Regular)
    (otherRegular : other.Regular) (live : place.isLive = true) :
    ∃ id counterpart, place.block = some id ∧ other.block = some counterpart ∧
      pairing.blocks id counterpart := by
  rcases isLive_iff.mp live with ⟨id, block, stands, member, _⟩
  rcases isLive_iff.mp (pairs.live.trans live) with ⟨counterpart, found, otherStands, inOther, _⟩
  have last := regular.last id stands member
  have otherLast := otherRegular.last counterpart otherStands inOther
  have layout := List.rel_reverse pairs.agrees.pairs.layout
  rw [List.getLast?_eq_head?_reverse] at last otherLast
  refine ⟨id, counterpart, stands, otherStands, ?_⟩
  revert layout last otherLast
  generalize place.body.layout.reverse = ids
  generalize other.body.layout.reverse = counterparts
  intro last otherLast layout
  cases layout with
  | nil => cases last
  | cons same _ =>
      cases last
      cases otherLast
      exact same

theorem edgeTo_iff (pairs : place.Pairs pairing other) (paired : pairing.blocks id counterpart) :
    place.EdgeTo id ↔ other.EdgeTo counterpart := by
  have unique := pairs.agrees.blocksInOrder
  have code := pairs.agrees.pairs
  constructor
  · rintro ⟨source, member, block, found, leads⟩
    rcases exists_of_forall₂ code.layout member with ⟨origin, inOther, sources⟩
    rcases code.blocks source origin sources member with ⟨_, mirrored, isBlock, isFound, same⟩
    cases found.symm.trans isBlock
    exact ⟨origin, inOther, mirrored, isFound,
      (List.rel_mem unique.biUnique paired same.terminators.successors).mp leads⟩
  · rintro ⟨origin, inOther, mirrored, isFound, leads⟩
    rcases exists_of_forall₂ code.layout.flip inOther with ⟨source, member, sources⟩
    rcases code.blocks source origin sources member with ⟨block, _, found, otherFound, same⟩
    cases isFound.symm.trans otherFound
    exact ⟨source, member, block, found,
      (List.rel_mem unique.biUnique paired same.terminators.successors).mpr leads⟩

theorem bounded (pairs : place.Pairs pairing other) {target : BlockId} (edge : place.EdgeTo target) :
    target.number.toNat < place.body.nextBlock.toNat := by
  rcases edge with ⟨source, member, block, found, leads⟩
  have code := pairs.agrees.pairs
  rcases exists_of_forall₂ code.layout member with ⟨origin, _, sources⟩
  rcases code.blocks source origin sources member with ⟨_, mirrored, isBlock, _, same⟩
  cases found.symm.trans isBlock
  rcases exists_of_forall₂ same.terminators.successors leads with ⟨counterpart, _, paired⟩
  exact (pairs.agrees.bounds target counterpart paired).1

/-! ### Changing the open blocks -/

section Changing

variable (pairs : place.Pairs pairing other) (regular : place.Regular)
  (otherRegular : other.Regular)

include pairs regular otherRegular

theorem changeLive (live : place.isLive = true) {change otherChange : Block → Block}
    (changes : ∀ block mirrored : Block, block.Pairs pairing mirrored →
      (change block).Pairs pairing (otherChange mirrored)) :
    (place.change change).body.Matches pairing (other.change otherChange).body := by
  rcases pairs.current regular otherRegular live with ⟨here, there, stands, otherStands, current⟩
  have code := pairs.agrees.pairs
  exact {
    pairs := {
      layout := by
        rw [layout_change, layout_change]
        exact code.layout
      blocks := by
        intro id counterpart paired member
        rw [layout_change] at member
        rcases code.blocks id counterpart paired member with
          ⟨block, mirrored, found, otherFound, same⟩
        rw [block?_change stands, block?_change otherStands]
        by_cases isHere : here = id
        · have isThere : there = counterpart :=
            (pairs.agrees.blocksInOrder _ _ _ _ current paired).1.mp isHere
          rw [if_pos isHere, if_pos isThere, found, otherFound]
          exact ⟨_, _, rfl, rfl, changes _ _ same⟩
        · have isElsewhere : there ≠ counterpart := fun isThere =>
            isHere ((pairs.agrees.blocksInOrder _ _ _ _ current paired).1.mpr isThere)
          rw [if_neg isHere, if_neg isElsewhere]
          exact ⟨block, mirrored, found, otherFound, same⟩
      temps := by
        simp only [Body.tempType?, temps_change]
        exact code.temps }
    blocksInOrder := pairs.agrees.blocksInOrder
    tempsInOrder := pairs.agrees.tempsInOrder
    bounds := by
      rw [nextBlock_change, nextBlock_change]
      exact pairs.agrees.bounds }

theorem changeOpen (isOpen : place.isOpen = true) (otherOpen : other.isOpen = true)
    {change otherChange : Block → Block}
    (changes : ∀ block mirrored : Block, block.Pairs pairing mirrored →
      (change block).Pairs pairing (otherChange mirrored)) :
    (place.change change).body.Matches pairing (other.change otherChange).body := by
  cases live : place.isLive with
  | true => exact pairs.changeLive regular otherRegular live changes
  | false =>
      exact (pairs.agrees.first (rests_change isOpen live change)).second
        (rests_change otherOpen (pairs.live.trans live) otherChange)

theorem ready {count : Nat} (room : place.Room (count + 1)) (otherRoom : other.Room (count + 1)) :
    place.ready.Pairs pairing other.ready :=
  (pairs.first (rests_ready regular room) (isLive_ready regular)).second
    (rests_ready otherRegular otherRoom) (isLive_ready otherRegular)

theorem addOpen (isOpen : place.isOpen = true) (otherOpen : other.isOpen = true)
    {instruction mirrored : Instruction} (instructions : instruction.Pairs pairing mirrored) :
    (place.add instruction).Pairs pairing (other.add mirrored) where
  agrees := pairs.changeOpen regular otherRegular isOpen otherOpen
    fun _ _ same => same.addInstruction instructions
  live := by
    rw [isLive_add isOpen, isLive_add otherOpen]
    exact pairs.live

theorem terminateOpen (isOpen : place.isOpen = true) (otherOpen : other.isOpen = true)
    {terminator mirrored : Terminator} (terminators : terminator.Pairs pairing mirrored)
    (finished : terminator.isFinished = true) :
    (place.terminate terminator).Pairs pairing (other.terminate mirrored) where
  agrees := pairs.changeOpen regular otherRegular isOpen otherOpen
    fun _ _ same => same.setTerminator terminators
  live := by
    rw [isLive_terminate isOpen finished,
      isLive_terminate otherOpen (terminators.isFinished_eq.trans finished)]

theorem leaveTo (paired : pairing.blocks id counterpart) :
    (place.leaveTo id).Pairs pairing (other.leaveTo counterpart) := by
  refine ⟨?_, rfl⟩
  cases live : place.isLive with
  | true =>
      have isOpen := Lowering.isOpen_of_isLive live
      have otherOpen := Lowering.isOpen_of_isLive (pairs.live.trans live)
      simp only [Place.leaveTo, isOpen, otherOpen, if_true]
      exact (pairs.terminateOpen regular otherRegular isOpen otherOpen (.jump paired) rfl).agrees
  | false =>
      exact (pairs.agrees.first (rests_leaveTo live id)).second
        (rests_leaveTo (pairs.live.trans live) counterpart)

theorem returnIfLive {value mirrored : Option Operand}
    (values : Option.Rel (Operand.Pairs pairing) value mirrored) :
    (place.returnIfLive value).Pairs pairing (other.returnIfLive mirrored) := by
  unfold Place.returnIfLive
  rw [pairs.live]
  cases live : place.isLive with
  | true =>
      have isOpen := Lowering.isOpen_of_isLive live
      have otherOpen := Lowering.isOpen_of_isLive (pairs.live.trans live)
      exact pairs.terminateOpen regular otherRegular isOpen otherOpen (.ret values) rfl
  | false => exact pairs

/-! ### New blocks and temps -/

theorem create {count : Nat} (room : place.Room (count + 1)) (otherRoom : other.Room (count + 1))
    (label : String) : (place.create label).Pairs
      (pairing.addBlock place.freshBlock other.freshBlock) (other.create label) := by
  have created := (pairs.agrees.first (rests_create regular room label)).second
    (rests_create otherRegular otherRoom label)
  have within := pairing.within_addBlock place.freshBlock other.freshBlock
  refine ⟨⟨⟨?_, ?_, created.pairs.temps⟩, ?_, created.tempsInOrder, ?_⟩, ?_⟩
  · exact created.pairs.layout.imp fun id counterpart => within.blocks id counterpart
  · rintro id counterpart (paired | ⟨rfl, rfl⟩) member
    · rcases created.pairs.blocks id counterpart paired member with
        ⟨block, mirrored, found, otherFound, same⟩
      exact ⟨block, mirrored, found, otherFound, same.mono within⟩
    · exact absurd member regular.fresh_not_mem_layout
  · exact created.blocksInOrder.withPair fun id counterpart paired =>
      pairs.agrees.bounds id counterpart paired
  · rintro id counterpart (paired | ⟨rfl, rfl⟩)
    · exact created.bounds id counterpart paired
    · rw [toNat_nextBlock_create room, toNat_nextBlock_create otherRoom]
      exact ⟨Nat.lt_succ_self _, Nat.lt_succ_self _⟩
  · rw [isLive_create regular, isLive_create otherRegular]
    exact pairs.live

omit regular otherRegular in
theorem takeTemp {count : Nat} (room : place.Room count) (otherRoom : other.Room count) (ty : Ty) :
    (place.takeTemp ty).Pairs (pairing.addTemp place.freshTemp other.freshTemp)
      (other.takeTemp ty) := by
  have taken := (pairs.agrees.first (rests_takeTemp place ty)).second (rests_takeTemp other ty)
  have within := pairing.within_addTemp place.freshTemp other.freshTemp
  have below : ∀ (one : Place) (id : TempId) found, one.body.tempType? id = some found →
      id.number.toNat < one.body.temps.size := by
    intro one id found known
    by_contra beyond
    rw [Body.tempType?, Array.getElem?_eq_none (Nat.le_of_not_lt beyond)] at known
    cases known
  refine ⟨⟨⟨taken.pairs.layout, ?_, ?_⟩, taken.blocksInOrder, ?_, taken.bounds⟩, pairs.live⟩
  · intro id counterpart paired member
    rcases taken.pairs.blocks id counterpart paired member with
      ⟨block, mirrored, found, otherFound, same⟩
    exact ⟨block, mirrored, found, otherFound, same.mono within⟩
  · rintro id counterpart (paired | ⟨rfl, rfl⟩)
    · exact taken.pairs.temps id counterpart paired
    · exact ⟨ty, tempType?_fresh room ty, tempType?_fresh otherRoom ty⟩
  · refine pairs.agrees.tempsInOrder.withPair fun id counterpart paired => ?_
    rcases pairs.agrees.pairs.temps id counterpart paired with ⟨found, known, otherKnown⟩
    rw [Regular.toNat_freshTemp room, Regular.toNat_freshTemp otherRoom]
    exact ⟨below place id found known, below other counterpart found otherKnown⟩

theorem defineOpen (isOpen : place.isOpen = true) (otherOpen : other.isOpen = true) {count : Nat}
    (room : place.Room count) (otherRoom : other.Room count) {ty : Ty}
    {instruction mirrored : Operand → Instruction}
    (instructions : ∀ id counterpart, (pairing.addTemp place.freshTemp other.freshTemp).temps
      id counterpart → (instruction (.temp id)).Pairs
        (pairing.addTemp place.freshTemp other.freshTemp) (mirrored (.temp counterpart))) :
    (place.define ty instruction).Pairs (pairing.addTemp place.freshTemp other.freshTemp)
      (other.define ty mirrored) :=
  (pairs.takeTemp room otherRoom ty).addOpen (regular.takeTemp ty) (otherRegular.takeTemp ty)
    ((Cursor.isOpen_takeTemp place ty).trans isOpen)
    ((Cursor.isOpen_takeTemp other ty).trans otherOpen) (instructions _ _ (.inr ⟨rfl, rfl⟩))

/-! ### In open blocks -/

section Ready

variable {count : Nat} (room : place.Room (count + 1)) (otherRoom : other.Room (count + 1))

include room otherRoom

theorem readyAdd {instruction mirrored : Instruction}
    (instructions : instruction.Pairs pairing mirrored) :
    (place.ready.add instruction).Pairs pairing (other.ready.add mirrored) :=
  (pairs.ready regular otherRegular room otherRoom).addOpen (regular.ready room)
    (otherRegular.ready otherRoom) (Lowering.isOpen_ready place) (Lowering.isOpen_ready other)
    instructions

theorem readyTerminate {terminator mirrored : Terminator}
    (terminators : terminator.Pairs pairing mirrored) (finished : terminator.isFinished = true) :
    (place.ready.terminate terminator).Pairs pairing (other.ready.terminate mirrored) :=
  (pairs.ready regular otherRegular room otherRoom).terminateOpen (regular.ready room)
    (otherRegular.ready otherRoom) (Lowering.isOpen_ready place) (Lowering.isOpen_ready other)
    terminators finished

theorem readyDefine {ty : Ty} {instruction mirrored : Operand → Instruction}
    (instructions : ∀ more id counterpart, pairing.Within more → more.temps id counterpart →
      (instruction (.temp id)).Pairs more (mirrored (.temp counterpart))) :
    (place.ready.define ty instruction).Pairs
      (pairing.addTemp place.ready.freshTemp other.ready.freshTemp)
      (other.ready.define ty mirrored) :=
  (pairs.ready regular otherRegular room otherRoom).defineOpen (regular.ready room)
    (otherRegular.ready otherRoom) (Lowering.isOpen_ready place) (Lowering.isOpen_ready other)
    room.ready otherRoom.ready fun id counterpart paired =>
      instructions _ id counterpart (pairing.within_addTemp _ _) paired

end Ready

/-! ### Entering blocks -/

omit regular otherRegular in
theorem layOut {label : String} (paired : pairing.blocks id counterpart)
    (found : place.body.block? id = some (.empty id label))
    (otherFound : other.body.block? counterpart = some (.empty counterpart label)) :
    (place.layOut id).Pairs pairing (other.layOut counterpart) := by
  have code := pairs.agrees.pairs
  refine ⟨⟨⟨?_, ?_, code.temps⟩, pairs.agrees.blocksInOrder, pairs.agrees.tempsInOrder,
    pairs.agrees.bounds⟩, ?_⟩
  · exact List.rel_append code.layout (.cons paired .nil)
  · intro other mirrored pairedOther member
    rcases List.mem_append.mp member with old | last
    · exact code.blocks other mirrored pairedOther old
    · rcases List.mem_singleton.mp last with rfl
      cases pairs.agrees.blocksInOrder.right_unique paired pairedOther
      exact ⟨_, _, found, otherFound, .empty paired label⟩
  · have alive : ∀ (one : Place) (block : BlockId), one.body.block? block =
        some (.empty block label) → (one.layOut block).isLive = true := by
      intro one block isEmpty
      exact isLive_iff.mpr ⟨block, _, rfl, List.mem_append_right _ (List.mem_singleton_self _),
        isEmpty, rfl⟩
    rw [alive place id found, alive other counterpart otherFound]

theorem enter {label : String} (paired : pairing.blocks id counterpart)
    (waiting : place.Waiting id label) (otherWaiting : other.Waiting counterpart label)
    (closing : Bool) :
    (place.enter id closing).Pairs pairing (other.enter counterpart closing) := by
  have left := pairs.leaveTo regular otherRegular paired
  by_cases reached : (place.leaveTo id).EdgeTo id
  · have otherReached := (left.edgeTo_iff paired).mp reached
    rw [enter_of_edge reached, enter_of_edge otherReached]
    exact left.layOut paired (waiting.leaveTo id).found (otherWaiting.leaveTo counterpart).found
  · have otherUnreached := fun edge => reached ((left.edgeTo_iff paired).mpr edge)
    rcases rests_enter waiting.missing reached closing with ⟨rests, dead⟩
    rcases rests_enter otherWaiting.missing otherUnreached closing with ⟨otherRests, otherDead⟩
    exact (left.first rests dead).second otherRests otherDead

end Changing

end Pairs

theorem pairs_opened (data : DataId → DataId → Prop) :
    (Place.mk .empty none).opened.Pairs
      ⟨fun id counterpart => id = ⟨0⟩ ∧ counterpart = ⟨0⟩, fun _ _ => False, data⟩
      (Place.mk .empty none).opened := by
  have layout : List.Forall₂ (fun id counterpart : BlockId => id = ⟨0⟩ ∧ counterpart = ⟨0⟩)
      [⟨0⟩] [⟨0⟩] := .cons ⟨rfl, rfl⟩ .nil
  refine ⟨⟨⟨layout, ?_, fun _ _ absurd => absurd.elim⟩, ?_, ?_, ?_⟩, rfl⟩
  · rintro _ _ ⟨rfl, rfl⟩ _
    refine ⟨_, _, rfl, rfl, .empty ?_ "entry"⟩
    exact ⟨rfl, rfl⟩
  · rintro _ _ _ _ ⟨rfl, rfl⟩ ⟨rfl, rfl⟩
    simp
  · exact fun _ _ _ _ absurd => absurd.elim
  · rintro _ _ ⟨rfl, rfl⟩
    exact ⟨by decide, by decide⟩

end Place

end ScriptLowering.Code
