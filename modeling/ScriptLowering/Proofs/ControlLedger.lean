import Mathlib.Data.List.Nodup
import ScriptLowering.Proofs.LastingTraces
import ScriptLowering.Proofs.LockstepSessions
import ScriptLowering.Proofs.WorkableSessions

/-! # Keeping account of control

Whether control gets to a block can be told without the blocks: from where control has been sent so
far. A ledger keeps account of that while a function is built. What it says of the function stays
true when it is brought up to date with each operation.
-/

namespace ScriptLowering.Code

/-! ## Ledgers -/

/-- What is known of a function under construction. -/
structure Ledger where
  /-- The blocks that are kept account of. -/
  known : BlockId → Prop
  /-- The blocks that have been created and not yet entered. -/
  waits : List BlockId
  /-- Code that is added can run. -/
  alive : Prop
  /-- Control is sent to the block from a block that is laid out. -/
  reached : BlockId → Prop
  /-- All edges lead to blocks that are laid out or wait. -/
  closed : Prop
  /-- No block that has been left is open. -/
  tight : Prop

namespace Ledger

variable (ledger : Ledger)

def create (id : BlockId) : Ledger :=
  { ledger with
    known := fun other => ledger.known other ∨ other = id
    waits := id :: ledger.waits
    reached := fun other => other ≠ id ∧ ledger.reached other }

def createSome (id : Option BlockId) : Ledger :=
  { ledger with
    known := fun other => ledger.known other ∨ id = some other
    waits := id.toList ++ ledger.waits
    reached := fun other => id ≠ some other ∧ ledger.reached other }

/-- Control may go from here to the target as well. -/
def test (target : BlockId) (stops : Prop) : Ledger :=
  { ledger with
    reached := fun other => ledger.reached other ∨ ledger.alive ∧ stops ∧ other = target }

/-- Control goes from here to all of the targets. -/
def leave (targets : BlockId → Prop) : Ledger :=
  { ledger with
    alive := False
    reached := fun other => ledger.reached other ∨ ledger.alive ∧ targets other }

/-- A block is entered, and `known` are those that are still kept account of. -/
def enter (id : BlockId) (waits : List BlockId) (known : BlockId → Prop) : Ledger :=
  { ledger with
    known := known
    waits := waits
    alive := ledger.alive ∨ ledger.reached id
    reached := fun other => ledger.reached other ∨ ledger.alive ∧ other = id }

section Fields

variable {ledger} {id other : BlockId} {targets known : BlockId → Prop} {waits : List BlockId}

@[simp] theorem known_create :
    (ledger.create id).known other ↔ ledger.known other ∨ other = id := .rfl

@[simp] theorem waits_create : (ledger.create id).waits = id :: ledger.waits := rfl

@[simp] theorem alive_create : (ledger.create id).alive ↔ ledger.alive := .rfl

@[simp] theorem reached_create :
    (ledger.create id).reached other ↔ other ≠ id ∧ ledger.reached other := .rfl

@[simp] theorem known_createSome {id : Option BlockId} :
    (ledger.createSome id).known other ↔ ledger.known other ∨ id = some other := .rfl

@[simp] theorem waits_createSome {id : Option BlockId} :
    (ledger.createSome id).waits = id.toList ++ ledger.waits := rfl

@[simp] theorem alive_createSome {id : Option BlockId} :
    (ledger.createSome id).alive ↔ ledger.alive := .rfl

@[simp] theorem reached_createSome {id : Option BlockId} :
    (ledger.createSome id).reached other ↔ id ≠ some other ∧ ledger.reached other := .rfl

@[simp] theorem known_test {stops : Prop} :
    (ledger.test id stops).known other ↔ ledger.known other := .rfl

@[simp] theorem waits_test {stops : Prop} : (ledger.test id stops).waits = ledger.waits := rfl

@[simp] theorem alive_test {stops : Prop} : (ledger.test id stops).alive ↔ ledger.alive := .rfl

@[simp] theorem reached_test {stops : Prop} : (ledger.test id stops).reached other ↔
    ledger.reached other ∨ ledger.alive ∧ stops ∧ other = id := .rfl

@[simp] theorem known_leave : (ledger.leave targets).known other ↔ ledger.known other := .rfl

@[simp] theorem waits_leave : (ledger.leave targets).waits = ledger.waits := rfl

@[simp] theorem alive_leave : ¬ (ledger.leave targets).alive := fun absurd => absurd

@[simp] theorem reached_leave : (ledger.leave targets).reached other ↔
    ledger.reached other ∨ ledger.alive ∧ targets other := .rfl

@[simp] theorem known_enter : (ledger.enter id waits known).known other ↔ known other := .rfl

@[simp] theorem waits_enter : (ledger.enter id waits known).waits = waits := rfl

@[simp] theorem alive_enter :
    (ledger.enter id waits known).alive ↔ ledger.alive ∨ ledger.reached id := .rfl

@[simp] theorem reached_enter : (ledger.enter id waits known).reached other ↔
    ledger.reached other ∨ ledger.alive ∧ other = id := .rfl

end Fields

end Ledger

namespace Place

/-- The layout and the blocks in it are the same. -/
structure SameCode (place next : Place) : Prop where
  layout : next.body.layout = place.body.layout
  blocks : ∀ id ∈ place.body.layout, next.body.block? id = place.body.block? id

theorem SameCode.refl (place : Place) : place.SameCode place := ⟨rfl, fun _ _ => rfl⟩

theorem SameCode.trans {place middle next : Place} (first : place.SameCode middle)
    (second : middle.SameCode next) : place.SameCode next where
  layout := second.layout.trans first.layout
  blocks := fun id member =>
    (second.blocks id (first.layout ▸ member)).trans (first.blocks id member)

theorem isOpen_congr {place next : Place} (block : next.block = place.block)
    (found : ∀ id, place.block = some id → next.body.block? id = place.body.block? id) :
    next.isOpen = place.isOpen := by
  have current : next.current? = place.current? := by
    unfold current?
    rw [block]
    cases stands : place.block with
    | none => rfl
    | some id => exact found id stands
  unfold isOpen
  rw [current]

theorem isLive_iff {place : Place} : place.isLive = true ↔ ∃ id block, place.block = some id ∧
    id ∈ place.body.layout ∧ place.body.block? id = some block ∧ block.isTerminated = false := by
  constructor
  · intro live
    rcases exists_of_isOpen (Lowering.isOpen_of_isLive live) with ⟨id, block, stands, found, open'⟩
    refine ⟨id, block, stands, ?_, found, open'⟩
    simp only [isLive, stands, Bool.and_eq_true] at live
    exact Body.isLaidOut_iff.mp live.2
  · rintro ⟨id, block, stands, member, found, unfinished⟩
    simp [isLive, stands, isOpen_of_block stands found, unfinished, Body.isLaidOut_iff, member]

theorem edgeTo_iff_of_terminators {place next : Place}
    (layout : next.body.layout = place.body.layout)
    (ends : ∀ id ∈ place.body.layout, (next.body.block? id).map Block.terminator =
      (place.body.block? id).map Block.terminator) (target : BlockId) :
    next.EdgeTo target ↔ place.EdgeTo target := by
  have either : ∀ one other : Place, other.body.layout = one.body.layout →
      (∀ id ∈ one.body.layout, (other.body.block? id).map Block.terminator =
        (one.body.block? id).map Block.terminator) → one.EdgeTo target → other.EdgeTo target := by
    rintro one other layout ends ⟨id, member, block, found, leads⟩
    have same := ends id member
    rw [found] at same
    rcases Option.map_eq_some_iff.mp same with ⟨after, foundAfter, terminator⟩
    refine ⟨id, layout ▸ member, after, foundAfter, ?_⟩
    rw [Block.successors, terminator]
    exact leads
  constructor
  · exact either next place layout.symm fun id member => (ends id (layout ▸ member)).symm
  · exact either place next layout ends

theorem edgeTo_terminate_iff {place : Place} (isOpen : place.isOpen = true) (terminator : Terminator)
    (target : BlockId) : (place.terminate terminator).EdgeTo target ↔
      place.EdgeTo target ∨ place.isLive = true ∧ target ∈ terminator.successors := by
  rcases exists_of_isOpen isOpen with ⟨here, current, stands, found, unfinished⟩
  let change (block : Block) : Block := block.setTerminator terminator
  have looks := block?_change stands change
  have layout : (place.terminate terminator).body.layout = place.body.layout :=
    layout_change place change
  constructor
  · rintro ⟨id, member, block, foundAfter, leads⟩
    rw [layout] at member
    rw [terminate, looks] at foundAfter
    split at foundAfter
    · rename_i same
      subst same
      rw [found] at foundAfter
      cases foundAfter
      exact .inr ⟨isLive_iff.mpr ⟨here, current, stands, member, found, unfinished⟩, leads⟩
    · exact .inl ⟨id, member, block, foundAfter, leads⟩
  · rintro (⟨id, member, block, foundBefore, leads⟩ | ⟨live, leads⟩)
    · have elsewhere : here ≠ id := by
        rintro rfl
        rw [found] at foundBefore
        cases foundBefore
        rw [successors_of_open unfinished] at leads
        cases leads
      refine ⟨id, layout ▸ member, block, ?_, leads⟩
      rw [terminate, looks, if_neg elsewhere]
      exact foundBefore
    · rcases isLive_iff.mp live with ⟨id, old, standsLive, member, foundLive, _⟩
      cases stands.symm.trans standsLive
      refine ⟨here, layout ▸ member, change old, ?_, leads⟩
      rw [terminate, looks, if_pos rfl, foundLive]
      rfl

theorem SameCode.edgeTo_iff {place next : Place} (same : place.SameCode next) (target : BlockId) :
    next.EdgeTo target ↔ place.EdgeTo target :=
  edgeTo_iff_of_terminators same.layout (fun id member => by rw [same.blocks id member]) target

theorem sameCode_create {place : Place} {waits : List BlockId} {count : Nat}
    (holds : place.body.Holds waits count) (label : String) :
    place.SameCode (place.create label) := by
  refine ⟨rfl, fun id member => ?_⟩
  rw [block?_create, if_neg]
  rintro rfl
  exact holds.fresh_not_mem_layout member

theorem tryLayOut_eq {place : Place} {id : BlockId}
    (present : (place.body.block? id).isSome = true) (detached : id ∉ place.body.layout)
    (previous : Option BlockId) :
    ∃ before behind, place.body.layout = before ++ behind ∧ place.tryLayOut id previous =
      .ok ⟨{ place.body with layout := before ++ id :: behind }, place.block⟩ := by
  have isDetached : place.body.isLaidOut id = false := by
    simpa [Body.isLaidOut] using detached
  have checks := Cursor.Builds.checkDetached present isDetached
  simp only [tryLayOut, checks, bind, Except.bind, pure, Except.pure]
  cases position : previous.bind place.body.position? with
  | none => exact ⟨place.body.layout, [], (List.append_nil _).symm, rfl⟩
  | some index =>
      rcases Option.bind_eq_some_iff.mp position with ⟨after, _, found⟩
      rcases List.idxOf?_eq_some_iff.mp found with ⟨bound, _⟩
      rcases List.exists_of_modifyTailIdx (List.cons id) bound with
        ⟨before, behind, splits, _, inserts⟩
      refine ⟨before, behind, splits, ?_⟩
      simp only [List.insertIdx, inserts]

theorem predecessorCount_eq_zero_iff {place : Place} {id : BlockId} :
    place.body.predecessorCount id = 0 ↔ ¬ place.EdgeTo id := by
  constructor
  · exact fun none edge => edge.predecessorCount_ne_zero none
  · intro noEdge
    by_contra counted
    exact noEdge (Regular.exists_predecessor counted)

end Place

/-- The ledger is right about `place`, and about what has happened since `base`. -/
structure Ledger.Describes (ledger : Ledger) (base place : Place) : Prop where
  keyed : place.body.Keyed
  targets : ∀ target, place.EdgeTo target → target.number.toNat < place.body.nextBlock.toNat
  standing : ∀ id, place.block = some id → id.number.toNat < place.body.nextBlock.toNat
  live : place.isLive = true ↔ ledger.alive
  reached : ∀ id, ledger.known id → (place.EdgeTo id ↔ ledger.reached id)
  numbered : ∀ id, ledger.known id → id.number.toNat < place.body.nextBlock.toNat
  apart : ∀ id ∈ ledger.waits, place.block ≠ some id
  unfinished : ∀ id ∈ ledger.waits, ∀ block, place.body.block? id = some block →
    block.isTerminated = false
  /-- Code that cannot run does not become part of the function. -/
  frozen : base.isLive = false → place.isLive = false ∧ base.SameCode place
  placed : ledger.closed → base.isLive = true → ∀ id, ledger.known id →
    id ∈ place.body.layout ∨ id ∈ ledger.waits
  closed : ledger.closed → ∀ id, place.EdgeTo id → id ∈ place.body.layout ∨ id ∈ ledger.waits
  tight : ledger.tight → ∀ id ∈ place.body.layout, place.block ≠ some id → ∀ block,
    place.body.block? id = some block → block.isTerminated = true

namespace Ledger.Describes

variable {ledger : Ledger} {base place next : Place} {id : BlockId} {count : Nat}

theorem dead (describes : ledger.Describes base place) (isDead : base.isLive = false) :
    ¬ ledger.alive := by
  rw [← describes.live, (describes.frozen isDead).1]
  exact Bool.false_ne_true

theorem congr (describes : ledger.Describes base place) {other : Ledger}
    (fewer : ∀ id, other.known id → ledger.known id) (waits : other.waits = ledger.waits)
    (alive : ledger.alive ↔ other.alive)
    (reached : ∀ id, other.known id → (ledger.reached id ↔ other.reached id))
    (closed : other.closed → ledger.closed) (tight : other.tight → ledger.tight) :
    other.Describes base place where
  keyed := describes.keyed
  targets := describes.targets
  standing := describes.standing
  live := describes.live.trans alive
  reached := fun id known => (describes.reached id (fewer id known)).trans (reached id known)
  numbered := fun id known => describes.numbered id (fewer id known)
  apart := fun id member => describes.apart id (waits ▸ member)
  unfinished := fun id member => describes.unfinished id (waits ▸ member)
  frozen := describes.frozen
  placed := fun isClosed live id known =>
    waits ▸ describes.placed (closed isClosed) live id (fewer id known)
  closed := fun isClosed id edge => waits ▸ describes.closed (closed isClosed) id edge
  tight := fun isTight => describes.tight (tight isTight)

theorem permute (describes : ledger.Describes base place) {waits : List BlockId}
    (perm : ledger.waits.Perm waits) : Describes { ledger with waits := waits } base place :=
  { describes with
    apart := fun id member => describes.apart id (perm.mem_iff.mpr member)
    unfinished := fun id member => describes.unfinished id (perm.mem_iff.mpr member)
    placed := fun isClosed live id known =>
      (describes.placed isClosed live id known).imp_right perm.mem_iff.mp
    closed := fun isClosed id edge =>
      (describes.closed isClosed id edge).imp_right perm.mem_iff.mp }

/-- A change that leaves the edges as they are. Only code that can run may change what is laid
out. -/
theorem transport (describes : ledger.Describes base place) (keyed : next.body.Keyed)
    (numbers : place.body.nextBlock.toNat ≤ next.body.nextBlock.toNat)
    (layout : next.body.layout = place.body.layout)
    (ends : ∀ id ∈ place.body.layout, (next.body.block? id).map Block.terminator =
      (place.body.block? id).map Block.terminator)
    (still : place.isLive = false → ∀ id ∈ place.body.layout,
      next.body.block? id = place.body.block? id)
    (current : next.block = place.block ∨
      place.isOpen = false ∧ ∀ id, next.block = some id → id ∉ place.body.layout)
    (standing : ∀ id, next.block = some id → id.number.toNat < next.body.nextBlock.toNat)
    (apart : ∀ id ∈ ledger.waits, next.block ≠ some id)
    (unfinished : ∀ id ∈ ledger.waits, ∀ block, next.body.block? id = some block →
      block.isTerminated = false) : ledger.Describes base next := by
  have edges := Place.edgeTo_iff_of_terminators layout ends
  have terminated : ∀ id ∈ place.body.layout, ∀ block, next.body.block? id = some block →
      ∃ old, place.body.block? id = some old ∧ old.isTerminated = block.isTerminated := by
    intro id member block found
    have same := ends id member
    rw [found] at same
    rcases Option.map_eq_some_iff.mp same.symm with ⟨old, foundOld, terminator⟩
    exact ⟨old, foundOld, congrArg Terminator.isFinished terminator⟩
  have live : next.isLive = true ↔ place.isLive = true := by
    rcases current with same | ⟨closed, detached⟩
    · rw [Place.isLive_iff, Place.isLive_iff, same, layout]
      constructor
      · rintro ⟨id, block, stands, member, found, unfinished⟩
        rcases terminated id member block found with ⟨old, foundOld, same⟩
        exact ⟨id, old, stands, member, foundOld, same.trans unfinished⟩
      · rintro ⟨id, block, stands, member, found, unfinished⟩
        have same := ends id member
        rw [found] at same
        rcases Option.map_eq_some_iff.mp same with ⟨after, foundAfter, terminator⟩
        exact ⟨id, after, stands, member, foundAfter,
          (congrArg Terminator.isFinished terminator).trans unfinished⟩
    · have dead := Place.isLive_of_not_isOpen closed
      rw [dead]
      constructor
      · intro live
        rcases Place.isLive_iff.mp live with ⟨id, _, stands, member, _⟩
        exact absurd (layout ▸ member) (detached id stands)
      · exact fun absurd => by cases absurd
  have asleep : next.isLive = place.isLive := Bool.eq_iff_iff.mpr live
  exact {
    keyed := keyed
    targets := fun target edge =>
      Nat.lt_of_lt_of_le (describes.targets target ((edges target).mp edge)) numbers
    standing := standing
    live := live.trans describes.live
    reached := fun id known => (edges id).trans (describes.reached id known)
    numbered := fun id known => Nat.lt_of_lt_of_le (describes.numbered id known) numbers
    apart := apart
    unfinished := unfinished
    frozen := by
      intro isDead
      rcases describes.frozen isDead with ⟨dead, same⟩
      exact ⟨asleep.trans dead, same.trans ⟨layout, still dead⟩⟩
    placed := by rw [layout]; exact describes.placed
    closed := fun isClosed id edge =>
      layout ▸ describes.closed isClosed id ((edges id).mp edge)
    tight := by
      intro isTight id member left block found
      rw [layout] at member
      rcases terminated id member block found with ⟨old, foundOld, same⟩
      rw [← same]
      by_cases stands : place.block = some id
      · rcases current with kept | ⟨closed, _⟩
        · exact absurd (kept.trans stands) left
        · rw [Place.isOpen_of_block stands foundOld] at closed
          simpa using closed
      · exact describes.tight isTight id member stands old foundOld }

/-! ### Adding code -/

theorem keyed_change (keyed : place.body.Keyed) {change : Block → Block}
    (sameId : ∀ block, (change block).id = block.id) : (place.change change).body.Keyed := by
  refine ⟨by rw [Place.layout_change]; exact keyed.distinct, fun id block found => ?_⟩
  cases stands : place.block with
  | none =>
      have same : place.change change = place := by simp [Place.change, stands]
      exact keyed.named id block (same ▸ found)
  | some here =>
      rcases Place.exists_of_change stands found with ⟨old, foundOld, ⟨_, rfl⟩ | ⟨_, rfl⟩⟩
      · exact (sameId old).trans (keyed.named id old foundOld)
      · exact keyed.named id block foundOld

theorem unknown (describes : ledger.Describes base place) : ¬ ledger.known place.freshBlock :=
  fun known => absurd (describes.numbered _ known) (Nat.lt_irrefl _)

theorem grow (describes : ledger.Describes base place)
    (holds : place.body.Holds ledger.waits (count + 1)) (label : String) :
    ledger.Describes base (place.create label) := by
  have same := Place.sameCode_create holds label
  have counter : (place.create label).body.nextBlock.toNat = place.body.nextBlock.toNat + 1 :=
    holds.toNat_nextBlock_createBlock (Nat.le_add_left 1 count) label
  have looks := place.block?_create label
  refine describes.transport ⟨describes.keyed.distinct, ?_⟩ (by omega) rfl
    (fun id member => by rw [same.blocks id member]) (fun _ => same.blocks) (.inl rfl) ?_
    describes.apart ?_
  · intro id block found
    rw [looks] at found
    split at found
    · rename_i isFresh
      cases found
      exact isFresh
    · exact describes.keyed.named id block found
  · intro id stands
    have := describes.standing id stands
    omega
  · intro id member block found
    rw [looks, if_neg] at found
    · exact describes.unfinished id member block found
    · rintro rfl
      exact holds.fresh_not_mem_waits member

theorem create (describes : ledger.Describes base place)
    (holds : place.body.Holds ledger.waits (count + 1)) (label : String) :
    (ledger.create place.freshBlock).Describes base (place.create label) := by
  have grown := describes.grow holds label
  have same := Place.sameCode_create holds label
  have unreached : ¬ (place.create label).EdgeTo place.freshBlock := by
    intro edge
    exact absurd (describes.targets _ ((same.edgeTo_iff _).mp edge)) (Nat.lt_irrefl _)
  exact { grown with
    reached := by
      rintro id (known | rfl)
      · have old : id ≠ place.freshBlock := fun same => describes.unknown (same ▸ known)
        exact (grown.reached id known).trans ⟨fun reached => ⟨old, reached⟩, And.right⟩
      · exact ⟨fun edge => absurd edge unreached, fun reached => absurd rfl reached.1⟩
    numbered := by
      rintro id (known | rfl)
      · exact grown.numbered id known
      · have counter := holds.toNat_nextBlock_createBlock (Nat.le_add_left 1 count) label
        exact Nat.lt_of_lt_of_eq (Nat.lt_succ_self _) counter.symm
    apart := by
      intro id member
      rcases List.mem_cons.mp member with rfl | waits
      · exact fun stands => absurd (describes.standing _ stands) (Nat.lt_irrefl _)
      · exact grown.apart id waits
    unfinished := by
      intro id member block found
      rcases List.mem_cons.mp member with rfl | waits
      · rw [Place.block?_create, if_pos rfl] at found
        cases found
        rfl
      · exact grown.unfinished id waits block found
    placed := by
      rintro isClosed live id (known | rfl)
      · exact (grown.placed isClosed live id known).imp_right (List.mem_cons_of_mem _)
      · exact .inr List.mem_cons_self
    closed := fun isClosed id edge =>
      (grown.closed isClosed id edge).imp_right (List.mem_cons_of_mem _) }

theorem moveTo (describes : ledger.Describes base place) (closed : place.isOpen = false)
    {block : Option BlockId} (detached : ∀ id, block = some id → id ∉ place.body.layout)
    (standing : ∀ id, block = some id → id.number.toNat < place.body.nextBlock.toNat)
    (apart : ∀ id ∈ ledger.waits, block ≠ some id) :
    ledger.Describes base ⟨place.body, block⟩ :=
  describes.transport describes.keyed (Nat.le_refl _) rfl (fun _ _ => rfl) (fun _ _ _ => rfl)
    (.inr ⟨closed, detached⟩) standing apart describes.unfinished

theorem ready (describes : ledger.Describes base place)
    (holds : place.body.Holds ledger.waits (place.owed + count)) :
    ledger.Describes base place.ready := by
  unfold Place.ready
  cases isOpen : place.isOpen with
  | true => exact describes
  | false =>
      have room : place.body.Holds ledger.waits (count + 1) := by
        rw [Place.owed, isOpen, if_neg Bool.false_ne_true, Nat.add_comm] at holds
        exact holds
      have created := describes.create room Cursor.unreachableLabel
      have grown := describes.grow room Cursor.unreachableLabel
      have closed : (place.create Cursor.unreachableLabel).isOpen = false := by
        have same : (place.create Cursor.unreachableLabel).isOpen = place.isOpen := by
          refine Place.isOpen_congr rfl fun id stands => ?_
          have old : place.freshBlock ≠ id := by
            rintro rfl
            exact absurd (describes.standing _ stands) (Nat.lt_irrefl _)
          rw [Place.block?_create, if_neg old]
        exact same.trans isOpen
      refine grown.moveTo closed ?_ ?_ ?_
      · rintro _ ⟨⟩
        exact room.fresh_not_mem_layout
      · rintro _ ⟨⟩
        exact created.numbered _ (.inr rfl)
      · intro id waits same
        cases same
        exact room.fresh_not_mem_waits waits

theorem change (describes : ledger.Describes base place) (isOpen : place.isOpen = true)
    {change : Block → Block} (sameId : ∀ block, (change block).id = block.id)
    (sameEnd : ∀ block, (change block).terminator = block.terminator) :
    ledger.Describes base (place.change change) := by
  rcases Place.exists_of_isOpen isOpen with ⟨here, current, stands, found, unfinished⟩
  have looks := Place.block?_change stands change
  refine describes.transport (keyed_change describes.keyed sameId)
    (Nat.le_of_eq (by rw [Place.nextBlock_change])) (Place.layout_change place change) ?_ ?_
    (.inl (Place.block_change place change)) ?_ ?_ ?_
  · intro id _
    rw [looks]
    split
    · cases place.body.block? id <;> simp [sameEnd]
    · rfl
  · intro dead id member
    rw [looks, if_neg]
    rintro rfl
    rw [Place.isLive_iff.mpr ⟨here, current, stands, member, found, unfinished⟩] at dead
    cases dead
  · rw [Place.block_change, Place.nextBlock_change]
    exact describes.standing
  · rw [Place.block_change]
    exact describes.apart
  · intro id waits block foundAfter
    rw [looks, if_neg] at foundAfter
    · exact describes.unfinished id waits block foundAfter
    · rintro rfl
      exact describes.apart _ waits stands

theorem add (describes : ledger.Describes base place) (isOpen : place.isOpen = true)
    (instruction : Instruction) : ledger.Describes base (place.add instruction) :=
  describes.change isOpen (fun _ => rfl) fun _ => rfl

theorem define (describes : ledger.Describes base place) (isOpen : place.isOpen = true) (ty : Ty)
    (make : Operand → Instruction) : ledger.Describes base (place.define ty make) := by
  have taken : ledger.Describes base (place.takeTemp ty) :=
    describes.transport ⟨describes.keyed.distinct, describes.keyed.named⟩ (Nat.le_refl _) rfl
      (fun _ _ => rfl) (fun _ _ _ => rfl) (.inl rfl) describes.standing describes.apart
      describes.unfinished
  exact taken.add isOpen _

/-! ### Leaving a block -/

theorem terminate (describes : ledger.Describes base place) (isOpen : place.isOpen = true)
    {terminator : Terminator} (finished : terminator.isFinished = true)
    (known : ∀ target ∈ terminator.successors, ledger.known target) :
    (ledger.leave (· ∈ terminator.successors)).Describes base (place.terminate terminator) := by
  rcases Place.exists_of_isOpen isOpen with ⟨here, current, stands, found, unfinished⟩
  let change (block : Block) : Block := block.setTerminator terminator
  have looks := Place.block?_change stands change
  have layout : (place.terminate terminator).body.layout = place.body.layout :=
    Place.layout_change place change
  have counter : (place.terminate terminator).body.nextBlock = place.body.nextBlock :=
    Place.nextBlock_change place change
  have block : (place.terminate terminator).block = place.block := Place.block_change place change
  have dead : (place.terminate terminator).isLive = false :=
    Place.isLive_of_not_isOpen (Place.Regular.isOpen_terminate isOpen finished)
  have edges := Place.edgeTo_terminate_iff isOpen terminator
  exact {
    keyed := keyed_change describes.keyed fun _ => rfl
    targets := by
      intro target edge
      rw [counter]
      rcases (edges target).mp edge with old | ⟨_, leads⟩
      · exact describes.targets target old
      · exact describes.numbered target (known target leads)
    standing := by
      rw [block, counter]
      exact describes.standing
    live := by simp [dead, Ledger.leave]
    reached := by
      intro id isKnown
      rw [edges, describes.reached id isKnown, describes.live]
      rfl
    numbered := by
      rw [counter]
      exact describes.numbered
    apart := by
      rw [block]
      exact describes.apart
    unfinished := by
      intro id waits block foundAfter
      rw [Place.terminate, looks, if_neg] at foundAfter
      · exact describes.unfinished id waits block foundAfter
      · rintro rfl
        exact describes.apart _ waits stands
    frozen := by
      intro isDead
      rcases describes.frozen isDead with ⟨wasDead, same⟩
      refine ⟨dead, same.trans ⟨layout, fun id member => ?_⟩⟩
      rw [Place.terminate, looks, if_neg]
      rintro rfl
      rw [Place.isLive_iff.mpr ⟨here, current, stands, member, found, unfinished⟩] at wasDead
      cases wasDead
    placed := by
      rw [layout]
      exact describes.placed
    closed := by
      intro isClosed id edge
      rw [layout]
      rcases (edges id).mp edge with old | ⟨live, leads⟩
      · exact describes.closed isClosed id old
      · refine describes.placed isClosed ?_ id (known id leads)
        by_contra asleep
        rw [(describes.frozen (by simpa using asleep)).1] at live
        cases live
    tight := by
      intro isTight id member left block' foundAfter
      rw [layout] at member
      rw [Place.terminate, looks] at foundAfter
      split at foundAfter
      · rename_i same
        subst same
        exact absurd (block.trans stands) left
      · exact describes.tight isTight id member (fun standing => left (block.trans standing)) _
          foundAfter }

theorem leaveTo (describes : ledger.Describes base place) {target : BlockId}
    (known : ledger.known target) :
    (ledger.leave (· = target)).Describes base (place.leaveTo target) := by
  unfold Place.leaveTo
  cases isOpen : place.isOpen with
  | true =>
      have ended : (ledger.leave (· ∈ (Terminator.jump target).successors)).Describes base
          (place.terminate (.jump target)) :=
        describes.terminate isOpen rfl fun _ member => List.mem_singleton.mp member ▸ known
      have left : (ledger.leave (· = target)).Describes base (place.terminate (.jump target)) :=
        ended.congr (fun _ => id) rfl .rfl
          (fun other _ => by simp [Ledger.leave, Terminator.successors]) id id
      exact left.moveTo (Place.Regular.isOpen_terminate isOpen rfl) (fun _ none => by cases none)
        (fun _ none => by cases none) fun _ _ none => by cases none
  | false =>
      have notAlive : ¬ ledger.alive := by
        rw [← describes.live, Place.isLive_of_not_isOpen isOpen]
        exact Bool.false_ne_true
      have left : (ledger.leave (· = target)).Describes base place :=
        describes.congr (fun _ => id) rfl (iff_false_intro notAlive)
          (fun other _ => by simp [Ledger.leave, notAlive]) id id
      exact left.moveTo isOpen (fun _ none => by cases none) (fun _ none => by cases none)
        fun _ _ none => by cases none

/-! ### Entering a block -/

section Entering

variable {waits : List BlockId} {known : BlockId → Prop}

theorem drop (describes : ledger.Describes base place) (isWaits : ledger.waits = id :: waits)
    (noEdge : ¬ place.EdgeTo id)
    (fewer : ∀ other, known other → ledger.known other)
    (stays : known id → base.isLive = false) :
    Describes { ledger with known := known, waits := waits } base place where
  keyed := describes.keyed
  targets := describes.targets
  standing := describes.standing
  live := describes.live
  reached := fun other isKnown => describes.reached other (fewer other isKnown)
  numbered := fun other isKnown => describes.numbered other (fewer other isKnown)
  apart := fun other member => describes.apart other (by simp [isWaits, member])
  unfinished := fun other member => describes.unfinished other (by simp [isWaits, member])
  frozen := describes.frozen
  placed := by
    intro isClosed live other isKnown
    have placed := describes.placed isClosed live other (fewer other isKnown)
    rw [isWaits, List.mem_cons] at placed
    rcases placed with laidOut | rfl | waiting
    · exact .inl laidOut
    · rw [stays isKnown] at live
      cases live
    · exact .inr waiting
  closed := by
    intro isClosed other edge
    have placed := describes.closed isClosed other edge
    rw [isWaits, List.mem_cons] at placed
    rcases placed with laidOut | rfl | waiting
    · exact .inl laidOut
    · exact absurd edge noEdge
    · exact .inr waiting
  tight := describes.tight

theorem discard (describes : ledger.Describes base place) (detached : id ∉ place.body.layout) :
    ledger.Describes base (place.discard id) := by
  have looks := place.block?_discard id
  have onLayout : ∀ other ∈ place.body.layout,
      (place.discard id).body.block? other = place.body.block? other := by
    intro other member
    rw [looks, if_neg]
    rintro rfl
    exact detached member
  refine describes.transport ⟨describes.keyed.distinct, ?_⟩ (Nat.le_refl _) rfl
    (fun other member => by rw [onLayout other member]) (fun _ => onLayout) (.inl rfl)
    describes.standing describes.apart ?_
  · intro other block found
    rw [looks] at found
    split at found
    · cases found
    · exact describes.keyed.named other block found
  · intro other member block found
    rw [looks] at found
    split at found
    · cases found
    · exact describes.unfinished other member block found

theorem layOut (describes : ledger.Describes base place)
    (isWaits : ledger.waits = id :: waits) (holds : place.body.Holds (id :: waits) count)
    (left : place.block = none) (edge : place.EdgeTo id) (awake : base.isLive = true)
    (isKnown : ledger.known id) (fewer : ∀ other, known other → ledger.known other)
    {before behind : List BlockId} (splits : place.body.layout = before ++ behind) :
    Describes { ledger with known := known, waits := waits, alive := True } base
      ⟨{ place.body with layout := before ++ id :: behind }, some id⟩ := by
  let after : Place := ⟨{ place.body with layout := before ++ id :: behind }, some id⟩
  have perm : after.body.layout.Perm (id :: place.body.layout) := by
    rw [splits]
    exact List.perm_middle
  have detached := holds.detached id List.mem_cons_self
  rcases Option.isSome_iff_exists.mp (holds.present id List.mem_cons_self) with ⟨block, found⟩
  have unfinished := describes.unfinished id (by simp [isWaits]) block found
  have edges : ∀ target, after.EdgeTo target ↔ place.EdgeTo target := by
    intro target
    constructor
    · rintro ⟨source, member, block', foundSource, leads⟩
      rcases List.mem_cons.mp (perm.mem_iff.mp member) with rfl | old
      · cases found.symm.trans foundSource
        rw [Place.successors_of_open unfinished] at leads
        cases leads
      · exact ⟨source, old, block', foundSource, leads⟩
    · rintro ⟨source, member, block', foundSource, leads⟩
      exact ⟨source, perm.mem_iff.mpr (List.mem_cons_of_mem _ member), block', foundSource, leads⟩
  have live : after.isLive = true := Place.isLive_iff.mpr
    ⟨id, block, rfl, perm.mem_iff.mpr List.mem_cons_self, found, unfinished⟩
  have within : ∀ other, other ∈ place.body.layout ∨ other ∈ ledger.waits →
      other ∈ after.body.layout ∨ other ∈ waits := by
    intro other either
    rw [isWaits, List.mem_cons] at either
    rcases either with old | rfl | waiting
    · exact .inl (perm.mem_iff.mpr (List.mem_cons_of_mem _ old))
    · exact .inl (perm.mem_iff.mpr List.mem_cons_self)
    · exact .inr waiting
  exact {
    keyed := ⟨perm.nodup_iff.mpr (List.nodup_cons.mpr ⟨detached, describes.keyed.distinct⟩),
      describes.keyed.named⟩
    targets := fun target edge => describes.targets target ((edges target).mp edge)
    standing := by
      rintro _ ⟨⟩
      exact describes.numbered id isKnown
    live := iff_of_true live trivial
    reached := fun other known => (edges other).trans (describes.reached other (fewer other known))
    numbered := fun other known => describes.numbered other (fewer other known)
    apart := by
      intro other member same
      cases same
      exact (List.nodup_cons.mp holds.apart).1 member
    unfinished := fun other member => describes.unfinished other (by simp [isWaits, member])
    frozen := fun isDead => by rw [awake] at isDead; cases isDead
    placed := fun isClosed live other known =>
      within other (describes.placed isClosed live other (fewer other known))
    closed := fun isClosed other edge =>
      within other (describes.closed isClosed other ((edges other).mp edge))
    tight := by
      intro isTight other member elsewhere block' foundOther
      rcases List.mem_cons.mp (perm.mem_iff.mp member) with rfl | old
      · exact absurd rfl elsewhere
      · exact describes.tight isTight other old (by simp [left]) block' foundOther }

/-- A waiting block is entered. If control has not been sent there, what follows cannot run. -/
theorem enter (describes : ledger.Describes base place) (isWaits : ledger.waits = id :: waits)
    (holds : place.body.Holds (id :: waits) count) (isKnown : ledger.known id)
    (asleep : base.isLive = false → ¬ ledger.reached id)
    (fewer : ∀ other, known other → ledger.known other)
    (stays : known id → base.isLive = true → ledger.alive ∨ ledger.reached id)
    (closing : Bool) :
    ∃ after, place.tryEnter id closing = .ok after ∧ after.body.Holds waits count ∧
      (ledger.enter id waits known).Describes base after := by
  have left := describes.leaveTo isKnown
  have holdsLeft := Place.holds_leaveTo holds id
  have detached := holdsLeft.detached id List.mem_cons_self
  have reached : (place.leaveTo id).EdgeTo id ↔ ledger.alive ∨ ledger.reached id := by
    rw [left.reached id isKnown]
    simp [Ledger.leave, or_comm]
  simp only [Place.tryEnter]
  by_cases edge : (place.leaveTo id).EdgeTo id
  · rw [if_neg edge.predecessorCount_ne_zero]
    rcases Place.tryLayOut_eq (holdsLeft.present id List.mem_cons_self) detached place.block with
      ⟨before, behind, splits, laysOut⟩
    have awake : base.isLive = true := by
      by_contra isDead
      have isDead : base.isLive = false := by simpa using isDead
      exact (reached.mp edge).elim (describes.dead isDead) (asleep isDead)
    refine ⟨_, by rw [laysOut]; rfl, holdsLeft.layOut splits, ?_⟩
    exact (left.layOut isWaits holdsLeft rfl edge awake isKnown fewer splits).congr
      (fun _ known => known) rfl (iff_of_true trivial (reached.mp edge)) (fun _ _ => .rfl)
      (fun closed => closed) fun tight => tight
  · have noEdge := mt reached.mpr edge
    have dropped := left.drop isWaits edge fewer fun isKnown => by
      by_contra awake
      exact noEdge (stays isKnown (by simpa using awake))
    have entered : (ledger.enter id waits known).Describes base (place.leaveTo id) :=
      dropped.congr (fun _ known => known) rfl (iff_of_false (by simp [Ledger.leave]) noEdge)
        (fun _ _ => .rfl) (fun closed => closed) fun tight => tight
    rw [if_pos (Place.predecessorCount_eq_zero_iff.mpr edge)]
    cases closing with
    | true =>
        refine ⟨(place.leaveTo id).discard id, ?_, holdsLeft.discard, entered.discard detached⟩
        have isDetached : (place.leaveTo id).body.isLaidOut id = false := by
          simpa [Body.isLaidOut] using detached
        rcases Option.isSome_iff_exists.mp (holdsLeft.present id List.mem_cons_self) with
          ⟨block, found⟩
        simp [Place.tryDiscard, isDetached, found]
    | false =>
        refine ⟨⟨(place.leaveTo id).body, some id⟩, rfl, holdsLeft.tail, ?_⟩
        refine entered.moveTo rfl ?_ ?_ ?_
        · rintro _ ⟨⟩
          exact detached
        · rintro _ ⟨⟩
          exact left.numbered id isKnown
        · intro other member same
          cases same
          exact (List.nodup_cons.mp holds.apart).1 member

end Entering

/-! ### Whole stretches -/

theorem restart (describes : ledger.Describes base place) : ledger.Describes place place :=
  { describes with
    frozen := fun dead => ⟨dead, .refl place⟩
    placed := by
      intro isClosed live
      refine describes.placed isClosed ?_
      by_contra asleep
      rw [(describes.frozen (by simpa using asleep)).1] at live
      cases live }

theorem trans {middle : Place} {later : Ledger} (early : ledger.Describes base middle)
    (late : later.Describes middle place) (waits : later.waits = ledger.waits)
    (known : ∀ id, later.known id → ledger.known id) (closed : later.closed → ledger.closed) :
    later.Describes base place :=
  { late with
    frozen := by
      intro isDead
      rcases early.frozen isDead with ⟨dead, same⟩
      rcases late.frozen dead with ⟨stillDead, stillSame⟩
      exact ⟨stillDead, same.trans stillSame⟩
    placed := by
      intro isClosed live id isKnown
      cases middleLive : middle.isLive with
      | true => exact late.placed isClosed middleLive id isKnown
      | false =>
          rw [(late.frozen middleLive).2.layout, waits]
          exact early.placed (closed isClosed) live id (known id isKnown) }

theorem returnIfLive (describes : ledger.Describes base place) (value : Option Operand) :
    Describes { ledger with alive := False } base (place.returnIfLive value) := by
  unfold Place.returnIfLive
  cases live : place.isLive with
  | true =>
      have isOpen := Lowering.isOpen_of_isLive live
      have returned : (ledger.leave (· ∈ (Terminator.ret value).successors)).Describes base
          (place.terminate (.ret value)) :=
        describes.terminate isOpen rfl fun _ member => by cases member
      exact returned.congr (fun _ known => known) rfl .rfl
        (fun id _ => by simp [Ledger.leave, Terminator.successors]) (fun closed => closed)
        fun tight => tight
  | false =>
      have dead : ¬ ledger.alive := by simp [← describes.live, live]
      exact describes.congr (fun _ known => known) rfl (iff_false_intro dead) (fun _ _ => .rfl)
        (fun closed => closed) fun tight => tight

end Ledger.Describes

/-! ## Functions

A function is opened at a new entry block, also if it has been opened before. -/

/-- What holds of every function at any time. -/
structure Body.Accountable (body : Body) : Prop where
  keyed : body.Keyed
  targets : ∀ target, (Place.mk body none).EdgeTo target →
    target.number.toNat < body.nextBlock.toNat

def Body.IsClosed (body : Body) : Prop := ∀ target, (Place.mk body none).EdgeTo target →
  target ∈ body.layout

def Body.IsTight (body : Body) : Prop := ∀ id ∈ body.layout, ∀ block,
  body.block? id = some block → block.isTerminated = true

theorem Body.not_edgeTo_empty (target : BlockId) : ¬ (Place.mk .empty none).EdgeTo target := by
  rintro ⟨id, member, _⟩
  cases member

theorem Body.accountable_empty : Body.empty.Accountable where
  keyed := ⟨List.nodup_nil, fun _ _ found => by cases found⟩
  targets := fun target edge => absurd edge (not_edgeTo_empty target)

theorem Body.isClosed_empty : Body.empty.IsClosed :=
  fun target edge => absurd edge (not_edgeTo_empty target)

theorem Body.isTight_empty : Body.empty.IsTight := fun _ member => by cases member

theorem Place.sameCode_pruned (place : Place) : place.SameCode place.pruned :=
  ⟨rfl, fun _ member => block?_prune_of_mem member⟩

theorem Body.IsClosed.prune {body : Body} (closed : body.IsClosed) : body.prune.IsClosed :=
  fun target edge =>
    closed target (((Place.mk body none).sameCode_pruned.edgeTo_iff target).mp edge)

theorem Body.IsTight.prune {body : Body} (tight : body.IsTight) : body.prune.IsTight :=
  fun id member block found => tight id member block (Place.block?_of_prune found).2

theorem Body.Accountable.prune {body : Body} (accountable : body.Accountable) :
    body.prune.Accountable where
  keyed := ⟨accountable.keyed.distinct, fun id block found =>
    accountable.keyed.named id block (Place.block?_of_prune found).2⟩
  targets := fun target edge => accountable.targets target
    (((Place.mk body none).sameCode_pruned.edgeTo_iff target).mp edge)

def Ledger.opening (closed tight : Prop) : Ledger where
  known := fun _ => False
  waits := []
  alive := True
  reached := fun _ => False
  closed := closed
  tight := tight

namespace Ledger.Describes

variable {ledger : Ledger} {base place : Place} {count : Nat}

theorem accountable (describes : ledger.Describes base place) : place.body.Accountable :=
  ⟨describes.keyed, describes.targets⟩

theorem isClosed (describes : ledger.Describes base place) (closed : ledger.closed)
    (waits : ledger.waits = []) : place.body.IsClosed := by
  intro target edge
  have either := describes.closed closed target edge
  rw [waits] at either
  exact either.resolve_right (List.not_mem_nil)

theorem isTight (describes : ledger.Describes base place) (tight : ledger.tight)
    (dead : ¬ ledger.alive) : place.body.IsTight := by
  intro id member block found
  by_cases stands : place.block = some id
  · cases terminated : block.isTerminated with
    | true => rfl
    | false =>
        exact absurd (describes.live.mp (Place.isLive_iff.mpr
          ⟨id, block, stands, member, found, terminated⟩)) dead
  · exact describes.tight tight id member stands block found

theorem opened {body : Body} (accountable : body.Accountable) (holds : body.Holds [] (count + 1))
    {closed tight : Prop} (isClosed : closed → body.IsClosed) (isTight : tight → body.IsTight) :
    (Ledger.opening closed tight).Describes (Place.mk body none).opened
      (Place.mk body none).opened := by
  let place : Place := ⟨body, none⟩
  have missing : place.freshBlock ∉ body.layout := holds.fresh_not_mem_layout
  have same : place.SameCode (place.create "entry") := Place.sameCode_create holds "entry"
  have counter := holds.toNat_nextBlock_createBlock (Nat.le_add_left 1 count) "entry"
  have looks := place.block?_create "entry"
  have found : place.opened.body.block? place.freshBlock = some (.empty place.freshBlock "entry") :=
    (looks place.freshBlock).trans (if_pos rfl)
  have onLayout : ∀ id ∈ body.layout, place.opened.body.block? id = body.block? id := same.blocks
  have layout : ∀ id, id ∈ place.opened.body.layout ↔ id ∈ body.layout ∨ id = place.freshBlock := by
    intro id
    exact List.mem_append.trans (or_congr .rfl List.mem_singleton)
  have edges : ∀ target, place.opened.EdgeTo target → place.EdgeTo target := by
    rintro target ⟨id, member, block, foundBlock, leads⟩
    rcases (layout id).mp member with old | rfl
    · exact ⟨id, old, block, (onLayout id old).symm.trans foundBlock, leads⟩
    · rw [found] at foundBlock
      cases foundBlock
      cases leads
  have live : place.opened.isLive = true :=
    Place.isLive_iff.mpr ⟨_, _, rfl, (layout _).mpr (.inr rfl), found, rfl⟩
  exact {
    keyed := by
      constructor
      · exact List.nodup_append.mpr ⟨accountable.keyed.distinct, List.nodup_singleton _,
          fun id old other new => by
            rw [List.mem_singleton.mp new]
            rintro rfl
            exact missing old⟩
      · intro id block foundBlock
        have foundBlock := (looks id).symm.trans foundBlock
        split at foundBlock
        · rename_i isFresh
          cases foundBlock
          exact isFresh
        · exact accountable.keyed.named id block foundBlock
    targets := by
      intro target edge
      have bound := accountable.targets target (edges target edge)
      exact Nat.lt_of_lt_of_eq (Nat.lt_succ_of_lt bound) counter.symm
    standing := by
      rintro _ ⟨⟩
      exact Nat.lt_of_lt_of_eq (Nat.lt_succ_self _) counter.symm
    live := iff_of_true live trivial
    reached := fun _ absurd => absurd.elim
    numbered := fun _ absurd => absurd.elim
    apart := fun _ member => by cases member
    unfinished := fun _ member => by cases member
    frozen := fun dead => by rw [live] at dead; cases dead
    placed := fun _ _ _ absurd => absurd.elim
    closed := fun closes target edge =>
      .inl ((layout target).mpr (.inl (isClosed closes target (edges target edge))))
    tight := by
      intro tightens id member elsewhere block foundBlock
      rcases (layout id).mp member with old | rfl
      · exact isTight tightens id old block ((onLayout id old).symm.trans foundBlock)
      · exact absurd rfl elsewhere }

end Ledger.Describes

end ScriptLowering.Code
