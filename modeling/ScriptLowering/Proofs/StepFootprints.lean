import ScriptLowering.Proofs.HistoryReplay
import ScriptLowering.Proofs.WorkableSessions

/-! # What a step leaves as it is

A step adds code where the cursor stands. Everywhere else blocks stay what they are: what is
complete is not changed any more, what is laid out stays laid out, and a block that has been created
stays empty until it is entered.
-/

namespace ScriptLowering.Code

/-! ## Entering a block -/

/-- The outcome of entering a block: it is dropped, filled outside of the layout, or laid out. -/
inductive Place.Enters (place : Place) (id : BlockId) : Place → Prop
  | dropped (missing : id ∉ place.body.layout)
      (known : ((place.leaveTo id).body.block? id).isSome = true) :
      Enters place id ((place.leaveTo id).discard id)
  | detached (unreached : (place.leaveTo id).body.predecessorCount id = 0) :
      Enters place id ⟨(place.leaveTo id).body, some id⟩
  | laidOut {before behind : List BlockId} (missing : id ∉ place.body.layout)
      (known : ((place.leaveTo id).body.block? id).isSome = true)
      (splits : place.body.layout = before ++ behind) :
      Enters place id
        ⟨{ (place.leaveTo id).body with layout := before ++ id :: behind }, some id⟩

theorem Cursor.checkDetached_eq_ok {body : Body} {id : BlockId}
    (checks : Cursor.checkDetached body id = .ok ()) :
    (body.block? id).isSome = true ∧ id ∉ body.layout := by
  unfold Cursor.checkDetached at checks
  split at checks
  · cases checks
  · rename_i known
    split at checks
    · cases checks
    · rename_i detached
      refine ⟨?_, fun member => detached (Body.isLaidOut_iff.mpr member)⟩
      simpa [Option.isSome_iff_ne_none] using known

theorem Place.tryLayOut_eq_ok {place next : Place} {id : BlockId} {previous : Option BlockId}
    (lays : place.tryLayOut id previous = .ok next) :
    (place.body.block? id).isSome = true ∧ id ∉ place.body.layout ∧
      ∃ before behind, place.body.layout = before ++ behind ∧
        next = ⟨{ place.body with layout := before ++ id :: behind }, place.block⟩ := by
  unfold tryLayOut at lays
  rcases bind_unit_eq_ok.mp lays with ⟨checks, rest⟩
  rcases Cursor.checkDetached_eq_ok checks with ⟨known, missing⟩
  refine ⟨known, missing, ?_⟩
  split at rest
  · rename_i index position
    cases rest
    have bound : index + 1 ≤ place.body.layout.length := by
      rcases Option.bind_eq_some_iff.mp position with ⟨after, _, position⟩
      rcases List.idxOf?_eq_some_iff.mp position with ⟨bound, _⟩
      exact bound
    rcases List.exists_of_modifyTailIdx (List.cons id) bound with
      ⟨before, behind, splits, _, inserts⟩
    refine ⟨before, behind, splits, ?_⟩
    simp only [List.insertIdx, inserts]
  · cases rest
    exact ⟨place.body.layout, [], (List.append_nil _).symm, rfl⟩

theorem Place.enters_of_tryEnter {place next : Place} {id : BlockId} {closing : Bool}
    (enters : place.tryEnter id closing = .ok next) : place.Enters id next := by
  have layout := Place.layout_leaveTo place id
  simp only [tryEnter] at enters
  split at enters
  · rename_i unreached
    split at enters
    · unfold tryDiscard at enters
      split at enters
      · cases enters
      · rename_i missing
        split at enters
        · cases enters
        · rename_i known
          cases enters
          refine .dropped (fun member => missing ?_) ?_
          · rw [← layout] at member
            exact Body.isLaidOut_iff.mpr member
          · simpa [Option.isSome_iff_ne_none] using known
    · cases enters
      exact .detached unreached
  · cases lays : (place.leaveTo id).tryLayOut id place.block with
    | error error =>
        rw [lays] at enters
        cases enters
    | ok laid =>
        rw [lays] at enters
        cases enters
        rcases tryLayOut_eq_ok lays with ⟨known, missing, before, behind, splits, rfl⟩
        rw [layout] at missing splits
        exact .laidOut missing known splits

/-! ## Blocks that have not been used -/

/-- The block has been created, and no code is in it yet. -/
structure Place.Spares (place : Place) (id : BlockId) : Prop where
  away : place.block ≠ some id
  old : id.number.toNat < place.body.nextBlock.toNat
  missing : id ∉ place.body.layout
  unused : ∀ block, place.body.block? id = some block →
    block.instructions = [] ∧ block.isTerminated = false

/-- `next` has come out of `place`, and only the blocks in `used` have come into use, apart from new
ones. -/
structure Place.Becomes (used : BlockId → Prop) (place next : Place) : Prop where
  counter : place.body.nextBlock.toNat ≤ next.body.nextBlock.toNat
  blocks : ∀ id block, id.number.toNat < place.body.nextBlock.toNat →
    next.body.block? id = some block →
      ∃ before, place.body.block? id = some before ∧ before.Extends block
  layout : ∀ id ∈ place.body.layout, id ∈ next.body.layout
  spares : ∀ id, ¬ used id → place.Spares id → next.Spares id

namespace Place.Becomes

variable {used : BlockId → Prop} {place middle next : Place} {id : BlockId} {count : Nat}

theorem refl (used : BlockId → Prop) (place : Place) : place.Becomes used place where
  counter := Nat.le_refl _
  blocks _ block _ found := ⟨block, found, .refl block⟩
  layout _ := id
  spares _ _ spares := spares

theorem trans (first : place.Becomes used middle) (second : middle.Becomes used next) :
    place.Becomes used next where
  counter := Nat.le_trans first.counter second.counter
  blocks id block old found := by
    rcases second.blocks id block (Nat.lt_of_lt_of_le old first.counter) found with
      ⟨between, foundBetween, extends_⟩
    rcases first.blocks id between old foundBetween with ⟨before, foundBefore, extendsFirst⟩
    exact ⟨before, foundBefore, extendsFirst.trans extends_⟩
  layout id member := second.layout id (first.layout id member)
  spares id unused spares := second.spares id unused (first.spares id unused spares)

theorem mono {more : BlockId → Prop} (becomes : place.Becomes used next)
    (within : ∀ id, used id → more id) : place.Becomes more next :=
  { becomes with spares := fun id unused => becomes.spares id fun isUsed => unused (within id isUsed) }

theorem create (used : BlockId → Prop) (holds : place.body.Holds [] (count + 1)) (label : String) :
    place.Becomes used (place.create label) := by
  have counter := holds.toNat_nextBlock_createBlock (Nat.le_add_left 1 count) label
  have other {id : BlockId} (old : id.number.toNat < place.body.nextBlock.toNat) :
      (place.create label).body.block? id = place.body.block? id := by
    rw [block?_create, if_neg]
    rintro rfl
    exact Nat.lt_irrefl _ old
  refine ⟨?_, fun id block old found => ?_, fun _ member => member, fun id _ spares => ?_⟩
  · exact Nat.le_of_lt (Nat.lt_of_lt_of_eq (Nat.lt_succ_self _) counter.symm)
  · rw [other old] at found
    exact ⟨block, found, .refl block⟩
  · refine ⟨spares.away, ?_, spares.missing, fun block found => ?_⟩
    · exact Nat.lt_trans spares.old (Nat.lt_of_lt_of_eq (Nat.lt_succ_self _) counter.symm)
    · rw [other spares.old] at found
      exact spares.unused block found

theorem moveTo (used : BlockId → Prop) (place : Place) {block : Option BlockId}
    (inUse : ∀ id, block = some id → used id ∨ ¬ place.Spares id) :
    place.Becomes used ⟨place.body, block⟩ := by
  refine { refl used place with spares := fun id unused spares => { spares with away := ?_ } }
  intro stands
  exact (inUse id stands).elim unused fun spared => spared spares

theorem ready (used : BlockId → Prop) (holds : place.body.Holds [] (place.owed + count)) :
    place.Becomes used place.ready := by
  unfold Place.ready
  split
  · exact refl used place
  · rename_i closed
    rw [owed, if_neg closed, Nat.add_comm] at holds
    have creates := create used holds Cursor.unreachableLabel
    refine { creates with spares := fun id unused spares => ?_ }
    refine { creates.spares id unused spares with away := ?_ }
    rintro ⟨⟩
    exact Nat.lt_irrefl _ spares.old

theorem change (used : BlockId → Prop) (isOpen : place.isOpen = true) {change : Block → Block}
    (extends_ : ∀ block : Block, block.isTerminated = false → block.Extends (change block)) :
    place.Becomes used (place.change change) := by
  rcases exists_of_isOpen isOpen with ⟨current, open_, stands, found, unfinished⟩
  have looks := block?_change stands change
  refine ⟨?_, fun id block _ foundAfter => ?_, ?_, fun id _ spares => ?_⟩
  · rw [nextBlock_change]
  · rw [looks] at foundAfter
    split at foundAfter
    · rename_i same
      subst same
      rw [found] at foundAfter ⊢
      cases foundAfter
      exact ⟨open_, rfl, extends_ open_ unfinished⟩
    · exact ⟨block, foundAfter, .refl block⟩
  · rw [layout_change]
    exact fun _ member => member
  · have elsewhere : current ≠ id := fun same => spares.away (same ▸ stands)
    refine ⟨by rw [block_change]; exact spares.away, by rw [nextBlock_change]; exact spares.old,
      by rw [layout_change]; exact spares.missing, fun block foundAfter => ?_⟩
    rw [looks, if_neg elsewhere] at foundAfter
    exact spares.unused block foundAfter

theorem add (used : BlockId → Prop) (isOpen : place.isOpen = true) (instruction : Instruction) :
    place.Becomes used (place.add instruction) :=
  change used isOpen fun _ unfinished => extends_addInstruction unfinished instruction

theorem terminate (used : BlockId → Prop) (isOpen : place.isOpen = true)
    (terminator : Terminator) : place.Becomes used (place.terminate terminator) :=
  change used isOpen fun _ unfinished => extends_setTerminator unfinished terminator

theorem define (used : BlockId → Prop) (isOpen : place.isOpen = true) (ty : Ty)
    (make : Operand → Instruction) : place.Becomes used (place.define ty make) := by
  have takes : place.Becomes used (place.takeTemp ty) :=
    { refl used place with spares := fun _ _ spares => ⟨spares.1, spares.2, spares.3, spares.4⟩ }
  exact takes.trans (add used ((Cursor.isOpen_takeTemp place ty).trans isOpen) _)

theorem leaveTo (used : BlockId → Prop) (place : Place) (target : BlockId) :
    place.Becomes used (place.leaveTo target) := by
  unfold Place.leaveTo
  split
  · rename_i isOpen
    refine (terminate used isOpen _).trans (moveTo used _ ?_)
    rintro _ ⟨⟩
  · refine moveTo used _ ?_
    rintro _ ⟨⟩

theorem drop (used : BlockId → Prop) {next : Place} (counter : next.body.nextBlock = place.body.nextBlock)
    (layout : next.body.layout = place.body.layout)
    (blocks : ∀ id block, next.body.block? id = some block → place.body.block? id = some block)
    (stands : ∀ id, next.block = some id → place.block = some id) : place.Becomes used next where
  counter := by rw [counter]
  blocks id block _ found := ⟨block, blocks id block found, .refl block⟩
  layout := by
    rw [layout]
    exact fun _ member => member
  spares id _ spares := by
    refine ⟨fun here => spares.away (stands id here), by rw [counter]; exact spares.old,
      by rw [layout]; exact spares.missing, fun block found => ?_⟩
    exact spares.unused block (blocks id block found)

theorem discard (used : BlockId → Prop) (place : Place) (id : BlockId) :
    place.Becomes used (place.discard id) := by
  refine drop used rfl rfl (fun other block found => ?_) fun _ stands => stands
  rw [block?_discard] at found
  split at found
  · cases found
  · exact found

theorem pruned (used : BlockId → Prop) (place : Place) : place.Becomes used place.pruned := by
  refine drop used rfl rfl (fun id block found => (block?_of_prune found).2) fun id stands => ?_
  exact (Option.filter_eq_some_iff.mp stands).1

theorem returnIfLive (used : BlockId → Prop) (place : Place) (value : Option Operand) :
    place.Becomes used (place.returnIfLive value) := by
  unfold Place.returnIfLive
  split
  · rename_i live
    exact terminate used (Lowering.isOpen_of_isLive live) _
  · exact refl used place

theorem layOut (place : Place) {before behind : List BlockId}
    (splits : place.body.layout = before ++ behind) (id : BlockId) :
    place.Becomes (· = id)
      ⟨{ place.body with layout := before ++ id :: behind }, some id⟩ where
  counter := Nat.le_refl _
  blocks _ block _ found := ⟨block, found, .refl block⟩
  layout other member := by
    rw [splits] at member
    simp only [List.mem_append, List.mem_cons] at member ⊢
    exact member.imp_right .inr
  spares other unused spares := by
    have missing := spares.missing
    rw [splits] at missing
    refine ⟨fun same => unused (Option.some.inj same).symm, spares.old, ?_, spares.unused⟩
    simp only [List.mem_append, List.mem_cons, not_or] at missing ⊢
    exact ⟨missing.1, unused, missing.2⟩

theorem enter (enters : place.Enters id next) : place.Becomes (· = id) next := by
  have leaves := leaveTo (· = id) place id
  cases enters with
  | dropped => exact leaves.trans (discard _ _ _)
  | detached =>
      refine leaves.trans (moveTo _ _ ?_)
      rintro _ ⟨⟩
      exact .inl rfl
  | laidOut _ _ splits =>
      rw [← layout_leaveTo place id] at splits
      exact leaves.trans (layOut _ splits id)

end Place.Becomes

/-- The cursor stands in the block, unless the block has been dropped. -/
structure Place.Fills (place : Place) (id : BlockId) : Prop where
  old : id.number.toNat < place.body.nextBlock.toNat
  stands : place.body.block? id = none ∨ place.block = some id ∧ place.isOpen = true

theorem Place.fills_of_enters {place next : Place} {id : BlockId} (enters : place.Enters id next)
    (spares : place.Spares id) : next.Fills id := by
  have counter := (Place.Becomes.enter enters).counter
  refine ⟨Nat.lt_of_lt_of_le spares.old counter, ?_⟩
  have looks : (place.leaveTo id).body.block? id = place.body.block? id :=
    block?_leaveTo_other id spares.away
  have opens {body : Body} (same : body.block? id = place.body.block? id) :
      body.block? id = none ∨ (some id : Option BlockId) = some id ∧
        (Place.mk body (some id)).isOpen = true := by
    cases found : body.block? id with
    | none => exact .inl rfl
    | some block =>
        refine .inr ⟨rfl, ?_⟩
        rw [isOpen_of_block rfl found, (spares.unused block (same ▸ found)).2]
        rfl
  cases enters with
  | dropped =>
      refine .inl ?_
      rw [block?_discard, if_pos rfl]
  | detached => exact opens looks
  | laidOut => exact opens looks

theorem Place.holds_enter {place next : Place} {id : BlockId} {count : Nat}
    (enters : place.Enters id next) (holds : place.body.Holds [] count) :
    next.body.Holds [] count := by
  have left := Place.holds_leaveTo holds id
  have layout := Place.layout_leaveTo place id
  have waits (missing : id ∉ place.body.layout)
      (known : ((place.leaveTo id).body.block? id).isSome = true) :
      (place.leaveTo id).body.Holds [id] count :=
    { left with
      present := fun other member => by cases List.mem_singleton.mp member; exact known
      detached := fun other member => by
        cases List.mem_singleton.mp member
        rw [layout]
        exact missing
      apart := List.nodup_singleton id }
  cases enters with
  | dropped missing known => exact (waits missing known).discard
  | detached => exact left
  | laidOut missing known splits => exact (waits missing known).layOut (layout.trans splits)

theorem Place.spares_created {place : Place} {count : Nat}
    (holds : place.body.Holds [] (count + 1)) (stands : place.block ≠ some place.freshBlock)
    (label : String) : (place.create label).Spares place.freshBlock where
  away := stands
  old := Nat.lt_of_lt_of_eq (Nat.lt_succ_self _)
    (holds.toNat_nextBlock_createBlock (Nat.le_add_left 1 count) label).symm
  missing := holds.fresh_not_mem_layout
  unused block found := by
    rw [block?_create, if_pos rfl] at found
    cases found
    exact ⟨rfl, rfl⟩

theorem Place.not_spares_fresh (place : Place) : ¬ place.Spares place.freshBlock :=
  fun spares => Nat.lt_irrefl _ spares.old

/-! ## Sound places -/

/-- Blocks are numbered in order, the cursor stands in one of them, and there are numbers for
`count` more. -/
structure Place.Sound (place : Place) (count : Nat) : Prop where
  holds : place.body.Holds [] (place.owed + count)
  standing : ∀ id, place.block = some id → id.number.toNat < place.body.nextBlock.toNat

namespace Place.Sound

variable {place next : Place} {count : Nat}

theorem mono (sound : place.Sound count) {fewer : Nat} (less : fewer ≤ count) :
    place.Sound fewer :=
  ⟨sound.holds.mono (Nat.add_le_add_left less _), sound.standing⟩

theorem stay (sound : place.Sound count) {used : BlockId → Prop} (becomes : place.Becomes used next)
    (holds : next.body.Holds [] (next.owed + count))
    (stands : ∀ id, next.block = some id → place.block = some id) : next.Sound count :=
  ⟨holds, fun id here => Nat.lt_of_lt_of_le (sound.standing id (stands id here)) becomes.counter⟩

theorem create (sound : place.Sound (count + 1)) (label : String) :
    (place.create label).Sound count := by
  have holds : place.body.Holds [] (place.owed + count + 1) := sound.holds
  refine sound.mono (Nat.le_succ count) |>.stay (.create (fun _ => False) holds label) ?_
    fun _ => id
  exact (holds.create (Nat.le_add_left 1 _) label).forget.mono (by
    have owes := Place.owed_create holds label
    omega)

theorem ready (sound : place.Sound count) : place.ready.Sound count := by
  have holds := Place.holds_ready sound.holds
  have open_ := Place.owed_of_isOpen (Lowering.isOpen_ready place)
  refine ⟨by rw [open_, Nat.zero_add]; exact holds, ?_⟩
  unfold Place.ready
  split
  · exact sound.standing
  · rename_i closed
    rintro _ ⟨⟩
    have room : place.body.Holds [] (1 + count) := by
      have here := sound.holds
      rwa [Place.owed, if_neg closed] at here
    exact Nat.lt_of_lt_of_eq (Nat.lt_succ_self _)
      (room.toNat_nextBlock_createBlock (Nat.le_add_right 1 _) Cursor.unreachableLabel).symm

theorem change (sound : place.Sound count) (change : Block → Block)
    (owes : (place.change change).owed ≤ place.owed) : (place.change change).Sound count := by
  refine ⟨(Place.holds_change sound.holds change).mono (Nat.add_le_add_right owes _), ?_⟩
  intro id here
  rw [block_change] at here
  rw [nextBlock_change]
  exact sound.standing id here

theorem add (sound : place.Sound count) (isOpen : place.isOpen = true)
    (instruction : Instruction) : (place.add instruction).Sound count := by
  refine sound.change _ ?_
  rw [show (place.change fun block => block.addInstruction instruction).owed = 0 from
    Place.owed_of_isOpen (Place.isOpen_add isOpen instruction)]
  exact Nat.zero_le _

theorem define (sound : place.Sound count) (isOpen : place.isOpen = true) (ty : Ty)
    (make : Operand → Instruction) : (place.define ty make).Sound count := by
  have holds : (place.takeTemp ty).body.Holds [] (place.owed + count) :=
    sound.holds.keep rfl rfl fun _ => rfl
  have takes : (place.takeTemp ty).Sound count := by
    refine ⟨?_, sound.standing⟩
    rw [Place.owed, Cursor.isOpen_takeTemp]
    exact holds
  exact takes.add ((Cursor.isOpen_takeTemp place ty).trans isOpen) _

theorem of_holds {more : Nat} (holds : next.body.Holds [] (more + (count + 1)))
    (standing : ∀ id, next.block = some id → id.number.toNat < next.body.nextBlock.toNat) :
    next.Sound count :=
  ⟨holds.mono (by have owes := next.owed_le_one; omega), standing⟩

theorem terminate (sound : place.Sound (count + 1)) (terminator : Terminator) :
    (place.terminate terminator).Sound count := by
  refine of_holds (Place.holds_change sound.holds _) ?_
  intro id here
  rw [Place.terminate, block_change] at here
  rw [Place.terminate, nextBlock_change]
  exact sound.standing id here

theorem leaveTo (sound : place.Sound (count + 1)) (target : BlockId) :
    (place.leaveTo target).Sound count := by
  refine of_holds (Place.holds_leaveTo sound.holds target) ?_
  rintro _ ⟨⟩

theorem returnIfLive (sound : place.Sound (count + 1)) (value : Option Operand) :
    (place.returnIfLive value).Sound count := by
  unfold Place.returnIfLive
  split
  · exact sound.terminate _
  · exact sound.mono (Nat.le_succ count)

theorem pruned (sound : place.Sound (count + 1)) : place.pruned.Sound count := by
  refine of_holds sound.holds.prune fun id here => ?_
  exact sound.standing id (Option.filter_eq_some_iff.mp here).1

theorem enter (sound : place.Sound (count + 1)) {id : BlockId} (enters : place.Enters id next)
    (old : id.number.toNat < place.body.nextBlock.toNat) : next.Sound count := by
  refine of_holds (Place.holds_enter enters sound.holds) fun other here => ?_
  have becomes := (Place.Becomes.enter enters).counter
  cases enters with
  | dropped => cases here
  | detached | laidOut =>
      cases here
      exact Nat.lt_of_lt_of_le old becomes

theorem opened {body : Body} (holds : body.Holds [] (count + 2)) :
    (Place.mk body none).opened.Sound count := by
  have counter := holds.toNat_nextBlock_createBlock (Nat.le_add_left 1 _) "entry"
  have holdsOpened : (Place.mk body none).opened.body.Holds [] (count + 2 - 1) :=
    Place.holds_opened holds (Nat.le_add_left 1 _)
  refine ⟨holdsOpened.mono ?_, ?_⟩
  · have owes := (Place.mk body none).opened.owed_le_one
    omega
  · rintro _ ⟨⟩
    exact Nat.lt_of_lt_of_eq (Nat.lt_succ_self _) counter.symm

end Place.Sound

theorem Place.Becomes.opened (used : BlockId → Prop) {body : Body} {count : Nat}
    (holds : body.Holds [] (count + 1)) :
    (Place.mk body none).Becomes used (Place.mk body none).opened := by
  have creates : (Place.mk body none).Becomes used ((Place.mk body none).create "entry") :=
    .create used holds "entry"
  have lays := Place.Becomes.layOut ((Place.mk body none).create "entry")
    (List.append_nil _).symm (Place.mk body none).freshBlock
  refine ⟨Nat.le_trans creates.counter lays.counter, fun id block old found => ?_,
    fun id member => lays.layout id (creates.layout id member), fun id unused spares => ?_⟩
  · exact creates.blocks id block old found
  · refine lays.spares id ?_ (creates.spares id unused spares)
    rintro rfl
    exact Place.not_spares_fresh _ spares

end ScriptLowering.Code

namespace ScriptLowering.Lowering

open Source (Program ExprNode)
open Code (BlockId Instruction Operand Place Ty)

/-! ## Sessions -/

/-- The block of the function `name` that the cursor stands in. -/
def Session.blockIn (session : Session) (name : String) : Option BlockId :=
  if session.cursor.position.function = some name then session.cursor.position.block else none

/-- Where the session stands in the function `name`. -/
def Session.placeIn? (session : Session) (name : String) : Option Place :=
  (session.cursor.module.function? name).map fun function =>
    ⟨function.body, session.blockIn name⟩

/-- Numbers for `count` more blocks are left in every function. -/
def Session.Sound (session : Session) (count : Nat) : Prop :=
  ∀ name place, session.placeIn? name = some place → place.Sound count

/-- `next` has come out of `session`, and only the blocks in `used` have come into use. -/
def Session.Becomes (used : String → BlockId → Prop) (session next : Session) : Prop :=
  ∀ name place, session.placeIn? name = some place →
    ∃ after, next.placeIn? name = some after ∧ Place.Becomes (used name) place after

namespace Session

variable {session middle next : Session} {name other : String} {place : Place} {count : Nat}
  {used : String → BlockId → Prop}

theorem Builds.placeIn? (builds : session.Builds name place) :
    session.placeIn? name = some place := by
  rcases builds.body with ⟨function, found, same⟩
  simp [Session.placeIn?, Session.blockIn, builds.position, found, same]

theorem placeIn?_congr (position : next.cursor.position = session.cursor.position)
    (functions : next.cursor.module.functions = session.cursor.module.functions) (name : String) :
    next.placeIn? name = session.placeIn? name := by
  simp only [Session.placeIn?, Session.blockIn, Code.Module.function?, position, functions]

theorem Builds.placeIn?_put (builds : session.Builds name place) (after : Place) (other : String) :
    (session.put name after).placeIn? other =
      if name = other then some after else session.placeIn? other := by
  rcases builds.body with ⟨function, found, _⟩
  have moved : (session.put name after).cursor.position = ⟨some name, after.block⟩ := rfl
  simp only [Session.placeIn?, Session.function?_put, Session.blockIn, builds.position, moved,
    Option.some.injEq]
  split
  · rename_i same
    subst same
    simp [found]
  · rfl

theorem placeIn?_inFunction (session : Session) (name other : String) :
    Session.placeIn? { session with cursor := session.cursor.setPosition (.inFunction name) } other =
      (session.placeIn? other).map fun place => ⟨place.body, none⟩ := by
  simp only [Session.placeIn?, Session.blockIn, Code.Cursor.setPosition, Code.Position.inFunction,
    Option.map_map]
  cases session.cursor.module.function? other with
  | none => rfl
  | some function => simp

theorem Becomes.refl (used : String → BlockId → Prop) (session : Session) :
    session.Becomes used session :=
  fun _ place found => ⟨place, found, .refl _ place⟩

theorem Becomes.trans (first : session.Becomes used middle) (second : middle.Becomes used next) :
    session.Becomes used next := by
  intro name place found
  rcases first name place found with ⟨between, foundBetween, becomes⟩
  rcases second name between foundBetween with ⟨after, foundAfter, becomesOn⟩
  exact ⟨after, foundAfter, becomes.trans becomesOn⟩

theorem Becomes.mono {more : String → BlockId → Prop} (becomes : session.Becomes used next)
    (within : ∀ name id, used name id → more name id) : session.Becomes more next := by
  intro name place found
  rcases becomes name place found with ⟨after, foundAfter, becomes⟩
  exact ⟨after, foundAfter, becomes.mono (within name)⟩

theorem Becomes.same (used : String → BlockId → Prop)
    (same : ∀ name, next.placeIn? name = session.placeIn? name) : session.Becomes used next :=
  fun here place found => ⟨place, (same here).trans found, .refl _ place⟩

theorem Becomes.put (builds : session.Builds name place) {after : Place}
    (becomes : place.Becomes (used name) after) : session.Becomes used (session.put name after) := by
  intro other here found
  rw [builds.placeIn?_put]
  split
  · rename_i same
    subst same
    rw [builds.placeIn?] at found
    cases found
    exact ⟨after, rfl, becomes⟩
  · exact ⟨here, found, .refl _ here⟩

theorem Sound.mono (sound : session.Sound count) {fewer : Nat} (less : fewer ≤ count) :
    session.Sound fewer :=
  fun name place found => (sound name place found).mono less

theorem Sound.put (sound : session.Sound count) {fewer : Nat} (less : fewer ≤ count)
    (builds : session.Builds name place) {after : Place} (soundAfter : after.Sound fewer) :
    (session.put name after).Sound fewer := by
  intro other here found
  rw [builds.placeIn?_put] at found
  split at found
  · cases found
    exact soundAfter
  · exact (sound other here found).mono less

theorem Sound.same (sound : session.Sound count)
    (same : ∀ name, next.placeIn? name = session.placeIn? name) : next.Sound count :=
  fun name place found => sound name place ((same name).symm.trans found)

theorem Builds.sound (builds : session.Builds name place) (sound : session.Sound count) :
    place.Sound count :=
  sound name place builds.placeIn?

theorem Sound.refill (sound : session.Sound 0) (numbers : session.hasNumbers = true) :
    session.Sound 16 := by
  intro name place found
  have here := sound name place found
  rcases Option.map_eq_some_iff.mp found with ⟨function, known, rfl⟩
  have member := Table.mem_values_iff.mpr ⟨name, known⟩
  have small := UInt32.lt_iff_toNat_lt.mp
    (of_decide_eq_true (List.all_eq_true.mp numbers function member))
  have owes := (Place.mk function.body (session.blockIn name)).owed_le_one
  refine ⟨{ here.holds with room := ?_ }, here.standing⟩
  change function.body.nextBlock.toNat + _ < _
  have bound : (2 ^ 31 : UInt32).toNat = 2 ^ 31 := by decide
  omega

end Session

/-! ## Steps

Adding code keeps whatever each of its instructions keeps. -/

theorem Emits.keeps {program : Program} {final : Session} {node : ExprNode}
    {values : List Operand} {place next : Place} {value : Option Operand} {keeps : Place → Prop}
    (add : ∀ place instruction, keeps place → keeps (place.ready.add instruction))
    (define : ∀ place ty make, keeps place → keeps (place.ready.define ty make))
    (emits : Emits program final node values place value next) (holds : keeps place) :
    keeps next := by
  cases emits with
  | booleanLiteral | integerLiteral => exact holds
  | stringLiteral | identifier | callValue | negate | arith | compare | concat =>
      exact define _ _ _ holds
  | callNothing | assign => exact add _ _ holds
  | compareStrings _ _ compares =>
      subst compares
      exact define _ _ _ (define _ _ _ holds)

section Code

variable {place next : Place} {count : Nat} {used : BlockId → Prop}

/-- A place from which nothing but code has been added since. -/
structure Place.Extends (used : BlockId → Prop) (count : Nat) (place next : Place) : Prop where
  becomes : place.Becomes used next
  sound : next.Sound count

theorem Place.Extends.add {middle : Place} (extends_ : Place.Extends used count place middle)
    (instruction : Instruction) :
    Place.Extends used count place (middle.ready.add instruction) where
  becomes := extends_.becomes.trans
    ((Place.Becomes.ready used extends_.sound.holds).trans (.add used (isOpen_ready middle) _))
  sound := extends_.sound.ready.add (isOpen_ready middle) _

theorem Place.Extends.define {middle : Place} (extends_ : Place.Extends used count place middle)
    (ty : Ty) (make : Operand → Instruction) :
    Place.Extends used count place (middle.ready.define ty make) where
  becomes := extends_.becomes.trans
    ((Place.Becomes.ready used extends_.sound.holds).trans (.define used (isOpen_ready middle) _ _))
  sound := extends_.sound.ready.define (isOpen_ready middle) _ _

theorem Place.Extends.refl (used : BlockId → Prop) (sound : place.Sound count) :
    Place.Extends used count place place :=
  ⟨.refl used place, sound⟩

theorem Place.Extends.storeInitial {program : Program} (decl : Source.VarDecl)
    (global : Operand) (value : Option Operand) (sound : place.Sound count) :
    Place.Extends used count place (storeInitial program decl global value place) := by
  unfold Lowering.storeInitial
  split
  · split
    · exact (Extends.refl used sound).add _
    · exact .refl used sound
  · exact .refl used sound

theorem Place.Extends.fillSlot (ty : Source.Ty) (value : Option Operand)
    (sound : place.Sound count) : Place.Extends used count place (fillSlot ty value place) := by
  have slotted := (Extends.refl used sound).define .ptr fun result =>
    .alloca result (codeType ty) (alignment ty)
  cases value with
  | none => exact slotted
  | some value => exact slotted.add _

end Code

/-- The block comes into use: it is entered, or the cursor goes back to it. -/
def Task.Uses (task : Task) (before : Session) (name : String) (block : BlockId) : Prop :=
  match task with
  | .enter _ entered _ => before.cursor.position.function = some name ∧ entered = block
  | .resume position => position = ⟨some name, some block⟩
  | _ => False

def Session.Spares (session : Session) (name : String) (block : BlockId) : Prop :=
  ∃ place, session.placeIn? name = some place ∧ place.Spares block

/-- The step brings only the blocks in `used` into use, and leaves the session sound. -/
structure Session.Follows (used : String → BlockId → Prop) (before after : Session) : Prop where
  becomes : before.Becomes used after
  sound : after.Sound 0

namespace Session.Follows

variable {before middle after : Session} {used : String → BlockId → Prop} {name : String}

theorem put {place next : Place} (builds : before.Builds name place) (sound : before.Sound 16)
    {count : Nat} (less : count ≤ 16) (extends_ : Place.Extends (used name) count place next) :
    before.Follows used (before.put name next) where
  becomes := .put builds extends_.becomes
  sound := (sound.put less builds extends_.sound).mono (Nat.zero_le _)

theorem learn (follows : before.Follows used middle)
    (position : after.cursor.position = middle.cursor.position)
    (functions : after.cursor.module.functions = middle.cursor.module.functions) :
    before.Follows used after where
  becomes := follows.becomes.trans (.same used (Session.placeIn?_congr position functions))
  sound := follows.sound.same (Session.placeIn?_congr position functions)

theorem refl (sound : before.Sound 16) : before.Follows used before :=
  ⟨.refl used before, sound.mono (Nat.zero_le _)⟩

theorem start {function : Code.Function} (sound : before.Sound 16)
    (found : before.cursor.module.function? name = some function) :
    before.Follows used (before.put name (Place.mk function.body none).opened) := by
  let moved : Session :=
    { before with cursor := before.cursor.setPosition (.inFunction name) }
  have looks (other : String) := Session.placeIn?_inFunction before name other
  have leaves : before.Becomes used moved := by
    intro other place known
    refine ⟨⟨place.body, none⟩, by rw [looks, known]; rfl, .moveTo _ _ ?_⟩
    rintro _ ⟨⟩
  have soundMoved : moved.Sound 15 := by
    intro other place known
    rw [looks] at known
    rcases Option.map_eq_some_iff.mp known with ⟨here, isHere, rfl⟩
    refine .of_holds (sound other here isHere).holds ?_
    rintro _ ⟨⟩
  have builds : moved.Builds name ⟨function.body, none⟩ := ⟨rfl, function, found, rfl⟩
  have holds : function.body.Holds [] 2 := by
    have here := (builds.sound soundMoved).holds
    exact here.mono (by omega)
  have opens : moved.Follows used (moved.put name (Place.mk function.body none).opened) :=
    { becomes := .put builds (.opened _ holds)
      sound := soundMoved.put (Nat.zero_le _) builds (.opened holds) }
  exact ⟨leaves.trans opens.becomes, opens.sound⟩

end Session.Follows

section Performs

variable {program : Program} {task : Task} {name : String} {before after : Session}

theorem Session.Emits.follows {node : ExprNode} {value : Option Operand}
    {used : String → BlockId → Prop} (emits : before.Emits program node name value after)
    (sound : before.Sound 16) : before.Follows used after := by
  cases emits with
  | @intro place next values builds _ emits same =>
      have extends_ : Place.Extends (used name) 16 place next :=
        Emits.keeps (fun _ instruction extends_ => extends_.add instruction)
          (fun _ ty make extends_ => extends_.define ty make) emits
          (.refl _ (builds.sound sound))
      have puts : before.Follows used (before.put name next) := .put builds sound (Nat.le_refl _) extends_
      rw [same]
      cases node with
      | stringLiteral text => exact puts.learn rfl rfl
      | _ => exact puts

/-- What a step leaves as it is. Only going back to another function moves the cursor to a place
that the step itself knows nothing of. -/
theorem Task.Performs.follows (performs : task.Performs program name before after)
    (sound : before.Sound 16)
    (prepared : ∀ id block closing, task = .enter id block closing → before.Spares name block)
    (stays : ∀ position, task ≠ .resume position) :
    before.Follows (task.Uses before) after := by
  cases performs with
  | start found => exact .start sound found
  | param _ builds _ =>
      exact (Session.Follows.put builds sound (Nat.le_refl _)
        (.fillSlot _ _ (builds.sound sound))).learn rfl rfl
  | expr _ emits records =>
      have same := (recordValue_eq_ok records).1
      exact (emits.follows sound).learn (by rw [same]) (by rw [same])
  | global _ _ _ _ _ builds _ =>
      exact (Session.Follows.put builds sound (Nat.le_refl _)
        (.storeInitial _ _ _ (builds.sound sound))).learn rfl rfl
  | slot _ _ _ _ builds _ =>
      exact (Session.Follows.put builds sound (Nat.le_refl _)
        (.fillSlot _ _ (builds.sound sound))).learn rfl rfl
  | create builds =>
      have here := builds.sound sound
      exact .put builds sound (by decide : 15 ≤ 16) ⟨.create _ here.holds _, here.create _⟩
  | loop | come => exact (Session.Follows.refl sound).learn rfl rfl
  | test builds | jump builds _ =>
      have ready := (builds.sound sound).ready
      exact .put builds sound (by decide : 15 ≤ 16)
        ⟨(Place.Becomes.ready _ (builds.sound sound).holds).trans
          (.terminate _ (isOpen_ready _) _), ready.terminate _⟩
  | enter builds enters =>
      have entered := Place.enters_of_tryEnter enters
      rcases prepared _ _ _ rfl with ⟨place, found, spares⟩
      rw [builds.placeIn?] at found
      cases found
      refine .put builds sound (by decide : 15 ≤ 16)
        ⟨(Place.Becomes.enter entered).mono ?_, (builds.sound sound).enter entered spares.old⟩
      rintro _ rfl
      exact ⟨by rw [builds.position], rfl⟩
  | leave builds =>
      exact .put builds sound (by decide : 15 ≤ 16)
        ⟨.leaveTo _ _ _, (builds.sound sound).leaveTo _⟩
  | returnIfLive builds =>
      exact .put builds sound (by decide : 15 ≤ 16)
        ⟨.returnIfLive _ _ _, (builds.sound sound).returnIfLive _⟩
  | finish builds =>
      exact .put builds sound (by decide : 15 ≤ 16)
        ⟨.pruned _ _, (builds.sound sound).pruned⟩
  | resume => exact absurd rfl (stays _)

theorem Session.becomes_resume (session : Session) (position : Code.Position) :
    session.Becomes (Task.Uses (.resume position) session)
      { session with cursor := session.cursor.setPosition position } := by
  intro name place found
  rcases Option.map_eq_some_iff.mp found with ⟨function, known, rfl⟩
  refine ⟨⟨function.body, if position.function = some name then position.block else none⟩, ?_, ?_⟩
  · exact Option.map_eq_some_iff.mpr ⟨function, known, rfl⟩
  · refine .moveTo _ ⟨function.body, session.blockIn name⟩ fun id stands => .inl ?_
    split at stands
    · rename_i inside
      exact congrArg₂ Code.Position.mk inside stands
    · cases stands

end Performs

end ScriptLowering.Lowering
