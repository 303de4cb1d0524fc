import ScriptLowering.Proofs.BuildingSteps
import ScriptLowering.Proofs.FunctionStructure

/-! # Sessions that can go on

Little is needed for building to go on: the function at hand exists, its layout names blocks
that it has, its next number is free, and the blocks that statements have created and not yet
entered are there and not laid out. This holds of every function that lowering comes to, also
if it comes to the function for the second time.
-/

namespace ScriptLowering.Code

/-- The body can be added to, `count` more blocks fit in, and the blocks in `waits` are
detached. -/
structure Body.Holds (body : Body) (waits : List BlockId) (count : Nat) : Prop where
  known : ∀ id ∈ body.layout, ∃ block, body.block? id = some block
  numbered : ∀ id block, body.block? id = some block →
    id.number.toNat < body.nextBlock.toNat
  room : body.nextBlock.toNat + count < 2 ^ 32
  present : ∀ id ∈ waits, (body.block? id).isSome = true
  detached : ∀ id ∈ waits, id ∉ body.layout
  apart : waits.Nodup

namespace Body.Holds

variable {body : Body} {waits : List BlockId} {count : Nat}

theorem mono (holds : body.Holds waits count) {fewer : Nat} (less : fewer ≤ count) :
    body.Holds waits fewer :=
  { holds with room := by have := holds.room; omega }

theorem forget (holds : body.Holds waits count) : body.Holds [] count :=
  { holds with
    present := fun _ member => by cases member
    detached := fun _ member => by cases member
    apart := List.nodup_nil }

theorem tail {id : BlockId} (holds : body.Holds (id :: waits) count) : body.Holds waits count :=
  { holds with
    present := fun other member => holds.present other (by simp [member])
    detached := fun other member => holds.detached other (by simp [member])
    apart := (List.nodup_cons.mp holds.apart).2 }

theorem perm {others : List BlockId} (holds : body.Holds waits count)
    (same : waits.Perm others) : body.Holds others count :=
  { holds with
    present := fun id member => holds.present id (same.mem_iff.mpr member)
    detached := fun id member => holds.detached id (same.mem_iff.mpr member)
    apart := same.nodup_iff.mp holds.apart }

theorem empty (enough : count < 2 ^ 32) : Body.empty.Holds [] count := by
  have zero : Body.empty.nextBlock.toNat = 0 := rfl
  refine ⟨?_, ?_, by omega, ?_, ?_, List.nodup_nil⟩
  all_goals simp [Body.empty, Body.block?]

theorem fresh (holds : body.Holds waits count) : body.block? ⟨body.nextBlock⟩ = none := by
  cases found : body.block? ⟨body.nextBlock⟩ with
  | none => rfl
  | some block => exact absurd (holds.numbered _ block found) (Nat.lt_irrefl _)

theorem fresh_not_mem_layout (holds : body.Holds waits count) : ⟨body.nextBlock⟩ ∉ body.layout := by
  intro member
  rcases holds.known _ member with ⟨block, found⟩
  rw [holds.fresh] at found
  cases found

theorem fresh_not_mem_waits (holds : body.Holds waits count) : ⟨body.nextBlock⟩ ∉ waits := by
  intro member
  have present := holds.present _ member
  rw [holds.fresh] at present
  cases present

theorem toNat_nextBlock_createBlock (holds : body.Holds waits count) (enough : 1 ≤ count)
    (label : String) :
    (body.createBlock label).2.nextBlock.toNat = body.nextBlock.toNat + 1 := by
  have room := holds.room
  change (body.nextBlock + 1).toNat = _
  rw [UInt32.toNat_add]
  simp only [UInt32.toNat_one]
  omega

theorem create (holds : body.Holds waits count) (enough : 1 ≤ count) (label : String) :
    (body.createBlock label).2.Holds (⟨body.nextBlock⟩ :: waits) (count - 1) := by
  have looks := body.block?_createBlock label
  have room := holds.room
  have counter := holds.toNat_nextBlock_createBlock enough label
  have old : ∀ id, (body.block? id).isSome = true → ⟨body.nextBlock⟩ ≠ id := by
    rintro id isSome rfl
    simp [holds.fresh] at isSome
  refine ⟨?_, ?_, by omega, ?_, ?_, List.nodup_cons.mpr ⟨holds.fresh_not_mem_waits, holds.apart⟩⟩
  · intro id member
    rcases holds.known id member with ⟨block, found⟩
    exact ⟨block, by rw [looks, if_neg (old id (by simp [found]))]; exact found⟩
  · intro id block found
    rw [counter]
    rw [looks] at found
    split at found
    · rename_i same
      subst same
      exact Nat.lt_succ_self _
    · exact Nat.lt_succ_of_lt (holds.numbered id block found)
  · intro id member
    rw [looks]
    rcases List.mem_cons.mp member with rfl | waiting
    · simp
    · rw [if_neg (old id (holds.present id waiting))]
      exact holds.present id waiting
  · intro id member laidOut
    rcases List.mem_cons.mp member with rfl | waiting
    · exact holds.fresh_not_mem_layout laidOut
    · exact holds.detached id waiting laidOut

theorem keep (holds : body.Holds waits count) {next : Body} (layout : next.layout = body.layout)
    (counter : next.nextBlock = body.nextBlock)
    (blocks : ∀ id, (next.block? id).isSome = (body.block? id).isSome) :
    next.Holds waits count := by
  refine ⟨?_, ?_, counter ▸ holds.room, ?_, ?_, holds.apart⟩
  · intro id member
    rw [layout] at member
    rcases holds.known id member with ⟨block, found⟩
    exact Option.isSome_iff_exists.mp (by rw [blocks, found]; rfl)
  · intro id block found
    obtain ⟨old, foundOld⟩ : ∃ old, body.block? id = some old :=
      Option.isSome_iff_exists.mp (by rw [← blocks, found]; rfl)
    rw [counter]
    exact holds.numbered id old foundOld
  · exact fun id member => (blocks id).trans (holds.present id member)
  · exact fun id member => layout ▸ holds.detached id member

theorem modify (holds : body.Holds waits count) (id : BlockId) (change : Block → Block) :
    (body.modifyBlock id change).Holds waits count := by
  refine holds.keep rfl rfl fun other => ?_
  rw [Body.block?_modifyBlock]
  split <;> simp

theorem layOut {id : BlockId} (holds : body.Holds (id :: waits) count)
    {before behind : List BlockId} (layout : body.layout = before ++ behind) :
    Body.Holds { body with layout := before ++ id :: behind } waits count := by
  have perm : (before ++ id :: behind).Perm (id :: body.layout) := by
    rw [layout]
    exact List.perm_middle
  have apart := List.nodup_cons.mp holds.apart
  refine ⟨?_, holds.numbered, holds.room, holds.tail.present, ?_, apart.2⟩
  · intro other member
    rcases List.mem_cons.mp (perm.mem_iff.mp member) with rfl | old
    · exact Option.isSome_iff_exists.mp (holds.present other (by simp))
    · exact holds.known other old
  · intro other member laidOut
    rcases List.mem_cons.mp (perm.mem_iff.mp laidOut) with rfl | old
    · exact apart.1 member
    · exact holds.detached other (by simp [member]) old

theorem discard {id : BlockId} (holds : body.Holds (id :: waits) count) :
    Body.Holds { body with blocks := body.blocks.erase id } waits count := by
  have looks := body.block?_erase id
  have apart := List.nodup_cons.mp holds.apart
  refine ⟨?_, ?_, holds.room, ?_, holds.tail.detached, apart.2⟩
  · intro other member
    have different : other ≠ id := fun same => holds.detached id (by simp) (same ▸ member)
    rw [looks, if_neg different]
    exact holds.known other member
  · intro other block found
    rw [looks] at found
    split at found
    · cases found
    · exact holds.numbered other block found
  · intro other member
    have different : other ≠ id := fun same => apart.1 (same ▸ member)
    rw [looks, if_neg different]
    exact holds.present other (by simp [member])

theorem prune (holds : body.Holds waits count) : body.prune.Holds [] count := by
  refine ⟨?_, ?_, holds.room, ?_, holds.forget.detached, List.nodup_nil⟩
  · intro id member
    have laidOut : id ∈ body.layout := member
    rw [Place.block?_prune_of_mem laidOut]
    exact holds.known id member
  · exact fun id block found => holds.numbered id block (Place.block?_of_prune found).2
  · intro id member
    cases member

end Body.Holds

namespace Place

variable {place : Place} {waits : List BlockId} {count : Nat}

/-- The blocks that have to be created before code can be added. -/
def owed (place : Place) : Nat := if place.isOpen then 0 else 1

theorem owed_le_one (place : Place) : place.owed ≤ 1 := by
  unfold owed
  split <;> omega

theorem owed_of_isOpen (isOpen : place.isOpen = true) : place.owed = 0 := if_pos isOpen

theorem isOpen_add (isOpen : place.isOpen = true) (instruction : Instruction) :
    (place.add instruction).isOpen = true := by
  rcases exists_of_isOpen isOpen with ⟨id, block, stands, found, unfinished⟩
  have after : (place.add instruction).body.block? id =
      some (block.addInstruction instruction) := by
    rw [Place.add, block?_change stands, if_pos rfl, found]
    rfl
  have standsAfter : (place.add instruction).block = some id := (block_change place _).trans stands
  rw [isOpen_of_block standsAfter after]
  exact congrArg (! ·) unfinished

theorem isOpen_define (isOpen : place.isOpen = true) (ty : Ty) (make : Operand → Instruction) :
    (place.define ty make).isOpen = true := by
  have taken : (place.takeTemp ty).isOpen = true := isOpen
  exact isOpen_add taken _

theorem owed_create (holds : place.body.Holds waits count) (label : String) :
    (place.create label).owed ≤ place.owed := by
  cases isOpen : place.isOpen with
  | false =>
      rw [owed, owed, isOpen, if_neg Bool.false_ne_true]
      split <;> omega
  | true =>
      rcases exists_of_isOpen isOpen with ⟨id, block, stands, found, unfinished⟩
      have old : place.freshBlock ≠ id := by
        rintro rfl
        rw [freshBlock, holds.fresh] at found
        cases found
      have after : (place.create label).body.block? id = some block := by
        rw [block?_create, if_neg old]
        exact found
      have isOpenAfter : (place.create label).isOpen = true := by
        have standsAfter : (place.create label).block = some id := stands
        rw [isOpen_of_block standsAfter after, unfinished]
        rfl
      rw [owed_of_isOpen isOpenAfter]
      exact Nat.zero_le _

theorem holds_change (holds : place.body.Holds waits count) (change : Block → Block) :
    (place.change change).body.Holds waits count := by
  unfold Place.change
  split
  · exact holds.modify _ change
  · exact holds

theorem holds_ready (holds : place.body.Holds waits (place.owed + count)) :
    place.ready.body.Holds waits count := by
  unfold Place.ready
  split
  · exact holds.mono (Nat.le_add_left _ _)
  · rename_i closed
    rw [owed, if_neg closed] at holds
    exact ((holds.create (Nat.le_add_right _ _) _).tail).mono (by omega)

theorem holds_define (holds : place.body.Holds waits count) (ty : Ty)
    (make : Operand → Instruction) : (place.define ty make).body.Holds waits count := by
  have taken : (place.takeTemp ty).body.Holds waits count := holds.keep rfl rfl fun _ => rfl
  exact holds_change taken _

theorem holds_leaveTo (holds : place.body.Holds waits count) (target : BlockId) :
    (place.leaveTo target).body.Holds waits count := by
  unfold Place.leaveTo
  split
  · exact holds_change holds _
  · exact holds

theorem holds_returnIfLive (holds : place.body.Holds waits count) (value : Option Operand) :
    (place.returnIfLive value).body.Holds waits count := by
  unfold Place.returnIfLive
  split
  · exact holds_change holds _
  · exact holds

theorem holds_opened (holds : place.body.Holds waits count) (enough : 1 ≤ count) :
    place.opened.body.Holds waits (count - 1) :=
  (holds.create enough "entry").layOut (List.append_nil _).symm

end Place

theorem Cursor.Builds.insertBlockAfter_laidOut {cursor : Cursor} {name : String} {place : Place}
    (builds : cursor.Builds name place) {id after : BlockId}
    (known : (place.body.block? id).isSome = true) (detached : place.body.isLaidOut id = false)
    (laidOut : after ∈ place.body.layout) :
    ∃ before behind, place.body.layout = before ++ behind ∧
      cursor.insertBlockAfter id after = .ok (cursor.put name
        ⟨{ place.body with layout := before ++ id :: behind }, place.block⟩) := by
  obtain ⟨index, position⟩ : ∃ index, place.body.position? after = some index := by
    rw [← Option.isSome_iff_exists, Body.position?, List.isSome_idxOf?]
    exact laidOut
  rcases List.idxOf?_eq_some_iff.mp position with ⟨bound, _⟩
  rcases List.exists_of_modifyTailIdx (List.cons id) bound with ⟨before, behind, splits, _, inserts⟩
  refine ⟨before, behind, splits, ?_⟩
  simp only [Cursor.insertBlockAfter, builds.currentName, builds.currentBody, bind, Except.bind,
    pure, Except.pure, Builds.checkDetached known detached, position, builds.setBody,
    List.insertIdx, inserts]

end ScriptLowering.Code

namespace ScriptLowering.Lowering

open Source (Program StmtId FuncId FunctionDecl)
open Code (BlockId Block Body Cursor Instruction Operand Place Terminator Ty)

/-- A failure that does not come from a refused building step. -/
def Error.IsUnrefused (error : Error) : Prop := ∀ refusal, error ≠ .build refusal

/-- Lowering stands in the function `name` and can go on: there is room for `count` more blocks
besides one to stand in, and the blocks in `waits` wait to be entered. No functions but `name`
and those in `touched` have changed since `first`. -/
structure Session.Working (program : Program) (first : Session) (touched : String → Prop)
    (name : String) (waits : List BlockId) (count : Nat) (session : Session) : Prop where
  place : ∃ place, session.Builds name place ∧ place.body.Holds waits (place.owed + count)
  bodies : ∀ other function, session.cursor.module.function? other = some function →
    function.body.Holds [] count
  declared : ∀ id decl, program.function? id = some decl →
    ∃ function, session.cursor.module.function? decl.name = some function
  others : ∀ other, other ≠ name → ¬ touched other →
    session.cursor.module.function? other = first.cursor.module.function? other

namespace Session.Working

variable {program : Program} {first session next : Session} {touched : String → Prop}
  {name : String} {waits : List BlockId} {count : Nat}

theorem mono (working : Working program first touched name waits count session) {fewer : Nat}
    (less : fewer ≤ count) : Working program first touched name waits fewer session :=
  { working with
    place := by
      rcases working.place with ⟨place, builds, holds⟩
      exact ⟨place, builds, holds.mono (by omega)⟩
    bodies := fun other function found => (working.bodies other function found).mono less }

theorem restart (working : Working program first touched name waits count session)
    (within : String → Prop) : Working program session within name waits count session :=
  { working with others := fun _ _ _ => rfl }

theorem trans (early : Working program first touched name waits count session)
    {within : String → Prop} {later : List BlockId} {more : Nat}
    (late : Working program session within name later more next)
    (covers : ∀ other, within other → touched other) :
    Working program first touched name later more next :=
  { late with
    others := fun other different untouched =>
      (late.others other different fun inside => untouched (covers other inside)).trans
        (early.others other different untouched) }

theorem put (working : Working program first touched name waits count session) {after : Place}
    {later : List BlockId} {fewer : Nat}
    (holds : after.body.Holds later (after.owed + fewer)) (less : fewer ≤ count) :
    Working program first touched name later fewer (session.put name after) := by
  rcases working.place with ⟨place, builds, _⟩
  refine ⟨⟨after, builds.put after, holds⟩, ?_, ?_, ?_⟩
  · intro other function found
    rw [Session.function?_put] at found
    split at found
    · rcases Option.map_eq_some_iff.mp found with ⟨old, _, rfl⟩
      exact holds.forget.mono (Nat.le_add_left _ _)
    · exact (working.bodies other function found).mono less
  · intro id decl known
    rcases working.declared id decl known with ⟨function, found⟩
    rw [Session.function?_put, found]
    split <;> exact ⟨_, rfl⟩
  · intro other different absent
    rw [Session.function?_put, if_neg fun same => different same.symm]
    exact working.others other different absent

theorem spend (working : Working program first touched name waits count session) {after : Place}
    {later : List BlockId} (holds : after.body.Holds later count) (enough : 1 ≤ count) :
    Working program first touched name later (count - 1) (session.put name after) := by
  have owes := after.owed_le_one
  exact working.put (holds.mono (by omega)) (Nat.sub_le _ _)

theorem learn (working : Working program first touched name waits count session)
    (position : next.cursor.position = session.cursor.position)
    (functions : next.cursor.module.functions = session.cursor.module.functions) :
    Working program first touched name waits count next := by
  have looks : ∀ other, next.cursor.module.function? other =
      session.cursor.module.function? other := by
    intro other
    simp only [Code.Module.function?, functions]
  rcases working.place with ⟨place, ⟨stands, function, found, same⟩, holds⟩
  exact {
    place := ⟨place, ⟨position.trans stands, function, (looks name).trans found, same⟩, holds⟩
    bodies := fun other function found =>
      working.bodies other function ((looks other).symm.trans found)
    declared := by
      intro id decl known
      rcases working.declared id decl known with ⟨function, found⟩
      exact ⟨function, (looks decl.name).trans found⟩
    others := fun other different absent =>
      (looks other).trans (working.others other different absent) }

theorem swap {one two : BlockId}
    (working : Working program first touched name (one :: two :: waits) count session) :
    Working program first touched name (two :: one :: waits) count session :=
  { working with
    place := by
      rcases working.place with ⟨place, builds, holds⟩
      exact ⟨place, builds, holds.perm (.swap two one waits)⟩ }

theorem third {one two three : BlockId}
    (working : Working program first touched name (one :: two :: three :: waits) count session) :
    Working program first touched name (three :: one :: two :: waits) count session :=
  { working with
    place := by
      rcases working.place with ⟨place, builds, holds⟩
      exact ⟨place, builds, holds.perm
        ((List.Perm.swap three two waits).cons one |>.trans (.swap three one _))⟩ }

end Session.Working

/-! ## Entering a block -/

section Entering

variable {session : Session} {name : String} {place : Place} {waits : List BlockId}
  {count : Nat} {errors : Error → Prop}

theorem ensures_layOut (builds : session.Builds name place) {id : BlockId}
    (holds : place.body.Holds (id :: waits) count) (previous : Option BlockId) :
    (layOut id previous).Ensures session
      (fun _ next => ∃ after, next = session.put name after ∧ after.body.Holds waits count)
      errors := by
  have known := holds.present id (by simp)
  have detached : place.body.isLaidOut id = false := by
    simpa [Body.isLaidOut] using holds.detached id (by simp)
  have appends : (Lower.build fun cursor => cursor.appendBlock id).Ensures session
      (fun _ next => ∃ after, next = session.put name after ∧ after.body.Holds waits count)
      errors := by
    have runs : Lower.build (fun cursor => cursor.appendBlock id) session =
        .ok ((), session.put name ⟨(place.layOut id).body, place.block⟩) := by
      simp only [Lower.build, Cursor.Builds.appendBlock builds known detached]
      rfl
    exact .of_ok runs ⟨_, rfl, holds.layOut (List.append_nil _).symm⟩
  have looks : Lower.cursor session = .ok (session.cursor, session) := rfl
  unfold layOut
  refine .bind_ok looks ?_
  cases previous with
  | none => exact appends
  | some after =>
      simp only [Cursor.Builds.isLaidOut builds]
      cases laidOut : place.body.isLaidOut after with
      | false => exact appends
      | true =>
          obtain ⟨before, behind, splits, inserts⟩ :=
            Cursor.Builds.insertBlockAfter_laidOut builds known detached
              (Body.isLaidOut_iff.mp laidOut)
          have runs : Lower.build (fun cursor => cursor.insertBlockAfter id after) session =
              .ok ((), session.put name
                ⟨{ place.body with layout := before ++ id :: behind }, place.block⟩) := by
            simp only [Lower.build, inserts]
            rfl
          exact .of_ok runs ⟨_, rfl, holds.layOut splits⟩

theorem ensures_enter (builds : session.Builds name place) {id : BlockId}
    (holds : place.body.Holds (id :: waits) count) (closing : Bool) :
    (enter id closing).Ensures session
      (fun _ next => ∃ after, next = session.put name after ∧ after.body.Holds waits count)
      errors := by
  have looks : Lower.cursor session = .ok (session.cursor, session) := rfl
  have left := builds.put (place.leaveTo id)
  have holdsLeft := Place.holds_leaveTo holds id
  have asksName : Lower.ask Cursor.currentName (session.put name (place.leaveTo id)) =
      .ok (name, session.put name (place.leaveTo id)) := by
    simp only [Lower.ask, Cursor.Builds.currentName left]
  have asksCount : Lower.ask (fun cursor => cursor.predecessorCount id)
      (session.put name (place.leaveTo id)) =
      .ok ((place.leaveTo id).body.predecessorCount id, session.put name (place.leaveTo id)) := by
    simp only [Lower.ask, Cursor.predecessorCount, Cursor.Builds.currentBody left]
    rfl
  unfold enter
  refine .bind_ok looks (.bind_ok (leaveTo_eq builds id) (.bind_ok asksName
    (.bind_ok asksCount ?_)))
  by_cases unreached : (place.leaveTo id).body.predecessorCount id = 0
  · rw [if_pos unreached]
    cases closing with
    | true =>
        have known := holdsLeft.present id (by simp)
        have detached : (place.leaveTo id).body.isLaidOut id = false := by
          simpa [Body.isLaidOut] using holdsLeft.detached id (by simp)
        have runs : Lower.build (fun cursor => cursor.discardBlock id)
            (session.put name (place.leaveTo id)) =
            .ok ((), session.put name ((place.leaveTo id).discard id)) := by
          simp only [Lower.build, Cursor.Builds.discardBlock left known detached rfl]
          simp [Session.put, Cursor.put_put]
        exact .of_ok runs ⟨_, rfl, holdsLeft.discard⟩
    | false =>
        refine .of_ok rfl ⟨⟨(place.leaveTo id).body, some id⟩, ?_, holdsLeft.tail⟩
        rfl
  · rw [if_neg unreached]
    refine (ensures_layOut left holdsLeft _).bind ?_
    rintro _ next ⟨after, rfl, holdsAfter⟩
    refine .of_ok rfl ⟨⟨after.body, some id⟩, ?_, holdsAfter⟩
    rw [Session.put_put]
    rfl

theorem ensures_openFunction {function : Code.Function}
    (found : session.cursor.module.function? name = some function)
    (holds : function.body.Holds [] count) (enough : 1 ≤ count) :
    (openFunction name).Ensures session
      (fun _ next => next = session.put name (Place.mk function.body none).opened) errors := by
  have standing : (session.cursor.setPosition (.inFunction name)).Builds name
      ⟨function.body, none⟩ := ⟨rfl, function, found, rfl⟩
  have moves : Lower.moveCursor (fun cursor => cursor.setPosition (.inFunction name)) session =
      .ok ((), session.put name ⟨function.body, none⟩) := by
    have same : session.cursor.setPosition (.inFunction name) =
        session.cursor.put name ⟨function.body, none⟩ := standing.put_self.symm
    simp only [Lower.moveCursor, same]
    rfl
  have builds : (session.put name ⟨function.body, none⟩).Builds name ⟨function.body, none⟩ :=
    ⟨rfl, { function with body := function.body },
      by simp [Session.function?_put, found], rfl⟩
  have created := builds.put ((Place.mk function.body none).create "entry")
  have holdsCreated := holds.create enough "entry"
  have appends : Lower.build (fun cursor => cursor.appendBlock ⟨function.body.nextBlock⟩)
      ((session.put name ⟨function.body, none⟩).put name
        ((Place.mk function.body none).create "entry")) =
        .ok ((), session.put name ⟨((Place.mk function.body none).opened).body, none⟩) := by
    have known := holdsCreated.present ⟨function.body.nextBlock⟩ (by simp)
    have detached : (function.body.createBlock "entry").2.isLaidOut ⟨function.body.nextBlock⟩ =
        false := by
      simpa [Body.isLaidOut] using holdsCreated.detached ⟨function.body.nextBlock⟩ (by simp)
    simp only [Lower.build, Cursor.Builds.appendBlock created known detached]
    simp only [Session.put, Cursor.put_put]
    rfl
  unfold openFunction
  exact .bind_ok moves (.bind_ok (createBlock_eq builds "entry")
    (.bind_ok appends (.of_ok rfl rfl)))

end Entering

/-! ## Going on

Each rule says how a building step goes on. Adding code keeps the open block open and uses up
no room. -/

namespace Session.Working

variable {program : Program} {first session : Session} {touched : String → Prop}
  {name : String} {waits : List BlockId} {count : Nat} {β : Type}
  {post : β → Session → Prop} {errors : Error → Prop}

theorem thenCreate {rest : BlockId → Lower β} {label : String}
    (working : Working program first touched name waits count session) (enough : 1 ≤ count)
    (continues : ∀ id next, Working program first touched name (id :: waits) (count - 1) next →
      (rest id).Ensures next post errors) :
    (createBlock label >>= rest).Ensures session post errors := by
  rcases working.place with ⟨place, builds, holds⟩
  have owes := Place.owed_create holds label
  have created := holds.create (by omega) label
  exact .bind_ok (createBlock_eq builds label) (continues _ _
    (working.put (created.mono (by omega)) (Nat.sub_le _ _)))

theorem thenTerminate {rest : Unit → Lower β} {terminator : Terminator}
    (working : Working program first touched name waits count session) (enough : 1 ≤ count)
    (continues : ∀ next, Working program first touched name waits (count - 1) next →
      (rest ()).Ensures next post errors) :
    (Lower.append (fun cursor => cursor.terminate terminator) >>= rest).Ensures session post
      errors := by
  rcases working.place with ⟨place, builds, holds⟩
  exact .bind_ok (append_terminate_eq builds terminator) (continues _ (working.spend
    (Place.holds_change (Place.holds_ready holds) _) enough))

theorem adds (working : Working program first touched name waits count session)
    {place : Place} (holds : place.body.Holds waits (place.owed + count))
    (instruction : Instruction) :
    Working program first touched name waits count
      (session.put name (place.ready.add instruction)) := by
  have isOpen := Place.isOpen_add (isOpen_ready place) instruction
  refine working.put ?_ (Nat.le_refl _)
  rw [Place.owed_of_isOpen isOpen, Nat.zero_add]
  exact Place.holds_change (Place.holds_ready holds) _

theorem defines (working : Working program first touched name waits count session)
    {place : Place} (holds : place.body.Holds waits (place.owed + count)) (ty : Ty)
    (make : Operand → Instruction) :
    Working program first touched name waits count
      (session.put name (place.ready.define ty make)) := by
  have isOpen := Place.isOpen_define (isOpen_ready place) ty make
  refine working.put ?_ (Nat.le_refl _)
  rw [Place.owed_of_isOpen isOpen, Nat.zero_add]
  exact Place.holds_define (Place.holds_ready holds) ty make

theorem thenLeaveTo {rest : Unit → Lower β} {target : BlockId}
    (working : Working program first touched name waits count session) (enough : 1 ≤ count)
    (continues : ∀ next, Working program first touched name waits (count - 1) next →
      (rest ()).Ensures next post errors) :
    (leaveTo target >>= rest).Ensures session post errors := by
  rcases working.place with ⟨place, builds, holds⟩
  exact .bind_ok (leaveTo_eq builds target) (continues _ (working.spend
    (Place.holds_leaveTo (holds.mono (Nat.le_add_left _ _)) target) enough))

theorem thenEnter {rest : Unit → Lower β} {id : BlockId} {closing : Bool}
    (working : Working program first touched name (id :: waits) count session)
    (enough : 1 ≤ count)
    (continues : ∀ next, Working program first touched name waits (count - 1) next →
      (rest ()).Ensures next post errors) :
    (enter id closing >>= rest).Ensures session post errors := by
  rcases working.place with ⟨place, builds, holds⟩
  refine (ensures_enter builds (holds.mono (Nat.le_add_left _ _)) closing).bind ?_
  rintro _ next ⟨after, rfl, holdsAfter⟩
  exact continues _ (working.spend holdsAfter enough)

end Session.Working

end ScriptLowering.Lowering
