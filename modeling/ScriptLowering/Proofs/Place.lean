import ScriptLowering.Lowering.Statement
import ScriptLowering.Proofs.EnsuredOutcomes
import ScriptLowering.Proofs.Table

/-! # Building in one function

Nearly every step of building looks at and changes the body of one function and the block in
it that the cursor stands in. A place is these two. The steps are restated as operations on
places, which cannot fail, and each step is shown to be its operation.
-/

namespace ScriptLowering.Code

/-- The body of a function under construction and the block that is being filled. -/
structure Place where
  body : Body
  block : Option BlockId

namespace Place

/-- The block that is being filled. -/
def current? (place : Place) : Option Block := place.block.bind place.body.block?

/-- There is a block that accepts instructions. -/
def isOpen (place : Place) : Bool :=
  match place.current? with
  | some block => !block.isTerminated
  | none => false

def isLive (place : Place) : Bool :=
  match place.block with
  | some id => place.isOpen && place.body.isLaidOut id
  | none => false

def freshBlock (place : Place) : BlockId := ⟨place.body.nextBlock⟩

def freshTemp (place : Place) : TempId := ⟨place.body.temps.size.toUInt32⟩

def create (place : Place) (label : String) : Place :=
  { place with body := (place.body.createBlock label).2 }

/-- Stand in an open block, in a fresh one if need be. -/
def ready (place : Place) : Place :=
  if place.isOpen then place
  else ⟨(place.create Cursor.unreachableLabel).body, some place.freshBlock⟩

def change (place : Place) (change : Block → Block) : Place :=
  match place.block with
  | some id => { place with body := place.body.modifyBlock id change }
  | none => place

def add (place : Place) (instruction : Instruction) : Place :=
  place.change fun block => block.addInstruction instruction

def terminate (place : Place) (terminator : Terminator) : Place :=
  place.change fun block => block.setTerminator terminator

def takeTemp (place : Place) (ty : Ty) : Place :=
  { place with body := (place.body.newTemp ty).2 }

/-- Add the instruction that defines a fresh temp. -/
def define (place : Place) (ty : Ty) (instruction : Operand → Instruction) : Place :=
  (place.takeTemp ty).add (instruction (.temp place.freshTemp))

/-- Leave the current block for `target`. -/
def leaveTo (place : Place) (target : BlockId) : Place :=
  ⟨(if place.isOpen then place.terminate (.jump target) else place).body, none⟩

def discard (place : Place) (id : BlockId) : Place :=
  { place with body := { place.body with blocks := place.body.blocks.erase id } }

def layOut (place : Place) (id : BlockId) : Place :=
  ⟨{ place.body with layout := place.body.layout ++ [id] }, some id⟩

/-- Fall through into a block, which is laid out if an edge leads to it. -/
def enter (place : Place) (id : BlockId) (closing : Bool) : Place :=
  let left := place.leaveTo id
  if left.body.predecessorCount id = 0 then
    if closing then left.discard id else ⟨left.body, some id⟩
  else left.layOut id

def returnIfLive (place : Place) (value : Option Operand) : Place :=
  if place.isLive then place.terminate (.ret value) else place

def pruned (place : Place) : Place :=
  ⟨place.body.prune, place.block.filter place.body.isLaidOut⟩

/-- An empty function that is opened at its entry block. -/
def opened (place : Place) : Place := (place.create "entry").layOut place.freshBlock

end Place

/-! ## Cursors at a place -/

namespace Cursor

/-- The cursor stands in the function `name`, at `place`. -/
structure Builds (cursor : Cursor) (name : String) (place : Place) : Prop where
  position : cursor.position = ⟨some name, place.block⟩
  body : ∃ function, cursor.module.function? name = some function ∧
    function.body = place.body

/-- Move to another place in a function. -/
def put (cursor : Cursor) (name : String) (place : Place) : Cursor :=
  (cursor.setBody name place.body).setPosition ⟨some name, place.block⟩

theorem function?_put (cursor : Cursor) (name other : String) (place : Place) :
    (cursor.put name place).module.function? other =
      if name = other then
        (cursor.module.function? other).map fun function =>
          { function with body := place.body }
      else cursor.module.function? other := by
  simp only [put, setBody, setPosition, Module.function?, Module.modifyFunction,
    Table.get?_modify]

variable {cursor : Cursor} {name : String} {place : Place}

theorem Builds.put (builds : cursor.Builds name place) (next : Place) :
    (cursor.put name next).Builds name next := by
  rcases builds.body with ⟨function, found, _⟩
  exact ⟨rfl, { function with body := next.body }, by simp [function?_put, found], rfl⟩

theorem Builds.currentName (builds : cursor.Builds name place) :
    cursor.currentName = .ok name := by
  simp [Cursor.currentName, builds.position]

theorem Builds.currentBody (builds : cursor.Builds name place) :
    cursor.currentBody = .ok place.body := by
  rcases builds.body with ⟨function, found, same⟩
  simp [Cursor.currentBody, Cursor.currentFunction, builds.currentName, found, same, bind,
    Except.bind, pure, Except.pure]

theorem Builds.setBody (builds : cursor.Builds name place) (body : Body) :
    cursor.setBody name body = cursor.put name ⟨body, place.block⟩ := by
  simp only [Cursor.put, setPosition, ← builds.position]
  rfl

theorem Builds.put_self (builds : cursor.Builds name place) : cursor.put name place = cursor := by
  rcases cursor with ⟨module, position⟩
  rcases builds.body with ⟨function, found, same⟩
  have unchanged : module.functions.modify name
      (fun function => { function with body := place.body }) = module.functions := by
    apply Table.modify_eq_self
    intro value holds
    simp only [Module.function?] at found
    rw [found] at holds
    cases holds
    rw [← same]
  have position := builds.position
  simp only at position
  simp [Cursor.put, Cursor.setBody, setPosition, Module.modifyFunction, unchanged, position]

theorem put_put (cursor : Cursor) (name : String) (first second : Place) :
    (cursor.put name first).put name second = cursor.put name second := by
  simp only [put, setBody, setPosition, Module.modifyFunction, Table.modify_modify]
  rfl

theorem Builds.hasOpenBlock (builds : cursor.Builds name place) :
    cursor.hasOpenBlock = place.isOpen := by
  simp only [Cursor.hasOpenBlock, builds.position, Place.isOpen, Place.current?]
  cases place.block with
  | none => rfl
  | some id =>
      simp only [isTerminated, builds.currentBody, bind, Except.bind, Option.bind]
      cases place.body.block? id <;> rfl

theorem Builds.isLaidOut (builds : cursor.Builds name place) (id : BlockId) :
    cursor.isLaidOut id = place.body.isLaidOut id := by
  simp [Cursor.isLaidOut, builds.currentBody]

theorem Builds.isLive (builds : cursor.Builds name place) :
    cursor.isLive = place.isLive := by
  cases stands : place.block with
  | none => simp [Cursor.isLive, Place.isLive, builds.position, stands]
  | some id =>
      simp [Cursor.isLive, Place.isLive, builds.position, stands, builds.hasOpenBlock,
        builds.isLaidOut]

/-! ## Steps -/

theorem Builds.createBlock (builds : cursor.Builds name place) (label : String) :
    cursor.createBlock label = .ok (place.freshBlock, cursor.put name (place.create label)) := by
  simp only [Cursor.createBlock, builds.currentName, builds.currentBody, bind, Except.bind,
    pure, Except.pure, builds.setBody]
  rfl

theorem Builds.ready (builds : cursor.Builds name place) :
    cursor.ready = .ok (cursor.put name place.ready) := by
  simp only [Cursor.ready, builds.hasOpenBlock, Place.ready]
  by_cases isOpen : place.isOpen = true
  · simp only [isOpen, if_true, builds.put_self, pure, Except.pure]
  · simp only [isOpen, Bool.false_eq_true, if_false, builds.createBlock, bind, Except.bind,
      pure, Except.pure]
    rfl

theorem Builds.changeBlock (builds : cursor.Builds name place) (isOpen : place.isOpen = true)
    (change : Block → Block) :
    cursor.changeBlock change = .ok (cursor.put name (place.change change)) := by
  simp only [Place.isOpen, Place.current?] at isOpen
  simp only [Cursor.changeBlock, builds.currentName, builds.currentBody, builds.position,
    Place.change, bind, Except.bind, pure, Except.pure, builds.setBody]
  cases stands : place.block with
  | none => simp [stands] at isOpen
  | some id =>
      cases found : place.body.block? id with
      | none => simp [stands, found] at isOpen
      | some block =>
          simp only [stands, Option.bind_some, found, Bool.not_eq_true'] at isOpen
          simp only [found, isOpen, Bool.false_eq_true, if_false]

theorem isOpen_takeTemp (place : Place) (ty : Ty) : (place.takeTemp ty).isOpen = place.isOpen :=
  rfl

theorem Builds.define (builds : cursor.Builds name place) (isOpen : place.isOpen = true)
    (ty : Ty) (instruction : Operand → Instruction) :
    cursor.define ty instruction =
      (.ok (.temp place.freshTemp), cursor.put name (place.define ty instruction)) := by
  have taken : cursor.newTemp ty = .ok (place.freshTemp, cursor.put name (place.takeTemp ty)) := by
    simp only [Cursor.newTemp, builds.currentName, builds.currentBody, bind, Except.bind, pure,
      Except.pure, builds.setBody]
    rfl
  have standing := builds.put (place.takeTemp ty)
  simp only [Cursor.define, taken, Cursor.insert,
    standing.changeBlock ((isOpen_takeTemp place ty).trans isOpen), put_put]
  rfl

theorem Builds.clearBlock (builds : cursor.Builds name place) :
    cursor.clearBlock = cursor.put name ⟨place.body, none⟩ := by
  have same : cursor.put name place = cursor := builds.put_self
  have moved : cursor.put name ⟨place.body, none⟩ =
      (cursor.put name place).setPosition ⟨some name, none⟩ := rfl
  rw [moved, same]
  simp [Cursor.clearBlock, builds.position]

theorem Builds.checkDetached {id : BlockId} (known : (place.body.block? id).isSome = true)
    (detached : place.body.isLaidOut id = false) : checkDetached place.body id = .ok () := by
  cases found : place.body.block? id with
  | none => simp [found] at known
  | some block => simp [Cursor.checkDetached, found, detached]

theorem Builds.appendBlock (builds : cursor.Builds name place) {id : BlockId}
    (known : (place.body.block? id).isSome = true)
    (detached : place.body.isLaidOut id = false) :
    cursor.appendBlock id =
      .ok (cursor.put name ⟨(place.layOut id).body, place.block⟩) := by
  simp only [Cursor.appendBlock, builds.currentName, builds.currentBody, bind, Except.bind,
    pure, Except.pure, builds.setBody, Builds.checkDetached known detached]
  rfl

theorem Builds.insertBlockAfter (builds : cursor.Builds name place) {id after : BlockId}
    (known : (place.body.block? id).isSome = true)
    (detached : place.body.isLaidOut id = false) (distinct : place.body.layout.Nodup)
    (last : place.body.layout.getLast? = some after) :
    cursor.insertBlockAfter id after =
      .ok (cursor.put name ⟨(place.layOut id).body, place.block⟩) := by
  rcases List.getLast?_eq_some_iff.mp last with ⟨before, splits⟩
  have fresh : after ∉ before := by
    rw [splits, List.nodup_append] at distinct
    exact fun member => distinct.2.2 after member after (by simp) rfl
  have index : place.body.position? after = some before.length := by
    rw [Body.position?, splits, List.idxOf?_eq_some_iff]
    refine ⟨by simp, by simp, ?_⟩
    intro index bound same
    rw [List.getElem_append_left bound] at same
    exact fresh (same ▸ List.getElem_mem bound)
  have inserted : place.body.layout.insertIdx (before.length + 1) id =
      place.body.layout ++ [id] := by
    rw [splits]
    have atEnd : before.length + 1 = (before ++ [after]).length := by simp
    rw [atEnd, List.insertIdx_length_self]
  simp only [Cursor.insertBlockAfter, builds.currentName, builds.currentBody, bind,
    Except.bind, pure, Except.pure, builds.setBody, Builds.checkDetached known detached, index,
    inserted]
  rfl

theorem Builds.discardBlock (builds : cursor.Builds name place) {id : BlockId}
    (known : (place.body.block? id).isSome = true)
    (detached : place.body.isLaidOut id = false) (left : place.block = none) :
    cursor.discardBlock id = .ok (cursor.put name (place.discard id)) := by
  cases found : place.body.block? id with
  | none => simp [found] at known
  | some block =>
      simp only [Cursor.discardBlock, builds.currentName, builds.currentBody, bind, Except.bind,
        pure, Except.pure, detached, Bool.false_eq_true, if_false, found, Option.isNone_some,
        builds.setBody]
      simp only [Cursor.put, setPosition, left, reduceCtorEq, if_false, Place.discard]

end Cursor

end ScriptLowering.Code

/-! ## Lowering at a place -/

namespace ScriptLowering.Lowering

open Code (BlockId Body Cursor Instruction Operand Place Terminator Ty)

namespace Session

def Builds (session : Session) (name : String) (place : Place) : Prop :=
  session.cursor.Builds name place

def put (session : Session) (name : String) (place : Place) : Session :=
  { session with cursor := session.cursor.put name place }

variable {session : Session} {name : String} {place : Place}

theorem Builds.put (builds : session.Builds name place) (next : Place) :
    (session.put name next).Builds name next :=
  Cursor.Builds.put builds next

theorem Builds.unique {other : Place} (first : session.Builds name place)
    (second : session.Builds name other) : place = other := by
  rcases first.body with ⟨function, found, same⟩
  rcases second.body with ⟨function', found', same'⟩
  rw [found] at found'
  cases found'
  have blocks : place.block = other.block := by
    have position := first.position.symm.trans second.position
    injection position
  rcases place with ⟨body, block⟩
  rcases other with ⟨otherBody, otherBlock⟩
  simp only at same same' blocks
  rw [← same, ← same', blocks]

theorem Builds.name_unique {otherName : String} {other : Place}
    (first : session.Builds name place) (second : session.Builds otherName other) :
    name = otherName := by
  have position := first.position.symm.trans second.position
  injection position with named
  exact Option.some.inj named

theorem Builds.put_self (builds : session.Builds name place) :
    session.put name place = session := by
  simp [Session.put, Cursor.Builds.put_self builds]

@[simp] theorem put_put (session : Session) (name : String) (first second : Place) :
    (session.put name first).put name second = session.put name second := by
  simp [put, Cursor.put_put]

@[simp] theorem annotations_put (session : Session) (name : String) (place : Place) :
    (session.put name place).annotations = session.annotations := rfl

@[simp] theorem globals_put (session : Session) (name : String) (place : Place) :
    (session.put name place).cursor.module.globals = session.cursor.module.globals := rfl

@[simp] theorem data_put (session : Session) (name : String) (place : Place) :
    (session.put name place).cursor.module.data = session.cursor.module.data := rfl

theorem function?_put (session : Session) (name other : String) (place : Place) :
    (session.put name place).cursor.module.function? other =
      if name = other then
        (session.cursor.module.function? other).map fun function =>
          { function with body := place.body }
      else session.cursor.module.function? other :=
  Cursor.function?_put session.cursor name other place

end Session

section Steps

variable {session : Session} {name : String} {place : Place}

theorem createBlock_eq (builds : session.Builds name place) (label : String) :
    createBlock label session =
      .ok (place.freshBlock, session.put name (place.create label)) := by
  simp only [createBlock, Lower.buildWith, Cursor.Builds.createBlock builds]
  rfl

theorem build_ready_eq (builds : session.Builds name place) :
    Lower.build Cursor.ready session = .ok ((), session.put name place.ready) := by
  simp only [Lower.build, Cursor.Builds.ready builds]
  rfl

theorem isOpen_ready (place : Place) : place.ready.isOpen = true := by
  unfold Place.ready
  split
  · assumption
  · simp [Place.isOpen, Place.current?, Place.create, Place.freshBlock, Body.createBlock,
      Body.block?, Code.Block.empty, Code.Block.isTerminated, Terminator.isFinished]

theorem append_change_eq (builds : session.Builds name place)
    (change : Code.Block → Code.Block) :
    Lower.append (fun cursor => cursor.changeBlock change) session =
      .ok ((), session.put name (place.ready.change change)) := by
  have standing := builds.put place.ready
  have changes : Lower.build (fun cursor => cursor.changeBlock change)
      (session.put name place.ready) =
        .ok ((), session.put name (place.ready.change change)) := by
    simp only [Lower.build,
      Cursor.Builds.changeBlock standing (isOpen_ready place) change]
    simp [Session.put, Cursor.put_put]
  rw [Lower.append, Lower.bind_eq (build_ready_eq builds)]
  exact changes

theorem append_add_eq (builds : session.Builds name place) (instruction : Instruction) :
    Lower.append (fun cursor => cursor.insert instruction) session =
      .ok ((), session.put name (place.ready.add instruction)) :=
  append_change_eq builds _

theorem append_terminate_eq (builds : session.Builds name place) (terminator : Terminator) :
    Lower.append (fun cursor => cursor.terminate terminator) session =
      .ok ((), session.put name (place.ready.terminate terminator)) :=
  append_change_eq builds _

theorem emit_define_eq (builds : session.Builds name place) (ty : Ty)
    (instruction : Operand → Instruction) :
    Lower.emit (fun cursor => cursor.define ty instruction) session =
      .ok (.temp place.ready.freshTemp,
        session.put name (place.ready.define ty instruction)) := by
  have standing := builds.put place.ready
  have defines := Cursor.Builds.define standing (isOpen_ready place) ty instruction
  rw [Lower.emit, Lower.bind_eq (build_ready_eq builds)]
  simp only [Lower.buildWith]
  rw [defines]
  simp [Session.put, Cursor.put_put]

/-- A call of a function that returns nothing is added like a store, and any other like an
instruction that defines a temp. -/
theorem emit_call_eq (builds : session.Builds name place) (callee : String) (returns : Ty)
    (args : List Operand) :
    Lower.emit (fun cursor => cursor.call callee returns args) session =
      if returns.isVoid then
        .ok (none, session.put name (place.ready.add (.call none callee args)))
      else
        .ok (some (.temp place.ready.freshTemp), session.put name
          (place.ready.define returns fun result => .call (some result) callee args)) := by
  have standing := builds.put place.ready
  rw [Lower.emit, Lower.bind_eq (build_ready_eq builds)]
  simp only [Lower.buildWith, Cursor.call]
  cases returns.isVoid with
  | true =>
      have inserts : (session.put name place.ready).cursor.insert (.call none callee args) =
          .ok ((session.put name place.ready).cursor.put name
            (place.ready.add (.call none callee args))) :=
        Cursor.Builds.changeBlock standing (isOpen_ready place) _
      simp only [if_true, inserts]
      simp [Session.put, Cursor.put_put]
  | false =>
      have defines := Cursor.Builds.define standing (isOpen_ready place) returns
        fun result => .call (some result) callee args
      simp only [Bool.false_eq_true, if_false, defines]
      simp [Session.put, Cursor.put_put, Except.map]

theorem ready_of_isOpen {place : Place} (isOpen : place.isOpen = true) :
    place.ready = place := by
  simp [Place.ready, isOpen]

theorem leaveTo_eq (builds : session.Builds name place) (target : BlockId) :
    leaveTo target session = .ok ((), session.put name (place.leaveTo target)) := by
  have looks : Lower.cursor session = .ok (session.cursor, session) := rfl
  rw [leaveTo, Lower.bind_eq looks, Cursor.Builds.hasOpenBlock builds]
  cases isOpen : place.isOpen with
  | true =>
      have jumps := append_terminate_eq builds (.jump target)
      rw [ready_of_isOpen isOpen] at jumps
      have left := Cursor.Builds.clearBlock (builds.put (place.terminate (.jump target)))
      rw [if_pos rfl]
      refine (Lower.bind_eq jumps).trans ?_
      simp only [Lower.moveCursor, left, Place.leaveTo, isOpen, if_true]
      simp [Session.put, Cursor.put_put]
  | false =>
      have left := Cursor.Builds.clearBlock builds
      rw [if_neg (by simp)]
      simp only [Lower.moveCursor, left, Place.leaveTo, isOpen, Bool.false_eq_true, if_false,
        Session.put]

end Steps

end ScriptLowering.Lowering
