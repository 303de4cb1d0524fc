import ScriptLowering.Proofs.LastingTraces
import ScriptLowering.Proofs.Machine

/-! # The machine at a place

While a function is built, its current block ends where the next instruction will be added. A
frame that stands there runs what is added next, as it is found in the finished body.
-/

namespace ScriptLowering.Code

/-- A body whose laid-out blocks are complete and lead to laid-out blocks. -/
structure Body.Closed (body : Body) : Prop where
  found : ∀ id ∈ body.layout, ∃ block, body.block? id = some block
  finished : ∀ id ∈ body.layout, ∀ block, body.block? id = some block →
    block.isTerminated = true
  targets : ∀ id ∈ body.layout, ∀ block, body.block? id = some block →
    ∀ target ∈ block.successors, target ∈ body.layout

theorem Body.Closed.isSome {body : Body} (closed : body.Closed) {id : BlockId}
    (member : id ∈ body.layout) : (body.block? id).isSome = true := by
  rcases closed.found id member with ⟨block, found⟩
  simp [found]

namespace Place

variable {place : Place}

theorem exists_of_isLive (live : place.isLive = true) :
    ∃ id block, place.block = some id ∧ id ∈ place.body.layout ∧
      place.body.block? id = some block ∧ block.isTerminated = false := by
  rcases exists_of_isOpen (Lowering.isOpen_of_isLive live) with
    ⟨id, block, stands, found, unfinished⟩
  refine ⟨id, block, stands, ?_, found, unfinished⟩
  simp only [Place.isLive, stands, Bool.and_eq_true] at live
  exact Body.isLaidOut_iff.mp live.2

theorem isLive_of_block {id : BlockId} {block : Block} (stands : place.block = some id)
    (member : id ∈ place.body.layout) (found : place.body.block? id = some block)
    (unfinished : block.isTerminated = false) : place.isLive = true := by
  simp only [Place.isLive, stands, Bool.and_eq_true]
  exact ⟨by rw [isOpen_of_block stands found, unfinished]; rfl, Body.isLaidOut_iff.mpr member⟩

theorem edgeTo_terminate (live : place.isLive = true) {terminator : Terminator}
    {target : BlockId} (edge : target ∈ terminator.successors) :
    (place.terminate terminator).EdgeTo target := by
  rcases exists_of_isLive live with ⟨id, block, stands, member, found, _⟩
  refine ⟨id, ?_, block.setTerminator terminator, ?_, edge⟩
  · rw [Place.terminate, layout_change]
    exact member
  · rw [Place.terminate, block?_change stands, if_pos rfl, found]
    rfl

theorem edgeTo_leaveTo (live : place.isLive = true) (target : BlockId) :
    (place.leaveTo target).EdgeTo target := by
  have edge : (place.terminate (.jump target)).EdgeTo target :=
    edgeTo_terminate live (by simp [Terminator.successors])
  rw [Place.leaveTo, if_pos (Lowering.isOpen_of_isLive live)]
  exact edge

theorem lasts_terminate_of_leaveTo {body : Body} {target : BlockId} (live : place.isLive = true)
    (lasts : (place.leaveTo target).Lasts body) : (place.terminate (.jump target)).Lasts body := by
  rw [Place.leaveTo, if_pos (Lowering.isOpen_of_isLive live)] at lasts
  exact ⟨lasts.layout, lasts.kept⟩

end Place

/-- The frame stands where the next instruction at the place goes. -/
structure Frame.Stands (place : Place) (frame : Frame) : Prop where
  live : place.isLive = true
  block : place.block = some frame.block
  index : ∃ block, place.body.block? frame.block = some block ∧
    frame.index = block.instructions.length

namespace Frame.Stands

variable {place : Place} {frame next : Frame}

theorem isOpen (stands : frame.Stands place) : place.isOpen = true :=
  Lowering.isOpen_of_isLive stands.live

theorem ready (stands : frame.Stands place) : place.ready = place :=
  Lowering.ready_of_isOpen stands.isOpen

theorem found (stands : frame.Stands place) : ∃ block,
    frame.block ∈ place.body.layout ∧ place.body.block? frame.block = some block ∧
      block.isTerminated = false ∧ frame.index = block.instructions.length := by
  rcases Place.exists_of_isLive stands.live with ⟨id, block, here, member, found, unfinished⟩
  have same := stands.block
  rw [here] at same
  cases same
  rcases stands.index with ⟨other, otherFound, index⟩
  rw [found] at otherFound
  cases otherFound
  exact ⟨block, member, found, unfinished, index⟩

theorem move (stands : frame.Stands place) (block : next.block = frame.block)
    (index : next.index = frame.index) : next.Stands place where
  live := stands.live
  block := by rw [block]; exact stands.block
  index := by rw [block, index]; exact stands.index

theorem create (stands : frame.Stands place) (regular : place.Regular) (label : String) :
    frame.Stands (place.create label) := by
  rcases stands.found with ⟨block, member, found, unfinished, index⟩
  have stillFound : (place.create label).body.block? frame.block = some block := by
    rw [Place.block?_create, if_neg]
    · exact found
    · intro same
      rw [← same, regular.block?_fresh] at found
      cases found
  exact ⟨Place.isLive_of_block stands.block member stillFound unfinished, stands.block, block,
    stillFound, index⟩

theorem takeTemp (stands : frame.Stands place) (ty : Ty) : frame.Stands (place.takeTemp ty) :=
  ⟨stands.live, stands.block, stands.index⟩

theorem add (stands : frame.Stands place) (instruction : Instruction)
    (block : next.block = frame.block) (index : next.index = frame.index + 1) :
    next.Stands (place.add instruction) := by
  rcases stands.found with ⟨current, member, found, unfinished, length⟩
  have added : (place.add instruction).body.block? frame.block =
      some (current.addInstruction instruction) := by
    rw [Place.add, Place.block?_change stands.block, if_pos rfl, found]
    rfl
  have here : (place.add instruction).block = some frame.block :=
    (Place.block_change _ _).trans stands.block
  have laidOut : frame.block ∈ (place.add instruction).body.layout := by
    rw [Place.add, Place.layout_change]
    exact member
  refine ⟨Place.isLive_of_block here laidOut added unfinished, ?_,
    current.addInstruction instruction, ?_, ?_⟩
  · rw [block]
    exact here
  · rw [block]
    exact added
  · rw [index, length]
    simp [Block.addInstruction]

theorem define (stands : frame.Stands place) (ty : Ty) (instruction : Operand → Instruction)
    (block : next.block = frame.block) (index : next.index = frame.index + 1) :
    next.Stands (place.define ty instruction) :=
  (stands.takeTemp ty).add _ block index

theorem enter {id : BlockId} {label : String} (waiting : place.Waiting id label)
    (edge : (place.leaveTo id).EdgeTo id) (closing : Bool) (block : frame.block = id)
    (index : frame.index = 0) : frame.Stands (place.enter id closing) := by
  have found : ((place.leaveTo id).layOut id).body.block? id = some (.empty id label) :=
    (waiting.leaveTo id).found
  rw [Place.enter_of_edge edge]
  refine ⟨Place.isLive_of_block rfl (by simp [Place.layOut]) found rfl, ?_, .empty id label, ?_,
    index⟩
  · rw [block]
    rfl
  · rw [block]
    exact found

/-! ## Steps -/

variable {module : Module} {function : Function} {state : State} {callers : List Frame}

theorem found_add (stands : frame.Stands place) {instruction : Instruction} {body : Body}
    (lasts : (place.add instruction).Lasts body) :
    ∃ block, body.block? frame.block = some block ∧
      block.instructions[frame.index]? = some instruction := by
  rcases stands.found with ⟨current, member, foundBlock, _, index⟩
  have added : (place.add instruction).body.block? frame.block =
      some (current.addInstruction instruction) := by
    rw [Place.add, Place.block?_change stands.block, if_pos rfl, foundBlock]
    rfl
  have laidOut : frame.block ∈ (place.add instruction).body.layout := by
    rw [Place.add, Place.layout_change]
    exact member
  rcases lasts.kept frame.block laidOut _ added with ⟨last, foundLast, extended⟩
  rcases extended.instructions with ⟨more, instructions⟩
  refine ⟨last, foundLast, ?_⟩
  rw [instructions, index]
  simp [Block.addInstruction]

theorem next_add (stands : frame.Stands place) {instruction : Instruction}
    (lasts : (place.add instruction).Lasts function.body)
    (found : module.function? frame.function = some function)
    (frames : state.frames = frame :: callers) :
    state.next module = state.execute module frame callers instruction := by
  rcases stands.found_add lasts with ⟨block, foundBlock, next⟩
  simp only [State.next, frames, found, foundBlock, next]

theorem giveBack_call (stands : frame.Stands place) {result : Option Operand} {callee : String}
    {args : List Operand} (lasts : (place.add (.call result callee args)).Lasts function.body)
    (found : module.function? frame.function = some function) (state : State) (value : Value) :
    state.giveBack module value (frame :: callers) =
      .ok (.goes (state.resume (frame.advance result value) callers)) := by
  rcases stands.found_add lasts with ⟨block, foundBlock, next⟩
  simp only [State.giveBack, found, Option.bind_some, foundBlock, next]

theorem next_terminate (stands : frame.Stands place) {terminator : Terminator}
    (finished : terminator.isFinished = true)
    (lasts : (place.terminate terminator).Lasts function.body)
    (found : module.function? frame.function = some function)
    (frames : state.frames = frame :: callers) :
    state.next module = state.leave module function frame callers terminator := by
  rcases stands.found with ⟨current, member, foundBlock, _, index⟩
  have ended : (place.terminate terminator).body.block? frame.block =
      some (current.setTerminator terminator) := by
    rw [Place.terminate, Place.block?_change stands.block, if_pos rfl, foundBlock]
    rfl
  have laidOut : frame.block ∈ (place.terminate terminator).body.layout := by
    rw [Place.terminate, Place.layout_change]
    exact member
  rcases lasts.kept frame.block laidOut _ ended with ⟨last, foundLast, extended⟩
  rw [extended.complete finished] at foundLast
  have nothing : (current.setTerminator terminator).instructions[frame.index]? = none := by
    rw [index]
    simp [Block.setTerminator]
  simp only [State.next, frames, found, foundLast, nothing]
  rfl

theorem target_mem (stands : frame.Stands place) {terminator : Terminator}
    (lasts : (place.terminate terminator).Lasts function.body) (closed : function.body.Closed)
    {target : BlockId} (edge : target ∈ terminator.successors) :
    target ∈ function.body.layout := by
  rcases Place.edgeTo_terminate stands.live edge with ⟨id, member, block, found, isTarget⟩
  rcases lasts.kept id member block found with ⟨last, foundLast, extended⟩
  rw [extended.complete (Place.isTerminated_of_successor isTarget)] at foundLast
  exact closed.targets id (lasts.layout id member) block foundLast target isTarget

theorem next_jump (stands : frame.Stands place) {target : BlockId}
    (lasts : (place.terminate (.jump target)).Lasts function.body) (closed : function.body.Closed)
    (found : module.function? frame.function = some function)
    (frames : state.frames = frame :: callers) :
    state.next module = .ok (.goes (state.resume (frame.jump target) callers)) := by
  have member : target ∈ function.body.layout :=
    stands.target_mem lasts closed (by simp [Terminator.successors])
  have known := closed.isSome member
  rw [stands.next_terminate rfl lasts found frames]
  simp only [State.leave, known, if_true]

theorem next_branch (stands : frame.Stands place) {condition : Operand} {truth : Bool}
    {thenBlock elseBlock : BlockId}
    (lasts : (place.terminate (.branch condition thenBlock elseBlock)).Lasts function.body)
    (closed : function.body.Closed) (found : module.function? frame.function = some function)
    (frames : state.frames = frame :: callers)
    (tests : frame.operand module condition = .ok (.bool truth)) :
    state.next module = .ok (.goes
      (state.resume (frame.jump (if truth then thenBlock else elseBlock)) callers)) := by
  have member : (if truth then thenBlock else elseBlock) ∈ function.body.layout :=
    stands.target_mem lasts closed (by cases truth <;> simp [Terminator.successors])
  have known := closed.isSome member
  rw [stands.next_terminate rfl lasts found frames]
  simp only [State.leave, tests, bind, Except.bind, known, if_true]

end Frame.Stands

end ScriptLowering.Code
