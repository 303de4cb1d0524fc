import ScriptLowering.Proofs.ProgramHistory

/-! # What a history leaves behind

A run that comes to its end leaves in its module what has been complete on the way: a block that
has got its terminator is not changed any more, and stays where it has been laid out. The verifier
has seen to the rest, so that a jump in a block that is laid out leads to such a block.
-/

namespace ScriptLowering.Code

/-- In the module, the block is laid out in the function `name`. -/
def Module.LaysOut (module : Module) (name : String) (id : BlockId) : Prop :=
  ∃ function, module.function? name = some function ∧ id ∈ function.body.layout

/-- In the module, the block is laid out in the function `name` and ends by the terminator. -/
def Module.EndsBy (module : Module) (name : String) (id : BlockId) (terminator : Terminator) :
    Prop :=
  ∃ function block, module.function? name = some function ∧ id ∈ function.body.layout ∧
    function.body.block? id = some block ∧ block.terminator = terminator

theorem Module.EndsBy.laysOut {module : Module} {name : String} {id target : BlockId}
    {terminator : Terminator} (ends : module.EndsBy name id terminator)
    (verified : module.verify = .ok ()) (edge : target ∈ terminator.successors) :
    module.LaysOut name target := by
  rcases ends with ⟨function, block, known, member, found, rfl⟩
  have passes := (Module.verify_eq_ok.mp verified).2 name function known (List.ne_nil_of_mem member)
  rcases Module.checkFunction_eq_ok.mp passes with ⟨shape, _⟩
  rcases checkShape_eq_ok.mp shape with ⟨_, _, closed, _⟩
  have laidOut := Body.mem_laidOut.mpr ⟨id, member, found⟩
  exact ⟨function, known, (closed block laidOut).2 target edge⟩

end ScriptLowering.Code

namespace ScriptLowering.Lowering

open Source (Program StmtId)
open Code (BlockId Place Terminator)

variable {program : Program} {name : String} {first last session next : Session}
  {events : List Event} {event : Event}

/-! ## Growth along a history -/

/-- What is complete stays as it is, and what is laid out stays laid out. -/
def Session.Grows (session next : Session) : Prop := session.Becomes (fun _ _ => True) next

theorem Session.Grows.trans {middle : Session} (early : session.Grows middle)
    (late : middle.Grows next) : session.Grows next :=
  Session.Becomes.trans early late

/-- A block that is entered has not been used, and it belongs to the function that is built. -/
theorem Task.Performs.spares {task : Task} (performs : task.Performs program name session next)
    (orderly : Event.Orderly program ⟨task, session, next⟩) (id : StmtId) (block : BlockId)
    (closing : Bool) (isEnter : task = .enter id block closing) : session.Spares name block := by
  rcases orderly.enters id block closing isEnter with ⟨other, inside, spares⟩
  subst isEnter
  cases performs with
  | enter builds =>
      rw [Event.function, builds.position] at inside
      cases inside
      exact spares

theorem Task.Performs.grows {task : Task} (performs : task.Performs program name session next)
    (orderly : Event.Orderly program ⟨task, session, next⟩) (numbers : session.hasNumbers = true) :
    session.Grows next := by
  by_cases resumes : ∃ position, task = .resume position
  · rcases resumes with ⟨position, rfl⟩
    cases performs with
    | resume => exact (session.becomes_resume position).mono fun _ _ _ => trivial
  · refine (performs.follows (orderly.sound.refill numbers) (performs.spares orderly)
      fun position same => resumes ⟨position, same⟩).becomes.mono fun _ _ _ => trivial

theorem Path.grows (path : Path program first events last)
    (orderly : ∀ event ∈ events, event.Orderly program) (numbered : Numbered events) :
    first.Grows last := by
  induction path with
  | nil => exact .refl _ _
  | cons performs _ induction =>
      have step := performs.grows (orderly _ List.mem_cons_self) (numbered _ List.mem_cons_self)
      exact step.trans (induction (fun event member => orderly event (List.mem_cons_of_mem _ member))
        fun event member => numbered event (List.mem_cons_of_mem _ member))

/-! ## From a step to the end -/

/-- A history that has come to an end that the verifier accepts. -/
structure Recorded (program : Program) (first : Session) (events : List Event) (last : Session) :
    Prop where
  path : Path program first events last
  numbered : Numbered events
  orderly : ∀ event ∈ events, event.Orderly program
  sound : last.Sound 0
  verified : last.cursor.module.verify = .ok ()

/-- What is known of a step from what comes before and behind it. -/
structure Event.Stands (event : Event) (program : Program) (name : String) (last : Session) :
    Prop where
  performs : event.task.Performs program name event.before event.after
  orderly : event.Orderly program
  numbers : event.before.hasNumbers = true
  grows : event.after.Grows last
  retains : event.after.Retains last

namespace Recorded

theorem stands (recorded : Recorded program first events last) (member : event ∈ events) :
    ∃ name, event.Stands program name last := by
  rcases recorded.path.exists_of_mem member with ⟨name, early, late, rfl, _, performs, goesOn⟩
  have isLate {other : Event} (member : other ∈ late) : other ∈ early ++ event :: late :=
    List.mem_append_right _ (List.mem_cons_of_mem _ member)
  refine ⟨name, performs, recorded.orderly event member, recorded.numbered event member, ?_,
    goesOn.retains⟩
  exact goesOn.grows (fun other member => recorded.orderly other (isLate member))
    fun other member => recorded.numbered other (isLate member)

theorem exists_block (recorded : Recorded program first events last) {id : BlockId}
    (laysOut : last.cursor.module.LaysOut name id) : ∃ function block,
      last.cursor.module.function? name = some function ∧ id ∈ function.body.layout ∧
        function.body.block? id = some block := by
  rcases laysOut with ⟨function, known, member⟩
  have sound := recorded.sound name ⟨function.body, last.blockIn name⟩
    (Option.map_eq_some_iff.mpr ⟨function, known, rfl⟩)
  rcases sound.holds.known id member with ⟨block, found⟩
  exact ⟨function, block, known, member, found⟩

/-- A complete block that is laid out in the end is what it has been. -/
theorem endsBy (recorded : Recorded program first events last) (grows : session.Grows last)
    {place : Place} (found : session.placeIn? name = some place) {id : BlockId}
    (old : id.number.toNat < place.body.nextBlock.toNat) {block : Code.Block}
    (known : place.body.block? id = some block) (complete : block.isTerminated = true)
    (laysOut : last.cursor.module.LaysOut name id) :
    last.cursor.module.EndsBy name id block.terminator := by
  rcases recorded.exists_block laysOut with ⟨function, final, isFunction, member, foundFinal⟩
  rcases grows name place found with ⟨after, foundAfter, becomes⟩
  rw [Session.placeIn?, isFunction] at foundAfter
  cases foundAfter
  rcases becomes.blocks id final old foundFinal with ⟨before, foundBefore, extends_⟩
  rw [known] at foundBefore
  cases foundBefore
  exact ⟨function, final, isFunction, member, foundFinal, by rw [extends_.complete complete]⟩

theorem laysOut (grows : session.Grows last) {place : Place}
    (found : session.placeIn? name = some place) {id : BlockId} (member : id ∈ place.body.layout) :
    last.cursor.module.LaysOut name id := by
  rcases grows name place found with ⟨after, foundAfter, becomes⟩
  rcases Option.map_eq_some_iff.mp foundAfter with ⟨function, known, rfl⟩
  exact ⟨function, known, becomes.layout id member⟩

end Recorded

/-! ## Leaving a block -/

theorem Event.Stands.endsBy (recorded : Recorded program first events last)
    (stands : event.Stands program name last) {place after : Place}
    (builds : event.before.Builds name place) (buildsAfter : event.after.Builds name after)
    {here : BlockId} {terminator : Terminator} {block : Code.Block}
    (found : place.body.block? here = some block)
    (ends : after.body.block? here = some (block.setTerminator terminator))
    (finished : terminator.isFinished = true) (laysOut : last.cursor.module.LaysOut name here) :
    last.cursor.module.EndsBy name here terminator := by
  have step := stands.performs.grows stands.orderly stands.numbers
  rcases step name place builds.placeIn? with ⟨next, foundNext, becomes⟩
  rw [buildsAfter.placeIn?] at foundNext
  cases foundNext
  have old := (builds.sound stands.orderly.sound).holds.numbered here block found
  exact recorded.endsBy stands.grows buildsAfter.placeIn? (Nat.lt_of_lt_of_le old becomes.counter)
    ends finished laysOut

theorem block?_terminate {place : Place} {here : BlockId} {block : Code.Block}
    (stands : place.block = some here) (found : place.body.block? here = some block)
    (terminator : Terminator) :
    (place.terminate terminator).body.block? here = some (block.setTerminator terminator) := by
  rw [Place.terminate, Place.block?_change stands, if_pos rfl, found]
  rfl

theorem exists_of_isLive {place : Place} (live : place.isLive = true) : ∃ here block,
    place.block = some here ∧ place.body.block? here = some block ∧ place.isOpen = true ∧
      here ∈ place.body.layout := by
  have isOpen := isOpen_of_isLive live
  rcases Place.exists_of_isOpen isOpen with ⟨here, block, stands, found, _⟩
  refine ⟨here, block, stands, found, isOpen, ?_⟩
  simp only [Place.isLive, stands, Bool.and_eq_true] at live
  exact Code.Body.isLaidOut_iff.mp live.2

end ScriptLowering.Lowering
