import ScriptLowering.Proofs.EdgeOrigins

/-! # Jumps reach their own loop

A `break` leads to the end of the loop that it names and a `continue` to the updates of that loop or
to its condition, however the loops are nested: what is created for one construct is never used by
another one.
-/

namespace ScriptLowering.Lowering

open Source (Program Stmt StmtId)
open Code (BlockId Place Terminator)

/-! ## Blocks are created once -/

section Created

variable {program : Program} {name : String} {first last session next : Session}
  {events : List Event} {event other : Event} {id otherId : StmtId} {label otherLabel : String}
  {block : BlockId}

theorem number_of_create
    (creates : (Task.create id label block).Performs program name session next) :
    ∃ place, session.Builds name place ∧ block = place.freshBlock ∧
      next.placeIn? name = some (place.create label) := by
  cases creates with
  | create builds => exact ⟨_, builds, rfl, (builds.put _).placeIn?⟩

theorem not_created_again {later after : Session}
    (creates : (Task.create id label block).Performs program name session next)
    (sound : session.Sound 16) (grows : next.Grows later) :
    ¬ (Task.create otherId otherLabel block).Performs program name later after := by
  intro again
  rcases number_of_create creates with ⟨place, builds, rfl, created⟩
  rcases number_of_create again with ⟨placeToo, buildsToo, same, _⟩
  rcases grows name _ created with ⟨grown, found, becomes⟩
  rw [buildsToo.placeIn?] at found
  cases found
  have holds : place.body.Holds [] (place.owed + 16) := (builds.sound sound).holds
  have counter := holds.toNat_nextBlock_createBlock (by omega) label
  have reached := becomes.counter
  have equal : place.body.nextBlock.toNat = placeToo.body.nextBlock.toNat :=
    congrArg (fun id : BlockId => id.number.toNat) same
  change (place.body.createBlock label).2.nextBlock.toNat ≤ _ at reached
  omega

theorem Recorded.created_once (recorded : Recorded program first events last)
    (member : event ∈ events) (memberToo : other ∈ events)
    (creates : event.task = .create id label block)
    (createsToo : other.task = .create otherId otherLabel block)
    (same : event.function = other.function) : event = other := by
  -- Whichever of two different steps comes first, the later one takes a greater number.
  have apart {early late : Event} {inside outside : String} {between : List Event}
      {earlyId lateId : StmtId} {earlyLabel lateLabel : String}
      (isEarly : early ∈ events) (within : between ⊆ events)
      (performs : early.task.Performs program inside early.before early.after)
      (path : Path program early.after between late.before)
      (performsLate : late.task.Performs program outside late.before late.after)
      (isCreate : early.task = .create earlyId earlyLabel block)
      (isCreateLate : late.task = .create lateId lateLabel block)
      (alike : early.function = late.function) : False := by
    rw [isCreate] at performs
    rw [isCreateLate] at performsLate
    rcases number_of_create performs with ⟨_, builds, _⟩
    rcases number_of_create performsLate with ⟨_, buildsLate, _⟩
    rw [Event.function, Event.function, builds.position, buildsLate.position] at alike
    cases alike
    have sound := (recorded.orderly early isEarly).sound.refill (recorded.numbered early isEarly)
    exact not_created_again performs sound (path.grows
      (fun event member => recorded.orderly event (within member))
      fun event member => recorded.numbered event (within member)) performsLate
  rcases recorded.path.exists_of_mem memberToo with ⟨outside, early, late, rfl, leads, performs, goesOn⟩
  rcases List.mem_append.mp member with isEarly | isLate
  · rcases leads.exists_of_mem isEarly with ⟨inside, _, between, rfl, _, performsEarly, path⟩
    refine (apart member ?_ performsEarly path performs creates createsToo same).elim
    intro _ isBetween
    simp [isBetween]
  · rcases List.mem_cons.mp isLate with rfl | isLate
    · rfl
    · rcases goesOn.exists_of_mem isLate with ⟨inside, between, _, rfl, path, performsLate, _⟩
      refine (apart memberToo ?_ performs path performsLate createsToo creates same.symm).elim
      intro _ isBetween
      simp [isBetween]

end Created

/-! ## Jumps at a live cursor -/

section Live

variable {program : Program} {name : String} {first last : Session} {events : List Event}
  {event : Event} {place after : Place}

theorem Recorded.endsBy_live (recorded : Recorded program first events last)
    (stands : event.Stands program name last) (builds : event.before.Builds name place)
    (buildsAfter : event.after.Builds name after) (live : event.before.cursor.isLive = true)
    {terminator : Terminator} (finished : terminator.isFinished = true)
    (ends : ∀ here block, place.block = some here → place.body.block? here = some block →
      place.isOpen = true → here ∈ place.body.layout →
        after.body.block? here = some (block.setTerminator terminator)) :
    ∃ here, event.before.cursor.position.block = some here ∧
      last.cursor.module.EndsBy name here terminator := by
  rw [Code.Cursor.Builds.isLive builds] at live
  rcases exists_of_isLive live with ⟨here, block, isHere, found, isOpen, member⟩
  refine ⟨here, by rw [builds.position]; exact isHere, ?_⟩
  have step := stands.performs.grows stands.orderly stands.numbers
  exact stands.endsBy recorded builds buildsAfter found (ends here block isHere found isOpen member)
    finished (Recorded.laysOut (step.trans stands.grows) builds.placeIn? member)

theorem block?_leaveTo {place : Place} {here : BlockId} {block : Code.Block}
    (stands : place.block = some here) (found : place.body.block? here = some block)
    (isOpen : place.isOpen = true) (target : BlockId) :
    (place.leaveTo target).body.block? here = some (block.setTerminator (.jump target)) := by
  rw [Place.leaveTo, if_pos isOpen]
  exact block?_terminate stands found _

theorem block?_enter {target here : BlockId} {block : Code.Block} (enters : place.Enters target after)
    (stands : place.block = some here) (found : place.body.block? here = some block)
    (isOpen : place.isOpen = true) (member : here ∈ place.body.layout) :
    after.body.block? here = some (block.setTerminator (.jump target)) := by
  have left := block?_leaveTo stands found isOpen target
  cases enters with
  | dropped missing =>
      rw [Place.block?_discard, if_neg]
      · exact left
      · rintro rfl
        exact missing member
  | detached | laidOut => exact left

end Live

/-! ## Loops -/

def exitLabel : Stmt → String
  | .whileLoop _ _ => "while.end"
  | _ => "for.end"

/-- The label of the block that a loop is continued at. -/
def continueLabel : Stmt → String
  | .whileLoop _ _ => "while.cond"
  | .forLoop _ _ (_ :: _) _ => "for.update"
  | _ => "for.cond"

/-- The step is taken at a live cursor, and ends the block at hand by a jump to the target, which is
laid out. -/
def Event.JumpsLive (event : Event) (module : Code.Module) (name : String) (target : BlockId) :
    Prop :=
  ∃ here, event.before.cursor.position.block = some here ∧
    module.EndsBy name here (.jump target) ∧ module.LaysOut name target

/-- Jumps of loops reach their own loop. -/
structure ReachesOwnLoops (program : Program) (events : List Event) (module : Code.Module) : Prop where
  breaks : ∀ event ∈ events, ∀ id target, event.task = .jump id →
    program.stmt? id = some (.breakLoop target) → event.before.cursor.isLive = true →
      ∃ name loop exit, event.function = some name ∧ program.stmt? target = some loop ∧
        isLoop loop = true ∧ Performed events (some name) (.create target (exitLabel loop) exit) ∧
        event.JumpsLive module name exit
  continues : ∀ event ∈ events, ∀ id target, event.task = .jump id →
    program.stmt? id = some (.continueLoop target) → event.before.cursor.isLive = true →
      ∃ name loop next, event.function = some name ∧ program.stmt? target = some loop ∧
        isLoop loop = true ∧ Performed events (some name) (.create target (continueLabel loop) next) ∧
        event.JumpsLive module name next
  /-- A loop goes back to its condition, from its updates if it has some. -/
  loops : ∀ event ∈ events, ∀ id blocks, event.task = .loop id blocks →
    ∃ name loop, event.function = some name ∧ program.stmt? id = some loop ∧
      blocks.Created (Performed events (some name)) id loop ∧
      Performed events (some name) (.leave id blocks.condition) ∧
      ∀ update, blocks.update = some update →
        (∃ closing, Performed events (some name) (.enter id update closing)) ∧
        (module.LaysOut name update → module.EndsBy name update (.jump blocks.condition))
  /-- A live end leads to the block that is entered, or that the block at hand is left for. -/
  ends : ∀ event ∈ events, ∀ id target, event.before.cursor.isLive = true →
    (event.task = .leave id target ∨ ∃ closing, event.task = .enter id target closing) →
      ∃ name, event.function = some name ∧ event.JumpsLive module name target
  /-- A statement uses the blocks that have been created for it. -/
  own : ∀ event ∈ events, ∀ id, event.task.stmt? = some id → ∀ block ∈ event.task.blocks,
    ∃ label, Performed events event.function (.create id label block)
  /-- A block is created for one statement. -/
  once : ∀ first ∈ events, ∀ second ∈ events, ∀ id otherId label otherLabel block,
    first.task = .create id label block → second.task = .create otherId otherLabel block →
      first.function = second.function → id = otherId
  /-- An edge leads to a block of the construct that has given rise to it. -/
  edges : ∀ name function here block target, module.function? name = some function →
    here ∈ function.body.layout → function.body.block? here = some block →
      target ∈ block.successors → ∃ event ∈ events, ∃ id label, event.function = some name ∧
        event.task.construct? program = some id ∧ target ∈ event.task.targets program event.before ∧
        Performed events (some name) (.create id label target)

section Loops

variable {program : Program} {name : String} {first last : Session} {events : List Event}
  {event : Event} {id target : StmtId} {blocks others : LoopBlocks} {stmt : Stmt}
  {done : Task → Prop}

theorem LoopBlocks.Created.isLoop (created : blocks.Created done id stmt) : isLoop stmt = true := by
  cases stmt with
  | whileLoop | forLoop => rfl
  | _ => exact created.elim

theorem LoopBlocks.Created.exit (created : blocks.Created done id stmt) :
    done (.create id (exitLabel stmt) blocks.exit) := by
  cases stmt with
  | whileLoop | forLoop => exact created.2.1
  | _ => exact created.elim

theorem LoopBlocks.Created.continueTarget (created : blocks.Created done id stmt) :
    done (.create id (continueLabel stmt) blocks.continueTarget) := by
  cases stmt with
  | whileLoop =>
      rw [LoopBlocks.continueTarget, created.2.2]
      exact created.1
  | forLoop _ _ updates _ =>
      cases updates with
      | nil =>
          rw [LoopBlocks.continueTarget, created.2.2.1 rfl]
          exact created.1
      | cons update rest =>
          rcases created.2.2.2 nofun with ⟨block, isUpdate, creates⟩
          rw [LoopBlocks.continueTarget, isUpdate]
          exact creates
  | _ => exact created.elim

theorem LoopBlocks.Created.update (created : blocks.Created done id stmt) {update : BlockId}
    (isUpdate : blocks.update = some update) : done (.create id "for.update" update) := by
  cases stmt with
  | whileLoop =>
      rw [created.2.2] at isUpdate
      cases isUpdate
  | forLoop _ _ updates _ =>
      by_cases none : updates = []
      · rw [created.2.2.1 none] at isUpdate
        cases isUpdate
      · rcases created.2.2.2 none with ⟨block, isBlock, creates⟩
        rw [isUpdate] at isBlock
        cases isBlock
        exact creates
  | _ => exact created.elim

theorem Recorded.loopOf (recorded : Recorded program first events last) (member : event ∈ events)
    (isLoop : event.task = .loop id blocks) :
    event.function.isSome = true ∧ last.annotations.loopOf id = .ok blocks := by
  rcases recorded.stands member with ⟨name, stands⟩
  have performs := stands.performs
  have retains := stands.retains
  rcases event with ⟨task, before, after⟩
  cases isLoop
  dsimp only at performs retains
  cases performs with
  | loop builds sets =>
      refine ⟨by rw [Event.function, builds.position]; rfl, retains.loops id blocks ?_⟩
      rw [Annotations.loopOf_of_setLoop sets, if_pos rfl]

theorem Recorded.blocks_unique (recorded : Recorded program first events last)
    {function : Option String} (begun : Performed events function (.loop id blocks))
    {session : Session} (knows : session.annotations.loopOf id = .ok others)
    (retains : session.Retains last) : others = blocks := by
  rcases begun with ⟨event, member, isLoop, _⟩
  have known := (recorded.loopOf member isLoop).2
  rw [retains.loops id others knows] at known
  cases known
  rfl

/-- The block that a jump leads to, by the blocks of its loop. -/
def LoopBlocks.jumpTarget (blocks : LoopBlocks) : Stmt → BlockId
  | .breakLoop _ => blocks.exit
  | _ => blocks.continueTarget

theorem Session.JumpsBy.toLoop {session : Session} {terminator : Terminator}
    (jumps : session.JumpsBy program id terminator) (known : program.stmt? id = some stmt)
    (leads : jumpTarget? stmt = some target) : ∃ blocks,
      session.annotations.loopOf target = .ok blocks ∧ terminator = .jump (blocks.jumpTarget stmt) := by
  rw [Session.JumpsBy, known] at jumps
  cases stmt with
  | breakLoop | continueLoop =>
      cases leads
      exact jumps
  | _ => cases leads

theorem LoopBlocks.Created.jumpTarget (created : blocks.Created done id stmt) (jump : Stmt) :
    ∃ label, done (.create id label (blocks.jumpTarget jump)) := by
  cases jump with
  | breakLoop => exact ⟨_, created.exit⟩
  | _ => exact ⟨_, created.continueTarget⟩

theorem exists_of_settled?_entry {task : Task} {block : BlockId}
    (settles : task.settled? = some (.entry block)) : ∃ id closing, task = .enter id block closing := by
  cases task with
  | enter id other closing =>
      cases settles
      exact ⟨id, closing, rfl⟩
  | _ => cases settles

theorem eq_leave_of_settled? {task : Task} {block : BlockId}
    (settles : task.settled? = some (.back id block)) : task = .leave id block := by
  cases task with
  | leave =>
      cases settles
      rfl
  | _ => cases settles

theorem exists_of_mem_jumpTargets {session : Session} {block : BlockId}
    (member : block ∈ session.jumpTargets program id) : ∃ stmt target blocks,
      program.stmt? id = some stmt ∧ jumpTarget? stmt = some target ∧
      session.annotations.loopOf target = .ok blocks ∧ block = blocks.jumpTarget stmt := by
  unfold Session.jumpTargets at member
  split at member
  · rename_i target known
    cases found : session.annotations.loopOf target with
    | error error =>
        rw [found] at member
        cases member
    | ok blocks =>
        rw [found] at member
        exact ⟨_, target, blocks, known, rfl, found, List.mem_singleton.mp member⟩
  · rename_i target known
    cases found : session.annotations.loopOf target with
    | error error =>
        rw [found] at member
        cases member
    | ok blocks =>
        rw [found] at member
        exact ⟨_, target, blocks, known, rfl, found, List.mem_singleton.mp member⟩
  · cases member

theorem Task.targets_of_ne_jump {task : Task} {session : Session} {block : BlockId}
    (noJump : ∀ id, task ≠ .jump id) (member : block ∈ task.targets program session) : ∃ id,
      task.stmt? = some id ∧ block ∈ task.blocks ∧ task.construct? program = some id := by
  cases task with
  | jump id => exact absurd rfl (noJump id)
  | loop id | test id | enter id | leave id => exact ⟨id, rfl, member, rfl⟩
  | _ => cases member

/-! ## Reaching the loop -/

/-- What a run that comes to its end tells: everything that a step refers to has been done, and what
it gives rise to is done. -/
structure Recounted (program : Program) (first : Session) (events : List Event) (last : Session) :
    Prop where
  recorded : Recorded program first events last
  backed : ∀ event ∈ events, event.task.Backed program True (Performed events event.function)
  closes : ∀ event ∈ events, ∀ due, event.task.due? = some due →
    Settled events event.function due

section Recounted

variable (recounted : Recounted program first events last)
include recounted

/-- The blocks of a loop that a step refers to have been created for it. -/
theorem Recounted.created {function : Option String}
    (begun : Performed events function (.loop id blocks)) : ∃ loop,
      program.stmt? id = some loop ∧ blocks.Created (Performed events function) id loop := by
  rcases begun with ⟨event, member, isLoop, same⟩
  rw [← same]
  exact (recounted.backed event member).loops id blocks isLoop

theorem Recounted.jumps (member : event ∈ events) (isJump : event.task = .jump id)
    (known : program.stmt? id = some stmt) (leads : jumpTarget? stmt = some target) :
    ∃ name blocks loop, event.function = some name ∧
      event.before.annotations.loopOf target = .ok blocks ∧ program.stmt? target = some loop ∧
      blocks.Created (Performed events (some name)) target loop ∧
      (event.before.cursor.isLive = true →
        event.JumpsLive last.cursor.module name (blocks.jumpTarget stmt)) := by
  rcases recounted.recorded.stands member with ⟨name, stands⟩
  rcases (recounted.backed event member).jumps id stmt target trivial isJump known leads with
    ⟨blocks, begun⟩
  have performs := stands.performs
  have retains := performs.retains.trans stands.retains
  rw [isJump] at performs
  obtain ⟨task, before, after⟩ := event
  dsimp only at performs retains isJump begun ⊢
  cases performs with
  | @jump _ terminator _ place builds jumps =>
      have inside : (Event.mk task before
          (before.put name (place.ready.terminate terminator))).function = some name := by
        rw [Event.function, builds.position]
      rw [inside] at begun
      rcases jumps.toLoop known leads with ⟨others, knows, rfl⟩
      cases recounted.recorded.blocks_unique begun knows retains
      rcases recounted.created begun with ⟨loop, isLoop, created⟩
      refine ⟨name, blocks, loop, inside, knows, isLoop, created, fun live => ?_⟩
      rcases recounted.recorded.endsBy_live stands builds (builds.put _) live rfl
        (fun here block isHere found isOpen _ => by
          rw [ready_of_isOpen isOpen]
          exact block?_terminate isHere found _) with ⟨here, isHere, ends⟩
      exact ⟨here, isHere, ends, ends.laysOut recounted.recorded.verified (List.mem_singleton_self _)⟩

theorem Recounted.enters (member : event ∈ events) {block : BlockId} {closing : Bool}
    (isEnter : event.task = .enter id block closing) (live : event.before.cursor.isLive = true) :
    ∃ name, event.function = some name ∧ event.JumpsLive last.cursor.module name block := by
  rcases recounted.recorded.stands member with ⟨name, stands⟩
  have performs := stands.performs
  rw [isEnter] at performs
  obtain ⟨task, before, after⟩ := event
  dsimp only at performs
  cases performs with
  | enter builds enters =>
      have entered := Place.enters_of_tryEnter enters
      rcases recounted.recorded.endsBy_live stands builds (builds.put _) live rfl
        (fun here found isHere known isOpen laidOut =>
          block?_enter entered isHere known isOpen laidOut) with ⟨here, isHere, ends⟩
      refine ⟨name, by rw [Event.function, builds.position], here, isHere, ends, ?_⟩
      exact ends.laysOut recounted.recorded.verified (List.mem_singleton_self _)

theorem Recounted.leaves (member : event ∈ events) {block : BlockId}
    (isLeave : event.task = .leave id block) (live : event.before.cursor.isLive = true) :
    ∃ name, event.function = some name ∧ event.JumpsLive last.cursor.module name block := by
  rcases recounted.recorded.stands member with ⟨name, stands⟩
  have performs := stands.performs
  rw [isLeave] at performs
  obtain ⟨task, before, after⟩ := event
  dsimp only at performs
  cases performs with
  | leave builds =>
      rcases recounted.recorded.endsBy_live stands builds (builds.put _) live rfl
        (fun here found isHere known isOpen _ => block?_leaveTo isHere known isOpen block)
        with ⟨here, isHere, ends⟩
      refine ⟨name, by rw [Event.function, builds.position], here, isHere, ends, ?_⟩
      exact ends.laysOut recounted.recorded.verified (List.mem_singleton_self _)

theorem Recounted.once {function : Option String} {label otherLabel : String} {block : BlockId}
    (created : Performed events function (.create id label block))
    (createdToo : Performed events function (.create target otherLabel block)) : id = target := by
  rcases created with ⟨event, member, isCreate, inside⟩
  rcases createdToo with ⟨other, memberToo, isCreateToo, insideToo⟩
  have same := recounted.recorded.created_once member memberToo isCreate isCreateToo
    (inside.trans insideToo.symm)
  rw [same, isCreateToo] at isCreate
  cases isCreate
  rfl

theorem Recounted.entered {function : Option String} {label : String} {block : BlockId}
    (created : Performed events function (.create id label block)) :
    ∃ closing, Performed events function (.enter id block closing) := by
  have isCreated := created
  rcases created with ⟨event, member, isCreate, rfl⟩
  rcases recounted.closes event member (.entry block) (by rw [isCreate]; rfl) with
    ⟨entry, memberToo, settles, inside⟩
  rcases exists_of_settled?_entry settles with ⟨other, closing, isEnter⟩
  rcases (recounted.backed entry memberToo).blocks other (by rw [isEnter]; rfl) block
    (by rw [isEnter]; exact List.mem_singleton_self _) with ⟨otherLabel, createdToo⟩
  rw [inside] at createdToo
  cases recounted.once isCreated createdToo
  exact ⟨closing, entry, memberToo, isEnter, inside⟩

/-- The block of the updates ends by a jump to the condition, if it is laid out in the end. -/
theorem Recounted.updateLeads (begun : Performed events (some name) (.loop id blocks))
    (left : Performed events (some name) (.leave id blocks.condition)) {update : BlockId}
    (isUpdate : blocks.update = some update) (laysOut : last.cursor.module.LaysOut name update) :
    last.cursor.module.EndsBy name update (.jump blocks.condition) := by
  rcases recounted.created begun with ⟨loop, known, created⟩
  rcases left with ⟨event, member, isLeave, inside⟩
  rcases recounted.recorded.stands member with ⟨here, stands⟩
  rcases stands.orderly.leaves id _ loop isLeave known created.isLoop with ⟨others, knows, _, fills⟩
  have performs := stands.performs
  cases recounted.recorded.blocks_unique begun knows (performs.retains.trans stands.retains)
  rcases fills update isUpdate with ⟨there, place, builds, filled⟩
  rw [Event.function, builds.position] at inside
  cases inside
  rw [isLeave] at performs
  obtain ⟨task, before, after⟩ := event
  dsimp only at performs builds
  cases performs with
  | leave buildsToo =>
      cases builds.name_unique buildsToo
      cases builds.unique buildsToo
      rcases filled.stands with missing | ⟨isHere, isOpen⟩
      · -- A block that has been dropped is not laid out in the end.
        have grows := (stands.performs.grows stands.orderly stands.numbers).trans stands.grows
        rcases recounted.recorded.exists_block laysOut with ⟨function, final, known, _, found⟩
        rcases grows _ place builds.placeIn? with ⟨next, foundNext, becomes⟩
        rw [Session.placeIn?, known] at foundNext
        cases foundNext
        rcases becomes.blocks update final filled.old found with ⟨before, foundBefore, _⟩
        rw [missing] at foundBefore
        cases foundBefore
      · rcases Place.exists_of_isOpen isOpen with ⟨other, block, isOther, found, _⟩
        rw [isHere] at isOther
        cases isOther
        exact stands.endsBy recounted.recorded builds (builds.put _) found
          (block?_leaveTo isHere found isOpen _) rfl laysOut

/-- An edge leads to a block of the construct that has given rise to it. -/
theorem Recounted.edgeFrom (bare : ∀ name target, ¬ first.HasEdge name target) {block : BlockId}
    (edge : last.HasEdge name block) : ∃ event ∈ events, ∃ id label, event.function = some name ∧
      event.task.construct? program = some id ∧ block ∈ event.task.targets program event.before ∧
      Performed events (some name) (.create id label block) := by
  rcases recounted.recorded.path.edges edge with early | ⟨event, member, inside, leads⟩
  · exact (bare name block early).elim
  · by_cases isJump : ∃ id, event.task = .jump id
    · rcases isJump with ⟨id, isJump⟩
      have targets := leads
      rw [isJump] at targets
      rcases exists_of_mem_jumpTargets targets with ⟨stmt, target, blocks, known, jumps, knows, rfl⟩
      rcases recounted.jumps member isJump known jumps with
        ⟨there, others, loop, insideToo, knowsToo, _, created, _⟩
      rw [knows] at knowsToo
      cases knowsToo
      rw [inside] at insideToo
      cases insideToo
      rcases created.jumpTarget stmt with ⟨label, isCreated⟩
      refine ⟨event, member, target, label, inside, ?_, leads, isCreated⟩
      rw [isJump, Task.construct?, known]
      exact jumps
    · rcases Task.targets_of_ne_jump (fun id same => isJump ⟨id, same⟩) leads with
        ⟨id, isStmt, own, isConstruct⟩
      rcases (recounted.backed event member).blocks id isStmt block own with ⟨label, created⟩
      rw [inside] at created
      exact ⟨event, member, id, label, inside, isConstruct, leads, created⟩

theorem Recounted.reachesOwnLoops (bare : ∀ name target, ¬ first.HasEdge name target) :
    ReachesOwnLoops program events last.cursor.module where
  breaks event member id target isJump known live := by
    rcases recounted.jumps member isJump known rfl with
      ⟨name, blocks, loop, inside, _, isLoop, created, reaches⟩
    exact ⟨name, loop, blocks.exit, inside, isLoop, created.isLoop, created.exit, reaches live⟩
  continues event member id target isJump known live := by
    rcases recounted.jumps member isJump known rfl with
      ⟨name, blocks, loop, inside, _, isLoop, created, reaches⟩
    exact ⟨name, loop, blocks.continueTarget, inside, isLoop, created.isLoop,
      created.continueTarget, reaches live⟩
  loops event member id blocks isBegun := by
    rcases Option.isSome_iff_exists.mp (recounted.recorded.loopOf member isBegun).1 with
      ⟨name, inside⟩
    have begun : Performed events (some name) (.loop id blocks) := ⟨event, member, isBegun, inside⟩
    rcases recounted.created begun with ⟨loop, known, created⟩
    have left : Performed events (some name) (.leave id blocks.condition) := by
      rcases recounted.closes event member (.back id blocks.condition) (by rw [isBegun]; rfl) with
        ⟨leave, memberToo, settles, insideToo⟩
      exact ⟨leave, memberToo, eq_leave_of_settled? settles, insideToo.trans inside⟩
    refine ⟨name, loop, inside, known, created, left, fun update isUpdate => ⟨?_, ?_⟩⟩
    · exact recounted.entered (created.update isUpdate)
    · exact recounted.updateLeads begun left isUpdate
  ends event member id target live leads := by
    rcases leads with isLeave | ⟨closing, isEnter⟩
    · exact recounted.leaves member isLeave live
    · exact recounted.enters member isEnter live
  own event member id isStmt block used :=
    (recounted.backed event member).blocks id isStmt block used
  once event member other memberToo id otherId label otherLabel block isCreate isCreateToo same :=
    recounted.once ⟨event, member, isCreate, rfl⟩ ⟨other, memberToo, isCreateToo, same.symm⟩
  edges name function here block target known _ found edge :=
    recounted.edgeFrom bare
      ⟨⟨function.body, last.blockIn name⟩, Option.map_eq_some_iff.mpr ⟨function, known, rfl⟩, here,
        block, found, edge⟩

end Recounted

end Loops

/-! ## Runs that come to their end -/

theorem bare_start {program : Program} {options : Options} {declared : Code.Module}
    (declares : declareAll program options = .ok declared) (name : String) (target : BlockId) :
    ¬ (Session.start (.ofModule declared)).HasEdge name target := by
  rintro ⟨place, found, id, block, known, _⟩
  rcases Option.map_eq_some_iff.mp found with ⟨function, isFunction, rfl⟩
  rcases holds_declareAll declares with ⟨signatures, _, ⟨_, holds⟩, _⟩
  rcases (holds name function).mp isFunction with ⟨signature, _, _, rfl⟩
  cases known

/-- The history of a run that comes to its end, where all jumps name loops around them. -/
theorem recounted_history {program : Program} {options : Options} {module : Code.Module}
    (lowers : lowerProgram program options = .ok module)
    (enclosed : Enclosed program (occurrencesIn program))
    (numbered : Numbered (history program options)) : ∃ declared last,
      declareAll program options = .ok declared ∧ last.cursor.module = module ∧
        Recounted program (.start (.ofModule declared)) (history program options) last := by
  rcases history_stretch lowers fun _ : True => enclosed with
    ⟨declared, last, declares, stretch, rfl, verified⟩
  have tidily := stretch.tidily numbered (sound_start declares)
  refine ⟨declared, last, declares, rfl,
    ⟨stretch.path, numbered, tidily.orderly, tidily.sound, verified⟩, fun event member => ?_,
    fun event member due isDue => ?_⟩
  · exact (stretch.backed event member).mono fun task done => done.elim id fun before => before.2.elim
  · rcases stretch.closes event member due isDue with settled | ⟨_, owed⟩
    · exact settled
    · cases owed

/-- However loops are nested, jumps reach their own loop. -/
theorem loops_keep_their_jumps {program : Program} {options : Options} {module : Code.Module}
    (lowers : lowerProgram program options = .ok module)
    (enclosed : Enclosed program (occurrencesIn program))
    (numbered : Numbered (history program options)) :
    ReachesOwnLoops program (history program options) module := by
  rcases recounted_history lowers enclosed numbered with ⟨declared, last, declares, rfl, recounted⟩
  exact recounted.reachesOwnLoops (bare_start declares)

/-- A loop with updates in another loop. Its body leaves the outer loop or continues the inner one. -/
def nestedProgram : Program where
  filename := "nested"
  items := [⟨0⟩]
  stmts := #[.whileLoop ⟨0⟩ ⟨1⟩, .forLoop (.exprs []) none [⟨1⟩] ⟨2⟩,
    .ifThenElse ⟨2⟩ ⟨3⟩ (some ⟨4⟩), .breakLoop ⟨0⟩, .continueLoop ⟨1⟩]
  exprs := #[⟨.booleanLiteral true, .boolean⟩, ⟨.integerLiteral 1, .integer⟩,
    ⟨.booleanLiteral false, .boolean⟩]
  vars := #[]
  functions := #[]

theorem nested_accepted : (lowerProgram nestedProgram .default).toBool = true ∧
    Enclosed nestedProgram (occurrencesIn nestedProgram) ∧
    (∀ event ∈ history nestedProgram .default, event.before.hasNumbers = true) ∧
    ∃ event ∈ history nestedProgram .default, event.task = .jump ⟨3⟩ ∧
      event.before.cursor.isLive = true := by decide +kernel

theorem nestedProgram_breaks_outer_loop : ∃ module,
    lowerProgram nestedProgram .default = .ok module ∧
      Enclosed nestedProgram (occurrencesIn nestedProgram) ∧
      Numbered (history nestedProgram .default) ∧
      ReachesOwnLoops nestedProgram (history nestedProgram .default) module ∧
      ∃ event ∈ history nestedProgram .default, ∃ name exit, event.task = .jump ⟨3⟩ ∧
        Performed (history nestedProgram .default) (some name) (.create ⟨0⟩ "while.end" exit) ∧
        event.JumpsLive module name exit := by
  rcases nested_accepted with ⟨accepted, enclosed, numbered, event, member, isJump, live⟩
  cases lowers : lowerProgram nestedProgram .default with
  | error error =>
      rw [lowers] at accepted
      cases accepted
  | ok module =>
      have reaches := loops_keep_their_jumps lowers enclosed numbered
      rcases reaches.breaks event member ⟨3⟩ ⟨0⟩ isJump rfl live with
        ⟨name, loop, exit, _, isKnown, _, created, jumps⟩
      cases isKnown
      exact ⟨module, rfl, enclosed, numbered, reaches, event, member, name, exit, isJump, created,
        jumps⟩

end ScriptLowering.Lowering
