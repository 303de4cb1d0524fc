import ScriptLowering.Proofs.LoopExits
import ScriptLowering.Proofs.StepFootprints

/-! # Stretches of a history

What is told of a statement is a stretch of the history. The blocks that a step uses have been
created for the same statement and in the same function, and a block is entered once: between its
creation and its entry nothing comes near it.
-/

namespace ScriptLowering.Lowering

open Source (Program ExprId ForInit FuncId FunctionDecl Stmt StmtId VarId)
open Code (BlockId Operand Place)

/-! ## What steps refer to -/

/-- The function that the cursor stands in when the step is taken. -/
def Event.function (event : Event) : Option String := event.before.cursor.position.function

/-- The statement that a step belongs to. -/
def Task.stmt? : Task → Option StmtId
  | .create id _ _ | .loop id _ | .test id _ _ _ | .enter id _ _ | .leave id _ | .jump id => some id
  | .start _ | .param _ _ | .expr _ | .var _ | .returnIfLive _ | .finish _ | .resume _
  | .come _ _ => none

/-- The blocks that a step of a statement uses. -/
def Task.blocks : Task → List BlockId
  | .enter _ block _ | .leave _ block => [block]
  | .loop _ blocks => blocks.condition :: blocks.exit :: blocks.update.toList
  | .test _ _ thenBlock elseBlock => [thenBlock, elseBlock]
  | .create _ _ _ | .jump _ | .start _ | .param _ _ | .expr _ | .var _ | .returnIfLive _ | .finish _
  | .resume _ | .come _ _ => []

/-- Among the events there is one for the task, in the function. -/
def Performed (events : List Event) (function : Option String) (task : Task) : Prop :=
  ∃ event ∈ events, event.task = task ∧ event.function = function

/-- The blocks of a loop have been created for it. A loop without updates has no block for them. -/
def LoopBlocks.Created (blocks : LoopBlocks) (done : Task → Prop) (id : StmtId) : Stmt → Prop
  | .whileLoop _ _ => done (.create id "while.cond" blocks.condition) ∧
      done (.create id "while.end" blocks.exit) ∧ blocks.update = none
  | .forLoop _ _ updates _ => done (.create id "for.cond" blocks.condition) ∧
      done (.create id "for.end" blocks.exit) ∧ (updates = [] → blocks.update = none) ∧
      (updates ≠ [] → ∃ block, blocks.update = some block ∧ done (.create id "for.update" block))
  | _ => False

/-- What a task refers to has been done before: the blocks that it uses have been created for the
same statement, and the loop that it belongs to has been begun. If `enclosed`, so has the loop that
it jumps to. -/
structure Task.Backed (program : Program) (enclosed : Prop) (done : Task → Prop) (task : Task) :
    Prop where
  blocks : ∀ id, task.stmt? = some id → ∀ block ∈ task.blocks,
    ∃ label, done (.create id label block)
  loops : ∀ id blocks, task = .loop id blocks →
    ∃ stmt, program.stmt? id = some stmt ∧ blocks.Created done id stmt
  jumps : ∀ id stmt target, enclosed → task = .jump id → program.stmt? id = some stmt →
    jumpTarget? stmt = some target → ∃ blocks, done (.loop target blocks)

theorem LoopBlocks.Created.mono {blocks : LoopBlocks} {done more : Task → Prop} {id : StmtId}
    {stmt : Stmt} (created : blocks.Created done id stmt)
    (within : ∀ task, done task → more task) : blocks.Created more id stmt := by
  cases stmt with
  | whileLoop => exact ⟨within _ created.1, within _ created.2.1, created.2.2⟩
  | forLoop =>
      refine ⟨within _ created.1, within _ created.2.1, created.2.2.1, fun some => ?_⟩
      rcases created.2.2.2 some with ⟨block, same, done⟩
      exact ⟨block, same, within _ done⟩
  | _ => exact created

theorem Task.Backed.mono {program : Program} {enclosed : Prop} {done more : Task → Prop}
    {task : Task} (backed : task.Backed program enclosed done)
    (within : ∀ task, done task → more task) : task.Backed program enclosed more where
  blocks id own block member :=
    (backed.blocks id own block member).imp fun _ created => within _ created
  loops id blocks same :=
    (backed.loops id blocks same).imp fun _ facts => ⟨facts.1, facts.2.mono within⟩
  jumps id stmt target isEnclosed same known jumps :=
    (backed.jumps id stmt target isEnclosed same known jumps).imp fun _ done => within _ done

theorem Task.Backed.of_blocks_eq_nil {program : Program} {enclosed : Prop} {done : Task → Prop}
    {task : Task} (none : task.blocks = []) (noJump : ∀ id, task ≠ .jump id) :
    task.Backed program enclosed done where
  blocks id own block member := by rw [none] at member; cases member
  loops id blocks same := by rw [same] at none; cases none
  jumps id stmt target _ same := absurd same (noJump id)

/-- What is still to be done in a function. -/
inductive Due where
  | entry (block : BlockId)
  /-- A loop is to be left for its condition. -/
  | back (id : StmtId) (condition : BlockId)

/-- A block that is created is to be entered, and a loop that is begun to be left. -/
def Task.due? : Task → Option Due
  | .create _ _ block => some (.entry block)
  | .loop id blocks => some (.back id blocks.condition)
  | .start _ | .param _ _ | .expr _ | .var _ | .test _ _ _ _ | .enter _ _ _ | .leave _ _ | .jump _
  | .returnIfLive _ | .finish _ | .resume _
  | .come _ _ => none

def Task.settled? : Task → Option Due
  | .enter _ block _ => some (.entry block)
  | .leave id target => some (.back id target)
  | .start _ | .param _ _ | .expr _ | .var _ | .create _ _ _ | .loop _ _ | .test _ _ _ _ | .jump _
  | .returnIfLive _ | .finish _ | .resume _
  | .come _ _ => none

/-- The step neither works on blocks nor goes back to another function. -/
def Task.isPlain : Task → Bool
  | .start _ | .param _ _ | .expr _ | .var _ | .returnIfLive _ | .finish _ | .come _ _ => true
  | .create _ _ _ | .loop _ _ | .test _ _ _ _ | .enter _ _ _ | .leave _ _ | .jump _ | .resume _ =>
      false

section Plain

variable {task : Task} (plain : task.isPlain = true)
include plain

theorem Task.ne_of_isPlain {other : Task} (special : other.isPlain = false) : task ≠ other := by
  rintro rfl
  rw [plain] at special
  cases special

theorem Task.not_uses_of_isPlain (session : Session) (name : String) (block : BlockId) :
    ¬ task.Uses session name block := by
  cases task with
  | enter | resume => cases plain
  | _ => exact id

theorem Task.due?_of_isPlain {due : Due} : task.due? ≠ some due := by
  intro isDue
  cases task with
  | create | loop => cases plain
  | _ => cases isDue

theorem Task.Backed.of_isPlain {program : Program} {enclosed : Prop} {done : Task → Prop} :
    task.Backed program enclosed done := by
  refine .of_blocks_eq_nil ?_ fun id => Task.ne_of_isPlain plain rfl
  cases task with
  | loop | test | enter | leave => cases plain
  | _ => rfl

end Plain

/-! ## What is known when a step is taken -/

/-- The block of the updates of a loop is filled when the loop is left for its condition. -/
def Session.FillsUpdate (session : Session) (update : BlockId) : Prop :=
  ∃ name place, session.Builds name place ∧ place.Fills update

/-- The session knows the loop, and nothing is left to do but to go back to the condition. -/
def Session.Leaves (session : Session) (id : StmtId) (condition : BlockId) : Prop :=
  ∃ blocks, session.annotations.loopOf id = .ok blocks ∧ blocks.condition = condition ∧
    ∀ update, blocks.update = some update → session.FillsUpdate update

structure Event.Orderly (program : Program) (event : Event) : Prop where
  sound : event.before.Sound 0
  enters : ∀ id block closing, event.task = .enter id block closing →
    ∃ name, event.function = some name ∧ event.before.Spares name block
  leaves : ∀ id target stmt, event.task = .leave id target → program.stmt? id = some stmt →
    isLoop stmt = true → event.before.Leaves id target

/-- At none of the events have the numbers of blocks run out. -/
def Numbered (events : List Event) : Prop := ∀ event ∈ events, event.before.hasNumbers = true

theorem numbered_append {events more : List Event} :
    Numbered (events ++ more) ↔ Numbered events ∧ Numbered more := by
  simp only [Numbered, List.mem_append]
  exact ⟨fun all => ⟨fun event member => all event (.inl member),
    fun event member => all event (.inr member)⟩, fun both event member =>
    member.elim (both.1 event) (both.2 event)⟩

def UsedIn (events : List Event) (name : String) (block : BlockId) : Prop :=
  ∃ event ∈ events, event.task.Uses event.before name block

/-- What holds of a stretch as long as the numbers last. -/
structure Tidily (program : Program) (first : Session) (events : List Event) (last : Session) :
    Prop where
  sound : last.Sound 0
  orderly : ∀ event ∈ events, event.Orderly program
  apart : ∀ name block, UsedIn events name block → ¬ first.Spares name block
  becomes : first.Becomes (UsedIn events) last

/-- Among the events there is one that does what is due, in the function. -/
def Settled (events : List Event) (function : Option String) (due : Due) : Prop :=
  ∃ event ∈ events, event.task.settled? = some due ∧ event.function = function

/-- A stretch of the history in the function `name`, where some things have been done before. What
it gives rise to is done, apart from what is still owed. -/
structure Stretch (program : Program) (enclosed : Prop) (owed : List Due) (name : String)
    (past : Task → Prop) (first : Session) (events : List Event) (last : Session) : Prop where
  path : Path program first events last
  stands : ∃ place, last.Builds name place
  backed : ∀ event ∈ events, event.task.Backed program enclosed fun task =>
    Performed events event.function task ∨ event.function = some name ∧ past task
  closes : ∀ event ∈ events, ∀ due, event.task.due? = some due →
    Settled events event.function due ∨ event.function = some name ∧ due ∈ owed
  tidily : Numbered events → first.Sound 0 → Tidily program first events last

section Basics

variable {program : Program} {enclosed : Prop} {owed : List Due} {name : String}
  {past more : Task → Prop} {first middle last : Session} {events others : List Event}

theorem Session.Spares.becomes {used : String → BlockId → Prop} {block : BlockId}
    (spares : first.Spares name block) (becomes : first.Becomes used last)
    (unused : ¬ used name block) : last.Spares name block := by
  rcases spares with ⟨place, found, spares⟩
  rcases becomes name place found with ⟨after, foundAfter, becomes⟩
  exact ⟨after, foundAfter, becomes.spares block unused spares⟩

theorem Tidily.spares (tidily : Tidily program first events last) {block : BlockId}
    (spares : first.Spares name block) : last.Spares name block :=
  spares.becomes tidily.becomes fun used => tidily.apart name block used spares

theorem Tidily.nil (program : Program) (sound : first.Sound 0) : Tidily program first [] first where
  sound := sound
  orderly _ member := by cases member
  apart := by
    rintro name block ⟨event, member, _⟩
    cases member
  becomes := .refl _ first

theorem usedIn_append {block : BlockId} :
    UsedIn (events ++ others) name block ↔ UsedIn events name block ∨ UsedIn others name block := by
  simp only [UsedIn, List.mem_append, or_and_right, exists_or]

theorem Tidily.append (early : Tidily program first events middle)
    (late : Tidily program middle others last) :
    Tidily program first (events ++ others) last where
  sound := late.sound
  orderly event member := (List.mem_append.mp member).elim (early.orderly event)
    (late.orderly event)
  apart name block used spares := by
    rcases usedIn_append.mp used with usedEarly | usedLate
    · exact early.apart name block usedEarly spares
    · exact late.apart name block usedLate (early.spares spares)
  becomes := (early.becomes.mono fun _ _ used => usedIn_append.mpr (.inl used)).trans
    (late.becomes.mono fun _ _ used => usedIn_append.mpr (.inr used))

theorem Performed.append_left {function : Option String} {task : Task}
    (performed : Performed events function task) :
    Performed (events ++ others) function task :=
  performed.imp fun _ facts => ⟨List.mem_append_left _ facts.1, facts.2⟩

theorem Performed.append_right {function : Option String} {task : Task}
    (performed : Performed others function task) :
    Performed (events ++ others) function task :=
  performed.imp fun _ facts => ⟨List.mem_append_right _ facts.1, facts.2⟩

theorem Settled.append_left {function : Option String} {due : Due}
    (settled : Settled events function due) : Settled (events ++ others) function due :=
  settled.imp fun _ facts => ⟨List.mem_append_left _ facts.1, facts.2⟩

theorem Settled.append_right {function : Option String} {due : Due}
    (settled : Settled others function due) : Settled (events ++ others) function due :=
  settled.imp fun _ facts => ⟨List.mem_append_right _ facts.1, facts.2⟩

namespace Stretch

theorem nil {place : Place} (builds : first.Builds name place) :
    Stretch program enclosed owed name past first [] first where
  path := .nil
  stands := ⟨place, builds⟩
  backed _ member := by cases member
  closes _ member := by cases member
  tidily _ sound := .nil program sound

/-- One stretch behind the other, which may refer to what has been done in the first one. -/
theorem append (early : Stretch program enclosed owed name past first events middle)
    (late : Stretch program enclosed [] name more middle others last)
    (covers : ∀ task, more task → past task ∨ Performed events (some name) task) :
    Stretch program enclosed owed name past first (events ++ others) last where
  path := early.path.append late.path
  stands := late.stands
  backed event member := by
    rcases List.mem_append.mp member with isEarly | isLate
    · refine (early.backed event isEarly).mono fun task => ?_
      exact Or.imp_left Performed.append_left
    · refine (late.backed event isLate).mono fun task done => ?_
      rcases done with performed | ⟨inside, isPast⟩
      · exact .inl performed.append_right
      · rcases covers task isPast with before | performed
        · exact .inr ⟨inside, before⟩
        · exact .inl (inside ▸ performed.append_left)
  closes event member due isDue := by
    rcases List.mem_append.mp member with isEarly | isLate
    · exact (early.closes event isEarly due isDue).imp_left Settled.append_left
    · rcases late.closes event isLate due isDue with settled | ⟨_, isOwed⟩
      · exact .inl settled.append_right
      · cases isOwed
  tidily numbered sound := by
    have numbers := numbered_append.mp numbered
    have begins := early.tidily numbers.1 sound
    exact begins.append (late.tidily numbers.2 begins.sound)

theorem retains (stretch : Stretch program enclosed owed name past first events last) :
    first.Retains last :=
  stretch.path.retains

theorem owe (stretch : Stretch program enclosed owed name past first events last) {others : List Due}
    (covers : ∀ due ∈ owed, due ∈ others ∨ Settled events (some name) due) :
    Stretch program enclosed others name past first events last := by
  refine { stretch with closes := fun event member due isDue => ?_ }
  rcases stretch.closes event member due isDue with settled | ⟨inside, isOwed⟩
  · exact .inl settled
  · rcases covers due isOwed with remains | settled
    · exact .inr ⟨inside, remains⟩
    · exact .inl (inside ▸ settled)

theorem extend (early : Stretch program enclosed owed name past first events middle) {task : Task}
    (performs : task.Performs program name middle last)
    (stays : ∀ position, task ≠ .resume position)
    (backed : task.Backed program enclosed fun task =>
      past task ∨ Performed events (some name) task)
    (isOwed : ∀ due, task.due? = some due → due ∈ owed)
    (tidily : Numbered events → first.Sound 0 → middle.hasNumbers = true →
      Tidily program first events middle →
        Tidily program first (events ++ [⟨task, middle, last⟩]) last) :
    Stretch program enclosed owed name past first (events ++ [⟨task, middle, last⟩]) last where
  path := early.path.append (.single performs)
  stands := performs.stands stays
  backed event member := by
    rcases List.mem_append.mp member with isEarly | isLate
    · refine (early.backed event isEarly).mono fun task => ?_
      exact Or.imp_left Performed.append_left
    · cases List.mem_singleton.mp isLate
      rcases early.stands with ⟨place, builds⟩
      have inside : (Event.mk task middle last).function = some name := by
        rw [Event.function, builds.position]
      refine backed.mono fun other done => ?_
      rw [inside]
      exact done.elim (fun before => .inr ⟨rfl, before⟩) fun performed => .inl performed.append_left
  closes event member due isDue := by
    rcases List.mem_append.mp member with isEarly | isLate
    · exact (early.closes event isEarly due isDue).imp_left Settled.append_left
    · cases List.mem_singleton.mp isLate
      rcases early.stands with ⟨place, builds⟩
      refine .inr ⟨?_, isOwed due isDue⟩
      rw [Event.function, builds.position]
  tidily numbered sound := by
    have numbers := numbered_append.mp numbered
    exact tidily numbers.1 sound (numbers.2 _ (List.mem_singleton_self _))
      (early.tidily numbers.1 sound)

end Stretch

theorem Tidily.single {task : Task} (performs : task.Performs program name first last)
    (sound : first.Sound 0) (numbers : first.hasNumbers = true)
    (quiet : ∀ other block, ¬ task.Uses first other block)
    (entersNothing : ∀ id block closing, task ≠ .enter id block closing)
    (stays : ∀ position, task ≠ .resume position)
    (leaves : ∀ id target stmt, task = .leave id target → program.stmt? id = some stmt →
      isLoop stmt = true → first.Leaves id target) :
    Tidily program first [⟨task, first, last⟩] last := by
  have follows := performs.follows (sound.refill numbers)
    (fun id block closing same => absurd same (entersNothing id block closing)) stays
  refine ⟨follows.sound, fun event member => ?_, ?_, follows.becomes.mono fun other block uses => ?_⟩
  · cases List.mem_singleton.mp member
    exact ⟨sound, fun id block closing same => absurd same (entersNothing id block closing), leaves⟩
  · rintro other block ⟨event, member, uses⟩
    cases List.mem_singleton.mp member
    exact absurd uses (quiet other block)
  · exact absurd uses (quiet other block)

theorem Tidily.plain {task : Task} (plain : task.isPlain = true)
    (performs : task.Performs program name first last) (sound : first.Sound 0)
    (numbers : first.hasNumbers = true) : Tidily program first [⟨task, first, last⟩] last :=
  .single performs sound numbers (Task.not_uses_of_isPlain plain first)
    (fun _ _ _ => Task.ne_of_isPlain plain rfl) (fun _ => Task.ne_of_isPlain plain rfl)
    fun _ _ _ same => absurd same (Task.ne_of_isPlain plain rfl)

theorem Tidily.enter (early : Tidily program first events middle) {id : StmtId} {block : BlockId}
    {closing : Bool} (numbers : middle.hasNumbers = true)
    (performs : (Task.enter id block closing).Performs program name middle last)
    (inside : middle.cursor.position.function = some name) (waits : middle.Spares name block)
    (new : ¬ first.Spares name block) :
    Tidily program first (events ++ [⟨.enter id block closing, middle, last⟩]) last := by
  have follows := performs.follows (early.sound.refill numbers)
    (fun _ _ _ same => by cases same; exact waits) nofun
  refine ⟨follows.sound, fun event member => ?_, fun other used isUsed => ?_, ?_⟩
  · rcases List.mem_append.mp member with isEarly | isLate
    · exact early.orderly event isEarly
    · cases List.mem_singleton.mp isLate
      refine ⟨early.sound, ?_, nofun⟩
      rintro _ _ _ ⟨⟩
      exact ⟨name, inside, waits⟩
  · rcases usedIn_append.mp isUsed with usedEarly | ⟨event, member, uses⟩
    · exact early.apart other used usedEarly
    · cases List.mem_singleton.mp member
      rcases uses with ⟨here, rfl⟩
      rw [inside] at here
      cases here
      exact new
  · refine (early.becomes.mono fun _ _ used => usedIn_append.mpr (.inl used)).trans
      (follows.becomes.mono fun _ _ used => usedIn_append.mpr (.inr ?_))
    exact ⟨_, List.mem_singleton_self _, used⟩

end Basics

/-! ## In the middle of a statement -/

/-- The blocks that wait are to be entered, and the loops that have been begun to be left. -/
def owing (waits : List BlockId) (begun : List (StmtId × LoopBlocks)) : List Due :=
  waits.map .entry ++ begun.map fun loop => .back loop.1 loop.2.condition

/-- Part of a statement has been told: the tasks in `made` have been done, and the blocks in `waits`
have been created and not been entered. -/
structure Progress (program : Program) (enclosed : Prop) (begun : List (StmtId × LoopBlocks))
    (name : String) (past : Task → Prop) (first : Session) (made : Task → Prop) (waits : List BlockId) (events : List Event)
    (session : Session) : Prop where
  stretch : Stretch program enclosed (owing waits begun) name past first events session
  since : ∀ task, past task → made task
  done : ∀ task, made task → past task ∨ Performed events (some name) task
  waiting : Numbered events → first.Sound 0 → ∀ block ∈ waits,
    session.Spares name block ∧ ¬ first.Spares name block
  distinct : Numbered events → first.Sound 0 → waits.Nodup

namespace Progress

variable {program : Program} {enclosed : Prop} {begun : List (StmtId × LoopBlocks)}
  {name : String} {past made : Task → Prop}
  {first session next : Session} {waits : List BlockId} {events others : List Event}

theorem of_stretch (stretch : Stretch program enclosed [] name past first events session) :
    Progress program enclosed [] name past first past [] events session where
  stretch := stretch
  since _ := id
  done _ := .inl
  waiting _ _ _ member := by cases member
  distinct _ _ := List.nodup_nil

theorem start {place : Place} (builds : first.Builds name place) :
    Progress program enclosed [] name past first past [] [] first :=
  .of_stretch (.nil builds)

theorem inside (progress : Progress program enclosed begun name past first made waits events session) :
    session.cursor.position.function = some name := by
  rcases progress.stretch.stands with ⟨place, builds⟩
  rw [builds.position]

theorem perm (progress : Progress program enclosed begun name past first made waits events session)
    {reordered : List BlockId} (same : waits.Perm reordered) :
    Progress program enclosed begun name past first made reordered events session :=
  { progress with
    stretch := progress.stretch.owe fun _ isOwed => .inl <|
      (List.mem_append.mp isOwed).elim
        (fun isEntry => List.mem_append_left _ ((same.map _).mem_iff.mp isEntry))
        fun isBack => List.mem_append_right _ isBack
    waiting := fun numbered sound block member =>
      progress.waiting numbered sound block (same.mem_iff.mpr member)
    distinct := fun numbered sound => same.nodup_iff.mp (progress.distinct numbered sound) }

theorem begin (progress : Progress program enclosed begun name past first made waits events session)
    (loop : StmtId × LoopBlocks) :
    Progress program enclosed (loop :: begun) name past first made waits events session :=
  { progress with
    stretch := progress.stretch.owe fun _ isOwed => .inl <|
      (List.mem_append.mp isOwed).elim (List.mem_append_left _)
        fun isBack => List.mem_append_right _ (List.mem_cons_of_mem _ isBack) }

theorem close {loop : StmtId} {blocks : LoopBlocks}
    (progress : Progress program enclosed ((loop, blocks) :: begun) name past first made waits events
      session) (leaves : Settled events (some name) (.back loop blocks.condition)) :
    Progress program enclosed begun name past first made waits events session := by
  refine { progress with stretch := progress.stretch.owe fun due isOwed => ?_ }
  rcases List.mem_append.mp isOwed with isEntry | isBack
  · exact .inl (List.mem_append_left _ isEntry)
  · rcases List.mem_cons.mp isBack with rfl | isBack
    · exact .inr leaves
    · exact .inl (List.mem_append_right _ isBack)

theorem behind (progress : Progress program enclosed begun name past first made waits events session)
    (stretch : Stretch program enclosed [] name made session others next) :
    Progress program enclosed begun name past first made waits (events ++ others) next where
  stretch := progress.stretch.append stretch progress.done
  since := progress.since
  done task isMade := (progress.done task isMade).imp_right Performed.append_left
  waiting numbered sound block member := by
    have numbers := numbered_append.mp numbered
    have begins := progress.stretch.tidily numbers.1 sound
    rcases progress.waiting numbers.1 sound block member with ⟨spares, new⟩
    exact ⟨(stretch.tidily numbers.2 begins.sound).spares spares, new⟩
  distinct numbered := progress.distinct (numbered_append.mp numbered).1

theorem stretch_step (progress : Progress program enclosed begun name past first made waits events
      session) {task : Task} (performs : task.Performs program name session next)
    (quiet : ∀ other block, ¬ task.Uses session other block)
    (entersNothing : ∀ id block closing, task ≠ .enter id block closing)
    (stays : ∀ position, task ≠ .resume position) (backed : task.Backed program enclosed made)
    {owed : List Due} (more : owing waits begun ⊆ owed)
    (isOwed : ∀ due, task.due? = some due → due ∈ owed)
    (leaves : ∀ id target stmt, task = .leave id target → program.stmt? id = some stmt →
      isLoop stmt = true → Numbered events → first.Sound 0 → session.Leaves id target) :
    Stretch program enclosed owed name past first (events ++ [⟨task, session, next⟩]) next ∧
      (Numbered (events ++ [⟨task, session, next⟩]) → first.Sound 0 → ∀ block ∈ waits,
        next.Spares name block ∧ ¬ first.Spares name block) := by
  have single (numbered : Numbered events) (sound : first.Sound 0)
      (numbers : session.hasNumbers = true) (early : Tidily program first events session) :
      Tidily program session [⟨task, session, next⟩] next :=
    .single performs early.sound numbers quiet entersNothing stays
      fun id target stmt same known loops => leaves id target stmt same known loops numbered sound
  refine ⟨(progress.stretch.owe fun due isDue => .inl (more isDue)).extend performs stays
    (backed.mono progress.done) isOwed fun numbered sound numbers early =>
      early.append (single numbered sound numbers early), ?_⟩
  intro numbered sound block member
  have numbers := numbered_append.mp numbered
  have early := progress.stretch.tidily numbers.1 sound
  rcases progress.waiting numbers.1 sound block member with ⟨spares, new⟩
  have late := single numbers.1 sound (numbers.2 _ (List.mem_singleton_self _)) early
  exact ⟨late.spares spares, new⟩

theorem done_step (progress : Progress program enclosed begun name past first made waits events
      session) (task other : Task) (isMade : made other ∨ other = task) :
    past other ∨ Performed (events ++ [⟨task, session, next⟩]) (some name) other := by
  rcases isMade with isMade | rfl
  · exact (progress.done other isMade).imp_right Performed.append_left
  · exact .inr ⟨_, List.mem_append_right _ (List.mem_singleton_self _), rfl, progress.inside⟩

theorem step (progress : Progress program enclosed begun name past first made waits events session)
    {task : Task} (performs : task.Performs program name session next)
    (quiet : ∀ other block, ¬ task.Uses session other block)
    (entersNothing : ∀ id block closing, task ≠ .enter id block closing)
    (stays : ∀ position, task ≠ .resume position) (backed : task.Backed program enclosed made)
    (isOwed : ∀ due, task.due? = some due → due ∈ owing waits begun)
    (leaves : ∀ id target stmt, task = .leave id target → program.stmt? id = some stmt →
      isLoop stmt = true → Numbered events → first.Sound 0 → session.Leaves id target) :
    Progress program enclosed begun name past first (fun other => made other ∨ other = task) waits
      (events ++ [⟨task, session, next⟩]) next := by
  have steps := progress.stretch_step performs quiet entersNothing stays backed
    (List.Subset.refl _) isOwed leaves
  exact ⟨steps.1, fun other before => .inl (progress.since other before),
    progress.done_step task, steps.2, fun numbered =>
      progress.distinct (numbered_append.mp numbered).1⟩

theorem create (progress : Progress program enclosed begun name past first made waits events session)
    {id : StmtId} {label : String} {block : BlockId}
    (performs : (Task.create id label block).Performs program name session next) :
    Progress program enclosed begun name past first
      (fun other => made other ∨ other = .create id label block) (block :: waits)
      (events ++ [⟨.create id label block, session, next⟩]) next := by
  have steps := @stretch_step program enclosed begun name past made first session next waits events
    progress _ performs (fun _ _ uses => uses) nofun nofun (.of_blocks_eq_nil rfl nofun)
    (owing (block :: waits) begun) (List.subset_cons_self _ _)
    (by rintro _ ⟨⟩; exact List.mem_cons_self) nofun
  have fresh (numbered : Numbered events) (sound : first.Sound 0)
      (numbers : session.hasNumbers = true) :
      ¬ session.Spares name block ∧ next.Spares name block := by
    have early := progress.stretch.tidily numbered sound
    cases performs with
    | @create _ _ _ place builds =>
        have here := builds.sound (early.sound.refill numbers)
        refine ⟨?_, place.create label, (builds.put _).placeIn?, ?_⟩
        · rintro ⟨other, found, spares⟩
          rw [builds.placeIn?] at found
          cases found
          exact place.not_spares_fresh spares
        · have holds : place.body.Holds [] (place.owed + 15 + 1) := here.holds
          refine Place.spares_created holds (fun stands => ?_) label
          exact Nat.lt_irrefl _ (here.standing _ stands)
  refine ⟨steps.1, fun other before => .inl (progress.since other before), progress.done_step _,
    fun numbered sound other member => ?_, fun numbered sound => ?_⟩
  · have numbers := numbered_append.mp numbered
    have isFresh := fresh numbers.1 sound (numbers.2 _ (List.mem_singleton_self _))
    rcases List.mem_cons.mp member with rfl | waits
    · exact ⟨isFresh.2, fun spares =>
        isFresh.1 ((progress.stretch.tidily numbers.1 sound).spares spares)⟩
    · exact steps.2 numbered sound other waits
  · have numbers := numbered_append.mp numbered
    have isFresh := fresh numbers.1 sound (numbers.2 _ (List.mem_singleton_self _))
    refine List.nodup_cons.mpr ⟨fun member => ?_, progress.distinct numbers.1 sound⟩
    exact isFresh.1 (progress.waiting numbers.1 sound block member).1

theorem enter {block : BlockId}
    (progress : Progress program enclosed begun name past first made (block :: waits) events session)
    {id : StmtId} {closing : Bool}
    (performs : (Task.enter id block closing).Performs program name session next)
    (created : ∃ label, made (.create id label block)) :
    Progress program enclosed begun name past first
      (fun other => made other ∨ other = .enter id block closing) waits
      (events ++ [⟨.enter id block closing, session, next⟩]) next := by
  have backed : (Task.enter id block closing).Backed program enclosed made := by
    refine ⟨?_, nofun, nofun⟩
    rintro _ ⟨⟩ other member
    cases List.mem_singleton.mp member
    exact created
  have isMine := @List.mem_cons_self _ block waits
  have extended := progress.stretch.extend performs nofun (backed.mono progress.done) nofun
    fun numbered sound numbers early => by
      rcases progress.waiting numbered sound block isMine with ⟨spares, new⟩
      exact early.enter numbers performs progress.inside spares new
  refine ⟨extended.owe fun due isOwed => ?_, fun other before => .inl (progress.since other before),
    progress.done_step _, ?_, ?_⟩
  · rcases List.mem_cons.mp isOwed with rfl | isOwed
    · exact .inr ⟨_, List.mem_append_right _ (List.mem_singleton_self _), rfl, progress.inside⟩
    · exact .inl isOwed
  · intro numbered sound other member
    have numbers := numbered_append.mp numbered
    have early := progress.stretch.tidily numbers.1 sound
    rcases progress.waiting numbers.1 sound other (List.mem_cons_of_mem _ member) with ⟨spares, new⟩
    have follows := performs.follows
      (early.sound.refill (numbers.2 _ (List.mem_singleton_self _)))
      (fun _ _ _ same => by
        cases same
        exact (progress.waiting numbers.1 sound block isMine).1) nofun
    refine ⟨spares.becomes follows.becomes fun uses => ?_, new⟩
    have distinct := List.nodup_cons.mp (progress.distinct numbers.1 sound)
    exact distinct.1 (uses.2 ▸ member)
  · intro numbered sound
    exact (List.nodup_cons.mp (progress.distinct (numbered_append.mp numbered).1 sound)).2

end Progress

end ScriptLowering.Lowering
