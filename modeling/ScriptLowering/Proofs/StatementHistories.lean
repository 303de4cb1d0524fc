import ScriptLowering.Proofs.HistoryStretches

/-! # What is told of statements

Each statement is told as a stretch of the history, and a whole program as one stretch. The proof
follows the statements and keeps in view which blocks of the statement at hand wait to be entered.
-/

namespace ScriptLowering.Lowering

open Source (Program ExprId ForInit FuncId FunctionDecl Stmt StmtId VarId)
open Code (BlockId Operand Place)

/-! ## Going on

Each rule says how a stretch goes on. -/

/-- As `Ensures`, where some events have been told before. -/
def Told.From {α : Type} (told : Told α) (events : List Event) (session : Session)
    (post : List Event → α → Session → Prop) : Prop :=
  told.Ensures session fun more value next => post (events ++ more) value next

namespace Told.From

variable {α β : Type} {told : Told α} {events : List Event} {session : Session}
  {post : List Event → α → Session → Prop}

theorem start (leads : told.From [] session post) : told.Ensures session post := leads

theorem pure {value : α} (holds : post events value session) :
    (Pure.pure value : Told α).From events session post := by
  refine Told.Ensures.pure ?_
  rw [List.append_nil]
  exact holds

theorem bind {rest : α → Told β} {last : List Event → β → Session → Prop}
    (first : told.Ensures session post)
    (second : ∀ more value next, post more value next →
      (rest value).From (events ++ more) next last) :
    (told >>= rest).From events session last := by
  refine Told.Ensures.bind first fun more value next holds => ?_
  refine (second more value next holds).mono fun others result final holds => ?_
  rw [← List.append_assoc]
  exact holds

theorem of_bind_pure (leads : (told >>= Pure.pure).From events session post) :
    told.From events session post := by
  intro more value next runs
  refine leads more value next ?_
  change Told.bind told Pure.pure session = _
  unfold Told.bind
  rw [runs]
  exact Prod.ext (List.append_nil more) rfl

theorem orFault {found : Option α} {fault : ProgramFault} {rest : α → Told β}
    {last : List Event → β → Session → Prop}
    (present : ∀ value, found = some value → (rest value).From events session last) :
    (Told.asking (Lower.orFault found fault) >>= rest).From events session last := by
  cases found with
  | none =>
      intro more value next runs
      cases congrArg Prod.snd runs
  | some value => exact present value rfl

theorem cursor {rest : Code.Cursor → Told β} {last : List Event → β → Session → Prop}
    (leads : (rest session.cursor).From events session last) :
    (Told.asking Lower.cursor >>= rest).From events session last := leads

end Told.From

section Codes

variable {program : Program} {enclosed : Prop} {name : String} {past : Task → Prop}
  {first last : Session} {events : List Event}

theorem Codes.tidily (codes : Codes program name first events last) (numbered : Numbered events)
    (sound : first.Sound 0) : Tidily program first events last := by
  have tasks := codes.tasks
  have path := codes.path
  clear codes
  induction path with
  | nil => exact .nil program sound
  | @cons _ event events last performs rest induction =>
      rcases tasks event List.mem_cons_self with ⟨id, isExpr⟩
      have numbers := numbered event List.mem_cons_self
      have single : Tidily program event.before [event] event.after :=
        .plain (by rw [isExpr]; rfl) performs sound numbers
      refine single.append (induction (fun other member => ?_) single.sound fun other member => ?_)
      · exact numbered other (List.mem_cons_of_mem _ member)
      · exact tasks other (List.mem_cons_of_mem _ member)

theorem Codes.stretch (codes : Codes program name first events last) :
    Stretch program enclosed [] name past first events last where
  path := codes.path
  stands := codes.stands
  backed event member := by
    rcases codes.tasks event member with ⟨id, isExpr⟩
    rw [isExpr]
    exact .of_isPlain rfl
  closes event member due isDue := by
    rcases codes.tasks event member with ⟨expr, isExpr⟩
    rw [isExpr] at isDue
    cases isDue
  tidily := codes.tidily

theorem Emits.staysIn {final : Session} {node : Source.ExprNode} {values : List Operand}
    {place next : Place} {value : Option Operand} {id : BlockId}
    (emits : Emits program final node values place value next)
    (stands : place.block = some id ∧ place.isOpen = true) :
    next.block = some id ∧ next.isOpen = true := by
  let keeps (place : Place) : Prop := place.block = some id ∧ place.isOpen = true
  have add (place : Place) (instruction : Code.Instruction) (stands : keeps place) :
      keeps (place.ready.add instruction) := by
    rw [ready_of_isOpen stands.2]
    exact ⟨(Place.block_change _ _).trans stands.1, Place.isOpen_add stands.2 instruction⟩
  have define (place : Place) (ty : Code.Ty) (make : Operand → Code.Instruction)
      (stands : keeps place) : keeps (place.ready.define ty make) := by
    rw [ready_of_isOpen stands.2]
    exact ⟨(Place.block_change _ _).trans stands.1, Place.isOpen_define stands.2 ty make⟩
  exact @Emits.keeps program final node values place next value keeps add define emits stands

theorem Session.FillsUpdate.expr {id : ExprId} {update : BlockId}
    (performs : (Task.expr id).Performs program name first last) (sound : first.Sound 16)
    (fills : first.FillsUpdate update) : last.FillsUpdate update := by
  rcases fills with ⟨here, place, builds, fills⟩
  have follows := performs.follows sound nofun nofun
  cases performs with
  | @expr _ expr value _ mid _ _ emits records =>
      cases emits with
      | @intro place' next values stands _ emits same =>
          cases stands.name_unique builds
          cases stands.unique builds
          have moves : last.Builds name next := by
            rw [Session.Builds, (recordValue_eq_ok records).1, same]
            exact (builds.prepare expr.node).put next
          rcases follows.becomes name place builds.placeIn? with ⟨after, found, becomes⟩
          rw [moves.placeIn?] at found
          cases found
          refine ⟨name, next, moves, Nat.lt_of_lt_of_le fills.old becomes.counter, ?_⟩
          rcases fills.stands with missing | open_
          · refine .inl (Option.eq_none_iff_forall_ne_some.mpr fun block found => ?_)
            rcases becomes.blocks update block fills.old found with ⟨before, foundBefore, _⟩
            rw [missing] at foundBefore
            cases foundBefore
          · exact .inr (emits.staysIn open_)

theorem Codes.fillsUpdate (codes : Codes program name first events last)
    (numbered : Numbered events) (sound : first.Sound 0) {update : BlockId}
    (fills : first.FillsUpdate update) : last.FillsUpdate update := by
  have tasks := codes.tasks
  have path := codes.path
  clear codes
  induction path with
  | nil => exact fills
  | @cons here event events last performs rest induction =>
      rcases tasks event List.mem_cons_self with ⟨id, isExpr⟩
      have room := sound.refill (numbered event List.mem_cons_self)
      rw [isExpr] at performs
      have follows := performs.follows room nofun nofun
      refine induction (fun other member => ?_) follows.sound (fills.expr performs room)
        fun other member => ?_
      · exact numbered other (List.mem_cons_of_mem _ member)
      · exact tasks other (List.mem_cons_of_mem _ member)

end Codes

theorem Task.Performs.of_enter {program : Program} {name : String} {session next : Session} {place : Place} {id : StmtId}
    {block : BlockId} {closing : Bool} {value : Unit} (builds : session.Builds name place)
    (runs : Lowering.enter block closing session = .ok (value, next)) :
    (Task.enter id block closing).Performs program name session next := by
  rw [attempt_enter builds] at runs
  cases enters : place.tryEnter block closing with
  | error error =>
      rw [enters] at runs
      cases runs
  | ok after =>
      rw [enters] at runs
      cases runs
      exact .enter builds enters

namespace Progress

variable {program : Program} {enclosed : Prop} {begun : List (StmtId × LoopBlocks)}
  {name : String} {past made : Task → Prop} {first session : Session} {waits : List BlockId} {events : List Event} {α β : Type}
  {post : List Event → β → Session → Prop}

theorem thenStretch {told : Told α} {rest : α → Told β}
    {holds : α → Session → Prop}
    (progress : Progress program enclosed begun name past first made waits events session)
    (tells : ∀ place, session.Builds name place → told.Ensures session fun others value next =>
      Stretch program enclosed [] name made session others next ∧ holds value next)
    (continues : ∀ value more next, holds value next → session.Retains next →
      Progress program enclosed begun name past first made waits more next →
        (rest value).From more next post) :
    (told >>= rest).From events session post := by
  rcases progress.stretch.stands with ⟨place, builds⟩
  refine .bind (tells place builds) fun others value next facts => ?_
  exact continues value _ next facts.2 facts.1.retains (progress.behind facts.1)

theorem thenPart {told : Told Unit} {rest : Unit → Told β}
    (progress : Progress program enclosed begun name past first made waits events session)
    (tells : ∀ place, session.Builds name place → told.Ensures session fun others _ next =>
      Stretch program enclosed [] name made session others next)
    (continues : ∀ more next, session.Retains next →
      Progress program enclosed begun name past first made waits more next →
        (rest ()).From more next post) :
    (told >>= rest).From events session post :=
  progress.thenStretch (fun place builds => (tells place builds).mono fun _ _ _ stretch =>
    ⟨stretch, trivial⟩) fun _ more next _ => continues more next

theorem thenValue {id : ExprId} {rest : Operand → Told β}
    (progress : Progress program enclosed begun name past first made waits events session)
    (continues : ∀ value more next, next.annotations.value? id = some value →
      session.Retains next → Progress program enclosed begun name past first made waits more next →
        (rest value).From more next post) :
    (tellValue program id >>= rest).From events session post :=
  progress.thenStretch (fun _ builds => (tellValue_codes id builds).mono fun _ _ _ facts =>
    ⟨facts.1.stretch, facts.2⟩) continues

theorem thenTell {task : Task} {step : Lower Unit} {rest : Unit → Told β}
    (progress : Progress program enclosed begun name past first made waits events session)
    (performs : ∀ place, session.Builds name place → step.Ensures session
      (fun _ next => task.Performs program name session next) fun _ => True)
    (quiet : ∀ other block, ¬ task.Uses session other block)
    (entersNothing : ∀ id block closing, task ≠ .enter id block closing)
    (stays : ∀ position, task ≠ .resume position) (backed : task.Backed program enclosed made)
    (isOwed : ∀ due, task.due? = some due → due ∈ owing waits begun)
    (leaves : ∀ id target stmt, task = .leave id target → program.stmt? id = some stmt →
      isLoop stmt = true → Numbered events → first.Sound 0 → session.Leaves id target)
    (continues : ∀ more next, task.Performs program name session next →
      Progress program enclosed begun name past first (fun other => made other ∨ other = task) waits
        more next → (rest ()).From more next post) :
    (Told.telling (fun _ => task) step >>= rest).From events session post := by
  rcases progress.stretch.stands with ⟨place, builds⟩
  have tells : (Told.telling (fun _ => task) step).Ensures session fun others _ next =>
      others = [⟨task, session, next⟩] ∧ task.Performs program name session next :=
    .telling ((performs place builds).mono fun _ _ performs => ⟨rfl, performs⟩)
  refine .bind tells fun others _ next facts => ?_
  rcases facts with ⟨rfl, performs⟩
  exact continues _ next performs
    (progress.step performs quiet entersNothing stays backed isOwed leaves)

theorem thenPlain {task : Task} {step : Lower Unit} {rest : Unit → Told β}
    (progress : Progress program enclosed begun name past first made waits events session)
    (plain : task.isPlain = true)
    (performs : ∀ place, session.Builds name place → step.Ensures session
      (fun _ next => task.Performs program name session next) fun _ => True)
    (continues : ∀ more next, task.Performs program name session next →
      Progress program enclosed begun name past first (fun other => made other ∨ other = task) waits
        more next → (rest ()).From more next post) :
    (Told.telling (fun _ => task) step >>= rest).From events session post :=
  progress.thenTell performs (Task.not_uses_of_isPlain plain session)
    (fun _ _ _ => Task.ne_of_isPlain plain rfl) (fun _ => Task.ne_of_isPlain plain rfl)
    (.of_isPlain plain) (fun _ isDue => absurd isDue (Task.due?_of_isPlain plain))
    (fun _ _ _ same => absurd same (Task.ne_of_isPlain plain rfl)) continues

theorem thenCreate {id : StmtId} {label : String} {rest : BlockId → Told β}
    (progress : Progress program enclosed begun name past first made waits events session)
    (continues : ∀ block more next, session.Retains next →
      Progress program enclosed begun name past first
        (fun other => made other ∨ other = .create id label block) (block :: waits) more next →
          (rest block).From more next post) :
    (tellCreate id label >>= rest).From events session post := by
  rcases progress.stretch.stands with ⟨place, builds⟩
  have tells : (tellCreate id label).Ensures session fun others block next =>
      others = [⟨.create id label block, session, next⟩] ∧
        (Task.create id label block).Performs program name session next :=
    .telling (.of_ok (createBlock_eq builds label) ⟨rfl, .create builds⟩)
  refine .bind tells fun others block next facts => ?_
  rcases facts with ⟨rfl, performs⟩
  exact continues block _ next performs.retains (progress.create performs)

theorem thenEnter {id : StmtId} {block : BlockId} {closing : Bool} {rest : Unit → Told β}
    (progress : Progress program enclosed begun name past first made (block :: waits) events session)
    (created : ∃ label, made (.create id label block))
    (continues : ∀ more next,
      (Task.enter id block closing).Performs program name session next →
      (Numbered more → first.Sound 0 → session.Spares name block) →
      Progress program enclosed begun name past first
        (fun other => made other ∨ other = .enter id block closing) waits more next →
          (rest ()).From more next post) :
    (tellEnter id block closing >>= rest).From events session post := by
  rcases progress.stretch.stands with ⟨place, builds⟩
  have tells : (tellEnter id block closing).Ensures session fun others _ next =>
      others = [⟨.enter id block closing, session, next⟩] ∧
        (Task.enter id block closing).Performs program name session next :=
    .telling ((Lower.Ensures.self _ _).mono fun _ next runs => ⟨rfl, .of_enter builds runs⟩)
  refine .bind tells fun others _ next facts => ?_
  rcases facts with ⟨rfl, performs⟩
  refine continues _ next performs (fun numbered sound => ?_) (progress.enter performs created)
  exact (progress.waiting (numbered_append.mp numbered).1 sound block List.mem_cons_self).1

theorem thenTest {id : StmtId} {value : Operand} {thenBlock elseBlock : BlockId}
    {rest : Unit → Told β}
    (progress : Progress program enclosed begun name past first made waits events session)
    (thenCreated : ∃ label, made (.create id label thenBlock))
    (elseCreated : ∃ label, made (.create id label elseBlock))
    (continues : ∀ more next, session.Retains next →
      Progress program enclosed begun name past first
        (fun other => made other ∨ other = .test id value thenBlock elseBlock) waits more next →
          (rest ()).From more next post) :
    (tellTest id value thenBlock elseBlock >>= rest).From events session post := by
  refine progress.thenTell (fun place builds => .of_ok (append_terminate_eq builds _) (.test builds))
    (fun _ _ uses => uses) nofun nofun ⟨?_, nofun, nofun⟩ nofun nofun
    fun more next performs => continues more next performs.retains
  rintro _ ⟨⟩
  exact List.forall_mem_cons.mpr ⟨thenCreated, List.forall_mem_singleton.mpr elseCreated⟩

theorem thenLeave {id : StmtId} {target : BlockId} {rest : Unit → Told β}
    (progress : Progress program enclosed begun name past first made waits events session)
    (created : ∃ label, made (.create id label target))
    (noLoop : ∀ stmt, program.stmt? id = some stmt → isLoop stmt ≠ true)
    (continues : ∀ more next, session.Retains next →
      Progress program enclosed begun name past first
        (fun other => made other ∨ other = .leave id target) waits more next →
          (rest ()).From more next post) :
    (tellLeave id target >>= rest).From events session post := by
  refine progress.thenTell (fun place builds => .of_ok (leaveTo_eq builds _) (.leave builds))
    (fun _ _ uses => uses) nofun nofun ⟨?_, nofun, nofun⟩ nofun ?_
    fun more next performs => continues more next performs.retains
  · rintro _ ⟨⟩ block member
    cases List.mem_singleton.mp member
    exact created
  · rintro _ _ stmt ⟨⟩ known loops
    exact absurd loops (noLoop stmt known)

theorem thenLeaveLoop {id : StmtId} {blocks : LoopBlocks} {rest : Unit → Told β}
    (progress : Progress program enclosed ((id, blocks) :: begun) name past first made waits events
      session)
    (created : ∃ label, made (.create id label blocks.condition))
    (knows : session.annotations.loopOf id = .ok blocks)
    (fills : ∀ update, blocks.update = some update → Numbered events → first.Sound 0 →
      session.FillsUpdate update)
    (continues : ∀ more next, session.Retains next →
      Progress program enclosed begun name past first
        (fun other => made other ∨ other = .leave id blocks.condition) waits more next →
          (rest ()).From more next post) :
    (tellLeave id blocks.condition >>= rest).From events session post := by
  rcases progress.stretch.stands with ⟨place, builds⟩
  have tells : (tellLeave id blocks.condition).Ensures session fun others _ next =>
      others = [⟨.leave id blocks.condition, session, next⟩] ∧
        (Task.leave id blocks.condition).Performs program name session next :=
    .telling (.of_ok (leaveTo_eq builds _) ⟨rfl, .leave builds⟩)
  refine .bind tells fun others _ next facts => ?_
  rcases facts with ⟨rfl, performs⟩
  have steps := progress.step performs (fun _ _ uses => uses) nofun nofun ⟨?_, nofun, nofun⟩
    nofun ?_
  · refine continues _ next performs.retains (steps.close ?_)
    exact ⟨_, List.mem_append_right _ (List.mem_singleton_self _), rfl, progress.inside⟩
  · rintro _ ⟨⟩ block member
    cases List.mem_singleton.mp member
    exact created
  · rintro _ _ _ ⟨⟩ _ _ numbered sound
    exact ⟨blocks, knows, rfl, fun update isUpdate => fills update isUpdate numbered sound⟩

theorem thenLoop {id : StmtId} {blocks : LoopBlocks} {rest : Unit → Told β}
    (progress : Progress program enclosed begun name past first made waits events session)
    (created : ∀ block ∈ (Task.loop id blocks).blocks, ∃ label, made (.create id label block))
    {stmt : Stmt} (known : program.stmt? id = some stmt) (isCreated : blocks.Created made id stmt)
    (continues : ∀ more next, session.Retains next → next.annotations.loopOf id = .ok blocks →
      Progress program enclosed ((id, blocks) :: begun) name past first
        (fun other => made other ∨ other = .loop id blocks) waits more next →
          (rest ()).From more next post) :
    (tellLoop id blocks >>= rest).From events session post := by
  refine (progress.begin (id, blocks)).thenTell (fun place builds => ?_) (fun _ _ uses => uses)
    nofun nofun ⟨?_, ?_, nofun⟩ ?_ nofun
    fun more next performs => continues more next performs.retains ?_
  · exact .of_bind_pure (.annotate_bind (fun _ _ => trivial) fun _ sets =>
      .pure (.loop builds sets))
  · rintro _ ⟨⟩
    exact created
  · rintro _ _ ⟨⟩
    exact ⟨stmt, known, isCreated⟩
  · rintro _ ⟨⟩
    exact List.mem_append_right _ List.mem_cons_self
  · cases performs with
    | loop _ sets =>
        rw [Annotations.loopOf_of_setLoop sets, if_pos rfl]

end Progress

/-! ## Statements -/

def Setting.Begun (setting : Setting) (done : Task → Prop) : Prop :=
  ∀ target ∈ setting.loops, ∃ blocks, done (.loop target blocks)

theorem Setting.Begun.mono {setting : Setting} {done more : Task → Prop}
    (begun : setting.Begun done) (within : ∀ task, done task → more task) : setting.Begun more :=
  fun target member => (begun target member).imp fun _ => within _

theorem Setting.Begun.inLoop {setting : Setting} {done : Task → Prop} {id : StmtId}
    {blocks : LoopBlocks} (begun : setting.Begun done) (isDone : done (.loop id blocks)) :
    (setting.inLoop id).Begun done := by
  intro target member
  rcases List.mem_cons.mp member with rfl | outer
  · exact ⟨blocks, isDone⟩
  · exact begun target outer

/-- What is told of a statement is a stretch, when the loops around it have been begun. -/
def Tells (program : Program) (enclosed : Prop) (tell : StmtId → Told Unit) (setting : Setting)
    (id : StmtId) : Prop :=
  ∀ (name : String) (past : Task → Prop) (session : Session) (place : Place),
    (enclosed → setting.Begun past) → session.Builds name place →
      (tell id).Ensures session fun events _ next =>
        Stretch program enclosed [] name past session events next

section Statements

variable {program : Program} {enclosed : Prop} {name : String} {past : Task → Prop}
  {session : Session} {place : Place} {tell : StmtId → Told Unit} {setting : Setting} {id : StmtId}

theorem stretch_forM {ι : Type} {items : List ι} {body : ι → Told Unit}
    (tells : ∀ item ∈ items, ∀ session place, session.Builds name place →
      (body item).Ensures session fun events _ next =>
        Stretch program enclosed [] name past session events next)
    (builds : session.Builds name place) :
    (items.forM body).Ensures session fun events _ next =>
      Stretch program enclosed [] name past session events next := by
  induction items generalizing session place with
  | nil => exact .pure (.nil builds)
  | cons item items induction =>
      refine Told.Ensures.bind (tells item List.mem_cons_self session place builds)
        fun events _ middle early => ?_
      rcases early.stands with ⟨between, stands⟩
      have rest := induction (fun other member => tells other (List.mem_cons_of_mem _ member)) stands
      exact rest.mono fun more _ next late => early.append late fun _ => .inl

theorem Progress.thenBranch {β : Type} {post : List Event → β → Session → Prop}
    {pending : List (StmtId × LoopBlocks)} {made : Task → Prop} {first : Session} {waits : List BlockId} {events : List Event}
    {block target : BlockId} {child : StmtId} {rest : Told β}
    (progress : Progress program enclosed pending name past first made (block :: waits) events session)
    (noLoop : ∀ stmt, program.stmt? id = some stmt → isLoop stmt ≠ true)
    (created : ∃ label, made (.create id label block))
    (targets : ∃ label, made (.create id label target))
    (tells : Tells program enclosed tell setting child) (begun : enclosed → setting.Begun past)
    (continues : ∀ since more next, (∀ task, made task → since task) →
      Progress program enclosed pending name past first since waits more next →
        rest.From more next post) :
    (do
      tellEnter id block false
      tell child
      tellLeave id target
      rest : Told β).From events session post := by
  refine progress.thenEnter created fun events session _ _ progress => ?_
  refine progress.thenPart (fun place builds => tells name _ session place
    (fun isEnclosed => (begun isEnclosed).mono progress.since) builds) fun events session _ progress => ?_
  refine progress.thenLeave (targets.imp fun _ => .inl) noLoop fun events session _ progress => ?_
  exact continues _ events session (fun _ done => .inl (.inl done)) progress

theorem tellIf_stretch {condition : ExprId} {thenBody : StmtId} {elseBody : Option StmtId}
    (known : program.stmt? id = some (.ifThenElse condition thenBody elseBody))
    (tells : ∀ child ∈ thenBody :: elseBody.toList, Tells program enclosed tell setting child)
    (begun : enclosed → setting.Begun past) (builds : session.Builds name place) :
    (tellIf program tell id condition thenBody elseBody).Ensures session fun events _ next =>
      Stretch program enclosed [] name past session events next := by
  have noLoop (stmt : Stmt) (found : program.stmt? id = some stmt) : isLoop stmt ≠ true := by
    rw [known] at found
    cases found
    nofun
  have begins : Progress program enclosed [] name past session past [] [] session := .start builds
  refine Told.From.start (begins.thenValue fun value events session _ _ progress => ?_)
  refine progress.thenCreate fun thenBlock events session _ progress => ?_
  refine progress.thenCreate fun endBlock events session _ progress => ?_
  cases elseBody with
  | none =>
      refine progress.thenTest ⟨_, .inl (.inr rfl)⟩ ⟨_, .inr rfl⟩ fun events session _ progress => ?_
      refine (progress.perm (.swap _ _ _)).thenBranch noLoop ⟨_, .inl (.inl (.inr rfl))⟩
        ⟨_, .inl (.inr rfl)⟩ (tells thenBody List.mem_cons_self) begun
        fun since events session more progress => ?_
      refine .of_bind_pure (progress.thenEnter ⟨_, more _ (.inl (.inr rfl))⟩
        fun events session _ _ progress => ?_)
      exact .pure progress.stretch
  | some elseBody =>
      refine progress.thenCreate fun elseBlock events session _ progress => ?_
      refine progress.thenTest ⟨_, .inl (.inl (.inr rfl))⟩ ⟨_, .inr rfl⟩
        fun events session _ progress => ?_
      have reordered : [elseBlock, endBlock, thenBlock].Perm [thenBlock, elseBlock, endBlock] :=
        @List.perm_append_comm _ [elseBlock, endBlock] [thenBlock]
      refine (progress.perm reordered).thenBranch noLoop ⟨_, .inl (.inl (.inl (.inr rfl)))⟩
        ⟨_, .inl (.inl (.inr rfl))⟩ (tells thenBody List.mem_cons_self) begun
        fun since events session more progress => ?_
      refine progress.thenBranch noLoop ⟨_, more _ (.inl (.inr rfl))⟩
        ⟨_, more _ (.inl (.inl (.inr rfl)))⟩ (tells elseBody (by simp)) begun
        fun sinceElse events session moreElse progress => ?_
      refine .of_bind_pure (progress.thenEnter ⟨_, moreElse _ (more _ (.inl (.inl (.inr rfl))))⟩
        fun events session _ _ progress => ?_)
      exact .pure progress.stretch

theorem tellWhile_stretch {condition : ExprId} {body : StmtId}
    (known : program.stmt? id = some (.whileLoop condition body))
    (tells : Tells program enclosed tell (setting.inLoop id) body)
    (begun : enclosed → setting.Begun past) (builds : session.Builds name place) :
    (tellWhile program tell id condition body).Ensures session fun events _ next =>
      Stretch program enclosed [] name past session events next := by
  have begins : Progress program enclosed [] name past session past [] [] session := .start builds
  refine Told.From.start (begins.thenCreate fun condBlock events session _ progress => ?_)
  refine progress.thenCreate fun bodyBlock events session _ progress => ?_
  refine progress.thenCreate fun endBlock events session _ progress => ?_
  refine progress.thenLoop ?_ known ⟨.inl (.inl (.inr rfl)), .inr rfl, rfl⟩
    fun events session _ learnt progress => ?_
  · exact List.forall_mem_cons.mpr ⟨⟨_, .inl (.inl (.inr rfl))⟩,
      List.forall_mem_singleton.mpr ⟨_, .inr rfl⟩⟩
  have reordered : [endBlock, bodyBlock, condBlock].Perm [condBlock, bodyBlock, endBlock] :=
    List.reverse_perm [condBlock, bodyBlock, endBlock]
  refine (progress.perm reordered).thenEnter ⟨_, .inl (.inl (.inl (.inr rfl)))⟩
    fun events session enters _ progress => ?_
  refine progress.thenValue fun value events session _ kept progress => ?_
  refine progress.thenTest ⟨_, .inl (.inl (.inl (.inr rfl)))⟩ ⟨_, .inl (.inl (.inr rfl))⟩
    fun events session keptTest progress => ?_
  refine progress.thenEnter ⟨_, .inl (.inl (.inl (.inl (.inr rfl))))⟩
    fun events session entersBody _ progress => ?_
  refine progress.thenPart (fun place builds => tells name _ session place (fun isEnclosed =>
    .inLoop ((begun isEnclosed).mono progress.since) (.inl (.inl (.inl (.inr rfl))))) builds)
    fun events session keptBody progress => ?_
  have knows := keptBody.loops id _ (entersBody.retains.loops id _ (keptTest.loops id _
    (kept.loops id _ (enters.retains.loops id _ learnt))))
  refine progress.thenLeaveLoop ⟨_, .inl (.inl (.inl (.inl (.inl (.inl (.inr rfl))))))⟩
    knows nofun fun events session _ progress => ?_
  refine .of_bind_pure (progress.thenEnter ?_ fun events session _ _ progress => ?_)
  · exact ⟨_, .inl (.inl (.inl (.inl (.inl (.inr rfl)))))⟩
  · exact .pure progress.stretch

theorem tellForInit_stretch {initial : ForInit}
    (tells : ∀ stmt, initial = .decl stmt → Tells program enclosed tell setting stmt)
    (begun : enclosed → setting.Begun past) (builds : session.Builds name place) :
    (tellForInit program tell initial).Ensures session fun events _ next =>
      Stretch program enclosed [] name past session events next := by
  cases initial with
  | decl stmt => exact tells stmt rfl name past session place begun builds
  | exprs exprs => exact (tellExprs_codes exprs builds).mono fun _ _ _ codes => codes.stretch

section For

variable {β : Type} {post : List Event → β → Session → Prop}
  {pending : List (StmtId × LoopBlocks)} {made : Task → Prop}
  {first : Session} {waits : List BlockId} {events : List Event} {updates : List ExprId}

theorem Progress.thenUpdateBlock {rest : Option BlockId → Told β}
    (progress : Progress program enclosed pending name past first made waits events session)
    (continues : ∀ (update : Option BlockId) since more next, (∀ task, made task → since task) →
      (updates = [] → update = none) →
      (updates ≠ [] → ∃ block, update = some block ∧ since (.create id "for.update" block)) →
      Progress program enclosed pending name past first since (update.toList ++ waits) more next →
        (rest update).From more next post) :
    (tellUpdateBlock id updates >>= rest).From events session post := by
  cases updates with
  | nil => exact continues none made events session (fun _ done => done) (fun _ => rfl) (absurd rfl) progress
  | cons update others =>
      change ((tellCreate id "for.update" >>= fun block => pure (some block)) >>= rest).From _ _ _
      rw [Told.bind_assoc]
      refine progress.thenCreate fun block events session _ progress => ?_
      exact continues (some block) _ events session (fun _ => .inl) nofun
        (fun _ => ⟨block, rfl, .inr rfl⟩) progress

theorem Progress.thenForCondition {condition : Option ExprId} {endBlock : BlockId}
    {rest : Unit → Told β}
    (progress : Progress program enclosed pending name past first made waits events session)
    (endCreated : ∃ label, made (.create id label endBlock))
    (continues : ∀ since more next, (∀ task, made task → since task) → session.Retains next →
      Progress program enclosed pending name past first since waits more next →
        (rest ()).From more next post) :
    (tellForCondition program id endBlock condition >>= rest).From events session post := by
  cases condition with
  | none => exact continues made events session (fun _ done => done) (.refl session) progress
  | some condition =>
      simp only [tellForCondition, Told.bind_assoc]
      refine progress.thenCreate fun bodyBlock events session kept progress => ?_
      refine progress.thenValue fun value events session _ keptValue progress => ?_
      refine progress.thenTest ⟨_, .inr rfl⟩ (endCreated.imp fun _ => .inl)
        fun events session keptTest progress => ?_
      refine progress.thenEnter ⟨_, .inl (.inr rfl)⟩ fun events session enters _ progress => ?_
      exact continues _ events session (fun _ done => .inl (.inl (.inl done)))
        (kept.trans (keptValue.trans (keptTest.trans enters.retains))) progress

theorem Session.fillsUpdate_of_enter {next : Session} {block : BlockId} {closing : Bool}
    (enters : (Task.enter id block closing).Performs program name session next)
    (spares : session.Spares name block) : next.FillsUpdate block := by
  cases enters with
  | enter builds enters =>
      rcases spares with ⟨place, found, spares⟩
      rw [builds.placeIn?] at found
      cases found
      exact ⟨name, _, builds.put _, Place.fills_of_enters (Place.enters_of_tryEnter enters) spares⟩

theorem Progress.thenForUpdates {update : Option BlockId} {rest : Unit → Told β}
    (progress : Progress program enclosed pending name past first made (update.toList ++ waits) events
      session)
    (created : ∀ block, update = some block → ∃ label, made (.create id label block))
    (continues : ∀ since more next, (∀ task, made task → since task) → session.Retains next →
      (∀ block, update = some block → Numbered more → first.Sound 0 → next.FillsUpdate block) →
      Progress program enclosed pending name past first since waits more next →
        (rest ()).From more next post) :
    (tellForUpdates program id updates update >>= rest).From events session post := by
  cases update with
  | none => exact continues made events session (fun _ done => done) (.refl session) nofun progress
  | some block =>
      simp only [tellForUpdates, Told.bind_assoc]
      refine progress.thenEnter (created block rfl) fun events session enters spares progress => ?_
      rcases progress.stretch.stands with ⟨place, builds⟩
      refine .bind (tellExprs_codes updates builds) fun others _ next codes => ?_
      refine continues _ _ next (fun _ => .inl) (enters.retains.trans codes.retains) ?_
        (progress.behind codes.stretch)
      rintro _ ⟨⟩ numbered sound
      have numbers := numbered_append.mp numbered
      have begins := (progress.stretch.tidily numbers.1 sound).sound
      exact codes.fillsUpdate numbers.2 begins
        (Session.fillsUpdate_of_enter enters (spares numbers.1 sound))

theorem tellFor_stretch {initial : ForInit} {condition : Option ExprId} {body : StmtId}
    (known : program.stmt? id = some (.forLoop initial condition updates body))
    (tellsInitial : ∀ stmt, initial = .decl stmt → Tells program enclosed tell setting stmt)
    (tellsBody : Tells program enclosed tell (setting.inLoop id) body)
    (begun : enclosed → setting.Begun past) (builds : session.Builds name place) :
    (tellFor program tell id initial condition updates body).Ensures session fun events _ next =>
      Stretch program enclosed [] name past session events next := by
  have begins : Progress program enclosed [] name past session past [] [] session := .start builds
  refine Told.From.start (begins.thenPart (fun place builds =>
    tellForInit_stretch tellsInitial begun builds) fun events session _ progress => ?_)
  refine progress.thenCreate fun condBlock events session _ progress => ?_
  refine progress.thenCreate fun endBlock events session _ progress => ?_
  refine (progress.perm (.swap _ _ _)).thenEnter ⟨_, .inl (.inr rfl)⟩
    fun events session _ _ progress => ?_
  refine progress.thenUpdateBlock fun update made events session more noUpdate someUpdate progress => ?_
  have condCreated : made (.create id "for.cond" condBlock) := more _ (.inl (.inl (.inr rfl)))
  have endCreated : made (.create id "for.end" endBlock) := more _ (.inl (.inr rfl))
  have updateCreated (block : BlockId) (isUpdate : update = some block) :
      made (.create id "for.update" block) := by
    by_cases none : updates = []
    · rw [noUpdate none] at isUpdate
      cases isUpdate
    · rcases someUpdate none with ⟨other, same, created⟩
      rw [isUpdate] at same
      cases same
      exact created
  refine progress.thenLoop ?_ known ⟨condCreated, endCreated, noUpdate, someUpdate⟩
    fun events session _ learnt progress => ?_
  · refine List.forall_mem_cons.mpr ⟨⟨_, condCreated⟩, List.forall_mem_cons.mpr ⟨⟨_, endCreated⟩, ?_⟩⟩
    exact fun block member => ⟨_, updateCreated block (Option.mem_toList.mp member)⟩
  refine progress.thenForCondition ⟨_, .inl endCreated⟩
    fun since events session moreCondition kept progress => ?_
  have loopMade : since (.loop id ⟨condBlock, update, endBlock⟩) := moreCondition _ (.inr rfl)
  refine progress.thenPart (fun place builds => tellsBody name _ session place (fun isEnclosed =>
    .inLoop ((begun isEnclosed).mono progress.since) loopMade) builds)
    fun events session keptBody progress => ?_
  refine progress.thenForUpdates (fun block isUpdate => ⟨_, moreCondition _ (.inl
    (updateCreated block isUpdate))⟩) fun sinceUpdates events session moreUpdates keptUpdates
      fills progress => ?_
  have knows := keptUpdates.loops id _ (keptBody.loops id _ (kept.loops id _ learnt))
  have still {task : Task} (isMade : made task) : sinceUpdates task :=
    moreUpdates _ (moreCondition _ (.inl isMade))
  refine progress.thenLeaveLoop ⟨_, still condCreated⟩ knows
    (fun block isUpdate => fills block isUpdate) fun events session _ progress => ?_
  refine .of_bind_pure (progress.thenEnter ⟨_, .inl (still endCreated)⟩
    fun events session _ _ progress => ?_)
  exact .pure progress.stretch

end For

theorem tellVarDecl_stretch (var : VarId) (builds : session.Builds name place) :
    (tellVarDecl program var).Ensures session fun events _ next =>
      Stretch program enclosed [] name past session events next := by
  refine Told.From.start (.orFault fun decl found => ?_)
  have begins : Progress program enclosed [] name past session past [] [] session := .start builds
  split
  · exact .asking (.of_error rfl trivial)
  · rename_i notVoid
    refine begins.thenStretch (fun place builds => (tellInitial_codes decl builds).mono
      fun _ _ _ facts => ⟨facts.1.stretch, facts.2⟩) fun value events session has _ progress => ?_
    refine .of_bind_pure (progress.thenPlain rfl (fun place builds => ?_)
      fun events session _ progress => .pure progress.stretch)
    cases scope : decl.scope with
    | topLevel => exact performs_lowerGlobal found notVoid scope has builds
    | «local» => exact performs_lowerLocal found notVoid scope has builds

theorem Progress.tellJump {made : Task → Prop} {first : Session}
    {events : List Event} {step : Lower Unit} {stmt : Stmt}
    (progress : Progress program enclosed [] name past first made [] events session)
    (known : program.stmt? id = some stmt)
    (performs : ∀ place, session.Builds name place → step.Ensures session
      (fun _ next => (Task.jump id).Performs program name session next) fun _ => True)
    (begun : ∀ target, enclosed → jumpTarget? stmt = some target →
      ∃ blocks, past (.loop target blocks)) :
    (Told.telling (fun _ => .jump id) step).From events session fun events _ next =>
      Stretch program enclosed [] name past first events next := by
  refine .of_bind_pure (progress.thenTell performs (fun _ _ uses => uses) nofun nofun
    ⟨?_, nofun, ?_⟩ nofun nofun fun events session _ progress => .pure progress.stretch)
  · rintro _ ⟨⟩ block member
    cases member
  · rintro _ other target isEnclosed ⟨⟩ found jumps
    rw [known] at found
    cases found
    exact (begun target isEnclosed jumps).imp fun _ => progress.since _

theorem tellReturn_stretch {result : Option ExprId}
    (known : program.stmt? id = some (.returnValue result)) (builds : session.Builds name place) :
    (tellReturn program id result).Ensures session fun events _ next =>
      Stretch program enclosed [] name past session events next := by
  have begins : Progress program enclosed [] name past session past [] [] session := .start builds
  cases result with
  | none =>
      refine Told.From.start (begins.tellJump known (fun place builds =>
        .of_ok (append_terminate_eq builds _) (.jump builds ?_)) nofun)
      rw [Session.JumpsBy, known]
      exact ⟨none, rfl, rfl⟩
  | some expr =>
      refine Told.From.start (begins.thenValue fun value events session recorded _ progress => ?_)
      refine progress.tellJump known (fun place builds =>
        .of_ok (append_terminate_eq builds _) (.jump builds ?_)) nofun
      rw [Session.JumpsBy, known]
      exact ⟨some value, rfl, congrArg (fun known => [known]) recorded⟩

theorem tellJump_stretch {stmt : Stmt} {target : StmtId} {terminator : LoopBlocks → Code.Terminator}
    (known : program.stmt? id = some stmt) (jumps : jumpTarget? stmt = some target)
    (means : ∀ (session : Session) (blocks : LoopBlocks),
      session.annotations.loopOf target = .ok blocks → session.JumpsBy program id (terminator blocks))
    (begun : enclosed → ∃ blocks, past (.loop target blocks)) (builds : session.Builds name place) :
    (Told.telling (fun _ => .jump id) (do
      let blocks ← Lower.consult fun annotations => annotations.loopOf target
      Lower.append fun cursor => cursor.terminate (terminator blocks))).Ensures session
        fun events _ next => Stretch program enclosed [] name past session events next := by
  have begins : Progress program enclosed [] name past session past [] [] session := .start builds
  refine Told.From.start (begins.tellJump known (fun place builds => ?_) fun other isEnclosed isTarget => ?_)
  · refine .consult_bind (fun _ _ => trivial) fun blocks found => ?_
    exact .of_ok (append_terminate_eq builds _) (.jump builds (means session blocks found))
  · rw [jumps] at isTarget
    cases isTarget
    exact begun isEnclosed

end Statements

end ScriptLowering.Lowering
