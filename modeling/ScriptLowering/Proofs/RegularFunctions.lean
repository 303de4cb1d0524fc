import ScriptLowering.Proofs.UndisturbedFunctions

/-! # Regular functions in every run

Wherever a run has come to, whether it succeeds in the end or fails, the function at hand is built
at regular places. The run is followed as it is told, from the opening of a function to its end, and
only two things can disturb it: a function that is opened a second time, and numbers that run out.
-/

namespace ScriptLowering.Lowering

open Source (Program ExprId ForInit FuncId FunctionDecl Stmt StmtId VarDecl VarId)
open Code (BlockId Operand Place)

/-! ## Runs that open each function once -/

def Task.started? : Task → Option String
  | .start name => some name
  | .param _ _ | .expr _ | .var _ | .create _ _ _ | .loop _ _ | .test _ _ _ _ | .enter _ _ _
  | .leave _ _ | .jump _ | .returnIfLive _ | .finish _ | .resume _ | .come _ _ => none

/-- The functions that are opened, in the order in which they are. -/
def started (events : List Event) : List String := events.filterMap fun event => event.task.started?

/-- No function has used up half of the numbers for temps. -/
def Session.hasTemps (session : Session) : Bool :=
  session.cursor.module.functions.values.all fun function => function.body.temps.size < 2 ^ 31

/-- What is told opens only functions that are empty, each of them once and none that is in `open_`,
and the numbers last. -/
structure Clear (open_ : String → Prop) (session : Session) (events : List Event) : Prop where
  numbered : Numbered events
  temps : ∀ event ∈ events, event.before.hasTemps = true
  once : (started events).Nodup
  apart : ∀ name ∈ started events, ¬ open_ name
  empty : ∀ name ∈ started events, ∀ function,
    session.cursor.module.function? name = some function → function.body = .empty

@[simp] theorem started_append (events more : List Event) :
    started (events ++ more) = started events ++ started more :=
  List.filterMap_append

section Clear

variable {open_ more : String → Prop} {session next : Session} {events others : List Event}

theorem Clear.left (clear : Clear open_ session (events ++ others)) :
    Clear open_ session events where
  numbered := (numbered_append.mp clear.numbered).1
  temps event member := clear.temps event (List.mem_append_left _ member)
  once := by
    have once := clear.once
    rw [started_append] at once
    exact (List.nodup_append.mp once).1
  apart name member := clear.apart name (by rw [started_append]; exact List.mem_append_left _ member)
  empty name member :=
    clear.empty name (by rw [started_append]; exact List.mem_append_left _ member)

theorem Clear.right (clear : Clear open_ session (events ++ others))
    (same : ∀ name, ¬ open_ name → name ∉ started events →
      next.cursor.module.function? name = session.cursor.module.function? name) :
    Clear (fun name => open_ name ∨ name ∈ started events) next others := by
  have once := clear.once
  rw [started_append] at once
  have isLater {name : String} (member : name ∈ started others) :
      name ∈ started (events ++ others) := by
    rw [started_append]
    exact List.mem_append_right _ member
  have notEarlier {name : String} (member : name ∈ started others) : name ∉ started events :=
    fun early => List.disjoint_of_nodup_append once early member
  refine ⟨(numbered_append.mp clear.numbered).2, fun event member => ?_,
    (List.nodup_append.mp once).2.1, fun name member => ?_, fun name member function found => ?_⟩
  · exact clear.temps event (List.mem_append_right _ member)
  · exact not_or.mpr ⟨clear.apart name (isLater member), notEarlier member⟩
  · rw [same name (clear.apart name (isLater member)) (notEarlier member)] at found
    exact clear.empty name (isLater member) function found

theorem Clear.mono (clear : Clear more session events) (within : ∀ name, open_ name → more name) :
    Clear open_ session events :=
  { clear with apart := fun name member isOpen => clear.apart name member (within name isOpen) }

end Clear

theorem Session.Builds.room {session : Session} {name : String} {place : Place}
    (builds : session.Builds name place) (numbers : session.hasNumbers = true)
    (temps : session.hasTemps = true) : place.Room 16 := by
  rcases builds.body with ⟨function, found, same⟩
  have member := Table.mem_values_iff.mpr ⟨name, found⟩
  have few := UInt32.lt_iff_toNat_lt.mp
    (of_decide_eq_true (List.all_eq_true.mp numbers function member))
  have fewTemps := of_decide_eq_true (List.all_eq_true.mp temps function member)
  have bound : (2 ^ 31 : UInt32).toNat = 2 ^ 31 := by decide
  rw [same] at few fewTemps
  constructor <;> omega

/-! ## What is told of regular functions -/

/-- A function is finished at a regular place, where the cursor is live only if the function owes a
value. -/
def Event.FinishesRegular (program : Program) (event : Event) : Prop :=
  ∀ name, event.task = .finish name → ∃ place, event.before.Builds name place ∧ place.Regular ∧
    (place.isLive = true → ∃ id decl, program.function? id = some decl ∧ decl.name = name ∧
      decl.returnsNothing = false)

/-- As long as the way is clear, functions are finished at regular places and no function changes but
those that are open or opened. If there is an end, something holds there. -/
def Told.Regularly {α : Type} (program : Program) (open_ : String → Prop) (told : Told α)
    (session : Session) (post : α → Session → Prop) : Prop :=
  Clear open_ session (told session).1 →
    (∀ event ∈ (told session).1, event.FinishesRegular program) ∧
      ∀ value next, (told session).2 = .ok (value, next) →
        (∀ name, ¬ open_ name → name ∉ started (told session).1 →
          next.cursor.module.function? name = session.cursor.module.function? name) ∧
        post value next

namespace Told.Regularly

variable {α β ι : Type} {program : Program} {open_ more : String → Prop} {told : Told α}
  {session : Session} {post : α → Session → Prop} {final : β → Session → Prop}

theorem pure {value : α} (holds : post value session) :
    (Pure.pure value : Told α).Regularly program open_ session post := by
  refine fun _ => ⟨List.forall_mem_nil _, fun result next same => ?_⟩
  cases same
  exact ⟨fun _ _ _ => rfl, holds⟩

theorem fault (fault : ProgramFault) :
    (Told.asking (Lower.fault fault : Lower α)).Regularly program open_ session post :=
  fun _ => ⟨List.forall_mem_nil _, nofun⟩

/-- What has been opened in the first part is not opened in the second one. -/
theorem bind {rest : α → Told β} (first : told.Regularly program open_ session post)
    (second : ∀ value next, (told session).2 = .ok (value, next) → post value next →
      (rest value).Regularly program (fun name => open_ name ∨ name ∈ started (told session).1) next
        final) :
    (told >>= rest).Regularly program open_ session final := by
  change Clear open_ session (Told.bind told rest session).1 →
    (∀ event ∈ (Told.bind told rest session).1, event.FinishesRegular program) ∧ ∀ value next,
      (Told.bind told rest session).2 = .ok (value, next) →
        (∀ name, ¬ open_ name → name ∉ started (Told.bind told rest session).1 →
          next.cursor.module.function? name = session.cursor.module.function? name) ∧ final value next
  unfold Regularly at first
  unfold Told.bind
  rcases result : told session with ⟨events, error | ⟨value, next⟩⟩
  · rw [result] at first
    exact fun clear => ⟨(first clear).1, nofun⟩
  · rw [result] at first second
    intro clear
    rcases first clear.left with ⟨finishes, ends⟩
    rcases ends value next rfl with ⟨same, holds⟩
    rcases second value next rfl holds (clear.right same) with ⟨finishesLater, endsLater⟩
    refine ⟨fun event member => ?_, fun other last runs => ?_⟩
    · exact (List.mem_append.mp member).elim (finishes event) (finishesLater event)
    · rcases endsLater other last runs with ⟨sameLater, holdsLater⟩
      refine ⟨fun name closed unopened => ?_, holdsLater⟩
      rw [started_append, List.mem_append, not_or] at unopened
      rw [sameLater name (not_or.mpr ⟨closed, unopened.1⟩) unopened.2]
      exact same name closed unopened.1

/-- A part that knows of fewer open functions leaves the others alone. -/
theorem widen (regularly : told.Regularly program open_ session post)
    (within : ∀ name, open_ name → more name) :
    told.Regularly program more session fun value next => post value next ∧
      ∀ name, more name → ¬ open_ name →
        next.cursor.module.function? name = session.cursor.module.function? name := by
  intro clear
  rcases regularly (clear.mono within) with ⟨finishes, ends⟩
  refine ⟨finishes, fun value next runs => ?_⟩
  rcases ends value next runs with ⟨same, holds⟩
  refine ⟨fun name closed => same name fun isOpen => closed (within name isOpen), holds,
    fun name isOpen closed => same name closed fun opened => clear.apart name opened isOpen⟩

theorem mono (regularly : told.Regularly program open_ session post)
    {weaker : α → Session → Prop} (weakens : ∀ value next, post value next → weaker value next) :
    told.Regularly program open_ session weaker := by
  intro clear
  rcases regularly clear with ⟨finishes, ends⟩
  exact ⟨finishes, fun value next runs =>
    ⟨(ends value next runs).1, weakens value next (ends value next runs).2⟩⟩

theorem andThen {rest : α → Told β} (first : told.Regularly program open_ session post)
    (second : ∀ value next, post value next →
      (rest value).Regularly program open_ next final) :
    (told >>= rest).Regularly program open_ session final :=
  first.bind fun value next _ holds =>
    ((second value next holds).widen fun _ => .inl).mono fun _ _ facts => facts.1

theorem orFault_bind {found : Option α} {fault : ProgramFault} {rest : α → Told β}
    (present : ∀ value, found = some value →
      (rest value).Regularly program open_ session final) :
    (Told.asking (Lower.orFault found fault) >>= rest).Regularly program open_ session final := by
  cases found with
  | none => exact fun _ => ⟨List.forall_mem_nil _, nofun⟩
  | some value => exact present value rfl

theorem cursor_bind {rest : Code.Cursor → Told β}
    (leads : (rest session.cursor).Regularly program open_ session final) :
    (Told.asking Lower.cursor >>= rest).Regularly program open_ session final := leads

/-- A step of the function `name`. -/
theorem telling {name : String} {task : α → Task} {step : Lower α} (isOpen : open_ name)
    (performs : step.Ensures session
      (fun value next => (task value).Performs program name session next) fun _ => True)
    (finishes : ∀ value next, Event.FinishesRegular program ⟨task value, session, next⟩)
    (holds : ∀ value next, (task value).Performs program name session next →
      session.hasNumbers = true → session.hasTemps = true → post value next) :
    (Told.telling task step).Regularly program open_ session post := by
  unfold Regularly Told.telling
  cases result : step session with
  | error error => exact fun _ => ⟨List.forall_mem_nil _, nofun⟩
  | ok pair =>
      have performs := performs.post_of_ok result
      intro clear
      refine ⟨fun event member => ?_, fun value next same => ?_⟩
      · cases List.mem_singleton.mp member
        exact finishes _ _
      · cases same
        refine ⟨fun other closed _ => performs.rebuilds.others other ?_, ?_⟩
        · rintro rfl
          exact closed isOpen
        · exact holds _ _ performs (clear.numbered _ List.mem_cons_self)
            (clear.temps _ List.mem_cons_self)

end Told.Regularly

/-! ## Growing places -/

/-- The cursor stands in the function at a regular place that has grown out of another one, and the
blocks that wait are new and have not been entered. -/
inductive Session.Grown (name : String) (origin : Place) (waits : List BlockId) (session : Session) :
    Prop
  | intro {place : Place} (builds : session.Builds name place) (regular : place.Regular)
      (within : origin.Within origin.body.nextBlock.toNat place)
      (waiting : ∀ id ∈ waits, ∃ label, place.Waiting id label)
      (new : ∀ id ∈ waits, origin.body.nextBlock.toNat ≤ id.number.toNat)
      (apart : waits.Nodup)

/-- The step stays in its function, which it neither opens nor finishes, and enters no block. -/
def Task.isBuilding : Task → Bool
  | .param _ _ | .expr _ | .var _ | .create _ _ _ | .loop _ _ | .test _ _ _ _ | .leave _ _ | .jump _
  | .returnIfLive _ | .come _ _ => true
  | .start _ | .enter _ _ _ | .finish _ | .resume _ => false

/-! ### Small steps -/

namespace SafeOperation

theorem mono {less more : Nat} {operate : Place → Place} (safe : SafeOperation less operate)
    (fewer : less ≤ more) : SafeOperation more operate where
  regular place count regular room := safe.regular place count regular (room.mono (by omega))
  within place count room := safe.within place count (room.mono (by omega))
  room place count room := safe.room place count (room.mono (by omega))

theorem same : SafeOperation 0 fun place => place where
  regular _ _ regular _ := regular
  within place _ _ := .refl _ place
  room _ _ room := room.mono (by omega)

theorem andThen {less more : Nat} {first second : Place → Place} (early : SafeOperation less first)
    (late : SafeOperation more second) :
    SafeOperation (less + more) fun place => second (first place) where
  regular place count regular room := by
    have enough : place.Room (less + (more + count)) := room.mono (by omega)
    exact late.regular _ count (early.regular place _ regular enough) (early.room place _ enough)
  within place count room := by
    have enough : place.Room (less + (more + count)) := room.mono (by omega)
    exact (early.within place _ enough).andThen (late.within _ count (early.room place _ enough))
  room place count room := by
    have enough : place.Room (less + (more + count)) := room.mono (by omega)
    exact late.room _ count (early.room place _ enough)

theorem create (label : String) : SafeOperation 1 fun place => place.create label where
  regular place count regular room := by
    have enough : place.Room (count + 1) := room.mono (by omega)
    exact regular.create enough label
  within place count room := by
    have enough : place.Room (count + 1) := room.mono (by omega)
    exact Place.within_create enough (Nat.le_refl _) label
  room place count room := by
    have enough : place.Room (count + 1) := room.mono (by omega)
    exact enough.create label

theorem leaveTo (target : BlockId) : SafeOperation 0 fun place => place.leaveTo target where
  regular _ _ regular _ := regular.leaveTo target
  within place _ _ := Place.within_leaveTo _ place target
  room _ count room := (room.mono (by omega : count ≤ 0 + count)).leaveTo target

theorem returnIfLive (value : Option Operand) :
    SafeOperation 0 fun place => place.returnIfLive value where
  regular _ _ regular _ := regular.returnIfLive value
  within place _ _ := Place.within_returnIfLive _ place value
  room _ count room := (room.mono (by omega : count ≤ 0 + count)).returnIfLive value

end SafeOperation

/-- A small operation leads from the first place to the second one. -/
def Place.StepsTo (place after : Place) : Prop :=
  ∃ operate, SafeOperation 4 operate ∧ operate place = after

section Steps

variable {program : Program} {final : Session} {name : String} {session next : Session}
  {place after : Place}

theorem Place.stepsTo {cost : Nat} {operate : Place → Place} (safe : SafeOperation cost operate)
    (few : cost ≤ 4) (place : Place) : Place.StepsTo place (operate place) :=
  ⟨operate, safe.mono few, rfl⟩

theorem stepsTo_fillSlot (ty : Source.Ty) (value : Option Operand) (place : Place) :
    Place.StepsTo place (fillSlot ty value place) := by
  have slot : SafeOperation 2 fun place => place.ready.define .ptr fun result =>
      .alloca result (codeType ty) (alignment ty) := .define _ fun _ => rfl
  cases value with
  | none => exact Place.stepsTo slot (by decide) place
  | some value =>
      have store : SafeOperation 1 fun next =>
        next.ready.add (.store (.temp place.ready.freshTemp) value) := .add rfl
      exact Place.stepsTo (slot.andThen store) (by decide) place

theorem stepsTo_storeInitial (decl : VarDecl) (global : Operand) (value : Option Operand)
    (place : Place) : Place.StepsTo place (storeInitial program decl global value place) := by
  unfold storeInitial
  split
  · split
    · exact Place.stepsTo (.add rfl) (by decide) place
    · exact Place.stepsTo .same (by decide) place
  · exact Place.stepsTo .same (by decide) place

theorem Emits.stepsTo {node : Source.ExprNode} {values : List Operand} {value : Option Operand}
    (emits : Emits program final node values place value after) : Place.StepsTo place after := by
  cases emits with
  | booleanLiteral | integerLiteral => exact Place.stepsTo .same (by decide) place
  | stringLiteral | identifier | callValue | negate | arith | compare | concat =>
      exact Place.stepsTo (.define _ fun _ => rfl) (by decide) place
  | callNothing | assign => exact Place.stepsTo (.add rfl) (by decide) place
  | @compareStrings _ _ _ _ condition first second _ _ _ _ compares =>
      subst compares
      have orders : SafeOperation 2 fun place => place.ready.define StringLibrary.orderingType
        fun result => .call (some result) StringLibrary.equals [first, second] :=
          .define _ fun _ => rfl
      have compares : SafeOperation 2 fun next => next.ready.define .bool fun result =>
        .compare result condition (.temp place.ready.freshTemp)
          (.constant (.int 0 StringLibrary.orderingType.width)) := .define _ fun _ => rfl
      exact Place.stepsTo (orders.andThen compares) (by decide) place

theorem Task.Performs.stepsTo {task : Task} (performs : task.Performs program name session next)
    (building : task.isBuilding = true) (builds : session.Builds name place) :
    ∃ after, Place.StepsTo place after ∧ next.Builds name after := by
  cases performs with
  | param _ stands =>
      cases builds.unique stands
      exact ⟨_, stepsTo_fillSlot _ _ _, (builds.put _).position, (builds.put _).body⟩
  | slot _ _ _ _ stands =>
      cases builds.unique stands
      exact ⟨_, stepsTo_fillSlot _ _ _, (builds.put _).position, (builds.put _).body⟩
  | global _ _ _ _ _ stands =>
      cases builds.unique stands
      exact ⟨_, stepsTo_storeInitial _ _ _ _, ((builds.addGlobal _ _).put _).position,
        ((builds.addGlobal _ _).put _).body⟩
  | @expr _ expr _ _ _ _ _ emits records =>
      cases emits with
      | @intro _ after values stands _ emits same =>
          cases builds.unique stands
          refine ⟨after, emits.stepsTo, ?_⟩
          rw [Session.Builds, (recordValue_eq_ok records).1, same]
          exact (builds.prepare expr.node).put after
  | create stands =>
      cases builds.unique stands
      exact ⟨_, Place.stepsTo (.create _) (by decide) place, builds.put _⟩
  | loop | come =>
      exact ⟨_, Place.stepsTo .same (by decide) place, builds.position, builds.body⟩
  | test stands | jump stands =>
      cases builds.unique stands
      exact ⟨_, Place.stepsTo (.terminate _) (by decide) place, builds.put _⟩
  | leave stands =>
      cases builds.unique stands
      exact ⟨_, Place.stepsTo (.leaveTo _) (by decide) place, builds.put _⟩
  | returnIfLive stands =>
      cases builds.unique stands
      exact ⟨_, Place.stepsTo (.returnIfLive _) (by decide) place, builds.put _⟩
  | start | enter | finish | resume => cases building

/-! ### Waiting blocks -/

variable {origin : Place} {waits : List BlockId}

theorem Session.Grown.start (builds : session.Builds name place) (regular : place.Regular) :
    session.Grown name place [] :=
  .intro builds regular (.refl _ place) (fun _ member => by cases member)
    (fun _ member => by cases member) List.nodup_nil

theorem Session.Grown.builds (grown : session.Grown name origin waits) :
    ∃ place, session.Builds name place := by
  cases grown with
  | intro builds => exact ⟨_, builds⟩

/-- What grows out of the place at hand leaves the blocks alone that wait. -/
theorem Session.Grown.trans (builds : session.Builds name place) (regular : place.Regular)
    (grown : session.Grown name origin waits) (later : next.Grown name place []) :
    next.Grown name origin waits := by
  cases grown with
  | intro stands _ within waiting new apart =>
      cases builds.unique stands
      cases later with
      | intro buildsNext regularNext withinNext =>
          refine .intro buildsNext regularNext (within.trans (withinNext.mono within.blocks))
            (fun id member => ?_) new apart
          rcases waiting id member with ⟨label, waits⟩
          exact ⟨label, waits.within withinNext (waits.number_lt regular)⟩

theorem Session.Grown.step {task : Task} (grown : session.Grown name origin waits)
    (performs : task.Performs program name session next) (building : task.isBuilding = true)
    (numbers : session.hasNumbers = true) (temps : session.hasTemps = true) :
    next.Grown name origin waits := by
  cases grown with
  | intro builds regular within waiting new apart =>
      rcases performs.stepsTo building builds with ⟨after, ⟨operate, safe, rfl⟩, buildsNext⟩
      have room := builds.room numbers temps
      refine .trans builds regular (.intro builds regular within waiting new apart) ?_
      exact .intro buildsNext (safe.regular _ 12 regular room) (safe.within _ 12 room)
        (fun _ member => by cases member) (fun _ member => by cases member) List.nodup_nil

theorem Session.Grown.create {id : StmtId} {label : String} {block : BlockId}
    (grown : session.Grown name origin waits)
    (performs : (Task.create id label block).Performs program name session next)
    (numbers : session.hasNumbers = true) (temps : session.hasTemps = true) :
    next.Grown name origin (block :: waits) := by
  have steps := grown.step performs rfl numbers temps
  cases grown with
  | intro builds regular within waiting new apart =>
      cases performs with
      | create stands =>
          cases builds.unique stands
          cases steps with
          | intro buildsNext regularNext withinNext waitingNext =>
              cases buildsNext.unique (builds.put _)
              refine .intro buildsNext regularNext withinNext
                (List.forall_mem_cons.mpr ⟨⟨label, .created regular label⟩, waitingNext⟩)
                (List.forall_mem_cons.mpr ⟨within.blocks, new⟩)
                (List.nodup_cons.mpr ⟨fun member => ?_, apart⟩)
              rcases waiting _ member with ⟨other, waits⟩
              exact waits.ne_fresh regular rfl

theorem Session.Grown.enter {id : StmtId} {block : BlockId} {closing : Bool}
    (grown : session.Grown name origin (block :: waits))
    (performs : (Task.enter id block closing).Performs program name session next) :
    next.Grown name origin waits := by
  cases grown with
  | @intro place builds regular within waiting new apart =>
      rcases List.forall_mem_cons.mp waiting with ⟨⟨label, awaited⟩, waiting⟩
      rcases List.forall_mem_cons.mp new with ⟨isNew, new⟩
      rcases List.nodup_cons.mp apart with ⟨notWaiting, apart⟩
      have enters := Lowering.enter_eq builds regular awaited.detached awaited.away closing
      have isNext : next = session.put name (place.enter block closing) := by
        cases performs with
        | enter stands entersNext =>
            cases builds.unique stands
            rw [attempt_enter builds, entersNext] at enters
            exact congrArg Prod.snd (Except.ok.inj enters)
      rw [isNext]
      refine .intro (builds.put _) (regular.enter awaited.detached awaited.away closing)
        (within.trans (Place.within_enter place isNew closing)) (fun id member => ?_) new apart
      rcases waiting id member with ⟨label, awaits⟩
      refine ⟨label, awaits.enter_other ?_ closing⟩
      rintro rfl
      exact notWaiting member

theorem Session.Grown.perm {reordered : List BlockId} (grown : session.Grown name origin waits)
    (same : waits.Perm reordered) : session.Grown name origin reordered := by
  cases grown with
  | intro builds regular within waiting new apart =>
      exact .intro builds regular within (fun id member => waiting id (same.mem_iff.mpr member))
        (fun id member => new id (same.mem_iff.mpr member)) (same.nodup_iff.mp apart)

end Steps

theorem Codes.grown {program : Program} {name : String} {origin : Place} {waits : List BlockId}
    {first last : Session} {events : List Event} (codes : Codes program name first events last)
    (grown : first.Grown name origin waits) (numbered : Numbered events)
    (temps : ∀ event ∈ events, event.before.hasTemps = true) :
    last.Grown name origin waits ∧ ∀ other, other ≠ name →
      last.cursor.module.function? other = first.cursor.module.function? other := by
  rcases grown.builds with ⟨place, builds⟩
  have tasks := codes.tasks
  have journey : Journey program (· = name) first events last := codes.journey builds rfl
  rcases journey with ⟨path, works⟩
  clear codes builds
  induction path with
  | nil => exact ⟨grown, fun _ _ => rfl⟩
  | @cons _ event events last _ _ induction =>
      rcases works event List.mem_cons_self with ⟨_, rfl, performs⟩
      rcases tasks event List.mem_cons_self with ⟨id, isExpr⟩
      have building : event.task.isBuilding = true := by
        rw [isExpr]
        rfl
      have steps := grown.step performs building (numbered event List.mem_cons_self)
        (temps event List.mem_cons_self)
      have rest := induction steps (fun other member => numbered other (List.mem_cons_of_mem _ member))
        (fun other member => temps other (List.mem_cons_of_mem _ member))
        (fun other member => tasks other (List.mem_cons_of_mem _ member))
        (fun other member => works other (List.mem_cons_of_mem _ member))
      refine ⟨rest.1, fun other different => (rest.2 other different).trans ?_⟩
      exact performs.rebuilds.others other different

/-! ## Parts of statements -/

/-- Wherever the cursor stands at a regular place, what is told leads to another one in the same
function. -/
def Told.Steady {α : Type} (program : Program) (told : Told α) : Prop :=
  ∀ (open_ : String → Prop) (name : String) (session : Session) (place : Place), open_ name →
    session.Builds name place → place.Regular →
    told.Regularly program open_ session fun _ next => next.Grown name place []

section Parts

variable {α β : Type} {program : Program} {open_ : String → Prop} {name : String}
  {origin : Place} {waits : List BlockId} {session : Session} {final : β → Session → Prop}

namespace Session.Grown

/-- A part of a statement leaves the blocks alone that wait. -/
theorem part {told : Told α} (grown : session.Grown name origin waits) (isOpen : open_ name)
    (steady : told.Steady program) :
    told.Regularly program open_ session fun _ next => next.Grown name origin waits := by
  cases grown with
  | intro builds regular within waiting new apart =>
      exact (steady open_ name session _ isOpen builds regular).mono fun _ _ =>
        .trans builds regular (.intro builds regular within waiting new apart)

theorem tells {task : α → Task} {step : Lower α} (grown : session.Grown name origin waits)
    (isOpen : open_ name) (building : ∀ value, (task value).isBuilding = true)
    (performs : ∀ place, session.Builds name place → step.Ensures session
      (fun value next => (task value).Performs program name session next) fun _ => True) :
    (Told.telling task step).Regularly program open_ session
      fun _ next => next.Grown name origin waits := by
  rcases grown.builds with ⟨place, builds⟩
  refine .telling isOpen (performs place builds) (fun value next other isFinish => ?_)
    fun value next performs => grown.step performs (building value)
  have isFinish : task value = .finish other := isFinish
  have contradiction := building value
  rw [isFinish] at contradiction
  cases contradiction

theorem creates (grown : session.Grown name origin waits) (isOpen : open_ name) (id : StmtId)
    (label : String) : (tellCreate id label).Regularly program open_ session
      fun block next => next.Grown name origin (block :: waits) := by
  rcases grown.builds with ⟨place, builds⟩
  exact .telling isOpen (.of_ok (createBlock_eq builds label) (.create builds))
    (fun _ _ _ isFinish => by cases isFinish) fun _ _ performs => grown.create performs

theorem enters {block : BlockId} (grown : session.Grown name origin (block :: waits))
    (isOpen : open_ name) (id : StmtId) (closing : Bool) :
    (tellEnter id block closing).Regularly program open_ session
      fun _ next => next.Grown name origin waits := by
  rcases grown.builds with ⟨place, builds⟩
  exact .telling isOpen ((Lower.Ensures.self _ _).mono fun _ _ runs => .of_enter builds runs)
    (fun _ _ _ isFinish => by cases isFinish) fun _ _ performs _ _ => grown.enter performs

end Session.Grown

namespace Told.Steady

theorem pure (value : α) : (Pure.pure value : Told α).Steady program :=
  fun _ _ _ _ _ builds regular => .pure (.start builds regular)

theorem bind {told : Told α} {rest : α → Told β} (steady : told.Steady program)
    (goesOn : ∀ value, (rest value).Steady program) : (told >>= rest).Steady program :=
  fun open_ name session place isOpen builds regular =>
    (steady open_ name session place isOpen builds regular).andThen fun value _ grown =>
      grown.part isOpen (goesOn value)

theorem orFault (found : Option α) (fault : ProgramFault) :
    (Told.asking (Lower.orFault found fault)).Steady program := by
  cases found with
  | none => exact fun _ _ _ _ _ _ _ => .fault fault
  | some value => exact pure value

theorem forM {ι : Type} {items : List ι} {body : ι → Told Unit}
    (steady : ∀ item, (body item).Steady program) : (items.forM body).Steady program := by
  induction items with
  | nil => exact pure ()
  | cons item rest induction => exact bind (steady item) fun _ => induction

theorem telling {task : α → Task} {step : Lower α} (building : ∀ value, (task value).isBuilding = true)
    (performs : ∀ name session place, Session.Builds session name place → step.Ensures session
      (fun value next => (task value).Performs program name session next) fun _ => True) :
    (Told.telling task step).Steady program :=
  fun _ name session _ isOpen builds regular =>
    (Session.Grown.start builds regular).tells isOpen building fun place builds =>
      performs name session place builds

/-! ### Expressions and variables -/

theorem tellExpr (id : ExprId) : (tellExpr program id).Steady program := by
  intro open_ name session place isOpen builds regular clear
  rcases result : Lowering.tellExpr program id session with ⟨events, error | ⟨value, next⟩⟩
  · have nothing : (Lowering.tellExpr program id session).1 = [] :=
      tellExprWithin_of_error (congrArg Prod.snd result)
    rw [result] at nothing
    cases nothing
    exact ⟨List.forall_mem_nil _, nofun⟩
  · rw [result] at clear
    have codes := (tellExprWithin_codes _ id builds events value next result).1
    have facts := codes.grown (.start builds regular) clear.numbered clear.temps
    refine ⟨fun event member other isFinish => ?_, ?_⟩
    · rcases codes.tasks event member with ⟨expr, isExpr⟩
      rw [isExpr] at isFinish
      cases isFinish
    · rintro _ _ ⟨⟩
      refine ⟨fun other closed _ => facts.2 other ?_, facts.1⟩
      rintro rfl
      exact closed isOpen

theorem tellValue (id : ExprId) : (tellValue program id).Steady program :=
  bind (tellExpr id) fun _ => orFault _ _

theorem tellEffect (id : ExprId) : (tellEffect program id).Steady program :=
  bind (tellExpr id) fun _ => pure ()

theorem tellExprs (ids : List ExprId) : (tellExprs program ids).Steady program :=
  forM tellEffect

theorem tellInitial (decl : VarDecl) : (tellInitial program decl).Steady program := by
  unfold Lowering.tellInitial
  cases decl.initial with
  | none => exact pure none
  | some expr => exact bind (tellValue expr) fun value => pure (some value)

theorem tellVarDecl (id : VarId) : (tellVarDecl program id).Steady program := by
  intro open_ name session place isOpen builds regular
  refine .orFault_bind fun decl found => ?_
  split
  · exact .fault _
  · rename_i notVoid
    refine (tellInitial decl open_ name session place isOpen builds regular).bind
      fun value next runs grown => ?_
    have has := (tellInitial_codes decl builds _ value next (Prod.ext rfl runs)).2
    refine grown.tells (.inl isOpen) (fun _ => rfl) fun place builds => ?_
    cases scope : decl.scope with
    | topLevel => exact performs_lowerGlobal found notVoid scope has builds
    | «local» => exact performs_lowerLocal found notVoid scope has builds

theorem tellReturn {id : StmtId} {result : Option ExprId}
    (known : program.stmt? id = some (.returnValue result)) :
    (tellReturn program id result).Steady program := by
  have returns (open_ : String → Prop) (name : String) (origin : Place) (session : Session)
      (isOpen : open_ name) (grown : session.Grown name origin []) (value : Option Operand)
      (recorded : result.toList.map session.annotations.value? = value.toList.map some) :
      (Told.telling (fun _ => .jump id) (Lower.append fun cursor => cursor.ret value)).Regularly
        program open_ session fun _ next => next.Grown name origin [] := by
    refine grown.tells isOpen (fun _ => rfl) fun place builds => ?_
    refine .of_ok (append_terminate_eq builds _) (.jump builds ?_)
    rw [Session.JumpsBy, known]
    exact ⟨value, rfl, recorded⟩
  intro open_ name session place isOpen builds regular
  cases result with
  | none => exact returns open_ name place session isOpen (.start builds regular) none rfl
  | some expr =>
      refine (tellValue expr open_ name session place isOpen builds regular).bind
        fun value next runs grown => ?_
      have recorded := (tellValue_codes expr builds _ value next (Prod.ext rfl runs)).2
      exact returns _ name place next (.inl isOpen) grown (some value)
        (congrArg (fun known => [known]) recorded)

theorem tellJump {id target : StmtId} {terminator : LoopBlocks → Code.Terminator}
    (means : ∀ (session : Session) (blocks : LoopBlocks),
      session.annotations.loopOf target = .ok blocks → session.JumpsBy program id (terminator blocks)) :
    (Told.telling (fun _ => .jump id) (do
      let blocks ← Lower.consult fun annotations => annotations.loopOf target
      Lower.append fun cursor => cursor.terminate (terminator blocks))).Steady program :=
  telling (fun _ => rfl) fun _ session _ builds => .consult_bind (fun _ _ => trivial)
    fun blocks found => .of_ok (append_terminate_eq builds _) (.jump builds (means session blocks found))

/-! ### Control flow -/

theorem tellLoop (id : StmtId) (blocks : LoopBlocks) : (tellLoop id blocks).Steady program :=
  telling (fun _ => rfl) fun _ _ _ builds => .of_bind_pure (.annotate_bind (fun _ _ => trivial)
    fun _ sets => .pure (.loop builds sets))

theorem tellTest (id : StmtId) (value : Operand) (thenBlock elseBlock : BlockId) :
    (tellTest id value thenBlock elseBlock).Steady program :=
  telling (fun _ => rfl) fun _ _ _ builds => .of_ok (append_terminate_eq builds _) (.test builds)

theorem tellLeave (id : StmtId) (target : BlockId) : (tellLeave id target).Steady program :=
  telling (fun _ => rfl) fun _ _ _ builds => .of_ok (leaveTo_eq builds _) (.leave builds)

variable {tell : StmtId → Told Unit}

theorem tellIf (id : StmtId) (condition : ExprId) {thenBody : StmtId} {elseBody : Option StmtId}
    (steady : ∀ child ∈ thenBody :: elseBody.toList, (tell child).Steady program) :
    (tellIf program tell id condition thenBody elseBody).Steady program := by
  intro open_ name session place isOpen builds regular
  have inThen := steady thenBody List.mem_cons_self
  refine (tellValue condition open_ name session place isOpen builds regular).andThen
    fun value _ grown => ?_
  refine (grown.creates isOpen id "if.then").andThen fun thenBlock _ grown => ?_
  refine (grown.creates isOpen id "if.end").andThen fun endBlock _ grown => ?_
  cases elseBody with
  | none =>
      refine (grown.part isOpen (tellTest id value _ _)).andThen fun _ _ grown => ?_
      have first := grown.perm (.swap thenBlock endBlock [])
      refine (first.enters isOpen id false).andThen fun _ _ grown => ?_
      refine (grown.part isOpen inThen).andThen fun _ _ grown => ?_
      refine (grown.part isOpen (tellLeave id endBlock)).andThen fun _ _ grown => ?_
      exact grown.enters isOpen id true
  | some elseBody =>
      have inElse := steady elseBody (by simp)
      refine (grown.creates isOpen id "if.else").andThen fun elseBlock _ grown => ?_
      refine (grown.part isOpen (tellTest id value _ _)).andThen fun _ _ grown => ?_
      have reordered : [elseBlock, endBlock, thenBlock].Perm [thenBlock, elseBlock, endBlock] :=
        (List.perm_append_comm : ([elseBlock, endBlock] ++ [thenBlock]).Perm _)
      refine ((grown.perm reordered).enters isOpen id false).andThen fun _ _ grown => ?_
      refine (grown.part isOpen inThen).andThen fun _ _ grown => ?_
      refine (grown.part isOpen (tellLeave id endBlock)).andThen fun _ _ grown => ?_
      refine (grown.enters isOpen id false).andThen fun _ _ grown => ?_
      refine (grown.part isOpen inElse).andThen fun _ _ grown => ?_
      refine (grown.part isOpen (tellLeave id endBlock)).andThen fun _ _ grown => ?_
      exact grown.enters isOpen id true

theorem tellWhile (id : StmtId) (condition : ExprId) {body : StmtId}
    (steady : (tell body).Steady program) :
    (tellWhile program tell id condition body).Steady program := by
  intro open_ name session place isOpen builds regular
  have grown := Session.Grown.start builds regular
  refine (grown.creates isOpen id "while.cond").andThen fun condBlock _ grown => ?_
  refine (grown.creates isOpen id "while.body").andThen fun bodyBlock _ grown => ?_
  refine (grown.creates isOpen id "while.end").andThen fun endBlock _ grown => ?_
  refine (grown.part isOpen (tellLoop id ⟨condBlock, none, endBlock⟩)).andThen fun _ _ grown => ?_
  have reordered : [endBlock, bodyBlock, condBlock].Perm [condBlock, bodyBlock, endBlock] :=
    List.reverse_perm [condBlock, bodyBlock, endBlock]
  refine ((grown.perm reordered).enters isOpen id false).andThen fun _ _ grown => ?_
  refine (grown.part isOpen (tellValue condition)).andThen fun value _ grown => ?_
  refine (grown.part isOpen (tellTest id value bodyBlock endBlock)).andThen fun _ _ grown => ?_
  refine (grown.enters isOpen id false).andThen fun _ _ grown => ?_
  refine (grown.part isOpen steady).andThen fun _ _ grown => ?_
  refine (grown.part isOpen (tellLeave id condBlock)).andThen fun _ _ grown => ?_
  exact grown.enters isOpen id true

theorem tellForInit {initial : ForInit}
    (steady : ∀ stmt, initial = .decl stmt → (tell stmt).Steady program) :
    (tellForInit program tell initial).Steady program := by
  cases initial with
  | decl stmt => exact steady stmt rfl
  | exprs exprs => exact tellExprs exprs

theorem tellForCondition (id : StmtId) (endBlock : BlockId) (condition : Option ExprId) :
    (tellForCondition program id endBlock condition).Steady program := by
  cases condition with
  | none => exact pure ()
  | some condition =>
      intro open_ name session place isOpen builds regular
      have grown := Session.Grown.start builds regular
      refine (grown.creates isOpen id "for.body").andThen fun bodyBlock _ grown => ?_
      refine (grown.part isOpen (tellValue condition)).andThen fun value _ grown => ?_
      refine (grown.part isOpen (tellTest id value bodyBlock endBlock)).andThen fun _ _ grown => ?_
      exact grown.enters isOpen id false

theorem createsUpdate (grown : session.Grown name origin waits) (isOpen : open_ name) (id : StmtId)
    (updates : List ExprId) : (tellUpdateBlock id updates).Regularly program open_ session
      fun block next => next.Grown name origin (block.toList ++ waits) := by
  unfold tellUpdateBlock
  split
  · exact .pure grown
  · exact (grown.creates isOpen id "for.update").andThen fun block _ grown => .pure grown

theorem tellUpdates (isOpen : open_ name) (id : StmtId) (updates : List ExprId)
    (block : Option BlockId) (grown : session.Grown name origin (block.toList ++ waits)) :
    (tellForUpdates program id updates block).Regularly program open_ session
      fun _ next => next.Grown name origin waits := by
  cases block with
  | none => exact .pure grown
  | some block =>
      refine (grown.enters isOpen id false).andThen fun _ _ grown => ?_
      exact grown.part isOpen (tellExprs updates)

theorem tellFor (id : StmtId) {initial : ForInit} (condition : Option ExprId)
    (updates : List ExprId) {body : StmtId}
    (steadyInit : ∀ stmt, initial = .decl stmt → (tell stmt).Steady program)
    (steady : (tell body).Steady program) :
    (tellFor program tell id initial condition updates body).Steady program := by
  intro open_ name session place isOpen builds regular
  have grown := Session.Grown.start builds regular
  refine (grown.part isOpen (tellForInit steadyInit)).andThen fun _ _ grown => ?_
  refine (grown.creates isOpen id "for.cond").andThen fun condBlock _ grown => ?_
  refine (grown.creates isOpen id "for.end").andThen fun endBlock _ grown => ?_
  have first := grown.perm (.swap condBlock endBlock [])
  refine (first.enters isOpen id false).andThen fun _ _ grown => ?_
  refine (createsUpdate grown isOpen id updates).andThen fun updateBlock _ grown => ?_
  refine (grown.part isOpen (tellLoop id ⟨condBlock, updateBlock, endBlock⟩)).andThen
    fun _ _ grown => ?_
  refine (grown.part isOpen (tellForCondition id endBlock condition)).andThen fun _ _ grown => ?_
  refine (grown.part isOpen steady).andThen fun _ _ grown => ?_
  refine (tellUpdates isOpen id updates updateBlock grown).andThen fun _ _ grown => ?_
  refine (grown.part isOpen (tellLeave id condBlock)).andThen fun _ _ grown => ?_
  exact grown.enters isOpen id true

end Told.Steady

/-! ## Functions -/

theorem Told.telling_fst {task : α → Task} {step : Lower α} {value : α} {next : Session}
    (runs : (Told.telling task step session).2 = .ok (value, next)) :
    (Told.telling task step session).1 = [⟨task value, session, next⟩] := by
  unfold Told.telling at runs ⊢
  cases result : step session with
  | error error =>
      rw [result] at runs
      cases runs
  | ok pair =>
      rw [result] at runs
      cases runs
      rfl

namespace Told.Regularly

/-- A function is opened empty, and it has not been open before. -/
theorem start (function : String) :
    (Told.telling (fun _ => .start function) (openFunction function)).Regularly program open_ session
      fun _ next => next.Grown function (Place.mk .empty none).opened [] ∧ ¬ open_ function ∧
        ∀ other, other ≠ function →
          next.cursor.module.function? other = session.cursor.module.function? other := by
  unfold Regularly Told.telling
  cases result : openFunction function session with
  | error error => exact fun _ => ⟨List.forall_mem_nil _, nofun⟩
  | ok pair =>
      rcases pair with ⟨_, opened⟩
      have performs : (Task.start function).Performs program function session opened :=
        (performs_openFunction session function).post_of_ok result
      intro clear
      have isStarted : function ∈ started [⟨.start function, session, opened⟩] :=
        List.mem_singleton_self _
      refine ⟨fun event member name isFinish => ?_, ?_⟩
      · cases List.mem_singleton.mp member
        cases isFinish
      · rintro _ _ ⟨⟩
        refine ⟨fun other _ unopened => performs.rebuilds.others other ?_, ?_, clear.apart _ isStarted,
          fun other => performs.rebuilds.others other⟩
        · rintro rfl
          exact unopened isStarted
        · cases performs with
          | start found =>
              have builds : (session.put function (Place.mk .empty none).opened).Builds function
                  (Place.mk .empty none).opened :=
                ⟨rfl, _, by rw [Session.function?_put, if_pos rfl, found]; rfl, rfl⟩
              rw [clear.empty _ isStarted _ found]
              exact .start builds regular_opened

theorem finish {finish : String → Lower Unit} (finishes : Finishes finish) {place : Place}
    (isOpen : open_ name) (builds : session.Builds name place) (regular : place.Regular)
    (owes : place.isLive = true → ∃ id decl, program.function? id = some decl ∧ decl.name = name ∧
      decl.returnsNothing = false) :
    (Told.telling (fun _ => .finish name) (finish name)).Regularly program open_ session
      fun _ next => ∃ after, next.Builds name after := by
  refine .telling isOpen ((finishes name session place builds).mono fun _ next same => ?_)
    (fun _ _ other isFinish => ?_) fun _ next performs _ _ => performs.stands nofun
  · subst same
    exact .finish builds
  · cases isFinish
    exact ⟨place, builds, regular, owes⟩

theorem returnIfLive (isOpen : open_ name) (grown : session.Grown name origin [])
    (value : Option Operand) :
    (Told.telling (fun _ => .returnIfLive value) (returnIfLive value)).Regularly program open_ session
      fun _ next => ∃ after, next.Builds name after ∧ after.Regular ∧ after.isLive = false := by
  cases grown with
  | @intro place builds regular =>
      refine .telling isOpen (.of_ok (returnIfLive_eq builds value) (.returnIfLive builds))
        (fun _ _ _ isFinish => by cases isFinish) fun _ next performs _ _ => ?_
      cases performs with
      | returnIfLive stands =>
          cases builds.unique stands
          exact ⟨_, builds.put _, regular.returnIfLive value, Place.isLive_returnIfLive place value⟩

end Told.Regularly

variable {tell : StmtId → Told Unit} {finish : String → Lower Unit} (finishes : Finishes finish)

include finishes

theorem regularly_tellFunctionBody {func : FuncId} {decl : FunctionDecl}
    (known : program.function? func = some decl) (steady : (tell decl.body).Steady program)
    (isOpen : open_ decl.name) (grown : session.Grown decl.name origin []) :
    (tellFunctionBody program finish tell decl).Regularly program open_ session
      fun _ next => ∃ after, next.Builds decl.name after := by
  have params : (decl.params.zipIdx.forM fun pair => Told.telling (fun _ => .param pair.1 pair.2)
      (lowerParam program pair.1 pair.2)).Steady program :=
    .forM fun pair => .telling (fun _ => rfl) fun _ _ _ builds => performs_lowerParam builds pair.1 pair.2
  refine (grown.part isOpen params).andThen fun _ _ grown => ?_
  refine (grown.part isOpen steady).andThen fun _ next grown => ?_
  cases returns : decl.returnsNothing with
  | true =>
      refine (Told.Regularly.returnIfLive isOpen grown none).andThen fun _ _ facts => ?_
      rcases facts with ⟨after, builds, regular, dead⟩
      refine .finish finishes isOpen builds regular fun live => ?_
      rw [dead] at live
      cases live
  | false =>
      cases grown with
      | intro builds regular =>
          exact .finish finishes isOpen builds regular fun _ => ⟨func, decl, known, rfl, returns⟩

namespace Told.Steady

theorem tellFunctionDecl {func : FuncId}
    (steady : ∀ decl, program.function? func = some decl → (tell decl.body).Steady program) :
    (tellFunctionDecl program finish tell func).Steady program := by
  intro open_ name session place isOpen builds regular
  refine .orFault_bind fun decl found => .cursor_bind ?_
  refine (Told.Regularly.start decl.name).bind fun _ opened runs facts => ?_
  rcases facts with ⟨grown, notOpen, others⟩
  have different : name ≠ decl.name := by
    rintro rfl
    exact notOpen isOpen
  have body : (tellFunctionBody program finish tell decl).Regularly program (· = decl.name) opened
      fun _ next => ∃ after, next.Builds decl.name after :=
    regularly_tellFunctionBody finishes found (steady decl found) rfl grown
  have isStarted : decl.name ∈ started (Told.telling (fun _ => Task.start decl.name)
      (openFunction decl.name) session).1 := by
    rw [Told.telling_fst runs]
    exact List.mem_singleton_self _
  have within : ∀ other, other = decl.name → open_ other ∨ other ∈ started (Told.telling
      (fun _ => Task.start decl.name) (openFunction decl.name) session).1 := by
    rintro _ rfl
    exact .inr isStarted
  refine (body.widen within).andThen fun _ closed facts => ?_
  rcases facts with ⟨⟨after, stands⟩, outside⟩
  refine .telling (within _ rfl) (.of_ok rfl (.resume stands)) (fun _ _ _ isFinish => by cases isFinish)
    fun _ next performs _ _ => ?_
  cases performs with
  | resume =>
      rcases builds.body with ⟨function, known, same⟩
      refine .start ⟨builds.position, function, ?_, same⟩ regular
      change closed.cursor.module.function? name = some function
      rw [outside name (.inl isOpen) different, others name different]
      exact known

theorem tellNodeOf {id : StmtId} {stmt : Stmt} (known : program.stmt? id = some stmt)
    (steady : ∀ child, (tell child).Steady program) :
    (tellNodeOf program finish tell id stmt).Steady program := by
  cases stmt with
  | expr expr => exact tellEffect expr
  | compound stmts => exact forM steady
  | varDecl vars => exact forM tellVarDecl
  | functionDecl func => exact tellFunctionDecl finishes fun decl _ => steady decl.body
  | ifThenElse condition thenBody elseBody => exact tellIf id condition fun child _ => steady child
  | whileLoop condition body => exact tellWhile id condition (steady body)
  | forLoop initial condition updates body =>
      exact tellFor id condition updates (fun stmt _ => steady stmt) (steady body)
  | continueLoop target =>
      refine tellJump fun session blocks found => ?_
      rw [Session.JumpsBy, known]
      exact ⟨blocks, found, rfl⟩
  | breakLoop target =>
      refine tellJump fun session blocks found => ?_
      rw [Session.JumpsBy, known]
      exact ⟨blocks, found, rfl⟩
  | returnValue result => exact tellReturn known

theorem tellStmtWithin (depth : Nat) (id : StmtId) :
    (tellStmtWithin program finish depth id).Steady program := by
  induction depth generalizing id with
  | zero => exact fun _ _ _ _ _ _ _ => .fault _
  | succ depth induction =>
      intro open_ name session place isOpen builds regular
      have comes : (Told.telling (fun _ => .come (depth + 1) id) (return ())).Steady program :=
        telling (fun _ => rfl) fun _ _ _ builds => .pure (.come builds)
      refine (comes open_ name session place isOpen builds regular).andThen fun _ session grown => ?_
      refine .orFault_bind fun stmt known => ?_
      exact grown.part isOpen (tellNodeOf finishes known induction)

end Told.Steady

/-! ## Runs -/

theorem regularly_tellItems (entry : String) (session : Session) :
    (tellItems program finish entry).Regularly program (fun _ => False) session fun _ _ => True := by
  refine (Told.Regularly.start entry).bind fun _ opened runs facts => ?_
  rcases facts with ⟨grown, _⟩
  have isOpen : False ∨ entry ∈ started (Told.telling (fun _ => Task.start entry)
      (openFunction entry) session).1 := by
    rw [Told.telling_fst runs]
    exact .inr (List.mem_singleton_self _)
  have items : (program.items.forM (tellStmtWithin program finish (stmtDepth program))).Steady
      program := .forM (Told.Steady.tellStmtWithin finishes _)
  refine (grown.part isOpen items).andThen fun _ _ grown => ?_
  refine (Told.Regularly.returnIfLive isOpen grown _).andThen fun _ _ facts => ?_
  rcases facts with ⟨after, builds, regular, dead⟩
  refine (Told.Regularly.finish finishes isOpen builds regular fun live => ?_).mono
    fun _ _ _ => trivial
  rw [dead] at live
  cases live

end Parts

variable {program : Program} {options : Options} {event : Event} {name : String}

theorem finishesRegular_of_mem_history (once : (started (history program options)).Nodup)
    (numbered : Numbered (history program options))
    (temps : ∀ event ∈ history program options, event.before.hasTemps = true)
    (member : event ∈ history program options) : event.FinishesRegular program := by
  rcases exists_declared_of_mem_history member with ⟨declared, declares, told⟩
  rw [told] at once numbered temps member
  refine (regularly_tellItems (finishes_finishFunction options) _ _ ?_).1 event member
  refine ⟨numbered, temps, once, fun _ _ => id, fun other _ function found => ?_⟩
  rcases holds_declareAll declares with ⟨signatures, _, ⟨_, holds⟩, _⟩
  rcases (holds other function).mp found with ⟨signature, _, _, rfl⟩
  rfl

/-- A finished function has the shape of finished functions, and only a function that owes a
value can have a loose end, which is then where the cursor stands. -/
theorem finished_function_wellShaped (once : (started (history program options)).Nodup)
    (numbered : Numbered (history program options))
    (temps : ∀ event ∈ history program options, event.before.hasTemps = true)
    (member : event ∈ history program options) (finishes : event.task = .finish name) :
    ∃ pruned cursor function, event.before.cursor.finalize name = .ok (pruned, cursor) ∧
      cursor.module.function? name = some function ∧
      function.WellShaped (if cursor.isLive then cursor.position.block else none) ∧
      (cursor.isLive = true → ∃ id decl, program.function? id = some decl ∧ decl.name = name ∧
        decl.returnsNothing = false) := by
  rcases finishesRegular_of_mem_history once numbered temps member name finishes with
    ⟨place, builds, regular, owes⟩
  rcases finalize_eq builds with ⟨pruned, finalizes⟩
  have after : (event.before.cursor.put name place.pruned).Builds name place.pruned :=
    Code.Cursor.Builds.put builds place.pruned
  rcases after.body with ⟨function, found, same⟩
  refine ⟨pruned, _, function, finalizes, found, ?_, ?_⟩
  · rw [after.isLive, after.position]
    exact regular.wellShaped same
  · rw [after.isLive]
    exact fun live => owes (Place.isLive_of_pruned live)

/-- A function that owes an integer and does not return. -/
def owingProgram : Program where
  filename := "owing"
  items := [⟨0⟩]
  stmts := #[.functionDecl ⟨0⟩, .compound []]
  exprs := #[]
  vars := #[]
  functions := #[⟨"owing", [], some .integer, ⟨1⟩⟩]

theorem owing_function_wellShaped : ∃ event ∈ history owingProgram ⟨"main", false⟩,
    event.task = .finish "owing" ∧ event.before.cursor.isLive = true ∧
    ∃ pruned cursor function, event.before.cursor.finalize "owing" = .ok (pruned, cursor) ∧
      cursor.module.function? "owing" = some function ∧
      function.WellShaped (if cursor.isLive then cursor.position.block else none) := by
  have length : 4 < (history owingProgram ⟨"main", false⟩).length := by decide +kernel
  have facts : (started (history owingProgram ⟨"main", false⟩)).Nodup ∧
      (∀ event ∈ history owingProgram ⟨"main", false⟩, event.before.hasNumbers = true) ∧
      (∀ event ∈ history owingProgram ⟨"main", false⟩, event.before.hasTemps = true) ∧
      (history owingProgram ⟨"main", false⟩)[4].task = .finish "owing" ∧
      (history owingProgram ⟨"main", false⟩)[4].before.cursor.isLive = true := by
    decide +kernel +revert
  rcases facts with ⟨once, numbered, temps, finishes, live⟩
  rcases finished_function_wellShaped once numbered temps (List.getElem_mem length) finishes with
    ⟨pruned, cursor, function, finalizes, found, shaped, _⟩
  exact ⟨_, List.getElem_mem length, finishes, live, pruned, cursor, function, finalizes, found,
    shaped⟩

end ScriptLowering.Lowering
