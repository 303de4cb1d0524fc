import ScriptLowering.Proofs.Functions
import ScriptLowering.Proofs.HistoryReplay
import ScriptLowering.Proofs.ShadowSessions

/-! # Courses in tandem

A step of a session is followed by a step of its shadow. The rules say how this goes on from one
step to the next: both places stay fit to build at, the blocks that wait to be entered are paired,
and what has been paired stays so.
-/

namespace ScriptLowering.Lowering

open Source (Program ExprId StmtId VarId)
open Code (BlockId GlobalId Instruction Operand Pairing Place TempId Terminator Ty)

/-! ## Tandems -/

/-- A session and its shadow, and the places of the function `name` where they build. -/
structure Tandem where
  name : String
  pairing : Pairing
  session : Session
  shadow : Session
  place : Place
  counterpart : Place

namespace Tandem

def put (tandem : Tandem) (pairing : Pairing) (place counterpart : Place) : Tandem where
  name := tandem.name
  pairing := pairing
  session := tandem.session.put tandem.name place
  shadow := tandem.shadow.put tandem.name counterpart
  place := place
  counterpart := counterpart

structure Agrees (program : Program) (dropped : ExprId → Prop) (tandem : Tandem) : Prop where
  builds : tandem.session.Builds tandem.name tandem.place
  otherBuilds : tandem.shadow.Builds tandem.name tandem.counterpart
  pairs : tandem.place.Pairs tandem.pairing tandem.counterpart
  shadows : tandem.session.Shadows program dropped tandem.pairing.data tandem.shadow

theorem Agrees.put {program : Program} {dropped : ExprId → Prop} {tandem : Tandem}
    (agrees : tandem.Agrees program dropped) {pairing : Pairing} {place counterpart : Place}
    (pairs : place.Pairs pairing counterpart) (same : pairing.data = tandem.pairing.data) :
    (tandem.put pairing place counterpart).Agrees program dropped where
  builds := agrees.builds.put place
  otherBuilds := agrees.otherBuilds.put counterpart
  pairs := pairs
  shadows := by
    have shadows := agrees.shadows.put same pairs.agrees tandem.name
    rw [← same] at shadows
    exact shadows

/-- What is known and paired in a tandem still is so in a later one. -/
structure Precedes (tandem next : Tandem) : Prop where
  session : tandem.session.Precedes next.session
  shadow : tandem.shadow.Precedes next.shadow
  within : tandem.pairing.Within next.pairing

theorem Precedes.refl (tandem : Tandem) : tandem.Precedes tandem :=
  ⟨.refl _, .refl _, .refl _⟩

theorem Precedes.trans {first second third : Tandem} (left : first.Precedes second)
    (right : second.Precedes third) : first.Precedes third :=
  ⟨left.session.trans right.session, left.shadow.trans right.shadow,
    left.within.trans right.within⟩

theorem precedes_put {tandem : Tandem} {pairing : Pairing} (within : tandem.pairing.Within pairing)
    (place counterpart : Place) : tandem.Precedes (tandem.put pairing place counterpart) :=
  ⟨.put _ _ _, .put _ _ _, within⟩

theorem precedes_note {tandem : Tandem} {annotations others : Annotations}
    (retains : tandem.session.Retains { tandem.session with annotations := annotations })
    (otherRetains : tandem.shadow.Retains { tandem.shadow with annotations := others }) :
    tandem.Precedes { tandem with
      session := { tandem.session with annotations := annotations }
      shadow := { tandem.shadow with annotations := others } } :=
  ⟨⟨retains.storage, retains.loops, fun _ _ => id, fun _ _ => id, fun _ => rfl⟩,
    ⟨otherRetains.storage, otherRetains.loops, fun _ _ => id, fun _ _ => id, fun _ => rfl⟩, .refl _⟩

/-- Both have come on in the same function. -/
structure Comes (program : Program) (dropped : ExprId → Prop) (tandem ended : Tandem) : Prop where
  name : ended.name = tandem.name
  within : tandem.pairing.Within ended.pairing
  agrees : ended.Agrees program dropped

end Tandem

/-! ## Steps that are followed -/

section Following

variable {α β γ δ : Type}

/-- If the step succeeds in the session, so does the other one in its shadow. -/
def Lower.Follows (step : Lower α) (answer : Lower β) (tandem : Tandem)
    (post : α → β → Tandem → Prop) : Prop :=
  ∀ value next, step tandem.session = .ok (value, next) → ∃ result ended,
    answer tandem.shadow = .ok (result, Tandem.shadow ended) ∧ Tandem.session ended = next ∧
      post value result ended

namespace Lower.Follows

variable {step : Lower α} {answer : Lower β} {rest : α → Lower γ} {otherRest : β → Lower δ}
  {tandem : Tandem} {post : α → β → Tandem → Prop} {last : γ → δ → Tandem → Prop}

theorem of_ok {value : α} {result : β} {ended : Tandem}
    (runs : step tandem.session = .ok (value, ended.session))
    (answers : answer tandem.shadow = .ok (result, ended.shadow)) (holds : post value result ended) :
    step.Follows answer tandem post := by
  intro value next same
  cases runs.symm.trans same
  exact ⟨result, ended, answers, rfl, holds⟩

theorem pure {value : α} {result : β} (holds : post value result tandem) :
    (Pure.pure value : Lower α).Follows (Pure.pure result : Lower β) tandem post :=
  of_ok rfl rfl holds

theorem mono {weaker : α → β → Tandem → Prop} (follows : step.Follows answer tandem post)
    (weakens : ∀ value result ended, post value result ended → weaker value result ended) :
    step.Follows answer tandem weaker := by
  intro value next runs
  rcases follows value next runs with ⟨result, ended, answers, same, holds⟩
  exact ⟨result, ended, answers, same, weakens value result ended holds⟩

theorem bind (follows : step.Follows answer tandem post)
    (followsOn : ∀ value result next, post value result next →
      (rest value).Follows (otherRest result) next last) :
    (step >>= rest).Follows (answer >>= otherRest) tandem last := by
  intro final next runs
  rcases Lower.bind_eq_ok.mp runs with ⟨value, between, first, second⟩
  rcases follows value between first with ⟨result, middle, answers, rfl, holds⟩
  rcases followsOn value result middle holds final next second with
    ⟨other, ended, answersOn, same, holdsLast⟩
  exact ⟨other, ended, (Lower.bind_eq answers).trans answersOn, same, holdsLast⟩

theorem bind_ok {value : α} {result : β} {next : Tandem}
    (runs : step tandem.session = .ok (value, next.session))
    (answers : answer tandem.shadow = .ok (result, next.shadow))
    (followsOn : (rest value).Follows (otherRest result) next last) :
    (step >>= rest).Follows (answer >>= otherRest) tandem last := by
  have leads : step.Follows answer tandem fun found other ended =>
      found = value ∧ other = result ∧ ended = next := of_ok runs answers ⟨rfl, rfl, rfl⟩
  exact leads.bind (by rintro _ _ _ ⟨rfl, rfl, rfl⟩; exact followsOn)

theorem of_bind_pure (follows : (step >>= Pure.pure).Follows (answer >>= Pure.pure) tandem post) :
    step.Follows answer tandem post := by
  rw [bind_pure, bind_pure] at follows
  exact follows

theorem fail {error : Error} : (Lower.fail error : Lower α).Follows answer tandem post :=
  fun _ _ runs => by cases runs

theorem orFault_bind {found : Option α} {fault : ProgramFault} {rest : α → Lower γ}
    {otherRest : α → Lower δ}
    (follows : ∀ value, found = some value → (rest value).Follows (otherRest value) tandem last) :
    (Lower.orFault found fault >>= rest).Follows (Lower.orFault found fault >>= otherRest) tandem
      last := by
  cases found with
  | none => exact fail
  | some value => exact follows value rfl

theorem consult_bind {question : Annotations → Except ProgramFault α}
    {otherQuestion : Annotations → Except ProgramFault β}
    (follows : ∀ value, question tandem.session.annotations = .ok value → ∃ result,
      otherQuestion tandem.shadow.annotations = .ok result ∧
        (rest value).Follows (otherRest result) tandem last) :
    (Lower.consult question >>= rest).Follows (Lower.consult otherQuestion >>= otherRest) tandem
      last := by
  intro final next runs
  rcases Lower.bind_eq_ok.mp runs with ⟨value, between, asks, goes⟩
  unfold Lower.consult at asks
  split at asks
  · rename_i answered
    cases asks
    rcases follows _ answered with ⟨result, otherAnswered, followsOn⟩
    have asksOther : Lower.consult otherQuestion tandem.shadow = .ok (result, tandem.shadow) := by
      simp only [Lower.consult, otherAnswered]
    rcases followsOn final next goes with ⟨other, ended, answers, same, holds⟩
    exact ⟨other, ended, (Lower.bind_eq asksOther).trans answers, same, holds⟩
  · cases asks

theorem annotate_bind {change otherChange : Annotations → Except ProgramFault Annotations}
    {rest : Unit → Lower γ} {otherRest : Unit → Lower δ}
    (follows : ∀ annotations, change tandem.session.annotations = .ok annotations → ∃ others,
      otherChange tandem.shadow.annotations = .ok others ∧
        (rest ()).Follows (otherRest ()) { tandem with
          session := { tandem.session with annotations := annotations }
          shadow := { tandem.shadow with annotations := others } } last) :
    (Lower.annotate change >>= rest).Follows (Lower.annotate otherChange >>= otherRest) tandem
      last := by
  intro final next runs
  rcases Lower.bind_eq_ok.mp runs with ⟨value, between, notes, goes⟩
  unfold Lower.annotate at notes
  split at notes
  · rename_i changed
    cases notes
    rcases follows _ changed with ⟨others, otherChanged, followsOn⟩
    have notesOther : Lower.annotate otherChange tandem.shadow =
        .ok ((), { tandem.shadow with annotations := others }) := by
      simp only [Lower.annotate, otherChanged]
    rcases followsOn final next goes with ⟨other, ended, answers, same, holds⟩
    exact ⟨other, ended, (Lower.bind_eq notesOther).trans answers, same, holds⟩
  · cases notes

end Lower.Follows

end Following

/-! ## Courses -/

theorem Stage.after {α : Type} {program : Program} {allowed : String → Prop} {errors : Error → Prop}
    {final : Session} {names others : List String} {waits : List (BlockId × String)} {name : String}
    {origin place after : Place} {first session next : Session} {count cost : Nat} {part : Lower α}
    {traces : Session → Place → α → Place → Prop} {value : α}
    (stage : Stage program final True names waits name origin first count session place)
    (keeps : Keeps program allowed errors cost others part traces) (left : Nat)
    (enough : cost + left ≤ count) (fresh : name ∉ others) (distinct : (names ++ others).Nodup)
    (unopened : first.Unopened allowed others) (runs : part session = .ok (value, next))
    (builds : next.Builds name after) :
    Stage program final True (names ++ others) waits name origin first left next after := by
  have goes : (part >>= Pure.pure).Ensures session (fun _ next => ∃ after, Stage program final True
      (names ++ others) waits name origin first left next after) errors :=
    stage.thenLower keeps left enough fresh distinct unopened fun _ _ after stage =>
      .pure ⟨after, stage.imp fun _ => trivial⟩
  rcases goes.of_bind_pure.post_of_ok runs with ⟨other, ends⟩
  rw [builds.unique ends.builds]
  exact ends

theorem Stage.retain {program : Program} {final : Session} {names : List String}
    {waits : List (BlockId × String)} {name : String} {origin place : Place}
    {first session : Session} {count : Nat} {annotations : Annotations}
    (stage : Stage program final True names waits name origin first count session place)
    (retains : session.Retains { session with annotations := annotations }) :
    Stage program final True names waits name origin first count
      { session with annotations := annotations } place := by
  have noted : Stage program final (True ∧ True) names waits name origin first count
      { session with annotations := annotations } place :=
    stage.note retains.storage retains.loops fun _ => trivial
  exact noted.imp fun _ => trivial

theorem Stage.addGlobal {program : Program} {final : Session} {names : List String}
    {waits : List (BlockId × String)} {name : String} {origin place : Place}
    {first session : Session} {count : Nat}
    (stage : Stage program final True names waits name origin first (count + 1) session place)
    (decl : Source.VarDecl) (initial : Code.Constant) :
    Stage program final True names waits name origin first count
      (session.addGlobal decl initial) place := by
  have goes : (Lower.buildWith (Link.addsGlobal decl.name (codeType decl.ty) initial
      (alignment decl.ty)) >>= Pure.pure).Ensures session
        (fun _ next => Stage program final True names waits name origin first count next place)
        (fun _ => True) :=
    stage.thenAddGlobal fun _ _ stage => .pure (stage.imp fun _ => trivial)
  exact goes.of_bind_pure.post_of_ok rfl

/-- What is known in the middle of a part: how far both have come, and which blocks wait. -/
structure Course (program other : Program) (dropped : ExprId → Prop) (outset : Tandem)
    (names : List String) (waits : List (BlockId × BlockId × String)) (count : Nat)
    (tandem : Tandem) : Prop where
  name : tandem.name = outset.name
  distinct : names.Nodup
  stage : Stage program outset.session True names (waits.map fun wait => (wait.1, wait.2.2))
    tandem.name outset.place outset.session count tandem.session tandem.place
  otherStage : Stage other outset.session True names (waits.map Prod.snd) tandem.name
    outset.counterpart outset.shadow count tandem.shadow tandem.counterpart
  agrees : tandem.Agrees program dropped
  within : outset.pairing.Within tandem.pairing
  paired : ∀ wait ∈ waits, tandem.pairing.blocks wait.1 wait.2.1

/-- A part of lowering and the one that follows it in the shadow. -/
def Answers {α β : Type} (program other : Program) (dropped : ExprId → Prop) (cost : Nat)
    (names : List String) (starts : Tandem → Prop) (step : Lower α) (answer : Lower β)
    (post : α → β → Tandem → Prop) : Prop :=
  ∀ (outset : Tandem) (count : Nat), Course program other dropped outset [] [] (cost + count) outset →
    outset.name ∉ names → names.Nodup → outset.session.Unopened (fun _ => True) names →
    outset.shadow.Unopened (fun _ => True) names → starts outset →
    step.Follows answer outset fun value result ended =>
      outset.Comes program dropped ended ∧ post value result ended

structure Mirrors {α β : Type} (program other : Program) (dropped : ExprId → Prop) (cost : Nat)
    (names : List String) (starts : Tandem → Prop) (step : Lower α) (answer : Lower β)
    (post : α → β → Tandem → Prop) : Prop where
  keeps : ∃ traces, Keeps program (fun _ => True) (fun _ => True) cost names step traces
  otherKeeps : ∃ traces, Keeps other (fun _ => True) (fun _ => True) cost names answer traces
  answers : Answers program other dropped cost names starts step answer post

namespace Course

variable {program other : Program} {dropped : ExprId → Prop} {outset tandem : Tandem}
  {names : List String} {waits : List (BlockId × BlockId × String)} {count : Nat}

theorem start {name : String} (tandem : Tandem) (named : tandem.name = name)
    (fills : tandem.session.Fills name tandem.place count)
    (otherFills : tandem.shadow.Fills name tandem.counterpart count)
    (agrees : tandem.Agrees program dropped) :
    Course program other dropped tandem [] [] count tandem := by
  subst named
  exact ⟨rfl, List.nodup_nil, .start program _ fills, .start other _ otherFills, agrees, .refl _,
    fun _ member => by cases member⟩

theorem mono (course : Course program other dropped outset names waits count tandem) {fewer : Nat}
    (less : fewer ≤ count) : Course program other dropped outset names waits fewer tandem :=
  { course with
    stage := course.stage.mono less
    otherStage := course.otherStage.mono less }

theorem restart (course : Course program other dropped outset names waits count tandem) :
    Course program other dropped tandem [] [] count tandem :=
  .start tandem rfl course.stage.fills course.otherStage.fills course.agrees

theorem comes (course : Course program other dropped outset names waits count tandem) :
    outset.Comes program dropped tandem :=
  ⟨course.name, course.within, course.agrees⟩

theorem later (course : Course program other dropped outset names waits count tandem) :
    outset.Precedes tandem :=
  ⟨course.stage.grows.precedes, course.otherStage.grows.precedes, course.within⟩

theorem finish {α β : Type} {value : α} {result : β} {post : α → β → Tandem → Prop}
    (course : Course program other dropped outset names waits count tandem)
    (holds : post value result tandem) :
    (pure value : Lower α).Follows (pure result : Lower β) tandem fun value result ended =>
      outset.Comes program dropped ended ∧ post value result ended :=
  .pure ⟨course.comes, holds⟩

/-! ### Moving on -/

theorem second {one two : BlockId × BlockId × String}
    (course : Course program other dropped outset names (one :: two :: waits) count tandem) :
    Course program other dropped outset names (two :: one :: waits) count tandem :=
  { course with
    stage := course.stage.second
    otherStage := course.otherStage.second
    paired := fun wait member => course.paired wait ((List.Perm.swap one two waits).subset member) }

theorem third {one two three : BlockId × BlockId × String}
    (course : Course program other dropped outset names (one :: two :: three :: waits) count
      tandem) :
    Course program other dropped outset names (three :: one :: two :: waits) count tandem :=
  { course with
    stage := course.stage.third
    otherStage := course.otherStage.third
    paired := by
      intro wait member
      refine course.paired wait ?_
      simp only [List.mem_cons] at member ⊢
      tauto }

theorem create (course : Course program other dropped outset names waits (count + 1) tandem)
    (label : String) :
    Course program other dropped outset names
      ((tandem.place.freshBlock, tandem.counterpart.freshBlock, label) :: waits) count
      (tandem.put (tandem.pairing.addBlock tandem.place.freshBlock tandem.counterpart.freshBlock)
        (tandem.place.create label) (tandem.counterpart.create label)) := by
  have within := tandem.pairing.within_addBlock tandem.place.freshBlock tandem.counterpart.freshBlock
  have room : tandem.place.Room (count + 8 + 1) := course.stage.fills.room.mono (by omega)
  have otherRoom : tandem.counterpart.Room (count + 8 + 1) :=
    course.otherStage.fills.room.mono (by omega)
  exact {
    name := course.name
    distinct := course.distinct
    stage := course.stage.create label
    otherStage := course.otherStage.create label
    agrees := course.agrees.put (course.agrees.pairs.create course.stage.fit.regular
      course.otherStage.fit.regular room otherRoom label) rfl
    within := course.within.trans within
    paired := by
      intro wait member
      rcases List.mem_cons.mp member with rfl | old
      · exact .inr ⟨rfl, rfl⟩
      · exact within.blocks _ _ (course.paired wait old) }

theorem operate {cost : Nat} {operation otherOperation : Place → Place} {pairing : Pairing}
    (course : Course program other dropped outset names waits (count + cost) tandem)
    (safe : SafeOperation cost operation) (otherSafe : SafeOperation cost otherOperation)
    (pairs : (operation tandem.place).Pairs pairing (otherOperation tandem.counterpart))
    (within : tandem.pairing.Within pairing) (same : pairing.data = tandem.pairing.data) :
    Course program other dropped outset names waits count
      (tandem.put pairing (operation tandem.place) (otherOperation tandem.counterpart)) where
  name := course.name
  distinct := course.distinct
  stage := course.stage.operate safe
  otherStage := course.otherStage.operate otherSafe
  agrees := course.agrees.put pairs same
  within := course.within.trans within
  paired := fun wait member => within.blocks _ _ (course.paired wait member)

theorem add {instruction mirrored : Instruction}
    (course : Course program other dropped outset names waits (count + 1) tandem)
    (defined : instruction.defined? = none) (otherDefined : mirrored.defined? = none)
    (instructions : instruction.Pairs tandem.pairing mirrored) :
    Course program other dropped outset names waits count (tandem.put tandem.pairing
      (tandem.place.ready.add instruction) (tandem.counterpart.ready.add mirrored)) :=
  course.operate (.add defined) (.add otherDefined)
    (course.agrees.pairs.readyAdd course.stage.fit.regular course.otherStage.fit.regular
      course.stage.fit.room course.otherStage.fit.room instructions) (.refl _) rfl

theorem define (course : Course program other dropped outset names waits (count + 2) tandem)
    (ty : Ty) (instruction mirrored : Operand → Instruction)
    (defined : ∀ temp, (instruction (.temp temp)).defined? = some temp)
    (otherDefined : ∀ temp, (mirrored (.temp temp)).defined? = some temp)
    (instructions : ∀ more id counterpart, tandem.pairing.Within more →
      more.temps id counterpart →
      (instruction (.temp id)).Pairs more (mirrored (.temp counterpart))) :
    Course program other dropped outset names waits count (tandem.put
      (tandem.pairing.addTemp tandem.place.ready.freshTemp tandem.counterpart.ready.freshTemp)
      (tandem.place.ready.define ty instruction) (tandem.counterpart.ready.define ty mirrored)) :=
  course.operate (.define ty defined) (.define ty otherDefined)
    (course.agrees.pairs.readyDefine course.stage.fit.regular course.otherStage.fit.regular
      course.stage.fit.room course.otherStage.fit.room instructions)
    (tandem.pairing.within_addTemp _ _) rfl

theorem leaveTo (course : Course program other dropped outset names waits count tandem)
    {target mirrored : BlockId} (paired : tandem.pairing.blocks target mirrored) :
    Course program other dropped outset names waits count
      (tandem.put tandem.pairing (tandem.place.leaveTo target)
        (tandem.counterpart.leaveTo mirrored)) where
  name := course.name
  distinct := course.distinct
  stage := course.stage.leaveTo target
  otherStage := course.otherStage.leaveTo mirrored
  agrees := course.agrees.put (course.agrees.pairs.leaveTo course.stage.fit.regular
    course.otherStage.fit.regular paired) rfl
  within := course.within
  paired := course.paired

theorem enter {id mirrored : BlockId} {label : String}
    (course : Course program other dropped outset names ((id, mirrored, label) :: waits) count tandem)
    (closing : Bool) :
    Course program other dropped outset names waits count
      (tandem.put tandem.pairing (tandem.place.enter id closing)
        (tandem.counterpart.enter mirrored closing)) where
  name := course.name
  distinct := course.distinct
  stage := course.stage.enter closing
  otherStage := course.otherStage.enter closing
  agrees := course.agrees.put (course.agrees.pairs.enter course.stage.fit.regular
    course.otherStage.fit.regular (course.paired _ List.mem_cons_self)
    (course.stage.waiting _ List.mem_cons_self) (course.otherStage.waiting _ List.mem_cons_self)
    closing) rfl
  within := course.within
  paired := fun wait member => course.paired wait (List.mem_cons_of_mem _ member)

theorem returnIfLive {value mirrored : Option Operand}
    (course : Course program other dropped outset names [] count tandem)
    (values : Option.Rel (Operand.Pairs tandem.pairing) value mirrored) :
    Course program other dropped outset names [] count
      (tandem.put tandem.pairing (tandem.place.returnIfLive value)
        (tandem.counterpart.returnIfLive mirrored)) where
  name := course.name
  distinct := course.distinct
  stage := course.stage.returnIfLive value
  otherStage := course.otherStage.returnIfLive mirrored
  agrees := course.agrees.put (course.agrees.pairs.returnIfLive course.stage.fit.regular
    course.otherStage.fit.regular values) rfl
  within := course.within
  paired := fun _ member => by cases member

theorem note (course : Course program other dropped outset names waits count tandem)
    {annotations others : Annotations}
    (retains : tandem.session.Retains { tandem.session with annotations := annotations })
    (otherRetains : tandem.shadow.Retains { tandem.shadow with annotations := others })
    (shadows : Session.Shadows program dropped tandem.pairing.data
      { tandem.session with annotations := annotations }
      { tandem.shadow with annotations := others }) :
    Course program other dropped outset names waits count { tandem with
      session := { tandem.session with annotations := annotations }
      shadow := { tandem.shadow with annotations := others } } where
  name := course.name
  distinct := course.distinct
  stage := course.stage.retain retains
  otherStage := course.otherStage.retain otherRetains
  agrees := ⟨⟨course.agrees.builds.position, course.agrees.builds.body⟩,
    ⟨course.agrees.otherBuilds.position, course.agrees.otherBuilds.body⟩, course.agrees.pairs,
    shadows⟩
  within := course.within
  paired := course.paired

theorem addGlobal (course : Course program other dropped outset names waits (count + 1) tandem)
    (decl : Source.VarDecl) (initial : Code.Constant) :
    Course program other dropped outset names waits count { tandem with
      session := tandem.session.addGlobal decl initial
      shadow := tandem.shadow.addGlobal decl initial } where
  name := course.name
  distinct := course.distinct
  stage := course.stage.addGlobal decl initial
  otherStage := course.otherStage.addGlobal decl initial
  agrees := ⟨⟨course.agrees.builds.position, course.agrees.builds.body⟩,
    ⟨course.agrees.otherBuilds.position, course.agrees.otherBuilds.body⟩, course.agrees.pairs,
    course.agrees.shadows.addGlobal decl initial⟩
  within := course.within
  paired := course.paired

/-! ### Going on -/

section Rules

variable {α β γ δ : Type} {last : γ → δ → Tandem → Prop}

theorem thenCreate {label : String} {rest : BlockId → Lower γ} {otherRest : BlockId → Lower δ}
    (course : Course program other dropped outset names waits (count + 1) tandem)
    (continues : ∀ id mirrored next, Course program other dropped outset names ((id, mirrored, label) :: waits) count next →
      tandem.Precedes next →
      (rest id).Follows (otherRest mirrored) next last) :
    (createBlock label >>= rest).Follows (createBlock label >>= otherRest) tandem last :=
  .bind_ok (createBlock_eq course.stage.builds label) (createBlock_eq course.otherStage.builds label)
    (continues _ _ _ (course.create label) (Tandem.precedes_put (tandem.pairing.within_addBlock _ _) _ _))

theorem thenAdd {instruction mirrored : Instruction} {rest : Unit → Lower γ}
    {otherRest : Unit → Lower δ}
    (course : Course program other dropped outset names waits (count + 1) tandem)
    (defined : instruction.defined? = none) (otherDefined : mirrored.defined? = none)
    (instructions : instruction.Pairs tandem.pairing mirrored)
    (continues : ∀ next, Course program other dropped outset names waits count next →
      tandem.Precedes next →
      (rest ()).Follows (otherRest ()) next last) :
    (Lower.append (fun cursor => cursor.insert instruction) >>= rest).Follows
      (Lower.append (fun cursor => cursor.insert mirrored) >>= otherRest) tandem last :=
  .bind_ok (append_add_eq course.stage.builds instruction)
    (append_add_eq course.otherStage.builds mirrored)
    (continues _ (course.add defined otherDefined instructions) (Tandem.precedes_put (.refl _) _ _))

theorem thenTerminate {terminator mirrored : Terminator} {rest : Unit → Lower γ}
    {otherRest : Unit → Lower δ}
    (course : Course program other dropped outset names waits (count + 1) tandem)
    (finished : terminator.isFinished = true)
    (terminators : terminator.Pairs tandem.pairing mirrored)
    (continues : ∀ next, Course program other dropped outset names waits count next →
      tandem.Precedes next →
      (rest ()).Follows (otherRest ()) next last) :
    (Lower.append (fun cursor => cursor.terminate terminator) >>= rest).Follows
      (Lower.append (fun cursor => cursor.terminate mirrored) >>= otherRest) tandem last :=
  .bind_ok (append_terminate_eq course.stage.builds terminator)
    (append_terminate_eq course.otherStage.builds mirrored)
    (continues _ (course.operate (.terminate terminator) (.terminate mirrored)
      (course.agrees.pairs.readyTerminate course.stage.fit.regular course.otherStage.fit.regular
        course.stage.fit.room course.otherStage.fit.room terminators finished) (.refl _) rfl)
      (Tandem.precedes_put (.refl _) _ _))

theorem thenDefine {ty : Ty} {instruction mirrored : Operand → Instruction}
    {rest : Operand → Lower γ} {otherRest : Operand → Lower δ}
    (course : Course program other dropped outset names waits (count + 2) tandem)
    (defined : ∀ temp, (instruction (.temp temp)).defined? = some temp)
    (otherDefined : ∀ temp, (mirrored (.temp temp)).defined? = some temp)
    (instructions : ∀ more id counterpart, tandem.pairing.Within more →
      more.temps id counterpart →
      (instruction (.temp id)).Pairs more (mirrored (.temp counterpart)))
    (continues : ∀ id counterpart next,
      Course program other dropped outset names waits count next →
      tandem.Precedes next → next.pairing.temps id counterpart →
      (rest (.temp id)).Follows (otherRest (.temp counterpart)) next last) :
    (Lower.emit (fun cursor => cursor.define ty instruction) >>= rest).Follows
      (Lower.emit (fun cursor => cursor.define ty mirrored) >>= otherRest) tandem last :=
  .bind_ok (emit_define_eq course.stage.builds ty instruction)
    (emit_define_eq course.otherStage.builds ty mirrored)
    (continues _ _ _ (course.define ty _ _ defined otherDefined instructions)
      (Tandem.precedes_put (tandem.pairing.within_addTemp _ _) _ _) (.inr ⟨rfl, rfl⟩))

theorem thenCall {callee : String} {returns : Ty} {args others : List Operand}
    {rest : Option Operand → Lower γ} {otherRest : Option Operand → Lower δ}
    (course : Course program other dropped outset names waits (count + 2) tandem)
    (arguments : List.Forall₂ (Operand.Pairs tandem.pairing) args others)
    (continues : ∀ value mirrored next,
      Course program other dropped outset names waits count next →
      tandem.Precedes next →
      Option.Rel (Operand.Pairs next.pairing) value mirrored →
      (rest value).Follows (otherRest mirrored) next last) :
    (Lower.emit (fun cursor => cursor.call callee returns args) >>= rest).Follows
      (Lower.emit (fun cursor => cursor.call callee returns others) >>= otherRest) tandem last := by
  have calls := emit_call_eq course.stage.builds callee returns args
  have otherCalls := emit_call_eq course.otherStage.builds callee returns others
  cases isVoid : returns.isVoid with
  | true =>
      rw [isVoid, if_pos rfl] at calls otherCalls
      have instructions : Instruction.Pairs tandem.pairing (.call none callee args)
          (.call none callee others) := .call .none arguments
      have added := (course.mono (Nat.le_succ (count + 1))).add rfl rfl instructions
      exact Lower.Follows.bind_ok calls otherCalls (continues _ _ _ added
        (Tandem.precedes_put (.refl _) _ _) .none)
  | false =>
      rw [isVoid, if_neg Bool.false_ne_true] at calls otherCalls
      have defined := course.define returns (fun result => .call (some result) callee args)
        (fun result => .call (some result) callee others) (fun _ => rfl) (fun _ => rfl)
        fun more id counterpart within paired => .call (.some (.temp paired))
          (arguments.imp fun _ _ pairs => pairs.mono within)
      exact Lower.Follows.bind_ok calls otherCalls (continues _ _ _ defined
        (Tandem.precedes_put (tandem.pairing.within_addTemp _ _) _ _)
        (.some (.temp (.inr ⟨rfl, rfl⟩))))

theorem thenLeaveTo {target mirrored : BlockId} {rest : Unit → Lower γ} {otherRest : Unit → Lower δ}
    (course : Course program other dropped outset names waits count tandem)
    (paired : tandem.pairing.blocks target mirrored)
    (continues : ∀ next, Course program other dropped outset names waits count next →
      tandem.Precedes next →
      (rest ()).Follows (otherRest ()) next last) :
    (Lowering.leaveTo target >>= rest).Follows (Lowering.leaveTo mirrored >>= otherRest) tandem
      last :=
  .bind_ok (leaveTo_eq course.stage.builds target) (leaveTo_eq course.otherStage.builds mirrored)
    (continues _ (course.leaveTo paired) (Tandem.precedes_put (.refl _) _ _))

theorem thenEnter {id mirrored : BlockId} {label : String} {closing : Bool} {rest : Unit → Lower γ}
    {otherRest : Unit → Lower δ}
    (course : Course program other dropped outset names ((id, mirrored, label) :: waits) count tandem)
    (continues : ∀ next, Course program other dropped outset names waits count next →
      tandem.Precedes next →
      (rest ()).Follows (otherRest ()) next last) :
    (Lowering.enter id closing >>= rest).Follows (Lowering.enter mirrored closing >>= otherRest) tandem
      last :=
  .bind_ok (course.stage.enter_eq closing) (course.otherStage.enter_eq closing)
    (continues _ (course.enter closing) (Tandem.precedes_put (.refl _) _ _))

theorem thenReturnIfLive {value mirrored : Option Operand} {rest : Unit → Lower γ}
    {otherRest : Unit → Lower δ}
    (course : Course program other dropped outset names [] count tandem)
    (values : Option.Rel (Operand.Pairs tandem.pairing) value mirrored)
    (continues : ∀ next, Course program other dropped outset names [] count next →
      tandem.Precedes next → (rest ()).Follows (otherRest ()) next last) :
    (Lowering.returnIfLive value >>= rest).Follows (Lowering.returnIfLive mirrored >>= otherRest)
      tandem last :=
  .bind_ok (returnIfLive_eq course.stage.builds value)
    (returnIfLive_eq course.otherStage.builds mirrored)
    (continues _ (course.returnIfLive values) (Tandem.precedes_put (.refl _) _ _))

theorem thenPart {part : Lower α} {answer : Lower β} {rest : α → Lower γ} {otherRest : β → Lower δ}
    {cost : Nat} {others : List String} {starts : Tandem → Prop} {post : α → β → Tandem → Prop}
    (course : Course program other dropped outset names waits count tandem)
    (mirrors : Mirrors program other dropped cost others starts part answer post) (left : Nat)
    (enough : cost + left ≤ count) (fresh : tandem.name ∉ others)
    (distinct : (names ++ others).Nodup)
    (unopened : outset.session.Unopened (fun _ => True) others)
    (otherUnopened : outset.shadow.Unopened (fun _ => True) others) (ready : starts tandem)
    (continues : ∀ value result next, Course program other dropped outset (names ++ others) waits left next →
      tandem.Precedes next →
      post value result next → (rest value).Follows (otherRest result) next last) :
    (part >>= rest).Follows (answer >>= otherRest) tandem last := by
  rcases mirrors.keeps with ⟨_, keeps⟩
  rcases mirrors.otherKeeps with ⟨_, otherKeeps⟩
  have apart := List.nodup_append.mp distinct
  -- The functions of the part have not been opened on the way either.
  have still : ∀ {program : Program} {waits : List (BlockId × String)} {origin place : Place}
      {first session : Session}, Stage program outset.session True names waits tandem.name origin
        first count session place → first.Unopened (fun _ => True) others →
      session.Unopened (fun _ => True) others := by
    intro program waits origin place first session stage unopened name member
    have different : name ≠ tandem.name := fun same => fresh (same ▸ member)
    rw [stage.grows.others name different fun early => apart.2.2 name early name member rfl]
    exact unopened name member
  intro final next runs
  rcases Lower.bind_eq_ok.mp runs with ⟨value, between, runsPart, runsRest⟩
  rcases mirrors.answers tandem left (course.restart.mono enough) fresh apart.2.1
    (still course.stage unopened) (still course.otherStage otherUnopened) ready value between
    runsPart with ⟨result, middle, answers, rfl, comes, holds⟩
  have builds := comes.agrees.builds
  have otherBuilds := comes.agrees.otherBuilds
  rw [comes.name] at builds otherBuilds
  have courseOn : Course program other dropped outset (names ++ others) waits left middle := {
    name := comes.name.trans course.name
    distinct := distinct
    stage := by
      rw [comes.name]
      exact course.stage.after keeps left enough fresh distinct unopened runsPart builds
    otherStage := by
      rw [comes.name]
      exact course.otherStage.after otherKeeps left enough fresh distinct otherUnopened answers
        otherBuilds
    agrees := comes.agrees
    within := course.within.trans comes.within
    paired := fun wait member => comes.within.blocks _ _ (course.paired wait member) }
  have later : tandem.Precedes middle :=
    ⟨(course.restart.stage.after keeps left enough fresh apart.2.1 (still course.stage unopened)
        runsPart builds).grows.precedes,
      (course.restart.otherStage.after otherKeeps left enough fresh apart.2.1
        (still course.otherStage otherUnopened) answers otherBuilds).grows.precedes, comes.within⟩
  rcases continues value result middle courseOn later holds final next runsRest with
    ⟨last, ended, answersRest, same, holdsLast⟩
  exact ⟨last, ended, (Lower.bind_eq answers).trans answersRest, same, holdsLast⟩

theorem thenCompute {part : Lower α} {answer : Lower β} {rest : α → Lower γ}
    {otherRest : β → Lower δ} {cost : Nat} {starts : Tandem → Prop} {post : α → β → Tandem → Prop}
    (course : Course program other dropped outset names waits count tandem)
    (mirrors : Mirrors program other dropped cost [] starts part answer post) (left : Nat)
    (enough : cost + left ≤ count) (ready : starts tandem)
    (continues : ∀ value result next, Course program other dropped outset names waits left next →
      tandem.Precedes next →
      post value result next → (rest value).Follows (otherRest result) next last) :
    (part >>= rest).Follows (answer >>= otherRest) tandem last := by
  refine course.thenPart mirrors left enough List.not_mem_nil (by simpa using course.distinct)
    (fun _ member => by cases member) (fun _ member => by cases member) ready
    fun value result next courseOn => continues value result next ?_
  rw [List.append_nil] at courseOn
  exact courseOn

/-! ### Annotations and globals -/

theorem thenSetStorage {id : VarId} {address mirrored : Operand} {rest : Unit → Lower γ}
    {otherRest : Unit → Lower δ}
    (course : Course program other dropped outset names waits count tandem)
    (topLevel : ∀ decl, program.var? id = some decl → decl.scope = .topLevel →
      ∃ global, address = .global global ∧ mirrored = .global global)
    (continues : ∀ next, Course program other dropped outset names waits count next →
      tandem.Precedes next → next.session.annotations.storageOf id = .ok address →
      next.shadow.annotations.storageOf id = .ok mirrored →
      (rest ()).Follows (otherRest ()) next last) :
    (Lower.annotate (fun annotations => annotations.setStorage id address) >>= rest).Follows
      (Lower.annotate (fun annotations => annotations.setStorage id mirrored) >>= otherRest) tandem
      last := by
  refine .annotate_bind fun annotations sets => ?_
  rcases course.agrees.shadows.setStorage sets topLevel with ⟨others, otherSets, shadows⟩
  refine ⟨others, otherSets, continues _ (course.note (.setStorage sets) (.setStorage otherSets)
    shadows) (Tandem.precedes_note (.setStorage sets) (.setStorage otherSets)) ?_ ?_⟩
  · exact (Annotations.storageOf_of_setStorage sets id).trans (if_pos rfl)
  · exact (Annotations.storageOf_of_setStorage otherSets id).trans (if_pos rfl)

theorem thenSetLoop {id : StmtId} {blocks mirrored : LoopBlocks} {rest : Unit → Lower γ}
    {otherRest : Unit → Lower δ}
    (course : Course program other dropped outset names waits count tandem)
    (continues : ∀ next, Course program other dropped outset names waits count next →
      tandem.Precedes next → next.session.annotations.loopOf id = .ok blocks →
      next.shadow.annotations.loopOf id = .ok mirrored →
      (rest ()).Follows (otherRest ()) next last) :
    (Lower.annotate (fun annotations => annotations.setLoop id blocks) >>= rest).Follows
      (Lower.annotate (fun annotations => annotations.setLoop id mirrored) >>= otherRest) tandem
      last := by
  refine .annotate_bind fun annotations sets => ?_
  rcases course.agrees.shadows.setLoop sets mirrored with ⟨others, otherSets, shadows⟩
  refine ⟨others, otherSets, continues _ (course.note (.setLoop sets) (.setLoop otherSets)
    shadows) (Tandem.precedes_note (.setLoop sets) (.setLoop otherSets)) ?_ ?_⟩
  · exact (Annotations.loopOf_of_setLoop sets id).trans (if_pos rfl)
  · exact (Annotations.loopOf_of_setLoop otherSets id).trans (if_pos rfl)

theorem thenRecord {id : ExprId} {value mirrored : Option Operand} {rest : Unit → Lower γ}
    {otherRest : Unit → Lower δ}
    (course : Course program other dropped outset names waits count tandem)
    (noText : textOf? program id = none)
    (values : Option.Rel (Operand.Pairs tandem.pairing) value mirrored)
    (continues : ∀ next, Course program other dropped outset names waits count next →
      tandem.Precedes next → (rest ()).Follows (otherRest ()) next last) :
    (recordValue id value >>= rest).Follows (recordValue id mirrored >>= otherRest) tandem last := by
  cases values with
  | none => exact continues tandem course (.refl _)
  | @some operand counterpart _ =>
      change (Lower.annotate (fun annotations => annotations.setValue id operand) >>= rest).Follows
        (Lower.annotate (fun annotations => annotations.setValue id counterpart) >>= otherRest)
        tandem last
      refine .annotate_bind fun annotations sets => ?_
      have otherUnknown := course.agrees.shadows.unrecorded (Annotations.setValue_eq_ok.mp sets).1
      have otherSets : tandem.shadow.annotations.setValue id counterpart =
          .ok { tandem.shadow.annotations with
            values := tandem.shadow.annotations.values.insert id counterpart } :=
        Annotations.setValue_eq_ok.mpr ⟨otherUnknown, rfl⟩
      exact ⟨_, otherSets, continues _ (course.note (.setValue sets) (.setValue otherSets)
        (course.agrees.shadows.setValue noText sets otherSets))
        (Tandem.precedes_note (.setValue sets) (.setValue otherSets))⟩

theorem thenAddGlobal {decl : Source.VarDecl} {initial : Code.Constant}
    {rest : GlobalId → Lower γ} {otherRest : GlobalId → Lower δ}
    (course : Course program other dropped outset names waits (count + 1) tandem)
    (continues : ∀ global next, Course program other dropped outset names waits count next →
      tandem.Precedes next → (rest global).Follows (otherRest global) next last) :
    (Lower.buildWith (Link.addsGlobal decl.name (codeType decl.ty) initial (alignment decl.ty)) >>=
        rest).Follows
      (Lower.buildWith (Link.addsGlobal decl.name (codeType decl.ty) initial (alignment decl.ty)) >>=
        otherRest) tandem last := by
  have answers : Lower.buildWith (Link.addsGlobal decl.name (codeType decl.ty) initial
      (alignment decl.ty)) tandem.shadow = .ok (⟨tandem.session.cursor.module.nextGlobal⟩,
        tandem.shadow.addGlobal decl initial) := by
    rw [← course.agrees.shadows.nextGlobal]
    rfl
  exact Lower.Follows.bind_ok rfl answers (continues _ _ (course.addGlobal decl initial)
    (course.restart.addGlobal decl initial).later)

end Rules

end Course

end ScriptLowering.Lowering
