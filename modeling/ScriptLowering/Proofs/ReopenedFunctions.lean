import ScriptLowering.Proofs.EdgeOrigins
import ScriptLowering.Proofs.VerifierOversights
import ScriptLowering.Proofs.RepeatedFunctions
import ScriptLowering.Proofs.UndisturbedFunctions

/-! # Functions that are opened again

Each time a function is lowered its layout gets one more block to begin with. If nothing in the
function gets a mark, then there are no branches in it, and no edge leads to the second one of these
blocks: a module in which such a function has been lowered twice is rejected.
-/

namespace ScriptLowering.Code

def Body.Attached (body : Body) : Prop :=
  ∀ id block, body.block? id = some block → id ∈ body.layout

theorem Body.attached_prune (body : Body) : body.prune.Attached :=
  fun _ _ found => (Place.block?_of_prune found).1

end ScriptLowering.Code

namespace ScriptLowering.Lowering

open Source (Program ExprId ForInit FuncId FunctionDecl Stmt StmtId VarDecl VarId)
open Code (BlockId Body Operand Place)

variable {program : Program} {name current : String} {first last session middle next : Session}
  {count more : Nat}

/-! ## The body of one function -/

def Session.bodyOf? (session : Session) (name : String) : Option Body :=
  (session.cursor.module.function? name).map Code.Function.body

theorem Session.Builds.bodyOf? {place : Place} (builds : session.Builds name place) :
    session.bodyOf? name = some place.body := by
  rcases builds.body with ⟨function, found, same⟩
  rw [Session.bodyOf?, found, ← same]
  rfl

/-- The function has got at least `count` blocks more in its layout, and no edges. -/
def Session.Reopens (name : String) (count : Nat) (session next : Session) : Prop :=
  ∀ body, session.bodyOf? name = some body → ∃ later, next.bodyOf? name = some later ∧
    body.layout.length + count ≤ later.layout.length ∧
    ∀ target, later.Shows Code.Block.successors target → body.Shows Code.Block.successors target

def Session.Tucked (session : Session) (name : String) : Prop :=
  ∀ body, session.bodyOf? name = some body → body.Attached

namespace Session.Reopens

theorem same (unchanged : next.bodyOf? name = session.bodyOf? name) :
    session.Reopens name 0 next :=
  fun body found => ⟨body, unchanged.trans found, Nat.le_refl _, fun _ => id⟩

theorem trans (early : session.Reopens name count middle) (late : middle.Reopens name more next) :
    session.Reopens name (count + more) next := by
  intro body found
  rcases early body found with ⟨between, foundBetween, longer, fewer⟩
  rcases late between foundBetween with ⟨later, foundLater, longest, fewest⟩
  exact ⟨later, foundLater, by omega, fun target shows_ => fewer target (fewest target shows_)⟩

theorem put {place after : Place} (builds : session.Builds name place)
    (layout : place.body.layout.length + count ≤ after.body.layout.length)
    (adds : place.Adds Code.Block.successors (fun _ => False) after) :
    session.Reopens name count (session.put name after) := by
  intro body found
  cases builds.bodyOf?.symm.trans found
  exact ⟨after.body, (builds.put after).bodyOf?, layout, fun target shows_ =>
    (adds target shows_).elim id False.elim⟩

end Session.Reopens

/-! ## Steps without edges -/

/-- A step that sends control nowhere and leaves the layout alone. -/
def Task.IsBlank (program : Program) : Task → Prop
  | .expr _ | .returnIfLive _ => True
  | .jump id => ∃ value, program.stmt? id = some (.returnValue value)
  | _ => False

theorem layout_ready (place : Place) : place.ready.body.layout = place.body.layout := by
  unfold Place.ready
  split <;> rfl

theorem layout_readyAdd (place : Place) (instruction : Code.Instruction) :
    (place.ready.add instruction).body.layout = place.body.layout :=
  (Place.layout_change _ _).trans (layout_ready place)

theorem Emits.layout_eq {final : Session} {node : Source.ExprNode} {values : List Operand}
    {place after : Place} {value : Option Operand}
    (emits : Emits program final node values place value after) :
    after.body.layout = place.body.layout :=
  @Emits.keeps program final node values place after value
    (fun middle => middle.body.layout = place.body.layout)
    (fun middle instruction same => (layout_readyAdd middle instruction).trans same)
    (fun middle _ _ same => (Place.layout_change _ _).trans ((layout_ready middle).trans same))
    emits rfl

theorem Session.Emits.reopens {node : Source.ExprNode} {value : Option Operand}
    (emits : session.Emits program node name value next) : session.Reopens name 0 next := by
  cases emits with
  | @intro place after values builds operands emits same =>
      rw [same]
      have prepared : session.Reopens name 0 (session.prepare node) := .same (by cases node <;> rfl)
      have layout : place.body.layout.length + 0 ≤ after.body.layout.length := by
        rw [emits.layout_eq]
        exact Nat.le_refl _
      exact prepared.trans (.put (builds.prepare node) layout (emits.addsEdges _))

theorem Task.Performs.reopens {task : Task} (performs : task.Performs program name session next)
    (blank : task.IsBlank program) : session.Reopens name 0 next := by
  cases performs with
  | expr _ emits records =>
      have same := (recordValue_eq_ok records).1
      refine emits.reopens.trans (.same ?_)
      rw [Session.bodyOf?, same]
      rfl
  | jump builds jumps =>
      rcases blank with ⟨value, known⟩
      rw [Session.JumpsBy, known] at jumps
      rcases jumps with ⟨returned, rfl, _⟩
      refine .put builds (Nat.le_of_eq (congrArg List.length ?_)) ((Place.Adds.ready Code.Block.successors_empty _).trans
        (Place.addsEdges_terminate _ fun _ edge => absurd edge List.not_mem_nil))
      exact ((Place.layout_change _ _).trans (layout_ready _)).symm
  | @returnIfLive value _ place builds =>
      refine .put builds (Nat.le_of_eq (congrArg List.length ?_)) (Place.addsEdges_returnIfLive _ _)
      unfold Place.returnIfLive
      split
      · exact (Place.layout_change _ _).symm
      · rfl
  | _ => exact blank.elim

theorem Journey.function?_eq {inside : String → Prop} {events : List Event}
    (journey : Journey program inside first events last) (apart : ¬ inside name) :
    last.cursor.module.function? name = first.cursor.module.function? name := by
  rcases journey with ⟨path, works⟩
  induction path with
  | nil => rfl
  | @cons _ event events last _ _ induction =>
      rcases works event List.mem_cons_self with ⟨other, isInside, performs⟩
      have step := performs.rebuilds.others name fun same => apart (same ▸ isInside)
      exact (induction fun later member => works later (List.mem_cons_of_mem _ member)).trans step

theorem Journey.reopens {events : List Event} (journey : Journey program (· = name) first events last)
    (blank : ∀ event ∈ events, event.task.IsBlank program) : first.Reopens name 0 last := by
  rcases journey with ⟨path, works⟩
  induction path with
  | nil => exact .same rfl
  | @cons _ event events last _ _ induction =>
      rcases works event List.mem_cons_self with ⟨_, rfl, performs⟩
      exact (performs.reopens (blank event List.mem_cons_self)).trans
        (induction (fun later member => blank later (List.mem_cons_of_mem _ member))
          fun later member => works later (List.mem_cons_of_mem _ member))

/-! ## Telling of a function without branches -/

/-- From `session`, which builds `current`, lowering has come to `next`, and on the way it has opened
the function `name` so many times. -/
structure Session.Opens (start : Session) (name current : String) (count : Nat)
    (session next : Session) : Prop where
  stands : ∃ after, next.Builds current after
  signed : start.Signed next
  reopens : session.Reopens name count next
  tucked : current ≠ name → session.Tucked name → next.Tucked name

theorem Session.Opens.trans {start : Session}
    (early : start.Opens name current count session middle)
    (late : start.Opens name current more middle next) :
    start.Opens name current (count + more) session next where
  stands := late.stands
  signed := late.signed
  reopens := early.reopens.trans late.reopens
  tucked apart tucked := late.tucked apart (early.tucked apart tucked)

/-- The step opens the function so many times, and as far as it builds the function itself, it finds
it clear. -/
def Told.Opens {α : Type} (start : Session) (name : String) (clear : Prop) (count : Nat)
    (told : Told α) : Prop :=
  ∀ current session place, session.Builds current place → start.Signed session →
    (current = name → clear) →
      told.Ensures session fun _ _ next => start.Opens name current count session next

namespace Told.Opens

variable {α β : Type} {start : Session} {clear other : Prop} {told : Told α}

theorem pure (value : α) : (Pure.pure value : Told α).Opens start name clear 0 :=
  fun _ _ place builds signed _ => .pure ⟨⟨place, builds⟩, signed, .same rfl, fun _ => id⟩

theorem bind {rest : α → Told β} (opens : told.Opens start name clear count)
    (opensRest : ∀ value, (rest value).Opens start name clear more) :
    (told >>= rest).Opens start name clear (count + more) := by
  intro current session place builds signed isClear
  refine Told.Ensures.bind (opens current session place builds signed isClear)
    fun _ value middle early => ?_
  rcases early.stands with ⟨after, stands⟩
  exact (opensRest value current middle after stands early.signed isClear).mono
    fun _ _ _ late => early.trans late

theorem mono (opens : told.Opens start name clear count) (less : other → clear) :
    told.Opens start name other count :=
  fun current session place builds signed isClear =>
    opens current session place builds signed fun same => less (isClear same)

theorem excluding (excludes : ∀ session, start.Signed session →
      told.step.Ensures session (fun _ _ => ¬ clear) fun _ => True)
    (opens : told.Opens start name False count) : told.Opens start name clear count := by
  intro current session place builds signed isClear events value next runs
  refine opens current session place builds signed (fun same => ?_) events value next runs
  exact (excludes session signed).post_of_ok (congrArg Prod.snd runs) (isClear same)

theorem apart (program : Program) (travels : ∀ current, told.Travels program (· = current)) :
    told.Opens start name False 0 := by
  intro current session place builds signed isClear events value next runs
  rcases travels current current session place rfl builds with ⟨last, journey, ends⟩
  rw [runs] at journey ends
  rcases ends value next rfl with ⟨rfl, stands⟩
  have unchanged := journey.function?_eq fun same => isClear same.symm
  have same : next.bodyOf? name = session.bodyOf? name := by
    rw [Session.bodyOf?, unchanged]
    rfl
  refine ⟨stands, signed.trans journey.path.retains.signatures, .same same, fun _ tucked body found => ?_⟩
  exact tucked body (same.symm.trans found)

theorem blank (travels : ∀ current, told.Travels program (· = current))
    (blank : ∀ name session place, Session.Builds session name place →
      told.Ensures session fun events _ _ => ∀ event ∈ events, event.task.IsBlank program) :
    told.Opens start name True 0 := by
  intro current session place builds signed _ events value next runs
  by_cases own : current = name
  · subst own
    have blank := blank current session place builds events value next runs
    rcases travels current current session place rfl builds with ⟨last, journey, ends⟩
    rw [runs] at journey ends
    rcases ends value next rfl with ⟨rfl, stands⟩
    exact ⟨stands, signed.trans journey.path.retains.signatures, journey.reopens blank,
      fun apart => absurd rfl apart⟩
  · exact apart program travels current session place builds signed own events value next runs

theorem cast (same : count = more) (opens : told.Opens start name clear count) :
    told.Opens start name clear more := same ▸ opens

theorem forM {ι : Type} {items : List ι} {body : ι → Told Unit} {counts : ι → Nat}
    (opens : ∀ item ∈ items, (body item).Opens start name clear (counts item)) :
    (items.forM body).Opens start name clear (items.map counts).sum := by
  induction items with
  | nil => exact pure ()
  | cons item rest induction =>
      exact bind (opens item List.mem_cons_self) fun _ =>
        induction fun other member => opens other (List.mem_cons_of_mem _ member)

end Told.Opens

/-! ## Parts of a function -/

/-- Nothing among the nodes gets a mark, and nothing jumps. -/
def Bare (program : Program) (start : Session) (nodes : List Node) : Prop :=
  ∀ node ∈ nodes, ¬ node.Marked program start ∧ node.jumpsTo? program = none

namespace Told.Opens

variable {start : Session} {clear : Prop}

theorem tellValue (id : ExprId) : (tellValue program id).Opens start name True 0 :=
  blank (fun _ => .tellValue id) fun _ _ _ builds => (tellValue_codes id builds).mono
    fun _ _ _ facts event member => by
      rcases facts.1.tasks event member with ⟨expr, same⟩
      rw [same]
      trivial

theorem tellEffect (id : ExprId) : (tellEffect program id).Opens start name True 0 :=
  blank (fun _ => .tellEffect id) fun _ _ _ builds => (tellEffect_codes id builds).mono
    fun _ _ _ codes event member => by
      rcases codes.tasks event member with ⟨expr, same⟩
      rw [same]
      trivial

theorem tellReturn {id : StmtId} {result : Option ExprId}
    (known : program.stmt? id = some (.returnValue result)) :
    (tellReturn program id result).Opens start name True 0 := by
  refine blank (fun _ => .tellReturn known) fun current session place builds => ?_
  have returns (value : Option Operand) (session : Session) :
      (Told.telling (fun _ => Task.jump id) (Lower.append fun cursor => cursor.ret value)).Ensures
        session fun events _ _ => ∀ event ∈ events, event.task.IsBlank program := by
    refine Told.Ensures.telling ((Lower.Ensures.self _ _).mono fun _ next _ event member => ?_)
    cases List.mem_singleton.mp member
    exact ⟨result, known⟩
  cases result with
  | none => exact returns none session
  | some expr =>
      refine Told.Ensures.bind (tellValue_codes expr builds) fun events value middle facts => ?_
      refine (returns (some value) middle).mono fun more _ _ blank event member => ?_
      rcases List.mem_append.mp member with isEarly | isLate
      · rcases facts.1.tasks event isEarly with ⟨other, same⟩
        rw [same]
        trivial
      · exact blank event isLate

/-! ### Steps in other functions -/

theorem tellVar (id : VarId) :
    (tellVarDecl program id).Opens start name (Bare program start (walkVar program id)) 0 := by
  have others : (tellVarDecl program id).Opens start name False 0 :=
    apart program fun _ => .tellVarDecl id
  refine others.mono fun bare => (bare (.var id) ?_).1 trivial
  unfold walkVar
  split <;> simp

theorem tellCreate (program : Program) (id : StmtId) (label : String) :
    (tellCreate id label).Opens start name False 0 :=
  apart program fun _ => .tellCreate id label

theorem tellLoop (program : Program) (id : StmtId) (blocks : LoopBlocks) :
    (tellLoop id blocks).Opens start name False 0 :=
  apart program fun _ => .tellLoop id blocks

theorem tellTest (program : Program) (id : StmtId) (value : Operand) (thenBlock elseBlock : BlockId) :
    (tellTest id value thenBlock elseBlock).Opens start name False 0 :=
  apart program fun _ => .tellTest id value thenBlock elseBlock

theorem tellEnter (program : Program) (id : StmtId) (block : BlockId) (closing : Bool) :
    (tellEnter id block closing).Opens start name False 0 :=
  apart program fun _ => .tellEnter id block closing

theorem tellLeave (program : Program) (id : StmtId) (target : BlockId) :
    (tellLeave id target).Opens start name False 0 :=
  apart program fun _ => .tellLeave id target

section Parts

variable {tell : StmtId → Told Unit} {counts : StmtId → Nat}

theorem tellOperand (id : ExprId) : (Lowering.tellValue program id).Opens start name False 0 :=
  (tellValue id).mono fun _ => trivial

theorem tellIf (id : StmtId) (condition : ExprId) (thenBody : StmtId) (elseBody : Option StmtId)
    (opens : ∀ child ∈ thenBody :: elseBody.toList, (tell child).Opens start name False (counts child)) :
    (tellIf program tell id condition thenBody elseBody).Opens start name False
      ((thenBody :: elseBody.toList).map counts).sum := by
  have inThen := opens thenBody List.mem_cons_self
  cases elseBody with
  | none =>
      refine cast ?_ (bind (tellOperand condition) fun _ => bind (tellCreate program _ _) fun _ =>
        bind (tellCreate program _ _) fun _ => bind (tellTest program _ _ _ _) fun _ =>
        bind (tellEnter program _ _ _) fun _ => bind inThen fun _ =>
        bind (tellLeave program _ _) fun _ => tellEnter program _ _ _)
      simp
  | some elseBody =>
      have inElse := opens elseBody (by simp)
      refine cast ?_ (bind (tellOperand condition) fun _ => bind (tellCreate program _ _) fun _ =>
        bind (tellCreate program _ _) fun _ => bind (tellCreate program _ _) fun _ =>
        bind (tellTest program _ _ _ _) fun _ => bind (tellEnter program _ _ _) fun _ =>
        bind inThen fun _ => bind (tellLeave program _ _) fun _ =>
        bind (tellEnter program _ _ _) fun _ => bind inElse fun _ =>
        bind (tellLeave program _ _) fun _ => tellEnter program _ _ _)
      simp

theorem tellWhile (id : StmtId) (condition : ExprId) {body : StmtId}
    (opens : (tell body).Opens start name False count) :
    (tellWhile program tell id condition body).Opens start name False count := by
  refine cast ?_ (bind (tellCreate program _ _) fun _ => bind (tellCreate program _ _) fun _ =>
    bind (tellCreate program _ _) fun _ => bind (tellLoop program _ _) fun _ =>
    bind (tellEnter program _ _ _) fun _ => bind (tellOperand condition) fun _ =>
    bind (tellTest program _ _ _ _) fun _ => bind (tellEnter program _ _ _) fun _ =>
    bind opens fun _ => bind (tellLeave program _ _) fun _ => tellEnter program _ _ _)
  simp

theorem tellExprs (ids : List ExprId) : (tellExprs program ids).Opens start name False 0 :=
  apart program fun _ => .tellExprs ids

theorem tellFor (id : StmtId) {initial : ForInit} (condition : Option ExprId)
    (updates : List ExprId) {body : StmtId}
    (opensInit : (tellForInit program tell initial).Opens start name False count)
    (opens : (tell body).Opens start name False more) :
    (tellFor program tell id initial condition updates body).Opens start name False (count + more) := by
  have updateBlock : (tellUpdateBlock id updates).Opens start name False 0 :=
    apart program fun _ => .tellUpdateBlock id updates
  have tests (endBlock : BlockId) :
      (tellForCondition program id endBlock condition).Opens start name False 0 :=
    apart program fun _ => .tellForCondition id endBlock condition
  have finals (block : Option BlockId) :
      (tellForUpdates program id updates block).Opens start name False 0 :=
    apart program fun _ => .tellForUpdates id updates block
  refine cast ?_ (bind opensInit fun _ => bind (tellCreate program _ _) fun _ =>
    bind (tellCreate program _ _) fun _ => bind (tellEnter program _ _ _) fun _ =>
    bind updateBlock fun _ => bind (tellLoop program _ _) fun _ => bind (tests _) fun _ =>
    bind opens fun _ => bind (finals _) fun _ => bind (tellLeave program _ _) fun _ =>
    tellEnter program _ _ _)
  simp

/-! ### Functions -/

variable {finish : String → Lower Unit} (finishes : Finishes finish)

include finishes

omit finishes in
theorem tellParams (decl : FunctionDecl) : (decl.params.zipIdx.forM fun pair => Told.telling
    (fun _ => Task.param pair.1 pair.2) (lowerParam program pair.1 pair.2)).Opens start name
      (decl.params = []) 0 := by
  have others : (decl.params.zipIdx.forM fun pair => Told.telling
      (fun _ => Task.param pair.1 pair.2) (lowerParam program pair.1 pair.2)).Opens start name False 0 :=
    apart program fun _ => .forM fun pair _ => .telling (fun _ _ same => by cases same)
      fun _ _ _ builds => performs_lowerParam builds pair.1 pair.2
  by_cases none : decl.params = []
  · rw [none]
    exact pure ()
  · exact others.mono fun same => none same

omit finishes in
theorem tellReturnIfLive (program : Program) (value : Option Operand) :
    (Told.telling (fun _ => Task.returnIfLive value) (returnIfLive value)).Opens start name True 0 := by
  refine @blank program name Unit start _ (fun _ => .telling (fun _ _ same => by cases same)
    fun _ _ _ builds => .of_ok (returnIfLive_eq builds value) (.returnIfLive builds)) ?_
  intro _ session place builds
  refine Told.Ensures.telling ((Lower.Ensures.self _ _).mono fun _ _ _ event member => ?_)
  cases List.mem_singleton.mp member
  trivial

theorem ensures_tellFinish (program : Program) (name : String) {other : String} {place : Place}
    (builds : session.Builds other place) (signed : start.Signed session) :
    (Told.telling (fun _ => Task.finish other) (finish other)).Ensures session fun _ _ next =>
      start.Opens name other 0 session next ∧ (other = name → next.Tucked name) := by
  refine Told.Ensures.telling ((finishes other session place builds).mono fun _ next same => ?_)
  subst same
  have performs : (Task.finish other).Performs program other session
      (session.put other place.pruned) := .finish builds
  refine ⟨⟨⟨_, builds.put _⟩, signed.trans performs.retains.signatures, ?_, fun apart tucked => ?_⟩,
    fun own => ?_⟩
  · by_cases own : other = name
    · subst own
      exact .put builds (Nat.le_refl _) (.pruned place)
    · exact .same (congrArg _ (performs.rebuilds.others name fun same => own same.symm))
  · intro body found
    rw [Session.bodyOf?, performs.rebuilds.others name fun same => apart same.symm] at found
    exact tucked body found
  · subst own
    intro body found
    cases (builds.put place.pruned).bodyOf?.symm.trans found
    exact Code.Body.attached_prune place.body

omit finishes in
theorem opens_start {other : String} {opened : Session}
    (starts : (Task.start other).Performs program other session opened) (signed : start.Signed session) :
    start.Opens name other (if other = name then 1 else 0) session opened := by
  refine ⟨starts.stands (fun _ same => by cases same), signed.trans starts.retains.signatures, ?_,
    fun apart tucked body found => ?_⟩
  · split
    · rename_i own
      subst own
      cases starts with
      | @start function _ found =>
          let moved : Session :=
            { session with cursor := session.cursor.setPosition (.inFunction other) }
          have builds : moved.Builds other ⟨function.body, none⟩ := ⟨rfl, function, found, rfl⟩
          have puts : moved.Reopens other 1 (moved.put other (Place.mk function.body none).opened) := by
            refine .put builds ?_ (.create Code.Block.successors_empty _ _)
            rw [Place.opened, Place.layOut, List.length_append]
            exact Nat.le_refl _
          exact puts
    · rename_i apart
      exact .same (congrArg _ (starts.rebuilds.others name fun same => apart same.symm))
  · rw [Session.bodyOf?, starts.rebuilds.others name fun same => apart same.symm] at found
    exact tucked body found

theorem ensures_tellFunctionBody {decl : FunctionDecl} {place : Place}
    (isBare : decl.name = name → decl.params = [] ∧ clear)
    (opens : (tell decl.body).Opens start name clear count) (builds : session.Builds decl.name place)
    (signed : start.Signed session) :
    (tellFunctionBody program finish tell decl).Ensures session fun _ _ next =>
      start.Opens name decl.name count session next ∧ (decl.name = name → next.Tucked name) := by
  refine Told.Ensures.bind (tellParams decl _ _ place builds signed fun same => (isBare same).1)
    fun _ _ _ params => ?_
  rcases params.stands with ⟨ready, stands⟩
  refine Told.Ensures.bind (opens _ _ ready stands params.signed fun same => (isBare same).2)
    fun _ _ _ body => ?_
  have upTo := params.trans body
  rcases body.stands with ⟨left, stands⟩
  rw [Nat.zero_add] at upTo
  split
  · have returns : (Told.telling (fun _ => Task.returnIfLive none)
        (returnIfLive none)).Opens start name True 0 := tellReturnIfLive program none
    refine Told.Ensures.bind (returns _ _ left stands body.signed fun _ => trivial)
      fun _ _ _ returns => ?_
    rcases returns.stands with ⟨closed, stands⟩
    refine (ensures_tellFinish finishes program name stands returns.signed).mono fun _ _ _ facts => ?_
    exact ⟨(upTo.trans returns).trans facts.1, facts.2⟩
  · refine (ensures_tellFinish finishes program name stands body.signed).mono fun _ _ _ facts => ?_
    exact ⟨upTo.trans facts.1, facts.2⟩

/-- A function is told, which may be the one in question. Its blocks are laid out afterwards. -/
theorem tellFunctionDecl {func : FuncId} {decl : FunctionDecl}
    (known : program.function? func = some decl)
    (isBare : decl.name = name → decl.params = [] ∧ clear)
    (opens : (tell decl.body).Opens start name clear count) :
    (tellFunctionDecl program finish tell func).Opens start name True
      ((if decl.name = name then 1 else 0) + count) := by
  intro current session place builds signed _
  refine Told.From.start (.orFault fun other found => .cursor ?_)
  cases known.symm.trans found
  have starts : (Told.telling (fun _ => Task.start decl.name) (openFunction decl.name)).Ensures session
      fun _ _ opened => start.Opens name decl.name (if decl.name = name then 1 else 0) session opened :=
    .telling ((performs_openFunction session decl.name).mono fun _ _
      (starts : (Task.start decl.name).Performs program decl.name session _) => opens_start starts signed)
  refine .bind starts fun _ _ opened starts => ?_
  rcases starts.stands with ⟨entry, stands⟩
  refine .bind (ensures_tellFunctionBody finishes isBare opens stands starts.signed)
    fun _ _ closed facts => ?_
  have upTo := starts.trans facts.1
  let back : Session := { closed with cursor := closed.cursor.setPosition session.cursor.position }
  have resumes : (Told.telling (fun _ => Task.resume session.cursor.position)
      (Lower.moveCursor fun cursor => cursor.setPosition session.cursor.position)).Ensures closed
        fun _ _ next => next = back := .telling (.of_ok rfl rfl)
  refine resumes.mono fun _ _ next same => ?_
  subst same
  refine ⟨?_, upTo.signed, upTo.reopens, fun apart tucked => ?_⟩
  · rcases builds.body with ⟨function, found, _⟩
    have signature := (upTo.signed current).trans (signed current).symm
    rw [found] at signature
    rcases Option.map_eq_some_iff.mp signature with ⟨later, foundLater, _⟩
    exact ⟨⟨later.body, place.block⟩, builds.position, later, foundLater, rfl⟩
  · by_cases own : decl.name = name
    · exact facts.2 own
    · exact upTo.tucked own tucked

/-! ### Statements -/

/-- How often the statement itself declares the function. -/
def declares (program : Program) (name : String) (stmt : Stmt) : Nat :=
  (((declaredBy? stmt).toList.filterMap fun func =>
    (program.function? func).map FunctionDecl.name)).count name

omit finishes in
theorem count_namesOf_walkNodeOf (walk : StmtId → List Node) (stmt : Stmt) :
    (namesOf program (walkNodeOf program walk stmt)).count name = declares program name stmt +
      ((children program stmt).map fun child => (namesOf program (walk child)).count name).sum := by
  rw [namesOf, functionsOf_walkNodeOf, List.filterMap_append, List.count_append]
  change _ + (namesOf program ((children program stmt).flatMap walk)).count name = _
  rw [namesOf_flatMap, List.count_flatMap]
  rfl

theorem tellNodeOf {walk : StmtId → List Node} {id : StmtId} {stmt : Stmt}
    (known : program.stmt? id = some stmt)
    (bodies : ∀ func decl, program.function? func = some decl → decl.name = name →
      decl.params = [] ∧ Bare program start (walk decl.body))
    (opens : ∀ child ∈ children program stmt,
      (tell child).Opens start name (Bare program start (walk child))
        ((namesOf program (walk child)).count name)) :
    (tellNodeOf program finish tell id stmt).Opens start name
      (Bare program start (.stmt id :: walkNodeOf program walk stmt))
        ((namesOf program (walkNodeOf program walk stmt)).count name) := by
  have others : ∀ child ∈ children program stmt, (tell child).Opens start name False
      ((namesOf program (walk child)).count name) :=
    fun child member => (opens child member).mono False.elim
  rw [count_namesOf_walkNodeOf]
  have noLoop (loops : isLoop stmt = true) :
      ¬ Bare program start (.stmt id :: walkNodeOf program walk stmt) :=
    fun bare => (bare _ List.mem_cons_self).1 ⟨stmt, known, loops⟩
  have noJump {target : StmtId} (jumps : jumpTarget? stmt = some target) :
      ¬ Bare program start (.stmt id :: walkNodeOf program walk stmt) := by
    intro bare
    have nowhere := (bare _ List.mem_cons_self).2
    simp [Node.jumpsTo?, known, jumps] at nowhere
  cases stmt with
  | expr expr => exact (tellEffect expr).mono fun _ => trivial
  | compound stmts =>
      refine cast ?_ (forM fun child member => (opens child member).mono fun bare node inChild => ?_)
      · simp [declares, declaredBy?, children]
      · exact bare node (List.mem_cons_of_mem _ (List.mem_flatMap.mpr ⟨child, member, inChild⟩))
  | varDecl vars =>
      refine cast ?_ (forM fun var member => (tellVar var).mono fun bare node inVar => ?_)
      · simp [declares, declaredBy?, children]
      · exact bare node (List.mem_cons_of_mem _ (List.mem_flatMap.mpr ⟨var, member, inVar⟩))
  | functionDecl func =>
      cases found : program.function? func with
      | none =>
          intro current session place builds signed _
          refine Told.From.start (.orFault fun decl present => ?_)
          rw [found] at present
          cases present
      | some decl =>
          have body := opens decl.body (by simp [children, found])
          refine cast ?_ ((tellFunctionDecl finishes found (bodies func decl found) body).mono
            fun _ => trivial)
          by_cases own : decl.name = name <;> simp [declares, declaredBy?, children, found, own]
  | ifThenElse condition thenBody elseBody =>
      refine excluding (fun session signed => ?_) (cast ?_ (tellIf id condition thenBody elseBody others))
      · rw [Lowering.tellNodeOf, Lowering.tellIf, Told.step_bind, step_tellValue]
        refine (notes_lowerValue condition session signed).bind fun value next facts => ?_
        refine (Lower.Ensures.self _ next).mono fun _ _ _ bare => ?_
        refine (bare (.expr condition) (List.mem_cons_of_mem _ (List.mem_append_left _ ?_))).1 facts.2
        exact List.mem_cons_self
      · simp [declares, declaredBy?, children]
  | whileLoop condition body =>
      refine cast ?_ ((tellWhile id condition (others body List.mem_cons_self)).mono (noLoop rfl))
      simp [declares, declaredBy?, children]
  | forLoop initial condition updates body =>
      have inBody := others body (by cases initial <;> simp [children])
      cases initial with
      | decl stmt =>
          refine cast ?_ ((tellFor id condition updates (others stmt List.mem_cons_self) inBody).mono
            (noLoop rfl))
          simp [declares, declaredBy?, children]
      | exprs exprs =>
          refine cast ?_ ((tellFor id condition updates (tellExprs exprs) inBody).mono (noLoop rfl))
          simp [declares, declaredBy?, children]
  | continueLoop target =>
      exact (apart program fun _ => .tellJump fun session blocks found => by
        rw [Session.JumpsBy, known]
        exact ⟨blocks, found, rfl⟩).mono (noJump rfl)
  | breakLoop target =>
      exact (apart program fun _ => .tellJump fun session blocks found => by
        rw [Session.JumpsBy, known]
        exact ⟨blocks, found, rfl⟩).mono (noJump rfl)
  | returnValue result => exact (tellReturn known).mono fun _ => trivial

end Parts

end Told.Opens

theorem opens_tellStmtWithin {finish : String → Lower Unit} (finishes : Finishes finish)
    {start : Session} (bodies : ∀ func decl, program.function? func = some decl → decl.name = name →
      Bare program start (nodesIn program decl))
    {depth : Nat} (less : depth ≤ stmtDepth program) (id : StmtId) :
    (tellStmtWithin program finish depth id).Opens start name
      (Bare program start (walkStmtWithin program depth id))
      ((namesOf program (walkStmtWithin program depth id)).count name) := by
  induction depth generalizing id with
  | zero =>
      intro _ _ _ _ _ _ _ _ _ runs
      cases congrArg Prod.snd runs
  | succ depth induction =>
      intro current session place builds signed isClear
      have less := Nat.le_of_succ_le less
      refine Told.From.start (.bind (.come (depth + 1) id session) fun _ _ _ facts => ?_)
      rcases facts with ⟨_, rfl⟩
      refine .orFault fun stmt known => ?_
      have names (nodes : List Node) :
          namesOf program (.stmt id :: nodes) = namesOf program nodes := by
        simp [namesOf, Node.function?]
      rw [walkStmtWithin_eq known] at isClear ⊢
      rw [names]
      refine Told.Opens.tellNodeOf finishes known (fun func decl found own => ⟨?_, fun node member => ?_⟩)
        (fun child _ => induction less child) current session place builds signed isClear
      · refine List.eq_nil_iff_forall_not_mem.mpr fun param member => ?_
        exact (bodies func decl found own (.param param)
          (List.mem_append_left _ (List.mem_map_of_mem member))).1 trivial
      · exact bodies func decl found own node
          (List.mem_append_right _ (walkStmtWithin_subset decl.body less member))

/-! ## Programs -/

theorem length_layout_le_one {module : Code.Module} {function : Code.Function}
    (verified : module.verify = .ok ()) (found : module.function? name = some function)
    (attached : function.body.Attached)
    (noEdge : ∀ target, ¬ function.body.Shows Code.Block.successors target) :
    function.body.layout.length ≤ 1 := by
  cases layout : function.body.layout with
  | nil => exact Nat.zero_le 1
  | cons entry rest =>
      have nonempty : function.body.layout ≠ [] := by simp [layout]
      have checked := (Code.Module.verify_eq_ok.mp verified).2 name function found nonempty
      have shape := Code.checkShape_eq_ok.mp (Code.Module.checkFunction_eq_ok.mp checked).1
      have distinct := (Code.Body.perm_of_attached shape.2.1 attached).nodup_iff.mp
        function.body.blocks.keys_nodup
      cases rest with
      | nil => exact Nat.le_refl 1
      | cons second rest =>
          rw [layout] at distinct
          have different : function.entry? ≠ some second := by
            rw [Code.Function.entry?, layout]
            rintro ⟨⟩
            exact absurd distinct (by simp)
          rcases Code.Function.orphans_eq_nil_iff.mp shape.2.2.2 second (by simp [layout]) different
            with ⟨_, block, isLaidOut, _, leads⟩
          rcases Code.Body.mem_laidOut.mp isLaidOut with ⟨id, _, foundBlock⟩
          exact absurd ⟨id, block, foundBlock, leads⟩ (noEdge second)

/-- As the items are lowered, a function without marks is opened as often as its name is met. -/
theorem opens_tellItems {options : Options} {declared : Code.Module}
    (declares : declareAll program options = .ok declared) {func : FuncId} {decl : FunctionDecl}
    (known : program.function? func = some decl)
    (bare : Bare program (.start (.ofModule declared)) (nodesIn program decl)) :
    (tellItems program (finishFunction options) options.entryFunction).Ensures
      (.start (.ofModule declared)) fun _ _ last =>
        Session.Opens (.start (.ofModule declared)) decl.name options.entryFunction
          ((namesOf program (walkProgram program)).count decl.name) (.start (.ofModule declared))
          last := by
  have finishes := finishes_finishFunction options
  have isDeclared := declared_of_declareAll declares
  let start : Session := .start (.ofModule declared)
  have apart : options.entryFunction ≠ decl.name := (isDeclared.apart func decl known).symm
  have signed : start.Signed start := .refl start
  have starts : (Told.telling (fun _ => Task.start options.entryFunction)
      (openFunction options.entryFunction)).Ensures start fun _ _ opened =>
        start.Opens decl.name options.entryFunction (if options.entryFunction = decl.name then 1 else 0)
          start opened :=
    .telling ((performs_openFunction start options.entryFunction).mono fun _ _
      (starts : (Task.start _).Performs program _ start _) => Told.Opens.opens_start starts signed)
  rw [if_neg apart] at starts
  have items : (program.items.forM (tellStmtWithin program (finishFunction options)
      (stmtDepth program))).Opens start decl.name False
        ((namesOf program (walkProgram program)).count decl.name) := by
    refine .cast ?_ (.forM fun item _ => (opens_tellStmtWithin finishes
      (fun other otherDecl found same => ?_) (Nat.le_refl _) item).mono False.elim)
    · rw [walkProgram, namesOf_flatMap, List.count_flatMap]
      rfl
    · cases isDeclared.distinct other func otherDecl decl found known same
      cases known.symm.trans found
      exact bare
  refine Told.Ensures.bind starts fun _ _ opened starts => ?_
  rcases starts.stands with ⟨_, stands⟩
  refine Told.Ensures.bind (items _ _ _ stands starts.signed fun same => apart same)
    fun _ _ next runs => ?_
  rcases runs.stands with ⟨_, stands⟩
  have returns : (Told.telling (fun _ => Task.returnIfLive (some (.ofInt64 0)))
      (returnIfLive (some (.ofInt64 0)))).Opens start decl.name True 0 := .tellReturnIfLive program _
  refine Told.Ensures.bind (returns _ _ _ stands runs.signed fun _ => trivial)
    fun _ _ closed returns => ?_
  rcases returns.stands with ⟨_, stands⟩
  refine (Told.Opens.ensures_tellFinish finishes program decl.name stands returns.signed).mono
    fun _ _ _ facts => ?_
  have whole := ((starts.trans runs).trans returns).trans facts.1
  rw [Nat.zero_add] at whole
  exact whole

/-- A program with a function that gets no mark and is lowered twice is rejected. -/
theorem count_namesOf_le_one {options : Options} {declared module : Code.Module}
    (lowers : lowerProgram program options = .ok module)
    (declares : declareAll program options = .ok declared) {func : FuncId} {decl : FunctionDecl}
    (known : program.function? func = some decl)
    (bare : Bare program (.start (.ofModule declared)) (nodesIn program decl)) :
    (namesOf program (walkProgram program)).count decl.name ≤ 1 := by
  have isDeclared := declared_of_declareAll declares
  rcases exists_told lowers with ⟨_, last, again, tells, rfl, verified⟩
  cases declares.symm.trans again
  let start : Session := .start (.ofModule declared)
  have apart : options.entryFunction ≠ decl.name := (isDeclared.apart func decl known).symm
  have opens := opens_tellItems declares known bare _ _ _ tells
  rcases isDeclared.functions func decl known with ⟨signature, _, found⟩
  have body : start.bodyOf? decl.name = some .empty := by
    rw [Session.bodyOf?]
    exact congrArg _ found
  rcases opens.reopens _ body with ⟨later, foundLater, longer, noMore⟩
  rcases Option.map_eq_some_iff.mp foundLater with ⟨function, foundFunction, rfl⟩
  have short := length_layout_le_one verified foundFunction
    (opens.tucked apart (fun other isBody => ?_) _ foundLater) fun target shows_ => ?_
  · have empty : (Body.empty).layout.length = 0 := rfl
    omega
  · cases body.symm.trans isBody
    intro id block nothing
    cases nothing
  · rcases noMore target shows_ with ⟨id, block, nothing, _⟩
    cases nothing

end ScriptLowering.Lowering
