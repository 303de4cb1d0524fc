import ScriptLowering.Proofs.StatementRuns

/-! # Running control flow

The blocks of a structured statement are created when it is met and entered later. The machine
goes from one to the other as the evaluation goes from one part of the statement to the next.
-/

namespace ScriptLowering.Code.Place

/-! ## Earlier and later places -/

/-- Temps and edges that are there at the one place are there at the other. -/
structure Precedes (place after : Place) : Prop where
  temps : place.body.temps.size ≤ after.body.temps.size
  edges : ∀ id, place.EdgeTo id → after.EdgeTo id

namespace Precedes

variable {place middle after : Place}

theorem refl (place : Place) : place.Precedes place := ⟨Nat.le_refl _, fun _ edge => edge⟩

theorem trans (first : place.Precedes middle) (second : middle.Precedes after) :
    place.Precedes after :=
  ⟨Nat.le_trans first.temps second.temps, fun id edge => second.edges id (first.edges id edge)⟩

theorem of_within (regular : place.Regular)
    (within : place.Within place.body.nextBlock.toNat after) : place.Precedes after :=
  ⟨within.size_le, fun _ edge => edge.within regular within⟩

theorem leaveTo (regular : place.Regular) (target : BlockId) :
    place.Precedes (place.leaveTo target) :=
  .of_within regular (within_leaveTo _ place target)

theorem enter (regular : place.Regular) {id : BlockId} {label : String}
    (waiting : place.Waiting id label) (closing : Bool) :
    place.Precedes (place.enter id closing) :=
  ⟨(within_enter place (Nat.zero_le _) closing).size_le,
    fun _ edge => edge.enter regular waiting closing⟩

end Precedes

/-! ## Blocks that are created ahead -/

/-- Some more blocks have been created, and there is room for `count` others. -/
structure Prepares (place after : Place) (count : Nat) : Prop where
  regular : after.Regular
  room : after.Room count
  within : place.Within place.body.nextBlock.toNat after
  stands : ∀ {frame : Frame}, frame.Stands place → frame.Stands after

theorem Prepares.refl {place : Place} (fit : place.Fit) : place.Prepares place 8 :=
  ⟨fit.regular, fit.room, .refl _ _, fun stands => stands⟩

theorem Prepares.create {place after : Place} {count : Nat}
    (prepares : place.Prepares after (count + 1)) (label : String) :
    place.Prepares (after.create label) count where
  regular := prepares.regular.create prepares.room label
  room := prepares.room.create label
  within := prepares.within.trans (within_create prepares.room prepares.within.blocks label)
  stands := fun stands => (prepares.stands stands).create prepares.regular label

/-! ## Blocks that end -/

section Ending

variable {place : Place} {count : Nat} {body : Body} {id : BlockId} {label : String}

theorem Regular.finish (regular : place.Regular) (room : place.Room (count + 1))
    (terminator : Terminator) : (place.ready.terminate terminator).Regular :=
  (regular.ready room).terminate (Lowering.isOpen_ready place) terminator

theorem within_finish (room : place.Room (count + 1)) (terminator : Terminator) :
    place.Within place.body.nextBlock.toNat (place.ready.terminate terminator) :=
  (within_ready room (Nat.le_refl _)).trans
    (within_terminate _ (Lowering.isOpen_ready place) terminator)

theorem Waiting.finish (waiting : place.Waiting id label) (regular : place.Regular)
    (room : place.Room (count + 1)) (terminator : Terminator) :
    (place.ready.terminate terminator).Waiting id label :=
  waiting.within (within_finish room terminator) (waiting.number_lt regular)

theorem Lasts.of_finish {terminator : Terminator}
    (lasts : (place.ready.terminate terminator).Lasts body) (regular : place.Regular)
    (room : place.Room (count + 1)) : place.Lasts body :=
  lasts.of_within regular (within_finish room terminator)

end Ending

end ScriptLowering.Code.Place

namespace ScriptLowering.Lowering

open Source (Program ExprId Stmt StmtId VarId VarDecl FunctionDecl Datum Store Eval Flow Library
  Follows ForInit)
open Code (BlockId Frame Function GlobalId Module Operand Place State Step Takes Value)

section Control

variable {program : Program} {final : Session} {library : Library}
  {call : FunctionDecl → List Datum → Eval (Option Datum)} {fuel below depth : Nat}
  {returns : Source.Ty} {loops : List StmtId} {locals declared : List VarId} {function : Function}
  {callers : List Frame} {frame between next : Frame} {memory : GlobalId → Option Value}
  {serial : Nat} {store : Store} {state : State} {flow : Flow} {target : BlockId}
  {place begun done after ended : Place}

/-! ## Tests and joins -/

theorem Runs.prepared
    (runs : Runs program final locals callers place after frame store state next) {count : Nat}
    (prepares : after.Prepares ended count) :
    Runs program final locals callers place ended frame store state next :=
  { runs with
    stands := prepares.stands runs.stands
    agrees := runs.agrees.mono (fun _ => id) prepares.within.size_le }

/-- A condition is tested at `place`, and the machine is about to go to one of two blocks. -/
theorem follows_test (linked : Linked program final)
    (calls : CallsFollow program final library call below) (enough : fuel ≤ below + 1)
    {condition : ExprId} {value : Operand} {tested created : Place} {thenBlock elseBlock : BlockId}
    (tests : LowersExpr program final condition place (some value) tested)
    (typed : ExprTyped program (HasFunction program) locals condition .boolean)
    (regular : tested.Regular) {count : Nat}
    (prepares : tested.Prepares created (count + 1))
    (lasts : (created.ready.terminate (.branch value thenBlock elseBlock)).Lasts function.body)
    (hosted : Hosted final function frame) (stands : frame.Stands place)
    (agrees : Matches program final locals place.body.temps.size store frame memory) :
    Follows final.cursor.module library
      (Source.evalCondition program library call condition store) fuel
      ⟨frame :: callers, memory, serial⟩ fun truth last state =>
        ∃ next, Leaves program final locals callers place
          (created.ready.terminate (.branch value thenBlock elseBlock)) frame
          (if truth then thenBlock else elseBlock) last state next := by
  have lastsTested := (lasts.of_finish prepares.regular prepares.room).of_within regular
    prepares.within
  refine (follows_condition linked calls enough tests typed lastsTested hosted stands agrees).mono
    fun truth last state holds => ?_
  rcases holds with ⟨next, runs, isTrue⟩
  exact ⟨next, (runs.prepared prepares).branches (hosted.later runs.continues) lasts isTrue⟩

theorem Leaves.later
    (leaves : Leaves program final locals callers place after frame target store state next)
    (precedes : after.Precedes ended) :
    Leaves program final locals callers place ended frame target store state next :=
  leaves.outward (fun _ => id) (.refl _ _) (Nat.le_refl _) precedes.temps precedes.edges

/-- Where a part of a statement has ended, the machine goes on to the block behind the statement,
unless the statement has been left. -/
theorem Flows.joins {label : String}
    (flows : Flows program final returns loops locals declared callers begun done between flow
      store state)
    (hosted : Hosted final function between)
    (lasts : (done.leaveTo target).Lasts function.body)
    (continues : Continues place.body.temps.size frame between)
    (starts : place.body.temps.size ≤ begun.body.temps.size) (regularDone : done.Regular)
    (precedes : (done.leaveTo target).Precedes ended) (regular : ended.Regular)
    (waiting : ended.Waiting target label) :
    ∃ count last, Takes final.cursor.module (library.surroundings final.cursor.module) count state
        last ∧
      Flows program final returns loops locals [] callers place (ended.enter target true) frame flow
        store last := by
  cases flows with
  | normal runs =>
      have leaves := (runs.leaves (hosted.later runs.continues) lasts).outward
        (fun _ member => List.mem_append_right declared member) continues starts precedes.temps
        precedes.edges
      exact ⟨1, _, .one leaves.step, .normal (leaves.lands regular waiting true)⟩
  | departs departs =>
      have further := ((Place.Precedes.leaveTo regularDone target).trans precedes).trans
        (.enter regular waiting true)
      exact ⟨0, state, .none, .departs (departs.outward (fun _ => id) continues starts
        further.temps further.edges)⟩

theorem Leaves.follows {α : Type} {result : Except Source.Halt (α × Store)}
    {post : α → Store → State → Prop}
    (leaves : Leaves program final locals callers place after frame target store state next)
    (follows : Follows final.cursor.module library result fuel
      ⟨next.jump target :: callers, state.globals, state.nextSerial⟩ post) :
    Follows final.cursor.module library result fuel state post :=
  follows.after (.one leaves.step)

theorem Leaves.joins {label : String}
    (leaves : Leaves program final locals callers place after frame target store state next)
    (precedes : after.Precedes ended) (regular : ended.Regular)
    (waiting : ended.Waiting target label) :
    Follows final.cursor.module library (.ok (.normal, store)) fuel state
      (Flows program final returns loops locals [] callers place (ended.enter target true)
        frame) := by
  have lands := (leaves.later precedes).lands regular waiting true
  exact leaves.follows (.pure (.normal lands))

/-! ## Conditional statements -/

theorem partFollows_ifThen (linked : Linked program final)
    (calls : CallsFollow program final library call below) (enough : fuel ≤ below + 1)
    {id thenBody : StmtId} {condition : ExprId} {value : Operand} {node : Stmt}
    {tested created : Place} {endBlock : BlockId}
    (tests : LowersExpr program final condition place (some value) tested) (fit : tested.Fit)
    (creates : created = (tested.create "if.then").create "if.end")
    (found : program.stmt? thenBody = some node)
    (body : LowersPart program final depth (.stmt thenBody node)
      ((created.ready.terminate (.branch value tested.freshBlock endBlock)).enter
        tested.freshBlock false) done)
    (fitDone : done.Fit) (waits : done.Waiting endBlock "if.end")
    (bodyFollows : PartFollows program final library call fuel depth (.stmt thenBody node)
      ((created.ready.terminate (.branch value tested.freshBlock endBlock)).enter
        tested.freshBlock false) done) :
    PartFollows program final library call fuel (depth + 1)
      (.stmt id (.ifThenElse condition thenBody none)) place
      ((done.leaveTo endBlock).enter endBlock true) := by
  intro deeper returns loops locals function callers frame memory serial store deep typed regular
    lasts begins
  rcases deeper with _ | deeper
  · cases deep
  cases typed with
  | ifThen testTyped known bodyTyped =>
      rw [found] at known
      cases known
      have prepares : tested.Prepares created 6 := by
        rw [creates]
        exact ((Place.Prepares.refl fit).create "if.then").create "if.end"
      have waitsThen : created.Waiting tested.freshBlock "if.then" := by
        rw [creates]
        exact (Place.Waiting.created fit.regular _).create
          ((Place.Prepares.refl fit).create "if.then").regular _
      have regularBranched := prepares.regular.finish prepares.room
        (.branch value tested.freshBlock endBlock)
      have waitsBranched := waitsThen.finish prepares.regular prepares.room
        (.branch value tested.freshBlock endBlock)
      have regularEntered := body.regular fitDone.regular
      have regularLeft := fitDone.regular.leaveTo endBlock
      have waitsLeft := waits.leaveTo endBlock
      have lastsLeft := lasts.of_enter regularLeft waitsLeft
      have lastsDone := lastsLeft.of_leaveTo fitDone.regular
      have lastsBranched := (lastsDone.of_within regularEntered body.within).of_enter
        regularBranched waitsBranched
      have entering := Place.Precedes.enter regularBranched waitsBranched false
      have starts := (((Place.Precedes.of_within tests.regular tests.within).trans
        (.of_within fit.regular prepares.within)).trans (.of_within prepares.regular
          (Place.within_finish prepares.room _))).trans entering
      refine Follows.bind (follows_test linked calls enough tests testTyped fit.regular prepares
        lastsBranched begins.hosted begins.stands begins.agrees)
          fun truth between state holds => ?_
      rcases holds with ⟨next, leaves⟩
      cases truth with
      | true =>
          have lands := leaves.lands regularBranched waitsBranched false
          refine leaves.follows ?_
          simp only [if_true]
          rw [evalStmtWithin_succ found]
          refine (bodyFollows deeper returns loops locals function callers _ _ _ between
            (by omega) bodyTyped fitDone.regular lastsDone (begins.later lands)).onward
              fun flow last state flows => ?_
          exact flows.joins (begins.hosted.later lands.continues) lastsLeft lands.continues
            starts.temps fitDone.regular (.refl _) regularLeft waitsLeft
      | false =>
          have precedes := (entering.trans (.of_within regularEntered body.within)).trans
            (.leaveTo fitDone.regular endBlock)
          exact leaves.joins precedes regularLeft waitsLeft

theorem partFollows_ifThenElse (linked : Linked program final)
    (calls : CallsFollow program final library call below) (enough : fuel ≤ below + 1)
    {id thenBody elseBody : StmtId} {condition : ExprId} {value : Operand}
    {thenNode elseNode : Stmt} {tested created elseDone : Place} {endBlock elseBlock : BlockId}
    (tests : LowersExpr program final condition place (some value) tested) (fit : tested.Fit)
    (creates : created = ((tested.create "if.then").create "if.end").create "if.else")
    (thenFound : program.stmt? thenBody = some thenNode)
    (elseFound : program.stmt? elseBody = some elseNode)
    (thenPart : LowersPart program final depth (.stmt thenBody thenNode)
      ((created.ready.terminate (.branch value tested.freshBlock elseBlock)).enter
        tested.freshBlock false) done)
    (fitDone : done.Fit) (waitsElse : done.Waiting elseBlock "if.else")
    (elsePart : LowersPart program final depth (.stmt elseBody elseNode)
      ((done.leaveTo endBlock).enter elseBlock false) elseDone)
    (fitElse : elseDone.Fit) (waits : elseDone.Waiting endBlock "if.end")
    (thenFollows : PartFollows program final library call fuel depth (.stmt thenBody thenNode)
      ((created.ready.terminate (.branch value tested.freshBlock elseBlock)).enter
        tested.freshBlock false) done)
    (elseFollows : PartFollows program final library call fuel depth (.stmt elseBody elseNode)
      ((done.leaveTo endBlock).enter elseBlock false) elseDone) :
    PartFollows program final library call fuel (depth + 1)
      (.stmt id (.ifThenElse condition thenBody (some elseBody))) place
      ((elseDone.leaveTo endBlock).enter endBlock true) := by
  intro deeper returns loops locals function callers frame memory serial store deep typed regular
    lasts begins
  rcases deeper with _ | deeper
  · cases deep
  cases typed with
  | ifThenElse testTyped thenKnown elseKnown thenTyped elseTyped =>
      rw [thenFound] at thenKnown
      cases thenKnown
      rw [elseFound] at elseKnown
      cases elseKnown
      have preparesTwo := ((Place.Prepares.refl fit).create "if.then").create "if.end"
      have prepares : tested.Prepares created 5 := by
        rw [creates]
        exact preparesTwo.create "if.else"
      have waitsThen : created.Waiting tested.freshBlock "if.then" := by
        rw [creates]
        exact ((Place.Waiting.created fit.regular _).create
          ((Place.Prepares.refl fit).create "if.then").regular _).create preparesTwo.regular _
      have regularBranched := prepares.regular.finish prepares.room
        (.branch value tested.freshBlock elseBlock)
      have waitsBranched := waitsThen.finish prepares.regular prepares.room
        (.branch value tested.freshBlock elseBlock)
      have regularEntered := thenPart.regular fitDone.regular
      have regularThen := fitDone.regular.leaveTo endBlock
      have waitsElseThen := waitsElse.leaveTo endBlock
      have regularSwitched := elsePart.regular fitElse.regular
      have regularLeft := fitElse.regular.leaveTo endBlock
      have waitsLeft := waits.leaveTo endBlock
      have lastsLeft := lasts.of_enter regularLeft waitsLeft
      have lastsElse := lastsLeft.of_leaveTo fitElse.regular
      have lastsThen := (lastsElse.of_within regularSwitched elsePart.within).of_enter regularThen
        waitsElseThen
      have lastsDone := lastsThen.of_leaveTo fitDone.regular
      have lastsBranched := (lastsDone.of_within regularEntered thenPart.within).of_enter
        regularBranched waitsBranched
      have branching := ((Place.Precedes.of_within tests.regular tests.within).trans
        (.of_within fit.regular prepares.within)).trans (.of_within prepares.regular
          (Place.within_finish prepares.room (.branch value tested.freshBlock elseBlock)))
      have entering := Place.Precedes.enter regularBranched waitsBranched false
      have leaving := (entering.trans (.of_within regularEntered thenPart.within)).trans
        (.leaveTo fitDone.regular endBlock)
      have switching := Place.Precedes.enter regularThen waitsElseThen false
      refine Follows.bind (follows_test linked calls enough tests testTyped fit.regular prepares
        lastsBranched begins.hosted begins.stands begins.agrees)
          fun truth between state holds => ?_
      rcases holds with ⟨next, leaves⟩
      cases truth with
      | true =>
          have lands := leaves.lands regularBranched waitsBranched false
          refine leaves.follows ?_
          simp only [if_true]
          rw [evalStmtWithin_succ thenFound]
          refine (thenFollows deeper returns loops locals function callers _ _ _ between
            (by omega) thenTyped fitDone.regular lastsDone (begins.later lands)).onward
              fun flow last state flows => ?_
          exact flows.joins (begins.hosted.later lands.continues) lastsThen lands.continues
            (branching.trans entering).temps fitDone.regular
            ((switching.trans (.of_within regularSwitched elsePart.within)).trans
              (.leaveTo fitElse.regular endBlock)) regularLeft waitsLeft
      | false =>
          have lands := (leaves.later leaving).lands regularThen waitsElseThen false
          refine leaves.follows ?_
          simp only [Bool.false_eq_true, if_false]
          rw [evalStmtWithin_succ elseFound]
          refine (elseFollows deeper returns loops locals function callers _ _ _ between
            (by omega) elseTyped fitElse.regular lastsElse (begins.later lands)).onward
              fun flow last state flows => ?_
          exact flows.joins (begins.hosted.later lands.continues) lastsLeft lands.continues
            ((branching.trans leaving).trans switching).temps fitElse.regular (.refl _)
            regularLeft waitsLeft

/-! ## Loops -/

/-- The rounds of a loop: the condition is tested at `head`, the body goes from `tested` to `done`,
and the loop goes on or is left at `ended`. -/
theorem follows_rounds {id body : StmtId} {node : Stmt} {blocks : LoopBlocks}
    {condition : Eval Bool} {update : Eval Unit} {head tested : Place} {label : String}
    {deeper : Nat} {first : Frame}
    (known : final.annotations.loopOf id = .ok blocks) (found : program.stmt? body = some node)
    (bodyFollows : PartFollows program final library call fuel depth (.stmt body node) tested done)
    (deep : depth ≤ deeper)
    (typed : PartTyped program (HasFunction program) returns (id :: loops) locals (.stmt body node))
    (regularDone : done.Regular) (regular : ended.Regular)
    (lasts : (done.leaveTo blocks.continueTarget).Lasts function.body)
    (waiting : ended.Waiting blocks.exit label) (precedes : done.Precedes ended)
    (starts : place.body.temps.size ≤ tested.body.temps.size)
    (hosted : Hosted final function frame)
    (returning : function.signature.returns = codeType returns)
    (tests : ∀ store state next,
      Runs program final locals callers place head frame store state next →
      Follows final.cursor.module library (condition store) fuel state fun truth last after =>
        if truth then ∃ next, Runs program final locals callers place tested frame last after next
        else Flows program final returns loops locals [] callers place
          (ended.enter blocks.exit true) frame .normal last after)
    (renews : ∀ store state next, Leaves program final locals callers place
        (done.leaveTo blocks.continueTarget) frame blocks.continueTarget store state next →
      Follows final.cursor.module library (update store) fuel state fun _ last after =>
        ∃ next, Leaves program final locals callers place ended frame blocks.condition last after
          next)
    (runs : Runs program final locals callers place head frame store state first)
    (block : first.block = blocks.condition) (index : first.index = 0) :
    Follows final.cursor.module library
      (Source.evalLoop id condition
        (Source.evalStmtWithin program library call fuel (deeper + 1) body) update fuel store)
      fuel state
      (Flows program final returns loops locals [] callers place (ended.enter blocks.exit true)
        frame) := by
  have heads : ∀ store state,
      (∃ next, Runs program final locals callers place head frame store state next) →
      Follows final.cursor.module library (condition store) fuel state fun truth last after =>
        if truth then ∃ next, Runs program final locals callers place tested frame last after next
        else Flows program final returns loops locals [] callers place
          (ended.enter blocks.exit true) frame .normal last after := by
    intro store state holds
    rcases holds with ⟨next, runs⟩
    exact tests store state next runs
  have bodies : ∀ store state,
      (∃ next, Runs program final locals callers place tested frame store state next) →
      Follows final.cursor.module library
        (Source.evalStmtWithin program library call fuel (deeper + 1) body store) fuel state
        fun flow last after =>
          if flow.resumes id then ∃ next, Leaves program final locals callers place
            (done.leaveTo blocks.continueTarget) frame blocks.continueTarget last after next
          else Flows program final returns loops locals [] callers place
            (ended.enter blocks.exit true) frame (flow.leaves id) last after := by
    intro store state holds
    rcases holds with ⟨next, runs⟩
    rcases state with ⟨_, globals, count⟩
    cases runs.frames
    rw [evalStmtWithin_succ found]
    refine (bodyFollows deeper returns (id :: loops) locals function callers next globals count
      store deep typed regularDone (lasts.of_leaveTo regularDone)
      ⟨hosted.later runs.continues, returning, runs.stands, runs.agrees⟩).onward
        fun flow last state flows => ?_
    exact flows.endsLoop known (hosted.later runs.continues) lasts runs.continues starts
      precedes.temps regularDone precedes.edges regular waiting
  have again : ∀ store state, (∃ next, Leaves program final locals callers place
        (done.leaveTo blocks.continueTarget) frame blocks.continueTarget store state next) →
      Follows final.cursor.module library (update store) fuel state fun _ last after =>
        ∃ next, Step final.cursor.module (library.surroundings final.cursor.module) after next ∧
          ∃ first, Runs program final locals callers place head frame last next first := by
    intro store state holds
    rcases holds with ⟨next, leaves⟩
    refine (renews store state next leaves).mono fun _ last after holds => ?_
    rcases holds with ⟨next, leaves⟩
    exact ⟨_, leaves.step, _, leaves.again runs block index⟩
  exact follows_loop heads bodies again (Nat.le_refl fuel) ⟨first, runs⟩

theorem partFollows_whileLoop (linked : Linked program final)
    (calls : CallsFollow program final library call below) (enough : fuel ≤ below + 1)
    {id body : StmtId} {condition : ExprId} {value : Operand} {node : Stmt}
    {created tested : Place} {bodyBlock endBlock : BlockId} (fit : place.Fit)
    (creates : created = ((place.create "while.cond").create "while.body").create "while.end")
    (known : final.annotations.loopOf id = .ok ⟨place.freshBlock, none, endBlock⟩)
    (tests : LowersExpr program final condition (created.enter place.freshBlock false)
      (some value) tested)
    (fitTested : tested.Fit) (waitsBody : tested.Waiting bodyBlock "while.body")
    (found : program.stmt? body = some node)
    (part : LowersPart program final depth (.stmt body node)
      ((tested.ready.terminate (.branch value bodyBlock endBlock)).enter bodyBlock false) done)
    (fitDone : done.Fit) (waits : done.Waiting endBlock "while.end")
    (partFollows : PartFollows program final library call fuel depth (.stmt body node)
      ((tested.ready.terminate (.branch value bodyBlock endBlock)).enter bodyBlock false) done) :
    PartFollows program final library call fuel (depth + 1)
      (.stmt id (.whileLoop condition body)) place
      ((done.leaveTo place.freshBlock).enter endBlock true) := by
  intro deeper returns loops locals function callers frame memory serial store deep typed regular
    lasts begins
  rcases deeper with _ | deeper
  · cases deep
  cases typed with
  | whileLoop testTyped otherFound partTyped =>
      rw [found] at otherFound
      cases otherFound
      have preparesTwo := ((Place.Prepares.refl fit).create "while.cond").create "while.body"
      have prepares : place.Prepares created 5 := by
        rw [creates]
        exact preparesTwo.create "while.end"
      have waitsCond : created.Waiting place.freshBlock "while.cond" := by
        rw [creates]
        exact ((Place.Waiting.created fit.regular _).create
          ((Place.Prepares.refl fit).create "while.cond").regular _).create preparesTwo.regular _
      have regularHead := tests.regular
      have preparesTest := Place.Prepares.refl fitTested
      have regularBranched := fitTested.regular.finish preparesTest.room
        (.branch value bodyBlock endBlock)
      have waitsBranched := waitsBody.finish fitTested.regular preparesTest.room
        (.branch value bodyBlock endBlock)
      have regularEntered := part.regular fitDone.regular
      have regularLeft := fitDone.regular.leaveTo place.freshBlock
      have waitsLeft := waits.leaveTo place.freshBlock
      have lastsLeft := lasts.of_enter regularLeft waitsLeft
      have lastsDone := lastsLeft.of_leaveTo fitDone.regular
      have lastsBranched := (lastsDone.of_within regularEntered part.within).of_enter
        regularBranched waitsBranched
      have lastsHead := (lastsBranched.of_finish fitTested.regular preparesTest.room).of_within
        regularHead tests.within
      have heading := (Place.Precedes.of_within fit.regular prepares.within).trans
        (.enter prepares.regular waitsCond false)
      have branching := (Place.Precedes.of_within regularHead tests.within).trans
        (.of_within fitTested.regular
          (Place.within_finish preparesTest.room (.branch value bodyBlock endBlock)))
      have entering := Place.Precedes.enter regularBranched waitsBranched false
      have leaving := (Place.Precedes.of_within regularEntered part.within).trans
        (.leaveTo fitDone.regular place.freshBlock)
      rcases ((begins.runs callers serial).prepared prepares).falls begins.hosted prepares.regular
        waitsCond lastsHead with ⟨step, runs⟩
      refine (follows_rounds known found partFollows (by omega : depth ≤ deeper) partTyped
        fitDone.regular regularLeft lastsLeft waitsLeft (.leaveTo fitDone.regular place.freshBlock)
        ((heading.trans branching).trans entering).temps begins.hosted begins.returns ?_ ?_ runs
        rfl rfl).after (.one step)
      · intro store state next runs
        rcases state with ⟨_, globals, count⟩
        cases runs.frames
        refine (follows_test linked calls enough tests testTyped fitTested.regular preparesTest
          lastsBranched (begins.hosted.later runs.continues) runs.stands runs.agrees).onward
            fun truth last state holds => ?_
        rcases holds with ⟨next, leaves⟩
        have outer := leaves.outward (fun _ member => member) runs.continues heading.temps
          (Nat.le_refl _) fun _ edge => edge
        refine ⟨1, _, .one outer.step, ?_⟩
        cases truth with
        | true => exact ⟨_, outer.lands regularBranched waitsBranched false⟩
        | false => exact .normal ((outer.later (entering.trans leaving)).lands regularLeft
            waitsLeft true)
      · intro store state next leaves
        exact .pure ⟨next, leaves⟩

theorem follows_forCondition (linked : Linked program final)
    (calls : CallsFollow program final library call below) (enough : fuel ≤ below + 1)
    {condition : Option ExprId} {head tested : Place} {endBlock : BlockId} {label : String}
    (tests : LowersCondition program final endBlock condition head tested) (regularHead : head.Regular)
    {count : Nat} (room : head.Room (count + 1))
    (typed : ∀ expr, condition = some expr →
      ExprTyped program (HasFunction program) locals expr .boolean)
    (lasts : tested.Lasts function.body) (precedes : tested.Precedes ended)
    (regular : ended.Regular) (waiting : ended.Waiting endBlock label)
    (hosted : Hosted final function frame)
    (starts : place.body.temps.size ≤ head.body.temps.size)
    (runs : Runs program final locals callers place head frame store state next) :
    Follows final.cursor.module library
      (Source.evalForCondition program library call condition store) fuel state
      fun truth last after =>
        if truth then ∃ next, Runs program final locals callers place tested frame last after next
        else Flows program final returns loops locals [] callers place
          (ended.enter endBlock true) frame .normal last after := by
  cases tests with
  | none => exact .pure ⟨next, runs⟩
  | @some condition value _ between tests fit waits =>
      have prepares : head.Prepares (head.create "for.body") count :=
        ⟨regularHead.create room _, room.create _, Place.within_create room (Nat.le_refl _) _,
          fun stands => stands.create regularHead _⟩
      have regularBranched := fit.regular.finish fit.room (.branch value head.freshBlock endBlock)
      have waitsBranched := waits.finish fit.regular fit.room
        (.branch value head.freshBlock endBlock)
      have entering := Place.Precedes.enter regularBranched waitsBranched false
      have ready := runs.prepared prepares
      rcases state with ⟨_, globals, serial⟩
      cases ready.frames
      refine (follows_test linked calls enough tests (typed condition rfl) fit.regular
        (Place.Prepares.refl fit) (lasts.of_enter regularBranched waitsBranched)
        (hosted.later ready.continues) ready.stands ready.agrees).onward
          fun truth last state holds => ?_
      rcases holds with ⟨next, leaves⟩
      have outer := leaves.outward (fun _ member => member) ready.continues
        (Nat.le_trans starts prepares.within.size_le) (Nat.le_refl _) fun _ edge => edge
      refine ⟨1, _, .one outer.step, ?_⟩
      cases truth with
      | true => exact ⟨_, outer.lands regularBranched waitsBranched false⟩
      | false => exact .normal ((outer.later (entering.trans precedes)).lands regular waiting true)

theorem LowersUpdates.lasts {updates : List ExprId} {block : Option BlockId} {updated : Place}
    (renews : LowersUpdates program final updates block done updated) {head : BlockId}
    (regular : updated.Regular) {body : Code.Body} (lasts : (updated.leaveTo head).Lasts body) :
    (done.leaveTo (block.getD head)).Lasts body := by
  cases renews with
  | none => exact lasts
  | some waits computes =>
      have entered := (lasts.of_leaveTo regular).of_within (computes.regular regular)
        computes.within
      exact entered.of_enter_left waits

theorem LowersUpdates.precedes {updates : List ExprId} {block : Option BlockId} {updated : Place}
    (renews : LowersUpdates program final updates block done updated) (regularDone : done.Regular)
    (regular : updated.Regular) : done.Precedes updated := by
  cases renews with
  | none => exact .refl _
  | some waits computes =>
      exact (Place.Precedes.enter regularDone waits false).trans
        (.of_within (computes.regular regular) computes.within)

theorem follows_forUpdates (linked : Linked program final)
    (calls : CallsFollow program final library call below) (enough : fuel ≤ below + 1)
    {updates : List ExprId} {block : Option BlockId} {updated : Place} {head : BlockId}
    (renews : LowersUpdates program final updates block done updated)
    (nothing : block = none → updates = [])
    (typed : ∀ update ∈ updates, ∃ ty, ExprTyped program (HasFunction program) locals update ty)
    (regularDone : done.Regular) (regular : updated.Regular)
    (lasts : (updated.leaveTo head).Lasts function.body) (hosted : Hosted final function frame)
    (starts : place.body.temps.size ≤ done.body.temps.size)
    (leaves : Leaves program final locals callers place (done.leaveTo (block.getD head)) frame
      (block.getD head) store state next) :
    Follows final.cursor.module library (Source.evalEach program library call updates store) fuel
      state fun _ last after =>
        ∃ next, Leaves program final locals callers place (updated.leaveTo head) frame head last
          after next := by
  cases renews with
  | none =>
      rw [nothing rfl]
      exact .pure ⟨next, leaves⟩
  | @some id _ _ waits computes =>
      have lands : Runs program final locals callers place (done.enter id false) frame store
          (state.resume (next.jump id) callers) (next.jump id) :=
        leaves.lands (regularDone.leaveTo id) (waits.leaveTo id) false
      have entering := Place.Precedes.enter regularDone waits false
      refine leaves.follows ((follows_each linked calls enough computes typed regular
        (lasts.of_leaveTo regular) (hosted.later lands.continues) lands.stands lands.agrees).mono
          fun _ last after holds => ?_)
      rcases holds with ⟨last, runs⟩
      have whole := lands.trans runs (Nat.le_trans starts entering.temps)
      exact ⟨last, whole.leaves (hosted.later whole.continues) lasts⟩

theorem prepares_createUpdates (updates : List ExprId) {entered : Place} (fit : entered.Fit) :
    entered.Prepares (createUpdates updates entered) 7 := by
  unfold createUpdates
  split
  · exact { Place.Prepares.refl fit with room := fit.room.mono (by omega) }
  · exact (Place.Prepares.refl fit).create _

theorem partFollows_forLoop (linked : Linked program final)
    (calls : CallsFollow program final library call below) (enough : fuel ≤ below + 1)
    {id body : StmtId} {initial : ForInit} {condition : Option ExprId} {updates : List ExprId}
    {node : Stmt} {started entered tested updated : Place} {endBlock : BlockId}
    (first : LowersPart program final (depth + 1) (.initial initial) place started)
    (fit : started.Fit)
    (enters : entered = ((started.create "for.cond").create "for.end").enter started.freshBlock
      false)
    (fitEntered : entered.Fit)
    (known : final.annotations.loopOf id =
      .ok ⟨started.freshBlock, updateBlock? updates entered, endBlock⟩)
    (tests : LowersCondition program final endBlock condition (createUpdates updates entered)
      tested)
    (found : program.stmt? body = some node)
    (part : LowersPart program final depth (.stmt body node) tested done) (fitDone : done.Fit)
    (renews : LowersUpdates program final updates (updateBlock? updates entered) done updated)
    (fitUpdated : updated.Fit) (waits : updated.Waiting endBlock "for.end")
    (firstFollows : PartFollows program final library call fuel (depth + 1) (.initial initial)
      place started)
    (partFollows : PartFollows program final library call fuel depth (.stmt body node) tested
      done) :
    PartFollows program final library call fuel (depth + 1)
      (.stmt id (.forLoop initial condition updates body)) place
      ((updated.leaveTo started.freshBlock).enter endBlock true) := by
  intro deeper returns loops locals function callers frame memory serial store deep typed regular
    lasts begins
  rcases deeper with _ | deeper
  · cases deep
  cases typed with
  | forLoop firstTyped testTyped otherFound partTyped updateTyped =>
      rw [found] at otherFound
      cases otherFound
      have preparesOne := (Place.Prepares.refl fit).create "for.cond"
      have prepares := preparesOne.create "for.end"
      have waitsCond := (Place.Waiting.created fit.regular "for.cond").create preparesOne.regular
        "for.end"
      have preparesHead := prepares_createUpdates updates fitEntered
      have regularTested := part.regular fitDone.regular
      have regularLeft := fitUpdated.regular.leaveTo started.freshBlock
      have waitsLeft := waits.leaveTo started.freshBlock
      have lastsLeft := lasts.of_enter regularLeft waitsLeft
      have lastsDone := renews.lasts fitUpdated.regular lastsLeft
      have lastsTested := (lastsDone.of_leaveTo fitDone.regular).of_within regularTested part.within
      have testing := Place.Precedes.of_within preparesHead.regular (tests.within preparesHead.room)
      have lastsEntered := (lastsTested.of_within preparesHead.regular
        (tests.within preparesHead.room)).of_within fitEntered.regular preparesHead.within
      have ending := (renews.precedes fitDone.regular fitUpdated.regular).trans
        (.leaveTo fitUpdated.regular started.freshBlock)
      have heading : started.Precedes (createUpdates updates entered) := by
        refine Place.Precedes.trans ?_ (.of_within fitEntered.regular preparesHead.within)
        rw [enters]
        exact (Place.Precedes.of_within fit.regular prepares.within).trans
          (.enter prepares.regular waitsCond false)
      have splits : evalPart program library call fuel (deeper + 1)
          (.stmt id (.forLoop initial condition updates body)) =
          evalPart program library call fuel (deeper + 1) (.initial initial) >>=
            Flow.andThen (Source.evalLoop id
              (Source.evalForCondition program library call condition)
              (Source.evalStmtWithin program library call fuel (deeper + 1) body)
              (Source.evalEach program library call updates) fuel) := rfl
      rw [splits]
      have lastsStarted : started.Lasts function.body := by
        rw [enters] at lastsEntered
        exact (lastsEntered.of_enter prepares.regular waitsCond).of_within fit.regular
          prepares.within
      refine (firstFollows (deeper + 1) returns loops locals function callers frame memory serial
        store deep firstTyped fit.regular lastsStarted begins).bind fun flow between state flows => ?_
      cases flows with
      | departs departs =>
          have further := ((heading.trans testing).trans (.of_within regularTested part.within)).trans
            (ending.trans (.enter regularLeft waitsLeft true))
          exact (departs.outward (fun _ member => member) (.refl _ _) (Nat.le_refl _) further.temps
            further.edges).follows _
      | @normal _ _ next runs =>
          have begun := begins.later runs
          rcases state with ⟨_, globals, count⟩
          cases runs.frames
          rw [enters] at lastsEntered
          rcases ((begun.runs callers count).prepared prepares).falls begun.hosted prepares.regular
            waitsCond lastsEntered with ⟨step, falls⟩
          rw [← enters] at falls
          have nothing : updateBlock? updates entered = none → updates = [] := by
            unfold updateBlock?
            split
            · intro _
              simpa using ‹updates.isEmpty = true›
            · intro absurd
              cases absurd
          refine Follows.mono ((follows_rounds known found partFollows (by omega : depth ≤ deeper)
            partTyped fitDone.regular regularLeft lastsDone waitsLeft ending
            (heading.trans testing).temps begun.hosted begun.returns ?_ ?_
            (falls.prepared preparesHead) rfl rfl).after (.one step)) fun flow last state flows => ?_
          · intro store state next runs
            exact follows_forCondition linked calls enough tests preparesHead.regular
              preparesHead.room testTyped lastsTested
              ((Place.Precedes.of_within regularTested part.within).trans ending) regularLeft
              waitsLeft begun.hosted heading.temps runs
          · intro store state next leaves
            exact follows_forUpdates linked calls enough renews nothing updateTyped fitDone.regular
              fitUpdated.regular lastsLeft begun.hosted
              ((heading.trans testing).trans (.of_within regularTested part.within)).temps leaves
          · exact flows.outward (fun _ member => List.mem_append_right _ member)
              (fun _ member => List.mem_append_right [] (List.mem_append_right _ member))
              runs.continues first.within.size_le

theorem partFollows_initialDecl {id : StmtId} {node : Stmt}
    (found : program.stmt? id = some node)
    (declaresFollow : PartFollows program final library call fuel depth (.stmt id node) place
      after) :
    PartFollows program final library call fuel (depth + 1) (.initial (.decl id)) place after := by
  intro deeper returns loops locals function callers frame memory serial store deep typed regular
    lasts begins
  rcases deeper with _ | deeper
  · cases deep
  cases typed with
  | initialDecl known partTyped =>
      rw [found] at known
      cases known
      have declaresSame : Part.declares program (.initial (.decl id)) =
          Part.declares program (.stmt id node) := by
        simp [Part.declares, initialDeclares, found]
      have evalSame : evalPart program library call fuel (deeper + 1) (.initial (.decl id)) =
          evalPart program library call fuel deeper (.stmt id node) :=
        evalStmtWithin_succ found
      rw [declaresSame, evalSame]
      exact declaresFollow deeper returns loops locals function callers frame memory serial store
        (by omega) partTyped regular lasts begins

theorem partFollows_initialExprs (linked : Linked program final)
    (calls : CallsFollow program final library call below) (enough : fuel ≤ below + 1)
    {exprs : List ExprId} (computes : LowersEach program final exprs place after) :
    PartFollows program final library call fuel depth (.initial (.exprs exprs)) place after := by
  intro deeper returns loops locals function callers frame memory serial store _ typed regular lasts
    begins
  cases typed with
  | initialExprs typed =>
      refine Follows.bind (follows_each linked calls enough computes typed regular lasts
        begins.hosted begins.stands begins.agrees) fun _ last state holds => ?_
      rcases holds with ⟨next, runs⟩
      exact .pure (.normal runs)

/-! ## All statements -/

/-- The machine follows every part of a program. -/
theorem LowersPart.follows (linked : Linked program final)
    (calls : CallsFollow program final library call below) (enough : fuel ≤ below + 1) {part : Part}
    (lowers : LowersPart program final depth part place after) :
    PartFollows program final library call fuel depth part place after := by
  induction lowers with
  | expr computes => exact partFollows_expr linked calls enough computes
  | nothing | noVars | functionDecl =>
      intro deeper returns loops locals function callers frame memory serial store _ _ _ _ begins
      exact .pure (.normal (begins.runs callers serial))
  | sequence found first rest firstFollows restFollows =>
      exact partFollows_sequence found first rest firstFollows restFollows
  | vars first others othersFollow =>
      exact partFollows_vars linked calls enough first others othersFollow
  | ifThen tests fit creates _ found body fitDone waits bodyFollows =>
      exact partFollows_ifThen linked calls enough tests fit creates found body fitDone waits
        bodyFollows
  | ifThenElse tests fit creates _ _ thenFound elseFound thenPart fitDone waitsElse elsePart fitElse
      waits thenFollows elseFollows =>
      exact partFollows_ifThenElse linked calls enough tests fit creates thenFound elseFound thenPart
        fitDone waitsElse elsePart fitElse waits thenFollows elseFollows
  | whileLoop fit creates _ _ known tests fitTested waitsBody found part fitDone waits partFollows =>
      exact partFollows_whileLoop linked calls enough fit creates known tests fitTested waitsBody
        found part fitDone waits partFollows
  | forLoop first fit _ enters fitEntered known tests found part fitDone renews fitUpdated waits
      firstFollows partFollows =>
      exact partFollows_forLoop linked calls enough first fit enters fitEntered known tests found
        part fitDone renews fitUpdated waits firstFollows partFollows
  | continueLoop _ known => exact partFollows_continueLoop known
  | breakLoop _ known => exact partFollows_breakLoop known
  | returnNothing _ => exact partFollows_returnNothing
  | returnValue computes fit => exact partFollows_returnValue linked calls enough computes fit
  | initialDecl found _ declaresFollow => exact partFollows_initialDecl found declaresFollow
  | initialExprs computes => exact partFollows_initialExprs linked calls enough computes

end Control

end ScriptLowering.Lowering
