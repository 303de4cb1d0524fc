import ScriptLowering.Proofs.ExpressionRuns

/-! # Leaving statements

Where the machine stands when a statement has ended. A statement that ends normally has come to
the place behind it. Any other statement leaves its block: for a block of a loop around it, or for
the caller of the function.
-/

namespace ScriptLowering.Lowering

open Source (Program ExprId StmtId VarId Datum Store Eval Flow Library Follows)
open Code (BlockId Frame Function GlobalId Operand Place State Step Takes Value)

/-! ## Ways to leave -/

/-- The machine is about to go to the block `target`, which an edge leads to at the place `after`. -/
structure Leaves (program : Program) (final : Session) (locals : List VarId) (callers : List Frame)
    (place after : Place) (frame : Frame) (target : BlockId) (store : Store) (state : State)
    (next : Frame) : Prop where
  frames : state.frames = next :: callers
  goes : state.next final.cursor.module = .ok (.goes (state.resume (next.jump target) callers))
  agrees : Matches program final locals after.body.temps.size store next state.globals
  continues : Continues place.body.temps.size frame next
  edge : after.EdgeTo target

/-- The machine is about to hand back `value`. -/
structure Returns (program : Program) (final : Session) (callers : List Frame) (ty : Source.Ty)
    (value : Option Datum) (store : Store) (state : State) : Prop where
  gives : state.next final.cursor.module =
    state.giveBack final.cursor.module (Source.resultValue value) callers
  globals : GlobalsMatch program final store.globals state.globals
  typed : ResultTyped ty value

/-- A statement inside of `loops`, in a function that returns `returns`, has been left. -/
inductive Departs (program : Program) (final : Session) (returns : Source.Ty)
    (loops : List StmtId) (locals : List VarId) (callers : List Frame) (place after : Place)
    (frame : Frame) : Flow → Store → State → Prop
  | broke {target : StmtId} {blocks : LoopBlocks} {store : Store} {state : State} {next : Frame}
      (encloses : target ∈ loops) (known : final.annotations.loopOf target = .ok blocks)
      (leaves : Leaves program final locals callers place after frame blocks.exit store state next) :
      Departs program final returns loops locals callers place after frame (.broke target) store
        state
  | continued {target : StmtId} {blocks : LoopBlocks} {store : Store} {state : State} {next : Frame}
      (encloses : target ∈ loops) (known : final.annotations.loopOf target = .ok blocks)
      (leaves : Leaves program final locals callers place after frame blocks.continueTarget store
        state next) :
      Departs program final returns loops locals callers place after frame (.continued target)
        store state
  | returned {value : Option Datum} {store : Store} {state : State}
      (gives : Returns program final callers returns value store state) :
      Departs program final returns loops locals callers place after frame (.returned value) store
        state

/-- A statement that declares `declared` has ended. -/
inductive Flows (program : Program) (final : Session) (returns : Source.Ty)
    (loops : List StmtId) (locals declared : List VarId) (callers : List Frame)
    (place after : Place) (frame : Frame) : Flow → Store → State → Prop
  | normal {store : Store} {state : State} {next : Frame}
      (runs : Runs program final (declared ++ locals) callers place after frame store state next) :
      Flows program final returns loops locals declared callers place after frame .normal store
        state
  | departs {flow : Flow} {store : Store} {state : State}
      (departs : Departs program final returns loops locals callers place after frame flow store
        state) :
      Flows program final returns loops locals declared callers place after frame flow store state

section Leaving

variable {program : Program} {final : Session} {library : Library} {returns : Source.Ty}
  {loops : List StmtId} {locals fewer declared : List VarId} {callers : List Frame}
  {place middle after last : Place} {frame between next : Frame} {target : BlockId} {flow : Flow}
  {store : Store} {state : State} {function : Function} {memory : GlobalId → Option Value}

theorem Leaves.outward
    (leaves : Leaves program final locals callers middle after between target store state next)
    (less : ∀ id ∈ fewer, id ∈ locals)
    (continues : Continues place.body.temps.size frame between)
    (starts : place.body.temps.size ≤ middle.body.temps.size)
    (grows : after.body.temps.size ≤ last.body.temps.size)
    (edges : ∀ id, after.EdgeTo id → last.EdgeTo id) :
    Leaves program final fewer callers place last frame target store state next where
  frames := leaves.frames
  goes := leaves.goes
  agrees := leaves.agrees.mono less grows
  continues := continues.trans leaves.continues starts
  edge := edges target leaves.edge

theorem Departs.outward
    (departs : Departs program final returns loops locals callers middle after between flow store
      state)
    (less : ∀ id ∈ fewer, id ∈ locals)
    (continues : Continues place.body.temps.size frame between)
    (starts : place.body.temps.size ≤ middle.body.temps.size)
    (grows : after.body.temps.size ≤ last.body.temps.size)
    (edges : ∀ id, after.EdgeTo id → last.EdgeTo id) :
    Departs program final returns loops fewer callers place last frame flow store state := by
  cases departs with
  | broke encloses known leaves =>
      exact .broke encloses known (leaves.outward less continues starts grows edges)
  | continued encloses known leaves =>
      exact .continued encloses known (leaves.outward less continues starts grows edges)
  | returned gives => exact .returned gives

theorem Flows.outward {others : List VarId}
    (flows : Flows program final returns loops locals declared callers middle after between flow
      store state)
    (less : ∀ id ∈ fewer, id ∈ locals) (seen : ∀ id ∈ others ++ fewer, id ∈ declared ++ locals)
    (continues : Continues place.body.temps.size frame between)
    (starts : place.body.temps.size ≤ middle.body.temps.size) :
    Flows program final returns loops fewer others callers place after frame flow store state := by
  cases flows with
  | normal runs =>
      exact .normal {
        frames := runs.frames
        stands := runs.stands
        agrees := runs.agrees.mono seen (Nat.le_refl _)
        continues := continues.trans runs.continues starts }
  | departs departs =>
      exact .departs (departs.outward less continues starts (Nat.le_refl _) fun _ edge => edge)

theorem Departs.follows {fuel : Nat}
    (departs : Departs program final returns loops locals callers place after frame flow store
      state)
    (rest : Eval Flow) :
    Follows final.cursor.module library (flow.andThen rest store) fuel state
      (Flows program final returns loops locals declared callers place after frame) := by
  cases departs with
  | broke encloses known leaves => exact .pure (.departs (.broke encloses known leaves))
  | continued encloses known leaves => exact .pure (.departs (.continued encloses known leaves))
  | returned gives => exact .pure (.departs (.returned gives))

theorem Leaves.step
    (leaves : Leaves program final locals callers place after frame target store state next) :
    Step final.cursor.module (library.surroundings final.cursor.module) state
      (state.resume (next.jump target) callers) :=
  .goes leaves.goes

theorem Matches.tighten {bound more : Nat} {older : Store} {old : Frame}
    {globals : GlobalId → Option Value}
    (agrees : Matches program final locals more store frame memory)
    (before : Matches program final locals bound older old globals) :
    Matches program final locals bound store frame memory where
  globals := agrees.globals
  slots := by
    rcases agrees.slots with ⟨slotOf, holds, distinct⟩
    rcases before.slots with ⟨_, held, _⟩
    refine ⟨slotOf, ?_, distinct⟩
    intro id member
    rcases holds id member with ⟨decl, temp, datum, matched⟩
    rcases held id member with ⟨_, oldTemp, _, oldMatched⟩
    have same := matched.stored
    rw [oldMatched.stored] at same
    cases same
    exact ⟨decl, temp, datum, { matched with below := oldMatched.below }⟩

/-! ## From block to block -/

theorem Runs.leaves
    (runs : Runs program final locals callers place after frame store state next)
    (hosted : Hosted final function next) (lasts : (after.leaveTo target).Lasts function.body) :
    Leaves program final locals callers place (after.leaveTo target) frame target store state
      next where
  frames := runs.frames
  goes := runs.stands.next_jump (Place.lasts_terminate_of_leaveTo runs.stands.live lasts)
    hosted.closed hosted.found runs.frames
  agrees := runs.agrees.mono (fun _ => id) (Place.within_leaveTo 0 after target).size_le
  continues := runs.continues
  edge := Place.edgeTo_leaveTo runs.stands.live target

theorem Runs.jumps
    (runs : Runs program final locals callers place after frame store state next)
    (hosted : Hosted final function next)
    (lasts : (after.ready.terminate (.jump target)).Lasts function.body) :
    Leaves program final locals callers place (after.ready.terminate (.jump target)) frame target
      store state next := by
  rw [runs.stands.ready] at lasts ⊢
  exact {
    frames := runs.frames
    goes := runs.stands.next_jump lasts hosted.closed hosted.found runs.frames
    agrees := runs.agrees.mono (fun _ => id)
      (Place.within_terminate 0 runs.stands.isOpen _).size_le
    continues := runs.continues
    edge := Place.edgeTo_terminate runs.stands.live (by simp [Code.Terminator.successors]) }

theorem Runs.branches {value : Operand} {truth : Bool} {thenBlock elseBlock : BlockId}
    (runs : Runs program final locals callers place after frame store state next)
    (hosted : Hosted final function next)
    (lasts : (after.ready.terminate (.branch value thenBlock elseBlock)).Lasts function.body)
    (tests : next.operand final.cursor.module value = .ok (.bool truth)) :
    Leaves program final locals callers place
      (after.ready.terminate (.branch value thenBlock elseBlock)) frame
      (if truth then thenBlock else elseBlock) store state next := by
  rw [runs.stands.ready] at lasts ⊢
  exact {
    frames := runs.frames
    goes := runs.stands.next_branch lasts hosted.closed hosted.found runs.frames tests
    agrees := runs.agrees.mono (fun _ => id)
      (Place.within_terminate 0 runs.stands.isOpen _).size_le
    continues := runs.continues
    edge := Place.edgeTo_terminate runs.stands.live
      (by cases truth <;> simp [Code.Terminator.successors]) }

theorem Leaves.lands
    (leaves : Leaves program final locals callers place after frame target store state next)
    (regular : after.Regular) {label : String} (waiting : after.Waiting target label)
    (closing : Bool) :
    Runs program final locals callers place (after.enter target closing) frame store
      (state.resume (next.jump target) callers) (next.jump target) where
  frames := rfl
  stands := .enter waiting (leaves.edge.leaveTo regular target) closing rfl rfl
  agrees := (leaves.agrees.jump target).mono (fun _ => id)
    (Place.within_enter after (Nat.zero_le _) closing).size_le
  continues := leaves.continues.trans (.jump _ next target) (Nat.le_refl _)

theorem Leaves.again {head : Place} {first : Frame} {older : Store} {old : State}
    (leaves : Leaves program final locals callers place after frame target store state next)
    (stood : Runs program final locals callers place head frame older old first)
    (block : first.block = target) (index : first.index = 0) :
    Runs program final locals callers place head frame store
      (state.resume (next.jump target) callers) (next.jump target) where
  frames := rfl
  stands := stood.stands.move block.symm index.symm
  agrees := (leaves.agrees.jump target).tighten stood.agrees
  continues := leaves.continues.trans (.jump _ next target) (Nat.le_refl _)

theorem Runs.falls
    (runs : Runs program final locals callers place after frame store state next)
    (hosted : Hosted final function next) (regular : after.Regular) {label : String}
    (waiting : after.Waiting target label) {closing : Bool}
    (lasts : (after.enter target closing).Lasts function.body) :
    Step final.cursor.module (library.surroundings final.cursor.module) state
        (state.resume (next.jump target) callers) ∧
      Runs program final locals callers place (after.enter target closing) frame store
        (state.resume (next.jump target) callers) (next.jump target) := by
  have leaves := runs.leaves hosted (lasts.of_enter_left waiting)
  have lands := leaves.lands (regular.leaveTo target) (waiting.leaveTo target) closing
  exact ⟨leaves.step, lands⟩

/-! ## Ends of loops -/

/-- What has left the body of a loop goes on with the loop, or ends it, or goes further. -/
theorem Departs.fromLoop {id : StmtId} {blocks : LoopBlocks}
    (known : final.annotations.loopOf id = .ok blocks)
    (departs : Departs program final returns (id :: loops) locals callers place after frame flow
      store state) :
    (flow = .continued id ∧ ∃ next, Leaves program final locals callers place after frame
        blocks.continueTarget store state next) ∨
      (flow = .broke id ∧ ∃ next, Leaves program final locals callers place after frame blocks.exit
        store state next) ∨
      (flow.resumes id = false ∧ flow.leaves id = flow ∧
        Departs program final returns loops locals callers place after frame flow store state) := by
  cases departs with
  | @broke target otherBlocks _ _ _ encloses otherKnown leaves =>
      by_cases same : target = id
      · subst same
        rw [known] at otherKnown
        cases otherKnown
        exact .inr (.inl ⟨rfl, _, leaves⟩)
      · exact .inr (.inr ⟨rfl, by simp [Flow.leaves, same],
          .broke (List.mem_of_ne_of_mem same encloses) otherKnown leaves⟩)
  | @continued target otherBlocks _ _ _ encloses otherKnown leaves =>
      by_cases same : target = id
      · subst same
        rw [known] at otherKnown
        cases otherKnown
        exact .inl ⟨rfl, _, leaves⟩
      · exact .inr (.inr ⟨by simp [Flow.resumes, same], rfl,
          .continued (List.mem_of_ne_of_mem same encloses) otherKnown leaves⟩)
  | returned gives => exact .inr (.inr ⟨rfl, rfl, .returned gives⟩)

/-- Where the body of a loop has ended, the loop goes on, or it has ended at `ended`. -/
theorem Flows.endsLoop {id : StmtId} {blocks : LoopBlocks} {begun done ended : Place}
    {endLabel : String} (known : final.annotations.loopOf id = .ok blocks)
    (flows : Flows program final returns (id :: loops) locals declared callers begun done between
      flow store state)
    (hosted : Hosted final function between)
    (lasts : (done.leaveTo blocks.continueTarget).Lasts function.body)
    (continues : Continues place.body.temps.size frame between)
    (starts : place.body.temps.size ≤ begun.body.temps.size)
    (grows : done.body.temps.size ≤ ended.body.temps.size) (regularDone : done.Regular)
    (edges : ∀ target, done.EdgeTo target → ended.EdgeTo target) (regular : ended.Regular)
    (waiting : ended.Waiting blocks.exit endLabel) :
    ∃ count last, Takes final.cursor.module (library.surroundings final.cursor.module) count state
        last ∧
      if flow.resumes id then
        ∃ next, Leaves program final locals callers place (done.leaveTo blocks.continueTarget) frame
          blocks.continueTarget store last next
      else
        Flows program final returns loops locals [] callers place (ended.enter blocks.exit true)
          frame (flow.leaves id) store last := by
  have sizes := (Place.within_leaveTo 0 done blocks.continueTarget).size_le
  have endSizes : ended.body.temps.size ≤ (ended.enter blocks.exit true).body.temps.size :=
    (Place.within_enter ended (Nat.zero_le _) true).size_le
  cases flows with
  | normal runs =>
      have leaves := (runs.leaves (hosted.later runs.continues) lasts).outward
        (fun _ member => List.mem_append_right _ member) continues starts (Nat.le_refl _)
        fun _ edge => edge
      exact ⟨0, state, .none, _, leaves⟩
  | departs departs =>
      rcases departs.fromLoop known with
        ⟨rfl, next, leaves⟩ | ⟨rfl, next, leaves⟩ | ⟨leavesLoop, same, further⟩
      · have back := leaves.outward (fun _ member => member) continues starts sizes
          fun _ edge => edge.leaveTo regularDone _
        refine ⟨0, state, .none, ?_⟩
        simp only [Flow.resumes, decide_true, if_true]
        exact ⟨next, back⟩
      · have out := leaves.outward (fun _ member => member) continues starts grows edges
        refine ⟨1, _, .one out.step, ?_⟩
        simp only [Flow.resumes, Flow.leaves, Bool.false_eq_true, if_false, if_true]
        exact .normal (out.lands regular waiting true)
      · refine ⟨0, state, .none, ?_⟩
        rw [leavesLoop, same, if_neg Bool.false_ne_true]
        exact .departs (further.outward (fun _ member => member) continues starts
          (Nat.le_trans grows endSizes) fun _ edge => (edges _ edge).enter regular waiting true)

end Leaving

/-! ## Loops -/

/-- A loop is followed if its parts are: `head` holds where the condition is tested, `begun` where
the body starts, and `renew` where the body has ended and the loop goes on. -/
theorem follows_loop {module : Code.Module} {library : Library} {id : StmtId}
    {condition : Eval Bool} {body : Eval Flow} {update : Eval Unit} {fuel : Nat}
    {head begun renew : Store → State → Prop} {post : Flow → Store → State → Prop}
    (tests : ∀ store state, head store state →
      Follows module library (condition store) fuel state fun truth last next =>
        if truth then begun last next else post .normal last next)
    (bodies : ∀ store state, begun store state →
      Follows module library (body store) fuel state fun flow last next =>
        if flow.resumes id then renew last next else post (flow.leaves id) last next)
    (renews : ∀ store state, renew store state →
      Follows module library (update store) fuel state fun _ last next =>
        ∃ again, Step module (library.surroundings module) next again ∧ head last again)
    {rounds : Nat} (enough : rounds ≤ fuel) {store : Store} {state : State}
    (starts : head store state) :
    Follows module library (Source.evalLoop id condition body update rounds store) rounds state
      post := by
  induction rounds generalizing store state with
  | zero => exact ⟨0, state, Nat.le_refl _, .none⟩
  | succ rounds induction =>
      refine ((tests store state starts).less enough).bind fun truth between middle tested => ?_
      cases truth with
      | false => exact .pure tested
      | true =>
          refine ((bodies between middle tested).less enough).bind fun flow last next ended => ?_
          cases resumes : flow.resumes id with
          | false =>
              simp only [resumes, Bool.false_eq_true, if_false] at ended ⊢
              exact .pure ended
          | true =>
              simp only [resumes, if_true] at ended ⊢
              refine ((renews last next ended).less enough).bind fun _ newest later again => ?_
              rcases again with ⟨first, step, holds⟩
              exact (induction (by omega) holds).before (.one step)

end ScriptLowering.Lowering
