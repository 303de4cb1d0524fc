import ScriptLowering.Proofs.LoopExits
import ScriptLowering.Proofs.TandemBuilding

/-! # Dead ends

Behind a part that cannot end normally no code is added that can run, and where nothing can run from
the beginning, nothing becomes part of the code. This is read off the way in which lowering takes one
place to the next. Control is sent on only to blocks that the part creates itself, and to the blocks
of loops that it may leave or continue.
-/

namespace ScriptLowering.Code.Place

/-! ## Where control is sent -/

/-- Control gets where it got before, and it matters only where it gets what code is added. -/
structure Calm (place next : Place) : Prop where
  numbers : place.body.nextBlock.toNat ≤ next.body.nextBlock.toNat
  edges : ∀ id, next.EdgeTo id ↔ place.EdgeTo id
  live : next.isLive = place.isLive
  frozen : place.isLive = false → place.SameCode next

section Calm

variable {place middle next : Place}

theorem Calm.refl (place : Place) : place.Calm place :=
  ⟨Nat.le_refl _, fun _ => .rfl, rfl, fun _ => .refl place⟩

theorem Calm.trans (first : place.Calm middle) (second : middle.Calm next) : place.Calm next where
  numbers := Nat.le_trans first.numbers second.numbers
  edges := fun id => (second.edges id).trans (first.edges id)
  live := second.live.trans first.live
  frozen := fun dead => (first.frozen dead).trans (second.frozen (first.live.trans dead))

theorem calm_of_rests (rests : place.body.Rests next.body) (live : next.isLive = place.isLive) :
    place.Calm next :=
  have same : place.SameCode next := ⟨rests.layout, rests.blocks⟩
  ⟨rests.numbers, same.edgeTo_iff, live, fun _ => same⟩

theorem calm_create (regular : place.Regular) {count : Nat} (room : place.Room (count + 1))
    (label : String) : place.Calm (place.create label) :=
  calm_of_rests (rests_create regular room label) (isLive_create regular label)

theorem calm_ready (regular : place.Regular) {count : Nat} (room : place.Room (count + 1)) :
    place.Calm place.ready :=
  calm_of_rests (rests_ready regular room) (isLive_ready regular)

theorem calm_add (isOpen : place.isOpen = true) (instruction : Instruction) :
    place.Calm (place.add instruction) where
  numbers := Nat.le_of_eq (by rw [add, nextBlock_change])
  edges := by
    rcases exists_of_isOpen isOpen with ⟨here, _, stands, _⟩
    refine edgeTo_iff_of_terminators (layout_change _ _) fun id _ => ?_
    rw [add, block?_change stands]
    split
    · cases place.body.block? id <;> rfl
    · rfl
  live := isLive_add isOpen instruction
  frozen := by
    intro dead
    have rests := rests_change isOpen dead fun block => block.addInstruction instruction
    exact ⟨rests.layout, rests.blocks⟩

theorem calm_define (isOpen : place.isOpen = true) (ty : Ty) (make : Operand → Instruction) :
    place.Calm (place.define ty make) :=
  (calm_of_rests (rests_takeTemp place ty) rfl).trans
    (calm_add ((Cursor.isOpen_takeTemp place ty).trans isOpen) _)

theorem calm_readyAdd (regular : place.Regular) {count : Nat} (room : place.Room (count + 1))
    (instruction : Instruction) : place.Calm (place.ready.add instruction) :=
  (calm_ready regular room).trans (calm_add (Lowering.isOpen_ready place) _)

theorem calm_readyDefine (regular : place.Regular) {count : Nat} (room : place.Room (count + 1))
    (ty : Ty) (make : Operand → Instruction) : place.Calm (place.ready.define ty make) :=
  (calm_ready regular room).trans (calm_define (Lowering.isOpen_ready place) _ _)

end Calm

theorem nextBlock_leaveTo (place : Place) (target : BlockId) :
    (place.leaveTo target).body.nextBlock = place.body.nextBlock := by
  unfold leaveTo
  split
  · exact nextBlock_change _ _
  · rfl

theorem nextBlock_enter (place : Place) (id : BlockId) (closing : Bool) :
    (place.enter id closing).body.nextBlock = place.body.nextBlock := by
  rw [← nextBlock_leaveTo place id]
  simp only [enter]
  split
  · cases closing <;> rfl
  · rfl

/-- What has become of `base`: control has been sent on to some of the blocks `sends`, unless it did
not get to `base` at all. -/
structure Routes (base : Place) (sends : BlockId → Prop) (place : Place) : Prop where
  bounded : ∀ id, base.EdgeTo id → id.number.toNat < base.body.nextBlock.toNat
  numbers : base.body.nextBlock.toNat ≤ place.body.nextBlock.toNat
  targets : ∀ id, place.EdgeTo id → id.number.toNat < place.body.nextBlock.toNat
  edges : ∀ id, place.EdgeTo id → base.EdgeTo id ∨ base.isLive = true ∧ sends id
  frozen : base.isLive = false → place.isLive = false ∧ base.SameCode place

namespace Routes

variable {base place next : Place} {sends others : BlockId → Prop} {id : BlockId} {label : String}

theorem start (bounded : ∀ id, base.EdgeTo id → id.number.toNat < base.body.nextBlock.toNat) :
    Routes base (fun _ => False) base :=
  ⟨bounded, Nat.le_refl _, bounded, fun _ => .inl, fun dead => ⟨dead, .refl base⟩⟩

theorem live (routes : Routes base sends place) (live : place.isLive = true) :
    base.isLive = true := by
  by_contra dead
  rw [(routes.frozen (Bool.eq_false_of_not_eq_true dead)).1] at live
  cases live

theorem mono (routes : Routes base sends place)
    (within : base.isLive = true → ∀ id, sends id → others id) : Routes base others place :=
  { routes with
    edges := fun id edge => (routes.edges id edge).imp_right fun sent =>
      ⟨sent.1, within sent.1 id sent.2⟩ }

theorem restrict (routes : Routes base sends place) :
    Routes base (fun id => sends id ∧ id.number.toNat < place.body.nextBlock.toNat) place :=
  { routes with
    edges := fun id edge => (routes.edges id edge).imp_right fun sent =>
      ⟨sent.1, sent.2, routes.targets id edge⟩ }

theorem calm (routes : Routes base sends place) (calm : place.Calm next) :
    Routes base sends next where
  bounded := routes.bounded
  numbers := Nat.le_trans routes.numbers calm.numbers
  targets := fun id edge =>
    Nat.lt_of_lt_of_le (routes.targets id ((calm.edges id).mp edge)) calm.numbers
  edges := fun id edge => routes.edges id ((calm.edges id).mp edge)
  frozen := by
    intro dead
    rcases routes.frozen dead with ⟨stays, same⟩
    exact ⟨calm.live.trans stays, same.trans (calm.frozen stays)⟩

theorem andThen (routes : Routes base sends place) (more : Routes place others next)
    (covers : place.isLive = true → ∀ id, others id → sends id) : Routes base sends next where
  bounded := routes.bounded
  numbers := Nat.le_trans routes.numbers more.numbers
  targets := more.targets
  edges := by
    intro id edge
    rcases more.edges id edge with old | ⟨alive, sent⟩
    · exact routes.edges id old
    · exact .inr ⟨routes.live alive, covers alive id sent⟩
  frozen := by
    intro dead
    rcases routes.frozen dead with ⟨stays, same⟩
    rcases more.frozen stays with ⟨last, sameOn⟩
    exact ⟨last, same.trans sameOn⟩

theorem terminate (routes : Routes base sends place) (isOpen : place.isOpen = true)
    {terminator : Terminator} (finished : terminator.isFinished = true)
    (near : place.isLive = true → ∀ id ∈ terminator.successors,
      sends id ∧ id.number.toNat < place.body.nextBlock.toNat) :
    Routes base sends (place.terminate terminator) where
  bounded := routes.bounded
  numbers := by
    rw [Place.terminate, nextBlock_change]
    exact routes.numbers
  targets := by
    intro id edge
    rw [Place.terminate, nextBlock_change]
    rcases (edgeTo_terminate_iff isOpen terminator id).mp edge with old | ⟨alive, leads⟩
    · exact routes.targets id old
    · exact (near alive id leads).2
  edges := by
    intro id edge
    rcases (edgeTo_terminate_iff isOpen terminator id).mp edge with old | ⟨alive, leads⟩
    · exact routes.edges id old
    · exact .inr ⟨routes.live alive, (near alive id leads).1⟩
  frozen := by
    intro dead
    rcases routes.frozen dead with ⟨stays, same⟩
    have rests := rests_change isOpen stays fun block => block.setTerminator terminator
    exact ⟨isLive_terminate isOpen finished, same.trans ⟨rests.layout, rests.blocks⟩⟩

theorem readyTerminate (routes : Routes base sends place) (regular : place.Regular) {count : Nat}
    (room : place.Room (count + 1)) {terminator : Terminator}
    (finished : terminator.isFinished = true)
    (near : place.isLive = true → ∀ id ∈ terminator.successors,
      sends id ∧ id.number.toNat < place.body.nextBlock.toNat) :
    Routes base sends (place.ready.terminate terminator) := by
  have ready := calm_ready regular room
  refine (routes.calm ready).terminate (Lowering.isOpen_ready place) finished
    fun alive id leads => ?_
  rcases near (ready.live ▸ alive) id leads with ⟨sent, below⟩
  exact ⟨sent, Nat.lt_of_lt_of_le below ready.numbers⟩

theorem leaveTo (routes : Routes base sends place)
    (near : place.isLive = true → sends id ∧ id.number.toNat < place.body.nextBlock.toNat) :
    Routes base sends (place.leaveTo id) := by
  have moved : ∀ {before : Place}, Routes base sends before → before.isLive = false →
      Routes base sends ⟨before.body, none⟩ := by
    intro before routes dead
    exact routes.calm (calm_of_rests (.refl _) dead.symm)
  unfold Place.leaveTo
  cases isOpen : place.isOpen with
  | true =>
      refine moved (routes.terminate isOpen rfl fun alive other leads => ?_)
        (isLive_terminate isOpen rfl)
      exact List.mem_singleton.mp leads ▸ near alive
  | false => exact moved routes (isLive_of_not_isOpen isOpen)

/-- Entering a block that has been created since. -/
theorem enter (routes : Routes base sends place) (waiting : place.Waiting id label)
    (regular : place.Regular) (new : base.body.nextBlock.toNat ≤ id.number.toNat)
    (covered : place.isLive = true → sends id) (closing : Bool) :
    Routes base sends (place.enter id closing) ∧
      ((place.enter id closing).isLive = true → sends id) := by
  have left := routes.leaveTo fun alive => ⟨covered alive, waiting.number_lt regular⟩
  have leftWaiting := waiting.leaveTo id
  by_cases reached : (place.leaveTo id).EdgeTo id
  · rcases left.edges id reached with old | ⟨alive, sent⟩
    · exact absurd (routes.bounded id old) (Nat.not_lt_of_le new)
    rw [enter_of_edge reached]
    have edges : ∀ other, ((place.leaveTo id).layOut id).EdgeTo other →
        (place.leaveTo id).EdgeTo other := by
      rintro other ⟨source, member, block, found, leads⟩
      rcases List.mem_append.mp member with old | last
      · exact ⟨source, old, block, found, leads⟩
      · rw [List.mem_singleton] at last
        subst last
        cases leftWaiting.found.symm.trans found
        cases leads
    exact ⟨{ left with
      targets := fun other edge => left.targets other (edges other edge)
      edges := fun other edge => left.edges other (edges other edge)
      frozen := fun dead => by rw [alive] at dead; cases dead }, fun _ => sent⟩
  · rcases rests_enter waiting.missing reached closing with ⟨rests, dead⟩
    refine ⟨left.calm (calm_of_rests rests dead), fun alive => ?_⟩
    rw [dead] at alive
    cases alive

end Routes

end ScriptLowering.Code.Place

namespace ScriptLowering.Lowering

open Source (Program ExprId ExprNode ForInit Stmt StmtId VarId)
open Code (BlockId Operand Place)

variable {program : Program} {final : Session} {place after : Place}

/-! ## Expressions and variables -/

theorem Emits.calm {node : ExprNode} {values : List Operand} {value : Option Operand}
    (emits : Emits program final node values place value after) (fit : place.Fit) :
    place.Calm after := by
  have defines : ∀ (ty : Code.Ty) (make : Operand → Code.Instruction),
      place.Calm (place.ready.define ty make) := Place.calm_readyDefine fit.regular fit.room
  cases emits with
  | booleanLiteral | integerLiteral => exact .refl place
  | stringLiteral | identifier | callValue | negate | arith | compare | concat =>
      exact defines _ _
  | callNothing | assign => exact Place.calm_readyAdd fit.regular fit.room _
  | compareStrings _ _ compares =>
      subst compares
      refine (defines _ _).trans (Place.calm_readyDefine ?_ (fit.room.ready.define _ _) _ _)
      exact (fit.regular.ready fit.room).define (isOpen_ready place) fit.room.ready fun _ => rfl

theorem LowersValues.calm {depth : Nat} {ids : List ExprId} {values : List Operand}
    (lowers : LowersValues program final depth ids place values after) : place.Calm after := by
  induction lowers with
  | nil => exact .refl _
  | cons _ _ fit emits _ computes rest => exact (computes.trans (emits.calm fit)).trans rest

theorem LowersExpr.calm {id : ExprId} {value : Option Operand}
    (lowers : LowersExpr program final id place value after) : place.Calm after := by
  cases lowers with
  | intro _ computes fit emits => exact computes.calm.trans (emits.calm fit)

theorem LowersEach.calm {ids : List ExprId} (lowers : LowersEach program final ids place after) :
    place.Calm after := by
  induction lowers with
  | nil => exact .refl _
  | cons computes _ rest => exact computes.calm.trans rest

theorem LowersInitial.calm {initial : Option ExprId} {value : Option Operand}
    (lowers : LowersInitial program final initial place value after) : place.Calm after := by
  cases lowers with
  | none => exact .refl _
  | some computes => exact computes.calm

theorem LowersVar.calm {id : VarId} (lowers : LowersVar program final id place after) :
    place.Calm after := by
  cases lowers with
  | stored _ _ _ computes fit =>
      exact computes.calm.trans (Place.calm_readyAdd fit.regular fit.room _)
  | kept _ _ _ computes => exact computes.calm
  | empty _ _ _ fit => exact Place.calm_readyDefine fit.regular fit.room _ _
  | filled _ _ _ _ computes fit reserves =>
      subst reserves
      refine (computes.calm.trans (Place.calm_readyDefine fit.regular fit.room _ _)).trans
        (Place.calm_readyAdd ?_ (fit.room.ready.define _ _) _)
      exact (fit.regular.ready fit.room).define (isOpen_ready _) fit.room.ready fun _ => rfl

/-! ## Parts -/

def Session.loopBlocks (session : Session) (id : StmtId) : LoopBlocks :=
  match session.annotations.loopOf id with
  | .ok blocks => blocks
  | .error _ => ⟨⟨0⟩, none, ⟨0⟩⟩

theorem Session.loopBlocks_eq {session : Session} {id : StmtId} {blocks : LoopBlocks}
    (known : session.annotations.loopOf id = .ok blocks) : session.loopBlocks id = blocks := by
  simp only [Session.loopBlocks, known]

theorem Jumps.imp {loops : StmtId → LoopBlocks} {first second : Exit → Prop} {block : BlockId}
    (jumps : Jumps loops first block)
    (within : ∀ exit, exit ≠ .normal → first exit → second exit) : Jumps loops second block := by
  rcases jumps with ⟨exit, leaves, goes⟩
  refine ⟨exit, within exit ?_ leaves, goes⟩
  rintro rfl
  cases goes

theorem Jumps.ofLoop {loops : StmtId → LoopBlocks} {ends : Exit → Prop} {block : BlockId}
    (jumps : Jumps loops ends block) (id : StmtId) :
    block = (loops id).exit ∧ ends (.broke id) ∨ block = (loops id).continueTarget ∨
      Jumps loops (fun exit => ends exit ∧ exit.Passes id) block := by
  rcases jumps with ⟨exit, leaves, goes⟩
  by_cases broke : exit = .broke id
  · subst broke
    exact .inl ⟨(Option.some.inj goes).symm, leaves⟩
  by_cases continued : exit = .continued id
  · subst continued
    exact .inr (.inl (Option.some.inj goes).symm)
  refine .inr (.inr ⟨exit, ⟨leaves, ?_, broke, continued⟩, goes⟩)
  rintro rfl
  cases goes

/-- All edges, and all that the part may add behind a live place, lead to blocks that have been
created. -/
structure Near (program : Program) (final : Session) (part : Part) (place : Place) : Prop where
  bounded : ∀ id, place.EdgeTo id → id.number.toNat < place.body.nextBlock.toNat
  jumps : place.isLive = true → ∀ id, Jumps final.loopBlocks (Ends program part) id →
    id.number.toNat < place.body.nextBlock.toNat

/-- Control leaves the part for its own blocks and for those of the loops that it may leave or
continue, and gets behind the part only if the part can end normally. -/
structure Routed (program : Program) (final : Session) (part : Part) (place after : Place) :
    Prop where
  routes : Place.Routes place (fun id => Jumps final.loopBlocks (Ends program part) id ∨
    place.body.nextBlock.toNat ≤ id.number.toNat) after
  ends : after.isLive = true → Ends program part .normal

/-- Control is sent to the block by an exit of the part, or the block has been created since the part
was begun. It is sent to `join`, the block behind the part, only if the part can end normally. -/
structure Joins (program : Program) (final : Session) (part : Part) (place : Place)
    (join id : BlockId) : Prop where
  reach : Jumps final.loopBlocks (Ends program part) id ∨
    place.body.nextBlock.toNat ≤ id.number.toNat
  normal : id = join → Ends program part .normal

theorem waiting_readyTerminate {id : BlockId} {label : String} {count : Nat}
    (waiting : place.Waiting id label) (regular : place.Regular) (room : place.Room (count + 1))
    (terminator : Code.Terminator) : (place.ready.terminate terminator).Waiting id label := by
  rw [Nat.add_comm] at room
  exact waiting.within ((SafeOperation.terminate terminator).within place count room)
    (waiting.number_lt regular)

theorem regular_readyTerminate {count : Nat} (regular : place.Regular)
    (room : place.Room (count + 1)) (terminator : Code.Terminator) :
    (place.ready.terminate terminator).Regular :=
  (regular.ready room).terminate (isOpen_ready place) terminator

theorem routes_branch {sends : BlockId → Prop} {label : String} {base : Place} {first second : BlockId}
    (routes : Place.Routes base sends place) (value : Operand) (waits : place.Waiting first label)
    (regular : place.Regular) {count : Nat} (room : place.Room (count + 1))
    (new : base.body.nextBlock.toNat ≤ first.number.toNat) (toFirst : sends first)
    (toSecond : place.isLive = true → sends second)
    (below : second.number.toNat < place.body.nextBlock.toNat) :
    Place.Routes base sends
        ((place.ready.terminate (.branch value first second)).enter first false) ∧
      place.body.nextBlock.toNat ≤
        ((place.ready.terminate (.branch value first second)).enter first false).body.nextBlock.toNat
      := by
  have branched : Place.Routes base sends (place.ready.terminate (.branch value first second)) := by
    refine routes.readyTerminate regular room rfl fun alive other leads => ?_
    rcases List.mem_pair.mp leads with rfl | rfl
    · exact ⟨toFirst, waits.number_lt regular⟩
    · exact ⟨toSecond alive, below⟩
  refine ⟨(branched.enter (waiting_readyTerminate waits regular room _)
    (regular_readyTerminate regular room _) new (fun _ => toFirst) false).1, ?_⟩
  rw [Place.nextBlock_enter, Place.terminate, Place.nextBlock_change]
  exact (Place.calm_ready regular room).numbers

section Parts

variable {part child : Part} {middle done : Place} {sends : BlockId → Prop} {join id : BlockId}

theorem Near.routed_of_calm (near : Near program final part place) (calm : place.Calm after)
    (ends : Ends program part .normal) : Routed program final part place after where
  routes := ((Place.Routes.start near.bounded).calm calm).mono fun _ _ absurd => absurd.elim
  ends := fun _ => ends

theorem routes_child (routes : Place.Routes place sends middle)
    (covers : middle.isLive = true → ∀ id, Jumps final.loopBlocks (Ends program child) id →
      sends id ∧ id.number.toNat < middle.body.nextBlock.toNat)
    (fresh : ∀ id : BlockId, middle.body.nextBlock.toNat ≤ id.number.toNat → sends id)
    (lowers : Near program final child middle → Routed program final child middle done) :
    Place.Routes place sends done ∧ (done.isLive = true → Ends program child .normal) := by
  have routed := lowers ⟨routes.targets, fun alive id jumps => (covers alive id jumps).2⟩
  refine ⟨routes.andThen routed.routes fun alive id sent => ?_, routed.ends⟩
  rcases sent with jumps | new
  · exact (covers alive id jumps).1
  · exact fresh id new

section Joining

variable (near : Near program final part place)
  (joined : place.body.nextBlock.toNat ≤ join.number.toNat)

include joined

theorem Near.joins (near : Near program final part place) (live : place.isLive = true)
    (jumps : Jumps final.loopBlocks (Ends program part) id) :
    Joins program final part place join id ∧ id.number.toNat < place.body.nextBlock.toNat := by
  have old := near.jumps live id jumps
  refine ⟨⟨.inl jumps, ?_⟩, old⟩
  rintro rfl
  exact absurd joined (Nat.not_le_of_lt old)

variable (routes : Place.Routes place (Joins program final part place join) middle)

include routes

theorem Near.covers (near : Near program final part place)
    (within : middle.isLive = true → ∀ exit, exit ≠ .normal → Ends program child exit →
      Ends program part exit) (live : middle.isLive = true) (id : BlockId)
    (jumps : Jumps final.loopBlocks (Ends program child) id) :
    Joins program final part place join id ∧ id.number.toNat < middle.body.nextBlock.toNat := by
  rcases near.joins joined (routes.live live) (jumps.imp (within live)) with ⟨sent, old⟩
  exact ⟨sent, Nat.lt_of_lt_of_le old routes.numbers⟩

theorem Near.covers_loop {loop : StmtId} (near : Near program final part place)
    (exits : (final.loopBlocks loop).exit = join)
    (broke : middle.isLive = true → Ends program child (.broke loop) → Ends program part .normal)
    (passes : middle.isLive = true → ∀ exit, Ends program child exit → exit.Passes loop →
      Ends program part exit)
    (below : join.number.toNat < middle.body.nextBlock.toNat)
    (continues : Joins program final part place join (final.loopBlocks loop).continueTarget ∧
      (final.loopBlocks loop).continueTarget.number.toNat < middle.body.nextBlock.toNat)
    (live : middle.isLive = true) (id : BlockId)
    (jumps : Jumps final.loopBlocks (Ends program child) id) :
    Joins program final part place join id ∧ id.number.toNat < middle.body.nextBlock.toNat := by
  rcases jumps.ofLoop loop with ⟨rfl, leaves⟩ | rfl | leaves
  · rw [exits]
    exact ⟨⟨.inr joined, fun _ => broke live leaves⟩, below⟩
  · exact continues
  · rcases near.joins joined (routes.live live)
      (leaves.imp fun exit _ both => passes live exit both.1 both.2) with ⟨sent, old⟩
    exact ⟨sent, Nat.lt_of_lt_of_le old routes.numbers⟩

theorem routed_join {target : BlockId} {label : String} (waits : middle.Waiting join label)
    (regular : middle.Regular) (leaves : middle.isLive = true →
      Joins program final part place join target ∧
        target.number.toNat < middle.body.nextBlock.toNat) :
    Routed program final part place ((middle.leaveTo target).enter join true) := by
  rcases (routes.leaveTo leaves).enter (waits.leaveTo target) (regular.leaveTo target) joined
    (fun alive => by cases alive) true with ⟨entered, sent⟩
  exact ⟨entered.mono fun _ _ sent => sent.reach, fun alive => (sent alive).normal rfl⟩

end Joining

theorem ne_of_number_lt {first second : BlockId}
    (less : first.number.toNat < second.number.toNat) : first ≠ second := by
  rintro rfl
  exact Nat.lt_irrefl _ less

/-! ### Branches -/

section Branches

variable {id thenBody : StmtId} {condition : ExprId} {value : Operand} {tested created : Place}
  {endBlock : BlockId}

theorem routed_ifThen {node : Stmt}
    (near : Near program final (.stmt id (.ifThenElse condition thenBody none)) place)
    (tests : LowersExpr program final condition place (some value) tested) (fit : tested.Fit)
    (creates : created = (tested.create "if.then").create "if.end")
    (ends : endBlock = (tested.create "if.then").freshBlock)
    (found : program.stmt? thenBody = some node)
    (body : Near program final (.stmt thenBody node)
        ((created.ready.terminate (.branch value tested.freshBlock endBlock)).enter
          tested.freshBlock false) →
      Routed program final (.stmt thenBody node)
        ((created.ready.terminate (.branch value tested.freshBlock endBlock)).enter
          tested.freshBlock false) done)
    (fitDone : done.Fit) (waits : done.Waiting endBlock "if.end") :
    Routed program final (.stmt id (.ifThenElse condition thenBody none)) place
      ((done.leaveTo endBlock).enter endBlock true) := by
  subst creates
  have first := fit.regular.create fit.room "if.then"
  have second := first.create (fit.room.create "if.then") "if.end"
  have old := tests.calm.numbers
  have one := Place.toNat_nextBlock_create fit.room "if.then"
  have two := Place.toNat_nextBlock_create (fit.room.create "if.then") "if.end"
  have thenNumber : tested.freshBlock.number.toNat = tested.body.nextBlock.toNat := rfl
  have endNumber : endBlock.number.toNat = (tested.create "if.then").body.nextBlock.toNat := by
    rw [ends]
    rfl
  have joins : ∀ other : BlockId, place.body.nextBlock.toNat ≤ other.number.toNat →
      Joins program final (.stmt id (.ifThenElse condition thenBody none)) place endBlock other :=
    fun _ new => ⟨.inr new, fun _ => .noElse⟩
  have opened := (((Place.Routes.start near.bounded).calm tests.calm).calm
    (Place.calm_create fit.regular fit.room "if.then")).calm
    (Place.calm_create first (fit.room.create "if.then") "if.end")
  rcases routes_branch (opened.mono fun _ _ absurd => absurd.elim) value
    ((Place.Waiting.created fit.regular "if.then").create first "if.end") second
    ((fit.room.create "if.then").create "if.end") (by omega) (joins _ (by omega))
    (fun _ => joins endBlock (by omega)) (by omega) with ⟨entered, later⟩
  rcases routes_child entered (near.covers (by omega) entered fun _ exit _ leaves =>
    .thenBody found leaves) (fun other new => joins other (by omega)) body with ⟨filled, _⟩
  exact routed_join (by omega) filled waits fitDone.regular fun _ =>
    ⟨joins endBlock (by omega), waits.number_lt fitDone.regular⟩

theorem routed_ifThenElse {elseBody : StmtId} {thenNode elseNode : Stmt} {elseDone : Place}
    {elseBlock : BlockId}
    (near : Near program final (.stmt id (.ifThenElse condition thenBody (some elseBody))) place)
    (tests : LowersExpr program final condition place (some value) tested) (fit : tested.Fit)
    (creates : created = ((tested.create "if.then").create "if.end").create "if.else")
    (ends : endBlock = (tested.create "if.then").freshBlock)
    (elses : elseBlock = ((tested.create "if.then").create "if.end").freshBlock)
    (thenFound : program.stmt? thenBody = some thenNode)
    (elseFound : program.stmt? elseBody = some elseNode)
    (thenPart : Near program final (.stmt thenBody thenNode)
        ((created.ready.terminate (.branch value tested.freshBlock elseBlock)).enter
          tested.freshBlock false) →
      Routed program final (.stmt thenBody thenNode)
        ((created.ready.terminate (.branch value tested.freshBlock elseBlock)).enter
          tested.freshBlock false) done)
    (fitDone : done.Fit) (waitsElse : done.Waiting elseBlock "if.else")
    (elsePart : Near program final (.stmt elseBody elseNode)
        ((done.leaveTo endBlock).enter elseBlock false) →
      Routed program final (.stmt elseBody elseNode)
        ((done.leaveTo endBlock).enter elseBlock false) elseDone)
    (fitElse : elseDone.Fit) (waits : elseDone.Waiting endBlock "if.end") :
    Routed program final (.stmt id (.ifThenElse condition thenBody (some elseBody))) place
      ((elseDone.leaveTo endBlock).enter endBlock true) := by
  subst creates
  have first := fit.regular.create fit.room "if.then"
  have second := first.create (fit.room.create "if.then") "if.end"
  have roomSecond := (fit.room.create "if.then").create "if.end"
  have third := second.create roomSecond "if.else"
  have old := tests.calm.numbers
  have one := Place.toNat_nextBlock_create fit.room "if.then"
  have two := Place.toNat_nextBlock_create (fit.room.create "if.then") "if.end"
  have three := Place.toNat_nextBlock_create roomSecond "if.else"
  have thenNumber : tested.freshBlock.number.toNat = tested.body.nextBlock.toNat := rfl
  have endNumber : endBlock.number.toNat = (tested.create "if.then").body.nextBlock.toNat := by
    rw [ends]
    rfl
  have elseNumber : elseBlock.number.toNat =
      ((tested.create "if.then").create "if.end").body.nextBlock.toNat := by
    rw [elses]
    rfl
  have opened := ((((Place.Routes.start near.bounded).calm tests.calm).calm
    (Place.calm_create fit.regular fit.room "if.then")).calm
    (Place.calm_create first (fit.room.create "if.then") "if.end")).calm
    (Place.calm_create second roomSecond "if.else")
  have joins : ∀ other : BlockId, place.body.nextBlock.toNat ≤ other.number.toNat →
      other ≠ endBlock → Joins program final (.stmt id (.ifThenElse condition thenBody elseBody))
        place endBlock other := fun _ new apart => ⟨.inr new, fun same => absurd same apart⟩
  rcases routes_branch (opened.mono fun _ _ absurd => absurd.elim) value
    (((Place.Waiting.created fit.regular "if.then").create first "if.end").create second "if.else")
    third (roomSecond.create "if.else") (by omega)
    (joins _ (by omega) (ne_of_number_lt (by omega)))
    (fun _ => joins elseBlock (by omega) (ne_of_number_lt (by omega)).symm) (by omega) with ⟨entered, later⟩
  rcases routes_child entered (near.covers (by omega) entered fun _ exit _ leaves =>
      .thenBody thenFound leaves)
    (fun other new => joins other (by omega) (ne_of_number_lt (by omega)).symm) thenPart with
    ⟨filled, thenEnds⟩
  have below := waitsElse.number_lt fitDone.regular
  have left := filled.leaveTo fun alive => ⟨⟨.inr (show _ ≤ endBlock.number.toNat by omega),
    fun _ => .thenBody thenFound (thenEnds alive)⟩, by omega⟩
  have switched := (left.enter (waitsElse.leaveTo endBlock) (fitDone.regular.leaveTo endBlock)
    (by omega) (fun alive => by cases alive) false).1
  have numbers : ((done.leaveTo endBlock).enter elseBlock false).body.nextBlock =
      done.body.nextBlock := by
    rw [Place.nextBlock_enter, Place.nextBlock_leaveTo]
  rw [← numbers] at below
  rcases routes_child switched (near.covers (by omega) switched fun _ exit _ leaves =>
      .elseBody elseFound leaves)
    (fun other new => joins other (by omega) (ne_of_number_lt (by omega)).symm) elsePart with
    ⟨finished, elseEnds⟩
  exact routed_join (by omega) finished waits fitElse.regular fun alive =>
    ⟨⟨.inr (by omega), fun _ => .elseBody elseFound (elseEnds alive)⟩,
      waits.number_lt fitElse.regular⟩

end Branches

/-! ### Loops -/

section Loops

variable {id bodyStmt : StmtId} {node : Stmt} {endBlock : BlockId} {created tested : Place}

theorem routed_while {condition : ExprId} {value : Operand} {bodyBlock : BlockId}
    (near : Near program final (.stmt id (.whileLoop condition bodyStmt)) place) (fit : place.Fit)
    (creates : created = ((place.create "while.cond").create "while.body").create "while.end")
    (bodies : bodyBlock = (place.create "while.cond").freshBlock)
    (ends : endBlock = ((place.create "while.cond").create "while.body").freshBlock)
    (known : final.annotations.loopOf id = .ok ⟨place.freshBlock, none, endBlock⟩)
    (tests : LowersExpr program final condition (created.enter place.freshBlock false)
      (some value) tested)
    (fitTested : tested.Fit) (waitsBody : tested.Waiting bodyBlock "while.body")
    (found : program.stmt? bodyStmt = some node)
    (body : Near program final (.stmt bodyStmt node)
        ((tested.ready.terminate (.branch value bodyBlock endBlock)).enter bodyBlock false) →
      Routed program final (.stmt bodyStmt node)
        ((tested.ready.terminate (.branch value bodyBlock endBlock)).enter bodyBlock false) done)
    (fitDone : done.Fit) (waits : done.Waiting endBlock "while.end") :
    Routed program final (.stmt id (.whileLoop condition bodyStmt)) place
      ((done.leaveTo place.freshBlock).enter endBlock true) := by
  subst creates
  have roomFirst := fit.room.create "while.cond"
  have first := fit.regular.create fit.room "while.cond"
  have second := first.create roomFirst "while.body"
  have roomSecond := roomFirst.create "while.body"
  have third := second.create roomSecond "while.end"
  have one := Place.toNat_nextBlock_create fit.room "while.cond"
  have two := Place.toNat_nextBlock_create roomFirst "while.body"
  have three := Place.toNat_nextBlock_create roomSecond "while.end"
  have condNumber : place.freshBlock.number.toNat = place.body.nextBlock.toNat := rfl
  have bodyNumber : bodyBlock.number.toNat = (place.create "while.cond").body.nextBlock.toNat := by
    rw [bodies]
    rfl
  have endNumber : endBlock.number.toNat =
      ((place.create "while.cond").create "while.body").body.nextBlock.toNat := by
    rw [ends]
    rfl
  have joins : ∀ other : BlockId, place.body.nextBlock.toNat ≤ other.number.toNat →
      Joins program final (.stmt id (.whileLoop condition bodyStmt)) place endBlock other :=
    fun _ new => ⟨.inr new, fun _ => .whileFails⟩
  have opened := (((Place.Routes.start near.bounded).calm
    (Place.calm_create fit.regular fit.room "while.cond")).calm
    (Place.calm_create first roomFirst "while.body")).calm
    (Place.calm_create second roomSecond "while.end")
  have entered := ((opened.mono fun _ _ absurd => absurd.elim).enter
    (((Place.Waiting.created fit.regular "while.cond").create first "while.body").create second
      "while.end") third (Nat.le_refl _) (fun _ => joins _ (Nat.le_refl _)) false).1
  have later := tests.calm.numbers
  rw [Place.nextBlock_enter] at later
  rcases routes_branch (entered.calm tests.calm) value waitsBody fitTested.regular fitTested.room
    (by omega) (joins _ (by omega)) (fun _ => joins endBlock (by omega)) (by omega) with
    ⟨looping, latest⟩
  have blocks := Session.loopBlocks_eq known
  rcases routes_child looping
    (near.covers_loop (by omega) looping (by rw [blocks]) (fun _ _ => .whileFails)
      (fun _ exit leaves passes => .whileBody found leaves passes) (by omega)
      (by rw [blocks]; exact ⟨joins _ (Nat.le_refl _), show place.freshBlock.number.toNat < _ by omega⟩))
    (fun other new => joins other (by omega)) body with ⟨finished, _⟩
  refine routed_join (by omega) finished waits fitDone.regular fun _ =>
    ⟨joins _ (Nat.le_refl _), ?_⟩
  have := waits.number_lt fitDone.regular
  omega

theorem calm_createUpdates (updates : List ExprId) (fit : place.Fit) :
    place.Calm (createUpdates updates place) := by
  unfold createUpdates
  split
  · exact .refl place
  · exact Place.calm_create fit.regular fit.room _

theorem regular_createUpdates (updates : List ExprId) (fit : place.Fit) :
    (createUpdates updates place).Regular := by
  unfold createUpdates
  split
  · exact fit.regular
  · exact fit.regular.create fit.room _

theorem number_of_updateBlock? {updates : List ExprId} {block : BlockId} (fit : place.Fit)
    (isBlock : updateBlock? updates place = some block) :
    block.number.toNat = place.body.nextBlock.toNat ∧
      block.number.toNat < (createUpdates updates place).body.nextBlock.toNat := by
  unfold updateBlock? at isBlock
  unfold createUpdates
  split at isBlock
  · cases isBlock
  · rename_i some
    cases isBlock
    rw [if_neg some, Place.toNat_nextBlock_create fit.room]
    exact ⟨rfl, Nat.lt_succ_self _⟩

theorem routes_condition {base : Place} {condition : Option ExprId}
    (lowers : LowersCondition program final endBlock condition place after)
    (routes : Place.Routes base sends place) (regular : place.Regular) {count : Nat}
    (room : place.Room (count + 1))
    (fresh : ∀ id : BlockId, place.body.nextBlock.toNat ≤ id.number.toNat → sends id)
    (toEnd : condition.isSome = true → place.isLive = true → sends endBlock)
    (below : endBlock.number.toNat < place.body.nextBlock.toNat) :
    Place.Routes base sends after ∧ place.body.nextBlock.toNat ≤ after.body.nextBlock.toNat := by
  cases lowers with
  | none => exact ⟨routes, Nat.le_refl _⟩
  | some tests fit waits =>
      have created := Place.calm_create regular room "for.body"
      have calm := created.trans tests.calm
      rcases routes_branch (routes.calm calm) _ waits fit.regular fit.room routes.numbers
        (fresh place.freshBlock (Nat.le_refl _)) (fun alive => toEnd rfl (calm.live ▸ alive))
        (Nat.lt_of_lt_of_le below calm.numbers) with ⟨branched, later⟩
      exact ⟨branched, Nat.le_trans calm.numbers later⟩

theorem routes_updates {base : Place} {updates : List ExprId} {block : Option BlockId}
    (lowers : LowersUpdates program final updates block place after)
    (routes : Place.Routes base sends place) (regular : place.Regular)
    (new : ∀ id, block = some id → sends id ∧ base.body.nextBlock.toNat ≤ id.number.toNat) :
    Place.Routes base sends after := by
  cases lowers with
  | none => exact routes
  | some waits computes =>
      rcases new _ rfl with ⟨sent, created⟩
      exact (routes.enter waits regular created (fun _ => sent) false).1.calm computes.calm

theorem routed_for {initial : ForInit} {condition : Option ExprId} {updates : List ExprId}
    {started entered updated : Place}
    (near : Near program final (.stmt id (.forLoop initial condition updates bodyStmt)) place)
    (starts : Near program final (.initial initial) place →
      Routed program final (.initial initial) place started)
    (fit : started.Fit) (ends : endBlock = (started.create "for.cond").freshBlock)
    (enters : entered = ((started.create "for.cond").create "for.end").enter started.freshBlock
      false)
    (fitEntered : entered.Fit)
    (known : final.annotations.loopOf id =
      .ok ⟨started.freshBlock, updateBlock? updates entered, endBlock⟩)
    (tests : LowersCondition program final endBlock condition (createUpdates updates entered)
      tested)
    (found : program.stmt? bodyStmt = some node)
    (body : Near program final (.stmt bodyStmt node) tested →
      Routed program final (.stmt bodyStmt node) tested done)
    (fitDone : done.Fit)
    (renews : LowersUpdates program final updates (updateBlock? updates entered) done updated)
    (fitUpdated : updated.Fit) (waits : updated.Waiting endBlock "for.end") :
    Routed program final (.stmt id (.forLoop initial condition updates bodyStmt)) place
      ((updated.leaveTo started.freshBlock).enter endBlock true) := by
  have roomFirst := fit.room.create "for.cond"
  have first := fit.regular.create fit.room "for.cond"
  have second := first.create roomFirst "for.end"
  have one := Place.toNat_nextBlock_create fit.room "for.cond"
  have two := Place.toNat_nextBlock_create roomFirst "for.end"
  have condNumber : started.freshBlock.number.toNat = started.body.nextBlock.toNat := rfl
  have endNumber : endBlock.number.toNat = (started.create "for.cond").body.nextBlock.toNat := by
    rw [ends]
    rfl
  have initially := starts ⟨near.bounded, fun alive other jumps => near.jumps alive other
    (jumps.imp fun exit early leaves => .forInitial leaves early)⟩
  have before := initially.routes.numbers
  have joined : place.body.nextBlock.toNat ≤ endBlock.number.toNat := by omega
  have joins : ∀ other : BlockId, place.body.nextBlock.toNat ≤ other.number.toNat →
      other ≠ endBlock → Joins program final
        (.stmt id (.forLoop initial condition updates bodyStmt)) place endBlock other :=
    fun _ new apart => ⟨.inr new, fun same => absurd same apart⟩
  have begun : Place.Routes place (Joins program final
      (.stmt id (.forLoop initial condition updates bodyStmt)) place endBlock) started := by
    refine initially.routes.restrict.mono fun alive other sent => ?_
    rcases sent with ⟨jumps | new, old⟩
    · exact (near.joins joined alive (jumps.imp fun exit early leaves =>
        .forInitial leaves early)).1
    · exact joins other new (ne_of_number_lt (by omega))
  have opened := ((Place.Routes.start initially.routes.targets).calm
    (Place.calm_create fit.regular fit.room "for.cond")).calm
    (Place.calm_create first roomFirst "for.end")
  have testing := ((opened.mono fun _ _ absurd => absurd.elim).enter
    ((Place.Waiting.created fit.regular "for.cond").create first "for.end") second (Nat.le_refl _)
    (fun _ => joins started.freshBlock (by omega) (ne_of_number_lt (by omega))) false).1
  rw [← enters] at testing
  have three : entered.body.nextBlock =
      ((started.create "for.cond").create "for.end").body.nextBlock := by
    rw [enters, Place.nextBlock_enter]
  have calm := calm_createUpdates updates fitEntered
  have later := calm.numbers
  rw [three] at later
  rcases routes_condition tests (testing.calm calm) (regular_createUpdates updates fitEntered)
    (room_createUpdates updates fitEntered)
    (fun other new => joins other (by omega) (ne_of_number_lt (by omega)).symm)
    (fun isSome alive => ⟨.inr joined, fun _ => by
      rcases Option.isSome_iff_exists.mp isSome with ⟨expr, rfl⟩
      exact .forFails (initially.ends (testing.live (calm.live ▸ alive)))⟩) (by omega) with
    ⟨looping, latest⟩
  have continues : ∀ block : BlockId, updateBlock? updates entered = some block →
      endBlock.number.toNat < block.number.toNat ∧
        block.number.toNat < tested.body.nextBlock.toNat := by
    intro block isBlock
    have numbers := number_of_updateBlock? fitEntered isBlock
    rw [three] at numbers
    omega
  have blocks := Session.loopBlocks_eq known
  rcases routes_child looping
    (near.covers_loop joined (begun.andThen looping fun _ _ sent => sent) (by rw [blocks])
      (fun alive leaves => .forBroke (initially.ends (looping.live alive)) found leaves)
      (fun alive exit leaves passes =>
        .forBody (initially.ends (looping.live alive)) found leaves passes) (by omega) (by
      rw [blocks, LoopBlocks.continueTarget]
      cases isBlock : updateBlock? updates entered with
      | none =>
          refine ⟨joins started.freshBlock (by omega) (ne_of_number_lt (by omega)), ?_⟩
          change started.freshBlock.number.toNat < _
          omega
      | some block =>
          rcases continues block isBlock with ⟨above, below⟩
          exact ⟨joins block (by omega) (ne_of_number_lt (by omega)).symm, below⟩))
    (fun other new => joins other (by omega) (ne_of_number_lt (by omega)).symm) body with
    ⟨finished, _⟩
  have renewed := routes_updates renews finished fitDone.regular fun block isBlock => by
    rcases continues block isBlock with ⟨above, _⟩
    exact ⟨joins block (by omega) (ne_of_number_lt (by omega)).symm, by omega⟩
  have last := waits.number_lt fitUpdated.regular
  exact routed_join joined (begun.andThen renewed fun _ _ sent => sent) waits fitUpdated.regular fun _ =>
    ⟨joins started.freshBlock (by omega) (ne_of_number_lt (by omega)), by omega⟩

end Loops

/-! ### Jumps and returns -/

theorem Near.routed_terminate (near : Near program final part place) (calm : place.Calm middle)
    (fit : middle.Fit) {terminator : Code.Terminator} (finished : terminator.isFinished = true)
    (leads : ∀ id ∈ terminator.successors, Jumps final.loopBlocks (Ends program part) id) :
    Routed program final part place (middle.ready.terminate terminator) where
  routes := by
    refine (((Place.Routes.start near.bounded).calm calm).mono fun _ _ absurd =>
      absurd.elim).readyTerminate fit.regular fit.room finished fun alive id member => ?_
    have alive := calm.live ▸ alive
    exact ⟨.inl (leads id member),
      Nat.lt_of_lt_of_le (near.jumps alive id (leads id member)) calm.numbers⟩
  ends := by
    intro alive
    rw [Place.isLive_terminate (isOpen_ready middle) finished] at alive
    cases alive

theorem routed_sequence {first rest : Part} (near : Near program final part place)
    (begins : Near program final first place → Routed program final first place middle)
    (goesOn : Near program final rest middle → Routed program final rest middle after)
    (early : ∀ exit, exit ≠ .normal → Ends program first exit → Ends program part exit)
    (late : Ends program first .normal → ∀ exit, Ends program rest exit →
      Ends program part exit) : Routed program final part place after := by
  have head := begins ⟨near.bounded, fun alive id jumps => near.jumps alive id (jumps.imp early)⟩
  have tail := goesOn ⟨head.routes.targets, fun alive id jumps =>
    Nat.lt_of_lt_of_le (near.jumps (head.routes.live alive) id
      (jumps.imp fun exit _ => late (head.ends alive) exit)) head.routes.numbers⟩
  refine ⟨(head.routes.mono fun _ id sent => ?_).andThen tail.routes fun alive id sent => ?_,
    fun alive => late (head.ends (tail.routes.live alive)) _ (tail.ends alive)⟩
  · exact sent.imp_left fun jumps => jumps.imp early
  · rcases sent with jumps | new
    · exact .inl (jumps.imp fun exit _ => late (head.ends alive) exit)
    · exact .inr (Nat.le_trans head.routes.numbers new)

end Parts

/-- Where control is sent while a part is lowered. -/
theorem LowersPart.routed {depth : Nat} {part : Part}
    (lowers : LowersPart program final depth part place after) (near : Near program final part place) :
    Routed program final part place after := by
  induction lowers with
  | expr computes => exact near.routed_of_calm computes.calm .expr
  | nothing => exact near.routed_of_calm (.refl _) .nothing
  | noVars => exact near.routed_of_calm (.refl _) .varDecl
  | functionDecl => exact near.routed_of_calm (.refl _) .functionDecl
  | sequence found _ _ first rest =>
      exact routed_sequence near first rest (fun _ early leaves => .first found leaves early)
        fun starts _ leaves => .rest found starts leaves
  | @vars _ id _ _ _ _ _ first _ others =>
      have same : ∀ {vars more : List VarId} {exit : Exit},
          Ends program (.stmt id (.varDecl vars)) exit →
            Ends program (.stmt id (.varDecl more)) exit := by
        rintro _ _ _ ⟨⟩
        exact .varDecl
      have nothing : Ends program (.stmt id (.varDecl [])) .normal := .varDecl
      exact routed_sequence near (fun near => near.routed_of_calm first.calm nothing) others
        (fun _ _ => same) fun _ _ => same
  | ifThen tests fit creates ends found _ fitDone waits body =>
      exact routed_ifThen near tests fit creates ends found body fitDone waits
  | ifThenElse tests fit creates ends elses thenFound elseFound _ fitDone waitsElse _ fitElse waits
      thenPart elsePart =>
      exact routed_ifThenElse near tests fit creates ends elses thenFound elseFound thenPart fitDone
        waitsElse elsePart fitElse waits
  | whileLoop fit creates bodies ends known tests fitTested waitsBody found _ fitDone waits loops =>
      exact routed_while near fit creates bodies ends known tests fitTested waitsBody found loops
        fitDone waits
  | forLoop _ fit ends enters fitEntered known tests found _ fitDone renews fitUpdated waits starts
      loops =>
      exact routed_for near starts fit ends enters fitEntered known tests found loops fitDone renews
        fitUpdated waits
  | continueLoop fit known =>
      refine near.routed_terminate (.refl _) fit rfl fun id leads => ?_
      rw [List.mem_singleton.mp leads]
      exact ⟨_, .continueLoop, by rw [Exit.goesTo?, Session.loopBlocks_eq known]⟩
  | breakLoop fit known =>
      refine near.routed_terminate (.refl _) fit rfl fun id leads => ?_
      rw [List.mem_singleton.mp leads]
      exact ⟨_, .breakLoop, by rw [Exit.goesTo?, Session.loopBlocks_eq known]⟩
  | returnNothing fit =>
      exact near.routed_terminate (.refl _) fit rfl fun _ leads => by cases leads
  | returnValue computes fit =>
      exact near.routed_terminate computes.calm fit rfl fun _ leads => by cases leads
  | initialDecl found _ declares =>
      have routed := declares ⟨near.bounded, fun alive id jumps =>
        near.jumps alive id (jumps.imp fun _ _ leaves => .initialDecl found leaves)⟩
      exact ⟨routed.routes.mono fun _ _ sent => sent.imp_left fun jumps =>
          jumps.imp fun _ _ leaves => .initialDecl found leaves,
        fun alive => .initialDecl found (routed.ends alive)⟩
  | initialExprs computes => exact near.routed_of_calm computes.calm .initialExprs

end ScriptLowering.Lowering
