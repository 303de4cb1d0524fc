import ScriptLowering.Proofs.FunctionStructure

/-! # What lasts

What a trace adds to a function is still there when the function is complete: the blocks that are
laid out stay and are at most added to, and a block that has been dropped does not come back.
-/

namespace ScriptLowering.Code.Place

variable {place middle after : Place}

theorem Within.andThen (first : place.Within place.body.nextBlock.toNat middle)
    (second : middle.Within middle.body.nextBlock.toNat after) :
    place.Within place.body.nextBlock.toNat after :=
  first.trans (second.mono first.blocks)

theorem Within.size_le {base : Nat} (within : place.Within base after) :
    place.body.temps.size ≤ after.body.temps.size := by
  rcases within.temps with ⟨more, grows⟩
  have length := congrArg List.length grows
  simp only [Array.length_toList, List.length_append] at length
  omega

theorem within_terminate_enter {base count : Nat} (room : place.Room (count + 1))
    (above : base ≤ place.body.nextBlock.toNat) (terminator : Terminator) {id : BlockId}
    (new : base ≤ id.number.toNat) (closing : Bool) :
    place.Within base ((place.ready.terminate terminator).enter id closing) :=
  ((within_ready room above).trans
    (within_terminate base (Lowering.isOpen_ready place) terminator)).trans
    (within_enter _ new closing)

/-! ## Edges -/

/-- An edge leads from a laid-out block to `target`. -/
def EdgeTo (place : Place) (target : BlockId) : Prop :=
  ∃ id ∈ place.body.layout, ∃ block, place.body.block? id = some block ∧
    target ∈ block.successors

theorem isTerminated_of_successor {block : Block} {target : BlockId}
    (edge : target ∈ block.successors) : block.isTerminated = true := by
  cases terminated : block.isTerminated with
  | true => rfl
  | false =>
      rw [successors_of_open terminated] at edge
      cases edge

namespace EdgeTo

variable {target id : BlockId} {label : String}

theorem within (edge : place.EdgeTo target) (regular : place.Regular)
    (within : place.Within place.body.nextBlock.toNat after) : after.EdgeTo target := by
  rcases edge with ⟨source, member, block, found, isTarget⟩
  have old := regular.numbered source block found
  refine ⟨source, ?_, block, ?_, isTarget⟩
  · rcases within.layout with ⟨more, grows, _⟩
    rw [grows]
    exact List.mem_append_left _ member
  · by_cases stands : place.block = some source
    · rcases within.extended source block old stands found with ⟨last, foundLast, grown⟩
      rw [grown.complete (isTerminated_of_successor isTarget)] at foundLast
      exact foundLast
    · exact (within.kept source old stands).trans found

theorem leaveTo (edge : place.EdgeTo target) (regular : place.Regular) (next : BlockId) :
    (place.leaveTo next).EdgeTo target :=
  edge.within regular (within_leaveTo _ place next)

theorem predecessorCount_ne_zero (edge : place.EdgeTo target) :
    place.body.predecessorCount target ≠ 0 := by
  rcases edge with ⟨source, member, block, found, isTarget⟩
  unfold Body.predecessorCount
  rw [Ne, List.count_eq_zero]
  intro absent
  refine absent (List.mem_flatMap.mpr ⟨block, ?_, isTarget⟩)
  exact List.mem_filterMap.mpr ⟨source, member, found⟩

theorem enter (edge : place.EdgeTo target) (regular : place.Regular)
    (waiting : place.Waiting id label) (closing : Bool) :
    (place.enter id closing).EdgeTo target := by
  rcases edge.leaveTo regular id with ⟨source, member, block, found, isTarget⟩
  have missing := (waiting.leaveTo id).missing
  simp only [Place.enter]
  split
  · cases closing with
    | true =>
        refine ⟨source, member, block, ?_, isTarget⟩
        rw [if_pos rfl, block?_discard, if_neg]
        · exact found
        · intro same
          exact missing (same ▸ member)
    | false => exact ⟨source, member, block, found, isTarget⟩
  · exact ⟨source, List.mem_append_left _ member, block, found, isTarget⟩

end EdgeTo

theorem enter_of_edge {id : BlockId} (edge : (place.leaveTo id).EdgeTo id) (closing : Bool) :
    place.enter id closing = (place.leaveTo id).layOut id := by
  simp only [Place.enter]
  rw [if_neg edge.predecessorCount_ne_zero]

/-! ## Finished bodies -/

/-- What is laid out at the place is part of the finished body. -/
structure Lasts (place : Place) (body : Body) : Prop where
  layout : ∀ id ∈ place.body.layout, id ∈ body.layout
  kept : ∀ id ∈ place.body.layout, ∀ block, place.body.block? id = some block →
    ∃ after, body.block? id = some after ∧ block.Extends after

namespace Lasts

variable {body : Body} {id : BlockId} {label : String} {closing : Bool}

theorem of_within (lasts : after.Lasts body) (regular : place.Regular)
    (within : place.Within place.body.nextBlock.toNat after) : place.Lasts body where
  layout := by
    intro id member
    rcases within.layout with ⟨more, grows, _⟩
    exact lasts.layout id (by rw [grows]; exact List.mem_append_left _ member)
  kept := by
    intro id member block found
    have old := regular.numbered id block found
    have later : id ∈ after.body.layout := by
      rcases within.layout with ⟨more, grows, _⟩
      rw [grows]
      exact List.mem_append_left _ member
    by_cases stands : place.block = some id
    · rcases within.extended id block old stands found with ⟨grown, foundGrown, first⟩
      rcases lasts.kept id later grown foundGrown with ⟨last, foundLast, second⟩
      exact ⟨last, foundLast, first.trans second⟩
    · exact lasts.kept id later block ((within.kept id old stands).trans found)

theorem of_leaveTo {target : BlockId} (lasts : (place.leaveTo target).Lasts body)
    (regular : place.Regular) : place.Lasts body :=
  lasts.of_within regular (within_leaveTo _ place target)

theorem of_enter_left (lasts : (place.enter id closing).Lasts body)
    (waiting : place.Waiting id label) : (place.leaveTo id).Lasts body := by
  have missing := (waiting.leaveTo id).missing
  simp only [Place.enter] at lasts
  split at lasts
  · cases closing with
    | false => exact ⟨lasts.layout, lasts.kept⟩
    | true =>
        rw [if_pos rfl] at lasts
        refine ⟨lasts.layout, ?_⟩
        intro other member block found
        refine lasts.kept other member block ?_
        rw [block?_discard, if_neg]
        · exact found
        · intro same
          exact missing (same ▸ member)
  · refine ⟨?_, ?_⟩
    · intro other member
      exact lasts.layout other (List.mem_append_left _ member)
    · intro other member block found
      exact lasts.kept other (List.mem_append_left _ member) block found

theorem of_enter (lasts : (place.enter id closing).Lasts body) (regular : place.Regular)
    (waiting : place.Waiting id label) : place.Lasts body :=
  (lasts.of_enter_left waiting).of_leaveTo regular

theorem pruned {place : Place} : place.Lasts place.pruned.body where
  layout := fun _ member => member
  kept := by
    intro id member block found
    refine ⟨block, ?_, .refl block⟩
    change (place.body.blocks.filterKeys place.body.isLaidOut).get? id = _
    rw [Table.get?_filterKeys, if_pos (Body.isLaidOut_iff.mpr member)]
    exact found

end Lasts

end ScriptLowering.Code.Place

/-! ## Traces -/

namespace ScriptLowering.Lowering

open Source (Program ExprNode ExprId VarId)
open Code (BlockId Operand Place)

variable {program : Program} {final : Session}

theorem Emits.within {node : ExprNode} {operands : List Operand} {place after : Place}
    {value : Option Operand} (emits : Emits program final node operands place value after)
    (fit : place.Fit) : place.Within place.body.nextBlock.toNat after := by
  have adds : ∀ instruction : Code.Instruction, instruction.defined? = none →
      place.Within place.body.nextBlock.toNat (place.ready.add instruction) :=
    fun _ nothing => (SafeOperation.add nothing).within place 7 fit.room
  have defines : ∀ (ty : Code.Ty) (instruction : Operand → Code.Instruction),
      (∀ temp, (instruction (.temp temp)).defined? = some temp) →
      place.Within place.body.nextBlock.toNat (place.ready.define ty instruction) :=
    fun ty _ defined => (SafeOperation.define ty defined).within place 6 fit.room
  cases emits with
  | booleanLiteral | integerLiteral => exact .refl _ place
  | stringLiteral | identifier | callValue | negate | arith | compare | concat =>
      exact defines _ _ fun _ => rfl
  | callNothing | assign => exact adds _ rfl
  | compareStrings _ _ compares =>
      subst compares
      exact .andThen (by exact defines _ _ fun _ => rfl)
        ((SafeOperation.define _ fun _ => rfl).within _ 4 (fit.room.ready.define _ _))

theorem LowersValues.within {depth : Nat} {ids : List ExprId} {place after : Place}
    {values : List Operand} (lowers : LowersValues program final depth ids place values after) :
    place.Within place.body.nextBlock.toNat after := by
  induction lowers with
  | nil => exact .refl _ _
  | cons _ _ fit emits _ computes rest => exact (computes.andThen (emits.within fit)).andThen rest

theorem LowersValues.regular {depth : Nat} {ids : List ExprId} {place after : Place}
    {values : List Operand} (lowers : LowersValues program final depth ids place values after)
    (regular : after.Regular) : place.Regular := by
  induction lowers with
  | nil => exact regular
  | cons _ _ fit _ _ computes _ => exact computes fit.regular

theorem LowersExpr.within {id : ExprId} {place after : Place} {value : Option Operand}
    (lowers : LowersExpr program final id place value after) :
    place.Within place.body.nextBlock.toNat after := by
  cases lowers with
  | intro _ computes fit emits => exact computes.within.andThen (emits.within fit)

theorem LowersExpr.regular {id : ExprId} {place after : Place} {value : Option Operand}
    (lowers : LowersExpr program final id place value after) : place.Regular := by
  cases lowers with
  | intro _ computes fit _ => exact computes.regular fit.regular

theorem LowersEach.within {ids : List ExprId} {place after : Place}
    (lowers : LowersEach program final ids place after) :
    place.Within place.body.nextBlock.toNat after := by
  induction lowers with
  | nil => exact .refl _ _
  | cons computes _ rest => exact computes.within.andThen rest

theorem LowersEach.regular {ids : List ExprId} {place after : Place}
    (lowers : LowersEach program final ids place after) (regular : after.Regular) :
    place.Regular := by
  cases lowers with
  | nil => exact regular
  | cons computes _ => exact computes.regular

theorem LowersInitial.within {initial : Option ExprId} {place after : Place}
    {value : Option Operand} (lowers : LowersInitial program final initial place value after) :
    place.Within place.body.nextBlock.toNat after := by
  cases lowers with
  | none => exact .refl _ _
  | some computes => exact computes.within

theorem LowersInitial.regular {initial : Option ExprId} {place after : Place}
    {value : Option Operand} (lowers : LowersInitial program final initial place value after)
    (regular : after.Regular) : place.Regular := by
  cases lowers with
  | none => exact regular
  | some computes => exact computes.regular

theorem LowersVar.within {id : VarId} {place after : Place}
    (lowers : LowersVar program final id place after) :
    place.Within place.body.nextBlock.toNat after := by
  cases lowers with
  | stored _ _ _ computes fit _ _ =>
      exact computes.within.andThen ((SafeOperation.add rfl).within _ 7 fit.room)
  | kept _ _ _ computes _ _ => exact computes.within
  | empty _ _ _ fit _ _ => exact (SafeOperation.define _ fun _ => rfl).within _ 6 fit.room
  | filled _ _ _ _ computes fit reserves _ =>
      subst reserves
      exact .andThen
        (computes.within.andThen
          (by exact (SafeOperation.define _ fun _ => rfl).within _ 6 fit.room))
        ((SafeOperation.add rfl).within _ 5 (fit.room.ready.define _ _))

theorem LowersVar.regular {id : VarId} {place after : Place}
    (lowers : LowersVar program final id place after) (regular : after.Regular) :
    place.Regular := by
  cases lowers with
  | stored _ _ _ computes fit _ _ => exact computes.regular fit.regular
  | kept _ _ _ computes _ _ => exact computes.regular regular
  | empty _ _ _ fit _ _ => exact fit.regular
  | filled _ _ _ _ computes _ _ _ => exact computes.regular

theorem within_createUpdates (updates : List ExprId) {place : Place} (fit : place.Fit)
    {base : Nat} (above : base ≤ place.body.nextBlock.toNat) :
    place.Within base (createUpdates updates place) := by
  unfold createUpdates
  split
  · exact .refl _ place
  · exact Place.within_create fit.room above _

theorem room_createUpdates (updates : List ExprId) {place : Place} (fit : place.Fit) :
    (createUpdates updates place).Room 7 := by
  unfold createUpdates
  split
  · exact fit.room.mono (by omega)
  · exact fit.room.create _

theorem LowersCondition.within {endBlock : BlockId} {condition : Option ExprId}
    {place after : Place} {count : Nat} (room : place.Room (count + 1))
    (lowers : LowersCondition program final endBlock condition place after) :
    place.Within place.body.nextBlock.toNat after := by
  cases lowers with
  | none => exact .refl _ place
  | some tests fit _ =>
      have tested := (Place.within_create room (Nat.le_refl _) "for.body").andThen tests.within
      exact tested.trans (Place.within_terminate_enter fit.room tested.blocks _ (Nat.le_refl _) _)

theorem LowersUpdates.within {updates : List ExprId} {block : Option BlockId}
    {place after : Place} (lowers : LowersUpdates program final updates block place after)
    {base : Nat} (above : base ≤ place.body.nextBlock.toNat)
    (new : ∀ id, block = Option.some id → base ≤ id.number.toNat) : place.Within base after := by
  cases lowers with
  | none => exact .refl _ place
  | @some id _ _ _ computes =>
      have entered := Place.within_enter place (new id rfl) false
      exact entered.trans (computes.within.mono (Nat.le_trans above entered.blocks))

theorem LowersPart.within {depth : Nat} {part : Part} {place after : Place}
    (lowers : LowersPart program final depth part place after) :
    place.Within place.body.nextBlock.toNat after := by
  induction lowers with
  | expr computes => exact computes.within
  | nothing | noVars | functionDecl => exact .refl _ _
  | sequence _ _ _ first rest => exact first.andThen rest
  | vars first _ others => exact first.within.andThen others
  | @ifThen _ _ _ _ _ _ place tested _ _ _ tests fit creates ends _ _ _ _ body =>
      subst creates ends
      have start := tests.within
      have new : place.body.nextBlock.toNat ≤ tested.freshBlock.number.toNat := start.blocks
      have one := Place.within_create fit.room start.blocks "if.then"
      have two := Place.within_create (fit.room.create "if.then")
        (Nat.le_trans start.blocks one.blocks) "if.end"
      have created := (start.trans one).trans two
      have branched := (created.trans (Place.within_terminate_enter
        ((fit.room.create "if.then").create "if.end") created.blocks _ new false)).andThen body
      exact branched.trans ((Place.within_leaveTo _ _ _).trans
        (Place.within_enter _ (Nat.le_trans start.blocks one.blocks) true))
  | @ifThenElse _ _ _ _ _ _ _ _ place tested _ _ _ _ _ tests fit creates ends elses _ _ _ _ _ _ _
      _ thenPart elsePart =>
      subst creates ends elses
      have start := tests.within
      have new : place.body.nextBlock.toNat ≤ tested.freshBlock.number.toNat := start.blocks
      have one := Place.within_create fit.room start.blocks "if.then"
      have two := Place.within_create (fit.room.create "if.then")
        (Nat.le_trans start.blocks one.blocks) "if.end"
      have three := Place.within_create ((fit.room.create "if.then").create "if.end")
        (Nat.le_trans start.blocks (Nat.le_trans one.blocks two.blocks)) "if.else"
      have created := ((start.trans one).trans two).trans three
      have branched := (created.trans (Place.within_terminate_enter
        (((fit.room.create "if.then").create "if.end").create "if.else") created.blocks _ new
        false)).andThen thenPart
      have switched := (branched.trans ((Place.within_leaveTo _ _ _).trans
        (Place.within_enter _ (Nat.le_trans start.blocks (Nat.le_trans one.blocks two.blocks))
          false))).andThen elsePart
      exact switched.trans ((Place.within_leaveTo _ _ _).trans
        (Place.within_enter _ (Nat.le_trans start.blocks one.blocks) true))
  | @whileLoop _ _ _ _ _ _ place _ _ _ _ _ fit creates bodies ends _ tests fitTested _ _ _ _ _
      loops =>
      subst creates bodies ends
      have one := Place.within_create fit.room (Nat.le_refl _) "while.cond"
      have two := Place.within_create (fit.room.create "while.cond") one.blocks "while.body"
      have three := Place.within_create ((fit.room.create "while.cond").create "while.body")
        (Nat.le_trans one.blocks two.blocks) "while.end"
      have new : place.body.nextBlock.toNat ≤ place.freshBlock.number.toNat := Nat.le_refl _
      have entered := ((one.trans two).trans three).trans (Place.within_enter _ new false)
      have tested := entered.andThen tests.within
      have looped := (tested.trans (Place.within_terminate_enter fitTested.room tested.blocks _
        one.blocks false)).andThen loops
      exact looped.trans ((Place.within_leaveTo _ _ _).trans
        (Place.within_enter _ (Nat.le_trans one.blocks two.blocks) true))
  | @forLoop _ _ _ _ _ updates _ place started entered tested done updated _ _ fit ends enters
      fitEntered _ tests _ _ _ renews _ _ starts loops =>
      subst ends
      have one := Place.within_create fit.room starts.blocks "for.cond"
      have two := Place.within_create (fit.room.create "for.cond")
        (Nat.le_trans starts.blocks one.blocks) "for.end"
      have opened : place.Within place.body.nextBlock.toNat entered := by
        rw [enters]
        exact ((starts.trans one).trans two).trans (Place.within_enter _ starts.blocks false)
      have created := opened.trans (within_createUpdates updates fitEntered opened.blocks)
      have looped := (created.andThen
        (tests.within (room_createUpdates updates fitEntered))).andThen loops
      have renewed := looped.trans (renews.within looped.blocks fun id isBlock => by
        unfold updateBlock? at isBlock
        split at isBlock
        · cases isBlock
        · cases isBlock
          exact opened.blocks)
      exact renewed.trans ((Place.within_leaveTo _ _ _).trans
        (Place.within_enter _ (Nat.le_trans starts.blocks one.blocks) true))
  | continueLoop fit _ | breakLoop fit _ | returnNothing fit =>
      exact (SafeOperation.terminate _).within _ 7 fit.room
  | returnValue computes fit =>
      exact computes.within.andThen ((SafeOperation.terminate _).within _ 7 fit.room)
  | initialDecl _ _ declares => exact declares
  | initialExprs computes => exact computes.within

theorem LowersPart.regular {depth : Nat} {part : Part} {place after : Place}
    (lowers : LowersPart program final depth part place after) (regular : after.Regular) :
    place.Regular := by
  induction lowers with
  | expr computes => exact computes.regular
  | nothing | noVars | functionDecl => exact regular
  | sequence _ _ _ first rest => exact first (rest regular)
  | vars first _ others => exact first.regular (others regular)
  | ifThen tests | ifThenElse tests => exact tests.regular
  | whileLoop fit => exact fit.regular
  | forLoop _ fit _ _ _ _ _ _ _ _ _ _ _ starts => exact starts fit.regular
  | continueLoop fit _ | breakLoop fit _ | returnNothing fit => exact fit.regular
  | returnValue computes _ => exact computes.regular
  | initialDecl _ _ declares => exact declares regular
  | initialExprs computes => exact computes.regular regular

end ScriptLowering.Lowering
