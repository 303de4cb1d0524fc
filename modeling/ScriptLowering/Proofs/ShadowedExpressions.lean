import ScriptLowering.Proofs.ShadowedSteps
import ScriptLowering.Proofs.Scopes

/-! # Expressions in shadows

An expression that uses only variables in scope is lowered in the shadow of a session as in the
session itself, and it has the same value there, up to numbers.
-/

namespace ScriptLowering.Lowering

open Source (Program ExprId ExprNode StmtId VarId)
open Code (Instruction Operand Pairing)

/-! ## What can be seen -/

structure LoopBlocks.Pairs (pairing : Pairing) (blocks mirrored : LoopBlocks) : Prop where
  condition : pairing.blocks blocks.condition mirrored.condition
  update : Option.Rel pairing.blocks blocks.update mirrored.update
  exit : pairing.blocks blocks.exit mirrored.exit

theorem LoopBlocks.Pairs.mono {pairing more : Pairing} {blocks mirrored : LoopBlocks}
    (pairs : blocks.Pairs pairing mirrored) (within : pairing.Within more) :
    blocks.Pairs more mirrored where
  condition := within.blocks _ _ pairs.condition
  update := pairs.update.imp within.blocks
  exit := within.blocks _ _ pairs.exit

theorem LoopBlocks.Pairs.continueTarget {pairing : Pairing} {blocks mirrored : LoopBlocks}
    (pairs : blocks.Pairs pairing mirrored) :
    pairing.blocks blocks.continueTarget mirrored.continueTarget := by
  rcases blocks with ⟨condition, update, exit⟩
  rcases mirrored with ⟨otherCondition, otherUpdate, otherExit⟩
  cases pairs.update with
  | none => exact pairs.condition
  | some paired => exact paired

/-- The local variables and the loops that can be seen are known on both sides. -/
structure Tandem.Sees (locals : List VarId) (loops : List StmtId) (tandem : Tandem) : Prop where
  locals : ∀ id ∈ locals, ∃ address mirrored,
    tandem.session.annotations.storageOf id = .ok address ∧
      tandem.shadow.annotations.storageOf id = .ok mirrored ∧
        address.Pairs tandem.pairing mirrored
  loops : ∀ id ∈ loops, ∃ blocks mirrored,
    tandem.session.annotations.loopOf id = .ok blocks ∧
      tandem.shadow.annotations.loopOf id = .ok mirrored ∧ blocks.Pairs tandem.pairing mirrored

namespace Tandem.Sees

variable {program : Program} {dropped : ExprId → Prop} {locals : List VarId}
  {loops : List StmtId} {tandem next : Tandem}

theorem later (sees : tandem.Sees locals loops) (precedes : tandem.Precedes next) :
    next.Sees locals loops where
  locals := by
    intro id member
    rcases sees.locals id member with ⟨address, mirrored, stored, otherStored, pairs⟩
    exact ⟨address, mirrored, precedes.session.storage id _ stored,
      precedes.shadow.storage id _ otherStored, pairs.mono precedes.within⟩
  loops := by
    intro id member
    rcases sees.loops id member with ⟨blocks, mirrored, known, otherKnown, pairs⟩
    exact ⟨blocks, mirrored, precedes.session.loops id _ known,
      precedes.shadow.loops id _ otherKnown, pairs.mono precedes.within⟩

theorem storageOf (sees : tandem.Sees locals loops) (agrees : tandem.Agrees program dropped)
    {id : VarId} (visible : InScope program locals id) {address : Operand}
    (stored : tandem.session.annotations.storageOf id = .ok address) : ∃ mirrored,
      tandem.shadow.annotations.storageOf id = .ok mirrored ∧
        address.Pairs tandem.pairing mirrored := by
  rcases visible with member | ⟨decl, found, topLevel⟩
  · rcases sees.locals id member with ⟨known, mirrored, isKnown, otherStored, pairs⟩
    cases isKnown.symm.trans stored
    exact ⟨mirrored, otherStored, pairs⟩
  · rcases agrees.shadows.topLevel id decl found topLevel address stored with
      ⟨⟨global, rfl⟩, otherStored⟩
    exact ⟨_, otherStored, .global⟩

end Tandem.Sees

section Course

variable {program other : Program} {dropped : ExprId → Prop} {outset tandem : Tandem}
  {names : List String} {waits : List (Code.BlockId × Code.BlockId × String)} {count : Nat}
  {locals : List VarId} {loops : List StmtId}

theorem Course.sees (course : Course program other dropped outset names waits count tandem)
    (sees : outset.Sees locals loops) : tandem.Sees locals loops :=
  sees.later course.later

theorem Keeps.elsewhere {α : Type} {errors : Error → Prop} {cost : Nat} {step : Lower α}
    {traces : Session → Code.Place → α → Code.Place → Prop}
    (computes : Computes program errors cost step traces) :
    Computes other errors cost step traces := by
  refine .start fun final session name place count fills => ?_
  refine (computes.apply final fills).mono fun _ _ arrives => ?_
  rcases arrives with ⟨after, filled, grows, traced⟩
  exact ⟨after, filled, ⟨grows.within, grows.precedes, grows.others, fun _ member => by cases member⟩,
    traced⟩

theorem Mirrors.compute {α : Type} {cost : Nat} {starts : Tandem → Prop} {step : Lower α}
    {post : α → α → Tandem → Prop} {traces : Session → Code.Place → α → Code.Place → Prop}
    (computes : Computes program (fun _ => True) cost step traces)
    (answers : ∀ (outset : Tandem) (count : Nat),
      Course program other dropped outset [] [] (cost + count) outset → starts outset →
      step.Follows step outset fun value result ended =>
        outset.Comes program dropped ended ∧ post value result ended) :
    Mirrors program other dropped cost [] starts step step post where
  keeps := ⟨traces, computes⟩
  otherKeeps := ⟨traces, Keeps.elsewhere computes⟩
  answers := fun outset count course _ _ _ _ => answers outset count course

end Course

/-! ## Forms -/

/-- Both sides yield the same value. -/
abbrev SameValue (value mirrored : Operand) (tandem : Tandem) : Prop :=
  value.Pairs tandem.pairing mirrored

abbrev SameOption (value mirrored : Option Operand) (tandem : Tandem) : Prop :=
  Option.Rel (Operand.Pairs tandem.pairing) value mirrored

section Forms

variable {program other : Program} {dropped : ExprId → Prop} {locals : List VarId}
  {loops : List StmtId}

theorem mirrors_lowerIdentifier {decl : VarId} (visible : InScope program locals decl) :
    Mirrors program other dropped 2 [] (Tandem.Sees locals loops) (lowerIdentifier program decl)
      (lowerIdentifier program decl) SameValue := by
  have computes : Computes program (fun _ => True) 2 (lowerIdentifier program decl)
      fun final place value after =>
        LowersNode program 0 (.identifier "" decl) final place (some value) after :=
    keeps_lowerIdentifier (fun _ _ => trivial) "" decl
  refine .compute computes fun outset count course sees => ?_
  refine .orFault_bind fun var found => .consult_bind fun address stored => ?_
  rcases sees.storageOf course.agrees visible stored with ⟨mirrored, otherStored, addresses⟩
  refine ⟨mirrored, otherStored, .of_bind_pure ?_⟩
  have course : Course program other dropped outset [] [] (count + 2) outset :=
    course.mono (by omega)
  refine course.thenDefine (fun _ => rfl) (fun _ => rfl)
    (fun more id counterpart within paired => .load (.temp paired) (addresses.mono within))
    fun id counterpart next course _ paired => ?_
  exact course.finish (.temp paired)

variable {lower : ExprId → Lower Operand} {walk : ExprId → List Node} {depth : Nat}
  (operands : ∀ id, Computes program (fun _ => True) (8 * (walk id).length) (lower id)
    fun final place value after => LowersValues program final depth [id] place [value] after)

/-- The operand is lowered in the shadow as in the session. -/
def MirrorsOperand (program other : Program) (dropped : ExprId → Prop) (locals : List VarId)
    (loops : List StmtId) (lower : ExprId → Lower Operand) (walk : ExprId → List Node)
    (id : ExprId) : Prop :=
  Mirrors program other dropped (8 * (walk id).length) [] (Tandem.Sees locals loops) (lower id)
    (lower id) SameValue

include operands

theorem mirrors_operands (ids : List ExprId)
    (mirrors : ∀ id ∈ ids, MirrorsOperand program other dropped locals loops lower walk id) :
    Mirrors program other dropped (8 * (ids.flatMap walk).length) [] (Tandem.Sees locals loops)
      (ids.mapM lower) (ids.mapM lower) fun values results ended =>
        List.Forall₂ (Operand.Pairs ended.pairing) values results := by
  refine .compute (keeps_operands operands ids) ?_
  induction ids with
  | nil =>
      intro outset count course _
      rw [List.mapM_nil]
      exact course.finish .nil
  | cons id ids induction =>
      intro outset count course sees
      have mirrorsRest : Mirrors program other dropped (8 * (ids.flatMap walk).length) []
          (Tandem.Sees locals loops) (ids.mapM lower) (ids.mapM lower) _ :=
        .compute (keeps_operands operands ids)
          (induction fun other member => mirrors other (List.mem_cons_of_mem _ member))
      rw [List.flatMap_cons, List.length_append, Nat.mul_add] at course
      rw [List.mapM_cons]
      refine course.thenCompute (mirrors id List.mem_cons_self)
        (8 * (ids.flatMap walk).length + count) (by omega) sees
        fun value result next course _ first => ?_
      refine course.thenCompute mirrorsRest count (Nat.le_refl _) (course.sees sees)
        fun values results ended course later rest => ?_
      exact course.finish (.cons (first.mono later.within) rest)

theorem mirrors_lowerCall (callee : String) (args : List ExprId)
    (mirrors : ∀ id ∈ args, MirrorsOperand program other dropped locals loops lower walk id) :
    Mirrors program other dropped (8 * (args.flatMap walk).length + 2) []
      (Tandem.Sees locals loops) (lowerCall lower callee args) (lowerCall lower callee args)
      SameOption := by
  refine .compute (keeps_lowerCall (fun _ _ => trivial) operands callee args)
    fun outset count course sees => ?_
  have looks : Lower.cursor outset.session = .ok (outset.session.cursor, outset.session) := rfl
  have looksOther : Lower.cursor outset.shadow = .ok (outset.shadow.cursor, outset.shadow) := rfl
  have headings := course.agrees.shadows.headings.headings callee
  unfold lowerCall
  refine .bind_ok looks looksOther ?_
  cases found : outset.session.cursor.module.function? callee with
  | none => exact .fail
  | some function =>
      cases otherFound : outset.shadow.cursor.module.function? callee with
      | none => rw [found, otherFound] at headings; cases headings
      | some mirrored =>
          rw [found, otherFound] at headings
          have signatures : mirrored.signature = function.signature :=
            congrArg Prod.fst (Option.some.inj headings)
          have arities : mirrored.arity = function.arity := by
            simp only [Code.Function.arity, signatures]
          simp only [arities, signatures]
          split
          · refine course.thenCompute (mirrors_operands operands args mirrors) (count + 2) (by omega)
              sees fun values results next course _ arguments => ?_
            exact .of_bind_pure (course.thenCall arguments fun value mirrored next course _ values =>
              course.finish values)
          · exact .fail

theorem mirrors_lowerUnary (op : Source.UnaryOp) (operand : ExprId)
    (mirrors : MirrorsOperand program other dropped locals loops lower walk operand) :
    Mirrors program other dropped (8 * (walk operand).length + 2) [] (Tandem.Sees locals loops)
      (lowerUnary program lower op operand) (lowerUnary program lower op operand) SameValue := by
  refine .compute (keeps_lowerUnary (fun _ _ => trivial) operands op operand)
    fun outset count course sees => ?_
  unfold lowerUnary
  refine .orFault_bind fun expr found => ?_
  split
  · refine course.thenCompute mirrors (count + 2) (by omega) sees
      fun value result next course _ values => .of_bind_pure ?_
    refine course.thenDefine (fun _ => rfl) (fun _ => rfl)
      (fun more id counterpart within paired => .negate (.temp paired) (values.mono within))
      fun id counterpart next course _ paired => ?_
    exact course.finish (.temp paired)
  · exact .fail

theorem mirrors_lowerAssignment (left right : ExprId)
    (visible : ∀ id, usedVar? program (.binary .assign left right) = some id →
      InScope program locals id)
    (mirrors : MirrorsOperand program other dropped locals loops lower walk right) :
    Mirrors program other dropped (8 * (walk right).length + 1) [] (Tandem.Sees locals loops)
      (lowerAssignment program lower left right) (lowerAssignment program lower left right)
      SameValue := by
  refine .compute (keeps_lowerAssignment (fun _ _ => trivial) operands left right)
    fun outset count course sees => ?_
  unfold lowerAssignment
  refine .orFault_bind fun target found => ?_
  split
  · rename_i text decl isIdentifier
    refine course.thenCompute mirrors (count + 1) (by omega) sees
      fun value result next course _ values => .consult_bind fun address stored => ?_
    have inScope := visible decl (by simp [usedVar?, found, isIdentifier])
    rcases (course.sees sees).storageOf course.agrees inScope stored with
      ⟨mirrored, otherStored, addresses⟩
    refine ⟨mirrored, otherStored, ?_⟩
    refine course.thenAdd rfl rfl (.store addresses values) fun next course later => ?_
    exact course.finish (values.mono later.within)
  · exact .fail

omit operands in
theorem mirrors_emitOperation {op : Source.BinaryOp} {left : ExprId} {expr : Source.Expr}
    {operation : Operation} (found : program.expr? left = some expr)
    (means : operation? op expr.ty = some operation) (right : ExprId)
    (first second firstMirrored secondMirrored : Operand) :
    Mirrors program other dropped 4 [] (fun tandem => first.Pairs tandem.pairing firstMirrored ∧
        second.Pairs tandem.pairing secondMirrored) (emitOperation first second operation)
      (emitOperation firstMirrored secondMirrored operation) SameValue := by
  have keeps : ∀ first second, Computes program (fun _ => True) 4
      (emitOperation first second operation) _ := keeps_emitOperation found means right
  refine ⟨⟨_, keeps first second⟩, ⟨_, Keeps.elsewhere (keeps firstMirrored secondMirrored)⟩, ?_⟩
  rintro outset count course - - - - ⟨firsts, seconds⟩
  have start : Course program other dropped outset [] [] (count + 2 + 2) outset :=
    course.mono (by omega)
  have fewer := start.mono (Nat.le_add_right (count + 2) 2)
  cases operation with
  | arith operator =>
      refine .of_bind_pure (fewer.thenDefine (fun _ => rfl) (fun _ => rfl)
        (fun more id counterpart within paired => .arith (.temp paired) (firsts.mono within)
          (seconds.mono within)) fun id counterpart next course _ paired => ?_)
      exact course.finish (.temp paired)
  | compare condition =>
      refine .of_bind_pure (fewer.thenDefine (fun _ => rfl) (fun _ => rfl)
        (fun more id counterpart within paired => .compare (.temp paired) (firsts.mono within)
          (seconds.mono within)) fun id counterpart next course _ paired => ?_)
      exact course.finish (.temp paired)
  | concat =>
      refine .of_bind_pure (fewer.thenDefine (fun _ => rfl) (fun _ => rfl)
        (fun more id counterpart within paired => .call (.some (.temp paired))
          (.cons (firsts.mono within) (.cons (seconds.mono within) .nil)))
        fun id counterpart next course _ paired => ?_)
      exact course.finish (.temp paired)
  | compareStrings condition =>
      refine start.thenDefine (fun _ => rfl) (fun _ => rfl)
        (fun more id counterpart within paired => .call (.some (.temp paired))
          (.cons (firsts.mono within) (.cons (seconds.mono within) .nil)))
        fun order mirrored next course _ orders => ?_
      refine .of_bind_pure (course.thenDefine (fun _ => rfl) (fun _ => rfl)
        (fun more id counterpart within paired => .compare (.temp paired)
          (.temp (within.temps _ _ orders)) .constant) fun id counterpart next course _ paired => ?_)
      exact course.finish (.temp paired)

theorem mirrors_lowerBinary (op : Source.BinaryOp) (left right : ExprId)
    (visible : ∀ id, usedVar? program (.binary op left right) = some id → InScope program locals id)
    (mirrors : ∀ id ∈ operandsOf (.binary op left right),
      MirrorsOperand program other dropped locals loops lower walk id) :
    Mirrors program other dropped
      (8 * ((operandsOf (.binary op left right)).flatMap walk).length + 4) []
      (Tandem.Sees locals loops) (lowerBinary program lower op left right)
      (lowerBinary program lower op left right) SameValue := by
  refine .compute (keeps_lowerBinary (fun _ _ => trivial) operands op left right)
    fun outset count course sees => ?_
  unfold lowerBinary
  by_cases assigns : op = .assign
  · subst assigns
    rw [if_pos rfl]
    have cost : (operandsOf (.binary .assign left right)).flatMap walk = walk right := by
      simp [operandsOf]
    rw [cost] at course
    have start : Course program other dropped outset [] [] (8 * (walk right).length + 1 + count)
        outset := course.mono (by omega)
    refine .of_bind_pure (start.thenCompute (mirrors_lowerAssignment operands left right visible
      (mirrors right (by simp [operandsOf]))) count (Nat.le_refl _) sees
      fun value result next course _ values => ?_)
    exact course.finish values
  · have both : operandsOf (.binary op left right) = [left, right] := by
      simp [operandsOf, assigns]
    rw [both] at course mirrors
    simp only [List.flatMap_cons, List.flatMap_nil, List.append_nil, List.length_append] at course
    rw [if_neg assigns]
    refine .orFault_bind fun expr found => ?_
    cases means : operation? op expr.ty with
    | none => exact .fail
    | some operation =>
        refine course.thenCompute (mirrors left (by simp)) (8 * (walk right).length + (4 + count))
          (by omega) sees fun first firstMirrored next course _ firsts => ?_
        refine course.thenCompute (mirrors right (by simp)) (4 + count) (Nat.le_refl _)
          (course.sees sees) fun second secondMirrored next course later seconds => ?_
        refine .of_bind_pure (course.thenCompute (mirrors_emitOperation found means right first second
          firstMirrored secondMirrored) count (Nat.le_refl _) ⟨firsts.mono later.within, seconds⟩
          fun value result next course _ values => ?_)
        exact course.finish values

omit operands in
theorem Mirrors.some {cost : Nat} {starts : Tandem → Prop} {step : Lower Operand}
    (mirrors : Mirrors program other dropped cost [] starts step step SameValue) :
    Mirrors program other dropped cost [] starts (Option.some <$> step) (Option.some <$> step)
      SameOption := by
  rcases mirrors.keeps with ⟨traces, keeps⟩
  have computes : Computes program (fun _ => True) cost (Option.some <$> step)
      fun _ _ _ _ => True := by
    refine .start fun final session name place count fills => .map ?_
    refine (Computes.apply keeps final fills).mono fun value next arrives => ?_
    rcases arrives with ⟨after, filled, grows, _⟩
    exact ⟨after, filled, grows, fun _ => trivial⟩
  refine .compute computes fun outset count course ready => ?_
  have maps : Option.some <$> step = step >>= fun value => Pure.pure (Option.some value) := rfl
  rw [maps]
  refine course.thenCompute mirrors count (Nat.le_refl _) ready
    fun value result next course _ values => ?_
  exact course.finish (.some values)

theorem mirrors_lowerNode (node : ExprNode) (notText : ∀ text, node ≠ .stringLiteral text)
    (visible : ∀ id, usedVar? program node = some id → InScope program locals id)
    (mirrors : ∀ id ∈ operandsOf node,
      MirrorsOperand program other dropped locals loops lower walk id) :
    Mirrors program other dropped (8 * ((operandsOf node).flatMap walk).length + 4) []
      (Tandem.Sees locals loops) (lowerNode program lower node) (lowerNode program lower node)
      SameOption := by
  refine .compute (keeps_lowerNode (fun _ _ => trivial) operands node) fun outset count course sees => ?_
  cases node with
  | booleanLiteral value => exact course.finish (.some .constant)
  | integerLiteral value => exact course.finish (.some .constant)
  | stringLiteral text => exact absurd rfl (notText text)
  | identifier text decl =>
      refine .of_bind_pure (course.thenCompute (mirrors_lowerIdentifier (visible decl rfl)).some
        count (by omega) sees fun value result next course _ values => ?_)
      exact course.finish values
  | call callee args =>
      refine .of_bind_pure (course.thenCompute (mirrors_lowerCall operands callee args mirrors)
        count (by simp only [operandsOf]; omega) sees fun value result next course _ values => ?_)
      exact course.finish values
  | unary op operand =>
      refine .of_bind_pure (course.thenCompute (mirrors_lowerUnary operands op operand
        (mirrors operand (by simp [operandsOf]))).some count ?_ sees
        fun value result next course _ values => ?_)
      · simp only [operandsOf, List.flatMap_cons, List.flatMap_nil, List.append_nil]
        omega
      · exact course.finish values
  | binary op left right =>
      refine .of_bind_pure (course.thenCompute (mirrors_lowerBinary operands op left right visible
        mirrors).some count (Nat.le_refl _) sees fun value result next course _ values => ?_)
      exact course.finish values

end Forms

/-! ## Whole expressions -/

section Whole

variable {program other : Program} {dropped : ExprId → Prop} {locals : List VarId}
  {loops : List StmtId}

theorem Session.Builds.recordText {session : Session} {name : String} {place : Code.Place}
    (builds : session.Builds name place) (id : ExprId) (value : Operand) (text : String) :
    (Link.recordText session id value text).Builds name place :=
  ⟨builds.position, builds.body⟩

/-- The text of a literal becomes data on both sides, and the two objects are paired. -/
theorem follows_lowerText {outset : Tandem} {count : Nat}
    (course : Course program other dropped outset [] [] (2 + count) outset) {id : ExprId}
    {text : String} (isText : textOf? program id = some text) :
    (Link.lowerText id text).Follows (Link.lowerText id text) outset fun value result ended =>
      outset.Comes program dropped ended ∧ SameOption value result ended := by
  have agrees := course.agrees
  have lowers := Link.lowerText_eq agrees.builds id text
  have lowersOther := Link.lowerText_eq agrees.otherBuilds id text
  intro value next runs
  cases unknown : outset.session.annotations.values.contains id with
  | true =>
      rw [lowers, unknown, if_pos rfl] at runs
      cases runs
  | false =>
      rw [lowers, unknown, if_neg Bool.false_ne_true] at runs
      cases runs
      have shadows := agrees.shadows.recordText isText unknown (.temp outset.place.ready.freshTemp)
        (.temp outset.counterpart.ready.freshTemp)
      rw [agrees.shadows.unrecorded unknown, if_neg Bool.false_ne_true] at lowersOther
      have within := outset.pairing.within_addData ⟨outset.session.cursor.module.nextData⟩
        ⟨outset.shadow.cursor.module.nextData⟩
      have moreData : outset.place.Pairs _ outset.counterpart :=
        ⟨agrees.pairs.agrees.moreData within rfl rfl, agrees.pairs.live⟩
      have pairs : (outset.place.ready.define StringLibrary.stringType
          (Link.stringCall outset.session)).Pairs _ (outset.counterpart.ready.define
            StringLibrary.stringType (Link.stringCall outset.shadow)) :=
        moreData.readyDefine course.stage.fit.regular course.otherStage.fit.regular
          course.stage.fit.room course.otherStage.fit.room
          fun more id counterpart further paired => .call (.some (.temp paired))
            (.cons (.data (further.data _ _ (.inr ⟨rfl, rfl⟩))) .nil)
      exact ⟨_, ⟨outset.name, _, _, _, _, _⟩, lowersOther, rfl,
        ⟨rfl, within.trans (Pairing.within_addTemp _ _ _), (agrees.builds.recordText _ _ _).put _,
          (agrees.otherBuilds.recordText _ _ _).put _, pairs,
          shadows.put rfl pairs.agrees outset.name⟩, .some (.temp (.inr ⟨rfl, rfl⟩))⟩

theorem mirrors_lowerExprWithin (depth : Nat) (id : ExprId)
    (visible : SeesAll program locals (walkExprWithin program depth id)) :
    Mirrors program other dropped (8 * (walkExprWithin program depth id).length) []
      (Tandem.Sees locals loops) (lowerExprWithin program depth id)
      (lowerExprWithin program depth id) SameOption := by
  induction depth generalizing id with
  | zero =>
      exact .compute (keeps_lowerExprWithin (fun _ _ => trivial) 0 id) fun _ _ _ _ => .fail
  | succ depth induction =>
      have operands : ∀ operand, Computes program (fun _ => True) _ _ _ := fun operand =>
        keeps_operand (fun _ _ => trivial) (keeps_lowerExprWithin (fun _ _ => trivial) depth operand)
      refine .compute (keeps_lowerExprWithin (fun _ _ => trivial) (depth + 1) id)
        fun outset count course sees => ?_
      unfold lowerExprWithin
      refine .orFault_bind fun expr found => ?_
      simp only [walkExprWithin, found, List.length_cons] at course visible
      by_cases isText : ∃ text, expr.node = .stringLiteral text
      · rcases isText with ⟨text, node⟩
        rw [node]
        have start : Course program other dropped outset [] [] (2 + count) outset :=
          course.mono (by omega)
        exact follows_lowerText start (textOf?_eq_some.mpr ⟨expr.ty, by rw [found, ← node]⟩)
      · have noText : textOf? program id = none := by
          refine Option.eq_none_iff_forall_ne_some.mpr fun text isLiteral => isText ⟨text, ?_⟩
          rcases textOf?_eq_some.mp isLiteral with ⟨ty, known⟩
          cases found.symm.trans known
          rfl
        have mirrors : ∀ operand ∈ operandsOf expr.node, MirrorsOperand program other dropped locals
            loops (fun operand => do requireValue operand (← lowerExprWithin program depth operand))
            (walkExprWithin program depth) operand := by
          intro operand member
          have part : walkExprWithin program depth operand ⊆ Node.expr id ::
              (operandsOf expr.node).flatMap (walkExprWithin program depth) :=
            fun node isNode => List.mem_cons_of_mem _ (List.mem_flatMap.mpr ⟨operand, member, isNode⟩)
          refine .compute (operands operand) fun outset count course sees => ?_
          refine course.thenCompute (induction operand (visible.mono part)) count (Nat.le_refl _)
            sees fun value result next course _ values => ?_
          cases values with
          | none => exact .fail
          | some pairs => exact course.finish pairs
        have reads : ∀ var, usedVar? program expr.node = some var → InScope program locals var :=
          fun var uses => visible var (List.mem_filterMap.mpr
            ⟨.expr id, List.mem_cons_self, by simp [Node.uses?, found, uses]⟩)
        refine course.thenCompute (mirrors_lowerNode operands expr.node
          (fun text node => isText ⟨text, node⟩) reads mirrors) count (by omega) sees
          fun value result next course _ values => ?_
        refine course.thenRecord noText values fun next course later => ?_
        exact course.finish (Operand.Pairs.mono_option later.within values)

theorem mirrors_lowerExpr {id : ExprId} (visible : SeesAll program locals (walkExpr program id)) :
    Mirrors program other dropped (8 * (walkExpr program id).length) [] (Tandem.Sees locals loops)
      (lowerExpr program id) (lowerExpr program id) SameOption :=
  mirrors_lowerExprWithin _ id visible

theorem mirrors_lowerValue {id : ExprId} (visible : SeesAll program locals (walkExpr program id)) :
    Mirrors program other dropped (8 * (walkExpr program id).length) [] (Tandem.Sees locals loops)
      (lowerValue program id) (lowerValue program id) SameValue := by
  refine .compute (keeps_lowerValue (fun _ _ => trivial) id) fun outset count course sees => ?_
  refine course.thenCompute (mirrors_lowerExpr visible) count (Nat.le_refl _) sees
    fun value result next course _ values => ?_
  cases values with
  | none => exact .fail
  | some pairs => exact course.finish pairs

theorem mirrors_lowerEffect {id : ExprId} (visible : SeesAll program locals (walkExpr program id)) :
    Mirrors program other dropped (8 * (walkExpr program id).length) [] (Tandem.Sees locals loops)
      (do let _ ← lowerExpr program id) (do let _ ← lowerExpr program id) fun _ _ _ => True := by
  refine .compute (keeps_lowerEffect (fun _ _ => trivial) id) fun outset count course sees => ?_
  refine course.thenCompute (mirrors_lowerExpr visible) count (Nat.le_refl _) sees
    fun value result next course _ _ => ?_
  exact course.finish trivial

theorem mirrors_lowerExprs (ids : List ExprId)
    (visible : SeesAll program locals (ids.flatMap (walkExpr program))) :
    Mirrors program other dropped (8 * (ids.flatMap (walkExpr program)).length) []
      (Tandem.Sees locals loops) (ids.forM fun id => do let _ ← lowerExpr program id)
      (ids.forM fun id => do let _ ← lowerExpr program id) fun _ _ _ => True := by
  refine .compute (keeps_lowerExprs (fun _ _ => trivial) ids) ?_
  induction ids with
  | nil => exact fun outset count course _ => course.finish trivial
  | cons id ids induction =>
      intro outset count course sees
      rw [List.flatMap_cons] at visible
      have rest : SeesAll program locals (ids.flatMap (walkExpr program)) :=
        visible.mono (List.subset_append_right _ _)
      have mirrorsRest : Mirrors program other dropped _ [] (Tandem.Sees locals loops) _ _ _ :=
        .compute (keeps_lowerExprs (fun _ _ => trivial) ids) (induction rest)
      rw [List.flatMap_cons, List.length_append, Nat.mul_add] at course
      rw [Lower.forM_cons]
      refine course.thenCompute (mirrors_lowerEffect (visible.mono (List.subset_append_left _ _)))
        (8 * (ids.flatMap (walkExpr program)).length + count) (by omega) sees
        fun _ _ next course _ _ => ?_
      refine .of_bind_pure (course.thenCompute mirrorsRest count (Nat.le_refl _) (course.sees sees)
        fun _ _ next course _ _ => ?_)
      exact course.finish trivial

end Whole

end ScriptLowering.Lowering
