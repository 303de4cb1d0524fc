import ScriptLowering.Proofs.DataNumbers
import ScriptLowering.Proofs.LoweringMarks
import ScriptLowering.Proofs.HistoryReplay
import ScriptLowering.Proofs.StraightLineCode

/-! # Values of expressions

An expression is lowered in the block at the cursor, and its value can be used there: it is a constant or
a temp of that block. Its type is the one that the expression is annotated with, wherever the cursor
stands and whatever has been lowered before.
-/

namespace ScriptLowering.Code

/-! ## What stands at a cursor -/

/-- The block that the cursor stands in. -/
def Cursor.blockHere? (cursor : Cursor) : Option Block :=
  match cursor.currentBody with
  | .ok body => cursor.position.block.bind body.block?
  | .error _ => none

/-- The value is a constant or a temp of the open block at the cursor, and it has the type in the function
at the cursor. -/
inductive Cursor.Holds (cursor : Cursor) : Operand → Ty → Prop
  | constant {value : Constant} {ty : Ty} (typed : value.ty? = some ty) :
      cursor.Holds (.constant value) ty
  | temp {id : TempId} {ty : Ty} {function : Function} {block : Block} {instruction : Instruction}
      (isOpen : cursor.hasOpenBlock = true) (isFunction : cursor.currentFunction = .ok function)
      (isBlock : cursor.blockHere? = some block) (isInside : instruction ∈ block.instructions)
      (defines : instruction.result? = some (.temp id))
      (typed : function.typeOf? (.temp id) = some ty) : cursor.Holds (.temp id) ty

/-- The cursor is where it was, in an open block that has gained instructions at its end. -/
structure Cursor.Stays (cursor next : Cursor) : Prop where
  position : next.position = cursor.position
  isOpen : next.hasOpenBlock = true
  gains : ∃ block more, cursor.blockHere? = some block ∧
    next.blockHere? = some { block with instructions := block.instructions ++ more }

/-- The temps of the function at the cursor have numbers of their own. -/
def Cursor.HasTempNumbers (cursor : Cursor) : Prop :=
  ∀ body, cursor.currentBody = .ok body → body.temps.size ≤ 2 ^ 32

section Builds

variable {cursor : Cursor} {name : String} {place : Place}

theorem Cursor.Builds.blockHere? (builds : cursor.Builds name place) : cursor.blockHere? = place.current? := by
  simp only [Cursor.blockHere?, builds.currentBody, builds.position, Place.current?]

theorem Cursor.Builds.hasTempNumbers_iff (builds : cursor.Builds name place) :
    cursor.HasTempNumbers ↔ place.body.temps.size ≤ 2 ^ 32 := by
  simp only [Cursor.HasTempNumbers, builds.currentBody, Except.ok.injEq, forall_eq']

theorem Cursor.exists_builds {body : Body} (isBody : cursor.currentBody = .ok body) :
    ∃ name place, cursor.Builds name place := by
  rcases bind_eq_ok.mp isBody with ⟨function, isFunction, _⟩
  rcases bind_eq_ok.mp isFunction with ⟨name, isName, isFunction⟩
  unfold Cursor.currentName at isName
  split at isName
  · rename_i named
    cases isName
    split at isFunction
    · rename_i found
      have position : cursor.position = ⟨some name, cursor.position.block⟩ := by rw [← named]
      exact ⟨name, ⟨_, cursor.position.block⟩, position, _, found, rfl⟩
    · cases isFunction
  · cases isName

theorem Cursor.exists_builds_of_hasOpenBlock (isOpen : cursor.hasOpenBlock = true) :
    ∃ name place, cursor.Builds name place := by
  cases isBody : cursor.currentBody with
  | ok body => exact exists_builds isBody
  | error error =>
      unfold Cursor.hasOpenBlock Cursor.isTerminated at isOpen
      rw [isBody] at isOpen
      cases stands : cursor.position.block <;> rw [stands] at isOpen <;> cases isOpen

theorem Cursor.exists_builds_of_ready {next : Cursor} (readies : cursor.ready = .ok next) :
    ∃ name place, cursor.Builds name place := by
  unfold Cursor.ready at readies
  split at readies
  · rename_i isOpen
    exact exists_builds_of_hasOpenBlock isOpen
  · rcases bind_eq_ok.mp readies with ⟨_, creates, _⟩
    rcases bind_eq_ok.mp creates with ⟨_, _, creates⟩
    rcases bind_eq_ok.mp creates with ⟨body, isBody, _⟩
    exact exists_builds isBody

end Builds

/-! ## Places that gain instructions -/

namespace Place

variable {place middle after : Place} {id : TempId} {ty : Ty}

/-- Temps have been added, and if the place has been open, instructions have been added to its block. -/
structure Grows (place after : Place) : Prop where
  temps : ∃ more, after.body.temps = place.body.temps ++ more
  stays : place.isOpen = true → after.block = place.block ∧ after.isOpen = true ∧
    ∀ block, place.current? = some block →
      ∃ more, after.current? = some { block with instructions := block.instructions ++ more }

theorem Grows.refl (place : Place) : place.Grows place :=
  ⟨⟨#[], by simp⟩, fun isOpen => ⟨rfl, isOpen, fun block found => ⟨[], by simp [found]⟩⟩⟩

theorem Grows.trans (first : place.Grows middle) (second : middle.Grows after) : place.Grows after where
  temps := by
    rcases first.temps with ⟨more, grows⟩
    rcases second.temps with ⟨others, growsMore⟩
    exact ⟨more ++ others, by rw [growsMore, grows, Array.append_assoc]⟩
  stays := by
    intro isOpen
    rcases first.stays isOpen with ⟨stands, isMiddleOpen, gains⟩
    rcases second.stays isMiddleOpen with ⟨standsStill, isAfterOpen, gainsMore⟩
    refine ⟨standsStill.trans stands, isAfterOpen, fun block found => ?_⟩
    rcases gains block found with ⟨more, foundMiddle⟩
    rcases gainsMore _ foundMiddle with ⟨others, foundAfter⟩
    exact ⟨more ++ others, by rw [foundAfter, List.append_assoc]⟩

theorem Grows.size_le (grows : place.Grows after) : place.body.temps.size ≤ after.body.temps.size := by
  rcases grows.temps with ⟨more, same⟩
  rw [same, Array.size_append]
  exact Nat.le_add_right _ _

theorem grows_ready (place : Place) : place.Grows place.ready := by
  cases isOpen : place.isOpen with
  | true =>
      rw [Lowering.ready_of_isOpen isOpen]
      exact .refl place
  | false =>
      refine ⟨⟨#[], ?_⟩, fun isOpen' => absurd (isOpen.symm.trans isOpen') Bool.false_ne_true⟩
      simp [Place.ready, isOpen, Place.create, Body.createBlock]

theorem current?_add {block : Block} (found : place.current? = some block) (instruction : Instruction) :
    (place.add instruction).current? =
      some { block with instructions := block.instructions ++ [instruction] } := by
  rcases Option.bind_eq_some_iff.mp found with ⟨id, stands, isBlock⟩
  rw [current?, add, block_change, stands, Option.bind_some, block?_change stands, if_pos rfl, isBlock]
  rfl

theorem grows_add (isOpen : place.isOpen = true) (instruction : Instruction) :
    place.Grows (place.add instruction) :=
  ⟨⟨#[], by rw [add, temps_change, Array.append_empty]⟩, fun _ => ⟨block_change _ _, isOpen_add isOpen instruction,
    fun _ found => ⟨[instruction], current?_add found instruction⟩⟩⟩

theorem grows_define (isOpen : place.isOpen = true) (ty : Ty) (make : Operand → Instruction) :
    place.Grows (place.define ty make) := by
  have takes : place.Grows (place.takeTemp ty) :=
    ⟨⟨#[ty], rfl⟩, fun _ => ⟨rfl, isOpen, fun block found => ⟨[], by
      rw [List.append_nil]
      exact found⟩⟩⟩
  have taken : (place.takeTemp ty).isOpen = true := isOpen
  exact takes.trans (grows_add taken _)

/-- The place is open, and an instruction of its block defines the temp, which has the type. -/
structure Bears (place : Place) (id : TempId) (ty : Ty) : Prop where
  isOpen : place.isOpen = true
  defined : ∃ block instruction, place.current? = some block ∧ instruction ∈ block.instructions ∧
    instruction.result? = some (.temp id)
  typed : place.body.tempType? id = some ty

theorem Bears.grow (bears : place.Bears id ty) (grows : place.Grows after) : after.Bears id ty where
  isOpen := (grows.stays bears.isOpen).2.1
  defined := by
    rcases bears.defined with ⟨block, instruction, found, isInside, defines⟩
    rcases (grows.stays bears.isOpen).2.2 block found with ⟨more, foundAfter⟩
    exact ⟨_, instruction, foundAfter, List.mem_append_left _ isInside, defines⟩
  typed := by
    rcases grows.temps with ⟨more, same⟩
    rcases Array.getElem?_eq_some_iff.mp bears.typed with ⟨bound, isTy⟩
    rw [Body.tempType?, same, Array.getElem?_append_left bound]
    exact bears.typed

theorem bears_define (isOpen : place.isOpen = true) {make : Operand → Instruction}
    (defines : (make (.temp place.freshTemp)).result? = some (.temp place.freshTemp))
    (few : (place.define ty make).body.temps.size ≤ 2 ^ 32) :
    (place.define ty make).Bears place.freshTemp ty where
  isOpen := isOpen_define isOpen ty make
  defined := by
    rcases exists_of_isOpen isOpen with ⟨id, block, stands, found, _⟩
    have isCurrent : (place.takeTemp ty).current? = some block := by
      rw [current?]
      exact (congrArg (Option.bind · _) stands).trans found
    exact ⟨_, _, current?_add isCurrent _, List.mem_append_right _ List.mem_cons_self, defines⟩
  typed := by
    have temps : (place.define ty make).body.temps = place.body.temps.push ty := temps_change _ _
    rw [temps, Array.size_push] at few
    rw [Body.tempType?, temps, freshTemp, Lowering.toNat_toUInt32 (by omega), Array.getElem?_push_size]

theorem holds_iff_bears {cursor : Cursor} {name : String} (builds : cursor.Builds name place) :
    cursor.Holds (.temp id) ty ↔ place.Bears id ty := by
  rcases builds.body with ⟨function, found, body⟩
  have here : cursor.currentFunction = .ok function := by
    simp [Cursor.currentFunction, builds.currentName, found, bind, Except.bind]
  constructor
  · rintro (_ | ⟨isOpen, isFunction, isBlock, isInside, defines, typed⟩)
    cases here.symm.trans isFunction
    refine ⟨builds.hasOpenBlock.symm.trans isOpen,
      ⟨_, _, builds.blockHere?.symm.trans isBlock, isInside, defines⟩, ?_⟩
    rw [← body]
    exact typed
  · rintro ⟨isOpen, ⟨block, instruction, isBlock, isInside, defines⟩, typed⟩
    refine .temp (builds.hasOpenBlock.trans isOpen) here (builds.blockHere?.trans isBlock) isInside defines ?_
    rw [Function.typeOf?, body]
    exact typed

theorem Grows.stays_of_builds {cursor next : Cursor} {name : String} (grows : place.Grows after)
    (builds : cursor.Builds name place) (buildsNext : next.Builds name after)
    (isOpen : cursor.hasOpenBlock = true) : cursor.Stays next := by
  rw [builds.hasOpenBlock] at isOpen
  rcases grows.stays isOpen with ⟨stands, isAfterOpen, gains⟩
  rcases exists_of_isOpen isOpen with ⟨id, block, isBlock, found, _⟩
  have isCurrent : place.current? = some block := by
    rw [current?, isBlock]
    exact found
  rcases gains block isCurrent with ⟨more, gained⟩
  exact ⟨by rw [buildsNext.position, builds.position, stands], buildsNext.hasOpenBlock.trans isAfterOpen,
    block, more, builds.blockHere?.trans isCurrent, buildsNext.blockHere?.trans gained⟩

end Place

end ScriptLowering.Code

namespace ScriptLowering.Lowering

open Source (BinaryOp Expr ExprId ExprNode FuncId FunctionDecl Program VarDecl VarId)
open Code (Instruction Operand Place Ty)

/-! ## Annotations -/

/-- The node is what the type says. The operators are those that are supported, between operands of one
type, and both sides of an assignment have the same type. -/
inductive Annotates (program : Program) : ExprNode → Source.Ty → Prop
  | booleanLiteral {value : Bool} : Annotates program (.booleanLiteral value) .boolean
  | integerLiteral {value : Int64} : Annotates program (.integerLiteral value) .integer
  | stringLiteral {text : String} : Annotates program (.stringLiteral text) .string
  | identifier {name : String} {id : VarId} {decl : VarDecl} (found : program.var? id = some decl) :
      Annotates program (.identifier name id) decl.ty
  | call {args : List ExprId} {id : FuncId} {decl : FunctionDecl}
      (found : program.function? id = some decl) :
      Annotates program (.call decl.name args) (decl.returns.getD .void)
  | negate {operand : ExprId} {inner : Expr} (found : program.expr? operand = some inner)
      (ofInteger : inner.ty = .integer) : Annotates program (.unary .minus operand) .integer
  | assign {left right : ExprId} {target value : Expr} (targets : program.expr? left = some target)
      (found : program.expr? right = some value) (same : target.ty = value.ty) :
      Annotates program (.binary .assign left right) value.ty
  | binary {op : BinaryOp} {left right : ExprId} {first second : Expr} {result : Source.Ty}
      (foundLeft : program.expr? left = some first) (foundRight : program.expr? right = some second)
      (same : first.ty = second.ty) (means : resultType? op first.ty = some result) :
      Annotates program (.binary op left right) result

/-- The expressions among the nodes are annotated with their types. -/
def AllAnnotated (program : Program) (nodes : List Node) : Prop :=
  ∀ id expr, .expr id ∈ nodes → program.expr? id = some expr → Annotates program expr.node expr.ty

/-- As far as the functions of the program are there, they return what they are declared to return. -/
def Session.Signs (program : Program) (session : Session) : Prop :=
  ∀ id decl function, program.function? id = some decl →
    session.cursor.module.function? decl.name = some function →
      function.signature.returns = returnType decl.returns

theorem signs_of_signed {program : Program} {options : Options} {declared : Code.Module}
    {session : Session} (declares : declareAll program options = .ok declared)
    (signed : (Session.start (.ofModule declared)).Signed session) : session.Signs program := by
  intro id decl function isDecl found
  rcases (declared_of_declareAll declares).functions id decl isDecl with ⟨signature, isSignature, isThere⟩
  have same := signed decl.name
  rw [found, show (Session.start (.ofModule declared)).cursor.module.function? decl.name = _ from isThere]
    at same
  rcases Code.bind_eq_ok.mp isSignature with ⟨params, _, made⟩
  cases made
  exact congrArg Code.Signature.returns (Option.some.inj same)

/-! ## Steps -/

/-- From the session on, the value of the step has the type. -/
def Session.Yields (session : Session) (step : Lower Operand) (ty : Ty) : Prop :=
  step.Ensures session (fun value next => next.cursor.HasTempNumbers → next.cursor.Holds value ty)
    fun _ => True

section Steps

variable {session next : Session} {ty : Ty}

theorem Session.Yields.after {α : Type} {step : Lower α} {rest : α → Lower Operand}
    (yields : ∀ value middle, Session.Yields middle (rest value) ty) : session.Yields (step >>= rest) ty :=
  (Lower.Ensures.self step session).bind fun value middle _ => yields value middle

theorem exists_builds_of_build_ready (readies : Lower.build Code.Cursor.ready session = .ok ((), next)) :
    ∃ name place, session.Builds name place := by
  unfold Lower.build at readies
  split at readies
  · rename_i isReady
    exact Code.Cursor.exists_builds_of_ready isReady
  · cases readies

theorem Session.Yields.define {make : Operand → Instruction}
    (defines : ∀ result, (make result).result? = some result) :
    session.Yields (Lower.emit fun cursor => cursor.define ty make) ty := by
  cases outcome : Lower.emit (fun cursor => cursor.define ty make) session with
  | error error => exact .of_error outcome trivial
  | ok pair =>
      rcases Lower.bind_eq_ok.mp outcome with ⟨_, _, readies, _⟩
      rcases exists_builds_of_build_ready readies with ⟨name, place, builds⟩
      refine .of_ok (emit_define_eq builds ty make) fun few => ?_
      have standing := builds.put (place.ready.define ty make)
      exact (Place.holds_iff_bears standing).mpr (Place.bears_define (isOpen_ready place) (defines _)
        ((Code.Cursor.Builds.hasTempNumbers_iff standing).mp few))

theorem Session.Yields.emitOperation {op : BinaryOp} {ty result : Source.Ty} {operation : Operation}
    (means : resultType? op ty = some result) (becomes : operation? op ty = some operation)
    (left right : Operand) : session.Yields (Lowering.emitOperation left right operation) (codeType result) := by
  cases op <;> cases ty <;> cases means <;> cases becomes <;>
    first
    | exact .define fun _ => rfl
    | exact .after fun _ _ => .define fun _ => rfl

theorem ensures_store {value : Operand} (address : Operand) (holds : session.cursor.HasTempNumbers →
      session.cursor.Holds value ty) :
    (Lower.append fun cursor => cursor.store address value).Ensures session
      (fun _ next => next.cursor.HasTempNumbers → next.cursor.Holds value ty) fun _ => True := by
  cases outcome : Lower.append (fun cursor => cursor.store address value) session with
  | error error => exact .of_error outcome trivial
  | ok pair =>
      rcases Lower.bind_eq_ok.mp outcome with ⟨_, _, readies, _⟩
      rcases exists_builds_of_build_ready readies with ⟨name, place, builds⟩
      refine .of_ok (append_add_eq builds (.store address value)) fun few => ?_
      have grows := place.grows_ready.trans (Place.grows_add (isOpen_ready place) (.store address value))
      have standing := builds.put (place.ready.add (.store address value))
      have fewBefore : session.cursor.HasTempNumbers := (Code.Cursor.Builds.hasTempNumbers_iff builds).mpr
        (Nat.le_trans grows.size_le ((Code.Cursor.Builds.hasTempNumbers_iff standing).mp few))
      cases holds fewBefore with
      | constant typed => exact .constant typed
      | temp isOpen isFunction isBlock isInside defines typed =>
          have bears := (Place.holds_iff_bears builds).mp
            (.temp isOpen isFunction isBlock isInside defines typed)
          exact (Place.holds_iff_bears standing).mpr (bears.grow grows)

end Steps

/-! ## Expressions -/

section Expressions

variable {program : Program} {session : Session} {lower : ExprId → Lower Operand}

theorem ensures_lowerCall_holds {id : FuncId} {decl : FunctionDecl} (signs : session.Signs program)
    (found : program.function? id = some decl) (args : List ExprId) :
    (lowerCall lower decl.name args).Ensures session (fun value next => ∀ operand, value = some operand →
      next.cursor.HasTempNumbers → next.cursor.Holds operand (returnType decl.returns)) fun _ => True := by
  have looks : Lower.cursor session = .ok (session.cursor, session) := rfl
  refine .bind_ok looks ?_
  cases isThere : session.cursor.module.function? decl.name with
  | none => exact .of_error rfl trivial
  | some function =>
      rw [← signs id decl function found isThere]
      dsimp only
      split
      · refine (Lower.Ensures.self _ session).bind fun values middle _ => ?_
        cases outcome : Lower.emit (fun cursor =>
            cursor.call decl.name function.signature.returns values) middle with
        | error error => exact .of_error outcome trivial
        | ok pair =>
            rcases Lower.bind_eq_ok.mp outcome with ⟨_, _, readies, _⟩
            rcases exists_builds_of_build_ready readies with ⟨name, place, builds⟩
            have runs := emit_call_eq builds decl.name function.signature.returns values
            split at runs
            · exact .of_ok runs fun _ same => by cases same
            · refine .of_ok runs ?_
              rintro _ ⟨⟩ few
              have standing := builds.put (place.ready.define function.signature.returns
                fun result => .call (some result) decl.name values)
              exact (Place.holds_iff_bears standing).mpr (Place.bears_define (isOpen_ready place) rfl
                ((Code.Cursor.Builds.hasTempNumbers_iff standing).mp few))
      · exact .of_error rfl trivial

theorem yields_lowerAssignment {left right : ExprId} {value : Expr}
    (yields : session.Yields (lower right) (codeType value.ty)) :
    session.Yields (lowerAssignment program lower left right) (codeType value.ty) := by
  refine .orFault_bind (fun _ => trivial) fun target _ => ?_
  split
  · refine yields.bind fun stored middle holds => ?_
    refine .consult_bind (fun _ _ => trivial) fun address _ => ?_
    exact (ensures_store address holds).bind fun _ next holds => .pure holds
  · exact .of_error rfl trivial

theorem ensures_lowerNode_holds {node : ExprNode} {ty : Source.Ty} (signs : session.Signs program)
    (annotates : Annotates program node ty)
    (yields : ∀ operand ∈ operandsOf node, ∀ expr, program.expr? operand = some expr →
      session.Yields (lower operand) (codeType expr.ty)) :
    (lowerNode program lower node).Ensures session (fun value next => ∀ operand, value = some operand →
      next.cursor.HasTempNumbers → next.cursor.Holds operand (codeType ty)) fun _ => True := by
  have valued {step : Lower Operand} {ty : Ty} (yields : session.Yields step ty) :
      (some <$> step).Ensures session (fun value next => ∀ operand, value = some operand →
        next.cursor.HasTempNumbers → next.cursor.Holds operand ty) fun _ => True := by
    refine .map (yields.mono fun value next holds => ?_)
    rintro _ ⟨⟩
    exact holds
  cases annotates with
  | booleanLiteral | integerLiteral =>
      refine .pure ?_
      rintro _ ⟨⟩ _
      exact .constant rfl
  | stringLiteral => exact valued (.after fun _ _ => .define fun _ => rfl)
  | @identifier name id decl found =>
      refine valued ?_
      refine .orFault_bind (fun _ => trivial) fun other otherFound => ?_
      cases found.symm.trans otherFound
      exact Session.Yields.after fun _ _ => .define fun _ => rfl
  | call found => exact ensures_lowerCall_holds signs found _
  | negate found ofInteger =>
      refine valued ?_
      refine .orFault_bind (fun _ => trivial) fun _ _ => ?_
      split
      · exact Session.Yields.after fun _ _ => .define fun _ => rfl
      · exact .of_error rfl trivial
  | @assign left right target value targets found same =>
      have assigns : session.Yields (lowerAssignment program lower left right) (codeType value.ty) :=
        yields_lowerAssignment (yields right (by simp [operandsOf]) value found)
      exact valued (by simpa [lowerBinary] using assigns)
  | @binary op left right first second result foundLeft foundRight same means =>
      refine valued ?_
      have notAssign : op ≠ .assign := by
        rintro rfl
        cases means
      unfold lowerBinary
      rw [if_neg notAssign]
      refine .orFault_bind (fun _ => trivial) fun expr found => ?_
      cases foundLeft.symm.trans found
      split
      · exact .of_error rfl trivial
      · rename_i becomes
        exact Session.Yields.after fun leftValue _ => .after fun rightValue _ => .emitOperation means becomes _ _

theorem ensures_lowerExprWithin_holds (depth : Nat) {id : ExprId} {expr : Expr}
    (found : program.expr? id = some expr)
    (annotated : AllAnnotated program (walkExprWithin program depth id)) (signs : session.Signs program) :
    (lowerExprWithin program depth id).Ensures session (fun value next => ∀ operand,
      value = some operand → next.cursor.HasTempNumbers → next.cursor.Holds operand (codeType expr.ty))
      fun _ => True := by
  induction depth generalizing session id expr with
  | zero => exact .of_error rfl trivial
  | succ depth induction =>
      have walk : walkExprWithin program (depth + 1) id =
          .expr id :: (operandsOf expr.node).flatMap (walkExprWithin program depth) := by
        simp only [walkExprWithin, found]
      rw [walk] at annotated
      refine .orFault_bind (fun _ => trivial) fun other otherFound => ?_
      cases found.symm.trans otherFound
      have annotates := annotated id expr List.mem_cons_self found
      refine (ensures_lowerNode_holds signs annotates fun operand isOperand inner innerFound => ?_).bind
        fun value middle holds => ?_
      · have inside : AllAnnotated program (walkExprWithin program depth operand) :=
          fun other expr member => annotated other expr
            (List.mem_cons_of_mem _ (List.mem_flatMap.mpr ⟨operand, isOperand, member⟩))
        refine (induction innerFound inside signs).bind fun value middle holds => ?_
        cases value with
        | none => exact .of_error rfl trivial
        | some value => exact .pure (holds value rfl)
      · refine (Lower.Ensures.self (recordValue id value) middle).bind fun _ next records => .pure ?_
        rw [(recordValue_eq_ok records).1]
        exact holds

end Expressions

/-! ## Staying in the block -/

section Staying

variable {program : Program} {session next : Session} {name : String} {place : Place}

def Session.HasGrown (name : String) (place : Place) (session : Session) : Prop :=
  ∃ after, session.Builds name after ∧ place.Grows after

theorem stable_hasGrown (name : String) (place : Place) : Session.Stable (Session.HasGrown name place) where
  stands := by
    rintro session ⟨after, builds, _⟩
    exact ⟨name, after, builds⟩
  learn := by
    rintro session next ⟨after, builds, grows⟩ position functions _
    refine ⟨after, ⟨position.trans builds.position, ?_⟩, grows⟩
    rcases builds.body with ⟨function, found, body⟩
    refine ⟨function, ?_, body⟩
    rw [Code.Module.function?, functions]
    exact found
  add := by
    rintro session other here ⟨after, builds, grows⟩ buildsHere instruction
    cases builds.name_unique buildsHere
    cases builds.unique buildsHere
    exact ⟨_, builds.put _, (grows.trans here.grows_ready).trans
      (Place.grows_add (isOpen_ready here) instruction)⟩
  define := by
    rintro session other here ⟨after, builds, grows⟩ buildsHere ty make
    cases builds.name_unique buildsHere
    cases builds.unique buildsHere
    exact ⟨_, builds.put _, (grows.trans here.grows_ready).trans
      (Place.grows_define (isOpen_ready here) ty make)⟩

/-- An expression is lowered in the block at the cursor. -/
theorem stays_of_lowerExpr {id : ExprId} {value : Option Operand}
    (lowers : lowerExpr program id session = .ok (value, next))
    (isOpen : session.cursor.hasOpenBlock = true) : session.cursor.Stays next.cursor := by
  rcases Code.Cursor.exists_builds_of_hasOpenBlock isOpen with ⟨name, place, builds⟩
  have start : session.HasGrown name place := ⟨place, builds, .refl place⟩
  rcases (straight_lowerExpr id _ (stable_hasGrown name place) session start).post_of_ok lowers with
    ⟨after, buildsNext, grows⟩
  exact grows.stays_of_builds builds buildsNext isOpen

end Staying

/-- Lowering an expression whose parts are annotated with their types, from any cursor. Only a call of a
function that returns nothing has no value. Any other value is a constant or a temp of the block at the
cursor, and it has the type of the expression. If the cursor has stood in an open block, it still stands
there, and the block is open and has gained instructions at its end. -/
theorem expressions_are_typed_and_stay {program : Program} {session next : Session} {id : ExprId}
    {expr : Expr} {value : Option Operand} (found : program.expr? id = some expr)
    (annotated : AllAnnotated program (walkExpr program id)) (signs : session.Signs program)
    (lowers : lowerExpr program id session = .ok (value, next)) (few : next.cursor.HasTempNumbers) :
    (value = none → ∃ callee args function, expr.node = .call callee args ∧
      session.cursor.module.function? callee = some function ∧ function.signature.returns = .void) ∧
    (∀ operand, value = some operand → next.cursor.Holds operand (codeType expr.ty)) ∧
    (session.cursor.hasOpenBlock = true → session.cursor.Stays next.cursor) := by
  refine ⟨fun isNone => ?_, fun operand isSome => ?_, stays_of_lowerExpr lowers⟩
  · have facts := (ensures_lowerExprWithin _ id (.refl session)).post_of_ok lowers
    rcases facts.2.mp isNone with ⟨callee, args, ty, isCall, function, isThere, isVoid⟩
    cases found.symm.trans isCall
    refine ⟨callee, args, function, rfl, isThere, ?_⟩
    cases returns : function.signature.returns <;> rw [returns] at isVoid <;> first | rfl | cases isVoid
  · exact (ensures_lowerExprWithin_holds _ found annotated signs).post_of_ok lowers operand isSome few

/-- A function that takes a string, and the sum of what it makes of one string and another string. -/
def echoProgram : Program where
  filename := "echo"
  items := []
  stmts := #[.compound []]
  exprs := #[⟨.stringLiteral "first", .string⟩, ⟨.call "echo" [⟨0⟩], .string⟩,
    ⟨.stringLiteral "second", .string⟩, ⟨.binary .plus ⟨1⟩ ⟨2⟩, .string⟩]
  vars := #[⟨"text", .string, none, .local, .parameter⟩]
  functions := #[⟨"echo", [⟨0⟩], some .string, ⟨0⟩⟩]

theorem echoProgram_annotated : AllAnnotated echoProgram (walkExpr echoProgram ⟨3⟩) := by
  have walk : walkExpr echoProgram ⟨3⟩ = [.expr ⟨3⟩, .expr ⟨1⟩, .expr ⟨0⟩, .expr ⟨2⟩] := by decide +kernel
  have isEcho : echoProgram.function? ⟨0⟩ = some ⟨"echo", [⟨0⟩], some .string, ⟨0⟩⟩ := rfl
  have isCall : echoProgram.expr? ⟨1⟩ = some ⟨.call "echo" [⟨0⟩], .string⟩ := rfl
  have isSecond : echoProgram.expr? ⟨2⟩ = some ⟨.stringLiteral "second", .string⟩ := rfl
  intro id expr member found
  rw [walk] at member
  simp only [List.mem_cons, Node.expr.injEq, List.not_mem_nil, or_false] at member
  rcases member with rfl | rfl | rfl | rfl <;> cases found
  · exact .binary isCall isSecond rfl rfl
  · exact .call isEcho
  · exact .stringLiteral
  · exact .stringLiteral

theorem ok_of_toOption {ε α : Type} {result : Except ε α} {value : α}
    (isValue : result.toOption = some value) : result = .ok value := by
  cases result with
  | error error => cases isValue
  | ok other => exact congrArg Except.ok (Option.some.inj isValue)

/-- The sum is a string of the first block, which has stayed open. -/
theorem echoProgram_sum_is_typed : ∃ declared session next operand,
    declareAll echoProgram .default = .ok declared ∧
    openFunction "main" (.start (.ofModule declared)) = .ok ((), session) ∧
    lowerExpr echoProgram ⟨3⟩ session = .ok (some operand, next) ∧
    next.cursor.Holds operand StringLibrary.stringType ∧ session.cursor.Stays next.cursor := by
  have runs : ((declareAll echoProgram .default).toOption.bind fun declared =>
      (openFunction "main" (.start (.ofModule declared))).toOption.bind fun opened =>
      (lowerExpr echoProgram ⟨3⟩ opened.2).toOption.bind fun lowered => lowered.1.map fun _ =>
        (opened.2.cursor.hasOpenBlock, lowered.2.cursor.currentBody.toOption.map fun body =>
          body.temps.size)) = some (true, some 4) := by
    decide +kernel
  rcases Option.bind_eq_some_iff.mp runs with ⟨declared, declares, runs⟩
  rcases Option.bind_eq_some_iff.mp runs with ⟨⟨_, session⟩, opens, runs⟩
  rcases Option.bind_eq_some_iff.mp runs with ⟨⟨value, next⟩, lowers, runs⟩
  rcases Option.map_eq_some_iff.mp runs with ⟨operand, rfl, runs⟩
  have declares := ok_of_toOption declares
  have opens := ok_of_toOption opens
  have lowers := ok_of_toOption lowers
  have isOpen : session.cursor.hasOpenBlock = true := (Prod.mk.inj runs).1
  have few : next.cursor.HasTempNumbers := by
    intro body isBody
    have size := (Prod.mk.inj runs).2
    rw [isBody] at size
    have isFour : body.temps.size = 4 := Option.some.inj size
    omega
  have signs : session.Signs echoProgram := signs_of_signed declares
    ((Silent.openFunction "main" _).post_of_ok opens).signatures
  have isSum : echoProgram.expr? ⟨3⟩ = some ⟨.binary .plus ⟨1⟩ ⟨2⟩, .string⟩ := rfl
  rcases expressions_are_typed_and_stay isSum echoProgram_annotated signs lowers few with
    ⟨_, holds, stays⟩
  exact ⟨declared, session, next, operand, declares, opens, lowers, holds operand rfl, stays isOpen⟩

end ScriptLowering.Lowering
