import ScriptLowering.Proofs.EarlyChecks
import ScriptLowering.Proofs.LinkedModules
import ScriptLowering.Proofs.ReadySessions

/-! # Lowering without faults

Programs that are resolved and in order are lowered without faults. What is left to fail is
building, of which nothing is said here.
-/

namespace ScriptLowering.Lowering

open Source (Program ExprNode ExprId Stmt StmtId VarId VarDecl FuncId FunctionDecl ForInit)
open Code (Operand)

/-! ## Nodes that there are -/

def exprNodes (program : Program) : List Node :=
  (List.range program.exprs.size).map fun index => .expr ⟨index.toUInt32⟩

def stmtNodes (program : Program) : List Node :=
  (List.range program.stmts.size).map fun index => .stmt ⟨index.toUInt32⟩

theorem mem_exprNodes {program : Program} {id : ExprId} {expr : Source.Expr}
    (found : program.expr? id = some expr) : .expr id ∈ exprNodes program := by
  rcases Array.getElem?_eq_some_iff.mp found with ⟨bound, _⟩
  refine List.mem_map.mpr ⟨id.index, List.mem_range.mpr bound, ?_⟩
  simp [ExprId.index]

theorem mem_stmtNodes {program : Program} {id : StmtId} {node : Stmt}
    (found : program.stmt? id = some node) : .stmt id ∈ stmtNodes program := by
  rcases Array.getElem?_eq_some_iff.mp found with ⟨bound, _⟩
  refine List.mem_map.mpr ⟨id.index, List.mem_range.mpr bound, ?_⟩
  simp [StmtId.index]

section Expressions

variable {program : Program} {callable : FuncId → Prop}
  {loops : List StmtId} {locals : List VarId} {met : List Node}
  {session : Session}

/-! ## Values -/

/-- What is known of the value of an expression: only calls may have none, and that of a literal is
a constant if it is not a string. -/
structure Valued (expr : Source.Expr) (value : Option Operand) : Prop where
  something : expr.ty ≠ .void → value.isSome = true
  constant : expr.isLiteral = true → expr.ty ≠ .string →
    ∃ constant, value = some (.constant constant)

theorem valued_some {expr : Source.Expr} (value : Operand)
    (other : expr.isLiteral = false ∨ expr.ty = .string) : Valued expr (some value) where
  something := fun _ => rfl
  constant := by
    intro literal notString
    rcases other with notLiteral | isString
    · rw [literal] at notLiteral
      cases notLiteral
    · exact absurd isString notString

theorem passes_storageOf {α : Type} {id : VarId} {rest : Operand → Lower α} {nodes : List Node}
    {final : α → Prop} (knows : session.Knows (.var id))
    (rests : ∀ address, (rest address).Passes nodes session final) :
    (Lower.consult (fun annotations => annotations.storageOf id) >>= rest).Passes nodes session
      final := by
  rcases knows with ⟨address, stored⟩
  refine Lower.Ensures.consult_bind (fun fault refused => ?_) fun address _ => rests address
  rw [stored] at refused
  cases refused

theorem passes_lowerIdentifier {id : VarId} {decl : VarDecl} (found : program.var? id = some decl)
    (knows : session.Knows (.var id)) :
    (lowerIdentifier program id).Passes [] session fun _ => True := by
  unfold lowerIdentifier
  rw [found, Lower.orFault_some_bind]
  exact passes_storageOf knows fun address => .of_silent (.define _ _) session

theorem some_of_call {cursor next : Code.Cursor} {callee : String} {returns : Code.Ty}
    {args : List Operand} {value : Option Operand}
    (calls : cursor.call callee returns args = (.ok value, next))
    (something : returns.isVoid = false) : value.isSome = true := by
  rcases Code.Cursor.of_call calls with ⟨nothing, _⟩ | ⟨_, _, rfl, _⟩
  · rw [something] at nothing
    cases nothing
  · rfl

theorem passes_call (callee : String) (returns : Code.Ty) (args : List Operand) :
    (Lower.emit fun cursor => cursor.call callee returns args).Passes [] session
      fun value => returns.isVoid = false → value.isSome = true := by
  have silent : Silent (Lower.emit fun cursor => cursor.call callee returns args) :=
    .call _ _ _
  have gives : (Lower.emit fun cursor => cursor.call callee returns args).Ensures session
      (fun value _ => returns.isVoid = false → value.isSome = true)
      fun error => ¬ error.IsOrdinary :=
    Silent.ensures_emit (fun _ _ _ calls => some_of_call calls) session
  exact ((Lower.Passes.of_silent silent session).and gives).mono
    fun _ _ holds => ⟨holds.1.1, holds.2⟩

theorem ExprsTyped.length_eq {ids : List ExprId} {types : List Source.Ty}
    (typed : ExprsTyped program callable locals ids types) : ids.length = types.length := by
  induction ids generalizing types with
  | nil =>
      cases typed
      rfl
  | cons id ids induction =>
      cases typed with
      | cons _ _ _ _ others => simp [induction others]

/-! ## Single forms -/

def OperandsPass (program : Program) (callable : FuncId → Prop)
    (loops : List StmtId) (locals : List VarId)
    (lower : ExprId → Lower Operand) (walk : ExprId → List Node) (above : List Node)
    (depth : Nat) : Prop :=
  ∀ {id : ExprId} {ty : Source.Ty} {met : List Node} {session : Session},
    ExprTyped program callable locals id ty → ty ≠ .void →
    session.Ready program loops locals met (walk id) →
    Deep (exprNodes program) above depth met →
    (lower id).Passes (walk id) session fun _ => True

section Forms

variable (arranged : Arranged program) {lower : ExprId → Lower Operand}
  {walk : ExprId → List Node} {above : List Node} {depth : Nat}
  (operands : OperandsPass program callable loops locals lower walk above depth)

include arranged operands

theorem Arranged.passes_operands {ids : List ExprId} {types : List Source.Ty}
    (typed : ExprsTyped program callable locals ids types)
    (ready : session.Ready program loops locals met (ids.flatMap walk))
    (deep : Deep (exprNodes program) above depth met) :
    (ids.mapM lower).Passes (ids.flatMap walk) session fun _ => True := by
  induction ids generalizing types met session with
  | nil =>
      rw [List.mapM_nil]
      exact .pure trivial
  | cons id ids induction =>
      cases typed with
      | cons found parts nodeTyped valued others =>
          rw [List.flatMap_cons] at ready ⊢
          rw [List.mapM_cons]
          refine ready.bind arranged (operands ⟨found, parts, nodeTyped⟩ valued ready.left deep)
            fun _ next readyNext _ _ => ?_
          exact (induction others readyNext (deep.later _)).thenBuild fun _ => .pure _

omit arranged in
theorem passes_lowerUnary {operand : ExprId}
    (parts : ExprsTyped program callable locals [operand] [.integer])
    (ready : session.Ready program loops locals met (walk operand))
    (deep : Deep (exprNodes program) above depth met) :
    (lowerUnary program lower .minus operand).Passes (walk operand) session fun _ => True := by
  generalize isInteger : [Source.Ty.integer] = types at parts
  cases parts with
  | @cons _ _ expr _ _ found parts nodeTyped valued _ =>
      have ty : expr.ty = .integer := (List.cons.inj isInteger).1.symm
      unfold lowerUnary
      rw [found, Lower.orFault_some_bind, if_pos ⟨rfl, ty⟩]
      exact (operands ⟨found, parts, nodeTyped⟩ valued ready deep).thenBuild
        fun _ => .define _ _

omit arranged in
theorem passes_lowerAssignment {left right : ExprId} {target : Source.Expr} {name : String}
    {id : VarId} {types : List Source.Ty} (targets : program.expr? left = some target)
    (isIdentifier : target.node = .identifier name id)
    (parts : ExprsTyped program callable locals [right] types) (knows : session.Knows (.var id))
    (ready : session.Ready program loops locals met (walk right))
    (deep : Deep (exprNodes program) above depth met) :
    (lowerAssignment program lower left right).Passes (walk right) session fun _ => True := by
  cases parts with
  | cons found parts nodeTyped valued _ =>
      unfold lowerAssignment
      rw [targets, Lower.orFault_some_bind]
      simp only [isIdentifier]
      refine (operands ⟨found, parts, nodeTyped⟩ valued ready deep).andThen
        fun value next learns _ => ?_
      refine passes_storageOf (learns.kept _ knows) fun address => ?_
      exact .of_silent ((Silent.insert _).bind fun _ => .pure _) next

theorem Arranged.passes_lowerBinary {op : Source.BinaryOp} {left right : ExprId}
    {ty result : Source.Ty}
    (means : resultType? op ty = some result)
    (parts : ExprsTyped program callable locals [left, right] [ty, ty])
    (ready : session.Ready program loops locals met (walk left ++ walk right))
    (deep : Deep (exprNodes program) above depth met) :
    (lowerBinary program lower op left right).Passes (walk left ++ walk right) session
      fun _ => True := by
  generalize areTypes : [ty, ty] = types at parts
  cases parts with
  | @cons _ _ expr _ _ found parts nodeTyped valued others =>
      have same : expr.ty = ty := (List.cons.inj areTypes).1.symm
      cases others with
      | cons otherFound otherParts otherTyped otherValued _ =>
          rcases Option.isSome_iff_exists.mp (operation?_isSome means) with ⟨operation, isMeant⟩
          unfold lowerBinary
          rw [if_neg (ne_assign_of_resultType? means), found, Lower.orFault_some_bind]
          simp only [same, isMeant]
          refine ready.bind arranged (operands ⟨found, parts, nodeTyped⟩ valued ready.left deep)
            fun _ next readyNext _ _ => ?_
          exact (operands ⟨otherFound, otherParts, otherTyped⟩ otherValued readyNext
            (deep.later _)).thenBuild fun _ => .emitOperation _ _ _

theorem Arranged.passes_lowerCall {args : List ExprId} {id : FuncId} {decl : FunctionDecl}
    {types : List Source.Ty} (found : program.function? id = some decl)
    (params : decl.params.map (fun param => (program.var? param).map VarDecl.ty) = types.map some)
    (parts : ExprsTyped program callable locals args types)
    (ready : session.Ready program loops locals met (args.flatMap walk))
    (deep : Deep (exprNodes program) above depth met) :
    (lowerCall lower decl.name args).Passes (args.flatMap walk) session
      fun value => decl.returns.getD .void ≠ .void → value.isSome = true := by
  rcases ready.signed id decl found with ⟨signature, isSignature, signs⟩
  rcases Option.map_eq_some_iff.mp signs with ⟨function, foundFunction, rfl⟩
  rcases Code.bind_eq_ok.mp isSignature with ⟨declaredParams, given, same⟩
  have isDeclared : (⟨decl.name, declaredParams, returnType decl.returns⟩ : Code.Signature) =
      function.signature := Except.ok.inj same
  have arity : function.arity = args.length := by
    have types := congrArg List.length (types_of_declaredParams given params)
    rw [List.length_map, List.length_map, ← parts.length_eq] at types
    rw [Code.Function.arity, ← isDeclared]
    exact types
  unfold lowerCall
  have looks : Lower.cursor session = .ok (session.cursor, session) := rfl
  refine Lower.Ensures.bind_ok looks ?_
  simp only [foundFunction]
  rw [if_pos arity]
  refine (arranged.passes_operands operands parts ready deep).andThen fun values next _ _ => ?_
  refine (passes_call decl.name function.signature.returns values).mono fun value gives => ?_
  refine fun something => gives ?_
  rw [← isDeclared, Bool.eq_false_iff]
  exact fun isVoid => something ((isVoid_codeType _).mp isVoid)

theorem Arranged.passes_lowerNode {node : ExprNode} {types : List Source.Ty} {ty : Source.Ty}
    (nodeTyped : NodeTyped program callable locals node types ty)
    (parts : ExprsTyped program callable locals (operandsOf node) types)
    (uses : ∀ id, usedVar? program node = some id → session.Knows (.var id))
    (ready : session.Ready program loops locals met ((operandsOf node).flatMap walk))
    (deep : Deep (exprNodes program) above depth met) :
    (lowerNode program lower node).Passes ((operandsOf node).flatMap walk) session
      fun value => Valued ⟨node, ty⟩ value := by
  cases nodeTyped with
  | booleanLiteral => exact .pure ⟨fun _ => rfl, fun _ _ => ⟨_, rfl⟩⟩
  | integerLiteral => exact .pure ⟨fun _ => rfl, fun _ _ => ⟨_, rfl⟩⟩
  | stringLiteral =>
      exact ((Lower.Passes.of_silent (.lowerStringLiteral _) session).mono
        fun value _ => valued_some value (.inr rfl)).map
  | @identifier _ id _ found visible =>
      exact ((passes_lowerIdentifier found (uses id rfl)).mono
        fun value _ => valued_some value (.inl rfl)).map
  | call declared found params =>
      exact (arranged.passes_lowerCall operands found params parts ready deep).mono
        fun value gives => ⟨gives, fun literal => by cases literal⟩
  | @negate operand =>
      have single : (operandsOf (.unary .minus operand)).flatMap walk = walk operand :=
        List.flatMap_singleton walk operand
      rw [single] at ready ⊢
      exact ((passes_lowerUnary operands parts ready deep).mono
        fun value _ => valued_some value (.inl rfl)).map
  | @assign left right _ _ id _ targets isIdentifier found visible =>
      have single : (operandsOf (.binary .assign left right)).flatMap walk = walk right :=
        List.flatMap_singleton walk right
      rw [single] at ready ⊢
      have knows : session.Knows (.var id) := uses id (by simp [usedVar?, targets, isIdentifier])
      exact ((passes_lowerAssignment operands targets isIdentifier parts knows ready deep).mono
        fun value _ => valued_some value (.inl rfl)).map
  | @binary op left right operandTy _ means =>
      have both : (operandsOf (.binary op left right)).flatMap walk = walk left ++ walk right := by
        simp [operandsOf, ne_assign_of_resultType? means]
      have partsBoth : ExprsTyped program callable locals [left, right] [operandTy, operandTy] := by
        simpa [operandsOf, ne_assign_of_resultType? means] using parts
      rw [both] at ready ⊢
      exact ((arranged.passes_lowerBinary operands means partsBoth ready deep).mono
        fun value _ => valued_some value (.inl rfl)).map

end Forms

/-! ## Whole expressions -/

theorem passes_recordValue {id : ExprId} (value : Option Operand)
    (unaware : ¬ session.Knows (.expr id)) :
    (recordValue id value).Passes [.expr id] session fun _ => True := by
  cases value with
  | none => exact Lower.Ensures.pure ⟨.none session (by simp [Node.plain]), trivial⟩
  | some value => exact passes_setValue unaware

theorem visible_of_usedVar? {node : ExprNode} {types : List Source.Ty} {ty : Source.Ty}
    (nodeTyped : NodeTyped program callable locals node types ty) {id : VarId}
    (isUsed : usedVar? program node = some id) : InScope program locals id := by
  cases nodeTyped with
  | identifier found visible =>
      cases isUsed
      exact visible
  | assign targets isIdentifier found visible =>
      simp only [usedVar?, targets, Option.map_some, isIdentifier, Option.some.injEq] at isUsed
      subst isUsed
      exact visible
  | @binary op _ _ ty _ means =>
      cases op with
      | assign => cases ty <;> cases means
      | _ => cases isUsed
  | _ => cases isUsed

theorem Arranged.passes_lowerExprWithin (arranged : Arranged program) (depth : Nat) {id : ExprId}
    {ty : Source.Ty} {above : List Node} (typed : ExprTyped program callable locals id ty)
    (ready : session.Ready program loops locals met (walkExprWithin program depth id))
    (deep : Deep (exprNodes program) above depth met) :
    (lowerExprWithin program depth id).Passes (walkExprWithin program depth id) session
      fun value => ∀ expr, program.expr? id = some expr → Valued expr value := by
  induction depth generalizing id ty above met session with
  | zero =>
      have distinct := List.Nodup.of_map _ (ready.distinct arranged)
      exact (deep.not_bottom (distinct.sublist (List.sublist_append_left _ _))).elim
  | succ depth induction =>
      cases typed with
      | @intro expr types found parts nodeTyped =>
          have nodes : walkExprWithin program (depth + 1) id =
              [.expr id] ++ (operandsOf expr.node).flatMap (walkExprWithin program depth) := by
            simp [walkExprWithin, found]
          rw [nodes] at ready ⊢
          have uses : ∀ var, usedVar? program expr.node = some var →
              session.Knows (.var var) := by
            intro var isUsed
            rcases visible_of_usedVar? nodeTyped isUsed with isLocal | ⟨decl, foundVar, topLevel⟩
            · exact ready.locals var isLocal
            · rcases ready.splits with ⟨rest, splits⟩
              exact ready.stored var (arranged.ordered met (.expr id) rest var decl splits
                (by simp [Node.uses?, found, isUsed]) foundVar topLevel)
          have operands : OperandsPass program callable loops locals
              (fun operand => do requireValue operand (← lowerExprWithin program depth operand))
              (walkExprWithin program depth) (above ++ [.expr id]) depth := by
            intro operand ty met session typed valued ready deep
            refine (induction typed ready deep).andThen fun value next _ holds => ?_
            rcases typed with ⟨isExpr, _, _⟩
            rcases Option.isSome_iff_exists.mp ((holds _ isExpr).something valued) with
              ⟨result, rfl⟩
            exact .pure trivial
          have inside := ready.advance arranged (.none session (by simp [Node.plain]))
          have computes := arranged.passes_lowerNode operands nodeTyped parts uses inside
            (deep.down (mem_exprNodes found))
          unfold lowerExprWithin
          rw [found, Lower.orFault_some_bind]
          refine Lower.Ensures.bind computes fun value next computed => ?_
          have unaware := ready.unaware_outside arranged (fun _ member => member) computed.1
          refine Lower.Ensures.bind (passes_recordValue value unaware) fun _ last recorded => ?_
          refine .pure ⟨(computed.1.trans recorded.1).perm List.perm_append_comm,
            fun other isOther => ?_⟩
          cases isOther
          exact computed.2

variable (arranged : Arranged program)

include arranged

theorem Arranged.passes_lowerExpr {id : ExprId} {ty : Source.Ty}
    (typed : ExprTyped program callable locals id ty)
    (ready : session.Ready program loops locals met (walkExpr program id)) :
    (lowerExpr program id).Passes (walkExpr program id) session
      fun value => ∀ expr, program.expr? id = some expr → Valued expr value := by
  refine arranged.passes_lowerExprWithin _ typed ready ⟨List.nil_sublist _, ?_, ?_⟩
  · intro node member
    cases member
  · simp only [exprNodes, exprDepth, List.length_map, List.length_range, List.length_nil]
    omega

theorem Arranged.passes_lowerEffect {id : ExprId} {ty : Source.Ty}
    (typed : ExprTyped program callable locals id ty)
    (ready : session.Ready program loops locals met (walkExpr program id)) :
    (do let _ ← lowerExpr program id).Passes (walkExpr program id) session fun _ => True :=
  (arranged.passes_lowerExpr typed ready).thenBuild fun _ => .pure _

theorem Arranged.passes_lowerValue {id : ExprId} {ty : Source.Ty}
    (typed : ExprTyped program callable locals id ty)
    (valued : ty ≠ .void) (ready : session.Ready program loops locals met (walkExpr program id)) :
    (lowerValue program id).Passes (walkExpr program id) session
      fun value => ∀ expr, program.expr? id = some expr → Valued expr (some value) := by
  refine (arranged.passes_lowerExpr typed ready).andThen fun value next _ holds => ?_
  rcases typed with ⟨found, _, _⟩
  rcases Option.isSome_iff_exists.mp ((holds _ found).something valued) with ⟨result, rfl⟩
  exact .pure holds

theorem Arranged.passes_lowerEach {ids : List ExprId}
    (typed : ∀ id ∈ ids, ∃ ty, ExprTyped program callable locals id ty)
    (ready : session.Ready program loops locals met (ids.flatMap (walkExpr program))) :
    (ids.forM fun id => do let _ ← lowerExpr program id).Passes
      (ids.flatMap (walkExpr program)) session fun _ => True := by
  induction ids generalizing met session with
  | nil => exact .pure trivial
  | cons id ids induction =>
      rcases typed id List.mem_cons_self with ⟨ty, first⟩
      rw [List.flatMap_cons] at ready ⊢
      rw [Lower.forM_cons]
      refine ready.bind arranged (arranged.passes_lowerEffect first ready.left)
        fun _ next readyNext _ _ => ?_
      exact induction (fun other member => typed other (List.mem_cons_of_mem _ member)) readyNext

/-! ## Variables -/

theorem Arranged.passes_lowerInitial {decl : VarDecl} (notVoid : decl.ty ≠ .void)
    (starts : ∀ initial, decl.initial = some initial →
      ExprTyped program callable locals initial decl.ty)
    (ready : session.Ready program loops locals met
      (decl.initial.toList.flatMap (walkExpr program))) :
    (lowerInitial program decl).Passes (decl.initial.toList.flatMap (walkExpr program)) session
      fun value => ∀ id expr, decl.initial = some id → program.expr? id = some expr →
        Valued expr value := by
  unfold lowerInitial
  cases initially : decl.initial with
  | none => exact .pure fun _ _ absurd => by cases absurd
  | some id =>
      rw [initially] at ready
      simp only [Option.toList_some, List.flatMap_cons, List.flatMap_nil, List.append_nil]
        at ready ⊢
      refine ((arranged.passes_lowerValue (starts id initially) notVoid ready).mono
        fun value holds other expr same found => ?_).map
      cases same
      exact holds expr found

omit arranged in
/-- The initial value of a global that is not a string is a constant if it is a literal. -/
theorem globalInitial_isOk {decl : VarDecl} {value : Option Operand}
    (valued : ∀ id expr, decl.initial = some id → program.expr? id = some expr →
      expr.ty = decl.ty ∧ Valued expr value) :
    ∃ initial, globalInitial decl (isLiteralInitial program decl) value = .ok initial := by
  unfold globalInitial
  split
  · exact ⟨_, rfl⟩
  · rename_i notString
    split
    · rename_i isLiteral
      unfold isLiteralInitial at isLiteral
      split at isLiteral
      · rename_i expr found
        rcases Option.bind_eq_some_iff.mp found with ⟨id, initially, isExpr⟩
        rcases valued id expr initially isExpr with ⟨sameType, holds⟩
        rcases holds.constant isLiteral (by rw [sameType]; exact notString) with ⟨constant, rfl⟩
        exact ⟨constant, rfl⟩
      · cases isLiteral
    · exact ⟨_, rfl⟩

omit arranged in
theorem passes_lowerGlobal {id : VarId} {decl : VarDecl} {value : Option Operand}
    (valued : ∀ id expr, decl.initial = some id → program.expr? id = some expr →
      expr.ty = decl.ty ∧ Valued expr value)
    (unaware : ¬ session.Knows (.var id)) :
    (lowerGlobal program id decl value).Passes [.var id] session fun _ => True := by
  rcases globalInitial_isOk valued with ⟨initial, isInitial⟩
  rw [lowerGlobal_eq]
  refine Lower.Ensures.consult_bind (fun fault refused => ?_) fun _ _ => ?_
  · rw [isInitial] at refused
    cases refused
  refine Lower.Passes.build (.buildWith fun _ _ _ adds _ => by cases adds; rfl)
    fun global next first => ?_
  refine Lower.Passes.build (Silent.routine.initGlobal decl global value) fun _ last second => ?_
  exact passes_setStorage rfl fun knows =>
    unaware (first.knows_of_nil (second.knows_of_nil knows))

omit arranged in
theorem passes_lowerLocal {id : VarId} {decl : VarDecl} {value : Option Operand}
    (unaware : ¬ session.Knows (.var id)) :
    (lowerLocal id decl value).Passes [.var id] session fun _ => True := by
  unfold lowerLocal
  refine Lower.Passes.build (.define _ _) fun slot next first => ?_
  have still : ¬ next.Knows (.var id) := fun knows => unaware (first.knows_of_nil knows)
  cases value with
  | none => exact passes_setStorage rfl still
  | some value => exact .build (.insert _) fun _ _ second =>
      passes_setStorage rfl fun knows => still (second.knows_of_nil knows)

theorem Arranged.passes_lowerVarDecl {id : VarId} (typed : VarTyped program callable locals id)
    (ready : session.Ready program loops locals met (walkVar program id)) :
    (lowerVarDecl program id).Passes (walkVar program id) session fun _ => True := by
  rcases typed with ⟨found, notVoid, starts⟩
  rename_i decl
  have nodes : walkVar program id =
      decl.initial.toList.flatMap (walkExpr program) ++ [.var id] := by simp [walkVar, found]
  rw [nodes] at ready ⊢
  unfold lowerVarDecl
  rw [found, Lower.orFault_some_bind, if_neg notVoid]
  refine ready.bind arranged (arranged.passes_lowerInitial notVoid starts ready.left)
    fun value next readyNext _ valued => ?_
  have unaware := readyNext.unaware _ List.mem_cons_self
  cases decl.scope with
  | topLevel =>
      refine passes_lowerGlobal (fun other expr initially isExpr => ⟨?_, ?_⟩) unaware
      · generalize decl.ty = ty at starts
        rcases starts other initially with ⟨isOther, _, _⟩
        rw [isExpr] at isOther
        cases isOther
        rfl
      · exact valued other expr initially isExpr
  | «local» => exact passes_lowerLocal unaware

end Expressions

end ScriptLowering.Lowering
