import ScriptLowering.Proofs.HistoryReplay

/-! # Nodes that a run completes

A run that succeeds completes the nodes on the way of lowering that take numbers, each as often as it
comes to them. So the numbers are limited by what the run does, and not by how the program is built:
lists of statements cost nothing, however often the program refers to them.
-/

namespace ScriptLowering.Lowering

open Source (Program ExprId ExprNode ForInit FuncId FunctionDecl Stmt StmtId VarDecl VarId)
open Code (BlockId Operand)

/-! ## Operands -/

section Operands

variable {program : Program} {lower : ExprId → Lower Operand} {session : Session}

/-- The operands have been lowered from the session on. -/
def Session.LowersOperands (session : Session) (lower : ExprId → Lower Operand)
    (operands : List ExprId) : Prop :=
  ∃ values ready, operands.mapM lower session = .ok (values, ready)

/-- A step that begins with an operand succeeds only if the operand does. -/
theorem ensures_operand {α : Type} (operand : ExprId) (rest : Operand → Lower α) :
    (lower operand >>= rest).Ensures session
      (fun _ _ => session.LowersOperands lower [operand]) fun _ => True := by
  refine (Lower.Ensures.self _ _).bind fun value ready runs => ?_
  have lowers : session.LowersOperands lower [operand] := by
    refine ⟨[value], ready, ?_⟩
    rw [List.mapM_cons, Lower.bind_eq runs]
    rfl
  exact (Lower.Ensures.self _ _).mono fun _ _ _ => lowers

theorem ensures_operands (first second : ExprId) {α : Type} (rest : Operand → Operand → Lower α) :
    (do let left ← lower first
        let right ← lower second
        rest left right : Lower α).Ensures session
      (fun _ _ => session.LowersOperands lower [first, second]) fun _ => True := by
  refine (Lower.Ensures.self _ _).bind fun left middle runs => ?_
  refine (Lower.Ensures.self _ _).bind fun right ready runsOn => ?_
  have lowers : session.LowersOperands lower [first, second] := by
    refine ⟨[left, right], ready, ?_⟩
    rw [List.mapM_cons, Lower.bind_eq runs, List.mapM_cons]
    exact Lower.bind_eq ((Lower.bind_eq runsOn).trans rfl)
  exact (Lower.Ensures.self _ _).mono fun _ _ _ => lowers

/-- An expression is lowered behind its operands. -/
theorem ensures_operandsOf (node : ExprNode) : (lowerNode program lower node).Ensures session
    (fun _ _ => session.LowersOperands lower (operandsOf node)) fun _ => True := by
  have nothing : session.LowersOperands lower [] := ⟨[], session, rfl⟩
  cases node with
  | booleanLiteral | integerLiteral | stringLiteral | identifier =>
      exact (Lower.Ensures.self _ _).mono fun _ _ _ => nothing
  | call callee args =>
      refine .bind_ok (rfl : Lower.cursor session = .ok (session.cursor, session)) ?_
      cases session.cursor.module.function? callee with
      | none => exact .of_error rfl trivial
      | some function =>
          by_cases arity : function.arity = args.length
          · simp only [if_pos arity]
            refine (Lower.Ensures.self _ _).bind fun values ready runs => ?_
            exact (Lower.Ensures.self _ _).mono fun _ _ _ => ⟨values, ready, runs⟩
          · simp only [if_neg arity]
            exact .of_error rfl trivial
  | unary op operand =>
      refine .map (.orFault_bind (fun _ => trivial) fun expr found => ?_)
      by_cases negates : op = .minus ∧ expr.ty = .integer
      · simp only [if_pos negates]
        exact ensures_operand operand _
      · simp only [if_neg negates]
        exact .of_error rfl trivial
  | binary op left right =>
      apply Lower.Ensures.map
      unfold lowerBinary operandsOf
      by_cases assigns : op = .assign
      · simp only [if_pos assigns]
        apply Lower.Ensures.orFault_bind fun _ => trivial
        intro target found
        cases target.node with
        | identifier text decl => exact ensures_operand right _
        | _ => exact .of_error rfl trivial
      · simp only [if_neg assigns]
        apply Lower.Ensures.orFault_bind fun _ => trivial
        intro expr found
        cases operation? op expr.ty with
        | none => exact .of_error rfl trivial
        | some operation => exact ensures_operands left right _

end Operands

/-! ## Completed nodes -/

/-- The step completes an expression, a variable, a parameter, a function, or a statement with
blocks or jumps of its own. -/
def Task.completes : Task → Bool
  | .param _ _ | .expr _ | .var _ | .jump _ | .finish _ => true
  | .enter _ _ closing => closing
  | .start _ | .create _ _ _ | .loop _ _ | .test _ _ _ _ | .leave _ _ | .returnIfLive _ | .resume _
  | .come _ _ => false

def completed (events : List Event) : Nat := events.countP fun event => event.task.completes

theorem demand_flatMap {α : Type} (program : Program) (walk : α → List Node) (items : List α) :
    demand program (items.flatMap walk) = (items.map fun item => demand program (walk item)).sum :=
  List.countP_flatMap

@[simp] theorem completed_append (events more : List Event) :
    completed (events ++ more) = completed events + completed more :=
  List.countP_append

/-- If it succeeds, so many nodes are completed. -/
def Told.Completes {α : Type} (told : Told α) (count : Nat) : Prop :=
  ∀ session, told.Ensures session fun events _ _ => completed events = count

namespace Told.Completes

variable {α β ι : Type} {told : Told α} {rest : α → Told β} {first second : Nat}

theorem bind_of {good : α → Prop} (completes : ∀ session, told.Ensures session
      fun events value _ => completed events = first ∧ good value)
    (others : ∀ value, good value → (rest value).Completes second) :
    (told >>= rest).Completes (first + second) := by
  intro session
  refine Told.Ensures.bind (completes session) fun events value next facts => ?_
  refine (others value facts.2 next).mono fun more _ _ counts => ?_
  rw [completed_append, facts.1, counts]

theorem bind (completes : told.Completes first) (others : ∀ value, (rest value).Completes second) :
    (told >>= rest).Completes (first + second) :=
  bind_of (fun session => (completes session).mono fun _ _ _ counts => ⟨counts, True.intro⟩)
    fun value _ => others value

theorem asking (step : Lower α) : (Told.asking step).Completes 0 :=
  fun _ => .asking ((Lower.Ensures.self _ _).mono fun _ _ _ => rfl)

theorem pure (value : α) : (Pure.pure value : Told α).Completes 0 := fun _ => .pure rfl

theorem telling {task : α → Task} {step : Lower α} {completes : Bool}
    (same : ∀ value, (task value).completes = completes) :
    (Told.telling task step).Completes completes.toNat := by
  refine fun session => .telling ((Lower.Ensures.self _ _).mono fun value _ _ => ?_)
  simp only [completed, List.countP_cons, List.countP_nil, same]
  cases completes <;> rfl

theorem silent (task : α → Task) (step : Lower α)
    (same : ∀ value, (task value).completes = false) : (Told.telling task step).Completes 0 :=
  telling same

theorem closing (task : α → Task) (step : Lower α)
    (same : ∀ value, (task value).completes = true) : (Told.telling task step).Completes 1 :=
  telling same

theorem of_eq {more : Nat} (completes : told.Completes first) (same : first = more) :
    told.Completes more := same ▸ completes

theorem orFault_bind {found : Option α} {fault : ProgramFault} {count : Nat}
    (present : ∀ value, found = some value → (rest value).Completes count) :
    (Told.asking (Lower.orFault found fault) >>= rest).Completes count := by
  cases found with
  | none => exact fun _ _ _ _ runs => by cases runs
  | some value => exact present value rfl

theorem forM {body : ι → Told Unit} {count : ι → Nat}
    (each : ∀ item, (body item).Completes (count item)) (items : List ι) :
    (items.forM body).Completes (items.map count).sum := by
  induction items with
  | nil => exact pure ()
  | cons item rest induction => exact bind (each item) fun _ => induction

/-! ### Expressions and variables -/

variable {program : Program}

theorem completed_tellEach {tell : ExprId → Told (Option Operand)} {count : ExprId → Nat}
    (each : ∀ id, (tell id).Completes (count id)) {ids : List ExprId} {session : Session}
    (lowers : session.LowersOperands (lowerOperand fun id => (tell id).step) ids) :
    completed (tellEach tell ids session).1 = (ids.map count).sum := by
  induction ids generalizing session with
  | nil => rfl
  | cons id ids induction =>
      obtain ⟨values, ready, runs⟩ := lowers
      rw [List.mapM_cons] at runs
      obtain ⟨first, between, operand, runs⟩ := Lower.bind_eq_ok.mp runs
      obtain ⟨value, middle, lowersFirst, requires⟩ := Lower.bind_eq_ok.mp operand
      obtain ⟨others, last, lowersRest, _⟩ := Lower.bind_eq_ok.mp runs
      have unmoved : between = middle := by
        cases value <;> cases requires
        rfl
      subst unmoved
      have told : tell id session = ((tell id session).1, .ok (value, between)) :=
        Prod.ext rfl lowersFirst
      rw [tellEach, told, completed_append, each id session _ _ _ told,
        induction ⟨others, last, lowersRest⟩]
      rfl

theorem tellExprWithin (depth : Nat) (id : ExprId) :
    (tellExprWithin program depth id).Completes (walkExprWithin program depth id).length := by
  induction depth generalizing id with
  | zero =>
      intro session events value next runs
      cases congrArg Prod.snd runs
  | succ depth induction =>
      intro session events value next runs
      have whole : lowerExprWithin program (depth + 1) id session = .ok (value, next) := by
        rw [← step_tellExprWithin]
        exact congrArg Prod.snd runs
      simp only [Lowering.tellExprWithin, whole] at runs
      cases runs
      rw [completed_append]
      obtain ⟨expr, begun, finds, rest⟩ := Lower.bind_eq_ok.mp whole
      obtain ⟨computed, mid, node, _⟩ := Lower.bind_eq_ok.mp rest
      cases found : program.expr? id with
      | none =>
          rw [found] at finds
          cases finds
      | some known =>
          rw [found] at finds
          cases finds
          have lowers : session.LowersOperands _ (operandsOf expr.node) :=
            (ensures_operandsOf expr.node).post_of_ok node
          rw [← funext (step_tellExprWithin depth)] at lowers
          have operands := completed_tellEach induction lowers
          simp only [Option.elim_some, operands, walkExprWithin, found, List.length_cons,
            List.length_flatMap]
          rfl

theorem tellExpr (id : ExprId) :
    (tellExpr program id).Completes (demand program (walkExpr program id)) :=
  (tellExprWithin _ id).of_eq (demand_walkExpr program id).symm

theorem tellValue (id : ExprId) :
    (tellValue program id).Completes (demand program (walkExpr program id)) :=
  (tellExpr id).bind fun _ => asking _

theorem tellEffect (id : ExprId) :
    (tellEffect program id).Completes (demand program (walkExpr program id)) :=
  (tellExpr id).bind fun _ => pure _

theorem tellExprs (ids : List ExprId) :
    (tellExprs program ids).Completes (demand program (ids.flatMap (walkExpr program))) :=
  (forM tellEffect ids).of_eq (demand_flatMap _ _ _).symm

theorem tellInitial (decl : VarDecl) : (tellInitial program decl).Completes
    (demand program (decl.initial.toList.flatMap (walkExpr program))) := by
  unfold Lowering.tellInitial
  cases decl.initial with
  | none => exact pure none
  | some expr =>
      apply of_eq ((tellValue expr).bind fun _ => pure _)
      simp

theorem tellVarDecl (id : VarId) :
    (tellVarDecl program id).Completes (demand program (walkVar program id)) := by
  apply orFault_bind
  intro decl found
  have walks : walkVar program id =
      decl.initial.toList.flatMap (walkExpr program) ++ [.var id] := by rw [walkVar, found]
  rw [walks, demand_append]
  by_cases isVoid : decl.ty = .void
  · simp only [if_pos isVoid]
    intro session events value next runs
    cases runs
  · simp only [if_neg isVoid]
    exact (tellInitial decl).bind fun _ => closing _ _ fun _ => rfl

/-! ### Statements -/

section Nodes

variable {tell : StmtId → Told Unit} {walk : StmtId → List Node}
  (each : ∀ id, (tell id).Completes (demand program (walk id))) (id : StmtId)

theorem tellCreate (label : String) : (tellCreate id label).Completes 0 :=
  silent (fun block => .create id label block) _ fun _ => rfl

theorem tellLoop (blocks : LoopBlocks) : (tellLoop id blocks).Completes 0 :=
  silent (fun _ => .loop id blocks) _ fun _ => rfl

theorem tellTest (value : Operand) (thenBlock elseBlock : BlockId) :
    (tellTest id value thenBlock elseBlock).Completes 0 :=
  silent (fun _ => .test id value thenBlock elseBlock) _ fun _ => rfl

theorem tellEnter (block : BlockId) (closing : Bool) :
    (tellEnter id block closing).Completes closing.toNat :=
  @telling _ (fun _ => .enter id block closing) _ _ fun _ => rfl

theorem tellLeave (target : BlockId) : (tellLeave id target).Completes 0 :=
  silent (fun _ => .leave id target) _ fun _ => rfl

/-- There is a block for the updates if and only if there are any. -/
theorem tellUpdateBlock (updates : List ExprId) (session : Session) :
    (tellUpdateBlock id updates).Ensures session
      fun events block _ => completed events = 0 ∧ block.isNone = updates.isEmpty := by
  unfold Lowering.tellUpdateBlock
  by_cases empty : updates.isEmpty
  · rw [if_pos empty]
    exact .pure ⟨rfl, empty.symm⟩
  · rw [if_neg empty]
    refine .bind (tellCreate id _ session) fun events block next counts => .pure ⟨?_, ?_⟩
    · rw [completed_append, counts]
      rfl
    · simpa using empty

theorem tellForUpdates {updates : List ExprId} {block : Option BlockId}
    (same : block.isNone = updates.isEmpty) : (tellForUpdates program id updates block).Completes
      (demand program (updates.flatMap (walkExpr program))) := by
  cases block with
  | none =>
      rw [List.isEmpty_iff.mp same.symm]
      exact pure ()
  | some block =>
      exact of_eq ((tellEnter id block false).bind fun _ => tellExprs updates) (Nat.zero_add _)

theorem tellForCondition (endBlock : BlockId) (condition : Option ExprId) :
    (tellForCondition program id endBlock condition).Completes
      (demand program (condition.toList.flatMap (walkExpr program))) := by
  cases condition with
  | none => exact pure ()
  | some condition =>
      apply of_eq ((tellCreate id _).bind fun body => (tellValue condition).bind fun value =>
        (tellTest id value body endBlock).bind fun _ => tellEnter id body false)
      simp

theorem tellReturn (value : Option ExprId) : (tellReturn program id value).Completes
    (demand program (value.toList.flatMap (walkExpr program)) + 1) := by
  cases value with
  | none => exact closing (fun _ => .jump id) _ fun _ => rfl
  | some expr =>
      apply of_eq ((tellValue expr).bind fun value =>
        closing (fun _ => .jump id) _ fun _ => rfl)
      simp

include each

theorem tellIf (condition : ExprId) (thenBody : StmtId) (elseBody : Option StmtId) :
    (tellIf program tell id condition thenBody elseBody).Completes
      (demand program (walkNodeOf program walk (.ifThenElse condition thenBody elseBody)) + 1) := by
  cases elseBody with
  | none =>
      apply of_eq ((tellValue condition).bind fun value =>
        (tellCreate id _).bind fun thenBlock => (tellCreate id _).bind fun endBlock =>
        (tellTest id value thenBlock endBlock).bind fun _ =>
        (tellEnter id thenBlock false).bind fun _ => (each thenBody).bind fun _ =>
        (tellLeave id endBlock).bind fun _ => tellEnter id endBlock true)
      simp [walkNodeOf]
      omega
  | some elseBody =>
      apply of_eq ((tellValue condition).bind fun value =>
        (tellCreate id _).bind fun thenBlock => (tellCreate id _).bind fun endBlock =>
        (tellCreate id _).bind fun elseBlock =>
        (tellTest id value thenBlock elseBlock).bind fun _ =>
        (tellEnter id thenBlock false).bind fun _ => (each thenBody).bind fun _ =>
        (tellLeave id endBlock).bind fun _ =>
        (tellEnter id elseBlock false).bind fun _ => (each elseBody).bind fun _ =>
        (tellLeave id endBlock).bind fun _ => tellEnter id endBlock true)
      simp [walkNodeOf]
      omega

theorem tellWhile (condition : ExprId) (body : StmtId) :
    (tellWhile program tell id condition body).Completes
      (demand program (walkNodeOf program walk (.whileLoop condition body)) + 1) := by
  apply of_eq ((tellCreate id _).bind fun condBlock => (tellCreate id _).bind fun bodyBlock =>
    (tellCreate id _).bind fun endBlock => (tellLoop id _).bind fun _ =>
    (tellEnter id condBlock false).bind fun _ => (tellValue condition).bind fun value =>
    (tellTest id value bodyBlock endBlock).bind fun _ =>
    (tellEnter id bodyBlock false).bind fun _ => (each body).bind fun _ =>
    (tellLeave id condBlock).bind fun _ => tellEnter id endBlock true)
  simp [walkNodeOf]
  omega

theorem tellForInit (initial : ForInit) : (tellForInit program tell initial).Completes
    (demand program (walkForInit program walk initial)) := by
  cases initial with
  | decl stmt => exact each stmt
  | exprs exprs => exact tellExprs exprs

theorem tellFor (initial : ForInit) (condition : Option ExprId) (updates : List ExprId)
    (body : StmtId) : (tellFor program tell id initial condition updates body).Completes
      (demand program (walkNodeOf program walk (.forLoop initial condition updates body)) + 1) := by
  apply of_eq ((tellForInit each initial).bind fun _ => (tellCreate id _).bind fun condBlock =>
    (tellCreate id _).bind fun endBlock => (tellEnter id condBlock false).bind fun _ =>
    bind_of (tellUpdateBlock id updates) fun updateBlock same => (tellLoop id _).bind fun _ =>
    (tellForCondition id endBlock condition).bind fun _ => (each body).bind fun _ =>
    (tellForUpdates id same).bind fun _ => (tellLeave id condBlock).bind fun _ =>
    tellEnter id endBlock true)
  simp only [walkNodeOf, demand_append, Bool.toNat_false, Bool.toNat_true]
  omega

end Nodes

/-! ### Functions and programs -/

variable {finish : String → Lower Unit} {tell : StmtId → Told Unit} {walk : StmtId → List Node}

theorem tellFunctionBody (decl : FunctionDecl) {count : Nat}
    (body : (tell decl.body).Completes count) :
    (tellFunctionBody program finish tell decl).Completes (decl.params.length + count + 1) := by
  have params : (decl.params.zipIdx.forM fun pair => Told.telling (fun _ => .param pair.1 pair.2)
      (lowerParam program pair.1 pair.2)).Completes decl.params.length := by
    apply of_eq (forM (fun pair => closing _ _ fun _ => rfl) _)
    simp
  have finishes : (Told.telling (fun _ => .finish decl.name) (finish decl.name)).Completes 1 :=
    closing _ _ fun _ => rfl
  rw [Nat.add_assoc]
  refine params.bind fun _ => body.bind fun _ => ?_
  cases decl.returnsNothing with
  | true => exact ((silent (fun _ => .returnIfLive none) _ fun _ => rfl).bind fun _ =>
      finishes).of_eq (Nat.zero_add 1)
  | false => exact finishes

theorem tellFunctionDecl (each : ∀ id, (tell id).Completes (demand program (walk id)))
    (id : FuncId) : (tellFunctionDecl program finish tell id).Completes
      (demand program (walkFunction program walk id)) := by
  apply orFault_bind
  intro decl found
  have walks : walkFunction program walk id =
      .function id :: (decl.params.map .param ++ walk decl.body) := by rw [walkFunction, found]
  refine of_eq ((asking _).bind fun cursor =>
    (silent (fun _ => .start decl.name) _ fun _ => rfl).bind fun _ =>
    (tellFunctionBody decl (each decl.body)).bind fun _ =>
      silent (fun _ => .resume cursor.position) _ fun _ => rfl) ?_
  rw [walks, demand_function, demand_append, demand_params]
  omega

theorem tellNodeOf (each : ∀ id, (tell id).Completes (demand program (walk id))) (id : StmtId)
    (stmt : Stmt) : (tellNodeOf program finish tell id stmt).Completes
      (demand program (walkNodeOf program walk stmt) + if isControl stmt then 1 else 0) := by
  cases stmt with
  | expr expr => exact tellEffect expr
  | compound stmts => exact (forM each stmts).of_eq (demand_flatMap _ _ _).symm
  | varDecl vars => exact (forM tellVarDecl vars).of_eq (demand_flatMap _ _ _).symm
  | functionDecl func => exact tellFunctionDecl each func
  | ifThenElse condition thenBody elseBody => exact tellIf each id condition thenBody elseBody
  | whileLoop condition body => exact tellWhile each id condition body
  | forLoop initial condition updates body => exact tellFor each id initial condition updates body
  | continueLoop target => exact closing (fun _ => .jump id) _ fun _ => rfl
  | breakLoop target => exact closing (fun _ => .jump id) _ fun _ => rfl
  | returnValue value => exact tellReturn id value

theorem tellStmtWithin (depth : Nat) (id : StmtId) :
    (tellStmtWithin program finish depth id).Completes
      (demand program (walkStmtWithin program depth id)) := by
  induction depth generalizing id with
  | zero =>
      intro session events value next runs
      cases congrArg Prod.snd runs
  | succ depth induction =>
      apply of_eq ((silent (fun _ => .come (depth + 1) id) _ fun _ => rfl).bind
        fun _ => orFault_bind fun stmt found => ?_) (Nat.zero_add _)
      apply (tellNodeOf induction id stmt).of_eq
      simp [walkStmtWithin, found, demand, Node.takesNumbers, List.countP_cons]

theorem tellItems (entry : String) : (tellItems program finish entry).Completes
    (demand program (walkProgram program) + 1) := by
  have items : (program.items.forM
      (Lowering.tellStmtWithin program finish (stmtDepth program))).Completes
        (demand program (walkProgram program)) :=
    (forM (tellStmtWithin (stmtDepth program)) program.items).of_eq (demand_flatMap _ _ _).symm
  apply of_eq ((silent (fun _ => .start entry) _ fun _ => rfl).bind fun _ => items.bind fun _ =>
    (silent (fun _ => .returnIfLive (some (.ofInt64 0))) _ fun _ => rfl).bind fun _ =>
      closing (fun _ => .finish entry) _ fun _ => rfl)
  omega

end Told.Completes

section Runs

variable {program : Program} {options : Options} {module : Code.Module}

/-- A run that succeeds completes every node on the way, and the entry function. -/
theorem completed_history (lowers : lowerProgram program options = .ok module) :
    completed (history program options) = demand program (walkProgram program) + 1 := by
  obtain ⟨declared, last, _, told, _⟩ := exists_told lowers
  exact Told.Completes.tellItems _ _ _ _ _ told

/-- The nodes that the run completes leave half of the numbers over: none takes more than eight. -/
def NumbersLast (program : Program) (options : Options) : Prop :=
  completed (history program options) ≤ 2 ^ 28

theorem numbersLast_iff (lowers : lowerProgram program options = .ok module) :
    NumbersLast program options ↔ demand program (walkProgram program) < 2 ^ 28 := by
  rw [NumbersLast, completed_history lowers]
  exact Nat.succ_le_iff

theorem numbersLast_of_length (lowers : lowerProgram program options = .ok module)
    (few : (walkProgram program).length < 2 ^ 28) : NumbersLast program options :=
  (numbersLast_iff lowers).mpr (Nat.lt_of_le_of_lt (demand_le_length program _) few)

end Runs

end ScriptLowering.Lowering
