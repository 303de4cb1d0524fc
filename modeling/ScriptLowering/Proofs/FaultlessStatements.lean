import ScriptLowering.Proofs.FaultlessLowering

/-! # Statements without faults

Statements of programs that are resolved and in order are lowered without faults, by induction on
the depth to which they are followed. The depth is enough because no statement is come to twice.
-/

namespace ScriptLowering.Lowering

open Source (Program ExprId Stmt StmtId VarId VarDecl FuncId FunctionDecl ForInit)
open Code (BlockId Operand)

def StmtsPass (program : Program) (callable : FuncId → Prop) (finish : String → Lower Unit)
    (depth : Nat) : Prop :=
  ∀ {id : StmtId} {node : Stmt} {returns : Source.Ty} {loops : List StmtId} {locals : List VarId}
    {met above : List Node} {session : Session},
    program.stmt? id = some node → PartTyped program callable returns loops locals (.stmt id node) →
    session.Ready program loops locals met (walkStmtWithin program depth id) →
    Deep (stmtNodes program) above depth met →
    (lowerStmtWithin program finish depth id).Passes (walkStmtWithin program depth id) session
      fun _ => True

section Statements

variable {program : Program} {callable : FuncId → Prop}
  (arranged : Arranged program) {loops : List StmtId}
  {locals : List VarId} {met above : List Node} {session : Session} {returns : Source.Ty}
  {id : StmtId}

include arranged

/-! ## Declarations -/

theorem Arranged.passes_lowerVarDecls {vars : List VarId}
    (typed : PartTyped program callable returns loops locals (.stmt id (.varDecl vars)))
    (ready : session.Ready program loops locals met (vars.flatMap (walkVar program))) :
    (vars.forM (lowerVarDecl program)).Passes (vars.flatMap (walkVar program)) session
      fun _ => True := by
  induction vars generalizing locals met session with
  | nil => exact .pure trivial
  | cons var rest induction =>
      cases typed with
      | vars first others =>
          rw [List.flatMap_cons] at ready ⊢
          rw [Lower.forM_cons]
          refine ready.bind arranged (arranged.passes_lowerVarDecl first ready.left)
            fun _ next readyNext learns _ => ?_
          refine induction others (readyNext.withLocals fun other member => ?_)
          have same : other = var := List.mem_singleton.mp (List.mem_of_mem_filter member)
          refine learns.gained other (List.mem_map.mpr ⟨.var var, ?_, by rw [same]; rfl⟩)
          unfold walkVar
          split <;> simp

theorem Arranged.passes_lowerParams {params : List VarId} {index : Nat}
    (known : ∀ param ∈ params, ∃ decl, program.var? param = some decl)
    (ready : session.Ready program loops locals met (params.map .param)) :
    ((params.zipIdx index).forM fun pair => lowerParam program pair.1 pair.2).Passes
      (params.map .param) session fun _ => True := by
  induction params generalizing index met session with
  | nil => exact .pure trivial
  | cons param rest induction =>
      rcases known param List.mem_cons_self with ⟨decl, found⟩
      have nodes : (param :: rest).map Node.param = [.param param] ++ rest.map .param := rfl
      rw [nodes] at ready ⊢
      rw [List.zipIdx_cons, Lower.forM_cons]
      have first : (lowerParam program param index).Passes [.param param] session
          fun _ => True := by
        unfold lowerParam
        rw [found, Lower.orFault_some_bind]
        refine ready.left.build arranged (.define _ _) fun slot next ready => ?_
        refine ready.build arranged (.insert _) fun _ next ready => ?_
        exact passes_setStorage rfl (ready.unaware _ List.mem_cons_self)
      exact ready.bind arranged first fun _ next readyNext _ _ =>
        induction (fun other member => known other (List.mem_cons_of_mem _ member)) readyNext

/-! ## Control flow -/

section Control

variable {finish : String → Lower Unit} {depth : Nat}
  (stmts : StmtsPass program callable finish depth)
  (deep : Deep (stmtNodes program) above depth met)

include stmts deep

omit arranged stmts in
theorem mem_walk_of_declares (arranged : Arranged program) {nodes : List Node}
    (ready : session.Ready program loops locals met nodes) {head : StmtId} {node : Stmt}
    (found : program.stmt? head = some node) {var : VarId}
    (declared : var ∈ declares program node) : .var var ∈ walkStmtWithin program depth head := by
  cases depth with
  | zero =>
      have distinct := List.Nodup.of_map _ (ready.distinct arranged)
      exact (deep.not_bottom (distinct.sublist (List.sublist_append_left _ _))).elim
  | succ depth =>
      simp only [walkStmtWithin, found]
      refine List.mem_cons_of_mem _ ?_
      cases node with
      | varDecl vars =>
          refine List.mem_flatMap.mpr ⟨var, List.mem_of_mem_filter declared, ?_⟩
          unfold walkVar
          split <;> simp
      | _ => cases declared

theorem Arranged.passes_lowerStmts {items : List StmtId}
    (typed : PartTyped program callable returns loops locals (.stmt id (.compound items)))
    (ready : session.Ready program loops locals met
      (items.flatMap (walkStmtWithin program depth))) :
    (items.forM (lowerStmtWithin program finish depth)).Passes
      (items.flatMap (walkStmtWithin program depth)) session fun _ => True := by
  induction items generalizing locals met session with
  | nil => exact .pure trivial
  | cons head tail induction =>
      cases typed with
      | sequence found first rest =>
          rw [List.flatMap_cons] at ready ⊢
          rw [Lower.forM_cons]
          refine ready.bind arranged (stmts found first ready.left deep)
            fun _ next readyNext learns _ => ?_
          refine induction (deep.later _) rest (readyNext.withLocals fun var declared => ?_)
          exact learns.gained var (List.mem_map.mpr
            ⟨_, mem_walk_of_declares deep arranged ready found declared, rfl⟩)

theorem Arranged.passes_lowerIf {condition : ExprId} {thenBody : StmtId}
    {elseBody : Option StmtId}
    (typed : PartTyped program callable returns loops locals
      (.stmt id (.ifThenElse condition thenBody elseBody)))
    (ready : session.Ready program loops locals met (walkExpr program condition ++
      (walkStmtWithin program depth thenBody ++
        elseBody.toList.flatMap (walkStmtWithin program depth)))) :
    (lowerIf program (lowerStmtWithin program finish depth) condition thenBody elseBody).Passes
      (walkExpr program condition ++ (walkStmtWithin program depth thenBody ++
        elseBody.toList.flatMap (walkStmtWithin program depth))) session fun _ => True := by
  unfold lowerIf
  cases typed with
  | ifThen tests found body =>
      refine ready.bind arranged (arranged.passes_lowerValue tests (by simp) ready.left)
        fun value next ready _ _ => ?_
      refine ready.build arranged (.createBlock _) fun thenBlock next ready => ?_
      refine ready.build arranged (.createBlock _) fun endBlock next ready => ?_
      refine ready.build arranged (.terminate _) fun _ next ready => ?_
      refine ready.build arranged (.enter _ _) fun _ next ready => ?_
      refine ready.bind arranged (stmts found body ready.left (deep.later _))
        fun _ next ready _ _ => ?_
      exact .of_silent (.bind (.leaveTo _) fun _ => .enter _ _) next
  | ifThenElse tests thenFound elseFound thenPart elsePart =>
      rw [Option.toList_some, List.flatMap_singleton] at ready ⊢
      refine ready.bind arranged (arranged.passes_lowerValue tests (by simp) ready.left)
        fun value next ready _ _ => ?_
      refine ready.build arranged (.createBlock _) fun thenBlock next ready => ?_
      refine ready.build arranged (.createBlock _) fun endBlock next ready => ?_
      refine ready.build arranged (.createBlock _) fun elseBlock next ready => ?_
      refine ready.build arranged (.terminate _) fun _ next ready => ?_
      refine ready.build arranged (.enter _ _) fun _ next ready => ?_
      refine ready.bind arranged (stmts thenFound thenPart ready.left (deep.later _))
        fun _ next ready _ _ => ?_
      refine ready.build arranged (.leaveTo _) fun _ next ready => ?_
      refine ready.build arranged (.enter _ _) fun _ next ready => ?_
      exact (stmts elseFound elsePart ready ((deep.later _).later _)).thenBuild
        fun _ => .bind (.leaveTo _) fun _ => .enter _ _

theorem Arranged.passes_lowerWhile {condition : ExprId} {body : StmtId}
    (typed : PartTyped program callable returns loops locals (.stmt id (.whileLoop condition body)))
    (ready : session.Ready program loops locals met
      (walkExpr program condition ++ walkStmtWithin program depth body))
    (unaware : ¬ session.Knows (.stmt id))
    (apart : .stmt id ∉ walkExpr program condition ++ walkStmtWithin program depth body) :
    (lowerWhile program (lowerStmtWithin program finish depth) id condition body).Passes
      ([.stmt id] ++ (walkExpr program condition ++ walkStmtWithin program depth body)) session
      fun _ => True := by
  unfold lowerWhile
  cases typed with
  | whileLoop tests found part =>
      refine .build (.createBlock _) fun condBlock next first => ?_
      refine .build (.createBlock _) fun bodyBlock next second => ?_
      refine .build (.createBlock _) fun endBlock next third => ?_
      have nothing := (first.trans second).trans third
      refine (ready.stay arranged nothing).loop (fun knows => unaware (nothing.knows_of_nil knows))
        apart fun next ready => ?_
      refine ready.build arranged (.enter _ _) fun _ next ready => ?_
      refine ready.bind arranged (arranged.passes_lowerValue tests (by simp) ready.left)
        fun value next ready _ _ => ?_
      refine ready.build arranged (.terminate _) fun _ next ready => ?_
      refine ready.build arranged (.enter _ _) fun _ next ready => ?_
      exact (stmts found part ready (deep.later _)).thenBuild
        fun _ => .bind (.leaveTo _) fun _ => .enter _ _

/-! ### For loops -/

theorem Arranged.passes_lowerForInit {initial : ForInit}
    (typed : PartTyped program callable returns loops locals (.initial initial))
    (ready : session.Ready program loops locals met
      (walkForInit program (walkStmtWithin program depth) initial)) :
    (lowerForInit program (lowerStmtWithin program finish depth) initial).Passes
      (walkForInit program (walkStmtWithin program depth) initial) session fun _ => True := by
  cases typed with
  | initialDecl found part => exact stmts found part ready deep
  | initialExprs typed => exact arranged.passes_lowerEach typed ready

omit arranged stmts in
theorem mem_walk_of_initialDeclares (arranged : Arranged program) {nodes : List Node}
    (ready : session.Ready program loops locals met nodes) {initial : ForInit} {var : VarId}
    (declared : var ∈ initialDeclares program initial) :
    .var var ∈ walkForInit program (walkStmtWithin program depth) initial := by
  cases initial with
  | exprs exprs => cases declared
  | decl stmt =>
      cases found : program.stmt? stmt with
      | none => simp [initialDeclares, found] at declared
      | some node =>
          have isDeclared : var ∈ declares program node := by
            simpa [initialDeclares, found] using declared
          exact mem_walk_of_declares deep arranged ready found isDeclared

omit stmts deep in
theorem Arranged.passes_lowerForCondition {condition : Option ExprId} (endBlock : BlockId)
    (typed : ∀ expr, condition = some expr → ExprTyped program callable locals expr .boolean)
    (ready : session.Ready program loops locals met
      (condition.toList.flatMap (walkExpr program))) :
    (lowerForCondition program endBlock condition).Passes
      (condition.toList.flatMap (walkExpr program)) session fun _ => True := by
  cases condition with
  | none => exact .pure trivial
  | some condition =>
      rw [Option.toList_some, List.flatMap_singleton] at ready ⊢
      unfold lowerForCondition
      refine ready.build arranged (.createBlock _) fun bodyBlock next ready => ?_
      exact (arranged.passes_lowerValue (typed condition rfl) (by simp) ready).thenBuild
        fun _ => .bind (.terminate _) fun _ => .enter _ _

omit arranged stmts deep in
theorem passes_createUpdateBlock (updates : List ExprId) :
    (createUpdateBlock updates).Passes [] session fun block => block = none → updates = [] := by
  unfold createUpdateBlock
  split
  · rename_i empty
    exact .pure fun _ => by simpa using empty
  · exact ((Lower.Passes.of_silent (.createBlock _) session).mono
      fun _ _ absurd => by cases absurd).map

omit stmts deep in
theorem Arranged.passes_lowerForUpdates {updates : List ExprId} {block : Option BlockId}
    (nothing : block = none → updates = [])
    (typed : ∀ update ∈ updates, ∃ ty, ExprTyped program callable locals update ty)
    (ready : session.Ready program loops locals met (updates.flatMap (walkExpr program))) :
    (lowerForUpdates program updates block).Passes (updates.flatMap (walkExpr program)) session
      fun _ => True := by
  cases block with
  | none =>
      rw [nothing rfl]
      exact .pure trivial
  | some block =>
      unfold lowerForUpdates
      refine ready.build arranged (.enter _ _) fun _ next ready => ?_
      exact arranged.passes_lowerEach typed ready

theorem Arranged.passes_lowerFor {initial : ForInit} {condition : Option ExprId}
    {updates : List ExprId} {body : StmtId} {first rest : List Node}
    (typed : PartTyped program callable returns loops locals
      (.stmt id (.forLoop initial condition updates body)))
    (begins : first = walkForInit program (walkStmtWithin program depth) initial)
    (goesOn : rest = condition.toList.flatMap (walkExpr program) ++
      (walkStmtWithin program depth body ++ updates.flatMap (walkExpr program)))
    (ready : session.Ready program loops locals met (first ++ rest))
    (unaware : ¬ session.Knows (.stmt id)) (apart : .stmt id ∉ first ++ rest) :
    (lowerFor program (lowerStmtWithin program finish depth) id initial condition updates
      body).Passes ([.stmt id] ++ (first ++ rest)) session fun _ => True := by
  rw [List.mem_append, not_or] at apart
  cases typed with
  | forLoop starts tests found part renews =>
      have begun : (lowerForInit program (lowerStmtWithin program finish depth) initial).Passes
          first session fun _ => True := by
        subst begins
        exact arranged.passes_lowerForInit stmts deep starts ready.left
      unfold lowerFor
      refine Lower.Ensures.bind begun fun _ started learned => ?_
      have still : ¬ started.Knows (.stmt id) := by
        intro knows
        rcases learned.1.only _ knows with old | new
        · exact unaware old
        · rcases List.mem_map.mp new with ⟨node, member, same⟩
          cases node <;> cases same
          exact apart.1 member
      have known : ∀ var ∈ initialDeclares program initial, started.Knows (.var var) := by
        intro var declared
        subst begins
        exact learned.1.gained var (List.mem_map.mpr
          ⟨_, mem_walk_of_initialDeclares deep arranged ready declared, rfl⟩)
      have readyStarted := (ready.advance arranged learned.1).withLocals known
      refine Lower.Ensures.mono (?_ : Lower.Passes _ ([.stmt id] ++ rest) started fun _ => True)
        fun _ _ others => ⟨(learned.1.trans others.1).perm List.perm_middle, trivial⟩
      refine .build (.createBlock _) fun condBlock next first => ?_
      refine .build (.createBlock _) fun endBlock next second => ?_
      refine .build (.enter _ _) fun _ next third => ?_
      refine .after (passes_createUpdateBlock updates) fun updateBlock next fourth updating => ?_
      have nothing := ((first.trans second).trans third).trans fourth
      refine (readyStarted.stay arranged nothing).loop
        (fun knows => still (nothing.knows_of_nil knows)) apart.2 fun next ready => ?_
      subst goesOn
      refine ready.bind arranged (arranged.passes_lowerForCondition _ tests ready.left)
        fun _ next ready _ _ => ?_
      refine ready.bind arranged (stmts found part ready.left ((deep.later _).later _))
        fun _ next ready _ _ => ?_
      exact (arranged.passes_lowerForUpdates updating renews ready).thenBuild
        fun _ => .bind (.leaveTo _) fun _ => .enter _ _

/-! ### Functions -/

theorem Arranged.passes_lowerFunctionDecl (resolved : WellResolved program callable)
    (finishing : ∀ name, Silent (finish name)) {func : FuncId}
    (ready : session.Ready program loops locals met
      (walkFunction program (walkStmtWithin program depth) func)) :
    (lowerFunctionDecl program finish (lowerStmtWithin program finish depth) func).Passes
      (walkFunction program (walkStmtWithin program depth) func) session fun _ => True := by
  have reached : func ∈ functionsOf (walkProgram program) := by
    rcases ready.follows with ⟨rest, splits⟩
    refine List.mem_filterMap.mpr ⟨.function func, ?_, rfl⟩
    rw [← splits]
    simp [walkFunction]
  rcases resolved.functions func reached with ⟨decl, found, areLocal, foundBody, body⟩
  have nodes : walkFunction program (walkStmtWithin program depth) func =
      [.function func] ++ (decl.params.map .param ++ walkStmtWithin program depth decl.body) := by
    simp [walkFunction, found]
  rw [nodes] at ready ⊢
  unfold lowerFunctionDecl
  rw [found, Lower.orFault_some_bind]
  have params : ∀ session, session.Ready program loops locals (met ++ [.function func])
      (decl.params.map .param) →
      (decl.params.zipIdx.forM fun pair => lowerParam program pair.1 pair.2).Passes
        (decl.params.map .param) session fun _ => True :=
    fun _ ready => arranged.passes_lowerParams (fun param member =>
      (areLocal param member).imp fun _ facts => facts.1) ready
  have node : Lower.cursor.Passes [.function func] session fun _ => True :=
    .of_ok rfl ⟨.none session (by simp [Node.plain]), trivial⟩
  refine ready.bind arranged node fun cursor next ready _ _ => ?_
  refine ready.build arranged (.openFunction _) fun _ next ready => ?_
  refine ready.bind arranged (params next ready.left) fun _ next readyBody learns _ => ?_
  have given : ∀ param ∈ decl.params, next.Knows (.var param) := by
    intro param member
    refine learns.gained param (List.mem_map.mpr ⟨.param param, ?_, rfl⟩)
    exact List.mem_map_of_mem member
  refine (stmts foundBody body (readyBody.inFunction given)
    ((deep.later _).later _)).thenBuild fun _ => ?_
  have ending : Silent (do
      finish decl.name
      Lower.moveCursor fun other => other.setPosition cursor.position) :=
    .bind (finishing _) fun _ => .setPosition _
  split
  · exact .bind (.returnIfLive _) fun _ => ending
  · exact ending

end Control

/-! ## All statements -/

omit arranged in
theorem passes_lowerJump {target : StmtId} {step : LoopBlocks → Lower Unit}
    (knows : session.Knows (.stmt target)) (silent : ∀ blocks, Silent (step blocks)) :
    (Lower.consult (fun annotations => annotations.loopOf target) >>= step).Passes [] session
      fun _ => True := by
  rcases knows with ⟨blocks, known⟩
  refine Lower.Ensures.consult_bind (fun fault refused => ?_) fun blocks _ =>
    Lower.Passes.of_silent (silent blocks) session
  rw [known] at refused
  cases refused

theorem Arranged.passes_lowerReturn {value : Option ExprId}
    (typed : PartTyped program callable returns loops locals (.stmt id (.returnValue value)))
    (ready : session.Ready program loops locals met (value.toList.flatMap (walkExpr program))) :
    (lowerReturn program value).Passes (value.toList.flatMap (walkExpr program)) session
      fun _ => True := by
  cases typed with
  | returnNothing nothing => exact .of_silent (.terminate _) session
  | returnValue something typed =>
      rw [Option.toList_some, List.flatMap_singleton] at ready ⊢
      exact (arranged.passes_lowerValue typed something ready).thenBuild fun _ => .terminate _

theorem Arranged.passes_lowerNodeOf (resolved : WellResolved program callable)
    {finish : String → Lower Unit} (finishing : ∀ name, Silent (finish name)) {depth : Nat}
    (stmts : StmtsPass program callable finish depth)
    (deep : Deep (stmtNodes program) above depth (met ++ [.stmt id])) {node : Stmt}
    (typed : PartTyped program callable returns loops locals (.stmt id node))
    (ready : session.Ready program loops locals met
      ([.stmt id] ++ walkNodeOf program (walkStmtWithin program depth) node)) :
    (lowerNodeOf program finish (lowerStmtWithin program finish depth) id node).Passes
      ([.stmt id] ++ walkNodeOf program (walkStmtWithin program depth) node) session
      fun _ => True := by
  have inside := ready.advance arranged (.none session (by simp [Node.plain]))
  have unaware := ready.unaware (.stmt id) List.mem_cons_self
  have apart : .stmt id ∉ walkNodeOf program (walkStmtWithin program depth) node :=
    ready.apart arranged (by simp)
  have skip : ∀ {step : Lower Unit} {nodes : List Node},
      step.Passes nodes session (fun _ => True) →
        step.Passes ([.stmt id] ++ nodes) session fun _ => True := by
    intro step nodes passes
    refine Lower.Ensures.mono passes fun _ _ holds => ⟨?_, trivial⟩
    exact (Session.Learns.none session (by simp [Node.plain])).trans holds.1
  cases node with
  | expr expr =>
      cases typed with
      | expr typed => exact skip (arranged.passes_lowerEffect typed inside)
  | compound items => exact skip (arranged.passes_lowerStmts stmts deep typed inside)
  | varDecl vars => exact skip (arranged.passes_lowerVarDecls typed inside)
  | functionDecl func =>
      exact skip (arranged.passes_lowerFunctionDecl stmts deep resolved finishing inside)
  | ifThenElse condition thenBody elseBody =>
      exact skip (arranged.passes_lowerIf stmts deep typed inside)
  | whileLoop condition body =>
      exact arranged.passes_lowerWhile stmts deep typed inside unaware apart
  | forLoop initial condition updates body =>
      exact arranged.passes_lowerFor stmts deep typed rfl rfl inside unaware apart
  | continueLoop target =>
      cases typed with
      | continueLoop encloses =>
          exact skip (passes_lowerJump (ready.loops target encloses) fun _ => .terminate _)
  | breakLoop target =>
      cases typed with
      | breakLoop encloses =>
          exact skip (passes_lowerJump (ready.loops target encloses) fun _ => .terminate _)
  | returnValue value => exact skip (arranged.passes_lowerReturn typed inside)

theorem Arranged.stmtsPass (resolved : WellResolved program callable) {finish : String → Lower Unit}
    (finishing : ∀ name, Silent (finish name)) (depth : Nat) :
    StmtsPass program callable finish depth := by
  induction depth with
  | zero =>
      intro id node returns loops locals met above session _ _ ready deep
      have distinct := List.Nodup.of_map _ (ready.distinct arranged)
      exact (deep.not_bottom (distinct.sublist (List.sublist_append_left _ _))).elim
  | succ depth induction =>
      intro id node returns loops locals met above session found typed ready deep
      have nodes : walkStmtWithin program (depth + 1) id =
          [.stmt id] ++ walkNodeOf program (walkStmtWithin program depth) node := by
        simp [walkStmtWithin, found]
      rw [nodes] at ready ⊢
      unfold lowerStmtWithin
      rw [found, Lower.orFault_some_bind]
      exact arranged.passes_lowerNodeOf resolved finishing induction
        (deep.down (mem_stmtNodes found)) typed ready

end Statements

end ScriptLowering.Lowering
