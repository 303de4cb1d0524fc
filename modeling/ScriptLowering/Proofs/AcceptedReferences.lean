import ScriptLowering.Proofs.VerifierChecks
import ScriptLowering.Proofs.LearningSteps
import ScriptLowering.Proofs.Table

/-! # References of accepted programs

Lowering looks up loops and variables in what it has learnt, and it never forgets. So a reference
that it accepts leads to a loop or a declaration that it has come to before, and this need not
be the right one: the loop may have been left, and the declaration may belong to another
function.
-/

namespace ScriptLowering.Lowering

open Source (Program ExprId ForInit FuncId Stmt StmtId VarDecl VarId)
open Code (BlockId Operand)

variable {program : Program}

/-! ## What a session has come to -/

/-- Everything that the session has learnt of was come to before. -/
structure Session.Recalls (program : Program) (before : List (Setting × Node))
    (session : Session) : Prop where
  loops : ∀ id, session.annotations.loops.contains id = true → HasLoop program before id
  storage : ∀ id, session.annotations.storage.contains id = true →
    ∃ setting, DeclaresIn before setting id

theorem Session.Recalls.mono {before more : List (Setting × Node)} {session : Session}
    (recalls : session.Recalls program before) (within : before ⊆ more) :
    session.Recalls program more where
  loops := fun id known => (recalls.loops id known).mono within
  storage := by
    intro id known
    rcases recalls.storage id known with ⟨setting, declared⟩
    exact ⟨setting, declared.mono within⟩

theorem Session.Recalls.of_same {before : List (Setting × Node)} {session next : Session}
    (recalls : session.Recalls program before)
    (storage : next.annotations.storage = session.annotations.storage)
    (loops : next.annotations.loops = session.annotations.loops) :
    next.Recalls program before where
  loops := by rw [loops]; exact recalls.loops
  storage := by rw [storage]; exact recalls.storage

/-- The step comes to `occurring`, and what these refer to has been come to before. -/
def Grounds (program : Program) {α : Type} (occurring : List (Setting × Node)) (step : Lower α) :
    Prop :=
  ∀ before (session : Session), session.Recalls program before →
    step.Ensures session (fun _ next => Grounded program before occurring ∧
      next.Recalls program (before ++ occurring)) fun _ => True

namespace Grounds

variable {α β : Type} {occurring more : List (Setting × Node)}

theorem of_steady {step : Lower α} (steady : Steady step) : Grounds program [] step := by
  intro before session recalls
  apply (steady session).mono
  intro _ next same
  rw [List.append_nil]
  exact ⟨trivial, recalls.of_same (congrArg _ same) (congrArg _ same)⟩

theorem bind {step : Lower α} {rest : α → Lower β} (grounds : Grounds program occurring step)
    (restGrounds : ∀ value, Grounds program more (rest value)) :
    Grounds program (occurring ++ more) (step >>= rest) := by
  intro before session recalls
  apply (grounds before session recalls).bind
  rintro value between ⟨early, recallsBetween⟩
  apply (restGrounds value _ between recallsBetween).mono
  rintro _ next ⟨late, recallsNext⟩
  rw [← List.append_assoc]
  exact ⟨grounded_append.mpr ⟨early, late⟩, recallsNext⟩

theorem after {step : Lower α} {rest : α → Lower β} (steady : Steady step)
    (restGrounds : ∀ value, Grounds program occurring (rest value)) :
    Grounds program occurring (step >>= rest) :=
  bind (of_steady steady) restGrounds

theorem thenSteady {step : Lower α} {rest : α → Lower β}
    (grounds : Grounds program occurring step) (steady : ∀ value, Steady (rest value)) :
    Grounds program occurring (step >>= rest) := by
  have both := grounds.bind fun value => of_steady (steady value)
  rw [List.append_nil] at both
  exact both

theorem forM {items : List α} {walk : α → List (Setting × Node)} {body : α → Lower Unit}
    (grounds : ∀ item, Grounds program (walk item) (body item)) :
    Grounds program (items.flatMap walk) (items.forM body) := by
  induction items with
  | nil => exact of_steady (.pure _)
  | cons item rest induction =>
      rw [Lower.forM_cons, List.flatMap_cons]
      exact (grounds item).bind fun _ => induction

theorem of_reads {step : Lower α} {nodes : List Node} (reads : Reads (usesOf program nodes) step)
    (still : ∀ node ∈ nodes, node.jumpsTo? program = none) (setting : Setting) :
    Grounds program (setting.occurrences nodes) step := by
  intro before session recalls
  apply (reads session).mono
  rintro _ next ⟨⟨storage, loops⟩, stored⟩
  refine ⟨grounded_of_all ?_, ?_⟩
  · intro pair member
    rcases List.mem_map.mp member with ⟨node, inside, rfl⟩
    refine ⟨fun target jumps => ?_, fun id uses => ?_⟩
    · rw [still node inside] at jumps
      cases jumps
    · exact recalls.storage id (stored id (List.mem_filterMap.mpr ⟨node, inside, uses⟩))
  · exact (recalls.of_same storage loops).mono (List.subset_append_left _ _)

theorem lowerValue (id : ExprId) (setting : Setting) :
    Grounds program (setting.occurrences (walkExpr program id)) (lowerValue program id) :=
  of_reads (reads_lowerValue id) (fun _ => jumpsTo?_of_mem_walkExprWithin) setting

theorem lowerExprs (ids : List ExprId) (setting : Setting) :
    Grounds program (setting.occurrences (ids.flatMap (walkExpr program)))
      (ids.forM fun id => do let _ ← lowerExpr program id) :=
  of_reads (reads_lowerExprs ids) (fun _ => jumpsTo?_of_mem_walkExprs) setting

theorem setStorage {node : Node} {id : VarId} (declares : node = .var id ∨ node = .param id)
    (setting : Setting) (address : Operand) :
    Grounds program [(setting, node)]
      (Lower.annotate fun annotations => annotations.setStorage id address) := by
  intro before session recalls
  apply Lower.Ensures.of_bind_pure
  refine .annotate_bind (fun _ _ => trivial) fun annotations records => .pure ⟨?_, ?_⟩
  · apply grounded_of_all
    intro pair member
    cases List.mem_singleton.mp member
    rcases declares with rfl | rfl <;> exact ⟨fun _ jumps => (by cases jumps),
      fun _ uses => by cases uses⟩
  · rcases Annotations.setStorage_eq_ok.mp records with ⟨_, rfl⟩
    refine ⟨fun other known => ?_, fun other known => ?_⟩
    · exact (recalls.loops other known).mono (List.subset_append_left _ _)
    · simp only [Table.contains, Table.get?_insert] at known
      split at known
      · rename_i same
        subst same
        refine ⟨setting, ?_⟩
        rcases declares with rfl | rfl <;> simp [DeclaresIn]
      · rcases recalls.storage other known with ⟨there, declared⟩
        exact ⟨there, declared.mono (List.subset_append_left _ _)⟩

end Grounds

/-! ## Declarations -/

theorem grounds_lowerGlobal (id : VarId) (decl : VarDecl) (value : Option Operand)
    (setting : Setting) :
    Grounds program [(setting, .var id)] (lowerGlobal program id decl value) := by
  refine .after (.consult _) fun initial => .after (.buildWith _) fun global => ?_
  cases value with
  | none => exact .setStorage (.inl rfl) setting (.global global)
  | some value =>
      dsimp only
      split
      · exact .after (.append _) fun _ => .setStorage (.inl rfl) setting _
      · exact .setStorage (.inl rfl) setting _

theorem grounds_lowerLocal (id : VarId) (decl : VarDecl) (value : Option Operand)
    (setting : Setting) : Grounds program [(setting, .var id)] (lowerLocal id decl value) := by
  refine .after (.emit _) fun slot => ?_
  cases value with
  | none => exact .setStorage (.inl rfl) setting slot
  | some value => exact .after (.append _) fun _ => .setStorage (.inl rfl) setting _

theorem grounds_lowerVarDecl (id : VarId) (setting : Setting) :
    Grounds program (setting.occurrences (walkVar program id)) (lowerVarDecl program id) := by
  unfold lowerVarDecl
  cases known : program.var? id with
  | none => exact fun _ _ _ => .of_error rfl trivial
  | some decl =>
      have splits : setting.occurrences (walkVar program id) =
          setting.occurrences (decl.initial.toList.flatMap (walkExpr program)) ++
            [(setting, .var id)] := by
        simp [walkVar, known, Setting.occurrences]
      rw [splits]
      have initial : Grounds program
          (setting.occurrences (decl.initial.toList.flatMap (walkExpr program)))
          (lowerInitial program decl) :=
        .of_reads (reads_lowerInitial decl) (fun _ => jumpsTo?_of_mem_walkExprs) setting
      rw [Lower.orFault_some_bind]
      split
      · exact fun _ _ _ => .of_error rfl trivial
      · refine initial.bind fun value => ?_
        cases decl.scope with
        | topLevel => exact grounds_lowerGlobal id decl value setting
        | «local» => exact grounds_lowerLocal id decl value setting

theorem grounds_lowerParam (id : VarId) (index : Nat) (setting : Setting) :
    Grounds program [(setting, .param id)] (lowerParam program id index) :=
  .after (.orFault _ _) fun _ => .after (.emit _) fun slot => .after (.append _) fun _ =>
    .setStorage (.inr rfl) setting slot

/-! ## Statements -/

/-- The statement `id`, which is `stmt`, is lowered by `step`. -/
def GroundsStmt (program : Program) (id : StmtId) (stmt : Stmt)
    (occurring : List (Setting × Node)) (step : Lower Unit) : Prop :=
  program.stmt? id = some stmt → ∀ before (session : Session),
    (∃ setting, (setting, Node.stmt id) ∈ before) → session.Recalls program before →
    step.Ensures session (fun _ next =>
      (∀ target, jumpTarget? stmt = some target → HasLoop program before target) ∧
      Grounded program before occurring ∧ next.Recalls program (before ++ occurring))
      fun _ => True

theorem Grounds.stmt {id : StmtId} {stmt : Stmt} {occurring : List (Setting × Node)}
    {step : Lower Unit} (grounds : Grounds program occurring step)
    (still : jumpTarget? stmt = none) : GroundsStmt program id stmt occurring step := by
  intro _ before session _ recalls
  apply (grounds before session recalls).mono
  intro _ next after
  refine ⟨fun target jumps => ?_, after⟩
  rw [still] at jumps
  cases jumps

theorem GroundsStmt.after {id : StmtId} {stmt : Stmt} {occurring : List (Setting × Node)}
    {α : Type} {step : Lower α} {rest : α → Lower Unit} (steady : Steady step)
    (grounds : ∀ value, GroundsStmt program id stmt occurring (rest value)) :
    GroundsStmt program id stmt occurring (step >>= rest) := by
  intro known before session member recalls
  apply (steady session).bind
  intro value next same
  exact grounds value known before next member
    (recalls.of_same (congrArg _ same) (congrArg _ same))

theorem GroundsStmt.setLoop {id : StmtId} {stmt : Stmt} {occurring : List (Setting × Node)}
    (loops : isLoop stmt = true) {blocks : LoopBlocks} {rest : Unit → Lower Unit}
    (grounds : Grounds program occurring (rest ())) :
    GroundsStmt program id stmt occurring
      ((Lower.annotate fun annotations => annotations.setLoop id blocks) >>= rest) := by
  intro known before session member recalls
  refine .annotate_bind (fun _ _ => trivial) fun annotations records => ?_
  refine grounds.stmt (jumpTarget?_of_isLoop loops) known before _ member ?_
  rcases Annotations.setLoop_eq_ok.mp records with ⟨_, rfl⟩
  refine ⟨fun other isKnown => ?_, recalls.storage⟩
  simp only [Table.contains, Table.get?_insert] at isKnown
  split at isKnown
  · rename_i same
    subst same
    exact ⟨member, stmt, known, loops⟩
  · exact recalls.loops other isKnown

theorem groundsStmt_jump {id target : StmtId} {stmt : Stmt} (jumps : jumpTarget? stmt = some target)
    (choose : LoopBlocks → BlockId) :
    GroundsStmt program id stmt [] (do
      let blocks ← Lower.consult fun annotations => annotations.loopOf target
      Lower.append fun cursor => cursor.jump (choose blocks)) := by
  intro _ before session _ recalls
  refine .consult_bind (fun _ _ => trivial) fun blocks found => ?_
  apply (Steady.append _ session).mono
  intro _ next same
  refine ⟨fun other isTarget => ?_, trivial, ?_⟩
  · cases jumps.symm.trans isTarget
    apply recalls.loops target
    rw [Table.contains, Annotations.loopOf_eq_ok.mp found]
    rfl
  · rw [List.append_nil]
    exact recalls.of_same (congrArg _ same) (congrArg _ same)

section Statements

variable {lower : StmtId → Lower Unit} {walk : Setting → StmtId → List (Setting × Node)}

theorem grounds_lowerIf (grounds : ∀ setting id, Grounds program (walk setting id) (lower id))
    (setting : Setting) (condition : ExprId) (thenBody : StmtId) (elseBody : Option StmtId) :
    Grounds program (setting.occurrences (walkExpr program condition) ++
        (walk setting thenBody ++ elseBody.toList.flatMap (walk setting)))
      (lowerIf program lower condition thenBody elseBody) := by
  refine (Grounds.lowerValue condition setting).bind fun value => .after (.createBlock _)
    fun thenBlock => .after (.createBlock _) fun endBlock => ?_
  cases elseBody with
  | none =>
      refine .after (.append _) fun _ => .after (.enter _ _) fun _ => ?_
      exact (grounds setting thenBody).bind fun _ =>
        .of_steady (.bind (.leaveTo _) fun _ => .enter _ _)
  | some elseBody =>
      refine .after (.createBlock _) fun elseBlock => .after (.append _) fun _ =>
        .after (.enter _ _) fun _ => (grounds setting thenBody).bind fun _ => ?_
      rw [Option.toList_some, List.flatMap_singleton]
      refine .after (.leaveTo _) fun _ => .after (.enter _ _) fun _ => ?_
      exact (grounds setting elseBody).thenSteady fun _ => .bind (.leaveTo _) fun _ => .enter _ _

theorem groundsStmt_lowerWhile
    (grounds : ∀ setting id, Grounds program (walk setting id) (lower id)) (setting : Setting)
    (id : StmtId) (condition : ExprId) (body : StmtId) :
    GroundsStmt program id (.whileLoop condition body)
      ((setting.inLoop id).occurrences (walkExpr program condition) ++
        walk (setting.inLoop id) body)
      (lowerWhile program lower id condition body) := by
  refine .after (.createBlock _) fun condBlock => .after (.createBlock _) fun bodyBlock =>
    .after (.createBlock _) fun endBlock => .setLoop rfl ?_
  refine .after (.enter _ _) fun _ =>
    (Grounds.lowerValue condition (setting.inLoop id)).bind fun value => ?_
  refine .after (.append _) fun _ => .after (.enter _ _) fun _ => ?_
  exact (grounds (setting.inLoop id) body).thenSteady fun _ =>
    .bind (.leaveTo _) fun _ => .enter _ _

theorem grounds_lowerForCondition (setting : Setting) (endBlock : BlockId)
    (condition : Option ExprId) :
    Grounds program (setting.occurrences (condition.toList.flatMap (walkExpr program)))
      (lowerForCondition program endBlock condition) := by
  cases condition with
  | none => exact .of_steady (.pure _)
  | some condition =>
      rw [Option.toList_some, List.flatMap_singleton]
      refine .after (.createBlock _) fun bodyBlock => ?_
      exact (Grounds.lowerValue condition setting).thenSteady fun _ =>
        .bind (.append _) fun _ => .enter _ _

theorem grounds_lowerForUpdates (setting : Setting) {updates : List ExprId}
    {updateBlock : Option BlockId} (fits : updateBlock = none → updates = []) :
    Grounds program (setting.occurrences (updates.flatMap (walkExpr program)))
      (lowerForUpdates program updates updateBlock) := by
  cases updateBlock with
  | none =>
      rw [fits rfl]
      exact .of_steady (.pure _)
  | some updateBlock =>
      exact .after (.enter _ _) fun _ => Grounds.lowerExprs updates setting

theorem grounds_lowerForInit (grounds : ∀ setting id, Grounds program (walk setting id) (lower id))
    (setting : Setting) (initial : ForInit) :
    Grounds program (occurrencesOfInit program (walk setting) setting initial)
      (lowerForInit program lower initial) := by
  cases initial with
  | decl stmt => exact grounds setting stmt
  | exprs exprs => exact Grounds.lowerExprs exprs setting

theorem GroundsStmt.createUpdateBlock {id : StmtId} {stmt : Stmt}
    {occurring : List (Setting × Node)} {updates : List ExprId} {rest : Option BlockId → Lower Unit}
    (grounds : ∀ updateBlock, (updateBlock = none → updates = []) →
      GroundsStmt program id stmt occurring (rest updateBlock)) :
    GroundsStmt program id stmt occurring (createUpdateBlock updates >>= rest) := by
  cases updates with
  | nil => exact grounds none fun _ => rfl
  | cons update updates =>
      have same : (Lowering.createUpdateBlock (update :: updates) >>= rest) =
          (createBlock "for.update" >>= fun updateBlock => rest (some updateBlock)) := by
        simp [Lowering.createUpdateBlock]
      rw [same]
      exact .after (.createBlock _) fun updateBlock => grounds (some updateBlock) nofun

theorem groundsStmt_lowerFor
    (grounds : ∀ setting id, Grounds program (walk setting id) (lower id)) (setting : Setting)
    (id : StmtId) (initial : ForInit) (condition : Option ExprId) (updates : List ExprId)
    (body : StmtId) :
    GroundsStmt program id (.forLoop initial condition updates body)
      (occurrencesOfInit program (walk setting) setting initial ++
        ((setting.inLoop id).occurrences (condition.toList.flatMap (walkExpr program)) ++
          (walk (setting.inLoop id) body ++
            (setting.inLoop id).occurrences (updates.flatMap (walkExpr program)))))
      (lowerFor program lower id initial condition updates body) := by
  intro known before session member recalls
  apply (grounds_lowerForInit grounds setting initial before session recalls).bind
  rintro _ begun ⟨early, recallsBegun⟩
  have rest : GroundsStmt program id (.forLoop initial condition updates body)
      ((setting.inLoop id).occurrences (condition.toList.flatMap (walkExpr program)) ++
        (walk (setting.inLoop id) body ++
          (setting.inLoop id).occurrences (updates.flatMap (walkExpr program))))
      (do
        let condBlock ← createBlock "for.cond"
        let endBlock ← createBlock "for.end"
        enter condBlock false
        let updateBlock ← createUpdateBlock updates
        Lower.annotate fun annotations =>
          annotations.setLoop id ⟨condBlock, updateBlock, endBlock⟩
        lowerForCondition program endBlock condition
        lower body
        lowerForUpdates program updates updateBlock
        leaveTo condBlock
        enter endBlock true) := by
    refine .after (.createBlock _) fun condBlock => .after (.createBlock _) fun endBlock =>
      .after (.enter _ _) fun _ => .createUpdateBlock fun updateBlock fits => .setLoop rfl ?_
    refine (grounds_lowerForCondition _ endBlock condition).bind fun _ =>
      (grounds _ body).bind fun _ => ?_
    exact (grounds_lowerForUpdates _ fits).thenSteady fun _ =>
      .bind (.leaveTo _) fun _ => .enter _ _
  have within : ∃ there, (there, Node.stmt id) ∈
      before ++ occurrencesOfInit program (walk setting) setting initial := by
    rcases member with ⟨there, isThere⟩
    exact ⟨there, List.mem_append_left _ isThere⟩
  apply (rest known _ begun within recallsBegun).mono
  rintro _ next ⟨_, late, recallsNext⟩
  refine ⟨fun _ jumps => (by cases jumps), grounded_append.mpr ⟨early, late⟩, ?_⟩
  rw [← List.append_assoc]
  exact recallsNext

theorem grounds_lowerFunctionDecl {finish : String → Lower Unit}
    (finishes : ∀ name, Steady (finish name))
    (grounds : ∀ setting id, Grounds program (walk setting id) (lower id)) (setting : Setting)
    (id : FuncId) :
    Grounds program ((setting, .function id) :: occurrencesOfFunction program walk id)
      (lowerFunctionDecl program finish lower id) := by
  have node : Grounds program [(setting, .function id)] (pure () : Lower Unit) := by
    intro before session recalls
    refine .pure ⟨grounded_of_all fun pair member => ?_,
      recalls.mono (List.subset_append_left _ _)⟩
    cases List.mem_singleton.mp member
    exact ⟨fun _ jumps => (by cases jumps), fun _ uses => by cases uses⟩
  have function : Grounds program (occurrencesOfFunction program walk id)
      (lowerFunctionDecl program finish lower id) := by
    intro before session
    unfold lowerFunctionDecl occurrencesOfFunction
    cases program.function? id with
    | none => exact fun _ => .of_error rfl trivial
    | some decl =>
        rw [Lower.orFault_some_bind]
        have params : Grounds program ((Setting.inFunction id).occurrences (decl.params.map .param))
            (decl.params.zipIdx.forM fun pair => lowerParam program pair.1 pair.2) := by
          have each : Grounds program
              (decl.params.zipIdx.flatMap fun pair => [(Setting.inFunction id, .param pair.1)])
              (decl.params.zipIdx.forM fun pair => lowerParam program pair.1 pair.2) :=
            .forM fun pair => grounds_lowerParam pair.1 pair.2 _
          have same : (Setting.inFunction id).occurrences (decl.params.map .param) =
              decl.params.zipIdx.flatMap fun pair => [(Setting.inFunction id, .param pair.1)] := by
            rw [← List.map_eq_flatMap, Setting.occurrences, List.map_map]
            conv_lhs => rw [← List.zipIdx_map_fst 0 decl.params, List.map_map]
            rfl
          rw [same]
          exact each
        refine Grounds.after .cursor (fun cursor => .after (.openFunction _) fun _ =>
          params.bind fun _ => (grounds _ decl.body).thenSteady fun _ => ?_) before session
        split
        · exact .bind (.returnIfLive _) fun _ => .bind (finishes _) fun _ => .moveCursor _
        · exact .bind (finishes _) fun _ => .moveCursor _
  exact node.bind fun _ => function

theorem groundsStmt_lowerNodeOf {finish : String → Lower Unit}
    (finishes : ∀ name, Steady (finish name))
    (grounds : ∀ setting id, Grounds program (walk setting id) (lower id)) (setting : Setting)
    (id : StmtId) (stmt : Stmt) :
    GroundsStmt program id stmt (occurrencesOf program walk setting id stmt)
      (lowerNodeOf program finish lower id stmt) := by
  cases stmt with
  | expr expr =>
      have reads : Reads (usesOf program (walkExpr program expr)) (do
          let _ ← lowerExpr program expr) := (reads_lowerExpr expr).thenSteady fun _ => .pure _
      exact (Grounds.of_reads reads (fun _ => jumpsTo?_of_mem_walkExprWithin) setting).stmt rfl
  | compound stmts => exact (Grounds.forM fun item => grounds setting item).stmt rfl
  | varDecl vars =>
      have each : Grounds program
          (vars.flatMap fun var => setting.occurrences (walkVar program var))
          (vars.forM (lowerVarDecl program)) := .forM fun var => grounds_lowerVarDecl var setting
      have same : setting.occurrences (vars.flatMap (walkVar program)) =
          vars.flatMap fun var => setting.occurrences (walkVar program var) :=
        List.map_flatMap
      simp only [occurrencesOf, same]
      exact each.stmt rfl
  | functionDecl func => exact (grounds_lowerFunctionDecl finishes grounds setting func).stmt rfl
  | ifThenElse condition thenBody elseBody =>
      exact (grounds_lowerIf grounds setting condition thenBody elseBody).stmt rfl
  | whileLoop condition body =>
      exact groundsStmt_lowerWhile grounds setting id condition body
  | forLoop initial condition updates body =>
      exact groundsStmt_lowerFor grounds setting id initial condition updates body
  | continueLoop target => exact groundsStmt_jump rfl LoopBlocks.continueTarget
  | breakLoop target => exact groundsStmt_jump rfl LoopBlocks.exit
  | returnValue value =>
      cases value with
      | none => exact (Grounds.of_steady (.append _)).stmt rfl
      | some expr =>
          have returns : Grounds program (setting.occurrences (walkExpr program expr))
              (lowerReturn program (some expr)) :=
            (Grounds.lowerValue expr setting).thenSteady fun _ => .append _
          have same : setting.occurrences ((some expr).toList.flatMap (walkExpr program)) =
              setting.occurrences (walkExpr program expr) := by simp
          simp only [occurrencesOf, same]
          exact returns.stmt rfl

theorem grounds_lowerStmtWithin {finish : String → Lower Unit}
    (finishes : ∀ name, Steady (finish name)) (depth : Nat) (setting : Setting) (id : StmtId) :
    Grounds program (occurrencesWithin program depth setting id)
      (lowerStmtWithin program finish depth id) := by
  induction depth generalizing setting id with
  | zero => exact fun _ _ _ => .of_error rfl trivial
  | succ depth induction =>
      intro before session recalls
      refine .orFault_bind (fun _ => trivial) fun stmt known => ?_
      have here : ∃ there, (there, Node.stmt id) ∈ before ++ [(setting, Node.stmt id)] :=
        ⟨setting, by simp⟩
      have recallsHere := recalls.mono (List.subset_append_left before [(setting, Node.stmt id)])
      apply (groundsStmt_lowerNodeOf finishes induction setting id stmt known _ session here
        recallsHere).mono
      rintro _ next ⟨jumps, grounded, recallsNext⟩
      simp only [occurrencesWithin, known]
      refine ⟨⟨⟨?_, fun _ uses => by cases uses⟩, grounded⟩, by simpa using recallsNext⟩
      intro target isTarget
      simp only [Node.jumpsTo?, known, Option.bind_some] at isTarget
      rcases jumps target isTarget with ⟨⟨there, member⟩, other, otherKnown, loops⟩
      refine ⟨⟨there, ?_⟩, other, otherKnown, loops⟩
      cases List.mem_append.mp member with
      | inl earlier => exact earlier
      | inr same =>
          -- The statement at hand is a jump and no loop.
          cases List.mem_singleton.mp same
          cases known.symm.trans otherKnown
          rw [jumpTarget?_of_isLoop loops] at isTarget
          cases isTarget

end Statements

/-! ## Programs -/

theorem grounded_of_lowerProgram {options : Options} {module : Code.Module}
    (lowers : lowerProgram program options = .ok module) :
    Grounded program [] (occurrencesIn program) := by
  rcases Code.bind_eq_ok.mp lowers with ⟨start, _, rest⟩
  rcases Code.bind_eq_ok.mp rest with ⟨⟨_, ended⟩, runs, _⟩
  have nothing : (Session.start (.ofModule start)).Recalls program [] :=
    ⟨fun _ known => (by cases known), fun _ known => by cases known⟩
  have items : Grounds program (occurrencesIn program)
      (program.items.forM (lowerStmt program (finishFunction options))) :=
    .forM fun item => grounds_lowerStmtWithin (Steady.finishFunction options) _ .top item
  have whole : Grounds program (occurrencesIn program)
      (lowerItems program (finishFunction options) options.entryFunction) :=
    .after (.openFunction _) fun _ => items.thenSteady fun _ =>
      .bind (.returnIfLive _) fun _ => .finishFunction _ _
  exact ((whole [] _ nothing).post_of_ok runs).1

theorem HasStaleReference.not_proper (stale : HasStaleReference program) :
    ¬ HasProperReferences program := by
  intro proper
  cases stale with
  | jump occurs jumps _ outside => exact outside (proper.jumps _ _ _ _ _ occurs jumps)
  | use occurs uses known isLocal _ elsewhere =>
      rcases proper.uses _ _ _ _ _ _ occurs uses known isLocal with ⟨declaring, there, same⟩
      exact elsewhere declaring there same

/-- The references of an accepted program are right unless one of them is stale. -/
theorem accepted_references_proper_iff {options : Options} {module : Code.Module}
    (lowers : lowerProgram program options = .ok module) :
    HasProperReferences program ↔ ¬ HasStaleReference program := by
  have grounded := grounded_of_lowerProgram lowers
  constructor
  · intro proper stale
    exact stale.not_proper proper
  · intro fresh
    constructor
    · intro before setting node after target occurs jumps
      by_contra outside
      exact fresh (.jump occurs jumps ((grounded.node occurs).jumps target jumps) outside)
    · intro before setting node after id decl occurs uses known isLocal
      by_contra missing
      rcases (grounded.node occurs).uses id uses with ⟨declaring, declared⟩
      refine fresh (.use occurs uses known isLocal declared fun other there same => ?_)
      exact missing ⟨other, there, same⟩

/-! ## Stale references -/

/-- A `break` behind the loop that it names. -/
def lateBreakProgram : Program where
  filename := "late"
  items := [⟨0⟩, ⟨2⟩]
  stmts := #[.whileLoop ⟨0⟩ ⟨1⟩, .compound [], .breakLoop ⟨0⟩]
  exprs := #[⟨.booleanLiteral false, .boolean⟩]
  vars := #[]
  functions := #[]

/-- Two functions, the second of which returns the parameter `returned`. Its own parameter is the
second variable. -/
def sharingProgram (returned : VarId) : Program where
  filename := "sharing"
  items := [⟨0⟩, ⟨2⟩]
  stmts := #[.functionDecl ⟨0⟩, .returnValue (some ⟨0⟩), .functionDecl ⟨1⟩,
    .returnValue (some ⟨1⟩)]
  exprs := #[⟨.identifier "mine" ⟨0⟩, .integer⟩, ⟨.identifier "returned" returned, .integer⟩]
  vars := #[⟨"mine", .integer, none, .local, .parameter⟩,
    ⟨"yours", .integer, none, .local, .parameter⟩]
  functions := #[⟨"lender", [⟨0⟩], some .integer, ⟨1⟩⟩, ⟨"borrower", [⟨1⟩], some .integer, ⟨3⟩⟩]

theorem lateBreakProgram_isStale : HasStaleReference lateBreakProgram := by
  have occurs : occurrencesIn lateBreakProgram =
      [(.top, .stmt ⟨0⟩), (Setting.top.inLoop ⟨0⟩, .expr ⟨0⟩),
        (Setting.top.inLoop ⟨0⟩, .stmt ⟨1⟩)] ++ (.top, .stmt ⟨2⟩) :: [] := rfl
  have jumps : (Node.stmt ⟨2⟩).jumpsTo? lateBreakProgram = some ⟨0⟩ := rfl
  exact .jump occurs jumps ⟨⟨.top, by simp⟩, _, rfl, rfl⟩ (by simp [Setting.top])

theorem sharingProgram_isStale : HasStaleReference (sharingProgram ⟨0⟩) := by
  have occurs : occurrencesIn (sharingProgram ⟨0⟩) =
      [(.top, .stmt ⟨0⟩), (.top, .function ⟨0⟩), (.inFunction ⟨0⟩, .param ⟨0⟩),
        (.inFunction ⟨0⟩, .stmt ⟨1⟩), (.inFunction ⟨0⟩, .expr ⟨0⟩), (.top, .stmt ⟨2⟩),
        (.top, .function ⟨1⟩), (.inFunction ⟨1⟩, .param ⟨1⟩), (.inFunction ⟨1⟩, .stmt ⟨3⟩)] ++
      (.inFunction ⟨1⟩, .expr ⟨1⟩) :: [] := rfl
  have uses : (Node.expr ⟨1⟩).uses? (sharingProgram ⟨0⟩) = some ⟨0⟩ := rfl
  have declared : DeclaresIn [(.inFunction ⟨0⟩, .param ⟨0⟩)] (.inFunction ⟨0⟩) ⟨0⟩ :=
    .inr (by simp)
  refine .use occurs uses rfl rfl (declared.mono (by simp)) ?_
  intro other declared same
  have lent : other = .inFunction ⟨0⟩ := by simpa [DeclaresIn] using declared
  rw [lent] at same
  cases same

/-- Stale references are accepted, and what comes out can be the code of another program. -/
theorem stale_references_are_accepted :
    ((lowerProgram lateBreakProgram .default).toBool = true ∧
      ¬ HasProperReferences lateBreakProgram) ∧
    (lowerProgram (sharingProgram ⟨0⟩) .default = lowerProgram (sharingProgram ⟨1⟩) .default ∧
      (lowerProgram (sharingProgram ⟨1⟩) .default).toBool = true ∧
      ¬ HasProperReferences (sharingProgram ⟨0⟩)) := by
  refine ⟨⟨by decide +kernel, lateBreakProgram_isStale.not_proper⟩, by decide +kernel,
    by decide +kernel, sharingProgram_isStale.not_proper⟩

theorem lateBreakProgram_references_proper_iff : ∃ module,
    lowerProgram lateBreakProgram .default = .ok module ∧
      (HasProperReferences lateBreakProgram ↔ ¬ HasStaleReference lateBreakProgram) := by
  have accepted : (lowerProgram lateBreakProgram .default).toBool = true := by decide +kernel
  cases lowers : lowerProgram lateBreakProgram .default with
  | ok module => exact ⟨module, rfl, accepted_references_proper_iff lowers⟩
  | error error =>
      rw [lowers] at accepted
      cases accepted

end ScriptLowering.Lowering
