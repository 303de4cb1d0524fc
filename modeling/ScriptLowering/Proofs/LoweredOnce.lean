import ScriptLowering.Proofs.ReopenedFunctions

/-! # Functions are lowered once

No program comes through lowering that declares a function in two places, as long as its jumps stay
inside of their loops. -/

namespace ScriptLowering.Lowering

open Source (Program ExprId ForInit FuncId FunctionDecl Stmt StmtId VarId)

variable {program : Program}

/-! ## Ways and settings -/

@[simp] theorem Setting.map_snd_occurrences (setting : Setting) (nodes : List Node) :
    (setting.occurrences nodes).map Prod.snd = nodes := by
  simp [occurrences, Function.comp_def]

theorem map_snd_occurrencesWithin (depth : Nat) (setting : Setting) (id : StmtId) :
    (occurrencesWithin program depth setting id).map Prod.snd = walkStmtWithin program depth id := by
  induction depth generalizing setting id with
  | zero => rfl
  | succ depth induction =>
      cases found : program.stmt? id with
      | none => simp [occurrencesWithin, walkStmtWithin, found]
      | some stmt =>
          rw [occurrencesWithin_eq found, walkStmtWithin_eq found, List.map_cons]
          congr 1
          have each (stmts : List StmtId) (inner : Setting) :
              (stmts.flatMap (occurrencesWithin program depth inner)).map Prod.snd =
                stmts.flatMap (walkStmtWithin program depth) := by
            simp only [List.map_flatMap, induction]
          cases stmt with
          | functionDecl func =>
              cases known : program.function? func <;>
                simp [occurrencesOf, occurrencesOfFunction, walkNodeOf, walkFunction, known, induction]
          | forLoop initial condition updates body =>
              cases initial <;>
                simp [occurrencesOf, occurrencesOfInit, walkNodeOf, walkForInit, induction]
          | _ => simp [occurrencesOf, walkNodeOf, induction, each]

theorem exists_setting {depth : Nat} {id : StmtId} {node : Node} (setting : Setting)
    (member : node ∈ walkStmtWithin program depth id) :
    ∃ inner, (inner, node) ∈ occurrencesWithin program depth setting id := by
  rw [← map_snd_occurrencesWithin depth setting id] at member
  rcases List.mem_map.mp member with ⟨⟨inner, _⟩, occurs, rfl⟩
  exact ⟨inner, occurs⟩

theorem map_snd_parts (setting : Setting) (id : StmtId) (stmt : Stmt) :
    (parts program setting id stmt).map Prod.snd = children program stmt := by
  cases stmt with
  | functionDecl func => cases found : program.function? func <;> simp [parts, children, found]
  | ifThenElse condition thenBody elseBody => cases elseBody <;> simp [parts, children]
  | forLoop initial condition updates body => cases initial <;> simp [parts, children]
  | _ => simp [parts, children, Function.comp_def]

theorem mem_children_of_parts {setting part : Setting} {id child : StmtId} {stmt : Stmt}
    (isPart : (part, child) ∈ parts program setting id stmt) : child ∈ children program stmt := by
  rw [← map_snd_parts setting id stmt]
  exact List.mem_map.mpr ⟨(part, child), isPart, rfl⟩

/-- A part of a statement is in a loop of the statement around it, or in the loop that it is part of. -/
theorem mem_loops_of_parts {setting part : Setting} {id child loop : StmtId} {stmt : Stmt}
    (member : (part, child) ∈ parts program setting id stmt) (inLoop : loop ∈ part.loops) :
    loop ∈ setting.loops ∨ loop = id ∧ isLoop stmt = true := by
  have mine : loop ∈ (setting.inLoop id).loops → isLoop stmt = true →
      loop ∈ setting.loops ∨ loop = id ∧ isLoop stmt = true := by
    intro inner loops
    rcases List.mem_cons.mp inner with rfl | outer
    · exact .inr ⟨rfl, loops⟩
    · exact .inl outer
  cases stmt with
  | compound stmts =>
      simp only [parts, List.mem_map, Prod.mk.injEq] at member
      rcases member with ⟨_, _, rfl, _⟩
      exact .inl inLoop
  | functionDecl func =>
      simp only [parts, List.mem_map, Prod.mk.injEq] at member
      rcases member with ⟨_, _, rfl, _⟩
      cases inLoop
  | ifThenElse condition thenBody elseBody =>
      simp only [parts, List.mem_cons, List.mem_map, Prod.mk.injEq] at member
      rcases member with ⟨rfl, _⟩ | ⟨_, _, rfl, _⟩ <;> exact .inl inLoop
  | whileLoop condition body =>
      simp only [parts, List.mem_singleton, Prod.mk.injEq] at member
      rcases member with ⟨rfl, _⟩
      exact mine inLoop rfl
  | forLoop initial condition updates body =>
      cases initial with
      | decl stmt =>
          simp only [parts, List.mem_cons, Prod.mk.injEq, List.not_mem_nil, or_false] at member
          rcases member with ⟨rfl, _⟩ | ⟨rfl, _⟩
          · exact .inl inLoop
          · exact mine inLoop rfl
      | exprs exprs =>
          simp only [parts, List.mem_singleton, Prod.mk.injEq] at member
          rcases member with ⟨rfl, _⟩
          exact mine inLoop rfl
  | expr | varDecl | continueLoop | breakLoop | returnValue => cases member

theorem stmt_not_mem_walkExpr (id : ExprId) (stmt : StmtId) : .stmt stmt ∉ walkExpr program id := by
  intro member
  rcases exists_expr_of_mem_walkExprWithin program member with ⟨_, same⟩
  cases same

theorem stmt_not_mem_walkVar (id : VarId) (stmt : StmtId) : .stmt stmt ∉ walkVar program id := by
  unfold walkVar
  split <;> simp [stmt_not_mem_walkExpr]

theorem stmt_occurs_in_parts {walk : Setting → StmtId → List (Setting × Node)}
    {setting inner : Setting} {id other : StmtId} {stmt : Stmt}
    (occurs : (inner, .stmt other) ∈ occurrencesOf program walk setting id stmt) :
    ∃ part child, (part, child) ∈ parts program setting id stmt ∧
      (inner, .stmt other) ∈ walk part child := by
  have notHere {here : Setting} {nodes : List Node} (none : .stmt other ∉ nodes) :
      (inner, .stmt other) ∉ here.occurrences nodes := by
    intro member
    rcases List.mem_map.mp member with ⟨node, isNode, same⟩
    cases same
    exact none isNode
  have exprs (ids : List ExprId) : .stmt other ∉ ids.flatMap (walkExpr program) := by
    simp [stmt_not_mem_walkExpr]
  cases stmt with
  | expr expr => exact absurd occurs (notHere (stmt_not_mem_walkExpr expr other))
  | compound stmts =>
      rcases List.mem_flatMap.mp occurs with ⟨child, isChild, inChild⟩
      exact ⟨setting, child, List.mem_map_of_mem isChild, inChild⟩
  | varDecl vars =>
      exact absurd occurs (notHere (by simp [stmt_not_mem_walkVar]))
  | functionDecl func =>
      cases found : program.function? func with
      | none => simp [occurrencesOf, occurrencesOfFunction, found] at occurs
      | some decl =>
          simp only [occurrencesOf, occurrencesOfFunction, found, List.mem_cons, Prod.mk.injEq,
            reduceCtorEq, and_false, List.mem_append, false_or] at occurs
          refine ⟨.inFunction func, decl.body, by simp [parts, found], occurs.resolve_left ?_⟩
          exact notHere (by simp)
  | ifThenElse condition thenBody elseBody =>
      simp only [occurrencesOf, List.mem_append, List.mem_flatMap] at occurs
      rcases occurs with here | inThen | ⟨child, isChild, inChild⟩
      · exact absurd here (notHere (stmt_not_mem_walkExpr condition other))
      · exact ⟨setting, thenBody, List.mem_cons_self, inThen⟩
      · exact ⟨setting, child, List.mem_cons_of_mem _ (List.mem_map_of_mem isChild), inChild⟩
  | whileLoop condition body =>
      simp only [occurrencesOf, List.mem_append] at occurs
      refine ⟨setting.inLoop id, body, List.mem_cons_self, occurs.resolve_left ?_⟩
      exact notHere (stmt_not_mem_walkExpr condition other)
  | forLoop initial condition updates body =>
      simp only [occurrencesOf, List.mem_append] at occurs
      rcases occurs with inInit | inCondition | inBody | inUpdates
      · cases initial with
        | decl stmt => exact ⟨setting, stmt, List.mem_cons_self, inInit⟩
        | exprs ids => exact absurd inInit (notHere (exprs ids))
      · exact absurd inCondition (notHere (exprs _))
      · refine ⟨setting.inLoop id, body, ?_, inBody⟩
        cases initial <;> simp [parts]
      · exact absurd inUpdates (notHere (exprs updates))
  | continueLoop | breakLoop => cases occurs
  | returnValue value => exact absurd occurs (notHere (exprs _))

/-- The loops around a statement are those that have been around, and loops on the way to it. -/
theorem mem_loops_of_occurs {depth : Nat} {setting inner : Setting} {id other loop : StmtId}
    (occurs : (inner, .stmt other) ∈ occurrencesWithin program depth setting id)
    (inLoop : loop ∈ inner.loops) : loop ∈ setting.loops ∨
      .stmt loop ∈ walkStmtWithin program depth id ∧
        ∃ stmt, program.stmt? loop = some stmt ∧ isLoop stmt = true := by
  induction depth generalizing setting id with
  | zero => cases occurs
  | succ depth induction =>
      cases found : program.stmt? id with
      | none =>
          simp only [occurrencesWithin, found, List.mem_singleton, Prod.mk.injEq] at occurs
          rw [← occurs.1]
          exact .inl inLoop
      | some stmt =>
          rw [occurrencesWithin_eq found] at occurs
          rcases List.mem_cons.mp occurs with here | inside
          · cases here
            exact .inl inLoop
          · rcases stmt_occurs_in_parts inside with ⟨part, child, isPart, inPart⟩
            rw [walkStmtWithin_eq found]
            rcases induction inPart with outer | ⟨onWay, loops⟩
            · rcases mem_loops_of_parts isPart outer with outside | ⟨rfl, loops⟩
              · exact .inl outside
              · exact .inr ⟨List.mem_cons_self, stmt, found, loops⟩
            · refine .inr ⟨List.mem_cons_of_mem _ ((sublist_walkNodeOf _ stmt).subset ?_), loops⟩
              exact List.mem_flatMap.mpr ⟨child, mem_children_of_parts isPart, onWay⟩

/-! ## Functions without marks -/

/-- Where lowering comes to a function, it comes to the body of the function in a setting of its own. -/
theorem exists_body_occurrences {depth : Nat} {setting : Setting} {id : StmtId} {func : FuncId}
    {decl : FunctionDecl} (ends : EndsWithin program depth id) (known : program.function? func = some decl)
    (member : func ∈ functionsOf (walkStmtWithin program depth id)) :
    ∃ size < depth, EndsWithin program size decl.body ∧
      occurrencesWithin program size (.inFunction func) decl.body ⊆
        occurrencesWithin program depth setting id := by
  induction depth generalizing setting id with
  | zero => cases member
  | succ depth induction =>
      rcases ends with ⟨stmt, found, inner⟩
      rw [walkStmtWithin_eq found, functionsOf_cons, functionsOf_walkNodeOf] at member
      rcases List.mem_append.mp member with here | inside
      · cases here
      rcases List.mem_append.mp inside with declares | inside
      · cases stmt with
        | functionDecl other =>
            cases List.mem_singleton.mp declares
            refine ⟨depth, Nat.lt_succ_self depth, inner decl.body (by simp [children, known]), ?_⟩
            exact occurrencesWithin_parts found (by simp [parts, known])
        | _ => cases declares
      · rw [functionsOf_flatMap] at inside
        rcases List.mem_flatMap.mp inside with ⟨child, isChild, inChild⟩
        rw [← map_snd_parts setting id stmt] at isChild
        rcases List.mem_map.mp isChild with ⟨⟨part, _⟩, isPart, rfl⟩
        rcases induction (inner _ (mem_children_of_parts isPart)) inChild with
          ⟨size, less, endsBody, within⟩
        exact ⟨size, Nat.lt_succ_of_lt less, endsBody,
          fun pair occurs => occurrencesWithin_parts found isPart (within occurs)⟩

theorem bare_nodesIn {start : Session} (enclosed : Enclosed program (occurrencesIn program))
    {item : StmtId} (isItem : item ∈ program.items) (ends : EndsWithin program (stmtDepth program) item)
    {func : FuncId} {decl : FunctionDecl} (known : program.function? func = some decl)
    (member : func ∈ functionsOf (walkStmt program item))
    (unmarked : ∀ node ∈ nodesIn program decl, ¬ node.Marked program start) :
    Bare program start (nodesIn program decl) := by
  rcases exists_body_occurrences ends known member with ⟨size, less, endsBody, within⟩
  have body : walkStmt program decl.body = walkStmtWithin program size decl.body :=
    endsBody.walk_eq (Nat.le_of_lt less)
  refine fun node inside => ⟨unmarked node inside, Option.eq_none_iff_forall_ne_some.mpr fun target jumps => ?_⟩
  cases node with
  | stmt other =>
      have inBody : .stmt other ∈ walkStmtWithin program size decl.body := by
        rw [← body]
        refine (List.mem_append.mp inside).resolve_left fun isParam => ?_
        rcases List.mem_map.mp isParam with ⟨_, _, same⟩
        cases same
      rcases exists_setting (.inFunction func) inBody with ⟨inner, occurs⟩
      have inLoop := enclosed inner (.stmt other) target
        (List.mem_flatMap.mpr ⟨item, isItem, within occurs⟩) jumps
      rcases mem_loops_of_occurs occurs inLoop with outer | ⟨onWay, loops⟩
      · cases outer
      · rw [← body] at onWay
        exact unmarked (.stmt target) (List.mem_append_right _ onWay) loops
  | expr | var | param | function => cases jumps

/-! ## Programs -/

theorem marks_of_lowerProgram {options : Options} {module : Code.Module}
    (lowers : lowerProgram program options = .ok module) : ∃ declared session next,
      declareAll program options = .ok declared ∧
      (Session.start (.ofModule declared)).Marks program (walkProgram program) session next ∧
      ∀ item ∈ program.items, EndsWithin program (stmtDepth program) item := by
  rcases lowerProgram_eq_ok.mp lowers with ⟨declared, last, declares, runs, _⟩
  rcases Lower.bind_eq_ok.mp runs with ⟨_, opened, opens, runs⟩
  rcases Lower.bind_eq_ok.mp runs with ⟨_, next, runs, _⟩
  let start : Session := .start (.ofModule declared)
  have signed : start.Signed opened :=
    ((Silent.openFunction options.entryFunction start).post_of_ok opens).signatures
  have finishes (name : String) : Silent (finishFunction options name) := .finishFunction options name
  have facts := (notes_lowerStmts finishes program.items opened signed).post_of_ok runs
  exact ⟨declared, opened, next, declares, facts⟩

/-- A program that is lowered comes to each function once. -/
theorem functions_lowered_once {options : Options} {module : Code.Module}
    (lowers : lowerProgram program options = .ok module)
    (enclosed : Enclosed program (occurrencesIn program)) :
    (functionsOf (walkProgram program)).Nodup := by
  rcases marks_of_lowerProgram lowers with ⟨declared, session, next, declares, marks, ends⟩
  have apart : NamesApart program := (declared_of_declareAll declares).distinct
  refine List.nodup_iff_count_le_one.mpr fun func => ?_
  by_cases member : func ∈ functionsOf (walkProgram program)
  · rcases marks.declared _ (mem_functionsOf.mp member) with ⟨decl, known⟩
    by_cases unmarked : ∀ node ∈ nodesIn program decl,
        ¬ node.Marked program (.start (.ofModule declared))
    · have onItem := member
      rw [walkProgram, functionsOf_flatMap] at onItem
      rcases List.mem_flatMap.mp onItem with ⟨item, isItem, inItem⟩
      have bare := bare_nodesIn enclosed isItem (ends item isItem) known inItem unmarked
      refine Nat.le_trans ?_ (count_namesOf_le_one lowers declares known bare)
      rw [namesOf, List.count_filterMap]
      refine List.countP_mono_left fun other _ same => ?_
      rw [LawfulBEq.eq_of_beq same, known]
      exact beq_self_eq_true _
    · push Not at unmarked
      rcases unmarked with ⟨node, inside, marked⟩
      refine count_flatMap_le_one marks.once marked (fun item isItem inItem => ?_) fun item isItem => ?_
      · exact subset_walk_of_function (ends item isItem) (Nat.le_refl _) known inItem inside
      · refine count_walkStmtWithin_le_one apart known inside marked (ends item isItem) (Nat.le_refl _) ?_
        have part : (walkStmt program item).Sublist (program.items.flatMap (walkStmt program)) := by
          simpa using (List.singleton_sublist.mpr isItem).flatMap (walkStmt program)
        exact marks.once.sublist part
  · rw [List.count_eq_zero_of_not_mem member]
    exact Nat.zero_le 1

end ScriptLowering.Lowering
