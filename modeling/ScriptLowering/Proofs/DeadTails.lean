import ScriptLowering.Proofs.DeadStretches
import ScriptLowering.Proofs.ReplacedStatements
import ScriptLowering.Proofs.ShadowedFunctions

/-! # Dead tails

What stands behind a statement that does not end normally is lowered at a place that control does not
get to. So a program without it is lowered in the shadow of the program with it.
-/

namespace ScriptLowering.Lowering

open Source (Program ExprId FuncId FunctionDecl Stmt StmtId VarDecl VarId)
open Code (Place)

variable {program other : Program} {dropped : ExprId → Prop} {locals : List VarId}
  {options : Options} {depth : Nat}

/-! ## Statements whose parts are lowered in the shadow -/

section Nodes

variable {walk : StmtId → List Node} {lower answer : StmtId → Lower Unit} {setting : Setting}
  {id : StmtId} {stmt : Stmt}

theorem answers_lowerNodeOf {see : List VarId → StmtId → List (List VarId × Node)}
    (plain : options.verifyFunctions = false)
    (each : ∀ part child locals, (part, child) ∈ parts program setting id stmt →
      Scoped program (see locals child) →
        MirrorsStmt program other dropped locals part.loops walk lower answer child)
    (inScope : Scoped program (sightsOf program see locals stmt))
    (encloses : ∀ target, jumpTarget? stmt = some target → target ∈ setting.loops)
    (isLocal : ∀ param var, .param param ∈ walkNodeOf program walk stmt →
      program.var? param = some var → var.scope = .local) :
    Answers program other dropped (8 * demand program (walkNodeOf program walk stmt) +
        if isControl stmt then 5 else 0)
      (namesOf program (walkNodeOf program walk stmt)) (Tandem.Sees locals setting.loops)
      (lowerNodeOf program (finishFunction options) lower id stmt)
      (lowerNodeOf program (finishFunction options) answer id stmt)
      fun _ _ ended => ended.Sees (declares program stmt) [] := by
  have nothing : ∀ (_ _ : Unit) (ended : Tandem), True → ended.Sees [] [] :=
    fun _ _ ended _ => .nothing ended
  cases stmt with
  | expr expr =>
      simp only [walkNodeOf, namesOf_walkExpr, demand_walkExpr]
      exact (mirrors_lowerEffect inScope.seesAll).answers.mono (Nat.le_add_right _ _)
        (fun _ sees => sees) nothing
  | compound stmts =>
      have parts (child : StmtId) (member : child ∈ stmts) (locals : List VarId) :=
        each setting child locals (List.mem_map_of_mem member)
      exact (mirrors_lowerSequence parts inScope).answers.mono (Nat.le_add_right _ _)
        (fun _ sees => sees) nothing
  | varDecl vars =>
      have names : namesOf program (walkNodeOf program walk (.varDecl vars)) = [] := by
        simp [namesOf, functionsOf_walkNodeOf, declaredBy?, children]
      rw [names, walkNodeOf, demand_walkVars]
      exact (mirrors_lowerVars vars inScope).answers.mono (Nat.le_add_right _ _)
        (fun _ sees => sees) fun _ _ _ sees => sees
  | functionDecl func =>
      have params : ∀ decl, program.function? func = some decl → ∀ param ∈ decl.params, ∀ var,
          program.var? param = some var → var.scope = .local := by
        intro decl known param member var
        refine isLocal param var ?_
        rw [walkNodeOf, walkFunction_eq known]
        exact List.mem_cons_of_mem _ (List.mem_append_left _ (List.mem_map_of_mem member))
      have body : ∀ decl, program.function? func = some decl →
          MirrorsStmt program other dropped decl.params [] walk lower answer decl.body := by
        intro decl known
        refine each (.inFunction func) decl.body decl.params (by simp [parts, known]) (inScope.mono ?_)
        simp [sightsOf, known]
      exact (answers_lowerFunctionDecl plain func params body).mono (Nat.le_add_right _ _)
        (fun _ _ => trivial) nothing
  | ifThenElse condition thenBody elseBody =>
      simp only [sightsOf, scoped_append] at inScope
      rcases inScope with ⟨tests, inThen, inElse⟩
      have elsePart : ∀ child ∈ elseBody,
          MirrorsStmt program other dropped locals setting.loops walk lower answer child := by
        rintro child rfl
        refine each setting child locals (by simp [parts]) (inElse.mono ?_)
        simp
      have answers := answers_lowerIf condition thenBody elseBody tests.seesAll
        (each setting thenBody locals (by simp [parts]) inThen) elsePart
      simp only [walkNodeOf, namesOf_append, namesOf_walkExpr, List.nil_append, isControl, if_true]
      exact answers.mono (by omega) (fun _ sees => sees) nothing
  | whileLoop condition body =>
      simp only [sightsOf, scoped_append] at inScope
      have answers := answers_lowerWhile id condition body inScope.1.seesAll
        (each (setting.inLoop id) body locals (by simp [parts]) inScope.2)
      simp only [walkNodeOf, namesOf_append, namesOf_walkExpr, List.nil_append, isControl, if_true]
      exact answers.mono (by omega) (fun _ sees => sees) nothing
  | forLoop initial condition updates body =>
      simp only [sightsOf, scoped_append] at inScope
      rcases inScope with ⟨inInit, tests, inBody, renews⟩
      have starts : ∀ child, initial = .decl child → Scoped program (see locals child) →
          MirrorsStmt program other dropped locals setting.loops walk lower answer child := by
        rintro child rfl inChild
        exact each setting child locals (by simp [parts]) inChild
      have answers := answers_lowerFor id initial condition updates body inInit starts tests.seesAll
        (each (setting.inLoop id) body _ (by cases initial <;> simp [parts]) inBody) renews.seesAll
      simp only [walkNodeOf, namesOf_append, namesOf_walkExprs, List.nil_append, List.append_nil]
      exact answers.mono (Nat.le_refl _) (fun _ sees => sees) nothing
  | continueLoop target =>
      simp only [isControl, if_true]
      exact (answers_lowerContinue (encloses target rfl)).mono (by omega) (fun _ sees => sees) nothing
  | breakLoop target =>
      simp only [isControl, if_true]
      exact (answers_lowerBreak (encloses target rfl)).mono (by omega) (fun _ sees => sees) nothing
  | returnValue value =>
      simp only [walkNodeOf, namesOf_walkExprs, demand_walkExprs, isControl, if_true]
      exact (answers_lowerReturn value inScope.seesAll).mono (by omega) (fun _ sees => sees) nothing

end Nodes

/-! ## Behind a statement that does not end normally -/

theorem exit_of_compound {id : StmtId} {stmts : List StmtId} {exit : Exit}
    (ends : Ends program (.stmt id (.compound stmts)) exit) :
    exit = .normal ∨ ∃ child ∈ stmts, EndsAs program child exit := by
  induction stmts with
  | nil => exact .inl (ends_compound_nil.mp ends)
  | cons head tail induction =>
      rcases ends_compound_cons.mp ends with ⟨leaves, _⟩ | ⟨_, rest⟩
      · exact .inr ⟨head, List.mem_cons_self, leaves⟩
      · exact (induction rest).imp_right fun ⟨child, member, leaves⟩ =>
          ⟨child, List.mem_cons_of_mem _ member, leaves⟩

theorem endsAs_last {id stop : StmtId} {before : List StmtId}
    (ends : Ends program (.stmt id (.compound (before ++ [stop]))) .normal) :
    EndsAs program stop .normal := by
  induction before with
  | nil =>
      rcases ends_compound_cons.mp ends with ⟨leaves, _⟩ | ⟨leaves, _⟩
      · exact leaves
      · exact leaves
  | cons head tail induction =>
      rcases ends_compound_cons.mp ends with ⟨_, early⟩ | ⟨_, rest⟩
      · exact absurd rfl early
      · exact induction rest

theorem near_compound {tandem : Tandem} {setting : Setting} {final : Session} {id : StmtId}
    {stmts : List StmtId} (agrees : tandem.Agrees program dropped)
    (sees : tandem.Sees locals setting.loops) (precedes : tandem.session.Precedes final)
    (enclosed : ∀ child ∈ stmts, Enclosed program (occurrencesWithin program depth setting child))
    (within : ∀ child ∈ stmts, EndsWithin program depth child) :
    Near program final (.stmt id (.compound stmts)) tandem.place where
  bounded := fun _ edge => agrees.pairs.bounded edge
  jumps := by
    rintro _ block ⟨exit, ends, goes⟩
    rcases exit_of_compound ends with rfl | ⟨child, member, leaves⟩
    · cases goes
    · have known {target : StmtId} (names : exit.target? = some target) :
          ∃ blocks mirrored, final.loopBlocks target = blocks ∧
            blocks.Pairs tandem.pairing mirrored := by
        have inLoop := (enclosed child member).exits (within child member) leaves names
        rcases sees.loops target inLoop with ⟨blocks, mirrored, known, _, pairs⟩
        exact ⟨blocks, mirrored, Session.loopBlocks_eq (precedes.loops _ _ known), pairs⟩
      cases exit with
      | normal => cases goes
      | broke target =>
          rcases known rfl with ⟨blocks, mirrored, rfl, pairs⟩
          cases goes
          exact (agrees.pairs.agrees.bounds _ _ pairs.exit).1
      | continued target =>
          rcases known rfl with ⟨blocks, mirrored, rfl, pairs⟩
          cases goes
          exact (agrees.pairs.agrees.bounds _ _ pairs.continueTarget).1

section Tails

variable {names : List String} {outset tandem : Tandem} {waits : List (Code.BlockId × Code.BlockId × String)}
  {count : Nat} {before after : List StmtId} {stop : StmtId} {setting : Setting}
  {answer : StmtId → Lower Unit}

theorem mirrors_until_stop (shallow : depth ≤ stmtDepth program)
    (mirrors : Mirrors program other dropped
      (8 * demand program ((before ++ [stop]).flatMap (walkStmtWithin program depth)))
      (namesOf program ((before ++ [stop]).flatMap (walkStmtWithin program depth)))
      (Tandem.Sees locals setting.loops)
      ((before ++ [stop]).forM (lowerStmtWithin program (finishFunction options) depth))
      ((before ++ [stop]).forM answer) fun _ _ _ => True)
    (enclosed : ∀ child ∈ before ++ [stop],
      Enclosed program (occurrencesWithin program depth setting child))
    (within : ∀ child ∈ before ++ [stop], EndsWithin program depth child)
    (stops : ¬ EndsAs program stop .normal) :
    Mirrors program other dropped
      (8 * demand program ((before ++ [stop]).flatMap (walkStmtWithin program depth)))
      (namesOf program ((before ++ [stop]).flatMap (walkStmtWithin program depth)))
      (Tandem.Sees locals setting.loops)
      ((before ++ [stop]).forM (lowerStmtWithin program (finishFunction options) depth))
      ((before ++ [stop]).forM answer) fun _ _ ended => ended.place.isLive = false where
  keeps := mirrors.keeps
  otherKeeps := mirrors.otherKeeps
  answers := by
    intro outset count course fresh distinct unopened otherUnopened sees value next runs
    rcases mirrors.answers outset count course fresh distinct unopened otherUnopened sees value next
      runs with ⟨result, ended, answers, rfl, comes, _⟩
    refine ⟨result, ended, answers, rfl, comes, ?_⟩
    have bodies := keeps_lowerStmtWithin (fun _ _ => trivial)
      (finishing_finishFunction program options) depth shallow
    have keeps := keeps_lowerSequence bodies default (before ++ [stop])
    rcases (keeps ended.session _ _ _ count course.stage.fills fresh distinct unopened).post_of_ok runs with
      ⟨place, filled, grows, traced⟩
    have builds := comes.agrees.builds
    rw [comes.name] at builds
    change ended.place.isLive = false
    rw [builds.unique filled.builds, Bool.eq_false_iff]
    intro live
    refine stops (endsAs_last (((traced (.refl _)).routed ?_).ends live))
    exact near_compound course.agrees sees grows.precedes enclosed within

theorem Course.skip
    (course : Course program other dropped outset names waits
      (8 * demand program (after.flatMap (walkStmtWithin program depth)) + count) tandem)
    (plain : options.verifyFunctions = false) (shallow : depth ≤ stmtDepth program)
    (noFunctions : functionsOf (after.flatMap (walkStmtWithin program depth)) = [])
    (noGlobal : DeclaresNoGlobal program (after.flatMap (walkStmtWithin program depth)))
    (texts : ∀ id, .expr id ∈ after.flatMap (walkStmtWithin program depth) → dropped id)
    (dead : tandem.place.isLive = false) :
    (after.forM (lowerStmtWithin program (finishFunction options) depth)).Follows (pure ()) tandem
      fun _ _ ended => outset.Comes program dropped ended ∧ True := by
  rintro ⟨⟩ next runs
  rcases course.agrees.skip plain shallow course.stage.fills noFunctions noGlobal texts dead
    (fun _ edge => course.agrees.pairs.bounded edge) runs with ⟨place, agrees, _⟩
  exact ⟨(), { tandem with session := next, place := place }, rfl, rfl,
    ⟨course.name, course.within, agrees⟩, trivial⟩

end Tails

/-! ## Programs without a dead tail -/

/-- In the compound statement `block` the statement `stop` does not end normally, and what stands behind
it declares no function and no variable of the top level. -/
structure DeadTail (program : Program) (block : StmtId) (before : List StmtId) (stop : StmtId)
    (after : List StmtId) : Prop where
  isCompound : program.stmt? block = some (.compound (before ++ stop :: after))
  stops : ¬ EndsAs program stop .normal
  noFunctions : functionsOf (after.flatMap (walkStmt program)) = []
  noGlobal : DeclaresNoGlobal program (after.flatMap (walkStmt program))

namespace DeadTail

variable {block stop : StmtId} {before after : List StmtId}

theorem compound_eq (tail : DeadTail program block before stop after) :
    program.stmt? block = some (.compound (before ++ [stop] ++ after)) := by
  rw [List.append_assoc, List.singleton_append]
  exact tail.isCompound

theorem otherKeeps (tail : DeadTail program block before stop after)
    (shallow : depth ≤ stmtDepth program) (id : StmtId) :
    Keeps (program.withStmt block (.compound (before ++ [stop]))) (fun _ => True) (fun _ => True)
      (8 * demand program (walkStmtWithin program depth id))
      (namesOf program (walkStmtWithin program depth id))
      (lowerStmtWithin (program.withStmt block (.compound (before ++ [stop])))
        (finishFunction options) depth id)
      (LowersStmt (program.withStmt block (.compound (before ++ [stop]))) depth id) := by
  have functions := functionsOf_walkStmtWithin_cut tail.compound_eq tail.noFunctions shallow id
  have names : namesOf (program.withStmt block (.compound (before ++ [stop])))
      (walkStmtWithin (program.withStmt block (.compound (before ++ [stop]))) depth id) =
        namesOf program (walkStmtWithin program depth id) := by
    rw [namesOf, functions]
    rfl
  have fewer := demand_walkStmtWithin_cut_le tail.compound_eq depth id
  rw [← stmtDepth_withStmt block (.compound (before ++ [stop]))] at shallow
  rw [← names]
  exact (keeps_lowerStmtWithin (fun _ _ => trivial) (finishing_finishFunction _ options) depth shallow
    id).mono (by omega)

theorem answers_cut (tail : DeadTail program block before stop after)
    (plain : options.verifyFunctions = false) (shallow : depth ≤ stmtDepth program)
    {setting : Setting} {answer : StmtId → Lower Unit}
    (each : ∀ child ∈ before ++ [stop], ∀ locals,
      Scoped program (sightsWithin program depth locals child) →
        MirrorsStmt program other (fun id => .expr id ∈ after.flatMap (walkStmt program)) locals
          setting.loops (walkStmtWithin program depth)
          (lowerStmtWithin program (finishFunction options) depth) answer child)
    (inScope : Scoped program
      (sightsInTurn program (sightsWithin program depth) locals (before ++ [stop] ++ after)))
    (enclosed : ∀ child ∈ before ++ [stop],
      Enclosed program (occurrencesWithin program depth setting child))
    (within : ∀ child ∈ before ++ [stop] ++ after, EndsWithin program depth child) :
    Answers program other (fun id => .expr id ∈ after.flatMap (walkStmt program))
      (8 * demand program ((before ++ [stop] ++ after).flatMap (walkStmtWithin program depth)))
      (namesOf program ((before ++ [stop] ++ after).flatMap (walkStmtWithin program depth)))
      (Tandem.Sees locals setting.loops)
      ((before ++ [stop] ++ after).forM (lowerStmtWithin program (finishFunction options) depth))
      ((before ++ [stop]).forM answer) fun _ _ _ => True := by
  have same : after.flatMap (walkStmtWithin program depth) = after.flatMap (walkStmt program) :=
    List.flatMap_congr fun child member =>
      ((within child (List.mem_append_right _ member)).walk_eq shallow).symm
  have nameless : namesOf program (after.flatMap (walkStmtWithin program depth)) = [] := by
    rw [same, namesOf, tail.noFunctions]
    rfl
  have first := mirrors_until_stop shallow (mirrors_lowerSequence each inScope.first) enclosed
    (fun child member => within child (List.mem_append_left _ member)) tail.stops
  intro outset count course fresh distinct unopened otherUnopened sees
  rw [List.flatMap_append, namesOf_append, nameless, List.append_nil] at fresh distinct unopened otherUnopened
  rw [List.flatMap_append, demand_append] at course
  rw [List.forM_eq_forM, List.forM_append, ← bind_pure (forM (before ++ [stop]) answer)]
  refine course.thenPart first
    (8 * demand program (after.flatMap (walkStmtWithin program depth)) + count) (by omega) fresh distinct unopened otherUnopened sees fun _ _ middle course _ dead => ?_
  exact course.skip plain shallow (same ▸ tail.noFunctions) (same ▸ tail.noGlobal)
    (fun id isInside => same ▸ isInside) dead

theorem mirrors_lowerStmtWithin (tail : DeadTail program block before stop after)
    (plain : options.verifyFunctions = false) (shallow : depth ≤ stmtDepth program)
    {setting : Setting} {id : StmtId} (within : EndsWithin program depth id)
    (enclosed : Enclosed program (occurrencesWithin program depth setting id))
    (inScope : Scoped program (sightsWithin program depth locals id))
    (isLocal : ∀ param var, .param param ∈ walkStmtWithin program depth id →
      program.var? param = some var → var.scope = .local) :
    MirrorsStmt program (program.withStmt block (.compound (before ++ [stop])))
      (fun id => .expr id ∈ after.flatMap (walkStmt program)) locals setting.loops
      (walkStmtWithin program depth) (lowerStmtWithin program (finishFunction options) depth)
      (lowerStmtWithin (program.withStmt block (.compound (before ++ [stop])))
        (finishFunction options) depth) id := by
  induction depth generalizing setting locals id with
  | zero => exact within.elim
  | succ depth induction =>
      rcases within with ⟨stmt, found, inner⟩
      have less := Nat.le_of_succ_le shallow
      refine ⟨⟨_, keeps_lowerStmtWithin (fun _ _ => trivial) (finishing_finishFunction program options)
        (depth + 1) shallow id⟩, ⟨_, tail.otherKeeps shallow id⟩, ?_⟩
      have names : namesOf program (walkStmtWithin program (depth + 1) id) =
          namesOf program (walkNodeOf program (walkStmtWithin program depth) stmt) := by
        simp [walkStmtWithin, found, namesOf, Node.function?]
      rw [sightsWithin_eq found] at inScope
      have each : ∀ part child locals, (part, child) ∈ parts program setting id stmt →
          Scoped program (sightsWithin program depth locals child) →
            MirrorsStmt program (program.withStmt block (.compound (before ++ [stop])))
              (fun id => .expr id ∈ after.flatMap (walkStmt program)) locals part.loops
              (walkStmtWithin program depth) (lowerStmtWithin program (finishFunction options) depth)
              (lowerStmtWithin (program.withStmt block (.compound (before ++ [stop])))
                (finishFunction options) depth) child := by
        intro part child locals isPart inScope
        have isChild := mem_children_of_parts isPart
        refine induction less (inner child isChild) (enclosed.part found isPart) inScope
          fun param var member => isLocal param var ?_
        rw [walkStmtWithin_eq found]
        refine List.mem_cons_of_mem _ ((sublist_walkNodeOf _ stmt).subset ?_)
        exact List.mem_flatMap.mpr ⟨child, isChild, member⟩
      rw [names, walkStmtWithin_eq found, localsBehind_eq found]
      have enough := demand_stmt_le program found
        (walkNodeOf program (walkStmtWithin program depth) stmt)
      simp only [lowerStmtWithin, found, Lower.orFault_some_bind]
      by_cases isBlock : id = block
      · subst isBlock
        cases found.symm.trans tail.compound_eq
        simp only [Program.stmt?_withStmt_self found, Lower.orFault_some_bind]
        have child (id : StmtId) (member : id ∈ before ++ [stop]) :
            id ∈ before ++ [stop] ++ after := List.mem_append_left _ member
        have cut := tail.answers_cut plain less
          (fun id member locals => each setting id locals (List.mem_map_of_mem (child id member))) inScope
          (fun id member => enclosed.part found (List.mem_map_of_mem (child id member))) inner
        exact cut.mono enough (fun _ sees => sees)
          fun _ _ ended _ => .nothing ended
      · simp only [(Program.stmt?_withStmt_other isBlock).trans found, Lower.orFault_some_bind,
          lowerNodeOf_withStmt]
        refine (answers_lowerNodeOf plain each inScope (fun _ => enclosed.target_mem found)
          fun param var member => isLocal param var ?_).mono enough (fun _ sees => sees)
            fun _ _ _ sees => sees
        rw [walkStmtWithin_eq found]
        exact List.mem_cons_of_mem _ member

end DeadTail

end ScriptLowering.Lowering
