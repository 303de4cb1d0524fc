import ScriptLowering.Proofs.IndependentLowering
import ScriptLowering.Proofs.ShadowedSteps
import ScriptLowering.Proofs.DeadEnds
import ScriptLowering.Proofs.UndisturbedFunctions

/-! # Stretches that control does not get to

Statements are lowered at a place that control does not get to. If they declare no function and no
variable of the top level, the session still has the same shadow: there is more data, which the
statements brought, and all else that is new belongs to the statements alone.
-/

namespace ScriptLowering.Lowering

open Source (Program ExprId StmtId VarId)
open Code (Place)

variable {program : Program} {name current : String} {session next first last : Session}

/-! ## New data -/

theorem Session.Retains.knows (retains : session.Retains next) {node : Node}
    (knows : session.Knows node) : next.Knows node := by
  cases node with
  | stmt id => exact knows.imp fun blocks => retains.loops id blocks
  | expr id => exact knows.imp fun value => retains.values id value
  | var id | param id => exact knows.imp fun address => retains.storage id address
  | function id => exact knows

/-- A literal for which a step of the path has made data was not known before. -/
theorem Path.learns_literal {events : List Event} (path : Path program first events last)
    {event : Event} (member : event ∈ events) {id : ExprId} {text : String}
    (literal : event.LowersLiteral program id text) :
    ¬ first.Knows (.expr id) ∧ last.Knows (.expr id) := by
  rcases literal with ⟨isExpr, ty, known⟩
  rcases path.exists_of_mem member with ⟨name, early, late, _, leads, performs, goesOn⟩
  rcases event with ⟨task, before, after⟩
  cases isExpr
  cases performs with
  | expr found emits records =>
      cases known.symm.trans found
      have annotations := emits.mid_eq.1
      cases emits with
      | @intro place next values builds operands emits puts =>
          cases emits
          rcases recordValue_some records with ⟨changed, sets, rfl⟩
          have unknown := (Annotations.setValue_eq_ok.mp sets).1
          rw [annotations] at unknown
          refine ⟨?_, _, goesOn.retains.values id _ (Annotations.value?_of_setValue sets id ▸ if_pos rfl)⟩
          rintro ⟨old, isOld⟩
          have isKnown := Option.isSome_iff_exists.mpr ⟨old, leads.retains.values id old isOld⟩
          exact Bool.false_ne_true (unknown.symm.trans isKnown)

/-! ## Parameters -/

theorem param_not_mem_walkExpr (id : ExprId) (param : VarId) :
    .param param ∉ walkExpr program id := by
  intro member
  rcases exists_expr_of_mem_walkExprWithin program member with ⟨_, same⟩
  cases same

theorem param_not_mem_walkStmt {depth : Nat} {id : StmtId} {param : VarId}
    (noFunctions : functionsOf (walkStmtWithin program depth id) = []) :
    .param param ∉ walkStmtWithin program depth id := by
  induction depth generalizing id with
  | zero => exact List.not_mem_nil
  | succ depth induction =>
      cases known : program.stmt? id with
      | none => simp [walkStmtWithin, known]
      | some stmt =>
          rw [walkStmtWithin_eq known] at noFunctions ⊢
          rw [functionsOf_cons, functionsOf_walkNodeOf] at noFunctions
          simp only [List.append_eq_nil_iff, functionsOf_flatMap, List.flatMap_eq_nil_iff] at noFunctions
          rcases noFunctions with ⟨_, noneDeclared, inner⟩
          have absent : ∀ child ∈ children program stmt,
              .param param ∉ walkStmtWithin program depth child :=
            fun child member => induction (inner child member)
          have exprs (id : ExprId) : .param param ∉ walkExpr program id :=
            param_not_mem_walkExpr id param
          cases stmt with
          | functionDecl func => cases noneDeclared
          | varDecl vars =>
              have vars (id : VarId) : .param param ∉ walkVar program id := by
                unfold walkVar
                split <;> simp [exprs]
              simp [walkNodeOf, vars]
          | ifThenElse condition thenBody elseBody =>
              cases elseBody <;> simp_all [walkNodeOf, children]
          | forLoop initial condition updates body =>
              cases initial <;> simp_all [walkNodeOf, walkForInit, children]
          | expr | compound | whileLoop | continueLoop | breakLoop | returnValue =>
              simp_all [walkNodeOf, children]

/-! ## What a stretch touches -/

section Stretch

variable {options : Options} {depth : Nat} {stmts : List StmtId}

/-- A run from the session, seen beside itself. It works on what the nodes touch, and it adds no
global. -/
def selfLink (program : Program) (session : Session) (current : String) (nodes : List Node)
    (known : ∀ name, (touches program session current nodes).functions name →
      ∃ function, session.cursor.module.function? name = some function) : Link where
  left := session
  right := session
  change := id
  view := id
  common := ⟨fun _ => True, fun _ => True, fun _ => True, fun _ => True⟩
  own := touches program session current nodes
  grows := False
  within := ⟨fun _ _ => trivial, fun _ _ => trivial, fun _ _ => trivial, fun _ _ => trivial⟩
  headings := fun _ => rfl
  known := known
  shifts := fun _ _ _ => rfl

theorem selfLink_allows {nodes : List Node} (noFunctions : functionsOf nodes = [])
    (noGlobal : DeclaresNoGlobal program nodes)
    (known : ∀ name, (touches program session current nodes).functions name →
      ∃ function, session.cursor.module.function? name = some function)
    {node : Node} (member : node ∈ nodes) :
    (selfLink program session current nodes known).Allows program node := by
  cases node with
  | stmt id => exact ⟨fun stmt found loops => ⟨member, stmt, found, loops⟩, fun _ _ => trivial⟩
  | expr id => exact ⟨fun valued => ⟨member, valued⟩, fun _ _ => trivial⟩
  | var id =>
      refine ⟨.inl member, fun decl found topLevel => ?_⟩
      rw [noGlobal id decl member found] at topLevel
      cases topLevel
  | param id => exact .inr member
  | function id =>
      rw [mem_functionsOf.symm, noFunctions] at member
      cases member

theorem selfLink_matches {nodes : List Node} {place : Place}
    (known : ∀ name, (touches program session current nodes).functions name →
      ∃ function, session.cursor.module.function? name = some function)
    (builds : session.Builds current place) (counts : session.Counts) :
    (selfLink program session current nodes known).Matches current session session := by
  have unchanged : ∀ operand : Option Code.Operand,
      operand = operand.map (Code.Operand.relabel id) := by
    rintro (_ | operand)
    · rfl
    · exact congrArg some operand.relabel_id.symm
  have relabels : (fun function : Code.Function => function.body.relabel id) =
      Code.Function.body := funext fun function => function.body.relabel_id
  have same : (selfLink program session current nodes known).change = id := rfl
  refine Link.matches_start ⟨place, builds, ?_⟩ (.inl rfl) (fun name _ => ?_)
    (fun _ _ => unchanged _) (fun _ _ => rfl) (fun _ _ => unchanged _) (fun grows => grows.elim)
    counts counts
  · rw [Place.relabel, same, Code.Body.relabel_id]
    exact builds
  · rw [same, relabels]
    rfl

/-- Statements that declare no function and no variable of the top level add no global, and they change
nothing but what they come to. -/
theorem frames_of_forM (plain : options.verifyFunctions = false) {place : Place}
    (builds : session.Builds current place) (counts : session.Counts)
    (noFunctions : functionsOf (stmts.flatMap (walkStmtWithin program depth)) = [])
    (noGlobal : DeclaresNoGlobal program (stmts.flatMap (walkStmtWithin program depth)))
    (runs : stmts.forM (lowerStmtWithin program (finishFunction options) depth) session =
      .ok ((), next)) :
    session.Frames (touches program session current
        (stmts.flatMap (walkStmtWithin program depth))) next ∧
      next.cursor.module.globals = session.cursor.module.globals ∧
        next.cursor.module.nextGlobal = session.cursor.module.nextGlobal := by
  have known : ∀ name, (touches program session current
      (stmts.flatMap (walkStmtWithin program depth))).functions name →
        ∃ function, session.cursor.module.function? name = some function := by
    rintro name (rfl | member)
    · exact builds.body.imp fun _ facts => facts.1
    · rw [namesOf_of_functionsOf noFunctions] at member
      cases member
  let link := selfLink program session current _ known
  have alike : link.Alike current Link.Anyhow
      (stmts.forM (lowerStmtWithin program (finishFunction options) depth))
      (stmts.forM (lowerStmtWithin program (finishFunction options) depth)) :=
    .forM fun id member => Link.alike_lowerStmtWithin (Source.Program.Resembles.refl _ program)
      (fun name _ => Link.alike_finishFunction_plain plain) depth current id fun node inside =>
        selfLink_allows noFunctions noGlobal known (List.mem_flatMap.mpr ⟨id, member, inside⟩)
  have outcome := alike session session (selfLink_matches known builds counts)
  rw [runs] at outcome
  cases outcome with
  | done _ agree => exact ⟨agree.firstFrames, agree.firstGlobals not_false⟩

theorem exists_path_of_forM {place : Place} (builds : session.Builds current place)
    (runs : stmts.forM (lowerStmtWithin program (finishFunction options) depth) session =
      .ok ((), next)) : ∃ events, Path program session events next := by
  let anywhere (_ : String) : Prop := True
  have isInside : anywhere current := trivial
  have travels : (stmts.forM (tellStmtWithin program (finishFunction options) depth)).Travels program
      anywhere :=
    .forM fun id _ => .tellStmtWithin (finishes_finishFunction options) depth fun _ _ => trivial
  rcases travels current session place isInside builds with ⟨last, journey, ends⟩
  have tells : (stmts.forM (tellStmtWithin program (finishFunction options) depth)).step session =
      .ok ((), next) := by
    rw [Told.step_forM, step_tellStmtWithin]
    exact runs
  rcases ends () next tells with ⟨rfl, _⟩
  exact ⟨_, journey.path⟩

/-- Data that the statements bring is for literals in them. -/
theorem texts_of_forM {place : Place} (builds : session.Builds current place)
    (spells : session.Spells program)
    (runs : stmts.forM (lowerStmtWithin program (finishFunction options) depth) session =
      .ok ((), next))
    (frames : session.Frames (touches program session current
      (stmts.flatMap (walkStmtWithin program depth))) next) :
    session.SpellsOn program next ∧ ∀ data object, next.cursor.module.data.get? data = some object →
      session.cursor.module.data.get? data = some object ∨ ∃ id,
        next.literal? program data = some id ∧
          .expr id ∈ stmts.flatMap (walkStmtWithin program depth) := by
  rcases exists_path_of_forM builds runs with ⟨events, path⟩
  rcases path.tellsText spells with ⟨goes, tells⟩
  refine ⟨goes, fun data object found => (tells data object found).imp_right ?_⟩
  rintro ⟨id, known, event, member, text, literal, _⟩
  rcases path.learns_literal member literal with ⟨unknown, value, knows⟩
  refine ⟨id, known, ?_⟩
  by_contra outside
  refine unknown ⟨value, ?_⟩
  rw [← knows]
  exact (frames.values id fun touched => outside touched.1).symm

theorem finishing_finishFunction (program : Program) (options : Options) :
    Finishing program (fun _ => True) (fun _ => True) (finishFunction options) :=
  fun session _ decl place _ _ builds _ => finishes_finishFunction options decl.name session place builds

/-- Control does not get to a place, so it does not get behind what is lowered there. -/
theorem rests_of_forM (shallow : depth ≤ stmtDepth program) {place : Place} {count : Nat}
    (fills : session.Fills current place
      (8 * demand program (stmts.flatMap (walkStmtWithin program depth)) + count))
    (noFunctions : functionsOf (stmts.flatMap (walkStmtWithin program depth)) = [])
    (dead : place.isLive = false)
    (bounded : ∀ id, place.EdgeTo id → id.number.toNat < place.body.nextBlock.toNat)
    (runs : stmts.forM (lowerStmtWithin program (finishFunction options) depth) session =
      .ok ((), next)) :
    ∃ after, next.Builds current after ∧ after.isLive = false ∧ place.body.Rests after.body ∧
      session.Precedes next ∧ ∀ other, other ≠ current →
        next.cursor.module.function? other = session.cursor.module.function? other := by
  have bodies := keeps_lowerStmtWithin (fun _ _ => trivial) (finishing_finishFunction program options)
    depth shallow
  have keeps := keeps_lowerSequence bodies default stmts next session current place count fills
  rw [namesOf_of_functionsOf noFunctions] at keeps
  rcases (keeps List.not_mem_nil List.nodup_nil fun _ member => by cases member).post_of_ok runs with
    ⟨after, filled, grows, traced⟩
  have routed := (traced (.refl next)).routed ⟨bounded, fun live => by rw [dead] at live; cases live⟩
  rcases routed.routes.frozen dead with ⟨stays, same⟩
  refine ⟨after, filled.builds, stays, ⟨same.layout, same.blocks, ?_, grows.within.blocks⟩,
    grows.precedes, fun other different => grows.others other different List.not_mem_nil⟩
  intro id ty known
  rcases grows.within.temps with ⟨more, temps⟩
  rw [Code.Body.tempType?, ← Array.getElem?_toList] at known ⊢
  rw [temps, List.getElem?_append_left (List.getElem?_eq_some_iff.mp known).1]
  exact known

theorem storageOf_topLevel
    (noFunctions : functionsOf (stmts.flatMap (walkStmtWithin program depth)) = [])
    (noGlobal : DeclaresNoGlobal program (stmts.flatMap (walkStmtWithin program depth)))
    (frames : session.Frames (touches program session current
      (stmts.flatMap (walkStmtWithin program depth))) next)
    {id : VarId} {decl : Source.VarDecl} (found : program.var? id = some decl)
    (topLevel : decl.scope = .topLevel) :
    next.annotations.storageOf id = session.annotations.storageOf id := by
  have untouched : ¬ (touches program session current
      (stmts.flatMap (walkStmtWithin program depth))).vars id := by
    rintro (isVar | isParam)
    · rw [noGlobal id decl isVar found] at topLevel
      cases topLevel
    · obtain ⟨child, member, inside⟩ := List.mem_flatMap.mp isParam
      rw [functionsOf_flatMap, List.flatMap_eq_nil_iff] at noFunctions
      exact param_not_mem_walkStmt (noFunctions child member) inside
  rw [Annotations.storageOf, frames.storage id untouched]
  rfl

/-- A stretch that control does not get to leaves the shadow of the session as it is. -/
theorem Tandem.Agrees.skip {dropped : ExprId → Prop} {tandem : Tandem}
    (agrees : tandem.Agrees program dropped) (plain : options.verifyFunctions = false)
    (shallow : depth ≤ stmtDepth program) {count : Nat}
    (fills : tandem.session.Fills tandem.name tandem.place
      (8 * demand program (stmts.flatMap (walkStmtWithin program depth)) + count))
    (noFunctions : functionsOf (stmts.flatMap (walkStmtWithin program depth)) = [])
    (noGlobal : DeclaresNoGlobal program (stmts.flatMap (walkStmtWithin program depth)))
    (texts : ∀ id, .expr id ∈ stmts.flatMap (walkStmtWithin program depth) → dropped id)
    (dead : tandem.place.isLive = false)
    (bounded : ∀ id, tandem.place.EdgeTo id →
      id.number.toNat < tandem.place.body.nextBlock.toNat)
    (runs : stmts.forM (lowerStmtWithin program (finishFunction options) depth) tandem.session =
      .ok ((), next)) :
    ∃ after, Tandem.Agrees program dropped { tandem with session := next, place := after } ∧
      tandem.session.Precedes next := by
  have shadows := agrees.shadows
  rcases rests_of_forM shallow fills noFunctions dead bounded runs with
    ⟨after, builds, stays, rests, precedes, others⟩
  rcases frames_of_forM plain agrees.builds shadows.spells.toCounts noFunctions noGlobal runs with
    ⟨frames, globals, nextGlobal⟩
  rcases texts_of_forM agrees.builds shadows.spells runs frames with ⟨goes, brings⟩
  have pairs : after.Pairs tandem.pairing tandem.counterpart :=
    agrees.pairs.first rests (stays.trans dead.symm)
  refine ⟨after, ⟨builds, agrees.otherBuilds, pairs, ?_⟩, precedes⟩
  exact {
    bodies := by
      intro name
      by_cases here : name = tandem.name
      · subst here
        rcases builds.body with ⟨function, found, body⟩
        rcases agrees.otherBuilds.body with ⟨mirrored, otherFound, otherBody⟩
        rw [found, otherFound]
        refine .some ⟨tandem.pairing, rfl, ?_⟩
        rw [body, otherBody]
        exact pairs.agrees
      · rw [others name here]
        exact shadows.bodies name
    headings := frames.headings.symm.trans shadows.headings
    globals := shadows.globals.trans globals.symm
    nextGlobal := shadows.nextGlobal.trans nextGlobal.symm
    topLevel := by
      intro id decl found topLevel address stored
      rw [storageOf_topLevel noFunctions noGlobal frames found topLevel] at stored
      exact shadows.topLevel id decl found topLevel address stored
    known := by
      rcases exists_path_of_forM agrees.builds runs with ⟨events, path⟩
      exact fun node knows => path.retains.knows (shadows.known node knows)
    data := shadows.data.first fun id object found => precedes.data id object found
    sameTexts := fun data counterpart paired =>
      (shadows.sameTexts data counterpart paired).imp fun _ same => ⟨goes.literal? same.1, same.2⟩
    left := by
      intro data object found
      rcases brings data object found with old | ⟨id, known, isInside⟩
      · exact (shadows.left data object old).imp_right fun left =>
          left.imp fun _ facts => ⟨goes.literal? facts.1, facts.2⟩
      · exact .inr ⟨id, known, texts id isInside⟩
    spells := goes.spells
    otherSpells := shadows.otherSpells }

end Stretch

end ScriptLowering.Lowering
