import ScriptLowering.Proofs.Expressions

/-! # What statements build

Each form of statement takes a regular place to a regular one in the way that its trace tells,
whatever its parts are, as long as its parts do.
-/

namespace ScriptLowering.Lowering

open Source (Program ExprId Stmt StmtId VarId VarDecl ForInit)
open Code (BlockId Place)

variable {program : Program}

/-! ## Variables -/

section Variables

variable {errors : Error → Prop} (ordinary : ∀ error : Error, error.IsOrdinary → errors error)

include ordinary

theorem keeps_lowerInitial (decl : VarDecl) :
    Computes program errors (8 * (decl.initial.toList.flatMap (walkExpr program)).length)
      (lowerInitial program decl) fun final => LowersInitial program final decl.initial := by
  unfold lowerInitial
  cases decl.initial with
  | none =>
      refine .start fun final session name place count fills => ?_
      exact ((Stage.start program final fills).mono (by omega)).finish fun _ => .none
  | some expr =>
      simp only [Option.toList_some, List.flatMap_cons, List.flatMap_nil, List.append_nil]
      refine Computes.some (.start fun final session name place count fills => ?_)
      refine .of_bind_pure ((Stage.start program final fills).thenCompute
        (keeps_lowerValue ordinary expr) count (Nat.le_refl _) fun _ _ _ stage => ?_)
      exact stage.finish fun facts => .some facts.2

theorem keeps_lowerVarDecl (id : VarId) :
    Computes program errors (8 * (walkVar program id).length) (lowerVarDecl program id)
      fun final place _ after => LowersVar program final id place after := by
  refine .start fun final session name place count fills => ?_
  refine .orFault_bind (fun _ => ordinary _ trivial) fun decl found => ?_
  simp only [walkVar, found, List.length_append, List.length_singleton] at fills
  split
  · exact .of_error rfl (ordinary _ trivial)
  · rename_i notVoid
    refine (Stage.start program final fills).thenCompute (keeps_lowerInitial ordinary decl)
      (count + 2 + 1) (by omega) fun value _ valued stage => ?_
    cases scope : decl.scope with
    | topLevel =>
        refine .consult_bind (fun _ _ => ordinary _ trivial) fun initial starts => ?_
        refine stage.thenAddGlobal fun global _ stage => ?_
        have fewer := stage.mono (Nat.le_succ (count + 1))
        have sets : ∀ {after : Place} {next : Session} {facts : Prop},
            Stage program final facts [] [] name place session count next after →
            (facts → final.annotations.storageOf id = .ok (.global global) →
              LowersVar program final id place after) →
            (Lower.annotate fun annotations =>
              annotations.setStorage id (.global global)).Ensures next
              (Arrives program [] name place session count final fun final place _ after =>
                LowersVar program final id place after) errors := by
          intro after next facts stage means
          refine .of_bind_pure (stage.thenSetStorage ordinary fun _ stage => ?_)
          exact stage.finish fun facts => means facts.1 facts.2
        cases value with
        | none =>
            refine sets (stage.mono (by omega)) fun facts stored => ?_
            exact .kept found notVoid scope facts.1.2 (.inl rfl)
              ⟨stored, initial, starts, facts.2⟩
        | some value =>
            simp only
            split
            · rename_i stores
              refine fewer.thenAdd rfl fun stage => sets stage fun facts stored => ?_
              refine .stored found notVoid scope facts.1.2 fewer.fit ?_
                ⟨stored, initial, starts, facts.2⟩
              simpa using stores
            · rename_i keeps
              rw [not_or] at keeps
              refine sets (stage.mono (by omega)) fun facts stored => ?_
              refine .kept found notVoid scope facts.1.2 (.inr ⟨keeps.1, ?_⟩)
                ⟨stored, initial, starts, facts.2⟩
              simpa using keeps.2
    | «local» =>
        have enough := stage.mono (Nat.le_refl (count + 1 + 2))
        refine enough.thenDefine (fun _ => rfl) fun slotted => ?_
        cases value with
        | none =>
            refine .of_bind_pure ((slotted.mono (Nat.le_succ count)).thenSetStorage ordinary
              fun _ stage => ?_)
            refine stage.finish fun facts => ?_
            have computes := facts.1.2
            generalize initially : decl.initial = initial at computes
            cases computes
            exact .empty found notVoid scope fills.fit initially facts.2
        | some value =>
            refine slotted.thenAdd rfl fun stage => ?_
            refine .of_bind_pure (stage.thenSetStorage ordinary fun _ stage => ?_)
            refine stage.finish fun facts => ?_
            have computes := facts.1.2
            generalize initially : decl.initial = initial at computes
            cases computes with
            | some computes =>
                exact .filled found notVoid scope initially computes enough.fit rfl facts.2

theorem keeps_lowerVars (depth : Nat) (id : StmtId) (vars : List VarId) :
    Computes program errors (8 * (vars.flatMap (walkVar program)).length)
      (vars.forM (lowerVarDecl program))
      fun final place _ after => LowersPart program final depth (.stmt id (.varDecl vars)) place
        after := by
  induction vars with
  | nil =>
      refine .start fun final session name place count fills => ?_
      exact ((Stage.start program final fills).mono (by omega)).finish fun _ => .noVars
  | cons var vars induction =>
      refine .start fun final session name place count fills => ?_
      rw [List.flatMap_cons, List.length_append, Nat.mul_add] at fills
      rw [Lower.forM_cons]
      refine (Stage.start program final fills).thenCompute (keeps_lowerVarDecl ordinary var)
        (8 * (vars.flatMap (walkVar program)).length + count) (by omega) fun _ _ _ stage => ?_
      refine .of_bind_pure (stage.thenCompute induction count (Nat.le_refl _)
        fun _ _ _ stage => ?_)
      exact stage.finish fun facts => .vars facts.1.2 facts.2

theorem keeps_lowerParams (params : List (VarId × Nat)) :
    Computes program errors (8 * params.length)
      (params.forM fun (param, index) => lowerParam program param index)
      fun final place _ after => LowersParams program final params place after := by
  induction params with
  | nil =>
      refine .start fun final session name place count fills => ?_
      exact ((Stage.start program final fills).mono (by omega)).finish fun _ => .nil
  | cons pair params induction =>
      rcases pair with ⟨id, index⟩
      refine .start fun final session name place count fills => ?_
      have start : session.Fills name place (8 * params.length + count + 1 + 2) :=
        fills.mono (by simp only [List.length_cons]; omega)
      rw [Lower.forM_cons]
      have single : Computes program errors 3 (lowerParam program id index)
          fun final place _ after => ∃ decl slotted, program.var? id = some decl ∧ place.Fit ∧
            slotted = (place.ready.define .ptr fun result =>
              .alloca result (codeType decl.ty) (alignment decl.ty)) ∧
            final.annotations.storageOf id = .ok (.temp place.ready.freshTemp) ∧
            after = slotted.ready.add
              (.store (.temp place.ready.freshTemp) (.param ⟨index.toUInt32⟩)) := by
        refine .start fun final session name place count fills => ?_
        have start : session.Fills name place (count + 1 + 2) := fills.mono (by omega)
        refine .orFault_bind (fun _ => ordinary _ trivial) fun decl found => ?_
        refine (Stage.start program final start).thenDefine (fun _ => rfl) fun stage => ?_
        refine stage.thenAdd rfl fun stage => ?_
        refine .of_bind_pure (stage.thenSetStorage ordinary fun _ stage => ?_)
        exact stage.finish fun facts => ⟨decl, _, found, fills.fit, rfl, facts.2, rfl⟩
      refine (Stage.start program final start).thenCompute single (8 * params.length + count)
        (by omega) fun _ _ _ stage => ?_
      refine .of_bind_pure (stage.thenCompute induction count (Nat.le_refl _)
        fun _ _ _ stage => ?_)
      refine stage.finish fun facts => ?_
      rcases facts.1.2 with ⟨decl, slotted, found, fit, reserves, known, same⟩
      have rest := facts.2
      rw [same] at rest
      exact .cons found fit reserves known rest

end Variables

/-! ## Structured statements -/

/-- A statement whose parts are followed to the given depth. -/
def LowersStmt (program : Program) (depth : Nat) (id : StmtId) (final : Session)
    (place : Place) (_ : Unit) (after : Place) : Prop :=
  ∃ below node, depth = below + 1 ∧ program.stmt? id = some node ∧
    LowersPart program final below (.stmt id node) place after

section Structured

variable {allowed : String → Prop} {errors : Error → Prop}
  (ordinary : ∀ error : Error, error.IsOrdinary → errors error)
  {lower : StmtId → Lower Unit} {walk : StmtId → List Node} {depth : Nat}
  (bodies : ∀ id, Keeps program allowed errors (8 * demand program (walk id))
    (namesOf program (walk id)) (lower id) (LowersStmt program depth id))

include bodies

theorem keeps_lowerSequence (id : StmtId) (stmts : List StmtId) :
    Keeps program allowed errors (8 * demand program (stmts.flatMap walk))
      (namesOf program (stmts.flatMap walk)) (stmts.forM lower)
      fun final place _ after => LowersPart program final depth (.stmt id (.compound stmts)) place
        after := by
  induction stmts with
  | nil =>
      intro final session name place count fills _ _ _
      exact ((Stage.start program final fills).mono (by omega)).finish fun _ => .nothing
  | cons head tail induction =>
      intro final session name place count fills fresh distinct unopened
      rw [List.flatMap_cons, namesOf_append] at fresh distinct unopened
      rw [List.flatMap_cons, demand_append, Nat.mul_add] at fills
      rw [List.mem_append, not_or] at fresh
      rw [Lower.forM_cons]
      refine (Stage.start program final fills).thenLower (bodies head)
        (8 * demand program (tail.flatMap walk) + count) (by omega) fresh.1
        (List.nodup_append.mp distinct).1
        (fun other member => unopened other (List.mem_append_left _ member))
        fun _ _ _ stage => ?_
      refine .of_bind_pure (stage.thenLower induction count (Nat.le_refl _) fresh.2 distinct
        (fun other member => unopened other (List.mem_append_right _ member))
        fun _ _ _ stage => ?_)
      rw [List.flatMap_cons, namesOf_append]
      refine stage.finish fun facts => ?_
      rcases facts with ⟨⟨_, below, node, rfl, found, first⟩, rest⟩
      exact .sequence found first rest

include ordinary

theorem keeps_lowerIf (id : StmtId) (condition : ExprId) (thenBody : StmtId)
    (elseBody : Option StmtId) :
    Keeps program allowed errors (8 * demand program (walkExpr program condition ++
        (walk thenBody ++ elseBody.toList.flatMap walk)) + 4)
      (namesOf program (walk thenBody) ++ namesOf program (elseBody.toList.flatMap walk))
      (lowerIf program lower condition thenBody elseBody)
      fun final place _ after => LowersPart program final depth
        (.stmt id (.ifThenElse condition thenBody elseBody)) place after := by
  intro final session name place count fills fresh distinct unopened
  rw [List.mem_append, not_or] at fresh
  have thenDistinct := (List.nodup_append.mp distinct).1
  have thenUnopened : session.Unopened allowed (namesOf program (walk thenBody)) :=
    fun other member => unopened other (List.mem_append_left _ member)
  simp only [demand_append, demand_walkExpr] at fills
  unfold lowerIf
  refine (Stage.start program final fills).thenCompute (keeps_lowerValue ordinary condition)
    (8 * demand program (walk thenBody) + 8 * demand program (elseBody.toList.flatMap walk) +
      count + 4) (by omega) fun value _ tested stage => ?_
  have fit := stage.fit
  refine stage.thenCreate fun stage => stage.thenCreate fun stage => ?_
  cases elseBody with
  | none =>
      refine stage.thenTerminate fun stage => stage.second.thenEnter fun stage => ?_
      refine stage.thenLower (bodies thenBody) count (by omega) fresh.1 thenDistinct
        thenUnopened fun _ _ _ stage => ?_
      have fitDone := stage.fit
      have waits := stage.waiting _ List.mem_cons_self
      refine stage.thenLeaveTo fun stage => .of_bind_pure (stage.thenEnter fun stage => ?_)
      have names : namesOf program ((none : Option StmtId).toList.flatMap walk) = [] := rfl
      rw [names, List.append_nil]
      refine stage.finish fun facts => ?_
      rcases facts with ⟨⟨_, tests⟩, below, node, rfl, found, body⟩
      exact .ifThen tests fit rfl rfl found body fitDone waits
  | some elseBody =>
      simp only [Option.toList_some, List.flatMap_cons, List.flatMap_nil, List.append_nil]
        at fresh distinct unopened stage ⊢
      have elseUnopened : session.Unopened allowed (namesOf program (walk elseBody)) :=
        fun other member => unopened other (List.mem_append_right _ member)
      refine stage.thenCreate fun stage => stage.thenTerminate fun stage =>
        stage.third.thenEnter fun stage => ?_
      refine stage.thenLower (bodies thenBody) (8 * demand program (walk elseBody) + count) (by omega)
        fresh.1 thenDistinct thenUnopened fun _ _ _ stage => ?_
      have fitDone := stage.fit
      have waitsElse := stage.waiting _ List.mem_cons_self
      refine stage.thenLeaveTo fun stage => stage.thenEnter fun stage => ?_
      refine stage.thenLower (bodies elseBody) count (by omega) fresh.2 distinct elseUnopened
        fun _ _ _ stage => ?_
      have fitElse := stage.fit
      have waits := stage.waiting _ List.mem_cons_self
      refine stage.thenLeaveTo fun stage => .of_bind_pure (stage.thenEnter fun stage => ?_)
      refine stage.finish fun facts => ?_
      rcases facts with ⟨⟨⟨_, tests⟩, below, thenNode, rfl, thenFound, thenPart⟩, _, elseNode, same,
        elseFound, elsePart⟩
      cases same
      exact .ifThenElse tests fit rfl rfl rfl thenFound elseFound thenPart fitDone waitsElse
        elsePart fitElse waits

theorem keeps_lowerWhile (id : StmtId) (condition : ExprId) (body : StmtId) :
    Keeps program allowed errors (8 * demand program (walkExpr program condition ++ walk body) + 4)
      (namesOf program (walk body)) (lowerWhile program lower id condition body)
      fun final place _ after => LowersPart program final depth
        (.stmt id (.whileLoop condition body)) place after := by
  intro final session name place count fills fresh distinct unopened
  simp only [demand_append, demand_walkExpr] at fills
  have start : session.Fills name place (8 * (walkExpr program condition).length +
      (8 * demand program (walk body) + count + 1) + 3) := fills.mono (by omega)
  unfold lowerWhile
  refine (Stage.start program final start).thenCreate fun stage =>
    stage.thenCreate fun stage => stage.thenCreate fun stage => ?_
  refine stage.thenSetLoop ordinary fun _ stage => ?_
  refine stage.third.thenEnter fun stage => ?_
  refine stage.thenCompute (keeps_lowerValue ordinary condition) _ (Nat.le_refl _)
    fun value _ _ stage => ?_
  have fitTested := stage.fit
  have waitsBody := stage.second.waiting _ List.mem_cons_self
  refine stage.thenTerminate fun stage => stage.second.thenEnter fun stage => ?_
  refine stage.thenLower (bodies body) count (Nat.le_refl _) fresh distinct unopened
    fun _ _ _ stage => ?_
  have fitDone := stage.fit
  have waits := stage.waiting _ List.mem_cons_self
  refine stage.thenLeaveTo fun stage => .of_bind_pure (stage.thenEnter fun stage => ?_)
  refine stage.finish fun facts => ?_
  rcases facts with ⟨⟨⟨_, known⟩, tests⟩, below, node, rfl, found, loops⟩
  exact .whileLoop fills.fit rfl rfl rfl known tests fitTested waitsBody found loops fitDone waits

theorem keeps_lowerForInit (initial : ForInit) :
    Keeps program allowed errors (8 * demand program (walkForInit program walk initial))
      (namesOf program (walkForInit program walk initial)) (lowerForInit program lower initial)
      fun final place _ after => LowersPart program final depth (.initial initial) place after := by
  intro final session name place count fills fresh distinct unopened
  cases initial with
  | decl stmt =>
      refine .of_bind_pure ((Stage.start program final fills).thenLower (bodies stmt) count
        (Nat.le_refl _) fresh distinct unopened fun _ _ _ stage => ?_)
      refine stage.finish fun facts => ?_
      rcases facts with ⟨_, below, node, rfl, found, declares⟩
      exact .initialDecl found declares
  | exprs exprs =>
      simp only [walkForInit, namesOf_walkExprs, demand_walkExprs] at fills ⊢
      refine .of_bind_pure ((Stage.start program final fills).thenCompute
        (keeps_lowerExprs ordinary exprs) count (Nat.le_refl _) fun _ _ _ stage => ?_)
      exact stage.finish fun facts => .initialExprs facts.2

omit bodies in
theorem keeps_lowerForCondition (endBlock : BlockId) (condition : Option ExprId) :
    Computes program errors (8 * (condition.toList.flatMap (walkExpr program)).length + 2)
      (lowerForCondition program endBlock condition)
      fun final place _ after => LowersCondition program final endBlock condition place after := by
  cases condition with
  | none =>
      refine .start fun final session name place count fills => ?_
      exact ((Stage.start program final fills).mono (by omega)).finish fun _ => .none
  | some condition =>
      refine .start fun final session name place count fills => ?_
      simp only [Option.toList_some, List.flatMap_cons, List.flatMap_nil, List.append_nil] at fills
      have start : session.Fills name place (8 * (walkExpr program condition).length +
        (count + 1) + 1) := fills.mono (by omega)
      unfold lowerForCondition
      refine (Stage.start program final start).thenCreate fun stage => ?_
      refine stage.thenCompute (keeps_lowerValue ordinary condition) _ (Nat.le_refl _)
        fun value _ _ stage => ?_
      have fit := stage.fit
      have waits := stage.waiting _ List.mem_cons_self
      refine stage.thenTerminate fun stage => .of_bind_pure (stage.thenEnter fun stage => ?_)
      exact stage.finish fun facts => .some facts.2 fit waits

omit bodies ordinary in
theorem ensures_createUpdateBlock {final : Session} {facts : Prop} {names : List String}
    {waits : List (BlockId × String)} {name : String} {origin place : Place}
    {first session : Session} {count : Nat} {β : Type} {rest : Option BlockId → Lower β}
    {post : β → Session → Prop} {updates : List ExprId}
    (stage : Stage program final facts names waits name origin first (count + 1) session place)
    (continues : ∀ next, Stage program final facts names
        (((updateBlock? updates place).map fun id => (id, "for.update")).toList ++ waits) name
        origin first count next (createUpdates updates place) →
      (rest (updateBlock? updates place)).Ensures next post errors) :
    (createUpdateBlock updates >>= rest).Ensures session post errors := by
  unfold createUpdateBlock
  cases empty : updates.isEmpty with
  | true =>
      simp only [updateBlock?, createUpdates, empty, if_true] at continues
      exact continues session (stage.mono (Nat.le_succ count))
  | false =>
      simp only [updateBlock?, createUpdates, empty, Bool.false_eq_true, if_false] at continues
      have creates : (some <$> createBlock "for.update" : Lower (Option BlockId)) session =
          .ok (some place.freshBlock, session.put name (place.create "for.update")) := by
        rw [map_eq_pure_bind, Lower.bind_eq (createBlock_eq stage.builds "for.update")]
        rfl
      exact .bind_ok creates (continues _ (stage.create "for.update"))

omit bodies in
theorem ensures_lowerForUpdates {final : Session} {facts : Prop} {names : List String}
    {waits : List (BlockId × String)} {name : String} {origin place : Place}
    {first session : Session} {count : Nat} {β : Type} {rest : Unit → Lower β}
    {post : β → Session → Prop} (updates : List ExprId) (updateBlock : Option BlockId)
    (stage : Stage program final facts names
      ((updateBlock.map fun id => (id, "for.update")).toList ++ waits) name origin first
      (8 * (updates.flatMap (walkExpr program)).length + count) session place)
    (continues : ∀ next after, Stage program final
        (facts ∧ LowersUpdates program final updates updateBlock place after) names waits name
        origin first count next after →
      (rest ()).Ensures next post errors) :
    (lowerForUpdates program updates updateBlock >>= rest).Ensures session post errors := by
  cases updateBlock with
  | none => exact continues session place ((stage.mono (by omega)).imp fun holds => ⟨holds, .none⟩)
  | some id =>
      unfold lowerForUpdates
      rw [bind_assoc]
      have waits := stage.waiting _ List.mem_cons_self
      refine Stage.thenEnter stage fun stage => ?_
      refine stage.thenCompute (keeps_lowerExprs ordinary updates) count (Nat.le_refl _)
        fun _ next after stage => continues next after (stage.imp fun holds => ?_)
      exact ⟨holds.1, .some waits holds.2⟩

theorem keeps_lowerFor (id : StmtId) (initial : ForInit) (condition : Option ExprId)
    (updates : List ExprId) (body : StmtId) :
    Keeps program allowed errors (8 * demand program (walkForInit program walk initial ++
        (condition.toList.flatMap (walkExpr program) ++
          (walk body ++ updates.flatMap (walkExpr program)))) + 5)
      (namesOf program (walkForInit program walk initial) ++ namesOf program (walk body))
      (lowerFor program lower id initial condition updates body)
      fun final place _ after => LowersPart program final depth
        (.stmt id (.forLoop initial condition updates body)) place after := by
  intro final session name place count fills fresh distinct unopened
  rw [List.mem_append, not_or] at fresh
  have initialUnopened : session.Unopened allowed
      (namesOf program (walkForInit program walk initial)) :=
    fun other member => unopened other (List.mem_append_left _ member)
  have bodyUnopened : session.Unopened allowed (namesOf program (walk body)) :=
    fun other member => unopened other (List.mem_append_right _ member)
  simp only [demand_append, demand_walkExprs] at fills
  unfold lowerFor
  refine (Stage.start program final fills).thenLower
    (keeps_lowerForInit ordinary bodies initial)
    (8 * (condition.toList.flatMap (walkExpr program)).length +
      (8 * demand program (walk body) + (8 * (updates.flatMap (walkExpr program)).length + count)) + 5)
    (by omega) fresh.1 (List.nodup_append.mp distinct).1 initialUnopened
    fun _ _ started stage => ?_
  have fit := stage.fit
  refine stage.thenCreate fun stage => stage.thenCreate fun stage =>
    stage.second.thenEnter fun stage => ?_
  have fitEntered := stage.fit
  refine ensures_createUpdateBlock stage fun _ stage => ?_
  refine stage.thenSetLoop ordinary fun _ stage => ?_
  refine stage.thenCompute (keeps_lowerForCondition ordinary _ condition)
    (8 * demand program (walk body) + (8 * (updates.flatMap (walkExpr program)).length + count))
    (by omega) fun _ _ _ stage => ?_
  refine stage.thenLower (bodies body) _ (Nat.le_refl _) fresh.2 distinct bodyUnopened
    fun _ _ _ stage => ?_
  have fitDone := stage.fit
  refine ensures_lowerForUpdates ordinary updates _ stage fun _ _ stage => ?_
  have fitUpdated := stage.fit
  have waits := stage.waiting _ List.mem_cons_self
  refine stage.thenLeaveTo fun stage => .of_bind_pure (stage.thenEnter fun stage => ?_)
  refine stage.finish fun facts => ?_
  rcases facts with ⟨⟨⟨⟨⟨_, starts⟩, known⟩, tests⟩, below, node, rfl, found, loops⟩, renews⟩
  exact .forLoop starts fit rfl rfl fitEntered known tests found loops fitDone renews fitUpdated
    waits

omit bodies in
theorem keeps_lowerBreak (id target : StmtId) :
    Computes program errors 1 (lowerBreak target) fun final place _ after =>
      LowersPart program final depth (.stmt id (.breakLoop target)) place after := by
  refine .start fun final session name place count fills => ?_
  have start : session.Fills name place (count + 1) := fills.mono (by omega)
  refine (Stage.start program final start).thenLoop ordinary fun blocks stage => ?_
  refine .of_bind_pure (stage.thenTerminate fun stage => ?_)
  exact stage.finish fun facts => .breakLoop fills.fit facts.2

omit bodies in
theorem keeps_lowerContinue (id target : StmtId) :
    Computes program errors 1 (lowerContinue target) fun final place _ after =>
      LowersPart program final depth (.stmt id (.continueLoop target)) place after := by
  refine .start fun final session name place count fills => ?_
  have start : session.Fills name place (count + 1) := fills.mono (by omega)
  refine (Stage.start program final start).thenLoop ordinary fun blocks stage => ?_
  refine .of_bind_pure (stage.thenTerminate fun stage => ?_)
  exact stage.finish fun facts => .continueLoop fills.fit facts.2

omit bodies in
theorem keeps_lowerReturn (id : StmtId) (value : Option ExprId) :
    Computes program errors (8 * (value.toList.flatMap (walkExpr program)).length + 1)
      (lowerReturn program value) fun final place _ after =>
        LowersPart program final depth (.stmt id (.returnValue value)) place after := by
  cases value with
  | none =>
      refine .start fun final session name place count fills => ?_
      have start : session.Fills name place (count + 1) := fills.mono (by omega)
      refine .of_bind_pure ((Stage.start program final start).thenTerminate fun stage => ?_)
      exact stage.finish fun facts => .returnNothing fills.fit
  | some expr =>
      refine .start fun final session name place count fills => ?_
      simp only [Option.toList_some, List.flatMap_cons, List.flatMap_nil, List.append_nil] at fills
      refine (Stage.start program final fills).thenCompute (keeps_lowerValue ordinary expr)
        (count + 1) (by omega) fun _ _ _ stage => ?_
      have fit := stage.fit
      refine .of_bind_pure (stage.thenTerminate fun stage => ?_)
      exact stage.finish fun facts => .returnValue facts.2 fit

end Structured

end ScriptLowering.Lowering
