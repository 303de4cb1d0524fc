import ScriptLowering.Proofs.Statements

/-! # What functions build

A function is opened empty, filled with its parameters and its body, and finished. The whole
way through a program does this for every function on it, and for the entry function.
-/

namespace ScriptLowering.Lowering

open Source (Program Stmt StmtId VarId FuncId FunctionDecl)
open Code (Place)

variable {program : Program}

/-! ## Opening and filling -/

theorem fills_opened {session : Session} {name : String} {function : Code.Function}
    (found : session.cursor.module.function? name = some function) {count : Nat}
    (few : count + 9 < 2 ^ 32) (stock : session.Stock count) :
    (session.put name (Place.mk .empty none).opened).Fills name (Place.mk .empty none).opened
      count where
  builds := ⟨rfl, { function with body := _ }, by simp [Session.function?_put, found], rfl⟩
  regular := regular_opened
  room := by
    refine ⟨?_, ?_⟩
    · change (1 : UInt32).toNat + (count + 8) < 2 ^ 32
      simp only [UInt32.toNat_one]
      omega
    · change 0 + (count + 8) < 2 ^ 32
      omega
  stock := ⟨stock.globals, stock.data, stock.globalNumbers, stock.dataNumbers⟩

/-- What lowering puts into an opened function. -/
def fillFunction (program : Program) (lower : StmtId → Lower Unit) (decl : FunctionDecl) :
    Lower Unit := do
  decl.params.zipIdx.forM fun (param, index) => lowerParam program param index
  lower decl.body
  if decl.returnsNothing then returnIfLive none

theorem lowerFunctionDecl_eq {finish : String → Lower Unit} {lower : StmtId → Lower Unit}
    {id : FuncId} {decl : FunctionDecl} (known : program.function? id = some decl)
    {session : Session} {function : Code.Function}
    (found : session.cursor.module.function? decl.name = some function)
    (unbuilt : function.body = .empty) :
    lowerFunctionDecl program finish lower id session =
      (fillFunction program lower decl >>= fun _ => finish decl.name >>= fun _ =>
        Lower.moveCursor fun cursor => cursor.setPosition session.cursor.position)
        (session.put decl.name (Place.mk .empty none).opened) := by
  have looks : Lower.cursor session = .ok (session.cursor, session) := rfl
  have opens := openFunction_eq found unbuilt
  rw [lowerFunctionDecl, known, Lower.orFault_some_bind, Lower.bind_eq looks]
  refine (Lower.bind_eq opens).trans ?_
  cases returns : decl.returnsNothing <;>
    simp only [fillFunction, returns, bind_assoc, pure_bind, Bool.false_eq_true, if_true, if_false]

theorem Stage.returnIfLive {final : Session} {facts : Prop} {names : List String} {name : String}
    {origin place : Place} {first session : Session} {count : Nat}
    (stage : Stage program final facts names [] name origin first count session place)
    (value : Option Code.Operand) :
    Stage program final facts names [] name origin first count
      (session.put name (place.returnIfLive value)) (place.returnIfLive value) :=
  stage.move (stage.fit.regular.returnIfLive value) (stage.fills.room.returnIfLive value)
    (Nat.le_refl count) (Place.within_returnIfLive _ _ _) fun _ member => by cases member

section Filling

variable {allowed : String → Prop} {errors : Error → Prop}
  (ordinary : ∀ error : Error, error.IsOrdinary → errors error)
  {lower : StmtId → Lower Unit} {walk : StmtId → List Node} {depth : Nat}
  (shallow : depth ≤ stmtDepth program)
  (bodies : ∀ id, Keeps program allowed errors (8 * demand program (walk id))
    (namesOf program (walk id)) (lower id) (LowersStmt program depth id))

include ordinary shallow bodies

theorem keeps_fillFunction (decl : FunctionDecl) :
    Keeps program allowed errors (8 * decl.params.length + 8 * demand program (walk decl.body))
      (namesOf program (walk decl.body)) (fillFunction program lower decl)
      fun final place _ after => place = (Place.mk .empty none).opened →
        LowersFunction program final decl after := by
  intro final session name place count fills fresh distinct unopened
  have length : 8 * decl.params.length = 8 * decl.params.zipIdx.length := by simp
  rw [length] at fills
  unfold fillFunction
  refine (Stage.start program final fills).thenCompute (keeps_lowerParams ordinary _)
    (8 * demand program (walk decl.body) + count) (by omega) fun _ _ entered stage => ?_
  refine stage.thenLower (bodies decl.body) count (Nat.le_refl _) fresh distinct unopened
    fun _ _ ended stage => ?_
  have traced : (True ∧ LowersParams program final decl.params.zipIdx place entered) ∧
      LowersStmt program depth decl.body final entered () ended →
      place = (Place.mk .empty none).opened → LowersFunction program final decl
        (if decl.returnsNothing then ended.returnIfLive none else ended) := by
    intro facts opened
    rcases facts with ⟨⟨_, params⟩, below, node, deep, found, body⟩
    rw [opened] at params
    exact .intro (by omega) params found body stage.fit
  cases returns : decl.returnsNothing with
  | true =>
      rw [returns] at traced
      refine .of_bind_pure (.bind_ok (returnIfLive_eq stage.builds none) ?_)
      exact (stage.returnIfLive none).finish traced
  | false =>
      rw [returns] at traced
      exact stage.finish traced

end Filling

theorem Grows.function?_opened {names : List String} {name other : String}
    {origin place after opened : Place} {first session : Session}
    (grows : Grows program names name origin (first.put name opened) session place)
    (different : other ≠ name) (missing : other ∉ names) :
    (session.put name after).cursor.module.function? other =
      first.cursor.module.function? other := by
  rw [Session.function?_put, if_neg different.symm, grows.others other different missing,
    Session.function?_put, if_neg different.symm]

theorem walkFunction_eq {walk : StmtId → List Node} {id : FuncId} {decl : FunctionDecl}
    (known : program.function? id = some decl) : walkFunction program walk id =
      .function id :: (decl.params.map .param ++ walk decl.body) := by
  simp only [walkFunction, known]

theorem namesOf_walkFunction {walk : StmtId → List Node} {id : FuncId} {decl : FunctionDecl}
    (known : program.function? id = some decl) : namesOf program (walkFunction program walk id) =
      decl.name :: namesOf program (walk decl.body) := by
  have params : functionsOf (decl.params.map Node.param) = [] := by
    simp [functionsOf, Node.function?]
  simp [namesOf, walkFunction_eq known, Node.function?, known, params]

/-! ## Finishing -/

/-- Finishing a function prunes it, at every place at which a function of the program that may
be lowered is complete. -/
def Finishing (program : Program) (allowed : String → Prop) (errors : Error → Prop)
    (finish : String → Lower Unit) : Prop :=
  ∀ (session : Session) (id : FuncId) (decl : FunctionDecl) (place : Place),
    program.function? id = some decl → allowed decl.name → session.Builds decl.name place →
    (∀ final, session.Precedes final → LowersFunction program final decl place) →
    (finish decl.name).Ensures session
      (fun _ next => next = session.put decl.name place.pruned) errors

section Functions

variable {allowed : String → Prop} {errors : Error → Prop}
  (ordinary : ∀ error : Error, error.IsOrdinary → errors error)
  {finish : String → Lower Unit} (finishing : Finishing program allowed errors finish)
  {lower : StmtId → Lower Unit} {walk : StmtId → List Node} {depth : Nat}
  (shallow : depth ≤ stmtDepth program)
  (bodies : ∀ id, Keeps program allowed errors (8 * demand program (walk id))
    (namesOf program (walk id)) (lower id) (LowersStmt program depth id))

include ordinary finishing shallow bodies

theorem keeps_lowerFunctionDecl (stmt : StmtId) (id : FuncId) :
    Keeps program allowed errors (8 * demand program (walkFunction program walk id))
      (namesOf program (walkFunction program walk id))
      (lowerFunctionDecl program finish lower id) fun final place _ after =>
        LowersPart program final depth (.stmt stmt (.functionDecl id)) place after := by
  cases known : program.function? id with
  | none =>
      intro final session name place count fills _ _ _
      rw [lowerFunctionDecl, known, Lower.orFault_none_bind]
      exact .of_error rfl (ordinary _ trivial)
  | some decl =>
      rw [namesOf_walkFunction known, walkFunction_eq known]
      intro final session name place count fills fresh distinct unopened
      rw [List.mem_cons, not_or] at fresh
      rw [List.nodup_cons] at distinct
      simp only [demand_function, demand_append, demand_params] at fills
      rcases unopened decl.name (by simp) with ⟨isAllowed, function, found, unbuilt⟩
      have opened : (session.put decl.name (Place.mk .empty none).opened).Fills decl.name
          (Place.mk .empty none).opened
          (8 * decl.params.length + 8 * demand program (walk decl.body) + count) := by
        refine fills_opened found ?_ (fills.stock.mono (by omega))
        have := fills.room.1
        omega
      have openedUnopened : (session.put decl.name (Place.mk .empty none).opened).Unopened allowed
          (namesOf program (walk decl.body)) := by
        intro other member
        have different : decl.name ≠ other := fun same => distinct.1 (same ▸ member)
        rw [Session.function?_put, if_neg different]
        exact unopened other (List.mem_cons_of_mem _ member)
      have filled := Lower.Ensures.all session fun final => keeps_fillFunction ordinary shallow bodies decl
        final _ decl.name _ count opened distinct.1 distinct.2 openedUnopened
      unfold Lower.Ensures
      rw [lowerFunctionDecl_eq known found unbuilt]
      refine filled.bind fun _ ending arrives => ?_
      -- The place at which the function ends does not depend on the final session.
      rcases arrives session with ⟨ended, endedFills, grows, _⟩
      have traced : ∀ final, ending.Precedes final → LowersFunction program final decl ended := by
        intro final precedes
        rcases arrives final with ⟨other, otherFills, _, traces⟩
        rw [endedFills.builds.unique otherFills.builds]
        exact traces precedes rfl
      refine (finishing ending id decl ended known isAllowed endedFills.builds traced).bind ?_
      intro _ finished pruned
      subst pruned
      have unchanged : ∀ other, other ≠ decl.name → other ∉ namesOf program (walk decl.body) →
          (ending.put decl.name ended.pruned).cursor.module.function? other =
            session.cursor.module.function? other :=
        fun other different missing => grows.function?_opened different missing
      have last : ending.Precedes { ending.put decl.name ended.pruned with
          cursor := (ending.put decl.name ended.pruned).cursor.setPosition
            session.cursor.position } :=
        (Session.Precedes.put ending _ _).trans (.move _ _)
      refine .of_ok rfl ⟨place, ?_, ?_, fun _ => .functionDecl⟩
      · rcases fills.builds.body with ⟨own, foundOwn, same⟩
        exact {
          builds := ⟨fills.builds.position, own, (unchanged name fresh.1 fresh.2).trans foundOwn,
            same⟩
          regular := fills.regular
          room := fills.room.mono (by omega)
          stock := ⟨endedFills.stock.globals, endedFills.stock.data,
            endedFills.stock.globalNumbers, endedFills.stock.dataNumbers⟩ }
      · exact {
          within := .refl _ place
          precedes := (Session.Precedes.put session _ _).trans (grows.precedes.trans last)
          others := by
            intro other _ missing
            rw [List.mem_cons, not_or] at missing
            exact unchanged other missing.1 missing.2
          built := by
            intro other member
            rcases List.mem_cons.mp member with rfl | inner
            · rcases endedFills.builds.body with ⟨own, foundOwn, _⟩
              refine ⟨id, decl, ended, { own with body := ended.pruned.body }, known, rfl, ?_, rfl,
                fun final later => traced final (last.trans later)⟩
              exact (Session.function?_put ending _ _ _).trans (by simp [foundOwn])
            · have different : decl.name ≠ other := fun same => distinct.1 (same ▸ inner)
              exact (grows.built other inner).later last
                ((Session.function?_put ending _ _ _).trans (if_neg different)) }

/-! ## Statements -/

theorem keeps_lowerNodeOf (id : StmtId) (stmt : Stmt) :
    Keeps program allowed errors
      (8 * demand program (walkNodeOf program walk stmt) + if isControl stmt then 5 else 0)
      (namesOf program (walkNodeOf program walk stmt))
      (lowerNodeOf program finish lower id stmt)
      fun final place _ after => LowersPart program final depth (.stmt id stmt) place after := by
  cases stmt with
  | expr expr =>
      simp only [walkNodeOf, namesOf_walkExpr, demand_walkExpr]
      refine ((Computes.start fun final session name place count fills => ?_).mono
        (Nat.le_add_right _ _)).keeps
      refine .of_bind_pure ((Stage.start program final fills).thenCompute
        (keeps_lowerEffect ordinary expr) count (Nat.le_refl _) fun _ _ _ stage => ?_)
      refine stage.finish fun facts => ?_
      rcases facts.2 with ⟨value, computes⟩
      exact .expr computes
  | compound stmts => exact (keeps_lowerSequence bodies id stmts).mono (Nat.le_add_right _ _)
  | varDecl vars =>
      have nothing : ∀ var, namesOf program (walkVar program var) = [] := by
        intro var
        unfold walkVar namesOf
        cases program.var? var <;> simp [Node.function?, functionsOf_flatMap]
      have names : namesOf program (walkNodeOf program walk (.varDecl vars)) = [] := by
        simp [walkNodeOf, namesOf_flatMap, nothing]
      rw [names, walkNodeOf, demand_walkVars]
      exact ((keeps_lowerVars ordinary depth id vars).mono (Nat.le_add_right _ _)).keeps
  | functionDecl func =>
      exact (keeps_lowerFunctionDecl ordinary finishing shallow bodies id func).mono
        (Nat.le_add_right _ _)
  | ifThenElse condition thenBody elseBody =>
      have keeps := keeps_lowerIf ordinary bodies id condition thenBody elseBody
      simp only [walkNodeOf, namesOf_append, namesOf_walkExpr, List.nil_append, isControl, if_true]
      exact keeps.mono (by omega)
  | whileLoop condition body =>
      have keeps := keeps_lowerWhile ordinary bodies id condition body
      simp only [walkNodeOf, namesOf_append, namesOf_walkExpr, List.nil_append, isControl, if_true]
      exact keeps.mono (by omega)
  | forLoop initial condition updates body =>
      have keeps := keeps_lowerFor ordinary bodies id initial condition updates body
      simp only [walkNodeOf, namesOf_append, namesOf_walkExprs, List.nil_append,
        List.append_nil]
      exact keeps
  | continueLoop target =>
      simp only [isControl, if_true]
      exact ((keeps_lowerContinue ordinary id target).mono (by omega)).keeps
  | breakLoop target =>
      simp only [isControl, if_true]
      exact ((keeps_lowerBreak ordinary id target).mono (by omega)).keeps
  | returnValue value =>
      simp only [walkNodeOf, namesOf_walkExprs, demand_walkExprs, isControl, if_true]
      exact ((keeps_lowerReturn ordinary id value).mono (by omega)).keeps

omit shallow bodies in
theorem keeps_lowerStmtWithin (depth : Nat) (shallow : depth ≤ stmtDepth program)
    (id : StmtId) :
    Keeps program allowed errors (8 * demand program (walkStmtWithin program depth id))
      (namesOf program (walkStmtWithin program depth id))
      (lowerStmtWithin program finish depth id) (LowersStmt program depth id) := by
  induction depth generalizing id with
  | zero =>
      intro final session name place count fills _ _ _
      exact .of_error rfl (ordinary _ trivial)
  | succ depth induction =>
      have bodies := induction (Nat.le_of_succ_le shallow)
      intro final session name place count fills fresh distinct unopened
      unfold lowerStmtWithin
      refine .orFault_bind (fun _ => ordinary _ trivial) fun stmt found => ?_
      have skips : namesOf program (walkStmtWithin program (depth + 1) id) =
          namesOf program (walkNodeOf program (walkStmtWithin program depth) stmt) := by
        simp [walkStmtWithin, found, namesOf, Node.function?]
      rw [skips] at fresh distinct unopened ⊢
      simp only [walkStmtWithin, found] at fills
      have enough := demand_stmt_le program found
        (walkNodeOf program (walkStmtWithin program depth) stmt)
      refine .of_bind_pure ((Stage.start program final fills).thenLower
        (keeps_lowerNodeOf ordinary finishing (Nat.le_of_succ_le shallow) bodies id stmt) count
        (by omega) fresh distinct unopened fun _ _ _ stage => ?_)
      exact stage.finish fun facts => ⟨depth, stmt, rfl, found, facts.2⟩

end Functions

/-! ## Programs -/

def FinishingEntry (program : Program) (entry : String) (errors : Error → Prop)
    (finish : String → Lower Unit) : Prop :=
  ∀ (session : Session) (place : Place), session.Builds entry place →
    (∀ final, session.Precedes final → LowersEntry program final place) →
    (∀ name ∈ namesOf program (walkProgram program), session.Built program name) →
    (finish entry).Ensures session (fun _ next => next = session.put entry place.pruned) errors

/-- What lowering has made of a program when it is done. -/
structure Complete (program : Program) (entry : String) (start last : Session) : Prop where
  precedes : start.Precedes last
  entered : ∃ place function, last.cursor.module.function? entry = some function ∧
    function.body = place.pruned.body ∧ LowersEntry program last place
  built : ∀ name ∈ namesOf program (walkProgram program), last.Built program name
  others : ∀ name, name ≠ entry → name ∉ namesOf program (walkProgram program) →
    last.cursor.module.function? name = start.cursor.module.function? name

theorem ensures_lowerItems {allowed : String → Prop} {errors : Error → Prop}
    (ordinary : ∀ error : Error, error.IsOrdinary → errors error)
    {finish : String → Lower Unit} (finishing : Finishing program allowed errors finish)
    {entry : String} (finishingEntry : FinishingEntry program entry errors finish)
    {session : Session} {function : Code.Function}
    (found : session.cursor.module.function? entry = some function)
    (unbuilt : function.body = .empty) (few : 8 * demand program (walkProgram program) + 9 < 2 ^ 32)
    (stock : session.Stock (8 * demand program (walkProgram program)))
    (fresh : entry ∉ namesOf program (walkProgram program))
    (distinct : (namesOf program (walkProgram program)).Nodup)
    (unopened : session.Unopened allowed (namesOf program (walkProgram program))) :
    (lowerItems program finish entry).Ensures session
      (fun _ last => Complete program entry session last) errors := by
  have openedUnopened : (session.put entry (Place.mk .empty none).opened).Unopened allowed
      (namesOf program (walkProgram program)) := by
    intro other member
    have different : entry ≠ other := fun same => fresh (same ▸ member)
    rw [Session.function?_put, if_neg different]
    exact unopened other member
  have items : Keeps program allowed errors (8 * demand program (walkProgram program))
      (namesOf program (walkProgram program)) (program.items.forM (lowerStmt program finish))
      fun final place _ after => LowersPart program final (stmtDepth program)
        (.stmt default (.compound program.items)) place after :=
    keeps_lowerSequence (fun id => keeps_lowerStmtWithin ordinary finishing _ (Nat.le_refl _) id)
      default program.items
  have filled := Lower.Ensures.all session fun final =>
    items final _ entry _ 0 (fills_opened found (by omega) stock) fresh distinct openedUnopened
  unfold lowerItems
  refine .bind_ok (openFunction_eq found unbuilt) (filled.bind fun _ ending arrives => ?_)
  rcases arrives session with ⟨ended, endedFills, grows, _⟩
  have traced : ∀ final, ending.Precedes final →
      LowersEntry program final (ended.returnIfLive (some (.ofInt64 0))) := by
    intro final precedes
    rcases arrives final with ⟨other, otherFills, _, traces⟩
    have same := endedFills.builds.unique otherFills.builds
    subst same
    exact .intro (traces precedes) endedFills.fit
  refine .bind_ok (returnIfLive_eq endedFills.builds _) ?_
  let returned := ended.returnIfLive (some (.ofInt64 0))
  have returns : Grows program (namesOf program (walkProgram program)) entry
      (Place.mk .empty none).opened (session.put entry (Place.mk .empty none).opened)
      (ending.put entry returned) returned :=
    grows.put fresh (Place.within_returnIfLive _ _ _)
  refine (finishingEntry _ returned (endedFills.builds.put returned)
    (fun final precedes => traced final ((Session.Precedes.put ending _ _).trans precedes))
    returns.built).mono ?_
  intro _ last pruned
  subst pruned
  have last : (ending.put entry returned).Precedes
      ((ending.put entry returned).put entry returned.pruned) := .put _ _ _
  have unchanged : ∀ other, other ≠ entry →
      ((ending.put entry returned).put entry returned.pruned).cursor.module.function? other =
        (ending.put entry returned).cursor.module.function? other := by
    intro other different
    rw [Session.function?_put, if_neg fun same => different same.symm]
  refine ⟨(Session.Precedes.put session _ _).trans (returns.precedes.trans last), ?_, ?_, ?_⟩
  · rcases (endedFills.builds.put returned).body with ⟨own, foundOwn, _⟩
    refine ⟨returned, { own with body := returned.pruned.body }, ?_, rfl,
      traced _ ((Session.Precedes.put ending _ _).trans last)⟩
    rw [Session.function?_put, if_pos rfl, foundOwn]
    rfl
  · intro name member
    have different : name ≠ entry := fun same => fresh (same ▸ member)
    exact (returns.built name member).later last (unchanged name different)
  · intro name different missing
    rw [unchanged name different, returns.others name different missing, Session.function?_put,
      if_neg fun same => different same.symm]

end ScriptLowering.Lowering
