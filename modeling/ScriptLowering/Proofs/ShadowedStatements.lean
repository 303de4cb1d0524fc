import ScriptLowering.Proofs.Functions
import ScriptLowering.Proofs.ShadowedExpressions

/-! # Statements in shadows

A statement that keeps to its scopes is lowered in the shadow of a session as in the session itself,
whatever its parts are, as long as its parts are.
-/

namespace ScriptLowering.Code

theorem Operand.Pairs.asConstant?_eq {pairing : Pairing} {operand other : Operand}
    (pairs : operand.Pairs pairing other) : other.asConstant? = operand.asConstant? := by
  cases pairs <;> rfl

end ScriptLowering.Code

namespace ScriptLowering.Lowering

open Source (Program ExprId ForInit FuncId FunctionDecl Stmt StmtId VarDecl VarId)
open Code (BlockId Operand Pairing Place)

/-! ## What comes into sight -/

namespace Tandem.Sees

variable {locals more : List VarId} {loops : List StmtId} {tandem : Tandem}

theorem nothing (tandem : Tandem) : tandem.Sees [] [] :=
  ⟨fun _ member => absurd member List.not_mem_nil, fun _ member => absurd member List.not_mem_nil⟩

theorem append (outer : tandem.Sees locals loops) (inner : tandem.Sees more []) :
    tandem.Sees (more ++ locals) loops where
  locals := fun id member => (List.mem_append.mp member).elim (inner.locals id) (outer.locals id)
  loops := outer.loops

theorem inLoop (outer : tandem.Sees locals loops) {id : StmtId} {blocks mirrored : LoopBlocks}
    (known : tandem.session.annotations.loopOf id = .ok blocks)
    (otherKnown : tandem.shadow.annotations.loopOf id = .ok mirrored)
    (pairs : blocks.Pairs tandem.pairing mirrored) : tandem.Sees locals (id :: loops) where
  locals := outer.locals
  loops := by
    intro other member
    rcases List.mem_cons.mp member with rfl | old
    · exact ⟨blocks, mirrored, known, otherKnown, pairs⟩
    · exact outer.loops other old

end Tandem.Sees

variable {program other : Program} {dropped : ExprId → Prop} {locals : List VarId}
  {loops : List StmtId}

/-! ## Variables -/

theorem mirrors_lowerInitial (decl : VarDecl)
    (visible : SeesAll program locals (decl.initial.toList.flatMap (walkExpr program))) :
    Mirrors program other dropped
      (8 * (decl.initial.toList.flatMap (walkExpr program)).length) [] (Tandem.Sees locals loops)
      (lowerInitial program decl) (lowerInitial program decl) SameOption := by
  refine .compute (keeps_lowerInitial (fun _ _ => trivial) decl) fun outset count course sees => ?_
  unfold lowerInitial
  cases initially : decl.initial with
  | none => exact course.finish .none
  | some expr =>
      rw [initially, Option.toList_some, List.flatMap_singleton] at course visible
      refine .of_bind_pure (course.thenCompute (mirrors_lowerValue visible).some count
        (Nat.le_refl _) sees fun value result next course _ values => ?_)
      exact course.finish values

theorem globalInitial_eq {decl : VarDecl} {isLiteral : Bool} {value mirrored : Option Operand}
    {pairing : Pairing} (values : Option.Rel (Operand.Pairs pairing) value mirrored) :
    globalInitial decl isLiteral mirrored = globalInitial decl isLiteral value := by
  cases values with
  | none => rfl
  | some pairs => simp only [globalInitial, Option.bind_some, pairs.asConstant?_eq]

theorem mem_localsOf_singleton {id var : VarId} (member : var ∈ localsOf program [id]) :
    var = id ∧ (program.var? id).map VarDecl.scope = some .local := by
  simp only [localsOf, List.mem_filter, List.mem_singleton, decide_eq_true_eq] at member
  rcases member with ⟨rfl, isLocal⟩
  exact ⟨rfl, isLocal⟩

theorem mirrors_lowerVarDecl {id : VarId} (visible : SeesAll program locals (walkVar program id)) :
    Mirrors program other dropped (8 * (walkVar program id).length) [] (Tandem.Sees locals loops)
      (lowerVarDecl program id) (lowerVarDecl program id)
      fun _ _ ended => ended.Sees (localsOf program [id]) [] := by
  refine .compute (keeps_lowerVarDecl (fun _ _ => trivial) id) fun outset count course sees => ?_
  unfold lowerVarDecl
  refine .orFault_bind fun decl found => ?_
  simp only [walkVar, found, List.length_append, List.length_singleton] at course
  simp only [walkVar, found] at visible
  split
  · exact .fail
  have initial : SeesAll program locals (decl.initial.toList.flatMap (walkExpr program)) :=
    visible.mono (List.subset_append_left _ _)
  refine course.thenCompute (mirrors_lowerInitial decl initial) (count + 2 + 1) (by omega) sees
    fun value mirrored next course _ values => ?_
  cases scope : decl.scope with
  | topLevel =>
      have global (tandem : Tandem) : tandem.Sees (localsOf program [id]) [] := by
        refine ⟨fun var member => ?_, fun _ member => by cases member⟩
        have isLocal := (mem_localsOf_singleton member).2
        rw [found, Option.map_some, scope] at isLocal
        cases isLocal
      refine .consult_bind fun start starts => ⟨start, (globalInitial_eq values).trans starts, ?_⟩
      refine course.thenAddGlobal fun number next course later => ?_
      have fewer := course.mono (Nat.le_succ (count + 1))
      have sets {tandem : Tandem} (course : Course program other dropped outset [] [] count tandem) :
          (Lower.annotate fun annotations => annotations.setStorage id (.global number)).Follows
            (Lower.annotate fun annotations => annotations.setStorage id (.global number)) tandem
            fun value result ended => outset.Comes program dropped ended ∧
              ended.Sees (localsOf program [id]) [] := by
        refine .of_bind_pure (course.thenSetStorage (fun _ _ _ => ⟨number, rfl, rfl⟩)
          fun next course _ _ _ => ?_)
        exact course.finish (global next)
      cases values with
      | none => exact sets (course.mono (by omega))
      | some pairs =>
          simp only
          split
          · exact fewer.thenAdd rfl rfl (.store .global (pairs.mono later.within))
              fun next course _ => sets course
          · exact sets (course.mono (by omega))
  | «local» =>
      have enough := course.mono (Nat.le_refl (count + 1 + 2))
      refine enough.thenDefine (fun _ => rfl) (fun _ => rfl)
        (fun more id counterpart _ paired => .alloca (.temp paired))
        fun slot counterpart next course later paired => ?_
      have sets {tandem : Tandem} (course : Course program other dropped outset [] [] count tandem)
          (later : next.Precedes tandem) :
          (Lower.annotate fun annotations => annotations.setStorage id (.temp slot)).Follows
            (Lower.annotate fun annotations => annotations.setStorage id (.temp counterpart)) tandem
            fun value result ended => outset.Comes program dropped ended ∧
              ended.Sees (localsOf program [id]) [] := by
        refine .of_bind_pure (course.thenSetStorage (fun other isDecl topLevel => ?_)
          fun last course after stored otherStored => ?_)
        · cases isDecl.symm.trans found
          cases scope.symm.trans topLevel
        · refine course.finish ⟨fun var member => ?_, fun _ member => by cases member⟩
          rcases mem_localsOf_singleton member with ⟨rfl, _⟩
          exact ⟨_, _, stored, otherStored,
            .temp ((later.trans after).within.temps _ _ paired)⟩
      cases values with
      | none => exact sets (course.mono (Nat.le_succ count)) (.refl _)
      | some pairs =>
          exact course.thenAdd rfl rfl (.store (.temp paired) (pairs.mono later.within))
            fun next course after => sets course after

theorem mirrors_lowerVars (vars : List VarId)
    (visible : Scoped program (sightsOfVars program locals vars)) :
    Mirrors program other dropped (8 * (vars.flatMap (walkVar program)).length) []
      (Tandem.Sees locals loops) (vars.forM (lowerVarDecl program))
      (vars.forM (lowerVarDecl program)) fun _ _ ended => ended.Sees (localsOf program vars) [] := by
  refine .compute (keeps_lowerVars (fun _ _ => trivial) 0 default vars) ?_
  induction vars generalizing locals with
  | nil => exact fun outset count course _ => course.finish (.nothing outset)
  | cons var vars induction =>
      intro outset count course sees
      rw [sightsOfVars, scoped_append] at visible
      rw [List.flatMap_cons, List.length_append, Nat.mul_add] at course
      rw [Lower.forM_cons]
      have mirrorsRest : Mirrors program other dropped _ [] (Tandem.Sees _ loops) _ _ _ :=
        .compute (keeps_lowerVars (fun _ _ => trivial) 0 default vars) (induction visible.2)
      refine course.thenCompute (mirrors_lowerVarDecl visible.1.seesAll)
        (8 * (vars.flatMap (walkVar program)).length + count) (by omega) sees
        fun _ _ next course _ first => ?_
      refine .of_bind_pure (course.thenCompute mirrorsRest count (Nat.le_refl _)
        ((course.sees sees).append first) fun _ _ last course later rest => ?_)
      rw [localsOf_cons]
      exact course.finish (rest.append (first.later later))

theorem mirrors_lowerParams (params : List (VarId × Nat))
    (isLocal : ∀ param ∈ params, ∀ decl, program.var? param.1 = some decl → decl.scope = .local) :
    Mirrors program other dropped (8 * params.length) [] (fun _ => True)
      (params.forM fun (param, index) => lowerParam program param index)
      (params.forM fun (param, index) => lowerParam program param index)
      fun _ _ ended => ended.Sees (params.map Prod.fst) [] := by
  refine .compute (keeps_lowerParams (fun _ _ => trivial) params) ?_
  induction params with
  | nil => exact fun outset count course _ => course.finish (.nothing outset)
  | cons pair params induction =>
      rcases pair with ⟨id, index⟩
      intro outset count course _
      have mirrorsRest : Mirrors program other dropped _ [] (fun _ => True) _ _ _ :=
        .compute (keeps_lowerParams (fun _ _ => trivial) params)
          (induction fun param member => isLocal param (List.mem_cons_of_mem _ member))
      have start : Course program other dropped outset [] [] (8 * params.length + count + 1 + 2)
          outset := course.mono (by simp only [List.length_cons]; omega)
      rw [Lower.forM_cons]
      simp only [lowerParam, bind_assoc]
      refine .orFault_bind fun decl found => ?_
      refine start.thenDefine (fun _ => rfl) (fun _ => rfl)
        (fun more id counterpart _ paired => .alloca (.temp paired))
        fun slot counterpart next course _ paired => ?_
      refine course.thenAdd rfl rfl (.store (.temp paired) .param) fun next course later => ?_
      refine course.thenSetStorage (fun other isDecl topLevel => ?_)
        fun next course after stored otherStored => ?_
      · cases (isLocal (id, index) List.mem_cons_self other isDecl).symm.trans topLevel
      have seesFirst : next.Sees [id] [] := by
        refine ⟨fun var member => ?_, fun _ member => by cases member⟩
        rcases List.mem_singleton.mp member with rfl
        exact ⟨_, _, stored, otherStored, .temp ((later.trans after).within.temps _ _ paired)⟩
      refine .of_bind_pure (course.thenCompute mirrorsRest count (Nat.le_refl _) trivial
        fun _ _ last course later rest => ?_)
      exact course.finish (rest.append (seesFirst.later later))

/-! ## One part after another -/

theorem Keeps.andThen {α β : Type} {program : Program} {allowed : String → Prop}
    {errors : Error → Prop} {cost more : Nat} {names others : List String} {step : Lower α}
    {rest : Lower β} {traces : Session → Place → α → Place → Prop}
    {restTraces : Session → Place → β → Place → Prop}
    (first : Keeps program allowed errors cost names step traces)
    (second : Keeps program allowed errors more others rest restTraces) :
    Keeps program allowed errors (cost + more) (names ++ others) (step >>= fun _ => rest)
      fun _ _ _ _ => True := by
  intro final session name place count fills fresh distinct unopened
  rw [List.mem_append, not_or] at fresh
  refine (Stage.start program final fills).thenLower first (more + count) (by omega) fresh.1
    (List.nodup_append.mp distinct).1
    (fun other member => unopened other (List.mem_append_left _ member)) fun _ _ _ stage => ?_
  refine .of_bind_pure (stage.thenLower second count (Nat.le_refl _) fresh.2 distinct
    (fun other member => unopened other (List.mem_append_right _ member)) fun _ _ _ stage => ?_)
  exact stage.finish fun _ => trivial

namespace Mirrors

variable {α β γ δ : Type} {cost more : Nat} {names others : List String} {starts ready : Tandem → Prop}
  {step : Lower α} {answer : Lower β} {rest : Lower γ} {otherRest : Lower δ}
  {post : α → β → Tandem → Prop} {last : γ → δ → Tandem → Prop}

theorem nothing : Mirrors program other dropped 0 [] starts (pure () : Lower Unit)
    (pure () : Lower Unit) fun _ _ _ => True := by
  have computes : Computes program (fun _ => True) 0 (pure () : Lower Unit) fun _ _ _ _ => True :=
    .start fun final session name place count fills =>
      ((Stage.start program final fills).mono (by omega)).finish fun _ => trivial
  exact .compute computes fun outset count course _ => course.finish trivial

theorem andThen (first : Mirrors program other dropped cost names starts step answer post)
    (second : Mirrors program other dropped more others ready rest otherRest last)
    (leads : ∀ outset value result ended, starts outset → outset.Precedes ended →
      post value result ended → ready ended) :
    Mirrors program other dropped (cost + more) (names ++ others) starts (step >>= fun _ => rest)
      (answer >>= fun _ => otherRest) last where
  keeps := by
    rcases first.keeps with ⟨_, keeps⟩
    rcases second.keeps with ⟨_, keepsRest⟩
    exact ⟨_, keeps.andThen keepsRest⟩
  otherKeeps := by
    rcases first.otherKeeps with ⟨_, keeps⟩
    rcases second.otherKeeps with ⟨_, keepsRest⟩
    exact ⟨_, keeps.andThen keepsRest⟩
  answers := by
    intro outset count course fresh distinct unopened otherUnopened ready
    rw [List.mem_append, not_or] at fresh
    have early : names ⊆ names ++ others := List.subset_append_left _ _
    have late : others ⊆ names ++ others := List.subset_append_right _ _
    refine course.thenPart first (more + count) (by omega) fresh.1 (List.nodup_append.mp distinct).1
      (fun name member => unopened name (early member))
      (fun name member => otherUnopened name (early member)) ready
      fun value result next course _ holds => ?_
    refine .of_bind_pure (course.thenPart second count (Nat.le_refl _) (course.name ▸ fresh.2) distinct
      (fun name member => unopened name (late member))
      (fun name member => otherUnopened name (late member))
      (leads outset value result next ready course.later holds)
      fun value result next course _ holds => ?_)
    exact course.finish holds

end Mirrors

theorem Answers.mono {α β : Type} {cost more : Nat} {names : List String}
    {starts ready : Tandem → Prop} {step : Lower α} {answer : Lower β}
    {post weaker : α → β → Tandem → Prop}
    (answers : Answers program other dropped cost names starts step answer post) (less : cost ≤ more)
    (begins : ∀ tandem, ready tandem → starts tandem)
    (weakens : ∀ value result ended, post value result ended → weaker value result ended) :
    Answers program other dropped more names ready step answer weaker :=
  fun outset count course fresh distinct unopened otherUnopened isReady =>
    (answers outset count (course.mono (by omega)) fresh distinct unopened otherUnopened
      (begins outset isReady)).mono fun value result ended holds =>
        ⟨holds.1, weakens value result ended holds.2⟩

/-! ## Structured statements -/

section Structured

variable {walk : StmtId → List Node} {lower answer : StmtId → Lower Unit}

/-- The statement is lowered in the shadow as in the session, and what it declares can be seen
behind it. -/
def MirrorsStmt (program other : Program) (dropped : ExprId → Prop) (locals : List VarId)
    (loops : List StmtId) (walk : StmtId → List Node) (lower answer : StmtId → Lower Unit)
    (id : StmtId) : Prop :=
  Mirrors program other dropped (8 * demand program (walk id)) (namesOf program (walk id))
    (Tandem.Sees locals loops) (lower id) (answer id)
    fun _ _ ended => ended.Sees (localsBehind program id) []

theorem mirrors_lowerSequence {see : List VarId → StmtId → List (List VarId × Node)}
    {stmts : List StmtId}
    (each : ∀ id ∈ stmts, ∀ locals, Scoped program (see locals id) →
      MirrorsStmt program other dropped locals loops walk lower answer id)
    (inScope : Scoped program (sightsInTurn program see locals stmts)) :
    Mirrors program other dropped (8 * demand program (stmts.flatMap walk))
      (namesOf program (stmts.flatMap walk)) (Tandem.Sees locals loops) (stmts.forM lower)
      (stmts.forM answer) fun _ _ _ => True := by
  induction stmts generalizing locals with
  | nil => exact .nothing
  | cons head tail induction =>
      rw [sightsInTurn, scoped_append] at inScope
      rw [Lower.forM_cons, Lower.forM_cons, List.flatMap_cons, demand_append, Nat.mul_add,
        namesOf_append]
      exact (each head List.mem_cons_self locals inScope.1).andThen
        (induction (fun id member => each id (List.mem_cons_of_mem _ member)) inScope.2)
        fun _ _ _ _ sees later holds => (sees.later later).append holds

theorem answers_lowerIf (condition : ExprId) (thenBody : StmtId) (elseBody : Option StmtId)
    (tests : SeesAll program locals (walkExpr program condition))
    (thenPart : MirrorsStmt program other dropped locals loops walk lower answer thenBody)
    (elsePart : ∀ id ∈ elseBody,
      MirrorsStmt program other dropped locals loops walk lower answer id) :
    Answers program other dropped (8 * demand program (walkExpr program condition ++
        (walk thenBody ++ elseBody.toList.flatMap walk)) + 4)
      (namesOf program (walk thenBody) ++ namesOf program (elseBody.toList.flatMap walk))
      (Tandem.Sees locals loops) (lowerIf program lower condition thenBody elseBody)
      (lowerIf program answer condition thenBody elseBody) fun _ _ _ => True := by
  intro outset count course fresh distinct unopened otherUnopened sees
  rw [List.mem_append, not_or] at fresh
  have thenDistinct := (List.nodup_append.mp distinct).1
  have early {name : String} (member : name ∈ namesOf program (walk thenBody)) :
      name ∈ namesOf program (walk thenBody) ++ namesOf program (elseBody.toList.flatMap walk) :=
    List.mem_append_left _ member
  simp only [demand_append, demand_walkExpr] at course
  unfold lowerIf
  refine course.thenCompute (mirrors_lowerValue tests)
    (8 * demand program (walk thenBody) + 8 * demand program (elseBody.toList.flatMap walk) +
      count + 4) (by omega) sees fun value mirrored next course _ values => ?_
  refine course.thenCreate fun thenBlock otherThen next course afterThen => ?_
  refine course.thenCreate fun endBlock otherEnd next course afterEnd => ?_
  have values := (values.mono afterThen.within).mono afterEnd.within
  have pairedThen := course.second.paired _ List.mem_cons_self
  have pairedEnd := course.paired _ List.mem_cons_self
  cases elseBody with
  | none =>
      refine course.thenTerminate rfl (.branch values pairedThen pairedEnd)
        fun next course _ => ?_
      refine course.second.thenEnter fun next course _ => ?_
      refine course.thenPart thenPart count (by omega) (course.name ▸ fresh.1) thenDistinct
        (fun name member => unopened name (early member))
        (fun name member => otherUnopened name (early member)) (course.sees sees)
        fun _ _ next course _ _ => ?_
      refine course.thenLeaveTo (course.paired _ List.mem_cons_self) fun next course _ => ?_
      exact .of_bind_pure (course.thenEnter fun next course _ => course.finish trivial)
  | some elseBody =>
      simp only [Option.toList_some, List.flatMap_cons, List.flatMap_nil, List.append_nil]
        at fresh distinct unopened otherUnopened course
      refine course.thenCreate fun elseBlock otherElse next course afterElse => ?_
      have pairedThen := afterElse.within.blocks _ _ pairedThen
      have pairedElse := course.paired _ List.mem_cons_self
      refine course.thenTerminate rfl (.branch (values.mono afterElse.within) pairedThen pairedElse)
        fun next course _ => ?_
      refine course.third.thenEnter fun next course _ => ?_
      refine course.thenPart thenPart (8 * demand program (walk elseBody) + count) (by omega)
        (course.name ▸ fresh.1) thenDistinct
        (fun name member => unopened name (List.mem_append_left _ member))
        (fun name member => otherUnopened name (List.mem_append_left _ member)) (course.sees sees)
        fun _ _ next course _ _ => ?_
      refine course.thenLeaveTo (course.second.paired _ List.mem_cons_self) fun next course _ => ?_
      refine course.thenEnter fun next course _ => ?_
      refine course.thenPart (elsePart elseBody rfl) count (by omega) (course.name ▸ fresh.2) distinct
        (fun name member => unopened name (List.mem_append_right _ member))
        (fun name member => otherUnopened name (List.mem_append_right _ member)) (course.sees sees)
        fun _ _ next course _ _ => ?_
      refine course.thenLeaveTo (course.paired _ List.mem_cons_self) fun next course _ => ?_
      exact .of_bind_pure (course.thenEnter fun next course _ => course.finish trivial)

theorem answers_lowerWhile (id : StmtId) (condition : ExprId) (body : StmtId)
    (tests : SeesAll program locals (walkExpr program condition))
    (loop : MirrorsStmt program other dropped locals (id :: loops) walk lower answer body) :
    Answers program other dropped (8 * demand program (walkExpr program condition ++ walk body) + 4)
      (namesOf program (walk body)) (Tandem.Sees locals loops)
      (lowerWhile program lower id condition body) (lowerWhile program answer id condition body)
      fun _ _ _ => True := by
  intro outset count course fresh distinct unopened otherUnopened sees
  simp only [demand_append, demand_walkExpr] at course
  have start : Course program other dropped outset [] [] (8 * (walkExpr program condition).length +
      (8 * demand program (walk body) + count + 1) + 3) outset := course.mono (by omega)
  unfold lowerWhile
  refine start.thenCreate fun condBlock otherCond next course afterCond => ?_
  refine course.thenCreate fun bodyBlock otherBody next course afterBody => ?_
  refine course.thenCreate fun endBlock otherEnd next course afterEnd => ?_
  refine course.thenSetLoop fun next course later known otherKnown => ?_
  have pairedCond := course.third.paired _ List.mem_cons_self
  have sees : next.Sees locals (id :: loops) :=
    (course.sees sees).inLoop known otherKnown
      ⟨pairedCond, .none, course.paired _ List.mem_cons_self⟩
  refine course.third.thenEnter fun next course afterEnter => ?_
  have sees := sees.later afterEnter
  refine course.thenCompute (mirrors_lowerValue tests) _ (Nat.le_refl _) sees
    fun value mirrored next course afterTest values => ?_
  have sees := sees.later afterTest
  refine course.thenTerminate rfl (.branch values (course.second.paired _ List.mem_cons_self)
    (course.paired _ List.mem_cons_self)) fun next course afterBranch => ?_
  have sees := sees.later afterBranch
  refine course.second.thenEnter fun next course entered => ?_
  refine course.thenPart loop count (Nat.le_refl _) (course.name ▸ fresh) distinct unopened
    otherUnopened (sees.later entered) fun _ _ next course afterLoop _ => ?_
  have backward := (((afterEnter.trans afterTest).trans afterBranch).trans entered).trans afterLoop
  refine course.thenLeaveTo (backward.within.blocks _ _ pairedCond) fun next course _ => ?_
  exact .of_bind_pure (course.thenEnter fun next course _ => course.finish trivial)

theorem mirrors_lowerForInit {see : List VarId → StmtId → List (List VarId × Node)}
    (initial : ForInit) (inScope : Scoped program (sightsOfInit program see locals initial))
    (starts : ∀ id, initial = .decl id → Scoped program (see locals id) →
      MirrorsStmt program other dropped locals loops walk lower answer id) :
    Mirrors program other dropped (8 * demand program (walkForInit program walk initial))
      (namesOf program (walkForInit program walk initial)) (Tandem.Sees locals loops)
      (lowerForInit program lower initial) (lowerForInit program answer initial)
      fun _ _ ended => ended.Sees (initialDeclares program initial) [] := by
  cases initial with
  | decl stmt => exact starts stmt rfl inScope
  | exprs exprs =>
      have names : namesOf program (walkForInit program walk (.exprs exprs)) = [] := by
        simp [walkForInit]
      rw [names, walkForInit, demand_walkExprs]
      refine .compute (keeps_lowerExprs (fun _ _ => trivial) exprs) fun outset count course sees => ?_
      refine .of_bind_pure (course.thenCompute (mirrors_lowerExprs exprs inScope.seesAll) count
        (Nat.le_refl _) sees fun _ _ next course _ _ => ?_)
      exact course.finish (.nothing next)

/-! ### The blocks of a `for` loop -/

def updateWaits : Option BlockId → Option BlockId → List (BlockId × BlockId × String)
  | some id, some mirrored => [(id, mirrored, "for.update")]
  | _, _ => []

section ForLoop

variable {α β : Type} {outset tandem : Tandem} {names : List String}
  {waits : List (BlockId × BlockId × String)} {count : Nat} {last : α → β → Tandem → Prop}

theorem Course.thenCreateUpdates {updates : List ExprId} {rest : Option BlockId → Lower α}
    {otherRest : Option BlockId → Lower β}
    (course : Course program other dropped outset names waits (count + 1) tandem)
    (continues : ∀ block mirrored next,
      Course program other dropped outset names (updateWaits block mirrored ++ waits) count next →
      tandem.Precedes next → Option.Rel next.pairing.blocks block mirrored →
      (rest block).Follows (otherRest mirrored) next last) :
    (createUpdateBlock updates >>= rest).Follows (createUpdateBlock updates >>= otherRest) tandem
      last := by
  unfold createUpdateBlock
  split
  · exact continues none none tandem (course.mono (Nat.le_succ count)) (.refl _) .none
  · simp only [map_eq_pure_bind, bind_assoc, pure_bind]
    exact course.thenCreate fun id mirrored next course later =>
      continues (some id) (some mirrored) next course later
        (.some (course.paired _ List.mem_cons_self))

theorem Course.thenCondition {endBlock otherEnd : BlockId} {condition : Option ExprId}
    {rest : Unit → Lower α} {otherRest : Unit → Lower β}
    (course : Course program other dropped outset names waits
      (8 * (condition.toList.flatMap (walkExpr program)).length + 2 + count) tandem)
    (tests : SeesAll program locals (condition.toList.flatMap (walkExpr program)))
    (sees : tandem.Sees locals loops) (paired : tandem.pairing.blocks endBlock otherEnd)
    (continues : ∀ next, Course program other dropped outset names waits count next →
      tandem.Precedes next → (rest ()).Follows (otherRest ()) next last) :
    (lowerForCondition program endBlock condition >>= rest).Follows
      (lowerForCondition program otherEnd condition >>= otherRest) tandem last := by
  cases condition with
  | none => exact continues tandem (course.mono (by omega)) (.refl _)
  | some condition =>
      simp only [Option.toList_some, List.flatMap_cons, List.flatMap_nil, List.append_nil] at course tests
      have start : Course program other dropped outset names waits
          (8 * (walkExpr program condition).length + (count + 1) + 1) tandem := course.mono (by omega)
      unfold lowerForCondition
      simp only [bind_assoc]
      refine start.thenCreate fun bodyBlock otherBody next course created => ?_
      refine course.thenCompute (mirrors_lowerValue tests) _ (Nat.le_refl _) (sees.later created)
        fun value mirrored next course tested values => ?_
      refine course.thenTerminate rfl (.branch values (course.paired _ List.mem_cons_self)
        ((created.trans tested).within.blocks _ _ paired)) fun next course left => ?_
      exact course.thenEnter fun next course entered =>
        continues next course (((created.trans tested).trans left).trans entered)

theorem Course.thenUpdates {updates : List ExprId} {block mirrored : Option BlockId}
    {rest : Unit → Lower α} {otherRest : Unit → Lower β}
    (course : Course program other dropped outset names (updateWaits block mirrored ++ waits)
      (8 * (updates.flatMap (walkExpr program)).length + count) tandem)
    (renews : SeesAll program locals (updates.flatMap (walkExpr program)))
    (sees : tandem.Sees locals loops) (blocks : Option.Rel tandem.pairing.blocks block mirrored)
    (continues : ∀ next, Course program other dropped outset names waits count next →
      tandem.Precedes next → (rest ()).Follows (otherRest ()) next last) :
    (lowerForUpdates program updates block >>= rest).Follows
      (lowerForUpdates program updates mirrored >>= otherRest) tandem last := by
  cases blocks with
  | none => exact continues tandem (course.mono (by omega)) (.refl _)
  | some paired =>
      unfold lowerForUpdates
      simp only [bind_assoc]
      refine Course.thenEnter course fun next course entered => ?_
      exact course.thenCompute (mirrors_lowerExprs updates renews) count (Nat.le_refl _)
        (sees.later entered) fun _ _ next course later _ =>
          continues next course (entered.trans later)

end ForLoop

theorem answers_lowerFor {see : List VarId → StmtId → List (List VarId × Node)} (id : StmtId)
    (initial : ForInit) (condition : Option ExprId) (updates : List ExprId) (body : StmtId)
    (inInit : Scoped program (sightsOfInit program see locals initial))
    (starts : ∀ id, initial = .decl id → Scoped program (see locals id) →
      MirrorsStmt program other dropped locals loops walk lower answer id)
    (tests : SeesAll program (initialDeclares program initial ++ locals)
      (condition.toList.flatMap (walkExpr program)))
    (loop : MirrorsStmt program other dropped (initialDeclares program initial ++ locals)
      (id :: loops) walk lower answer body)
    (renews : SeesAll program (initialDeclares program initial ++ locals)
      (updates.flatMap (walkExpr program))) :
    Answers program other dropped (8 * demand program (walkForInit program walk initial ++
        (condition.toList.flatMap (walkExpr program) ++
          (walk body ++ updates.flatMap (walkExpr program)))) + 5)
      (namesOf program (walkForInit program walk initial) ++ namesOf program (walk body))
      (Tandem.Sees locals loops) (lowerFor program lower id initial condition updates body)
      (lowerFor program answer id initial condition updates body) fun _ _ _ => True := by
  intro outset count course fresh distinct unopened otherUnopened sees
  rw [List.mem_append, not_or] at fresh
  simp only [demand_append, demand_walkExprs] at course
  unfold lowerFor
  refine course.thenPart (mirrors_lowerForInit initial inInit starts)
    (8 * (condition.toList.flatMap (walkExpr program)).length + 2 +
      (8 * demand program (walk body) + (8 * (updates.flatMap (walkExpr program)).length + count)) + 3)
    (by omega) fresh.1 (List.nodup_append.mp distinct).1
    (fun name member => unopened name (List.mem_append_left _ member))
    (fun name member => otherUnopened name (List.mem_append_left _ member)) sees
    fun _ _ started course _ declared => ?_
  have sees := (course.sees sees).append declared
  refine course.thenCreate fun condBlock otherCond next course created => ?_
  have sees := sees.later created
  refine course.thenCreate fun endBlock otherEnd next course created => ?_
  have sees := sees.later created
  have pairedCond := course.second.paired _ List.mem_cons_self
  refine course.second.thenEnter fun next course entered => ?_
  have sees := sees.later entered
  have pairedCond := entered.within.blocks _ _ pairedCond
  refine course.thenCreateUpdates fun update otherUpdate next course created pairedUpdate => ?_
  have sees := sees.later created
  have pairedCond := created.within.blocks _ _ pairedCond
  have pairedEnd : next.pairing.blocks endBlock otherEnd :=
    course.paired (endBlock, otherEnd, _) (List.mem_append_right _ List.mem_cons_self)
  refine course.thenSetLoop fun next course noted known otherKnown => ?_
  have blocks : LoopBlocks.Pairs next.pairing ⟨condBlock, update, endBlock⟩
      ⟨otherCond, otherUpdate, otherEnd⟩ :=
    LoopBlocks.Pairs.mono ⟨pairedCond, pairedUpdate, pairedEnd⟩ noted.within
  have sees := (sees.later noted).inLoop known otherKnown blocks
  refine course.thenCondition tests sees blocks.exit fun next course tested => ?_
  have sees := sees.later tested
  refine course.thenPart loop _ (Nat.le_refl _) (course.name ▸ fresh.2) distinct
    (fun name member => unopened name (List.mem_append_right _ member))
    (fun name member => otherUnopened name (List.mem_append_right _ member)) sees
    fun _ _ next course looped _ => ?_
  have blocks := (blocks.mono tested.within).mono looped.within
  refine course.thenUpdates renews (sees.later looped) blocks.update fun next course updated => ?_
  refine course.thenLeaveTo (updated.within.blocks _ _ blocks.condition) fun next course _ => ?_
  exact .of_bind_pure (course.thenEnter fun next course _ => course.finish trivial)

/-! ### Jumps -/

theorem answers_lowerBreak {target : StmtId} (encloses : target ∈ loops) :
    Answers program other dropped 1 [] (Tandem.Sees locals loops) (lowerBreak target)
      (lowerBreak target) fun _ _ _ => True := by
  intro outset count course _ _ _ _ sees
  rcases sees.loops target encloses with ⟨blocks, mirrored, known, otherKnown, pairs⟩
  refine .consult_bind fun found isFound => ⟨mirrored, otherKnown, ?_⟩
  cases known.symm.trans isFound
  have start : Course program other dropped outset [] [] (count + 1) outset :=
    course.mono (by omega)
  refine .of_bind_pure (start.thenTerminate rfl (.jump pairs.exit) fun next course _ => ?_)
  exact course.finish trivial

theorem answers_lowerContinue {target : StmtId} (encloses : target ∈ loops) :
    Answers program other dropped 1 [] (Tandem.Sees locals loops) (lowerContinue target)
      (lowerContinue target) fun _ _ _ => True := by
  intro outset count course _ _ _ _ sees
  rcases sees.loops target encloses with ⟨blocks, mirrored, known, otherKnown, pairs⟩
  refine .consult_bind fun found isFound => ⟨mirrored, otherKnown, ?_⟩
  cases known.symm.trans isFound
  have start : Course program other dropped outset [] [] (count + 1) outset :=
    course.mono (by omega)
  refine .of_bind_pure (start.thenTerminate rfl (.jump pairs.continueTarget)
    fun next course _ => ?_)
  exact course.finish trivial

theorem answers_lowerReturn (value : Option ExprId)
    (visible : SeesAll program locals (value.toList.flatMap (walkExpr program))) :
    Answers program other dropped (8 * (value.toList.flatMap (walkExpr program)).length + 1) []
      (Tandem.Sees locals loops) (lowerReturn program value) (lowerReturn program value)
      fun _ _ _ => True := by
  intro outset count course _ _ _ _ sees
  cases value with
  | none =>
      have start : Course program other dropped outset [] [] (count + 1) outset :=
        course.mono (by omega)
      refine .of_bind_pure (start.thenTerminate rfl (.ret .none) fun next course _ => ?_)
      exact course.finish trivial
  | some expr =>
      simp only [Option.toList_some, List.flatMap_cons, List.flatMap_nil, List.append_nil]
        at course visible
      refine course.thenCompute (mirrors_lowerValue visible) (count + 1) (by omega) sees
        fun result mirrored next course _ values => ?_
      refine .of_bind_pure (course.thenTerminate rfl (.ret (.some values)) fun next course _ => ?_)
      exact course.finish trivial

end Structured

end ScriptLowering.Lowering
