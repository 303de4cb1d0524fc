import ScriptLowering.Proofs.ExchangedItems
import ScriptLowering.Proofs.VariableNames

/-! # The order of items

Where a function stands among the items of a program does not matter. The function and its neighbour may
change places if neither refers to what the other declares: one order is lowered if the other one is, and
what comes out is the same but for the numbers of data.
-/

namespace ScriptLowering.Source

/-- The same nodes with other items at the top level. -/
def Program.withItems (program : Program) (items : List StmtId) : Program :=
  { program with items := items }

end ScriptLowering.Source

namespace ScriptLowering.Lowering

open Source (Program ExprId FuncId FunctionDecl Stmt StmtId VarDecl VarId)
open Code (DataId Operand Place)

variable {program : Program}

/-! ## Other items -/

section OtherItems

variable (items : List StmtId)

theorem sameButStmts_withItems : SameButStmts program (program.withItems items) := ⟨rfl, rfl, rfl⟩

theorem lowerStmt_withItems (finish : String → Lower Unit) :
    lowerStmt (program.withItems items) finish = lowerStmt program finish := by
  have within (depth : Nat) : lowerStmtWithin (program.withItems items) finish depth =
      lowerStmtWithin program finish depth := by
    induction depth with
    | zero => rfl
    | succ depth induction =>
        funext id
        unfold lowerStmtWithin
        rw [induction]
        exact bind_congr fun stmt => (sameButStmts_withItems items).lowerNodeOf_eq _ _ _ _
  funext id
  exact congrFun (within _) id

theorem walkStmt_withItems : walkStmt (program.withItems items) = walkStmt program := by
  have within (depth : Nat) :
      walkStmtWithin (program.withItems items) depth = walkStmtWithin program depth := by
    induction depth with
    | zero => rfl
    | succ depth induction =>
        funext id
        unfold walkStmtWithin
        rw [induction]
        have same : (program.withItems items).stmt? id = program.stmt? id := rfl
        rw [same]
        cases program.stmt? id with
        | none => rfl
        | some stmt => exact congrArg _ ((sameButStmts_withItems items).walkNodeOf_eq _ stmt)
  funext id
  exact congrFun (within _) id

theorem occurrencesWithin_withItems (depth : Nat) :
    occurrencesWithin (program.withItems items) depth = occurrencesWithin program depth := by
  have others : SameButStmts program (program.withItems items) := sameButStmts_withItems items
  have exprs := others.walkExpr_eq
  have vars := others.walkVar_eq
  induction depth with
  | zero => rfl
  | succ depth induction =>
      funext setting id
      unfold occurrencesWithin
      rw [induction]
      have same : (program.withItems items).stmt? id = program.stmt? id := rfl
      rw [same]
      cases program.stmt? id with
      | none => rfl
      | some stmt =>
          refine congrArg _ ?_
          cases stmt with
          | functionDecl func => rfl
          | forLoop initial => cases initial <;> simp only [occurrencesOf, occurrencesOfInit, exprs]
          | _ => simp only [occurrencesOf, exprs, vars]

end OtherItems

/-! ## Where nodes occur -/

/-- The variable that a node declares. -/
def Node.declares? : Node → Option VarId
  | .var id | .param id => some id
  | .stmt _ | .expr _ | .function _ => none

/-- A variable of the scope is declared among the nodes. -/
def Declares (program : Program) (nodes : List Node) (scope : Source.Scope) (id : VarId) : Prop :=
  ∃ node ∈ nodes, node.declares? = some id ∧ ∃ decl, program.var? id = some decl ∧ decl.scope = scope

/-- Local variables are used in no other function than the one that they are declared in. -/
def OwnLocals (program : Program) (occurring : List (Setting × Node)) : Prop :=
  ∀ setting node id decl declaring place, (setting, node) ∈ occurring →
    node.uses? program = some id → program.var? id = some decl → decl.scope = .local →
    (declaring, place) ∈ occurring → place.declares? = some id →
      declaring.function = setting.function

theorem ownLocals_iff {occurring : List (Setting × Node)} : OwnLocals program occurring ↔
    ∀ user ∈ occurring, ∀ id ∈ user.2.uses? program, ∀ decl ∈ program.var? id, decl.scope = .local →
      ∀ declaring ∈ occurring, declaring.2.declares? = some id →
        declaring.1.function = user.1.function :=
  ⟨fun own user occurs id uses decl found isLocal declaring isThere declares =>
      own user.1 user.2 id decl declaring.1 declaring.2 occurs uses found isLocal isThere declares,
    fun all setting node id decl declaring place occurs uses found isLocal isThere declares =>
      all (setting, node) occurs id uses decl found isLocal (declaring, place) isThere declares⟩

instance (occurring : List (Setting × Node)) : Decidable (OwnLocals program occurring) :=
  decidable_of_iff _ ownLocals_iff.symm

theorem function_of_parts {setting part : Setting} {id child : StmtId} {stmt : Stmt}
    (isPart : (part, child) ∈ parts program setting id stmt) :
    part.function = setting.function ∨ ∃ func, declaredBy? stmt = some func ∧ part.function = some func := by
  cases stmt with
  | compound stmts =>
      simp only [parts, List.mem_map, Prod.mk.injEq] at isPart
      rcases isPart with ⟨_, _, rfl, _⟩
      exact .inl rfl
  | functionDecl func =>
      simp only [parts, List.mem_map, Prod.mk.injEq] at isPart
      rcases isPart with ⟨_, _, rfl, _⟩
      exact .inr ⟨func, rfl, rfl⟩
  | ifThenElse condition thenBody elseBody =>
      simp only [parts, List.mem_cons, List.mem_map, Prod.mk.injEq] at isPart
      rcases isPart with ⟨rfl, _⟩ | ⟨_, _, rfl, _⟩ <;> exact .inl rfl
  | whileLoop condition body =>
      simp only [parts, List.mem_singleton, Prod.mk.injEq] at isPart
      rcases isPart with ⟨rfl, _⟩
      exact .inl rfl
  | forLoop initial condition updates body =>
      cases initial <;>
        simp only [parts, List.mem_cons, List.not_mem_nil, or_false, Prod.mk.injEq] at isPart
      · rcases isPart with ⟨rfl, _⟩ | ⟨rfl, _⟩ <;> exact .inl rfl
      · rcases isPart with ⟨rfl, _⟩
        exact .inl rfl
  | expr | varDecl | continueLoop | breakLoop | returnValue => cases isPart

/-- What occurs in a statement is in the same function, or in the one that the statement declares, or it
occurs in a part of the statement. -/
theorem occurs_in_parts {walk : Setting → StmtId → List (Setting × Node)} {setting inner : Setting}
    {id : StmtId} {stmt : Stmt} {node : Node}
    (occurs : (inner, node) ∈ occurrencesOf program walk setting id stmt) :
    inner.function = setting.function ∨
      (∃ func, declaredBy? stmt = some func ∧ inner.function = some func) ∨
      ∃ part child, (part, child) ∈ parts program setting id stmt ∧ (inner, node) ∈ walk part child := by
  have here {other : Setting} {nodes : List Node} (member : (inner, node) ∈ other.occurrences nodes) :
      inner = other := by
    rcases List.mem_map.mp member with ⟨_, _, same⟩
    exact (Prod.mk.inj same).1.symm
  cases stmt with
  | expr expr => exact .inl (congrArg _ (here occurs))
  | compound stmts =>
      rcases List.mem_flatMap.mp occurs with ⟨child, isChild, inChild⟩
      exact .inr (.inr ⟨setting, child, List.mem_map_of_mem isChild, inChild⟩)
  | varDecl vars => exact .inl (congrArg _ (here occurs))
  | functionDecl func =>
      rcases List.mem_cons.mp occurs with same | inside
      · exact .inl (congrArg _ (Prod.mk.inj same).1)
      · cases found : program.function? func with
        | none => simp [occurrencesOfFunction, found] at inside
        | some decl =>
            simp only [occurrencesOfFunction, found, List.mem_append] at inside
            rcases inside with isParam | inBody
            · exact .inr (.inl ⟨func, rfl, congrArg _ (here isParam)⟩)
            · exact .inr (.inr ⟨.inFunction func, decl.body, by simp [parts, found], inBody⟩)
  | ifThenElse condition thenBody elseBody =>
      simp only [occurrencesOf, List.mem_append, List.mem_flatMap] at occurs
      rcases occurs with isTest | inThen | ⟨child, isChild, inChild⟩
      · exact .inl (congrArg _ (here isTest))
      · exact .inr (.inr ⟨setting, thenBody, List.mem_cons_self, inThen⟩)
      · exact .inr (.inr
          ⟨setting, child, List.mem_cons_of_mem _ (List.mem_map_of_mem isChild), inChild⟩)
  | whileLoop condition body =>
      simp only [occurrencesOf, List.mem_append] at occurs
      rcases occurs with isTest | inBody
      · cases here isTest
        exact .inl rfl
      · exact .inr (.inr ⟨setting.inLoop id, body, List.mem_cons_self, inBody⟩)
  | forLoop initial condition updates body =>
      simp only [occurrencesOf, List.mem_append] at occurs
      rcases occurs with inInit | isTest | inBody | isUpdate
      · cases initial with
        | decl stmt => exact .inr (.inr ⟨setting, stmt, List.mem_cons_self, inInit⟩)
        | exprs ids => exact .inl (congrArg _ (here inInit))
      · cases here isTest
        exact .inl rfl
      · refine .inr (.inr ⟨setting.inLoop id, body, ?_, inBody⟩)
        cases initial <;> simp [parts]
      · cases here isUpdate
        exact .inl rfl
  | continueLoop | breakLoop => cases occurs
  | returnValue value => exact .inl (congrArg _ (here occurs))

/-- The function of a node is the one around the statement, or it is declared in the statement. -/
theorem function_of_occurs {depth : Nat} {setting inner : Setting} {id : StmtId} {node : Node}
    (occurs : (inner, node) ∈ occurrencesWithin program depth setting id) :
    inner.function = setting.function ∨
      ∃ func ∈ functionsOf (walkStmtWithin program depth id), inner.function = some func := by
  induction depth generalizing setting id with
  | zero => cases occurs
  | succ depth induction =>
      cases found : program.stmt? id with
      | none =>
          simp only [occurrencesWithin, found, List.mem_singleton, Prod.mk.injEq] at occurs
          exact .inl (congrArg _ occurs.1)
      | some stmt =>
          rw [occurrencesWithin_eq found] at occurs
          rw [walkStmtWithin_eq found, functionsOf_cons, functionsOf_walkNodeOf]
          have declares {func : FuncId} (isDeclared : declaredBy? stmt = some func) :
              func ∈ (Node.stmt id).function?.toList ++ ((declaredBy? stmt).toList ++
                functionsOf ((children program stmt).flatMap (walkStmtWithin program depth))) := by
            simp [isDeclared]
          rcases List.mem_cons.mp occurs with same | inside
          · exact .inl (congrArg _ (Prod.mk.inj same).1)
          rcases occurs_in_parts inside with same | ⟨func, isDeclared, same⟩ | ⟨part, child, isPart, inPart⟩
          · exact .inl same
          · exact .inr ⟨func, declares isDeclared, same⟩
          rcases induction inPart with outer | ⟨func, isInner, same⟩
          · rcases function_of_parts isPart with around | ⟨func, isDeclared, same⟩
            · exact .inl (outer.trans around)
            · exact .inr ⟨func, declares isDeclared, outer.trans same⟩
          · refine .inr ⟨func, ?_, same⟩
            rw [functionsOf_flatMap]
            refine List.mem_append_right _ (List.mem_append_right _ ?_)
            exact List.mem_flatMap.mpr ⟨child, mem_children_of_parts isPart, isInner⟩

section OtherItems

variable {items : List StmtId}

theorem perm_occurrencesIn (same : program.items.Perm items) :
    (occurrencesIn program).Perm (occurrencesIn (program.withItems items)) := by
  rw [occurrencesIn, occurrencesIn, occurrencesWithin_withItems]
  exact same.flatMap_right _

theorem enclosed_withItems (same : program.items.Perm items)
    (enclosed : Enclosed program (occurrencesIn program)) :
    Enclosed (program.withItems items) (occurrencesIn (program.withItems items)) :=
  fun setting node target occurs =>
    enclosed setting node target ((perm_occurrencesIn same).mem_iff.mpr occurs)

theorem ownLocals_withItems (same : program.items.Perm items)
    (own : OwnLocals program (occurrencesIn program)) :
    OwnLocals (program.withItems items) (occurrencesIn (program.withItems items)) := by
  intro setting node id decl declaring place occurs uses found isLocal declares
  exact own setting node id decl declaring place ((perm_occurrencesIn same).mem_iff.mpr occurs) uses found
    isLocal ((perm_occurrencesIn same).mem_iff.mpr declares)

end OtherItems

/-- All but the declaration itself is in the function that it declares, or in a function inside of it. -/
theorem function_of_functionDecl {setting inner : Setting} {declaring : StmtId} {func : FuncId}
    {node : Node} (isDecl : program.stmt? declaring = some (.functionDecl func))
    (occurs : (inner, node) ∈ occurrencesWithin program (stmtDepth program) setting declaring)
    (notStmt : node ≠ .stmt declaring) (notFunction : node ≠ .function func) :
    ∃ id ∈ functionsOf (walkStmt program declaring), inner.function = some id := by
  rw [stmtDepth, occurrencesWithin_eq isDecl] at occurs
  rw [walkStmt, stmtDepth, walkStmtWithin_eq isDecl, functionsOf_cons, functionsOf_walkNodeOf]
  have self : func ∈ (Node.stmt declaring).function?.toList ++
      ((declaredBy? (.functionDecl func)).toList ++ functionsOf ((children program
        (.functionDecl func)).flatMap (walkStmtWithin program (2 * program.nodeCount + 1)))) := by
    simp [declaredBy?]
  rcases List.mem_cons.mp occurs with same | inside
  · exact absurd (Prod.mk.inj same).2 notStmt
  rcases List.mem_cons.mp inside with same | inside
  · exact absurd (Prod.mk.inj same).2 notFunction
  cases found : program.function? func with
  | none => simp [occurrencesOfFunction, found] at inside
  | some decl =>
      simp only [occurrencesOfFunction, found, List.mem_append] at inside
      rcases inside with isParam | inBody
      · rcases List.mem_map.mp isParam with ⟨_, _, same⟩
        cases (Prod.mk.inj same).1
        exact ⟨func, self, rfl⟩
      · rcases function_of_occurs inBody with here | ⟨id, isInner, same⟩
        · exact ⟨func, self, here⟩
        · refine ⟨id, ?_, same⟩
          simp [children, found, isInner]

theorem mem_of_jumpsTo (start : Session) {id target : StmtId} {node : Node}
    (enclosed : Enclosed program (occurrencesWithin program (stmtDepth program) .top id))
    (member : node ∈ walkStmt program id) (jumps : node.jumpsTo? program = some target) :
    .stmt target ∈ walkStmt program id ∧ (Node.stmt target).Marked program start := by
  rcases exists_setting .top member with ⟨inner, occurs⟩
  have inLoop := enclosed inner node target occurs jumps
  cases node with
  | stmt other => exact (mem_loops_of_occurs occurs inLoop).resolve_left List.not_mem_nil
  | expr | var | param | function => cases jumps

/-! ## Items that have nothing to do with each other -/

/-- The declaration of a function and another item do not refer to what the other one declares. -/
structure Unrelated (program : Program) (declaring item : StmtId) : Prop where
  isDecl : ∃ func, program.stmt? declaring = some (.functionDecl func)
  noGlobal : ∀ id, ¬ Declares program (walkStmt program declaring) .topLevel id
  foreign : ∀ id, Declares program (walkStmt program item) .topLevel id →
    ∀ node ∈ walkStmt program declaring, node.uses? program ≠ some id

theorem unrelated_iff {declaring item : StmtId} : Unrelated program declaring item ↔
    ((program.stmt? declaring).bind declaredBy?).isSome ∧
    (∀ node ∈ walkStmt program declaring, ∀ id ∈ node.declares?, ∀ decl ∈ program.var? id,
      decl.scope ≠ .topLevel) ∧
    ∀ node ∈ walkStmt program item, ∀ id ∈ node.declares?, ∀ decl ∈ program.var? id,
      decl.scope = .topLevel → ∀ other ∈ walkStmt program declaring, other.uses? program ≠ some id := by
  constructor
  · rintro ⟨⟨func, isDecl⟩, noGlobal, foreign⟩
    refine ⟨by simp [isDecl, declaredBy?], ?_, ?_⟩
    · intro node member id declares decl found isScope
      exact noGlobal id ⟨node, member, declares, decl, found, isScope⟩
    · intro node member id declares decl found isScope
      exact foreign id ⟨node, member, declares, decl, found, isScope⟩
  · rintro ⟨isDecl, noGlobal, foreign⟩
    refine ⟨?_, ?_, ?_⟩
    · rcases Option.isSome_iff_exists.mp isDecl with ⟨func, isDecl⟩
      rcases Option.bind_eq_some_iff.mp isDecl with ⟨stmt, found, declares⟩
      cases stmt with
      | functionDecl other => exact ⟨other, found⟩
      | _ => cases declares
    · rintro id ⟨node, member, declares, decl, found, isScope⟩
      exact noGlobal node member id declares decl found isScope
    · rintro id ⟨node, member, declares, decl, found, isScope⟩
      exact foreign node member id declares decl found isScope

instance (declaring item : StmtId) : Decidable (Unrelated program declaring item) :=
  decidable_of_iff _ unrelated_iff.symm

theorem Unrelated.withItems {declaring item : StmtId} (unrelated : Unrelated program declaring item)
    (items : List StmtId) : Unrelated (program.withItems items) declaring item where
  isDecl := unrelated.isDecl
  noGlobal := by
    rw [walkStmt_withItems]
    exact unrelated.noGlobal
  foreign := by
    rw [walkStmt_withItems]
    exact unrelated.foreign

/-- What is known of a program that is lowered. -/
structure Known (program : Program) (options : Options) (declared : Code.Module) : Prop where
  declares : declareAll program options = .ok declared
  once : (walkProgram program).Pairwise fun node other =>
    node.Marked program (.start (.ofModule declared)) → node.plain ≠ other.plain
  isDeclared : ∀ node ∈ walkProgram program, node.Declared program
  functions : (functionsOf (walkProgram program)).Nodup

theorem known_of_lowerProgram {options : Options} {module : Code.Module}
    (lowers : lowerProgram program options = .ok module)
    (enclosed : Enclosed program (occurrencesIn program)) :
    ∃ declared, Known program options declared := by
  rcases marks_of_lowerProgram lowers with ⟨declared, _, _, declares, marks, _⟩
  exact ⟨declared, declares, marks.once, marks.declared, functions_lowered_once lowers enclosed⟩

namespace Known

variable {options : Options} {declared : Code.Module} (known : Known program options declared)

include known

theorem withItems {items : List StmtId} (same : program.items.Perm items) :
    Known (program.withItems items) options declared := by
  have walks : (walkProgram program).Perm (walkProgram (program.withItems items)) := by
    rw [walkProgram, walkProgram, walkStmt_withItems]
    exact same.flatMap_right _
  refine ⟨known.declares, ?_, fun node member => known.isDeclared node (walks.mem_iff.mpr member),
    (walks.filterMap _).nodup_iff.mp known.functions⟩
  refine (walks.pairwise_iff fun {node other} apart marked equal => ?_).mp known.once
  have nodeMarked : node.Marked program _ := Node.marked_of_plain_eq equal marked
  exact apart nodeMarked equal.symm

theorem distinct : (options.entryFunction :: namesOf program (walkProgram program)).Nodup := by
  have isDeclared := declared_of_declareAll known.declares
  refine List.nodup_cons.mpr ⟨fun member => ?_, nodup_namesOf isDeclared known.functions⟩
  rcases exists_of_mem_namesOf member with ⟨id, decl, found, same⟩
  exact isDeclared.apart id decl found same

section Items

variable {declaring item : StmtId} {rest : List StmtId}
  (isItems : program.items.Perm (declaring :: item :: rest))

include isItems

theorem twoItems :
    ((walkStmt program declaring ++ walkStmt program item).Pairwise fun node other =>
      node.Marked program (.start (.ofModule declared)) → node.plain ≠ other.plain) ∧
    (functionsOf (walkStmt program declaring ++ walkStmt program item)).Nodup := by
  have walks : (walkProgram program).Perm ((declaring :: item :: rest).flatMap (walkStmt program)) :=
    isItems.flatMap_right _
  have part : (walkStmt program declaring ++ walkStmt program item).Sublist
      ((declaring :: item :: rest).flatMap (walkStmt program)) := by
    rw [List.flatMap_cons, List.flatMap_cons]
    exact (List.Sublist.refl _).append (List.sublist_append_left _ _)
  refine ⟨List.Pairwise.sublist part ?_,
    ((walks.filterMap _).nodup_iff.mp known.functions).sublist (part.filterMap _)⟩
  refine (walks.pairwise_iff fun {node other} apart marked equal => ?_).mp known.once
  exact apart (Node.marked_of_plain_eq equal marked) equal.symm

omit known in
theorem occurs_in_items {id : StmtId} (isItem : id = declaring ∨ id = item) {setting : Setting}
    {node : Node} (occurs : (setting, node) ∈ occurrencesWithin program (stmtDepth program) .top id) :
    (setting, node) ∈ occurrencesIn program := by
  refine List.mem_flatMap.mpr ⟨id, isItems.mem_iff.mpr ?_, occurs⟩
  rcases isItem with rfl | rfl <;> simp

omit known in
theorem enclosed_item (enclosed : Enclosed program (occurrencesIn program)) {id : StmtId}
    (isItem : id = declaring ∨ id = item) :
    Enclosed program (occurrencesWithin program (stmtDepth program) .top id) :=
  enclosed.mono fun _ occurs => occurs_in_items isItems isItem occurs

/-- Where a local variable of the item is declared, there is no function that uses it, and the other way
round. -/
theorem uses_apart (own : OwnLocals program (occurrencesIn program))
    (unrelated : Unrelated program declaring item) {func : FuncId}
    (isDecl : program.stmt? declaring = some (.functionDecl func)) {inFunction inItem : Node}
    (isInside : inFunction ∈ walkStmt program declaring) (isItem : inItem ∈ walkStmt program item)
    {id : VarId} (refer : inFunction.uses? program = some id ∧ inItem.declares? = some id ∨
      inItem.uses? program = some id ∧ inFunction.declares? = some id) : False := by
  rcases exists_setting .top isInside with ⟨setting, occurs⟩
  rcases exists_setting .top isItem with ⟨itemSetting, itemOccurs⟩
  have notStmt : inFunction ≠ .stmt declaring := by
    rintro rfl
    rcases refer with ⟨uses, _⟩ | ⟨_, declares⟩
    · cases uses
    · cases declares
  have notFunction : inFunction ≠ .function func := by
    rintro rfl
    rcases refer with ⟨uses, _⟩ | ⟨_, declares⟩
    · cases uses
    · cases declares
  rcases function_of_functionDecl isDecl occurs notStmt notFunction with ⟨inner, isInner, same⟩
  -- The item is not in a function of the other item.
  have apart : itemSetting.function ≠ setting.function := by
    rw [same]
    rcases function_of_occurs itemOccurs with top | ⟨other, isOther, otherSame⟩
    · rw [top]
      rintro ⟨⟩
    · rw [otherSame]
      rintro ⟨rfl⟩
      have functions := (known.twoItems isItems).2
      rw [functionsOf_append] at functions
      exact List.disjoint_of_nodup_append functions isInner isOther
  have occursHere := occurs_in_items isItems (.inl rfl) occurs
  have itemOccursHere := occurs_in_items isItems (.inr rfl) itemOccurs
  have declared {setting : Setting} {node : Node} (occurs : (setting, node) ∈ occurrencesIn program)
      (declares : node.declares? = some id) : ∃ decl, program.var? id = some decl := by
    rcases List.mem_flatMap.mp occurs with ⟨item, isItem, inItem⟩
    have onWalk : node ∈ walkStmt program item := by
      rw [walkStmt, ← map_snd_occurrencesWithin _ .top]
      exact List.mem_map.mpr ⟨_, inItem, rfl⟩
    have isDeclared := known.isDeclared node (List.mem_flatMap.mpr ⟨item, isItem, onWalk⟩)
    cases node with
    | var other | param other =>
        cases declares
        exact isDeclared
    | stmt | expr | function => cases declares
  rcases refer with ⟨uses, declares⟩ | ⟨uses, declares⟩
  · rcases declared itemOccursHere declares with ⟨decl, found⟩
    cases isScope : decl.scope with
    | topLevel => exact unrelated.foreign id ⟨_, isItem, declares, decl, found, isScope⟩ _ isInside uses
    | «local» => exact apart (own _ _ _ _ _ _ occursHere uses found isScope itemOccursHere declares)
  · rcases declared occursHere declares with ⟨decl, found⟩
    cases isScope : decl.scope with
    | topLevel => exact unrelated.noGlobal id ⟨_, isInside, declares, decl, found, isScope⟩
    | «local» =>
        exact apart (own _ _ _ _ _ _ itemOccursHere uses found isScope occursHere declares).symm

theorem independent (enclosed : Enclosed program (occurrencesIn program))
    (own : OwnLocals program (occurrencesIn program)) (unrelated : Unrelated program declaring item)
    {func : FuncId} {decl : FunctionDecl}
    (isDecl : program.stmt? declaring = some (.functionDecl func))
    (found : program.function? func = some decl) :
    Independent program (.start (.ofModule declared)) options.entryFunction decl declaring item := by
  have isDeclared := declared_of_declareAll known.declares
  rcases known.twoItems isItems with ⟨once, functions⟩
  have names := nodup_namesOf isDeclared functions
  rw [namesOf_append] at names
  have namesApart := List.disjoint_of_nodup_append names
  have cross := (List.pairwise_append.mp once).2.2
  have self : .function func ∈ walkStmt program declaring := by
    rw [walkStmt_functionDecl isDecl found]
    simp
  have declaresVar {nodes : List Node} {id : VarId} (member : .var id ∈ nodes ∨ .param id ∈ nodes) :
      ∃ node ∈ nodes, node.declares? = some id := by
    rcases member with isVar | isParam
    · exact ⟨_, isVar, rfl⟩
    · exact ⟨_, isParam, rfl⟩
  refine ⟨touches_apart once namesApart (isDeclared.apart func decl found)
      (namesApart (mem_namesOf self found)) ?_, ⟨?_, ?_⟩, ⟨?_, ?_⟩, ?_⟩
  · intro member
    rcases exists_of_mem_namesOf member with ⟨id, other, otherFound, same⟩
    exact isDeclared.apart id other otherFound same
  · rintro node member target jumps ⟨theirs, _⟩
    rcases mem_of_jumpsTo _ (enclosed_item isItems enclosed (.inl rfl)) member jumps with ⟨mine, marked⟩
    exact cross _ mine _ theirs marked rfl
  · intro node member var uses declares
    rcases declaresVar declares with ⟨place, isPlace, declares⟩
    exact known.uses_apart isItems own unrelated isDecl member isPlace (.inl ⟨uses, declares⟩)
  · rintro node member target jumps ⟨theirs, marked⟩
    have mine := (mem_of_jumpsTo (.start (.ofModule declared))
      (enclosed_item isItems enclosed (.inr rfl)) member jumps).1
    exact cross _ theirs _ mine marked rfl
  · intro node member var uses declares
    rcases declaresVar declares with ⟨place, isPlace, declares⟩
    exact known.uses_apart isItems own unrelated isDecl isPlace member (.inr ⟨uses, declares⟩)
  · intro id decl member found
    cases isScope : decl.scope with
    | topLevel => exact (unrelated.noGlobal id ⟨_, member, rfl, decl, found, isScope⟩).elim
    | «local» => rfl

end Items

end Known

/-! ## Runs with two items in the middle -/

section Runs

variable {options : Options} {before after : List StmtId} {first second : StmtId}

theorem lowerFirst_withItems (items ids : List StmtId) :
    lowerFirst (program.withItems items) options ids = lowerFirst program options ids := by
  unfold lowerFirst
  rw [lowerStmt_withItems]

theorem lowerLast_withItems (items ids : List StmtId) :
    lowerLast (program.withItems items) options ids = lowerLast program options ids := by
  unfold lowerLast
  rw [lowerStmt_withItems]

theorem lowerFirst_concat {session next : Session} :
    lowerFirst program options (before ++ [first]) session = .ok ((), next) ↔
      ∃ here, lowerFirst program options before session = .ok ((), here) ∧
        lowerStmt program (finishFunction options) first here = .ok ((), next) := by
  have split : lowerFirst program options (before ++ [first]) = (do
      lowerFirst program options before
      lowerStmt program (finishFunction options) first) := by
    simp only [lowerFirst, List.forM_eq_forM, List.forM_append, bind_assoc, List.forM_cons, List.forM_nil,
      bind_pure_unit]
  rw [split, Lower.bind_eq_ok]
  exact ⟨fun ⟨_, here, runs⟩ => ⟨here, runs⟩, fun ⟨here, runs⟩ => ⟨(), here, runs⟩⟩

/-- The sessions around two items of a program. -/
structure Around (program : Program) (options : Options) (before after : List StmtId)
    (first second : StmtId) (start here between last final : Session) : Prop where
  before : lowerFirst program options before start = .ok ((), here)
  first : lowerStmt program (finishFunction options) first here = .ok ((), between)
  second : lowerStmt program (finishFunction options) second between = .ok ((), last)
  after : lowerLast program options after last = .ok ((), final)

theorem lowerItems_eq_ok (isItems : program.items = before ++ first :: second :: after)
    {start final : Session} :
    lowerItems program (finishFunction options) options.entryFunction start = .ok ((), final) ↔
      ∃ here between last,
        Around program options before after first second start here between last final := by
  have split : lowerItems program (finishFunction options) options.entryFunction = (do
      lowerFirst program options before
      lowerStmt program (finishFunction options) first
      lowerStmt program (finishFunction options) second
      lowerLast program options after) := by
    simp only [lowerItems, isItems, lowerFirst, lowerLast, List.forM_eq_forM, List.forM_append, bind_assoc,
      List.forM_cons]
  rw [split]
  simp only [Lower.bind_eq_ok]
  constructor
  · rintro ⟨⟨⟩, here, isBefore, ⟨⟩, between, isFirst, ⟨⟩, last, isSecond, isAfter⟩
    exact ⟨here, between, last, isBefore, isFirst, isSecond, isAfter⟩
  · rintro ⟨here, between, last, isBefore, isFirst, isSecond, isAfter⟩
    exact ⟨(), here, isBefore, (), between, isFirst, (), last, isSecond, isAfter⟩

end Runs

/-! ## Modules with other numbers of data -/

/-- The other module has other numbers for the same data, and is the same otherwise. -/
structure Renumbered (change : DataId → DataId) (module other : Code.Module) : Prop where
  name : other.name = module.name
  functions : other.functions = module.functions.mapValues (Code.Function.relabel change)
  globals : other.globals = module.globals
  nextGlobal : other.nextGlobal = module.nextGlobal
  nextData : other.nextData = module.nextData
  data : ∀ id, other.data.get? (change id) = (module.data.get? id).map (renumberObject change)

theorem Renumbered.symm {change back : DataId → DataId} {module other : Code.Module}
    (renumbered : Renumbered change module other) (inverse : Function.LeftInverse back change)
    (onto : Function.Surjective change) : Renumbered back other module := by
  have undone : back ∘ change = id := funext inverse
  refine ⟨renumbered.name.symm, ?_, renumbered.globals.symm, renumbered.nextGlobal.symm,
    renumbered.nextData.symm, fun id => ?_⟩
  · have bodies (function : Code.Function) :
        (Code.Function.relabel back ∘ Code.Function.relabel change) function = function := by
      simp only [Function.comp_apply, Code.Function.relabel, Code.Body.relabel_relabel, undone,
        Code.Body.relabel_id]
    rw [renumbered.functions, Table.mapValues_mapValues,
      Table.mapValues_congr fun _ function _ => bodies function, Table.mapValues_id]
  · rcases onto id with ⟨id, rfl⟩
    rw [inverse id, renumbered.data id]
    cases module.data.get? id with
    | none => rfl
    | some object => simp only [Option.map_some, renumberObject, inverse object.id]

section Finishing

variable {options : Options} {declared : Code.Module} {declaring item : StmtId} {func : FuncId}
  {decl : FunctionDecl} {before after : List StmtId}

theorem declared_in {session : Session} (declares : declareAll program options = .ok declared)
    (signed : (Session.start (.ofModule declared)).Signed session) {func : FuncId} {decl : FunctionDecl}
    (found : program.function? func = some decl) :
    ∃ function, session.cursor.module.function? decl.name = some function := by
  rcases (declared_of_declareAll declares).functions func decl found with ⟨signature, _, isDeclared⟩
  have same := signed decl.name
  rw [show (Session.start (.ofModule declared)).cursor.module.function? decl.name = _ from isDeclared]
    at same
  rcases Option.map_eq_some_iff.mp same with ⟨function, isThere, _⟩
  exact ⟨function, isThere⟩

theorem signed_lowerFirst {start here : Session} (runs : lowerFirst program options before start =
    .ok ((), here)) : start.Signed here := by
  rcases Lower.bind_eq_ok.mp runs with ⟨_, opened, opens, runs⟩
  have signed : start.Signed opened :=
    ((Silent.openFunction options.entryFunction start).post_of_ok opens).signatures
  have finishes (name : String) : Silent (finishFunction options name) := .finishFunction options name
  exact ((notes_lowerStmts finishes before opened signed).post_of_ok runs).1.signed

theorem Exchanged.renumbered {mine theirs : Domain} {here built last other otherLast : Session}
    {current : String} {texts otherTexts : List String}
    (exchanged : Exchanged mine theirs here built last other otherLast)
    (sizes : Exchanged.Sizes here built last other otherLast texts.length otherTexts.length)
    (steady : here.Steady) (adds : here.Adds (texts ++ otherTexts) last)
    (otherAdds : here.Adds (otherTexts ++ texts) otherLast) {final otherFinal : Session}
    (agree : (exchangeLink exchanged sizes).Matches current final otherFinal) :
    Renumbered (Code.exchangeData here.cursor.module.data.size texts.length otherTexts.length)
      final.cursor.module otherFinal.cursor.module := by
  have headings := (agree.firstHeadings.symm.trans exchanged.sameHeadings).trans agree.secondHeadings
  have alongside := agree.alongside rfl
  rcases agree.adds with ⟨more, addsMore, otherAddsMore⟩
  have finalAdds := adds.trans addsMore
  have otherFinalAdds := otherAdds.trans otherAddsMore
  refine ⟨headings.name, ?_, (agree.sameTables rfl trivial).1, (agree.sameTables rfl trivial).2, ?_,
    exchanged_data steady finalAdds otherFinalAdds agree.firstCounts agree.secondCounts⟩
  · apply Table.ext_get?
    · rw [Table.keys_mapValues]
      exact headings.names
    · intro name
      rw [Table.get?_mapValues]
      exact alongside.functions name trivial
  · rw [agree.firstCounts.next, agree.secondCounts.next, finalAdds.size, otherFinalAdds.size,
      List.length_append, List.length_append, List.length_append, List.length_append,
      Nat.add_comm otherTexts.length]

/-- The outcome of both orders, when the function has come first in one of them. -/
theorem Known.exchanged (known : Known program options declared)
    (plain : options.verifyFunctions = false)
    (isItems : program.items = before ++ declaring :: item :: after)
    (independent : Independent program (.start (.ofModule declared)) options.entryFunction decl declaring
      item) {here built last other otherLast : Session}
    (isBefore : lowerFirst program options before (.start (.ofModule declared)) = .ok ((), here))
    (lowers : lowerStmt program (finishFunction options) declaring here = .ok ((), built))
    (lowersItem : lowerStmt program (finishFunction options) item built = .ok ((), last))
    (otherLowersItem : lowerStmt program (finishFunction options) item here = .ok ((), other))
    (exchanged : Exchanged
      (touches program (.start (.ofModule declared)) decl.name (walkStmt program declaring))
      (touches program (.start (.ofModule declared)) options.entryFunction (walkStmt program item))
      here built last other otherLast) :
    ∃ change : DataId → DataId, Function.Bijective change ∧ Together (fun final otherFinal =>
        Renumbered change final.cursor.module otherFinal.cursor.module ∧
          (otherFinal.cursor.module.verify = .ok () ↔ final.cursor.module.verify = .ok ()))
      (lowerLast program options after last) (lowerLast program options after otherLast) := by
  have distinct := known.distinct
  rw [walkProgram, isItems] at distinct
  have part {ids : List StmtId} (sub : ids.Sublist (before ++ declaring :: item :: after)) :
      (options.entryFunction :: namesOf program (ids.flatMap (walkStmt program))).Nodup := by
    refine distinct.sublist (.cons_cons _ ?_)
    rw [namesOf_flatMap, namesOf_flatMap]
    exact sub.flatMap _
  have runsBuilt := lowerFirst_concat.mpr ⟨here, isBefore, lowers⟩
  have steady := (steady_of_items plain known.declares (part (by simp)) isBefore).1
  have steadyBuilt := (steady_of_items plain known.declares (part (by simp)) runsBuilt).1
  have steadyOther := (steady_of_items plain known.declares (part (by simp))
    (lowerFirst_concat.mpr ⟨here, isBefore, otherLowersItem⟩)).1
  have runsLast := lowerFirst_concat.mpr ⟨built, runsBuilt, lowersItem⟩
  rcases (steady_of_items plain known.declares (part (by simp)) runsLast).2 with ⟨place, builds⟩
  rcases exchanged.exists_texts with ⟨texts, otherTexts, adds, otherAdds, addsMore, otherAddsMore, sizes⟩
  have starts := exchangeLink_starts exchanged sizes steadyBuilt steadyOther independent.apart builds
  refine ⟨Code.exchangeData here.cursor.module.data.size texts.length otherTexts.length,
    Code.exchangeData_bijective sizes.room, (lowerLast_exchanged exchanged sizes plain
      (fun _ _ => declared_in known.declares (signed_lowerFirst runsLast)) starts after).mono ?_⟩
  intro final otherFinal agree
  exact ⟨exchanged.renumbered sizes steady (adds.trans addsMore) (otherAdds.trans otherAddsMore) agree,
    agree.verify_iff trivial (exchangeLink_knows exchanged sizes) fun _ => trivial⟩

end Finishing

/-! ## Programs -/

/-- The modules differ in the numbers of data only, and verification accepts both or neither. -/
def Session.Renumbers (final otherFinal : Session) : Prop :=
  (∃ change : DataId → DataId, Function.Bijective change ∧
      Renumbered change final.cursor.module otherFinal.cursor.module) ∧
    (otherFinal.cursor.module.verify = .ok () ↔ final.cursor.module.verify = .ok ())

/-- Either program is lowered if the other one is, and what comes out differs in the numbers of data
only. -/
structure LoweredAlike (program other : Program) (options : Options) : Prop where
  together : (∃ module, lowerProgram program options = .ok module) ↔
    ∃ module, lowerProgram other options = .ok module
  renumbered : ∀ module otherModule, lowerProgram program options = .ok module →
    lowerProgram other options = .ok otherModule →
      ∃ change, Function.Bijective change ∧ Renumbered change module otherModule

theorem LoweredAlike.symm {other : Program} {options : Options}
    (alike : LoweredAlike program other options) : LoweredAlike other program options where
  together := alike.together.symm
  renumbered := by
    intro module otherModule lowers otherLowers
    rcases alike.renumbered otherModule module otherLowers lowers with ⟨change, bijective, renumbered⟩
    rcases Function.bijective_iff_has_inverse.mp bijective with ⟨back, inverse, backInverse⟩
    exact ⟨back, Function.bijective_iff_has_inverse.mpr ⟨change, backInverse, inverse⟩,
      renumbered.symm inverse bijective.surjective⟩

section Orders

variable {options : Options} {declared : Code.Module} {before after : List StmtId}
  {declaring item : StmtId} {func : FuncId} {decl : FunctionDecl} {here between last final : Session}
  (known : Known program options declared) (plain : options.verifyFunctions = false)
  (isItems : program.items = before ++ declaring :: item :: after)
  (isDecl : program.stmt? declaring = some (.functionDecl func))
  (found : program.function? func = some decl)
  (independent : Independent program (.start (.ofModule declared)) options.entryFunction decl declaring
    item)

include known plain isItems in
theorem Known.steady_before
    (runs : lowerFirst program options before (.start (.ofModule declared)) = .ok ((), here)) :
    here.Steady ∧ ∃ place, here.Builds options.entryFunction place := by
  refine steady_of_items plain known.declares (known.distinct.sublist (.cons_cons _ ?_)) runs
  rw [walkProgram, isItems, namesOf_flatMap, namesOf_flatMap]
  exact (List.sublist_append_left _ _).flatMap _

include known plain isItems isDecl found independent

theorem Known.item_first (around : Around program options before after declaring item
    (.start (.ofModule declared)) here between last final) :
    ∃ other otherLast otherFinal, Around program options before after item declaring
      (.start (.ofModule declared)) here other otherLast otherFinal ∧ final.Renumbers otherFinal := by
  rcases known.steady_before plain isItems around.before with ⟨steady, place, builds⟩
  have signed := signed_lowerFirst around.before
  rcases exchanged_of_declaring_first plain isDecl found independent steady signed builds
      (fun _ _ => declared_in known.declares signed) around.first around.second with
    ⟨other, otherLast, first, second, exchanged⟩
  rcases known.exchanged plain isItems independent around.before around.first around.second first
    exchanged with ⟨change, bijective, together⟩
  rw [around.after] at together
  rcases together.of_first with ⟨otherFinal, ends, renumbered, verified⟩
  exact ⟨other, otherLast, otherFinal, ⟨around.before, first, second, ends⟩,
    ⟨change, bijective, renumbered⟩, verified⟩

theorem Known.declaring_first (around : Around program options before after item declaring
    (.start (.ofModule declared)) here between last final) :
    ∃ other otherLast otherFinal, Around program options before after declaring item
      (.start (.ofModule declared)) here other otherLast otherFinal ∧ otherFinal.Renumbers final := by
  rcases known.steady_before plain isItems around.before with ⟨steady, place, builds⟩
  have signed := signed_lowerFirst around.before
  rcases exchanged_of_item_first plain isDecl found independent steady signed builds
      (fun _ _ => declared_in known.declares signed) around.first around.second with
    ⟨other, otherLast, first, second, exchanged⟩
  rcases known.exchanged plain isItems independent around.before first second around.first
    exchanged with ⟨change, bijective, together⟩
  rw [around.after] at together
  rcases together.of_second with ⟨otherFinal, ends, renumbered, verified⟩
  exact ⟨other, otherLast, otherFinal, ⟨around.before, first, second, ends⟩,
    ⟨change, bijective, renumbered⟩, verified⟩

end Orders

section Programs

variable {options : Options} {before after : List StmtId} {declaring item : StmtId}

theorem Around.withItems {first second : StmtId} {start here between last final : Session}
    (items : List StmtId) : Around (program.withItems items) options before after first second start here
        between last final ↔
      Around program options before after first second start here between last final := by
  constructor
  · rintro ⟨isBefore, isFirst, isSecond, isAfter⟩
    rw [lowerFirst_withItems] at isBefore
    rw [lowerStmt_withItems] at isFirst isSecond
    rw [lowerLast_withItems] at isAfter
    exact ⟨isBefore, isFirst, isSecond, isAfter⟩
  · rintro ⟨isBefore, isFirst, isSecond, isAfter⟩
    rw [← lowerFirst_withItems items] at isBefore
    rw [← lowerStmt_withItems items] at isFirst isSecond
    rw [← lowerLast_withItems items] at isAfter
    exact ⟨isBefore, isFirst, isSecond, isAfter⟩

theorem perm_of_items (before after : List StmtId) (first second : StmtId) :
    (before ++ first :: second :: after).Perm (first :: second :: (before ++ after)) :=
  List.perm_middle.trans (.cons _ List.perm_middle)

variable (isItems : program.items = before ++ declaring :: item :: after)
  (enclosed : Enclosed program (occurrencesIn program))
  (own : OwnLocals program (occurrencesIn program)) (unrelated : Unrelated program declaring item)

include isItems enclosed own unrelated

theorem orders_of_known (plain : options.verifyFunctions = false) {declared : Code.Module}
    (known : Known program options declared) :
    LoweredAlike program (program.withItems (before ++ item :: declaring :: after)) options := by
  have perm : program.items.Perm (declaring :: item :: (before ++ after)) := by
    rw [isItems]
    exact perm_of_items before after declaring item
  rcases unrelated.isDecl with ⟨func, isDecl⟩
  have declares : ∃ decl, program.function? func = some decl := by
    refine known.isDeclared (.function func) (List.mem_flatMap.mpr
      ⟨declaring, perm.mem_iff.mpr List.mem_cons_self, ?_⟩)
    rw [walkStmt, stmtDepth, walkStmtWithin_eq isDecl]
    exact List.mem_cons_of_mem _ List.mem_cons_self
  rcases declares with ⟨decl, found⟩
  have independent := known.independent perm enclosed own unrelated isDecl found
  have first {module : Code.Module} (lowers : lowerProgram program options = .ok module) :
      ∃ otherModule, lowerProgram (program.withItems (before ++ item :: declaring :: after)) options =
        .ok otherModule ∧ ∃ change, Function.Bijective change ∧ Renumbered change module otherModule := by
    rcases lowerProgram_eq_ok.mp lowers with ⟨other, final, declares, runs, rfl, verified⟩
    cases known.declares.symm.trans declares
    rcases (lowerItems_eq_ok isItems).mp runs with ⟨here, between, last, around⟩
    rcases known.item_first plain isItems isDecl found independent around with
      ⟨other, otherLast, otherFinal, otherAround, renumbers⟩
    exact ⟨otherFinal.cursor.module, lowerProgram_eq_ok.mpr ⟨declared, otherFinal, declares,
      (lowerItems_eq_ok rfl).mpr ⟨here, other, otherLast, (Around.withItems _).mpr otherAround⟩, rfl,
      renumbers.2.mpr verified⟩, renumbers.1⟩
  have second {otherModule : Code.Module}
      (lowers : lowerProgram (program.withItems (before ++ item :: declaring :: after)) options =
        .ok otherModule) : ∃ module, lowerProgram program options = .ok module := by
    rcases lowerProgram_eq_ok.mp lowers with ⟨other, final, declares, runs, rfl, verified⟩
    cases known.declares.symm.trans declares
    rcases (lowerItems_eq_ok rfl).mp runs with ⟨here, between, last, around⟩
    rcases known.declaring_first plain isItems isDecl found independent
      ((Around.withItems _).mp around) with ⟨other, otherLast, otherFinal, otherAround, renumbers⟩
    exact ⟨otherFinal.cursor.module, lowerProgram_eq_ok.mpr ⟨declared, otherFinal, declares,
      (lowerItems_eq_ok isItems).mpr ⟨here, other, otherLast, otherAround⟩, rfl,
      renumbers.2.mp verified⟩⟩
  refine ⟨⟨?_, ?_⟩, ?_⟩
  · rintro ⟨module, lowers⟩
    rcases first lowers with ⟨otherModule, otherLowers, _⟩
    exact ⟨otherModule, otherLowers⟩
  · rintro ⟨otherModule, lowers⟩
    exact second lowers
  · intro module otherModule lowers otherLowers
    rcases first lowers with ⟨another, anotherLowers, renumbered⟩
    cases anotherLowers.symm.trans otherLowers
    exact renumbered

/-- A function and the item behind it may change places. -/
theorem loweredAlike_of_declaring_first :
    LoweredAlike program (program.withItems (before ++ item :: declaring :: after)) options := by
  have perm : program.items.Perm (before ++ item :: declaring :: after) := by
    rw [isItems]
    exact .append_left before (.swap item declaring after)
  -- Early checks make no difference, because each function is lowered once.
  have orders {declared : Code.Module} (known : Known program options declared) :
      LoweredAlike program (program.withItems (before ++ item :: declaring :: after)) options := by
    rcases options with ⟨entry, verify⟩
    have knownPlain : Known program ⟨entry, false⟩ declared :=
      ⟨known.declares, known.once, known.isDeclared, known.functions⟩
    have plain := orders_of_known isItems enclosed own unrelated rfl knownPlain
    cases verify with
    | false => exact plain
    | true =>
        have otherFunctions := (known.withItems perm).functions
        refine ⟨?_, ?_⟩
        · simpa only [lowerProgram_early_iff known.functions, lowerProgram_early_iff otherFunctions]
            using plain.together
        · simpa only [lowerProgram_early_iff known.functions, lowerProgram_early_iff otherFunctions]
            using plain.renumbered
  by_cases lowers : ∃ module, lowerProgram program options = .ok module
  · rcases lowers with ⟨module, lowers⟩
    rcases known_of_lowerProgram lowers enclosed with ⟨declared, known⟩
    exact orders known
  by_cases otherLowers : ∃ module, lowerProgram (program.withItems (before ++ item :: declaring :: after))
      options = .ok module
  · rcases otherLowers with ⟨module, otherLowers⟩
    rcases known_of_lowerProgram otherLowers (enclosed_withItems perm enclosed) with ⟨declared, known⟩
    exact orders (known.withItems perm.symm)
  · exact ⟨⟨fun does => absurd does lowers, fun does => absurd does otherLowers⟩,
      fun module _ does _ => absurd ⟨module, does⟩ lowers⟩

end Programs

/-- A function declaration and the item beside it may change places if neither of them refers to what
the other one declares: one order is lowered if the other one is. Both modules have the same functions
and globals in the same order, and their code and their data differ in the numbers of data only. -/
theorem function_and_neighbour_change_places {program : Program} {before after : List StmtId}
    {first second : StmtId} (options : Options)
    (isItems : program.items = before ++ first :: second :: after)
    (enclosed : Enclosed program (occurrencesIn program))
    (own : OwnLocals program (occurrencesIn program))
    (unrelated : Unrelated program first second ∨ Unrelated program second first) :
    let other := program.withItems (before ++ second :: first :: after)
    ((∃ module, (compile program options .empty).1 = .ok module) ↔
        ∃ module, (compile other options .empty).1 = .ok module) ∧
      ∀ module otherModule, (compile program options .empty).1 = .ok module →
        (compile other options .empty).1 = .ok otherModule →
          ∃ change, Function.Bijective change ∧ Renumbered change module otherModule := by
  have alike : LoweredAlike program (program.withItems (before ++ second :: first :: after)) options := by
    rcases unrelated with unrelated | unrelated
    · exact loweredAlike_of_declaring_first isItems enclosed own unrelated
    · have perm : program.items.Perm (before ++ second :: first :: after) := by
        rw [isItems]
        exact .append_left before (.swap second first after)
      have back : (program.withItems (before ++ second :: first :: after)).withItems
          (before ++ first :: second :: after) = program := by
        rw [← isItems]
        rfl
      have orders : LoweredAlike (program.withItems (before ++ second :: first :: after)) _ options :=
        loweredAlike_of_declaring_first rfl (enclosed_withItems perm enclosed)
          (ownLocals_withItems perm own) (unrelated.withItems _)
      rw [back] at orders
      exact orders.symm
  intro other
  simp only [compile_empty]
  exact ⟨alike.together, alike.renumbered⟩

/-- A function with a text, a variable that is set to another one, and a call of the function. -/
def greetingProgram : Program where
  filename := "greeting"
  items := [⟨0⟩, ⟨1⟩, ⟨2⟩]
  stmts := #[.functionDecl ⟨0⟩, .varDecl [⟨1⟩], .expr ⟨2⟩, .compound [⟨4⟩], .varDecl [⟨0⟩]]
  exprs := #[⟨.stringLiteral "welcome", .string⟩, ⟨.stringLiteral "goodbye", .string⟩,
    ⟨.call "greet" [], .void⟩]
  vars := #[⟨"text", .string, some ⟨0⟩, .local, .ordinary⟩,
    ⟨"last", .string, some ⟨1⟩, .topLevel, .ordinary⟩]
  functions := #[⟨"greet", [], none, ⟨3⟩⟩]

/-- With the variable in front of the function, both texts get the number of the other one. -/
theorem greetingProgram_items_change_places : ∃ module otherModule,
    (compile greetingProgram .default .empty).1 = .ok module ∧
    (compile (greetingProgram.withItems [⟨1⟩, ⟨0⟩, ⟨2⟩]) .default .empty).1 = .ok otherModule ∧
    module ≠ otherModule ∧
    ∃ change, Function.Bijective change ∧ Renumbered change module otherModule := by
  have differ : (compile greetingProgram .default .empty).1.toOption ≠
      (compile (greetingProgram.withItems [⟨1⟩, ⟨0⟩, ⟨2⟩]) .default .empty).1.toOption := by
    decide +kernel
  have accepted : (compile greetingProgram .default .empty).1.isOk = true := by decide +kernel
  have isItems : greetingProgram.items = [] ++ ⟨0⟩ :: ⟨1⟩ :: [⟨2⟩] := rfl
  have places := function_and_neighbour_change_places .default isItems (by decide +kernel)
    (by decide +kernel) (by decide +kernel)
  cases outcome : (compile greetingProgram .default .empty).1 with
  | error error =>
      rw [outcome] at accepted
      cases accepted
  | ok module =>
      rcases places.1.mp ⟨module, outcome⟩ with ⟨otherModule, otherOutcome⟩
      refine ⟨module, otherModule, rfl, otherOutcome, ?_, places.2 module otherModule outcome otherOutcome⟩
      rintro rfl
      rw [outcome] at differ
      exact differ (congrArg Except.toOption otherOutcome).symm

end ScriptLowering.Lowering
