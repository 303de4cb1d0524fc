import Mathlib.Data.List.Nodup
import ScriptLowering.Proofs.FinishedFunctions
import ScriptLowering.Proofs.FunctionRuns
import ScriptLowering.Proofs.Globals

/-! # Linking

What a module offers to the functions in it: every function of the program is there under its name,
with the code it has been lowered to, and every variable of the top level is a global that starts
with its literal.
-/

namespace ScriptLowering.Lowering

open Source (Program ExprId FuncId FunctionDecl Stmt StmtId VarDecl VarId)
open Code (Place bind_eq_ok bind_unit_eq_ok mapError_eq_ok)

/-! ## What a resolved program is made of -/

theorem PartTyped.renamed {program : Program} {callable : FuncId → Prop} {returns : Source.Ty}
    {loops : List StmtId} {locals : List VarId} {id other : StmtId} {stmts : List StmtId}
    (typed : PartTyped program callable returns loops locals (.stmt id (.compound stmts))) :
    PartTyped program callable returns loops locals (.stmt other (.compound stmts)) := by
  induction stmts generalizing locals with
  | nil => exact .nothing
  | cons head tail induction =>
      cases typed with
      | sequence found first rest => exact .sequence found first (induction rest)

section Walks

variable (program : Program) (callable : FuncId → Prop)

/-- What is known of a node that lowering comes to. -/
def Node.Typed : Node → Prop
  | .var id => ∃ locals, VarTyped program callable locals id
  | .param id => ∃ decl, program.var? id = some decl ∧ decl.scope = .local
  | .function id => ∀ decl, program.function? id = some decl → decl.params.Nodup
  | _ => True

/-- The nodes are typed if they are a part of the way through the program. -/
def WalkTyped (nodes : List Node) : Prop :=
  nodes.Sublist (walkProgram program) → ∀ node ∈ nodes, node.Typed program callable

variable {program} {callable}

theorem WalkTyped.append {first second : List Node} (left : WalkTyped program callable first)
    (right : WalkTyped program callable second) : WalkTyped program callable (first ++ second) := by
  intro onWalk node member
  rcases List.mem_append.mp member with inFirst | inSecond
  · exact left ((List.sublist_append_left _ _).trans onWalk) node inFirst
  · exact right ((List.sublist_append_right _ _).trans onWalk) node inSecond

theorem WalkTyped.flatMap {α : Type} {items : List α} {walk : α → List Node}
    (typed : ∀ item ∈ items, WalkTyped program callable (walk item)) :
    WalkTyped program callable (items.flatMap walk) := by
  induction items with
  | nil =>
      intro _ node member
      cases member
  | cons item rest induction =>
      rw [List.flatMap_cons]
      exact (typed item (by simp)).append
        (induction fun other member => typed other (List.mem_cons_of_mem _ member))

theorem walkTyped_walkExprWithin (depth : Nat) (id : ExprId) :
    WalkTyped program callable (walkExprWithin program depth id) := by
  induction depth generalizing id with
  | zero =>
      intro _ node member
      cases member
  | succ depth induction =>
      have head : WalkTyped program callable [.expr id] := by
        intro _ node member
        rw [List.mem_singleton.mp member]
        trivial
      refine head.append ?_
      cases program.expr? id with
      | none =>
          intro _ node member
          cases member
      | some expr => exact .flatMap fun operand _ => induction operand

theorem walkTyped_walkExpr (id : ExprId) : WalkTyped program callable (walkExpr program id) :=
  walkTyped_walkExprWithin _ id

theorem walkTyped_walkVar {locals : List VarId} {id : VarId}
    (typed : VarTyped program callable locals id) :
    WalkTyped program callable (walkVar program id) := by
  have last : WalkTyped program callable [.var id] := by
    intro _ node member
    rw [List.mem_singleton.mp member]
    exact ⟨locals, typed⟩
  unfold walkVar
  split
  · exact .append (.flatMap fun initial _ => walkTyped_walkExpr initial) last
  · exact last

def walkPart (program : Program) (walk : StmtId → List Node) : Part → List Node
  | .stmt _ node => walkNodeOf program walk node
  | .initial initial => walkForInit program walk initial

def StmtsTyped (program : Program) (callable : FuncId → Prop) (walk : StmtId → List Node) : Prop :=
  ∀ id node returns loops locals, program.stmt? id = some node →
    PartTyped program callable returns loops locals (.stmt id node) →
    WalkTyped program callable (walk id)

theorem walkTyped_walkFunction (resolved : WellResolved program callable)
    {walk : StmtId → List Node}
    (typed : StmtsTyped program callable walk) (id : FuncId) :
    WalkTyped program callable (walkFunction program walk id) := by
  intro onWalk
  have member : id ∈ functionsOf (walkProgram program) :=
    List.mem_filterMap.mpr ⟨.function id, onWalk.subset (by simp [walkFunction]), rfl⟩
  rcases resolved.functions id member with ⟨decl, found, functionTyped⟩
  rcases functionTyped with ⟨params, foundBody, body⟩
  have nodes : walkFunction program walk id =
      [.function id] ++ (decl.params.map .param ++ walk decl.body) := by
    simp [walkFunction, found]
  have distinct : decl.params.Nodup := by
    rw [nodes] at onWalk
    have parts := List.Nodup.sublist onWalk resolved.once
    exact List.Nodup.of_map _ (List.nodup_append.mp (List.nodup_append.mp parts).2.1).1
  rw [nodes] at onWalk ⊢
  revert onWalk
  apply WalkTyped.append
  · intro _ node member
    rw [List.mem_singleton.mp member]
    intro other otherFound
    rw [found] at otherFound
    cases otherFound
    exact distinct
  apply WalkTyped.append
  · intro _ node member
    rcases List.mem_map.mp member with ⟨param, isParam, rfl⟩
    rcases params param isParam with ⟨var, foundVar, isLocal, _⟩
    exact ⟨var, foundVar, isLocal⟩
  · exact typed _ _ _ _ _ foundBody body

theorem walkTyped_walkPart (resolved : WellResolved program callable) {walk : StmtId → List Node}
    (typed : StmtsTyped program callable walk) {returns : Source.Ty} {loops : List StmtId}
    {locals : List VarId} {part : Part}
    (partTyped : PartTyped program callable returns loops locals part) :
    WalkTyped program callable (walkPart program walk part) := by
  have nothing : WalkTyped program callable [] := by
    intro _ node member
    cases member
  induction partTyped with
  | expr _ => exact walkTyped_walkExpr _
  | nothing => exact nothing
  | sequence found first _ _ rest => exact (typed _ _ _ _ _ found first).append rest
  | noVars => exact nothing
  | vars first _ others => exact (walkTyped_walkVar first).append others
  | functionDecl => exact walkTyped_walkFunction resolved typed _
  | ifThen _ found body =>
      exact (walkTyped_walkExpr _).append ((typed _ _ _ _ _ found body).append nothing)
  | ifThenElse _ thenFound elseFound thenPart elsePart =>
      apply (walkTyped_walkExpr _).append
      apply (typed _ _ _ _ _ thenFound thenPart).append
      exact WalkTyped.append (typed _ _ _ _ _ elseFound elsePart) nothing
  | whileLoop _ found part =>
      exact (walkTyped_walkExpr _).append (typed _ _ _ _ _ found part)
  | forLoop _ _ found part _ starts =>
      apply WalkTyped.append starts
      apply WalkTyped.append (.flatMap fun _ _ => walkTyped_walkExpr _)
      exact (typed _ _ _ _ _ found part).append (.flatMap fun _ _ => walkTyped_walkExpr _)
  | continueLoop _ => exact nothing
  | breakLoop _ => exact nothing
  | returnNothing _ => exact nothing
  | returnValue _ _ => exact (walkTyped_walkExpr _).append nothing
  | initialDecl found part => exact typed _ _ _ _ _ found part
  | initialExprs _ => exact .flatMap fun _ _ => walkTyped_walkExpr _

theorem stmtsTyped_walkStmtWithin (resolved : WellResolved program callable) (depth : Nat) :
    StmtsTyped program callable (walkStmtWithin program depth) := by
  induction depth with
  | zero =>
      intro id node returns loops locals _ _ _ other member
      cases member
  | succ depth induction =>
      intro id node returns loops locals found typed
      have head : WalkTyped program callable [.stmt id] := by
        intro _ other member
        rw [List.mem_singleton.mp member]
        trivial
      have nodes : walkStmtWithin program (depth + 1) id =
          [.stmt id] ++ walkPart program (walkStmtWithin program depth) (.stmt id node) := by
        simp [walkStmtWithin, found, walkPart]
      rw [nodes]
      exact head.append (walkTyped_walkPart resolved induction typed)

theorem WellResolved.typed (resolved : WellResolved program callable) :
    ∀ node ∈ walkProgram program, node.Typed program callable :=
  walkTyped_walkPart resolved (stmtsTyped_walkStmtWithin resolved (stmtDepth program))
    resolved.items (List.Sublist.refl _)

end Walks

/-! ## Successful lowerings -/

/-- The program has been lowered: `declared` is the module with all declarations, and `last` is
the session at the end. -/
structure Generates (program : Program) (options : Options) (declared : Code.Module)
    (last : Session) : Prop where
  declares : declareAll program options = .ok declared
  lowers : lowerItems program (finishFunction options) options.entryFunction
    (.start (.ofModule declared)) = .ok ((), last)

/-- The program has been lowered and what has become of it is accepted. -/
structure Succeeds (program : Program) (options : Options) (declared : Code.Module)
    (last : Session) : Prop extends Generates program options declared last where
  verified : last.cursor.module.verify = .ok ()

theorem succeeds_of_lowerProgram {program : Program} {options : Options} {module : Code.Module}
    (lowers : lowerProgram program options = .ok module) :
    ∃ declared last, Succeeds program options declared last ∧ last.cursor.module = module := by
  unfold lowerProgram at lowers
  rcases bind_eq_ok.mp lowers with ⟨declared, declares, rest⟩
  rcases bind_eq_ok.mp rest with ⟨⟨_, last⟩, runs, others⟩
  rcases bind_unit_eq_ok.mp others with ⟨verified, same⟩
  exact ⟨declared, last, ⟨⟨declares, runs⟩, mapError_eq_ok.mp verified⟩, Except.ok.inj same⟩

theorem WellResolved.nodup_functions {program : Program} {callable : FuncId → Prop}
    (resolved : WellResolved program callable) :
    (functionsOf (walkProgram program)).Nodup := by
  apply List.Nodup.filterMap _ resolved.once
  intro node other id first second
  cases node <;> cases first
  cases other <;> cases second
  rfl

theorem entry?_eq {function : Code.Function} {place : Place}
    (body : function.body = place.pruned.body) (regular : place.Regular) :
    function.entry? = some ⟨0⟩ := by
  rcases regular.entry with ⟨_, entry, _⟩
  rw [Code.Function.entry?, body]
  exact entry

theorem length_globalVars_lt {program : Program}
    (few : demand program (walkProgram program) < 2 ^ 28) :
    (Source.globalVars program).length < 2 ^ 32 := by
  have fewer : (Source.globalVars program).length ≤ demand program (walkProgram program) := by
    rw [Source.globalVars, List.length_filterMap_eq_countP]
    apply List.countP_mono_left
    intro node member isGlobal
    cases node with
    | stmt id => cases isGlobal
    | expr | var | param | function => rfl
  omega

namespace Generates

variable {program : Program} {callable : FuncId → Prop}
  {options : Options} {declared : Code.Module} {last : Session}

theorem complete (generates : Generates program options declared last)
    (resolved : WellResolved program callable) (few : demand program (walkProgram program) < 2 ^ 28) :
    Complete program options.entryFunction (.start (.ofModule declared)) last :=
  complete_of_lowerItems generates.declares resolved.nodup_functions few generates.lowers

/-! ### Globals -/

theorem records (generates : Generates program options declared last)
    (resolved : WellResolved program callable) (few : demand program (walkProgram program) < 2 ^ 28) :
    last.Records program (Source.globalVars program) := by
  apply records_of_lowerItems (declared_of_declareAll generates.declares).tables _
    (length_globalVars_lt few) generates.lowers
  intro id decl member found
  rcases resolved.typed _ member with ⟨var, foundVar, isLocal⟩
  rw [found] at foundVar
  cases foundVar
  exact isLocal

end Generates

theorem toNat_toUInt32 {index : Nat} (small : index < 2 ^ 32) : index.toUInt32.toNat = index := by
  simp only [Nat.toUInt32, UInt32.toNat_ofNat']
  omega

theorem Session.Lists.global?_eq {program : Program} {vars : List (VarId × VarDecl)}
    {session : Session} (lists : session.Lists program vars) {index : Nat} {id : VarId}
    {decl : VarDecl} (isVar : vars[index]? = some (id, decl)) :
    session.cursor.module.global? ⟨index.toUInt32⟩ = some (globalAt program decl index).2 := by
  apply Table.get?_eq_some_iff.mpr
  rw [lists.entries]
  exact List.mem_map.mpr ⟨((id, decl), index), List.mem_zipIdx_iff_getElem?.mpr isVar, rfl⟩

theorem Session.Records.globalsPlaced {program : Program} {session : Session}
    (records : session.Records program (Source.globalVars program))
    (few : (Source.globalVars program).length < 2 ^ 32) : GlobalsPlaced program session where
  become := by
    intro id decl address found topLevel stored
    rcases records.stores.known id decl address found topLevel stored with ⟨index, isVar, rfl⟩
    exact ⟨⟨index.toUInt32⟩, _, rfl, records.lists.global?_eq isVar, rfl⟩
  distinct := by
    intro id other decl otherDecl global found topLevel otherFound otherTopLevel stored otherStored
    rcases records.stores.known id decl _ found topLevel stored with ⟨index, isVar, same⟩
    rcases records.stores.known other otherDecl _ otherFound otherTopLevel otherStored with
      ⟨otherIndex, otherIsVar, otherSame⟩
    have small := (List.getElem?_eq_some_iff.mp isVar).1
    have otherSmall := (List.getElem?_eq_some_iff.mp otherIsVar).1
    have numbers : index.toUInt32 = otherIndex.toUInt32 := by
      simpa using same.symm.trans otherSame
    have indices : index = otherIndex := by
      rw [← toNat_toUInt32 (Nat.lt_trans small few), numbers,
        toNat_toUInt32 (Nat.lt_trans otherSmall few)]
    subst indices
    rw [isVar] at otherIsVar
    cases otherIsVar
    rfl

/-! ### Functions -/

theorem functionNamed?_eq_some {program : Program} {entry : String} {module : Code.Module}
    (declared : Declared program entry module) {id : FuncId} {decl : FunctionDecl}
    (found : program.function? id = some decl) :
    Source.functionNamed? program decl.name = some decl := by
  have isFunction : program.functions.toList[id.index]? = some decl := by
    simpa [Program.function?] using found
  rcases List.getElem?_eq_some_iff.mp isFunction with ⟨bound, isDecl⟩
  apply List.find?_eq_some_iff_getElem.mpr
  refine ⟨by simp, id.index, bound, isDecl, ?_⟩
  intro index earlier
  have small : index < 2 ^ 32 := Nat.lt_trans earlier (UInt32.toNat_lt id.number)
  simp only [Bool.not_eq_true', decide_eq_false_iff_not]
  intro same
  have isOther : program.function? ⟨index.toUInt32⟩ = program.functions.toList[index]? := by
    simp [Program.function?, FuncId.index, toNat_toUInt32 small]
  rw [List.getElem?_eq_getElem (Nat.lt_trans earlier bound)] at isOther
  have ids := declared.distinct _ _ _ _ isOther found same
  have numbers := congrArg (fun id : FuncId => id.number.toNat) ids
  simp only [toNat_toUInt32 small] at numbers
  exact absurd numbers (Nat.ne_of_lt earlier)

theorem types_of_declaredParams {program : Program} {ids : List VarId}
    {params : List Code.Parameter} (declares : ids.mapM (declaredParam program) = .ok params)
    {types : List Source.Ty}
    (areTypes : ids.map (fun param => (program.var? param).map VarDecl.ty) = types.map some) :
    params.map Code.Parameter.ty = types.map codeType := by
  induction ids generalizing params types with
  | nil =>
      cases declares
      rw [List.map_nil] at areTypes
      rw [List.map_eq_nil_iff.mp areTypes.symm]
      rfl
  | cons id ids induction =>
      rw [List.mapM_cons] at declares
      rcases bind_eq_ok.mp declares with ⟨param, first, rest⟩
      rcases bind_eq_ok.mp rest with ⟨others, second, same⟩
      cases same
      cases types with
      | nil => cases areTypes
      | cons ty types =>
          simp only [List.map_cons, List.cons.injEq] at areTypes ⊢
          refine ⟨?_, induction second areTypes.2⟩
          rcases Option.map_eq_some_iff.mp areTypes.1 with ⟨decl, found, rfl⟩
          simp only [declaredParam, found] at first
          cases first
          rfl

/-- The entry function is what the statements of the top level have been lowered to. -/
structure Enters (program : Program) (final : Session) (entry : String) (function : Code.Function)
    (place : Place) : Prop where
  found : final.cursor.module.function? entry = some function
  body : function.body = place.pruned.body
  lowers : LowersEntry program final place
  closed : function.body.Closed
  returns : function.signature.returns = .i64

namespace Generates

variable {program : Program} {callable : FuncId → Prop}
  {options : Options} {declared : Code.Module} {last : Session}

theorem library (generates : Generates program options declared last)
    (complete : Complete program options.entryFunction (.start (.ofModule declared)) last)
    {signature : Code.Signature} (member : signature ∈ StringLibrary.signatures) :
    last.cursor.module.function? signature.name = some (.declared signature .exported) := by
  have apart := library_apart generates.declares member
  rw [complete.others signature.name apart.1]
  · exact (declared_of_declareAll generates.declares).library signature member
  · intro isFunction
    rcases exists_of_mem_namesOf isFunction with ⟨id, decl, found, same⟩
    exact apart.2 id decl found same.symm

theorem signature (generates : Generates program options declared last)
    (complete : Complete program options.entryFunction (.start (.ofModule declared)) last)
    {id : FuncId} {decl : FunctionDecl} (found : program.function? id = some decl)
    {function : Code.Function}
    (foundFunction : last.cursor.module.function? decl.name = some function) :
    ∃ params, decl.params.mapM (declaredParam program) = .ok params ∧
      function.signature = ⟨decl.name, params, returnType decl.returns⟩ := by
  rcases (declared_of_declareAll generates.declares).functions id decl found with
    ⟨signature, isSignature, foundDeclared⟩
  have kept := complete.precedes.signatures decl.name
  have foundStart : (Session.start (.ofModule declared)).cursor.module.function? decl.name =
      some (.declared signature .exported) := foundDeclared
  rw [foundFunction, foundStart] at kept
  rcases bind_eq_ok.mp isSignature with ⟨params, given, same⟩
  exact ⟨params, given, (Option.some.inj kept).trans (Except.ok.inj same).symm⟩

end Generates

namespace Succeeds

variable {program : Program} {callable : FuncId → Prop}
  {options : Options} {declared : Code.Module} {last : Session}

/-- Functions that have been lowered are closed, because the module has been verified. -/
theorem closed (succeeds : Succeeds program options declared last) {name : String}
    {function : Code.Function} {place : Place}
    (found : last.cursor.module.function? name = some function)
    (body : function.body = place.pruned.body) (regular : place.Regular) :
    function.body.Closed := by
  have layout : function.body.layout = place.body.layout := by
    rw [body]
    rfl
  have indexed : function.body.Indexed := by
    rw [body]
    exact regular.indexed_prune
  have nonempty : function.body.layout ≠ [] := by
    rcases regular.entry with ⟨_, entry, _⟩
    intro empty
    rw [← layout, empty] at entry
    cases entry
  have checked := (Code.Module.verify_eq_ok.mp succeeds.verified).2 name function found nonempty
  have shape := Code.checkShape_eq_ok.mp (Code.Module.checkFunction_eq_ok.mp checked).1
  exact {
    found := indexed.known
    finished := fun id member block foundBlock =>
      (shape.2.2.1 block (Code.Body.mem_laidOut.mpr ⟨id, member, foundBlock⟩)).1
    targets := fun id member block foundBlock =>
      (shape.2.2.1 block (Code.Body.mem_laidOut.mpr ⟨id, member, foundBlock⟩)).2 }

theorem realizes (succeeds : Succeeds program options declared last)
    (complete : Complete program options.entryFunction (.start (.ofModule declared)) last)
    {id : FuncId} (member : id ∈ functionsOf (walkProgram program)) {decl : FunctionDecl}
    (found : program.function? id = some decl) :
    ∃ function place, Realizes program last decl function place := by
  have isDeclared := declared_of_declareAll succeeds.declares
  have named : decl.name ∈ namesOf program (walkProgram program) :=
    List.mem_filterMap.mpr ⟨id, member, by simp [found]⟩
  rcases complete.built decl.name named with
    ⟨other, otherDecl, place, function, otherFound, sameName, foundFunction, body, lowers⟩
  have same := isDeclared.distinct other id otherDecl decl otherFound found sameName
  subst same
  rw [found] at otherFound
  cases otherFound
  have lowersFunction := lowers last (.refl last)
  refine ⟨function, place, foundFunction, body, lowersFunction,
    succeeds.closed foundFunction body lowersFunction.regular.1, ?_⟩
  rcases succeeds.signature complete found foundFunction with ⟨params, _, same⟩
  rw [same]

theorem linked (succeeds : Succeeds program options declared last)
    (resolved : WellResolved program callable)
    (few : demand program (walkProgram program) < 2 ^ 28) : Linked program last where
  placed := (succeeds.records resolved few).globalsPlaced (length_globalVars_lt few)
  library := fun _ => succeeds.library (succeeds.complete resolved few)
  functions := by
    intro id member decl found
    have complete := succeeds.complete resolved few
    refine ⟨functionNamed?_eq_some (declared_of_declareAll succeeds.declares) found, ?_⟩
    rcases succeeds.realizes complete member found with ⟨function, place, realizes⟩
    rcases succeeds.signature complete found realizes.found with ⟨params, given, same⟩
    refine ⟨function, realizes.found, entry?_eq realizes.body realizes.lowers.regular.1,
      realizes.returns, ?_⟩
    intro types areTypes
    rw [same]
    exact types_of_declaredParams given areTypes

/-- Everything that a program calls has been lowered. -/
theorem realized (succeeds : Succeeds program options declared last) (resolved : Resolved program)
    (few : demand program (walkProgram program) < 2 ^ 28) : Realized program last where
  linked := succeeds.linked resolved few
  functions := by
    intro id member decl found
    rcases List.mem_filterMap.mp member with ⟨node, onWalk, isFunction⟩
    have distinct : decl.params.Nodup := by
      cases node with
      | function other =>
          cases isFunction
          exact resolved.typed _ onWalk decl found
      | _ => cases isFunction
    rcases resolved.functions id member with ⟨other, otherFound, typed⟩
    rw [found] at otherFound
    cases otherFound
    exact ⟨distinct, typed, succeeds.realizes (succeeds.complete resolved few) member found⟩

/-- The entry function has been lowered. -/
theorem enters (succeeds : Succeeds program options declared last)
    (resolved : WellResolved program callable)
    (few : demand program (walkProgram program) < 2 ^ 28) :
    ∃ function place, Enters program last options.entryFunction function place := by
  have complete := succeeds.complete resolved few
  rcases complete.entered with ⟨place, function, found, body, lowers⟩
  refine ⟨function, place, found, body, lowers, succeeds.closed found body lowers.regular.1, ?_⟩
  have kept := complete.precedes.signatures options.entryFunction
  have start : (Session.start (.ofModule declared)).cursor.module.function? options.entryFunction =
      some (.declared ⟨options.entryFunction, [], .i64⟩ .exported) :=
    (declared_of_declareAll succeeds.declares).start
  rw [found, start] at kept
  rw [Option.some.inj kept]
  rfl

end Succeeds

/-! ## Globals at the start -/

/-- A variable of the top level on the way through the program. -/
structure GlobalVar (program : Program) (id : VarId) (decl : VarDecl) : Prop where
  found : program.var? id = some decl
  topLevel : decl.scope = .topLevel
  onWalk : .var id ∈ walkProgram program

theorem of_mem_globalVars {program : Program} {id : VarId} {decl : VarDecl}
    (member : (id, decl) ∈ Source.globalVars program) : GlobalVar program id decl := by
  rcases List.mem_filterMap.mp member with ⟨node, onWalk, isNode⟩
  cases node with
  | var other =>
      simp only [Source.global?, Option.bind_eq_some_iff] at isNode
      rcases isNode with ⟨otherDecl, found, same⟩
      split at same
      · cases same
        exact ⟨found, ‹_›, onWalk⟩
      · cases same
  | _ => cases isNode

theorem hasType_of_literal? {program : Program} {callable : FuncId → Prop}
    {locals : List VarId} {decl : VarDecl}
    {datum : Source.Datum}
    (starts : ∀ initial, decl.initial = some initial →
      ExprTyped program callable locals initial decl.ty)
    (isLiteral : Source.literal? program decl = some datum) : datum.hasType decl.ty = true := by
  unfold Source.literal? at isLiteral
  generalize decl.ty = ty at starts
  cases something : decl.initial with
  | none => simp [something] at isLiteral
  | some id =>
      cases starts id something with
      | @intro expr operands found _ nodeTyped =>
          rcases expr with ⟨node, ty⟩
          simp only [something, Option.bind_some, found, Option.map_some] at isLiteral
          cases nodeTyped <;> cases isLiteral <;> rfl

theorem ofConstant_startConstant {program : Program} {callable : FuncId → Prop}
    {locals : List VarId} {id : VarId}
    {decl : VarDecl} (typed : VarTyped program callable locals id)
    (found : program.var? id = some decl) :
    Code.Value.ofConstant (startConstant program decl) = (Source.initialDatum program id).value ∧
      (Source.initialDatum program id).hasType decl.ty = true := by
  rcases typed with ⟨otherFound, notVoid, starts⟩
  rw [found] at otherFound
  cases otherFound
  simp only [Source.initialDatum, found, startConstant]
  cases isLiteral : Source.literal? program decl with
  | none =>
      cases ty : decl.ty with
      | boolean => exact ⟨rfl, rfl⟩
      | integer => exact ⟨Source.ofConstant_number 0, rfl⟩
      | string => exact ⟨rfl, rfl⟩
      | void => exact absurd ty notVoid
  | some datum =>
      have hasType := hasType_of_literal? starts isLiteral
      refine ⟨?_, hasType⟩
      cases datum with
      | truth value =>
          have ty : decl.ty = .boolean := by
            cases ty : decl.ty <;> rw [ty] at hasType <;> first | rfl | cases hasType
          simp [ty, Source.Datum.value, Code.Value.ofConstant]
      | number value =>
          have ty : decl.ty = .integer := by
            cases ty : decl.ty <;> rw [ty] at hasType <;> first | rfl | cases hasType
          simp [ty, Source.ofConstant_number]
      | text handle =>
          unfold Source.literal? at isLiteral
          split at isLiteral <;> cases isLiteral

theorem Session.Records.globalsMatch {program : Program} {callable : FuncId → Prop}
    {session : Session}
    (resolved : WellResolved program callable)
    (records : session.Records program (Source.globalVars program)) :
    GlobalsMatch program session (Source.initialDatum program)
      session.cursor.module.initialGlobals := by
  intro id decl global found topLevel stored
  rcases records.stores.known id decl _ found topLevel stored with ⟨index, isVar, same⟩
  have isGlobal : global = ⟨index.toUInt32⟩ := by simpa using same
  subst isGlobal
  have typed : ∃ locals, VarTyped program callable locals id :=
    resolved.typed _ (of_mem_globalVars (List.mem_of_getElem? isVar)).onWalk
  rcases typed with ⟨locals, typed⟩
  rcases ofConstant_startConstant typed found with ⟨value, hasType⟩
  refine ⟨?_, hasType⟩
  rw [Code.Module.initialGlobals, records.lists.global?_eq isVar, Option.map_some, ← value]
  rfl

end ScriptLowering.Lowering
