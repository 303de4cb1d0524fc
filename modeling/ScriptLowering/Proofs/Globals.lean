import Mathlib.Algebra.Group.Nat.Defs
import ScriptLowering.Proofs.ProgramEvaluation
import ScriptLowering.Proofs.UnchangedGlobals

/-! # The globals of a module

The variables of the top level become globals one after the other, in the order in which lowering
comes to their declarations. Nothing else adds a global or takes one for its storage.
-/

namespace ScriptLowering.Lowering

open Source (Program ExprId ExprNode ForInit FuncId Stmt StmtId VarDecl VarId)
open Code (BlockId Cursor GlobalId Operand)

variable {program : Program}

/-! ## Globals in order -/

/-- The constant that a variable of the top level starts with. -/
def startConstant (program : Program) (decl : VarDecl) : Code.Constant :=
  if decl.ty = .string then .null
  else
    match Source.literal? program decl with
    | some (.truth value) => .bool value
    | some (.number value) => .int value 64
    | _ => (Code.Constant.zero? (codeType decl.ty)).getD .null

def globalAt (program : Program) (decl : VarDecl) (index : Nat) : GlobalId × Code.Global :=
  (⟨index.toUInt32⟩, ⟨⟨index.toUInt32⟩, decl.name, codeType decl.ty, startConstant program decl,
    alignment decl.ty, .exported⟩)

/-- The globals of the session are the variables `vars`. -/
structure Session.Lists (program : Program) (vars : List (VarId × VarDecl)) (session : Session) :
    Prop where
  next : session.cursor.module.nextGlobal.toNat = vars.length
  entries : session.cursor.module.globals.entries =
    vars.zipIdx.map fun var => globalAt program var.1.2 var.2

/-- The variables of the top level that have storage are `vars`, and their storage is the global at
the same index. -/
structure Session.Stores (program : Program) (vars : List (VarId × VarDecl)) (session : Session) :
    Prop where
  stored : ∀ (index : Nat) id decl, vars[index]? = some (id, decl) →
    session.annotations.storageOf id = .ok (.global ⟨index.toUInt32⟩)
  known : ∀ id decl address, program.var? id = some decl → decl.scope = .topLevel →
    session.annotations.storageOf id = .ok address →
      ∃ index : Nat, vars[index]? = some (id, decl) ∧ address = .global ⟨index.toUInt32⟩

structure Session.Records (program : Program) (vars : List (VarId × VarDecl)) (session : Session) :
    Prop where
  lists : session.Lists program vars
  stores : session.Stores program vars

theorem Session.Lists.same {vars : List (VarId × VarDecl)} {session next : Session}
    (lists : session.Lists program vars) (same : session.cursor.SameGlobals next.cursor) :
    next.Lists program vars where
  next := by rw [same.next]; exact lists.next
  entries := by rw [same.globals]; exact lists.entries

theorem Session.Stores.same {vars : List (VarId × VarDecl)} {session next : Session}
    (stores : session.Stores program vars)
    (same : next.annotations.storage = session.annotations.storage) :
    next.Stores program vars where
  stored := by
    simp only [Annotations.storageOf, same]
    exact stores.stored
  known := by
    simp only [Annotations.storageOf, same]
    exact stores.known

theorem Session.Records.same {vars : List (VarId × VarDecl)} {session next : Session}
    (records : session.Records program vars) (same : session.SameGlobals next) :
    next.Records program vars :=
  ⟨records.lists.same same.cursor, records.stores.same same.storage⟩

theorem Session.Lists.addGlobal {vars : List (VarId × VarDecl)} {session next : Session}
    (lists : session.Lists program vars) (few : vars.length + 1 < 2 ^ 32) (id : VarId)
    {decl : VarDecl}
    (added : next.cursor.module = (session.cursor.module.addGlobal decl.name (codeType decl.ty)
      (startConstant program decl) (alignment decl.ty)).2) :
    next.Lists program (vars ++ [(id, decl)]) := by
  have number : session.cursor.module.nextGlobal = vars.length.toUInt32 := by
    rw [← lists.next]
    exact UInt32.toNat_inj.mp (by simp)
  have toNat : vars.length.toUInt32.toNat = vars.length := by
    rw [← number]
    exact lists.next
  refine ⟨?_, ?_⟩
  · rw [added]
    change (session.cursor.module.nextGlobal + 1).toNat = _
    rw [number, UInt32.toNat_add, toNat, List.length_append]
    simp only [UInt32.toNat_one, List.length_cons, List.length_nil]
    omega
  · rw [added]
    change Table.insertEntry _ _ session.cursor.module.globals.entries = _
    have fresh : (⟨session.cursor.module.nextGlobal⟩ : GlobalId) ∉
        session.cursor.module.globals.entries.map Prod.fst := by
      rw [lists.entries, number]
      intro member
      simp only [List.map_map, List.mem_map] at member
      rcases member with ⟨⟨var, index⟩, inside, same⟩
      have below := List.snd_lt_of_mem_zipIdx inside
      have numbers := congrArg (fun id : GlobalId => id.number.toNat) same
      simp only [Function.comp_apply, globalAt, toNat, Nat.toUInt32, UInt32.toNat_ofNat'] at numbers
      omega
    rw [Table.insertEntry_of_not_mem fresh, lists.entries, List.zipIdx_append, List.map_append,
      number]
    simp [globalAt]

theorem Session.Stores.setGlobal {vars : List (VarId × VarDecl)} {session next : Session}
    {id : VarId} {decl : VarDecl} (stores : session.Stores program vars)
    (found : program.var? id = some decl)
    (sets : session.annotations.setStorage id (.global ⟨vars.length.toUInt32⟩) =
      .ok next.annotations) : next.Stores program (vars ++ [(id, decl)]) where
  stored := by
    intro index other otherDecl isVar
    by_cases old : index < vars.length
    · rw [List.getElem?_append_left old] at isVar
      exact Annotations.storageOf_kept sets (stores.stored index other otherDecl isVar)
    · rw [List.getElem?_append_right (Nat.le_of_not_lt old), List.getElem?_singleton] at isVar
      split at isVar
      · cases isVar
        have same : index = vars.length := by omega
        rw [Annotations.storageOf_of_setStorage sets, if_pos rfl, same]
      · cases isVar
  known := by
    intro other otherDecl address otherFound topLevel stored
    rw [Annotations.storageOf_of_setStorage sets] at stored
    split at stored
    · rename_i same
      subst same
      cases stored
      rw [found] at otherFound
      cases otherFound
      exact ⟨vars.length, by simp, rfl⟩
    · rcases stores.known other otherDecl address otherFound topLevel stored with
        ⟨index, isVar, same⟩
      refine ⟨index, ?_, same⟩
      rw [List.getElem?_append_left (List.getElem?_eq_some_iff.mp isVar).1]
      exact isVar

theorem Session.Stores.setLocal {vars : List (VarId × VarDecl)} {session next : Session}
    {id : VarId} {address : Operand} (stores : session.Stores program vars)
    (isLocal : ∀ decl, program.var? id = some decl → decl.scope = .local)
    (sets : session.annotations.setStorage id address = .ok next.annotations) :
    next.Stores program vars where
  stored := fun index other decl isVar =>
    Annotations.storageOf_kept sets (stores.stored index other decl isVar)
  known := by
    intro other decl known found topLevel stored
    rw [Annotations.storageOf_of_setStorage sets, if_neg] at stored
    · exact stores.known other decl known found topLevel stored
    · intro same
      subst same
      rw [isLocal decl found] at topLevel
      cases topLevel

/-- The step adds the variables of the top level among `nodes`, if all parameters there are local
variables. -/
def Adds (program : Program) {α : Type} (nodes : List Node) (step : Lower α) : Prop :=
  (∀ id decl, Node.param id ∈ nodes → program.var? id = some decl → decl.scope = .local) →
  ∀ (vars : List (VarId × VarDecl)) (session : Session), session.Records program vars →
    vars.length + (nodes.filterMap (Source.global? program)).length < 2 ^ 32 →
    step.Ensures session (fun _ next =>
      next.Records program (vars ++ nodes.filterMap (Source.global? program))) fun _ => True

namespace Adds

variable {α β : Type} {nodes more : List Node}

theorem of_quiet {step : Lower α} (quiet : Quiet step)
    (nothing : nodes.filterMap (Source.global? program) = []) : Adds program nodes step := by
  intro _ vars session records _
  apply (quiet session).mono
  intro _ next same
  rw [nothing, List.append_nil]
  exact records.same same

theorem bind {step : Lower α} {rest : α → Lower β} (adds : Adds program nodes step)
    (restAdds : ∀ value, Adds program more (rest value)) :
    Adds program (nodes ++ more) (step >>= rest) := by
  intro areLocal vars session records few
  rw [List.filterMap_append, List.length_append] at few
  have first := adds (fun id decl member => areLocal id decl (List.mem_append_left _ member)) vars
    session records (by omega)
  apply first.bind
  intro value between recordsBetween
  have second := restAdds value
    (fun id decl member => areLocal id decl (List.mem_append_right _ member)) _ between
    recordsBetween (by rw [List.length_append]; omega)
  apply second.mono
  intro _ next recordsNext
  rw [List.filterMap_append, ← List.append_assoc]
  exact recordsNext

theorem nothing {step : Lower α} (quiet : Quiet step) : Adds program [] step := of_quiet quiet rfl

theorem after {step : Lower α} {rest : α → Lower β} (quiet : Quiet step)
    (restAdds : ∀ value, Adds program nodes (rest value)) : Adds program nodes (step >>= rest) :=
  bind (nothing quiet) restAdds

theorem thenQuiet {step : Lower α} {rest : α → Lower β} (adds : Adds program nodes step)
    (quiet : ∀ value, Quiet (rest value)) : Adds program nodes (step >>= rest) := by
  have both := adds.bind fun value => nothing (quiet value)
  rw [List.append_nil] at both
  exact both

theorem forM {items : List α} {walk : α → List Node} {body : α → Lower Unit}
    (adds : ∀ item, Adds program (walk item) (body item)) :
    Adds program (items.flatMap walk) (items.forM body) := by
  induction items with
  | nil => exact nothing (.pure _)
  | cons item rest induction =>
      rw [Lower.forM_cons, List.flatMap_cons]
      exact (adds item).bind fun _ => induction

end Adds

@[simp] theorem globals_walkExpr (id : ExprId) :
    (walkExpr program id).filterMap (Source.global? program) = [] := by
  refine List.filterMap_eq_nil_iff.mpr fun node member => ?_
  rcases exists_expr_of_mem_walkExprWithin program member with ⟨_, rfl⟩
  rfl

@[simp] theorem globals_walkExprs (ids : List ExprId) :
    (ids.flatMap (walkExpr program)).filterMap (Source.global? program) = [] := by
  induction ids with
  | nil => rfl
  | cons id rest induction => simp [induction]

/-! ## Declarations -/

/-- What the initial value of a variable is when it is a literal. -/
structure LiteralInitial (program : Program) (decl : VarDecl) (value : Option Operand) : Prop where
  truth : ∀ truth, Source.literal? program decl = some (.truth truth) →
    value = some (.ofBool truth)
  number : ∀ number, Source.literal? program decl = some (.number number) →
    value = some (.ofInt64 number)
  text : Source.literal? program decl = none → isLiteralInitial program decl = true →
    value.bind Operand.asConstant? = none

theorem isLiteralInitial_of_literal? {decl : VarDecl} {datum : Source.Datum}
    (isLiteral : Source.literal? program decl = some datum) :
    isLiteralInitial program decl = true := by
  unfold Source.literal? at isLiteral
  unfold isLiteralInitial
  cases found : decl.initial.bind program.expr? with
  | none => simp [found] at isLiteral
  | some expr =>
      simp only [found, Option.map_some] at isLiteral
      unfold Source.Expr.isLiteral
      cases node : expr.node <;> simp [node] at isLiteral ⊢

theorem LiteralInitial.globalInitial_eq {decl : VarDecl} {value : Option Operand}
    {initial : Code.Constant} (given : LiteralInitial program decl value)
    (starts : globalInitial decl (isLiteralInitial program decl) value = .ok initial) :
    initial = startConstant program decl := by
  unfold globalInitial at starts
  unfold startConstant
  by_cases isString : decl.ty = .string
  · rw [if_pos isString] at starts ⊢
    cases starts
    rfl
  rw [if_neg isString] at starts ⊢
  cases literal : Source.literal? program decl with
  | none =>
      cases isLiteral : isLiteralInitial program decl with
      | true =>
          rw [isLiteral, if_pos rfl, given.text literal isLiteral] at starts
          cases starts
      | false =>
          rw [isLiteral, if_neg Bool.false_ne_true] at starts
          cases starts
          rfl
  | some datum =>
      rw [if_pos (isLiteralInitial_of_literal? literal)] at starts
      cases datum with
      | truth truth =>
          rw [given.truth truth literal] at starts
          cases starts
          rfl
      | number number =>
          rw [given.number number literal] at starts
          cases starts
          rfl
      | text handle =>
          unfold Source.literal? at literal
          split at literal <;> cases literal

/-- The operand of a literal: strings are made when the program runs, the others are constants. -/
def LiteralOperand (node : ExprNode) (operand : Operand) : Prop :=
  match node with
  | .booleanLiteral value => operand = .ofBool value
  | .integerLiteral value => operand = .ofInt64 value
  | .stringLiteral _ => operand.asConstant? = none
  | _ => True

theorem eq_temp_of_define {cursor next : Cursor} {ty : Code.Ty}
    {instruction : Operand → Code.Instruction} {value : Operand}
    (defines : cursor.define ty instruction = (.ok value, next)) : ∃ id, value = .temp id := by
  unfold Cursor.define at defines
  split at defines
  · cases defines
  · split at defines
    · cases defines
    · cases defines
      exact ⟨_, rfl⟩

theorem ensures_emit_define (ty : Code.Ty) (instruction : Operand → Code.Instruction)
    (session : Session) :
    (Lower.emit fun cursor => cursor.define ty instruction).Ensures session
      (fun value _ => value.asConstant? = none) fun _ => True := by
  refine (Lower.Ensures.self _ session).bind fun _ _ _ =>
    .buildWith (fun _ _ => trivial) fun _ _ emits => ?_
  rcases eq_temp_of_define (Lower.of_emitted emits) with ⟨id, rfl⟩
  rfl

theorem ensures_lowerNode_literal (lower : ExprId → Lower Operand) (node : ExprNode)
    (session : Session) :
    (lowerNode program lower node).Ensures session
      (fun value _ => ∀ operand, value = some operand → LiteralOperand node operand)
      fun _ => True := by
  cases node with
  | booleanLiteral value =>
      refine .pure ?_
      rintro _ ⟨⟩
      rfl
  | integerLiteral value =>
      refine .pure ?_
      rintro _ ⟨⟩
      rfl
  | stringLiteral text =>
      apply Lower.Ensures.map
      refine .bind_ok rfl ?_
      apply (ensures_emit_define _ _ _).mono
      rintro value _ isNoConstant _ ⟨⟩
      exact isNoConstant
  | _ =>
      unfold Lower.Ensures
      split
      · intro _ _
        trivial
      · trivial

theorem ensures_lowerValue_literal {id : ExprId} {expr : Source.Expr}
    (found : program.expr? id = some expr) (session : Session) :
    (lowerValue program id).Ensures session
      (fun operand _ => LiteralOperand expr.node operand) fun _ => True := by
  have whole : (lowerExpr program id).Ensures session
      (fun value _ => ∀ operand, value = some operand → LiteralOperand expr.node operand)
      fun _ => True := by
    refine .orFault_bind (fun _ => trivial) fun other known => ?_
    rw [found] at known
    cases known
    apply (ensures_lowerNode_literal _ _ session).bind
    intro value between isLiteral
    apply (Quiet.recordValue id value between).bind
    intro _ next _
    exact .pure isLiteral
  apply whole.bind
  intro value between isLiteral
  cases value with
  | none => exact .of_error rfl trivial
  | some operand => exact .pure (isLiteral operand rfl)

theorem literalInitial_none {decl : VarDecl} (initial : decl.initial = none) :
    LiteralInitial program decl none := by
  refine ⟨?_, ?_, ?_⟩ <;> simp [Source.literal?, isLiteralInitial, initial]

theorem literalInitial_some {decl : VarDecl} {id : ExprId} (initial : decl.initial = some id)
    {operand : Operand}
    (isLiteral : ∀ expr, program.expr? id = some expr → LiteralOperand expr.node operand) :
    LiteralInitial program decl (some operand) := by
  cases found : program.expr? id with
  | none => refine ⟨?_, ?_, ?_⟩ <;> simp [Source.literal?, isLiteralInitial, initial, found]
  | some expr =>
      have isLiteral := isLiteral expr found
      rcases expr with ⟨node, ty⟩
      refine ⟨?_, ?_, ?_⟩ <;> cases node <;>
        simp_all [Source.literal?, isLiteralInitial, Source.Expr.isLiteral, LiteralOperand]

theorem ensures_lowerInitial (decl : VarDecl) (session : Session) :
    (lowerInitial program decl).Ensures session
      (fun value next => LiteralInitial program decl value ∧ session.SameGlobals next)
      fun _ => True := by
  refine Lower.Ensures.and ?_ (Quiet.lowerInitial decl session)
  unfold lowerInitial
  cases initial : decl.initial with
  | none => exact .pure (literalInitial_none initial)
  | some id =>
      apply Lower.Ensures.map
      have literal : (lowerValue program id).Ensures session
          (fun operand _ => ∀ expr, program.expr? id = some expr → LiteralOperand expr.node operand)
          fun _ => True := by
        cases found : program.expr? id with
        | none => exact (Lower.Ensures.self _ _).mono fun _ _ _ _ same => by cases same
        | some expr =>
            refine (ensures_lowerValue_literal found session).mono fun operand _ isLiteral => ?_
            rintro _ ⟨⟩
            exact isLiteral
      exact literal.mono fun operand _ isLiteral => literalInitial_some initial isLiteral

theorem adds_lowerGlobal {id : VarId} {decl : VarDecl} {value : Option Operand}
    (found : program.var? id = some decl) (topLevel : decl.scope = .topLevel)
    (isLiteral : LiteralInitial program decl value) :
    Adds program [.var id] (lowerGlobal program id decl value) := by
  intro _ vars session records few
  have isGlobal : [Node.var id].filterMap (Source.global? program) = [(id, decl)] := by
    simp [Source.global?, found, topLevel]
  rw [isGlobal] at few ⊢
  apply Lower.Ensures.consult_bind (fun _ _ => trivial)
  intro initial starts
  have isInitial := isLiteral.globalInitial_eq starts
  subst isInitial
  let global : GlobalId := ⟨session.cursor.module.nextGlobal⟩
  let added : Session := { session with cursor := { session.cursor with
    module := (session.cursor.module.addGlobal decl.name (codeType decl.ty)
      (startConstant program decl) (alignment decl.ty)).2 } }
  have isNext : global = ⟨vars.length.toUInt32⟩ := by
    rw [← records.lists.next]
    exact congrArg GlobalId.mk (UInt32.toNat_inj.mp (by simp))
  have lists : added.Lists program (vars ++ [(id, decl)]) :=
    records.lists.addGlobal few id rfl
  have sets : ∀ next : Session, added.SameGlobals next →
      (Lower.annotate fun annotations => annotations.setStorage id (.global global)).Ensures next
        (fun _ last => last.Records program (vars ++ [(id, decl)])) fun _ => True := by
    intro next same
    apply Lower.Ensures.of_bind_pure
    refine .annotate_bind (fun _ _ => trivial) fun annotations done => .pure ⟨?_, ?_⟩
    · exact (lists.same same.cursor).same ⟨rfl, rfl⟩
    · have stores : next.Stores program vars := records.stores.same same.storage
      rw [isNext] at done
      exact stores.setGlobal found done
  refine .bind_ok rfl ?_
  cases value with
  | none => exact sets added ⟨rfl, .refl _⟩
  | some value =>
      dsimp only
      split
      · apply (Quiet.insert _ added).bind
        intro _ next same
        exact sets next same
      · exact sets added ⟨rfl, .refl _⟩

theorem adds_setLocal {node : Node} {id : VarId} (address : Operand)
    (isLocal : ∀ decl, program.var? id = some decl → decl.scope = .local)
    (nothing : Source.global? program node = none) :
    Adds program [node]
      (Lower.annotate fun annotations => annotations.setStorage id address) := by
  intro _ vars session records _
  have noGlobals : [node].filterMap (Source.global? program) = [] := by simp [nothing]
  rw [noGlobals, List.append_nil]
  apply Lower.Ensures.of_bind_pure
  refine .annotate_bind (fun _ _ => trivial) fun annotations done => .pure ⟨?_, ?_⟩
  · exact records.lists.same ⟨rfl, rfl⟩
  · exact records.stores.setLocal isLocal done

theorem adds_lowerLocal {id : VarId} {decl : VarDecl} (value : Option Operand)
    (found : program.var? id = some decl) (isLocal : decl.scope = .local) :
    Adds program [.var id] (lowerLocal id decl value) := by
  have sets : ∀ slot, Adds program [.var id]
      (Lower.annotate fun annotations => annotations.setStorage id slot) := by
    intro slot
    apply adds_setLocal slot
    · intro other known
      rw [found] at known
      cases known
      exact isLocal
    · simp [Source.global?, found, isLocal]
  apply Adds.after (.define _ _)
  intro slot
  cases value with
  | none => exact sets slot
  | some value => exact .after (.insert _) fun _ => sets slot

theorem adds_lowerVarDecl (id : VarId) :
    Adds program (walkVar program id) (lowerVarDecl program id) := by
  intro areLocal vars session records few
  unfold lowerVarDecl
  unfold walkVar at few areLocal ⊢
  cases found : program.var? id with
  | none => exact .of_error rfl trivial
  | some decl =>
      simp only [found, List.filterMap_append, globals_walkExprs, List.nil_append] at few ⊢
      rw [Lower.orFault_some_bind]
      split
      · exact .of_error rfl trivial
      apply (ensures_lowerInitial decl session).bind
      rintro value between ⟨isLiteral, same⟩
      have noParams : ∀ other otherDecl, Node.param other ∈ [Node.var id] →
          program.var? other = some otherDecl → otherDecl.scope = .local := by simp
      cases scope : decl.scope with
      | topLevel =>
          exact adds_lowerGlobal found scope isLiteral noParams vars between (records.same same) few
      | «local» =>
          exact adds_lowerLocal value found scope noParams vars between (records.same same) few

theorem adds_lowerParam (id : VarId) (index : Nat) :
    Adds program [.param id] (lowerParam program id index) := by
  intro areLocal
  have isLocal : ∀ decl, program.var? id = some decl → decl.scope = .local :=
    fun decl => areLocal id decl (by simp)
  have adds : Adds program [.param id] (lowerParam program id index) :=
    .after (.orFault _ _) fun _ => .after (.define _ _) fun slot => .after (.insert _) fun _ =>
      adds_setLocal slot isLocal rfl
  exact adds areLocal

/-! ## Statements -/

theorem Adds.lowerValue (id : ExprId) : Adds program (walkExpr program id) (lowerValue program id) :=
  of_quiet (.lowerValue id) (globals_walkExpr id)

theorem Adds.lowerExprs (ids : List ExprId) :
    Adds program (ids.flatMap (walkExpr program))
      (ids.forM fun id => do let _ ← lowerExpr program id) :=
  of_quiet (.lowerExprs ids) (globals_walkExprs ids)

section Statements

variable {lower : StmtId → Lower Unit} {walk : StmtId → List Node}
  (adds : ∀ id, Adds program (walk id) (lower id))

include adds

theorem adds_lowerIf (condition : ExprId) (thenBody : StmtId) (elseBody : Option StmtId) :
    Adds program (walkExpr program condition ++ (walk thenBody ++ elseBody.toList.flatMap walk))
      (lowerIf program lower condition thenBody elseBody) := by
  refine (Adds.lowerValue condition).bind fun value => .after (.createBlock _) fun thenBlock =>
    .after (.createBlock _) fun endBlock => ?_
  cases elseBody with
  | none =>
      refine .after (.terminate _) fun _ => .after (.enter _ _) fun _ => ?_
      exact (adds thenBody).bind fun _ => .nothing (.bind (.leaveTo _) fun _ => .enter _ _)
  | some elseBody =>
      rw [Option.toList_some, List.flatMap_singleton]
      refine .after (.createBlock _) fun elseBlock => .after (.terminate _) fun _ =>
        .after (.enter _ _) fun _ => (adds thenBody).bind fun _ => .after (.leaveTo _) fun _ =>
          .after (.enter _ _) fun _ => ?_
      exact (adds elseBody).thenQuiet fun _ => .bind (.leaveTo _) fun _ => .enter _ _

theorem adds_lowerWhile (id : StmtId) (condition : ExprId) (body : StmtId) :
    Adds program (walkExpr program condition ++ walk body)
      (lowerWhile program lower id condition body) := by
  refine .after (.createBlock _) fun condBlock => .after (.createBlock _) fun bodyBlock =>
    .after (.createBlock _) fun endBlock => .after (.setLoop _ _) fun _ =>
      .after (.enter _ _) fun _ => (Adds.lowerValue condition).bind fun value => ?_
  refine .after (.terminate _) fun _ => .after (.enter _ _) fun _ => ?_
  exact (adds body).thenQuiet fun _ => .bind (.leaveTo _) fun _ => .enter _ _

theorem adds_lowerFor (id : StmtId) (initial : ForInit) (condition : Option ExprId)
    (updates : List ExprId) (body : StmtId) :
    Adds program (walkForInit program walk initial ++
        (condition.toList.flatMap (walkExpr program) ++
          (walk body ++ updates.flatMap (walkExpr program))))
      (lowerFor program lower id initial condition updates body) := by
  have begins : Adds program (walkForInit program walk initial)
      (lowerForInit program lower initial) := by
    cases initial with
    | decl stmt => exact adds stmt
    | exprs exprs => exact Adds.lowerExprs exprs
  have tests : ∀ endBlock, Quiet (lowerForCondition program endBlock condition) := by
    intro endBlock
    cases condition with
    | none => exact .pure _
    | some condition =>
        exact .bind (.createBlock _) fun _ => .bind (.lowerValue _) fun _ =>
          .bind (.terminate _) fun _ => .enter _ _
  have renews : ∀ updateBlock, Quiet (lowerForUpdates program updates updateBlock) := by
    intro updateBlock
    cases updateBlock with
    | none => exact .pure _
    | some updateBlock => exact .bind (.enter _ _) fun _ => .lowerExprs updates
  refine begins.bind fun _ => .after (.createBlock _) fun condBlock =>
    .after (.createBlock _) fun endBlock => .after (.enter _ _) fun _ =>
      .after (.createUpdateBlock _) fun updateBlock => .after (.setLoop _ _) fun _ => ?_
  refine (Adds.of_quiet (tests endBlock) (globals_walkExprs _)).bind fun _ =>
    (adds body).bind fun _ => ?_
  exact .of_quiet (.bind (renews updateBlock) fun _ => .bind (.leaveTo _) fun _ => .enter _ _)
    (globals_walkExprs _)

theorem adds_lowerFunctionDecl {finish : String → Lower Unit} (finishes : ∀ name, Quiet (finish name))
    (id : FuncId) :
    Adds program (walkFunction program walk id) (lowerFunctionDecl program finish lower id) := by
  unfold lowerFunctionDecl walkFunction
  cases program.function? id with
  | none =>
      intro _ vars session _ _
      exact .of_error rfl trivial
  | some decl =>
      rw [Lower.orFault_some_bind]
      have params : Adds program (decl.params.map .param)
          (decl.params.zipIdx.forM fun pair => lowerParam program pair.1 pair.2) := by
        have each : Adds program (decl.params.zipIdx.flatMap fun pair => [.param pair.1])
            (decl.params.zipIdx.forM fun pair => lowerParam program pair.1 pair.2) :=
          .forM fun pair => adds_lowerParam pair.1 pair.2
        have same : decl.params.map Node.param =
            decl.params.zipIdx.flatMap fun pair => [.param pair.1] := by
          rw [← List.map_eq_flatMap]
          conv_lhs => rw [← List.zipIdx_map_fst 0 decl.params, List.map_map]
          rfl
        rw [same]
        exact each
      have node : Adds program [.function id] Lower.cursor := .of_quiet .cursor rfl
      refine node.bind fun cursor => .after (.openFunction _) fun _ => params.bind fun _ =>
        (adds decl.body).thenQuiet fun _ => ?_
      have ending : Quiet (do
          finish decl.name
          Lower.moveCursor fun other => other.setPosition cursor.position) :=
        .bind (finishes _) fun _ => .setPosition _
      split
      · exact .bind (.returnIfLive _) fun _ => ending
      · exact ending

theorem adds_lowerNodeOf {finish : String → Lower Unit} (finishes : ∀ name, Quiet (finish name))
    (id : StmtId) (stmt : Stmt) :
    Adds program (walkNodeOf program walk stmt) (lowerNodeOf program finish lower id stmt) := by
  cases stmt with
  | expr expr => exact .of_quiet (.bind (.lowerExpr expr) fun _ => .pure _) (globals_walkExpr expr)
  | compound stmts => exact .forM adds
  | varDecl vars => exact .forM adds_lowerVarDecl
  | functionDecl func => exact adds_lowerFunctionDecl adds finishes func
  | ifThenElse condition thenBody elseBody => exact adds_lowerIf adds condition thenBody elseBody
  | whileLoop condition body => exact adds_lowerWhile adds id condition body
  | forLoop initial condition updates body =>
      exact adds_lowerFor adds id initial condition updates body
  | continueLoop target => exact .nothing (.bind (.consult _) fun _ => .terminate _)
  | breakLoop target => exact .nothing (.bind (.consult _) fun _ => .terminate _)
  | returnValue value =>
      cases value with
      | none => exact .nothing (.terminate _)
      | some expr =>
          exact .of_quiet (.bind (.lowerValue expr) fun _ => .terminate _) (globals_walkExprs _)

end Statements

theorem adds_lowerStmtWithin {finish : String → Lower Unit} (finishes : ∀ name, Quiet (finish name))
    (depth : Nat) (id : StmtId) :
    Adds program (walkStmtWithin program depth id) (lowerStmtWithin program finish depth id) := by
  induction depth generalizing id with
  | zero => exact .nothing (.fail _)
  | succ depth induction =>
      unfold lowerStmtWithin walkStmtWithin
      cases program.stmt? id with
      | none =>
          intro _ vars session _ _
          exact .of_error rfl trivial
      | some stmt =>
          have node : Adds program [.stmt id] (pure () : Lower Unit) := .of_quiet (.pure _) rfl
          exact node.bind fun _ => adds_lowerNodeOf induction finishes id stmt

/-- The globals of a lowered program are its variables of the top level, in order. -/
theorem records_of_lowerItems {options : Options} {module : Code.Module} {last : Session}
    (declared : SameTables module (.empty program.filename))
    (areLocal : ∀ id decl, Node.param id ∈ walkProgram program → program.var? id = some decl →
      decl.scope = .local) (few : (Source.globalVars program).length < 2 ^ 32)
    (lowers : lowerItems program (finishFunction options) options.entryFunction
      (.start (.ofModule module)) = .ok ((), last)) :
    last.Records program (Source.globalVars program) := by
  have items : Adds program (walkProgram program)
      (program.items.forM (lowerStmt program (finishFunction options))) :=
    .forM fun id => adds_lowerStmtWithin (fun _ => .finishFunction options _) _ id
  have whole : Adds program (walkProgram program)
      (lowerItems program (finishFunction options) options.entryFunction) :=
    .after (.openFunction _) fun _ => items.thenQuiet fun _ =>
      .bind (.returnIfLive _) fun _ => .finishFunction options _
  have starts : (Session.start (.ofModule module)).Records program [] := by
    refine ⟨⟨?_, ?_⟩, ⟨?_, ?_⟩⟩
    · change module.nextGlobal.toNat = 0
      rw [declared.nextGlobal]
      rfl
    · change module.globals.entries = []
      rw [declared.globals]
      rfl
    · intro index id decl isVar
      cases isVar
    · intro id decl address _ _ stored
      cases stored
  have ensures := whole areLocal [] _ starts (by simpa [Source.globalVars] using few)
  exact ensures.post_of_ok lowers

end ScriptLowering.Lowering
