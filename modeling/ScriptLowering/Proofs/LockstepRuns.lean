import ScriptLowering.Proofs.EarlyChecks
import ScriptLowering.Proofs.LockstepSessions
import ScriptLowering.Proofs.NodeOccurrences

/-! # Lowering side by side

The two runs lower the same statement of two programs that differ at most in the names of
variables. They stay side by side as long as every node that lowering comes to reads and writes
only what the link allows.
-/

namespace ScriptLowering.Source

/-- The name that an identifier is written with is not part of its meaning. -/
def ExprNode.nameless : ExprNode → ExprNode
  | .identifier _ decl => .identifier "" decl
  | .booleanLiteral value => .booleanLiteral value
  | .integerLiteral value => .integerLiteral value
  | .stringLiteral value => .stringLiteral value
  | .call callee args => .call callee args
  | .unary op operand => .unary op operand
  | .binary op left right => .binary op left right

def Expr.nameless (expr : Expr) : Expr := { expr with node := expr.node.nameless }

def VarDecl.rename (view : String → String) (decl : VarDecl) : VarDecl :=
  { decl with name := view decl.name }

/-- The programs have the same nodes up to the names of variables, of which only what `view` shows
is the same. -/
structure Program.Resembles (view : String → String) (program other : Program) : Prop where
  stmts : other.stmts = program.stmts
  functions : other.functions = program.functions
  exprs : other.exprs.map Expr.nameless = program.exprs.map Expr.nameless
  vars : other.vars.map (VarDecl.rename view) = program.vars.map (VarDecl.rename view)

namespace Program.Resembles

variable {view : String → String} {program other : Program}
  (same : program.Resembles view other)

theorem refl (view : String → String) (program : Program) : program.Resembles view program :=
  ⟨rfl, rfl, rfl, rfl⟩

include same

theorem stmt? (id : StmtId) : other.stmt? id = program.stmt? id := by
  simp only [Program.stmt?, same.stmts]

theorem function? (id : FuncId) : other.function? id = program.function? id := by
  simp only [Program.function?, same.functions]

theorem expr? (id : ExprId) : Option.Rel (fun expr mirrored : Expr =>
    mirrored.node.nameless = expr.node.nameless ∧ mirrored.ty = expr.ty)
    (program.expr? id) (other.expr? id) := by
  have exprs := congrArg (·[id.index]?) same.exprs
  simp only [Array.getElem?_map] at exprs
  change (other.expr? id).map _ = (program.expr? id).map _ at exprs
  revert exprs
  generalize program.expr? id = found
  generalize other.expr? id = mirrored
  intro exprs
  cases found with
  | none =>
      rw [Option.map_none, Option.map_eq_none_iff] at exprs
      subst exprs
      exact .none
  | some expr =>
      rcases Option.map_eq_some_iff.mp exprs with ⟨mirrored, rfl, equal⟩
      simp only [Expr.nameless, Expr.mk.injEq] at equal
      exact .some equal

theorem var? (id : VarId) : Option.Rel (fun decl mirrored : VarDecl =>
    mirrored.rename view = decl.rename view) (program.var? id) (other.var? id) := by
  have vars := congrArg (·[id.index]?) same.vars
  simp only [Array.getElem?_map] at vars
  change (other.var? id).map _ = (program.var? id).map _ at vars
  revert vars
  generalize program.var? id = found
  generalize other.var? id = mirrored
  intro vars
  cases found with
  | none =>
      rw [Option.map_none, Option.map_eq_none_iff] at vars
      subst vars
      exact .none
  | some decl =>
      rcases Option.map_eq_some_iff.mp vars with ⟨mirrored, rfl, equal⟩
      exact .some equal

theorem size_exprs : other.exprs.size = program.exprs.size := by
  simpa using congrArg Array.size same.exprs

theorem nodeCount_eq : other.nodeCount = program.nodeCount := by
  have vars : other.vars.size = program.vars.size := by
    simpa using congrArg Array.size same.vars
  simp only [nodeCount, same.stmts, same.functions, same.size_exprs, vars]

end Program.Resembles

theorem ExprNode.eq_of_nameless {node other : ExprNode} (same : other.nameless = node.nameless) :
    other = node ∨ ∃ name otherName decl, node = .identifier name decl ∧
      other = .identifier otherName decl := by
  cases node <;> cases other <;> simp_all [nameless]

theorem VarDecl.fields_of_rename {view : String → String} {decl other : VarDecl}
    (same : other.rename view = decl.rename view) :
    view other.name = view decl.name ∧ other.ty = decl.ty ∧ other.initial = decl.initial ∧
      other.scope = decl.scope := by
  simp only [rename, VarDecl.mk.injEq] at same
  exact ⟨same.1, same.2.1, same.2.2.1, same.2.2.2.1⟩

end ScriptLowering.Source

namespace ScriptLowering.Lowering

open Source (Program Expr ExprId ExprNode ForInit FuncId FunctionDecl Stmt StmtId VarDecl VarId)
open Code (BlockId Operand)

/-! ## What a link allows -/

def Session.ReturnsNothing (session : Session) (callee : String) : Prop :=
  ∃ function, session.cursor.module.function? callee = some function ∧
    function.signature.returns.isVoid = true

def Session.Valueless (session : Session) (program : Program) (id : ExprId) : Prop :=
  ∃ callee args ty, program.expr? id = some ⟨.call callee args, ty⟩ ∧
    session.ReturnsNothing callee

/-- Lowering the node reads and writes only what the link allows. -/
def Link.Allows (link : Link) (program : Program) : Node → Prop
  | .stmt id =>
      (∀ stmt, program.stmt? id = some stmt → isLoop stmt = true → link.own.loops id) ∧
        ∀ target, (Node.stmt id).jumpsTo? program = some target → link.common.loops target
  | .expr id =>
      (¬ link.left.Valueless program id → link.own.values id) ∧
        ∀ var, (Node.expr id).uses? program = some var → link.common.vars var
  | .var id => link.own.vars id ∧
      ∀ decl, program.var? id = some decl → decl.scope = .topLevel → link.grows
  | .param id => link.own.vars id
  | .function id => ∀ decl, program.function? id = some decl → link.own.functions decl.name

/-- The session with the cursor in a function. -/
def Session.inFunction (session : Session) (name : String) : Session :=
  { session with cursor := session.cursor.setPosition (.inFunction name) }

theorem buildFunction_inFunction (options : Options) (name : String) (fill : Lower Unit)
    (session : Session) :
    buildFunction options name fill (session.inFunction name) =
      buildFunction options name fill session :=
  rfl

namespace Link

variable {link : Link} {current : String} {program other : Program}
  (same : program.Resembles link.view other)

def Counterpart (link : Link) (value mirrored : Operand) : Prop :=
  mirrored = value.relabel link.change

def Counterparts (link : Link) (value mirrored : Option Operand) : Prop :=
  mirrored = value.map (Operand.relabel link.change)

/-! ## Expressions -/

section Operands

variable {lower otherLower : ExprId → Lower Operand}

include same in
theorem alike_lowerIdentifier {decl : VarId} (isCommon : link.common.vars decl) :
    link.Alike current link.Counterpart (lowerIdentifier program decl)
      (lowerIdentifier other decl) := by
  refine .orFault_bind (same.var? decl) fun var mirrored _ renamed => ?_
  refine Leads.bind (.storageOf isCommon) ?_
  rintro address _ rfl
  rw [(VarDecl.fields_of_rename renamed).2.1]
  exact .define _ fun _ => rfl

theorem alike_lowerCall (callee : String) {args : List ExprId}
    (alike : ∀ arg ∈ args, link.Alike current link.Counterpart (lower arg) (otherLower arg)) :
    link.Alike current (fun value mirrored => link.Counterparts value mirrored ∧
        (value.isSome = true → ¬ link.left.ReturnsNothing callee))
      (lowerCall lower callee args) (lowerCall otherLower callee args) := by
  intro first second agree
  have firstLooks : Lower.cursor first = .ok (first.cursor, first) := rfl
  have secondLooks : Lower.cursor second = .ok (second.cursor, second) := rfl
  have functions := agree.function_rel callee
  have signature := agree.signature_eq callee
  rw [lowerCall, lowerCall, Lower.bind_eq firstLooks, Lower.bind_eq secondLooks]
  revert functions signature
  generalize first.cursor.module.function? callee = found
  generalize second.cursor.module.function? callee = mirrored
  intro functions signature
  cases functions with
  | none => exact .failed rfl
  | @some function counterpart renamed =>
      rcases Code.Signature.types_of_rename renamed.1 with ⟨params, returns⟩
      have arity : counterpart.arity = function.arity := by
        simpa [Code.Function.arity] using congrArg List.length params
      simp only [arity, returns]
      split
      · refine (Leads.bind (Leads.mapM alike) ?_) first second agree
        rintro values _ rfl
        refine Leads.mono (.call callee _ values) fun value mirrored holds => ⟨holds.1, ?_⟩
        rintro isValue ⟨start, known, isVoid⟩
        rw [known, Option.map_some, Option.map_some, Option.some.injEq] at signature
        rw [← signature, holds.2 isValue] at isVoid
        cases isVoid
      · exact .failed rfl

include same in
theorem alike_lowerUnary (op : Source.UnaryOp) {operand : ExprId}
    (alike : link.Alike current link.Counterpart (lower operand) (otherLower operand)) :
    link.Alike current link.Counterpart (lowerUnary program lower op operand)
      (lowerUnary other otherLower op operand) := by
  refine .orFault_bind (same.expr? operand) fun expr mirrored _ typed => ?_
  rw [typed.2]
  split
  · refine alike.bind ?_
    rintro value _ rfl
    exact .define _ fun _ => rfl
  · exact .fail rfl

include same in
theorem alike_lowerAssignment {left right : ExprId}
    (reads : ∀ var, usedVar? program (.binary .assign left right) = some var →
      link.common.vars var)
    (alike : link.Alike current link.Counterpart (lower right) (otherLower right)) :
    link.Alike current link.Counterpart (lowerAssignment program lower left right)
      (lowerAssignment other otherLower left right) := by
  refine .orFault_bind (same.expr? left) fun target mirrored found equal => ?_
  have stores : ∀ decl, link.common.vars decl → link.Alike current link.Counterpart
      (do
        let value ← lower right
        let address ← Lower.consult fun annotations => annotations.storageOf decl
        Lower.append fun cursor => cursor.store address value
        return value)
      (do
        let value ← otherLower right
        let address ← Lower.consult fun annotations => annotations.storageOf decl
        Lower.append fun cursor => cursor.store address value
        return value) := by
    intro decl isCommon
    refine alike.bind ?_
    rintro value _ rfl
    refine Leads.bind (.storageOf isCommon) ?_
    rintro address _ rfl
    exact (Leads.insert (.store address value)).bind fun _ _ _ => .pure rfl
  rcases Source.ExprNode.eq_of_nameless equal.1 with equalNode |
    ⟨name, otherName, decl, isIdentifier, otherIsIdentifier⟩
  · rw [equalNode]
    split
    · rename_i decl isIdentifier
      exact stores decl (reads decl (by simp [usedVar?, found, isIdentifier]))
    · exact .fail rfl
  · rw [isIdentifier, otherIsIdentifier]
    exact stores decl (reads decl (by simp [usedVar?, found, isIdentifier]))

theorem alike_emitOperation (left right : Operand) (operation : Operation) :
    link.Alike current link.Counterpart (emitOperation left right operation)
      (emitOperation (left.relabel link.change) (right.relabel link.change) operation) := by
  cases operation with
  | arith op => exact .define _ fun _ => rfl
  | compare condition => exact .define _ fun _ => rfl
  | concat => exact .define _ fun _ => rfl
  | compareStrings condition =>
      refine Leads.bind (.define _ fun _ => rfl) ?_
      rintro order _ rfl
      exact .define _ fun _ => rfl

include same in
theorem alike_lowerBinary (op : Source.BinaryOp) {left right : ExprId}
    (reads : ∀ var, usedVar? program (.binary op left right) = some var → link.common.vars var)
    (alike : ∀ operand ∈ operandsOf (.binary op left right),
      link.Alike current link.Counterpart (lower operand) (otherLower operand)) :
    link.Alike current link.Counterpart (lowerBinary program lower op left right)
      (lowerBinary other otherLower op left right) := by
  unfold lowerBinary
  by_cases assigns : op = .assign
  · subst assigns
    exact alike_lowerAssignment same reads (alike right (by simp [operandsOf]))
  · rw [if_neg assigns, if_neg assigns]
    simp only [operandsOf, if_neg assigns, List.mem_cons, List.not_mem_nil, or_false,
      forall_eq_or_imp, forall_eq] at alike
    refine .orFault_bind (same.expr? left) fun expr mirrored _ typed => ?_
    rw [typed.2]
    split
    · exact .fail rfl
    · refine alike.1.bind ?_
      rintro leftValue _ rfl
      refine alike.2.bind ?_
      rintro rightValue _ rfl
      exact alike_emitOperation _ _ _

end Operands

theorem alike_requireValue (id : ExprId) (value : Option Operand) :
    link.Alike current link.Counterpart (requireValue id value)
      (requireValue id (value.map (Operand.relabel link.change))) := by
  cases value with
  | none => exact .fail rfl
  | some value => exact .pure rfl

def stringCall (session : Session) (result : Operand) : Code.Instruction :=
  .call (some result) StringLibrary.create [.data ⟨session.cursor.module.nextData⟩]

omit same in
theorem lowerStringLiteral_eq {session : Session} {place : Code.Place}
    (builds : session.Builds current place) (text : String) :
    lowerStringLiteral text session = .ok (.temp place.ready.freshTemp,
      (session.addText text).put current
        (place.ready.define StringLibrary.stringType (stringCall session))) := by
  have adds : Lower.buildWith (fun cursor => .ok ((cursor.module.addText text).1,
      { cursor with module := (cursor.module.addText text).2 })) session =
        .ok (⟨session.cursor.module.nextData⟩, session.addText text) := rfl
  have standing : (session.addText text).Builds current place :=
    ⟨builds.position, builds.body⟩
  exact (Lower.bind_eq adds).trans (emit_define_eq standing _ _)

omit same in
theorem map_eq {α β : Type} {step : Lower α} {convert : α → β} {session next : Session} {value : α}
    (runs : step session = .ok (value, next)) :
    (convert <$> step) session = .ok (convert value, next) := by
  have converts : convert <$> step = step >>= fun value => pure (convert value) := rfl
  rw [converts, Lower.bind_eq runs]
  rfl

/-- An expression is recorded, in a session where the text of a literal is added. -/
def recordText (session : Session) (id : ExprId) (value : Operand) (text : String) : Session :=
  Session.addText { session with annotations :=
    { session.annotations with values := session.annotations.values.insert id value } } text

/-- A string literal is lowered and recorded in one go, because the data takes a number before the
expression has a value. -/
def lowerText (id : ExprId) (text : String) : Lower (Option Operand) := do
  let value ← some <$> lowerStringLiteral text
  recordValue id value
  return value

omit same in
theorem lowerText_eq {session : Session} {place : Code.Place}
    (builds : session.Builds current place) (id : ExprId) (text : String) :
    lowerText id text session =
      if session.annotations.values.contains id then .error (.program (.loweredTwice id))
      else .ok (some (.temp place.ready.freshTemp),
        (recordText session id (.temp place.ready.freshTemp) text).put current
          (place.ready.define StringLibrary.stringType (stringCall session))) := by
  have lowers : (some <$> lowerStringLiteral text) session = _ :=
    map_eq (lowerStringLiteral_eq builds text)
  rw [lowerText, Lower.bind_eq lowers]
  cases known : session.annotations.values.contains id with
  | true =>
      refine Lower.bind_eq_error ?_
      simp only [recordValue, Lower.annotate, Annotations.setValue, Session.annotations_put,
        Session.addText, known, if_true]
  | false =>
      have records : recordValue id (some (.temp place.ready.freshTemp))
          ((session.addText text).put current
            (place.ready.define StringLibrary.stringType (stringCall session))) =
          .ok ((), (recordText session id (.temp place.ready.freshTemp) text).put current
            (place.ready.define StringLibrary.stringType (stringCall session))) := by
        simp only [recordValue, Lower.annotate, Annotations.setValue, Session.annotations_put,
          Session.addText, known, Bool.false_eq_true, if_false]
        rfl
      exact Lower.bind_eq records

omit same in
theorem room_of_unrecorded {session : Session} {id : ExprId} (counts : session.Counts)
    (unknown : session.annotations.values.contains id = false) (value : Operand) :
    session.cursor.module.data.size < (session.annotations.values.insert id value).size := by
  have absent : id ∉ session.annotations.values.keys := by
    rw [← Table.contains_iff, unknown]
    exact Bool.false_ne_true
  rw [Table.size_insert absent]
  exact Nat.lt_succ_of_le counts.few

omit same in
theorem alike_lowerText {id : ExprId} (isOwn : link.own.values id) (text : String) :
    link.Alike current link.Counterparts (lowerText id text) (lowerText id text) := by
  intro first second agree
  rcases agree.stands with ⟨place, firstBuilds, secondBuilds⟩
  have known := agree.values.contains_eq (link.within.values id isOwn)
  rw [lowerText_eq firstBuilds, lowerText_eq secondBuilds, known]
  cases unknown : first.annotations.values.contains id with
  | true => exact .failed rfl
  | false =>
      rw [unknown] at known
      have recorded := agree.setValue isOwn (.temp place.ready.freshTemp)
      rcases recorded.addText (room_of_unrecorded agree.firstCounts unknown _)
        (room_of_unrecorded agree.secondCounts known _) text with ⟨added, shifts⟩
      have natural : (place.ready.define StringLibrary.stringType (stringCall first)).relabel
          link.change = (place.relabel link.change).ready.define StringLibrary.stringType
            (stringCall second) := by
        rw [← Code.Place.relabel_ready]
        refine Code.Place.relabel_define _ _ _ fun temp => ?_
        simp only [stringCall, Code.Instruction.relabel, List.map_cons, Operand.relabel_data,
          List.map_nil]
        rw [show link.change ⟨first.cursor.module.nextData⟩ = _ from shifts]
      have agrees := added.put (place.ready.define StringLibrary.stringType (stringCall first))
      rw [natural] at agrees
      rw [← Code.Place.relabel_ready] at agrees ⊢
      exact .done rfl agrees

include same in
theorem alike_lowerNode {lower otherLower : ExprId → Lower Operand} {node mirrored : ExprNode}
    (nameless : mirrored.nameless = node.nameless) (notText : ∀ text, node ≠ .stringLiteral text)
    (reads : ∀ var, usedVar? program node = some var → link.common.vars var)
    (alike : ∀ operand ∈ operandsOf node,
      link.Alike current link.Counterpart (lower operand) (otherLower operand)) :
    link.Alike current (fun value counterpart => link.Counterparts value counterpart ∧
        (value.isSome = true → ∀ callee args, node = .call callee args →
          ¬ link.left.ReturnsNothing callee))
      (lowerNode program lower node) (lowerNode other otherLower mirrored) := by
  rcases Source.ExprNode.eq_of_nameless nameless with rfl | ⟨name, otherName, decl, rfl, rfl⟩
  · cases mirrored with
    | booleanLiteral value => exact .pure ⟨rfl, by simp⟩
    | integerLiteral value => exact .pure ⟨rfl, by simp⟩
    | stringLiteral text => exact absurd rfl (notText text)
    | identifier name decl =>
        refine (alike_lowerIdentifier same (reads decl rfl)).map ?_
        rintro value _ rfl
        exact ⟨rfl, by simp⟩
    | call callee args =>
        refine (alike_lowerCall callee alike).mono fun value counterpart holds => ⟨holds.1, ?_⟩
        rintro isValue other others ⟨⟩
        exact holds.2 isValue
    | unary op operand =>
        refine (alike_lowerUnary same op (alike operand (by simp [operandsOf]))).map ?_
        rintro value _ rfl
        exact ⟨rfl, by simp⟩
    | binary op left right =>
        refine (alike_lowerBinary same op reads alike).map ?_
        rintro value _ rfl
        exact ⟨rfl, by simp⟩
  · refine (alike_lowerIdentifier same (reads decl rfl)).map ?_
    rintro value _ rfl
    exact ⟨rfl, by simp⟩

omit same in
theorem alike_recordValue {id : ExprId} {value : Option Operand}
    (isOwn : value.isSome = true → link.own.values id) :
    link.Alike current Anyhow (recordValue id value)
      (recordValue id (value.map (Operand.relabel link.change))) := by
  cases value with
  | none => exact .pure trivial
  | some value => exact .setValue (isOwn rfl) value

include same in
theorem alike_lowerExprWithin (depth : Nat) (id : ExprId)
    (allowed : ∀ node ∈ walkExprWithin program depth id, link.Allows program node) :
    link.Alike current link.Counterparts (lowerExprWithin program depth id)
      (lowerExprWithin other depth id) := by
  induction depth generalizing id with
  | zero => exact .fail rfl
  | succ depth induction =>
      rw [lowerExprWithin, lowerExprWithin]
      refine .orFault_bind (same.expr? id) fun expr mirrored found equal => ?_
      have here : link.Allows program (.expr id) := allowed _ List.mem_cons_self
      have reads : ∀ var, usedVar? program expr.node = some var → link.common.vars var :=
        fun var uses => here.2 var (by simp [Node.uses?, found, uses])
      have operands : ∀ operand ∈ operandsOf expr.node, link.Alike current link.Counterpart
          (do requireValue operand (← lowerExprWithin program depth operand))
          (do requireValue operand (← lowerExprWithin other depth operand)) := by
        intro operand member
        refine (induction operand fun node inside => allowed node ?_).bind ?_
        · simp only [walkExprWithin, found]
          exact List.mem_cons_of_mem _ (List.mem_flatMap.mpr ⟨operand, member, inside⟩)
        · rintro value _ rfl
          exact alike_requireValue operand value
      by_cases isText : ∃ text, expr.node = .stringLiteral text
      · rcases isText with ⟨text, isText⟩
        have valued : ¬ link.left.Valueless program id := by
          rintro ⟨callee, args, ty, isCall, _⟩
          rw [found, Option.some.injEq] at isCall
          subst isCall
          cases isText
        rcases Source.ExprNode.eq_of_nameless equal.1 with equalNode |
          ⟨name, otherName, decl, isIdentifier, _⟩
        · rw [equalNode, isText]
          exact alike_lowerText (here.1 valued) text
        · rw [isText] at isIdentifier
          cases isIdentifier
      · have notText : ∀ text, expr.node ≠ .stringLiteral text :=
          fun text isLiteral => isText ⟨text, isLiteral⟩
        refine (alike_lowerNode same equal.1 notText reads operands).bind ?_
        rintro value _ ⟨rfl, valued⟩
        refine (alike_recordValue fun isValue => here.1 ?_).bind fun _ _ _ => .pure rfl
        rintro ⟨callee, args, ty, isCall, nothing⟩
        rw [found, Option.some.injEq] at isCall
        subst isCall
        exact valued isValue callee args rfl nothing

include same in
theorem alike_lowerExpr {id : ExprId}
    (allowed : ∀ node ∈ walkExpr program id, link.Allows program node) :
    link.Alike current link.Counterparts (lowerExpr program id) (lowerExpr other id) := by
  have depths : exprDepth other = exprDepth program := by
    simp only [exprDepth, same.size_exprs]
  rw [lowerExpr, lowerExpr, depths]
  exact alike_lowerExprWithin same _ id allowed

include same in
theorem alike_lowerValue {id : ExprId}
    (allowed : ∀ node ∈ walkExpr program id, link.Allows program node) :
    link.Alike current link.Counterpart (lowerValue program id) (lowerValue other id) := by
  refine (alike_lowerExpr same allowed).bind ?_
  rintro value _ rfl
  exact alike_requireValue id value

include same in
theorem alike_lowerEach {ids : List ExprId}
    (allowed : ∀ node ∈ ids.flatMap (walkExpr program), link.Allows program node) :
    link.Alike current Anyhow (ids.forM fun id => do let _ ← lowerExpr program id)
      (ids.forM fun id => do let _ ← lowerExpr other id) := by
  refine .forM fun id member => Leads.bind (alike_lowerExpr same fun node inside =>
    allowed node (List.mem_flatMap.mpr ⟨id, member, inside⟩)) fun _ _ _ => .pure trivial

/-! ## Variables -/

include same in
theorem alike_lowerInitial {decl mirrored : VarDecl} (initials : mirrored.initial = decl.initial)
    (allowed : ∀ node ∈ decl.initial.toList.flatMap (walkExpr program),
      link.Allows program node) :
    link.Alike current link.Counterparts (lowerInitial program decl)
      (lowerInitial other mirrored) := by
  rw [lowerInitial, lowerInitial, initials]
  cases starts : decl.initial with
  | none => exact .pure rfl
  | some expr =>
      refine (alike_lowerValue same fun node inside => allowed node ?_).map ?_
      · simpa [starts] using inside
      · rintro value _ rfl
        rfl

include same in
theorem isLiteralInitial_eq {decl mirrored : VarDecl} (initials : mirrored.initial = decl.initial) :
    isLiteralInitial other mirrored = isLiteralInitial program decl := by
  simp only [isLiteralInitial, initials]
  cases decl.initial with
  | none => rfl
  | some id =>
      have exprs := same.expr? id
      simp only [Option.bind_some]
      revert exprs
      generalize program.expr? id = found
      generalize other.expr? id = counterpart
      intro exprs
      cases exprs with
      | none => rfl
      | some equal =>
          rcases Source.ExprNode.eq_of_nameless equal.1 with equalNode |
            ⟨name, otherName, var, isIdentifier, otherIsIdentifier⟩
          · simp only [Expr.isLiteral, equalNode]
          · simp only [Expr.isLiteral, isIdentifier, otherIsIdentifier]

omit same in
theorem globalInitial_rel {decl mirrored : VarDecl} (types : mirrored.ty = decl.ty)
    (isLiteral : Bool) (value : Option Operand) :
    (∃ fault otherFault, globalInitial decl isLiteral value = .error fault ∧
      globalInitial mirrored isLiteral (value.map (Operand.relabel link.change)) =
        .error otherFault) ∨
    ∃ constant, globalInitial decl isLiteral value = .ok constant ∧
      globalInitial mirrored isLiteral (value.map (Operand.relabel link.change)) =
        .ok constant := by
  have constants : (value.map (Operand.relabel link.change)).bind Operand.asConstant? =
      value.bind Operand.asConstant? := by
    cases value <;> simp
  simp only [globalInitial, types, constants]
  split
  · exact .inr ⟨_, rfl, rfl⟩
  split
  · cases value.bind Operand.asConstant? with
    | none => exact .inl ⟨_, _, rfl, rfl⟩
    | some constant => exact .inr ⟨constant, rfl, rfl⟩
  · exact .inr ⟨_, rfl, rfl⟩

def addsGlobal (name : String) (ty : Code.Ty) (initial : Code.Constant) (align : UInt32)
    (cursor : Code.Cursor) : Except Code.BuildError (Code.GlobalId × Code.Cursor) :=
  .ok ((cursor.module.addGlobal name ty initial align).1,
    { cursor with module := (cursor.module.addGlobal name ty initial align).2 })

include same in
theorem alike_lowerGlobal {id : VarId} {decl mirrored : VarDecl}
    (renamed : mirrored.rename link.view = decl.rename link.view) (grows : link.grows)
    (isOwn : link.own.vars id) (value : Option Operand) :
    link.Alike current Anyhow (lowerGlobal program id decl value)
      (lowerGlobal other id mirrored (value.map (Operand.relabel link.change))) := by
  rcases VarDecl.fields_of_rename renamed with ⟨names, types, initials, _⟩
  rw [lowerGlobal, lowerGlobal, isLiteralInitial_eq same initials, types]
  have starts : link.Alike current (fun initial counterpart => counterpart = initial)
      (Lower.consult fun _ => globalInitial decl (isLiteralInitial program decl) value)
      (Lower.consult fun _ => globalInitial mirrored (isLiteralInitial program decl)
        (value.map (Operand.relabel link.change))) := by
    refine .consult fun _ _ _ => ?_
    rcases globalInitial_rel types (isLiteralInitial program decl) value with
      ⟨fault, otherFault, refused, otherRefused⟩ | ⟨constant, found, otherFound⟩
    · exact .inl ⟨fault, otherFault, refused, otherRefused⟩
    · exact .inr ⟨constant, constant, found, otherFound, rfl⟩
  refine starts.bind ?_
  rintro _ initial rfl
  have adds : link.Alike current (fun global counterpart => counterpart = global)
      (Lower.buildWith (addsGlobal decl.name (codeType decl.ty) initial (alignment decl.ty)))
      (Lower.buildWith (addsGlobal mirrored.name (codeType decl.ty) initial
        (alignment decl.ty))) := by
    intro first second agree
    refine .done ?_ (agree.addGlobal grows names _ _ _)
    exact congrArg Code.GlobalId.mk (agree.globals grows).2
  refine adds.bind ?_
  rintro _ global rfl
  cases value with
  | none => exact .setStorage isOwn (.global global)
  | some value =>
      simp only [Option.map_some]
      split
      · exact (Leads.insert (.store (.global global) value)).bind fun _ _ _ =>
          .setStorage isOwn (.global global)
      · exact .setStorage isOwn (.global global)

omit same in
theorem alike_lowerLocal {id : VarId} {decl mirrored : VarDecl} (types : mirrored.ty = decl.ty)
    (isOwn : link.own.vars id) (value : Option Operand) :
    link.Alike current Anyhow (lowerLocal id decl value)
      (lowerLocal id mirrored (value.map (Operand.relabel link.change))) := by
  rw [lowerLocal, lowerLocal, types]
  refine Leads.bind (.define _ fun _ => rfl) ?_
  rintro slot _ rfl
  cases value with
  | none => exact .setStorage isOwn slot
  | some value =>
      exact (Leads.insert (.store slot value)).bind fun _ _ _ => .setStorage isOwn slot

include same in
theorem alike_lowerVarDecl {id : VarId}
    (allowed : ∀ node ∈ walkVar program id, link.Allows program node) :
    link.Alike current Anyhow (lowerVarDecl program id) (lowerVarDecl other id) := by
  refine .orFault_bind (same.var? id) fun decl mirrored found renamed => ?_
  rcases VarDecl.fields_of_rename renamed with ⟨names, types, initials, scopes⟩
  have here : link.Allows program (.var id) := allowed _ (by simp [walkVar, found])
  rw [types]
  split
  · exact .fail rfl
  · refine (alike_lowerInitial same initials fun node inside => allowed node ?_).bind ?_
    · simp only [walkVar, found]
      exact List.mem_append_left _ inside
    · rintro value _ rfl
      rw [scopes]
      cases scope : decl.scope with
      | topLevel => exact alike_lowerGlobal same renamed (here.2 decl found scope) here.1 value
      | «local» => exact alike_lowerLocal types here.1 value

include same in
theorem alike_lowerParam {id : VarId} (index : Nat) (allowed : link.Allows program (.param id)) :
    link.Alike current Anyhow (lowerParam program id index) (lowerParam other id index) := by
  refine .orFault_bind (same.var? id) fun decl mirrored _ renamed => ?_
  rw [(VarDecl.fields_of_rename renamed).2.1]
  refine Leads.bind (.define _ fun _ => rfl) ?_
  rintro slot _ rfl
  exact (Leads.insert (.store slot (.param ⟨index.toUInt32⟩))).bind fun _ _ _ =>
    .setStorage allowed slot

/-! ## Statements

`lower` and `otherLower` lower a statement inside the one at hand, and `walk` lists its nodes. -/

section Statements

variable {lower otherLower : StmtId → Lower Unit} {walk : StmtId → List Node}
  (alike : ∀ name id, (∀ node ∈ walk id, link.Allows program node) →
    link.Alike name Anyhow (lower id) (otherLower id))

include same alike in
theorem alike_lowerIf {condition : ExprId} {thenBody : StmtId} {elseBody : Option StmtId}
    (allowed : ∀ node ∈ walkExpr program condition ++
      (walk thenBody ++ elseBody.toList.flatMap walk), link.Allows program node) :
    link.Alike current Anyhow (lowerIf program lower condition thenBody elseBody)
      (lowerIf other otherLower condition thenBody elseBody) := by
  simp only [List.mem_append, or_imp, forall_and] at allowed
  refine (alike_lowerValue same allowed.1).bind ?_
  rintro value _ rfl
  refine (Leads.createBlock _).bind ?_
  rintro _ thenBlock rfl
  refine (Leads.createBlock _).bind ?_
  rintro _ endBlock rfl
  have thenPart := alike current thenBody allowed.2.1
  cases elseBody with
  | none =>
      exact (Leads.terminate (.branch value thenBlock endBlock)).bind fun _ _ _ =>
        (Leads.enter thenBlock false).bind fun _ _ _ => thenPart.bind fun _ _ _ =>
          (Leads.leaveTo endBlock).bind fun _ _ _ => Leads.enter endBlock true
  | some elseBody =>
      have elsePart := alike current elseBody (by simpa using allowed.2.2)
      refine (Leads.createBlock _).bind ?_
      rintro _ elseBlock rfl
      exact (Leads.terminate (.branch value thenBlock elseBlock)).bind fun _ _ _ =>
        (Leads.enter thenBlock false).bind fun _ _ _ => thenPart.bind fun _ _ _ =>
          (Leads.leaveTo endBlock).bind fun _ _ _ => (Leads.enter elseBlock false).bind
            fun _ _ _ => elsePart.bind fun _ _ _ => (Leads.leaveTo endBlock).bind
              fun _ _ _ => Leads.enter endBlock true

include same alike in
theorem alike_lowerWhile {id : StmtId} {condition : ExprId} {body : StmtId}
    (isOwn : link.own.loops id)
    (allowed : ∀ node ∈ walkExpr program condition ++ walk body, link.Allows program node) :
    link.Alike current Anyhow (lowerWhile program lower id condition body)
      (lowerWhile other otherLower id condition body) := by
  simp only [List.mem_append, or_imp, forall_and] at allowed
  refine (Leads.createBlock _).bind ?_
  rintro _ condBlock rfl
  refine (Leads.createBlock _).bind ?_
  rintro _ bodyBlock rfl
  refine (Leads.createBlock _).bind ?_
  rintro _ endBlock rfl
  refine (Leads.setLoop isOwn _).bind fun _ _ _ => (Leads.enter condBlock false).bind
    fun _ _ _ => (alike_lowerValue same allowed.1).bind ?_
  rintro value _ rfl
  exact (Leads.terminate (.branch value bodyBlock endBlock)).bind fun _ _ _ =>
    (Leads.enter bodyBlock false).bind fun _ _ _ => (alike current body allowed.2).bind
      fun _ _ _ => (Leads.leaveTo condBlock).bind fun _ _ _ => Leads.enter endBlock true

include same alike in
theorem alike_lowerForInit {initial : ForInit}
    (allowed : ∀ node ∈ walkForInit program walk initial, link.Allows program node) :
    link.Alike current Anyhow (lowerForInit program lower initial)
      (lowerForInit other otherLower initial) := by
  cases initial with
  | decl stmt => exact alike current stmt allowed
  | exprs exprs => exact alike_lowerEach same allowed

omit same in
theorem alike_createUpdateBlock (updates : List ExprId) :
    link.Alike current (fun block counterpart => counterpart = block) (createUpdateBlock updates)
      (createUpdateBlock updates) := by
  unfold createUpdateBlock
  split
  · exact .pure rfl
  · refine (Leads.createBlock _).map ?_
    rintro _ block rfl
    rfl

include same in
theorem alike_lowerForCondition (endBlock : BlockId) {condition : Option ExprId}
    (allowed : ∀ node ∈ condition.toList.flatMap (walkExpr program), link.Allows program node) :
    link.Alike current Anyhow (lowerForCondition program endBlock condition)
      (lowerForCondition other endBlock condition) := by
  cases condition with
  | none => exact .pure trivial
  | some condition =>
      refine (Leads.createBlock _).bind ?_
      rintro _ bodyBlock rfl
      refine (alike_lowerValue same (by simpa using allowed)).bind ?_
      rintro value _ rfl
      exact (Leads.terminate (.branch value bodyBlock endBlock)).bind fun _ _ _ =>
        Leads.enter bodyBlock false

include same in
theorem alike_lowerForUpdates {updates : List ExprId} (updateBlock : Option BlockId)
    (allowed : ∀ node ∈ updates.flatMap (walkExpr program), link.Allows program node) :
    link.Alike current Anyhow (lowerForUpdates program updates updateBlock)
      (lowerForUpdates other updates updateBlock) := by
  cases updateBlock with
  | none => exact .pure trivial
  | some block => exact (Leads.enter block false).bind fun _ _ _ => alike_lowerEach same allowed

include same alike in
theorem alike_lowerFor {id : StmtId} {initial : ForInit} {condition : Option ExprId}
    {updates : List ExprId} {body : StmtId} (isOwn : link.own.loops id)
    (allowed : ∀ node ∈ walkForInit program walk initial ++
      (condition.toList.flatMap (walkExpr program) ++
        (walk body ++ updates.flatMap (walkExpr program))), link.Allows program node) :
    link.Alike current Anyhow (lowerFor program lower id initial condition updates body)
      (lowerFor other otherLower id initial condition updates body) := by
  simp only [List.mem_append, or_imp, forall_and] at allowed
  refine (alike_lowerForInit same alike allowed.1).bind fun _ _ _ => (Leads.createBlock _).bind ?_
  rintro _ condBlock rfl
  refine (Leads.createBlock _).bind ?_
  rintro _ endBlock rfl
  refine (Leads.enter condBlock false).bind fun _ _ _ => (alike_createUpdateBlock updates).bind ?_
  rintro _ updateBlock rfl
  exact (Leads.setLoop isOwn _).bind fun _ _ _ =>
    (alike_lowerForCondition same endBlock allowed.2.1).bind fun _ _ _ =>
      (alike current body allowed.2.2.1).bind fun _ _ _ =>
        (alike_lowerForUpdates same updateBlock allowed.2.2.2).bind fun _ _ _ =>
          (Leads.leaveTo condBlock).bind fun _ _ _ => Leads.enter endBlock true

include same in
theorem alike_lowerReturn {value : Option ExprId}
    (allowed : ∀ node ∈ value.toList.flatMap (walkExpr program), link.Allows program node) :
    link.Alike current Anyhow (lowerReturn program value) (lowerReturn other value) := by
  cases value with
  | none => exact Leads.terminate (.ret none)
  | some expr =>
      refine (alike_lowerValue same (by simpa using allowed)).bind ?_
      rintro value _ rfl
      exact Leads.terminate (.ret (some value))

/-! ## Functions -/

include same alike in
theorem alike_fillFunction {decl : FunctionDecl}
    (allowed : ∀ node ∈ decl.params.map .param ++ walk decl.body, link.Allows program node) :
    link.Alike current Anyhow (fillFunction program lower decl)
      (fillFunction other otherLower decl) := by
  simp only [List.mem_append, or_imp, forall_and] at allowed
  have params : link.Alike current Anyhow
      (decl.params.zipIdx.forM fun pair => lowerParam program pair.1 pair.2)
      (decl.params.zipIdx.forM fun pair => lowerParam other pair.1 pair.2) := by
    refine .forM fun pair member => alike_lowerParam same pair.2 (allowed.1 _ ?_)
    exact List.mem_map.mpr ⟨pair.1, List.fst_mem_of_mem_zipIdx member, rfl⟩
  refine params.bind fun _ _ _ => (alike current decl.body allowed.2).bind fun _ _ _ => ?_
  split
  · exact Leads.returnIfLive none
  · exact .pure trivial

variable {options : Options} (finishes : ∀ name, link.own.functions name →
  link.Alike name Anyhow (finishFunction options name) (finishFunction options name))

include finishes in
omit same in
theorem leads_buildFunction {name : String} (isOwn : link.own.functions name)
    {fill otherFill : Lower Unit} (fills : link.Alike name Anyhow fill otherFill) :
    link.Leads current name Anyhow (buildFunction options name fill)
      (buildFunction options name otherFill) :=
  (Leads.openFunction isOwn).bind fun _ _ _ => fills.bind fun _ _ _ => finishes name isOwn

include same alike finishes in
theorem alike_lowerFunctionDecl {id : FuncId}
    (allowed : ∀ node ∈ walkFunction program walk id, link.Allows program node) :
    link.Alike current Anyhow (lowerFunctionDecl program (finishFunction options) lower id)
      (lowerFunctionDecl other (finishFunction options) otherLower id) := by
  have otherFound := same.function? id
  cases found : program.function? id with
  | none =>
      rw [lowerFunctionDecl, lowerFunctionDecl, otherFound, found, Lower.orFault_none_bind,
        Lower.orFault_none_bind]
      exact .fail rfl
  | some decl =>
      rw [found] at otherFound
      have isOwn : link.own.functions decl.name :=
        allowed (.function id) List.mem_cons_self decl found
      simp only [walkFunction, found, List.mem_cons, forall_eq_or_imp] at allowed
      rw [lowerFunctionDecl_eq_build found, lowerFunctionDecl_eq_build otherFound]
      intro first second agree
      have firstLooks : Lower.cursor first = .ok (first.cursor, first) := rfl
      have secondLooks : Lower.cursor second = .ok (second.cursor, second) := rfl
      rw [Lower.bind_eq firstLooks, Lower.bind_eq secondLooks, agree.position]
      have position : first.cursor.position = ⟨some current, first.cursor.position.block⟩ := by
        rcases agree.stands with ⟨place, builds, _⟩
        rw [builds.position]
      have returns : link.Leads decl.name current Anyhow
          (Lower.moveCursor fun cursor => cursor.setPosition first.cursor.position)
          (Lower.moveCursor fun cursor => cursor.setPosition first.cursor.position) := by
        intro later other agreeLater
        rw [position]
        exact .done trivial (agreeLater.moveTo agree.inside _)
      have fills : link.Alike decl.name Anyhow (fillFunction program lower decl)
          (fillFunction other otherLower decl) := alike_fillFunction same alike allowed.2
      exact (leads_buildFunction finishes isOwn fills).bind (fun _ _ _ => returns) first second
        agree

include same alike finishes in
theorem alike_lowerNodeOf {id : StmtId} {stmt : Stmt} (found : program.stmt? id = some stmt)
    (here : link.Allows program (.stmt id))
    (allowed : ∀ node ∈ walkNodeOf program walk stmt, link.Allows program node) :
    link.Alike current Anyhow (lowerNodeOf program (finishFunction options) lower id stmt)
      (lowerNodeOf other (finishFunction options) otherLower id stmt) := by
  cases stmt with
  | expr expr => exact (alike_lowerExpr same allowed).bind fun _ _ _ => .pure trivial
  | compound stmts =>
      exact .forM fun inner member => alike current inner fun node inside =>
        allowed node (List.mem_flatMap.mpr ⟨inner, member, inside⟩)
  | varDecl vars =>
      exact .forM fun var member => alike_lowerVarDecl same fun node inside =>
        allowed node (List.mem_flatMap.mpr ⟨var, member, inside⟩)
  | functionDecl func => exact alike_lowerFunctionDecl same alike finishes allowed
  | ifThenElse condition thenBody elseBody => exact alike_lowerIf same alike allowed
  | whileLoop condition body => exact alike_lowerWhile same alike (here.1 _ found rfl) allowed
  | forLoop initial condition updates body =>
      exact alike_lowerFor same alike (here.1 _ found rfl) allowed
  | continueLoop target =>
      refine (Leads.loopOf (here.2 target (by simp [Node.jumpsTo?, found, jumpTarget?]))).bind ?_
      rintro _ blocks rfl
      exact Leads.terminate (.jump _)
  | breakLoop target =>
      refine (Leads.loopOf (here.2 target (by simp [Node.jumpsTo?, found, jumpTarget?]))).bind ?_
      rintro _ blocks rfl
      exact Leads.terminate (.jump _)
  | returnValue value => exact alike_lowerReturn same allowed

end Statements

variable {options : Options} (finishes : ∀ name, link.own.functions name →
  link.Alike name Anyhow (finishFunction options name) (finishFunction options name))

include same finishes in
/-- Lowering a statement in two sessions keeps them linked, as long as the link allows all that
lowering comes to. -/
theorem alike_lowerStmtWithin (depth : Nat) (current : String) (id : StmtId)
    (allowed : ∀ node ∈ walkStmtWithin program depth id, link.Allows program node) :
    link.Alike current Anyhow (lowerStmtWithin program (finishFunction options) depth id)
      (lowerStmtWithin other (finishFunction options) depth id) := by
  induction depth generalizing current id with
  | zero => exact .fail rfl
  | succ depth induction =>
      have otherFound := same.stmt? id
      rw [lowerStmtWithin, lowerStmtWithin, otherFound]
      cases found : program.stmt? id with
      | none => exact .fail rfl
      | some stmt =>
          simp only [walkStmtWithin, found, List.mem_cons, forall_eq_or_imp] at allowed
          exact alike_lowerNodeOf same induction finishes found allowed.1 allowed.2

include same finishes in
theorem alike_lowerStmt {id : StmtId}
    (allowed : ∀ node ∈ walkStmt program id, link.Allows program node) :
    link.Alike current Anyhow (lowerStmt program (finishFunction options) id)
      (lowerStmt other (finishFunction options) id) := by
  have depths : stmtDepth other = stmtDepth program := by
    simp only [stmtDepth, same.nodeCount_eq]
  rw [lowerStmt, lowerStmt, depths]
  exact alike_lowerStmtWithin same finishes _ current id allowed

include same finishes in
theorem alike_lowerStmts {ids : List StmtId}
    (allowed : ∀ node ∈ ids.flatMap (walkStmt program), link.Allows program node) :
    link.Alike current Anyhow (ids.forM (lowerStmt program (finishFunction options)))
      (ids.forM (lowerStmt other (finishFunction options))) :=
  .forM fun id member => alike_lowerStmt same finishes fun node inside =>
    allowed node (List.mem_flatMap.mpr ⟨id, member, inside⟩)

/-! ## Finished functions and modules -/

theorem alike_finishFunction_plain {name : String} (unchecked : options.verifyFunctions = false) :
    link.Alike name Anyhow (finishFunction options name) (finishFunction options name) :=
  have runs (session : Session) (place : Code.Place) (builds : session.Builds name place) :=
    finishFunction_plain unchecked builds
  .build runs runs (fun place => place.relabel_pruned _) fun _ => trivial

section Verifying

variable {first second : Session} (agree : link.Matches current first second)
  (grows : link.grows)
  (known : ∀ texts id,
    (link.right.cursor.module.addTexts texts).data.contains (link.change id) =
      (link.left.cursor.module.addTexts texts).data.contains id)

include agree

include grows in
theorem Matches.global_rel (id : Code.GlobalId) :
    (second.cursor.module.global? id).map (Code.Global.rename link.view) =
      (first.cursor.module.global? id).map (Code.Global.rename link.view) := by
  have globals := congrArg (fun table => table.get? id) (agree.globals grows).1
  simpa [Code.Module.global?] using globals

include grows known in
theorem Matches.mirrors :
    first.cursor.module.Mirrors link.change second.cursor.module where
  signatures := by
    intro name
    have functions := agree.function_rel name
    revert functions
    generalize first.cursor.module.function? name = function
    generalize second.cursor.module.function? name = mirrored
    rintro (⟨renamed, _⟩ | _)
    · exact .some (Code.Signature.types_of_rename renamed)
    · exact .none
  globals := by
    intro id
    have types := congrArg (Option.map Code.Global.ty) (agree.global_rel grows id)
    simpa [Option.map_map, Function.comp_def, Code.Global.rename] using types
  data := by
    intro id
    rcases agree.texts with ⟨texts, ⟨firstData, _⟩, secondData, _⟩
    rw [firstData, secondData]
    exact known texts id

theorem Matches.function_counterpart (name : String) (isCommon : link.common.functions name) :
    Option.Rel (fun function mirrored : Code.Function =>
        mirrored.signature.rename link.view = function.signature.rename link.view ∧
          mirrored.linkage = function.linkage ∧
          mirrored.body = function.body.relabel link.change)
      (first.cursor.module.function? name) (second.cursor.module.function? name) := by
  have functions := agree.function_rel name
  have bodies := agree.bodies.agree name isCommon
  rw [Table.get?_mapValues, Table.get?_mapValues] at bodies
  change (second.cursor.module.function? name).map _ =
    ((first.cursor.module.function? name).map _).map _ at bodies
  revert functions bodies
  generalize first.cursor.module.function? name = function
  generalize second.cursor.module.function? name = mirrored
  intro functions bodies
  cases functions with
  | none => exact .none
  | some renamed => exact .some ⟨renamed.1, renamed.2, Option.some.inj bodies⟩

theorem Matches.function_mirrors (name : String) (isCommon : link.common.functions name) :
    Option.Rel (fun function mirrored : Code.Function => function.Mirrors link.change mirrored)
      (first.cursor.module.function? name) (second.cursor.module.function? name) := by
  have functions := agree.function_counterpart name isCommon
  revert functions
  generalize first.cursor.module.function? name = function
  generalize second.cursor.module.function? name = mirrored
  rintro (⟨renamed, _, body⟩ | _)
  · rcases Code.Signature.types_of_rename renamed with ⟨params, returns⟩
    exact .some ⟨params, returns, body⟩
  · exact .none

include grows known in
/-- Both modules are accepted, or neither is. -/
theorem Matches.verify_iff (all : ∀ name, link.common.functions name) :
    second.cursor.module.verify = .ok () ↔ first.cursor.module.verify = .ok () := by
  rw [Code.Module.verify_eq_ok, Code.Module.verify_eq_ok]
  refine and_congr (forall_congr' fun id => ?_) (forall_congr' fun name => ?_)
  · have globals := agree.global_rel grows id
    revert globals
    generalize first.cursor.module.global? id = global
    generalize second.cursor.module.global? id = mirrored
    intro globals
    cases global with
    | none =>
        rw [Option.map_none, Option.map_eq_none_iff] at globals
        simp [globals]
    | some global =>
        rcases Option.map_eq_some_iff.mp globals with ⟨mirrored, rfl, renamed⟩
        have types : (mirrored.rename link.view).ty = (global.rename link.view).ty := by
          rw [renamed]
        have initials : (mirrored.rename link.view).initial =
            (global.rename link.view).initial := by
          rw [renamed]
        simp only [Code.Global.rename] at types initials
        simp [types, initials]
  · have functions := agree.function_mirrors name (all name)
    revert functions
    generalize first.cursor.module.function? name = function
    generalize second.cursor.module.function? name = mirrored
    intro functions
    cases functions with
    | none => simp
    | some mirrors =>
        have layouts := congrArg Code.Body.layout mirrors.body
        simp only [Code.Body.layout_relabel] at layouts
        simp only [Option.some.injEq, forall_eq', layouts,
          (agree.mirrors grows known).checkFunction_iff mirrors]

end Verifying

/-- With early checks, a function is accepted on both sides or rejected on both. -/
theorem alike_finishFunction (grows : link.grows)
    (known : ∀ texts id,
      (link.right.cursor.module.addTexts texts).data.contains (link.change id) =
        (link.left.cursor.module.addTexts texts).data.contains id)
    {name : String} (isOwn : link.own.functions name) :
    link.Alike name Anyhow (finishFunction options name) (finishFunction options name) := by
  have drops : link.Alike name Anyhow (Lower.buildWith fun cursor => cursor.finalize name)
      (Lower.buildWith fun cursor => cursor.finalize name) := by
    intro first second agree
    rcases agree.stands with ⟨place, firstBuilds, secondBuilds⟩
    rcases finalize_eq firstBuilds with ⟨firstPruned, firstFinalizes⟩
    rcases finalize_eq secondBuilds with ⟨secondPruned, secondFinalizes⟩
    simp only [Lower.buildWith, firstFinalizes, secondFinalizes, ← Code.Place.relabel_pruned]
    exact .done trivial (agree.put place.pruned)
  refine drops.bind fun _ _ _ => ?_
  split
  · intro first second agree
    have firstLooks : Lower.cursor first = .ok (first.cursor, first) := rfl
    have secondLooks : Lower.cursor second = .ok (second.cursor, second) := rfl
    rw [Lower.bind_eq firstLooks, Lower.bind_eq secondLooks]
    have functions := agree.function_mirrors name (link.within.functions name isOwn)
    have mirrors := agree.mirrors grows known
    revert functions
    generalize first.cursor.module.function? name = function
    generalize second.cursor.module.function? name = mirrored
    intro functions
    cases functions with
    | none => exact .failed rfl
    | @some function mirrored same =>
        have checks := mirrors.checkFunction_iff same
        rw [← Code.Module.verifyFunction_eq_ok, ← Code.Module.verifyFunction_eq_ok] at checks
        cases verified : first.cursor.module.verifyFunction function with
        | ok _ =>
            simp only [verified, checks.mpr verified]
            exact .done trivial agree
        | error rejection =>
            cases otherVerified : second.cursor.module.verifyFunction mirrored with
            | ok _ =>
                rw [checks.mp otherVerified] at verified
                cases verified
            | error otherRejection =>
                simp only [verified, otherVerified]
                exact .failed rfl
  · exact .pure trivial

end Link

end ScriptLowering.Lowering
