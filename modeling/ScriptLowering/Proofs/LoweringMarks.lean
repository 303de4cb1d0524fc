import ScriptLowering.Proofs.FaultlessLowering
import ScriptLowering.Proofs.LockstepRuns
import ScriptLowering.Proofs.WatchedRuns

/-! # Marks that lowering leaves

Lowering leaves a mark on a loop, on a variable and on an expression that has a value: the blocks, the
storage and the value that it records. What has been recorded is never recorded again, so a step that
succeeds has found none of its nodes marked and comes to none of them twice.
-/

namespace ScriptLowering.Lowering

open Source (Program ExprId ExprNode ForInit FuncId FunctionDecl Stmt StmtId VarDecl VarId)
open Code (BlockId Operand)

/-! ## Marks -/

/-- The functions of both sessions have the same signatures. -/
def Session.Signed (start session : Session) : Prop :=
  ∀ name, (session.cursor.module.function? name).map Code.Function.signature =
    (start.cursor.module.function? name).map Code.Function.signature

theorem Session.Signed.refl (start : Session) : start.Signed start := fun _ => rfl

theorem Session.Signed.trans {start session next : Session} (signed : start.Signed session)
    (more : session.Signed next) : start.Signed next :=
  fun name => (more name).trans (signed name)

theorem Session.Signed.returnsNothing_iff {start session : Session} (signed : start.Signed session)
    {callee : String} : session.ReturnsNothing callee ↔ start.ReturnsNothing callee := by
  have outline (found : Option Code.Function) :
      (∃ function, found = some function ∧ function.signature.returns.isVoid = true) ↔
        ∃ signature ∈ found.map Code.Function.signature, signature.returns.isVoid = true := by
    cases found <;> simp
  simp only [ReturnsNothing, outline, signed callee]

def Node.Marked (program : Program) (start : Session) : Node → Prop
  | .stmt id => ∃ stmt, program.stmt? id = some stmt ∧ isLoop stmt = true
  | .expr id => ¬ start.Valueless program id
  | .var _ | .param _ => True
  | .function _ => False

theorem Node.marked_of_plain_eq {program : Program} {start : Session} {node other : Node}
    (same : node.plain = other.plain) (marked : node.Marked program start) :
    other.Marked program start := by
  cases node <;> cases other <;> simp_all [plain, Marked]

theorem Session.knows_of_plain_eq {session : Session} {node other : Node}
    (same : node.plain = other.plain) (knows : session.Knows node) : session.Knows other := by
  rw [← knows_plain, ← same, knows_plain]
  exact knows

def Node.Declared (program : Program) : Node → Prop
  | .function id => ∃ decl, program.function? id = some decl
  | .var id | .param id => ∃ decl, program.var? id = some decl
  | .stmt _ | .expr _ => True

/-- The session has come by the nodes. Those that get a mark had none before, and each of them is come
to once. -/
structure Session.Marks (start : Session) (program : Program) (nodes : List Node)
    (session next : Session) : Prop where
  signed : start.Signed next
  kept : ∀ node, session.Knows node → next.Knows node
  fresh : ∀ node ∈ nodes, node.Marked program start → ¬ session.Knows node
  known : ∀ node ∈ nodes, node.Marked program start → next.Knows node
  declared : ∀ node ∈ nodes, node.Declared program
  once : nodes.Pairwise fun node other => node.Marked program start → node.plain ≠ other.plain

namespace Session.Marks

variable {program : Program} {start session middle next : Session} {nodes first second : List Node}

theorem of_alike (signed : start.Signed session) (alike : session.Alike next) :
    start.Marks program [] session next where
  signed := signed.trans alike.signatures
  kept := fun _ => alike.knows_iff.mpr
  fresh := fun _ member => by cases member
  known := fun _ member => by cases member
  declared := fun _ member => by cases member
  once := .nil

theorem trans (early : start.Marks program first session middle)
    (late : start.Marks program second middle next) :
    start.Marks program (first ++ second) session next where
  signed := late.signed
  kept := fun node knows => late.kept node (early.kept node knows)
  fresh := by
    intro node member marked knows
    rcases List.mem_append.mp member with isFirst | isSecond
    · exact early.fresh node isFirst marked knows
    · exact late.fresh node isSecond marked (early.kept node knows)
  known := by
    intro node member marked
    rcases List.mem_append.mp member with isFirst | isSecond
    · exact late.kept node (early.known node isFirst marked)
    · exact late.known node isSecond marked
  declared := fun node member =>
    (List.mem_append.mp member).elim (early.declared node) (late.declared node)
  once := by
    refine List.pairwise_append.mpr ⟨early.once, late.once, ?_⟩
    intro node isFirst other isSecond marked same
    exact late.fresh other isSecond (Node.marked_of_plain_eq same marked)
      (Session.knows_of_plain_eq same (early.known node isFirst marked))

theorem perm (marks : start.Marks program first session next) (same : first.Perm second) :
    start.Marks program second session next where
  signed := marks.signed
  kept := marks.kept
  fresh := fun node member => marks.fresh node (same.mem_iff.mpr member)
  known := fun node member => marks.known node (same.mem_iff.mpr member)
  declared := fun node member => marks.declared node (same.mem_iff.mpr member)
  once := by
    refine (same.pairwise_iff fun {node other} apart marked equal => ?_).mp marks.once
    exact apart (Node.marked_of_plain_eq equal marked) equal.symm

theorem unmarked (signed : start.Signed session) {node : Node}
    (unmarked : ¬ node.Marked program start) (declared : node.Declared program) :
    start.Marks program [node] session session where
  signed := signed
  kept := fun _ => id
  fresh := by
    intro other member marked
    cases List.mem_singleton.mp member
    exact absurd marked unmarked
  known := by
    intro other member marked
    cases List.mem_singleton.mp member
    exact absurd marked unmarked
  declared := fun _ member => List.mem_singleton.mp member ▸ declared
  once := List.pairwise_singleton _ _

theorem one (signed : start.Signed session) {node : Node} (learns : session.Learns [node] next)
    (isNew : ¬ session.Knows node) (isKnown : next.Knows node) (declared : node.Declared program) :
    start.Marks program [node] session next where
  signed := signed.trans learns.signatures
  kept := learns.kept
  fresh := by
    intro other member _
    cases List.mem_singleton.mp member
    exact isNew
  known := by
    intro other member _
    cases List.mem_singleton.mp member
    exact isKnown
  declared := fun _ member => List.mem_singleton.mp member ▸ declared
  once := List.pairwise_singleton _ _

end Session.Marks

/-! ## Steps that leave marks -/

/-- Where the step succeeds, it has come by the nodes, and `holds`. -/
def Notes (program : Program) (start : Session) (nodes : List Node) (holds : Prop) {α : Type}
    (step : Lower α) : Prop :=
  ∀ session, start.Signed session → step.Ensures session
    (fun _ next => start.Marks program nodes session next ∧ holds) fun _ => True

namespace Notes

variable {program : Program} {start : Session} {nodes first second : List Node}
  {holds also : Prop} {α β : Type} {step : Lower α}

theorem of_alike (alike : ∀ session, step.Ensures session (fun _ next => session.Alike next)
    fun _ => True) : Notes program start [] True step :=
  fun session signed => (alike session).mono fun _ _ alike => ⟨.of_alike signed alike, trivial⟩

theorem of_silent (silent : Silent step) : Notes program start [] True step :=
  of_alike fun session => (silent session).mono_errors fun _ _ => trivial

theorem pure (value : α) : Notes program start [] True (Pure.pure value : Lower α) :=
  of_silent (.pure value)

theorem fail (error : Error) : Notes program start nodes holds (Lower.fail error : Lower α) :=
  fun _ _ => .of_error rfl trivial

theorem consult (question : Annotations → Except ProgramFault α) :
    Notes program start [] True (Lower.consult question) :=
  of_alike fun session => .of_bind_pure (.consult_bind (fun _ _ => trivial) fun _ _ =>
    .pure (.refl session))

theorem bind {rest : α → Lower β} (notes : Notes program start first holds step)
    (notesRest : ∀ value, Notes program start second also (rest value)) :
    Notes program start (first ++ second) (holds ∧ also) (step >>= rest) := by
  refine fun session signed => (notes session signed).bind fun value middle early => ?_
  refine (notesRest value middle early.1.signed).mono fun _ next late => ?_
  exact ⟨early.1.trans late.1, early.2, late.2⟩

theorem mono (notes : Notes program start nodes holds step) (weakens : holds → also) :
    Notes program start nodes also step :=
  fun session signed => (notes session signed).mono fun _ _ facts => ⟨facts.1, weakens facts.2⟩

theorem perm (notes : Notes program start first holds step) (same : first.Perm second) :
    Notes program start second holds step :=
  fun session signed => (notes session signed).mono fun _ _ facts => ⟨facts.1.perm same, facts.2⟩

theorem after {rest : α → Lower β} (silent : Silent step)
    (notesRest : ∀ value, Notes program start nodes holds (rest value)) :
    Notes program start nodes holds (step >>= rest) :=
  ((of_silent silent).bind notesRest).mono And.right

theorem thenSilent {rest : α → Lower β} (notes : Notes program start nodes holds step)
    (silent : ∀ value, Silent (rest value)) :
    Notes program start nodes holds (step >>= rest) := by
  have both := notes.bind fun value => of_silent (silent value)
  rw [List.append_nil] at both
  exact both.mono And.left

theorem map (notes : Notes program start nodes holds step) (convert : α → β) :
    Notes program start nodes holds (convert <$> step) :=
  notes.thenSilent fun value => .pure (convert value)

theorem orFault {found : Option α} {fault : ProgramFault} {rest : α → Lower β}
    (notes : ∀ value, found = some value → Notes program start nodes holds (rest value)) :
    Notes program start nodes holds (Lower.orFault found fault >>= rest) :=
  fun session signed => .orFault_bind (fun _ => trivial) fun value known =>
    notes value known session signed

theorem consulting {question : Annotations → Except ProgramFault α} {rest : α → Lower β}
    (notes : ∀ value, Notes program start nodes holds (rest value)) :
    Notes program start nodes holds (Lower.consult question >>= rest) :=
  ((consult question).bind notes).mono And.right

theorem cursor {rest : Code.Cursor → Lower β}
    (notes : ∀ cursor, Notes program start nodes holds (rest cursor)) :
    Notes program start nodes holds (Lower.cursor >>= rest) :=
  after .cursor notes

section Lists

variable {ι : Type} {items : List ι} {walk : ι → List Node} {ends : ι → Prop}

theorem forM {body : ι → Lower Unit}
    (notes : ∀ item ∈ items, Notes program start (walk item) (ends item) (body item)) :
    Notes program start (items.flatMap walk) (∀ item ∈ items, ends item) (items.forM body) := by
  induction items with
  | nil => exact (pure ()).mono fun _ => by simp
  | cons item rest induction =>
      rw [Lower.forM_cons, List.flatMap_cons]
      refine ((notes item List.mem_cons_self).bind fun _ => induction fun other member =>
        notes other (List.mem_cons_of_mem _ member)).mono fun facts => ?_
      simpa using facts

theorem mapM {body : ι → Lower β}
    (notes : ∀ item ∈ items, Notes program start (walk item) (ends item) (body item)) :
    Notes program start (items.flatMap walk) True (items.mapM body) := by
  induction items with
  | nil => exact pure []
  | cons item rest induction =>
      rw [List.mapM_cons, List.flatMap_cons]
      have others := induction fun other member => notes other (List.mem_cons_of_mem _ member)
      exact ((notes item List.mem_cons_self).bind fun _ => others.thenSilent fun _ => .pure _).mono
        fun _ => trivial

end Lists

/-! ### Recording -/

theorem setStorage {node : Node} {id : VarId} (isVar : node.plain = .var id)
    (declared : node.Declared program) (address : Operand) : Notes program start [node] True
      (Lower.annotate fun annotations => annotations.setStorage id address) := by
  refine fun session signed => .of_bind_pure (.annotate_bind (fun _ _ => trivial)
    fun annotations sets => .pure ⟨.one signed (learns_setStorage sets isVar) ?_ ?_ declared, trivial⟩)
  · intro knows
    rw [← Session.knows_plain, isVar] at knows
    rcases knows with ⟨known, stored⟩
    exact Annotations.storageOf_ne_of_setStorage sets known stored
  · rw [← Session.knows_plain, isVar]
    refine ⟨address, ?_⟩
    rw [Annotations.storageOf_of_setStorage sets, if_pos rfl]

theorem setLoop (id : StmtId) (blocks : LoopBlocks) :
    Notes program start [.stmt id] True
      (Lower.annotate fun annotations => annotations.setLoop id blocks) := by
  refine fun session signed => .of_bind_pure (.annotate_bind (fun _ _ => trivial)
    fun annotations sets => .pure ⟨.one signed (learns_setLoop sets) ?_ ?_ trivial, trivial⟩)
  · rintro ⟨known, found⟩
    exact Annotations.loopOf_ne_of_setLoop sets known found
  · exact ⟨blocks, by rw [Annotations.loopOf_of_setLoop sets, if_pos rfl]⟩

theorem setValue (id : ExprId) (value : Operand) :
    Notes program start [.expr id] True
      (Lower.annotate fun annotations => annotations.setValue id value) := by
  refine fun session signed => .of_bind_pure (.annotate_bind (fun _ _ => trivial)
    fun annotations sets => .pure ⟨.one signed (learns_setValue sets) ?_ ?_ trivial, trivial⟩)
  · rintro ⟨known, found⟩
    exact Annotations.value?_ne_of_setValue sets known found
  · exact ⟨value, by rw [Annotations.value?_of_setValue sets, if_pos rfl]⟩

end Notes

/-! ## Expressions -/

section Expressions

variable {program : Program} {start : Session} {lower : ExprId → Lower Operand}
  {walk : ExprId → List Node} {ends : ExprId → Prop}

theorem none_of_call_iff {cursor next : Code.Cursor} {callee : String} {returns : Code.Ty}
    {args : List Operand} {value : Option Operand}
    (calls : cursor.call callee returns args = (.ok value, next)) :
    value = none ↔ returns.isVoid = true := by
  constructor
  · rintro rfl
    cases something : returns.isVoid with
    | true => rfl
    | false => cases some_of_call calls something
  · intro nothing
    unfold Code.Cursor.call at calls
    rw [if_pos nothing] at calls
    split at calls <;> cases calls
    rfl

theorem ensures_lowerCall (notes : ∀ id, Notes program start (walk id) (ends id) (lower id))
    (callee : String) (args : List ExprId) {session : Session} (signed : start.Signed session) :
    (lowerCall lower callee args).Ensures session (fun value next =>
      start.Marks program (args.flatMap walk) session next ∧
        (value = none ↔ start.ReturnsNothing callee)) fun _ => True := by
  have looks : Lower.cursor session = .ok (session.cursor, session) := rfl
  refine .bind_ok looks ?_
  cases found : session.cursor.module.function? callee with
  | none => exact .of_error rfl trivial
  | some function =>
      dsimp only
      split
      · have nothing : start.ReturnsNothing callee ↔ function.signature.returns.isVoid = true := by
          rw [← signed.returnsNothing_iff]
          simp [Session.ReturnsNothing, found]
        refine (Notes.mapM (fun id _ => notes id) session signed).bind fun values middle facts => ?_
        have calls : Silent (Lower.emit fun cursor =>
            cursor.call callee function.signature.returns values) :=
          .call _ _ _
        have gives : (Lower.emit fun cursor =>
            cursor.call callee function.signature.returns values).Ensures middle
              (fun value _ => value = none ↔ start.ReturnsNothing callee)
              fun error => ¬ error.IsOrdinary := by
          refine Silent.ensures_emit (fun cursor value next calls => ?_) middle
          rw [nothing]
          exact none_of_call_iff calls
        refine (((calls middle).and gives).mono_errors fun _ _ => trivial).mono fun value next facts' => ?_
        have later : start.Marks program [] middle next := .of_alike facts.1.signed facts'.1
        have both := facts.1.trans later
        rw [List.append_nil] at both
        exact ⟨both, facts'.2⟩
      · exact .of_error rfl trivial

theorem notes_lowerIdentifier (id : VarId) :
    Notes program start [] True (lowerIdentifier program id) :=
  .orFault fun _ _ => .consulting fun _ => .of_silent (.define _ _)

theorem notes_lowerUnary (notes : ∀ id, Notes program start (walk id) (ends id) (lower id))
    (op : Source.UnaryOp) (operand : ExprId) :
    Notes program start (walk operand) True (lowerUnary program lower op operand) := by
  refine .orFault fun expr _ => ?_
  split
  · exact ((notes operand).thenSilent fun _ => .define _ _).mono fun _ => trivial
  · exact .fail _

theorem notes_lowerAssignment (notes : ∀ id, Notes program start (walk id) (ends id) (lower id))
    (left right : ExprId) :
    Notes program start (walk right) True (lowerAssignment program lower left right) := by
  refine .orFault fun target _ => ?_
  split
  · have stores (decl : VarId) (value : Operand) : Notes program start [] True (do
        let address ← Lower.consult fun annotations => annotations.storageOf decl
        Lower.append fun cursor => cursor.store address value
        return value) :=
      .consulting fun address => .of_silent (.bind (.insert _) fun _ => .pure _)
    have both := (notes right).bind fun value => stores ‹VarId› value
    rw [List.append_nil] at both
    exact both.mono fun _ => trivial
  · exact .fail _

theorem notes_lowerBinary (notes : ∀ id, Notes program start (walk id) (ends id) (lower id))
    (op : Source.BinaryOp) (left right : ExprId) :
    Notes program start ((operandsOf (.binary op left right)).flatMap walk) True
      (lowerBinary program lower op left right) := by
  unfold lowerBinary
  split
  · rename_i isAssign
    subst isAssign
    simpa [operandsOf] using notes_lowerAssignment notes left right
  · rename_i notAssign
    refine .orFault fun expr _ => ?_
    split
    · exact .fail _
    · have both := ((notes left).bind fun leftValue => (notes right).thenSilent fun rightValue =>
        .emitOperation leftValue rightValue ‹Operation›).mono fun _ => trivial
      simpa [operandsOf, notAssign] using both

/-- The expression is a call of a function that returns nothing. -/
def CallsNothing (start : Session) (node : ExprNode) : Prop :=
  ∃ callee args, node = .call callee args ∧ start.ReturnsNothing callee

theorem ensures_lowerNode (notes : ∀ id, Notes program start (walk id) (ends id) (lower id))
    (node : ExprNode) {session : Session} (signed : start.Signed session) :
    (lowerNode program lower node).Ensures session (fun value next =>
      start.Marks program ((operandsOf node).flatMap walk) session next ∧
        (value = none ↔ CallsNothing start node)) fun _ => True := by
  have valued {step : Lower Operand} {nodes : List Node} (notesStep : Notes program start nodes True step)
      (notCall : ¬ CallsNothing start node) : (some <$> step).Ensures session (fun value next =>
        start.Marks program nodes session next ∧ (value = none ↔ CallsNothing start node))
        fun _ => True :=
    .map ((notesStep session signed).mono fun _ _ facts => ⟨facts.1, by simp [notCall]⟩)
  have constant (value : Operand) (notCall : ¬ CallsNothing start node) :
      (Pure.pure (some value) : Lower (Option Operand)).Ensures session (fun value next =>
        start.Marks program [] session next ∧ (value = none ↔ CallsNothing start node))
        fun _ => True :=
    .pure ⟨.of_alike signed (.refl session), by simp [notCall]⟩
  cases node with
  | booleanLiteral value => exact constant _ (by simp [CallsNothing])
  | integerLiteral value => exact constant _ (by simp [CallsNothing])
  | stringLiteral text =>
      exact valued (.of_silent (.lowerStringLiteral text)) (by simp [CallsNothing])
  | identifier name decl => exact valued (notes_lowerIdentifier decl) (by simp [CallsNothing])
  | call callee args =>
      refine (ensures_lowerCall notes callee args signed).mono fun value next facts =>
        ⟨facts.1, facts.2.trans ?_⟩
      simp [CallsNothing]
  | unary op operand =>
      have operands := notes_lowerUnary notes op operand
      exact valued (by simpa [operandsOf] using operands) (by simp [CallsNothing])
  | binary op left right =>
      exact valued (notes_lowerBinary notes op left right) (by simp [CallsNothing])

theorem ensures_lowerExprWithin (depth : Nat) (id : ExprId) {session : Session}
    (signed : start.Signed session) :
    (lowerExprWithin program depth id).Ensures session (fun value next =>
      start.Marks program (walkExprWithin program depth id) session next ∧
        (value = none ↔ start.Valueless program id)) fun _ => True := by
  induction depth generalizing id session with
  | zero => exact .of_error rfl trivial
  | succ depth induction =>
      refine .orFault_bind (fun _ => trivial) fun expr found => ?_
      have operands (operand : ExprId) : Notes program start (walkExprWithin program depth operand)
          True (do requireValue operand (← lowerExprWithin program depth operand)) := by
        refine fun session signed => (induction operand signed).bind fun value middle facts => ?_
        cases value with
        | none => exact .of_error rfl trivial
        | some value => exact .pure ⟨facts.1, trivial⟩
      have valueless : start.Valueless program id ↔ CallsNothing start expr.node := by
        rcases expr with ⟨node, ty⟩
        simp [Session.Valueless, CallsNothing, found, and_comm]
      have walk : walkExprWithin program (depth + 1) id =
          .expr id :: (operandsOf expr.node).flatMap (walkExprWithin program depth) := by
        simp only [walkExprWithin, found]
      rw [walk, valueless]
      refine (ensures_lowerNode operands expr.node signed).bind fun value middle facts => ?_
      have records : Notes program start [.expr id] True (recordValue id value) := by
        cases value with
        | none =>
            refine fun session signed => .pure
              ⟨.unmarked signed (fun marked => ?_) trivial, trivial⟩
            exact marked (valueless.mpr (facts.2.mp rfl))
        | some value => exact .setValue id value
      refine (records middle facts.1.signed).bind fun _ next later => .pure ⟨?_, facts.2⟩
      exact (facts.1.trans later.1).perm List.perm_append_comm

theorem notes_lowerExpr (id : ExprId) :
    Notes program start (walkExpr program id) True (do let _ ← lowerExpr program id) :=
  fun _ signed => (ensures_lowerExprWithin _ id signed).bind fun _ _ facts => .pure ⟨facts.1, trivial⟩

theorem notes_lowerValue (id : ExprId) :
    Notes program start (walkExpr program id) (Node.Marked program start (.expr id))
      (lowerValue program id) := by
  refine fun session signed => (ensures_lowerExprWithin _ id signed).bind fun value middle facts => ?_
  cases value with
  | none => exact .of_error rfl trivial
  | some value =>
      exact .pure ⟨facts.1, fun valueless => absurd (facts.2.mpr valueless) (Option.some_ne_none value)⟩

theorem notes_lowerExprs (ids : List ExprId) :
    Notes program start (ids.flatMap (walkExpr program)) True
      (ids.forM fun id => do let _ ← lowerExpr program id) :=
  (Notes.forM fun id _ => notes_lowerExpr id).mono fun _ => trivial

theorem notes_lowerInitial (decl : VarDecl) :
    Notes program start (decl.initial.toList.flatMap (walkExpr program)) True
      (lowerInitial program decl) := by
  unfold lowerInitial
  cases decl.initial with
  | none => exact .pure none
  | some expr =>
      rw [Option.toList_some, List.flatMap_singleton]
      exact ((notes_lowerValue expr).map some).mono fun _ => trivial

end Expressions

/-! ## Variables -/

section Variables

variable {program : Program} {start : Session}

theorem notes_lowerGlobal {id : VarId} {decl : VarDecl} (found : program.var? id = some decl)
    (value : Option Operand) :
    Notes program start [.var id] True (lowerGlobal program id decl value) := by
  have declared : (Node.var id).Declared program := ⟨decl, found⟩
  refine .consulting fun initial => .after (.buildWith fun _ _ _ adds _ => by cases adds; rfl)
    fun global => ?_
  cases value with
  | none => exact .setStorage rfl declared _
  | some value =>
      dsimp only
      split
      · exact .after (.insert _) fun _ => .setStorage rfl declared _
      · exact .setStorage rfl declared _

theorem notes_lowerLocal {id : VarId} {decl : VarDecl} (found : program.var? id = some decl)
    (value : Option Operand) :
    Notes program start [.var id] True (lowerLocal id decl value) := by
  have declared : (Node.var id).Declared program := ⟨decl, found⟩
  refine .after (.define _ _) fun slot => ?_
  cases value with
  | none => exact .setStorage rfl declared slot
  | some value => exact .after (.insert _) fun _ => .setStorage rfl declared slot

theorem notes_lowerVarDecl (id : VarId) :
    Notes program start (walkVar program id) True (lowerVarDecl program id) := by
  refine .orFault fun decl found => ?_
  have walk : walkVar program id =
      decl.initial.toList.flatMap (walkExpr program) ++ [.var id] := by
    simp only [walkVar, found]
  rw [walk]
  split
  · exact .fail _
  · refine .mono (.bind (notes_lowerInitial decl) fun value => ?_) (And.left : True ∧ True → True)
    cases decl.scope with
    | topLevel => exact notes_lowerGlobal found value
    | «local» => exact notes_lowerLocal found value

theorem notes_lowerParam (id : VarId) (index : Nat) :
    Notes program start [.param id] True (lowerParam program id index) := by
  refine .orFault fun decl found => ?_
  have declared : (Node.param id).Declared program := ⟨decl, found⟩
  exact .after (.define _ _) fun _ => .after (.insert _) fun _ => .setStorage rfl declared _

end Variables

/-! ## Statements

`lower` lowers a statement inside the one at hand, and `walk` lists its nodes. -/

section Statements

variable {program : Program} {start : Session} {lower : StmtId → Lower Unit}
  {walk : StmtId → List Node} {ends : StmtId → Prop}
  (notes : ∀ id, Notes program start (walk id) (ends id) (lower id))

include notes

theorem notes_lowerIf (condition : ExprId) (thenBody : StmtId) (elseBody : Option StmtId) :
    Notes program start
      (walkExpr program condition ++ (walk thenBody ++ elseBody.toList.flatMap walk))
      (∀ child ∈ thenBody :: elseBody.toList, ends child)
      (lowerIf program lower condition thenBody elseBody) := by
  have closes (block : BlockId) : Silent (do leaveTo block; enter block true) :=
    .bind (.leaveTo block) fun _ => .enter block true
  cases elseBody with
  | none =>
      simp only [Option.toList_none, List.flatMap_nil, List.append_nil, List.mem_singleton,
        forall_eq]
      refine Notes.mono ((notes_lowerValue condition).bind fun value => ?_) And.right
      refine .after (.createBlock _) fun thenBlock => .after (.createBlock _) fun endBlock => ?_
      exact .after (.terminate _) fun _ => .after (.enter _ _) fun _ =>
        (notes thenBody).thenSilent fun _ => closes endBlock
  | some elseBody =>
      simp only [Option.toList_some, List.flatMap_singleton, List.mem_cons, List.not_mem_nil,
        or_false, forall_eq_or_imp, forall_eq]
      refine Notes.mono ((notes_lowerValue condition).bind fun value => ?_) And.right
      refine .after (.createBlock _) fun thenBlock => .after (.createBlock _) fun endBlock =>
        .after (.createBlock _) fun elseBlock => ?_
      exact .after (.terminate _) fun _ => .after (.enter _ _) fun _ =>
        (notes thenBody).bind fun _ => .after (.leaveTo _) fun _ => .after (.enter _ _) fun _ =>
          (notes elseBody).thenSilent fun _ => closes endBlock

theorem notes_lowerWhile (id : StmtId) (condition : ExprId) (body : StmtId) :
    Notes program start (.stmt id :: (walkExpr program condition ++ walk body)) (ends body)
      (lowerWhile program lower id condition body) := by
  refine .after (.createBlock _) fun condBlock => .after (.createBlock _) fun bodyBlock =>
    .after (.createBlock _) fun endBlock => ?_
  refine Notes.mono ((Notes.setLoop id _).bind fun _ => .after (.enter _ _) fun _ =>
    (notes_lowerValue condition).bind fun value => .after (.terminate _) fun _ =>
    .after (.enter _ _) fun _ => (notes body).thenSilent fun _ =>
      .bind (.leaveTo _) fun _ => .enter _ _) ?_
  exact fun facts => facts.2.2

theorem notes_lowerForInit (initial : ForInit) :
    Notes program start (walkForInit program walk initial)
      (∀ stmt, initial = .decl stmt → ends stmt) (lowerForInit program lower initial) := by
  cases initial with
  | decl stmt => exact (notes stmt).mono fun holds other same => by cases same; exact holds
  | exprs exprs => exact (notes_lowerExprs exprs).mono fun _ _ same => by cases same

omit notes in
theorem notes_lowerForCondition (endBlock : BlockId) (condition : Option ExprId) :
    Notes program start (condition.toList.flatMap (walkExpr program)) True
      (lowerForCondition program endBlock condition) := by
  cases condition with
  | none => exact .pure ()
  | some condition =>
      rw [Option.toList_some, List.flatMap_singleton]
      refine .after (.createBlock _) fun bodyBlock => ?_
      exact ((notes_lowerValue condition).thenSilent fun value =>
        .bind (.terminate _) fun _ => .enter _ _).mono fun _ => trivial

omit notes in
theorem notes_lowerForUpdates {updates : List ExprId} {updateBlock : Option BlockId}
    (fits : updateBlock = none → updates = []) :
    Notes program start (updates.flatMap (walkExpr program)) True
      (lowerForUpdates program updates updateBlock) := by
  cases updateBlock with
  | none =>
      rw [fits rfl]
      exact .pure ()
  | some block => exact .after (.enter _ _) fun _ => notes_lowerExprs updates

omit notes in
theorem Notes.createUpdateBlock {nodes : List Node} {holds : Prop} {updates : List ExprId}
    {rest : Option BlockId → Lower Unit}
    (notes : ∀ updateBlock, (updateBlock = none → updates = []) →
      Notes program start nodes holds (rest updateBlock)) :
    Notes program start nodes holds (createUpdateBlock updates >>= rest) := by
  cases updates with
  | nil => exact notes none fun _ => rfl
  | cons update updates =>
      have same : (Lowering.createUpdateBlock (update :: updates) >>= rest) =
          (createBlock "for.update" >>= fun updateBlock => rest (some updateBlock)) := by
        simp [Lowering.createUpdateBlock]
      rw [same]
      exact .after (.createBlock _) fun updateBlock => notes (some updateBlock) fun isNone => absurd isNone (Option.some_ne_none _)

theorem notes_lowerFor (id : StmtId) (initial : ForInit) (condition : Option ExprId)
    (updates : List ExprId) (body : StmtId) :
    Notes program start (.stmt id :: (walkForInit program walk initial ++
        (condition.toList.flatMap (walkExpr program) ++
          (walk body ++ updates.flatMap (walkExpr program)))))
      ((∀ stmt, initial = .decl stmt → ends stmt) ∧ ends body)
      (lowerFor program lower id initial condition updates body) := by
  -- The loop gets its mark behind the first part.
  refine Notes.perm ?_ List.perm_middle
  refine Notes.mono ((notes_lowerForInit notes initial).bind fun _ => .after (.createBlock _)
    fun condBlock => .after (.createBlock _) fun endBlock => .after (.enter _ _) fun _ =>
    .createUpdateBlock fun updateBlock fits => (Notes.setLoop id _).bind fun _ =>
    (notes_lowerForCondition endBlock condition).bind fun _ => (notes body).bind fun _ =>
    (notes_lowerForUpdates fits).thenSilent fun _ => .bind (.leaveTo _) fun _ => .enter _ _) ?_
  exact fun facts => ⟨facts.1, facts.2.2.2.1⟩

variable {finish : String → Lower Unit} (finishes : ∀ name, Silent (finish name))

include finishes

theorem notes_lowerFunctionDecl (id : FuncId) :
    Notes program start (walkFunction program walk id)
      (∀ decl, program.function? id = some decl → ends decl.body)
      (lowerFunctionDecl program finish lower id) := by
  refine .orFault fun decl found => .cursor fun cursor => .after (.openFunction _) fun _ => ?_
  have listed : walkFunction program walk id =
      [.function id] ++ (decl.params.map .param ++ walk decl.body) := by
    simp only [walkFunction, found, List.singleton_append]
  have node : Notes program start [.function id] True (pure () : Lower Unit) :=
    fun session signed => .pure ⟨.unmarked signed (fun marked => marked) ⟨decl, found⟩, trivial⟩
  have params : Notes program start (decl.params.map .param) True
      (decl.params.zipIdx.forM fun pair => lowerParam program pair.1 pair.2) := by
    have each : Notes program start (decl.params.zipIdx.flatMap fun pair => [Node.param pair.1])
        (∀ pair ∈ decl.params.zipIdx, True)
        (decl.params.zipIdx.forM fun pair => lowerParam program pair.1 pair.2) :=
      .forM fun pair _ => notes_lowerParam pair.1 pair.2
    have same : decl.params.zipIdx.flatMap (fun pair => [Node.param pair.1]) =
        decl.params.map .param := by
      rw [← List.map_eq_flatMap]
      conv_rhs => rw [← List.zipIdx_map_fst 0 decl.params, List.map_map]
      rfl
    rw [same] at each
    exact each.mono fun _ => trivial
  have ending (value : Unit) : Silent (do
      if decl.returnsNothing then returnIfLive none
      finish decl.name
      Lower.moveCursor fun other => other.setPosition cursor.position) := by
    split
    · exact .bind (.returnIfLive none) fun _ => .bind (finishes _) fun _ => .setPosition _
    · exact .bind (finishes _) fun _ => .setPosition _
  rw [listed]
  refine Notes.mono (node.bind fun _ => params.bind fun _ =>
    (notes decl.body).thenSilent ending) fun facts other same => ?_
  rw [found] at same
  cases same
  exact facts.2.2

theorem notes_lowerNodeOf {id : StmtId} {stmt : Stmt} (known : program.stmt? id = some stmt) :
    Notes program start (.stmt id :: walkNodeOf program walk stmt)
      (∀ child ∈ children program stmt, ends child)
      (lowerNodeOf program finish lower id stmt) := by
  have inside {holds : Prop} {nodes : List Node} {step : Lower Unit} (noLoop : isLoop stmt = false)
      (notesInside : Notes program start nodes holds step) :
      Notes program start (.stmt id :: nodes) holds step := by
    have node : Notes program start [.stmt id] True (pure () : Lower Unit) := by
      refine fun session signed => .pure ⟨.unmarked signed ?_ trivial, trivial⟩
      rintro ⟨other, found, loops⟩
      cases known.symm.trans found
      rw [noLoop] at loops
      cases loops
    exact (node.bind fun _ => notesInside).mono And.right
  have leaf {nodes : List Node} {step : Lower Unit} (noLoop : isLoop stmt = false)
      (nothing : children program stmt = []) (notesInside : Notes program start nodes True step) :
      Notes program start (.stmt id :: nodes) (∀ child ∈ children program stmt, ends child) step :=
    (inside noLoop notesInside).mono fun _ => by simp [nothing]
  cases stmt with
  | expr expr => exact leaf rfl rfl (notes_lowerExpr expr)
  | compound stmts => exact inside rfl (.forM fun child _ => notes child)
  | varDecl vars =>
      exact leaf rfl rfl ((Notes.forM fun var _ => notes_lowerVarDecl var).mono fun _ => trivial)
  | functionDecl func =>
      refine (inside rfl (notes_lowerFunctionDecl notes finishes func)).mono fun bodies child member => ?_
      rcases List.mem_map.mp member with ⟨decl, found, rfl⟩
      exact bodies decl (by simpa using found)
  | ifThenElse condition thenBody elseBody =>
      exact inside rfl (notes_lowerIf notes condition thenBody elseBody)
  | whileLoop condition body =>
      exact (notes_lowerWhile notes id condition body).mono fun holds => by simpa [children] using holds
  | forLoop initial condition updates body =>
      refine (notes_lowerFor notes id initial condition updates body).mono fun facts => ?_
      cases initial with
      | decl stmt => simpa [children] using facts
      | exprs exprs => simpa [children] using facts.2
  | continueLoop target =>
      exact leaf rfl rfl (.consulting fun blocks => .of_silent (.terminate _))
  | breakLoop target =>
      exact leaf rfl rfl (.consulting fun blocks => .of_silent (.terminate _))
  | returnValue value =>
      refine leaf rfl rfl ?_
      cases value with
      | none => exact .of_silent (.terminate _)
      | some expr =>
          rw [walkNodeOf, Option.toList_some, List.flatMap_singleton]
          exact ((notes_lowerValue expr).thenSilent fun value => .terminate _).mono fun _ => trivial

end Statements

section Runs

variable {program : Program} {start : Session} {finish : String → Lower Unit}
  (finishes : ∀ name, Silent (finish name))

include finishes

/-- A statement that is lowered to its end gets its marks. -/
theorem notes_lowerStmtWithin (depth : Nat) (id : StmtId) :
    Notes program start (walkStmtWithin program depth id) (EndsWithin program depth id)
      (lowerStmtWithin program finish depth id) := by
  induction depth generalizing id with
  | zero => exact .fail _
  | succ depth induction =>
      refine .orFault fun stmt known => ?_
      have listed : walkStmtWithin program (depth + 1) id =
          .stmt id :: walkNodeOf program (walkStmtWithin program depth) stmt := by
        simp only [walkStmtWithin, known]
      rw [listed]
      exact (notes_lowerNodeOf induction finishes known).mono fun ends => ⟨stmt, known, ends⟩

theorem notes_lowerStmts (ids : List StmtId) :
    Notes program start (ids.flatMap (walkStmt program))
      (∀ id ∈ ids, EndsWithin program (stmtDepth program) id)
      (ids.forM (lowerStmt program finish)) :=
  .forM fun id _ => notes_lowerStmtWithin finishes _ id

end Runs

end ScriptLowering.Lowering
