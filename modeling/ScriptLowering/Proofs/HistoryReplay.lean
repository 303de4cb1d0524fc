import ScriptLowering.Proofs.EarlyChecks
import ScriptLowering.Proofs.Globals
import ScriptLowering.Proofs.History
import ScriptLowering.Proofs.LockstepSessions

/-! # Replaying the history of a run

What a step does can be told from its task and from what is known when its turn comes: the
operands of an expression have their values by then. A history can therefore be replayed step by
step, and what holds of a run is shown by following its history.
-/

namespace ScriptLowering.Lowering

open Source (Program ExprId ExprNode StmtId VarDecl VarId)
open Code (BlockId Instruction Operand Place Position Terminator Ty)

/-! ## What sessions keep -/

/-- The session knows what has been learnt, and functions keep their signatures. -/
structure Session.Retains (session next : Session) : Prop where
  values : ∀ id value, session.annotations.value? id = some value →
    next.annotations.value? id = some value
  storage : ∀ id address, session.annotations.storageOf id = .ok address →
    next.annotations.storageOf id = .ok address
  loops : ∀ id blocks, session.annotations.loopOf id = .ok blocks →
    next.annotations.loopOf id = .ok blocks
  signatures : ∀ name, (next.cursor.module.function? name).map Code.Function.signature =
    (session.cursor.module.function? name).map Code.Function.signature

namespace Session.Retains

variable {session middle next : Session}

theorem refl (session : Session) : session.Retains session :=
  ⟨fun _ _ => id, fun _ _ => id, fun _ _ => id, fun _ => rfl⟩

theorem trans (first : session.Retains middle) (second : middle.Retains next) :
    session.Retains next where
  values id value known := second.values id value (first.values id value known)
  storage id address known := second.storage id address (first.storage id address known)
  loops id blocks known := second.loops id blocks (first.loops id blocks known)
  signatures name := (second.signatures name).trans (first.signatures name)

theorem put (session : Session) (name : String) (place : Place) :
    session.Retains (session.put name place) where
  values _ _ := id
  storage _ _ := id
  loops _ _ := id
  signatures other := by
    rw [Session.function?_put]
    split
    · cases session.cursor.module.function? other <;> rfl
    · rfl

theorem addText (session : Session) (text : String) : session.Retains (session.addText text) :=
  ⟨fun _ _ => id, fun _ _ => id, fun _ _ => id, fun _ => rfl⟩

theorem addGlobal (session : Session) (decl : VarDecl) (initial : Code.Constant) :
    session.Retains (session.addGlobal decl initial) :=
  ⟨fun _ _ => id, fun _ _ => id, fun _ _ => id, fun _ => rfl⟩

theorem setValue {id : ExprId} {value : Operand} {annotations : Annotations}
    (sets : session.annotations.setValue id value = .ok annotations) :
    session.Retains { session with annotations := annotations } where
  values _ _ known := Annotations.value?_kept sets known
  storage _ _ stored := (Annotations.setValue_eq_ok.mp sets).2 ▸ stored
  loops _ _ known := (Annotations.setValue_eq_ok.mp sets).2 ▸ known
  signatures _ := rfl

theorem setStorage {id : VarId} {address : Operand} {annotations : Annotations}
    (sets : session.annotations.setStorage id address = .ok annotations) :
    session.Retains { session with annotations := annotations } where
  values _ _ known := (Annotations.setStorage_eq_ok.mp sets).2 ▸ known
  storage _ _ stored := Annotations.storageOf_kept sets stored
  loops _ _ known := (Annotations.setStorage_eq_ok.mp sets).2 ▸ known
  signatures _ := rfl

theorem setLoop {id : StmtId} {blocks : LoopBlocks} {annotations : Annotations}
    (sets : session.annotations.setLoop id blocks = .ok annotations) :
    session.Retains { session with annotations := annotations } where
  values _ _ known := (Annotations.setLoop_eq_ok.mp sets).2 ▸ known
  storage _ _ stored := (Annotations.setLoop_eq_ok.mp sets).2 ▸ stored
  loops _ _ known := Annotations.loopOf_kept sets known
  signatures _ := rfl

end Session.Retains

/-! ## Code behind operands -/

/-- The values that have been recorded for some expressions. -/
def Session.HasValues (session : Session) (ids : List ExprId) (values : List Operand) : Prop :=
  ids.map session.annotations.value? = values.map some

theorem Session.HasValues.nil (session : Session) : session.HasValues [] [] := rfl

/-- What is added to the module before the code of an expression. -/
def Session.prepare (session : Session) : ExprNode → Session
  | .stringLiteral text => session.addText text
  | .booleanLiteral _ | .integerLiteral _ | .identifier _ _ | .call _ _ | .unary _ _
  | .binary _ _ _ => session

theorem Session.Builds.prepare {session : Session} {name : String} {place : Place}
    (builds : session.Builds name place) (node : ExprNode) :
    (session.prepare node).Builds name place := by
  cases node with
  | stringLiteral text => exact ⟨builds.position, builds.body⟩
  | _ => exact builds

theorem Session.Retains.prepare (session : Session) (node : ExprNode) :
    session.Retains (session.prepare node) := by
  cases node with
  | stringLiteral text => exact .addText session text
  | _ => exact .refl session

variable {program : Program}

/-- The code of a node has been added behind that of its operands. -/
inductive Session.Emits (program : Program) (node : ExprNode) (name : String)
    (before : Session) (value : Option Operand) (after : Session) : Prop
  | intro {place next : Place} {values : List Operand} (builds : before.Builds name place)
      (operands : before.HasValues (operandsOf node) values)
      (emits : Lowering.Emits program after node values place value next)
      (same : after = (before.prepare node).put name next) :
      Session.Emits program node name before value after

def HasComputed (lower : ExprId → Lower Operand) (node : ExprNode) (session ready : Session) : Prop :=
  ∃ values, (operandsOf node).mapM lower session = .ok (values, ready)

/-- The node has been lowered: first the operands, and then the code behind them. -/
def Session.Lowers (program : Program) (lower : ExprId → Lower Operand) (node : ExprNode)
    (name : String) (session : Session) (value : Option Operand) (next : Session) : Prop :=
  ∃ ready, HasComputed lower node session ready ∧ ready.Emits program node name value next

/-- Lowering an operand leads to a session that stands in the same function and knows the value. -/
def Operates (lower : ExprId → Lower Operand) : Prop :=
  ∀ (id : ExprId) (session : Session) (name : String) (place : Place),
    session.Builds name place → (lower id).Ensures session (fun value next =>
      (∃ after, next.Builds name after) ∧ session.Retains next ∧
        next.annotations.value? id = some value) fun _ => True

section Nodes

variable {lower : ExprId → Lower Operand} (operates : Operates lower)
  {session : Session} {name : String} {place : Place}

include operates

theorem Operates.mapM (builds : session.Builds name place) (ids : List ExprId) :
    (ids.mapM lower).Ensures session (fun values next =>
      (∃ after, next.Builds name after) ∧ session.Retains next ∧ next.HasValues ids values)
      fun _ => True := by
  induction ids generalizing session place with
  | nil => exact .pure ⟨⟨place, builds⟩, .refl session, rfl⟩
  | cons id ids induction =>
      rw [List.mapM_cons]
      refine (operates id session name place builds).bind fun value middle first => ?_
      rcases first with ⟨⟨between, stands⟩, retains, recorded⟩
      refine (induction stands).bind fun values next others => ?_
      rcases others with ⟨stands, retainsOn, has⟩
      refine .pure ⟨stands, retains.trans retainsOn, ?_⟩
      simp only [Session.HasValues, List.map_cons, List.cons.injEq]
      exact ⟨retainsOn.values id value recorded, has⟩

theorem Operates.computed (builds : session.Builds name place) (node : ExprNode) :
    ((operandsOf node).mapM lower).Ensures session (fun values ready =>
      HasComputed lower node session ready ∧ (∃ after, ready.Builds name after) ∧
        session.Retains ready ∧ ready.HasValues (operandsOf node) values) fun _ => True :=
  ((Lower.Ensures.self _ _).and (operates.mapM builds (operandsOf node))).mono
    fun values _ facts => ⟨⟨values, facts.1⟩, facts.2⟩

theorem Operates.computed_one (builds : session.Builds name place) (node : ExprNode)
    {operand : ExprId} (one : operandsOf node = [operand]) :
    (lower operand).Ensures session (fun value ready =>
      HasComputed lower node session ready ∧ (∃ after, ready.Builds name after) ∧
        session.Retains ready ∧ ready.HasValues (operandsOf node) [value]) fun _ => True := by
  have computed := operates.computed builds node
  rw [one, List.mapM_cons, List.mapM_nil] at computed
  refine ((Lower.Ensures.self _ _).and (operates operand session name place builds)).mono
    fun value ready facts => ?_
  rw [one]
  refine computed.post_of_ok (Lower.bind_eq facts.1)

omit operates in
theorem hasComputed_nil {node : ExprNode} (nothing : operandsOf node = [])
    (session : Session) : HasComputed lower node session session :=
  ⟨[], by rw [nothing]; rfl⟩

omit operates in
theorem Session.Lowers.of_emits {node : ExprNode} {value : Option Operand} {next : Session}
    (nothing : operandsOf node = []) (emits : session.Emits program node name value next) :
    session.Lowers program lower node name value next :=
  ⟨session, hasComputed_nil nothing session, emits⟩

omit operates in
theorem lowers_stringLiteral (builds : session.Builds name place) (text : String) :
    (lowerStringLiteral text).Ensures session (fun value next =>
      session.Lowers program lower (.stringLiteral text) name (some value) next)
      fun _ => True := by
  have stands := builds.prepare (.stringLiteral text)
  refine .bind_ok (show _ = Except.ok (Code.DataId.mk session.cursor.module.nextData,
    session.addText text) from rfl) (.of_ok (emit_define_eq stands _ _) (.of_emits rfl ?_))
  exact .intro builds (.nil session) (.stringLiteral (Table.get?_insert_same _ _ _)) rfl

omit operates in
theorem lowers_identifier (builds : session.Builds name place) (text : String) (decl : VarId) :
    (lowerIdentifier program decl).Ensures session (fun value next =>
      session.Lowers program lower (.identifier text decl) name (some value) next)
      fun _ => True := by
  refine .orFault_bind (fun _ => trivial) fun var found => ?_
  refine .consult_bind (fun _ _ => trivial) fun address stored => ?_
  refine .of_ok (emit_define_eq builds _ _) (.of_emits rfl ?_)
  exact .intro builds (.nil session) (.identifier found stored) rfl

theorem lowers_call (builds : session.Builds name place) (callee : String)
    (args : List ExprId) :
    (lowerCall lower callee args).Ensures session (fun value next =>
      session.Lowers program lower (.call callee args) name value next) fun _ => True := by
  refine .bind_ok (rfl : Lower.cursor session = .ok (session.cursor, session)) ?_
  cases found : session.cursor.module.function? callee with
  | none => exact .of_error rfl trivial
  | some function =>
      by_cases arity : function.arity = args.length
      · simp only [if_pos arity]
        refine (operates.computed builds (.call callee args)).bind fun values ready facts => ?_
        rcases facts with ⟨computed, ⟨between, stands⟩, retains, has⟩
        have signature : (ready.cursor.module.function? callee).map Code.Function.signature =
            some function.signature := by
          rw [retains.signatures, found]
          rfl
        have declared (next : Place) :
            ((ready.put name next).cursor.module.function? callee).map
              Code.Function.signature = some function.signature :=
          ((Session.Retains.put ready name next).signatures callee).trans signature
        have calls := emit_call_eq stands callee function.signature.returns values
        cases returns : function.signature.returns.isVoid with
        | true =>
            rw [returns, if_pos rfl] at calls
            refine .of_ok calls ⟨ready, computed, .intro stands has ?_ rfl⟩
            exact .callNothing (declared _) arity returns
        | false =>
            rw [returns, if_neg Bool.false_ne_true] at calls
            refine .of_ok calls ⟨ready, computed, .intro stands has ?_ rfl⟩
            exact .callValue (declared _) arity returns
      · simp only [if_neg arity]
        exact .of_error rfl trivial

theorem lowers_unary (builds : session.Builds name place) (op : Source.UnaryOp)
    (operand : ExprId) :
    (lowerUnary program lower op operand).Ensures session (fun value next =>
      session.Lowers program lower (.unary op operand) name (some value) next)
      fun _ => True := by
  refine .orFault_bind (fun _ => trivial) fun expr found => ?_
  split
  · rename_i negates
    rcases negates with ⟨rfl, _⟩
    refine (operates.computed_one builds (.unary .minus operand) rfl).bind
      fun value ready facts => ?_
    rcases facts with ⟨computed, ⟨between, stands⟩, _, has⟩
    refine .of_ok (emit_define_eq stands _ _) ⟨ready, computed, ?_⟩
    exact .intro stands has .negate rfl
  · exact .of_error rfl trivial

theorem lowers_assignment (builds : session.Builds name place) (left right : ExprId) :
    (lowerAssignment program lower left right).Ensures session (fun value next =>
      session.Lowers program lower (.binary .assign left right) name (some value) next)
      fun _ => True := by
  refine .orFault_bind (fun _ => trivial) fun target found => ?_
  cases isIdentifier : target.node with
  | identifier text decl =>
      refine (operates.computed_one builds (.binary .assign left right) rfl).bind
        fun value ready facts => ?_
      rcases facts with ⟨computed, ⟨between, stands⟩, _, has⟩
      refine .consult_bind (fun _ _ => trivial) fun address stored => ?_
      refine .bind_ok (append_add_eq stands (.store address value)) (.pure ?_)
      exact ⟨ready, computed, .intro stands has (.assign found isIdentifier stored) rfl⟩
  | _ => exact .of_error rfl trivial

omit operates in
theorem emits_operation {op : Source.BinaryOp} {left right : ExprId} {expr : Source.Expr}
    {operation : Operation} {first second : Operand} (builds : session.Builds name place)
    (plain : op ≠ .assign) (found : program.expr? left = some expr)
    (means : operation? op expr.ty = some operation)
    (has : session.HasValues [left, right] [first, second]) :
    (emitOperation first second operation).Ensures session (fun value next =>
      session.Emits program (.binary op left right) name (some value) next)
      fun _ => True := by
  have operands : session.HasValues (operandsOf (.binary op left right)) [first, second] := by
    simpa only [operandsOf, if_neg plain] using has
  cases operation with
  | arith operator =>
      exact .of_ok (emit_define_eq builds _ _)
        (.intro builds operands (.arith found means) rfl)
  | compare condition =>
      exact .of_ok (emit_define_eq builds _ _)
        (.intro builds operands (.compare found means) rfl)
  | concat =>
      exact .of_ok (emit_define_eq builds _ _)
        (.intro builds operands (.concat found means) rfl)
  | compareStrings condition =>
      refine .bind_ok (emit_define_eq builds _ _) ?_
      refine .of_ok (emit_define_eq (builds.put _) _ _) ?_
      refine .intro builds operands (.compareStrings found means rfl) ?_
      simp only [Session.prepare, Session.put_put]

theorem lowers_binary (builds : session.Builds name place) (op : Source.BinaryOp)
    (left right : ExprId) :
    (lowerBinary program lower op left right).Ensures session (fun value next =>
      session.Lowers program lower (.binary op left right) name (some value) next)
      fun _ => True := by
  unfold lowerBinary
  split
  · rename_i assigns
    subst assigns
    exact lowers_assignment operates builds left right
  · rename_i plain
    refine .orFault_bind (fun _ => trivial) fun expr found => ?_
    cases means : operation? op expr.ty with
    | none => exact .of_error rfl trivial
    | some operation =>
        have computes := operates.computed builds (.binary op left right)
        simp only [operandsOf, if_neg plain] at computes
        rw [List.mapM_cons] at computes
        refine ((Lower.Ensures.self _ _).and (operates left session name place builds)).bind
          fun first middle firstFacts => ?_
        rcases firstFacts with ⟨firstRuns, ⟨between, stands⟩, _, _⟩
        refine ((Lower.Ensures.self _ _).and (operates right middle name between stands)).bind
          fun second ready secondFacts => ?_
        have runs : (do
            let value ← lower left
            let values ← [right].mapM lower
            pure (value :: values)) session = .ok ([first, second], ready) := by
          have others : [right].mapM lower middle = .ok ([second], ready) := by
            rw [List.mapM_cons, Lower.bind_eq secondFacts.1]
            rfl
          rw [Lower.bind_eq firstRuns, Lower.bind_eq others]
          rfl
        have facts := computes.post_of_ok runs
        rcases facts with ⟨computed, ⟨place, stands⟩, _, has⟩
        refine (emits_operation stands plain found means has).mono fun value next emits => ?_
        exact ⟨ready, computed, emits⟩

theorem lowers_node (builds : session.Builds name place) (node : ExprNode) :
    (lowerNode program lower node).Ensures session (fun value next =>
      session.Lowers program lower node name value next) fun _ => True := by
  cases node with
  | booleanLiteral value =>
      exact .pure (.of_emits rfl (.intro builds (.nil session) .booleanLiteral builds.put_self.symm))
  | integerLiteral value =>
      exact .pure (.of_emits rfl (.intro builds (.nil session) .integerLiteral builds.put_self.symm))
  | stringLiteral text => exact .map (lowers_stringLiteral builds text)
  | identifier text decl => exact .map (lowers_identifier builds text decl)
  | call callee args => exact lowers_call operates builds callee args
  | unary op operand => exact .map (lowers_unary operates builds op operand)
  | binary op left right => exact .map (lowers_binary operates builds op left right)

end Nodes

/-! ## Steps -/

/-- The initial value that has been recorded for a variable. -/
def Session.HasInitial (session : Session) (decl : VarDecl) (value : Option Operand) : Prop :=
  decl.initial.toList.map session.annotations.value? = value.toList.map some

/-- A jump or a return ends a block by the terminator. -/
def Session.JumpsBy (program : Program) (session : Session) (id : StmtId)
    (terminator : Terminator) : Prop :=
  match program.stmt? id with
  | some (.breakLoop target) =>
      ∃ blocks, session.annotations.loopOf target = .ok blocks ∧ terminator = .jump blocks.exit
  | some (.continueLoop target) =>
      ∃ blocks, session.annotations.loopOf target = .ok blocks ∧
        terminator = .jump blocks.continueTarget
  | some (.returnValue result) =>
      ∃ value : Option Operand, terminator = .ret value ∧
        result.toList.map session.annotations.value? = value.toList.map some
  | _ => False

/-- Where the initial value of a global has been stored, unless the global starts with it. -/
def storeInitial (program : Program) (decl : VarDecl) (global : Operand)
    (value : Option Operand) (place : Place) : Place :=
  match value with
  | some value =>
      if decl.ty = .string ∨ ¬ isLiteralInitial program decl then
        place.ready.add (.store global value)
      else place
  | none => place

/-- Where the slot of a local variable has been reserved, and its initial value stored. -/
def fillSlot (ty : Source.Ty) (value : Option Operand) (place : Place) : Place :=
  let slotted := place.ready.define .ptr fun result => .alloca result (codeType ty) (alignment ty)
  match value with
  | some value => slotted.ready.add (.store (.temp place.ready.freshTemp) value)
  | none => slotted

/-- What a task does. Code goes into the function `name`. -/
inductive Task.Performs (program : Program) (name : String) : Task → Session → Session → Prop
  | start {function : Code.Function} {before : Session}
      (found : before.cursor.module.function? name = some function) :
      Performs program name (.start name) before
        (before.put name (Place.mk function.body none).opened)
  | param {id : VarId} {index : Nat} {decl : VarDecl} {before : Session} {place : Place}
      {annotations : Annotations} (found : program.var? id = some decl)
      (builds : before.Builds name place)
      (sets : before.annotations.setStorage id (.temp place.ready.freshTemp) = .ok annotations) :
      Performs program name (.param id index) before
        { before.put name (fillSlot decl.ty (some (.param ⟨index.toUInt32⟩)) place) with
          annotations := annotations }
  | expr {id : ExprId} {expr : Source.Expr} {value : Option Operand} {before mid after : Session}
      (found : program.expr? id = some expr)
      (emits : before.Emits program expr.node name value mid)
      (records : recordValue id value mid = .ok ((), after)) :
      Performs program name (.expr id) before after
  | global {id : VarId} {decl : VarDecl} {value : Option Operand} {initial : Code.Constant}
      {before : Session} {place : Place} {annotations : Annotations}
      (found : program.var? id = some decl) (notVoid : decl.ty ≠ .void)
      (topLevel : decl.scope = .topLevel) (has : before.HasInitial decl value)
      (starts : globalInitial decl (isLiteralInitial program decl) value = .ok initial)
      (builds : before.Builds name place)
      (sets : before.annotations.setStorage id (.global ⟨before.cursor.module.nextGlobal⟩) =
        .ok annotations) :
      Performs program name (.var id) before
        { (before.addGlobal decl initial).put name (storeInitial program decl
            (.global ⟨before.cursor.module.nextGlobal⟩) value place) with
          annotations := annotations }
  | slot {id : VarId} {decl : VarDecl} {value : Option Operand} {before : Session}
      {place : Place} {annotations : Annotations} (found : program.var? id = some decl)
      (notVoid : decl.ty ≠ .void) (isLocal : decl.scope = .local)
      (has : before.HasInitial decl value) (builds : before.Builds name place)
      (sets : before.annotations.setStorage id (.temp place.ready.freshTemp) = .ok annotations) :
      Performs program name (.var id) before
        { before.put name (fillSlot decl.ty value place) with annotations := annotations }
  | create {id : StmtId} {label : String} {before : Session} {place : Place}
      (builds : before.Builds name place) :
      Performs program name (.create id label place.freshBlock) before
        (before.put name (place.create label))
  | loop {id : StmtId} {blocks : LoopBlocks} {before : Session} {place : Place}
      {annotations : Annotations} (builds : before.Builds name place)
      (sets : before.annotations.setLoop id blocks = .ok annotations) :
      Performs program name (.loop id blocks) before { before with annotations := annotations }
  | test {id : StmtId} {value : Operand} {thenBlock elseBlock : BlockId} {before : Session}
      {place : Place} (builds : before.Builds name place) :
      Performs program name (.test id value thenBlock elseBlock) before
        (before.put name (place.ready.terminate (.branch value thenBlock elseBlock)))
  | enter {id : StmtId} {block : BlockId} {closing : Bool} {before : Session}
      {place next : Place} (builds : before.Builds name place)
      (enters : place.tryEnter block closing = .ok next) :
      Performs program name (.enter id block closing) before (before.put name next)
  | leave {id : StmtId} {target : BlockId} {before : Session} {place : Place}
      (builds : before.Builds name place) :
      Performs program name (.leave id target) before (before.put name (place.leaveTo target))
  | jump {id : StmtId} {terminator : Terminator} {before : Session} {place : Place}
      (builds : before.Builds name place) (jumps : before.JumpsBy program id terminator) :
      Performs program name (.jump id) before (before.put name (place.ready.terminate terminator))
  | returnIfLive {value : Option Operand} {before : Session} {place : Place}
      (builds : before.Builds name place) :
      Performs program name (.returnIfLive value) before
        (before.put name (place.returnIfLive value))
  | finish {before : Session} {place : Place} (builds : before.Builds name place) :
      Performs program name (.finish name) before (before.put name place.pruned)
  | resume {position : Position} {before : Session} {place : Place}
      (builds : before.Builds name place) :
      Performs program name (.resume position) before
        { before with cursor := before.cursor.setPosition position }
  | come {depth : Nat} {id : StmtId} {before : Session} {place : Place}
      (builds : before.Builds name place) : Performs program name (.come depth id) before before

theorem recordValue_eq_ok {id : ExprId} {value : Option Operand} {session next : Session}
    (records : recordValue id value session = .ok ((), next)) :
    next.cursor = session.cursor ∧ session.Retains next ∧
      ∀ known, value = some known → next.annotations.value? id = some known := by
  cases value with
  | none =>
      cases records
      exact ⟨rfl, .refl session, fun _ same => by cases same⟩
  | some value =>
      simp only [recordValue, Lower.annotate] at records
      split at records
      · rename_i annotations sets
        cases records
        refine ⟨rfl, .setValue sets, ?_⟩
        rintro _ ⟨⟩
        rw [Annotations.value?_of_setValue sets, if_pos rfl]
      · cases records

theorem Session.Emits.retains {node : ExprNode} {name : String} {before after : Session}
    {value : Option Operand} (emits : before.Emits program node name value after) :
    before.Retains after := by
  cases emits with
  | intro _ _ _ same =>
      rw [same]
      exact (Session.Retains.prepare before node).trans (.put _ _ _)

theorem Session.Emits.stands {node : ExprNode} {name : String} {before after : Session}
    {value : Option Operand} (emits : before.Emits program node name value after) :
    ∃ place, after.Builds name place := by
  cases emits with
  | intro builds _ _ same => exact ⟨_, same ▸ (builds.prepare node).put _⟩

theorem Task.Performs.retains {task : Task} {name : String} {before after : Session}
    (performs : task.Performs program name before after) : before.Retains after := by
  cases performs with
  | start | create | test | enter | leave | jump | returnIfLive | finish => exact .put _ _ _
  | param _ _ sets => exact (Session.Retains.setStorage sets).trans (.put _ name _)
  | expr _ emits records => exact emits.retains.trans (recordValue_eq_ok records).2.1
  | @global _ decl _ initial _ _ _ _ _ _ _ _ _ sets =>
      exact ((Session.Retains.setStorage sets).trans (.addGlobal _ decl initial)).trans
        (.put _ name _)
  | slot _ _ _ _ _ sets => exact (Session.Retains.setStorage sets).trans (.put _ name _)
  | loop _ sets => exact .setLoop sets
  | resume | come => exact ⟨fun _ _ => id, fun _ _ => id, fun _ _ => id, fun _ => rfl⟩

/-- The value that an expression has was there before, or comes with the code of the expression. -/
theorem Task.Performs.value_cases {task : Task} {name : String} {before after : Session}
    (performs : task.Performs program name before after) {id : ExprId} {value : Operand}
    (known : after.annotations.value? id = some value) :
    before.annotations.value? id = some value ∨ ∃ expr mid, task = .expr id ∧
      program.expr? id = some expr ∧ before.Emits program expr.node name (some value) mid := by
  cases performs with
  | start | create | test | enter | leave | jump | returnIfLive | finish | resume
  | come => exact .inl known
  | param _ _ sets | global _ _ _ _ _ _ sets | slot _ _ _ _ _ sets =>
      rcases Annotations.setStorage_eq_ok.mp sets with ⟨_, rfl⟩
      exact .inl known
  | loop _ sets =>
      rcases Annotations.setLoop_eq_ok.mp sets with ⟨_, rfl⟩
      exact .inl known
  | @expr other expr recorded _ mid _ found emits records =>
      have values : mid.annotations = before.annotations := by
        rcases emits with ⟨_, _, _, same⟩
        rw [same]
        cases expr.node <;> rfl
      cases recorded with
      | none =>
          cases records
          rw [values] at known
          exact .inl known
      | some recorded =>
          simp only [recordValue, Lower.annotate] at records
          split at records
          · rename_i annotations sets
            cases records
            rw [Annotations.value?_of_setValue sets, values] at known
            split at known
            · rename_i same
              subst same
              cases known
              exact .inr ⟨expr, mid, rfl, found, emits⟩
            · exact .inl known
          · cases records

/-- The steps lead from one session to the other. -/
inductive Path (program : Program) : Session → List Event → Session → Prop
  | nil {session : Session} : Path program session [] session
  | cons {name : String} {event : Event} {events : List Event} {last : Session}
      (performs : event.task.Performs program name event.before event.after)
      (rest : Path program event.after events last) :
      Path program event.before (event :: events) last

namespace Path

variable {first middle last : Session} {events more : List Event}

theorem append (early : Path program first events middle) (late : Path program middle more last) :
    Path program first (events ++ more) last := by
  induction early with
  | nil => exact late
  | cons performs _ induction => exact .cons performs (induction late)

theorem single {name : String} {task : Task} (performs : task.Performs program name first last) :
    Path program first [⟨task, first, last⟩] last :=
  @Path.cons program name ⟨task, first, last⟩ [] last performs .nil

theorem retains (path : Path program first events last) : first.Retains last := by
  induction path with
  | nil => exact .refl _
  | cons performs _ induction => exact performs.retains.trans induction

theorem exists_of_mem (path : Path program first events last) {event : Event}
    (member : event ∈ events) : ∃ name early late, events = early ++ event :: late ∧
      Path program first early event.before ∧
      event.task.Performs program name event.before event.after ∧
      Path program event.after late last := by
  induction path with
  | nil => cases member
  | @cons name head rest last performs way induction =>
      rcases List.mem_cons.mp member with rfl | isLater
      · exact ⟨name, [], rest, rfl, .nil, performs, way⟩
      · rcases induction isLater with ⟨other, early, late, rfl, leads, performsLater, goesOn⟩
        exact ⟨other, head :: early, late, rfl, .cons performs leads, performsLater, goesOn⟩

end Path

/-! ## What is told can be replayed -/

/-- A run that comes to its end ensures something of what it tells, of its result and of the
session it leads to. -/
def Told.Ensures {α : Type} (told : Told α) (session : Session)
    (post : List Event → α → Session → Prop) : Prop :=
  ∀ events value next, told session = (events, .ok (value, next)) → post events value next

namespace Told.Ensures

variable {α β : Type} {told : Told α} {session : Session}
  {post : List Event → α → Session → Prop}

theorem mono (ensures : told.Ensures session post)
    {weaker : List Event → α → Session → Prop}
    (weakens : ∀ events value next, post events value next → weaker events value next) :
    told.Ensures session weaker :=
  fun events value next runs => weakens events value next (ensures events value next runs)

theorem pure {value : α} (holds : post [] value session) :
    (Pure.pure value : Told α).Ensures session post := by
  intro events result next runs
  cases runs
  exact holds

theorem bind {rest : α → Told β} {final : List Event → β → Session → Prop}
    (first : told.Ensures session post)
    (second : ∀ events value next, post events value next →
      (rest value).Ensures next fun more result last => final (events ++ more) result last) :
    (told >>= rest).Ensures session final := by
  intro events result last runs
  change Told.bind told rest session = _ at runs
  unfold Told.bind at runs
  rcases tells : told session with ⟨early, error | ⟨value, next⟩⟩
  · rw [tells] at runs
    cases runs
  · rw [tells] at runs
    have tellsLast : early ++ (rest value next).1 = events := congrArg Prod.fst runs
    have leads : (rest value next).2 = .ok (result, last) := congrArg Prod.snd runs
    rw [← tellsLast]
    exact second early value next (first early value next tells) _ result last
      (Prod.ext rfl leads)

theorem asking {step : Lower α}
    (ensures : step.Ensures session (fun value next => post [] value next) fun _ => True) :
    (Told.asking step).Ensures session post := by
  intro events value next runs
  cases congrArg Prod.fst runs
  exact ensures.post_of_ok (congrArg Prod.snd runs)

theorem telling {step : Lower α} {task : α → Task}
    (ensures : step.Ensures session
      (fun value next => post [⟨task value, session, next⟩] value next) fun _ => True) :
    (Told.telling task step).Ensures session post := by
  intro events value next runs
  unfold Told.telling at runs
  cases result : step session with
  | error error =>
      rw [result] at runs
      cases runs
  | ok pair =>
      rw [result] at runs
      cases runs
      exact ensures.post_of_ok result

theorem come (depth : Nat) (id : StmtId) (session : Session) :
    (Told.telling (fun _ => .come depth id) (return ()) : Told Unit).Ensures session
      fun events _ next => events = [⟨.come depth id, session, next⟩] ∧ session = next :=
  telling (.pure ⟨rfl, rfl⟩)

end Told.Ensures

/-- Expressions have been lowered in the function `name`. -/
structure Codes (program : Program) (name : String) (session : Session) (events : List Event)
    (next : Session) : Prop where
  path : Path program session events next
  stands : ∃ place, next.Builds name place
  retains : session.Retains next
  tasks : ∀ event ∈ events, ∃ id, event.task = .expr id

namespace Codes

variable {name : String} {session middle next : Session} {events more : List Event}

theorem nil {place : Place} (builds : session.Builds name place) :
    Codes program name session [] session :=
  ⟨.nil, ⟨place, builds⟩, .refl session, fun _ member => by cases member⟩

theorem append (early : Codes program name session events middle)
    (late : Codes program name middle more next) :
    Codes program name session (events ++ more) next where
  path := early.path.append late.path
  stands := late.stands
  retains := early.retains.trans late.retains
  tasks event member :=
    (List.mem_append.mp member).elim (early.tasks event) (late.tasks event)

end Codes

def Session.HasValue (session : Session) (id : ExprId) (value : Option Operand) : Prop :=
  ∀ known, value = some known → session.annotations.value? id = some known

/-- Lower an expression that stands where a value is needed. -/
def lowerOperand (lower : ExprId → Lower (Option Operand)) (id : ExprId) : Lower Operand := do
  requireValue id (← lower id)

section Expressions

variable {session : Session} {name : String} {place : Place}

theorem tellEach_codes {tell : ExprId → Told (Option Operand)}
    (tells : ∀ id (session : Session) place, session.Builds name place →
      (tell id).Ensures session fun events _ next => Codes program name session events next)
    {ids : List ExprId} (builds : session.Builds name place) {values : List Operand}
    {ready : Session}
    (runs : ids.mapM (lowerOperand fun id => (tell id).step) session = .ok (values, ready)) :
    (tellEach tell ids session).2 = ready ∧
      Codes program name session (tellEach tell ids session).1 ready := by
  induction ids generalizing session place values with
  | nil =>
      cases runs
      exact ⟨rfl, .nil builds⟩
  | cons id ids induction =>
      rw [List.mapM_cons] at runs
      rcases Lower.bind_eq_ok.mp runs with ⟨first, between, operand, rest⟩
      rcases Lower.bind_eq_ok.mp operand with ⟨value, middle, lowers, requires⟩
      rcases Lower.bind_eq_ok.mp rest with ⟨others, last, lowersRest, same⟩
      cases same
      have unmoved : between = middle := by
        cases value <;> cases requires
        rfl
      subst unmoved
      have told : tell id session = ((tell id session).1, .ok (value, between)) :=
        Prod.ext rfl lowers
      have codes := tells id session place builds _ _ _ told
      rcases codes.stands with ⟨stood, stands⟩
      rcases induction stands lowersRest with ⟨same, codesRest⟩
      rw [tellEach, told]
      exact ⟨same, codes.append codesRest⟩

theorem tellExprWithin_codes (depth : Nat) (id : ExprId) (builds : session.Builds name place) :
    (tellExprWithin program depth id).Ensures session fun events value next =>
      Codes program name session events next ∧ next.HasValue id value := by
  induction depth generalizing id session name place with
  | zero =>
      intro events value next runs
      cases congrArg Prod.snd runs
  | succ depth induction =>
      have operates : Operates (lowerOperand (lowerExprWithin program depth)) := by
        intro operand session name place builds
        refine (Lower.Ensures.self _ _).bind fun value middle runs => ?_
        rw [← step_tellExprWithin] at runs
        have facts := induction operand builds _ _ _ (Prod.ext rfl runs)
        refine .of_bind_pure (.orFault_bind (fun _ => trivial) fun known found => ?_)
        exact .pure ⟨facts.1.stands, facts.1.retains, facts.2 known found⟩
      intro events value next runs
      unfold tellExprWithin at runs
      split at runs
      · cases runs
      · rename_i result after whole
        cases runs
        rcases Lower.bind_eq_ok.mp whole with ⟨expr, begun, finds, rest⟩
        rcases Lower.bind_eq_ok.mp rest with ⟨computed, mid, node, rest⟩
        rcases Lower.bind_eq_ok.mp rest with ⟨_, last, records, same⟩
        cases same
        cases found : program.expr? id with
        | none =>
            rw [found] at finds
            cases finds
        | some known =>
            rw [found] at finds
            cases finds
            rcases (lowers_node operates builds expr.node).post_of_ok node with
              ⟨ready, ⟨values, computes⟩, emits⟩
            rw [← funext (step_tellExprWithin depth)] at computes
            rcases tellEach_codes (fun id session place builds =>
              (induction id builds).mono fun _ _ _ => And.left) builds computes with
              ⟨leads, codes⟩
            have learns := recordValue_eq_ok records
            have code : Codes program name ready [⟨.expr id, ready, next⟩] next := by
              refine ⟨.single (.expr found emits records), ?_, ?_, ?_⟩
              · rcases emits.stands with ⟨after, stands⟩
                exact ⟨after, by rw [Session.Builds, learns.1]; exact stands⟩
              · exact emits.retains.trans learns.2.1
              · rintro event member
                cases List.mem_singleton.mp member
                exact ⟨id, rfl⟩
            simp only [Option.elim_some, leads]
            exact ⟨codes.append code, learns.2.2⟩

theorem tellValue_codes (id : ExprId) (builds : session.Builds name place) :
    (tellValue program id).Ensures session fun events value next =>
      Codes program name session events next ∧ next.annotations.value? id = some value := by
  refine Told.Ensures.bind (tellExprWithin_codes _ id builds) fun events value next facts => ?_
  refine .asking ?_
  refine .of_bind_pure (.orFault_bind (fun _ => trivial) fun known found => .pure ?_)
  rw [List.append_nil]
  exact ⟨facts.1, facts.2 known found⟩

theorem tellEffect_codes (id : ExprId) (builds : session.Builds name place) :
    (tellEffect program id).Ensures session fun events _ next =>
      Codes program name session events next := by
  refine Told.Ensures.bind (tellExprWithin_codes _ id builds) fun events value next facts => ?_
  refine .pure ?_
  rw [List.append_nil]
  exact facts.1

theorem tellExprs_codes (ids : List ExprId) (builds : session.Builds name place) :
    (tellExprs program ids).Ensures session fun events _ next =>
      Codes program name session events next := by
  induction ids generalizing session place with
  | nil => exact .pure (.nil builds)
  | cons id ids induction =>
      refine Told.Ensures.bind (tellEffect_codes id builds) fun events _ next codes => ?_
      rcases codes.stands with ⟨after, stands⟩
      exact (induction stands).mono fun _ _ _ rest => codes.append rest

theorem tellInitial_codes (decl : VarDecl) (builds : session.Builds name place) :
    (tellInitial program decl).Ensures session fun events value next =>
      Codes program name session events next ∧ next.HasInitial decl value := by
  unfold tellInitial
  cases initial : decl.initial with
  | none => exact .pure ⟨.nil builds, by rw [Session.HasInitial, initial]; rfl⟩
  | some id =>
      refine Told.Ensures.bind (tellValue_codes id builds) fun events value next facts => ?_
      refine .pure ?_
      rw [List.append_nil]
      refine ⟨facts.1, ?_⟩
      rw [Session.HasInitial, initial]
      exact congrArg (fun known => [known]) facts.2

end Expressions

/-! ### Other steps -/

section Steps

variable {session : Session} {name : String} {place : Place}

theorem Session.Builds.addGlobal (builds : session.Builds name place) (decl : VarDecl)
    (initial : Code.Constant) : (session.addGlobal decl initial).Builds name place :=
  ⟨builds.position, builds.body⟩

theorem Task.Performs.stands {task : Task} {before after : Session}
    (performs : task.Performs program name before after)
    (stays : ∀ position, task ≠ .resume position) : ∃ place, after.Builds name place := by
  cases performs with
  | start found =>
      exact ⟨_, rfl, _, by rw [Session.function?_put, if_pos rfl, found]; rfl, rfl⟩
  | param _ builds | slot _ _ _ _ builds =>
      exact ⟨_, (builds.put _).position, (builds.put _).body⟩
  | global _ _ _ _ _ builds =>
      exact ⟨_, ((builds.addGlobal _ _).put _).position, ((builds.addGlobal _ _).put _).body⟩
  | expr _ emits records =>
      rcases emits.stands with ⟨after, stands⟩
      exact ⟨after, by rw [Session.Builds, (recordValue_eq_ok records).1]; exact stands⟩
  | create builds | test builds | enter builds | leave builds | jump builds
  | returnIfLive builds | finish builds => exact ⟨_, builds.put _⟩
  | loop builds | come builds => exact ⟨_, builds.position, builds.body⟩
  | resume => exact absurd rfl (stays _)

theorem setStorage_bind {id : VarId} {address : Operand} {post : Unit → Session → Prop}
    (holds : ∀ annotations, session.annotations.setStorage id address = .ok annotations →
      post () { session with annotations := annotations }) :
    (Lower.annotate fun annotations => annotations.setStorage id address).Ensures session post
      fun _ => True :=
  .of_bind_pure (.annotate_bind (fun _ _ => trivial) fun annotations sets =>
    .pure (holds annotations sets))

theorem performs_openFunction (session : Session) (name : String) :
    (openFunction name).Ensures session
      (fun _ next => (Task.start name).Performs program name session next) fun _ => True := by
  let moved : Session :=
    { session with cursor := session.cursor.setPosition (.inFunction name) }
  refine .bind_ok (rfl : Lower.moveCursor _ session = .ok ((), moved)) ?_
  cases found : session.cursor.module.function? name with
  | none =>
      have missing : createBlock "entry" moved = .error (.build (.functionMissing name)) := by
        have unknown : moved.cursor.module.function? name = none := found
        simp only [createBlock, Lower.buildWith, Code.Cursor.createBlock, Code.Cursor.currentName,
          Code.Cursor.currentBody, Code.Cursor.currentFunction, bind, Except.bind]
        rw [show moved.cursor.position.function = some name from rfl]
        simp only [unknown]
      exact .of_error (Lower.bind_eq_error missing) trivial
  | some function =>
      have builds : moved.Builds name ⟨function.body, none⟩ := ⟨rfl, function, found, rfl⟩
      let created : Place := (Place.mk function.body none).create "entry"
      refine .bind_ok (createBlock_eq builds "entry") ?_
      refine (Lower.Ensures.self _ _).bind fun _ next appends => ?_
      rw [attempt_append (builds.put created)] at appends
      cases lays : created.tryLayOut (Place.mk function.body none).freshBlock none with
      | error error =>
          rw [lays] at appends
          cases appends
      | ok laid =>
          rw [lays] at appends
          cases appends
          rcases Code.bind_unit_eq_ok.mp lays with ⟨_, same⟩
          cases same
          rw [Session.put_put]
          exact .of_ok rfl (.start found)

theorem performs_lowerParam (builds : session.Builds name place) (id : VarId) (index : Nat) :
    (lowerParam program id index).Ensures session
      (fun _ next => (Task.param id index).Performs program name session next) fun _ => True := by
  refine .orFault_bind (fun _ => trivial) fun decl found => ?_
  refine .bind_ok (emit_define_eq builds _ _) ?_
  refine .bind_ok (append_add_eq (builds.put _) (.store _ _)) ?_
  rw [Session.put_put]
  exact setStorage_bind fun annotations sets => .param found builds sets

theorem performs_lowerLocal {id : VarId} {decl : VarDecl} {value : Option Operand}
    (found : program.var? id = some decl) (notVoid : decl.ty ≠ .void)
    (isLocal : decl.scope = .local) (has : session.HasInitial decl value)
    (builds : session.Builds name place) :
    (lowerLocal id decl value).Ensures session
      (fun _ next => (Task.var id).Performs program name session next) fun _ => True := by
  refine .bind_ok (emit_define_eq builds _ _) ?_
  cases value with
  | none =>
      exact setStorage_bind fun annotations sets => .slot found notVoid isLocal has builds sets
  | some value =>
      refine .bind_ok (append_add_eq (builds.put _) (.store _ _)) ?_
      rw [Session.put_put]
      exact setStorage_bind fun annotations sets => .slot found notVoid isLocal has builds sets

theorem performs_lowerGlobal {id : VarId} {decl : VarDecl} {value : Option Operand}
    (found : program.var? id = some decl) (notVoid : decl.ty ≠ .void)
    (topLevel : decl.scope = .topLevel) (has : session.HasInitial decl value)
    (builds : session.Builds name place) :
    (lowerGlobal program id decl value).Ensures session
      (fun _ next => (Task.var id).Performs program name session next) fun _ => True := by
  refine .consult_bind (fun _ _ => trivial) fun initial starts => ?_
  let added := session.addGlobal decl initial
  refine .bind_ok (show _ = Except.ok (Code.GlobalId.mk session.cursor.module.nextGlobal, added)
    from rfl) ?_
  have stands : added.Builds name place := builds.addGlobal decl initial
  let global : Operand := .global ⟨session.cursor.module.nextGlobal⟩
  have records {next : Session}
      (same : next = added.put name (storeInitial program decl global value place)) :
      (Lower.annotate fun annotations => annotations.setStorage id global).Ensures next
        (fun _ last => (Task.var id).Performs program name session last) fun _ => True := by
    subst same
    exact setStorage_bind fun annotations sets =>
      .global found notVoid topLevel has starts builds sets
  cases value with
  | none => exact records stands.put_self.symm
  | some value =>
      by_cases needed : decl.ty = .string ∨ ¬ isLiteralInitial program decl
      · simp only [if_pos needed]
        refine .bind_ok (append_add_eq stands (.store global value)) (records ?_)
        simp only [storeInitial, if_pos needed]
      · simp only [if_neg needed]
        refine records ?_
        simp only [storeInitial, if_neg needed]
        exact stands.put_self.symm

end Steps

end ScriptLowering.Lowering
