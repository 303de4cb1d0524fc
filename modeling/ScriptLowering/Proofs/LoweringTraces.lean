import ScriptLowering.Proofs.FunctionGrowth
import ScriptLowering.Proofs.LoweringWalk

/-! # What lowering builds

The way in which lowering takes one place of a function to the next, as relations that know
nothing of the session in between. What a session learns along the way is looked up in
`final`, a session that comes later: what has been written down once stays.
-/

namespace ScriptLowering.Code

/-- A regular place at which a few more blocks and temps can be added. -/
structure Place.Fit (place : Place) : Prop where
  regular : place.Regular
  room : place.Room 8

end ScriptLowering.Code

namespace ScriptLowering.Lowering

open Source (Program ExprNode ExprId Stmt StmtId VarId VarDecl FunctionDecl ForInit)
open Code (BlockId DataId GlobalId Operand Place Signature)

variable (program : Program) (final : Session)

/-! ## Expressions -/

/-- What is added for an expression when its operands have been computed. -/
inductive Emits : ExprNode → List Operand → Place → Option Operand → Place → Prop
  | booleanLiteral {value : Bool} {place : Place} :
      Emits (.booleanLiteral value) [] place (some (.ofBool value)) place
  | integerLiteral {value : Int64} {place : Place} :
      Emits (.integerLiteral value) [] place (some (.ofInt64 value)) place
  | stringLiteral {text : String} {data : DataId} {place : Place}
      (found : final.cursor.module.data.get? data = some ⟨data, Code.Module.textBytes text⟩) :
      Emits (.stringLiteral text) [] place (some (.temp place.ready.freshTemp))
        (place.ready.define StringLibrary.stringType fun result =>
          .call (some result) StringLibrary.create [.data data])
  | identifier {name : String} {decl : VarId} {var : VarDecl} {address : Operand}
      {place : Place} (found : program.var? decl = some var)
      (stored : final.annotations.storageOf decl = .ok address) :
      Emits (.identifier name decl) [] place (some (.temp place.ready.freshTemp))
        (place.ready.define (codeType var.ty) fun result =>
          .load result (codeType var.ty) address)
  | callNothing {callee : String} {args : List ExprId} {values : List Operand}
      {signature : Signature} {place : Place}
      (found : (final.cursor.module.function? callee).map Code.Function.signature =
        some signature)
      (arity : signature.params.length = args.length)
      (returns : signature.returns.isVoid = true) :
      Emits (.call callee args) values place none (place.ready.add (.call none callee values))
  | callValue {callee : String} {args : List ExprId} {values : List Operand}
      {signature : Signature} {place : Place}
      (found : (final.cursor.module.function? callee).map Code.Function.signature =
        some signature)
      (arity : signature.params.length = args.length)
      (returns : signature.returns.isVoid = false) :
      Emits (.call callee args) values place (some (.temp place.ready.freshTemp))
        (place.ready.define signature.returns fun result => .call (some result) callee values)
  | negate {operand : ExprId} {value : Operand} {place : Place} :
      Emits (.unary .minus operand) [value] place (some (.temp place.ready.freshTemp))
        (place.ready.define .i64 fun result => .negate result value .i64)
  | assign {left right : ExprId} {target : Source.Expr} {name : String} {decl : VarId}
      {value address : Operand} {place : Place} (found : program.expr? left = some target)
      (isIdentifier : target.node = .identifier name decl)
      (stored : final.annotations.storageOf decl = .ok address) :
      Emits (.binary .assign left right) [value] place (some value)
        (place.ready.add (.store address value))
  | arith {op : Source.BinaryOp} {left right : ExprId} {expr : Source.Expr}
      {operator : Code.ArithOp} {first second : Operand} {place : Place}
      (found : program.expr? left = some expr)
      (means : operation? op expr.ty = some (.arith operator)) :
      Emits (.binary op left right) [first, second] place (some (.temp place.ready.freshTemp))
        (place.ready.define .i64 fun result => .arith operator result first second .i64)
  | compare {op : Source.BinaryOp} {left right : ExprId} {expr : Source.Expr}
      {condition : Code.Condition} {first second : Operand} {place : Place}
      (found : program.expr? left = some expr)
      (means : operation? op expr.ty = some (.compare condition)) :
      Emits (.binary op left right) [first, second] place (some (.temp place.ready.freshTemp))
        (place.ready.define .bool fun result => .compare result condition first second)
  | concat {op : Source.BinaryOp} {left right : ExprId} {expr : Source.Expr}
      {first second : Operand} {place : Place} (found : program.expr? left = some expr)
      (means : operation? op expr.ty = some .concat) :
      Emits (.binary op left right) [first, second] place (some (.temp place.ready.freshTemp))
        (place.ready.define StringLibrary.stringType fun result =>
          .call (some result) StringLibrary.concat [first, second])
  | compareStrings {op : Source.BinaryOp} {left right : ExprId} {expr : Source.Expr}
      {condition : Code.Condition} {first second : Operand} {place middle : Place}
      (found : program.expr? left = some expr)
      (means : operation? op expr.ty = some (.compareStrings condition))
      (compares : middle = place.ready.define StringLibrary.orderingType fun result =>
        .call (some result) StringLibrary.equals [first, second]) :
      Emits (.binary op left right) [first, second] place (some (.temp middle.ready.freshTemp))
        (middle.ready.define .bool fun result => .compare result condition
          (.temp place.ready.freshTemp)
          (.constant (.int 0 StringLibrary.orderingType.width)))

/-- Expressions that all have values, from left to right. -/
inductive LowersValues : Nat → List ExprId → Place → List Operand → Place → Prop
  | nil {depth : Nat} {place : Place} : LowersValues depth [] place [] place
  | cons {depth : Nat} {id : ExprId} {ids : List ExprId} {expr : Source.Expr}
      {operands values : List Operand} {value : Operand} {place ready emitted after : Place}
      (found : program.expr? id = some expr)
      (computes : LowersValues depth (operandsOf expr.node) place operands ready)
      (fit : ready.Fit) (emits : Emits program final expr.node operands ready (some value) emitted)
      (rest : LowersValues (depth + 1) ids emitted values after) :
      LowersValues (depth + 1) (id :: ids) place (value :: values) after

inductive LowersExprWithin : Nat → ExprId → Place → Option Operand → Place → Prop
  | intro {depth : Nat} {id : ExprId} {expr : Source.Expr} {operands : List Operand}
      {value : Option Operand} {place ready after : Place}
      (found : program.expr? id = some expr)
      (computes : LowersValues program final depth (operandsOf expr.node) place operands ready)
      (fit : ready.Fit) (emits : Emits program final expr.node operands ready value after) :
      LowersExprWithin (depth + 1) id place value after

def LowersExpr (id : ExprId) (place : Place) (value : Option Operand) (after : Place) : Prop :=
  LowersExprWithin program final (exprDepth program) id place value after

inductive LowersEach : List ExprId → Place → Place → Prop
  | nil {place : Place} : LowersEach [] place place
  | cons {id : ExprId} {ids : List ExprId} {value : Option Operand} {place middle after : Place}
      (computes : LowersExpr program final id place value middle)
      (rest : LowersEach ids middle after) : LowersEach (id :: ids) place after

/-! ## Variables -/

inductive LowersInitial : Option ExprId → Place → Option Operand → Place → Prop
  | none {place : Place} : LowersInitial none place none place
  | some {id : ExprId} {value : Operand} {place after : Place}
      (computes : LowersExpr program final id place (some value) after) :
      LowersInitial (some id) place (some value) after

/-- The variable has become the global. -/
def BecomesGlobal (id : VarId) (decl : VarDecl) (value : Option Operand) (global : GlobalId) :
    Prop :=
  final.annotations.storageOf id = .ok (.global global) ∧
    ∃ initial, globalInitial decl (isLiteralInitial program decl) value = .ok initial ∧
      final.cursor.module.global? global = some
        ⟨global, decl.name, codeType decl.ty, initial, alignment decl.ty, .exported⟩

inductive LowersVar : VarId → Place → Place → Prop
  | stored {id : VarId} {decl : VarDecl} {value : Operand} {global : GlobalId}
      {place valued : Place} (found : program.var? id = some decl) (notVoid : decl.ty ≠ .void)
      (topLevel : decl.scope = .topLevel)
      (computes : LowersInitial program final decl.initial place (some value) valued)
      (fit : valued.Fit) (stores : decl.ty = .string ∨ isLiteralInitial program decl = false)
      (becomes : BecomesGlobal program final id decl (some value) global) :
      LowersVar id place (valued.ready.add (.store (.global global) value))
  | kept {id : VarId} {decl : VarDecl} {value : Option Operand} {global : GlobalId}
      {place valued : Place} (found : program.var? id = some decl) (notVoid : decl.ty ≠ .void)
      (topLevel : decl.scope = .topLevel)
      (computes : LowersInitial program final decl.initial place value valued)
      (keeps : value = none ∨ decl.ty ≠ .string ∧ isLiteralInitial program decl = true)
      (becomes : BecomesGlobal program final id decl value global) :
      LowersVar id place valued
  | empty {id : VarId} {decl : VarDecl} {place : Place} (found : program.var? id = some decl)
      (notVoid : decl.ty ≠ .void) (isLocal : decl.scope = .local) (fit : place.Fit)
      (nothing : decl.initial = none)
      (known : final.annotations.storageOf id = .ok (.temp place.ready.freshTemp)) :
      LowersVar id place (place.ready.define .ptr fun result =>
        .alloca result (codeType decl.ty) (alignment decl.ty))
  | filled {id : VarId} {decl : VarDecl} {initial : ExprId} {value : Operand}
      {place valued slotted : Place} (found : program.var? id = some decl)
      (notVoid : decl.ty ≠ .void) (isLocal : decl.scope = .local)
      (something : decl.initial = some initial)
      (computes : LowersExpr program final initial place (some value) valued) (fit : valued.Fit)
      (reserves : slotted = valued.ready.define .ptr fun result =>
        .alloca result (codeType decl.ty) (alignment decl.ty))
      (known : final.annotations.storageOf id = .ok (.temp valued.ready.freshTemp)) :
      LowersVar id place (slotted.ready.add (.store (.temp valued.ready.freshTemp) value))

/-! ## Statements -/

/-- A statement, or what a `for` statement does first. -/
inductive Part where
  | stmt (id : StmtId) (node : Stmt)
  | initial (initial : ForInit)

def updateBlock? (updates : List ExprId) (place : Place) : Option BlockId :=
  if updates.isEmpty then none else some place.freshBlock

/-- Create the block of the updates if there are any. -/
def createUpdates (updates : List ExprId) (place : Place) : Place :=
  if updates.isEmpty then place else place.create "for.update"

inductive LowersCondition (endBlock : BlockId) : Option ExprId → Place → Place → Prop
  | none {place : Place} : LowersCondition endBlock none place place
  | some {condition : ExprId} {value : Operand} {place tested : Place}
      (tests : LowersExpr program final condition (place.create "for.body") (some value) tested)
      (fit : tested.Fit) (waits : tested.Waiting place.freshBlock "for.body") :
      LowersCondition endBlock (some condition) place
        ((tested.ready.terminate (.branch value place.freshBlock endBlock)).enter
          place.freshBlock false)

inductive LowersUpdates (updates : List ExprId) : Option BlockId → Place → Place → Prop
  | none {place : Place} : LowersUpdates updates none place place
  | some {id : BlockId} {place after : Place} (waits : place.Waiting id "for.update")
      (computes : LowersEach program final updates (place.enter id false) after) :
      LowersUpdates updates (some id) place after

/-- A part whose own parts are followed to the given depth. -/
inductive LowersPart : Nat → Part → Place → Place → Prop
  | expr {depth : Nat} {id : StmtId} {expr : ExprId} {value : Option Operand}
      {place after : Place} (computes : LowersExpr program final expr place value after) :
      LowersPart depth (.stmt id (.expr expr)) place after
  | nothing {depth : Nat} {id : StmtId} {place : Place} :
      LowersPart depth (.stmt id (.compound [])) place place
  | sequence {depth : Nat} {id head : StmtId} {tail : List StmtId} {node : Stmt}
      {place middle after : Place} (found : program.stmt? head = some node)
      (first : LowersPart depth (.stmt head node) place middle)
      (rest : LowersPart (depth + 1) (.stmt id (.compound tail)) middle after) :
      LowersPart (depth + 1) (.stmt id (.compound (head :: tail))) place after
  | noVars {depth : Nat} {id : StmtId} {place : Place} :
      LowersPart depth (.stmt id (.varDecl [])) place place
  | vars {depth : Nat} {id : StmtId} {var : VarId} {rest : List VarId}
      {place middle after : Place} (first : LowersVar program final var place middle)
      (others : LowersPart depth (.stmt id (.varDecl rest)) middle after) :
      LowersPart depth (.stmt id (.varDecl (var :: rest))) place after
  | functionDecl {depth : Nat} {id : StmtId} {func : Source.FuncId} {place : Place} :
      LowersPart depth (.stmt id (.functionDecl func)) place place
  | ifThen {depth : Nat} {id thenBody : StmtId} {condition : ExprId} {value : Operand}
      {node : Stmt} {place tested created done : Place} {endBlock : BlockId}
      (tests : LowersExpr program final condition place (some value) tested)
      (fit : tested.Fit) (creates : created = (tested.create "if.then").create "if.end")
      (ends : endBlock = (tested.create "if.then").freshBlock)
      (found : program.stmt? thenBody = some node)
      (body : LowersPart depth (.stmt thenBody node)
        ((created.ready.terminate (.branch value tested.freshBlock endBlock)).enter
          tested.freshBlock false) done)
      (fitDone : done.Fit) (waits : done.Waiting endBlock "if.end") :
      LowersPart (depth + 1) (.stmt id (.ifThenElse condition thenBody none)) place
        ((done.leaveTo endBlock).enter endBlock true)
  | ifThenElse {depth : Nat} {id thenBody elseBody : StmtId} {condition : ExprId}
      {value : Operand} {thenNode elseNode : Stmt} {place tested created done elseDone : Place}
      {endBlock elseBlock : BlockId}
      (tests : LowersExpr program final condition place (some value) tested)
      (fit : tested.Fit)
      (creates : created = ((tested.create "if.then").create "if.end").create "if.else")
      (ends : endBlock = (tested.create "if.then").freshBlock)
      (elses : elseBlock = ((tested.create "if.then").create "if.end").freshBlock)
      (thenFound : program.stmt? thenBody = some thenNode)
      (elseFound : program.stmt? elseBody = some elseNode)
      (thenPart : LowersPart depth (.stmt thenBody thenNode)
        ((created.ready.terminate (.branch value tested.freshBlock elseBlock)).enter
          tested.freshBlock false) done)
      (fitDone : done.Fit) (waitsElse : done.Waiting elseBlock "if.else")
      (elsePart : LowersPart depth (.stmt elseBody elseNode)
        ((done.leaveTo endBlock).enter elseBlock false) elseDone)
      (fitElse : elseDone.Fit) (waits : elseDone.Waiting endBlock "if.end") :
      LowersPart (depth + 1) (.stmt id (.ifThenElse condition thenBody (some elseBody))) place
        ((elseDone.leaveTo endBlock).enter endBlock true)
  | whileLoop {depth : Nat} {id body : StmtId} {condition : ExprId} {value : Operand}
      {node : Stmt} {place created tested done : Place} {bodyBlock endBlock : BlockId}
      (fit : place.Fit)
      (creates : created =
        ((place.create "while.cond").create "while.body").create "while.end")
      (bodies : bodyBlock = (place.create "while.cond").freshBlock)
      (ends : endBlock = ((place.create "while.cond").create "while.body").freshBlock)
      (known : final.annotations.loopOf id = .ok ⟨place.freshBlock, none, endBlock⟩)
      (tests : LowersExpr program final condition (created.enter place.freshBlock false)
        (some value) tested)
      (fitTested : tested.Fit) (waitsBody : tested.Waiting bodyBlock "while.body")
      (found : program.stmt? body = some node)
      (loops : LowersPart depth (.stmt body node)
        ((tested.ready.terminate (.branch value bodyBlock endBlock)).enter bodyBlock false) done)
      (fitDone : done.Fit) (waits : done.Waiting endBlock "while.end") :
      LowersPart (depth + 1) (.stmt id (.whileLoop condition body)) place
        ((done.leaveTo place.freshBlock).enter endBlock true)
  | forLoop {depth : Nat} {id body : StmtId} {initial : ForInit} {condition : Option ExprId}
      {updates : List ExprId} {node : Stmt} {place started entered tested done updated : Place}
      {endBlock : BlockId} (starts : LowersPart (depth + 1) (.initial initial) place started)
      (fit : started.Fit) (ends : endBlock = (started.create "for.cond").freshBlock)
      (enters : entered = ((started.create "for.cond").create "for.end").enter
        started.freshBlock false)
      (fitEntered : entered.Fit)
      (known : final.annotations.loopOf id =
        .ok ⟨started.freshBlock, updateBlock? updates entered, endBlock⟩)
      (tests : LowersCondition program final endBlock condition (createUpdates updates entered)
        tested)
      (found : program.stmt? body = some node)
      (loops : LowersPart depth (.stmt body node) tested done) (fitDone : done.Fit)
      (renews : LowersUpdates program final updates (updateBlock? updates entered) done updated)
      (fitUpdated : updated.Fit) (waits : updated.Waiting endBlock "for.end") :
      LowersPart (depth + 1) (.stmt id (.forLoop initial condition updates body)) place
        ((updated.leaveTo started.freshBlock).enter endBlock true)
  | continueLoop {depth : Nat} {id target : StmtId} {blocks : LoopBlocks} {place : Place}
      (fit : place.Fit) (known : final.annotations.loopOf target = .ok blocks) :
      LowersPart depth (.stmt id (.continueLoop target)) place
        (place.ready.terminate (.jump blocks.continueTarget))
  | breakLoop {depth : Nat} {id target : StmtId} {blocks : LoopBlocks} {place : Place}
      (fit : place.Fit) (known : final.annotations.loopOf target = .ok blocks) :
      LowersPart depth (.stmt id (.breakLoop target)) place
        (place.ready.terminate (.jump blocks.exit))
  | returnNothing {depth : Nat} {id : StmtId} {place : Place} (fit : place.Fit) :
      LowersPart depth (.stmt id (.returnValue none)) place (place.ready.terminate (.ret none))
  | returnValue {depth : Nat} {id : StmtId} {expr : ExprId} {value : Operand}
      {place valued : Place} (computes : LowersExpr program final expr place (some value) valued)
      (fit : valued.Fit) :
      LowersPart depth (.stmt id (.returnValue (some expr))) place
        (valued.ready.terminate (.ret (some value)))
  | initialDecl {depth : Nat} {id : StmtId} {node : Stmt} {place after : Place}
      (found : program.stmt? id = some node)
      (declares : LowersPart depth (.stmt id node) place after) :
      LowersPart (depth + 1) (.initial (.decl id)) place after
  | initialExprs {depth : Nat} {exprs : List ExprId} {place after : Place}
      (computes : LowersEach program final exprs place after) :
      LowersPart depth (.initial (.exprs exprs)) place after

/-! ## Functions -/

inductive LowersParams : List (VarId × Nat) → Place → Place → Prop
  | nil {place : Place} : LowersParams [] place place
  | cons {id : VarId} {index : Nat} {params : List (VarId × Nat)} {decl : VarDecl}
      {place slotted after : Place} (found : program.var? id = some decl) (fit : place.Fit)
      (reserves : slotted = place.ready.define .ptr fun result =>
        .alloca result (codeType decl.ty) (alignment decl.ty))
      (known : final.annotations.storageOf id = .ok (.temp place.ready.freshTemp))
      (rest : LowersParams params (slotted.ready.add
        (.store (.temp place.ready.freshTemp) (.param ⟨index.toUInt32⟩))) after) :
      LowersParams ((id, index) :: params) place after

/-- The place at which a function of the program is complete. -/
inductive LowersFunction (decl : FunctionDecl) : Place → Prop
  | intro {depth : Nat} {node : Stmt} {entered ended : Place}
      (bound : depth < stmtDepth program)
      (params : LowersParams program final decl.params.zipIdx (Place.mk .empty none).opened
        entered)
      (found : program.stmt? decl.body = some node)
      (body : LowersPart program final depth (.stmt decl.body node) entered ended)
      (fit : ended.Fit) :
      LowersFunction decl
        (if decl.returnsNothing then ended.returnIfLive none else ended)

/-- The place at which the entry function is complete. -/
inductive LowersEntry : Place → Prop
  | intro {id : StmtId} {ended : Place}
      (body : LowersPart program final (stmtDepth program) (.stmt id (.compound program.items))
        (Place.mk .empty none).opened ended)
      (fit : ended.Fit) : LowersEntry (ended.returnIfLive (some (.ofInt64 0)))

end ScriptLowering.Lowering
