import ScriptLowering.Proofs.LoweringTraces

/-! # Well-resolved programs

What the annotations of a program are supposed to say. Every expression has the type that its
operands give it, every name is bound to something that can be seen where it stands, and every
`break` and `continue` stays inside of a loop of the same function. Nothing is said about the
order in which variables of the top level are declared, nor about the ends of functions.
-/

namespace ScriptLowering.Lowering

open Source (Program BinaryOp ExprNode ExprId Stmt StmtId VarId VarDecl FuncId FunctionDecl ForInit
  Ty)

/-- The type of the result of an operator between operands of one type. -/
def resultType? : BinaryOp → Ty → Option Ty
  | .plus, .integer | .minus, .integer | .multiply, .integer | .divide, .integer => some .integer
  | .plus, .string => some .string
  | .lessThan, .integer | .greaterThan, .integer | .lessThanEquals, .integer
  | .greaterThanEquals, .integer => some .boolean
  | .equals, .integer | .equals, .boolean | .equals, .string => some .boolean
  | .notEquals, .integer | .notEquals, .boolean | .notEquals, .string => some .boolean
  | _, _ => none

variable (program : Program)

/-! ## Expressions -/

/-- A variable can be seen where the variables `locals` have been declared. -/
def InScope (locals : List VarId) (id : VarId) : Prop :=
  id ∈ locals ∨ ∃ decl, program.var? id = some decl ∧ decl.scope = .topLevel

/-- Lowering comes to a declaration of the function. -/
def HasFunction (id : FuncId) : Prop := id ∈ functionsOf (walkProgram program)

variable (callable : FuncId → Prop)

/-- The type of an expression whose operands have the given types. Only functions that are `callable`
are called. -/
inductive NodeTyped (locals : List VarId) : ExprNode → List Ty → Ty → Prop
  | booleanLiteral {value : Bool} : NodeTyped locals (.booleanLiteral value) [] .boolean
  | integerLiteral {value : Int64} : NodeTyped locals (.integerLiteral value) [] .integer
  | stringLiteral {text : String} : NodeTyped locals (.stringLiteral text) [] .string
  | identifier {name : String} {id : VarId} {decl : VarDecl}
      (found : program.var? id = some decl) (visible : InScope program locals id) :
      NodeTyped locals (.identifier name id) [] decl.ty
  | call {args : List ExprId} {id : FuncId} {decl : FunctionDecl} {types : List Ty}
      (mayCall : callable id)
      (found : program.function? id = some decl)
      (params : decl.params.map (fun param => (program.var? param).map VarDecl.ty) =
        types.map some) :
      NodeTyped locals (.call decl.name args) types (decl.returns.getD .void)
  | negate {operand : ExprId} : NodeTyped locals (.unary .minus operand) [.integer] .integer
  | assign {left right : ExprId} {target : Source.Expr} {name : String} {id : VarId}
      {decl : VarDecl} (targets : program.expr? left = some target)
      (isIdentifier : target.node = .identifier name id)
      (found : program.var? id = some decl) (visible : InScope program locals id) :
      NodeTyped locals (.binary .assign left right) [decl.ty] decl.ty
  | binary {op : BinaryOp} {left right : ExprId} {ty result : Ty}
      (means : resultType? op ty = some result) :
      NodeTyped locals (.binary op left right) [ty, ty] result

/-- Expressions that all have values, and their types. -/
inductive ExprsTyped (locals : List VarId) : List ExprId → List Ty → Prop
  | nil : ExprsTyped locals [] []
  | cons {id : ExprId} {ids : List ExprId} {expr : Source.Expr} {operands types : List Ty}
      (found : program.expr? id = some expr)
      (parts : ExprsTyped locals (operandsOf expr.node) operands)
      (typed : NodeTyped program callable locals expr.node operands expr.ty)
      (valued : expr.ty ≠ .void)
      (rest : ExprsTyped locals ids types) :
      ExprsTyped locals (id :: ids) (expr.ty :: types)

inductive ExprTyped (locals : List VarId) (id : ExprId) : Ty → Prop
  | intro {expr : Source.Expr} {operands : List Ty} (found : program.expr? id = some expr)
      (parts : ExprsTyped program callable locals (operandsOf expr.node) operands)
      (typed : NodeTyped program callable locals expr.node operands expr.ty) :
      ExprTyped locals id expr.ty

/-! ## Statements -/

/-- The local variables that can be seen behind declarations. -/
def localsOf (vars : List VarId) : List VarId :=
  vars.filter fun id => ((program.var? id).map VarDecl.scope) = some .local

/-- The local variables that a statement declares for what follows it. -/
def declares : Stmt → List VarId
  | .varDecl vars => localsOf program vars
  | _ => []

def initialDeclares : ForInit → List VarId
  | .decl stmt => ((program.stmt? stmt).map (declares program)).getD []
  | .exprs _ => []

inductive VarTyped (locals : List VarId) (id : VarId) : Prop
  | intro {decl : VarDecl} (found : program.var? id = some decl) (notVoid : decl.ty ≠ .void)
      (starts : ∀ initial, decl.initial = some initial →
        ExprTyped program callable locals initial decl.ty)

/-- A part of a function that returns `returns`, inside of `loops`. -/
inductive PartTyped (returns : Ty) : List StmtId → List VarId → Part → Prop
  | expr {loops : List StmtId} {locals : List VarId} {id : StmtId} {expr : ExprId} {ty : Ty}
      (typed : ExprTyped program callable locals expr ty) :
      PartTyped returns loops locals (.stmt id (.expr expr))
  | nothing {loops : List StmtId} {locals : List VarId} {id : StmtId} :
      PartTyped returns loops locals (.stmt id (.compound []))
  | sequence {loops : List StmtId} {locals : List VarId} {id head : StmtId} {tail : List StmtId}
      {node : Stmt} (found : program.stmt? head = some node)
      (first : PartTyped returns loops locals (.stmt head node))
      (rest : PartTyped returns loops (declares program node ++ locals)
        (.stmt id (.compound tail))) :
      PartTyped returns loops locals (.stmt id (.compound (head :: tail)))
  | noVars {loops : List StmtId} {locals : List VarId} {id : StmtId} :
      PartTyped returns loops locals (.stmt id (.varDecl []))
  | vars {loops : List StmtId} {locals : List VarId} {id : StmtId} {var : VarId}
      {rest : List VarId} (first : VarTyped program callable locals var)
      (others : PartTyped returns loops (localsOf program [var] ++ locals)
        (.stmt id (.varDecl rest))) :
      PartTyped returns loops locals (.stmt id (.varDecl (var :: rest)))
  | functionDecl {loops : List StmtId} {locals : List VarId} {id : StmtId} {func : FuncId} :
      PartTyped returns loops locals (.stmt id (.functionDecl func))
  | ifThen {loops : List StmtId} {locals : List VarId} {id thenBody : StmtId}
      {condition : ExprId} {node : Stmt}
      (tests : ExprTyped program callable locals condition .boolean)
      (found : program.stmt? thenBody = some node)
      (body : PartTyped returns loops locals (.stmt thenBody node)) :
      PartTyped returns loops locals (.stmt id (.ifThenElse condition thenBody none))
  | ifThenElse {loops : List StmtId} {locals : List VarId} {id thenBody elseBody : StmtId}
      {condition : ExprId} {thenNode elseNode : Stmt}
      (tests : ExprTyped program callable locals condition .boolean)
      (thenFound : program.stmt? thenBody = some thenNode)
      (elseFound : program.stmt? elseBody = some elseNode)
      (thenPart : PartTyped returns loops locals (.stmt thenBody thenNode))
      (elsePart : PartTyped returns loops locals (.stmt elseBody elseNode)) :
      PartTyped returns loops locals (.stmt id (.ifThenElse condition thenBody (some elseBody)))
  | whileLoop {loops : List StmtId} {locals : List VarId} {id body : StmtId}
      {condition : ExprId} {node : Stmt}
      (tests : ExprTyped program callable locals condition .boolean)
      (found : program.stmt? body = some node)
      (part : PartTyped returns (id :: loops) locals (.stmt body node)) :
      PartTyped returns loops locals (.stmt id (.whileLoop condition body))
  | forLoop {loops : List StmtId} {locals : List VarId} {id body : StmtId} {initial : ForInit}
      {condition : Option ExprId} {updates : List ExprId} {node : Stmt}
      (starts : PartTyped returns loops locals (.initial initial))
      (tests : ∀ expr, condition = some expr →
        ExprTyped program callable (initialDeclares program initial ++ locals) expr .boolean)
      (found : program.stmt? body = some node)
      (part : PartTyped returns (id :: loops) (initialDeclares program initial ++ locals)
        (.stmt body node))
      (renews : ∀ update ∈ updates, ∃ ty,
        ExprTyped program callable (initialDeclares program initial ++ locals) update ty) :
      PartTyped returns loops locals (.stmt id (.forLoop initial condition updates body))
  | continueLoop {loops : List StmtId} {locals : List VarId} {id target : StmtId}
      (encloses : target ∈ loops) :
      PartTyped returns loops locals (.stmt id (.continueLoop target))
  | breakLoop {loops : List StmtId} {locals : List VarId} {id target : StmtId}
      (encloses : target ∈ loops) :
      PartTyped returns loops locals (.stmt id (.breakLoop target))
  | returnNothing {loops : List StmtId} {locals : List VarId} {id : StmtId}
      (nothing : returns = .void) :
      PartTyped returns loops locals (.stmt id (.returnValue none))
  | returnValue {loops : List StmtId} {locals : List VarId} {id : StmtId} {expr : ExprId}
      (something : returns ≠ .void) (typed : ExprTyped program callable locals expr returns) :
      PartTyped returns loops locals (.stmt id (.returnValue (some expr)))
  | initialDecl {loops : List StmtId} {locals : List VarId} {id : StmtId} {node : Stmt}
      (found : program.stmt? id = some node)
      (part : PartTyped returns loops locals (.stmt id node)) :
      PartTyped returns loops locals (.initial (.decl id))
  | initialExprs {loops : List StmtId} {locals : List VarId} {exprs : List ExprId}
      (typed : ∀ expr ∈ exprs, ∃ ty, ExprTyped program callable locals expr ty) :
      PartTyped returns loops locals (.initial (.exprs exprs))

/-! ## Programs -/

/-- Nothing but its parameters and the variables of the top level can be seen in a function. -/
inductive FunctionTyped (decl : FunctionDecl) : Prop
  | intro {node : Stmt}
      (params : ∀ param ∈ decl.params, ∃ var, program.var? param = some var ∧
        var.scope = .local ∧ var.ty ≠ .void)
      (found : program.stmt? decl.body = some node)
      (body : PartTyped program callable (decl.returns.getD .void) [] decl.params
        (.stmt decl.body node))

/-- A program whose calls are of functions that are `callable`. -/
structure WellResolved : Prop where
  /-- No statement, expression, variable or function is reached twice. -/
  once : (walkProgram program).Nodup
  items : PartTyped program callable .integer [] [] (.stmt default (.compound program.items))
  functions : ∀ id ∈ functionsOf (walkProgram program), ∃ decl,
    program.function? id = some decl ∧ FunctionTyped program callable decl

/-- A resolved program calls nothing but functions that it comes to declare. -/
abbrev Resolved (program : Program) : Prop := WellResolved program (HasFunction program)

end ScriptLowering.Lowering
