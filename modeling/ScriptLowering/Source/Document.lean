import ScriptLowering.Json.Printer
import ScriptLowering.Json.Reader
import ScriptLowering.Json.Record
import ScriptLowering.Source.Basic

/-!
# Programs as documents

`toJson` gives the one document in which a program is printed: every field is present and
in its declared order. `ofJson?` reads more than that. Fields that have a default may be
left out, unknown members are skipped, and records may be listed as arrays.
-/

namespace ScriptLowering.Source

open Json (asOption? asList?)

/-! ## Identifiers -/

def StmtId.toJson (id : StmtId) : Json := .integer id.index

def ExprId.toJson (id : ExprId) : Json := .integer id.index

def VarId.toJson (id : VarId) : Json := .integer id.index

def FuncId.toJson (id : FuncId) : Json := .integer id.index

def StmtId.ofJson? (document : Json) : Option StmtId := document.asUInt32?.map StmtId.mk

def ExprId.ofJson? (document : Json) : Option ExprId := document.asUInt32?.map ExprId.mk

def VarId.ofJson? (document : Json) : Option VarId := document.asUInt32?.map VarId.mk

def FuncId.ofJson? (document : Json) : Option FuncId := document.asUInt32?.map FuncId.mk

/-! ## Names -/

def Ty.all : List Ty := [.void, .boolean, .integer, .string]

def Ty.ofName? (name : String) : Option Ty := Ty.all.find? fun ty => ty.name = name

def Ty.ofJson? (document : Json) : Option Ty := document.bareChoice?.bind Ty.ofName?

def Scope.name : Scope → String
  | .topLevel => "top_level"
  | .local => "local"

def Scope.ofName? (name : String) : Option Scope :=
  [Scope.topLevel, .local].find? fun scope => scope.name = name

def VarKind.name : VarKind → String
  | .ordinary => "variable"
  | .parameter => "parameter"

def VarKind.ofName? (name : String) : Option VarKind :=
  [VarKind.ordinary, .parameter].find? fun kind => kind.name = name

def UnaryOp.name : UnaryOp → String
  | .minus => "minus"
  | .plus => "plus"
  | .not => "not"
  | .bitNot => "bit_not"

def UnaryOp.all : List UnaryOp := [.minus, .plus, .not, .bitNot]

def UnaryOp.ofName? (name : String) : Option UnaryOp :=
  UnaryOp.all.find? fun op => op.name = name

namespace BinaryOp

def name : BinaryOp → String
  | assign => "assign"
  | plus => "plus"
  | minus => "minus"
  | multiply => "multiply"
  | divide => "divide"
  | modulus => "modulus"
  | shiftLeft => "shift_left"
  | shiftRight => "shift_right"
  | lessThan => "less_than"
  | greaterThan => "greater_than"
  | lessThanEquals => "less_than_equals"
  | greaterThanEquals => "greater_than_equals"
  | equals => "equals"
  | notEquals => "not_equals"
  | bitAnd => "bit_and"
  | bitXor => "bit_xor"
  | bitOr => "bit_or"
  | and => "and"
  | or => "or"
  | plusAssign => "plus_assign"
  | minusAssign => "minus_assign"
  | multiplyAssign => "multiply_assign"
  | divideAssign => "divide_assign"

def all : List BinaryOp :=
  [assign, plus, minus, multiply, divide, modulus, shiftLeft, shiftRight, lessThan,
    greaterThan, lessThanEquals, greaterThanEquals, equals, notEquals, bitAnd, bitXor,
    bitOr, and, or, plusAssign, minusAssign, multiplyAssign, divideAssign]

def ofName? (name : String) : Option BinaryOp := all.find? fun op => op.name = name

end BinaryOp

theorem Ty.ofName?_name (ty : Ty) : Ty.ofName? ty.name = some ty := by
  cases ty <;> decide +kernel

theorem Scope.ofName?_name (scope : Scope) : Scope.ofName? scope.name = some scope := by
  cases scope <;> decide +kernel

theorem VarKind.ofName?_name (kind : VarKind) : VarKind.ofName? kind.name = some kind := by
  cases kind <;> decide +kernel

theorem UnaryOp.ofName?_name (op : UnaryOp) : UnaryOp.ofName? op.name = some op := by
  cases op <;> decide +kernel

theorem BinaryOp.ofName?_name (op : BinaryOp) : BinaryOp.ofName? op.name = some op := by
  cases op <;> decide +kernel

/-! ## Declarations -/

namespace VarDecl

def fields : List String := ["name", "ty", "init", "scope", "kind"]

def toJson (decl : VarDecl) : Json :=
  .object [
    ("name", .string decl.name),
    ("ty", .string decl.ty.name),
    ("init", Json.ofOption ExprId.toJson decl.initial),
    ("scope", .string decl.scope.name),
    ("kind", .string decl.kind.name)]

def ofJson? (document : Json) : Option VarDecl := do
  let record ← document.record? fields
  return {
    name := ← record.required? "name" Json.asString?
    ty := ← record.required? "ty" Ty.ofJson?
    initial := ← record.defaulted? "init" none (asOption? ExprId.ofJson?)
    scope := ← record.required? "scope" fun part => part.bareChoice?.bind Scope.ofName?
    kind := ← record.defaulted? "kind" .ordinary fun part =>
      part.bareChoice?.bind VarKind.ofName? }

end VarDecl

namespace FunctionDecl

def fields : List String := ["name", "params", "return_type", "body"]

def toJson (decl : FunctionDecl) : Json :=
  .object [
    ("name", .string decl.name),
    ("params", Json.ofList VarId.toJson decl.params),
    ("return_type", Json.ofOption (fun ty : Ty => .string ty.name) decl.returns),
    ("body", decl.body.toJson)]

def ofJson? (document : Json) : Option FunctionDecl := do
  let record ← document.record? fields
  return {
    name := ← record.required? "name" Json.asString?
    params := ← record.required? "params" (asList? VarId.ofJson?)
    returns := ← record.defaulted? "return_type" none (asOption? Ty.ofJson?)
    body := ← record.required? "body" StmtId.ofJson? }

end FunctionDecl

/-! ## Expressions -/

namespace ExprNode

/-- An expression's node stands inside the program, the arena and the expression. -/
def containersAround : Nat := 3

def toJson : ExprNode → Json
  | .booleanLiteral value => Json.ofTagged "boolean_literal" [("value", .bool value)]
  | .integerLiteral value => Json.ofTagged "integer_literal" [("value", .integer value.toInt)]
  | .stringLiteral value => Json.ofTagged "string_literal" [("value", .string value)]
  | .identifier name decl =>
      Json.ofTagged "identifier" [("name", .string name), ("decl", decl.toJson)]
  | .call callee args =>
      Json.ofTagged "call" [("callee", .string callee), ("args", Json.ofList ExprId.toJson args)]
  | .unary op operand =>
      Json.ofTagged "unary" [("op", .string op.name), ("operand", operand.toJson)]
  | .binary op left right =>
      Json.ofTagged "binary"
        [("op", .string op.name), ("lhs", left.toJson), ("rhs", right.toJson)]

def ofJson? (document : Json) : Option ExprNode := do
  let (tag, content) ← document.tagged? containersAround
  match tag with
  | "boolean_literal" =>
      let record ← content.record? ["value"]
      return .booleanLiteral (← record.required? "value" Json.asBool?)
  | "integer_literal" =>
      let record ← content.record? ["value"]
      return .integerLiteral (← record.required? "value" Json.asInt64?)
  | "string_literal" =>
      let record ← content.record? ["value"]
      return .stringLiteral (← record.required? "value" Json.asString?)
  | "identifier" =>
      let record ← content.record? ["name", "decl"]
      return .identifier (← record.required? "name" Json.asString?)
        (← record.required? "decl" VarId.ofJson?)
  | "call" =>
      let record ← content.record? ["callee", "args"]
      return .call (← record.required? "callee" Json.asString?)
        (← record.required? "args" (asList? ExprId.ofJson?))
  | "unary" =>
      let record ← content.record? ["op", "operand"]
      return .unary
        (← record.required? "op" fun part => part.looseBareChoice?.bind UnaryOp.ofName?)
        (← record.required? "operand" ExprId.ofJson?)
  | "binary" =>
      let record ← content.record? ["op", "lhs", "rhs"]
      return .binary
        (← record.required? "op" fun part => part.looseBareChoice?.bind BinaryOp.ofName?)
        (← record.required? "lhs" ExprId.ofJson?) (← record.required? "rhs" ExprId.ofJson?)
  | _ => none

end ExprNode

namespace Expr

def fields : List String := ["node", "ty"]

def toJson (expr : Expr) : Json :=
  .object [("node", expr.node.toJson), ("ty", .string expr.ty.name)]

def ofJson? (document : Json) : Option Expr := do
  let record ← document.record? fields
  return {
    node := ← record.required? "node" ExprNode.ofJson?
    ty := ← record.required? "ty" Ty.ofJson? }

end Expr

/-! ## Statements -/

namespace ForInit

def toJson : ForInit → Json
  | .decl stmt => .object [("decl", stmt.toJson)]
  | .exprs ids => .object [("exprs", Json.ofList ExprId.toJson ids)]

def ofJson? (document : Json) : Option ForInit := do
  match ← document.choice? with
  | ("decl", some content) => return .decl (← StmtId.ofJson? content)
  | ("exprs", some content) => return .exprs (← asList? ExprId.ofJson? content)
  | _ => none

end ForInit

namespace Stmt

/-- A statement stands inside the program and the arena. -/
def containersAround : Nat := 2

def toJson : Stmt → Json
  | .expr id => Json.ofTagged "expr" [("expr", id.toJson)]
  | .compound stmts => Json.ofTagged "compound" [("stmts", Json.ofList StmtId.toJson stmts)]
  | .varDecl vars => Json.ofTagged "var_decl" [("vars", Json.ofList VarId.toJson vars)]
  | .functionDecl func => Json.ofTagged "function_decl" [("func", func.toJson)]
  | .ifThenElse condition thenBody elseBody =>
      Json.ofTagged "if"
        [("condition", condition.toJson), ("then_body", thenBody.toJson),
          ("else_body", Json.ofOption StmtId.toJson elseBody)]
  | .whileLoop condition body =>
      Json.ofTagged "while" [("condition", condition.toJson), ("body", body.toJson)]
  | .forLoop initial condition updates body =>
      Json.ofTagged "for"
        [("init", initial.toJson), ("condition", Json.ofOption ExprId.toJson condition),
          ("updates", Json.ofList ExprId.toJson updates), ("body", body.toJson)]
  | .continueLoop target => Json.ofTagged "continue" [("target", target.toJson)]
  | .breakLoop target => Json.ofTagged "break" [("target", target.toJson)]
  | .returnValue value => Json.ofTagged "return" [("value", Json.ofOption ExprId.toJson value)]

def ofJson? (document : Json) : Option Stmt := do
  let (tag, content) ← document.tagged? containersAround
  match tag with
  | "expr" =>
      let record ← content.record? ["expr"]
      return .expr (← record.required? "expr" ExprId.ofJson?)
  | "compound" =>
      let record ← content.record? ["stmts"]
      return .compound (← record.required? "stmts" (asList? StmtId.ofJson?))
  | "var_decl" =>
      let record ← content.record? ["vars"]
      return .varDecl (← record.required? "vars" (asList? VarId.ofJson?))
  | "function_decl" =>
      let record ← content.record? ["func"]
      return .functionDecl (← record.required? "func" FuncId.ofJson?)
  | "if" =>
      let record ← content.record? ["condition", "then_body", "else_body"]
      return .ifThenElse (← record.required? "condition" ExprId.ofJson?)
        (← record.required? "then_body" StmtId.ofJson?)
        (← record.defaulted? "else_body" none (asOption? StmtId.ofJson?))
  | "while" =>
      let record ← content.record? ["condition", "body"]
      return .whileLoop (← record.required? "condition" ExprId.ofJson?)
        (← record.required? "body" StmtId.ofJson?)
  | "for" =>
      let record ← content.record? ["init", "condition", "updates", "body"]
      return .forLoop (← record.defaulted? "init" (.exprs []) ForInit.ofJson?)
        (← record.defaulted? "condition" none (asOption? ExprId.ofJson?))
        (← record.defaulted? "updates" [] (asList? ExprId.ofJson?))
        (← record.required? "body" StmtId.ofJson?)
  | "continue" =>
      let record ← content.record? ["target"]
      return .continueLoop (← record.required? "target" StmtId.ofJson?)
  | "break" =>
      let record ← content.record? ["target"]
      return .breakLoop (← record.required? "target" StmtId.ofJson?)
  | "return" =>
      let record ← content.record? ["value"]
      return .returnValue (← record.defaulted? "value" none (asOption? ExprId.ofJson?))
  | _ => none

end Stmt

/-! ## Programs -/

namespace Program

def fields : List String := ["filename", "items", "stmts", "exprs", "vars", "functions"]

def toJson (program : Program) : Json :=
  .object [
    ("filename", .string program.filename),
    ("items", Json.ofList StmtId.toJson program.items),
    ("stmts", Json.ofList Stmt.toJson program.stmts.toList),
    ("exprs", Json.ofList Expr.toJson program.exprs.toList),
    ("vars", Json.ofList VarDecl.toJson program.vars.toList),
    ("functions", Json.ofList FunctionDecl.toJson program.functions.toList)]

def ofJson? (document : Json) : Option Program := do
  let record ← document.record? fields
  return {
    filename := ← record.required? "filename" Json.asString?
    items := ← record.required? "items" (asList? StmtId.ofJson?)
    stmts := (← record.required? "stmts" (asList? Stmt.ofJson?)).toArray
    exprs := (← record.required? "exprs" (asList? Expr.ofJson?)).toArray
    vars := (← record.required? "vars" (asList? VarDecl.ofJson?)).toArray
    functions := (← record.required? "functions" (asList? FunctionDecl.ofJson?)).toArray }

def parse? (text : String) : Option Program := (Json.read? text).bind ofJson?

def print (program : Program) : String := program.toJson.pretty

end Program

end ScriptLowering.Source
