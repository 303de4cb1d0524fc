import ScriptLowering.Source.Document
import ScriptLowering.Proofs.RecordDocuments

/-! # Programs read back from documents

Every part of a program is printed as a plain document, and its reader takes that document for
the part it came from.
-/

namespace ScriptLowering.Source

/-! ## Identifiers and names -/

@[simp] theorem StmtId.ofJson?_toJson (id : StmtId) : StmtId.ofJson? id.toJson = some id := by
  simp [StmtId.ofJson?, StmtId.toJson, StmtId.index]

@[simp] theorem ExprId.ofJson?_toJson (id : ExprId) : ExprId.ofJson? id.toJson = some id := by
  simp [ExprId.ofJson?, ExprId.toJson, ExprId.index]

@[simp] theorem VarId.ofJson?_toJson (id : VarId) : VarId.ofJson? id.toJson = some id := by
  simp [VarId.ofJson?, VarId.toJson, VarId.index]

@[simp] theorem FuncId.ofJson?_toJson (id : FuncId) : FuncId.ofJson? id.toJson = some id := by
  simp [FuncId.ofJson?, FuncId.toJson, FuncId.index]

@[simp] theorem StmtId.plain_toJson (id : StmtId) : id.toJson.plain = true := Json.plain_uint32 _

@[simp] theorem ExprId.plain_toJson (id : ExprId) : id.toJson.plain = true := Json.plain_uint32 _

@[simp] theorem VarId.plain_toJson (id : VarId) : id.toJson.plain = true := Json.plain_uint32 _

@[simp] theorem FuncId.plain_toJson (id : FuncId) : id.toJson.plain = true := Json.plain_uint32 _

@[simp] theorem StmtId.depth_toJson (id : StmtId) : id.toJson.depth = 0 := by
  simp [StmtId.toJson]

@[simp] theorem ExprId.depth_toJson (id : ExprId) : id.toJson.depth = 0 := by
  simp [ExprId.toJson]

@[simp] theorem VarId.depth_toJson (id : VarId) : id.toJson.depth = 0 := by
  simp [VarId.toJson]

@[simp] theorem FuncId.depth_toJson (id : FuncId) : id.toJson.depth = 0 := by
  simp [FuncId.toJson]

@[simp] theorem StmtId.toJson_ne_null (id : StmtId) : id.toJson ≠ .null := nofun

@[simp] theorem ExprId.toJson_ne_null (id : ExprId) : id.toJson ≠ .null := nofun

@[simp] theorem Ty.ofJson?_name (ty : Ty) : Ty.ofJson? (.string ty.name) = some ty := by
  simp [Ty.ofJson?, Ty.ofName?_name]

/-! ## Declarations -/

@[simp] theorem VarDecl.ofJson?_toJson (decl : VarDecl) :
    VarDecl.ofJson? decl.toJson = some decl := by
  simp [VarDecl.ofJson?, VarDecl.toJson, Scope.ofName?_name, VarKind.ofName?_name]

@[simp] theorem VarDecl.plain_toJson (decl : VarDecl) : decl.toJson.plain = true := by
  simp [VarDecl.toJson]

@[simp] theorem FunctionDecl.ofJson?_toJson (decl : FunctionDecl) :
    FunctionDecl.ofJson? decl.toJson = some decl := by
  simp [FunctionDecl.ofJson?, FunctionDecl.toJson]

@[simp] theorem FunctionDecl.plain_toJson (decl : FunctionDecl) : decl.toJson.plain = true := by
  simp [FunctionDecl.toJson]

/-! ## Expressions -/

@[simp] theorem ExprNode.plain_toJson (node : ExprNode) : node.toJson.plain = true := by
  cases node <;> simp [ExprNode.toJson]

@[simp] theorem ExprNode.ofJson?_toJson (node : ExprNode) :
    ExprNode.ofJson? node.toJson = some node := by
  cases node <;>
    simp [ExprNode.ofJson?, ExprNode.toJson, Json.tagged?_ofTagged, Json.isTaggable, Json.tagName,
      Json.nestingLimit, containersAround, UnaryOp.ofName?_name, BinaryOp.ofName?_name]

@[simp] theorem Expr.plain_toJson (expr : Expr) : expr.toJson.plain = true := by
  simp [Expr.toJson]

@[simp] theorem Expr.ofJson?_toJson (expr : Expr) : Expr.ofJson? expr.toJson = some expr := by
  simp [Expr.ofJson?, Expr.toJson]

/-! ## Statements -/

@[simp] theorem ForInit.plain_toJson (initial : ForInit) : initial.toJson.plain = true := by
  cases initial <;> simp [ForInit.toJson]

theorem ForInit.depth_toJson (initial : ForInit) : initial.toJson.depth ≤ 2 := by
  cases initial <;> simp [ForInit.toJson]

@[simp] theorem ForInit.ofJson?_toJson (initial : ForInit) :
    ForInit.ofJson? initial.toJson = some initial := by
  cases initial <;> simp [ForInit.ofJson?, ForInit.toJson, Json.choice?]

@[simp] theorem Stmt.plain_toJson (stmt : Stmt) : stmt.toJson.plain = true := by
  cases stmt <;> simp [Stmt.toJson]

@[simp] theorem Stmt.ofJson?_toJson (stmt : Stmt) : Stmt.ofJson? stmt.toJson = some stmt := by
  cases stmt with
  | forLoop initial condition updates body =>
      have shallow := initial.depth_toJson
      have taggable : Json.isTaggable containersAround [("init", initial.toJson),
          ("condition", Json.ofOption ExprId.toJson condition),
          ("updates", Json.ofList ExprId.toJson updates), ("body", body.toJson)] = true := by
        simp [Json.isTaggable, Json.tagName, Json.nestingLimit, containersAround]
        omega
      simp [Stmt.ofJson?, Stmt.toJson, Json.tagged?_ofTagged taggable]
  | _ =>
      simp [Stmt.ofJson?, Stmt.toJson, Json.tagged?_ofTagged, Json.isTaggable, Json.tagName,
        Json.nestingLimit, containersAround]

/-! ## Programs -/

@[simp] theorem Program.plain_toJson (program : Program) : program.toJson.plain = true := by
  simp [Program.toJson]

@[simp] theorem Program.ofJson?_toJson (program : Program) :
    Program.ofJson? program.toJson = some program := by
  simp [Program.ofJson?, Program.toJson]

theorem Program.parse?_print (program : Program) : parse? program.print = some program := by
  rw [parse?, print, Json.read?_pretty program.plain_toJson, Option.bind_some, ofJson?_toJson]

/-- Printing loses nothing of a program, and what any accepted text denotes has one printed form:
reading that form gives the same program, and printing it again the same text. -/
theorem Program.printed_form_reads_back :
    (∀ program : Program, parse? program.print = some program) ∧
    ∀ text program, parse? text = some program →
      parse? program.print = some program ∧ (parse? program.print).map print = some program.print := by
  refine ⟨parse?_print, fun text program _ => ?_⟩
  rw [parse?_print, Option.map_some]
  exact ⟨rfl, rfl⟩

/-- A program that is listed, with a statement that leaves its only field out and has a member
that means nothing. -/
def listedText : String :=
  "[\"\\u0061\",[0],[\x7b\"kind\":\"return\",\"note\":[]\x7d],[],[],[]]"

/-- The program that `listedText` denotes. -/
def listedProgram : Program where
  filename := "a"
  items := [⟨0⟩]
  stmts := #[.returnValue none]
  exprs := #[]
  vars := #[]
  functions := #[]

theorem listedProgram_reads_back : Program.parse? listedText = some listedProgram ∧
    Program.parse? listedProgram.print = some listedProgram := by
  have denotes : Program.parse? listedText = some listedProgram := by decide +kernel
  exact ⟨denotes, (Program.printed_form_reads_back.2 listedText listedProgram denotes).1⟩

end ScriptLowering.Source
