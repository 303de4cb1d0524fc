import ScriptLowering.Proofs.VerifierChecks
import ScriptLowering.Proofs.LoweringWalk
import ScriptLowering.Proofs.WatchedRuns

/-! # The history of a run

Lowering as it tells what it does: every step that changes the session is told with what it is for
and with the sessions before and behind it. What is told changes nothing, so that the steps that
are told are the steps of the run.
-/

namespace ScriptLowering.Lowering

open Source (Program ExprId ForInit FuncId FunctionDecl Stmt StmtId VarDecl VarId)
open Code (BlockId Operand Position)

/-! ## Telling -/

/-- What a step is for. A step that works on blocks names the statement that it belongs to. -/
inductive Task where
  /-- Open a function at its entry. -/
  | start (function : String)
  | param (id : VarId) (index : Nat)
  /-- Add the code of an expression behind that of its operands. -/
  | expr (id : ExprId)
  /-- Give a variable storage, and store its initial value if need be. -/
  | var (id : VarId)
  | create (id : StmtId) (label : String) (block : BlockId)
  /-- Learn the blocks of a loop. -/
  | loop (id : StmtId) (blocks : LoopBlocks)
  /-- Branch on a condition. -/
  | test (id : StmtId) (value : Operand) (thenBlock elseBlock : BlockId)
  | enter (id : StmtId) (block : BlockId) (closing : Bool)
  | leave (id : StmtId) (target : BlockId)
  /-- Jump or return because the program says so. -/
  | jump (id : StmtId)
  /-- Return at a live end. -/
  | returnIfLive (value : Option Operand)
  | finish (function : String)
  /-- Go back to where a function was declared. -/
  | resume (position : Position)
  /-- Come to a statement, which is followed down to the depth. -/
  | come (depth : Nat) (id : StmtId)
  deriving DecidableEq

/-- A step of a run, with the sessions before and behind it. -/
structure Event where
  task : Task
  before : Session
  after : Session

/-- A step of lowering that tells what happens. -/
def Told (α : Type) : Type := Session → List Event × Except Error (α × Session)

namespace Told

variable {α β : Type}

def pure (value : α) : Told α := fun session => ([], .ok (value, session))

def bind (told : Told α) (rest : α → Told β) : Told β := fun session =>
  match told session with
  | (events, .error error) => (events, .error error)
  | (events, .ok (value, next)) => (events ++ (rest value next).1, (rest value next).2)

instance : Monad Told where
  pure := pure
  bind := bind

theorem bind_assoc {γ : Type} (told : Told α) (rest : α → Told β) (last : β → Told γ) :
    told >>= rest >>= last = told >>= fun value => rest value >>= last := by
  funext session
  change bind (bind told rest) last session = bind told (fun value => bind (rest value) last) session
  unfold bind
  rcases told session with ⟨events, error | ⟨value, next⟩⟩
  · rfl
  · rcases result : rest value next with ⟨more, error | ⟨other, final⟩⟩
    · simp only [result]
    · simp only [result, List.append_assoc]

def asking (step : Lower α) : Told α := fun session => ([], step session)

/-- A step for a task, which may depend on what comes out. -/
def telling (task : α → Task) (step : Lower α) : Told α := fun session =>
  match step session with
  | .error error => ([], .error error)
  | .ok (value, next) => ([⟨task value, session, next⟩], .ok (value, next))

/-- What is done, without what is told. -/
def step (told : Told α) : Lower α := fun session => (told session).2

@[simp] theorem step_pure (value : α) : (Pure.pure value : Told α).step = Pure.pure value := rfl

@[simp] theorem step_bind (told : Told α) (rest : α → Told β) :
    (told >>= rest).step = told.step >>= fun value => (rest value).step := by
  funext session
  show (bind told rest session).2 = _
  unfold bind
  rcases result : told session with ⟨events, error | ⟨value, next⟩⟩
  · have fails : told.step session = .error error := congrArg Prod.snd result
    exact (Lower.bind_eq_error fails).symm
  · have runs : told.step session = .ok (value, next) := congrArg Prod.snd result
    rw [Lower.bind_eq runs]
    rfl

@[simp] theorem step_asking (step : Lower α) : (asking step).step = step := rfl

@[simp] theorem step_telling (task : α → Task) (step : Lower α) :
    (telling task step).step = step := by
  funext session
  simp only [Told.step, telling]
  cases step session <;> rfl

theorem step_forM {ι : Type} (items : List ι) (body : ι → Told Unit) :
    (items.forM body).step = items.forM fun item => (body item).step := by
  induction items with
  | nil => rfl
  | cons head tail induction =>
      rw [Lower.forM_cons, ← induction]
      exact step_bind (body head) fun _ => tail.forM body

@[simp] theorem step_ite (condition : Prop) [Decidable condition] (first second : Told α) :
    (if condition then first else second).step =
      if condition then first.step else second.step := by
  split <;> rfl

end Told

open Told (asking telling)

variable (program : Program) (finish : String → Lower Unit)

/-! ## Expressions and variables -/

/-- What is told of expressions one after the other, and where they lead. -/
def tellEach (tell : ExprId → Told (Option Operand)) :
    List ExprId → Session → List Event × Session
  | [], session => ([], session)
  | id :: ids, session =>
      match tell id session with
      | (events, .error _) => (events, session)
      | (events, .ok (_, next)) =>
          (events ++ (tellEach tell ids next).1, (tellEach tell ids next).2)

/-- The operands are told before the expression itself. -/
def tellExprWithin : (depth : Nat) → ExprId → Told (Option Operand)
  | 0, id => asking (lowerExprWithin program 0 id)
  | depth + 1, id => fun session =>
      match lowerExprWithin program (depth + 1) id session with
      | .error error => ([], .error error)
      | .ok (value, after) =>
          let operands := (program.expr? id).elim [] fun expr => operandsOf expr.node
          let (events, ready) := tellEach (tellExprWithin depth) operands session
          (events ++ [⟨.expr id, ready, after⟩], .ok (value, after))

def tellExpr (id : ExprId) : Told (Option Operand) :=
  tellExprWithin program (exprDepth program) id

def tellValue (id : ExprId) : Told Operand := do
  let value ← tellExpr program id
  asking (requireValue id value)

/-- An expression whose value is not used. -/
def tellEffect (id : ExprId) : Told Unit := do
  let _ ← tellExpr program id

def tellExprs (ids : List ExprId) : Told Unit := ids.forM (tellEffect program)

def tellInitial (decl : VarDecl) : Told (Option Operand) :=
  match decl.initial with
  | some expr => do
      let value ← tellValue program expr
      return some value
  | none => return none

def tellVarDecl (id : VarId) : Told Unit := do
  let decl ← asking (Lower.orFault (program.var? id) (.missingVar id))
  if decl.ty = .void then asking (Lower.fault (.voidVariable decl.name))
  else
    let value ← tellInitial program decl
    telling (fun _ => .var id) (match decl.scope with
      | .topLevel => lowerGlobal program id decl value
      | .local => lowerLocal id decl value)

/-! ## Control flow -/

def tellCreate (id : StmtId) (label : String) : Told BlockId :=
  telling (fun block => .create id label block) (createBlock label)

def tellLoop (id : StmtId) (blocks : LoopBlocks) : Told Unit :=
  telling (fun _ => .loop id blocks)
    (Lower.annotate fun annotations => annotations.setLoop id blocks)

def tellTest (id : StmtId) (value : Operand) (thenBlock elseBlock : BlockId) : Told Unit :=
  telling (fun _ => .test id value thenBlock elseBlock)
    (Lower.append fun cursor => cursor.branch value thenBlock elseBlock)

def tellEnter (id : StmtId) (block : BlockId) (closing : Bool) : Told Unit :=
  telling (fun _ => .enter id block closing) (enter block closing)

def tellLeave (id : StmtId) (target : BlockId) : Told Unit :=
  telling (fun _ => .leave id target) (leaveTo target)

def tellIf (tell : StmtId → Told Unit) (id : StmtId) (condition : ExprId) (thenBody : StmtId)
    (elseBody : Option StmtId) : Told Unit := do
  let value ← tellValue program condition
  let thenBlock ← tellCreate id "if.then"
  let endBlock ← tellCreate id "if.end"
  match elseBody with
  | none =>
      tellTest id value thenBlock endBlock
      tellEnter id thenBlock false
      tell thenBody
      tellLeave id endBlock
  | some elseBody =>
      let elseBlock ← tellCreate id "if.else"
      tellTest id value thenBlock elseBlock
      tellEnter id thenBlock false
      tell thenBody
      tellLeave id endBlock
      tellEnter id elseBlock false
      tell elseBody
      tellLeave id endBlock
  tellEnter id endBlock true

def tellWhile (tell : StmtId → Told Unit) (id : StmtId) (condition : ExprId) (body : StmtId) :
    Told Unit := do
  let condBlock ← tellCreate id "while.cond"
  let bodyBlock ← tellCreate id "while.body"
  let endBlock ← tellCreate id "while.end"
  tellLoop id ⟨condBlock, none, endBlock⟩
  tellEnter id condBlock false
  let value ← tellValue program condition
  tellTest id value bodyBlock endBlock
  tellEnter id bodyBlock false
  tell body
  tellLeave id condBlock
  tellEnter id endBlock true

def tellForInit (tell : StmtId → Told Unit) : ForInit → Told Unit
  | .decl stmt => tell stmt
  | .exprs exprs => tellExprs program exprs

def tellUpdateBlock (id : StmtId) (updates : List ExprId) : Told (Option BlockId) :=
  if updates.isEmpty then return none
  else do
    let block ← tellCreate id "for.update"
    return some block

def tellForCondition (id : StmtId) (endBlock : BlockId) : Option ExprId → Told Unit
  | none => return ()
  | some condition => do
      let bodyBlock ← tellCreate id "for.body"
      let value ← tellValue program condition
      tellTest id value bodyBlock endBlock
      tellEnter id bodyBlock false

def tellForUpdates (id : StmtId) (updates : List ExprId) : Option BlockId → Told Unit
  | none => return ()
  | some updateBlock => do
      tellEnter id updateBlock false
      tellExprs program updates

def tellFor (tell : StmtId → Told Unit) (id : StmtId) (initial : ForInit)
    (condition : Option ExprId) (updates : List ExprId) (body : StmtId) : Told Unit := do
  tellForInit program tell initial
  let condBlock ← tellCreate id "for.cond"
  let endBlock ← tellCreate id "for.end"
  tellEnter id condBlock false
  let updateBlock ← tellUpdateBlock id updates
  tellLoop id ⟨condBlock, updateBlock, endBlock⟩
  tellForCondition program id endBlock condition
  tell body
  tellForUpdates program id updates updateBlock
  tellLeave id condBlock
  tellEnter id endBlock true

def tellReturn (id : StmtId) : Option ExprId → Told Unit
  | some expr => do
      let value ← tellValue program expr
      telling (fun _ => .jump id) (Lower.append fun cursor => cursor.ret (some value))
  | none => telling (fun _ => .jump id) (Lower.append fun cursor => cursor.ret none)

/-! ## Functions and programs -/

/-- All of a function behind its entry. -/
def tellFunctionBody (tell : StmtId → Told Unit) (decl : FunctionDecl) : Told Unit := do
  decl.params.zipIdx.forM fun (param, index) =>
    telling (fun _ => .param param index) (lowerParam program param index)
  tell decl.body
  if decl.returnsNothing then telling (fun _ => .returnIfLive none) (returnIfLive none)
  telling (fun _ => .finish decl.name) (finish decl.name)

def tellFunctionDecl (tell : StmtId → Told Unit) (id : FuncId) : Told Unit := do
  let decl ← asking (Lower.orFault (program.function? id) (.missingFunction id))
  let saved := (← asking Lower.cursor).position
  telling (fun _ => .start decl.name) (openFunction decl.name)
  tellFunctionBody program finish tell decl
  telling (fun _ => .resume saved) (Lower.moveCursor fun cursor => cursor.setPosition saved)

def tellNodeOf (tell : StmtId → Told Unit) (id : StmtId) : Stmt → Told Unit
  | .expr expr => tellEffect program expr
  | .compound stmts => stmts.forM tell
  | .varDecl vars => vars.forM (tellVarDecl program)
  | .functionDecl func => tellFunctionDecl program finish tell func
  | .ifThenElse condition thenBody elseBody =>
      tellIf program tell id condition thenBody elseBody
  | .whileLoop condition body => tellWhile program tell id condition body
  | .forLoop initial condition updates body =>
      tellFor program tell id initial condition updates body
  | .continueLoop target => telling (fun _ => .jump id) (lowerContinue target)
  | .breakLoop target => telling (fun _ => .jump id) (lowerBreak target)
  | .returnValue value => tellReturn program id value

def tellStmtWithin : (depth : Nat) → StmtId → Told Unit
  | 0, _ => asking (Lower.fault .endless)
  | depth + 1, id => do
      telling (fun _ => .come (depth + 1) id) (return ())
      let stmt ← asking (Lower.orFault (program.stmt? id) (.missingStmt id))
      tellNodeOf program finish (tellStmtWithin depth) id stmt

def tellItems (entry : String) : Told Unit := do
  telling (fun _ => .start entry) (openFunction entry)
  program.items.forM (tellStmtWithin program finish (stmtDepth program))
  telling (fun _ => .returnIfLive (some (.ofInt64 0))) (returnIfLive (some (.ofInt64 0)))
  telling (fun _ => .finish entry) (finish entry)

/-- The steps that lowering takes on a program, up to its end or its failure. -/
def history (options : Options) : List Event :=
  match declareAll program options with
  | .error _ => []
  | .ok module => (tellItems program (finishFunction options) options.entryFunction
      (.start (.ofModule module))).1

/-! ## What is told changes nothing -/

section Forgetting

variable {program : Program} {finish : String → Lower Unit}

@[simp] theorem step_tellExprWithin (depth : Nat) (id : ExprId) :
    (tellExprWithin program depth id).step = lowerExprWithin program depth id := by
  funext session
  cases depth with
  | zero => rfl
  | succ depth =>
      simp only [Told.step, tellExprWithin]
      cases lowerExprWithin program (depth + 1) id session <;> rfl

@[simp] theorem step_tellExpr (id : ExprId) :
    (tellExpr program id).step = lowerExpr program id :=
  step_tellExprWithin _ id

/-- Nothing is told of an expression that fails. -/
theorem tellExprWithin_of_error {depth : Nat} {id : ExprId} {session : Session} {error : Error}
    (fails : (tellExprWithin program depth id session).2 = .error error) :
    (tellExprWithin program depth id session).1 = [] := by
  cases depth with
  | zero => rfl
  | succ depth =>
      revert fails
      simp only [tellExprWithin]
      cases lowerExprWithin program (depth + 1) id session with
      | error error => exact fun _ => rfl
      | ok pair =>
          intro fails
          cases fails

@[simp] theorem step_tellValue (id : ExprId) :
    (tellValue program id).step = lowerValue program id := by
  simp [tellValue, lowerValue]

@[simp] theorem step_tellEffect (id : ExprId) : (tellEffect program id).step =
    (do let _ ← lowerExpr program id : Lower Unit) := by
  rw [tellEffect, Told.step_bind, step_tellExpr]
  rfl

@[simp] theorem step_tellExprs (ids : List ExprId) : (tellExprs program ids).step =
    (ids.forM fun id => do let _ ← lowerExpr program id : Lower Unit) := by
  rw [tellExprs, Told.step_forM]
  simp only [step_tellEffect]

@[simp] theorem step_tellInitial (decl : VarDecl) :
    (tellInitial program decl).step = lowerInitial program decl := by
  unfold tellInitial lowerInitial
  cases decl.initial with
  | none => rfl
  | some expr =>
      simp only [Told.step_bind, step_tellValue, Told.step_pure]
      rfl

@[simp] theorem step_tellVarDecl (id : VarId) :
    (tellVarDecl program id).step = lowerVarDecl program id := by
  unfold tellVarDecl lowerVarDecl
  rw [Told.step_bind, Told.step_asking]
  refine congrArg _ (funext fun decl => ?_)
  rw [Told.step_ite, Told.step_bind, step_tellInitial]
  refine congrArg _ (congrArg _ (funext fun value => ?_))
  exact Told.step_telling _ _

@[simp] theorem step_tellCreate (id : StmtId) (label : String) :
    (tellCreate id label).step = createBlock label :=
  Told.step_telling _ _

@[simp] theorem step_tellLoop (id : StmtId) (blocks : LoopBlocks) : (tellLoop id blocks).step =
    Lower.annotate fun annotations => annotations.setLoop id blocks :=
  Told.step_telling _ _

@[simp] theorem step_tellTest (id : StmtId) (value : Operand) (thenBlock elseBlock : BlockId) :
    (tellTest id value thenBlock elseBlock).step =
      Lower.append fun cursor => cursor.branch value thenBlock elseBlock :=
  Told.step_telling _ _

@[simp] theorem step_tellEnter (id : StmtId) (block : BlockId) (closing : Bool) :
    (tellEnter id block closing).step = enter block closing :=
  Told.step_telling _ _

@[simp] theorem step_tellLeave (id : StmtId) (target : BlockId) :
    (tellLeave id target).step = leaveTo target :=
  Told.step_telling _ _

@[simp] theorem step_tellIf (tell : StmtId → Told Unit) (id : StmtId) (condition : ExprId)
    (thenBody : StmtId) (elseBody : Option StmtId) :
    (tellIf program tell id condition thenBody elseBody).step =
      lowerIf program (fun child => (tell child).step) condition thenBody elseBody := by
  cases elseBody <;> simp [tellIf, lowerIf]

@[simp] theorem step_tellWhile (tell : StmtId → Told Unit) (id : StmtId) (condition : ExprId)
    (body : StmtId) : (tellWhile program tell id condition body).step =
      lowerWhile program (fun child => (tell child).step) id condition body := by
  simp [tellWhile, lowerWhile]

@[simp] theorem step_tellForInit (tell : StmtId → Told Unit) (initial : ForInit) :
    (tellForInit program tell initial).step =
      lowerForInit program (fun child => (tell child).step) initial := by
  cases initial with
  | decl stmt => rfl
  | exprs exprs => exact step_tellExprs exprs

@[simp] theorem step_tellUpdateBlock (id : StmtId) (updates : List ExprId) :
    (tellUpdateBlock id updates).step = createUpdateBlock updates := by
  unfold tellUpdateBlock createUpdateBlock
  rw [Told.step_ite, Told.step_bind, step_tellCreate]
  rfl

@[simp] theorem step_tellForCondition (id : StmtId) (endBlock : BlockId)
    (condition : Option ExprId) : (tellForCondition program id endBlock condition).step =
      lowerForCondition program endBlock condition := by
  cases condition <;> simp [tellForCondition, lowerForCondition]

@[simp] theorem step_tellForUpdates (id : StmtId) (updates : List ExprId)
    (updateBlock : Option BlockId) : (tellForUpdates program id updates updateBlock).step =
      lowerForUpdates program updates updateBlock := by
  cases updateBlock with
  | none => rfl
  | some block => simp only [tellForUpdates, lowerForUpdates, Told.step_bind, step_tellEnter,
      step_tellExprs]

@[simp] theorem step_tellFor (tell : StmtId → Told Unit) (id : StmtId) (initial : ForInit)
    (condition : Option ExprId) (updates : List ExprId) (body : StmtId) :
    (tellFor program tell id initial condition updates body).step =
      lowerFor program (fun child => (tell child).step) id initial condition updates body := by
  simp [tellFor, lowerFor]

@[simp] theorem step_tellReturn (id : StmtId) (value : Option ExprId) :
    (tellReturn program id value).step = lowerReturn program value := by
  cases value <;> simp [tellReturn, lowerReturn]

theorem ite_bind {α β : Type} (condition : Prop) [Decidable condition] (first second : Lower α)
    (rest : α → Lower β) : (if condition then first else second) >>= rest =
      if condition then first >>= rest else second >>= rest := by
  split <;> rfl

@[simp] theorem step_tellFunctionDecl (tell : StmtId → Told Unit) (id : FuncId) :
    (tellFunctionDecl program finish tell id).step =
      lowerFunctionDecl program finish (fun child => (tell child).step) id := by
  simp only [tellFunctionDecl, tellFunctionBody, lowerFunctionDecl, Told.step_bind,
    Told.step_asking, Told.step_telling, Told.step_forM, Told.step_ite, bind_assoc, ite_bind]

theorem step_tellNodeOf (tell : StmtId → Told Unit) (id : StmtId) (stmt : Stmt) :
    (tellNodeOf program finish tell id stmt).step =
      lowerNodeOf program finish (fun child => (tell child).step) id stmt := by
  cases stmt <;> simp only [tellNodeOf, lowerNodeOf, step_tellEffect, Told.step_forM,
    step_tellVarDecl, step_tellFunctionDecl, step_tellIf, step_tellWhile, step_tellFor,
    Told.step_telling, step_tellReturn]

theorem step_tellStmtWithin (depth : Nat) :
    (fun id => (tellStmtWithin program finish depth id).step) =
      lowerStmtWithin program finish depth := by
  induction depth with
  | zero => rfl
  | succ depth induction =>
      funext id
      simp only [tellStmtWithin, lowerStmtWithin, Told.step_bind, Told.step_telling, pure_bind,
        Told.step_asking, step_tellNodeOf, induction]

theorem step_tellItems (entry : String) :
    (tellItems program finish entry).step = lowerItems program finish entry := by
  simp only [tellItems, lowerItems, Told.step_bind, Told.step_telling, Told.step_forM,
    step_tellStmtWithin]
  rfl

theorem told_of_lowerItems {options : Options} {declared : Code.Module} {last : Session}
    (declares : declareAll program options = .ok declared)
    (runs : lowerItems program (finishFunction options) options.entryFunction
      (.start (.ofModule declared)) = .ok ((), last)) :
    tellItems program (finishFunction options) options.entryFunction (.start (.ofModule declared)) =
      (history program options, .ok ((), last)) := by
  rw [← step_tellItems] at runs
  refine Prod.ext ?_ runs
  simp only [history, declares]

theorem exists_declared_of_mem_history {options : Options} {event : Event}
    (member : event ∈ history program options) :
    ∃ declared, declareAll program options = .ok declared ∧ history program options =
      (tellItems program (finishFunction options) options.entryFunction
        (.start (.ofModule declared))).1 := by
  unfold history at member ⊢
  cases declares : declareAll program options with
  | error error =>
      rw [declares] at member
      cases member
  | ok declared => exact ⟨declared, rfl, rfl⟩

/-- The history of a run that comes to its end leads to the module. -/
theorem exists_told {options : Options} {module : Code.Module}
    (lowers : lowerProgram program options = .ok module) :
    ∃ declared last, declareAll program options = .ok declared ∧
      tellItems program (finishFunction options) options.entryFunction
        (.start (.ofModule declared)) = (history program options, .ok ((), last)) ∧
      last.cursor.module = module ∧ module.verify = .ok () := by
  rcases Code.bind_eq_ok.mp lowers with ⟨declared, declares, rest⟩
  rcases Code.bind_eq_ok.mp rest with ⟨⟨⟨⟩, last⟩, runs, rest⟩
  rcases Code.bind_unit_eq_ok.mp rest with ⟨verified, same⟩
  cases same
  exact ⟨declared, last, declares, told_of_lowerItems declares runs, rfl,
    Code.mapError_eq_ok.mp verified⟩

end Forgetting

end ScriptLowering.Lowering
