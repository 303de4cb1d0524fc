import Mathlib.Data.UInt
import ScriptLowering.Lowering.Program
import ScriptLowering.Proofs.EnsuredOutcomes

/-! # Runs of lowering that come to an end

A run can fail to come to an end in two ways. Statements may refer to one another in a circle,
and a function may get more blocks than there are numbers for them.
-/

namespace ScriptLowering.Lowering

open Source (Program ExprId ForInit FuncId FunctionDecl Stmt StmtId)

/-! ## Statements that end

A statement that refers to itself is never lowered to its end. So a function that is opened
again while it is being lowered is not come back to. -/

/-- The statements inside a statement. -/
def children (program : Program) : Stmt → List StmtId
  | .compound stmts => stmts
  | .functionDecl func => (program.function? func).toList.map FunctionDecl.body
  | .ifThenElse _ thenBody elseBody => thenBody :: elseBody.toList
  | .whileLoop _ body => [body]
  | .forLoop (.decl stmt) _ _ body => [stmt, body]
  | .forLoop (.exprs _) _ _ body => [body]
  | .expr _ | .varDecl _ | .continueLoop _ | .breakLoop _ | .returnValue _ => []

/-- Following the statements inside a statement ends after less than `depth` steps. -/
def EndsWithin (program : Program) : (depth : Nat) → StmtId → Prop
  | 0, _ => False
  | depth + 1, id => ∃ stmt, program.stmt? id = some stmt ∧
      ∀ child ∈ children program stmt, EndsWithin program depth child

/-- The statement declares the function `name`, at any depth. -/
inductive Contains (program : Program) (name : String) : StmtId → Prop where
  | declares {id : StmtId} {func : FuncId} {decl : FunctionDecl}
      (isDecl : program.stmt? id = some (.functionDecl func))
      (known : program.function? func = some decl) (named : decl.name = name) :
      Contains program name id
  | inside {id child : StmtId} {stmt : Stmt} (known : program.stmt? id = some stmt)
      (member : child ∈ children program stmt) (contains : Contains program name child) :
      Contains program name id

def NamesApart (program : Program) : Prop :=
  ∀ id other decl otherDecl, program.function? id = some decl →
    program.function? other = some otherDecl → decl.name = otherDecl.name → id = other

/-- The body of the function `name`, if there is one, does not end. -/
def Endless (program : Program) (name : String) : Prop :=
  ∀ func decl size, program.function? func = some decl → decl.name = name →
    ¬ EndsWithin program size decl.body

theorem Contains.declared {program : Program} {name : String} {id : StmtId}
    (contains : Contains program name id) :
    ∃ func decl, program.function? func = some decl ∧ decl.name = name := by
  induction contains with
  | declares _ known named => exact ⟨_, _, known, named⟩
  | inside _ _ _ induction => exact induction

theorem Contains.endsWithin {program : Program} {name : String} {id : StmtId}
    (contains : Contains program name id) {size : Nat} (ends : EndsWithin program size id) :
    ∃ func decl, ∃ less < size, program.function? func = some decl ∧ decl.name = name ∧
      EndsWithin program less decl.body := by
  induction contains generalizing size with
  | declares isDecl known named =>
      cases size with
      | zero => exact ends.elim
      | succ less =>
          rcases ends with ⟨stmt, found, inner⟩
          cases isDecl.symm.trans found
          exact ⟨_, _, less, Nat.lt_succ_self less, known, named,
            inner _ (by simp [children, known])⟩
  | inside known member _ induction =>
      cases size with
      | zero => exact ends.elim
      | succ size =>
          rcases ends with ⟨stmt, found, inner⟩
          cases known.symm.trans found
          rcases induction (inner _ member) with ⟨func, decl, less, smaller, rest⟩
          exact ⟨func, decl, less, Nat.lt_succ_of_lt smaller, rest⟩

theorem endless_of_contains {program : Program} (apart : NamesApart program) {func : FuncId}
    {decl : FunctionDecl} (known : program.function? func = some decl)
    (contains : Contains program decl.name decl.body) : Endless program decl.name := by
  intro other otherDecl size otherKnown same
  cases apart other func otherDecl decl otherKnown known same
  cases otherKnown.symm.trans known
  induction size using Nat.strongRecOn with
  | ind size induction =>
      intro ends
      rcases contains.endsWithin ends with
        ⟨inner, innerDecl, less, smaller, innerKnown, innerNamed, innerEnds⟩
      cases apart inner func innerDecl decl innerKnown known innerNamed
      cases innerKnown.symm.trans known
      exact induction less smaller innerEnds

/-! ## Running out of numbers

The numbers of blocks start again after the last one. A run that is watched stops where a
function comes near the last number. -/

/-- No function has used up half of the numbers for blocks. -/
def Session.hasNumbers (session : Session) : Bool :=
  session.cursor.module.functions.values.all fun function => function.body.nextBlock < 2 ^ 31

/-- Stop if the numbers of blocks run out. -/
def watch : Lower Unit := fun session =>
  if session.hasNumbers then .ok ((), session) else .error (.program .endless)

def lowerStmtWatched (program : Program) (finish : String → Lower Unit) :
    (depth : Nat) → StmtId → Lower Unit
  | 0, _ => Lower.fault .endless
  | depth + 1, id => do
      watch
      let stmt ← Lower.orFault (program.stmt? id) (.missingStmt id)
      lowerNodeOf program finish (lowerStmtWatched program finish depth) id stmt
      watch

/-- As `lowerItems`, but watched before and behind each statement. -/
def lowerItemsWatched (program : Program) (finish : String → Lower Unit) (entry : String) :
    Lower Unit := do
  openFunction entry
  program.items.forM (lowerStmtWatched program finish (stmtDepth program))
  returnIfLive (some (.ofInt64 0))
  finish entry

/-- The watched run of a whole program. -/
def runWatched (program : Program) (options : Options) : Except Error (Unit × Session) := do
  let module ← declareAll program options
  (lowerItemsWatched program (finishFunction options) options.entryFunction).run
    (.start (.ofModule module))

/-- Lowering comes to an end, well or badly, before a function has used up half of the numbers
for blocks. -/
def LoweringEnds (program : Program) (options : Options) : Prop :=
  runWatched program options ≠ .error (.program .endless)

/-! ## Watched and unwatched runs

A run that is watched is the run itself or stops early. -/

def Watches {α : Type} (watched plain : Lower α) : Prop :=
  ∀ session, watched session ≠ .error (.program .endless) → watched session = plain session

namespace Watches

variable {α β : Type}

theorem refl (step : Lower α) : Watches step step := fun _ _ => rfl

theorem bind {watched plain : Lower α} {watchedRest plainRest : α → Lower β}
    (watches : Watches watched plain)
    (rests : ∀ value, Watches (watchedRest value) (plainRest value)) :
    Watches (watched >>= watchedRest) (plain >>= plainRest) := by
  intro session goesOn
  cases result : watched session with
  | error error =>
      rw [Lower.bind_eq_error result] at goesOn ⊢
      have continues : watched session ≠ .error (.program .endless) := by
        rw [result]
        rintro ⟨⟩
        exact goesOn rfl
      have same : plain session = .error error := (watches session continues).symm.trans result
      rw [Lower.bind_eq_error same]
  | ok pair =>
      have continues : watched session ≠ .error (.program .endless) := by
        rw [result]
        exact fun same => by cases same
      have same : plain session = .ok pair := (watches session continues).symm.trans result
      rw [Lower.bind_eq result] at goesOn ⊢
      rw [Lower.bind_eq same]
      exact rests pair.1 pair.2 goesOn

theorem forM {watched plain : α → Lower Unit}
    (watches : ∀ item, Watches (watched item) (plain item)) (items : List α) : Watches (items.forM watched) (items.forM plain) := by
  induction items with
  | nil => exact refl _
  | cons item rest induction => exact (watches item).bind fun _ => induction

theorem watch : Watches watch (pure ()) := by
  intro session goesOn
  unfold Lowering.watch at goesOn ⊢
  split
  · rfl
  · rename_i stops
    rw [if_neg stops] at goesOn
    exact absurd rfl goesOn

end Watches

section Watched

variable {program : Program} {finish : String → Lower Unit} {watched plain : StmtId → Lower Unit}

theorem watches_lowerIf (watches : ∀ id, Watches (watched id) (plain id)) (condition : ExprId)
    (thenBody : StmtId) (elseBody : Option StmtId) :
    Watches (lowerIf program watched condition thenBody elseBody)
      (lowerIf program plain condition thenBody elseBody) := by
  refine .bind (.refl _) fun value => .bind (.refl _) fun thenBlock => .bind (.refl _)
    fun endBlock => ?_
  cases elseBody with
  | none =>
      exact .bind (.refl _) fun _ => .bind (.refl _) fun _ => .bind (watches thenBody)
        fun _ => .refl _
  | some elseBody =>
      exact .bind (.refl _) fun _ => .bind (.refl _) fun _ => .bind (.refl _) fun _ =>
        .bind (watches thenBody) fun _ => .bind (.refl _) fun _ => .bind (.refl _) fun _ =>
        .bind (watches elseBody) fun _ => .refl _

theorem watches_lowerWhile (watches : ∀ id, Watches (watched id) (plain id)) (id : StmtId)
    (condition : ExprId) (body : StmtId) :
    Watches (lowerWhile program watched id condition body)
      (lowerWhile program plain id condition body) :=
  .bind (.refl _) fun _ => .bind (.refl _) fun _ => .bind (.refl _) fun _ => .bind (.refl _)
    fun _ => .bind (.refl _) fun _ => .bind (.refl _) fun _ => .bind (.refl _) fun _ =>
    .bind (.refl _) fun _ => .bind (watches body) fun _ => .refl _

theorem watches_lowerFor (watches : ∀ id, Watches (watched id) (plain id)) (id : StmtId)
    (initial : ForInit) (condition : Option ExprId) (updates : List ExprId) (body : StmtId) :
    Watches (lowerFor program watched id initial condition updates body)
      (lowerFor program plain id initial condition updates body) := by
  have begins : Watches (lowerForInit program watched initial)
      (lowerForInit program plain initial) := by
    cases initial with
    | decl stmt => exact watches stmt
    | exprs exprs => exact .refl _
  exact .bind begins fun _ => .bind (.refl _) fun _ => .bind (.refl _) fun _ =>
    .bind (.refl _) fun _ => .bind (.refl _) fun _ => .bind (.refl _) fun _ =>
    .bind (.refl _) fun _ => .bind (watches body) fun _ => .refl _

theorem watches_lowerFunctionDecl (watches : ∀ id, Watches (watched id) (plain id))
    (func : FuncId) :
    Watches (lowerFunctionDecl program finish watched func)
      (lowerFunctionDecl program finish plain func) :=
  .bind (.refl _) fun decl => .bind (.refl _) fun _ => .bind (.refl _) fun _ =>
    .bind (.refl _) fun _ => .bind (watches decl.body) fun _ => .refl _

theorem watches_lowerNodeOf (watches : ∀ id, Watches (watched id) (plain id)) (id : StmtId)
    (stmt : Stmt) :
    Watches (lowerNodeOf program finish watched id stmt)
      (lowerNodeOf program finish plain id stmt) := by
  cases stmt with
  | compound stmts => exact .forM watches stmts
  | functionDecl func => exact watches_lowerFunctionDecl watches func
  | ifThenElse condition thenBody elseBody => exact watches_lowerIf watches _ _ _
  | whileLoop condition body => exact watches_lowerWhile watches _ _ _
  | forLoop initial condition updates body => exact watches_lowerFor watches _ _ _ _ _
  | expr | varDecl | continueLoop | breakLoop | returnValue => exact .refl _

theorem watches_lowerStmtWatched (depth : Nat) (id : StmtId) :
    Watches (lowerStmtWatched program finish depth id)
      (lowerStmtWithin program finish depth id) := by
  induction depth generalizing id with
  | zero => exact .refl _
  | succ depth induction =>
      have same : lowerStmtWithin program finish (depth + 1) id = (do
          pure ()
          let stmt ← Lower.orFault (program.stmt? id) (.missingStmt id)
          lowerNodeOf program finish (lowerStmtWithin program finish depth) id stmt
          pure ()) := by
        simp only [lowerStmtWithin, bind_pure_unit]
      rw [same]
      exact .bind .watch fun _ => .bind (.refl _) fun stmt =>
        .bind (watches_lowerNodeOf induction id stmt) fun _ => .watch

theorem watches_lowerItemsWatched (entry : String) :
    Watches (lowerItemsWatched program finish entry) (lowerItems program finish entry) :=
  .bind (.refl _) fun _ => .bind (.forM (watches_lowerStmtWatched _) program.items)
    fun _ => .refl _

end Watched

end ScriptLowering.Lowering
