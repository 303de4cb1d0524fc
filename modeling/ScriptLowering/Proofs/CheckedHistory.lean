import ScriptLowering.Proofs.EarlyChecks
import ScriptLowering.Proofs.History

/-! # Histories with early checks

A run that verifies each function as soon as it is complete takes the steps of a run that does not,
up to the first function that is rejected. So the history without checks tells of every function
that is finished, whether it passes its check or not.
-/

namespace ScriptLowering.Lowering

open Source (Program ExprId ForInit FuncId FunctionDecl Stmt StmtId)

/-- What is told with early checks is what is told without them, or stops where a function that is
finished is rejected. -/
def Told.StopsEarly {α : Type} (options : Options) (checked plain : Told α) : Prop :=
  ∀ session, checked session = plain session ∨ ∃ event later name rejection,
    (plain session).1 = (checked session).1 ++ event :: later ∧ event.task = .finish name ∧
      finishFunction options name event.before = .error rejection ∧
        (checked session).2 = .error rejection

namespace Told.StopsEarly

variable {α β ι : Type} {options : Options}

theorem refl (told : Told α) : told.StopsEarly options told := fun _ => .inl rfl

theorem bind {checked plain : Told α} {checkedRest plainRest : α → Told β}
    (stops : checked.StopsEarly options plain)
    (rests : ∀ value, (checkedRest value).StopsEarly options (plainRest value)) :
    (checked >>= checkedRest).StopsEarly options (plain >>= plainRest) := by
  intro session
  change Told.bind checked checkedRest session = Told.bind plain plainRest session ∨
    ∃ event later name rejection, (Told.bind plain plainRest session).1 =
      (Told.bind checked checkedRest session).1 ++ event :: later ∧ event.task = .finish name ∧
        finishFunction options name event.before = .error rejection ∧
          (Told.bind checked checkedRest session).2 = .error rejection
  unfold Told.bind
  rcases stops session with same | ⟨event, later, name, rejection, tells, finishes, rejects, fails⟩
  · rw [same]
    rcases plain session with ⟨events, error | ⟨value, next⟩⟩
    · exact .inl rfl
    · refine (rests value next).imp (fun sameRest => ?_) fun stopsRest => ?_
      · simp only [sameRest]
      · rcases stopsRest with ⟨event, later, name, rejection, tells, rest⟩
        refine ⟨event, later, name, rejection, ?_, rest⟩
        simp only [tells, List.append_assoc]
  · rcases checkedResult : checked session with ⟨events, outcome⟩
    rw [checkedResult] at tells fails
    cases fails
    rcases plainResult : plain session with ⟨all, error | ⟨value, next⟩⟩
    · rw [plainResult] at tells
      exact .inr ⟨event, later, name, rejection, tells, finishes, rejects, rfl⟩
    · rw [plainResult] at tells
      refine .inr ⟨event, later ++ (plainRest value next).1, name, rejection, ?_, finishes, rejects,
        rfl⟩
      have tells : all = events ++ event :: later := tells
      simp only [tells, List.append_assoc, List.cons_append]

theorem forM {checked plain : ι → Told Unit}
    (stops : ∀ item, (checked item).StopsEarly options (plain item)) (items : List ι) :
    (items.forM checked).StopsEarly options (items.forM plain) := by
  induction items with
  | nil => exact refl _
  | cons item rest induction => exact bind (stops item) fun _ => induction

variable {program : Program}

theorem finish (name : String) :
    (Told.telling (fun _ => .finish name) (finishFunction options name)).StopsEarly options
      (Told.telling (fun _ => .finish name)
        (finishFunction (options.withFunctionVerification false) name)) := by
  intro session
  unfold Told.telling
  cases drops : Lower.buildWith (fun cursor => cursor.finalize name) session with
  | error error =>
      have fails (options : Options) : finishFunction options name session = .error error :=
        Lower.bind_eq_error drops
      simp only [fails, true_or]
  | ok pair =>
      have plain : finishFunction (options.withFunctionVerification false) name session =
          .ok ((), pair.2) := Lower.bind_eq drops
      rw [plain]
      cases checked : finishFunction options name session with
      | error rejection =>
          exact .inr ⟨⟨.finish name, session, pair.2⟩, [], name, rejection, rfl, rfl, checked, rfl⟩
      | ok last =>
          have agrees : finishFunction (options.withFunctionVerification false) name session =
              .ok last := by
            rcases options with ⟨entry, verify⟩
            cases verify with
            | true => exact forgets_finishFunction entry name session last checked
            | false => exact checked
          rw [plain] at agrees
          cases agrees
          exact .inl rfl

variable {program : Program} {checked plain : StmtId → Told Unit}

/-! ### Statements -/

theorem tellIf (stops : ∀ id, (checked id).StopsEarly options (plain id)) (id : StmtId)
    (condition : ExprId) (thenBody : StmtId) (elseBody : Option StmtId) :
    (tellIf program checked id condition thenBody elseBody).StopsEarly options
      (tellIf program plain id condition thenBody elseBody) := by
  refine bind (refl _) fun value => bind (refl _) fun thenBlock => bind (refl _) fun endBlock => ?_
  cases elseBody with
  | none =>
      exact bind (refl _) fun _ => bind (refl _) fun _ => bind (stops thenBody) fun _ => refl _
  | some elseBody =>
      exact bind (refl _) fun _ => bind (refl _) fun _ => bind (refl _) fun _ =>
        bind (stops thenBody) fun _ => bind (refl _) fun _ => bind (refl _) fun _ =>
        bind (stops elseBody) fun _ => refl _

theorem tellWhile (stops : ∀ id, (checked id).StopsEarly options (plain id)) (id : StmtId)
    (condition : ExprId) (body : StmtId) :
    (tellWhile program checked id condition body).StopsEarly options
      (tellWhile program plain id condition body) :=
  bind (refl _) fun _ => bind (refl _) fun _ => bind (refl _) fun _ => bind (refl _) fun _ =>
    bind (refl _) fun _ => bind (refl _) fun _ => bind (refl _) fun _ => bind (refl _) fun _ =>
    bind (stops body) fun _ => refl _

theorem tellFor (stops : ∀ id, (checked id).StopsEarly options (plain id)) (id : StmtId)
    (initial : ForInit) (condition : Option ExprId) (updates : List ExprId) (body : StmtId) :
    (tellFor program checked id initial condition updates body).StopsEarly options
      (tellFor program plain id initial condition updates body) := by
  have begins : (tellForInit program checked initial).StopsEarly options
      (tellForInit program plain initial) := by
    cases initial with
    | decl stmt => exact stops stmt
    | exprs exprs => exact refl _
  exact bind begins fun _ => bind (refl _) fun _ => bind (refl _) fun _ => bind (refl _) fun _ =>
    bind (refl _) fun _ => bind (refl _) fun _ => bind (refl _) fun _ => bind (stops body) fun _ =>
    refl _

theorem tellFunctionDecl (stops : ∀ id, (checked id).StopsEarly options (plain id))
    (func : FuncId) :
    (tellFunctionDecl program (finishFunction options) checked func).StopsEarly options
      (tellFunctionDecl program (finishFunction (options.withFunctionVerification false)) plain
        func) := by
  refine bind (refl _) fun decl => bind (refl _) fun cursor => bind (refl _) fun _ => ?_
  refine bind ?_ fun _ => refl _
  refine bind (refl _) fun _ => bind (stops decl.body) fun _ => ?_
  split
  · exact bind (refl _) fun _ => finish decl.name
  · exact finish decl.name

theorem tellNodeOf (stops : ∀ id, (checked id).StopsEarly options (plain id)) (id : StmtId)
    (stmt : Stmt) :
    (tellNodeOf program (finishFunction options) checked id stmt).StopsEarly options
      (tellNodeOf program (finishFunction (options.withFunctionVerification false)) plain id
        stmt) := by
  cases stmt with
  | compound stmts => exact forM stops stmts
  | functionDecl func => exact tellFunctionDecl stops func
  | ifThenElse condition thenBody elseBody => exact tellIf stops id condition thenBody elseBody
  | whileLoop condition body => exact tellWhile stops id condition body
  | forLoop initial condition updates body => exact tellFor stops id initial condition updates body
  | expr | varDecl | continueLoop | breakLoop | returnValue => exact refl _

theorem tellStmtWithin (depth : Nat) (id : StmtId) :
    (tellStmtWithin program (finishFunction options) depth id).StopsEarly options
      (tellStmtWithin program (finishFunction (options.withFunctionVerification false)) depth
        id) := by
  induction depth generalizing id with
  | zero => exact refl _
  | succ depth induction =>
      exact bind (refl _) fun _ => bind (refl _) fun stmt => tellNodeOf induction id stmt

theorem tellItems : (tellItems program (finishFunction options) options.entryFunction).StopsEarly
    options (tellItems program (finishFunction (options.withFunctionVerification false))
      options.entryFunction) :=
  bind (refl _) fun _ => bind (forM (tellStmtWithin _) _) fun _ => bind (refl _) fun _ =>
    finish options.entryFunction

end Told.StopsEarly

/-- The history with early checks is the one without them, or stops in front of a function that is
finished and rejected. -/
theorem history_checked (program : Program) (options : Options) :
    history program options = history program (options.withFunctionVerification false) ∨
      ∃ event later name rejection, history program (options.withFunctionVerification false) =
        history program options ++ event :: later ∧ event.task = .finish name ∧
          finishFunction options name event.before = .error rejection := by
  have sameModule : declareAll program (options.withFunctionVerification false) =
      declareAll program options := rfl
  unfold history
  rw [sameModule]
  cases declareAll program options with
  | error error => exact .inl rfl
  | ok declared =>
      refine (Told.StopsEarly.tellItems (.start (.ofModule declared))).imp (congrArg Prod.fst) ?_
      rintro ⟨event, later, name, rejection, tells, finishes, rejects, _⟩
      exact ⟨event, later, name, rejection, tells, finishes, rejects⟩

end ScriptLowering.Lowering
