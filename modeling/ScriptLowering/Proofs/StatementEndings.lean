import ScriptLowering.Proofs.ProgramEvaluation
import ScriptLowering.Proofs.LoweringTraces

/-! # How statements end

The ways in which control may leave a statement, told from its shape. A condition may turn out
either way, whatever it is; only a `for` without a condition goes on until it is left. Evaluation
never leaves a statement in another way.
-/

namespace ScriptLowering.Source

/-! ## Results of evaluations -/

/-- All results of the evaluation satisfy `post`. -/
def Eval.Yields {α : Type} (step : Eval α) (post : α → Prop) : Prop :=
  ∀ store value after, step store = .ok (value, after) → post value

namespace Eval.Yields

variable {α β : Type} {step : Eval α} {post : α → Prop}

theorem anything (step : Eval α) : step.Yields fun _ => True := fun _ _ _ _ => trivial

theorem halt {reason : Halt} : (Eval.halt reason : Eval α).Yields post :=
  fun _ _ _ absurd => by cases absurd

theorem pure {value : α} (holds : post value) : (Pure.pure value : Eval α).Yields post := by
  rintro store _ _ ⟨⟩
  exact holds

theorem bind {rest : α → Eval β} {final : β → Prop} (yields : step.Yields post)
    (rests : ∀ value, post value → (rest value).Yields final) : (step >>= rest).Yields final := by
  intro store value after runs
  cases first : step store with
  | error halt =>
      have fails : (step >>= rest) store = .error halt := by
        simp only [Bind.bind, StateT.bind, first, Except.bind]
      rw [fails] at runs
      cases runs
  | ok pair =>
      rw [Eval.bind_eq_ok first] at runs
      exact rests pair.1 (yields store pair.1 pair.2 first) pair.2 value after runs

theorem after {rest : α → Eval β} {final : β → Prop}
    (rests : ∀ value, (rest value).Yields final) : (step >>= rest).Yields final :=
  (anything step).bind fun value _ => rests value

theorem known {found : Option α} (holds : ∀ value, found = some value → post value) :
    (Eval.known found).Yields post := by
  cases found with
  | none => exact .halt
  | some value => exact .pure (holds value rfl)

theorem mono (yields : step.Yields post) {weaker : α → Prop}
    (weakens : ∀ value, post value → weaker value) : step.Yields weaker :=
  fun store value after runs => weakens value (yields store value after runs)

end Eval.Yields

theorem Flow.yields_andThen {flow : Flow} {rest : Eval Flow} {post : Flow → Prop}
    (goesOn : flow = .normal → rest.Yields post) (stops : flow ≠ .normal → post flow) :
    (flow.andThen rest).Yields post := by
  cases flow with
  | normal => exact goesOn rfl
  | _ => exact .pure (stops (by simp))

/-- A loop ends when its condition fails, or in the way in which its body has left it. -/
theorem yields_evalLoop {id : StmtId} {condition : Eval Bool} {body : Eval Flow}
    {update : Eval Unit} {tests : Bool → Prop} {ends : Flow → Prop}
    (condition_yields : condition.Yields tests) (body_yields : body.Yields ends) (fuel : Nat) :
    (evalLoop id condition body update fuel).Yields fun flow => (flow = .normal ∧ tests false) ∨
      ∃ inner, ends inner ∧ inner.resumes id = false ∧ flow = inner.leaves id := by
  induction fuel with
  | zero => exact .halt
  | succ fuel induction =>
      refine condition_yields.bind fun holds tested => ?_
      cases holds with
      | false => exact .pure (.inl ⟨rfl, tested⟩)
      | true =>
          refine body_yields.bind fun inner ended => ?_
          cases resumes : inner.resumes id with
          | true => exact .after fun _ => induction
          | false => exact .pure (.inr ⟨inner, ended, resumes, rfl⟩)

end ScriptLowering.Source

namespace ScriptLowering.Lowering

open Source (Program ExprId Stmt StmtId VarId FuncId FunctionDecl ForInit Datum Eval Flow Library)

/-- How control leaves a part other than by returning from the function. -/
inductive Exit where
  | normal
  | broke (target : StmtId)
  | continued (target : StmtId)
  deriving DecidableEq, Repr

/-- An exit from the body of the loop `id` that leaves the loop as well and does not end there. -/
def Exit.Passes (id : StmtId) (exit : Exit) : Prop :=
  exit ≠ .normal ∧ exit ≠ .broke id ∧ exit ≠ .continued id

section Shapes

variable (program : Program)

/-- Control may leave the part by the exit. -/
inductive Ends : Part → Exit → Prop
  | expr {id : StmtId} {expr : ExprId} : Ends (.stmt id (.expr expr)) .normal
  | nothing {id : StmtId} : Ends (.stmt id (.compound [])) .normal
  | first {id head : StmtId} {tail : List StmtId} {node : Stmt} {exit : Exit}
      (found : program.stmt? head = some node) (leaves : Ends (.stmt head node) exit)
      (early : exit ≠ .normal) : Ends (.stmt id (.compound (head :: tail))) exit
  | rest {id head : StmtId} {tail : List StmtId} {node : Stmt} {exit : Exit}
      (found : program.stmt? head = some node) (first : Ends (.stmt head node) .normal)
      (leaves : Ends (.stmt id (.compound tail)) exit) :
      Ends (.stmt id (.compound (head :: tail))) exit
  | varDecl {id : StmtId} {vars : List VarId} : Ends (.stmt id (.varDecl vars)) .normal
  | functionDecl {id : StmtId} {func : FuncId} : Ends (.stmt id (.functionDecl func)) .normal
  | thenBody {id thenBody : StmtId} {condition : ExprId} {elseBody : Option StmtId}
      {node : Stmt} {exit : Exit} (found : program.stmt? thenBody = some node)
      (leaves : Ends (.stmt thenBody node) exit) :
      Ends (.stmt id (.ifThenElse condition thenBody elseBody)) exit
  | elseBody {id thenBody elseBody : StmtId} {condition : ExprId} {node : Stmt} {exit : Exit}
      (found : program.stmt? elseBody = some node) (leaves : Ends (.stmt elseBody node) exit) :
      Ends (.stmt id (.ifThenElse condition thenBody (some elseBody))) exit
  | noElse {id thenBody : StmtId} {condition : ExprId} :
      Ends (.stmt id (.ifThenElse condition thenBody none)) .normal
  | whileFails {id body : StmtId} {condition : ExprId} :
      Ends (.stmt id (.whileLoop condition body)) .normal
  | whileBody {id body : StmtId} {condition : ExprId} {node : Stmt} {exit : Exit}
      (found : program.stmt? body = some node) (leaves : Ends (.stmt body node) exit)
      (passes : exit.Passes id) : Ends (.stmt id (.whileLoop condition body)) exit
  | forInitial {id body : StmtId} {initial : ForInit} {condition : Option ExprId}
      {updates : List ExprId} {exit : Exit} (leaves : Ends (.initial initial) exit)
      (early : exit ≠ .normal) : Ends (.stmt id (.forLoop initial condition updates body)) exit
  | forFails {id body : StmtId} {initial : ForInit} {condition : ExprId} {updates : List ExprId}
      (starts : Ends (.initial initial) .normal) :
      Ends (.stmt id (.forLoop initial (some condition) updates body)) .normal
  | forBroke {id body : StmtId} {initial : ForInit} {condition : Option ExprId}
      {updates : List ExprId} {node : Stmt} (starts : Ends (.initial initial) .normal)
      (found : program.stmt? body = some node) (leaves : Ends (.stmt body node) (.broke id)) :
      Ends (.stmt id (.forLoop initial condition updates body)) .normal
  | forBody {id body : StmtId} {initial : ForInit} {condition : Option ExprId}
      {updates : List ExprId} {node : Stmt} {exit : Exit}
      (starts : Ends (.initial initial) .normal) (found : program.stmt? body = some node)
      (leaves : Ends (.stmt body node) exit) (passes : exit.Passes id) :
      Ends (.stmt id (.forLoop initial condition updates body)) exit
  | continueLoop {id target : StmtId} : Ends (.stmt id (.continueLoop target)) (.continued target)
  | breakLoop {id target : StmtId} : Ends (.stmt id (.breakLoop target)) (.broke target)
  | initialDecl {id : StmtId} {node : Stmt} {exit : Exit} (found : program.stmt? id = some node)
      (leaves : Ends (.stmt id node) exit) : Ends (.initial (.decl id)) exit
  | initialExprs {exprs : List ExprId} : Ends (.initial (.exprs exprs)) .normal

end Shapes

/-! ## Evaluation -/

/-- The exit that corresponds to an end without a return. -/
def Exit.ofFlow? : Flow → Option Exit
  | .normal => some .normal
  | .broke target => some (.broke target)
  | .continued target => some (.continued target)
  | .returned _ => none

theorem Exit.ofFlow?_eq_normal {flow : Flow} (isNormal : Exit.ofFlow? flow = some .normal) :
    flow = .normal := by
  cases flow <;> cases isNormal
  rfl

theorem Exit.ofFlow?_leaves {id : StmtId} {inner : Flow} {exit : Exit}
    (stops : inner.resumes id = false) (isExit : Exit.ofFlow? (inner.leaves id) = some exit) :
    (inner = .broke id ∧ exit = .normal) ∨ (Exit.ofFlow? inner = some exit ∧ exit.Passes id) := by
  cases inner with
  | normal => cases stops
  | returned value => cases isExit
  | continued target =>
      cases isExit
      refine .inr ⟨rfl, by simp, by simp, ?_⟩
      simpa [Flow.resumes] using stops
  | broke target =>
      by_cases same : target = id
      · subst same
        simp only [Flow.leaves, if_true] at isExit
        cases isExit
        exact .inl ⟨rfl, rfl⟩
      · simp only [Flow.leaves, Flow.broke.injEq, same, if_false] at isExit
        cases isExit
        exact .inr ⟨rfl, by simp, by simpa using same, by simp⟩

/-- The part may end in this way as far as its shape tells. -/
def MayEnd (program : Program) (part : Part) (flow : Flow) : Prop :=
  ∀ exit, Exit.ofFlow? flow = some exit → Ends program part exit

theorem MayEnd.normal {program : Program} {part : Part} (ends : Ends program part .normal) :
    MayEnd program part .normal := by
  rintro _ ⟨⟩
  exact ends

/-- A statement ends in one of the ways that its shape tells. -/
def Shaped (program : Program) (eval : StmtId → Eval Flow) : Prop :=
  ∀ id, (eval id).Yields fun flow => ∃ node, program.stmt? id = some node ∧
    MayEnd program (.stmt id node) flow

section Statements

variable {program : Program} {library : Library}
  {call : FunctionDecl → List Datum → Eval (Option Datum)} {fuel : Nat}
  {eval : StmtId → Eval Flow} (shaped : Shaped program eval)

include shaped

theorem Shaped.evalSequence (id : StmtId) (stmts : List StmtId) :
    (Source.evalSequence eval stmts).Yields (MayEnd program (.stmt id (.compound stmts))) := by
  induction stmts with
  | nil => exact .pure (.normal .nothing)
  | cons head tail induction =>
      refine (shaped head).bind fun flow ended => ?_
      rcases ended with ⟨node, found, ends⟩
      refine Flow.yields_andThen (fun isNormal => ?_) fun early exit isExit => ?_
      · subst isNormal
        exact induction.mono fun _ mayEnd exit isExit =>
          .rest found (ends _ rfl) (mayEnd exit isExit)
      · refine .first found (ends exit isExit) fun isNormal => early ?_
        subst isNormal
        exact Exit.ofFlow?_eq_normal isExit

theorem Shaped.evalForInit (initial : ForInit) :
    (Source.evalForInit program library call eval initial).Yields
      (MayEnd program (.initial initial)) := by
  cases initial with
  | decl stmt =>
      refine (shaped stmt).mono fun flow ended exit isExit => ?_
      rcases ended with ⟨node, found, ends⟩
      exact .initialDecl found (ends exit isExit)
  | exprs exprs => exact .after fun _ => .pure (.normal .initialExprs)

theorem Shaped.evalWhile (id body : StmtId) (condition : ExprId) (test : Eval Bool) :
    (Source.evalLoop id test (eval body) (pure ()) fuel).Yields
      (MayEnd program (.stmt id (.whileLoop condition body))) := by
  refine (Source.yields_evalLoop (.anything test) (shaped body) fuel).mono
    fun flow ended exit isExit => ?_
  rcases ended with ⟨rfl, _⟩ | ⟨inner, ⟨node, found, ends⟩, stops, rfl⟩
  · cases isExit
    exact .whileFails
  · rcases Exit.ofFlow?_leaves stops isExit with ⟨_, rfl⟩ | ⟨isInner, passes⟩
    · exact .whileFails
    · exact .whileBody found (ends exit isInner) passes

theorem Shaped.evalFor (id body : StmtId) (initial : ForInit) (condition : Option ExprId)
    (updates : List ExprId) (update : Eval Unit)
    (starts : Ends program (.initial initial) .normal) :
    (Source.evalLoop id (Source.evalForCondition program library call condition) (eval body) update
      fuel).Yields (MayEnd program (.stmt id (.forLoop initial condition updates body))) := by
  have tests : (Source.evalForCondition program library call condition).Yields
      fun holds => condition = none → holds = true := by
    cases condition with
    | none => exact .pure fun _ => rfl
    | some condition => exact (Eval.Yields.anything _).mono fun _ _ absurd => by cases absurd
  refine (Source.yields_evalLoop tests (shaped body) fuel).mono fun flow ended exit isExit => ?_
  rcases ended with ⟨rfl, fails⟩ | ⟨inner, ⟨node, found, ends⟩, stops, rfl⟩
  · cases isExit
    cases condition with
    | none => cases fails rfl
    | some condition => exact .forFails starts
  · rcases Exit.ofFlow?_leaves stops isExit with ⟨rfl, rfl⟩ | ⟨isInner, passes⟩
    · exact .forBroke starts found (ends _ rfl)
    · exact .forBody starts found (ends exit isInner) passes

theorem Shaped.evalNodeOf (id : StmtId) (node : Stmt) :
    (Source.evalNodeOf program library call fuel eval id node).Yields
      (MayEnd program (.stmt id node)) := by
  cases node with
  | expr expr => exact .after fun _ => .pure (.normal .expr)
  | compound stmts => exact shaped.evalSequence id stmts
  | varDecl vars => exact .after fun _ => .pure (.normal .varDecl)
  | functionDecl func => exact .pure (.normal .functionDecl)
  | ifThenElse condition thenBody elseBody =>
      refine .after fun holds => ?_
      cases holds with
      | true =>
          refine (shaped thenBody).mono fun flow ended exit isExit => ?_
          rcases ended with ⟨node, found, ends⟩
          exact .thenBody found (ends exit isExit)
      | false =>
          cases elseBody with
          | none => exact .pure (.normal .noElse)
          | some elseBody =>
              refine (shaped elseBody).mono fun flow ended exit isExit => ?_
              rcases ended with ⟨node, found, ends⟩
              exact .elseBody found (ends exit isExit)
  | whileLoop condition body => exact shaped.evalWhile id body condition _
  | forLoop initial condition updates body =>
      refine (shaped.evalForInit initial).bind fun flow starts => ?_
      refine Flow.yields_andThen (fun isNormal => ?_) fun early exit isExit => ?_
      · subst isNormal
        exact shaped.evalFor id body initial condition updates _ (starts _ rfl)
      · refine .forInitial (starts exit isExit) fun isNormal => early ?_
        subst isNormal
        exact Exit.ofFlow?_eq_normal isExit
  | continueLoop target =>
      refine .pure fun exit isExit => ?_
      cases isExit
      exact .continueLoop
  | breakLoop target =>
      refine .pure fun exit isExit => ?_
      cases isExit
      exact .breakLoop
  | returnValue value =>
      cases value with
      | none => exact .pure fun exit isExit => by cases isExit
      | some expr => exact .after fun _ => .pure fun exit isExit => by cases isExit

omit shaped in
/-- However a statement ends, its shape tells. -/
theorem shaped_evalStmtWithin (depth : Nat) :
    Shaped program (Source.evalStmtWithin program library call fuel depth) := by
  induction depth with
  | zero => exact fun id => .halt
  | succ depth induction =>
      intro id
      refine (Eval.Yields.known fun node found => found).bind fun node found => ?_
      exact (induction.evalNodeOf id node).mono fun flow mayEnd => ⟨node, found, mayEnd⟩

end Statements

end ScriptLowering.Lowering
