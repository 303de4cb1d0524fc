import ScriptLowering.Proofs.HistoryStretches

/-! # Guarded runs

A guarded run fails with a failure of its own in front of the first statement, or the first end of
a function, where the session is not as it should be. If no guarded run fails in this way, the
sessions of the history are as they should be.
-/

namespace ScriptLowering.Lowering

open Source (Program ExprId ForInit FuncId FunctionDecl Stmt StmtId VarDecl VarId)
open Code (BlockId Operand)

/-! ## Guards -/

/-- What is asked of a session in which lowering comes to a statement or finishes a function. -/
structure Guard where
  meets : Nat → StmtId → Session → Prop
  finishes : String → Session → Prop
  failure : Error

namespace Guard

def Passes (guard : Guard) (session : Session) : Task → Prop
  | .come depth id => guard.meets depth id session
  | .finish name => guard.finishes name session
  | .start _ | .param _ _ | .expr _ | .var _ | .create _ _ _ | .loop _ _ | .test _ _ _ _
  | .enter _ _ _ | .leave _ _ | .jump _ | .returnIfLive _ | .resume _ => True

open Classical in
noncomputable def check (guard : Guard) (task : Task) : Lower Unit := fun session =>
  if guard.Passes session task then .ok ((), session) else .error guard.failure

noncomputable def finishing (guard : Guard) (finish : String → Lower Unit) (name : String) :
    Lower Unit := do
  guard.check (.finish name)
  finish name

theorem check_of_passes {guard : Guard} {task : Task} {session : Session}
    (passes : guard.Passes session task) : guard.check task session = .ok ((), session) :=
  if_pos passes

theorem check_of_not_passes {guard : Guard} {task : Task} {session : Session}
    (stops : ¬ guard.Passes session task) : guard.check task session = .error guard.failure :=
  if_neg stops

end Guard

/-- As `lowerStmtWatched`, but first of all something is done that is told the statement. -/
def lowerStmtMeeting (program : Program) (finish : String → Lower Unit)
    (meet : Nat → StmtId → Lower Unit) : (depth : Nat) → StmtId → Lower Unit
  | 0, _ => Lower.fault .endless
  | depth + 1, id => do
      meet (depth + 1) id
      watch
      let stmt ← Lower.orFault (program.stmt? id) (.missingStmt id)
      lowerNodeOf program finish (lowerStmtMeeting program finish meet depth) id stmt
      watch

def lowerItemsMeeting (program : Program) (finish : String → Lower Unit)
    (meet : Nat → StmtId → Lower Unit) (entry : String) : Lower Unit := do
  openFunction entry
  program.items.forM (lowerStmtMeeting program finish meet (stmtDepth program))
  returnIfLive (some (.ofInt64 0))
  finish entry

/-- The run of a program that checks every statement and every end of a function. -/
noncomputable def lowerItemsGuarded (guard : Guard) (program : Program) (options : Options) :
    Lower Unit :=
  lowerItemsMeeting program (guard.finishing (finishFunction options))
    (fun depth id => guard.check (.come depth id)) options.entryFunction

/-! ## What is told one after the other -/

/-- The first of the events begins in the first session. -/
def Leads (first : Session) : List Event → Session → Prop
  | [], last => last = first
  | event :: _, _ => event.before = first

namespace Leads

variable {first middle last : Session} {events more : List Event} {event : Event}

theorem append (leads : Leads first events middle) (leadsOn : Leads middle more last) :
    Leads first (events ++ more) last := by
  cases events with
  | nil =>
      cases leads
      exact leadsOn
  | cons event rest => exact leads

theorem numbers (leads : Leads first events last) (numbered : Numbered events)
    (numbers : last.hasNumbers = true) : first.hasNumbers = true := by
  cases events with
  | nil =>
      cases leads
      exact numbers
  | cons event rest =>
      cases leads
      exact numbered _ List.mem_cons_self

theorem numbers_of_append (leads : Leads first (events ++ event :: more) last)
    (numbered : Numbered (events ++ [event])) : first.hasNumbers = true := by
  cases events with
  | nil =>
      cases leads
      exact numbered _ List.mem_cons_self
  | cons other rest =>
      cases leads
      exact numbered _ List.mem_cons_self

end Leads

/-- The guarded step goes on as long as the events pass, and stops in front of the first one that
does not. -/
structure Guard.Follows {α : Type} (guard : Guard) (session : Session) (events : List Event)
    (plain guarded : Except Error (α × Session)) : Prop where
  leads : ∃ last, Leads session events last ∧
    ∀ value next, plain = .ok (value, next) → next = last
  continues : ∀ value next, plain = .ok (value, next) → Numbered events →
    next.hasNumbers = true → (∀ event ∈ events, guard.Passes event.before event.task) →
    guarded = .ok (value, next)
  stops : ∀ earlier event later, events = earlier ++ event :: later →
    Numbered (earlier ++ [event]) → (∀ other ∈ earlier, guard.Passes other.before other.task) →
    ¬ guard.Passes event.before event.task → guarded = .error guard.failure

def Told.Guards {α : Type} (guard : Guard) (told : Told α) (guarded : Lower α) : Prop :=
  ∀ session, guard.Follows session (told session).1 (told session).2 (guarded session)

/-! ### Expressions -/

/-- Only expressions are told. -/
structure TellsExprs (first : Session) (events : List Event) (last : Session) : Prop where
  leads : Leads first events last
  tasks : ∀ event ∈ events, ∃ id, event.task = .expr id

theorem TellsExprs.append {first middle last : Session} {events more : List Event}
    (tells : TellsExprs first events middle) (tellsOn : TellsExprs middle more last) :
    TellsExprs first (events ++ more) last where
  leads := tells.leads.append tellsOn.leads
  tasks event member := (List.mem_append.mp member).elim (tells.tasks event) (tellsOn.tasks event)

theorem tellsExprs_nil (session : Session) : TellsExprs session [] session :=
  ⟨rfl, List.forall_mem_nil _⟩

theorem tellsExprs_tellEach {tell : ExprId → Told (Option Operand)}
    (fails : ∀ id session error, (tell id session).2 = .error error → (tell id session).1 = [])
    (tells : ∀ id session value next, (tell id session).2 = .ok (value, next) →
      TellsExprs session (tell id session).1 next) (ids : List ExprId) (session : Session) :
    TellsExprs session (tellEach tell ids session).1 (tellEach tell ids session).2 := by
  induction ids generalizing session with
  | nil => exact tellsExprs_nil session
  | cons id rest induction =>
      have failed := fails id session
      have told := tells id session
      unfold tellEach
      rcases result : tell id session with ⟨events, error | ⟨value, next⟩⟩
      · rw [result] at failed
        cases failed error rfl
        exact tellsExprs_nil session
      · rw [result] at told
        exact (told value next rfl).append (induction next)

theorem append_eq_append_cons {α : Type} {first second earlier later : List α} {item : α}
    (same : first ++ second = earlier ++ item :: later) :
    (∃ back, first = earlier ++ item :: back) ∨
      ∃ front, earlier = first ++ front ∧ second = front ++ item :: later := by
  rcases List.append_eq_append_iff.mp same with ⟨front, split, rest⟩ | ⟨back, rfl, rest⟩
  · exact .inr ⟨front, split, rest⟩
  · rcases List.cons_eq_append_iff.mp rest with ⟨rfl, rest⟩ | ⟨back, rfl, _⟩
    · exact .inr ⟨[], by simp, rest.symm⟩
    · exact .inl ⟨back, rfl⟩

theorem tellsExprs_tellExprWithin {program : Program} {depth : Nat} {id : ExprId}
    {session next : Session} {value : Option Operand}
    (runs : (tellExprWithin program depth id session).2 = .ok (value, next)) :
    TellsExprs session (tellExprWithin program depth id session).1 next := by
  induction depth generalizing id session value next with
  | zero => cases runs
  | succ depth induction =>
      revert runs
      simp only [tellExprWithin]
      cases lowerExprWithin program (depth + 1) id session with
      | error error =>
          intro fails
          cases fails
      | ok pair =>
          rintro ⟨⟩
          have operands (ids : List ExprId) :
              TellsExprs session (tellEach (tellExprWithin program depth) ids session).1 _ :=
            tellsExprs_tellEach (fun _ _ _ => tellExprWithin_of_error) (fun _ _ _ _ => induction)
              ids session
          exact (operands _).append ⟨rfl, by simp⟩

namespace Told.Guards

variable {α β ι : Type} {guard : Guard}

/-! ## Steps -/

/-- A step that tells nothing and leaves the session as it is. -/
theorem asking {step : Lower α}
    (stays : ∀ session value next, step session = .ok (value, next) → next = session) :
    Guards guard (Told.asking step) step := by
  refine fun session => ⟨⟨session, rfl, stays session⟩, fun _ _ runs _ _ _ => runs,
    fun earlier event later tells => ?_⟩
  cases List.append_ne_nil_of_right_ne_nil earlier (List.cons_ne_nil event later) tells.symm

theorem pure (value : α) : Guards guard (Pure.pure value) (Pure.pure value) := by
  have stays (session : Session) (other : α) (next : Session)
      (same : (Pure.pure value : Lower α) session = .ok (other, next)) : next = session := by
    cases same
    rfl
  exact asking stays

theorem orFault (found : Option α) (fault : ProgramFault) :
    Guards guard (Told.asking (Lower.orFault found fault)) (Lower.orFault found fault) := by
  apply asking
  intro session value next same
  cases found with
  | none => cases same
  | some value =>
      cases same
      rfl

theorem fault (fault : ProgramFault) :
    Guards guard (Told.asking (Lower.fault fault : Lower α)) (Lower.fault fault) :=
  asking nofun

theorem cursor : Guards guard (Told.asking Lower.cursor) Lower.cursor := by
  apply asking
  intro session value next same
  cases same
  rfl

theorem telling {task : α → Task} {step guarded : Lower α}
    (goesOn : ∀ session value next, step session = .ok (value, next) →
      guard.Passes session (task value) → guarded session = .ok (value, next))
    (stops : ∀ session value next, step session = .ok (value, next) →
      ¬ guard.Passes session (task value) → guarded session = .error guard.failure) :
    Guards guard (Told.telling task step) guarded := by
  intro session
  unfold Told.telling
  cases result : step session with
  | error error =>
      refine ⟨⟨session, rfl, nofun⟩, fun _ _ runs => (nomatch runs),
        fun earlier event later tells => ?_⟩
      cases List.append_ne_nil_of_right_ne_nil earlier (List.cons_ne_nil event later) tells.symm
  | ok pair =>
      refine ⟨⟨pair.2, rfl, ?_⟩, ?_, fun earlier event later tells _ _ stopped => ?_⟩
      · rintro _ _ ⟨⟩
        rfl
      · rintro _ _ ⟨⟩ _ _ passes
        exact goesOn session _ _ result (passes _ List.mem_cons_self)
      · rcases List.cons_eq_append_iff.mp tells with ⟨rfl, same⟩ | ⟨rest, _, same⟩
        · cases same
          exact stops session _ _ result stopped
        · cases List.append_ne_nil_of_right_ne_nil rest (List.cons_ne_nil event later) same.symm

/-- A step that is not checked. -/
theorem plain (task : α → Task) (step : Lower α)
    (passes : ∀ value session, guard.Passes session (task value)) :
    Guards guard (Told.telling task step) step :=
  telling (fun _ _ _ runs _ => runs) fun session value _ _ stopped =>
    absurd (passes value session) stopped

theorem checking (task : Task) (step : Lower α) :
    Guards guard (Told.telling (fun _ => task) step) (do guard.check task; step) :=
  telling (fun _ _ _ runs passes => (Lower.bind_eq (Guard.check_of_passes passes)).trans runs)
    fun _ _ _ _ stopped => Lower.bind_eq_error (Guard.check_of_not_passes stopped)

/-- Behind a step it can be watched. -/
theorem thenWatch {told : Told Unit} {guarded : Lower Unit} (follows : Guards guard told guarded) :
    Guards guard told (do guarded; watch) := by
  intro session
  have first := follows session
  refine ⟨first.leads, fun value next runs numbered numbers passes => ?_,
    fun earlier event later tells numbered passes stops =>
      Lower.bind_eq_error (first.stops earlier event later tells numbered passes stops)⟩
  rw [Lower.bind_eq (first.continues value next runs numbered numbers passes)]
  exact if_pos numbers

theorem bind {told : Told α} {guarded : Lower α} {rest : α → Told β} {guardedRest : α → Lower β}
    (follows : Guards guard told guarded)
    (follow : ∀ value, Guards guard (rest value) (guardedRest value)) :
    Guards guard (told >>= rest) (guarded >>= guardedRest) := by
  intro session
  change guard.Follows session (Told.bind told rest session).1 (Told.bind told rest session).2 _
  have first := follows session
  unfold Told.bind
  rcases result : told session with ⟨events, error | ⟨value, next⟩⟩
  · rw [result] at first
    rcases first.leads with ⟨last, leads, _⟩
    exact ⟨⟨last, leads, nofun⟩, fun _ _ runs => (nomatch runs),
      fun earlier event later tells numbered passes stops =>
        Lower.bind_eq_error (first.stops earlier event later tells numbered passes stops)⟩
  · rw [result] at first
    have second := follow value next
    rcases first.leads with ⟨middle, leads, same⟩
    cases same value next rfl
    rcases second.leads with ⟨last, leadsOn, ends⟩
    refine ⟨⟨last, leads.append leadsOn, ends⟩, fun other final runs numbered numbers passes => ?_,
      fun earlier event later tells numbered passes stops => ?_⟩
    · have both := numbered_append.mp numbered
      cases ends other final runs
      have goesOn := first.continues value next rfl both.1 (leadsOn.numbers both.2 numbers)
        fun event member => passes event (List.mem_append_left _ member)
      rw [Lower.bind_eq goesOn]
      exact second.continues other last runs both.2 numbers fun event member =>
        passes event (List.mem_append_right _ member)
    · rcases append_eq_append_cons tells with ⟨back, splits⟩ | ⟨front, rfl, splits⟩
      · exact Lower.bind_eq_error (first.stops earlier event back splits numbered passes stops)
      · rw [splits] at leadsOn
        rw [List.append_assoc] at numbered
        have both := numbered_append.mp numbered
        have goesOn := first.continues value next rfl both.1 (leadsOn.numbers_of_append both.2)
          fun other member => passes other (List.mem_append_left _ member)
        rw [Lower.bind_eq goesOn]
        exact second.stops front event later splits both.2
          (fun other member => passes other (List.mem_append_right _ member)) stops

theorem forM {told : ι → Told Unit} {guarded : ι → Lower Unit}
    (follows : ∀ item, Guards guard (told item) (guarded item)) (items : List ι) :
    Guards guard (items.forM told) (items.forM guarded) := by
  induction items with
  | nil => exact pure ()
  | cons item rest induction => exact bind (follows item) fun _ => induction

variable {program : Program} {finish : String → Lower Unit}

/-! ### Expressions and variables -/

theorem tellExprWithin (depth : Nat) (id : ExprId) :
    Guards guard (tellExprWithin program depth id) (lowerExprWithin program depth id) := by
  rw [← step_tellExprWithin]
  intro session
  rcases result : Lowering.tellExprWithin program depth id session with
    ⟨events, error | ⟨value, next⟩⟩
  · have nothing := tellExprWithin_of_error (congrArg Prod.snd result)
    rw [result] at nothing
    cases nothing
    refine ⟨⟨session, rfl, nofun⟩, fun _ _ runs => (nomatch runs),
      fun earlier event later tells => ?_⟩
    cases List.append_ne_nil_of_right_ne_nil earlier (List.cons_ne_nil event later) tells.symm
  · have tells := tellsExprs_tellExprWithin (congrArg Prod.snd result)
    rw [result] at tells
    refine ⟨⟨next, tells.leads, ?_⟩, fun _ _ runs _ _ _ => ?_,
      fun earlier event later split _ _ stops => ?_⟩
    · rintro _ _ ⟨⟩
      rfl
    · exact (congrArg Prod.snd result).trans runs
    · cases split
      rcases tells.tasks event (List.mem_append_right _ List.mem_cons_self) with ⟨expr, isExpr⟩
      rw [isExpr] at stops
      exact absurd trivial stops

theorem tellExpr (id : ExprId) : Guards guard (tellExpr program id) (lowerExpr program id) :=
  tellExprWithin _ id

theorem tellValue (id : ExprId) : Guards guard (tellValue program id) (lowerValue program id) :=
  bind (tellExpr id) fun value => orFault value _

theorem tellEffect (id : ExprId) : Guards guard (tellEffect program id)
    (do let _ ← lowerExpr program id : Lower Unit) :=
  bind (tellExpr id) fun _ => pure ()

theorem tellExprs (ids : List ExprId) : Guards guard (tellExprs program ids)
    (ids.forM fun id => do let _ ← lowerExpr program id : Lower Unit) :=
  forM tellEffect ids

theorem tellInitial (decl : VarDecl) :
    Guards guard (tellInitial program decl) (lowerInitial program decl) := by
  unfold Lowering.tellInitial lowerInitial
  cases decl.initial with
  | none => exact pure none
  | some expr => exact bind (tellValue expr) fun value => pure (some value)

theorem tellVarDecl (id : VarId) :
    Guards guard (tellVarDecl program id) (lowerVarDecl program id) := by
  refine bind (orFault _ _) fun decl => ?_
  split
  · exact fault _
  · exact bind (tellInitial decl) fun value => plain (fun _ => .var id) _ fun _ _ => trivial

/-! ### Statements -/

theorem tellCreate (id : StmtId) (label : String) :
    Guards guard (tellCreate id label) (createBlock label) :=
  plain (fun block => .create id label block) _ fun _ _ => trivial

theorem tellLoop (id : StmtId) (blocks : LoopBlocks) : Guards guard (tellLoop id blocks)
    (Lower.annotate fun annotations => annotations.setLoop id blocks) :=
  plain (fun _ => .loop id blocks) _ fun _ _ => trivial

theorem tellTest (id : StmtId) (value : Operand) (thenBlock elseBlock : BlockId) :
    Guards guard (tellTest id value thenBlock elseBlock)
      (Lower.append fun cursor => cursor.branch value thenBlock elseBlock) :=
  plain (fun _ => .test id value thenBlock elseBlock) _ fun _ _ => trivial

theorem tellEnter (id : StmtId) (block : BlockId) (closing : Bool) :
    Guards guard (tellEnter id block closing) (enter block closing) :=
  plain (fun _ => .enter id block closing) _ fun _ _ => trivial

theorem tellLeave (id : StmtId) (target : BlockId) :
    Guards guard (tellLeave id target) (leaveTo target) :=
  plain (fun _ => .leave id target) _ fun _ _ => trivial

theorem tellUpdateBlock (id : StmtId) (updates : List ExprId) :
    Guards guard (tellUpdateBlock id updates) (createUpdateBlock updates) := by
  unfold Lowering.tellUpdateBlock createUpdateBlock
  split
  · exact pure none
  · exact bind (tellCreate id _) fun block => pure (some block)

theorem tellForCondition (id : StmtId) (endBlock : BlockId) (condition : Option ExprId) :
    Guards guard (tellForCondition program id endBlock condition)
      (lowerForCondition program endBlock condition) := by
  cases condition with
  | none => exact pure ()
  | some condition =>
      exact bind (tellCreate id _) fun _ => bind (tellValue condition) fun value =>
        bind (tellTest id value _ _) fun _ => tellEnter id _ false

theorem tellForUpdates (id : StmtId) (updates : List ExprId) (updateBlock : Option BlockId) :
    Guards guard (tellForUpdates program id updates updateBlock)
      (lowerForUpdates program updates updateBlock) := by
  cases updateBlock with
  | none => exact pure ()
  | some block => exact bind (tellEnter id block false) fun _ => tellExprs updates

theorem tellReturn (id : StmtId) (value : Option ExprId) :
    Guards guard (tellReturn program id value) (lowerReturn program value) := by
  cases value with
  | none => exact plain (fun _ => .jump id) _ fun _ _ => trivial
  | some expr =>
      exact bind (tellValue expr) fun _ => plain (fun _ => .jump id) _ fun _ _ => trivial

section Statements

variable {tell : StmtId → Told Unit} {lower : StmtId → Lower Unit}
  {finish : String → Lower Unit}

theorem tellIf (guards : ∀ id, Guards guard (tell id) (lower id)) (id : StmtId)
    (condition : ExprId) (thenBody : StmtId) (elseBody : Option StmtId) :
    Guards guard (tellIf program tell id condition thenBody elseBody)
      (lowerIf program lower condition thenBody elseBody) := by
  refine bind (tellValue condition) fun value => bind (tellCreate id _) fun thenBlock =>
    bind (tellCreate id _) fun endBlock => ?_
  cases elseBody with
  | none =>
      exact bind (tellTest id value _ _) fun _ => bind (tellEnter id _ false) fun _ =>
        bind (guards thenBody) fun _ => bind (tellLeave id _) fun _ => tellEnter id _ true
  | some elseBody =>
      exact bind (tellCreate id _) fun _ => bind (tellTest id value _ _) fun _ =>
        bind (tellEnter id _ false) fun _ => bind (guards thenBody) fun _ =>
        bind (tellLeave id _) fun _ => bind (tellEnter id _ false) fun _ =>
        bind (guards elseBody) fun _ => bind (tellLeave id _) fun _ => tellEnter id _ true

theorem tellWhile (guards : ∀ id, Guards guard (tell id) (lower id)) (id : StmtId)
    (condition : ExprId) (body : StmtId) :
    Guards guard (tellWhile program tell id condition body)
      (lowerWhile program lower id condition body) :=
  bind (tellCreate id _) fun _ => bind (tellCreate id _) fun _ => bind (tellCreate id _) fun _ =>
    bind (tellLoop id _) fun _ => bind (tellEnter id _ false) fun _ =>
    bind (tellValue condition) fun value => bind (tellTest id value _ _) fun _ =>
    bind (tellEnter id _ false) fun _ => bind (guards body) fun _ =>
    bind (tellLeave id _) fun _ => tellEnter id _ true

theorem tellFor (guards : ∀ id, Guards guard (tell id) (lower id)) (id : StmtId)
    (initial : ForInit) (condition : Option ExprId) (updates : List ExprId) (body : StmtId) :
    Guards guard (tellFor program tell id initial condition updates body)
      (lowerFor program lower id initial condition updates body) := by
  have begins : Guards guard (tellForInit program tell initial)
      (lowerForInit program lower initial) := by
    cases initial with
    | decl stmt => exact guards stmt
    | exprs exprs => exact tellExprs exprs
  exact bind begins fun _ => bind (tellCreate id _) fun _ => bind (tellCreate id _) fun endBlock =>
    bind (tellEnter id _ false) fun _ => bind (tellUpdateBlock id updates) fun updateBlock =>
    bind (tellLoop id _) fun _ => bind (tellForCondition id endBlock condition) fun _ =>
    bind (guards body) fun _ => bind (tellForUpdates id updates updateBlock) fun _ =>
    bind (tellLeave id _) fun _ => tellEnter id _ true

theorem tellFunctionBody (guards : ∀ id, Guards guard (tell id) (lower id))
    (decl : FunctionDecl) : Guards guard (tellFunctionBody program finish tell decl) (do
      decl.params.zipIdx.forM fun entry : VarId × Nat => lowerParam program entry.1 entry.2
      lower decl.body
      if decl.returnsNothing then returnIfLive none
      guard.finishing finish decl.name) := by
  have param (entry : VarId × Nat) : Guards guard
      (Told.telling (fun _ => .param entry.1 entry.2) (lowerParam program entry.1 entry.2))
      (lowerParam program entry.1 entry.2) := plain _ _ fun _ _ => trivial
  refine bind (forM param decl.params.zipIdx) fun _ => bind (guards decl.body) fun _ => ?_
  split
  · exact bind (plain (fun _ => .returnIfLive none) _ fun _ _ => trivial) fun _ =>
      checking (.finish decl.name) (finish decl.name)
  · exact checking (.finish decl.name) (finish decl.name)

theorem tellFunctionDecl (guards : ∀ id, Guards guard (tell id) (lower id)) (func : FuncId) :
    Guards guard (tellFunctionDecl program finish tell func)
      (lowerFunctionDecl program (guard.finishing finish) lower func) := by
  refine bind (orFault _ _) fun decl => bind cursor fun current => ?_
  refine bind (plain (fun _ => .start decl.name) _ fun _ _ => trivial) fun _ => ?_
  have resumes : Guards guard (Told.telling (fun _ => .resume current.position)
      (Lower.moveCursor fun cursor => cursor.setPosition current.position)) _ :=
    plain _ _ fun _ _ => trivial
  have body : Guards guard
      (Lowering.tellFunctionBody program finish tell decl >>= fun _ => Told.telling _ _) _ :=
    bind (tellFunctionBody guards decl) fun _ => resumes
  simp only [LawfulMonad.bind_assoc, ite_bind] at body
  exact body

theorem tellNodeOf (guards : ∀ id, Guards guard (tell id) (lower id)) (id : StmtId)
    (stmt : Stmt) : Guards guard (tellNodeOf program finish tell id stmt)
      (lowerNodeOf program (guard.finishing finish) lower id stmt) := by
  cases stmt with
  | expr expr => exact tellEffect expr
  | compound stmts => exact forM guards stmts
  | varDecl vars => exact forM tellVarDecl vars
  | functionDecl func => exact tellFunctionDecl guards func
  | ifThenElse condition thenBody elseBody => exact tellIf guards id condition thenBody elseBody
  | whileLoop condition body => exact tellWhile guards id condition body
  | forLoop initial condition updates body => exact tellFor guards id initial condition updates body
  | continueLoop | breakLoop => exact plain (fun _ => .jump id) _ fun _ _ => trivial
  | returnValue value => exact tellReturn id value

theorem tellStmtWithin (depth : Nat) (id : StmtId) :
    Guards guard (tellStmtWithin program finish depth id)
      (lowerStmtMeeting program (guard.finishing finish)
        (fun depth id => guard.check (.come depth id)) depth id) := by
  induction depth generalizing id with
  | zero => exact fault _
  | succ depth induction =>
      have comes : Guards guard
          (Told.telling (fun _ => .come (depth + 1) id) (return ()) : Told Unit)
          (do guard.check (.come (depth + 1) id); watch) := by
        have checked : Guards guard _ (do guard.check (.come (depth + 1) id); return ()) :=
          checking _ _
        rw [bind_pure_unit] at checked
        exact checked.thenWatch
      have node (stmt : Stmt) : Guards guard (Lowering.tellNodeOf program finish _ id stmt) _ :=
        thenWatch (tellNodeOf induction id stmt)
      have guards := bind comes fun _ => bind (orFault (program.stmt? id) (.missingStmt id)) node
      rw [LawfulMonad.bind_assoc] at guards
      exact guards

theorem tellItems (guard : Guard) (options : Options) : Guards guard
    (tellItems program (finishFunction options) options.entryFunction)
    (lowerItemsGuarded guard program options) :=
  bind (plain (fun _ => .start options.entryFunction) _ fun _ _ => trivial) fun _ =>
    bind (forM (tellStmtWithin _) _) fun _ =>
    bind (plain (fun _ => .returnIfLive _) _ fun _ _ => trivial) fun _ =>
    checking (.finish options.entryFunction) _

end Statements

end Told.Guards

/-- What a guard asks for holds throughout the history, if no guarded run fails for want of it. -/
theorem passes_of_history {guard : Guard} {program : Program} {options : Options}
    (never : ∀ declared, declareAll program options = .ok declared →
      lowerItemsGuarded guard program options (.start (.ofModule declared)) ≠ .error guard.failure)
    {events later : List Event} (tells : history program options = events ++ later)
    (numbered : Numbered events) : ∀ event ∈ events, guard.Passes event.before event.task := by
  induction events using List.reverseRecOn generalizing later with
  | nil => exact List.forall_mem_nil _
  | append_singleton earlier event induction =>
      rw [List.append_assoc] at tells
      have passes := induction tells (numbered_append.mp numbered).1
      intro other member
      rcases List.mem_append.mp member with member | member
      · exact passes other member
      · cases List.mem_singleton.mp member
        have member : event ∈ history program options := by simp [tells]
        rcases exists_declared_of_mem_history member with ⟨declared, declares, told⟩
        rw [told] at tells
        by_contra stops
        exact never declared declares ((Told.Guards.tellItems guard options _).stops earlier event
          later tells numbered passes stops)

end ScriptLowering.Lowering
