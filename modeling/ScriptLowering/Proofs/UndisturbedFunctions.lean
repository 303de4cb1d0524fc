import ScriptLowering.Proofs.CursorLiveness
import ScriptLowering.Proofs.StringLiterals

/-! # Functions that are not disturbed

A function is lowered in the middle of another one. What has been built before is not disturbed by
this: the cursor comes back to where it has been, only functions that are declared inside are built,
and what has been added to the module or learnt about the program stays. This holds at every point
of every run, also of a run that fails later.
-/

namespace ScriptLowering.Lowering

open Source (Program ExprId ForInit FuncId FunctionDecl Stmt StmtId VarDecl VarId)
open Code (BlockId Operand Place Position)

variable {program : Program} {name : String} {first middle last session next : Session}

/-! ## What one step leaves alone -/

/-- Nothing that was there has changed, apart from the bodies of the functions that may be
`touched`. -/
structure Session.Undisturbed (touched : String → Prop) (session next : Session) : Prop where
  headings : session.cursor.module.SameHeadings next.cursor.module
  others : ∀ name, ¬ touched name →
    next.cursor.module.function? name = session.cursor.module.function? name
  globals : ∀ id global, session.cursor.module.global? id = some global →
    next.cursor.module.global? id = some global
  data : session.KeepsData next
  learnt : session.Retains next

namespace Session.Undisturbed

variable {touched more : String → Prop}

theorem refl (touched : String → Prop) (session : Session) : session.Undisturbed touched session :=
  ⟨.refl _, fun _ _ => rfl, fun _ _ => id, fun _ _ => id, .refl session⟩

theorem trans (early : first.Undisturbed touched middle) (late : middle.Undisturbed touched last) :
    first.Undisturbed touched last where
  headings := early.headings.trans late.headings
  others name apart := (late.others name apart).trans (early.others name apart)
  globals id global found := late.globals id global (early.globals id global found)
  data id object found := late.data id object (early.data id object found)
  learnt := early.learnt.trans late.learnt

theorem mono (undisturbed : session.Undisturbed touched next)
    (within : ∀ name, touched name → more name) : session.Undisturbed more next :=
  { undisturbed with others := fun name apart =>
      undisturbed.others name fun isTouched => apart (within name isTouched) }

end Session.Undisturbed

/-- Globals and data are numbered one after the other, and their numbers have not run out. -/
structure Session.Tallies (session : Session) : Prop where
  globals : session.Numbers
  data : session.Counts

/-- The body of one function may have changed, and nothing else of the module. -/
structure Session.Rebuilds (name : String) (session next : Session) : Prop where
  headings : session.cursor.module.SameHeadings next.cursor.module
  others : ∀ other, other ≠ name →
    next.cursor.module.function? other = session.cursor.module.function? other

theorem Session.Rebuilds.put (session : Session) (name : String) (place : Place) :
    session.Rebuilds name (session.put name place) where
  headings := by
    refine ⟨rfl, Table.keys_modify _ _ _, fun other => ?_⟩
    rw [Session.function?_put]
    split
    · cases session.cursor.module.function? other <;> rfl
    · rfl
  others other different := by
    rw [Session.function?_put, if_neg fun same => different same.symm]

theorem Session.Emits.rebuilds {node : Source.ExprNode} {value : Option Operand}
    (emits : session.Emits program node name value next) : session.Rebuilds name next := by
  cases emits with
  | @intro place after values builds operands emits same =>
      rw [same]
      cases node with
      | stringLiteral text =>
          have puts := Session.Rebuilds.put (session.addText text) name after
          exact ⟨⟨puts.headings.name, puts.headings.names, puts.headings.headings⟩, puts.others⟩
      | _ => exact .put session name after

theorem Task.Performs.rebuilds {task : Task} (performs : task.Performs program name session next) :
    session.Rebuilds name next := by
  cases performs with
  | start | create | test | enter | leave | jump | returnIfLive | finish => exact .put _ _ _
  | param | slot =>
      exact ⟨(Session.Rebuilds.put session name _).headings, (Session.Rebuilds.put session name _).others⟩
  | expr _ emits records =>
      have built := emits.rebuilds
      have same := (recordValue_eq_ok records).1
      refine ⟨?_, fun other different => ?_⟩
      · rw [same]
        exact built.headings
      · rw [same]
        exact built.others other different
  | @global _ decl _ initial _ place =>
      have puts (next : Place) := Session.Rebuilds.put (session.addGlobal decl initial) name next
      exact ⟨⟨rfl, (puts _).headings.names, (puts _).headings.headings⟩, (puts _).others⟩
  | loop | resume | come => exact ⟨.refl _, fun _ _ => rfl⟩

/-- What a step does about storage: it gives none, it reserves a slot of the function, or it adds the
global of a variable of the top level. -/
inductive Task.GivesStorage (program : Program) (task : Task) (session next : Session) : Prop
  | none (noGlobal : ∀ id decl, task = .var id → program.var? id = some decl → decl.scope = .local)
      (same : session.SameGlobals next)
  | slot {id : VarId} {temp : Code.TempId} {middle : Session} {annotations : Annotations}
      (noGlobal : ∀ id decl, task = .var id → program.var? id = some decl → decl.scope = .local)
      (same : session.SameGlobals middle)
      (sets : middle.annotations.setStorage id (.temp temp) = .ok annotations)
      (becomes : next = { middle with annotations := annotations })
  | global {id : VarId} {decl : VarDecl} {value : Option Operand} {initial : Code.Constant}
      {middle : Session} {annotations : Annotations} (declares : task = .var id)
      (found : program.var? id = some decl) (topLevel : decl.scope = .topLevel)
      (has : session.HasInitial decl value)
      (starts : globalInitial decl (isLiteralInitial program decl) value = .ok initial)
      (same : (session.addGlobal decl initial).SameGlobals middle)
      (sets : middle.annotations.setStorage id (.global ⟨session.cursor.module.nextGlobal⟩) =
        .ok annotations)
      (becomes : next = { middle with annotations := annotations })

theorem storage_of_recordValue {id : ExprId} {value : Option Operand}
    (records : recordValue id value session = .ok ((), next)) :
    next.annotations.storage = session.annotations.storage := by
  cases value with
  | none =>
      cases records
      rfl
  | some value =>
      simp only [recordValue, Lower.annotate, Annotations.setValue] at records
      split at records
      · rename_i sets
        cases records
        split at sets <;> cases sets
        rfl
      · cases records

theorem Session.Emits.sameGlobals {node : Source.ExprNode} {value : Option Operand}
    (emits : session.Emits program node name value next) : session.SameGlobals next := by
  cases emits with
  | intro _ _ _ puts =>
      rw [puts]
      cases node <;> exact ⟨rfl, rfl, rfl⟩

theorem Task.Performs.givesStorage {task : Task} (performs : task.Performs program name session next) :
    task.GivesStorage program session next := by
  have puts (place : Place) : session.SameGlobals (session.put name place) := ⟨rfl, rfl, rfl⟩
  cases performs with
  | start | create | test | enter | leave | jump | returnIfLive | finish =>
      exact .none (fun _ _ same => by cases same) (puts _)
  | param _ _ sets => exact .slot (fun _ _ same => by cases same) (puts _) sets rfl
  | expr _ emits records =>
      have same := emits.sameGlobals
      have learnt := (recordValue_eq_ok records).1
      refine .none (fun _ _ same => by cases same) ⟨(storage_of_recordValue records).trans same.storage, ?_, ?_⟩
      · rw [learnt]
        exact same.cursor.globals
      · rw [learnt]
        exact same.cursor.next
  | @global _ decl _ initial _ _ _ found _ topLevel has starts _ sets =>
      have same (after : Place) : (session.addGlobal decl initial).SameGlobals
          ((session.addGlobal decl initial).put name after) := ⟨rfl, rfl, rfl⟩
      exact .global rfl found topLevel has starts (same _) sets rfl
  | slot found _ isLocal _ _ sets =>
      refine .slot (fun other decl same known => ?_) (puts _) sets rfl
      cases same
      rw [found] at known
      cases known
      exact isLocal
  | loop _ sets =>
      refine .none (fun _ _ same => by cases same) ⟨?_, rfl, rfl⟩
      rcases Annotations.setLoop_eq_ok.mp sets with ⟨_, rfl⟩
      rfl
  | resume | come => exact .none (fun _ _ same => by cases same) ⟨rfl, rfl, rfl⟩

theorem Task.Performs.keepsGlobals {task : Task} (performs : task.Performs program name session next)
    (numbers : session.Numbers) : next.Numbers ∧
      ∀ id global, session.cursor.module.global? id = some global →
        next.cursor.module.global? id = some global := by
  cases performs.givesStorage with
  | none _ same =>
      refine ⟨numbers.same same, fun id global found => ?_⟩
      rw [Code.Module.global?, same.cursor.globals]
      exact found
  | slot _ same sets becomes =>
      subst becomes
      rcases numbers.same same with ⟨count, few, nextGlobal, below⟩
      refine ⟨⟨count, ?_, nextGlobal, below⟩, fun id global found => ?_⟩
      · exact Nat.le_trans few (Nat.le_of_lt (Nat.lt_of_lt_of_eq (Nat.lt_succ_self _)
          (size_of_setStorage sets).2.symm))
      · change Table.get? _ _ = _
        rw [same.cursor.globals]
        exact found
  | global _ _ _ _ _ same sets becomes =>
      subst becomes
      have free := (size_of_setStorage sets).1
      rw [same.storage] at free
      refine ⟨numbers.addGlobal same sets, fun id global found => ?_⟩
      change Table.get? _ _ = _
      rw [same.cursor.globals]
      exact (numbers.extends_addGlobal free _ _).globals id global found

theorem Task.Performs.undisturbed {task : Task} (performs : task.Performs program name session next)
    (tallies : session.Tallies) : session.Undisturbed (· = name) next ∧ next.Tallies := by
  have rebuilds := performs.rebuilds
  have globals := performs.keepsGlobals tallies.globals
  have data := performs.keepsCount tallies.data
  exact ⟨⟨rebuilds.headings, rebuilds.others, globals.2, data.keeps, performs.retains⟩,
    globals.1, data.counts⟩

/-! ## Journeys

What is told of a run, up to its end or up to its failure, leads from session to session. -/

/-- Steps that lead from one session to the other, each in one of the functions. -/
structure Journey (program : Program) (inside : String → Prop) (first : Session)
    (events : List Event) (last : Session) : Prop where
  path : Path program first events last
  works : ∀ event ∈ events, ∃ name, inside name ∧
    event.task.Performs program name event.before event.after

namespace Journey

variable {inside : String → Prop} {events more : List Event}

theorem nil (session : Session) : Journey program inside session [] session :=
  ⟨.nil, fun _ member => by cases member⟩

theorem single {task : Task} (isInside : inside name)
    (performs : task.Performs program name first last) :
    Journey program inside first [⟨task, first, last⟩] last := by
  refine ⟨.single performs, fun event member => ?_⟩
  cases List.mem_singleton.mp member
  exact ⟨name, isInside, performs⟩

theorem append (early : Journey program inside first events middle)
    (late : Journey program inside middle more last) :
    Journey program inside first (events ++ more) last :=
  ⟨early.path.append late.path, fun event member =>
    (List.mem_append.mp member).elim (early.works event) (late.works event)⟩

theorem undisturbed (journey : Journey program inside first events last)
    (tallies : first.Tallies) : first.Undisturbed inside last ∧ last.Tallies := by
  rcases journey with ⟨path, works⟩
  induction path with
  | nil => exact ⟨.refl inside _, tallies⟩
  | @cons _ event events last _ _ induction =>
      rcases works event List.mem_cons_self with ⟨name, isInside, performs⟩
      have step := performs.undisturbed tallies
      have rest := induction step.2 fun other member => works other (List.mem_cons_of_mem _ member)
      refine ⟨(step.1.mono ?_).trans rest.1, rest.2⟩
      rintro _ rfl
      exact isInside

theorem tallies_of_mem (journey : Journey program inside first events last)
    (tallies : first.Tallies) {event : Event} (member : event ∈ events) :
    event.before.Tallies ∧ event.after.Tallies := by
  rcases journey.path.exists_of_mem member with ⟨name, early, late, rfl, leads, performs, _⟩
  have begins : Journey program inside first early event.before :=
    ⟨leads, fun other isEarly => journey.works other (List.mem_append_left _ isEarly)⟩
  have before := (begins.undisturbed tallies).2
  exact ⟨before, (performs.undisturbed before).2⟩

end Journey

theorem Task.Performs.name_eq {task : Task} {here : String} {place : Place}
    (performs : task.Performs program name session next) (builds : session.Builds here place)
    (opens : ∀ function, task ≠ .start function) : name = here := by
  cases performs with
  | start => exact absurd rfl (opens _)
  | expr _ emits _ =>
      cases emits with
      | intro stands => exact stands.name_unique builds
  | param _ stands | slot _ _ _ _ stands | global _ _ _ _ _ stands | create stands | loop stands
  | test stands | enter stands | leave stands | jump stands | returnIfLive stands | finish stands
  | resume stands | come stands => exact stands.name_unique builds

theorem Codes.journey {inside : String → Prop} {events : List Event} {place : Place}
    (codes : Codes program name first events last) (builds : first.Builds name place)
    (isInside : inside name) : Journey program inside first events last := by
  refine ⟨codes.path, ?_⟩
  have tasks := codes.tasks
  have path := codes.path
  clear codes
  induction path generalizing place with
  | nil => exact fun _ member => by cases member
  | @cons here event events last performs rest induction =>
      rcases tasks event List.mem_cons_self with ⟨id, isExpr⟩
      have own : here = name := performs.name_eq builds fun _ same => by rw [isExpr] at same; cases same
      subst own
      rcases performs.stands (fun _ same => by rw [isExpr] at same; cases same) with ⟨after, stands⟩
      have later := induction stands fun other member => tasks other (List.mem_cons_of_mem _ member)
      intro other member
      rcases List.mem_cons.mp member with rfl | isLater
      · exact ⟨here, isInside, performs⟩
      · exact later other isLater

/-! ## Telling, with or without success -/

/-- What is told from the session on is a journey inside the functions, and if it comes to its end,
something holds there. -/
def Told.Leads {α : Type} (program : Program) (inside : String → Prop) (told : Told α)
    (session : Session) (post : α → Session → Prop) : Prop :=
  ∃ last, Journey program inside session (told session).1 last ∧
    ∀ value next, (told session).2 = .ok (value, next) → next = last ∧ post value next

namespace Told.Leads

variable {α β : Type} {inside : String → Prop} {told : Told α} {post : α → Session → Prop}
  {final : β → Session → Prop}

theorem pure {value : α} (holds : post value session) :
    (Pure.pure value : Told α).Leads program inside session post := by
  refine ⟨session, .nil session, fun result next same => ?_⟩
  cases same
  exact ⟨rfl, holds⟩

theorem bind {rest : α → Told β} (leads : told.Leads program inside session post)
    (goesOn : ∀ value next, post value next → (rest value).Leads program inside next final) :
    (told >>= rest).Leads program inside session final := by
  rcases leads with ⟨last, journey, ends⟩
  change ∃ last, Journey program inside session (Told.bind told rest session).1 last ∧
    ∀ value next, (Told.bind told rest session).2 = .ok (value, next) → next = last ∧ final value next
  unfold Told.bind
  rcases result : told session with ⟨events, error | ⟨value, next⟩⟩
  · rw [result] at journey
    exact ⟨last, journey, nofun⟩
  · rw [result] at journey ends
    rcases ends value next rfl with ⟨rfl, holds⟩
    rcases goesOn value next holds with ⟨final, further, endsOn⟩
    exact ⟨final, journey.append further, endsOn⟩

theorem and (leads : told.Leads program inside session post) {also : α → Session → Prop}
    (ensures : told.Ensures session fun _ => also) :
    told.Leads program inside session fun value next => post value next ∧ also value next := by
  rcases leads with ⟨last, journey, ends⟩
  exact ⟨last, journey, fun value next same => ⟨(ends value next same).1, (ends value next same).2,
    ensures _ value next (Prod.ext rfl same)⟩⟩

theorem fault (fault : ProgramFault) :
    (Told.asking (Lower.fault fault : Lower α)).Leads program inside session post :=
  ⟨session, .nil session, nofun⟩

theorem orFault_bind {found : Option α} {fault : ProgramFault} {rest : α → Told β}
    (present : ∀ value, found = some value → (rest value).Leads program inside session final) :
    (Told.asking (Lower.orFault found fault) >>= rest).Leads program inside session final := by
  cases found with
  | none => exact ⟨session, .nil session, nofun⟩
  | some value => exact present value rfl

theorem cursor_bind {rest : Code.Cursor → Told β}
    (leads : (rest session.cursor).Leads program inside session final) :
    (Told.asking Lower.cursor >>= rest).Leads program inside session final := leads

theorem telling {task : α → Task} {step : Lower α} (isInside : inside name)
    (performs : step.Ensures session
      (fun value next => (task value).Performs program name session next ∧ post value next)
      fun _ => True) : (Told.telling task step).Leads program inside session post := by
  unfold Told.Leads Told.telling
  cases result : step session with
  | error error => exact ⟨session, .nil session, nofun⟩
  | ok pair =>
      rcases performs.post_of_ok result with ⟨performs, holds⟩
      refine ⟨pair.2, .single isInside performs, fun value next same => ?_⟩
      cases same
      exact ⟨rfl, holds⟩

theorem tellingStay {task : α → Task} {step : Lower α} (isInside : inside name)
    (stays : ∀ value position, task value ≠ .resume position)
    (performs : step.Ensures session
      (fun value next => (task value).Performs program name session next) fun _ => True) :
    (Told.telling task step).Leads program inside session
      fun _ next => ∃ after, next.Builds name after :=
  .telling isInside (performs.mono fun value _ performs => ⟨performs, performs.stands (stays value)⟩)

end Told.Leads

/-- Wherever the cursor stands inside the functions, what is told leads back into the same one. -/
def Told.Travels {α : Type} (program : Program) (inside : String → Prop) (told : Told α) : Prop :=
  ∀ (name : String) (session : Session) (place : Place), inside name → session.Builds name place →
    told.Leads program inside session fun _ next => ∃ after, next.Builds name after

namespace Told.Travels

variable {α β ι : Type} {inside : String → Prop} {told : Told α}

theorem pure (value : α) : (Pure.pure value : Told α).Travels program inside :=
  fun _ _ place _ builds => .pure ⟨place, builds⟩

theorem bind {rest : α → Told β} (travels : told.Travels program inside)
    (goesOn : ∀ value, (rest value).Travels program inside) :
    (told >>= rest).Travels program inside :=
  fun name session place isInside builds => (travels name session place isInside builds).bind
    fun value next stands => stands.elim fun after builds =>
      goesOn value name next after isInside builds

theorem orFault (found : Option α) (fault : ProgramFault) :
    (Told.asking (Lower.orFault found fault)).Travels program inside := by
  cases found with
  | none => exact fun _ _ _ _ _ => .fault fault
  | some value => exact pure value

theorem telling {task : α → Task} {step : Lower α} (stays : ∀ value position, task value ≠ .resume position)
    (performs : ∀ name session place, Session.Builds session name place → step.Ensures session
      (fun value next => (task value).Performs program name session next) fun _ => True) :
    (Told.telling task step).Travels program inside :=
  fun name session place isInside builds =>
    .tellingStay isInside stays (performs name session place builds)

theorem forM {items : List ι} {body : ι → Told Unit}
    (travels : ∀ item ∈ items, (body item).Travels program inside) :
    (items.forM body).Travels program inside := by
  induction items with
  | nil => exact pure ()
  | cons item rest induction =>
      exact bind (travels item List.mem_cons_self) fun _ =>
        induction fun other member => travels other (List.mem_cons_of_mem _ member)

/-! ### Expressions -/

theorem tellExpr (id : ExprId) : (tellExpr program id).Travels program inside := by
  intro name session place isInside builds
  cases result : Lowering.tellExpr program id session with
  | mk events outcome =>
      unfold Told.Leads
      rw [result]
      cases outcome with
      | error error =>
          have nothing : events = [] := by
            unfold Lowering.tellExpr exprDepth at result
            simp only [tellExprWithin] at result
            split at result
            · exact (congrArg Prod.fst result).symm
            · cases result
          subst nothing
          refine ⟨session, .nil session, ?_⟩
          rintro _ _ ⟨⟩
      | ok pair =>
          have codes := (tellExprWithin_codes _ id builds events pair.1 pair.2 result).1
          refine ⟨pair.2, codes.journey builds isInside, ?_⟩
          rintro _ _ ⟨⟩
          exact ⟨rfl, codes.stands⟩

theorem tellValue (id : ExprId) : (tellValue program id).Travels program inside :=
  bind (tellExpr id) fun _ => orFault _ _

theorem tellEffect (id : ExprId) : (tellEffect program id).Travels program inside :=
  bind (tellExpr id) fun _ => pure ()

theorem tellExprs (ids : List ExprId) : (tellExprs program ids).Travels program inside :=
  forM fun id _ => tellEffect id

/-! ### Blocks -/

theorem tellCreate (id : StmtId) (label : String) : (tellCreate id label).Travels program inside :=
  telling nofun fun _ _ _ builds => .of_ok (createBlock_eq builds label) (.create builds)

theorem tellLoop (id : StmtId) (blocks : LoopBlocks) : (tellLoop id blocks).Travels program inside :=
  telling nofun fun _ _ _ builds => .of_bind_pure (.annotate_bind (fun _ _ => trivial)
    fun _ sets => .pure (.loop builds sets))

theorem tellTest (id : StmtId) (value : Operand) (thenBlock elseBlock : BlockId) :
    (tellTest id value thenBlock elseBlock).Travels program inside :=
  telling nofun fun _ _ _ builds => .of_ok (append_terminate_eq builds _) (.test builds)

theorem tellEnter (id : StmtId) (block : BlockId) (closing : Bool) :
    (tellEnter id block closing).Travels program inside :=
  telling nofun fun _ _ _ builds => (Lower.Ensures.self _ _).mono fun _ _ runs => .of_enter builds runs

theorem tellLeave (id : StmtId) (target : BlockId) : (tellLeave id target).Travels program inside :=
  telling nofun fun _ _ _ builds => .of_ok (leaveTo_eq builds _) (.leave builds)

/-! ### Statements -/

theorem tellInitial (decl : VarDecl) : (tellInitial program decl).Travels program inside := by
  unfold Lowering.tellInitial
  cases decl.initial with
  | none => exact pure none
  | some expr => exact bind (tellValue expr) fun value => pure (some value)

theorem tellVarDecl (id : VarId) : (tellVarDecl program id).Travels program inside := by
  intro name session place isInside builds
  refine .orFault_bind fun decl found => ?_
  split
  · exact .fault _
  · rename_i notVoid
    refine ((tellInitial decl name session place isInside builds).and
      ((tellInitial_codes decl builds).mono fun _ _ _ => And.right)).bind fun value next facts => ?_
    rcases facts with ⟨⟨after, stands⟩, has⟩
    refine .tellingStay isInside (fun _ _ same => by cases same) ?_
    cases scope : decl.scope with
    | topLevel => exact performs_lowerGlobal found notVoid scope has stands
    | «local» => exact performs_lowerLocal found notVoid scope has stands

theorem tellReturn {id : StmtId} {result : Option ExprId}
    (known : program.stmt? id = some (.returnValue result)) :
    (tellReturn program id result).Travels program inside := by
  have returns (value : Option Operand) (name : String) (session : Session) (isInside : inside name)
      (stands : ∃ place, session.Builds name place)
      (recorded : result.toList.map session.annotations.value? = value.toList.map some) :
      (Told.telling (fun _ => .jump id) (Lower.append fun cursor => cursor.ret value)).Leads
        program inside session fun _ next => ∃ after, next.Builds name after := by
    rcases stands with ⟨place, builds⟩
    refine .telling isInside (.of_ok (append_terminate_eq builds _)
      ⟨.jump builds ?_, _, builds.put _⟩)
    rw [Session.JumpsBy, known]
    exact ⟨value, rfl, recorded⟩
  intro name session place isInside builds
  cases result with
  | none => exact returns none name session isInside ⟨place, builds⟩ rfl
  | some expr =>
      refine ((tellValue expr name session place isInside builds).and
        ((tellValue_codes expr builds).mono fun _ _ _ => And.right)).bind fun value next facts => ?_
      exact returns (some value) name next isInside facts.1 (congrArg (fun known => [known]) facts.2)

theorem tellJump {id target : StmtId} {terminator : LoopBlocks → Code.Terminator}
    (means : ∀ (session : Session) (blocks : LoopBlocks),
      session.annotations.loopOf target = .ok blocks → session.JumpsBy program id (terminator blocks)) :
    (Told.telling (fun _ => .jump id) (do
      let blocks ← Lower.consult fun annotations => annotations.loopOf target
      Lower.append fun cursor => cursor.terminate (terminator blocks))).Travels program inside :=
  telling nofun fun _ session _ builds => .consult_bind (fun _ _ => trivial) fun blocks found =>
    .of_ok (append_terminate_eq builds _) (.jump builds (means session blocks found))

section Parts

variable {tell : StmtId → Told Unit}

theorem tellIf (id : StmtId) (condition : ExprId) {thenBody : StmtId} {elseBody : Option StmtId}
    (travels : ∀ child ∈ thenBody :: elseBody.toList, (tell child).Travels program inside) :
    (tellIf program tell id condition thenBody elseBody).Travels program inside := by
  have inThen := travels thenBody List.mem_cons_self
  refine bind (tellValue _) fun value => bind (tellCreate _ _) fun thenBlock =>
    bind (tellCreate _ _) fun endBlock => ?_
  cases elseBody with
  | none =>
      exact bind (tellTest _ _ _ _) fun _ => bind (tellEnter _ _ _) fun _ => bind inThen fun _ =>
        bind (tellLeave _ _) fun _ => tellEnter _ _ _
  | some elseBody =>
      have inElse := travels elseBody (by simp)
      exact bind (tellCreate _ _) fun elseBlock => bind (tellTest _ _ _ _) fun _ =>
        bind (tellEnter _ _ _) fun _ => bind inThen fun _ => bind (tellLeave _ _) fun _ =>
        bind (tellEnter _ _ _) fun _ => bind inElse fun _ => bind (tellLeave _ _) fun _ =>
        tellEnter _ _ _

theorem tellWhile (id : StmtId) (condition : ExprId) {body : StmtId}
    (travels : (tell body).Travels program inside) :
    (tellWhile program tell id condition body).Travels program inside :=
  bind (tellCreate _ _) fun _ => bind (tellCreate _ _) fun _ => bind (tellCreate _ _) fun _ =>
    bind (tellLoop _ _) fun _ => bind (tellEnter _ _ _) fun _ => bind (tellValue _) fun _ =>
    bind (tellTest _ _ _ _) fun _ => bind (tellEnter _ _ _) fun _ => bind travels fun _ =>
    bind (tellLeave _ _) fun _ => tellEnter _ _ _

theorem tellForInit {initial : ForInit}
    (travels : ∀ stmt, initial = .decl stmt → (tell stmt).Travels program inside) :
    (tellForInit program tell initial).Travels program inside := by
  cases initial with
  | decl stmt => exact travels stmt rfl
  | exprs exprs => exact tellExprs exprs

theorem tellUpdateBlock (id : StmtId) (updates : List ExprId) :
    (tellUpdateBlock id updates).Travels program inside := by
  unfold Lowering.tellUpdateBlock
  split
  · exact pure none
  · exact bind (tellCreate _ _) fun block => pure (some block)

theorem tellForCondition (id : StmtId) (endBlock : BlockId) (condition : Option ExprId) :
    (tellForCondition program id endBlock condition).Travels program inside := by
  cases condition with
  | none => exact pure ()
  | some condition =>
      exact bind (tellCreate _ _) fun _ => bind (tellValue _) fun _ =>
        bind (tellTest _ _ _ _) fun _ => tellEnter _ _ _

theorem tellForUpdates (id : StmtId) (updates : List ExprId) (block : Option BlockId) :
    (tellForUpdates program id updates block).Travels program inside := by
  cases block with
  | none => exact pure ()
  | some block => exact bind (tellEnter _ _ _) fun _ => tellExprs updates

theorem tellFor (id : StmtId) {initial : ForInit} (condition : Option ExprId)
    (updates : List ExprId) {body : StmtId}
    (travelsInit : ∀ stmt, initial = .decl stmt → (tell stmt).Travels program inside)
    (travels : (tell body).Travels program inside) :
    (tellFor program tell id initial condition updates body).Travels program inside :=
  bind (tellForInit travelsInit) fun _ => bind (tellCreate _ _) fun _ =>
    bind (tellCreate _ _) fun _ => bind (tellEnter _ _ _) fun _ =>
    bind (tellUpdateBlock _ _) fun _ => bind (tellLoop _ _) fun _ =>
    bind (tellForCondition _ _ _) fun _ => bind travels fun _ =>
    bind (tellForUpdates _ _ _) fun _ => bind (tellLeave _ _) fun _ => tellEnter _ _ _

theorem leads_start (isInside : inside name) (session : Session) :
    (Told.telling (fun _ => .start name) (openFunction name)).Leads program inside session
      fun _ next => ∃ after, next.Builds name after :=
  .tellingStay isInside nofun (performs_openFunction session name)

variable {finish : String → Lower Unit} (finishes : Finishes finish)

include finishes

theorem leads_finish (isInside : inside name) (stands : ∃ place, session.Builds name place) :
    (Told.telling (fun _ => .finish name) (finish name)).Leads program inside session
      fun _ next => ∃ after, next.Builds name after := by
  rcases stands with ⟨place, builds⟩
  refine .telling isInside ((finishes name session place builds).mono fun _ next same => ?_)
  subst same
  exact ⟨.finish builds, _, builds.put _⟩

theorem leads_tellFunctionBody {decl : FunctionDecl} (isInside : inside decl.name)
    (travels : (tell decl.body).Travels program inside)
    (stands : ∃ place, session.Builds decl.name place) :
    (tellFunctionBody program finish tell decl).Leads program inside session fun _ next =>
      ∃ after, next.Builds decl.name after := by
  have params : (decl.params.zipIdx.forM fun pair => Told.telling (fun _ => .param pair.1 pair.2)
      (lowerParam program pair.1 pair.2)).Travels program inside :=
    forM fun pair _ => telling nofun fun _ _ _ builds => performs_lowerParam builds pair.1 pair.2
  have returns : (Told.telling (fun _ => .returnIfLive none) (returnIfLive none)).Travels program
      inside :=
    telling nofun fun _ _ _ builds => .of_ok (returnIfLive_eq builds none) (.returnIfLive builds)
  rcases stands with ⟨place, builds⟩
  refine .bind (params _ _ _ isInside builds) fun _ next stands => ?_
  rcases stands with ⟨place, builds⟩
  refine .bind (travels _ _ _ isInside builds) fun _ next stands => ?_
  split
  · rcases stands with ⟨place, builds⟩
    exact .bind (returns _ _ _ isInside builds) fun _ _ stands => leads_finish finishes isInside stands
  · exact leads_finish finishes isInside stands

theorem leads_tellFunctionDecl {func : FuncId}
    (isInside : ∀ decl, program.function? func = some decl →
      inside decl.name ∧ (tell decl.body).Travels program inside) (session : Session) :
    (tellFunctionDecl program finish tell func).Leads program inside session fun _ next =>
      next.cursor.position = session.cursor.position := by
  refine .orFault_bind fun decl found => .cursor_bind ?_
  rcases isInside decl found with ⟨isInside, travels⟩
  refine (leads_start isInside session).bind fun _ opened stands => ?_
  refine (leads_tellFunctionBody finishes isInside travels stands).bind fun _ closed stands => ?_
  rcases stands with ⟨place, builds⟩
  exact .telling isInside (.of_ok rfl ⟨.resume builds, rfl⟩)

theorem tellFunctionDecl {func : FuncId}
    (isInside : ∀ decl, program.function? func = some decl →
      inside decl.name ∧ (tell decl.body).Travels program inside) :
    (tellFunctionDecl program finish tell func).Travels program inside := by
  intro name session place _ builds
  rcases leads_tellFunctionDecl finishes isInside session with ⟨last, journey, ends⟩
  refine ⟨last, journey, fun value next same => ⟨(ends value next same).1, ?_⟩⟩
  rcases ends value next same with ⟨rfl, position⟩
  have signature := journey.path.retains.signatures name
  rcases builds.body with ⟨function, found, _⟩
  rw [found] at signature
  rcases Option.map_eq_some_iff.mp signature with ⟨later, foundLater, _⟩
  exact ⟨⟨later.body, place.block⟩, position.trans builds.position, later, foundLater, rfl⟩

theorem tellNodeOf {id : StmtId} {stmt : Stmt} (known : program.stmt? id = some stmt)
    (names : ∀ func decl, stmt = .functionDecl func → program.function? func = some decl →
      inside decl.name)
    (travels : ∀ child ∈ children program stmt, (tell child).Travels program inside) :
    (tellNodeOf program finish tell id stmt).Travels program inside := by
  cases stmt with
  | expr expr => exact tellEffect expr
  | compound stmts => exact forM travels
  | varDecl vars => exact forM fun var _ => tellVarDecl var
  | functionDecl func =>
      refine tellFunctionDecl finishes fun decl found => ⟨names func decl rfl found, ?_⟩
      exact travels decl.body (by simp [children, found])
  | ifThenElse condition thenBody elseBody => exact tellIf id condition travels
  | whileLoop condition body => exact tellWhile id condition (travels body List.mem_cons_self)
  | forLoop initial condition updates body =>
      refine tellFor id condition updates (fun stmt isDecl => ?_) (travels body ?_)
      · subst isDecl
        exact travels stmt List.mem_cons_self
      · cases initial <;> simp [children]
  | continueLoop target =>
      refine tellJump fun session blocks found => ?_
      rw [Session.JumpsBy, known]
      exact ⟨blocks, found, rfl⟩
  | breakLoop target =>
      refine tellJump fun session blocks found => ?_
      rw [Session.JumpsBy, known]
      exact ⟨blocks, found, rfl⟩
  | returnValue result => exact tellReturn known

end Parts

/-- A statement is told inside the function it stands in and the functions that it declares. -/
theorem tellStmtWithin {finish : String → Lower Unit} (finishes : Finishes finish) (depth : Nat)
    {id : StmtId} (contains : ∀ name, Contains program name id → inside name) :
    (tellStmtWithin program finish depth id).Travels program inside := by
  induction depth generalizing id with
  | zero => exact fun _ session _ _ _ => .fault _
  | succ depth induction =>
      intro name session place isInside builds
      have comes : (Told.telling (fun _ => .come (depth + 1) id) (return ())).Travels program inside :=
        telling nofun fun _ _ _ builds => .pure (.come builds)
      refine (comes name session place isInside builds).bind fun _ session stands => ?_
      rcases stands with ⟨place, builds⟩
      refine .orFault_bind fun stmt known => ?_
      refine tellNodeOf finishes known (fun func decl isDecl found => ?_) (fun child member => ?_)
        name session place isInside builds
      · subst isDecl
        exact contains decl.name (.declares known found rfl)
      · exact induction fun other inner => contains other (.inside known member inner)

end Told.Travels

/-! ## Runs -/

/-- The history of any run is a journey, whether the run comes to its end or fails. -/
theorem history_journey {options : Options} {declared : Code.Module}
    (declares : declareAll program options = .ok declared) :
    ∃ last, Journey program (fun _ => True) (.start (.ofModule declared)) (history program options)
      last := by
  have finishes := finishes_finishFunction options
  let anywhere (_ : String) : Prop := True
  have isInside : anywhere options.entryFunction := trivial
  have items : (program.items.forM (tellStmtWithin program (finishFunction options)
      (stmtDepth program))).Travels program anywhere :=
    .forM fun item _ => .tellStmtWithin finishes _ fun _ _ => trivial
  have returns : (Told.telling (fun _ => .returnIfLive (some (.ofInt64 0)))
      (returnIfLive (some (.ofInt64 0)))).Travels program anywhere :=
    .telling nofun fun _ _ _ builds => .of_ok (returnIfLive_eq builds _) (.returnIfLive builds)
  have leads : (tellItems program (finishFunction options) options.entryFunction).Leads program
      anywhere (.start (.ofModule declared)) fun _ next =>
        ∃ after, next.Builds options.entryFunction after := by
    refine (Told.Travels.leads_start isInside _).bind fun _ opened stands => ?_
    rcases stands with ⟨place, builds⟩
    refine (items _ _ _ isInside builds).bind fun _ next stands => ?_
    rcases stands with ⟨place, builds⟩
    refine (returns _ _ _ isInside builds).bind fun _ next stands => ?_
    exact Told.Travels.leads_finish finishes isInside stands
  rcases leads with ⟨last, journey, _⟩
  refine ⟨last, ?_⟩
  rw [history, declares]
  exact journey

/-- Lowering has come to the session, before or behind one of its steps. -/
def Reached (program : Program) (options : Options) (session : Session) : Prop :=
  ∃ event ∈ history program options, session = event.before ∨ session = event.after

theorem Reached.tallies {options : Options} (reached : Reached program options session) :
    session.Tallies := by
  rcases reached with ⟨event, member, isHere⟩
  rcases exists_declared_of_mem_history member with ⟨declared, declares, _⟩
  have counts := counts_entrySession (declared_of_declareAll declares)
  have begins : (Session.start (.ofModule declared)).Tallies :=
    ⟨(closed_start declares).2, counts.next, counts.below, counts.few⟩
  rcases history_journey declares with ⟨last, journey⟩
  have tallies := journey.tallies_of_mem begins member
  rcases isHere with rfl | rfl
  · exact tallies.1
  · exact tallies.2

/-- The function and those that are declared inside it. -/
def Concerns (program : Program) (decl : FunctionDecl) (name : String) : Prop :=
  name = decl.name ∨ Contains program name decl.body

/-- Wherever a run has come to, a function is lowered without disturbing what is there: the cursor
comes back, and nothing else has changed but the function and those that are declared inside it. -/
theorem lowering_function_disturbs_nothing {options : Options}
    (reached : Reached program options session) {depth : Nat} {func : FuncId}
    (lowers : lowerFunctionDecl program (finishFunction options)
      (lowerStmtWithin program (finishFunction options) depth) func session = .ok ((), next)) :
    next.cursor.position = session.cursor.position ∧
      ∃ decl, program.function? func = some decl ∧
        session.Undisturbed (Concerns program decl) next := by
  have finishes := finishes_finishFunction options
  rcases Lower.bind_eq_ok.mp lowers with ⟨decl, _, looks, _⟩
  have known : program.function? func = some decl := by
    cases found : program.function? func with
    | none =>
        rw [found] at looks
        cases looks
    | some decl =>
        rw [found] at looks
        cases looks
        rfl
  have leads : (tellFunctionDecl program (finishFunction options)
      (tellStmtWithin program (finishFunction options) depth) func).Leads program
        (Concerns program decl) session fun _ next =>
          next.cursor.position = session.cursor.position := by
    refine Told.Travels.leads_tellFunctionDecl finishes (fun other found => ?_) session
    rw [known] at found
    cases found
    exact ⟨.inl rfl, .tellStmtWithin finishes depth fun _ => .inr⟩
  rcases leads with ⟨last, journey, ends⟩
  have tells : (tellFunctionDecl program (finishFunction options)
      (tellStmtWithin program (finishFunction options) depth) func).step session = .ok ((), next) := by
    rw [step_tellFunctionDecl, step_tellStmtWithin]
    exact lowers
  rcases ends () next tells with ⟨rfl, position⟩
  exact ⟨position, decl, known, (journey.undisturbed reached.tallies).1⟩

/-- A function is declared behind a variable, and another one inside it. -/
def tuckedProgram : Program where
  filename := "tucked"
  items := [⟨0⟩, ⟨1⟩]
  stmts := #[.varDecl [⟨0⟩], .functionDecl ⟨0⟩, .compound [⟨3⟩, ⟨4⟩], .functionDecl ⟨1⟩, .expr ⟨0⟩,
    .compound []]
  exprs := #[⟨.stringLiteral "text", .string⟩, ⟨.integerLiteral 1, .integer⟩]
  vars := #[⟨"count", .integer, some ⟨1⟩, .topLevel, .ordinary⟩]
  functions := #[⟨"outer", [], none, ⟨2⟩⟩, ⟨"inner", [], none, ⟨5⟩⟩]

def lowerOuter : Lower Unit :=
  lowerFunctionDecl tuckedProgram (finishFunction .default)
    (lowerStmtWithin tuckedProgram (finishFunction .default) 20) ⟨0⟩

theorem tucked_not_concerns : ¬ Concerns tuckedProgram ⟨"outer", [], none, ⟨2⟩⟩ "main" := by
  have names : ∀ decl ∈ tuckedProgram.functions, decl.name ≠ "main" := by decide
  rintro (same | contains)
  · exact absurd same (by decide)
  · rcases contains.declared with ⟨func, decl, known, named⟩
    exact names decl (Array.mem_of_getElem? known) named

/-- The function `outer` is lowered behind the declaration of the variable: the entry function stays
as it is, and the global is still there. -/
theorem tucked_disturbs_nothing : ∃ session next, Reached tuckedProgram .default session ∧
    lowerOuter session = .ok ((), next) ∧
    next.cursor.position = session.cursor.position ∧
    next.cursor.module.function? "main" = session.cursor.module.function? "main" ∧
    session.cursor.module.globals.size = 1 ∧
    ∀ id global, session.cursor.module.global? id = some global →
      next.cursor.module.global? id = some global := by
  have length : 3 < (history tuckedProgram .default).length := by decide +kernel
  have succeeds : (lowerOuter (history tuckedProgram .default)[3].after).toBool = true ∧
      (history tuckedProgram .default)[3].after.cursor.module.globals.size = 1 := by
    decide +kernel +revert
  have lowers := Lower.last_eq succeeds.1
  have reached : Reached tuckedProgram .default (history tuckedProgram .default)[3].after :=
    ⟨_, List.getElem_mem length, .inr rfl⟩
  rcases lowering_function_disturbs_nothing reached lowers with ⟨position, decl, known, undisturbed⟩
  cases known
  exact ⟨_, _, reached, lowers, position, undisturbed.others "main" tucked_not_concerns, succeeds.2,
    undisturbed.globals⟩

end ScriptLowering.Lowering
