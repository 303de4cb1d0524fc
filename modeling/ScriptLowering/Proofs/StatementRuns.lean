import ScriptLowering.Proofs.LeavingStatements

/-! # Running statements

The machine follows the evaluation of a statement from the place at which the statement has been
lowered, also through loops, which may go on for as long as there is fuel.
-/

namespace ScriptLowering.Lowering

open Source (Program ExprId Stmt StmtId VarId VarDecl FunctionDecl Datum Store Eval Flow Library
  Follows)
open Code (BlockId Frame Function GlobalId Module Operand Place State Step Takes Value)

section Values

variable {program : Program} {final : Session} {library : Library}
  {call : FunctionDecl → List Datum → Eval (Option Datum)} {fuel below : Nat} {locals : List VarId}
  {function : Function} {callers : List Frame} {frame : Frame} {memory : GlobalId → Option Value}
  {serial : Nat} {store : Store} {place after : Place}

/-! ## Values -/

theorem follows_value (linked : Linked program final)
    (calls : CallsFollow program final library call below) (enough : fuel ≤ below + 1)
    {id : ExprId} {operand : Operand} {ty : Source.Ty}
    (lowers : LowersExpr program final id place (some operand) after)
    (typed : ExprTyped program (HasFunction program) locals id ty)
    (lasts : after.Lasts function.body)
    (hosted : Hosted final function frame) (stands : frame.Stands place)
    (agrees : Matches program final locals place.body.temps.size store frame memory) :
    Follows final.cursor.module library (Source.evalValue program library call id store) fuel
      ⟨frame :: callers, memory, serial⟩ fun datum last state =>
        ∃ next, Runs program final locals callers place after frame last state next ∧
          Denotes final.cursor.module next after.body.temps.size operand datum ∧
          datum.hasType ty = true := by
  refine (follows_expr linked calls enough lowers typed lasts hosted stands agrees).bind
    fun value last state computed => ?_
  rcases computed with ⟨next, runs, yields⟩
  cases yields with
  | something denotes valueTyped => exact .pure ⟨next, runs, denotes, valueTyped⟩

theorem follows_condition (linked : Linked program final)
    (calls : CallsFollow program final library call below) (enough : fuel ≤ below + 1)
    {id : ExprId} {operand : Operand}
    (lowers : LowersExpr program final id place (some operand) after)
    (typed : ExprTyped program (HasFunction program) locals id .boolean)
    (lasts : after.Lasts function.body)
    (hosted : Hosted final function frame) (stands : frame.Stands place)
    (agrees : Matches program final locals place.body.temps.size store frame memory) :
    Follows final.cursor.module library (Source.evalCondition program library call id store) fuel
      ⟨frame :: callers, memory, serial⟩ fun truth last state =>
        ∃ next, Runs program final locals callers place after frame last state next ∧
          next.operand final.cursor.module operand = .ok (.bool truth) := by
  refine (follows_value linked calls enough lowers typed lasts hosted stands agrees).bind
    fun datum last state computed => ?_
  rcases computed with ⟨next, runs, denotes, datumTyped⟩
  rcases eq_truth_of_hasType datumTyped with ⟨truth, rfl⟩
  exact .pure ⟨next, runs, denotes.value⟩

theorem follows_each (linked : Linked program final)
    (calls : CallsFollow program final library call below) (enough : fuel ≤ below + 1)
    {ids : List ExprId} (lowers : LowersEach program final ids place after)
    (typed : ∀ id ∈ ids, ∃ ty, ExprTyped program (HasFunction program) locals id ty)
    (regular : after.Regular)
    (lasts : after.Lasts function.body) (hosted : Hosted final function frame)
    (stands : frame.Stands place)
    (agrees : Matches program final locals place.body.temps.size store frame memory) :
    Follows final.cursor.module library (Source.evalEach program library call ids store) fuel
      ⟨frame :: callers, memory, serial⟩ fun _ last state =>
        ∃ next, Runs program final locals callers place after frame last state next := by
  induction lowers generalizing frame memory serial store with
  | nil => exact .pure ⟨frame, rfl, stands, agrees, .refl _ _⟩
  | @cons id ids _ _ _ _ computes rest induction =>
      rcases typed id (by simp) with ⟨ty, headTyped⟩
      have tailTyped : ∀ other ∈ ids, ∃ ty,
          ExprTyped program (HasFunction program) locals other ty :=
        fun other member => typed other (List.mem_cons_of_mem _ member)
      have splits : Source.evalEach program library call (id :: ids) =
          Source.evalExpr program library call id >>= fun _ =>
            Source.evalEach program library call ids := by
        simp [Source.evalEach, List.forM_cons]
      rw [splits]
      refine (follows_expr linked calls enough computes headTyped
        (lasts.of_within (rest.regular regular) rest.within) hosted stands agrees).bind
          fun _ between state computed => ?_
      rcases computed with ⟨next, first, _⟩
      rcases state with ⟨_, globals, count⟩
      cases first.frames
      refine (induction tailTyped regular lasts (hosted.later first.continues) first.stands
        first.agrees).mono fun _ last state holds => ?_
      rcases holds with ⟨last, second⟩
      exact ⟨last, first.trans second computes.within.size_le⟩

/-! ## Variables -/

theorem Runs.fewer {fewer : List VarId} {next : Frame} {state : State}
    (runs : Runs program final locals callers place after frame store state next)
    (less : ∀ id ∈ fewer, id ∈ locals) :
    Runs program final fewer callers place after frame store state next :=
  { runs with agrees := runs.agrees.mono less (Nat.le_refl _) }

/-- The operand of an initial value stands for the value, if there is one. -/
inductive Starts (module : Module) (frame : Frame) (bound : Nat) (ty : Source.Ty) :
    Option Operand → Option Datum → Prop
  | nothing : Starts module frame bound ty none none
  | something {operand : Operand} {datum : Datum}
      (denotes : Denotes module frame bound operand datum) (typed : datum.hasType ty = true) :
      Starts module frame bound ty (some operand) (some datum)

theorem follows_initial (linked : Linked program final)
    (calls : CallsFollow program final library call below) (enough : fuel ≤ below + 1)
    {initial : Option ExprId} {operand : Option Operand} {ty : Source.Ty}
    (lowers : LowersInitial program final initial place operand after)
    (typed : ∀ id, initial = some id → ExprTyped program (HasFunction program) locals id ty)
    (lasts : after.Lasts function.body) (hosted : Hosted final function frame)
    (stands : frame.Stands place)
    (agrees : Matches program final locals place.body.temps.size store frame memory) :
    Follows final.cursor.module library (Source.evalInitial program library call initial store) fuel
      ⟨frame :: callers, memory, serial⟩ fun datum last state =>
        ∃ next, Runs program final locals callers place after frame last state next ∧
          Starts final.cursor.module next after.body.temps.size ty operand datum := by
  cases lowers with
  | none => exact .pure ⟨frame, ⟨rfl, stands, agrees, .refl _ _⟩, .nothing⟩
  | some computes =>
      refine .map ((follows_value linked calls enough computes (typed _ rfl) lasts hosted stands
        agrees).mono fun datum last state holds => ?_)
      rcases holds with ⟨next, runs, denotes, valueTyped⟩
      exact ⟨next, runs, .something denotes valueTyped⟩

theorem literal?_isSome {decl : VarDecl} {id : ExprId} (something : decl.initial = some id)
    (typed : ExprTyped program (HasFunction program) locals id decl.ty) :
    (Source.literal? program decl).isSome =
      (decl.ty ≠ .string && isLiteralInitial program decl) := by
  generalize decl.ty = ty at typed ⊢
  cases typed with
  | @intro expr operands found _ nodeTyped =>
      rcases expr with ⟨node, ty⟩
      simp only [Source.literal?, isLiteralInitial, something, Option.bind_some, found,
        Option.map_some, Source.Expr.isLiteral]
      cases nodeTyped <;> simp

theorem localsOf_local {id : VarId} {decl : VarDecl} (found : program.var? id = some decl)
    (isLocal : decl.scope = .local) : localsOf program [id] = [id] := by
  simp [localsOf, found, isLocal]

theorem localsOf_topLevel {id : VarId} {decl : VarDecl} (found : program.var? id = some decl)
    (topLevel : decl.scope = .topLevel) : localsOf program [id] = [] := by
  simp [localsOf, found, topLevel]

theorem follows_reserve (hosted : Hosted final function frame) (stands : frame.Stands place)
    {count : Nat} (room : place.Room count)
    (agrees : Matches program final locals place.body.temps.size store frame memory) {id : VarId}
    {decl : VarDecl} (found : program.var? id = some decl) (notVoid : decl.ty ≠ .void)
    (isLocal : decl.scope = .local)
    (stored : final.annotations.storageOf id = .ok (.temp place.freshTemp))
    (lasts : (place.define .ptr fun result =>
      .alloca result (codeType decl.ty) (alignment decl.ty)).Lasts function.body) :
    Follows final.cursor.module library (.ok ((), store.setLocal id (library.fresh decl.ty))) fuel
      ⟨frame :: callers, memory, serial⟩ fun _ last state =>
        ∃ next, Runs program final (id :: locals) callers place (place.define .ptr fun result =>
          .alloca result (codeType decl.ty) (alignment decl.ty)) frame last state next := by
  have number := Place.Regular.toNat_freshTemp room
  have event : State.next final.cursor.module ⟨frame :: callers, memory, serial⟩ =
      .ok (.reserves (codeType decl.ty) fun content =>
        State.resume ⟨frame :: callers, memory, serial⟩
          (frame.reserve (.temp place.freshTemp) (codeType decl.ty) content) callers) :=
    next_eq_execute hosted (stands.takeTemp _) lasts
  refine ⟨1, _, .one (.reserved event ⟨decl.ty, notVoid, rfl, rfl⟩), _, rfl,
    stands.define _ _ rfl rfl, ?_, ?_⟩
  · exact agrees.reserve found isLocal stored (Nat.le_of_eq number.symm)
      (library.hasType_fresh decl.ty notVoid) (by rw [number, temps_define]; omega)
  · have fresh : ∀ temp, some (Operand.temp place.freshTemp) = some (.temp temp) →
        place.body.temps.size ≤ temp.number.toNat := by
      intro temp same
      cases same
      exact Nat.le_of_eq number.symm
    have advances := Continues.advance frame (.address (.slot frame.serial frame.slots.length)) fresh
    exact ⟨rfl, rfl, rfl, advances.temps⟩

theorem Store.setLocal_setLocal (store : Store) (id : VarId) (first second : Datum) :
    (store.setLocal id first).setLocal id second = store.setLocal id second := by
  simp only [Store.setLocal, Store.mk.injEq, true_and]
  funext other
  by_cases same : id = other <;> simp [same]

theorem follows_fill (linked : Linked program final) (hosted : Hosted final function frame)
    (stands : frame.Stands place) (fit : place.Fit)
    (agrees : Matches program final locals place.body.temps.size store frame memory) {id : VarId}
    {decl : VarDecl} (found : program.var? id = some decl) (notVoid : decl.ty ≠ .void)
    (isLocal : decl.scope = .local)
    (stored : final.annotations.storageOf id = .ok (.temp place.freshTemp)) {value : Operand}
    {datum : Datum} (denotes : Denotes final.cursor.module frame place.body.temps.size value datum)
    (typed : datum.hasType decl.ty = true) {slotted : Place}
    (reserves : slotted = place.define .ptr fun result =>
      .alloca result (codeType decl.ty) (alignment decl.ty))
    (lasts : (slotted.ready.add (.store (.temp place.freshTemp) value)).Lasts function.body) :
    Follows final.cursor.module library (.ok ((), store.setLocal id datum)) fuel
      ⟨frame :: callers, memory, serial⟩ fun _ last state =>
        ∃ next, Runs program final (id :: locals) callers place
          (slotted.ready.add (.store (.temp place.freshTemp) value)) frame last state next := by
  subst reserves
  have regular : (place.define .ptr fun result =>
      .alloca result (codeType decl.ty) (alignment decl.ty)).Regular :=
    fit.regular.define stands.isOpen fit.room fun _ => rfl
  have lastsSlotted := lasts.of_within regular
    ((SafeOperation.add rfl).within _ 6 (fit.room.define .ptr _))
  have fills : (Source.Eval.setLocal id (library.fresh decl.ty) >>= fun _ =>
      Source.writeVar program id datum) store = .ok ((), store.setLocal id datum) := by
    rw [Source.Eval.bind_eq_ok rfl, Source.writeVar_local program found isLocal,
      Store.setLocal_setLocal]
  rw [← fills]
  refine Follows.bind (follows_reserve hosted stands fit.room agrees found notVoid isLocal stored
    lastsSlotted) fun _ between state holds => ?_
  rcases holds with ⟨next, first⟩
  rcases state with ⟨_, globals, serial⟩
  cases first.frames
  rw [first.stands.ready] at lasts ⊢
  refine (follows_store linked (hosted.later first.continues) first.stands first.agrees found
    (.inl (by simp)) stored (denotes.later first.continues (by rw [temps_define]; omega)) typed
    lasts).mono fun _ last state holds => ?_
  rcases holds with ⟨last, second, _⟩
  exact ⟨last, first.trans second (by rw [temps_define]; omega)⟩

theorem startVar_stored {id : VarId} {decl : VarDecl} {initial : ExprId}
    (found : program.var? id = some decl) (topLevel : decl.scope = .topLevel)
    (something : decl.initial = some initial)
    (typed : ExprTyped program (HasFunction program) locals initial decl.ty)
    (stores : decl.ty = .string ∨ isLiteralInitial program decl = false) (datum : Datum) :
    Source.startVar program library id decl (some datum) store =
      Source.writeVar program id datum store := by
  have noLiteral : (Source.literal? program decl).isSome = false := by
    rw [literal?_isSome something typed]
    rcases stores with isString | isComputed
    · simp [isString]
    · simp [isComputed]
  rw [Source.writeVar_topLevel program found topLevel]
  simp only [Source.startVar, topLevel, noLiteral]
  rfl

theorem startVar_kept {id : VarId} {decl : VarDecl} {initial : ExprId}
    (topLevel : decl.scope = .topLevel) (something : decl.initial = some initial)
    (typed : ExprTyped program (HasFunction program) locals initial decl.ty)
    (notString : decl.ty ≠ .string)
    (isLiteral : isLiteralInitial program decl = true) (datum : Datum) :
    Source.startVar program library id decl (some datum) store = .ok ((), store) := by
  have literal : (Source.literal? program decl).isSome = true := by
    rw [literal?_isSome something typed]
    simp [notString, isLiteral]
  simp only [Source.startVar, topLevel, literal]
  rfl

theorem follows_var (linked : Linked program final)
    (calls : CallsFollow program final library call below) (enough : fuel ≤ below + 1) {id : VarId}
    (lowers : LowersVar program final id place after)
    (typed : VarTyped program (HasFunction program) locals id)
    (lasts : after.Lasts function.body)
    (hosted : Hosted final function frame) (stands : frame.Stands place)
    (agrees : Matches program final locals place.body.temps.size store frame memory) :
    Follows final.cursor.module library (Source.evalVar program library call id store) fuel
      ⟨frame :: callers, memory, serial⟩ fun _ last state =>
        ∃ next, Runs program final (localsOf program [id] ++ locals) callers place after frame last
          state next := by
  cases typed with
  | @intro decl known _ starts =>
      cases lowers with
      | @stored _ value global _ valued found _ topLevel computes fit stores becomes =>
          rw [known] at found
          cases found
          rw [Source.evalVar_eq program library call known, localsOf_topLevel known topLevel]
          have lastsValued : valued.Lasts function.body :=
            lasts.of_within fit.regular ((SafeOperation.add rfl).within valued 7 fit.room)
          refine (follows_initial linked calls enough computes starts lastsValued hosted stands
            agrees).bind fun datum between state holds => ?_
          rcases holds with ⟨next, first, starting⟩
          rcases state with ⟨_, globals, count⟩
          cases first.frames
          generalize isInitial : decl.initial = initial at computes
          cases starting with
          | something denotes valueTyped =>
              cases computes with
              | some computes =>
                  rw [startVar_stored known topLevel isInitial (starts _ isInitial) stores]
                  rw [first.stands.ready] at lasts ⊢
                  refine (follows_store linked (hosted.later first.continues) first.stands
                    first.agrees known (.inr ⟨decl, known, topLevel⟩) becomes.1 denotes valueTyped
                    lasts).mono fun _ last state stored => ?_
                  rcases stored with ⟨last, second, _⟩
                  exact ⟨last, first.trans second (LowersExpr.within computes).size_le⟩
      | @kept _ value global _ _ found _ topLevel computes keeps becomes =>
          rw [known] at found
          cases found
          rw [Source.evalVar_eq program library call known, localsOf_topLevel known topLevel]
          refine (follows_initial linked calls enough computes starts lasts hosted stands
            agrees).bind fun datum between state holds => ?_
          rcases holds with ⟨next, runs, starting⟩
          generalize isInitial : decl.initial = initial at computes
          cases starting with
          | nothing =>
              have skips : Source.startVar program library id decl none between =
                  .ok ((), between) := by
                simp only [Source.startVar, topLevel]
                rfl
              rw [skips]
              exact .pure ⟨next, runs⟩
          | something denotes valueTyped =>
              rcases keeps with absent | ⟨notString, isLiteral⟩
              · cases absent
              cases computes with
              | some computes =>
                  rw [startVar_kept topLevel isInitial (starts _ isInitial) notString isLiteral]
                  exact .pure ⟨next, runs⟩
      | @empty _ _ found notVoid isLocal fit nothing stored =>
          rw [known] at found
          cases found
          rw [Source.evalVar_eq program library call known, localsOf_local known isLocal, nothing]
          rw [stands.ready] at lasts stored ⊢
          have skips : (Source.evalInitial program library call none >>=
              Source.startVar program library id decl) store =
                .ok ((), store.setLocal id (library.fresh decl.ty)) := by
            simp only [Source.evalInitial, pure_bind, Source.startVar, isLocal]
            rfl
          rw [skips]
          exact follows_reserve hosted stands fit.room agrees known notVoid isLocal stored lasts
      | @filled _ initial value _ valued slotted found notVoid isLocal something computes fit
          reserves stored =>
          rw [known] at found
          cases found
          rw [Source.evalVar_eq program library call known, localsOf_local known isLocal, something]
          have within : valued.Within valued.body.nextBlock.toNat
              (slotted.ready.add (.store (.temp valued.ready.freshTemp) value)) := by
            subst reserves
            exact .andThen ((SafeOperation.define _ fun _ => rfl).within _ 6 fit.room)
              ((SafeOperation.add rfl).within _ 5 (fit.room.ready.define _ _))
          refine (follows_initial linked calls enough (.some computes)
            (fun _ same => starts _ (something.trans same)) (lasts.of_within fit.regular within)
            hosted stands agrees).bind fun datum between state holds => ?_
          rcases holds with ⟨next, first, starting⟩
          rcases state with ⟨_, globals, count⟩
          cases first.frames
          cases starting with
          | @something _ datum denotes valueTyped =>
              have starts : Source.startVar program library id decl (some datum) between =
                  .ok ((), between.setLocal id datum) := by
                simp only [Source.startVar, isLocal]
                rfl
              rw [starts]
              rw [first.stands.ready] at reserves stored lasts ⊢
              refine (follows_fill linked (hosted.later first.continues) first.stands fit
                first.agrees known notVoid isLocal stored denotes valueTyped reserves lasts).mono
                  fun _ last state holds => ?_
              rcases holds with ⟨last, second⟩
              exact ⟨last, { second with
                continues := first.continues.trans second.continues computes.within.size_le }⟩

end Values

/-! ## Statements -/

section Parts

/-- What a part does, where its own parts are followed to the given depth. -/
def evalPart (program : Program) (library : Library)
    (call : FunctionDecl → List Datum → Eval (Option Datum)) (fuel depth : Nat) : Part → Eval Flow
  | .stmt id node => Source.evalNodeOf program library call fuel
      (Source.evalStmtWithin program library call fuel depth) id node
  | .initial initial => Source.evalForInit program library call
      (Source.evalStmtWithin program library call fuel depth) initial

def Part.declares (program : Program) : Part → List VarId
  | .stmt _ node => Lowering.declares program node
  | .initial first => initialDeclares program first

theorem evalStmtWithin_succ {program : Program} {library : Library}
    {call : FunctionDecl → List Datum → Eval (Option Datum)} {fuel depth : Nat} {id : StmtId}
    {node : Stmt} (found : program.stmt? id = some node) :
    Source.evalStmtWithin program library call fuel (depth + 1) id =
      evalPart program library call fuel depth (.stmt id node) := by
  simp only [Source.evalStmtWithin, found, Source.Eval.known, pure_bind]
  rfl

/-- A frame of the function stands at the place, and the memory matches the store. -/
structure Begins (program : Program) (final : Session) (function : Function) (returns : Source.Ty)
    (locals : List VarId) (place : Place) (frame : Frame) (store : Store)
    (memory : GlobalId → Option Value) : Prop where
  hosted : Hosted final function frame
  returns : function.signature.returns = codeType returns
  stands : frame.Stands place
  agrees : Matches program final locals place.body.temps.size store frame memory

variable {program : Program} {final : Session} {library : Library}
  {call : FunctionDecl → List Datum → Eval (Option Datum)} {fuel below depth : Nat}
  {place after : Place}

theorem Begins.runs {function : Function} {returns : Source.Ty} {locals : List VarId}
    {frame : Frame} {store : Store} {memory : GlobalId → Option Value}
    (begins : Begins program final function returns locals place frame store memory)
    (callers : List Frame) (serial : Nat) :
    Runs program final locals callers place place frame store ⟨frame :: callers, memory, serial⟩
      frame :=
  ⟨rfl, begins.stands, begins.agrees, .refl _ _⟩

theorem Begins.later {function : Function} {returns : Source.Ty} {locals others : List VarId}
    {frame next : Frame} {store last : Store} {memory : GlobalId → Option Value}
    {callers : List Frame} {state : State}
    (begins : Begins program final function returns locals place frame store memory)
    (runs : Runs program final others callers place after frame last state next) :
    Begins program final function returns others after next last state.globals :=
  ⟨begins.hosted.later runs.continues, begins.returns, runs.stands, runs.agrees⟩

/-- The machine follows a part that has been lowered from `place` to `after`. -/
def PartFollows (program : Program) (final : Session) (library : Library)
    (call : FunctionDecl → List Datum → Eval (Option Datum)) (fuel depth : Nat) (part : Part)
    (place after : Place) : Prop :=
  ∀ (deeper : Nat) (returns : Source.Ty) (loops : List StmtId) (locals : List VarId)
    (function : Function) (callers : List Frame) (frame : Frame)
    (memory : GlobalId → Option Value) (serial : Nat) (store : Store),
    depth ≤ deeper → PartTyped program (HasFunction program) returns loops locals part →
    after.Regular →
    after.Lasts function.body →
    Begins program final function returns locals place frame store memory →
    Follows final.cursor.module library (evalPart program library call fuel deeper part store) fuel
      ⟨frame :: callers, memory, serial⟩
      (Flows program final returns loops locals (part.declares program) callers place after frame)

theorem partFollows_expr (linked : Linked program final)
    (calls : CallsFollow program final library call below) (enough : fuel ≤ below + 1)
    {id : StmtId} {expr : ExprId} {value : Option Operand}
    (computes : LowersExpr program final expr place value after) :
    PartFollows program final library call fuel depth (.stmt id (.expr expr)) place after := by
  intro deeper returns loops locals function callers frame memory serial store _ typed _ lasts begins
  cases typed with
  | expr typed =>
      refine Follows.bind (follows_expr linked calls enough computes typed lasts begins.hosted
        begins.stands begins.agrees) fun _ last state computed => ?_
      rcases computed with ⟨next, runs, _⟩
      exact .pure (.normal runs)

theorem partFollows_sequence {id head : StmtId} {tail : List StmtId} {node : Stmt}
    {middle : Place} (found : program.stmt? head = some node)
    (first : LowersPart program final depth (.stmt head node) place middle)
    (rest : LowersPart program final (depth + 1) (.stmt id (.compound tail)) middle after)
    (firstFollows : PartFollows program final library call fuel depth (.stmt head node) place middle)
    (restFollows : PartFollows program final library call fuel (depth + 1)
      (.stmt id (.compound tail)) middle after) :
    PartFollows program final library call fuel (depth + 1) (.stmt id (.compound (head :: tail)))
      place after := by
  intro deeper returns loops locals function callers frame memory serial store deep typed regular
    lasts begins
  rcases deeper with _ | deeper
  · cases deep
  cases typed with
  | @sequence _ _ _ _ _ otherNode known headTyped tailTyped =>
      rw [found] at known
      cases known
      have regularMiddle := rest.regular regular
      have splits : evalPart program library call fuel (deeper + 1)
          (.stmt id (.compound (head :: tail))) =
          evalPart program library call fuel deeper (.stmt head node) >>=
            Flow.andThen
              (evalPart program library call fuel (deeper + 1) (.stmt id (.compound tail))) := by
        rw [← evalStmtWithin_succ found]
        rfl
      rw [splits]
      refine (firstFollows deeper returns loops locals function callers frame memory serial store
        (by omega) headTyped regularMiddle (lasts.of_within regularMiddle rest.within) begins).bind
          fun flow between state flows => ?_
      cases flows with
      | normal runs =>
          rcases state with ⟨_, globals, count⟩
          cases runs.frames
          refine (restFollows (deeper + 1) returns loops _ function callers _ globals count between
            deep tailTyped regular lasts (begins.later runs)).mono fun flow last state flows => ?_
          exact flows.outward (fun _ member => List.mem_append_right _ member)
            (fun _ member => List.mem_append_right _ (List.mem_append_right _ member))
            runs.continues first.within.size_le
      | departs departs =>
          exact (departs.outward (fun _ member => member) (.refl _ _) (Nat.le_refl _)
            rest.within.size_le fun _ edge => edge.within regularMiddle rest.within).follows _

theorem partFollows_vars (linked : Linked program final)
    (calls : CallsFollow program final library call below) (enough : fuel ≤ below + 1)
    {id : StmtId} {var : VarId} {rest : List VarId} {middle : Place}
    (first : LowersVar program final var place middle)
    (others : LowersPart program final depth (.stmt id (.varDecl rest)) middle after)
    (othersFollow : PartFollows program final library call fuel depth (.stmt id (.varDecl rest))
      middle after) :
    PartFollows program final library call fuel depth (.stmt id (.varDecl (var :: rest))) place
      after := by
  intro deeper returns loops locals function callers frame memory serial store deep typed regular
    lasts begins
  cases typed with
  | vars varTyped othersTyped =>
      have regularMiddle := others.regular regular
      have splits : evalPart program library call fuel deeper (.stmt id (.varDecl (var :: rest))) =
          Source.evalVar program library call var >>= fun _ =>
            evalPart program library call fuel deeper (.stmt id (.varDecl rest)) := by
        simp [evalPart, Source.evalNodeOf, List.forM_cons]
      rw [splits]
      refine (follows_var linked calls enough first varTyped
        (lasts.of_within regularMiddle others.within) begins.hosted begins.stands begins.agrees).bind
          fun _ between state holds => ?_
      rcases holds with ⟨next, runs⟩
      rcases state with ⟨_, globals, count⟩
      cases runs.frames
      refine (othersFollow deeper returns loops _ function callers next globals count between deep
        othersTyped regular lasts (begins.later runs)).mono fun flow last state flows => ?_
      refine flows.outward (fun _ member => List.mem_append_right _ member) ?_ runs.continues
        first.within.size_le
      intro seen member
      have splitsLocals : localsOf program (var :: rest) =
          localsOf program [var] ++ localsOf program rest :=
        List.filter_append [var] rest
      simp only [Part.declares, declares, splitsLocals, List.mem_append] at member ⊢
      tauto

theorem partFollows_continueLoop {id target : StmtId} {blocks : LoopBlocks}
    (known : final.annotations.loopOf target = .ok blocks) :
    PartFollows program final library call fuel depth (.stmt id (.continueLoop target)) place
      (place.ready.terminate (.jump blocks.continueTarget)) := by
  intro deeper returns loops locals function callers frame memory serial store _ typed _ lasts begins
  cases typed with
  | continueLoop encloses =>
      exact .pure (.departs (.continued encloses known
        ((begins.runs callers serial).jumps begins.hosted lasts)))

theorem partFollows_breakLoop {id target : StmtId} {blocks : LoopBlocks}
    (known : final.annotations.loopOf target = .ok blocks) :
    PartFollows program final library call fuel depth (.stmt id (.breakLoop target)) place
      (place.ready.terminate (.jump blocks.exit)) := by
  intro deeper returns loops locals function callers frame memory serial store _ typed _ lasts begins
  cases typed with
  | breakLoop encloses =>
      exact .pure (.departs (.broke encloses known
        ((begins.runs callers serial).jumps begins.hosted lasts)))

theorem partFollows_returnNothing {id : StmtId} :
    PartFollows program final library call fuel depth (.stmt id (.returnValue none)) place
      (place.ready.terminate (.ret none)) := by
  intro deeper returns loops locals function callers frame memory serial store _ typed _ lasts begins
  cases typed with
  | returnNothing nothing =>
      rw [begins.stands.ready] at lasts ⊢
      refine .pure (.departs (.returned ⟨?_, begins.agrees.globals, nothing⟩))
      rw [begins.stands.next_terminate rfl lasts begins.hosted.found rfl]
      simp [State.leave, begins.returns, nothing, codeType, Source.resultValue, bind, Except.bind,
        Value.hasType]

theorem partFollows_returnValue (linked : Linked program final)
    (calls : CallsFollow program final library call below) (enough : fuel ≤ below + 1)
    {id : StmtId} {expr : ExprId} {value : Operand} {valued : Place}
    (computes : LowersExpr program final expr place (some value) valued) (fit : valued.Fit) :
    PartFollows program final library call fuel depth (.stmt id (.returnValue (some expr))) place
      (valued.ready.terminate (.ret (some value))) := by
  intro deeper returns loops locals function callers frame memory serial store _ typed _ lasts begins
  cases typed with
  | returnValue something typed =>
      have within := (SafeOperation.terminate (.ret (some value))).within valued 7 fit.room
      refine Follows.bind (follows_value linked calls enough computes typed
        (lasts.of_within fit.regular within) begins.hosted begins.stands begins.agrees)
          fun datum last state holds => ?_
      rcases holds with ⟨next, runs, denotes, valueTyped⟩
      rw [runs.stands.ready] at lasts ⊢
      refine .pure (.departs (.returned ⟨?_, runs.agrees.globals, valueTyped⟩))
      have fits : datum.value.hasType function.signature.returns = true := by
        rw [begins.returns]
        exact Datum.hasType_value valueTyped
      rw [runs.stands.next_terminate rfl lasts (begins.hosted.later runs.continues).found
        runs.frames]
      simp [State.leave, denotes.value, fits, Source.resultValue, bind, Except.bind]

end Parts

end ScriptLowering.Lowering
