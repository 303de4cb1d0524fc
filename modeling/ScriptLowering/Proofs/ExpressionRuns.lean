import Mathlib.Data.List.Forall2
import ScriptLowering.Proofs.MemoryMatching
import ScriptLowering.Proofs.Operators
import ScriptLowering.Proofs.MachineSafety

/-! # Running expressions

Where a frame stands at the place from which an expression has been lowered, the machine follows
its evaluation and comes to stand behind the expression, with its value at hand.
-/

namespace ScriptLowering.Lowering

open Source (Program ExprNode ExprId VarId VarDecl FunctionDecl FuncId Datum Store Eval Library
  Follows)
open Code (Frame Function GlobalId Instruction Module Operand Place State Step Takes TempId Value)

/-! ## The module around a function -/

namespace StringLibrary

theorem create_mem :
    (⟨create, [⟨"literal", .ptr⟩], stringType⟩ : Code.Signature) ∈ signatures := by
  simp [signatures]

theorem concat_mem : (⟨concat, [⟨"lhs", stringType⟩, ⟨"rhs", stringType⟩], stringType⟩ :
    Code.Signature) ∈ signatures := by
  simp [signatures]

theorem equals_mem : (⟨equals, [⟨"lhs", stringType⟩, ⟨"rhs", stringType⟩], orderingType⟩ :
    Code.Signature) ∈ signatures := by
  simp [signatures]

end StringLibrary

/-- The functions and the globals of the module are those that the program refers to. -/
structure Linked (program : Program) (final : Session) : Prop where
  placed : GlobalsPlaced program final
  library : ∀ signature ∈ StringLibrary.signatures,
    final.cursor.module.function? signature.name = some (.declared signature .exported)
  functions : ∀ id ∈ functionsOf (walkProgram program), ∀ decl, program.function? id = some decl →
    Source.functionNamed? program decl.name = some decl ∧
    ∃ function, final.cursor.module.function? decl.name = some function ∧
      function.entry? = some ⟨0⟩ ∧ function.signature.returns = returnType decl.returns ∧
      ∀ types : List Source.Ty, decl.params.map (fun param => (program.var? param).map VarDecl.ty) =
        types.map some → function.signature.params.map Code.Parameter.ty = types.map codeType

/-- The frame runs a function whose body is closed. -/
structure Hosted (final : Session) (function : Function) (frame : Frame) : Prop where
  found : final.cursor.module.function? frame.function = some function
  closed : function.body.Closed

theorem Hosted.later {final : Session} {function : Function} {frame next : Frame} {bound : Nat}
    (hosted : Hosted final function frame) (continues : Continues bound frame next) :
    Hosted final function next :=
  ⟨by rw [continues.function]; exact hosted.found, hosted.closed⟩

/-! ## Where runs lead -/

abbrev DataTyped (data : List Datum) (types : List Source.Ty) : Prop :=
  List.Forall₂ (fun datum ty => datum.hasType ty = true) data types

/-- A result of the given type; nothing is a result of type `void`. -/
def ResultTyped (ty : Source.Ty) : Option Datum → Prop
  | some datum => datum.hasType ty = true
  | none => ty = .void

/-- The operand of an expression stands for the value of the expression. -/
inductive Yields (module : Module) (frame : Frame) (bound : Nat) (ty : Source.Ty) :
    Option Operand → Option Datum → Prop
  | nothing (nothing : ty = .void) : Yields module frame bound ty none none
  | something {operand : Operand} {datum : Datum}
      (denotes : Denotes module frame bound operand datum) (typed : datum.hasType ty = true) :
      Yields module frame bound ty (some operand) (some datum)

/-- The machine has come from `frame` at `place` to `next` at `after`, and the memory still matches
the store. -/
structure Runs (program : Program) (final : Session) (locals : List VarId) (callers : List Frame)
    (place after : Place) (frame : Frame) (store : Store) (state : State) (next : Frame) : Prop where
  frames : state.frames = next :: callers
  stands : next.Stands after
  agrees : Matches program final locals after.body.temps.size store next state.globals
  continues : Continues place.body.temps.size frame next

theorem Runs.trans {program : Program} {final : Session} {locals : List VarId}
    {callers : List Frame} {place middle after : Place} {frame between next : Frame}
    {store last : Store} {state end_ : State}
    (first : Runs program final locals callers place middle frame store state between)
    (second : Runs program final locals callers middle after between last end_ next)
    (grows : place.body.temps.size ≤ middle.body.temps.size) :
    Runs program final locals callers place after frame last end_ next :=
  { second with continues := first.continues.trans second.continues grows }

/-- What is assumed of calls: the machine follows them until they hand back their result. -/
def CallsFollow (program : Program) (final : Session) (library : Library)
    (call : FunctionDecl → List Datum → Eval (Option Datum)) (fuel : Nat) : Prop :=
  ∀ (id : FuncId) (decl : FunctionDecl) (types : List Source.Ty) (data : List Datum) (store : Store)
    (frame : Frame) (callers : List Frame) (memory : GlobalId → Option Value) (serial : Nat)
    (result : Option Operand),
    id ∈ functionsOf (walkProgram program) → program.function? id = some decl →
    decl.params.map (fun param => (program.var? param).map VarDecl.ty) = types.map some →
    DataTyped data types → GlobalsMatch program final store.globals memory →
    (∀ (state : State) (value : Value),
      state.giveBack final.cursor.module value (frame :: callers) =
        .ok (.goes (state.resume (frame.advance result value) callers))) →
    Follows final.cursor.module library (call decl data store) fuel
      ⟨.start serial decl.name ⟨0⟩ (data.map Datum.value) :: frame :: callers, memory, serial + 1⟩
      fun value after state =>
        state.frames = frame.advance result (Source.resultValue value) :: callers ∧
        GlobalsMatch program final after.globals state.globals ∧ after.locals = store.locals ∧
        ResultTyped (decl.returns.getD .void) value

/-! ## Single instructions -/

section Steps

variable {program : Program} {final : Session} {library : Library} {locals : List VarId}
  {function : Function} {frame : Frame} {place : Place} {callers : List Frame}
  {memory : GlobalId → Option Value} {serial : Nat} {store : Store}

theorem next_eq_execute (hosted : Hosted final function frame) (stands : frame.Stands place)
    {instruction : Instruction} (lasts : (place.add instruction).Lasts function.body) :
    State.next final.cursor.module ⟨frame :: callers, memory, serial⟩ =
      State.execute final.cursor.module ⟨frame :: callers, memory, serial⟩ frame callers
        instruction :=
  stands.next_add lasts hosted.found rfl

theorem temps_define (place : Place) (ty : Code.Ty) (instruction : Operand → Instruction) :
    (place.define ty instruction).body.temps.size = place.body.temps.size + 1 := by
  rw [Place.define, Place.add, Place.temps_change]
  simp [Place.takeTemp, Code.Body.newTemp]

theorem temps_add (place : Place) (instruction : Instruction) :
    (place.add instruction).body.temps.size = place.body.temps.size := by
  rw [Place.add, Place.temps_change]

theorem runs_define {count : Nat} (room : place.Room count) (stands : frame.Stands place)
    (agrees : Matches program final locals place.body.temps.size store frame memory)
    (ty : Code.Ty) (instruction : Operand → Instruction) (value : Value) :
    Runs program final locals callers place (place.define ty instruction) frame store
      ⟨frame.advance (some (.temp place.freshTemp)) value :: callers, memory, serial⟩
      (frame.advance (some (.temp place.freshTemp)) value) := by
  have fresh : ∀ temp, some (Operand.temp place.freshTemp) = some (.temp temp) →
      place.body.temps.size ≤ temp.number.toNat := by
    intro temp same
    cases same
    exact Nat.le_of_eq (Place.Regular.toNat_freshTemp room).symm
  exact {
    frames := rfl
    stands := stands.define ty instruction rfl rfl
    agrees := (agrees.advance value fresh).mono (fun _ => id) (by rw [temps_define]; omega)
    continues := .advance frame value fresh }

theorem denotes_fresh {count : Nat} (room : place.Room count) (ty : Code.Ty) (instruction : Operand → Instruction)
    (module : Module) (frame : Frame) (datum : Datum) :
    Denotes module (frame.advance (some (.temp place.freshTemp)) datum.value)
      (place.define ty instruction).body.temps.size (.temp place.freshTemp) datum where
  value := by simp [Frame.operand, Frame.advance]
  below := by
    intro temp same
    cases same
    rw [Place.Regular.toNat_freshTemp room, temps_define]
    omega

theorem runs_add (stands : frame.Stands place) (instruction : Instruction) {next : Frame}
    {after : Store} {globals : GlobalId → Option Value}
    (agrees : Matches program final locals place.body.temps.size after next globals)
    (continues : Continues place.body.temps.size frame next) (block : next.block = frame.block)
    (index : next.index = frame.index + 1) :
    Runs program final locals callers place (place.add instruction) frame after
      ⟨next :: callers, globals, serial⟩ next where
  frames := rfl
  stands := stands.add instruction block index
  agrees := by rw [temps_add]; exact agrees
  continues := continues

end Steps

theorem mapM_operand {module : Module} {frame : Frame} {bound : Nat} {operands : List Operand}
    {data : List Datum} (denotes : List.Forall₂ (Denotes module frame bound) operands data) :
    operands.mapM (frame.operand module) = .ok (data.map Datum.value) := by
  induction denotes with
  | nil => rfl
  | cons first _ induction =>
      rw [List.mapM_cons, first.value]
      simp [bind, Except.bind, induction, pure, Except.pure]

theorem argumentsFit {data : List Datum} {types : List Source.Ty} {params : List Code.Parameter}
    (typed : DataTyped data types)
    (same : params.map Code.Parameter.ty = types.map codeType) :
    State.argumentsFit (data.map Datum.value) params = true := by
  rw [State.argumentsFit_iff]
  refine ⟨?_, ?_⟩
  · have first := congrArg List.length same
    have second := typed.length_eq
    simp only [List.length_map] at first ⊢
    omega
  · intro index value param foundValue foundParam
    rw [List.getElem?_map] at foundValue
    rcases Option.map_eq_some_iff.mp foundValue with ⟨datum, foundDatum, rfl⟩
    have isType : (types.map codeType)[index]? = some param.ty := by
      rw [← same, List.getElem?_map, foundParam]
      rfl
    rw [List.getElem?_map] at isType
    rcases Option.map_eq_some_iff.mp isType with ⟨ty, foundType, sameType⟩
    rw [← sameType]
    refine Datum.hasType_value ?_
    rcases List.getElem?_eq_some_iff.mp foundDatum with ⟨bound, isDatum⟩
    rcases List.getElem?_eq_some_iff.mp foundType with ⟨otherBound, isTy⟩
    rw [← isDatum, ← isTy]
    exact List.Forall₂.get typed bound otherBound

/-! ## Expressions whose operands are at hand -/

section Emitting

variable {program : Program} {final : Session} {library : Library}
  {call : FunctionDecl → List Datum → Eval (Option Datum)} {fuel : Nat} {locals : List VarId}
  {function : Function} {frame : Frame} {place : Place} {callers : List Frame}
  {memory : GlobalId → Option Value} {serial : Nat} {store : Store}

def Computed (program : Program) (final : Session) (locals : List VarId) (callers : List Frame)
    (place after : Place) (frame : Frame) (ty : Source.Ty) (operand : Option Operand)
    (datum : Option Datum) (store : Store) (state : State) : Prop :=
  ∃ next, Runs program final locals callers place after frame store state next ∧
    Yields final.cursor.module next after.body.temps.size ty operand datum

theorem step_define (hosted : Hosted final function frame) (stands : frame.Stands place)
    {ty : Code.Ty} {instruction : Operand → Instruction}
    (lasts : (place.define ty instruction).Lasts function.body) {next : State}
    (executes : State.execute final.cursor.module ⟨frame :: callers, memory, serial⟩ frame callers
      (instruction (.temp place.freshTemp)) = .ok (.goes next)) :
    Step final.cursor.module (library.surroundings final.cursor.module)
      ⟨frame :: callers, memory, serial⟩ next :=
  .goes ((next_eq_execute hosted (stands.takeTemp ty) lasts).trans executes)

theorem follows_define (stands : frame.Stands place) {count : Nat} (room : place.Room count)
    (agrees : Matches program final locals place.body.temps.size store frame memory)
    {ty : Code.Ty} {instruction : Operand → Instruction} {datum : Datum} {sourceTy : Source.Ty}
    (typed : datum.hasType sourceTy = true)
    (step : Step final.cursor.module (library.surroundings final.cursor.module)
      ⟨frame :: callers, memory, serial⟩
      ⟨frame.advance (some (.temp place.freshTemp)) datum.value :: callers, memory, serial⟩) :
    Follows final.cursor.module library (.ok (some datum, store)) fuel
      ⟨frame :: callers, memory, serial⟩
      (Computed program final locals callers place (place.define ty instruction) frame sourceTy
        (some (.temp place.freshTemp))) :=
  ⟨1, _, .one step, _, runs_define room stands agrees ty instruction datum.value,
    .something (denotes_fresh room ty instruction _ frame datum) typed⟩

theorem follows_checked (hosted : Hosted final function frame) (stands : frame.Stands place)
    (fit : place.Fit)
    (agrees : Matches program final locals place.body.temps.size store frame memory)
    {instruction : Operand → Instruction}
    (lasts : (place.define .i64 instruction).Lasts function.body) {computed : Option Int}
    (executes : State.execute final.cursor.module ⟨frame :: callers, memory, serial⟩ frame callers
        (instruction (.temp place.freshTemp)) =
      match computed with
      | some number => .ok (.goes (State.resume ⟨frame :: callers, memory, serial⟩
          (frame.advance (some (.temp place.freshTemp)) (.int 64 number)) callers))
      | none => .ok .traps)
    {step : Eval Datum} (alike : ChecksAlike (step store) store computed) :
    Follows final.cursor.module library ((some <$> step) store) fuel
      ⟨frame :: callers, memory, serial⟩
      (Computed program final locals callers place (place.define .i64 instruction) frame .integer
        (some (.temp place.freshTemp))) := by
  cases alike with
  | number computes =>
      rw [Source.Eval.map_eq_ok computes]
      exact follows_define stands fit.room agrees rfl (step_define hosted stands lasts executes)
  | trap traps =>
      rw [Source.Eval.map_eq_error traps]
      exact ⟨0, _, .none, (next_eq_execute hosted (stands.takeTemp _) lasts).trans executes⟩

theorem follows_load (linked : Linked program final) (hosted : Hosted final function frame)
    (stands : frame.Stands place) (fit : place.Fit)
    (agrees : Matches program final locals place.body.temps.size store frame memory) {id : VarId}
    {decl : VarDecl} {address : Operand} (found : program.var? id = some decl)
    (visible : InScope program locals id) (stored : final.annotations.storageOf id = .ok address)
    (lasts : (place.define (codeType decl.ty) fun result =>
      .load result (codeType decl.ty) address).Lasts function.body) :
    Follows final.cursor.module library ((some <$> Source.readVar program id) store) fuel
      ⟨frame :: callers, memory, serial⟩
      (Computed program final locals callers place (place.define (codeType decl.ty) fun result =>
        .load result (codeType decl.ty) address) frame decl.ty (some (.temp place.freshTemp))) := by
  rcases agrees.read linked.placed found visible stored with
    ⟨target, datum, operand, reads, evaluates, typed⟩
  rw [Source.Eval.map_eq_ok evaluates]
  refine follows_define stands fit.room agrees typed (step_define hosted stands lasts ?_)
  simp [State.execute, operand, reads, Datum.hasType_value typed, bind, Except.bind, State.resume]

theorem follows_store (linked : Linked program final) (hosted : Hosted final function frame)
    (stands : frame.Stands place)
    (agrees : Matches program final locals place.body.temps.size store frame memory) {id : VarId}
    {decl : VarDecl} {address value : Operand} (found : program.var? id = some decl)
    (visible : InScope program locals id) (stored : final.annotations.storageOf id = .ok address)
    {datum : Datum} (denotes : Denotes final.cursor.module frame place.body.temps.size value datum)
    (typed : datum.hasType decl.ty = true)
    (lasts : (place.add (.store address value)).Lasts function.body) :
    Follows final.cursor.module library (Source.writeVar program id datum store) fuel
      ⟨frame :: callers, memory, serial⟩ fun _ after state =>
        Computed program final locals callers place (place.add (.store address value)) frame decl.ty
          (some value) (some datum) after state := by
  rcases agrees.write linked.placed found visible stored typed with
    ⟨target, next, globals, written, operand, reads, writes, evaluates, agreesAfter, continues, block,
      index⟩
  rcases reads callers serial with ⟨content, reads⟩
  rw [evaluates]
  refine ⟨1, ⟨next :: callers, globals, serial⟩,
    .one (.goes ((next_eq_execute hosted stands lasts).trans ?_)), next,
    runs_add stands _ agreesAfter continues block index, .something ?_ typed⟩
  · simp [State.execute, operand, denotes.value, reads, Datum.hasType_value typed, bind,
      Except.bind, State.resume, writes]
  · rw [temps_add]
    exact denotes.later continues (Nat.le_refl _)

theorem follows_compare (hosted : Hosted final function frame) (stands : frame.Stands place)
    (fit : place.Fit)
    (agrees : Matches program final locals place.body.temps.size store frame memory)
    {condition : Code.Condition} {first second : Operand} {left right : Datum} {ty : Source.Ty}
    (comparable : ty = .integer ∨ ty = .boolean)
    (leftDenotes : Denotes final.cursor.module frame place.body.temps.size first left)
    (rightDenotes : Denotes final.cursor.module frame place.body.temps.size second right)
    (leftTyped : left.hasType ty = true) (rightTyped : right.hasType ty = true)
    (lasts : (place.define .bool fun result =>
      .compare result condition first second).Lasts function.body) :
    Follows final.cursor.module library
      (.ok (some (.truth (condition.holds (comparedNumber left) (comparedNumber right))), store))
      fuel ⟨frame :: callers, memory, serial⟩
      (Computed program final locals callers place (place.define .bool fun result =>
        .compare result condition first second) frame .boolean (some (.temp place.freshTemp))) := by
  refine follows_define stands fit.room agrees rfl (step_define hosted stands lasts ?_)
  rcases comparable with rfl | rfl
  · rcases eq_number_of_hasType leftTyped with ⟨_, rfl⟩
    rcases eq_number_of_hasType rightTyped with ⟨_, rfl⟩
    simp [State.execute, leftDenotes.value, rightDenotes.value, Datum.value, comparedNumber, bind,
      Except.bind, State.resume]
  · rcases eq_truth_of_hasType leftTyped with ⟨_, rfl⟩
    rcases eq_truth_of_hasType rightTyped with ⟨_, rfl⟩
    simp [State.execute, leftDenotes.value, rightDenotes.value, Datum.value, comparedNumber, bind,
      Except.bind, State.resume]

theorem step_answered (linked : Linked program final) (hosted : Hosted final function frame)
    (stands : frame.Stands place) {ty : Code.Ty} {signature : Code.Signature}
    (known : signature ∈ StringLibrary.signatures) {args : List Operand} {values : List Value}
    (computed : args.mapM (frame.operand final.cursor.module) = .ok values)
    (fit : State.argumentsFit values signature.params = true) {answer : Value}
    (answers : library.answer? final.cursor.module signature.name values = some answer)
    (lasts : (place.define ty fun result =>
      .call (some result) signature.name args).Lasts function.body) :
    Step final.cursor.module (library.surroundings final.cursor.module)
      ⟨frame :: callers, memory, serial⟩
      ⟨frame.advance (some (.temp place.freshTemp)) answer :: callers, memory, serial⟩ := by
  have event : State.next final.cursor.module ⟨frame :: callers, memory, serial⟩ =
      .ok (.calls signature.name values fun answer =>
        State.resume ⟨frame :: callers, memory, serial⟩
          (frame.advance (some (.temp place.freshTemp)) answer) callers) := by
    refine (next_eq_execute hosted (stands.takeTemp ty) lasts).trans ?_
    simp [State.execute, linked.library signature known, computed, fit, bind, Except.bind,
      Function.declared, Function.entry?, Code.Body.empty]
  exact .answered event answers

theorem argumentsFit_handles (left right : Option Nat) :
    State.argumentsFit [Source.handleValue left, Source.handleValue right]
      [⟨"lhs", StringLibrary.stringType⟩, ⟨"rhs", StringLibrary.stringType⟩] = true := by
  simp [State.argumentsFit, Source.hasType_handleValue]

theorem follows_call (linked : Linked program final) {below : Nat}
    (calls : CallsFollow program final library call below) (enough : fuel ≤ below + 1)
    (hosted : Hosted final function frame) (stands : frame.Stands place) {bound : Nat}
    (agrees : Matches program final locals bound store frame memory)
    {id : FuncId} {decl : FunctionDecl} {types : List Source.Ty} {values : List Operand}
    {data : List Datum} {result : Option Operand}
    (declared : id ∈ functionsOf (walkProgram program)) (found : program.function? id = some decl)
    (params : decl.params.map (fun param => (program.var? param).map VarDecl.ty) = types.map some)
    (denotes : List.Forall₂ (Denotes final.cursor.module frame bound) values data)
    (typed : DataTyped data types)
    (lasts : (place.add (.call result decl.name values)).Lasts function.body)
    {args : List ExprId} :
    Follows final.cursor.module library
      (Source.evalNode program library call (.call decl.name args) data store) fuel
      ⟨frame :: callers, memory, serial⟩ fun value after state =>
        state.frames = frame.advance result (Source.resultValue value) :: callers ∧
        Matches program final locals bound after frame state.globals ∧
        ResultTyped (decl.returns.getD .void) value := by
  rcases linked.functions id declared decl found with
    ⟨named, target, foundTarget, entry, _, paramTypes⟩
  have evaluates : Source.evalNode program library call (.call decl.name args) data store =
      call decl data store := by
    simp only [Source.evalNode, named, Source.Eval.known, pure_bind]
  have event : State.next final.cursor.module ⟨frame :: callers, memory, serial⟩ =
      .ok (.goes ⟨.start serial decl.name ⟨0⟩ (data.map Datum.value) :: frame :: callers, memory,
        serial + 1⟩) := by
    refine (next_eq_execute hosted stands lasts).trans ?_
    simp [State.execute, foundTarget, mapM_operand denotes, argumentsFit typed (paramTypes types params),
      entry, bind, Except.bind]
  rw [evaluates]
  refine (Follows.before (.one (.goes event)) ((calls id decl types data store frame callers memory
    serial result declared found params typed agrees.globals
    (stands.giveBack_call lasts hosted.found)).mono ?_)).less enough
  intro value after state holds
  rcases holds with ⟨frames, globals, same, resultTyped⟩
  exact ⟨frames, agrees.called same globals, resultTyped⟩

theorem evalNode_binary (op : Source.BinaryOp) (left right : ExprId) (first second : Datum) :
    Source.evalNode program library call (.binary op left right) [first, second] =
      some <$> Source.operate library op first second := by
  cases op <;> rfl

theorem isVoid_codeType (ty : Source.Ty) : (codeType ty).isVoid = true ↔ ty = .void := by
  cases ty <;> simp [codeType, Code.Ty.isVoid, StringLibrary.stringType, Code.Ty.i64]

theorem Linked.returns (linked : Linked program final) {id : FuncId} {decl : FunctionDecl}
    (declared : id ∈ functionsOf (walkProgram program)) (known : program.function? id = some decl)
    {signature : Code.Signature}
    (found : (final.cursor.module.function? decl.name).map Function.signature = some signature) :
    signature.returns = codeType (decl.returns.getD .void) := by
  rcases linked.functions id declared decl known with ⟨_, target, foundTarget, _, returns, _⟩
  rw [foundTarget] at found
  cases found
  exact returns

theorem evalNode_assign {left right : ExprId} {target : Source.Expr} {name : String} {id : VarId}
    (targets : program.expr? left = some target) (isIdentifier : target.node = .identifier name id)
    (datum : Datum) :
    Source.evalNode program library call (.binary .assign left right) [datum] =
      Source.writeVar program id datum >>= fun _ => pure (some datum) := by
  simp only [Source.evalNode, targets, Source.Eval.known, pure_bind, isIdentifier]

/-- There is room left behind the first of the two steps in which strings are compared. -/
theorem fits_compareStrings {middle : Place} {first second : Operand} (fit : place.Fit)
    (compares : middle = place.ready.define StringLibrary.orderingType fun result =>
      .call (some result) StringLibrary.equals [first, second]) : middle.Regular ∧ middle.Room 6 := by
  have safe : SafeOperation 2 fun place => place.ready.define StringLibrary.orderingType
      fun result => .call (some result) StringLibrary.equals [first, second] := .define _ fun _ => rfl
  rw [compares]
  exact ⟨safe.regular place 6 fit.regular fit.room, safe.room place 6 fit.room⟩

theorem follows_createString (linked : Linked program final) (hosted : Hosted final function frame)
    (stands : frame.Stands place) (fit : place.Fit)
    (agrees : Matches program final locals place.body.temps.size store frame memory) {text : String}
    {data : Code.DataId}
    (found : final.cursor.module.data.get? data = some ⟨data, Module.textBytes text⟩)
    (lasts : (place.define StringLibrary.stringType fun result =>
      .call (some result) StringLibrary.create [.data data]).Lasts function.body) :
    Follows final.cursor.module library
      (Source.evalNode program library call (.stringLiteral text) [] store) fuel
      ⟨frame :: callers, memory, serial⟩
      (Computed program final locals callers place (place.define StringLibrary.stringType fun result =>
        .call (some result) StringLibrary.create [.data data]) frame .string
        (some (.temp place.freshTemp))) := by
  have computed : [Operand.data data].mapM (frame.operand final.cursor.module) =
      .ok [.address (.data data)] := by
    simp [Frame.operand, Table.contains, found, bind, Except.bind, pure, Except.pure]
  refine follows_define stands fit.room agrees rfl
    (step_answered linked hosted stands StringLibrary.create_mem computed rfl ?_ lasts)
  simp [Library.answer?, found, Datum.value]

theorem follows_concat (linked : Linked program final) (hosted : Hosted final function frame)
    (stands : frame.Stands place) (fit : place.Fit)
    (agrees : Matches program final locals place.body.temps.size store frame memory)
    {first second : Operand} {left right : Option Nat}
    (leftDenotes : Denotes final.cursor.module frame place.body.temps.size first (.text left))
    (rightDenotes : Denotes final.cursor.module frame place.body.temps.size second (.text right))
    (lasts : (place.define StringLibrary.stringType fun result =>
      .call (some result) StringLibrary.concat [first, second]).Lasts function.body) :
    Follows final.cursor.module library (.ok (some (.text (library.concat left right)), store)) fuel
      ⟨frame :: callers, memory, serial⟩
      (Computed program final locals callers place (place.define StringLibrary.stringType fun result =>
        .call (some result) StringLibrary.concat [first, second]) frame .string
        (some (.temp place.freshTemp))) := by
  refine follows_define stands fit.room agrees rfl
    (step_answered linked hosted stands StringLibrary.concat_mem
      (mapM_operand (.cons leftDenotes (.cons rightDenotes .nil))) (argumentsFit_handles left right) ?_
      lasts)
  simp [Library.answer?, Datum.value, Source.handle?_handleValue, StringLibrary.concat,
    StringLibrary.create]

theorem follows_compareStrings (linked : Linked program final)
    (hosted : Hosted final function frame) (stands : frame.Stands place) (fit : place.Fit)
    (agrees : Matches program final locals place.body.temps.size store frame memory)
    {condition : Code.Condition} {first second : Operand} {left right : Option Nat}
    (leftDenotes : Denotes final.cursor.module frame place.body.temps.size first (.text left))
    (rightDenotes : Denotes final.cursor.module frame place.body.temps.size second (.text right))
    {middle : Place} (compares : middle = place.define StringLibrary.orderingType fun result =>
      .call (some result) StringLibrary.equals [first, second])
    (lasts : (middle.define .bool fun result => .compare result condition
      (.temp place.freshTemp) (.constant (.int 0 32))).Lasts function.body)
    (lastsMiddle : middle.Lasts function.body) :
    Follows final.cursor.module library
      (.ok (some (.truth (condition.holds (library.compare left right).toInt 0)), store)) fuel
      ⟨frame :: callers, memory, serial⟩
      (Computed program final locals callers place (middle.define .bool fun result =>
        .compare result condition (.temp place.freshTemp) (.constant (.int 0 32))) frame .boolean
        (some (.temp middle.freshTemp))) := by
  have answers : library.answer? final.cursor.module StringLibrary.equals
      [Source.handleValue left, Source.handleValue right] =
        some (.int 32 (library.compare left right).toInt) := by
    simp [Library.answer?, Source.handle?_handleValue, StringLibrary.concat, StringLibrary.create,
      StringLibrary.equals]
  rw [compares] at lastsMiddle
  let order : Value := .int 32 (library.compare left right).toInt
  have asks : Step final.cursor.module (library.surroundings final.cursor.module)
      ⟨frame :: callers, memory, serial⟩
      ⟨frame.advance (some (.temp place.freshTemp)) order :: callers, memory, serial⟩ :=
    step_answered linked hosted stands StringLibrary.equals_mem
      (mapM_operand (.cons leftDenotes (.cons rightDenotes .nil)))
      (argumentsFit_handles left right) answers lastsMiddle
  have between : Runs program final locals callers place middle frame store
      ⟨frame.advance (some (.temp place.freshTemp)) order :: callers, memory, serial⟩
      (frame.advance (some (.temp place.freshTemp)) order) := by
    rw [compares]
    exact runs_define fit.room stands agrees _ _ order
  have room : middle.Room 6 := by
    rw [compares]
    exact (fit.room.mono (by omega)).define _ _
  have decides : Step final.cursor.module (library.surroundings final.cursor.module)
      ⟨frame.advance (some (.temp place.freshTemp)) order :: callers, memory, serial⟩
      ⟨(frame.advance (some (.temp place.freshTemp)) order).advance (some (.temp middle.freshTemp))
        (Datum.truth (condition.holds (library.compare left right).toInt 0)).value :: callers, memory,
        serial⟩ := by
    refine step_define (hosted.later between.continues) between.stands lasts ?_
    have width : (32 : UInt16).toNat = 32 := rfl
    simp [State.execute, Frame.operand, Frame.advance, Value.ofConstant, Value.wrapped, width, order,
      bind, Except.bind, State.resume, Datum.value]
  refine ⟨2, _, .more asks (.one decides), _,
    between.trans (runs_define room between.stands between.agrees _ _ _) ?_,
    .something (denotes_fresh room _ _ _ _ _) rfl⟩
  rw [compares, temps_define]
  omega

theorem follows_emits (linked : Linked program final) {below : Nat}
    (calls : CallsFollow program final library call below) (enough : fuel ≤ below + 1)
    (hosted : Hosted final function frame) (stands : frame.Stands place) (fit : place.Fit)
    (agrees : Matches program final locals place.body.temps.size store frame memory)
    {node : ExprNode} {operands : List Operand} {value : Option Operand} {after : Place}
    (emits : Emits program final node operands place value after) {types : List Source.Ty}
    {ty : Source.Ty}
    (parts : ExprsTyped program (HasFunction program) locals (operandsOf node) types)
    (typed : NodeTyped program (HasFunction program) locals node types ty)
    (lasts : after.Lasts function.body)
    {data : List Datum}
    (denotes : List.Forall₂ (Denotes final.cursor.module frame place.body.temps.size) operands data)
    (dataTyped : DataTyped data types) :
    Follows final.cursor.module library (Source.evalNode program library call node data store) fuel
      ⟨frame :: callers, memory, serial⟩
      (Computed program final locals callers place after frame ty value) := by
  cases emits with
  | booleanLiteral =>
      cases typed
      cases denotes
      exact .pure ⟨frame, ⟨rfl, stands, agrees, .refl _ _⟩, .something (.constant rfl) rfl⟩
  | @integerLiteral number =>
      cases typed
      cases denotes
      exact .pure ⟨frame, ⟨rfl, stands, agrees, .refl _ _⟩,
        .something (.constant (Source.ofConstant_number number)) rfl⟩
  | @stringLiteral text data _ found =>
      cases typed
      cases denotes
      rw [stands.ready] at lasts ⊢
      exact follows_createString linked hosted stands fit agrees found lasts
  | identifier found stored =>
      cases typed with
      | identifier known visible =>
          cases denotes
          rw [found] at known
          cases known
          rw [stands.ready] at lasts ⊢
          exact follows_load linked hosted stands fit agrees found visible stored lasts
  | callNothing found _ returns =>
      cases typed with
      | call declared known params =>
          rw [stands.ready] at lasts ⊢
          refine (follows_call linked calls enough hosted stands agrees declared known params denotes
            dataTyped lasts).mono ?_
          intro result next state holds
          rcases holds with ⟨frames, agreesAfter, resultTyped⟩
          rw [linked.returns declared known found, isVoid_codeType] at returns
          rw [returns] at resultTyped ⊢
          cases result with
          | some datum => cases datum <;> cases resultTyped
          | none =>
              rcases state with ⟨_, globals, count⟩
              subst frames
              exact ⟨_, runs_add stands _ (agreesAfter.advance .void fun _ absurd => by cases absurd)
                (.advance frame .void fun _ absurd => by cases absurd) rfl rfl, .nothing rfl⟩
  | callValue found _ returns =>
      cases typed with
      | call declared known params =>
          rw [stands.ready] at lasts ⊢
          refine (follows_call linked calls enough hosted (stands.takeTemp _) agrees declared known
            params denotes dataTyped lasts).mono ?_
          intro result next state holds
          rcases holds with ⟨frames, agreesAfter, resultTyped⟩
          have valued : ¬ _ = Source.Ty.void := fun nothing => by
            rw [linked.returns declared known found, (isVoid_codeType _).mpr nothing] at returns
            cases returns
          cases result with
          | none => exact absurd resultTyped valued
          | some datum =>
              rcases state with ⟨_, globals, count⟩
              subst frames
              exact ⟨_, runs_define fit.room stands agreesAfter _ _ datum.value,
                .something (denotes_fresh fit.room _ _ _ frame datum) resultTyped⟩
  | negate =>
      cases typed
      rcases denotes with _ | ⟨denotes, _ | _⟩
      rcases dataTyped with _ | ⟨dataTyped, _ | _⟩
      rcases eq_number_of_hasType dataTyped with ⟨number, rfl⟩
      rw [stands.ready] at lasts ⊢
      refine follows_checked hosted stands fit agrees lasts ?_ (checksAlike_checked _ store)
      split <;> rename_i outcome <;>
        simp only [State.execute, denotes.value, Datum.value, Code.Ty.i64, bind, Except.bind,
          if_true, outcome]
  | assign targets isIdentifier stored =>
      cases typed with
      | @binary _ _ _ ty _ means => cases ty <;> cases means
      | assign known sameIdentifier found visible =>
          rw [targets] at known
          cases known
          rw [isIdentifier] at sameIdentifier
          cases sameIdentifier
          rcases denotes with _ | ⟨denotes, _ | _⟩
          rcases dataTyped with _ | ⟨dataTyped, _ | _⟩
          rw [stands.ready] at lasts ⊢
          rw [evalNode_assign targets isIdentifier]
          exact (follows_store linked hosted stands agrees found visible stored denotes dataTyped
            lasts).bind fun _ _ _ computed => .pure computed
  | arith found means =>
      rcases typed.operates parts found means with ⟨rfl, rfl⟩
      rcases denotes with _ | ⟨first, _ | ⟨second, _ | _⟩⟩
      rcases dataTyped with _ | ⟨leftTyped, _ | ⟨rightTyped, _ | _⟩⟩
      rcases operate_arith library means leftTyped rightTyped store with
        ⟨left, right, rfl, rfl, alike⟩
      rw [stands.ready] at lasts ⊢
      rw [evalNode_binary]
      refine follows_checked hosted stands fit agrees lasts ?_ alike
      split <;> rename_i outcome <;>
        simp only [State.execute, first.value, second.value, Datum.value, Code.Ty.i64, bind,
          Except.bind, and_self, if_true, outcome]
  | compare found means =>
      rcases typed.operates parts found means with ⟨rfl, rfl⟩
      rcases denotes with _ | ⟨first, _ | ⟨second, _ | _⟩⟩
      rcases dataTyped with _ | ⟨leftTyped, _ | ⟨rightTyped, _ | _⟩⟩
      rcases operate_compare library means leftTyped rightTyped store with
        ⟨comparable, evaluates⟩
      rw [stands.ready] at lasts ⊢
      rw [evalNode_binary, Source.Eval.map_eq_ok evaluates]
      exact follows_compare hosted stands fit agrees comparable first second leftTyped rightTyped
        lasts
  | concat found means =>
      rcases typed.operates parts found means with ⟨rfl, rfl⟩
      rcases denotes with _ | ⟨first, _ | ⟨second, _ | _⟩⟩
      rcases dataTyped with _ | ⟨leftTyped, _ | ⟨rightTyped, _ | _⟩⟩
      rcases operate_concat library means leftTyped rightTyped store with
        ⟨left, right, rfl, rfl, evaluates⟩
      rw [stands.ready] at lasts ⊢
      rw [evalNode_binary, Source.Eval.map_eq_ok evaluates]
      exact follows_concat linked hosted stands fit agrees first second lasts
  | @compareStrings _ _ _ _ _ _ _ _ middle found means compares =>
      rcases typed.operates parts found means with ⟨rfl, rfl⟩
      rcases denotes with _ | ⟨first, _ | ⟨second, _ | _⟩⟩
      rcases dataTyped with _ | ⟨leftTyped, _ | ⟨rightTyped, _ | _⟩⟩
      rcases operate_compareStrings library means leftTyped rightTyped store with
        ⟨left, right, rfl, rfl, evaluates⟩
      rw [evalNode_binary, Source.Eval.map_eq_ok evaluates]
      rcases fits_compareStrings fit compares with ⟨regularMiddle, roomMiddle⟩
      have lastsMiddle : middle.Lasts function.body :=
        lasts.of_within regularMiddle ((SafeOperation.define _ fun _ => rfl).within middle 4 roomMiddle)
      rw [stands.ready] at compares lasts ⊢
      have standsMiddle : (frame.advance none .void).Stands middle := by
        rw [compares]
        exact stands.define _ _ rfl rfl
      rw [standsMiddle.ready] at lasts ⊢
      exact follows_compareStrings linked hosted stands fit agrees first second compares lasts
        lastsMiddle

end Emitting

/-! ## Expressions -/

section Computing

variable {program : Program} {final : Session} {library : Library}
  {call : FunctionDecl → List Datum → Eval (Option Datum)} {fuel below : Nat} {locals : List VarId}
  {function : Function} {callers : List Frame}

def ComputedAll (program : Program) (final : Session) (locals : List VarId) (callers : List Frame)
    (place after : Place) (frame : Frame) (types : List Source.Ty) (operands : List Operand)
    (data : List Datum) (store : Store) (state : State) : Prop :=
  ∃ next, Runs program final locals callers place after frame store state next ∧
    List.Forall₂ (Denotes final.cursor.module next after.body.temps.size) operands data ∧
    DataTyped data types

theorem follows_values (linked : Linked program final)
    (calls : CallsFollow program final library call below) (enough : fuel ≤ below + 1)
    {depth : Nat} {ids : List ExprId} {place after : Place} {values : List Operand}
    (lowers : LowersValues program final depth ids place values after) :
    ∀ {types : List Source.Ty} {frame : Frame} {memory : GlobalId → Option Value} {serial : Nat}
      {store : Store} {deeper : Nat}, depth ≤ deeper →
      ExprsTyped program (HasFunction program) locals ids types →
      after.Regular → after.Lasts function.body → Hosted final function frame →
      frame.Stands place →
      Matches program final locals place.body.temps.size store frame memory →
      Follows final.cursor.module library
        (Source.evalOperands program library call deeper ids store) fuel
        ⟨frame :: callers, memory, serial⟩
        (ComputedAll program final locals callers place after frame types values) := by
  induction lowers with
  | nil =>
      intro types frame memory serial store deeper _ typed _ _ _ stands agrees
      cases typed
      exact .pure ⟨frame, ⟨rfl, stands, agrees, .refl _ _⟩, .nil, .nil⟩
  | cons found operands fit emits rest computes others =>
      intro types frame memory serial store deeper deep typed regular lasts hosted stands agrees
      cases typed with
      | cons known parts nodeTyped _ restTyped =>
          rw [found] at known
          cases known
          rcases deeper with _ | deeper
          · omega
          have emittedRegular := rest.regular regular
          have lastsEmitted := lasts.of_within emittedRegular rest.within
          have lastsReady := lastsEmitted.of_within fit.regular (emits.within fit)
          rw [Source.evalOperands_cons, Source.evalExprWithin_succ program library call found,
            bind_assoc]
          refine (computes (Nat.le_of_succ_le_succ deep) parts fit.regular lastsReady hosted stands
            agrees).bind fun data between state holds => ?_
          rcases holds with ⟨ready, toReady, denotes, dataTyped⟩
          rcases state with ⟨_, globals, count⟩
          cases toReady.frames
          refine (follows_emits linked calls enough (hosted.later toReady.continues) toReady.stands fit
            toReady.agrees emits parts nodeTyped lastsEmitted denotes dataTyped).bind
              fun value emitted state holds => ?_
          rcases holds with ⟨next, toNext, yields⟩
          rcases state with ⟨_, globals, count⟩
          cases toNext.frames
          cases yields with
          | something denotesValue valueTyped =>
              have toEmitted := toReady.trans toNext operands.within.size_le
              refine .bind_ok rfl ((others deep restTyped regular lasts
                (hosted.later toEmitted.continues) toNext.stands toNext.agrees).bind
                  fun data last state holds => ?_)
              rcases holds with ⟨last, toLast, restDenotes, restDataTyped⟩
              refine .pure ⟨last, toEmitted.trans toLast ?_, .cons ?_ restDenotes,
                .cons valueTyped restDataTyped⟩
              · exact (operands.within.andThen (emits.within fit)).size_le
              · exact denotesValue.later toLast.continues rest.within.size_le

theorem follows_expr (linked : Linked program final)
    (calls : CallsFollow program final library call below) (enough : fuel ≤ below + 1)
    {id : ExprId} {place after : Place} {value : Option Operand} {ty : Source.Ty}
    (lowers : LowersExpr program final id place value after)
    (typed : ExprTyped program (HasFunction program) locals id ty)
    (lasts : after.Lasts function.body) {frame : Frame}
    {memory : GlobalId → Option Value} {serial : Nat} {store : Store}
    (hosted : Hosted final function frame) (stands : frame.Stands place)
    (agrees : Matches program final locals place.body.temps.size store frame memory) :
    Follows final.cursor.module library (Source.evalExpr program library call id store) fuel
      ⟨frame :: callers, memory, serial⟩
      (Computed program final locals callers place after frame ty value) := by
  have deep : exprDepth program ≤ program.depth := by
    simp only [exprDepth, Program.depth, Program.nodeCount]
    omega
  unfold LowersExpr at lowers
  unfold Source.evalExpr
  cases typed with
  | intro known parts nodeTyped =>
      generalize exprDepth program = depth at lowers deep
      generalize program.depth = deeper at deep
      cases lowers with
      | intro found operands fit emits =>
          rw [found] at known
          cases known
          rcases deeper with _ | deeper
          · omega
          have lastsReady := lasts.of_within fit.regular (emits.within fit)
          rw [Source.evalExprWithin_succ program library call found]
          refine (follows_values linked calls enough operands (Nat.le_of_succ_le_succ deep) parts
            fit.regular lastsReady hosted stands agrees).bind fun data between state holds => ?_
          rcases holds with ⟨ready, toReady, denotes, dataTyped⟩
          rcases state with ⟨_, globals, count⟩
          cases toReady.frames
          refine (follows_emits linked calls enough (hosted.later toReady.continues) toReady.stands fit
            toReady.agrees emits parts nodeTyped lasts denotes dataTyped).mono
              fun value last state holds => ?_
          rcases holds with ⟨next, toNext, yields⟩
          exact ⟨next, toReady.trans toNext operands.within.size_le, yields⟩

end Computing

end ScriptLowering.Lowering
