import ScriptLowering.Proofs.ControlRuns

/-! # Running functions

A call copies the arguments into slots, which are the parameters from then on, and runs the body.
That the machine follows calls is an induction on the fuel: a body calls with less of it.
-/

namespace ScriptLowering.Lowering

open Source (Program Stmt StmtId VarId VarDecl FuncId FunctionDecl Datum Store Eval Flow Library
  Follows)
open Code (BlockId Frame Function GlobalId Operand Place State Step Takes Value)

/-! ## Parameters -/

/-- The parameter at `index` is a local variable that holds the argument there. -/
structure ParamHolds (program : Program) (data : List Datum) (store : Store) (id : VarId)
    (index : Nat) (decl : VarDecl) (datum : Datum) : Prop where
  found : program.var? id = some decl
  isLocal : decl.scope = .local
  notVoid : decl.ty ≠ .void
  given : data[index]? = some datum
  typed : datum.hasType decl.ty = true
  holds : store.locals id = some datum

section Params

variable {program : Program} {final : Session} {library : Library} {locals : List VarId}
  {function : Function} {callers : List Frame} {frame : Frame} {memory : GlobalId → Option Value}
  {serial : Nat} {store : Store} {place after : Place} {data : List Datum}

theorem Store.setLocal_self {id : VarId} {datum : Datum} (holds : store.locals id = some datum) :
    store.setLocal id datum = store := by
  cases store with
  | mk globals locals =>
      simp only [Store.setLocal, Store.mk.injEq, true_and]
      funext other
      by_cases same : id = other
      · subst same
        simpa using holds.symm
      · simp [same]

theorem LowersParams.within {params : List (VarId × Nat)}
    (lowers : LowersParams program final params place after) :
    place.Within place.body.nextBlock.toNat after := by
  induction lowers with
  | nil => exact .refl _ _
  | cons _ fit reserves _ _ rest =>
      subst reserves
      exact Place.Within.andThen (.andThen
        (by exact (SafeOperation.define _ fun _ => rfl).within _ 6 fit.room)
        ((SafeOperation.add rfl).within _ 5 (fit.room.ready.define _ _))) rest

theorem LowersParams.regular {params : List (VarId × Nat)}
    (lowers : LowersParams program final params place after) (regular : after.Regular) :
    place.Regular := by
  cases lowers with
  | nil => exact regular
  | cons _ fit => exact fit.regular

theorem LowersParams.follows (linked : Linked program final) {ids : List VarId} {index fuel : Nat}
    (lowers : LowersParams program final (ids.zipIdx index) place after)
    (args : frame.args = data.map Datum.value)
    (holds : ∀ id position, (id, position) ∈ ids.zipIdx index → ∃ decl datum,
      ParamHolds program data store id position decl datum)
    (enough : index ≤ place.body.temps.size) (regular : after.Regular)
    (lasts : after.Lasts function.body) (hosted : Hosted final function frame)
    (stands : frame.Stands place)
    (agrees : Matches program final locals place.body.temps.size store frame memory) :
    Follows final.cursor.module library (.ok ((), store)) fuel ⟨frame :: callers, memory, serial⟩
      fun _ last state => last = store ∧
        ∃ next, Runs program final (ids.reverse ++ locals) callers place after frame store state
          next := by
  induction ids generalizing index locals place frame memory serial with
  | nil =>
      cases lowers with
      | nil => exact .pure ⟨rfl, frame, rfl, stands, agrees, .refl _ _⟩
  | cons id ids induction =>
      cases lowers with
      | @cons _ _ _ decl _ slotted _ found fit reserves known rest =>
          rcases holds id index (by simp) with ⟨other, datum, held⟩
          have same := held.found
          rw [found] at same
          cases same
          rw [stands.ready] at reserves known rest
          have regularNext := rest.regular regular
          have number : index.toUInt32.toNat = index := by
            have := fit.room.2
            simp only [Nat.toUInt32, UInt32.toNat_ofNat']
            omega
          have denotes : Denotes final.cursor.module frame place.body.temps.size
              (.param ⟨index.toUInt32⟩) datum := by
            refine ⟨?_, fun temp isTemp => by cases isTemp⟩
            simp only [Frame.operand, number, args, List.getElem?_map, held.given, Option.map_some]
          have fills : Follows final.cursor.module library
              (.ok ((), store.setLocal id datum)) fuel ⟨frame :: callers, memory, serial⟩ _ :=
            follows_fill linked hosted stands fit agrees found held.notVoid held.isLocal known
              denotes held.typed reserves (lasts.of_within regularNext rest.within)
          rw [Store.setLocal_self held.holds] at fills
          rcases fills with ⟨count, state, takes, next, first⟩
          rcases state with ⟨_, globals, nextSerial⟩
          cases first.frames
          have grows : place.body.temps.size + 1 ≤ (slotted.ready.add
              (.store (.temp place.freshTemp) (.param ⟨index.toUInt32⟩))).body.temps.size := by
            have room : slotted.Room 7 := by
              rw [reserves]
              exact fit.room.define _ _
            have size : slotted.body.temps.size = place.body.temps.size + 1 := by
              rw [reserves, temps_define]
            rw [← size]
            exact ((SafeOperation.add rfl).within slotted 6 room).size_le
          have others : ∀ other position, (other, position) ∈ ids.zipIdx (index + 1) →
              ∃ decl datum, ParamHolds program data store other position decl datum :=
            fun other position member => holds other position (List.mem_cons_of_mem _ member)
          apply Follows.after takes
          apply (induction rest (first.continues.args.trans args) others (by omega)
            (hosted.later first.continues) first.stands first.agrees).mono
          rintro _ last state ⟨same, last, second⟩
          have order : (id :: ids).reverse ++ locals = ids.reverse ++ (id :: locals) := by simp
          rw [order]
          exact ⟨same, last, { second with
            continues := first.continues.trans second.continues (by omega) }⟩

end Params

/-! ## Bodies -/

theorem bindParams_of_getElem? {params : List VarId} {data : List Datum} (distinct : params.Nodup)
    {index : Nat} {id : VarId} {datum : Datum} (param : params[index]? = some id)
    (given : data[index]? = some datum) : Source.bindParams params data id = some datum := by
  induction params generalizing data index with
  | nil => cases param
  | cons head tail induction =>
      rcases data with _ | ⟨first, rest⟩
      · cases given
      rw [List.nodup_cons] at distinct
      cases index with
      | zero =>
          cases param
          cases given
          simp [Source.bindParams]
      | succ index =>
          have different : head ≠ id := by
            intro same
            subst same
            exact distinct.1 (List.mem_of_getElem? param)
          simp only [Source.bindParams, if_neg different]
          exact induction distinct.2 param given

theorem stands_start (serial : Nat) (name : String) (args : List Value) :
    (Frame.start serial name ⟨0⟩ args).Stands (Place.mk .empty none).opened := by
  refine ⟨by decide, rfl, .empty ⟨0⟩ "entry", rfl, rfl⟩

/-- A function whose body is what has been lowered. -/
structure Realizes (program : Program) (final : Session) (decl : FunctionDecl)
    (function : Function) (place : Place) : Prop where
  found : final.cursor.module.function? decl.name = some function
  body : function.body = place.pruned.body
  lowers : LowersFunction program final decl place
  closed : function.body.Closed
  returns : function.signature.returns = returnType decl.returns

/-- Every function of the program has been lowered. -/
structure Realized (program : Program) (final : Session) : Prop where
  linked : Linked program final
  functions : ∀ id ∈ functionsOf (walkProgram program), ∀ decl, program.function? id = some decl →
    decl.params.Nodup ∧ FunctionTyped program (HasFunction program) decl ∧
      ∃ function place, Realizes program final decl function place

section Calls

variable {program : Program} {final : Session} {library : Library}

theorem paramHolds_of_call {decl : FunctionDecl} {types : List Source.Ty} {data : List Datum}
    (distinct : decl.params.Nodup)
    (params : decl.params.map (fun param => (program.var? param).map VarDecl.ty) =
      types.map some) (typed : DataTyped data types)
    (areLocal : ∀ param ∈ decl.params, ∃ var, program.var? param = some var ∧
      var.scope = .local ∧ var.ty ≠ .void) (globals : VarId → Datum) {id : VarId} {index : Nat}
    (member : (id, index) ∈ decl.params.zipIdx 0) :
    ∃ var datum, ParamHolds program data ⟨globals, Source.bindParams decl.params data⟩ id index var
      datum := by
  have isParam : decl.params[index]? = some id := by
    simpa [List.mem_zipIdx_iff_getElem?] using member
  rcases areLocal id (List.mem_of_getElem? isParam) with ⟨var, found, isLocal, notVoid⟩
  have isType : (types.map some)[index]? = some (some var.ty) := by
    rw [← params, List.getElem?_map, isParam]
    simp [found]
  have foundType : types[index]? = some var.ty := by simpa using isType
  rcases List.getElem?_eq_some_iff.mp foundType with ⟨typeBound, isTy⟩
  have dataBound : index < data.length := by
    rw [typed.length_eq]
    exact typeBound
  have hasType := List.Forall₂.get typed dataBound typeBound
  have given : data[index]? = some data[index] := List.getElem?_eq_getElem dataBound
  simp only [List.get_eq_getElem, isTy] at hasType
  exact ⟨var, data[index], found, isLocal, notVoid, given, hasType,
    bindParams_of_getElem? distinct isParam given⟩

theorem lasts_of_body {function : Function} {place : Place}
    (body : function.body = place.pruned.body) : place.Lasts function.body := by
  rw [body]
  exact .pruned

theorem not_stands_of_closed {function : Function} {place : Place} {frame : Frame}
    (body : function.body = place.pruned.body) (closed : function.body.Closed) :
    ¬ frame.Stands place := by
  intro stands
  rcases stands.found with ⟨block, member, found, unfinished, _⟩
  have stillFound : function.body.block? frame.block = some block := by
    rw [body]
    exact (Place.block?_prune_of_mem member).trans found
  have laidOut : frame.block ∈ function.body.layout := by
    rw [body]
    exact member
  have finished := closed.finished frame.block laidOut block stillFound
  rw [unfinished] at finished
  cases finished

theorem Runs.returnsIfLive {locals : List VarId} {callers : List Frame} {place ended : Place}
    {frame next : Frame} {store : Store} {state : State} {function : Function} {ty : Source.Ty}
    {result : Option Operand} {value : Option Datum}
    (runs : Runs program final locals callers place ended frame store state next)
    (hosted : Hosted final function next)
    (lasts : (ended.returnIfLive result).Lasts function.body)
    (returns : function.signature.returns = codeType ty)
    (denotes : ∀ operand, result = some operand →
      next.operand final.cursor.module operand = .ok (Source.resultValue value))
    (nothing : result = none → value = none) (typed : ResultTyped ty value) :
    Returns program final callers ty value store state := by
  refine ⟨?_, runs.agrees.globals, typed⟩
  have fits : (Source.resultValue value).hasType function.signature.returns = true := by
    rw [returns]
    cases value with
    | none =>
        rw [show ty = .void from typed]
        rfl
    | some datum => exact Datum.hasType_value typed
  rw [Place.returnIfLive, if_pos runs.stands.live] at lasts
  rw [runs.stands.next_terminate rfl lasts hosted.found runs.frames]
  cases result with
  | none =>
      cases nothing rfl
      have fitsVoid : Value.void.hasType function.signature.returns = true := fits
      simp [State.leave, Source.resultValue, bind, Except.bind, fitsVoid]
  | some operand => simp [State.leave, denotes operand rfl, bind, Except.bind, fits]

theorem returns_eq_void {decl : FunctionDecl} (nothing : decl.returnsNothing = true) :
    decl.returns.getD .void = .void := by
  simp only [Source.FunctionDecl.returnsNothing, Bool.or_eq_true, decide_eq_true_eq] at nothing
  rcases nothing with none | void
  · rw [none]; rfl
  · rw [void]; rfl

theorem Flows.returns {decl : FunctionDecl} {locals declared : List VarId} {callers : List Frame}
    {place ended : Place} {frame : Frame} {flow : Flow} {store : Store} {state : State}
    {function : Function}
    (flows : Flows program final (decl.returns.getD .void) [] locals declared callers place ended
      frame flow store state)
    (hosted : Hosted final function frame)
    (body : function.body =
      (if decl.returnsNothing then ended.returnIfLive none else ended).pruned.body)
    (returns : function.signature.returns = returnType decl.returns) :
    ∃ value, flow.result decl = .ok value ∧
      Returns program final callers (decl.returns.getD .void) value store state := by
  cases flows with
  | normal runs =>
      have later := hosted.later runs.continues
      have lasts := lasts_of_body body
      cases nothing : decl.returnsNothing with
      | false =>
          simp only [nothing, Bool.false_eq_true, if_false] at body
          exact absurd runs.stands (not_stands_of_closed body hosted.closed)
      | true =>
          simp only [nothing, if_true] at lasts
          refine ⟨none, by simp [Flow.result, nothing], ?_⟩
          exact runs.returnsIfLive later lasts returns (fun _ absurd => by cases absurd)
            (fun _ => rfl) (returns_eq_void nothing)
  | departs departs =>
      cases departs with
      | broke encloses => cases encloses
      | continued encloses => cases encloses
      | returned gives => exact ⟨_, rfl, gives⟩

/-- The machine follows a call if it follows the calls inside of it. -/
theorem follows_function (realized : Realized program final) {fuel : Nat}
    (calls : CallsFollow program final library (Source.runFunction program library fuel) fuel) :
    CallsFollow program final library (Source.runFunction program library (fuel + 1))
      (fuel + 1) := by
  intro id decl types data store frame callers memory serial result declared found params typed
    globals gives
  rcases realized.functions id declared decl found with
    ⟨distinct, functionTyped, function, place, realizes⟩
  rcases functionTyped with ⟨areLocal, foundBody, bodyTyped⟩
  rcases realizes with ⟨foundFunction, body, lowers, closed, returns⟩
  cases lowers with
  | @intro depth node entered ended bound lowersParams otherFound lowersBody fit =>
      rw [foundBody] at otherFound
      cases otherFound
      have lastsEnded : ended.Lasts function.body := by
        have lasts := lasts_of_body body
        split at lasts
        · exact lasts.of_within fit.regular (Place.within_returnIfLive _ _ _)
        · exact lasts
      have regularEntered := lowersBody.regular fit.regular
      have hosted : Hosted final function
          (.start serial decl.name ⟨0⟩ (data.map Datum.value)) := ⟨foundFunction, closed⟩
      have agrees : Matches program final [] (Place.mk .empty none).opened.body.temps.size
          ⟨store.globals, Source.bindParams decl.params data⟩
          (.start serial decl.name ⟨0⟩ (data.map Datum.value)) memory :=
        ⟨globals, fun _ => 0, fun _ member => (by cases member), fun _ member => by cases member⟩
      have filled : Follows final.cursor.module library _ (fuel + 1)
          ⟨.start serial decl.name ⟨0⟩ (data.map Datum.value) :: frame :: callers, memory,
            serial + 1⟩ _ :=
        lowersParams.follows realized.linked rfl
          (fun _ _ => paramHolds_of_call distinct params typed areLocal store.globals)
          (Nat.zero_le _) regularEntered (lastsEnded.of_within regularEntered lowersBody.within)
          hosted (stands_start _ _ _) agrees
      rcases filled with ⟨count, state, takes, _, next, runs⟩
      rcases state with ⟨_, memory, serial⟩
      cases runs.frames
      have seen : Runs program final decl.params (frame :: callers) _ entered _ _ _ next :=
        runs.fewer fun _ member => by simpa using member
      have begins : Begins program final function (decl.returns.getD .void) decl.params entered next
          ⟨store.globals, Source.bindParams decl.params data⟩ memory :=
        ⟨hosted.later runs.continues, returns, seen.stands, seen.agrees⟩
      have deep : depth ≤ 2 * program.nodeCount + 1 := by
        simp only [stmtDepth] at bound
        omega
      have bodyFollows := lowersBody.follows realized.linked calls (Nat.le_refl (fuel + 1)) _ _ [] _
        _ (frame :: callers) next memory serial _ deep bodyTyped fit.regular lastsEnded begins
      rw [← evalStmtWithin_succ foundBody] at bodyFollows
      apply Follows.after takes
      apply Follows.andThen bodyFollows
      intro flow after state flows
      rcases flows.returns (hosted.later runs.continues) body returns with ⟨value, ends, returning⟩
      simp only [ends]
      have step : Step final.cursor.module (library.surroundings final.cursor.module) state
          (state.resume (frame.advance result (Source.resultValue value)) callers) :=
        .goes (returning.gives.trans (gives _ _))
      exact ⟨1, _, .one step, rfl, returning.globals, rfl, returning.typed⟩

/-- The machine follows all calls. -/
theorem callsFollow (realized : Realized program final) (fuel : Nat) :
    CallsFollow program final library (Source.runFunction program library fuel) fuel := by
  induction fuel with
  | zero =>
      intro id decl types data store frame callers memory serial result _ _ _ _ _ _
      exact ⟨0, _, Nat.le_refl _, .none⟩
  | succ fuel induction => exact follows_function realized induction

end Calls

end ScriptLowering.Lowering
