import Mathlib.Data.List.Permutation
import ScriptLowering.Proofs.MachineSafety

/-! # Verified code does not get stuck

Soundness gives every instruction and every terminator what it works on, so that a sound
state always has a next event, and whatever the surroundings contribute to that event, the
run goes on in a sound state.
-/

namespace ScriptLowering.Code

/-- A step that is no breach and leads to sound states only. -/
def Proceeds (module : Module) (step : Except Breach Event) : Prop :=
  ∃ event, step = .ok event ∧ event.Keeps module (State.Sound module)

section Instructions

variable {module : Module} {state : State} {frame : Frame} {callers : List Frame}
  {function : Function} {definitions : Definitions} {block : Block}

theorem proceeds_alloca (sound : state.Sound module)
    (frameSound : frame.Sound module function definitions)
    (waits : Waits module callers function.signature.returns)
    (standing : function.body.block? frame.block = some block) {result : Operand} {ty : Ty}
    {align : UInt32}
    (here : block.instructions[frame.index]? = some (.alloca result ty align)) :
    Proceeds module (state.execute module frame callers (.alloca result ty align)) :=
  ⟨_, rfl, fun _ typed => sound.resume (frameSound.reserve standing here typed) waits⟩

theorem proceeds_load (sound : state.Sound module) (frames : state.frames = frame :: callers)
    (frameSound : frame.Sound module function definitions)
    (waits : Waits module callers function.signature.returns)
    (standing : function.body.block? frame.block = some block) {result address : Operand}
    {ty : Ty} (here : block.instructions[frame.index]? = some (.load result ty address))
    (use : frameSound.accepted.scene.checkUse frame.block (some frame.index) address = .ok ())
    (check : frameSound.accepted.scene.checkInstruction (.load result ty address) = .ok ()) :
    Proceeds module (state.execute module frame callers (.load result ty address)) := by
  simp only [Scene.checkInstruction] at check
  cases stored : frameSound.accepted.scene.stored? address with
  | none => simp [stored] at check
  | some content =>
      simp only [stored, require_eq_ok, decide_eq_true_eq] at check
      subst check
      rcases frameSound.operand use with ⟨target, evaluates, _⟩
      rcases read_sound sound frames frameSound stored evaluates with ⟨value, reads, typed⟩
      refine ⟨.goes (state.resume (frame.advance (some result) value) callers), ?_, ?_⟩
      · simp [State.execute, evaluates, reads, typed, bind, Except.bind]
      · exact sound.resume (frameSound.advanceTyped standing here (by simp) rfl typed) waits

theorem proceeds_store (sound : state.Sound module) (frames : state.frames = frame :: callers)
    (frameSound : frame.Sound module function definitions)
    (waits : Waits module callers function.signature.returns)
    (standing : function.body.block? frame.block = some block) {address value : Operand}
    (here : block.instructions[frame.index]? = some (.store address value))
    (use : ∀ operand ∈ [address, value],
      frameSound.accepted.scene.checkUse frame.block (some frame.index) operand = .ok ())
    (check : frameSound.accepted.scene.checkInstruction (.store address value) = .ok ()) :
    Proceeds module (state.execute module frame callers (.store address value)) := by
  simp only [Scene.checkInstruction] at check
  cases stored : frameSound.accepted.scene.stored? address with
  | none => simp [stored] at check
  | some ty =>
      simp only [stored, require_eq_ok] at check
      rcases frameSound.operand (use address (by simp)) with ⟨target, evaluates, _⟩
      rcases frameSound.operand (use value (by simp)) with ⟨content, given, typed⟩
      rcases read_sound sound frames frameSound stored evaluates with ⟨old, reads, _⟩
      have after : (frame.advance none .void).Sound module function definitions :=
        frameSound.advance standing here (by simp) (fun _ none => by cases none)
          (fun _ none => by cases none)
      refine ⟨.goes ((state.resume (frame.advance none .void) callers).write target content),
        ?_, ?_⟩
      · simp [State.execute, evaluates, given, reads, typed ty check, bind, Except.bind]
      · exact write_sound sound frameSound after rfl rfl waits stored evaluates
          (typed ty check)

theorem proceeds_arith (sound : state.Sound module)
    (frameSound : frame.Sound module function definitions)
    (waits : Waits module callers function.signature.returns)
    (standing : function.body.block? frame.block = some block) {op : ArithOp}
    {result left right : Operand} {ty : Ty}
    (here : block.instructions[frame.index]? = some (.arith op result left right ty))
    (use : ∀ operand ∈ [left, right],
      frameSound.accepted.scene.checkUse frame.block (some frame.index) operand = .ok ())
    (check : frameSound.accepted.scene.checkInstruction (.arith op result left right ty) =
      .ok ()) :
    Proceeds module (state.execute module frame callers (.arith op result left right ty)) := by
  simp only [Scene.checkInstruction, bind_unit_eq_ok, require_eq_ok, Bool.and_eq_true] at check
  rcases frameSound.operand (use left (by simp)) with ⟨leftValue, leftEvaluates, leftTyped⟩
  rcases frameSound.operand (use right (by simp)) with ⟨rightValue, rightEvaluates, rightTyped⟩
  cases ty with
  | int bits =>
      rcases Value.eq_int_of_hasType (leftTyped _ check.2.1) with ⟨leftNumber, rfl⟩
      rcases Value.eq_int_of_hasType (rightTyped _ check.2.2) with ⟨rightNumber, rfl⟩
      cases applies : op.apply bits leftNumber rightNumber with
      | none =>
          refine ⟨.traps, ?_, trivial⟩
          simp [State.execute, leftEvaluates, rightEvaluates, applies, bind, Except.bind]
      | some number =>
          refine ⟨.goes (state.resume (frame.advance (some result) (.int bits number))
            callers), ?_, ?_⟩
          · simp [State.execute, leftEvaluates, rightEvaluates, applies, bind, Except.bind]
          · exact sound.resume (frameSound.advanceTyped standing here (by simp) rfl
              (by simp [Value.hasType])) waits
  | _ => simp [Ty.isArithmetic] at check

theorem proceeds_negate (sound : state.Sound module)
    (frameSound : frame.Sound module function definitions)
    (waits : Waits module callers function.signature.returns)
    (standing : function.body.block? frame.block = some block) {result operand : Operand}
    {ty : Ty} (here : block.instructions[frame.index]? = some (.negate result operand ty))
    (use : frameSound.accepted.scene.checkUse frame.block (some frame.index) operand = .ok ())
    (check : frameSound.accepted.scene.checkInstruction (.negate result operand ty) =
      .ok ()) :
    Proceeds module (state.execute module frame callers (.negate result operand ty)) := by
  simp only [Scene.checkInstruction, require_eq_ok, Bool.and_eq_true] at check
  rcases frameSound.operand use with ⟨value, evaluates, typed⟩
  cases ty with
  | int bits =>
      rcases Value.eq_int_of_hasType (typed _ check.2) with ⟨number, rfl⟩
      cases negates : checked bits (-number) with
      | none =>
          refine ⟨.traps, ?_, trivial⟩
          simp [State.execute, evaluates, negates, bind, Except.bind]
      | some negated =>
          refine ⟨.goes (state.resume (frame.advance (some result) (.int bits negated))
            callers), ?_, ?_⟩
          · simp [State.execute, evaluates, negates, bind, Except.bind]
          · exact sound.resume (frameSound.advanceTyped standing here (by simp) rfl
              (by simp [Value.hasType])) waits
  | _ => simp [Ty.isArithmetic] at check

theorem proceeds_compare (sound : state.Sound module)
    (frameSound : frame.Sound module function definitions)
    (waits : Waits module callers function.signature.returns)
    (standing : function.body.block? frame.block = some block) {condition : Condition}
    {result left right : Operand}
    (here : block.instructions[frame.index]? = some (.compare result condition left right))
    (use : ∀ operand ∈ [left, right],
      frameSound.accepted.scene.checkUse frame.block (some frame.index) operand = .ok ())
    (check : frameSound.accepted.scene.checkInstruction
      (.compare result condition left right) = .ok ()) :
    Proceeds module (state.execute module frame callers
      (.compare result condition left right)) := by
  rcases frameSound.operand (use left (by simp)) with ⟨leftValue, leftEvaluates, leftTyped⟩
  rcases frameSound.operand (use right (by simp)) with ⟨rightValue, rightEvaluates, rightTyped⟩
  have after : ∀ truth,
      (state.resume (frame.advance (some result) (.bool truth)) callers).Sound module :=
    fun _ => sound.resume (frameSound.advanceTyped standing here (by simp) rfl rfl) waits
  simp only [Scene.checkInstruction] at check
  cases compared : frameSound.accepted.scene.comparedType? left right with
  | none => simp [compared] at check
  | some ty =>
      simp only [compared, bind_unit_eq_ok, require_eq_ok, Bool.and_eq_true] at check
      cases ty with
      | bool =>
          rcases Value.eq_bool_of_hasType (leftTyped _ check.2.1) with ⟨leftTruth, rfl⟩
          rcases Value.eq_bool_of_hasType (rightTyped _ check.2.2) with ⟨rightTruth, rfl⟩
          refine ⟨.goes _, ?_, after (condition.holds (Value.ofTruth leftTruth)
            (Value.ofTruth rightTruth))⟩
          simp [State.execute, leftEvaluates, rightEvaluates, bind, Except.bind]
      | int bits =>
          rcases Value.eq_int_of_hasType (leftTyped _ check.2.1) with ⟨leftNumber, rfl⟩
          rcases Value.eq_int_of_hasType (rightTyped _ check.2.2) with ⟨rightNumber, rfl⟩
          refine ⟨.goes _, ?_, after (condition.holds leftNumber rightNumber)⟩
          simp [State.execute, leftEvaluates, rightEvaluates, bind, Except.bind]
      | _ => simp [Ty.isInteger] at check

theorem proceeds_call (all : AllAccepted module) (sound : state.Sound module)
    (frameSound : frame.Sound module function definitions)
    (waits : Waits module callers function.signature.returns)
    (standing : function.body.block? frame.block = some block) {result : Option Operand}
    {callee : String} {args : List Operand}
    (here : block.instructions[frame.index]? = some (.call result callee args))
    (use : ∀ operand ∈ args,
      frameSound.accepted.scene.checkUse frame.block (some frame.index) operand = .ok ())
    (check : frameSound.accepted.scene.checkInstruction (.call result callee args) = .ok ()) :
    Proceeds module (state.execute module frame callers (.call result callee args)) := by
  simp only [Scene.checkInstruction] at check
  cases called : module.function? callee with
  | none => simp [called] at check
  | some target =>
      simp only [called, bind_unit_eq_ok, require_eq_ok, beq_iff_eq] at check
      rcases arguments_sound frameSound callee args target.signature.params check.1 use
        check.2.1 with ⟨values, evaluates, fits⟩
      cases starts : target.entry? with
      | none =>
          refine ⟨.calls callee values fun answer =>
            state.resume (frame.advance result answer) callers, ?_, ?_⟩
          · simp [State.execute, called, evaluates, fits, starts, bind, Except.bind]
          · intro answer typed
            have announced : (Instruction.call result callee args).resultType? module =
                some target.signature.returns := by
              simp [Instruction.resultType?, called]
            exact sound.resume (frameSound.advanceTyped standing here (by simp) announced
              (typed target called)) waits
      | some entry =>
          have defined : target.body.layout ≠ [] := by
            intro empty
            simp [Function.entry?, empty] at starts
          rcases all callee target called defined with ⟨targetDefinitions, accepted⟩
          have started := start_sound accepted called starts fits state.nextSerial
          refine ⟨.goes ⟨.start state.nextSerial callee entry values :: frame :: callers,
            state.globals, state.nextSerial + 1⟩, ?_, ⟨?_, sound.globals⟩⟩
          · simp [State.execute, called, evaluates, fits, starts, bind, Except.bind]
          · exact ⟨_, _, target, targetDefinitions, rfl, started,
              .cons frameSound standing here called waits⟩

end Instructions

/-! ## Terminators -/

section Terminators

variable {module : Module} {state : State} {frame : Frame} {callers : List Frame}
  {function : Function} {definitions : Definitions} {block : Block}

theorem proceeds_giveBack (sound : state.Sound module) {ty : Ty}
    (waits : Waits module callers ty) {value : Value} (typed : value.hasType ty = true) :
    Proceeds module (state.giveBack module value callers) := by
  cases waits with
  | nil => exact ⟨.returns value state.globals, rfl, trivial⟩
  | cons callerSound standing here found rest =>
      rename_i caller callers function target definitions block result callee args
      refine ⟨.goes (state.resume (caller.advance result value) callers), ?_, ?_⟩
      · simp [State.giveBack, callerSound.found, standing, here]
      · refine sound.resume (callerSound.advance standing here (by simp) ?_ ?_) rest
        · intro ty same
          simp only [Instruction.resultType?, found, Option.map_some, Option.some.injEq] at same
          subst same
          exact typed
        · intro _ _
          exact ⟨target.signature.returns, by simp [Instruction.resultType?, found]⟩

theorem proceeds_jump (sound : state.Sound module)
    (frameSound : frame.Sound module function definitions)
    (waits : Waits module callers function.signature.returns)
    (standing : function.body.block? frame.block = some block)
    (atEnd : block.instructions[frame.index]? = none) {target : BlockId}
    (edge : target ∈ block.successors) :
    (function.body.block? target).isSome = true ∧
      (state.resume (frame.jump target) callers).Sound module := by
  have after := frameSound.jump standing atEnd edge
  rcases after.accepted.find after.reached with ⟨next, found, _⟩
  refine ⟨?_, sound.resume after waits⟩
  change function.body.block? target = some next at found
  rw [found]
  rfl

theorem proceeds_leave (sound : state.Sound module)
    (frameSound : frame.Sound module function definitions)
    (waits : Waits module callers function.signature.returns)
    (standing : function.body.block? frame.block = some block)
    (atEnd : block.instructions[frame.index]? = none)
    (use : ∀ operand ∈ block.terminator.operands,
      frameSound.accepted.scene.checkUse frame.block none operand = .ok ())
    (check : frameSound.accepted.scene.checkTerminator block.terminator = .ok ()) :
    Proceeds module (state.leave module function frame callers block.terminator) := by
  have reaches : ∀ target, target ∈ block.terminator.successors →
      (function.body.block? target).isSome = true ∧
        (state.resume (frame.jump target) callers).Sound module :=
    fun target edge => proceeds_jump sound frameSound waits standing atEnd edge
  cases ends : block.terminator with
  | jump target =>
      rcases reaches target (by simp [ends, Terminator.successors]) with ⟨known, after⟩
      exact ⟨.goes (state.resume (frame.jump target) callers), by simp [State.leave, known],
        after⟩
  | branch condition thenBlock elseBlock =>
      rw [ends] at use check
      simp only [Scene.checkTerminator, require_eq_ok] at check
      rcases frameSound.operand (frameSound.checkUse_atEnd standing atEnd
        (use condition (by simp [Terminator.operands]))) with ⟨value, evaluates, typed⟩
      rcases Value.eq_bool_of_hasType (typed _ check) with ⟨truth, rfl⟩
      rcases reaches (if truth then thenBlock else elseBlock) (by
        cases truth <;> simp [ends, Terminator.successors]) with ⟨known, after⟩
      refine ⟨.goes (state.resume (frame.jump (if truth then thenBlock else elseBlock))
        callers), ?_, after⟩
      simp [State.leave, evaluates, known, bind, Except.bind]
  | ret result =>
      rw [ends] at use check
      cases result with
      | none =>
          simp only [Scene.checkTerminator, require_eq_ok] at check
          have typed : Value.void.hasType function.signature.returns = true := by
            cases returns : function.signature.returns with
            | void => rfl
            | _ => simp [returns, Ty.isVoid] at check
          simp only [State.leave, bind, Except.bind, typed, if_true]
          exact proceeds_giveBack sound waits typed
      | some operand =>
          simp only [Scene.checkTerminator, bind_unit_eq_ok, require_eq_ok] at check
          rcases frameSound.operand (frameSound.checkUse_atEnd standing atEnd
            (use operand (by simp [Terminator.operands]))) with ⟨value, evaluates, typed⟩
          simp only [State.leave, bind, Except.bind, evaluates, typed _ check.2, if_true]
          exact proceeds_giveBack sound waits (typed _ check.2)
  | unfinished =>
      rw [ends] at check
      simp [Scene.checkTerminator] at check

end Terminators

/-! ## Steps and runs -/

theorem proceeds_execute {module : Module} {state : State} {frame : Frame}
    {callers : List Frame} {function : Function} {definitions : Definitions} {block : Block}
    (all : AllAccepted module) (sound : state.Sound module)
    (frames : state.frames = frame :: callers)
    (frameSound : frame.Sound module function definitions)
    (waits : Waits module callers function.signature.returns)
    (standing : function.body.block? frame.block = some block) {instruction : Instruction}
    (here : block.instructions[frame.index]? = some instruction)
    (use : ∀ operand ∈ instruction.operands,
      frameSound.accepted.scene.checkUse frame.block (some frame.index) operand = .ok ())
    (check : frameSound.accepted.scene.checkInstruction instruction = .ok ()) :
    Proceeds module (state.execute module frame callers instruction) := by
  cases instruction with
  | alloca => exact proceeds_alloca sound frameSound waits standing here
  | load result ty address =>
      exact proceeds_load sound frames frameSound waits standing here
        (use address (by simp [Instruction.operands])) check
  | store => exact proceeds_store sound frames frameSound waits standing here use check
  | arith => exact proceeds_arith sound frameSound waits standing here use check
  | negate result operand ty =>
      exact proceeds_negate sound frameSound waits standing here
        (use operand (by simp [Instruction.operands])) check
  | compare => exact proceeds_compare sound frameSound waits standing here use check
  | call => exact proceeds_call all sound frameSound waits standing here use check

theorem proceeds_next {module : Module} {state : State} (all : AllAccepted module)
    (sound : state.Sound module) : Proceeds module (state.next module) := by
  rcases sound.running with ⟨frame, callers, function, definitions, frames, frameSound, waits⟩
  rcases frameSound.accepted.find frameSound.reached with ⟨block, standing, laidOut, named⟩
  have checks := Scene.checkBlock_eq_ok.mp (frameSound.accepted.checked block laidOut)
  rw [named] at checks
  cases here : block.instructions[frame.index]? with
  | some instruction =>
      have steps : state.next module = state.execute module frame callers instruction := by
        simp [State.next, frames, frameSound.found, standing, here]
      rw [steps]
      have check := checks.1 frame.index instruction here
      exact proceeds_execute all sound frames frameSound waits standing here check.1 check.2
  | none =>
      have steps : state.next module =
          state.leave module function frame callers block.terminator := by
        simp [State.next, frames, frameSound.found, standing, here]
      rw [steps]
      exact proceeds_leave sound frameSound waits standing here checks.2.1 checks.2.2

/-- Surroundings that keep to the types which the code announces. -/
structure Surroundings.Typed (module : Module) (surroundings : Surroundings) : Prop where
  answers : ∀ callee target args value, module.function? callee = some target →
    surroundings.answers callee args value →
      value.hasType target.signature.returns = true
  contents : ∀ ty value, surroundings.contents ty value → value.hasType ty = true

theorem Step.sound {module : Module} {surroundings : Surroundings} {state next : State}
    (typed : surroundings.Typed module) (all : AllAccepted module)
    (step : Step module surroundings state next) (sound : state.Sound module) :
    next.Sound module := by
  rcases proceeds_next all sound with ⟨event, happens, keeps⟩
  cases step with
  | goes goes =>
      rw [goes] at happens
      cases happens
      exact keeps
  | answered calls answer =>
      rw [calls] at happens
      cases happens
      exact keeps _ fun target found => typed.answers _ target _ _ found answer
  | reserved reserves content =>
      rw [reserves] at happens
      cases happens
      exact keeps _ (typed.contents _ _ content)

theorem Run.sound {module : Module} {surroundings : Surroundings} {first last : State}
    (typed : surroundings.Typed module) (all : AllAccepted module)
    (run : Run module surroundings first last) (sound : first.Sound module) :
    last.Sound module := by
  induction run with
  | refl => exact sound
  | tail _ step induction => exact step.sound typed all induction

/-- Every global of the module holds a value of its type. -/
def Module.GlobalsTyped (module : Module) (globals : GlobalId → Option Value) : Prop :=
  ∀ id global, module.global? id = some global →
    ∃ value, globals id = some value ∧ value.hasType global.ty = true

theorem Module.initialGlobals_typed {module : Module} (verified : module.verify = .ok ()) :
    module.GlobalsTyped module.initialGlobals := by
  intro id global found
  have fits := ((Module.verify_eq_ok.mp verified).1 id global found).1
  exact ⟨.ofConstant global.initial, by simp [initialGlobals, found],
    Value.hasType_ofConstant fits⟩

/-- No run of a defined function of a verified module comes to a breach. -/
theorem verified_runs_without_breach {module : Module} (represented : module.Represented)
    (verified : module.verify = .ok ()) {surroundings : Surroundings}
    (typed : surroundings.Typed module) {name : String} {function : Function}
    (found : module.function? name = some function) {entry : BlockId}
    (starts : function.entry? = some entry) {args : List Value}
    (fits : State.argumentsFit args function.signature.params = true)
    {globals : GlobalId → Option Value} (globalsTyped : module.GlobalsTyped globals)
    {state : State} (run : Run module surroundings (.call name entry args globals) state) :
    ∃ event, state.next module = .ok event := by
  have all : AllAccepted module :=
    fun _ _ known defined => accepted_of_verify represented verified known defined
  have defined : function.body.layout ≠ [] := by
    intro empty
    simp [Function.entry?, empty] at starts
  rcases all name function found defined with ⟨definitions, accepted⟩
  have started : (State.call name entry args globals).Sound module :=
    ⟨⟨_, [], function, definitions, rfl, start_sound accepted found starts fits 0, .nil _⟩,
      globalsTyped⟩
  rcases proceeds_next all (run.sound typed all started) with ⟨event, happens, _⟩
  exact ⟨event, happens⟩

/-! A function that waits in a loop for what another one, only declared, answers. -/

def clockFunction : Function :=
  .declared ⟨"clock", [], .i64⟩ .exported

/-- It asks for the time again and again until the time is up. -/
def waitFunction : Function where
  signature := ⟨"wait", [⟨"limit", .i64⟩], .i64⟩
  linkage := .exported
  body := {
    blocks := .ofList [
      (⟨0⟩, ⟨⟨0⟩, "entry", [
        .alloca (.temp ⟨0⟩) .i64 8,
        .store (.temp ⟨0⟩) (.ofInt64 0)], .jump ⟨1⟩⟩),
      (⟨1⟩, ⟨⟨1⟩, "loop", [
        .call (some (.temp ⟨1⟩)) "clock" [],
        .store (.temp ⟨0⟩) (.temp ⟨1⟩),
        .compare (.temp ⟨2⟩) .lessThan (.temp ⟨1⟩) (.param ⟨0⟩)],
        .branch (.temp ⟨2⟩) ⟨1⟩ ⟨2⟩⟩),
      (⟨2⟩, ⟨⟨2⟩, "end", [
        .load (.temp ⟨3⟩) .i64 (.temp ⟨0⟩)], .ret (some (.temp ⟨3⟩))⟩)]
    layout := [⟨0⟩, ⟨1⟩, ⟨2⟩]
    temps := #[.ptr, .i64, .bool, .i64]
    nextBlock := 3 }

def waitModule : Module :=
  { Module.empty "wait" with
    functions := .ofList [("clock", clockFunction), ("wait", waitFunction)] }

theorem clockFunction_represented : clockFunction.Represented waitModule where
  indexed := {
    distinct := List.nodup_nil
    known := fun _ member => by cases member
    named := fun _ _ found => by cases found }
  results := fun _ _ found => by cases found

theorem waitFunction_represented : waitFunction.Represented waitModule := by
  have laidOut : ∀ id block, waitFunction.body.block? id = some block →
      block.id = id ∧ block ∈ waitFunction.body.laidOut := by
    intro id block found
    have member := (Table.get?_ofList (by decide)).mp found
    simp only [List.mem_cons, List.not_mem_nil, or_false, Prod.mk.injEq] at member
    rcases member with ⟨rfl, rfl⟩ | ⟨rfl, rfl⟩ | ⟨rfl, rfl⟩ <;> exact ⟨rfl, by decide⟩
  refine ⟨⟨by decide, ?_, fun id block found => (laidOut id block found).1⟩, ?_⟩
  · intro id member
    simp only [waitFunction, List.mem_cons, List.not_mem_nil, or_false] at member
    rcases member with rfl | rfl | rfl <;> exact ⟨_, rfl⟩
  · intro id block found
    have recorded : ∀ block ∈ waitFunction.body.laidOut, ∀ instruction ∈ block.instructions,
        ∀ result ∈ instruction.result?, ∃ temp ∈ result.asTemp?,
          instruction.resultType? waitModule = waitFunction.body.tempType? temp := by
      decide
    intro instruction member result same
    have fits := recorded block (laidOut id block found).2 instruction member result same
    rcases fits with ⟨temp, isTemp, sameType⟩
    cases result with
    | temp other =>
        cases isTemp
        exact ⟨temp, rfl, fun ty produced => sameType ▸ produced⟩
    | _ => cases isTemp

theorem waitModule_represented : waitModule.Represented := by
  intro name function found
  have member := (Table.get?_ofList (by decide)).mp found
  simp only [List.mem_cons, List.not_mem_nil, or_false, Prod.mk.injEq] at member
  rcases member with ⟨_, rfl⟩ | ⟨_, rfl⟩
  · exact clockFunction_represented
  · exact waitFunction_represented

/-- Surroundings that contribute whatever has the right type. -/
def Surroundings.ofModule (module : Module) : Surroundings where
  answers callee _ value := ∀ target, module.function? callee = some target →
    value.hasType target.signature.returns = true
  contents ty value := value.hasType ty = true

theorem Surroundings.ofModule_typed (module : Module) :
    (Surroundings.ofModule module).Typed module where
  answers _ target _ _ found answer := answer target found
  contents _ _ content := content

/-- A run that has reserved its slot and is about to write to it. -/
theorem waitModule_runs_without_breach : ∃ state,
    Run waitModule (.ofModule waitModule)
      (.call "wait" ⟨0⟩ [.int 64 10] waitModule.initialGlobals) state ∧
    state.frames.map Frame.index = [1] ∧ ∃ event, state.next waitModule = .ok event := by
  have verified : waitModule.verify = .ok () := by cbv
  have run : Run waitModule (.ofModule waitModule)
      (.call "wait" ⟨0⟩ [.int 64 10] waitModule.initialGlobals) _ :=
    .single (.reserved rfl (show (Value.int 64 3).hasType .i64 = true from rfl))
  have found : waitModule.function? "wait" = some waitFunction := rfl
  refine ⟨_, run, rfl, ?_⟩
  exact verified_runs_without_breach waitModule_represented verified
    (Surroundings.ofModule_typed waitModule) found rfl (by decide)
    (Module.initialGlobals_typed verified) run

end ScriptLowering.Code
