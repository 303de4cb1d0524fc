import ScriptLowering.Proofs.ProgramEvaluation
import ScriptLowering.Proofs.Machine

/-! # Code that follows an evaluation

The machine follows an evaluation if it comes to wherever the evaluation ends: to the same
result, or to a trap where the evaluation traps. Where the evaluation runs out of fuel, the
machine keeps running for as many steps as there was fuel.
-/

namespace ScriptLowering.Source

open Code (Value)
open Lowering (codeType StringLibrary.stringType)

/-! ## Data as values -/

def handleValue : Option Nat → Value
  | some number => .object "ss_string" number
  | none => .null

def handle? : Value → Option (Option Nat)
  | .object _ number => some (some number)
  | .null => some none
  | _ => none

def Datum.value : Datum → Value
  | .truth value => .bool value
  | .number value => .int 64 value.toInt
  | .text handle => handleValue handle

def resultValue : Option Datum → Value
  | some datum => datum.value
  | none => .void

theorem handle?_handleValue (handle : Option Nat) : handle? (handleValue handle) = some handle := by
  cases handle <;> rfl

theorem hasType_handleValue (handle : Option Nat) :
    (handleValue handle).hasType Lowering.StringLibrary.stringType = true := by
  cases handle with
  | none => rfl
  | some number => simp [handleValue, Value.hasType, Lowering.StringLibrary.stringType]

theorem Datum.hasType_value {datum : Datum} {ty : Ty} (typed : datum.hasType ty = true) :
    datum.value.hasType (codeType ty) = true := by
  cases datum <;> cases ty <;> first | rfl | exact hasType_handleValue _ | cases typed

theorem ofConstant_number (number : Int64) :
    Value.ofConstant (.int number 64) = (Datum.number number).value := by
  have width : (64 : UInt16).toNat = 64 := rfl
  simp [Value.ofConstant, Value.wrapped, Datum.value, width]

theorem Datum.value_injective {first second : Datum} (same : first.value = second.value) :
    first = second := by
  cases first with
  | truth value =>
      cases second with
      | truth other =>
          cases same
          rfl
      | number other => cases same
      | text handle => cases handle <;> cases same
  | number value =>
      cases second with
      | truth other => cases same
      | number other =>
          simp only [Datum.value, Value.int.injEq, true_and] at same
          rw [Int64.toInt_inj.mp same]
      | text handle => cases handle <;> cases same
  | text handle =>
      cases second with
      | truth other => cases handle <;> cases same
      | number other => cases handle <;> cases same
      | text other =>
          have found := congrArg handle? same
          simp only [Datum.value, handle?_handleValue, Option.some.injEq] at found
          rw [found]

theorem codeType_injective {first second : Ty} (same : codeType first = codeType second) :
    first = second := by
  cases first <;> cases second <;> first | rfl | cases same

/-! ## The string library as a part of the surroundings -/

namespace Library

def answer? (library : Library) (module : Code.Module) (callee : String) (args : List Value) :
    Option Value :=
  if callee = Lowering.StringLibrary.create then
    match args with
    | [.address (.data id)] =>
        (module.data.get? id).map fun object => handleValue (library.create object.bytes)
    | _ => none
  else
    match args.map handle? with
    | [some left, some right] =>
        if callee = Lowering.StringLibrary.concat then
          some (handleValue (library.concat left right))
        else if callee = Lowering.StringLibrary.equals then
          some (.int 32 (library.compare left right).toInt)
        else none
    | _ => none

def surroundings (library : Library) (module : Code.Module) : Code.Surroundings where
  answers callee args value := library.answer? module callee args = some value
  contents ty value :=
    ∃ source, source ≠ Ty.void ∧ codeType source = ty ∧ value = (library.fresh source).value

end Library

end ScriptLowering.Source

namespace ScriptLowering.Code

/-! ## Counted runs -/

/-- `last` is reached from `first` in `count` steps. -/
inductive Takes (module : Module) (surroundings : Surroundings) : Nat → State → State → Prop
  | none {state : State} : Takes module surroundings 0 state state
  | more {count : Nat} {first middle last : State} (step : Step module surroundings first middle)
      (rest : Takes module surroundings count middle last) :
      Takes module surroundings (count + 1) first last

namespace Takes

variable {module : Module} {surroundings : Surroundings} {first middle last : State}

theorem one (step : Step module surroundings first last) : Takes module surroundings 1 first last :=
  .more step .none

theorem trans {count more : Nat} (left : Takes module surroundings count first middle)
    (right : Takes module surroundings more middle last) :
    Takes module surroundings (count + more) first last := by
  induction left with
  | none => simpa using right
  | more step _ induction =>
      rw [Nat.add_right_comm]
      exact .more step (induction right)

theorem run {count : Nat} (takes : Takes module surroundings count first last) :
    Run module surroundings first last := by
  induction takes with
  | none => exact .refl
  | more step _ induction => exact .head step induction

theorem of_run (runs : Run module surroundings first last) :
    ∃ count, Takes module surroundings count first last := by
  induction runs using Relation.ReflTransGen.head_induction_on with
  | refl => exact ⟨0, .none⟩
  | head step _ induction =>
      rcases induction with ⟨count, takes⟩
      exact ⟨count + 1, .more step takes⟩

end Takes

def State.Ended (module : Module) (state : State) : Prop :=
  state.next module = .ok .traps ∨
    ∃ value globals, state.next module = .ok (.returns value globals)

theorem State.Ended.stops {module : Module} {surroundings : Surroundings} {state next : State}
    (ended : state.Ended module) : ¬ Step module surroundings state next := by
  intro step
  rcases ended with traps | ⟨value, globals, returns⟩
  · cases step with
    | goes event => rw [traps] at event; cases event
    | answered event _ => rw [traps] at event; cases event
    | reserved event _ => rw [traps] at event; cases event
  · cases step with
    | goes event => rw [returns] at event; cases event
    | answered event _ => rw [returns] at event; cases event
    | reserved event _ => rw [returns] at event; cases event

/-- The surroundings always do the same. -/
structure Surroundings.Steady (surroundings : Surroundings) : Prop where
  answers : ∀ callee args first second, surroundings.answers callee args first →
    surroundings.answers callee args second → first = second
  contents : ∀ ty first second, surroundings.contents ty first →
    surroundings.contents ty second → first = second

theorem Surroundings.Steady.step {module : Module} {surroundings : Surroundings}
    (steady : surroundings.Steady) {state first second : State}
    (left : Step module surroundings state first) (right : Step module surroundings state second) :
    first = second := by
  cases left with
  | goes event =>
      cases right with
      | goes other => rw [event] at other; cases other; rfl
      | answered other _ => rw [event] at other; cases other
      | reserved other _ => rw [event] at other; cases other
  | answered event answer =>
      cases right with
      | goes other => rw [event] at other; cases other
      | answered other otherAnswer =>
          rw [event] at other
          cases other
          rw [steady.answers _ _ _ _ answer otherAnswer]
      | reserved other _ => rw [event] at other; cases other
  | reserved event content =>
      cases right with
      | goes other => rw [event] at other; cases other
      | answered other _ => rw [event] at other; cases other
      | reserved other otherContent =>
          rw [event] at other
          cases other
          rw [steady.contents _ _ _ content otherContent]

theorem Surroundings.Steady.continues {module : Module} {surroundings : Surroundings}
    (steady : surroundings.Steady) {count more : Nat} {state last other : State}
    (ends : Takes module surroundings count state last) (ended : last.Ended module)
    (takes : Takes module surroundings more state other) :
    ∃ rest, count = more + rest ∧ Takes module surroundings rest other last := by
  induction takes generalizing count with
  | none => exact ⟨count, (Nat.zero_add _).symm, ends⟩
  | more step _ induction =>
      cases ends with
      | none => exact absurd step ended.stops
      | more first others =>
          rw [steady.step first step] at others
          rcases induction others with ⟨rest, same, takes⟩
          exact ⟨rest, by omega, takes⟩

end ScriptLowering.Code

namespace ScriptLowering.Source

open Code (State Takes)

theorem Library.steady (library : Library) (module : Code.Module) :
    (library.surroundings module).Steady where
  answers := by
    intro callee args first second left right
    exact Option.some.inj (left.symm.trans right)
  contents := by
    intro ty first second left right
    rcases left with ⟨source, _, same, rfl⟩
    rcases right with ⟨other, _, otherSame, rfl⟩
    rw [codeType_injective (same.trans otherSame.symm)]

/-! ## Following -/

variable (module : Code.Module) (library : Library)

/-- From `state` the machine comes to where the evaluation has come to, described by `post`. -/
def Follows {α : Type} (result : Except Halt (α × Store)) (fuel : Nat) (state : State)
    (post : α → Store → State → Prop) : Prop :=
  match result with
  | .ok (value, store) => ∃ count next,
      Takes module (library.surroundings module) count state next ∧ post value store next
  | .error .trap => ∃ count next, Takes module (library.surroundings module) count state next ∧
      next.next module = .ok .traps
  | .error .unfinished => ∃ count next, fuel ≤ count ∧
      Takes module (library.surroundings module) count state next
  | .error .meaningless => False

namespace Follows

variable {module : Code.Module} {library : Library} {α β : Type} {fuel : Nat} {state : State}
  {post : α → Store → State → Prop}

theorem pure {value : α} {store : Store} (holds : post value store state) :
    Follows module library (.ok (value, store)) fuel state post :=
  ⟨0, state, .none, holds⟩

theorem before {result : Except Halt (α × Store)} {count : Nat} {next : State}
    (takes : Takes module (library.surroundings module) count state next)
    (follows : Follows module library result fuel next post) :
    Follows module library result (fuel + count) state post := by
  cases result with
  | ok pair =>
      rcases follows with ⟨more, last, rest, holds⟩
      exact ⟨count + more, last, takes.trans rest, holds⟩
  | error halt =>
      cases halt with
      | trap =>
          rcases follows with ⟨more, last, rest, traps⟩
          exact ⟨count + more, last, takes.trans rest, traps⟩
      | unfinished =>
          rcases follows with ⟨more, last, enough, rest⟩
          exact ⟨count + more, last, by omega, takes.trans rest⟩
      | meaningless => exact follows

theorem less {result : Except Halt (α × Store)} {fewer : Nat}
    (follows : Follows module library result fuel state post) (enough : fewer ≤ fuel) :
    Follows module library result fewer state post := by
  cases result with
  | ok pair => exact follows
  | error halt =>
      cases halt with
      | trap => exact follows
      | unfinished =>
          rcases follows with ⟨more, last, some, rest⟩
          exact ⟨more, last, Nat.le_trans enough some, rest⟩
      | meaningless => exact follows

theorem after {result : Except Halt (α × Store)} {count : Nat} {next : State}
    (takes : Takes module (library.surroundings module) count state next)
    (follows : Follows module library result fuel next post) :
    Follows module library result fuel state post :=
  (follows.before takes).less (Nat.le_add_right _ _)

theorem mono {result : Except Halt (α × Store)} {weaker : α → Store → State → Prop}
    (follows : Follows module library result fuel state post)
    (weakens : ∀ value store next, post value store next → weaker value store next) :
    Follows module library result fuel state weaker := by
  cases result with
  | ok pair =>
      rcases follows with ⟨count, next, takes, holds⟩
      exact ⟨count, next, takes, weakens _ _ _ holds⟩
  | error halt => cases halt <;> exact follows

theorem onward {result : Except Halt (α × Store)} {further : α → Store → State → Prop}
    (follows : Follows module library result fuel state post)
    (goes : ∀ value store next, post value store next → ∃ count last,
      Takes module (library.surroundings module) count next last ∧ further value store last) :
    Follows module library result fuel state further := by
  cases result with
  | ok pair =>
      rcases follows with ⟨count, next, takes, holds⟩
      rcases goes _ _ _ holds with ⟨more, last, rest, holdsLast⟩
      exact ⟨count + more, last, takes.trans rest, holdsLast⟩
  | error halt => cases halt <;> exact follows

theorem bind {step : Eval α} {rest : α → Eval β} {store : Store}
    {last : β → Store → State → Prop}
    (first : Follows module library (step store) fuel state post)
    (second : ∀ value between next, post value between next →
      Follows module library (rest value between) fuel next last) :
    Follows module library ((step >>= rest) store) fuel state last := by
  cases result : step store with
  | ok pair =>
      have joined : (step >>= rest) store = rest pair.1 pair.2 := by
        simp only [Bind.bind, StateT.bind, result, Except.bind]
      rw [result] at first
      rcases first with ⟨count, next, takes, holds⟩
      rw [joined]
      exact (second _ _ _ holds).after takes
  | error halt =>
      have joined : (step >>= rest) store = .error halt := by
        simp only [Bind.bind, StateT.bind, result, Except.bind]
      rw [result] at first
      rw [joined]
      cases halt <;> exact first

theorem andThen {result : Except Halt (α × Store)} {rest : α × Store → Except Halt (β × Store)}
    {last : β → Store → State → Prop} (first : Follows module library result fuel state post)
    (second : ∀ value between next, post value between next →
      Follows module library (rest (value, between)) fuel next last) :
    Follows module library (result >>= rest) fuel state last := by
  cases result with
  | ok pair =>
      rcases first with ⟨count, next, takes, holds⟩
      exact (second pair.1 pair.2 next holds).after takes
  | error halt => cases halt <;> exact first

theorem bind_ok {step : Eval α} {rest : α → Eval β} {store between : Store} {value : α}
    {last : β → Store → State → Prop} (runs : step store = .ok (value, between))
    (second : Follows module library (rest value between) fuel state last) :
    Follows module library ((step >>= rest) store) fuel state last := by
  have joined : (step >>= rest) store = rest value between := by
    simp only [Bind.bind, StateT.bind, runs, Except.bind]
  rw [joined]
  exact second

theorem map {step : Eval α} {convert : α → β} {store : Store} {last : β → Store → State → Prop}
    (follows : Follows module library (step store) fuel state
      fun value between next => last (convert value) between next) :
    Follows module library ((convert <$> step) store) fuel state last := by
  have converts : convert <$> step = step >>= fun value => Pure.pure (convert value) := rfl
  rw [converts]
  exact follows.bind fun value between next holds => .pure holds

end Follows

end ScriptLowering.Source
