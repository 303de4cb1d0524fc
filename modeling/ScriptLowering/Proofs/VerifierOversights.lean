import ScriptLowering.Proofs.WellFormedFunctions

/-! # What verification passes over

The verifier counts the blocks of the arena and the places of the layout, and does not look which
blocks these are. It types operands by the records of their temps, and compares a record with the
instruction behind it only where that is a call. So a function that was not built step by step may
be accepted with an arena that is not closed, or with a record that is wrong.
-/

namespace ScriptLowering.Code

/-! ## Closed arenas -/

/-- The layout and the arena name the same blocks, the layout none of them twice, and no edge leaves
the arena. -/
structure Body.ArenaClosed (body : Body) : Prop where
  known : ∀ id ∈ body.layout, ∃ block, body.block? id = some block
  distinct : body.layout.Nodup
  attached : ∀ id block, body.block? id = some block → id ∈ body.layout
  targets : ∀ block ∈ body.laidOut, ∀ target ∈ block.successors,
    ∃ found, body.block? target = some found

/-- As many places as blocks: if every block has a place, then it has one, and there are no other
places. -/
theorem Body.perm_of_attached {body : Body} (same : body.blocks.size = body.layout.length)
    (attached : ∀ id block, body.block? id = some block → id ∈ body.layout) :
    body.blocks.keys.Perm body.layout := by
  have subset : body.blocks.keys ⊆ body.layout := by
    intro id member
    rcases Table.mem_keys_iff.mp member with ⟨block, found⟩
    exact attached id block found
  refine (List.subperm_of_subset body.blocks.keys_nodup subset).perm_of_length_le ?_
  rw [Table.keys_length, same]

/-- An accepted function has as many places as blocks, and its edges lead to places. Its arena is
closed just if none of its blocks is detached, and just if its places are different blocks. -/
theorem accepted_arena_closed_iff {module : Module} {function : Function}
    (named : ∀ id block, function.body.block? id = some block → block.id = id)
    (accepted : module.verifyFunction function = .ok ()) :
    function.body.blocks.size = function.body.layout.length ∧
      (∀ block ∈ function.body.laidOut, ∀ target ∈ block.successors,
        target ∈ function.body.layout) ∧
      (function.body.ArenaClosed ↔
        ∀ id block, function.body.block? id = some block → id ∈ function.body.layout) ∧
      (function.body.ArenaClosed ↔ function.body.layout.Nodup ∧
        ∀ id ∈ function.body.layout, ∃ block, function.body.block? id = some block) := by
  rcases Module.checkFunction_eq_ok.mp (Module.verifyFunction_eq_ok.mp accepted) with ⟨shape, _⟩
  rcases checkShape_eq_ok.mp shape with ⟨_, same, edges, _⟩
  have closes : (∀ id block, function.body.block? id = some block → id ∈ function.body.layout) →
      function.body.ArenaClosed := by
    intro attached
    have perm := Body.perm_of_attached same attached
    have known : ∀ id ∈ function.body.layout, ∃ block, function.body.block? id = some block :=
      fun id member => Table.mem_keys_iff.mp (perm.mem_iff.mpr member)
    exact ⟨known, perm.nodup_iff.mp function.body.blocks.keys_nodup, attached,
      fun block member target leads => known target ((edges block member).2 target leads)⟩
  refine ⟨same, fun block member => (edges block member).2, ⟨fun closed => closed.attached, closes⟩,
    fun closed => ⟨closed.distinct, closed.known⟩, ?_⟩
  rintro ⟨distinct, known⟩
  exact closes ((Function.size_eq_length_iff ⟨distinct, known, named⟩).mp same)

theorem waitFunction_arena_closed :
    waitModule.verifyFunction waitFunction = .ok () ∧ waitFunction.body.ArenaClosed := by
  have accepted : waitModule.verifyFunction waitFunction = .ok () := by cbv
  have indexed := waitFunction_represented.indexed
  exact ⟨accepted,
    (accepted_arena_closed_iff indexed.named accepted).2.2.2.mpr
      ⟨indexed.distinct, indexed.known⟩⟩

/-- One of the two blocks is laid out twice, and the other one is not laid out. -/
def twiceFunction : Function where
  signature := ⟨"twice", [], .void⟩
  linkage := .exported
  body := {
    blocks := .ofList [
      (⟨0⟩, ⟨⟨0⟩, "entry", [], .ret none⟩),
      (⟨1⟩, ⟨⟨1⟩, "spare", [], .ret none⟩)]
    layout := [⟨0⟩, ⟨0⟩]
    temps := #[]
    nextBlock := 2 }

/-- The only edge leads to a place without a block. -/
def astrayFunction : Function where
  signature := ⟨"astray", [], .void⟩
  linkage := .exported
  body := {
    blocks := .ofList [
      (⟨0⟩, ⟨⟨0⟩, "entry", [], .jump ⟨7⟩⟩),
      (⟨1⟩, ⟨⟨1⟩, "spare", [], .ret none⟩)]
    layout := [⟨0⟩, ⟨7⟩]
    temps := #[]
    nextBlock := 2 }

/-- Both functions are accepted with arenas that are not closed, and each part of what makes an arena
closed fails for one of them. -/
theorem open_arenas_are_accepted :
    (∀ function ∈ [twiceFunction, astrayFunction],
      (Module.empty "m").verifyFunction function = .ok () ∧
        (∀ entry ∈ function.body.blocks.entries, entry.2.id = entry.1) ∧
        ¬ function.body.ArenaClosed) ∧
      ¬ twiceFunction.body.layout.Nodup ∧
      ⟨1⟩ ∈ twiceFunction.body.blocks.keys ∧ ⟨1⟩ ∉ twiceFunction.body.layout ∧
      ⟨7⟩ ∈ astrayFunction.body.layout ∧ ⟨7⟩ ∉ astrayFunction.body.blocks.keys ∧
      ∃ block ∈ astrayFunction.body.laidOut, ⟨7⟩ ∈ block.successors := by
  refine ⟨?_, by decide, by decide, by decide, by decide, by decide, by decide⟩
  intro function member
  simp only [List.mem_cons, List.not_mem_nil, or_false] at member
  rcases member with rfl | rfl
  · refine ⟨by cbv, by decide, fun closed => ?_⟩
    exact absurd closed.distinct (by decide)
  · refine ⟨by cbv, by decide, fun closed => ?_⟩
    rcases closed.known ⟨7⟩ (by decide) with ⟨block, found⟩
    cases found

/-! ## Records of results -/

/-- In the laid-out blocks, every result is a temp that is recorded with the type of the value it
receives. -/
def Function.RecordsResults (module : Module) (function : Function) : Prop :=
  ∀ block ∈ function.body.laidOut, ∀ instruction ∈ block.instructions, ∀ result,
    instruction.result? = some result → ∃ temp ty, result = .temp temp ∧
      instruction.resultType? module = some ty ∧ function.body.tempType? temp = some ty

theorem recorded_of_call {module : Module} {function : Function}
    (accepted : module.verifyFunction function = .ok ()) {block : Block}
    (member : block ∈ function.body.laidOut) {result : Operand} {callee : String}
    {args : List Operand} (inside : .call (some result) callee args ∈ block.instructions) :
    ∃ target, module.function? callee = some target ∧
      ∀ temp, result = .temp temp →
        function.body.tempType? temp = some target.signature.returns := by
  rcases Module.checkFunction_eq_ok.mp (Module.verifyFunction_eq_ok.mp accepted) with
    ⟨_, definitions, _, blocks⟩
  rcases List.getElem?_of_mem inside with ⟨index, found⟩
  have checked := ((Scene.checkBlock_eq_ok.mp (blocks block member)).1 index _ found).2
  simp only [Scene.checkInstruction] at checked
  cases known : module.function? callee with
  | none =>
      rw [known] at checked
      cases checked
  | some target =>
      simp only [known, bind_unit_eq_ok, Scene.checkResult, require_eq_ok] at checked
      refine ⟨target, rfl, ?_⟩
      rintro temp rfl
      exact Scene.typeOf?_of_fits rfl checked.2.2

/-- Where a function is accepted, its records are right for every call whose result is a temp. All of
them are right just if all results are temps and those of the other instructions are recorded with
the types that these state. If the layout and the arena fit together, this is what keeps the function
from getting stuck. -/
theorem accepted_results_recorded_iff {module : Module} {function : Function}
    (accepted : module.verifyFunction function = .ok ()) :
    (∀ block ∈ function.body.laidOut, ∀ temp callee args,
      .call (some (.temp temp)) callee args ∈ block.instructions →
      ∃ target, module.function? callee = some target ∧
        function.body.tempType? temp = some target.signature.returns) ∧
    (function.RecordsResults module ↔ ∀ block ∈ function.body.laidOut,
      ∀ instruction ∈ block.instructions, ∀ result, instruction.result? = some result →
        ∃ temp, result = .temp temp ∧ (instruction.isCall = false →
          function.body.tempType? temp = instruction.resultType? module)) ∧
    (function.body.Indexed → (function.RecordsResults module ↔ function.Represented module)) := by
  have calls : ∀ block ∈ function.body.laidOut, ∀ temp callee args,
      .call (some (.temp temp)) callee args ∈ block.instructions →
      ∃ target, module.function? callee = some target ∧
        function.body.tempType? temp = some target.signature.returns := by
    intro block member temp callee args inside
    rcases recorded_of_call accepted member inside with ⟨target, known, recorded⟩
    exact ⟨target, known, recorded temp rfl⟩
  -- What an instruction other than a call yields does not depend on the rest of the module.
  have typed : ∀ block ∈ function.body.laidOut, ∀ instruction ∈ block.instructions, ∀ temp,
      instruction.result? = some (.temp temp) →
      ∃ ty, instruction.resultType? module = some ty ∧
        (instruction.isCall = true → function.body.tempType? temp = some ty) := by
    intro block member instruction inside temp yields
    cases instruction with
    | call result callee args =>
        cases yields
        rcases calls block member temp callee args inside with ⟨target, known, recorded⟩
        exact ⟨target.signature.returns, by simp [Instruction.resultType?, known], fun _ => recorded⟩
    | store address value => cases yields
    | alloca | load | arith | negate | compare => exact ⟨_, rfl, fun isCall => by cases isCall⟩
  refine ⟨calls, ⟨?_, ?_⟩, ?_⟩
  · intro records block member instruction inside result yields
    rcases records block member instruction inside result yields with ⟨temp, ty, isTemp, own, recorded⟩
    exact ⟨temp, isTemp, fun _ => recorded.trans own.symm⟩
  · intro records block member instruction inside result yields
    rcases records block member instruction inside result yields with ⟨temp, rfl, recorded⟩
    rcases typed block member instruction inside temp yields with ⟨ty, own, ofCall⟩
    refine ⟨temp, ty, rfl, own, ?_⟩
    cases isCall : instruction.isCall with
    | true => exact ofCall isCall
    | false => exact (recorded isCall).trans own
  · intro indexed
    rcases Module.checkFunction_eq_ok.mp (Module.verifyFunction_eq_ok.mp accepted) with ⟨shape, _⟩
    have attached := (Function.size_eq_length_iff indexed).mp (checkShape_eq_ok.mp shape).2.1
    constructor
    · intro records
      refine ⟨indexed, fun id block found instruction inside result yields => ?_⟩
      have member := Body.mem_laidOut.mpr ⟨id, attached id block found, found⟩
      rcases records block member instruction inside result yields with
        ⟨temp, ty, isTemp, own, recorded⟩
      refine ⟨temp, isTemp, fun other stated => ?_⟩
      rw [recorded, ← own, stated]
    · intro represented block member instruction inside result yields
      rcases Body.mem_laidOut.mp member with ⟨id, _, found⟩
      rcases represented.results id block found instruction inside result yields with
        ⟨temp, rfl, recorded⟩
      rcases typed block member instruction inside temp yields with ⟨ty, own, _⟩
      exact ⟨temp, ty, rfl, own, recorded ty own⟩

theorem waitFunction_records_results :
    waitModule.verifyFunction waitFunction = .ok () ∧
      waitFunction.RecordsResults waitModule := by
  have accepted : waitModule.verifyFunction waitFunction = .ok () := by cbv
  have represented := waitFunction_represented
  exact ⟨accepted,
    ((accepted_results_recorded_iff accepted).2.2 represented.indexed).mpr represented⟩

/-- A truth value is loaded into a temp that is recorded as a number. -/
def mistakenFunction : Function where
  signature := ⟨"mistaken", [], .i64⟩
  linkage := .exported
  body := {
    blocks := .ofList [
      (⟨0⟩, ⟨⟨0⟩, "entry", [
        .alloca (.temp ⟨0⟩) .bool 1,
        .store (.temp ⟨0⟩) (.ofBool true),
        .load (.temp ⟨1⟩) .bool (.temp ⟨0⟩),
        .arith .add (.temp ⟨2⟩) (.temp ⟨1⟩) (.ofInt64 1) .i64],
        .ret (some (.temp ⟨2⟩))⟩)]
    layout := [⟨0⟩]
    temps := #[.ptr, .i64, .i64]
    nextBlock := 1 }

def mistakenModule : Module :=
  { Module.empty "mistaken" with functions := .ofList [("mistaken", mistakenFunction)] }

/-- The module is accepted, and running it comes to the addition of a truth value to a number. -/
theorem wrong_records_are_accepted :
    mistakenModule.verify = .ok () ∧ mistakenFunction.body.Indexed ∧
      ¬ mistakenFunction.RecordsResults mistakenModule ∧
      ∃ state, Run mistakenModule (.ofModule mistakenModule)
          (.call "mistaken" ⟨0⟩ [] mistakenModule.initialGlobals) state ∧
        state.next mistakenModule = .error .wrongType := by
  have indexed : mistakenFunction.body.Indexed := by
    refine ⟨by decide, fun id member => ?_, fun id block found => ?_⟩
    · cases List.mem_singleton.mp member
      exact ⟨_, rfl⟩
    · have entry := (Table.get?_ofList (by decide)).mp found
      cases List.mem_singleton.mp entry
      rfl
  have wrong : ¬ mistakenFunction.RecordsResults mistakenModule := by
    intro records
    rcases records _ (List.mem_singleton.mpr rfl) (.load (.temp ⟨1⟩) .bool (.temp ⟨0⟩))
      (by decide) _ rfl with ⟨temp, ty, isTemp, own, recorded⟩
    cases isTemp
    cases own
    cases recorded
  have reserved : Run mistakenModule (.ofModule mistakenModule)
      (.call "mistaken" ⟨0⟩ [] mistakenModule.initialGlobals) _ :=
    .single (.reserved rfl (show (Value.bool false).hasType .bool = true from rfl))
  have loaded := (reserved.tail (.goes rfl)).tail (.goes rfl)
  exact ⟨by cbv, indexed, wrong, _, loaded, rfl⟩

end ScriptLowering.Code
