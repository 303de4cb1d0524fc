import ScriptLowering.Proofs.ControlLedger
import ScriptLowering.Proofs.WellFormedFunctions

/-! # Ends without a terminator

If all edges of a function lead to blocks that are laid out, then a block without a terminator is
the first fault that is found, and the only reason to report one.
-/

namespace ScriptLowering.Code

/-! ## Checks that report something else -/

/-- The check does not report that a block has no terminator. -/
def PassesOver {α : Type} (check : Except Fault α) : Prop :=
  ∀ block label, check ≠ .error (.unterminated block label)

namespace PassesOver

variable {α β : Type}

theorem ok (value : α) : PassesOver (.ok value : Except Fault α) := fun _ _ same => by cases same

theorem error {fault : Fault} (other : ∀ block label, fault ≠ .unterminated block label) :
    PassesOver (.error fault : Except Fault α) := by
  intro block label same
  injection same with same
  exact other block label same

theorem require {condition : Bool} {fault : Fault}
    (other : ∀ block label, fault ≠ .unterminated block label) :
    PassesOver (Code.require condition fault) := by
  unfold Code.require
  split
  · exact ok ()
  · exact error other

theorem bind {check : Except Fault α} {rest : α → Except Fault β} (passes : PassesOver check)
    (restPasses : ∀ value, check = .ok value → PassesOver (rest value)) :
    PassesOver (check >>= rest) := by
  cases result : check with
  | error fault =>
      intro block label same
      injection same with same
      exact passes block label (result.trans (congrArg Except.error same))
  | ok value => exact restPasses value result

theorem forM {items : List α} {check : α → Check}
    (passes : ∀ item ∈ items, PassesOver (check item)) :
    PassesOver (items.forM check) := by
  induction items with
  | nil => exact ok ()
  | cons item rest induction =>
      exact (passes item List.mem_cons_self).bind fun _ _ =>
        induction fun other member => passes other (List.mem_cons_of_mem _ member)

theorem foldlM {items : List α} {step : β → α → Except Fault β}
    (passes : ∀ state item, PassesOver (step state item)) (start : β) :
    PassesOver (items.foldlM step start) := by
  induction items generalizing start with
  | nil => exact ok start
  | cons item rest induction =>
      rw [List.foldlM_cons]
      exact (passes start item).bind fun next _ => induction next

end PassesOver

theorem passesOver_collect (body : Body) : PassesOver (Definitions.collect body) := by
  refine .foldlM (fun definitions block => .foldlM (fun definitions pair => ?_) _) _
  dsimp only
  unfold Definitions.add
  split
  · exact .ok _
  · split
    · exact .error (by simp)
    · exact .ok _

section Scene

variable (scene : Scene)

theorem passesOver_checkUse (block : BlockId) (index : Option Nat) (operand : Operand) :
    PassesOver (scene.checkUse block index operand) := by
  cases operand with
  | temp temp =>
      simp only [Scene.checkUse]
      split
      · exact .error (by simp)
      · exact .require (by simp)
  | constant value => exact .ok ()
  | param | global | data => exact .require (by simp)

theorem passesOver_checkArguments (callee : String) (arguments : List Operand)
    (parameters : List Parameter) :
    PassesOver (scene.checkArguments callee arguments parameters) := by
  induction arguments generalizing parameters with
  | nil => exact .ok ()
  | cons argument rest induction =>
      cases parameters with
      | nil => exact .ok ()
      | cons parameter others => exact .bind (.require (by simp)) fun _ _ => induction others

theorem passesOver_checkInstruction (instruction : Instruction) :
    PassesOver (scene.checkInstruction instruction) := by
  cases instruction with
  | alloca => exact .require (by simp)
  | load =>
      simp only [Scene.checkInstruction]
      split
      · exact .error (by simp)
      · exact .require (by simp)
  | store =>
      simp only [Scene.checkInstruction]
      split
      · exact .error (by simp)
      · exact .require (by simp)
  | arith => exact .bind (.require (by simp)) fun _ _ => .require (by simp)
  | negate => exact .require (by simp)
  | compare =>
      simp only [Scene.checkInstruction]
      split
      · exact .error (by simp)
      · exact .bind (.require (by simp)) fun _ _ => .require (by simp)
  | call result callee arguments =>
      simp only [Scene.checkInstruction]
      split
      · exact .error (by simp)
      · refine .bind (.require (by simp)) fun _ _ =>
          .bind (passesOver_checkArguments scene _ _ _) fun _ _ => ?_
        cases result with
        | none => exact .require (by simp)
        | some result => exact .require (by simp)

theorem passesOver_checkTerminator (terminator : Terminator) :
    PassesOver (scene.checkTerminator terminator) := by
  cases terminator with
  | jump => exact .ok ()
  | branch => exact .require (by simp)
  | unfinished => exact .error (by simp)
  | ret value =>
      cases value with
      | none => exact .require (by simp)
      | some value => exact .bind (.require (by simp)) fun _ _ => .require (by simp)

theorem passesOver_checkBlock (block : Block) : PassesOver (scene.checkBlock block) := by
  refine .bind (.forM fun pair _ => ?_) fun _ _ => .bind (.forM fun operand _ => ?_) fun _ _ => ?_
  · exact .bind (.forM fun operand _ => passesOver_checkUse scene _ _ operand) fun _ _ =>
      passesOver_checkInstruction scene _
  · exact passesOver_checkUse scene _ _ operand
  · exact passesOver_checkTerminator scene _

end Scene

/-! ## Blocks without a terminator -/

section Shape

variable {function : Function}

theorem checkEdges_of_open {body : Body} {block : Block} (isOpen : block.isTerminated = false) :
    checkEdges body block = .error (.unterminated block.id block.label) := by
  simp only [checkEdges, require, isOpen]
  rfl

/-- The first block without a terminator is reported. -/
theorem forM_checkEdges {body : Body} {blocks : List Block}
    (inside : ∀ block ∈ blocks, ∀ target ∈ block.successors, target ∈ body.layout)
    (someOpen : ∃ block ∈ blocks, block.isTerminated = false) :
    ∃ block : Block,
      blocks.forM (checkEdges body) = .error (.unterminated block.id block.label) := by
  induction blocks with
  | nil =>
      rcases someOpen with ⟨_, member, _⟩
      cases member
  | cons head tail induction =>
      cases terminated : head.isTerminated with
      | false =>
          refine ⟨head, ?_⟩
          change (checkEdges body head >>= fun _ => tail.forM (checkEdges body)) = _
          rw [checkEdges_of_open terminated]
          rfl
      | true =>
          have passes : checkEdges body head = .ok () :=
            checkEdges_eq_ok.mpr ⟨terminated, inside head List.mem_cons_self⟩
          have rest : ∃ block ∈ tail, block.isTerminated = false := by
            rcases someOpen with ⟨block, member, isOpen⟩
            rcases List.mem_cons.mp member with rfl | inTail
            · rw [terminated] at isOpen
              cases isOpen
            · exact ⟨block, inTail, isOpen⟩
          rcases induction (fun block member => inside block (List.mem_cons_of_mem _ member)) rest
            with ⟨block, fails⟩
          refine ⟨block, ?_⟩
          change (checkEdges body head >>= fun _ => tail.forM (checkEdges body)) = _
          rw [passes]
          exact fails

/-- A function whose edges stay inside of it is rejected for want of a terminator just if a block
has none. -/
theorem unterminated_iff (module : Module) (indexed : function.body.Indexed)
    (attached : ∀ id block, function.body.block? id = some block → id ∈ function.body.layout)
    (closed : function.body.IsClosed) :
    (∃ block label, module.verifyFunction function =
      .error ⟨function.name, .unterminated block label⟩) ↔ ¬ function.body.IsTight := by
  have reports : ∀ fault, module.verifyFunction function = .error ⟨function.name, fault⟩ ↔
      module.checkFunction function = .error fault := by
    intro fault
    unfold Module.verifyFunction
    cases module.checkFunction function with
    | ok _ => simp [Except.mapError]
    | error other => simp [Except.mapError]
  have inside : ∀ block ∈ function.body.laidOut, ∀ target ∈ block.successors,
      target ∈ function.body.layout := by
    intro block member target leads
    rcases Body.mem_laidOut.mp member with ⟨id, laidOut, found⟩
    exact closed target ⟨id, laidOut, block, found, leads⟩
  simp only [reports]
  constructor
  · rintro ⟨block, label, fails⟩ tight
    refine (PassesOver.bind ?_ fun _ _ => PassesOver.bind (passesOver_collect function.body)
      fun definitions _ => PassesOver.forM fun block _ => passesOver_checkBlock _ block :
        PassesOver (module.checkFunction function)) block label fails
    have edges : function.body.laidOut.forM (checkEdges function.body) = .ok () := by
      refine forM_eq_ok.mpr fun block member => checkEdges_eq_ok.mpr ⟨?_, inside block member⟩
      rcases Body.mem_laidOut.mp member with ⟨id, laidOut, found⟩
      exact tight id laidOut block found
    refine .bind (.require (by simp)) fun _ _ => .bind (.require (by simp)) fun _ _ => ?_
    rw [edges]
    refine .bind (.ok ()) fun _ _ => ?_
    split
    · exact .ok ()
    · exact .error (by simp)
  · intro loose
    have someOpen : ∃ block ∈ function.body.laidOut, block.isTerminated = false := by
      by_contra none
      refine loose fun id member block found => ?_
      by_contra isOpen
      exact none ⟨block, Body.mem_laidOut.mpr ⟨id, member, found⟩, by simpa using isOpen⟩
    rcases forM_checkEdges inside someOpen with ⟨block, fails⟩
    refine ⟨block.id, block.label, ?_⟩
    have nonempty : function.body.layout.isEmpty = false := by
      rcases someOpen with ⟨_, member, _⟩
      rcases Body.mem_laidOut.mp member with ⟨id, laidOut, _⟩
      cases layout : function.body.layout with
      | nil =>
          rw [layout] at laidOut
          cases laidOut
      | cons => rfl
    have size := (Function.size_eq_length_iff indexed).mpr attached
    simp only [Module.checkFunction, checkShape, nonempty, size, fails, require, Bool.not_false,
      if_true, BEq.rfl, bind, Except.bind]

end Shape

end ScriptLowering.Code
