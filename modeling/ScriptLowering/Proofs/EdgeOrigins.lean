import ScriptLowering.Proofs.FinishedHistory

/-! # Where edges come from

An edge of a function under construction has been added by a step, and leads to a block that the
step is about: one of the statement that the step belongs to, or one of the loop that a `break` or
`continue` names.
-/

namespace ScriptLowering.Code

variable {α : Type} {view : Block → List α}

/-- In one of the blocks `view` shows the thing. -/
def Body.Shows (view : Block → List α) (body : Body) (shown : α) : Prop :=
  ∃ id block, body.block? id = some block ∧ shown ∈ view block

/-- What the blocks of `next` show and those of `place` do not has been added. -/
def Place.Adds (view : Block → List α) (added : α → Prop) (place next : Place) : Prop :=
  ∀ shown, next.body.Shows view shown → place.body.Shows view shown ∨ added shown

namespace Place.Adds

variable {added more : α → Prop} {place middle next : Place}

theorem refl (view : Block → List α) (added : α → Prop) (place : Place) :
    place.Adds view added place :=
  fun _ => .inl

theorem trans (first : place.Adds view added middle) (second : middle.Adds view added next) :
    place.Adds view added next :=
  fun shown found => (second shown found).elim (first shown) .inr

theorem of_blocks (blocks : ∀ id block, next.body.block? id = some block →
    (∃ before, place.body.block? id = some before ∧ view before = view block) ∨ view block = []) :
    place.Adds view added next := by
  rintro shown ⟨id, block, found, member⟩
  rcases blocks id block found with ⟨before, foundBefore, same⟩ | none
  · exact .inl ⟨id, before, foundBefore, same ▸ member⟩
  · rw [none] at member
    cases member

theorem of_subset (blocks : ∀ id block, next.body.block? id = some block →
    place.body.block? id = some block) : place.Adds view added next :=
  of_blocks fun id block found => .inl ⟨block, blocks id block found, rfl⟩

theorem create (blank : ∀ id label, view (.empty id label) = []) (place : Place) (label : String) :
    place.Adds view added (place.create label) := by
  refine of_blocks fun id block found => ?_
  rw [block?_create] at found
  split at found
  · cases found
    exact .inr (blank _ _)
  · exact .inl ⟨block, found, rfl⟩

theorem ready (blank : ∀ id label, view (.empty id label) = []) (place : Place) :
    place.Adds view added place.ready := by
  unfold Place.ready
  split
  · exact refl view added place
  · exact create blank place _

theorem change (place : Place) {change : Block → Block}
    (shows_ : ∀ block : Block, ∀ shown ∈ view (change block), shown ∈ view block ∨ added shown) :
    place.Adds view added (place.change change) := by
  rintro shown ⟨id, block, found, member⟩
  cases stands : place.block with
  | none =>
      rw [Place.change, stands] at found
      exact .inl ⟨id, block, found, member⟩
  | some here =>
      rcases exists_of_change stands found with ⟨before, foundBefore, ⟨_, rfl⟩ | ⟨_, rfl⟩⟩
      · exact (shows_ before shown member).imp_left fun old => ⟨id, before, foundBefore, old⟩
      · exact .inl ⟨id, block, foundBefore, member⟩

theorem discard (place : Place) (id : BlockId) : place.Adds view added (place.discard id) := by
  refine of_subset fun other block found => ?_
  rw [block?_discard] at found
  split at found
  · cases found
  · exact found

theorem pruned (place : Place) : place.Adds view added place.pruned :=
  of_subset fun _ _ found => (block?_of_prune found).2

theorem enter {id : BlockId} (enters : place.Enters id next)
    (leaves : place.Adds view added (place.leaveTo id)) : place.Adds view added next := by
  cases enters with
  | dropped => exact leaves.trans (discard _ _)
  | detached | laidOut => exact leaves

end Place.Adds

/-! ## Edges -/

section Edges

variable {targets : BlockId → Prop} {place next : Place}

theorem Block.successors_empty (id : BlockId) (label : String) :
    (Block.empty id label).successors = [] := rfl

theorem Place.addsEdges_add (place : Place) (instruction : Instruction) :
    place.Adds Block.successors targets (place.add instruction) :=
  .change place fun _ _ => .inl

theorem Place.addsEdges_define (place : Place) (ty : Ty) (make : Operand → Instruction) :
    place.Adds Block.successors targets (place.define ty make) :=
  .trans (.of_subset fun _ _ => id) (addsEdges_add _ _)

theorem Place.addsEdges_terminate (place : Place) {terminator : Terminator}
    (within : ∀ target ∈ terminator.successors, targets target) :
    place.Adds Block.successors targets (place.terminate terminator) :=
  .change place fun _ target edge => .inr (within target edge)

theorem Place.addsEdges_leaveTo (place : Place) (target : BlockId) :
    place.Adds Block.successors (· ∈ [target]) (place.leaveTo target) := by
  unfold Place.leaveTo
  split
  · exact addsEdges_terminate place fun _ => id
  · exact .of_subset fun _ _ => id

theorem Place.addsEdges_returnIfLive (place : Place) (value : Option Operand) :
    place.Adds Block.successors targets (place.returnIfLive value) := by
  unfold Place.returnIfLive
  split
  · exact addsEdges_terminate place nofun
  · exact .refl _ _ place

end Edges

end ScriptLowering.Code

namespace ScriptLowering.Lowering

open Source (Program StmtId)
open Code (BlockId Operand Place)

/-! ## Edges that a step adds -/

/-- The construct that a step is for: its statement, or the loop that it jumps to. -/
def Task.construct? (program : Program) : Task → Option StmtId
  | .jump id => (program.stmt? id).bind jumpTarget?
  | task => task.stmt?

/-- The block that a `break` or `continue` leads to. -/
def Session.jumpTargets (session : Session) (program : Program) (id : StmtId) : List BlockId :=
  match program.stmt? id with
  | some (.breakLoop target) =>
      (session.annotations.loopOf target).toOption.toList.map LoopBlocks.exit
  | some (.continueLoop target) =>
      (session.annotations.loopOf target).toOption.toList.map LoopBlocks.continueTarget
  | _ => []

/-- The blocks that the step may lead to. -/
def Task.targets (program : Program) (session : Session) : Task → List BlockId
  | .jump id => session.jumpTargets program id
  | task => task.blocks

/-- In the session, the function `name` has an edge to the block. -/
def Session.HasEdge (session : Session) (name : String) (target : BlockId) : Prop :=
  ∃ place, session.placeIn? name = some place ∧ place.body.Shows Code.Block.successors target

variable {program : Program} {name other : String} {first last before after : Session}
  {target : BlockId} {place next : Place} {events : List Event}

theorem Session.HasEdge.of_put (builds : before.Builds name place) {targets : BlockId → Prop}
    (adds : place.Adds Code.Block.successors targets next) (edge : (before.put name next).HasEdge other target) :
    before.HasEdge other target ∨
      before.cursor.position.function = some other ∧ targets target := by
  rcases edge with ⟨here, found, edge⟩
  rw [builds.placeIn?_put] at found
  split at found
  · rename_i same
    subst same
    cases found
    refine (adds target edge).imp (fun old => ⟨place, builds.placeIn?, old⟩) fun isNew => ⟨?_, isNew⟩
    rw [builds.position]
  · exact .inl ⟨here, found, edge⟩

theorem Session.HasEdge.congr (same : ∀ name, after.placeIn? name = before.placeIn? name)
    (edge : after.HasEdge name target) : before.HasEdge name target := by
  rcases edge with ⟨here, found, edge⟩
  exact ⟨here, (same name).symm.trans found, edge⟩

section Code

variable {targets : BlockId → Prop}

theorem addsEdges_readyAdd (place : Place) (instruction : Code.Instruction) :
    place.Adds Code.Block.successors targets (place.ready.add instruction) :=
  (Place.Adds.ready Code.Block.successors_empty place).trans (Place.addsEdges_add _ _)

theorem addsEdges_readyDefine (place : Place) (ty : Code.Ty) (make : Operand → Code.Instruction) :
    place.Adds Code.Block.successors targets (place.ready.define ty make) :=
  (Place.Adds.ready Code.Block.successors_empty place).trans (Place.addsEdges_define _ _ _)

theorem Emits.addsEdges {final : Session} {node : Source.ExprNode} {values : List Operand}
    {value : Option Operand} (emits : Emits program final node values place value next)
    (targets : BlockId → Prop) : place.Adds Code.Block.successors targets next := by
  refine @Emits.keeps program final node values place next value
    (place.Adds Code.Block.successors targets) (fun middle instruction adds => ?_)
    (fun middle ty make adds => ?_) emits (.refl _ _ place)
  · exact adds.trans (addsEdges_readyAdd middle instruction)
  · exact adds.trans (addsEdges_readyDefine middle ty make)

theorem addsEdges_fillSlot (ty : Source.Ty) (value : Option Operand) (place : Place) :
    place.Adds Code.Block.successors targets (fillSlot ty value place) := by
  have slotted : place.Adds Code.Block.successors targets (fillSlot ty none place) :=
    addsEdges_readyDefine place .ptr _
  cases value with
  | none => exact slotted
  | some value => exact slotted.trans (addsEdges_readyAdd _ _)

theorem addsEdges_storeInitial (decl : Source.VarDecl) (global : Operand) (value : Option Operand)
    (place : Place) :
    place.Adds Code.Block.successors targets (storeInitial program decl global value place) := by
  unfold Lowering.storeInitial
  split
  · split
    · exact addsEdges_readyAdd place _
    · exact .refl _ _ place
  · exact .refl _ _ place

end Code

theorem Session.JumpsBy.edges {id : StmtId} {terminator : Code.Terminator}
    (jumps : before.JumpsBy program id terminator) :
    terminator.successors ⊆ before.jumpTargets program id := by
  unfold Session.JumpsBy at jumps
  unfold Session.jumpTargets
  intro target edge
  split at jumps
  · rename_i loop known
    rcases jumps with ⟨blocks, found, rfl⟩
    simp only [known, found]
    exact edge
  · rename_i loop known
    rcases jumps with ⟨blocks, found, rfl⟩
    simp only [known, found]
    exact edge
  · rcases jumps with ⟨value, rfl, _⟩
    cases edge
  · exact jumps.elim

theorem Session.Emits.edges {node : Source.ExprNode} {value : Option Operand}
    (emits : before.Emits program node name value after) (edge : after.HasEdge other target) :
    before.HasEdge other target := by
  cases emits with
  | @intro place next values builds _ emits same =>
      rw [same] at edge
      have adds := emits.addsEdges fun _ => False
      rcases Session.HasEdge.of_put (builds.prepare node) adds edge with old | ⟨_, nothing⟩
      · refine old.congr fun _ => ?_
        cases node <;> rfl
      · cases nothing

theorem Session.HasEdge.of_start {function : Code.Function}
    (found : before.cursor.module.function? name = some function)
    (edge : (before.put name (Place.mk function.body none).opened).HasEdge other target) :
    before.HasEdge other target := by
  let moved : Session :=
    { before with cursor := before.cursor.setPosition (.inFunction name) }
  have builds : moved.Builds name ⟨function.body, none⟩ := ⟨rfl, function, found, rfl⟩
  have adds : (Place.mk function.body none).Adds Code.Block.successors (fun _ => False)
      (Place.mk function.body none).opened := .create Code.Block.successors_empty _ _
  rcases Session.HasEdge.of_put builds adds edge with ⟨place, known, old⟩ | ⟨_, nothing⟩
  · rw [Session.placeIn?_inFunction] at known
    rcases Option.map_eq_some_iff.mp known with ⟨here, isHere, rfl⟩
    exact ⟨here, isHere, old⟩
  · cases nothing

theorem Session.HasEdge.of_resume {position : Code.Position}
    (edge : Session.HasEdge { before with cursor := before.cursor.setPosition position } other target) :
    before.HasEdge other target := by
  rcases edge with ⟨place, found, edge⟩
  rcases Option.map_eq_some_iff.mp found with ⟨function, known, rfl⟩
  exact ⟨⟨function.body, before.blockIn other⟩, Option.map_eq_some_iff.mpr ⟨function, known, rfl⟩,
    edge⟩

theorem Task.Performs.edges {task : Task} (performs : task.Performs program name before after)
    (edge : after.HasEdge other target) :
    before.HasEdge other target ∨ before.cursor.position.function = some other ∧
      target ∈ task.targets program before := by
  cases performs with
  | start found => exact .inl (edge.of_start found)
  | param _ builds _ | slot _ _ _ _ builds _ =>
      exact Session.HasEdge.of_put builds (addsEdges_fillSlot _ _ _) (edge.congr fun _ => rfl)
  | expr _ emits records =>
      have same := (recordValue_eq_ok records).1
      exact .inl (emits.edges (edge.congr (Session.placeIn?_congr (by rw [same]) (by rw [same]))))
  | global _ _ _ _ _ builds _ =>
      exact Session.HasEdge.of_put builds (addsEdges_storeInitial _ _ _ _) (edge.congr fun _ => rfl)
  | create builds =>
      exact Session.HasEdge.of_put builds (.create Code.Block.successors_empty _ _) edge
  | loop builds _ => exact .inl (edge.congr fun _ => rfl)
  | test builds =>
      exact Session.HasEdge.of_put builds ((Place.Adds.ready Code.Block.successors_empty _).trans
        (Place.addsEdges_terminate _ fun _ => id)) edge
  | jump builds jumps =>
      exact Session.HasEdge.of_put builds ((Place.Adds.ready Code.Block.successors_empty _).trans
        (Place.addsEdges_terminate _ fun _ edge => jumps.edges edge)) edge
  | enter builds enters =>
      exact Session.HasEdge.of_put builds
        (.enter (Place.enters_of_tryEnter enters) (Place.addsEdges_leaveTo _ _)) edge
  | leave builds => exact Session.HasEdge.of_put builds (Place.addsEdges_leaveTo _ _) edge
  | returnIfLive builds => exact Session.HasEdge.of_put builds (Place.addsEdges_returnIfLive _ _) edge
  | finish builds => exact Session.HasEdge.of_put builds (.pruned _) edge
  | resume => exact .inl edge.of_resume
  | come => exact .inl edge

/-- An edge is an old one, or has been added by one of the steps. -/
theorem Path.edges (path : Path program first events last) (edge : last.HasEdge name target) :
    first.HasEdge name target ∨ ∃ event ∈ events, event.function = some name ∧
      target ∈ event.task.targets program event.before := by
  induction path with
  | nil => exact .inl edge
  | @cons inside event events last performs _ induction =>
      rcases induction edge with here | ⟨later, member, facts⟩
      · refine (performs.edges here).imp_right fun facts => ?_
        exact ⟨event, List.mem_cons_self, facts.1, facts.2⟩
      · exact .inr ⟨later, List.mem_cons_of_mem _ member, facts⟩

end ScriptLowering.Lowering
