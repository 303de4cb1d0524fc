import ScriptLowering.Proofs.RegularPlaces

/-! # Building step by step

A module is built by a sequence of steps, each of which may be refused. What one step can do
to the body of a function is said once, in `Body.Change`; what holds of every module that was
built this way, whatever the steps were and in whatever order they came, follows from it.
-/

namespace ScriptLowering.Code

/-! ## Steps -/

/-- The steps of building. Code is added by `ready` and any number of the steps behind it,
which add one instruction or terminator each. -/
inductive BuildStep where
  | declare (signature : Signature) (linkage : Linkage)
  | addGlobal (name : String) (ty : Ty) (initial : Constant) (align : UInt32)
  | addData (bytes : List UInt8)
  | setPosition (position : Position)
  | clearBlock
  | createBlock (label : String)
  | appendBlock (block : BlockId)
  | insertBlockAfter (block after : BlockId)
  | discardBlock (block : BlockId)
  | finalize (name : String)
  | ready
  | alloca (ty : Ty) (align : UInt32)
  | load (ty : Ty) (address : Operand)
  | store (address value : Operand)
  | arith (op : ArithOp) (left right : Operand) (ty : Ty)
  | negate (operand : Operand) (ty : Ty)
  | compare (condition : Condition) (left right : Operand)
  | call (callee : String) (returns : Ty) (args : List Operand)
  | jump (target : BlockId)
  | branch (condition : Operand) (thenBlock elseBlock : BlockId)
  | ret (value : Option Operand)

/-- Where a cursor is after a step that may be refused. -/
def Cursor.after (cursor : Cursor) : Except BuildError Cursor → Cursor
  | .ok next => next
  | .error _ => cursor

namespace BuildStep

/-- The cursor after a step, be it refused or not. -/
def apply (cursor : Cursor) : BuildStep → Cursor
  | declare signature linkage =>
      cursor.after ((cursor.module.declare signature linkage).map fun module =>
        { cursor with module := module })
  | addGlobal name ty initial align =>
      { cursor with module := (cursor.module.addGlobal name ty initial align).2 }
  | addData bytes => { cursor with module := (cursor.module.addData bytes).2 }
  | setPosition position => cursor.setPosition position
  | clearBlock => cursor.clearBlock
  | createBlock label => cursor.after ((cursor.createBlock label).map Prod.snd)
  | appendBlock block => cursor.after (cursor.appendBlock block)
  | insertBlockAfter block after => cursor.after (cursor.insertBlockAfter block after)
  | discardBlock block => cursor.after (cursor.discardBlock block)
  | finalize name => cursor.after ((cursor.finalize name).map Prod.snd)
  | ready => cursor.after cursor.ready
  | alloca ty align => (cursor.alloca ty align).2
  | load ty address => (cursor.load ty address).2
  | store address value => cursor.after (cursor.store address value)
  | arith op left right ty => (cursor.arith op left right ty).2
  | negate operand ty => (cursor.negate operand ty).2
  | compare condition left right => (cursor.compare condition left right).2
  | call callee returns args => (cursor.call callee returns args).2
  | jump target => cursor.after (cursor.jump target)
  | branch condition thenBlock elseBlock =>
      cursor.after (cursor.branch condition thenBlock elseBlock)
  | ret value => cursor.after (cursor.ret value)

/-- The type and the instruction of a step that yields a value. -/
def definition? : BuildStep → Option (Ty × (Operand → Instruction))
  | alloca ty align => some (.ptr, fun result => .alloca result ty align)
  | load ty address => some (ty, fun result => .load result ty address)
  | arith op left right ty => some (ty, fun result => .arith op result left right ty)
  | negate operand ty => some (ty, fun result => .negate result operand ty)
  | compare condition left right =>
      some (.bool, fun result => .compare result condition left right)
  | call callee returns args =>
      if returns.isVoid then none else some (returns, fun result => .call (some result) callee args)
  | _ => none

theorem result?_of_definition? {step : BuildStep} {ty : Ty} {make : Operand → Instruction}
    (wants : step.definition? = some (ty, make)) (result : Operand) :
    (make result).result? = some result := by
  cases step with
  | call callee returns args =>
      simp only [definition?] at wants
      split at wants
      · cases wants
      · cases wants
        rfl
  | alloca | load | arith | negate | compare =>
      cases wants
      rfl
  | _ => cases wants

/-- Whether a step creates a block in the function `name`. A cursor that gets ready creates
one unless it stands in an open block. -/
def createsIn (cursor : Cursor) (name : String) : BuildStep → Bool
  | createBlock _ =>
      cursor.position.function = some name && (cursor.module.function? name).isSome
  | ready =>
      !cursor.hasOpenBlock && cursor.position.function = some name &&
        (cursor.module.function? name).isSome
  | _ => false

/-- The cursor after a sequence of steps. -/
def run (steps : List BuildStep) (cursor : Cursor) : Cursor := steps.foldl apply cursor

theorem run_append (first second : List BuildStep) (cursor : Cursor) :
    run (first ++ second) cursor = run second (run first cursor) :=
  List.foldl_append

/-- How many blocks a sequence of steps creates in the function `name`. -/
def blocksCreated (name : String) : List BuildStep → Cursor → Nat
  | [], _ => 0
  | step :: rest, cursor =>
      (step.createsIn cursor name).toNat + blocksCreated name rest (step.apply cursor)

theorem blocksCreated_append (name : String) (first second : List BuildStep)
    (cursor : Cursor) :
    blocksCreated name (first ++ second) cursor =
      blocksCreated name first cursor + blocksCreated name second (run first cursor) := by
  induction first generalizing cursor with
  | nil => simp [blocksCreated, run]
  | cons step rest induction =>
      simp only [List.cons_append, blocksCreated, induction, Nat.add_assoc]
      rfl

end BuildStep

/-! ## What a step can do to a body -/

/-- What one step from `cursor` can do to the body of the function `name`. -/
inductive Body.Change (cursor : Cursor) (name : String) (step : BuildStep) :
    Body → Body → Prop
  | create {body : Body} {label : String} (creates : step.createsIn cursor name = true) :
      Change cursor name step body (body.createBlock label).2
  | layOut {body : Body} {id : BlockId} {before behind : List BlockId}
      (quiet : step.createsIn cursor name = false) (layout : body.layout = before ++ behind)
      (known : (body.block? id).isSome = true) (missing : id ∉ body.layout) :
      Change cursor name step body { body with layout := before ++ id :: behind }
  | discard {body : Body} {id : BlockId} (quiet : step.createsIn cursor name = false)
      (asks : step = .discardBlock id) (stands : cursor.position.function = some name)
      (missing : id ∉ body.layout) :
      Change cursor name step body { body with blocks := body.blocks.erase id }
  | prune {body : Body} (quiet : step.createsIn cursor name = false)
      (asks : step = .finalize name) :
      Change cursor name step body body.prune
  | add {body : Body} {id : BlockId} {block : Block} {instruction : Instruction}
      (quiet : step.createsIn cursor name = false) (found : body.block? id = some block)
      (isOpen : block.isTerminated = false) (yields : instruction.result? = none) :
      Change cursor name step body
        (body.modifyBlock id fun block => block.addInstruction instruction)
  | terminate {body : Body} {id : BlockId} {block : Block} {terminator : Terminator}
      (quiet : step.createsIn cursor name = false) (found : body.block? id = some block)
      (isOpen : block.isTerminated = false) :
      Change cursor name step body
        (body.modifyBlock id fun block => block.setTerminator terminator)
  | takeTemp {body : Body} {ty : Ty} (quiet : step.createsIn cursor name = false) :
      Change cursor name step body (body.newTemp ty).2
  | define {body : Body} {id : BlockId} {block : Block} {ty : Ty}
      {make : Operand → Instruction} (quiet : step.createsIn cursor name = false)
      (asks : step.definition? = some (ty, make))
      (stands : cursor.position.function = some name) (found : body.block? id = some block)
      (isOpen : block.isTerminated = false) :
      Change cursor name step body ((body.newTemp ty).2.modifyBlock id fun block =>
        block.addInstruction (make (.temp (body.newTemp ty).1)))

/-- What a step from `cursor` to `next` does to the function `name`. -/
inductive Evolves (cursor : Cursor) (name : String) (step : BuildStep) (next : Cursor) : Prop
  | same (quiet : step.createsIn cursor name = false)
      (unchanged : next.module.function? name = cursor.module.function? name) :
      Evolves cursor name step next
  | declared {signature : Signature} {linkage : Linkage}
      (quiet : step.createsIn cursor name = false)
      (absent : cursor.module.function? name = none)
      (found : next.module.function? name = some (.declared signature linkage)) :
      Evolves cursor name step next
  | changed {function : Function} {body : Body}
      (before : cursor.module.function? name = some function)
      (changes : Body.Change cursor name step function.body body)
      (found : next.module.function? name = some { function with body := body }) :
      Evolves cursor name step next

/-! ## Every step is a change -/

namespace Cursor

def Refuses (cursor : Cursor) (error : BuildError) : Prop :=
  ∀ {α : Type} (rest : String → Body → Except BuildError α),
    (do let name ← cursor.currentName; let body ← cursor.currentBody; rest name body) =
      .error error

theorem builds_or_refuses (cursor : Cursor) :
    (∃ name place, cursor.Builds name place) ∨ ∃ error, cursor.Refuses error := by
  rcases cursor with ⟨module, function, block⟩
  cases function with
  | none => exact .inr ⟨.notPositioned, fun _ => rfl⟩
  | some name =>
      cases found : module.function? name with
      | none =>
          refine .inr ⟨.functionMissing name, fun rest => ?_⟩
          simp [currentBody, currentFunction, currentName, found, bind, Except.bind]
      | some function =>
          exact .inl ⟨name, ⟨function.body, block⟩, rfl, function, found, rfl⟩

variable {cursor : Cursor} {name : String} {place : Place}

theorem Builds.changeBlock_refused (builds : cursor.Builds name place)
    (closed : place.isOpen = false) (change : Block → Block) :
    ∃ error, cursor.changeBlock change = .error error := by
  simp only [Cursor.changeBlock, builds.currentName, builds.currentBody, builds.position, bind,
    Except.bind]
  cases stands : place.block with
  | none => exact ⟨_, rfl⟩
  | some id =>
      cases found : place.body.block? id with
      | none =>
          simp only [found]
          exact ⟨_, rfl⟩
      | some block =>
          have terminated : block.isTerminated = true := by
            rw [Place.isOpen_of_block stands found] at closed
            simpa using closed
          simp only [found, terminated, if_true]
          exact ⟨_, rfl⟩

theorem Builds.define_refused (builds : cursor.Builds name place) (closed : place.isOpen = false)
    (ty : Ty) (make : Operand → Instruction) :
    (cursor.define ty make).2 = cursor.put name (place.takeTemp ty) := by
  have taken : cursor.newTemp ty = .ok (place.freshTemp, cursor.put name (place.takeTemp ty)) := by
    simp only [Cursor.newTemp, builds.currentName, builds.currentBody, bind, Except.bind, pure,
      Except.pure, builds.setBody]
    rfl
  obtain ⟨error, refused⟩ := (builds.put (place.takeTemp ty)).changeBlock_refused closed
    fun block => block.addInstruction (make (.temp place.freshTemp))
  simp only [Cursor.define, taken, Cursor.insert, refused]

end Cursor

namespace Evolves

variable {cursor : Cursor} {name other : String} {place : Place} {step : BuildStep}

theorem createsIn_of_ne (builds : cursor.Builds name place) (different : other ≠ name) :
    step.createsIn cursor other = false := by
  have elsewhere : name ≠ other := different.symm
  cases step <;> simp [BuildStep.createsIn, builds.position, elsewhere]

theorem createsIn_of_refuses {error : BuildError} (refuses : cursor.Refuses error)
    (step : BuildStep) (other : String) : step.createsIn cursor other = false := by
  have missing : (cursor.position.function = some other &&
      (cursor.module.function? other).isSome) = false := by
    by_contra standing
    simp only [Bool.and_eq_false_imp, decide_eq_true_eq, Classical.not_imp,
      Bool.not_eq_false, Option.isSome_iff_exists] at standing
    rcases standing with ⟨stands, function, found⟩
    have builds : cursor.Builds other ⟨function.body, cursor.position.block⟩ :=
      ⟨by rw [← stands], function, found, rfl⟩
    have answers := refuses fun _ _ => .ok ()
    simp [builds.currentName, builds.currentBody, bind, Except.bind] at answers
  cases step <;> simp only [BuildStep.createsIn, Bool.and_assoc, missing, Bool.and_false]

theorem put (builds : cursor.Builds name place) {after : Place}
    (changes : Body.Change cursor name step place.body after.body) (other : String) :
    Evolves cursor other step (cursor.put name after) := by
  rcases builds.body with ⟨function, found, same⟩
  by_cases here : other = name
  · subst here
    refine .changed found (same ▸ changes) ?_
    simp [Cursor.function?_put, found]
  · refine .same (createsIn_of_ne builds here) ?_
    rw [Cursor.function?_put, if_neg fun flipped => here flipped.symm]

theorem put_move (builds : cursor.Builds name place) {after : Place} {next : Cursor}
    (changes : Body.Change cursor name step place.body after.body)
    (functions : next.module = (cursor.put name after).module) (other : String) :
    Evolves cursor other step next := by
  cases put builds changes other with
  | same quiet unchanged => exact .same quiet (by rw [functions]; exact unchanged)
  | declared quiet absent found => exact .declared quiet absent (by rw [functions]; exact found)
  | changed before changes found => exact .changed before changes (by rw [functions]; exact found)

end Evolves

namespace BuildStep

variable {cursor : Cursor} {step : BuildStep}

theorem evolves_declare (cursor : Cursor) (signature : Signature) (linkage : Linkage)
    (name : String) :
    Evolves cursor name (declare signature linkage)
      ((declare signature linkage).apply cursor) := by
  unfold apply Module.declare
  by_cases contained : cursor.module.functions.contains signature.name = true
  · simp only [contained, if_true]
    exact .same rfl rfl
  · simp only [contained, Bool.false_eq_true, if_false]
    by_cases same : signature.name = name
    · subst same
      have absent : cursor.module.function? signature.name = none := by
        simpa [Table.contains, Module.function?] using contained
      exact .declared rfl absent (Table.get?_insert_same _ _ _)
    · exact .same rfl (Table.get?_insert_other _ _ same)

theorem evolves_createBlock (cursor : Cursor) (label name : String) :
    Evolves cursor name (createBlock label) ((createBlock label).apply cursor) := by
  rcases cursor.builds_or_refuses with ⟨current, place, builds⟩ | ⟨error, refuses⟩
  · have creates : (createBlock label).createsIn cursor current = true := by
      rcases builds.body with ⟨function, found, _⟩
      simp [createsIn, builds.position, found]
    simp only [apply, builds.createBlock]
    exact .put builds (.create creates) name
  · have refused : cursor.createBlock label = .error error := refuses _
    simp only [apply, refused]
    exact .same (Evolves.createsIn_of_refuses refuses _ _) rfl

theorem evolves_ready (cursor : Cursor) (name : String) :
    Evolves cursor name ready (ready.apply cursor) := by
  rcases cursor.builds_or_refuses with ⟨current, place, builds⟩ | ⟨error, refuses⟩
  · simp only [apply, builds.ready]
    cases isOpen : place.isOpen with
    | true =>
        have quiet : ready.createsIn cursor name = false := by
          simp [createsIn, builds.hasOpenBlock, isOpen]
        simp only [Place.ready, isOpen, if_true, builds.put_self]
        exact .same quiet rfl
    | false =>
        have creates : ready.createsIn cursor current = true := by
          rcases builds.body with ⟨function, found, _⟩
          simp [createsIn, builds.hasOpenBlock, isOpen, builds.position, found]
        simp only [Place.ready, isOpen, Bool.false_eq_true, if_false]
        exact .put builds (.create creates) name
  · have refused : cursor.createBlock Cursor.unreachableLabel = .error error := refuses _
    have stays : ready.apply cursor = cursor := by
      simp only [apply, Cursor.ready, refused]
      split <;> rfl
    rw [stays]
    exact .same (Evolves.createsIn_of_refuses refuses _ _) rfl

theorem evolves_layOut {current : String} {place : Place} (builds : cursor.Builds current place)
    (quiet : ∀ name, step.createsIn cursor name = false) {block : BlockId}
    (checks : Cursor.checkDetached place.body block = .ok ()) {before behind : List BlockId}
    (layout : place.body.layout = before ++ behind) (name : String) :
    Evolves cursor name step
      (cursor.put current ⟨{ place.body with layout := before ++ block :: behind },
        place.block⟩) := by
  unfold Cursor.checkDetached at checks
  split at checks
  · cases checks
  · rename_i known
    split at checks
    · cases checks
    · rename_i missing
      refine .put builds (.layOut (quiet current) layout ?_ ?_) name
      · simpa [Option.isSome_iff_ne_none] using known
      · simpa [Body.isLaidOut] using missing

theorem evolves_appendBlock (cursor : Cursor) (block : BlockId) (name : String) :
    Evolves cursor name (appendBlock block) ((appendBlock block).apply cursor) := by
  rcases cursor.builds_or_refuses with ⟨current, place, builds⟩ | ⟨error, refuses⟩
  · simp only [apply, Cursor.appendBlock, builds.currentName, builds.currentBody, bind,
      Except.bind]
    cases checks : Cursor.checkDetached place.body block with
    | error error => exact .same rfl rfl
    | ok _ =>
        simp only [builds.setBody]
        exact evolves_layOut builds (fun _ => rfl) checks (List.append_nil _).symm name
  · have refused : cursor.appendBlock block = .error error := refuses _
    simp only [apply, refused]
    exact .same rfl rfl

theorem evolves_insertBlockAfter (cursor : Cursor) (block after : BlockId) (name : String) :
    Evolves cursor name (insertBlockAfter block after)
      ((insertBlockAfter block after).apply cursor) := by
  rcases cursor.builds_or_refuses with ⟨current, place, builds⟩ | ⟨error, refuses⟩
  · simp only [apply, Cursor.insertBlockAfter, builds.currentName, builds.currentBody, bind,
      Except.bind]
    cases checks : Cursor.checkDetached place.body block with
    | error error => exact .same rfl rfl
    | ok _ =>
        cases position : place.body.position? after with
        | none => exact .same rfl rfl
        | some index =>
            simp only [builds.setBody]
            rcases List.idxOf?_eq_some_iff.mp position with ⟨bound, _⟩
            rcases List.exists_of_modifyTailIdx (List.cons block) bound with
              ⟨before, behind, splits, _, inserts⟩
            change Evolves cursor name _ (cursor.put current
              ⟨{ place.body with layout := place.body.layout.insertIdx (index + 1) block },
                place.block⟩)
            rw [List.insertIdx, inserts]
            exact evolves_layOut builds (fun _ => rfl) checks splits name
  · have refused : cursor.insertBlockAfter block after = .error error := refuses _
    simp only [apply, refused]
    exact .same rfl rfl

theorem evolves_discardBlock (cursor : Cursor) (block : BlockId) (name : String) :
    Evolves cursor name (discardBlock block) ((discardBlock block).apply cursor) := by
  rcases cursor.builds_or_refuses with ⟨current, place, builds⟩ | ⟨error, refuses⟩
  · simp only [apply, Cursor.discardBlock, builds.currentName, builds.currentBody, bind,
      Except.bind]
    cases laidOut : place.body.isLaidOut block with
    | true => exact .same rfl rfl
    | false =>
        cases found : place.body.block? block with
        | none => exact .same rfl rfl
        | some _ =>
            have missing : block ∉ place.body.layout := by
              simpa [Body.isLaidOut] using laidOut
            have discards : Body.Change cursor current (discardBlock block) place.body
              (place.discard block).body := .discard rfl rfl (by rw [builds.position]) missing
            refine Evolves.put_move builds discards ?_ name
            simp only [Bool.false_eq_true, if_false, Option.isNone_some, builds.setBody]
            unfold Cursor.after
            split
            · rename_i next same
              cases same
              split <;> rfl
            · rename_i same
              cases same
  · have refused : cursor.discardBlock block = .error error := refuses _
    simp only [apply, refused]
    exact .same rfl rfl

theorem evolves_finalize (cursor : Cursor) (finished name : String) :
    Evolves cursor name (finalize finished) ((finalize finished).apply cursor) := by
  simp only [apply, Cursor.finalize]
  cases found : cursor.module.function? finished with
  | none => exact .same rfl rfl
  | some function =>
      -- Whether the cursor is left without a block makes no difference to the functions.
      have functions : ∀ next : Cursor,
          next.module = (cursor.setBody finished function.body.prune).module →
          Evolves cursor name (finalize finished) next := by
        intro next same
        have looks : next.module.function? name =
            if finished = name then (cursor.module.function? name).map fun old =>
                { old with body := function.body.prune }
            else cursor.module.function? name := by
          rw [same]
          exact Table.get?_modify _ _ _ _
        by_cases here : finished = name
        · subst here
          rw [if_pos rfl, found] at looks
          exact .changed found (.prune rfl rfl) looks
        · rw [if_neg here] at looks
          exact .same rfl looks
      refine functions _ ?_
      simp only [Except.map, Cursor.after]
      split <;> rfl

theorem evolves_changeBlock (cursor : Cursor)
    (quiet : ∀ name, step.createsIn cursor name = false) {change : Block → Block}
    (changes : ∀ name body id block, body.block? id = some block → block.isTerminated = false →
      Body.Change cursor name step body (body.modifyBlock id change)) (name : String) :
    Evolves cursor name step (cursor.after (cursor.changeBlock change)) := by
  rcases cursor.builds_or_refuses with ⟨current, place, builds⟩ | ⟨error, refuses⟩
  · cases isOpen : place.isOpen with
    | true =>
        rcases Place.exists_of_isOpen isOpen with ⟨id, block, stands, found, unfinished⟩
        rw [builds.changeBlock isOpen]
        refine .put builds ?_ name
        simp only [Place.change, stands]
        exact changes current place.body id block found unfinished
    | false =>
        rcases builds.changeBlock_refused isOpen change with ⟨error, refused⟩
        rw [refused]
        exact .same (quiet name) rfl
  · have refused : cursor.changeBlock change = .error error := refuses _
    rw [refused]
    exact .same (quiet name) rfl

theorem evolves_define (cursor : Cursor) (quiet : ∀ name, step.createsIn cursor name = false)
    {ty : Ty} {make : Operand → Instruction} (asks : step.definition? = some (ty, make))
    (name : String) : Evolves cursor name step (cursor.define ty make).2 := by
  rcases cursor.builds_or_refuses with ⟨current, place, builds⟩ | ⟨error, refuses⟩
  · cases isOpen : place.isOpen with
    | true =>
        rcases Place.exists_of_isOpen isOpen with ⟨id, block, stands, found, unfinished⟩
        rw [builds.define isOpen]
        refine .put builds ?_ name
        simp only [Place.define, Place.takeTemp, Place.add, Place.change, stands]
        exact .define (quiet current) asks (by rw [builds.position]) found unfinished
    | false =>
        rw [builds.define_refused isOpen]
        exact .put builds (.takeTemp (quiet current)) name
  · have refused : cursor.newTemp ty = .error error := refuses _
    simp only [Cursor.define, refused]
    exact .same (quiet name) rfl

/-- Every step does to each function one of the things that a step can do. -/
theorem evolves (step : BuildStep) (cursor : Cursor) (name : String) :
    Evolves cursor name step (step.apply cursor) := by
  cases step with
  | declare signature linkage => exact evolves_declare cursor signature linkage name
  | createBlock label => exact evolves_createBlock cursor label name
  | appendBlock block => exact evolves_appendBlock cursor block name
  | insertBlockAfter block after => exact evolves_insertBlockAfter cursor block after name
  | discardBlock block => exact evolves_discardBlock cursor block name
  | finalize finished => exact evolves_finalize cursor finished name
  | ready => exact evolves_ready cursor name
  | store address value =>
      exact evolves_changeBlock cursor (fun _ => rfl)
        (fun _ _ _ _ found isOpen => .add rfl found isOpen rfl) name
  | jump target =>
      exact evolves_changeBlock cursor (fun _ => rfl)
        (fun _ _ _ _ found isOpen => .terminate rfl found isOpen) name
  | branch condition thenBlock elseBlock =>
      exact evolves_changeBlock cursor (fun _ => rfl)
        (fun _ _ _ _ found isOpen => .terminate rfl found isOpen) name
  | ret value =>
      exact evolves_changeBlock cursor (fun _ => rfl)
        (fun _ _ _ _ found isOpen => .terminate rfl found isOpen) name
  | call callee returns args =>
      simp only [apply, Cursor.call]
      cases isVoid : returns.isVoid with
      | true =>
          have added : Evolves cursor name (call callee returns args)
              (cursor.after (cursor.insert (.call none callee args))) :=
            evolves_changeBlock cursor (fun _ => rfl)
              (fun _ _ _ _ found isOpen => .add rfl found isOpen rfl) name
          cases inserts : cursor.insert (.call none callee args) with
          | error error =>
              rw [inserts] at added
              exact added
          | ok next =>
              rw [inserts] at added
              exact added
      | false =>
          exact evolves_define cursor (fun _ => rfl) (by simp [definition?, isVoid]) name
  | alloca ty align => exact evolves_define cursor (fun _ => rfl) rfl name
  | load ty address => exact evolves_define cursor (fun _ => rfl) rfl name
  | arith op left right ty => exact evolves_define cursor (fun _ => rfl) rfl name
  | negate operand ty => exact evolves_define cursor (fun _ => rfl) rfl name
  | compare condition left right => exact evolves_define cursor (fun _ => rfl) rfl name
  | addGlobal | addData | setPosition | clearBlock => exact .same rfl rfl

end BuildStep

end ScriptLowering.Code
