import ScriptLowering.Proofs.OrderlyFunctions
import ScriptLowering.Proofs.MachineProgress

/-! # What building leaves as it is

A block that has its terminator is complete: it stays as it is until it is removed, and only a block
that is not laid out can be removed. A layout only ever grows. A step that is refused leaves
everything as it was, but for a temp that it has taken. This holds from any state on, also from one
that was not built step by step.
-/

namespace ScriptLowering.Code

/-- The block `id` of the function `name`. -/
def Cursor.block? (cursor : Cursor) (name : String) (id : BlockId) : Option Block :=
  (cursor.module.function? name).bind fun function => function.body.block? id

namespace BuildStep

/-- What a step answers to the one who asks for it. -/
def answer (cursor : Cursor) : BuildStep → Except BuildError Unit
  | declare signature linkage => (cursor.module.declare signature linkage).map fun _ => ()
  | createBlock label => (cursor.createBlock label).map fun _ => ()
  | appendBlock block => (cursor.appendBlock block).map fun _ => ()
  | insertBlockAfter block after => (cursor.insertBlockAfter block after).map fun _ => ()
  | discardBlock block => (cursor.discardBlock block).map fun _ => ()
  | finalize name => (cursor.finalize name).map fun _ => ()
  | ready => cursor.ready.map fun _ => ()
  | alloca ty align => (cursor.alloca ty align).1.map fun _ => ()
  | load ty address => (cursor.load ty address).1.map fun _ => ()
  | store address value => (cursor.store address value).map fun _ => ()
  | arith op left right ty => (cursor.arith op left right ty).1.map fun _ => ()
  | negate operand ty => (cursor.negate operand ty).1.map fun _ => ()
  | compare condition left right => (cursor.compare condition left right).1.map fun _ => ()
  | call callee returns args => (cursor.call callee returns args).1.map fun _ => ()
  | jump target => (cursor.jump target).map fun _ => ()
  | branch condition thenBlock elseBlock =>
      (cursor.branch condition thenBlock elseBlock).map fun _ => ()
  | ret value => (cursor.ret value).map fun _ => ()
  | addGlobal _ _ _ _ | addData _ | setPosition _ | clearBlock => .ok ()

/-- The step removes the block `id` of the function `name`, which is not laid out: it discards the
block or drops all detached blocks. -/
def Removes (cursor : Cursor) (name : String) (id : BlockId) (step : BuildStep) : Prop :=
  (step = .discardBlock id ∧ cursor.position.function = some name ∨ step = .finalize name) ∧
    ∀ function, cursor.module.function? name = some function → id ∉ function.body.layout

end BuildStep

/-! ## One step -/

namespace Body.Change

variable {cursor : Cursor} {name : String} {step : BuildStep} {body next : Body}
  (changes : Body.Change cursor name step body next)

include changes

theorem block?_of_isTerminated {id : BlockId} {block : Block}
    (used : id.number.toNat < body.nextBlock.toNat) (found : body.block? id = some block)
    (terminated : block.isTerminated = true) :
    next.block? id = some block ∨
      id ∉ body.layout ∧ next.block? id = none ∧
        (step = .discardBlock id ∧ cursor.position.function = some name ∨
          step = .finalize name) := by
  have untouched : ∀ {other : BlockId} {current : Block} {change : Block → Block},
      body.block? other = some current → current.isTerminated = false →
      (body.modifyBlock other change).block? id = some block := by
    intro other current change foundOther isOpen
    rw [block?_modifyBlock]
    split
    · rename_i same
      subst same
      rw [found] at foundOther
      cases foundOther
      rw [terminated] at isOpen
      cases isOpen
    · exact found
  cases changes with
  | create =>
      have different : ⟨body.nextBlock⟩ ≠ id := by
        rintro rfl
        exact Nat.lt_irrefl _ used
      exact .inl ((Table.get?_insert_other _ _ different).trans found)
  | layOut => exact .inl found
  | @discard other _ asks stands missing =>
      by_cases same : other = id
      · subst same
        exact .inr ⟨missing, by simp [block?_erase], .inl ⟨asks, stands⟩⟩
      · exact .inl (by rw [block?_erase, if_neg (Ne.symm same), found])
  | prune _ asks =>
      by_cases member : id ∈ body.layout
      · exact .inl ((Place.block?_prune_of_mem member).trans found)
      · refine .inr ⟨member, ?_, .inr asks⟩
        by_contra present
        rcases Option.ne_none_iff_exists'.mp present with ⟨other, foundOther⟩
        exact member (Place.block?_of_prune foundOther).1
  | takeTemp => exact .inl found
  | add _ foundOther isOpen => exact .inl (untouched foundOther isOpen)
  | terminate _ foundOther isOpen => exact .inl (untouched foundOther isOpen)
  | define _ _ _ foundOther isOpen => exact .inl (untouched foundOther isOpen)

theorem layout_sublist : body.layout.Sublist next.layout := by
  cases changes with
  | layOut _ layout =>
      rw [layout]
      exact (List.Sublist.refl _).append (List.sublist_cons_self _ _)
  | create | discard | prune | add | terminate | takeTemp | define => exact .refl _

theorem isSome_block?_of_mem {id : BlockId} (member : id ∈ body.layout)
    (known : (body.block? id).isSome = true) : (next.block? id).isSome = true := by
  have modified : ∀ other (change : Block → Block),
      ((body.modifyBlock other change).block? id).isSome = true := by
    intro other change
    rw [block?_modifyBlock]
    split
    · rw [Option.isSome_map]
      exact known
    · exact known
  cases changes with
  | create =>
      rw [block?_createBlock]
      split
      · rfl
      · exact known
  | layOut => exact known
  | discard _ _ _ missing =>
      rw [block?_erase, if_neg (by rintro rfl; exact missing member)]
      exact known
  | prune => exact (Place.block?_prune_of_mem member) ▸ known
  | takeTemp => exact known
  | add => exact modified _ _
  | terminate => exact modified _ _
  | define => exact modified _ _

theorem exists_of_block? {id : BlockId} {block : Block} (found : next.block? id = some block) :
    (∃ old, body.block? id = some old) ∨
      id = ⟨body.nextBlock⟩ ∧ step.createsIn cursor name = true := by
  have modified : ∀ other (change : Block → Block),
      (body.modifyBlock other change).block? id = some block →
      ∃ old, body.block? id = some old := by
    intro other change foundChanged
    rw [block?_modifyBlock] at foundChanged
    split at foundChanged
    · rcases Option.map_eq_some_iff.mp foundChanged with ⟨old, foundOld, _⟩
      exact ⟨old, foundOld⟩
    · exact ⟨block, foundChanged⟩
  cases changes with
  | create creates =>
      rw [block?_createBlock] at found
      split at found
      · rename_i fresh
        exact .inr ⟨fresh.symm, creates⟩
      · exact .inl ⟨block, found⟩
  | discard =>
      rw [block?_erase] at found
      split at found
      · cases found
      · exact .inl ⟨block, found⟩
  | prune => exact .inl ⟨block, (Place.block?_of_prune found).2⟩
  | layOut | takeTemp => exact .inl ⟨block, found⟩
  | add | terminate | define => exact .inl (modified _ _ found)

end Body.Change

namespace BuildStep

variable {cursor : Cursor} {step : BuildStep}

theorem exists_insertIdx {list : List BlockId} {block after : BlockId} {index : Nat}
    (position : list.idxOf? after = some index) :
    ∃ before behind, list = before ++ after :: behind ∧ after ∉ before ∧
      list.insertIdx (index + 1) block = before ++ after :: block :: behind := by
  induction list generalizing index with
  | nil => cases position
  | cons head tail induction =>
      rw [List.idxOf?_cons] at position
      split at position
      · rename_i same
        cases position
        cases eq_of_beq same
        exact ⟨[], tail, rfl, List.not_mem_nil, rfl⟩
      · rename_i different
        rcases Option.map_eq_some_iff.mp position with ⟨place, found, rfl⟩
        rcases induction found with ⟨before, behind, splits, first, inserts⟩
        refine ⟨head :: before, behind, by rw [splits]; rfl, ?_, ?_⟩
        · rw [List.mem_cons]
          rintro (rfl | member)
          · exact different (beq_self_eq_true _)
          · exact first member
        · rw [List.insertIdx_succ_cons, inserts]
          rfl

theorem insertBlockAfter_eq_ok {block after : BlockId} {next : Cursor}
    (inserts : cursor.insertBlockAfter block after = .ok next) :
    ∃ name function before behind, cursor.position.function = some name ∧
      cursor.module.function? name = some function ∧
      function.body.layout = before ++ after :: behind ∧ after ∉ before ∧
      next = cursor.setBody name
        { function.body with layout := before ++ after :: block :: behind } := by
  rcases cursor.builds_or_refuses with ⟨name, place, builds⟩ | ⟨error, refuses⟩
  · rcases builds.body with ⟨function, found, same⟩
    simp only [Cursor.insertBlockAfter, builds.currentName, builds.currentBody, ← same] at inserts
    rcases bind_unit_eq_ok.mp inserts with ⟨_, inserts⟩
    cases position : function.body.position? after with
    | none =>
        rw [position] at inserts
        cases inserts
    | some index =>
        rw [position] at inserts
        rcases exists_insertIdx position with ⟨before, behind, splits, first, places⟩
        cases inserts
        refine ⟨name, function, before, behind, by rw [builds.position], found, splits, first, ?_⟩
        rw [places]
  · rw [show cursor.insertBlockAfter block after = .error error from refuses _] at inserts
    cases inserts

theorem after_of_refused {α β : Type} {outcome : Except BuildError α} {convert : α → Cursor}
    {forget : α → β} {error : BuildError} (refused : outcome.map forget = .error error) :
    cursor.after (outcome.map convert) = cursor := by
  cases outcome with
  | error other => rfl
  | ok value => cases refused

/-- A temp is taken before the instruction for it is refused. -/
theorem define_of_refused {ty : Ty} {make : Operand → Instruction} {β : Type}
    {forget : Operand → β} {error : BuildError}
    (refused : (cursor.define ty make).1.map forget = .error error) :
    (cursor.define ty make).2 = cursor ∨
      ∃ name function, cursor.position.function = some name ∧
        cursor.module.function? name = some function ∧
        (cursor.define ty make).2 = cursor.setBody name
          { function.body with temps := function.body.temps.push ty } := by
  rcases cursor.builds_or_refuses with ⟨name, place, builds⟩ | ⟨failure, refuses⟩
  · cases isOpen : place.isOpen with
    | true =>
        rw [builds.define isOpen] at refused
        cases refused
    | false =>
        rcases builds.body with ⟨function, found, same⟩
        refine .inr ⟨name, function, by rw [builds.position], found, ?_⟩
        rw [builds.define_refused isOpen, builds.setBody, same]
        rfl
  · have missing : cursor.newTemp ty = .error failure := refuses _
    refine .inl ?_
    simp only [Cursor.define, missing]

theorem apply_of_answer {error : BuildError} (refused : step.answer cursor = .error error) :
    step.apply cursor = cursor ∨
      ∃ ty make name function, step.definition? = some (ty, make) ∧
        cursor.position.function = some name ∧ cursor.module.function? name = some function ∧
        step.apply cursor = cursor.setBody name
          { function.body with temps := function.body.temps.push ty } := by
  have stays : ∀ {outcome : Except BuildError Cursor},
      outcome.map (fun _ => ()) = .error error → cursor.after outcome = cursor := by
    intro outcome fails
    cases outcome with
    | error other => rfl
    | ok next => cases fails
  cases step with
  | declare | createBlock | finalize => exact .inl (after_of_refused refused)
  | appendBlock | insertBlockAfter | discardBlock | ready | store | jump | branch | ret =>
      exact .inl (stays refused)
  | alloca | load | arith | negate | compare =>
      rcases define_of_refused refused with same | ⟨name, function, stands, found, taken⟩
      · exact .inl same
      · exact .inr ⟨_, _, name, function, rfl, stands, found, taken⟩
  | call callee returns args =>
      simp only [answer, apply, Cursor.call, definition?] at refused ⊢
      split at refused
      · rename_i isVoid
        rw [if_pos isVoid]
        cases inserts : cursor.insert (.call none callee args) with
        | error failure => exact .inl rfl
        | ok next =>
            rw [inserts] at refused
            cases refused
      · rename_i notVoid
        rw [if_neg notVoid]
        have fails : (cursor.define returns fun result => .call (some result) callee args).1.map
            (fun _ => ()) = .error error := by
          revert refused
          generalize (cursor.define returns fun result => .call (some result) callee args).1 = result
          cases result <;> exact id
        rcases define_of_refused fails with same | ⟨name, function, stands, found, taken⟩
        · exact .inl same
        · exact .inr ⟨returns, _, name, function, by rw [if_neg notVoid], stands, found, taken⟩
  | addGlobal | addData | setPosition | clearBlock => cases refused

/-! ## Any number of steps -/

/-- The number that the next block of the function `name` gets. -/
def nextNumber (cursor : Cursor) (name : String) : Nat :=
  (cursor.module.function? name).elim 0 fun function => function.body.nextBlock.toNat

/-- The numbers of blocks are below the next one, and the steps do not come to the last number. -/
structure Numbered (start : Cursor) (steps : List BuildStep) : Prop where
  below : ∀ name id block, start.block? name id = some block → id.number.toNat < nextNumber start name
  room : ∀ name, nextNumber start name + blocksCreated name steps start < 2 ^ 32

section Steps

variable {name : String} {steps : List BuildStep}

theorem nextNumber_apply
    (few : nextNumber cursor name + (step.createsIn cursor name).toNat < 2 ^ 32) :
    nextNumber (step.apply cursor) name =
      nextNumber cursor name + (step.createsIn cursor name).toNat := by
  unfold nextNumber at few ⊢
  cases step.evolves cursor name with
  | same quiet unchanged =>
      rw [unchanged, quiet]
      rfl
  | declared quiet absent found =>
      rw [found, absent, quiet]
      rfl
  | changed before changes after =>
      rw [before] at few
      rw [before, after]
      exact changes.toNat_nextBlock few

theorem Numbered.next (numbered : Numbered cursor (step :: steps)) :
    Numbered (step.apply cursor) steps := by
  have few : ∀ name, nextNumber cursor name + (step.createsIn cursor name).toNat < 2 ^ 32 := by
    intro name
    have room := numbered.room name
    rw [blocksCreated] at room
    omega
  refine ⟨fun name id block found => ?_, fun name => ?_⟩
  · have grows := nextNumber_apply (few name)
    cases step.evolves cursor name with
    | same _ unchanged =>
        have old : cursor.block? name id = some block := by
          rw [Cursor.block?, ← unchanged]
          exact found
        have below := numbered.below name id block old
        omega
    | declared _ _ declares =>
        rw [Cursor.block?, declares] at found
        cases found
    | @changed function body before changes after =>
        have next : nextNumber cursor name = function.body.nextBlock.toNat := by
          simp [nextNumber, before]
        rw [Cursor.block?, after] at found
        rcases changes.exists_of_block? found with ⟨old, foundOld⟩ | ⟨rfl, creates⟩
        · have below := numbered.below name id old (by rw [Cursor.block?, before]; exact foundOld)
          omega
        · rw [grows, creates, next]
          exact Nat.lt_succ_self _
  · rw [nextNumber_apply (few name)]
    have room := numbered.room name
    rw [blocksCreated] at room
    omega

/-- A terminated block stays as it is unless the step removes it. -/
theorem block?_apply (numbered : Numbered cursor (step :: steps)) {id : BlockId} {block : Block}
    (found : cursor.block? name id = some block) (terminated : block.isTerminated = true) :
    (step.apply cursor).block? name id = some block ∨
      step.Removes cursor name id ∧ (step.apply cursor).block? name id = none := by
  rcases Option.bind_eq_some_iff.mp found with ⟨function, foundFunction, foundBlock⟩
  have used := numbered.below name id block found
  rw [nextNumber, foundFunction] at used
  cases step.evolves cursor name with
  | same _ unchanged =>
      refine .inl ?_
      rw [Cursor.block?, unchanged]
      exact found
  | declared _ absent =>
      rw [foundFunction] at absent
      cases absent
  | changed before changes after =>
      rw [foundFunction] at before
      cases before
      rw [Cursor.block?, after]
      rcases changes.block?_of_isTerminated used foundBlock terminated with
        same | ⟨missing, gone, asks⟩
      · exact .inl same
      · refine .inr ⟨⟨asks, fun other foundOther => ?_⟩, gone⟩
        rw [foundFunction] at foundOther
        cases foundOther
        exact missing

theorem block?_run_eq_none (numbered : Numbered cursor steps) {id : BlockId}
    (used : id.number.toNat < nextNumber cursor name) (gone : cursor.block? name id = none) :
    (run steps cursor).block? name id = none := by
  induction steps generalizing cursor with
  | nil => exact gone
  | cons step rest induction =>
      have room := numbered.room name
      rw [blocksCreated] at room
      refine induction numbered.next ?_ ?_
      · rw [nextNumber_apply (by omega)]
        omega
      · cases step.evolves cursor name with
        | same _ unchanged =>
            rw [Cursor.block?, unchanged]
            exact gone
        | declared _ _ declares =>
            rw [Cursor.block?, declares]
            rfl
        | changed before changes after =>
            rw [Cursor.block?, before] at gone
            rw [nextNumber, before] at used
            rw [Cursor.block?, after]
            exact changes.block?_eq_none used gone

/-- A terminated block stays as it is until a step removes it, and then it does not come back. -/
theorem block?_run (numbered : Numbered cursor steps) {id : BlockId} {block : Block}
    (found : cursor.block? name id = some block) (terminated : block.isTerminated = true) :
    (run steps cursor).block? name id = some block ∨
      (run steps cursor).block? name id = none ∧
      ∃ before step after, steps = before ++ step :: after ∧
        (run before cursor).block? name id = some block ∧
        step.Removes (run before cursor) name id := by
  induction steps generalizing cursor with
  | nil => exact .inl found
  | cons step rest induction =>
      rcases block?_apply numbered found terminated with stays | ⟨removes, gone⟩
      · rcases induction numbered.next stays with same | ⟨gone, before, other, after, rfl, still, removes⟩
        · exact .inl same
        · exact .inr ⟨gone, step :: before, other, after, rfl, still, removes⟩
      · have used := numbered.below name id block found
        have room := numbered.room name
        rw [blocksCreated] at room
        have grows : nextNumber (step.apply cursor) name = _ := nextNumber_apply (by omega)
        exact .inr ⟨block?_run_eq_none numbered.next (by omega) gone, [], step, rest, rfl, found,
          removes⟩

/-- What is laid out stays laid out, in the same order. -/
theorem layout_run (steps : List BuildStep) {function : Function}
    (found : cursor.module.function? name = some function) :
    ∃ next, (run steps cursor).module.function? name = some next ∧
      function.body.layout.Sublist next.body.layout ∧
      ∀ id ∈ function.body.layout, (function.body.block? id).isSome = true →
        (next.body.block? id).isSome = true := by
  induction steps generalizing cursor function with
  | nil => exact ⟨function, found, .refl _, fun _ _ known => known⟩
  | cons step rest induction =>
      cases step.evolves cursor name with
      | same _ unchanged => exact induction (unchanged.trans found)
      | declared _ absent =>
          rw [found] at absent
          cases absent
      | changed before changes after =>
          rw [found] at before
          cases before
          rcases induction after with ⟨next, foundNext, sublist, stays⟩
          refine ⟨next, foundNext, changes.layout_sublist.trans sublist, fun id member known => ?_⟩
          exact stays id (changes.layout_sublist.subset member)
            (changes.isSome_block?_of_mem member known)

theorem Numbered.behind {first : List BuildStep} (numbered : Numbered cursor (first ++ steps)) :
    Numbered (run first cursor) steps := by
  induction first generalizing cursor with
  | nil => exact numbered
  | cons step rest induction => exact induction numbered.next

end Steps

/-- From any state on, whatever the steps are and in whatever order they come: a terminated block
stays as it is until a step removes it. What is laid out stays so, in the same order. A block
that is inserted stands directly behind the one that is named. A step that is refused changes nothing
but a temp that it may have taken. -/
theorem finished_blocks_stay {start : Cursor} {steps : List BuildStep}
    (numbered : Numbered start steps) :
    (∀ earlier later name id block, steps = earlier ++ later →
      (run earlier start).block? name id = some block → block.isTerminated = true →
      (run steps start).block? name id = some block ∨
        (run steps start).block? name id = none ∧
        ∃ before step after, later = before ++ step :: after ∧
          (run (earlier ++ before) start).block? name id = some block ∧
          step.Removes (run (earlier ++ before) start) name id) ∧
    (∀ earlier later name function, steps = earlier ++ later →
      (run earlier start).module.function? name = some function →
      ∃ next, (run steps start).module.function? name = some next ∧
        function.body.layout.Sublist next.body.layout ∧
        ∀ id ∈ function.body.layout, (function.body.block? id).isSome = true →
          (next.body.block? id).isSome = true) ∧
    (∀ earlier block after later, steps = earlier ++ .insertBlockAfter block after :: later →
      (insertBlockAfter block after).answer (run earlier start) = .ok () →
      ∃ name function before behind, (run earlier start).position.function = some name ∧
        (run earlier start).module.function? name = some function ∧
        function.body.layout = before ++ after :: behind ∧ after ∉ before ∧
        (insertBlockAfter block after).apply (run earlier start) =
          (run earlier start).setBody name
            { function.body with layout := before ++ after :: block :: behind }) ∧
    ∀ earlier step later error, steps = earlier ++ step :: later →
      step.answer (run earlier start) = .error error →
      step.apply (run earlier start) = run earlier start ∨
        ∃ ty make name function, step.definition? = some (ty, make) ∧
          (run earlier start).position.function = some name ∧
          (run earlier start).module.function? name = some function ∧
          step.apply (run earlier start) = (run earlier start).setBody name
            { function.body with temps := function.body.temps.push ty } := by
  refine ⟨?_, ?_, ?_, ?_⟩
  · rintro earlier later name id block rfl found terminated
    rw [run_append]
    rcases block?_run numbered.behind found terminated with
      same | ⟨gone, before, step, after, rfl, still, removes⟩
    · exact .inl same
    · refine .inr ⟨gone, before, step, after, rfl, ?_, ?_⟩
      · rw [run_append]
        exact still
      · rw [run_append]
        exact removes
  · rintro earlier later name function rfl found
    rw [run_append]
    exact layout_run later found
  · rintro earlier block after later rfl succeeds
    cases inserts : (run earlier start).insertBlockAfter block after with
    | error error =>
        rw [answer, inserts] at succeeds
        cases succeeds
    | ok next =>
        rcases insertBlockAfter_eq_ok inserts with
          ⟨name, function, before, behind, stands, found, layout, first, rfl⟩
        refine ⟨name, function, before, behind, stands, found, layout, first, ?_⟩
        rw [apply, inserts]
        rfl
  · rintro earlier step later error rfl refused
    exact apply_of_answer refused

/-! A complete function is revised: behind the end of its loop an instruction is refused, a new block
is filled and laid out behind the loop, another one is filled and thrown away, and the loop cannot be
thrown away. -/

def revised : Cursor := .ofModule waitModule

def revision : List BuildStep :=
  [.setPosition (.atEnd "wait" ⟨1⟩), .negate (.param ⟨0⟩) .i64, .ready, .jump ⟨2⟩,
    .insertBlockAfter ⟨3⟩ ⟨1⟩, .ready, .ret (some (.param ⟨0⟩)), .discardBlock ⟨1⟩,
    .discardBlock ⟨4⟩]

theorem numbered_revision : Numbered revised revision := by
  have next : ∀ name, nextNumber revised name ≤ 3 := by
    intro name
    unfold nextNumber
    cases found : revised.module.function? name with
    | none => exact Nat.zero_le _
    | some function =>
        have member := (Table.get?_ofList (by decide)).mp found
        simp only [List.mem_cons, List.not_mem_nil, or_false, Prod.mk.injEq] at member
        rcases member with ⟨_, rfl⟩ | ⟨_, rfl⟩ <;> decide
  refine ⟨fun name id block found => ?_, fun name => ?_⟩
  · rcases Option.bind_eq_some_iff.mp found with ⟨function, foundFunction, foundBlock⟩
    rw [nextNumber, foundFunction]
    have member := (Table.get?_ofList (by decide)).mp foundFunction
    simp only [List.mem_cons, List.not_mem_nil, or_false, Prod.mk.injEq] at member
    rcases member with ⟨_, rfl⟩ | ⟨_, rfl⟩
    · cases foundBlock
    · have numbers : ∀ id ∈ waitFunction.body.blocks.keys, id.number.toNat < 3 := by decide
      exact numbers id (Table.mem_keys_iff.mpr ⟨block, foundBlock⟩)
  · have few := blocksCreated_le_length name revision revised
    have short : revision.length = 9 := rfl
    have bound := next name
    omega

theorem revision_leaves_loop :
    Numbered revised revision ∧
    (∃ block, revised.block? "wait" ⟨1⟩ = some block ∧ block.isTerminated = true ∧
      (run revision revised).block? "wait" ⟨1⟩ = some block) ∧
    ∃ next, (run revision revised).module.function? "wait" = some next ∧
      waitFunction.body.layout.Sublist next.body.layout ∧
      next.body.layout = [⟨0⟩, ⟨1⟩, ⟨3⟩, ⟨2⟩] ∧ next.body.temps.size = 5 ∧
      next.body.block? ⟨4⟩ = none := by
  have stays := finished_blocks_stay numbered_revision
  refine ⟨numbered_revision, ⟨_, rfl, rfl, ?_⟩, ?_⟩
  · rcases stays.1 [] revision "wait" ⟨1⟩ _ rfl rfl rfl with same | ⟨gone, _⟩
    · exact same
    · cases gone
  · rcases stays.2.1 [] revision "wait" waitFunction rfl rfl with ⟨next, found, sublist, _⟩
    refine ⟨next, found, sublist, ?_⟩
    cases found
    exact ⟨by decide, by decide, rfl⟩

end BuildStep

end ScriptLowering.Code
