import Mathlib.Data.List.Induction
import ScriptLowering.Proofs.BuildingSteps

/-! # The order that building keeps

After any sequence of building steps, refused ones included, every function is in order: its
layout names blocks of its arena, none twice; blocks carry the numbers that they are stored
under; and every result is a temp of its own, recorded with the type that was asked for. A
number that a block once had is never given to another block.
-/

namespace ScriptLowering.Code

/-! ## Orderly bodies

`asked instruction temp ty` means that the instruction was asked for with a new temp for its
result, and for a value of the given type. -/

structure Body.Orderly (asked : Instruction → TempId → Ty → Prop) (body : Body) : Prop where
  distinct : body.layout.Nodup
  known : ∀ id ∈ body.layout, ∃ block, body.block? id = some block
  named : ∀ id block, body.block? id = some block → block.id = id
  numbered : ∀ id block, body.block? id = some block →
    id.number.toNat < body.nextBlock.toNat
  results : ∀ id block, body.block? id = some block → ∀ instruction ∈ block.instructions,
    ∀ result, instruction.result? = some result →
      ∃ temp ty, result = .temp temp ∧ body.tempType? temp = some ty ∧
        asked instruction temp ty
  single : ∀ id index other otherIndex temp, body.Defines id index temp →
    body.Defines other otherIndex temp → id = other ∧ index = otherIndex

namespace Body

variable {asked : Instruction → TempId → Ty → Prop} {body next : Body}

theorem tempType?_newTemp {temp : TempId} {ty new : Ty} (known : body.tempType? temp = some ty) :
    (body.newTemp new).2.tempType? temp = some ty := by
  rcases Array.getElem?_eq_some_iff.mp known with ⟨bound, _⟩
  simp only [tempType?, newTemp, Array.getElem?_push]
  rw [if_neg (Nat.ne_of_lt bound)]
  exact known

theorem lt_size_of_tempType? {temp : TempId} {ty : Ty} (known : body.tempType? temp = some ty) :
    temp.number.toNat < body.temps.size := by
  rcases Array.getElem?_eq_some_iff.mp known with ⟨bound, _⟩
  exact bound

theorem toNat_newTemp (few : body.temps.size < 2 ^ 32) (ty : Ty) :
    (body.newTemp ty).1.number.toNat = body.temps.size := by
  change body.temps.size.toUInt32.toNat = body.temps.size
  simp only [Nat.toUInt32, UInt32.toNat_ofNat']
  omega

namespace Orderly

theorem lt_of_defines (orderly : body.Orderly asked) {id : BlockId} {index : Nat}
    {temp : TempId} (defines : body.Defines id index temp) :
    temp.number.toNat < body.temps.size := by
  rcases defines with ⟨block, instruction, found, here, defined⟩
  rcases Option.bind_eq_some_iff.mp defined with ⟨result, yields, isTemp⟩
  rcases orderly.results id block found instruction (List.mem_of_getElem? here) result yields with
    ⟨other, ty, same, recorded, _⟩
  subst same
  cases isTemp
  exact lt_size_of_tempType? recorded

theorem mono (orderly : body.Orderly asked) {more : Instruction → TempId → Ty → Prop}
    (weaker : ∀ instruction temp ty, asked instruction temp ty → more instruction temp ty) :
    body.Orderly more where
  distinct := orderly.distinct
  known := orderly.known
  named := orderly.named
  numbered := orderly.numbered
  results := by
    intro id block found instruction member result yields
    rcases orderly.results id block found instruction member result yields with
      ⟨temp, ty, same, recorded, wasAsked⟩
    exact ⟨temp, ty, same, recorded, weaker instruction temp ty wasAsked⟩
  single := orderly.single

theorem restrict (orderly : body.Orderly asked)
    (blocks : ∀ id block, next.block? id = some block → body.block? id = some block)
    (temps : ∀ temp ty, body.tempType? temp = some ty → next.tempType? temp = some ty)
    (counter : next.nextBlock = body.nextBlock) (distinct : next.layout.Nodup)
    (known : ∀ id ∈ next.layout, ∃ block, next.block? id = some block) :
    next.Orderly asked := by
  have defines : ∀ id index temp, next.Defines id index temp → body.Defines id index temp := by
    rintro id index temp ⟨block, instruction, found, rest⟩
    exact ⟨block, instruction, blocks id block found, rest⟩
  exact {
    distinct := distinct
    known := known
    named := fun id block found => orderly.named id block (blocks id block found)
    numbered := fun id block found =>
      counter ▸ orderly.numbered id block (blocks id block found)
    results := by
      intro id block found instruction member result yields
      rcases orderly.results id block (blocks id block found) instruction member result yields with
        ⟨temp, ty, same, recorded, wasAsked⟩
      exact ⟨temp, ty, same, temps temp ty recorded, wasAsked⟩
    single := fun id index other otherIndex temp first second =>
      orderly.single id index other otherIndex temp (defines id index temp first)
        (defines other otherIndex temp second) }

theorem create (orderly : body.Orderly asked) (few : body.nextBlock.toNat + 1 < 2 ^ 32)
    (label : String) : (body.createBlock label).2.Orderly asked := by
  have looks := body.block?_createBlock label
  have fresh : body.block? ⟨body.nextBlock⟩ = none := by
    cases found : body.block? ⟨body.nextBlock⟩ with
    | none => rfl
    | some block => exact absurd (orderly.numbered _ block found) (Nat.lt_irrefl _)
  have counter : (body.createBlock label).2.nextBlock.toNat = body.nextBlock.toNat + 1 := by
    change (body.nextBlock + 1).toNat = _
    rw [UInt32.toNat_add]
    simp only [UInt32.toNat_one]
    omega
  -- The new block has no code, so code stands where it stood before.
  have defines : ∀ id index temp, (body.createBlock label).2.Defines id index temp →
      body.Defines id index temp := by
    rintro id index temp ⟨block, instruction, found, here, defined⟩
    rw [looks] at found
    split at found
    · cases found
      simp [Block.empty] at here
    · exact ⟨block, instruction, found, here, defined⟩
  refine ⟨orderly.distinct, ?_, ?_, ?_, ?_, ?_⟩
  · intro id member
    rcases orderly.known id member with ⟨block, found⟩
    refine ⟨block, ?_⟩
    rw [looks, if_neg]
    · exact found
    · intro same
      rw [← same, fresh] at found
      cases found
  · intro id block found
    rw [looks] at found
    split at found
    · rename_i same
      cases found
      exact same
    · exact orderly.named id block found
  · intro id block found
    rw [counter]
    rw [looks] at found
    split at found
    · rename_i same
      subst same
      exact Nat.lt_succ_self _
    · exact Nat.lt_succ_of_lt (orderly.numbered id block found)
  · intro id block found instruction member
    rw [looks] at found
    split at found
    · cases found
      simp [Block.empty] at member
    · exact orderly.results id block found instruction member
  · intro id index other otherIndex temp first second
    exact orderly.single id index other otherIndex temp (defines id index temp first)
      (defines other otherIndex temp second)

theorem layOut (orderly : body.Orderly asked) {id : BlockId} {before behind : List BlockId}
    (layout : body.layout = before ++ behind) (known : (body.block? id).isSome = true)
    (missing : id ∉ body.layout) :
    Body.Orderly asked { body with layout := before ++ id :: behind } := by
  have perm : (before ++ id :: behind).Perm (id :: body.layout) := by
    rw [layout]
    exact List.perm_middle
  refine orderly.restrict (fun _ _ found => found) (fun _ _ recorded => recorded) rfl ?_ ?_
  · exact perm.nodup_iff.mpr (List.nodup_cons.mpr ⟨missing, orderly.distinct⟩)
  · intro other member
    rcases List.mem_cons.mp (perm.mem_iff.mp member) with rfl | old
    · exact Option.isSome_iff_exists.mp known
    · exact orderly.known other old

theorem discard (orderly : body.Orderly asked) {id : BlockId} (missing : id ∉ body.layout) :
    Body.Orderly asked { body with blocks := body.blocks.erase id } := by
  refine orderly.restrict ?_ (fun _ _ recorded => recorded) rfl orderly.distinct ?_
  · intro other block found
    rw [block?_erase] at found
    split at found
    · cases found
    · exact found
  · intro other member
    rcases orderly.known other member with ⟨block, found⟩
    have different : other ≠ id := fun same => missing (same ▸ member)
    exact ⟨block, by rw [block?_erase, if_neg different]; exact found⟩

theorem prune (orderly : body.Orderly asked) : body.prune.Orderly asked := by
  refine orderly.restrict ?_ (fun _ _ recorded => recorded) rfl orderly.distinct ?_
  · exact fun id block found => (Place.block?_of_prune found).2
  · intro id member
    have laidOut : id ∈ body.layout := member
    rw [Place.block?_prune_of_mem laidOut]
    exact orderly.known id member

theorem takeTemp (orderly : body.Orderly asked) (ty : Ty) :
    (body.newTemp ty).2.Orderly asked :=
  orderly.restrict (fun _ _ found => found) (fun _ _ => tempType?_newTemp) rfl orderly.distinct
    orderly.known

theorem defines_extend {id : BlockId} {block : Block} {change : Block → Block}
    {added : List Instruction} (found : body.block? id = some block)
    (grows : (change block).instructions = block.instructions ++ added)
    (few : added.length ≤ 1) {other : BlockId} {index : Nat} {temp : TempId}
    (defines : (body.modifyBlock id change).Defines other index temp) :
    body.Defines other index temp ∨
      other = id ∧ index = block.instructions.length ∧
        ∃ instruction ∈ added, instruction.defined? = some temp := by
  rcases defines with ⟨changed, instruction, foundChanged, here, defined⟩
  rw [block?_modifyBlock] at foundChanged
  by_cases same : id = other
  · subst same
    rw [if_pos rfl, found] at foundChanged
    cases foundChanged
    rw [grows] at here
    by_cases old : index < block.instructions.length
    · rw [List.getElem?_append_left old] at here
      exact .inl ⟨block, instruction, found, here, defined⟩
    · rw [List.getElem?_append_right (Nat.le_of_not_lt old)] at here
      rcases List.getElem?_eq_some_iff.mp here with ⟨bound, _⟩
      exact .inr ⟨rfl, by omega, instruction, List.mem_of_getElem? here, defined⟩
  · rw [if_neg same] at foundChanged
    exact .inl ⟨changed, instruction, foundChanged, here, defined⟩

theorem extend (orderly : body.Orderly asked) {id : BlockId} {block : Block}
    {change : Block → Block} {added : List Instruction} (found : body.block? id = some block)
    (keeps : (change block).id = block.id)
    (grows : (change block).instructions = block.instructions ++ added)
    (few : added.length ≤ 1)
    (fresh : ∀ instruction ∈ added, ∀ temp, instruction.defined? = some temp →
      ∀ other index, ¬ body.Defines other index temp)
    (results : ∀ instruction ∈ added, ∀ result, instruction.result? = some result →
      ∃ temp ty, result = .temp temp ∧ body.tempType? temp = some ty ∧
        asked instruction temp ty) :
    (body.modifyBlock id change).Orderly asked := by
  have looks := block?_modifyBlock body id change
  have cases_ : ∀ other changed, (body.modifyBlock id change).block? other = some changed →
      body.block? other = some changed ∨ other = id ∧ changed = change block := by
    intro other changed foundChanged
    rw [looks] at foundChanged
    by_cases same : id = other
    · subst same
      rw [if_pos rfl, found] at foundChanged
      cases foundChanged
      exact .inr ⟨rfl, rfl⟩
    · rw [if_neg same] at foundChanged
      exact .inl foundChanged
  refine ⟨orderly.distinct, ?_, ?_, ?_, ?_, ?_⟩
  · intro other member
    rcases orderly.known other member with ⟨old, foundOld⟩
    rw [looks, foundOld]
    split <;> exact ⟨_, rfl⟩
  · intro other changed foundChanged
    rcases cases_ other changed foundChanged with old | ⟨rfl, rfl⟩
    · exact orderly.named other changed old
    · rw [keeps]
      exact orderly.named other block found
  · intro other changed foundChanged
    rcases cases_ other changed foundChanged with old | ⟨rfl, rfl⟩
    · exact orderly.numbered other changed old
    · exact orderly.numbered other block found
  · intro other changed foundChanged instruction member
    rcases cases_ other changed foundChanged with old | ⟨rfl, rfl⟩
    · exact orderly.results other changed old instruction member
    · rw [grows] at member
      rcases List.mem_append.mp member with old | new
      · exact orderly.results other block found instruction old
      · exact results instruction new
  · intro first firstIndex second secondIndex temp firstDefines secondDefines
    rcases defines_extend found grows few firstDefines with
      old | ⟨rfl, rfl, instruction, member, defined⟩
    · rcases defines_extend found grows few secondDefines with
        alsoOld | ⟨_, _, instruction, member, defined⟩
      · exact orderly.single first firstIndex second secondIndex temp old alsoOld
      · exact absurd old (fresh instruction member temp defined first firstIndex)
    · rcases defines_extend found grows few secondDefines with alsoOld | ⟨rfl, rfl, _⟩
      · exact absurd alsoOld (fresh instruction member temp defined second secondIndex)
      · exact ⟨rfl, rfl⟩

theorem define (orderly : body.Orderly asked) {step : BuildStep} {id : BlockId} {block : Block}
    {ty : Ty} {make : Operand → Instruction} (found : body.block? id = some block)
    (wants : step.definition? = some (ty, make)) (fewTemps : body.temps.size + 1 ≤ 2 ^ 32)
    (asks : ∀ temp : TempId, temp.number.toNat = body.temps.size →
      asked (make (.temp temp)) temp ty) :
    Body.Orderly asked ((body.newTemp ty).2.modifyBlock id fun block =>
      block.addInstruction (make (.temp (body.newTemp ty).1))) := by
  have number := toNat_newTemp (Nat.lt_of_succ_le fewTemps) ty
  have yields := BuildStep.result?_of_definition? wants (.temp (body.newTemp ty).1)
  have grows : (block.addInstruction (make (.temp (body.newTemp ty).1))).instructions =
      block.instructions ++ [make (.temp (body.newTemp ty).1)] := rfl
  refine (orderly.takeTemp ty).extend found rfl grows (Nat.le_refl 1) ?_ ?_
  · intro instruction member temp defined other index defines
    rw [List.mem_singleton.mp member, Instruction.defined?, yields] at defined
    cases defined
    have below : (body.newTemp ty).1.number.toNat < body.temps.size :=
      orderly.lt_of_defines defines
    omega
  · intro instruction member result same
    rw [List.mem_singleton.mp member, yields] at same
    cases same
    refine ⟨_, ty, rfl, ?_, List.mem_singleton.mp member ▸ asks _ number⟩
    simp only [tempType?, number]
    exact Array.getElem?_push_size

/-- Every change keeps a body orderly, as long as its numbers do not run out. -/
theorem change (orderly : body.Orderly asked) {cursor : Cursor} {name : String}
    {step : BuildStep} (changes : Body.Change cursor name step body next)
    (fewBlocks : body.nextBlock.toNat + (step.createsIn cursor name).toNat < 2 ^ 32)
    (fewTemps : next.temps.size ≤ 2 ^ 32)
    (asks : ∀ ty make, step.definition? = some (ty, make) →
      cursor.position.function = some name → ∀ temp : TempId,
        temp.number.toNat = body.temps.size → asked (make (.temp temp)) temp ty) :
    next.Orderly asked := by
  cases changes with
  | create creates =>
      rw [creates] at fewBlocks
      exact orderly.create fewBlocks _
  | layOut _ layout known missing => exact orderly.layOut layout known missing
  | discard _ _ _ missing => exact orderly.discard missing
  | prune => exact orderly.prune
  | takeTemp => exact orderly.takeTemp _
  | @add id block instruction _ found _ yields =>
      have grows : (block.addInstruction instruction).instructions =
          block.instructions ++ [instruction] := rfl
      have undefined : instruction.defined? = none := by
        simp [Instruction.defined?, yields]
      exact orderly.extend found rfl grows (Nat.le_refl 1) (by simp [undefined])
        (by simp [yields])
  | @terminate id block terminator _ found _ =>
      have grows : (block.setTerminator terminator).instructions = block.instructions ++ [] :=
        (List.append_nil _).symm
      exact orderly.extend found rfl grows (Nat.zero_le 1) (by simp) (by simp)
  | @define id block ty make _ wants stands found _ =>
      have size : (body.temps.push ty).size ≤ 2 ^ 32 := fewTemps
      rw [Array.size_push] at size
      exact orderly.define found wants size (asks ty make wants stands)

end Orderly

/-! ## Counters -/

namespace Change

variable {cursor : Cursor} {name : String} {step : BuildStep}

theorem size_le (changes : Body.Change cursor name step body next) :
    body.temps.size ≤ next.temps.size ∧ next.temps.size ≤ body.temps.size + 1 := by
  have pushed : ∀ ty : Ty, body.temps.size ≤ (body.temps.push ty).size ∧
      (body.temps.push ty).size ≤ body.temps.size + 1 := by
    intro ty
    rw [Array.size_push]
    omega
  cases changes with
  | takeTemp => exact pushed _
  | define => exact pushed _
  | _ => exact ⟨Nat.le_refl _, Nat.le_succ _⟩

theorem toNat_nextBlock (changes : Body.Change cursor name step body next)
    (few : body.nextBlock.toNat + (step.createsIn cursor name).toNat < 2 ^ 32) :
    next.nextBlock.toNat = body.nextBlock.toNat + (step.createsIn cursor name).toNat := by
  cases changes with
  | create creates =>
      rw [creates] at few ⊢
      change (body.nextBlock + 1).toNat = _
      rw [UInt32.toNat_add]
      simp only [UInt32.toNat_one, Bool.toNat_true] at few ⊢
      omega
  | layOut quiet | discard quiet | prune quiet | add quiet | terminate quiet | takeTemp quiet
  | define quiet =>
      rw [quiet]
      rfl

theorem block?_eq_none (changes : Body.Change cursor name step body next) {id : BlockId}
    (used : id.number.toNat < body.nextBlock.toNat) (gone : body.block? id = none) :
    next.block? id = none := by
  have modified : ∀ body : Body, body.block? id = none → ∀ other change,
      (body.modifyBlock other change).block? id = none := by
    intro body gone other change
    rw [block?_modifyBlock, gone]
    split <;> rfl
  cases changes with
  | create =>
      have different : ⟨body.nextBlock⟩ ≠ id := by
        rintro rfl
        exact Nat.lt_irrefl _ used
      exact (Table.get?_insert_other _ _ different).trans gone
  | layOut => exact gone
  | discard =>
      rw [block?_erase, gone]
      split <;> rfl
  | prune =>
      refine (Table.get?_filterKeys _ _ _).trans ?_
      split
      · exact gone
      · rfl
  | takeTemp => exact gone
  | add => exact modified body gone _ _
  | terminate => exact modified body gone _ _
  | @define _ _ ty => exact modified (body.newTemp ty).2 gone _ _

end Change

end Body

/-! ## Runs -/

namespace BuildStep

variable {start : Cursor} {steps : List BuildStep} {name : String}

/-- In the function `name` a step of the run asked for the instruction, with the next temp
for its result and for a value of the given type. -/
def Asked (start : Cursor) (steps : List BuildStep) (name : String)
    (instruction : Instruction) (temp : TempId) (ty : Ty) : Prop :=
  ∃ earlier step later make function, steps = earlier ++ step :: later ∧
    step.definition? = some (ty, make) ∧ instruction = make (.temp temp) ∧
    (run earlier start).position.function = some name ∧
    (run earlier start).module.function? name = some function ∧
    function.body.temps.size = temp.number.toNat

theorem Asked.append {instruction : Instruction} {temp : TempId} {ty : Ty}
    (asked : Asked start steps name instruction temp ty) (more : List BuildStep) :
    Asked start (steps ++ more) name instruction temp ty := by
  rcases asked with ⟨earlier, step, later, make, function, rfl, rest⟩
  exact ⟨earlier, step, later ++ more, make, function, by simp, rest⟩

theorem run_snoc (start : Cursor) (steps : List BuildStep) (step : BuildStep) :
    run (steps ++ [step]) start = step.apply (run steps start) :=
  run_append steps [step] start

theorem blocksCreated_snoc (name : String) (start : Cursor) (steps : List BuildStep)
    (step : BuildStep) :
    blocksCreated name (steps ++ [step]) start =
      blocksCreated name steps start + (step.createsIn (run steps start) name).toNat :=
  blocksCreated_append name steps [step] start

/-- The numbers of a run do not run out. -/
structure Few (start : Cursor) (steps : List BuildStep) : Prop where
  blocks : ∀ name, blocksCreated name steps start < 2 ^ 32
  temps : ∀ name function, (run steps start).module.function? name = some function →
    function.body.temps.size < 2 ^ 32

theorem function?_apply (step : BuildStep) (cursor : Cursor) {function : Function}
    (found : cursor.module.function? name = some function) :
    ∃ next, (step.apply cursor).module.function? name = some next ∧
      function.body.temps.size ≤ next.body.temps.size := by
  cases step.evolves cursor name with
  | same _ unchanged => exact ⟨function, unchanged.trans found, Nat.le_refl _⟩
  | declared _ absent =>
      rw [found] at absent
      cases absent
  | changed before changes after =>
      rw [found] at before
      cases before
      exact ⟨_, after, changes.size_le.1⟩

theorem Few.init {step : BuildStep} (few : Few start (steps ++ [step])) : Few start steps where
  blocks name := by
    have bound := few.blocks name
    rw [blocksCreated_snoc] at bound
    omega
  temps name function found := by
    rcases step.function?_apply (run steps start) found with ⟨next, foundNext, size⟩
    exact Nat.lt_of_le_of_lt size
      (few.temps name next (by rw [run_snoc]; exact foundNext))

theorem Few.left {more : List BuildStep} (few : Few start (steps ++ more)) :
    Few start steps := by
  induction more using List.reverseRecOn with
  | nil => simpa using few
  | append_singleton more step induction =>
      rw [← List.append_assoc] at few
      exact induction few.init

theorem blocksCreated_le_length (name : String) (steps : List BuildStep) (cursor : Cursor) :
    blocksCreated name steps cursor ≤ steps.length := by
  induction steps generalizing cursor with
  | nil => exact Nat.le_refl 0
  | cons step rest induction =>
      have later := induction (step.apply cursor)
      have now := Bool.toNat_le (step.createsIn cursor name)
      simp only [blocksCreated, List.length_cons]
      omega

theorem few_of_length {title : String} (short : steps.length < 2 ^ 32) :
    Few (.ofModule (.empty title)) steps where
  blocks name := Nat.lt_of_le_of_lt (blocksCreated_le_length name steps _) short
  temps name function found := by
    suffices bound : function.body.temps.size ≤ steps.length from Nat.lt_of_le_of_lt bound short
    clear short
    induction steps using List.reverseRecOn generalizing function with
    | nil => cases found
    | append_singleton steps step induction =>
        rw [run_snoc] at found
        rw [List.length_append, List.length_singleton]
        cases step.evolves (run steps (.ofModule (.empty title))) name with
        | same _ unchanged =>
            exact Nat.le_succ_of_le (induction function (unchanged.symm.trans found))
        | declared _ _ foundDeclared =>
            rw [foundDeclared] at found
            cases found
            exact Nat.zero_le _
        | changed before changes foundChanged =>
            rw [foundChanged] at found
            cases found
            exact Nat.le_trans changes.size_le.2 (Nat.succ_le_succ (induction _ before))

structure Tracked (start : Cursor) (steps : List BuildStep) : Prop where
  orderly : ∀ name function, (run steps start).module.function? name = some function →
    function.body.Orderly (Asked start steps name)
  counted : ∀ name function, (run steps start).module.function? name = some function →
    function.body.nextBlock.toNat = blocksCreated name steps start
  absent : ∀ name, (run steps start).module.function? name = none →
    blocksCreated name steps start = 0

theorem tracked_start (title : String) : Tracked (.ofModule (.empty title)) [] where
  orderly _ _ found := by cases found
  counted _ _ found := by cases found
  absent _ _ := rfl

theorem orderly_empty (asked : Instruction → TempId → Ty → Prop) :
    Body.empty.Orderly asked where
  distinct := List.nodup_nil
  known _ member := by cases member
  named _ _ found := by cases found
  numbered _ _ found := by cases found
  results _ _ found := by cases found
  single _ _ _ _ _ defines := by
    rcases defines with ⟨_, _, found, _⟩
    cases found

theorem Tracked.snoc (tracked : Tracked start steps) {step : BuildStep}
    (few : Few start (steps ++ [step])) : Tracked start (steps ++ [step]) := by
  have counts := fun name => blocksCreated_snoc name start steps step
  have evolves := step.evolves (run steps start)
  have persists : ∀ name function,
      (run steps start).module.function? name = some function →
        function.body.Orderly (Asked start (steps ++ [step]) name) :=
    fun name function found => (tracked.orderly name function found).mono
      fun _ _ _ asked => asked.append [step]
  refine ⟨?_, ?_, ?_⟩
  · intro name function found
    have fewTemps := few.temps name function found
    rw [run_snoc] at found
    cases evolves name with
    | same _ unchanged => exact persists name function (unchanged.symm.trans found)
    | declared _ _ foundDeclared =>
        rw [foundDeclared] at found
        cases found
        exact orderly_empty _
    | @changed old body before changes foundChanged =>
        rw [foundChanged] at found
        cases found
        refine (persists name old before).change changes ?_ (Nat.le_of_lt fewTemps) ?_
        · rw [tracked.counted name old before, ← counts]
          exact few.blocks name
        · intro ty make wants stands temp number
          exact ⟨steps, step, [], make, old, rfl, wants, rfl, stands, before, number.symm⟩
  · intro name function found
    rw [run_snoc] at found
    rw [counts]
    cases evolves name with
    | same quiet unchanged =>
        rw [quiet]
        exact tracked.counted name function (unchanged.symm.trans found)
    | declared quiet absent foundDeclared =>
        rw [foundDeclared] at found
        cases found
        rw [quiet, tracked.absent name absent]
        rfl
    | @changed old body before changes foundChanged =>
        rw [foundChanged] at found
        cases found
        have counted := tracked.counted name old before
        rw [← counted]
        refine changes.toNat_nextBlock ?_
        rw [counted, ← counts]
        exact few.blocks name
  · intro name missing
    rw [run_snoc] at missing
    rw [counts]
    cases evolves name with
    | same quiet unchanged =>
        rw [quiet]
        exact tracked.absent name (unchanged.symm.trans missing)
    | declared _ _ foundDeclared =>
        rw [foundDeclared] at missing
        cases missing
    | changed _ _ foundChanged =>
        rw [foundChanged] at missing
        cases missing

theorem tracked_run {title : String} (few : Few (.ofModule (.empty title)) steps) :
    Tracked (.ofModule (.empty title)) steps := by
  induction steps using List.reverseRecOn with
  | nil => exact tracked_start title
  | append_singleton steps step induction => exact (induction few.init).snoc few

/-! ## Numbers are not given out again -/

/-- A number of the function `name` that was given to a block which is no longer there. -/
def Retired (cursor : Cursor) (name : String) (id : BlockId) : Prop :=
  ∃ function, cursor.module.function? name = some function ∧
    id.number.toNat < function.body.nextBlock.toNat ∧ function.body.block? id = none

theorem Retired.apply {cursor : Cursor} {id : BlockId} (retired : Retired cursor name id)
    (step : BuildStep)
    (few : ∀ function, cursor.module.function? name = some function →
      function.body.nextBlock.toNat + (step.createsIn cursor name).toNat < 2 ^ 32) :
    Retired (step.apply cursor) name id := by
  rcases retired with ⟨function, found, used, gone⟩
  cases step.evolves cursor name with
  | same _ unchanged => exact ⟨function, unchanged.trans found, used, gone⟩
  | declared _ absent =>
      rw [found] at absent
      cases absent
  | changed before changes after =>
      rw [found] at before
      cases before
      refine ⟨_, after, ?_, changes.block?_eq_none used gone⟩
      rw [changes.toNat_nextBlock (few function found)]
      omega

theorem Retired.run {title : String} {more : List BuildStep} {id : BlockId}
    (few : Few (.ofModule (.empty title)) (steps ++ more))
    (retired : Retired (run steps (.ofModule (.empty title))) name id) :
    Retired (run (steps ++ more) (.ofModule (.empty title))) name id := by
  induction more using List.reverseRecOn with
  | nil => simpa using retired
  | append_singleton more step induction =>
      rw [← List.append_assoc] at few ⊢
      rw [run_snoc]
      refine (induction few.init).apply step fun function found => ?_
      rw [(tracked_run few.init).counted name function found, ← blocksCreated_snoc]
      exact few.blocks name

/-- The function `name` has the block in its arena. -/
def HasBlock (cursor : Cursor) (name : String) (id : BlockId) : Prop :=
  ∃ function block, cursor.module.function? name = some function ∧
    function.body.block? id = some block

theorem retired_of_hasBlock {title : String} {middle : List BuildStep} {id : BlockId}
    (few : Few (.ofModule (.empty title)) (steps ++ middle))
    (present : HasBlock (run steps (.ofModule (.empty title))) name id)
    (gone : ¬ HasBlock (run (steps ++ middle) (.ofModule (.empty title))) name id) :
    Retired (run (steps ++ middle) (.ofModule (.empty title))) name id := by
  rcases present with ⟨function, block, found, has⟩
  have tracked := tracked_run few.left
  have later := tracked_run few
  have used := (tracked.orderly name function found).numbered id block has
  have counted := tracked.counted name function found
  have counts := blocksCreated_append name steps middle (.ofModule (.empty title))
  cases foundNext :
      (run (steps ++ middle) (.ofModule (.empty title))).module.function? name with
  | none =>
      have nothing := later.absent name foundNext
      omega
  | some next =>
      have countedNext := later.counted name next foundNext
      refine ⟨next, foundNext, by omega, ?_⟩
      by_contra there
      rcases Option.ne_none_iff_exists'.mp there with ⟨other, hasOther⟩
      exact gone ⟨next, other, foundNext, hasOther⟩

end BuildStep

/-! ## The order of built modules -/

/-- The type that an instruction itself gives to its result. A call leaves it to its callee. -/
def Instruction.ownType? : Instruction → Option Ty
  | .alloca _ _ _ => some .ptr
  | .load _ ty _ | .arith _ _ _ _ ty | .negate _ _ ty => some ty
  | .compare _ _ _ _ => some .bool
  | .call _ _ _ | .store _ _ => none

namespace BuildStep

variable {steps : List BuildStep} {title : String}

theorem Asked.ownType? {start : Cursor} {name : String} {instruction : Instruction}
    {temp : TempId} {ty own : Ty} (asked : Asked start steps name instruction temp ty)
    (stated : instruction.ownType? = some own) :
    instruction.result? = some (.temp temp) ∧ ty = own := by
  rcases asked with ⟨_, step, _, make, _, _, wants, rfl, _⟩
  refine ⟨result?_of_definition? wants (.temp temp), ?_⟩
  cases step with
  | call callee returns args =>
      simp only [definition?] at wants
      split at wants
      · cases wants
      · cases wants
        cases stated
  | alloca | load | arith | negate | compare =>
      cases wants
      cases stated
      rfl
  | _ => cases wants

/-- A result is recorded with the type that its instruction states. -/
def RecordsOwnTypes (body : Body) : Prop :=
  ∀ id block, body.block? id = some block → ∀ instruction ∈ block.instructions,
    ∀ own, instruction.ownType? = some own →
      ∃ temp, instruction.result? = some (.temp temp) ∧ body.tempType? temp = some own

theorem recordsOwnTypes {start : Cursor} {name : String} {body : Body}
    (orderly : body.Orderly (Asked start steps name)) : RecordsOwnTypes body := by
  intro id block found instruction member own stated
  have yields : ∃ result, instruction.result? = some result := by
    cases instruction <;> first | exact ⟨_, rfl⟩ | cases stated
  rcases yields with ⟨result, yields⟩
  rcases orderly.results id block found instruction member result yields with
    ⟨temp, ty, rfl, recorded, asked⟩
  rcases asked.ownType? stated with ⟨_, rfl⟩
  exact ⟨temp, yields, recorded⟩

/-- Whatever the steps were, every function is in order, and the numbers of blocks that went
away are not given out again. -/
theorem run_keeps_order (few : Few (.ofModule (.empty title)) steps) :
    (∀ name function,
      (run steps (.ofModule (.empty title))).module.function? name = some function →
        function.body.Orderly (Asked (.ofModule (.empty title)) steps name) ∧
          RecordsOwnTypes function.body) ∧
    ∀ earlier middle later name id, steps = earlier ++ middle ++ later →
      HasBlock (run earlier (.ofModule (.empty title))) name id →
      ¬ HasBlock (run (earlier ++ middle) (.ofModule (.empty title))) name id →
        ¬ HasBlock (run steps (.ofModule (.empty title))) name id ∧
        ∀ label fresh cursor,
          (run steps (.ofModule (.empty title))).position.function = some name →
          (run steps (.ofModule (.empty title))).createBlock label = .ok (fresh, cursor) →
            fresh ≠ id := by
  refine ⟨fun name function found => ?_, ?_⟩
  · have orderly := (tracked_run few).orderly name function found
    exact ⟨orderly, recordsOwnTypes orderly⟩
  · rintro earlier middle later name id rfl present gone
    rcases (retired_of_hasBlock few.left present gone).run few with ⟨function, found, used, missing⟩
    refine ⟨?_, ?_⟩
    · rintro ⟨other, block, foundOther, has⟩
      rw [found] at foundOther
      cases foundOther
      rw [missing] at has
      cases has
    · intro label fresh cursor stands creates same
      have builds : (run (earlier ++ middle ++ later) (.ofModule (.empty title))).Builds name
          ⟨function.body, _⟩ := ⟨by rw [← stands], function, found, rfl⟩
      rw [builds.createBlock] at creates
      cases creates
      subst same
      exact Nat.lt_irrefl _ used

/-- A block is thrown away, an instruction is refused behind the end of its block, and a new
block is asked for. -/
def detour : List BuildStep :=
  [.declare ⟨"detour", [], .i64⟩ .exported, .setPosition (.inFunction "detour"),
    .createBlock "entry", .appendBlock ⟨0⟩, .appendBlock ⟨0⟩, .createBlock "spare",
    .setPosition (.atEnd "detour" ⟨0⟩), .ready, .alloca .i64 8, .call "detour" .i64 [],
    .ret none, .negate (.temp ⟨1⟩) .i64, .discardBlock ⟨1⟩, .createBlock "other"]

theorem detour_keeps_order :
    ∃ function, (run detour (.ofModule (.empty "m"))).module.function? "detour" = some function ∧
      function.body.blocks.keys = [⟨0⟩, ⟨2⟩] ∧ function.body.temps = #[.ptr, .i64, .i64] ∧
      function.body.Orderly (Asked (.ofModule (.empty "m")) detour "detour") ∧
      ¬ HasBlock (run detour (.ofModule (.empty "m"))) "detour" ⟨1⟩ := by
  have few : Few (.ofModule (.empty "m")) detour := few_of_length (by decide)
  have order := run_keeps_order few
  have present : HasBlock (run (detour.take 6) (.ofModule (.empty "m"))) "detour" ⟨1⟩ :=
    ⟨_, _, rfl, rfl⟩
  have gone : ¬ HasBlock (run (detour.take 6 ++ (detour.drop 6).take 7) (.ofModule (.empty "m")))
      "detour" ⟨1⟩ := by
    rintro ⟨function, block, found, has⟩
    cases found
    cases has
  refine ⟨_, rfl, by decide, by decide, (order.1 "detour" _ rfl).1, ?_⟩
  exact (order.2 (detour.take 6) ((detour.drop 6).take 7) [.createBlock "other"] "detour" ⟨1⟩ rfl
    present gone).1

end BuildStep

end ScriptLowering.Code
