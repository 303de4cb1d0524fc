import ScriptLowering.Proofs.FunctionStructure

/-! # Stages of lowering

While a statement is lowered, blocks are created that are entered only later, and pieces of its
trace are collected. A stage is what is known in the middle: how far the function has grown
since the beginning, how much room is left, which blocks wait to be entered, and which facts
about the final session have been found.
-/

namespace ScriptLowering.Lowering

open Source (Program ExprId StmtId VarId)
open Code (BlockId Cursor Instruction Operand Place Terminator Ty)

structure Stage (program : Program) (final : Session) (facts : Prop) (names : List String)
    (waits : List (BlockId × String)) (name : String) (origin : Place) (first : Session)
    (count : Nat) (session : Session) (place : Place) : Prop where
  fills : session.Fills name place count
  grows : Grows program names name origin first session place
  fresh : name ∉ names
  waiting : ∀ wait ∈ waits, place.Waiting wait.1 wait.2
  new : ∀ wait ∈ waits, origin.body.nextBlock.toNat ≤ wait.1.number.toNat
  apart : (waits.map Prod.fst).Nodup
  known : session.Precedes final → facts

namespace Stage

variable {program : Program} {allowed : String → Prop} {final : Session} {facts : Prop}
  {names : List String} {waits : List (BlockId × String)} {name : String}
  {origin place : Place} {first session next : Session} {count more : Nat}

theorem start (program : Program) (final : Session) (fills : first.Fills name origin count) :
    Stage program final True [] [] name origin first count first origin where
  fills := fills
  grows := .refl program name origin first
  fresh := fun member => by cases member
  waiting := fun _ member => by cases member
  new := fun _ member => by cases member
  apart := List.nodup_nil
  known := fun _ => trivial

theorem builds (stage : Stage program final facts names waits name origin first count session
    place) : session.Builds name place := stage.fills.builds

theorem fit (stage : Stage program final facts names waits name origin first count session
    place) : place.Fit := stage.fills.fit

theorem mono (stage : Stage program final facts names waits name origin first count session
    place) {fewer : Nat} (less : fewer ≤ count) :
    Stage program final facts names waits name origin first fewer session place :=
  { stage with fills := stage.fills.mono less }

theorem imp (stage : Stage program final facts names waits name origin first count session
    place) {others : Prop} (means : facts → others) :
    Stage program final others names waits name origin first count session place :=
  { stage with known := fun precedes => means (stage.known precedes) }

/-! ## Moving on -/

theorem move (stage : Stage program final facts names waits name origin first more session
    place) {after : Place} (regular : after.Regular) (room : after.Room (count + 8))
    (fewer : count ≤ more) (within : place.Within origin.body.nextBlock.toNat after)
    (waiting : ∀ wait ∈ waits, after.Waiting wait.1 wait.2) :
    Stage program final facts names waits name origin first count (session.put name after)
      after where
  fills := stage.fills.put regular room fewer
  grows := stage.grows.put stage.fresh within
  fresh := stage.fresh
  waiting := waiting
  new := stage.new
  apart := stage.apart
  known := fun precedes => stage.known (.trans (.put session name after) precedes)

theorem create (stage : Stage program final facts names waits name origin first (count + 1)
    session place) (label : String) :
    Stage program final facts names ((place.freshBlock, label) :: waits) name origin first count
      (session.put name (place.create label)) (place.create label) := by
  have room : place.Room (count + 8 + 1) := stage.fills.room.mono (by omega)
  have moved := stage.move (stage.fit.regular.create room label) (room.create label)
    (Nat.le_succ count) (Place.within_create room stage.grows.within.blocks label)
    fun wait member => (stage.waiting wait member).create stage.fit.regular label
  exact {
    moved with
    waiting := by
      intro wait member
      rcases List.mem_cons.mp member with rfl | old
      · exact .created stage.fit.regular label
      · exact moved.waiting wait old
    new := by
      intro wait member
      rcases List.mem_cons.mp member with rfl | old
      · exact stage.grows.within.blocks
      · exact stage.new wait old
    apart := by
      rw [List.map_cons, List.nodup_cons]
      refine ⟨?_, stage.apart⟩
      intro member
      rcases List.mem_map.mp member with ⟨wait, old, same⟩
      exact (stage.waiting wait old).ne_fresh stage.fit.regular same }

theorem operate {cost : Nat} (stage : Stage program final facts names waits name origin first
    (count + cost) session place) {operate : Place → Place} (safe : SafeOperation cost operate) :
    Stage program final facts names waits name origin first count
      (session.put name (operate place)) (operate place) := by
  have room : place.Room (cost + (count + 8)) := stage.fills.room.mono (by omega)
  have within := safe.within place (count + 8) room
  exact stage.move (safe.regular place (count + 8) stage.fit.regular room)
    (safe.room place (count + 8) room) (Nat.le_add_right count cost)
    (within.mono stage.grows.within.blocks)
    fun wait member => (stage.waiting wait member).within within
      ((stage.waiting wait member).number_lt stage.fit.regular)

theorem leaveTo (stage : Stage program final facts names waits name origin first count session
    place) (target : BlockId) :
    Stage program final facts names waits name origin first count
      (session.put name (place.leaveTo target)) (place.leaveTo target) :=
  stage.move (stage.fit.regular.leaveTo target) (stage.fills.room.leaveTo target)
    (Nat.le_refl count) (Place.within_leaveTo _ _ _)
    fun wait member => (stage.waiting wait member).leaveTo target

theorem perm {reordered : List (BlockId × String)}
    (stage : Stage program final facts names waits name origin first count session place)
    (same : waits.Perm reordered) :
    Stage program final facts names reordered name origin first count session place :=
  { stage with
    waiting := fun wait member => stage.waiting wait (same.mem_iff.mpr member)
    new := fun wait member => stage.new wait (same.mem_iff.mpr member)
    apart := (same.map Prod.fst).nodup_iff.mp stage.apart }

theorem second {one two : BlockId × String}
    (stage : Stage program final facts names (one :: two :: waits) name origin first count
      session place) :
    Stage program final facts names (two :: one :: waits) name origin first count session
      place :=
  stage.perm (.swap two one waits)

theorem third {one two three : BlockId × String}
    (stage : Stage program final facts names (one :: two :: three :: waits) name origin first
      count session place) :
    Stage program final facts names (three :: one :: two :: waits) name origin first count
      session place :=
  stage.perm ((List.Perm.swap three two waits).cons one |>.trans (.swap three one _))

theorem enter {id : BlockId} {label : String}
    (stage : Stage program final facts names ((id, label) :: waits) name origin first count
      session place) (closing : Bool) :
    Stage program final facts names waits name origin first count
      (session.put name (place.enter id closing)) (place.enter id closing) := by
  have waiting := stage.waiting (id, label) (by simp)
  have apart := stage.apart
  rw [List.map_cons, List.nodup_cons] at apart
  have others : Stage program final facts names waits name origin first count session place :=
    { stage with
      waiting := fun wait member => stage.waiting wait (by simp [member])
      new := fun wait member => stage.new wait (by simp [member])
      apart := apart.2 }
  refine others.move (stage.fit.regular.enter waiting.detached waiting.away closing)
    (stage.fills.room.enter id closing) (Nat.le_refl count)
    (Place.within_enter place (stage.new (id, label) (by simp)) closing) ?_
  intro wait member
  refine (others.waiting wait member).enter_other ?_ closing
  intro same
  exact apart.1 (List.mem_map.mpr ⟨wait, member, same.symm⟩)

theorem enter_eq {id : BlockId} {label : String}
    (stage : Stage program final facts names ((id, label) :: waits) name origin first count
      session place) (closing : Bool) :
    Lowering.enter id closing session =
      .ok ((), session.put name (place.enter id closing)) := by
  have waiting := stage.waiting (id, label) (by simp)
  exact Lowering.enter_eq stage.builds stage.fit.regular waiting.detached waiting.away closing

theorem learn (stage : Stage program final facts names waits name origin first more session
    place) {fact : Prop} (precedes : session.Precedes next)
    (position : next.cursor.position = session.cursor.position)
    (functions : next.cursor.module.functions = session.cursor.module.functions)
    (stock : next.Stock count) (fewer : count ≤ more) (means : next.Precedes final → fact) :
    Stage program final (facts ∧ fact) names waits name origin first count next place where
  fills := by
    rcases stage.builds.body with ⟨function, found, same⟩
    refine ⟨⟨position.trans stage.builds.position, function, ?_, same⟩, stage.fit.regular,
      stage.fills.room.mono (by omega), stock⟩
    rw [Code.Module.function?, functions]
    exact found
  grows := stage.grows.learn precedes functions
  fresh := stage.fresh
  waiting := stage.waiting
  new := stage.new
  apart := stage.apart
  known := fun later => ⟨stage.known (precedes.trans later), means later⟩

theorem remember (stage : Stage program final facts names waits name origin first count session
    place) {fact : Prop} (means : session.Precedes final → fact) :
    Stage program final (facts ∧ fact) names waits name origin first count session place :=
  stage.learn (.refl session) rfl rfl stage.fills.stock (Nat.le_refl count) means

theorem note (stage : Stage program final facts names waits name origin first count session
    place) {fact : Prop} {annotations : Annotations}
    (storage : ∀ id address, session.annotations.storageOf id = .ok address →
      annotations.storageOf id = .ok address)
    (loops : ∀ id blocks, session.annotations.loopOf id = .ok blocks →
      annotations.loopOf id = .ok blocks)
    (means : Session.Precedes { session with annotations := annotations } final → fact) :
    Stage program final (facts ∧ fact) names waits name origin first count
      { session with annotations := annotations } place :=
  stage.learn ⟨storage, loops, fun _ _ => id, fun _ _ => id, fun _ => rfl⟩ rfl rfl
    ⟨stage.fills.stock.globals, stage.fills.stock.data, stage.fills.stock.globalNumbers,
      stage.fills.stock.dataNumbers⟩ (Nat.le_refl count) means

/-! ## Going on

Each rule says how a step at a stage goes on. -/

section Rules

variable {α β : Type} {errors : Error → Prop} {post : β → Session → Prop}

theorem thenCreate {rest : BlockId → Lower β} {label : String}
    (stage : Stage program final facts names waits name origin first (count + 1) session place)
    (continues : Stage program final facts names ((place.freshBlock, label) :: waits) name origin
        first count (session.put name (place.create label)) (place.create label) →
      (rest place.freshBlock).Ensures (session.put name (place.create label)) post errors) :
    (createBlock label >>= rest).Ensures session post errors :=
  .bind_ok (createBlock_eq stage.builds label) (continues (stage.create label))

theorem thenAdd {rest : Unit → Lower β} {instruction : Instruction}
    (stage : Stage program final facts names waits name origin first (count + 1) session place)
    (defined : instruction.defined? = none)
    (continues : Stage program final facts names waits name origin first count
        (session.put name (place.ready.add instruction)) (place.ready.add instruction) →
      (rest ()).Ensures (session.put name (place.ready.add instruction)) post errors) :
    (Lower.append (fun cursor => cursor.insert instruction) >>= rest).Ensures session post
      errors :=
  .bind_ok (append_add_eq stage.builds instruction) (continues (stage.operate (.add defined)))

theorem thenTerminate {rest : Unit → Lower β} {terminator : Terminator}
    (stage : Stage program final facts names waits name origin first (count + 1) session place)
    (continues : Stage program final facts names waits name origin first count
        (session.put name (place.ready.terminate terminator))
        (place.ready.terminate terminator) →
      (rest ()).Ensures (session.put name (place.ready.terminate terminator)) post errors) :
    (Lower.append (fun cursor => cursor.terminate terminator) >>= rest).Ensures session post
      errors :=
  .bind_ok (append_terminate_eq stage.builds terminator)
    (continues (stage.operate (.terminate terminator)))

theorem thenDefine {rest : Operand → Lower β} {ty : Ty} {instruction : Operand → Instruction}
    (stage : Stage program final facts names waits name origin first (count + 2) session place)
    (defined : ∀ temp, (instruction (.temp temp)).defined? = some temp)
    (continues : Stage program final facts names waits name origin first count
        (session.put name (place.ready.define ty instruction))
        (place.ready.define ty instruction) →
      (rest (.temp place.ready.freshTemp)).Ensures
        (session.put name (place.ready.define ty instruction)) post errors) :
    (Lower.emit (fun cursor => cursor.define ty instruction) >>= rest).Ensures session post
      errors :=
  .bind_ok (emit_define_eq stage.builds ty instruction)
    (continues (stage.operate (.define ty defined)))

theorem thenLeaveTo {rest : Unit → Lower β} {target : BlockId}
    (stage : Stage program final facts names waits name origin first count session place)
    (continues : Stage program final facts names waits name origin first count
        (session.put name (place.leaveTo target)) (place.leaveTo target) →
      (rest ()).Ensures (session.put name (place.leaveTo target)) post errors) :
    (Lowering.leaveTo target >>= rest).Ensures session post errors :=
  .bind_ok (leaveTo_eq stage.builds target) (continues (stage.leaveTo target))

theorem thenEnter {rest : Unit → Lower β} {id : BlockId} {label : String} {closing : Bool}
    (stage : Stage program final facts names ((id, label) :: waits) name origin first count
      session place)
    (continues : Stage program final facts names waits name origin first count
        (session.put name (place.enter id closing)) (place.enter id closing) →
      (rest ()).Ensures (session.put name (place.enter id closing)) post errors) :
    (Lowering.enter id closing >>= rest).Ensures session post errors :=
  .bind_ok (stage.enter_eq closing) (continues (stage.enter closing))

theorem thenLower {part : Lower α} {rest : α → Lower β} {cost : Nat} {others : List String}
    {traces : Session → Place → α → Place → Prop}
    (stage : Stage program final facts names waits name origin first count session place)
    (keeps : Keeps program allowed errors cost others part traces) (left : Nat)
    (enough : cost + left ≤ count) (fresh : name ∉ others) (distinct : (names ++ others).Nodup)
    (unopened : first.Unopened allowed others)
    (continues : ∀ value next after, Stage program final (facts ∧ traces final place value after)
        (names ++ others) waits name origin first left next after →
      (rest value).Ensures next post errors) :
    (part >>= rest).Ensures session post errors := by
  rw [List.nodup_append] at distinct
  have apart : ∀ other ∈ names, other ∉ others :=
    fun other early late => distinct.2.2 other early other late rfl
  have stillUnopened : session.Unopened allowed others := by
    intro other member
    have different : other ≠ name := fun same => fresh (same ▸ member)
    rw [stage.grows.others other different fun early => apart other early member]
    exact unopened other member
  refine (keeps final session name place left (stage.fills.mono enough) fresh distinct.2.1
    stillUnopened).bind ?_
  intro value next exists_
  rcases exists_ with ⟨after, fills, grows, traced⟩
  refine continues value next after {
    fills := fills
    grows := stage.grows.trans grows stage.fresh apart
    fresh := ?_
    waiting := ?_
    new := stage.new
    apart := stage.apart
    known := fun precedes => ⟨stage.known (grows.precedes.trans precedes), traced precedes⟩ }
  · rw [List.mem_append, not_or]
    exact ⟨stage.fresh, fresh⟩
  · exact fun wait member => (stage.waiting wait member).within grows.within
      ((stage.waiting wait member).number_lt stage.fit.regular)

theorem thenCompute {part : Lower α} {rest : α → Lower β} {cost : Nat}
    {traces : Session → Place → α → Place → Prop}
    (stage : Stage program final facts names waits name origin first count session place)
    (computes : Computes program errors cost part traces) (left : Nat)
    (enough : cost + left ≤ count)
    (continues : ∀ value next after, Stage program final (facts ∧ traces final place value after)
        names waits name origin first left next after →
      (rest value).Ensures next post errors) :
    (part >>= rest).Ensures session post errors := by
  refine (computes.apply final (stage.fills.mono enough)).bind ?_
  intro value next exists_
  rcases exists_ with ⟨after, fills, grows, traced⟩
  have grown := stage.grows.trans grows stage.fresh fun _ _ member => by cases member
  rw [List.append_nil] at grown
  exact continues value next after {
    fills := fills
    grows := grown
    fresh := stage.fresh
    waiting := fun wait member => (stage.waiting wait member).within grows.within
      ((stage.waiting wait member).number_lt stage.fit.regular)
    new := stage.new
    apart := stage.apart
    known := fun precedes => ⟨stage.known (grows.precedes.trans precedes), traced precedes⟩ }

theorem finish {value : α} {traces : Session → Place → α → Place → Prop}
    (stage : Stage program final facts names waits name origin first count session place)
    (means : facts → traces final origin value place) :
    (pure value : Lower α).Ensures session
      (Arrives program names name origin first count final traces) errors :=
  .of_ok rfl ⟨place, stage.fills, stage.grows, fun precedes => means (stage.known precedes)⟩

/-! ### Annotations and tables -/

theorem thenAddText {rest : Code.DataId → Lower β} {text : String}
    (stage : Stage program final facts names waits name origin first (count + 1) session place)
    (continues : ∀ data next, Stage program final
        (facts ∧ final.cursor.module.data.get? data =
          some ⟨data, Code.Module.textBytes text⟩) names waits name origin first count next
        place →
      (rest data).Ensures next post errors) :
    (Lower.buildWith (fun cursor =>
      let (data, module) := cursor.module.addText text
      .ok (data, { cursor with module := module })) >>= rest).Ensures session post errors := by
  refine .bind_ok rfl (continues ⟨session.cursor.module.nextData⟩ _ ?_)
  have stock := stage.fills.stock
  have found : ∀ id, (session.cursor.module.addText text).2.data.get? id =
      if (⟨session.cursor.module.nextData⟩ : Code.DataId) = id then
        some ⟨⟨session.cursor.module.nextData⟩, Code.Module.textBytes text⟩
      else session.cursor.module.data.get? id := fun id => Table.get?_insert _ _ _ _
  have advances : (session.cursor.module.nextData + 1).toNat =
      session.cursor.module.nextData.toNat + 1 := by
    have := stock.data
    rw [UInt32.toNat_add]
    simp only [UInt32.toNat_one]
    omega
  refine stage.learn ⟨fun _ _ => id, fun _ _ => id, fun _ _ => id, ?_, fun _ => rfl⟩ rfl rfl
    ⟨?_, ?_, stock.globalNumbers, ?_⟩ (Nat.le_succ count) ?_
  · intro id object old
    refine (found id).trans ?_
    rw [if_neg]
    · exact old
    · intro same
      have below := stock.dataNumbers id object old
      rw [← same] at below
      exact Nat.lt_irrefl _ below
  · have := stock.globals
    change session.cursor.module.nextGlobal.toNat + count < 2 ^ 32
    omega
  · have := stock.data
    change (session.cursor.module.nextData + 1).toNat + count < 2 ^ 32
    omega
  · intro id object present
    change id.number.toNat < (session.cursor.module.nextData + 1).toNat
    rw [advances]
    replace present := (found id).symm.trans present
    split at present
    · rename_i same
      rw [← same]
      exact Nat.lt_succ_self _
    · exact Nat.lt_succ_of_lt (stock.dataNumbers id object present)
  · intro precedes
    refine precedes.data _ _ ((found _).trans ?_)
    rw [if_pos rfl]

theorem thenAddGlobal {rest : Code.GlobalId → Lower β} {text : String} {ty : Ty}
    {initial : Code.Constant} {align : UInt32}
    (stage : Stage program final facts names waits name origin first (count + 1) session place)
    (continues : ∀ global next, Stage program final
        (facts ∧ final.cursor.module.global? global =
          some ⟨global, text, ty, initial, align, .exported⟩) names waits name origin first count
        next place →
      (rest global).Ensures next post errors) :
    (Lower.buildWith (fun cursor =>
      let (global, module) := cursor.module.addGlobal text ty initial align
      .ok (global, { cursor with module := module })) >>= rest).Ensures session post errors := by
  refine .bind_ok rfl (continues ⟨session.cursor.module.nextGlobal⟩ _ ?_)
  have stock := stage.fills.stock
  have found : ∀ id, (session.cursor.module.addGlobal text ty initial align).2.global? id =
      if (⟨session.cursor.module.nextGlobal⟩ : Code.GlobalId) = id then
        some ⟨⟨session.cursor.module.nextGlobal⟩, text, ty, initial, align, .exported⟩
      else session.cursor.module.global? id := fun id => Table.get?_insert _ _ _ _
  have advances : (session.cursor.module.nextGlobal + 1).toNat =
      session.cursor.module.nextGlobal.toNat + 1 := by
    have := stock.globals
    rw [UInt32.toNat_add]
    simp only [UInt32.toNat_one]
    omega
  refine stage.learn ⟨fun _ _ => id, fun _ _ => id, ?_, fun _ _ => id, fun _ => rfl⟩ rfl rfl
    ⟨?_, ?_, ?_, stock.dataNumbers⟩ (Nat.le_succ count) ?_
  · intro id global old
    refine (found id).trans ?_
    rw [if_neg]
    · exact old
    · intro same
      have below := stock.globalNumbers id global old
      rw [← same] at below
      exact Nat.lt_irrefl _ below
  · have := stock.globals
    change (session.cursor.module.nextGlobal + 1).toNat + count < 2 ^ 32
    omega
  · have := stock.data
    change session.cursor.module.nextData.toNat + count < 2 ^ 32
    omega
  · intro id global present
    change id.number.toNat < (session.cursor.module.nextGlobal + 1).toNat
    rw [advances]
    replace present := (found id).symm.trans present
    split at present
    · rename_i same
      rw [← same]
      exact Nat.lt_succ_self _
    · exact Nat.lt_succ_of_lt (stock.globalNumbers id global present)
  · intro precedes
    refine precedes.globals _ _ ((found _).trans ?_)
    rw [if_pos rfl]

section Ordinary

variable (ordinary : ∀ error : Error, error.IsOrdinary → errors error)

include ordinary

theorem thenStorage {rest : Operand → Lower β} {id : VarId}
    (stage : Stage program final facts names waits name origin first count session place)
    (continues : ∀ address, Stage program final
        (facts ∧ final.annotations.storageOf id = .ok address) names waits name origin first count
        session place →
      (rest address).Ensures session post errors) :
    (Lower.consult (fun annotations => annotations.storageOf id) >>= rest).Ensures session post
      errors :=
  .consult_bind (fun _ _ => ordinary _ trivial) fun address found =>
    continues address (stage.remember fun precedes => precedes.storage id address found)

theorem thenLoop {rest : LoopBlocks → Lower β} {id : StmtId}
    (stage : Stage program final facts names waits name origin first count session place)
    (continues : ∀ blocks, Stage program final
        (facts ∧ final.annotations.loopOf id = .ok blocks) names waits name origin first count
        session place →
      (rest blocks).Ensures session post errors) :
    (Lower.consult (fun annotations => annotations.loopOf id) >>= rest).Ensures session post
      errors :=
  .consult_bind (fun _ _ => ordinary _ trivial) fun blocks found =>
    continues blocks (stage.remember fun precedes => precedes.loops id blocks found)

theorem thenSetStorage {rest : Unit → Lower β} {id : VarId} {address : Operand}
    (stage : Stage program final facts names waits name origin first count session place)
    (continues : ∀ next, Stage program final
        (facts ∧ final.annotations.storageOf id = .ok address) names waits name origin first count
        next place →
      (rest ()).Ensures next post errors) :
    (Lower.annotate (fun annotations => annotations.setStorage id address) >>= rest).Ensures
      session post errors := by
  refine .annotate_bind (fun _ _ => ordinary _ trivial) fun annotations done => ?_
  have loops : annotations.loops = session.annotations.loops :=
    (Annotations.setStorage_eq_ok.mp done).2 ▸ rfl
  refine continues _ (stage.note (fun _ _ => Annotations.storageOf_kept done) ?_ ?_)
  · intro other blocks found
    simp only [Annotations.loopOf, loops]
    exact found
  · intro precedes
    refine precedes.storage id address ?_
    rw [Annotations.storageOf_of_setStorage done, if_pos rfl]

theorem thenSetLoop {rest : Unit → Lower β} {id : StmtId} {blocks : LoopBlocks}
    (stage : Stage program final facts names waits name origin first count session place)
    (continues : ∀ next, Stage program final
        (facts ∧ final.annotations.loopOf id = .ok blocks) names waits name origin first count
        next place →
      (rest ()).Ensures next post errors) :
    (Lower.annotate (fun annotations => annotations.setLoop id blocks) >>= rest).Ensures
      session post errors := by
  refine .annotate_bind (fun _ _ => ordinary _ trivial) fun annotations done => ?_
  have storage : annotations.storage = session.annotations.storage :=
    (Annotations.setLoop_eq_ok.mp done).2 ▸ rfl
  refine continues _ (stage.note ?_ (fun _ _ => Annotations.loopOf_kept done) ?_)
  · intro other address found
    simp only [Annotations.storageOf, storage]
    exact found
  · intro precedes
    refine precedes.loops id blocks ?_
    rw [Annotations.loopOf_of_setLoop done, if_pos rfl]

theorem thenRecord {rest : Unit → Lower β} {id : ExprId} {value : Option Operand}
    (stage : Stage program final facts names waits name origin first count session place)
    (continues : ∀ next, Stage program final facts names waits name origin first count next
        place → (rest ()).Ensures next post errors) :
    (recordValue id value >>= rest).Ensures session post errors := by
  cases value with
  | none => exact continues session stage
  | some value =>
      change (Lower.annotate (fun annotations => annotations.setValue id value) >>= rest).Ensures
        session post errors
      refine .annotate_bind (fun _ _ => ordinary _ trivial) fun annotations done => ?_
      have same : annotations.storage = session.annotations.storage ∧
          annotations.loops = session.annotations.loops :=
        (Annotations.setValue_eq_ok.mp done).2 ▸ ⟨rfl, rfl⟩
      refine continues _ (Stage.imp (stage.note ?_ ?_ fun _ => trivial) And.left)
      · intro other address found
        simp only [Annotations.storageOf, same.1]
        exact found
      · intro other blocks found
        simp only [Annotations.loopOf, same.2]
        exact found

end Ordinary

end Rules

end Stage

end ScriptLowering.Lowering
