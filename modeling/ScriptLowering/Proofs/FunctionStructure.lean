import ScriptLowering.Proofs.LoweringTraces

/-! # The structure of generated functions

Every part of lowering takes a regular place of the current function to a regular place that
has grown out of it, in the way that its trace tells. It leaves all other functions alone but
those that it lowers itself, and nothing that a session has learnt is lost. Nothing is assumed
about the program except that no function is lowered twice and that the numbers of blocks,
temps, globals and data do not run out.
-/

namespace ScriptLowering.Lowering

open Source (Program ExprId StmtId VarId FuncId FunctionDecl)
open Code (BlockId Cursor Instruction Operand Place Terminator Ty)

/-! ## What sessions keep -/

/-- What the session knows, `next` knows as well. -/
structure Session.Precedes (session next : Session) : Prop where
  storage : ∀ id address, session.annotations.storageOf id = .ok address →
    next.annotations.storageOf id = .ok address
  loops : ∀ id blocks, session.annotations.loopOf id = .ok blocks →
    next.annotations.loopOf id = .ok blocks
  globals : ∀ id global, session.cursor.module.global? id = some global →
    next.cursor.module.global? id = some global
  data : ∀ id object, session.cursor.module.data.get? id = some object →
    next.cursor.module.data.get? id = some object
  signatures : ∀ name, (next.cursor.module.function? name).map Code.Function.signature =
    (session.cursor.module.function? name).map Code.Function.signature

namespace Session.Precedes

variable {first second third : Session}

theorem refl (session : Session) : session.Precedes session :=
  ⟨fun _ _ => id, fun _ _ => id, fun _ _ => id, fun _ _ => id, fun _ => rfl⟩

theorem trans (left : first.Precedes second) (right : second.Precedes third) :
    first.Precedes third where
  storage := fun id address known => right.storage id address (left.storage id address known)
  loops := fun id blocks known => right.loops id blocks (left.loops id blocks known)
  globals := fun id global known => right.globals id global (left.globals id global known)
  data := fun id object known => right.data id object (left.data id object known)
  signatures := fun name => (right.signatures name).trans (left.signatures name)

theorem put (session : Session) (name : String) (place : Place) :
    session.Precedes (session.put name place) where
  storage := fun _ _ => id
  loops := fun _ _ => id
  globals := fun _ _ => id
  data := fun _ _ => id
  signatures := by
    intro other
    rw [Session.function?_put]
    split
    · cases session.cursor.module.function? other <;> rfl
    · rfl

theorem move (session : Session) (position : Code.Position) :
    session.Precedes { session with cursor := session.cursor.setPosition position } :=
  ⟨fun _ _ => id, fun _ _ => id, fun _ _ => id, fun _ _ => id, fun _ => rfl⟩

end Session.Precedes

/-- At least `count` globals and data objects can be added before their numbers run out. -/
structure Session.Stock (session : Session) (count : Nat) : Prop where
  globals : session.cursor.module.nextGlobal.toNat + count < 2 ^ 32
  data : session.cursor.module.nextData.toNat + count < 2 ^ 32
  globalNumbers : ∀ id global, session.cursor.module.global? id = some global →
    id.number.toNat < session.cursor.module.nextGlobal.toNat
  dataNumbers : ∀ id object, session.cursor.module.data.get? id = some object →
    id.number.toNat < session.cursor.module.nextData.toNat

theorem Session.Stock.mono {session : Session} {more less : Nat} (stock : session.Stock more)
    (fewer : less ≤ more) : session.Stock less :=
  { stock with
    globals := by have := stock.globals; omega
    data := by have := stock.data; omega }

/-- The function `name` of the session is filled at `place`, and at least `count` blocks, temps,
globals and data objects can be added. -/
structure Session.Fills (session : Session) (name : String) (place : Place) (count : Nat) :
    Prop where
  builds : session.Builds name place
  regular : place.Regular
  room : place.Room (count + 8)
  stock : session.Stock count

namespace Session.Fills

variable {session : Session} {name : String} {place : Place} {count more : Nat}

theorem mono (fills : session.Fills name place count) {fewer : Nat} (less : fewer ≤ count) :
    session.Fills name place fewer :=
  { fills with
    room := fills.room.mono (by omega)
    stock := fills.stock.mono less }

theorem fit (fills : session.Fills name place count) : place.Fit :=
  ⟨fills.regular, fills.room.mono (by omega)⟩

theorem put (fills : session.Fills name place more) {after : Place} (regular : after.Regular)
    (room : after.Room (count + 8)) (fewer : count ≤ more) :
    (session.put name after).Fills name after count where
  builds := fills.builds.put after
  regular := regular
  room := room
  stock := ⟨(fills.stock.mono fewer).globals, (fills.stock.mono fewer).data,
    fills.stock.globalNumbers, fills.stock.dataNumbers⟩

end Session.Fills

/-- The function `name` has been lowered. -/
def Session.Built (program : Program) (session : Session) (name : String) : Prop :=
  ∃ id decl place function, program.function? id = some decl ∧ decl.name = name ∧
    session.cursor.module.function? name = some function ∧
    function.body = place.pruned.body ∧
    ∀ final, session.Precedes final → LowersFunction program final decl place

theorem Session.Built.later {program : Program} {session next : Session} {name : String}
    (built : session.Built program name) (precedes : session.Precedes next)
    (same : next.cursor.module.function? name = session.cursor.module.function? name) :
    next.Built program name := by
  rcases built with ⟨id, decl, ended, function, known, named, found, body, traces⟩
  exact ⟨id, decl, ended, function, known, named, same.trans found, body,
    fun final later => traces final (precedes.trans later)⟩

/-! ## Growing sessions -/

/-- `next` has come out of `session` while the function `name` grew from `place` to `after`.
Of the other functions only those in `names` have changed, which have been lowered. -/
structure Grows (program : Program) (names : List String) (name : String) (place : Place)
    (session next : Session) (after : Place) : Prop where
  within : place.Within place.body.nextBlock.toNat after
  precedes : session.Precedes next
  others : ∀ other, other ≠ name → other ∉ names →
    next.cursor.module.function? other = session.cursor.module.function? other
  built : ∀ other ∈ names, next.Built program other

namespace Grows

variable {program : Program} {names more : List String} {name : String}
  {place middle after : Place} {session between next : Session}

theorem refl (program : Program) (name : String) (place : Place) (session : Session) :
    Grows program [] name place session session place :=
  ⟨.refl _ place, .refl session, fun _ _ _ => rfl, fun _ member => by cases member⟩

theorem trans (first : Grows program names name place session between middle)
    (second : Grows program more name middle between next after)
    (fresh : name ∉ names) (apart : ∀ other ∈ names, other ∉ more) :
    Grows program (names ++ more) name place session next after where
  within := first.within.trans (second.within.mono first.within.blocks)
  precedes := first.precedes.trans second.precedes
  others := by
    intro other different missing
    rw [List.mem_append, not_or] at missing
    rw [second.others other different missing.2, first.others other different missing.1]
  built := by
    intro other member
    rcases List.mem_append.mp member with early | late
    · have different : other ≠ name := fun same => fresh (same ▸ early)
      exact (first.built other early).later second.precedes
        (second.others other different (apart other early))
    · exact second.built other late

theorem put (grows : Grows program names name place session between middle) (fresh : name ∉ names)
    (within : middle.Within place.body.nextBlock.toNat after) :
    Grows program names name place session (between.put name after) after where
  within := grows.within.trans within
  precedes := grows.precedes.trans (.put between name after)
  others := by
    intro other different missing
    rw [Session.function?_put, if_neg (fun same => different same.symm)]
    exact grows.others other different missing
  built := by
    intro other member
    have different : name ≠ other := fun same => fresh (same ▸ member)
    refine (grows.built other member).later (.put between name after) ?_
    rw [Session.function?_put, if_neg different]

theorem learn (grows : Grows program names name place session between middle)
    (precedes : between.Precedes next)
    (functions : next.cursor.module.functions = between.cursor.module.functions) :
    Grows program names name place session next middle where
  within := grows.within
  precedes := grows.precedes.trans precedes
  others := by
    intro other different missing
    rw [← grows.others other different missing, Code.Module.function?, functions]
    rfl
  built := by
    intro other member
    refine (grows.built other member).later precedes ?_
    rw [Code.Module.function?, functions]
    rfl

end Grows

/-- The functions may be lowered and have not been opened yet. -/
def Session.Unopened (session : Session) (allowed : String → Prop) (names : List String) :
    Prop :=
  ∀ name ∈ names, allowed name ∧ ∃ function,
    session.cursor.module.function? name = some function ∧ function.body = .empty

/-- A step from `session` at `place` has come to `next`, with room left, and left a trace. -/
def Arrives {α : Type} (program : Program) (names : List String) (name : String)
    (place : Place) (session : Session) (count : Nat) (final : Session)
    (traces : Session → Place → α → Place → Prop) (value : α) (next : Session) : Prop :=
  ∃ after, next.Fills name after count ∧ Grows program names name place session next after ∧
    (next.Precedes final → traces final place value after)

/-- A step of lowering that adds at most `cost` to the current function and to the module, opens
the functions `names`, and leaves a trace. -/
def Keeps {α : Type} (program : Program) (allowed : String → Prop) (errors : Error → Prop)
    (cost : Nat) (names : List String) (step : Lower α)
    (traces : Session → Place → α → Place → Prop) : Prop :=
  ∀ (final session : Session) (name : String) (place : Place) (count : Nat),
    session.Fills name place (cost + count) → name ∉ names → names.Nodup →
    session.Unopened allowed names →
      step.Ensures session (Arrives program names name place session count final traces) errors

theorem Keeps.mono {α : Type} {program : Program} {allowed : String → Prop}
    {errors : Error → Prop} {cost more : Nat} {names : List String} {step : Lower α}
    {traces : Session → Place → α → Place → Prop}
    (keeps : Keeps program allowed errors cost names step traces) (fewer : cost ≤ more) :
    Keeps program allowed errors more names step traces :=
  fun final session name place count fills =>
    keeps final session name place count (fills.mono (by omega))

/-- A step of lowering that opens no functions. -/
abbrev Computes {α : Type} (program : Program) (errors : Error → Prop) (cost : Nat)
    (step : Lower α) (traces : Session → Place → α → Place → Prop) : Prop :=
  Keeps program (fun _ => True) errors cost [] step traces

theorem Computes.start {α : Type} {program : Program} {errors : Error → Prop} {cost : Nat}
    {step : Lower α} {traces : Session → Place → α → Place → Prop}
    (computes : ∀ final session name place count, session.Fills name place (cost + count) →
      step.Ensures session (Arrives program [] name place session count final traces) errors) :
    Computes program errors cost step traces :=
  fun final session name place count fills _ _ _ =>
    computes final session name place count fills

theorem Computes.apply {α : Type} {program : Program} {errors : Error → Prop} {cost : Nat}
    {step : Lower α} {traces : Session → Place → α → Place → Prop}
    (computes : Computes program errors cost step traces) (final : Session) {session : Session}
    {name : String} {place : Place} {count : Nat}
    (fills : session.Fills name place (cost + count)) :
    step.Ensures session (Arrives program [] name place session count final traces) errors :=
  computes final session name place count fills (by simp) List.nodup_nil
    fun _ member => by cases member

theorem Computes.mono {α : Type} {program : Program} {errors : Error → Prop} {cost more : Nat}
    {step : Lower α} {traces : Session → Place → α → Place → Prop}
    (computes : Computes program errors cost step traces) (fewer : cost ≤ more) :
    Computes program errors more step traces :=
  Keeps.mono computes fewer

theorem Computes.keeps {α : Type} {program : Program} {allowed : String → Prop}
    {errors : Error → Prop} {cost : Nat} {step : Lower α}
    {traces : Session → Place → α → Place → Prop}
    (computes : Computes program errors cost step traces) :
    Keeps program allowed errors cost [] step traces :=
  fun final _ _ _ _ fills _ _ _ => computes.apply final fills

theorem Computes.some {α : Type} {program : Program} {errors : Error → Prop} {cost : Nat}
    {step : Lower α} {traces : Session → Place → Option α → Place → Prop}
    (computes : Computes program errors cost step fun final place value after =>
      traces final place (some value) after) :
    Computes program errors cost (Option.some <$> step) traces := by
  refine .start fun final session name place count fills => .map ?_
  exact computes.apply final fills

/-- The failures that have nothing to do with building or verifying code. -/
def Error.IsOrdinary : Error → Prop
  | .build _ | .rejected _ | .pipeline _ => False
  | _ => True

/-! ## Operations of bounded size -/

/-- An operation that keeps places regular and adds at most `cost` blocks and temps. -/
structure SafeOperation (cost : Nat) (operate : Place → Place) : Prop where
  regular : ∀ (place : Place) count, place.Regular → place.Room (cost + count) →
    (operate place).Regular
  within : ∀ (place : Place) count, place.Room (cost + count) →
    place.Within place.body.nextBlock.toNat (operate place)
  room : ∀ (place : Place) count, place.Room (cost + count) → (operate place).Room count

namespace SafeOperation

theorem add {instruction : Instruction} (defined : instruction.defined? = none) :
    SafeOperation 1 fun place => place.ready.add instruction where
  regular := by
    intro place count regular room
    rw [Nat.add_comm] at room
    exact (regular.ready room).add (isOpen_ready place) defined
  within := by
    intro place count room
    rw [Nat.add_comm] at room
    exact (Place.within_ready room (Nat.le_refl _)).trans
      (Place.within_add _ (isOpen_ready place) instruction)
  room := by
    intro place count room
    rw [Nat.add_comm] at room
    exact room.ready.change _

theorem terminate (terminator : Terminator) :
    SafeOperation 1 fun place => place.ready.terminate terminator where
  regular := by
    intro place count regular room
    rw [Nat.add_comm] at room
    exact (regular.ready room).terminate (isOpen_ready place) terminator
  within := by
    intro place count room
    rw [Nat.add_comm] at room
    exact (Place.within_ready room (Nat.le_refl _)).trans
      (Place.within_terminate _ (isOpen_ready place) terminator)
  room := by
    intro place count room
    rw [Nat.add_comm] at room
    exact room.ready.change _

theorem define (ty : Ty) {instruction : Operand → Instruction}
    (defined : ∀ temp, (instruction (.temp temp)).defined? = some temp) :
    SafeOperation 2 fun place => place.ready.define ty instruction where
  regular := by
    intro place count regular room
    have enough : place.Room (count + 1 + 1) := room.mono (by omega)
    exact (regular.ready enough).define (isOpen_ready place) enough.ready defined
  within := by
    intro place count room
    have enough : place.Room (count + 1 + 1) := room.mono (by omega)
    exact (Place.within_ready enough (Nat.le_refl _)).trans
      (Place.within_define _ (isOpen_ready place) ty instruction)
  room := by
    intro place count room
    have enough : place.Room (count + 1 + 1) := room.mono (by omega)
    exact enough.ready.define ty instruction

end SafeOperation

/-! ## Functions along a way -/

/-- The names of the functions that lowering opens on the way through `nodes`. -/
def namesOf (program : Program) (nodes : List Node) : List String :=
  (functionsOf nodes).filterMap fun id => (program.function? id).map FunctionDecl.name

@[simp] theorem namesOf_append (program : Program) (first second : List Node) :
    namesOf program (first ++ second) = namesOf program first ++ namesOf program second := by
  simp [namesOf]

theorem namesOf_flatMap {α : Type} (program : Program) (walk : α → List Node)
    (items : List α) :
    namesOf program (items.flatMap walk) = items.flatMap fun item => namesOf program (walk item) := by
  induction items with
  | nil => rfl
  | cons head tail induction => simp [induction]

theorem namesOf_of_functionsOf {program : Program} {nodes : List Node}
    (none : functionsOf nodes = []) : namesOf program nodes = [] := by
  rw [namesOf, none]
  rfl

@[simp] theorem namesOf_walkExpr (program : Program) (id : ExprId) :
    namesOf program (walkExpr program id) = [] := by
  simp [namesOf]

@[simp] theorem namesOf_walkExprs (program : Program) (ids : List ExprId) :
    namesOf program (ids.flatMap (walkExpr program)) = [] := by
  simp [namesOf_flatMap]

end ScriptLowering.Lowering
