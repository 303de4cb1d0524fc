import ScriptLowering.Proofs.LoopExits
import ScriptLowering.Proofs.StraightLineCode
import ScriptLowering.Proofs.UnrefusedBuilding

/-! # Keeping account while lowering

The ledger of the function at hand is brought up to date with each step of lowering. Of the other
functions it is enough to know that those that nobody is at work on have no loose ends.
-/

namespace ScriptLowering.Code

open Source (StmtId)
open Lowering (Exit Jumps LoopBlocks)

/-- A part has been lowered that is left by the exits `ends`. -/
def Ledger.after (ledger : Ledger) (loops : StmtId → LoopBlocks) (ends : Exit → Prop) : Ledger :=
  { ledger with
    alive := ledger.alive ∧ ends .normal
    reached := fun block => ledger.reached block ∨ ledger.alive ∧ Jumps loops ends block }

namespace Ledger

variable {ledger : Ledger} {loops : StmtId → LoopBlocks} {ends : Exit → Prop} {block : BlockId}

@[simp] theorem known_after : (ledger.after loops ends).known block ↔ ledger.known block := .rfl

@[simp] theorem waits_after : (ledger.after loops ends).waits = ledger.waits := rfl

@[simp] theorem alive_after : (ledger.after loops ends).alive ↔ ledger.alive ∧ ends .normal := .rfl

@[simp] theorem reached_after : (ledger.after loops ends).reached block ↔
    ledger.reached block ∨ ledger.alive ∧ Jumps loops ends block := .rfl

@[simp] theorem after_normal : ledger.after loops (· = .normal) = ledger := by
  simp [after, Lowering.not_jumps_normal]

end Ledger

end ScriptLowering.Code

namespace ScriptLowering.Lowering

open Source (Program ExprId ForInit FuncId FunctionDecl Stmt StmtId VarId)
open Code (BlockId Body Ledger Operand Place Terminator)

/-! ## Sessions -/

/-- Control may get to the end of the function `name`, which has to return a value. -/
def OwesEnd (program : Program) (name : String) : Prop :=
  ∃ id decl, program.function? id = some decl ∧ decl.name = name ∧ decl.returnsNothing = false ∧
    EndsAs program decl.body .normal

/-- The function `name` is complete: no edge leads out of it, and only an end that is missing is
open. -/
structure Tidy (program : Program) (name : String) (body : Body) : Prop where
  closed : body.IsClosed
  tight : ¬ OwesEnd program name → body.IsTight

/-- Lowering can go on, and the ledger is right about the function at hand. All functions but the
`busy` ones, which are being lowered, are tidy. -/
structure Session.Reckons (program : Program) (busy touched : String → Prop) (name : String)
    (first : Session) (base : Place) (ledger : Ledger) (count : Nat) (session : Session) :
    Prop where
  working : Session.Working program first touched name ledger.waits count session
  place : ∃ place, session.Builds name place ∧ ledger.Describes base place
  standing : busy name
  accountable : ∀ other function, session.cursor.module.function? other = some function →
    function.body.Accountable
  tidy : ∀ other function, ¬ busy other → session.cursor.module.function? other = some function →
    Tidy program other function.body
  learnt : ∀ target blocks, first.annotations.loopOf target = .ok blocks →
    session.annotations.loopOf target = .ok blocks

/-- The loops around a statement have the given blocks, which are kept account of. -/
def Session.HasLoops (session : Session) (ledger : Ledger) (targets : List StmtId)
    (loops : StmtId → LoopBlocks) : Prop :=
  ∀ target ∈ targets, session.annotations.loopOf target = .ok (loops target) ∧
    ledger.known (loops target).exit ∧ ledger.known (loops target).continueTarget

namespace Session.Reckons

variable {program : Program} {busy touched : String → Prop} {name : String}
  {first session next : Session} {base : Place} {ledger : Ledger} {count : Nat}

theorem mono (reckons : Reckons program busy touched name first base ledger count session)
    {fewer : Nat} (less : fewer ≤ count) :
    Reckons program busy touched name first base ledger fewer session :=
  { reckons with working := reckons.working.mono less }

theorem describes (reckons : Reckons program busy touched name first base ledger count session)
    {place : Place} (builds : session.Builds name place) : ledger.Describes base place := by
  rcases reckons.place with ⟨other, stands, describes⟩
  exact builds.unique stands ▸ describes

theorem congr (reckons : Reckons program busy touched name first base ledger count session)
    {other : Ledger} (fewer : ∀ id, other.known id → ledger.known id)
    (waits : other.waits = ledger.waits) (alive : ledger.alive ↔ other.alive)
    (reached : ∀ id, other.known id → (ledger.reached id ↔ other.reached id))
    (closed : other.closed → ledger.closed) (tight : other.tight → ledger.tight) :
    Reckons program busy touched name first base other count session :=
  { reckons with
    working := waits ▸ reckons.working
    place := by
      rcases reckons.place with ⟨place, builds, describes⟩
      exact ⟨place, builds, describes.congr fewer waits alive reached closed tight⟩ }

theorem put (reckons : Reckons program busy touched name first base ledger count session)
    {after : Place} {later : Ledger} {fewer : Nat}
    (holds : after.body.Holds later.waits (after.owed + fewer)) (less : fewer ≤ count)
    (describes : later.Describes base after) :
    Reckons program busy touched name first base later fewer (session.put name after) where
  working := reckons.working.put holds less
  place := by
    rcases reckons.place with ⟨place, builds, _⟩
    exact ⟨after, builds.put after, describes⟩
  standing := reckons.standing
  accountable := by
    intro other function found
    rw [Session.function?_put] at found
    split at found
    · rcases Option.map_eq_some_iff.mp found with ⟨old, _, rfl⟩
      exact describes.accountable
    · exact reckons.accountable other function found
  tidy := by
    intro other function idle found
    rw [Session.function?_put, if_neg] at found
    · exact reckons.tidy other function idle found
    · rintro rfl
      exact idle reckons.standing
  learnt := reckons.learnt

theorem spend (reckons : Reckons program busy touched name first base ledger count session)
    {after : Place} {later : Ledger} (holds : after.body.Holds later.waits count)
    (enough : 1 ≤ count) (describes : later.Describes base after) :
    Reckons program busy touched name first base later (count - 1) (session.put name after) := by
  have owes := after.owed_le_one
  exact reckons.put (holds.mono (by omega)) (Nat.sub_le _ _) describes

theorem learn (reckons : Reckons program busy touched name first base ledger count session)
    (position : next.cursor.position = session.cursor.position)
    (functions : next.cursor.module.functions = session.cursor.module.functions)
    (loops : ∀ target blocks, session.annotations.loopOf target = .ok blocks →
      next.annotations.loopOf target = .ok blocks) :
    Reckons program busy touched name first base ledger count next := by
  have looks : ∀ other, next.cursor.module.function? other =
      session.cursor.module.function? other := by
    intro other
    simp only [Code.Module.function?, functions]
  exact {
    working := reckons.working.learn position functions
    place := by
      rcases reckons.place with ⟨place, ⟨stands, function, found, same⟩, describes⟩
      exact ⟨place, ⟨position.trans stands, function, (looks name).trans found, same⟩, describes⟩
    standing := reckons.standing
    accountable := fun other function found =>
      reckons.accountable other function ((looks other).symm.trans found)
    tidy := fun other function idle found =>
      reckons.tidy other function idle ((looks other).symm.trans found)
    learnt := fun target blocks found => loops target blocks (reckons.learnt target blocks found) }

theorem restart (reckons : Reckons program busy touched name first base ledger count session)
    (within : String → Prop) {place : Place} (builds : session.Builds name place) :
    Reckons program busy within name session place ledger count session :=
  { reckons with
    working := reckons.working.restart within
    place := ⟨place, builds, (reckons.describes builds).restart⟩
    learnt := fun _ _ found => found }

theorem trans (early : Reckons program busy touched name first base ledger count session)
    {within : String → Prop} {middle : Place} {later : Ledger} {more : Nat}
    (builds : session.Builds name middle)
    (late : Reckons program busy within name session middle later more next)
    (covers : ∀ other, within other → touched other) (waits : later.waits = ledger.waits)
    (known : ∀ id, later.known id → ledger.known id) (closed : later.closed → ledger.closed) :
    Reckons program busy touched name first base later more next :=
  { late with
    working := early.working.trans late.working covers
    place := by
      rcases late.place with ⟨place, stands, describes⟩
      exact ⟨place, stands, (early.describes builds).trans describes waits known closed⟩
    learnt := fun target blocks found =>
      late.learnt target blocks (early.learnt target blocks found) }

theorem foresee (reckons : Reckons program busy touched name first base ledger count session) :
    Reckons program busy touched name { first with annotations := session.annotations } base ledger
      count session :=
  { reckons with
    working := { reckons.working with others := reckons.working.others }
    learnt := fun _ _ found => found }

theorem lookBack (early : Reckons program busy touched name first base ledger count session)
    {later : Ledger} {more : Nat}
    (late : Reckons program busy touched name { first with annotations := session.annotations } base
      later more next) : Reckons program busy touched name first base later more next :=
  { late with
    working := { late.working with others := late.working.others }
    learnt := fun target blocks found =>
      late.learnt target blocks (early.learnt target blocks found) }

theorem stable (program : Program) (busy touched : String → Prop) (name : String)
    (first : Session) (base : Place) (ledger : Ledger) (count : Nat) :
    Session.Stable (Reckons program busy touched name first base ledger count) where
  stands := by
    intro session reckons
    rcases reckons.place with ⟨place, builds, _⟩
    exact ⟨name, place, builds⟩
  learn := fun session next reckons position functions loops =>
    reckons.learn position functions fun target blocks found => by
      simpa only [Annotations.loopOf, loops] using found
  add := by
    intro session other place reckons builds instruction
    rcases reckons.working.place with ⟨here, stands, holds⟩
    cases stands.name_unique builds
    cases stands.unique builds
    have isOpen := isOpen_ready place
    refine reckons.put ?_ (Nat.le_refl _) (((reckons.describes builds).ready holds).add isOpen _)
    rw [Place.owed_of_isOpen (Place.isOpen_add isOpen instruction), Nat.zero_add]
    exact Place.holds_change (Place.holds_ready holds) _
  define := by
    intro session other place reckons builds ty make
    rcases reckons.working.place with ⟨here, stands, holds⟩
    cases stands.name_unique builds
    cases stands.unique builds
    have isOpen := isOpen_ready place
    refine reckons.put ?_ (Nat.le_refl _)
      (((reckons.describes builds).ready holds).define isOpen ty make)
    rw [Place.owed_of_isOpen (Place.isOpen_define isOpen ty make), Nat.zero_add]
    exact Place.holds_define (Place.holds_ready holds) ty make

end Session.Reckons

/-! ## Steps -/

section Steps

variable {program : Program} {busy touched : String → Prop} {name : String}
  {first session : Session} {base : Place} {ledger : Ledger} {count : Nat}
  {α β : Type} {post : β → Session → Prop} {errors : Error → Prop}

namespace Session.Reckons

theorem thenStraight {step : Lower α} {rest : α → Lower β}
    (reckons : Reckons program busy touched name first base ledger count session)
    (ordinary : ∀ error : Error, error.IsUnrefused → errors error) (straight : Straight step)
    (continues : ∀ value next, Reckons program busy touched name first base ledger count next →
      (rest value).Ensures next post errors) : (step >>= rest).Ensures session post errors := by
  have kept := straight _ (stable program busy touched name first base ledger count) session reckons
  exact (kept.mono_errors ordinary).bind continues

theorem thenCreate {rest : BlockId → Lower β} {label : String}
    (reckons : Reckons program busy touched name first base ledger count session)
    (enough : 1 ≤ count)
    (continues : ∀ id next, ¬ ledger.known id →
      Reckons program busy touched name first base (ledger.create id) (count - 1) next →
      (rest id).Ensures next post errors) :
    (createBlock label >>= rest).Ensures session post errors := by
  rcases reckons.working.place with ⟨place, builds, holds⟩
  have describes := reckons.describes builds
  have owes := Place.owed_create holds label
  have created := holds.create (by omega) label
  have room : place.body.Holds ledger.waits (place.owed + count - 1 + 1) :=
    holds.mono (by omega)
  refine .bind_ok (createBlock_eq builds label) (continues _ _ describes.unknown
    (reckons.put (created.mono (by omega)) (Nat.sub_le _ _) (describes.create room label)))

theorem thenTerminate {rest : Unit → Lower β} {terminator : Terminator}
    (reckons : Reckons program busy touched name first base ledger count session)
    (enough : 1 ≤ count) (finished : terminator.isFinished = true)
    (known : ∀ target ∈ terminator.successors, ledger.known target)
    (continues : ∀ next, Reckons program busy touched name first base
      (ledger.leave (· ∈ terminator.successors)) (count - 1) next →
      (rest ()).Ensures next post errors) :
    (Lower.append (fun cursor => cursor.terminate terminator) >>= rest).Ensures session post
      errors := by
  rcases reckons.working.place with ⟨place, builds, holds⟩
  have ready := (reckons.describes builds).ready holds
  exact .bind_ok (append_terminate_eq builds terminator) (continues _ (reckons.spend
    (Place.holds_change (Place.holds_ready holds) _) enough
    (ready.terminate (isOpen_ready place) finished known)))

theorem thenLeaveTo {rest : Unit → Lower β} {target : BlockId}
    (reckons : Reckons program busy touched name first base ledger count session)
    (enough : 1 ≤ count) (known : ledger.known target)
    (continues : ∀ next, Reckons program busy touched name first base (ledger.leave (· = target))
      (count - 1) next → (rest ()).Ensures next post errors) :
    (leaveTo target >>= rest).Ensures session post errors := by
  rcases reckons.working.place with ⟨place, builds, holds⟩
  exact .bind_ok (leaveTo_eq builds target) (continues _ (reckons.spend
    (Place.holds_leaveTo (holds.mono (Nat.le_add_left _ _)) target) enough
    ((reckons.describes builds).leaveTo known)))

/-- Afterwards, `waits` are the blocks that wait and `known` those that are kept account of. -/
theorem thenEnter {rest : Unit → Lower β} {id : BlockId} {closing : Bool}
    (reckons : Reckons program busy touched name first base ledger count session)
    (enough : 1 ≤ count) (waits : List BlockId) (known : BlockId → Prop)
    (perm : ledger.waits.Perm (id :: waits)) (isKnown : ledger.known id)
    (asleep : base.isLive = false → ¬ ledger.reached id)
    (fewer : ∀ other, known other → ledger.known other)
    (stays : known id → base.isLive = true → ledger.alive ∨ ledger.reached id)
    (continues : ∀ next, Reckons program busy touched name first base
      (ledger.enter id waits known) (count - 1) next → (rest ()).Ensures next post errors) :
    (enter id closing >>= rest).Ensures session post errors := by
  rcases reckons.working.place with ⟨place, builds, holds⟩
  have describes : Ledger.Describes { ledger with waits := id :: waits } base place :=
    (reckons.describes builds).permute perm
  rcases describes.enter rfl ((holds.mono (Nat.le_add_left _ _)).perm perm) isKnown asleep fewer
    stays closing with ⟨after, enters, holdsAfter, describesAfter⟩
  have runs := attempt_enter builds id closing
  rw [enters] at runs
  exact .bind_ok runs (continues _ (reckons.spend holdsAfter enough describesAfter))

theorem thenReturnIfLive {rest : Unit → Lower β} {value : Option Operand}
    (reckons : Reckons program busy touched name first base ledger count session)
    (enough : 1 ≤ count)
    (continues : ∀ next, Reckons program busy touched name first base
      { ledger with alive := False } (count - 1) next → (rest ()).Ensures next post errors) :
    (returnIfLive value >>= rest).Ensures session post errors := by
  rcases reckons.working.place with ⟨place, builds, holds⟩
  exact .bind_ok (returnIfLive_eq builds value) (continues _ (reckons.spend
    (Place.holds_returnIfLive (holds.mono (Nat.le_add_left _ _)) value) enough
    ((reckons.describes builds).returnIfLive value)))

theorem thenSetLoop {rest : Unit → Lower β} {id : StmtId} {blocks : LoopBlocks}
    (reckons : Reckons program busy touched name first base ledger count session)
    (ordinary : ∀ error : Error, error.IsUnrefused → errors error)
    (continues : ∀ next, next.annotations.loopOf id = .ok blocks →
      Reckons program busy touched name first base ledger count next →
      (rest ()).Ensures next post errors) :
    (Lower.annotate (fun annotations => annotations.setLoop id blocks) >>= rest).Ensures session
      post errors := by
  refine .annotate_bind (fun fault _ => ordinary _ (Error.isUnrefused_program fault))
    fun annotations done => ?_
  refine continues _ ?_ (reckons.learn rfl rfl fun _ _ => Annotations.loopOf_kept done)
  rw [Annotations.loopOf_of_setLoop done, if_pos rfl]

end Session.Reckons

end Steps

end ScriptLowering.Lowering
