import Mathlib.Data.List.Nodup
import Mathlib.Data.List.Perm.Subperm
import ScriptLowering.Proofs.FinishedFunctions
import ScriptLowering.Proofs.RelabelledCode

/-! # Two runs side by side

Two runs of the same steps, from sessions that have something in common. What they have in common
is said by a link: the functions, variables, loops and expressions that both sessions know in the
same way, up to the numbers of data and the names of variables. As long as the steps look at
nothing else, both runs succeed or both fail, and the sessions in which they end are linked again.
-/

namespace ScriptLowering.Table

universe u v

variable {κ : Type u} {α : Type v} [DecidableEq κ]

/-- Two tables that started out as `left` and `right`. They agree on the keys in `common`, and
only the keys in `own` have been written since. -/
structure Tracks (common own : κ → Prop) (convert : α → α) (left right first second : Table κ α) :
    Prop where
  agree : ∀ key, common key → second.get? key = (first.get? key).map convert
  firstKept : ∀ key, ¬ own key → first.get? key = left.get? key
  secondKept : ∀ key, ¬ own key → second.get? key = right.get? key

theorem Tracks.insert {common own : κ → Prop} {convert : α → α} {left right first second : Table κ α}
    (tracks : Tracks common own convert left right first second) {key : κ} (isOwn : own key)
    (value : α) :
    Tracks common own convert left right (first.insert key value)
      (second.insert key (convert value)) where
  agree := by
    intro other isCommon
    rw [get?_insert, get?_insert, tracks.agree other isCommon]
    split <;> rfl
  firstKept := by
    intro other notOwn
    have different : key ≠ other := fun same => notOwn (same ▸ isOwn)
    rw [get?_insert_other _ _ different]
    exact tracks.firstKept other notOwn
  secondKept := by
    intro other notOwn
    have different : key ≠ other := fun same => notOwn (same ▸ isOwn)
    rw [get?_insert_other _ _ different]
    exact tracks.secondKept other notOwn

theorem Tracks.modify {common own : κ → Prop} {convert : α → α} {left right first second : Table κ α}
    (tracks : Tracks common own convert left right first second) {key : κ} (isOwn : own key)
    {edit edited : α → α} (natural : ∀ value, convert (edit value) = edited (convert value)) :
    Tracks common own convert left right (first.modify key edit) (second.modify key edited) where
  agree := by
    intro other isCommon
    rw [get?_modify, get?_modify, tracks.agree other isCommon]
    split
    · cases first.get? other <;> simp [natural]
    · rfl
  firstKept := by
    intro other notOwn
    have different : key ≠ other := fun same => notOwn (same ▸ isOwn)
    rw [get?_modify, if_neg different]
    exact tracks.firstKept other notOwn
  secondKept := by
    intro other notOwn
    have different : key ≠ other := fun same => notOwn (same ▸ isOwn)
    rw [get?_modify, if_neg different]
    exact tracks.secondKept other notOwn

theorem Tracks.contains_eq {common own : κ → Prop} {convert : α → α}
    {left right first second : Table κ α}
    (tracks : Tracks common own convert left right first second) {key : κ}
    (isCommon : common key) : second.contains key = first.contains key := by
  simp [contains, tracks.agree key isCommon]

theorem keys_insert_of_not_mem {table : Table κ α} {key : κ} (fresh : key ∉ table.keys) (value : α) :
    (table.insert key value).keys = table.keys ++ [key] := by
  change (insertEntry key value table.entries).map Prod.fst = _
  rw [map_fst_insertEntry]
  exact if_neg fresh

theorem size_insert {table : Table κ α} {key : κ} (fresh : key ∉ table.keys) (value : α) :
    (table.insert key value).size = table.size + 1 := by
  simp [size, insert, insertEntry_of_not_mem fresh]

theorem size_le_insert (table : Table κ α) (key : κ) (value : α) :
    table.size ≤ (table.insert key value).size := by
  by_cases known : key ∈ table.keys
  · have same := congrArg List.length (map_fst_insertEntry key value table.entries)
    rw [if_pos (show key ∈ table.entries.map Prod.fst from known), List.length_map,
      List.length_map] at same
    exact Nat.le_of_eq same.symm
  · rw [size_insert known]
    exact Nat.le_succ _

end ScriptLowering.Table

namespace ScriptLowering.Code

/-- All of a function but its body. -/
def Function.heading (function : Function) : Signature × Linkage :=
  (function.signature, function.linkage)

/-- The same functions are declared in the same order. -/
structure Module.SameHeadings (module next : Module) : Prop where
  name : next.name = module.name
  names : next.functions.keys = module.functions.keys
  headings : ∀ name, (next.function? name).map Function.heading =
    (module.function? name).map Function.heading

theorem Module.SameHeadings.refl (module : Module) : module.SameHeadings module :=
  ⟨rfl, rfl, fun _ => rfl⟩

theorem Module.SameHeadings.trans {module middle next : Module} (first : module.SameHeadings middle)
    (second : middle.SameHeadings next) : module.SameHeadings next :=
  ⟨second.name.trans first.name, second.names.trans first.names,
    fun name => (second.headings name).trans (first.headings name)⟩

def Module.addTexts (module : Module) (texts : List String) : Module :=
  texts.foldl (fun module text => (module.addText text).2) module

theorem Module.addTexts_concat (module : Module) (texts : List String) (text : String) :
    module.addTexts (texts ++ [text]) = ((module.addTexts texts).addText text).2 := by
  simp [Module.addTexts, List.foldl_append]

/-! ## Steps that can be refused -/

namespace Place

/-- Lay out a block behind `previous`, or at the end. -/
def tryLayOut (place : Place) (id : BlockId) (previous : Option BlockId) :
    Except BuildError Place := do
  Cursor.checkDetached place.body id
  match previous.bind place.body.position? with
  | some index =>
      return { place with body :=
        { place.body with layout := place.body.layout.insertIdx (index + 1) id } }
  | none => return { place with body := { place.body with layout := place.body.layout ++ [id] } }

def tryDiscard (place : Place) (id : BlockId) : Except BuildError Place :=
  if place.body.isLaidOut id then .error (.discardOfLaidOut id)
  else if (place.body.block? id).isNone then .error (.blockMissing id)
  else .ok (place.discard id)

def tryEnter (place : Place) (id : BlockId) (closing : Bool) : Except BuildError Place :=
  let left := place.leaveTo id
  if left.body.predecessorCount id = 0 then
    if closing then left.tryDiscard id else .ok ⟨left.body, some id⟩
  else (left.tryLayOut id place.block).map fun next => ⟨next.body, some id⟩

variable (change : DataId → DataId) (place : Place)

theorem checkDetached_relabel (body : Body) (id : BlockId) :
    Cursor.checkDetached (body.relabel change) id = Cursor.checkDetached body id := by
  simp only [Cursor.checkDetached, Body.block?_relabel]
  cases body.block? id <;> rfl

theorem tryLayOut_relabel (id : BlockId) (previous : Option BlockId) :
    (place.relabel change).tryLayOut id previous =
      (place.tryLayOut id previous).map (relabel change) := by
  have positions : (place.relabel change).body.position? = place.body.position? := rfl
  simp only [tryLayOut, positions]
  rw [show Cursor.checkDetached (place.relabel change).body id =
    Cursor.checkDetached place.body id from checkDetached_relabel change place.body id]
  cases Cursor.checkDetached place.body id with
  | error error => rfl
  | ok _ => cases previous.bind place.body.position? <;> rfl

theorem tryDiscard_relabel (id : BlockId) :
    (place.relabel change).tryDiscard id = (place.tryDiscard id).map (relabel change) := by
  have found : ((place.relabel change).body.block? id).isNone = (place.body.block? id).isNone := by
    rw [show (place.relabel change).body.block? id = _ from place.body.block?_relabel change id]
    simp
  have laidOut : (place.relabel change).body.isLaidOut id = place.body.isLaidOut id := rfl
  simp only [tryDiscard, found, laidOut]
  split
  · rfl
  split
  · rfl
  · simp only [Except.map, discard, relabel, Body.relabel, Table.erase, Table.mapValues_filterKeys]

theorem tryEnter_relabel (id : BlockId) (closing : Bool) :
    (place.relabel change).tryEnter id closing =
      (place.tryEnter id closing).map (relabel change) := by
  simp only [tryEnter, ← relabel_leaveTo]
  rw [show ((place.leaveTo id).relabel change).body.predecessorCount id = _ from
    (place.leaveTo id).body.predecessorCount_relabel change id]
  split
  · split
    · exact tryDiscard_relabel change _ id
    · rfl
  · rw [tryLayOut_relabel, block_relabel]
    cases (place.leaveTo id).tryLayOut id place.block <;> rfl

end Place

namespace Cursor

variable {cursor : Cursor} {name : String} {place : Place}

theorem Builds.tryAppend (builds : cursor.Builds name place) (id : BlockId) :
    cursor.appendBlock id = (place.tryLayOut id none).map (cursor.put name) := by
  simp only [Cursor.appendBlock, builds.currentName, builds.currentBody, bind, Except.bind,
    Place.tryLayOut, builds.setBody, Option.bind_none]
  cases Cursor.checkDetached place.body id <;> rfl

theorem Builds.tryInsert (builds : cursor.Builds name place) (id : BlockId) {after : BlockId}
    (laidOut : place.body.isLaidOut after = true) :
    cursor.insertBlockAfter id after = (place.tryLayOut id (some after)).map (cursor.put name) := by
  simp only [Cursor.insertBlockAfter, builds.currentName, builds.currentBody, bind, Except.bind,
    Place.tryLayOut, builds.setBody, Option.bind_some]
  cases Cursor.checkDetached place.body id with
  | error error => rfl
  | ok _ =>
      cases found : place.body.position? after with
      | some index => rfl
      | none =>
          rw [Body.isLaidOut, List.contains_iff_mem] at laidOut
          rw [Body.position?, List.idxOf?_eq_none_iff] at found
          exact absurd laidOut found

theorem Builds.tryDiscard (builds : cursor.Builds name place) (left : place.block = none)
    (id : BlockId) :
    cursor.discardBlock id = (place.tryDiscard id).map (cursor.put name) := by
  simp only [Cursor.discardBlock, builds.currentName, builds.currentBody, bind, Except.bind,
    Place.tryDiscard]
  split
  · rfl
  split
  · rfl
  · have elsewhere : (cursor.setBody name
        { place.body with blocks := place.body.blocks.erase id }).position.block ≠ some id := by
      change cursor.position.block ≠ some id
      rw [builds.position]
      simp [left]
    rw [if_neg elsewhere, builds.setBody]
    rfl

end Cursor

end ScriptLowering.Code

namespace ScriptLowering.Lowering

open Source (Program ExprId StmtId VarId)
open Code (BlockId Body BuildError Cursor DataId Module Operand Place)

/-! ## Entering blocks -/

section Entering

variable {session : Session} {name : String} {place : Place}

/-- A step of building that leads to another place or is refused. -/
def Session.attempt (session : Session) (name : String) (outcome : Except BuildError Place) :
    Except Error (Unit × Session) :=
  match outcome with
  | .ok place => .ok ((), session.put name place)
  | .error error => .error (.build error)

theorem attempt_append (builds : session.Builds name place) (id : BlockId) :
    Lower.build (fun cursor => cursor.appendBlock id) session =
      session.attempt name (place.tryLayOut id none) := by
  simp only [Lower.build, Cursor.Builds.tryAppend builds]
  cases place.tryLayOut id none <;> rfl

theorem attempt_layOut (builds : session.Builds name place) (id : BlockId)
    (previous : Option BlockId) :
    layOut id previous session = session.attempt name (place.tryLayOut id previous) := by
  have looks : Lower.cursor session = .ok (session.cursor, session) := rfl
  rw [layOut, Lower.bind_eq looks]
  cases previous with
  | none => exact attempt_append builds id
  | some after =>
      simp only [Cursor.Builds.isLaidOut builds]
      cases laidOut : place.body.isLaidOut after with
      | true =>
          simp only [if_true, Lower.build, Cursor.Builds.tryInsert builds id laidOut]
          cases place.tryLayOut id (some after) <;> rfl
      | false =>
          have unknown : place.body.position? after = none := by
            rw [Body.position?, List.idxOf?_eq_none_iff]
            intro member
            rw [Code.Body.isLaidOut_iff.mpr member] at laidOut
            cases laidOut
          have same : place.tryLayOut id (some after) = place.tryLayOut id none := by
            simp only [Place.tryLayOut, Option.bind_some, unknown, Option.bind_none]
          rw [if_neg (by simp), same]
          exact attempt_append builds id

theorem attempt_enter (builds : session.Builds name place) (id : BlockId) (closing : Bool) :
    enter id closing session = session.attempt name (place.tryEnter id closing) := by
  have leftBuilds := builds.put (place.leaveTo id)
  rw [enter_after_leaveTo builds]
  simp only [Place.tryEnter]
  split
  · cases closing with
    | true =>
        simp only [if_true, Lower.build, Cursor.Builds.tryDiscard leftBuilds rfl]
        cases (place.leaveTo id).tryDiscard id with
        | error error => rfl
        | ok next => simp [Except.map, Session.attempt, Session.put, Cursor.put_put]
    | false => rfl
  · have laysOut := attempt_layOut leftBuilds id place.block
    cases outcome : (place.leaveTo id).tryLayOut id place.block with
    | error error =>
        rw [outcome] at laysOut
        exact Lower.bind_eq_error laysOut
    | ok next =>
        rw [outcome] at laysOut
        refine (Lower.bind_eq laysOut).trans ?_
        simp only [Session.put_put]
        rfl

end Entering

/-! ## Numbers of data

There is a number for each expression that can have a value, so the numbers of data do not run out
in a run that succeeds. -/

/-- The data objects have the numbers below their count, and as many expressions have values. -/
structure Session.Counts (session : Session) : Prop where
  next : session.cursor.module.nextData = session.cursor.module.data.size.toUInt32
  below : ∀ id ∈ session.cursor.module.data.keys,
    id.number.toNat < session.cursor.module.data.size
  few : session.cursor.module.data.size ≤ session.annotations.values.size

theorem values_size_le (annotations : Annotations) : annotations.values.size ≤ 2 ^ 32 := by
  have distinct : (annotations.values.keys.map ExprId.index).Nodup := by
    refine annotations.values.keys_nodup.map ?_
    rintro ⟨first⟩ ⟨second⟩ same
    exact congrArg ExprId.mk (UInt32.toNat_inj.mp same)
  have within : annotations.values.keys.map ExprId.index ⊆ List.range (2 ^ 32) := by
    intro number member
    rcases List.mem_map.mp member with ⟨other, _, rfl⟩
    exact List.mem_range.mpr (UInt32.toNat_lt other.number)
  have bound := (List.subperm_of_subset distinct within).length_le
  simpa [Table.keys_length] using bound

def Session.addText (session : Session) (text : String) : Session :=
  { session with cursor := { session.cursor with
    module := (session.cursor.module.addText text).2 } }

theorem Session.Counts.next_lt {session : Session} (counts : session.Counts)
    (room : session.cursor.module.data.size < session.annotations.values.size) :
    session.cursor.module.nextData.toNat = session.cursor.module.data.size := by
  have bound := values_size_le session.annotations
  rw [counts.next]
  simp only [Nat.toUInt32, UInt32.toNat_ofNat']
  omega

theorem Session.Counts.fresh {session : Session} (counts : session.Counts)
    (room : session.cursor.module.data.size < session.annotations.values.size) :
    (⟨session.cursor.module.nextData⟩ : DataId) ∉ session.cursor.module.data.keys := by
  intro member
  have below := counts.below _ member
  rw [counts.next_lt room] at below
  exact Nat.lt_irrefl _ below

theorem Session.size_addText {session : Session} (counts : session.Counts)
    (room : session.cursor.module.data.size < session.annotations.values.size) (text : String) :
    (session.addText text).cursor.module.data.size = session.cursor.module.data.size + 1 :=
  Table.size_insert (counts.fresh room) _

theorem Session.Counts.addText {session : Session} (counts : session.Counts)
    (room : session.cursor.module.data.size < session.annotations.values.size) (text : String) :
    (session.addText text).Counts where
  next := by
    rw [Session.size_addText counts room]
    change session.cursor.module.nextData + 1 = _
    rw [counts.next]
    exact UInt32.toNat_inj.mp (by simp)
  below := by
    intro id member
    rw [Session.size_addText counts room]
    rcases Table.mem_keys_insert.mp member with rfl | old
    · change session.cursor.module.nextData.toNat < _
      rw [counts.next_lt room]
      exact Nat.lt_succ_self _
    · exact Nat.lt_succ_of_lt (counts.below id old)
  few := by
    rw [Session.size_addText counts room]
    exact room

/-! ## Failures -/

/-- The ways in which lowering can fail. -/
inductive ErrorVariant where
  | undefinedFunction
  | arityMismatch
  | unsupportedUnary
  | unsupportedBinary
  | rejected
  | build
  | program
  | pipeline
  deriving DecidableEq, Repr

def Error.variant : Error → ErrorVariant
  | undefinedFunction _ => .undefinedFunction
  | arityMismatch _ _ _ => .arityMismatch
  | unsupportedUnary _ => .unsupportedUnary
  | unsupportedBinary _ _ => .unsupportedBinary
  | rejected _ => .rejected
  | build _ => .build
  | program _ => .program
  | pipeline _ => .pipeline

/-! ## Links -/

/-- Functions by name, and nodes of the program. -/
structure Domain where
  functions : String → Prop
  vars : VarId → Prop
  loops : StmtId → Prop
  values : ExprId → Prop

structure Domain.Within (inner outer : Domain) : Prop where
  functions : ∀ name, inner.functions name → outer.functions name
  vars : ∀ id, inner.vars id → outer.vars id
  loops : ∀ id, inner.loops id → outer.loops id
  values : ∀ id, inner.values id → outer.values id

/-- What two runs that start from `left` and `right` have in common. -/
structure Link where
  left : Session
  right : Session
  /-- The number on the right of the data that has a given number on the left. -/
  change : DataId → DataId
  /-- What is looked at of the name of a variable. -/
  view : String → String
  /-- What both runs may look at. -/
  common : Domain
  /-- What both runs may write. -/
  own : Domain
  /-- Whether globals may be added. -/
  grows : Prop
  within : own.Within common
  headings : ∀ name, (right.cursor.module.function? name).map
      (fun function => (function.signature.rename view, function.linkage)) =
    (left.cursor.module.function? name).map
      fun function => (function.signature.rename view, function.linkage)
  known : ∀ name, own.functions name →
    ∃ function, left.cursor.module.function? name = some function
  /-- Data that is added on both sides corresponds. -/
  shifts : ∀ count, left.cursor.module.data.size + count < 2 ^ 32 →
    right.cursor.module.data.size + count < 2 ^ 32 →
    change ⟨(left.cursor.module.data.size + count).toUInt32⟩ =
      ⟨(right.cursor.module.data.size + count).toUInt32⟩

namespace Link

/-- Two sessions on the way, with the cursor in the function `current`. -/
structure Matches (link : Link) (current : String) (first second : Session) : Prop where
  stands : ∃ place, first.Builds current place ∧
    second.Builds current (place.relabel link.change)
  inside : link.own.functions current
  firstHeadings : link.left.cursor.module.SameHeadings first.cursor.module
  secondHeadings : link.right.cursor.module.SameHeadings second.cursor.module
  bodies : Table.Tracks link.common.functions link.own.functions (Body.relabel link.change)
    (link.left.cursor.module.functions.mapValues Code.Function.body)
    (link.right.cursor.module.functions.mapValues Code.Function.body)
    (first.cursor.module.functions.mapValues Code.Function.body)
    (second.cursor.module.functions.mapValues Code.Function.body)
  storage : Table.Tracks link.common.vars link.own.vars (Operand.relabel link.change)
    link.left.annotations.storage link.right.annotations.storage first.annotations.storage
    second.annotations.storage
  loops : Table.Tracks link.common.loops link.own.loops id link.left.annotations.loops
    link.right.annotations.loops first.annotations.loops second.annotations.loops
  values : Table.Tracks link.common.values link.own.values (Operand.relabel link.change)
    link.left.annotations.values link.right.annotations.values first.annotations.values
    second.annotations.values
  globals : link.grows →
    second.cursor.module.globals.mapValues (Code.Global.rename link.view) =
      first.cursor.module.globals.mapValues (Code.Global.rename link.view) ∧
    second.cursor.module.nextGlobal = first.cursor.module.nextGlobal
  firstGlobals : ¬ link.grows →
    first.cursor.module.globals = link.left.cursor.module.globals ∧
      first.cursor.module.nextGlobal = link.left.cursor.module.nextGlobal
  secondGlobals : ¬ link.grows →
    second.cursor.module.globals = link.right.cursor.module.globals ∧
      second.cursor.module.nextGlobal = link.right.cursor.module.nextGlobal
  texts : ∃ texts,
    (first.cursor.module.data = (link.left.cursor.module.addTexts texts).data ∧
      first.cursor.module.nextData = (link.left.cursor.module.addTexts texts).nextData ∧
      first.cursor.module.data.size = link.left.cursor.module.data.size + texts.length) ∧
    second.cursor.module.data = (link.right.cursor.module.addTexts texts).data ∧
      second.cursor.module.nextData = (link.right.cursor.module.addTexts texts).nextData ∧
      second.cursor.module.data.size = link.right.cursor.module.data.size + texts.length
  firstCounts : first.Counts
  secondCounts : second.Counts

namespace Matches

variable {link : Link} {current : String} {first second : Session}
  (agree : link.Matches current first second)

include agree

theorem position : second.cursor.position = first.cursor.position := by
  rcases agree.stands with ⟨place, firstBuilds, secondBuilds⟩
  rw [firstBuilds.position, secondBuilds.position]
  rfl

/-- A function is declared on both sides with the same signature, up to the names of its
parameters, or on neither. -/
theorem function_rel (name : String) : Option.Rel (fun function other : Code.Function =>
    other.signature.rename link.view = function.signature.rename link.view ∧
      other.linkage = function.linkage)
    (first.cursor.module.function? name) (second.cursor.module.function? name) := by
  have headings : (second.cursor.module.function? name).map
      (fun function => (function.signature.rename link.view, function.linkage)) =
        (first.cursor.module.function? name).map
          fun function => (function.signature.rename link.view, function.linkage) := by
    have outline : ∀ found : Option Code.Function,
        found.map (fun function => (function.signature.rename link.view, function.linkage)) =
          (found.map Code.Function.heading).map fun heading =>
            (heading.1.rename link.view, heading.2) := by
      intro found
      cases found <;> rfl
    rw [outline, outline, agree.firstHeadings.headings, agree.secondHeadings.headings, ← outline,
      ← outline]
    exact link.headings name
  revert headings
  generalize first.cursor.module.function? name = function
  generalize second.cursor.module.function? name = other
  intro headings
  cases function with
  | none =>
      rw [Option.map_none, Option.map_eq_none_iff] at headings
      subst headings
      exact .none
  | some function =>
      rcases Option.map_eq_some_iff.mp headings with ⟨found, rfl, same⟩
      rw [Prod.mk.injEq] at same
      exact .some same

theorem signature_eq (name : String) :
    (first.cursor.module.function? name).map Code.Function.signature =
      (link.left.cursor.module.function? name).map Code.Function.signature := by
  have headings := congrArg (Option.map Prod.fst) (agree.firstHeadings.headings name)
  simpa [Option.map_map, Function.comp_def, Code.Function.heading] using headings

theorem put (place : Place) :
    link.Matches current (first.put current place)
      (second.put current (place.relabel link.change)) := by
  have headings : ∀ (session : Session) (next : Place),
      session.cursor.module.SameHeadings (session.put current next).cursor.module := by
    intro session next
    refine ⟨rfl, Table.keys_modify _ _ _, fun name => ?_⟩
    rw [Session.function?_put]
    split
    · cases session.cursor.module.function? name <;> rfl
    · rfl
  have bodies : ∀ (session : Session) (next : Place),
      (session.put current next).cursor.module.functions.mapValues Code.Function.body =
        (session.cursor.module.functions.mapValues Code.Function.body).modify current
          fun _ => next.body :=
    fun session next => Table.mapValues_modify _ _ _ fun _ => rfl
  rcases agree.stands with ⟨before, firstBuilds, secondBuilds⟩
  exact { agree with
    stands := ⟨place, firstBuilds.put place, secondBuilds.put _⟩
    firstHeadings := agree.firstHeadings.trans (headings first place)
    secondHeadings := agree.secondHeadings.trans (headings second _)
    bodies := by
      rw [bodies, bodies]
      exact agree.bodies.modify agree.inside fun _ => rfl
    firstCounts := ⟨agree.firstCounts.next, agree.firstCounts.below, agree.firstCounts.few⟩
    secondCounts := ⟨agree.secondCounts.next, agree.secondCounts.below, agree.secondCounts.few⟩ }

theorem moveTo {name : String} (isOwn : link.own.functions name) (block : Option BlockId) :
    link.Matches name
      { first with cursor := first.cursor.setPosition ⟨some name, block⟩ }
      { second with cursor := second.cursor.setPosition ⟨some name, block⟩ } := by
  have stands : ∃ place : Place,
      (first.cursor.setPosition ⟨some name, block⟩).Builds name place ∧
        (second.cursor.setPosition ⟨some name, block⟩).Builds name
          (place.relabel link.change) := by
    rcases link.known name isOwn with ⟨start, found⟩
    have heading := agree.firstHeadings.headings name
    rw [found, Option.map_some] at heading
    rcases Option.map_eq_some_iff.mp heading with ⟨function, isFirst, _⟩
    have body := agree.bodies.agree name (link.within.functions name isOwn)
    rw [Table.get?_mapValues, Table.get?_mapValues,
      show first.cursor.module.functions.get? name = some function from isFirst] at body
    rcases Option.map_eq_some_iff.mp body with ⟨other, isSecond, same⟩
    exact ⟨⟨function.body, block⟩, ⟨rfl, function, isFirst, rfl⟩, ⟨rfl, other, isSecond, same⟩⟩
  exact { agree with
    stands := stands
    inside := isOwn
    firstCounts := ⟨agree.firstCounts.next, agree.firstCounts.below, agree.firstCounts.few⟩
    secondCounts := ⟨agree.secondCounts.next, agree.secondCounts.below, agree.secondCounts.few⟩ }

/-! ### Annotating -/

theorem setStorage {id : VarId} (isOwn : link.own.vars id) (address : Operand) :
    link.Matches current
      { first with annotations :=
        { first.annotations with storage := first.annotations.storage.insert id address } }
      { second with annotations :=
        { second.annotations with storage :=
          second.annotations.storage.insert id (address.relabel link.change) } } :=
  { agree with
    storage := agree.storage.insert isOwn address
    firstCounts := ⟨agree.firstCounts.next, agree.firstCounts.below, agree.firstCounts.few⟩
    secondCounts := ⟨agree.secondCounts.next, agree.secondCounts.below, agree.secondCounts.few⟩ }

theorem setLoop {id : StmtId} (isOwn : link.own.loops id) (blocks : LoopBlocks) :
    link.Matches current
      { first with annotations :=
        { first.annotations with loops := first.annotations.loops.insert id blocks } }
      { second with annotations :=
        { second.annotations with loops := second.annotations.loops.insert id blocks } } :=
  { agree with
    loops := agree.loops.insert isOwn blocks
    firstCounts := ⟨agree.firstCounts.next, agree.firstCounts.below, agree.firstCounts.few⟩
    secondCounts := ⟨agree.secondCounts.next, agree.secondCounts.below, agree.secondCounts.few⟩ }

theorem setValue {id : ExprId} (isOwn : link.own.values id) (value : Operand) :
    link.Matches current
      { first with annotations :=
        { first.annotations with values := first.annotations.values.insert id value } }
      { second with annotations :=
        { second.annotations with values :=
          second.annotations.values.insert id (value.relabel link.change) } } :=
  { agree with
    values := agree.values.insert isOwn value
    firstCounts := ⟨agree.firstCounts.next, agree.firstCounts.below,
      Nat.le_trans agree.firstCounts.few (Table.size_le_insert _ _ _)⟩
    secondCounts := ⟨agree.secondCounts.next, agree.secondCounts.below,
      Nat.le_trans agree.secondCounts.few (Table.size_le_insert _ _ _)⟩ }

/-! ### Globals and data -/

theorem addGlobal (grows : link.grows) {name otherName : String}
    (names : link.view otherName = link.view name) (ty : Code.Ty) (initial : Code.Constant)
    (align : UInt32) :
    link.Matches current
      { first with cursor := { first.cursor with
        module := (first.cursor.module.addGlobal name ty initial align).2 } }
      { second with cursor := { second.cursor with
        module := (second.cursor.module.addGlobal otherName ty initial align).2 } } := by
  rcases agree.globals grows with ⟨same, next⟩
  rcases agree.stands with ⟨place, firstBuilds, secondBuilds⟩
  exact { agree with
    stands := ⟨place, ⟨firstBuilds.position, firstBuilds.body⟩,
      ⟨secondBuilds.position, secondBuilds.body⟩⟩
    firstHeadings := ⟨agree.firstHeadings.name, agree.firstHeadings.names,
      agree.firstHeadings.headings⟩
    secondHeadings := ⟨agree.secondHeadings.name, agree.secondHeadings.names,
      agree.secondHeadings.headings⟩
    globals := by
      intro _
      refine ⟨?_, congrArg (· + 1) next⟩
      simp only [Module.addGlobal, Table.mapValues_insert, same, next, Code.Global.rename, names]
    firstGlobals := fun frozen => absurd grows frozen
    secondGlobals := fun frozen => absurd grows frozen
    firstCounts := ⟨agree.firstCounts.next, agree.firstCounts.below, agree.firstCounts.few⟩
    secondCounts := ⟨agree.secondCounts.next, agree.secondCounts.below, agree.secondCounts.few⟩ }

/-- Data is added on both sides, where the values of expressions leave room for it. -/
theorem addText (firstRoom : first.cursor.module.data.size < first.annotations.values.size)
    (secondRoom : second.cursor.module.data.size < second.annotations.values.size)
    (text : String) :
    link.Matches current (first.addText text) (second.addText text) ∧
      link.change ⟨first.cursor.module.nextData⟩ = ⟨second.cursor.module.nextData⟩ := by
  rcases agree.texts with ⟨texts, ⟨firstData, firstNext, firstSize⟩,
    secondData, secondNext, secondSize⟩
  have firstBound := values_size_le first.annotations
  have secondBound := values_size_le second.annotations
  rcases agree.stands with ⟨place, firstBuilds, secondBuilds⟩
  refine ⟨{ agree with
    stands := ⟨place, ⟨firstBuilds.position, firstBuilds.body⟩,
      ⟨secondBuilds.position, secondBuilds.body⟩⟩
    firstHeadings := ⟨agree.firstHeadings.name, agree.firstHeadings.names,
      agree.firstHeadings.headings⟩
    secondHeadings := ⟨agree.secondHeadings.name, agree.secondHeadings.names,
      agree.secondHeadings.headings⟩
    texts := ⟨texts ++ [text], ⟨?_, ?_, ?_⟩, ?_, ?_, ?_⟩
    firstCounts := agree.firstCounts.addText firstRoom text
    secondCounts := agree.secondCounts.addText secondRoom text }, ?_⟩
  · rw [Module.addTexts_concat]
    simp only [Session.addText, Module.addText, Module.addData, firstData, firstNext]
  · rw [Module.addTexts_concat]
    simp only [Session.addText, Module.addText, Module.addData, firstNext]
  · rw [Session.size_addText agree.firstCounts firstRoom, firstSize, List.length_append,
      List.length_singleton, Nat.add_assoc]
  · rw [Module.addTexts_concat]
    simp only [Session.addText, Module.addText, Module.addData, secondData, secondNext]
  · rw [Module.addTexts_concat]
    simp only [Session.addText, Module.addText, Module.addData, secondNext]
  · rw [Session.size_addText agree.secondCounts secondRoom, secondSize, List.length_append,
      List.length_singleton, Nat.add_assoc]
  · rw [agree.firstCounts.next, agree.secondCounts.next, firstSize, secondSize]
    exact link.shifts texts.length (by omega) (by omega)

end Matches

theorem matches_start {link : Link} {current : String}
    (stands : ∃ place, link.left.Builds current place ∧
      link.right.Builds current (place.relabel link.change))
    (inside : link.own.functions current)
    (bodies : ∀ name, link.common.functions name →
      (link.right.cursor.module.function? name).map Code.Function.body =
        (link.left.cursor.module.function? name).map fun function =>
          function.body.relabel link.change)
    (storage : ∀ id, link.common.vars id → link.right.annotations.storage.get? id =
      (link.left.annotations.storage.get? id).map (Operand.relabel link.change))
    (loops : ∀ id, link.common.loops id →
      link.right.annotations.loops.get? id = link.left.annotations.loops.get? id)
    (values : ∀ id, link.common.values id → link.right.annotations.values.get? id =
      (link.left.annotations.values.get? id).map (Operand.relabel link.change))
    (globals : link.grows →
      link.right.cursor.module.globals.mapValues (Code.Global.rename link.view) =
        link.left.cursor.module.globals.mapValues (Code.Global.rename link.view) ∧
      link.right.cursor.module.nextGlobal = link.left.cursor.module.nextGlobal)
    (leftCounts : link.left.Counts) (rightCounts : link.right.Counts) :
    link.Matches current link.left link.right where
  stands := stands
  inside := inside
  firstHeadings := .refl _
  secondHeadings := .refl _
  bodies := by
    refine ⟨fun name isCommon => ?_, fun _ _ => rfl, fun _ _ => rfl⟩
    have same := bodies name isCommon
    rw [Table.get?_mapValues, Table.get?_mapValues, Option.map_map]
    exact same
  storage := ⟨storage, fun _ _ => rfl, fun _ _ => rfl⟩
  loops := ⟨fun id isCommon => by simpa using loops id isCommon, fun _ _ => rfl, fun _ _ => rfl⟩
  values := ⟨values, fun _ _ => rfl, fun _ _ => rfl⟩
  globals := globals
  firstGlobals := fun _ => ⟨rfl, rfl⟩
  secondGlobals := fun _ => ⟨rfl, rfl⟩
  texts := ⟨[], ⟨rfl, rfl, rfl⟩, rfl, rfl, rfl⟩
  firstCounts := leftCounts
  secondCounts := rightCounts

/-! ## Steps side by side -/

/-- Both steps succeed with related results and linked sessions, or both fail in the same way. -/
inductive Outcome (link : Link) (current : String) {α β : Type} (post : α → β → Prop) :
    Except Error (α × Session) → Except Error (β × Session) → Prop
  | done {value : α} {other : β} {first second : Session} (holds : post value other)
      (agree : link.Matches current first second) :
      Outcome link current post (.ok (value, first)) (.ok (other, second))
  | failed {error other : Error} (same : other.variant = error.variant) :
      Outcome link current post (.error error) (.error other)

/-- The steps lead linked sessions in the function `current` to linked sessions in `next`. -/
def Leads (link : Link) (current next : String) {α β : Type} (post : α → β → Prop)
    (step : Lower α) (other : Lower β) : Prop :=
  ∀ first second, link.Matches current first second →
    link.Outcome next post (step first) (other second)

/-- The steps stay in the function. -/
abbrev Alike (link : Link) (current : String) {α β : Type} (post : α → β → Prop)
    (step : Lower α) (other : Lower β) : Prop :=
  link.Leads current current post step other

def Anyhow {α β : Type} (_ : α) (_ : β) : Prop := True

variable {link : Link} {current between next : String}

section Rules

variable {α β γ δ : Type} {post : α → β → Prop} {last : γ → δ → Prop}

theorem Outcome.mono {outcome : Except Error (α × Session)} {other : Except Error (β × Session)}
    (holds : link.Outcome current post outcome other) {weaker : α → β → Prop}
    (weakens : ∀ value other, post value other → weaker value other) :
    link.Outcome current weaker outcome other := by
  cases holds with
  | done holds agree => exact .done (weakens _ _ holds) agree
  | failed same => exact .failed same

theorem Leads.mono {step : Lower α} {other : Lower β} (leads : link.Leads current next post step other)
    {weaker : α → β → Prop} (weakens : ∀ value other, post value other → weaker value other) :
    link.Leads current next weaker step other :=
  fun first second agree => (leads first second agree).mono weakens

theorem Leads.pure {value : α} {other : β} (holds : post value other) :
    link.Alike current post (Pure.pure value) (Pure.pure other) :=
  fun _ _ agree => .done holds agree

theorem Leads.fail {error other : Error} (same : other.variant = error.variant) :
    link.Leads current next post (Lower.fail error) (Lower.fail other) :=
  fun _ _ _ => .failed same

theorem Leads.bind {step : Lower α} {other : Lower β} {rest : α → Lower γ} {otherRest : β → Lower δ}
    (leads : link.Leads current between post step other)
    (leadsOn : ∀ value other, post value other →
      link.Leads between next last (rest value) (otherRest other)) :
    link.Leads current next last (step >>= rest) (other >>= otherRest) := by
  intro first second agree
  have outcome := leads first second agree
  cases firstRuns : step first with
  | error error =>
      rw [firstRuns] at outcome
      cases secondRuns : other second with
      | ok pair =>
          rw [secondRuns] at outcome
          cases outcome
      | error otherError =>
          rw [secondRuns] at outcome
          cases outcome with
          | failed same =>
              rw [Lower.bind_eq_error firstRuns, Lower.bind_eq_error secondRuns]
              exact .failed same
  | ok pair =>
      rw [firstRuns] at outcome
      cases secondRuns : other second with
      | error otherError =>
          rw [secondRuns] at outcome
          cases outcome
      | ok otherPair =>
          rw [secondRuns] at outcome
          cases outcome with
          | done holds agreeNext =>
              rw [Lower.bind_eq firstRuns, Lower.bind_eq secondRuns]
              exact leadsOn _ _ holds _ _ agreeNext

theorem Leads.map {step : Lower α} {other : Lower β} {convert : α → γ} {otherConvert : β → δ}
    (leads : link.Leads current next post step other)
    (converts : ∀ value other, post value other → last (convert value) (otherConvert other)) :
    link.Leads current next last (convert <$> step) (otherConvert <$> other) :=
  leads.bind fun value other holds => .pure (converts value other holds)

theorem Leads.forM {items : List α} {body otherBody : α → Lower Unit}
    (leads : ∀ item ∈ items, link.Alike current Anyhow (body item) (otherBody item)) :
    link.Alike current Anyhow (items.forM body) (items.forM otherBody) := by
  induction items with
  | nil => exact .pure trivial
  | cons item rest induction =>
      rw [Lower.forM_cons, Lower.forM_cons]
      exact (leads item List.mem_cons_self).bind fun _ _ _ =>
        induction fun other member => leads other (List.mem_cons_of_mem item member)

theorem Leads.mapM {items : List α} {body otherBody : α → Lower Operand}
    (leads : ∀ item ∈ items, link.Alike current
      (fun value other => other = value.relabel link.change) (body item) (otherBody item)) :
    link.Alike current (fun values others => others = values.map (Operand.relabel link.change))
      (items.mapM body) (items.mapM otherBody) := by
  induction items with
  | nil => exact .pure rfl
  | cons item rest induction =>
      rw [List.mapM_cons, List.mapM_cons]
      refine (leads item List.mem_cons_self).bind fun value other same => ?_
      refine (induction fun other member => leads other (List.mem_cons_of_mem item member)).bind
        fun values others sames => .pure ?_
      rw [same, sames, List.map_cons]

theorem Leads.orFault_bind {ε ζ : Type} {found : Option ε} {otherFound : Option ζ}
    {fault otherFault : ProgramFault} {related : ε → ζ → Prop} {rest : ε → Lower α}
    {otherRest : ζ → Lower β} (same : Option.Rel related found otherFound)
    (leads : ∀ value other, found = some value → related value other →
      link.Leads current next post (rest value) (otherRest other)) :
    link.Leads current next post (Lower.orFault found fault >>= rest)
      (Lower.orFault otherFound otherFault >>= otherRest) := by
  cases same with
  | none => exact .fail rfl
  | some holds => exact leads _ _ rfl holds

theorem Leads.consult {question : Annotations → Except ProgramFault α}
    {otherQuestion : Annotations → Except ProgramFault β}
    (answers : ∀ first second, link.Matches current first second →
      (∃ fault otherFault, question first.annotations = .error fault ∧
        otherQuestion second.annotations = .error otherFault) ∨
      ∃ value other, question first.annotations = .ok value ∧
        otherQuestion second.annotations = .ok other ∧ post value other) :
    link.Alike current post (Lower.consult question) (Lower.consult otherQuestion) := by
  intro first second agree
  rcases answers first second agree with ⟨fault, otherFault, refused, otherRefused⟩ |
    ⟨value, other, answered, otherAnswered, holds⟩
  · simp only [Lower.consult, refused, otherRefused]
    exact .failed rfl
  · simp only [Lower.consult, answered, otherAnswered]
    exact .done holds agree

theorem Leads.storageOf {id : VarId} (isCommon : link.common.vars id) :
    link.Alike current (fun address other => other = address.relabel link.change)
      (Lower.consult fun annotations => annotations.storageOf id)
      (Lower.consult fun annotations => annotations.storageOf id) := by
  apply Leads.consult
  intro first second agree
  have found := agree.storage.agree id isCommon
  simp only [Annotations.storageOf, found]
  cases first.annotations.storage.get? id with
  | none => exact .inl ⟨_, _, rfl, rfl⟩
  | some address => exact .inr ⟨address, _, rfl, rfl, rfl⟩

theorem Leads.loopOf {id : StmtId} (isCommon : link.common.loops id) :
    link.Alike current (fun blocks other => other = blocks)
      (Lower.consult fun annotations => annotations.loopOf id)
      (Lower.consult fun annotations => annotations.loopOf id) := by
  apply Leads.consult
  intro first second agree
  have found := agree.loops.agree id isCommon
  simp only [Annotations.loopOf, found, Option.map_id_fun, id_eq]
  cases first.annotations.loops.get? id with
  | none => exact .inl ⟨_, _, rfl, rfl⟩
  | some blocks => exact .inr ⟨blocks, blocks, rfl, rfl, rfl⟩

theorem Leads.setStorage {id : VarId} (isOwn : link.own.vars id) (address : Operand) :
    link.Alike current Anyhow
      (Lower.annotate fun annotations => annotations.setStorage id address)
      (Lower.annotate fun annotations =>
        annotations.setStorage id (address.relabel link.change)) := by
  intro first second agree
  have known := agree.storage.contains_eq (link.within.vars id isOwn)
  simp only [Lower.annotate, Annotations.setStorage, known]
  cases first.annotations.storage.contains id with
  | true => exact .failed rfl
  | false => exact .done trivial (agree.setStorage isOwn address)

theorem Leads.setLoop {id : StmtId} (isOwn : link.own.loops id) (blocks : LoopBlocks) :
    link.Alike current Anyhow
      (Lower.annotate fun annotations => annotations.setLoop id blocks)
      (Lower.annotate fun annotations => annotations.setLoop id blocks) := by
  intro first second agree
  have known := agree.loops.contains_eq (link.within.loops id isOwn)
  simp only [Lower.annotate, Annotations.setLoop, known]
  cases first.annotations.loops.contains id with
  | true => exact .failed rfl
  | false => exact .done trivial (agree.setLoop isOwn blocks)

theorem Leads.setValue {id : ExprId} (isOwn : link.own.values id) (value : Operand) :
    link.Alike current Anyhow
      (Lower.annotate fun annotations => annotations.setValue id value)
      (Lower.annotate fun annotations =>
        annotations.setValue id (value.relabel link.change)) := by
  intro first second agree
  have known := agree.values.contains_eq (link.within.values id isOwn)
  simp only [Lower.annotate, Annotations.setValue, known]
  cases first.annotations.values.contains id with
  | true => exact .failed rfl
  | false => exact .done trivial (agree.setValue isOwn value)

/-! ### Building -/

theorem Leads.build {step : Lower α} {other : Lower β} {value : Place → α} {otherValue : Place → β}
    {operate otherOperate : Place → Place}
    (runs : ∀ (session : Session) place, session.Builds current place →
      step session = .ok (value place, session.put current (operate place)))
    (otherRuns : ∀ (session : Session) place, session.Builds current place →
      other session = .ok (otherValue place, session.put current (otherOperate place)))
    (natural : ∀ place, (operate place).relabel link.change =
      otherOperate (place.relabel link.change))
    (holds : ∀ place : Place, post (value place) (otherValue (place.relabel link.change))) :
    link.Alike current post step other := by
  intro first second agree
  rcases agree.stands with ⟨place, firstBuilds, secondBuilds⟩
  rw [runs first place firstBuilds, otherRuns second _ secondBuilds, ← natural]
  exact .done (holds place) (agree.put _)

theorem Leads.attempt {step other : Lower Unit} {operate : Place → Except BuildError Place}
    (runs : ∀ (session : Session) place, session.Builds current place →
      step session = session.attempt current (operate place))
    (otherRuns : ∀ (session : Session) place, session.Builds current place →
      other session = session.attempt current (operate place))
    (natural : ∀ place, operate (place.relabel link.change) =
      (operate place).map (Place.relabel link.change)) :
    link.Alike current Anyhow step other := by
  intro first second agree
  rcases agree.stands with ⟨place, firstBuilds, secondBuilds⟩
  rw [runs first place firstBuilds, otherRuns second _ secondBuilds, natural]
  cases operate place with
  | error error => exact .failed rfl
  | ok next => exact .done trivial (agree.put next)

end Rules

theorem Leads.createBlock (label : String) :
    link.Alike current (fun id other => other = id) (createBlock label) (createBlock label) :=
  .build (fun _ _ builds => createBlock_eq builds label)
    (fun _ _ builds => createBlock_eq builds label) (fun place => place.relabel_create _ label)
    fun _ => rfl

theorem Leads.insert (instruction : Code.Instruction) :
    link.Alike current Anyhow (Lower.append fun cursor => cursor.insert instruction)
      (Lower.append fun cursor => cursor.insert (instruction.relabel link.change)) :=
  .build (fun _ _ builds => append_add_eq builds _) (fun _ _ builds => append_add_eq builds _)
    (fun place => by rw [Place.relabel_add, Place.relabel_ready]) fun _ => trivial

theorem Leads.terminate (terminator : Code.Terminator) :
    link.Alike current Anyhow (Lower.append fun cursor => cursor.terminate terminator)
      (Lower.append fun cursor => cursor.terminate (terminator.relabel link.change)) :=
  .build (fun _ _ builds => append_terminate_eq builds _)
    (fun _ _ builds => append_terminate_eq builds _)
    (fun place => by rw [Place.relabel_terminate, Place.relabel_ready]) fun _ => trivial

theorem Leads.define (ty : Code.Ty) {instruction relabelled : Operand → Code.Instruction}
    (natural : ∀ id, (instruction (.temp id)).relabel link.change = relabelled (.temp id)) :
    link.Alike current (fun value other => other = value.relabel link.change)
      (Lower.emit fun cursor => cursor.define ty instruction)
      (Lower.emit fun cursor => cursor.define ty relabelled) :=
  .build (fun _ _ builds => emit_define_eq builds ty _)
    (fun _ _ builds => emit_define_eq builds ty _)
    (fun place => by rw [Place.relabel_define _ _ _ natural, Place.relabel_ready])
    fun place => by rw [← Place.relabel_ready]; rfl

theorem Leads.leaveTo (target : BlockId) :
    link.Alike current Anyhow (leaveTo target) (leaveTo target) :=
  .build (fun _ _ builds => leaveTo_eq builds target) (fun _ _ builds => leaveTo_eq builds target)
    (fun place => place.relabel_leaveTo _ target) fun _ => trivial

theorem Leads.enter (id : BlockId) (closing : Bool) :
    link.Alike current Anyhow (enter id closing) (enter id closing) :=
  .attempt (fun _ _ builds => attempt_enter builds id closing)
    (fun _ _ builds => attempt_enter builds id closing)
    fun place => place.tryEnter_relabel _ id closing

theorem Leads.returnIfLive (value : Option Operand) :
    link.Alike current Anyhow (returnIfLive value)
      (returnIfLive (value.map (Operand.relabel link.change))) :=
  .build (fun _ _ builds => returnIfLive_eq builds _) (fun _ _ builds => returnIfLive_eq builds _)
    (fun place => place.relabel_returnIfLive _ value) fun _ => trivial

theorem Leads.call (callee : String) (returns : Code.Ty) (args : List Operand) :
    link.Alike current (fun value other => other = value.map (Operand.relabel link.change) ∧
        (value.isSome = true → returns.isVoid = false))
      (Lower.emit fun cursor => cursor.call callee returns args)
      (Lower.emit fun cursor =>
        cursor.call callee returns (args.map (Operand.relabel link.change))) := by
  cases isVoid : returns.isVoid with
  | true =>
      have runs : ∀ (values : List Operand) (session : Session) place,
          session.Builds current place →
          Lower.emit (fun cursor => cursor.call callee returns values) session =
            .ok (none, session.put current (place.ready.add (.call none callee values))) :=
        fun values session place builds => by rw [emit_call_eq builds, if_pos isVoid]
      exact .build (runs args) (runs _)
        (fun place => by rw [Place.relabel_add, Place.relabel_ready]; rfl) fun _ => ⟨rfl, by simp⟩
  | false =>
      have runs : ∀ (values : List Operand) (session : Session) place,
          session.Builds current place →
          Lower.emit (fun cursor => cursor.call callee returns values) session =
            .ok (some (.temp place.ready.freshTemp), session.put current
              (place.ready.define returns fun result => .call (some result) callee values)) :=
        fun values session place builds => by rw [emit_call_eq builds, if_neg (by simp [isVoid])]
      refine .build (runs args) (runs _) (fun place => ?_) fun place => ⟨?_, fun _ => rfl⟩
      · rw [← Place.relabel_ready]
        exact Place.relabel_define _ _ _ fun _ => rfl
      · rw [← Place.relabel_ready]
        rfl

theorem Leads.openFunction {name : String} (isOwn : link.own.functions name) :
    link.Leads current name Anyhow (openFunction name) (openFunction name) := by
  have moves : link.Leads current name Anyhow
      (Lower.moveCursor fun cursor => cursor.setPosition (.inFunction name))
      (Lower.moveCursor fun cursor => cursor.setPosition (.inFunction name)) :=
    fun _ _ agree => .done trivial (agree.moveTo isOwn none)
  have stands : ∀ block, link.Alike name Anyhow
      (Lower.moveCursor fun cursor => cursor.positionAtEnd name block)
      (Lower.moveCursor fun cursor => cursor.positionAtEnd name block) :=
    fun block _ _ agree => .done trivial (agree.moveTo isOwn (some block))
  refine moves.bind fun _ _ _ => (Leads.createBlock "entry").bind ?_
  rintro _ entry rfl
  refine Leads.bind (.attempt (fun _ _ builds => attempt_append builds entry)
    (fun _ _ builds => attempt_append builds entry)
    fun place => place.tryLayOut_relabel _ entry none) fun _ _ _ => stands entry

end Link

end ScriptLowering.Lowering
