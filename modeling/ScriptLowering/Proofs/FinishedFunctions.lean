import Mathlib.Data.List.Induction
import Mathlib.Data.List.Nodup
import ScriptLowering.Proofs.Declarations
import ScriptLowering.Proofs.Reachability
import ScriptLowering.Proofs.Functions

/-! # Finished functions

Whenever lowering finishes a function, the function has a definite shape, whatever the program
is and whether or not the function goes on to be verified.
-/

namespace ScriptLowering.Code

/-- The shape of a finished function. `loose` is the one block that is not terminated, if there
is one. -/
structure Function.WellShaped (function : Function) (loose : Option BlockId) : Prop where
  arena : ∀ id, id ∈ function.body.blocks.keys ↔ id ∈ function.body.layout
  named : ∀ id block, function.body.block? id = some block → block.id = id
  distinct : function.body.layout.Nodup
  entry : ∃ block, function.body.layout.head? = some block.id ∧
    function.body.block? block.id = some block ∧ block.label = "entry"
  single : ∀ id index other otherIndex temp, function.body.Defines id index temp →
    function.body.Defines other otherIndex temp → id = other ∧ index = otherIndex
  earlier : ∀ before id after, function.body.layout = before ++ id :: after → before ≠ [] →
    ∃ previous ∈ before, ∃ block, function.body.block? previous = some block ∧
      id ∈ block.successors
  reachable : ∀ id ∈ function.body.layout, id ∈ (FlowGraph.ofFunction function).reachable
  terminated : ∀ id block, function.body.block? id = some block →
    (block.isTerminated = false ↔ loose = some id)

theorem Body.Indexed.prune {body : Body} (indexed : body.Indexed) : body.prune.Indexed where
  distinct := indexed.distinct
  known := by
    intro id member
    change id ∈ body.layout at member
    rw [Place.block?_prune_of_mem member]
    exact indexed.known id member
  named := fun id block found => indexed.named id block (Place.block?_of_prune found).2

namespace Place

theorem Regular.indexed_prune {place : Place} (regular : place.Regular) :
    place.body.prune.Indexed :=
  Body.Indexed.prune ⟨regular.distinct, regular.known, regular.named⟩

/-- Going through the layout from its beginning, each block has a predecessor that has been
reached before. -/
theorem Regular.reachable_prune {place : Place} (regular : place.Regular) (function : Function)
    (same : function.body = place.body.prune) :
    ∀ id ∈ function.body.layout, id ∈ (FlowGraph.ofFunction function).reachable := by
  have indexed : function.body.Indexed := by
    rw [same]
    exact regular.indexed_prune
  have layout : function.body.layout = place.body.layout := by
    rw [same]
    rfl
  have prefixes : ∀ before after, place.body.layout = before ++ after →
      ∀ id ∈ before, id ∈ (FlowGraph.ofFunction function).reachable := by
    intro before
    induction before using List.reverseRecOn with
    | nil =>
        intro _ _ id member
        cases member
    | append_singleton before last induction =>
        intro after splits id member
        rw [List.append_assoc] at splits
        have earlier := induction _ splits
        rcases List.mem_append.mp member with old | new
        · exact earlier id old
        · rw [List.mem_singleton.mp new]
          by_cases nonempty : before = []
          · subst nonempty
            apply FlowGraph.mem_reachable_of_entry
            rw [FlowGraph.entry_ofFunction, layout, splits]
            rfl
          · rcases regular.earlier before last after splits nonempty with
              ⟨previous, isEarlier, block, found, leads⟩
            have laidOut : previous ∈ place.body.layout := by
              rw [splits]
              exact List.mem_append_left _ isEarlier
            have foundPruned : function.body.block? previous = some block := by
              rw [same, block?_prune_of_mem laidOut]
              exact found
            have name := regular.named previous block found
            refine FlowGraph.mem_reachable_of_edge (earlier previous isEarlier) ?_
            rw [← name]
            exact (FlowGraph.edge_ofFunction_iff indexed.keyed).mpr ⟨block,
              Body.mem_laidOut.mpr ⟨previous, by rw [layout]; exact laidOut, foundPruned⟩, rfl,
              leads⟩
  intro id member
  rw [layout] at member
  exact prefixes place.body.layout [] (List.append_nil _).symm id member

theorem isLive_of_pruned {place : Place} (live : place.pruned.isLive = true) :
    place.isLive = true := by
  rcases exists_of_isOpen (Lowering.isOpen_of_isLive live) with
    ⟨id, block, stands, found, unfinished⟩
  rcases Option.filter_eq_some_iff.mp stands with ⟨stood, laidOut⟩
  simp only [Place.isLive, stood, isOpen_of_block stood (block?_of_prune found).2, unfinished]
  exact laidOut

theorem Regular.wellShaped {place : Place} (regular : place.Regular) {function : Function}
    (same : function.body = place.pruned.body) :
    function.WellShaped (if place.pruned.isLive then place.pruned.block else none) := by
  have defines : ∀ id index temp, function.body.Defines id index temp →
      place.body.Defines id index temp := by
    intro id index temp after
    rcases after with ⟨block, instruction, found, stands, defined⟩
    rw [same] at found
    exact ⟨block, instruction, (block?_of_prune found).2, stands, defined⟩
  have layout : function.body.layout = place.body.layout := by
    rw [same]
    rfl
  exact {
    arena := by
      intro id
      rw [same, Table.mem_keys_iff]
      constructor
      · intro known
        rcases known with ⟨block, found⟩
        exact (block?_of_prune found).1
      · intro member
        change id ∈ place.body.layout at member
        rcases regular.known id member with ⟨block, found⟩
        exact ⟨block, (block?_prune_of_mem member).trans found⟩
    named := by
      intro id block found
      rw [same] at found
      exact regular.named id block (block?_of_prune found).2
    distinct := by
      rw [layout]
      exact regular.distinct
    entry := by
      rcases regular.entry with ⟨block, heads, found, labelled⟩
      have name := regular.named _ block found
      refine ⟨block, ?_, ?_, labelled⟩
      · rw [layout, name]
        exact heads
      · rw [same, name]
        exact (block?_prune_of_mem (List.mem_of_mem_head? heads)).trans found
    single := fun id index other otherIndex temp first second =>
      regular.single id index other otherIndex temp (defines _ _ _ first) (defines _ _ _ second)
    earlier := by
      intro before id after splits nonempty
      rw [layout] at splits
      rcases regular.earlier before id after splits nonempty with
        ⟨previous, member, block, found, leads⟩
      refine ⟨previous, member, block, ?_, leads⟩
      have laidOut : previous ∈ place.body.layout := by
        rw [splits]
        exact List.mem_append_left _ member
      rw [same]
      exact (block?_prune_of_mem laidOut).trans found
    reachable := regular.reachable_prune function same
    terminated := by
      intro id block found
      rw [same] at found
      rcases block?_of_prune found with ⟨member, before⟩
      have laidOut : place.body.isLaidOut id = true := by
        simpa [Body.isLaidOut] using member
      constructor
      · intro isOpen
        have stands : place.pruned.block = some id := by
          simp [Place.pruned, regular.terminated id member block before isOpen, laidOut]
        have live : place.pruned.isLive = true := by
          simp only [Place.isLive, stands, isOpen_of_block stands found, isOpen]
          exact laidOut
        rw [if_pos live]
        exact stands
      · intro loose
        cases live : place.pruned.isLive with
        | true =>
            simp only [live, if_true] at loose
            have isOpen := Lowering.isOpen_of_isLive live
            rw [isOpen_of_block loose found] at isOpen
            simpa using isOpen
        | false => simp [live] at loose }

end Place

end ScriptLowering.Code

namespace ScriptLowering.Lowering

open Source (Program FuncId)
open Code (Cursor Place)

/-! ## Finishing a function -/

theorem finalize_eq {cursor : Cursor} {name : String} {place : Place}
    (builds : cursor.Builds name place) :
    ∃ pruned, cursor.finalize name = .ok (pruned, cursor.put name place.pruned) := by
  rcases builds.body with ⟨function, found, same⟩
  refine ⟨place.body.blocks.size - place.body.prune.blocks.size, ?_⟩
  have stays : (cursor.setBody name place.body.prune).position = ⟨some name, place.block⟩ :=
    builds.position
  simp only [Cursor.finalize, found, same, Cursor.standsDetached, stays, Place.pruned]
  cases stands : place.block with
  | none =>
      simp only [Bool.false_eq_true, if_false, Option.filter_none]
      rw [builds.setBody, stands]
  | some id =>
      have laidOut : place.body.prune.isLaidOut id = place.body.isLaidOut id := rfl
      cases isLaidOut : place.body.isLaidOut id with
      | true =>
          simp only [laidOut, isLaidOut, Bool.not_true, Bool.and_false, Bool.false_eq_true,
            if_false, Option.filter_some, if_true]
          rw [builds.setBody, stands]
      | false =>
          simp only [laidOut, isLaidOut, Bool.not_false, Bool.and_true, decide_true, if_true,
            Option.filter_some, Bool.false_eq_true, if_false]
          rw [builds.setBody, (builds.put _).clearBlock, Cursor.put_put]

theorem buildWith_finalize_eq {session : Session} {name : String} {place : Place}
    (builds : session.Builds name place) :
    ∃ pruned, Lower.buildWith (fun cursor => cursor.finalize name) session =
      .ok (pruned, session.put name place.pruned) := by
  rcases finalize_eq builds with ⟨pruned, finalizes⟩
  refine ⟨pruned, ?_⟩
  simp only [Lower.buildWith, finalizes]
  rfl

theorem finishFunction_plain {options : Options} (unchecked : options.verifyFunctions = false)
    {session : Session} {name : String} {place : Place} (builds : session.Builds name place) :
    finishFunction options name session = .ok ((), session.put name place.pruned) := by
  rcases buildWith_finalize_eq builds with ⟨pruned, drops⟩
  rw [finishFunction, Lower.bind_eq drops, unchecked]
  rfl

theorem ensures_finishFunction (options : Options) {session : Session} {name : String}
    {place : Place} (builds : session.Builds name place) :
    (finishFunction options name).Ensures session
      (fun _ next => next = session.put name place.pruned)
      (fun error => ∃ rejection, error = .rejected rejection) := by
  rcases buildWith_finalize_eq builds with ⟨pruned, runs⟩
  have looks : Lower.cursor (session.put name place.pruned) =
      .ok ((session.put name place.pruned).cursor, session.put name place.pruned) := rfl
  rcases (builds.put place.pruned).body with ⟨function, found, _⟩
  unfold finishFunction
  refine .bind_ok runs ?_
  split
  · refine .bind_ok looks ?_
    simp only [found]
    cases Code.Module.verifyFunction (session.put name place.pruned).cursor.module function with
    | ok _ => exact .of_ok rfl rfl
    | error rejection => exact .of_error rfl ⟨rejection, rfl⟩
  · exact .of_ok rfl rfl

/-! ## Whole runs -/

theorem nodup_namesOf {program : Program} {entry : String} {module : Code.Module}
    (declared : Declared program entry module) {nodes : List Node}
    (once : (functionsOf nodes).Nodup) : (namesOf program nodes).Nodup := by
  refine List.Nodup.filterMap ?_ once
  intro id other name first second
  rcases Option.map_eq_some_iff.mp first with ⟨decl, found, rfl⟩
  rcases Option.map_eq_some_iff.mp second with ⟨otherDecl, otherFound, same⟩
  exact declared.distinct id other decl otherDecl found otherFound same.symm

theorem exists_of_mem_namesOf {program : Program} {nodes : List Node} {name : String}
    (member : name ∈ namesOf program nodes) :
    ∃ id decl, program.function? id = some decl ∧ decl.name = name := by
  rcases List.mem_filterMap.mp member with ⟨id, _, named⟩
  rcases Option.map_eq_some_iff.mp named with ⟨decl, found, same⟩
  exact ⟨id, decl, found, same⟩

theorem Declared.stock {program : Program} {entry : String} {module : Code.Module}
    (declared : Declared program entry module) {count : Nat} (few : count < 2 ^ 32) :
    (Session.start (.ofModule module)).Stock count where
  globals := by
    change module.nextGlobal.toNat + count < 2 ^ 32
    rw [declared.tables.nextGlobal]
    simpa [Code.Module.empty] using few
  data := by
    change module.nextData.toNat + count < 2 ^ 32
    rw [declared.tables.nextData]
    simpa [Code.Module.empty] using few
  globalNumbers := by
    intro id global found
    change module.globals.get? id = some global at found
    rw [declared.tables.globals] at found
    simp [Code.Module.empty] at found
  dataNumbers := by
    intro id object found
    change module.data.get? id = some object at found
    rw [declared.tables.data] at found
    simp [Code.Module.empty] at found

def Lowered (program : Program) (name : String) : Prop :=
  name ∈ namesOf program (walkProgram program)

theorem ensures_lowerItems_of_declared {program : Program} {entry : String}
    {module : Code.Module} (declared : Declared program entry module)
    (once : (functionsOf (walkProgram program)).Nodup)
    (few : demand program (walkProgram program) < 2 ^ 28) {errors : Error → Prop}
    (ordinary : ∀ error : Error, error.IsOrdinary → errors error) {finish : String → Lower Unit}
    (finishing : Finishing program (Lowered program) errors finish)
    (finishingEntry : FinishingEntry program entry errors finish) :
    (lowerItems program finish entry).Ensures (.start (.ofModule module))
      (fun _ last => Complete program entry (.start (.ofModule module)) last) errors := by
  refine ensures_lowerItems ordinary finishing finishingEntry declared.start rfl (by omega)
    (declared.stock (by omega)) ?_ (nodup_namesOf declared once) ?_
  · intro member
    rcases exists_of_mem_namesOf member with ⟨id, decl, found, same⟩
    exact declared.apart id decl found same
  · intro name member
    rcases exists_of_mem_namesOf member with ⟨id, decl, found, rfl⟩
    rcases declared.functions id decl found with ⟨signature, _, known⟩
    exact ⟨member, _, known, rfl⟩

/-- A run that succeeds has lowered everything, whether functions are verified or not. -/
theorem complete_of_lowerItems {program : Program} {options : Options} {module : Code.Module}
    {last : Session} (declares : declareAll program options = .ok module)
    (once : (functionsOf (walkProgram program)).Nodup)
    (few : demand program (walkProgram program) < 2 ^ 28)
    (lowers : lowerItems program (finishFunction options) options.entryFunction
      (.start (.ofModule module)) = .ok ((), last)) :
    Complete program options.entryFunction (.start (.ofModule module)) last := by
  have finishing : Finishing program (Lowered program) (fun _ => True) (finishFunction options) := by
    intro session id decl place _ _ builds _
    exact (ensures_finishFunction options builds).mono_errors fun _ _ => trivial
  have finishingEntry : FinishingEntry program options.entryFunction (fun _ => True)
      (finishFunction options) := by
    intro session place builds _ _
    exact (ensures_finishFunction options builds).mono_errors fun _ _ => trivial
  exact (ensures_lowerItems_of_declared (declared_of_declareAll declares) once few
    (fun _ _ => trivial) finishing finishingEntry).post_of_ok lowers

/-! ## Complete places -/

theorem LowersFunction.regular {program : Program} {final : Session}
    {decl : Source.FunctionDecl} {place : Place}
    (lowers : LowersFunction program final decl place) :
    place.Regular ∧ (place.isLive = true → decl.returnsNothing = false) := by
  cases lowers with
  | @intro depth node entered ended _ _ _ _ fit =>
      cases returns : decl.returnsNothing with
      | true =>
          refine ⟨fit.regular.returnIfLive none, fun live => ?_⟩
          have dead := Place.isLive_returnIfLive ended none
          simp only [if_true] at live
          rw [dead] at live
          cases live
      | false => exact ⟨fit.regular, fun _ => rfl⟩

theorem LowersEntry.regular {program : Program} {final : Session} {place : Place}
    (lowers : LowersEntry program final place) : place.Regular ∧ place.isLive = false := by
  cases lowers with
  | intro _ fit => exact ⟨fit.regular.returnIfLive _, Place.isLive_returnIfLive _ _⟩

/-- A function of a complete session has been built, or else it has been declared before. -/
theorem Complete.function {program : Program} {entry name : String} {start last : Session}
    (complete : Complete program entry start last) {function : Code.Function}
    (found : last.cursor.module.function? name = some function) :
    (∃ place : Place, place.Regular ∧ function.body = place.pruned.body) ∨
      start.cursor.module.function? name = some function := by
  by_cases isEntry : name = entry
  · subst isEntry
    rcases complete.entered with ⟨place, own, isOwn, body, lowers⟩
    cases found.symm.trans isOwn
    exact .inl ⟨place, lowers.regular.1, body⟩
  by_cases isLowered : name ∈ namesOf program (walkProgram program)
  · rcases complete.built name isLowered with ⟨_, _, place, own, _, _, isOwn, body, lowers⟩
    cases found.symm.trans isOwn
    exact .inl ⟨place, (lowers last (.refl last)).regular.1, body⟩
  · exact .inr ((complete.others name isEntry isLowered).symm.trans found)

end ScriptLowering.Lowering
