import Mathlib.Data.List.Nodup
import Mathlib.Data.Prod.Basic
import ScriptLowering.Code.Cursor
import ScriptLowering.Proofs.DominatorLoops

/-! # Edges by number

Two blocks may be joined by more than one edge. A flow graph knows as many edges between them on the
side of the source as on the side of the target, and as many as the terminator of the source has. What
is counted while a function is under construction is the same number.
-/

namespace ScriptLowering.Code

/-! ## Edges that are listed -/

def edgesOf (blocks : List Block) : List (BlockId × BlockId) :=
  blocks.flatMap fun block => block.successors.map fun target => (block.id, target)

theorem count_edgesOf_of_absent {blocks : List Block} {source : BlockId} (target : BlockId)
    (absent : ∀ block ∈ blocks, block.id ≠ source) : (edgesOf blocks).count (source, target) = 0 := by
  refine List.count_eq_zero_of_not_mem fun member => ?_
  rcases List.mem_flatMap.mp member with ⟨block, inside, isEdge⟩
  rcases List.mem_map.mp isEdge with ⟨_, _, same⟩
  exact absent block inside (congrArg Prod.fst same)

/-- The edges out of a block are those of its terminator, if it is the only one with its name. -/
theorem count_edgesOf {blocks : List Block} (distinct : (blocks.map Block.id).Nodup) {block : Block}
    (member : block ∈ blocks) (target : BlockId) :
    (edgesOf blocks).count (block.id, target) = block.successors.count target := by
  induction blocks with
  | nil => cases member
  | cons head rest induction =>
      rw [List.map_cons, List.nodup_cons] at distinct
      have splits : edgesOf (head :: rest) =
          head.successors.map (fun target => (head.id, target)) ++ edgesOf rest := List.flatMap_cons
      rw [splits, List.count_append]
      rcases List.mem_cons.mp member with rfl | later
      · have others : ∀ other ∈ rest, other.id ≠ block.id := fun other inside same =>
          distinct.1 (same ▸ List.mem_map_of_mem inside)
        rw [count_edgesOf_of_absent target others,
          List.count_map_of_injective _ _ (Prod.mk_right_injective block.id), Nat.add_zero]
      · have different : head.id ≠ block.id := fun same =>
          distinct.1 (same ▸ List.mem_map_of_mem later)
        have none : (head.successors.map fun target => (head.id, target)).count
            (block.id, target) = 0 := by
          refine List.count_eq_zero_of_not_mem fun inside => ?_
          rcases List.mem_map.mp inside with ⟨_, _, same⟩
          exact different (congrArg Prod.fst same)
        rw [none, Nat.zero_add]
        exact induction distinct.2 later

/-! ## The graph of a function -/

/-- How many edges the function has from a block to another. A block that is not laid out has none. -/
def Function.edgeCount (function : Function) (source target : BlockId) : Nat :=
  if source ∈ function.body.layout then
    match function.body.block? source with
    | some block => block.terminator.successors.count target
    | none => 0
  else 0

namespace FlowGraph

theorem count_predecessors (graph : FlowGraph) (source target : BlockId) :
    (graph.predecessors target).count source = graph.edges.count (source, target) := by
  simp only [predecessors, List.count, List.countP_map, List.countP_filter]
  refine List.countP_congr fun edge _ => ?_
  rcases edge with ⟨first, second⟩
  simp

variable {function : Function}

theorem length_predecessors (id : BlockId) :
    ((ofFunction function).predecessors id).length = function.body.predecessorCount id := by
  have targets : (ofFunction function).edges.map Prod.snd =
      function.body.laidOut.flatMap Block.successors := by
    simp [ofFunction, List.map_flatMap, Function.comp_def]
  rw [predecessors, List.length_map, ← List.countP_eq_length_filter, Body.predecessorCount,
    ← targets, List.count, List.countP_map]
  exact List.countP_congr fun edge _ => by simp

variable (keyed : function.body.Keyed)

include keyed

theorem successors_of_laidOut {block : Block} (laidOut : block ∈ function.body.laidOut) :
    (ofFunction function).successors block.id = block.successors := by
  have distinct : ((function.body.laidOut.map fun block =>
      (block.id, block.successors)).map Prod.fst).Nodup := by
    simpa [List.map_map, Function.comp_def] using keyed.laidOut_nodup
  have found := (Table.get?_ofList distinct).mpr (List.mem_map.mpr ⟨block, laidOut, rfl⟩)
  rw [successors, ofFunction, found, Option.getD_some]

theorem successors_of_absent {source : BlockId}
    (absent : ∀ block ∈ function.body.laidOut, block.id ≠ source) :
    (ofFunction function).successors source = [] := by
  refine List.eq_nil_iff_forall_not_mem.mpr fun target isTarget => ?_
  rcases (edge_ofFunction_iff keyed).mp isTarget with ⟨block, laidOut, named, _⟩
  exact absent block laidOut named

theorem edgeCount_of_laidOut {block : Block} (laidOut : block ∈ function.body.laidOut)
    (target : BlockId) : function.edgeCount block.id target = block.successors.count target := by
  rcases keyed.mem_laidOut_iff.mp laidOut with ⟨member, found⟩
  rw [Function.edgeCount, if_pos member, found, Block.successors]

omit keyed in
theorem edgeCount_of_absent (named : ∀ id block, function.body.block? id = some block → block.id = id)
    {source : BlockId} (absent : ∀ block ∈ function.body.laidOut, block.id ≠ source)
    (target : BlockId) : function.edgeCount source target = 0 := by
  unfold Function.edgeCount
  split
  · rename_i member
    cases found : function.body.block? source with
    | none => rfl
    | some block =>
        exact absurd (named source block found)
          (absent block (Body.mem_laidOut.mpr ⟨source, member, found⟩))
  · rfl

/-- From both sides there are as many edges as the terminator has. -/
theorem count_edges (source target : BlockId) :
    ((ofFunction function).predecessors target).count source = function.edgeCount source target ∧
      ((ofFunction function).successors source).count target = function.edgeCount source target := by
  rw [count_predecessors, show (ofFunction function).edges = edgesOf function.body.laidOut from rfl]
  by_cases present : ∃ block ∈ function.body.laidOut, block.id = source
  · rcases present with ⟨block, laidOut, rfl⟩
    rw [edgeCount_of_laidOut keyed laidOut, count_edgesOf keyed.laidOut_nodup laidOut,
      successors_of_laidOut keyed laidOut]
    exact ⟨rfl, rfl⟩
  · have absent : ∀ block ∈ function.body.laidOut, block.id ≠ source :=
      fun block laidOut same => present ⟨block, laidOut, same⟩
    rw [edgeCount_of_absent keyed.named absent, count_edgesOf_of_absent target absent,
      successors_of_absent keyed absent]
    exact ⟨rfl, rfl⟩

omit keyed

/-! ## Decisions that are made by number -/

theorem predecessorCount_of_currentFunction {cursor : Cursor}
    (stands : cursor.currentFunction = .ok function) (id : BlockId) :
    cursor.predecessorCount id = .ok ((ofFunction function).predecessors id).length := by
  rw [length_predecessors, Cursor.predecessorCount, Cursor.currentBody, stands]
  rfl

theorem mem_orphans_iff {id : BlockId} : id ∈ (ofFunction function).orphans ↔
    id ∈ function.body.layout ∧ function.entry? ≠ some id ∧ function.body.predecessorCount id = 0 := by
  rw [orphans, List.mem_filter, Bool.and_eq_true, decide_eq_true_iff, List.isEmpty_iff_length_eq_zero,
    length_predecessors, ne_comm]
  exact Iff.rfl

/-- The search from the entry ends, and with nothing else than what is computed. -/
theorem searches_iff (graph : FlowGraph) (reached : List BlockId) :
    Searches graph.successors [] graph.entry.toList reached ↔ reached = graph.reachable := by
  have ends : Searches graph.successors [] graph.entry.toList graph.reachable := by
    cases starts : graph.entry with
    | none =>
        have nothing : graph.reachable = [] := by rw [reachable, starts, Option.toList_none, explore]
        rw [nothing]
        exact .done
    | some entry => exact searches_reachable starts
  constructor
  · intro search
    exact search.unique ends
  · rintro rfl
    exact ends

end FlowGraph

/-- A flow graph has the edges of its function, as often as they are there, and seen from both of their
ends. A block is laid out where it has an edge, and it is found to be an orphan where it has none, by the
same number. The search for what the entry leads to comes to an end, whatever cycles there are, and finds
just that. -/
theorem flow_graph_is_faithful {function : Function} (distinct : function.body.layout.Nodup)
    (named : ∀ id block, function.body.block? id = some block → block.id = id) :
    (∀ source target,
      ((FlowGraph.ofFunction function).predecessors target).count source =
          ((FlowGraph.ofFunction function).successors source).count target ∧
        ((FlowGraph.ofFunction function).predecessors target).count source =
          function.edgeCount source target) ∧
    (∀ id, ((FlowGraph.ofFunction function).predecessors id).length =
      function.body.predecessorCount id) ∧
    (∀ cursor : Cursor, cursor.currentFunction = .ok function → ∀ id,
      cursor.predecessorCount id = .ok ((FlowGraph.ofFunction function).predecessors id).length) ∧
    (∀ id, id ∈ (FlowGraph.ofFunction function).orphans ↔ id ∈ function.body.layout ∧
      function.entry? ≠ some id ∧ function.body.predecessorCount id = 0) ∧
    (∀ reached, FlowGraph.Searches (FlowGraph.ofFunction function).successors []
        (FlowGraph.ofFunction function).entry.toList reached ↔
      reached = (FlowGraph.ofFunction function).reachable) ∧
    ∀ id, id ∈ (FlowGraph.ofFunction function).reachable ↔
      (FlowGraph.ofFunction function).Reaches id := by
  have keyed : function.body.Keyed := ⟨distinct, named⟩
  refine ⟨fun source target => ?_, FlowGraph.length_predecessors,
    fun _ => FlowGraph.predecessorCount_of_currentFunction, fun _ => FlowGraph.mem_orphans_iff,
    FlowGraph.searches_iff _, fun _ => FlowGraph.mem_reachable_iff⟩
  rcases FlowGraph.count_edges keyed source target with ⟨sources, targets⟩
  exact ⟨sources.trans targets.symm, sources⟩

/-- Two edges from the entry to one and the same block, which leads to itself and back to the entry. A
block outside of the layout leads there as well. -/
def twofoldFunction : Function where
  signature := ⟨"twofold", [⟨"flag", .bool⟩], .void⟩
  linkage := .internal
  body := {
    blocks := .ofList [
      (⟨0⟩, ⟨⟨0⟩, "entry", [], .branch (.param ⟨0⟩) ⟨1⟩ ⟨1⟩⟩),
      (⟨1⟩, ⟨⟨1⟩, "twice", [], .branch (.param ⟨0⟩) ⟨1⟩ ⟨0⟩⟩),
      (⟨2⟩, ⟨⟨2⟩, "detached", [], .jump ⟨1⟩⟩),
      (⟨3⟩, ⟨⟨3⟩, "stray", [], .jump ⟨0⟩⟩)]
    layout := [⟨0⟩, ⟨1⟩, ⟨3⟩]
    temps := #[]
    nextBlock := 4 }

theorem twofoldFunction_is_faithful :
    twofoldFunction.body.layout.Nodup ∧
      (∀ id block, twofoldFunction.body.block? id = some block → block.id = id) ∧
      ((FlowGraph.ofFunction twofoldFunction).predecessors ⟨1⟩).count ⟨0⟩ = 2 ∧
      ((FlowGraph.ofFunction twofoldFunction).predecessors ⟨1⟩).count ⟨2⟩ = 0 ∧
      twofoldFunction.body.predecessorCount ⟨1⟩ = 3 ∧
      ⟨3⟩ ∈ (FlowGraph.ofFunction twofoldFunction).orphans ∧
      ¬ (FlowGraph.ofFunction twofoldFunction).Reaches ⟨3⟩ := by
  have distinct : twofoldFunction.body.layout.Nodup := by decide
  have named : ∀ id block, twofoldFunction.body.block? id = some block → block.id = id := by
    intro id block found
    have member := (Table.get?_ofList (by decide)).mp found
    simp only [List.mem_cons, List.not_mem_nil, or_false, Prod.mk.injEq] at member
    rcases member with ⟨rfl, rfl⟩ | ⟨rfl, rfl⟩ | ⟨rfl, rfl⟩ | ⟨rfl, rfl⟩ <;> rfl
  rcases flow_graph_is_faithful distinct named with ⟨counts, lengths, _, orphans, _, reached⟩
  refine ⟨distinct, named, ?_, ?_, ?_, (orphans ⟨3⟩).mpr (by decide), ?_⟩
  · exact (counts ⟨0⟩ ⟨1⟩).2.trans (by decide)
  · exact (counts ⟨2⟩ ⟨1⟩).2.trans (by decide)
  · exact (lengths ⟨1⟩).symm.trans (by decide)
  · have found : (FlowGraph.ofFunction twofoldFunction).reachable = [⟨0⟩, ⟨1⟩] := by cbv
    rw [← reached, found]
    decide

end ScriptLowering.Code
