import Mathlib.Logic.Relation
import ScriptLowering.Proofs.VerifierChecks

/-! # Edges and reachability

A flow graph has an edge for every target of every laid-out block, and its search finds
exactly the blocks that the entry leads to along edges.
-/

namespace ScriptLowering.Code.FlowGraph

/-! ## The search -/

theorem mem_explore_of_pending (next : BlockId → List BlockId)
    (unvisited pending : List BlockId) {block : BlockId} (waits : block ∈ pending)
    (fresh : block ∈ unvisited) : block ∈ explore next unvisited pending := by
  fun_induction explore next unvisited pending with
  | case1 unvisited => simp at waits
  | case2 unvisited head pending member induction =>
      by_cases same : block = head
      · simp [same]
      · have later : block ∈ pending := by simpa [same] using waits
        have still : block ∈ unvisited.erase head := (List.mem_erase_of_ne same).mpr fresh
        exact List.mem_cons_of_mem _ (induction (by simp [later]) still)
  | case3 unvisited head pending absent induction =>
      have different : block ≠ head := fun same => absent (same ▸ fresh)
      exact induction (by simpa [different] using waits) fresh

theorem mem_explore_of_edge (next : BlockId → List BlockId)
    (unvisited pending : List BlockId) {block target : BlockId}
    (found : block ∈ explore next unvisited pending) (edge : target ∈ next block)
    (fresh : target ∈ unvisited) : target ∈ explore next unvisited pending := by
  fun_induction explore next unvisited pending with
  | case1 unvisited => simp at found
  | case2 unvisited head pending member induction =>
      by_cases same : target = head
      · simp [same]
      · have still : target ∈ unvisited.erase head := (List.mem_erase_of_ne same).mpr fresh
        rcases List.mem_cons.mp found with rfl | later
        · exact List.mem_cons_of_mem _
            (mem_explore_of_pending next _ _ (by simp [edge]) still)
        · exact List.mem_cons_of_mem _ (induction later still)
  | case3 unvisited head pending absent induction => exact induction found fresh

theorem explore_reaches (next : BlockId → List BlockId) (unvisited pending : List BlockId)
    {block : BlockId} (found : block ∈ explore next unvisited pending) :
    ∃ start ∈ pending,
      Relation.ReflTransGen (fun source target => target ∈ next source) start block := by
  fun_induction explore next unvisited pending with
  | case1 unvisited => simp at found
  | case2 unvisited head pending member induction =>
      rcases List.mem_cons.mp found with rfl | later
      · exact ⟨block, by simp, .refl⟩
      · obtain ⟨start, waits, path⟩ := induction later
        rcases List.mem_append.mp waits with old | new
        · exact ⟨start, List.mem_cons_of_mem _ old, path⟩
        · exact ⟨head, by simp, .head new path⟩
  | case3 unvisited head pending absent induction =>
      obtain ⟨start, waits, path⟩ := induction found
      exact ⟨start, List.mem_cons_of_mem _ waits, path⟩

/-! ## Reachable blocks -/

/-- `second` is a target of `first`. -/
def Edge (graph : FlowGraph) (first second : BlockId) : Prop :=
  second ∈ graph.successors first

def Reaches (graph : FlowGraph) (block : BlockId) : Prop :=
  ∃ entry, graph.entry = some entry ∧ Relation.ReflTransGen graph.Edge entry block

theorem mem_nodes_of_edge {graph : FlowGraph} {first second : BlockId}
    (edge : graph.Edge first second) : second ∈ graph.nodes := by
  unfold Edge successors at edge
  cases found : graph.targets.get? first with
  | none => simp [found] at edge
  | some targets =>
      have listed : targets ∈ graph.targets.values :=
        Table.mem_values_iff.mpr ⟨first, found⟩
      simp only [found, Option.getD_some] at edge
      simp only [nodes, List.mem_eraseDups, List.mem_append, List.mem_flatten]
      exact .inr ⟨targets, listed, edge⟩

theorem mem_nodes_of_entry {graph : FlowGraph} {entry : BlockId}
    (found : graph.entry = some entry) : entry ∈ graph.nodes := by
  simp [nodes, found]

theorem mem_reachable_of_edge {graph : FlowGraph} {first second : BlockId}
    (found : first ∈ graph.reachable) (edge : graph.Edge first second) :
    second ∈ graph.reachable :=
  mem_explore_of_edge _ _ _ found edge (mem_nodes_of_edge edge)

theorem mem_reachable_of_entry {graph : FlowGraph} {entry : BlockId}
    (found : graph.entry = some entry) : entry ∈ graph.reachable :=
  mem_explore_of_pending _ _ _ (by simp [found]) (mem_nodes_of_entry found)

theorem mem_reachable_iff {graph : FlowGraph} {block : BlockId} :
    block ∈ graph.reachable ↔ graph.Reaches block := by
  constructor
  · intro found
    obtain ⟨entry, starts, path⟩ := explore_reaches _ _ _ found
    exact ⟨entry, by simpa using starts, path⟩
  · rintro ⟨entry, starts, path⟩
    induction path with
    | refl => exact mem_reachable_of_entry starts
    | tail _ edge induction => exact mem_reachable_of_edge induction edge

/-! ## The graph of a function -/

variable {function : Function}

theorem entry_ofFunction : (ofFunction function).entry = function.body.layout.head? := rfl

theorem mem_predecessors_iff {first second : BlockId} :
    first ∈ (ofFunction function).predecessors second ↔
      ∃ block ∈ function.body.laidOut, block.id = first ∧ second ∈ block.successors := by
  simp only [predecessors, ofFunction, List.mem_map, List.mem_filter, List.mem_flatMap]
  constructor
  · rintro ⟨edge, ⟨⟨block, laidOut, target, isTarget, rfl⟩, leads⟩, rfl⟩
    have same : target = second := by simpa using leads
    exact ⟨block, laidOut, rfl, same ▸ isTarget⟩
  · rintro ⟨block, laidOut, rfl, isTarget⟩
    exact ⟨(block.id, second), ⟨⟨block, laidOut, second, isTarget, rfl⟩, by simp⟩, rfl⟩

theorem edge_ofFunction_iff (keyed : function.body.Keyed) {first second : BlockId} :
    (ofFunction function).Edge first second ↔
      ∃ block ∈ function.body.laidOut, block.id = first ∧ second ∈ block.successors := by
  have distinct : ((function.body.laidOut.map fun block =>
      (block.id, block.successors)).map Prod.fst).Nodup := by
    simpa [List.map_map, Function.comp_def] using keyed.laidOut_nodup
  unfold Edge successors
  cases found : (ofFunction function).targets.get? first with
  | none =>
      simp only [Option.getD_none, List.not_mem_nil, false_iff]
      rintro ⟨block, laidOut, rfl, isTarget⟩
      have present := (Table.get?_ofList distinct).mpr
        (List.mem_map.mpr ⟨block, laidOut, rfl⟩)
      simp only [ofFunction] at found
      rw [found] at present
      cases present
  | some targets =>
      have listed := (Table.get?_ofList distinct).mp found
      obtain ⟨block, laidOut, same⟩ := List.mem_map.mp listed
      simp only [Prod.mk.injEq] at same
      obtain ⟨rfl, rfl⟩ := same
      simp only [Option.getD_some]
      constructor
      · intro isTarget
        exact ⟨block, laidOut, rfl, isTarget⟩
      · rintro ⟨other, otherLaidOut, sameId, isTarget⟩
        have foundBlock := (keyed.mem_laidOut_iff.mp laidOut).2
        have foundOther := (keyed.mem_laidOut_iff.mp otherLaidOut).2
        rw [sameId, foundBlock] at foundOther
        cases foundOther
        exact isTarget

theorem edge_iff_mem_predecessors (keyed : function.body.Keyed)
    {first second : BlockId} :
    (ofFunction function).Edge first second ↔
      first ∈ (ofFunction function).predecessors second := by
  rw [edge_ofFunction_iff keyed, mem_predecessors_iff]

theorem mem_layout_of_reachable (keyed : function.body.Keyed)
    (closed : ∀ block ∈ function.body.laidOut, ∀ target ∈ block.successors,
      target ∈ function.body.layout)
    {block : BlockId} (found : block ∈ (ofFunction function).reachable) :
    block ∈ function.body.layout := by
  obtain ⟨entry, starts, path⟩ := mem_reachable_iff.mp found
  induction path with
  | refl => exact List.mem_of_mem_head? (entry_ofFunction ▸ starts)
  | tail _ edge _ =>
      obtain ⟨source, laidOut, _, isTarget⟩ := (edge_ofFunction_iff keyed).mp edge
      exact closed source laidOut _ isTarget

end ScriptLowering.Code.FlowGraph
