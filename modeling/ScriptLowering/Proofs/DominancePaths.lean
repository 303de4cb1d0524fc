import ScriptLowering.Proofs.Dominance

/-! # Dominance by paths

The computed dominators are measured against paths: a block dominates another one if the
entry leads there and every path from the entry passes through it. The computation finds no
block too many because a computed dominator of a block is one of every predecessor as well, so
that it is met on the way back along any path. It misses none because dominance by paths
satisfies the equations whose largest solution is computed.
-/

namespace ScriptLowering.Code

/-! ## Paths -/

/-- A path from the entry along edges: the blocks on it, in order, and the last of them. -/
inductive Path (entry : Option BlockId) (edge : BlockId → BlockId → Prop) :
    List BlockId → BlockId → Prop
  | entry {first : BlockId} (starts : entry = some first) : Path entry edge [first] first
  | step {blocks : List BlockId} {source target : BlockId}
      (path : Path entry edge blocks source) (leads : edge source target) :
      Path entry edge (blocks ++ [target]) target

/-- There is a path to `second`, and all such paths pass through `first`. -/
def PathDominates (entry : Option BlockId) (edge : BlockId → BlockId → Prop)
    (first second : BlockId) : Prop :=
  (∃ blocks, Path entry edge blocks second) ∧
    ∀ blocks, Path entry edge blocks second → first ∈ blocks

theorem Path.mem_target {entry : Option BlockId} {edge : BlockId → BlockId → Prop}
    {blocks : List BlockId} {target : BlockId} (path : Path entry edge blocks target) :
    target ∈ blocks := by
  cases path with
  | entry _ => simp
  | step _ _ => simp

theorem Path.exists_of_mem {entry : Option BlockId} {edge : BlockId → BlockId → Prop}
    {blocks : List BlockId} {target member : BlockId} (path : Path entry edge blocks target)
    (visited : member ∈ blocks) :
    ∃ others, Path entry edge others member ∧ others.length ≤ blocks.length := by
  induction path with
  | entry starts =>
      rw [List.mem_singleton.mp visited]
      exact ⟨_, .entry starts, Nat.le_refl _⟩
  | step path leads induction =>
      rw [List.length_append]
      rcases List.mem_append.mp visited with earlier | last
      · rcases induction earlier with ⟨others, shorter, fewer⟩
        exact ⟨others, shorter, Nat.le_add_right_of_le fewer⟩
      · rw [List.mem_singleton.mp last]
        exact ⟨_, path.step leads, by simp⟩

namespace FlowGraph

variable {graph : FlowGraph}

theorem reaches_iff_path {target : BlockId} :
    graph.Reaches target ↔ ∃ blocks, Path graph.entry graph.Edge blocks target := by
  constructor
  · rintro ⟨entry, starts, leads⟩
    induction leads with
    | refl => exact ⟨[entry], .entry starts⟩
    | tail _ edge induction =>
        rcases induction with ⟨blocks, path⟩
        exact ⟨_, path.step edge⟩
  · rintro ⟨blocks, path⟩
    induction path with
    | entry starts => exact ⟨_, starts, .refl⟩
    | step _ edge induction =>
        rcases induction with ⟨entry, starts, leads⟩
        exact ⟨entry, starts, leads.tail edge⟩

/-! ## The computation is exact -/

section Exact

variable {entry : BlockId} (starts : graph.entry = some entry)
  (closed : ∀ block ∈ graph.reachable, block ∈ graph.blocks)
  (agree : ∀ source target, graph.Edge source target ↔ source ∈ graph.predecessors target)

include starts in
theorem reaches_of_dominates {first second : BlockId}
    (dominates : graph.dominators.dominates first second = true) : graph.Reaches second := by
  have entryReached := mem_reachable_of_entry starts
  rcases dominators_settled starts with ⟨_, below, _⟩
  rcases dominates_iff.mp dominates with ⟨set, found, _⟩
  have largest : (largestSets graph.reachable entry graph.reachableOrder).get? second ≠ none := by
    intro missing
    rw [(below.sameKeys second).mpr missing] at found
    cases found
  rw [get?_largestSets] at largest
  by_cases isEntry : second = entry
  · subst isEntry
    exact mem_reachable_iff.mp entryReached
  · have ordered : second ∈ graph.reachableOrder := by
      by_contra absent
      simp [isEntry, absent] at largest
    exact mem_reachable_iff.mp (mem_reachableOrder.mp ordered).2

include starts closed agree in
/-- A computed dominator is met on every path. -/
theorem mem_path_of_dominates {first target : BlockId} {blocks : List BlockId}
    (path : Path graph.entry graph.Edge blocks target)
    (dominates : graph.dominators.dominates first target = true) : first ∈ blocks := by
  induction path with
  | entry found =>
      rw [starts] at found
      cases found
      simp [(dominates_entry starts).mp dominates]
  | step path edge induction =>
      have sourceReached := mem_reachable_iff.mpr (reaches_iff_path.mpr ⟨_, path⟩)
      have targetReached := mem_reachable_of_edge sourceReached edge
      rcases dominates_of_edge starts closed ((agree _ _).mp edge) sourceReached
        targetReached dominates with same | earlier
      · simp [same]
      · exact List.mem_append_left _ (induction earlier)

include starts agree in
theorem closedClaim_pathDominates :
    ClosedClaim graph entry (PathDominates graph.entry graph.Edge) where
  atEntry first claimed := by
    simpa using claimed.2 [entry] (.entry starts)
  reached first second claimed := by
    rcases claimed.1 with ⟨blocks, path⟩
    exact mem_reachable_iff.mpr
      (reaches_iff_path.mpr ((path.exists_of_mem (claimed.2 blocks path)).imp fun _ => And.left))
  step first second _ _ claimed := by
    by_cases same : first = second
    · exact .inl same
    · refine .inr fun source edge reached => ?_
      refine ⟨reaches_iff_path.mp (mem_reachable_iff.mp reached), fun blocks path => ?_⟩
      have visited := claimed.2 _ (path.step ((agree source second).mpr edge))
      simpa [same] using visited

include starts closed agree in
theorem dominates_iff_pathDominates {first second : BlockId} :
    graph.dominators.dominates first second = true ↔
      PathDominates graph.entry graph.Edge first second := by
  constructor
  · intro dominates
    exact ⟨reaches_iff_path.mp (reaches_of_dominates starts dominates),
      fun blocks path => mem_path_of_dominates starts closed agree path dominates⟩
  · intro claimed
    have entered : ∀ block ∈ graph.reachable, block ≠ entry →
        ∃ source ∈ graph.predecessors block, source ∈ graph.reachable := by
      intro block reached different
      rcases mem_reachable_iff.mp reached with ⟨other, found, leads⟩
      rcases leads.cases_tail with same | ⟨source, earlier, edge⟩
      · rw [starts, ← same] at found
        cases found
        exact absurd rfl different
      · exact ⟨source, (agree source block).mp edge,
          mem_reachable_iff.mpr ⟨other, found, earlier⟩⟩
    exact dominates_of_claim starts closed entered (closedClaim_pathDominates starts agree)
      (mem_reachable_iff.mpr (reaches_iff_path.mpr claimed.1)) claimed

end Exact

end FlowGraph

end ScriptLowering.Code
