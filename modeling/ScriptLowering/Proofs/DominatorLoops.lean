import ScriptLowering.Proofs.WellFormedFunctions

/-! # The loops behind dominators

Two loops find the dominators of a graph: a search for what can be reached, and rounds of the
equations until nothing changes any more. As relations they have no bound, and a loop that went on for
ever would be related to nothing. Both come to an end on every graph, also on one that is not the
graph of a function, and what they end with is what is computed.
-/

namespace ScriptLowering.Code

namespace FlowGraph

/-! ## The search -/

/-- A search that has met the blocks in `met` and goes on with those that are pending ends with
`last`. -/
inductive Searches (next : BlockId → List BlockId) : (met pending last : List BlockId) → Prop
  | done {met : List BlockId} : Searches next met [] met
  | again {met pending last : List BlockId} {block : BlockId} (old : block ∈ met)
      (rest : Searches next met pending last) : Searches next met (block :: pending) last
  | found {met pending last : List BlockId} {block : BlockId} (new : block ∉ met)
      (rest : Searches next (met ++ [block]) (pending ++ next block) last) :
      Searches next met (block :: pending) last

theorem Searches.unique {next : BlockId → List BlockId} {met pending last other : List BlockId}
    (first : Searches next met pending last) (second : Searches next met pending other) :
    last = other := by
  induction first with
  | done =>
      cases second
      rfl
  | again old _ induction =>
      cases second with
      | again _ rest => exact induction rest
      | found new _ => exact absurd old new
  | found new _ induction =>
      cases second with
      | again old _ => exact absurd old new
      | found _ rest => exact induction rest

theorem searches_explore (next : BlockId → List BlockId) (unvisited pending met : List BlockId)
    (distinct : unvisited.Nodup) (apart : ∀ block ∈ unvisited, block ∉ met)
    (waiting : ∀ block ∈ pending, block ∈ unvisited ∨ block ∈ met)
    (closed : ∀ block, ∀ target ∈ next block, target ∈ unvisited ∨ target ∈ met) :
    Searches next met pending (met ++ explore next unvisited pending) := by
  fun_induction explore next unvisited pending generalizing met with
  | case1 unvisited =>
      rw [List.append_nil]
      exact .done
  | case2 unvisited block pending member induction =>
      have moved : ∀ other, other ∈ unvisited ∨ other ∈ met →
          other ∈ unvisited.erase block ∨ other ∈ met ++ [block] := by
        intro other either
        by_cases same : other = block
        · exact .inr (by simp [same])
        · exact either.imp (List.mem_erase_of_ne same).mpr (List.mem_append_left _)
      have rest := induction (met ++ [block]) (distinct.erase block)
        (by
          intro other still
          rw [distinct.mem_erase_iff] at still
          simp [still.1, apart other still.2])
        (by
          intro other waits
          rcases List.mem_append.mp waits with old | new
          · exact moved other (waiting other (List.mem_cons_of_mem _ old))
          · exact moved other (closed block other new))
        fun source target leads => moved target (closed source target leads)
      rw [List.append_assoc] at rest
      exact .found (apart block member) rest
  | case3 unvisited block pending absent induction =>
      have old : block ∈ met := (waiting block (by simp)).resolve_left absent
      exact .again old (induction met distinct apart
        (fun other waits => waiting other (List.mem_cons_of_mem _ waits)) closed)

theorem nodup_nodes (graph : FlowGraph) : graph.nodes.Nodup := by
  unfold nodes
  generalize graph.entry.toList ++ graph.targets.values.flatten = all
  generalize size : all.length = length
  induction length using Nat.strongRecOn generalizing all with
  | ind length induction =>
      cases all with
      | nil => exact List.nodup_nil
      | cons head rest =>
          rw [List.eraseDups_cons, List.nodup_cons]
          have fewer := List.length_filter_le (fun other => !other == head) rest
          rw [List.length_cons] at size
          exact ⟨by simp, induction _ (by omega) _ rfl⟩

theorem searches_reachable {graph : FlowGraph} {entry : BlockId}
    (starts : graph.entry = some entry) :
    Searches graph.successors [] [entry] graph.reachable := by
  have search := searches_explore graph.successors graph.nodes [entry] [] graph.nodup_nodes
    (by simp) (by simp [mem_nodes_of_entry starts])
    fun source target leads => .inl (mem_nodes_of_edge leads)
  rw [reachable, starts]
  exact search

/-! ## The rounds -/

/-- Rounds that go on from `sets` until one of them changes nothing end with `last`. -/
inductive Settles (round : Table BlockId (List BlockId) → Table BlockId (List BlockId)) :
    (sets last : Table BlockId (List BlockId)) → Prop
  | done {sets : Table BlockId (List BlockId)} (same : round sets = sets) :
      Settles round sets sets
  | again {sets last : Table BlockId (List BlockId)} (changed : round sets ≠ sets)
      (rest : Settles round (round sets) last) : Settles round sets last

theorem Settles.unique {round : Table BlockId (List BlockId) → Table BlockId (List BlockId)}
    {sets last other : Table BlockId (List BlockId)} (first : Settles round sets last)
    (second : Settles round sets other) : last = other := by
  induction first with
  | done same =>
      cases second with
      | done _ => rfl
      | again changed _ => exact absurd same changed
  | again changed _ induction =>
      cases second with
      | done same => exact absurd same changed
      | again _ rest => exact induction rest

theorem Descending.settles {graph : FlowGraph} {reachable order : List BlockId} {entry : BlockId}
    {sets : Table BlockId (List BlockId)} {limit : Nat}
    (descending : Descending graph reachable entry order sets) (enough : weight sets ≤ limit) :
    Settles (graph.dominatorRound reachable entry order) sets
      (FlowGraph.settle (graph.dominatorRound reachable entry order) limit sets) := by
  induction limit generalizing sets with
  | zero => exact absurd descending.weight_pos (by omega)
  | succ limit induction =>
      rcases descending.round (List.Subset.refl order) with ⟨next, _, lighter, same⟩
      unfold FlowGraph.settle
      by_cases settled : graph.dominatorRound reachable entry order sets = sets
      · simp only [if_pos settled]
        exact .done settled
      · simp only [if_neg settled]
        have changed : weight (graph.dominatorRound reachable entry order sets) ≠ weight sets :=
          fun equal => settled (same equal).1
        exact .again settled (induction next (by omega))

/-! ## The computation -/

/-- The whole computation, with no bound on its loops, ends with the given dominators. -/
inductive ComputesDominators (graph : FlowGraph) : Dominators → Prop
  | nowhere (starts : graph.entry = none) : ComputesDominators graph ⟨.empty⟩
  | settled {entry : BlockId} {reached order : List BlockId}
      {last : Table BlockId (List BlockId)} (starts : graph.entry = some entry)
      (searches : Searches graph.successors [] [entry] reached)
      (ordered : order = graph.blocks.filter fun block => block ∈ reached)
      (settles : Settles (graph.dominatorRound reached entry order)
        (largestSets reached entry order) last) :
      ComputesDominators graph ⟨last⟩

theorem computesDominators_dominators (graph : FlowGraph) :
    graph.ComputesDominators graph.dominators := by
  cases starts : graph.entry with
  | none =>
      rw [dominators, starts]
      exact .nowhere starts
  | some entry =>
      have sets := dominators_sets starts
      have settles : Settles (graph.dominatorRound graph.reachable entry graph.reachableOrder)
          (largestSets graph.reachable entry graph.reachableOrder) graph.dominators.sets := by
        rw [sets]
        exact descending_largest.settles (weight_largestSets_le _ _ _)
      exact .settled starts (searches_reachable starts) rfl settles

theorem ComputesDominators.unique {graph : FlowGraph} {first second : Dominators}
    (one : graph.ComputesDominators first) (other : graph.ComputesDominators second) :
    first = second := by
  cases one with
  | nowhere starts =>
      cases other with
      | nowhere _ => rfl
      | settled found _ _ _ =>
          rw [starts] at found
          cases found
  | settled starts searches ordered settles =>
      cases other with
      | nowhere found =>
          rw [starts] at found
          cases found
      | settled found otherSearches otherOrdered otherSettles =>
          rw [starts] at found
          cases found
          cases searches.unique otherSearches
          subst ordered otherOrdered
          rw [settles.unique otherSettles]

end FlowGraph

/-- On every graph the computation ends, and on the graph of a function whose edges stay inside its
layout it ends with dominance by paths. -/
theorem dominators_computed_exactly {function : Function}
    (distinct : function.body.layout.Nodup)
    (named : ∀ id block, function.body.block? id = some block → block.id = id)
    (closed : ∀ block ∈ function.body.laidOut, ∀ target ∈ block.successors,
      target ∈ function.body.layout) :
    (∀ (graph : FlowGraph) (dominators : Dominators),
      graph.ComputesDominators dominators ↔ dominators = graph.dominators) ∧
    ∀ first second, (FlowGraph.ofFunction function).dominators.dominates first second = true ↔
      function.Dominates first second := by
  constructor
  · intro graph dominators
    constructor
    · intro computes
      exact computes.unique graph.computesDominators_dominators
    · rintro rfl
      exact graph.computesDominators_dominators
  · intro first second
    exact Function.dominators_iff ⟨distinct, named⟩ closed

/-- A function that goes back to its entry, with a loop that is entered in two places, a block that
leads to itself, and a block that nothing leads to but that leads into the loop. Its last block is
laid out without being there. -/
def tangledFunction : Function where
  signature := ⟨"tangled", [⟨"flag", .bool⟩], .void⟩
  linkage := .internal
  body := {
    blocks := .ofList [
      (⟨0⟩, ⟨⟨0⟩, "entry", [], .branch (.param ⟨0⟩) ⟨1⟩ ⟨2⟩⟩),
      (⟨1⟩, ⟨⟨1⟩, "left", [], .jump ⟨2⟩⟩),
      (⟨2⟩, ⟨⟨2⟩, "right", [], .branch (.param ⟨0⟩) ⟨1⟩ ⟨3⟩⟩),
      (⟨3⟩, ⟨⟨3⟩, "self", [], .branch (.param ⟨0⟩) ⟨3⟩ ⟨0⟩⟩),
      (⟨4⟩, ⟨⟨4⟩, "stray", [], .branch (.param ⟨0⟩) ⟨1⟩ ⟨5⟩⟩)]
    layout := [⟨0⟩, ⟨1⟩, ⟨2⟩, ⟨3⟩, ⟨4⟩, ⟨5⟩]
    temps := #[]
    nextBlock := 5 }

/-- Neither side of the loop with two entries dominates the other, and the block that leads to itself
is dominated by the right one. -/
theorem tangledFunction_dominance :
    tangledFunction.Dominates ⟨2⟩ ⟨3⟩ ∧ ¬ tangledFunction.Dominates ⟨1⟩ ⟨2⟩ ∧
      ¬ tangledFunction.Dominates ⟨2⟩ ⟨1⟩ ∧ ¬ tangledFunction.Dominates ⟨4⟩ ⟨4⟩ := by
  have named : ∀ id block, tangledFunction.body.block? id = some block → block.id = id := by
    intro id block found
    have member := (Table.get?_ofList (by decide)).mp found
    simp only [List.mem_cons, List.not_mem_nil, or_false, Prod.mk.injEq] at member
    rcases member with ⟨rfl, rfl⟩ | ⟨rfl, rfl⟩ | ⟨rfl, rfl⟩ | ⟨rfl, rfl⟩ | ⟨rfl, rfl⟩ <;> rfl
  have agree := (@dominators_computed_exactly tangledFunction (by decide) named (by decide)).2
  refine ⟨(agree _ _).mp (by cbv), ?_, ?_, ?_⟩ <;> rw [← agree, Bool.not_eq_true] <;> cbv

end ScriptLowering.Code
