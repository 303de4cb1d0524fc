import ScriptLowering.Code.FlowGraph

/-!
# Dominance

A block dominates another if every way from the entry to the other passes through it. The
sets of dominators are computed as the largest solution of the equations "a block is
dominated by itself and by whatever dominates all of its predecessors": all sets start out
as large as they can be and shrink, round after round, until a round changes nothing.

A block without a predecessor among the reachable blocks is dominated by itself alone, and
so is one whose first predecessor is reachable without being laid out.
-/

namespace ScriptLowering.Code

/-- For each block the blocks that dominate it. -/
structure Dominators where
  sets : Table BlockId (List BlockId)

namespace FlowGraph

/-- The blocks that dominate all of `sources`, as far as their sets are known. -/
def commonDominators (sets : Table BlockId (List BlockId)) : List BlockId → List BlockId
  | [] => []
  | first :: rest =>
      rest.foldl (fun common source =>
        match sets.get? source with
        | some set => common.filter fun block => block ∈ set
        | none => common) ((sets.get? first).getD [])

/-- The right-hand side of the equation for one block. -/
def dominatorEquation (graph : FlowGraph) (reachable : List BlockId)
    (sets : Table BlockId (List BlockId)) (block : BlockId) : List BlockId :=
  let sources := (graph.predecessors block).filter fun source => source ∈ reachable
  let common := commonDominators sets sources
  reachable.filter fun candidate => candidate = block ∨ candidate ∈ common

/-- Apply the equations to the blocks in `order` one after the other. The entry has no
equation: nothing but itself dominates it. -/
def dominatorRound (graph : FlowGraph) (reachable : List BlockId) (entry : BlockId)
    (order : List BlockId) (sets : Table BlockId (List BlockId)) :
    Table BlockId (List BlockId) :=
  order.foldl (fun sets block =>
    if block = entry then sets
    else sets.insert block (graph.dominatorEquation reachable sets block)) sets

/-- Repeat `round` until nothing changes, at most `limit` times. -/
def settle (round : Table BlockId (List BlockId) → Table BlockId (List BlockId)) :
    (limit : Nat) → Table BlockId (List BlockId) → Table BlockId (List BlockId)
  | 0, sets => sets
  | limit + 1, sets =>
      let next := round sets
      if next = sets then sets else settle round limit next

/-- A round that changes something removes at least one block from one set, which bounds
the number of rounds. -/
def dominators (graph : FlowGraph) : Dominators :=
  match graph.entry with
  | none => ⟨.empty⟩
  | some entry =>
      let reachable := graph.reachable
      let order := graph.blocks.filter fun block => block ∈ reachable
      let largest := order.foldl (fun sets block =>
        if block = entry then sets else sets.insert block reachable)
        (Table.empty.insert entry [entry])
      ⟨settle (graph.dominatorRound reachable entry order)
        (order.length * reachable.length + 1) largest⟩

end FlowGraph

/-- Whether `first` dominates `second`. An unreachable block is dominated by none. -/
def Dominators.dominates (dominators : Dominators) (first second : BlockId) : Bool :=
  match dominators.sets.get? second with
  | some set => first ∈ set
  | none => false

end ScriptLowering.Code
