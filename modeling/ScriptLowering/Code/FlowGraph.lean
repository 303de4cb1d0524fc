import ScriptLowering.Code.Function

/-!
# Flow graphs

The flow graph of a function has the edges between its laid-out blocks; a detached block is
not part of it. A block is known here by its own identifier, while the layout, and with it
the entry, goes by the keys of the arena.
-/

namespace ScriptLowering.Code

structure FlowGraph where
  entry : Option BlockId
  /-- The layout. -/
  blocks : List BlockId
  /-- The targets of each laid-out block. -/
  targets : Table BlockId (List BlockId)
  /-- All edges from source to target, in layout order. -/
  edges : List (BlockId × BlockId)

namespace FlowGraph

def ofFunction (function : Function) : FlowGraph :=
  let laidOut := function.body.laidOut
  { entry := function.entry?
    blocks := function.body.layout
    targets := .ofList (laidOut.map fun block => (block.id, block.successors))
    edges := laidOut.flatMap fun block => block.successors.map fun target => (block.id, target) }

def successors (graph : FlowGraph) (block : BlockId) : List BlockId :=
  (graph.targets.get? block).getD []

/-- The sources of the edges into a block, one for each edge. -/
def predecessors (graph : FlowGraph) (block : BlockId) : List BlockId :=
  (graph.edges.filter fun edge => edge.2 = block).map Prod.fst

def contains (graph : FlowGraph) (block : BlockId) : Bool := graph.targets.contains block

/-- The laid-out blocks other than the entry that no edge leads to. -/
def orphans (graph : FlowGraph) : List BlockId :=
  graph.blocks.filter fun block =>
    some block ≠ graph.entry && (graph.predecessors block).isEmpty

/-! ## Reachability -/

/-- The blocks of `unvisited` that can be reached from `pending`, in the order in which a
breadth-first search meets them. Every block it meets leaves `unvisited`, so the search
ends whatever cycles there are. -/
def explore (next : BlockId → List BlockId) (unvisited pending : List BlockId) :
    List BlockId :=
  match pending with
  | [] => []
  | block :: pending =>
      if block ∈ unvisited then
        block :: explore next (unvisited.erase block) (pending ++ next block)
      else explore next unvisited pending
termination_by (unvisited.length, pending.length)
decreasing_by
  · rename_i member
    have shorter := List.length_erase_of_mem member
    have positive := List.length_pos_of_mem member
    apply Prod.Lex.left
    omega
  · apply Prod.Lex.right
    simp

/-- Every block that an edge can lead to, and the entry. -/
def nodes (graph : FlowGraph) : List BlockId :=
  (graph.entry.toList ++ graph.targets.values.flatten).eraseDups

/-- The blocks that the entry leads to along edges. -/
def reachable (graph : FlowGraph) : List BlockId :=
  explore graph.successors graph.nodes graph.entry.toList

end FlowGraph

end ScriptLowering.Code
