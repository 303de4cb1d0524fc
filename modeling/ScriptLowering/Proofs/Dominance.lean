import Mathlib.Algebra.GroupWithZero.Nat
import ScriptLowering.Code.Dominance
import ScriptLowering.Proofs.Reachability

/-! # The computation of dominators

The rounds of the computation only ever make sets smaller, so they settle before they run
out. What they settle on satisfies the equations, and it contains every family of sets that
is closed under the equations.
-/

namespace ScriptLowering.Code.FlowGraph

/-! ## The equations -/

theorem mem_foldl_common (sets : Table BlockId (List BlockId)) (rest common : List BlockId)
    (block : BlockId) :
    block ∈ rest.foldl (fun common source =>
        match sets.get? source with
        | some set => common.filter fun block => block ∈ set
        | none => common) common ↔
      block ∈ common ∧ ∀ source ∈ rest, ∀ set, sets.get? source = some set → block ∈ set := by
  induction rest generalizing common with
  | nil => simp
  | cons source rest induction =>
      rw [List.foldl_cons, induction]
      cases found : sets.get? source with
      | none => simp [found]
      | some set => simp [found, and_assoc]

theorem mem_commonDominators {sets : Table BlockId (List BlockId)} {first : BlockId}
    {rest : List BlockId} {block : BlockId} :
    block ∈ commonDominators sets (first :: rest) ↔
      (∃ set, sets.get? first = some set ∧ block ∈ set) ∧
        ∀ source ∈ rest, ∀ set, sets.get? source = some set → block ∈ set := by
  refine (mem_foldl_common sets rest _ block).trans ?_
  cases sets.get? first with
  | none => simp
  | some set => simp

/-- The sets of `first` are contained in those of `second`, for the same blocks. -/
structure Below (first second : Table BlockId (List BlockId)) : Prop where
  sameKeys : ∀ block, first.get? block = none ↔ second.get? block = none
  subset : ∀ block small large, first.get? block = some small →
    second.get? block = some large → small ⊆ large

namespace Below

variable {first second third : Table BlockId (List BlockId)}

theorem refl (sets : Table BlockId (List BlockId)) : Below sets sets where
  sameKeys _ := Iff.rfl
  subset block small large foundSmall foundLarge := by
    rw [foundSmall] at foundLarge
    cases foundLarge
    exact List.Subset.refl _

theorem find (below : Below first second) {block : BlockId} {large : List BlockId}
    (found : second.get? block = some large) :
    ∃ small, first.get? block = some small ∧ small ⊆ large := by
  cases foundSmall : first.get? block with
  | none =>
      have missing := (below.sameKeys block).mp foundSmall
      rw [missing] at found
      cases found
  | some small => exact ⟨small, rfl, below.subset block small large foundSmall found⟩

theorem trans (lower : Below first second) (upper : Below second third) :
    Below first third where
  sameKeys block := (lower.sameKeys block).trans (upper.sameKeys block)
  subset block small large foundSmall foundLarge := by
    obtain ⟨middle, foundMiddle, contained⟩ := upper.find foundLarge
    exact List.Subset.trans (lower.subset block small middle foundSmall foundMiddle) contained

theorem common (below : Below first second) {sources : List BlockId} {block : BlockId}
    (member : block ∈ commonDominators first sources) :
    block ∈ commonDominators second sources := by
  cases sources with
  | nil => simp [commonDominators] at member
  | cons source rest =>
      rw [mem_commonDominators] at member ⊢
      obtain ⟨⟨small, foundSmall, inSmall⟩, others⟩ := member
      constructor
      · cases foundLarge : second.get? source with
        | none =>
            have missing := (below.sameKeys source).mpr foundLarge
            rw [missing] at foundSmall
            cases foundSmall
        | some large => exact ⟨large, rfl, below.subset _ _ _ foundSmall foundLarge inSmall⟩
      · intro other waits large foundLarge
        obtain ⟨set, found, contained⟩ := below.find foundLarge
        exact contained (others other waits set found)

end Below

theorem mem_dominatorEquation {graph : FlowGraph} {reachable : List BlockId}
    {sets : Table BlockId (List BlockId)} {block candidate : BlockId} :
    candidate ∈ graph.dominatorEquation reachable sets block ↔
      candidate ∈ reachable ∧ (candidate = block ∨
        candidate ∈ commonDominators sets
          ((graph.predecessors block).filter fun source => source ∈ reachable)) := by
  simp [dominatorEquation]

theorem dominatorEquation_mono {graph : FlowGraph} {reachable : List BlockId}
    {first second : Table BlockId (List BlockId)} (below : Below first second)
    (block : BlockId) :
    graph.dominatorEquation reachable first block ⊆
      graph.dominatorEquation reachable second block := by
  intro candidate member
  rw [mem_dominatorEquation] at member ⊢
  exact ⟨member.1, member.2.imp id below.common⟩

theorem filter_dominatorEquation (graph : FlowGraph) (reachable : List BlockId)
    (sets : Table BlockId (List BlockId)) (block : BlockId) :
    reachable.filter (fun candidate =>
        candidate ∈ graph.dominatorEquation reachable sets block) =
      graph.dominatorEquation reachable sets block := by
  conv_rhs => rw [dominatorEquation]
  apply List.filter_congr
  intro candidate member
  simp [dominatorEquation, member]

/-! ## The size of all sets together -/

def weight (sets : Table BlockId (List BlockId)) : Nat :=
  (sets.values.map List.length).sum

theorem sum_insertEntry {key : BlockId} {old new : List BlockId}
    {entries : List (BlockId × List BlockId)}
    (found : Table.lookupEntry key entries = some old) :
    (((Table.insertEntry key new entries).map Prod.snd).map List.length).sum + old.length =
      ((entries.map Prod.snd).map List.length).sum + new.length := by
  induction entries with
  | nil => simp [Table.lookupEntry] at found
  | cons head rest induction =>
      rcases head with ⟨other, value⟩
      by_cases equal : other = key
      · simp only [Table.lookupEntry, if_pos equal, Option.some.injEq] at found
        subst found
        simp only [Table.insertEntry, if_pos equal, List.map_cons, List.sum_cons]
        omega
      · simp only [Table.lookupEntry, if_neg equal] at found
        have later := induction found
        simp only [Table.insertEntry, if_neg equal, List.map_cons, List.sum_cons]
        omega

theorem weight_insert {sets : Table BlockId (List BlockId)} {block : BlockId}
    {old : List BlockId} (new : List BlockId) (found : sets.get? block = some old) :
    weight (sets.insert block new) + old.length = weight sets + new.length :=
  sum_insertEntry found

theorem weight_insert_le (sets : Table BlockId (List BlockId)) (block : BlockId)
    (new : List BlockId) : weight (sets.insert block new) ≤ weight sets + new.length := by
  cases found : sets.get? block with
  | some old =>
      have exact := weight_insert new found
      omega
  | none =>
      have absent : block ∉ sets.entries.map Prod.fst := Table.get?_eq_none_iff.mp found
      have appended : (sets.insert block new).entries = sets.entries ++ [(block, new)] := by
        change Table.insertEntry block new sets.entries = _
        clear found
        generalize sets.entries = entries at absent
        induction entries with
        | nil => rfl
        | cons head rest induction =>
            rcases head with ⟨other, value⟩
            have different : other ≠ block := fun same => absent (by simp [same])
            have restAbsent : block ∉ rest.map Prod.fst := fun member =>
              absent (by simp [member])
            simp [Table.insertEntry, different, induction restAbsent]
      simp [weight, Table.values, appended]

/-! ## Rounds -/

section Rounds

variable (graph : FlowGraph) (reachable : List BlockId) (entry : BlockId)

/-- Sets from which the equations can only remove blocks. Each keeps the order of
`reachable`, so that two of them are the same list once they have the same length and one
contains the other. -/
structure Descending (order : List BlockId) (sets : Table BlockId (List BlockId)) :
    Prop where
  start : sets.get? entry = some [entry]
  known : ∀ block ∈ order, ∃ set, sets.get? block = some set
  filtered : ∀ block set, sets.get? block = some set → block ≠ entry →
    reachable.filter (fun candidate => candidate ∈ set) = set
  above : ∀ block set, sets.get? block = some set → block ≠ entry →
    graph.dominatorEquation reachable sets block ⊆ set

def applyEquation (sets : Table BlockId (List BlockId)) (block : BlockId) :
    Table BlockId (List BlockId) :=
  if block = entry then sets
  else sets.insert block (graph.dominatorEquation reachable sets block)

variable {graph reachable entry} {order : List BlockId}
  {sets : Table BlockId (List BlockId)}

theorem below_insert {block : BlockId} {old new : List BlockId}
    (found : sets.get? block = some old) (contained : new ⊆ old) :
    Below (sets.insert block new) sets where
  sameKeys other := by
    rw [Table.get?_insert]
    by_cases equal : block = other
    · subst equal
      simp [found]
    · simp [equal]
  subset other small large foundSmall foundLarge := by
    rw [Table.get?_insert] at foundSmall
    by_cases equal : block = other
    · subst equal
      rw [found] at foundLarge
      simp only [if_true, Option.some.injEq] at foundSmall foundLarge
      subst foundSmall foundLarge
      exact contained
    · simp only [if_neg equal] at foundSmall
      rw [foundSmall] at foundLarge
      cases foundLarge
      exact List.Subset.refl _

theorem eq_of_length_le {reachable old new : List BlockId}
    (oldFiltered : reachable.filter (fun candidate => candidate ∈ old) = old)
    (newFiltered : reachable.filter (fun candidate => candidate ∈ new) = new)
    (contained : new ⊆ old) : new.length ≤ old.length ∧
      (new.length = old.length → new = old) := by
  have inner : old.filter (fun candidate => candidate ∈ new) = new := by
    conv_lhs => rw [← oldFiltered]
    conv_rhs => rw [← newFiltered]
    rw [List.filter_filter]
    apply List.filter_congr
    intro candidate _
    by_cases member : candidate ∈ new
    · simp [member, contained member]
    · simp [member]
  constructor
  · rw [← inner]
    exact List.length_filter_le _ _
  · intro sameLength
    rw [← inner] at sameLength
    have all := List.length_filter_eq_length_iff.mp sameLength
    rw [← inner]
    exact List.filter_eq_self.mpr all

theorem Descending.applyEquation (descending : Descending graph reachable entry order sets)
    {block : BlockId} (member : block ∈ order) :
    Descending graph reachable entry order (applyEquation graph reachable entry sets block) ∧
      Below (FlowGraph.applyEquation graph reachable entry sets block) sets ∧
      weight (FlowGraph.applyEquation graph reachable entry sets block) ≤ weight sets ∧
      (weight (FlowGraph.applyEquation graph reachable entry sets block) = weight sets →
        FlowGraph.applyEquation graph reachable entry sets block = sets ∧
          (block ≠ entry →
            sets.get? block = some (graph.dominatorEquation reachable sets block))) := by
  unfold FlowGraph.applyEquation
  by_cases isEntry : block = entry
  · simp only [if_pos isEntry]
    exact ⟨descending, Below.refl sets, Nat.le_refl _,
      fun _ => ⟨trivial, fun different => absurd isEntry different⟩⟩
  · simp only [if_neg isEntry]
    obtain ⟨old, found⟩ := descending.known block member
    have contained := descending.above block old found isEntry
    have below := below_insert found contained
    have newFiltered := filter_dominatorEquation graph reachable sets block
    have sizes := eq_of_length_le (descending.filtered block old found isEntry) newFiltered
      contained
    have balance := weight_insert (graph.dominatorEquation reachable sets block) found
    refine ⟨?_, below, by omega, ?_⟩
    · constructor
      · rw [Table.get?_insert_other _ _ isEntry]
        exact descending.start
      · intro other otherMember
        obtain ⟨set, known⟩ := descending.known other otherMember
        obtain ⟨small, foundSmall, _⟩ := below.find known
        exact ⟨small, foundSmall⟩
      · intro other set foundSet different
        rw [Table.get?_insert] at foundSet
        by_cases equal : block = other
        · simp only [if_pos equal, Option.some.injEq] at foundSet
          subst foundSet
          exact newFiltered
        · simp only [if_neg equal] at foundSet
          exact descending.filtered other set foundSet different
      · intro other set foundSet different candidate holds
        have before := dominatorEquation_mono below other holds
        rw [Table.get?_insert] at foundSet
        by_cases equal : block = other
        · simp only [if_pos equal, Option.some.injEq] at foundSet
          subst foundSet equal
          exact before
        · simp only [if_neg equal] at foundSet
          exact descending.above other set foundSet different before
    · intro sameWeight
      have same := sizes.2 (by omega)
      rw [same]
      exact ⟨Table.insert_eq_self found, fun _ => found⟩

theorem dominatorRound_eq_foldl (blocks : List BlockId) :
    graph.dominatorRound reachable entry blocks sets =
      blocks.foldl (applyEquation graph reachable entry) sets := rfl

theorem Descending.round (descending : Descending graph reachable entry order sets)
    {blocks : List BlockId} (members : blocks ⊆ order) :
    Descending graph reachable entry order
        (graph.dominatorRound reachable entry blocks sets) ∧
      Below (graph.dominatorRound reachable entry blocks sets) sets ∧
      weight (graph.dominatorRound reachable entry blocks sets) ≤ weight sets ∧
      (weight (graph.dominatorRound reachable entry blocks sets) = weight sets →
        graph.dominatorRound reachable entry blocks sets = sets ∧
        ∀ block ∈ blocks, block ≠ entry →
          sets.get? block = some (graph.dominatorEquation reachable sets block)) := by
  simp only [dominatorRound_eq_foldl]
  induction blocks generalizing sets with
  | nil => exact ⟨descending, Below.refl sets, Nat.le_refl _, fun _ => ⟨rfl, by simp⟩⟩
  | cons block rest induction =>
      have member : block ∈ order := members (by simp)
      obtain ⟨nextDescending, nextBelow, nextWeight, nextSame⟩ :=
        descending.applyEquation member
      obtain ⟨lastDescending, lastBelow, lastWeight, lastSame⟩ :=
        induction nextDescending fun other later => members (by simp [later])
      simp only [List.foldl_cons]
      refine ⟨lastDescending, lastBelow.trans nextBelow, by omega, ?_⟩
      intro sameWeight
      obtain ⟨sameNext, holdsHere⟩ := nextSame (by omega)
      obtain ⟨sameLast, holdsLater⟩ := lastSame (by omega)
      rw [sameNext] at sameLast holdsLater
      rw [sameNext]
      refine ⟨sameLast, ?_⟩
      intro other otherMember different
      rcases List.mem_cons.mp otherMember with same | later
      · subst same
        exact holdsHere different
      · exact holdsLater other later different

theorem Descending.weight_pos (descending : Descending graph reachable entry order sets) :
    0 < weight sets := by
  have start : sets.get? entry = some [entry] := descending.start
  have balance := weight_insert [] start
  simp only [List.length_singleton, List.length_nil] at balance
  omega

/-- Rounds settle before they run out. -/
theorem Descending.settle {limit : Nat}
    (descending : Descending graph reachable entry order sets) (enough : weight sets ≤ limit) :
    Descending graph reachable entry order
        (FlowGraph.settle (graph.dominatorRound reachable entry order) limit sets) ∧
      Below (FlowGraph.settle (graph.dominatorRound reachable entry order) limit sets) sets ∧
      ∀ block ∈ order, block ≠ entry →
        (FlowGraph.settle (graph.dominatorRound reachable entry order) limit sets).get?
            block =
          some (graph.dominatorEquation reachable
            (FlowGraph.settle (graph.dominatorRound reachable entry order) limit sets)
            block) := by
  induction limit generalizing sets with
  | zero => exact absurd descending.weight_pos (by omega)
  | succ limit induction =>
      obtain ⟨nextDescending, nextBelow, nextWeight, nextSame⟩ :=
        descending.round (List.Subset.refl order)
      unfold FlowGraph.settle
      by_cases same : graph.dominatorRound reachable entry order sets = sets
      · simp only [if_pos same]
        have sameWeight := congrArg weight same
        exact ⟨descending, Below.refl sets, (nextSame sameWeight).2⟩
      · simp only [if_neg same]
        have lighter : weight (graph.dominatorRound reachable entry order sets) ≤ limit := by
          have changed : weight (graph.dominatorRound reachable entry order sets) ≠
              weight sets := fun equal => same (nextSame equal).1
          omega
        obtain ⟨lastDescending, lastBelow, holds⟩ := induction nextDescending lighter
        exact ⟨lastDescending, lastBelow.trans nextBelow, holds⟩

end Rounds

/-! ## The largest sets -/

/-- The sets that the computation starts from. -/
def largestSets (reachable : List BlockId) (entry : BlockId) (order : List BlockId) :
    Table BlockId (List BlockId) :=
  order.foldl (fun sets block => if block = entry then sets else sets.insert block reachable)
    (Table.empty.insert entry [entry])

theorem get?_largest (reachable : List BlockId) (entry : BlockId) (order : List BlockId)
    (sets : Table BlockId (List BlockId)) (block : BlockId) :
    (order.foldl (fun sets block =>
        if block = entry then sets else sets.insert block reachable) sets).get? block =
      if block ≠ entry ∧ block ∈ order then some reachable else sets.get? block := by
  induction order generalizing sets with
  | nil => simp
  | cons head rest induction =>
      rw [List.foldl_cons, induction]
      by_cases later : block ≠ entry ∧ block ∈ rest
      · rw [if_pos later, if_pos ⟨later.1, List.mem_cons_of_mem _ later.2⟩]
      · rw [if_neg later]
        by_cases isEntry : head = entry
        · have notHead : ¬(block ≠ entry ∧ block ∈ head :: rest) := by
            intro both
            rcases List.mem_cons.mp both.2 with same | member
            · exact both.1 (same.trans isEntry)
            · exact later ⟨both.1, member⟩
          rw [if_pos isEntry, if_neg notHead]
        · rw [if_neg isEntry, Table.get?_insert]
          by_cases equal : head = block
          · subst equal
            simp [isEntry]
          · have notHead : ¬(block ≠ entry ∧ block ∈ head :: rest) := by
              intro both
              rcases List.mem_cons.mp both.2 with same | member
              · exact equal same.symm
              · exact later ⟨both.1, member⟩
            rw [if_neg equal, if_neg notHead]

theorem weight_largest_le (reachable : List BlockId) (entry : BlockId)
    (order : List BlockId) (sets : Table BlockId (List BlockId)) :
    weight (order.foldl (fun sets block =>
        if block = entry then sets else sets.insert block reachable) sets) ≤
      weight sets + (order.filter (· ≠ entry)).length * reachable.length := by
  induction order generalizing sets with
  | nil => simp
  | cons head rest induction =>
      rw [List.foldl_cons]
      by_cases isEntry : head = entry
      · simpa [isEntry] using induction sets
      · have later := induction (sets.insert head reachable)
        have here := weight_insert_le sets head reachable
        simp only [isEntry, if_false, ne_eq, not_false_eq_true, decide_true,
          List.filter_cons_of_pos, List.length_cons, Nat.add_mul, Nat.one_mul] at later ⊢
        omega

theorem get?_largestSets (reachable : List BlockId) (entry : BlockId)
    (order : List BlockId) (block : BlockId) :
    (largestSets reachable entry order).get? block =
      if block ≠ entry ∧ block ∈ order then some reachable
      else if block = entry then some [entry] else none := by
  rw [largestSets, get?_largest, Table.get?_insert]
  simp [eq_comm]

theorem eq_reachable_of_largestSets {reachable order set : List BlockId}
    {entry block : BlockId} (found : (largestSets reachable entry order).get? block = some set)
    (different : block ≠ entry) : set = reachable := by
  rw [get?_largestSets] at found
  split at found
  · cases found
    rfl
  · simp at found

theorem descending_largest {graph : FlowGraph} {reachable order : List BlockId}
    {entry : BlockId} :
    Descending graph reachable entry order (largestSets reachable entry order) := by
  constructor
  · simp [get?_largestSets]
  · intro block member
    by_cases isEntry : block = entry
    · exact ⟨[entry], by simp [get?_largestSets, isEntry]⟩
    · exact ⟨reachable, by simp [get?_largestSets, isEntry, member]⟩
  · intro block set found different
    rw [eq_reachable_of_largestSets found different]
    exact List.filter_eq_self.mpr (by simp)
  · intro block set found different candidate holds
    rw [eq_reachable_of_largestSets found different]
    exact (mem_dominatorEquation.mp holds).1

theorem weight_largestSets_le (reachable order : List BlockId) (entry : BlockId) :
    weight (largestSets reachable entry order) ≤ order.length * reachable.length + 1 := by
  have bound := weight_largest_le reachable entry order (Table.empty.insert entry [entry])
  have single : weight (Table.empty.insert entry [entry]) = 1 := by
    simp [weight, Table.values, Table.insert, Table.insertEntry, Table.empty]
  have product : (order.filter (· ≠ entry)).length * reachable.length ≤
      order.length * reachable.length := Nat.mul_le_mul_right _ (List.length_filter_le _ _)
  unfold largestSets
  omega

/-! ## The result -/

section Result

variable {graph : FlowGraph} {entry : BlockId}

def reachableOrder (graph : FlowGraph) : List BlockId :=
  graph.blocks.filter fun block => block ∈ graph.reachable

theorem mem_reachableOrder {block : BlockId} :
    block ∈ graph.reachableOrder ↔ block ∈ graph.blocks ∧ block ∈ graph.reachable := by
  simp [reachableOrder]

theorem dominators_sets (starts : graph.entry = some entry) :
    graph.dominators.sets =
      settle (graph.dominatorRound graph.reachable entry graph.reachableOrder)
        (graph.reachableOrder.length * graph.reachable.length + 1)
        (largestSets graph.reachable entry graph.reachableOrder) := by
  simp only [dominators, starts, reachableOrder, largestSets]

theorem dominators_settled (starts : graph.entry = some entry) :
    Descending graph graph.reachable entry graph.reachableOrder graph.dominators.sets ∧
      Below graph.dominators.sets
        (largestSets graph.reachable entry graph.reachableOrder) ∧
      ∀ block ∈ graph.reachableOrder, block ≠ entry →
        graph.dominators.sets.get? block = some
          (graph.dominatorEquation graph.reachable graph.dominators.sets block) := by
  rw [dominators_sets starts]
  exact descending_largest.settle (weight_largestSets_le _ _ _)

theorem dominates_iff {first second : BlockId} :
    graph.dominators.dominates first second = true ↔
      ∃ set, graph.dominators.sets.get? second = some set ∧ first ∈ set := by
  unfold Dominators.dominates
  cases graph.dominators.sets.get? second with
  | none => simp
  | some set => simp

theorem dominates_entry (starts : graph.entry = some entry) {first : BlockId} :
    graph.dominators.dominates first entry = true ↔ first = entry := by
  have start := (dominators_settled starts).1.start
  rw [dominates_iff]
  simp [start]

/-- Whatever dominates a block dominates every reachable predecessor, or is the block. -/
theorem dominates_of_edge (starts : graph.entry = some entry)
    (closed : ∀ block ∈ graph.reachable, block ∈ graph.blocks) {first source target : BlockId}
    (edge : source ∈ graph.predecessors target) (reached : source ∈ graph.reachable)
    (targetReached : target ∈ graph.reachable)
    (dominates : graph.dominators.dominates first target = true) :
    first = target ∨ graph.dominators.dominates first source = true := by
  by_cases isEntry : target = entry
  · subst isEntry
    exact .inl ((dominates_entry starts).mp dominates)
  · obtain ⟨descending, _, holds⟩ := dominators_settled starts
    obtain ⟨set, found, member⟩ := dominates_iff.mp dominates
    have ordered : target ∈ graph.reachableOrder :=
      mem_reachableOrder.mpr ⟨closed target targetReached, targetReached⟩
    rw [holds target ordered isEntry] at found
    cases found
    rcases (mem_dominatorEquation.mp member).2 with same | common
    · exact .inl same
    · right
      have listed : source ∈ (graph.predecessors target).filter
          fun source => source ∈ graph.reachable := by
        simp [edge, reached]
      generalize (graph.predecessors target).filter
        (fun source => decide (source ∈ graph.reachable)) = sources at listed common
      cases sources with
      | nil => simp at listed
      | cons head rest =>
          obtain ⟨⟨headSet, headFound, inHead⟩, others⟩ := mem_commonDominators.mp common
          rcases List.mem_cons.mp listed with same | later
          · subst same
            exact dominates_iff.mpr ⟨headSet, headFound, inHead⟩
          · obtain ⟨sourceSet, sourceFound⟩ := descending.known source
              (mem_reachableOrder.mpr ⟨closed source reached, reached⟩)
            exact dominates_iff.mpr
              ⟨sourceSet, sourceFound, others source later sourceSet sourceFound⟩

/-! ## Nothing too small

A family of claims "`first` stands on every way to `second`" that is closed under the
equations holds of the computed sets. -/

/-- What a family of claims has to satisfy: the entry is dominated by itself alone, and
what dominates another block dominates all its reachable predecessors. -/
structure ClosedClaim (graph : FlowGraph) (entry : BlockId)
    (claim : BlockId → BlockId → Prop) : Prop where
  atEntry : ∀ first, claim first entry → first = entry
  reached : ∀ first second, claim first second → first ∈ graph.reachable
  step : ∀ first second, second ≠ entry → second ∈ graph.reachable → claim first second →
    first = second ∨ ∀ source ∈ graph.predecessors second, source ∈ graph.reachable →
      claim first source

def Covers (claim : BlockId → BlockId → Prop) (sets : Table BlockId (List BlockId)) : Prop :=
  ∀ second set, sets.get? second = some set → ∀ first, claim first second → first ∈ set

variable {claim : BlockId → BlockId → Prop}

theorem Covers.applyEquation {sets : Table BlockId (List BlockId)} (covers : Covers claim sets)
    (closedClaim : ClosedClaim graph entry claim)
    (entered : ∀ block ∈ graph.reachable, block ≠ entry →
      ∃ source ∈ graph.predecessors block, source ∈ graph.reachable)
    (known : ∀ block ∈ graph.reachable, ∃ set, sets.get? block = some set)
    {block : BlockId} (reached : block ∈ graph.reachable) :
    Covers claim (FlowGraph.applyEquation graph graph.reachable entry sets block) := by
  unfold FlowGraph.applyEquation
  by_cases isEntry : block = entry
  · rw [if_pos isEntry]
    exact covers
  · rw [if_neg isEntry]
    intro second set found first claimed
    rw [Table.get?_insert] at found
    by_cases equal : block = second
    · subst equal
      simp only [if_true, Option.some.injEq] at found
      subst found
      refine mem_dominatorEquation.mpr ⟨closedClaim.reached first block claimed, ?_⟩
      refine (closedClaim.step first block isEntry reached claimed).imp id fun everywhere => ?_
      have everySource : ∀ source ∈ (graph.predecessors block).filter
          (fun source => source ∈ graph.reachable), ∃ set,
            sets.get? source = some set ∧ first ∈ set := by
        intro source listed
        obtain ⟨edge, sourceReached⟩ : source ∈ graph.predecessors block ∧
            source ∈ graph.reachable := by simpa using listed
        obtain ⟨set, found⟩ := known source sourceReached
        exact ⟨set, found, covers source set found first (everywhere source edge sourceReached)⟩
      obtain ⟨some, someEdge, someReached⟩ := entered block reached isEntry
      have listed : some ∈ (graph.predecessors block).filter
          (fun source => source ∈ graph.reachable) := by simp [someEdge, someReached]
      generalize (graph.predecessors block).filter
        (fun source => decide (source ∈ graph.reachable)) = sources at listed everySource ⊢
      cases sources with
      | nil => simp at listed
      | cons head rest =>
          refine mem_commonDominators.mpr ⟨everySource head (by simp), ?_⟩
          intro source later set foundSet
          obtain ⟨other, foundOther, member⟩ := everySource source (by simp [later])
          rw [foundSet] at foundOther
          cases foundOther
          exact member
    · simp only [if_neg equal] at found
      exact covers second set found first claimed

theorem Covers.round {order : List BlockId} {sets : Table BlockId (List BlockId)}
    (covers : Covers claim sets) (closedClaim : ClosedClaim graph entry claim)
    (entered : ∀ block ∈ graph.reachable, block ≠ entry →
      ∃ source ∈ graph.predecessors block, source ∈ graph.reachable)
    (descending : Descending graph graph.reachable entry order sets)
    (complete : ∀ block, block ∈ order ↔ block ∈ graph.reachable)
    {blocks : List BlockId} (members : blocks ⊆ order) :
    Covers claim (graph.dominatorRound graph.reachable entry blocks sets) := by
  rw [dominatorRound_eq_foldl]
  induction blocks generalizing sets with
  | nil => exact covers
  | cons block rest induction =>
      have member : block ∈ order := members (by simp)
      have known : ∀ block ∈ graph.reachable, ∃ set, sets.get? block = some set :=
        fun block reached => descending.known block ((complete block).mpr reached)
      exact induction
        (covers.applyEquation closedClaim entered known ((complete block).mp member))
        (descending.applyEquation member).1 fun other later => members (by simp [later])

theorem Covers.settle {order : List BlockId} {sets : Table BlockId (List BlockId)}
    (covers : Covers claim sets) (closedClaim : ClosedClaim graph entry claim)
    (entered : ∀ block ∈ graph.reachable, block ≠ entry →
      ∃ source ∈ graph.predecessors block, source ∈ graph.reachable)
    (descending : Descending graph graph.reachable entry order sets)
    (complete : ∀ block, block ∈ order ↔ block ∈ graph.reachable) (limit : Nat) :
    Covers claim
      (FlowGraph.settle (graph.dominatorRound graph.reachable entry order) limit sets) := by
  induction limit generalizing sets with
  | zero => exact covers
  | succ limit induction =>
      unfold FlowGraph.settle
      by_cases same : graph.dominatorRound graph.reachable entry order sets = sets
      · simp only [if_pos same]
        exact covers
      · simp only [if_neg same]
        exact induction
          (covers.round closedClaim entered descending complete (List.Subset.refl order))
          (descending.round (List.Subset.refl order)).1

/-- What is claimed consistently is computed. -/
theorem dominates_of_claim (starts : graph.entry = some entry)
    (closed : ∀ block ∈ graph.reachable, block ∈ graph.blocks)
    (entered : ∀ block ∈ graph.reachable, block ≠ entry →
      ∃ source ∈ graph.predecessors block, source ∈ graph.reachable)
    (closedClaim : ClosedClaim graph entry claim) {first second : BlockId}
    (reached : second ∈ graph.reachable) (claimed : claim first second) :
    graph.dominators.dominates first second = true := by
  have complete : ∀ block, block ∈ graph.reachableOrder ↔ block ∈ graph.reachable := by
    intro block
    rw [mem_reachableOrder]
    exact ⟨And.right, fun reached => ⟨closed block reached, reached⟩⟩
  have covers : Covers claim
      (largestSets graph.reachable entry graph.reachableOrder) := by
    intro second set found first claimed
    by_cases isEntry : second = entry
    · subst isEntry
      rw [get?_largestSets] at found
      simp only [ne_eq, not_true_eq_false, false_and, if_false, if_true,
        Option.some.injEq] at found
      subst found
      simp [closedClaim.atEntry first claimed]
    · rw [eq_reachable_of_largestSets found isEntry]
      exact closedClaim.reached first second claimed
  have settled := dominators_settled starts
  obtain ⟨set, found⟩ := settled.1.known second ((complete second).mpr reached)
  have contains := covers.settle closedClaim entered descending_largest complete
    (graph.reachableOrder.length * graph.reachable.length + 1)
  rw [← dominators_sets starts] at contains
  exact dominates_iff.mpr ⟨set, found, contains second set found first claimed⟩

end Result

end ScriptLowering.Code.FlowGraph
