import Mathlib.Data.List.Nodup
import Mathlib.Data.List.Perm.Subperm
import ScriptLowering.Proofs.Declarations
import ScriptLowering.Proofs.NodeOccurrences
import ScriptLowering.Proofs.Resolution
import ScriptLowering.Proofs.PureBuilding

/-! # Sessions that are ready

Lowering fails because of the program if it comes to a node twice, to a use before the
declaration, to a jump outside of its loop or to a call with the wrong number of arguments. A
session is ready for the nodes ahead if nothing is known of them yet, and all that they refer to is
known.
-/

namespace ScriptLowering.Lowering

open Source (Program ExprId StmtId VarId FuncId)
open Code (Operand)

/-! ## What a session knows -/

def Node.plain : Node → Node
  | .param id => .var id
  | node => node

/-- The session has learnt of the node: it is a loop that has blocks, an expression that has a value
or a variable that has storage. -/
def Session.Knows (session : Session) : Node → Prop
  | .stmt id => ∃ blocks, session.annotations.loopOf id = .ok blocks
  | .expr id => ∃ value, session.annotations.value? id = some value
  | .var id | .param id => ∃ address, session.annotations.storageOf id = .ok address
  | .function _ => False

theorem Session.knows_plain {session : Session} {node : Node} :
    session.Knows node.plain ↔ session.Knows node := by
  cases node <;> rfl

theorem Session.Alike.knows_iff {session next : Session} (alike : session.Alike next)
    {node : Node} : next.Knows node ↔ session.Knows node := by
  cases node <;> simp only [Session.Knows, alike.annotations]

/-- The session has come by the nodes, and has learnt of no others. -/
structure Session.Learns (nodes : List Node) (session next : Session) : Prop where
  kept : ∀ node, session.Knows node → next.Knows node
  only : ∀ node, next.Knows node → session.Knows node ∨ node.plain ∈ nodes.map Node.plain
  gained : ∀ id, Node.var id ∈ nodes.map Node.plain → next.Knows (.var id)
  signatures : ∀ name, (next.cursor.module.function? name).map Code.Function.signature =
    (session.cursor.module.function? name).map Code.Function.signature

namespace Session.Learns

variable {nodes first second : List Node} {session middle next : Session}

theorem of_alike (alike : session.Alike next) : session.Learns [] next where
  kept := fun _ => alike.knows_iff.mpr
  only := fun _ knows => .inl (alike.knows_iff.mp knows)
  gained := fun _ member => by cases member
  signatures := alike.signatures

theorem trans (early : session.Learns first middle) (late : middle.Learns second next) :
    session.Learns (first ++ second) next where
  kept := fun node knows => late.kept node (early.kept node knows)
  only := by
    intro node knows
    rw [List.map_append, List.mem_append]
    rcases late.only node knows with old | new
    · rcases early.only node old with older | between
      · exact .inl older
      · exact .inr (.inl between)
    · exact .inr (.inr new)
  gained := by
    intro id member
    rw [List.map_append, List.mem_append] at member
    rcases member with old | new
    · exact late.kept _ (early.gained id old)
    · exact late.gained id new
  signatures := fun name => (late.signatures name).trans (early.signatures name)

/-- It makes no difference whether there are other nodes, as long as these are not declarations. -/
theorem widen (learns : session.Learns nodes next) {more : List Node}
    (within : ∀ node ∈ nodes, node ∈ more)
    (declared : ∀ id, Node.var id ∈ more.map Node.plain → Node.var id ∈ nodes.map Node.plain) :
    session.Learns more next where
  kept := learns.kept
  only := by
    intro node knows
    refine (learns.only node knows).imp_right fun member => ?_
    rcases List.mem_map.mp member with ⟨other, inNodes, same⟩
    exact List.mem_map.mpr ⟨other, within other inNodes, same⟩
  gained := fun id member => learns.gained id (declared id member)
  signatures := learns.signatures

theorem perm (learns : session.Learns first next) (same : first.Perm second) :
    session.Learns second next :=
  learns.widen (fun _ => same.mem_iff.mp) fun _ => (same.map Node.plain).mem_iff.mpr

theorem none (session : Session) (nothing : ∀ id, Node.var id ∉ nodes.map Node.plain) :
    session.Learns nodes session :=
  (of_alike (.refl session)).widen (fun _ member => by cases member)
    fun id member => absurd member (nothing id)

theorem knows_of_nil (learns : session.Learns [] next) {node : Node} (knows : next.Knows node) :
    session.Knows node := by
  rcases learns.only node knows with old | new
  · exact old
  · cases new

theorem one {node : Node}
    (knows : ∀ other, next.Knows other ↔ session.Knows other ∨ other.plain = node.plain)
    (same : next.cursor = session.cursor) : session.Learns [node] next where
  kept := fun other known => (knows other).mpr (.inl known)
  only := by
    intro other known
    rw [List.map_singleton, List.mem_singleton]
    exact (knows other).mp known
  gained := by
    intro id member
    rw [List.map_singleton, List.mem_singleton] at member
    exact (knows _).mpr (.inr member)
  signatures := fun _ => by rw [same]

end Session.Learns

section Annotating

variable {session : Session} {annotations : Annotations}

theorem learns_setValue {id : ExprId} {value : Operand}
    (sets : session.annotations.setValue id value = .ok annotations) :
    session.Learns [.expr id] { session with annotations := annotations } := by
  have values := Annotations.value?_of_setValue sets
  have others : annotations.storageOf = session.annotations.storageOf ∧
      annotations.loopOf = session.annotations.loopOf := by
    rcases Annotations.setValue_eq_ok.mp sets with ⟨_, rfl⟩
    exact ⟨rfl, rfl⟩
  refine .one (fun node => ?_) rfl
  cases node with
  | expr other =>
      simp only [Session.Knows, values, Node.plain, Node.expr.injEq]
      by_cases same : id = other
      · simp [same]
      · simp [same, Ne.symm same]
  | _ => simp [Session.Knows, Node.plain, others.1, others.2]

theorem learns_setLoop {id : StmtId} {blocks : LoopBlocks}
    (sets : session.annotations.setLoop id blocks = .ok annotations) :
    session.Learns [.stmt id] { session with annotations := annotations } := by
  have loops := Annotations.loopOf_of_setLoop sets
  have others : annotations.storageOf = session.annotations.storageOf ∧
      annotations.value? = session.annotations.value? := by
    rcases Annotations.setLoop_eq_ok.mp sets with ⟨_, rfl⟩
    exact ⟨rfl, rfl⟩
  refine .one (fun node => ?_) rfl
  cases node with
  | stmt other =>
      simp only [Session.Knows, loops, Node.plain, Node.stmt.injEq]
      by_cases same : id = other
      · simp [same]
      · simp [same, Ne.symm same]
  | _ => simp [Session.Knows, Node.plain, others.1, others.2]

theorem learns_setStorage {id : VarId} {address : Operand}
    (sets : session.annotations.setStorage id address = .ok annotations) {node : Node}
    (isVar : node.plain = .var id) :
    session.Learns [node] { session with annotations := annotations } := by
  have storage := Annotations.storageOf_of_setStorage sets
  have others : annotations.loopOf = session.annotations.loopOf ∧
      annotations.value? = session.annotations.value? := by
    rcases Annotations.setStorage_eq_ok.mp sets with ⟨_, rfl⟩
    exact ⟨rfl, rfl⟩
  refine .one (fun node => ?_) rfl
  rw [isVar]
  cases node with
  | var other | param other =>
      simp only [Session.Knows, storage, Node.plain, Node.var.injEq]
      by_cases same : id = other
      · simp [same]
      · simp [same, Ne.symm same]
  | _ => simp [Session.Knows, Node.plain, others.1, others.2]

end Annotating

/-! ## Programs in order -/

/-- Lowering comes to nothing twice, and to the variables of the top level before they are used. -/
structure Arranged (program : Program) : Prop where
  once : ((walkProgram program).map Node.plain).Nodup
  ordered : ∀ before node after id decl, walkProgram program = before ++ node :: after →
    node.uses? program = some id → program.var? id = some decl → decl.scope = .topLevel →
    .var id ∈ before

theorem arranged_iff {program : Program} : Arranged program ↔
    ((walkProgram program).map Node.plain).Nodup ∧ ∀ index < (walkProgram program).length,
      ∀ node ∈ (walkProgram program)[index]?, ∀ id ∈ node.uses? program,
        ∀ decl ∈ program.var? id, decl.scope = .topLevel →
          .var id ∈ (walkProgram program).take index := by
  constructor
  · rintro ⟨once, ordered⟩
    refine ⟨once, fun index small node found id uses decl known topLevel => ?_⟩
    refine ordered _ node ((walkProgram program).drop (index + 1)) id decl ?_ uses known topLevel
    rcases List.getElem?_eq_some_iff.mp found with ⟨_, rfl⟩
    rw [List.getElem_cons_drop, List.take_append_drop]
  · rintro ⟨once, ordered⟩
    refine ⟨once, fun before node after id decl splits uses known topLevel => ?_⟩
    have earlier := ordered before.length (by simp [splits]) node (by simp [splits]) id uses decl
      known topLevel
    simpa [splits] using earlier

instance (program : Program) : Decidable (Arranged program) := decidable_of_iff' _ arranged_iff

/-- The session can go on to the nodes ahead when it has come by the nodes `met`. -/
structure Session.Ready (program : Program) (loops : List StmtId) (locals : List VarId)
    (met nodes : List Node) (session : Session) : Prop where
  follows : met ++ nodes <+: walkProgram program
  unaware : ∀ node ∈ nodes, ¬ session.Knows node
  stored : ∀ id, .var id ∈ met → session.Knows (.var id)
  loops : ∀ id ∈ loops, session.Knows (.stmt id)
  locals : ∀ id ∈ locals, session.Knows (.var id)
  signed : ∀ id decl, program.function? id = some decl → ∃ signature,
    declaredSignature program decl = .ok signature ∧
      (session.cursor.module.function? decl.name).map Code.Function.signature = some signature

/-- The step comes by the nodes, and does not fail because of the program. -/
def Lower.Passes {α : Type} (step : Lower α) (nodes : List Node) (session : Session)
    (post : α → Prop) : Prop :=
  step.Ensures session (fun value next => session.Learns nodes next ∧ post value)
    fun error => ¬ error.IsOrdinary

namespace Session.Ready

variable {program : Program} {loops : List StmtId} {locals : List VarId}
  {met nodes first second : List Node} {session next : Session}

theorem distinct (ready : session.Ready program loops locals met nodes)
    (arranged : Arranged program) : ((met ++ nodes).map Node.plain).Nodup :=
  arranged.once.sublist (ready.follows.sublist.map _)

theorem apart (ready : session.Ready program loops locals met (first ++ second))
    (arranged : Arranged program) {node : Node} (early : node.plain ∈ first.map Node.plain) :
    node ∉ second := by
  intro late
  have distinct := ready.distinct arranged
  rw [List.map_append, List.map_append] at distinct
  exact List.disjoint_of_nodup_append (List.nodup_append.mp distinct).2.1 early
    (List.mem_map_of_mem late)

theorem unaware_outside {node : Node} (ready : session.Ready program loops locals met
      ([node] ++ nodes)) (arranged : Arranged program) {inside : List Node}
    (within : ∀ other ∈ inside, other ∈ nodes) (learns : session.Learns inside next) :
    ¬ next.Knows node := by
  intro knows
  rcases learns.only node knows with old | new
  · exact ready.unaware node List.mem_cons_self old
  · rcases List.mem_map.mp new with ⟨other, member, same⟩
    exact ready.apart arranged (by simp [same]) (within other member)

theorem splits {node : Node} (ready : session.Ready program loops locals met ([node] ++ nodes)) :
    ∃ rest, walkProgram program = met ++ node :: rest := by
  rcases ready.follows with ⟨rest, splits⟩
  exact ⟨nodes ++ rest, by simp [← splits]⟩

theorem left (ready : session.Ready program loops locals met (first ++ second)) :
    session.Ready program loops locals met first where
  follows := by
    refine (List.prefix_append _ second).trans ?_
    rw [List.append_assoc]
    exact ready.follows
  unaware := fun node member => ready.unaware node (List.mem_append_left _ member)
  stored := ready.stored
  loops := ready.loops
  locals := ready.locals
  signed := ready.signed

theorem advance (ready : session.Ready program loops locals met (first ++ second))
    (arranged : Arranged program) (learns : session.Learns first next) :
    next.Ready program loops locals (met ++ first) second where
  follows := by
    rw [List.append_assoc]
    exact ready.follows
  unaware := by
    intro node member knows
    rcases learns.only node knows with old | new
    · exact ready.unaware node (List.mem_append_right _ member) old
    · exact ready.apart arranged new member
  stored := by
    intro id member
    rcases List.mem_append.mp member with old | new
    · exact learns.kept _ (ready.stored id old)
    · exact learns.gained id (List.mem_map.mpr ⟨_, new, rfl⟩)
  loops := fun id member => learns.kept _ (ready.loops id member)
  locals := fun id member => learns.kept _ (ready.locals id member)
  signed := by
    intro id decl found
    rcases ready.signed id decl found with ⟨signature, isSignature, signs⟩
    exact ⟨signature, isSignature, (learns.signatures decl.name).trans signs⟩

theorem stay (ready : session.Ready program loops locals met nodes)
    (arranged : Arranged program) (learns : session.Learns [] next) :
    next.Ready program loops locals met nodes := by
  have whole : session.Ready program loops locals met ([] ++ nodes) := ready
  have goes := whole.advance arranged learns
  rw [List.append_nil] at goes
  exact goes

theorem bind {α β : Type} {step : Lower α} {rest : α → Lower β} {post : α → Prop}
    {final : β → Prop} (ready : session.Ready program loops locals met (first ++ second))
    (arranged : Arranged program) (passes : step.Passes first session post)
    (rests : ∀ value next, next.Ready program loops locals (met ++ first) second →
      session.Learns first next → post value → (rest value).Passes second next final) :
    (step >>= rest).Passes (first ++ second) session final := by
  refine Lower.Ensures.bind passes fun value next holds => ?_
  refine (rests value next (ready.advance arranged holds.1) holds.1 holds.2).mono
    fun _ _ others => ?_
  exact ⟨holds.1.trans others.1, others.2⟩

theorem withLocals (ready : session.Ready program loops locals met nodes) {more : List VarId}
    (known : ∀ id ∈ more, session.Knows (.var id)) :
    session.Ready program loops (more ++ locals) met nodes :=
  { ready with
    locals := fun id member => (List.mem_append.mp member).elim (known id) (ready.locals id) }

theorem inFunction (ready : session.Ready program loops locals met nodes) {params : List VarId}
    (known : ∀ id ∈ params, session.Knows (.var id)) :
    session.Ready program [] params met nodes :=
  { ready with
    loops := fun _ member => by cases member
    locals := known }

end Session.Ready

namespace Lower.Passes

variable {α β : Type} {step : Lower α} {nodes : List Node} {session : Session} {post : α → Prop}

theorem of_silent (silent : Silent step) (session : Session) :
    step.Passes [] session fun _ => True :=
  (silent session).mono fun _ _ alike => ⟨.of_alike alike, trivial⟩

theorem pure {value : α} (holds : post value) :
    (Pure.pure value : Lower α).Passes [] session post :=
  Ensures.pure ⟨.of_alike (.refl session), holds⟩

theorem after {rest : α → Lower β} {final : β → Prop} (passes : step.Passes [] session post)
    (rests : ∀ value next, session.Learns [] next → post value →
      (rest value).Passes nodes next final) : (step >>= rest).Passes nodes session final := by
  refine Ensures.bind passes fun value next holds => ?_
  refine Ensures.mono (rests value next holds.1 holds.2) fun _ _ others => ?_
  exact ⟨holds.1.trans others.1, others.2⟩

theorem build {rest : α → Lower β} {final : β → Prop} (silent : Silent step)
    (rests : ∀ value next, session.Learns [] next → (rest value).Passes nodes next final) :
    (step >>= rest).Passes nodes session final :=
  (of_silent silent session).after fun value next learns _ => rests value next learns

theorem mono (passes : step.Passes nodes session post) {weaker : α → Prop}
    (weakens : ∀ value, post value → weaker value) : step.Passes nodes session weaker :=
  Ensures.mono passes fun value _ holds => ⟨holds.1, weakens value holds.2⟩

theorem andThen {rest : α → Lower β} {final : β → Prop} (passes : step.Passes nodes session post)
    (rests : ∀ value next, session.Learns nodes next → post value →
      (rest value).Passes [] next final) : (step >>= rest).Passes nodes session final := by
  refine Ensures.bind passes fun value next holds => ?_
  refine Ensures.mono (rests value next holds.1 holds.2) fun _ _ others => ⟨?_, others.2⟩
  have learns := holds.1.trans others.1
  rw [List.append_nil] at learns
  exact learns

theorem thenBuild {rest : α → Lower β} (passes : step.Passes nodes session post)
    (silent : ∀ value, Silent (rest value)) : (step >>= rest).Passes nodes session fun _ => True :=
  passes.andThen fun value next _ _ => of_silent (silent value) next

theorem map {convert : α → β} {final : β → Prop}
    (passes : step.Passes nodes session fun value => final (convert value)) :
    (convert <$> step).Passes nodes session final :=
  Ensures.map passes

end Lower.Passes

section Annotating

variable {session : Session} {change : Annotations → Except ProgramFault Annotations} {node : Node}

theorem passes_annotate
    (learns : ∀ annotations, change session.annotations = .ok annotations →
      session.Learns [node] { session with annotations := annotations })
    (changes : ∃ annotations, change session.annotations = .ok annotations) :
    (Lower.annotate change).Passes [node] session fun _ => True := by
  rcases changes with ⟨annotations, changed⟩
  have runs : Lower.annotate change session =
      .ok ((), { session with annotations := annotations }) := by
    simp only [Lower.annotate, changed]
  exact .of_ok runs ⟨learns annotations changed, trivial⟩

theorem passes_setValue {id : ExprId} {value : Operand} (unaware : ¬ session.Knows (.expr id)) :
    (Lower.annotate fun annotations => annotations.setValue id value).Passes [.expr id] session
      fun _ => True := by
  refine passes_annotate (fun _ => learns_setValue) ⟨_, if_neg fun known => unaware ?_⟩
  exact Option.isSome_iff_exists.mp known

theorem setLoop_isOk {id : StmtId} (unaware : ¬ session.Knows (.stmt id)) (blocks : LoopBlocks) :
    ∃ annotations, session.annotations.setLoop id blocks = .ok annotations := by
  refine ⟨_, if_neg fun known => unaware ?_⟩
  rcases Option.isSome_iff_exists.mp known with ⟨others, found⟩
  exact ⟨others, by simp [Annotations.loopOf, found]⟩

theorem passes_setStorage {id : VarId} {address : Operand} (isVar : node.plain = .var id)
    (unaware : ¬ session.Knows node) :
    (Lower.annotate fun annotations => annotations.setStorage id address).Passes [node] session
      fun _ => True := by
  refine passes_annotate (fun _ sets => learns_setStorage sets isVar)
    ⟨_, if_neg fun known => unaware ?_⟩
  rcases Option.isSome_iff_exists.mp known with ⟨other, found⟩
  rw [← Session.knows_plain, isVar]
  exact ⟨other, by simp [Annotations.storageOf, found]⟩

end Annotating

namespace Session.Ready

variable {program : Program} {loops : List StmtId} {locals : List VarId}
  {met nodes : List Node} {session : Session}

theorem build {α β : Type} {step : Lower α} {rest : α → Lower β} {final : β → Prop}
    (ready : session.Ready program loops locals met nodes) (arranged : Arranged program)
    (silent : Silent step)
    (rests : ∀ value next, next.Ready program loops locals met nodes →
      (rest value).Passes nodes next final) :
    (step >>= rest).Passes nodes session final :=
  .after (.of_silent silent session) fun value next learns _ =>
    rests value next (ready.stay arranged learns)

theorem loop {β : Type} {id : StmtId} {blocks : LoopBlocks} {rest : Unit → Lower β}
    {final : β → Prop} (ready : session.Ready program loops locals met nodes)
    (unaware : ¬ session.Knows (.stmt id)) (apart : .stmt id ∉ nodes)
    (rests : ∀ next, next.Ready program (id :: loops) locals met nodes →
      (rest ()).Passes nodes next final) :
    (Lower.annotate (fun annotations => annotations.setLoop id blocks) >>= rest).Passes
      ([.stmt id] ++ nodes) session final := by
  rcases setLoop_isOk unaware blocks with ⟨annotations, sets⟩
  refine Lower.Ensures.annotate_bind (fun fault refused => ?_) fun changed isChanged => ?_
  · rw [sets] at refused
    cases refused
  have learns := learns_setLoop isChanged
  have knows : Session.Knows { session with annotations := changed } (.stmt id) :=
    ⟨blocks, by simp [Annotations.loopOf_of_setLoop isChanged]⟩
  refine Lower.Ensures.mono (rests _ ?_) fun _ _ others => ⟨learns.trans others.1, others.2⟩
  exact {
    follows := ready.follows
    unaware := by
      intro node member known
      rcases learns.only node known with old | new
      · exact ready.unaware node member old
      · cases node <;> cases List.mem_singleton.mp new
        exact apart member
    stored := fun var member => learns.kept _ (ready.stored var member)
    loops := by
      intro other member
      rcases List.mem_cons.mp member with rfl | outer
      · exact knows
      · exact learns.kept _ (ready.loops other outer)
    locals := fun var member => learns.kept _ (ready.locals var member)
    signed := ready.signed }

end Session.Ready

/-! ## Depth -/

/-- Lowering has come down through the nodes `above`. These are different nodes of the pool, and
there is enough depth left for all the others. -/
structure Deep (pool above : List Node) (depth : Nat) (met : List Node) : Prop where
  listed : above.Sublist met
  pooled : ∀ node ∈ above, node ∈ pool
  enough : pool.length < depth + above.length

namespace Deep

variable {pool above met : List Node} {depth : Nat}

theorem later (deep : Deep pool above depth met) (more : List Node) :
    Deep pool above depth (met ++ more) :=
  { deep with listed := deep.listed.trans (List.sublist_append_left _ _) }

theorem down (deep : Deep pool above (depth + 1) met) {node : Node} (member : node ∈ pool) :
    Deep pool (above ++ [node]) depth (met ++ [node]) where
  listed := deep.listed.append (.refl _)
  pooled := by
    intro other isAbove
    rcases List.mem_append.mp isAbove with old | new
    · exact deep.pooled other old
    · rw [List.mem_singleton.mp new]
      exact member
  enough := by
    have enough := deep.enough
    rw [List.length_append, List.length_singleton]
    omega

theorem not_bottom (deep : Deep pool above 0 met) (distinct : met.Nodup) : False := by
  have fits := ((distinct.sublist deep.listed).subperm deep.pooled).length_le
  have enough := deep.enough
  omega

end Deep

end ScriptLowering.Lowering
