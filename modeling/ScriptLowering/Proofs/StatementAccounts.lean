import ScriptLowering.Proofs.SessionLedger

/-! # Accounts of statements

Lowering a statement changes the ledger in one way, whatever it finds there: control gets behind the
statement if it got to the statement and the statement can end, and control is sent to the blocks of
the loops that the statement may leave or continue.
-/

namespace ScriptLowering.Lowering

open Source (Program ExprId ForInit FuncId FunctionDecl Stmt StmtId VarId)
open Code (BlockId Body Ledger Operand Place Terminator)

/-! ## Parts -/

/-- Wherever the step is taken, it is left by the exits `ends`, as far as the ledger tells. It may
touch the functions in `touches`, and `done` is known when it has succeeded. There is room for
`room` more blocks before, and for `left` behind. -/
def Accounts (program : Program) (errors : Error → Prop) (touches : String → Prop)
    (targets : List StmtId) (ends : Exit → Prop) (done : Prop) (room left : Nat)
    (step : Lower Unit) : Prop :=
  ∀ (busy : String → Prop) (name : String) (session : Session) (base : Place) (ledger : Ledger)
    (loops : StmtId → LoopBlocks), (∀ other, busy other → touches other → Endless program other) →
    Session.Reckons program busy touches name session base ledger room session →
    session.Builds name base → session.HasLoops ledger targets loops →
    step.Ensures session (fun _ next => done ∧
      Session.Reckons program busy touches name session base (ledger.after loops ends) left next)
      errors

section Parts

variable {program : Program} {errors : Error → Prop} {busy touched : String → Prop} {name : String}
  {first session : Session} {base : Place} {ledger : Ledger} {count : Nat}
  {targets : List StmtId} {loops : StmtId → LoopBlocks}

theorem Session.HasLoops.nil (loops : StmtId → LoopBlocks) : session.HasLoops ledger [] loops :=
  fun _ member => by cases member

theorem Session.HasLoops.later {next : Session} {later : Ledger}
    (finds : session.HasLoops ledger targets loops)
    (learnt : ∀ target blocks, session.annotations.loopOf target = .ok blocks →
      next.annotations.loopOf target = .ok blocks)
    (known : ∀ id, ledger.known id → later.known id) : next.HasLoops later targets loops := by
  intro target member
  rcases finds target member with ⟨found, exit, continues⟩
  exact ⟨learnt _ _ found, known _ exit, known _ continues⟩

theorem Session.HasLoops.not_jumps (finds : session.HasLoops ledger targets loops)
    {ends : Exit → Prop} (named : ∀ exit target, ends exit → exit.target? = some target →
      target ∈ targets) {block : BlockId} (fresh : ¬ ledger.known block) :
    ¬ Jumps loops ends block := by
  rintro ⟨exit, leaves, goes⟩
  cases exit with
  | normal => cases goes
  | broke target =>
      cases goes
      exact fresh (finds target (named _ target leaves rfl)).2.1
  | continued target =>
      cases goes
      exact fresh (finds target (named _ target leaves rfl)).2.2

theorem Session.Reckons.thenPart {touches : String → Prop} {ends : Exit → Prop} {done : Prop}
    {room left : Nat} {step : Lower Unit} {β : Type} {rest : Unit → Lower β}
    {post : β → Session → Prop}
    (reckons : Reckons program busy touched name first base ledger count session)
    (accounts : Accounts program errors touches targets ends done room left step)
    (enough : room ≤ count) (own : ∀ other, busy other → touched other → Endless program other)
    (covers : ∀ other, touches other → touched other)
    (finds : session.HasLoops ledger targets loops)
    (continues : ∀ next, done →
      Reckons program busy touched name first base (ledger.after loops ends) left next →
      (rest ()).Ensures next post errors) : (step >>= rest).Ensures session post errors := by
  rcases reckons.place with ⟨place, builds, _⟩
  have starts := (reckons.mono enough).restart touches builds
  refine (accounts busy name session place ledger loops
    (fun other isBusy isTouched => own other isBusy (covers other isTouched)) starts builds
    finds).bind ?_
  rintro _ next ⟨isDone, late⟩
  exact continues next isDone (reckons.trans builds late covers rfl (fun _ known => known)
    fun closed => closed)

theorem Accounts.congr {touches : String → Prop} {ends others : Exit → Prop} {done : Prop}
    {room left : Nat} {step : Lower Unit}
    (accounts : Accounts program errors touches targets ends done room left step)
    (same : ∀ exit, ends exit ↔ others exit) :
    Accounts program errors touches targets others done room left step := by
  have equal : ends = others := funext fun exit => propext (same exit)
  exact equal ▸ accounts

theorem Accounts.andThen {touches : String → Prop} {ends moreEnds : Exit → Prop}
    {done moreDone : Prop} {room between left : Nat} {step : Lower Unit} {rest : Unit → Lower Unit}
    (accounts : Accounts program errors touches targets ends done room between step)
    (restAccounts : Accounts program errors touches targets moreEnds moreDone between left
      (rest ())) :
    Accounts program errors touches targets (Exit.Either ends moreEnds) (done ∧ moreDone) room left
      (step >>= rest) := by
  intro busy name session base ledger loops own reckons builds finds
  refine reckons.thenPart accounts (Nat.le_refl _) own (fun _ touches => touches) finds
    fun next isDone reckons => ?_
  have findsOn : next.HasLoops (ledger.after loops ends) targets loops :=
    finds.later reckons.learnt fun _ known => known
  refine .of_bind_pure (reckons.thenPart restAccounts (Nat.le_refl _) own
    (fun _ touches => touches) findsOn fun after moreDone reckons => .pure ⟨⟨isDone, moreDone⟩, ?_⟩)
  refine reckons.congr (fun _ known => known) rfl ?_ (fun block _ => ?_) (fun closed => closed)
    fun tight => tight
  · simp [Ledger.after, Exit.Either, and_assoc]
  · simp only [Ledger.after, jumps_either, and_or_left, and_assoc, or_assoc]

theorem Straight.accounts {step : Lower Unit} (straight : Straight step)
    (ordinary : ∀ error : Error, error.IsUnrefused → errors error) (touches : String → Prop)
    (room : Nat) : Accounts program errors touches targets (· = .normal) True room room step := by
  intro busy name session base ledger loops own reckons builds finds
  refine .of_bind_pure (reckons.thenStraight ordinary straight fun _ next reckons =>
    .pure ⟨trivial, ?_⟩)
  rwa [Ledger.after_normal]

theorem Accounts.orFault {touches : String → Prop} {ends : Exit → Prop} {done : Prop}
    {room left : Nat} {α : Type} {value? : Option α} {fault : ProgramFault} {rest : α → Lower Unit}
    (isError : errors (.program fault))
    (accounts : ∀ value, value? = some value →
      Accounts program errors touches targets ends done room left (rest value)) :
    Accounts program errors touches targets ends done room left
      (Lower.orFault value? fault >>= rest) :=
  fun busy name session base ledger loops own reckons builds finds =>
    .orFault_bind (fun _ => isError) fun value isValue =>
      accounts value isValue busy name session base ledger loops own reckons builds finds

theorem Accounts.widen {touches more : String → Prop} {ends : Exit → Prop} {done : Prop}
    {room left : Nat} {step : Lower Unit}
    (accounts : Accounts program errors touches targets ends done room left step)
    (covers : ∀ other, touches other → more other) :
    Accounts program errors more targets ends done room left step := by
  intro busy name session base ledger loops own reckons builds finds
  exact .of_bind_pure (reckons.thenPart accounts (Nat.le_refl _) own covers finds
    fun next isDone reckons => .pure ⟨isDone, reckons⟩)

theorem Accounts.mono {touches : String → Prop} {ends : Exit → Prop} {done : Prop}
    {room left more fewer : Nat} {step : Lower Unit}
    (accounts : Accounts program errors touches targets ends done room left step)
    (enough : room ≤ more) (less : fewer ≤ left) :
    Accounts program errors touches targets ends done more fewer step :=
  fun busy name session base ledger loops own reckons builds finds =>
    (accounts busy name session base ledger loops own (reckons.mono enough) builds finds).mono
      fun _ _ after => ⟨after.1, after.2.mono less⟩

theorem Accounts.done {touches : String → Prop} {ends : Exit → Prop} {done weaker : Prop}
    {room left : Nat} {step : Lower Unit}
    (accounts : Accounts program errors touches targets ends done room left step)
    (weakens : done → weaker) :
    Accounts program errors touches targets ends weaker room left step :=
  fun busy name session base ledger loops own reckons builds finds =>
    (accounts busy name session base ledger loops own reckons builds finds).mono
      fun _ _ after => ⟨weakens after.1, after.2⟩

end Parts

/-! ## Statements -/

section Statements

variable {program : Program} {errors : Error → Prop} {depth : Nat} {id : StmtId}
  {setting : Setting} {lower : StmtId → Lower Unit}

/-- The statements inside of a statement are lowered by `lower`. -/
def AccountsWithin (program : Program) (errors : Error → Prop) (depth : Nat)
    (lower : StmtId → Lower Unit) : Prop :=
  ∀ (setting : Setting) (child : StmtId),
    Enclosed program (occurrencesWithin program depth setting child) →
    Accounts program errors (Contains program · child) setting.loops (EndsAs program child)
      (EndsWithin program depth child) 0 16 (lower child)

theorem accounts_sequence (ordinary : ∀ error : Error, error.IsUnrefused → errors error)
    {touches : String → Prop} {targets : List StmtId} {stmts : List StmtId}
    (accounts : ∀ child ∈ stmts, Accounts program errors touches targets (EndsAs program child)
      (EndsWithin program depth child) 0 16 (lower child)) :
    Accounts program errors touches targets (Ends program (.stmt id (.compound stmts)))
      (∀ child ∈ stmts, EndsWithin program depth child) 0 0 (stmts.forM lower) := by
  induction stmts with
  | nil =>
      refine Accounts.congr (Accounts.done ((Straight.pure ()).accounts ordinary touches 0) ?_)
        fun exit => ends_compound_nil.symm
      simp
  | cons head tail induction =>
      rw [Lower.forM_cons]
      have rest := induction fun child member => accounts child (List.mem_cons_of_mem _ member)
      refine (((accounts head List.mem_cons_self).andThen
        (rest.mono (Nat.zero_le 16) (Nat.le_refl 0))).congr
          fun exit => ends_compound_cons.symm).done fun done child member => ?_
      rcases List.mem_cons.mp member with rfl | inTail
      · exact done.1
      · exact done.2 child inTail

/-- Without an alternative, control gets behind the statement whatever its body does. -/
theorem accounts_lowerIf_none (ordinary : ∀ error : Error, error.IsUnrefused → errors error)
    (accounts : AccountsWithin program errors depth lower) {condition : ExprId}
    {thenBody : StmtId} (known : program.stmt? id = some (.ifThenElse condition thenBody none))
    (enclosed : Enclosed program (occurrencesWithin program (depth + 1) setting id)) :
    Accounts program errors (Contains program · id) setting.loops
      (fun exit => EndsAs program thenBody exit ∨ exit = .normal)
      (EndsWithin program depth thenBody) 16 0
      (lowerIf program lower condition thenBody none) := by
  intro busy name session base ledger loops own reckons builds finds
  have describes := reckons.describes builds
  have asleep : base.isLive = false → ¬ ledger.alive := describes.dead
  have enclosedThen : Enclosed program (occurrencesWithin program depth setting thenBody) :=
    enclosed.part known (by simp [parts])
  refine reckons.thenStraight ordinary (straight_lowerValue condition) fun value next reckons => ?_
  refine reckons.thenCreate (by decide) fun thenBlock next freshThen reckons => ?_
  refine reckons.thenCreate (by decide) fun endBlock next freshEnd reckons => ?_
  refine reckons.thenTerminate (by decide) rfl
    (by simp [Terminator.successors]) fun next reckons => ?_
  refine reckons.thenEnter (by decide) (endBlock :: ledger.waits)
    ((ledger.create thenBlock).create endBlock).known (.swap _ _ _) (by simp) ?_
    (fun _ known => known) ?_ fun next reckons => ?_
  · intro isDead
    simp [asleep isDead]
  · intro _ isLive
    simp [describes.live.mp isLive, Terminator.successors]
  refine reckons.thenPart (accounts _ _ enclosedThen) (Nat.zero_le _) own
    (fun _ => .inside known (by simp [children]))
    (finds.later reckons.learnt fun _ known => .inl (.inl known)) fun next ends reckons => ?_
  refine reckons.thenLeaveTo (by decide) (.inr rfl) fun next reckons => ?_
  refine .of_bind_pure (reckons.thenEnter (by decide) ledger.waits ledger.known (.refl _)
    (.inr rfl) ?_ (fun _ known => .inl (.inl known)) (fun known => absurd (.inl known) freshEnd)
    fun next reckons => .pure ⟨ends, ?_⟩)
  · intro isDead
    simp [asleep isDead]
  refine (reckons.mono (Nat.zero_le _)).congr (fun _ known => known) rfl ?_
    (fun block isKnown => ?_) (fun closed => closed) fun tight => tight
  · by_cases alive : ledger.alive <;>
      simp [Terminator.successors, alive]
  · have notThen : block ≠ thenBlock := fun same => freshThen (same ▸ isKnown)
    have notEnd : block ≠ endBlock := fun same => freshEnd (.inl (same ▸ isKnown))
    simp [Terminator.successors,
      jumps_or, not_jumps_normal, notThen, notEnd]

theorem accounts_lowerIf_some (ordinary : ∀ error : Error, error.IsUnrefused → errors error)
    (accounts : AccountsWithin program errors depth lower) {condition : ExprId}
    {thenBody elseBody : StmtId}
    (known : program.stmt? id = some (.ifThenElse condition thenBody (some elseBody)))
    (enclosed : Enclosed program (occurrencesWithin program (depth + 1) setting id)) :
    Accounts program errors (Contains program · id) setting.loops
      (fun exit => EndsAs program thenBody exit ∨ EndsAs program elseBody exit)
      (EndsWithin program depth thenBody ∧ EndsWithin program depth elseBody) 16 0
      (lowerIf program lower condition thenBody (some elseBody)) := by
  intro busy name session base ledger loops own reckons builds finds
  have describes := reckons.describes builds
  have asleep : base.isLive = false → ¬ ledger.alive := describes.dead
  have enclosedThen : Enclosed program (occurrencesWithin program depth setting thenBody) :=
    enclosed.part known (by simp [parts])
  have enclosedElse : Enclosed program (occurrencesWithin program depth setting elseBody) :=
    enclosed.part known (by simp [parts])
  refine reckons.thenStraight ordinary (straight_lowerValue condition) fun value next reckons => ?_
  refine reckons.thenCreate (by decide) fun thenBlock next freshThen reckons => ?_
  refine reckons.thenCreate (by decide) fun endBlock next freshEnd reckons => ?_
  refine reckons.thenCreate (by decide) fun elseBlock next freshElse reckons => ?_
  have unknownEnd : ¬ ledger.known endBlock := fun known => freshEnd (.inl known)
  have endNotThen : endBlock ≠ thenBlock := fun same => freshEnd (.inr same)
  have endNotElse : endBlock ≠ elseBlock := fun same => freshElse (.inr same.symm)
  refine reckons.thenTerminate (by decide) rfl
    (by simp [Terminator.successors]) fun next reckons => ?_
  refine reckons.thenEnter (by decide) (elseBlock :: endBlock :: ledger.waits)
    (((ledger.create thenBlock).create endBlock).create elseBlock).known
    (((List.Perm.swap thenBlock endBlock ledger.waits).cons elseBlock).trans (.swap _ _ _))
    (by simp) ?_ (fun _ known => known) ?_ fun next reckons => ?_
  · intro isDead
    simp [asleep isDead]
  · intro _ isLive
    simp [describes.live.mp isLive, Terminator.successors]
  refine reckons.thenPart (accounts _ _ enclosedThen) (Nat.zero_le _) own
    (fun _ => .inside known (by simp [children]))
    (finds.later reckons.learnt fun _ known => .inl (.inl (.inl known)))
    fun next thenEnds reckons => ?_
  refine reckons.thenLeaveTo (by decide) (.inl (.inr rfl)) fun next reckons => ?_
  refine reckons.thenEnter (by decide) (endBlock :: ledger.waits)
    (((ledger.create thenBlock).create endBlock).create elseBlock).known (.refl _) (.inr rfl) ?_
    (fun _ known => known) ?_ fun next reckons => ?_
  · intro isDead
    simp [asleep isDead]
  · intro _ isLive
    simp [describes.live.mp isLive,
      Terminator.successors]
  refine reckons.thenPart (accounts _ _ enclosedElse) (Nat.zero_le _) own
    (fun _ => .inside known (by simp [children]))
    (finds.later reckons.learnt fun _ known => .inl (.inl (.inl known)))
    fun next elseEnds reckons => ?_
  refine reckons.thenLeaveTo (by decide) (.inl (.inr rfl)) fun next reckons => ?_
  refine .of_bind_pure (reckons.thenEnter (by decide) ledger.waits ledger.known (.refl _)
    (.inl (.inr rfl)) ?_ (fun _ known => .inl (.inl (.inl known)))
    (fun known => absurd (.inl known) freshEnd)
    fun next reckons => .pure ⟨⟨thenEnds, elseEnds⟩, ?_⟩)
  · intro isDead
    simp [asleep isDead]
  refine (reckons.mono (Nat.zero_le _)).congr (fun _ known => known) rfl ?_
    (fun block isKnown => ?_) (fun closed => closed) fun tight => tight
  · have noThen := finds.not_jumps
      (fun _ _ ends names => enclosedThen.exits thenEnds ends names) unknownEnd
    have noElse := finds.not_jumps
      (fun _ _ ends names => enclosedElse.exits elseEnds ends names) unknownEnd
    by_cases alive : ledger.alive <;>
      simp [Terminator.successors, alive, noThen, noElse, endNotElse, endNotThen]
  · have notThen : block ≠ thenBlock := fun same => freshThen (same ▸ isKnown)
    have notEnd : block ≠ endBlock := fun same => unknownEnd (same ▸ isKnown)
    have notElse : block ≠ elseBlock := fun same => freshElse (.inl (.inl (same ▸ isKnown)))
    by_cases alive : ledger.alive <;>
      simp [Terminator.successors, jumps_or, alive, notThen, notEnd, notElse, or_assoc]

theorem Session.HasLoops.inLoop {session next : Session} {ledger later : Ledger}
    {targets : List StmtId} {loops : StmtId → LoopBlocks} {blocks : LoopBlocks}
    (finds : session.HasLoops ledger targets loops)
    (learnt : ∀ target blocks, session.annotations.loopOf target = .ok blocks →
      next.annotations.loopOf target = .ok blocks)
    (known : ∀ id, ledger.known id → later.known id)
    (found : next.annotations.loopOf id = .ok blocks) (exit : later.known blocks.exit)
    (continues : later.known blocks.continueTarget) :
    next.HasLoops later (id :: targets) (Function.update loops id blocks) := by
  intro target member
  by_cases same : target = id
  · subst same
    simp only [Function.update_self]
    exact ⟨found, exit, continues⟩
  · rw [Function.update_of_ne same]
    exact finds.later learnt known target (List.mem_of_ne_of_mem same member)

/-- A condition may fail, so that control gets behind the loop whenever it gets to it. -/
theorem accounts_lowerWhile (ordinary : ∀ error : Error, error.IsUnrefused → errors error)
    (accounts : AccountsWithin program errors depth lower) {condition : ExprId} {body : StmtId}
    (known : program.stmt? id = some (.whileLoop condition body))
    (enclosed : Enclosed program (occurrencesWithin program (depth + 1) setting id)) :
    Accounts program errors (Contains program · id) setting.loops
      (Exit.OfLoop id True (EndsAs program body)) (EndsWithin program depth body) 16 0
      (lowerWhile program lower id condition body) := by
  intro busy name session base ledger loops own reckons builds finds
  have describes := reckons.describes builds
  have asleep : base.isLive = false → ¬ ledger.alive := describes.dead
  have enclosedBody : Enclosed program (occurrencesWithin program depth (setting.inLoop id) body) :=
    enclosed.part known (by simp [parts])
  refine reckons.thenCreate (by decide) fun condBlock next freshCond reckons => ?_
  refine reckons.thenCreate (by decide) fun bodyBlock next freshBody reckons => ?_
  refine reckons.thenCreate (by decide) fun endBlock next freshEnd reckons => ?_
  have unknownEnd : ¬ ledger.known endBlock := fun known => freshEnd (.inl (.inl known))
  refine reckons.thenSetLoop ordinary fun next hasBlocks reckons => ?_
  have early := reckons
  replace reckons := reckons.foresee
  let all : BlockId → Prop := (((ledger.create condBlock).create bodyBlock).create endBlock).known
  refine reckons.thenEnter (by decide) (endBlock :: bodyBlock :: ledger.waits) all
    (((List.Perm.swap condBlock bodyBlock ledger.waits).cons endBlock).trans (.swap _ _ _))
    (by simp) ?_ (fun _ known => known) (fun _ live => .inl (describes.live.mp live))
    fun next reckons => ?_
  · simp
  refine reckons.thenStraight ordinary (straight_lowerValue condition) fun value next reckons => ?_
  refine reckons.thenTerminate (by decide) rfl (by simp [all, Terminator.successors])
    fun next reckons => ?_
  refine reckons.thenEnter (by decide) (endBlock :: ledger.waits) all (.swap _ _ _)
    (by simp [all]) ?_ (fun _ known => known) ?_ fun next reckons => ?_
  · intro isDead
    simp [Terminator.successors, asleep isDead]
  · intro _ isLive
    simp [describes.live.mp isLive, Terminator.successors]
  refine reckons.thenPart (accounts _ _ enclosedBody) (Nat.zero_le _) own
    (fun _ => .inside known (by simp [children]))
    (finds.inLoop (fun target blocks found => reckons.learnt target blocks
        (early.learnt target blocks found)) (by simp +contextual [all])
      (reckons.learnt _ _ hasBlocks) (by simp [all]) (by simp [all, LoopBlocks.continueTarget]))
    fun next ends reckons => ?_
  refine reckons.thenLeaveTo (by decide) (by simp [all]) fun next reckons => ?_
  refine .of_bind_pure (reckons.thenEnter (by decide) ledger.waits ledger.known (.refl _)
    (by simp [all]) ?_ (by simp +contextual [all]) (fun known => absurd known unknownEnd)
    fun next reckons => .pure ⟨ends, ?_⟩)
  · intro isDead
    simp [Terminator.successors, asleep isDead]
  refine (early.lookBack (reckons.mono (Nat.zero_le _))).congr (fun _ known => known) rfl ?_
    (fun block isKnown => ?_) (fun closed => closed) fun tight => tight
  · have endNotCond : endBlock ≠ condBlock := fun same => freshEnd (.inl (.inr same))
    have endNotBody : endBlock ≠ bodyBlock := fun same => freshEnd (.inr same)
    by_cases alive : ledger.alive <;>
      simp [Terminator.successors, Exit.OfLoop, alive, endNotCond, endNotBody]
  · have notCond : block ≠ condBlock := fun same => freshCond (same ▸ isKnown)
    have notBody : block ≠ bodyBlock := fun same => freshBody (.inl (same ▸ isKnown))
    have notEnd : block ≠ endBlock := fun same => unknownEnd (same ▸ isKnown)
    have jumps : Jumps (Function.update loops id ⟨condBlock, none, endBlock⟩)
        (EndsAs program body) block ↔
        Jumps loops (Exit.OfLoop id True (EndsAs program body)) block :=
      jumps_ofLoop notEnd notCond True
    by_cases alive : ledger.alive <;>
      simp [Terminator.successors, alive, notCond, notBody, notEnd, ← jumps]

/-! ### Loops with a beginning -/

theorem accounts_lowerForInit (ordinary : ∀ error : Error, error.IsUnrefused → errors error)
    (accounts : AccountsWithin program errors depth lower) {initial : ForInit}
    {condition : Option ExprId} {updates : List ExprId} {body : StmtId}
    (known : program.stmt? id = some (.forLoop initial condition updates body))
    (enclosed : Enclosed program (occurrencesWithin program (depth + 1) setting id)) :
    Accounts program errors (Contains program · id) setting.loops
      (Ends program (.initial initial))
      (∀ stmt, initial = .decl stmt → EndsWithin program depth stmt) 16 16
      (lowerForInit program lower initial) := by
  cases initial with
  | decl stmt =>
      have enclosedStmt : Enclosed program (occurrencesWithin program depth setting stmt) :=
        enclosed.part known (by simp [parts])
      have part : Accounts program errors (Contains program · id) setting.loops
          (EndsAs program stmt) (EndsWithin program depth stmt) 0 16 (lower stmt) :=
        (accounts setting stmt enclosedStmt).widen fun _ => .inside known (by simp [children])
      refine ((part.mono (Nat.zero_le 16) (Nat.le_refl 16)).congr
        fun _ => ends_initial_decl.symm).done ?_
      rintro ends _ ⟨⟩
      exact ends
  | exprs exprs =>
      refine (((straight_lowerExprs exprs).accounts ordinary _ 16).congr
        fun _ => ends_initial_exprs.symm).done ?_
      rintro _ _ ⟨⟩

section Loops

variable {busy touched : String → Prop} {name : String} {first session : Session} {base : Place}
  {ledger : Ledger} {count : Nat} {β : Type} {post : β → Session → Prop}

theorem Session.Reckons.thenCreateUpdateBlock {updates : List ExprId}
    {rest : Option BlockId → Lower β}
    (reckons : Reckons program busy touched name first base ledger count session)
    (enough : 1 ≤ count)
    (continues : ∀ block next, (∀ id, block = some id → ¬ ledger.known id) →
      Reckons program busy touched name first base (ledger.createSome block) (count - 1) next →
      (rest block).Ensures next post errors) :
    (createUpdateBlock updates >>= rest).Ensures session post errors := by
  unfold createUpdateBlock
  split
  · refine .bind_ok rfl (continues none session (fun _ absurd => by cases absurd) ?_)
    exact (reckons.mono (Nat.sub_le _ _)).congr (by simp) (by simp) (by simp) (by simp)
      (fun closed => closed) fun tight => tight
  · have step : (some <$> createBlock "for.update").Ensures session (fun block next =>
        (∀ id, block = some id → ¬ ledger.known id) ∧
          Reckons program busy touched name first base (ledger.createSome block) (count - 1) next)
        errors := by
      refine .map (.of_bind_pure (reckons.thenCreate enough fun id next fresh reckons => .pure ?_))
      refine ⟨?_, reckons.congr ?_ rfl .rfl ?_ (fun closed => closed) fun tight => tight⟩
      · rintro _ ⟨⟩
        exact fresh
      · rintro other (known | same)
        · exact .inl known
        · exact .inr (Option.some.inj same).symm
      · intro other _
        simp [eq_comm]
    exact step.bind fun block next holds => continues block next holds.1 holds.2

theorem Session.Reckons.thenForCondition {condition : Option ExprId} {endBlock : BlockId}
    {rest : Unit → Lower β}
    (reckons : Reckons program busy touched name first base ledger count session)
    (ordinary : ∀ error : Error, error.IsUnrefused → errors error) (enough : 3 ≤ count)
    (known : ledger.known endBlock)
    (continues : ∀ next, Reckons program busy touched name first base
      (ledger.test endBlock (condition ≠ none)) (count - 3) next →
      (rest ()).Ensures next post errors) :
    (lowerForCondition program endBlock condition >>= rest).Ensures session post errors := by
  cases condition with
  | none =>
      refine .bind_ok rfl (continues session ?_)
      exact (reckons.mono (Nat.sub_le _ _)).congr (fun _ known => known) rfl .rfl (by simp)
        (fun closed => closed) fun tight => tight
  | some condition =>
      have asleep : base.isLive = false → ¬ ledger.alive := by
        rcases reckons.place with ⟨place, _, describes⟩
        exact describes.dead
      refine Lower.Ensures.bind (reckons.thenCreate (by omega) fun bodyBlock next fresh reckons =>
        reckons.thenStraight ordinary (straight_lowerValue condition) fun value next reckons =>
        reckons.thenTerminate (by omega) rfl (by simp [Terminator.successors, known])
        fun next reckons => .of_bind_pure (reckons.thenEnter (by omega) ledger.waits ledger.known
          (.refl _) (by simp) ?_ (by simp +contextual) (fun known => absurd known fresh)
          fun next reckons => .pure ?_)) fun _ next reckons => continues next reckons
      · intro isDead
        simp [asleep isDead]
      · refine (reckons.mono (by omega)).congr (fun _ known => known) rfl ?_ ?_
          (fun closed => closed) fun tight => tight
        · by_cases alive : ledger.alive <;> simp [Terminator.successors, alive]
        · intro other isKnown
          have different : other ≠ bodyBlock := fun same => fresh (same ▸ isKnown)
          simp [Terminator.successors, different]

theorem Session.Reckons.thenForUpdates {updates : List ExprId} {updateBlock : Option BlockId}
    {rest : Unit → Lower β}
    (reckons : Reckons program busy touched name first base ledger count session)
    (ordinary : ∀ error : Error, error.IsUnrefused → errors error) (enough : 1 ≤ count)
    (waits : List BlockId) (isWaits : ledger.waits = updateBlock.toList ++ waits)
    (known : ∀ id, updateBlock = some id → ledger.known id)
    (asleep : base.isLive = false → ∀ id, updateBlock = some id → ¬ ledger.reached id)
    (continues : ∀ next alive, Reckons program busy touched name first base
      { ledger with
        known := fun other => ledger.known other ∧ updateBlock ≠ some other
        waits := waits
        alive := alive } (count - 1) next → (rest ()).Ensures next post errors) :
    (lowerForUpdates program updates updateBlock >>= rest).Ensures session post errors := by
  cases updateBlock with
  | none =>
      refine .bind_ok rfl (continues session ledger.alive ?_)
      exact (reckons.mono (Nat.sub_le _ _)).congr (by simp) (by simp [isWaits]) .rfl (by simp)
        (fun closed => closed) fun tight => tight
  | some updateBlock =>
      have step : (lowerForUpdates program updates (some updateBlock)).Ensures session
          (fun _ => Reckons program busy touched name first base
            (ledger.enter updateBlock waits fun other => ledger.known other ∧ other ≠ updateBlock)
            (count - 1)) errors := by
        refine reckons.thenEnter enough waits
          (fun other => ledger.known other ∧ other ≠ updateBlock) (.of_eq isWaits) (known _ rfl)
          (fun isDead => asleep isDead _ rfl) (fun _ known => known.1)
          (fun known => absurd rfl known.2) fun next reckons => ?_
        exact .of_bind_pure (reckons.thenStraight ordinary (straight_lowerExprs updates)
          fun _ next reckons => .pure reckons)
      refine step.bind fun _ next reckons => continues next _ (reckons.congr ?_ rfl .rfl ?_
        (fun closed => closed) fun tight => tight)
      · rintro other ⟨known, different⟩
        exact ⟨known, fun same => different (congrArg some same.symm)⟩
      · rintro other ⟨_, different⟩
        have different : other ≠ updateBlock := fun same => different (congrArg some same.symm)
        simp [different]

end Loops

def lowerForLoop (program : Program) (lower : StmtId → Lower Unit) (id : StmtId)
    (condition : Option ExprId) (updates : List ExprId) (body : StmtId) : Lower Unit := do
  let condBlock ← createBlock "for.cond"
  let endBlock ← createBlock "for.end"
  enter condBlock false
  let updateBlock ← createUpdateBlock updates
  Lower.annotate fun annotations => annotations.setLoop id ⟨condBlock, updateBlock, endBlock⟩
  lowerForCondition program endBlock condition
  lower body
  lowerForUpdates program updates updateBlock
  leaveTo condBlock
  enter endBlock true

theorem lowerFor_eq (initial : ForInit) (condition : Option ExprId) (updates : List ExprId)
    (body : StmtId) : lowerFor program lower id initial condition updates body =
      lowerForInit program lower initial >>= fun _ =>
        lowerForLoop program lower id condition updates body := rfl

theorem accounts_lowerForLoop (ordinary : ∀ error : Error, error.IsUnrefused → errors error)
    (accounts : AccountsWithin program errors depth lower) {initial : ForInit}
    {condition : Option ExprId} {updates : List ExprId} {body : StmtId}
    (known : program.stmt? id = some (.forLoop initial condition updates body))
    (enclosed : Enclosed program (occurrencesWithin program (depth + 1) setting id)) :
    Accounts program errors (Contains program · id) setting.loops
      (Exit.OfLoop id (condition ≠ none) (EndsAs program body)) (EndsWithin program depth body) 16 0
      (lowerForLoop program lower id condition updates body) := by
  intro busy name session base ledger loops own reckons builds finds
  have describes := reckons.describes builds
  have asleep : base.isLive = false → ¬ ledger.alive := describes.dead
  have enclosedBody : Enclosed program (occurrencesWithin program depth (setting.inLoop id) body) :=
    enclosed.part known (by cases initial <;> simp [parts])
  have isChild : body ∈ children program (.forLoop initial condition updates body) := by
    cases initial <;> simp [children]
  refine reckons.thenCreate (by decide) fun condBlock next freshCond reckons => ?_
  refine reckons.thenCreate (by decide) fun endBlock next freshEnd reckons => ?_
  have unknownEnd : ¬ ledger.known endBlock := fun known => freshEnd (.inl known)
  have endNotCond : endBlock ≠ condBlock := fun same => freshEnd (.inr same)
  refine reckons.thenEnter (by decide) (endBlock :: ledger.waits)
    ((ledger.create condBlock).create endBlock).known (.swap _ _ _) (by simp) (by simp)
    (fun _ known => known) (fun _ live => .inl (describes.live.mp live)) fun next reckons => ?_
  refine reckons.thenCreateUpdateBlock (by decide) fun updateBlock next freshUpdate reckons => ?_
  refine reckons.thenSetLoop ordinary fun next hasBlocks reckons => ?_
  have early := reckons
  replace reckons := reckons.foresee
  refine reckons.thenForCondition ordinary (by decide) (by simp) fun next reckons => ?_
  refine reckons.thenPart (accounts _ _ enclosedBody) (Nat.zero_le _) own
    (fun _ => .inside known isChild)
    (finds.inLoop (fun target blocks found => reckons.learnt target blocks
        (early.learnt target blocks found)) (by simp +contextual)
      (reckons.learnt _ _ hasBlocks) (by simp) ?_) fun next ends reckons => ?_
  · cases updateBlock <;> simp [LoopBlocks.continueTarget]
  refine reckons.thenForUpdates ordinary (by decide) (endBlock :: ledger.waits) (by simp)
    (by simp +contextual) ?_ fun next alive reckons => ?_
  · intro isDead id same
    subst same
    simp [asleep isDead]
  have updateNotCond : updateBlock ≠ some condBlock :=
    fun same => freshUpdate _ same (.inl (.inr rfl))
  have updateNotEnd : updateBlock ≠ some endBlock := fun same => freshUpdate _ same (.inr rfl)
  refine reckons.thenLeaveTo (by decide) (by simp [updateNotCond]) fun next reckons => ?_
  refine .of_bind_pure (reckons.thenEnter (by decide) ledger.waits ledger.known (.refl _)
    (by simp [updateNotEnd]) ?_ ?_ (fun known => absurd known unknownEnd)
    fun next reckons => .pure ⟨ends, ?_⟩)
  · intro isDead
    simp [asleep isDead, endNotCond]
  · intro other isKnown
    have different : updateBlock ≠ some other :=
      fun same => freshUpdate other same (.inl (.inl isKnown))
    simp [isKnown, different]
  refine (early.lookBack (reckons.mono (Nat.zero_le _))).congr (fun _ known => known) rfl ?_
    (fun block isKnown => ?_) (fun closed => closed) fun tight => tight
  · have apart : endBlock ≠ updateBlock.getD condBlock := by
      cases updateBlock with
      | none => exact endNotCond
      | some block => exact fun same => updateNotEnd (congrArg some same.symm)
    have elsewhere : ∀ exit target, EndsAs program body exit → exit.target? = some target →
        target ≠ id →
        (loops target).exit ≠ endBlock ∧ (loops target).continueTarget ≠ endBlock := by
      intro exit target leaves names other
      have member := List.mem_of_ne_of_mem other (enclosedBody.exits ends leaves names)
      rcases finds target member with ⟨_, knownExit, knownNext⟩
      exact ⟨fun same => unknownEnd (same ▸ knownExit), fun same => unknownEnd (same ▸ knownNext)⟩
    have exits : Jumps (Function.update loops id ⟨condBlock, updateBlock, endBlock⟩)
        (EndsAs program body) endBlock ↔ EndsAs program body (.broke id) :=
      jumps_exit apart elsewhere
    by_cases alive : ledger.alive <;>
      simp [Exit.OfLoop, Exit.Passes, alive, exits, endNotCond, updateNotEnd]
  · have notCond : block ≠ condBlock := fun same => freshCond (same ▸ isKnown)
    have notEnd : block ≠ endBlock := fun same => unknownEnd (same ▸ isKnown)
    have notUpdate : updateBlock ≠ some block :=
      fun same => freshUpdate block same (.inl (.inl isKnown))
    have notNext : block ≠ updateBlock.getD condBlock := by
      cases updateBlock with
      | none => exact notCond
      | some update => exact fun same => notUpdate (congrArg some same.symm)
    have jumps : Jumps (Function.update loops id ⟨condBlock, updateBlock, endBlock⟩)
        (EndsAs program body) block ↔
        Jumps loops (Exit.OfLoop id (condition ≠ none) (EndsAs program body)) block :=
      jumps_ofLoop notEnd notNext _
    by_cases alive : ledger.alive <;>
      simp [alive, notCond, notUpdate, notEnd, ← jumps]

theorem accounts_lowerFor (ordinary : ∀ error : Error, error.IsUnrefused → errors error)
    (accounts : AccountsWithin program errors depth lower) {initial : ForInit}
    {condition : Option ExprId} {updates : List ExprId} {body : StmtId}
    (known : program.stmt? id = some (.forLoop initial condition updates body))
    (enclosed : Enclosed program (occurrencesWithin program (depth + 1) setting id)) :
    Accounts program errors (Contains program · id) setting.loops
      (Ends program (.stmt id (.forLoop initial condition updates body)))
      (∀ child ∈ children program (.forLoop initial condition updates body),
        EndsWithin program depth child) 16 0
      (lowerFor program lower id initial condition updates body) := by
  rw [lowerFor_eq]
  refine (((accounts_lowerForInit ordinary accounts known enclosed).andThen
    (accounts_lowerForLoop ordinary accounts known enclosed)).congr fun _ => ends_for.symm).done ?_
  rintro ⟨initialEnds, bodyEnds⟩
  cases initial with
  | decl stmt => simpa [children] using ⟨initialEnds stmt rfl, bodyEnds⟩
  | exprs exprs => simpa [children] using bodyEnds

/-! ### Jumps -/

theorem accounts_jump (ordinary : ∀ error : Error, error.IsUnrefused → errors error)
    {touches : String → Prop} {targets : List StmtId} {target : StmtId} (member : target ∈ targets)
    {exit : Exit} (choose : LoopBlocks → BlockId)
    (goes : ∀ loops, exit.goesTo? loops = some (choose (loops target)))
    (isEither : ∀ blocks, choose blocks = blocks.exit ∨ choose blocks = blocks.continueTarget) :
    Accounts program errors touches targets (· = exit) True 16 0 (do
      let blocks ← Lower.consult fun annotations => annotations.loopOf target
      Lower.append fun cursor => cursor.jump (choose blocks)) := by
  intro busy name session base ledger loops own reckons builds finds
  rcases finds target member with ⟨found, knownExit, knownNext⟩
  refine .consult_bind (fun fault _ => ordinary _ (Error.isUnrefused_program fault))
    fun blocks isBlocks => ?_
  cases found.symm.trans isBlocks
  have known : ledger.known (choose (loops target)) := by
    rcases isEither (loops target) with same | same
    · exact same ▸ knownExit
    · exact same ▸ knownNext
  refine .of_bind_pure (reckons.thenTerminate (by decide) rfl
    (by simpa [Terminator.successors] using known) fun next reckons => .pure ⟨trivial, ?_⟩)
  refine (reckons.mono (Nat.zero_le _)).congr (fun _ known => known) rfl ?_ (fun block _ => ?_)
    (fun closed => closed) fun tight => tight
  · have notNormal : Exit.normal ≠ exit := by
      rintro rfl
      cases goes loops
    simp [notNormal]
  · have jumps : Jumps loops (· = exit) block ↔ block = choose (loops target) := by
      simp [Jumps, goes, eq_comm]
    simp [Terminator.successors, jumps]

theorem accounts_lowerReturn (ordinary : ∀ error : Error, error.IsUnrefused → errors error)
    {touches : String → Prop} {targets : List StmtId} (value : Option ExprId) :
    Accounts program errors touches targets (fun _ => False) True 16 0
      (lowerReturn program value) := by
  intro busy name session base ledger loops own reckons builds finds
  have returns : ∀ (result : Option Operand) (here : Session),
      Session.Reckons program busy touches name session base ledger 16 here →
      (Lower.append fun cursor => cursor.ret result).Ensures here (fun _ next => True ∧
        Session.Reckons program busy touches name session base
          (ledger.after loops fun _ => False) 0 next) errors := by
    intro result here reckons
    refine .of_bind_pure (reckons.thenTerminate (by decide) rfl
      (by simp [Terminator.successors]) fun next reckons => .pure ⟨trivial, ?_⟩)
    exact (reckons.mono (Nat.zero_le _)).congr (fun _ known => known) rfl (by simp)
      (by simp [Terminator.successors, Jumps]) (fun closed => closed) fun tight => tight
  cases value with
  | none => exact returns none session reckons
  | some expr =>
      exact reckons.thenStraight ordinary (straight_lowerValue expr)
        fun value next reckons => returns (some value) next reckons

end Statements

/-! ## Functions -/

/-- A function is about to be finished: no edge leads out of it, and its end is open if it owes a
value that it does not return. -/
structure Concluded (program : Program) (decl : FunctionDecl) (place : Place) : Prop where
  holds : place.body.Holds [] 0
  keyed : place.body.Keyed
  closed : place.body.IsClosed
  loose : decl.returnsNothing = false → EndsAs program decl.body .normal → place.isLive = true
  tight : ¬ (decl.returnsNothing = false ∧ EndsAs program decl.body .normal) →
    place.body.IsTight

/-- Finishing a concluded function drops its detached blocks. -/
def FinishesConcluded (program : Program) (errors : Error → Prop) (finish : String → Lower Unit) :
    Prop :=
  ∀ func decl (session : Session) (place : Place), program.function? func = some decl →
    session.Builds decl.name place → Concluded program decl place →
    (finish decl.name).Ensures session (fun _ next => next = session.put decl.name place.pruned)
      errors

section Functions

variable {program : Program} {errors : Error → Prop} {depth : Nat} {id : StmtId}
  {setting : Setting} {lower : StmtId → Lower Unit} {finish : String → Lower Unit}
  {busy touched : String → Prop} {name : String} {session : Session}

theorem reckons_opened {function : Code.Function}
    (found : session.cursor.module.function? name = some function)
    (bodies : ∀ other function, session.cursor.module.function? other = some function →
      function.body.Holds [] 16)
    (declared : ∀ id decl, program.function? id = some decl →
      ∃ function, session.cursor.module.function? decl.name = some function)
    (accountable : ∀ other function, session.cursor.module.function? other = some function →
      function.body.Accountable)
    (tidy : ∀ other function, ¬ busy other → session.cursor.module.function? other = some function →
      Tidy program other function.body) (touched : String → Prop) :
    Session.Reckons program (fun other => busy other ∨ other = name) touched name session
      (Place.mk function.body none).opened
      (.opening (¬ busy name) (¬ busy name ∧ ¬ OwesEnd program name)) 14
      (session.put name (Place.mk function.body none).opened) := by
  have describes : (Ledger.opening (¬ busy name) (¬ busy name ∧ ¬ OwesEnd program name)).Describes
      (Place.mk function.body none).opened (Place.mk function.body none).opened :=
    .opened (accountable name function found) (bodies name function found)
      (fun idle => (tidy name function idle found).closed)
      fun idle => (tidy name function idle.1 found).tight idle.2
  exact {
    working := working_opened found bodies declared touched
    place := ⟨_, ⟨rfl, { function with body := (Place.mk function.body none).opened.body },
      by simp [Session.function?_put, found], rfl⟩, describes⟩
    standing := .inr rfl
    accountable := by
      intro other function found
      rw [Session.function?_put] at found
      split at found
      · rcases Option.map_eq_some_iff.mp found with ⟨old, _, rfl⟩
        exact describes.accountable
      · exact accountable other function found
    tidy := by
      intro other function idle found
      rw [Session.function?_put, if_neg fun same => idle (.inr same.symm)] at found
      exact tidy other function (fun isBusy => idle (.inl isBusy)) found
    learnt := fun _ _ found => found }

theorem owesEnd_iff (apart : NamesApart program) {func : FuncId} {decl : FunctionDecl}
    (known : program.function? func = some decl) :
    OwesEnd program decl.name ↔ decl.returnsNothing = false ∧ EndsAs program decl.body .normal := by
  constructor
  · rintro ⟨other, otherDecl, otherKnown, named, owes⟩
    cases apart other func otherDecl decl otherKnown known named
    cases otherKnown.symm.trans known
    exact owes
  · exact fun owes => ⟨func, decl, known, rfl, owes⟩

theorem Session.Reckons.concluded (apart : NamesApart program) {func : FuncId}
    {decl : FunctionDecl} (known : program.function? func = some decl) {first : Session}
    {base : Place} {ledger : Ledger} {count : Nat}
    (reckons : Reckons program busy touched decl.name first base ledger count session)
    {place : Place} (builds : session.Builds decl.name place) (waits : ledger.waits = [])
    (closed : ledger.closed) (tight : ¬ OwesEnd program decl.name → ledger.tight)
    (alive : ledger.alive ↔ decl.returnsNothing = false ∧ EndsAs program decl.body .normal) :
    Concluded program decl place := by
  have describes := reckons.describes builds
  rcases reckons.working.place with ⟨other, stands, holds⟩
  cases stands.unique builds
  exact {
    holds := holds.forget.mono (Nat.zero_le _)
    keyed := describes.keyed
    closed := describes.isClosed closed waits
    loose := fun returns ends => describes.live.mpr (alive.mpr ⟨returns, ends⟩)
    tight := fun owesNot => describes.isTight (tight (mt (owesEnd_iff apart known).mp owesNot))
      (mt alive.mp owesNot) }

theorem Concluded.tidy (apart : NamesApart program) {func : FuncId} {decl : FunctionDecl}
    (known : program.function? func = some decl) {place : Place}
    (concluded : Concluded program decl place) : Tidy program decl.name place.pruned.body where
  closed := concluded.closed.prune
  tight := fun owesNot => (concluded.tight (mt (owesEnd_iff apart known).mpr owesNot)).prune

theorem Session.Reckons.resume {begun place : Place} {last : Ledger} {more : Nat} {id : StmtId}
    {func : FuncId} {decl : FunctionDecl} {here : Session}
    (reckons : Reckons program busy (Contains program · id) name session base ledger 16 session)
    (builds : session.Builds name base)
    (inside : Reckons program (fun other => busy other ∨ other = decl.name)
      (Contains program · decl.body) decl.name session begun last (more + 1) here)
    (stands : here.Builds decl.name place) (apart : NamesApart program)
    (isDecl : program.function? func = some decl) (concluded : Concluded program decl place)
    (touches : Contains program decl.name id)
    (covers : ∀ other, Contains program other decl.body → Contains program other id)
    (different : name ≠ decl.name) (spared : ¬ Contains program name decl.body) :
    Reckons program busy (Contains program · id) name session base ledger 0
      { (here.put decl.name place.pruned) with
        cursor := (here.put decl.name place.pruned).cursor.setPosition session.cursor.position } := by
  rcases inside.working.place with ⟨_, otherStands, holds⟩
  cases otherStands.unique stands
  have dropped : place.pruned.body.Holds [] (more + 1) :=
    (holds.mono (Nat.le_add_left _ _)).prune
  have finished := inside.working.spend dropped (Nat.le_add_left 1 more)
  have untouched := finished.others name different spared
  rcases builds with ⟨position, outer, isOuter, same⟩
  exact {
    working := reckons.working.resume (finished.mono (Nat.zero_le _)) touches covers different spared
    place := ⟨base, ⟨position, outer, untouched.trans isOuter, same⟩,
      reckons.describes ⟨position, outer, isOuter, same⟩⟩
    standing := reckons.standing
    accountable := by
      intro other function found
      have found := (Session.function?_put here decl.name other place.pruned).symm.trans found
      split at found
      · rcases Option.map_eq_some_iff.mp found with ⟨old, _, rfl⟩
        exact (inside.describes stands).accountable.prune
      · exact inside.accountable other function found
    tidy := by
      intro other function notBusy found
      have found := (Session.function?_put here decl.name other place.pruned).symm.trans found
      split at found
      · rename_i sameName
        rcases Option.map_eq_some_iff.mp found with ⟨old, _, rfl⟩
        exact sameName ▸ concluded.tidy apart isDecl
      · rename_i otherwise
        refine inside.tidy other function ?_ found
        rintro (isBusy | rfl)
        · exact notBusy isBusy
        · exact otherwise rfl
    learnt := inside.learnt }

/-- A function is lowered in the midst of another one, which is left alone. -/
theorem accounts_lowerFunctionDecl (ordinary : ∀ error : Error, error.IsUnrefused → errors error)
    (finishes : FinishesConcluded program errors finish) (apart : NamesApart program)
    (accounts : AccountsWithin program errors depth lower) {func : FuncId}
    (known : program.stmt? id = some (.functionDecl func))
    (enclosed : Enclosed program (occurrencesWithin program (depth + 1) setting id)) :
    Accounts program errors (Contains program · id) setting.loops (· = .normal)
      (∀ child ∈ children program (.functionDecl func), EndsWithin program depth child) 16 0
      (lowerFunctionDecl program finish lower func) := by
  intro busy name session base ledger loops own reckons builds finds
  refine .orFault_bind (fun _ => ordinary _ (Error.isUnrefused_program _)) fun decl isDecl => ?_
  have looks : Lower.cursor session = .ok (session.cursor, session) := rfl
  refine .bind_ok looks ?_
  rcases reckons.working.declared func decl isDecl with ⟨function, found⟩
  have isChild : decl.body ∈ children program (.functionDecl func) := by simp [children, isDecl]
  have enclosedBody : Enclosed program
      (occurrencesWithin program depth (.inFunction func) decl.body) :=
    enclosed.part known (by simp [parts, isDecl])
  have touches : Contains program decl.name id := .declares known isDecl rfl
  have covers : ∀ other, Contains program other decl.body → Contains program other id :=
    fun other contains => .inside known isChild contains
  refine (ensures_openFunction found (reckons.working.bodies _ _ found) (by decide)).bind ?_
  rintro _ next rfl
  have inside := reckons_opened found reckons.working.bodies reckons.working.declared
    reckons.accountable reckons.tidy (Contains program · decl.body)
  have params : Straight (decl.params.zipIdx.forM fun pair : VarId × Nat =>
      lowerParam program pair.1 pair.2) := .forM _ fun pair => straight_lowerParam pair.1 pair.2
  refine inside.thenStraight ordinary params fun _ next inside => ?_
  have ownInside : ∀ other, busy other ∨ other = decl.name → Contains program other decl.body →
      Endless program other := by
    rintro other (isBusy | rfl) contains
    · exact own other isBusy (covers other contains)
    · exact endless_of_contains apart isDecl contains
  refine inside.thenPart (accounts _ _ enclosedBody) (Nat.zero_le _) ownInside
    (fun _ contains => contains) (.nil loops) fun next ends inside => ?_
  -- The function is not being lowered elsewhere, since then its body would not have ended.
  have idle : ¬ busy decl.name :=
    fun isBusy => own decl.name isBusy touches func decl depth isDecl rfl ends
  have goesBack : ∀ (here : Session) (last : Ledger) (count : Nat),
      Session.Reckons program (fun other => busy other ∨ other = decl.name)
        (Contains program · decl.body) decl.name session (Place.mk function.body none).opened last
        (count + 1) here → last.waits = [] → last.closed →
      (¬ OwesEnd program decl.name → last.tight) →
      (last.alive ↔ decl.returnsNothing = false ∧ EndsAs program decl.body .normal) →
      (do finish decl.name
          Lower.moveCursor fun cursor =>
            cursor.setPosition session.cursor.position : Lower Unit).Ensures here
        (fun _ next => (∀ child ∈ children program (.functionDecl func),
            EndsWithin program depth child) ∧
          Session.Reckons program busy (Contains program · id) name session base
            (ledger.after loops (· = .normal)) 0 next) errors := by
    intro here last count inside waits closed tight alive
    rcases inside.working.place with ⟨place, stands, _⟩
    have concluded := inside.concluded apart isDecl stands waits closed tight alive
    refine (finishes func decl here place isDecl stands concluded).bind ?_
    rintro _ next rfl
    refine .of_ok rfl ⟨by simpa [children, isDecl] using ends, ?_⟩
    have different : name ≠ decl.name := fun same => idle (same ▸ reckons.standing)
    have spared : ¬ Contains program name decl.body := by
      intro contains
      rcases contains.endsWithin ends with
        ⟨other, otherDecl, less, _, otherKnown, named, otherEnds⟩
      exact own name reckons.standing (covers name contains) other otherDecl less otherKnown named
        otherEnds
    rw [Ledger.after_normal]
    exact reckons.resume builds inside stands apart isDecl concluded touches covers different spared
  dsimp only
  split
  · rename_i returnsNothing
    refine inside.thenReturnIfLive (by decide) fun here inside => ?_
    refine goesBack here _ 14 inside rfl idle (fun owesNot => ⟨idle, owesNot⟩) ?_
    simp [returnsNothing]
  · rename_i returnsValue
    refine goesBack next _ 15 inside rfl idle (fun owesNot => ⟨idle, owesNot⟩) ?_
    simp [returnsValue, Ledger.opening]

theorem accounts_lowerNodeOf (ordinary : ∀ error : Error, error.IsUnrefused → errors error)
    (finishes : FinishesConcluded program errors finish) (apart : NamesApart program)
    (accounts : AccountsWithin program errors depth lower) {stmt : Stmt}
    (known : program.stmt? id = some stmt)
    (enclosed : Enclosed program (occurrencesWithin program (depth + 1) setting id)) :
    Accounts program errors (Contains program · id) setting.loops (Ends program (.stmt id stmt))
      (∀ child ∈ children program stmt, EndsWithin program depth child) 16 0
      (lowerNodeOf program finish lower id stmt) := by
  have leaf : ∀ {step : Lower Unit}, Straight step → children program stmt = [] →
      (∀ exit, exit = .normal ↔ Ends program (.stmt id stmt) exit) →
      Accounts program errors (Contains program · id) setting.loops (Ends program (.stmt id stmt))
        (∀ child ∈ children program stmt, EndsWithin program depth child) 16 0 step := by
    intro step straight noChildren ends
    refine (((straight.accounts ordinary _ 16).mono (Nat.le_refl 16) (Nat.zero_le 16)).congr
      ends).done ?_
    simp [noChildren]
  cases stmt with
  | expr expr =>
      refine leaf (.bind (straight_lowerExpr expr) fun _ => .pure _) rfl fun exit => ⟨?_, ?_⟩
      · rintro rfl
        exact .expr
      · rintro ⟨⟩
        rfl
  | varDecl vars =>
      refine leaf (.forM vars straight_lowerVarDecl) rfl fun exit => ⟨?_, ?_⟩
      · rintro rfl
        exact .varDecl
      · rintro ⟨⟩
        rfl
  | compound stmts =>
      refine (accounts_sequence ordinary fun child member => ?_).mono (Nat.zero_le 16)
        (Nat.le_refl 0)
      have enclosedChild : Enclosed program (occurrencesWithin program depth setting child) :=
        enclosed.part known (by simp [parts, member])
      exact (accounts setting child enclosedChild).widen fun _ => .inside known member
  | functionDecl func =>
      refine (accounts_lowerFunctionDecl ordinary finishes apart accounts known enclosed).congr
        fun exit => ⟨?_, ?_⟩
      · rintro rfl
        exact .functionDecl
      · rintro ⟨⟩
        rfl
  | ifThenElse condition thenBody elseBody =>
      cases elseBody with
      | none =>
          refine ((accounts_lowerIf_none ordinary accounts known enclosed).congr
            fun _ => ends_if_none.symm).done ?_
          simp [children]
      | some elseBody =>
          refine ((accounts_lowerIf_some ordinary accounts known enclosed).congr
            fun _ => ends_if_some.symm).done ?_
          simp [children]
  | whileLoop condition body =>
      refine ((accounts_lowerWhile ordinary accounts known enclosed).congr
        fun _ => ends_while.symm).done ?_
      simp [children]
  | forLoop initial condition updates body =>
      exact accounts_lowerFor ordinary accounts known enclosed
  | continueLoop target =>
      have jumps : Accounts program errors (Contains program · id) setting.loops
          (· = .continued target) True 16 0 (lowerContinue target) :=
        accounts_jump ordinary (enclosed.target_mem known rfl) LoopBlocks.continueTarget
          (fun _ => rfl) fun _ => .inr rfl
      refine (jumps.congr fun exit => ⟨?_, ?_⟩).done (by simp [children])
      · rintro rfl
        exact .continueLoop
      · rintro ⟨⟩
        rfl
  | breakLoop target =>
      have jumps : Accounts program errors (Contains program · id) setting.loops
          (· = .broke target) True 16 0 (lowerBreak target) :=
        accounts_jump ordinary (enclosed.target_mem known rfl) LoopBlocks.exit
          (fun _ => rfl) fun _ => .inl rfl
      refine (jumps.congr fun exit => ⟨?_, ?_⟩).done (by simp [children])
      · rintro rfl
        exact .breakLoop
      · rintro ⟨⟩
        rfl
  | returnValue value =>
      refine ((accounts_lowerReturn ordinary value).congr fun exit => ⟨False.elim, ?_⟩).done
        (by simp [children])
      rintro ⟨⟩

end Functions

end ScriptLowering.Lowering
