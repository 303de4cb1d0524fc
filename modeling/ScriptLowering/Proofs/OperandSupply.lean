import ScriptLowering.Proofs.GrowingModules
import ScriptLowering.Proofs.UnchangedGlobals

/-! # Operands that lowering supplies

Lowering writes no operand into a function before the global or the data behind it is there. A step
needs some operands and supplies others: those in its result, which later steps may write. The
steps here stay inside one function and leave the globals alone.
-/

namespace ScriptLowering.Lowering

open Source (Program ExprId ExprNode StmtId VarDecl VarId)
open Code (BlockId Cursor Module Operand)

variable {program : Program}

/-! ## Sessions inside a function -/

/-- All that the code and the storage refer to is there. -/
structure Session.Closed (session : Session) : Prop where
  code : ∀ name function operand, session.cursor.module.function? name = some function →
    function.body.Mentions operand → session.cursor.module.Knows operand
  storage : ∀ id address, session.annotations.storageOf id = .ok address →
    session.cursor.module.Knows address

/-- The cursor stands in the function `current`, which has its entry block. -/
structure Session.Inside (current : String) (session : Session) : Prop where
  closed : session.Closed
  position : session.cursor.position.function = some current
  begun : ∃ function, session.cursor.module.function? current = some function ∧
    function.body.layout ≠ []

/-- The module has grown, and no function has changed but those in `names`. -/
structure Session.Advances (names : List String) (session next : Session) : Prop where
  extension : next.cursor.module.Extends session.cursor.module
  others : ∀ name, name ∉ names →
    next.cursor.module.function? name = session.cursor.module.function? name

namespace Session.Advances

variable {names more : List String} {session middle next : Session}

theorem refl (names : List String) (session : Session) : session.Advances names session :=
  ⟨.refl _, fun _ _ => rfl⟩

theorem mono (advances : session.Advances names next) (within : names ⊆ more) :
    session.Advances more next :=
  ⟨advances.extension, fun name outside => advances.others name fun member =>
    outside (within member)⟩

theorem trans (first : session.Advances names middle) (second : middle.Advances names next) :
    session.Advances names next :=
  ⟨second.extension.trans first.extension, fun name outside =>
    (second.others name outside).trans (first.others name outside)⟩

end Session.Advances

/-! ## Building -/

section Filling

variable {session : Session} {adds : Operand → Prop} {next : Cursor}

theorem extends_of_fills (fills : session.cursor.Fills adds next) :
    next.module.Extends session.cursor.module where
  signatures := fills.signatures
  globals := by
    intro id global found
    rw [Module.global?, fills.globals]
    exact found
  data := by
    intro id known
    rw [fills.data]
    exact known

theorem Session.Closed.fill (closed : session.Closed) (fills : session.cursor.Fills adds next)
    (known : ∀ operand, adds operand → session.cursor.module.Knows operand) :
    Session.Closed { session with cursor := next } where
  code := by
    intro name function operand found mentioned
    have grows := fills.functions name
    rw [show next.module.function? name = some function from found] at grows
    cases before : session.cursor.module.function? name with
    | none =>
        rw [before] at grows
        cases grows
    | some earlier =>
        rw [before] at grows
        cases grows with
        | some grows =>
            apply (extends_of_fills fills).knows
            rcases grows.2.mentions operand mentioned with old | new
            · exact closed.code name earlier operand before old
            · exact known operand new
  storage := fun id address stored =>
    (extends_of_fills fills).knows (closed.storage id address stored)

theorem Session.Closed.extend (closed : session.Closed)
    (extension : next.module.Extends session.cursor.module)
    (same : ∀ name, next.module.function? name = session.cursor.module.function? name) :
    Session.Closed { session with cursor := next } where
  code := by
    intro name function operand found mentioned
    have before := (same name).symm.trans found
    exact extension.knows (closed.code name function operand before mentioned)
  storage := fun id address stored => extension.knows (closed.storage id address stored)

theorem Session.Advances.of_fills {current : String}
    (position : session.cursor.position.function = some current)
    (fills : session.cursor.Fills adds next) :
    session.Advances [current] { session with cursor := next } := by
  refine ⟨extends_of_fills fills, fun name outside => fills.others name ?_⟩
  rw [position]
  rintro ⟨⟩
  exact outside List.mem_cons_self

theorem Session.Inside.fill {current : String} (inside : session.Inside current)
    (fills : session.cursor.Fills adds next)
    (known : ∀ operand, adds operand → session.cursor.module.Knows operand) :
    Session.Inside current { session with cursor := next } ∧
      session.Advances [current] { session with cursor := next } ∧
      session.SameGlobals { session with cursor := next } := by
  refine ⟨⟨inside.closed.fill fills known, fills.inside.trans inside.position, ?_⟩,
    .of_fills inside.position fills, ⟨rfl, fills.globals, fills.nextGlobal⟩⟩
  rcases inside.begun with ⟨function, found, begun⟩
  have grows := fills.functions current
  rw [found] at grows
  cases after : next.module.function? current with
  | none =>
      rw [after] at grows
      cases grows
  | some later =>
      rw [after] at grows
      cases grows with
      | some grows => exact ⟨later, rfl, grows.2.layout begun⟩

end Filling

/-! ## Steps that supply operands -/

/-- The step stays in the function `current`, adds no global and gives nothing storage. If the
module knows the operands `needs` before, it knows those that are `given` by the result behind. -/
def Supplies (current : String) (needs : List Operand) {α : Type} (step : Lower α)
    (given : α → List Operand) : Prop :=
  ∀ session, session.Inside current → session.cursor.module.KnowsAll needs →
    step.Ensures session (fun value next => (next.Inside current ∧
      session.Advances [current] next ∧ session.SameGlobals next) ∧
      next.cursor.module.KnowsAll (given value)) fun _ => True

/-- Every module that knows `needs` knows the operand as well. -/
def Backed (needs : List Operand) (operand : Operand) : Prop :=
  ∀ module : Module, module.KnowsAll needs → module.Knows operand

namespace Supplies

variable {α β : Type} {current : String} {needs : List Operand} {given : α → List Operand}

theorem pure {value : α}
    (known : ∀ module : Module, module.KnowsAll needs → module.KnowsAll (given value)) :
    Supplies current needs (Pure.pure value) given :=
  fun session inside needed => .pure ⟨⟨inside, .refl _ session, .refl session⟩, known _ needed⟩

theorem done (value : α) : Supplies current needs (Pure.pure value) fun _ => [] :=
  pure fun _ _ => Module.knowsAll_nil _

theorem fail (error : Error) : Supplies current needs (Lower.fail error : Lower α) given :=
  fun _ _ _ => .of_error rfl trivial

theorem bind {step : Lower α} {rest : α → Lower β} {last : β → List Operand}
    (first : Supplies current needs step given)
    (second : ∀ value, Supplies current (given value ++ needs) (rest value) last) :
    Supplies current needs (step >>= rest) last := by
  intro session inside needed
  apply (first session inside needed).bind
  rintro value between ⟨⟨insideBetween, advances, same⟩, known⟩
  have stillNeeded : between.cursor.module.KnowsAll needs := fun operand member =>
    advances.extension.knows (needed operand member)
  apply (second value between insideBetween (Module.knowsAll_append.mpr
    ⟨known, stillNeeded⟩)).mono
  rintro other next ⟨⟨insideNext, advancesOn, sameOn⟩, knownNext⟩
  exact ⟨⟨insideNext, advances.trans advancesOn, same.trans sameOn⟩, knownNext⟩

theorem weaken {step : Lower α} (supplies : Supplies current [] step given) :
    Supplies current needs step given :=
  fun session inside _ => supplies session inside (Module.knowsAll_nil _)

theorem map {step : Lower α} {convert : α → β} {last : β → List Operand}
    (supplies : Supplies current needs step fun value => last (convert value)) :
    Supplies current needs (convert <$> step) last :=
  fun session inside needed => .map (supplies session inside needed)

theorem forM {items : List α} {body : α → Lower Unit}
    (supplies : ∀ item, Supplies current [] (body item) fun _ => []) :
    Supplies current needs (items.forM body) fun _ => [] := by
  induction items generalizing needs with
  | nil => exact done ()
  | cons item rest induction =>
      rw [Lower.forM_cons]
      exact (supplies item).weaken.bind fun _ => induction

theorem mapM {items : List α} {body : α → Lower Operand}
    (supplies : ∀ item, Supplies current [] (body item) fun value => [value]) :
    Supplies current needs (items.mapM body) fun values => values := by
  induction items generalizing needs with
  | nil => exact pure fun module _ => Module.knowsAll_nil module
  | cons item rest induction =>
      rw [List.mapM_cons]
      refine (supplies item).weaken.bind fun _ => induction.bind fun _ => pure fun module => ?_
      simp +contextual

theorem cursor : Supplies current needs Lower.cursor fun _ => [] :=
  fun session inside _ => .of_ok rfl
    ⟨⟨inside, .refl _ session, .refl session⟩, Module.knowsAll_nil _⟩

theorem orFault {found : Option α} {fault : ProgramFault}
    (known : ∀ value (module : Module), found = some value → module.KnowsAll needs →
      module.KnowsAll (given value)) :
    Supplies current needs (Lower.orFault found fault) given := by
  cases found with
  | none => exact fail _
  | some value => exact pure fun module => known value module rfl

theorem look (found : Option α) (fault : ProgramFault) :
    Supplies current needs (Lower.orFault found fault) fun _ => [] :=
  orFault fun _ _ _ _ => Module.knowsAll_nil _

theorem consult (question : Annotations → Except ProgramFault α) :
    Supplies current needs (Lower.consult question) fun _ => [] :=
  fun session inside _ => .of_bind_pure (.consult_bind (fun _ _ => trivial)
    fun _ _ => .pure ⟨⟨inside, .refl _ session, .refl session⟩, Module.knowsAll_nil _⟩)

theorem storageOf (id : VarId) :
    Supplies current needs (Lower.consult fun annotations => annotations.storageOf id)
      fun address => [address] :=
  fun session inside _ => .of_bind_pure (.consult_bind (fun _ _ => trivial)
    fun address stored => .pure ⟨⟨inside, .refl _ session, .refl session⟩,
      by simpa using inside.closed.storage id address stored⟩)

theorem ask (question : Cursor → Except Code.BuildError α) :
    Supplies current needs (Lower.ask question) fun _ => [] :=
  fun session inside _ => .ask (fun _ _ => trivial) fun _ _ =>
    ⟨⟨inside, .refl _ session, .refl session⟩, Module.knowsAll_nil _⟩

theorem askName {rest : String → Lower α} (supplies : Supplies current needs (rest current) given) :
    Supplies current needs (Lower.ask Cursor.currentName >>= rest) given := by
  intro session inside needed
  have named : Lower.ask Cursor.currentName session = .ok (current, session) := by
    simp only [Lower.ask, Cursor.currentName, inside.position]
  exact .bind_ok named (supplies session inside needed)

/-! ### Building -/

theorem build {step : Cursor → Except Code.BuildError Cursor}
    (fills : ∀ cursor next, cursor.position.function = some current → step cursor = .ok next →
      cursor.Fills (Backed needs) next) :
    Supplies current needs (Lower.build step) fun _ => [] := by
  refine fun session inside needed => .build (fun _ _ => trivial) fun next builds => ?_
  exact ⟨inside.fill (fills _ _ inside.position builds) fun _ isBacked => isBacked _ needed,
    Module.knowsAll_nil _⟩

theorem buildWith {step : Cursor → Except Code.BuildError (α × Cursor)}
    (fills : ∀ cursor value next, cursor.position.function = some current →
      step cursor = .ok (value, next) → cursor.Fills (Backed needs) next ∧
        ∀ operand ∈ given value, Backed needs operand) :
    Supplies current needs (Lower.buildWith step) given := by
  refine fun session inside needed => .buildWith (fun _ _ => trivial) fun value next builds => ?_
  rcases fills _ _ _ inside.position builds with ⟨fills, backed⟩
  exact ⟨inside.fill fills fun _ isBacked => isBacked _ needed, fun operand member =>
    (extends_of_fills fills).knows (backed operand member _ needed)⟩

theorem append {step : Cursor → Except Code.BuildError Cursor}
    (fills : ∀ cursor next, cursor.position.function = some current → step cursor = .ok next →
      cursor.Fills (Backed needs) next) :
    Supplies current needs (Lower.append step) fun _ => [] :=
  .bind (.build fun _ _ _ => .ready) fun _ => .build fills

theorem insert {instruction : Code.Instruction}
    (backed : ∀ operand ∈ instruction.operands, Backed needs operand) :
    Supplies current needs (Lower.append fun cursor => cursor.insert instruction) fun _ => [] :=
  append fun _ _ _ inserts => .insert inserts backed

theorem terminate {terminator : Code.Terminator}
    (backed : ∀ operand ∈ terminator.operands, Backed needs operand) :
    Supplies current needs (Lower.append fun cursor => cursor.terminate terminator) fun _ => [] :=
  append fun _ _ _ ends => .terminate ends backed

theorem emit {step : Cursor → Except Code.BuildError α × Cursor}
    (fills : ∀ cursor value next, cursor.position.function = some current →
      step cursor = (.ok value, next) → cursor.Fills (Backed needs) next ∧
        ∀ operand ∈ given value, Backed needs operand) :
    Supplies current needs (Lower.emit step) given :=
  .bind (.build fun _ _ _ => .ready) fun _ => .buildWith fun _ _ _ inside emits =>
    fills _ _ _ inside (Lower.of_emitted emits)

theorem define {ty : Code.Ty} {instruction : Operand → Code.Instruction}
    (backed : ∀ id, ∀ operand ∈ (instruction (.temp id)).operands, Backed needs operand) :
    Supplies current needs (Lower.emit fun cursor => cursor.define ty instruction)
      fun value => [value] := by
  refine emit fun cursor value next _ defines => ?_
  rcases Cursor.Fills.define defines backed with ⟨fills, id, rfl⟩
  exact ⟨fills, by simp [Backed]⟩

theorem call {callee : String} {returns : Code.Ty} {args : List Operand}
    (backed : ∀ operand ∈ args, Backed needs operand) :
    Supplies current needs (Lower.emit fun cursor => cursor.call callee returns args)
      Option.toList := by
  refine emit fun cursor value next _ calls => ?_
  rcases Cursor.Fills.call calls backed with ⟨fills, isTemp⟩
  refine ⟨fills, fun operand member => ?_⟩
  rcases isTemp operand (Option.mem_toList.mp member) with ⟨id, rfl⟩
  exact fun module _ => Module.knows_temp module id

theorem moveCursor {move : Cursor → Cursor}
    (fills : ∀ cursor : Cursor, cursor.position.function = some current →
      cursor.Fills (Backed needs) (move cursor)) :
    Supplies current needs (Lower.moveCursor move) fun _ => [] :=
  fun _ inside needed => .of_ok rfl
    ⟨inside.fill (fills _ inside.position) fun _ isBacked => isBacked _ needed,
      Module.knowsAll_nil _⟩

theorem annotate {change : Annotations → Except ProgramFault Annotations}
    (same : ∀ annotations next, change annotations = .ok next →
      next.storage = annotations.storage) :
    Supplies current needs (Lower.annotate change) fun _ => [] := by
  refine fun session inside _ => .annotate (fun _ _ => trivial) fun next changes => ?_
  have kept := same _ _ changes
  refine ⟨⟨⟨⟨inside.closed.code, ?_⟩, inside.position, inside.begun⟩,
    ⟨.refl _, fun _ _ => rfl⟩, ⟨kept, .refl _⟩⟩, by simp⟩
  intro id address stored
  simp only [Annotations.storageOf, kept] at stored
  exact inside.closed.storage id address stored

theorem setLoop (id : StmtId) (blocks : LoopBlocks) :
    Supplies current needs (Lower.annotate fun annotations => annotations.setLoop id blocks)
      fun _ => [] :=
  annotate fun _ _ sets => (Annotations.setLoop_eq_ok.mp sets).2 ▸ rfl

/-! ### Blocks -/

theorem createBlock (label : String) :
    Supplies current needs (createBlock label) fun _ => [] :=
  buildWith fun _ _ _ _ creates => ⟨.createBlock creates, by simp⟩

theorem clearBlock : Supplies current needs (Lower.moveCursor Cursor.clearBlock) fun _ => [] :=
  moveCursor fun _ _ => .move rfl

theorem positionAtEnd (block : BlockId) :
    Supplies current needs (Lower.moveCursor fun cursor => cursor.positionAtEnd current block)
      fun _ => [] :=
  moveCursor fun _ inside => .move inside.symm

theorem leaveTo (target : BlockId) : Supplies current needs (leaveTo target) fun _ => [] := by
  apply bind cursor
  intro cursor
  split
  · exact (terminate (by simp [Code.Terminator.operands])).bind fun _ => clearBlock
  · exact clearBlock

theorem layOut (block : BlockId) (previous : Option BlockId) :
    Supplies current needs (layOut block previous) fun _ => [] := by
  apply bind cursor
  intro cursor
  cases previous with
  | none => exact build fun _ _ _ => .appendBlock
  | some after =>
      dsimp only
      split
      · exact build fun _ _ _ => .insertBlockAfter
      · exact build fun _ _ _ => .appendBlock

theorem enter (block : BlockId) (closing : Bool) :
    Supplies current needs (enter block closing) fun _ => [] := by
  refine bind cursor fun _ => bind (leaveTo block) fun _ => askName (bind (ask _) fun count => ?_)
  split
  · split
    · exact build fun _ _ _ => .discardBlock
    · exact positionAtEnd _
  · exact bind (layOut _ _) fun _ => positionAtEnd _

theorem createUpdateBlock (updates : List ExprId) :
    Supplies current needs (createUpdateBlock updates) fun _ => [] := by
  unfold Lowering.createUpdateBlock
  split
  · exact done _
  · exact map (createBlock _)

theorem returnIfLive {value : Option Operand} (backed : ∀ operand ∈ value, Backed needs operand) :
    Supplies current needs (returnIfLive value) fun _ => [] := by
  apply bind cursor
  intro cursor
  split
  · apply terminate
    cases value with
    | none => simp [Code.Terminator.operands]
    | some value => simpa [Code.Terminator.operands] using backed
  · exact done _

/-! ### Expressions -/

theorem recordValue (id : ExprId) (value : Option Operand) :
    Supplies current needs (recordValue id value) fun _ => [] := by
  cases value with
  | none => exact done _
  | some value =>
      change Supplies current needs
        (Lower.annotate fun annotations => annotations.setValue id value) _
      exact annotate fun _ _ sets => (Annotations.setValue_eq_ok.mp sets).2 ▸ rfl

theorem addText (text : String) :
    Supplies current needs (Lower.buildWith fun cursor =>
      let (data, module) := cursor.module.addText text
      .ok (data, { cursor with module := module })) fun data => [.data data] := by
  intro session inside _
  have extension := session.cursor.module.extends_addText text
  refine .of_ok rfl ⟨⟨⟨inside.closed.extend extension fun _ => rfl, inside.position, inside.begun⟩,
    ⟨extension, fun _ _ => rfl⟩, ⟨rfl, rfl, rfl⟩⟩, ?_⟩
  rw [Module.knowsAll_cons]
  refine ⟨?_, Module.knowsAll_nil _⟩
  change Table.contains _ _ = true
  rw [Table.contains_iff]
  exact Table.mem_keys_insert.mpr (.inl rfl)

theorem lowerStringLiteral (text : String) :
    Supplies current needs (lowerStringLiteral text) fun value => [value] := by
  apply bind (addText text)
  intro data
  exact define (by simp +contextual [Backed, Code.Instruction.operands])

section Expressions

variable {lower : ExprId → Lower Operand}
  (supplies : ∀ id, Supplies current [] (lower id) fun value => [value])

include supplies

theorem lowerCall (callee : String) (args : List ExprId) :
    Supplies current needs (lowerCall lower callee args) Option.toList := by
  apply bind cursor
  intro cursor
  cases cursor.module.function? callee with
  | none => exact fail _
  | some function =>
      dsimp only
      split
      · refine bind (mapM supplies) fun values => call fun operand member module known => ?_
        exact known operand (List.mem_append_left _ member)
      · exact fail _

theorem lowerUnary (op : Source.UnaryOp) (operand : ExprId) :
    Supplies current needs (lowerUnary program lower op operand) fun value => [value] := by
  apply bind (look _ _)
  intro expr
  split
  · exact bind (supplies operand).weaken fun _ =>
      define (by simp +contextual [Backed, Code.Instruction.operands])
  · exact fail _

omit supplies in
theorem emitOperation (left right : Operand) (operation : Operation) :
    Supplies current ([right] ++ ([left] ++ needs)) (emitOperation left right operation)
      fun value => [value] := by
  cases operation with
  | compareStrings condition =>
      exact bind (define (by simp +contextual [Backed, Code.Instruction.operands])) fun _ =>
        define (by simp +contextual [Backed, Code.Instruction.operands])
  | arith | compare | concat =>
      exact define (by simp +contextual [Backed, Code.Instruction.operands])

theorem lowerBinary (op : Source.BinaryOp) (left right : ExprId) :
    Supplies current needs (lowerBinary program lower op left right) fun value => [value] := by
  unfold Lowering.lowerBinary
  split
  · apply bind (look _ _)
    intro target
    split
    · refine bind (supplies right).weaken fun value => bind (storageOf _) fun address =>
        bind (insert ?_) fun _ => pure fun module => ?_
      · simp +contextual [Backed, Code.Instruction.operands]
      · simp +contextual
    · exact fail _
  · apply bind (look _ _)
    intro expr
    split
    · exact fail _
    · exact bind (supplies left).weaken fun _ => bind (supplies right).weaken fun _ =>
        emitOperation _ _ _

theorem lowerNode (node : ExprNode) :
    Supplies current needs (lowerNode program lower node) Option.toList := by
  cases node with
  | booleanLiteral value => exact pure fun module _ => by simp [Operand.ofBool]
  | integerLiteral value => exact pure fun module _ => by simp [Operand.ofInt64]
  | stringLiteral text => exact map (lowerStringLiteral text)
  | identifier name decl =>
      exact map (bind (look _ _) fun _ => bind (storageOf _) fun _ =>
        define (by simp +contextual [Backed, Code.Instruction.operands]))
  | call callee args => exact lowerCall supplies callee args
  | unary op operand => exact map (lowerUnary supplies op operand)
  | binary op left right => exact map (lowerBinary supplies op left right)

end Expressions

theorem requireValue (id : ExprId) (value : Option Operand) :
    Supplies current (value.toList ++ needs) (requireValue id value) fun value => [value] := by
  apply orFault
  rintro operand module rfl
  simp +contextual

theorem lowerExprWithin (depth : Nat) (id : ExprId) :
    Supplies current needs (lowerExprWithin program depth id) Option.toList := by
  induction depth generalizing id needs with
  | zero => exact fail _
  | succ depth induction =>
      have operands : ∀ operand, Supplies current [] (do
          Lowering.requireValue operand (← Lowering.lowerExprWithin program depth operand))
          fun value => [value] :=
        fun operand => (induction operand).bind fun _ => requireValue operand _
      refine bind (look _ _) fun expr => bind (lowerNode operands expr.node) fun value =>
        bind (recordValue id value) fun _ => pure fun module => ?_
      simp +contextual

theorem lowerExpr (id : ExprId) : Supplies current needs (lowerExpr program id) Option.toList :=
  lowerExprWithin _ id

theorem lowerValue (id : ExprId) :
    Supplies current needs (lowerValue program id) fun value => [value] :=
  (lowerExpr id).bind fun _ => requireValue id _

theorem lowerExprs (ids : List ExprId) :
    Supplies current needs (ids.forM fun id => do let _ ← Lowering.lowerExpr program id)
      fun _ => [] :=
  forM fun id => (lowerExpr id).bind fun _ => done _

theorem lowerInitial (decl : VarDecl) :
    Supplies current needs (lowerInitial program decl) Option.toList := by
  unfold Lowering.lowerInitial
  cases decl.initial with
  | none => exact pure fun module _ => by simp
  | some expr => exact map (lowerValue expr)

end Supplies

end ScriptLowering.Lowering
