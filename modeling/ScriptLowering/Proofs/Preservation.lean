import ScriptLowering.Proofs.CompletedNodes
import ScriptLowering.Proofs.LinkedModules

/-! # Lowering preserves meaning

The entry function of the module that a well-resolved program is lowered to ends exactly as the
program does: with the same number and with the same values in all globals, or by a trap.
-/

namespace ScriptLowering.Code

open Source (Datum Outcome)

/-! ## How modules end -/

/-- A run of the function `entry`, which is called without arguments, comes to `state`. -/
def Module.Reaches (module : Module) (surroundings : Surroundings) (entry : String) (state : State) :
    Prop :=
  ∃ function block, module.function? entry = some function ∧ function.entry? = some block ∧
    Run module surroundings (.call entry block [] module.initialGlobals) state

theorem Module.Reaches.unique {module : Module} {surroundings : Surroundings}
    (steady : surroundings.Steady) {entry : String} {first second : State}
    (left : module.Reaches surroundings entry first) (firstEnded : first.Ended module)
    (right : module.Reaches surroundings entry second) (secondEnded : second.Ended module) :
    first = second := by
  rcases left with ⟨function, block, found, entered, runs⟩
  rcases right with ⟨other, otherBlock, otherFound, otherEntered, otherRuns⟩
  rw [found] at otherFound
  cases otherFound
  rw [entered] at otherEntered
  cases otherEntered
  rcases Takes.of_run runs with ⟨count, takes⟩
  rcases Takes.of_run otherRuns with ⟨more, otherTakes⟩
  rcases steady.continues takes firstEnded otherTakes with ⟨rest, _, remains⟩
  cases remains with
  | none => rfl
  | more step _ => exact absurd step secondEnded.stops

/-- How a run of the function `entry` ends. -/
def Module.EndsWith (module : Module) (surroundings : Surroundings) (entry : String) :
    Outcome → Prop
  | .finished value globals => ∃ state memory, module.Reaches surroundings entry state ∧
      state.next module = .ok (.returns (.int 64 value.toInt) memory) ∧
      module.globals.entries.map (fun global => (global.2.name, memory global.1)) =
        globals.map fun global => (global.1, some global.2.value)
  | .trapped => ∃ state, module.Reaches surroundings entry state ∧
      state.next module = .ok .traps

theorem global_injective :
    Function.Injective fun global : String × Datum => (global.1, some global.2.value) := by
  rintro ⟨name, datum⟩ ⟨otherName, otherDatum⟩ same
  simp only [Prod.mk.injEq, Option.some.injEq] at same
  rw [same.1, Datum.value_injective same.2]

theorem Module.EndsWith.unique {module : Module} {surroundings : Surroundings}
    (steady : surroundings.Steady) {entry : String} {first second : Outcome}
    (left : module.EndsWith surroundings entry first)
    (right : module.EndsWith surroundings entry second) : first = second := by
  cases first with
  | finished value globals =>
      rcases left with ⟨state, memory, reaches, returns, holds⟩
      cases second with
      | finished other otherGlobals =>
          rcases right with ⟨last, otherMemory, otherReaches, otherReturns, otherHolds⟩
          have same := reaches.unique steady (.inr ⟨_, _, returns⟩) otherReaches
            (.inr ⟨_, _, otherReturns⟩)
          subst same
          rw [returns] at otherReturns
          simp only [Except.ok.injEq, Event.returns.injEq, Value.int.injEq, true_and]
            at otherReturns
          rcases otherReturns with ⟨sameNumber, rfl⟩
          rw [Int64.toInt_inj.mp sameNumber,
            List.map_injective_iff.mpr global_injective (holds.symm.trans otherHolds)]
      | trapped =>
          rcases right with ⟨last, otherReaches, traps⟩
          have same := reaches.unique steady (.inr ⟨_, _, returns⟩) otherReaches (.inl traps)
          subst same
          rw [returns] at traps
          cases traps
  | trapped =>
      rcases left with ⟨state, reaches, traps⟩
      cases second with
      | finished other otherGlobals =>
          rcases right with ⟨last, otherMemory, otherReaches, otherReturns, otherHolds⟩
          have same := reaches.unique steady (.inl traps) otherReaches (.inr ⟨_, _, otherReturns⟩)
          subst same
          rw [traps] at otherReturns
          cases otherReturns
      | trapped => rfl

theorem Module.EndsWith.reaches {module : Module} {surroundings : Surroundings} {entry : String}
    {outcome : Outcome} (ends : module.EndsWith surroundings entry outcome) :
    ∃ state, module.Reaches surroundings entry state ∧ state.Ended module := by
  cases outcome with
  | finished value globals =>
      rcases ends with ⟨state, memory, reaches, returns, _⟩
      exact ⟨state, reaches, .inr ⟨_, _, returns⟩⟩
  | trapped =>
      rcases ends with ⟨state, reaches, traps⟩
      exact ⟨state, reaches, .inl traps⟩

end ScriptLowering.Code

namespace ScriptLowering.Lowering

open Source (Program Datum Flow Follows FuncId Library Outcome Store StmtId VarId)
open Code (Frame Function GlobalId Module Place State Takes Value)

/-! ## The entry function -/

section Entry

variable {program : Program} {final : Session} {library : Library}

/-- The statements of the top level have ended, and the machine is about to end as well. -/
structure Exits (program : Program) (final : Session) (value : Int64) (store : Store)
    (state : State) : Prop where
  returns : state.next final.cursor.module = .ok (.returns (.int 64 value.toInt) state.globals)
  globals : GlobalsMatch program final store.globals state.globals

/-- The machine returns zero where the statements of the top level may end without a `return`. -/
theorem Flows.exits {ended place : Place} {declared : List VarId} {frame : Frame}
    {flow : Flow} {store : Store} {state : State} {function : Function}
    (flows : Flows program final .integer [] [] declared [] place ended frame flow store state)
    (hosted : Hosted final function frame)
    (body : function.body = (ended.returnIfLive (some (.ofInt64 0))).pruned.body)
    (returns : function.signature.returns = .i64) :
    ∃ value, flow.exitValue = .ok value ∧ Exits program final value store state := by
  cases flows with
  | normal runs =>
      have returning : Returns program final [] .integer (some (.number 0)) store state := by
        apply runs.returnsIfLive (hosted.later runs.continues) (lasts_of_body body)
          (show _ = codeType .integer from returns)
        · intro operand isZero
          cases isZero
          exact congrArg Except.ok (Source.ofConstant_number 0)
        · intro absent
          cases absent
        · rfl
      exact ⟨0, rfl, returning.gives, returning.globals⟩
  | departs departs =>
      cases departs with
      | broke encloses => cases encloses
      | continued encloses => cases encloses
      | @returned value _ _ gives =>
          rcases value with _ | datum
          · cases gives.typed
          · rcases eq_number_of_hasType gives.typed with ⟨number, rfl⟩
            exact ⟨number, rfl, gives.gives, gives.globals⟩

/-- The machine follows the whole program. -/
theorem follows_program (realized : Realized program final) (resolved : Resolved program)
    {entry : String} {function : Function} {place : Place}
    (enters : Enters program final entry function place) {memory : GlobalId → Option Value}
    (globals : GlobalsMatch program final (Source.initialDatum program) memory) (fuel : Nat) :
    Follows final.cursor.module library (Source.runProgram program library fuel) fuel
      (.call entry ⟨0⟩ [] memory) (Exits program final) := by
  rcases enters with ⟨found, body, lowers, closed, returns⟩
  cases lowers with
  | @intro id ended lowersBody fit =>
      have lasts : ended.Lasts function.body :=
        (lasts_of_body body).of_within fit.regular (Place.within_returnIfLive _ _ _)
      have hosted : Hosted final function (.start 0 entry ⟨0⟩ []) := ⟨found, closed⟩
      have begins : Begins program final function .integer [] (Place.mk .empty none).opened
          (.start 0 entry ⟨0⟩ []) ⟨Source.initialDatum program, fun _ => none⟩ memory := by
        refine ⟨hosted, returns, stands_start _ _ _, globals, fun _ => 0, ?_, ?_⟩
        · intro _ member
          cases member
        · intro _ member
          cases member
      have calls : CallsFollow program final library _ fuel := callsFollow realized fuel
      have follows := lowersBody.follows realized.linked calls (Nat.le_succ fuel) program.depth .integer
        [] [] function [] _ memory 1 _ (Nat.le_refl _) resolved.items.renamed fit.regular lasts
        begins
      apply Follows.andThen follows
      intro flow store state flows
      rcases flows.exits hosted body returns with ⟨value, ends, exits⟩
      simp only [ends]
      exact .pure exits

end Entry

/-! ## Whole programs -/

theorem Session.Records.map_globals {program : Program} {session : Session}
    (records : session.Records program (Source.globalVars program))
    {data : VarId → Datum} {memory : GlobalId → Option Value}
    (agrees : GlobalsMatch program session data memory) :
    session.cursor.module.globals.entries.map (fun global => (global.2.name, memory global.1)) =
      ((Source.globalVars program).map fun var => (var.2.name, data var.1)).map fun global =>
        (global.1, some global.2.value) := by
  rw [records.lists.entries, List.map_map, List.map_map]
  conv_rhs => rw [← List.zipIdx_map_fst 0 (Source.globalVars program), List.map_map]
  apply List.map_congr_left
  rintro ⟨⟨id, decl⟩, index⟩ member
  have isVar := List.mem_zipIdx_iff_getElem?.mp member
  rcases of_mem_globalVars (List.mem_of_getElem? isVar) with ⟨found, topLevel, _⟩
  have holds := agrees id decl _ found topLevel (records.stores.stored index id decl isVar)
  simp only [Function.comp_apply, globalAt, holds.1]

/-- What a program with enough fuel does is what the machine does. -/
theorem endsWith_of_outcome? {program : Program} {library : Library} {fuel : Nat}
    {session : Session} {entry : String} {function : Function}
    (records : session.Records program (Source.globalVars program))
    (found : session.cursor.module.function? entry = some function)
    (entered : function.entry? = some ⟨0⟩)
    (follows : Follows session.cursor.module library (Source.runProgram program library fuel) fuel
      (.call entry ⟨0⟩ [] session.cursor.module.initialGlobals) (Exits program session))
    {outcome : Outcome} (ends : Source.outcome? program library fuel = some outcome) :
    session.cursor.module.EndsWith (library.surroundings session.cursor.module) entry outcome := by
  unfold Source.outcome? at ends
  cases result : Source.runProgram program library fuel with
  | ok pair =>
      rcases pair with ⟨value, store⟩
      simp only [result, Option.some.injEq] at ends
      subst ends
      rw [result] at follows
      rcases follows with ⟨count, state, takes, exits⟩
      exact ⟨state, state.globals, ⟨function, ⟨0⟩, found, entered, takes.run⟩, exits.returns,
        records.map_globals exits.globals⟩
  | error halt =>
      rw [result] at follows ends
      cases halt with
      | trap =>
          cases ends
          rcases follows with ⟨count, state, takes, traps⟩
          exact ⟨state, ⟨function, ⟨0⟩, found, entered, takes.run⟩, traps⟩
      | unfinished => cases ends
      | meaningless => cases ends

/-- The program ends if the machine does. -/
theorem exists_outcome? {program : Program} {library : Library} {module : Module}
    {start last : State} {count : Nat} {post : Int64 → Store → State → Prop}
    (takes : Takes module (library.surroundings module) count start last)
    (ended : last.Ended module)
    (follows : Follows module library (Source.runProgram program library (count + 1)) (count + 1)
      start post) :
    ∃ outcome, Source.outcome? program library (count + 1) = some outcome := by
  unfold Source.outcome?
  cases result : Source.runProgram program library (count + 1) with
  | ok pair => exact ⟨_, rfl⟩
  | error halt =>
      rw [result] at follows
      cases halt with
      | trap => exact ⟨_, rfl⟩
      | unfinished =>
          rcases follows with ⟨more, state, enough, otherTakes⟩
          rcases (library.steady module).continues takes ended otherTakes with ⟨rest, same, _⟩
          omega
      | meaningless => exact follows.elim

/-- A program and the entry function of its module end in the same ways, whatever strings are and
whatever fresh slots hold. -/
theorem endsWith_compile_iff {program : Program} {options : Options} {module : Module}
    (compiles : (compile program options .empty).1 = .ok module) (resolved : Resolved program)
    (enough : NumbersLast program options) (library : Library) (outcome : Outcome) :
    Source.EndsWith program library outcome ↔
      module.EndsWith (library.surroundings module) options.entryFunction outcome := by
  rw [compile_empty] at compiles
  have few := (numbersLast_iff compiles).mp enough
  rcases succeeds_of_lowerProgram compiles with ⟨declared, last, succeeds, rfl⟩
  have records := succeeds.records resolved few
  rcases succeeds.enters resolved few with ⟨function, place, enters⟩
  have entered := entry?_eq enters.body enters.lowers.regular.1
  have follows : ∀ fuel, Follows last.cursor.module library
      (Source.runProgram program library fuel) fuel
      (.call options.entryFunction ⟨0⟩ [] last.cursor.module.initialGlobals)
      (Exits program last) :=
    follows_program (succeeds.realized resolved few) resolved enters
      (records.globalsMatch resolved)
  constructor
  · rintro ⟨fuel, ends⟩
    exact endsWith_of_outcome? records enters.found entered (follows fuel) ends
  · intro ends
    rcases ends.reaches with ⟨state, ⟨other, block, otherFound, otherEntered, runs⟩, ended⟩
    rw [enters.found] at otherFound
    cases otherFound
    rw [entered] at otherEntered
    cases otherEntered
    rcases Takes.of_run runs with ⟨count, takes⟩
    rcases exists_outcome? takes ended (follows (count + 1)) with ⟨reached, isOutcome⟩
    have machine := endsWith_of_outcome? records enters.found entered (follows (count + 1)) isOutcome
    rw [ends.unique (library.steady _) machine]
    exact ⟨count + 1, isOutcome⟩

/-- A variable is doubled by a function as long as it is less than five. -/
def doublingProgram : Program where
  filename := "doubling"
  items := [⟨0⟩, ⟨1⟩, ⟨3⟩]
  stmts := #[.varDecl [⟨0⟩], .functionDecl ⟨0⟩, .returnValue (some ⟨3⟩), .whileLoop ⟨6⟩ ⟨4⟩,
    .expr ⟨10⟩]
  exprs := #[⟨.integerLiteral 1, .integer⟩, ⟨.identifier "x" ⟨1⟩, .integer⟩,
    ⟨.identifier "x" ⟨1⟩, .integer⟩, ⟨.binary .plus ⟨1⟩ ⟨2⟩, .integer⟩,
    ⟨.identifier "total" ⟨0⟩, .integer⟩, ⟨.integerLiteral 5, .integer⟩,
    ⟨.binary .lessThan ⟨4⟩ ⟨5⟩, .boolean⟩, ⟨.identifier "total" ⟨0⟩, .integer⟩,
    ⟨.identifier "total" ⟨0⟩, .integer⟩, ⟨.call "twice" [⟨8⟩], .integer⟩,
    ⟨.binary .assign ⟨7⟩ ⟨9⟩, .integer⟩]
  vars := #[⟨"total", .integer, some ⟨0⟩, .topLevel, .ordinary⟩,
    ⟨"x", .integer, none, .local, .parameter⟩]
  functions := #[⟨"twice", [⟨1⟩], some .integer, ⟨2⟩⟩]

theorem doublingProgram_resolved {callable : FuncId → Prop} (mayCall : callable ⟨0⟩) :
    WellResolved doublingProgram callable := by
  have visible : InScope doublingProgram [] ⟨0⟩ := .inr ⟨_, rfl, rfl⟩
  have total : NodeTyped doublingProgram callable [] (.identifier "total" ⟨0⟩) [] .integer :=
    @NodeTyped.identifier _ _ _ _ _ ⟨"total", .integer, some ⟨0⟩, .topLevel, .ordinary⟩ rfl visible
  have isX : NodeTyped doublingProgram callable [⟨1⟩] (.identifier "x" ⟨1⟩) [] .integer :=
    @NodeTyped.identifier _ _ _ _ _ ⟨"x", .integer, none, .local, .parameter⟩ rfl
      (.inl List.mem_cons_self)
  have integer (locals : List VarId) {id : Source.ExprId} {ids : List Source.ExprId}
      {node : Source.ExprNode} {operands types : List Source.Ty}
      (found : doublingProgram.expr? id = some ⟨node, .integer⟩)
      (parts : ExprsTyped doublingProgram callable locals (operandsOf node) operands)
      (typed : NodeTyped doublingProgram callable locals node operands .integer)
      (rest : ExprsTyped doublingProgram callable locals ids types) :
      ExprsTyped doublingProgram callable locals (id :: ids) (.integer :: types) :=
    .cons found parts typed (fun isVoid => nomatch isVoid) rest
  have doubles : ExprTyped doublingProgram callable [⟨1⟩] ⟨3⟩ .integer :=
    @ExprTyped.intro _ _ _ _ ⟨.binary .plus ⟨1⟩ ⟨2⟩, .integer⟩ _ rfl
      (integer _ rfl .nil isX (integer _ rfl .nil isX .nil)) (.binary rfl)
  have tests : ExprTyped doublingProgram callable [] ⟨6⟩ .boolean :=
    @ExprTyped.intro _ _ _ _ ⟨.binary .lessThan ⟨4⟩ ⟨5⟩, .boolean⟩ _ rfl
      (integer _ rfl .nil total (integer _ rfl .nil .integerLiteral .nil)) (.binary rfl)
  have calls : NodeTyped doublingProgram callable [] (.call "twice" [⟨8⟩]) [.integer] .integer :=
    @NodeTyped.call doublingProgram _ _ _ ⟨0⟩ _ _ mayCall rfl rfl
  have assigns : ExprTyped doublingProgram callable [] ⟨10⟩ .integer :=
    @ExprTyped.intro _ _ _ _ ⟨.binary .assign ⟨7⟩ ⟨9⟩, .integer⟩ _ rfl
      (integer _ rfl (integer _ rfl .nil total .nil) calls .nil) (.assign rfl rfl rfl visible)
  have starts : ExprTyped doublingProgram callable [] ⟨0⟩ .integer :=
    @ExprTyped.intro _ _ _ _ ⟨.integerLiteral 1, .integer⟩ _ rfl .nil .integerLiteral
  refine ⟨by decide, ?_, ?_⟩
  · apply PartTyped.sequence rfl (.vars ⟨rfl, by decide, ?_⟩ .noVars)
    · apply PartTyped.sequence rfl .functionDecl
      exact .sequence rfl (.whileLoop tests rfl (.expr assigns)) .nothing
    · rintro _ ⟨⟩
      exact starts
  · intro id member
    have isTwice : id = ⟨0⟩ := by simpa using show id ∈ [⟨0⟩] from member
    subst isTwice
    refine ⟨_, rfl, ?_, rfl, .returnValue (by decide) doubles⟩
    intro param isParam
    have isX : param = ⟨1⟩ := by simpa using show param ∈ [⟨1⟩] from isParam
    subst isX
    exact ⟨_, rfl, rfl, by decide⟩

theorem doublingProgram_ends : Resolved doublingProgram ∧ ∃ module,
    (compile doublingProgram .default .empty).1 = .ok module ∧
      ∀ library : Library, module.EndsWith (library.surroundings module) "main"
        (.finished 0 [("total", .number 8)]) := by
  rw [compile_empty]
  have compiles : (lowerProgram doublingProgram .default).toOption.isSome = true := by
    decide +kernel
  have isDeclared : ⟨0⟩ ∈ functionsOf (walkProgram doublingProgram) := by decide
  have resolved : Resolved doublingProgram := doublingProgram_resolved isDeclared
  refine ⟨resolved, ?_⟩
  cases result : lowerProgram doublingProgram .default with
  | error error => simp [result, Except.toOption] at compiles
  | ok module =>
      have enough : NumbersLast doublingProgram .default := numbersLast_of_length result (by decide)
      refine ⟨module, rfl, fun library => ?_⟩
      rw [← compile_empty] at result
      exact (endsWith_compile_iff result resolved enough library _).mp ⟨5, rfl⟩

end ScriptLowering.Lowering
