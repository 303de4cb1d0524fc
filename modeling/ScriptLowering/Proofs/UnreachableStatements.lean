import ScriptLowering.Proofs.CompletedNodes
import ScriptLowering.Proofs.DeadTails
import ScriptLowering.Proofs.ItemOrder
import ScriptLowering.Proofs.RenumberedFunctions

/-! # Unreachable statements

Statements that control does not get to leave no trace in the code. A program that is lowered is also
lowered without them, and then has the same module but for the numbers of blocks, temps and data, and
for the data that they have brought along.
-/

namespace ScriptLowering.Lowering

open Source (Program ExprId StmtId)
open Code (DataId DataPairs Module Pairing Place)

variable {program : Program} {options : Options} {declared : Module}

/-! ## Whole runs -/

theorem matches_empty (data : DataId → DataId → Prop) :
    Code.Body.empty.Matches ⟨fun _ _ => False, fun _ _ => False, data⟩ .empty :=
  ⟨⟨.nil, fun _ _ absurd => absurd.elim, fun _ _ absurd => absurd.elim⟩,
    fun _ _ _ _ absurd => absurd.elim, fun _ _ _ _ absurd => absurd.elim,
    fun _ _ absurd => absurd.elim⟩

theorem shadows_start (dropped : ExprId → Prop)
    (declares : declareAll program options = .ok declared) :
    Session.Shadows program dropped (fun _ _ => False) (.start (.ofModule declared))
      (.start (.ofModule declared)) := by
  rcases holds_declareAll declares with ⟨signatures, _, holds, tables⟩
  have spells := spells_start program declares
  refine ⟨fun name => ?_, .refl _, rfl, rfl, fun _ _ _ _ _ stored => (by cases stored), fun _ => id,
    ?_, fun _ _ absurd => absurd.elim, fun data object found => ?_, spells, spells⟩
  · change Option.Rel _ (declared.function? name) (declared.function? name)
    cases found : declared.function? name with
    | none => exact .none
    | some function =>
        rcases (holds.2 name function).mp found with ⟨signature, _, _, rfl⟩
        exact .some ⟨_, rfl, matches_empty _⟩
  · change DataPairs _ declared.data declared.data
    rw [tables.data]
    exact .empty
  · change declared.data.get? data = some object at found
    rw [tables.data] at found
    cases found

def Tandem.start (declared : Module) : Tandem where
  name := ""
  pairing := ⟨fun _ _ => False, fun _ _ => False, fun _ _ => False⟩
  session := .start (.ofModule declared)
  shadow := .start (.ofModule declared)
  place := ⟨.empty, none⟩
  counterpart := ⟨.empty, none⟩

namespace DeadTail

variable {block stop : StmtId} {before after : List StmtId}

theorem mirrors_items (tail : DeadTail program block before stop after)
    (keeps : KeepsScopes program) (plain : options.verifyFunctions = false)
    (within : ∀ item ∈ program.items, EndsWithin program (stmtDepth program) item) :
    Mirrors program (program.withStmt block (.compound (before ++ [stop])))
      (fun id => .expr id ∈ after.flatMap (walkStmt program))
      (8 * demand program (walkProgram program)) (namesOf program (walkProgram program)) (Tandem.Sees [] [])
      (program.items.forM (lowerStmt program (finishFunction options)))
      (program.items.forM (lowerStmt (program.withStmt block (.compound (before ++ [stop])))
        (finishFunction options))) fun _ _ _ => True := by
  refine mirrors_lowerSequence (fun item member locals inScope => ?_) keeps.uses
  have enclosed : Enclosed program (occurrencesWithin program (stmtDepth program) .top item) :=
    fun setting node target occurs =>
      keeps.jumps setting node target (List.mem_flatMap.mpr ⟨item, member, occurs⟩)
  unfold lowerStmt
  rw [stmtDepth_withStmt]
  exact tail.mirrors_lowerStmtWithin plain (Nat.le_refl _) (within item member) enclosed inScope
    fun param var occurs => keeps.params param var (List.mem_flatMap.mpr ⟨item, member, occurs⟩)

/-- Without the tail all statements are lowered in the shadow of the whole program. -/
theorem exists_shadow (tail : DeadTail program block before stop after)
    (keeps : KeepsScopes program) (plain : options.verifyFunctions = false)
    (few : demand program (walkProgram program) < 2 ^ 28)
    (within : ∀ item ∈ program.items, EndsWithin program (stmtDepth program) item)
    (known : Known program options declared) {last : Session}
    (runs : lowerItems program (finishFunction options) options.entryFunction
      (.start (.ofModule declared)) = .ok ((), last)) :
    ∃ pairs otherLast,
      lowerItems (program.withStmt block (.compound (before ++ [stop]))) (finishFunction options)
        options.entryFunction (.start (.ofModule declared)) = .ok ((), otherLast) ∧
      last.Shadows program (fun id => .expr id ∈ after.flatMap (walkStmt program)) pairs otherLast := by
  have isDeclared := declared_of_declareAll known.declares
  have distinct := List.nodup_cons.mp known.distinct
  let outset := (Tandem.start declared).opened options.entryFunction
  have fills : outset.session.Fills options.entryFunction outset.place
      (8 * demand program (walkProgram program)) :=
    fills_opened isDeclared.start (by omega) (isDeclared.stock (by omega))
  have agrees : outset.Agrees program (fun id => .expr id ∈ after.flatMap (walkStmt program)) :=
    Tandem.agrees_opened (shadows_start _ known.declares) fills.builds fills.builds
  have unopened : outset.session.Unopened (fun _ => True) (namesOf program (walkProgram program)) := by
    intro name member
    have different : options.entryFunction ≠ name := fun same => distinct.1 (same ▸ member)
    rcases exists_of_mem_namesOf member with ⟨id, decl, found, rfl⟩
    rcases isDeclared.functions id decl found with ⟨signature, _, isFunction⟩
    refine ⟨trivial, .declared signature .exported, ?_, rfl⟩
    exact (Session.function?_put _ _ _ _).trans ((if_neg different).trans isFunction)
  have opens : openFunction options.entryFunction (.start (.ofModule declared)) =
      .ok ((), outset.session) := openFunction_eq isDeclared.start rfl
  have follows : (program.items.forM (lowerStmt program (finishFunction options)) >>= fun _ =>
        returnIfLive (some (.ofInt64 0)) >>= fun _ =>
          finishFunction options options.entryFunction).Follows
      (program.items.forM (lowerStmt (program.withStmt block (.compound (before ++ [stop])))
        (finishFunction options)) >>= fun _ => returnIfLive (some (.ofInt64 0)) >>= fun _ =>
          finishFunction options options.entryFunction) outset
      fun _ _ ended => ended.session.Shadows program
        (fun id => .expr id ∈ after.flatMap (walkStmt program)) ended.pairing.data ended.shadow := by
    refine (Course.start outset rfl fills fills agrees).thenPart (tail.mirrors_items keeps plain within)
      0 (Nat.le_refl _) distinct.1 distinct.2 unopened unopened (.nothing outset) fun _ _ next course _ _ => ?_
    refine course.thenReturnIfLive (.some .constant) fun ended course _ => ?_
    have finished := course.prunes plain
    rw [show ended.name = options.entryFunction from course.name] at finished
    exact .of_ok finished.1 finished.2.1 finished.2.2
  have runsOn := (Lower.bind_eq opens).symm.trans runs
  rcases follows () last runsOn with ⟨⟨⟩, ended, answers, rfl, shadows⟩
  exact ⟨ended.pairing.data, ended.shadow, (Lower.bind_eq opens).trans answers, shadows⟩

end DeadTail

/-! ## Modules -/

theorem Complete.attached {entry name : String} {last : Session} {function : Code.Function}
    (complete : Complete program entry (.start (.ofModule declared)) last)
    (declares : declareAll program options = .ok declared)
    (found : last.cursor.module.function? name = some function) :
    function.body.Indexed ∧ ∀ id block, function.body.block? id = some block →
      id ∈ function.body.layout := by
  rcases complete.function found with ⟨place, regular, body⟩ | asDeclared
  · refine ⟨body ▸ regular.indexed_prune, fun id block known => ?_⟩
    exact ((regular.wellShaped body).arena id).mp (Table.mem_keys_iff.mpr ⟨block, known⟩)
  · rcases holds_declareAll declares with ⟨_, _, holds, _⟩
    rcases (holds.2 name function).mp asDeclared with ⟨signature, _, _, rfl⟩
    exact ⟨⟨.nil, fun _ member => (by cases member), fun _ _ known => (by cases known)⟩,
      fun _ _ known => by cases known⟩

/-- What the verifier accepts is accepted in the shadow too. -/
theorem Session.Shadows.verify {other : Program} {entry : String}
    {dropped : ExprId → Prop} {pairs : DataId → DataId → Prop} {last otherLast : Session}
    (shadows : last.Shadows program dropped pairs otherLast)
    (complete : Complete program entry (.start (.ofModule declared)) last)
    (otherComplete : Complete other entry (.start (.ofModule declared)) otherLast)
    (declares : declareAll program options = .ok declared)
    (otherDeclares : declareAll other options = .ok declared)
    (verified : last.cursor.module.verify = .ok ()) : otherLast.cursor.module.verify = .ok () := by
  rw [Module.verify_eq_ok] at verified ⊢
  constructor
  · intro id global found
    rw [Module.global?, shadows.globals] at found
    exact verified.1 id global found
  · intro name mirrored found nonempty
    rcases (shadows.bodies name).exists_left found with ⟨function, isFunction, pairing, rfl, code⟩
    have headings := shadows.headings.headings name
    rw [isFunction, found] at headings
    have renumbers : function.Renumbers pairing last.cursor.module otherLast.cursor.module
        mirrored := by
      refine ⟨code, congrArg Prod.fst (Option.some.inj headings), shadows.headings,
        shadows.globals, fun id counterpart paired => ?_⟩
      rcases shadows.data.bytes id counterpart paired with ⟨_, _, known⟩
      rcases Option.map_eq_some_iff.mp known with ⟨object, isObject, _⟩
      exact ⟨object, isObject⟩
    have laidOut : function.body.layout ≠ [] := by
      intro empty
      have layout := code.pairs.layout
      rw [empty] at layout
      exact nonempty (List.forall₂_nil_left_iff.mp layout)
    have accepted := verified.2 name function isFunction laidOut
    rcases otherComplete.attached otherDeclares found with ⟨indexed, attached⟩
    rw [Code.Function.checkFunction_iff (complete.attached declares isFunction).1] at accepted
    rw [Code.Function.checkFunction_iff indexed]
    exact renumbers.wellFormed indexed attached accepted

/-- Data of two runs is paired if it is made from the same literal. What is left over of the first run
is made from literals among the nodes. -/
structure TextPairs (program other : Program) (options : Options) (nodes : List Node)
    (pairs : DataId → DataId → Prop) (data : Table DataId Code.DataObject) : Prop where
  kept : ∀ id counterpart, pairs id counterpart → ∃ literal bytes,
    MakesText program options literal id bytes ∧ MakesText other options literal counterpart bytes
  left : ∀ id object, data.get? id = some object → (∃ counterpart, pairs id counterpart) ∨
    ∃ literal, .expr literal ∈ nodes ∧ MakesText program options literal id object.bytes

/-- The module `reduced` of the program `other` has the functions and globals of the module. Its code is
the same but for the numbers of blocks, temps and data, which are in the same order, and it lacks no data
but that of literals among the `deleted` nodes. -/
structure Reduced (program other : Program) (options : Options) (deleted : List Node)
    (module reduced : Module) : Prop where
  headings : module.SameHeadings reduced
  globals : reduced.globals = module.globals
  nextGlobal : reduced.nextGlobal = module.nextGlobal
  code : ∃ pairs, DataPairs pairs module.data reduced.data ∧
    TextPairs program other options deleted pairs module.data ∧
    ∀ name, Option.Rel (SameCode pairs) (module.function? name) (reduced.function? name)

section Reduced

variable {other : Program} {deleted : List Node} {module reduced : Module}

/-- Data to which code refers is not dropped. -/
theorem Reduced.keeps_data (reduces : Reduced program other options deleted module reduced)
    {name : String} {function : Code.Function}
    (found : module.function? name = some function) {block : Code.Block}
    (laidOut : block ∈ function.body.laidOut) {id : DataId}
    (used : .data id ∈ block.instructions.flatMap Code.Instruction.operands ++
      block.terminator.operands) :
    ∃ counterpart bytes, (module.data.get? id).map Code.DataObject.bytes = some bytes ∧
      (reduced.data.get? counterpart).map Code.DataObject.bytes = some bytes := by
  rcases reduces.code with ⟨pairs, data, _, code⟩
  have paired : ∃ counterpart, pairs id counterpart := by
    rcases (code name).exists_right found with ⟨mirrored, _, pairing, rfl, agrees⟩
    rcases Code.exists_of_forall₂ agrees.laidOut laidOut with ⟨counterpart, _, blocks⟩
    have operands := List.rel_append
      (List.rel_flatMap blocks.instructions fun _ _ same => same.operands)
      blocks.terminators.operands
    rcases Code.exists_of_forall₂ operands used with ⟨_, _, operand⟩
    cases operand with
    | data paired => exact ⟨_, paired⟩
  rcases paired with ⟨counterpart, paired⟩
  exact ⟨counterpart, data.bytes id counterpart paired⟩

/-- The text of a literal elsewhere is not dropped either, even if no code refers to it. -/
theorem Reduced.keeps_text (reduces : Reduced program other options deleted module reduced)
    (lowers : lowerProgram program options = .ok module) {literal : ExprId} {id : DataId}
    {bytes : List UInt8} (makes : MakesText program options literal id bytes)
    (elsewhere : .expr literal ∉ deleted) :
    ∃ counterpart, MakesText other options literal counterpart bytes := by
  rcases reduces.code with ⟨pairs, _, texts, _⟩
  rcases makes.unique lowers with ⟨found, only⟩
  rcases texts.left id _ found with ⟨counterpart, paired⟩ | ⟨_, isDeleted, makesToo⟩
  · rcases texts.kept id counterpart paired with ⟨_, _, first, second⟩
    rcases only _ _ first with ⟨rfl, rfl⟩
    exact ⟨counterpart, second⟩
  · rcases only _ _ makesToo with ⟨rfl, _⟩
    exact absurd isDeleted elsewhere

end Reduced

/-- In two runs where one shadows the other, data is made from the same literals. -/
theorem Session.Shadows.textPairs {other : Program} {nodes : List Node}
    {pairs : DataId → DataId → Prop} {last otherLast : Session}
    (shadows : last.Shadows program (fun id => .expr id ∈ nodes) pairs otherLast)
    (sameExprs : other.exprs = program.exprs)
    (declares : declareAll program options = .ok declared)
    (otherDeclares : declareAll other options = .ok declared)
    (lowers : lowerItems program (finishFunction options) options.entryFunction
      (.start (.ofModule declared)) = .ok ((), last))
    (otherLowers : lowerItems other (finishFunction options) options.entryFunction
      (.start (.ofModule declared)) = .ok ((), otherLast)) :
    TextPairs program other options nodes pairs last.cursor.module.data where
  kept := by
    intro id counterpart paired
    rcases shadows.data.bytes id counterpart paired with ⟨bytes, holds, otherHolds⟩
    rcases Option.map_eq_some_iff.mp holds with ⟨object, found, rfl⟩
    rcases Option.map_eq_some_iff.mp otherHolds with ⟨mirrored, otherFound, same⟩
    rcases shadows.sameTexts id counterpart paired with ⟨literal, isFor, otherIsFor⟩
    rcases makesText_of_lowerItems declares lowers found with ⟨first, isFirst, makes⟩
    rcases makesText_of_lowerItems otherDeclares otherLowers otherFound with
      ⟨second, isSecond, otherMakes⟩
    have otherIsFor : otherLast.literal? other counterpart = some literal := by
      have texts : textOf? other = textOf? program := by
        funext id
        rw [textOf?, Source.Program.expr?, sameExprs]
        rfl
      rw [Session.literal?, Annotations.literals, texts]
      exact otherIsFor
    cases isFor.symm.trans isFirst
    cases otherIsFor.symm.trans isSecond
    exact ⟨literal, object.bytes, makes, same ▸ otherMakes⟩
  left := by
    intro id object found
    refine (shadows.left id object found).imp_right ?_
    rintro ⟨literal, isFor, isInside⟩
    rcases makesText_of_lowerItems declares lowers found with ⟨first, isFirst, makes⟩
    cases isFor.symm.trans isFirst
    exact ⟨literal, isInside, makes⟩

/-- Statements behind one that does not end normally leave no trace: if the program is lowered, it is
also lowered without them, and to the same module but for numbers and for the texts of their
literals. -/
theorem unreachable_statements_leave_no_trace {block stop : StmtId} {before after : List StmtId}
    (tail : DeadTail program block before stop after) (keeps : KeepsScopes program)
    (enough : NumbersLast program options) {module : Module}
    (compiles : (compile program options .empty).1 = .ok module) :
    ∃ other, (compile (program.withStmt block (.compound (before ++ [stop]))) options .empty).1 =
        .ok other ∧
      Reduced program (program.withStmt block (.compound (before ++ [stop]))) options
        (after.flatMap (walkStmt program)) module other := by
  rw [compile_empty] at compiles ⊢
  have few := (numbersLast_iff compiles).mp enough
  let other := program.withStmt block (.compound (before ++ [stop]))
  have once := functions_lowered_once compiles keeps.jumps
  have otherOnce : (functionsOf (walkProgram other)).Nodup :=
    (functionsOf_walkProgram_cut tail.compound_eq tail.noFunctions).symm ▸ once
  have otherFew : demand other (walkProgram other) < 2 ^ 28 :=
    Nat.lt_of_le_of_lt (demand_walkProgram_cut_le tail.compound_eq) few
  rcases marks_of_lowerProgram compiles with ⟨_, _, _, _, _, within⟩
  rcases options with ⟨entry, early⟩
  rcases lowerProgram_eq_ok.mp compiles with ⟨declared, last, declares, lowers, rfl, verified⟩
  -- Early checks make no difference, because each function is lowered once.
  have plain := lowerItems_plain lowers
  have known : Known program ⟨entry, false⟩ declared := by
    rcases known_of_lowerProgram compiles keeps.jumps with ⟨start, known⟩
    cases known.declares.symm.trans declares
    exact ⟨known.declares, known.once, known.isDeclared, known.functions⟩
  have otherDeclares : declareAll other ⟨entry, early⟩ = .ok declared := declares
  rcases tail.exists_shadow keeps rfl few within known plain with
    ⟨pairs, otherLast, otherPlain, shadows⟩
  have complete := complete_of_lowerItems known.declares once few plain
  have otherStarts : declareAll other ⟨entry, false⟩ = .ok declared := declares
  have otherComplete := complete_of_lowerItems otherStarts otherOnce otherFew otherPlain
  have otherVerified := shadows.verify complete otherComplete declares otherDeclares verified
  have otherLowers := lowerItems_early otherOnce otherDeclares otherPlain otherVerified early
  have otherCompiles : lowerProgram other ⟨entry, early⟩ = .ok otherLast.cursor.module :=
    lowerProgram_eq_ok.mpr ⟨declared, otherLast, otherDeclares, otherLowers, rfl, otherVerified⟩
  have sameExprs : other.exprs = program.exprs := rfl
  have texts := shadows.textPairs sameExprs declares otherDeclares lowers otherLowers
  exact ⟨otherLast.cursor.module, otherCompiles, shadows.headings, shadows.globals,
    shadows.nextGlobal, pairs, shadows.data, texts, shadows.bodies⟩

/-- A loop that is left at once, before a text and a jump of a loop inside, and then another text. -/
def leavingProgram : Program where
  filename := "leaving"
  items := [⟨0⟩, ⟨8⟩]
  stmts := #[.functionDecl ⟨0⟩, .compound [⟨2⟩, ⟨9⟩], .whileLoop ⟨0⟩ ⟨3⟩,
    .compound [⟨4⟩, ⟨5⟩, ⟨6⟩], .breakLoop ⟨2⟩, .varDecl [⟨0⟩], .whileLoop ⟨2⟩ ⟨7⟩,
    .continueLoop ⟨2⟩, .expr ⟨4⟩, .varDecl [⟨1⟩]]
  exprs := #[⟨.booleanLiteral true, .boolean⟩, ⟨.stringLiteral "never", .string⟩,
    ⟨.booleanLiteral true, .boolean⟩, ⟨.stringLiteral "done", .string⟩, ⟨.call "leave" [], .void⟩]
  vars := #[⟨"first", .string, some ⟨1⟩, .local, .ordinary⟩,
    ⟨"last", .string, some ⟨3⟩, .local, .ordinary⟩]
  functions := #[⟨"leave", [], none, ⟨1⟩⟩]

/-- Without what stands behind the jump there is one text less, and the other one gets its number. -/
theorem leavingProgram_tail_leaves_no_trace :
    DeadTail leavingProgram ⟨3⟩ [] ⟨4⟩ [⟨5⟩, ⟨6⟩] ∧ KeepsScopes leavingProgram ∧ ∃ module other,
      (compile leavingProgram .default .empty).1 = .ok module ∧
      (compile (leavingProgram.withStmt ⟨3⟩ (.compound [⟨4⟩])) .default .empty).1 = .ok other ∧
      module.data.size = 2 ∧ other.data.size = 1 ∧
      Reduced leavingProgram (leavingProgram.withStmt ⟨3⟩ (.compound [⟨4⟩])) .default
        ([⟨5⟩, ⟨6⟩].flatMap (walkStmt leavingProgram)) module other := by
  have tail : DeadTail leavingProgram ⟨3⟩ [] ⟨4⟩ [⟨5⟩, ⟨6⟩] := by
    have locals : ∀ decl ∈ leavingProgram.vars, decl.scope = .local := by decide
    refine ⟨rfl, ?_, by decide +kernel, fun id decl _ found => ?_⟩
    · rintro ⟨stmt, found, ends⟩
      cases found
      cases ends
    · exact locals decl (Array.mem_of_getElem? found)
  have keeps : KeepsScopes leavingProgram := by decide +kernel
  have sizes : (compile leavingProgram .default .empty).1.toOption.map (·.data.size) = some 2 ∧
      (compile (leavingProgram.withStmt ⟨3⟩ (.compound [⟨4⟩])) .default .empty).1.toOption.map
        (·.data.size) = some 1 := by decide +kernel
  cases outcome : (compile leavingProgram .default .empty).1 with
  | error error =>
      rw [outcome] at sizes
      cases sizes.1
  | ok module =>
      have enough : NumbersLast leavingProgram .default :=
        numbersLast_of_length (compile_empty _ _ ▸ outcome) (by decide)
      rcases unreachable_statements_leave_no_trace tail keeps enough outcome with
        ⟨other, otherCompiles, reduced⟩
      have otherOutcome : (compile (leavingProgram.withStmt ⟨3⟩ (.compound [⟨4⟩])) .default
          .empty).1 = .ok other := otherCompiles
      rw [outcome, otherOutcome] at sizes
      exact ⟨tail, keeps, module, other, rfl, otherOutcome, Option.some.inj sizes.1,
        Option.some.inj sizes.2, reduced⟩

end ScriptLowering.Lowering
