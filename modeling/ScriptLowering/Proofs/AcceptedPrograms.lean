import ScriptLowering.Proofs.EarlyChecks
import ScriptLowering.Proofs.ProgramEvaluation
import ScriptLowering.Proofs.WellFormedLowering
import ScriptLowering.Proofs.Preservation
import ScriptLowering.Proofs.FaultlessStatements

/-! # Programs that are accepted

Lowering a program that is resolved and in order comes to its end, and what has become of it is
accepted. The program has to be small enough for the numbers of blocks and temps.
-/

namespace ScriptLowering.Lowering

open Source (Program FuncId FunctionDecl)
open Code (Module Place Signature)

variable {program : Program} {callable : FuncId → Prop} {entry : String} {declared : Module}

/-! ## Lowering to the end -/

theorem ready_start (isDeclared : Declared program entry declared) :
    (Session.start (.ofModule declared)).Ready program [] [] [] (walkProgram program) where
  follows := List.prefix_rfl
  unaware := by
    intro node _ knows
    cases node <;> rcases knows with ⟨_, known⟩ <;> cases known
  stored := fun _ member => by cases member
  loops := fun _ member => by cases member
  locals := fun _ member => by cases member
  signed := by
    intro id decl found
    rcases isDeclared.functions id decl found with ⟨signature, isSignature, known⟩
    refine ⟨signature, isSignature, ?_⟩
    change (declared.function? decl.name).map Code.Function.signature = some signature
    rw [known]
    rfl

theorem deep_start : Deep (stmtNodes program) [] (stmtDepth program) [] where
  listed := .refl _
  pooled := fun _ member => by cases member
  enough := by
    simp only [stmtNodes, List.length_map, List.length_range, stmtDepth, Program.nodeCount,
      List.length_nil]
    omega

theorem passes_lowerItems (resolved : WellResolved program callable) (arranged : Arranged program)
    (isDeclared : Declared program entry declared) {finish : String → Lower Unit}
    (finishing : ∀ name, Silent (finish name)) :
    (lowerItems program finish entry).Passes (walkProgram program)
      (.start (.ofModule declared)) fun _ => True := by
  refine (ready_start isDeclared).build arranged (.openFunction entry) fun _ next ready => ?_
  have items := arranged.passes_lowerStmts (arranged.stmtsPass resolved finishing _) deep_start
    resolved.items ready
  exact items.thenBuild fun _ => .bind (.returnIfLive _) fun _ => finishing entry

theorem lowerItems_succeeds (resolved : WellResolved program callable) (arranged : Arranged program)
    (few : demand program (walkProgram program) < 2 ^ 28)
    (isDeclared : Declared program entry declared) :
    ∃ last, lowerItems program (finishFunction ⟨entry, false⟩) entry
      (.start (.ofModule declared)) = .ok ((), last) := by
  have finishes : ∀ {name : String} {session : Session} {place : Place},
      session.Builds name place → (finishFunction ⟨entry, false⟩ name).Ensures session
        (fun _ next => next = session.put name place.pruned) Error.IsOrdinary := by
    intro name session place builds
    rcases finalize_eq builds with ⟨pruned, finalizes⟩
    have prunes : Lower.buildWith (fun cursor => cursor.finalize name) session =
        .ok (pruned, session.put name place.pruned) := by
      simp only [Lower.buildWith, finalizes]
      rfl
    have runs : finishFunction ⟨entry, false⟩ name session =
        .ok ((), session.put name place.pruned) :=
      (Lower.bind_eq prunes).trans rfl
    exact .of_ok runs rfl
  have completes := ensures_lowerItems_of_declared isDeclared resolved.nodup_functions few
    (fun _ isOrdinary => isOrdinary) (fun _ _ _ _ _ _ builds _ => finishes builds)
    fun _ _ builds _ _ => finishes builds
  have passes := passes_lowerItems resolved arranged isDeclared
    fun name => Silent.finishFunction ⟨entry, false⟩ name
  cases result : lowerItems program (finishFunction ⟨entry, false⟩) entry
      (.start (.ofModule declared)) with
  | ok pair => exact ⟨pair.2, rfl⟩
  | error error => exact absurd (completes.of_error_eq result) (passes.of_error_eq result)

/-! ## Supported programs -/

/-- A program of the supported subset whose statements are to become the function `entry`. -/
structure Supported (program : Program) (entry : String) : Prop where
  resolved : WellResolved program fun _ => True
  arranged : Arranged program
  named : (StringLibrary.signatures.map Signature.name ++ entry ::
    program.functions.toList.map FunctionDecl.name).Nodup
  params : ∀ decl ∈ program.functions, ∀ param ∈ decl.params,
    (program.var? param).isSome = true

theorem Supported.lowerProgram_succeeds (supported : Supported program entry)
    (returning : Returning program) (few : demand program (walkProgram program) < 2 ^ 28)
    (early : Bool) :
    ∃ module, lowerProgram program ⟨entry, early⟩ = .ok module ∧ module.verify = .ok () := by
  have resolved := supported.resolved
  have known : ∀ decl ∈ program.functions, ∀ param ∈ decl.params, ∃ var,
      program.var? param = some var :=
    fun decl member param isParam => Option.isSome_iff_exists.mp
      (supported.params decl member param isParam)
  rcases declareAll_succeeds ⟨entry, false⟩ supported.named known with ⟨declared, declares⟩
  rcases lowerItems_succeeds resolved supported.arranged few (declared_of_declareAll declares) with
    ⟨last, lowers⟩
  have generates : Generates program ⟨entry, false⟩ declared last := ⟨declares, lowers⟩
  have verified := generates.verify_eq_ok resolved few returning
  have late : lowerProgram program ⟨entry, false⟩ = .ok last.cursor.module :=
    lowerProgram_eq_ok.mpr ⟨declared, last, declares, lowers, rfl, verified⟩
  refine ⟨last.cursor.module, ?_, verified⟩
  -- What is accepted in the end is also accepted function by function.
  cases early with
  | false => exact late
  | true => exact (lowerProgram_early_iff resolved.nodup_functions).mpr late

/-- A supported program is compiled when its functions return what they owe, and no check rejects
what it is compiled to, neither function by function nor as a whole. -/
theorem supported_program_compiles (supported : Supported program entry)
    (returning : Returning program) (few : demand program (walkProgram program) < 2 ^ 28)
    (early : Bool) :
    ∃ module, compile program ⟨entry, early⟩ .empty = (.ok module, .empty) ∧
      module.verify = .ok () := by
  rcases supported.lowerProgram_succeeds returning few early with ⟨module, lowers, verified⟩
  exact ⟨module, compile_eq_ok_iff.mpr ⟨module, lowers, rfl⟩, verified⟩

theorem doublingProgram_compiles :
    Supported doublingProgram "main" ∧ Returning doublingProgram ∧ ∃ module,
      compile doublingProgram .default .empty = (.ok module, .empty) ∧
        module.verify = .ok () := by
  have supported : Supported doublingProgram "main" :=
    ⟨doublingProgram_resolved trivial, by decide +kernel, by decide, by decide⟩
  have returning : Returning doublingProgram := by
    intro id member decl node found _ foundBody ends
    have isTwice : id = ⟨0⟩ := by simpa using show id ∈ [⟨0⟩] from member
    subst isTwice
    cases found
    cases foundBody
    cases ends
  exact ⟨supported, returning, supported_program_compiles supported returning (by decide) true⟩

/-! ## Endless functions -/

/-- A function that owes an integer and goes on for ever. -/
def endlessProgram : Program where
  filename := "endless"
  items := [⟨0⟩]
  stmts := #[.functionDecl ⟨0⟩, .compound [⟨2⟩], .whileLoop ⟨0⟩ ⟨3⟩, .compound []]
  exprs := #[⟨.booleanLiteral true, .boolean⟩]
  vars := #[]
  functions := #[⟨"endless", [], some .integer, ⟨1⟩⟩]

theorem endlessProgram_resolved : WellResolved endlessProgram fun _ => True := by
  have tests : ExprTyped endlessProgram (fun _ => True) [] ⟨0⟩ .boolean :=
    @ExprTyped.intro _ _ _ _ ⟨.booleanLiteral true, .boolean⟩ _ rfl .nil .booleanLiteral
  refine ⟨by decide, .sequence rfl .functionDecl .nothing, fun id member => ?_⟩
  have isEndless : id = ⟨0⟩ := by simpa using show id ∈ [⟨0⟩] from member
  subst isEndless
  refine ⟨_, rfl, ⟨fun param absurd => ?_, rfl, ?_⟩⟩
  · cases absurd
  · exact .sequence rfl (.whileLoop tests rfl .nothing) .nothing

/-- The loop has no result at all, as its condition holds and its body ends normally each time. -/
theorem endlessProgram_neverFallsOff : NeverFallsOff endlessProgram := by
  intro id member decl found _ library call fuel depth
  have isEndless : id = ⟨0⟩ := by simpa using show id ∈ [⟨0⟩] from member
  subst isEndless
  cases found
  have tests : (Source.evalCondition endlessProgram library call ⟨0⟩).Yields (· = true) := by
    rintro store _ _ ⟨⟩
    rfl
  have body : ∀ depth, (Source.evalStmtWithin endlessProgram library call fuel depth ⟨3⟩).Yields
      (· = .normal) := by
    intro depth
    cases depth with
    | zero => exact .halt
    | succ depth => exact .pure rfl
  have loop : ∀ depth, (Source.evalStmtWithin endlessProgram library call fuel depth ⟨2⟩).Yields
      fun _ => False := by
    intro depth
    cases depth with
    | zero => exact .halt
    | succ depth =>
        refine (Source.yields_evalLoop tests (body depth) fuel).mono fun flow ended => ?_
        rcases ended with ⟨_, fails⟩ | ⟨inner, rfl, stops, _⟩
        · cases fails
        · cases stops
  cases depth with
  | zero => exact .halt
  | succ depth => exact (loop depth).bind fun _ absurd => absurd.elim

theorem endlessProgram_rejected :
    Supported endlessProgram "main" ∧ NeverFallsOff endlessProgram ∧ ∀ module after,
      compile endlessProgram .default .empty ≠ (.ok module, after) := by
  refine ⟨⟨endlessProgram_resolved, by decide +kernel, by decide, by decide⟩,
    endlessProgram_neverFallsOff, fun module after compiles => ?_⟩
  have fails : (compile endlessProgram .default .empty).1.isOk = false := by decide +kernel
  rw [compiles] at fails
  cases fails

end ScriptLowering.Lowering
