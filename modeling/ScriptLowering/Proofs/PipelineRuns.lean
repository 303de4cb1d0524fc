import ScriptLowering.Lowering.Program
import ScriptLowering.Proofs.VerifierChecks

/-! # Runs of pipelines

A pass clears a module if the pipeline goes on behind it, and stops it otherwise. A run of a
pipeline is described by how far its passes clear, without looking at how it is computed. What
every clearing pass keeps then holds of whatever a pipeline hands out.
-/

namespace ScriptLowering.Code

/-! ## Single passes -/

/-- The pass succeeds, and what it leaves behind is verified where that is asked for. -/
def Pass.Clears (verifying : Bool) (pass : Pass) (module next : Module) : Prop :=
  pass.run module = (.ok (), next) ∧
    (pass.modifies = true → verifying = true → next.verify = .ok ())

/-- The pass fails, or it announces changes and leaves a module that is not accepted. -/
inductive Pass.Stops (verifying : Bool) (pass : Pass) (module : Module) :
    PipelineError → Module → Prop
  | fails {reason : String} {next : Module} (runs : pass.run module = (.error reason, next)) :
      Stops verifying pass module (.passFailed pass.name reason) next
  | spoils {rejection : Rejection} {next : Module} (runs : pass.run module = (.ok (), next))
      (announced : pass.modifies = true) (asked : verifying = true)
      (rejected : next.verify = .error rejection) :
      Stops verifying pass module (.invalidAfter pass.name rejection) next

namespace Pipeline

variable {verifying : Bool} {pass : Pass} {module next : Module}

theorem runPass_of_clears (clears : pass.Clears verifying module next) :
    runPass verifying pass module = (.ok (), next) := by
  rcases clears with ⟨runs, accepted⟩
  simp only [runPass, runs]
  split
  · rename_i both
    simp only [Bool.and_eq_true] at both
    rw [accepted both.1 both.2]
    rfl
  · rfl

theorem runPass_of_stops {error : PipelineError} (stops : pass.Stops verifying module error next) :
    runPass verifying pass module = (.error error, next) := by
  cases stops with
  | fails runs => simp only [runPass, runs]
  | spoils runs announced asked rejected =>
      simp only [runPass, runs, announced, asked, Bool.and_self, if_true, rejected]
      rfl

theorem clears_or_stops (verifying : Bool) (pass : Pass) (module : Module) :
    (∃ next, pass.Clears verifying module next) ∨
      ∃ error next, pass.Stops verifying module error next := by
  rcases runs : pass.run module with ⟨outcome, next⟩
  cases outcome with
  | error reason => exact .inr ⟨_, next, .fails runs⟩
  | ok =>
      by_cases both : pass.modifies = true ∧ verifying = true
      · cases verified : next.verify with
        | ok => exact .inl ⟨next, runs, fun _ _ => verified⟩
        | error rejection => exact .inr ⟨_, next, .spoils runs both.1 both.2 verified⟩
      · exact .inl ⟨next, runs, fun announced asked => absurd ⟨announced, asked⟩ both⟩

/-! ## Lists of passes -/

/-- All passes clear, each on what the one before it has left. -/
inductive AllClear (verifying : Bool) : List Pass → Module → Module → Prop
  | none {module : Module} : AllClear verifying [] module module
  | more {pass : Pass} {rest : List Pass} {module between next : Module}
      (clears : pass.Clears verifying module between)
      (others : AllClear verifying rest between next) :
      AllClear verifying (pass :: rest) module next

theorem runPasses_of_allClear {passes : List Pass} (clear : AllClear verifying passes module next) :
    runPasses verifying passes module = (.ok (), passes.map Pass.name, next) := by
  induction clear with
  | none => rfl
  | more clears _ induction =>
      simp only [runPasses, runPass_of_clears clears, induction, List.map_cons]

theorem runPasses_of_stops {before after : List Pass} {between : Module} {error : PipelineError}
    (clear : AllClear verifying before module between)
    (stops : pass.Stops verifying between error next) :
    runPasses verifying (before ++ pass :: after) module =
      (.error error, before.map Pass.name, next) := by
  induction clear with
  | none => simp only [List.nil_append, runPasses, runPass_of_stops stops, List.map_nil]
  | more clears _ induction =>
      simp only [List.cons_append, runPasses, runPass_of_clears clears, induction stops,
        List.map_cons]

theorem allClear_or_stops (verifying : Bool) (passes : List Pass) (module : Module) :
    (∃ next, AllClear verifying passes module next) ∨
      ∃ before pass after between error next, passes = before ++ pass :: after ∧
        AllClear verifying before module between ∧ pass.Stops verifying between error next := by
  induction passes generalizing module with
  | nil => exact .inl ⟨module, .none⟩
  | cons pass rest induction =>
      rcases clears_or_stops verifying pass module with ⟨between, clears⟩ | ⟨error, next, stops⟩
      · rcases induction between with ⟨next, others⟩ | ⟨before, stopping, after, here, error,
          next, rfl, clear, stops⟩
        · exact .inl ⟨next, .more clears others⟩
        · exact .inr ⟨pass :: before, stopping, after, here, error, next, rfl,
            .more clears clear, stops⟩
      · exact .inr ⟨[], pass, rest, module, error, next, rfl, .none, stops⟩

/-! ## Whole runs -/

/-- The pipeline once the passes `names` went through. -/
def noting (pipeline : Pipeline) (names : List String) : Pipeline :=
  if pipeline.recording then { pipeline with completed := pipeline.completed ++ names }
  else pipeline

/-- What comes of a run: either all passes clear, or the first one that stops decides. -/
inductive Ends (pipeline : Pipeline) (module : Module) :
    Except PipelineError Unit × Pipeline × Module → Prop
  | through {next : Module}
      (clear : AllClear pipeline.verifyAfterChanges pipeline.passes module next) :
      Ends pipeline module (.ok (), pipeline.noting pipeline.names, next)
  | stopped {before after : List Pass} {pass : Pass} {between next : Module}
      {error : PipelineError} (split : pipeline.passes = before ++ pass :: after)
      (clear : AllClear pipeline.verifyAfterChanges before module between)
      (stops : pass.Stops pipeline.verifyAfterChanges between error next) :
      Ends pipeline module (.error error, pipeline.noting (before.map Pass.name), next)

variable {pipeline : Pipeline}

theorem run_of_runPasses {outcome : Except PipelineError Unit} {names : List String}
    (runs : runPasses pipeline.verifyAfterChanges pipeline.passes module =
      (outcome, names, next)) :
    pipeline.run module = (outcome, pipeline.noting names, next) := by
  simp only [run, runs, noting]

theorem Ends.run_eq {result : Except PipelineError Unit × Pipeline × Module}
    (ends : pipeline.Ends module result) : pipeline.run module = result := by
  cases ends with
  | through clear => exact run_of_runPasses (runPasses_of_allClear clear)
  | stopped split clear stops =>
      exact run_of_runPasses (by rw [split]; exact runPasses_of_stops clear stops)

theorem exists_ends (pipeline : Pipeline) (module : Module) :
    ∃ result, pipeline.Ends module result := by
  rcases allClear_or_stops pipeline.verifyAfterChanges pipeline.passes module with
    ⟨next, clear⟩ | ⟨before, pass, after, between, error, next, split, clear, stops⟩
  · exact ⟨_, .through clear⟩
  · exact ⟨_, .stopped split clear stops⟩

theorem run_eq_iff {result : Except PipelineError Unit × Pipeline × Module} :
    pipeline.run module = result ↔ pipeline.Ends module result := by
  constructor
  · rintro rfl
    rcases exists_ends pipeline module with ⟨result, ends⟩
    rw [ends.run_eq]
    exact ends
  · exact Ends.run_eq

/-! ## Runs one after another

A pass may keep a state of its own, and then it behaves differently from run to run. So each run
in a history comes with the passes as they are at that time. -/

def afterRuns (pipeline : Pipeline) (history : List (List Pass × Module)) : Pipeline :=
  history.foldl (fun pipeline run => ({ pipeline with passes := run.1 }.run run.2).2.1) pipeline

/-- The passes that go through on a module: those before the first one that stops. -/
def GoThrough (verifying : Bool) (run : List Pass × Module) (names : List String) : Prop :=
  ∃ before between, AllClear verifying before run.2 between ∧ names = before.map Pass.name ∧
    (run.1 = before ∨ ∃ pass after error next, run.1 = before ++ pass :: after ∧
      pass.Stops verifying between error next)

theorem exists_goThrough (pipeline : Pipeline) (passes : List Pass) (module : Module) :
    ∃ names, GoThrough pipeline.verifyAfterChanges (passes, module) names ∧
      ({ pipeline with passes := passes }.run module).2.1 =
        { pipeline with passes := passes }.noting names := by
  rcases exists_ends { pipeline with passes := passes } module with ⟨result, ends⟩
  have runs := ends.run_eq
  cases ends with
  | @through next clear =>
      exact ⟨_, ⟨passes, next, clear, rfl, .inl rfl⟩, congrArg (fun result => result.2.1) runs⟩
  | @stopped before after pass between next error split clear stops =>
      exact ⟨_, ⟨before, between, clear, rfl, .inr ⟨pass, after, error, next, split, stops⟩⟩,
        congrArg (fun result => result.2.1) runs⟩

@[simp] theorem recording_noting (names : List String) :
    (pipeline.noting names).recording = pipeline.recording := by
  unfold noting; split <;> rfl

@[simp] theorem verifyAfterChanges_noting (names : List String) :
    (pipeline.noting names).verifyAfterChanges = pipeline.verifyAfterChanges := by
  unfold noting; split <;> rfl

theorem completed_noting (names : List String) : (pipeline.noting names).completed =
    pipeline.completed ++ (if pipeline.recording then names else []) := by
  unfold noting; split <;> simp

/-- Over a history of runs exactly the passes that went through are recorded, in order. -/
theorem completed_afterRuns (pipeline : Pipeline) (history : List (List Pass × Module)) :
    ∃ names, List.Forall₂ (GoThrough pipeline.verifyAfterChanges) history names ∧
      (pipeline.afterRuns history).completed =
        pipeline.completed ++ (if pipeline.recording then names.flatten else []) := by
  induction history generalizing pipeline with
  | nil => exact ⟨[], .nil, by simp [afterRuns]⟩
  | cons run rest induction =>
      rcases pipeline.exists_goThrough run.1 run.2 with ⟨names, through, runs⟩
      rcases induction ({ pipeline with passes := run.1 }.noting names) with ⟨others, all, same⟩
      rw [verifyAfterChanges_noting] at all
      refine ⟨names :: others, .cons through all, ?_⟩
      have first : pipeline.afterRuns (run :: rest) =
          ({ pipeline with passes := run.1 }.noting names).afterRuns rest := by
        simp only [afterRuns, List.foldl_cons, runs]
      rw [first, same, completed_noting, recording_noting, List.append_assoc]
      split <;> simp

end Pipeline

/-! ## Verified modules -/

/-- A pass that announces no changes makes none when it succeeds. -/
def Pass.Honest (pass : Pass) : Prop :=
  pass.modifies = false → ∀ module next, pass.run module = (.ok (), next) → next = module

theorem Pass.Clears.verified {pass : Pass} {module next : Module}
    (clears : pass.Clears true module next) (honest : pass.Honest)
    (accepted : module.verify = .ok ()) : next.verify = .ok () := by
  rcases clears with ⟨runs, checked⟩
  cases announced : pass.modifies with
  | true => exact checked announced rfl
  | false =>
      rw [honest announced module next runs]
      exact accepted

theorem Pipeline.AllClear.verified {passes : List Pass} {module next : Module}
    (clear : AllClear true passes module next) (honest : ∀ pass ∈ passes, pass.Honest)
    (accepted : module.verify = .ok ()) : next.verify = .ok () := by
  induction clear with
  | none => exact accepted
  | more clears _ induction =>
      refine induction (fun pass member => honest pass (List.mem_cons_of_mem _ member)) ?_
      exact Pass.Clears.verified clears (honest _ List.mem_cons_self) accepted

end ScriptLowering.Code

namespace ScriptLowering.Lowering

open Source (Program)
open Code (Module Pass Pipeline PipelineError)

theorem verify_of_lowerProgram {program : Program} {options : Options} {module : Module}
    (lowers : lowerProgram program options = .ok module) : module.verify = .ok () := by
  rcases Code.bind_eq_ok.mp lowers with ⟨start, _, rest⟩
  rcases Code.bind_eq_ok.mp rest with ⟨⟨_, session⟩, _, rest⟩
  rcases Code.bind_unit_eq_ok.mp rest with ⟨verified, same⟩
  cases same
  exact Code.mapError_eq_ok.mp verified

/-- What is compiled has been lowered and has come through the whole pipeline. -/
theorem compile_eq_ok {program : Program} {options : Options} {pipeline after : Pipeline}
    {module : Module} (compiles : compile program options pipeline = (.ok module, after)) :
    ∃ lowered, lowerProgram program options = .ok lowered ∧
      Pipeline.AllClear pipeline.verifyAfterChanges pipeline.passes lowered module := by
  cases lowers : lowerProgram program options with
  | error error => simp [compile, lowers] at compiles
  | ok lowered =>
      rcases pipeline.exists_ends lowered with ⟨result, ends⟩
      have runs := ends.run_eq
      cases ends with
      | through clear =>
          simp only [compile, lowers, runs, Prod.mk.injEq, Except.ok.injEq] at compiles
          rcases compiles with ⟨rfl, -⟩
          exact ⟨lowered, rfl, clear⟩
      | stopped => simp [compile, lowers, runs] at compiles

/-- A pipeline runs its passes in order up to the first one that stops; nothing behind that one
runs. It records exactly the passes before it, over any history of runs. And if it verifies after
changes and its passes are honest, then whatever is compiled with it is verified. -/
theorem passes_run_to_first_stop (pipeline : Pipeline) :
    (∀ module result, pipeline.run module = result ↔ pipeline.Ends module result) ∧
    (∀ before pass after module between error next,
      Pipeline.AllClear pipeline.verifyAfterChanges before module between →
      pass.Stops pipeline.verifyAfterChanges between error next →
      { pipeline with passes := before ++ pass :: after }.run module =
        (.error error, { pipeline with passes := before ++ pass :: after }.noting
          (before.map Pass.name), next)) ∧
    (∀ history, ∃ names,
      List.Forall₂ (Pipeline.GoThrough pipeline.verifyAfterChanges) history names ∧
      (pipeline.afterRuns history).completed =
        pipeline.completed ++ (if pipeline.recording then names.flatten else [])) ∧
    (pipeline.verifyAfterChanges = true → (∀ pass ∈ pipeline.passes, pass.Honest) →
      ∀ program options module after,
        compile program options pipeline = (.ok module, after) → module.verify = .ok ()) := by
  refine ⟨fun _ _ => Pipeline.run_eq_iff, ?_, pipeline.completed_afterRuns, ?_⟩
  · intro before pass after module between error next clear stops
    have ends : { pipeline with passes := before ++ pass :: after }.Ends module _ :=
      .stopped rfl clear stops
    exact ends.run_eq
  · intro verifying honest program options module after compiles
    rcases compile_eq_ok compiles with ⟨lowered, lowers, clear⟩
    rw [verifying] at clear
    exact clear.verified honest (verify_of_lowerProgram lowers)

/-- A pass that gives the module a longer name, and says so. -/
def renamingPass : Pass where
  name := "rename"
  description := Pass.noDescription
  modifies := true
  run module := (.ok (), { module with name := module.name ++ ".renamed" })

/-- A pipeline that verifies, renames and verifies again. -/
def renamingPipeline : Pipeline where
  passes := [.verifier, renamingPass]
  completed := []
  recording := true
  verifyAfterChanges := true

theorem renamingPipeline_verifies : ∃ module after,
    compile (.empty "blank") .default renamingPipeline = (.ok module, after) ∧
      module.name = "blank.renamed" ∧ module.verify = .ok () := by
  have succeeds : ((compile (.empty "blank") .default renamingPipeline).1.toOption.map
      Module.name) = some "blank.renamed" := by decide +kernel
  rcases compiles : compile (.empty "blank") .default renamingPipeline with ⟨_ | module, after⟩
  · rw [compiles] at succeeds
    cases succeeds
  · rw [compiles] at succeeds
    refine ⟨module, after, rfl, Option.some.inj succeeds, ?_⟩
    refine (passes_run_to_first_stop renamingPipeline).2.2.2 rfl ?_ _ _ module after compiles
    intro pass member silent before next runs
    simp only [renamingPipeline, List.mem_cons, List.not_mem_nil, or_false] at member
    rcases member with rfl | rfl
    · exact (congrArg Prod.snd runs).symm
    · cases silent

end ScriptLowering.Lowering
