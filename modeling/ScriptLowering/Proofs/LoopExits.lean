import Mathlib.Logic.Function.Basic
import ScriptLowering.Proofs.StatementEndings
import ScriptLowering.Proofs.ControlLedger
import ScriptLowering.Proofs.NodeOccurrences
import ScriptLowering.Proofs.WatchedRuns

/-! # Exits and blocks

An exit that is not the end of a statement goes to a block of the loop that it names. So the ways in
which a statement ends say where control is sent while it is lowered.
-/

namespace ScriptLowering.Lowering

open Source (Program ExprId ForInit Stmt StmtId)
open Code (BlockId Ledger)

/-! ## The ends of single statements -/

section Ends

variable {program : Program} {id : StmtId} {exit : Exit}

/-- Control may leave the statement by the exit. -/
def EndsAs (program : Program) (id : StmtId) (exit : Exit) : Prop :=
  ∃ node, program.stmt? id = some node ∧ Ends program (.stmt id node) exit

def Exit.Either (first second : Exit → Prop) (exit : Exit) : Prop :=
  first exit ∧ exit ≠ .normal ∨ first .normal ∧ second exit

/-- The exits of a loop whose body has the exits `ends`, and which ends otherwise if `stops`. -/
def Exit.OfLoop (id : StmtId) (stops : Prop) (ends : Exit → Prop) (exit : Exit) : Prop :=
  exit = .normal ∧ (stops ∨ ends (.broke id)) ∨ ends exit ∧ exit.Passes id

theorem endsAs_iff {node : Stmt} (found : program.stmt? id = some node) :
    EndsAs program id exit ↔ Ends program (.stmt id node) exit := by
  constructor
  · rintro ⟨other, isOther, ends⟩
    cases found.symm.trans isOther
    exact ends
  · exact fun ends => ⟨node, found, ends⟩

theorem ends_compound_nil : Ends program (.stmt id (.compound [])) exit ↔ exit = .normal := by
  constructor
  · rintro ⟨⟩
    rfl
  · rintro rfl
    exact .nothing

theorem ends_compound_cons {head : StmtId} {tail : List StmtId} :
    Ends program (.stmt id (.compound (head :: tail))) exit ↔
      Exit.Either (EndsAs program head) (Ends program (.stmt id (.compound tail))) exit := by
  constructor
  · intro ends
    cases ends with
    | first found leaves early => exact .inl ⟨⟨_, found, leaves⟩, early⟩
    | rest found first leaves => exact .inr ⟨⟨_, found, first⟩, leaves⟩
  · rintro (⟨⟨_, found, leaves⟩, early⟩ | ⟨⟨_, found, first⟩, leaves⟩)
    · exact .first found leaves early
    · exact .rest found first leaves

theorem ends_if_none {thenBody : StmtId} {condition : ExprId} :
    Ends program (.stmt id (.ifThenElse condition thenBody none)) exit ↔
      EndsAs program thenBody exit ∨ exit = .normal := by
  constructor
  · intro ends
    cases ends with
    | thenBody found leaves => exact .inl ⟨_, found, leaves⟩
    | noElse => exact .inr rfl
  · rintro (⟨_, found, leaves⟩ | rfl)
    · exact .thenBody found leaves
    · exact .noElse

theorem ends_if_some {thenBody elseBody : StmtId} {condition : ExprId} :
    Ends program (.stmt id (.ifThenElse condition thenBody (some elseBody))) exit ↔
      EndsAs program thenBody exit ∨ EndsAs program elseBody exit := by
  constructor
  · intro ends
    cases ends with
    | thenBody found leaves => exact .inl ⟨_, found, leaves⟩
    | elseBody found leaves => exact .inr ⟨_, found, leaves⟩
  · rintro (⟨_, found, leaves⟩ | ⟨_, found, leaves⟩)
    · exact .thenBody found leaves
    · exact .elseBody found leaves

theorem ends_while {condition : ExprId} {body : StmtId} :
    Ends program (.stmt id (.whileLoop condition body)) exit ↔
      Exit.OfLoop id True (EndsAs program body) exit := by
  constructor
  · intro ends
    cases ends with
    | whileFails => exact .inl ⟨rfl, .inl trivial⟩
    | whileBody found leaves passes => exact .inr ⟨⟨_, found, leaves⟩, passes⟩
  · rintro (⟨rfl, _⟩ | ⟨⟨_, found, leaves⟩, passes⟩)
    · exact .whileFails
    · exact .whileBody found leaves passes

theorem ends_for {initial : ForInit} {condition : Option ExprId} {updates : List ExprId}
    {body : StmtId} :
    Ends program (.stmt id (.forLoop initial condition updates body)) exit ↔
      Exit.Either (Ends program (.initial initial))
        (Exit.OfLoop id (condition ≠ none) (EndsAs program body)) exit := by
  constructor
  · intro ends
    cases ends with
    | forInitial leaves early => exact .inl ⟨leaves, early⟩
    | forFails starts => exact .inr ⟨starts, .inl ⟨rfl, .inl (by simp)⟩⟩
    | forBroke starts found leaves => exact .inr ⟨starts, .inl ⟨rfl, .inr ⟨_, found, leaves⟩⟩⟩
    | forBody starts found leaves passes => exact .inr ⟨starts, .inr ⟨⟨_, found, leaves⟩, passes⟩⟩
  · rintro (⟨leaves, early⟩ | ⟨starts, ⟨rfl, stops | ⟨_, found, leaves⟩⟩ |
      ⟨⟨_, found, leaves⟩, passes⟩⟩)
    · exact .forInitial leaves early
    · cases condition with
      | none => exact absurd rfl stops
      | some condition => exact .forFails starts
    · exact .forBroke starts found leaves
    · exact .forBody starts found leaves passes

theorem ends_initial_decl {stmt : StmtId} :
    Ends program (.initial (.decl stmt)) exit ↔ EndsAs program stmt exit := by
  constructor
  · intro ends
    cases ends with
    | initialDecl found leaves => exact ⟨_, found, leaves⟩
  · rintro ⟨_, found, leaves⟩
    exact .initialDecl found leaves

theorem ends_initial_exprs {exprs : List ExprId} :
    Ends program (.initial (.exprs exprs)) exit ↔ exit = .normal := by
  constructor
  · rintro ⟨⟩
    rfl
  · rintro rfl
    exact .initialExprs

end Ends

@[simp] theorem Exit.normal_either (ends : Exit → Prop) :
    Exit.Either (· = .normal) ends = ends := by
  funext exit
  simp [Exit.Either]

@[simp] theorem Exit.either_normal (ends : Exit → Prop) :
    Exit.Either ends (· = .normal) = ends := by
  funext exit
  by_cases normal : exit = .normal <;> simp [Exit.Either, normal]

/-! ## Where exits lead -/

def Exit.target? : Exit → Option StmtId
  | .normal => none
  | .broke target | .continued target => some target

/-- The block that control is sent to. -/
def Exit.goesTo? (loops : StmtId → LoopBlocks) : Exit → Option BlockId
  | .normal => none
  | .broke target => some (loops target).exit
  | .continued target => some (loops target).continueTarget

/-- One of the exits sends control to the block. -/
def Jumps (loops : StmtId → LoopBlocks) (ends : Exit → Prop) (block : BlockId) : Prop :=
  ∃ exit, ends exit ∧ exit.goesTo? loops = some block

section Jumps

variable {loops : StmtId → LoopBlocks} {ends first second : Exit → Prop} {block : BlockId}
  {id : StmtId} {blocks : LoopBlocks}

theorem not_jumps_normal : ¬ Jumps loops (· = .normal) block := by
  rintro ⟨_, rfl, goes⟩
  cases goes

theorem jumps_or : Jumps loops (fun exit => first exit ∨ second exit) block ↔
    Jumps loops first block ∨ Jumps loops second block := by
  simp only [Jumps, or_and_right, exists_or]

theorem jumps_either : Jumps loops (Exit.Either first second) block ↔
    Jumps loops first block ∨ first .normal ∧ Jumps loops second block := by
  constructor
  · rintro ⟨exit, ⟨leaves, _⟩ | ⟨goesOn, leaves⟩, goes⟩
    · exact .inl ⟨exit, leaves, goes⟩
    · exact .inr ⟨goesOn, exit, leaves, goes⟩
  · rintro (⟨exit, leaves, goes⟩ | ⟨goesOn, exit, leaves, goes⟩)
    · exact ⟨exit, .inl ⟨leaves, by rintro rfl; cases goes⟩, goes⟩
    · exact ⟨exit, .inr ⟨goesOn, leaves⟩, goes⟩

theorem Exit.goesTo?_update {exit : Exit} (passes : exit.Passes id) :
    exit.goesTo? (Function.update loops id blocks) = exit.goesTo? loops := by
  rcases passes with ⟨_, notBroke, notContinued⟩
  cases exit with
  | normal => rfl
  | broke target =>
      have different : target ≠ id := fun same => notBroke (congrArg Exit.broke same)
      simp [goesTo?, Function.update_of_ne different]
  | continued target =>
      have different : target ≠ id := fun same => notContinued (congrArg Exit.continued same)
      simp [goesTo?, Function.update_of_ne different]

theorem jumps_ofLoop (notExit : block ≠ blocks.exit) (notNext : block ≠ blocks.continueTarget)
    (stops : Prop) : Jumps (Function.update loops id blocks) ends block ↔
      Jumps loops (Exit.OfLoop id stops ends) block := by
  constructor
  · rintro ⟨exit, leaves, goes⟩
    have passes : exit.Passes id := by
      refine ⟨?_, ?_, ?_⟩
      · rintro rfl
        cases goes
      · rintro rfl
        simp only [Exit.goesTo?, Function.update_self] at goes
        exact notExit (Option.some.inj goes).symm
      · rintro rfl
        simp only [Exit.goesTo?, Function.update_self] at goes
        exact notNext (Option.some.inj goes).symm
    exact ⟨exit, .inr ⟨leaves, passes⟩, (Exit.goesTo?_update passes).symm.trans goes⟩
  · rintro ⟨exit, ⟨rfl, _⟩ | ⟨leaves, passes⟩, goes⟩
    · cases goes
    · exact ⟨exit, leaves, (Exit.goesTo?_update passes).trans goes⟩

theorem jumps_exit (apart : blocks.exit ≠ blocks.continueTarget)
    (fresh : ∀ exit target, ends exit → exit.target? = some target → target ≠ id →
      (loops target).exit ≠ blocks.exit ∧ (loops target).continueTarget ≠ blocks.exit) :
    Jumps (Function.update loops id blocks) ends blocks.exit ↔ ends (.broke id) := by
  constructor
  · rintro ⟨exit, leaves, goes⟩
    cases exit with
    | normal => cases goes
    | broke target =>
        by_cases same : target = id
        · exact same ▸ leaves
        · simp only [Exit.goesTo?, Function.update_of_ne same, Option.some.injEq] at goes
          exact absurd goes (fresh _ target leaves rfl same).1
    | continued target =>
        by_cases same : target = id
        · subst same
          simp only [Exit.goesTo?, Function.update_self, Option.some.injEq] at goes
          exact absurd goes.symm apart
        · simp only [Exit.goesTo?, Function.update_of_ne same, Option.some.injEq] at goes
          exact absurd goes (fresh _ target leaves rfl same).2
  · intro leaves
    exact ⟨_, leaves, by simp [Exit.goesTo?]⟩

end Jumps

/-! ## Jumps in their loops -/

/-- All jumps name loops around them. -/
def Enclosed (program : Program) (occurring : List (Setting × Node)) : Prop :=
  ∀ setting node target, (setting, node) ∈ occurring → node.jumpsTo? program = some target →
    target ∈ setting.loops

theorem enclosed_iff {program : Program} {occurring : List (Setting × Node)} :
    Enclosed program occurring ↔ ∀ pair ∈ occurring, ∀ target ∈ pair.2.jumpsTo? program,
      target ∈ pair.1.loops :=
  ⟨fun enclosed pair member target jumps => enclosed pair.1 pair.2 target member jumps,
    fun all setting node target member jumps => all (setting, node) member target jumps⟩

instance (program : Program) (occurring : List (Setting × Node)) :
    Decidable (Enclosed program occurring) :=
  decidable_of_iff _ enclosed_iff.symm

theorem Enclosed.mono {program : Program} {occurring fewer : List (Setting × Node)}
    (enclosed : Enclosed program occurring) (subset : fewer ⊆ occurring) : Enclosed program fewer :=
  fun setting node target member => enclosed setting node target (subset member)

section Enclosed

variable {program : Program} {depth : Nat} {setting : Setting} {id : StmtId} {stmt : Stmt}

theorem occurrencesWithin_eq (found : program.stmt? id = some stmt) :
    occurrencesWithin program (depth + 1) setting id = (setting, .stmt id) ::
      occurrencesOf program (occurrencesWithin program depth) setting id stmt := by
  simp only [occurrencesWithin, found]

/-- The parts of a statement in their settings. -/
def parts (program : Program) (setting : Setting) (id : StmtId) : Stmt → List (Setting × StmtId)
  | .compound stmts => stmts.map fun child => (setting, child)
  | .functionDecl func => (program.function? func).toList.map fun decl =>
      (.inFunction func, decl.body)
  | .ifThenElse _ thenBody elseBody =>
      (setting, thenBody) :: elseBody.toList.map fun child => (setting, child)
  | .whileLoop _ body => [(setting.inLoop id, body)]
  | .forLoop (.decl child) _ _ body => [(setting, child), (setting.inLoop id, body)]
  | .forLoop (.exprs _) _ _ body => [(setting.inLoop id, body)]
  | .expr _ | .varDecl _ | .continueLoop _ | .breakLoop _ | .returnValue _ => []

theorem occurrencesWithin_parts (found : program.stmt? id = some stmt)
    {inner : Setting} {child : StmtId} (member : (inner, child) ∈ parts program setting id stmt) :
    occurrencesWithin program depth inner child ⊆
      occurrencesWithin program (depth + 1) setting id := by
  rw [occurrencesWithin_eq found]
  refine List.subset_cons_of_subset _ fun pair occurs => ?_
  cases stmt with
  | compound stmts =>
      simp only [parts, List.mem_map, Prod.mk.injEq] at member
      rcases member with ⟨_, isChild, rfl, rfl⟩
      exact List.mem_flatMap.mpr ⟨_, isChild, occurs⟩
  | functionDecl func =>
      simp only [parts, List.mem_map, Option.mem_toList, Prod.mk.injEq] at member
      rcases member with ⟨decl, known, rfl, rfl⟩
      simp [occurrencesOf, occurrencesOfFunction, known, occurs]
  | ifThenElse condition thenBody elseBody =>
      cases elseBody with
      | none =>
          simp only [parts, Option.toList_none, List.map_nil, List.mem_singleton,
            Prod.mk.injEq] at member
          rcases member with ⟨rfl, rfl⟩
          simp [occurrencesOf, occurs]
      | some elseBody =>
          simp only [parts, Option.toList_some, List.map_cons, List.map_nil, List.mem_cons,
            Prod.mk.injEq, List.not_mem_nil, or_false] at member
          rcases member with ⟨rfl, rfl⟩ | ⟨rfl, rfl⟩ <;> simp [occurrencesOf, occurs]
  | whileLoop condition body =>
      simp only [parts, List.mem_singleton, Prod.mk.injEq] at member
      rcases member with ⟨rfl, rfl⟩
      simp [occurrencesOf, occurs]
  | forLoop initial condition updates body =>
      cases initial with
      | decl stmt =>
          simp only [parts, List.mem_cons, Prod.mk.injEq, List.not_mem_nil, or_false] at member
          rcases member with ⟨rfl, rfl⟩ | ⟨rfl, rfl⟩ <;>
            simp [occurrencesOf, occurrencesOfInit, occurs]
      | exprs exprs =>
          simp only [parts, List.mem_singleton, Prod.mk.injEq] at member
          rcases member with ⟨rfl, rfl⟩
          simp [occurrencesOf, occurs]
  | expr | varDecl | continueLoop | breakLoop | returnValue => cases member

theorem Enclosed.part
    (enclosed : Enclosed program (occurrencesWithin program (depth + 1) setting id))
    (found : program.stmt? id = some stmt) {inner : Setting} {child : StmtId}
    (member : (inner, child) ∈ parts program setting id stmt) :
    Enclosed program (occurrencesWithin program depth inner child) :=
  enclosed.mono (occurrencesWithin_parts found member)

theorem Enclosed.target_mem
    (enclosed : Enclosed program (occurrencesWithin program (depth + 1) setting id))
    (found : program.stmt? id = some stmt) {target : StmtId}
    (jumps : jumpTarget? stmt = some target) : target ∈ setting.loops := by
  refine enclosed setting (.stmt id) target ?_ (by simp [Node.jumpsTo?, found, jumps])
  rw [occurrencesWithin_eq found]
  exact List.mem_cons_self

/-- A statement is left for the loops around it only. -/
theorem Enclosed.exits (enclosed : Enclosed program (occurrencesWithin program depth setting id))
    (within : EndsWithin program depth id) {exit : Exit} (ends : EndsAs program id exit)
    {target : StmtId} (names : exit.target? = some target) : target ∈ setting.loops := by
  induction depth generalizing setting id exit with
  | zero => exact within.elim
  | succ depth induction =>
      rcases within with ⟨stmt, found, inner⟩
      have leaves := (endsAs_iff found).mp ends
      have child : ∀ {inner : Setting} {child : StmtId} {exit : Exit},
          (inner, child) ∈ parts program setting id stmt → child ∈ children program stmt →
          EndsAs program child exit → exit.target? = some target → target ∈ inner.loops :=
        fun isPart isChild ends names => induction (enclosed.part found isPart) (inner _ isChild)
          ends names
      have body : ∀ {stops : Prop} {body : StmtId},
          (setting.inLoop id, body) ∈ parts program setting id stmt →
          body ∈ children program stmt → Exit.OfLoop id stops (EndsAs program body) exit →
          target ∈ setting.loops := by
        rintro stops body isPart isChild (⟨rfl, _⟩ | ⟨leaves, _, notBroke, notContinued⟩)
        · cases names
        · rcases List.mem_cons.mp (child isPart isChild leaves names) with rfl | member
          · cases exit with
            | normal => cases names
            | broke other => exact absurd (congrArg Exit.broke (Option.some.inj names)) notBroke
            | continued other =>
                exact absurd (congrArg Exit.continued (Option.some.inj names)) notContinued
          · exact member
      cases stmt with
      | expr | varDecl | functionDecl =>
          cases leaves
          cases names
      | returnValue => cases leaves
      | continueLoop other =>
          cases leaves
          exact enclosed.target_mem found names
      | breakLoop other =>
          cases leaves
          exact enclosed.target_mem found names
      | compound stmts =>
          have members : ∀ child ∈ stmts, ∀ {exit : Exit}, EndsAs program child exit →
              exit.target? = some target → target ∈ setting.loops := fun other isChild =>
            child (by simp [parts, isChild]) (by simp [children, isChild])
          clear child body inner found
          induction stmts with
          | nil =>
              rw [ends_compound_nil] at leaves
              rw [leaves] at names
              cases names
          | cons head tail ends =>
              rcases ends_compound_cons.mp leaves with ⟨first, _⟩ | ⟨_, rest⟩
              · exact members head List.mem_cons_self first names
              · exact ends rest fun other isChild => members other (List.mem_cons_of_mem _ isChild)
      | ifThenElse condition thenBody elseBody =>
          cases elseBody with
          | none =>
              rcases ends_if_none.mp leaves with first | rfl
              · exact child (by simp [parts]) (by simp [children]) first names
              · cases names
          | some elseBody =>
              rcases ends_if_some.mp leaves with first | second
              · exact child (by simp [parts]) (by simp [children]) first names
              · exact child (by simp [parts]) (by simp [children]) second names
      | whileLoop condition loopBody =>
          exact body (by simp [parts]) (by simp [children]) (ends_while.mp leaves)
      | forLoop initial condition updates loopBody =>
          have isPart : (setting.inLoop id, loopBody) ∈
              parts program setting id (.forLoop initial condition updates loopBody) := by
            cases initial <;> simp [parts]
          have isChild : loopBody ∈
              children program (.forLoop initial condition updates loopBody) := by
            cases initial <;> simp [children]
          rcases ends_for.mp leaves with ⟨first, _⟩ | ⟨_, loop⟩
          · cases initial with
            | decl stmt =>
                exact child (by simp [parts]) (by simp [children]) (ends_initial_decl.mp first)
                  names
            | exprs exprs =>
                rw [ends_initial_exprs] at first
                rw [first] at names
                cases names
          · exact body isPart isChild loop

end Enclosed

end ScriptLowering.Lowering
