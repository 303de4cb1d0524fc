import ScriptLowering.Proofs.LockstepRuns

/-! # Names of variables

Variables are found by their declaration and functions by their name. The names of variables are
handed on to parameters and globals, where only a reader looks at them: programs that differ in
nothing else are lowered to modules that differ in nothing else.
-/

namespace ScriptLowering.Source

/-- The program with all names of variables erased. -/
def Program.nameless (program : Program) : Program :=
  { program with
    exprs := program.exprs.map Expr.nameless
    vars := program.vars.map (VarDecl.rename fun _ => "") }

theorem Program.resembles_nameless (program : Program) :
    program.Resembles (fun _ => "") program.nameless where
  stmts := rfl
  functions := rfl
  exprs := by
    have twice : Expr.nameless ∘ Expr.nameless = Expr.nameless := by
      funext expr
      rcases expr with ⟨node, ty⟩
      cases node <;> rfl
    simp only [nameless, Array.map_map, twice]
  vars := by
    simp only [nameless, Array.map_map]
    rfl

end ScriptLowering.Source

namespace ScriptLowering.Code

/-- The function with the names of its parameters erased. -/
def Function.nameless (function : Function) : Function :=
  { function with signature := function.signature.rename fun _ => "" }

/-- The module with the names of parameters and globals erased. -/
def Module.nameless (module : Module) : Module :=
  { module with
    functions := module.functions.mapValues Function.nameless
    globals := module.globals.mapValues (Global.rename fun _ => "") }

theorem Module.function?_nameless (module : Module) (name : String) :
    module.nameless.function? name = (module.function? name).map Function.nameless :=
  Table.get?_mapValues _ _ _

theorem Module.function?_of_nameless {module other : Module}
    (same : other.nameless = module.nameless) {α : Type} (read : Function → α) (name : String) :
    (other.function? name).map (read ∘ Function.nameless) =
      (module.function? name).map (read ∘ Function.nameless) := by
  rw [← Option.map_map, ← Option.map_map, ← function?_nameless, same, function?_nameless]

theorem Module.tables_of_nameless {module other : Module}
    (same : other.nameless = module.nameless) :
    other.data = module.data ∧ other.nextData = module.nextData ∧
      other.nextGlobal = module.nextGlobal ∧
      other.globals.mapValues (Global.rename fun _ => "") =
        module.globals.mapValues (Global.rename fun _ => "") := by
  simp only [nameless, Module.mk.injEq] at same
  exact ⟨same.2.2.2.1, same.2.2.2.2.2, same.2.2.2.2.1, same.2.2.1⟩

theorem Module.names_of_nameless {module other : Module}
    (same : other.nameless = module.nameless) :
    other.name = module.name ∧ other.functions.keys = module.functions.keys := by
  simp only [nameless, Module.mk.injEq] at same
  exact ⟨same.1, by simpa using congrArg Table.keys same.2.1⟩

theorem Module.contains_nameless (module : Module) (name : String) :
    module.nameless.functions.contains name = module.functions.contains name :=
  Table.contains_mapValues _ _ _

theorem Module.declare_nameless {module other : Module} (same : other.nameless = module.nameless)
    {signature renamed : Signature}
    (renames : (renamed.rename fun _ => "") = signature.rename fun _ => "") (linkage : Linkage) :
    (other.declare renamed linkage).map Module.nameless =
      (module.declare signature linkage).map Module.nameless := by
  have names : (renamed.rename fun _ => "").name = (signature.rename fun _ => "").name := by
    rw [renames]
  simp only [Signature.rename] at names
  have known : other.functions.contains signature.name =
      module.functions.contains signature.name := by
    rw [← contains_nameless, same, contains_nameless]
  simp only [Module.declare, names, known]
  split
  · rfl
  · have functions := congrArg Module.functions same
    simp only [nameless, Module.mk.injEq] at same functions
    simp only [Except.map, nameless, Table.mapValues_insert, functions, same, Function.nameless,
      Function.declared, renames]

theorem Module.data_addTexts {module other : Module} (data : other.data = module.data)
    (next : other.nextData = module.nextData) (texts : List String) :
    (other.addTexts texts).data = (module.addTexts texts).data ∧
      (other.addTexts texts).nextData = (module.addTexts texts).nextData := by
  induction texts generalizing module other with
  | nil => exact ⟨data, next⟩
  | cons text rest induction =>
      refine induction ?_ ?_
      · simp only [addText, addData, data, next]
      · simp only [addText, addData, next]

end ScriptLowering.Code

namespace ScriptLowering.Lowering

open Source (Program FunctionDecl VarDecl)
open Code (Body Module Parameter Place Signature)

/-! ## Declarations -/

theorem except_mapM_map {ε α β γ : Type} (step : α → Except ε β) (convert : β → γ)
    (items : List α) :
    items.mapM (fun item => (step item).map convert) =
      (items.mapM step).map (List.map convert) := by
  induction items with
  | nil => rfl
  | cons item rest induction =>
      rw [List.mapM_cons, List.mapM_cons, induction]
      cases step item with
      | error error => rfl
      | ok value => cases rest.mapM step <;> rfl

theorem liftBuild_map {α β : Type} (step : Except Code.BuildError α) (convert : α → β) :
    (liftBuild step).map convert = liftBuild (step.map convert) := by
  cases step <;> rfl

section Declaring

variable (program : Program) {module other : Module} (same : other.nameless = module.nameless)

theorem declaredParam_nameless (id : Source.VarId) :
    declaredParam program.nameless id =
      (declaredParam program id).map (Parameter.rename fun _ => "") := by
  have found : program.nameless.var? id =
      (program.var? id).map (VarDecl.rename fun _ => "") := by
    simp [Program.nameless, Program.var?]
  simp only [declaredParam, found]
  cases program.var? id <;> rfl

include same

theorem declareFunction_nameless (decl : FunctionDecl) :
    (declareFunction program.nameless other decl).map Module.nameless =
      (declareFunction program module decl).map Module.nameless := by
  have known : (other.function? decl.name).isSome = (module.function? decl.name).isSome := by
    have found := congrArg (fun module => (module.function? decl.name).isSome) same
    simpa only [Module.function?_nameless, Option.isSome_map] using found
  have params : decl.params.mapM (declaredParam program.nameless) =
      (decl.params.mapM (declaredParam program)).map (List.map (Parameter.rename fun _ => "")) := by
    rw [← except_mapM_map]
    congr 1
    funext id
    exact declaredParam_nameless program id
  simp only [declareFunction, known, params]
  split
  · rfl
  · cases decl.params.mapM (declaredParam program) with
    | error error => rfl
    | ok params =>
        let signature : Signature := ⟨decl.name, params, returnType decl.returns⟩
        have renames : ((signature.rename fun _ => "").rename fun _ => "") =
            signature.rename fun _ => "" := by
          simp [Signature.rename, Parameter.rename, Function.comp_def]
        have declares := Module.declare_nameless same renames .exported
        change (liftBuild (other.declare (signature.rename fun _ => "") .exported)).map _ =
          (liftBuild (module.declare signature .exported)).map _
        rw [liftBuild_map, liftBuild_map, declares]

theorem declareFunctions_nameless (decls : List FunctionDecl) :
    (decls.foldlM (declareFunction program.nameless) other).map Module.nameless =
      (decls.foldlM (declareFunction program) module).map Module.nameless := by
  induction decls generalizing module other with
  | nil => exact congrArg Except.ok same
  | cons decl rest induction =>
      have declares := declareFunction_nameless program same decl
      rw [List.foldlM_cons, List.foldlM_cons]
      revert declares
      generalize declareFunction program.nameless other decl = declared
      generalize declareFunction program module decl = plain
      intro declares
      cases declared with
      | error error =>
          cases plain with
          | error _ =>
              cases declares
              rfl
          | ok _ => cases declares
      | ok next =>
          cases plain with
          | error _ => cases declares
          | ok _ => exact induction (Except.ok.inj declares)

end Declaring

theorem declareAll_nameless (program : Program) (options : Options) :
    (declareAll program.nameless options).map Module.nameless =
      (declareAll program options).map Module.nameless := by
  simp only [declareAll, show program.nameless.filename = program.filename from rfl,
    show program.nameless.functions = program.functions from rfl]
  rcases StringLibrary.declare (.empty program.filename) with ⟨declared, module⟩
  cases liftBuild declared with
  | error error => rfl
  | ok _ =>
      simp only [bind, Except.bind]
      cases liftBuild (module.declare ⟨options.entryFunction, [], .i64⟩ .exported) with
      | error error => rfl
      | ok next => exact declareFunctions_nameless program rfl _

/-! ## Two runs -/

/-- What a run starts from, with the cursor already in the entry function. -/
def entrySession (entry : String) (module : Module) : Session :=
  (Session.start (.ofModule module)).inFunction entry

theorem counts_entrySession {program : Program} {entry : String} {module : Module}
    (declared : Declared program entry module) : (entrySession entry module).Counts where
  next := by
    change module.nextData = module.data.size.toUInt32
    rw [declared.tables.nextData, declared.tables.data]
    rfl
  below := by
    intro id member
    change id ∈ module.data.keys at member
    rw [declared.tables.data] at member
    cases member
  few := by
    change module.data.size ≤ 0
    rw [declared.tables.data]
    exact Nat.le_refl 0

/-- The names of variables aside, both runs may look at everything and write everything. -/
def namesLink (entry : String) (module other : Module) (same : other.nameless = module.nameless) :
    Link where
  left := entrySession entry module
  right := entrySession entry other
  change := id
  view := fun _ => ""
  common := ⟨fun _ => True, fun _ => True, fun _ => True, fun _ => True⟩
  own := ⟨fun name => (module.function? name).isSome, fun _ => True, fun _ => True, fun _ => True⟩
  grows := True
  within := ⟨fun _ _ => trivial, fun _ _ => trivial, fun _ _ => trivial, fun _ _ => trivial⟩
  headings := by
    exact Module.function?_of_nameless same Code.Function.heading
  known := fun name isOwn => Option.isSome_iff_exists.mp isOwn
  shifts := by
    intro count _ _
    change Code.DataId.mk (module.data.size + count).toUInt32 =
      ⟨(other.data.size + count).toUInt32⟩
    rw [(Module.tables_of_nameless same).1]

section Running

variable {program : Program} {options : Options} {module other : Module}
  (same : other.nameless = module.nameless)
  (declared : Declared program options.entryFunction module)
  (otherDeclared : Declared program.nameless options.entryFunction other)

include declared

theorem namesLink_allows (node : Node) :
    (namesLink options.entryFunction module other same).Allows program node := by
  cases node with
  | stmt id => exact ⟨fun _ _ _ => trivial, fun _ _ => trivial⟩
  | expr id => exact ⟨fun _ => trivial, fun _ _ => trivial⟩
  | var id => exact ⟨trivial, fun _ _ _ => trivial⟩
  | param id => trivial
  | function id =>
      intro decl found
      rcases declared.functions id decl found with ⟨signature, _, known⟩
      exact Option.isSome_iff_exists.mpr ⟨_, known⟩

include otherDeclared

theorem namesLink_starts :
    (namesLink options.entryFunction module other same).Matches options.entryFunction
      (entrySession options.entryFunction module) (entrySession options.entryFunction other) := by
  have bodies : ∀ name, (other.function? name).map Code.Function.body =
      (module.function? name).map Code.Function.body :=
    Module.function?_of_nameless same Code.Function.body
  rcases Module.tables_of_nameless same with ⟨_, _, next, globals⟩
  refine Link.matches_start ⟨⟨.empty, none⟩, ?_, ?_⟩ ?_ (fun name _ => ?_) (fun _ _ => rfl)
    (fun _ _ => rfl) (fun _ _ => rfl) (fun _ => ⟨globals, next⟩) (counts_entrySession declared)
    (counts_entrySession otherDeclared)
  · exact ⟨rfl, _, declared.start, rfl⟩
  · exact ⟨rfl, _, otherDeclared.start, rfl⟩
  · exact Option.isSome_iff_exists.mpr ⟨_, declared.start⟩
  · have relabels : (fun function : Code.Function => function.body.relabel id) =
        Code.Function.body := funext fun function => function.body.relabel_id
    rw [show (namesLink options.entryFunction module other same).change = id from rfl, relabels]
    exact bodies name

/-- Both runs end in modules that differ in names at most, or fail in the same way. -/
theorem lowerItems_nameless :
    (namesLink options.entryFunction module other same).Outcome options.entryFunction Link.Anyhow
      (lowerItems program (finishFunction options) options.entryFunction
        (.start (.ofModule module)))
      (lowerItems program.nameless (finishFunction options) options.entryFunction
        (.start (.ofModule other))) := by
  rcases Module.tables_of_nameless same with ⟨data, next, _⟩
  have known : ∀ texts id, (other.addTexts texts).data.contains id =
      (module.addTexts texts).data.contains id := by
    intro texts id
    rw [(Module.data_addTexts data next texts).1]
  have finishes : ∀ name, (namesLink options.entryFunction module other same).own.functions name →
      (namesLink options.entryFunction module other same).Alike name Link.Anyhow
        (finishFunction options name) (finishFunction options name) :=
    fun _ isOwn => Link.alike_finishFunction trivial known isOwn
  have starts := namesLink_starts same declared otherDeclared
  rw [lowerItems_eq_build, lowerItems_eq_build]
  refine Link.leads_buildFunction finishes starts.inside ?_ (entrySession _ module)
    (entrySession _ other) starts
  exact (Link.alike_lowerStmts program.resembles_nameless finishes fun node _ =>
    namesLink_allows same declared node).bind fun _ _ _ => Link.Leads.returnIfLive _

end Running

theorem nameless_eq_of_matches {entry current : String} {module other : Module}
    (same : other.nameless = module.nameless) {first second : Session}
    (agree : (namesLink entry module other same).Matches current first second) :
    second.cursor.module.nameless = first.cursor.module.nameless := by
  rcases Module.names_of_nameless same with ⟨names, keys⟩
  rcases Module.tables_of_nameless same with ⟨data, next, _⟩
  have functions : second.cursor.module.functions.mapValues Code.Function.nameless =
      first.cursor.module.functions.mapValues Code.Function.nameless := by
    apply Table.ext_get?
    · rw [Table.keys_mapValues, Table.keys_mapValues, agree.firstHeadings.names,
        agree.secondHeadings.names]
      exact keys
    · intro name
      rw [Table.get?_mapValues, Table.get?_mapValues]
      have counterpart := agree.function_counterpart name trivial
      simp only [Code.Module.function?] at counterpart
      revert counterpart
      generalize first.cursor.module.functions.get? name = function
      generalize second.cursor.module.functions.get? name = mirrored
      rintro (⟨signature, linkage, body⟩ | _)
      · simp only [Option.map_some, Code.Function.nameless]
        exact congrArg some (Code.Function.mk.injEq .. |>.mpr
          ⟨signature, linkage, body.trans (Body.relabel_id _)⟩)
      · rfl
  rcases agree.texts with ⟨texts, ⟨firstData, firstNext, _⟩, secondData, secondNext, _⟩
  have added := Module.data_addTexts data next texts
  simp only [Module.nameless, Module.mk.injEq]
  refine ⟨?_, functions, (agree.globals trivial).1, ?_, (agree.globals trivial).2, ?_⟩
  · rw [agree.firstHeadings.name, agree.secondHeadings.name]
    exact names
  · rw [firstData, secondData]
    exact added.1
  · rw [firstNext, secondNext]
    exact added.2

/-! ## Programs -/

/-- What is left of the outcome of a run when names are erased: the module, or the way in which
the run failed. -/
def outline (result : Except Error Module) : Except ErrorVariant Module :=
  (result.map Module.nameless).mapError Error.variant

theorem outline_error_eq {error other : Error} (same : other.variant = error.variant) :
    outline (.error other) = outline (.error error) :=
  congrArg Except.error same

theorem outline_bind {first second : Except Error Module} {rest otherRest : Module → Except Error Module}
    (same : second.map Module.nameless = first.map Module.nameless)
    (leads : ∀ module other, first = .ok module → second = .ok other →
      other.nameless = module.nameless → outline (otherRest other) = outline (rest module)) :
    outline (second >>= otherRest) = outline (first >>= rest) := by
  cases first with
  | error error =>
      cases second with
      | error other =>
          cases same
          rfl
      | ok other => cases same
  | ok module =>
      cases second with
      | error other => cases same
      | ok other => exact leads module other rfl rfl (Except.ok.inj same)

/-- The module of a session, if it is verified. -/
def verifiedModule (result : Except Error (Unit × Session)) : Except Error Module := do
  let (_, session) ← result
  session.cursor.module.verify.mapError .rejected
  return session.cursor.module

theorem lowerProgram_eq_bind (program : Program) (options : Options) :
    lowerProgram program options = declareAll program options >>= fun module =>
      verifiedModule (lowerItems program (finishFunction options) options.entryFunction
        (.start (.ofModule module))) :=
  rfl

theorem outline_verifiedModule {entry current : String} {module other : Module}
    (same : other.nameless = module.nameless) {first second : Except Error (Unit × Session)}
    (outcome : (namesLink entry module other same).Outcome current Link.Anyhow first second) :
    outline (verifiedModule second) = outline (verifiedModule first) := by
  cases outcome with
  | failed variants => exact outline_error_eq variants
  | @done _ _ first second _ agree =>
      have known : ∀ texts id, (other.addTexts texts).data.contains id =
          (module.addTexts texts).data.contains id := by
        intro texts id
        rcases Module.tables_of_nameless same with ⟨data, next, _⟩
        rw [(Module.data_addTexts data next texts).1]
      have verified := agree.verify_iff trivial known fun _ => trivial
      have nameless := nameless_eq_of_matches same agree
      simp only [verifiedModule, bind, Except.bind]
      cases firstVerified : first.cursor.module.verify with
      | ok _ =>
          rw [verified.mpr firstVerified]
          exact congrArg Except.ok nameless
      | error rejection =>
          cases secondVerified : second.cursor.module.verify with
          | ok _ =>
              rw [verified.mp secondVerified] at firstVerified
              cases firstVerified
          | error otherRejection => exact outline_error_eq rfl

theorem lowerProgram_nameless (program : Program) (options : Options) :
    outline (lowerProgram program.nameless options) = outline (lowerProgram program options) := by
  rw [lowerProgram_eq_bind, lowerProgram_eq_bind]
  refine outline_bind (declareAll_nameless program options) fun module other declares renamed same => ?_
  exact outline_verifiedModule same (lowerItems_nameless same (declared_of_declareAll declares)
    (declared_of_declareAll renamed))

/-- Programs that differ in the names of variables only are lowered to modules that differ in the
names of parameters and globals only, or both fail in the same way. -/
theorem variable_names_do_not_matter {program other : Program}
    (same : other.nameless = program.nameless) (options : Options) :
    (∃ error otherError, (compile program options .empty).1 = .error error ∧
      (compile other options .empty).1 = .error otherError ∧
        otherError.variant = error.variant) ∨
    ∃ module otherModule, (compile program options .empty).1 = .ok module ∧
      (compile other options .empty).1 = .ok otherModule ∧
        otherModule.nameless = module.nameless := by
  have outlines : outline (lowerProgram other options) = outline (lowerProgram program options) := by
    rw [← lowerProgram_nameless, same, lowerProgram_nameless]
  rw [compile_empty, compile_empty]
  revert outlines
  generalize lowerProgram program options = result
  generalize lowerProgram other options = otherResult
  intro outlines
  cases result with
  | error error =>
      cases otherResult with
      | error otherError => exact .inl ⟨error, otherError, rfl, rfl, Except.error.inj outlines⟩
      | ok otherModule => cases outlines
  | ok module =>
      cases otherResult with
      | error otherError => cases outlines
      | ok otherModule => exact .inr ⟨module, otherModule, rfl, rfl, Except.ok.inj outlines⟩

/-- A global, a function with a parameter that stores it there, and a local variable. -/
def storingProgram (stored given kept : String) : Program where
  filename := "storing"
  items := [⟨0⟩, ⟨1⟩]
  stmts := #[.varDecl [⟨0⟩], .functionDecl ⟨0⟩, .compound [⟨3⟩, ⟨4⟩], .varDecl [⟨2⟩], .expr ⟨4⟩]
  exprs := #[⟨.integerLiteral 0, .integer⟩, ⟨.identifier given ⟨1⟩, .integer⟩,
    ⟨.identifier stored ⟨0⟩, .integer⟩, ⟨.identifier kept ⟨2⟩, .integer⟩,
    ⟨.binary .assign ⟨2⟩ ⟨3⟩, .integer⟩]
  vars := #[⟨stored, .integer, some ⟨0⟩, .topLevel, .ordinary⟩,
    ⟨given, .integer, none, .local, .parameter⟩, ⟨kept, .integer, some ⟨1⟩, .local, .ordinary⟩]
  functions := #[⟨"store", [⟨1⟩], none, ⟨2⟩⟩]

/-- One name for all three variables does as well as three names. -/
theorem storingProgram_names_do_not_matter :
    (storingProgram "x" "x" "x").nameless = (storingProgram "total" "amount" "kept").nameless ∧
    ∃ module otherModule,
      (compile (storingProgram "total" "amount" "kept") .default .empty).1 = .ok module ∧
      (compile (storingProgram "x" "x" "x") .default .empty).1 = .ok otherModule ∧
        otherModule.nameless = module.nameless := by
  have same : (storingProgram "x" "x" "x").nameless =
      (storingProgram "total" "amount" "kept").nameless := by decide +kernel
  have succeeds : (compile (storingProgram "total" "amount" "kept") .default .empty).1.isOk = true := by
    decide +kernel
  refine ⟨same, ?_⟩
  rcases variable_names_do_not_matter same .default with ⟨error, _, fails, _⟩ | succeed
  · rw [fails] at succeeds
    cases succeeds
  · exact succeed

end ScriptLowering.Lowering
