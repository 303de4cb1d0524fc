import ScriptLowering.Lowering.Program
import ScriptLowering.Proofs.VerifierChecks

/-! # Declared modules

Before anything is lowered, every function that can be called is declared: the string library,
the entry function and the functions of the program, under names that are pairwise different.
-/

namespace ScriptLowering.Lowering

open Source (Program FuncId FunctionDecl)
open Code (Function Module Parameter Signature bind_eq_ok bind_unit_eq_ok)

/-- The module has no functions but those in `table`, and these are only declared. -/
def Holds (module : Module) (table : List Signature) : Prop :=
  (table.map Signature.name).Nodup ∧ ∀ name function, module.function? name = some function ↔
    ∃ signature ∈ table, signature.name = name ∧ function = .declared signature .exported

/-- The modules have the same globals and data. -/
structure SameTables (first second : Module) : Prop where
  globals : first.globals = second.globals
  data : first.data = second.data
  nextGlobal : first.nextGlobal = second.nextGlobal
  nextData : first.nextData = second.nextData

theorem SameTables.trans {first second third : Module} (left : SameTables first second)
    (right : SameTables second third) : SameTables first third :=
  ⟨left.globals.trans right.globals, left.data.trans right.data,
    left.nextGlobal.trans right.nextGlobal, left.nextData.trans right.nextData⟩

theorem liftBuild_eq_ok {α : Type} {step : Except Code.BuildError α} {value : α} :
    liftBuild step = .ok value ↔ step = .ok value := by
  cases step <;> simp [liftBuild, Except.mapError]

theorem holds_declare {module next : Module} {table : List Signature} {signature : Signature}
    (holds : Holds module table) (declares : module.declare signature .exported = .ok next) :
    Holds next (table ++ [signature]) ∧ SameTables next module := by
  unfold Module.declare at declares
  split at declares
  · cases declares
  · rename_i absent
    cases declares
    have unknown : ∀ other ∈ table, other.name ≠ signature.name := by
      intro other member same
      have found := (holds.2 signature.name _).mpr ⟨other, member, same, rfl⟩
      simp only [Module.function?] at found
      simp [Table.contains, found] at absent
    refine ⟨⟨?_, ?_⟩, ⟨rfl, rfl, rfl, rfl⟩⟩
    · rw [List.map_append, List.nodup_append]
      refine ⟨holds.1, by simp, ?_⟩
      intro first firstMember second secondMember same
      rcases List.mem_map.mp firstMember with ⟨other, member, rfl⟩
      simp only [List.map_cons, List.map_nil, List.mem_singleton] at secondMember
      exact unknown other member (same.trans secondMember)
    · intro name function
      simp only [Module.function?, Table.get?_insert]
      split
      · rename_i same
        subst same
        constructor
        · intro found
          cases found
          exact ⟨signature, by simp, rfl, rfl⟩
        · intro exists_
          rcases exists_ with ⟨other, member, sameName, rfl⟩
          rcases List.mem_append.mp member with old | new
          · exact absurd sameName (unknown other old)
          · rw [List.mem_singleton.mp new]
      · rename_i different
        rw [show module.functions.get? name = module.function? name from rfl, holds.2]
        constructor
        · intro exists_
          rcases exists_ with ⟨other, member, rest⟩
          exact ⟨other, List.mem_append_left _ member, rest⟩
        · intro exists_
          rcases exists_ with ⟨other, member, sameName, rest⟩
          rcases List.mem_append.mp member with old | new
          · exact ⟨other, old, sameName, rest⟩
          · rw [List.mem_singleton.mp new] at sameName
            exact absurd sameName different

theorem holds_empty (name : String) : Holds (.empty name) [] := by
  refine ⟨List.nodup_nil, ?_⟩
  intro name function
  simp [Module.empty, Module.function?]

/-- The signature under which a function of the program is declared. -/
def declaredSignature (program : Program) (decl : FunctionDecl) : Except Error Signature := do
  return ⟨decl.name, ← decl.params.mapM (declaredParam program), returnType decl.returns⟩

theorem holds_declareFunction {program : Program} {module next : Module}
    {table : List Signature} {decl : FunctionDecl} (holds : Holds module table)
    (declares : declareFunction program module decl = .ok next) :
    ∃ signature, declaredSignature program decl = .ok signature ∧
      Holds next (table ++ [signature]) ∧ SameTables next module := by
  unfold declareFunction at declares
  split at declares
  · cases declares
  · rcases bind_eq_ok.mp declares with ⟨params, given, declared⟩
    refine ⟨⟨decl.name, params, returnType decl.returns⟩, ?_,
      holds_declare holds (liftBuild_eq_ok.mp declared)⟩
    simp [declaredSignature, given, bind, Except.bind, pure, Except.pure]

theorem holds_declareFunctions {program : Program} {decls : List FunctionDecl}
    {module next : Module} {table : List Signature} (holds : Holds module table)
    (declares : decls.foldlM (declareFunction program) module = .ok next) :
    ∃ signatures, decls.mapM (declaredSignature program) = .ok signatures ∧
      Holds next (table ++ signatures) ∧ SameTables next module := by
  induction decls generalizing module table with
  | nil =>
      cases declares
      exact ⟨[], rfl, by simpa using holds, ⟨rfl, rfl, rfl, rfl⟩⟩
  | cons decl rest induction =>
      rw [List.foldlM_cons] at declares
      rcases bind_eq_ok.mp declares with ⟨between, first, others⟩
      rcases holds_declareFunction holds first with ⟨signature, isSignature, holdsOne, same⟩
      rcases induction holdsOne others with ⟨signatures, areSignatures, holdsAll, rest⟩
      refine ⟨signature :: signatures, ?_, by simpa using holdsAll, rest.trans same⟩
      rw [List.mapM_cons, isSignature, areSignatures]
      rfl

theorem holds_declareEach {signatures : List Signature} {module : Module}
    {table : List Signature} (holds : Holds module table)
    (declared : (StringLibrary.declareEach signatures module).1 = .ok ()) :
    Holds (StringLibrary.declareEach signatures module).2 (table ++ signatures) ∧
      SameTables (StringLibrary.declareEach signatures module).2 module := by
  induction signatures generalizing module table with
  | nil =>
      rw [List.append_nil]
      exact ⟨holds, ⟨rfl, rfl, rfl, rfl⟩⟩
  | cons signature rest induction =>
      unfold StringLibrary.declareEach at declared ⊢
      cases declares : module.declare signature .exported with
      | error error => simp [declares] at declared
      | ok next =>
          simp only [declares] at declared ⊢
          rcases holds_declare holds declares with ⟨holdsOne, same⟩
          rcases induction holdsOne declared with ⟨holdsAll, rest⟩
          exact ⟨by simpa using holdsAll, rest.trans same⟩

theorem holds_declareAll {program : Program} {options : Options} {module : Module}
    (declares : declareAll program options = .ok module) :
    ∃ signatures, program.functions.toList.mapM (declaredSignature program) = .ok signatures ∧
      Holds module (StringLibrary.signatures ++ [⟨options.entryFunction, [], .i64⟩] ++
        signatures) ∧ SameTables module (.empty program.filename) := by
  have first : (StringLibrary.declare (.empty program.filename)).1 = .ok () →
      Holds (StringLibrary.declare (.empty program.filename)).2
          ([] ++ StringLibrary.signatures) ∧
        SameTables (StringLibrary.declare (.empty program.filename)).2
          (.empty program.filename) :=
    holds_declareEach (holds_empty program.filename)
  unfold declareAll at declares
  rcases StringLibrary.declare (.empty program.filename) with ⟨declared, start⟩
  rcases bind_unit_eq_ok.mp declares with ⟨library, rest⟩
  rcases bind_eq_ok.mp rest with ⟨between, entry, functions⟩
  rcases first (liftBuild_eq_ok.mp library) with ⟨holdsLibrary, librarySame⟩
  rcases holds_declare holdsLibrary (liftBuild_eq_ok.mp entry) with ⟨holdsEntry, entrySame⟩
  rcases holds_declareFunctions holdsEntry functions with
    ⟨signatures, areSignatures, holdsAll, same⟩
  exact ⟨signatures, areSignatures, by simpa using holdsAll,
    same.trans (entrySame.trans librarySame)⟩

/-! ## Modules that can be declared -/

section Declaring

variable {program : Program} {module : Module} {table : List Signature}

theorem function?_eq_none (holds : Holds module table) {name : String}
    (fresh : name ∉ table.map Signature.name) : module.function? name = none := by
  cases found : module.function? name with
  | none => rfl
  | some function =>
      rcases (holds.2 name function).mp found with ⟨signature, member, same, _⟩
      exact absurd (List.mem_map.mpr ⟨signature, member, same⟩) fresh

theorem declare_succeeds (holds : Holds module table) (signature : Signature)
    (fresh : signature.name ∉ table.map Signature.name) :
    ∃ next, module.declare signature .exported = .ok next ∧
      Holds next (table ++ [signature]) := by
  have absent : module.functions.contains signature.name = false := by
    have unknown := function?_eq_none holds fresh
    simp only [Module.function?] at unknown
    simp [Table.contains, unknown]
  have declares : ∃ next, module.declare signature .exported = .ok next := by
    unfold Module.declare
    rw [absent]
    exact ⟨_, rfl⟩
  rcases declares with ⟨next, declares⟩
  exact ⟨next, declares, (holds_declare holds declares).1⟩

theorem declareEach_succeeds {signatures : List Signature} (holds : Holds module table)
    (distinct : ((table ++ signatures).map Signature.name).Nodup) :
    (StringLibrary.declareEach signatures module).1 = .ok () := by
  induction signatures generalizing module table with
  | nil => rfl
  | cons signature rest induction =>
      have fresh : signature.name ∉ table.map Signature.name := by
        rw [List.map_append, List.map_cons] at distinct
        exact fun member => (List.nodup_append.mp distinct).2.2 _ member _ List.mem_cons_self rfl
      rcases declare_succeeds holds signature fresh with ⟨next, declares, holdsOne⟩
      unfold StringLibrary.declareEach
      simp only [declares]
      exact induction holdsOne (by simpa using distinct)

theorem declaredParams_succeed {params : List Source.VarId}
    (known : ∀ param ∈ params, ∃ var, program.var? param = some var) :
    ∃ parameters, params.mapM (declaredParam program) = .ok parameters := by
  induction params with
  | nil => exact ⟨[], rfl⟩
  | cons param rest induction =>
      rcases known param List.mem_cons_self with ⟨var, found⟩
      rcases induction fun other member => known other (List.mem_cons_of_mem _ member) with
        ⟨parameters, given⟩
      refine ⟨⟨var.name, codeType var.ty⟩ :: parameters, ?_⟩
      have first : declaredParam program param = .ok ⟨var.name, codeType var.ty⟩ := by
        simp only [declaredParam, found]
      rw [List.mapM_cons, first, given]
      rfl

theorem declareFunctions_succeed {decls : List FunctionDecl} (holds : Holds module table)
    (distinct : (table.map Signature.name ++ decls.map FunctionDecl.name).Nodup)
    (known : ∀ decl ∈ decls, ∀ param ∈ decl.params, ∃ var, program.var? param = some var) :
    ∃ next, decls.foldlM (declareFunction program) module = .ok next := by
  induction decls generalizing module table with
  | nil => exact ⟨module, rfl⟩
  | cons decl rest induction =>
      rcases declaredParams_succeed (known decl List.mem_cons_self) with ⟨parameters, given⟩
      have fresh : decl.name ∉ table.map Signature.name :=
        fun member => (List.nodup_append.mp distinct).2.2 _ member _ List.mem_cons_self rfl
      let signature : Signature := ⟨decl.name, parameters, returnType decl.returns⟩
      rcases declare_succeeds holds signature fresh with ⟨next, declares, holdsOne⟩
      have first : declareFunction program module decl = .ok next := by
        unfold declareFunction
        rw [function?_eq_none holds fresh, given]
        exact liftBuild_eq_ok.mpr declares
      have others : ((table ++ [signature]).map Signature.name ++
          rest.map FunctionDecl.name).Nodup := by
        simpa [signature] using distinct
      rw [List.foldlM_cons, first]
      exact induction holdsOne others fun other member =>
        known other (List.mem_cons_of_mem _ member)

/-- All functions can be declared if no two of them share a name and their parameters exist. -/
theorem declareAll_succeeds (options : Options)
    (distinct : (StringLibrary.signatures.map Signature.name ++ options.entryFunction ::
      program.functions.toList.map FunctionDecl.name).Nodup)
    (known : ∀ decl ∈ program.functions, ∀ param ∈ decl.params, ∃ var,
      program.var? param = some var) :
    ∃ module, declareAll program options = .ok module := by
  have library : (StringLibrary.declare (.empty program.filename)).1 = .ok () := by
    refine declareEach_succeeds (holds_empty program.filename) ?_
    exact distinct.sublist (List.sublist_append_left _ _)
  have holds : Holds (StringLibrary.declare (.empty program.filename)).2
      ([] ++ StringLibrary.signatures) :=
    (holds_declareEach (holds_empty program.filename) library).1
  have fresh : options.entryFunction ∉ StringLibrary.signatures.map Signature.name :=
    fun member => (List.nodup_append.mp distinct).2.2 _ member _ List.mem_cons_self rfl
  unfold declareAll
  generalize StringLibrary.declare (.empty program.filename) = declared at library holds
  rcases declare_succeeds holds ⟨options.entryFunction, [], .i64⟩ fresh with
    ⟨between, declares, holdsEntry⟩
  rcases declareFunctions_succeed holdsEntry (by simpa using distinct)
      (fun decl member => known decl (by simpa using member)) with ⟨last, functions⟩
  refine ⟨last, bind_unit_eq_ok.mpr ⟨liftBuild_eq_ok.mpr library, ?_⟩⟩
  exact bind_eq_ok.mpr ⟨between, liftBuild_eq_ok.mpr declares, functions⟩

end Declaring

/-! ## What a declared module holds -/

theorem mapM_eq_ok_getElem? {ε α β : Type} {items : List α} {body : α → Except ε β}
    {values : List β} (maps : items.mapM body = .ok values) {index : Nat} {item : α}
    (found : items[index]? = some item) :
    ∃ value, values[index]? = some value ∧ body item = .ok value := by
  induction items generalizing values index with
  | nil => simp at found
  | cons head tail induction =>
      rw [List.mapM_cons] at maps
      rcases bind_eq_ok.mp maps with ⟨value, first, rest⟩
      rcases bind_eq_ok.mp rest with ⟨others, second, same⟩
      cases same
      cases index with
      | zero =>
          simp only [List.getElem?_cons_zero, Option.some.injEq] at found
          subst found
          exact ⟨value, rfl, first⟩
      | succ index =>
          simp only [List.getElem?_cons_succ] at found ⊢
          exact induction second found

structure Declared (program : Program) (entry : String) (module : Module) : Prop where
  start : module.function? entry = some (.declared ⟨entry, [], .i64⟩ .exported)
  library : ∀ signature ∈ StringLibrary.signatures,
    module.function? signature.name = some (.declared signature .exported)
  functions : ∀ id decl, program.function? id = some decl → ∃ signature,
    declaredSignature program decl = .ok signature ∧
      module.function? decl.name = some (.declared signature .exported)
  distinct : ∀ id other decl otherDecl, program.function? id = some decl →
    program.function? other = some otherDecl → decl.name = otherDecl.name → id = other
  apart : ∀ id decl, program.function? id = some decl → decl.name ≠ entry
  tables : SameTables module (.empty program.filename)

theorem Declared.exists_function {program : Program} {entry : String} {module : Module}
    (declared : Declared program entry module) (id : FuncId) (decl : FunctionDecl)
    (known : program.function? id = some decl) :
    ∃ function, module.function? decl.name = some function := by
  obtain ⟨signature, _, found⟩ := declared.functions id decl known
  exact ⟨_, found⟩

theorem name_of_declaredSignature {program : Program} {decl : FunctionDecl}
    {signature : Signature} (declares : declaredSignature program decl = .ok signature) :
    signature.name = decl.name := by
  rcases bind_eq_ok.mp declares with ⟨params, _, same⟩
  cases same
  rfl

theorem declared_of_declareAll {program : Program} {options : Options} {module : Module}
    (declares : declareAll program options = .ok module) :
    Declared program options.entryFunction module := by
  rcases holds_declareAll declares with ⟨signatures, areSignatures, ⟨distinct, holds⟩, rest⟩
  have function : ∀ id decl, program.function? id = some decl → ∃ signature,
      signatures[id.index]? = some signature ∧
        declaredSignature program decl = .ok signature := by
    intro id decl found
    refine mapM_eq_ok_getElem? areSignatures ?_
    simpa [Program.function?] using found
  rw [List.map_append, List.nodup_append] at distinct
  exact {
    start := (holds _ _).mpr ⟨⟨options.entryFunction, [], .i64⟩, by simp, rfl, rfl⟩
    library := fun signature member => (holds _ _).mpr
      ⟨signature, List.mem_append_left _ (List.mem_append_left _ member), rfl, rfl⟩
    functions := by
      intro id decl found
      rcases function id decl found with ⟨signature, isIn, isSignature⟩
      refine ⟨signature, isSignature, (holds _ _).mpr ⟨signature, ?_, ?_, rfl⟩⟩
      · exact List.mem_append_right _ (List.mem_of_getElem? isIn)
      · exact name_of_declaredSignature isSignature
    distinct := by
      intro id other decl otherDecl found otherFound same
      rcases function id decl found with ⟨signature, isIn, isSignature⟩
      rcases function other otherDecl otherFound with ⟨otherSignature, otherIsIn, otherIs⟩
      have names : (signatures.map Signature.name)[id.index]? =
          (signatures.map Signature.name)[other.index]? := by
        simp only [List.getElem?_map, isIn, otherIsIn, Option.map_some]
        rw [name_of_declaredSignature isSignature, name_of_declaredSignature otherIs, same]
      have bound : id.index < (signatures.map Signature.name).length := by
        simpa using (List.getElem?_eq_some_iff.mp isIn).1
      have sameIndex := (List.getElem?_inj bound distinct.2.1).mp names
      rcases id with ⟨number⟩
      rcases other with ⟨otherNumber⟩
      exact congrArg FuncId.mk (UInt32.toNat_inj.mp sameIndex)
    apart := by
      intro id decl found same
      rcases function id decl found with ⟨signature, isIn, isSignature⟩
      refine distinct.2.2 options.entryFunction (by simp) signature.name ?_ ?_
      · exact List.mem_map.mpr ⟨signature, List.mem_of_getElem? isIn, rfl⟩
      · rw [name_of_declaredSignature isSignature, same]
    tables := rest }

theorem library_apart {program : Program} {options : Options} {module : Module}
    (declares : declareAll program options = .ok module) {signature : Signature}
    (member : signature ∈ StringLibrary.signatures) :
    signature.name ≠ options.entryFunction ∧
      ∀ id decl, program.function? id = some decl → signature.name ≠ decl.name := by
  rcases holds_declareAll declares with ⟨signatures, areSignatures, ⟨distinct, _⟩, _⟩
  rw [List.append_assoc, List.map_append, List.nodup_append] at distinct
  have apart := distinct.2.2 signature.name (List.mem_map.mpr ⟨signature, member, rfl⟩)
  refine ⟨apart options.entryFunction (by simp), ?_⟩
  intro id decl found
  have isFunction : program.functions.toList[id.index]? = some decl := by
    simpa [Program.function?] using found
  rcases mapM_eq_ok_getElem? areSignatures isFunction with ⟨other, isIn, isSignature⟩
  rw [← name_of_declaredSignature isSignature]
  apply apart
  simp only [List.map_append, List.mem_append, List.mem_map]
  exact .inr ⟨other, List.mem_of_getElem? isIn, rfl⟩

end ScriptLowering.Lowering
