import ScriptLowering.Proofs.FunctionRuns
import ScriptLowering.Proofs.LinkedModules
import ScriptLowering.Proofs.StatementPromises

/-! # Well-formed functions

A function that has been lowered for a resolved program is well formed if its body cannot end or if
it need not return a value. Nothing is promised to its first block, and at its end all promises have
been kept.
-/

namespace ScriptLowering.Lowering

open Source (Program Stmt StmtId VarId VarDecl FuncId FunctionDecl)
open Code (BlockId Function Operand Place Promises)

variable {program : Program} {callable : FuncId → Prop} {final : Session} {host : Function}
  {promises next : Promises}
  {pending : List BlockId} {place after : Place}

/-! ## Parameters -/

/-- The signature of the function lists the parameter, at the index and with the type. -/
structure ParamListed (program : Program) (host : Function) (id : VarId) (index : Nat)
    (decl : VarDecl) (parameter : Code.Parameter) : Prop where
  found : program.var? id = some decl
  notVoid : decl.ty ≠ .void
  listed : host.signature.params[index]? = some parameter
  same : parameter.ty = codeType decl.ty

theorem ParamListed.supplied {id : VarId} {index : Nat} {decl : VarDecl}
    {parameter : Code.Parameter} (isParam : ParamListed program host id index decl parameter)
    (small : index < 2 ^ 32) :
    Supplied final host promises place [.param ⟨index.toUInt32⟩] [decl.ty] := by
  have listed : host.signature.params[index.toUInt32.toNat]? = some parameter := by
    rw [toNat_toUInt32 small]
    exact isParam.listed
  refine fun _ => .cons ⟨(List.getElem?_eq_some_iff.mp listed).1, ?_⟩ .nil
  rw [← isParam.same]
  exact .param listed

theorem LowersParams.upholds {ids : List VarId} {index : Nat}
    (lowers : LowersParams program final (ids.zipIdx index) place after)
    (listed : ∀ id position, (id, position) ∈ ids.zipIdx index → ∃ decl parameter,
      ParamListed program host id position decl parameter)
    (enough : index ≤ place.body.temps.size)
    (honours : place.Honours final.cursor.module host promises pending) :
    Upholds final host promises pending place after ∧
      Housed program final host promises after ids := by
  induction ids generalizing index place with
  | nil =>
      cases lowers
      exact ⟨⟨honours, .refl _ _⟩, .nil⟩
  | cons id ids induction =>
      cases lowers with
      | @cons _ _ _ decl _ slotted _ found fit reserves known rest =>
          rcases listed id index List.mem_cons_self with ⟨other, parameter, isParam⟩
          have isDecl := isParam.found
          rw [found] at isDecl
          cases isDecl
          have roomAll := fit.room.2
          rcases upholds_slot honours fit isParam.notVoid (isParam.supplied (by omega)) reserves
            with ⟨filled, locates⟩
          have grows : place.body.temps.size + 1 ≤ (slotted.ready.add (.store
              (.temp place.ready.freshTemp) (.param ⟨index.toUInt32⟩))).body.temps.size := by
            have room : slotted.Room 6 := by
              rw [reserves]
              exact (SafeOperation.define _ fun _ => rfl).room place 6 fit.room
            have size : slotted.body.temps.size = place.ready.body.temps.size + 1 := by
              rw [reserves, temps_define]
            have ready := (Place.within_ready fit.room (Nat.le_refl _)).size_le
            have stored : slotted.body.temps.size ≤ (slotted.ready.add
                (.store (.temp place.ready.freshTemp)
                  (.param ⟨index.toUInt32⟩))).body.temps.size :=
              ((SafeOperation.add rfl).within slotted 5 room).size_le
            omega
          rcases induction rest (fun other position member =>
              listed other position (List.mem_cons_of_mem _ member)) (by omega) filled.honours with
            ⟨others, housed⟩
          have first : Housed program final host promises (slotted.ready.add
              (.store (.temp place.ready.freshTemp) (.param ⟨index.toUInt32⟩))) [id] := by
            intro live other member
            rw [List.mem_singleton.mp member]
            exact ⟨decl, _, found, known, locates live⟩
          exact ⟨filled.trans others, (first.carried others.carries).append housed⟩

/-! ## Bodies -/

/-- The first block is made when a function is opened, and no promise is made to it later. -/
theorem promised_start (carries : Place.Carries Place.noPromises (Place.mk .empty none).opened next
    after) (temp : Code.TempId) : ¬ (next ⟨0⟩).temps temp := by
  rw [carries.agree ⟨0⟩ (by decide)]
  exact fun impossible => impossible

theorem LowersFunction.wellFormed (furnished : Furnished program final) {decl : FunctionDecl}
    (lowers : LowersFunction program final decl place) (typed : FunctionTyped program callable decl)
    (listed : ∀ id position, (id, position) ∈ decl.params.zipIdx → ∃ var parameter,
      ParamListed program host id position var parameter)
    (returned : host.signature.returns = codeType (decl.returns.getD .void))
    (endless : decl.returnsNothing = false → ∀ node, program.stmt? decl.body = some node →
      ¬ Ends program (.stmt decl.body node) .normal)
    (body : host.body = place.pruned.body) : host.WellFormed final.cursor.module := by
  have regular := lowers.regular.1
  cases lowers with
  | @intro depth node entered ended _ params found lowersBody fit =>
      cases typed with
      | intro _ known bodyTyped =>
          rw [found] at known
          cases known
          rcases params.upholds listed (Nat.zero_le _) Place.honours_opened with ⟨upholds, housed⟩
          have free : Leavable program final (.stmt decl.body node) Place.noPromises [] entered
              [] := fun _ _ member => by cases member
          rcases lowersBody.observes furnished bodyTyped returned fit.regular upholds.honours housed
            free with ⟨next, observes⟩
          have start := promised_start (upholds.carries.trans observes.carries)
          cases returns : decl.returnsNothing with
          | true =>
              simp only [returns, if_true] at body regular
              have isVoid : host.signature.returns = .void := by
                rw [returned, returns_eq_void returns]
                rfl
              refine Place.Honours.wellFormed (Place.promises_returnIfLive observes.honours
                fit.regular fun _ => ⟨?_, .nothing isVoid, ?_⟩) regular
                (Place.isLive_returnIfLive _ _) start body
              · simp [Code.Terminator.operands]
              · simp [Code.Terminator.successors]
          | false =>
              simp only [returns, Bool.false_eq_true, if_false] at body regular
              have dead : ended.isLive = false := by
                by_contra live
                exact endless returns node found (observes.ends (by simpa using live))
              exact observes.honours.wellFormed regular dead start body

theorem LowersEntry.wellFormed (furnished : Furnished program final)
    (lowers : LowersEntry program final place)
    (typed : PartTyped program callable .integer [] [] (.stmt default (.compound program.items)))
    (returned : host.signature.returns = .i64) (body : host.body = place.pruned.body) :
    host.WellFormed final.cursor.module := by
  have regular := lowers.regular
  cases lowers with
  | @intro id ended lowersBody fit =>
      have free : Leavable program final (.stmt id (.compound program.items)) Place.noPromises []
          (Place.mk .empty none).opened [] := fun _ _ member => by cases member
      have returns : host.signature.returns = codeType .integer := returned
      rcases lowersBody.observes furnished typed.renamed returns fit.regular Place.honours_opened
        .nil free with ⟨next, observes⟩
      refine Place.Honours.wellFormed (Place.promises_returnIfLive observes.honours fit.regular
        fun _ => ⟨?_, .value ?_ ?_, ?_⟩) regular.1 regular.2 (promised_start observes.carries) body
      · intro operand member
        rw [List.mem_singleton.mp member]
        trivial
      · change host.signature.returns ≠ .void
        rw [returned]
        exact fun same => by cases same
      · change Code.Function.Provides _ _ host.signature.returns
        rw [returned]
        exact .int
      · simp [Code.Terminator.successors]

/-! ## Modules -/

/-- The bodies of functions that owe a value cannot end. -/
def Returning (program : Program) : Prop :=
  ∀ id ∈ functionsOf (walkProgram program), ∀ decl node, program.function? id = some decl →
    decl.returnsNothing = false → program.stmt? decl.body = some node →
    ¬ Ends program (.stmt decl.body node) .normal

/-- The bodies of functions that owe a value are never evaluated to a normal end. -/
def NeverFallsOff (program : Program) : Prop :=
  ∀ id ∈ functionsOf (walkProgram program), ∀ decl, program.function? id = some decl →
    decl.returnsNothing = false → ∀ library call fuel depth,
      (Source.evalStmtWithin program library call fuel depth decl.body).Yields (· ≠ .normal)

theorem Returning.neverFallsOff (returning : Returning program) : NeverFallsOff program := by
  intro id member decl found owes library call fuel depth
  refine (shaped_evalStmtWithin depth decl.body).mono fun flow ended isNormal => ?_
  rcases ended with ⟨node, foundBody, ends⟩
  exact returning id member decl node found owes foundBody (ends _ (by rw [isNormal]; rfl))

theorem fits_startConstant {locals : List VarId} {decl : VarDecl} (notVoid : decl.ty ≠ .void)
    (starts : ∀ initial, decl.initial = some initial →
      ExprTyped program callable locals initial decl.ty) :
    (startConstant program decl).fits (codeType decl.ty) = true := by
  unfold startConstant
  cases isLiteral : Source.literal? program decl with
  | none =>
      cases ty : decl.ty with
      | void => exact absurd ty notVoid
      | _ => rfl
  | some datum =>
      have hasType := hasType_of_literal? starts isLiteral
      cases ty : decl.ty <;> rw [ty] at hasType <;> cases datum <;> first | rfl | cases hasType

namespace Generates

variable {options : Options} {declared : Code.Module} {last : Session}

theorem furnished (generates : Generates program options declared last)
    (resolved : WellResolved program callable) (few : demand program (walkProgram program) < 2 ^ 28) :
    Furnished program last where
  globals := ((generates.records resolved few).globalsPlaced (length_globalVars_lt few)).become
  library := fun _ member =>
    ⟨_, generates.library (generates.complete resolved few) member, rfl⟩
  functions := by
    intro id decl types found areTypes
    have complete := generates.complete resolved few
    rcases (declared_of_declareAll generates.declares).functions id decl found with
      ⟨signature, _, foundDeclared⟩
    have kept := complete.precedes.signatures decl.name
    rw [show (Session.start (.ofModule declared)).cursor.module.function? decl.name =
      some (.declared signature .exported) from foundDeclared, Option.map_some] at kept
    rcases Option.map_eq_some_iff.mp kept with ⟨function, foundFunction, _⟩
    rcases generates.signature complete found foundFunction with ⟨params, given, same⟩
    refine ⟨function, foundFunction, ?_, ?_⟩
    · rw [same]
      exact types_of_declaredParams given areTypes
    · rw [same]
      rfl

theorem paramListed (generates : Generates program options declared last)
    (complete : Complete program options.entryFunction (.start (.ofModule declared)) last)
    {id : Source.FuncId} {decl : FunctionDecl} (found : program.function? id = some decl)
    (typed : FunctionTyped program callable decl) {function : Function}
    (foundFunction : last.cursor.module.function? decl.name = some function) {param : VarId}
    {position : Nat} (member : (param, position) ∈ decl.params.zipIdx) :
    ∃ var parameter, ParamListed program function param position var parameter := by
  rcases generates.signature complete found foundFunction with ⟨params, given, same⟩
  rcases mapM_eq_ok_getElem? given (List.mem_zipIdx_iff_getElem?.mp member) with
    ⟨parameter, listed, isParameter⟩
  rcases typed with ⟨areLocal, _, _⟩
  rcases areLocal param (List.fst_mem_of_mem_zipIdx member) with ⟨var, foundVar, _, notVoid⟩
  refine ⟨var, parameter, foundVar, notVoid, ?_, ?_⟩
  · rw [same]
    exact listed
  · simp only [declaredParam, foundVar] at isParameter
    cases isParameter
    rfl

theorem verifiedGlobals (generates : Generates program options declared last)
    (resolved : WellResolved program callable) (few : demand program (walkProgram program) < 2 ^ 28)
    {id : Code.GlobalId} {global : Code.Global}
    (found : last.cursor.module.global? id = some global) :
    global.initial.fits global.ty = true ∧ global.ty.isVoid = false := by
  have isEntry := Table.get?_eq_some_iff.mp found
  rw [(generates.records resolved few).lists.entries] at isEntry
  rcases List.mem_map.mp isEntry with ⟨⟨⟨var, decl⟩, index⟩, member, same⟩
  cases same
  have isVar := of_mem_globalVars (List.fst_mem_of_mem_zipIdx member)
  rcases resolved.typed _ isVar.onWalk with ⟨locals, foundDecl, notVoid, starts⟩
  rw [isVar.found] at foundDecl
  cases foundDecl
  refine ⟨fits_startConstant notVoid starts, ?_⟩
  rw [Bool.eq_false_iff]
  exact fun isVoid => notVoid ((isVoid_codeType _).mp isVoid)

/-- What has been lowered is accepted as soon as functions that owe a value return one. -/
theorem verify_eq_ok (generates : Generates program options declared last)
    (resolved : WellResolved program callable) (few : demand program (walkProgram program) < 2 ^ 28)
    (returning : Returning program) : last.cursor.module.verify = .ok () := by
  have complete := generates.complete resolved few
  have furnished := generates.furnished resolved few
  have isDeclared := declared_of_declareAll generates.declares
  refine Code.Module.verify_eq_ok.mpr
    ⟨fun _ _ found => generates.verifiedGlobals resolved few found, ?_⟩
  intro name function found nonempty
  have accept : ∀ place : Place, function.body = place.pruned.body → place.Regular →
      function.WellFormed last.cursor.module →
        last.cursor.module.checkFunction function = .ok () := by
    intro place body regular wellFormed
    refine (Function.checkFunction_iff ?_).mpr wellFormed
    rw [body]
    exact regular.indexed_prune
  by_cases isEntry : name = options.entryFunction
  · rcases complete.entered with ⟨place, other, otherFound, body, lowers⟩
    rw [← isEntry, found] at otherFound
    cases otherFound
    have kept := complete.precedes.signatures options.entryFunction
    rw [← isEntry, found, isEntry, show (Session.start (.ofModule declared)).cursor.module.function?
      options.entryFunction = _ from isDeclared.start] at kept
    have returned : function.signature.returns = .i64 := by
      rw [Option.some.inj kept]
      rfl
    exact accept place body lowers.regular.1
      (lowers.wellFormed furnished resolved.items returned body)
  by_cases isLowered : name ∈ namesOf program (walkProgram program)
  · rcases complete.built name isLowered with
      ⟨id, decl, place, other, foundDecl, isName, otherFound, body, lowers⟩
    rw [found] at otherFound
    cases otherFound
    subst isName
    rcases List.mem_filterMap.mp isLowered with ⟨otherId, member, named⟩
    rcases Option.map_eq_some_iff.mp named with ⟨otherDecl, otherFound, sameName⟩
    cases isDeclared.distinct id otherId decl otherDecl foundDecl otherFound sameName.symm
    rcases resolved.functions id member with ⟨typedDecl, typedFound, typed⟩
    rw [foundDecl] at typedFound
    cases typedFound
    have lowersFunction := lowers last (.refl last)
    rcases generates.signature complete foundDecl found with ⟨params, _, same⟩
    refine accept place body lowersFunction.regular.1 (lowersFunction.wellFormed furnished typed
      (fun _ _ isParam => generates.paramListed complete foundDecl typed found isParam) ?_
      (fun owes node => returning id member decl node foundDecl owes) body)
    rw [same]
    rfl
  · rw [complete.others name isEntry isLowered] at found
    rcases holds_declareAll generates.declares with ⟨signatures, _, ⟨_, holds⟩, _⟩
    rcases (holds name function).mp found with ⟨signature, _, _, rfl⟩
    exact absurd rfl nonempty

end Generates

end ScriptLowering.Lowering
