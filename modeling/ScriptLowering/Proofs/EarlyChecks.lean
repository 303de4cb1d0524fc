import Mathlib.Data.List.Perm.Subperm
import ScriptLowering.Proofs.FinishedFunctions
import ScriptLowering.Proofs.OperandSupply

/-! # Early checks

A function can be verified as soon as it is complete. This is only an early look at what
verification of the whole module finds later: a run with early checks and one without them yield the
same module or none at all. The two runs are followed side by side, with the module in view that the
second one arrives at.
-/

namespace ScriptLowering.Lowering

open Source (Program ExprId ForInit FuncId FunctionDecl Stmt StmtId VarDecl VarId)
open Code (BlockId Cursor GlobalId Module Operand)

variable {program : Program}

/-! ## Numbers of globals

There is a number for each variable that can have storage, so the numbers of globals do not run out
in a run that succeeds, whatever the size of the program. -/

/-- The globals have the numbers below a count, and as many variables have storage. -/
def Session.Numbers (session : Session) : Prop :=
  ∃ count, count ≤ session.annotations.storage.size ∧
    session.cursor.module.nextGlobal = count.toUInt32 ∧
    ∀ id ∈ session.cursor.module.globals.keys, id.number.toNat < count

theorem storage_size_lt {annotations : Annotations} {id : VarId}
    (fresh : annotations.storage.contains id = false) :
    annotations.storage.size < 2 ^ 32 := by
  have absent : id ∉ annotations.storage.keys := by
    rw [← Table.contains_iff, fresh]
    exact Bool.false_ne_true
  have distinct : ((id :: annotations.storage.keys).map VarId.index).Nodup := by
    refine (List.nodup_cons.mpr ⟨absent, annotations.storage.keys_nodup⟩).map ?_
    rintro ⟨first⟩ ⟨second⟩ same
    exact congrArg VarId.mk (UInt32.toNat_inj.mp same)
  have within : (id :: annotations.storage.keys).map VarId.index ⊆ List.range (2 ^ 32) := by
    intro number member
    rcases List.mem_map.mp member with ⟨other, _, rfl⟩
    exact List.mem_range.mpr (UInt32.toNat_lt other.number)
  have bound := (List.subperm_of_subset distinct within).length_le
  simp only [List.length_map, List.length_cons, Table.keys_length, List.length_range] at bound
  exact bound

theorem Session.Numbers.same {session next : Session} (numbers : session.Numbers)
    (same : session.SameGlobals next) : next.Numbers := by
  rcases numbers with ⟨count, few, nextGlobal, below⟩
  refine ⟨count, ?_, same.cursor.next.trans nextGlobal, ?_⟩
  · rw [same.storage]
    exact few
  · rw [same.cursor.globals]
    exact below

theorem size_of_setStorage {annotations next : Annotations} {id : VarId} {address : Operand}
    (sets : annotations.setStorage id address = .ok next) :
    annotations.storage.contains id = false ∧
      next.storage.size = annotations.storage.size + 1 := by
  rcases Annotations.setStorage_eq_ok.mp sets with ⟨fresh, rfl⟩
  have absent : id ∉ annotations.storage.keys := fun member =>
    Bool.eq_false_iff.mp fresh (annotations.storage.contains_iff id |>.mpr member)
  refine ⟨fresh, ?_⟩
  simp only [Table.size, Table.insert, Table.insertEntry_of_not_mem absent, List.length_append,
    List.length_singleton]

/-! ## Runs with and without checks -/

/-- What holds between the parts of a statement of the function `current`. -/
structure Session.Works (current : String) (session : Session) : Prop where
  inside : session.Inside current
  numbers : session.Numbers

/-- The session can become the verified module `final` without another change to the functions in
`names`. -/
structure Session.LeadsTo (names : List String) (session : Session) (final : Module) : Prop where
  verified : final.verify = .ok ()
  extension : final.Extends session.cursor.module
  settled : ∀ name ∈ names, final.function? name = session.cursor.module.function? name

theorem Session.LeadsTo.before {names more changed : List String} {session next : Session}
    {final : Module} (leads : next.LeadsTo more final) (advances : session.Advances changed next)
    (within : names ⊆ more) (apart : ∀ name ∈ names, name ∉ changed) :
    session.LeadsTo names final where
  verified := leads.verified
  extension := leads.extension.trans advances.extension
  settled := fun name member =>
    (leads.settled name (within member)).trans (advances.others name (apart name member))

def Forgets {α : Type} (checked plain : Lower α) : Prop :=
  ∀ session result, checked session = .ok result → plain session = .ok result

theorem Forgets.refl {α : Type} (step : Lower α) : Forgets step step := fun _ _ runs => runs

theorem Forgets.bind {α β : Type} {checked plain : Lower α} {checkedRest plainRest : α → Lower β}
    (first : Forgets checked plain)
    (second : ∀ value, Forgets (checkedRest value) (plainRest value)) :
    Forgets (checked >>= checkedRest) (plain >>= plainRest) := by
  intro session result runs
  cases outcome : checked session with
  | error error =>
      rw [Lower.bind_eq_error outcome] at runs
      cases runs
  | ok pair =>
      rw [Lower.bind_eq outcome] at runs
      rw [Lower.bind_eq (first session pair outcome)]
      exact second pair.1 pair.2 result runs

/-- `plain` is `checked` without the checks, and `names` are the functions that both lower. If
`plain` succeeds and leads to a verified module, the checks do not fail. -/
structure Foretells (current : String) (needs : List Operand) (names : List String) {α : Type}
    (checked plain : Lower α) : Prop where
  forgets : Forgets checked plain
  foretold : (current :: names).Nodup → ∀ session, session.Works current →
    session.cursor.module.KnowsAll needs →
    plain.Ensures session (fun value next => (next.Works current ∧
      session.Advances (current :: names) next) ∧
      ∀ final, next.LeadsTo names final → checked session = .ok (value, next)) fun _ => True

namespace Foretells

variable {α β : Type} {current : String} {needs : List Operand} {names more : List String}

theorem of_ensures {step : Lower α}
    (ensures : ∀ session, session.Works current → session.cursor.module.KnowsAll needs →
      step.Ensures session (fun _ next => next.Works current ∧ session.Advances [current] next)
        fun _ => True) : Foretells current needs [] step step where
  forgets := .refl _
  foretold := by
    intro _ session works needed
    cases result : step session with
    | error error => exact .of_error result trivial
    | ok pair =>
        exact .of_ok result ⟨(ensures session works needed).post_of_ok result, fun _ _ => rfl⟩

theorem of_supplies {step : Lower α} {given : α → List Operand}
    (supplies : Supplies current needs step given) : Foretells current needs [] step step := by
  refine of_ensures fun session works needed => ?_
  apply (supplies session works.inside needed).mono
  rintro value next ⟨⟨inside, advances, same⟩, _⟩
  exact ⟨⟨inside, works.numbers.same same⟩, advances⟩

theorem bind {checked plain : Lower α} {checkedRest plainRest : α → Lower β}
    (first : Foretells current needs names checked plain)
    (second : ∀ value, Foretells current [] more (checkedRest value) (plainRest value)) :
    Foretells current needs (names ++ more) (checked >>= checkedRest) (plain >>= plainRest) where
  forgets := first.forgets.bind fun value => (second value).forgets
  foretold := by
    intro distinct session works needed
    have parts : (current :: names).Nodup ∧ (current :: more).Nodup ∧
        ∀ name ∈ names, name ∉ current :: more := by
      grind
    apply (first.foretold parts.1 session works needed).bind
    rintro value between ⟨⟨worksBetween, advances⟩, agrees⟩
    apply ((second value).foretold parts.2.1 between worksBetween (Module.knowsAll_nil _)).mono
    rintro other next ⟨⟨worksNext, advancesOn⟩, agreesOn⟩
    refine ⟨⟨worksNext, (advances.mono (by simp)).trans (advancesOn.mono (by simp))⟩,
      fun final leads => ?_⟩
    have firstRuns := agrees final (leads.before advancesOn (List.subset_append_left _ _) parts.2.2)
    rw [Lower.bind_eq firstRuns]
    exact agreesOn final ⟨leads.verified, leads.extension, fun name member =>
      leads.settled name (List.mem_append_right _ member)⟩

theorem after {step : Lower α} {given : α → List Operand} {checkedRest plainRest : α → Lower β}
    (supplies : Supplies current needs step given)
    (second : ∀ value, Foretells current (given value ++ needs) names (checkedRest value)
      (plainRest value)) :
    Foretells current needs names (step >>= checkedRest) (step >>= plainRest) where
  forgets := (Forgets.refl step).bind fun value => (second value).forgets
  foretold := by
    intro distinct session works needed
    cases outcome : step session with
    | error error => exact .of_error (Lower.bind_eq_error outcome) trivial
    | ok pair =>
        rcases pair with ⟨value, between⟩
        rcases (supplies session works.inside needed).post_of_ok outcome with
          ⟨⟨inside, advances, same⟩, known⟩
        have stillNeeded : between.cursor.module.KnowsAll needs := fun operand member =>
          advances.extension.knows (needed operand member)
        apply Lower.Ensures.bind_ok outcome
        apply ((second value).foretold distinct between ⟨inside, works.numbers.same same⟩
          (Module.knowsAll_append.mpr ⟨known, stillNeeded⟩)).mono
        rintro other next ⟨⟨worksNext, advancesOn⟩, agreesOn⟩
        refine ⟨⟨worksNext, (advances.mono (by simp)).trans advancesOn⟩, fun final leads => ?_⟩
        rw [Lower.bind_eq outcome]
        exact agreesOn final leads

theorem thenSupplies {checked plain : Lower α} {rest : α → Lower β} {given : β → List Operand}
    (first : Foretells current needs names checked plain)
    (supplies : ∀ value, Supplies current [] (rest value) given) :
    Foretells current needs names (checked >>= rest) (plain >>= rest) := by
  have both := first.bind fun value => of_supplies (supplies value)
  rw [List.append_nil] at both
  exact both

theorem fail (error : Error) :
    Foretells current needs names (Lower.fail error : Lower α) (Lower.fail error) where
  forgets := .refl _
  foretold := fun _ _ _ _ => .of_error rfl trivial

theorem weaken {checked plain : Lower α} (foretells : Foretells current [] names checked plain) :
    Foretells current needs names checked plain :=
  ⟨foretells.forgets, fun distinct session works _ =>
    foretells.foretold distinct session works (Module.knowsAll_nil _)⟩

theorem forM {items : List α} {names : α → List String} {checked plain : α → Lower Unit}
    (foretells : ∀ item, Foretells current [] (names item) (checked item) (plain item)) :
    Foretells current [] (items.flatMap names) (items.forM checked) (items.forM plain) := by
  induction items with
  | nil => exact of_supplies (.done ())
  | cons item rest induction =>
      rw [Lower.forM_cons, Lower.forM_cons, List.flatMap_cons]
      exact (foretells item).bind fun _ => induction

theorem forM_alike {items : List α} {step : α → Lower Unit}
    (foretells : ∀ item, Foretells current [] [] (step item) (step item)) :
    Foretells current [] [] (items.forM step) (items.forM step) := by
  have each : Foretells current [] (items.flatMap fun _ => []) (items.forM step)
      (items.forM step) := forM foretells
  rw [List.flatMap_eq_nil_iff.mpr fun _ _ => rfl] at each
  exact each

end Foretells

/-! ## Variables -/

theorem works_setStorage {current : String} {session : Session} (id : VarId) {address : Operand}
    (inside : session.Inside current) (known : session.cursor.module.Knows address)
    (numbers : ∀ annotations, session.annotations.setStorage id address = .ok annotations →
      Session.Numbers { session with annotations := annotations }) :
    (Lower.annotate fun annotations => annotations.setStorage id address).Ensures session
      (fun _ next => next.Works current ∧ session.Advances [current] next) fun _ => True := by
  apply Lower.Ensures.of_bind_pure
  refine .annotate_bind (fun _ _ => trivial) fun annotations sets => .pure
    ⟨⟨⟨⟨inside.closed.code, ?_⟩, inside.position, inside.begun⟩, numbers annotations sets⟩,
      ⟨.refl _, fun _ _ => rfl⟩⟩
  intro other otherAddress stored
  rw [Annotations.storageOf_of_setStorage sets] at stored
  split at stored
  · cases stored
    exact known
  · exact inside.closed.storage other otherAddress stored

/-- The session with a global for a variable. -/
def Session.addGlobal (session : Session) (decl : VarDecl) (initial : Code.Constant) : Session :=
  { session with cursor := { session.cursor with
    module := (session.cursor.module.addGlobal decl.name (codeType decl.ty) initial
      (alignment decl.ty)).2 } }

/-- As long as there is a variable without storage, the number of the next global is the count. -/
theorem Session.Numbers.next_of_free {session : Session} (numbers : session.Numbers) {id : VarId}
    (free : session.annotations.storage.contains id = false) :
    session.cursor.module.nextGlobal.toNat ≤ session.annotations.storage.size ∧
      ∀ other ∈ session.cursor.module.globals.keys,
        other.number.toNat < session.cursor.module.nextGlobal.toNat := by
  rcases numbers with ⟨count, few, nextGlobal, below⟩
  have number : session.cursor.module.nextGlobal.toNat = count := by
    rw [nextGlobal]
    exact Nat.mod_eq_of_lt (Nat.lt_of_le_of_lt few (storage_size_lt free))
  rw [number]
  exact ⟨few, below⟩

theorem Session.Numbers.extends_addGlobal {session : Session} (numbers : session.Numbers)
    {id : VarId} (free : session.annotations.storage.contains id = false) (decl : VarDecl)
    (initial : Code.Constant) :
    (session.addGlobal decl initial).cursor.module.Extends session.cursor.module :=
  Module.extends_addGlobal _ _ _ _ fun member =>
    Nat.lt_irrefl _ ((numbers.next_of_free free).2 _ member)

theorem Session.Numbers.addGlobal {session next : Session} (numbers : session.Numbers)
    {decl : VarDecl} {initial : Code.Constant}
    (same : (session.addGlobal decl initial).SameGlobals next) {id : VarId} {address : Operand}
    {annotations : Annotations}
    (sets : next.annotations.setStorage id address = .ok annotations) :
    Session.Numbers { next with annotations := annotations } := by
  have free := (size_of_setStorage sets).1
  have size := (size_of_setStorage sets).2
  rw [same.storage] at free size
  rcases numbers.next_of_free free with ⟨few, below⟩
  refine ⟨session.cursor.module.nextGlobal.toNat + 1, ?_, ?_, ?_⟩
  · change _ ≤ annotations.storage.size
    rw [size]
    exact Nat.succ_le_succ few
  · have following : next.cursor.module.nextGlobal = session.cursor.module.nextGlobal + 1 :=
      same.cursor.next
    rw [following]
    exact UInt32.toNat_inj.mp (by simp)
  · intro other member
    rw [same.cursor.globals] at member
    rcases Table.mem_keys_insert.mp member with rfl | old
    · exact Nat.lt_succ_self _
    · exact Nat.lt_succ_of_lt (below other old)

def initGlobal (program : Program) (decl : VarDecl) (global : GlobalId) :
    Option Operand → Lower Unit
  | some value =>
      if decl.ty = .string ∨ ¬ isLiteralInitial program decl then
        Lower.append fun cursor => cursor.store (.global global) value
      else pure ()
  | none => pure ()

theorem lowerGlobal_eq (id : VarId) (decl : VarDecl) (value : Option Operand) :
    lowerGlobal program id decl value = (do
      let initial ← Lower.consult fun _ =>
        globalInitial decl (isLiteralInitial program decl) value
      let global ← Lower.buildWith fun cursor =>
        let (global, module) := cursor.module.addGlobal decl.name (codeType decl.ty) initial
          (alignment decl.ty)
        .ok (global, { cursor with module := module })
      initGlobal program decl global value
      Lower.annotate fun annotations => annotations.setStorage id (.global global)) := by
  unfold lowerGlobal
  cases value with
  | none => rfl
  | some value =>
      simp only [initGlobal]
      split <;> rfl

theorem Routine.initGlobal {related : Session → Session → Prop} {errors : Error → Prop}
    (routine : Routine related errors) (decl : VarDecl) (global : GlobalId) (value : Option Operand) :
    (initGlobal program decl global value).Always related errors := by
  cases value with
  | none => exact routine.pure _
  | some value =>
      simp only [Lowering.initGlobal]
      split
      · exact routine.insert _
      · exact routine.pure _

theorem supplies_initGlobal {current : String} (decl : VarDecl) (global : GlobalId)
    (value : Option Operand) :
    Supplies current (.global global :: value.toList) (initGlobal program decl global value)
      fun _ => [] := by
  cases value with
  | none => exact .done _
  | some value =>
      simp only [initGlobal]
      split
      · exact .insert (by simp +contextual [Backed, Code.Instruction.operands])
      · exact .done _

namespace Foretells

variable {current : String} {needs : List Operand}

theorem setStorage (id : VarId) {address : Operand} (backed : Backed needs address) :
    Foretells current needs []
      (Lower.annotate fun annotations => annotations.setStorage id address)
      (Lower.annotate fun annotations => annotations.setStorage id address) := by
  refine of_ensures fun session works needed => ?_
  refine works_setStorage id works.inside (backed _ needed) fun annotations sets => ?_
  rcases works.numbers with ⟨count, few, nextGlobal, below⟩
  refine ⟨count, ?_, nextGlobal, below⟩
  rw [show ({ session with annotations := annotations } : Session).annotations.storage.size = _ from
    (size_of_setStorage sets).2]
  omega

/-- The number of a global is used again only if all variables have storage, and then setting the
storage of another one fails. -/
theorem lowerGlobal (id : VarId) (decl : VarDecl) (value : Option Operand) :
    Foretells current (value.toList ++ needs) [] (lowerGlobal program id decl value)
      (lowerGlobal program id decl value) := by
  refine of_ensures fun session works needed => ?_
  rw [lowerGlobal_eq]
  apply Lower.Ensures.consult_bind (fun _ _ => trivial)
  intro initial _
  let global : GlobalId := ⟨session.cursor.module.nextGlobal⟩
  let added := session.addGlobal decl initial
  refine .bind_ok (show _ = Except.ok (global, added) from rfl) ?_
  cases taken : session.annotations.storage.contains id with
  | true =>
      apply (Quiet.routine.initGlobal decl global value added).bind
      intro _ next same
      have stillTaken : next.annotations.storage.contains id = true := by
        rw [same.storage]
        exact taken
      have fails : Lower.annotate (fun annotations => annotations.setStorage id (.global global))
          next = .error (.program (.storageTwice id)) := by
        simp only [Lower.annotate, Annotations.setStorage, stillTaken, if_true]
      exact .of_error fails trivial
  | false =>
      have extension := works.numbers.extends_addGlobal taken decl initial
      have inside : added.Inside current :=
        ⟨works.inside.closed.extend extension fun _ => rfl, works.inside.position,
          works.inside.begun⟩
      have known : added.cursor.module.Knows (.global global) :=
        (Table.contains_iff _ _).mpr (Table.mem_keys_insert.mpr (.inl rfl))
      have valueKnown : added.cursor.module.KnowsAll value.toList := fun operand member =>
        extension.knows (needed operand (List.mem_append_left _ member))
      apply (supplies_initGlobal decl global value added inside
        (Module.knowsAll_cons.mpr ⟨known, valueKnown⟩)).bind
      rintro _ next ⟨⟨insideNext, advances, same⟩, _⟩
      apply (works_setStorage id insideNext (advances.extension.knows known) fun _ sets =>
        works.numbers.addGlobal same sets).mono
      rintro _ last ⟨worksLast, ends⟩
      have begins : session.Advances [current] added := ⟨extension, fun _ _ => rfl⟩
      exact ⟨worksLast, begins.trans (advances.trans ends)⟩

theorem lowerLocal (id : VarId) (decl : VarDecl) (value : Option Operand) :
    Foretells current (value.toList ++ needs) [] (lowerLocal id decl value)
      (lowerLocal id decl value) := by
  refine after (.define (by simp [Code.Instruction.operands])) fun slot => ?_
  cases value with
  | none => exact setStorage id (by simp +contextual [Backed])
  | some value =>
      exact after (.insert (by simp +contextual [Backed, Code.Instruction.operands])) fun _ =>
        setStorage id (by simp +contextual [Backed])

theorem lowerVarDecl (id : VarId) :
    Foretells current needs [] (lowerVarDecl program id) (lowerVarDecl program id) := by
  refine after (.look _ _) fun decl => ?_
  split
  · exact fail _
  · refine after (.lowerInitial decl) fun value => ?_
    cases decl.scope with
    | topLevel => exact lowerGlobal id decl value
    | «local» => exact lowerLocal id decl value

theorem lowerParam (id : VarId) (index : Nat) :
    Foretells current needs [] (lowerParam program id index) (lowerParam program id index) :=
  after (.look _ _) fun decl => after (.define (by simp [Code.Instruction.operands])) fun slot =>
    after (.insert (by simp +contextual [Backed, Code.Instruction.operands])) fun _ =>
      setStorage id (by simp +contextual [Backed])

end Foretells

/-! ## Functions -/

theorem works_openFunction {session : Session} (closed : session.Closed)
    (numbers : session.Numbers) (name : String) :
    (openFunction name).Ensures session
      (fun _ next => next.Works name ∧ session.Advances [name] next) fun _ => True := by
  let moved := session.cursor.setPosition (.inFunction name)
  refine .bind_ok (show _ = Except.ok ((), { session with cursor := moved }) from rfl) ?_
  have creates : (createBlock "entry").Ensures { session with cursor := moved } (fun _ next =>
      ∃ cursor, next = { session with cursor := cursor } ∧ moved.Fills (Backed []) cursor)
      fun _ => True :=
    .buildWith (fun _ _ => trivial) fun _ cursor creates => ⟨cursor, rfl, .createBlock creates⟩
  apply creates.bind
  rintro entry _ ⟨created, rfl, fills⟩
  have appends : (Lower.build fun cursor => cursor.appendBlock entry).Ensures
      { session with cursor := created } (fun _ next =>
        ∃ cursor, next = { session with cursor := cursor } ∧ moved.Fills (Backed []) cursor ∧
          ∃ function, cursor.module.function? name = some function ∧ function.body.layout ≠ [])
      fun _ => True :=
    .build (fun _ _ => trivial) fun cursor appends => ⟨cursor, rfl, fills.trans (.appendBlock appends),
      Cursor.Fills.begun_of_appendBlock fills.inside appends⟩
  apply appends.bind
  rintro _ _ ⟨cursor, rfl, fills, begun⟩
  have whole : moved.Fills (Backed []) (cursor.positionAtEnd name entry) :=
    fills.trans (.move fills.inside.symm)
  have movedClosed : Session.Closed { session with cursor := moved } :=
    closed.extend (.refl _) fun _ => rfl
  refine .of_ok rfl ⟨⟨⟨movedClosed.fill whole ?_, rfl, begun⟩, numbers.same ⟨rfl, ?_⟩⟩, ?_⟩
  · exact fun _ backed => backed _ (Module.knowsAll_nil _)
  · exact ⟨whole.globals, whole.nextGlobal⟩
  · have advances : Session.Advances [name] { session with cursor := moved }
        { session with cursor := cursor.positionAtEnd name entry } := .of_fills rfl whole
    exact ⟨advances.extension, advances.others⟩

theorem forgets_finishFunction (entry name : String) :
    Forgets (finishFunction ⟨entry, true⟩ name) (finishFunction ⟨entry, false⟩ name) := by
  intro session result runs
  cases outcome : Lower.buildWith (fun cursor => cursor.finalize name) session with
  | error error =>
      unfold finishFunction at runs
      rw [Lower.bind_eq_error outcome] at runs
      cases runs
  | ok pair =>
      unfold finishFunction at runs ⊢
      rw [Lower.bind_eq outcome] at runs ⊢
      have looks : Lower.cursor pair.2 = .ok (pair.2.cursor, pair.2) := rfl
      simp only [if_true, Lower.bind_eq looks] at runs
      cases found : pair.2.cursor.module.function? name with
      | none =>
          simp only [found] at runs
          cases runs
      | some function =>
          simp only [found] at runs
          cases checks : pair.2.cursor.module.verifyFunction function with
          | error rejection =>
              simp only [checks] at runs
              cases runs
          | ok _ =>
              simp only [checks] at runs
              exact runs

theorem works_finish {name : String} (entry : String) {session : Session}
    (works : session.Works name) :
    (finishFunction ⟨entry, false⟩ name).Ensures session (fun value next => (next.Works name ∧
      session.Advances [name] next) ∧ ∀ final, next.LeadsTo [name] final →
        finishFunction ⟨entry, true⟩ name session = .ok (value, next)) fun _ => True := by
  have finalizes : Supplies name [] (Lower.buildWith fun cursor => cursor.finalize name)
      fun _ => [] :=
    .buildWith fun _ _ _ inside prunes => ⟨.finalize inside prunes, by simp⟩
  have keeps := finalizes session works.inside (Module.knowsAll_nil _)
  cases outcome : Lower.buildWith (fun cursor => cursor.finalize name) session with
  | error error => exact .of_error (Lower.bind_eq_error outcome) trivial
  | ok pair =>
      rcases pair with ⟨pruned, next⟩
      rcases keeps.post_of_ok outcome with ⟨⟨inside, advances, same⟩, _⟩
      refine .bind_ok outcome (.pure ⟨⟨⟨inside, works.numbers.same same⟩, advances⟩, ?_⟩)
      intro final leads
      rcases inside.begun with ⟨function, found, begun⟩
      have known : ∀ operand, function.body.Mentions operand → next.cursor.module.Knows operand :=
        fun operand => inside.closed.code name function operand found
      have accepted : next.cursor.module.verifyFunction function = .ok () := by
        rw [← leads.extension.verifyFunction_eq known, Module.verifyFunction_eq_ok]
        exact (Module.verify_eq_ok.mp leads.verified).2 name function
          ((leads.settled name List.mem_cons_self).trans found) begun
      have looks : Lower.cursor next = .ok (next.cursor, next) := rfl
      unfold finishFunction
      rw [Lower.bind_eq outcome]
      simp only [if_true, Lower.bind_eq looks, found, accepted]
      rfl

/-- Open a function, fill it and finish it. -/
def buildFunction (options : Options) (name : String) (fill : Lower Unit) : Lower Unit := do
  openFunction name
  fill
  finishFunction options name

theorem Lower.Ensures.withRun {α : Type} {step : Lower α} {session : Session}
    {post : α → Session → Prop} {errors : Error → Prop}
    (ensures : step.Ensures session post errors) :
    step.Ensures session (fun value next => post value next ∧ step session = .ok (value, next))
      errors := by
  cases outcome : step session with
  | error error => exact .of_error outcome (ensures.of_error_eq outcome)
  | ok pair => exact .of_ok outcome ⟨ensures.post_of_ok outcome, rfl⟩

theorem forgets_buildFunction (entry name : String) {checked plain : Lower Unit}
    (forgets : Forgets checked plain) :
    Forgets (buildFunction ⟨entry, true⟩ name checked) (buildFunction ⟨entry, false⟩ name plain) :=
  (Forgets.refl _).bind fun _ => forgets.bind fun _ => forgets_finishFunction entry name

/-- If a whole function and the functions inside it come out as they are in a verified module, the
checks on the way succeed. -/
theorem works_buildFunction {entry name : String} {inner : List String}
    {checked plain : Lower Unit} (fills : Foretells name [] inner checked plain)
    (distinct : (name :: inner).Nodup) {session : Session} (closed : session.Closed) (numbers : session.Numbers) :
    (buildFunction ⟨entry, false⟩ name plain).Ensures session (fun value next =>
      (next.Works name ∧ session.Advances (name :: inner) next) ∧
      ∀ final, next.LeadsTo (name :: inner) final →
        buildFunction ⟨entry, true⟩ name checked session = .ok (value, next)) fun _ => True := by
  apply (works_openFunction closed numbers name).withRun.bind
  rintro _ opened ⟨⟨openedWorks, opens⟩, openRuns⟩
  apply (fills.foretold distinct opened openedWorks (Module.knowsAll_nil _)).bind
  rintro _ filled ⟨⟨filledWorks, advances⟩, fillAgrees⟩
  apply (works_finish entry filledWorks).mono
  rintro value next ⟨⟨works, finishes⟩, finishAgrees⟩
  refine ⟨⟨works, (opens.mono (by simp)).trans (advances.trans (finishes.mono (by simp)))⟩, ?_⟩
  intro final leads
  have apart : ∀ other ∈ inner, other ∉ [name] := by
    intro other member same
    rw [List.mem_singleton.mp same] at member
    exact (List.nodup_cons.mp distinct).1 member
  have fillRuns := fillAgrees final (leads.before finishes (List.subset_cons_self _ _) apart)
  unfold buildFunction
  rw [Lower.bind_eq openRuns, Lower.bind_eq fillRuns]
  exact finishAgrees final ⟨leads.verified, leads.extension, fun other member =>
    leads.settled other (List.mem_cons.mpr (.inl (List.mem_singleton.mp member)))⟩

/-! ## Statements -/

theorem namesOf_walkVars (program : Program) (ids : List VarId) :
    namesOf program (ids.flatMap (walkVar program)) = [] := by
  rw [namesOf_flatMap, List.flatMap_eq_nil_iff]
  intro id _
  unfold walkVar namesOf
  cases program.var? id <;> simp [Node.function?, functionsOf_flatMap]

theorem lowerFunctionDecl_eq_build {options : Options} {lower : StmtId → Lower Unit} {id : FuncId}
    {decl : FunctionDecl} (known : program.function? id = some decl) :
    lowerFunctionDecl program (finishFunction options) lower id = (do
      let cursor ← Lower.cursor
      buildFunction options decl.name (fillFunction program lower decl)
      Lower.moveCursor fun other => other.setPosition cursor.position) := by
  rw [lowerFunctionDecl, known, Lower.orFault_some_bind]
  cases returns : decl.returnsNothing <;>
    simp only [buildFunction, fillFunction, returns, bind_assoc, pure_bind, Bool.false_eq_true,
      if_true, if_false]

section Statements

variable {entry : String} {checked plain : StmtId → Lower Unit} {walk : StmtId → List Node}
  (foretells : ∀ current id,
    Foretells current [] (namesOf program (walk id)) (checked id) (plain id))

include foretells

theorem foretells_fillFunction (current : String) (decl : FunctionDecl) :
    Foretells current [] (namesOf program (walk decl.body)) (fillFunction program checked decl)
      (fillFunction program plain decl) := by
  have params : Foretells current [] []
      (decl.params.zipIdx.forM fun pair => lowerParam program pair.1 pair.2)
      (decl.params.zipIdx.forM fun pair => lowerParam program pair.1 pair.2) :=
    .forM_alike fun pair => .lowerParam pair.1 pair.2
  have ending : ∀ value : Unit, Supplies current []
      (if decl.returnsNothing then returnIfLive none else pure value) fun _ => [] := by
    intro _
    split
    · exact .returnIfLive (by simp)
    · exact .done _
  exact params.bind fun _ => (foretells current decl.body).thenSupplies ending

theorem foretells_lowerFunctionDecl (current : String) (id : FuncId) :
    Foretells current [] (namesOf program (walkFunction program walk id))
      (lowerFunctionDecl program (finishFunction ⟨entry, true⟩) checked id)
      (lowerFunctionDecl program (finishFunction ⟨entry, false⟩) plain id) := by
  cases known : program.function? id with
  | none =>
      rw [lowerFunctionDecl, lowerFunctionDecl, known, Lower.orFault_none_bind,
        Lower.orFault_none_bind]
      exact .fail _
  | some decl =>
      have params : functionsOf (decl.params.map Node.param) = [] := by
        simp [functionsOf, Node.function?]
      have names : namesOf program (walkFunction program walk id) =
          decl.name :: namesOf program (walk decl.body) := by
        simp [namesOf, walkFunction, Node.function?, known, params]
      have fills := foretells_fillFunction foretells decl.name decl
      rw [names, lowerFunctionDecl_eq_build known, lowerFunctionDecl_eq_build known]
      refine ⟨(Forgets.refl _).bind fun _ => (forgets_buildFunction entry _ fills.forgets).bind
        fun _ => .refl _, fun distinct session works _ => ?_⟩
      have looks : Lower.cursor session = .ok (session.cursor, session) := rfl
      rcases List.nodup_cons.mp distinct with ⟨apart, distinctInside⟩
      apply Lower.Ensures.bind_ok looks
      apply (works_buildFunction fills distinctInside works.inside.closed works.numbers).bind
      rintro _ built ⟨⟨builtWorks, advances⟩, agrees⟩
      let back : Session := { built with
        cursor := built.cursor.setPosition session.cursor.position }
      have unchanged := advances.others current apart
      have backWorks : back.Works current := by
        refine ⟨⟨builtWorks.inside.closed.extend (.refl _) fun _ => rfl, works.inside.position, ?_⟩,
          builtWorks.numbers.same ⟨rfl, rfl, rfl⟩⟩
        rcases works.inside.begun with ⟨function, found, begun⟩
        exact ⟨function, unchanged.trans found, begun⟩
      have backAdvances :
          session.Advances (current :: decl.name :: namesOf program (walk decl.body)) back :=
        ⟨advances.extension, fun other outside => advances.others other fun member =>
          outside (List.mem_cons_of_mem current member)⟩
      refine .of_ok rfl ⟨⟨backWorks, backAdvances⟩, fun final leads => ?_⟩
      have buildRuns := agrees final ⟨leads.verified, leads.extension, leads.settled⟩
      rw [Lower.bind_eq looks, Lower.bind_eq buildRuns]
      rfl

theorem foretells_lowerIf (current : String) (condition : ExprId) (thenBody : StmtId)
    (elseBody : Option StmtId) :
    Foretells current [] (namesOf program (walk thenBody ++ elseBody.toList.flatMap walk))
      (lowerIf program checked condition thenBody elseBody)
      (lowerIf program plain condition thenBody elseBody) := by
  refine .after (.lowerValue condition) fun value => .after (.createBlock _) fun thenBlock =>
    .after (.createBlock _) fun endBlock => ?_
  cases elseBody with
  | none =>
      simp only [Option.toList_none, List.flatMap_nil, List.append_nil]
      refine .after (.terminate ?_) fun _ => .after (.enter _ _) fun _ =>
        (foretells current thenBody).weaken.thenSupplies fun _ =>
          .bind (.leaveTo _) fun _ => .enter _ _
      simp +contextual [Backed, Code.Terminator.operands]
  | some elseBody =>
      rw [Option.toList_some, List.flatMap_singleton, namesOf_append]
      refine .after (.createBlock _) fun elseBlock => .after (.terminate ?_) fun _ =>
        .after (.enter _ _) fun _ => (foretells current thenBody).weaken.bind fun _ =>
          .after (.leaveTo _) fun _ => .after (.enter _ _) fun _ =>
            (foretells current elseBody).weaken.thenSupplies fun _ =>
              .bind (.leaveTo _) fun _ => .enter _ _
      simp +contextual [Backed, Code.Terminator.operands]

theorem foretells_lowerWhile (current : String) (id : StmtId) (condition : ExprId)
    (body : StmtId) :
    Foretells current [] (namesOf program (walk body))
      (lowerWhile program checked id condition body)
      (lowerWhile program plain id condition body) := by
  refine .after (.createBlock _) fun condBlock => .after (.createBlock _) fun bodyBlock =>
    .after (.createBlock _) fun endBlock => .after (.setLoop _ _) fun _ =>
      .after (.enter _ _) fun _ => .after (.lowerValue condition) fun value =>
        .after (.terminate ?_) fun _ => .after (.enter _ _) fun _ =>
          (foretells current body).weaken.thenSupplies fun _ =>
            .bind (.leaveTo _) fun _ => .enter _ _
  simp +contextual [Backed, Code.Terminator.operands]

theorem foretells_lowerForInit (current : String) (initial : ForInit) :
    Foretells current [] (namesOf program (walkForInit program walk initial))
      (lowerForInit program checked initial) (lowerForInit program plain initial) := by
  cases initial with
  | decl stmt => exact foretells current stmt
  | exprs exprs =>
      rw [walkForInit, namesOf_walkExprs]
      exact .of_supplies (.lowerExprs exprs)

omit foretells in
theorem supplies_lowerForCondition {current : String} {needs : List Operand} (endBlock : BlockId)
    (condition : Option ExprId) :
    Supplies current needs (lowerForCondition program endBlock condition) fun _ => [] := by
  cases condition with
  | none => exact .done _
  | some condition =>
      refine .bind (.createBlock _) fun bodyBlock => .bind (.lowerValue condition) fun value =>
        .bind (.terminate ?_) fun _ => .enter _ _
      simp +contextual [Backed, Code.Terminator.operands]

omit foretells in
theorem supplies_lowerForUpdates {current : String} {needs : List Operand} (updates : List ExprId)
    (updateBlock : Option BlockId) :
    Supplies current needs (lowerForUpdates program updates updateBlock) fun _ => [] := by
  cases updateBlock with
  | none => exact .done _
  | some block => exact .bind (.enter _ _) fun _ => .lowerExprs updates

theorem foretells_lowerFor (current : String) (id : StmtId) (initial : ForInit)
    (condition : Option ExprId) (updates : List ExprId) (body : StmtId) :
    Foretells current []
      (namesOf program (walkForInit program walk initial) ++ namesOf program (walk body))
      (lowerFor program checked id initial condition updates body)
      (lowerFor program plain id initial condition updates body) :=
  (foretells_lowerForInit foretells current initial).bind fun _ =>
    .after (.createBlock _) fun _ => .after (.createBlock _) fun endBlock =>
      .after (.enter _ _) fun _ => .after (.createUpdateBlock updates) fun updateBlock =>
        .after (.setLoop _ _) fun _ =>
          .after (supplies_lowerForCondition endBlock condition) fun _ =>
            (foretells current body).weaken.thenSupplies fun _ =>
              .bind (supplies_lowerForUpdates updates updateBlock) fun _ =>
                .bind (.leaveTo _) fun _ => .enter _ _

theorem foretells_lowerNodeOf (current : String) (id : StmtId) (stmt : Stmt) :
    Foretells current [] (namesOf program (walkNodeOf program walk stmt))
      (lowerNodeOf program (finishFunction ⟨entry, true⟩) checked id stmt)
      (lowerNodeOf program (finishFunction ⟨entry, false⟩) plain id stmt) := by
  cases stmt with
  | expr expr =>
      rw [walkNodeOf, namesOf_walkExpr]
      exact .of_supplies (.bind (.lowerExpr expr) fun _ => .done _)
  | compound stmts =>
      rw [walkNodeOf, namesOf_flatMap]
      exact .forM (foretells current)
  | varDecl vars =>
      rw [walkNodeOf, namesOf_walkVars]
      exact .forM_alike .lowerVarDecl
  | functionDecl func => exact foretells_lowerFunctionDecl foretells current func
  | ifThenElse condition thenBody elseBody =>
      rw [walkNodeOf, namesOf_append, namesOf_walkExpr, List.nil_append]
      exact foretells_lowerIf foretells current condition thenBody elseBody
  | whileLoop condition body =>
      rw [walkNodeOf, namesOf_append, namesOf_walkExpr, List.nil_append]
      exact foretells_lowerWhile foretells current id condition body
  | forLoop initial condition updates body =>
      simp only [walkNodeOf, namesOf_append, namesOf_walkExprs, List.nil_append, List.append_nil]
      exact foretells_lowerFor foretells current id initial condition updates body
  | continueLoop target =>
      exact .of_supplies (.bind (.consult _) fun _ => .terminate (by
        simp [Code.Terminator.operands]))
  | breakLoop target =>
      exact .of_supplies (.bind (.consult _) fun _ => .terminate (by
        simp [Code.Terminator.operands]))
  | returnValue value =>
      rw [walkNodeOf, namesOf_walkExprs]
      cases value with
      | none => exact .of_supplies (.terminate (by simp [Code.Terminator.operands]))
      | some expr =>
          exact .of_supplies (.bind (.lowerValue expr) fun _ => .terminate (by
            simp +contextual [Backed, Code.Terminator.operands]))

end Statements

theorem foretells_lowerStmtWithin (entry : String) (depth : Nat) (current : String) (id : StmtId) :
    Foretells current [] (namesOf program (walkStmtWithin program depth id))
      (lowerStmtWithin program (finishFunction ⟨entry, true⟩) depth id)
      (lowerStmtWithin program (finishFunction ⟨entry, false⟩) depth id) := by
  induction depth generalizing current id with
  | zero => exact .fail _
  | succ depth induction =>
      rw [lowerStmtWithin, lowerStmtWithin, walkStmtWithin]
      cases program.stmt? id with
      | none => exact .fail _
      | some stmt => exact foretells_lowerNodeOf induction current id stmt

/-! ## Programs -/

theorem lowerItems_eq_build (options : Options) (entry : String) :
    lowerItems program (finishFunction options) entry = buildFunction options entry (do
      program.items.forM (lowerStmt program (finishFunction options))
      returnIfLive (some (.ofInt64 0))) := by
  simp only [lowerItems, buildFunction, bind_assoc]

theorem foretells_items (entry current : String) :
    Foretells current [] (namesOf program (walkProgram program)) (do
      program.items.forM (lowerStmt program (finishFunction ⟨entry, true⟩))
      returnIfLive (some (.ofInt64 0))) (do
      program.items.forM (lowerStmt program (finishFunction ⟨entry, false⟩))
      returnIfLive (some (.ofInt64 0))) := by
  rw [walkProgram, namesOf_flatMap]
  refine (Foretells.forM fun id => foretells_lowerStmtWithin entry _ current id).thenSupplies
    fun _ => .returnIfLive ?_
  simp [Backed, Operand.ofInt64]

theorem closed_start {options : Options} {module : Module}
    (declares : declareAll program options = .ok module) :
    (Session.start (.ofModule module)).Closed ∧ (Session.start (.ofModule module)).Numbers := by
  rcases holds_declareAll declares with ⟨signatures, _, ⟨_, holds⟩, tables⟩
  refine ⟨⟨?_, ?_⟩, 0, Nat.zero_le _, ?_, ?_⟩
  · rintro name function operand found ⟨id, block, foundBlock, _⟩
    rcases (holds name function).mp found with ⟨signature, _, _, rfl⟩
    cases foundBlock
  · intro id address stored
    cases stored
  · exact tables.nextGlobal
  · intro id member
    change id ∈ module.globals.keys at member
    rw [tables.globals] at member
    cases member

theorem lowerProgram_eq_ok {options : Options} {module : Module} :
    lowerProgram program options = .ok module ↔ ∃ declared last,
      declareAll program options = .ok declared ∧
      lowerItems program (finishFunction options) options.entryFunction
        (.start (.ofModule declared)) = .ok ((), last) ∧
      last.cursor.module = module ∧ module.verify = .ok () := by
  simp only [lowerProgram, Code.bind_eq_ok, Code.mapError_eq_ok]
  constructor
  · rintro ⟨declared, declares, ⟨⟨⟩, last⟩, lowers, ⟨⟩, verified, ⟨⟩⟩
    exact ⟨declared, last, declares, lowers, rfl, verified⟩
  · rintro ⟨declared, last, declares, lowers, rfl, verified⟩
    exact ⟨declared, declares, ((), last), lowers, (), verified, rfl⟩

theorem compile_empty (program : Program) (options : Options) :
    (compile program options .empty).1 = lowerProgram program options := by
  unfold compile
  cases lowerProgram program options <;> rfl

/-- What early checks let pass is lowered in the same way without them. -/
theorem lowerItems_plain {entry : String} {early : Bool} {session last : Session}
    (lowers : lowerItems program (finishFunction ⟨entry, early⟩) entry session = .ok ((), last)) :
    lowerItems program (finishFunction ⟨entry, false⟩) entry session = .ok ((), last) := by
  cases early with
  | false => exact lowers
  | true =>
      rw [lowerItems_eq_build] at lowers ⊢
      exact forgets_buildFunction entry _ (foretells_items entry entry).forgets _ _ lowers

/-- What is verified in the end is lowered in the same way with early checks. -/
theorem lowerItems_early {entry : String} {declared : Module} {last : Session}
    (once : (functionsOf (walkProgram program)).Nodup)
    (declares : declareAll program ⟨entry, false⟩ = .ok declared)
    (lowers : lowerItems program (finishFunction ⟨entry, false⟩) entry
      (.start (.ofModule declared)) = .ok ((), last))
    (verified : last.cursor.module.verify = .ok ()) (early : Bool) :
    lowerItems program (finishFunction ⟨entry, early⟩) entry (.start (.ofModule declared)) =
      .ok ((), last) := by
  cases early with
  | false => exact lowers
  | true =>
      have names := declared_of_declareAll declares
      have distinct : (entry :: namesOf program (walkProgram program)).Nodup := by
        refine List.nodup_cons.mpr ⟨fun member => ?_, nodup_namesOf names once⟩
        rcases exists_of_mem_namesOf member with ⟨id, decl, found, same⟩
        exact names.apart id decl found same
      rcases closed_start declares with ⟨closed, numbers⟩
      rw [lowerItems_eq_build] at lowers ⊢
      exact ((works_buildFunction (foretells_items entry entry) distinct closed numbers).post_of_ok
        lowers).2 _ ⟨verified, .refl _, fun _ _ => rfl⟩

/-- Early checks do not change what a program is lowered to. -/
theorem lowerProgram_early_iff {entry : String} {module : Module}
    (once : (functionsOf (walkProgram program)).Nodup) :
    lowerProgram program ⟨entry, true⟩ = .ok module ↔
      lowerProgram program ⟨entry, false⟩ = .ok module := by
  rw [lowerProgram_eq_ok, lowerProgram_eq_ok]
  constructor
  · rintro ⟨declared, last, declares, lowers, rest⟩
    exact ⟨declared, last, declares, lowerItems_plain lowers, rest⟩
  · rintro ⟨declared, last, declares, lowers, same, verified⟩
    subst same
    exact ⟨declared, last, declares, lowerItems_early once declares lowers verified true, rfl, verified⟩

theorem compile_eq_ok_iff {options : Options} {pipeline after : Code.Pipeline} {module : Module} :
    compile program options pipeline = (.ok module, after) ↔ ∃ lowered,
      lowerProgram program options = .ok lowered ∧
        pipeline.run lowered = (.ok (), after, module) := by
  unfold compile
  cases lowerProgram program options with
  | error error => simp
  | ok lowered =>
      simp only [Except.ok.injEq, exists_eq_left']
      generalize pipeline.run lowered = outcome
      rcases outcome with ⟨_ | _, next, last⟩ <;> simp [and_comm]

/-- Early checks do not change what a program is compiled to, nor how its passes run. -/
theorem compile_with_early_checks_iff {program : Program} {entry : String}
    {pipeline after : Code.Pipeline} {module : Module}
    (once : (functionsOf (walkProgram program)).Nodup) :
    compile program ⟨entry, true⟩ pipeline = (.ok module, after) ↔
      compile program ⟨entry, false⟩ pipeline = (.ok module, after) := by
  simp only [compile_eq_ok_iff, lowerProgram_early_iff once]

/-- A function with another one inside, both of which use a global, and globals and data that are
added behind them. -/
def countingProgram : Program where
  filename := "counting"
  items := [⟨0⟩, ⟨1⟩, ⟨7⟩, ⟨8⟩]
  stmts := #[.varDecl [⟨0⟩], .functionDecl ⟨0⟩, .compound [⟨3⟩, ⟨4⟩, ⟨5⟩], .functionDecl ⟨1⟩,
    .expr ⟨2⟩, .returnValue (some ⟨3⟩), .expr ⟨8⟩, .varDecl [⟨1⟩], .varDecl [⟨2⟩]]
  exprs := #[⟨.integerLiteral 0, .integer⟩, ⟨.stringLiteral "done", .string⟩,
    ⟨.call "step" [], .void⟩, ⟨.identifier "total" ⟨0⟩, .integer⟩,
    ⟨.identifier "total" ⟨0⟩, .integer⟩, ⟨.identifier "total" ⟨0⟩, .integer⟩,
    ⟨.integerLiteral 1, .integer⟩, ⟨.binary .plus ⟨5⟩ ⟨6⟩, .integer⟩,
    ⟨.binary .assign ⟨4⟩ ⟨7⟩, .integer⟩, ⟨.call "count" [], .integer⟩]
  vars := #[⟨"total", .integer, some ⟨0⟩, .topLevel, .ordinary⟩,
    ⟨"greeting", .string, some ⟨1⟩, .topLevel, .ordinary⟩,
    ⟨"later", .integer, some ⟨9⟩, .topLevel, .ordinary⟩]
  functions := #[⟨"count", [], some .integer, ⟨2⟩⟩, ⟨"step", [], none, ⟨6⟩⟩]

theorem countingProgram_early_checks : ∃ module after,
    compile countingProgram ⟨"main", true⟩ .empty = (.ok module, after) ∧
      compile countingProgram ⟨"main", false⟩ .empty = (.ok module, after) := by
  have once : (functionsOf (walkProgram countingProgram)).Nodup := by decide +kernel
  have succeeds : (compile countingProgram ⟨"main", true⟩ .empty).1.isOk = true := by
    decide +kernel
  rcases compiled : compile countingProgram ⟨"main", true⟩ .empty with ⟨result, after⟩
  rw [compiled] at succeeds
  cases result with
  | error error => cases succeeds
  | ok module => exact ⟨module, after, rfl, (compile_with_early_checks_iff once).mp compiled⟩

end ScriptLowering.Lowering
