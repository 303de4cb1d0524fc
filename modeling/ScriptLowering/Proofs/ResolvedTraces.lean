import ScriptLowering.Proofs.StatementEndings
import ScriptLowering.Proofs.ExpressionRuns
import ScriptLowering.Proofs.PlacePromises

/-! # Traces of resolved programs

What lowering adds for a part of a resolved program keeps the promises made to blocks: operands have
the types that are asked for, variables are reserved on every way to their uses, and every jump goes
to a block that waits for it. Behind the part control goes on only if the part may end.
-/

namespace ScriptLowering.Lowering

open Source (Program ExprNode ExprId Stmt StmtId VarId VarDecl FuncId FunctionDecl ForInit)
open Code (BlockId Function Operand Place Promises)

/-- What a program refers to is in the module, with the types that the program gives it. -/
structure Furnished (program : Program) (final : Session) : Prop where
  globals : ∀ id decl address, program.var? id = some decl → decl.scope = .topLevel →
    final.annotations.storageOf id = .ok address → ∃ global entry, address = .global global ∧
      final.cursor.module.global? global = some entry ∧ entry.ty = codeType decl.ty
  library : ∀ signature ∈ StringLibrary.signatures, ∃ function,
    final.cursor.module.function? signature.name = some function ∧ function.signature = signature
  functions : ∀ id decl (types : List Source.Ty), program.function? id = some decl →
    decl.params.map (fun param => (program.var? param).map VarDecl.ty) = types.map some →
    ∃ function, final.cursor.module.function? decl.name = some function ∧
      function.signature.params.map Code.Parameter.ty = types.map codeType ∧
      function.signature.returns = codeType (decl.returns.getD .void)

section Footing

variable (program : Program) (final : Session) (host : Function)

/-- The variables have slots that can be used at the place, if control comes there. -/
def Housed (promises : Promises) (place : Place) (locals : List VarId) : Prop :=
  place.isLive = true → ∀ id ∈ locals, ∃ decl address, program.var? id = some decl ∧
    final.annotations.storageOf id = .ok address ∧
    place.Locates final.cursor.module host promises address (codeType decl.ty)

/-- The operands have the types at the place, if control comes there. -/
def Supplied (promises : Promises) (place : Place) (values : List Operand)
    (types : List Source.Ty) : Prop :=
  place.isLive = true → List.Forall₂ (fun operand ty =>
    place.Supplies final.cursor.module host promises operand (codeType ty)) values types

end Footing

variable {program : Program} {callable : FuncId → Prop} {final : Session} {host : Function}
  {promises next : Promises} {pending : List BlockId} {place middle after : Place}
  {locals : List VarId}

theorem Housed.carried (housed : Housed program final host promises place locals)
    (carries : Place.Carries promises place next after) :
    Housed program final host next after locals := by
  intro live id member
  rcases housed (carries.live live) id member with ⟨decl, address, found, stored, locates⟩
  exact ⟨decl, address, found, stored, carries.locates live locates⟩

theorem Supplied.carried {values : List Operand} {types : List Source.Ty}
    (supplied : Supplied final host promises place values types)
    (carries : Place.Carries promises place next after) :
    Supplied final host next after values types :=
  fun live => (supplied (carries.live live)).imp fun _ _ supplies => carries.supplies live supplies

theorem Housed.nil : Housed program final host promises place [] :=
  fun _ _ member => by cases member

theorem Housed.append {more : List VarId} (first : Housed program final host promises place more)
    (second : Housed program final host promises place locals) :
    Housed program final host promises place (more ++ locals) := by
  intro live id member
  rcases List.mem_append.mp member with new | old
  · exact first live id new
  · exact second live id old

theorem codeType_ne_void {ty : Source.Ty} (notVoid : ty ≠ .void) : codeType ty ≠ .void := by
  intro same
  apply notVoid
  rw [← isVoid_codeType, same]
  rfl

/-! ## Instructions -/

section Instructions

variable {count : Nat}

theorem offers_of_forall₂ {values : List Operand} {types : List Code.Ty}
    (supplies : List.Forall₂ (fun operand ty =>
      place.Supplies final.cursor.module host promises operand ty) values types) :
    ∀ operand ∈ values,
      host.signature.Offers final.cursor.module (place.Knows promises) operand := by
  induction supplies with
  | nil =>
      intro operand member
      cases member
  | cons first _ induction =>
      intro operand member
      rcases List.mem_cons.mp member with rfl | later
      · exact first.offers
      · exact induction operand later

theorem provides_of_forall₂ {values : List Operand} {params : List Code.Parameter}
    (supplies : List.Forall₂ (fun operand ty =>
      place.Supplies final.cursor.module host promises operand ty) values
      (params.map Code.Parameter.ty)) :
    List.Forall₂ (fun operand (param : Code.Parameter) =>
      (host.withBody place.body).Provides operand param.ty) values params :=
  (List.forall₂_map_right_iff.mp supplies).imp fun _ _ supplies => supplies.provides

/-- Code has been added that keeps all promises. -/
structure Upholds (final : Session) (host : Function) (promises : Promises)
    (pending : List BlockId) (place after : Place) : Prop where
  honours : after.Honours final.cursor.module host promises pending
  carries : Place.Carries promises place promises after

theorem Upholds.trans (first : Upholds final host promises pending place middle)
    (second : Upholds final host promises pending middle after) :
    Upholds final host promises pending place after :=
  ⟨second.honours, first.carries.trans second.carries⟩

theorem Supplied.head {value : Operand} {ty : Source.Ty}
    (supplied : Supplied final host promises place [value] [ty]) (live : place.isLive = true) :
    place.Supplies final.cursor.module host promises value (codeType ty) := by
  rcases supplied live with _ | ⟨supplies, _ | _⟩
  exact supplies

theorem Supplied.both {first second : Operand} {left right : Source.Ty}
    (supplied : Supplied final host promises place [first, second] [left, right])
    (live : place.isLive = true) :
    place.Supplies final.cursor.module host promises first (codeType left) ∧
      place.Supplies final.cursor.module host promises second (codeType right) := by
  rcases supplied live with _ | ⟨supplies, _ | ⟨others, _ | _⟩⟩
  exact ⟨supplies, others⟩

/-- An instruction that defines a temp, on the condition that it suits a place where control
comes. -/
theorem upholds_define (honours : place.Honours final.cursor.module host promises pending)
    (regular : place.Regular) (room : place.Room (count + 1)) {result : Code.Ty}
    {instruction : Operand → Code.Instruction}
    (defined : ∀ temp, (instruction (.temp temp)).defined? = some temp)
    (suits : place.isLive = true → (place.takeTemp result).Suits final.cursor.module host promises
      (instruction (.temp place.freshTemp))) {ty : Source.Ty} (same : codeType ty = result) :
    Upholds final host promises pending place (place.ready.define result instruction) ∧
      ∀ operand ∈ some (Operand.temp place.ready.freshTemp),
        Supplied final host promises (place.ready.define result instruction) [operand] [ty] := by
  rcases Place.promises_define honours regular room defined suits with
    ⟨after, carries, supplies⟩
  refine ⟨⟨after, carries⟩, ?_⟩
  subst same
  rintro operand ⟨⟩ live
  exact .cons (supplies live) .nil

theorem upholds_add (honours : place.Honours final.cursor.module host promises pending)
    (regular : place.Regular) (room : place.Room (count + 1)) {instruction : Code.Instruction}
    (nothing : instruction.defined? = none)
    (suits : place.isLive = true → place.Suits final.cursor.module host promises instruction) :
    Upholds final host promises pending place (place.ready.add instruction) := by
  rcases Place.promises_add honours regular room nothing suits with ⟨after, carries⟩
  exact ⟨after, carries⟩

theorem supplies_takeTemp (regular : place.Regular) (live : place.isLive = true) {operand : Operand}
    {ty : Code.Ty} (supplies : place.Supplies final.cursor.module host promises operand ty)
    (other : Code.Ty) :
    (place.takeTemp other).Supplies final.cursor.module host promises operand ty :=
  (Place.carries_takeTemp regular other).supplies live supplies

theorem suits_store {address value : Operand} {ty : Code.Ty}
    (locates : place.Locates final.cursor.module host promises address ty)
    (supplies : place.Supplies final.cursor.module host promises value ty) :
    place.Suits final.cursor.module host promises (.store address value) where
  operands := by
    intro operand member
    rcases List.mem_cons.mp member with rfl | rest
    · exact locates.offers
    · rw [List.mem_singleton.mp rest]
      exact supplies.offers
  typed := .store locates.addresses supplies.provides

theorem suits_load (regular : place.Regular) (live : place.isLive = true) {address : Operand}
    {ty : Code.Ty} (locates : place.Locates final.cursor.module host promises address ty) :
    (place.takeTemp ty).Suits final.cursor.module host promises
      (.load (.temp place.freshTemp) ty address) := by
  have taken := (Place.carries_takeTemp regular ty).locates live locates
  refine ⟨fun operand member => ?_, .load taken.addresses⟩
  rw [List.mem_singleton.mp member]
  exact taken.offers

theorem suits_callValue (regular : place.Regular) (room : place.Room (count + 1))
    (live : place.isLive = true) {callee : String} {target : Function} {args : List Operand}
    (known : final.cursor.module.function? callee = some target)
    (supplies : List.Forall₂ (fun operand ty =>
      place.Supplies final.cursor.module host promises operand ty) args
      (target.signature.params.map Code.Parameter.ty)) :
    (place.takeTemp target.signature.returns).Suits final.cursor.module host promises
      (.call (some (.temp place.freshTemp)) callee args) := by
  have taken := supplies.imp fun _ _ supplies =>
    supplies_takeTemp regular live supplies target.signature.returns
  exact ⟨offers_of_forall₂ taken, .callValue known (provides_of_forall₂ taken)
    (.temp (Place.tempType?_fresh room _))⟩

theorem suits_callNothing {callee : String} {target : Function} {args : List Operand}
    (known : final.cursor.module.function? callee = some target)
    (returns : target.signature.returns = .void)
    (supplies : List.Forall₂ (fun operand ty =>
      place.Supplies final.cursor.module host promises operand ty) args
      (target.signature.params.map Code.Parameter.ty)) :
    place.Suits final.cursor.module host promises (.call none callee args) :=
  ⟨offers_of_forall₂ supplies, .callNothing known (provides_of_forall₂ supplies) returns⟩

theorem suits_pair (regular : place.Regular) (live : place.isLive = true) {first second : Operand}
    {left right result : Code.Ty} {instruction : Code.Instruction}
    (operands : instruction.operands = [first, second])
    (supplies : place.Supplies final.cursor.module host promises first left)
    (others : place.Supplies final.cursor.module host promises second right)
    (typed : (host.withBody (place.takeTemp result).body).Provides first left →
      (host.withBody (place.takeTemp result).body).Provides second right →
      (host.withBody (place.takeTemp result).body).TypedInstruction final.cursor.module
        instruction) :
    (place.takeTemp result).Suits final.cursor.module host promises instruction := by
  have one := supplies_takeTemp regular live supplies result
  have two := supplies_takeTemp regular live others result
  refine ⟨?_, typed one.provides two.provides⟩
  rw [operands]
  intro operand member
  rcases List.mem_cons.mp member with rfl | rest
  · exact one.offers
  · rw [List.mem_singleton.mp rest]
    exact two.offers

end Instructions

/-! ## Expressions -/

section Expressions

variable (furnished : Furnished program final)

include furnished

theorem Housed.locates (housed : Housed program final host promises place locals)
    (live : place.isLive = true) {id : VarId} {decl : VarDecl} {address : Operand}
    (found : program.var? id = some decl) (visible : InScope program locals id)
    (stored : final.annotations.storageOf id = .ok address) :
    place.Locates final.cursor.module host promises address (codeType decl.ty) := by
  rcases visible with member | ⟨other, otherFound, topLevel⟩
  · rcases housed live id member with ⟨other, otherAddress, otherFound, otherStored, locates⟩
    rw [found] at otherFound
    cases otherFound
    rw [stored] at otherStored
    cases otherStored
    exact locates
  · rw [found] at otherFound
    cases otherFound
    rcases furnished.globals id decl address found topLevel stored with
      ⟨global, entry, rfl, known, ty⟩
    refine ⟨⟨entry, known⟩, ?_⟩
    rw [← ty]
    exact .global known

/-- A function of the string library can be called with operands of the types of its parameters. -/
theorem Furnished.suits_library {signature : Code.Signature}
    (member : signature ∈ StringLibrary.signatures) (fit : place.Fit) (live : place.isLive = true)
    {args : List Operand}
    (supplies : List.Forall₂ (fun operand ty =>
      place.Supplies final.cursor.module host promises operand ty) args
      (signature.params.map Code.Parameter.ty)) :
    (place.takeTemp signature.returns).Suits final.cursor.module host promises
      (.call (some (.temp place.freshTemp)) signature.name args) := by
  rcases furnished.library signature member with ⟨target, known, rfl⟩
  exact suits_callValue fit.regular fit.room live known supplies

/-- Strings are compared in two steps, the second of which uses the temp of the first. -/
theorem Furnished.upholds_compareStrings {condition : Code.Condition} {first second : Operand}
    (fit : place.Fit) (honours : place.Honours final.cursor.module host promises pending)
    (supplied : Supplied final host promises place [first, second] [.string, .string])
    (compares : middle = place.ready.define StringLibrary.orderingType fun result =>
      .call (some result) StringLibrary.equals [first, second]) :
    Upholds final host promises pending place (middle.ready.define .bool fun result =>
        .compare result condition (.temp place.ready.freshTemp)
          (.constant (.int 0 StringLibrary.orderingType.width))) ∧
      ∀ operand ∈ some (Operand.temp middle.ready.freshTemp),
        Supplied final host promises (middle.ready.define .bool fun result =>
          .compare result condition (.temp place.ready.freshTemp)
            (.constant (.int 0 StringLibrary.orderingType.width))) [operand] [.boolean] := by
  rcases fits_compareStrings fit compares with ⟨regularMiddle, roomMiddle⟩
  have compared : middle.Honours final.cursor.module host promises pending ∧
      Place.Carries promises place promises middle ∧
      (middle.isLive = true → middle.Supplies final.cursor.module host promises
        (.temp place.ready.freshTemp) StringLibrary.orderingType) := by
    rw [compares]
    exact Place.promises_define honours fit.regular fit.room (fun _ => rfl) fun live =>
      furnished.suits_library StringLibrary.equals_mem fit live
        (.cons (supplied.both live).1 (.cons (supplied.both live).2 .nil))
  rcases compared with ⟨honoursMiddle, carries, supplies⟩
  have zero : middle.Supplies final.cursor.module host promises
      (.constant (.int 0 StringLibrary.orderingType.width)) StringLibrary.orderingType :=
    ⟨trivial, .int⟩
  refine And.imp_left (Upholds.trans ⟨honoursMiddle, carries⟩) (upholds_define honoursMiddle
    regularMiddle roomMiddle (fun _ => rfl) (fun live => ?_) rfl)
  exact suits_pair regularMiddle live rfl (supplies live) zero .compareNumbers

/-- What is added for an expression whose operands have the right types. -/
theorem Emits.upholds {node : ExprNode} {values : List Operand} {value : Option Operand}
    {types : List Source.Ty} {ty : Source.Ty}
    (emits : Emits program final node values place value after) (fit : place.Fit)
    (parts : ExprsTyped program callable locals (operandsOf node) types)
    (typed : NodeTyped program callable locals node types ty)
    (honours : place.Honours final.cursor.module host promises pending)
    (housed : Housed program final host promises place locals)
    (supplied : Supplied final host promises place values types) :
    Upholds final host promises pending place after ∧
      ∀ operand ∈ value, Supplied final host promises after [operand] [ty] := by
  cases emits with
  | booleanLiteral =>
      cases typed
      refine ⟨⟨honours, .refl _ _⟩, ?_⟩
      rintro operand ⟨⟩ live
      exact .cons ⟨trivial, .bool⟩ .nil
  | integerLiteral =>
      cases typed
      refine ⟨⟨honours, .refl _ _⟩, ?_⟩
      rintro operand ⟨⟩ live
      exact .cons ⟨trivial, .int⟩ .nil
  | @stringLiteral text data _ found =>
      cases typed
      refine upholds_define honours fit.regular fit.room (fun _ => rfl) (fun live => ?_) rfl
      exact furnished.suits_library StringLibrary.create_mem fit live
        (.cons ⟨⟨_, found⟩, .data⟩ .nil)
  | @identifier name id var address _ found stored =>
      cases typed with
      | identifier known visible =>
          rw [found] at known
          cases known
          refine upholds_define honours fit.regular fit.room (fun _ => rfl) (fun live => ?_) rfl
          exact suits_load fit.regular live (housed.locates furnished live found visible stored)
  | callNothing found arity returns =>
      cases typed with
      | call _ known params =>
          rcases furnished.functions _ _ _ known params with ⟨target, isTarget, types, result⟩
          rw [isTarget] at found
          cases found
          refine ⟨upholds_add honours fit.regular fit.room rfl fun live => ?_, by simp⟩
          refine suits_callNothing isTarget (Code.Ty.isVoid_iff.mp returns) ?_
          rw [types]
          exact List.forall₂_map_right_iff.mpr (supplied live)
  | callValue found arity returns =>
      cases typed with
      | call _ known params =>
          rcases furnished.functions _ _ _ known params with ⟨target, isTarget, types, result⟩
          rw [isTarget] at found
          cases found
          refine upholds_define honours fit.regular fit.room (fun _ => rfl) (fun live => ?_)
            result.symm
          refine suits_callValue fit.regular fit.room live isTarget ?_
          rw [types]
          exact List.forall₂_map_right_iff.mpr (supplied live)
  | negate =>
      cases typed
      refine upholds_define honours fit.regular fit.room (fun _ => rfl) (fun live => ?_) rfl
      have taken := supplies_takeTemp fit.regular live (supplied.head live) .i64
      refine ⟨fun operand member => ?_, .negate taken.provides⟩
      rw [List.mem_singleton.mp member]
      exact taken.offers
  | assign targets isIdentifier stored =>
      cases typed with
      | @binary _ _ _ ty _ means => cases ty <;> cases means
      | assign known sameIdentifier found visible =>
          rw [targets] at known
          cases known
          rw [isIdentifier] at sameIdentifier
          cases sameIdentifier
          have upholds := upholds_add honours fit.regular fit.room rfl fun live =>
            suits_store (housed.locates furnished live found visible stored) (supplied.head live)
          refine ⟨upholds, ?_⟩
          rintro operand ⟨⟩
          exact supplied.carried upholds.carries
  | arith found means =>
      rcases typed.operates parts found means with ⟨rfl, rfl⟩
      rw [List.mem_singleton.mp (mem_operandTypes means)] at supplied
      refine upholds_define honours fit.regular fit.room (fun _ => rfl) (fun live => ?_) rfl
      exact suits_pair fit.regular live rfl (supplied.both live).1 (supplied.both live).2 .arith
  | compare found means =>
      rcases typed.operates parts found means with ⟨rfl, rfl⟩
      refine upholds_define honours fit.regular fit.room (fun _ => rfl) (fun live => ?_) rfl
      rcases List.mem_pair.mp (mem_operandTypes means) with isInteger | isBoolean
      · rw [isInteger] at supplied
        exact suits_pair fit.regular live rfl (supplied.both live).1 (supplied.both live).2
          .compareNumbers
      · rw [isBoolean] at supplied
        exact suits_pair fit.regular live rfl (supplied.both live).1 (supplied.both live).2
          .compareTruths
  | concat found means =>
      rcases typed.operates parts found means with ⟨rfl, rfl⟩
      rw [List.mem_singleton.mp (mem_operandTypes means)] at supplied
      refine upholds_define honours fit.regular fit.room (fun _ => rfl) (fun live => ?_) rfl
      exact furnished.suits_library StringLibrary.concat_mem fit live
        (.cons (supplied.both live).1 (.cons (supplied.both live).2 .nil))
  | compareStrings found means compares =>
      rcases typed.operates parts found means with ⟨rfl, rfl⟩
      rw [List.mem_singleton.mp (mem_operandTypes means)] at supplied
      exact furnished.upholds_compareStrings fit honours supplied compares

theorem LowersValues.upholds {depth : Nat} {ids : List ExprId} {values : List Operand}
    {types : List Source.Ty} (lowers : LowersValues program final depth ids place values after)
    (typed : ExprsTyped program callable locals ids types)
    (honours : place.Honours final.cursor.module host promises pending)
    (housed : Housed program final host promises place locals) :
    Upholds final host promises pending place after ∧
      Supplied final host promises after values types := by
  induction lowers generalizing types with
  | nil =>
      cases typed
      exact ⟨⟨honours, .refl _ _⟩, fun _ => .nil⟩
  | cons found _ fit emits _ computes rest =>
      cases typed with
      | cons known parts nodeTyped _ others =>
          rw [found] at known
          cases known
          rcases computes parts honours housed with ⟨computed, supplied⟩
          rcases emits.upholds furnished fit parts nodeTyped computed.honours
            (housed.carried computed.carries) supplied with ⟨emitted, first⟩
          have both := computed.trans emitted
          rcases rest others both.honours (housed.carried both.carries) with ⟨rested, supplied⟩
          refine ⟨both.trans rested, fun live => ?_⟩
          exact .cons (((first _ rfl).carried rested.carries).head live) (supplied live)

theorem LowersExpr.upholds {id : ExprId} {value : Option Operand} {ty : Source.Ty}
    (lowers : LowersExpr program final id place value after)
    (typed : ExprTyped program callable locals id ty)
    (honours : place.Honours final.cursor.module host promises pending)
    (housed : Housed program final host promises place locals) :
    Upholds final host promises pending place after ∧
      ∀ operand ∈ value, Supplied final host promises after [operand] [ty] := by
  cases lowers with
  | intro found computes fit emits =>
      cases typed with
      | intro known parts nodeTyped =>
          rw [found] at known
          cases known
          rcases computes.upholds furnished parts honours housed with ⟨computed, supplied⟩
          exact And.imp_left computed.trans (emits.upholds furnished fit parts nodeTyped
            computed.honours (housed.carried computed.carries) supplied)

theorem LowersEach.upholds {ids : List ExprId} (lowers : LowersEach program final ids place after)
    (typed : ∀ id ∈ ids, ∃ ty, ExprTyped program callable locals id ty)
    (honours : place.Honours final.cursor.module host promises pending)
    (housed : Housed program final host promises place locals) :
    Upholds final host promises pending place after := by
  induction lowers with
  | nil => exact ⟨honours, .refl _ _⟩
  | cons computes _ rest =>
      rcases typed _ List.mem_cons_self with ⟨ty, firstTyped⟩
      have first := (computes.upholds furnished firstTyped honours housed).1
      exact first.trans (rest (fun id member => typed id (List.mem_cons_of_mem _ member))
        first.honours (housed.carried first.carries))

/-! ## Variables -/

theorem LowersInitial.upholds {decl : VarDecl} {value : Option Operand}
    (lowers : LowersInitial program final decl.initial place value after)
    (starts : ∀ id, decl.initial = Option.some id → ExprTyped program callable locals id decl.ty)
    (honours : place.Honours final.cursor.module host promises pending)
    (housed : Housed program final host promises place locals) :
    Upholds final host promises pending place after ∧
      ∀ operand ∈ value, Supplied final host promises after [operand] [decl.ty] := by
  generalize initially : decl.initial = initial at lowers starts
  cases lowers with
  | none => exact ⟨⟨honours, .refl _ _⟩, by simp⟩
  | some computes => exact computes.upholds furnished (starts _ rfl) honours housed

omit furnished in
theorem upholds_alloca (honours : place.Honours final.cursor.module host promises pending)
    (fit : place.Fit) {ty : Source.Ty} (notVoid : ty ≠ .void) (align : UInt32) :
    Upholds final host promises pending place
        (place.ready.define .ptr fun result => .alloca result (codeType ty) align) ∧
      ((place.ready.define .ptr fun result => .alloca result (codeType ty) align).isLive = true →
        (place.ready.define .ptr fun result => .alloca result (codeType ty) align).Locates
          final.cursor.module host promises (.temp place.ready.freshTemp) (codeType ty)) := by
  have stored := codeType_ne_void notVoid
  have suits : place.isLive = true → (place.takeTemp .ptr).Suits final.cursor.module host promises
      (.alloca (.temp place.freshTemp) (codeType ty) align) :=
    fun _ => ⟨fun _ member => (by cases member), .alloca stored⟩
  have reserves : (place.ready.define .ptr fun result =>
      .alloca result (codeType ty) align).Honours final.cursor.module host promises pending ∧ _ :=
    Place.promises_define honours fit.regular fit.room (fun _ => rfl) suits
  rcases reserves with ⟨after, carries, supplies⟩
  refine ⟨⟨after, carries⟩, fun live => ⟨(supplies live).offers, ?_⟩⟩
  have isOpen : (place.ready.takeTemp .ptr).isOpen = true := isOpen_ready place
  have taken : (place.ready.takeTemp .ptr).isLive = true :=
    (Place.isLive_add isOpen _).symm.trans live
  rcases Place.mem_code_add taken (.alloca (.temp place.ready.freshTemp) (codeType ty) align) with
    ⟨block, index, member⟩
  exact .slot member

omit furnished in
theorem upholds_slot (honours : place.Honours final.cursor.module host promises pending)
    (fit : place.Fit) {ty : Source.Ty} (notVoid : ty ≠ .void) {align : UInt32} {value : Operand}
    (supplied : Supplied final host promises place [value] [ty])
    (reserves : middle = place.ready.define .ptr fun result =>
      .alloca result (codeType ty) align) :
    Upholds final host promises pending place
        (middle.ready.add (.store (.temp place.ready.freshTemp) value)) ∧
      ((middle.ready.add (.store (.temp place.ready.freshTemp) value)).isLive = true →
        (middle.ready.add (.store (.temp place.ready.freshTemp) value)).Locates
          final.cursor.module host promises (.temp place.ready.freshTemp) (codeType ty)) := by
  rcases upholds_alloca honours fit notVoid align with ⟨reserved, locates⟩
  rw [← reserves] at reserved locates
  have safe : SafeOperation 2 fun place => place.ready.define .ptr fun result =>
      .alloca result (codeType ty) align := .define _ fun _ => rfl
  have regular : middle.Regular := by
    rw [reserves]
    exact safe.regular place 6 fit.regular fit.room
  have room : middle.Room 6 := by
    rw [reserves]
    exact safe.room place 6 fit.room
  have stored := upholds_add reserved.honours regular room rfl fun live =>
    suits_store (locates live) ((supplied.carried reserved.carries).head live)
  exact ⟨reserved.trans stored, fun live =>
    stored.carries.locates live (locates (stored.carries.live live))⟩

theorem LowersVar.upholds {id : VarId} (lowers : LowersVar program final id place after)
    (typed : VarTyped program callable locals id)
    (honours : place.Honours final.cursor.module host promises pending)
    (housed : Housed program final host promises place locals) :
    Upholds final host promises pending place after ∧
      Housed program final host promises after (localsOf program [id]) := by
  rcases typed with ⟨known, _, starts⟩
  have topLevel : ∀ {decl : VarDecl}, program.var? id = some decl → decl.scope = .topLevel →
      localsOf program [id] = [] := by
    intro decl found isGlobal
    simp [localsOf, found, isGlobal]
  have isLocal : ∀ {decl : VarDecl}, program.var? id = some decl → decl.scope = .local →
      localsOf program [id] = [id] := by
    intro decl found isLocal
    simp [localsOf, found, isLocal]
  cases lowers with
  | stored found _ isGlobal computes fit _ becomes =>
      rw [found] at known
      cases known
      rw [topLevel found isGlobal]
      rcases computes.upholds furnished starts honours housed with ⟨computed, supplied⟩
      rcases becomes with ⟨_, initial, _, isEntry⟩
      refine ⟨computed.trans (upholds_add computed.honours fit.regular fit.room rfl fun live => ?_),
        .nil⟩
      exact suits_store ⟨⟨_, isEntry⟩, .global isEntry⟩ ((supplied _ rfl).head live)
  | kept found _ isGlobal computes _ _ =>
      rw [found] at known
      cases known
      rw [topLevel found isGlobal]
      exact ⟨(computes.upholds furnished starts honours housed).1, .nil⟩
  | empty found notVoid isHere fit _ stored =>
      rw [isLocal found isHere]
      rcases upholds_alloca honours fit notVoid _ with ⟨reserved, locates⟩
      refine ⟨reserved, fun live other member => ?_⟩
      rw [List.mem_singleton.mp member]
      exact ⟨_, _, found, stored, locates live⟩
  | filled found notVoid isHere something computes fit reserves stored =>
      rw [found] at known
      cases known
      rw [isLocal found isHere]
      rcases computes.upholds furnished (starts _ something) honours housed with
        ⟨computed, supplied⟩
      rcases upholds_slot computed.honours fit notVoid (supplied _ rfl) reserves with
        ⟨filled, locates⟩
      refine ⟨computed.trans filled, fun live other member => ?_⟩
      rw [List.mem_singleton.mp member]
      exact ⟨_, _, found, stored, locates live⟩

end Expressions

end ScriptLowering.Lowering
