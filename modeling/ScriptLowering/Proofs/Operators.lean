import ScriptLowering.Proofs.FollowedEvaluation
import ScriptLowering.Proofs.Resolution

/-! # Operators

Every operator computes the same in the source and in the code, and traps in both or in neither.
-/

namespace ScriptLowering.Lowering

open Source (BinaryOp Datum Halt Library Store Ty)
open Code (ArithOp Condition)

/-! ## Types -/

def Operation.operandTypes : Operation → List Ty
  | .arith _ => [.integer]
  | .compare _ => [.integer, .boolean]
  | .concat | .compareStrings _ => [.string]

def Operation.resultType : Operation → Ty
  | .arith _ => .integer
  | .concat => .string
  | .compare _ | .compareStrings _ => .boolean

section Types

variable {op : BinaryOp} {ty result : Ty} {operation : Operation}

theorem mem_operandTypes (means : operation? op ty = some operation) :
    ty ∈ operation.operandTypes := by
  cases op <;> cases ty <;> cases means <;> simp [Operation.operandTypes]

theorem resultType?_eq (means : operation? op ty = some operation) :
    resultType? op ty = some operation.resultType := by
  cases op <;> cases ty <;> cases means <;> rfl

theorem operation?_isSome (means : resultType? op ty = some result) :
    (operation? op ty).isSome = true := by
  cases op <;> cases ty <;> first | rfl | cases means

theorem ne_assign_of_resultType? (means : resultType? op ty = some result) : op ≠ .assign := by
  rintro rfl
  cases ty <;> cases means

end Types

/-- Where an operator means an operation, its operands have the type that it is looked up at. -/
theorem NodeTyped.operates {program : Source.Program} {callable : Source.FuncId → Prop}
    {locals : List Source.VarId} {op : BinaryOp}
    {left right : Source.ExprId} {types : List Ty} {ty : Ty} {expr : Source.Expr}
    {operation : Operation}
    (typed : NodeTyped program callable locals (.binary op left right) types ty)
    (parts : ExprsTyped program callable locals (operandsOf (.binary op left right)) types)
    (found : program.expr? left = some expr) (means : operation? op expr.ty = some operation) :
    types = [expr.ty, expr.ty] ∧ ty = operation.resultType := by
  have notAssign := ne_assign_of_resultType? (resultType?_eq means)
  cases typed with
  | assign => exact absurd rfl notAssign
  | binary result =>
      simp only [operandsOf, if_neg notAssign] at parts
      cases parts with
      | cons leftFound _ _ _ _ =>
          cases found.symm.trans leftFound
          rw [resultType?_eq means] at result
          exact ⟨rfl, (Option.some.inj result).symm⟩

/-! ## Numbers -/

theorem checked_eq (value : Int) :
    Code.checked 64 value =
      if Int64.minValue.toInt ≤ value ∧ value ≤ Int64.maxValue.toInt then some value
      else none := by
  have width : ((64 : UInt16).toNat) = 64 := rfl
  have fits : Code.Value.wrapped 64 value = value ↔
      Int64.minValue.toInt ≤ value ∧ value ≤ Int64.maxValue.toInt := by
    rw [Code.Value.wrapped, width, Int64.toInt_minValue, Int64.toInt_maxValue,
      Int.bmod_eq_iff (by decide)]
    omega
  simp only [Code.checked, fits]

theorem toInt_ofInt {value : Int} (fits : Int64.minValue.toInt ≤ value ∧
    value ≤ Int64.maxValue.toInt) : (Int64.ofInt value).toInt = value := by
  rw [Int64.toInt_minValue, Int64.toInt_maxValue] at fits
  exact Int64.toInt_ofInt_of_le fits.1 (by omega)

/-- Checked arithmetic on both sides: the number, or a trap. -/
inductive ChecksAlike (result : Except Halt (Datum × Store)) (store : Store) : Option Int → Prop
  | number {number : Int64} (computes : result = .ok (.number number, store)) :
      ChecksAlike result store (some number.toInt)
  | trap (traps : result = .error .trap) : ChecksAlike result store none

theorem checksAlike_checked (value : Int) (store : Store) :
    ChecksAlike (Source.Eval.checked value store) store (Code.checked 64 value) := by
  rw [checked_eq]
  unfold Source.Eval.checked
  split
  · rename_i fits
    have number : ChecksAlike (.ok (.number (.ofInt value), store)) store
        (some (Int64.ofInt value).toInt) := .number rfl
    rw [toInt_ofInt fits] at number
    exact number
  · exact .trap rfl

theorem eq_number_of_hasType {datum : Datum} (typed : datum.hasType .integer = true) :
    ∃ number, datum = .number number := by
  cases datum with
  | number number => exact ⟨number, rfl⟩
  | truth | text => cases typed

theorem eq_truth_of_hasType {datum : Datum} (typed : datum.hasType .boolean = true) :
    ∃ truth, datum = .truth truth := by
  cases datum with
  | truth truth => exact ⟨truth, rfl⟩
  | number | text => cases typed

theorem eq_text_of_hasType {datum : Datum} (typed : datum.hasType .string = true) :
    ∃ handle, datum = .text handle := by
  cases datum with
  | text handle => exact ⟨handle, rfl⟩
  | number | truth => cases typed

/-! ## Operations -/

variable (library : Library)

theorem operate_arith {op : BinaryOp} {ty : Ty} {operator : ArithOp} {left right : Datum}
    (means : operation? op ty = some (.arith operator)) (leftTyped : left.hasType ty = true)
    (rightTyped : right.hasType ty = true) (store : Store) :
    ∃ first second, left = .number first ∧ right = .number second ∧
      ChecksAlike (Source.operate library op left right store) store
        (operator.apply 64 first.toInt second.toInt) := by
  have integer : ty = .integer := by
    cases op <;> cases ty <;> simp [operation?] at means <;> rfl
  subst integer
  rcases eq_number_of_hasType leftTyped with ⟨first, rfl⟩
  rcases eq_number_of_hasType rightTyped with ⟨second, rfl⟩
  refine ⟨first, second, rfl, rfl, ?_⟩
  have zero : second.toInt = 0 ↔ second = 0 := by
    rw [← Int64.toInt_zero, Int64.toInt_inj]
  cases op <;> simp only [operation?, Option.some.injEq, Operation.arith.injEq, reduceCtorEq]
    at means
  all_goals subst means
  case divide =>
    simp only [Source.operate, ArithOp.apply, zero]
    split
    · exact .trap rfl
    · exact checksAlike_checked _ store
  all_goals exact checksAlike_checked _ store

def comparedNumber : Datum → Int
  | .truth value => Code.Value.ofTruth value
  | .number value => value.toInt
  | .text _ => 0

theorem ofTruth_inj {left right : Bool} :
    Code.Value.ofTruth left = Code.Value.ofTruth right ↔ left = right := by
  cases left <;> cases right <;> simp [Code.Value.ofTruth]

theorem operate_compare {op : BinaryOp} {ty : Ty} {condition : Condition} {left right : Datum}
    (means : operation? op ty = some (.compare condition)) (leftTyped : left.hasType ty = true)
    (rightTyped : right.hasType ty = true) (store : Store) :
    (ty = .integer ∨ ty = .boolean) ∧ Source.operate library op left right store =
      .ok (.truth (condition.holds (comparedNumber left) (comparedNumber right)), store) := by
  have truths : ∀ {first second : Prop} [Decidable first] [Decidable second],
      (first ↔ second) → (Except.ok (Datum.truth (decide first), store) :
        Except Halt (Datum × Store)) = .ok (.truth (decide second), store) := by
    intro first second _ _ same
    rw [decide_eq_decide.mpr same]
  cases op <;> cases ty <;> simp only [operation?, Option.some.injEq, Operation.compare.injEq,
    reduceCtorEq] at means
  all_goals subst means
  all_goals refine ⟨by simp, ?_⟩
  case equals.boolean | notEquals.boolean =>
    rcases eq_truth_of_hasType leftTyped with ⟨first, rfl⟩
    rcases eq_truth_of_hasType rightTyped with ⟨second, rfl⟩
    first
      | exact truths ofTruth_inj.symm
      | exact truths (not_congr ofTruth_inj.symm)
  all_goals
    rcases eq_number_of_hasType leftTyped with ⟨first, rfl⟩
    rcases eq_number_of_hasType rightTyped with ⟨second, rfl⟩
    first
      | exact truths Int64.lt_iff_toInt_lt
      | exact truths Int64.le_iff_toInt_le
      | exact truths Int64.toInt_inj.symm
      | exact truths (not_congr Int64.toInt_inj.symm)

theorem operate_concat {op : BinaryOp} {ty : Ty} {left right : Datum}
    (means : operation? op ty = some .concat) (leftTyped : left.hasType ty = true)
    (rightTyped : right.hasType ty = true) (store : Store) :
    ∃ first second, left = .text first ∧ right = .text second ∧
      Source.operate library op left right store =
        .ok (.text (library.concat first second), store) := by
  cases op <;> cases ty <;> simp only [operation?, Option.some.injEq, reduceCtorEq] at means
  rcases eq_text_of_hasType leftTyped with ⟨first, rfl⟩
  rcases eq_text_of_hasType rightTyped with ⟨second, rfl⟩
  exact ⟨first, second, rfl, rfl, rfl⟩

theorem operate_compareStrings {op : BinaryOp} {ty : Ty} {condition : Condition}
    {left right : Datum} (means : operation? op ty = some (.compareStrings condition))
    (leftTyped : left.hasType ty = true) (rightTyped : right.hasType ty = true) (store : Store) :
    ∃ first second, left = .text first ∧ right = .text second ∧
      Source.operate library op left right store =
        .ok (.truth (condition.holds (library.compare first second).toInt 0), store) := by
  have zero : ∀ order : Int32, order.toInt = 0 ↔ order = 0 := by
    intro order
    rw [← Int32.toInt_zero, Int32.toInt_inj]
  have yields : ∀ datum : Datum, (pure datum : Source.Eval Datum) store = .ok (datum, store) :=
    fun _ => rfl
  cases op <;> cases ty <;> simp only [operation?, Option.some.injEq,
    Operation.compareStrings.injEq, reduceCtorEq] at means
  all_goals subst means
  all_goals
    rcases eq_text_of_hasType leftTyped with ⟨first, rfl⟩
    rcases eq_text_of_hasType rightTyped with ⟨second, rfl⟩
    refine ⟨first, second, rfl, rfl, ?_⟩
    simp [Source.operate, Condition.holds, zero, yields]

end ScriptLowering.Lowering
