import ScriptLowering.Lowering.Session

/-! # What lowering steps ensure

A step from a session ensures a property of its result and of the session it leads to, and
in the case of a failure a property of the error. The rules follow the shape of the steps.
-/

namespace ScriptLowering.Lowering

open Code (BuildError Cursor)

theorem Lower.bind_eq {α β : Type} {step : Lower α} {rest : α → Lower β}
    {session next : Session} {value : α} (runs : step session = .ok (value, next)) :
    (step >>= rest) session = rest value next := by
  simp only [bind, StateT.bind, runs, Except.bind]

theorem Lower.bind_eq_error {α β : Type} {step : Lower α} {rest : α → Lower β}
    {session : Session} {error : Error} (fails : step session = .error error) :
    (step >>= rest) session = .error error := by
  simp only [bind, StateT.bind, fails, Except.bind]

theorem Lower.bind_eq_ok {α β : Type} {step : Lower α} {rest : α → Lower β}
    {session last : Session} {result : β} :
    (step >>= rest) session = .ok (result, last) ↔
      ∃ value next, step session = .ok (value, next) ∧ rest value next = .ok (result, last) := by
  constructor
  · intro runs
    cases outcome : step session with
    | error error =>
        rw [Lower.bind_eq_error outcome] at runs
        cases runs
    | ok pair =>
        rw [Lower.bind_eq outcome] at runs
        exact ⟨pair.1, pair.2, rfl, runs⟩
  · rintro ⟨value, next, first, second⟩
    rw [Lower.bind_eq first, second]

theorem Lower.orFault_some_bind {α β : Type} (value : α) (fault : ProgramFault)
    (rest : α → Lower β) : (Lower.orFault (some value) fault >>= rest) = rest value := rfl

theorem Lower.orFault_none_bind {α β : Type} (fault : ProgramFault) (rest : α → Lower β) :
    (Lower.orFault none fault >>= rest) = Lower.fault fault := rfl

theorem Lower.forM_cons {α : Type} (item : α) (rest : List α) (body : α → Lower Unit) :
    (item :: rest).forM body = body item >>= fun _ => rest.forM body := rfl

theorem Lower.of_emitted {α : Type} {outcome : Except BuildError α × Cursor} {value : α}
    {next : Cursor}
    (emits : (match outcome with
      | (.ok value, next) => .ok (value, next)
      | (.error error, _) => .error error : Except BuildError (α × Cursor)) = .ok (value, next)) :
    outcome = (.ok value, next) := by
  rcases outcome with ⟨error | value, between⟩
  · cases emits
  · cases emits
    rfl

def Lower.Ensures {α : Type} (step : Lower α) (session : Session)
    (post : α → Session → Prop) (errors : Error → Prop) : Prop :=
  match step session with
  | .ok (value, next) => post value next
  | .error error => errors error

namespace Lower.Ensures

variable {α β : Type} {step : Lower α} {session : Session} {post : α → Session → Prop}
  {errors : Error → Prop}

theorem of_ok {value : α} {next : Session} (runs : step session = .ok (value, next))
    (holds : post value next) : Ensures step session post errors := by
  simp only [Ensures, runs]
  exact holds

theorem of_error {error : Error} (fails : step session = .error error)
    (holds : errors error) : Ensures step session post errors := by
  simp only [Ensures, fails]
  exact holds

theorem post_of_ok (ensures : Ensures step session post errors) {value : α} {next : Session}
    (runs : step session = .ok (value, next)) : post value next := by
  simp only [Ensures, runs] at ensures
  exact ensures

theorem of_error_eq (ensures : Ensures step session post errors) {error : Error}
    (fails : step session = .error error) : errors error := by
  simp only [Ensures, fails] at ensures
  exact ensures

theorem self (step : Lower α) (session : Session) :
    Ensures step session (fun value next => step session = .ok (value, next)) fun _ => True := by
  unfold Ensures
  split <;> first | assumption | trivial

theorem mono (ensures : Ensures step session post errors) {weaker : α → Session → Prop}
    (weakens : ∀ value next, post value next → weaker value next) :
    Ensures step session weaker errors := by
  unfold Ensures at ensures ⊢
  cases result : step session with
  | ok pair =>
      simp only [result] at ensures
      exact weakens _ _ ensures
  | error error =>
      simp only [result] at ensures
      exact ensures

theorem mono_errors (ensures : Ensures step session post errors) {more : Error → Prop}
    (weakens : ∀ error, errors error → more error) : Ensures step session post more := by
  cases result : step session with
  | ok pair => exact of_ok result (ensures.post_of_ok result)
  | error error => exact of_error result (weakens error (ensures.of_error_eq result))

theorem and {other : α → Session → Prop} (first : Ensures step session post errors)
    (second : Ensures step session other errors) :
    Ensures step session (fun value next => post value next ∧ other value next) errors := by
  cases result : step session with
  | ok pair => exact of_ok result ⟨first.post_of_ok result, second.post_of_ok result⟩
  | error error => exact of_error result (first.of_error_eq result)

theorem all {ι : Type} {posts : ι → α → Session → Prop} (some : ι)
    (each : ∀ index, Ensures step session (posts index) errors) :
    Ensures step session (fun value next => ∀ index, posts index value next) errors := by
  cases result : step session with
  | ok pair => exact of_ok result fun index => (each index).post_of_ok result
  | error error => exact of_error result ((each some).of_error_eq result)

theorem bind {rest : α → Lower β} {final : β → Session → Prop}
    (first : Ensures step session post errors)
    (second : ∀ value next, post value next → Ensures (rest value) next final errors) :
    Ensures (step >>= rest) session final errors := by
  unfold Ensures at first
  cases result : step session with
  | ok pair =>
      simp only [result] at first
      have rests := second _ _ first
      unfold Ensures at rests ⊢
      rw [Lower.bind_eq result]
      exact rests
  | error error =>
      simp only [result] at first
      exact of_error (Lower.bind_eq_error result) first

theorem bind_ok {rest : α → Lower β} {final : β → Session → Prop} {value : α}
    {next : Session} (runs : step session = .ok (value, next))
    (second : Ensures (rest value) next final errors) :
    Ensures (step >>= rest) session final errors := by
  unfold Ensures at second ⊢
  rw [Lower.bind_eq runs]
  exact second

theorem map {convert : α → β} {final : β → Session → Prop}
    (ensures : Ensures step session (fun value next => final (convert value) next) errors) :
    Ensures (convert <$> step) session final errors := by
  have converts : convert <$> step = step >>= fun value => Pure.pure (convert value) := rfl
  rw [converts]
  exact ensures.bind fun value next holds => of_ok rfl holds

theorem pure {value : α} (holds : post value session) :
    Ensures (Pure.pure value) session post errors :=
  of_ok rfl holds

theorem of_bind_pure (ensures : Ensures (step >>= Pure.pure) session post errors) :
    Ensures step session post errors := by
  rw [bind_pure] at ensures
  exact ensures

theorem orFault_bind {found : Option α} {fault : ProgramFault} {rest : α → Lower β}
    {final : β → Session → Prop} (absent : found = none → errors (.program fault))
    (present : ∀ value, found = some value → Ensures (rest value) session final errors) :
    Ensures (Lower.orFault found fault >>= rest) session final errors := by
  cases found with
  | none => exact of_error rfl (absent rfl)
  | some value => exact present value rfl

theorem consult_bind {question : Annotations → Except ProgramFault α} {rest : α → Lower β}
    {final : β → Session → Prop}
    (refused : ∀ fault, question session.annotations = .error fault → errors (.program fault))
    (answered : ∀ value, question session.annotations = .ok value →
      Ensures (rest value) session final errors) :
    Ensures (Lower.consult question >>= rest) session final errors := by
  cases answer : question session.annotations with
  | error fault =>
      have fails : Lower.consult question session = .error (.program fault) := by
        simp only [Lower.consult, answer]
      exact of_error (Lower.bind_eq_error fails) (refused fault answer)
  | ok value =>
      have runs : Lower.consult question session = .ok (value, session) := by
        simp only [Lower.consult, answer]
      exact bind_ok runs (answered value answer)

theorem annotate_bind {change : Annotations → Except ProgramFault Annotations}
    {rest : Unit → Lower β} {final : β → Session → Prop}
    (refused : ∀ fault, change session.annotations = .error fault → errors (.program fault))
    (changed : ∀ annotations, change session.annotations = .ok annotations →
      Ensures (rest ()) { session with annotations := annotations } final errors) :
    Ensures (Lower.annotate change >>= rest) session final errors := by
  cases answer : change session.annotations with
  | error fault =>
      have fails : Lower.annotate change session = .error (.program fault) := by
        simp only [Lower.annotate, answer]
      exact of_error (Lower.bind_eq_error fails) (refused fault answer)
  | ok annotations =>
      have runs : Lower.annotate change session =
          .ok ((), { session with annotations := annotations }) := by
        simp only [Lower.annotate, answer]
      exact bind_ok runs (changed annotations answer)

theorem build {change : Cursor → Except BuildError Cursor} {post : Unit → Session → Prop}
    (refused : ∀ error, change session.cursor = .error error → errors (.build error))
    (changed : ∀ next, change session.cursor = .ok next → post () { session with cursor := next }) :
    Ensures (Lower.build change) session post errors := by
  unfold Ensures Lower.build
  cases result : change session.cursor with
  | error error => exact refused error result
  | ok next => exact changed next result

theorem buildWith {change : Cursor → Except BuildError (α × Cursor)}
    (refused : ∀ error, change session.cursor = .error error → errors (.build error))
    (changed : ∀ value next, change session.cursor = .ok (value, next) →
      post value { session with cursor := next }) :
    Ensures (Lower.buildWith change) session post errors := by
  unfold Ensures Lower.buildWith
  cases result : change session.cursor with
  | error error => exact refused error result
  | ok pair => exact changed pair.1 pair.2 result

theorem ask {question : Cursor → Except BuildError α}
    (refused : ∀ error, question session.cursor = .error error → errors (.build error))
    (answered : ∀ value, question session.cursor = .ok value → post value session) :
    Ensures (Lower.ask question) session post errors := by
  unfold Ensures Lower.ask
  cases result : question session.cursor with
  | error error => exact refused error result
  | ok value => exact answered value result

theorem annotate {change : Annotations → Except ProgramFault Annotations}
    {post : Unit → Session → Prop}
    (refused : ∀ fault, change session.annotations = .error fault → errors (.program fault))
    (changed : ∀ next, change session.annotations = .ok next →
      post () { session with annotations := next }) :
    Ensures (Lower.annotate change) session post errors :=
  of_bind_pure (annotate_bind refused fun next changes => pure (changed next changes))

/-- What one pass of a loop keeps, the loop keeps; `rest` is what remains to be done. -/
theorem forM {items : List α} {body : α → Lower Unit} {keeps : List α → Session → Prop}
    (start : keeps items session)
    (pass : ∀ item rest next, keeps (item :: rest) next →
      Ensures (body item) next (fun _ after => keeps rest after) errors) :
    Ensures (items.forM body) session (fun _ after => keeps [] after) errors := by
  induction items generalizing session with
  | nil => exact of_ok rfl start
  | cons item rest induction =>
      rw [Lower.forM_cons]
      exact (pass item rest session start).bind fun _ after holds => induction holds

end Lower.Ensures

end ScriptLowering.Lowering
