import ScriptLowering.Proofs.PendingPromises

/-! # Statements keep promises

What is lowered for a part of a resolved program keeps the promises that were made to blocks, those
around the part and those that it makes itself. Control is behind the part only if the part may end
there, so that a body that cannot end leaves no block open.
-/

namespace ScriptLowering.Lowering

open Source (Program ExprId Stmt StmtId VarId FuncId ForInit)
open Code (BlockId Function Operand Place Promises)

/-- Control may go from the place to the loops around the part in the ways in which the part may
leave for them. -/
def Leavable (program : Program) (final : Session) (part : Part) (promises : Promises)
    (pending : List BlockId) (place : Place) (loops : List StmtId) : Prop :=
  place.isLive = true → ∀ target ∈ loops, ∃ blocks,
    final.annotations.loopOf target = .ok blocks ∧
    (Ends program part (.broke target) → place.Admits promises pending blocks.exit) ∧
    (Ends program part (.continued target) →
      place.Admits promises pending blocks.continueTarget)

/-- What has become of promises behind a part. -/
structure Observes (program : Program) (final : Session) (host : Function) (part : Part)
    (pending : List BlockId) (promises : Promises) (place : Place) (next : Promises)
    (after : Place) : Prop where
  honours : after.Honours final.cursor.module host next pending
  carries : Place.Carries promises place next after
  ends : after.isLive = true → Ends program part .normal
  housed : Housed program final host next after (part.declares program)

def PartObserves (program : Program) (callable : FuncId → Prop) (final : Session) (part : Part)
    (place after : Place) : Prop :=
  ∀ {host : Function} {returns : Source.Ty} {loops : List StmtId} {locals : List VarId}
    {promises : Promises} {pending : List BlockId},
    PartTyped program callable returns loops locals part →
    host.signature.returns = codeType returns →
    after.Regular → place.Honours final.cursor.module host promises pending →
    Housed program final host promises place locals →
    Leavable program final part promises pending place loops →
    ∃ next, Observes program final host part pending promises place next after

variable {program : Program} {callable : FuncId → Prop} {final : Session} {host : Function}
  {promises next : Promises} {pending more : List BlockId} {place middle after done : Place}
  {locals : List VarId}
  {loops : List StmtId} {depth : Nat}

namespace Leavable

theorem inside {part inner : Part}
    (leavable : Leavable program final part promises pending place loops)
    (carries : Place.Carries promises place next after) (within : ∀ id ∈ pending, id ∈ more)
    (outward : after.isLive = true → ∀ exit, exit ≠ .normal → Ends program inner exit →
      Ends program part exit) :
    Leavable program final inner next more after loops := by
  intro live target member
  rcases leavable (carries.live live) target member with ⟨blocks, known, leave, again⟩
  refine ⟨blocks, known, fun ends => ?_, fun ends => ?_⟩
  · exact carries.admits live within (leave (outward live _ (by simp) ends))
  · exact carries.admits live within (again (outward live _ (by simp) ends))

theorem loop {part inner : Part} {id : StmtId} {blocks : LoopBlocks}
    (leavable : Leavable program final part promises pending place loops)
    (carries : Place.Carries promises place next after) (within : ∀ id ∈ pending, id ∈ more)
    (outward : after.isLive = true → ∀ exit, exit.Passes id → Ends program inner exit →
      Ends program part exit)
    (known : final.annotations.loopOf id = .ok blocks)
    (leave : after.isLive = true → Ends program inner (.broke id) →
      after.Admits next more blocks.exit)
    (again : after.isLive = true → after.Admits next more blocks.continueTarget) :
    Leavable program final inner next more after (id :: loops) := by
  intro live target member
  by_cases own : target = id
  · subst own
    exact ⟨blocks, known, leave live, fun _ => again live⟩
  rcases List.mem_cons.mp member with same | outer
  · exact absurd same own
  rcases leavable (carries.live live) target outer with ⟨others, isKnown, outerLeave, outerAgain⟩
  refine ⟨others, isKnown, fun ends => ?_, fun ends => ?_⟩
  · exact carries.admits live within
      (outerLeave (outward live _ ⟨by simp, by simpa using own, by simp⟩ ends))
  · exact carries.admits live within
      (outerAgain (outward live _ ⟨by simp, by simp, by simpa using own⟩ ends))

end Leavable

/-! ## Parts without blocks of their own -/

theorem Upholds.observes {part : Part} (upholds : Upholds final host promises pending place after)
    (ends : Ends program part .normal) (nothing : part.declares program = []) :
    Observes program final host part pending promises place promises after where
  honours := upholds.honours
  carries := upholds.carries
  ends := fun _ => ends
  housed := by
    rw [nothing]
    exact .nil

theorem partObserves_expr (furnished : Furnished program final) {id : StmtId} {expr : ExprId}
    {value : Option Operand} (computes : LowersExpr program final expr place value after) :
    PartObserves program callable final (.stmt id (.expr expr)) place after := by
  intro host returns loops locals promises pending typed _ _ honours housed _
  cases typed with
  | expr typed =>
      exact ⟨promises, (computes.upholds furnished typed honours housed).1.observes .expr rfl⟩

theorem partObserves_nothing {id : StmtId} {node : Stmt}
    (ends : Ends program (.stmt id node) .normal) (nothing : declares program node = []) :
    PartObserves program callable final (.stmt id node) place place := by
  intro host returns loops locals promises pending _ _ _ honours _ _
  exact ⟨promises, Upholds.observes ⟨honours, .refl _ _⟩ ends nothing⟩

theorem partObserves_sequence {id head : StmtId} {tail : List StmtId} {node : Stmt}
    (found : program.stmt? head = some node)
    (rest : LowersPart program final (depth + 1) (.stmt id (.compound tail)) middle after)
    (firstObserves : PartObserves program callable final (.stmt head node) place middle)
    (restObserves : PartObserves program callable final (.stmt id (.compound tail)) middle after) :
    PartObserves program callable final (.stmt id (.compound (head :: tail))) place after := by
  intro host returns loops locals promises pending typed returned regular honours housed leavable
  cases typed with
  | sequence known firstTyped restTyped =>
      rw [found] at known
      cases known
      have outward : ∀ exit, exit ≠ .normal → Ends program (.stmt head node) exit →
          Ends program (.stmt id (.compound (head :: tail))) exit :=
        fun _ early ends => .first found ends early
      rcases firstObserves firstTyped returned (rest.regular regular) honours housed
        (leavable.inside (.refl _ _) (fun _ member => member) fun _ => outward) with ⟨next, first⟩
      rcases restObserves restTyped returned regular first.honours
        (first.housed.append (housed.carried first.carries))
        (leavable.inside first.carries (fun _ member => member)
          fun live _ _ ends => .rest found (first.ends live) ends) with ⟨last, second⟩
      exact ⟨last, {
        honours := second.honours
        carries := first.carries.trans second.carries
        ends := fun live => .rest found (first.ends (second.carries.live live)) (second.ends live)
        housed := .nil }⟩

theorem partObserves_vars (furnished : Furnished program final) {id : StmtId} {var : VarId}
    {rest : List VarId} (first : LowersVar program final var place middle)
    (othersObserve : PartObserves program callable final (.stmt id (.varDecl rest)) middle after) :
    PartObserves program callable final (.stmt id (.varDecl (var :: rest))) place after := by
  intro host returns loops locals promises pending typed returned regular honours housed leavable
  cases typed with
  | vars firstTyped othersTyped =>
      rcases first.upholds furnished firstTyped honours housed with ⟨upholds, firstHoused⟩
      rcases othersObserve othersTyped returned regular upholds.honours
        (firstHoused.append (housed.carried upholds.carries))
        (leavable.inside upholds.carries (fun _ member => member) fun _ _ early ends => by
          cases ends
          exact absurd rfl early) with ⟨next, others⟩
      have splits : localsOf program (var :: rest) =
          localsOf program [var] ++ localsOf program rest := by
        simp only [localsOf, ← List.filter_append, List.singleton_append]
      refine ⟨next, others.honours, upholds.carries.trans others.carries, fun _ => .varDecl, ?_⟩
      change Housed program final host next after (localsOf program (var :: rest))
      rw [splits]
      exact (firstHoused.carried others.carries).append others.housed

theorem observes_terminate {part : Part} {terminator : Code.Terminator}
    (fit : place.Fit) (honours : place.Honours final.cursor.module host promises pending)
    (finished : terminator.isFinished = true)
    (accepts : place.isLive = true →
      place.Accepts final.cursor.module host promises pending terminator) :
    Observes program final host part pending promises place promises
      (place.ready.terminate terminator) := by
  rcases Place.promises_terminate honours fit.regular fit.room finished accepts with
    ⟨after, carries, dead⟩
  refine ⟨after, carries, fun live => ?_, fun live => ?_⟩
  · rw [dead] at live
    cases live
  · rw [dead] at live
    cases live

theorem accepts_jump {target : BlockId} (admits : place.Admits promises pending target) :
    place.Accepts final.cursor.module host promises pending (.jump target) := by
  refine ⟨by simp [Code.Terminator.operands], .jump, fun other edge => ?_⟩
  rw [List.mem_singleton.mp edge]
  exact admits

theorem partObserves_continueLoop {id target : StmtId} {blocks : LoopBlocks} (fit : place.Fit)
    (known : final.annotations.loopOf target = .ok blocks) :
    PartObserves program callable final (.stmt id (.continueLoop target)) place
      (place.ready.terminate (.jump blocks.continueTarget)) := by
  intro host returns loops locals promises pending typed _ _ honours _ leavable
  cases typed with
  | continueLoop encloses =>
      refine ⟨promises, observes_terminate fit honours rfl fun live => ?_⟩
      rcases leavable live target encloses with ⟨others, isKnown, _, again⟩
      rw [known] at isKnown
      cases isKnown
      exact accepts_jump (again .continueLoop)

theorem partObserves_breakLoop {id target : StmtId} {blocks : LoopBlocks} (fit : place.Fit)
    (known : final.annotations.loopOf target = .ok blocks) :
    PartObserves program callable final (.stmt id (.breakLoop target)) place
      (place.ready.terminate (.jump blocks.exit)) := by
  intro host returns loops locals promises pending typed _ _ honours _ leavable
  cases typed with
  | breakLoop encloses =>
      refine ⟨promises, observes_terminate fit honours rfl fun live => ?_⟩
      rcases leavable live target encloses with ⟨others, isKnown, leave, _⟩
      rw [known] at isKnown
      cases isKnown
      exact accepts_jump (leave .breakLoop)

theorem partObserves_returnNothing {id : StmtId} (fit : place.Fit) :
    PartObserves program callable final (.stmt id (.returnValue none)) place
      (place.ready.terminate (.ret none)) := by
  intro host returns loops locals promises pending typed returned _ honours _ _
  cases typed with
  | returnNothing nothing =>
      refine ⟨promises, observes_terminate fit honours rfl fun _ => ⟨?_, ?_, ?_⟩⟩
      · simp [Code.Terminator.operands]
      · subst nothing
        exact .nothing returned
      · simp [Code.Terminator.successors]

theorem partObserves_returnValue (furnished : Furnished program final) {id : StmtId}
    {expr : ExprId} {value : Operand} {valued : Place}
    (computes : LowersExpr program final expr place (some value) valued) (fit : valued.Fit) :
    PartObserves program callable final (.stmt id (.returnValue (some expr))) place
      (valued.ready.terminate (.ret (some value))) := by
  intro host returns loops locals promises pending typed returned _ honours housed _
  cases typed with
  | returnValue something typed =>
      rcases computes.upholds furnished typed honours housed with ⟨upholds, supplied⟩
      have ended : Observes program final host (.stmt id (.returnValue (some expr))) pending
          promises valued promises (valued.ready.terminate (.ret (some value))) := by
        refine observes_terminate fit upholds.honours rfl fun live => ⟨?_, ?_, ?_⟩
        · intro operand member
          rw [List.mem_singleton.mp member]
          exact ((supplied _ rfl).head live).offers
        · have provides := ((supplied _ rfl).head live).provides
          have notVoid := codeType_ne_void something
          rw [← returned] at provides notVoid
          exact .value notVoid provides
        · simp [Code.Terminator.successors]
      exact ⟨promises, ended.honours, upholds.carries.trans ended.carries, ended.ends,
        ended.housed⟩

/-! ## Branches -/

open Code.Place (Prospect)

theorem partObserves_ifThen (furnished : Furnished program final) {id thenBody : StmtId}
    {condition : ExprId} {value : Operand} {node : Stmt} {tested created : Place}
    {endBlock : BlockId} (tests : LowersExpr program final condition place (some value) tested)
    (fit : tested.Fit) (creates : created = (tested.create "if.then").create "if.end")
    (ends : endBlock = (tested.create "if.then").freshBlock)
    (found : program.stmt? thenBody = some node) (fitDone : done.Fit)
    (waits : done.Waiting endBlock "if.end")
    (bodyObserves : PartObserves program callable final (.stmt thenBody node)
      ((created.ready.terminate (.branch value tested.freshBlock endBlock)).enter
        tested.freshBlock false) done) :
    PartObserves program callable final (.stmt id (.ifThenElse condition thenBody none)) place
      ((done.leaveTo endBlock).enter endBlock true) := by
  intro host returns loops locals promises pending typed returned _ honours housed leavable
  cases typed with
  | ifThen testTyped known bodyTyped =>
      rw [found] at known
      cases known
      have preparesOne := (Place.Prepares.refl fit).create "if.then"
      have prepares : tested.Prepares created 6 := by
        rw [creates]
        exact preparesOne.create "if.end"
      have waitsThen : created.Waiting tested.freshBlock "if.then" := by
        rw [creates]
        exact (Place.Waiting.created fit.regular _).create preparesOne.regular _
      have regularBranched := prepares.regular.finish prepares.room
        (.branch value tested.freshBlock endBlock)
      have waitsBranched := waitsThen.finish prepares.regular prepares.room
        (.branch value tested.freshBlock endBlock)
      rcases tests.upholds furnished testTyped honours housed with ⟨upholds, supplied⟩
      rcases (Prospect.start upholds.honours).create fit.regular fit.room "if.then" True with
        ⟨_, one⟩
      rcases one.create preparesOne.regular preparesOne.room "if.end"
        (Ends program (.stmt id (.ifThenElse condition thenBody none)) .normal) with ⟨_, both⟩
      rw [← creates, ← ends] at both
      rcases both.branch prepares.regular prepares.room (.tail _ (.head _)) (.head _)
        (fun _ => trivial) (fun _ => .noElse)
        (fun live => ((supplied _ rfl).carried both.carries).head live) with ⟨branched, _⟩
      have entered := ((branched.perm (.swap _ _ [])).enter regularBranched waitsBranched
        (fun _ => trivial) false).1
      have carries := upholds.carries.trans entered.carries
      rcases bodyObserves bodyTyped returned fitDone.regular entered.honours
        (housed.carried carries) (leavable.inside carries
          (fun _ member => List.mem_append_right _ member)
          fun _ _ _ leaves => .thenBody found leaves) with ⟨_, body⟩
      have left := (entered.further body.honours body.carries).leaveTo fitDone.regular (.head _)
        fun live => .thenBody found (body.ends live)
      rcases left.enter (fitDone.regular.leaveTo endBlock) (waits.leaveTo endBlock)
        (fun live => by cases live) true with ⟨joined, normal⟩
      exact ⟨_, joined.honours, upholds.carries.trans joined.carries, normal, .nil⟩

theorem partObserves_ifThenElse (furnished : Furnished program final)
    {id thenBody elseBody : StmtId} {condition : ExprId} {value : Operand}
    {thenNode elseNode : Stmt} {tested created elseDone : Place} {endBlock elseBlock : BlockId}
    (tests : LowersExpr program final condition place (some value) tested) (fit : tested.Fit)
    (creates : created = ((tested.create "if.then").create "if.end").create "if.else")
    (ends : endBlock = (tested.create "if.then").freshBlock)
    (elses : elseBlock = ((tested.create "if.then").create "if.end").freshBlock)
    (thenFound : program.stmt? thenBody = some thenNode)
    (elseFound : program.stmt? elseBody = some elseNode) (fitDone : done.Fit)
    (waitsElse : done.Waiting elseBlock "if.else") (fitElse : elseDone.Fit)
    (waits : elseDone.Waiting endBlock "if.end")
    (thenObserves : PartObserves program callable final (.stmt thenBody thenNode)
      ((created.ready.terminate (.branch value tested.freshBlock elseBlock)).enter
        tested.freshBlock false) done)
    (elseObserves : PartObserves program callable final (.stmt elseBody elseNode)
      ((done.leaveTo endBlock).enter elseBlock false) elseDone) :
    PartObserves program callable final
      (.stmt id (.ifThenElse condition thenBody (some elseBody))) place
      ((elseDone.leaveTo endBlock).enter endBlock true) := by
  intro host returns loops locals promises pending typed returned _ honours housed leavable
  cases typed with
  | ifThenElse testTyped thenKnown elseKnown thenTyped elseTyped =>
      rw [thenFound] at thenKnown
      cases thenKnown
      rw [elseFound] at elseKnown
      cases elseKnown
      have preparesOne := (Place.Prepares.refl fit).create "if.then"
      have preparesTwo := preparesOne.create "if.end"
      have prepares : tested.Prepares created 5 := by
        rw [creates]
        exact preparesTwo.create "if.else"
      have waitsThen : created.Waiting tested.freshBlock "if.then" := by
        rw [creates]
        exact ((Place.Waiting.created fit.regular _).create preparesOne.regular _).create
          preparesTwo.regular _
      have regularBranched := prepares.regular.finish prepares.room
        (.branch value tested.freshBlock elseBlock)
      have waitsBranched := waitsThen.finish prepares.regular prepares.room
        (.branch value tested.freshBlock elseBlock)
      rcases tests.upholds furnished testTyped honours housed with ⟨upholds, supplied⟩
      rcases (Prospect.start upholds.honours).create fit.regular fit.room "if.then" True with
        ⟨_, one⟩
      rcases one.create preparesOne.regular preparesOne.room "if.end"
        (Ends program (.stmt id (.ifThenElse condition thenBody (some elseBody))) .normal) with
        ⟨_, two⟩
      rcases two.create preparesTwo.regular preparesTwo.room "if.else" True with ⟨_, three⟩
      rw [← creates, ← elses, ← ends] at three
      rcases three.branch prepares.regular prepares.room (.tail _ (.tail _ (.head _))) (.head _)
        (fun _ => trivial) (fun _ => trivial)
        (fun live => ((supplied _ rfl).carried three.carries).head live) with ⟨branched, _⟩
      have entered := ((branched.perm (.trans (.cons _ (.swap _ _ [])) (.swap _ _ _))).enter
        regularBranched waitsBranched (fun _ => trivial) false).1
      have carries := upholds.carries.trans entered.carries
      rcases thenObserves thenTyped returned fitDone.regular entered.honours
        (housed.carried carries) (leavable.inside carries
          (fun _ member => List.mem_append_right _ member)
          fun _ _ _ leaves => .thenBody thenFound leaves) with ⟨_, thenPart⟩
      have leftThen := (entered.further thenPart.honours thenPart.carries).leaveTo fitDone.regular
        (.tail _ (.head _)) fun live => .thenBody thenFound (thenPart.ends live)
      have switched := (leftThen.enter (fitDone.regular.leaveTo endBlock)
        (waitsElse.leaveTo endBlock) (fun _ => trivial) false).1
      have switches := upholds.carries.trans switched.carries
      rcases elseObserves elseTyped returned fitElse.regular switched.honours
        (housed.carried switches) (leavable.inside switches
          (fun _ member => List.mem_append_right _ member)
          fun _ _ _ leaves => .elseBody elseFound leaves) with ⟨_, elsePart⟩
      have left := (switched.further elsePart.honours elsePart.carries).leaveTo fitElse.regular
        (.head _) fun live => .elseBody elseFound (elsePart.ends live)
      rcases left.enter (fitElse.regular.leaveTo endBlock) (waits.leaveTo endBlock)
        (fun live => by cases live) true with ⟨joined, normal⟩
      exact ⟨_, joined.honours, upholds.carries.trans joined.carries, normal, .nil⟩

/-! ## Loops -/

theorem partObserves_whileLoop (furnished : Furnished program final) {id body : StmtId}
    {condition : ExprId} {value : Operand} {node : Stmt} {created tested : Place}
    {bodyBlock endBlock : BlockId} (fit : place.Fit)
    (creates : created = ((place.create "while.cond").create "while.body").create "while.end")
    (bodies : bodyBlock = (place.create "while.cond").freshBlock)
    (ends : endBlock = ((place.create "while.cond").create "while.body").freshBlock)
    (known : final.annotations.loopOf id = .ok ⟨place.freshBlock, none, endBlock⟩)
    (tests : LowersExpr program final condition (created.enter place.freshBlock false)
      (some value) tested)
    (fitTested : tested.Fit) (waitsBody : tested.Waiting bodyBlock "while.body")
    (found : program.stmt? body = some node) (fitDone : done.Fit)
    (waits : done.Waiting endBlock "while.end")
    (bodyObserves : PartObserves program callable final (.stmt body node)
      ((tested.ready.terminate (.branch value bodyBlock endBlock)).enter bodyBlock false) done) :
    PartObserves program callable final (.stmt id (.whileLoop condition body)) place
      ((done.leaveTo place.freshBlock).enter endBlock true) := by
  intro host returns loops locals promises pending typed returned _ honours housed leavable
  cases typed with
  | whileLoop testTyped otherFound bodyTyped =>
      rw [found] at otherFound
      cases otherFound
      have preparesOne := (Place.Prepares.refl fit).create "while.cond"
      have preparesTwo := preparesOne.create "while.body"
      have prepares : place.Prepares created 5 := by
        rw [creates]
        exact preparesTwo.create "while.end"
      have waitsCond : created.Waiting place.freshBlock "while.cond" := by
        rw [creates]
        exact ((Place.Waiting.created fit.regular _).create preparesOne.regular _).create
          preparesTwo.regular _
      have comes : place.isLive = true → created.isLive = true := by
        intro live
        rw [creates, Place.isLive_create preparesTwo.regular,
          Place.isLive_create preparesOne.regular, Place.isLive_create fit.regular]
        exact live
      have regularBranched := fitTested.regular.finish fitTested.room
        (.branch value bodyBlock endBlock)
      have waitsBranched := waitsBody.finish fitTested.regular fitTested.room
        (.branch value bodyBlock endBlock)
      rcases (Prospect.start honours).create fit.regular fit.room "while.cond" True with ⟨_, one⟩
      rcases one.create preparesOne.regular preparesOne.room "while.body" True with ⟨_, two⟩
      rcases two.create preparesTwo.regular preparesTwo.room "while.end"
        (Ends program (.stmt id (.whileLoop condition body)) .normal) with ⟨_, three⟩
      rw [← creates, ← ends, ← bodies] at three
      have headed := (three.perm (List.reverse_perm _).symm).reopen prepares.regular waitsCond comes
      rcases tests.upholds furnished testTyped headed.honours (housed.carried headed.carries) with
        ⟨upholds, supplied⟩
      rcases (headed.further upholds.honours upholds.carries).branch fitTested.regular
        fitTested.room (.head _) (.tail _ (.head _)) (fun _ => trivial) (fun _ => .whileFails)
        (fun live => (supplied _ rfl).head live) with ⟨branched, _⟩
      have entered := (branched.enter regularBranched waitsBranched (fun _ => trivial) false).1
      rcases bodyObserves bodyTyped returned fitDone.regular entered.honours
        (housed.carried entered.carries) (leavable.loop entered.carries
          (fun _ member => List.mem_append_right _ member)
          (fun _ _ passes leaves => .whileBody found leaves passes) known
          (fun live _ => entered.admits (.head _) live .whileFails)
          (fun live => entered.admits (.tail _ (.head _)) live trivial)) with ⟨_, part⟩
      have left := (entered.further part.honours part.carries).leaveTo fitDone.regular
        (.tail _ (.head _)) fun _ => trivial
      rcases left.enter (fitDone.regular.leaveTo place.freshBlock)
        (waits.leaveTo place.freshBlock) (fun live => by cases live) true with ⟨joined, normal⟩
      exact ⟨_, joined.honours, joined.carries, normal, .nil⟩

section For

variable {base : Promises} {origin : Place} {waits opened : List (BlockId × Prop)}

/-- The block of the updates, which control comes to from where the loop begins. -/
def renewals (block : Option BlockId) : List (BlockId × Prop) :=
  block.toList.map fun id => (id, True)

theorem continueTarget_awaited (head exit : BlockId) (block : Option BlockId)
    (waits : List (BlockId × Prop)) :
    ((LoopBlocks.mk head block exit).continueTarget, True) ∈
      renewals block ++ waits ++ [(head, True)] := by
  cases block with
  | none => exact List.mem_append_right _ (.head _)
  | some update => exact .head _

theorem prospect_createUpdates (updates : List ExprId) {entered : Place} (fit : entered.Fit)
    (prospect : Prospect final.cursor.module host base origin pending waits opened next entered) :
    ∃ last, Prospect final.cursor.module host base origin pending
      (renewals (updateBlock? updates entered) ++ waits) opened last
      (createUpdates updates entered) := by
  unfold createUpdates updateBlock?
  split
  · exact ⟨next, prospect⟩
  · exact prospect.create fit.regular fit.room "for.update" True

theorem prospect_condition (furnished : Furnished program final)
    {condition : Option ExprId} {endBlock : BlockId} {head tested : Place} {aim : Prop}
    {count : Nat} (tests : LowersCondition program final endBlock condition head tested)
    (regular : head.Regular) (room : head.Room (count + 1))
    (typed : ∀ expr, condition = some expr → ExprTyped program callable locals expr .boolean)
    (housed : Housed program final host base origin locals)
    (exit : (endBlock, aim) ∈ waits ++ opened)
    (fails : ∀ expr, condition = some expr → origin.isLive = true → aim)
    (prospect : Prospect final.cursor.module host base origin pending waits opened next head) :
    ∃ last, Prospect final.cursor.module host base origin pending waits opened last tested := by
  cases tests with
  | none => exact ⟨next, prospect⟩
  | @some condition value _ between tests fit waits =>
      rcases prospect.create regular room "for.body" True with ⟨_, created⟩
      rcases tests.upholds furnished (typed condition rfl) created.honours
        (housed.carried created.carries) with ⟨upholds, supplied⟩
      have onward := created.further upholds.honours upholds.carries
      rcases onward.branch fit.regular fit.room (.head _) (List.mem_cons_of_mem _ exit)
        (fun _ => trivial) (fun live => fails condition rfl (onward.carries.live live))
        (fun live => (supplied _ rfl).head live) with ⟨branched, _⟩
      exact ⟨_, (branched.enter (fit.regular.finish fit.room _)
        (waits.finish fit.regular fit.room _) (fun _ => trivial) false).1⟩

theorem prospect_updates (furnished : Furnished program final) {updates : List ExprId}
    {block : Option BlockId} {updated : Place}
    (renews : LowersUpdates program final updates block done updated) (regular : done.Regular)
    (typed : ∀ update ∈ updates, ∃ ty, ExprTyped program callable locals update ty)
    (housed : Housed program final host base origin locals)
    (prospect : Prospect final.cursor.module host base origin pending (renewals block ++ waits)
      opened next done) :
    Prospect final.cursor.module host base origin pending waits opened next updated := by
  cases renews with
  | none => exact prospect
  | some waiting computes =>
      have entered := (prospect.enter regular waiting (fun _ => trivial) false).1
      have upholds := computes.upholds furnished typed entered.honours
        (housed.carried entered.carries)
      exact entered.further upholds.honours upholds.carries

end For

theorem partObserves_forLoop (furnished : Furnished program final) {id body : StmtId}
    {initial : ForInit} {condition : Option ExprId} {updates : List ExprId} {node : Stmt}
    {started entered tested updated : Place} {endBlock : BlockId} (fit : started.Fit)
    (ends : endBlock = (started.create "for.cond").freshBlock)
    (enters : entered = ((started.create "for.cond").create "for.end").enter started.freshBlock
      false)
    (fitEntered : entered.Fit)
    (known : final.annotations.loopOf id =
      .ok ⟨started.freshBlock, updateBlock? updates entered, endBlock⟩)
    (tests : LowersCondition program final endBlock condition (createUpdates updates entered)
      tested)
    (found : program.stmt? body = some node) (fitDone : done.Fit)
    (renews : LowersUpdates program final updates (updateBlock? updates entered) done updated)
    (fitUpdated : updated.Fit) (waits : updated.Waiting endBlock "for.end")
    (firstObserves : PartObserves program callable final (.initial initial) place started)
    (bodyObserves : PartObserves program callable final (.stmt body node) tested done) :
    PartObserves program callable final (.stmt id (.forLoop initial condition updates body)) place
      ((updated.leaveTo started.freshBlock).enter endBlock true) := by
  intro host returns loops locals promises pending typed returned _ honours housed leavable
  cases typed with
  | forLoop firstTyped testTyped otherFound bodyTyped updateTyped =>
      rw [found] at otherFound
      cases otherFound
      have preparesOne := (Place.Prepares.refl fit).create "for.cond"
      have prepares := preparesOne.create "for.end"
      have waitsCond := (Place.Waiting.created fit.regular "for.cond").create preparesOne.regular
        "for.end"
      have comes : started.isLive = true →
          ((started.create "for.cond").create "for.end").isLive = true := by
        rw [Place.isLive_create preparesOne.regular, Place.isLive_create fit.regular]
        exact fun live => live
      have preparesHead := prepares_createUpdates updates fitEntered
      rcases firstObserves firstTyped returned fit.regular honours housed
        (leavable.inside (.refl _ _) (fun _ member => member)
          fun _ _ early leaves => .forInitial leaves early) with ⟨_, first⟩
      have housedInside := first.housed.append (housed.carried first.carries)
      rcases (Prospect.start first.honours).create fit.regular fit.room "for.cond" True with
        ⟨_, one⟩
      rcases one.create preparesOne.regular preparesOne.room "for.end"
        (Ends program (.stmt id (.forLoop initial condition updates body)) .normal) with ⟨_, two⟩
      have headed := (two.perm (.swap _ _ [])).reopen prepares.regular waitsCond comes
      rw [← enters, ← ends] at headed
      rcases prospect_createUpdates updates fitEntered headed with ⟨_, ready⟩
      have exit {aim : Prop} {opened : List (BlockId × Prop)} : (endBlock, aim) ∈
          renewals (updateBlock? updates entered) ++ [(endBlock, aim)] ++ opened :=
        List.mem_append_left _ (List.mem_append_right _ List.mem_cons_self)
      rcases prospect_condition furnished tests preparesHead.regular preparesHead.room testTyped
        housedInside exit (fun expr some live => by
          subst some
          exact .forFails (first.ends live)) ready with ⟨_, begun⟩
      rcases bodyObserves bodyTyped returned fitDone.regular begun.honours
        (housedInside.carried begun.carries) (leavable.loop (first.carries.trans begun.carries)
          (fun _ member => List.mem_append_right _ member)
          (fun live _ passes leaves =>
            .forBody (first.ends (begun.carries.live live)) found leaves passes) known
          (fun live leaves => begun.admits exit live
            (.forBroke (first.ends (begun.carries.live live)) found leaves))
          (fun live => begun.admits (continueTarget_awaited _ _ _ _) live trivial)) with ⟨_, part⟩
      have renewed := prospect_updates furnished renews fitDone.regular updateTyped housedInside
        (begun.further part.honours part.carries)
      have left := renewed.leaveTo fitUpdated.regular (.tail _ (.head _)) fun _ => trivial
      rcases left.enter (fitUpdated.regular.leaveTo started.freshBlock)
        (waits.leaveTo started.freshBlock) (fun live => by cases live) true with ⟨joined, normal⟩
      exact ⟨_, joined.honours, first.carries.trans joined.carries, normal, .nil⟩

/-! ## All parts -/

theorem partObserves_initialDecl {id : StmtId} {node : Stmt}
    (found : program.stmt? id = some node)
    (declaresObserve : PartObserves program callable final (.stmt id node) place after) :
    PartObserves program callable final (.initial (.decl id)) place after := by
  intro host returns loops locals promises pending typed returned regular honours housed leavable
  cases typed with
  | initialDecl known partTyped =>
      rw [found] at known
      cases known
      rcases declaresObserve partTyped returned regular honours housed
        (leavable.inside (.refl _ _) (fun _ member => member)
          fun _ _ _ leaves => .initialDecl found leaves) with ⟨next, observes⟩
      have same : Part.declares program (.initial (.decl id)) =
          Part.declares program (.stmt id node) := by
        simp [Part.declares, initialDeclares, found]
      refine ⟨next, observes.honours, observes.carries,
        fun live => .initialDecl found (observes.ends live), ?_⟩
      rw [same]
      exact observes.housed

theorem LowersPart.observes (furnished : Furnished program final) {part : Part}
    (lowers : LowersPart program final depth part place after) :
    PartObserves program callable final part place after := by
  induction lowers with
  | expr computes => exact partObserves_expr furnished computes
  | nothing => exact partObserves_nothing .nothing rfl
  | sequence found _ rest firstObserves restObserves =>
      exact partObserves_sequence found rest firstObserves restObserves
  | noVars => exact partObserves_nothing .varDecl rfl
  | vars first _ othersObserve => exact partObserves_vars furnished first othersObserve
  | functionDecl => exact partObserves_nothing .functionDecl rfl
  | ifThen tests fit creates ends found _ fitDone waits bodyObserves =>
      exact partObserves_ifThen furnished tests fit creates ends found fitDone waits bodyObserves
  | ifThenElse tests fit creates ends elses thenFound elseFound _ fitDone waitsElse _ fitElse
      waits thenObserves elseObserves =>
      exact partObserves_ifThenElse furnished tests fit creates ends elses thenFound elseFound
        fitDone waitsElse fitElse waits thenObserves elseObserves
  | whileLoop fit creates bodies ends known tests fitTested waitsBody found _ fitDone waits
      bodyObserves =>
      exact partObserves_whileLoop furnished fit creates bodies ends known tests fitTested
        waitsBody found fitDone waits bodyObserves
  | forLoop _ fit ends enters fitEntered known tests found _ fitDone renews fitUpdated waits
      firstObserves bodyObserves =>
      exact partObserves_forLoop furnished fit ends enters fitEntered known tests found fitDone
        renews fitUpdated waits firstObserves bodyObserves
  | continueLoop fit known => exact partObserves_continueLoop fit known
  | breakLoop fit known => exact partObserves_breakLoop fit known
  | returnNothing fit => exact partObserves_returnNothing fit
  | returnValue computes fit => exact partObserves_returnValue furnished computes fit
  | initialDecl found _ declaresObserve => exact partObserves_initialDecl found declaresObserve
  | initialExprs computes =>
      intro host returns loops locals promises pending typed _ _ honours housed _
      cases typed with
      | initialExprs typed =>
          exact ⟨promises, (computes.upholds furnished typed honours housed).observes
            .initialExprs rfl⟩

end ScriptLowering.Lowering
