import ScriptLowering.Proofs.FinishedFunctions
import ScriptLowering.Proofs.ShadowedStatements

/-! # Functions in shadows

A function is opened, filled and finished in a session and in its shadow. Nothing is paired in it
when it is opened but the entry blocks and the data of the session, and when it is done, only the data
matters to the function around it.
-/

namespace ScriptLowering.Lowering

open Source (Program ExprId FuncId FunctionDecl StmtId VarId)
open Code (Operand Pairing Place)

variable {program other : Program} {dropped : ExprId → Prop} {locals : List VarId}
  {loops : List StmtId} {walk : StmtId → List Node} {lower answer : StmtId → Lower Unit}

/-! ## Filling -/

theorem mirrors_returnIfLive {value : Option Operand}
    (values : ∀ pairing, Option.Rel (Operand.Pairs pairing) value value) :
    Mirrors program other dropped 0 [] (fun _ => True) (returnIfLive value) (returnIfLive value)
      fun _ _ _ => True := by
  have computes : Computes program (fun _ => True) 0 (returnIfLive value) fun _ _ _ _ => True := by
    refine .start fun final session name place count fills => ?_
    refine .of_bind_pure (.bind_ok (returnIfLive_eq fills.builds value) ?_)
    exact (((Stage.start program final fills).mono (by omega)).returnIfLive value).finish
      fun _ => trivial
  refine .compute computes fun outset count course _ => ?_
  exact .of_bind_pure (course.thenReturnIfLive (values _) fun next course _ => course.finish trivial)

theorem mirrors_fillFunction (decl : FunctionDecl)
    (isLocal : ∀ param ∈ decl.params, ∀ var, program.var? param = some var → var.scope = .local)
    (body : MirrorsStmt program other dropped decl.params [] walk lower answer decl.body) :
    Mirrors program other dropped (8 * decl.params.length + 8 * demand program (walk decl.body))
      (namesOf program (walk decl.body)) (fun _ => True) (fillFunction program lower decl)
      (fillFunction program answer decl) fun _ _ _ => True := by
  have params : Mirrors program other dropped (8 * decl.params.zipIdx.length) [] (fun _ => True) _ _ _ :=
    mirrors_lowerParams decl.params.zipIdx fun pair member =>
      isLocal pair.1 (List.fst_mem_of_mem_zipIdx member)
  have ends : Mirrors program other dropped 0 [] (fun _ => True)
      (if decl.returnsNothing then returnIfLive none else pure ())
      (if decl.returnsNothing then returnIfLive none else pure ()) fun _ _ _ => True := by
    split
    · exact mirrors_returnIfLive fun _ => .none
    · exact .nothing
  have whole := params.andThen (body.andThen ends fun _ _ _ _ _ _ _ => trivial)
    fun _ _ _ _ _ _ sees => by
      rw [List.zipIdx_map_fst] at sees
      exact sees
  rw [List.nil_append, List.append_nil, List.length_zipIdx] at whole
  exact whole

/-! ## Whole functions -/

/-- Both are about to fill the function `name`, in which nothing is paired yet but the entry blocks. -/
def Tandem.opened (tandem : Tandem) (name : String) : Tandem where
  name := name
  pairing := ⟨fun id counterpart => id = ⟨0⟩ ∧ counterpart = ⟨0⟩, fun _ _ => False, tandem.pairing.data⟩
  session := tandem.session.put name (Place.mk .empty none).opened
  shadow := tandem.shadow.put name (Place.mk .empty none).opened
  place := (Place.mk .empty none).opened
  counterpart := (Place.mk .empty none).opened

theorem Tandem.agrees_opened {tandem : Tandem} {name : String}
    (shadows : tandem.session.Shadows program dropped tandem.pairing.data tandem.shadow)
    (builds : (tandem.session.put name (Place.mk .empty none).opened).Builds name
      (Place.mk .empty none).opened)
    (otherBuilds : (tandem.shadow.put name (Place.mk .empty none).opened).Builds name
      (Place.mk .empty none).opened) : (tandem.opened name).Agrees program dropped where
  builds := builds
  otherBuilds := otherBuilds
  pairs := Place.pairs_opened _
  shadows := by
    refine Session.Shadows.put shadows ?_ (Place.pairs_opened tandem.pairing.data).agrees name
    rfl

/-- Both go back to where they were before they filled another function. -/
def Tandem.back (outset inner : Tandem) : Tandem where
  name := outset.name
  pairing := { outset.pairing with data := inner.pairing.data }
  session := { inner.session with
    cursor := inner.session.cursor.setPosition outset.session.cursor.position }
  shadow := { inner.shadow with
    cursor := inner.shadow.cursor.setPosition outset.shadow.cursor.position }
  place := outset.place
  counterpart := outset.counterpart

theorem Tandem.Agrees.back {outset inner : Tandem} (agrees : outset.Agrees program dropped)
    (shadows : inner.session.Shadows program dropped inner.pairing.data inner.shadow)
    (data : ∀ id counterpart, outset.pairing.data id counterpart → inner.pairing.data id counterpart)
    (same : inner.session.cursor.module.function? outset.name =
      outset.session.cursor.module.function? outset.name)
    (otherSame : inner.shadow.cursor.module.function? outset.name =
      outset.shadow.cursor.module.function? outset.name) :
    (outset.back inner).Agrees program dropped where
  builds := ⟨agrees.builds.position, by
    rcases agrees.builds.body with ⟨function, found, body⟩
    exact ⟨function, same.trans found, body⟩⟩
  otherBuilds := ⟨agrees.otherBuilds.position, by
    rcases agrees.otherBuilds.body with ⟨function, found, body⟩
    exact ⟨function, otherSame.trans found, body⟩⟩
  pairs := ⟨agrees.pairs.agrees.moreData ⟨fun _ _ => id, fun _ _ => id, data⟩ rfl rfl,
    agrees.pairs.live⟩
  shadows := shadows.move _ _

/-- Both have dropped the blocks that are not laid out. -/
def Tandem.pruned (tandem : Tandem) : Tandem where
  name := tandem.name
  pairing := tandem.pairing
  session := tandem.session.put tandem.name tandem.place.pruned
  shadow := tandem.shadow.put tandem.name tandem.counterpart.pruned
  place := tandem.place.pruned
  counterpart := tandem.counterpart.pruned

theorem Course.prunes {options : Options} {outset tandem : Tandem} {names : List String}
    {waits : List (Code.BlockId × Code.BlockId × String)} {count : Nat}
    (course : Course program other dropped outset names waits count tandem)
    (plain : options.verifyFunctions = false) :
    finishFunction options tandem.name tandem.session = .ok ((), tandem.pruned.session) ∧
      finishFunction options tandem.name tandem.shadow = .ok ((), tandem.pruned.shadow) ∧
      tandem.pruned.session.Shadows program dropped tandem.pairing.data tandem.pruned.shadow := by
  have code := course.agrees.pairs.agrees
  refine ⟨finishFunction_plain plain course.stage.builds,
    finishFunction_plain plain course.otherStage.builds, ?_⟩
  exact course.agrees.shadows.put rfl ((code.first tandem.place.body.rests_prune).second
    tandem.counterpart.body.rests_prune) tandem.name

theorem answers_lowerFunctionDecl {options : Options} (plain : options.verifyFunctions = false)
    (id : FuncId)
    (isLocal : ∀ decl, program.function? id = some decl → ∀ param ∈ decl.params, ∀ var,
      program.var? param = some var → var.scope = .local)
    (body : ∀ decl, program.function? id = some decl →
      MirrorsStmt program other dropped decl.params [] walk lower answer decl.body) :
    Answers program other dropped (8 * demand program (walkFunction program walk id))
      (namesOf program (walkFunction program walk id)) (fun _ => True)
      (lowerFunctionDecl program (finishFunction options) lower id)
      (lowerFunctionDecl program (finishFunction options) answer id) fun _ _ _ => True := by
  intro outset count course fresh distinct unopened otherUnopened _
  have agrees := course.agrees
  cases known : program.function? id with
  | none =>
      intro value next runs
      rw [lowerFunctionDecl, known, Lower.orFault_none_bind] at runs
      cases runs
  | some decl =>
      rw [namesOf_walkFunction known] at fresh distinct unopened otherUnopened
      rw [walkFunction_eq known] at course
      rw [List.mem_cons, not_or] at fresh
      rw [List.nodup_cons] at distinct
      simp only [demand_function, demand_append, demand_params] at course
      rcases unopened decl.name List.mem_cons_self with ⟨-, function, found, unbuilt⟩
      rcases otherUnopened decl.name List.mem_cons_self with ⟨-, mirrored, otherFound, otherUnbuilt⟩
      have few : 8 * decl.params.length + 8 * demand program (walk decl.body) + count + 9 < 2 ^ 32 := by
        have := course.stage.fills.room.1
        omega
      have fills := fills_opened found few (course.stage.fills.stock.mono (by omega))
      have otherFills := fills_opened otherFound few (course.otherStage.fills.stock.mono (by omega))
      have inner : Course program other dropped (outset.opened decl.name) [] []
          (8 * decl.params.length + 8 * demand program (walk decl.body) + count)
          (outset.opened decl.name) :=
        .start _ rfl fills otherFills (Tandem.agrees_opened agrees.shadows fills.builds otherFills.builds)
      have still {session : Session}
          (unopened : session.Unopened (fun _ => True) (decl.name :: namesOf program (walk decl.body))) :
          (session.put decl.name (Place.mk .empty none).opened).Unopened (fun _ => True)
            (namesOf program (walk decl.body)) := by
        intro name member
        have different : decl.name ≠ name := fun same => distinct.1 (same ▸ member)
        rw [Session.function?_put, if_neg different]
        exact unopened name (List.mem_cons_of_mem _ member)
      have follows : (fillFunction program lower decl >>= fun _ => finishFunction options decl.name >>=
            fun _ => Lower.moveCursor fun cursor =>
              cursor.setPosition outset.session.cursor.position).Follows
          (fillFunction program answer decl >>= fun _ => finishFunction options decl.name >>=
            fun _ => Lower.moveCursor fun cursor =>
              cursor.setPosition outset.shadow.cursor.position) (outset.opened decl.name)
          fun _ _ ended => outset.Comes program dropped ended ∧ True := by
        refine inner.thenPart (mirrors_fillFunction decl (isLocal decl known) (body decl known)) count
          (Nat.le_refl _) distinct.1 distinct.2 (still unopened) (still otherUnopened) trivial
          fun _ _ ended course later _ => ?_
        rcases ended with ⟨name, pairing, session, shadow, place, counterpart⟩
        obtain rfl : name = decl.name := course.name
        let last : Tandem := Tandem.pruned ⟨decl.name, pairing, session, shadow, place, counterpart⟩
        rcases course.prunes plain with ⟨finishes, otherFinishes, shadows⟩
        refine Lower.Follows.bind_ok finishes otherFinishes ?_
        have moves : Lower.moveCursor (fun cursor => cursor.setPosition outset.session.cursor.position)
            last.session = .ok ((), (outset.back last).session) := rfl
        have otherMoves : Lower.moveCursor
            (fun cursor => cursor.setPosition outset.shadow.cursor.position) last.shadow =
              .ok ((), (outset.back last).shadow) := rfl
        have data := later.within.data
        have back : (outset.back last).Agrees program dropped := agrees.back shadows data
          (course.stage.grows.function?_opened fresh.1 fresh.2)
          (course.otherStage.grows.function?_opened fresh.1 fresh.2)
        exact .of_ok moves otherMoves
          ⟨⟨rfl, ⟨fun _ _ paired => paired, fun _ _ paired => paired, data⟩, back⟩, trivial⟩
      intro value next runs
      rw [lowerFunctionDecl_eq known found unbuilt] at runs
      rw [lowerFunctionDecl_eq known otherFound otherUnbuilt]
      exact follows value next runs

end ScriptLowering.Lowering
