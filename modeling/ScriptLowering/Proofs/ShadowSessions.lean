import ScriptLowering.Proofs.ReadySessions
import ScriptLowering.Proofs.RecordedTexts
import ScriptLowering.Proofs.TandemBuilding

/-! # Sessions and their shadows

Two sessions in which the same functions are lowered, but one of them has had more to do, all of it
code that cannot run. The session with less to do is the shadow of the other: its code is the same
up to numbers, and it knows no more. Its data is for the same literals, and what the other session has
besides is for literals that are `dropped`.
-/

namespace ScriptLowering.Lowering

open Source (Program ExprId StmtId VarId)
open Code (BlockId BuildError DataId DataPairs Instruction Operand Pairing Place Terminator Ty)

/-- Two functions have the same code, where the data is paired in the given way. -/
def SameCode (pairs : DataId → DataId → Prop) (function other : Code.Function) : Prop :=
  ∃ pairing : Pairing, pairing.data = pairs ∧ function.body.Matches pairing other.body

structure Session.Shadows (program : Program) (dropped : ExprId → Prop)
    (pairs : DataId → DataId → Prop) (session shadow : Session) : Prop where
  bodies : ∀ name, Option.Rel (SameCode pairs) (session.cursor.module.function? name)
    (shadow.cursor.module.function? name)
  headings : session.cursor.module.SameHeadings shadow.cursor.module
  globals : shadow.cursor.module.globals = session.cursor.module.globals
  nextGlobal : shadow.cursor.module.nextGlobal = session.cursor.module.nextGlobal
  topLevel : ∀ id decl, program.var? id = some decl → decl.scope = .topLevel →
    ∀ address, session.annotations.storageOf id = .ok address →
      (∃ global, address = .global global) ∧ shadow.annotations.storageOf id = .ok address
  known : ∀ node, shadow.Knows node → session.Knows node
  data : DataPairs pairs session.cursor.module.data shadow.cursor.module.data
  sameTexts : ∀ data counterpart, pairs data counterpart → ∃ id,
    session.literal? program data = some id ∧ shadow.literal? program counterpart = some id
  left : ∀ data object, session.cursor.module.data.get? data = some object →
    (∃ counterpart, pairs data counterpart) ∨ ∃ id,
      session.literal? program data = some id ∧ dropped id
  spells : session.Spells program
  otherSpells : shadow.Spells program

namespace Session.Shadows

variable {program : Program} {dropped : ExprId → Prop} {pairs : DataId → DataId → Prop}
  {session shadow : Session}

theorem put (shadows : session.Shadows program dropped pairs shadow) {pairing : Pairing}
    (same : pairing.data = pairs) {place counterpart : Place}
    (agrees : place.body.Matches pairing counterpart.body) (name : String) :
    (session.put name place).Shadows program dropped pairs (shadow.put name counterpart) := by
  have headings : ∀ (session : Session) (next : Place),
      session.cursor.module.SameHeadings (session.put name next).cursor.module := by
    intro session next
    refine ⟨rfl, Table.keys_modify _ _ _, fun other => ?_⟩
    rw [Session.function?_put]
    split
    · cases session.cursor.module.function? other <;> rfl
    · rfl
  exact { shadows with
    bodies := by
      intro other
      rw [Session.function?_put, Session.function?_put]
      split
      · exact (shadows.bodies other).elim_map fun _ _ _ => ⟨pairing, same, agrees⟩
      · exact shadows.bodies other
    headings := ⟨shadows.headings.name,
      ((headings shadow counterpart).names.trans shadows.headings.names).trans
        (headings session place).names.symm,
      fun other => ((headings shadow counterpart).headings other).trans
        ((shadows.headings.headings other).trans ((headings session place).headings other).symm)⟩
    spells := shadows.spells.same rfl rfl rfl
    otherSpells := shadows.otherSpells.same rfl rfl rfl }

theorem move (shadows : session.Shadows program dropped pairs shadow)
    (position other : Code.Position) :
    Session.Shadows program dropped pairs
      { session with cursor := session.cursor.setPosition position }
      { shadow with cursor := shadow.cursor.setPosition other } :=
  { shadows with
    spells := shadows.spells.same rfl rfl rfl
    otherSpells := shadows.otherSpells.same rfl rfl rfl }

/-- Both sessions learn of the node. -/
theorem knows_annotate (shadows : session.Shadows program dropped pairs shadow) {node : Node}
    {annotations others : Annotations}
    (learns : session.Learns [node] { session with annotations := annotations })
    (otherLearns : shadow.Learns [node] { shadow with annotations := others })
    (gained : Session.Knows { session with annotations := annotations } node) (other : Node)
    (knows : Session.Knows { shadow with annotations := others } other) :
    Session.Knows { session with annotations := annotations } other := by
  rcases otherLearns.only other knows with old | new
  · exact learns.kept other (shadows.known other old)
  · rw [List.map_singleton, List.mem_singleton] at new
    rw [← Session.knows_plain, new, Session.knows_plain]
    exact gained

/-- Both sessions learn of the node, and a variable of the top level is a global in both. -/
theorem annotate (shadows : session.Shadows program dropped pairs shadow) {node : Node}
    {annotations others : Annotations}
    (learns : session.Learns [node] { session with annotations := annotations })
    (otherLearns : shadow.Learns [node] { shadow with annotations := others })
    (gained : Session.Knows { session with annotations := annotations } node)
    (goes : session.SpellsOn program { session with annotations := annotations })
    (otherGoes : shadow.SpellsOn program { shadow with annotations := others })
    (topLevel : ∀ id decl, program.var? id = some decl → decl.scope = .topLevel →
      ∀ address, annotations.storageOf id = .ok address →
        (∃ global, address = .global global) ∧ others.storageOf id = .ok address) :
    Session.Shadows program dropped pairs { session with annotations := annotations }
      { shadow with annotations := others } :=
  { shadows with
    topLevel := topLevel
    known := shadows.knows_annotate learns otherLearns gained
    sameTexts := fun data counterpart paired =>
      (shadows.sameTexts data counterpart paired).imp fun _ same =>
        ⟨goes.literal? same.1, otherGoes.literal? same.2⟩
    left := fun data object found => (shadows.left data object found).imp_right fun left =>
      left.imp fun _ facts => ⟨goes.literal? facts.1, facts.2⟩
    spells := goes.spells
    otherSpells := otherGoes.spells }

theorem unaware (shadows : session.Shadows program dropped pairs shadow) {node : Node}
    (unaware : ¬ session.Knows node) : ¬ shadow.Knows node :=
  fun knows => unaware (shadows.known node knows)

theorem setStorage (shadows : session.Shadows program dropped pairs shadow) {id : VarId}
    {address other : Operand} {annotations : Annotations}
    (sets : session.annotations.setStorage id address = .ok annotations)
    (topLevel : ∀ decl, program.var? id = some decl → decl.scope = .topLevel →
      ∃ global, address = .global global ∧ other = .global global) :
    ∃ others, shadow.annotations.setStorage id other = .ok others ∧
      Session.Shadows program dropped pairs { session with annotations := annotations }
        { shadow with annotations := others } := by
  have fresh : shadow.annotations.storage.contains id = false := by
    rw [Bool.eq_false_iff]
    intro known
    rcases Option.isSome_iff_exists.mp known with ⟨found, isFound⟩
    have knows : shadow.Knows (.var id) := ⟨found, Annotations.storageOf_eq_ok.mpr isFound⟩
    rcases shadows.known _ knows with ⟨old, isOld⟩
    exact Annotations.storageOf_ne_of_setStorage sets old isOld
  have setsOther : shadow.annotations.setStorage id other =
      .ok { shadow.annotations with storage := shadow.annotations.storage.insert id other } :=
    Annotations.setStorage_eq_ok.mpr ⟨fresh, rfl⟩
  have values : annotations.values = session.annotations.values :=
    (Annotations.setStorage_eq_ok.mp sets).2 ▸ rfl
  have learns := learns_setStorage sets (show (Node.var id).plain = .var id from rfl)
  refine ⟨_, setsOther, shadows.annotate learns (learns_setStorage setsOther rfl) ⟨address, ?_⟩
    (shadows.spells.stay rfl rfl (by rw [values]) (by rw [Annotations.literals, values]; rfl))
    (shadows.otherSpells.stay rfl rfl (Nat.le_refl _) rfl) ?_⟩
  · rw [Annotations.storageOf_of_setStorage sets, if_pos rfl]
  · intro var decl found isTopLevel found' stored
    rw [Annotations.storageOf_of_setStorage sets] at stored
    rw [Annotations.storageOf_of_setStorage setsOther]
    by_cases same : id = var
    · subst same
      rw [if_pos rfl] at stored ⊢
      cases stored
      rcases topLevel decl found isTopLevel with ⟨global, rfl, rfl⟩
      exact ⟨⟨global, rfl⟩, rfl⟩
    · rw [if_neg same] at stored ⊢
      exact shadows.topLevel var decl found isTopLevel found' stored

theorem setLoop (shadows : session.Shadows program dropped pairs shadow) {id : StmtId}
    {blocks : LoopBlocks} {annotations : Annotations}
    (sets : session.annotations.setLoop id blocks = .ok annotations) (other : LoopBlocks) :
    ∃ others, shadow.annotations.setLoop id other = .ok others ∧
      Session.Shadows program dropped pairs { session with annotations := annotations }
        { shadow with annotations := others } := by
  have unaware : ¬ session.Knows (.stmt id) := by
    rintro ⟨known, found⟩
    exact Annotations.loopOf_ne_of_setLoop sets known found
  rcases setLoop_isOk (shadows.unaware unaware) other with ⟨others, setsOther⟩
  have same : annotations.values = session.annotations.values ∧
      annotations.storage = session.annotations.storage :=
    (Annotations.setLoop_eq_ok.mp sets).2 ▸ ⟨rfl, rfl⟩
  have otherSame : others.values = shadow.annotations.values ∧
      others.storage = shadow.annotations.storage :=
    (Annotations.setLoop_eq_ok.mp setsOther).2 ▸ ⟨rfl, rfl⟩
  refine ⟨others, setsOther, shadows.annotate (learns_setLoop sets) (learns_setLoop setsOther)
    ⟨blocks, ?_⟩ (shadows.spells.stay rfl rfl (by rw [same.1]) (by rw [Annotations.literals, same.1]; rfl))
    (shadows.otherSpells.stay rfl rfl (by rw [otherSame.1])
      (by rw [Annotations.literals, otherSame.1]; rfl)) ?_⟩
  · rw [Annotations.loopOf_of_setLoop sets, if_pos rfl]
  · simp only [Annotations.storageOf, same.2, otherSame.2]
    exact shadows.topLevel

theorem unrecorded (shadows : session.Shadows program dropped pairs shadow) {id : ExprId}
    (unknown : session.annotations.values.contains id = false) :
    shadow.annotations.values.contains id = false := by
  have unaware : ¬ session.Knows (.expr id) := by
    rintro ⟨known, found⟩
    unfold Annotations.value? at found
    simp [Table.contains, found] at unknown
  rw [Bool.eq_false_iff]
  intro known
  exact shadows.unaware unaware (Option.isSome_iff_exists.mp known)

theorem setValue (shadows : session.Shadows program dropped pairs shadow) {id : ExprId}
    {value other : Operand} {annotations others : Annotations} (noText : textOf? program id = none)
    (sets : session.annotations.setValue id value = .ok annotations)
    (otherSets : shadow.annotations.setValue id other = .ok others) :
    Session.Shadows program dropped pairs { session with annotations := annotations }
      { shadow with annotations := others } := by
  have gained : Session.Knows { session with annotations := annotations } (.expr id) :=
    ⟨value, by rw [Annotations.value?_of_setValue sets, if_pos rfl]⟩
  have storage : annotations.storage = session.annotations.storage :=
    (Annotations.setValue_eq_ok.mp sets).2 ▸ rfl
  have otherStorage : others.storage = shadow.annotations.storage :=
    (Annotations.setValue_eq_ok.mp otherSets).2 ▸ rfl
  refine shadows.annotate (learns_setValue sets) (learns_setValue otherSets) gained
    (shadows.spells.setValue noText sets) (shadows.otherSpells.setValue noText otherSets) ?_
  simp only [Annotations.storageOf, storage, otherStorage]
  exact shadows.topLevel

theorem recordText (shadows : session.Shadows program dropped pairs shadow) {id : ExprId}
    {text : String} (isText : textOf? program id = some text)
    (unknown : session.annotations.values.contains id = false) (value other : Operand) :
    (Link.recordText session id value text).Shadows program dropped
      (Code.withPair pairs ⟨session.cursor.module.nextData⟩ ⟨shadow.cursor.module.nextData⟩)
      (Link.recordText shadow id other text) := by
  have otherUnknown := shadows.unrecorded unknown
  have sets : session.annotations.setValue id value = .ok { session.annotations with
      values := session.annotations.values.insert id value } :=
    Annotations.setValue_eq_ok.mpr ⟨unknown, rfl⟩
  have otherSets : shadow.annotations.setValue id other = .ok { shadow.annotations with
      values := shadow.annotations.values.insert id other } :=
    Annotations.setValue_eq_ok.mpr ⟨otherUnknown, rfl⟩
  have fresh := shadows.spells.below_next unknown value
  have otherFresh := shadows.otherSpells.below_next otherUnknown other
  rcases shadows.spells.recordText isText unknown value with ⟨goes, new⟩
  rcases shadows.otherSpells.recordText isText otherUnknown other with ⟨otherGoes, otherNew⟩
  exact {
    bodies := by
      intro name
      refine Option.Rel.imp (shadows.bodies name) ?_
      rintro function mirrored ⟨pairing, same, agrees⟩
      refine ⟨pairing.addData _ _, by rw [← same]; rfl, ?_⟩
      exact agrees.moreData (pairing.within_addData _ _) rfl rfl
    headings := ⟨shadows.headings.name, shadows.headings.names, shadows.headings.headings⟩
    globals := shadows.globals
    nextGlobal := shadows.nextGlobal
    topLevel := shadows.topLevel
    known := shadows.knows_annotate (learns_setValue sets) (learns_setValue otherSets)
      ⟨value, Table.get?_insert_same _ _ _⟩
    data := shadows.data.insert fresh otherFresh (Code.Module.textBytes text)
    sameTexts := by
      rintro data counterpart (paired | ⟨rfl, rfl⟩)
      · exact (shadows.sameTexts data counterpart paired).imp fun _ same =>
          ⟨goes.literal? same.1, otherGoes.literal? same.2⟩
      · exact ⟨id, new, otherNew⟩
    left := by
      intro data object found
      change Table.get? (Table.insert _ _ _) data = some object at found
      rw [Table.get?_insert] at found
      split at found
      · rename_i isNew
        exact .inl ⟨_, .inr ⟨isNew.symm, rfl⟩⟩
      · rcases shadows.left data object found with ⟨counterpart, paired⟩ | ⟨other, known, isDropped⟩
        · exact .inl ⟨counterpart, .inl paired⟩
        · exact .inr ⟨other, goes.literal? known, isDropped⟩
    spells := goes.spells
    otherSpells := otherGoes.spells }

theorem addGlobal (shadows : session.Shadows program dropped pairs shadow) (decl : Source.VarDecl)
    (initial : Code.Constant) : (session.addGlobal decl initial).Shadows program dropped pairs
      (shadow.addGlobal decl initial) :=
  { shadows with
    headings := ⟨shadows.headings.name, shadows.headings.names, shadows.headings.headings⟩
    globals := by
      simp only [Session.addGlobal, Code.Module.addGlobal, shadows.globals, shadows.nextGlobal]
    nextGlobal := congrArg (· + 1) shadows.nextGlobal
    spells := shadows.spells.same rfl rfl rfl
    otherSpells := shadows.otherSpells.same rfl rfl rfl }

end Session.Shadows

end ScriptLowering.Lowering
