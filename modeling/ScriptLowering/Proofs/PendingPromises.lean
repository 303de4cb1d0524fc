import ScriptLowering.Proofs.ControlRuns
import ScriptLowering.Proofs.ResolvedTraces

/-! # Prospects

The blocks of a structured statement are created when it is met and promised that control comes to
them from there. A prospect is what is known in the middle of the statement: all promises have been
kept so far, some blocks still wait to be entered, and some have been entered and are jumped to
again.
-/

namespace ScriptLowering.Code.Place

structure Prospect (module : Module) (host : Function) (base : Promises) (origin : Place)
    (pending : List BlockId) (waits opened : List (BlockId × Prop)) (now : Promises)
    (place : Place) : Prop where
  honours : place.Honours module host now (waits.map Prod.fst ++ pending)
  carries : Carries base origin now place
  awaits : ∀ wait ∈ waits ++ opened, Awaits base origin wait.2 now place wait.1
  opened : origin.isLive = true → ∀ wait ∈ opened, wait.1 ∈ place.body.layout

namespace Prospect

variable {module : Module} {host : Function} {base now next : Promises} {origin place after : Place}
  {pending : List BlockId} {waits opened : List (BlockId × Prop)} {id : BlockId} {aim : Prop}
  {label : String} {count : Nat}

theorem start (honours : origin.Honours module host base pending) :
    Prospect module host base origin pending [] [] base origin :=
  ⟨honours, .refl _ _, fun _ member => (by cases member), fun _ _ member => (by cases member)⟩

theorem further (prospect : Prospect module host base origin pending waits opened now place)
    (honours : after.Honours module host next (waits.map Prod.fst ++ pending))
    (carries : Carries now place next after) :
    Prospect module host base origin pending waits opened next after where
  honours := honours
  carries := prospect.carries.trans carries
  awaits := fun wait member => (prospect.awaits wait member).carried carries
  opened := fun live wait member => carries.later.layout _ (prospect.opened live wait member)

theorem perm (prospect : Prospect module host base origin pending waits opened now place)
    {reordered : List (BlockId × Prop)} (same : waits.Perm reordered) :
    Prospect module host base origin pending reordered opened now place where
  honours := prospect.honours.mono fun _ member => ((same.map _).append_right _).mem_iff.mp member
  carries := prospect.carries
  awaits := fun wait member => prospect.awaits wait ((same.append_right _).mem_iff.mpr member)
  opened := prospect.opened

theorem create (prospect : Prospect module host base origin pending waits opened now place)
    (regular : place.Regular) (room : place.Room (count + 1)) (label : String) (aim : Prop) :
    ∃ next, Prospect module host base origin pending ((place.freshBlock, aim) :: waits) opened next
      (place.create label) := by
  rcases promises_create base origin prospect.honours regular room label aim with
    ⟨next, honours, carries, awaits⟩
  refine ⟨next, honours, prospect.carries.trans carries, ?_, ?_⟩
  · intro wait member
    rcases List.mem_cons.mp member with rfl | old
    · exact awaits
    · exact (prospect.awaits wait old).carried carries
  · exact fun live wait member => carries.later.layout _ (prospect.opened live wait member)

theorem admits (prospect : Prospect module host base origin pending waits opened now place)
    (member : (id, aim) ∈ waits ++ opened) (live : place.isLive = true) (reason : aim) :
    place.Admits now (waits.map Prod.fst ++ pending) id := by
  refine (prospect.awaits _ member).admits prospect.carries live reason ?_
  rcases List.mem_append.mp member with waiting | entered
  · exact .inr (List.mem_append_left _ (List.mem_map_of_mem (f := Prod.fst) waiting))
  · exact .inl (prospect.opened (prospect.carries.live live) _ entered)

theorem leaveTo (prospect : Prospect module host base origin pending waits opened now place)
    (regular : place.Regular) (member : (id, aim) ∈ waits ++ opened)
    (reason : place.isLive = true → aim) :
    Prospect module host base origin pending waits opened now (place.leaveTo id) := by
  rcases promises_leaveTo prospect.honours regular fun live =>
    prospect.admits member live (reason live) with ⟨honours, carries⟩
  exact prospect.further honours carries

theorem branch (prospect : Prospect module host base origin pending waits opened now place)
    (regular : place.Regular) (room : place.Room (count + 1)) {value : Operand}
    {other : BlockId} {otherAim : Prop} (first : (id, aim) ∈ waits ++ opened)
    (second : (other, otherAim) ∈ waits ++ opened)
    (reason : place.isLive = true → aim)
    (otherReason : place.isLive = true → otherAim)
    (supplies : place.isLive = true → place.Supplies module host now value .bool) :
    Prospect module host base origin pending waits opened now
        (place.ready.terminate (.branch value id other)) ∧
      (place.ready.terminate (.branch value id other)).isLive = false := by
  have accepts : place.isLive = true → place.Accepts module host now
      (waits.map Prod.fst ++ pending) (.branch value id other) := by
    intro live
    refine ⟨?_, .branch (supplies live).provides, ?_⟩
    · intro operand member
      rw [List.mem_singleton.mp member]
      exact (supplies live).offers
    · intro target edge
      rcases List.mem_pair.mp edge with rfl | rfl
      · exact prospect.admits first live (reason live)
      · exact prospect.admits second live (otherReason live)
  rcases promises_terminate prospect.honours regular room rfl accepts with
    ⟨honours, carries, dead⟩
  exact ⟨prospect.further honours carries, dead⟩

theorem enter
    (prospect : Prospect module host base origin pending ((id, aim) :: waits) opened now place)
    (regular : place.Regular) (waiting : place.Waiting id label)
    (reason : place.isLive = true → aim) (closing : Bool) :
    Prospect module host base origin pending waits opened now (place.enter id closing) ∧
      ((place.enter id closing).isLive = true → aim) := by
  rcases carries_enter prospect.honours regular waiting prospect.carries
    (prospect.awaits _ List.mem_cons_self) reason closing with ⟨honours, carries, relies⟩
  have within : place.Within 0 (place.enter id closing) :=
    within_enter place (Nat.zero_le _) closing
  refine ⟨⟨honours, carries, ?_, ?_⟩, relies⟩
  · intro wait member
    have awaits := prospect.awaits wait (List.mem_cons_of_mem _ member)
    exact ⟨awaits.promised, Nat.lt_of_lt_of_le awaits.numbered within.blocks⟩
  · intro live wait member
    rcases within.layout with ⟨more, grows, _⟩
    rw [grows]
    exact List.mem_append_left _ (prospect.opened live wait member)

theorem reopen
    (prospect : Prospect module host base origin pending ((id, True) :: waits) opened now place)
    (regular : place.Regular) (waiting : place.Waiting id label)
    (comes : origin.isLive = true → place.isLive = true) :
    Prospect module host base origin pending waits ((id, True) :: opened) now
      (place.enter id false) := by
  have entered := (prospect.enter regular waiting (fun _ => trivial) false).1
  have within : place.Within 0 (place.enter id false) :=
    within_enter place (Nat.zero_le _) false
  have awaits := prospect.awaits _ List.mem_cons_self
  refine ⟨entered.honours, entered.carries, ?_, ?_⟩
  · intro wait member
    rcases List.mem_append.mp member with waits | isOpened
    · exact entered.awaits wait (List.mem_append_left _ waits)
    · rcases List.mem_cons.mp isOpened with rfl | old
      · exact ⟨awaits.promised, Nat.lt_of_lt_of_le awaits.numbered within.blocks⟩
      · exact entered.awaits wait (List.mem_append_right _ old)
  · intro live wait member
    rcases List.mem_cons.mp member with rfl | old
    · exact mem_layout_enter (comes live) _ false
    · exact entered.opened live wait old

end Prospect

end ScriptLowering.Code.Place
