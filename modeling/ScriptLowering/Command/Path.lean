/-!
# Paths

A path is followed step by step, from the directory in which a command runs or from the root
of all files. What it leads to is a place, which is independent of the way that leads there.

Of the surroundings of the directory no more is known than that the folders around it exist.
-/

namespace ScriptLowering.Command

/-! ## Places -/

/-- A folder that exists in any case: the root of all files, or one so many steps above the
directory, with the directory itself at none. -/
inductive Origin where
  | root
  | above (steps : Nat)
  deriving DecidableEq, Repr

/-- Where a file or a folder is: the names that lead to it from an origin. -/
structure Place where
  origin : Origin
  names : List String
  deriving DecidableEq, Repr

namespace Place

def here : Place := ⟨.above 0, []⟩

def root : Place := ⟨.root, []⟩

def child (place : Place) (name : String) : Place :=
  { place with names := place.names ++ [name] }

/-- The folder around a place; the root stands around itself. -/
def parent (place : Place) : Place :=
  match place.names, place.origin with
  | [], .above steps => ⟨.above (steps + 1), []⟩
  | [], .root => root
  | names, origin => ⟨origin, names.dropLast⟩

/-- Whether `inner` is inside `place`, at any depth. -/
def isAround (place inner : Place) : Bool :=
  place.origin = inner.origin && place.names ≠ inner.names && place.names.isPrefixOf inner.names

theorem isAround_self (place : Place) : place.isAround place = false := by
  simp [isAround]

end Place

/-! ## Ways -/

/-- The steps of a path. Slashes beside each other divide no more than one does. -/
structure Path where
  start : Place
  steps : List String
  /-- The path ends in a slash, as only that of a folder may. -/
  namesFolder : Bool
  deriving DecidableEq, Repr

namespace Path

/-- The pieces between slashes, empty ones included. -/
def pieces : List Char → List (List Char)
  | [] => [[]]
  | character :: rest =>
      if character = '/' then [] :: pieces rest
      else
        match pieces rest with
        | [] => [[character]]
        | first :: others => (character :: first) :: others

def ofText (text : String) : Path where
  start := if text.toList.head? = some '/' then .root else .here
  steps := ((pieces text.toList).filter fun piece => !piece.isEmpty).map String.ofList
  namesFolder := text.toList.getLast? = some '/'

def textLimit : Nat := 4096

def nameLimit : Nat := 255

/-- A step that leads to a folder whatever that contains. -/
def isDotStep (step : String) : Bool := step = "." || step = ".."

/-- Where one step leads, as far as names go. -/
def follow (place : Place) (step : String) : Place :=
  if step = "." then place
  else if step = ".." then place.parent
  else place.child step

/-- Where the path leads, as far as names go. -/
def place (path : Path) : Place := path.steps.foldl follow path.start

example : (ofText ".//a/../b").place = ⟨.above 0, ["b"]⟩ := by decide +kernel

example : (ofText "../").place = ⟨.above 1, []⟩ := by decide +kernel

end Path

end ScriptLowering.Command
