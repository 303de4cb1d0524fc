import ScriptLowering.Command.Execution
import ScriptLowering.Command.Path

/-!
# A directory in memory

Files that exist only as values, so that a run of the command is a function from directories
to directories. A folder exists as long as it has a file in it; the directory itself, the
folders around it and the root of all files always exist.
-/

namespace ScriptLowering.Command

/-- The contents of files by their places. -/
structure Directory where
  files : Table Place ByteArray

/-- Why a path does not lead to a file, in the wording of the system. -/
inductive PathFailure where
  | missing
  | notAFolder
  | isAFolder
  | nameTooLong
  deriving DecidableEq, Repr

def PathFailure.reason : PathFailure → String
  | missing => "No such file or directory (os error 2)"
  | notAFolder => "Not a directory (os error 20)"
  | isAFolder => "Is a directory (os error 21)"
  | nameTooLong => "File name too long (os error 36)"

namespace Directory

def ofList (files : List (String × ByteArray)) : Directory :=
  ⟨.ofList (files.map fun file => ((Path.ofText file.1).place, file.2))⟩

def isFolder (directory : Directory) (place : Place) : Bool :=
  place.names.isEmpty || directory.files.keys.any place.isAround

/-! ## Following paths -/

def enter (directory : Directory) (folder : Place) (step : String) :
    Except PathFailure Place :=
  if Path.isDotStep step then .ok (Path.follow folder step)
  else if Path.nameLimit < step.utf8ByteSize then .error .nameTooLong
  else if directory.isFolder (folder.child step) then .ok (folder.child step)
  else if directory.files.contains (folder.child step) then .error .notAFolder
  else .error .missing

def walk (directory : Directory) (start : Place) (steps : List String) :
    Except PathFailure Place :=
  steps.foldlM directory.enter start

/-- The place of the file with a name in a folder, whether or not it exists. -/
def fileIn (directory : Directory) (folder : Place) (name : String) :
    Except PathFailure Place :=
  if Path.nameLimit < name.utf8ByteSize then .error .nameTooLong
  else if directory.isFolder (folder.child name) then .error .isAFolder
  else .ok (folder.child name)

/-- The place of the file that a path names. Every step but the last leads to a folder, and
the last is a name. -/
def locate (directory : Directory) (text : String) : Except PathFailure Place :=
  let path := Path.ofText text
  if Path.textLimit ≤ text.utf8ByteSize then .error .nameTooLong
  else
    match path.steps.getLast? with
    | none => .error .isAFolder
    | some last =>
        (directory.walk path.start path.steps.dropLast).bind fun folder =>
          if Path.isDotStep last || path.namesFolder then .error .isAFolder
          else directory.fileIn folder last

/-! ## Reading and writing -/

def read (directory : Directory) (path : String) : Option ByteArray :=
  match directory.locate path with
  | .ok place => directory.files.get? place
  | .error _ => none

def put (directory : Directory) (place : Place) (content : ByteArray) : Directory :=
  ⟨directory.files.insert place content⟩

def write (directory : Directory) (path : String) (content : ByteArray) :
    Except PathFailure Directory := do
  return directory.put (← directory.locate path) content

/-! ## What was written is read -/

theorem isFolder_put {directory : Directory} {place other : Place} {content : ByteArray}
    (folder : directory.isFolder other = true) :
    (directory.put place content).isFolder other = true := by
  simp only [isFolder, Bool.or_eq_true, List.any_eq_true] at folder ⊢
  rcases folder with origin | ⟨inner, member, around⟩
  · exact Or.inl origin
  · exact Or.inr ⟨inner, Table.mem_keys_insert.mpr (Or.inr member), around⟩

/-- A file that was put at a place does not make a folder of that place. -/
theorem isFolder_put_self {directory : Directory} {place : Place} (content : ByteArray)
    (noFolder : directory.isFolder place = false) :
    (directory.put place content).isFolder place = false := by
  simp only [isFolder, Bool.or_eq_false_iff, List.any_eq_false] at noFolder ⊢
  refine ⟨noFolder.1, fun inner member => ?_⟩
  rcases Table.mem_keys_insert.mp member with equal | old
  · simp [equal, Place.isAround_self]
  · exact noFolder.2 inner old

theorem enter_put {directory : Directory} {place folder next : Place} {content : ByteArray}
    {step : String} (entered : directory.enter folder step = .ok next) :
    (directory.put place content).enter folder step = .ok next := by
  unfold enter at entered ⊢
  split at entered
  · rename_i dots
    rw [if_pos dots]
    exact entered
  · rename_i noDots
    split at entered
    · contradiction
    · rename_i short
      split at entered
      · rename_i isThere
        rw [if_neg noDots, if_neg short, if_pos (isFolder_put isThere)]
        exact entered
      · split at entered <;> contradiction

theorem walk_put {directory : Directory} {place : Place} {content : ByteArray} :
    ∀ {steps : List String} {start folder : Place},
      directory.walk start steps = .ok folder →
        (directory.put place content).walk start steps = .ok folder
  | [], _, _, walked => walked
  | step :: rest, start, folder, walked => by
      simp only [walk, List.foldlM_cons] at walked ⊢
      cases entered : directory.enter start step with
      | error failure =>
          rw [entered] at walked
          contradiction
      | ok next =>
          rw [entered] at walked
          rw [enter_put entered]
          exact walk_put walked

theorem fileIn_put {directory : Directory} {folder place : Place} {content : ByteArray}
    {name : String} (found : directory.fileIn folder name = .ok place) :
    (directory.put place content).fileIn folder name = .ok place := by
  unfold fileIn at found ⊢
  split at found
  · contradiction
  · rename_i short
    split at found
    · contradiction
    · rename_i noFolder
      cases found
      have stillNone := isFolder_put_self content (Bool.eq_false_iff.mpr noFolder)
      rw [if_neg short, stillNone]
      rfl

theorem locate_put {directory : Directory} {path : String} {place : Place}
    {content : ByteArray} (found : directory.locate path = .ok place) :
    (directory.put place content).locate path = .ok place := by
  unfold locate at found ⊢
  dsimp only at found ⊢
  split at found
  · contradiction
  · rename_i short
    rw [if_neg short]
    split at found
    · contradiction
    · rename_i last _
      cases walked : directory.walk (Path.ofText path).start
          (Path.ofText path).steps.dropLast with
      | error failure =>
          rw [walked] at found
          contradiction
      | ok folder =>
          rw [walked] at found
          rw [walk_put walked]
          simp only [Except.bind] at found ⊢
          split at found
          · contradiction
          · rename_i isName
            rw [if_neg isName]
            exact fileIn_put found

/-- A file that was written can be read under the same path. -/
theorem read_of_write {directory next : Directory} {path : String} {content : ByteArray}
    (done : directory.write path content = .ok next) : next.read path = some content := by
  unfold write at done
  cases found : directory.locate path with
  | error failure =>
      rw [found] at done
      contradiction
  | ok place =>
      rw [found] at done
      cases done
      rw [read, locate_put found]
      exact Table.get?_insert_same directory.files place content

/-! ## Running the command -/

/-- The directory as the files of the command. -/
def access : Files (StateM Directory) where
  read path := return (← get).read path
  write path text := do
    match (← get).write path text.toUTF8 with
    | .ok directory => set directory; return .ok ()
    | .error failure => return .error failure.reason

def run (directory : Directory) (terminalColors : Bool) (arguments : List String) :
    Execution × Directory :=
  (Command.run access terminalColors arguments).run directory

end Directory

end ScriptLowering.Command
