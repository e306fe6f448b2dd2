import FractionDrill.Storage.Host

/-!
# A model of a machine

A disk holds files and directories under the names that lead to them from the
working directory. The top directory, where paths with a slash in front start,
and the directories above the working directory exist and hold what runs have
put there; the latter are reached by two dots for each level. A machine has a
disk, a transcript of what was shown, and a key; it is the host on which runs
are reasoned about.
-/
namespace FractionDrill

inductive Node where
  | file (content : ByteArray)
  | directory

instance : DecidableEq Node
  | .file a, .file b =>
      decidable_of_iff (a.data = b.data) (by rw [Node.file.injEq, ByteArray.ext_iff])
  | .directory, .directory => .isTrue rfl
  | .file _, .directory => .isFalse nofun
  | .directory, .file _ => .isFalse nofun

/-- The names that lead to a node from the working directory, after any two dots, or
from the top directory, after a slash. -/
abbrev Place := List Text

structure Disk where
  nodes : List (Place × Node) := []

namespace Disk

/-- The piece that leads one level up. -/
def up : Text := ['.', '.']

/-- What stands for the top directory; no name contains a slash. -/
def top : Text := ['/']

/-- Whether the place is the working directory or one above it. -/
def isAbove (place : Place) : Bool := place.all (· == up)

def node? (d : Disk) (place : Place) : Option Node :=
  if place = [top] ∨ isAbove place then some .directory else d.nodes.lookup place

def put (d : Disk) (place : Place) (node : Node) : Disk :=
  ⟨(place, node) :: d.nodes.filter fun entry => entry.1 ≠ place⟩

/-- Follows one piece of a path. -/
def enter (here : Place) (piece : Text) : Place :=
  if Path.isIdle piece then here
  else if piece = up ∧ here = [top] then here
  else if piece = up ∧ !isAbove here then here.dropLast
  else here ++ [piece]

/-- Where the pieces of a path start. -/
def origin (p : Path) : Place := if p.head? = some '/' then [top] else []

/-- Refuses a path that cannot lead anywhere, whatever the disk holds. -/
def screen (p : Path) : Except StorageFault Unit :=
  if p.hasNul then .error .unexpectedNul
  else if p.isEmpty then .error .notFound
  else if p.isOverlong then .error .nameTooLong
  else .ok ()

/-- The place to which pieces lead. Every node that is passed must be a directory, and
no name is looked up that a directory could not hold. -/
def follow (d : Disk) : Place → List Text → Except StorageFault Place
  | here, [] => .ok here
  | here, piece :: rest =>
      match d.node? here with
      | none => .error .notFound
      | some (.file _) => .error .notDirectory
      | some .directory =>
          if Path.isOverlongName piece then .error .nameTooLong
          else follow d (enter here piece) rest

def locate (d : Disk) (p : Path) : Except StorageFault Place := do
  screen p
  d.follow (origin p) p.pieces

/-- The place of the last name of a path, in a directory that must exist. There is no
such place where the path ends in dots or has no name at all. -/
def target (d : Disk) (p : Path) : Except StorageFault (Option Place) := do
  screen p
  match p.pieces.reverse.dropWhile List.isEmpty with
  | [] => return none
  | name :: above =>
      let here ← d.follow (origin p) (above.reverse ++ [[]])
      return if name = ['.'] ∨ name = up then none else some (here ++ [name])

def readFile (d : Disk) (p : Path) : Except StorageFault ByteArray := do
  match d.node? (← d.locate p) with
  | none => .error .notFound
  | some .directory => .error .isDirectory
  | some (.file content) => .ok content

def writeFile (d : Disk) (p : Path) (content : ByteArray) : Except StorageFault Disk := do
  match ← d.target p with
  | none => .error .isDirectory
  | some place =>
      if p.getLast? = some '/' then .error .isDirectory
      else if place.any Path.isOverlongName then .error .nameTooLong
      else if d.node? place = some .directory then .error .isDirectory
      else .ok (d.put place (.file content))

def makeDirectory (d : Disk) (p : Path) : Except StorageFault Disk := do
  match ← d.target p with
  | none => .error .alreadyExists
  | some place =>
      if place.any Path.isOverlongName then .error .nameTooLong
      else if (d.node? place).isSome then .error .alreadyExists
      else .ok (d.put place .directory)

def isDirectory (d : Disk) (p : Path) : Bool :=
  match d.locate p with
  | .ok place => d.node? place = some .directory
  | .error _ => false

/-- The disk of a new machine: the directories that lie below the top directory of every
system, and a device that reads as an empty file. -/
def bare : Disk :=
  let names := ["bin", "dev", "etc", "home", "proc", "root", "sys", "tmp", "usr", "var"]
  let directories : Disk := ⟨names.map fun name => ([top, name.toList], .directory)⟩
  directories.put [top, "dev".toList, "null".toList] (.file .empty)

end Disk

/-- A line that a run has shown. -/
inductive Shown where
  | printed (text : Text)
  | logged (text : Text)
  | complaint (text : Text)
deriving DecidableEq, Repr

/-- What stands beside the output. The time of a logged line is left blank. -/
def Shown.toDiagnostics : Shown → Text
  | printed _ => []
  | logged text => "[] ".toList ++ text ++ ['\n']
  | complaint text => text ++ ['\n']

structure Machine where
  disk : Disk := .bare
  /-- What was shown, the latest first. -/
  transcript : List Shown := []
  key : Key := .replicate 8 0

namespace Machine

def record (m : Machine) (s : Shown) : Machine := { m with transcript := s :: m.transcript }

/-- Installs a changed disk where the change succeeded. -/
def update (m : Machine) : Except StorageFault Disk → Except StorageFault Unit × Machine
  | .ok disk => (.ok (), { m with disk })
  | .error fault => (.error fault, m)

instance : Host (StateM Machine) where
  readFile p := fun m => (m.disk.readFile p, m)
  writeFile p content := fun m => m.update (m.disk.writeFile p content)
  makeDirectory p := fun m => m.update (m.disk.makeDirectory p)
  isDirectory p := fun m => (m.disk.isDirectory p, m)
  print text := fun m => ((), m.record (.printed text))
  log text := fun m => ((), m.record (.logged text))
  complain text := fun m => ((), m.record (.complaint text))
  freshKey := fun m => (m.key, m)

end Machine
end FractionDrill
