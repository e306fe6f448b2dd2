import FractionDrill.Random.Keystream
import FractionDrill.Storage.Path

/-!
# What a run needs from its surroundings

A run reads and writes files, prints, keeps a log and may need a key. These
services are the operations of a class, so that one definition of a run serves
both on a machine and on a model of one. A file operation that fails says why.
-/
namespace FractionDrill

inductive StorageFault where
  | notFound
  | alreadyExists
  | notDirectory
  | isDirectory
  | notUtf8
  | nameTooLong
  /-- The path has the character that ends a path on a machine. -/
  | unexpectedNul
  /-- Any other reason, in the words of the machine. -/
  | other (reason : Text)
deriving DecidableEq, Repr

def StorageFault.message : StorageFault → Text
  | notFound => "No such file or directory (os error 2)".toList
  | alreadyExists => "File exists (os error 17)".toList
  | notDirectory => "Not a directory (os error 20)".toList
  | isDirectory => "Is a directory (os error 21)".toList
  | notUtf8 => "stream did not contain valid UTF-8".toList
  | nameTooLong => "File name too long (os error 36)".toList
  | unexpectedNul => "file name contained an unexpected NUL byte".toList
  | other reason => reason

class Host (m : Type → Type) where
  readFile : Path → m (Except StorageFault ByteArray)
  /-- Replaces the content of a file, or creates the file in an existing directory. -/
  writeFile : Path → ByteArray → m (Except StorageFault Unit)
  makeDirectory : Path → m (Except StorageFault Unit)
  isDirectory : Path → m Bool
  print : Text → m Unit
  /-- Adds a line to the log, which shows the time of its lines. -/
  log : Text → m Unit
  /-- Shows a line beside the log, without a time. -/
  complain : Text → m Unit
  /-- A key for a source of random words, which differs from run to run. -/
  freshKey : m Key

namespace Host

variable {m : Type → Type} [Monad m] [Host m]

/-- Makes a directory where none is there yet. -/
def settleDirectory (path : Path) : Except StorageFault Unit → m (Except StorageFault Unit)
  | .ok () => return .ok ()
  | .error fault => do
      if ← Host.isDirectory path then return .ok () else return .error fault

/-- Makes the directory with the given pieces, and those above it that are missing. -/
def ensureDirectory (pieces : List Text) : m (Except StorageFault Unit) := do
  let path := Path.ofPieces pieces
  if h : path.isEmpty then return .ok ()
  else
    have : (Path.parent pieces).length < pieces.length :=
      Path.length_parent_lt (by rintro rfl; simp [path, Path.ofPieces] at h)
    match ← Host.makeDirectory path with
    | .error .notFound =>
        match ← ensureDirectory (Path.parent pieces) with
        | .error fault => return .error fault
        | .ok () => settleDirectory path (← Host.makeDirectory path)
    | result => settleDirectory path result
termination_by pieces.length

end Host
end FractionDrill
