import FractionDrill.Storage.Disk

/-!
# The machine itself as a host

The operations of a host, carried out by the system. The system's reasons for a
failure are renamed, and texts become strings; nothing else is decided here.
-/
namespace FractionDrill.Local

/-- The fault with a number of the system, which also explains it in words. -/
def faultOfCode (code : UInt32) (words : String) : StorageFault :=
  match code.toNat with
  | 2 => .notFound
  | 17 => .alreadyExists
  | 20 => .notDirectory
  | 21 => .isDirectory
  | 36 => .nameTooLong
  | number => .other s!"{words} (os error {number})".toList

def faultOfError : IO.Error → StorageFault
  | .alreadyExists _ code words
  | .interrupted _ code words
  | .noFileOrDirectory _ code words
  | .invalidArgument _ code words
  | .permissionDenied _ code words
  | .resourceExhausted _ code words
  | .inappropriateType _ code words
  | .noSuchThing _ code words
  | .otherError code words
  | .resourceBusy code words
  | .resourceVanished code words
  | .unsupportedOperation code words
  | .hardwareFault code words
  | .unsatisfiedConstraints code words
  | .illegalOperation code words => faultOfCode code words
  | error => .other error.toString.toList

/-- Carries out an operation on a path that the system can be given. -/
def attempt {α : Type} (path : Path) (operation : String → IO α) :
    IO (Except StorageFault α) := do
  if path.hasNul then return .error .unexpectedNul
  try return .ok (← operation (String.ofList path))
  catch error => return .error (faultOfError error)

/-- A directory is there exactly where its own dot cannot be made because it exists. -/
def hasDot (path : Path) : IO Bool := do
  match ← attempt (path ++ "/.".toList) fun name => IO.FS.createDir name with
  | .error .alreadyExists => return true
  | _ => return false

instance : Host IO where
  readFile path := attempt path fun name => IO.FS.withFile name .read (·.readBinToEnd)
  writeFile path content := attempt path fun name => IO.FS.writeBinFile name content
  makeDirectory path := attempt path fun name => IO.FS.createDir name
  isDirectory := hasDot
  print text := IO.print (String.ofList text)
  log text := IO.eprint (String.ofList (Shown.logged text).toDiagnostics)
  complain text := IO.eprint (String.ofList (Shown.complaint text).toDiagnostics)
  freshKey := do return .ofBytes (← IO.getRandomBytes 32)

end FractionDrill.Local
