import FractionDrill.Run

/-!
# The program

The program parses its arguments, checks them and runs. Its exit code is 0 for
success, 1 for a run that failed, and 2 for arguments that cannot be read.
-/
namespace FractionDrill

/-- How an invocation ends. -/
inductive Ending where
  | refused (refusal : Refusal)
  | failed (fault : RunFault)
  | succeeded
deriving DecidableEq, Repr

namespace Program

variable {m : Type → Type} [Monad m] [Host m]

def run (arguments : List Text) : m Ending := do
  match Options.parse arguments with
  | .error refusal => return .refused refusal
  | .ok options =>
      match Settings.ofOptions options with
      | .error objection => return .failed (.settings objection)
      | .ok settings =>
          match ← (Run.execute settings).run with
          | .error fault => return .failed fault
          | .ok () => return .succeeded

def usage : Text :=
  "Usage : [-r PLAGE [-n NOMBRE] [--graine GRAINE]] [-e EXERCICES -a REPONSES]".toList ++
    " [-o DOSSIER] [-v]\n".toList

def versionText : Text := "0.1.0\n".toList

def exitCode : Ending → UInt32
  | .succeeded => 0
  | .failed _ => 1
  | .refused .helpWanted => 0
  | .refused .versionWanted => 0
  | .refused _ => 2

/-- Runs the program and shows the fault of a run that failed. -/
def invoke (arguments : List Text) : m Ending := do
  let ending ← run arguments
  match ending with
  | .failed fault => Host.complain ("erreur : ".toList ++ fault.message)
  | _ => pure ()
  return ending

end Program
end FractionDrill
