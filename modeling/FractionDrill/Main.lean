import FractionDrill.CommandLine.Program
import FractionDrill.Storage.Local

/-!
# The command line

Runs the program on the machine itself. Texts about the arguments are shown
here, and everything else has been shown by the run.
-/
namespace FractionDrill.Main

def run (arguments : List String) : IO UInt32 := do
  let ending ← Program.invoke (arguments.map String.toList)
  match ending with
  | .refused .helpWanted => IO.print (String.ofList Program.usage)
  | .refused .versionWanted => IO.print (String.ofList Program.versionText)
  | .refused _ => IO.eprint (String.ofList Program.usage)
  | _ => pure ()
  return Program.exitCode ending

end FractionDrill.Main

def main (arguments : List String) : IO UInt32 := FractionDrill.Main.run arguments
