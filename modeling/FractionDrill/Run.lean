import FractionDrill.CommandLine.Settings
import FractionDrill.Sheet.Numbered
import FractionDrill.Sheet.Report
import FractionDrill.Storage.Disk
import FractionDrill.Text.Utf8

/-!
# Runs

A run that generates writes a sheet of statements and a sheet of answers; a run
that grades reads two such sheets and writes a report. All reading and all
computation come before the first write.
-/
namespace FractionDrill

inductive RunFault where
  | storage (path : Path) (fault : StorageFault)
  | core (fault : Fault)
  | unnumbered (path : Path) (line : Sheet.Unnumbered)
  | settings (objection : Settings.Objection)
deriving DecidableEq, Repr

def RunFault.message : RunFault → Text
  | storage path fault => path ++ ": ".toList ++ fault.message
  | core fault => fault.message
  | unnumbered path ⟨place, line⟩ =>
      path ++ ':' :: Text.natural place ++ ": ligne non numérotée : ".toList ++ Text.quoted line
  | settings objection => objection.message

abbrev Run (m : Type → Type) := ExceptT RunFault m

namespace Run

variable {m : Type → Type} [Monad m] [Host m]

/-- Turns the result of a file operation into a step of a run. -/
def onPath {α : Type} (path : Path) (result : m (Except StorageFault α)) : Run m α :=
  ExceptT.mk do return (← result).mapError (.storage path)

def statementsName : Path := "Exercises.txt".toList

def answersName : Path := "Answers.txt".toList

def reportName : Path := "Grade.txt".toList

/-- Writes a file into a directory, which is made where it is missing, and gives its path. -/
def save (directory name : Path) (content : Text) : Run m Path := do
  onPath directory (Host.ensureDirectory directory.pieces)
  let path := Path.child directory name
  onPath path (Host.writeFile path (Text.toBytes content))
  return path

/-- The text of a file, which must be valid UTF-8. -/
def readText (path : Path) : Run m Text := do
  let content ← onPath path (Host.readFile path)
  match Text.ofBytes? content with
  | some text => return text
  | none => throw (.storage path .notUtf8)

def readSheet (path : Path) : Run m (List Entry) := do
  match Sheet.read (← readText path) with
  | .ok entries => return entries
  | .error line => throw (.unnumbered path line)

def note (settings : Settings) (text : Text) : Run m Unit :=
  if settings.verbose then ExceptT.lift (Host.log text) else return

def seedText : Option UInt64 → Text
  | some seed => "Some(".toList ++ Text.natural seed.toNat ++ [')']
  | none => "None".toList

/-- The batch that a source of words yields. -/
def drawBatch {σ : Type} [WordSource σ] (count : Nat) (bound : Int) (source : σ) :
    Except Fault (List Problem) := do
  let rules ← Rules.ofBound bound
  (Draw.start (rules.batch count) source).1

/-- The keystream of the wanted seed, or else of a fresh key. -/
def openSource : Option UInt64 → m Keystream
  | some seed => return .ofSeed seed
  | none => return .ofKey (← Host.freshKey)

/-- A run that generates, once its source is open. -/
def generateFrom (settings : Settings) (count : Nat) (bound : Int) (source : Keystream) :
    Run m Unit := do
  note settings ("tirage de ".toList ++ Text.natural count ++ " exercices, plage ".toList ++
    Text.integer bound ++ ", graine ".toList ++ seedText settings.seed)
  match drawBatch count bound source with
  | .error fault => throw (.core fault)
  | .ok batch =>
      let statements ← save settings.directory statementsName (Sheet.ofStatements batch)
      let answers ← save settings.directory answersName (Sheet.ofAnswers batch)
      ExceptT.lift (Host.print (Text.natural batch.length ++ " exercices écrits dans ".toList ++
        statements ++ " (réponses : ".toList ++ answers ++ ")\n".toList))

def generate (settings : Settings) (count : Nat) (bound : Int) : Run m Unit := do
  generateFrom settings count bound (← ExceptT.lift (openSource settings.seed))

def workingText : Nat × Working → Text
  | (k, working) =>
      Text.natural k ++ ". rpn [".toList ++ working.postfixList ++ "] arbre ".toList ++ working.tree

def failureText : Nat × Fault → Text
  | (k, fault) =>
      "exercice ".toList ++ Text.natural k ++ " non évaluable : ".toList ++ fault.message

def gradeSheets (settings : Settings) (exercisesPath answersPath : Path) : Run m Unit := do
  let exercises ← readSheet exercisesPath
  let answers ← readSheet answersPath
  note settings (Text.natural exercises.length ++ " exercices, ".toList ++
    Text.natural answers.length ++ " réponses lus".toList)
  let grading := grade exercises answers
  grading.workings.forM fun working => note settings (workingText working)
  grading.failures.forM fun failure => note settings (failureText failure)
  let report := Report.ofGrading grading
  let path ← save settings.directory reportName report
  ExceptT.lift (Host.print report)
  note settings ("notes écrites dans ".toList ++ path)

def execute (settings : Settings) : Run m Unit :=
  match settings.mode with
  | .generate count bound => generate settings count bound
  | .grade exercises answers => gradeSheets settings exercises answers

end Run
end FractionDrill
