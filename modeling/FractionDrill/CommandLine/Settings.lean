import FractionDrill.CommandLine.Options

/-!
# Settings

Options are checked once and become the settings of a run, which either
generates a batch or grades two sheets. Numbers outside their limits and
options that do not go together are refused.
-/
namespace FractionDrill

inductive Mode where
  | generate (count : Nat) (bound : Int)
  | grade (exercises answers : Path)
deriving DecidableEq, Repr

structure Settings where
  mode : Mode
  directory : Path
  seed : Option UInt64
  verbose : Bool
deriving DecidableEq, Repr

namespace Settings

/-- Why options make no settings. -/
inductive Objection where
  | bothModes
  | boundOutside (bound : Int)
  | countOutside (count : Nat)
  | countWithoutBound
  | onlyOneSheet
  | nothingToDo
deriving DecidableEq, Repr

def defaultCount : Nat := 10

def maxCount : Nat := 10000

def maxBound : Nat := 1000

def defaultDirectory : Path := ['.']

def Objection.message : Objection → Text
  | bothModes => "-r (générer) et -e/-a (corriger) sont incompatibles".toList
  | boundOutside bound =>
      "-r doit être dans [2, ".toList ++ Text.natural maxBound ++ "] (reçu ".toList ++
        Text.integer bound ++ [')']
  | countOutside count =>
      "-n doit être dans [1, ".toList ++ Text.natural maxCount ++ "] (reçu ".toList ++
        Text.natural count ++ [')']
  | countWithoutBound => "-n n’a de sens qu’avec -r".toList
  | onlyOneSheet => "-e et -a vont ensemble".toList
  | nothingToDo =>
      "rien à faire : -r <plage> pour générer, -e <fichier> -a <fichier> pour corriger".toList

def generation (count : Nat) (bound : Int) : Except Objection Mode :=
  if ¬(2 ≤ bound ∧ bound ≤ maxBound) then .error (.boundOutside bound)
  else if ¬(1 ≤ count ∧ count ≤ maxCount) then .error (.countOutside count)
  else .ok (.generate count bound)

def chooseMode (o : Options) : Except Objection Mode :=
  match o.bound, o.exercises, o.answers with
  | some bound, none, none => generation (o.count.getD defaultCount) bound
  | some _, _, _ => .error .bothModes
  | none, some exercises, some answers =>
      if o.count.isSome then .error .countWithoutBound else .ok (.grade exercises answers)
  | none, none, none => .error .nothingToDo
  | none, _, _ => .error .onlyOneSheet

def ofOptions (o : Options) : Except Objection Settings := do
  return ⟨← chooseMode o, o.directory.getD defaultDirectory, o.seed, o.verbose⟩

end Settings
end FractionDrill
