import FractionDrill.Storage.Path
import FractionDrill.Text.Numeral

/-!
# Command line options

Arguments are read from left to right. A short option is a dash and a letter,
and several may share one dash; a long option is two dashes and a word. The
value of an option follows an equals sign, or stands directly after the letter,
or is the next argument that does not start with a dash. A value in an argument
of its own is checked when the next option is met or the arguments end.
-/
namespace FractionDrill

inductive Switch where
  | count
  | bound
  | exercises
  | answers
  | directory
  | seed
  | verbose
  | help
  | version
deriving DecidableEq, Repr

structure Options where
  count : Option Nat := none
  bound : Option Int := none
  exercises : Option Path := none
  answers : Option Path := none
  directory : Option Path := none
  seed : Option UInt64 := none
  verbose : Bool := false
deriving DecidableEq, Repr

/-- Why the arguments give no options. -/
inductive Refusal where
  | unknownArgument
  /-- A number is malformed or out of range. -/
  | badNumber
  /-- A value is missing, or a path is empty. -/
  | missingValue
  | repeatedOption
  /-- An option that takes no value has one. -/
  | unwantedValue
  | helpWanted
  | versionWanted
deriving DecidableEq, Repr

namespace Switch

def takesValue : Switch → Bool
  | verbose | help | version => false
  | _ => true

def ofShort? : Char → Option Switch
  | 'n' => some count
  | 'r' => some bound
  | 'e' => some exercises
  | 'a' => some answers
  | 'o' => some directory
  | 'v' => some verbose
  | 'h' => some help
  | 'V' => some version
  | _ => none

def ofLong? (name : Text) : Option Switch :=
  if name = "dossier".toList then some directory
  else if name = "graine".toList then some seed
  else if name = "verbose".toList then some verbose
  else if name = "help".toList then some help
  else if name = "version".toList then some version
  else none

end Switch

namespace Options

def maxUnsigned : Nat := 0xffffffffffffffff

def maxSigned : Nat := 0x7fffffffffffffff

/-- The value of an option that may be given once. -/
def once {α : Type} (old : Option α) (value : Except Refusal α) : Except Refusal (Option α) :=
  if old.isSome then .error .repeatedOption else value.map some

def number {α : Type} : Option α → Except Refusal α
  | some n => .ok n
  | none => .error .badNumber

def path (value : Text) : Except Refusal Path :=
  if value.isEmpty then .error .missingValue else .ok value

def setValue (o : Options) (switch : Switch) (value : Text) : Except Refusal Options := do
  match switch with
  | .count => return { o with count := ← once o.count (number (Text.natural? maxUnsigned value)) }
  | .bound => return { o with bound := ← once o.bound (number (Text.integer? maxSigned value)) }
  | .exercises => return { o with exercises := ← once o.exercises (path value) }
  | .answers => return { o with answers := ← once o.answers (path value) }
  | .directory => return { o with directory := ← once o.directory (path value) }
  | .seed =>
      let seed := (Text.natural? maxUnsigned value).map UInt64.ofNat
      return { o with seed := ← once o.seed (number seed) }
  | _ => .error .unwantedValue

def setFlag (o : Options) : Switch → Except Refusal Options
  | .verbose => if o.verbose then .error .repeatedOption else .ok { o with verbose := true }
  | .help => .error .helpWanted
  | .version => .error .versionWanted
  | _ => .error .missingValue

/-- How far the arguments have been read. -/
structure Progress where
  options : Options := {}
  /-- An option whose value stands in an argument of its own, and that value once read. -/
  pending : Option (Switch × Option Text) := none
  /-- Two dashes alone were met, so no option can follow. -/
  ended : Bool := false

namespace Progress

/-- Gives its value to the pending option. -/
def settle (s : Progress) : Except Refusal Options :=
  match s.pending with
  | none => .ok s.options
  | some (_, none) => .error .missingValue
  | some (switch, some value) => s.options.setValue switch value

def flag (s : Progress) (switch : Switch) : Except Refusal Progress := do
  return { options := ← (← s.settle).setFlag switch }

def attached (s : Progress) (switch : Switch) (value : Text) : Except Refusal Progress := do
  return { options := ← (← s.settle).setValue switch value }

def await (s : Progress) (switch : Switch) : Except Refusal Progress := do
  return { options := ← s.settle, pending := some (switch, none) }

def long (s : Progress) (argument : Text) : Except Refusal Progress :=
  let (name, value) :=
    match Text.cut '=' argument with
    | some (name, value) => (name, some value)
    | none => (argument, none)
  match Switch.ofLong? name with
  | none => .error .unknownArgument
  | some switch =>
      match switch.takesValue, value with
      | true, some value => s.attached switch value
      | true, none => s.await switch
      | false, some _ => .error .unwantedValue
      | false, none => s.flag switch

/-- Reads the letters after one dash; the rest after a letter may be the value of its option. -/
def short (s : Progress) : Text → Except Refusal Progress
  | [] => .ok s
  | c :: rest =>
      match Switch.ofShort? c with
      | none => .error .unknownArgument
      | some switch =>
          if !switch.takesValue then do (← s.flag switch).short rest
          else if rest.isEmpty then s.await switch
          else s.attached switch (Text.dropMark '=' rest)

/-- An argument that is no option must be the value of the pending one. -/
def operand (s : Progress) (argument : Text) : Except Refusal Progress :=
  match s.pending with
  | some (switch, none) => .ok { s with pending := some (switch, some argument) }
  | _ => .error .unknownArgument

def step (s : Progress) (argument : Text) : Except Refusal Progress :=
  if s.ended then .error .unknownArgument
  else
    match argument with
    | ['-', '-'] => .ok { s with ended := true }
    | '-' :: '-' :: name => s.long name
    | ['-'] => s.operand argument
    | '-' :: letters => s.short letters
    | _ => s.operand argument

end Progress

def parse (arguments : List Text) : Except Refusal Options := do
  (← arguments.foldlM Progress.step {}).settle

end Options
end FractionDrill
