import FractionDrill.Expr.Basic
import FractionDrill.Text.Blank

/-!
# Problems

A problem is a line of an exercise sheet with the answer that is expected. The
statement of a problem is an expression followed by an equals sign between
spaces.
-/
namespace FractionDrill

structure Problem where
  statement : Text
  answer : Text
deriving DecidableEq, Repr

namespace Problem
open Text

/-- The problem that asks for the given value of an expression. -/
def ofExpr (e : Expr) (v : Fraction) : Problem := ⟨e.render ++ " = ".toList, v.render⟩

/-- The text without the equals signs at its end. -/
def dropEquals (s : Text) : Text := (s.reverse.dropWhile (· == '=')).reverse

/-- The statement without its final equals sign; two problems with one key are the same. -/
def key (p : Problem) : Text := trimEnd (dropEquals (trimEnd p.statement))

/-- What is to be evaluated in a statement: all that stands before the first equals sign. -/
def question (statement : Text) : Text :=
  match cut '=' statement with
  | some (before, _) => trim before
  | none => trim statement

end Problem
end FractionDrill
