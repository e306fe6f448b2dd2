import FractionDrill.Expr.Basic
import FractionDrill.Text.Blank

/-!
# Tokens

Blanks are dropped before a text is divided into tokens, also inside numbers. A
number is the longest run of digits, slashes and whole marks. A minus sign
belongs to the number after it where an operand is expected and a digit
follows; everywhere else it is the operator.
-/
namespace FractionDrill

inductive Token where
  | number (value : Fraction)
  | operator (op : Operator)
  | opening
  | closing
deriving DecidableEq

namespace Token
open Text

def isNumberPart (c : Char) : Bool := c.isDigit || c == '/' || c == Fraction.wholeMark

/-- Whether an operand may follow the token. -/
def expectsOperand : Token → Bool
  | operator _ => true
  | opening => true
  | _ => false

def startsWithDigit : Text → Bool
  | c :: _ => c.isDigit
  | [] => false

/-- A character that is a token by itself. -/
def ofChar : Char → Except Fault Token
  | '(' => .ok opening
  | ')' => .ok closing
  | c =>
      match Operator.ofSymbol? c with
      | some op => .ok (operator op)
      | none => .error (.malformedExpression (.unexpectedCharacter c))

/-- The tokens of a text without blanks. The flag says whether an operand is expected. -/
def scan (operandNext : Bool) : Text → Except Fault (List Token)
  | [] => .ok []
  | c :: rest =>
      if c.isDigit || (c == '-' && operandNext && startsWithDigit rest) then do
        let q ← Fraction.read (c :: rest.takeWhile isNumberPart)
        let tokens ← scan false (rest.dropWhile isNumberPart)
        return number q :: tokens
      else do
        let token ← ofChar c
        let tokens ← scan token.expectsOperand rest
        return token :: tokens
termination_by s => s.length
decreasing_by
  · exact Nat.lt_succ_of_le (List.dropWhile_sublist _).length_le
  · exact Nat.lt_succ_self _

def ofText (s : Text) : Except Fault (List Token) := scan true (s.filter fun c => !isBlank c)

def render : Token → Text
  | number q => q.render
  | operator op => [op.symbol]
  | opening => ['(']
  | closing => [')']

/-- The tokens with one space between neighbours. -/
def renderAll (tokens : List Token) : Text := [' '].intercalate (tokens.map render)

end Token
end FractionDrill
