import FractionDrill.Proofs.Expr.Acceptance
import FractionDrill.Proofs.Fraction.Malformed

/-!
# Texts with an unreadable number

Here a text is divided into blocks of number characters and single characters before
any of them is read, and its tokens are what these read as, one by one. So the first
one that cannot be read decides the fault of the evaluation. Where it is a block
without the shape of a number, the expression is malformed and the block is quoted,
unless the reader stopped in the block with an overflow.
-/
namespace FractionDrill
open Text

/-- A part of a text that is one token if it can be read. -/
inductive Lexeme where
  | number (block : Text)
  | character (c : Char)
deriving DecidableEq, Repr

namespace Lexeme

/-- Whether an operand may follow. -/
def expectsOperand : Lexeme → Bool
  | number _ => false
  | character c => c == '(' || (Operator.ofSymbol? c).isSome

def token : Lexeme → Except Fault Token
  | number block => do return .number (← Fraction.read block)
  | character c => Token.ofChar c

end Lexeme

namespace Token

/-- The parts of a text without blanks. The flag says whether an operand is expected. -/
def lexemes (operandNext : Bool) : Text → List Lexeme
  | [] => []
  | c :: rest =>
      if startsNumber operandNext c rest then
        .number (c :: rest.takeWhile isNumberPart) :: lexemes false (rest.dropWhile isNumberPart)
      else .character c :: lexemes (Lexeme.character c).expectsOperand rest
termination_by s => s.length
decreasing_by
  · exact Nat.lt_succ_of_le (List.dropWhile_sublist _).length_le
  · exact Nat.lt_succ_self _

theorem expectsOperand_of_ofChar {c : Char} {token : Token} (h : ofChar c = .ok token) :
    token.expectsOperand = (Lexeme.character c).expectsOperand := by
  unfold ofChar at h
  split at h
  · cases h
    rfl
  · cases h
    rfl
  · split at h
    · rename_i op hop
      cases h
      simp [expectsOperand, Lexeme.expectsOperand, hop]
    · cases h

/-- Dividing a text first and reading its parts afterwards gives the same tokens. -/
theorem scan_eq_mapM (operandNext : Bool) (s : Text) :
    scan operandNext s = (lexemes operandNext s).mapM Lexeme.token := by
  induction operandNext, s using scan.induct with
  | case1 operandNext =>
    rw [scan, lexemes]
    rfl
  | case2 operandNext c rest hstart ih =>
    rw [scan, if_pos hstart, lexemes, startsNumber, if_pos hstart, List.mapM_cons, ih, Lexeme.token,
      bind_assoc]
    rfl
  | case3 operandNext c rest hstart ih =>
    rw [scan, if_neg hstart, lexemes, startsNumber, if_neg hstart, List.mapM_cons, Lexeme.token]
    cases hc : ofChar c with
    | error fault => rfl
    | ok token => rw [← expectsOperand_of_ofChar hc, Fault.ok_bind, Fault.ok_bind, ih token]

end Token

/-- The block is the first of the text, blanks apart, that is not read as a number, and the given
parts stand in front of it. -/
structure FirstUnreadable (s block : Text) (before : List Lexeme) : Prop where
  splits : ∃ after, Token.lexemes true (s.filter fun c => !isBlank c) =
    before ++ .number block :: after
  readable : ∀ n, .number n ∈ before → ∃ q, Fraction.read n = .ok q
  unreadable : ∀ q, Fraction.read block ≠ .ok q

/-- Every single character among the parts is a token. -/
def AllTokens (parts : List Lexeme) : Prop :=
  ∀ c, .character c ∈ parts → ∃ token, Token.ofChar c = .ok token

namespace FirstUnreadable
variable {s block : Text} {before : List Lexeme}

/-- The numbers in front of the block are read, so what fails in front of it is a character. -/
theorem exists_character (h : FirstUnreadable s block before) {fault : Fault}
    (hfault : before.mapM Lexeme.token = .error fault) :
    ∃ c, .character c ∈ before ∧ Token.ofChar c = .error fault := by
  obtain ⟨lexeme, hmem, hlexeme⟩ := Fault.exists_of_mapM_error hfault
  cases lexeme with
  | number n =>
    obtain ⟨q, hq⟩ := h.readable n hmem
    rw [Lexeme.token, hq] at hlexeme
    cases hlexeme
  | character c => exact ⟨c, hmem, hlexeme⟩

theorem ofText_eq (h : FirstUnreadable s block before) : ∃ after : List Lexeme,
    Token.ofText s = (do
      let front ← before.mapM Lexeme.token
      let q ← Fraction.read block
      let rest ← after.mapM Lexeme.token
      return front ++ .number q :: rest) := by
  obtain ⟨after, hsplit⟩ := h.splits
  refine ⟨after, ?_⟩
  rw [Token.ofText, Token.scan_eq_mapM, hsplit, List.mapM_append, List.mapM_cons, Lexeme.token]
  simp only [bind_assoc, pure_bind]

/-- Behind tokens, the fault of the block is the fault of scanning. -/
theorem ofText_of_allTokens (h : FirstUnreadable s block before) (htokens : AllTokens before)
    {fault : Fault} (hfault : Fraction.read block = .error fault) :
    Token.ofText s = .error fault := by
  obtain ⟨after, hscan⟩ := h.ofText_eq
  rw [hscan, hfault]
  cases hbefore : before.mapM Lexeme.token with
  | ok front => rfl
  | error cause =>
    obtain ⟨c, hmem, hc⟩ := h.exists_character hbefore
    obtain ⟨token, htoken⟩ := htokens c hmem
    cases htoken.symm.trans hc

/-- A character that is no token stops the scanner before it comes to the block. -/
theorem ofText_of_not_allTokens (h : FirstUnreadable s block before)
    (htokens : ¬AllTokens before) : ∃ flaw, Token.ofText s = .error (.malformedExpression flaw) := by
  obtain ⟨after, hscan⟩ := h.ofText_eq
  rw [hscan]
  cases hbefore : before.mapM Lexeme.token with
  | ok front =>
    refine absurd ?_ htokens
    intro c hc
    exact Fault.ok_of_mapM_ok hbefore hc
  | error cause =>
    obtain ⟨c, -, hc⟩ := h.exists_character hbefore
    obtain ⟨flaw, rfl⟩ := Token.fault_of_ofChar hc
    exact ⟨flaw, rfl⟩

end FirstUnreadable

namespace Expr

theorem evaluate_of_ofText_error {s : Text} {fault : Fault} (h : Token.ofText s = .error fault) :
    evaluate s = .error (blameExpression fault) := by
  unfold evaluate
  rw [h]
  rfl

/-- All that evaluation can tell of a text whose first unreadable block has not the shape of a
number. -/
theorem evaluate_of_not_isLiteral {s block : Text} {before : List Lexeme}
    (h : FirstUnreadable s block before) (hblock : ¬IsLiteral block) :
    (AllTokens before ∧ Overruns block ∧ evaluate s = .error .overflow) ∨
    (AllTokens before ∧ ¬Overruns block ∧
      evaluate s = .error (.malformedExpression (.unreadableNumber block))) ∨
    (¬AllTokens before ∧ ∃ flaw, evaluate s = .error (.malformedExpression flaw)) := by
  by_cases htokens : AllTokens before
  · rcases Fraction.read_of_not_isLiteral hblock with ⟨hoverruns, hread⟩ | ⟨hoverruns, hread⟩
    · have hscan := h.ofText_of_allTokens htokens hread
      exact .inl ⟨htokens, hoverruns, evaluate_of_ofText_error hscan⟩
    · have hscan := h.ofText_of_allTokens htokens hread
      exact .inr (.inl ⟨htokens, hoverruns, evaluate_of_ofText_error hscan⟩)
  · obtain ⟨flaw, hscan⟩ := h.ofText_of_not_allTokens htokens
    exact .inr (.inr ⟨htokens, flaw, evaluate_of_ofText_error hscan⟩)

/-- A text without the shape of a number is quoted as malformed exactly where no run of digits in
it is too large for the reader to go on, and overflows otherwise; a division by zero is told of
shaped texts only. Evaluation calls a text malformed whose first unreadable block has no shape,
with the same exception. -/
theorem illShaped_faults (s : Text) :
    (¬IsLiteral s →
      (Fraction.read s = .error (.malformedNumber s) ↔ ¬Overruns s) ∧
      (Fraction.read s = .error .overflow ↔ Overruns s)) ∧
    (Fraction.read s = .error .divisionByZero → IsLiteral s) ∧
    (Fraction.read s = .error .overflow → IsLiteral s ∨ Overruns s) ∧
    (∀ (block : Text) (before : List Lexeme), FirstUnreadable s block before →
      ¬IsLiteral block →
      ((∃ flaw, evaluate s = .error (.malformedExpression flaw)) ↔
        ¬(AllTokens before ∧ Overruns block)) ∧
      (evaluate s = .error .overflow ↔ AllTokens before ∧ Overruns block) ∧
      evaluate s ≠ .error .divisionByZero) := by
  refine ⟨?_, ?_, ?_, ?_⟩
  · intro h
    rcases Fraction.read_of_not_isLiteral h with ⟨hoverruns, hread⟩ | ⟨hoverruns, hread⟩
    · simp [hoverruns, hread]
    · simp [hoverruns, hread]
  · intro h
    by_contra hshape
    rcases Fraction.read_of_not_isLiteral hshape with ⟨-, hread⟩ | ⟨-, hread⟩
    · cases h.symm.trans hread
    · cases h.symm.trans hread
  · intro h
    exact Fraction.isLiteral_or_overruns (by rw [h]; nofun)
  · intro block before h hblock
    rcases evaluate_of_not_isLiteral h hblock with ⟨htokens, hoverruns, heval⟩ |
      ⟨htokens, hoverruns, heval⟩ | ⟨htokens, flaw, heval⟩
    · simp [htokens, hoverruns, heval]
    · simp [htokens, hoverruns, heval]
    · simp [htokens, heval]

/-- A block with two slashes, a zero below the slash, a run of digits that is too large, and a
block with two slashes in an expression. -/
theorem illShaped_faults_two_slashes :
    (¬IsLiteral "1//2".toList ∧
      Fraction.read "1//2".toList = .error (.malformedNumber "1//2".toList)) ∧
    (Fraction.read "1/0".toList = .error .divisionByZero ∧ IsLiteral "1/0".toList) ∧
    (Fraction.read "9223372036854775808".toList = .error .overflow ∧
      (IsLiteral "9223372036854775808".toList ∨ Overruns "9223372036854775808".toList)) ∧
    (FirstUnreadable "(1/2 + 1//2)".toList "1//2".toList
        [.character '(', .number "1/2".toList, .character '+'] ∧
      ∃ flaw, evaluate "(1/2 + 1//2)".toList = .error (.malformedExpression flaw)) := by
  have hmalformed : Fraction.read "1//2".toList = .error (.malformedNumber "1//2".toList) := by
    decide +kernel
  have hshape : ¬IsLiteral "1//2".toList := Fraction.not_isLiteral_of_read hmalformed
  have hfits : ¬Overruns "1//2".toList := ((illShaped_faults _).1 hshape).1.mp hmalformed
  have hdivision : Fraction.read "1/0".toList = .error .divisionByZero := by decide +kernel
  have hoverflow : Fraction.read "9223372036854775808".toList = .error .overflow := by
    decide +kernel
  have hfirst : FirstUnreadable "(1/2 + 1//2)".toList "1//2".toList
      [.character '(', .number "1/2".toList, .character '+'] := by
    refine ⟨⟨[.character ')'], by decide +kernel⟩, ?_, ?_⟩
    · intro n hn
      have hn : n = "1/2".toList := by simpa using hn
      exact ⟨⟨1 / 2, by decide +kernel, by decide +kernel⟩, by rw [hn]; decide +kernel⟩
    · intro q hq
      cases hq.symm.trans hmalformed
  obtain ⟨-, hzero, -⟩ := illShaped_faults "1/0".toList
  obtain ⟨-, -, hlarge, -⟩ := illShaped_faults "9223372036854775808".toList
  obtain ⟨-, -, -, hevaluate⟩ := illShaped_faults "(1/2 + 1//2)".toList
  exact ⟨⟨hshape, hmalformed⟩, ⟨hdivision, hzero hdivision⟩, ⟨hoverflow, hlarge hoverflow⟩,
    hfirst, (hevaluate _ _ hfirst hshape).1.mpr fun h => hfits h.2⟩

/-- A run of digits that is too large hides that the part behind the slash has no form, and that
there is none. -/
theorem illShaped_overflows :
    (¬IsLiteral "9223372036854775808/x".toList ∧
      Fraction.read "9223372036854775808/x".toList = .error .overflow) ∧
    (FirstUnreadable "(9223372036854775808/ + 1)".toList "9223372036854775808/".toList
        [.character '('] ∧
      ¬IsLiteral "9223372036854775808/".toList ∧
      evaluate "(9223372036854775808/ + 1)".toList = .error .overflow) := by
  have hletter : ¬IsLiteral "9223372036854775808/x".toList := by
    rintro ⟨l, hl⟩
    have hdigit := l.isDigit_of_getLast? (c := 'x') (by rw [hl]; decide +kernel)
    cases hdigit
  have hslash : ¬IsLiteral "9223372036854775808/".toList := by
    rintro ⟨l, hl⟩
    have hdigit := l.isDigit_of_getLast? (c := '/') (by rw [hl]; decide +kernel)
    cases hdigit
  have hread : Fraction.read "9223372036854775808/".toList = .error .overflow := by
    decide +kernel
  refine ⟨⟨hletter, by decide +kernel⟩, ⟨⟨[.character '+', .number "1".toList, .character ')'],
    by decide +kernel⟩, ?_, ?_⟩, hslash, by decide +kernel⟩
  · intro n hn
    simp at hn
  · intro q hq
    cases hq.symm.trans hread

end Expr
end FractionDrill
