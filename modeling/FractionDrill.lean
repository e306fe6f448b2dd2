import FractionDrill.Main
import FractionDrill.Proofs.Fraction.Exact
import FractionDrill.Proofs.Fraction.Literal
import FractionDrill.Proofs.Fraction.Reading
import FractionDrill.Proofs.Expr.Grammar
import FractionDrill.Proofs.Expr.Postfix
import FractionDrill.Proofs.Expr.Scanning
import FractionDrill.Proofs.Expr.Acceptance
import FractionDrill.Proofs.Expr.Rendering
import FractionDrill.Proofs.Expr.RoundTrip
import FractionDrill.Proofs.Exercise.Domain
import FractionDrill.Proofs.Exercise.Grading
import FractionDrill.Proofs.Exercise.Problem
import FractionDrill.Proofs.Sheet.RoundTrip
import FractionDrill.Proofs.Exercise.Batch
import FractionDrill.Proofs.Exercise.Agreement
import FractionDrill.Proofs.Fraction.Parts
import FractionDrill.Proofs.Fraction.Checked
import FractionDrill.Proofs.Exercise.Canonical
import FractionDrill.Proofs.Exercise.Growth
import FractionDrill.Proofs.Exercise.Overflow
import FractionDrill.Proofs.Run.Steps
import FractionDrill.Proofs.Run.Generation
import FractionDrill.Proofs.Storage.Disk
import FractionDrill.Proofs.Storage.Beside
import FractionDrill.Proofs.Run.Failure
import FractionDrill.Proofs.Expr.ExactValue
import FractionDrill.Proofs.Fraction.RoundTrip
import FractionDrill.Proofs.Exercise.Marking
import FractionDrill.Proofs.Random.Successive
import FractionDrill.Proofs.Exercise.Course
import FractionDrill.Proofs.Fraction.Acceptance
import FractionDrill.Proofs.Expr.Listing
import FractionDrill.Proofs.Random.Tape
import FractionDrill.Proofs.Exercise.Reach
import FractionDrill.Proofs.Expr.Rereading
import FractionDrill.Proofs.Exercise.Key
import FractionDrill.Proofs.Sheet.Entry
import FractionDrill.Proofs.Sheet.Layout
import FractionDrill.Proofs.Exercise.Order
import FractionDrill.Proofs.Fraction.Malformed
import FractionDrill.Proofs.Expr.Unreadable
import FractionDrill.Proofs.Fraction.Opposite
