import FractionDrill.Text.Utf8

/-!
# Paths

A path is kept as it was typed, because messages show it so. Its pieces are the
texts between slashes. An empty piece and a single dot stay where they are; two
dots go up; every other piece is a name. A machine bounds the bytes of a path and
of each name in it.
-/
namespace FractionDrill

abbrev Path := Text

namespace Path

def pieces (p : Path) : List Text := p.splitOn '/'

def ofPieces (pieces : List Text) : Path := ['/'].intercalate pieces

/-- Whether the piece stays where it is. -/
def isIdle (piece : Text) : Bool := piece.isEmpty || piece == ['.']

/-- Whether the path has the character that ends a path on a machine. -/
def hasNul (p : Path) : Bool := p.contains '\x00'

/-- Whether the path has more bytes than a machine takes. -/
def isOverlong (p : Path) : Bool := decide (4095 < p.byteSize)

/-- Whether the name has more bytes than a directory can hold. -/
def isOverlongName (name : Text) : Bool := decide (255 < name.byteSize)

/-- The path of a name in a directory. A name that starts with a slash is a path by itself. -/
def child (directory name : Path) : Path :=
  if name.head? = some '/' || directory.isEmpty then name
  else if directory.getLast? = some '/' then directory ++ name
  else directory ++ '/' :: name

/-- The pieces without the idle ones at the end. -/
def dropIdle (pieces : List Text) : List Text := (pieces.reverse.dropWhile isIdle).reverse

/-- The pieces without the last one that is not idle, and without the idle ones on
either side of it. Only a path whose last piece is a name can be made, so the parent
of a path never ends in an idle piece. -/
def parent (pieces : List Text) : List Text := dropIdle (dropIdle pieces).dropLast

theorem length_dropIdle_le (pieces : List Text) : (dropIdle pieces).length ≤ pieces.length := by
  have hdrop := (List.dropWhile_sublist (l := pieces.reverse) isIdle).length_le
  simpa only [dropIdle, List.length_reverse] using hdrop

theorem length_parent_lt {pieces : List Text} (h : pieces ≠ []) :
    (parent pieces).length < pieces.length := by
  have houter := length_dropIdle_le (dropIdle pieces).dropLast
  have hinner := length_dropIdle_le pieces
  have hpos := List.length_pos_iff.mpr h
  rw [List.length_dropLast] at houter
  unfold parent
  omega

end Path
end FractionDrill
