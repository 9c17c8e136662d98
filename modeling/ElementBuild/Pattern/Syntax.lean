/-
# Patterns

Regular expressions over characters, with captures and leftmost-first choice: of
two alternatives the first is tried first, a greedy repetition tries one more
round before it stops, and a lazy one the other way round.

Sets of characters are kept as expressions; membership is decided by evaluating
them.
-/
import ElementBuild.Text.LetterCase

namespace ElementBuild
namespace Pattern

/-- A set of characters. -/
inductive ClassExpr where
  | range (first last : Nat)
  | table (set : Text.CharSet)
  /-- All letters that are some member in another case too. -/
  | anyCase (c : ClassExpr)
  | complement (c : ClassExpr)
  | union (a b : ClassExpr)
  | intersection (a b : ClassExpr)
  | difference (a b : ClassExpr)
  | symmetricDifference (a b : ClassExpr)
  deriving Repr

namespace ClassExpr

/-- The set without members. -/
def none : ClassExpr := range 1 0

/-- The set of all characters. -/
def all : ClassExpr := range 0 0x10ffff

/-- One character. -/
def single (c : Char) : ClassExpr := range c.toNat c.toNat

/-- Membership. -/
def contains : ClassExpr → Char → Bool
  | range first last, c => first ≤ c.toNat && c.toNat ≤ last
  | table set, c => set.contains c
  | anyCase e, c => e.contains c || (Text.caseVariants c).any e.contains
  | complement e, c => !e.contains c
  | union a b, c => a.contains c || b.contains c
  | intersection a b, c => a.contains c && b.contains c
  | difference a b, c => a.contains c && !b.contains c
  | symmetricDifference a b, c => a.contains c != b.contains c

end ClassExpr

/-- Conditions on a place between two characters. -/
inductive Look where
  | textStart
  | textEnd
  | lineStart
  | lineEnd
  | wireLineStart
  | wireLineEnd
  | wordBoundary (ascii : Bool)
  | noWordBoundary (ascii : Bool)
  | wordStart (ascii : Bool)
  | wordEnd (ascii : Bool)
  | wordStartHalf (ascii : Bool)
  | wordEndHalf (ascii : Bool)
  deriving DecidableEq, Repr

/-- Whether a character counts for word boundaries. -/
def isWord (ascii : Bool) (c : Char) : Bool :=
  if ascii then c.toNat < 128 && Text.isWordChar c else Text.isWordChar c

/-- Whether a condition holds between two characters of a text. -/
def Look.holds (before after : Option Char) : Look → Bool
  | textStart => before.isNone
  | textEnd => after.isNone
  | lineStart => before.isNone || before == some '\n'
  | lineEnd => after.isNone || after == some '\n'
  | wireLineStart =>
    before.isNone || before == some '\n' || (before == some '\r' && after != some '\n')
  | wireLineEnd =>
    after.isNone || after == some '\r' || (after == some '\n' && before != some '\r')
  | wordBoundary a => before.any (isWord a) != after.any (isWord a)
  | noWordBoundary a => before.any (isWord a) == after.any (isWord a)
  | wordStart a => !before.any (isWord a) && after.any (isWord a)
  | wordEnd a => before.any (isWord a) && !after.any (isWord a)
  | wordStartHalf a => !before.any (isWord a)
  | wordEndHalf a => !after.any (isWord a)

/-- A pattern. -/
inductive Node where
  | empty
  | set (c : ClassExpr)
  | look (l : Look)
  | capture (index : Nat) (n : Node)
  | sequence (a b : Node)
  | choice (a b : Node)
  /-- At least `least` rounds and at most `most`, if that is given. -/
  | repetition (n : Node) (least : Nat) (most : Option Nat) (greedy : Bool)
  deriving Repr

/-- The name of a capture.  It does not open with a digit, so it writes no number. -/
structure CaptureName where
  text : List Char
  opens : text.head?.any Text.isDigit = false
  deriving Repr

end Pattern
end ElementBuild
