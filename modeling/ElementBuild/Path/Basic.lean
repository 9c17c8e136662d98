/-
# Paths

A path is a text whose pieces are separated by slashes.  Its *segments* are
what the pieces mean: a leading slash is the root, `..` the parent folder, and
empty pieces and `.` mean nothing, except for a `.` that opens a relative path.

| operation | on the text | on the segments |
| --- | --- | --- |
| `join` | puts a slash between, an absolute path replaces | appends |
| `parent?` | drops the last segment and what separates it | drops the last |
| `fileName?` | | the last one, if it is a name |

Two paths with the same segments denote the same place; the text is kept, for
it is what messages show.
-/

namespace ElementBuild

/-- What one piece of a path means. -/
inductive Segment where
  | root
  | current
  | parent
  | name (text : String)
  deriving DecidableEq, Repr, Inhabited

namespace Segment

/-- The text of a segment. -/
def text : Segment → String
  | .root => "/"
  | .current => "."
  | .parent => ".."
  | .name s => s

/-- The meaning of a piece that does not open the path; an empty piece and `.`
have none. -/
def ofPiece? : List Char → Option Segment
  | [] => none
  | ['.'] => none
  | ['.', '.'] => some .parent
  | cs => some (.name (String.ofList cs))

/-- The name a segment holds. -/
def name? : Segment → Option String
  | .name s => some s
  | _ => none

end Segment

/-- A place in a file tree, as text. -/
structure Path where
  text : String
  deriving DecidableEq, Repr, Inhabited

namespace Path

/-- The pieces between the slashes of a text. -/
def pieces : List Char → List (List Char)
  | [] => [[]]
  | c :: cs =>
    if c = '/' then [] :: pieces cs
    else
      match pieces cs with
      | [] => [[c]]
      | p :: ps => (c :: p) :: ps

/-- The text with the given pieces. -/
def joinPieces : List (List Char) → List Char
  | [] => []
  | [p] => p
  | p :: ps => p ++ '/' :: joinPieces ps

/-- The segments of a path's text. -/
def segmentsOf : List Char → List Segment
  | '/' :: cs => .root :: (pieces cs).filterMap Segment.ofPiece?
  | cs =>
    match pieces cs with
    | ['.'] :: ps => .current :: ps.filterMap Segment.ofPiece?
    | ps => ps.filterMap Segment.ofPiece?

/-- The segments of a path. -/
def segments (p : Path) : List Segment := segmentsOf p.text.toList

/-- The text of a list of segments. -/
def textOf : List Segment → String
  | .root :: cs => "/" ++ "/".intercalate (cs.map Segment.text)
  | cs => "/".intercalate (cs.map Segment.text)

/-- The path with the given segments. -/
def ofSegments (cs : List Segment) : Path := ⟨textOf cs⟩

/-- Whether a path starts at the root. -/
def isAbsolute (p : Path) : Bool := p.text.toList.head? == some '/'

/-- Two paths with equal segments. -/
def same (p q : Path) : Bool := p.segments == q.segments

/-- A path seen from another; an absolute path stays what it is. -/
def join (p q : Path) : Path :=
  if q.isAbsolute then q
  else if p.text.isEmpty || p.text.toList.getLast? == some '/' then ⟨p.text ++ q.text⟩
  else ⟨p.text ++ "/" ++ q.text⟩

/-- Whether a piece, at the end of others, means nothing there. -/
def idle (before : List (List Char)) (piece : List Char) : Bool :=
  !before.isEmpty && (piece == [] || piece == ['.'])

/-- Reversed pieces without the idle ones at the end. -/
def dropIdle : List (List Char) → List (List Char)
  | [] => []
  | p :: before => if idle before p then dropIdle before else p :: before

/-- The path without its last segment; the root and the empty path have
none. -/
def parent? (p : Path) : Option Path :=
  match dropIdle (pieces p.text.toList).reverse with
  | [] => none
  | [[]] => none
  | _ :: before =>
    match dropIdle before with
    | [[]] => some ⟨"/"⟩
    | before => some ⟨String.ofList (joinPieces before.reverse)⟩

/-- The last segment, if it is a name. -/
def fileName? (p : Path) : Option String := p.segments.getLast?.bind Segment.name?

/-- The text before the last dot of a name and the text after it; a name whose
only dot opens it has none. -/
def splitExtension? (name : List Char) : Option (List Char × List Char) :=
  match name.reverse.span (· ≠ '.') with
  | (_, []) => none
  | (_, [_]) => none
  | (after, _ :: before) => some (before.reverse, after.reverse)

/-- What follows the last dot of the file name, unless that dot opens it. -/
def extension? (p : Path) : Option String :=
  p.fileName?.bind fun name => (splitExtension? name.toList).map (String.ofList ·.2)

/-- The path with another file name in place of its own. -/
def withFileName (p : Path) (name : String) : Path :=
  if p.fileName?.isSome then (p.parent?.getD p).join ⟨name⟩ else p.join ⟨name⟩

/-- The segments that are left of a path below a base. -/
def below? (p base : Path) : Option Path :=
  if base.segments.isPrefixOf p.segments then
    some (ofSegments (p.segments.drop base.segments.length))
  else none

/-- A path and the folders above it, innermost first. -/
def ancestors (p : Path) : List Path := go p.text.length p
where
  go : Nat → Path → List Path
    | 0, p => [p]
    | n + 1, p => p :: (match p.parent? with
      | some q => go n q
      | none => [])

end Path
end ElementBuild
