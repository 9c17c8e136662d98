/-
# Blocks of single-file components

A component in a single file holds its scripts and styles between tags.  A block is
what stands between an opening tag, with or without attributes, and the next
closing tag; in what a block spans no other block of the same tag begins.
-/
import ElementBuild.Script.Syntax
import ElementBuild.Text.Letters
import ElementBuild.Text.Offset
import ElementBuild.Text.Order

namespace ElementBuild
namespace Plugin

open Script (Span)

/-- What a block holds. -/
inductive BlockKind where
  | script
  | style
  deriving DecidableEq, Repr

/-- The name of the tags around a block. -/
def BlockKind.tag : BlockKind → String
  | script => "script"
  | style => "style"

/-- A block, as the bytes between its tags. -/
structure Block where
  kind : BlockKind
  span : Span
  deriving DecidableEq, Repr

namespace Block

/-- The rest of an opening tag after its name: attributes after a blank, or
nothing, and the bracket that ends it. -/
def tagEnd? (cs : List Char) : Option (List Char) :=
  match cs with
  | '>' :: rest => some rest
  | c :: rest =>
    if Text.isBlank c then
      match rest.dropWhile (· ≠ '>') with
      | _ :: rest => some rest
      | [] => none
    else none
  | [] => none

/-- The text after the opening tag that a text begins with. -/
def opened? (tag : String) (cs : List Char) : Option (List Char) :=
  (('<' :: tag.toList).isPrefixOf? cs).bind tagEnd?

/-- The text before the first closing tag, and what follows that tag. -/
def untilClosed? (tag : String) : List Char → Option (List Char × List Char)
  | [] => none
  | c :: cs =>
    match ('<' :: '/' :: tag.toList ++ ['>']).isPrefixOf? (c :: cs) with
    | some rest => some ([], rest)
    | none => (untilClosed? tag cs).map fun (content, rest) => (c :: content, rest)

/-- The spans of the blocks of a tag, from an offset on; the length of the text
bounds the steps. -/
def spansFrom (tag : String) : Nat → Nat → List Char → List Span
  | 0, _, _ => []
  | _, _, [] => []
  | n + 1, offset, c :: cs =>
    match (opened? tag (c :: cs)).bind fun text => (untilClosed? tag text).map (text, ·) with
    | some (text, content, rest) =>
      let whole := Text.byteLength (c :: cs)
      let start := offset + (whole - Text.byteLength text)
      ⟨start, start + Text.byteLength content⟩ ::
        spansFrom tag n (offset + (whole - Text.byteLength rest)) rest
    | none => spansFrom tag n (offset + c.utf8Size) cs

/-- The blocks of one kind. -/
def ofKind (code : List Char) (kind : BlockKind) : List Block :=
  (spansFrom kind.tag code.length 0 code).map fun span => ⟨kind, span⟩

/-- The blocks of a component, in the order in which they begin. -/
def all (code : List Char) : List Block :=
  sortBy (·.span.start) (ofKind code .script ++ ofKind code .style)

end Block
end Plugin
end ElementBuild
