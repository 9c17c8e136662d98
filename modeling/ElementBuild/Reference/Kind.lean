/-
# Kinds of references

What a module refers to plays one of four roles in the build of a component:

| kind | targets |
| --- | --- |
| `component` | the entry file of another component: `folder/stem.type` for a registered type |
| `asset` | a file below the component's `assets` folder: `./assets/…` |
| `plainCode` | relative script code: an opening dot, and after some slash a last part without dots, or one that ends in `.js` |
| `external` | anything else |

The first kind in this order that fits is the kind of the target.
-/

namespace ElementBuild

/-- The role of what a module refers to. -/
inductive ReferenceKind where
  | component
  | asset
  | plainCode
  | external
  deriving DecidableEq, Repr

namespace ReferenceKind

/-- How a kind is called. -/
def name : ReferenceKind → String
  | component => "component"
  | asset => "asset"
  | plainCode => "plainCode"
  | external => "external"

end ReferenceKind

namespace Target

/-- What stands before a suffix. -/
def dropSuffix? (suffix cs : List Char) : Option (List Char) :=
  (suffix.reverse.isPrefixOf? cs.reverse).map List.reverse

/-- Whether a text lies on one line. -/
def isLine (cs : List Char) : Bool := !cs.contains '\n'

/-- A text taken apart at the first slash that leaves a folder before it and a
stem after it; `folder` is what was passed already, last first. -/
def partsBelow? : List Char → List Char → Option (List Char × List Char)
  | _, [] => none
  | folder, c :: cs =>
    if c = '\n' then none
    else if c = '/' ∧ folder ≠ [] ∧ cs ≠ [] ∧ isLine cs then some (folder.reverse, cs)
    else partsBelow? (c :: folder) cs

/-- The parts of a text after one of its slashes, the last one that has any. -/
def partsAfterSlash? : List Char → Option (List Char × List Char)
  | [] => none
  | c :: cs =>
    if c = '\n' then none
    else partsAfterSlash? cs <|> (if c = '/' then partsBelow? [] cs else none)

/-- The folder and the stem of a component's target.  They are looked for in what
follows the last slash, the last but one and so on, and in the whole target
last. -/
def componentParts? (type target : String) : Option (String × String) :=
  (dropSuffix? ('.' :: type.toList) target.toList).bind fun path =>
    (partsAfterSlash? path <|> partsBelow? [] path).map
      fun (folder, stem) => (String.ofList folder, String.ofList stem)

/-- Whether a target is the entry file of a component of the given type. -/
def isComponent (type target : String) : Bool := (componentParts? type target).isSome

/-- Whether a target lies below the assets folder. -/
def isAsset (target : String) : Bool :=
  match "./assets/".toList.isPrefixOf? target.toList with
  | some (c :: _) => c != '\n'
  | _ => false

/-- Whether a text has, after a slash on its first line, a last part without
dots. -/
def endsPlain : List Char → Bool
  | [] => false
  | c :: cs => (c == '/' && !cs.isEmpty && !cs.contains '.') || (c != '\n' && endsPlain cs)

/-- Whether a target is relative script code. -/
def isPlainCode (target : String) : Bool :=
  match target.toList with
  | '.' :: cs => endsPlain cs || (dropSuffix? ".js".toList cs).any endsPlain
  | _ => false

/-- The kind of a target, given the registered component types. -/
def kind (types : List String) (target : String) : ReferenceKind :=
  if types.any fun type => isComponent type target then .component
  else if isAsset target then .asset
  else if isPlainCode target then .plainCode
  else .external

end Target
end ElementBuild
