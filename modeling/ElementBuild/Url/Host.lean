/-
# Hosts of URLs

Which texts are hosts under the URL standard: an IPv6 address in brackets, an
IPv4 address if the last label is a number, and otherwise a domain whose
characters are all allowed.
-/
import ElementBuild.Text.Category
import ElementBuild.Text.LetterCase
import ElementBuild.Url.Punycode

namespace ElementBuild
namespace Url

/-- The parts of a text between a separator, empty parts included. -/
def splitOn (separator : Char) : List Char → List (List Char)
  | [] => [[]]
  | c :: cs =>
    if c = separator then [] :: splitOn separator cs
    else
      match splitOn separator cs with
      | [] => [[c]]
      | p :: ps => (c :: p) :: ps

/-- The value of digits below a radix; nothing if a character is none. -/
def digits? (radix : Nat) (cs : List Char) : Option Nat :=
  cs.foldlM (fun n c =>
    match Text.hexValue? c with
    | some d => if d < radix then some (radix * n + d) else none
    | none => none) 0

/-- A part of an IPv4 address: decimal, octal after a zero, hexadecimal after
`0x`. -/
def ipv4Number? : List Char → Option Nat
  | [] => none
  | ['0'] => some 0
  | '0' :: m :: cs =>
    if m = 'x' ∨ m = 'X' then digits? 16 cs else digits? 8 (m :: cs)
  | cs => digits? 10 cs

/-- The labels of a domain without the empty one that a final dot leaves. -/
def labels (domain : List Char) : List (List Char) :=
  let parts := splitOn '.' domain
  if 1 < parts.length ∧ parts.getLast? = some [] then parts.dropLast else parts

/-- Whether the last label makes a domain an IPv4 address. -/
def endsInNumber (domain : List Char) : Bool :=
  match (labels domain).getLast? with
  | some last =>
    (!last.isEmpty && last.all Char.isDigit) ||
      (match last with
        | '0' :: m :: cs => (m == 'x' || m == 'X') && (digits? 16 cs).isSome
        | _ => false)
  | none => false

/-- Whether a domain is a valid IPv4 address. -/
def isIpv4 (domain : List Char) : Bool :=
  let parts := labels domain
  if 4 < parts.length then false
  else
    match parts.mapM ipv4Number? with
    | none => false
    | some numbers =>
      numbers.dropLast.all (· ≤ 255) &&
        numbers.getLast?.any (· < Nat.pow 256 (5 - numbers.length))

/-- Whether a text is four decimal numbers below 256 between dots. -/
def isDottedQuad (cs : List Char) : Bool :=
  let parts := splitOn '.' cs
  parts.length == 4 && parts.all fun p =>
    !p.isEmpty && p.length ≤ 3 && p.all Char.isDigit && (p.length == 1 || p.head? != some '0') &&
      (digits? 10 p).any (· ≤ 255)

/-- The number of 16-bit pieces that groups between colons stand for; the last
may be an IPv4 address. -/
def pieceCount? (groups : List (List Char)) (mayEndInQuad : Bool) : Option Nat :=
  match groups with
  | [] => some 0
  | [g] =>
    if !g.isEmpty && g.length ≤ 4 && (digits? 16 g).isSome then some 1
    else if mayEndInQuad && isDottedQuad g then some 2
    else none
  | g :: gs =>
    if !g.isEmpty && g.length ≤ 4 && (digits? 16 g).isSome then
      (pieceCount? gs mayEndInQuad).map (· + 1)
    else none

/-- The text before the first double colon and the text after it. -/
def splitDoubleColon : List Char → Option (List Char × List Char)
  | ':' :: ':' :: cs => some ([], cs)
  | c :: cs => (splitDoubleColon cs).map fun (a, b) => (c :: a, b)
  | [] => none

/-- Groups between colons; an empty text has none. -/
def groupsOf (cs : List Char) : List (List Char) := if cs.isEmpty then [] else splitOn ':' cs

/-- Whether a text is an IPv6 address: eight pieces, or fewer around one double
colon. -/
def isIpv6 (cs : List Char) : Bool :=
  match splitDoubleColon cs with
  | none => pieceCount? (groupsOf cs) true == some 8
  | some (before, after) =>
    match pieceCount? (groupsOf before) false, pieceCount? (groupsOf after) true with
    | some a, some b => a + b ≤ 7
    | _, _ => false

/-- The bytes of a text with its percent escapes decoded. -/
def percentDecoded (cs : List Char) : List UInt8 :=
  go (cs.flatMap fun c => (String.singleton c).toUTF8.toList)
where
  go : List UInt8 → List UInt8
    | 37 :: a :: b :: rest =>
      match Text.hexValue? (Char.ofNat a.toNat), Text.hexValue? (Char.ofNat b.toNat) with
      | some x, some y => UInt8.ofNat (16 * x + y) :: go rest
      | _, _ => 37 :: go (a :: b :: rest)
    | b :: rest => b :: go rest
    | [] => []

/-- A character of a domain as the mapping of international names leaves it:
some are left out, wide forms become plain ones, letters become small. -/
def mappedChar (c : Char) : List Char :=
  let n := c.toNat
  if n = 0xad ∨ n = 0x200b ∨ n = 0x2060 ∨ n = 0xfeff ∨ (0xfe00 ≤ n ∧ n ≤ 0xfe0f) then []
  else if n = 0x3002 ∨ n = 0xff0e ∨ n = 0xff61 then ['.']
  else if 0xff01 ≤ n ∧ n ≤ 0xff5e then Text.lowerChar (Char.ofNat (n - 0xfee0))
  else Text.lowerChar c

/-- ASCII characters that no domain may have. -/
def isForbidden (c : Char) : Bool :=
  c.toNat ≤ 32 || c.toNat == 127 || "#%/:<>?@[\\]^|".toList.contains c

/-- Whether a character belongs to one of some categories. -/
def isIn (categories : List String) (c : Char) : Bool :=
  categories.any fun name => (Text.categoriesNamed name).any (·.contains c)

/-- Whether a character beyond ASCII may not stand in a domain: a blank, a control,
or one that has no meaning to everyone. -/
def isBarred (c : Char) : Bool := 127 < c.toNat && isIn ["z", "cc", "co", "cn"] c

/-- Whether a label may stand in a domain.  It does not open with a mark, and if it
is encoded it encodes a name that needs it and is in the form of a domain. -/
def isLabel (label : List Char) : Bool :=
  let isName (cs : List Char) : Bool :=
    !cs.any isBarred && !cs.head?.any fun c => 127 < c.toNat && isIn ["m"] c
  match label with
  | 'x' :: 'n' :: '-' :: '-' :: rest =>
    (Punycode.decode? rest).any fun name =>
      isName name && name.any (127 < ·.toNat) && name.flatMap mappedChar == name
  | cs => isName cs

/-- Whether a text is the host of a web address. -/
def isHost (cs : List Char) : Bool :=
  match cs with
  | '[' :: rest => rest.getLast? == some ']' && isIpv6 rest.dropLast
  | _ =>
    match String.fromUTF8? (ByteArray.mk (percentDecoded cs).toArray) with
    | none => false
    | some decoded =>
      let domain := decoded.toList.flatMap mappedChar
      !domain.isEmpty && !domain.any isForbidden && (labels domain).all isLabel &&
        (!endsInNumber domain || isIpv4 domain)

end Url
end ElementBuild
