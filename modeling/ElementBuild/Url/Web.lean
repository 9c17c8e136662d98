/-
# Web addresses

Whether a text is an absolute URL with the scheme `http` or `https` under the URL
standard.  Surrounding blanks and inner line ends do not count, the scheme may be
in capitals, and any number of slashes, also none, may follow it; but there has
to be a host.
-/
import ElementBuild.Url.Host

namespace ElementBuild
namespace Url

/-- The text that counts: without control characters and blanks around it, and
without tabs and line ends. -/
def relevant (cs : List Char) : List Char :=
  let trimmed := ((cs.dropWhile (·.toNat ≤ 32)).reverse.dropWhile (·.toNat ≤ 32)).reverse
  trimmed.filter fun c => c != '\t' && c != '\n' && c != '\r'

/-- The scheme of a URL in lower case, and what follows its colon. -/
def scheme? (cs : List Char) : Option (List Char × List Char) :=
  let (name, rest) := cs.span fun c =>
    Text.isAsciiAlphanumeric c || c == '+' || c == '-' || c == '.'
  match name, rest with
  | c :: _, ':' :: rest => if c.isAlpha then some (name.map Char.toLower, rest) else none
  | _, _ => none

/-- Whether a character ends the part of a URL that names the host. -/
def endsAuthority (c : Char) : Bool := c == '/' || c == '\\' || c == '?' || c == '#'

/-- What follows the last `@` of a text, if it has one, and what stands before
it. -/
def afterLastAt (cs : List Char) : Option (List Char × List Char) :=
  match cs.reverse.span (· ≠ '@') with
  | (_, []) => none
  | (after, _ :: before) => some (before.reverse, after.reverse)

/-- The host of an authority, up to a colon outside brackets, and the rest. -/
def hostOf : Bool → List Char → List Char × List Char
  | _, [] => ([], [])
  | inBrackets, c :: cs =>
    if c = ':' ∧ !inBrackets then ([], c :: cs)
    else
      let (h, rest) := hostOf (if c = '[' then true else if c = ']' then false else inBrackets) cs
      (c :: h, rest)

/-- Whether a text after the host is empty or a port. -/
def isPort : List Char → Bool
  | [] => true
  | ':' :: ds => ds.all Char.isDigit && (digits? 10 ds).any (· ≤ 65535)
  | _ => false

/-- Whether an authority has a host and a valid port. -/
def isAuthority (cs : List Char) : Bool :=
  let hostAndPort := match afterLastAt cs with
    | some (_, after) => after
    | none => cs
  let (host, rest) := hostOf false hostAndPort
  !host.isEmpty && isHost host && isPort rest

/-- Whether a target is the address of something on the web. -/
def isWebAddress (target : String) : Bool :=
  match scheme? (relevant target.toList) with
  | some (scheme, rest) =>
    (scheme == "http".toList || scheme == "https".toList) &&
      isAuthority ((rest.dropWhile fun c => c == '/' || c == '\\').takeWhile
        fun c => !endsAuthority c)
  | none => false

end Url
end ElementBuild
