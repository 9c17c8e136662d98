/-
# Formatted output

`printf` writes its format again and again until its arguments are used up, each
directive taking the next argument; where none is left a directive writes nothing,
or zero.
-/
import ElementBuild.Text.Utf8

namespace ElementBuild
namespace Shell

/-- The byte that a backslash and a letter write. -/
def letterEscape? : Char → Option UInt8
  | 'a' => some 7
  | 'b' => some 8
  | 'f' => some 12
  | 'n' => some 10
  | 'r' => some 13
  | 't' => some 9
  | 'v' => some 11
  | '\\' => some 92
  | _ => none

/-- Whether a character is an octal digit. -/
def isOctal (c : Char) : Bool := '0' ≤ c && c ≤ '7'

/-- The byte that octal digits write. -/
def octalByte (cs : List Char) : UInt8 :=
  (cs.foldl (fun n c => 8 * n + (c.toNat - '0'.toNat)) 0).toUInt8

/-- The bytes of one escape after its backslash, and what follows; `zero` says
whether octal digits follow a zero of their own. -/
def escape (zero : Bool) (cs : List Char) : List UInt8 × List Char :=
  match cs with
  | [] => ([92], [])
  | c :: rest =>
    match letterEscape? c with
    | some b => ([b], rest)
    | none =>
      if zero then
        if c = '0' then
          let digits := (rest.take 3).takeWhile isOctal
          ([octalByte digits], rest.drop digits.length)
        else (92 :: Text.encode (String.ofList [c]), rest)
      else
        let digits := (cs.take 3).takeWhile isOctal
        if digits.isEmpty then (92 :: Text.encode (String.ofList [c]), rest)
        else ([octalByte digits], cs.drop digits.length)

/-- The bytes of a text with its escapes replaced; the length of the text bounds the
steps.  A `\c` ends it, and is reported. -/
def unescape : Nat → List Char → List UInt8 × Bool
  | 0, _ => ([], false)
  | _, [] => ([], false)
  | _ + 1, '\\' :: 'c' :: _ => ([], true)
  | n + 1, '\\' :: cs =>
    let (bytes, rest) := escape true cs
    let (more, stopped) := unescape n rest
    (bytes ++ more, stopped)
  | n + 1, c :: cs =>
    let (more, stopped) := unescape n cs
    (Text.encode (String.ofList [c]) ++ more, stopped)

/-- A directive of a format: its flags, width and precision, and its letter. -/
structure Directive where
  flags : List Char
  width : Nat
  precision : Option Nat
  letter : Char
  deriving DecidableEq, Repr

/-- A part of a format. -/
inductive FormatPiece where
  | bytes (bs : List UInt8)
  | directive (d : Directive)
  deriving DecidableEq, Repr

/-- The number that digits write. -/
def decimal (cs : List Char) : Nat := cs.foldl (fun n c => 10 * n + (c.toNat - '0'.toNat)) 0

/-- A directive after its percent sign. -/
def directive? (cs : List Char) : Option (Directive × List Char) :=
  let (flags, rest) := cs.span fun c => "-+ 0#".toList.contains c
  let (width, rest) := rest.span Char.isDigit
  let (precision, rest) := match rest with
    | '.' :: rest =>
      let (digits, rest) := rest.span Char.isDigit
      (some (decimal digits), rest)
    | rest => (none, rest)
  match rest with
  | letter :: rest => some (⟨flags, decimal width, precision, letter⟩, rest)
  | [] => none

/-- The parts of a format; its length bounds the steps. -/
def formatPieces : Nat → List Char → List FormatPiece
  | 0, _ => []
  | _, [] => []
  | n + 1, c :: cs =>
    if c = '\\' then
      let (bytes, rest) := escape false cs
      .bytes bytes :: formatPieces n rest
    else if c = '%' then
      match cs with
      | '%' :: rest => .bytes [37] :: formatPieces n rest
      | cs =>
        match directive? cs with
        | some (d, rest) => .directive d :: formatPieces n rest
        | none => [.bytes [37]]
    else .bytes (Text.encode (String.ofList [c])) :: formatPieces n cs

/-- The number at the beginning of an argument. -/
def leadingNumber (s : String) : Int :=
  match s.toList with
  | '-' :: cs => -(decimal (cs.takeWhile Char.isDigit) : Int)
  | '+' :: cs => decimal (cs.takeWhile Char.isDigit)
  | cs => decimal (cs.takeWhile Char.isDigit)

/-- Fills a field up to its width. -/
def Directive.pad (d : Directive) (bs : List UInt8) : List UInt8 :=
  let fill := d.width - bs.length
  if d.flags.contains '-' then bs ++ List.replicate fill 32
  else if d.flags.contains '0' && d.letter != 's' then List.replicate fill 48 ++ bs
  else List.replicate fill 32 ++ bs

/-- The bytes that a directive writes for an argument. -/
def Directive.render (d : Directive) (argument : String) : List UInt8 :=
  let n := leadingNumber argument
  d.pad <| match d.letter with
    | 's' =>
      let bytes := Text.encode argument
      match d.precision with
      | some p => bytes.take p
      | none => bytes
    | 'b' => (unescape argument.length argument.toList).1
    | 'c' => (Text.encode argument).take 1
    | 'x' => Text.encode (String.ofList (Nat.toDigits 16 n.toNat))
    | 'X' => Text.encode (String.ofList ((Nat.toDigits 16 n.toNat).map Char.toUpper))
    | 'o' => Text.encode (String.ofList (Nat.toDigits 8 n.toNat))
    | _ => Text.encode (toString n)

/-- Writes a format once, and gives the arguments that are left. -/
def formatOnce : List FormatPiece → List String → List UInt8 × List String
  | [], arguments => ([], arguments)
  | .bytes bs :: ps, arguments =>
    let (more, left) := formatOnce ps arguments
    (bs ++ more, left)
  | .directive d :: ps, arguments =>
    let (more, left) := formatOnce ps (arguments.drop 1)
    (d.render (arguments.headD "") ++ more, left)

/-- Writes a format until the arguments are used up. -/
def formatAll (ps : List FormatPiece) : Nat → List String → List UInt8
  | 0, _ => []
  | n + 1, arguments =>
    let (bytes, left) := formatOnce ps arguments
    if left.isEmpty || left.length == arguments.length then bytes else bytes ++ formatAll ps n left

/-- The output of `printf`. -/
def format (text : String) (arguments : List String) : List UInt8 :=
  formatAll (formatPieces text.length text.toList) (arguments.length + 1) arguments

end Shell
end ElementBuild
