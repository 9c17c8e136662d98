/-
# Reading tokens

`lexeme` reads the next token of a text together with the gap before it: white
space and comments.  A gap that holds a line break matters to the grammar.  Two
kinds of token are read only on demand, because the grammar decides where they
start: `regexLexeme` at a slash, `templateChunk` after a backquote or after the
brace that closes a substitution.

Faults that leave a token readable (a string without its closing quote, say) are
listed with the lexeme; others make the token a broken one.

All functions recurse on the characters.  Where several characters are read at
once, as in an escape, a count of characters still to be skipped goes along.
-/
import ElementBuild.Script.Token
import ElementBuild.Text.Letters
import ElementBuild.Text.CharSet
import ElementBuild.Text.Offset

namespace ElementBuild
namespace Script

/-- A token, where it stands, and the text after it. -/
structure Lexeme where
  token : Token
  start : Nat
  stop : Nat
  /-- A line break lies in the gap before the token. -/
  afterBreak : Bool
  /-- Faults of the gap and the token that do not stop the reader. -/
  faults : List Located
  rest : List Char
  deriving Repr

/-- The characters that end a line. -/
def isLineTerminator (c : Char) : Bool :=
  c == '\n' || c == '\r' || c == '\u2028' || c == '\u2029'

/-- White space between tokens other than line ends. -/
def isGapBlank (c : Char) : Bool := c == '\ufeff' || Text.isBlank c

/-! ### Gaps -/

/-- Where in a gap the reader is. -/
inductive GapMode where
  | between
  | lineComment
  | blockComment
  deriving DecidableEq

/-- A gap that has been read. -/
structure Gap where
  rest : List Char
  stop : Nat
  broken : Bool
  faults : List Located

/-- The gap at the beginning of a text; `skip` characters of it belong to the
mark that was recognised last. -/
def gap : GapMode → Nat → List Char → Nat → Bool → List Located → Gap
  | .blockComment, _, [], pos, nl, fs => ⟨[], pos, nl, ⟨.unterminatedComment, pos⟩ :: fs⟩
  | _, _, [], pos, nl, fs => ⟨[], pos, nl, fs⟩
  | mode, skip + 1, c :: cs, pos, nl, fs => gap mode skip cs (pos + c.utf8Size) nl fs
  | .lineComment, 0, c :: cs, pos, nl, fs =>
    if isLineTerminator c then gap .between 0 cs (pos + c.utf8Size) true fs
    else gap .lineComment 0 cs (pos + c.utf8Size) nl fs
  | .blockComment, 0, c :: cs, pos, nl, fs =>
    if c = '*' ∧ cs.head? = some '/' then gap .between 1 cs (pos + 1) nl fs
    else gap .blockComment 0 cs (pos + c.utf8Size) (nl || isLineTerminator c) fs
  | .between, 0, c :: cs, pos, nl, fs =>
    if isLineTerminator c then gap .between 0 cs (pos + c.utf8Size) true fs
    else if isGapBlank c then gap .between 0 cs (pos + c.utf8Size) nl fs
    else if c = '/' ∧ cs.head? = some '/' then gap .lineComment 1 cs (pos + 1) nl fs
    else if c = '/' ∧ cs.head? = some '*' then gap .blockComment 1 cs (pos + 1) nl fs
    else if c = '<' ∧ ['!', '-', '-'].isPrefixOf cs then
      gap .lineComment 3 cs (pos + 1) nl (⟨.legacyComment, pos⟩ :: fs)
    else if c = '-' ∧ nl ∧ ['-', '>'].isPrefixOf cs then
      gap .lineComment 2 cs (pos + 1) nl (⟨.legacyComment, pos⟩ :: fs)
    else ⟨c :: cs, pos, nl, fs⟩

/-! ### Escapes -/

/-- What the characters after a backslash stand for. -/
structure Escape where
  value : List Char
  /-- The number of characters after the backslash. -/
  length : Nat
  fault : Option Fault

/-- The character with a code, or the replacement character. -/
def charOfCode (n : Nat) : Char :=
  if n.isValidChar then Char.ofNat n else '\ufffd'

/-- The digits of `\u` in braces or four at once: their value and the number of
characters, the `u` not counted. -/
def unicodeDigits? (cs : List Char) : Option (Nat × Nat) :=
  match cs with
  | '{' :: cs =>
    let digits := cs.takeWhile fun c => (Text.hexValue? c).isSome
    let value := Text.hexNumber digits
    if !digits.isEmpty && value ≤ 0x10ffff && (cs.drop digits.length).head? == some '}' then
      some (value, digits.length + 2)
    else none
  | cs =>
    let digits := cs.take 4
    if digits.length == 4 && digits.all fun c => (Text.hexValue? c).isSome then
      some (Text.hexNumber digits, 4)
    else none

/-- The value of octal digits. -/
def octalNumber (cs : List Char) : Nat := cs.foldl (fun n c => 8 * n + (c.toNat - '0'.toNat)) 0

/-- The escape after a backslash in a string or a template. -/
def escapeOf (inTemplate : Bool) : List Char → Escape
  | [] => ⟨[], 0, some .invalidStringEscape⟩
  | 'n' :: _ => ⟨['\n'], 1, none⟩
  | 'r' :: _ => ⟨['\r'], 1, none⟩
  | 't' :: _ => ⟨['\t'], 1, none⟩
  | 'b' :: _ => ⟨['\x08'], 1, none⟩
  | 'v' :: _ => ⟨['\x0b'], 1, none⟩
  | 'f' :: _ => ⟨['\x0c'], 1, none⟩
  | '\r' :: '\n' :: _ => ⟨[], 2, none⟩
  | 'x' :: cs =>
    let digits := cs.take 2
    if digits.length == 2 && digits.all fun c => (Text.hexValue? c).isSome then
      ⟨[charOfCode (Text.hexNumber digits)], 3, none⟩
    else ⟨[], 1, some (.badEscape "2 hex characters")⟩
  | 'u' :: cs =>
    match unicodeDigits? cs with
    | some (value, n) => ⟨[charOfCode value], n + 1, none⟩
    | none => ⟨[], 1, some (.badEscape "4 hex characters")⟩
  | c :: cs =>
    if isLineTerminator c then ⟨[], 1, none⟩
    else if c = '0' ∧ !(cs.head?.any fun d => '0' ≤ d && d ≤ '7') then ⟨['\x00'], 1, none⟩
    else if '0' ≤ c ∧ c ≤ '7' then
      let more := (cs.take 2).takeWhile fun d => '0' ≤ d && d ≤ '7'
      let digits := if octalNumber (c :: more) ≤ 255 then c :: more else (c :: more).take 2
      if inTemplate then ⟨[], digits.length, some (.badEscape "octal escape in template")⟩
      else ⟨[charOfCode (octalNumber digits)], digits.length, some .legacyOctalEscape⟩
    else ⟨[c], 1, none⟩

/-! ### Words -/

/-- What is left after a word, with the word's characters, last first. -/
structure WordEnd where
  text : List Char
  stop : Nat
  rest : List Char
  fault : Option Located

/-- The characters that continue a word. -/
def wordTail : Nat → List Char → Nat → List Char → WordEnd
  | _, [], pos, acc => ⟨acc, pos, [], none⟩
  | skip + 1, c :: cs, pos, acc => wordTail skip cs (pos + c.utf8Size) acc
  | 0, c :: cs, pos, acc =>
    if Text.isIdentifierPart c then wordTail 0 cs (pos + c.utf8Size) (c :: acc)
    else if c = '\\' then
      match cs with
      | 'u' :: digits =>
        match unicodeDigits? digits with
        | some (value, n) =>
          if Text.isIdentifierPart (charOfCode value) then
            wordTail (n + 1) cs (pos + 1) (charOfCode value :: acc)
          else ⟨acc, pos, c :: cs, some ⟨.invalidUnicodeEscape, pos⟩⟩
        | none => ⟨acc, pos, c :: cs, some ⟨.invalidUnicodeEscape, pos⟩⟩
      | _ => ⟨acc, pos, c :: cs, some ⟨.invalidUnicodeEscape, pos⟩⟩
    else ⟨acc, pos, c :: cs, none⟩

/-! ### Strings -/

/-- What is left after a string, with its value and its text, last first. -/
structure StringEnd where
  value : List Char
  raw : List Char
  stop : Nat
  rest : List Char
  closed : Bool
  fault : Option Located
  soft : List Located

/-- The characters of a string up to its closing quote. -/
def stringTail (quote : Char) :
    Nat → List Char → Nat → List Char → List Char → List Located → StringEnd
  | _, [], pos, value, raw, soft => ⟨value, raw, pos, [], false, none, soft⟩
  | skip + 1, c :: cs, pos, value, raw, soft =>
    stringTail quote skip cs (pos + c.utf8Size) value (c :: raw) soft
  | 0, c :: cs, pos, value, raw, soft =>
    if c = quote then ⟨value, c :: raw, pos + 1, cs, true, none, soft⟩
    else if c = '\n' ∨ c = '\r' then ⟨value, raw, pos, c :: cs, false, none, soft⟩
    else if c = '\\' then
      let e := escapeOf false cs
      match e.fault with
      | some .legacyOctalEscape =>
        stringTail quote e.length cs (pos + 1) (e.value.reverse ++ value) (c :: raw)
          (⟨.legacyOctalEscape, pos⟩ :: soft)
      | some f => ⟨value, raw, pos, cs, true, some ⟨f, pos⟩, soft⟩
      | none => stringTail quote e.length cs (pos + 1) (e.value.reverse ++ value) (c :: raw) soft
    else stringTail quote 0 cs (pos + c.utf8Size) (c :: value) (c :: raw) soft

/-! ### Numbers -/

/-- Digits with single underscores between them: the digits as written, and
whether each underscore stands between two digits. -/
def digitRun (isDigit : Char → Bool) (cs : List Char) : List Char × List Char :=
  cs.span fun c => isDigit c || c == '_'

/-- Whether each underscore of a run of digits stands between two digits. -/
def separatorsFit : Bool → List Char → Bool
  | afterDigit, [] => afterDigit
  | true, '_' :: cs => separatorsFit false cs
  | false, '_' :: _ => false
  | _, _ :: cs => separatorsFit true cs

/-- A number that has been read: its text, whether it is a big integer, and what
is wrong with it. -/
structure NumberEnd where
  raw : List Char
  big : Bool
  rest : List Char
  fault : Option Fault
  soft : List Fault

/-- A number in a radix other than ten, after its two-character mark. -/
def radixNumber (mark : List Char) (radix : Nat) (isDigit : Char → Bool) (cs : List Char) :
    NumberEnd :=
  let (digits, rest) := digitRun isDigit cs
  let fault :=
    if digits.isEmpty then some (.expectedDigit radix)
    else if separatorsFit false digits then none else some .misplacedSeparator
  match rest with
  | 'n' :: rest => ⟨mark ++ digits ++ ['n'], true, rest, fault, []⟩
  | rest => ⟨mark ++ digits, false, rest, fault, []⟩

/-- The exponent of a decimal number, if there is one. -/
def exponentOf : List Char → List Char × List Char × Option Fault
  | e :: cs =>
    if e = 'e' ∨ e = 'E' then
      let (sign, cs') := match cs with
        | '+' :: r => (['+'], r)
        | '-' :: r => (['-'], r)
        | r => ([], r)
      let (digits, rest) := digitRun Char.isDigit cs'
      (e :: sign ++ digits, rest, if digits.isEmpty then some (.expectedDigit 10) else none)
    else ([], e :: cs, none)
  | [] => ([], [], none)

/-- A decimal number, an integer part possibly absent before a point. -/
def decimalNumber (cs : List Char) : NumberEnd :=
  let (whole, rest) := digitRun Char.isDigit cs
  let legacy := match whole with
    | '0' :: _ :: _ => true
    | _ => false
  let soft : List Fault := if legacy then [.legacyDecimal] else []
  let misplaced := !whole.isEmpty && !separatorsFit false whole
  match rest with
  | 'n' :: rest => ⟨whole ++ ['n'], true, rest, if misplaced then some .misplacedSeparator else none, soft⟩
  | _ =>
    let (fraction, rest) := match rest with
      | '.' :: r => let (f, r') := digitRun Char.isDigit r; ('.' :: f, r')
      | r => ([], r)
    let (exponent, rest, fault) := exponentOf rest
    ⟨whole ++ fraction ++ exponent, false, rest,
      if misplaced then some .misplacedSeparator else fault, soft⟩

/-- The number at the beginning of a text that starts with a digit, or with a
point before a digit. -/
def numberOf : List Char → NumberEnd
  | '0' :: m :: cs =>
    if m = 'x' ∨ m = 'X' then radixNumber ['0', m] 16 (fun c => (Text.hexValue? c).isSome) cs
    else if m = 'o' ∨ m = 'O' then radixNumber ['0', m] 8 (fun c => '0' ≤ c && c ≤ '7') cs
    else if m = 'b' ∨ m = 'B' then radixNumber ['0', m] 2 (fun c => c == '0' || c == '1') cs
    else decimalNumber ('0' :: m :: cs)
  | cs => decimalNumber cs

/-! ### Punctuators -/

/-- The longest punctuator at the beginning of a text, and its length. -/
def punctuatorOf? : List Char → Option (Punctuator × Nat)
  | '{' :: _ => some (.braceOpen, 1)
  | '}' :: _ => some (.braceClose, 1)
  | '(' :: _ => some (.parenOpen, 1)
  | ')' :: _ => some (.parenClose, 1)
  | '[' :: _ => some (.bracketOpen, 1)
  | ']' :: _ => some (.bracketClose, 1)
  | ';' :: _ => some (.semicolon, 1)
  | ',' :: _ => some (.comma, 1)
  | ':' :: _ => some (.colon, 1)
  | '@' :: _ => some (.atSign, 1)
  | '#' :: _ => some (.hash, 1)
  | '`' :: _ => some (.backquote, 1)
  | '~' :: _ => some (.tilde, 1)
  | '.' :: '.' :: '.' :: _ => some (.ellipsis, 3)
  | '.' :: _ => some (.dot, 1)
  | '?' :: '?' :: '=' :: _ => some (.assign (some .coalesce), 3)
  | '?' :: '?' :: _ => some (.binary .coalesce, 2)
  | '?' :: '.' :: cs => if cs.head?.any Char.isDigit then some (.question, 1) else some (.questionDot, 2)
  | '?' :: _ => some (.question, 1)
  | '=' :: '=' :: '=' :: _ => some (.binary .strictEq, 3)
  | '=' :: '=' :: _ => some (.binary .eq, 2)
  | '=' :: '>' :: _ => some (.arrow, 2)
  | '=' :: _ => some (.assign none, 1)
  | '!' :: '=' :: '=' :: _ => some (.binary .strictNe, 3)
  | '!' :: '=' :: _ => some (.binary .ne, 2)
  | '!' :: _ => some (.bang, 1)
  | '+' :: '+' :: _ => some (.increment, 2)
  | '+' :: '=' :: _ => some (.assign (some .add), 2)
  | '+' :: _ => some (.binary .add, 1)
  | '-' :: '-' :: _ => some (.decrement, 2)
  | '-' :: '=' :: _ => some (.assign (some .sub), 2)
  | '-' :: _ => some (.binary .sub, 1)
  | '*' :: '*' :: '=' :: _ => some (.assign (some .exp), 3)
  | '*' :: '*' :: _ => some (.binary .exp, 2)
  | '*' :: '=' :: _ => some (.assign (some .mul), 2)
  | '*' :: _ => some (.binary .mul, 1)
  | '/' :: '=' :: _ => some (.assign (some .div), 2)
  | '/' :: _ => some (.binary .div, 1)
  | '%' :: '=' :: _ => some (.assign (some .mod), 2)
  | '%' :: _ => some (.binary .mod, 1)
  | '<' :: '<' :: '=' :: _ => some (.assign (some .shiftLeft), 3)
  | '<' :: '<' :: _ => some (.binary .shiftLeft, 2)
  | '<' :: '=' :: _ => some (.binary .le, 2)
  | '<' :: _ => some (.binary .lt, 1)
  | '>' :: '>' :: '>' :: '=' :: _ => some (.assign (some .shiftRightZero), 4)
  | '>' :: '>' :: '>' :: _ => some (.binary .shiftRightZero, 3)
  | '>' :: '>' :: '=' :: _ => some (.assign (some .shiftRight), 3)
  | '>' :: '>' :: _ => some (.binary .shiftRight, 2)
  | '>' :: '=' :: _ => some (.binary .ge, 2)
  | '>' :: _ => some (.binary .gt, 1)
  | '&' :: '&' :: '=' :: _ => some (.assign (some .and), 3)
  | '&' :: '&' :: _ => some (.binary .and, 2)
  | '&' :: '=' :: _ => some (.assign (some .bitAnd), 2)
  | '&' :: _ => some (.binary .bitAnd, 1)
  | '|' :: '|' :: '=' :: _ => some (.assign (some .or), 3)
  | '|' :: '|' :: _ => some (.binary .or, 2)
  | '|' :: '=' :: _ => some (.assign (some .bitOr), 2)
  | '|' :: _ => some (.binary .bitOr, 1)
  | '^' :: '=' :: _ => some (.assign (some .bitXor), 2)
  | '^' :: _ => some (.binary .bitXor, 1)
  | _ => none

/-! ### Tokens -/

/-- The token that starts with the given character, right at a position. -/
def tokenAt (g : Gap) (c : Char) (cs : List Char) : Lexeme :=
  let pos := g.stop
  let word (w : WordEnd) : Lexeme :=
    match w.fault with
    | some f => ⟨.broken f, pos, w.stop + 1, g.broken, g.faults, w.rest.drop 1⟩
    | none => ⟨.word (String.ofList w.text.reverse), pos, w.stop, g.broken, g.faults, w.rest⟩
  if Text.isIdentifierStart c then word (wordTail 0 cs (pos + c.utf8Size) [c])
  else if c = '\\' then
    match cs with
    | 'u' :: digits =>
      match unicodeDigits? digits with
      | some (value, n) =>
        if Text.isIdentifierStart (charOfCode value) then
          word (wordTail (n + 1) cs (pos + 1) [charOfCode value])
        else ⟨.broken ⟨.invalidUnicodeEscape, pos⟩, pos, pos + 1, g.broken, g.faults, cs⟩
      | none => ⟨.broken ⟨.invalidUnicodeEscape, pos⟩, pos, pos + 1, g.broken, g.faults, cs⟩
    | _ => ⟨.broken ⟨.unexpectedCharacter c, pos⟩, pos, pos + 1, g.broken, g.faults, cs⟩
  else if c = '"' ∨ c = '\'' then
    let s := stringTail c 0 cs (pos + 1) [] [c] []
    match s.fault with
    | some f => ⟨.broken f, pos, s.stop, g.broken, g.faults, s.rest⟩
    | none =>
      let faults := if s.closed then s.soft else ⟨.unterminatedString, pos⟩ :: s.soft
      ⟨.string (String.ofList s.value.reverse) (String.ofList s.raw.reverse), pos, s.stop,
        g.broken, faults ++ g.faults, s.rest⟩
  else if c.isDigit ∨ (c = '.' ∧ cs.head?.any Char.isDigit) then
    let n := numberOf (c :: cs)
    let stop := pos + n.raw.length
    match n.fault with
    | some f => ⟨.broken ⟨f, pos⟩, pos, stop, g.broken, g.faults, n.rest⟩
    | none =>
      if n.rest.head?.any fun d => Text.isIdentifierStart d || d.isDigit then
        ⟨.broken ⟨.identifierAfterNumber, stop⟩, pos, stop, g.broken, g.faults, n.rest⟩
      else
        let raw := String.ofList n.raw
        ⟨if n.big then .bigInteger raw else .number raw, pos, stop, g.broken,
          n.soft.map (⟨·, pos⟩) ++ g.faults, n.rest⟩
  else
    match punctuatorOf? (c :: cs) with
    | some (p, n) => ⟨.punctuator p, pos, pos + n, g.broken, g.faults, cs.drop (n - 1)⟩
    | none =>
      ⟨.broken ⟨.unexpectedCharacter c, pos⟩, pos, pos + c.utf8Size, g.broken, g.faults, cs⟩

/-- The token after a gap that has been read. -/
def lexemeAfter (g : Gap) : Lexeme :=
  match g.rest with
  | [] => ⟨.endOfText, g.stop, g.stop, g.broken, g.faults, []⟩
  | c :: cs => tokenAt g c cs

/-- The next token of a text that starts at a byte offset. -/
def lexeme (cs : List Char) (pos : Nat) : Lexeme := lexemeAfter (gap .between 0 cs pos false [])

/-- The first token of a module: a line that starts with `#!` may stand before
it, and it counts as standing on a line of its own. -/
def firstLexeme (cs : List Char) : Lexeme :=
  match cs with
  | '#' :: '!' :: rest => lexemeAfter (gap .lineComment 0 rest 2 true [])
  | cs => lexemeAfter (gap .between 0 cs 0 true [])

/-! ### Regular expressions -/

/-- The body of a regular expression, last character first, and the text from
its closing slash on. -/
def regexBody : Bool → Bool → List Char → List Char → Option (List Char × List Char)
  | _, _, [], _ => none
  | escaped, inClass, c :: cs, acc =>
    if isLineTerminator c then none
    else if escaped then regexBody false inClass cs (c :: acc)
    else if c = '/' ∧ !inClass then some (acc, cs)
    else
      regexBody (c == '\\') (if c = '[' then true else if c = ']' then false else inClass) cs
        (c :: acc)

/-- The regular expression whose opening slash is the given lexeme's. -/
def regexLexeme (slash : Lexeme) (body : List Char) : Lexeme :=
  match regexBody false false body [] with
  | none => { slash with token := .broken ⟨.unterminatedRegex, slash.start⟩ }
  | some (pattern, rest) =>
    let (flags, rest) := rest.span Text.isIdentifierPart
    { slash with
      token := .regex (String.ofList pattern.reverse) (String.ofList flags)
      stop := slash.start + 2 + Text.byteLength pattern + Text.byteLength flags
      rest := rest }

/-! ### Templates -/

/-- How a stretch of template text ends. -/
inductive ChunkEnd where
  | closed
  | substitution
  | unterminated
  deriving DecidableEq, Repr

/-- A stretch of template text, up to the closing backquote or the mark that
opens a substitution; `stop` and `rest` are after that mark. -/
structure Chunk where
  raw : List Char
  ending : ChunkEnd
  stop : Nat
  rest : List Char
  fault : Option Located

/-- Reads template text; `acc` holds it so far, last first. -/
def chunkTail : Nat → List Char → Nat → List Char → Option Located → Chunk
  | _, [], pos, acc, fault => ⟨acc.reverse, .unterminated, pos, [], fault⟩
  | skip + 1, c :: cs, pos, acc, fault => chunkTail skip cs (pos + c.utf8Size) (c :: acc) fault
  | 0, c :: cs, pos, acc, fault =>
    if c = '`' then ⟨acc.reverse, .closed, pos + 1, cs, fault⟩
    else if c = '$' ∧ cs.head? = some '{' then ⟨acc.reverse, .substitution, pos + 2, cs.drop 1, fault⟩
    else if c = '\\' then
      let e := escapeOf true cs
      chunkTail (if e.fault.isSome then 0 else e.length) cs (pos + 1) (c :: acc)
        (fault <|> e.fault.map (⟨·, pos⟩))
    else chunkTail 0 cs (pos + c.utf8Size) (c :: acc) fault

/-- The template text at a byte offset. -/
def templateChunk (cs : List Char) (pos : Nat) : Chunk := chunkTail 0 cs pos [] none

end Script
end ElementBuild
