/-
# Reading patterns

The usual notation: alternatives, groups with and without captures or names,
flags, greedy and lazy repetitions, classes with nested sets and set operations,
escapes.  There is no look-around and there are no back-references; a pattern that
uses them, or that is malformed in another way, is not read at all.
-/
import ElementBuild.Pattern.Syntax
import ElementBuild.Text.Category

namespace ElementBuild
namespace Pattern

/-- Flags that change how a pattern is read. -/
structure Flags where
  anyCase : Bool := false
  multiLine : Bool := false
  dotAll : Bool := false
  swapGreed : Bool := false
  unicode : Bool := true
  wireLines : Bool := false
  spaced : Bool := false
  deriving Repr

/-- Where the reader of a pattern stands. -/
structure PatternState where
  rest : List Char
  flags : Flags := {}
  /-- The number of captures so far. -/
  captures : Nat := 0
  /-- The names of captures, each with the number of its capture. -/
  names : List (CaptureName × Nat) := []

/-- A step of reading; nothing if the text is no pattern. -/
abbrev PatternReader := StateT PatternState Option

namespace PatternReader

/-- Gives up. -/
def reject {α : Type} : PatternReader α := fun _ => none

/-- The next character. -/
def peek? : PatternReader (Option Char) := return (← get).rest.head?

/-- Passes characters. -/
def skip (n : Nat) : PatternReader Unit := modify fun s => { s with rest := s.rest.drop n }

/-- Passes the next character, which has to exist. -/
def next : PatternReader Char := do
  match (← get).rest with
  | c :: _ =>
    skip 1
    return c
  | [] => reject

/-- Passes a text if it is next. -/
def eat (text : String) : PatternReader Bool := do
  let s ← get
  match text.toList.isPrefixOf? s.rest with
  | some rest =>
    set { s with rest }
    return true
  | none => return false

/-- Passes a text that has to be next. -/
def expect (text : String) : PatternReader Unit := do
  unless ← eat text do reject

/-- Text without the blanks and comments at its beginning. -/
def dropSpace : Bool → List Char → List Char
  | _, [] => []
  | true, c :: cs => if c = '\n' then dropSpace false cs else dropSpace true cs
  | false, c :: cs =>
    if Text.isBlank c then dropSpace false cs
    else if c = '#' then dropSpace true cs
    else c :: cs

/-- Passes blanks and comments where the flags allow them. -/
def space : PatternReader Unit := do
  if (← get).flags.spaced then modify fun s => { s with rest := dropSpace false s.rest }

/-- Repeats a step until it gives nothing more. -/
def repeated {α : Type} : Nat → (α → PatternReader (Option α)) → α → PatternReader α
  | 0, _, _ => reject
  | fuel + 1, step, a => do
    match (← step a) with
    | some b => repeated fuel step b
    | none => return a

end PatternReader

open PatternReader

/-! ### Escapes and single characters -/

/-- What a single item of a pattern or a class stands for. -/
inductive Item where
  | char (c : Char)
  | chars (c : ClassExpr)
  | look (l : Look)

/-- The set of a character under the flags. -/
def charClass (flags : Flags) (c : Char) : ClassExpr :=
  if flags.anyCase then .anyCase (.single c) else .single c

/-- A range under the flags. -/
def rangeClass (flags : Flags) (a b : Char) : ClassExpr :=
  if flags.anyCase then .anyCase (.range a.toNat b.toNat) else .range a.toNat b.toNat

/-- A complement; without the Unicode flag it would hold more than characters. -/
def negated (negate : Bool) (c : ClassExpr) : PatternReader ClassExpr := do
  if negate then
    if (← get).flags.unicode then return .complement c else reject
  else return c

/-- The ASCII characters among a set. -/
def asciiPart (set : Text.CharSet) : ClassExpr := .intersection (.table set) (.range 0 127)

/-- The class of a letter after a backslash: digits, white space, words. -/
def perlClass? (flags : Flags) (c : Char) : Option (ClassExpr × Bool) :=
  let sets : List (Char × Text.CharSet) :=
    [('d', Text.digitSet), ('s', Text.blankSet), ('w', Text.wordSet)]
  match sets.find? fun s => s.1 == c.toLower with
  | some (_, set) =>
    some (if flags.unicode then .table set else asciiPart set, c.isUpper)
  | none => none

/-- A property's name in the form in which names are compared. -/
def plainName (cs : List Char) : String :=
  String.ofList ((cs.filter fun c => !(Text.isBlank c || c == '_' || c == '-')).map Char.toLower)

/-- The union of sets. -/
def unionOf (sets : List Text.CharSet) : ClassExpr :=
  sets.foldr (fun s e => .union (.table s) e) .none

/-- The set of characters with a property of the given name. -/
def property? (name : String) : Option ClassExpr :=
  match Text.categoriesNamed name with
  | _ :: _ => some (unionOf (Text.categoriesNamed name))
  | [] =>
    if name == "any" then some .all
    else if name == "ascii" then some (.range 0 127)
    else if name == "assigned" then some (.complement (unionOf (Text.categoriesNamed "cn")))
    else if name == "alphabetic" || name == "alpha" then
      some (.difference (.table Text.wordSet)
        (unionOf (["mn", "mc", "me", "nd", "pc"].flatMap Text.categoriesNamed)))
    else if name == "whitespace" || name == "wspace" || name == "space" then
      some (.table Text.blankSet)
    else if name == "cased" then some (.table Text.casedSet)
    else if name == "caseignorable" || name == "ci" then some (.table Text.caseIgnorableSet)
    else if name == "idstart" || name == "ids" then some (.table Text.identifierStartSet)
    else if name == "idcontinue" || name == "idc" then some (.table Text.identifierPartSet)
    else if name == "lowercase" || name == "lower" then some (unionOf (Text.categoriesNamed "ll"))
    else if name == "uppercase" || name == "upper" then some (unionOf (Text.categoriesNamed "lu"))
    else (Text.scripts.find? (·.1 == name)).map fun s => .table s.2

/-- The set of characters whose property has a value. -/
def propertyValue? (property value : String) : Option ClassExpr :=
  if property == "gc" || property == "generalcategory" then
    match Text.categoriesNamed value with
    | [] => none
    | sets => some (unionOf sets)
  else if ["sc", "script", "scx", "scriptextensions"].contains property then
    (Text.scripts.find? (·.1 == value)).map fun s => .table s.2
  else none

/-- The set that `\p` names, after that letter. -/
def unicodeClass (negate : Bool) : PatternReader ClassExpr := do
  let flags := (← get).flags
  if !flags.unicode then reject
  let found (negate : Bool) (e : Option ClassExpr) : PatternReader ClassExpr := do
    match e with
    | some e => return (if negate then .complement (folded flags e) else folded flags e)
    | none => reject
  match (← next) with
  | '{' =>
    let s ← get
    let (body, rest) := s.rest.span (· ≠ '}')
    if rest.isEmpty then reject
    set { s with rest := rest.drop 1 }
    match body.span fun c => c ≠ '=' && c ≠ ':' with
    | (_, []) => found negate (property? (plainName body))
    | (name, _ :: value) =>
      match name.getLast? with
      | some '!' => found (!negate) (propertyValue? (plainName name.dropLast) (plainName value))
      | _ => found negate (propertyValue? (plainName name) (plainName value))
  | c => found negate (property? (plainName [c]))
where
  folded (flags : Flags) (e : ClassExpr) : ClassExpr := if flags.anyCase then .anyCase e else e

/-- A character given by hexadecimal digits after `x`, `u` or `U`. -/
def hexChar (digits : Nat) : PatternReader Char := do
  let s ← get
  let (body, rest) ←
    match s.rest with
    | '{' :: cs =>
      let (body, rest) := cs.span (· ≠ '}')
      if rest.isEmpty then reject else pure (body, rest.drop 1)
    | cs => if cs.length < digits then reject else pure (cs.take digits, cs.drop digits)
  if body.isEmpty || body.length > 8 || !body.all fun c => (Text.hexValue? c).isSome then reject
  let n := Text.hexNumber body
  if n.isValidChar then
    set { s with rest }
    return Char.ofNat n
  else reject

/-- Characters with a meaning of their own in patterns. -/
def metaCharacters : List Char := "\\.+*?()|[]\x7b\x7d^$#&-~".toList

/-- The kinds of word boundary that have names. -/
def namedBoundary? (ascii : Bool) (name : String) : Option Look :=
  match name with
  | "start" => some (.wordStart ascii)
  | "end" => some (.wordEnd ascii)
  | "start-half" => some (.wordStartHalf ascii)
  | "end-half" => some (.wordEndHalf ascii)
  | _ => none

/-- What follows a backslash. -/
def escape : PatternReader Item := do
  let flags := (← get).flags
  let ascii := !flags.unicode
  let c ← next
  if c.isDigit then reject
  else if c = 'x' then return .char (← hexChar 2)
  else if c = 'u' then return .char (← hexChar 4)
  else if c = 'U' then return .char (← hexChar 8)
  else if c = 'p' then return .chars (← unicodeClass false)
  else if c = 'P' then return .chars (← unicodeClass true)
  else
    match perlClass? flags c with
    | some (e, negate) => return .chars (← negated negate e)
    | none =>
      if metaCharacters.contains c then return .char c
      else
        match c with
        | 'a' => return .char '\x07'
        | 'f' => return .char '\x0c'
        | 't' => return .char '\t'
        | 'n' => return .char '\n'
        | 'r' => return .char '\r'
        | 'v' => return .char '\x0b'
        | 'A' => return .look .textStart
        | 'z' => return .look .textEnd
        | 'B' => return .look (.noWordBoundary ascii)
        | '<' => return .look (.wordStart ascii)
        | '>' => return .look (.wordEnd ascii)
        | 'b' =>
          match (← get).rest with
          | '{' :: cs =>
            let (name, rest) := cs.span fun c => c.isAlpha || c == '-'
            if name.isEmpty then return .look (.wordBoundary ascii)
            else
              match rest, namedBoundary? ascii (String.ofList name) with
              | '}' :: rest, some l =>
                modify fun s => { s with rest }
                return .look l
              | _, _ => reject
          | _ => return .look (.wordBoundary ascii)
        | c =>
          if c.toNat < 128 && !c.isAlpha then return .char c else reject

/-! ### Classes -/

/-- The ASCII classes that have names. -/
def asciiClass? (name : String) : Option ClassExpr :=
  let letters : ClassExpr := .union (.range 65 90) (.range 97 122)
  let digits : ClassExpr := .range 48 57
  match name with
  | "alnum" => some (.union letters digits)
  | "alpha" => some letters
  | "ascii" => some (.range 0 127)
  | "blank" => some (.union (.single '\t') (.single ' '))
  | "cntrl" => some (.union (.range 0 31) (.range 127 127))
  | "digit" => some digits
  | "graph" => some (.range 33 126)
  | "lower" => some (.range 97 122)
  | "print" => some (.range 32 126)
  | "punct" => some (.difference (.range 33 126) (.union letters digits))
  | "space" => some (.union (.range 9 13) (.single ' '))
  | "upper" => some (.range 65 90)
  | "word" => some (.union (.union letters digits) (.single '_'))
  | "xdigit" => some (.union digits (.union (.range 65 70) (.range 97 102)))
  | _ => none

/-- A named ASCII class in brackets and colons, if one is next. -/
def namedClass? : PatternReader (Option ClassExpr) := do
  let s ← get
  match s.rest with
  | '[' :: ':' :: cs =>
    let (negate, cs) := match cs with
      | '^' :: cs => (true, cs)
      | cs => (false, cs)
    let (name, rest) := cs.span (· ≠ ':')
    match rest, asciiClass? (String.ofList name) with
    | ':' :: ']' :: rest, some e =>
      set { s with rest }
      let e := if s.flags.anyCase then .anyCase e else e
      return some (← negated negate e)
    | _, _ => return none
  | _ => return none

/-- An item of a class that may begin or end a range. -/
def classItem : PatternReader Item := do
  let c ← next
  if c = '\\' then
    match (← escape) with
    | .look _ => reject
    | item => return item
  else return .char c

/-- An item of a class, or a range. -/
def classRange : PatternReader ClassExpr := do
  let flags := (← get).flags
  let first ← classItem
  space
  match (← get).rest with
  | '-' :: c :: _ =>
    if c = ']' || c = '-' then itemClass flags first
    else
      skip 1
      space
      let last ← classItem
      match first, last with
      | .char a, .char b => if a ≤ b then return rangeClass flags a b else reject
      | _, _ => reject
  | _ => itemClass flags first
where
  itemClass (flags : Flags) : Item → PatternReader ClassExpr
    | .char c => return charClass flags c
    | .chars e => return e
    | .look _ => reject

/-- The set operators. -/
def setOperator? : List Char → Option (ClassExpr → ClassExpr → ClassExpr)
  | '&' :: '&' :: _ => some .intersection
  | '-' :: '-' :: _ => some .difference
  | '~' :: '~' :: _ => some .symmetricDifference
  | _ => none

/-- A class after its opening bracket; `nested` reads a class within it. -/
def classBody (fuel : Nat) (nested : PatternReader ClassExpr) : PatternReader ClassExpr := do
  space
  let negate ← eat "^"
  space
  -- hyphens right after the opening stand for themselves, and so does a bracket
  let flags := (← get).flags
  let hyphens ← repeated fuel (fun (e : ClassExpr) => do
    if ← eat "-" then
      space
      return some (.union e (charClass flags '-'))
    else return none) .none
  let noHyphens := match hyphens with
    | .range _ _ => true
    | _ => false
  let start ←
    if noHyphens && (← eat "]") then do
      space
      pure (.union hyphens (charClass flags ']'))
    else pure hyphens
  -- the operator that waits for its right side, applied to the left side
  let (pending, union) ← repeated fuel
    (fun ((pending, union) : (Option (ClassExpr → ClassExpr)) × ClassExpr) => do
      space
      let s ← get
      match s.rest with
      | [] => reject
      | ']' :: _ => return none
      | rest =>
        match setOperator? rest with
        | some op =>
          skip 2
          let left := match pending with
            | some f => f union
            | none => union
          return some (some (op left), .none)
        | none =>
          match rest with
          | '[' :: _ =>
            match (← namedClass?) with
            | some e => return some (pending, .union union e)
            | none =>
              skip 1
              return some (pending, .union union (← nested))
          | _ => return some (pending, .union union (← classRange)))
    ((none : Option (ClassExpr → ClassExpr)), start)
  expect "]"
  let e := match pending with
    | some f => f union
    | none => union
  negated negate e

/-- A class after its opening bracket, nested up to a depth. -/
def classOf (fuel : Nat) : Nat → PatternReader ClassExpr
  | 0 => reject
  | depth + 1 => classBody fuel (classOf fuel depth)

/-! ### Repetitions and groups -/

/-- A decimal number, with blanks around it. -/
def decimal : PatternReader Nat := do
  modify fun s => { s with rest := s.rest.dropWhile Text.isBlank }
  let s ← get
  let (digits, rest) := s.rest.span Char.isDigit
  if digits.isEmpty then reject
  let n := digits.foldl (fun n c => 10 * n + (c.toNat - '0'.toNat)) 0
  if 0x100000000 ≤ n then reject
  set { s with rest := rest.dropWhile Text.isBlank }
  return n

/-- The bounds of a counted repetition, after its opening brace. -/
def bounds : PatternReader (Nat × Option Nat) := do
  space
  let least ← decimal
  space
  let result ←
    if ← eat "," then do
      space
      if (← peek?) == some '}' then pure (least, none)
      else do
        let most ← decimal
        if most < least then reject
        pure (least, some most)
    else pure (least, some least)
  space
  expect "\x7d"
  return result

/-- Whether a repetition is lazy: a question mark follows it. -/
def lazyMark : PatternReader Bool := do
  space
  eat "?"

/-- Repetition operators after an item. -/
def repetitions (fuel : Nat) (n : Node) : PatternReader Node :=
  repeated fuel (fun n => do
    space
    let swap := (← get).flags.swapGreed
    let close (least : Nat) (most : Option Nat) : PatternReader (Option Node) := do
      let isLazy ← lazyMark
      return some (.repetition n least most (isLazy == swap))
    match (← peek?) with
    | some '*' =>
      skip 1
      close 0 none
    | some '+' =>
      skip 1
      close 1 none
    | some '?' =>
      skip 1
      close 0 (some 1)
    | some '{' =>
      skip 1
      let (least, most) ← bounds
      close least most
    | _ => return none) n

/-- Sets one flag. -/
def setFlag (flags : Flags) (on : Bool) : Char → Option Flags
  | 'i' => some { flags with anyCase := on }
  | 'm' => some { flags with multiLine := on }
  | 's' => some { flags with dotAll := on }
  | 'U' => some { flags with swapGreed := on }
  | 'u' => some { flags with unicode := on }
  | 'R' => some { flags with wireLines := on }
  | 'x' => some { flags with spaced := on }
  | _ => none

/-- Reads flags up to a closing parenthesis or a colon; also which of the two it
was, and whether there were flags at all. -/
def flagList : Bool → List Char → List Char → Flags → Option (Flags × Char × Bool × List Char)
  | _, _, [], _ => none
  | on, seen, c :: cs, flags =>
    if c = ')' ∨ c = ':' then
      -- a minus sign has to have flags after it
      if seen.head? = some '-' then none else some (flags, c, !seen.isEmpty, cs)
    else if c = '-' then if on then flagList false ('-' :: seen) cs flags else none
    else if seen.contains c then none
    else (setFlag flags on c).bind fun flags => flagList on (c :: seen) cs flags

/-- Whether a character may stand in the name of a capture. -/
def isNameChar (first : Bool) (c : Char) : Bool :=
  c == '_' || (Text.isWordChar c && !Text.isDigit c) ||
    (!first && (c == '.' || c == '[' || c == ']' || Text.isDigit c))

theorem isDigit_of_isNameChar {c : Char} (h : isNameChar true c = true) :
    Text.isDigit c = false := by
  by_cases hc : c = '_'
  · rw [hc]
    rfl
  · have h : (Text.isWordChar c && !Text.isDigit c) = true := by simpa [isNameChar, hc] using h
    simpa using (Bool.and_eq_true_iff.1 h).2

/-- The name of the next capture, up to the bracket that closes it. -/
def captureName : PatternReader Unit := do
  let s ← get
  let (name, rest) := s.rest.span (· ≠ '>')
  match name, rest with
  | c :: cs, _ :: rest =>
    if h : isNameChar true c = true then
      if cs.all (isNameChar false) && !s.names.any (·.1.text == c :: cs) then
        set { s with
          rest, names := (⟨c :: cs, isDigit_of_isNameChar h⟩, s.captures + 1) :: s.names }
      else reject
    else reject
  | _, _ => reject

/-- What follows an opening parenthesis; nothing for flags that hold from here
on. -/
def group (inner : PatternReader Node) : PatternReader (Option Node) := do
  let saved := (← get).flags
  let close (n : Node) : PatternReader (Option Node) := do
    expect ")"
    modify fun s => { s with flags := saved }
    return some n
  let capture : PatternReader (Option Node) := do
    let index := (← get).captures + 1
    modify fun s => { s with captures := index }
    let n ← inner
    close (.capture index n)
  space
  if ← eat "?" then
    if (← eat "=") || (← eat "!") || (← eat "<=") || (← eat "<!") then reject
    else if (← eat "P<") || (← eat "<") then
      captureName
      capture
    else
      let s ← get
      match flagList true [] s.rest s.flags with
      | none => reject
      | some (flags, ending, any, rest) =>
        set { s with flags, rest }
        if ending = ')' then
          if any then return none else reject
        else close (← inner)
  else capture

/-! ### Patterns -/

/-- The set of characters that a dot stands for. -/
def dotClass (flags : Flags) : PatternReader ClassExpr := do
  if !flags.unicode then reject
  else if flags.dotAll then return .all
  else if flags.wireLines then
    return .complement (.union (.single '\n') (.single '\r'))
  else return .complement (.single '\n')

/-- The node of an item. -/
def itemNode (flags : Flags) : Item → Node
  | .char c => .set (charClass flags c)
  | .chars e => .set e
  | .look l => .look l

/-- One item with its repetitions; nothing at the end of an alternative, and
an empty list for flags. -/
def piece (fuel : Nat) (inner : PatternReader Node) : PatternReader (Option (List Node)) := do
  space
  let flags := (← get).flags
  let close (n : Node) : PatternReader (Option (List Node)) := do
    return some [← repetitions fuel n]
  match (← peek?) with
  | none => return none
  | some c =>
    match c with
    | '|' => return none
    | ')' => return none
    | '*' => reject
    | '+' => reject
    | '?' => reject
    | '{' => reject
    | '(' =>
      skip 1
      match (← group inner) with
      | some n => close n
      | none =>
        space
        match (← peek?) with
        | some c => if "*+?\x7b".toList.contains c then reject else return some []
        | none => return some []
    | '[' =>
      skip 1
      close (.set (← classOf fuel 250))
    | '.' =>
      skip 1
      close (.set (← dotClass flags))
    | '^' =>
      skip 1
      close (.look (if !flags.multiLine then .textStart
        else if flags.wireLines then .wireLineStart else .lineStart))
    | '$' =>
      skip 1
      close (.look (if !flags.multiLine then .textEnd
        else if flags.wireLines then .wireLineEnd else .lineEnd))
    | '\\' =>
      skip 1
      close (itemNode flags (← escape))
    | c =>
      skip 1
      close (itemNode flags (.char c))

/-- Items one after another. -/
def sequenceOf : List Node → Node
  | [] => .empty
  | [n] => n
  | n :: ns => .sequence n (sequenceOf ns)

/-- Alternatives; `inner` reads those of a group. -/
def alternatives (fuel : Nat) (inner : PatternReader Node) : PatternReader Node := do
  let sequence : PatternReader Node := do
    let nodes ← repeated fuel (fun (nodes : List Node) => do
      match (← piece fuel inner) with
      | some more => return some (more.reverse ++ nodes)
      | none => return none) []
    return sequenceOf nodes.reverse
  let first ← sequence
  let others ← repeated fuel (fun (nodes : List Node) => do
    if ← eat "|" then return some ((← sequence) :: nodes) else return none) []
  match others with
  | [] => return first
  | last :: before => return .choice first (before.foldl (fun n m => .choice m n) last)

/-- Alternatives nested up to a depth. -/
def nestedAlternatives (fuel : Nat) : Nat → PatternReader Node
  | 0 => reject
  | depth + 1 => alternatives fuel (nestedAlternatives fuel depth)

/-- The deepest nesting that is read. -/
def nestLimit : Nat := 250

/-- The pattern that a text writes, the number of its captures and their names. -/
def read? (text : String) : Option (Node × Nat × List (CaptureName × Nat)) := do
  let cs := text.toList
  let (n, s) ← (nestedAlternatives (cs.length + 2) nestLimit).run { rest := cs }
  if s.rest.isEmpty then some (n, s.captures, s.names) else none

end Pattern
end ElementBuild
