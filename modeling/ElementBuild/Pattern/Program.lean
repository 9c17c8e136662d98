/-
# Patterns as programs

A pattern is run as a list of instructions.  A `fork` has two ways on and prefers
the first, so the order of the ways is the order in which alternatives and further
rounds of a repetition are tried.

| node | instructions |
| --- | --- |
| alternatives | `fork` to each of them, a `jump` past the second after the first |
| at least one round | the rounds, the last one followed by a `fork` back to it |
| any number of rounds | a `fork` past at least one round |
| up to `n` more rounds | `n` times a `fork` past all that is left |
-/
import ElementBuild.Pattern.Syntax

namespace ElementBuild
namespace Pattern

/-- One instruction; ways on are indices of instructions. -/
inductive Instruction where
  | consume (c : ClassExpr)
  | look (l : Look)
  | fork (first second : Nat)
  | jump (next : Nat)
  /-- Notes the place in a slot. -/
  | save (slot : Nat)
  | accept
  deriving Repr

namespace Instruction

/-- A fork that prefers to go on if greedy, and to leave if not. -/
def forkTo (greedy : Bool) (on leave : Nat) : Instruction :=
  if greedy then .fork on leave else .fork leave on

end Instruction

/-- The code of some rounds, one after another. -/
def roundsFrom (code : Nat → List Instruction) : Nat → Nat → List Instruction
  | 0, _ => []
  | n + 1, at_ =>
    let first := code at_
    first ++ roundsFrom code n (at_ + first.length)

/-- The code of at least one round. -/
def someRounds (greedy : Bool) (code : Nat → List Instruction) (at_ : Nat) : List Instruction :=
  let round := code at_
  round ++ [.forkTo greedy at_ (at_ + round.length + 1)]

/-- The code of any number of rounds. -/
def anyRounds (greedy : Bool) (code : Nat → List Instruction) (at_ : Nat) : List Instruction :=
  let rounds := someRounds greedy code (at_ + 1)
  .forkTo greedy (at_ + 1) (at_ + 1 + rounds.length) :: rounds

/-- The code of up to some rounds, all of whose forks leave to `leave`. -/
def optionalRounds (greedy : Bool) (code : Nat → List Instruction) (leave : Nat) :
    Nat → Nat → List Instruction
  | 0, _ => []
  | n + 1, at_ =>
    let first := code (at_ + 1)
    .forkTo greedy (at_ + 1) leave :: first ++
      optionalRounds greedy code leave n (at_ + 1 + first.length)

namespace Node

/-- The code of a pattern that starts at an index. -/
def code : Node → Nat → List Instruction
  | empty, _ => []
  | set c, _ => [.consume c]
  | look l, _ => [.look l]
  | capture i n, at_ => .save (2 * i) :: n.code (at_ + 1) ++ [.save (2 * i + 1)]
  | sequence a b, at_ =>
    let first := a.code at_
    first ++ b.code (at_ + first.length)
  | choice a b, at_ =>
    let first := a.code (at_ + 1)
    let second := b.code (at_ + 2 + first.length)
    .fork (at_ + 1) (at_ + 2 + first.length) :: first ++
      .jump (at_ + 2 + first.length + second.length) :: second
  | repetition n 0 none greedy, at_ => anyRounds greedy n.code at_
  | repetition n (least + 1) none greedy, at_ =>
    let first := roundsFrom n.code least at_
    first ++ someRounds greedy n.code (at_ + first.length)
  | repetition n least (some most) greedy, at_ =>
    let first := roundsFrom n.code least at_
    let start := at_ + first.length
    let size := (n.code start).length
    first ++ optionalRounds greedy n.code (start + (most - least) * (size + 1)) (most - least) start

end Node

namespace ClassExpr

/-- The number of ranges that a set is put together from. -/
def breadth : ClassExpr → Nat
  | range _ _ => 1
  | table set => set.ranges.length
  | anyCase e => 2 * e.breadth
  | complement e => e.breadth
  | union a b => a.breadth + b.breadth
  | intersection a b => a.breadth + b.breadth
  | difference a b => a.breadth + b.breadth
  | symmetricDifference a b => a.breadth + b.breadth

end ClassExpr

namespace Node

/-- How large the program of a pattern is, its sets counted by their ranges. -/
def weight : Node → Nat
  | empty => 1
  | set c => 1 + c.breadth
  | look _ => 1
  | capture _ n => 2 + n.weight
  | sequence a b => a.weight + b.weight
  | choice a b => 2 + a.weight + b.weight
  | repetition n least none _ => (max least 1) * n.weight + 2
  | repetition n _ (some most) _ => most * (n.weight + 1)

/-- Patterns above this weight are refused. -/
def weightLimit : Nat := 170000

end Node

/-- A pattern that is ready to be matched. -/
structure Program where
  code : Array Instruction
  /-- The number of captures. -/
  captures : Nat
  /-- The names of captures, each with the number of its capture. -/
  names : List (CaptureName × Nat)
  deriving Repr

namespace Program

/-- The program of a pattern; slots 0 and 1 hold the ends of the whole match. -/
def ofNode (n : Node) (captures : Nat) (names : List (CaptureName × Nat)) : Program :=
  ⟨((Node.capture 0 n).code 0 ++ [Instruction.accept]).toArray, captures, names⟩

/-- The number of the capture with a name. -/
def index? (p : Program) (name : List Char) : Option Nat :=
  (p.names.find? (·.1.text == name)).map (·.2)

end Program

end Pattern
end ElementBuild
