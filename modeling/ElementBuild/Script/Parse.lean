/-
# Reading a module

A module is read from its text, without the byte order mark that may open it.
Reading fails with the fault that stopped it, or else with the first fault that
was noted on the way.
-/
import ElementBuild.Script.Grammar.Core
import ElementBuild.Script.Grammar.Item

namespace ElementBuild
namespace Script

/-- Enough nesting for a text: each character opens at most a few levels of the
grammar. -/
def depthFor (cs : List Char) : Nat := 8 * cs.length + 64

/-- The text of a module without the mark that may open it. -/
def withoutMark : List Char → List Char
  | '\ufeff' :: cs => cs
  | cs => cs

/-- The module that a text writes, or what is wrong with it. -/
def parse (cs : List Char) : Except Located Module :=
  let cs := withoutMark cs
  match (grammar (depthFor cs)).items (Reader.initial cs) with
  | .ok items s =>
    match s.noted.getLast? with
    | none => .ok ⟨items⟩
    | some f => .error f
  | .error f _ => .error f

end Script
end ElementBuild
