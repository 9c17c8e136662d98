/-
# Where a module mentions others

A module mentions another at a literal: in an import or export statement, or as the target of an
`import()` call.  Statements and calls stand clear of one another, with one exception: a call may
hold others in its arguments, behind its literal (`Mention.Apart`).  What is found in one stretch
of the text and then in the next is found in both together (`Mentions.append`), so it is enough
to know of each production in which stretch it finds its mentions.
-/
import ElementBuild.Script.Syntax
import ElementBuild.Proofs.Script.Lexing
import Mathlib.Data.List.Perm.Subperm

namespace ElementBuild
namespace Script

open Text (IsBoundary byteLength)

/-- The characters between the ends of a span are a literal with its quotes. -/
def IsLiteral (cs : List Char) (literal : Span) : Prop :=
  ∃ before own rest, cs = before ++ (own ++ rest) ∧ byteLength before = literal.start ∧
    literal.start + byteLength own = literal.stop ∧ IsQuoted own

theorem IsLiteral.lt {cs : List Char} {literal : Span} (h : IsLiteral cs literal) :
    literal.start < literal.stop := by
  obtain ⟨before, own, rest, -, -, hstop, quote, body, -, rfl⟩ := h
  have hquote := Char.utf8Size_pos quote
  rw [← hstop, Text.byteLength_cons]
  omega

/-- A statement or a call that names another module, and the literal with the name. -/
structure Mention where
  statement : Span
  literal : Span
  isDynamic : Bool
  deriving DecidableEq, Repr

/-- What an `import()` call mentions, if its target is a literal. -/
def ImportCall.mention? (call : ImportCall) : Option Mention :=
  call.literal.map fun literal => ⟨call.span, literal, true⟩

/-- What an import or export statement mentions. -/
def Item.mention? : Item → Option Mention
  | .importFrom span _ source => some ⟨span, source, false⟩
  | .exportFrom span _ source => some ⟨span, source, false⟩
  | .exportNamespace span _ source => some ⟨span, source, false⟩
  | .exportAll span source => some ⟨span, source, false⟩
  | _ => none

/-- What an item of a module mentions, its calls last. -/
def Item.mentions (i : Item) : List Mention :=
  i.mention?.toList ++ i.calls.filterMap ImportCall.mention?

/-- A mention lies between two offsets of a text: its statement is a part of the text there, and
its literal a part of the statement. -/
structure Mention.Lies (m : Mention) (cs : List Char) (lo hi : Nat) : Prop where
  lo_le : lo ≤ m.statement.start
  le_hi : m.statement.stop ≤ hi
  start : IsBoundary cs m.statement.start
  stop : IsBoundary cs m.statement.stop
  literal : IsLiteral cs m.literal
  start_le : m.statement.start ≤ m.literal.start
  le_stop : m.literal.stop ≤ m.statement.stop

/-- A call holds another in its arguments, behind its literal. -/
def Mention.Holds (m m' : Mention) : Prop :=
  m.isDynamic = true ∧ m'.isDynamic = true ∧ m.literal.stop ≤ m'.statement.start ∧
    m'.statement.stop ≤ m.statement.stop

/-- Statements and calls stand clear of one another, or one call holds the other. -/
def Mention.Apart (m m' : Mention) : Prop :=
  m.statement.stop ≤ m'.statement.start ∨ m'.statement.stop ≤ m.statement.start ∨
    m.Holds m' ∨ m'.Holds m

theorem Mention.Apart.symm {m m' : Mention} (h : m.Apart m') : m'.Apart m := by
  rcases h with h | h | h | h
  · exact .inr (.inl h)
  · exact .inl h
  · exact .inr (.inr (.inr h))
  · exact .inr (.inr (.inl h))

/-- Mentions lie between two offsets of a text, each apart from the others. -/
structure Mentions (cs : List Char) (lo hi : Nat) (ms : List Mention) : Prop where
  le : lo ≤ hi
  lies : ∀ m ∈ ms, m.Lies cs lo hi
  apart : ms.Pairwise Mention.Apart

namespace Mentions

variable {cs : List Char} {lo lo' mid hi hi' : Nat} {ms ms' : List Mention} {m : Mention}

theorem nil (h : lo ≤ hi) : Mentions cs lo hi [] := ⟨h, nofun, .nil⟩

theorem mono (h : Mentions cs lo hi ms) (hlo : lo' ≤ lo) (hhi : hi ≤ hi') :
    Mentions cs lo' hi' ms :=
  ⟨(hlo.trans h.le).trans hhi, fun m hm => { h.lies m hm with
    lo_le := hlo.trans (h.lies m hm).lo_le
    le_hi := (h.lies m hm).le_hi.trans hhi }, h.apart⟩

/-- What is found in one stretch of a text and then in the next. -/
theorem append (h : Mentions cs lo mid ms) (h' : Mentions cs mid hi ms') :
    Mentions cs lo hi (ms ++ ms') := by
  refine ⟨h.le.trans h'.le, fun m hm => ?_, List.pairwise_append.2 ⟨h.apart, h'.apart, ?_⟩⟩
  · rcases List.mem_append.1 hm with hm | hm
    · exact (h.mono (le_refl lo) h'.le).lies m hm
    · exact (h'.mono h.le (le_refl hi)).lies m hm
  · intro m hm m' hm'
    exact .inl ((h.lies m hm).le_hi.trans (h'.lies m' hm').lo_le)

/-- Some of the mentions, in any order. -/
theorem subperm (h : Mentions cs lo hi ms) (hsub : ms'.Subperm ms) : Mentions cs lo hi ms' := by
  refine ⟨h.le, fun m hm => h.lies m (hsub.subset hm), ?_⟩
  obtain ⟨some, hperm, hsome⟩ := hsub
  exact (h.apart.sublist hsome).perm hperm fun h => h.symm

theorem singleton (h : m.Lies cs lo hi) : Mentions cs lo hi [m] := by
  refine ⟨?_, fun m' hm' => List.mem_singleton.1 hm' ▸ h, List.pairwise_singleton _ _⟩
  have := h.lo_le
  have := h.start_le
  have := h.literal.lt
  have := h.le_stop
  have := h.le_hi
  omega

/-- A call is found before those behind its literal. -/
theorem cons (h : Mentions cs mid hi ms) (hm : m.Lies cs lo hi) (hdynamic : m.isDynamic = true)
    (hms : ∀ m' ∈ ms, m'.isDynamic = true) (hliteral : m.literal.stop ≤ mid)
    (hstop : hi ≤ m.statement.stop) : Mentions cs lo hi (m :: ms) := by
  have hlo : lo ≤ mid := by
    have := hm.lo_le
    have := hm.start_le
    have := hm.literal.lt
    omega
  refine ⟨hlo.trans h.le, ?_, List.pairwise_cons.2 ⟨fun m' hm' => ?_, h.apart⟩⟩
  · intro m' hm'
    rcases List.mem_cons.1 hm' with rfl | hm'
    · exact hm
    · exact (h.mono hlo (le_refl hi)).lies m' hm'
  · exact .inr (.inr (.inl ⟨hdynamic, hms m' hm', hliteral.trans (h.lies m' hm').lo_le,
      (h.lies m' hm').le_hi.trans hstop⟩))

end Mentions

/-- What calls mention lies between two offsets of a text. -/
def Calls (cs : List Char) (lo hi : Nat) (calls : List ImportCall) : Prop :=
  Mentions cs lo hi (calls.filterMap ImportCall.mention?)

namespace Calls

variable {cs : List Char} {lo lo' mid hi hi' : Nat} {calls calls' : List ImportCall}

theorem nil (h : lo ≤ hi) : Calls cs lo hi [] := Mentions.nil h

theorem le (h : Calls cs lo hi calls) : lo ≤ hi := Mentions.le h

theorem widen (h : Calls cs lo hi calls) (hlo : lo' ≤ lo) (hhi : hi ≤ hi') :
    Calls cs lo' hi' calls := Mentions.mono h hlo hhi

theorem mono (h : Calls cs lo mid calls) (hhi : mid ≤ hi) : Calls cs lo hi calls :=
  h.widen (le_refl lo) hhi

theorem append (h : Calls cs lo mid calls) (h' : Calls cs mid hi calls') :
    Calls cs lo hi (calls ++ calls') := by
  unfold Calls
  rw [List.filterMap_append]
  exact Mentions.append h h'

/-- What was found first may be listed last. -/
theorem append_swap (h : Calls cs lo mid calls') (h' : Calls cs mid hi calls) :
    Calls cs lo hi (calls ++ calls') :=
  (Mentions.append h h').subperm <| by
    rw [List.filterMap_append]
    exact List.perm_append_comm.subperm

theorem isDynamic {m : Mention} (h : m ∈ calls.filterMap ImportCall.mention?) :
    m.isDynamic = true := by
  obtain ⟨call, -, hcall⟩ := List.mem_filterMap.1 h
  obtain ⟨literal, -, rfl⟩ := Option.map_eq_some_iff.1 hcall
  rfl

end Calls

/-! ### Expressions -/

/-- The calls within an expression lie between two offsets; a string there is a literal. -/
structure Expr.Lies (e : Expr) (cs : List Char) (lo hi : Nat) : Prop where
  calls : Calls cs lo hi e.calls
  string : e.form = .string →
    e.calls = [] ∧ IsLiteral cs e.span ∧ lo ≤ e.span.start ∧ e.span.stop ≤ hi

/-- Expressions follow one another between two offsets. -/
def Follow (cs : List Char) (lo hi : Nat) : List Expr → Prop
  | [] => lo ≤ hi
  | e :: es => ∃ mid, e.Lies cs lo mid ∧ Follow cs mid hi es

section Expr

variable {cs : List Char} {lo lo' mid hi hi' : Nat} {e : Expr} {es : List Expr}

theorem Expr.Lies.widen (h : e.Lies cs lo hi) (hlo : lo' ≤ lo) (hhi : hi ≤ hi') :
    e.Lies cs lo' hi' := by
  refine ⟨h.calls.widen hlo hhi, fun hform => ?_⟩
  obtain ⟨hcalls, hliteral, hstart, hstop⟩ := h.string hform
  exact ⟨hcalls, hliteral, hlo.trans hstart, hstop.trans hhi⟩

theorem Expr.Lies.mono (h : e.Lies cs lo mid) (hhi : mid ≤ hi) : e.Lies cs lo hi :=
  h.widen (le_refl lo) hhi

theorem Expr.Lies.le (h : e.Lies cs lo hi) : lo ≤ hi := h.calls.le

/-- An expression of another form is known by its calls. -/
theorem Expr.lies_leaf {span : Span} {form : Form} {calls : List ImportCall} {inits : List Nat}
    (hform : form ≠ .string) (h : Calls cs lo hi calls) :
    (Expr.leaf span form calls inits).Lies cs lo hi :=
  ⟨h, fun h => absurd h hform⟩

theorem Follow.le (h : Follow cs lo hi es) : lo ≤ hi := by
  induction es generalizing lo with
  | nil => exact h
  | cons e es ih =>
    obtain ⟨mid, he, hes⟩ := h
    exact he.le.trans (ih hes)

theorem Follow.mono (h : Follow cs lo mid es) (hhi : mid ≤ hi) : Follow cs lo hi es := by
  induction es generalizing lo with
  | nil => exact le_trans h hhi
  | cons e es ih =>
    obtain ⟨mid', he, hes⟩ := h
    exact ⟨mid', he, ih hes⟩

theorem Follow.concat (h : Follow cs lo mid es) (he : e.Lies cs mid hi) :
    Follow cs lo hi (es ++ [e]) := by
  induction es generalizing lo with
  | nil => exact ⟨hi, he.widen h (le_refl hi), le_refl hi⟩
  | cons e' es ih =>
    obtain ⟨mid', he', hes⟩ := h
    exact ⟨mid', he', ih hes⟩

theorem Follow.calls (h : Follow cs lo hi es) : Calls cs lo hi (es.flatMap (·.calls)) := by
  induction es generalizing lo with
  | nil => exact .nil h
  | cons e es ih =>
    obtain ⟨mid, he, hes⟩ := h
    exact he.calls.append (ih hes)

end Expr

end Script
end ElementBuild
