/-
# Where the references of a module stand

References are listed by the start of their statements, and their literals are used as edits of
the text one after the other.  So a literal has to be a part of the text in quotes, and behind the
one before it.  Both hold of a text that no byte order mark opens (`scan_precedes`): what a module
mentions lies in the text as it was read, each mention apart from the others
(`Script.exists_mentions`), and the references are some of the mentions (`subperm_mentions`).

Statements do not have to stand clear of one another: a call may have another one among its
arguments.
-/
import ElementBuild.Proofs.References
import ElementBuild.Proofs.Script.Items
import Mathlib.Data.List.Perm.Basic

namespace ElementBuild

open Text (IsBoundary byteLength)
open Script (Mention Mentions Span)

namespace Reference

/-- The ranges of a reference are parts of a text, the literal of the statement; between two
quotes of one kind the literal has the target. -/
structure IsWritten (r : Reference) (code : List Char) : Prop where
  start : IsBoundary code r.statement.start
  stop : IsBoundary code r.statement.stop
  literalStart : IsBoundary code r.literal.start
  literalStop : IsBoundary code r.literal.stop
  start_le : r.statement.start ≤ r.literal.start
  le_stop : r.literal.stop ≤ r.statement.stop
  quoted : ∃ quote, (quote = '"' ∨ quote = '\'') ∧
    Text.slice? code r.literal.start r.literal.stop = some (quote :: (r.target.toList ++ [quote]))

/-- One reference stands before another: it begins before it, its literal ends before the literal
of the other begins, and so do the statements, or else a call has the other call among its
arguments, behind its literal. -/
structure Precedes (r r' : Reference) : Prop where
  start : r.statement.start < r'.statement.start
  literal : r.literal.stop ≤ r'.literal.start
  statement : r.statement.stop ≤ r'.statement.start ∨
    r.isDynamic = true ∧ r'.isDynamic = true ∧
      r.literal.stop ≤ r'.statement.start ∧ r'.statement.stop ≤ r.statement.stop

/-- What a reference was made of. -/
def mention (r : Reference) : Mention := ⟨r.statement, r.literal, r.isDynamic⟩

/-! ### References are mentions -/

section Mentions

variable (options : ScanOptions) (code : List Char)

/-- The references that an item makes, those of its calls last. -/
def ofItem (item : Script.Item) : List Reference :=
  (ofItem? options code item).toList ++ item.calls.filterMap (ofCall? options code)

theorem mention_of_make? {options : ScanOptions} {code : List Char} {statement literal : Span}
    {defaultBinding : Option String} {bindings : List String} {isDynamic : Bool} {r : Reference}
    (h : make? options code statement literal defaultBinding bindings isDynamic = some r) :
    some ⟨statement, literal, isDynamic⟩ = some r.mention := by
  unfold make? at h
  dsimp only at h
  split at h
  · cases h
  · cases h
    rfl

theorem mention?_of_ofItem? {item : Script.Item} {r : Reference}
    (h : ofItem? options code item = some r) : item.mention? = some r.mention := by
  unfold ofItem? at h
  split at h
  · exact mention_of_make? h
  · split at h
    · exact mention_of_make? h
    · cases h
  · split at h
    · exact mention_of_make? h
    · cases h
  · split at h
    · exact mention_of_make? h
    · cases h
  · cases h

theorem mention?_of_ofCall? {call : Script.ImportCall} {r : Reference}
    (h : ofCall? options code call = some r) : call.mention? = some r.mention := by
  obtain ⟨literal, hliteral, hmade⟩ := Option.bind_eq_some_iff.1 h
  unfold Script.ImportCall.mention?
  rw [hliteral, Option.map_some]
  exact mention_of_make? hmade

theorem sublist_toList {o : Option Reference} {o' : Option Mention}
    (h : ∀ r, o = some r → o' = some r.mention) : (o.toList.map mention).Sublist o'.toList := by
  cases o with
  | none => exact List.nil_sublist _
  | some r => rw [h r rfl, Option.toList_some, Option.toList_some, List.map_singleton]

theorem sublist_flatMap {α β : Type} {f g : α → List β} (h : ∀ a, (f a).Sublist (g a))
    (xs : List α) : (xs.flatMap f).Sublist (xs.flatMap g) := by
  induction xs with
  | nil => exact List.Sublist.refl _
  | cons x xs ih => exact (h x).append ih

theorem sublist_ofItem (item : Script.Item) :
    ((ofItem options code item).map mention).Sublist item.mentions := by
  unfold ofItem Script.Item.mentions
  rw [List.map_append, List.filterMap_eq_flatMap_toList, List.filterMap_eq_flatMap_toList,
    List.map_flatMap]
  refine (sublist_toList fun r => mention?_of_ofItem? options code).append ?_
  refine sublist_flatMap (fun call => ?_) item.calls
  exact sublist_toList fun r => mention?_of_ofCall? options code

/-- The references of a module are some of its mentions, in another order. -/
theorem subperm_mentions (m : Script.Module) :
    ((m.items.filterMap (ofItem? options code) ++ m.calls.filterMap (ofCall? options code)).map
      mention).Subperm (m.items.flatMap Script.Item.mentions) := by
  have hperm : (m.items.filterMap (ofItem? options code) ++
      m.calls.filterMap (ofCall? options code)).Perm (m.items.flatMap (ofItem options code)) := by
    unfold Script.Module.calls
    rw [List.filterMap_eq_flatMap_toList, List.filterMap_flatMap]
    exact List.flatMap_append_perm _ _ _
  refine (hperm.map mention).subperm.trans (List.Sublist.subperm ?_)
  rw [List.map_flatMap]
  exact sublist_flatMap (sublist_ofItem options code) m.items

end Mentions

/-! ### Where they stand -/

theorem target_of_make? {options : ScanOptions} {code : List Char} {statement literal : Span}
    {defaultBinding : Option String} {bindings : List String} {isDynamic : Bool} {r : Reference}
    (h : make? options code statement literal defaultBinding bindings isDynamic = some r) :
    r.target = unquoted code r.literal := by
  unfold make? at h
  dsimp only at h
  split at h
  · cases h
  · cases h
    rfl

/-- What stands between the quotes of a literal. -/
theorem unquoted_eq {before body rest : List Char} {quote : Char} {literal : Span}
    (hquote : quote.utf8Size = 1) (hstart : byteLength before = literal.start)
    (hstop : literal.start + byteLength (quote :: (body ++ [quote])) = literal.stop) :
    unquoted (before ++ (quote :: (body ++ [quote]) ++ rest)) literal = String.ofList body := by
  have hcode : before ++ (quote :: (body ++ [quote]) ++ rest) =
      (before ++ [quote]) ++ (body ++ (quote :: rest)) := by
    simp only [List.append_assoc, List.cons_append, List.nil_append]
  have hbody : literal.start + 1 = byteLength (before ++ [quote]) := by
    rw [Text.byteLength_append, Text.byteLength_cons, Text.byteLength_nil, hquote, hstart]
  have hend : literal.stop - 1 = byteLength (before ++ [quote]) + byteLength body := by
    rw [Text.byteLength_cons, Text.byteLength_append, Text.byteLength_cons, Text.byteLength_nil,
      hquote] at hstop
    omega
  unfold unquoted
  rw [hbody, hend, hcode, Text.slice?_append, Option.getD_some]

theorem isWritten {options : ScanOptions} {code : List Char} {statement literal : Span}
    {defaultBinding : Option String} {bindings : List String} {isDynamic : Bool} {r : Reference}
    (hmade : make? options code statement literal defaultBinding bindings isDynamic = some r)
    {lo hi : Nat} (hlies : r.mention.Lies code lo hi) : r.IsWritten code := by
  obtain ⟨before, own, rest, rfl, hstart, hstop, quote, body, hquote, rfl⟩ := hlies.literal
  have hsize : quote.utf8Size = 1 := by
    rcases hquote with rfl | rfl
    · rfl
    · rfl
  have htarget : r.target = String.ofList body :=
    (target_of_make? hmade).trans (unquoted_eq hsize hstart hstop)
  refine ⟨hlies.start, hlies.stop, ⟨before, _, rfl, hstart⟩,
    ⟨before ++ quote :: (body ++ [quote]), rest, ?_, ?_⟩, hlies.start_le, hlies.le_stop, quote,
    hquote, ?_⟩
  · rw [List.append_assoc]
  · rw [Text.byteLength_append, hstart]
    exact hstop
  · have hslice := Text.slice?_append before (quote :: (body ++ [quote])) rest
    rw [hstart, hstop] at hslice
    rw [htarget, String.toList_ofList]
    exact hslice

/-- Mentions that are apart stand one before the other. -/
theorem precedes {r r' : Reference} {code : List Char} {lo hi : Nat} (h : r.mention.Lies code lo hi)
    (h' : r'.mention.Lies code lo hi) (hle : r.statement.start ≤ r'.statement.start)
    (hapart : r.mention.Apart r'.mention) : r.Precedes r' := by
  have hstart : r.statement.start ≤ r.literal.start := h.start_le
  have hlt : r.literal.start < r.literal.stop := h.literal.lt
  have hstop : r.literal.stop ≤ r.statement.stop := h.le_stop
  have hstart' : r'.statement.start ≤ r'.literal.start := h'.start_le
  have hlt' : r'.literal.start < r'.literal.stop := h'.literal.lt
  have hstop' : r'.literal.stop ≤ r'.statement.stop := h'.le_stop
  rcases hapart with hbefore | hbehind | ⟨hdynamic, hdynamic', hholds, hwithin⟩ | ⟨-, -, hheld, -⟩
  · have hbefore : r.statement.stop ≤ r'.statement.start := hbefore
    exact ⟨by omega, by omega, .inl hbefore⟩
  · have hbehind : r'.statement.stop ≤ r.statement.start := hbehind
    omega
  · have hholds : r.literal.stop ≤ r'.statement.start := hholds
    exact ⟨by omega, by omega, .inr ⟨hdynamic, hdynamic', hholds, hwithin⟩⟩
  · have hheld : r'.literal.stop ≤ r.statement.start := hheld
    omega

end Reference

theorem withoutMark_eq {cs : List Char} (h : cs.head? ≠ some '\ufeff') :
    Script.withoutMark cs = cs := by
  unfold Script.withoutMark
  split
  · exact absurd rfl h
  · rfl

/-- **The references of a scan stand one before the other**, each of them written in the text
where it says, if no byte order mark opens the text. -/
theorem scan_precedes {options : ScanOptions} {code : String} {found : Scan}
    (hmark : code.toList.head? ≠ some '\ufeff') (h : scan options code = .ok found) :
    (∀ r ∈ found.references, r.IsWritten code.toList) ∧
      found.references.Pairwise Reference.Precedes := by
  have hmade := fun r => @exists_make?_of_mem_scan options code found h r
  unfold scan at h
  dsimp only at h
  split at h
  · cases h
  rename_i m hparse
  obtain ⟨hi, hmentions⟩ := Script.exists_mentions hparse
  rw [withoutMark_eq hmark] at hmentions
  obtain rfl := Except.ok.inj h
  set made := m.items.filterMap (Reference.ofItem? options code.toList) ++
    m.calls.filterMap (Reference.ofCall? options code.toList)
  have hsome : Mentions code.toList 0 hi
      ((sortBy (·.statement.start) made).map Reference.mention) :=
    hmentions.subperm (((perm_sortBy _ made).map _).subperm.trans
      (Reference.subperm_mentions options code.toList m))
  have hlies : ∀ r ∈ sortBy (·.statement.start) made, r.mention.Lies code.toList 0 hi :=
    fun r hr => hsome.lies _ (List.mem_map_of_mem hr)
  constructor
  · intro r hr
    obtain ⟨_, _, _, _, _, hr'⟩ := hmade r hr
    exact Reference.isWritten hr' (hlies r hr)
  · refine ((pairwise_sortBy _ made).and (List.pairwise_map.1 hsome.apart)).imp_of_mem ?_
    intro r r' hr hr' h
    exact Reference.precedes (hlies r hr) (hlies r' hr') h.1 h.2

/-- A call that has another one among its arguments. -/
def nestedCalls : String := "import('./a.js', import('./b.js'))"

theorem exists_scan_nestedCalls : ∃ found, scan {} nestedCalls = .ok found ∧
    found.references.map (·.statement) = [⟨0, 34⟩, ⟨17, 33⟩] := by
  have h : (scan {} nestedCalls).toOption.map (·.references.map (·.statement)) =
      some [⟨0, 34⟩, ⟨17, 33⟩] := by
    decide +kernel
  exact exists_scan h

theorem scan_precedes_of_nestedCalls : ∃ found, scan {} nestedCalls = .ok found ∧
    nestedCalls.toList.head? ≠ some '\ufeff' ∧ found.references.length = 2 ∧
      (∀ r ∈ found.references, r.IsWritten nestedCalls.toList) ∧
        found.references.Pairwise Reference.Precedes := by
  obtain ⟨found, hfound, hstatements⟩ := exists_scan_nestedCalls
  have hmark : nestedCalls.toList.head? ≠ some '\ufeff' := by decide
  have hlength := congrArg List.length hstatements
  rw [List.length_map] at hlength
  exact ⟨found, hfound, hmark, hlength, scan_precedes hmark hfound⟩

/-- The ranges of the two calls overlap. -/
theorem overlaps_of_nestedCalls : ∃ found, scan {} nestedCalls = .ok found ∧
    ¬ found.references.Pairwise fun r r' =>
      r.statement.stop ≤ r'.statement.start ∨ r'.statement.stop ≤ r.statement.start := by
  obtain ⟨found, hfound, hstatements⟩ := exists_scan_nestedCalls
  refine ⟨found, hfound, fun hapart => ?_⟩
  have hspans : ([⟨0, 34⟩, ⟨17, 33⟩] : List Span).Pairwise fun s s' =>
      s.stop ≤ s'.start ∨ s'.stop ≤ s.start := by
    rw [← hstatements]
    exact List.pairwise_map.2 hapart
  revert hspans
  decide

end ElementBuild
