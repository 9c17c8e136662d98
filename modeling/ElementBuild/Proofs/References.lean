/-
# The references that a scan finds

A scan lists the references that the items and the calls of a module make.  Each of them
has the extension of its target as its type, and the kind of its target
(`isTyped_of_mem_scan`).
-/
import ElementBuild.Reference.Scan
import Mathlib.Data.List.Sort

namespace ElementBuild

/-! ### Sorting -/

section SortBy

variable {α : Type} (key : α → Nat)

theorem insertBy_eq_orderedInsert (x : α) (xs : List α) :
    insertBy key x xs = xs.orderedInsert (fun a b => key a ≤ key b) x := by
  induction xs with
  | nil => rfl
  | cons y ys ih => rw [insertBy, ih, List.orderedInsert_cons]

theorem sortBy_eq_insertionSort (xs : List α) :
    sortBy key xs = xs.insertionSort fun a b => key a ≤ key b := by
  induction xs with
  | nil => rfl
  | cons x xs ih => rw [List.insertionSort_cons, ← ih, ← insertBy_eq_orderedInsert]; rfl

theorem perm_sortBy (xs : List α) : (sortBy key xs).Perm xs :=
  sortBy_eq_insertionSort key xs ▸ List.perm_insertionSort _ xs

theorem pairwise_sortBy (xs : List α) : (sortBy key xs).Pairwise fun a b => key a ≤ key b := by
  have : Std.Total fun a b => key a ≤ key b := ⟨fun a b => le_total (key a) (key b)⟩
  have : IsTrans α fun a b => key a ≤ key b := ⟨fun a b c => le_trans⟩
  rw [sortBy_eq_insertionSort]
  exact List.pairwise_insertionSort _ xs

end SortBy

/-! ### What a reference is made of -/

namespace Reference

/-- The type of a reference is the extension of its target, and its kind is that of its
target. -/
structure IsTyped (r : Reference) (types : List String) : Prop where
  sourceType : r.sourceType = (Path.mk r.target).extension?
  kind : r.kind = Target.kind types r.target

theorem isTyped_of_make? {options : ScanOptions} {code : List Char} {statement literal : Script.Span}
    {defaultBinding : Option String} {bindings : List String} {isDynamic : Bool} {r : Reference}
    (h : make? options code statement literal defaultBinding bindings isDynamic = some r) :
    r.IsTyped options.types := by
  unfold make? at h
  dsimp only at h
  split at h
  · cases h
  · cases h
    exact ⟨rfl, rfl⟩

theorem exists_make?_of_ofItem? {options : ScanOptions} {code : List Char} {item : Script.Item}
    {r : Reference} (h : ofItem? options code item = some r) :
    ∃ statement literal defaultBinding bindings isDynamic,
      make? options code statement literal defaultBinding bindings isDynamic = some r := by
  unfold ofItem? at h
  split at h
  · exact ⟨_, _, _, _, _, h⟩
  · split at h
    · exact ⟨_, _, _, _, _, h⟩
    · cases h
  · split at h
    · exact ⟨_, _, _, _, _, h⟩
    · cases h
  · split at h
    · exact ⟨_, _, _, _, _, h⟩
    · cases h
  · cases h

theorem exists_make?_of_ofCall? {options : ScanOptions} {code : List Char}
    {call : Script.ImportCall} {r : Reference} (h : ofCall? options code call = some r) :
    ∃ statement literal defaultBinding bindings isDynamic,
      make? options code statement literal defaultBinding bindings isDynamic = some r := by
  obtain ⟨literal, -, hmade⟩ := Option.bind_eq_some_iff.1 h
  exact ⟨_, _, _, _, _, hmade⟩

/-- A reference to a relative script is not absolute. -/
theorem IsTyped.isAbsolute {r : Reference} {types : List String} (h : r.IsTyped types)
    (hkind : r.kind = .plainCode) : (Path.mk r.target).isAbsolute = false := by
  have hplain : Target.isPlainCode r.target = true := by
    rw [h.kind] at hkind
    unfold Target.kind at hkind
    split at hkind
    · cases hkind
    · split at hkind
      · cases hkind
      · split at hkind
        · assumption
        · cases hkind
  unfold Target.isPlainCode at hplain
  split at hplain
  · rename_i cs htext
    rw [Path.isAbsolute, show (Path.mk r.target).text.toList = '.' :: cs from htext]
    rfl
  · cases hplain

end Reference

/-- What is computed of a scan is computed of what it has found. -/
theorem exists_scan {α : Type} {options : ScanOptions} {code : String} {f : Scan → α} {a : α}
    (h : (scan options code).toOption.map f = some a) :
    ∃ found, scan options code = .ok found ∧ f found = a := by
  cases hfound : scan options code with
  | error fault =>
    rw [hfound] at h
    cases h
  | ok found =>
    rw [hfound] at h
    exact ⟨found, rfl, Option.some.inj h⟩

theorem exists_make?_of_mem_scan {options : ScanOptions} {code : String} {found : Scan}
    (h : scan options code = .ok found) {r : Reference} (hr : r ∈ found.references) :
    ∃ statement literal defaultBinding bindings isDynamic, Reference.make? options code.toList
      statement literal defaultBinding bindings isDynamic = some r := by
  unfold scan at h
  dsimp only at h
  split at h
  · cases h
  · cases h
    rcases List.mem_append.1 ((perm_sortBy _ _).mem_iff.1 hr) with hr | hr
    · obtain ⟨item, -, hitem⟩ := List.mem_filterMap.1 hr
      exact Reference.exists_make?_of_ofItem? hitem
    · obtain ⟨call, -, hcall⟩ := List.mem_filterMap.1 hr
      exact Reference.exists_make?_of_ofCall? hcall

theorem isTyped_of_mem_scan {options : ScanOptions} {code : String} {found : Scan}
    (h : scan options code = .ok found) {r : Reference} (hr : r ∈ found.references) :
    r.IsTyped options.types := by
  obtain ⟨_, _, _, _, _, hmade⟩ := exists_make?_of_mem_scan h hr
  exact Reference.isTyped_of_make? hmade

end ElementBuild
