/-
# Steps of a walk

A walk through a tree goes over one piece of a path at a time.  The lemmas `walk_*`
say what it does at a piece, by what stands there; `find_eq_ok`, `locate_eq_ok` and
their like say what it takes for a path to lead somewhere.
-/
import ElementBuild.FileTree.Access

namespace ElementBuild
namespace FileTree

/-! ### One step of a walk -/

/-- A piece of a path that is looked up in a folder. -/
structure IsEntryName (piece : String) : Prop where
  notCurrent : piece ≠ "."
  notParent : piece ≠ ".."
  short : piece.utf8ByteSize ≤ nameLimit

section

variable (t : FileTree) (follow : Location → List String → Except FileError Found) (l : Location)
  (rest : List String)

theorem walk_current : t.walk follow l ("." :: rest) = t.walk follow l rest := by
  rw [walk_cons, if_pos rfl]

theorem walk_parent : t.walk follow l (".." :: rest) = t.walk follow l.dropLast rest := by
  rw [walk_cons, if_neg (by decide), if_pos rfl]

variable {t follow l rest} {piece : String}

theorem walk_vacant (hpiece : IsEntryName piece) (h : t.get? (l ++ [piece]) = none) :
    t.walk follow l (piece :: rest) =
      if rest.isEmpty then .ok (.vacant l piece) else .error .notFound := by
  rw [walk_cons, if_neg hpiece.notCurrent, if_neg hpiece.notParent,
    if_neg (Nat.not_lt.2 hpiece.short), h]

theorem walk_folder (hpiece : IsEntryName piece) (h : t.get? (l ++ [piece]) = some .folder) :
    t.walk follow l (piece :: rest) = t.walk follow (l ++ [piece]) rest := by
  rw [walk_cons, if_neg hpiece.notCurrent, if_neg hpiece.notParent,
    if_neg (Nat.not_lt.2 hpiece.short), h]

theorem walk_file (hpiece : IsEntryName piece) {content : Content}
    (h : t.get? (l ++ [piece]) = some (.file content)) :
    t.walk follow l (piece :: rest) =
      if rest.isEmpty then .ok (.entry (l ++ [piece])) else .error .notADirectory := by
  rw [walk_cons, if_neg hpiece.notCurrent, if_neg hpiece.notParent,
    if_neg (Nat.not_lt.2 hpiece.short), h]

theorem walk_link (hpiece : IsEntryName piece) {target : String}
    (h : t.get? (l ++ [piece]) = some (.link target)) :
    t.walk follow l (piece :: rest) =
      if target.isEmpty then .error .notFound
      else follow (if target.toList.head? = some '/' then [] else l)
        (piecesOf target.toList ++ rest) := by
  rw [walk_cons, if_neg hpiece.notCurrent, if_neg hpiece.notParent,
    if_neg (Nat.not_lt.2 hpiece.short), h]

/-- A walk that does not fail steps over a piece that means nothing or the folder
above, or looks up a name. -/
theorem walk_piece {r : Found} (h : t.walk follow l (piece :: rest) = .ok r) :
    piece = "." ∨ piece = ".." ∨ IsEntryName piece := by
  rw [walk_cons] at h
  split at h
  · exact .inl ‹_›
  · split at h
    · exact .inr (.inl ‹_›)
    · split at h
      · cases h
      · exact .inr (.inr ⟨‹_›, ‹_›, Nat.not_lt.1 ‹_›⟩)

/-- **A walk that leads to a folder goes on from there**, so it has the properties of what
follows.  A `.` at its end is as good as nothing. -/
theorem walk_append {follow : Location → List String → Except FileError Found}
    {P : Except FileError Found → Prop} {folder : Location}
    (hfolder : t.get? folder = some .folder) {us qs : List String}
    (hus : us = [] ∨ us = ["."]) (hqs : P (t.walk follow folder qs))
    (hfollow : ∀ l ps, follow l (ps ++ us) = .ok (.entry folder) → P (follow l (ps ++ qs)))
    {ps : List String} {l : Location} (hwalk : t.walk follow l (ps ++ us) = .ok (.entry folder)) :
    P (t.walk follow l (ps ++ qs)) := by
  induction ps generalizing l with
  | nil =>
    have hl : l = folder := by
      rcases hus with rfl | rfl
      · cases hwalk
        rfl
      · rw [List.nil_append, walk_current] at hwalk
        cases hwalk
        rfl
    rw [hl]
    exact hqs
  | cons p ps ih =>
    rw [List.cons_append] at hwalk ⊢
    rcases walk_piece hwalk with rfl | rfl | hp
    · rw [walk_current] at hwalk ⊢
      exact ih hwalk
    · rw [walk_parent] at hwalk ⊢
      exact ih hwalk
    · cases hget : t.get? (l ++ [p]) with
      | none =>
        rw [walk_vacant hp hget] at hwalk
        split at hwalk <;> cases hwalk
      | some e =>
        cases e with
        | folder =>
          rw [walk_folder hp hget] at hwalk ⊢
          exact ih hwalk
        | file content =>
          rw [walk_file hp hget] at hwalk
          split at hwalk
          · cases hwalk
            rw [hget] at hfolder
            cases hfolder
          · cases hwalk
        | link target =>
          rw [walk_link hp hget] at hwalk ⊢
          split at hwalk
          · cases hwalk
          · rw [if_neg ‹_›]
            rw [← List.append_assoc] at hwalk ⊢
            exact hfollow _ _ hwalk

theorem walkLinks_along {P : Except FileError Found → Prop} {folder : Location}
    (hfolder : t.get? folder = some .folder) {us qs : List String} (hus : us = [] ∨ us = ["."])
    (hqs : ∀ k, P (t.walkLinks k folder qs)) (n : Nat) {ps : List String} {l : Location}
    (hwalk : t.walkLinks n l (ps ++ us) = .ok (.entry folder)) :
    P (t.walkLinks n l (ps ++ qs)) := by
  induction n generalizing l ps with
  | zero => exact walk_append hfolder hus (hqs 0) (fun _ _ hf => by cases hf) hwalk
  | succ n ih => exact walk_append hfolder hus (hqs (n + 1)) (fun _ _ hf => ih hf) hwalk

theorem walkLinks_append {folder : Location} (hfolder : t.get? folder = some .folder)
    {us qs : List String} (hus : us = [] ∨ us = ["."]) {r : Found}
    (hqs : ∀ k, t.walkLinks k folder qs = .ok r) (n : Nat) {ps : List String} {l : Location}
    (hwalk : t.walkLinks n l (ps ++ us) = .ok (.entry folder)) :
    t.walkLinks n l (ps ++ qs) = .ok r :=
  walkLinks_along (P := (· = .ok r)) hfolder hus hqs n hwalk

end

/-! ### Where paths lead -/

end FileTree

/-- A path that is not too long. -/
def Path.Fits (p : Path) : Prop := p.text.utf8ByteSize ≤ FileTree.pathLimit

instance (p : Path) : Decidable p.Fits := inferInstanceAs (Decidable (_ ≤ _))

/-- A path that can be followed. -/
structure Path.IsUsable (p : Path) : Prop where
  nonempty : p.text ≠ ""
  clear : '\x00' ∉ p.text.toList
  fits : p.Fits

namespace FileTree

section

variable {t : FileTree} {p : Path}

theorem findPieces_eq_ok {pieces : List String} {r : Found} :
    t.findPieces p pieces = .ok r ↔ p.IsUsable ∧
      t.walkLinks linkLimit (if p.isAbsolute then [] else t.current) pieces = .ok r := by
  unfold findPieces
  split
  · rename_i hempty
    exact ⟨fun h => (by cases h), fun h => absurd (String.isEmpty_iff.1 hempty) h.1.nonempty⟩
  · rename_i hempty
    split
    · rename_i hnull
      exact ⟨fun h => (by cases h), fun h => absurd (List.contains_iff_mem.1 hnull) h.1.clear⟩
    · rename_i hnull
      split
      · rename_i hlong
        exact ⟨fun h => (by cases h), fun h => absurd h.1.fits (Nat.not_le.2 hlong)⟩
      · rename_i hlong
        exact ⟨fun h => ⟨⟨fun heq => hempty (String.isEmpty_iff.2 heq),
          fun hmem => hnull (List.contains_iff_mem.2 hmem), Nat.not_lt.1 hlong⟩, h⟩, fun h => h.2⟩

theorem find_eq_ok {r : Found} : t.find p = .ok r ↔ p.IsUsable ∧
    t.walkLinks linkLimit (if p.isAbsolute then [] else t.current) (piecesOf p.text.toList) =
      .ok r := findPieces_eq_ok

theorem locate_eq_ok {l : Location} : t.locate p = .ok l ↔ t.find p = .ok (.entry l) := by
  unfold locate
  constructor
  · intro h
    split at h
    · cases h
      assumption
    · cases h
    · cases h
  · intro h
    rw [h]

/-- What a path leads to is reached by a path that can be followed. -/
theorem isUsable_of_locate {l : Location} (h : t.locate p = .ok l) : p.IsUsable :=
  (find_eq_ok.1 (locate_eq_ok.1 h)).1

theorem canonical_eq_ok {q : Path} :
    t.canonical p = .ok q ↔ ∃ l, t.locate p = .ok l ∧ l.path = q ∧ q.Fits := by
  unfold canonical
  cases hl : t.locate p with
  | error e => simp [bind, Except.bind]
  | ok l =>
    simp only [bind, Except.bind, Except.ok.injEq, exists_eq_left']
    split
    · rename_i hlong
      exact ⟨fun h => (by cases h), fun ⟨heq, hfits⟩ => absurd (heq ▸ hfits) (Nat.not_le.2 hlong)⟩
    · rename_i hlong
      exact ⟨fun h => ⟨Except.ok.inj h, Except.ok.inj h ▸ Nat.not_lt.1 hlong⟩, fun h => h.1 ▸ rfl⟩

theorem entryAt?_eq_some {e : Entry} :
    t.entryAt? p = some e ↔ ∃ l, t.locate p = .ok l ∧ t.get? l = some e := by
  unfold entryAt?
  cases t.locate p with
  | error e => simp [Except.toOption]
  | ok l => simp [Except.toOption]

theorem isFile_iff :
    t.isFile p = true ↔ ∃ l content, t.locate p = .ok l ∧ t.get? l = some (.file content) := by
  unfold isFile
  constructor
  · intro h
    split at h
    · rename_i content hentry
      obtain ⟨l, hl, hget⟩ := entryAt?_eq_some.1 hentry
      exact ⟨l, content, hl, hget⟩
    · cases h
  · rintro ⟨l, content, hl, hget⟩
    rw [entryAt?_eq_some.2 ⟨l, hl, hget⟩]

theorem read_eq_ok {content : Content} :
    t.read p = .ok content ↔ ∃ l, t.locate p = .ok l ∧ t.get? l = some (.file content) := by
  unfold read
  cases t.locate p with
  | error e => simp [bind, Except.bind]
  | ok l =>
    simp only [bind, Except.bind, Except.ok.injEq, exists_eq_left']
    cases t.get? l with
    | none => simp
    | some e => cases e <;> simp

theorem readText_eq_ok {text : String} :
    t.readText p = .ok text ↔ ∃ l, t.locate p = .ok l ∧ t.get? l = some (.file (.text text)) := by
  unfold readText read
  cases t.locate p with
  | error e => simp [bind, Except.bind]
  | ok l =>
    simp only [bind, Except.bind, Except.ok.injEq, exists_eq_left']
    cases t.get? l with
    | none => simp
    | some e =>
      cases e with
      | folder => simp
      | link target => simp
      | file content =>
        cases content with
        | text s => simp
        | bytes bs => simp

end

end FileTree
end ElementBuild
