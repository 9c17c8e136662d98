/-
# File trees that grow

A build puts files and folders where there was nothing and writes files anew.  So a
folder stays a folder, a file stays a file, and a link stays as it is
(`FileTree.Grows`), and what a path leads to stays where it is (`Grows.locate`).  Nor does
it lead anywhere else in another tree with the same links (`SameLinks.locate`).
-/
import ElementBuild.Proofs.FileTree.Walk
import Mathlib.Order.Defs.Unbundled

namespace ElementBuild

/-- The entry may become the other one: files may change what they hold. -/
def Entry.Becomes : Entry → Entry → Prop
  | .folder, e => e = .folder
  | .file _, e => ∃ content, e = .file content
  | .link target, e => e = .link target

namespace Entry.Becomes

theorem refl : ∀ e : Entry, e.Becomes e
  | .folder => rfl
  | .file content => ⟨content, rfl⟩
  | .link _ => rfl

theorem trans {e e' e'' : Entry} (h : e.Becomes e') (h' : e'.Becomes e'') : e.Becomes e'' := by
  cases e with
  | folder =>
    obtain rfl := h
    exact h'
  | file =>
    obtain ⟨content, rfl⟩ := h
    exact h'
  | link =>
    obtain rfl := h
    exact h'

end Entry.Becomes

namespace FileTree

theorem find?_setIn (l l' : Location) (e : Entry) (xs : List (Location × Entry)) :
    (setIn l e xs).find? (·.1 == l') =
      if l' = l then some (l, e) else xs.find? (·.1 == l') := by
  induction xs with
  | nil =>
    by_cases h : l' = l
    · simp [setIn, h]
    · simp [setIn, h, Ne.symm h]
  | cons x xs ih =>
    unfold setIn
    by_cases hx : x.1 = l
    · rw [if_pos hx]
      by_cases h : l' = l
      · simp [h]
      · simp [h, Ne.symm h, hx]
    · rw [if_neg hx, List.find?_cons, ih]
      by_cases h : l' = l
      · have : (x.1 == l') = false := by simpa [h] using hx
        rw [this, if_pos h, if_pos h]
      · rw [if_neg h, if_neg h, List.find?_cons]

theorem get?_set (t : FileTree) {l : Location} (hl : l ≠ []) (e : Entry) (l' : Location) :
    (t.set l e).get? l' = if l' = l then some e else t.get? l' := by
  cases l' with
  | nil => rw [if_neg (Ne.symm hl)]; rfl
  | cons n ns =>
    change ((setIn l e t.entries).find? (·.1 == n :: ns)).map (·.2) = _
    rw [find?_setIn]
    split <;> rfl

/-- A later tree of a build. -/
structure Grows (t t' : FileTree) : Prop where
  current : t'.current = t.current
  entries : ∀ l e, t.get? l = some e → ∃ e', t'.get? l = some e' ∧ e.Becomes e'

namespace Grows

instance : IsPreorder FileTree Grows where
  refl t := ⟨rfl, fun _ e h => ⟨e, h, .refl e⟩⟩
  trans _ _ _ h₁ h₂ := ⟨h₂.current.trans h₁.current, fun l e he => by
    obtain ⟨e', he', hbecomes⟩ := h₁.entries l e he
    obtain ⟨e'', he'', hbecomes'⟩ := h₂.entries l e' he'
    exact ⟨e'', he'', hbecomes.trans hbecomes'⟩⟩

theorem set {t : FileTree} {l : Location} (hl : l ≠ []) {e : Entry}
    (h : ∀ e₀, t.get? l = some e₀ → e₀.Becomes e) : t.Grows (t.set l e) := by
  refine ⟨rfl, fun l' e' he' => ?_⟩
  rw [get?_set t hl]
  by_cases heq : l' = l
  · rw [if_pos heq]
    exact ⟨e, rfl, h e' (heq ▸ he')⟩
  · rw [if_neg heq]
    exact ⟨e', he', .refl e'⟩

variable {t t' : FileTree} (h : t.Grows t')
include h

theorem folder {l : Location} (hl : t.get? l = some .folder) : t'.get? l = some .folder := by
  obtain ⟨e, he, rfl⟩ := h.entries l _ hl
  exact he

theorem file {l : Location} {content : Content} (hl : t.get? l = some (.file content)) :
    ∃ content', t'.get? l = some (.file content') := by
  obtain ⟨e, he, content', rfl⟩ := h.entries l _ hl
  exact ⟨content', he⟩

theorem link {l : Location} {target : String} (hl : t.get? l = some (.link target)) :
    t'.get? l = some (.link target) := by
  obtain ⟨e, he, rfl⟩ := h.entries l _ hl
  exact he

theorem walk {follow follow' : Location → List String → Except FileError Found}
    (hfollow : ∀ l ps l', follow l ps = .ok (.entry l') → follow' l ps = .ok (.entry l'))
    {ps : List String} {l l' : Location} (hwalk : t.walk follow l ps = .ok (.entry l')) :
    t'.walk follow' l ps = .ok (.entry l') := by
  induction ps generalizing l with
  | nil => exact hwalk
  | cons p ps ih =>
    rcases walk_piece hwalk with rfl | rfl | hp
    · rw [walk_current] at hwalk ⊢
      exact ih hwalk
    · rw [walk_parent] at hwalk ⊢
      exact ih hwalk
    · cases hget : t.get? (l ++ [p]) with
      | none =>
        rw [walk_vacant hp hget] at hwalk
        split at hwalk <;> cases hwalk
      | some e =>
        cases e with
        | folder =>
          rw [walk_folder hp hget] at hwalk
          rw [walk_folder hp (h.folder hget)]
          exact ih hwalk
        | file content =>
          obtain ⟨content', hget'⟩ := h.file hget
          rw [walk_file hp hget] at hwalk
          rw [walk_file hp hget']
          exact hwalk
        | link target =>
          rw [walk_link hp hget] at hwalk
          rw [walk_link hp (h.link hget)]
          split at hwalk
          · cases hwalk
          · rename_i htarget
            rw [if_neg htarget]
            exact hfollow _ _ _ hwalk

theorem walkLinks (n : Nat) {ps : List String} {l l' : Location}
    (hwalk : t.walkLinks n l ps = .ok (.entry l')) : t'.walkLinks n l ps = .ok (.entry l') := by
  induction n generalizing l l' ps with
  | zero => exact h.walk (fun _ _ _ hf => hf) hwalk
  | succ n ih => exact h.walk (fun _ _ _ hf => ih hf) hwalk

/-- **What a path leads to stays where it is.** -/
theorem locate {p : Path} {l : Location} (hl : t.locate p = .ok l) : t'.locate p = .ok l := by
  obtain ⟨husable, hwalk⟩ := find_eq_ok.1 (locate_eq_ok.1 hl)
  refine locate_eq_ok.2 (find_eq_ok.2 ⟨husable, ?_⟩)
  rw [h.current]
  exact h.walkLinks _ hwalk

theorem canonical {p q : Path} (hq : t.canonical p = .ok q) : t'.canonical p = .ok q := by
  obtain ⟨l, hl, hq⟩ := canonical_eq_ok.1 hq
  exact canonical_eq_ok.2 ⟨l, h.locate hl, hq⟩

theorem isFile {p : Path} (hp : t.isFile p = true) : t'.isFile p = true := by
  obtain ⟨l, content, hl, hget⟩ := isFile_iff.1 hp
  obtain ⟨content', hget'⟩ := h.file hget
  exact isFile_iff.2 ⟨l, content', h.locate hl, hget'⟩

end Grows

/-! ### Trees with the same links -/

/-- The same links stand in two trees. -/
structure SameLinks (t t' : FileTree) : Prop where
  current : t'.current = t.current
  link : ∀ l target, t.get? l = some (.link target) ↔ t'.get? l = some (.link target)

namespace SameLinks

theorem symm {t t' : FileTree} (h : t.SameLinks t') : t'.SameLinks t :=
  ⟨h.current.symm, fun l target => (h.link l target).symm⟩

theorem trans {t t' t'' : FileTree} (h : t.SameLinks t') (h' : t'.SameLinks t'') :
    t.SameLinks t'' :=
  ⟨h'.current.trans h.current, fun l target => (h.link l target).trans (h'.link l target)⟩

variable {t t' : FileTree} (h : t.SameLinks t')
include h

theorem walk {follow follow' : Location → List String → Except FileError Found}
    (hfollow : ∀ l ps l₁ l₂, follow l ps = .ok (.entry l₁) → follow' l ps = .ok (.entry l₂) → l₁ = l₂)
    {ps : List String} {l l₁ l₂ : Location} (hwalk : t.walk follow l ps = .ok (.entry l₁))
    (hwalk' : t'.walk follow' l ps = .ok (.entry l₂)) : l₁ = l₂ := by
  induction ps generalizing l with
  | nil =>
    cases hwalk
    cases hwalk'
    rfl
  | cons p ps ih =>
    rcases walk_piece hwalk with rfl | rfl | hp
    · rw [walk_current] at hwalk hwalk'
      exact ih hwalk hwalk'
    · rw [walk_parent] at hwalk hwalk'
      exact ih hwalk hwalk'
    · by_cases hlink : ∃ target, t.get? (l ++ [p]) = some (.link target)
      · obtain ⟨target, hlink⟩ := hlink
        rw [walk_link hp hlink] at hwalk
        rw [walk_link hp ((h.link _ _).1 hlink)] at hwalk'
        split at hwalk
        · cases hwalk
        · rename_i htarget
          rw [if_neg htarget] at hwalk'
          exact hfollow _ _ _ _ hwalk hwalk'
      · -- what is no link leads to the same place, whether it is a folder or a file
        have hgoes : ∀ {u : FileTree} {follow : Location → List String → Except FileError Found}
            {l' : Location}, (∀ target, u.get? (l ++ [p]) ≠ some (.link target)) →
            u.walk follow l (p :: ps) = .ok (.entry l') →
              u.walk follow (l ++ [p]) ps = .ok (.entry l') := by
          intro u follow l' hlink hwalk
          cases hget : u.get? (l ++ [p]) with
          | none =>
            rw [walk_vacant hp hget] at hwalk
            split at hwalk <;> cases hwalk
          | some e =>
            cases e with
            | folder => rwa [walk_folder hp hget] at hwalk
            | file content =>
              rw [walk_file hp hget] at hwalk
              split at hwalk
              · rename_i hempty
                rw [List.isEmpty_iff.1 hempty]
                exact hwalk
              · cases hwalk
            | link target => exact absurd hget (hlink target)
        refine ih (hgoes (fun target hget => hlink ⟨target, hget⟩) hwalk)
          (hgoes (fun target hget => hlink ⟨target, (h.link _ _).2 hget⟩) hwalk')

theorem walkLinks (n : Nat) {ps : List String} {l l₁ l₂ : Location}
    (hwalk : t.walkLinks n l ps = .ok (.entry l₁))
    (hwalk' : t'.walkLinks n l ps = .ok (.entry l₂)) : l₁ = l₂ := by
  induction n generalizing l l₁ l₂ ps with
  | zero => exact h.walk (fun _ _ _ _ hf => by cases hf) hwalk hwalk'
  | succ n ih => exact h.walk (fun _ _ _ _ hf hf' => ih hf hf') hwalk hwalk'

/-- **Where the same links stand, a path leads to one place at most.** -/
theorem locate {p : Path} {l l' : Location} (hl : t.locate p = .ok l)
    (hl' : t'.locate p = .ok l') : l = l' := by
  obtain ⟨-, hwalk⟩ := find_eq_ok.1 (locate_eq_ok.1 hl)
  obtain ⟨-, hwalk'⟩ := find_eq_ok.1 (locate_eq_ok.1 hl')
  rw [h.current] at hwalk'
  exact h.walkLinks _ hwalk hwalk'

end SameLinks

end FileTree
end ElementBuild
