/-
# What writing files and making folders does

Every operation that changes a tree puts entries where they belong, one after the
other (`Changes`).  So a well-formed tree stays well-formed and grows, and once a
file is written its path leads to it (`isFile_of_write`).
-/
import ElementBuild.Proofs.FileTree.WellFormed

namespace ElementBuild
namespace FileTree

/-- A tree after some entries were put into it. -/
def Changes : FileTree → FileTree → Prop := Relation.ReflTransGen fun t t' => ∃ l, t.Puts l t'

namespace Changes

variable {t t' : FileTree} (h : t.Changes t')
include h

theorem grows : t.Grows t' := by
  induction h with
  | refl => exact refl_of Grows t
  | tail _ hput ih =>
    obtain ⟨l, hput⟩ := hput
    exact trans_of Grows ih hput.grows

theorem wellFormed (hwf : t.WellFormed) : t'.WellFormed := by
  induction h with
  | refl => exact hwf
  | tail _ hput ih =>
    obtain ⟨l, hput⟩ := hput
    exact hput.wellFormed ih

theorem link {l : Location} {target : String} (hlink : t'.get? l = some (.link target)) :
    t.get? l = some (.link target) := by
  induction h with
  | refl => exact hlink
  | tail _ hput ih =>
    obtain ⟨l', hput⟩ := hput
    exact ih (hput.link hlink)

theorem sameLinks : t.SameLinks t' :=
  ⟨h.grows.current, fun _ _ => ⟨h.grows.link, h.link⟩⟩

end Changes

/-! ### Files -/

theorem fileLocation_eq_ok {t : FileTree} (hwf : t.WellFormed) {p : Path} {l : Location}
    (h : t.fileLocation p = .ok l) : ∃ folder n, l = folder ++ [n] ∧ t.get? folder = some .folder ∧
      IsFileName n ∧ (t.get? l = none ∧ t.find p = .ok (.vacant folder n) ∨
        ∃ content, t.get? l = some (.file content) ∧ t.locate p = .ok l) := by
  unfold fileLocation at h
  dsimp only at h
  by_cases hopen : (p.text.toList.getLast? == some '/') = true
  · rw [if_pos hopen] at h
    cases hfind : t.find (withoutEndSlashes p) with
    | error e =>
      rw [hfind] at h
      cases h
    | ok r =>
      rw [hfind] at h
      cases r with
      | vacant folder n =>
        simp only [Except.bind, bind, hopen, if_true] at h
        cases h
      | entry l' =>
        simp only [Except.bind, bind, hopen, if_true] at h
        split at h <;> cases h
  · rw [if_neg hopen] at h
    cases hfind : t.find p with
    | error e =>
      rw [hfind] at h
      cases h
    | ok r =>
      rw [hfind] at h
      cases r with
      | vacant folder n =>
        simp only [Except.bind, bind, if_neg hopen] at h
        cases h
        obtain ⟨hfolder, hvacant, hn⟩ := hwf.find hfind
        exact ⟨folder, n, rfl, hfolder, hn, .inl ⟨hvacant, rfl⟩⟩
      | entry l' =>
        simp only [Except.bind, bind, if_neg hopen] at h
        split at h
        · rename_i content hget
          cases h
          rcases List.eq_nil_or_concat' l with rfl | ⟨folder, n, rfl⟩
          · cases hget
          · obtain ⟨hn, -, hfolder⟩ := hwf.entry hget
            exact ⟨folder, n, rfl, hfolder, hn, .inr ⟨content, hget, locate_eq_ok.2 hfind⟩⟩
        · cases h

/-- Once an empty place is filled, what led there leads to what was put there. -/
theorem walk_of_vacant {t t' : FileTree} (hgrows : t.Grows t') {folder : Location} {n : String}
    {content : Content} (hget : t'.get? (folder ++ [n]) = some (.file content))
    {follow follow' : Location → List String → Except FileError Found}
    (hfollow : ∀ l ps, follow l ps = .ok (.vacant folder n) →
      follow' l ps = .ok (.entry (folder ++ [n])))
    {ps : List String} {l : Location} (hwalk : t.walk follow l ps = .ok (.vacant folder n)) :
    t'.walk follow' l ps = .ok (.entry (folder ++ [n])) := by
  induction ps generalizing l with
  | nil => cases hwalk
  | cons p ps ih =>
    rcases walk_piece hwalk with rfl | rfl | hp
    · rw [walk_current] at hwalk ⊢
      exact ih hwalk
    · rw [walk_parent] at hwalk ⊢
      exact ih hwalk
    · cases hentry : t.get? (l ++ [p]) with
      | none =>
        rw [walk_vacant hp hentry] at hwalk
        split at hwalk
        · cases hwalk
          rw [walk_file hp hget, if_pos ‹_›]
        · cases hwalk
      | some e =>
        cases e with
        | folder =>
          rw [walk_folder hp hentry] at hwalk
          rw [walk_folder hp (hgrows.folder hentry)]
          exact ih hwalk
        | file content =>
          rw [walk_file hp hentry] at hwalk
          split at hwalk <;> cases hwalk
        | link target =>
          rw [walk_link hp hentry] at hwalk
          rw [walk_link hp (hgrows.link hentry)]
          split at hwalk
          · cases hwalk
          · rename_i htarget
            rw [if_neg htarget]
            exact hfollow _ _ hwalk

theorem locate_of_vacant {t t' : FileTree} (hgrows : t.Grows t') {folder : Location} {n : String}
    {content : Content} (hget : t'.get? (folder ++ [n]) = some (.file content)) {p : Path}
    (hfind : t.find p = .ok (.vacant folder n)) : t'.locate p = .ok (folder ++ [n]) := by
  obtain ⟨husable, hwalk⟩ := find_eq_ok.1 hfind
  refine locate_eq_ok.2 (find_eq_ok.2 ⟨husable, ?_⟩)
  rw [hgrows.current]
  have hlinks : ∀ (k : Nat) (l : Location) (ps : List String),
      t.walkLinks k l ps = .ok (.vacant folder n) →
        t'.walkLinks k l ps = .ok (.entry (folder ++ [n])) := by
    intro k
    induction k with
    | zero => exact fun l ps => walk_of_vacant hgrows hget fun _ _ hf => by cases hf
    | succ k ih => exact fun l ps => walk_of_vacant hgrows hget ih
  exact hlinks _ _ _ hwalk

/-- Writing puts a file where its path leads, then. -/
theorem write_eq_ok {t t' : FileTree} (hwf : t.WellFormed) {p : Path} {content : Content}
    (h : t.write p content = .ok t') :
    ∃ l, t.Puts l t' ∧ t'.locate p = .ok l ∧ t'.get? l = some (.file content) := by
  unfold write at h
  cases hl : t.fileLocation p with
  | error e =>
    rw [hl] at h
    cases h
  | ok l =>
    rw [hl] at h
    cases h
    obtain ⟨folder, n, rfl, hfolder, hn, hold⟩ := fileLocation_eq_ok hwf hl
    have hput : t.Puts (folder ++ [n]) (t.set (folder ++ [n]) (.file content)) :=
      .file content hfolder hn (hold.imp (·.1) fun ⟨old, hget, _⟩ => ⟨old, hget⟩)
    have hget : (t.set (folder ++ [n]) (.file content)).get? (folder ++ [n]) =
        some (.file content) := by
      rw [get?_set t (by simp), if_pos rfl]
    refine ⟨_, hput, ?_, hget⟩
    rcases hold with ⟨-, hfind⟩ | ⟨old, -, hlocate⟩
    · exact locate_of_vacant hput.grows hget hfind
    · exact hput.grows.locate hlocate

/-- A path that names a file to be written has no slash at its end. -/
theorem isOpen_of_fileLocation {t : FileTree} {p : Path} {l : Location}
    (h : t.fileLocation p = .ok l) : (p.text.toList.getLast? == some '/') = false := by
  by_contra hopen
  rw [Bool.not_eq_false] at hopen
  unfold fileLocation at h
  dsimp only at h
  rw [if_pos hopen] at h
  cases hfind : t.find (withoutEndSlashes p) with
  | error e =>
    rw [hfind] at h
    cases h
  | ok r =>
    rw [hfind] at h
    simp only [bind, Except.bind, hopen, if_true] at h
    cases r with
    | vacant folder name => cases h
    | entry l' =>
      dsimp only at h
      split at h <;> cases h

/-- **What was written can be written again.** -/
theorem write_again {t t' u : FileTree} (hwf : t.WellFormed) {p : Path} {content : Content}
    (h : t.write p content = .ok t') (hgrows : t'.Grows u) : ∃ l, t.Puts l t' ∧
      t'.get? l = some (.file content) ∧ u.write p content = .ok (u.set l (.file content)) := by
  obtain ⟨l, hput, hl, hget⟩ := write_eq_ok hwf h
  refine ⟨l, hput, hget, ?_⟩
  obtain ⟨old, hold⟩ := hgrows.file hget
  have hfind := locate_eq_ok.1 (hgrows.locate hl)
  have hopen : (p.text.toList.getLast? == some '/') = false := by
    unfold write at h
    cases hlocation : t.fileLocation p with
    | error e =>
      rw [hlocation] at h
      cases h
    | ok l' => exact isOpen_of_fileLocation hlocation
  have hlocation : u.fileLocation p = .ok l := by
    unfold fileLocation
    dsimp only
    rw [hopen, if_neg Bool.false_ne_true, hfind]
    simp only [bind, Except.bind, hold, Bool.false_eq_true, if_false]
  rw [write, hlocation]
  rfl

/-- A file is copied by emptying its target, and writing what the file holds then. -/
theorem copyFile_eq_ok_iff {t t' : FileTree} {source target : Path} :
    t.copyFile source target = .ok t' ↔ ∃ l old t₁ content, t.locate source = .ok l ∧
      t.get? l = some (.file old) ∧ t.write target (.text "") = .ok t₁ ∧
        t₁.get? l = some (.file content) ∧ t₁.write target content = .ok t' := by
  unfold copyFile
  constructor
  · intro h
    cases hsource : t.locate source with
    | error e =>
      rw [hsource] at h
      cases h
    | ok l =>
      rw [hsource] at h
      simp only [Except.bind, bind] at h
      split at h
      · cases hemptied : t.write target (.text "") with
        | error e =>
          rw [hemptied] at h
          cases h
        | ok t₁ =>
          rw [hemptied] at h
          dsimp only at h
          split at h
          · exact ⟨l, _, t₁, _, rfl, ‹_›, rfl, ‹_›, h⟩
          · cases h
      · cases h
  · rintro ⟨l, old, t₁, content, hsource, hold, hemptied, hcontent, hwrite⟩
    simp only [hsource, hold, hemptied, hcontent, bind, Except.bind, hwrite]

theorem copyFile_eq_ok {t t' : FileTree} (hwf : t.WellFormed) {source target : Path}
    (h : t.copyFile source target = .ok t') :
    ∃ l t₁ content, t.Puts l t₁ ∧ t₁.Puts l t' ∧ t'.locate target = .ok l ∧
      t'.get? l = some (.file content) := by
  obtain ⟨-, -, t₁, content, -, -, hemptied, -, hwrite⟩ := copyFile_eq_ok_iff.1 h
  obtain ⟨l, hput, hlocate, hget⟩ := write_eq_ok hwf hemptied
  obtain ⟨l', hput', hlocate', hget'⟩ := write_eq_ok (hput.wellFormed hwf) hwrite
  obtain rfl : l = l' := Except.ok.inj ((hput'.grows.locate hlocate).symm.trans hlocate')
  exact ⟨l, t₁, content, hput, hput', hlocate', hget'⟩

end FileTree
end ElementBuild
