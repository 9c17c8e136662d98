/-
# Trees that come again

What is done to a tree can be done again to the tree that it led to in the end.  The same
places are filled then, so each of them holds what it held the first time, or what it held
in the end (`FileTree.Recurs`): folders that were made are there, and files are written over
those that were written the first time.
-/
import ElementBuild.Proofs.FileTree.Folders

namespace ElementBuild
namespace FileTree

/-- A tree on the way to another comes again: each place holds what it held then, or what it
holds in the end. -/
structure Recurs (t e v : FileTree) : Prop where
  wellFormed : v.WellFormed
  grows : e.Grows v
  places : ∀ l, v.get? l = t.get? l ∨ v.get? l = e.get? l

namespace Recurs

variable {t t' e v : FileTree} {p : Path}

/-- The tree at the end comes again from the start. -/
theorem last (h : e.WellFormed) (t : FileTree) : t.Recurs e e :=
  ⟨h, refl_of Grows e, fun _ => .inr rfl⟩

/-- No more places are filled than in the end. -/
theorem grows_last (h : t.Recurs e v) (hgrows : t.Grows e) : v.Grows e := by
  refine ⟨h.grows.current.symm, fun l x hx => ?_⟩
  rcases h.places l with heq | heq
  · exact hgrows.entries l x (heq ▸ hx)
  · exact ⟨x, heq ▸ hx, .refl x⟩

/-- A file that was put into a tree is put into the one that comes again, in the same
place. -/
theorem set (h : t.Recurs e v) {l l' : Location} {content : Content} (hput : t.Puts l t')
    (hget : t'.get? l = some (.file content)) (hput' : v.Puts l' (v.set l (.file content))) :
    t'.Recurs e (v.set l (.file content)) := by
  have hne : l ≠ [] := by
    rintro rfl
    cases hget
  refine ⟨hput'.wellFormed h.wellFormed, trans_of Grows h.grows hput'.grows, fun m => ?_⟩
  rw [get?_set v hne]
  by_cases hm : m = l
  · rw [if_pos hm, hm, hget]
    exact .inl rfl
  · rw [if_neg hm, hput.get?_of_ne hm]
    exact h.places m

/-- A file is written again. -/
theorem write (h : t.Recurs e v) (hwf : t.WellFormed) {content : Content}
    (hwrite : t.write p content = .ok t') (hgrows : t'.Grows e) :
    ∃ l, t.Puts l t' ∧ t'.get? l = some (.file content) ∧
      v.write p content = .ok (v.set l (.file content)) ∧ t'.Recurs e (v.set l (.file content)) := by
  obtain ⟨l, hput, hget, hagain⟩ := write_again hwf hwrite (trans_of Grows hgrows h.grows)
  obtain ⟨l', hput', -, -⟩ := write_eq_ok h.wellFormed hagain
  exact ⟨l, hput, hget, hagain, h.set hput hget hput'⟩

/-- A file is copied again, if it holds the same. -/
theorem copyFile (h : t.Recurs e v) (hwf : t.WellFormed) {source : Path}
    (hcopy : t.copyFile source p = .ok t') (hgrows : t'.Grows e)
    (hread : v.read source = t.read source) :
    ∃ v', v.copyFile source p = .ok v' ∧ t'.Recurs e v' := by
  obtain ⟨m, old, t₁, content, hm, hold, hemptied, hcontent, hwrite⟩ := copyFile_eq_ok_iff.1 hcopy
  obtain ⟨l₁, hput₁, -, -⟩ := write_eq_ok hwf hemptied
  have hwf₁ := hput₁.wellFormed hwf
  obtain ⟨l₂, hput₂, -, -⟩ := write_eq_ok hwf₁ hwrite
  have hgrows₁ := trans_of Grows hput₂.grows hgrows
  obtain ⟨l, hput, hget, hagain, hrecurs⟩ := h.write hwf hemptied hgrows₁
  obtain ⟨l', -, -, hagain', hrecurs'⟩ := hrecurs.write hwf₁ hwrite hgrows
  have hm' : v.locate source = .ok m :=
    (trans_of Grows (trans_of Grows hput₁.grows hgrows₁) h.grows).locate hm
  have hsame : v.get? m = some (.file old) := by
    have hold' := read_eq_ok.2 ⟨m, hm, hold⟩
    obtain ⟨m', hm'', hgot⟩ := read_eq_ok.1 (hread.trans hold')
    rwa [Except.ok.inj (hm'.symm.trans hm'')]
  refine ⟨_, copyFile_eq_ok_iff.2 ⟨m, old, _, content, hm', hsame, hagain, ?_, hagain'⟩, hrecurs'⟩
  have hne : l ≠ [] := by
    rintro rfl
    cases hget
  rw [get?_set v hne]
  by_cases hself : m = l
  · -- a file that is copied onto itself is empty by now
    rw [if_pos hself, ← hget, ← hself, hcontent]
  · rw [if_neg hself, hsame, ← hold, ← hput.get?_of_ne hself, hcontent]

/-- A folder that was made is there. -/
theorem createFolders (h : t.Recurs e v) (hwf : t.WellFormed)
    (hmade : (t.createFolders p).2 = none) (hgrows : (t.createFolders p).1.Grows e) :
    v.createFolders p = (v, none) ∧ (t.createFolders p).1.Recurs e v := by
  refine ⟨?_, h.wellFormed, h.grows, fun l => ?_⟩
  · by_cases hempty : p.text = ""
    · obtain ⟨outer, hancestors⟩ := List.head?_eq_some_iff.1 (head?_ancestors p)
      rw [FileTree.createFolders, hancestors, createChain_cons, if_pos (String.isEmpty_iff.2 hempty)]
    · exact createFolders_of_isFolder h.wellFormed
        ((trans_of Grows hgrows h.grows).isFolder (isFolder_of_createFolders hwf hempty hmade))
  · rcases makesFolders_createFolders t p l with heq | ⟨-, hfolder⟩
    · rw [heq]
      exact h.places l
    · have hlast := hgrows.folder hfolder
      exact .inr ((h.grows.folder hlast).trans hlast.symm)

end Recurs
end FileTree
end ElementBuild
