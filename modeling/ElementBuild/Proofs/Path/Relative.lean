/-
# Relative paths lead to their targets

Between absolute paths there are steps as long as the folder that they start from is cleaned of
every `..`, which they could not undo (`exists_relativeTo`).  They climb out of the folder to
where the two part and descend to the target, so the text that spells them leads to the target
again (`relative_leads_to_target`).
-/
import ElementBuild.Proofs.Path.Inside

namespace ElementBuild
namespace Path

variable {a b : Path}

/-- There is a relative path from a folder to any path, if the folder does not climb. -/
theorem exists_relativeTo (ha : a.isAbsolute = true) (hstays : .parent ∉ clean a.segments)
    (hb : b.isAbsolute = true) :
    ∃ way, (∀ m ∈ way, m.IsMove) ∧ steps (clean b.segments) (clean a.segments) = some way ∧
      relativeTo? a b = some (textOf way) := by
  obtain ⟨as, has⟩ := exists_names_of_absolute ha hstays
  obtain ⟨bs, hbs, hclean⟩ := exists_moves_of_absolute hb
  obtain ⟨way, hway, hmoves, -⟩ := steps_from_names hbs as
  have hsteps : steps (clean b.segments) (clean a.segments) = some way := by
    rw [has, hclean, steps, if_pos rfl, hway]
  exact ⟨way, hmoves, hsteps, (relativeTo?_eq_some_iff ha hb).2 ⟨way, hsteps, rfl⟩⟩

/-- A path that stays below the root is cleaned of every `..`. -/
theorem StaysBelowRoot.parent_notMem (h : a.StaysBelowRoot) (ha : a.isAbsolute = true) :
    .parent ∉ clean a.segments := by
  rw [clean_segments_eq, ground_of_absolute ha, staysBelowRoot_iff.1 h]
  simp

/-- **A relative path leads to its target.**  From an absolute folder that stays below the root
there is a relative path to every absolute path, and joined to the folder it names that path. -/
theorem relative_leads_to_target (ha : a.isAbsolute = true) (hstays : a.StaysBelowRoot)
    (hb : b.isAbsolute = true) :
    ∃ relative, relativeTo? a b = some relative ∧
      (a.join ⟨relative⟩).normalize = b.normalize := by
  obtain ⟨way, hmoves, hsteps, hrelative⟩ := exists_relativeTo ha (hstays.parent_notMem ha) hb
  have hleads : steps (clean b.segments) (clean a.segments) = some (ofSegments way).moves := by
    rw [hsteps, moves_ofSegments hmoves]
  exact ⟨textOf way, hrelative,
    normalize_join_of_steps ha hb (isAbsolute_ofSegments hmoves) hleads⟩

/-- A module of another folder, with paths that are not clean. -/
theorem relative_leads_to_neighbour :
    (⟨"/out/a_a/./x/.."⟩ : Path).StaysBelowRoot ∧
    ∃ relative, relativeTo? ⟨"/out/a_a/./x/.."⟩ ⟨"/out//lib/../b_b/index.js"⟩ = some relative ∧
      (Path.join ⟨"/out/a_a/./x/.."⟩ ⟨relative⟩).normalize =
        (⟨"/out//lib/../b_b/index.js"⟩ : Path).normalize :=
  ⟨by decide, relative_leads_to_target (by decide) (by decide) (by decide)⟩

/-- There is no such path from above the root to a place below it. -/
example : relativeTo? ⟨"/.."⟩ ⟨"/a"⟩ = none := by decide

end Path
end ElementBuild
