/-
# Specifiers that read as paths

The specifier of a target opens with a dot, for `./` is put before it unless it does already.
The dot of a `..` makes it relative, and so does that of the `./`; but the name of a folder may
open with a dot as well.  So the specifier of a target in such a folder, seen from the one that
holds it, reads as a path below a package (`reads_as_path_iff`).
-/
import ElementBuild.Proofs.PlainCode
import Mathlib.Data.List.TakeWhile

namespace ElementBuild

namespace Specifier

theorem cut_of_not_mem {cs : List Char} (h : '/' ∉ cs) : cut cs = (cs, none) := by
  have hall : ∀ c ∈ cs, decide (c ≠ '/') = true := fun c hc =>
    decide_eq_true fun heq => h (heq ▸ hc)
  rw [cut, List.span_eq_takeWhile_dropWhile, List.takeWhile_eq_self_iff.2 hall,
    List.dropWhile_eq_nil_iff.2 hall]

/-- What stands before the first slash is the first piece. -/
theorem head?_pieces (cs : List Char) : (Path.pieces cs).head? = some (cut cs).1 := by
  by_cases h : '/' ∈ cs
  · obtain ⟨first, rest, rfl, hslash⟩ := List.eq_append_cons_of_mem h
    rw [Path.pieces_append_slash, Path.pieces_of_not_mem hslash, cut_append hslash]
    rfl
  · rw [Path.pieces_of_not_mem h, cut_of_not_mem h]
    rfl

/-- A package whose name does not open with `@` is named by the first piece. -/
theorem splitPackage_fst {s name : String} (h : (Path.pieces s.toList).head? = some name.toList)
    (hat : name.toList.head? ≠ some '@') : (splitPackage s).1 = name := by
  have hfirst : (cut s.toList).1 = name.toList := Option.some.inj ((head?_pieces _).symm.trans h)
  rw [splitPackage]
  split
  rename_i first rest hcut
  obtain rfl : first = name.toList := by rw [← hfirst, hcut]
  split
  · rename_i hopens
    exact absurd hopens hat
  · exact String.ofList_toList

end Specifier

namespace Path

variable {a b : Path}

/-- The first name on a way that opens with a dot is taken for a package. -/
theorem splitPackage_dotted {name : String} {rest : List Segment}
    (h : ∀ m ∈ Segment.name name :: rest, m.IsMove) (hdot : name.toList.head? = some '.') :
    (Specifier.splitPackage (dotted (textOf (.name name :: rest)))).1 = name := by
  have hopens : (textOf (.name name :: rest)).toList.head? = some '.' := (head?_textOf h).trans hdot
  rw [dotted, if_pos hopens]
  exact Specifier.splitPackage_fst (head?_pieces_textOf h) (by simp [hdot])

/-- **When a specifier reads as a path.**  From an absolute folder that stays below the root there
is a specifier to every absolute path, and it opens with a dot.  It is relative unless the path
lies below the folder and the first name on the way to it opens with a dot; then that name is
taken for the name of a package. -/
theorem reads_as_path_iff (ha : a.isAbsolute = true) (hstays : a.StaysBelowRoot)
    (hb : b.isAbsolute = true) :
    ∃ s, specifierFrom? a b = some s ∧ s.toList.head? = some '.' ∧
      (Specifier.isRelative s = true ↔ ¬ b.IsHiddenBelow a) ∧
      ∀ name rest, name.toList.head? = some '.' →
        b.normalize.segments = a.normalize.segments ++ .name name :: rest →
        (Specifier.splitPackage s).1 = name := by
  obtain ⟨way, hmoves, hspecifier, hdescends⟩ :=
    exists_specifierFrom ha (hstays.parent_notMem ha) hb
  refine ⟨_, hspecifier, head?_dotted _, ?_, fun name rest hdot hbelow => ?_⟩
  · rw [isRelative_dotted_iff hmoves, IsHiddenBelow]
    simp only [hdescends]
  · obtain rfl := (hdescends name rest).2 hbelow
    exact splitPackage_dotted hmoves hdot

/-- A module in a hidden folder of the neighbour is reached by climbing first. -/
theorem reads_as_path_of_neighbour :
    (⟨"/out/a_a"⟩ : Path).StaysBelowRoot ∧
      ∃ s, specifierFrom? ⟨"/out/a_a"⟩ ⟨"/out/b_b/.cache/index.js"⟩ = some s ∧
        Specifier.isRelative s = true := by
  have hstays : (⟨"/out/a_a"⟩ : Path).StaysBelowRoot := by decide
  have hvisible : ¬ (⟨"/out/b_b/.cache/index.js"⟩ : Path).IsHiddenBelow ⟨"/out/a_a"⟩ :=
    fun hhidden => absurd hhidden.isBelow (by decide +kernel)
  obtain ⟨s, hs, -, hrelative, -⟩ :=
    reads_as_path_iff (b := ⟨"/out/b_b/.cache/index.js"⟩) (by decide) hstays (by decide)
  exact ⟨hstays, s, hs, hrelative.2 hvisible⟩

/-- **A module in a hidden folder right below is named like one of a package.** -/
theorem reads_as_package_of_hiddenFolder :
    (⟨"/out/main"⟩ : Path).StaysBelowRoot ∧ (⟨"/out/main/.vendor/a.js"⟩ : Path).StaysBelowRoot ∧
      specifierFrom? ⟨"/out/main"⟩ ⟨"/out/main/.vendor/a.js"⟩ = some ".vendor/a.js" ∧
      ¬ Specifier.isRelative ".vendor/a.js" = true := by
  decide +kernel

end Path
end ElementBuild
