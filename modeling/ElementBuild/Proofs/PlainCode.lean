/-
# Which targets are plain code

The pattern of plain code asks for a dot, for a slash further on, and for a last part without
dots behind it, or with the ending of a script (`isPlainCode_iff`).  It leaves open what stands
between the dot and the first slash.  So a target whose first part is a dot or two is relative,
and any other one names a package whose name opens with a dot, which is looked for in the
`node_modules` folders (`search_of_plainCode`).
-/
import ElementBuild.Proofs.ComponentTargets
import ElementBuild.Proofs.Mapping.Destination
import ElementBuild.Proofs.Packages
import ElementBuild.Proofs.References
import Mathlib.Data.List.TakeDrop

namespace ElementBuild

/-! ### The first part of a specifier -/

namespace Specifier

theorem cut_append {first rest : List Char} (h : '/' ∉ first) :
    cut (first ++ '/' :: rest) = (first, some rest) := by
  have hfirst : ∀ c ∈ first, (decide (c ≠ '/')) = true := fun c hc =>
    decide_eq_true fun heq => h (heq ▸ hc)
  rw [cut, List.span_eq_takeWhile_dropWhile, List.takeWhile_append_of_pos hfirst,
    List.dropWhile_append_of_pos hfirst]
  simp

/-- A name that does not open with `@` ends at the first slash. -/
theorem splitPackage_append {first rest : String} (hslash : '/' ∉ first.toList)
    (hat : first.toList.head? ≠ some '@') :
    splitPackage (first ++ "/" ++ rest) = (first, some rest) := by
  have hcut : cut (first ++ "/" ++ rest).toList = (first.toList, some rest.toList) := by
    rw [String.append_assoc, String.toList_append, String.toList_append]
    exact cut_append hslash
  rw [splitPackage, hcut]
  dsimp only
  split
  · rename_i heq _
    exact absurd heq hat
  · simp

/-- A specifier with a slash is relative if a dot or two stand before the first one. -/
theorem isRelative_append_iff {first rest : String} (hslash : '/' ∉ first.toList) :
    isRelative (first ++ "/" ++ rest) = true ↔ first = "." ∨ first = ".." := by
  have hpieces : (Path.pieces (first ++ "/" ++ rest).toList).head? = some first.toList := by
    rw [String.append_assoc, String.toList_append, String.toList_append,
      show "/".toList = ['/'] from rfl, List.singleton_append, Path.pieces_append_slash,
      Path.pieces_of_not_mem hslash]
    rfl
  rw [Path.isRelative_iff_pieces, hpieces, Option.some.injEq, Option.some.injEq,
    ← String.toList_inj, ← String.toList_inj]
  rfl

theorem exists_first {s : String} (h : '/' ∈ s.toList) :
    ∃ first rest : String, s = first ++ "/" ++ rest ∧ '/' ∉ first.toList := by
  obtain ⟨first, rest, hs, hslash⟩ := List.eq_append_cons_of_mem h
  refine ⟨String.ofList first, String.ofList rest, ?_, by rwa [String.toList_ofList]⟩
  rw [← String.toList_inj, hs]
  simp

end Specifier

/-! ### The pattern -/

namespace Target

theorem endsPlain_iff {cs : List Char} : endsPlain cs = true ↔
    ∃ folders last, cs = folders ++ '/' :: last ∧ '\n' ∉ folders ∧ last ≠ [] ∧ '.' ∉ last := by
  induction cs with
  | nil => simp [endsPlain]
  | cons c cs ih =>
    simp only [endsPlain, Bool.or_eq_true, Bool.and_eq_true, beq_iff_eq, bne_iff_ne, ih,
      Bool.not_eq_true', List.isEmpty_eq_false_iff, List.contains_eq_mem, decide_eq_false_iff_not]
    constructor
    · rintro (⟨⟨rfl, hne⟩, hdot⟩ | ⟨hline, folders, last, rfl, hfolders, hlast⟩)
      · exact ⟨[], cs, rfl, List.not_mem_nil, hne, hdot⟩
      · exact ⟨c :: folders, last, rfl, by simp [Ne.symm hline, hfolders], hlast⟩
    · rintro ⟨folders, last, heq, hfolders, hne, hdot⟩
      cases folders with
      | nil =>
        cases heq
        exact .inl ⟨⟨rfl, hne⟩, hdot⟩
      | cons d folders =>
        cases heq
        rw [List.mem_cons, not_or] at hfolders
        exact .inr ⟨Ne.symm hfolders.1, folders, last, rfl, hfolders.2, hne, hdot⟩

/-- Plain code has a dot, anything on one line, a slash, and a last part without dots, behind
which `.js` may stand. -/
theorem isPlainCode_iff {target : String} : isPlainCode target = true ↔
    ∃ folders last ending : List Char, target.toList = '.' :: (folders ++ '/' :: last ++ ending) ∧
      '\n' ∉ folders ∧ last ≠ [] ∧ '.' ∉ last ∧ (ending = [] ∨ ending = ".js".toList) := by
  unfold isPlainCode
  split
  · rename_i cs htext
    rw [Bool.or_eq_true, Option.any_eq_true, endsPlain_iff, htext]
    constructor
    · rintro (⟨folders, last, rfl, hfolders, hne, hdot⟩ | ⟨stem, hstem, hends⟩)
      · exact ⟨folders, last, [], by simp, hfolders, hne, hdot, .inl rfl⟩
      · obtain rfl := dropSuffix?_eq_some_iff.1 hstem
        obtain ⟨folders, last, rfl, hfolders, hne, hdot⟩ := endsPlain_iff.1 hends
        exact ⟨folders, last, _, rfl, hfolders, hne, hdot, .inr rfl⟩
    · rintro ⟨folders, last, ending, heq, hfolders, hne, hdot, hending⟩
      obtain rfl := List.tail_eq_of_cons_eq heq
      rcases hending with rfl | rfl
      · exact .inl ⟨folders, last, List.append_nil _, hfolders, hne, hdot⟩
      · exact .inr ⟨_, dropSuffix?_eq_some_iff.2 rfl,
          endsPlain_iff.2 ⟨folders, last, rfl, hfolders, hne, hdot⟩⟩
  · rename_i hdot
    refine iff_of_false Bool.false_ne_true ?_
    rintro ⟨_, _, _, htext, -⟩
    exact hdot _ htext

/-- Plain code is what neither a component nor an asset is. -/
theorem kind_eq_plainCode_iff {types : List String} {target : String} :
    kind types target = .plainCode ↔ (∀ type ∈ types, isComponent type target = false) ∧
      isAsset target = false ∧ isPlainCode target = true := by
  rw [kind]
  split
  · rename_i hcomponent
    obtain ⟨type, htype, hyes⟩ := List.any_eq_true.1 hcomponent
    refine iff_of_false (by simp) fun h => ?_
    rw [h.1 type htype] at hyes
    cases hyes
  · rename_i hcomponent
    have hnone : ∀ type ∈ types, isComponent type target = false := fun type htype =>
      Bool.eq_false_iff.2 fun hyes => hcomponent (List.any_eq_true.2 ⟨type, htype, hyes⟩)
    split
    · rename_i hasset
      exact iff_of_false (by simp) fun h => by simp [hasset] at h
    · rename_i hasset
      split
      · rename_i hplain
        exact iff_of_true rfl ⟨hnone, Bool.eq_false_iff.2 hasset, hplain⟩
      · rename_i hplain
        exact iff_of_false (by simp) fun h => hplain h.2.2

/-- **Where plain code is looked for.**  The part of a plain code target before its first slash
opens with a dot.  The target is relative, and is looked for in the given folders, if and only
if that part is a dot or two; otherwise the part is taken for the name of a package, which is
looked for in the `node_modules` folders from the given ones upwards. -/
theorem search_of_plainCode {types : List String} {target : String}
    (h : kind types target = .plainCode) :
    ∃ first rest : String, target = first ++ "/" ++ rest ∧ '/' ∉ first.toList ∧
      first.toList.head? = some '.' ∧
      (Specifier.isRelative target = true ↔ first = "." ∨ first = "..") ∧
      ∀ (t : FileTree) (paths : List Path), t.search target paths =
        if first = "." ∨ first = ".." then
          FileTree.firstFound (fun folder => t.fileOrFolder? (folder.join ⟨target⟩)) paths
        else FileTree.firstFound
          (fun folder => FileTree.firstFound (t.fileIn? first (some rest)) folder.ancestors)
          paths := by
  obtain ⟨folders, last, ending, htext, -⟩ := isPlainCode_iff.1 (kind_eq_plainCode_iff.1 h).2.2
  obtain ⟨first, rest, rfl, hslash⟩ := Specifier.exists_first (s := target) (by simp [htext])
  have hhead : first.toList.head? = some '.' := by
    have hchars := congrArg List.head? htext
    rw [String.append_assoc, String.toList_append] at hchars
    cases hfirst : first.toList with
    | nil => simp [hfirst] at hchars
    | cons c cs => simpa [hfirst] using hchars
  have hrelative : Specifier.isRelative (first ++ "/" ++ rest) = true ↔ first = "." ∨ first = ".." :=
    Specifier.isRelative_append_iff hslash
  refine ⟨first, rest, rfl, hslash, hhead, hrelative, fun t paths => ?_⟩
  have habsolute : (Path.mk (first ++ "/" ++ rest)).isAbsolute = false := by
    simp [Path.isAbsolute, htext]
  have hbare : t.bare? (first ++ "/" ++ rest) = fun folder =>
      FileTree.firstFound (t.fileIn? first (some rest)) folder.ancestors := by
    funext folder
    rw [FileTree.bare?_eq, Specifier.splitPackage_append hslash (by simp [hhead])]
  rw [FileTree.search, if_neg (by simp [habsolute]), hbare]
  by_cases hdots : first = "." ∨ first = ".."
  · rw [if_pos hdots, if_pos (hrelative.2 hdots)]
  · rw [if_neg hdots, if_neg (mt hrelative.1 hdots)]

/-- A module below a hidden folder beside the component, and one of the same name in a
package. -/
def hiddenPackage : FileTree where
  entries := [
    (["p"], .folder),
    (["p", "a_a"], .folder),
    (["p", "a_a", ".hidden"], .folder),
    (["p", "a_a", ".hidden", "x.js"], .file (.text "")),
    (["p", "node_modules"], .folder),
    (["p", "node_modules", ".hidden"], .folder),
    (["p", "node_modules", ".hidden", "x.js"], .file (.text ""))]

/-- A target below a hidden folder is looked for in a package, with paths from anywhere. -/
theorem search_of_hiddenPackage : ∃ first rest : String, ".hidden/x.js" = first ++ "/" ++ rest ∧
    first.toList.head? = some '.' ∧ ∀ paths, hiddenPackage.search ".hidden/x.js" paths =
      FileTree.firstFound (fun folder =>
        FileTree.firstFound (hiddenPackage.fileIn? first (some rest)) folder.ancestors) paths := by
  obtain ⟨first, rest, heq, -, hhead, hrelative, hsearch⟩ :=
    search_of_plainCode (show kind ["esm"] ".hidden/x.js" = .plainCode by decide +kernel)
  have hdots : ¬ (first = "." ∨ first = "..") := mt hrelative.2 (by decide +kernel)
  exact ⟨first, rest, heq, hhead, fun paths => by rw [hsearch, if_neg hdots]⟩

set_option maxRecDepth 100000 in
/-- **Plain code need not be relative.**  A target below a hidden folder is plain code and not
relative.  It leads to the module of the package, not to the one beside the component. -/
theorem resolve_of_hiddenPackage : kind ["esm"] ".hidden/x.js" = .plainCode ∧
    ¬ Specifier.isRelative ".hidden/x.js" = true ∧
    hiddenPackage.resolve ".hidden/x.js" [⟨"/p/a_a"⟩] =
      .ok ⟨"/p/node_modules/.hidden/x.js"⟩ := by
  decide +kernel

end Target
end ElementBuild
