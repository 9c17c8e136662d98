/-
# What an alias falls back to

An alias that is not resolved falls back to the alias without its extension, and then to the
closest of the paths above that which resolves (`Closest`): the last part is dropped, and the
next one, as long as they are words.  So something is found if and only if one of these
resolves (`succeeds_iff`).  A part that is no word, such as `date-picker`, ends the search,
whatever there is above it (`fails_of_datePicker`).

What is found through a path above the alias is the remainder of the alias beside the file
that the path resolves to, and nobody looks whether there is such a file.  So an answer is
honest if and only if there is one (`honest_iff`).  There is none where the main file of a
package lies in a folder of the package (`invented_of_nestedMain`).
-/
import ElementBuild.Mapping.Fallback
import ElementBuild.Proofs.Resolution
import ElementBuild.Proofs.Step
import Mathlib.Data.List.TakeDrop
import Mathlib.Data.List.TakeWhile
import Mathlib.Logic.Relation

namespace ElementBuild
namespace Mapping

open Relation (TransGen)

variable {t : FileTree} {paths : List Path} {aliased : String} {s q r : String} {found p : Path}

/-! ### Paths above a specifier -/

/-- One or more letters, digits and other characters of names. -/
def IsWord (w : String) : Prop := w ≠ "" ∧ ∀ c ∈ w.toList, Text.isWordChar c = true

instance (w : String) : Decidable (IsWord w) :=
  decidable_of_iff (w ≠ "" ∧ w.toList.all Text.isWordChar = true) (by rw [List.all_eq_true, IsWord])

/-- A specifier without its last part, which is a word. -/
def Drops (s q : String) : Prop := ∃ w, IsWord w ∧ s = q ++ "/" ++ w

/-- The closest of the paths above a specifier that resolves, and the file it resolves to. -/
inductive Closest (t : FileTree) (paths : List Path) : String → String → Path → Prop
  | here {s q : String} {found : Path} :
    Drops s q → t.resolve q paths = .ok found → Closest t paths s q found
  | further {s r q : String} {found : Path} :
    Drops s r → (∀ p, t.resolve r paths ≠ .ok p) → Closest t paths r q found →
      Closest t paths s q found

theorem dropLastPart?_eq_some {cs rest : List Char} : dropLastPart? cs = some rest ↔
    Drops (String.ofList cs.reverse) (String.ofList rest.reverse) := by
  unfold dropLastPart?
  rw [List.span_eq_takeWhile_dropWhile]
  constructor
  · intro h
    split at h
    · rename_i c w rest' hspan
      obtain ⟨hword, hrest⟩ := Prod.mk.inj hspan
      obtain rfl := Option.some.inj h
      refine ⟨String.ofList (c :: w).reverse, ⟨?_, ?_⟩, ?_⟩
      · intro hempty
        simp [← String.toList_inj] at hempty
      · intro d hd
        rw [String.toList_ofList, List.mem_reverse, ← hword] at hd
        exact List.mem_takeWhile_imp hd
      · rw [← String.toList_inj, ← List.takeWhile_append_dropWhile (p := Text.isWordChar) (l := cs),
          hword, hrest]
        simp
    · cases h
  · rintro ⟨w, ⟨hne, hword⟩, hs⟩
    have hcs : cs = w.toList.reverse ++ '/' :: rest := by
      have hs := congrArg (List.reverse ∘ String.toList) hs
      simpa using hs
    have hslash : Text.isWordChar '/' = false := by decide
    have hall : ∀ c ∈ w.toList.reverse, Text.isWordChar c = true := fun c hc =>
      hword c (List.mem_reverse.1 hc)
    rw [hcs, List.takeWhile_append_of_pos hall, List.dropWhile_append_of_pos hall,
      List.takeWhile_cons_of_neg (by simp [hslash]), List.dropWhile_cons_of_neg (by simp [hslash]),
      List.append_nil]
    obtain ⟨c, cs', hcons⟩ := List.exists_cons_of_ne_nil (l := w.toList.reverse) (by simpa using hne)
    rw [hcons]
    rfl

theorem Drops.length (h : Drops s q) : q.length < s.length := by
  obtain ⟨w, -, rfl⟩ := h
  rw [String.length_append, String.length_append, show ("/" : String).length = 1 from rfl]
  omega

/-- A specifier has at most one last part. -/
theorem Drops.unique (h : Drops s q) (h' : Drops s r) : q = r := by
  have hdrop : ∀ {q : String}, Drops s q → dropLastPart? s.toList.reverse = some q.toList.reverse :=
    fun h => dropLastPart?_eq_some.2 (by simpa using h)
  have heq := Option.some.inj ((hdrop h).symm.trans (hdrop h'))
  exact String.toList_inj.1 (List.reverse_injective heq)

/-- The closest of the paths above a specifier is the one that is left of it first, or one above
that. -/
theorem closest_iff (h : Drops s r) : Closest t paths s q found ↔
    (q = r ∧ t.resolve r paths = .ok found) ∨
      (∀ p, t.resolve r paths ≠ .ok p) ∧ Closest t paths r q found := by
  constructor
  · rintro (⟨hq, hfound⟩ | ⟨hr, hno, hclosest⟩)
    · obtain rfl := hq.unique h
      exact .inl ⟨rfl, hfound⟩
    · obtain rfl := hr.unique h
      exact .inr ⟨hno, hclosest⟩
  · rintro (⟨rfl, hfound⟩ | ⟨hno, hclosest⟩)
    · exact .here h hfound
    · exact .further h hno hclosest

theorem Closest.resolves (h : Closest t paths s q found) : t.resolve q paths = .ok found := by
  induction h with
  | here _ hfound => exact hfound
  | further _ _ _ ih => exact ih

theorem Closest.drops (h : Closest t paths s q found) : ∃ r, Drops s r := by
  cases h with
  | here hq => exact ⟨_, hq⟩
  | further hr => exact ⟨_, hr⟩

/-- **The paths that are tried** are those above the specifier, the closest first. -/
theorem throughShorter?_shorterFrom {n : Nat} {cs : List Char} (hn : cs.length ≤ n) :
    throughShorter? t aliased paths (shorterFrom n cs) = some p ↔
      ∃ q found, Closest t paths (String.ofList cs.reverse) q found ∧
        p = (found.parent?.getD found).join ⟨remainder aliased q⟩ := by
  induction n generalizing cs with
  | zero =>
    obtain rfl := List.length_eq_zero_iff.1 (Nat.le_zero.1 hn)
    rw [shorterFrom, throughShorter?]
    refine ⟨fun h => (by cases h), fun ⟨q, found, hclosest, _⟩ => ?_⟩
    obtain ⟨r, hr⟩ := hclosest.drops
    exact absurd hr.length (Nat.not_lt_zero _)
  | succ n ih =>
    rw [shorterFrom]
    cases hdrop : dropLastPart? cs with
    | none =>
      refine ⟨fun h => (by cases h), fun ⟨q, found, hclosest, _⟩ => ?_⟩
      obtain ⟨r, hr⟩ := hclosest.drops
      have hsome : dropLastPart? cs = some r.toList.reverse :=
        dropLastPart?_eq_some.2 (by simpa using hr)
      rw [hdrop] at hsome
      cases hsome
    | some rest =>
      have hdrops := dropLastPart?_eq_some.1 hdrop
      have hrest : rest.length ≤ n := by
        have hlength := hdrops.length
        simp only [String.length_ofList, List.length_reverse] at hlength
        omega
      simp only [throughShorter?, closest_iff hdrops]
      cases hresolve : t.resolve (String.ofList rest.reverse) paths with
      | error e => simp [ih hrest]
      | ok found => simp [eq_comm]

theorem throughShorter?_shorter : throughShorter? t aliased paths (shorter s) = some p ↔
    ∃ q found, Closest t paths s q found ∧
      p = (found.parent?.getD found).join ⟨remainder aliased q⟩ := by
  have hlength : s.toList.reverse.length ≤ s.length := by
    rw [List.length_reverse, String.length_toList]
  rw [shorter, throughShorter?_shorterFrom hlength, List.reverse_reverse, String.ofList_toList]

/-- Some path above a specifier resolves if and only if a closest one does. -/
theorem exists_closest_iff : (∃ q found, Closest t paths s q found) ↔
    ∃ q, TransGen Drops s q ∧ ∃ found, t.resolve q paths = .ok found := by
  constructor
  · rintro ⟨q, found, h⟩
    induction h with
    | here hq hfound => exact ⟨_, .single hq, _, hfound⟩
    | further hr _ _ ih =>
      obtain ⟨q, hq, hfound⟩ := ih
      exact ⟨q, .head hr hq, hfound⟩
  · rintro ⟨q, hq, found, hfound⟩
    induction hq using TransGen.head_induction_on with
    | single hq => exact ⟨q, found, .here hq hfound⟩
    | @head s r hr _ ih =>
      by_cases hno : ∀ p, t.resolve r paths ≠ .ok p
      · obtain ⟨q, found, hclosest⟩ := ih
        exact ⟨q, found, .further hr hno hclosest⟩
      · obtain ⟨p, hp⟩ := not_forall_not.1 hno
        exact ⟨r, p, .here hr hp⟩

/-! ### The remainder of an alias -/

theorem exists_eq_withoutExtension (aliased : String) :
    ∃ ext, aliased = withoutExtension aliased ++ ext := by
  unfold withoutExtension
  split
  · rename_i cs hcs
    obtain ⟨ext, -, hdrop⟩ := List.exists_of_findSome?_eq_some hcs
    obtain ⟨stem, hstem, rfl⟩ := Option.map_eq_some_iff.1 hdrop
    have hchars := List.isPrefixOf?_eq_some_iff_append_eq.1 hstem
    refine ⟨ext, String.toList_inj.1 ?_⟩
    rw [String.toList_append, String.toList_ofList, ← List.reverse_inj, ← hchars]
    simp
  · exact ⟨"", by simp⟩

/-- What stands behind a path above a specifier opens with a character of a word. -/
theorem Closest.spells (h : Closest t paths s q found) :
    ∃ rest, s = q ++ "/" ++ rest ∧ ∃ c cs, rest.toList = c :: cs ∧ Text.isWordChar c = true := by
  have hword : ∀ {w : String}, IsWord w → ∃ c cs, w.toList = c :: cs ∧ Text.isWordChar c = true := by
    intro w hw
    obtain ⟨c, cs, hcs⟩ := List.exists_cons_of_ne_nil (l := w.toList) (by simpa using hw.1)
    exact ⟨c, cs, hcs, hw.2 c (hcs ▸ List.mem_cons_self ..)⟩
  induction h with
  | here hq =>
    obtain ⟨w, hw, rfl⟩ := hq
    exact ⟨w, rfl, hword hw⟩
  | further hr _ _ ih =>
    obtain ⟨w, hw, rfl⟩ := hr
    obtain ⟨rest, rfl, c, cs, hcs, hc⟩ := ih
    exact ⟨rest ++ "/" ++ w, by simp [String.append_assoc], c, cs ++ '/' :: w.toList, by simp [hcs], hc⟩

theorem remainder_append {rest : String} {c : Char} {cs : List Char} (hrest : rest.toList = c :: cs)
    (hc : c ≠ '/') : remainder (q ++ "/" ++ rest) q = rest := by
  have hdrop : (q ++ "/" ++ rest).toList.drop q.length = '/' :: c :: cs := by
    simp [hrest, String.length_toList]
  rw [remainder, hdrop, List.dropWhile_cons_of_pos (by simp),
    List.dropWhile_cons_of_neg (by simpa using hc), ← hrest, String.ofList_toList]

/-! ### What is found -/

/-- An alias falls back to a path above it: it does not resolve, with or without its extension,
and the path is the closest one that does. -/
structure FallsBack (t : FileTree) (paths : List Path) (aliased q rest : String) (found : Path) :
    Prop where
  unresolved : ∀ p, t.resolve aliased paths ≠ .ok p
  unstripped : ∀ p, t.resolve (withoutExtension aliased) paths ≠ .ok p
  closest : Closest t paths (withoutExtension aliased) q found
  spells : aliased = q ++ "/" ++ rest

/-- The path that an alias falls back to is above it. -/
theorem Closest.remainder (h : Closest t paths (withoutExtension aliased) q found) :
    aliased = q ++ "/" ++ Mapping.remainder aliased q := by
  obtain ⟨ext, hext⟩ := exists_eq_withoutExtension aliased
  obtain ⟨rest, hrest, c, cs, hcs, hc⟩ := h.spells
  have hslash : c ≠ '/' := by
    rintro rfl
    exact absurd hc (by decide)
  have haliased : aliased = q ++ "/" ++ (rest ++ ext) := by
    rw [hrest] at hext
    rw [hext, String.append_assoc]
  have hopens : (rest ++ ext).toList = c :: (cs ++ ext.toList) := by
    rw [String.toList_append, hcs, List.cons_append]
  have hremainder : Mapping.remainder (q ++ "/" ++ (rest ++ ext)) q = rest ++ ext :=
    remainder_append hopens hslash
  rw [haliased, hremainder]

theorem fallback?_eq_some_iff (h : ∀ p, t.resolve aliased paths ≠ .ok p) :
    fallback? t aliased paths = some p ↔
      t.resolve (withoutExtension aliased) paths = .ok p ∨
        ∃ q rest found, FallsBack t paths aliased q rest found ∧
          p = (found.parent?.getD found).join ⟨rest⟩ := by
  have hstripped : (if withoutExtension aliased = aliased then none
      else (t.resolve (withoutExtension aliased) paths).toOption) =
        (t.resolve (withoutExtension aliased) paths).toOption := by
    split
    · rename_i hsame
      rw [hsame]
      cases hresolve : t.resolve aliased paths with
      | error e => rfl
      | ok p => exact absurd hresolve (h p)
    · rfl
  simp only [fallback?, hstripped]
  cases hresolve : t.resolve (withoutExtension aliased) paths with
  | ok p' =>
    have hno : ∀ q rest found, ¬ FallsBack t paths aliased q rest found :=
      fun q rest found hfalls => hfalls.unstripped p' hresolve
    simp [Except.toOption, hno]
  | error e =>
    have hunstripped : ∀ p, t.resolve (withoutExtension aliased) paths ≠ .ok p := by
      simp [hresolve]
    simp only [Except.toOption, Option.orElse_eq_orElse, Option.orElse_eq_or, Option.none_or,
      throughShorter?_shorter, reduceCtorEq, false_or]
    constructor
    · rintro ⟨q, found, hclosest, rfl⟩
      exact ⟨q, _, found, ⟨h, hunstripped, hclosest, hclosest.remainder⟩, rfl⟩
    · rintro ⟨q, rest, found, hfalls, rfl⟩
      refine ⟨q, found, hfalls.closest, ?_⟩
      have hrest : q ++ "/" ++ rest = q ++ "/" ++ remainder aliased q :=
        hfalls.spells.symm.trans hfalls.closest.remainder
      rw [(String.append_right_inj _).1 hrest]

theorem exists_fallback?_iff (h : ∀ p, t.resolve aliased paths ≠ .ok p) :
    (∃ p, fallback? t aliased paths = some p) ↔
      (∃ p, t.resolve (withoutExtension aliased) paths = .ok p) ∨
        ∃ q found, Closest t paths (withoutExtension aliased) q found := by
  simp only [fallback?_eq_some_iff h]
  constructor
  · rintro ⟨p, hp | ⟨q, rest, found, hfalls, -⟩⟩
    · exact .inl ⟨p, hp⟩
    · exact .inr ⟨q, found, hfalls.closest⟩
  · rintro (⟨p, hp⟩ | ⟨q, found, hclosest⟩)
    · exact ⟨p, .inl hp⟩
    · by_cases hno : ∀ p, t.resolve (withoutExtension aliased) paths ≠ .ok p
      · exact ⟨_, .inr ⟨q, _, found, ⟨h, hno, hclosest, hclosest.remainder⟩, rfl⟩⟩
      · obtain ⟨p, hp⟩ := not_forall_not.1 hno
        exact ⟨p, .inl hp⟩

theorem run_resolveAlias (aliased : String) (paths : List Path) (s : Session) :
    ((resolveAlias aliased paths).run.run s : Except Failure Path × Session).1 =
      match s.files.resolve aliased paths with
      | .ok p => .ok p
      | .error e => match fallback? s.files aliased paths with
        | some p => .ok p
        | none => .error (.of (.resolve e)) := by
  have hfiles : Step.files.Gives s s.files s := Step.gives_files.2 ⟨rfl, rfl⟩
  unfold resolveAlias
  rw [Step.run_bind_ok hfiles]
  cases s.files.resolve aliased paths with
  | ok p => rfl
  | error e =>
    dsimp only
    rw [Step.run_bind_ok (Step.gives_tell (u := ()).2 rfl)]
    cases fallback? s.files aliased paths with
    | some p => rfl
    | none => rfl

/-- **An alias leads somewhere** if and only if it resolves, with or without its extension, or one
of the paths above it does that are left once words at its end are dropped. -/
theorem succeeds_iff (aliased : String) (paths : List Path) (s : Session) :
    (∃ p, ((resolveAlias aliased paths).run.run s : Except Failure Path × Session).1 = .ok p) ↔
      (∃ p, s.files.resolve aliased paths = .ok p) ∨
      (∃ p, s.files.resolve (withoutExtension aliased) paths = .ok p) ∨
      ∃ q, TransGen Drops (withoutExtension aliased) q ∧ ∃ p, s.files.resolve q paths = .ok p := by
  rw [run_resolveAlias, ← exists_closest_iff]
  cases hresolve : s.files.resolve aliased paths with
  | ok p => simp
  | error e =>
    have hunresolved : ∀ p, s.files.resolve aliased paths ≠ .ok p := by simp [hresolve]
    have hfalls := exists_fallback?_iff hunresolved
    cases hfallback : fallback? s.files aliased paths with
    | none => simpa [hfallback] using hfalls
    | some p => simpa [hfallback] using hfalls

/-- A package that shows its main file only, which lies beside the others. -/
def flatPackage : FileTree where
  entries := [
    (["node_modules"], .folder),
    (["node_modules", "kit"], .folder),
    (["node_modules", "kit", "package.json"],
      .file (.text "\x7b \"exports\": \x7b \".\": \"./index.js\" \x7d \x7d")),
    (["node_modules", "kit", "index.js"], .file (.text "")),
    (["node_modules", "kit", "date-picker.js"], .file (.text "")),
    (["node_modules", "kit", "lib"], .folder),
    (["node_modules", "kit", "lib", "x.js"], .file (.text ""))]

set_option maxRecDepth 100000 in
/-- **A part that is no word is never dropped**: the package resolves, and its file is there, but
it is not found. -/
theorem fails_of_datePicker : flatPackage.WellFormed ∧
    flatPackage.resolve "kit" [⟨"/"⟩] = .ok ⟨"/node_modules/kit/index.js"⟩ ∧
    flatPackage.isFile ⟨"/node_modules/kit/date-picker.js"⟩ = true ∧
    ((resolveAlias "kit/date-picker.js" [⟨"/"⟩]).run.run { files := flatPackage } :
      Except Failure Path × Session).1 =
        .error (.of (.resolve (.notFound "kit/date-picker.js"))) := by
  decide +kernel

/-- An answer is a file, or it is the error of the alias itself. -/
inductive Honest (t : FileTree) (aliased : String) (paths : List Path) :
    Except Failure Path → Prop
  | file {p : Path} : t.isFile p = true → Honest t aliased paths (.ok p)
  | error {e : ResolveError} :
    t.resolve aliased paths = .error e → Honest t aliased paths (.error (.of (.resolve e)))

/-- **Honest answers.**  What an alias is given is a file, and where it is given nothing the error
is its own, if and only if its remainder names a file beside the one that a path above it
resolves to, should it fall back to that path. -/
theorem honest_iff {s : Session} (h : s.files.WellFormed) (aliased : String) (paths : List Path) :
    Honest s.files aliased paths
        ((resolveAlias aliased paths).run.run s : Except Failure Path × Session).1 ↔
      ∀ q rest found folder, FallsBack s.files paths aliased q rest found →
        found.parent? = some folder → s.files.isFile (folder.join ⟨rest⟩) = true := by
  rw [run_resolveAlias]
  cases hresolve : s.files.resolve aliased paths with
  | ok p =>
    obtain ⟨-, hfile, -⟩ := h.isFile_of_resolve hresolve
    exact ⟨fun _ q rest found folder hfalls => absurd hresolve (hfalls.unresolved p),
      fun _ => .file hfile⟩
  | error e =>
    have hunresolved : ∀ p, s.files.resolve aliased paths ≠ .ok p := by simp [hresolve]
    have hfound : ∀ {q rest found folder}, FallsBack s.files paths aliased q rest found →
        found.parent? = some folder → fallback? s.files aliased paths = some (folder.join ⟨rest⟩) :=
      fun hfalls hfolder => (fallback?_eq_some_iff hunresolved).2
        (.inr ⟨_, _, _, hfalls, by rw [hfolder]; rfl⟩)
    cases hfallback : fallback? s.files aliased paths with
    | none =>
      refine ⟨fun _ q rest found folder hfalls hfolder => ?_, fun _ => .error hresolve⟩
      rw [hfound hfalls hfolder] at hfallback
      cases hfallback
    | some p =>
      constructor
      · rintro ⟨hfile⟩ q rest found folder hfalls hfolder
        obtain rfl := Option.some.inj ((hfound hfalls hfolder).symm.trans hfallback)
        exact hfile
      · intro hall
        rcases (fallback?_eq_some_iff hunresolved).1 hfallback with hp | ⟨q, rest, found, hfalls, rfl⟩
        · exact .file (h.isFile_of_resolve hp).2.1
        · obtain ⟨folder, hfolder⟩ := h.exists_parent_of_resolve hfalls.closest.resolves
          have hfile := hall q rest found folder hfalls hfolder
          rw [hfolder]
          exact .file hfile

set_option maxRecDepth 100000 in
theorem flatPackage_run : flatPackage.WellFormed ∧
    flatPackage.resolve "kit/lib/x.js" [⟨"/"⟩] = .error (.notFound "kit/lib/x.js") ∧
    flatPackage.resolve "kit/lib/x" [⟨"/"⟩] = .error (.notFound "kit/lib/x") ∧
    flatPackage.resolve "kit/lib" [⟨"/"⟩] = .error (.notFound "kit/lib") ∧
    flatPackage.resolve "kit" [⟨"/"⟩] = .ok ⟨"/node_modules/kit/index.js"⟩ ∧
    flatPackage.isFile ⟨"/node_modules/kit/lib/x.js"⟩ = true := by
  decide +kernel

theorem fallsBack_lib : FallsBack flatPackage [⟨"/"⟩] "kit/lib/x.js" "kit" "lib/x.js"
    ⟨"/node_modules/kit/index.js"⟩ := by
  obtain ⟨-, haliased, hstripped, hfolder, hpackage, -⟩ := flatPackage_run
  have hno : ∀ {s}, flatPackage.resolve s [⟨"/"⟩] = .error (.notFound s) →
      ∀ p, flatPackage.resolve s [⟨"/"⟩] ≠ .ok p := fun h => by simp [h]
  have hext : withoutExtension "kit/lib/x.js" = "kit/lib/x" := by decide +kernel
  refine ⟨hno haliased, hext ▸ hno hstripped, hext ▸ ?_, by decide +kernel⟩
  exact .further ⟨"x", by decide +kernel, by decide +kernel⟩ (hno hfolder)
    (.here ⟨"lib", by decide +kernel, by decide +kernel⟩ hpackage)

/-- A file that a package does not show is found beside its main file. -/
theorem honest_of_flatPackage : flatPackage.WellFormed ∧
    FallsBack flatPackage [⟨"/"⟩] "kit/lib/x.js" "kit" "lib/x.js" ⟨"/node_modules/kit/index.js"⟩ ∧
    Honest flatPackage "kit/lib/x.js" [⟨"/"⟩] (.ok ⟨"/node_modules/kit/lib/x.js"⟩) ∧
    flatPackage.isFile ((Path.mk "/node_modules/kit").join ⟨"lib/x.js"⟩) = true := by
  obtain ⟨hformed, haliased, -, -, -, hfile⟩ := flatPackage_run
  have hparent : (Path.mk "/node_modules/kit/index.js").parent? = some ⟨"/node_modules/kit"⟩ := by
    decide +kernel
  have hjoin : (Path.mk "/node_modules/kit").join ⟨"lib/x.js"⟩ = ⟨"/node_modules/kit/lib/x.js"⟩ := by
    decide +kernel
  have hrun : ((resolveAlias "kit/lib/x.js" [⟨"/"⟩]).run.run { files := flatPackage } :
      Except Failure Path × Session).1 = .ok ⟨"/node_modules/kit/lib/x.js"⟩ := by
    have hfallback := (fallback?_eq_some_iff fallsBack_lib.unresolved).2
      (.inr ⟨_, _, _, fallsBack_lib, rfl⟩)
    rw [hparent, Option.getD_some, hjoin] at hfallback
    simp only [run_resolveAlias, haliased, hfallback]
  have hhonest : Honest flatPackage "kit/lib/x.js" [⟨"/"⟩] (.ok ⟨"/node_modules/kit/lib/x.js"⟩) :=
    .file hfile
  exact ⟨hformed, fallsBack_lib, hhonest, (honest_iff (s := { files := flatPackage }) hformed _ _).1
    (hrun ▸ hhonest) _ _ _ _ fallsBack_lib hparent⟩

/-- A package whose main file lies in a folder of its own. -/
def nestedMain : FileTree where
  entries := [
    (["node_modules"], .folder),
    (["node_modules", "kit"], .folder),
    (["node_modules", "kit", "package.json"],
      .file (.text "\x7b \"exports\": \x7b \".\": \"./dist/index.js\" \x7d \x7d")),
    (["node_modules", "kit", "dist"], .folder),
    (["node_modules", "kit", "dist", "index.js"], .file (.text "")),
    (["node_modules", "kit", "x.js"], .file (.text ""))]

set_option maxRecDepth 100000 in
theorem nestedMain_run : nestedMain.WellFormed ∧
    ((resolveAlias "kit/x.js" [⟨"/"⟩]).run.run { files := nestedMain } :
      Except Failure Path × Session).1 = .ok ⟨"/node_modules/kit/dist/x.js"⟩ ∧
    nestedMain.isFile ⟨"/node_modules/kit/dist/x.js"⟩ = false ∧
    nestedMain.isFile ⟨"/node_modules/kit/x.js"⟩ = true := by
  decide +kernel

/-- **A file is made up** in the folder of the main file, while the file that was asked for is
there, in the package. -/
theorem invented_of_nestedMain : nestedMain.WellFormed ∧
    nestedMain.isFile ⟨"/node_modules/kit/x.js"⟩ = true ∧
    ¬ Honest nestedMain "kit/x.js" [⟨"/"⟩]
      ((resolveAlias "kit/x.js" [⟨"/"⟩]).run.run { files := nestedMain } :
        Except Failure Path × Session).1 := by
  obtain ⟨hformed, hrun, hnone, hfile⟩ := nestedMain_run
  refine ⟨hformed, hfile, fun hhonest => ?_⟩
  rw [hrun] at hhonest
  cases hhonest with
  | file hisFile => exact Bool.eq_false_iff.1 hnone hisFile

end Mapping
end ElementBuild
