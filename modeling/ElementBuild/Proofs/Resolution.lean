/-
# What a resolved specifier leads to

Whatever way a specifier is looked for, what is found is a file (`finds_search`).  The
answer is the path of the place of that file (`resolve_eq_ok`), and it does not depend on
how it was asked for: the path resolves to itself, and search paths behind the one that
gave it have no part in it (`resolve_is_stable`).
-/
import ElementBuild.Proofs.FileTree.Canonical
import ElementBuild.Proofs.FileTree.Folders
import ElementBuild.Proofs.Path.Narrow
import ElementBuild.Resolution.Resolve

namespace ElementBuild
namespace FileTree

variable {t : FileTree}

/-- What is found, if anything, is a file. -/
def Finds (t : FileTree) (r : Option Path) : Prop := ∀ p, r = some p → t.isFile p = true

theorem finds_none : t.Finds none := fun _ h => by cases h

theorem Finds.orElse {r r' : Option Path} (h : t.Finds r) (h' : t.Finds r') :
    t.Finds (r <|> r') := by
  cases r with
  | none => exact h'
  | some p => exact h

theorem finds_find? (ps : List Path) : t.Finds (ps.find? t.isFile) := fun _ h => List.find?_some h

theorem finds_bind {α : Type} {o : Option α} {f : α → Option Path} (h : ∀ a, t.Finds (f a)) :
    t.Finds (o.bind f) := by
  cases o with
  | none => exact finds_none
  | some a => exact h a

theorem finds_probe? (p : Path) : t.Finds (t.probe? p) := by
  unfold probe?
  split
  · intro q hq
    obtain rfl := Option.some.inj hq
    assumption
  · exact finds_bind fun name => finds_find? _

theorem finds_main? (p : Path) : t.Finds (t.main? p) := by
  refine (finds_probe? p).orElse ?_
  split
  · exact finds_find? _
  · exact finds_none

theorem finds_packageMain? (package : Path) (manifest : Option Json) :
    t.Finds (t.packageMain? package manifest) := by
  refine Finds.orElse (fun p hp => ?_) (finds_find? _)
  obtain ⟨main, -, hmain⟩ := List.exists_of_findSome?_eq_some hp
  exact finds_main? _ p hmain

theorem finds_exported? (package : Path) (exports : Json) (subpath : Option String) :
    t.Finds (t.exported? package exports subpath) := finds_bind fun _ => finds_probe? _

theorem finds_package? {package : Path} {r : Option Path} (h : t.package? package = .ok r) :
    t.Finds r := by
  unfold package? at h
  cases hmanifest : t.manifest? package with
  | error e =>
    rw [hmanifest] at h
    cases h
  | ok manifest =>
    rw [hmanifest] at h
    simp only [Except.bind, bind, pure, Except.pure] at h
    split at h
    · cases h
      exact finds_exported? _ _ _
    · cases h
      exact finds_packageMain? _ _

theorem finds_fileOrFolder? {p : Path} {r : Option Path} (h : t.fileOrFolder? p = .ok r) :
    t.Finds r := by
  unfold fileOrFolder? at h
  split at h
  · rename_i file hfile
    cases h
    rw [← hfile]
    exact finds_probe? p
  · split at h
    · exact finds_package? h
    · cases h
      exact finds_none

theorem finds_packageFile? {package : Path} {subpath : Option String} {r : Option Path}
    (h : t.packageFile? package subpath = .ok r) : t.Finds r := by
  cases subpath with
  | none => exact finds_package? h
  | some subpath =>
    unfold packageFile? at h
    cases hmanifest : t.manifest? package with
    | error e =>
      rw [hmanifest] at h
      cases h
    | ok manifest =>
      rw [hmanifest] at h
      simp only [Except.bind, bind, pure, Except.pure] at h
      split at h
      · cases h
        exact finds_exported? _ _ _
      · exact finds_fileOrFolder? h

theorem finds_firstFound {search : Path → Except ResolveError (Option Path)}
    (hsearch : ∀ p r, search p = .ok r → t.Finds r) {ps : List Path} {r : Option Path}
    (h : firstFound search ps = .ok r) : t.Finds r := by
  induction ps with
  | nil =>
    cases h
    exact finds_none
  | cons p ps ih =>
    unfold firstFound at h
    split at h
    · exact ih h
    · exact hsearch p r h

theorem finds_bare? {specifier : String} {folder : Path} {r : Option Path}
    (h : t.bare? specifier folder = .ok r) : t.Finds r := by
  unfold bare? at h
  generalize Specifier.splitPackage specifier = parts at h
  refine finds_firstFound (fun dir found hdir => ?_) h
  dsimp only at hdir
  by_cases hfolder : t.isFolder ((dir.join ⟨"node_modules"⟩).join ⟨parts.1⟩) = true
  · rw [if_pos hfolder] at hdir
    exact finds_packageFile? hdir
  · rw [if_neg hfolder] at hdir
    obtain rfl := Except.ok.inj hdir
    exact finds_none

/-- **What is found is a file.** -/
theorem finds_search {specifier : String} {paths : List Path} {r : Option Path}
    (h : t.search specifier paths = .ok r) : t.Finds r := by
  unfold search at h
  split at h
  · exact finds_fileOrFolder? h
  · split at h
    · exact finds_firstFound (fun _ _ => finds_fileOrFolder?) h
    · exact finds_firstFound (fun _ _ => finds_bare?) h

/-- A resolved specifier gives the canonical path of what the search found. -/
theorem search_of_resolve {specifier : String} {paths : List Path} {p : Path}
    (h : t.resolve specifier paths = .ok p) :
    ∃ found, t.search specifier paths = .ok (some found) ∧ t.canonical found = .ok p := by
  unfold resolve at h
  cases hsearch : t.search specifier paths with
  | error e =>
    rw [hsearch] at h
    cases h
  | ok r =>
    rw [hsearch] at h
    simp only [Except.bind, bind] at h
    split at h
    · cases h
    · rename_i found
      split at h
      · rename_i q hq
        cases h
        exact ⟨found, rfl, hq⟩
      · cases h

/-- **A resolved specifier gives the path of the place of a file.** -/
theorem resolve_eq_ok {specifier : String} {paths : List Path} {p : Path}
    (h : t.resolve specifier paths = .ok p) :
    ∃ l content, p = l.path ∧ t.get? l = some (.file content) := by
  obtain ⟨found, hsearch, hcanonical⟩ := search_of_resolve h
  obtain ⟨l, hl, rfl, -⟩ := canonical_eq_ok.1 hcanonical
  obtain ⟨l', content, hl', hget⟩ := isFile_iff.1 (finds_search hsearch found rfl)
  cases hl.symm.trans hl'
  exact ⟨l, content, rfl, hget⟩

/-- A path whose names are too long leads to no file. -/
theorem narrow_of_fileOrFolder? {p found : Path} (h : t.fileOrFolder? p = .ok (some found)) :
    p.Narrow pathLimit := by
  have hfits : ∀ {q : Path} {l : Location}, t.locate q = .ok l → q.Narrow pathLimit := fun hl =>
    Path.narrow_of_size (find_eq_ok.1 (locate_eq_ok.1 hl)).1.fits
  have hfile : ∀ {q : Path}, t.isFile q = true → q.Narrow pathLimit := by
    intro q hq
    obtain ⟨l, content, hl, -⟩ := isFile_iff.1 hq
    exact hfits hl
  unfold fileOrFolder? at h
  split at h
  · rename_i file hprobe
    unfold probe? at hprobe
    split at hprobe
    · exact hfile ‹_›
    · -- a file with an extension stands for the path, so its name is even longer
      obtain ⟨name, hname, hcandidate⟩ := Option.bind_eq_some_iff.1 hprobe
      obtain ⟨ext, hext, rfl⟩ := List.mem_map.1 (List.mem_of_find?_eq_some hcandidate)
      have hnarrow := hfile (List.find?_some hcandidate)
      obtain ⟨hisName, cs, hsegments⟩ := Path.segments_of_fileName? hname
      obtain ⟨folder, hfolder, hcs⟩ := Path.segments_parent? hsegments
      have hlonger : Path.IsName (name ++ "." ++ ext) := by
        rw [String.append_assoc]
        simp only [probedExtensions, List.mem_cons, List.not_mem_nil, or_false] at hext
        rcases hext with rfl | rfl | rfl
        · exact Path.isName_append hisName (by decide) (by decide)
        · exact Path.isName_append hisName (by decide) (by decide)
        · exact Path.isName_append hisName (by decide) (by decide)
      have hwith : p.withFileName (name ++ "." ++ ext) = folder.join ⟨name ++ "." ++ ext⟩ := by
        rw [Path.withFileName, hname, hfolder]
        rfl
      rw [hwith] at hnarrow
      have hshort : ∀ c ∈ folder.segments ++ [.name (name ++ "." ++ ext)],
          c.text.utf8ByteSize ≤ pathLimit := by
        rw [← Path.segments_join_name folder hlonger]
        exact fun c hc => hnarrow.segment (by decide) hc
      refine Path.narrow_of_names (by decide) fun s hs => ?_
      rw [hsegments, ← hcs] at hs
      rcases List.mem_append.1 hs with hs | hs
      · exact hshort _ (List.mem_append_left _ hs)
      · obtain rfl := Segment.name.inj (List.mem_singleton.1 hs)
        have hlong := hshort _ (List.mem_append_right _ (List.mem_singleton_self _))
        rw [Segment.text, String.append_assoc, String.utf8ByteSize_append] at hlong
        exact (Nat.le_add_right _ _).trans hlong
  · split at h
    · obtain ⟨l, hl, -⟩ := isFolder_iff.1 ‹_›
      exact hfits hl
    · cases h

/-- **A specifier that is resolved has short names.** -/
theorem narrow_of_resolve {specifier : String} {folder found : Path}
    (habsolute : (Path.mk specifier).isAbsolute = false)
    (hrelative : Specifier.isRelative specifier = true)
    (h : t.resolve specifier [folder] = .ok found) : (Path.mk specifier).Narrow pathLimit := by
  obtain ⟨file, hsearch, -⟩ := search_of_resolve h
  rw [search, if_neg (by simp [habsolute]), if_pos hrelative, firstFound] at hsearch
  split at hsearch
  · cases hsearch
  · exact (narrow_of_fileOrFolder? hsearch).of_join habsolute

theorem fileOrFolder?_of_isFile {p : Path} (h : t.isFile p = true) :
    t.fileOrFolder? p = .ok (some p) := by
  rw [fileOrFolder?, probe?, if_pos h]

/-- A relative specifier that leads to a file from a folder resolves to it there. -/
theorem resolve_of_locate {specifier : String} {folder : Path} {l : Location} {content : Content}
    (habsolute : (Path.mk specifier).isAbsolute = false)
    (hrelative : Specifier.isRelative specifier = true)
    (hl : t.locate (folder.join ⟨specifier⟩) = .ok l) (hget : t.get? l = some (.file content))
    (hfits : l.path.Fits) : t.resolve specifier [folder] = .ok l.path := by
  have hfile : t.isFile (folder.join ⟨specifier⟩) = true := isFile_iff.2 ⟨l, content, hl, hget⟩
  have hfound := fileOrFolder?_of_isFile hfile
  have hsearch : t.search specifier [folder] = .ok (some (folder.join ⟨specifier⟩)) := by
    rw [search, if_neg (by simp [habsolute]), if_pos hrelative, firstFound, hfound]
  have hcanonical := canonical_eq_ok.2 ⟨l, hl, rfl, hfits⟩
  simp only [resolve, hsearch, bind, Except.bind, hcanonical]

/-- Where a later tree has no file for a path, there was none before. -/
theorem fileOrFolder?_eq_none {t' : FileTree} (hgrows : t.Grows t') {p : Path}
    (hprobe : t'.probe? p = none) (hfolder : t'.isFolder p = false) :
    t.fileOrFolder? p = .ok none := by
  have hisFile : ∀ {q}, t'.isFile q = false → t.isFile q = false := fun h =>
    Bool.eq_false_iff.2 fun hq => Bool.eq_false_iff.1 h (hgrows.isFile hq)
  have hnone : t.probe? p = none := by
    unfold probe? at hprobe ⊢
    split at hprobe
    · cases hprobe
    · rw [if_neg (Bool.eq_false_iff.1 (hisFile (Bool.eq_false_iff.2 ‹_›)))]
      cases hname : p.fileName? with
      | none => rfl
      | some name =>
        rw [hname] at hprobe
        refine List.find?_eq_none.2 fun q hq => ?_
        exact Bool.eq_false_iff.1 (hisFile (Bool.eq_false_iff.2 (List.find?_eq_none.1 hprobe q hq)))
  have hno : t.isFolder p = false :=
    Bool.eq_false_iff.2 fun hp => Bool.eq_false_iff.1 hfolder (hgrows.isFolder hp)
  rw [fileOrFolder?, hnone, hno]
  rfl

/-- A relative specifier that leads nowhere from a first folder, now and later, and to a file
from a second one, now and before, resolves to that file. -/
theorem resolve_of_grows {t₀ t₁ : FileTree} (hbefore : t₀.Grows t) (hafter : t.Grows t₁)
    {specifier : String} {p q found : Path} (habsolute : (Path.mk specifier).isAbsolute = false)
    (hrelative : Specifier.isRelative specifier = true)
    (hprobe : t₁.probe? (p.join ⟨specifier⟩) = none)
    (hfolder : t₁.isFolder (p.join ⟨specifier⟩) = false)
    (hfile : t₀.isFile (q.join ⟨specifier⟩) = true)
    (hfound : t₀.canonical (q.join ⟨specifier⟩) = .ok found) :
    t.resolve specifier [p, q] = .ok found := by
  have hnone := fileOrFolder?_eq_none hafter hprobe hfolder
  have hsome := fileOrFolder?_of_isFile (hbefore.isFile hfile)
  have hsearch : t.search specifier [p, q] = .ok (some (q.join ⟨specifier⟩)) := by
    rw [search, if_neg (by simp [habsolute]), if_pos hrelative, firstFound, hnone]
    simp only [firstFound, hsome]
  simp only [resolve, hsearch, bind, Except.bind, hbefore.canonical hfound]

/-! ### The order of search paths -/

section Order

variable {search : Path → Except ResolveError (Option Path)} {p found : Path} {ps : List Path}
  {specifier : String}

theorem firstFound_append {qs : List Path} (h : firstFound search ps = .ok (some found)) :
    firstFound search (ps ++ qs) = .ok (some found) := by
  induction ps with
  | nil => cases h
  | cons p ps ih =>
    rw [firstFound] at h
    rw [List.cons_append, firstFound]
    split at h
    · exact ih h
    · rw [h]

theorem firstFound_twice : firstFound search (p :: p :: ps) = firstFound search (p :: ps) := by
  cases h : search p with
  | error e => simp only [firstFound, h]
  | ok r =>
    cases r with
    | none => simp only [firstFound, h]
    | some q => simp only [firstFound, h]

/-- Further search paths have no part in what is found before. -/
theorem resolve_append (qs : List Path) (h : t.resolve specifier ps = .ok found) :
    t.resolve specifier (ps ++ qs) = .ok found := by
  obtain ⟨file, hsearch, hcanonical⟩ := search_of_resolve h
  have hsame : t.search specifier (ps ++ qs) = .ok (some file) := by
    unfold FileTree.search at hsearch ⊢
    split at hsearch
    · rw [if_pos ‹_›]
      exact hsearch
    · rw [if_neg ‹_›]
      split at hsearch
      · rw [if_pos ‹_›]
        exact firstFound_append hsearch
      · rw [if_neg ‹_›]
        exact firstFound_append hsearch
  simp only [resolve, hsame, bind, Except.bind, hcanonical]

theorem resolve_twice : t.resolve specifier (p :: p :: ps) = t.resolve specifier (p :: ps) := by
  unfold resolve FileTree.search
  rw [firstFound_twice, firstFound_twice]

end Order

/-! ### Resolving what was resolved -/

/-- An absolute path that leads to a file is resolved without any search path. -/
theorem resolve_of_isFile {p q : Path} (habsolute : p.isAbsolute = true) (hfile : t.isFile p = true)
    (hq : t.canonical p = .ok q) (paths : List Path) : t.resolve p.text paths = .ok q := by
  have hfound := fileOrFolder?_of_isFile hfile
  have hsearch : t.search p.text paths = .ok (some p) := by
    rw [search, if_pos habsolute, hfound]
  simp only [resolve, hsearch, bind, Except.bind, hq]

/-- The answer of a search is a file, and its own canonical path. -/
theorem WellFormed.isFile_of_resolve (h : t.WellFormed) {specifier : String} {paths : List Path}
    {p : Path} (hp : t.resolve specifier paths = .ok p) :
    p.isAbsolute = true ∧ t.isFile p = true ∧ t.canonical p = .ok p := by
  obtain ⟨found, -, hcanonical⟩ := search_of_resolve hp
  obtain ⟨l, content, rfl, hget⟩ := resolve_eq_ok hp
  obtain ⟨-, -, -, hfits⟩ := canonical_eq_ok.1 hcanonical
  have hlocate : t.locate l.path = .ok l := h.locate_path (.inr ⟨content, hget⟩) hfits
  have habsolute : l.path.isAbsolute = true :=
    Path.isAbsolute_iff_segments.2 (by rw [h.segments_path hget]; rfl)
  exact ⟨habsolute, isFile_iff.2 ⟨l, content, hlocate, hget⟩,
    canonical_eq_ok.2 ⟨l, hlocate, rfl, hfits⟩⟩

/-- The answer of a search lies in a folder. -/
theorem WellFormed.exists_parent_of_resolve (h : t.WellFormed) {specifier : String}
    {paths : List Path} {p : Path} (hp : t.resolve specifier paths = .ok p) :
    ∃ folder, p.parent? = some folder := by
  obtain ⟨l, content, rfl, hget⟩ := resolve_eq_ok hp
  obtain ⟨folder, -, -, hfolder, -⟩ := h.exists_parent hget
  exact ⟨folder, hfolder⟩

/-- **Answers are canonical and stable.**  What a specifier resolves to is a file, by its
canonical path; as a specifier that path resolves to itself, wherever it is looked for; and
search paths that are added behind the others change nothing. -/
theorem resolve_is_stable (h : t.WellFormed) {specifier : String} {paths : List Path} {p : Path}
    (hp : t.resolve specifier paths = .ok p) :
    t.isFile p = true ∧ t.canonical p = .ok p ∧ (∀ others, t.resolve p.text others = .ok p) ∧
      ∀ more, t.resolve specifier (paths ++ more) = .ok p := by
  obtain ⟨habsolute, hfile, hcanonical⟩ := h.isFile_of_resolve hp
  exact ⟨hfile, hcanonical, resolve_of_isFile habsolute hfile hcanonical,
    fun more => resolve_append more hp⟩

/-- A package that is linked into a `node_modules` folder, and whose main file is the index of
a folder. -/
def linkedPackage : FileTree where
  entries := [
    (["app"], .folder),
    (["app", "node_modules"], .folder),
    (["app", "node_modules", "tiles"], .link "../../store/tiles"),
    (["store"], .folder),
    (["store", "tiles"], .folder),
    (["store", "tiles", "package.json"], .file (.text "\x7b \"main\": \"./lib\" \x7d")),
    (["store", "tiles", "lib"], .folder),
    (["store", "tiles", "lib", "index.js"], .file (.text ""))]

set_option maxRecDepth 100000 in
theorem resolve_linkedPackage : linkedPackage.WellFormed ∧
    linkedPackage.resolve "tiles" [⟨"/app/views"⟩] = .ok ⟨"/store/tiles/lib/index.js"⟩ := by
  decide +kernel

theorem stable_of_linkedPackage : linkedPackage.WellFormed ∧
    linkedPackage.resolve "tiles" [⟨"/app/views"⟩] = .ok ⟨"/store/tiles/lib/index.js"⟩ ∧
    linkedPackage.resolve "/store/tiles/lib/index.js" [] = .ok ⟨"/store/tiles/lib/index.js"⟩ ∧
    linkedPackage.resolve "tiles" [⟨"/app/views"⟩, ⟨"/store"⟩] =
      .ok ⟨"/store/tiles/lib/index.js"⟩ := by
  obtain ⟨hformed, hresolve⟩ := resolve_linkedPackage
  obtain ⟨-, -, hagain, hmore⟩ := resolve_is_stable hformed hresolve
  exact ⟨hformed, hresolve, hagain [], hmore [⟨"/store"⟩]⟩

end FileTree
end ElementBuild
