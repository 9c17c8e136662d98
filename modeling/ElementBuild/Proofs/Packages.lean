/-
# Packages that refuse a path

A package whose manifest has `exports` shows the paths that have an entry there, and refuses
any other.  A package that refuses a path is passed over: the search goes on in the folders
further out, as if the package were not there (`resolve_of_refuses`).  So the path is not
found if no package of the same name further out has it, and only then
(`notFound_of_refuses_iff`); a second copy of the package further out answers in place of the
nearest one (`found_behind_refusal`).
-/
import ElementBuild.Proofs.Path.Ancestors
import ElementBuild.Proofs.Resolution

namespace ElementBuild

/-- A specifier is a path below a package, which is given by its name. -/
structure Specifier.IsBelow (specifier name subpath : String) : Prop where
  notAbsolute : (Path.mk specifier).isAbsolute = false
  notRelative : isRelative specifier = false
  split : splitPackage specifier = (name, some subpath)

instance (specifier name subpath : String) : Decidable (Specifier.IsBelow specifier name subpath) :=
  decidable_of_iff (_ ∧ _ ∧ _)
    ⟨fun ⟨h₁, h₂, h₃⟩ => ⟨h₁, h₂, h₃⟩, fun h => ⟨h.notAbsolute, h.notRelative, h.split⟩⟩

namespace FileTree

variable {t : FileTree} {specifier name subpath : String} {folder dir : Path}
  {inner outer : List Path}

theorem firstFound_eq_none_iff {search : Path → Except ResolveError (Option Path)}
    {ps : List Path} : firstFound search ps = .ok none ↔ ∀ p ∈ ps, search p = .ok none := by
  induction ps with
  | nil => simp [firstFound]
  | cons p ps ih =>
    rw [firstFound, List.forall_mem_cons, ← ih]
    split
    · simp [*]
    · rename_i hsome
      exact ⟨fun h => absurd h hsome, fun h => absurd h.1 hsome⟩

theorem firstFound_of_none {search : Path → Except ResolveError (Option Path)}
    {inner outer : List Path} (h : ∀ p ∈ inner, search p = .ok none) :
    firstFound search (inner ++ outer) = firstFound search outer := by
  induction inner with
  | nil => rfl
  | cons p ps ih =>
    obtain ⟨hp, hps⟩ := List.forall_mem_cons.1 h
    rw [List.cons_append, firstFound, hp]
    exact ih hps

/-- The folder of a package in the `node_modules` of a folder. -/
def packageIn (dir : Path) (name : String) : Path := (dir.join ⟨"node_modules"⟩).join ⟨name⟩

/-- What a folder has for a package, or for a path below it, if it holds the package. -/
def fileIn? (t : FileTree) (name : String) (subpath : Option String) (dir : Path) :
    Except ResolveError (Option Path) :=
  if t.isFolder (packageIn dir name) then t.packageFile? (packageIn dir name) subpath else .ok none

/-- A package refuses a path below it: it has a manifest with `exports`, and no entry there for
the path. -/
def Refuses (t : FileTree) (package : Path) (subpath : String) : Prop :=
  ∃ manifest exports, t.manifest? package = .ok (some manifest) ∧
    manifest.member? "exports" = some exports ∧
    Manifest.exportTarget? exports ("./" ++ subpath) = none

theorem refuses_iff {package : Path} : t.Refuses package subpath ↔
    (((t.manifest? package).toOption.join.bind (·.member? "exports")).map
      fun exports => Manifest.exportTarget? exports ("./" ++ subpath)) = some none := by
  constructor
  · rintro ⟨manifest, exports, hmanifest, hexports, htarget⟩
    simp [hmanifest, hexports, htarget, Except.toOption]
  · intro h
    obtain ⟨exports, hexports, htarget⟩ := Option.map_eq_some_iff.1 h
    obtain ⟨manifest, hmanifest, hmember⟩ := Option.bind_eq_some_iff.1 hexports
    refine ⟨manifest, exports, ?_, hmember, htarget⟩
    cases hread : t.manifest? package with
    | error e => simp [hread, Except.toOption] at hmanifest
    | ok read =>
      rw [hread] at hmanifest
      exact congrArg Except.ok (Option.join_eq_some_iff.1 hmanifest |> Option.some.inj)

instance (package : Path) (subpath : String) : Decidable (t.Refuses package subpath) :=
  decidable_of_iff _ refuses_iff.symm

/-- Of a folder and the folders above it, one is the nearest to hold a package. -/
structure Nearest (t : FileTree) (name : String) (folder : Path) (inner : List Path) (dir : Path)
    (outer : List Path) : Prop where
  ancestors : folder.ancestors = inner ++ dir :: outer
  missing : ∀ d ∈ inner, t.isFolder (packageIn d name) = false
  holds : t.isFolder (packageIn dir name) = true

instance (name : String) (folder : Path) (inner : List Path) (dir : Path) (outer : List Path) :
    Decidable (t.Nearest name folder inner dir outer) :=
  decidable_of_iff (_ ∧ _ ∧ _)
    ⟨fun ⟨h₁, h₂, h₃⟩ => ⟨h₁, h₂, h₃⟩, fun h => ⟨h.ancestors, h.missing, h.holds⟩⟩

theorem fileIn?_of_missing {subpath : Option String}
    (h : t.isFolder (packageIn dir name) = false) : t.fileIn? name subpath dir = .ok none := by
  rw [fileIn?, if_neg (by simp [h])]

theorem fileIn?_of_refuses (h : t.Refuses (packageIn dir name) subpath) :
    t.fileIn? name (some subpath) dir = .ok none := by
  obtain ⟨manifest, exports, hmanifest, hexports, htarget⟩ := h
  rw [fileIn?]
  split
  · simp only [packageFile?, hmanifest, bind, Except.bind, Option.bind_some, hexports, exported?,
      htarget, Option.bind_none, pure, Except.pure]
  · rfl

/-- A package is looked for in a folder and the folders above it. -/
theorem bare?_eq (specifier : String) (folder : Path) : t.bare? specifier folder =
    firstFound (t.fileIn? (Specifier.splitPackage specifier).1 (Specifier.splitPackage specifier).2)
      folder.ancestors := rfl

theorem search_below (h : Specifier.IsBelow specifier name subpath) :
    t.search specifier [folder] = firstFound (t.fileIn? name (some subpath)) folder.ancestors := by
  rw [search, if_neg (by simp [h.notAbsolute]), if_neg (by simp [h.notRelative]), firstFound,
    bare?_eq, h.split]
  split
  · rename_i hnone
    rw [hnone, firstFound]
  · rfl

/-! ### Errors of a search -/

/-- The answer of a search is no error but that of a manifest. -/
def Searched (r : Except ResolveError (Option Path)) : Prop := ∀ s, r ≠ .error (.notFound s)

theorem searched_ok (found : Option Path) : Searched (.ok found) := fun _ h => by cases h

theorem manifest?_ne_notFound (package : Path) (s : String) :
    t.manifest? package ≠ .error (.notFound s) := by
  intro h
  unfold manifest? at h
  dsimp only at h
  split at h
  · split at h
    · split at h <;> cases h
    · cases h
  · cases h

/-- What is made of a manifest is searched, if it is for each manifest. -/
theorem searched_of_manifest {package : Path}
    {f : Option Json → Except ResolveError (Option Path)} (hf : ∀ manifest, Searched (f manifest)) :
    Searched (t.manifest? package >>= f) := by
  cases hmanifest : t.manifest? package with
  | error e =>
    intro s h
    obtain rfl := Except.error.inj h
    exact manifest?_ne_notFound package s hmanifest
  | ok manifest => exact hf manifest

theorem searched_package? (package : Path) : Searched (t.package? package) :=
  searched_of_manifest fun manifest => by
    split <;> exact searched_ok _

theorem searched_fileOrFolder? (p : Path) : Searched (t.fileOrFolder? p) := by
  unfold fileOrFolder?
  split
  · exact searched_ok _
  · split
    · exact searched_package? p
    · exact searched_ok _

theorem searched_packageFile? (package : Path) (subpath : Option String) :
    Searched (t.packageFile? package subpath) := by
  cases subpath with
  | none => exact searched_package? package
  | some subpath =>
    refine searched_of_manifest fun manifest => ?_
    split
    · exact searched_ok _
    · exact searched_fileOrFolder? _

theorem searched_fileIn? (subpath : Option String) (dir : Path) :
    Searched (t.fileIn? name subpath dir) := by
  unfold fileIn?
  split
  · exact searched_packageFile? _ _
  · exact searched_ok _

theorem searched_firstFound {search : Path → Except ResolveError (Option Path)}
    (h : ∀ p, Searched (search p)) (ps : List Path) : Searched (firstFound search ps) := by
  induction ps with
  | nil => exact searched_ok none
  | cons p ps ih =>
    rw [firstFound]
    split
    · exact ih
    · exact h p

theorem searched_search (specifier : String) (paths : List Path) :
    Searched (t.search specifier paths) := by
  unfold search
  split
  · exact searched_fileOrFolder? _
  · split
    · exact searched_firstFound (fun _ => searched_fileOrFolder? _) paths
    · exact searched_firstFound (fun _ => searched_firstFound (searched_fileIn? _) _) paths

/-- A specifier is not found if and only if the search for it ends with nothing. -/
theorem resolve_eq_notFound_iff {paths : List Path} :
    t.resolve specifier paths = .error (.notFound specifier) ↔
      t.search specifier paths = .ok none := by
  rw [resolve]
  cases hsearch : t.search specifier paths with
  | error e =>
    have hother : e ≠ .notFound specifier := by
      rintro rfl
      exact searched_search specifier paths specifier hsearch
    simpa [bind, Except.bind] using hother
  | ok found =>
    cases found with
    | none => simp [bind, Except.bind]
    | some file =>
      simp only [bind, Except.bind]
      split <;> simp

/-! ### Paths below packages -/

/-- A package that refuses a path is passed over. -/
theorem search_of_refuses (h : Specifier.IsBelow specifier name subpath)
    (hnearest : t.Nearest name folder inner dir outer)
    (hrefuses : t.Refuses (packageIn dir name) subpath) :
    t.search specifier [folder] = firstFound (t.fileIn? name (some subpath)) outer := by
  have hinner : ∀ d ∈ inner, t.fileIn? name (some subpath) d = .ok none := fun d hd =>
    fileIn?_of_missing (hnearest.missing d hd)
  rw [search_below h, hnearest.ancestors, firstFound_of_none hinner, firstFound,
    fileIn?_of_refuses hrefuses]

/-- The search goes on in the folder above a package that refuses a path. -/
theorem resolve_of_refuses (h : Specifier.IsBelow specifier name subpath)
    (hnearest : t.Nearest name folder inner dir outer)
    (hrefuses : t.Refuses (packageIn dir name) subpath) :
    t.resolve specifier [folder] = match dir.parent? with
      | some up => t.resolve specifier [up]
      | none => .error (.notFound specifier) := by
  have hsearch := search_of_refuses h hnearest hrefuses
  rw [Path.eq_of_ancestors_eq hnearest.ancestors] at hsearch
  cases hparent : dir.parent? with
  | none =>
    rw [hparent] at hsearch
    rw [resolve, hsearch]
    rfl
  | some up =>
    rw [hparent] at hsearch
    have hup : t.search specifier [folder] = t.search specifier [up] :=
      hsearch.trans (search_below h).symm
    simp only [resolve, hup]

/-- **What a refusal comes to.**  If the nearest package of a name refuses a path, the path is
resolved as from the folder above the one that holds the package, and it is not found if and
only if no folder further out has a package of the name with a file for it. -/
theorem notFound_of_refuses_iff (h : Specifier.IsBelow specifier name subpath)
    (hnearest : t.Nearest name folder inner dir outer)
    (hrefuses : t.Refuses (packageIn dir name) subpath) :
    (t.resolve specifier [folder] = match dir.parent? with
      | some up => t.resolve specifier [up]
      | none => .error (.notFound specifier)) ∧
    (t.resolve specifier [folder] = .error (.notFound specifier) ↔
      ∀ d ∈ outer, t.fileIn? name (some subpath) d = .ok none) := by
  refine ⟨resolve_of_refuses h hnearest hrefuses, ?_⟩
  rw [resolve_eq_notFound_iff, search_of_refuses h hnearest hrefuses, firstFound_eq_none_iff]

/-- A package in the folder of an application, which shows its main file only, and what the
outermost folder holds beside it. -/
def guardedPackage (outermost : List (Location × Entry)) : FileTree where
  entries := [
    (["app"], .folder),
    (["app", "node_modules"], .folder),
    (["app", "node_modules", "animate"], .folder),
    (["app", "node_modules", "animate", "package.json"],
      .file (.text "\x7b \"exports\": \x7b \".\": \"./index.js\" \x7d \x7d")),
    (["app", "node_modules", "animate", "index.js"], .file (.text "")),
    (["app", "node_modules", "animate", "cubic.js"], .file (.text "")),
    (["node_modules"], .folder),
    (["node_modules", "animate"], .folder)] ++ outermost

/-- The path is refused by the package further out, too. -/
def guardedTwice : FileTree := guardedPackage [
  (["node_modules", "animate", "package.json"],
    .file (.text "\x7b \"exports\": \x7b \"./easing\": \"./easing.js\" \x7d \x7d")),
  (["node_modules", "animate", "cubic.js"], .file (.text ""))]

/-- The package further out shows all its files. -/
def guardedOnce : FileTree := guardedPackage [
  (["node_modules", "animate", "cubic.js"], .file (.text ""))]

set_option maxRecDepth 100000 in
theorem guardedTwice_run :
    Specifier.IsBelow "animate/cubic.js" "animate" "cubic.js" ∧
      guardedTwice.Nearest "animate" ⟨"/app/views"⟩ [⟨"/app/views"⟩] ⟨"/app"⟩ [⟨"/"⟩] ∧
      guardedTwice.Refuses (packageIn ⟨"/app"⟩ "animate") "cubic.js" ∧
      ∀ d ∈ [Path.mk "/"], guardedTwice.fileIn? "animate" (some "cubic.js") d = .ok none := by
  decide +kernel

/-- A path that all packages of the name refuse is not found, though the file is there. -/
theorem notFound_of_guardedTwice :
    guardedTwice.Nearest "animate" ⟨"/app/views"⟩ [⟨"/app/views"⟩] ⟨"/app"⟩ [⟨"/"⟩] ∧
      guardedTwice.Refuses (packageIn ⟨"/app"⟩ "animate") "cubic.js" ∧
      guardedTwice.resolve "animate/cubic.js" [⟨"/app/views"⟩] =
        .error (.notFound "animate/cubic.js") := by
  obtain ⟨hbelow, hnearest, hrefuses, hnone⟩ := guardedTwice_run
  exact ⟨hnearest, hrefuses, (notFound_of_refuses_iff hbelow hnearest hrefuses).2.2 hnone⟩

set_option maxRecDepth 100000 in
/-- **A path that the nearest package refuses is found in a second copy further out.** -/
theorem found_behind_refusal : guardedOnce.WellFormed ∧
    Specifier.IsBelow "animate/cubic.js" "animate" "cubic.js" ∧
    guardedOnce.Nearest "animate" ⟨"/app/views"⟩ [⟨"/app/views"⟩] ⟨"/app"⟩ [⟨"/"⟩] ∧
    guardedOnce.Refuses (packageIn ⟨"/app"⟩ "animate") "cubic.js" ∧
    guardedOnce.resolve "animate/cubic.js" [⟨"/app/views"⟩] =
      .ok ⟨"/node_modules/animate/cubic.js"⟩ := by
  decide +kernel

end FileTree
end ElementBuild
