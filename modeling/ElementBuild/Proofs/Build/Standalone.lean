/-
# Where pointed references lead

The last pass over a module points each relative import at the file that it resolves to.
The folder of the module exists by then, so the specifier that is written leads to that
file, and goes on doing so while the build grows the tree (`Session.Pointing`).
-/
import ElementBuild.Proofs.Build.Run
import ElementBuild.Proofs.Bundlers
import ElementBuild.Proofs.FileTree.Listing
import ElementBuild.Proofs.Files
import ElementBuild.Proofs.Growth
import ElementBuild.Proofs.Resolution

namespace ElementBuild

/-- A reference leads to its file, from a folder that has a canonical path. -/
def Pointed.Leads (x : Pointed) (t : FileTree) : Prop :=
  ∃ root l content, t.locate x.output = .ok root ∧ x.found = l.path ∧ x.found.Fits ∧
    t.get? l = some (.file content) ∧ (root.path.Fits → (x.output.join ⟨x.specifier⟩).Fits →
      t.locate (x.output.join ⟨x.specifier⟩) = .ok l)

theorem Pointed.Leads.mono {x : Pointed} {t t' : FileTree} (h : x.Leads t) (hgrows : t.Grows t') :
    x.Leads t' := by
  obtain ⟨root, l, content, hroot, hfound, hfits, hget, hlead⟩ := h
  obtain ⟨content', hget'⟩ := hgrows.file hget
  exact ⟨root, l, content', hgrows.locate hroot, hfound, hfits, hget',
    fun hrootFits hlong => hgrows.locate (hlead hrootFits hlong)⟩

namespace Session

/-! ### One pass -/

/-- References are pointed from a folder to the files that they resolve to. -/
structure Points (output folder : Path) (s s' : Session) : Prop where
  files : s'.files = s.files
  pointed : ∀ x, .pointed x ∈ s'.events → .pointed x ∈ s.events ∨ x.output = output ∧
    (∃ paths, s.files.resolve x.target paths = .ok x.found) ∧
      Path.specifierFrom? folder x.found = some x.specifier

variable {output folder : Path} {s s' : Session}

instance : IsPreorder Session (Points output folder) where
  refl _ := ⟨rfl, fun _ h => .inl h⟩
  trans s t s' h₁ h₂ := by
    refine ⟨h₂.files.trans h₁.files, fun x hx => ?_⟩
    rcases h₂.pointed x hx with hx | hx
    · exact h₁.pointed x hx
    · rw [h₁.files] at hx
      exact .inr hx

theorem points_pointReference (paths : List Path) (code : List Char) (draft : Text.Draft)
    (r : Reference) : (Relative.pointReference output folder paths code draft r).Respects
      (Points output folder) := by
  intro s draft' s' h
  unfold Relative.pointReference at h
  rw [Step.gives_bind] at h
  obtain ⟨found, t, hfound, h⟩ := h
  obtain ⟨hresolve, rfl⟩ := Step.gives_resolve.1 hfound
  split at h
  · obtain ⟨-, rfl⟩ := Step.gives_pure.1 h
    exact refl_of (Points output folder) _
  · rename_i specifier hspecifier
    split at h
    · obtain ⟨-, rfl⟩ := Step.gives_pure.1 h
      exact refl_of (Points output folder) _
    · rw [Step.gives_bind] at h
      obtain ⟨_, t, htrace, h⟩ := h
      obtain rfl := Step.gives_trace.1 htrace
      obtain ⟨-, rfl⟩ := Step.gives_edit.1 h
      refine ⟨rfl, fun x hx => ?_⟩
      rcases List.mem_append.1 hx with hx | hx
      · exact .inl hx
      · cases List.mem_singleton.1 hx
        exact .inr ⟨rfl, ⟨_, hresolve⟩, hspecifier⟩

/-- **A pass over a module in a folder points its references at their files.** -/
theorem leads_of_point {code code' : String} {paths : List Path} (hwf : s.files.WellFormed)
    (hfolder : s.files.isFolder output = true)
    (h : (Relative.point code output paths).Gives s code' s') : s'.files = s.files ∧
      ∀ x, .pointed x ∈ s'.events → .pointed x ∈ s.events ∨ x.Leads s.files := by
  obtain ⟨root, hroot, hget⟩ := FileTree.isFolder_iff.1 hfolder
  have hpoints : Points output ((s.files.canonical output).toOption.getD output) s s' := by
    unfold Relative.point at h
    rw [Step.gives_bind] at h
    obtain ⟨refs, t, hscan, h⟩ := h
    obtain ⟨-, -, -, log, rfl⟩ := Step.gives_scan hscan
    rw [Step.gives_bind] at h
    obtain ⟨files, t, hfiles, h⟩ := h
    obtain ⟨rfl, rfl⟩ := Step.gives_files.1 hfiles
    dsimp only at h
    rw [Step.gives_bind] at h
    obtain ⟨draft, t, hfold, h⟩ := h
    obtain ⟨-, rfl⟩ := Step.gives_pure.1 h
    have hrest := Step.Respects.foldlM
      (fun draft r _ => points_pointReference paths code.toList draft r) _ _ _ _ hfold
    exact ⟨hrest.files, hrest.pointed⟩
  refine ⟨hpoints.files, fun x hx => (hpoints.pointed x hx).imp_right ?_⟩
  rintro ⟨rfl, ⟨paths, hresolve⟩, hspecifier⟩
  obtain ⟨l, content, hfound, hget'⟩ := FileTree.resolve_eq_ok hresolve
  obtain ⟨file, -, hfile⟩ := FileTree.search_of_resolve hresolve
  obtain ⟨-, -, -, hfits⟩ := FileTree.canonical_eq_ok.1 hfile
  refine ⟨root, l, content, hroot, hfound, hfits, hget', fun hrootFits hlong => ?_⟩
  rw [FileTree.canonical_eq_ok.2 ⟨root, hroot, rfl, hrootFits⟩, hfound] at hspecifier
  exact hwf.locate_join_specifierFrom hroot hget hget' hspecifier hlong

/-! ### A whole build -/

/-- Between two sessions the files grow, and references that are pointed lead to their
files. -/
structure Pointing (s s' : Session) : Prop where
  kept : s.Keeps s'
  pointed : s.files.WellFormed → ∀ x, .pointed x ∈ s'.events →
    .pointed x ∈ s.events ∨ x.Leads s'.files

namespace Pointing

instance : IsPreorder Session Pointing where
  refl s := ⟨refl_of Keeps s, fun _ _ h => .inl h⟩
  trans s t s' h₁ h₂ := by
    refine ⟨trans_of Keeps h₁.kept h₂.kept, fun hwf x hx => ?_⟩
    have hwf' := (h₁.kept hwf).1
    rcases h₂.pointed hwf' x hx with hx | hx
    · exact (h₁.pointed hwf x hx).imp_right fun h => h.mono (h₂.kept hwf').2
    · exact .inr hx

theorem of_changes (hchanges : s.files.WellFormed → s.files.Changes s'.files)
    (hpointed : ∀ x, .pointed x ∈ s'.events → .pointed x ∈ s.events) : s.Pointing s' :=
  ⟨.of_changes hchanges, fun _ x hx => .inl (hpointed x hx)⟩

theorem of_eq (hfiles : s'.files = s.files)
    (hpointed : ∀ x, .pointed x ∈ s'.events → .pointed x ∈ s.events) : s.Pointing s' :=
  of_changes (fun _ => hfiles ▸ .refl) hpointed

theorem mem_of_mem_append {es : List Event} {e : Event} {x : Pointed}
    (he : ∀ x, e ≠ .pointed x) (h : .pointed x ∈ es ++ [e]) : .pointed x ∈ es := by
  rcases List.mem_append.1 h with h | h
  · exact h
  · exact absurd (List.mem_singleton.1 h).symm (he x)

theorem building : Session.Building Pointing where
  log _ _ := of_eq rfl fun _ h => h
  mapped _ _ := of_eq rfl fun _ h => h
  folders _ _ := of_changes (fun hwf => FileTree.changes_createFolders hwf _)
    fun _ h => h
  deliveries _ _ _ hmakes := of_changes (fun hwf => hmakes.changes hwf) fun _ h => h
  copies _ _ _ := of_eq rfl fun _ h => h
  followed _ _ := of_eq rfl fun _ h => mem_of_mem_append (fun _ he => by cases he) h
  bundles _ _ := of_eq rfl fun _ h => h
  entered _ _ _ := of_eq rfl fun _ h => mem_of_mem_append (fun _ he => by cases he) h
  begun _ _ _ := of_eq rfl fun _ h => mem_of_mem_append (fun _ he => by cases he) h
  linked _ _ := of_eq rfl fun _ h => mem_of_mem_append (fun _ he => by cases he) h

/-- **In a compilation without mapping, references that are pointed lead to their
files.** -/
theorem compile {b : Bundler} (hb : b.IsDiscreet) (hmapping : b.mappingPass? = none)
    (depth : Nat) {options : BuildOptions} (habsolute : options.destination.isAbsolute = true)
    (paths : List Path) : (Component.compile b depth options paths).Respects Pointing := by
  induction depth generalizing options paths with
  | zero => exact .fail _
  | succ depth ih =>
    intro s u s' h
    by_cases hwf : s.files.WellFormed
    · obtain ⟨stages⟩ := Component.stages_of_gives h
      have hstyle := (hb (Step.Respects Pointing)).preprocessor (options.publicPath stages.name)
      let c : ComponentContext :=
        ⟨b, options, paths, stages.name, options.destination.join ⟨stages.name⟩⟩
      have hreference := fun draft r (_ : r.IsTyped b.types) => building.steps.compileReference c
        (fun source paths => @ih { options with source } habsolute paths) draft r
      have hentered : s.Pointing (Component.enter s options.source stages.entry stages.log) :=
        of_eq rfl fun _ h => mem_of_mem_append (fun _ he => by cases he) h
      have hmade := trans_of Pointing hentered (building.steps.createFolder _ _ _ _ stages.makes)
      have hcopied := building.steps.copyFolders _ _ hstyle _ _ _ stages.copies
      have htranslated := building.steps.runPlugin (c := c) (hb _)
        (fun code draft r _ => building.steps.copyPlain c code draft r)
        (fun pass _ => building.steps.mappingPass pass) hreference
        stages.registered _ hstyle _ _ _ stages.translates
      have hlater : stages.made.Pointing stages.translated :=
        trans_of Pointing hcopied (trans_of Pointing (building.mapped _ _) htranslated)
      have hbefore := trans_of Pointing hmade hlater
      -- the folder of the output is there before anything is pointed
      have hne : (options.destination.join ⟨stages.name⟩).text ≠ "" := by
        intro hempty
        have hjoined := Path.isAbsolute_join habsolute ⟨stages.name⟩
        rw [Path.isAbsolute, hempty] at hjoined
        cases hjoined
      have hfolder := (hlater.kept (hmade.kept hwf).1).2.isFolder
        (Session.isFolder_of_createFolder (hentered.kept hwf).1 hne stages.makes)
      obtain ⟨code, t, hpoint, hminify⟩ := Component.gives_finish hmapping stages.finishes
      obtain ⟨hfiles, hleads⟩ := leads_of_point (hbefore.kept hwf).1 hfolder hpoint
      have hpointed : stages.translated.Pointing t :=
        ⟨.of_eq hfiles, fun _ x hx => hfiles ▸ hleads x hx⟩
      have hminified := (hb (Step.Respects Pointing)).minify _ _ _ _ _ hminify
      have hdelivered := building.steps.deliver _ _ _ _ _ _ stages.delivers
      exact trans_of Pointing hbefore (trans_of Pointing hpointed (trans_of Pointing hminified
        (trans_of Pointing (building.mapped _ _) hdelivered)))
    · exact ⟨fun h => absurd h hwf, fun h => absurd h hwf⟩

theorem of_builds {b : Bundler} (hb : b.IsDiscreet) (hmapping : b.mappingPass? = none)
    {options : BuildOptions} {bundles : List Bundle} (h : b.Builds options s bundles s') :
    ∃ log, (Bundler.start s log).Pointing s' := by
  refine (Bundler.relates_of_builds building.toNoting h fun source => ?_).2
  exact Bundler.respects_compileEntry building.begun fun paths =>
    @compile b hb hmapping _ { options with
      source, destination := Path.absolutize s.files.current.path options.destination }
      (Path.isAbsolute_absolutize _ _) paths

end Pointing
end Session

/-! ### The references of modules -/

/-- A path leads to a place below a folder. -/
def FileTree.LeadsBelow (t : FileTree) (folder p : Path) (l : Location) : Prop :=
  ∃ root, t.locate folder = .ok root ∧ t.locate p = .ok l ∧ root <+: l

/-- A path leads to a file below a folder. -/
def FileTree.HoldsBelow (t : FileTree) (folder p : Path) : Prop :=
  ∃ l, t.LeadsBelow folder p l ∧ t.HasFile l

namespace Session

/-- A written module in a folder has a relative reference. -/
structure Refers (s : Session) (m : Bundle) (folder : Path) (r : Reference) : Prop where
  output : m.output = folder.join ⟨moduleFile⟩
  relative : Specifier.isRelative r.target = true
  scanned : ∃ code found, s.files.readText m.output = .ok code ∧
    scan { withExports := true } code = .ok found ∧ r ∈ found.references

/-- The last pass over the module in a folder wrote a reference. -/
def Points? (s : Session) (folder : Path) (r : Reference) (x : Pointed) : Prop :=
  .pointed x ∈ s.events ∧ x.output = folder ∧ x.specifier = r.target

end Session

/-- A component with a script beside it. -/
def helperScript : FileTree where
  entries := [
    (["a_a"], .folder),
    (["a_a", "index.esm"], .file (.text "import './util.js'\nexport default A")),
    (["a_a", "util.js"], .file (.text "x"))]

/-- The reference to the script, by an import or an export in the first line. -/
def helperReference (bindings : List String) (stop : Nat) : Reference :=
  ⟨"./util.js", .plainCode, some "js", ⟨0, stop⟩, ⟨stop - 11, stop⟩, none, bindings, false⟩

set_option maxRecDepth 100000 in
theorem helperScript_run :
    let r : Except Failure (List Bundle) × Session :=
      (Bundler.compile {} { source := ⟨"/a_a"⟩, destination := ⟨"/o"⟩ }).run.run
        { files := helperScript }
    r.1.toOption = some [⟨⟨"/o/a_a/index.js"⟩, 68, none⟩] ∧
      .pointed ⟨⟨"/o/a_a"⟩, "./util.js", ⟨"/o/a_a/util.js"⟩, "./util.js"⟩ ∈ r.2.events ∧
      r.2.deliveries.head? = some ⟨⟨"/a_a/util.js"⟩, ⟨"/o/a_a/util.js"⟩⟩ ∧
      r.2.files.locate ⟨"/o"⟩ = .ok ["o"] ∧
      r.2.files.locate ⟨"/o/a_a/util.js"⟩ = .ok ["o", "a_a", "util.js"] ∧
      r.2.files.locate ⟨"/o/a_a/./util.js"⟩ = .ok ["o", "a_a", "util.js"] ∧
      r.2.files.canonical ⟨"/o/a_a"⟩ = .ok ⟨"/o/a_a"⟩ := by
  decide +kernel

/-- A component that exports from a script beside it. -/
def exportedScript : FileTree where
  entries := [
    (["a_a"], .folder),
    (["a_a", "index.esm"], .file (.text "export { x } from './util.js'\nexport default A")),
    (["a_a", "util.js"], .file (.text "x"))]

/-- The module that is written for it. -/
def exportingModule : String :=
  "export { x } from './util.js'\nexport default A\n\ncustomElements.define('a-a', A)"

set_option maxRecDepth 100000 in
theorem exportedScript_run :
    let r : Except Failure (List Bundle) × Session :=
      (Bundler.compile {} { source := ⟨"/a_a"⟩, destination := ⟨"/o"⟩ }).run.run
        { files := exportedScript }
    r.1.toOption = some [⟨⟨"/o/a_a/index.js"⟩, 79, none⟩] ∧
      r.2.files.readText ⟨"/o/a_a/index.js"⟩ = .ok exportingModule ∧
      r.2.files.locate ⟨"/o/a_a/./util.js"⟩ = .error .notFound := by
  decide +kernel

set_option maxRecDepth 100000 in
theorem scan_exportingModule :
    (scan { withExports := true } exportingModule).toOption.map (·.references) =
      some [helperReference ["x"] 29] := by
  decide +kernel

end ElementBuild
