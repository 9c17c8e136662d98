/-
# What a module is made of

The module of a component is made of its script, of the destinations that are recorded for
the components that it refers to, and of what the relative references lead to that are left
in it.  These are looked for in the folder of its output and in its own folder first, and
elsewhere only then: below the output and the folder of the component that refers to it, if
it was not compiled at the top level.

So two builds write the same module for a component, whichever component is the first to
refer to it, if what is left in it is found in its own folders
(`Bundler.same_module_of_own_files`).  What is found further on may differ
(`two_modules_of_borrowedFile`).
-/
import ElementBuild.Proofs.Build.Compilations
import ElementBuild.Proofs.Build.Standalone
import ElementBuild.Proofs.Copy.Closure

namespace ElementBuild

/-! ### Passes -/

namespace Step

variable {options : ScanOptions} {code a a' : String} {s s' u u' : Session}

/-- A pass over a script: some of its references are handled, one after the other. -/
def pass (options : ScanOptions) (chosen : Reference → Bool)
    (f : Text.Draft → Reference → Step Text.Draft) (code : String) : Step String := do
  let references ← scan options code
  let draft ← (references.filter chosen).foldlM f (Text.Draft.ofString code)
  return draft.toString

variable {chosen : Reference → Bool} {f g : Text.Draft → Reference → Step Text.Draft}

theorem gives_pass : (pass options chosen f code).Gives s a s' ↔ ∃ references t draft,
    (scan options code).Gives s references t ∧
      ((references.filter chosen).foldlM f (Text.Draft.ofString code)).Gives t draft s' ∧
        a = draft.toString := by
  unfold pass
  simp only [gives_bind, gives_pure]
  constructor
  · rintro ⟨references, t, hscan, draft, _, hfold, rfl, rfl⟩
    exact ⟨references, t, draft, hscan, hfold, rfl⟩
  · rintro ⟨references, t, draft, hscan, hfold, rfl⟩
    exact ⟨references, t, hscan, draft, s', hfold, rfl, rfl⟩

/-- The references of a script do not depend on the session. -/
theorem scan_agree {references references' : List Reference}
    (h : (scan options code).Gives s references s')
    (h' : (scan options code).Gives u references' u') : references = references' := by
  obtain ⟨found, hfound, rfl, -⟩ := gives_scan h
  obtain ⟨found', hfound', rfl, -⟩ := gives_scan h'
  cases hfound.symm.trans hfound'
  rfl

/-- Two passes over a script give the same if they handle each reference that they come to in
the same way. -/
theorem pass_agree (h : (pass options chosen f code).Gives s a s')
    (h' : (pass options chosen g code).Gives u a' u')
    (hround : ∀ references t v, (scan options code).Gives s references t →
      (scan options code).Gives u references v → ∀ r d t₁ v₁,
        Reaches f (references.filter chosen) (Text.Draft.ofString code) t r d t₁ →
        Reaches g (references.filter chosen) (Text.Draft.ofString code) v r d v₁ →
          ∀ d₁ d₂ t₂ v₂, (f d r).Gives t₁ d₁ t₂ → (g d r).Gives v₁ d₂ v₂ → d₁ = d₂) : a = a' := by
  obtain ⟨references, t, draft, hscan, hfold, rfl⟩ := gives_pass.1 h
  obtain ⟨references', v, draft', hscan', hfold', rfl⟩ := gives_pass.1 h'
  obtain rfl := scan_agree hscan hscan'
  exact congrArg Text.Draft.toString
    (Reaches.agree hfold hfold' (hround references t v hscan hscan'))

/-- A pass that has nothing to handle leaves the script as it is. -/
theorem eq_of_pass (h : (pass options chosen f code).Gives s a s')
    (hnone : ∀ found, ElementBuild.scan options code = .ok found →
      ∀ r ∈ found.references, chosen r = false) : a = code := by
  obtain ⟨references, t, draft, hscan, hfold, rfl⟩ := gives_pass.1 h
  obtain ⟨found, hfound, rfl, -⟩ := gives_scan hscan
  rw [List.filter_eq_nil_iff.2 fun r hr => Bool.eq_false_iff.1 (hnone found hfound r hr)] at hfold
  obtain ⟨rfl, -⟩ := gives_pure.1 hfold
  exact String.ofList_toList

end Step

namespace ComponentContext

variable {c : ComponentContext} {code a a' : String} {s s' u u' : Session}

theorem copyPlainCode_eq (c : ComponentContext) (code : String) : c.copyPlainCode code =
    Step.pass c.scanOptions (·.kind == .plainCode) (c.copyPlain code.toList) code := rfl

theorem compileComponents_eq (c : ComponentContext) (build : ComponentBuild) (code : String) :
    c.compileComponents build code =
      Step.pass c.scanOptions (·.kind == .component) (c.compileReference build) code := rfl

theorem inlineAssets_eq (c : ComponentContext) (code : String) : c.inlineAssets code =
    Step.pass {} (·.kind == .asset) c.inlineAsset code := rfl

/-- Where scripts are copied from has no part in how they are referred to. -/
theorem copyPlainCode_agree (h : (c.copyPlainCode code).Gives s a s')
    (h' : (c.copyPlainCode code).Gives u a' u') : a = a' := by
  rw [copyPlainCode_eq] at h h'
  refine Step.pass_agree h h' fun _ _ _ _ _ r d t v _ _ d₁ d₂ t' v' hround hround' => ?_
  unfold copyPlain at hround hround'
  simp only [Step.gives_bind, Step.gives_edit] at hround hround'
  obtain ⟨_, _, _, _, _, _, _, _, _, hedit, -⟩ := hround
  obtain ⟨_, _, _, _, _, _, _, _, _, hedit', -⟩ := hround'
  exact Except.ok.inj (hedit.symm.trans hedit')

/-- Without mapping rules, scripts stay as they are. -/
theorem eq_of_mapCode (hmapping : c.bundler.mappingPass? = none)
    (h : (c.mapCode code).Gives s a s') : a = code := by
  unfold mapCode at h
  rw [hmapping] at h
  exact (Step.gives_pure.1 h).1

/-- The imports of assets are replaced in the same way in each session. -/
theorem inlineAssets_agree (h : (c.inlineAssets code).Gives s a s')
    (h' : (c.inlineAssets code).Gives u a' u') : a = a' := by
  rw [inlineAssets_eq] at h h'
  refine Step.pass_agree h h' fun _ _ _ _ _ r d t v _ _ d₁ d₂ t' v' hround hround' => ?_
  exact Except.ok.inj ((Step.gives_edit.1 hround).1.symm.trans (Step.gives_edit.1 hround').1)

/-- References to components are replaced in the same way if they are linked to the same
destinations. -/
theorem compileComponents_agree {build build' : ComponentBuild}
    (h : (c.compileComponents build code).Gives s a s')
    (h' : (c.compileComponents build' code).Gives u a' u')
    (hlinks : ∀ r l l' t t' v v', c.Links build code s r l t t' → c.Links build' code u r l' v v' →
      l.destination = l'.destination) : a = a' := by
  rw [compileComponents_eq] at h h'
  refine Step.pass_agree h h' ?_
  intro references t₀ v₀ hscan hscan' r d t v hreach hreach' d₁ d₂ t' v' hround hround'
  unfold compileReference at hround hround'
  simp only [Step.gives_bind, Step.gives_edit, Step.gives_trace] at hround hround'
  obtain ⟨l, _, hlink, _, _, -, hedit, -⟩ := hround
  obtain ⟨l', _, hlink', _, _, -, hedit', -⟩ := hround'
  have hdestination := hlinks _ _ _ _ _ _ _ ⟨_, _, _, hscan, hreach, hlink⟩
    ⟨_, _, _, hscan', hreach', hlink'⟩
  rw [ComponentLink.specifier, hdestination, (entry_of_link hlink).1,
    ← (entry_of_link hlink').1] at hedit
  exact Except.ok.inj (hedit.symm.trans hedit')

end ComponentContext

/-- A module is pointed in the same way where its folder is the same and its relative
references lead to the same files. -/
theorem Relative.point_agree {code a a' : String} {output : Path} {paths paths' : List Path}
    {s s' u u' : Session} (h : (point code output paths).Gives s a s')
    (h' : (point code output paths').Gives u a' u')
    (hfolder : s.files.canonical output = u.files.canonical output)
    (hfound : ∀ found, scan {} code = .ok found → ∀ r ∈ found.references,
      Specifier.isRelative r.target = true →
        s.files.resolve r.target (output :: paths) = u.files.resolve r.target (output :: paths')) :
    a = a' := by
  unfold point at h h'
  simp only [Step.gives_bind, Step.gives_pure, Step.gives_files] at h h'
  obtain ⟨refs, t, hscan, _, _, ⟨rfl, rfl⟩, draft, _, hfold, rfl, -⟩ := h
  obtain ⟨refs', v, hscan', _, _, ⟨rfl, rfl⟩, draft', _, hfold', rfl, -⟩ := h'
  obtain rfl := Step.scan_agree hscan hscan'
  obtain ⟨found, hreferences, rfl, log, rfl⟩ := Step.gives_scan hscan
  obtain ⟨-, -, -, log', rfl⟩ := Step.gives_scan hscan'
  rw [show ({ u with log := log' } : Session).files.canonical output = s.files.canonical output
    from hfolder.symm] at hfold'
  refine congrArg Text.Draft.toString (Step.Reaches.agree hfold hfold' ?_)
  intro r e t v hreach hreach' e₁ e₂ t' v' hround hround'
  obtain ⟨href, hrelative⟩ := List.mem_filter.1 hreach.mem
  have hfiles := (hreach.relates fun draft r _ =>
    Session.points_pointReference paths code.toList draft r).files
  have hfiles' := (hreach'.relates fun draft r _ =>
    Session.points_pointReference paths' code.toList draft r).files
  have hresolved := hfound found hreferences r href hrelative
  unfold pointReference at hround hround'
  simp only [Step.gives_bind, Step.gives_resolve, hfiles, hfiles'] at hround hround'
  obtain ⟨file, _, ⟨hfile, rfl⟩, hround⟩ := hround
  obtain ⟨file', _, ⟨hfile', rfl⟩, hround'⟩ := hround'
  obtain rfl : file = file' := Except.ok.inj (hfile.symm.trans (hresolved.trans hfile'))
  split at hround
  · rename_i hspecifier
    rw [hspecifier] at hround'
    exact (Step.gives_pure.1 hround).1.trans (Step.gives_pure.1 hround').1.symm
  · rename_i specifier hspecifier
    rw [hspecifier] at hround'
    dsimp only at hround'
    split at hround
    · rename_i hedit
      rw [hedit] at hround'
      exact (Step.gives_pure.1 hround).1.trans (Step.gives_pure.1 hround').1.symm
    · rename_i edit hedit
      rw [hedit] at hround'
      simp only [Step.gives_bind, Step.gives_trace, Step.gives_edit] at hround hround'
      obtain ⟨_, _, -, hmade, -⟩ := hround
      obtain ⟨_, _, -, hmade', -⟩ := hround'
      exact Except.ok.inj (hmade.symm.trans hmade')

/-- A script that refers to nothing that the passes handle is left as it is. -/
theorem Component.Course.script_eq {b : Bundler} {build : ComponentBuild} {options : BuildOptions}
    {paths : List Path} {s s' : Session} (x : Component.Course b build options paths s s')
    (hmapping : b.mappingPass? = none)
    (htyped : ∀ found, scan { types := b.types } x.code = .ok found →
      ∀ r ∈ found.references, r.kind = .external)
    (huntyped : ∀ found, scan {} x.code = .ok found → ∀ r ∈ found.references, r.kind = .external) :
    x.script = x.code := by
  have hplain : x.plain = x.code := Step.eq_of_pass x.places fun found hfound r hr => by
    rw [htyped found hfound r hr]
    rfl
  have hmapped : x.mapped = x.code :=
    (ComponentContext.eq_of_mapCode hmapping x.maps).trans hplain
  have hlinked : x.linked = x.code := by
    refine (Step.eq_of_pass x.joins fun found hfound r hr => ?_).trans hmapped
    rw [htyped found (hmapped ▸ hfound) r hr]
    rfl
  refine (Step.eq_of_pass x.inlines fun found hfound r hr => ?_).trans hlinked
  rw [huntyped found (hlinked ▸ hfound) r hr]
  rfl

/-! ### Two builds -/

namespace Bundler

variable {b : Bundler} {scope : Scope} {options : BuildOptions} {s s' : Session}

/-- A component is looked for below its own folder, and then below those of the component
that it is compiled for, if there is one. -/
theorem Compiles.paths {x : Compilation b} (h : b.Compiles scope options s x) :
    x.paths = [x.output, x.options.source] ∨ ∃ host : Compilation b,
      x.paths = [x.options.source, host.output, host.options.source] := by
  obtain ⟨o, sources, t, before, source, after, u, top, hopens, rfl, hbefore, henters, hnests⟩ := h
  rcases hnests.cases_tail with rfl | ⟨y, -, hy⟩
  · exact .inl (henters.options ▸ henters.paths)
  · exact .inr ⟨y, hy.paths⟩

/-- What is found in the own folders of a component is found there first. -/
theorem Compiles.resolve_own {x : Compilation b} (h : b.Compiles scope options s x)
    {t : FileTree} {specifier : String} {found : Path}
    (hfound : t.resolve specifier [x.output, x.options.source] = .ok found) :
    t.resolve specifier (x.output :: x.paths) = .ok found := by
  rcases h.paths with hpaths | ⟨host, hpaths⟩
  · rw [hpaths, FileTree.resolve_twice]
    exact hfound
  · rw [hpaths]
    exact FileTree.resolve_append [host.output, host.options.source] hfound

/-- In the course of a compilation, what relies on places that the build spares is read as
before the build. -/
theorem Compiles.read_eq {x : Compilation b} (h : b.Compiles scope options s x)
    (hregistry : b.registry = .initial) (hb : b.IsDiscreet) {bundles : List Bundle}
    (hbuild : (b.build scope options).Gives s bundles s') (hwf : s.files.WellFormed) {u : Session}
    (hstart : x.start.Touches u) (hstop : u.Touches x.stop) {α : Type} {read : FileTree → α}
    (hrelies : s.files.Relies (s.Spares s') read) : read u.files = read s.files := by
  obtain ⟨⟨log, hbefore⟩, -, hafter⟩ := h.spans hregistry hb hbuild
    (Session.Touches.building.spans hb (fun _ _ => .of_eq rfl rfl) _)
  exact (trans_of Session.Touches hbefore hstart).read_eq
    (trans_of Session.Touches hstop hafter) hwf hrelies

end Bundler

namespace Compilation

variable {b : Bundler}

/-- The places that a build changes have no part in what is read of a component: its entry
file, and the components that it refers to. -/
structure Undisturbed (x : Compilation b) (s s' : Session) : Prop where
  entry : s.files.Relies (s.Spares s') (Component.entryFile? · x.options.source)
  code : s.files.Relies (s.Spares s') (·.readText x.entry)
  links : ∀ r l t t', x.Links r l t t' →
    s.files.Relies (s.Spares s') (·.resolve r.target [x.options.source])

/-- The components that a component refers to are linked to the modules of their
folders. -/
def LinksModules (x : Compilation b) : Prop :=
  ∀ r l t t', x.Links r l t t' → l.destination.IsModuleOf l.entry x.options.destination

/-- A relative reference is left in the module of a component. -/
def Leaves (x : Compilation b) (r : Reference) : Prop :=
  ∃ found, scan {} x.course.compiled.code = .ok found ∧ r ∈ found.references ∧
    Specifier.isRelative r.target = true

/-- What is left in the module of a component is found in its own folders. -/
def Finds (x : Compilation b) (r : Reference) (file : Path) : Prop :=
  x.course.translated.files.resolve r.target [x.output, x.options.source] = .ok file

/-- Without mapping, a module is pointed, freed of its marks and linked to its source map
at last. -/
theorem finishes (x : Compilation b) (hplain : b.IsPlain) (hmapping : b.mappingPass? = none) :
    ∃ code t, (Relative.point x.course.compiled.code x.output x.paths).Gives
      x.course.translated code t ∧ x.course.module =
        Minify.linked ⟨Reference.stripMarks code, x.course.compiled.map⟩ sourcemapFile := by
  obtain ⟨code, t, hpoint, hminify⟩ := Component.gives_finish hmapping x.course.finishes
  refine ⟨code, t, hpoint, ?_⟩
  dsimp only at hminify
  rw [hplain.minify] at hminify
  exact (Step.gives_pure.1 hminify).1

end Compilation

namespace Bundler

variable {b : Bundler} {scope : Scope} {options : BuildOptions} {s s' : Session}

section Course

variable {x : Compilation b} (h : b.Compiles scope options s x) (hregistry : b.registry = .initial)
  (hb : b.IsDiscreet)
include h hregistry hb

/-- The sessions of a compilation in the course of a build follow each other. -/
theorem Compiles.follows {r : Session → Session → Prop} [IsPreorder Session r]
    (hr : Session.Building r) (hpointed : ∀ s p, r s { s with events := s.events ++ [.pointed p] }) :
    r x.start x.course.copied ∧ r x.course.copied x.course.translated ∧
      r x.course.translated x.stop := by
  have hspans := hr.spans hb hpointed (Path.absolutize s.files.current.path options.destination)
  have hx := Compilation.follows hspans.toPasses hb (x := x)
    (congrArg BuildOptions.destination (h.start_start hregistry hb hspans).2)
    (Path.isAbsolute_absolutize _ _)
  exact ⟨trans_of r hx.entered hx.copied,
    trans_of r (trans_of r (trans_of r (trans_of r hx.unmapped hx.placed) hx.remapped) hx.joined)
      hx.translated,
    trans_of r hx.finished hx.stop⟩

/-- The files when the script of a component has been handled come from those before the
build. -/
theorem Compiles.changes_translated (hwf : s.files.WellFormed) :
    s.files.Changes x.course.translated.files := by
  obtain ⟨⟨log, hbefore⟩, -⟩ := h.start_start hregistry hb
    (Session.Alters.building.spans hb (fun _ _ => .of_eq rfl) _)
  obtain ⟨hcopied, htranslated, -⟩ :=
    h.follows hregistry hb Session.Alters.building fun _ _ => .of_eq rfl
  exact trans_of Session.Alters (trans_of Session.Alters hbefore hcopied) htranslated hwf

/-- When the script of a component has been handled, its output has a folder. -/
theorem Compiles.exists_locate_output (hwf : s.files.WellFormed) :
    ∃ l, x.course.translated.files.locate x.output = .ok l := by
  have hr := Session.Alters.building
  obtain ⟨⟨log, hbefore⟩, hoptions⟩ := h.start_start hregistry hb
    (hr.spans hb (fun _ _ => .of_eq rfl) _)
  obtain ⟨-, htranslated, -⟩ := h.follows hregistry hb hr fun _ _ => .of_eq rfl
  have hdestination := congrArg BuildOptions.destination hoptions
  have hwf₁ : x.start.files.WellFormed := (hbefore hwf).wellFormed hwf
  have hmakes : x.start.Alters x.course.made :=
    trans_of Session.Alters (.of_eq rfl)
      (hr.toCopying.steps.createFolder _ _ _ _ x.course.makes)
  have hcopies : x.course.made.Alters x.course.copied := by
    have hstyle := (hb (Step.Respects Session.Alters)).preprocessor (x.options.publicPath x.name)
    exact hr.toCopying.steps.copyFolders _ _ hstyle _ _ _ x.course.copies
  have hne : x.output.text ≠ "" := by
    intro hempty
    have habsolute : x.output.isAbsolute = true :=
      Path.isAbsolute_join (hdestination ▸ Path.isAbsolute_absolutize _ _) _
    rw [Path.isAbsolute, hempty] at habsolute
    cases habsolute
  have hmade : x.course.made.files.isFolder x.output = true :=
    Session.isFolder_of_createFolder (s := Component.enter x.start x.options.source x.entry
      x.course.log) hwf₁ hne x.course.makes
  obtain ⟨l, hl, -⟩ := FileTree.isFolder_iff.1 hmade
  have hchanges : x.course.made.files.Changes x.course.translated.files :=
    trans_of Session.Alters hcopies htranslated ((hmakes hwf₁).wellFormed hwf₁)
  exact ⟨l, hchanges.grows.locate hl⟩

/-- Those files last to the end of the build. -/
theorem Compiles.grows_translated (hwf : s.files.WellFormed) {bundles : List Bundle}
    (hbuild : (b.build scope options).Gives s bundles s') :
    s.files.Grows x.course.translated.files ∧ x.course.translated.files.Grows s'.files := by
  have hchanges := h.changes_translated hregistry hb hwf
  obtain ⟨-, -, hstop⟩ := h.follows hregistry hb Session.Alters.building fun _ _ => .of_eq rfl
  have hend := h.stop_stop hregistry hb
    (Session.Alters.building.spans hb (fun _ _ => .of_eq rfl) _) hbuild
  exact ⟨hchanges.grows,
    (trans_of Session.Alters hstop hend (hchanges.wellFormed hwf)).grows⟩

variable {bundles : List Bundle} (hbuild : (b.build scope options).Gives s bundles s')
  (hwf : s.files.WellFormed) (hundisturbed : x.Undisturbed s s')
include hbuild hwf hundisturbed

/-- A component is compiled from the entry file that its folder has before the build. -/
theorem Compiles.reads :
    Component.entryFile? s.files x.options.source = .ok (some x.entry) ∧
      s.files.readText x.entry = .ok x.course.code := by
  obtain ⟨hcopied, htranslated, hstop⟩ :=
    h.follows hregistry hb Session.Touches.building fun _ _ => .of_eq rfl rfl
  have hcopied' := trans_of Session.Touches htranslated hstop
  have hentry := h.read_eq hregistry hb hbuild hwf (refl_of Session.Touches x.start)
    (trans_of Session.Touches hcopied hcopied') hundisturbed.entry
  have hcode := h.read_eq hregistry hb hbuild hwf hcopied hcopied' hundisturbed.code
  exact ⟨hentry.symm.trans x.found, hcode.symm.trans x.course.reads⟩

/-- A reference to a component is linked to what it leads to before the build. -/
theorem Compiles.resolve_link {r : Reference} {l : ComponentLink} {t t' : Session}
    (hlink : x.Links r l t t') : s.files.resolve r.target [x.options.source] = .ok l.entry := by
  have hspans := Session.Touches.building.spans hb (fun _ _ => .of_eq rfl rfl)
    (Path.absolutize s.files.current.path options.destination)
  have hdestination := congrArg BuildOptions.destination (h.start_start hregistry hb hspans).2
  have habsolute := Path.isAbsolute_absolutize s.files.current options.destination
  obtain ⟨hbefore, hround, -⟩ :=
    Compilation.start_link hspans.toPasses hb hdestination habsolute hlink
  have hafter := Compilation.link_stop hspans.toPasses hb hdestination habsolute hlink
  rw [← h.read_eq hregistry hb hbuild hwf hbefore (trans_of Session.Touches hround hafter)
    (hundisturbed.links r l t t' hlink)]
  obtain ⟨-, -, -, -, -, hgives⟩ := hlink
  exact (ComponentContext.entry_of_link hgives).2

end Course

/-- **Two builds write the same module for a component, whichever component is the first to
refer to it**, if they do not disturb what is read of it, link what it refers to to the
modules of their folders, and find what is left in its module in its own folders, and the
same files there. -/
theorem same_module_of_own_files (hplain : b.IsPlain) (hmapping : b.mappingPass? = none)
    {scope₁ scope₂ : Scope} {options₁ options₂ : BuildOptions} {s s₁ s₂ : Session}
    {bundles₁ bundles₂ : List Bundle} (hwf : s.files.WellFormed)
    (hoptions : options₂ = { options₁ with source := options₂.source })
    (hbuild₁ : (b.build scope₁ options₁).Gives s bundles₁ s₁)
    (hbuild₂ : (b.build scope₂ options₂).Gives s bundles₂ s₂) {x₁ x₂ : Compilation b}
    (hx₁ : b.Compiles scope₁ options₁ s x₁) (hx₂ : b.Compiles scope₂ options₂ s x₂)
    (hsource : x₂.options.source = x₁.options.source)
    (hundisturbed₁ : x₁.Undisturbed s s₁) (hundisturbed₂ : x₂.Undisturbed s s₂)
    (hlinks₁ : x₁.LinksModules) (hlinks₂ : x₂.LinksModules)
    (hown : ∀ r, x₁.Leaves r → ∃ file, x₁.Finds r file ∧ x₂.Finds r file) :
    x₂.output = x₁.output ∧ x₂.course.module = x₁.course.module := by
  have hb := hplain.isDiscreet
  have hsame : x₂.options = x₁.options := by
    have hr := Session.Alters.building.spans hb (fun _ _ => .of_eq rfl)
    rw [(hx₁.start_start hplain.registry hb (hr _)).2,
      (hx₂.start_start hplain.registry hb (hr _)).2, hsource, hoptions]
  have hname : x₂.name = x₁.name :=
    Option.some.inj (x₂.named.symm.trans ((congrArg _ hsource).trans x₁.named))
  have houtput : x₂.output = x₁.output := by
    rw [Compilation.output, Compilation.output, hsame, hname]
  have hcontext : x₂.context = { x₁.context with resolutionPaths := x₂.paths } := by
    change (⟨b, x₂.options, x₂.paths, x₂.name, x₂.output⟩ : ComponentContext) =
      ⟨b, x₁.options, x₂.paths, x₁.name, x₁.output⟩
    rw [houtput, hsame, hname]
  obtain ⟨hentry₁, hcode₁⟩ := hx₁.reads hplain.registry hb hbuild₁ hwf hundisturbed₁
  obtain ⟨hentry₂, hcode₂⟩ := hx₂.reads hplain.registry hb hbuild₂ hwf hundisturbed₂
  rw [hsource] at hentry₂
  obtain hentry : x₁.entry = x₂.entry :=
    Option.some.inj (Except.ok.inj (hentry₁.symm.trans hentry₂))
  have hcode : x₁.course.code = x₂.course.code :=
    Except.ok.inj (hcode₁.symm.trans (hentry ▸ hcode₂))
  -- the passes over the script
  have hplain' : x₁.course.plain = x₂.course.plain := by
    have hplaces := x₂.course.places
    rw [show x₂.course.toStages.context = _ from hcontext, ← hcode] at hplaces
    exact ComponentContext.copyPlainCode_agree x₁.course.places hplaces
  have hmapped : x₁.course.mapped = x₂.course.mapped := by
    rw [ComponentContext.eq_of_mapCode hmapping x₁.course.maps,
      ComponentContext.eq_of_mapCode hmapping x₂.course.maps, hplain']
  have hlinked : x₁.course.linked = x₂.course.linked := by
    have hjoins := x₂.course.joins
    rw [show x₂.course.toStages.context = _ from hcontext, ← hmapped] at hjoins
    refine ComponentContext.compileComponents_agree x₁.course.joins hjoins ?_
    intro r l l' t t' v v' hlink hlink'
    have hlink₂ : x₂.Links r l' v v' := by
      rw [Compilation.Links, show x₂.course.toStages.context = _ from hcontext, ← hmapped]
      exact hlink'
    have hentries := hx₁.resolve_link hplain.registry hb hbuild₁ hwf hundisturbed₁ hlink
    have hentries' := hx₂.resolve_link hplain.registry hb hbuild₂ hwf hundisturbed₂ hlink₂
    rw [hsource] at hentries'
    have hdestination := hlinks₂ r l' v v' hlink₂
    rw [hsame] at hdestination
    refine (hlinks₁ r l t t' hlink).unique hdestination ?_
    rw [Except.ok.inj (hentries.symm.trans hentries')]
    exact Path.same_refl _
  have hscript : x₁.course.script = x₂.course.script := by
    have hinlines := x₂.course.inlines
    rw [show x₂.course.toStages.context = _ from hcontext, ← hlinked] at hinlines
    exact ComponentContext.inlineAssets_agree x₁.course.inlines hinlines
  have hcompiled : x₁.course.compiled = x₂.course.compiled := by
    obtain ⟨r₁, m₁, hr₁, hfile₁, hmap₁, hm₁, ho₁⟩ := x₁.course.written
    obtain ⟨r₂, m₂, hr₂, hfile₂, hmap₂, hm₂, ho₂⟩ := x₂.course.written
    have helement : x₁.course.element = x₂.course.element :=
      Option.some.inj (x₁.course.exported.symm.trans (hcode ▸ x₂.course.exported))
    have hm : m₁ = m₂ := by
      rw [hm₁, hm₂, hscript, helement, show x₁.course.entry = x₂.course.entry from hentry]
    rw [ho₁, ho₂, hm, Plugin.Ecmascript.sourcemap, Plugin.Ecmascript.sourcemap, hr₁, hr₂, hcode,
      hfile₁, hfile₂, hmap₁, hmap₂.trans (congrArg BuildOptions.sourcemap hsame),
      show x₁.course.entry = x₂.course.entry from hentry]
  refine ⟨houtput, ?_⟩
  obtain ⟨code₁, t₁, hpoint₁, hmodule₁⟩ := x₁.finishes hplain hmapping
  obtain ⟨code₂, t₂, hpoint₂, hmodule₂⟩ := x₂.finishes hplain hmapping
  rw [← hcompiled, houtput] at hpoint₂
  have hcode' : code₁ = code₂ := by
    refine Relative.point_agree hpoint₁ hpoint₂ ?_ fun found hfound r hr hrelative => ?_
    · obtain ⟨l, hl⟩ := hx₁.exists_locate_output hplain.registry hb hwf
      obtain ⟨l', hl'⟩ := hx₂.exists_locate_output hplain.registry hb hwf
      have hlinks := (hx₁.changes_translated hplain.registry hb hwf).sameLinks.symm.trans
        (hx₂.changes_translated hplain.registry hb hwf).sameLinks
      rw [houtput] at hl'
      obtain rfl := hlinks.locate hl hl'
      rw [FileTree.canonical, FileTree.canonical, hl, hl']
    · obtain ⟨file, hfile, hfile'⟩ := hown r ⟨found, hfound, hr, hrelative⟩
      have hresolved := hx₂.resolve_own hfile'
      rw [houtput] at hresolved
      rw [hx₁.resolve_own hfile, hresolved]
  rw [hmodule₁, hmodule₂, hcode', hcompiled]

end Bundler

/-- A component with a style of its own, and one that refers to it. -/
def ownStyle : FileTree where
  entries := [
    (["d_d"], .folder), (["h_a"], .folder),
    (["d_d", "index.esm"], .file (.text "import './theme.css'\nexport default D")),
    (["d_d", "theme.css"], .file (.text "")),
    (["h_a", "index.esm"], .file (.text "import '../d_d/index.esm'\nexport default A"))]

set_option maxRecDepth 100000 in
theorem ownStyle_run : ∀ source ∈ [(⟨"/d_d"⟩ : Path), ⟨"/h_a"⟩],
    let r : Except Failure (List Bundle) × Session :=
      (Bundler.build {} .one { source, destination := ⟨"/o"⟩ }).run.run { files := ownStyle }
    r.1.toOption.isSome = true ∧ .entered ⟨"/d_d"⟩ ⟨"/d_d/index.esm"⟩ ∈ r.2.events ∧
      (r.2.events.all fun e => match e with
        | .linked l => l.output != ⟨"/o/d_d"⟩
        | _ => true) = true ∧
      (∀ x ∈ r.2.files.entries, x.1.head? = some "d_d" → x ∈ ownStyle.entries) ∧
      (∀ d ∈ r.2.deliveries, ((r.2.files.locate d.target).toOption.bind List.head?) = some "o") ∧
      r.2.files.probe? ⟨"/o/d_d/./theme.css"⟩ = none ∧
      r.2.files.isFolder ⟨"/o/d_d/./theme.css"⟩ = false := by
  refine List.forall_mem_cons.2 ⟨?_, List.forall_mem_singleton.2 ?_⟩
  · decide +kernel
  · decide +kernel

theorem ownStyle_gives {source : Path} (hsource : source ∈ [(⟨"/d_d"⟩ : Path), ⟨"/h_a"⟩]) :
    ∃ bundles s', (Bundler.build {} .one { source, destination := ⟨"/o"⟩ }).Gives
        { files := ownStyle } bundles s' ∧
      .entered ⟨"/d_d"⟩ ⟨"/d_d/index.esm"⟩ ∈ s'.events ∧
      (∀ l, .linked l ∈ s'.events → l.output ≠ ⟨"/o/d_d"⟩) ∧
      (∀ n, Session.Spares { files := ownStyle } s' ("d_d" :: n)) ∧
      s'.files.probe? ⟨"/o/d_d/./theme.css"⟩ = none ∧
      s'.files.isFolder ⟨"/o/d_d/./theme.css"⟩ = false := by
  obtain ⟨hok, hentered, hlinks, hentries, hdeliveries, hprobe, hfolder⟩ :=
    ownStyle_run source hsource
  obtain ⟨bundles, hbundles⟩ := Option.isSome_iff_exists.1 hok
  have hbuild := Step.gives_of_run hbundles
  refine ⟨bundles, _, hbuild, hentered, fun l hl => ?_, fun n => ?_, hprobe, hfolder⟩
  · exact bne_iff_ne.1 (List.all_eq_true.1 hlinks _ hl)
  · obtain ⟨log, hfills⟩ :=
      Session.Fills.of_builds Bundler.isPlain_default.isDiscreet (.inl hbuild)
    have hwf : ownStyle.WellFormed := by decide
    refine Session.spares_of_entries hwf (hfills.kept hwf).2 (by simp) (fun x hx heq => ?_) ?_
    · exact hentries x hx (by rw [heq]; rfl)
    · rintro ⟨d, hd, hlocate⟩
      have hhead := hdeliveries d hd
      rw [hlocate] at hhead
      exact absurd hhead (by simp [Except.toOption])

/-- What is read of the component, in any tree that has it. -/
theorem ownStyle_reads {t : FileTree} (hwf : t.WellFormed)
    (h : ∀ n, t.get? ("d_d" :: n) = ownStyle.get? ("d_d" :: n)) :
    Component.entryFile? t ⟨"/d_d"⟩ = .ok (some ⟨"/d_d/index.esm"⟩) ∧
      t.readText ⟨"/d_d/index.esm"⟩ = .ok "import './theme.css'\nexport default D" := by
  have hfolder : t.get? ["d_d"] = some .folder := h []
  have hfile : t.get? ["d_d", "index.esm"] = some (.file (.text
    "import './theme.css'\nexport default D")) := h ["index.esm"]
  have hwf₀ : ownStyle.WellFormed := by decide
  constructor
  · have hl : t.locate ⟨"/d_d"⟩ = .ok ["d_d"] := hwf.locate_path (.inl hfolder) (by decide)
    have hlist : t.list ⟨"/d_d"⟩ = ownStyle.list ⟨"/d_d"⟩ :=
      hwf₀.list_congr hwf (by decide) hl (h []) fun n => h [n]
    rw [Component.entryFile?, hlist]
    decide
  · exact FileTree.readText_eq_ok.2 ⟨_, hwf.locate_path (.inr ⟨_, hfile⟩) (by decide), hfile⟩

/-- What the component refers to, before and after it is compiled. -/
theorem ownStyle_scan :
    (∀ found, scan { types := ["esm"] } "import './theme.css'\nexport default D" = .ok found →
      ∀ r ∈ found.references, r.kind = .external) ∧
    (∀ found, scan {} "import './theme.css'\nexport default D" = .ok found →
      ∀ r ∈ found.references, r.kind = .external) ∧
    (∀ found, scan {} ("import './theme.css'\nexport default D" ++ "\n\n" ++
      Plugin.Ecmascript.definition (Element.tag "d_d") "D") = .ok found →
        ∀ r ∈ found.references, r.target = "./theme.css") := by
  have hforall : ∀ {options : ScanOptions} {code : String} {p : Reference → Bool},
      (scan options code).toOption.all (·.references.all p) = true →
        ∀ found, scan options code = .ok found → ∀ r ∈ found.references, p r = true := by
    intro options code p hall found hfound
    rw [hfound] at hall
    exact List.all_eq_true.1 hall
  refine ⟨fun found hfound r hr => ?_, fun found hfound r hr => ?_, fun found hfound r hr => ?_⟩
  · exact eq_of_beq (hforall (p := (·.kind == .external)) (by decide +kernel) found hfound r hr)
  · exact eq_of_beq (hforall (p := (·.kind == .external)) (by decide +kernel) found hfound r hr)
  · exact eq_of_beq (hforall (p := (·.target == "./theme.css")) (by decide +kernel) found hfound r hr)

/-- However it comes to be compiled, the component links to nothing, it is not disturbed, and its
style alone is left in its module. -/
theorem ownStyle_compiled {source : Path} (hsource : source ∈ [(⟨"/d_d"⟩ : Path), ⟨"/h_a"⟩])
    {bundles : List Bundle} {s' : Session} (hbuild : (Bundler.build {} .one
      { source, destination := ⟨"/o"⟩ }).Gives { files := ownStyle } bundles s')
    {x : Compilation {}} (hx : Bundler.Compiles {} .one { source, destination := ⟨"/o"⟩ }
      { files := ownStyle } x) (hx₁ : x.options.source = ⟨"/d_d"⟩)
    (hx₂ : x.entry = ⟨"/d_d/index.esm"⟩) :
    x.output = ⟨"/o/d_d"⟩ ∧ (∀ r l t t', ¬ x.Links r l t t') ∧
      x.Undisturbed { files := ownStyle } s' ∧ ∀ r, x.Leaves r → r.target = "./theme.css" := by
  obtain ⟨_, _, hbuild', -, hlinks, hspares, -, -⟩ := ownStyle_gives hsource
  obtain ⟨-, rfl⟩ := hbuild.unique hbuild'
  have hdiscreet := Bundler.isPlain_default.isDiscreet
  have hwf : ownStyle.WellFormed := by decide
  have hreads := @ownStyle_reads ownStyle hwf fun _ => rfl
  have hoptions := (hx.start_start rfl hdiscreet
    (Session.Alters.building.spans hdiscreet (fun _ _ => .of_eq rfl) _)).2
  have houtput : x.output = ⟨"/o/d_d"⟩ := by
    have hname : some x.name = some "d_d" :=
      (hx₁ ▸ x.named).symm.trans (by decide : Path.fileName? ⟨"/d_d"⟩ = some "d_d")
    rw [Compilation.output, Option.some.inj hname, congrArg BuildOptions.destination hoptions]
    change (Path.absolutize ownStyle.current.path ⟨"/o"⟩).join ⟨"d_d"⟩ = ⟨"/o/d_d"⟩
    decide
  have hnone : ∀ r l t t', ¬ x.Links r l t t' := fun r l t t' hlink =>
    hlinks l (hx.linked_mem rfl hdiscreet hbuild hlink) (hlink.output.trans houtput)
  have hundisturbed : x.Undisturbed { files := ownStyle } s' := by
    refine ⟨fun t ht _ hsame => ?_, fun t ht _ hsame => ?_, fun r l t t' hlink =>
      absurd hlink (hnone r l t t')⟩
    · rw [hx₁]
      exact (ownStyle_reads ht fun n => hsame _ (hspares n)).1.trans hreads.1.symm
    · rw [hx₂]
      exact (ownStyle_reads ht fun n => hsame _ (hspares n)).2.trans hreads.2.symm
  refine ⟨houtput, hnone, hundisturbed, fun r hr => ?_⟩
  have hcode : x.course.code = "import './theme.css'\nexport default D" := by
    have hread := (hx.reads rfl hdiscreet hbuild hwf hundisturbed).2
    rw [hx₂] at hread
    exact Except.ok.inj (hread.symm.trans hreads.2)
  have hscript := x.course.script_eq rfl (hcode ▸ ownStyle_scan.1) (hcode ▸ ownStyle_scan.2.1)
  have helement : some x.course.element = some "D" := by
    rw [← x.course.exported, hcode]
    decide +kernel
  obtain ⟨found, hfound, hmem, -⟩ := hr
  obtain ⟨request, module, -, -, -, hmodule, hcompiled⟩ := x.course.written
  rw [hcompiled, hmodule, hscript, hcode, Option.some.inj helement,
    show x.course.entry = _ from hx₂] at hfound
  exact ownStyle_scan.2.2 found hfound r hmem

/-- However it comes to be compiled, the component is found and its style, too. -/
theorem ownStyle_compilation {source : Path} (hsource : source ∈ [(⟨"/d_d"⟩ : Path), ⟨"/h_a"⟩]) :
    ∃ bundles s' x, (Bundler.build {} .one { source, destination := ⟨"/o"⟩ }).Gives
        { files := ownStyle } bundles s' ∧
      Bundler.Compiles {} .one { source, destination := ⟨"/o"⟩ } { files := ownStyle } x ∧
      x.options.source = ⟨"/d_d"⟩ ∧ x.Undisturbed { files := ownStyle } s' ∧ x.LinksModules ∧
      (∀ r, x.Leaves r → r.target = "./theme.css") ∧
      ∀ r, r.target = "./theme.css" → x.Finds r ⟨"/d_d/theme.css"⟩ := by
  obtain ⟨bundles, s', hbuild, hentered, -, -, hprobe, hfolder⟩ := ownStyle_gives hsource
  have hdiscreet := Bundler.isPlain_default.isDiscreet
  have hwf : ownStyle.WellFormed := by decide
  obtain ⟨x, hx, hx₁, hx₂⟩ :=
    Bundler.exists_compiles_of_entered rfl hdiscreet hbuild hentered
  obtain ⟨houtput, hnone, hundisturbed, hleaves⟩ := ownStyle_compiled hsource hbuild hx hx₁ hx₂
  refine ⟨bundles, s', x, hbuild, hx, hx₁, hundisturbed, fun r l t t' hlink =>
    absurd hlink (hnone r l t t'), hleaves, fun r htarget => ?_⟩
  obtain ⟨hbefore, hafter⟩ := hx.grows_translated rfl hdiscreet hwf hbuild
  rw [Compilation.Finds, htarget, houtput, hx₁]
  exact FileTree.resolve_of_grows hbefore hafter (by decide) (by decide) hprobe hfolder
    (by decide) (by decide)

/-- The component has the same module, whether it is compiled by itself or for the other. -/
theorem same_module_of_ownStyle : ∃ bundles₁ s₁ bundles₂ s₂ x₁ x₂,
    (Bundler.build {} .one { source := ⟨"/d_d"⟩, destination := ⟨"/o"⟩ }).Gives
      { files := ownStyle } bundles₁ s₁ ∧
    (Bundler.build {} .one { source := ⟨"/h_a"⟩, destination := ⟨"/o"⟩ }).Gives
      { files := ownStyle } bundles₂ s₂ ∧
    Bundler.Compiles {} .one { source := ⟨"/d_d"⟩, destination := ⟨"/o"⟩ }
      { files := ownStyle } x₁ ∧
    Bundler.Compiles {} .one { source := ⟨"/h_a"⟩, destination := ⟨"/o"⟩ }
      { files := ownStyle } x₂ ∧
    x₁.options.source = ⟨"/d_d"⟩ ∧ x₂.options.source = ⟨"/d_d"⟩ ∧
      x₂.output = x₁.output ∧ x₂.course.module = x₁.course.module := by
  obtain ⟨bundles₁, s₁, x₁, hbuild₁, hx₁, hsource₁, hundisturbed₁, hlinks₁, hleaves, hfinds₁⟩ :=
    ownStyle_compilation (show ⟨"/d_d"⟩ ∈ _ by decide)
  obtain ⟨bundles₂, s₂, x₂, hbuild₂, hx₂, hsource₂, hundisturbed₂, hlinks₂, -, hfinds₂⟩ :=
    ownStyle_compilation (show ⟨"/h_a"⟩ ∈ _ by decide)
  refine ⟨bundles₁, s₁, bundles₂, s₂, x₁, x₂, hbuild₁, hbuild₂, hx₁, hx₂, hsource₁, hsource₂, ?_⟩
  have hwf : ownStyle.WellFormed := by decide
  refine Bundler.same_module_of_own_files Bundler.isPlain_default rfl hwf rfl hbuild₁ hbuild₂ hx₁ hx₂
    (hsource₂.trans hsource₁.symm) hundisturbed₁ hundisturbed₂ hlinks₁ hlinks₂ fun r hr => ?_
  exact ⟨_, hfinds₁ r (hleaves r hr), hfinds₂ r (hleaves r hr)⟩

/-- A component that refers to a style that two others have, which refer to it. -/
def borrowedFile : FileTree where
  entries := [
    (["d_d"], .folder), (["h_a"], .folder), (["h_b"], .folder),
    (["d_d", "index.esm"], .file (.text "import './theme.css'\nexport default D")),
    (["h_a", "index.esm"], .file (.text "import '../d_d/index.esm'\nexport default A")),
    (["h_a", "theme.css"], .file (.text "")),
    (["h_b", "index.esm"], .file (.text "import '../d_d/index.esm'\nexport default B")),
    (["h_b", "theme.css"], .file (.text ""))]

set_option maxRecDepth 100000 in
/-- **A component has two modules** where it refers to a file that it does not have: what
stands in the folder of the component that refers to it is taken. -/
theorem two_modules_of_borrowedFile :
    let build (source : Path) : Except Failure (List Bundle) × Session :=
      (Bundler.build {} .one { source, destination := ⟨"/o"⟩ }).run.run { files := borrowedFile }
    (build ⟨"/h_a"⟩).1.toOption.map (·.map (·.output)) =
        some [⟨"/o/d_d/index.js"⟩, ⟨"/o/h_a/index.js"⟩] ∧
      (build ⟨"/h_b"⟩).1.toOption.map (·.map (·.output)) =
        some [⟨"/o/d_d/index.js"⟩, ⟨"/o/h_b/index.js"⟩] ∧
      (build ⟨"/h_a"⟩).2.files.readText ⟨"/o/d_d/index.js"⟩ = .ok
        "import '../../h_a/theme.css'\nexport default D\n\ncustomElements.define('d-d', D)" ∧
      (build ⟨"/h_b"⟩).2.files.readText ⟨"/o/d_d/index.js"⟩ = .ok
        "import '../../h_b/theme.css'\nexport default D\n\ncustomElements.define('d-d', D)" := by
  -- each build is run once, for its bundles and its module together
  refine and_assoc.1 (and_and_and_comm.1 ⟨?_, ?_⟩)
  · decide +kernel
  · decide +kernel

end ElementBuild
