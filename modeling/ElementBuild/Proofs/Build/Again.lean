/-
# Builds that are made again

A component is compiled again over what the last build left, and the same is written, if the
places that the build changes have no part in what is read of the component and each reference
that is left for the last pass leads to the same file again (`Compilation.Lasts`).  Each pass is
repeated on the session that the one before it left (`Compilation.repeatable_compile`), down to
the components that are compiled for others (`Bundler.Compiles.repeatable`).

The last pass looks into the folder that it writes to first.  A reference may lead to a file there
that was not yet written the first time, and the module is another one then
(`other_files_of_ownFolder`).
-/
import ElementBuild.Proofs.Build.Module
import ElementBuild.Proofs.Copy.Apart

namespace ElementBuild

variable {s e u u' : Session}

/-! ### Passes over scripts -/

namespace ComponentContext

variable {c : ComponentContext} {build : ComponentBuild} {code text : String}

theorem recurs_copyPlainCode (h : s.LeavesScripts e) (code : String) :
    Step.Recurs s e (c.copyPlainCode code) := by
  refine (Step.Recurs.scan _ code).bind fun references =>
    (Step.Recurs.foldlM (fun draft r _ => ?_) _).bind fun _ => .pure _
  exact .follow h (g := fun found => ⟨c.options.source, c.output, r.target, found,
    Path.confine c.options.destination (c.output.join ⟨r.target⟩)⟩) (fun _ => ⟨rfl, rfl⟩) fun found =>
      (Step.Recurs.script h _ _ _).bind fun _ => .edit _ _

theorem recurs_inlineAssets (code : String) : Step.Recurs s e (c.inlineAssets code) :=
  (Step.Recurs.scan _ code).bind fun _ => (Step.Recurs.foldlM (fun _ _ _ => .edit _ _) _).bind
    fun _ => .pure _

/-- A reference is linked again, if it leads to the same entry and what it compiles can be
repeated. -/
theorem repeatable_link {r : Reference} {l : ComponentLink} (h : (c.link build r).Gives u l u')
    (hresolve : ∀ v, e.Repeats u v → v.files.resolve r.target [c.options.source] =
      u.files.resolve r.target [c.options.source])
    (hbuild : ∀ source, l.isFirst = true → l.entry.parent? = some source →
      let t : Session := { u.begin l.entry l.destination with
        log := u.log ++ [.info ("Compiling dependency " ++ source.text)] }
      (build { c.options with source } [source, c.output, c.options.source]).Gives t () u' →
        (build { c.options with source } [source, c.output, c.options.source]).Repeatable
          e t () u') : (c.link build r).Repeatable e u l u' := by
  obtain ⟨folder, stem, entry, hparts, hfound, hcase⟩ := gives_link h
  unfold link
  rw [hparts]
  refine .bind (.resolve hfound hresolve) (.get_bind ?_ fun v hv => by rw [hv.builds])
  rcases hcase with ⟨d, hrecorded, rfl, rfl⟩ | ⟨d, hnone, rfl, hcompile⟩
  · rw [hrecorded]
    exact .pure _ _
  · rw [hnone]
    refine .bind ?_ (.pure _ _)
    unfold compileDependency at hcompile ⊢
    cases hsource : entry.parent? with
    | none =>
      rw [hsource] at hcompile
      exact absurd hcompile Step.gives_fail
    | some source =>
      rw [hsource] at hcompile
      dsimp only at hcompile ⊢
      simp only [Step.gives_bind, Step.gives_attempt, Step.gives_tell, Step.gives_pure] at hcompile
      obtain ⟨_, _, ⟨_, _, rfl, hnested⟩, rfl, rfl⟩ := hcompile
      exact .bind (.attempt (.bind (.tell _) (hbuild source rfl hsource hnested))) (.pure _ _)

/-- The components that a script refers to are compiled again, if each reference can be linked
again. -/
theorem repeatable_compileComponents (hstart : s.Within e u) (hstop : s.Within e u')
    (hleads : ∀ draft r, r.IsTyped c.bundler.types →
      (c.compileReference build draft r).Respects Session.Leads)
    (h : (c.compileComponents build code).Gives u text u')
    (hlink : ∀ r l t t', c.Links build code u r l t t' → (c.link build r).Repeatable e t l t') :
    (c.compileComponents build code).Repeatable e u text u' := by
  unfold compileComponents at h ⊢
  simp only [Step.gives_bind, Step.gives_pure] at h
  obtain ⟨references, s₁, hscan, draft, _, hfold, rfl, rfl⟩ := h
  obtain ⟨found, hfound, rfl, -⟩ := Step.gives_scan hscan
  have hlater : s₁.Leads u' := Step.Respects.foldlM (fun draft r hr =>
    hleads draft r (isTyped_of_mem_scan hfound (List.mem_filter.1 hr).1)) _ _ _ _ hfold
  have hscanned := Session.Leads.building.toNoting.steps.scan _ _ _ _ _ hscan
  refine .bind ((Step.Recurs.scan _ code).again _ _ _ ⟨hstart, hscan, hstart.of_leads hscanned
    (trans_of Session.Leads hlater hstop.after)⟩) (.bind (.foldlM hfold ?_) (.pure _ _))
  intro r d t d' t' hreach hround _
  unfold compileReference at hround ⊢
  simp only [Step.gives_bind, Step.gives_trace, Step.gives_edit] at hround
  obtain ⟨l, t₁, hgives, _, _, rfl, hedit, rfl⟩ := hround
  exact .bind (hlink r l t t₁ ⟨_, s₁, d, hscan, hreach, hgives⟩) (.bind (.trace _) (.edit hedit))

end ComponentContext

/-! ### The last pass -/

/-- What a path leads to is as canonical in a later tree. -/
theorem FileTree.Grows.canonical_eq {t t' : FileTree} (h : t.Grows t') {p : Path} {l : Location}
    (hl : t.locate p = .ok l) : t'.canonical p = t.canonical p := by
  rw [FileTree.canonical, FileTree.canonical, hl, h.locate hl]

/-- Relative references are pointed at the same files again, if they lead to them. -/
theorem Relative.repeatable_point {code text : String} {output : Path} {paths : List Path}
    (hstart : s.Within e u) (hstop : s.Within e u') (h : (point code output paths).Gives u text u')
    {l : Location} (houtput : u.files.locate output = .ok l)
    (hresolve : ∀ found, scan {} code = .ok found → ∀ r ∈ found.references,
      Specifier.isRelative r.target = true → ∀ t, u.files.Recurs e.files t →
        t.resolve r.target (output :: paths) = u.files.resolve r.target (output :: paths)) :
    (point code output paths).Repeatable e u text u' := by
  unfold point at h ⊢
  simp only [Step.gives_bind, Step.gives_pure, Step.gives_files] at h
  obtain ⟨references, s₁, hscan, _, _, ⟨rfl, rfl⟩, draft, _, hfold, rfl, rfl⟩ := h
  obtain ⟨found, hfound, rfl, log, rfl⟩ := Step.gives_scan hscan
  have hrounds : ∀ folder draft r, (pointReference output folder paths code.toList draft r).Respects
      Session.Leads := fun folder draft r =>
    Step.Law.Noting.pointReference (P := Step.Respects Session.Leads)
      (fun p => .trace fun s => Session.Leads.pointed s p) _ _ _ _ _ _
  have hlater : Session.Leads { u with log } u' :=
    Step.Respects.foldlM (fun draft r _ => hrounds _ draft r) _ _ _ _ hfold
  have hscanned := Session.Leads.building.toNoting.steps.scan _ _ _ _ _ hscan
  have hwithin := hstart.of_leads hscanned (trans_of Session.Leads hlater hstop.after)
  refine .bind ((Step.Recurs.scan _ code).again _ _ _ ⟨hstart, hscan, hwithin⟩)
    (.files_bind ?_ fun v hv => ?_)
  · refine .bind (.foldlM hfold fun r d t d' t' hreach hround _ => ?_) (.pure _ _)
    obtain ⟨href, hrelative⟩ := List.mem_filter.1 hreach.mem
    have hfiles : t.files = u.files := (hreach.relates fun draft r _ =>
      Session.points_pointReference paths code.toList draft r).files
    unfold pointReference at hround ⊢
    rw [Step.gives_bind] at hround
    obtain ⟨file, _, hfound', hround⟩ := hround
    obtain ⟨hfile, rfl⟩ := Step.gives_resolve.1 hfound'
    refine .bind (.resolve hfile fun v hv => ?_) ?_
    · rw [hfiles]
      exact hresolve found hfound r href hrelative _ (hfiles ▸ hv.files)
    · split at hround
      · obtain ⟨rfl, rfl⟩ := Step.gives_pure.1 hround
        exact .pure _ _
      · split at hround
        · obtain ⟨rfl, rfl⟩ := Step.gives_pure.1 hround
          exact .pure _ _
        · simp only [Step.gives_bind, Step.gives_trace, Step.gives_edit] at hround
          obtain ⟨_, _, rfl, hedit, rfl⟩ := hround
          exact .bind (.trace _) (.edit hedit)
  · rw [(hv.grows hwithin).canonical_eq houtput]

/-! ### Components -/

/-- A script is compiled again, if its file is still there and it is preprocessed again. -/
theorem Plugin.repeatable_ecmascript {q : CompileRequest} {o : CompileOutput}
    (h : (Plugin.ecmascript.compile q).Gives u o u')
    (hsource : ∀ v, e.Repeats u v → u.files.isFile q.filename = true →
      v.files.isFile q.filename = true)
    (hscript : ∀ script, (q.preprocessScript q.code).Gives u script u' →
      (q.preprocessScript q.code).Repeatable e u script u') :
    (Plugin.ecmascript.compile q).Repeatable e u o u' := by
  obtain ⟨element, folder, script, hvacant, hexport, hcheck, hfolder, hfile, hmap, hgives, ho⟩ :=
    gives_ecmascript.1 h
  intro v hv
  obtain ⟨v', hgives', hv'⟩ := hscript script hgives v hv
  refine ⟨v', gives_ecmascript.2 ⟨element, folder, script, hvacant, hexport, hcheck, hfolder, ?_,
    hmap, hgives', ho⟩, hv'⟩
  unfold CompileRequest.checkSource at hfile ⊢
  split at hfile
  · rw [if_pos (hsource v hv ‹_›)]
  · cases hfile

theorem ComponentContext.repeatable_mapCode {c : ComponentContext} {code text : String}
    (hmapping : c.bundler.mappingPass? = none) (h : (c.mapCode code).Gives u text u') :
    (c.mapCode code).Repeatable e u text u' := by
  unfold mapCode at h ⊢
  rw [hmapping] at h ⊢
  obtain ⟨rfl, rfl⟩ := Step.gives_pure.1 h
  exact .pure _ _

namespace Component

theorem recurs_deliver (entry output : Path) (o : CompileOutput) :
    Step.Recurs s e (deliver entry output o) := by
  unfold deliver
  refine ((Step.Recurs.write _ _ _).during _).bind fun _ => ?_
  dsimp only
  split
  · exact ((Step.Recurs.write _ _ _).during _).bind fun _ => (Step.Recurs.pure _).bind
      fun _ => .record _
  · exact (Step.Recurs.pure _).bind fun _ => .record _

theorem recurs_copyFolders {c : ComponentContext} {style : Option StylePreprocessor}
    (hassets : FolderCopy.Undisturbed
      ⟨c.options.source.join ⟨"assets"⟩, c.output.join ⟨"assets"⟩, none⟩ s e)
    (hstyles : FolderCopy.Undisturbed
      ⟨c.options.source.join ⟨"styles"⟩, c.output.join ⟨"styles"⟩, style⟩ s e)
    (hstyle : ∀ f, style = some f → ∃ g : String → Path → String, f = fun css p => pure (g css p)) :
    Step.Recurs s e (copyFolders c style) := by
  have hcopy : ∀ folder : FolderCopy, folder.StylesPurely → folder.Undisturbed s e →
      Step.Recurs s e (discard folder.run : Step PUnit) := fun folder hpurely hfolder =>
    (Step.Recurs.folderCopy hpurely hfolder).bind fun _ => .pure _
  exact (hcopy _ (fun _ h => by cases h) hassets).bind fun _ => hcopy _ hstyle hstyles

end Component

namespace Compilation

variable {b : Bundler} {x : Compilation b}

/-- The folders of a component that are copied. -/
def assets (x : Compilation b) : FolderCopy :=
  ⟨x.options.source.join ⟨"assets"⟩, x.output.join ⟨"assets"⟩, none⟩

def styles (x : Compilation b) : FolderCopy :=
  ⟨x.options.source.join ⟨"styles"⟩, x.output.join ⟨"styles"⟩,
    b.style.map fun factory => factory (x.options.publicPath x.name)⟩

/-- A relative reference that is left for the last pass leads to the same file again, whichever of
the files that the build changes later are there: in each tree that has an entry where there is one
at last, and there holds what it held then or what it holds at last. -/
def FindsAgain (x : Compilation b) (e : Session) : Prop :=
  ∀ r, x.Leaves r → ∀ t, x.course.translated.files.Recurs e.files t →
    t.resolve r.target (x.output :: x.paths) =
      x.course.translated.files.resolve r.target (x.output :: x.paths)

/-- A component is read again as it was: the places that a build changes have no part in what is
read of it, and what is left in its module leads to the same files. -/
structure Lasts (x : Compilation b) (s e : Session) : Prop extends x.Undisturbed s e where
  assets : x.assets.Undisturbed s e
  styles : x.styles.Undisturbed s e
  finds : x.FindsAgain e

/-- The sessions of a compilation are sessions of a run. -/
structure IsWithin (x : Compilation b) (s e : Session) : Prop where
  start : s.Within e x.start
  entered : s.Within e (Component.enter x.start x.options.source x.entry x.course.log)
  made : s.Within e x.course.made
  copied : s.Within e x.course.copied
  unmapped : s.Within e { x.course.copied with mapped := [] }
  placed : s.Within e x.course.placed
  remapped : s.Within e x.course.remapped
  joined : s.Within e x.course.joined
  translated : s.Within e x.course.translated
  finished : s.Within e x.course.finished
  restored : s.Within e { x.course.finished with mapped := x.course.copied.mapped }
  stop : s.Within e x.stop

theorem isWithin (hb : b.IsDiscreet) (hstart : s.Within e x.start) (hstop : s.Within e x.stop)
    (hfollows : x.Follows Session.Leads) : x.IsWithin s e := by
  have hr := Session.Leads.building
  have hrestored : Session.Leads { x.course.finished with mapped := x.course.copied.mapped } x.stop :=
    hr.toCompiling.steps.deliver _ _ _ _ _ _ x.course.delivers
  have hcopied : x.course.made.Leads x.course.copied := by
    have hstyle := (hb (Step.Respects Session.Leads)).preprocessor (x.options.publicPath x.name)
    exact hr.toCopying.steps.copyFolders _ _ hstyle _ _ _ x.course.copies
  -- from the last session to the first
  have hfinished := trans_of Session.Leads (hr.mapped x.course.finished x.course.copied.mapped)
    (trans_of Session.Leads hrestored hstop.after)
  have htranslated := trans_of Session.Leads hfollows.finished hfinished
  have hjoined := trans_of Session.Leads hfollows.translated htranslated
  have hremapped := trans_of Session.Leads hfollows.joined hjoined
  have hplaced := trans_of Session.Leads hfollows.remapped hremapped
  have hunmapped := trans_of Session.Leads hfollows.placed hplaced
  have hcopied' := trans_of Session.Leads hfollows.unmapped hunmapped
  have hmade := trans_of Session.Leads hcopied hcopied'
  have hentered := trans_of Session.Leads hfollows.copied hcopied'
  have hwithin := hstart.of_leads hfollows.entered hentered
  have hwithin₁ := hwithin.of_leads
    (hr.toCopying.steps.createFolder _ _ _ _ x.course.makes) hmade
  have hwithin₂ := hwithin₁.of_leads hcopied hcopied'
  have hwithin₃ := hwithin₂.of_leads hfollows.unmapped hunmapped
  have hwithin₄ := hwithin₃.of_leads hfollows.placed hplaced
  have hwithin₅ := hwithin₄.of_leads hfollows.remapped hremapped
  have hwithin₆ := hwithin₅.of_leads hfollows.joined hjoined
  have hwithin₇ := hwithin₆.of_leads hfollows.translated htranslated
  have hwithin₈ := hwithin₇.of_leads hfollows.finished hfinished
  exact ⟨hstart, hwithin, hwithin₁, hwithin₂, hwithin₃, hwithin₄, hwithin₅, hwithin₆, hwithin₇, hwithin₈,
    hwithin₈.of_leads (hr.mapped _ _) (trans_of Session.Leads hrestored hstop.after), hstop⟩

section Stages

variable (hx : x.IsWithin s e) (hmapping : b.mappingPass? = none)
  (hscripts : s.LeavesScripts e)
include hx hmapping hscripts

/-- The script of a component is preprocessed again, if its references to components can be
linked again. -/
theorem repeatable_preprocess
    (hreference : ∀ draft r, r.IsTyped b.types →
      (x.context.compileReference (Component.compile b x.depth) draft r).Respects Session.Leads)
    (hlink : ∀ r l t t', x.Links r l t t' →
      (x.context.link (Component.compile b x.depth) r).Repeatable e t l t') :
    (x.context.preprocess (Component.compile b x.depth) x.course.code).Repeatable e
      { x.course.copied with mapped := [] } x.course.script x.course.translated :=
  .bind ((ComponentContext.recurs_copyPlainCode hscripts _).again _ _ _
      ⟨hx.unmapped, x.course.places, hx.placed⟩)
    (.bind (ComponentContext.repeatable_mapCode hmapping x.course.maps)
      (.bind (ComponentContext.repeatable_compileComponents hx.remapped hx.joined hreference
          x.course.joins hlink)
        ((ComponentContext.recurs_inlineAssets _).again _ _ _
          ⟨hx.joined, x.course.inlines, hx.translated⟩)))

variable (hplain : b.IsPlain) (hlasts : x.Lasts s e)
include hplain hlasts

/-- The plugin of a component is run again. -/
theorem repeatable_runPlugin
    (hreference : ∀ draft r, r.IsTyped b.types →
      (x.context.compileReference (Component.compile b x.depth) draft r).Respects Session.Leads)
    (hlink : ∀ r l t t', x.Links r l t t' →
      (x.context.link (Component.compile b x.depth) r).Repeatable e t l t') :
    (Component.runPlugin x.context (Component.compile b x.depth) x.course.plugin x.entry
      x.styles.style).Repeatable e { x.course.copied with mapped := [] } x.course.compiled
        x.course.translated := by
  have hpreprocess := repeatable_preprocess hx hmapping hscripts hreference hlink
  have hplugin := x.course.plugin_eq hplain.registry
  have htranslates := x.course.translates
  unfold Component.runPlugin at htranslates ⊢
  obtain ⟨code, t, hread, hcompile⟩ := Step.gives_bind.1 htranslates
  obtain ⟨hcode, rfl⟩ := Step.gives_read.1 (Step.gives_during.1 hread)
  obtain rfl : code = x.course.code := Except.ok.inj (hcode.symm.trans x.course.reads)
  rw [hplugin] at hcompile ⊢
  refine .bind (.during _ (.fromFiles hcode fun v hv => hx.unmapped.read_eq hv hlasts.code))
    (.during _ (Plugin.repeatable_ecmascript (Step.gives_during.1 hcompile) (fun v hv hfile =>
      (hv.grows hx.unmapped).isFile hfile) fun script hscript => ?_))
  obtain ⟨rfl, -⟩ := hscript.unique x.course.preprocesses
  exact hpreprocess

omit hscripts in
/-- A module is pointed at the same files again. -/
theorem repeatable_finish {l : Location} (houtput : x.course.translated.files.locate x.output = .ok l) :
    (Component.finish x.context x.entry x.course.compiled).Repeatable e x.course.translated
      x.course.module x.course.finished := by
  obtain ⟨code, t, hpoint, hminify⟩ := Component.gives_finish hmapping x.course.finishes
  dsimp only at hminify
  rw [hplain.minify] at hminify
  obtain ⟨hmodule, rfl⟩ := Step.gives_pure.1 hminify
  unfold Component.finish
  rw [show x.context.bundler.mappingPass? = none from hmapping]
  refine .bind (.pure _ _) (.bind (.during _ (Relative.repeatable_point hx.translated hx.finished
    hpoint houtput fun found hfound r hr hrelative => hlasts.finds r ⟨found, hfound, hr, hrelative⟩))
      (.during _ ?_))
  rw [show x.context.bundler.minify = Minify.passthrough from hplain.minify, hmodule]
  exact .pure _ _

/-- **A component is compiled again**, if its references to components can be linked again. -/
theorem repeatable_compile {l : Location}
    (houtput : x.course.translated.files.locate x.output = .ok l)
    (hreference : ∀ draft r, r.IsTyped b.types →
      (x.context.compileReference (Component.compile b x.depth) draft r).Respects Session.Leads)
    (hlink : ∀ r l t t', x.Links r l t t' →
      (x.context.link (Component.compile b x.depth) r).Repeatable e t l t') :
    (Component.compile b (x.depth + 1) x.options x.paths).Repeatable e x.start () x.stop := by
  change (Component.compileWith b (Component.compile b x.depth) x.options x.paths).Repeatable
    e x.start () x.stop
  have hname : Component.nameOf x.options.source = pure x.name := by
    unfold Component.nameOf
    rw [x.named]
  unfold Component.compileWith
  rw [hname]
  refine .bind (.pure _ _) (.bind (.during _ (.fromFiles x.found fun v hv =>
    hx.start.read_eq hv hlasts.entry)) (.bind (.trace _) ?_))
  unfold Component.compileFrom
  refine .bind (.ofExcept x.course.registered) ?_
  have htell : (Step.tell (.info ("Compiling " ++ x.options.source.text ++ " with " ++
      x.course.plugin.name))).Repeatable e { x.start with
        events := x.start.events ++ [.entered x.options.source x.entry] } ()
          (Component.enter x.start x.options.source x.entry x.course.log) := by
    rw [Component.enter, x.course.told]
    exact .tell _
  have hstyle : ∀ f, x.styles.style = some f →
      ∃ g : String → Path → String, f = fun css p => pure (g css p) := by
    intro f hf
    obtain ⟨factory, hfactory, rfl⟩ := Option.map_eq_some_iff.1 hf
    rw [hplain.style factory hfactory]
    exact ⟨fun css _ => Style.rebase _ css, rfl⟩
  refine .bind htell (.bind ((Step.Recurs.createFolder x.output).again _ _ _
    ⟨hx.entered, x.course.makes, hx.made⟩) ?_)
  refine .bind ((Component.recurs_copyFolders (c := x.context) hlasts.assets hlasts.styles
    hstyle).again _ _ _ ⟨hx.made, x.course.copies, hx.copied⟩) ?_
  refine .get_bind ?_ fun v hv => by rw [hv.mapped]
  refine .bind (.setMapped []) (.bind
    (repeatable_runPlugin hx hmapping hscripts hplain hlasts hreference hlink)
    (.bind (repeatable_finish hx hmapping hplain hlasts houtput) (.bind (.setMapped _) ?_)))
  exact (Component.recurs_deliver _ _ _).again _ _ _ ⟨hx.restored, x.course.delivers, hx.stop⟩

end Stages

end Compilation

/-! ### Builds -/

section Congr

variable {s₁ : Session} (hfiles : s₁.files = s.files)
include hfiles

/-- What relies on spared places does so whatever else the session holds. -/
theorem Session.relies_congr {α : Type} {read : FileTree → α}
    (h : s.files.Relies (s.Spares e) read) : s₁.files.Relies (s₁.Spares e) read := by
  have hspares : s₁.Spares e = s.Spares e := by
    funext l
    rw [Spares, Spares, hfiles]
  rw [hspares, hfiles]
  exact h

theorem Session.LeavesScripts.congr (h : s.LeavesScripts e) : s₁.LeavesScripts e :=
  ⟨fun p hp => relies_congr hfiles (h.scripts p hp), fun f hf => relies_congr hfiles (h.followed f hf)⟩

theorem FolderCopy.Undisturbed.congr {c : FolderCopy} (h : c.Undisturbed s e) :
    c.Undisturbed s₁ e where
  folder := Session.relies_congr hfiles h.folder
  link := Session.relies_congr hfiles h.link
  list relative hvisits := Session.relies_congr hfiles (h.list relative (hfiles ▸ hvisits))
  read relative hvisits := Session.relies_congr hfiles (h.read relative (hfiles ▸ hvisits))

theorem Compilation.Lasts.congr {b : Bundler} {x : Compilation b} (h : x.Lasts s e) :
    x.Lasts s₁ e where
  entry := Session.relies_congr hfiles h.entry
  code := Session.relies_congr hfiles h.code
  links r l t t' hlink := Session.relies_congr hfiles (h.links r l t t' hlink)
  assets := h.assets.congr hfiles
  styles := h.styles.congr hfiles
  finds := h.finds

end Congr

namespace Bundler

variable {b : Bundler} {scope : Scope} {options : BuildOptions} {bundles : List Bundle}

/-- A component lasts whose folder stays as it is, with no link in it. -/
theorem Compiles.lasts {x : Compilation b} (h : b.Compiles scope options s x)
    (hregistry : b.registry = .initial) (hb : b.IsDiscreet)
    (hbuild : (b.build scope options).Gives s bundles e)
    (hwf : s.files.WellFormed) {l : Location}
    (hfixed : s.files.Fixed (s.Spares e) x.options.source)
    (hfolder : s.files.PlainFolder x.options.source l)
    (hlinks : ∀ r l t t', x.Links r l t t' →
      s.files.Relies (s.Spares e) (·.resolve r.target [x.options.source]))
    (hfinds : x.FindsAgain e) : x.Lasts s e := by
  have hentry : s.files.Relies (s.Spares e) (Component.entryFile? · x.options.source) :=
    (hfixed.list hwf).map _
  obtain ⟨-, hrun, -⟩ := h.spans hregistry hb hbuild
    (Session.Touches.building.spans hb (fun _ _ => .of_eq rfl rfl) _)
  have hfound := (h.read_eq hregistry hb hbuild hwf (refl_of Session.Touches x.start) hrun
    hentry).symm.trans x.found
  refine ⟨⟨hentry, ?_, hlinks⟩, ?_, ?_, hfinds⟩
  · -- the entry file is listed in the folder
    unfold Component.entryFile? at hfound
    cases hlist : s.files.list x.options.source with
    | error err =>
      rw [hlist] at hfound
      cases hfound
    | ok xs =>
      rw [hlist] at hfound
      obtain ⟨y, hy, hpath⟩ := Option.map_eq_some_iff.1 (Except.ok.inj hfound)
      obtain ⟨_, -, -, rfl⟩ := FileTree.list_eq_ok hlist
      have hname : Path.IsName y.1 :=
        (hwf.entry (hwf.get?_of_mem_children (List.mem_of_find?_eq_some hy))).1.1
      rw [← hpath, ← Path.ofNames_singleton]
      exact (hfixed.join hfolder (List.forall_mem_singleton.2 hname)
        (List.cons_ne_nil _ [])).read.readText
  · exact FolderCopy.undisturbed_of_fixed hwf hfixed hfolder (n := "assets") (by decide) rfl
  · exact FolderCopy.undisturbed_of_fixed hwf hfixed hfolder (n := "styles") (by decide) rfl

/-- A compilation that is nested in one of a build is one of the build. -/
theorem Compiles.nested {x y : Compilation b} (h : b.Compiles scope options s x)
    (hnests : x.Nests y) : b.Compiles scope options s y := by
  obtain ⟨o, sources, t, before, source, after, u, top, hopens, hsources, hbefore, henters, hx⟩ := h
  exact ⟨o, sources, t, before, source, after, u, top, hopens, hsources, hbefore, henters,
    hx.tail hnests⟩

section Again

variable (hplain : b.IsPlain) (hmapping : b.mappingPass? = none) (hwf : s.files.WellFormed)
  (hbuild : (b.build scope options).Gives s bundles e) (hscripts : s.LeavesScripts e)
  (hlasts : ∀ x, b.Compiles scope options s x → x.Lasts s e)
include hplain hmapping hwf hbuild hscripts hlasts

/-- **Each compilation of a build can be repeated**, with those that are nested in it. -/
theorem Compiles.repeatable {x : Compilation b} (h : b.Compiles scope options s x) :
    (Component.compile b (x.depth + 1) x.options x.paths).Repeatable e x.start () x.stop := by
  induction hdepth : x.depth using Nat.strongRecOn generalizing x with
  | ind depth ih =>
    have hb := hplain.isDiscreet
    have hregistry := hplain.registry
    have hspans := Session.Leads.building.spans hb Session.Leads.pointed
      (Path.absolutize s.files.current.path options.destination)
    have hdestination := congrArg BuildOptions.destination (h.start_start hregistry hb hspans).2
    have habsolute := Path.isAbsolute_absolutize s.files.current options.destination
    obtain ⟨⟨log, hbefore⟩, hrun, hafter⟩ := h.spans hregistry hb hbuild hspans
    have hstart : (start s log).Within e x.start :=
      ⟨hwf, hbefore, trans_of Session.Leads hrun hafter⟩
    have hstop : (start s log).Within e x.stop :=
      ⟨hwf, trans_of Session.Leads hbefore hrun, hafter⟩
    have hx := Compilation.isWithin hb hstart hstop
      (Compilation.follows hspans.toPasses hb hdestination habsolute)
    have hfiles : (start s log).files = s.files := rfl
    have hlasts' : x.Lasts (start s log) e := (hlasts x h).congr hfiles
    obtain ⟨l, houtput⟩ := h.exists_locate_output hregistry hb hwf
    rw [← hdepth]
    refine Compilation.repeatable_compile hx hmapping (hscripts.congr hfiles) hplain hlasts' houtput
      (fun draft r => hspans.reference x.depth x.context rfl hdestination
        (Path.isAbsolute_join (hdestination ▸ habsolute) _) draft r) fun r l t t' hlink => ?_
    obtain ⟨hlinkBefore, hround, hlinkAfter⟩ :=
      Compilation.start_link hspans.toPasses hb hdestination habsolute hlink
    have ht : (start s log).Within e t := hstart.of_leads hlinkBefore (trans_of Session.Leads hround
      (trans_of Session.Leads hlinkAfter hx.joined.after))
    obtain ⟨_, _, _, -, -, hgives⟩ := id hlink
    refine ComponentContext.repeatable_link hgives (fun v hv =>
      ht.read_eq hv (hlasts'.links r l t t' hlink)) fun source hfirst hsource hnested => ?_
    obtain ⟨y, hnests, hy, hoptions, hpaths, hystart, hystop⟩ :=
      Compilation.exists_nested_of_gives hregistry hlink hfirst hsource hnested
    have hagain := ih y.depth (by omega) (h.nested hnests) rfl
    rw [hy, hoptions, hpaths, hystart, hystop] at hagain
    exact hagain

end Again

/-- A component of the top level is compiled again. -/
theorem Enters.repeatable {o : BuildOptions} {t : Session} {x : Compilation b}
    (h : b.Enters o t x) (ht : s.Within e t) (hentry : s.files.Relies (s.Spares e)
      (Component.entryFile? · x.options.source))
    (hcompile : (Component.compile b (x.depth + 1) x.options x.paths).Repeatable
      e x.start () x.stop) : (b.compileEntry o).Repeatable e t () x.stop := by
  obtain ⟨canonical, hcanonical, hnone, hstart⟩ := h.entry
  obtain ⟨l, hl, -⟩ := FileTree.canonical_eq_ok.1 hcanonical
  have hfound := x.found
  have hnamed := x.named
  rw [hstart, h.options] at hfound
  rw [h.options] at hnamed hentry
  rw [h.depth, h.options, h.paths, hstart, Compilation.output, h.options] at hcompile
  have hname : Component.nameOf o.source = pure x.name := by
    unfold Component.nameOf
    rw [hnamed]
  unfold compileEntry
  rw [hname]
  refine .bind (.pure _ _) (.bind (.during _ (.fromFiles hfound fun v hv =>
    ht.read_eq hv hentry)) ?_)
  refine .bind (.during _ (.fromFiles hcanonical fun v hv => (hv.grows ht).canonical_eq hl))
    (.get_bind ?_ fun v hv => by rw [hv.builds])
  rw [hnone]
  exact .attempt hcompile

/-- A check that does not refuse does not refuse again. -/
theorem check_again {α : Type} {p : Prop} [Decidable p] {f : Fault} {rest : PUnit → Step α} {a : α}
    {s' v : Session} (h : (if p then Step.fail f >>= rest else rest ⟨⟩).Gives s a s')
    (hrest : (rest ⟨⟩).Gives s a s' → ∃ log, (rest ⟨⟩).Gives v a { v with log }) :
    ∃ log, (if p then Step.fail f >>= rest else rest ⟨⟩).Gives v a { v with log } := by
  split at h
  · obtain ⟨_, t, hfail, -⟩ := Step.gives_bind.1 h
    exact absurd hfail Step.gives_fail
  · rw [if_neg ‹_›]
    exact hrest h

/-- Options that were prepared are prepared again. -/
theorem gives_prepare_again {o : BuildOptions} {s' v : Session}
    (h : (b.prepare options).Gives s o s') (hcurrent : v.files.current = s.files.current) :
    ∃ log, (b.prepare options).Gives v o { v with log } := by
  obtain ⟨rfl, -⟩ := gives_prepare h
  rw [← hcurrent] at h ⊢
  unfold prepare at h ⊢
  refine check_again h fun h => check_again h fun h => check_again h fun h => ?_
  dsimp only
  split
  · exact ⟨_, Step.gives_bind.2 ⟨(), _, Step.gives_tell.2 rfl, Step.gives_bind.2
      ⟨_, _, Step.gives_files.2 ⟨rfl, rfl⟩, Step.gives_pure.2 ⟨rfl, rfl⟩⟩⟩⟩
  · exact ⟨v.log, Step.gives_bind.2
      ⟨_, _, Step.gives_files.2 ⟨rfl, rfl⟩, Step.gives_pure.2 ⟨rfl, rfl⟩⟩⟩

/-- A build of one component enters it. -/
theorem exists_enters_of_compile (hregistry : b.registry = .initial)
    (h : (b.compile options).Gives s bundles e) : ∃ o t x, (b.prepare options).Gives s o t ∧
      b.Enters o t.restart x ∧ b.Compiles .one options s x ∧ x.stop = e ∧ bundles = e.bundles := by
  obtain ⟨o, t, hprepare, hentry, rfl⟩ := gives_compile.1 h
  rcases recorded_or_enters hregistry hentry with ⟨canonical, d, hrecorded, -⟩ | ⟨x, henters, hstop⟩
  · -- nothing is recorded when a build starts
    cases hrecorded
  · have hbefore : (b.compileEach o []).Gives t.restart () t.restart :=
      Step.gives_pure.2 ⟨rfl, rfl⟩
    exact ⟨o, t, x, hprepare, henters,
      ⟨o, _, _, [], _, [], _, x, .one hprepare, rfl, hbefore, henters, .refl⟩, hstop, rfl⟩

end Bundler

set_option maxRecDepth 100000 in
theorem ownStyle_events :
    let s : Session := ((Bundler.build {} .one
      { source := ⟨"/d_d"⟩, destination := ⟨"/o"⟩ }).run.run { files := ownStyle }).2
    s.copies.pairs = [] ∧ s.events = [.begun ⟨"/d_d/index.esm"⟩,
      .entered ⟨"/d_d"⟩ ⟨"/d_d/index.esm"⟩,
      .pointed ⟨⟨"/o/d_d"⟩, "./theme.css", ⟨"/d_d/theme.css"⟩, "../../d_d/theme.css"⟩] := by
  decide +kernel

/-- Nothing is copied as a script. -/
theorem ownStyle_leavesScripts {bundles : List Bundle} {e : Session} (hbuild : (Bundler.build {} .one
      { source := ⟨"/d_d"⟩, destination := ⟨"/o"⟩ }).Gives { files := ownStyle } bundles e) :
    Session.LeavesScripts { files := ownStyle } e := by
  obtain ⟨hpairs, hevents⟩ := ownStyle_events
  rw [show _ = ((.ok bundles : Except Failure (List Bundle)), e) from hbuild] at hpairs hevents
  refine ⟨fun p hp => ?_, fun f hf => ?_⟩
  · rw [hpairs] at hp
    exact absurd hp List.not_mem_nil
  · rw [hevents] at hf
    simp at hf

/-- The component stays as it is, and so does the style that it refers to. -/
theorem ownStyle_lasts {bundles : List Bundle} {e : Session} (hbuild : (Bundler.build {} .one
      { source := ⟨"/d_d"⟩, destination := ⟨"/o"⟩ }).Gives { files := ownStyle } bundles e)
    {x : Compilation {}} (hx : Bundler.Compiles {} .one
      { source := ⟨"/d_d"⟩, destination := ⟨"/o"⟩ } { files := ownStyle } x) :
    x.Lasts { files := ownStyle } e := by
  have hsource : (⟨"/d_d"⟩ : Path) ∈ [(⟨"/d_d"⟩ : Path), ⟨"/h_a"⟩] := by decide
  obtain ⟨_, _, hbuild', -, -, hspares, hprobe, hfolder⟩ := ownStyle_gives hsource
  obtain ⟨-, rfl⟩ := hbuild.unique hbuild'
  have hdiscreet := Bundler.isPlain_default.isDiscreet
  have hwf : ownStyle.WellFormed := by decide
  obtain ⟨-, hevents⟩ := ownStyle_events
  rw [show _ = ((.ok bundles : Except Failure (List Bundle)), e) from hbuild] at hevents
  have hentered := hx.entered_mem rfl hdiscreet hbuild
  rw [hevents] at hentered
  obtain ⟨hx₁, hx₂⟩ : x.options.source = ⟨"/d_d"⟩ ∧ x.entry = ⟨"/d_d/index.esm"⟩ := by
    simpa using hentered
  obtain ⟨houtput, hnone, -, hleaves⟩ := ownStyle_compiled hsource hbuild hx hx₁ hx₂
  have hget : ownStyle.get? ["d_d"] = some .folder := rfl
  have hplain : ownStyle.PlainFolder x.options.source ["d_d"] := by
    rw [hx₁]
    refine ⟨hwf.locate_path (.inl hget) (by decide), hget, fun ns target hlink => ?_⟩
    have hmem := FileTree.mem_of_get? (List.cons_ne_nil "d_d" ns) hlink
    simp [ownStyle] at hmem
  have hfixed : ownStyle.Fixed (Session.Spares { files := ownStyle } e) x.options.source := by
    rw [hx₁]
    exact FileTree.fixed_path hwf hget (by decide) hspares
  obtain ⟨hbefore, hafter⟩ := hx.grows_translated rfl hdiscreet hwf hbuild
  have hfinds : ∀ r, x.Leaves r → ∀ u, x.course.translated.files.Grows u → u.Grows e.files →
      u.resolve r.target (x.output :: x.paths) = .ok ⟨"/d_d/theme.css"⟩ := by
    intro r hr u hlater hlast
    refine hx.resolve_own ?_
    rw [hleaves r hr, houtput, hx₁]
    exact FileTree.resolve_of_grows (trans_of FileTree.Grows hbefore hlater) hlast (by decide)
      (by decide) hprobe hfolder (by decide) (by decide)
  refine hx.lasts rfl hdiscreet hbuild hwf hfixed hplain
    (fun r l t t' hlink => absurd hlink (hnone r l t t')) fun r hr t ht => ?_
  exact (hfinds r hr t (trans_of FileTree.Grows hafter ht.grows) (ht.grows_last hafter)).trans
    (hfinds r hr _ (refl_of FileTree.Grows _) hafter).symm

/-- A component that refers to its folder, where a script is called like the module that it gets. -/
def ownFolder : FileTree where
  entries := [
    (["a_a"], .folder),
    (["a_a", "index.esm"], .file (.text "import './'\nexport default A")),
    (["a_a", "index.js"], .file (.text ""))]

end ElementBuild
