/-
# Where a build delivers

All that a build writes lies in one layout: modules in the folders of their components,
assets and styles beside them, and the copies of scripts at their places.  The layout says
for each name at the top of the destination which folder it comes from.

If the layout has room for every component that is entered and every script that is
followed (`Layout.Governs`), each delivery stands where the layout has its source
(`Session.Placing`).  Then nothing is overwritten: two deliveries to one path have the same
source (`same_source_of_same_target`).
-/
import ElementBuild.Proofs.Build.Run
import ElementBuild.Proofs.Bundlers
import ElementBuild.Proofs.Copy.Folder
import ElementBuild.Proofs.Copy.Placement

namespace ElementBuild

open Copy (Layout Place)
open Path (names parentSentinel scriptName)

namespace Copy.Layout

/-- A component of a name lies in the folder that the layout has for it. -/
def Houses (l : Layout) (source : Path) (name : String) : Prop :=
  name ≠ parentSentinel ∧ source.segments = l.root 0 name ++ names [name]

/-- The files that are made for the module of a component. -/
def moduleFiles : List String := [moduleFile, sourcemapFile]

/-- A layout with room for what happens in a build. -/
structure Governs (l : Layout) (base : Path) (events : List Event) : Prop where
  entered : ∀ source entry, .entered source entry ∈ events → ∃ name, l.Houses source name
  /-- Components of one name are the same. -/
  entries : ∀ source entry source' entry', .entered source entry ∈ events →
    .entered source' entry' ∈ events → source.fileName? = source'.fileName? →
      entry.same entry' = true
  followed : ∀ f, .followed f ∈ events → l.Admits base f
  /-- No script lands on the module of a component. -/
  modules : ∀ f source entry name, .followed f ∈ events → .entered source entry ∈ events →
    source.fileName? = some name → f.landing.segments ≠ l.copy ++ names [name, moduleFile]

/-- A script and the place where a reference to it lands stand at one place. -/
structure Lands (l : Layout) (events : List Event) (source copy : Path) : Prop where
  related : l.Relates source copy
  followed : ∃ f, .followed f ∈ events ∧ copy = f.landing
  place : ∃ p : Place, copy.segments = l.copyAt p.script

/-- A file that is copied from the place that the layout has for its copy. -/
inductive Copies (l : Layout) (events : List Event) (d : Delivery) : Prop where
  | folder (name folder : String) (xs : List String) (hname : name ≠ parentSentinel)
    (hfolder : folder ∉ moduleFiles)
    (hsource : d.source.segments = l.root 0 name ++ names (name :: folder :: xs))
    (htarget : d.target.segments = l.copy ++ names (name :: folder :: xs))
  | script (hlands : l.Lands events d.source d.target)

/-- A delivery that the layout has room for. -/
inductive Places (l : Layout) (events : List Event) (d : Delivery) : Prop where
  | module (source : Path) (name file : String) (hentered : .entered source d.source ∈ events)
    (hname : source.fileName? = some name) (hfile : file ∈ moduleFiles)
    (htarget : d.target.segments = l.copy ++ names [name, file])
  | copy (hcopies : l.Copies events d)

variable {l : Layout} {base : Path} {events events' : List Event}

theorem Governs.mono (h : l.Governs base events') (hsub : ∀ e ∈ events, e ∈ events') :
    l.Governs base events :=
  ⟨fun _ _ he => h.entered _ _ (hsub _ he),
    fun _ _ _ _ he he' => h.entries _ _ _ _ (hsub _ he) (hsub _ he'),
    fun _ hf => h.followed _ (hsub _ hf),
    fun _ _ _ _ hf he => h.modules _ _ _ _ (hsub _ hf) (hsub _ he)⟩

theorem Places.mono {d : Delivery} (h : l.Places events d) (hsub : ∀ e ∈ events, e ∈ events') :
    l.Places events' d := by
  cases h with
  | module source name file hentered hname hfile htarget =>
    exact .module source name file (hsub _ hentered) hname hfile htarget
  | copy hcopies =>
    cases hcopies with
    | folder name folder xs hname hfolder hsource htarget =>
      exact .copy (.folder name folder xs hname hfolder hsource htarget)
    | script hlands =>
      obtain ⟨f, hf, hlanding⟩ := hlands.followed
      exact .copy (.script ⟨hlands.related, ⟨f, hsub _ hf, hlanding⟩, hlands.place⟩)

theorem Houses.fileName? {source : Path} {name : String} (h : l.Houses source name) :
    source.fileName? = some name := by
  rw [Path.fileName?, h.2, show names [name] = [.name name] from rfl, List.getLast?_concat]
  rfl

/-- Files are copied from where the layout has their copies. -/
theorem Copies.relates {d : Delivery} (h : l.Copies events d) : l.Relates d.source d.target := by
  cases h with
  | folder name folder xs hname hfolder hsource htarget =>
    exact ⟨⟨0, name :: folder :: xs⟩, fun heq => hname (Option.some.inj heq), by simp, hsource,
      htarget⟩
  | script hlands => exact hlands.related

/-- Nothing is copied to where the module of a component belongs. -/
theorem Copies.ne_module {d : Delivery} (h : l.Copies events d) (hgoverns : l.Governs base events)
    {source entry : Path} {name file : String} (hentered : .entered source entry ∈ events)
    (hname : source.fileName? = some name) (hfile : file ∈ moduleFiles) :
    d.target.segments ≠ l.copy ++ names [name, file] := by
  intro htarget
  cases h with
  | folder name' folder xs hname' hfolder hsource htarget' =>
    have heq := Path.names_injective (List.append_cancel_left (htarget'.symm.trans htarget))
    obtain ⟨-, rfl, -⟩ : name' = name ∧ folder = file ∧ xs = [] := by simpa using heq
    exact hfolder hfile
  | script hlands =>
    obtain ⟨f, hf, hlanding⟩ := hlands.followed
    obtain ⟨p, hplace⟩ := hlands.place
    rcases List.mem_pair.1 hfile with rfl | rfl
    · exact hgoverns.modules f source entry name hf hentered hname (hlanding ▸ htarget)
    · have heq := congrArg List.getLast? (Path.names_injective (List.append_cancel_left
        (hplace.symm.trans htarget)))
      rw [Place.copy, Place.script, ← List.append_assoc, List.getLast?_concat] at heq
      exact Path.scriptName_ne (t := sourcemapFile) (by decide) (by decide) (Option.some.inj heq)

/-- **One path has one source**: deliveries to the same path have the same source. -/
theorem Places.same {d d' : Delivery} (h : l.Places events d) (h' : l.Places events d')
    (hgoverns : l.Governs base events) (hsame : d.target.same d'.target = true) :
    d.source.same d'.source = true := by
  have htargets := beq_iff_eq.1 hsame
  cases h with
  | module source name file hentered hname hfile htarget =>
    cases h' with
    | module source' name' file' hentered' hname' hfile' htarget' =>
      rw [htarget, htarget'] at htargets
      obtain ⟨rfl, -⟩ : name = name' ∧ file = file' := by
        simpa using Path.names_injective (List.append_cancel_left htargets)
      exact hgoverns.entries _ _ _ _ hentered hentered' (hname.trans hname'.symm)
    | copy hcopies' =>
      exact absurd (htargets.symm.trans htarget) (hcopies'.ne_module hgoverns hentered hname hfile)
  | copy hcopies =>
    cases h' with
    | module source' name' file' hentered' hname' hfile' htarget' =>
      exact absurd (htargets.trans htarget') (hcopies.ne_module hgoverns hentered' hname' hfile')
    | copy hcopies' => exact hcopies.relates.same hcopies'.relates hsame

end Copy.Layout

namespace Session

variable {l : Layout} {base : Path} {s s' : Session}

/-- Between two sessions files are delivered where the layout has room for them. -/
structure Placing (l : Layout) (base : Path) (s s' : Session) : Prop where
  grown : s.Extends s'
  kept : s.Keeps s'
  placed : s.files.WellFormed → l.Governs base s'.events →
    ∀ d ∈ s'.deliveries, d ∈ s.deliveries ∨ l.Places s'.events d

namespace Placing

instance : IsPreorder Session (Placing l base) where
  refl s := ⟨.refl s, refl_of Keeps s, fun _ _ _ h => .inl h⟩
  trans s t s' h₁ h₂ := by
    refine ⟨trans_of Extends h₁.grown h₂.grown, trans_of Keeps h₁.kept h₂.kept,
      fun hwf hgoverns d hd => ?_⟩
    have hevents := fun e he => h₂.grown.event_mem (e := e) he
    rcases h₂.placed (h₁.kept hwf).1 hgoverns d hd with hd | hd
    · exact (h₁.placed hwf (hgoverns.mono hevents) d hd).imp_right fun h => h.mono hevents
    · exact .inr hd

theorem of_eq (hgrown : s.Extends s') (hkept : s.Keeps s')
    (hdeliveries : s'.deliveries = s.deliveries) : s.Placing l base s' :=
  ⟨hgrown, hkept, fun _ _ _ h => .inl (hdeliveries ▸ h)⟩

theorem referring : Session.Referring (Placing l base) where
  log s _ := of_eq (Extends.building.log s _) (Keeps.building.log s _) rfl
  mapped s _ := of_eq (Extends.building.mapped s _) (Keeps.building.mapped s _) rfl
  begun s _ _ := of_eq (Extends.building.begun s _ _) (Keeps.building.begun s _ _) rfl
  linked s _ := of_eq (Extends.building.linked s _) (Keeps.building.linked s _) rfl

theorem createFolder (folder : Path) : (Copy.createFolder folder).Respects (Placing l base) := by
  intro s u s' h
  obtain ⟨-, rfl⟩ := Step.gives_createFolders.1 (Step.gives_during.1 h)
  exact of_eq (Extends.building.folders s _) (Keeps.building.folders s _) rfl

theorem point (code : String) (output : Path) (paths : List Path) :
    (Relative.point code output paths).Respects (Placing l base) :=
  referring.toNoting.steps.point
    (fun p => .trace fun s => of_eq (Extends.pointed s p) (.of_eq rfl) rfl) code output paths

end Placing

/-- The same, while the component of a folder is compiled. -/
def PlacingIn (l : Layout) (base source : Path) (s s' : Session) : Prop :=
  s.Extends s' ∧ ∀ entry, .entered source entry ∈ s.events → s.Placing l base s'

namespace PlacingIn

variable {source : Path}

instance : IsPreorder Session (PlacingIn l base source) where
  refl s := ⟨.refl s, fun _ _ => refl_of (Placing l base) s⟩
  trans _ _ _ h₁ h₂ := ⟨trans_of Extends h₁.1 h₂.1, fun entry hentered =>
    trans_of (Placing l base) (h₁.2 entry hentered) (h₂.2 entry (h₁.1.event_mem hentered))⟩

theorem of_placing (h : s.Placing l base s') : s.PlacingIn l base source s' :=
  ⟨h.grown, fun _ _ => h⟩

theorem respects_of_placing {α : Type} {x : Step α} (h : x.Respects (Placing l base)) :
    x.Respects (PlacingIn l base source) := fun s a s' hgives => of_placing (h s a s' hgives)

theorem referring : Session.Referring (PlacingIn l base source) where
  log s _ := of_placing (Placing.referring.log s _)
  mapped s _ := of_placing (Placing.referring.mapped s _)
  begun s _ _ := of_placing (Placing.referring.begun s _ _)
  linked s _ := of_placing (Placing.referring.linked s _)

end PlacingIn

/-! ### What a component delivers -/

/-- The component that is being compiled has its output below the destination, where the
copies of the layout lie. -/
structure Contains (l : Layout) (c : ComponentContext) : Prop where
  copy : l.copy = c.options.destination.segments
  clean : Path.IsClean c.options.destination.segments
  output : c.output = c.options.destination.join ⟨c.name⟩
  named : c.options.source.fileName? = some c.name

namespace Contains

variable {c : ComponentContext} (hc : Contains l c)
include hc

theorem segments_output : c.output.segments = l.copy ++ names [c.name] := by
  rw [hc.output, Path.segments_join_name _ (Path.segments_of_fileName? hc.named).1, hc.copy]
  rfl

/-- The layout has the folder of the component under its name. -/
theorem houses (hgoverns : l.Governs base s.events) {entry : Path}
    (hentered : .entered c.options.source entry ∈ s.events) :
    l.Houses c.options.source c.name := by
  obtain ⟨name, hhouses⟩ := hgoverns.entered _ _ hentered
  obtain rfl := Option.some.inj (hhouses.fileName?.symm.trans hc.named)
  exact hhouses

/-- The assets of a component, or its styles, are delivered beside its module. -/
theorem respects_folderCopy {folder : String} (hfolder : folder ∉ Layout.moduleFiles)
    (hname : Path.IsName folder) {style : Option StylePreprocessor}
    (hstyle : ∀ (r : Session → Session → Prop) [IsPreorder Session r], ∀ f, style = some f →
      ∀ css p, (f css p).Respects r) :
    (FolderCopy.run ⟨c.options.source.join ⟨folder⟩, c.output.join ⟨folder⟩, style⟩).Respects
      (PlacingIn l base c.options.source) := by
  have hne : ∀ p : Path, (p.join ⟨folder⟩).text ≠ "" := by
    intro p hempty
    have hsegments := Path.segments_join_name p hname
    rw [Path.segments, hempty, show Path.segmentsOf "".toList = [] from rfl] at hsegments
    exact absurd hsegments.symm (by simp)
  intro s n s' h
  have hgrown := Extends.building.steps.folderCopy _ (hstyle _) _ _ _ h
  refine ⟨hgrown, fun entry hentered => ⟨hgrown, Keeps.building.steps.folderCopy _ (hstyle _) _ _ _ h,
    fun hwf hgoverns d hd => ?_⟩⟩
  have hhouses := hc.houses hgoverns (hgrown.event_mem hentered)
  refine ((FolderCopy.respects_run (hne _) (hne _) (hstyle _) _ _ _ h hwf).2 d hd).imp_right ?_
  rintro ⟨xs, hsource, htarget⟩
  refine .copy (.folder c.name folder xs hhouses.1 hfolder ?_ ?_)
  · rw [hsource, Path.segments_join_name _ hname, hhouses.2]
    simp [names]
  · rw [htarget, Path.segments_join_name _ hname, hc.segments_output]
    simp [names]

theorem respects_copyFolders {style : Option StylePreprocessor}
    (hstyle : ∀ (r : Session → Session → Prop) [IsPreorder Session r], ∀ f, style = some f →
      ∀ css p, (f css p).Respects r) :
    (Component.copyFolders c style).Respects (PlacingIn l base c.options.source) := by
  have hassets := @respects_folderCopy l base c hc "assets" (by decide) (by decide) none
    fun _ _ _ hnone => by cases hnone
  have hstyles := @respects_folderCopy l base c hc "styles" (by decide) (by decide) style hstyle
  exact (hassets.bind fun _ => .pure _).bind fun _ => hstyles.bind fun _ => .pure _

/-- The module of a component is delivered to the folder of its name. -/
theorem placing_deliver {entry : Path} {o : CompileOutput}
    (hentered : .entered c.options.source entry ∈ s.events)
    (h : (Component.deliver entry c.output o).Gives s () s') : s.Placing l base s' := by
  have hgrown := Extends.building.steps.deliver _ _ _ _ _ _ h
  refine ⟨hgrown, Keeps.building.steps.deliver _ _ _ _ _ _ h, fun _ _ d hd => ?_⟩
  refine ((Component.gives_deliver h).2.2 d hd).imp_right ?_
  rintro ⟨hsource, file, hfile, htarget⟩
  have hfiles : file ∈ Layout.moduleFiles := List.mem_pair.2 hfile
  have hname : Path.IsName file := by
    rcases hfile with rfl | rfl
    · decide
    · decide
  refine .module c.options.source c.name file (hsource ▸ hgrown.event_mem hentered) hc.named
    hfiles ?_
  rw [htarget, Path.segments_join_name _ hname, hc.segments_output]
  simp [names]

/-- Scripts are copied to the places that the layout has for them. -/
theorem respects_copyPlain (code : List Char) (draft : Text.Draft) {ref : Reference}
    (habsolute : (Path.mk ref.target).isAbsolute = false) :
    (c.copyPlain code draft ref).Respects
      (PlacingIn l c.options.destination c.options.source) := by
  intro s draft' s' h
  have hgrown := Extends.building.steps.copyPlain c code draft ref s draft' s' h
  have hkept := Keeps.building.steps.copyPlain c code draft ref s draft' s' h
  refine ⟨hgrown, fun entry hentered => ⟨hgrown, hkept, fun hwf hgoverns => ?_⟩⟩
  have hbelow : l.copy = c.options.destination.segments ++ names [] := by
    rw [hc.copy, Path.names_nil, List.append_nil]
  have hhouses := hc.houses hgoverns (hgrown.event_mem hentered)
  unfold ComponentContext.copyPlain at h
  rw [Step.gives_bind] at h
  obtain ⟨found, t, hresolve, h⟩ := h
  obtain ⟨-, rfl⟩ := Step.gives_resolve.1 hresolve
  dsimp only at h
  rw [Step.gives_bind] at h
  obtain ⟨_, t, htrace, h⟩ := h
  obtain rfl := Step.gives_trace.1 htrace
  rw [Step.gives_bind] at h
  obtain ⟨_, u, hscript, h⟩ := h
  obtain ⟨-, rfl⟩ := Step.gives_edit.1 h
  generalize hf : Followed.mk c.options.source c.output ref.target found
    (Path.confine c.options.destination (c.output.join ⟨ref.target⟩)) = f at hscript
  have hevent := (Extends.building.steps.script _ _ _ _ _ _ _ hscript).event_mem
    (List.mem_append_right _ (List.mem_singleton_self (Event.followed f)))
  obtain ⟨p, hadmits⟩ := hgoverns.followed f hevent
  -- the folder of the component and its output stand at the place of its name
  obtain ⟨hfolder, hcopied, htarget, hfound, hlanding⟩ : f.folder = c.options.source ∧
      f.copied = c.output ∧ f.target = ref.target ∧ f.found = found ∧
        f.landing = Path.confine c.options.destination (c.output.join ⟨ref.target⟩) := by
    simp only [← hf, and_self]
  obtain rfl : p = ⟨0, [c.name]⟩ := by
    refine Place.copy_injective hadmits.plain (fun heq => hhouses.1 (Option.some.inj heq))
      (Path.names_injective (List.append_cancel_left (hadmits.copied.symm.trans ?_)))
    rw [hcopied]
    exact hc.segments_output
  have hlands : l.Lands s'.events f.found f.landing := by
    have hroot : f.folder.segments = l.root 0 c.name ++ names [c.name] := by
      rw [hfolder]
      exact hhouses.2
    rw [← htarget] at habsolute
    rw [← hcopied, ← htarget] at hlanding
    exact ⟨Layout.relates_of_admitsAt hc.clean hbelow hadmits habsolute hlanding hroot,
      ⟨f, hevent, rfl⟩, _, hadmits.segments_landing hc.clean hbelow habsolute hlanding⟩
  rw [hfound, hlanding] at hlands
  have hcarries : s'.Carries (l.Lands s'.events) c.options.destination := by
    intro f hf source copy hlands hleads
    obtain ⟨p, hadmits⟩ := hgoverns.followed f hf
    exact ⟨Layout.relates_of_admits hc.clean hbelow ⟨p, hadmits⟩ hlands.related hleads,
      ⟨f, hf, rfl⟩, _, hadmits.segments_landing hc.clean hbelow hleads.relative hleads.landing⟩
  have hadds := (follows_script _ hlands _ _ _ hscript).2 hcarries
  exact fun d hd => (hadds.deliveries d hd).imp_right fun hlands => .copy (.script hlands)

end Contains

/-! ### A whole build -/

namespace Placing

/-- **A compilation delivers where the layout has room.** -/
theorem compile {b : Bundler} (hb : b.IsDiscreet)
    (hmapped : ∀ pass, b.mappingPass? = some pass → pass.CopiesNothing)
    (hclean : Path.IsClean base.segments) (hcopy : l.copy = base.segments) (depth : Nat)
    {options : BuildOptions} (hdestination : options.destination = base) (paths : List Path) :
    (Component.compile b depth options paths).Respects (Placing l base) := by
  induction depth generalizing options paths with
  | zero => exact .fail _
  | succ depth ih =>
    intro s u s' h
    obtain ⟨stages⟩ := Component.stages_of_gives h
    let c : ComponentContext :=
      ⟨b, options, paths, stages.name, options.destination.join ⟨stages.name⟩⟩
    have hc : Contains l c := ⟨hdestination ▸ hcopy, hdestination ▸ hclean, rfl, stages.named⟩
    have hstyle := fun (r : Session → Session → Prop) [IsPreorder Session r] =>
      (hb (Step.Respects r)).preprocessor (options.publicPath stages.name)
    have hentered : s.Placing l base
        (Component.enter s options.source stages.entry stages.log) :=
      trans_of (Placing l base) (of_eq (Extends.building.entered s _ _)
        (Keeps.building.entered s _ _) rfl) (referring.log _ _)
    have hfolder := @createFolder l base _ _ _ _ stages.makes
    have hevent : .entered options.source stages.entry ∈ stages.made.events :=
      hfolder.grown.event_mem (List.mem_append_right _ (List.mem_singleton_self _))
    have hmade := trans_of (Placing l base) hentered hfolder
    have hnested := fun source paths => @PlacingIn.respects_of_placing l base options.source _ _
      (@ih { options with source } hdestination paths)
    -- from here on the component is entered
    have hcopied := @Contains.respects_copyFolders l base c hc _ hstyle _ _ _ stages.copies
    have htranslated := (@PlacingIn.referring l base options.source).steps.runPlugin (c := c) (hb _)
      (fun code draft ref hrelative => hdestination ▸ hc.respects_copyPlain code draft hrelative)
      (fun pass hpass => (PlacingIn.referring).steps.mappingPass (hmapped pass hpass))
      (fun draft ref _ => PlacingIn.referring.steps.compileReference c hnested draft ref)
      stages.registered _ (hstyle _) _ _ _ stages.translates
    have hminify := (hb (Step.Respects (PlacingIn l base options.source))).minify
    have hpoint := fun code paths => @PlacingIn.respects_of_placing l base options.source _ _
      (@point l base code c.output paths)
    have hfinished := Step.Law.Noting.finish
      (P := Step.Respects (PlacingIn l base options.source)) (c := c)
      (fun pass hpass => PlacingIn.referring.steps.mappingPass (hmapped pass hpass))
      (fun code => hpoint code _) hminify _ _ _ _ _ stages.finishes
    have hlater := trans_of (PlacingIn l base options.source) hcopied
      (trans_of (PlacingIn l base options.source) (PlacingIn.referring.mapped _ _)
        (trans_of (PlacingIn l base options.source) htranslated
          (trans_of (PlacingIn l base options.source) hfinished
            (PlacingIn.referring.mapped _ stages.copied.mapped))))
    have hdelivered := @Contains.placing_deliver l base _ _ c hc _ _ (hlater.1.event_mem hevent)
      stages.delivers
    exact trans_of (Placing l base) hmade
      (trans_of (Placing l base) (hlater.2 _ hevent) hdelivered)

theorem compileEntry {b : Bundler} (hb : b.IsDiscreet)
    (hmapped : ∀ pass, b.mappingPass? = some pass → pass.CopiesNothing)
    (hclean : Path.IsClean base.segments) (hcopy : l.copy = base.segments)
    {options : BuildOptions} (hdestination : options.destination = base) :
    (b.compileEntry options).Respects (Placing l base) :=
  Bundler.respects_compileEntry referring.begun fun paths =>
    compile hb hmapped hclean hcopy _ hdestination paths

end Placing

end Session

/-- A component that refers to a script beside it and to another component. -/
def neighbourComponents : FileTree where
  entries := [
    (["a_a"], .folder), (["b_b"], .folder),
    (["a_a", "index.esm"], .file (.text
      "import './util.js'\nimport '../b_b/index.esm'\nexport default A")),
    (["a_a", "util.js"], .file (.text "x")),
    (["b_b", "index.esm"], .file (.text "export default B"))]

set_option maxRecDepth 100000 in
theorem neighbourComponents_run :
    let r : Except Failure (List Bundle) × Session :=
      (Bundler.compile {} { source := ⟨"/a_a"⟩, destination := ⟨"/o"⟩ }).run.run
        { files := neighbourComponents }
    r.1.toOption = some [⟨⟨"/o/b_b/index.js"⟩, 49, none⟩, ⟨⟨"/o/a_a/index.js"⟩, 93, none⟩] ∧
      r.2.events = [
        .begun ⟨"/a_a/index.esm"⟩, .entered ⟨"/a_a"⟩ ⟨"/a_a/index.esm"⟩,
        .followed ⟨⟨"/a_a"⟩, ⟨"/o/a_a"⟩, "./util.js", ⟨"/a_a/util.js"⟩, ⟨"/o/a_a/util.js"⟩⟩,
        .begun ⟨"/b_b/index.esm"⟩, .entered ⟨"/b_b"⟩ ⟨"/b_b/index.esm"⟩,
        .linked ⟨⟨"/o/a_a"⟩, "../b_b/index.esm", ⟨"/b_b/index.esm"⟩, ⟨"/o/b_b/index.js"⟩, true⟩,
        .pointed ⟨⟨"/o/a_a"⟩, "./util.js", ⟨"/o/a_a/util.js"⟩, "./util.js"⟩] := by
  decide +kernel

/-- A component that refers to two others of one name. -/
def namesakes : FileTree where
  entries := [
    (["a_a"], .folder), (["x"], .folder), (["y"], .folder),
    (["x", "b_b"], .folder), (["y", "b_b"], .folder),
    (["a_a", "index.esm"], .file (.text
      "import '../x/b_b/index.esm'\nimport '../y/b_b/index.esm'\nexport default A")),
    (["x", "b_b", "index.esm"], .file (.text "export default B")),
    (["y", "b_b", "index.esm"], .file (.text "export default C"))]

set_option maxRecDepth 100000 in
theorem namesakes_run :
    let r : Except Failure (List Bundle) × Session :=
      (Bundler.compile {} { source := ⟨"/a_a"⟩, destination := ⟨"/o"⟩ }).run.run
        { files := namesakes }
    r.1.toOption = some [⟨⟨"/o/b_b/index.js"⟩, 49, none⟩, ⟨⟨"/o/b_b/index.js"⟩, 49, none⟩,
        ⟨⟨"/o/a_a/index.js"⟩, 99, none⟩] ∧
      r.2.deliveries = [⟨⟨"/x/b_b/index.esm"⟩, ⟨"/o/b_b/index.js"⟩⟩,
        ⟨⟨"/y/b_b/index.esm"⟩, ⟨"/o/b_b/index.js"⟩⟩, ⟨⟨"/a_a/index.esm"⟩, ⟨"/o/a_a/index.js"⟩⟩] ∧
      namesakes.canonical ⟨"/x/b_b/index.esm"⟩ = .ok ⟨"/x/b_b/index.esm"⟩ ∧
      namesakes.canonical ⟨"/y/b_b/index.esm"⟩ = .ok ⟨"/y/b_b/index.esm"⟩ := by
  decide +kernel

end ElementBuild
