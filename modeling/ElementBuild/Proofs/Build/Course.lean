/-
# The course of a compilation

A compilation that ends well goes through stages, and what its plugin makes of the script
goes through passes (`Component.Course`).  Each component reference of the script is linked
in a session of its own (`Compilation.Links`), and the first reference to a component
starts a compilation that is nested in the other (`Compilation.Nests`).

The sessions of a course follow each other: a relation that is respected by its steps
relates the session that a compilation starts from to each of them, and each of them to the
one where it stops (`Bundler.Passes`).
-/
import ElementBuild.Proofs.Build.Links
import ElementBuild.Proofs.Rounds

namespace ElementBuild

/-! ### Plugins -/

/-- **The plugin for plain scripts** refuses what it cannot compile, preprocesses the script,
and puts the definition of the element under it. -/
theorem Plugin.gives_ecmascript {r : CompileRequest} {o : CompileOutput} {s s' : Session} :
    (Plugin.ecmascript.compile r).Gives s o s' ↔ ∃ element folder script,
      CompileRequest.isVacant r.code = false ∧
      Plugin.Ecmascript.defaultExport? r.code = some element ∧ r.check = .ok () ∧
      r.elementFolder = .ok folder ∧ r.checkSource s.files = .ok () ∧
      r.sourcemap.checkScripts = .ok () ∧ (r.preprocessScript r.code).Gives s script s' ∧
      ∃ code, code = script ++ "\n\n" ++ Plugin.Ecmascript.definition (Element.tag folder) element ∧
        o = ⟨code, if r.sourcemap.forScripts then
          some (Plugin.Ecmascript.sourcemap r code).compact else none⟩ := by
  unfold ecmascript Ecmascript.compile Step.refusing
  dsimp only
  constructor
  · intro h
    split at h
    · exact absurd h Step.gives_fail
    · rename_i hvacant
      split at h
      · exact absurd h Step.gives_fail
      · rename_i element hexport
        simp only [Step.gives_bind, Step.gives_ofExcept, Step.gives_files, Step.gives_pure] at h
        obtain ⟨_, _, ⟨hcheck, rfl⟩, folder, _, ⟨hfolder, rfl⟩, _, _, ⟨rfl, rfl⟩, _, _,
          ⟨hsource, rfl⟩, _, _, ⟨hmap, rfl⟩, script, _, hscript, rfl, rfl⟩ := h
        exact ⟨element, folder, script, Bool.eq_false_iff.2 hvacant, hexport, hcheck, hfolder, hsource,
          hmap, hscript, _, rfl, rfl⟩
  · rintro ⟨element, folder, script, hvacant, hexport, hcheck, hfolder, hsource, hmap, hscript, code,
      rfl, rfl⟩
    rw [if_neg (Bool.eq_false_iff.1 hvacant), hexport]
    simp only [Step.gives_bind, Step.gives_ofExcept, Step.gives_files, Step.gives_pure]
    exact ⟨_, _, ⟨hcheck, rfl⟩, folder, _, ⟨hfolder, rfl⟩, _, _, ⟨rfl, rfl⟩, _, _,
      ⟨hsource, rfl⟩, _, _, ⟨hmap, rfl⟩, script, _, hscript, rfl, rfl⟩

/-! ### Links -/

/-- A link is one of the output of its component, to what the reference leads to. -/
theorem ComponentContext.entry_of_link {c : ComponentContext} {build : ComponentBuild}
    {r : Reference} {l : ComponentLink} {s s' : Session} (h : (c.link build r).Gives s l s') :
    l.output = c.output ∧ s.files.resolve r.target [c.options.source] = .ok l.entry := by
  obtain ⟨_, _, entry, -, hresolved, ⟨_, -, rfl, -⟩ | ⟨_, -, rfl, -⟩⟩ := gives_link h
  · exact ⟨rfl, hresolved⟩
  · exact ⟨rfl, hresolved⟩

/-- A reference of a script to a component is linked, between two sessions. -/
def ComponentContext.Links (c : ComponentContext) (build : ComponentBuild) (code : String)
    (s : Session) (r : Reference) (l : ComponentLink) (t t' : Session) : Prop :=
  ∃ references s₁ draft, (Step.scan c.scanOptions code).Gives s references s₁ ∧
    Step.Reaches (c.compileReference build) (references.filter (·.kind == .component))
      (Text.Draft.ofString code) s₁ r draft t ∧ (c.link build r).Gives t l t'

/-! ### Courses -/

namespace Component

variable {b : Bundler} {build : ComponentBuild} {options : BuildOptions} {paths : List Path}
  {s s' : Session}

/-- The component that is compiled. -/
def Stages.context (x : Stages b build options paths s s') : ComponentContext :=
  ⟨b, options, paths, x.name, options.destination.join ⟨x.name⟩⟩

/-- The course of a compilation of a plain script between two sessions. -/
structure Course (b : Bundler) (build : ComponentBuild) (options : BuildOptions)
    (paths : List Path) (s s' : Session) extends Stages b build options paths s s' where
  /-- The text of the entry file, and what each pass makes of it. -/
  code : String
  plain : String
  mapped : String
  linked : String
  script : String
  /-- The name of the class of the element. -/
  element : String
  /-- The sessions after the passes that change them. -/
  placed : Session
  remapped : Session
  joined : Session
  reads : copied.files.readText entry = .ok code
  exported : Plugin.Ecmascript.defaultExport? code = some element
  places : (toStages.context.copyPlainCode code).Gives { copied with mapped := [] } plain placed
  maps : (toStages.context.mapCode plain).Gives placed mapped remapped
  joins : (toStages.context.compileComponents build mapped).Gives remapped linked joined
  inlines : (toStages.context.inlineAssets linked).Gives joined script translated
  written : ∃ r module, r.code = code ∧ r.filename = entry ∧ r.sourcemap = options.sourcemap ∧
    module = script ++ "\n\n" ++ Plugin.Ecmascript.definition
      (Element.tag ((entry.parent?.bind Path.fileName?).getD "")) element ∧
    compiled = ⟨module, if r.sourcemap.forScripts then
      some (Plugin.Ecmascript.sourcemap r module).compact else none⟩

/-- The script of a component is preprocessed by its passes, one after the other. -/
theorem Course.preprocesses (x : Course b build options paths s s') :
    (x.context.preprocess build x.code).Gives { x.copied with mapped := [] } x.script x.translated :=
  Step.gives_bind.2 ⟨_, _, x.places, Step.gives_bind.2 ⟨_, _, x.maps,
    Step.gives_bind.2 ⟨_, _, x.joins, x.inlines⟩⟩⟩

/-- The plugin of a component is the one that is registered. -/
theorem Stages.plugin_eq (x : Stages b build options paths s s')
    (hregistry : b.registry = .initial) : x.plugin = Plugin.ecmascript := by
  obtain ⟨y, hy, hplugin⟩ := Registry.exists_of_forExtension x.registered
  rw [hregistry] at hy
  rw [← hplugin, List.mem_singleton.1 hy]

/-- **A compilation with the plugin for plain scripts that ends well has a course.** -/
theorem course_of_gives (hregistry : b.registry = .initial)
    (h : (compileWith b build options paths).Gives s () s') :
    Nonempty (Course b build options paths s s') := by
  obtain ⟨x⟩ := stages_of_gives h
  have htranslates := x.translates
  rw [x.plugin_eq hregistry] at htranslates
  unfold runPlugin at htranslates
  rw [Step.gives_bind] at htranslates
  obtain ⟨code, t, hread, htranslates⟩ := htranslates
  obtain ⟨hreads, rfl⟩ := Step.gives_read.1 (Step.gives_during.1 hread)
  obtain ⟨element, folder, script, -, hexport, -, hfolder, -, -, hscript, _, rfl, houtput⟩ :=
    Plugin.gives_ecmascript.1 (Step.gives_during.1 htranslates)
  dsimp only at hscript hexport
  unfold ComponentContext.preprocess at hscript
  simp only [Step.gives_bind] at hscript
  obtain ⟨plain, placed, hplaces, mapped, remapped, hmaps, linked, joined, hjoins, hinlines⟩ :=
    hscript
  refine ⟨⟨x, code, plain, mapped, linked, script, element, placed, remapped, joined, hreads,
    hexport, hplaces, hmaps, hjoins, hinlines, _, _, rfl, rfl, rfl, ?_, houtput⟩⟩
  rw [CompileRequest.elementFolder] at hfolder
  dsimp only at hfolder
  split at hfolder
  · rw [← Except.ok.inj hfolder]
  · cases hfolder

end Component

/-- A compilation in the course of a build, with the sessions between which it runs. -/
structure Compilation (b : Bundler) where
  depth : Nat
  options : BuildOptions
  paths : List Path
  start : Session
  stop : Session
  course : Component.Course b (Component.compile b depth) options paths start stop

namespace Compilation

variable {b : Bundler}

/-- The name of the component. -/
def name (x : Compilation b) : String := x.course.name

/-- The entry file of the component. -/
def entry (x : Compilation b) : Path := x.course.entry

/-- The folder of the output. -/
def output (x : Compilation b) : Path := x.options.destination.join ⟨x.name⟩

theorem named (x : Compilation b) : x.options.source.fileName? = some x.name := x.course.named

theorem found (x : Compilation b) :
    Component.entryFile? x.start.files x.options.source = .ok (some x.entry) := x.course.found

/-- A reference of the component is linked, between two sessions. -/
def Links (x : Compilation b) : Reference → ComponentLink → Session → Session → Prop :=
  x.course.context.Links (Component.compile b x.depth) x.course.mapped x.course.remapped

/-- A compilation starts another: that of a component that was not recorded when a reference
led to it. -/
structure Nests (x y : Compilation b) : Prop where
  depth : y.depth + 1 = x.depth
  options : y.options = { x.options with source := y.options.source }
  paths : y.paths = [y.options.source, x.output, x.options.source]
  link : ∃ r l t, x.Links r l t y.stop ∧ l.isFirst = true ∧
    l.entry.parent? = some y.options.source ∧ y.start = { t.begin l.entry l.destination with
      log := t.log ++ [.info ("Compiling dependency " ++ y.options.source.text)] }

/-- A compilation with the plugin for plain scripts that ends well. -/
theorem exists_of_gives (hregistry : b.registry = .initial) {depth : Nat} {options : BuildOptions}
    {paths : List Path} {s s' : Session}
    (h : (Component.compile b depth options paths).Gives s () s') :
    ∃ x : Compilation b, x.depth + 1 = depth ∧ x.options = options ∧ x.paths = paths ∧
      x.start = s ∧ x.stop = s' := by
  cases depth with
  | zero => exact absurd h Step.gives_fail
  | succ depth =>
    obtain ⟨course⟩ := Component.course_of_gives hregistry h
    exact ⟨⟨depth, options, paths, s, s', course⟩, rfl, rfl, rfl, rfl, rfl⟩

/-- What a first link compiles is a compilation that is nested in the other. -/
theorem exists_nested_of_gives (hregistry : b.registry = .initial) {x : Compilation b}
    {r : Reference} {l : ComponentLink} {t t' : Session} (h : x.Links r l t t')
    (hfirst : l.isFirst = true) {source : Path} (hsource : l.entry.parent? = some source)
    (hnested : (Component.compile b x.depth { x.options with source }
      [source, x.output, x.options.source]).Gives { t.begin l.entry l.destination with
        log := t.log ++ [.info ("Compiling dependency " ++ source.text)] } () t') :
    ∃ y : Compilation b, x.Nests y ∧ y.depth + 1 = x.depth ∧
      y.options = { x.options with source } ∧ y.paths = [source, x.output, x.options.source] ∧
      y.start = { t.begin l.entry l.destination with
        log := t.log ++ [.info ("Compiling dependency " ++ source.text)] } ∧ y.stop = t' := by
  obtain ⟨y, hdepth, hoptions, hpaths, hstart, rfl⟩ := exists_of_gives hregistry hnested
  have hy : y.options.source = source := by
    rw [hoptions]
  refine ⟨y, ⟨hdepth, ?_, ?_, r, l, t, h, hfirst, ?_, ?_⟩, hdepth, hoptions, hpaths, hstart, rfl⟩
  · rw [hy]
    exact hoptions
  · rw [hy]
    exact hpaths
  · rw [hy]
    exact hsource
  · rw [hy]
    exact hstart

/-- A first link starts a compilation. -/
theorem exists_nested (hregistry : b.registry = .initial) {x : Compilation b} {r : Reference}
    {l : ComponentLink} {t t' : Session} (h : x.Links r l t t') (hfirst : l.isFirst = true) :
    ∃ y : Compilation b, x.Nests y ∧ y.stop = t' ∧
      ∃ log, y.start = { t.begin l.entry l.destination with log } := by
  obtain ⟨references, s₁, draft, hscan, hreaches, hlink⟩ := h
  obtain ⟨folder, stem, entry, -, -, hcase⟩ := ComponentContext.gives_link hlink
  rcases hcase with ⟨d, -, rfl, -⟩ | ⟨d, -, rfl, hcompile⟩
  · cases hfirst
  · unfold ComponentContext.compileDependency at hcompile
    split at hcompile
    · exact absurd hcompile Step.gives_fail
    · rename_i source hsource
      dsimp only at hcompile
      simp only [Step.gives_bind, Step.gives_attempt, Step.gives_tell, Step.gives_pure] at hcompile
      obtain ⟨_, _, ⟨_, _, rfl, hnested⟩, rfl, rfl⟩ := hcompile
      obtain ⟨y, hnests, -, -, -, hstart, hstop⟩ := exists_nested_of_gives hregistry
        ⟨references, s₁, draft, hscan, hreaches, hlink⟩ hfirst hsource hnested
      exact ⟨y, hnests, hstop, _, hstart⟩

/-- A link is one of the output of its component. -/
theorem Links.output {x : Compilation b} {r : Reference} {l : ComponentLink} {t t' : Session}
    (h : x.Links r l t t') : l.output = x.output := by
  obtain ⟨-, -, -, -, -, hlink⟩ := h
  exact (ComponentContext.entry_of_link hlink).1

end Compilation

/-! ### The sessions of a course -/

/-- A relation that the steps of compilations respect, but for those that enter components
and refer to them. -/
structure Session.Passing (r : Session → Session → Prop) : Prop where
  copying : Session.Copying r
  compiling : Session.Compiling r
  point : ∀ code output paths, (Relative.point code output paths).Respects r

/-- A relation that the steps of compilations to a destination respect. -/
structure Bundler.Passes (b : Bundler) (destination : Path) (r : Session → Session → Prop) :
    Prop extends Session.Passing r where
  entered : ∀ s source entry, r s { s with events := s.events ++ [.entered source entry] }
  reference : ∀ depth (c : ComponentContext), c.bundler = b → c.options.destination = destination →
    c.output.isAbsolute = true → ∀ draft ref, ref.IsTyped b.types →
      (c.compileReference (Component.compile b depth) draft ref).Respects r

/-- A relation that links and records of components respect, too. -/
structure Bundler.Spans (b : Bundler) (destination : Path) (r : Session → Session → Prop) : Prop
    extends Bundler.Passes b destination r where
  begun : ∀ s entry destination, r s (s.begin entry destination)
  linked : ∀ s l, r s { s with events := s.events ++ [.linked l] }

/-- What whole builds respect, compilations to any destination do. -/
theorem Session.Building.spans {r : Session → Session → Prop} [IsPreorder Session r]
    (hr : Session.Building r) {b : Bundler} (hb : b.IsDiscreet)
    (hpointed : ∀ s p, r s { s with events := s.events ++ [.pointed p] }) (destination : Path) :
    b.Spans destination r where
  copying := hr.toCopying
  compiling := hr.toCompiling
  begun := hr.begun
  linked := hr.linked
  entered := hr.entered
  point := hr.toCopying.steps.point fun p => .trace fun s => hpointed s p
  reference depth c _ _ _ draft ref _ := hr.toReferring.steps.compileReference c
    (fun _ paths => hr.compile hb hpointed depth _ paths) draft ref

namespace Compilation

variable {b : Bundler} {r : Session → Session → Prop} [IsPreorder Session r]

/-- The context of the component. -/
abbrev context (x : Compilation b) : ComponentContext := x.course.context

/-- The sessions of a compilation follow each other, but for those around its entrance and
its references to components. -/
structure Proceeds (r : Session → Session → Prop) (x : Compilation b) : Prop where
  copied : r (Component.enter x.start x.options.source x.entry x.course.log) x.course.copied
  unmapped : r x.course.copied { x.course.copied with mapped := [] }
  placed : r { x.course.copied with mapped := [] } x.course.placed
  remapped : r x.course.placed x.course.remapped
  translated : r x.course.joined x.course.translated
  finished : r x.course.translated x.course.finished
  stop : r x.course.finished x.stop

theorem proceeds (hr : Session.Passing r) (hb : b.IsDiscreet) (x : Compilation b) :
    x.Proceeds r := by
  have hcopying := hr.copying.steps
  have hstyle := (hb (Step.Respects r)).preprocessor (x.options.publicPath x.name)
  have hmapping : ∀ pass, b.mappingPass? = some pass → ∀ code folder paths skip,
      (pass.run code folder paths skip).Respects r := fun pass _ => hcopying.mappingPass pass
  refine ⟨?_, hr.copying.mapped _ _, ?_, ?_, ?_, ?_, ?_⟩
  · exact trans_of r (hcopying.createFolder _ _ _ _ x.course.makes)
      (hcopying.copyFolders _ _ hstyle _ _ _ x.course.copies)
  · exact hcopying.copyPlainCode _ (fun _ _ _ _ => hcopying.copyPlain _ _ _ _) _ _ _ _
      x.course.places
  · exact hcopying.mapCode hmapping _ _ _ _ x.course.maps
  · exact hcopying.inlineAssets _ _ _ _ _ x.course.inlines
  · exact Step.Law.Noting.finish (P := Step.Respects r) (c := x.context) hmapping
      (fun code => hr.point code _ _) (hb (Step.Respects r)).minify _ _ _ _ _ x.course.finishes
  · refine trans_of r (hr.copying.mapped _ x.course.copied.mapped) ?_
    exact hr.compiling.steps.deliver _ _ _ _ _ _ x.course.delivers

/-- The sessions of a compilation follow each other. -/
structure Follows (r : Session → Session → Prop) (x : Compilation b) : Prop
    extends x.Proceeds r where
  entered : r x.start (Component.enter x.start x.options.source x.entry x.course.log)
  joined : r x.course.remapped x.course.joined

section Passes

variable {destination : Path} (hr : b.Passes destination r) (hb : b.IsDiscreet)
include hr hb

theorem follows {x : Compilation b} (hdestination : x.options.destination = destination)
    (habsolute : destination.isAbsolute = true) : x.Follows r := by
  refine ⟨x.proceeds hr.toPassing hb, ?_, ?_⟩
  · exact trans_of r (hr.entered x.start x.options.source x.entry)
      (hr.copying.log _ x.course.log)
  · refine hr.copying.steps.compileComponents _ (fun draft ref htyped => ?_) _ _ _ _ x.course.joins
    refine hr.reference _ _ rfl hdestination ?_ draft ref htyped
    exact Path.isAbsolute_join (hdestination ▸ habsolute) _

/-- The script of a component is preprocessed after the compilation starts. -/
theorem start_remapped {x : Compilation b} (hdestination : x.options.destination = destination)
    (habsolute : destination.isAbsolute = true) : r x.start x.course.remapped := by
  have h := follows hr hb hdestination habsolute
  exact trans_of r (trans_of r (trans_of r (trans_of r h.entered h.copied) h.unmapped) h.placed)
    h.remapped

/-- Its module is pointed and delivered before the compilation stops. -/
theorem joined_stop {x : Compilation b} (hdestination : x.options.destination = destination)
    (habsolute : destination.isAbsolute = true) : r x.course.joined x.stop := by
  have h := follows hr hb hdestination habsolute
  exact trans_of r (trans_of r h.translated h.finished) h.stop

theorem start_stop {x : Compilation b} (hdestination : x.options.destination = destination)
    (habsolute : destination.isAbsolute = true) : r x.start x.stop :=
  trans_of r (trans_of r (start_remapped hr hb hdestination habsolute)
    (follows hr hb hdestination habsolute).joined) (joined_stop hr hb hdestination habsolute)

/-- A link happens between the session that the compilation starts from and the one where
the script has been handled. -/
theorem start_link {x : Compilation b} (hdestination : x.options.destination = destination)
    (habsolute : destination.isAbsolute = true) {ref : Reference} {l : ComponentLink}
    {t t' : Session} (h : x.Links ref l t t') : r x.start t ∧
      r t { t' with events := t'.events ++ [.linked l] } ∧
        r { t' with events := t'.events ++ [.linked l] } x.course.joined := by
  have hcopying := hr.copying.steps
  have houtput : x.context.output.isAbsolute = true :=
    Path.isAbsolute_join (hdestination ▸ habsolute) _
  obtain ⟨references, s₁, draft, hscan, hreaches, hlink⟩ := h
  have hrounds : ∀ (draft : Text.Draft) (ref : Reference),
      ref ∈ references.filter (·.kind == .component) →
        (x.context.compileReference (Component.compile b x.depth) draft ref).Respects r := by
    intro draft ref href
    obtain ⟨found, hfound, rfl, -⟩ := Step.gives_scan hscan
    exact hr.reference _ _ rfl hdestination houtput draft ref
      (isTyped_of_mem_scan hfound (List.mem_filter.1 href).1)
  have hjoins := x.course.joins
  unfold ComponentContext.compileComponents at hjoins
  rw [Step.gives_bind] at hjoins
  obtain ⟨references', s₁', hscan', hjoins⟩ := hjoins
  obtain ⟨rfl, rfl⟩ := hscan.unique hscan'
  rw [Step.gives_bind] at hjoins
  obtain ⟨draft', t₁, hfold, hpure⟩ := hjoins
  obtain ⟨-, hjoined⟩ := Step.gives_pure.1 hpure
  obtain ⟨c, u, rest, hrest, hround, hlater⟩ := hreaches.exists_gives hfold
  obtain ⟨l', t'', hlink', rfl⟩ := ComponentContext.gives_compileReference hround
  obtain ⟨rfl, rfl⟩ := hlink.unique hlink'
  refine ⟨?_, hrounds _ _ hreaches.mem _ _ _ hround, ?_⟩
  · exact trans_of r (start_remapped hr hb hdestination habsolute)
      (trans_of r (hcopying.scan _ _ _ _ _ hscan) (hreaches.relates hrounds))
  · rw [hjoined]
    exact Step.Respects.foldlM (fun b y hy => hrounds b y (hrest hy)) _ _ _ _ hlater

theorem link_stop {x : Compilation b} (hdestination : x.options.destination = destination)
    (habsolute : destination.isAbsolute = true) {ref : Reference} {l : ComponentLink}
    {t t' : Session} (h : x.Links ref l t t') :
    r { t' with events := t'.events ++ [.linked l] } x.stop :=
  trans_of r (start_link hr hb hdestination habsolute h).2.2
    (joined_stop hr hb hdestination habsolute)

end Passes

section Spans

variable {destination : Path} (hr : b.Spans destination r) (hb : b.IsDiscreet)
include hr hb

/-- A nested compilation starts after the one around it. -/
theorem start_nested {x y : Compilation b} (h : Relation.ReflTransGen Nests x y)
    (hdestination : x.options.destination = destination)
    (habsolute : destination.isAbsolute = true) :
    r x.start y.start ∧ y.options = { x.options with source := y.options.source } := by
  induction h with
  | refl => exact ⟨refl_of r _, rfl⟩
  | @tail y z _ hnests ih =>
    obtain ⟨hbefore, hy⟩ := ih
    obtain ⟨ref, l, t, hlink, -, -, hstart⟩ := hnests.link
    refine ⟨?_, ?_⟩
    · have hydestination : y.options.destination = destination := by
        rw [hy]
        exact hdestination
      rw [hstart]
      exact trans_of r hbefore (trans_of r
        (start_link hr.toPasses hb hydestination habsolute hlink).1
        (trans_of r (hr.begun t _ _) (hr.copying.log _ _)))
    · rw [hnests.options, hy]

/-- A nested compilation stops before the one around it. -/
theorem stop_nested {x y : Compilation b} (h : Relation.ReflTransGen Nests x y)
    (hdestination : x.options.destination = destination)
    (habsolute : destination.isAbsolute = true) : r y.stop x.stop := by
  induction h with
  | refl => exact refl_of r _
  | @tail y z hxy hnests ih =>
    obtain ⟨ref, l, t, hlink, -⟩ := hnests.link
    have hydestination : y.options.destination = destination := by
      rw [(start_nested hr hb hxy hdestination habsolute).2]
      exact hdestination
    exact trans_of r (hr.linked _ l)
      (trans_of r (link_stop hr.toPasses hb hydestination habsolute hlink) ih)

end Spans
end Compilation

end ElementBuild
