/-
# Stages of the compilation of a component

The compilation of a component that ends well goes through stages, each of which
succeeds on the session that the one before it left (`Component.stages_of_gives`).
-/
import ElementBuild.Build.Run
import ElementBuild.Proofs.FileTree.Walk
import ElementBuild.Proofs.Step

namespace ElementBuild
namespace Component

/-- The session once a component is entered. -/
def enter (s : Session) (source entry : Path) (log : List LogRecord) : Session :=
  { s with events := s.events ++ [.entered source entry], log }

/-- The stages of a compilation between two sessions. -/
structure Stages (b : Bundler) (build : ComponentBuild) (options : BuildOptions)
    (paths : List Path) (s s' : Session) where
  name : String
  entry : Path
  plugin : Plugin
  log : List LogRecord
  compiled : CompileOutput
  module : CompileOutput
  /-- The sessions after each of the stages but the last. -/
  made : Session
  copied : Session
  translated : Session
  finished : Session
  named : options.source.fileName? = some name
  found : entryFile? s.files options.source = .ok (some entry)
  registered : b.registry.forExtension (entry.extension?.getD "") = .ok plugin
  told : log = s.log ++ [.info ("Compiling " ++ options.source.text ++ " with " ++ plugin.name)]
  makes : (Copy.createFolder (options.destination.join ⟨name⟩)).Gives
    (enter s options.source entry log) () made
  copies : (copyFolders ⟨b, options, paths, name, options.destination.join ⟨name⟩⟩
    (b.style.map fun factory => factory (options.publicPath name))).Gives made () copied
  translates : (runPlugin ⟨b, options, paths, name, options.destination.join ⟨name⟩⟩ build plugin
    entry (b.style.map fun factory => factory (options.publicPath name))).Gives
      { copied with mapped := [] } compiled translated
  finishes : (finish ⟨b, options, paths, name, options.destination.join ⟨name⟩⟩ entry
    compiled).Gives translated module finished
  delivers : (deliver entry (options.destination.join ⟨name⟩) module).Gives
    { finished with mapped := copied.mapped } () s'

theorem gives_nameOf {source : Path} {s s' : Session} {name : String}
    (h : (nameOf source).Gives s name s') : source.fileName? = some name ∧ s' = s := by
  unfold nameOf at h
  split at h
  · obtain ⟨rfl, rfl⟩ := Step.gives_pure.1 h
    exact ⟨‹_›, rfl⟩
  · exact absurd h Step.gives_fail

theorem gives_findEntry {folder : Path} {s s' : Session} {entry : Option Path} :
    (findEntry folder).Gives s entry s' ↔ entryFile? s.files folder = .ok entry ∧ s' = s :=
  Step.gives_during.trans Step.gives_fromFiles

/-- **A compilation that ends well went through its stages.** -/
theorem stages_of_gives {b : Bundler} {build : ComponentBuild} {options : BuildOptions}
    {paths : List Path} {s s' : Session}
    (h : (compileWith b build options paths).Gives s () s') :
    Nonempty (Stages b build options paths s s') := by
  unfold compileWith at h
  rw [Step.gives_bind] at h
  obtain ⟨name, t, hname, h⟩ := h
  obtain ⟨hnamed, rfl⟩ := gives_nameOf hname
  rw [Step.gives_bind] at h
  obtain ⟨entry, t, hentry, h⟩ := h
  obtain ⟨hfound, rfl⟩ := gives_findEntry.1 hentry
  cases entry with
  | none => exact absurd h Step.gives_fail
  | some entry =>
    rw [Step.gives_bind] at h
    obtain ⟨_, t, htrace, h⟩ := h
    obtain rfl := Step.gives_trace.1 htrace
    unfold compileFrom at h
    rw [Step.gives_bind] at h
    obtain ⟨plugin, t, hplugin, h⟩ := h
    obtain ⟨hregistered, rfl⟩ := Step.gives_ofExcept.1 hplugin
    dsimp only at h
    rw [Step.gives_bind] at h
    obtain ⟨_, t, htell, h⟩ := h
    obtain rfl := Step.gives_tell.1 htell
    rw [Step.gives_bind] at h
    obtain ⟨_, made, hmade, h⟩ := h
    rw [Step.gives_bind] at h
    obtain ⟨_, copied, hcopied, h⟩ := h
    rw [Step.gives_bind] at h
    obtain ⟨_, t, hget, h⟩ := h
    obtain ⟨rfl, rfl⟩ := Step.gives_get.1 hget
    rw [Step.gives_bind] at h
    obtain ⟨_, t, hmodify, h⟩ := h
    obtain rfl := Step.gives_modify.1 hmodify
    rw [Step.gives_bind] at h
    obtain ⟨compiled, translated, htranslated, h⟩ := h
    rw [Step.gives_bind] at h
    obtain ⟨module, finished, hfinished, h⟩ := h
    rw [Step.gives_bind] at h
    obtain ⟨_, t, hrestored, h⟩ := h
    obtain rfl := Step.gives_modify.1 hrestored
    exact ⟨name, entry, plugin, _, compiled, module, made, _, translated, finished, hnamed, hfound,
      hregistered, rfl, hmade, hcopied, htranslated, hfinished, h⟩

/-- Without mapping, a module is pointed and minified at last. -/
theorem gives_finish {c : ComponentContext} (hmapping : c.bundler.mappingPass? = none)
    {entry : Path} {o o' : CompileOutput} {s s' : Session} (h : (finish c entry o).Gives s o' s') :
    ∃ code t, (Relative.point o.code c.output c.resolutionPaths).Gives s code t ∧
      (c.bundler.minify ⟨Reference.stripMarks code, o.map⟩ sourcemapFile).Gives t o' s' := by
  unfold finish at h
  rw [hmapping] at h
  dsimp only at h
  rw [Step.gives_bind] at h
  obtain ⟨_, t, hpure, h⟩ := h
  obtain ⟨rfl, rfl⟩ := Step.gives_pure.1 hpure
  rw [Step.gives_bind] at h
  obtain ⟨code, t, hpoint, h⟩ := h
  exact ⟨code, t, Step.gives_during.1 hpoint, Step.gives_during.1 h⟩

/-- Writing a module delivers it and records it; a source map is delivered at most
besides. -/
theorem gives_deliver {entry output : Path} {o : CompileOutput} {s s' : Session}
    (h : (deliver entry output o).Gives s () s') :
    (∃ b ∈ s'.bundles, b.output = output.join ⟨moduleFile⟩) ∧
      ⟨entry, output.join ⟨moduleFile⟩⟩ ∈ s'.deliveries ∧
      ∀ d ∈ s'.deliveries, d ∈ s.deliveries ∨
        d.source = entry ∧ ∃ file, (file = moduleFile ∨ file = sourcemapFile) ∧
          d.target = output.join ⟨file⟩ := by
  have hrecord : ∀ {map : Option Path} {t : Session},
      (Step.record ⟨output.join ⟨moduleFile⟩, o.code.utf8ByteSize, map⟩).Gives t () s' →
        (∃ b ∈ s'.bundles, b.output = output.join ⟨moduleFile⟩) ∧ s'.deliveries = t.deliveries := by
    intro map t hgives
    obtain rfl := Step.gives_record.1 hgives
    exact ⟨⟨_, List.mem_append_right _ (List.mem_singleton_self _), rfl⟩, rfl⟩
  unfold deliver at h
  dsimp only at h
  rw [Step.gives_bind] at h
  obtain ⟨_, t, hwrite, h⟩ := h
  obtain ⟨files, -, rfl⟩ := Step.gives_write.1 (Step.gives_during.1 hwrite)
  split at h
  · rw [Step.gives_bind] at h
    obtain ⟨_, t, hmap, h⟩ := h
    obtain ⟨files', -, rfl⟩ := Step.gives_write.1 (Step.gives_during.1 hmap)
    rw [Step.gives_bind] at h
    obtain ⟨_, t, hpure, h⟩ := h
    obtain ⟨rfl, rfl⟩ := Step.gives_pure.1 hpure
    obtain ⟨hbundle, hdeliveries⟩ := hrecord h
    refine ⟨hbundle, hdeliveries ▸ by simp, fun d hd => ?_⟩
    rw [hdeliveries, List.mem_append, List.mem_append, List.mem_singleton, List.mem_singleton] at hd
    rcases hd with (hd | rfl) | rfl
    · exact .inl hd
    · exact .inr ⟨rfl, _, .inl rfl, rfl⟩
    · exact .inr ⟨rfl, _, .inr rfl, rfl⟩
  · rw [Step.gives_bind] at h
    obtain ⟨_, t, hpure, h⟩ := h
    obtain ⟨rfl, rfl⟩ := Step.gives_pure.1 hpure
    obtain ⟨hbundle, hdeliveries⟩ := hrecord h
    refine ⟨hbundle, hdeliveries ▸ by simp, fun d hd => ?_⟩
    rw [hdeliveries, List.mem_append, List.mem_singleton] at hd
    rcases hd with hd | rfl
    · exact .inl hd
    · exact .inr ⟨rfl, _, .inl rfl, rfl⟩

/-- A compilation reads the entry file of its component. -/
theorem Stages.isUsable_entry {b : Bundler} {build : ComponentBuild} {options : BuildOptions}
    {paths : List Path} {s s' : Session} (stages : Stages b build options paths s s') :
    stages.entry.IsUsable := by
  obtain ⟨code, t, hread, -⟩ := Step.gives_bind.1 stages.translates
  obtain ⟨htext, -⟩ := Step.gives_read.1 (Step.gives_during.1 hread)
  obtain ⟨l, hl, -⟩ := FileTree.readText_eq_ok.1 htext
  exact FileTree.isUsable_of_locate hl

/-- A compilation that delivered the module of its component. -/
def Delivers (options : BuildOptions) (s s' : Session) : Prop :=
  ∃ name entry, options.source.fileName? = some name ∧
    entryFile? s.files options.source = .ok (some entry) ∧ entry.IsUsable ∧
      (∃ b ∈ s'.bundles, b.output = (options.destination.join ⟨name⟩).join ⟨moduleFile⟩) ∧
        ⟨entry, (options.destination.join ⟨name⟩).join ⟨moduleFile⟩⟩ ∈ s'.deliveries

/-- **A compilation that ends well delivers the module of its component.** -/
theorem delivers_of_gives {b : Bundler} {depth : Nat} {options : BuildOptions}
    {paths : List Path} {s s' : Session} (h : (compile b depth options paths).Gives s () s') :
    Delivers options s s' := by
  cases depth with
  | zero => exact absurd h Step.gives_fail
  | succ depth =>
    obtain ⟨stages⟩ := stages_of_gives h
    obtain ⟨hbundle, hdelivery, -⟩ := gives_deliver stages.delivers
    exact ⟨_, _, stages.named, stages.found, stages.isUsable_entry, hbundle, hdelivery⟩

end Component
end ElementBuild
