/-
# The changes of a session

A build changes its session in a few ways only: it notes things, it copies files, and it
compiles components.  A law holds of whole builds if it holds of these elementary steps
(`Step.Law.Building.compile`), and of what a bundler brings along: its plugins, its style
preprocessors and its minifier.

A preorder of sessions is respected by whole builds if it relates the sessions before and
after each change (`Session.Building.steps`).
-/
import ElementBuild.Proofs.Build.Stages
import ElementBuild.Proofs.Law
import ElementBuild.Proofs.References

namespace ElementBuild

/-- A way to make a target file out of a source. -/
inductive FileTree.Makes (t : FileTree) (d : Delivery) (t' : FileTree) : Prop where
  | write (content : Content) (h : t.write d.target content = .ok t')
  | copy (h : t.copyFile d.source d.target = .ok t')

/-- A law holds of what a bundler brings along. -/
structure Bundler.Upholds (b : Bundler) (P : ∀ {α : Type}, Step α → Prop) : Prop where
  plugin : ∀ x ∈ b.registry.plugins, ∀ q : CompileRequest,
    (∀ code, P (q.preprocessScript code)) →
    (∀ style, q.preprocessStyle = some style → ∀ css p, P (style css p)) → P (x.2.compile q)
  style : ∀ factory, b.style = some factory → ∀ folder css p, P (factory folder css p)
  minify : ∀ o mapFile, P (b.minify o mapFile)

/-- The style preprocessor of a component. -/
theorem Bundler.Upholds.preprocessor {b : Bundler} {P : ∀ {α : Type}, Step α → Prop}
    (hb : b.Upholds P) (folder : String) : ∀ style,
      (b.style.map fun factory => factory folder) = some style → ∀ css p, P (style css p) := by
  intro style hstyle
  obtain ⟨factory, hfactory, rfl⟩ := Option.map_eq_some_iff.1 hstyle
  exact hb.style factory hfactory folder

/-- No rule of a mapping pass copies a module. -/
def Mapping.Pass.CopiesNothing (pass : Mapping.Pass) : Prop :=
  ∀ target folder o, pass.table.resolve target folder pass.workingDir pass.copyAll = some o →
    o.copyTo = none

/-- What a bundler brings along changes a session by what it is given alone. -/
def Bundler.IsDiscreet (b : Bundler) : Prop :=
  ∀ (P : ∀ {α : Type}, Step α → Prop) [Step.Law P], b.Upholds P

/-- A plugin for an extension is one of the registered plugins. -/
theorem Registry.exists_of_forExtension {g : Registry} {extension : String} {p : Plugin}
    (h : g.forExtension extension = .ok p) : ∃ x ∈ g.plugins, x.2 = p := by
  unfold forExtension at h
  split at h
  · rename_i hfound
    obtain ⟨id, -, hid⟩ := Option.bind_eq_some_iff.1 hfound
    obtain ⟨x, hx, rfl⟩ := Option.map_eq_some_iff.1 hid
    cases h
    exact ⟨x, List.mem_of_find?_eq_some hx, rfl⟩
  · cases h

namespace Step.Law

/-- A law of the steps that note something. -/
structure Noting (P : ∀ {α : Type}, Step α → Prop) : Prop where
  tell : ∀ x, P (Step.tell x)
  setMapped : ∀ f : Session → List String,
    P (modify fun s => { s with mapped := f s } : Step PUnit)

/-- A law of the steps that refer to a component, too. -/
structure Referring (P : ∀ {α : Type}, Step α → Prop) : Prop extends Noting P where
  attempt : ∀ entry destination {x : Step Unit}, P x → P (Step.attempt entry destination x)
  linked : ∀ l, P (Step.trace (.linked l))

/-- A law of the steps that deliver something, too. -/
structure Delivering (P : ∀ {α : Type}, Step α → Prop) : Prop extends Noting P where
  createFolders : ∀ p, P (Step.createFolders p)
  write : ∀ source target text, P (Step.write source target text)
  deliverCopy : ∀ source target,
    P (Step.deliver source target fun t => t.copyFile source target)

/-- A law of the steps that copy scripts, too. -/
structure Copying (P : ∀ {α : Type}, Step α → Prop) : Prop extends Delivering P where
  claim : ∀ source destination, P (Step.claim source destination)
  followed : ∀ f, P (Step.trace (.followed f))

/-- A law of the steps that make modules, too. -/
structure Compiling (P : ∀ {α : Type}, Step α → Prop) : Prop extends Delivering P where
  record : ∀ b, P (Step.record b)

/-- A law of all steps of a build but those that point references and enter
components. -/
structure Building (P : ∀ {α : Type}, Step α → Prop) : Prop extends
  Copying P, Compiling P, Referring P

variable {P : ∀ {α : Type}, Step α → Prop}

section Bounded

variable [BoundedLaw P]

/-! ### Noting -/

namespace Noting

variable (hP : Noting P)
include hP

/-- After a scan, a step is taken with the references that it found. -/
theorem scan_bind {α : Type} {options : ScanOptions} {code : String}
    {f : List Reference → Step α}
    (h : ∀ found, ElementBuild.scan options code = .ok found → P (f found.references)) :
    P (Step.scan options code >>= f) := by
  unfold Step.scan
  rw [bind_assoc]
  refine ofExcept_bind fun found hfound => ?_
  rw [bind_assoc]
  refine bind (forM (fun w => hP.tell _) _) fun _ => ?_
  rw [pure_bind]
  exact h found hfound

theorem scan (options : ScanOptions) (code : String) : P (Step.scan options code) := by
  rw [← bind_pure (Step.scan options code)]
  exact hP.scan_bind fun found _ => pure _

omit hP in
theorem pointReference (hpointed : ∀ p, P (Step.trace (.pointed p))) (output folder : Path)
    (paths : List Path) (code : List Char) (draft : Text.Draft) (ref : Reference) :
    P (Relative.pointReference output folder paths code draft ref) := by
  refine bind (resolve _ _) fun found => ?_
  split
  · exact pure _
  · split
    · exact pure _
    · exact bind (hpointed _) fun _ => edit _ _

theorem point (hpointed : ∀ p, P (Step.trace (.pointed p))) (code : String) (output : Path)
    (paths : List Path) : P (Relative.point code output paths) :=
  bind (hP.scan _ code) fun _ => bind files fun _ =>
    bind (foldlM (fun draft ref _ => pointReference hpointed _ _ _ _ draft ref) _) fun _ => pure _

theorem resolveAlias (aliased : String) (paths : List Path) :
    P (Mapping.resolveAlias aliased paths) := by
  refine bind files fun t => ?_
  split
  · exact pure _
  · refine bind (hP.tell _) fun _ => ?_
    split
    · exact pure _
    · exact fail _

theorem inlineAssets (c : ComponentContext) (code : String) : P (c.inlineAssets code) :=
  bind (hP.scan _ code) fun _ => bind (foldlM (fun _ _ _ => edit _ _) _) fun _ => pure _

theorem copyPlainCode (c : ComponentContext)
    (hplain : ∀ code draft ref, (Path.mk ref.target).isAbsolute = false →
      P (c.copyPlain code draft ref)) (code : String) : P (c.copyPlainCode code) := by
  refine hP.scan_bind fun found hfound => bind (foldlM (fun draft ref hmem => ?_) _) fun _ => pure _
  obtain ⟨href, hkind⟩ := List.mem_filter.1 hmem
  exact hplain _ draft ref ((isTyped_of_mem_scan hfound href).isAbsolute (beq_iff_eq.1 hkind))

variable {build : ComponentBuild}

theorem compileComponents (c : ComponentContext)
    (href : ∀ draft ref, ref.IsTyped c.bundler.types → P (c.compileReference build draft ref))
    (code : String) : P (c.compileComponents build code) := by
  refine hP.scan_bind fun found hfound => bind (foldlM (fun draft ref hmem => ?_) _) fun _ => pure _
  exact href draft ref (isTyped_of_mem_scan hfound (List.mem_filter.1 hmem).1)

theorem copyModule (hscript : ∀ source target base, P (copyScript source target base))
    (pass : Mapping.Pass) (paths : List Path) (o : Mapping.Outcome) (target : Path) :
    P (pass.copyModule paths o target) :=
  bind (hP.resolveAlias _ _) fun source => during _ (hscript source target _)

/-- Mapping the references of a module, given that the modules that rules copy are copied. -/
theorem mapping {pass : Mapping.Pass}
    (hmodule : ∀ target folder o place,
      pass.table.resolve target folder pass.workingDir pass.copyAll = some o →
        o.copyTo = some place → ∀ paths, P (pass.copyModule paths o place)) (code : String)
    (folder : Path) (paths : List Path) (skip : List String) :
    P (pass.run code folder paths skip) := by
  unfold Mapping.Pass.run
  split
  · exact pure _
  · refine bind (hP.scan _ code) fun refs =>
      bind (foldlM (fun state ref _ => ?_) _) fun state => pure _
    unfold Mapping.Pass.mapReference
    split
    · exact pure _
    · rename_i o ho
      dsimp only
      split
      · refine bind (edit _ _) fun draft => bind (pure _) fun state => ?_
        split
        · exact bind (hmodule _ _ _ _ ho ‹_› paths) fun _ => pure _
        · exact pure _
      · refine bind (pure _) fun state => ?_
        split
        · exact bind (hmodule _ _ _ _ ho ‹_› paths) fun _ => pure _
        · exact pure _

theorem mappingPass {pass : Mapping.Pass} (hpass : pass.CopiesNothing) (code : String)
    (folder : Path) (paths : List Path) (skip : List String) :
    P (pass.run code folder paths skip) :=
  hP.mapping (fun _ _ _ _ ho hplace => absurd ((hpass _ _ _ ho).symm.trans hplace) nofun) code
    folder paths skip

theorem mapCode {c : ComponentContext}
    (hmapped : ∀ pass, c.bundler.mappingPass? = some pass → ∀ code folder paths skip,
      P (pass.run code folder paths skip)) (code : String) : P (c.mapCode code) := by
  unfold ComponentContext.mapCode
  split
  · exact pure _
  · exact bind get fun s => bind (hmapped _ ‹_› _ _ _ _) fun result =>
      bind (hP.setMapped fun s => result.destinations ++ s.mapped) fun _ => pure _

theorem preprocess (c : ComponentContext)
    (hplain : ∀ code draft ref, (Path.mk ref.target).isAbsolute = false →
      P (c.copyPlain code draft ref))
    (hmapped : ∀ pass, c.bundler.mappingPass? = some pass → ∀ code folder paths skip,
      P (pass.run code folder paths skip))
    (href : ∀ draft ref, ref.IsTyped c.bundler.types → P (c.compileReference build draft ref))
    (code : String) : P (c.preprocess build code) :=
  bind (hP.copyPlainCode c hplain code) fun code => bind (hP.mapCode hmapped code) fun code =>
    bind (hP.compileComponents c href code) fun code => hP.inlineAssets c code

/-- Running the plugin of a component, whose scripts are preprocessed. -/
theorem runPlugin {c : ComponentContext} (hb : c.bundler.Upholds P)
    (hplain : ∀ code draft ref, (Path.mk ref.target).isAbsolute = false →
      P (c.copyPlain code draft ref))
    (hmapped : ∀ pass, c.bundler.mappingPass? = some pass → ∀ code folder paths skip,
      P (pass.run code folder paths skip))
    (href : ∀ draft ref, ref.IsTyped c.bundler.types → P (c.compileReference build draft ref))
    {extension : String} {plugin : Plugin}
    (hplugin : c.bundler.registry.forExtension extension = .ok plugin) (entry : Path)
    {style : Option StylePreprocessor} (hstyle : ∀ f, style = some f → ∀ css p, P (f css p)) :
    P (Component.runPlugin c build plugin entry style) := by
  obtain ⟨x, hx, rfl⟩ := Registry.exists_of_forExtension hplugin
  exact bind (during _ (read _)) fun code =>
    during _ (hb.plugin x hx _ (fun code => hP.preprocess _ hplain hmapped href code) hstyle)

omit hP in
theorem finish {c : ComponentContext}
    (hmapped : ∀ pass, c.bundler.mappingPass? = some pass → ∀ code folder paths skip,
      P (pass.run code folder paths skip))
    (hpoint : ∀ code, P (Relative.point code c.output c.resolutionPaths))
    (hminify : ∀ o mapFile, P (c.bundler.minify o mapFile)) (entry : Path) (o : CompileOutput) :
    P (Component.finish c entry o) := by
  have hrest : ∀ code, P (do
      let code ← Step.during (.resolvingImports entry)
        (Relative.point code c.output c.resolutionPaths)
      Step.during (.minifying entry)
        (c.bundler.minify ⟨Reference.stripMarks code, o.map⟩ sourcemapFile)) :=
    fun code => bind (during _ (hpoint _)) fun code => during _ (hminify _ _)
  unfold Component.finish
  dsimp only
  split
  · exact bind get fun s => bind (hmapped _ ‹_› _ _ _ _) fun result =>
      bind (pure _) fun code => hrest _
  · exact bind (pure _) fun code => hrest _

end Noting

/-! ### Referring to components -/

namespace Referring

variable (hP : Referring P)
include hP

theorem compileDependency (c : ComponentContext) {build : ComponentBuild}
    (hbuild : ∀ source paths, P (build { c.options with source } paths)) (entry : Path)
    (folder stem : String) : P (c.compileDependency build entry folder stem) := by
  unfold ComponentContext.compileDependency
  split
  · exact fail _
  · exact bind (hP.attempt _ _ (bind (hP.tell _) fun _ => hbuild _ _)) fun _ => pure _

theorem link (c : ComponentContext) {build : ComponentBuild}
    (hbuild : ∀ source paths, P (build { c.options with source } paths)) (ref : Reference) :
    P (c.link build ref) := by
  unfold ComponentContext.link
  split
  · exact fail _
  · refine bind (resolve _ _) fun entry => bind get fun s => ?_
    split
    · exact pure _
    · exact bind (hP.compileDependency c hbuild _ _ _) fun _ => pure _

theorem compileReference (c : ComponentContext) {build : ComponentBuild}
    (hbuild : ∀ source paths, P (build { c.options with source } paths))
    (draft : Text.Draft) (ref : Reference) : P (c.compileReference build draft ref) :=
  bind (hP.link c hbuild ref) fun _ => bind (hP.linked _) fun _ => edit _ _

end Referring

/-! ### Delivering -/

namespace Delivering

variable (hP : Delivering P)
include hP

theorem createFolder (folder : Path) : P (Copy.createFolder folder) :=
  during _ (hP.createFolders folder)

theorem copyFile (c : FolderCopy) (hstyle : ∀ style, c.style = some style → ∀ css p,
    P (style css p)) (relative : String) : P (c.copyFile relative) := by
  have hverbatim : ∀ source target, P (FolderCopy.copyFile.verbatim source target) :=
    fun source target => during _ (hP.deliverCopy source target)
  unfold FolderCopy.copyFile
  dsimp only
  split
  · rename_i preprocess hpreprocess
    split
    · exact bind (during _ (read _)) fun css =>
        bind (hstyle _ hpreprocess css _) fun processed => during _ (hP.write _ _ _)
    · exact hverbatim _ _
  · exact hverbatim _ _

theorem copyEntry (c : FolderCopy) (hstyle : ∀ style, c.style = some style → ∀ css p,
    P (style css p)) {deeper : String → Step Nat} (hdeeper : ∀ relative, P (deeper relative))
    (relative : String) (count : Nat) (x : String × Entry) :
    P (c.copyEntry deeper relative count x) := by
  unfold FolderCopy.copyEntry
  split
  · exact bind (hdeeper _) fun n => pure _
  · exact bind (hP.copyFile c hstyle _) fun _ => pure _

end Delivering

/-! ### Copying -/

namespace Copying

variable (hP : Copying P)
include hP

omit hP in
/-- Following a reference claims and writes nothing but what copying its script does. -/
theorem followReferenceWith (hfolders : ∀ p, P (Step.createFolders p))
    (hfollowed : ∀ f, P (Step.trace (.followed f))) {copyOn : Path → Path → Step Unit}
    (hcopy : ∀ s d, P (copyOn s d)) (source destination base : Path) (code : List Char)
    (draft : Text.Draft) (ref : Reference) :
    P (Copy.followReference copyOn source destination base code draft ref) := by
  unfold Copy.followReference
  refine bind (resolve _ _) fun found => bind (hfollowed _) fun _ => ?_
  have hrest : ∀ landing, P (do
      let draft ← Step.edit draft (Reference.retarget code ref.literal
        (Copy.specifier destination ref (Copy.landing base destination ref)))
      copyOn found landing
      return draft) :=
    fun landing => bind (edit _ _) fun draft => bind (hcopy _ _) fun _ => pure draft
  dsimp only
  split
  · exact bind (during _ (hfolders _)) fun _ => hrest _
  · exact hrest _

theorem followReference {copyOn : Path → Path → Step Unit} (hcopy : ∀ s d, P (copyOn s d))
    (source destination base : Path) (code : List Char) (draft : Text.Draft) (ref : Reference) :
    P (Copy.followReference copyOn source destination base code draft ref) :=
  followReferenceWith hP.createFolders hP.followed hcopy source destination base code draft ref

theorem copyClaimed {copyOn : Path → Path → Step Unit} (hcopy : ∀ s d, P (copyOn s d))
    (source destination base : Path) : P (Copy.copyClaimed copyOn source destination base) :=
  bind (during _ (read source)) fun _ => bind (during _ (hP.scan _ _)) fun _ =>
    bind (foldlM (fun draft ref _ =>
      hP.followReference hcopy source destination base _ draft ref) _) fun _ =>
        bind (hP.createFolder _) fun _ => during _ (hP.write _ _ _)

theorem copyPlainWith (hscript : ∀ source target base, P (copyScript source target base))
    (c : ComponentContext) (code : List Char) (draft : Text.Draft) (ref : Reference) :
    P (c.copyPlain code draft ref) :=
  bind (resolve _ _) fun _ => bind (hP.followed _) fun _ =>
    bind (hscript _ _ _) fun _ => edit _ _

end Copying

/-! ### Compiling -/

namespace Compiling

variable (hP : Compiling P)
include hP

theorem deliver (entry output : Path) (o : CompileOutput) :
    P (Component.deliver entry output o) := by
  unfold Component.deliver
  refine bind (during _ (hP.write _ _ _)) fun _ => ?_
  dsimp only
  split
  · exact bind (during _ (hP.write _ _ _)) fun _ => bind (pure _) fun _ => hP.record _
  · exact bind (pure _) fun _ => hP.record _

end Compiling
end Bounded

section Whole

variable [Law P]

/-! ### Copying to a depth -/

namespace Delivering

variable (hP : Delivering P)
include hP

theorem copyBelow (c : FolderCopy) (hstyle : ∀ style, c.style = some style → ∀ css p,
    P (style css p)) (depth : Nat) (relative : String) : P (c.copyBelow depth relative) := by
  induction depth generalizing relative with
  | zero => exact giveUp
  | succ depth ih =>
    exact bind files fun t => bind (hP.createFolder _) fun _ =>
      foldlM (fun count x _ => hP.copyEntry c hstyle ih relative count x) 0

theorem folderCopy (c : FolderCopy) (hstyle : ∀ style, c.style = some style → ∀ css p,
    P (style css p)) : P c.run := by
  refine bind files fun t => ?_
  split
  · split
    · exact bind (hP.copyFile c hstyle "") fun _ => pure _
    · exact hP.copyBelow c hstyle _ _
  · exact pure _

theorem copyFolders (c : ComponentContext) (style : Option StylePreprocessor)
    (hstyle : ∀ f, style = some f → ∀ css p, P (f css p)) :
    P (Component.copyFolders c style) := by
  have hcopy : ∀ folder style, (∀ f, style = some f → ∀ css p, P (f css p)) →
      P (discard (FolderCopy.run
        ⟨c.options.source.join ⟨folder⟩, c.output.join ⟨folder⟩, style⟩) : Step PUnit) :=
    fun folder style hstyle => bind (hP.folderCopy _ hstyle) fun _ => pure _
  exact bind (hcopy "assets" none (by simp)) fun _ => hcopy "styles" style hstyle

end Delivering

namespace Copying

variable (hP : Copying P)
include hP

theorem script (depth : Nat) (source destination base : Path) :
    P (Copy.script depth source destination base) := by
  induction depth generalizing source destination with
  | zero => exact giveUp
  | succ depth ih =>
    refine bind (hP.claim source destination) fun free => ?_
    split
    · exact hP.copyClaimed ih source destination base
    · exact pure _

theorem mappingPass (pass : Mapping.Pass) (code : String) (folder : Path) (paths : List Path)
    (skip : List String) : P (pass.run code folder paths skip) :=
  hP.mapping (fun _ _ o _ _ _ paths =>
    hP.copyModule (fun _ _ _ => hP.script _ _ _ _) pass paths o _) code folder paths skip

theorem copyPlain (c : ComponentContext) (code : List Char) (draft : Text.Draft)
    (ref : Reference) : P (c.copyPlain code draft ref) :=
  hP.copyPlainWith (fun _ _ _ => hP.script _ _ _ _) c code draft ref

end Copying

/-! ### Compiling to a depth -/

namespace Compiling

variable (hP : Compiling P)
include hP

variable {build : ComponentBuild}

/-- **A law of the steps of a build is a law of compiling a component**, if it is one of
copying scripts, mapping, pointing and linking. -/
theorem compileFrom {b : Bundler} (hb : b.Upholds P) (options : BuildOptions)
    (paths : List Path) (name : String)
    (hplain : ∀ code draft ref, (Path.mk ref.target).isAbsolute = false →
      P (ComponentContext.copyPlain
        ⟨b, options, paths, name, options.destination.join ⟨name⟩⟩ code draft ref))
    (hmapped : ∀ pass, b.mappingPass? = some pass → ∀ code folder paths skip,
      P (pass.run code folder paths skip))
    (hpoint : ∀ code output paths, P (Relative.point code output paths))
    (href : ∀ draft ref, ref.IsTyped b.types → P (ComponentContext.compileReference
      ⟨b, options, paths, name, options.destination.join ⟨name⟩⟩ build draft ref))
    (entry : Path) : P (Component.compileFrom b build options paths name entry) := by
  have hstyle := hb.preprocessor (options.publicPath name)
  refine ofExcept_bind fun plugin hplugin => bind (hP.tell _) fun _ =>
    bind (hP.createFolder _) fun _ => bind (hP.copyFolders _ _ hstyle) fun _ =>
      bind get fun s => bind (hP.setMapped fun _ => []) fun _ => ?_
  refine bind (hP.runPlugin hb hplain hmapped href hplugin _ hstyle) fun compiled => ?_
  refine bind (Noting.finish hmapped (fun code => hpoint code _ _) hb.minify _ _) fun _ => ?_
  exact bind (hP.setMapped fun _ => s.mapped) fun _ => hP.deliver _ _ _

/-- The same for a component whose entry file is to be found first. -/
theorem compileWith {b : Bundler} (hb : b.Upholds P) (options : BuildOptions)
    (paths : List Path) (hentered : ∀ entry, P (Step.trace (.entered options.source entry)))
    (hplain : ∀ name code draft ref, (Path.mk ref.target).isAbsolute = false →
      P (ComponentContext.copyPlain
        ⟨b, options, paths, name, options.destination.join ⟨name⟩⟩ code draft ref))
    (hmapped : ∀ pass, b.mappingPass? = some pass → ∀ code folder paths skip,
      P (pass.run code folder paths skip))
    (hpoint : ∀ code output paths, P (Relative.point code output paths))
    (href : ∀ name draft ref, ref.IsTyped b.types → P (ComponentContext.compileReference
      ⟨b, options, paths, name, options.destination.join ⟨name⟩⟩ build draft ref)) :
    P (Component.compileWith b build options paths) := by
  refine bind ?_ fun name => bind (during _ (fromFiles _)) fun entry => ?_
  · unfold Component.nameOf
    split
    · exact pure _
    · exact fail _
  · split
    · exact fail _
    · exact bind (hentered _) fun _ =>
        hP.compileFrom hb options paths name (hplain name) hmapped hpoint (href name) _

end Compiling

/-! ### Building -/

namespace Building

variable (hP : Building P)
include hP

/-- **A law of the steps of a build is a law of a whole compilation.** -/
theorem compile {b : Bundler} (hb : b.Upholds P)
    (hentered : ∀ source entry, P (Step.trace (.entered source entry)))
    (hpointed : ∀ p, P (Step.trace (.pointed p))) (depth : Nat) (options : BuildOptions)
    (paths : List Path) : P (Component.compile b depth options paths) := by
  induction depth generalizing options paths with
  | zero => exact giveUp
  | succ depth ih =>
    exact hP.toCompiling.compileWith hb options paths (hentered _)
      (fun _ code draft ref _ => hP.copyPlain _ code draft ref) (fun pass _ => hP.mappingPass pass)
      (hP.point hpointed) fun _ draft ref _ =>
        hP.compileReference _ (fun _ paths => ih _ paths) draft ref

end Building
end Whole
end Step.Law

/-! ### Preorders of sessions -/

namespace Session

/-- A relation that is respected where something is noted. -/
structure Noting (r : Session → Session → Prop) : Prop where
  log : ∀ s xs, r s { s with log := xs }
  mapped : ∀ s xs, r s { s with mapped := xs }

/-- A relation that is respected where a component is referred to, too. -/
structure Referring (r : Session → Session → Prop) : Prop extends Session.Noting r where
  begun : ∀ s entry destination, r s (s.begin entry destination)
  linked : ∀ s l, r s { s with events := s.events ++ [.linked l] }

/-- A relation that is respected where something is delivered, too. -/
structure Delivering (r : Session → Session → Prop) : Prop extends Session.Noting r where
  folders : ∀ s p, r s { s with files := (s.files.createFolders p).1 }
  deliveries : ∀ s d t, s.files.Makes d t →
    r s { s with files := t, deliveries := s.deliveries ++ [d] }

/-- A relation that is respected where scripts are copied, too. -/
structure Copying (r : Session → Session → Prop) : Prop extends Session.Delivering r where
  copies : ∀ s source destination, r s { s with copies := (s.copies.claim source destination).2 }
  followed : ∀ s f, r s { s with events := s.events ++ [.followed f] }

/-- A relation that is respected where modules are made, too. -/
structure Compiling (r : Session → Session → Prop) : Prop extends Session.Delivering r where
  bundles : ∀ s b, r s { s with bundles := s.bundles ++ [b] }

/-- A relation that is respected by all that a build does but pointing references. -/
structure Building (r : Session → Session → Prop) : Prop extends
    Session.Copying r, Session.Compiling r, Session.Referring r where
  entered : ∀ s source entry, r s { s with events := s.events ++ [.entered source entry] }

variable {r : Session → Session → Prop}

theorem Noting.steps (hr : Noting r) : Step.Law.Noting (Step.Respects r) where
  tell _ := .modify fun s => hr.log s _
  setMapped _ := .modify fun s => hr.mapped s _

theorem Referring.steps [IsPreorder Session r] (hr : Referring r) :
    Step.Law.Referring (Step.Respects r) where
  toNoting := hr.toNoting.steps
  attempt _ _ _ hx := by
    intro s u s' h
    exact trans_of r (hr.begun s _ _) (hx _ u s' (Step.gives_attempt.1 h))
  linked l := .trace fun s => hr.linked s l

theorem Delivering.steps (hr : Delivering r) : Step.Law.Delivering (Step.Respects r) where
  toNoting := hr.toNoting.steps
  createFolders p s u s' h := by
    obtain ⟨-, rfl⟩ := Step.gives_createFolders.1 h
    exact hr.folders s p
  write source target text s u s' h := by
    obtain ⟨t, ht, rfl⟩ := Step.gives_write.1 h
    exact hr.deliveries s ⟨source, target⟩ t (.write _ ht)
  deliverCopy source target s u s' h := by
    obtain ⟨t, ht, rfl⟩ := Step.gives_deliver.1 h
    exact hr.deliveries s ⟨source, target⟩ t (.copy ht)

theorem Copying.steps (hr : Copying r) : Step.Law.Copying (Step.Respects r) where
  toDelivering := hr.toDelivering.steps
  claim source destination s free s' h := by
    obtain ⟨-, rfl⟩ := Step.gives_claim.1 h
    exact hr.copies s source destination
  followed f := .trace fun s => hr.followed s f

theorem Compiling.steps (hr : Compiling r) : Step.Law.Compiling (Step.Respects r) where
  toDelivering := hr.toDelivering.steps
  record b := .modify fun s => hr.bundles s b

theorem Building.steps [IsPreorder Session r] (hr : Building r) :
    Step.Law.Building (Step.Respects r) where
  toCopying := hr.toCopying.steps
  record := hr.toCompiling.steps.record
  attempt := hr.toReferring.steps.attempt
  linked := hr.toReferring.steps.linked

/-- What delivering respects, runs that fail respect as well. -/
theorem Delivering.ends [IsPreorder Session r] (hr : Delivering r) :
    Step.Law.Delivering (Step.Ends fun _ => r) where
  tell _ := Step.Ends.modify fun s => hr.log s _
  setMapped _ := Step.Ends.modify fun s => hr.mapped s _
  createFolders p s := by
    rw [Step.session_createFolders]
    exact hr.folders s p
  write source target text := .of_respects (hr.steps.write source target text)
    fun _ _ _ => Step.run_deliver_error
  deliverCopy source target := .of_respects (hr.steps.deliverCopy source target)
    fun _ _ _ => Step.run_deliver_error

theorem Copying.ends [IsPreorder Session r] (hr : Copying r) :
    Step.Law.Copying (Step.Ends fun _ => r) where
  toDelivering := hr.toDelivering.ends
  claim source destination s := hr.copies s source destination
  followed f := Step.Ends.modify fun s => hr.followed s f

theorem Compiling.ends [IsPreorder Session r] (hr : Compiling r) :
    Step.Law.Compiling (Step.Ends fun _ => r) where
  toDelivering := hr.toDelivering.ends
  record b := Step.Ends.modify fun s => hr.bundles s b

/-- **What each change of a build respects, a whole compilation respects**, if pointing
references does. -/
theorem Building.compile [IsPreorder Session r] (hr : Building r) {b : Bundler}
    (hb : b.IsDiscreet) (hpointed : ∀ s p, r s { s with events := s.events ++ [.pointed p] })
    (depth : Nat) (options : BuildOptions) (paths : List Path) :
    (Component.compile b depth options paths).Respects r :=
  hr.steps.compile (hb _) (fun source entry => .trace fun s => hr.entered s source entry)
    (fun p => .trace fun s => hpointed s p) depth options paths

end Session

end ElementBuild
