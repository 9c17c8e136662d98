/-
# Where the imports of components lead

A component is compiled once in a build.  Its destination is recorded before that, as
the target of the reference spells it, and every later reference to the component is
given the same destination (`Session.Linking`).

The module of the component is written to a folder of its own name.  So an import leads
to it if and only if the first reference to the component spells that name, and `index`
for the file (`leads_to_module_iff`).
-/
import ElementBuild.Proofs.Build.Cache
import ElementBuild.Proofs.Build.Run
import ElementBuild.Proofs.Bundlers
import ElementBuild.Proofs.Files
import ElementBuild.Proofs.FileTree.Listing
import ElementBuild.Proofs.Growth
import ElementBuild.Proofs.Resolution

namespace ElementBuild

/-! ### The steps of a link -/

namespace ComponentContext

variable {c : ComponentContext} {build : ComponentBuild} {s s' : Session}

theorem gives_compileDependency {entry destination : Path} {folder stem : String}
    (h : (c.compileDependency build entry folder stem).Gives s destination s') :
    destination = (c.options.destination.join ⟨folder⟩).join ⟨stem ++ ".js"⟩ ∧
      ∃ source log, entry.parent? = some source ∧
        (build { c.options with source } [source, c.output, c.options.source]).Gives
          { s.begin entry destination with log } () s' := by
  unfold compileDependency at h
  split at h
  · exact absurd h Step.gives_fail
  · rename_i source hsource
    dsimp only at h
    rw [Step.gives_bind] at h
    obtain ⟨_, t, hattempt, h⟩ := h
    obtain ⟨rfl, rfl⟩ := Step.gives_pure.1 h
    have hbegun := Step.gives_attempt.1 hattempt
    rw [Step.gives_bind] at hbegun
    obtain ⟨_, t, htell, hnested⟩ := hbegun
    obtain rfl := Step.gives_tell.1 htell
    exact ⟨rfl, source, _, hsource, hnested⟩

/-- A link finds the destination of its component, or compiles the component. -/
theorem gives_link {r : Reference} {l : ComponentLink} (h : (c.link build r).Gives s l s') :
    ∃ folder stem entry, Target.componentParts? (r.sourceType.getD "") r.target =
        some (folder, stem) ∧ s.files.resolve r.target [c.options.source] = .ok entry ∧
      ((∃ destination, s.builds.get? entry = some destination ∧
          l = ⟨c.output, r.target, entry, destination, false⟩ ∧ s' = s) ∨
        ∃ destination, s.builds.get? entry = none ∧
          l = ⟨c.output, r.target, entry, destination, true⟩ ∧
            (c.compileDependency build entry folder stem).Gives s destination s') := by
  unfold link at h
  split at h
  · exact absurd h Step.gives_fail
  · rename_i folder stem hparts
    rw [Step.gives_bind] at h
    obtain ⟨entry, t, hentry, h⟩ := h
    obtain ⟨hresolve, rfl⟩ := Step.gives_resolve.1 hentry
    rw [Step.gives_bind] at h
    obtain ⟨_, t, hget, h⟩ := h
    obtain ⟨rfl, rfl⟩ := Step.gives_get.1 hget
    refine ⟨folder, stem, entry, hparts, hresolve, ?_⟩
    split at h
    · rename_i destination hrecorded
      obtain ⟨rfl, rfl⟩ := Step.gives_pure.1 h
      exact .inl ⟨destination, hrecorded, rfl, rfl⟩
    · rename_i hnone
      rw [Step.gives_bind] at h
      obtain ⟨destination, t, hcompile, h⟩ := h
      obtain ⟨rfl, rfl⟩ := Step.gives_pure.1 h
      exact .inr ⟨destination, hnone, rfl, hcompile⟩

theorem gives_compileReference {draft draft' : Text.Draft} {r : Reference}
    (h : (c.compileReference build draft r).Gives s draft' s') :
    ∃ l t, (c.link build r).Gives s l t ∧ s' = { t with events := t.events ++ [.linked l] } := by
  unfold compileReference at h
  rw [Step.gives_bind] at h
  obtain ⟨l, t, hlink, h⟩ := h
  rw [Step.gives_bind] at h
  obtain ⟨_, t', htrace, h⟩ := h
  obtain rfl := Step.gives_trace.1 htrace
  obtain ⟨-, rfl⟩ := Step.gives_edit.1 h
  exact ⟨l, t, hlink, rfl⟩

end ComponentContext

/-! ### The modules of components -/

/-- Two paths name entries of one folder. -/
def Path.IsBeside (p q : Path) : Prop := p.segments.dropLast = q.segments.dropLast

/-- A module was written for the component of an entry file: it was made from a file
beside that. -/
structure Session.HasModule (s : Session) (entry : Path) (b : Bundle) : Prop where
  recorded : b ∈ s.bundles
  delivered : ∃ d ∈ s.deliveries, d.target = b.output ∧
    ∃ l, s.files.locate d.source = .ok l ∧ l.path.IsBeside entry

theorem Session.HasModule.mono {s s' : Session} {entry : Path} {b : Bundle}
    (h : s.HasModule entry b) (hextends : s.Extends s') (hgrows : s.files.Grows s'.files) :
    s'.HasModule entry b := by
  obtain ⟨d, hd, htarget, l, hl, hbeside⟩ := h.delivered
  exact ⟨hextends.bundles.subset h.recorded, d, hextends.deliveries.subset hd, htarget, l,
    hgrows.locate hl, hbeside⟩

/-- The entry file of a component is listed in its folder. -/
theorem Component.entryFile?_eq_some {t : FileTree} {folder entry : Path}
    (h : entryFile? t folder = .ok (some entry)) : ∃ xs n content,
      t.list folder = .ok xs ∧ (n, .file content) ∈ xs ∧ entry = folder.join ⟨n⟩ := by
  unfold entryFile? at h
  cases hlist : t.list folder with
  | error e =>
    rw [hlist] at h
    cases h
  | ok xs =>
    rw [hlist] at h
    obtain ⟨⟨n, e⟩, hx, rfl⟩ := Option.map_eq_some_iff.1 (Except.ok.inj h)
    have hindex := List.find?_some hx
    rw [isIndex, Bool.and_eq_true] at hindex
    cases e with
    | folder => exact absurd hindex.2 (by simp)
    | link target => exact absurd hindex.2 (by simp)
    | file content => exact ⟨xs, n, content, rfl, List.mem_of_find?_eq_some hx, rfl⟩

/-- The component in the folder of a file has its entry file beside that. -/
theorem locate_entry_of_parent {t : FileTree} (hwf : t.WellFormed) {l : Location}
    {content : Content} (hl : t.get? l = some (.file content)) {source entry : Path}
    (hsource : l.path.parent? = some source) (hentry : Component.entryFile? t source = .ok (some entry))
    (husable : entry.IsUsable) : ∃ l', t.locate entry = .ok l' ∧ l'.path.IsBeside l.path := by
  obtain ⟨above, m, rfl, hparent, hdrop⟩ := hwf.segments_parent hl hsource
  obtain ⟨xs, n, content', hlist, hmem, rfl⟩ := Component.entryFile?_eq_some hentry
  obtain ⟨l', hl', hlocate, hget⟩ := hwf.locate_join_of_mem_list hlist hmem husable.fits
  obtain rfl := hwf.eq_of_locate hparent (.inl (hwf.entry hl).2.2) hl'
  refine ⟨_, hlocate, ?_⟩
  rw [Path.IsBeside, ← hdrop, hparent, hwf.segments_path hget, Path.names_append,
    ← List.cons_append]
  exact List.dropLast_concat

/-! ### What is known of links -/

/-- The path that the target of a link spells below a destination. -/
def ComponentLink.Spells (l : ComponentLink) (destination p : Path) : Prop :=
  ∃ folder stem, Target.componentParts? ((Path.mk l.target).extension?.getD "") l.target =
    some (folder, stem) ∧ p = (destination.join ⟨folder⟩).join ⟨stem ++ ".js"⟩

/-- The name of the folder that holds what a path names. -/
def Path.folderName? (p : Path) : Option String := p.segments.dropLast.getLast?.bind Segment.name?

/-- The path of the module of the component in the folder of an entry file. -/
def Path.IsModuleOf (p entry destination : Path) : Prop :=
  ∃ name, entry.folderName? = some name ∧ p = (destination.join ⟨name⟩).join ⟨moduleFile⟩

namespace Session

/-- A link that its component was compiled for. -/
def HasFirst (s : Session) (l : ComponentLink) : Prop := .linked l ∈ s.events ∧ l.isFirst = true

/-- What is known of a link: the destination of its component, and where that lies if the
component was compiled for the link. -/
structure Linked (s : Session) (destination : Path) (l : ComponentLink) : Prop where
  recorded : s.builds.get? l.entry = some l.destination
  absolute : l.output.isAbsolute = true
  spelled : l.isFirst = true → l.Spells destination l.destination
  module : l.isFirst = true → ∃ b, s.HasModule l.entry b ∧ b.output.IsModuleOf l.entry destination

/-- What is known of a recorded destination: it is that of a module, or a link spells
it. -/
structure Recorded (s : Session) (entry destination : Path) : Prop where
  absolute : destination.isAbsolute = true
  reason : (∃ b, s.HasModule entry b ∧ destination = b.output) ∨
    ∃ f, s.HasFirst f ∧ f.entry.same entry = true ∧ f.destination = destination

/-- How components are recorded and linked between two sessions. -/
structure Linking (destination : Path) (s s' : Session) : Prop where
  grown : s.Extends s'
  kept : s.Keeps s'
  builds : ∀ k d, s.builds.get? k = some d → s'.builds.get? k = some d
  recorded : s.files.WellFormed → ∀ k d, s'.builds.get? k = some d →
    s.builds.get? k = some d ∨ s'.Recorded k d
  linked : s.files.WellFormed → ∀ l, .linked l ∈ s'.events →
    .linked l ∈ s.events ∨ s'.Linked destination l

variable {destination : Path} {s s' : Session}

theorem Recorded.mono {k d : Path} (h : s.Recorded k d) (hextends : s.Extends s')
    (hgrows : s.files.Grows s'.files) : s'.Recorded k d := by
  refine ⟨h.absolute, ?_⟩
  rcases h.reason with ⟨b, hb, rfl⟩ | ⟨f, hf, hsame, hd⟩
  · exact .inl ⟨b, hb.mono hextends hgrows, rfl⟩
  · exact .inr ⟨f, ⟨hextends.event_mem hf.1, hf.2⟩, hsame, hd⟩

theorem Linked.mono {l : ComponentLink} (h : s.Linked destination l) (hextends : s.Extends s')
    (hgrows : s.files.Grows s'.files)
    (hbuilds : ∀ k d, s.builds.get? k = some d → s'.builds.get? k = some d) :
    s'.Linked destination l := by
  refine ⟨hbuilds _ _ h.recorded, h.absolute, h.spelled, fun hfirst => ?_⟩
  obtain ⟨b, hb, hmodule⟩ := h.module hfirst
  exact ⟨b, hb.mono hextends hgrows, hmodule⟩

namespace Linking

theorem of_eq (hgrown : s.Extends s') (hkept : s.Keeps s') (hbuilds : s'.builds = s.builds)
    (hlinked : ∀ l, .linked l ∈ s'.events → .linked l ∈ s.events) : Linking destination s s' :=
  ⟨hgrown, hkept, fun _ _ h => hbuilds ▸ h, fun _ _ _ h => .inl (hbuilds ▸ h),
    fun _ l h => .inl (hlinked l h)⟩

instance : IsPreorder Session (Linking destination) where
  refl s := of_eq (.refl s) (refl_of Keeps s) rfl fun _ h => h
  trans s t s' h₁ h₂ := by
    refine ⟨trans_of Extends h₁.grown h₂.grown, trans_of Keeps h₁.kept h₂.kept,
      fun k d h => h₂.builds k d (h₁.builds k d h), fun hwf k d h => ?_, fun hwf l h => ?_⟩
    · have hwf' := (h₁.kept hwf).1
      rcases h₂.recorded hwf' k d h with h | h
      · exact (h₁.recorded hwf k d h).imp_right fun h => h.mono h₂.grown (h₂.kept hwf').2
      · exact .inr h
    · have hwf' := (h₁.kept hwf).1
      rcases h₂.linked hwf' l h with h | h
      · exact (h₁.linked hwf l h).imp_right
          fun h => h.mono h₂.grown (h₂.kept hwf').2 h₂.builds
      · exact .inr h

theorem mem_of_mem_append {es : List Event} {e : Event} {l : ComponentLink}
    (he : ∀ l, e ≠ .linked l) (h : .linked l ∈ es ++ [e]) : .linked l ∈ es := by
  rcases List.mem_append.1 h with h | h
  · exact h
  · exact absurd (List.mem_singleton.1 h).symm (he l)

theorem copying : Session.Copying (Linking destination) where
  log s _ := of_eq (Extends.building.log s _) (Keeps.building.log s _) rfl fun _ h => h
  mapped s _ := of_eq (Extends.building.mapped s _) (Keeps.building.mapped s _) rfl fun _ h => h
  folders s p := of_eq (Extends.building.folders s p) (Keeps.building.folders s p) rfl
    fun _ h => h
  deliveries s d t h := of_eq (Extends.building.deliveries s d t h)
    (Keeps.building.deliveries s d t h) rfl fun _ h => h
  copies s source target := of_eq (Extends.building.copies s source target)
    (Keeps.building.copies s source target) rfl fun _ h => h
  followed s f := of_eq (Extends.building.followed s f) (Keeps.building.followed s f) rfl
    fun _ h => mem_of_mem_append (fun _ he => by cases he) h

theorem compiling : Session.Compiling (Linking destination) where
  toDelivering := copying.toDelivering
  bundles s b := of_eq (Extends.building.bundles s b) (Keeps.building.bundles s b) rfl
    fun _ h => h

theorem entered (s : Session) (source entry : Path) :
    Linking destination s { s with events := s.events ++ [.entered source entry] } :=
  of_eq (Extends.building.entered s source entry) (Keeps.building.entered s source entry) rfl
    fun _ h => mem_of_mem_append (fun _ he => by cases he) h

theorem point (code : String) (output : Path) (paths : List Path) :
    (Relative.point code output paths).Respects (Linking destination) :=
  compiling.toNoting.steps.point (fun p => .trace fun s => of_eq (Extends.pointed s p) (.of_eq rfl)
    rfl fun _ h => mem_of_mem_append (fun _ he => by cases he) h) code output paths

/-- A component is recorded, and what is compiled then links components.  A later session
with the same files and records links them too, if it knows why the component is
recorded, and knows its new links. -/
theorem of_begin {entry d : Path} {t t' : Session} (hnone : s.builds.get? entry = none)
    (h : Linking destination (s.begin entry d) t)
    (hgrown : t.Extends t') (hfiles : t'.files = t.files) (hbuilds : t'.builds = t.builds)
    (hrecorded : s.files.WellFormed → ∀ k, entry.same k = true → t'.Recorded k d)
    (hlinked : s.files.WellFormed → ∀ l, .linked l ∈ t'.events →
      .linked l ∈ t.events ∨ t'.Linked destination l) : Linking destination s t' := by
  have hgrows : t.files.Grows t'.files := hfiles ▸ refl_of FileTree.Grows _
  have hbefore := trans_of Extends (Extends.building.begun s entry d) h.grown
  refine ⟨trans_of Extends hbefore hgrown, fun hwf => hfiles ▸ h.kept hwf, fun k d' hk => ?_,
    fun hwf k d' hk => ?_, fun hwf l hl => ?_⟩
  · rw [hbuilds]
    refine h.builds k d' ((BuildCache.get?_register ..).trans ?_)
    rw [if_neg]
    · exact hk
    · intro hsame
      rw [← BuildCache.get?_congr _ hsame, hnone] at hk
      cases hk
  · rw [hbuilds] at hk
    rcases h.recorded hwf k d' hk with hk | hk
    · rw [Session.begin, BuildCache.get?_register] at hk
      split at hk
      · obtain rfl := Option.some.inj hk
        exact .inr (hrecorded hwf k ‹_›)
      · exact .inl hk
    · exact .inr (hk.mono hgrown hgrows)
  · rcases hlinked hwf l hl with hl | hl
    · exact (h.linked hwf l hl).imp (mem_of_mem_append fun _ he => by cases he) fun hl =>
        hl.mono hgrown hgrows fun _ _ hk => hbuilds ▸ hk
    · exact .inr hl

/-- **A reference to a component is linked to the destination that is recorded for
it.** -/
theorem compileReference {c : ComponentContext} (hdestination : c.options.destination = destination)
    (habsolute : destination.isAbsolute = true) (houtput : c.output.isAbsolute = true)
    {build : ComponentBuild}
    (hbuild : ∀ source paths, (build { c.options with source } paths).Respects (Linking destination))
    (hmodule : ∀ source paths s s', (build { c.options with source } paths).Gives s () s' →
      Component.Delivers { c.options with source } s s')
    (draft : Text.Draft) {r : Reference} (htyped : r.IsTyped c.bundler.types) :
    (c.compileReference build draft r).Respects (Linking destination) := by
  intro s draft' s' h
  obtain ⟨l, t, hlink, rfl⟩ := ComponentContext.gives_compileReference h
  obtain ⟨folder, stem, entry, hparts, hresolve, hcase⟩ := ComponentContext.gives_link hlink
  rcases hcase with ⟨d, hd, rfl, rfl⟩ | ⟨d, hnone, rfl, hcompile⟩
  · refine ⟨Extends.building.linked _ _, .of_eq rfl, fun _ _ h => h, fun _ _ _ h => .inl h,
      fun _ l hl => ?_⟩
    rcases List.mem_append.1 hl with hl | hl
    · exact .inl hl
    · cases List.mem_singleton.1 hl
      exact .inr ⟨hd, houtput, fun h => (by cases h), fun h => (by cases h)⟩
  · obtain ⟨hd, source, log, hsource, hnested⟩ := ComponentContext.gives_compileDependency hcompile
    obtain ⟨name, file, hnamed, hfile, husable, ⟨b, hb, hboutput⟩, hdelivery⟩ :=
      hmodule _ _ _ _ hnested
    have hlinking := trans_of (Linking destination) (copying.log (s.begin entry d) log)
      (hbuild _ _ _ _ _ hnested)
    have hdabsolute : d.isAbsolute = true := by
      rw [hd, hdestination]
      exact Path.isAbsolute_join (Path.isAbsolute_join habsolute _) _
    refine of_begin hnone hlinking (Extends.building.linked _ _) rfl rfl
      (fun _ k hsame => ⟨hdabsolute, .inr ⟨⟨c.output, r.target, entry, d, true⟩,
        ⟨by simp, rfl⟩, hsame, rfl⟩⟩) fun hwf l hl => ?_
    rcases List.mem_append.1 hl with hl | hl
    · exact .inl hl
    cases List.mem_singleton.1 hl
    refine .inr ⟨?_, houtput, fun _ => ⟨folder, stem, htyped.sourceType ▸ hparts, hdestination ▸ hd⟩,
      fun _ => ?_⟩
    · refine hlinking.builds entry d ((BuildCache.get?_register ..).trans ?_)
      rw [if_pos (Path.same_refl entry)]
    · obtain ⟨place, content, rfl, hplace⟩ := FileTree.resolve_eq_ok hresolve
      obtain ⟨l', hl', hbeside⟩ := locate_entry_of_parent hwf hplace hsource hfile husable
      refine ⟨b, ⟨hb, _, hdelivery, hboutput.symm, l', (hlinking.kept hwf).2.locate hl', hbeside⟩,
        name, ?_, ?_⟩
      · obtain ⟨-, -, -, -, hdrop⟩ := hwf.segments_parent hplace hsource
        rw [Path.folderName?, ← hdrop]
        exact hnamed
      · rw [hboutput, hdestination]

/-- A whole compilation links components to the destinations that are recorded for
them. -/
theorem compile {b : Bundler} (hb : b.IsDiscreet) (habsolute : destination.isAbsolute = true)
    (depth : Nat) {options : BuildOptions} (hdestination : options.destination = destination)
    (paths : List Path) : (Component.compile b depth options paths).Respects (Linking destination) := by
  induction depth generalizing options paths with
  | zero => exact .fail _
  | succ depth ih =>
    refine compiling.steps.compileWith (hb _) options paths
      (fun entry => .trace fun s => entered s _ entry)
      (fun _ code draft r _ => copying.steps.copyPlain _ code draft r)
      (fun pass _ => copying.steps.mappingPass pass) point fun name draft r htyped => ?_
    have houtput : (options.destination.join ⟨name⟩).isAbsolute = true := by
      rw [hdestination]
      exact Path.isAbsolute_join habsolute _
    have hnested : ∀ source paths, (Component.compile b depth { options with source } paths).Respects
        (Linking destination) := fun source paths => @ih { options with source } hdestination paths
    have hmodule : ∀ source paths s s',
        (Component.compile b depth { options with source } paths).Gives s () s' →
          Component.Delivers { options with source } s s' :=
      fun source paths s s' => Component.delivers_of_gives
    exact compileReference (c := ⟨b, options, paths, name, options.destination.join ⟨name⟩⟩)
      hdestination habsolute houtput hnested hmodule draft htyped

/-- **A component of the top level is recorded with the path of its module.** -/
theorem compileEntry {b : Bundler} (hb : b.IsDiscreet) {options : BuildOptions}
    (habsolute : options.destination.isAbsolute = true) :
    (b.compileEntry options).Respects (Linking options.destination) := by
  have hcompile := compile hb habsolute Component.depthLimit rfl
  intro s u s' h
  obtain ⟨name, entry, hnamed, hentry, hcase⟩ := Bundler.gives_compileEntry h
  rcases hcase with ⟨-, hbuild⟩ | ⟨canonical, d, -, rfl⟩ |
    ⟨canonical, file, rfl, hcanonical, hnone, hbuild⟩
  · exact hcompile _ _ _ _ hbuild
  · exact refl_of (Linking options.destination) s'
  · obtain ⟨name', file', hnamed', hfile', -, ⟨x, hx, hxoutput⟩, hdelivery⟩ :=
      Component.delivers_of_gives hbuild
    obtain rfl : name' = name := Option.some.inj (hnamed'.symm.trans hnamed)
    obtain rfl : file' = file := Option.some.inj (Except.ok.inj (hfile'.symm.trans hentry))
    have hlinking := hcompile _ _ _ _ hbuild
    refine of_begin hnone hlinking (.refl s') rfl rfl (fun hwf k hsame => ?_)
      fun _ l hl => .inl hl
    obtain ⟨l, hl, rfl, -⟩ := FileTree.canonical_eq_ok.1 hcanonical
    refine ⟨Path.isAbsolute_join (Path.isAbsolute_join habsolute _) _, .inl ⟨x, ⟨hx, _, hdelivery,
      hxoutput.symm, l, (hlinking.kept hwf).2.locate hl, ?_⟩, hxoutput.symm⟩⟩
    rw [Path.IsBeside, beq_iff_eq.1 hsame]

end Linking
end Session

/-! ### Where imports lead -/

namespace ComponentLink

/-- The target of a link spells the module of the component in the folder of its
entry. -/
def NamesModule (l : ComponentLink) (destination : Path) : Prop :=
  ∃ p q : Path, l.Spells destination p ∧ q.IsModuleOf l.entry destination ∧ p.normalize = q.normalize

theorem Spells.unique {l : ComponentLink} {destination p p' : Path} (h : l.Spells destination p)
    (h' : l.Spells destination p') : p = p' := by
  obtain ⟨folder, stem, hparts, rfl⟩ := h
  obtain ⟨folder', stem', hparts', rfl⟩ := h'
  cases hparts.symm.trans hparts'
  rfl

end ComponentLink

theorem Path.IsModuleOf.unique {p p' entry entry' destination : Path}
    (h : p.IsModuleOf entry destination) (h' : p'.IsModuleOf entry' destination)
    (hsame : entry.same entry' = true) : p = p' := by
  obtain ⟨name, hname, rfl⟩ := h
  obtain ⟨name', hname', rfl⟩ := h'
  rw [folderName?, beq_iff_eq.1 hsame] at hname
  cases hname.symm.trans hname'
  rfl

theorem Session.HasModule.congr {s : Session} {entry entry' : Path} {b : Bundle}
    (h : s.HasModule entry b) (hsame : entry.same entry' = true) : s.HasModule entry' b := by
  obtain ⟨d, hd, htarget, l, hl, hbeside⟩ := h.delivered
  refine ⟨h.recorded, d, hd, htarget, l, hl, ?_⟩
  rw [Path.IsBeside, hbeside, beq_iff_eq.1 hsame]

/-- **The import of a component leads to its module if and only if the first reference to
the component spells it.**  Every component that is referred to has a module; its import,
joined to the folder of the importing module, names the path that was recorded when the
component was first referred to, or that of the module if it was compiled at the top
level. -/
theorem leads_to_module_iff {b : Bundler} (hb : b.IsDiscreet) {options : BuildOptions}
    {s s' : Session} {bundles : List Bundle} (hwf : s.files.WellFormed)
    (h : b.Builds options s bundles s') {l : ComponentLink} (hl : .linked l ∈ s'.events) :
    ∃ m ∈ bundles, s'.HasModule l.entry m ∧
      ((l.output.join ⟨l.specifier⟩).normalize = m.output.normalize ↔
        ∀ f, s'.HasFirst f → f.entry.same l.entry = true →
          f.NamesModule (Path.absolutize s.files.current.path options.destination)) := by
  generalize hdestination : Path.absolutize s.files.current.path options.destination = destination
  have habsolute : destination.isAbsolute = true := hdestination ▸ Path.isAbsolute_absolutize _ _
  obtain ⟨rfl, log, hlinking⟩ := Bundler.relates_of_builds
    (@Session.Linking.copying destination).toNoting h fun source => by
      rw [hdestination]
      exact Session.Linking.compileEntry hb habsolute
  have hlinks : ∀ f, .linked f ∈ s'.events → s'.Linked destination f := fun f hf =>
    (hlinking.linked hwf f hf).resolve_left List.not_mem_nil
  have hlink := hlinks l hl
  have hrecorded := (hlinking.recorded hwf _ _ hlink.recorded).resolve_left (by
    intro hnone
    cases hnone)
  have hlead : (l.output.join ⟨l.specifier⟩).normalize = l.destination.normalize :=
    Path.normalize_join_specifierFrom hlink.absolute hrecorded.absolute
  by_cases hfirst : ∃ f, s'.HasFirst f ∧ f.entry.same l.entry = true
  · obtain ⟨f, hf, hsame⟩ := hfirst
    have hdestinations : ∀ g, s'.HasFirst g → g.entry.same l.entry = true →
        g.Spells destination l.destination := by
      intro g hg hgsame
      have hgrecorded := (hlinks g hg.1).recorded
      rw [BuildCache.get?_congr _ hgsame, hlink.recorded] at hgrecorded
      rw [Option.some.inj hgrecorded]
      exact (hlinks g hg.1).spelled hg.2
    obtain ⟨m, hm, hmodule⟩ := (hlinks f hf.1).module hf.2
    refine ⟨m, hm.recorded, hm.congr hsame, ?_⟩
    rw [hlead]
    constructor
    · intro heq g hg hgsame
      obtain ⟨name, hname, houtput⟩ := hmodule
      rw [Path.folderName?, beq_iff_eq.1 hsame, ← beq_iff_eq.1 hgsame] at hname
      exact ⟨l.destination, m.output, hdestinations g hg hgsame, ⟨name, hname, houtput⟩, heq⟩
    · intro hnames
      obtain ⟨p, q, hp, hq, heq⟩ := hnames f hf hsame
      rw [hp.unique (hdestinations f hf hsame), hq.unique hmodule (Path.same_refl _)] at heq
      exact heq
  · rcases hrecorded.reason with ⟨m, hm, houtput⟩ | ⟨f, hf, hsame, -⟩
    · refine ⟨m, hm.recorded, hm, ?_⟩
      rw [hlead, houtput]
      exact iff_of_true rfl fun f hf hsame => absurd ⟨f, hf, hsame⟩ hfirst
    · exact absurd ⟨f, hf, hsame⟩ hfirst

/-- Two components that refer to each other. -/
def mutualComponents : FileTree where
  entries := [
    (["a_a"], .folder), (["b_b"], .folder),
    (["a_a", "index.esm"], .file (.text "import '../b_b/index.esm'\nexport default A")),
    (["b_b", "index.esm"], .file (.text "import '../a_a/index.esm'\nexport default B"))]

set_option maxRecDepth 100000 in
theorem mutualComponents_run :
    let r : Except Failure (List Bundle) × Session :=
      (Bundler.compile {} { source := ⟨"/a_a"⟩, destination := ⟨"/o"⟩ }).run.run
        { files := mutualComponents }
    r.1.toOption = some [⟨⟨"/o/b_b/index.js"⟩, 74, none⟩, ⟨⟨"/o/a_a/index.js"⟩, 74, none⟩] ∧
      r.2.events = [
        .begun ⟨"/a_a/index.esm"⟩, .entered ⟨"/a_a"⟩ ⟨"/a_a/index.esm"⟩,
        .begun ⟨"/b_b/index.esm"⟩, .entered ⟨"/b_b"⟩ ⟨"/b_b/index.esm"⟩,
        .linked ⟨⟨"/o/b_b"⟩, "../a_a/index.esm", ⟨"/a_a/index.esm"⟩, ⟨"/o/a_a/index.js"⟩, false⟩,
        .linked ⟨⟨"/o/a_a"⟩, "../b_b/index.esm", ⟨"/b_b/index.esm"⟩, ⟨"/o/b_b/index.js"⟩, true⟩] := by
  decide +kernel

/-- The imports of components that refer to each other lead to their modules. -/
theorem leads_to_module_of_mutualComponents :
    ∃ bundles s', Bundler.Builds {} { source := ⟨"/a_a"⟩, destination := ⟨"/o"⟩ }
        { files := mutualComponents } bundles s' ∧
      ∀ l, .linked l ∈ s'.events → ∃ m ∈ bundles, s'.HasModule l.entry m ∧
        (l.output.join ⟨l.specifier⟩).normalize = m.output.normalize := by
  have hrun := Step.gives_of_run mutualComponents_run.1
  refine ⟨_, _, .inl hrun, fun l hl => ?_⟩
  obtain ⟨m, hm, hmodule, hiff⟩ := leads_to_module_iff
    (Bundler.isDiscreet_of_initial rfl (fun _ h => by cases h) rfl) (by decide) (.inl hrun) hl
  refine ⟨m, hm, hmodule, hiff.2 fun f hf _ => ?_⟩
  have hmem := hf.1
  rw [mutualComponents_run.2] at hmem
  simp only [List.mem_cons, List.not_mem_nil, or_false, reduceCtorEq, false_or,
    Event.linked.injEq] at hmem
  rcases hmem with rfl | rfl
  · exact absurd hf.2 (by decide)
  · exact ⟨⟨"/o/b_b/index.js"⟩, ⟨"/o/b_b/index.js"⟩, ⟨"b_b", "index", by decide, by decide⟩,
      ⟨"b_b", by decide, by decide⟩, rfl⟩

/-- A component that is referred to by a file beside its entry file. -/
def neighbourFile : FileTree where
  entries := [
    (["a_a"], .folder), (["b_b"], .folder),
    (["a_a", "index.esm"], .file (.text "import '../b_b/main.esm'\nexport default A")),
    (["b_b", "index.esm"], .file (.text "export default B")),
    (["b_b", "main.esm"], .file (.text "export default C"))]

set_option maxRecDepth 100000 in
theorem neighbourFile_run :
    let r : Except Failure (List Bundle) × Session :=
      (Bundler.compile {} { source := ⟨"/a_a"⟩, destination := ⟨"/o"⟩ }).run.run
        { files := neighbourFile }
    r.1.toOption = some [⟨⟨"/o/b_b/index.js"⟩, 49, none⟩, ⟨⟨"/o/a_a/index.js"⟩, 73, none⟩] ∧
      .linked ⟨⟨"/o/a_a"⟩, "../b_b/main.esm", ⟨"/b_b/main.esm"⟩, ⟨"/o/b_b/main.js"⟩, true⟩ ∈
        r.2.events := by
  decide +kernel

/-- **An import leads to no module** where the reference names a file beside the entry
file: the module is written to `index.js`. -/
theorem leads_nowhere_of_neighbourFile :
    ∃ bundles s', Bundler.Builds {} { source := ⟨"/a_a"⟩, destination := ⟨"/o"⟩ }
        { files := neighbourFile } bundles s' ∧
      ∃ l, .linked l ∈ s'.events ∧ l.entry = ⟨"/b_b/main.esm"⟩ ∧
        ∀ m ∈ bundles, (l.output.join ⟨l.specifier⟩).normalize ≠ m.output.normalize := by
  obtain ⟨hok, hlinked⟩ := neighbourFile_run
  refine ⟨_, _, .inl (Step.gives_of_run hok), _, hlinked, rfl, fun m hm => ?_⟩
  simp only [List.mem_cons, List.not_mem_nil, or_false] at hm
  rcases hm with rfl | rfl
  · decide +kernel
  · decide +kernel

end ElementBuild
