/-
# The compilations of a build

A build compiles components one after the other (`Bundler.gives_build`), and each of them
may start compilations that are nested in its own.  The compilations of a build are those of
the top level and all that are nested in them (`Bundler.Compiles`); there is one for each
component that the build enters (`Bundler.exists_compiles_of_entered`).
-/
import ElementBuild.Proofs.Build.Course

namespace ElementBuild

/-- What a build compiles: one component, or all below a folder. -/
inductive Scope where
  | one
  | all

namespace Bundler

variable {b : Bundler} {options : BuildOptions} {s s' : Session}

/-- The build of a scope. -/
def build (b : Bundler) : Scope → BuildOptions → Step (List Bundle)
  | .one => b.compile
  | .all => b.compileAll

/-- Builds the components in some folders, one after the other. -/
def compileEach (b : Bundler) (options : BuildOptions) (sources : List Path) : Step Unit :=
  sources.forM fun source => b.compileEntry { options with source }

/-- A build has prepared its options, and is about to build the components in some
folders. -/
inductive Opens (b : Bundler) (options : BuildOptions) (s : Session) :
    Scope → BuildOptions → List Path → Session → Prop where
  | one {o : BuildOptions} {t : Session} (h : (b.prepare options).Gives s o t) :
    Opens b options s .one o [o.source] t.restart
  | all {o : BuildOptions} {t : Session} {entries : List (String × Entry)} {folders : List Path}
    (h : (b.prepare options).Gives s o t) (hlist : t.files.list o.source = .ok entries)
    (hfolders : folders = (entries.filter (isComponent t.files o.source)).map fun x =>
      o.source.join ⟨x.1⟩) :
    Opens b options s .all o folders { t.restart with
      log := t.log ++ [.info ("Compiling " ++ toString folders.length ++ " components from " ++
        o.source.text)] }

/-- A build of one component starts anew when its options are prepared. -/
theorem gives_compile {bundles : List Bundle} : (b.compile options).Gives s bundles s' ↔
    ∃ o t, (b.prepare options).Gives s o t ∧ (b.compileEntry o).Gives t.restart () s' ∧
      bundles = s'.bundles := by
  unfold compile
  simp only [Step.gives_bind, Step.gives_modify, Step.gives_get, Step.gives_pure]
  constructor
  · rintro ⟨o, t, hprepare, _, _, rfl, _, u, hentry, _, _, ⟨rfl, rfl⟩, rfl, rfl⟩
    exact ⟨o, t, hprepare, hentry, rfl⟩
  · rintro ⟨o, t, hprepare, hentry, rfl⟩
    exact ⟨o, t, hprepare, ⟨⟩, _, rfl, (), s', hentry, _, _, ⟨rfl, rfl⟩, rfl, rfl⟩

/-- **A build builds components one after the other.** -/
theorem gives_build {scope : Scope} {bundles : List Bundle} :
    (b.build scope options).Gives s bundles s' ↔ ∃ o sources t,
      b.Opens options s scope o sources t ∧ (b.compileEach o sources).Gives t () s' ∧
        bundles = s'.bundles := by
  have hone : ∀ o t, (b.compileEach o [o.source]).Gives t () s' ↔
      (b.compileEntry o).Gives t () s' := by
    intro o t
    change ((b.compileEntry o >>= fun _ => pure ⟨⟩ : Step PUnit)).Gives t () s' ↔ _
    rw [Step.gives_bind]
    constructor
    · rintro ⟨_, t', h, hpure⟩
      obtain ⟨-, rfl⟩ := Step.gives_pure.1 hpure
      exact h
    · exact fun h => ⟨_, _, h, Step.gives_pure.2 ⟨rfl, rfl⟩⟩
  constructor
  · intro h
    cases scope with
    | one =>
      obtain ⟨o, t, hprepare, hentry, rfl⟩ := gives_compile.1 h
      exact ⟨o, _, _, .one hprepare, (hone o _).2 hentry, rfl⟩
    | all =>
      change (b.compileAll options).Gives s bundles s' at h
      unfold compileAll at h
      simp only [Step.gives_bind, Step.gives_modify, Step.gives_get, Step.gives_pure,
        Step.gives_during, Step.gives_fromFiles, Step.gives_files, Step.gives_tell] at h
      obtain ⟨o, t, hprepare, _, _, rfl, entries, _, ⟨hlist, rfl⟩, _, _, ⟨rfl, rfl⟩, _, _, rfl,
        _, u, heach, _, _, ⟨rfl, rfl⟩, rfl, rfl⟩ := h
      exact ⟨o, _, _, .all hprepare hlist rfl, heach, rfl⟩
  · rintro ⟨o, sources, t, hopens, heach, rfl⟩
    cases hopens with
    | one hprepare => exact gives_compile.2 ⟨o, _, hprepare, (hone o _).1 heach, rfl⟩
    | all hprepare hlist hfolders =>
      subst hfolders
      change (b.compileAll options).Gives s _ s'
      unfold compileAll
      simp only [Step.gives_bind, Step.gives_modify, Step.gives_get, Step.gives_pure,
        Step.gives_during, Step.gives_fromFiles, Step.gives_files, Step.gives_tell]
      exact ⟨o, _, hprepare, ⟨⟩, _, rfl, _, _, ⟨hlist, rfl⟩, _, _, ⟨rfl, rfl⟩, (), _, rfl,
        (), s', heach, _, _, ⟨rfl, rfl⟩, rfl, rfl⟩

/-- A build of the top level starts a compilation: that of a component which was not
recorded. -/
structure Enters (b : Bundler) (o : BuildOptions) (t : Session) (x : Compilation b) : Prop where
  gives : (b.compileEntry o).Gives t () x.stop
  depth : x.depth + 1 = Component.depthLimit
  options : x.options = o
  paths : x.paths = [x.output, o.source]
  entry : ∃ canonical, t.files.canonical x.entry = .ok canonical ∧
    t.builds.get? canonical = none ∧ x.start = t.begin canonical (x.output.join ⟨moduleFile⟩)

/-- A component of the top level is recorded, or it is compiled. -/
theorem recorded_or_enters (hregistry : b.registry = .initial) {o : BuildOptions} {t : Session}
    (h : (b.compileEntry o).Gives t () s') :
    (∃ canonical d, t.builds.get? canonical = some d ∧ s' = t) ∨
      ∃ x, b.Enters o t x ∧ x.stop = s' := by
  obtain ⟨name, entry, hnamed, hentry, hcase⟩ := gives_compileEntry h
  rcases hcase with ⟨rfl, hbuild⟩ | ⟨canonical, d, hrecorded, rfl⟩ |
    ⟨canonical, file, rfl, hcanonical, hnone, hbuild⟩
  · obtain ⟨x, hdepth, hoptions, hpaths, hstart, rfl⟩ :=
      Compilation.exists_of_gives hregistry hbuild
    have hfound := x.found
    rw [hstart, hoptions, hentry] at hfound
    cases hfound
  · exact .inl ⟨canonical, d, hrecorded, rfl⟩
  · obtain ⟨x, hdepth, hoptions, hpaths, hstart, rfl⟩ :=
      Compilation.exists_of_gives hregistry hbuild
    have hname : x.name = name := by
      have hname := x.named
      rw [hoptions, hnamed] at hname
      exact (Option.some.inj hname).symm
    have hfile : x.entry = file := by
      have hfound := x.found
      rw [hstart, hoptions] at hfound
      exact Option.some.inj (Except.ok.inj (hfound.symm.trans hentry))
    have houtput : x.output = o.destination.join ⟨name⟩ := by
      rw [Compilation.output, hoptions, hname]
    refine .inr ⟨x, ⟨h, hdepth, hoptions, ?_, canonical, ?_, hnone, ?_⟩, rfl⟩
    · rw [hpaths, houtput]
    · rw [hfile]
      exact hcanonical
    · rw [hstart, houtput]

/-- What a component of the top level does to the session: nothing if it is recorded. -/
theorem enters_of_compileEntry (hregistry : b.registry = .initial) {o : BuildOptions} {t : Session}
    (h : (b.compileEntry o).Gives t () s') : s' = t ∨ ∃ x, b.Enters o t x ∧ x.stop = s' := by
  obtain ⟨canonical, d, -, hsame⟩ | hx := recorded_or_enters hregistry h
  · exact .inl hsame
  · exact .inr hx

/-- A compilation in the course of a build: one of the top level, or one that is nested in
it. -/
def Compiles (b : Bundler) (scope : Scope) (options : BuildOptions) (s : Session)
    (x : Compilation b) : Prop :=
  ∃ o sources t before source after u top, b.Opens options s scope o sources t ∧
    sources = before ++ source :: after ∧ (b.compileEach o before).Gives t () u ∧
      b.Enters { o with source } u top ∧ Relation.ReflTransGen Compilation.Nests top x

end Bundler

namespace Bundler

variable {b : Bundler} {options : BuildOptions} {s s' : Session}

/-- A build starts from the files that it finds, with absolute paths. -/
theorem Opens.eq {scope : Scope} {o : BuildOptions} {sources : List Path} {t : Session}
    (h : b.Opens options s scope o sources t) : (∃ log, t = start s log) ∧
      o = { options with
        source := Path.absolutize s.files.current.path options.source
        destination := Path.absolutize s.files.current.path options.destination } := by
  cases h with
  | one hprepare =>
    obtain ⟨ho, log, rfl⟩ := gives_prepare hprepare
    exact ⟨⟨log, rfl⟩, ho⟩
  | all hprepare hlist hfolders =>
    obtain ⟨ho, log, rfl⟩ := gives_prepare hprepare
    exact ⟨⟨_, rfl⟩, ho⟩

theorem Opens.unique {scope : Scope} {o o' : BuildOptions} {sources sources' : List Path}
    {t t' : Session} (h : b.Opens options s scope o sources t)
    (h' : b.Opens options s scope o' sources' t') : o = o' ∧ sources = sources' ∧ t = t' := by
  cases h with
  | one hprepare =>
    cases h' with
    | one hprepare' =>
      obtain ⟨rfl, rfl⟩ := hprepare.unique hprepare'
      exact ⟨rfl, rfl, rfl⟩
  | all hprepare hlist hfolders =>
    cases h' with
    | all hprepare' hlist' hfolders' =>
      obtain ⟨rfl, rfl⟩ := hprepare.unique hprepare'
      cases hlist.symm.trans hlist'
      subst hfolders hfolders'
      exact ⟨rfl, rfl, rfl⟩

/-- The folders before a folder, the folder itself and those after it are built. -/
theorem gives_compileEach {o : BuildOptions} {before after : List Path} {source : Path} :
    (b.compileEach o (before ++ source :: after)).Gives s () s' ↔ ∃ t t',
      (b.compileEach o before).Gives s () t ∧ (b.compileEntry { o with source }).Gives t () t' ∧
        (b.compileEach o after).Gives t' () s' := by
  unfold compileEach
  simp only [List.forM_eq_forM, List.forM_append, List.forM_cons, Step.gives_bind]
  constructor
  · rintro ⟨_, t, hbefore, _, t', hentry, hafter⟩
    exact ⟨t, t', hbefore, hentry, hafter⟩
  · rintro ⟨t, t', hbefore, hentry, hafter⟩
    exact ⟨_, t, hbefore, _, t', hentry, hafter⟩

variable {r : Session → Session → Prop} [IsPreorder Session r] {destination : Path}

/-- What compilations respect, the components of the top level do. -/
theorem passes_compileEntry (hregistry : b.registry = .initial) (hr : b.Spans destination r)
    (hb : b.IsDiscreet) (habsolute : destination.isAbsolute = true) {o : BuildOptions}
    (hdestination : o.destination = destination) : (b.compileEntry o).Respects r := by
  intro t u t' h
  rcases enters_of_compileEntry hregistry h with rfl | ⟨x, henters, rfl⟩
  · exact refl_of r _
  · obtain ⟨canonical, -, -, hstart⟩ := henters.entry
    have hx := Compilation.start_stop hr.toPasses hb (x := x) (henters.options ▸ hdestination)
      habsolute
    rw [hstart] at hx
    exact trans_of r (hr.begun t _ _) hx

/-- **A compilation in the course of a build starts after the build.** -/
theorem Compiles.start_start {scope : Scope} {x : Compilation b}
    (h : b.Compiles scope options s x) (hregistry : b.registry = .initial) (hb : b.IsDiscreet)
    (hr : b.Spans (Path.absolutize s.files.current.path options.destination) r) :
    (∃ log, r (start s log) x.start) ∧ x.options = { options with
      source := x.options.source
      destination := Path.absolutize s.files.current.path options.destination } := by
  obtain ⟨o, sources, t, before, source, after, u, top, hopens, rfl, hbefore, henters, hnests⟩ := h
  obtain ⟨⟨log, rfl⟩, rfl⟩ := hopens.eq
  have habsolute := Path.isAbsolute_absolutize s.files.current options.destination
  have htop : top.options.destination = _ := congrArg BuildOptions.destination henters.options
  obtain ⟨hnested, hx⟩ := Compilation.start_nested hr hb hnests htop habsolute
  refine ⟨⟨log, ?_⟩, ?_⟩
  · have hfirst := Step.Law.forM (P := Step.Respects r)
      (fun source => passes_compileEntry hregistry hr hb habsolute (o := { options with
        source, destination := Path.absolutize s.files.current.path options.destination }) rfl)
      before _ _ _ hbefore
    obtain ⟨canonical, -, -, hstart⟩ := henters.entry
    rw [hstart] at hnested
    exact trans_of r hfirst (trans_of r (hr.begun u _ _) hnested)
  · rw [hx, henters.options]

/-- **A compilation in the course of a build stops before the build.** -/
theorem Compiles.stop_stop {scope : Scope} {x : Compilation b}
    (h : b.Compiles scope options s x) (hregistry : b.registry = .initial) (hb : b.IsDiscreet)
    (hr : b.Spans (Path.absolutize s.files.current.path options.destination) r) {bundles : List Bundle}
    (hbuild : (b.build scope options).Gives s bundles s') : r x.stop s' := by
  obtain ⟨o, sources, t, before, source, after, u, top, hopens, rfl, hbefore, henters, hnests⟩ := h
  obtain ⟨o', sources', t', hopens', heach, rfl⟩ := gives_build.1 hbuild
  obtain ⟨rfl, rfl, rfl⟩ := hopens.unique hopens'
  obtain ⟨⟨log, rfl⟩, rfl⟩ := hopens.eq
  have habsolute := Path.isAbsolute_absolutize s.files.current options.destination
  have htop : top.options.destination = _ := congrArg BuildOptions.destination henters.options
  obtain ⟨u', u'', hbefore', hentry, hafter⟩ := gives_compileEach.1 heach
  obtain ⟨-, rfl⟩ := hbefore.unique hbefore'
  obtain ⟨-, rfl⟩ := henters.gives.unique hentry
  refine trans_of r (Compilation.stop_nested hr hb hnests htop habsolute) ?_
  exact Step.Law.forM (P := Step.Respects r)
    (fun source => passes_compileEntry hregistry hr hb habsolute (o := { options with
      source, destination := Path.absolutize s.files.current.path options.destination }) rfl)
    after _ _ _ hafter

/-- A compilation runs between the start and the end of its build. -/
theorem Compiles.spans {scope : Scope} {x : Compilation b} (h : b.Compiles scope options s x)
    (hregistry : b.registry = .initial) (hb : b.IsDiscreet) {bundles : List Bundle}
    (hbuild : (b.build scope options).Gives s bundles s')
    (hr : b.Spans (Path.absolutize s.files.current.path options.destination) r) :
    (∃ log, r (start s log) x.start) ∧ r x.start x.stop ∧ r x.stop s' := by
  obtain ⟨hstart, hoptions⟩ := h.start_start hregistry hb hr
  refine ⟨hstart, ?_, h.stop_stop hregistry hb hr hbuild⟩
  exact Compilation.start_stop hr.toPasses hb (congrArg BuildOptions.destination hoptions)
    (Path.isAbsolute_absolutize _ _)

section Noted

variable {scope : Scope} {x : Compilation b} (h : b.Compiles scope options s x)
  (hregistry : b.registry = .initial) (hb : b.IsDiscreet) {bundles : List Bundle}
  (hbuild : (b.build scope options).Gives s bundles s')
include h hregistry hb hbuild

/-- What is noted when a compilation starts is noted when the build ends. -/
theorem Compiles.event_mem_of_start {e : Event} (he : e ∈ x.start.events) : e ∈ s'.events := by
  obtain ⟨-, hrun, hstop⟩ := h.spans hregistry hb hbuild
    (Session.Extends.building.spans hb Session.Extends.pointed _)
  exact hstop.event_mem (hrun.event_mem he)

/-- The component of a compilation is entered. -/
theorem Compiles.entered_mem : .entered x.options.source x.entry ∈ s'.events := by
  have hr := Session.Extends.building.spans hb Session.Extends.pointed
    (Path.absolutize s.files.current.path options.destination)
  have hdestination := congrArg BuildOptions.destination (h.start_start hregistry hb hr).2
  have habsolute := Path.isAbsolute_absolutize s.files.current options.destination
  have hfollows := Compilation.follows hr.toPasses hb hdestination habsolute
  have hentered : .entered x.options.source x.entry ∈
      (Component.enter x.start x.options.source x.entry x.course.log).events :=
    List.mem_append_right _ (List.mem_singleton_self _)
  have hlater := trans_of Session.Extends (trans_of Session.Extends (trans_of Session.Extends
    (trans_of Session.Extends (trans_of Session.Extends hfollows.copied hfollows.unmapped)
      hfollows.placed) hfollows.remapped) hfollows.joined)
    (Compilation.joined_stop hr.toPasses hb hdestination habsolute)
  exact (h.stop_stop hregistry hb hr hbuild).event_mem (hlater.event_mem hentered)

/-- A link of a compilation is noted. -/
theorem Compiles.linked_mem {r : Reference} {l : ComponentLink} {t t' : Session}
    (hlink : x.Links r l t t') : .linked l ∈ s'.events := by
  have hr := Session.Extends.building.spans hb Session.Extends.pointed
    (Path.absolutize s.files.current.path options.destination)
  have hlater := Compilation.link_stop hr.toPasses hb
    (congrArg BuildOptions.destination (h.start_start hregistry hb hr).2)
    (Path.isAbsolute_absolutize _ _) hlink
  exact (h.stop_stop hregistry hb hr hbuild).event_mem
    (hlater.event_mem (List.mem_append_right _ (List.mem_singleton_self _)))

end Noted
/-- **A build of one component that writes a module compiles the component.** -/
theorem exists_compiles (hregistry : b.registry = .initial) {m : Bundle} {bundles : List Bundle}
    (h : (b.build .one options).Gives s (m :: bundles) s') :
    ∃ x, b.Compiles .one options s x ∧ x.stop = s' ∧
      x.options.source = Path.absolutize s.files.current.path options.source := by
  obtain ⟨o, sources, t, hopens, heach, hbundles⟩ := gives_build.1 h
  obtain ⟨⟨log, ht⟩, ho⟩ := hopens.eq
  cases hopens with
  | one hprepare =>
    obtain ⟨u, u', hbefore, hentry, hafter⟩ := (@gives_compileEach _ _ _ _ [] [] _).1 heach
    obtain ⟨-, rfl⟩ := Step.gives_pure.1 hbefore
    obtain ⟨-, rfl⟩ := Step.gives_pure.1 hafter
    rcases enters_of_compileEntry hregistry hentry with rfl | ⟨x, henters, rfl⟩
    · rw [ht] at hbundles
      cases hbundles
    · refine ⟨x, ⟨o, _, _, [], _, [], _, x, .one hprepare, rfl, hbefore, henters, .refl⟩, rfl, ?_⟩
      rw [henters.options, ho]

end Bundler

/-! ### What is entered -/

/-- Between two sessions, no component is entered. -/
def Session.EntersNone (s s' : Session) : Prop :=
  ∀ source entry, .entered source entry ∈ s'.events → .entered source entry ∈ s.events

namespace Session.EntersNone

variable {s s' : Session}

theorem of_eq (h : s'.events = s.events) : s.EntersNone s' := fun _ _ he => h ▸ he

theorem of_append {e : Event} (he : ∀ source entry, e ≠ .entered source entry)
    (h : s'.events = s.events ++ [e]) : s.EntersNone s' := by
  intro source entry hmem
  rw [h] at hmem
  exact (List.mem_append.1 hmem).resolve_right fun hlast =>
    he source entry (List.mem_singleton.1 hlast).symm

instance : IsPreorder Session EntersNone where
  refl _ := of_eq rfl
  trans _ _ _ h₁ h₂ := fun source entry he => h₁ source entry (h₂ source entry he)

theorem copying : Session.Copying EntersNone where
  log _ _ := of_eq rfl
  mapped _ _ := of_eq rfl
  folders _ _ := of_eq rfl
  deliveries _ _ _ _ := of_eq rfl
  copies _ _ _ := of_eq rfl
  followed _ _ := of_append (fun _ _ h => by cases h) rfl

theorem passing : Session.Passing EntersNone where
  copying := copying
  compiling := ⟨copying.toDelivering, fun _ _ => of_eq rfl⟩
  point := copying.steps.point fun _ => .trace fun _ => of_append (fun _ _ h => by cases h) rfl

end Session.EntersNone

/-- **What a compilation enters is its component, or those of the compilations that are
nested in it.** -/
theorem Compilation.exists_of_entered {b : Bundler} (hregistry : b.registry = .initial)
    (hb : b.IsDiscreet) (x : Compilation b) {source entry : Path}
    (h : .entered source entry ∈ x.stop.events) : .entered source entry ∈ x.start.events ∨
      ∃ y, Relation.ReflTransGen Nests x y ∧ y.options.source = source ∧ y.entry = entry := by
  induction hdepth : x.depth using Nat.strongRecOn generalizing x with
  | ind depth ih =>
    have hx := x.proceeds Session.EntersNone.passing hb
    have hlate := hx.translated _ _ (hx.finished _ _ (hx.stop _ _ h))
    -- what is entered before the script is joined is the component
    have hearly : .entered source entry ∈ x.course.remapped.events →
        .entered source entry ∈ x.start.events ∨
          ∃ y, Relation.ReflTransGen Nests x y ∧ y.options.source = source ∧ y.entry = entry := by
      intro he
      have he := hx.copied _ _ (hx.unmapped _ _ (hx.placed _ _ (hx.remapped _ _ he)))
      rcases List.mem_append.1 he with he | he
      · exact .inl he
      · cases List.mem_singleton.1 he
        exact .inr ⟨x, .refl, rfl, rfl⟩
    have hjoins := x.course.joins
    unfold ComponentContext.compileComponents at hjoins
    simp only [Step.gives_bind, Step.gives_pure] at hjoins
    obtain ⟨references, s₁, hscan, draft, _, hfold, -, rfl⟩ := hjoins
    refine Step.foldlM_induction hfold (fun t => .entered source entry ∈ t.events → _)
      (fun he => hearly ?_) (fun r draft t draft' t' hreach hbefore hround he => ?_) hlate
    · exact Session.EntersNone.copying.steps.scan _ _ _ _ _ hscan _ _ he
    · obtain ⟨l, u, hlink, rfl⟩ := ComponentContext.gives_compileReference hround
      have hlinks : x.Links r l t u := ⟨_, _, _, hscan, hreach, hlink⟩
      have he := (List.mem_append.1 he).resolve_right fun hlast => by
        cases List.mem_singleton.1 hlast
      by_cases hfirst : l.isFirst = true
      · obtain ⟨y, hnests, rfl, log, hstart⟩ := exists_nested hregistry hlinks hfirst
        rcases ih y.depth (by have := hnests.depth; omega) y he rfl with he | ⟨z, hz, hentered⟩
        · rw [hstart] at he
          exact hbefore ((List.mem_append.1 he).resolve_right fun hlast => by
            cases List.mem_singleton.1 hlast)
        · exact .inr ⟨z, .head hnests hz, hentered⟩
      · obtain ⟨_, _, _, -, -, ⟨_, -, -, rfl⟩ | ⟨_, -, rfl, -⟩⟩ := ComponentContext.gives_link hlink
        · exact hbefore he
        · exact absurd rfl hfirst

/-- **There is a compilation for each component that a build enters.** -/
theorem Bundler.exists_compiles_of_entered {b : Bundler} (hregistry : b.registry = .initial)
    (hb : b.IsDiscreet) {scope : Scope} {options : BuildOptions} {s s' : Session}
    {bundles : List Bundle} (hbuild : (b.build scope options).Gives s bundles s')
    {source entry : Path} (h : .entered source entry ∈ s'.events) :
    ∃ x, b.Compiles scope options s x ∧ x.options.source = source ∧ x.entry = entry := by
  obtain ⟨o, sources, t, hopens, heach, -⟩ := gives_build.1 hbuild
  obtain ⟨⟨log, ht⟩, -⟩ := hopens.eq
  suffices hprefix : ∀ before after u, sources = before ++ after →
      (b.compileEach o before).Gives t () u → .entered source entry ∈ u.events →
        ∃ x, b.Compiles scope options s x ∧ x.options.source = source ∧ x.entry = entry from
    hprefix sources [] s' (List.append_nil _).symm heach h
  intro before
  induction before using List.reverseRecOn with
  | nil =>
    intro after u _ hgives he
    obtain ⟨-, rfl⟩ := Step.gives_pure.1 hgives
    rw [ht] at he
    cases he
  | append_singleton before folder ih =>
    intro after u hsources hgives he
    obtain ⟨v, w, hbefore, hentry, hnil⟩ := gives_compileEach.1 hgives
    obtain ⟨-, rfl⟩ := Step.gives_pure.1 hnil
    rw [List.append_assoc] at hsources
    rcases enters_of_compileEntry hregistry hentry with rfl | ⟨x, henters, rfl⟩
    · exact ih _ _ hsources hbefore he
    · rcases x.exists_of_entered hregistry hb he with he | ⟨y, hy, hentered⟩
      · obtain ⟨canonical, -, -, hstart⟩ := henters.entry
        rw [hstart] at he
        exact ih _ _ hsources hbefore ((List.mem_append.1 he).resolve_right fun hlast => by
          cases List.mem_singleton.1 hlast)
      · exact ⟨y, ⟨o, sources, t, before, folder, after, v, x, hopens, hsources, hbefore, henters,
          hy⟩, hentered⟩

end ElementBuild
