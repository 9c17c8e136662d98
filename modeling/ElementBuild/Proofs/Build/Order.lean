/-
# The order of the modules

A component adds its module to the list of modules when all that it refers to has been
handled.  A reference finds its component recorded in two cases: the component was compiled
before, so its module is in the list, or it is still being compiled, so the reference is on
the way back to it.  Where components do not refer to each other in circles, the second case
does not arise, and each module comes after those of the components that its own refers to
(`Bundler.lists_references_first`).
-/
import ElementBuild.Proofs.Build.Compilations

namespace ElementBuild

/-- Delivering a module adds it to the end of the list. -/
theorem Component.bundles_of_deliver {entry output : Path} {o : CompileOutput} {s s' : Session}
    (h : (deliver entry output o).Gives s () s') :
    ∃ own : Bundle, s'.bundles = s.bundles ++ [own] ∧ own.output = output.join ⟨moduleFile⟩ := by
  unfold deliver at h
  dsimp only at h
  rw [Step.gives_bind] at h
  obtain ⟨_, t, hwrite, h⟩ := h
  obtain ⟨files, -, rfl⟩ := Step.gives_write.1 (Step.gives_during.1 hwrite)
  split at h
  · simp only [Step.gives_bind, Step.gives_during, Step.gives_write, Step.gives_pure,
      Step.gives_record] at h
    obtain ⟨_, t, ⟨files', -, rfl⟩, _, _, ⟨rfl, rfl⟩, rfl⟩ := h
    exact ⟨_, rfl, rfl⟩
  · simp only [Step.gives_bind, Step.gives_pure, Step.gives_record] at h
    obtain ⟨_, _, ⟨rfl, rfl⟩, rfl⟩ := h
    exact ⟨_, rfl, rfl⟩

namespace Session

/-- A component has been compiled: its module is in the list. -/
def IsDone (s : Session) (entry : Path) : Prop := ∃ m, s.HasModule entry m

theorem IsDone.congr {s : Session} {entry entry' : Path} (h : s.IsDone entry)
    (hsame : entry.same entry' = true) : s.IsDone entry' := by
  obtain ⟨m, hm⟩ := h
  exact ⟨m, hm.congr hsame⟩

/-- Components that were compiled for a link have been compiled. -/
def LinksDone (s : Session) : Prop :=
  ∀ l, .linked l ∈ s.events → l.isFirst = true → s.IsDone l.entry

namespace Linking

variable {destination : Path} {s s' : Session}

theorem isDone (h : Linking destination s s') (hwf : s.files.WellFormed) {entry : Path}
    (hdone : s.IsDone entry) : s'.IsDone entry := by
  obtain ⟨m, hm⟩ := hdone
  exact ⟨m, hm.mono h.grown (h.kept hwf).2⟩

theorem linksDone (h : Linking destination s s') (hwf : s.files.WellFormed) (hs : s.LinksDone) :
    s'.LinksDone := by
  intro l hl hfirst
  rcases h.linked hwf l hl with hold | hlinked
  · exact h.isDone hwf (hs l hold hfirst)
  · obtain ⟨m, hm, -⟩ := hlinked.module hfirst
    exact ⟨m, hm⟩

/-- **What a run records anew, it has compiled** when it ends. -/
theorem recorded_or_done (h : Linking destination s s') (hwf : s.files.WellFormed)
    (hs : s.LinksDone) {k d : Path} (hk : s'.builds.get? k = some d) :
    s.builds.get? k = some d ∨ s'.IsDone k := by
  rcases h.recorded hwf k d hk with hold | hrecorded
  · exact .inl hold
  · rcases hrecorded.reason with ⟨m, hm, -⟩ | ⟨f, hf, hsame, -⟩
    · exact .inr ⟨m, hm⟩
    · exact .inr ((h.linksDone hwf hs f hf.1 hf.2).congr hsame)

end Linking

/-- Compilations to a destination link components to what is recorded for them. -/
theorem passes_linking {b : Bundler} (hb : b.IsDiscreet) {destination : Path}
    (habsolute : destination.isAbsolute = true) :
    b.Passes destination (Linking destination) where
  copying := Linking.copying
  compiling := Linking.compiling
  entered := Linking.entered
  point := Linking.point
  reference depth c hbundler hdestination houtput draft _ htyped :=
    Linking.compileReference hdestination habsolute houtput
      (fun source paths => Linking.compile hb habsolute depth
        (show ({ c.options with source } : BuildOptions).destination = destination from hdestination)
        paths)
      (fun _ _ _ _ => Component.delivers_of_gives) draft (hbundler ▸ htyped)

end Session

namespace Bundler

variable {b : Bundler} {scope : Scope} {options : BuildOptions} {s s' : Session}

/-- In a build, a component refers to another; both are told by paths that lead to their
entry files. -/
def Refers (b : Bundler) (scope : Scope) (options : BuildOptions) (s s' : Session)
    (k k' : Path) : Prop :=
  ∃ x, b.Compiles scope options s x ∧ (∃ p, s'.files.canonical x.entry = .ok p ∧ p.same k = true) ∧
    ∃ r l t t', x.Links r l t t' ∧ l.entry.same k' = true

/-- What is known when a compilation starts: components that are recorded have been compiled,
or lead to the one that is about to be. -/
structure Awaits (b : Bundler) (scope : Scope) (options : BuildOptions) (s s' : Session)
    (x : Compilation b) : Prop where
  wellFormed : x.start.files.WellFormed
  links : x.start.LinksDone
  recorded : ∀ k d, x.start.builds.get? k = some d → x.start.IsDone k ∨
    ∃ q p, q.same k = true ∧ s'.files.canonical x.entry = .ok p ∧
      Relation.ReflTransGen (b.Refers scope options s s') q p

variable (hregistry : b.registry = .initial) (hb : b.IsDiscreet)
  {bundles : List Bundle} (hbuild : (b.build scope options).Gives s bundles s')
  (hwf : s.files.WellFormed)
include hregistry hb hbuild hwf

/-- The files of a compilation last to the end of the build. -/
theorem Compiles.files {x : Compilation b} (h : b.Compiles scope options s x) :
    x.start.files.WellFormed ∧ x.stop.files.WellFormed ∧ x.start.files.Grows s'.files ∧
      x.stop.files.Grows s'.files := by
  obtain ⟨⟨log, hstart⟩, hrun, hstop⟩ := h.spans hregistry hb hbuild
    (Session.Keeps.building.spans hb (fun _ _ => .of_eq rfl) _)
  obtain ⟨hwf₁, -⟩ := hstart hwf
  obtain ⟨hwf₂, hgrows⟩ := hrun hwf₁
  obtain ⟨-, hgrows'⟩ := hstop hwf₂
  exact ⟨hwf₁, hwf₂, trans_of FileTree.Grows hgrows hgrows', hgrows'⟩

/-- When a compilation of the top level starts, what is recorded has been compiled. -/
theorem awaits_of_enters {o : BuildOptions} {sources : List Path} {t u : Session}
    {x : Compilation b} (hopens : b.Opens options s scope o sources t) {before : List Path}
    (hbefore : (b.compileEach o before).Gives t () u) {source : Path}
    (henters : b.Enters { o with source } u x) (hx : b.Compiles scope options s x) :
    b.Awaits scope options s s' x := by
  obtain ⟨⟨log, rfl⟩, rfl⟩ := hopens.eq
  obtain ⟨hwf₁, -, hgrows, -⟩ := hx.files hregistry hb hbuild hwf
  have habsolute := Path.isAbsolute_absolutize s.files.current options.destination
  obtain ⟨canonical, hcanonical, hnone, hstart⟩ := henters.entry
  have hentry : ∀ source, (b.compileEntry { options with
      source, destination := Path.absolutize s.files.current.path options.destination }).Respects
        (Session.Linking (Path.absolutize s.files.current.path options.destination)) :=
    fun source => Session.Linking.compileEntry hb habsolute
  have hlinking := Step.Law.forM (P := Step.Respects (Session.Linking _)) hentry before _ _ _ hbefore
  have hnew : (start s log).LinksDone := fun l hl => absurd hl List.not_mem_nil
  have hextends := hstart ▸ Session.Extends.building.begun u canonical (x.output.join ⟨moduleFile⟩)
  have hfiles : x.start.files = u.files := by
    rw [hstart]
    rfl
  have hdone : ∀ k, u.IsDone k → x.start.IsDone k := by
    rintro k ⟨m, hm⟩
    exact ⟨m, hm.mono hextends (hfiles ▸ refl_of FileTree.Grows _)⟩
  refine ⟨hwf₁, fun l hl hfirst => ?_, fun k d hk => ?_⟩
  · refine hdone _ (hlinking.linksDone hwf hnew l ?_ hfirst)
    rw [hstart] at hl
    exact Session.Linking.mem_of_mem_append (fun _ h => by cases h) hl
  · rw [hstart, Session.begin, BuildCache.get?_register] at hk
    split at hk
    · refine .inr ⟨canonical, canonical, ‹_›, hgrows.canonical ?_, .refl⟩
      rw [hfiles]
      exact hcanonical
    · rcases hlinking.recorded_or_done hwf hnew hk with hold | hold
      · cases hold
      · exact .inl (hdone k hold)

variable (hreferred : ∀ k source entry, .begun k ∈ s'.events → .entered source entry ∈ s'.events →
  k.parent? = some source → s'.files.canonical entry = .ok k)
include hreferred

/-- What a component waits for, the components that are compiled for its links wait for,
besides itself. -/
theorem awaits_of_nests {x y : Compilation b} (hx : b.Compiles scope options s x)
    (hy : b.Compiles scope options s y) (hnests : x.Nests y)
    (h : b.Awaits scope options s s' x) : b.Awaits scope options s s' y := by
  obtain ⟨hwf₁, -, -, -⟩ := hy.files hregistry hb hbuild hwf
  obtain ⟨r, l, t, hlink, hfirst, hparent, hstart⟩ := hnests.link
  have hbegun : .begun l.entry ∈ s'.events := by
    refine hy.event_mem_of_start hregistry hb hbuild ?_
    rw [hstart]
    exact List.mem_append_right _ (List.mem_singleton_self _)
  have hkey := hreferred _ _ _ hbegun (hy.entered_mem hregistry hb hbuild) hparent
  have habsolute := Path.isAbsolute_absolutize s.files.current options.destination
  have hdestination := congrArg BuildOptions.destination (hx.start_start hregistry hb
    (Session.Extends.building.spans hb Session.Extends.pointed _)).2
  obtain ⟨hlinking, -⟩ := Compilation.start_link (Session.passes_linking hb habsolute) hb
    hdestination habsolute hlink
  have hextends : t.Extends y.start := by
    rw [hstart]
    exact trans_of Session.Extends (Session.Extends.building.begun t l.entry l.destination)
      (Session.Extends.building.log _ _)
  have hfiles : y.start.files = t.files := by
    rw [hstart]
    rfl
  have hdone : ∀ k, t.IsDone k → y.start.IsDone k := by
    rintro k ⟨m, hm⟩
    exact ⟨m, hm.mono hextends (hfiles ▸ refl_of FileTree.Grows _)⟩
  refine ⟨hwf₁, fun f hf hfirst' => ?_, fun k d hk => ?_⟩
  · refine hdone _ (hlinking.linksDone h.wellFormed h.links f ?_ hfirst')
    rw [hstart] at hf
    exact Session.Linking.mem_of_mem_append (fun _ h => by cases h) hf
  · rw [hstart] at hk
    change ((t.begin l.entry l.destination).builds).get? k = some d at hk
    rw [Session.begin, BuildCache.get?_register] at hk
    split at hk
    · exact .inr ⟨l.entry, l.entry, ‹_›, hkey, .refl⟩
    · rcases hlinking.recorded_or_done h.wellFormed h.links hk with hold | hold
      · rcases h.recorded k d hold with hold | ⟨q, p, hsame, hp, hleads⟩
        · exact .inl (hdone k (hlinking.isDone h.wellFormed hold))
        · refine .inr ⟨q, l.entry, hsame, hkey, hleads.tail ?_⟩
          exact ⟨x, hx, ⟨p, hp, Path.same_refl p⟩, r, l, t, y.stop, hlink, Path.same_refl _⟩
      · exact .inl (hdone k hold)

/-- **When a component starts to be compiled, what is recorded has been compiled, or leads to
it.** -/
theorem awaits_of_compiles {x : Compilation b} (h : b.Compiles scope options s x) :
    b.Awaits scope options s s' x := by
  obtain ⟨o, sources, t, before, source, after, u, top, hopens, rfl, hbefore, henters, hnests⟩ := h
  have hcompiles : ∀ {y}, Relation.ReflTransGen Compilation.Nests top y →
      b.Compiles scope options s y := fun hy =>
    ⟨o, _, t, before, source, after, u, top, hopens, rfl, hbefore, henters, hy⟩
  induction hnests with
  | refl => exact awaits_of_enters hregistry hb hbuild hwf hopens hbefore henters (hcompiles .refl)
  | tail hy hnested ih =>
    exact awaits_of_nests hregistry hb hbuild hwf hreferred (hcompiles hy)
      (hcompiles (hy.tail hnested)) hnested ih

/-- A component that is linked without a circle has been compiled then. -/
theorem isDone_of_links (hacyclic : ∀ k, ¬ Relation.TransGen (b.Refers scope options s s') k k)
    {x : Compilation b} (hx : b.Compiles scope options s x) {r : Reference} {l : ComponentLink}
    {t t' : Session} (hlink : x.Links r l t t') :
    Session.IsDone { t' with events := t'.events ++ [.linked l] } l.entry := by
  have hawaits := awaits_of_compiles hregistry hb hbuild hwf hreferred hx
  have habsolute := Path.isAbsolute_absolutize s.files.current options.destination
  have hdestination := congrArg BuildOptions.destination (hx.start_start hregistry hb
    (Session.Extends.building.spans hb Session.Extends.pointed _)).2
  obtain ⟨hbefore, hround, -⟩ := Compilation.start_link (Session.passes_linking hb habsolute) hb
    hdestination habsolute hlink
  have hwf₁ := (hbefore.kept hawaits.wellFormed).1
  have hlinks := hbefore.linksDone hawaits.wellFormed hawaits.links
  by_cases hfirst : l.isFirst = true
  · exact hround.linksDone hwf₁ hlinks l (List.mem_append_right _ (List.mem_singleton_self _)) hfirst
  · have hrecorded : ∃ d, t.builds.get? l.entry = some d := by
      obtain ⟨-, -, -, -, -, hgives⟩ := hlink
      obtain ⟨_, _, entry, -, -, hcase⟩ := ComponentContext.gives_link hgives
      rcases hcase with ⟨d, hd, rfl, -⟩ | ⟨d, -, rfl, -⟩
      · exact ⟨d, hd⟩
      · exact absurd rfl hfirst
    obtain ⟨d, hd⟩ := hrecorded
    rcases hbefore.recorded_or_done hawaits.wellFormed hawaits.links hd with hold | hdone
    · rcases hawaits.recorded _ d hold with hdone | ⟨q, p, hsame, hp, hleads⟩
      · exact hround.isDone hwf₁ (hbefore.isDone hawaits.wellFormed hdone)
      · -- the component is still being compiled, and refers to what leads to it
        refine absurd (Relation.TransGen.tail' hleads ?_) (hacyclic q)
        exact ⟨x, hx, ⟨p, hp, Path.same_refl p⟩, r, l, t, t', hlink, (Path.same_comm _ _).trans hsame⟩
    · exact hround.isDone hwf₁ hdone

/-- **Each component is listed after all that it refers to**, if components do not refer to
each other in circles and each reference leads to the entry file of its component. -/
theorem lists_references_first
    (hacyclic : ∀ k, ¬ Relation.TransGen (b.Refers scope options s s') k k)
    {x : Compilation b} (hx : b.Compiles scope options s x) :
    ∃ before own after, bundles = before ++ own :: after ∧
      x.stop.bundles = before ++ [own] ∧ own.output = x.output.join ⟨moduleFile⟩ ∧
      ∀ r l t t', x.Links r l t t' → ∃ m ∈ before, s'.HasModule l.entry m := by
  obtain ⟨hwf₁, -, -, hgrows⟩ := hx.files hregistry hb hbuild hwf
  have hr := Session.Extends.building.spans hb Session.Extends.pointed
    (Path.absolutize s.files.current.path options.destination)
  have hdestination := congrArg BuildOptions.destination (hx.start_start hregistry hb hr).2
  have habsolute := Path.isAbsolute_absolutize s.files.current options.destination
  have hstop := hx.stop_stop hregistry hb hr hbuild
  obtain ⟨own, hown, houtput⟩ := Component.bundles_of_deliver x.course.delivers
  obtain ⟨after, hafter⟩ := hstop.bundles
  obtain ⟨-, -, -, -, -, rfl⟩ := gives_build.1 hbuild
  refine ⟨x.course.finished.bundles, own, after, ?_, hown, houtput, fun r l t t' hlink => ?_⟩
  · rw [← hafter, hown]
    exact List.append_assoc _ _ _
  · obtain ⟨m, hm⟩ := isDone_of_links hregistry hb hbuild hwf hreferred hacyclic hx hlink
    have hfollows := Compilation.follows hr.toPasses hb hdestination habsolute
    have hlater := trans_of Session.Extends (trans_of Session.Extends
      (Compilation.start_link hr.toPasses hb hdestination habsolute hlink).2.2 hfollows.translated)
      hfollows.finished
    refine ⟨m, hlater.bundles.subset hm.recorded, ?_⟩
    refine hm.mono (trans_of Session.Extends hlater (trans_of Session.Extends hfollows.stop hstop)) ?_
    have hkeeps := (Session.Keeps.building.spans hb (fun _ _ => .of_eq rfl)
      (Path.absolutize s.files.current.path options.destination)).toPasses
    obtain ⟨hbefore, hround, -⟩ := Compilation.start_link hkeeps hb hdestination habsolute hlink
    have hkept := Compilation.link_stop hkeeps hb hdestination habsolute hlink
    exact trans_of FileTree.Grows (hkept (hround (hbefore hwf₁).1).1).2 hgrows

end Bundler

/-- Two components, one of which refers to the other. -/
def neighbours : FileTree where
  entries := [
    (["a_a"], .folder), (["b_b"], .folder),
    (["a_a", "index.esm"], .file (.text "import '../b_b/index.esm'\nexport default A")),
    (["b_b", "index.esm"], .file (.text "export default B"))]

set_option maxRecDepth 100000 in
theorem neighbours_run :
    let r : Except Failure (List Bundle) × Session :=
      (Bundler.build {} .one { source := ⟨"/a_a"⟩, destination := ⟨"/o"⟩ }).run.run
        { files := neighbours }
    r.1.toOption.map (·.map (·.output)) = some [⟨"/o/b_b/index.js"⟩, ⟨"/o/a_a/index.js"⟩] ∧
      r.2.events = [
        .begun ⟨"/a_a/index.esm"⟩, .entered ⟨"/a_a"⟩ ⟨"/a_a/index.esm"⟩,
        .begun ⟨"/b_b/index.esm"⟩, .entered ⟨"/b_b"⟩ ⟨"/b_b/index.esm"⟩,
        .linked ⟨⟨"/o/a_a"⟩, "../b_b/index.esm", ⟨"/b_b/index.esm"⟩, ⟨"/o/b_b/index.js"⟩, true⟩] ∧
      r.2.files.canonical ⟨"/a_a/index.esm"⟩ = .ok ⟨"/a_a/index.esm"⟩ ∧
      r.2.files.canonical ⟨"/b_b/index.esm"⟩ = .ok ⟨"/b_b/index.esm"⟩ := by
  decide +kernel

theorem neighbours_gives : ∃ bundles s',
    (Bundler.build {} .one { source := ⟨"/a_a"⟩, destination := ⟨"/o"⟩ }).Gives
      { files := neighbours } bundles s' ∧
    bundles.map (·.output) = [⟨"/o/b_b/index.js"⟩, ⟨"/o/a_a/index.js"⟩] ∧
    s'.events = [
      .begun ⟨"/a_a/index.esm"⟩, .entered ⟨"/a_a"⟩ ⟨"/a_a/index.esm"⟩,
      .begun ⟨"/b_b/index.esm"⟩, .entered ⟨"/b_b"⟩ ⟨"/b_b/index.esm"⟩,
      .linked ⟨⟨"/o/a_a"⟩, "../b_b/index.esm", ⟨"/b_b/index.esm"⟩, ⟨"/o/b_b/index.js"⟩, true⟩] ∧
    s'.files.canonical ⟨"/a_a/index.esm"⟩ = .ok ⟨"/a_a/index.esm"⟩ ∧
    s'.files.canonical ⟨"/b_b/index.esm"⟩ = .ok ⟨"/b_b/index.esm"⟩ := by
  obtain ⟨houtputs, hrest⟩ := neighbours_run
  obtain ⟨bundles, hbundles, houtputs⟩ := Option.map_eq_some_iff.1 houtputs
  exact ⟨bundles, _, Step.gives_of_run hbundles, houtputs, hrest⟩

/-- The component that is referred to is listed first. -/
theorem lists_first_of_neighbours : ∃ bundles s',
    (Bundler.build {} .one { source := ⟨"/a_a"⟩, destination := ⟨"/o"⟩ }).Gives
      { files := neighbours } bundles s' ∧
    bundles.map (·.output) = [⟨"/o/b_b/index.js"⟩, ⟨"/o/a_a/index.js"⟩] ∧
    ∃ x : Compilation {},
      Bundler.Compiles {} .one { source := ⟨"/a_a"⟩, destination := ⟨"/o"⟩ }
        { files := neighbours } x ∧
      ∃ before own after, bundles = before ++ own :: after ∧ x.stop.bundles = before ++ [own] ∧
        own.output = x.output.join ⟨moduleFile⟩ ∧
        ∀ r l t t', x.Links r l t t' → ∃ m ∈ before, s'.HasModule l.entry m := by
  obtain ⟨bundles, s', hbuild, houtputs, hevents, ha, hb⟩ := neighbours_gives
  have hdiscreet := (Bundler.isPlain_default).isDiscreet
  have hwf : ({ files := neighbours } : Session).files.WellFormed := by decide
  generalize hs : ({ files := neighbours } : Session) = s at hbuild hwf ⊢
  have hcurrent : Path.absolutize s.files.current.path ⟨"/o"⟩ = ⟨"/o"⟩ := by
    rw [← hs]
    decide
  obtain ⟨m, rest, rfl⟩ : ∃ m rest, bundles = m :: rest :=
    List.exists_cons_of_ne_nil fun h => by simp [h] at houtputs
  obtain ⟨x, hx, -, -⟩ := Bundler.exists_compiles rfl hbuild
  refine ⟨m :: rest, s', hbuild, houtputs, x, hx, ?_⟩
  refine Bundler.lists_references_first rfl hdiscreet hbuild hwf
    (fun k source entry hk hentered hparent => ?_) (fun k hcircle => ?_) hx
  · rw [hevents] at hk hentered
    simp only [List.mem_cons, List.not_mem_nil, or_false, reduceCtorEq, false_or,
      Event.begun.injEq, Event.entered.injEq] at hk hentered
    rcases hk with rfl | rfl
    · rcases hentered with ⟨rfl, rfl⟩ | ⟨rfl, rfl⟩
      · exact ha
      · exact absurd hparent (by decide)
    · rcases hentered with ⟨rfl, rfl⟩ | ⟨rfl, rfl⟩
      · exact absurd hparent (by decide)
      · exact hb
  · -- the only reference leads from the one component to the other
    have hrefers : ∀ k k', Bundler.Refers {} .one
        { source := ⟨"/a_a"⟩, destination := ⟨"/o"⟩ } s s' k k' →
        (Path.mk "/a_a/index.esm").same k = true ∧ (Path.mk "/b_b/index.esm").same k' = true := by
      rintro k k' ⟨y, hy, ⟨p, hp, hsame⟩, r, l, t, t', hlink, hsame'⟩
      have hlinked := hy.linked_mem rfl hdiscreet hbuild hlink
      have hentered := hy.entered_mem rfl hdiscreet hbuild
      rw [hevents] at hlinked hentered
      simp only [List.mem_cons, List.not_mem_nil, or_false, reduceCtorEq, false_or,
        Event.linked.injEq, Event.entered.injEq] at hlinked hentered
      subst hlinked
      refine ⟨?_, hsame'⟩
      rcases hentered with ⟨-, hentry⟩ | ⟨hsource, -⟩
      · rw [hentry, ha] at hp
        exact Except.ok.inj hp ▸ hsame
      · have hdestination := congrArg BuildOptions.destination (hy.start_start rfl hdiscreet
          (Session.Extends.building.spans hdiscreet Session.Extends.pointed _)).2
        have hname : some y.name = some "b_b" :=
          (hsource ▸ y.named).symm.trans (by decide : Path.fileName? ⟨"/b_b"⟩ = some "b_b")
        have houtput : (⟨"/o/a_a"⟩ : Path) = y.options.destination.join ⟨y.name⟩ := hlink.output
        rw [hdestination, Option.some.inj hname] at houtput
        change ⟨"/o/a_a"⟩ = (Path.absolutize s.files.current.path ⟨"/o"⟩).join ⟨"b_b"⟩ at houtput
        rw [hcurrent] at houtput
        exact absurd houtput (by decide)
    obtain ⟨k₁, hfirst, -⟩ := Relation.TransGen.head'_iff.1 hcircle
    obtain ⟨k₂, -, hlast⟩ := Relation.TransGen.tail'_iff.1 hcircle
    have hone := (hrefers _ _ hfirst).1
    have htwo := (hrefers _ _ hlast).2
    rw [Path.same, beq_iff_eq] at hone htwo
    exact absurd (hone.trans htwo.symm) (by decide)

end ElementBuild
