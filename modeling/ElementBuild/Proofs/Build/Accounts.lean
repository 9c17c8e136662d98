/-
# What a build leaves in its cache

A component is recorded while it is compiled.  It stays recorded if the compilation ends
well, and is forgotten if it fails, so a failure leaves nothing behind but what was
compiled before it (`accounts_of_compileEntry`).

This is said of all runs, those that fail included.  A run begins components and compiles
some of them for a link; its events tell which.
-/
import ElementBuild.Proofs.Build.Attempts
import ElementBuild.Proofs.Build.Cache
import Mathlib.Data.List.Pairwise

namespace ElementBuild

namespace Event

/-- The component that is begun. -/
def begun? : Event → Option Path
  | .begun entry => some entry
  | _ => none

/-- The component that was compiled for a link, and its destination. -/
def compiled? : Event → Option (Path × Path)
  | .linked l => if l.isFirst then some (l.entry, l.destination) else none
  | _ => none

/-- The components that are begun. -/
def beginnings (es : List Event) : List Path := es.filterMap begun?

/-- The components that were compiled for a link, with their destinations. -/
def compilations (es : List Event) : List (Path × Path) := es.filterMap compiled?

@[simp] theorem beginnings_append (es es' : List Event) :
    beginnings (es ++ es') = beginnings es ++ beginnings es' :=
  List.filterMap_append

@[simp] theorem compilations_append (es es' : List Event) :
    compilations (es ++ es') = compilations es ++ compilations es' := List.filterMap_append

theorem mem_beginnings {es : List Event} {k : Path} : k ∈ beginnings es ↔ .begun k ∈ es := by
  rw [beginnings, List.mem_filterMap]
  constructor
  · rintro ⟨e, he, hk⟩
    cases e <;> simp only [begun?, reduceCtorEq] at hk
    obtain rfl := Option.some.inj hk
    exact he
  · exact fun h => ⟨_, h, rfl⟩

theorem beginnings_singleton {e : Event} (h : e.begun? = none) : beginnings [e] = [] :=
  List.filterMap_cons_none h

theorem compilations_singleton {e : Event} (h : e.compiled? = none) : compilations [e] = [] :=
  List.filterMap_cons_none h

end Event

open Event (beginnings compilations)

/-! ### Accounts -/

/-- What is in a cache after a run with some events, that was in another cache before.
`own` lists what the run compiled without a link. -/
structure BuildCache.Accounts (ok : Bool) (own : List (Path × Path)) (c : BuildCache)
    (es : List Event) (c' : BuildCache) : Prop where
  /-- What was compiled is recorded before what was there, which does not change. -/
  entries : ∃ new, c'.entries = new ++ c.entries ∧ new.Perm (own ++ compilations es)
  fresh : ∀ k ∈ beginnings es, c.get? k = none
  once : (beginnings es).Pairwise fun k k' => k.same k' = false
  known : ∀ x ∈ own ++ compilations es, x.1 ∈ beginnings es
  settled : ok = true → ∀ k ∈ beginnings es, ∃ x ∈ own ++ compilations es, x.1 = k

namespace BuildCache.Accounts

variable {ok : Bool} {own : List (Path × Path)} {c c₁ c₂ : BuildCache} {es es' : List Event}

theorem of_quiet (hbegun : beginnings es = []) (hcompiled : compilations es = []) :
    c.Accounts ok [] es c := by
  refine ⟨⟨[], rfl, ?_⟩, ?_, ?_, ?_, ?_⟩
  · simp [hcompiled]
  all_goals simp [hbegun, hcompiled]

theorem mem_entries (h : c.Accounts ok own es c₁) {x : Path × Path} :
    x ∈ c₁.entries ↔ x ∈ own ++ compilations es ∨ x ∈ c.entries := by
  obtain ⟨new, hentries, hperm⟩ := h.entries
  rw [hentries, List.mem_append, hperm.mem_iff]

/-- A component that was begun is recorded if it was compiled, and forgotten if not. -/
theorem get?_eq_none_iff (h : c.Accounts ok own es c₁) {k : Path} (hk : k ∈ beginnings es) :
    c₁.get? k = none ↔ ∀ x ∈ own ++ compilations es, x.1 ≠ k := by
  rw [get?_eq_none]
  constructor
  · rintro hnone x hx rfl
    have hsame := hnone x (h.mem_entries.2 (.inl hx))
    rw [Path.same_refl] at hsame
    cases hsame
  · intro hne x hx
    rcases h.mem_entries.1 hx with hx | hx
    · have : Std.Symm fun p q : Path => p.same q = false :=
        ⟨fun p q hpq => (Path.same_comm q p).trans hpq⟩
      exact h.once.forall (h.known x hx) hk (hne x hx)
    · exact get?_eq_none.1 (h.fresh k hk) x hx

/-- What was recorded before keeps its destination. -/
theorem get?_eq_some (h : c.Accounts ok own es c₁) {k d : Path} (hk : c.get? k = some d) :
    c₁.get? k = some d := by
  obtain ⟨new, hentries, hperm⟩ := h.entries
  have hnew : new.find? (fun e => e.1.same k) = none := by
    refine List.find?_eq_none.2 fun x hx hsame => ?_
    have hfresh := h.fresh x.1 (h.known x (hperm.mem_iff.1 hx))
    rw [get?_congr c hsame, hk] at hfresh
    cases hfresh
  rw [get?, hentries, List.find?_append, hnew, Option.none_or]
  exact hk

theorem trans (h₁ : c.Accounts true [] es c₁) (h₂ : c₁.Accounts ok own es' c₂) :
    c.Accounts ok own (es ++ es') c₂ := by
  obtain ⟨new₁, hentries₁, hperm₁⟩ := h₁.entries
  obtain ⟨new₂, hentries₂, hperm₂⟩ := h₂.entries
  rw [List.nil_append] at hperm₁
  have hmem : ∀ x, x ∈ compilations es → x ∈ c₁.entries := fun x hx =>
    h₁.mem_entries.2 (.inl hx)
  have hcompiled : ∀ x, x ∈ own ++ compilations (es ++ es') ↔
      x ∈ compilations es ∨ x ∈ own ++ compilations es' := by
    intro x
    rw [Event.compilations_append, List.mem_append, List.mem_append, List.mem_append, or_left_comm]
  refine ⟨⟨new₂ ++ new₁, ?_, ?_⟩, fun k hk => ?_, ?_, fun x hx => ?_, fun hok k hk => ?_⟩
  · rw [hentries₂, hentries₁, List.append_assoc]
  · rw [Event.compilations_append]
    exact (hperm₂.append hperm₁).trans (by
      rw [List.append_assoc]
      exact List.perm_append_comm.append_left own)
  · rw [Event.beginnings_append, List.mem_append] at hk
    rcases hk with hk | hk
    · exact h₁.fresh k hk
    · refine get?_eq_none.2 fun x hx => ?_
      exact get?_eq_none.1 (h₂.fresh k hk) x (h₁.mem_entries.2 (.inr hx))
  · rw [Event.beginnings_append]
    refine List.pairwise_append.2 ⟨h₁.once, h₂.once, fun k hk k' hk' => ?_⟩
    obtain ⟨x, hx, rfl⟩ := h₁.settled rfl k hk
    exact get?_eq_none.1 (h₂.fresh k' hk') x (hmem x hx)
  · rw [Event.beginnings_append, List.mem_append]
    exact ((hcompiled x).1 hx).imp (h₁.known x) (h₂.known x)
  · rw [Event.beginnings_append, List.mem_append] at hk
    rcases hk with hk | hk
    · obtain ⟨x, hx, rfl⟩ := h₁.settled rfl k hk
      exact ⟨x, (hcompiled x).2 (.inl hx), rfl⟩
    · obtain ⟨x, hx, rfl⟩ := h₂.settled hok k hk
      exact ⟨x, (hcompiled x).2 (.inr hx), rfl⟩

/-- A component that was begun before, and compiled for a link, is no longer compiled
without one. -/
theorem link {l : ComponentLink} (h : c.Accounts true [(l.entry, l.destination)] es c₁)
    (hfirst : l.isFirst = true) (ok : Bool) : c.Accounts ok [] (es ++ [.linked l]) c₁ := by
  have hcompiled : compilations [Event.linked l] = [(l.entry, l.destination)] :=
    List.filterMap_cons_some (if_pos hfirst)
  have hbegun : beginnings (es ++ [.linked l]) = beginnings es := by
    rw [Event.beginnings_append, Event.beginnings_singleton rfl, List.append_nil]
  have hperm : ([(l.entry, l.destination)] ++ compilations es).Perm
      ([] ++ compilations (es ++ [.linked l])) := by
    rw [List.nil_append, Event.compilations_append, hcompiled]
    exact List.perm_append_comm
  obtain ⟨new, hentries, hnew⟩ := h.entries
  refine ⟨⟨new, hentries, hnew.trans hperm⟩, hbegun ▸ h.fresh, hbegun ▸ h.once, fun x hx => ?_,
    fun _ k hk => ?_⟩
  · exact hbegun ▸ h.known x (hperm.mem_iff.2 hx)
  · obtain ⟨x, hx, rfl⟩ := h.settled rfl k (hbegun ▸ hk)
    exact ⟨x, hperm.mem_iff.1 hx, rfl⟩

/-- What is begun once a component is recorded is another component. -/
theorem others_of_register {entry destination : Path} (hnone : c.get? entry = none)
    (h : (c.register entry destination).Accounts ok own es c₁) :
    ∀ k ∈ beginnings es, entry.same k = false ∧ c.get? k = none := by
  intro k hk
  have hfresh := get?_eq_none.1 (h.fresh k hk)
  rw [entries_register hnone] at hfresh
  exact ⟨hfresh _ (List.mem_cons_self ..), get?_eq_none.2 fun e he =>
    hfresh e (List.mem_cons_of_mem _ he)⟩

/-- A component is recorded, and a run compiles more of them. -/
theorem of_register {entry destination : Path} (hnone : c.get? entry = none)
    (h : (c.register entry destination).Accounts ok [] es c₁) :
    c.Accounts ok [(entry, destination)] (.begun entry :: es) c₁ := by
  obtain ⟨new, hentries, hnew⟩ := h.entries
  have hothers := h.others_of_register hnone
  have hcompiled : compilations (.begun entry :: es) = compilations es :=
    List.filterMap_cons_none rfl
  have hbegun : beginnings (.begun entry :: es) = entry :: beginnings es :=
    List.filterMap_cons_some rfl
  rw [entries_register hnone] at hentries
  rw [List.nil_append] at hnew
  refine ⟨⟨new ++ [(entry, destination)], ?_, ?_⟩, ?_, ?_, ?_, ?_⟩
  · rw [hentries, List.append_assoc, List.singleton_append]
  · rw [hcompiled]
    exact (hnew.append_right _).trans List.perm_append_comm
  · rw [hbegun]
    intro k hk
    rcases List.mem_cons.1 hk with rfl | hk
    · exact hnone
    · exact (hothers k hk).2
  · rw [hbegun]
    exact List.pairwise_cons.2 ⟨fun k hk => (hothers k hk).1, h.once⟩
  · rw [hbegun, hcompiled, List.singleton_append]
    intro x hx
    rcases List.mem_cons.1 hx with rfl | hx
    · exact List.mem_cons_self ..
    · exact List.mem_cons_of_mem _ (h.known x hx)
  · rw [hbegun, hcompiled, List.singleton_append]
    intro hok k hk
    rcases List.mem_cons.1 hk with rfl | hk
    · exact ⟨_, List.mem_cons_self .., rfl⟩
    · obtain ⟨x, hx, rfl⟩ := h.settled hok k hk
      exact ⟨x, List.mem_cons_of_mem _ hx, rfl⟩

/-- The component is forgotten if the run fails. -/
theorem evict {entry destination : Path} (hnone : c.get? entry = none)
    (h : (c.register entry destination).Accounts false [] es c₁) :
    c.Accounts false [] (.begun entry :: es) (c₁.evict entry) := by
  obtain ⟨new, hentries, hnew⟩ := h.entries
  have hothers := h.others_of_register hnone
  have hbegun := h.of_register hnone
  have hcompiled : compilations (.begun entry :: es) = compilations es :=
    List.filterMap_cons_none rfl
  rw [List.nil_append] at hnew
  have hkept : ∀ x ∈ new, (!x.1.same entry) = true := by
    intro x hx
    rw [Path.same_comm, (hothers _ (h.known x (hnew.mem_iff.1 hx))).1, Bool.not_false]
  have hbefore : ∀ x ∈ c.entries, (!x.1.same entry) = true := by
    intro x hx
    rw [get?_eq_none.1 hnone x hx, Bool.not_false]
  refine ⟨⟨new, ?_, ?_⟩, hbegun.fresh, hbegun.once, fun x hx => ?_, fun hok => (by cases hok)⟩
  · rw [BuildCache.evict, hentries, entries_register hnone, List.filter_append,
      List.filter_eq_self.2 hkept, List.filter_cons_of_neg, List.filter_eq_self.2 hbefore]
    rw [Path.same_refl]
    simp
  · rw [hcompiled, List.nil_append]
    exact hnew
  · exact hbegun.known x (List.mem_append_right _ hx)

end BuildCache.Accounts

/-! ### Runs -/

/-- The cache after a run holds what the run compiled, and what was there before. -/
def Session.Accounts (ok : Bool) (s s' : Session) : Prop :=
  ∃ es, s'.events = s.events ++ es ∧ s.builds.Accounts ok [] es s'.builds

instance : Step.IsOutcome Session.Accounts where
  refl ok s := ⟨[], (List.append_nil _).symm, .of_quiet rfl rfl⟩
  trans := by
    rintro ok s t u ⟨es, hevents, h⟩ ⟨es', hevents', h'⟩
    exact ⟨es ++ es', by rw [hevents', hevents, List.append_assoc], h.trans h'⟩

theorem Session.Accounts.of_quiet {s s' : Session} {ok : Bool} {es : List Event}
    (hevents : s'.events = s.events ++ es) (hbuilds : s'.builds = s.builds)
    (hbegun : beginnings es = []) (hcompiled : compilations es = []) : Accounts ok s s' :=
  ⟨es, hevents, hbuilds ▸ .of_quiet hbegun hcompiled⟩

namespace Session.Accounts

theorem quiet : Step.Law.Quiet (Step.Ends Session.Accounts) where
  modify f hbuilds hevents := Step.Ends.modify fun s =>
    of_quiet (by rw [hevents, List.append_nil]) (hbuilds s) rfl rfl
  followed f := Step.Ends.modify fun s => of_quiet rfl rfl rfl rfl
  pointed p := Step.Ends.modify fun s => of_quiet rfl rfl rfl rfl

/-- A component that is not recorded is compiled. -/
theorem of_attempt {entry : Path} (destination : Path) {x : Step Unit}
    (hx : x.Ends Session.Accounts) {s : Session} (hnone : s.builds.get? entry = none) :
    let r : Except Failure Unit × Session := (Step.attempt entry destination x).run.run s
    ∃ es, r.2.events = s.events ++ es ∧ s.builds.Accounts r.1.isOk
      (if r.1.isOk then [(entry, destination)] else []) es r.2.builds := by
  intro r
  obtain ⟨es, hevents, haccounts⟩ := hx (s.begin entry destination)
  have hr : r = _ := Step.run_attempt entry destination x s
  rcases hrun : (x.run.run (s.begin entry destination) : Except Failure Unit × Session) with ⟨e | u, t⟩
  · rw [hrun] at hevents haccounts hr
    rw [hr]
    refine ⟨.begun entry :: es, ?_, haccounts.evict hnone⟩
    rw [hevents]
    exact List.append_assoc _ _ _
  · rw [hrun] at hevents haccounts hr
    rw [hr]
    refine ⟨.begun entry :: es, ?_, haccounts.of_register hnone⟩
    rw [hevents]
    exact List.append_assoc _ _ _

/-- A reference is linked to a component, which is compiled for it unless it is
recorded. -/
theorem of_link (c : ComponentContext) {build : ComponentBuild}
    (hbuild : ∀ source paths, (build { c.options with source } paths).Ends Session.Accounts)
    (r : Reference) (s : Session) :
    match ((c.link build r).run.run s : Except Failure ComponentLink × Session) with
    | (.error _, t) => Accounts false s t
    | (.ok l, t) => ∃ es, t.events = s.events ++ es ∧ s.builds.Accounts true
        (if l.isFirst then [(l.entry, l.destination)] else []) es t.builds := by
  have hcases := c.runs_link build r s
  generalize ((c.link build r).run.run s : Except Failure ComponentLink × Session) = x at hcases ⊢
  cases hcases with
  | fails e h =>
    rw [h]
    exact of_quiet (List.append_nil _).symm rfl rfl rfl
  | finds entry destination h =>
    rw [h]
    exact ⟨[], (List.append_nil _).symm, .of_quiet rfl rfl⟩
  | compiles entry destination source note paths hsource hnone y hy h =>
    have hattempt := of_attempt destination
      ((quiet.outward.tell note).bind fun _ => hbuild source paths) hnone
    rw [hy] at hattempt
    obtain ⟨e | u, t⟩ := y
    · rw [h]
      exact hattempt
    · rw [h]
      exact hattempt

/-- **A reference to a component records it if it is compiled for the reference.** -/
theorem compileReference (c : ComponentContext) {build : ComponentBuild}
    (hbuild : ∀ source paths, (build { c.options with source } paths).Ends Session.Accounts)
    (draft : Text.Draft) (r : Reference) :
    (c.compileReference build draft r).Ends Session.Accounts := by
  intro s
  have hlink := of_link c hbuild r s
  refine Step.Ends.of_bind (fun e t hrun => ?_) fun l t hrun => ?_
  · rw [hrun] at hlink
    exact hlink
  · unfold Step.Gives at hrun
    rw [hrun] at hlink
    obtain ⟨es, hevents, haccounts⟩ := hlink
    rw [Step.run_bind_ok (a := ⟨⟩) (Step.gives_trace.2 rfl), Step.edit, Step.run_ofExcept]
    refine ⟨es ++ [.linked l], ?_, ?_⟩
    · change t.events ++ _ = _
      rw [hevents, List.append_assoc]
    · split at haccounts
      · exact haccounts.link ‹_› _
      · exact haccounts.trans (.of_quiet rfl (Event.compilations_singleton (if_neg ‹_›)))

/-- **A whole compilation records what it compiles.** -/
theorem compile {b : Bundler} (hb : b.IsTidy) (depth : Nat) (options : BuildOptions)
    (paths : List Path) : (Component.compile b depth options paths).Ends Session.Accounts := by
  induction depth generalizing options paths with
  | zero => exact Step.Law.giveUp (P := Step.Ends Session.Accounts)
  | succ depth ih =>
    exact quiet.compiling.compileWith (hb _ quiet.outward) options paths
      (fun entry => Step.Ends.modify fun s => of_quiet rfl rfl rfl rfl)
      (fun _ code draft ref _ => quiet.copying.copyPlain _ code draft ref)
      (fun pass _ => quiet.copying.mappingPass pass)
      (quiet.copying.toNoting.point quiet.pointed)
      fun name draft ref _ => compileReference _ (fun _ paths => ih _ paths) draft ref

end Session.Accounts

/-! ### The top level -/

/-- **A build of the top level leaves in the cache what was there, what was compiled for a
link, and its own component if it ends well.** -/
theorem accounts_of_compileEntry {b : Bundler} (hb : b.IsTidy) (options : BuildOptions)
    (s : Session) :
    let r : Except Failure Unit × Session := (b.compileEntry options).run.run s
    let own := if r.1.isOk then (Bundler.pending? options s).toList else []
    ∃ es, r.2.events = s.events ++ es ∧ s.builds.Accounts r.1.isOk own es r.2.builds := by
  intro r own
  have hcases := b.runs_compileEntry options s
  change b.Runs options s r at hcases
  have hnothing : ∀ ok, ∃ es, s.events = s.events ++ es ∧ s.builds.Accounts ok [] es s.builds :=
    fun ok => ⟨[], (List.append_nil _).symm, .of_quiet rfl rfl⟩
  cases hcases with
  | fails e h =>
    simp only [own, h]
    exact hnothing false
  | finds hpending h =>
    simp only [own, h, hpending]
    exact hnothing true
  | misses paths hentry hpending h =>
    simp only [own, hpending, Option.toList_none, ite_self]
    rw [h]
    exact Session.Accounts.compile hb _ _ paths s
  | compiles paths entry destination hpending h =>
    simp only [own, hpending]
    rw [h]
    exact Session.Accounts.of_attempt _ (Session.Accounts.compile hb _ _ paths)
      (Bundler.exists_of_pending hpending).1

/-- A build of the top level that fails forgets its component. -/
theorem get?_of_compileEntry_fails {b : Bundler} {options : BuildOptions} {s : Session}
    (hfails : ((b.compileEntry options).run.run s : Except Failure Unit × Session).1.isOk = false)
    {x : Path × Path} (hx : Bundler.pending? options s = some x) :
    ((b.compileEntry options).run.run s : Except Failure Unit × Session).2.builds.get? x.1 =
      none := by
  have hcases := b.runs_compileEntry options s
  generalize ((b.compileEntry options).run.run s : Except Failure Unit × Session) = r at hfails hcases ⊢
  cases hcases with
  | fails e h =>
    rw [h]
    exact (Bundler.exists_of_pending hx).1
  | finds hpending h =>
    rw [h] at hfails
    cases hfails
  | misses paths hentry hpending h =>
    rw [hpending] at hx
    cases hx
  | compiles paths entry destination hpending h =>
    obtain rfl := Option.some.inj (hpending.symm.trans hx)
    rw [Step.run_attempt] at h
    split at h
    · rw [h] at hfails
      cases hfails
    · rw [h]
      exact BuildCache.get?_evict _ _

/-- **After a build of the top level, the cache has what it had, unchanged, with one entry
for each component that was compiled for a link, and one for the component of the top
level if that was not there and the build ended well.**  Whatever else was begun is
forgotten: what failed, and all components around it. -/
theorem cache_of_compileEntry {b : Bundler} (hb : b.IsTidy) (options : BuildOptions)
    (s : Session) :
    let r : Except Failure Unit × Session := (b.compileEntry options).run.run s
    let own := if r.1.isOk then (Bundler.pending? options s).toList else []
    ∃ es, r.2.events = s.events ++ es ∧
      (∃ new, r.2.builds.entries = new ++ s.builds.entries ∧ new.Perm (own ++ compilations es)) ∧
      (∀ k d, s.builds.get? k = some d → r.2.builds.get? k = some d) ∧
      (∀ k, .begun k ∈ es → s.builds.get? k = none ∧
        (r.2.builds.get? k = none ↔ ∀ x ∈ own ++ compilations es, x.1 ≠ k)) ∧
      (r.1.isOk = false → ∀ x, Bundler.pending? options s = some x →
        r.2.builds.get? x.1 = none) := by
  intro r own
  obtain ⟨es, hevents, h⟩ := accounts_of_compileEntry hb options s
  refine ⟨es, hevents, h.entries, fun k d hk => h.get?_eq_some hk, fun k hk => ?_,
    fun hfails x hx => get?_of_compileEntry_fails hfails hx⟩
  have hk := Event.mem_beginnings.2 hk
  exact ⟨h.fresh k hk, h.get?_eq_none_iff hk⟩

/-- A component with two others, the second of which defines no element. -/
def brokenNeighbour : FileTree where
  entries := [
    (["a_a"], .folder), (["b_b"], .folder), (["c_c"], .folder),
    (["a_a", "index.esm"],
      .file (.text "import '../b_b/index.esm'\nimport '../c_c/index.esm'\nexport default A")),
    (["b_b", "index.esm"], .file (.text "export default B")),
    (["c_c", "index.esm"], .file (.text "const c = 1"))]

set_option maxRecDepth 100000 in
theorem brokenNeighbour_run :
    let r : Except Failure Unit × Session :=
      (Bundler.compileEntry {} { source := ⟨"/a_a"⟩, destination := ⟨"/o"⟩ }).run.run
        { files := brokenNeighbour }
    r.1.isOk = false ∧ r.2.events = [
        .begun ⟨"/a_a/index.esm"⟩, .entered ⟨"/a_a"⟩ ⟨"/a_a/index.esm"⟩,
        .begun ⟨"/b_b/index.esm"⟩, .entered ⟨"/b_b"⟩ ⟨"/b_b/index.esm"⟩,
        .linked ⟨⟨"/o/a_a"⟩, "../b_b/index.esm", ⟨"/b_b/index.esm"⟩, ⟨"/o/b_b/index.js"⟩, true⟩,
        .begun ⟨"/c_c/index.esm"⟩, .entered ⟨"/c_c"⟩ ⟨"/c_c/index.esm"⟩] := by
  decide +kernel

/-- Nothing but the component that was compiled before the failure stays in the cache. -/
theorem cache_of_brokenNeighbour :
    let r : Except Failure Unit × Session :=
      (Bundler.compileEntry {} { source := ⟨"/a_a"⟩, destination := ⟨"/o"⟩ }).run.run
        { files := brokenNeighbour }
    r.1.isOk = false ∧ r.2.builds.entries = [(⟨"/b_b/index.esm"⟩, ⟨"/o/b_b/index.js"⟩)] ∧
      r.2.builds.get? ⟨"/a_a/index.esm"⟩ = none ∧ r.2.builds.get? ⟨"/c_c/index.esm"⟩ = none := by
  obtain ⟨hfails, hrun⟩ := brokenNeighbour_run
  obtain ⟨es, hevents, ⟨new, hentries, hperm⟩, -, hbegun, -⟩ := cache_of_compileEntry
    (Bundler.isDiscreet_of_initial (b := {}) rfl (fun _ h => by cases h) rfl).isTidy
    { source := ⟨"/a_a"⟩, destination := ⟨"/o"⟩ } { files := brokenNeighbour }
  obtain rfl := hevents.symm.trans hrun
  rw [hfails] at hperm hbegun
  refine ⟨hfails, ?_, (hbegun _ (by simp)).2.2 (by decide), (hbegun _ (by simp)).2.2 (by decide)⟩
  rw [hentries, List.append_nil]
  exact List.perm_singleton.1 hperm

end ElementBuild
