/-
# Components are compiled once

A component is recorded before it is compiled, under the file that a reference resolves
to, so a build begins no component twice.  What it enters then is the entry file of the
folder.  If that is the file that was referred to, no entry file is entered twice
(`entered_once`); a reference to another file of the folder compiles the component again
(`entered_twice_of_neighbourReference`).
-/
import ElementBuild.Proofs.Build.Accounts
import ElementBuild.Proofs.Build.Run
import ElementBuild.Proofs.Files
import ElementBuild.Proofs.FileTree.Grows
import Mathlib.Data.List.Forall2

namespace ElementBuild

namespace Event

/-- The component that is entered, by its folder and its entry file. -/
def entered? : Event → Option (Path × Path)
  | .entered source entry => some (source, entry)
  | _ => none

/-- The components that are entered. -/
def entrances (es : List Event) : List (Path × Path) := es.filterMap entered?

@[simp] theorem entrances_append (es es' : List Event) :
    entrances (es ++ es') = entrances es ++ entrances es' := List.filterMap_append

theorem mem_entrances {es : List Event} {x : Path × Path} :
    x ∈ entrances es ↔ .entered x.1 x.2 ∈ es := by
  rw [entrances, List.mem_filterMap]
  constructor
  · rintro ⟨e, he, hx⟩
    cases e <;> simp only [entered?, reduceCtorEq] at hx
    obtain rfl := Option.some.inj hx
    exact he
  · exact fun h => ⟨_, h, rfl⟩

theorem entrances_singleton {e : Event} (h : e.entered? = none) : entrances [e] = [] :=
  List.filterMap_cons_none h

end Event

open Event (beginnings entrances)

/-! ### What is begun -/

/-- What a run begins was not recorded, and is recorded if the run ends well. -/
structure BuildCache.Begins (ok : Bool) (c : BuildCache) (es : List Event) (c' : BuildCache) :
    Prop where
  fresh : ∀ k ∈ beginnings es, c.get? k = none
  once : (beginnings es).Pairwise fun k k' => k.same k' = false
  kept : ∀ k, c.get? k ≠ none → c'.get? k ≠ none
  settled : ok = true → ∀ k ∈ beginnings es, c'.get? k ≠ none

namespace BuildCache

variable {ok : Bool} {own : List (Path × Path)} {c c₁ c₂ : BuildCache} {es es' : List Event}

theorem Accounts.begins (h : c.Accounts ok own es c₁) : c.Begins ok es c₁ where
  fresh := h.fresh
  once := h.once
  kept k hk := by
    obtain ⟨d, hd⟩ := Option.ne_none_iff_exists'.1 hk
    rw [h.get?_eq_some hd]
    exact Option.some_ne_none d
  settled hok k hk hnone := by
    obtain ⟨x, hx, rfl⟩ := h.settled hok k hk
    exact (h.get?_eq_none_iff hk).1 hnone x hx rfl

theorem Begins.trans (h₁ : c.Begins true es c₁) (h₂ : c₁.Begins ok es' c₂) :
    c.Begins ok (es ++ es') c₂ := by
  refine ⟨fun k hk => ?_, ?_, fun k hk => h₂.kept k (h₁.kept k hk), fun hok k hk => ?_⟩
  · rw [Event.beginnings_append, List.mem_append] at hk
    rcases hk with hk | hk
    · exact h₁.fresh k hk
    · exact Classical.not_not.1 fun hrecorded => h₁.kept k hrecorded (h₂.fresh k hk)
  · rw [Event.beginnings_append]
    refine List.pairwise_append.2 ⟨h₁.once, h₂.once, fun k hk k' hk' => ?_⟩
    rw [Bool.eq_false_iff]
    intro hsame
    have hnone := h₂.fresh k' hk'
    rw [← get?_congr c₁ hsame] at hnone
    exact h₁.settled rfl k hk hnone
  · rw [Event.beginnings_append, List.mem_append] at hk
    rcases hk with hk | hk
    · exact h₂.kept k (h₁.settled rfl k hk)
    · exact h₂.settled hok k hk

end BuildCache

/-! ### What is entered -/

/-- What is entered once a component is begun: the component of its folder, or the one
whose entry file it is. -/
def FileTree.Opens (t : FileTree) (k : Path) (x : Path × Path) : Prop :=
  k.parent? = some x.1 ∨ t.canonical x.2 = .ok k

/-- Each component that is entered was begun for it. -/
def FileTree.Matches (t : FileTree) (es : List Event) : Prop :=
  ∃ ks, ks.Sublist (beginnings es) ∧ List.Forall₂ t.Opens ks (entrances es)

namespace FileTree

variable {t t' : FileTree} {es es' : List Event}

theorem matches_of_quiet (h : entrances es = []) : t.Matches es :=
  ⟨[], List.nil_sublist _, h ▸ .nil⟩

theorem Matches.append (h : t.Matches es) (h' : t.Matches es') : t.Matches (es ++ es') := by
  obtain ⟨ks, hks, hmatch⟩ := h
  obtain ⟨ks', hks', hmatch'⟩ := h'
  refine ⟨ks ++ ks', ?_, ?_⟩
  · rw [Event.beginnings_append]
    exact hks.append hks'
  · rw [Event.entrances_append]
    exact List.rel_append hmatch hmatch'

theorem Matches.mono (h : t.Matches es) (hgrows : t.Grows t') : t'.Matches es := by
  obtain ⟨ks, hks, hmatch⟩ := h
  exact ⟨ks, hks, hmatch.imp fun k x hopens => Or.imp_right hgrows.canonical hopens⟩

/-- A component is begun, and entered. -/
theorem Matches.cons {k source entry : Path} (h : t.Matches es) (hopens : t.Opens k (source, entry)) :
    t.Matches (.begun k :: .entered source entry :: es) := by
  obtain ⟨ks, hks, hmatch⟩ := h
  exact ⟨k :: ks, hks.cons_cons k, .cons hopens hmatch⟩

end FileTree

namespace Session

/-- Between two sessions the files grow, and components are begun and entered. -/
def Enters (s s' : Session) : Prop :=
  s.Keeps s' ∧ ∃ es, s'.events = s.events ++ es ∧ (s.files.WellFormed → s'.files.Matches es)

/-- The same, where a component is entered first that was begun before. -/
def EntersFirst (source : Path) (s s' : Session) : Prop :=
  s.Keeps s' ∧ ∃ es, s'.events = s.events ++ es ∧ (s.files.WellFormed →
    s'.files.Matches es ∨ ∃ entry es', Component.entryFile? s.files source = .ok (some entry) ∧
      es = .entered source entry :: es' ∧ s'.files.Matches es')

namespace Enters

variable {s s' : Session}

theorem of_quiet {es : List Event} (hkept : s.Keeps s') (hevents : s'.events = s.events ++ es)
    (h : entrances es = []) : s.Enters s' :=
  ⟨hkept, es, hevents, fun _ => FileTree.matches_of_quiet h⟩

theorem of_eq (hkept : s.Keeps s') (hevents : s'.events = s.events) : s.Enters s' :=
  of_quiet hkept (hevents.trans (List.append_nil _).symm) rfl

instance : IsPreorder Session Enters where
  refl s := of_eq (refl_of Keeps s) rfl
  trans := by
    rintro s t s' ⟨hkept, es, hevents, h⟩ ⟨hkept', es', hevents', h'⟩
    refine ⟨trans_of Keeps hkept hkept', es ++ es', ?_, fun hwf => ?_⟩
    · rw [hevents', hevents, List.append_assoc]
    · have hwf' := (hkept hwf).1
      exact ((h hwf).mono (hkept' hwf').2).append (h' hwf')

theorem copying : Session.Copying Enters where
  log s _ := of_eq (Keeps.building.log s _) rfl
  mapped s _ := of_eq (Keeps.building.mapped s _) rfl
  folders s p := of_eq (Keeps.building.folders s p) rfl
  deliveries s d t h := of_eq (Keeps.building.deliveries s d t h) rfl
  copies s source target := of_eq (Keeps.building.copies s source target) rfl
  followed s f := of_quiet (Keeps.building.followed s f) rfl rfl

theorem compiling : Session.Compiling Enters where
  toDelivering := copying.toDelivering
  bundles s b := of_eq (Keeps.building.bundles s b) rfl

/-- A component that is begun is entered by its compilation. -/
theorem of_attempt {k d source : Path} {x : Step Unit}
    (hx : (s.begin k d).EntersFirst source (x.run.run (s.begin k d) : Except Failure Unit × Session).2)
    (hopens : ∀ entry, Component.entryFile? s.files source = .ok (some entry) →
      s.files.Opens k (source, entry)) :
    s.Enters ((Step.attempt k d x).run.run s : Except Failure Unit × Session).2 := by
  have hbegun : ∀ t, (s.begin k d).EntersFirst source t → s.Enters t := by
    rintro t ⟨hkept, es, hevents, h⟩
    refine ⟨trans_of Keeps (Keeps.building.begun s k d) hkept, .begun k :: es, ?_, fun hwf => ?_⟩
    · rw [hevents]
      exact List.append_assoc _ _ _
    · rcases h hwf with hmatch | ⟨entry, es', hentry, rfl, hmatch⟩
      · exact (FileTree.matches_of_quiet (Event.entrances_singleton rfl)).append hmatch
      · exact hmatch.cons ((hopens entry hentry).imp_right (hkept hwf).2.canonical)
  rw [Step.run_attempt]
  split
  · rename_i hrun
    rw [hrun] at hx
    exact hbegun _ hx
  · rename_i hrun
    rw [hrun] at hx
    exact trans_of Enters (hbegun _ hx) (of_eq (.of_eq rfl) rfl)

/-- **A reference to a component enters the component of the folder that it leads to.** -/
theorem compileReference (c : ComponentContext) {build : ComponentBuild}
    (hbuild : ∀ source paths (s : Session), s.EntersFirst source
      ((build { c.options with source } paths).run.run s : Except Failure Unit × Session).2)
    (draft : Text.Draft) (r : Reference) :
    (c.compileReference build draft r).Ends fun _ => Enters := by
  have hlink : (c.link build r).Ends fun _ => Enters := by
    intro s
    have hcases := c.runs_link build r s
    generalize ((c.link build r).run.run s : Except Failure ComponentLink × Session) = x at hcases ⊢
    cases hcases with
    | fails e h =>
      rw [h]
      exact refl_of Enters s
    | finds entry destination h =>
      rw [h]
      exact refl_of Enters s
    | compiles entry destination source note paths hsource hnone y hy h =>
      rw [h, ← hy]
      refine of_attempt ?_ fun _ _ => .inl hsource
      rw [Step.run_bind_ok (a := ()) (Step.gives_tell.2 rfl)]
      obtain ⟨hkept, hentered⟩ := hbuild source paths
        { s.begin entry destination with log := (s.begin entry destination).log ++ [note] }
      exact ⟨hkept, hentered⟩
  exact hlink.bind fun l => (Step.Ends.modify fun s =>
    of_quiet (Keeps.building.linked s l) rfl rfl).bind fun _ => .edit _ _

/-- **A whole compilation enters its component, and the components of the folders that it
refers to.** -/
theorem compile {b : Bundler} (hb : b.IsDiscreet) (depth : Nat) (options : BuildOptions)
    (paths : List Path) (s : Session) : s.EntersFirst options.source
      ((Component.compile b depth options paths).run.run s : Except Failure Unit × Session).2 := by
  induction depth generalizing options paths s with
  | zero => exact ⟨refl_of Keeps s, [], (List.append_nil _).symm,
      fun _ => .inl (FileTree.matches_of_quiet rfl)⟩
  | succ depth ih =>
    have hcases := Component.runs_compileWith b (Component.compile b depth) options paths s
    rw [Component.compile]
    generalize ((Component.compileWith b (Component.compile b depth) options paths).run.run s :
      Except Failure Unit × Session) = x at hcases ⊢
    cases hcases with
    | fails e h =>
      rw [h]
      exact ⟨refl_of Keeps s, [], (List.append_nil _).symm,
        fun _ => .inl (FileTree.matches_of_quiet rfl)⟩
    | enters name entry hentry h =>
      obtain ⟨hkept, es, hevents, hmatch⟩ := compiling.ends.compileFrom (hb _) options paths name
        (fun code draft ref _ => copying.ends.copyPlain _ code draft ref)
        (fun pass _ => copying.ends.mappingPass pass)
        (copying.ends.toNoting.point fun p => Step.Ends.modify fun s => of_quiet (.of_eq rfl) rfl rfl)
        (fun draft ref _ => compileReference _ (fun source paths s => ih _ paths s) draft ref)
        entry { s with events := s.events ++ [.entered options.source entry] }
      rw [h]
      refine ⟨trans_of Keeps (Keeps.building.entered s _ _) hkept,
        .entered options.source entry :: es, ?_, fun hwf => .inr ⟨entry, es, hentry, rfl, hmatch hwf⟩⟩
      rw [hevents]
      exact List.append_assoc _ _ _

end Enters
/-- Between two sessions components are begun and entered, and none is begun twice. -/
structure EntersOnce (ok : Bool) (s s' : Session) : Prop where
  enters : s.Enters s'
  begins : ∃ es, s'.events = s.events ++ es ∧ s.builds.Begins ok es s'.builds

namespace EntersOnce

theorem of_eq {ok : Bool} {s s' : Session} (henters : s.Enters s') (hevents : s'.events = s.events)
    (hbuilds : s'.builds = s.builds) : EntersOnce ok s s' :=
  ⟨henters, [], hevents.trans (List.append_nil _).symm,
    hbuilds ▸ (BuildCache.Accounts.of_quiet rfl rfl).begins⟩

instance : Step.IsOutcome EntersOnce where
  refl ok s := of_eq (refl_of Enters s) rfl rfl
  trans := by
    rintro ok s t u ⟨henters, es, hevents, h⟩ ⟨henters', es', hevents', h'⟩
    refine ⟨trans_of Enters henters henters', es ++ es', ?_, h.trans h'⟩
    rw [hevents', hevents, List.append_assoc]

theorem compileEntry {b : Bundler} (hb : b.IsDiscreet) (options : BuildOptions) :
    (b.compileEntry options).Ends EntersOnce := by
  intro s
  obtain ⟨es, hevents, haccounts⟩ := accounts_of_compileEntry hb.isTidy options s
  refine ⟨?_, es, hevents, haccounts.begins⟩
  have hcases := b.runs_compileEntry options s
  generalize ((b.compileEntry options).run.run s : Except Failure Unit × Session) = x at hcases ⊢
  have hcompile := fun paths s => Enters.compile hb Component.depthLimit options paths s
  cases hcases with
  | fails e h =>
    rw [h]
    exact refl_of Enters s
  | finds hpending h =>
    rw [h]
    exact refl_of Enters s
  | misses paths hentry hpending h =>
    obtain ⟨hkept, es, hevents, hmatch⟩ := hcompile paths s
    rw [h]
    refine ⟨hkept, es, hevents, fun hwf => (hmatch hwf).resolve_right ?_⟩
    rintro ⟨entry, es', hfound, -⟩
    cases hentry.symm.trans hfound
  | compiles paths entry destination hpending h =>
    obtain ⟨-, file, hfile, hcanonical⟩ := Bundler.exists_of_pending hpending
    rw [h]
    refine Enters.of_attempt (hcompile paths _) fun file' hfile' => .inr ?_
    obtain rfl : file = file' := Option.some.inj (Except.ok.inj (hfile.symm.trans hfile'))
    exact hcanonical

end EntersOnce
end Session

/-! ### Once in a build -/

/-- **No entry file is compiled twice in a build**, whether it ends well or not, if the
component that is entered for a file that was referred to is always that of this file. -/
theorem entered_once {b : Bundler} (hb : b.IsDiscreet) {t : FileTree} (hwf : t.WellFormed)
    {options : BuildOptions} {x : Step (List Bundle)}
    (hx : x = b.compile options ∨ x = b.compileAll options) :
    let s' := (x.run.run { files := t } : Except Failure (List Bundle) × Session).2
    (∀ k source entry, .begun k ∈ s'.events → .entered source entry ∈ s'.events →
      k.parent? = some source → s'.files.canonical entry = .ok k) →
    (entrances s'.events).Pairwise fun x y => ∀ p q,
      s'.files.canonical x.2 = .ok p → s'.files.canonical y.2 = .ok q → p.same q = false := by
  intro s' hreferred
  have htell : ∀ x, (Step.tell x).Ends Session.EntersOnce := fun x => Step.Ends.modify fun s =>
    .of_eq (.of_eq (.of_eq rfl) rfl) rfl rfl
  rcases Bundler.ends_of_builds htell (Session.EntersOnce.compileEntry hb) hx { files := t } with
    ⟨log, hlog⟩ | ⟨log, ⟨-, es, hevents, hmatch⟩, es', hevents', hbegins⟩
  · have hnone : s'.events = [] := congrArg Session.events hlog
    rw [hnone]
    exact .nil
  · obtain rfl : es = s'.events := hevents.symm
    obtain rfl : es' = s'.events := hevents'.symm
    obtain ⟨ks, hks, hopens⟩ := hmatch hwf
    have hentries : List.Forall₂ Eq (ks.map Except.ok)
        ((entrances s'.events).map fun x => s'.files.canonical x.2) := by
      rw [List.forall₂_map_left_iff, List.forall₂_map_right_iff]
      obtain ⟨hlength, hzip⟩ := List.forall₂_iff_zip.1 hopens
      refine List.forall₂_iff_zip.2 ⟨hlength, fun {k x} hx => ?_⟩
      obtain ⟨hk, hentered⟩ := List.of_mem_zip hx
      rcases hzip hx with hparent | hcanonical
      · exact (hreferred k x.1 x.2 (Event.mem_beginnings.1 (hks.subset hk))
          (Event.mem_entrances.1 hentered) hparent).symm
      · exact hcanonical.symm
    have hdistinct : ((entrances s'.events).map fun x => s'.files.canonical x.2).Pairwise
        fun e e' => ∀ p q, e = .ok p → e' = .ok q → p.same q = false := by
      rw [List.forall₂_eq_eq_eq] at hentries
      rw [← hentries, List.pairwise_map]
      refine (hbegins.once.sublist hks).imp fun hsame p q hp hq => ?_
      cases hp
      cases hq
      exact hsame
    exact List.pairwise_map.1 hdistinct

/-- A component that refers to another in two ways. -/
def doubleReference : FileTree where
  entries := [
    (["a_a"], .folder), (["b_b"], .folder),
    (["a_a", "index.esm"], .file (.text
      "import '../b_b/index.esm'\nimport '../b_b//index.esm'\nexport default A")),
    (["b_b", "index.esm"], .file (.text "export default B"))]

set_option maxRecDepth 100000 in
theorem doubleReference_run :
    let r : Except Failure (List Bundle) × Session :=
      (Bundler.compile {} { source := ⟨"/a_a"⟩, destination := ⟨"/o"⟩ }).run.run
        { files := doubleReference }
    r.2.events = [
        .begun ⟨"/a_a/index.esm"⟩, .entered ⟨"/a_a"⟩ ⟨"/a_a/index.esm"⟩,
        .begun ⟨"/b_b/index.esm"⟩, .entered ⟨"/b_b"⟩ ⟨"/b_b/index.esm"⟩,
        .linked ⟨⟨"/o/a_a"⟩, "../b_b/index.esm", ⟨"/b_b/index.esm"⟩, ⟨"/o/b_b/index.js"⟩, true⟩,
        .linked ⟨⟨"/o/a_a"⟩, "../b_b//index.esm", ⟨"/b_b/index.esm"⟩, ⟨"/o/b_b/index.js"⟩, false⟩] ∧
      r.2.files.canonical ⟨"/a_a/index.esm"⟩ = .ok ⟨"/a_a/index.esm"⟩ ∧
      r.2.files.canonical ⟨"/b_b/index.esm"⟩ = .ok ⟨"/b_b/index.esm"⟩ := by
  decide +kernel

/-- Both ways lead to the entry file, so the component is compiled once. -/
theorem entered_once_of_doubleReference :
    let s' := ((Bundler.compile {} { source := ⟨"/a_a"⟩, destination := ⟨"/o"⟩ }).run.run
      { files := doubleReference } : Except Failure (List Bundle) × Session).2
    (entrances s'.events).Pairwise fun x y => ∀ p q,
      s'.files.canonical x.2 = .ok p → s'.files.canonical y.2 = .ok q → p.same q = false := by
  obtain ⟨hevents, ha, hb⟩ := doubleReference_run
  refine entered_once (Bundler.isDiscreet_of_initial (b := {}) rfl (fun _ h => by cases h) rfl)
    (by decide) (.inl rfl) fun k source entry hk hentered hparent => ?_
  rw [hevents] at hk hentered
  simp only [List.mem_cons, List.not_mem_nil, or_false, reduceCtorEq, false_or,
    Event.begun.injEq, Event.entered.injEq] at hk hentered
  rcases hk with rfl | rfl
  · rcases hentered with ⟨rfl, rfl⟩ | ⟨rfl, rfl⟩
    · exact ha
    · exact absurd hparent (by decide)
  · rcases hentered with ⟨rfl, rfl⟩ | ⟨rfl, rfl⟩
    · exact absurd hparent (by decide)
    · exact hb

/-- A component that refers to two files of another. -/
def neighbourReference : FileTree where
  entries := [
    (["a_a"], .folder), (["b_b"], .folder),
    (["a_a", "index.esm"], .file (.text
      "import '../b_b/index.esm'\nimport '../b_b/main.esm'\nexport default A")),
    (["b_b", "index.esm"], .file (.text "export default B")),
    (["b_b", "main.esm"], .file (.text "export default C"))]

set_option maxRecDepth 100000 in
/-- **An entry file is compiled twice** where another file of its folder is referred to,
too. -/
theorem entered_twice_of_neighbourReference :
    let r : Except Failure (List Bundle) × Session :=
      (Bundler.compile {} { source := ⟨"/a_a"⟩, destination := ⟨"/o"⟩ }).run.run
        { files := neighbourReference }
    entrances r.2.events = [(⟨"/a_a"⟩, ⟨"/a_a/index.esm"⟩), (⟨"/b_b"⟩, ⟨"/b_b/index.esm"⟩),
        (⟨"/b_b"⟩, ⟨"/b_b/index.esm"⟩)] ∧
      r.1.toOption.map (·.map (·.output)) =
        some [⟨"/o/b_b/index.js"⟩, ⟨"/o/b_b/index.js"⟩, ⟨"/o/a_a/index.js"⟩] := by
  decide +kernel

end ElementBuild
