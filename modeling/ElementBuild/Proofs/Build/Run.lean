/-
# Runs of a build

A build starts from a session with nothing but files and a log, and compiles components
of the top level (`Bundler.relates_of_builds`).
-/
import ElementBuild.Proofs.Changes
import ElementBuild.Proofs.Path.Specifier

namespace ElementBuild

theorem Path.isAbsolute_absolutize (current : Location) (p : Path) :
    (Path.absolutize current.path p).isAbsolute = true := by
  have hcurrent : current.path.isAbsolute = true := by
    rw [isAbsolute, Location.path, String.toList_append]
    rfl
  unfold absolutize
  split
  · exact isAbsolute_normalize ‹_›
  · exact isAbsolute_normalize (isAbsolute_join hcurrent p)

theorem Path.isClean_absolutize (current p : Path) : IsClean (absolutize current p).segments := by
  unfold absolutize
  split
  · rw [segments_normalize]
    exact isClean_clean _
  · rw [segments_normalize]
    exact isClean_clean _

/-- A component of the top level is compiled, unless it was already. -/
theorem Bundler.gives_compileEntry {b : Bundler} {options : BuildOptions} {s s' : Session}
    (h : (b.compileEntry options).Gives s () s') : ∃ name entry,
      options.source.fileName? = some name ∧
      Component.entryFile? s.files options.source = .ok entry ∧
      ((entry = none ∧ (Component.compile b Component.depthLimit options
          [options.destination.join ⟨name⟩, options.source]).Gives s () s') ∨
        (∃ canonical d, s.builds.get? canonical = some d ∧ s' = s) ∨
        ∃ canonical file, entry = some file ∧ s.files.canonical file = .ok canonical ∧
          s.builds.get? canonical = none ∧
            (Component.compile b Component.depthLimit options
              [options.destination.join ⟨name⟩, options.source]).Gives
              (s.begin canonical ((options.destination.join ⟨name⟩).join ⟨moduleFile⟩)) () s') := by
  unfold compileEntry at h
  rw [Step.gives_bind] at h
  obtain ⟨name, t, hname, h⟩ := h
  obtain ⟨hnamed, rfl⟩ := Component.gives_nameOf hname
  dsimp only at h
  rw [Step.gives_bind] at h
  obtain ⟨entry, t, hentry, h⟩ := h
  obtain ⟨hfound, rfl⟩ := Component.gives_findEntry.1 hentry
  refine ⟨name, entry, hnamed, hfound, ?_⟩
  cases entry with
  | none => exact .inl ⟨rfl, h⟩
  | some file =>
    rw [Step.gives_bind] at h
    obtain ⟨canonical, t, hcanonical, h⟩ := h
    obtain ⟨hfile, rfl⟩ := Step.gives_fromFiles.1 (Step.gives_during.1 hcanonical)
    rw [Step.gives_bind] at h
    obtain ⟨_, t, hget, h⟩ := h
    obtain ⟨rfl, rfl⟩ := Step.gives_get.1 hget
    split at h
    · rename_i d hd
      obtain ⟨-, rfl⟩ := Step.gives_pure.1 h
      exact .inr (.inl ⟨canonical, d, hd, rfl⟩)
    · rename_i hnone
      exact .inr (.inr ⟨canonical, file, rfl, hfile, hnone, Step.gives_attempt.1 h⟩)

namespace Bundler

variable {b : Bundler} {options : BuildOptions} {s s' : Session}

/-- What a check does not refuse goes on. -/
theorem gives_of_check {α : Type} {p : Prop} [Decidable p] {f : Fault} {rest : PUnit → Step α}
    {a : α} (h : (if p then Step.fail f >>= rest else rest ⟨⟩).Gives s a s') :
    (rest ⟨⟩).Gives s a s' := by
  split at h
  · obtain ⟨_, t, hfail, -⟩ := Step.gives_bind.1 h
    exact absurd hfail Step.gives_fail
  · exact h

/-- A build prepares its options: its paths become absolute. -/
theorem gives_prepare {o : BuildOptions} (h : (b.prepare options).Gives s o s') :
    o = { options with
      source := Path.absolutize s.files.current.path options.source
      destination := Path.absolutize s.files.current.path options.destination } ∧
      ∃ log, s' = { s with log } := by
  have hlast : ∀ {t : Session}, (do
      let t ← Step.files
      let current := t.current.path
      return { options with
        source := Path.absolutize current options.source
        destination := Path.absolutize current options.destination } : Step BuildOptions).Gives t o s' →
      o = { options with
        source := Path.absolutize t.files.current.path options.source
        destination := Path.absolutize t.files.current.path options.destination } ∧ s' = t := by
    intro t hgives
    rw [Step.gives_bind] at hgives
    obtain ⟨files, t', hfiles, hgives⟩ := hgives
    obtain ⟨rfl, rfl⟩ := Step.gives_files.1 hfiles
    obtain ⟨rfl, rfl⟩ := Step.gives_pure.1 hgives
    exact ⟨rfl, rfl⟩
  unfold prepare at h
  have hwarned := gives_of_check (gives_of_check (gives_of_check h))
  dsimp only at hwarned
  split at hwarned
  · rw [Step.gives_bind] at hwarned
    obtain ⟨_, t, htell, hgives⟩ := hwarned
    obtain rfl := Step.gives_tell.1 htell
    obtain ⟨ho, rfl⟩ := hlast hgives
    exact ⟨ho, _, rfl⟩
  · obtain ⟨ho, rfl⟩ := hlast hwarned
    exact ⟨ho, _, rfl⟩

/-- The session that a build starts from. -/
def start (s : Session) (log : List LogRecord) : Session :=
  { files := s.files, log, printed := s.printed }

/-- A build of one component, or of every component below a folder, ends well. -/
def Builds (b : Bundler) (options : BuildOptions) (s : Session) (bundles : List Bundle)
    (s' : Session) : Prop :=
  (b.compile options).Gives s bundles s' ∨ (b.compileAll options).Gives s bundles s'

/-- Compiling a component of the top level respects what its compilation does. -/
theorem respects_compileEntry {r : Session → Session → Prop} [IsPreorder Session r]
    (hbegun : ∀ s entry destination, r s (s.begin entry destination))
    (hcompile : ∀ paths, (Component.compile b Component.depthLimit options paths).Respects r) :
    (b.compileEntry options).Respects r := by
  intro s u s' h
  obtain ⟨name, entry, -, -, hcase⟩ := gives_compileEntry h
  rcases hcase with ⟨-, hbuild⟩ | ⟨canonical, d, -, rfl⟩ | ⟨canonical, file, -, -, -, hbuild⟩
  · exact hcompile _ _ _ _ hbuild
  · exact refl_of r s'
  · exact trans_of r (hbegun s _ _) (hcompile _ _ _ _ hbuild)

/-- **What compiling the components of the top level respects, a build respects**, from
the session that it starts from. -/
theorem relates_of_builds {r : Session → Session → Prop} [IsPreorder Session r]
    (hr : Session.Noting r) {bundles : List Bundle} (h : b.Builds options s bundles s')
    (hentry : ∀ source, (b.compileEntry { options with
      source, destination := Path.absolutize s.files.current.path options.destination }).Respects r) :
    bundles = s'.bundles ∧ ∃ log, r (start s log) s' := by
  rcases h with h | h
  · unfold compile at h
    rw [Step.gives_bind] at h
    obtain ⟨o, t, hprepare, h⟩ := h
    obtain ⟨rfl, log, rfl⟩ := gives_prepare hprepare
    rw [Step.gives_bind] at h
    obtain ⟨_, t, hrestart, h⟩ := h
    obtain rfl := Step.gives_modify.1 hrestart
    rw [Step.gives_bind] at h
    obtain ⟨_, t, hcompile, h⟩ := h
    rw [Step.gives_bind] at h
    obtain ⟨_, t', hget, h⟩ := h
    obtain ⟨rfl, rfl⟩ := Step.gives_get.1 hget
    obtain ⟨rfl, rfl⟩ := Step.gives_pure.1 h
    exact ⟨rfl, log, hentry _ _ _ _ hcompile⟩
  · unfold compileAll at h
    rw [Step.gives_bind] at h
    obtain ⟨o, t, hprepare, h⟩ := h
    obtain ⟨rfl, log, rfl⟩ := gives_prepare hprepare
    rw [Step.gives_bind] at h
    obtain ⟨_, t, hrestart, h⟩ := h
    obtain rfl := Step.gives_modify.1 hrestart
    rw [Step.gives_bind] at h
    obtain ⟨entries, t, hlist, h⟩ := h
    obtain ⟨-, rfl⟩ := Step.gives_fromFiles.1 (Step.gives_during.1 hlist)
    rw [Step.gives_bind] at h
    obtain ⟨files, t, hfiles, h⟩ := h
    obtain ⟨-, rfl⟩ := Step.gives_files.1 hfiles
    dsimp only at h
    rw [Step.gives_bind] at h
    obtain ⟨_, t, htell, h⟩ := h
    have htold := hr.steps.tell _ _ _ _ htell
    rw [Step.gives_bind] at h
    obtain ⟨_, t', hcompile, h⟩ := h
    rw [Step.gives_bind] at h
    obtain ⟨_, t'', hget, h⟩ := h
    obtain ⟨rfl, rfl⟩ := Step.gives_get.1 hget
    obtain ⟨rfl, rfl⟩ := Step.gives_pure.1 h
    exact ⟨rfl, log, trans_of r htold
      (Step.Law.forM (P := Step.Respects r) hentry _ _ _ _ hcompile)⟩

/-! ### All runs -/

open Step.Law in
theorem law_prepare {P : ∀ {α : Type}, Step α → Prop} [Step.BoundedLaw P]
    (htell : ∀ x, P (Step.tell x)) (b : Bundler) (options : BuildOptions) :
    P (b.prepare options) := by
  have hcheck : ∀ {α : Type} {p : Prop} [Decidable p] {text : String} {rest : PUnit → Step α},
      P (rest ⟨⟩) → P (if p then Step.fail (.stated text) >>= rest else rest ⟨⟩) := by
    intro α p _ text rest hrest
    split
    · exact fail _
    · exact hrest
  unfold prepare
  refine hcheck (hcheck (hcheck ?_))
  have hrest : P (do
      let current := (← Step.files).current.path
      return { options with
        source := Path.absolutize current options.source
        destination := Path.absolutize current options.destination } : Step BuildOptions) :=
    bind files fun t => pure _
  dsimp only
  split
  · exact bind (htell _) fun _ => hrest
  · exact hrest

theorem session_prepare (b : Bundler) (options : BuildOptions) (s : Session) :
    ∃ log, ((b.prepare options).run.run s : Except Failure BuildOptions × Session).2 =
      { s with log } := by
  let r : Session → Session → Prop := fun s s' => ∃ log, s' = { s with log }
  have : IsPreorder Session r := {
    refl := fun s => ⟨s.log, rfl⟩
    trans := by
      rintro s t s' ⟨log, rfl⟩ ⟨log', rfl⟩
      exact ⟨log', rfl⟩ }
  exact law_prepare (P := Step.Ends fun _ => r) (fun x => Step.Ends.modify fun s => ⟨_, rfl⟩) b options s

open Step.Law in
/-- A build prepares its options and starts anew. -/
theorem exists_body {P : ∀ {α : Type}, Step α → Prop} [Step.BoundedLaw P]
    (htell : ∀ x, P (Step.tell x)) (hentry : ∀ options, P (b.compileEntry options))
    {x : Step (List Bundle)} (hx : x = b.compile options ∨ x = b.compileAll options) :
    ∃ body : BuildOptions → Step (List Bundle), (∀ o, P (body o)) ∧
      x = b.prepare options >>= fun o => modify Session.restart >>= fun _ => body o := by
  rcases hx with rfl | rfl
  · exact ⟨_, fun o => bind (hentry o) fun _ => bind get fun _ => pure _, rfl⟩
  · refine ⟨_, fun o => ?_, rfl⟩
    exact bind (during _ (fromFiles _)) fun entries => bind files fun t => bind (htell _) fun _ =>
      bind (forM (fun _ => hentry _) _) fun _ => bind get fun _ => pure _

/-- **What the components of the top level respect in all runs, a build respects**, from
the session that it starts from, unless it does not start at all. -/
theorem ends_of_builds {R : Bool → Session → Session → Prop} [Step.IsOutcome R]
    (htell : ∀ x, (Step.tell x).Ends R) (hentry : ∀ options, (b.compileEntry options).Ends R)
    {x : Step (List Bundle)} (hx : x = b.compile options ∨ x = b.compileAll options) (s : Session) :
    let r : Except Failure (List Bundle) × Session := x.run.run s
    (∃ log, r.2 = { s with log }) ∨ ∃ log, R r.1.isOk (start s log) r.2 := by
  obtain ⟨body, hends, rfl⟩ := exists_body (P := Step.Ends R) htell hentry hx
  intro r
  obtain ⟨log, hlog⟩ := session_prepare b options s
  rcases hprepare : ((b.prepare options).run.run s : Except Failure BuildOptions × Session) with ⟨e | o, t⟩
  · rw [hprepare] at hlog
    have hr : r = (.error e, t) := Step.run_bind_error hprepare
    rw [hr]
    exact .inl ⟨log, hlog⟩
  · rw [hprepare] at hlog
    obtain rfl : t = { s with log } := hlog
    have hr : r = (body o).run.run (start s log) := (Step.run_bind_ok hprepare).trans rfl
    rw [hr]
    exact .inr ⟨log, hends o _⟩
end Bundler
end ElementBuild
