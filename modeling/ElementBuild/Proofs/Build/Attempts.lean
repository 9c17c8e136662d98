/-
# How components come to be compiled

A component is compiled where it is referred to, or at the top level, unless it was
compiled already.  The runs of these steps are described here, those that fail included
(`ComponentContext.runs_link`, `Bundler.runs_compileEntry`).
-/
import ElementBuild.Proofs.Bundlers

namespace ElementBuild

/-! ### References -/

namespace ComponentContext

variable {c : ComponentContext} {build : ComponentBuild} {r : Reference} {s : Session}

/-- A reference fails to be linked at once, or finds its component, or compiles it. -/
inductive Runs (c : ComponentContext) (build : ComponentBuild) (r : Reference) (s : Session)
    (x : Except Failure ComponentLink × Session) : Prop where
  | fails (e : Failure) (h : x = (.error e, s))
  | finds (entry destination : Path)
    (h : x = (.ok ⟨c.output, r.target, entry, destination, false⟩, s))
  | compiles (entry destination source : Path) (note : LogRecord) (paths : List Path)
    (hsource : entry.parent? = some source) (hnone : s.builds.get? entry = none)
    (y : Except Failure Unit × Session)
    (hy : (Step.attempt entry destination do
        Step.tell note
        build { c.options with source } paths).run.run s = y)
    (h : x = (y.1.map fun _ => ⟨c.output, r.target, entry, destination, true⟩, y.2))

theorem runs_link (c : ComponentContext) (build : ComponentBuild) (r : Reference) (s : Session) :
    c.Runs build r s ((c.link build r).run.run s) := by
  unfold link
  cases Target.componentParts? (r.sourceType.getD "") r.target with
  | none => exact .fails _ rfl
  | some parts =>
    obtain ⟨folder, stem⟩ := parts
    have hfound := Step.run_resolve r.target [c.options.source] s
    cases hresolve : s.files.resolve r.target [c.options.source] with
    | error e =>
      rw [hresolve] at hfound
      rw [Step.run_bind_error hfound]
      exact .fails _ rfl
    | ok entry =>
      rw [Step.run_bind_ok (Step.gives_resolve.2 ⟨hresolve, rfl⟩),
        Step.run_bind_ok (Step.gives_get.2 ⟨rfl, rfl⟩)]
      cases hget : s.builds.get? entry with
      | some destination => exact .finds entry destination rfl
      | none =>
        dsimp only
        unfold compileDependency
        cases hsource : entry.parent? with
        | none => exact .fails _ rfl
        | some source =>
          rw [bind_assoc]
          refine .compiles entry ((c.options.destination.join ⟨folder⟩).join ⟨stem ++ ".js"⟩) source
            (.info ("Compiling dependency " ++ source.text)) [source, c.output, c.options.source]
            hsource hget _ rfl ?_
          generalize Step.attempt entry _ _ = x
          rcases hx : (x.run.run s : Except Failure Unit × Session) with ⟨e | u, t⟩
          · exact Step.run_bind_error hx
          · exact Step.run_bind_ok hx

end ComponentContext

/-! ### Components -/

namespace Component

theorem run_nameOf (source : Path) (s : Session) :
    ((nameOf source).run.run s : Except Failure String × Session) =
      (match source.fileName? with
        | some name => .ok name
        | none => .error (.of (.stated ("Invalid component folder " ++ source.text))), s) := by
  unfold nameOf
  cases source.fileName? with
  | none => rfl
  | some name => rfl

theorem run_findEntry (folder : Path) (s : Session) :
    ((findEntry folder).run.run s : Except Failure (Option Path) × Session) =
      (((entryFile? s.files folder).mapError fun e => .of (.outside (.file e))).mapError
        (Failure.during (.readingFolder folder)), s) := by
  rw [findEntry, Step.run_during, Step.run_fromFiles]

/-- A compilation fails at once, or enters its component. -/
inductive Runs (b : Bundler) (build : ComponentBuild) (options : BuildOptions)
    (paths : List Path) (s : Session) (x : Except Failure Unit × Session) : Prop where
  | fails (e : Failure) (h : x = (.error e, s))
  | enters (name : String) (entry : Path)
    (hentry : entryFile? s.files options.source = .ok (some entry))
    (h : x = (compileFrom b build options paths name entry).run.run
      { s with events := s.events ++ [.entered options.source entry] })

theorem runs_compileWith (b : Bundler) (build : ComponentBuild) (options : BuildOptions)
    (paths : List Path) (s : Session) :
    Runs b build options paths s ((compileWith b build options paths).run.run s) := by
  unfold compileWith
  have hname := run_nameOf options.source s
  cases hnamed : options.source.fileName? with
  | none =>
    rw [hnamed] at hname
    rw [Step.run_bind_error hname]
    exact .fails _ rfl
  | some name =>
    rw [hnamed] at hname
    rw [Step.run_bind_ok hname]
    have hfind := run_findEntry options.source s
    cases hentry : entryFile? s.files options.source with
    | error e =>
      rw [hentry] at hfind
      rw [Step.run_bind_error hfind]
      exact .fails _ rfl
    | ok entry =>
      rw [Step.run_bind_ok (gives_findEntry.2 ⟨hentry, rfl⟩)]
      cases entry with
      | none => exact .fails _ rfl
      | some entry =>
        dsimp only
        rw [Step.run_bind_ok (a := ⟨⟩) (Step.gives_trace.2 rfl)]
        exact .enters name entry hentry rfl

end Component

/-! ### The top level -/

/-- The component that a build of the top level has yet to compile, and the path of its
module. -/
def Bundler.pending? (options : BuildOptions) (s : Session) : Option (Path × Path) := do
  let name ← options.source.fileName?
  let file ← (Component.entryFile? s.files options.source).toOption.bind id
  let canonical ← (s.files.canonical file).toOption
  if (s.builds.get? canonical).isNone then
    some (canonical, (options.destination.join ⟨name⟩).join ⟨moduleFile⟩)
  else none

/-- It is given by the canonical path of its entry file, and is not recorded. -/
theorem Bundler.exists_of_pending {options : BuildOptions} {s : Session} {x : Path × Path}
    (h : pending? options s = some x) : s.builds.get? x.1 = none ∧
      ∃ file, Component.entryFile? s.files options.source = .ok (some file) ∧
        s.files.canonical file = .ok x.1 := by
  simp only [pending?, Option.bind_eq_bind, Option.bind_eq_some_iff] at h
  obtain ⟨name, -, file, ⟨entry, hentry, hfile⟩, canonical, hcanonical, h⟩ := h
  obtain rfl : entry = some file := hfile
  have hok : ∀ {α : Type} {e : Except FileError α} {a : α}, e.toOption = some a → e = .ok a := by
    intro α e a he
    cases e with
    | error e => cases he
    | ok b => exact congrArg Except.ok (Option.some.inj he)
  split at h
  · obtain rfl := Option.some.inj h
    exact ⟨Option.isNone_iff_eq_none.1 ‹_›, file, hok hentry, hok hcanonical⟩
  · cases h

/-- A build of the top level fails at once, has its component already, or compiles it. -/
inductive Bundler.Runs (b : Bundler) (options : BuildOptions) (s : Session)
    (x : Except Failure Unit × Session) : Prop where
  | fails (e : Failure) (h : x = (.error e, s))
  | finds (hpending : pending? options s = none) (h : x = (.ok (), s))
  | misses (paths : List Path) (hentry : Component.entryFile? s.files options.source = .ok none)
    (hpending : pending? options s = none)
    (h : x = (Component.compile b Component.depthLimit options paths).run.run s)
  | compiles (paths : List Path) (entry destination : Path)
    (hpending : pending? options s = some (entry, destination))
    (h : x = (Step.attempt entry destination
      (Component.compile b Component.depthLimit options paths)).run.run s)

theorem Bundler.runs_compileEntry (b : Bundler) (options : BuildOptions) (s : Session) :
    b.Runs options s ((b.compileEntry options).run.run s) := by
  unfold compileEntry
  have hname := Component.run_nameOf options.source s
  cases hnamed : options.source.fileName? with
  | none =>
    rw [hnamed] at hname
    rw [Step.run_bind_error hname]
    exact .fails _ rfl
  | some name =>
    rw [hnamed] at hname
    rw [Step.run_bind_ok hname]
    have hfind := Component.run_findEntry options.source s
    cases hentry : Component.entryFile? s.files options.source with
    | error e =>
      rw [hentry] at hfind
      rw [Step.run_bind_error hfind]
      exact .fails _ rfl
    | ok entry =>
      rw [Step.run_bind_ok (Component.gives_findEntry.2 ⟨hentry, rfl⟩)]
      cases entry with
      | none => exact .misses _ hentry (by simp [pending?, hnamed, hentry, Except.toOption]) rfl
      | some file =>
        dsimp only
        cases hcanonical : s.files.canonical file with
        | error e =>
          have hrun := Step.run_fromFiles (fun t => t.canonical file) s
          rw [hcanonical] at hrun
          rw [Step.run_bind_error (t := s) (by rw [Step.run_during, hrun]; rfl)]
          exact .fails _ rfl
        | ok canonical =>
          rw [Step.run_bind_ok (Step.gives_during.2 (Step.gives_fromFiles.2 ⟨hcanonical, rfl⟩)),
            Step.run_bind_ok (Step.gives_get.2 ⟨rfl, rfl⟩)]
          cases hget : s.builds.get? canonical with
          | some d =>
            exact .finds (by simp [pending?, hnamed, hentry, hcanonical, hget, Except.toOption]) rfl
          | none =>
            exact .compiles _ canonical _
              (by simp [pending?, hnamed, hentry, hcanonical, hget, Except.toOption]) rfl

end ElementBuild
