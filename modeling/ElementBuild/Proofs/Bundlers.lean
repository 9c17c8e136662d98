/-
# What bundlers bring along

A plugin, a style preprocessor or a minifier changes a session by what it is given, and
some of them change files and tell things besides.  The bundlers of projects do no more
than that (`Bundler.isTidy_of_bundler`).
-/
import ElementBuild.Config.Basic
import ElementBuild.Proofs.Changes

namespace ElementBuild

/-- A law of the steps that change files in any way, or tell something. -/
structure Step.Law.Outward (P : ∀ {α : Type}, Step α → Prop) : Prop where
  setFiles : ∀ t, P (modify fun s => { s with files := t } : Step PUnit)
  tell : ∀ x, P (Step.tell x)

namespace Step.Law

/-- A law of the steps that neither record components nor begin or link them. -/
structure Quiet (P : ∀ {α : Type}, Step α → Prop) : Prop where
  modify : ∀ f : Session → Session, (∀ s, (f s).builds = s.builds) →
    (∀ s, (f s).events = s.events) → P (modify f : Step PUnit)
  followed : ∀ f, P (Step.trace (.followed f))
  pointed : ∀ p, P (Step.trace (.pointed p))

namespace Quiet

variable {P : ∀ {α : Type}, Step α → Prop} [BoundedLaw P] (hP : Quiet P)
include hP

omit [BoundedLaw P] in
theorem outward : Outward P where
  setFiles _ := hP.modify _ (fun _ => rfl) fun _ => rfl
  tell _ := hP.modify _ (fun _ => rfl) fun _ => rfl

theorem copying : Copying P where
  tell _ := hP.modify _ (fun _ => rfl) fun _ => rfl
  setMapped _ := hP.modify _ (fun _ => rfl) fun _ => rfl
  createFolders _ := by
    refine bind files fun t => bind (hP.modify _ (fun _ => rfl) fun _ => rfl) fun _ => ?_
    split
    · exact fail _
    · exact pure _
  write _ _ _ := bind (fromFiles _) fun _ => hP.modify _ (fun _ => rfl) fun _ => rfl
  deliverCopy _ _ := bind (fromFiles _) fun _ => hP.modify _ (fun _ => rfl) fun _ => rfl
  claim _ _ := bind get fun _ => bind (hP.modify _ (fun _ => rfl) fun _ => rfl) fun _ => pure _
  followed := hP.followed

theorem compiling : Compiling P where
  toDelivering := hP.copying.toDelivering
  record _ := hP.modify _ (fun _ => rfl) fun _ => rfl

end Quiet
end Step.Law

/-- What a bundler brings along changes the files, tells things, and changes a session by
what it is given, but in no other way. -/
def Bundler.IsTidy (b : Bundler) : Prop :=
  ∀ (P : ∀ {α : Type}, Step α → Prop) [Step.Law P], Step.Law.Outward P → b.Upholds P

theorem Bundler.IsDiscreet.isTidy {b : Bundler} (hb : b.IsDiscreet) : b.IsTidy :=
  fun P _ _ => hb P

/-! ### Plugins -/

namespace Plugin

open Step.Law

variable {P : ∀ {α : Type}, Step α → Prop} [Step.Law P] {r : CompileRequest}

theorem law_ecmascript {P : ∀ {α : Type}, Step α → Prop} [Step.BoundedLaw P]
    (hscript : ∀ code, P (r.preprocessScript code)) : P (Ecmascript.compile r) := by
  unfold Ecmascript.compile
  split
  · exact fail _
  · split
    · exact fail _
    · exact bind (ofExcept _ _) fun _ => bind (ofExcept _ _) fun _ => bind files fun _ =>
        bind (ofExcept _ _) fun _ => bind (ofExcept _ _) fun _ => bind (hscript _) fun _ => pure _

namespace Command

variable (hscript : ∀ code, P (r.preprocessScript code))
  (hstyle : ∀ style, r.preprocessStyle = some style → ∀ css p, P (style css p))

include hscript hstyle in
theorem law_preprocess : P (preprocess r) := by
  refine bind (foldlM (fun draft b _ => bind ?_ fun text => ?_) _) fun _ => pure _
  · unfold replacement?
    split
    · exact bind (hscript _) fun _ => pure _
    · split
      · exact bind (hstyle _ ‹_› _ _) fun _ => pure _
      · exact pure _
  · split
    · exact edit _ _
    · exact pure _

/-- A command may change any file. -/
theorem law_runOn (hP : Outward P) (c : CommandConfig) (tag : Option String) (source : String) :
    P (runOn c r tag source) := by
  unfold runOn
  refine bind files fun t => bind (during _ (ofExcept _ _)) fun finished =>
    bind (hP.setFiles _) fun _ => ?_
  split
  · split
    · exact pure _
    · exact during _ (fail _)
  · exact fail _

include hscript hstyle in
theorem law_compile (hP : Outward P) (c : CommandConfig) : P (compile c r) := by
  have hrest : ∀ tag, P (do
      Step.refusing (r.checkSource (← Step.files))
      Step.refusing r.sourcemap.check
      let source ← preprocess r
      runOn c r tag source) := fun tag =>
    bind files fun _ => bind (ofExcept _ _) fun _ => bind (ofExcept _ _) fun _ =>
      bind (law_preprocess hscript hstyle) fun _ => law_runOn hP c tag _
  unfold compile
  refine bind (ofExcept _ _) fun _ => ?_
  dsimp only
  split
  · exact bind (ofExcept _ _) fun _ => bind (pure _) fun tag => hrest tag
  · exact bind (pure _) fun tag => hrest tag

end Command
end Plugin

/-- A plugin that changes the files, tells things, and changes a session by what it is
given, but in no other way. -/
def Plugin.IsTidy (p : Plugin) : Prop :=
  ∀ (P : ∀ {α : Type}, Step α → Prop) [Step.Law P], Step.Law.Outward P → ∀ q : CompileRequest,
    (∀ code, P (q.preprocessScript code)) →
    (∀ style, q.preprocessStyle = some style → ∀ css p, P (style css p)) → P (p.compile q)

/-! ### Registries -/

theorem Mapping.mem_putNamed {α : Type} {name : String} {v : α} {xs : List (String × α)}
    {x : String × α} (h : x ∈ putNamed name v xs) : x.2 = v ∨ x ∈ xs := by
  induction xs with
  | nil => exact .inl (List.mem_singleton.1 h ▸ rfl)
  | cons y ys ih =>
    unfold putNamed at h
    split at h
    · rcases List.mem_cons.1 h with rfl | h
      · exact .inl rfl
      · exact .inr (List.mem_cons_of_mem _ h)
    · rcases List.mem_cons.1 h with rfl | h
      · exact .inr (List.mem_cons_self ..)
      · exact (ih h).imp_right (List.mem_cons_of_mem _)

namespace Registry

/-- All plugins of a registry are tidy. -/
def IsTidy (g : Registry) : Prop := ∀ x ∈ g.plugins, x.2.IsTidy

theorem isTidy_initial : Registry.initial.IsTidy := by
  intro x hx P _ hP q hscript hstyle
  obtain rfl := List.mem_singleton.1 hx
  exact Plugin.law_ecmascript hscript

theorem IsTidy.register {g : Registry} (hg : g.IsTidy) {p : Plugin} (hp : p.IsTidy) :
    (g.register p).IsTidy := by
  intro x hx
  rcases Mapping.mem_putNamed hx with hx | hx
  · exact hx ▸ hp
  · exact hg x hx

theorem plugins_mapExtension {g g' : Registry} {extension id : String}
    (h : g.mapExtension extension id = .ok g') : g'.plugins = g.plugins := by
  unfold mapExtension at h
  split at h
  · cases h
    rfl
  · cases h

theorem isTidy_of_mapExtensions {xs : List (String × String)} {g g' : Registry} (hg : g.IsTidy)
    (h : xs.foldlM (fun r x => r.mapExtension x.1 x.2) g = .ok g') : g'.IsTidy := by
  induction xs generalizing g with
  | nil =>
    cases h
    exact hg
  | cons x xs ih =>
    rw [List.foldlM_cons] at h
    rcases hmap : g.mapExtension x.1 x.2 with e | g₁
    · rw [hmap] at h
      cases h
    · rw [hmap] at h
      refine @ih g₁ ?_ h
      unfold IsTidy
      rw [plugins_mapExtension hmap]
      exact hg

end Registry

/-! ### Projects -/

namespace Config

theorem isTidy_registered {xs : List CommandConfig} {g : Registry} (hg : g.IsTidy) :
    (xs.foldl (fun r p => r.register (Plugin.command p)) g).IsTidy := by
  induction xs generalizing g with
  | nil => exact hg
  | cons c xs ih =>
    exact ih (hg.register fun P _ hP q hscript hstyle =>
      Plugin.Command.law_compile hscript hstyle hP c)

theorem isTidy_registry {c : Config} {g : Registry} (h : c.registry = .ok g) : g.IsTidy :=
  Registry.isTidy_of_mapExtensions (isTidy_registered Registry.isTidy_initial) h

end Config

namespace Bundler

/-- A bundler is tidy if its plugins are, it rebases styles at most and leaves modules
alone. -/
theorem isTidy_of_registry {b : Bundler} (hregistry : b.registry.IsTidy)
    (hstyle : ∀ factory, b.style = some factory → factory = Style.rebasing)
    (hminify : b.minify = Minify.passthrough) : b.IsTidy := by
  intro P _ hP
  refine ⟨fun x hx q hscript hq => hregistry x hx P hP q hscript hq,
    fun factory h folder css p => ?_, fun o mapFile => ?_⟩
  · rw [hstyle factory h]
    exact Step.Law.pure _
  · rw [hminify]
    exact Step.Law.pure _

/-- A bundler that has the plugin for plain scripts alone, rebases styles at most and leaves
modules alone. -/
structure IsPlain (b : Bundler) : Prop where
  registry : b.registry = .initial
  style : ∀ factory, b.style = some factory → factory = Style.rebasing
  minify : b.minify = Minify.passthrough

theorem isPlain_default : ({} : Bundler).IsPlain := ⟨rfl, fun _ h => (by cases h), rfl⟩

/-- What a plain bundler brings along never lacks depth. -/
theorem IsPlain.upholds {b : Bundler} (hb : b.IsPlain) {P : ∀ {α : Type}, Step α → Prop}
    [Step.BoundedLaw P] : b.Upholds P := by
  refine ⟨fun x hx q hscript _ => ?_, fun factory h folder css p => ?_, fun o mapFile => ?_⟩
  · rw [hb.registry] at hx
    obtain rfl := List.mem_singleton.1 hx
    exact Plugin.law_ecmascript hscript
  · rw [hb.style factory h]
    exact Step.BoundedLaw.pure _
  · rw [hb.minify]
    exact Step.BoundedLaw.pure _

theorem IsPlain.isDiscreet {b : Bundler} (hb : b.IsPlain) : b.IsDiscreet := fun _ _ => hb.upholds

/-- A bundler is discreet if it has the plugin for plain scripts alone, rebases styles at
most and leaves modules alone. -/
theorem isDiscreet_of_initial {b : Bundler} (hregistry : b.registry = .initial)
    (hstyle : ∀ factory, b.style = some factory → factory = Style.rebasing)
    (hminify : b.minify = Minify.passthrough) : b.IsDiscreet :=
  IsPlain.isDiscreet ⟨hregistry, hstyle, hminify⟩

/-- **The bundler of a project is tidy**, with whatever commands it compiles. -/
theorem isTidy_of_bundler {c : Config} {b : Bundler} (h : c.bundler = .ok b) : b.IsTidy := by
  unfold Config.bundler at h
  rcases hregistry : c.registry with e | g
  · rw [hregistry] at h
    cases h
  rcases htable : c.table with e | t
  · rw [hregistry, htable] at h
    cases h
  rw [hregistry, htable] at h
  cases h
  refine isTidy_of_registry (Config.isTidy_registry hregistry) (fun factory hstyle => ?_) rfl
  change c.styles = some factory at hstyle
  unfold Config.styles at hstyle
  split at hstyle
  · exact (Option.some.inj hstyle).symm
  · cases hstyle

end Bundler
end ElementBuild
