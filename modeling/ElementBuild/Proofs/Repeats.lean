/-
# Runs that are repeated

A run that is repeated on the files that it ended with finds there what it made: each place
holds what it held the first time, or what it held in the end (`Session.Repeats`).  So the
folders that it makes exist, and what it writes is written to the same places, over what
stands there.  What it reads is the same if the places that it changed have no part in it
(`Session.Within.read_eq`).  Then its steps can be repeated one after the other, and end with
the same (`Step.Repeatable`).

The runs of some steps can be repeated wherever they happen in the course of a run
(`Step.Recurs`).
-/
import ElementBuild.Proofs.Copy.Closure
import ElementBuild.Proofs.FileTree.Recurs
import ElementBuild.Proofs.Growth
import ElementBuild.Proofs.Rounds

namespace ElementBuild
namespace Session

/-! ### Sessions of a run -/

/-- A session leads to another: files change where they are delivered, and nothing is
forgotten. -/
structure Leads (s s' : Session) : Prop where
  touches : s.Touches s'
  extended : s.Extends s'

namespace Leads

instance : IsPreorder Session Leads where
  refl s := ⟨refl_of Touches s, refl_of Extends s⟩
  trans _ _ _ h₁ h₂ := ⟨trans_of Touches h₁.touches h₂.touches,
    trans_of Extends h₁.extended h₂.extended⟩

theorem building : Session.Building Leads where
  log s xs := ⟨Touches.building.log s xs, Extends.building.log s xs⟩
  mapped s xs := ⟨Touches.building.mapped s xs, Extends.building.mapped s xs⟩
  folders s p := ⟨Touches.building.folders s p, Extends.building.folders s p⟩
  deliveries s d t h := ⟨Touches.building.deliveries s d t h, Extends.building.deliveries s d t h⟩
  copies s p q := ⟨Touches.building.copies s p q, Extends.building.copies s p q⟩
  followed s f := ⟨Touches.building.followed s f, Extends.building.followed s f⟩
  begun s p q := ⟨Touches.building.begun s p q, Extends.building.begun s p q⟩
  bundles s b := ⟨Touches.building.bundles s b, Extends.building.bundles s b⟩
  entered s p q := ⟨Touches.building.entered s p q, Extends.building.entered s p q⟩
  linked s l := ⟨Touches.building.linked s l, Extends.building.linked s l⟩

theorem pointed (s : Session) (p : Pointed) :
    s.Leads { s with events := s.events ++ [.pointed p] } :=
  ⟨.of_eq rfl rfl, Extends.pointed s p⟩

end Leads

/-- A session in the course of a run between two others. -/
structure Within (s e u : Session) : Prop where
  wellFormed : s.files.WellFormed
  before : s.Leads u
  after : u.Leads e

namespace Within

variable {s e u t : Session} (h : s.Within e u)
include h

theorem files : u.files.WellFormed := (h.before.touches.fills.kept h.wellFormed).1

theorem grows : u.files.Grows e.files := (h.after.touches.fills.kept h.files).2

/-- A session between two of a run is one of the run. -/
theorem of_leads (hut : u.Leads t) (hte : t.Leads e) : s.Within e t :=
  ⟨h.wellFormed, trans_of Leads h.before hut, hte⟩

/-- What relies on spared places is read in the course of the run as at its start. -/
theorem read_start {α : Type} {read : FileTree → α} (hrelies : s.files.Relies (s.Spares e) read) :
    read u.files = read s.files :=
  h.before.touches.read_eq h.after.touches h.wellFormed hrelies

end Within

/-! ### Repeated sessions -/

/-- A session of a run and one of its repetition, on the files that it ended with: the files
come again, and the rest is the same. -/
structure Repeats (e u v : Session) : Prop where
  files : u.files.Recurs e.files v.files
  copies : v.copies = u.copies
  builds : v.builds = u.builds
  bundles : v.bundles = u.bundles
  mapped : v.mapped = u.mapped

variable {s e u v : Session}

/-- What is no part of a repetition may change. -/
theorem Repeats.congr {u' v' : Session} (h : e.Repeats u v) (hfiles : v'.files = v.files)
    (hfiles' : u'.files = u.files) (hcopies : v'.copies = u'.copies)
    (hbuilds : v'.builds = u'.builds) (hbundles : v'.bundles = u'.bundles)
    (hmapped : v'.mapped = u'.mapped) : e.Repeats u' v' :=
  ⟨by rw [hfiles, hfiles']; exact h.files, hcopies, hbuilds, hbundles, hmapped⟩

/-- What stands in the course of a run stands when it is repeated. -/
theorem Repeats.grows (h : e.Repeats u v) (hu : s.Within e u) : u.files.Grows v.files :=
  trans_of FileTree.Grows hu.grows h.files.grows

/-- **What relies on spared places is read again as it was the first time.** -/
theorem Within.read_eq (h : s.Within e u) (hv : e.Repeats u v) {α : Type} {read : FileTree → α}
    (hrelies : s.files.Relies (s.Spares e) read) : read v.files = read u.files := by
  have hcurrent : v.files.current = s.files.current :=
    (hv.grows h).current.trans (h.before.touches.fills.kept h.wellFormed).2.current
  refine (hrelies v.files hv.files.wellFormed hcurrent fun l hl => ?_).trans (h.read_start hrelies).symm
  rcases hv.files.places l with hplace | hplace
  · exact hplace.trans (h.before.touches.get?_of_spares h.after.touches h.wellFormed hl)
  · exact hplace.trans hl.1

end Session

/-! ### Runs that can be repeated -/

namespace Step

variable {α β : Type} {s e u t u' : Session} {a : α} {b : β}

/-- A run of a step can be repeated, and ends with the same. -/
def Repeatable (e : Session) (x : Step α) (u : Session) (a : α) (u' : Session) : Prop :=
  ∀ v, e.Repeats u v → ∃ v', x.Gives v a v' ∧ e.Repeats u' v'

namespace Repeatable

protected theorem pure (a : α) (u : Session) : (Pure.pure a : Step α).Repeatable e u a u :=
  fun v hv => ⟨v, gives_pure.2 ⟨rfl, rfl⟩, hv⟩

protected theorem bind {x : Step α} {f : α → Step β} (hx : x.Repeatable e u a t)
    (hf : (f a).Repeatable e t b u') : (x >>= f).Repeatable e u b u' := by
  intro v hv
  obtain ⟨w, hgives, hw⟩ := hx v hv
  obtain ⟨v', hgives', hv'⟩ := hf w hw
  exact ⟨v', gives_bind.2 ⟨a, w, hgives, hgives'⟩, hv'⟩

protected theorem during {x : Step α} (activity : Activity) (hx : x.Repeatable e u a u') :
    (Step.during activity x).Repeatable e u a u' := fun v hv => by
  obtain ⟨v', hgives, hv'⟩ := hx v hv
  exact ⟨v', gives_during.2 hgives, hv'⟩

/-- A step that is chosen by the session, if the same is chosen. -/
theorem get_bind {f : Session → Step β} (hf : (f u).Repeatable e u b u')
    (hsame : ∀ v, e.Repeats u v → f v = f u) : (get >>= f).Repeatable e u b u' := fun v hv => by
  obtain ⟨v', hgives, hv'⟩ := hf v hv
  exact ⟨v', gives_bind.2 ⟨v, v, gives_get.2 ⟨rfl, rfl⟩, (hsame v hv).symm ▸ hgives⟩, hv'⟩

/-- A step that is chosen by the files, if the same is chosen. -/
theorem files_bind {f : FileTree → Step β} (hf : (f u.files).Repeatable e u b u')
    (hsame : ∀ v, e.Repeats u v → f v.files = f u.files) :
    (Step.files >>= f).Repeatable e u b u' := fun v hv => by
  obtain ⟨v', hgives, hv'⟩ := hf v hv
  exact ⟨v', gives_bind.2 ⟨v.files, v, gives_files.2 ⟨rfl, rfl⟩, (hsame v hv).symm ▸ hgives⟩, hv'⟩

/-- What is computed without the session is computed again. -/
protected theorem ofExcept {ε : Type} {fault : ε → Fault} {r : Except ε α} (h : r = .ok a) :
    (Step.ofExcept fault r).Repeatable e u a u :=
  fun v hv => ⟨v, gives_ofExcept.2 ⟨h, rfl⟩, hv⟩

protected theorem edit {d d' : Text.Draft} {edit : Text.Edit} (h : d.edit edit = .ok d') :
    (Step.edit d edit).Repeatable e u d' u := .ofExcept h

protected theorem fromFiles {f : FileTree → Except FileError α} (h : f u.files = .ok a)
    (hsame : ∀ v, e.Repeats u v → f v.files = f u.files) :
    (Step.fromFiles f).Repeatable e u a u :=
  fun v hv => ⟨v, gives_fromFiles.2 ⟨(hsame v hv).trans h, rfl⟩, hv⟩

protected theorem resolve {specifier : String} {paths : List Path} {found : Path}
    (h : u.files.resolve specifier paths = .ok found)
    (hsame : ∀ v, e.Repeats u v →
      v.files.resolve specifier paths = u.files.resolve specifier paths) :
    (Step.resolve specifier paths).Repeatable e u found u :=
  fun v hv => ⟨v, gives_resolve.2 ⟨(hsame v hv).trans h, rfl⟩, hv⟩

/-- A change of the session that has no part in a repetition. -/
protected theorem modify {f : Session → Session} (hfiles : ∀ s, (f s).files = s.files)
    (hcopies : ∀ s, (f s).copies = s.copies) (hbuilds : ∀ s, (f s).builds = s.builds)
    (hbundles : ∀ s, (f s).bundles = s.bundles) (hmapped : ∀ s, (f s).mapped = s.mapped) :
    (modify f : Step PUnit).Repeatable e u ⟨⟩ (f u) := fun v hv => by
  refine ⟨f v, gives_modify.2 rfl, hv.congr (hfiles v) (hfiles u) ?_ ?_ ?_ ?_⟩
  · rw [hcopies, hcopies, hv.copies]
  · rw [hbuilds, hbuilds, hv.builds]
  · rw [hbundles, hbundles, hv.bundles]
  · rw [hmapped, hmapped, hv.mapped]

protected theorem setMapped (mapped : List String) :
    (modify fun s => { s with mapped } : Step PUnit).Repeatable e u ⟨⟩ { u with mapped } :=
  fun _ hv => ⟨_, gives_modify.2 rfl, hv.congr rfl rfl hv.copies hv.builds hv.bundles rfl⟩

protected theorem tell (r : LogRecord) :
    (Step.tell r).Repeatable e u () { u with log := u.log ++ [r] } :=
  .modify (fun _ => rfl) (fun _ => rfl) (fun _ => rfl) (fun _ => rfl) fun _ => rfl

protected theorem trace (event : Event) :
    (Step.trace event).Repeatable e u () { u with events := u.events ++ [event] } :=
  .modify (fun _ => rfl) (fun _ => rfl) (fun _ => rfl) (fun _ => rfl) fun _ => rfl

protected theorem record (bundle : Bundle) :
    (Step.record bundle).Repeatable e u () { u with bundles := u.bundles ++ [bundle] } :=
  fun _ hv => ⟨_, gives_record.2 rfl, hv.congr rfl rfl hv.copies hv.builds
    (congrArg (· ++ [bundle]) hv.bundles) hv.mapped⟩

protected theorem claim (source destination : Path) :
    (Step.claim source destination).Repeatable e u (u.copies.claim source destination).1
      { u with copies := (u.copies.claim source destination).2 } := fun v hv => by
  refine ⟨_, gives_claim.2 ⟨?_, rfl⟩, hv.congr rfl rfl ?_ hv.builds hv.bundles hv.mapped⟩
  · rw [hv.copies]
  · exact congrArg (fun c : CopyCache => (c.claim source destination).2) hv.copies

protected theorem attempt {entry destination : Path} {x : Step Unit}
    (hx : x.Repeatable e (u.begin entry destination) () u') :
    (Step.attempt entry destination x).Repeatable e u () u' := fun v hv => by
  obtain ⟨v', hgives, hv'⟩ := hx (v.begin entry destination) (hv.congr rfl rfl hv.copies
    (congrArg (·.register entry destination) hv.builds) hv.bundles hv.mapped)
  exact ⟨v', gives_attempt.2 hgives, hv'⟩

/-- What each round of a fold repeats, the fold does. -/
protected theorem foldlM {f : β → α → Step β} {xs : List α} {b c : β}
    (h : (xs.foldlM f b).Gives u c u')
    (hround : ∀ x d t d' t', Reaches f xs b u x d t → (f d x).Gives t d' t' →
      (∃ after, after ⊆ xs ∧ (after.foldlM f d').Gives t' c u') →
        (f d x).Repeatable e t d' t') : (xs.foldlM f b).Repeatable e u c u' := by
  induction xs generalizing b u with
  | nil =>
    obtain ⟨rfl, rfl⟩ := gives_pure.1 h
    exact .pure _ _
  | cons x xs ih =>
    rw [List.foldlM_cons, gives_bind] at h
    obtain ⟨d, t, hx, hrest⟩ := h
    rw [List.foldlM_cons]
    refine .bind (hround x b u d t ⟨[], xs, rfl, gives_pure.2 ⟨rfl, rfl⟩⟩ hx
      ⟨xs, List.subset_cons_self _ _, hrest⟩) (ih hrest ?_)
    rintro y d₁ t₁ d₂ t₂ ⟨before, after, rfl, hbefore⟩ hy ⟨later, hlater, hgives⟩
    refine hround y d₁ t₁ d₂ t₂ ⟨x :: before, after, rfl, ?_⟩ hy
      ⟨later, List.subset_cons_of_subset _ hlater, hgives⟩
    rw [List.foldlM_cons]
    exact gives_bind.2 ⟨d, t, hx, hbefore⟩

end Repeatable

/-! ### Steps whose runs can be repeated -/

/-- A run of a step in the course of a run between two sessions. -/
structure Run (s e : Session) (x : Step α) (u : Session) (a : α) (u' : Session) : Prop where
  start : s.Within e u
  gives : x.Gives u a u'
  stop : s.Within e u'

/-- The runs of a step can be repeated, wherever they happen in the course of a run. -/
structure Recurs (s e : Session) (x : Step α) : Prop where
  leads : x.Respects Session.Leads
  again : ∀ u a u', Run s e x u a u' → x.Repeatable e u a u'

namespace Recurs

/-- A step whose runs can be repeated, and then one that can be repeated after them. -/
theorem bind_run {x : Step α} {f : α → Step β} (hx : Recurs s e x)
    (hf : ∀ a, (f a).Respects Session.Leads)
    (h : ∀ u a t b u', Run s e x u a t → Run s e (f a) t b u' → (f a).Repeatable e t b u') :
    Recurs s e (x >>= f) where
  leads := hx.leads.bind hf
  again u b u' hrun := by
    obtain ⟨a, t, hgives, hgives'⟩ := gives_bind.1 hrun.gives
    have hlater := hf a _ _ _ hgives'
    have ht : s.Within e t := hrun.start.of_leads (hx.leads _ _ _ hgives)
      (trans_of Session.Leads hlater hrun.stop.after)
    have hxrun : Run s e x u a t := ⟨hrun.start, hgives, ht⟩
    exact .bind (hx.again _ _ _ hxrun) (h u a t b u' hxrun ⟨ht, hgives', hrun.stop⟩)

protected theorem bind {x : Step α} {f : α → Step β} (hx : Recurs s e x)
    (hf : ∀ a, Recurs s e (f a)) : Recurs s e (x >>= f) :=
  hx.bind_run (fun a => (hf a).leads) fun _ a t b u' _ hrun => (hf a).again t b u' hrun

protected theorem pure (a : α) : Recurs s e (Pure.pure a : Step α) where
  leads := .pure a
  again u b u' hrun := by
    obtain ⟨rfl, rfl⟩ := gives_pure.1 hrun.gives
    exact .pure _ _

protected theorem fail (f : Fault) : Recurs s e (Step.fail f : Step α) :=
  ⟨.fail f, fun _ _ _ hrun => absurd hrun.gives gives_fail⟩

protected theorem during {x : Step α} (activity : Activity) (hx : Recurs s e x) :
    Recurs s e (Step.during activity x) where
  leads := hx.leads.during activity
  again u a u' hrun :=
    .during activity (hx.again u a u' ⟨hrun.start, gives_during.1 hrun.gives, hrun.stop⟩)

protected theorem ofExcept {ε : Type} (fault : ε → Fault) (r : Except ε α) :
    Recurs s e (Step.ofExcept fault r) where
  leads := .ofExcept fault r
  again u a u' hrun := by
    obtain ⟨hr, rfl⟩ := gives_ofExcept.1 hrun.gives
    exact .ofExcept hr

protected theorem edit (d : Text.Draft) (edit : Text.Edit) : Recurs s e (Step.edit d edit) :=
  .ofExcept _ _

protected theorem tell (r : LogRecord) : Recurs s e (Step.tell r) where
  leads := Session.Leads.building.toNoting.steps.tell r
  again u a u' hrun := by
    obtain rfl := gives_tell.1 hrun.gives
    exact .tell r

protected theorem followed (f : Followed) : Recurs s e (Step.trace (.followed f)) where
  leads := Session.Leads.building.toCopying.steps.followed f
  again u a u' hrun := by
    obtain rfl := gives_trace.1 hrun.gives
    exact .trace _

protected theorem claim (source destination : Path) :
    Recurs s e (Step.claim source destination) where
  leads := Session.Leads.building.toCopying.steps.claim source destination
  again u a u' hrun := by
    obtain ⟨rfl, rfl⟩ := gives_claim.1 hrun.gives
    exact .claim source destination

protected theorem record (bundle : Bundle) : Recurs s e (Step.record bundle) where
  leads := Session.Leads.building.toCompiling.steps.record bundle
  again u a u' hrun := by
    obtain rfl := gives_record.1 hrun.gives
    exact .record bundle

/-- What each round of a fold has, the fold has. -/
protected theorem foldlM {f : β → α → Step β} {xs : List α}
    (hf : ∀ b, ∀ x ∈ xs, Recurs s e (f b x)) : ∀ b, Recurs s e (xs.foldlM f b) := by
  induction xs with
  | nil => exact fun b => .pure b
  | cons x xs ih =>
    intro b
    rw [List.foldlM_cons]
    exact (hf b x List.mem_cons_self).bind
      fun c => ih (fun b y hy => hf b y (List.mem_cons_of_mem _ hy)) c

protected theorem forM {f : α → Step PUnit} (hf : ∀ x, Recurs s e (f x)) (xs : List α) :
    Recurs s e (xs.forM f) := by
  induction xs with
  | nil => exact .pure _
  | cons x xs ih => exact (hf x).bind fun _ => ih

protected theorem scan (options : ScanOptions) (code : String) :
    Recurs s e (Step.scan options code) :=
  (Recurs.ofExcept _ _).bind fun _ => (Recurs.forM (fun _ => .tell _) _).bind fun _ => .pure _

/-! ### Files -/

/-- What relies on spared places is computed again. -/
protected theorem fromFiles {f : FileTree → Except FileError α}
    (hrelies : s.files.Relies (s.Spares e) f) : Recurs s e (Step.fromFiles f) where
  leads := .fromFiles f
  again u a u' hrun := by
    obtain ⟨hf, rfl⟩ := gives_fromFiles.1 hrun.gives
    exact .fromFiles hf fun v hv => hrun.start.read_eq hv hrelies

/-- A step that is chosen by something which relies on spared places. -/
theorem files_bind {γ : Type} {g : FileTree → γ} (hrelies : s.files.Relies (s.Spares e) g)
    {f : γ → Step β} (hf : Recurs s e (f (g s.files))) (hleads : ∀ c, (f c).Respects Session.Leads) :
    Recurs s e (Step.files >>= fun t => f (g t)) where
  leads := Respects.files.bind fun t => hleads _
  again u b u' hrun := by
    obtain ⟨t, u₁, hfiles, hgives⟩ := gives_bind.1 hrun.gives
    obtain ⟨rfl, rfl⟩ := gives_files.1 hfiles
    refine .files_bind ?_ fun v hv => congrArg f (hrun.start.read_eq hv hrelies)
    rw [hrun.start.read_start hrelies] at hgives ⊢
    exact hf.again _ _ _ ⟨hrun.start, hgives, hrun.stop⟩

protected theorem createFolders (p : Path) : Recurs s e (Step.createFolders p) where
  leads := Session.Leads.building.toDelivering.steps.createFolders p
  again u a u' hrun := fun v hv => by
    obtain ⟨hmade, rfl⟩ := gives_createFolders.1 hrun.gives
    obtain ⟨hagain, hfiles⟩ := hv.files.createFolders hrun.start.files hmade hrun.stop.grows
    refine ⟨v, gives_createFolders.2 ⟨congrArg Prod.snd hagain, ?_⟩, hfiles, hv.copies, hv.builds,
      hv.bundles, hv.mapped⟩
    rw [hagain]

protected theorem createFolder (folder : Path) : Recurs s e (Copy.createFolder folder) :=
  .during _ (.createFolders folder)

protected theorem write (source target : Path) (text : String) :
    Recurs s e (Step.write source target text) where
  leads := Session.Leads.building.toDelivering.steps.write source target text
  again u a u' hrun := fun v hv => by
    obtain ⟨t, hwrite, rfl⟩ := gives_write.1 hrun.gives
    obtain ⟨l, -, -, hagain, hfiles⟩ := hv.files.write hrun.start.files hwrite hrun.stop.grows
    exact ⟨_, gives_write.2 ⟨_, hagain, rfl⟩, hfiles, hv.copies, hv.builds, hv.bundles, hv.mapped⟩

/-- A file is copied again, if what is read of it relies on spared places. -/
protected theorem deliverCopy {source : Path} (target : Path)
    (hrelies : s.files.Relies (s.Spares e) (·.read source)) :
    Recurs s e (Step.deliver source target fun t => t.copyFile source target) where
  leads := Session.Leads.building.toDelivering.steps.deliverCopy source target
  again u a u' hrun := fun v hv => by
    obtain ⟨t, hcopy, rfl⟩ := gives_deliver.1 hrun.gives
    obtain ⟨t', hagain, hfiles⟩ := hv.files.copyFile hrun.start.files hcopy hrun.stop.grows
      (hrun.start.read_eq hv hrelies)
    exact ⟨_, gives_deliver.2 ⟨_, hagain, rfl⟩, hfiles, hv.copies, hv.builds, hv.bundles, hv.mapped⟩

end Recurs
end Step
end ElementBuild
