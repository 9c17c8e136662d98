/-
# What copying a script claims and writes

Each script that is copied was followed from one that is being copied.  So a relation
between sources and copies that following a reference carries on holds between all
that a run claims, and all that it writes (`Session.follows_script`).
-/
import ElementBuild.Proofs.Growth
import ElementBuild.Proofs.Path.Segments

namespace ElementBuild

/-- The folder of a path has its segments but the last. -/
theorem Path.segments_folder {p : Path} {cs : List Segment} {s : String}
    (h : p.segments = cs ++ [.name s]) : p.folder.segments = cs := by
  obtain ⟨q, hq, hcs⟩ := Path.segments_parent? h
  rw [Path.folder, hq]
  exact hcs

/-- A relative specifier opens with a dot, so it is not absolute. -/
theorem isAbsolute_of_isRelative {s : String} (h : Specifier.isRelative s = true) :
    (Path.mk s).isAbsolute = false := by
  have hhead : s.toList.head? = some '.' := by
    unfold Specifier.isRelative at h
    simp only [Bool.or_eq_true, List.isPrefixOf_iff_prefix, beq_iff_eq] at h
    rcases h with ((⟨rest, hrest⟩ | ⟨rest, hrest⟩) | rfl) | rfl
    · rw [← hrest]
      rfl
    · rw [← hrest]
      rfl
    · rfl
    · rfl
  unfold Path.isAbsolute
  rw [hhead]
  rfl

namespace Copy

variable {depth : Nat} {source destination base : Path} {s : Session}

/-- Nothing is done for a pair that was claimed. -/
theorem run_script_of_has (h : s.copies.has source destination = true) :
    ((script (depth + 1) source destination base).run.run s : Except Failure Unit × Session) =
      (.ok (), s) := by
  have hclaim : (Step.claim source destination).Gives s false s := by
    refine Step.gives_claim.2 ?_
    rw [CopyCache.claim, if_pos h]
    exact ⟨rfl, rfl⟩
  exact Step.run_bind_ok hclaim

/-- A pair that is free is claimed, and its script is copied. -/
theorem run_script_of_free (h : s.copies.has source destination = false) :
    ((script (depth + 1) source destination base).run.run s : Except Failure Unit × Session) =
      (copyClaimed (fun s d => script depth s d base) source destination base).run.run
        { s with copies := ⟨(source, destination) :: s.copies.pairs⟩ } := by
  have hclaim : (Step.claim source destination).Gives s true
      { s with copies := ⟨(source, destination) :: s.copies.pairs⟩ } := by
    refine Step.gives_claim.2 ?_
    rw [CopyCache.claim, if_neg (by simp [h])]
    exact ⟨rfl, rfl⟩
  exact Step.run_bind_ok hclaim

/-- A run of copying a pair finds it claimed, or claims it and copies its script. -/
theorem gives_script {s' : Session}
    (h : (script (depth + 1) source destination base).Gives s () s') :
    (s.copies.has source destination = true ∧ s' = s) ∨
    (s.copies.has source destination = false ∧
      (copyClaimed (fun s d => script depth s d base) source destination base).Gives
        { s with copies := ⟨(source, destination) :: s.copies.pairs⟩ } () s') := by
  unfold Step.Gives at h
  cases hhas : s.copies.has source destination with
  | true =>
    rw [run_script_of_has hhas] at h
    exact .inl ⟨rfl, (Prod.mk.inj h).2.symm⟩
  | false =>
    rw [run_script_of_free hhas] at h
    exact .inr ⟨rfl, h⟩

/-- A script that was claimed is read and scanned, its references are followed, and its copy
is written once its folder is made. -/
theorem gives_copyClaimed {copyOn : Path → Path → Step Unit} {s' : Session}
    (h : (copyClaimed copyOn source destination base).Gives s () s') :
    ∃ code found log draft draft' u files,
      s.files.readText source = .ok code ∧ scan scanOptions code = .ok found ∧
      ((found.references.filter follows).foldlM
        (followReference copyOn source destination base code.toList) draft).Gives
          { s with log } draft' u ∧
      (u.files.createFolders destination.folder).1.write destination (.text draft'.toString) =
        .ok files ∧
      s' = { u with files, deliveries := u.deliveries ++ [⟨source, destination⟩] } := by
  obtain ⟨code, t, hread, hscanned⟩ := Step.gives_bind.1 h
  obtain ⟨hcode, rfl⟩ := Step.gives_read.1 (Step.gives_during.1 hread)
  obtain ⟨refs, t, hscan, hfollowed⟩ := Step.gives_bind.1 hscanned
  obtain ⟨found, hfound, rfl, log, rfl⟩ := Step.gives_scan (Step.gives_during.1 hscan)
  obtain ⟨draft', u, hfold, hplaced⟩ := Step.gives_bind.1 hfollowed
  obtain ⟨_, v, hmade, hwrite⟩ := Step.gives_bind.1 hplaced
  obtain ⟨-, rfl⟩ := Step.gives_createFolders.1 (Step.gives_during.1 hmade)
  obtain ⟨files, hfiles, rfl⟩ := Step.gives_write.1 (Step.gives_during.1 hwrite)
  exact ⟨code, found, log, _, draft', u, files, hcode, hfound, hfold, hfiles, rfl⟩

end Copy

/-- What is claimed and written between two sessions, apart from what was before, are
files and copies that are related. -/
structure Session.Adds (R : Path → Path → Prop) (s s' : Session) : Prop where
  pairs : ∀ p ∈ s'.copies.pairs, p ∈ s.copies.pairs ∨ R p.1 p.2
  deliveries : ∀ d ∈ s'.deliveries, d ∈ s.deliveries ∨ R d.source d.target

/-- A reference that a script refers by, seen from the folders of the script and of
its copy. -/
structure Followed.Leads (f : Followed) (base source copy : Path) : Prop where
  folder : f.folder = source.folder
  copied : f.copied = copy.folder
  landing : f.landing = Path.confine base (f.copied.join ⟨f.target⟩)
  relative : (Path.mk f.target).isAbsolute = false

/-- Following references, a relation between scripts and copies is carried on. -/
def Session.Carries (R : Path → Path → Prop) (base : Path) (s : Session) : Prop :=
  ∀ f, .followed f ∈ s.events → ∀ source copy, R source copy → f.Leads base source copy →
    R f.found f.landing

namespace Session

variable {R : Path → Path → Prop} {base : Path} {s s' : Session}

theorem Adds.refl (s : Session) : s.Adds R s := ⟨fun _ h => .inl h, fun _ h => .inl h⟩

theorem Adds.trans {t : Session} (h₁ : s.Adds R t) (h₂ : t.Adds R s') : s.Adds R s' := by
  constructor
  · intro p hp
    exact (h₂.pairs p hp).elim (h₁.pairs p) .inr
  · intro d hd
    exact (h₂.deliveries d hd).elim (h₁.deliveries d) .inr

theorem Carries.mono (h : s'.Carries R base) (hs : s.Extends s') : s.Carries R base :=
  fun f hf => h f (hs.event_mem hf)

/-- A later session adds related files, as long as following carries the relation
on. -/
def Follows (R : Path → Path → Prop) (base : Path) (s s' : Session) : Prop :=
  s.Extends s' ∧ (s'.Carries R base → s.Adds R s')

instance : IsPreorder Session (Follows R base) where
  refl s := ⟨.refl s, fun _ => .refl s⟩
  trans _ _ _ h₁ h₂ := ⟨trans_of Extends h₁.1 h₂.1, fun h =>
    (h₁.2 (h.mono h₂.1)).trans (h₂.2 h)⟩

/-- Handling a reference finds its script and copies that to its landing place, once the
folder of that place is made. -/
theorem gives_followReference {copyOn : Path → Path → Step Unit} {source copy : Path}
    {code : List Char} {draft draft' : Text.Draft} {ref : Reference}
    (h : (Copy.followReference copyOn source copy base code draft ref).Gives s draft' s') :
    ∃ found files, s.files.resolve ref.target [source.folder] = .ok found ∧
      (files = s.files ∨ ∃ folder, files = (s.files.createFolders folder).1) ∧
      (copyOn found (Copy.landing base copy ref)).Gives { s with
        files, events := s.events ++ [.followed
          ⟨source.folder, copy.folder, ref.target, found, Copy.landing base copy ref⟩] } () s' := by
  unfold Copy.followReference at h
  rw [Step.gives_bind] at h
  obtain ⟨found, t, hfound, h⟩ := h
  obtain ⟨hresolved, rfl⟩ := Step.gives_resolve.1 hfound
  dsimp only at h
  rw [Step.gives_bind] at h
  obtain ⟨_, t₁, htrace, h⟩ := h
  obtain rfl := Step.gives_trace.1 htrace
  have hrest : ∀ t₂ : Session, Step.Gives (do
      let draft ← Step.edit draft (Reference.retarget code ref.literal
        (Copy.specifier copy ref (Copy.landing base copy ref)))
      copyOn found (Copy.landing base copy ref)
      return draft) t₂ draft' s' → (copyOn found (Copy.landing base copy ref)).Gives t₂ () s' := by
    intro t₂ hrun
    obtain ⟨_, t₃, hedit, hlater⟩ := Step.gives_bind.1 hrun
    obtain ⟨-, rfl⟩ := Step.gives_edit.1 hedit
    obtain ⟨_, t₄, hcopy, hlast⟩ := Step.gives_bind.1 hlater
    obtain ⟨-, rfl⟩ := Step.gives_pure.1 hlast
    exact hcopy
  split at h
  · rw [Step.gives_bind] at h
    obtain ⟨_, t₂, hmade, h⟩ := h
    obtain ⟨-, rfl⟩ := Step.gives_createFolders.1 (Step.gives_during.1 hmade)
    exact ⟨found, _, hresolved, .inr ⟨_, rfl⟩, hrest _ h⟩
  · exact ⟨found, _, hresolved, .inl rfl, hrest _ h⟩

/-- Handling one reference of a script that is related to its copy. -/
theorem follows_followReference {copyOn : Path → Path → Step Unit} {source copy : Path}
    (hrelated : R source copy)
    (hextends : ∀ found landing, (copyOn found landing).Respects Extends)
    (hcopy : ∀ found landing, R found landing → (copyOn found landing).Respects (Follows R base))
    (code : List Char) (draft : Text.Draft) {ref : Reference} (href : Copy.follows ref = true) :
    (Copy.followReference copyOn source copy base code draft ref).Respects (Follows R base) := by
  intro s draft' s' h
  have hgrown : s.Extends s' :=
    Extends.building.steps.followReference hextends source copy base code draft ref s draft' s' h
  obtain ⟨found, files, -, -, hrun⟩ := gives_followReference h
  refine ⟨hgrown, fun hcarries => ?_⟩
  have hrelative : (Path.mk ref.target).isAbsolute = false := by
    rw [Copy.follows, Bool.and_eq_true] at href
    exact isAbsolute_of_isRelative href.2
  generalize hlanding : Copy.landing base copy ref = landing at hrun
  have hlater := hextends found landing _ () s' hrun
  have hevent := hlater.event_mem (List.mem_append_right s.events (List.mem_singleton_self _))
  have hfound := hcarries _ hevent source copy hrelated ⟨rfl, rfl, hlanding.symm, hrelative⟩
  have hadds := (hcopy found landing hfound _ () s' hrun).2 hcarries
  exact ⟨hadds.pairs, hadds.deliveries⟩

/-- **Copying a script claims and writes nothing but related files**, as long as
following references carries the relation on. -/
theorem follows_script (depth : Nat) {source copy : Path} (hrelated : R source copy) :
    (Copy.script depth source copy base).Respects (Follows R base) := by
  induction depth generalizing source copy with
  | zero => exact .fail _
  | succ depth ih =>
    intro s _ s' h
    have hgrown : s.Extends s' :=
      Extends.building.steps.script (depth + 1) source copy base s () s' h
    rcases Copy.gives_script h with ⟨-, rfl⟩ | ⟨-, hclaimed⟩
    · exact refl_of (Follows R base) s'
    · obtain ⟨code, found, log, draft, draft', u, files, -, -, hfold, -, rfl⟩ :=
        Copy.gives_copyClaimed hclaimed
      have hfollow : ∀ draft, ∀ ref ∈ found.references.filter Copy.follows,
          (Copy.followReference (fun source copy => Copy.script depth source copy base) source copy
            base code.toList draft ref).Respects (Follows R base) := fun draft ref href =>
        follows_followReference hrelated
          (fun found landing => Extends.building.steps.script depth found landing base)
          (fun found landing hfound => ih hfound) code.toList draft (List.mem_filter.1 href).2
      have hfollows := Step.Respects.foldlM hfollow draft _ draft' u hfold
      refine ⟨hgrown, fun hcarries => ⟨fun p hp => ?_, fun d hd => ?_⟩⟩
      · refine ((hfollows.2 hcarries).pairs p hp).elim (fun hp => ?_) .inr
        rcases List.mem_cons.1 hp with rfl | hp
        · exact .inr hrelated
        · exact .inl hp
      · rcases List.mem_append.1 hd with hd | hd
        · exact (hfollows.2 hcarries).deliveries d hd
        · exact .inr (List.mem_singleton.1 hd ▸ hrelated)

end Session
end ElementBuild
