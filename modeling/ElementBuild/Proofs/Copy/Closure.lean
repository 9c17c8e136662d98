/-
# Copies are closed under references

A script claims its pair before it is read, and what it refers to is claimed while its
references are followed.  So whatever a run claims, it serves (`Session.Serves`): the
script was read, and each of its references found a script that is claimed, too, for the
place where it lands.  That holds for scripts that refer to each other in circles as well:
the claim is found there, and nothing more is done.

A script is read from the files as they are then.  If the places that the run changes have
no part in what it reads (`Session.Undisturbed`), that is what stood there before
(`closed_of_script`).
-/
import ElementBuild.Proofs.Copy.Pairs
import ElementBuild.Proofs.Files
import ElementBuild.Proofs.FileTree.Listing
import ElementBuild.Proofs.Resolution

namespace ElementBuild

/-! ### Reading -/

/-- What is read off a tree relies on some places alone: any tree that has the same there
gives the same. -/
def FileTree.Relies {α : Type} (t : FileTree) (places : Location → Prop) (read : FileTree → α) :
    Prop :=
  ∀ t' : FileTree, t'.WellFormed → t'.current = t.current →
    (∀ l, places l → t'.get? l = t.get? l) → read t' = read t

/-- No pair is claimed twice. -/
def CopyCache.IsDistinct (c : CopyCache) : Prop :=
  c.pairs.Pairwise fun p q => p.1.same q.1 = true → p.2.same q.2 = false

theorem CopyCache.IsDistinct.claim {c : CopyCache} (h : c.IsDistinct) (source destination : Path) :
    (c.claim source destination).2.IsDistinct := by
  unfold CopyCache.claim
  split
  · exact h
  · rename_i hfree
    refine List.pairwise_cons.2 ⟨fun q hq hsame => ?_, h⟩
    rw [← Bool.not_eq_true]
    intro hsame'
    have hhas : c.has source destination = true := by
      refine List.any_eq_true.2 ⟨q, hq, ?_⟩
      rw [Bool.and_eq_true, Path.same_comm, Path.same_comm q.2]
      exact ⟨hsame, hsame'⟩
    exact hfree hhas

namespace Session

/-- A place where nothing is written or made between two sessions. -/
def Spares (s s' : Session) (l : Location) : Prop :=
  s'.files.get? l = s.files.get? l ∧ ¬ s'.Filled l

/-- A place is spared if nothing is delivered there and what stands there stood there
before. -/
theorem spares_of_entries {s s' : Session} (hwf : s.files.WellFormed)
    (hgrows : s.files.Grows s'.files) {l : Location} (hl : l ≠ [])
    (hentries : ∀ x ∈ s'.files.entries, x.1 = l → x ∈ s.files.entries) (hfilled : ¬ s'.Filled l) :
    s.Spares s' l := by
  refine ⟨?_, hfilled⟩
  cases hget : s'.files.get? l with
  | some e => exact (hwf.get?_of_mem (hentries _ (FileTree.mem_of_get? hl hget) rfl)).symm
  | none =>
    cases hold : s.files.get? l with
    | none => rfl
    | some e =>
      obtain ⟨e', he', -⟩ := hgrows.entries l e hold
      cases hget.symm.trans he'

/-- Between two sessions, what changes is where files are delivered and folders made. -/
structure Touches (s s' : Session) : Prop where
  fills : s.Fills s'
  touched : s.files.WellFormed → ∀ l, s'.files.get? l = s.files.get? l ∨ s'.Filled l ∨
    s.files.get? l = none ∧ s'.files.get? l = some .folder

namespace Touches

variable {s t s' : Session}

instance : IsPreorder Session Touches where
  refl s := ⟨refl_of Fills s, fun _ _ => .inl rfl⟩
  trans s t s' h₁ h₂ := by
    refine ⟨trans_of Fills h₁.fills h₂.fills, fun hwf l => ?_⟩
    have hwf' := (h₁.fills.kept hwf).1
    rcases h₂.touched hwf' l with heq | hfilled | ⟨hnone, hfolder⟩
    · rcases h₁.touched hwf l with heq' | hfilled | ⟨hnone, hfolder⟩
      · exact .inl (heq.trans heq')
      · exact .inr (.inl (h₂.fills.filled hwf' hfilled))
      · exact .inr (.inr ⟨hnone, heq.trans hfolder⟩)
    · exact .inr (.inl hfilled)
    · rcases h₁.touched hwf l with heq' | hfilled | ⟨-, hfolder'⟩
      · exact .inr (.inr ⟨heq'.symm.trans hnone, hfolder⟩)
      · exact .inr (.inl (h₂.fills.filled hwf' hfilled))
      · cases hfolder'.symm.trans hnone

theorem of_eq (hfiles : s'.files = s.files) (hdeliveries : s'.deliveries = s.deliveries) :
    s.Touches s' :=
  ⟨.of_eq hfiles hdeliveries, fun _ _ => .inl (hfiles ▸ rfl)⟩

theorem congr (h : s.Touches t) (hfiles : s'.files = t.files)
    (hdeliveries : s'.deliveries = t.deliveries) : s.Touches s' :=
  trans_of Touches h (of_eq hfiles hdeliveries)

theorem folders (s : Session) (p : Path) :
    s.Touches { s with files := (s.files.createFolders p).1 } where
  fills := Fills.building.folders s p
  touched _ l := (FileTree.makesFolders_createFolders s.files p l).imp_right .inr

theorem delivery {d : Delivery} {t : FileTree} (h : s.files.Makes d t) :
    s.Touches { s with files := t, deliveries := s.deliveries ++ [d] } where
  fills := .of_delivery h
  touched hwf l := by
    obtain ⟨l₀, hl₀, -, hothers⟩ := h.exists_location hwf
    by_cases heq : l = l₀
    · exact .inr (.inl ⟨d, List.mem_append_right _ (List.mem_singleton_self d), heq ▸ hl₀⟩)
    · exact .inl (hothers l heq)

theorem building : Session.Building Touches where
  log _ _ := of_eq rfl rfl
  mapped _ _ := of_eq rfl rfl
  folders := folders
  deliveries _ _ _ h := delivery h
  copies _ _ _ := of_eq rfl rfl
  followed _ _ := of_eq rfl rfl
  begun _ _ _ := of_eq rfl rfl
  bundles _ _ := of_eq rfl rfl
  entered _ _ _ := of_eq rfl rfl
  linked _ _ := of_eq rfl rfl

/-- A place that is spared all the while is spared up to each session in between. -/
theorem get?_of_spares (h₁ : s.Touches t) (h₂ : t.Touches s') (hwf : s.files.WellFormed)
    {l : Location} (hl : s.Spares s' l) : t.files.get? l = s.files.get? l := by
  obtain ⟨hsame, hunfilled⟩ := hl
  have hwf' := (h₁.fills.kept hwf).1
  rcases h₁.touched hwf l with heq | hfilled | ⟨hnone, hfolder⟩
  · exact heq
  · exact absurd (h₂.fills.filled hwf' hfilled) hunfilled
  · have hlater := (h₂.fills.kept hwf').2.folder hfolder
    rw [hsame, hnone] at hlater
    cases hlater

/-- What relies on spared places is read in between as it is at the start. -/
theorem read_eq (h₁ : s.Touches t) (h₂ : t.Touches s') (hwf : s.files.WellFormed) {α : Type}
    {read : FileTree → α} (hrelies : s.files.Relies (s.Spares s') read) :
    read t.files = read s.files := by
  obtain ⟨hwf', hgrows⟩ := h₁.fills.kept hwf
  exact hrelies t.files hwf' hgrows.current fun l hl => h₁.get?_of_spares h₂ hwf hl

end Touches

/-! ### Following references -/

variable {base : Path} {p : Path × Path} {refs : List Reference} {s t s' : Session}

/-- References of a script are followed: each leads to a script that is claimed for the
place where it lands, seen from the copy. -/
def Pursues (base : Path) (p : Path × Path) (refs : List Reference) (s s' : Session) : Prop :=
  ∀ r ∈ refs, ∃ t script, s.Touches t ∧ t.Touches s' ∧
    t.files.resolve r.target [p.1.folder] = .ok script ∧
      s'.copies.has script (Copy.landing base p.2 r) = true

/-- A script is read between two sessions, and its references are followed. -/
def Serves (base : Path) (p : Path × Path) (s s' : Session) : Prop :=
  ∃ t code found, s.Touches t ∧ t.Touches s' ∧ t.files.readText p.1 = .ok code ∧
    scan Copy.scanOptions code = .ok found ∧
      t.Pursues base p (found.references.filter Copy.follows) s'

/-- Between two sessions, what is claimed is served, and written once. -/
structure Closes (base : Path) (s s' : Session) : Prop where
  touches : s.Touches s'
  claims : ∃ ps ds, s'.copies.pairs = ps ++ s.copies.pairs ∧
    s'.deliveries = s.deliveries ++ ds ∧ (ds.map fun d => (d.source, d.target)).Perm ps ∧
      ∀ p ∈ ps, s.Serves base p s'

theorem Closes.has (h : s.Closes base s') {source destination : Path}
    (hhas : s.copies.has source destination = true) :
    s'.copies.has source destination = true := by
  obtain ⟨ps, ds, hpairs, -⟩ := h.claims
  obtain ⟨p, hp, hsame⟩ := List.any_eq_true.1 hhas
  exact List.any_eq_true.2 ⟨p, hpairs ▸ List.mem_append_right ps hp, hsame⟩

theorem Pursues.mono {s₀ : Session} (h : s.Pursues base p refs t) (h₀ : s₀.Touches s)
    (hlater : t.Closes base s') : s₀.Pursues base p refs s' := by
  intro r hr
  obtain ⟨u, script, hsu, hut, hresolved, hhas⟩ := h r hr
  exact ⟨u, script, trans_of Touches h₀ hsu, trans_of Touches hut hlater.touches, hresolved,
    hlater.has hhas⟩

theorem Serves.mono {s₀ : Session} (h : s.Serves base p t) (h₀ : s₀.Touches s)
    (hlater : t.Closes base s') : s₀.Serves base p s' := by
  obtain ⟨u, code, found, hsu, hut, hread, hscan, hpursues⟩ := h
  exact ⟨u, code, found, trans_of Touches h₀ hsu, trans_of Touches hut hlater.touches, hread, hscan,
    hpursues.mono (refl_of Touches u) hlater⟩

namespace Closes

theorem of_still (htouches : s.Touches s') (hcopies : s'.copies = s.copies)
    (hdeliveries : s'.deliveries = s.deliveries) : s.Closes base s' :=
  ⟨htouches, [], [], by rw [hcopies]; rfl, by rw [hdeliveries, List.append_nil], .nil,
    fun _ h => absurd h List.not_mem_nil⟩

theorem refl (s : Session) : s.Closes base s := of_still (refl_of Touches s) rfl rfl

instance : IsPreorder Session (Closes base) where
  refl := refl
  trans s t s' h₁ h₂ := by
    refine ⟨trans_of Touches h₁.touches h₂.touches, ?_⟩
    obtain ⟨ps, ds, hpairs, hdeliveries, hperm, hserves⟩ := h₁.claims
    obtain ⟨ps', ds', hpairs', hdeliveries', hperm', hserves'⟩ := h₂.claims
    refine ⟨ps' ++ ps, ds ++ ds', ?_, ?_, ?_, fun p hp => ?_⟩
    · rw [hpairs', hpairs, List.append_assoc]
    · rw [hdeliveries', hdeliveries, List.append_assoc]
    · rw [List.map_append]
      exact (hperm.append hperm').trans List.perm_append_comm
    · rcases List.mem_append.1 hp with hp | hp
      · exact (hserves' p hp).mono h₁.touches (refl s')
      · exact (hserves p hp).mono (refl_of Touches s) h₂

/-- Handling a reference follows it. -/
theorem followReference {copyOn : Path → Path → Step Unit}
    (hcopy : ∀ {found landing : Path} {u u' : Session}, (copyOn found landing).Gives u () u' →
      u.Closes base u' ∧ u'.copies.has found landing = true)
    {code : List Char} {draft draft' : Text.Draft} {r : Reference}
    (h : (Copy.followReference copyOn p.1 p.2 base code draft r).Gives s draft' s') :
    s.Closes base s' ∧ s.Pursues base p [r] s' := by
  obtain ⟨found, files, hresolved, hfiles, hrun⟩ := gives_followReference h
  obtain ⟨hcloses, hhas⟩ := hcopy hrun
  have htouches : s.Touches { s with
      files, events := s.events ++ [.followed
        ⟨p.1.folder, p.2.folder, r.target, found, Copy.landing base p.2 r⟩] } := by
    rcases hfiles with rfl | ⟨folder, rfl⟩
    · exact .of_eq rfl rfl
    · exact (Touches.folders s folder).congr rfl rfl
  have hstill := @of_still base _ _ htouches rfl rfl
  refine ⟨trans_of (Closes base) hstill hcloses, fun r' hr' => ?_⟩
  obtain rfl := List.mem_singleton.1 hr'
  exact ⟨s, found, refl_of Touches s, trans_of Touches htouches hcloses.touches, hresolved, hhas⟩

/-- Handling references one after the other follows them all. -/
theorem followReferences {copyOn : Path → Path → Step Unit}
    (hcopy : ∀ {found landing : Path} {u u' : Session}, (copyOn found landing).Gives u () u' →
      u.Closes base u' ∧ u'.copies.has found landing = true)
    {code : List Char} {draft draft' : Text.Draft}
    (h : (refs.foldlM (Copy.followReference copyOn p.1 p.2 base code) draft).Gives s draft' s') :
    s.Closes base s' ∧ s.Pursues base p refs s' := by
  induction refs generalizing s draft with
  | nil =>
    obtain ⟨-, rfl⟩ := Step.gives_pure.1 h
    exact ⟨refl s', fun r hr => absurd hr List.not_mem_nil⟩
  | cons r refs ih =>
    rw [List.foldlM_cons] at h
    obtain ⟨draft₁, t, hfirst, hrest⟩ := Step.gives_bind.1 h
    obtain ⟨hcloses, hpursues⟩ := followReference hcopy hfirst
    obtain ⟨hcloses', hpursues'⟩ := ih hrest
    refine ⟨trans_of (Closes base) hcloses hcloses', fun r' hr' => ?_⟩
    rcases List.mem_cons.1 hr' with rfl | hr'
    · exact hpursues.mono (refl_of Touches s) hcloses' r' (List.mem_singleton_self r')
    · exact hpursues'.mono hcloses.touches (refl s') r' hr'

/-- A pair that is claimed at first, served, and written at last is closed over. -/
theorem of_claimed {u : Session} (h : t.Closes base u) (hclaimed : s.Touches t)
    (hpairs : t.copies.pairs = p :: s.copies.pairs) (hdeliveries : t.deliveries = s.deliveries)
    (hserves : t.Serves base p u) (hwritten : u.Touches s')
    (hpairs' : s'.copies = u.copies)
    (hdeliveries' : s'.deliveries = u.deliveries ++ [⟨p.1, p.2⟩]) : s.Closes base s' := by
  have htouches := trans_of Touches (trans_of Touches hclaimed h.touches) hwritten
  obtain ⟨ps, ds, hps, hds, hperm, hserved⟩ := h.claims
  have hlater : ∀ q : Path × Path, t.Serves base q u → s.Serves base q s' := by
    rintro q ⟨v, code, found, htv, hvu, hread, hscan, hpursues⟩
    refine ⟨v, code, found, trans_of Touches hclaimed htv, trans_of Touches hvu hwritten, hread,
      hscan, fun r hr => ?_⟩
    obtain ⟨w, script, hvw, hwu, hresolved, hhas⟩ := hpursues r hr
    exact ⟨w, script, hvw, trans_of Touches hwu hwritten, hresolved, hpairs' ▸ hhas⟩
  refine ⟨htouches, ps ++ [p], ds ++ [⟨p.1, p.2⟩], ?_, ?_, ?_, fun q hq => ?_⟩
  · rw [hpairs', hps, hpairs, List.append_assoc]
    rfl
  · rw [hdeliveries', hds, hdeliveries, List.append_assoc]
  · rw [List.map_append]
    exact hperm.append_right [p]
  · rcases List.mem_append.1 hq with hq | hq
    · exact hlater q (hserved q hq)
    · exact hlater q (List.mem_singleton.1 hq ▸ hserves)

end Closes

/-- **Copying a script serves what it claims**, and claims the script for its
destination. -/
theorem closes_script {depth : Nat} {source destination : Path}
    (h : (Copy.script depth source destination base).Gives s () s') :
    s.Closes base s' ∧ s'.copies.has source destination = true := by
  induction depth generalizing source destination s s' with
  | zero => exact absurd h Step.gives_fail
  | succ depth ih =>
    rcases Copy.gives_script h with ⟨hhas, rfl⟩ | ⟨-, hclaimed⟩
    · exact ⟨.refl s', hhas⟩
    · obtain ⟨code, found, log, draft, draft', u, files, hcode, hfound, hfold, hfiles, rfl⟩ :=
        Copy.gives_copyClaimed hclaimed
      obtain ⟨hcloses, hpursues⟩ := Closes.followReferences (p := (source, destination))
        (fun hrun => ih hrun) hfold
      have hwritten : u.Touches { u with
          files, deliveries := u.deliveries ++ [⟨source, destination⟩] } := by
        have hmade := Touches.folders u destination.folder
        have hdelivered := @Touches.delivery
          { u with files := (u.files.createFolders destination.folder).1 }
          ⟨source, destination⟩ files (.write _ hfiles)
        exact (trans_of Touches hmade hdelivered).congr rfl rfl
      have hserves : Serves base (source, destination) { s with
          copies := ⟨(source, destination) :: s.copies.pairs⟩, log } u :=
        ⟨_, code, found, refl_of Touches _, hcloses.touches, hcode, hfound, hpursues⟩
      have hclosed : s.Closes base { u with
          files, deliveries := u.deliveries ++ [⟨source, destination⟩] } :=
        hcloses.of_claimed (.of_eq rfl rfl) rfl rfl hserves hwritten rfl rfl
      refine ⟨hclosed, ?_⟩
      have hown : (source, destination) ∈ ((source, destination) :: s.copies.pairs) :=
        List.mem_cons_self
      refine hcloses.has (List.any_eq_true.2 ⟨_, hown, ?_⟩)
      simp [Path.same_refl]

/-- If no pair was claimed twice before, none was later. -/
def KeepsDistinct (s s' : Session) : Prop := s.copies.IsDistinct → s'.copies.IsDistinct

namespace KeepsDistinct

instance : IsPreorder Session KeepsDistinct where
  refl _ h := h
  trans _ _ _ h₁ h₂ h := h₂ (h₁ h)

theorem copying : Session.Copying KeepsDistinct where
  log _ _ h := h
  mapped _ _ h := h
  folders _ _ h := h
  deliveries _ _ _ _ h := h
  copies _ source destination h := h.claim source destination
  followed _ _ h := h

end KeepsDistinct

/-- The places that a run changes have no part in what it reads: neither in the scripts
that it claims nor in where their references lead. -/
structure Undisturbed (s s' : Session) : Prop where
  scripts : ∀ p ∈ s'.copies.pairs, s.files.Relies (s.Spares s') (·.readText p.1)
  references : ∀ p ∈ s'.copies.pairs, ∀ code found, s.files.readText p.1 = .ok code →
    scan Copy.scanOptions code = .ok found → ∀ r ∈ found.references, Copy.follows r = true →
      s.files.Relies (s.Spares s') (·.resolve r.target [p.1.folder])

/-- What is served in a run is served from the files as they were at its start, if the run
does not disturb them. -/
theorem Serves.of_undisturbed (h : s.Serves base p s') (hwf : s.files.WellFormed)
    (hp : p ∈ s'.copies.pairs) (hundisturbed : s.Undisturbed s') :
    ∃ code found, s.files.readText p.1 = .ok code ∧ scan Copy.scanOptions code = .ok found ∧
      ∀ r ∈ found.references, Copy.follows r = true → ∃ script,
        s.files.resolve r.target [p.1.folder] = .ok script ∧
          s'.copies.has script (Copy.landing base p.2 r) = true := by
  obtain ⟨t, code, found, hst, hts', hread, hscan, hpursues⟩ := h
  have hcode : s.files.readText p.1 = .ok code :=
    (hst.read_eq hts' hwf (hundisturbed.scripts p hp)).symm.trans hread
  refine ⟨code, found, hcode, hscan, fun r hr hfollows => ?_⟩
  obtain ⟨u, script, htu, hus', hresolved, hhas⟩ :=
    hpursues r (List.mem_filter.2 ⟨hr, hfollows⟩)
  have hrelies := hundisturbed.references p hp code found hcode hscan r hr hfollows
  have hsame := (trans_of Touches hst htu).read_eq hus' hwf hrelies
  exact ⟨script, hsame.symm.trans hresolved, hhas⟩

end Session

/-- **What a run of copying claims is closed under references, and written once.**  The
run starts with nothing claimed and nothing written, and does not disturb what it reads.
It claims its script for its destination, and with each script that it claims those that
the script refers to, for the places where they land; no pair is claimed twice, and there
is one file written for each. -/
theorem Copy.closed_of_script {depth : Nat} {source destination base : Path} {s s' : Session}
    (hwf : s.files.WellFormed) (hcopies : s.copies.pairs = []) (hdeliveries : s.deliveries = [])
    (hrun : (Copy.script depth source destination base).Gives s () s')
    (hundisturbed : s.Undisturbed s') :
    s'.copies.has source destination = true ∧
    (∀ p ∈ s'.copies.pairs, ∃ code found, s.files.readText p.1 = .ok code ∧
      scan Copy.scanOptions code = .ok found ∧ ∀ r ∈ found.references, Copy.follows r = true →
        ∃ script, s.files.resolve r.target [p.1.folder] = .ok script ∧
          s'.copies.has script (Copy.landing base p.2 r) = true) ∧
    s'.copies.IsDistinct ∧
    (s'.deliveries.map fun d => (d.source, d.target)).Perm s'.copies.pairs := by
  obtain ⟨hcloses, hhas⟩ := Session.closes_script hrun
  obtain ⟨ps, ds, hpairs, hwritten, hperm, hserves⟩ := hcloses.claims
  rw [hcopies, List.append_nil] at hpairs
  rw [hdeliveries, List.nil_append] at hwritten
  have hdistinct : s'.copies.IsDistinct := by
    refine Session.KeepsDistinct.copying.steps.script depth source destination base s () s' hrun ?_
    rw [CopyCache.IsDistinct, hcopies]
    exact .nil
  refine ⟨hhas, fun p hp => ?_, hdistinct, ?_⟩
  · exact (hserves p (hpairs ▸ hp)).of_undisturbed hwf hp hundisturbed
  · rw [hpairs, hwritten]
    exact hperm

/-- Two scripts that import each other. -/
def Copy.mutualScripts : FileTree where
  entries := [
    (["src"], .folder),
    (["src", "a.js"], .file (.text "import './b.js'\n")),
    (["src", "b.js"], .file (.text "import './a.js'\n"))]

set_option maxRecDepth 100000 in
theorem Copy.mutualScripts_run :
    let r : Except Failure Unit × Session :=
      (script 3 ⟨"/src/a.js"⟩ ⟨"/out/a.js"⟩ ⟨"/out"⟩).run.run { files := mutualScripts }
    r.1.toOption = some () ∧
      r.2.copies.pairs = [(⟨"/src/b.js"⟩, ⟨"/out/b.js"⟩), (⟨"/src/a.js"⟩, ⟨"/out/a.js"⟩)] ∧
      r.2.deliveries = [⟨⟨"/src/b.js"⟩, ⟨"/out/b.js"⟩⟩, ⟨⟨"/src/a.js"⟩, ⟨"/out/a.js"⟩⟩] ∧
      r.2.files.locate ⟨"/out/b.js"⟩ = .ok ["out", "b.js"] ∧
      r.2.files.locate ⟨"/out/a.js"⟩ = .ok ["out", "a.js"] ∧
      ∀ l ∈ [["src"], ["src", "a.js"], ["src", "b.js"]],
        r.2.files.get? l = mutualScripts.get? l := by
  decide +kernel

/-- What is read of the two scripts, in any tree that has them. -/
theorem Copy.mutualScripts_reads {t : FileTree} (hwf : t.WellFormed)
    (h : ∀ l ∈ [["src"], ["src", "a.js"], ["src", "b.js"]], t.get? l = mutualScripts.get? l) :
    (t.readText ⟨"/src/a.js"⟩ = .ok "import './b.js'\n" ∧
      t.resolve "./a.js" [⟨"/src"⟩] = .ok ⟨"/src/a.js"⟩) ∧
    (t.readText ⟨"/src/b.js"⟩ = .ok "import './a.js'\n" ∧
      t.resolve "./b.js" [⟨"/src"⟩] = .ok ⟨"/src/b.js"⟩) := by
  have hfolder : t.get? ["src"] = some .folder := h _ (by decide)
  have ha : t.get? ["src", "a.js"] = some (.file (.text "import './b.js'\n")) := h _ (by decide)
  have hb : t.get? ["src", "b.js"] = some (.file (.text "import './a.js'\n")) := h _ (by decide)
  have hroot : t.locate ⟨"/src"⟩ = .ok ["src"] := hwf.locate_path (.inl hfolder) (by decide)
  have hwalk : ∀ name, t.Holds ["src", name] → ∀ k,
      t.walkLinks k ["src"] [".", name] = .ok (.entry ["src", name]) := by
    intro name hholds k
    cases k with
    | zero => exact (FileTree.walk_current ..).trans (hwf.walkLinks_names hholds 0)
    | succ k => exact (FileTree.walk_current ..).trans (hwf.walkLinks_names hholds (k + 1))
  have hla : t.locate ⟨"/src/./a.js"⟩ = .ok ["src", "a.js"] :=
    FileTree.locate_join (q := ⟨"./a.js"⟩) hroot hfolder (by decide) (by decide) (by decide)
      (hwalk "a.js" (.inr ⟨_, ha⟩)) (by decide)
  have hlb : t.locate ⟨"/src/./b.js"⟩ = .ok ["src", "b.js"] :=
    FileTree.locate_join (q := ⟨"./b.js"⟩) hroot hfolder (by decide) (by decide) (by decide)
      (hwalk "b.js" (.inr ⟨_, hb⟩)) (by decide)
  refine ⟨⟨?_, ?_⟩, ?_, ?_⟩
  · exact FileTree.readText_eq_ok.2 ⟨_, hwf.locate_path (.inr ⟨_, ha⟩) (by decide), ha⟩
  · exact FileTree.resolve_of_locate (by decide) (by decide) hla ha (by decide)
  · exact FileTree.readText_eq_ok.2 ⟨_, hwf.locate_path (.inr ⟨_, hb⟩) (by decide), hb⟩
  · exact FileTree.resolve_of_locate (by decide) (by decide) hlb hb (by decide)

/-- What the two scripts refer to. -/
theorem Copy.mutualScripts_scan :
    (scan scanOptions "import './b.js'\n").toOption.map (·.references.map (·.target)) =
        some ["./b.js"] ∧
      (scan scanOptions "import './a.js'\n").toOption.map (·.references.map (·.target)) =
        some ["./a.js"] := by
  decide +kernel

theorem Copy.undisturbed_mutualScripts {s' : Session}
    (hpairs : s'.copies.pairs =
      [(⟨"/src/b.js"⟩, ⟨"/out/b.js"⟩), (⟨"/src/a.js"⟩, ⟨"/out/a.js"⟩)])
    (hspared : ∀ l ∈ [["src"], ["src", "a.js"], ["src", "b.js"]],
      Session.Spares { files := mutualScripts } s' l) :
    Session.Undisturbed { files := mutualScripts } s' := by
  obtain ⟨⟨hreada, hresolvea⟩, hreadb, hresolveb⟩ :=
    @mutualScripts_reads mutualScripts (by decide) fun _ _ => rfl
  have htarget : ∀ {code target : String} {found : Scan} {r : Reference},
      (scan scanOptions code).toOption.map (·.references.map (·.target)) = some [target] →
        scan scanOptions code = .ok found → r ∈ found.references → r.target = target := by
    intro code target found r htargets hscan hr
    rw [hscan] at htargets
    have hmem := List.mem_map_of_mem (f := (·.target)) hr
    rw [show found.references.map (·.target) = [target] from Option.some.inj htargets] at hmem
    exact List.mem_singleton.1 hmem
  constructor
  · intro p hp t hwf _ hsame
    obtain ⟨⟨hreada', -⟩, hreadb', -⟩ := mutualScripts_reads hwf fun l hl => hsame l (hspared l hl)
    rw [hpairs] at hp
    rcases List.mem_pair.1 hp with rfl | rfl
    · exact hreadb'.trans hreadb.symm
    · exact hreada'.trans hreada.symm
  · intro p hp code found hcode hscan r hr _ t hwf _ hsame
    obtain ⟨⟨-, hresolvea'⟩, -, hresolveb'⟩ :=
      mutualScripts_reads hwf fun l hl => hsame l (hspared l hl)
    rw [hpairs] at hp
    rcases List.mem_pair.1 hp with rfl | rfl
    · obtain rfl := Except.ok.inj (hreadb.symm.trans hcode)
      have hr' : r.target = "./a.js" := htarget mutualScripts_scan.2 hscan hr
      simp only [hr']
      exact hresolvea'.trans hresolvea.symm
    · obtain rfl := Except.ok.inj (hreada.symm.trans hcode)
      have hr' : r.target = "./b.js" := htarget mutualScripts_scan.1 hscan hr
      simp only [hr']
      exact hresolveb'.trans hresolveb.symm

/-- Scripts that import each other are copied once, and each import is followed. -/
theorem Copy.closed_of_mutualScripts :
    ∃ s', (script 3 ⟨"/src/a.js"⟩ ⟨"/out/a.js"⟩ ⟨"/out"⟩).Gives { files := mutualScripts } () s' ∧
      (∀ p ∈ s'.copies.pairs, ∃ code found, mutualScripts.readText p.1 = .ok code ∧
        scan scanOptions code = .ok found ∧ ∀ r ∈ found.references, follows r = true →
          ∃ script, mutualScripts.resolve r.target [p.1.folder] = .ok script ∧
            s'.copies.has script (landing ⟨"/out"⟩ p.2 r) = true) ∧
      s'.copies.IsDistinct ∧
      (s'.deliveries.map fun d => (d.source, d.target)).Perm s'.copies.pairs := by
  obtain ⟨hok, hpairs, hdeliveries, hlb, hla, hsame⟩ := mutualScripts_run
  have hrun := Step.gives_of_run hok
  refine ⟨_, hrun, (closed_of_script (by decide) rfl rfl hrun ?_).2⟩
  refine undisturbed_mutualScripts hpairs fun l hl => ⟨hsame l hl, ?_⟩
  rintro ⟨d, hd, hlocate⟩
  rw [hdeliveries] at hd
  rcases List.mem_pair.1 hd with rfl | rfl
  · obtain rfl := Except.ok.inj (hlb.symm.trans hlocate)
    exact absurd hl (by decide)
  · obtain rfl := Except.ok.inj (hla.symm.trans hlocate)
    exact absurd hl (by decide)

end ElementBuild
