/-
# What copying writes below its base

A run of copying writes the copy that it is asked for, and the copies of the scripts that it
follows, each where its reference is confined to; so it is if the run fails on its way
(`Session.lands_script`).  A copy of the second kind lies below the base, unless its reference
leads to the base itself (`Copy.isBelow_iff`): a script that refers to the folder of all copies
by its name has its copy put beside that folder.
-/
import ElementBuild.Proofs.Changes
import ElementBuild.Proofs.Copy.Pairs
import ElementBuild.Proofs.Path.Inside

namespace ElementBuild

/-- The folder of a landing place below an absolute base is absolute. -/
theorem Path.isAbsolute_folder_confine {base : Path} (hbase : base.isAbsolute = true)
    (target : Path) : (confine base target).folder.isAbsolute = true := by
  obtain ⟨n, hn, -⟩ : ∃ n, (confine base target).fileName? = some n ∧ _ :=
    exists_fileName?_asScript ((narrow_of_size le_rfl).mono (Nat.le_add_right _ 2))
      (Nat.le_add_left 2 _)
  obtain ⟨-, cs, hsegments⟩ := segments_of_fileName? hn
  have hroot := segments_of_absolute (isAbsolute_confine hbase target)
  rw [isAbsolute_iff_segments, segments_folder hsegments]
  cases cs with
  | nil => cases hroot.symm.trans hsegments
  | cons c cs => rw [(List.cons.inj (hroot.symm.trans hsegments)).1]; rfl

/-- A reference leads from an absolute folder to where its target is confined to. -/
structure Followed.IsConfined (f : Followed) (base : Path) : Prop where
  copied : f.copied.isAbsolute = true
  landing : f.landing = Path.confine base (f.copied.join ⟨f.target⟩)

theorem Followed.isConfined (source : Path) {destination : Path} (base found : Path)
    (r : Reference) (hfolder : destination.folder.isAbsolute = true) :
    IsConfined ⟨source.folder, destination.folder, r.target, found,
      Copy.landing base destination r⟩ base where
  copied := hfolder
  landing := by rw [Copy.landing]

namespace Session

variable {base : Path} {own : Delivery} {s t s' : Session}

/-- What is written between two sessions, apart from what was before: one file of its own, and
the copies of scripts that were followed. -/
def Lands (base : Path) (own : Delivery) (s s' : Session) : Prop :=
  ∃ events written, s'.events = s.events ++ events ∧ s'.deliveries = s.deliveries ++ written ∧
    ∀ d ∈ written, d = own ∨
      ∃ f, .followed f ∈ s'.events ∧ f.IsConfined base ∧ d = ⟨f.found, f.landing⟩

namespace Lands

theorem of_eq (hevents : s'.events = s.events) (hdeliveries : s'.deliveries = s.deliveries) :
    s.Lands base own s' :=
  ⟨[], [], by rw [hevents, List.append_nil], by rw [hdeliveries, List.append_nil],
    fun _ hd => absurd hd List.not_mem_nil⟩

/-- What is written later may be a file that was followed before. -/
theorem trans {own' : Delivery} (h : s.Lands base own t) (h' : t.Lands base own' s')
    (hown : own' = own ∨
      ∃ f, .followed f ∈ t.events ∧ f.IsConfined base ∧ own' = ⟨f.found, f.landing⟩) :
    s.Lands base own s' := by
  obtain ⟨events, written, hevents, hdeliveries, hwritten⟩ := h
  obtain ⟨events', written', hevents', hdeliveries', hwritten'⟩ := h'
  have hlater : ∀ {e}, e ∈ t.events → e ∈ s'.events := fun he =>
    hevents' ▸ List.mem_append_left events' he
  refine ⟨events ++ events', written ++ written', ?_, ?_, fun d hd => ?_⟩
  · rw [hevents', hevents, List.append_assoc]
  · rw [hdeliveries', hdeliveries, List.append_assoc]
  · rcases List.mem_append.1 hd with hd | hd
    · exact (hwritten d hd).imp_right fun ⟨f, hf, h⟩ => ⟨f, hlater hf, h⟩
    · rcases hwritten' d hd with rfl | hd
      · exact hown.imp_right fun ⟨f, hf, h⟩ => ⟨f, hlater hf, h⟩
      · exact .inr hd

instance : IsPreorder Session (Lands base own) where
  refl _ := .of_eq rfl rfl
  trans _ _ _ h h' := h.trans h' (.inl rfl)

/-- What is written at the landing place of a reference was followed. -/
theorem of_followed {folder copied found landing : Path} {target : String}
    (h : Lands base ⟨found, landing⟩ { s with
      events := s.events ++ [.followed ⟨folder, copied, target, found, landing⟩] } s')
    (hf : Followed.IsConfined ⟨folder, copied, target, found, landing⟩ base) :
    s.Lands base own s' := by
  have hfirst : ∀ e, s.Lands base own { s with events := s.events ++ [e] } := fun e =>
    ⟨[e], [], rfl, (List.append_nil _).symm, fun _ hd => absurd hd List.not_mem_nil⟩
  exact (hfirst _).trans h
    (.inr ⟨_, List.mem_append_right s.events (List.mem_singleton_self _), hf, rfl⟩)

theorem noting : Step.Law.Noting (Step.Ends fun _ => Lands base own) where
  tell _ := Step.Ends.modify fun _ => .of_eq rfl rfl
  setMapped _ := Step.Ends.modify fun _ => .of_eq rfl rfl

theorem createFolder (folder : Path) :
    (Copy.createFolder folder).Ends fun _ => Lands base own :=
  Step.Ends.during _ fun s => by
    rw [Step.session_createFolders]
    exact .of_eq rfl rfl

end Lands

/-- Following a reference writes the copy of its script, and what copying that script writes. -/
theorem lands_followReference {copyOn : Path → Path → Step Unit} {source destination : Path}
    (hbase : base.isAbsolute = true) (hfolder : destination.folder.isAbsolute = true)
    (hcopy : ∀ found landing, landing.folder.isAbsolute = true →
      (copyOn found landing).Ends fun _ => Lands base ⟨found, landing⟩)
    (code : List Char) (draft : Text.Draft) (r : Reference) :
    (Copy.followReference copyOn source destination base code draft r).Ends
      fun _ => Lands base own := by
  unfold Copy.followReference
  refine (Step.Ends.resolve _ _).bind fun found s => ?_
  have hlanding := Path.isAbsolute_folder_confine hbase (destination.folder.join ⟨r.target⟩)
  have hrest : Step.Ends (fun _ => Lands base ⟨found, Copy.landing base destination r⟩) (do
      let draft ← Step.edit draft (Reference.retarget code r.literal
        (Copy.specifier destination r (Copy.landing base destination r)))
      copyOn found (Copy.landing base destination r)
      return draft) :=
    (Step.Ends.edit _ _).bind fun _ => (hcopy _ _ hlanding).bind fun _ => .pure _
  dsimp only
  rw [Step.run_bind_ok (a := ()) (Step.gives_trace.2 rfl)]
  refine Lands.of_followed ?_ (Followed.isConfined source base found r hfolder)
  split
  · exact (Lands.createFolder _).bind (fun _ => hrest) _
  · exact hrest _

/-- **A run of copying writes the copy that it is asked for, and copies of scripts that it
follows**, whether it fails or not. -/
theorem lands_script (hbase : base.isAbsolute = true) (depth : Nat) {source destination : Path}
    (hfolder : destination.folder.isAbsolute = true) :
    (Copy.script depth source destination base).Ends
      fun _ => Lands base ⟨source, destination⟩ := by
  induction depth generalizing source destination with
  | zero => exact .giveUp
  | succ depth ih =>
    have hclaim : (Step.claim source destination).Ends
        fun _ => Lands base ⟨source, destination⟩ := fun s => .of_eq rfl rfl
    have hwrite : ∀ text, (Step.write source destination text).Ends
        fun _ => Lands base ⟨source, destination⟩ := fun text =>
      .of_respects (fun s _ s' h => by
        obtain ⟨t, -, rfl⟩ := Step.gives_write.1 h
        exact ⟨[], [⟨source, destination⟩], (List.append_nil _).symm, rfl,
          fun d hd => .inl (List.mem_singleton.1 hd)⟩) fun _ _ _ => Step.run_deliver_error
    refine hclaim.bind fun free => ?_
    split
    · exact (Step.Ends.read source).during _ |>.bind fun code =>
        (Lands.noting.scan _ _).during _ |>.bind fun refs =>
          (Step.Ends.foldlM (fun draft r _ => lands_followReference hbase hfolder
            (fun _ _ hlanding => ih hlanding) code.toList draft r) _).bind fun draft =>
              (Lands.createFolder _).bind fun _ => (hwrite _).during _
    · exact .pure _

theorem lands_copyScript (hbase : base.isAbsolute = true) {source destination : Path}
    (hfolder : destination.folder.isAbsolute = true) :
    (copyScript source destination base).Ends fun _ => Lands base ⟨source, destination⟩ :=
  lands_script hbase _ hfolder

end Session

/-- **What is copied for a reference lies strictly below the base, unless the reference leads to
the base itself.**  So it is for the landing place of any target, and for each file but the
copy that is asked for which a run writes, whether it fails or not. -/
theorem Copy.isBelow_iff {base : Path} (hbase : base.isAbsolute = true)
    (hstays : .parent ∉ base.normalize.segments) :
    (∀ target : Path, target.isAbsolute = true →
      ((Path.confine base target).IsBelow base ↔ target.normalize ≠ base.normalize ∨
        ¬ base.EndsInName ∧ base.extension? ≠ some "js")) ∧
    ∀ (source destination : Path) (s : Session), destination.folder.isAbsolute = true →
      ∀ s', ((copyScript source destination base).run.run s : Except Failure Unit × Session).2 = s' →
        ∃ written, s'.deliveries = s.deliveries ++ written ∧
          ∀ d ∈ written, d = ⟨source, destination⟩ ∨
            ∃ f, .followed f ∈ s'.events ∧ d = ⟨f.found, f.landing⟩ ∧
              (d.target.IsBelow base ↔ (f.copied.join ⟨f.target⟩).normalize ≠ base.normalize ∨
                ¬ base.EndsInName ∧ base.extension? ≠ some "js") := by
  rw [Path.segments_normalize] at hstays
  have hiff : ∀ target : Path, target.isAbsolute = true → _ := fun target htarget =>
    Path.isBelow_confine_iff hbase hstays htarget
  refine ⟨hiff, fun source destination s hfolder s' hs' => ?_⟩
  obtain ⟨-, written, -, hwritten, hlands⟩ : s.Lands base ⟨source, destination⟩ s' :=
    hs' ▸ Session.lands_copyScript hbase hfolder s
  refine ⟨written, hwritten, fun d hd => (hlands d hd).imp_right fun ⟨f, hf, hconfined, hd⟩ => ?_⟩
  refine ⟨f, hf, hd, ?_⟩
  subst hd
  change f.landing.IsBelow base ↔ _
  rw [hconfined.landing]
  exact hiff _ (Path.isAbsolute_join hconfined.copied _)

namespace Copy

/-- A script that refers to its neighbour, and to the folder above it by its name. -/
def folderScripts : FileTree where
  entries := [
    (["src"], .folder), (["src", "lib"], .folder),
    (["src", "index.js"], .file (.text "")),
    (["src", "lib", "a.js"], .file (.text "import './b.js'\nimport '..//'\n")),
    (["src", "lib", "b.js"], .file (.text ""))]

set_option maxRecDepth 100000 in
theorem folderScripts_run :
    let r : Except Failure Unit × Session :=
      (copyScript ⟨"/src/lib/a.js"⟩ ⟨"/out/lib/a.js"⟩ ⟨"/out"⟩).run.run { files := folderScripts }
    r.1.isOk = true ∧
      r.2.deliveries = [⟨⟨"/src/lib/b.js"⟩, ⟨"/out/lib/b.js"⟩⟩, ⟨⟨"/src/index.js"⟩, ⟨"/out.js"⟩⟩,
        ⟨⟨"/src/lib/a.js"⟩, ⟨"/out/lib/a.js"⟩⟩] ∧
      r.2.events = [
        .followed ⟨⟨"/src/lib"⟩, ⟨"/out/lib"⟩, "./b.js", ⟨"/src/lib/b.js"⟩, ⟨"/out/lib/b.js"⟩⟩,
        .followed ⟨⟨"/src/lib"⟩, ⟨"/out/lib"⟩, "..//", ⟨"/src/index.js"⟩, ⟨"/out.js"⟩⟩] := by
  decide +kernel

/-- The copy of the neighbour lies below the folder of all copies, and so does the landing place
of any script that lies elsewhere. -/
theorem isBelow_of_folderScripts :
    (∃ d ∈ ((copyScript ⟨"/src/lib/a.js"⟩ ⟨"/out/lib/a.js"⟩ ⟨"/out"⟩).run.run
        { files := folderScripts } : Except Failure Unit × Session).2.deliveries,
      d = ⟨⟨"/src/lib/b.js"⟩, ⟨"/out/lib/b.js"⟩⟩ ∧ d.target.IsBelow ⟨"/out"⟩) ∧
    (Path.confine ⟨"/out"⟩ ⟨"/lib/a.js"⟩).IsBelow ⟨"/out"⟩ := by
  obtain ⟨htargets, hruns⟩ := isBelow_iff (show (⟨"/out"⟩ : Path).isAbsolute = true by decide)
    (by decide)
  refine ⟨?_, (htargets ⟨"/lib/a.js"⟩ (by decide)).2 (.inl (by decide))⟩
  obtain ⟨-, hdeliveries, hevents⟩ := folderScripts_run
  obtain ⟨written, hwritten, hbelow⟩ := hruns ⟨"/src/lib/a.js"⟩ ⟨"/out/lib/a.js"⟩
    { files := folderScripts } (by decide) _ rfl
  rw [hdeliveries, List.nil_append] at hwritten
  refine ⟨⟨⟨"/src/lib/b.js"⟩, ⟨"/out/lib/b.js"⟩⟩, hdeliveries ▸ List.mem_cons_self, rfl, ?_⟩
  obtain hown | ⟨f, hf, hd, hiff⟩ := hbelow _ (hwritten ▸ List.mem_cons_self)
  · exact absurd hown (by decide)
  · rw [hevents] at hf
    refine hiff.2 (.inl ?_)
    rcases List.mem_pair.1 hf with hf | hf
    · rw [Event.followed.inj hf]
      decide
    · rw [Event.followed.inj hf] at hd
      exact absurd hd (by decide)

/-- **A script that refers to the folder of all copies is copied beside that folder**, not below
it. -/
theorem not_isBelow_of_folderScripts :
    ¬ (Path.confine ⟨"/out"⟩ ⟨"/out"⟩).IsBelow ⟨"/out"⟩ ∧
    ∃ d ∈ ((copyScript ⟨"/src/lib/a.js"⟩ ⟨"/out/lib/a.js"⟩ ⟨"/out"⟩).run.run
        { files := folderScripts } : Except Failure Unit × Session).2.deliveries,
      d.target = ⟨"/out.js"⟩ ∧ ¬ d.target.IsBelow ⟨"/out"⟩ := by
  refine ⟨by decide, ?_⟩
  rw [folderScripts_run.2.1]
  exact ⟨⟨⟨"/src/index.js"⟩, ⟨"/out.js"⟩⟩, by simp, rfl, by decide⟩

end Copy
end ElementBuild
