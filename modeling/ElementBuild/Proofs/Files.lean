/-
# The files of a session

A session whose files are well-formed keeps them so, and whatever it does, they grow
(`Session.Keeps`).  What it delivers stands at its target, and other files are not made
(`Session.Fills`).
-/
import ElementBuild.Proofs.Build.Run
import ElementBuild.Proofs.FileTree.Folders

namespace ElementBuild

namespace FileTree.Makes

variable {t t' : FileTree} {d : Delivery}

theorem changes (h : t.Makes d t') (hwf : t.WellFormed) : t.Changes t' := by
  cases h with
  | write content h =>
    obtain ⟨l, hput, -, -⟩ := write_eq_ok hwf h
    exact .single ⟨l, hput⟩
  | copy h =>
    obtain ⟨l, t₁, content, hemptied, hput, -, -⟩ := copyFile_eq_ok hwf h
    exact (Relation.ReflTransGen.single ⟨l, hemptied⟩).tail ⟨l, hput⟩

/-- A file is made where its path leads, and nowhere else. -/
theorem exists_location (h : t.Makes d t') (hwf : t.WellFormed) :
    ∃ l, t'.locate d.target = .ok l ∧ t'.HasFile l ∧ ∀ l', l' ≠ l → t'.get? l' = t.get? l' := by
  cases h with
  | write content h =>
    obtain ⟨l, hput, hl, hget⟩ := write_eq_ok hwf h
    exact ⟨l, hl, ⟨content, hget⟩, fun _ hne => hput.get?_of_ne hne⟩
  | copy h =>
    obtain ⟨l, t₁, content, hemptied, hput, hl, hget⟩ := copyFile_eq_ok hwf h
    exact ⟨l, hl, ⟨content, hget⟩, fun _ hne =>
      (hput.get?_of_ne hne).trans (hemptied.get?_of_ne hne)⟩

end FileTree.Makes

/-- Once a folder is made, its path leads to it. -/
theorem Session.isFolder_of_createFolder {s s' : Session} {folder : Path}
    (hwf : s.files.WellFormed) (hne : folder.text ≠ "")
    (h : (Copy.createFolder folder).Gives s () s') : s'.files.isFolder folder = true := by
  obtain ⟨hmade, rfl⟩ := Step.gives_createFolders.1 (Step.gives_during.1 h)
  exact FileTree.isFolder_of_createFolders hwf hne hmade

/-- Well-formed files stay so, and grow. -/
def Session.Keeps (s s' : Session) : Prop :=
  s.files.WellFormed → s'.files.WellFormed ∧ s.files.Grows s'.files

namespace Session.Keeps

theorem of_changes {s s' : Session} (h : s.files.WellFormed → s.files.Changes s'.files) :
    s.Keeps s' := fun hwf => ⟨(h hwf).wellFormed hwf, (h hwf).grows⟩

theorem of_eq {s s' : Session} (h : s'.files = s.files) : s.Keeps s' :=
  of_changes fun _ => h ▸ .refl

instance : IsPreorder Session Keeps where
  refl _ := of_eq rfl
  trans _ _ _ h₁ h₂ := fun hwf =>
    ⟨(h₂ (h₁ hwf).1).1, trans_of FileTree.Grows (h₁ hwf).2 (h₂ (h₁ hwf).1).2⟩

theorem building : Session.Building Keeps where
  log _ _ := of_eq rfl
  mapped _ _ := of_eq rfl
  folders _ _ := of_changes fun hwf => FileTree.changes_createFolders hwf _
  deliveries _ _ _ hmakes := of_changes fun hwf => hmakes.changes hwf
  copies _ _ _ := of_eq rfl
  followed _ _ := of_eq rfl
  begun _ _ _ := of_eq rfl
  bundles _ _ := of_eq rfl
  entered _ _ _ := of_eq rfl
  linked _ _ := of_eq rfl

end Session.Keeps

/-- Files change by what is put into them. -/
def Session.Alters (s s' : Session) : Prop := s.files.WellFormed → s.files.Changes s'.files

namespace Session.Alters

theorem of_eq {s s' : Session} (h : s'.files = s.files) : s.Alters s' := fun _ => h ▸ .refl

instance : IsPreorder Session Alters where
  refl _ := of_eq rfl
  trans _ _ _ h₁ h₂ := fun hwf => (h₁ hwf).trans (h₂ ((h₁ hwf).wellFormed hwf))

theorem building : Session.Building Alters where
  log _ _ := of_eq rfl
  mapped _ _ := of_eq rfl
  folders _ _ := fun hwf => FileTree.changes_createFolders hwf _
  deliveries _ _ _ hmakes := fun hwf => hmakes.changes hwf
  copies _ _ _ := of_eq rfl
  followed _ _ := of_eq rfl
  begun _ _ _ := of_eq rfl
  bundles _ _ := of_eq rfl
  entered _ _ _ := of_eq rfl
  linked _ _ := of_eq rfl

end Session.Alters

namespace Session

/-- A file was delivered to a place. -/
def Filled (s : Session) (l : Location) : Prop :=
  ∃ d ∈ s.deliveries, s.files.locate d.target = .ok l

/-- Between two sessions files are made where they are delivered, and nowhere else. -/
structure Fills (s s' : Session) : Prop where
  kept : s.Keeps s'
  deliveries : ∀ d ∈ s.deliveries, d ∈ s'.deliveries
  made : s.files.WellFormed → ∀ l, s'.files.HasFile l → s.files.HasFile l ∨ s'.Filled l
  delivered : s.files.WellFormed → ∀ d ∈ s'.deliveries,
    d ∈ s.deliveries ∨ s'.files.isFile d.target = true

namespace Fills

variable {s s' : Session}

theorem filled (h : s.Fills s') (hwf : s.files.WellFormed) {l : Location} (hl : s.Filled l) :
    s'.Filled l := by
  obtain ⟨d, hd, hlocate⟩ := hl
  exact ⟨d, h.deliveries d hd, (h.kept hwf).2.locate hlocate⟩

instance : IsPreorder Session Fills where
  refl s := ⟨refl_of Keeps s, fun _ h => h, fun _ _ h => .inl h, fun _ _ h => .inl h⟩
  trans s t s' h₁ h₂ := by
    refine ⟨trans_of Keeps h₁.kept h₂.kept, fun d hd => h₂.deliveries d (h₁.deliveries d hd),
      fun hwf l hl => ?_, fun hwf d hd => ?_⟩
    · have hwf' := (h₁.kept hwf).1
      rcases h₂.made hwf' l hl with hl | hl
      · exact (h₁.made hwf l hl).imp_right (h₂.filled hwf')
      · exact .inr hl
    · have hwf' := (h₁.kept hwf).1
      rcases h₂.delivered hwf' d hd with hd | hd
      · exact (h₁.delivered hwf d hd).imp_right (h₂.kept hwf').2.isFile
      · exact .inr hd

theorem of_eq (hfiles : s'.files = s.files) (hdeliveries : s'.deliveries = s.deliveries) :
    s.Fills s' :=
  ⟨.of_eq hfiles, fun _ h => hdeliveries ▸ h, fun _ _ h => .inl (hfiles ▸ h),
    fun _ _ h => .inl (hdeliveries ▸ h)⟩

theorem of_delivery {d : Delivery} {t : FileTree} (h : s.files.Makes d t) :
    s.Fills { s with files := t, deliveries := s.deliveries ++ [d] } := by
  refine ⟨.of_changes fun hwf => h.changes hwf, fun _ hd => List.mem_append_left _ hd,
    fun hwf l hl => ?_, fun hwf d' hd' => ?_⟩
  · obtain ⟨l₀, hl₀, -, hothers⟩ := h.exists_location hwf
    by_cases heq : l = l₀
    · exact .inr ⟨d, List.mem_append_right _ (List.mem_singleton_self d), heq ▸ hl₀⟩
    · obtain ⟨content, hget⟩ := hl
      exact .inl ⟨content, (hothers l heq).symm.trans hget⟩
  · rcases List.mem_append.1 hd' with hd' | hd'
    · exact .inl hd'
    · obtain ⟨l₀, hl₀, ⟨content, hget⟩, -⟩ := h.exists_location hwf
      rw [List.mem_singleton.1 hd']
      exact .inr (FileTree.isFile_iff.2 ⟨l₀, content, hl₀, hget⟩)

theorem building : Session.Building Fills where
  log _ _ := of_eq rfl rfl
  mapped _ _ := of_eq rfl rfl
  folders s p := ⟨Keeps.building.folders s p, fun _ h => h,
    fun _ _ h => .inl (FileTree.hasFile_of_createFolders h), fun _ _ h => .inl h⟩
  deliveries _ _ _ h := of_delivery h
  copies _ _ _ := of_eq rfl rfl
  followed _ _ := of_eq rfl rfl
  begun _ _ _ := of_eq rfl rfl
  bundles _ _ := of_eq rfl rfl
  entered _ _ _ := of_eq rfl rfl
  linked _ _ := of_eq rfl rfl

/-- **In a build, files are made where they are delivered, and nowhere else.** -/
theorem of_builds {b : Bundler} (hb : b.IsDiscreet) {options : BuildOptions}
    {bundles : List Bundle} (h : b.Builds options s bundles s') :
    ∃ log, (Bundler.start s log).Fills s' := by
  refine (Bundler.relates_of_builds building.toNoting h fun source => ?_).2
  exact Bundler.respects_compileEntry building.begun fun paths =>
    building.compile hb (fun _ _ => of_eq rfl rfl) _ _ paths

end Fills
end Session
end ElementBuild
