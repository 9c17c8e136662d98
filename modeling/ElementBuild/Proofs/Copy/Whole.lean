/-
# A folder is copied whole

When a folder is copied without a preprocessor and the copy succeeds, each file that names
lead to below the folder has a copy under the same names (`FolderCopy.hasCopy_run`).  The
names lead through folders only, which are entered one after the other: a link to a folder
would be copied as a file, and that fails.
-/
import ElementBuild.Proofs.Copy.Folder
import ElementBuild.Proofs.FileTree.Below
import ElementBuild.Proofs.Rounds

namespace ElementBuild
namespace FolderCopy

open Path (IsName ofNames)

variable {c : FolderCopy}

theorem sourceOf_ofNames {xs : List String} (hxs : ∀ x ∈ xs, IsName x) (hne : xs ≠ []) :
    c.sourceOf (ofNames xs).text = c.source.join (ofNames xs) := by
  rw [sourceOf, if_neg fun hempty =>
    (Path.isOpen_ofNames hxs hne).nonempty (String.isEmpty_iff.1 hempty)]

theorem below_ofNames {xs : List String} (hxs : ∀ x ∈ xs, IsName x) (n : String) :
    below (ofNames xs).text n = (ofNames (xs ++ [n])).text := by
  unfold below
  by_cases hne : xs = []
  · rw [hne, List.nil_append, Path.ofNames_singleton]
    rfl
  · rw [if_neg fun hempty => (Path.isOpen_ofNames hxs hne).nonempty (String.isEmpty_iff.1 hempty),
      Path.text_ofNames_append hne (List.cons_ne_nil n []), Path.ofNames_singleton]

/-- The path of something below a folder that is entered. -/
theorem join_sourceOf {xs ys : List String} (hxs : ∀ x ∈ xs, IsName x) (hys : ∀ y ∈ ys, IsName y)
    (hne : ys ≠ []) :
    (c.sourceOf (ofNames xs).text).join (ofNames ys) = c.source.join (ofNames (xs ++ ys)) := by
  by_cases hnil : xs = []
  · rw [hnil]
    rfl
  · rw [sourceOf_ofNames hxs hnil, Path.join_ofNames_append _ hxs hys hnil hne]

/-- What lies along a path below the folder has a copy along the same path below the
target. -/
def HasCopy (c : FolderCopy) (relative : Path) (s : Session) : Prop :=
  ⟨c.source.join relative, c.target.join relative⟩ ∈ s.deliveries ∧
    s.files.isFile (c.target.join relative) = true

theorem HasCopy.mono {relative : Path} {s s' : Session} (h : c.HasCopy relative s)
    (hwf : s.files.WellFormed) (hfills : s.Fills s') : c.HasCopy relative s' :=
  ⟨hfills.deliveries _ h.1, (hfills.kept hwf).2.isFile h.2⟩

theorem gives_copyFile (hstyle : c.style = none) {relative : String} {s s' : Session} {u : Unit}
    (h : (c.copyFile relative).Gives s u s') :
    ∃ t, s.files.copyFile (c.sourceOf relative) (c.targetOf relative) = .ok t ∧ s' = { s with
      files := t, deliveries := s.deliveries ++ [⟨c.sourceOf relative, c.targetOf relative⟩] } := by
  unfold copyFile at h
  dsimp only at h
  rw [hstyle] at h
  exact Step.gives_deliver.1 (Step.gives_during.1 h)

/-- What is copied as a file is one. -/
theorem isFile_of_copyFile (hstyle : c.style = none) {relative : String} {s s' : Session} {u : Unit}
    (h : (c.copyFile relative).Gives s u s') : s.files.isFile (c.sourceOf relative) = true := by
  obtain ⟨t, ht, -⟩ := gives_copyFile hstyle h
  obtain ⟨l, content, -, -, hl, hget, -⟩ := FileTree.copyFile_eq_ok_iff.1 ht
  exact FileTree.isFile_iff.2 ⟨l, content, hl, hget⟩

theorem hasCopy_copyFile (hstyle : c.style = none) {xs : List String} (hxs : ∀ x ∈ xs, IsName x)
    (hne : xs ≠ []) {s s' : Session} {u : Unit} (hwf : s.files.WellFormed)
    (h : (c.copyFile (ofNames xs).text).Gives s u s') : c.HasCopy (ofNames xs) s' := by
  obtain ⟨t, ht, rfl⟩ := gives_copyFile hstyle h
  rw [sourceOf_ofNames hxs hne] at ht ⊢
  obtain ⟨l, -, content, -, -, hl, hget⟩ := FileTree.copyFile_eq_ok hwf ht
  exact ⟨List.mem_append_right _ (List.mem_singleton_self _),
    FileTree.isFile_iff.2 ⟨l, content, hl, hget⟩⟩

theorem respects_copyEntry (hstyle : c.style = none) (depth : Nat) (relative : String)
    (count : Nat) (x : String × Entry) :
    (c.copyEntry (c.copyBelow depth) relative count x).Respects Session.Fills := by
  have hnone : ∀ style, c.style = some style → ∀ css p, (style css p).Respects Session.Fills :=
    fun style hsome => absurd (hstyle.symm.trans hsome) nofun
  have hsteps := Session.Fills.building.toDelivering.steps
  unfold copyEntry
  split
  · exact (hsteps.copyBelow c hnone _ _).bind fun n => .pure _
  · exact (hsteps.copyFile c hnone _).bind fun _ => .pure _

/-! ### What names lead to -/

section Names

variable {t : FileTree} {xs ys : List String} {y : String} {l : Location}

theorem isName_concat (hxs : ∀ x ∈ xs, IsName x) (hy : IsName y) : ∀ x ∈ xs ++ [y], IsName x :=
  List.forall_mem_append.2 ⟨hxs, List.forall_mem_singleton.2 hy⟩

variable (hxs : ∀ x ∈ xs, IsName x)
include hxs

/-- Names that lead to a file go through what is listed under the first of them. -/
theorem exists_listed (hwf : t.WellFormed) (hys : ∀ z ∈ y :: ys, IsName z)
    (hl : t.locate (c.sourceOf (ofNames xs).text) = .ok l) (hfolder : t.get? l = some .folder)
    (hfile : t.isFile (c.source.join (ofNames (xs ++ y :: ys))) = true) :
    ∃ e, t.get? (l ++ [y]) = some e ∧
      (y, e) ∈ (t.list (c.sourceOf (ofNames xs).text)).toOption.getD [] := by
  obtain ⟨r, content, hr, -⟩ := FileTree.isFile_iff.1 hfile
  rw [← join_sourceOf hxs hys (List.cons_ne_nil y ys)] at hr
  obtain ⟨e, he⟩ := FileTree.exists_get?_of_locate_join hl hfolder hys hr
  refine ⟨e, he, ?_⟩
  rw [FileTree.list, hl]
  simp only [bind, Except.bind]
  rw [hfolder]
  exact hwf.mem_children_iff.2 he

/-- A path along the first of some names is not too long if the whole one leads somewhere. -/
theorem fits_concat (hys : ∀ z ∈ y :: ys, IsName z)
    (hfile : t.isFile (c.source.join (ofNames (xs ++ y :: ys))) = true) :
    (c.source.join (ofNames (xs ++ [y]))).Fits := by
  obtain ⟨_, -, hwhole, -⟩ := FileTree.isFile_iff.1 hfile
  have hfits := (FileTree.isUsable_of_locate hwhole).fits
  by_cases hnil : ys = []
  · rwa [hnil] at hfits
  · have hconcat := isName_concat hxs (hys y List.mem_cons_self)
    have hrest : ∀ z ∈ ys, IsName z := fun z hz => hys z (List.mem_cons_of_mem y hz)
    rw [List.append_cons, ← join_sourceOf hconcat hrest hnil, sourceOf_ofNames hconcat (by simp)]
      at hfits
    exact Path.fits_of_join (Path.isOpen_ofNames hrest hnil).relative hfits

/-- A folder in a folder is found under its name. -/
theorem locate_sourceOf_concat (hwf : t.WellFormed) (hy : IsName y)
    (hl : t.locate (c.sourceOf (ofNames xs).text) = .ok l) (hfolder : t.get? l = some .folder)
    (hinner : t.get? (l ++ [y]) = some .folder)
    (hfits : (c.source.join (ofNames (xs ++ [y]))).Fits) :
    t.locate (c.sourceOf (ofNames (xs ++ [y])).text) = .ok (l ++ [y]) := by
  have hname : ∀ z ∈ [y], IsName z := List.forall_mem_singleton.2 hy
  have hne := List.cons_ne_nil y []
  have hone := Path.isOpen_ofNames hname hne
  rw [sourceOf_ofNames (isName_concat hxs hy) (by simp), ← join_sourceOf hxs hname hne]
  refine FileTree.locate_join hl hfolder hone.relative hone.nonempty ?_ (fun k => ?_) ?_
  · rw [Path.ofNames_singleton]
    exact (hwf.entry hinner).1.2.2
  · rw [FileTree.piecesOf_ofNames hname hne]
    exact hwf.walkLinks_names (.inl hinner) k
  · rw [join_sourceOf hxs hname hne]
    exact hfits

/-- No names lead on from a file. -/
theorem eq_nil_of_isFile (hwf : t.WellFormed) (hys : ∀ y ∈ ys, IsName y)
    (hfile : t.isFile (c.sourceOf (ofNames xs).text) = true)
    (hwhole : t.isFile (c.source.join (ofNames (xs ++ ys))) = true) : ys = [] := by
  by_contra hne
  obtain ⟨l₁, content₁, hl₁, hget₁⟩ := FileTree.isFile_iff.1 hfile
  obtain ⟨l₂, -, hl₂, -⟩ := FileTree.isFile_iff.1 hwhole
  rw [← join_sourceOf hxs hys hne] at hl₂
  have hopen := Path.isOpen_ofNames hys hne
  exact hwf.not_locate_join_of_file hl₁ hget₁ hopen.relative hopen.nonempty
    (by rwa [FileTree.piecesOf_ofNames hys hne]) hl₂

end Names

/-- Whatever is listed in a folder is copied in the course of copying the folder. -/
theorem exists_round_of_listed (hstyle : c.style = none) {depth n : Nat} {relative : String}
    {s s' : Session} {x : String × Entry} (h : (c.copyBelow (depth + 1) relative).Gives s n s')
    (hx : x ∈ (s.files.list (c.sourceOf relative)).toOption.getD []) :
    ∃ count count' t t', s.Fills t ∧
      (c.copyEntry (c.copyBelow depth) relative count x).Gives t count' t' ∧ t'.Fills s' := by
  unfold copyBelow at h
  simp only [Step.gives_bind] at h
  obtain ⟨t, s, hfiles, u, s₁, hmade, h⟩ := h
  obtain ⟨rfl, rfl⟩ := Step.gives_files.1 hfiles
  obtain ⟨count, s₂, hreaches⟩ := Step.exists_reaches hx h
  obtain ⟨count', s₃, rest, -, hround, hlater⟩ := hreaches.exists_gives h
  refine ⟨count, count', s₂, s₃, ?_, hround, ?_⟩
  · exact trans_of Session.Fills
      (Session.Fills.building.toDelivering.steps.createFolder _ _ _ _ hmade)
      (hreaches.relates fun _ _ _ => respects_copyEntry hstyle depth _ _ _)
  · exact Step.Respects.foldlM (fun _ _ _ => respects_copyEntry hstyle depth _ _ _) _ _ _ _ hlater

/-! ### Copies of folders -/

/-- **A folder that is copied to a depth is copied with each file that names lead to.** -/
theorem hasCopy_copyBelow (hstyle : c.style = none) {xs ys : List String} {depth n : Nat}
    {s s' : Session} (hwf : s.files.WellFormed) (hxs : ∀ x ∈ xs, IsName x)
    (hys : ∀ y ∈ ys, IsName y) (hne : ys ≠ [])
    (hfolder : s.files.isFolder (c.sourceOf (ofNames xs).text) = true)
    (hfile : s.files.isFile (c.source.join (ofNames (xs ++ ys))) = true)
    (h : (c.copyBelow depth (ofNames xs).text).Gives s n s') :
    c.HasCopy (ofNames (xs ++ ys)) s' := by
  induction ys generalizing xs depth n s s' with
  | nil => exact absurd rfl hne
  | cons y ys ih =>
    cases depth with
    | zero => exact absurd h Step.gives_fail
    | succ depth =>
      have hy := isName_concat hxs (hys y List.mem_cons_self)
      have hrest : ∀ z ∈ ys, IsName z := fun z hz => hys z (List.mem_cons_of_mem y hz)
      obtain ⟨l, hl, hget⟩ := FileTree.isFolder_iff.1 hfolder
      obtain ⟨e, he, hlisted⟩ := exists_listed hxs hwf hys hl hget hfile
      obtain ⟨count, count', t, t', hbefore, hround, hafter⟩ :=
        exists_round_of_listed hstyle h hlisted
      obtain ⟨hwf', hgrows⟩ := hbefore.kept hwf
      have hlater : t'.files.WellFormed :=
        ((respects_copyEntry hstyle depth _ _ _ _ _ _ hround).kept hwf').1
      have hwhole := hgrows.isFile hfile
      refine HasCopy.mono ?_ hlater hafter
      unfold copyEntry at hround
      rw [below_ofNames hxs] at hround
      rw [List.append_cons] at hwhole ⊢
      split at hround
      · -- a folder is entered
        rename_i heq
        obtain rfl : e = .folder := heq
        have hinner : t.files.isFolder (c.sourceOf (ofNames (xs ++ [y])).text) = true := by
          have hdeeper := locate_sourceOf_concat hxs hwf (hys y List.mem_cons_self) hl hget he
            (fits_concat hxs hys hfile)
          exact FileTree.isFolder_iff.2 ⟨_, hgrows.locate hdeeper, hgrows.folder he⟩
        have hys' : ys ≠ [] := by
          rintro rfl
          rw [List.append_nil, ← sourceOf_ofNames hy (by simp)] at hwhole
          obtain ⟨_, hl₁, hget₁⟩ := FileTree.isFolder_iff.1 hinner
          obtain ⟨_, content, hl₂, hget₂⟩ := FileTree.isFile_iff.1 hwhole
          cases hl₁.symm.trans hl₂
          cases hget₁.symm.trans hget₂
        rw [Step.gives_bind] at hround
        obtain ⟨k, _, hround, hpure⟩ := hround
        obtain ⟨-, rfl⟩ := Step.gives_pure.1 hpure
        exact ih hwf' hy hrest hys' hinner hwhole hround
      · -- anything else is copied as a file
        rw [Step.gives_bind] at hround
        obtain ⟨_, _, hround, hpure⟩ := hround
        obtain ⟨-, rfl⟩ := Step.gives_pure.1 hpure
        rw [eq_nil_of_isFile hy hwf' hrest (isFile_of_copyFile hstyle hround) hwhole,
          List.append_nil]
        exact hasCopy_copyFile hstyle hy (by simp) hwf' hround

/-- **A file that names lead to below a folder has a copy** once the folder is copied. -/
theorem hasCopy_run (hstyle : c.style = none) (hsource : c.source.text ≠ "") {xs : List String}
    (hxs : ∀ x ∈ xs, IsName x) (hne : xs ≠ []) {n : Nat} {s s' : Session}
    (hwf : s.files.WellFormed) (hfile : s.files.isFile (c.source.join (ofNames xs)) = true)
    (h : c.run.Gives s n s') : c.HasCopy (ofNames xs) s' := by
  have hfolder : s.files.isFolder c.source = true := by
    obtain ⟨r, -, hr, -⟩ := FileTree.isFile_iff.1 hfile
    have hopen := Path.isOpen_ofNames hxs hne
    exact hwf.isFolder_of_locate_join hsource hopen.relative hopen.nonempty
      (by rwa [FileTree.piecesOf_ofNames hxs hne]) hr
  unfold run at h
  rw [Step.gives_bind] at h
  obtain ⟨t, s, hfiles, h⟩ := h
  obtain ⟨rfl, rfl⟩ := Step.gives_files.1 hfiles
  rw [if_pos hfolder] at h
  split at h
  · -- a link to a folder is not copied
    rw [Step.gives_bind] at h
    obtain ⟨u, s₁, hcopy, -⟩ := h
    obtain ⟨l, hl, hget⟩ := FileTree.isFolder_iff.1 hfolder
    obtain ⟨l', content, hl', hget'⟩ := FileTree.isFile_iff.1 (isFile_of_copyFile hstyle hcopy)
    cases hl.symm.trans hl'
    cases hget.symm.trans hget'
  · have hnone : ∀ x ∈ ([] : List String), IsName x := fun _ hx => absurd hx List.not_mem_nil
    have hcopy : c.HasCopy (ofNames ([] ++ xs)) s' :=
      hasCopy_copyBelow hstyle hwf hnone hxs hne hfolder hfile h
    exact hcopy

end FolderCopy
end ElementBuild
