/-
# What a folder held when it was copied

A folder is listed when it is entered, and what is copied meanwhile may be listed, too, where
the target lies inside the folder.  Copying comes to an end all the same, because paths cannot
become longer and longer.  But that it copies nothing except what the folder held at first
takes a target that none of the entries of the folder leads to (`FolderCopy.IsApart`): then the
places below these entries stay as they are but for empty folders, while all that is made lies
below the target (`FolderCopy.Sound`).
-/
import ElementBuild.Proofs.Build.Depth
import ElementBuild.Proofs.Copy.Apart
import ElementBuild.Proofs.FileTree.Entering

namespace ElementBuild

open FileTree (Enters)
open Path (IsName ofNames)

/-- What is true of a session stays true, and the files grow. -/
def Session.Maintains (P : Session → Prop) (s s' : Session) : Prop :=
  P s → P s' ∧ s.files.Grows s'.files

instance (P : Session → Prop) : IsPreorder Session (Session.Maintains P) where
  refl s := fun h => ⟨h, refl_of FileTree.Grows s.files⟩
  trans _ _ _ h₁ h₂ := fun h =>
    ⟨(h₂ (h₁ h).1).1, trans_of FileTree.Grows (h₁ h).2 (h₂ (h₁ h).1).2⟩

namespace FolderCopy

/-! ### Paths of entries -/

theorem join_empty_join (p : Path) {q : Path} (hq : q.isAbsolute = false) :
    (p.join ⟨""⟩).join q = p.join q := by
  have hnone : (⟨""⟩ : Path).isAbsolute = false := rfl
  have hseparator : (p.join ⟨""⟩).separator = "" := by
    rw [Path.join_eq hnone, Path.separator, String.append_empty]
    by_cases hopen : (p.text.isEmpty || p.text.toList.getLast? == some '/') = true
    · rw [Path.separator, if_pos hopen, String.append_empty, if_pos hopen]
    · rw [Path.separator, if_neg hopen, if_pos (by simp)]
  rw [Path.join_eq hq, hseparator, Path.join_eq hnone, Path.join_eq hq, String.append_empty,
    String.append_empty]

section Paths

variable {c : FolderCopy} {xs : List String} {n : String} (hxs : ∀ x ∈ xs, IsName x) (hn : IsName n)
include hxs hn

theorem sourceOf_below : c.sourceOf (below (ofNames xs).text n) =
    (c.sourceOf (ofNames xs).text).join ⟨n⟩ := by
  rw [below_ofNames hxs, sourceOf_ofNames (isName_concat hxs hn) (by simp), ← Path.ofNames_singleton,
    join_sourceOf hxs (List.forall_mem_singleton.2 hn) (List.cons_ne_nil n [])]

theorem targetOf_below : c.targetOf (below (ofNames xs).text n) =
    (c.targetOf (ofNames xs).text).join ⟨n⟩ := by
  rw [below_ofNames hxs]
  by_cases hne : xs = []
  · subst hne
    rw [List.nil_append, Path.ofNames_singleton]
    exact (join_empty_join c.target hn.isAbsolute).symm
  · rw [targetOf, targetOf, ← Path.ofNames_singleton]
    exact Path.join_ofNames_append _ hxs (List.forall_mem_singleton.2 hn) hne (List.cons_ne_nil n [])

end Paths

/-- A preprocessor of stylesheets leaves the files alone, and it ends. -/
structure StylesAside (c : FolderCopy) : Prop where
  aside : ∀ style, c.style = some style → ∀ css p, (style css p).Ends fun _ s s' =>
    s'.files = s.files ∧ s'.deliveries = s.deliveries
  ends : ∀ style, c.style = some style → ∀ css p, (style css p).IsBounded

/-- A delivery of something below a place that is no folder. -/
def Held (c : FolderCopy) (t : FileTree) (place : Location) (d : Delivery) : Prop :=
  ∃ ys e, d.source = c.sourceOf (ofNames ys).text ∧ t.get? (place ++ ys) = some e ∧ e ≠ .folder

/-- In the course of copying, places that are not below the target are as they were but for
folders that were made, and what was delivered was held by the folder. -/
structure Sound (c : FolderCopy) (t : FileTree) (source target : Location) (ds : List Delivery)
    (s : Session) : Prop where
  wellFormed : s.files.WellFormed
  plain : s.files.HasNoLink target
  places : ∀ l, ¬ target <+: l →
    s.files.get? l = t.get? l ∨ t.get? l = none ∧ s.files.get? l = some .folder
  deliveries : ∀ d ∈ s.deliveries, d ∈ ds ∨ c.Held t source d

section Course

variable {c : FolderCopy} {t : FileTree} {source target m : Location} {ds : List Delivery}
  {xs : List String} {n : String} {s s' : Session}

theorem Sound.congr (h : c.Sound t source target ds s) (hfiles : s'.files = s.files)
    (hdeliveries : s'.deliveries = s.deliveries) : c.Sound t source target ds s' := by
  obtain ⟨h₁, h₂, h₃, h₄⟩ := h
  exact ⟨hfiles ▸ h₁, hfiles ▸ h₂, hfiles ▸ h₃, hdeliveries ▸ h₄⟩

/-- Files change below the target. -/
theorem Sound.change (h : c.Sound t source target ds s) (hchanges : s.files.Changes s'.files)
    (hsame : ∀ l, ¬ target <+: l → s'.files.get? l = s.files.get? l)
    (hdeliveries : ∀ d ∈ s'.deliveries, d ∈ s.deliveries ∨ c.Held t source d) :
    c.Sound t source target ds s' where
  wellFormed := hchanges.wellFormed h.wellFormed
  plain ns link hlink := h.plain ns link (hchanges.link hlink)
  places l hl := by
    rw [hsame l hl]
    exact h.places l hl
  deliveries d hd := (hdeliveries d hd).elim (h.deliveries d) .inr

/-- A folder of the target is open for what goes into it. -/
structure Within (c : FolderCopy) (t : FileTree) (source target : Location) (ds : List Delivery)
    (q : Path) (m : Location) (s : Session) : Prop where
  sound : c.Sound t source target ds s
  enters : s.files.Enters q m

variable {q : Path} (hm : target <+: m) (hn : IsFileName n)
include hm hn

omit hn in
theorem Within.noLink (h : c.Within t source target ds q m s) (link : String) :
    s.files.get? (m ++ [n]) ≠ some (.link link) := by
  obtain ⟨ns, rfl⟩ := hm
  rw [List.append_assoc]
  exact h.sound.plain _ link

/-- A file that is made under a name is made there, and nowhere else. -/
theorem Within.delivery (h : c.Within t source target ds q m s) {p : Path} {t' : FileTree}
    (hmakes : s.files.Makes ⟨p, q.join ⟨n⟩⟩ t') (hheld : c.Held t source ⟨p, q.join ⟨n⟩⟩) :
    c.Within t source target ds q m
        { s with files := t', deliveries := s.deliveries ++ [⟨p, q.join ⟨n⟩⟩] } ∧
      s.files.Grows t' := by
  have hchanges := hmakes.changes h.sound.wellFormed
  have henters := h.enters.mono hchanges.grows
  obtain ⟨l, hl, -, hothers⟩ := hmakes.exists_location h.sound.wellFormed
  obtain rfl := henters.eq_of_locate_join hn (fun link hlink => h.noLink hm link
    (hchanges.link hlink)) hl
  refine ⟨⟨h.sound.change hchanges (fun l hl => hothers l ?_) fun d hd => ?_, henters⟩,
    hchanges.grows⟩
  · rintro rfl
    exact hl (hm.trans (List.prefix_append m [n]))
  · refine (List.mem_append.1 hd).imp_right fun hd => ?_
    rw [List.mem_singleton.1 hd]
    exact hheld

theorem Within.createFolder (h : c.Within t source target ds q m s) :
    c.Within t source target ds q m
        { s with files := (s.files.createFolders (q.join ⟨n⟩)).1 } ∧
      s.files.Grows (s.files.createFolders (q.join ⟨n⟩)).1 := by
  have hchanges := FileTree.changes_createFolders h.sound.wellFormed (q.join ⟨n⟩)
  refine ⟨⟨h.sound.change hchanges (fun l hl => ?_) fun d hd => .inl hd,
    h.enters.mono hchanges.grows⟩, hchanges.grows⟩
  refine h.enters.get?_createFolders_join hn ?_
  rintro rfl
  exact hl (hm.trans (List.prefix_append m [n]))

end Course

/-! ### Steps of copying -/

section Steps

variable {c : FolderCopy} {t : FileTree} {source target m : Location} {ds : List Delivery}
  {xs : List String} {n : String} {s : Session} (hstyle : c.StylesAside)

theorem session_createFolder (folder : Path) (s : Session) :
    ((Copy.createFolder folder).run.run s : Except Failure Unit × Session).2 =
      { s with files := (s.files.createFolders folder).1 } := by
  rw [Copy.createFolder, Step.run_during]
  exact Step.session_createFolders folder s

include hstyle in
/-- What the folder holds is copied to where it belongs. -/
theorem ends_copyFile (hxs : ∀ x ∈ xs, IsName x) (hn : IsFileName n)
    (hm : target <+: m) {e : Entry} (hget : t.get? (source ++ (xs ++ [n])) = some e)
    (he : e ≠ .folder) : (c.copyFile (below (ofNames xs).text n)).Ends fun _ =>
      Session.Maintains (c.Within t source target ds (c.targetOf (ofNames xs).text) m) := by
  have hheld : c.Held t source ⟨c.sourceOf (below (ofNames xs).text n),
      (c.targetOf (ofNames xs).text).join ⟨n⟩⟩ := ⟨xs ++ [n], e, by rw [below_ofNames hxs], hget, he⟩
  have hmakes : ∀ {change : FileTree → Except FileError FileTree},
      (∀ u u', change u = .ok u' → u.Makes ⟨c.sourceOf (below (ofNames xs).text n),
        (c.targetOf (ofNames xs).text).join ⟨n⟩⟩ u') →
      (Step.deliver (c.sourceOf (below (ofNames xs).text n))
        ((c.targetOf (ofNames xs).text).join ⟨n⟩) change).Ends fun _ =>
          Session.Maintains (c.Within t source target ds (c.targetOf (ofNames xs).text) m) := by
    intro change hchange
    refine .of_respects (fun s u s' hgives hs => ?_) fun _ _ _ => Step.run_deliver_error
    obtain ⟨u', hu, rfl⟩ := Step.gives_deliver.1 hgives
    exact hs.delivery hm hn (hchange _ _ hu) hheld
  have hverbatim := (hmakes fun u u' hu => .copy hu).during
    (.copying (c.sourceOf (below (ofNames xs).text n)) ((c.targetOf (ofNames xs).text).join ⟨n⟩))
  unfold copyFile
  dsimp only
  rw [targetOf_below hxs hn.1]
  split
  · rename_i style hsome
    split
    · refine ((Step.Ends.read _).during _).bind fun css => Step.Ends.bind (fun s hs => ?_)
        fun processed => (hmakes fun u u' hu => .write _ hu).during _
      obtain ⟨hfiles, hdeliveries⟩ := hstyle.aside style hsome css _ s
      exact ⟨⟨hs.sound.congr hfiles hdeliveries, hfiles ▸ hs.enters⟩, hfiles ▸ refl_of _ _⟩
    · exact hverbatim
  · exact hverbatim

/-- Neither of two places lies at or below the other. -/
def Apart (l m : Location) : Prop := ¬ l <+: m ∧ ¬ m <+: l

theorem Apart.append {l m : Location} (h : Apart l m) (ns : List String) : Apart l (m ++ ns) :=
  ⟨fun hpre => (List.prefix_or_prefix_of_prefix hpre (List.prefix_append m ns)).elim h.1 h.2,
    fun hpre => h.2 ((List.prefix_append m ns).trans hpre)⟩

/-- An entry that was listed in a folder, and that the target does not touch. -/
structure Listed (t : FileTree) (target l : Location) (s : Session) (x : String × Entry) : Prop where
  name : IsFileName x.1
  apart : Apart target (l ++ [x.1])
  found : x.2 = .folder → s.files.get? (l ++ [x.1]) = some .folder
  held : x.2 ≠ .folder → t.get? (l ++ [x.1]) = some x.2

/-- What folders of the target hold, copying a folder in them keeps sound. -/
def KeepsSound (c : FolderCopy) (t : FileTree) (source target : Location) (ds : List Delivery)
    (depth : Nat) : Prop :=
  ∀ {xs : List String} {n : String} {m : Location} {s : Session}, (∀ x ∈ xs, IsName x) →
    target <+: m → c.Within t source target ds (c.targetOf (ofNames xs).text) m s →
    s.files.Enters (c.sourceOf (ofNames xs).text) (source ++ xs) →
    Listed t target (source ++ xs) s (n, .folder) →
    let s' := ((c.copyBelow depth (below (ofNames xs).text n)).run.run s :
      Except Failure Nat × Session).2
    c.Sound t source target ds s' ∧ s.files.Grows s'.files

include hstyle in
/-- Entries are copied to where they belong, one after the other. -/
theorem sound_entries {depth : Nat} (hdeeper : c.KeepsSound t source target ds depth)
    (hxs : ∀ x ∈ xs, IsName x) (hm : target <+: m)
    (hwithin : c.Within t source target ds (c.targetOf (ofNames xs).text) m s)
    (hsource : s.files.Enters (c.sourceOf (ofNames xs).text) (source ++ xs))
    {es : List (String × Entry)} (hes : ∀ x ∈ es, Listed t target (source ++ xs) s x) (count : Nat) :
    let s' := ((es.foldlM (c.copyEntry (c.copyBelow depth) (ofNames xs).text) count).run.run s :
      Except Failure Nat × Session).2
    c.Sound t source target ds s' ∧ s.files.Grows s'.files := by
  let P : Session → Prop := fun u =>
    c.Within t source target ds (c.targetOf (ofNames xs).text) m u ∧ s.files.Grows u.files
  have hrounds : (es.foldlM (c.copyEntry (c.copyBelow depth) (ofNames xs).text) count).Ends
      fun _ => Session.Maintains P := by
    refine .foldlM (fun count x hx => ?_) count
    have hlisted := hes x hx
    unfold copyEntry
    split
    · rename_i hfolder
      refine Step.Ends.bind (fun u hu => ?_) fun _ => .pure _
      obtain ⟨hsound, hgrows⟩ := hdeeper hxs hm hu.1 (hsource.mono hu.2) (n := x.1)
        ⟨hlisted.name, hlisted.apart, fun _ => hu.2.folder (hlisted.found hfolder),
          fun hne => absurd rfl hne⟩
      exact ⟨⟨⟨hsound, hu.1.enters.mono hgrows⟩, trans_of FileTree.Grows hu.2 hgrows⟩, hgrows⟩
    · rename_i hfile
      refine Step.Ends.bind (fun u hu => ?_) fun _ => .pure _
      have hheld := hlisted.held fun heq => hfile heq
      rw [List.append_assoc] at hheld
      obtain ⟨hwithin', hgrows⟩ := ends_copyFile hstyle hxs hlisted.name hm hheld
        (fun heq => hfile heq) u hu.1
      exact ⟨⟨hwithin', trans_of FileTree.Grows hu.2 hgrows⟩, hgrows⟩
  obtain ⟨hlast, hgrows⟩ := hrounds s ⟨hwithin, refl_of _ _⟩
  exact ⟨hlast.1.sound, hgrows⟩

/-- What is listed in a folder of the source that the target does not touch. -/
theorem listed_of_mem {l : Location} {x : String × Entry} (hsound : c.Sound t source target ds s)
    (hapart : Apart target l) (hx : x ∈ s.files.children l) : Listed t target l s x := by
  have hget := hsound.wellFormed.get?_of_mem_children hx
  have happart := hapart.append [x.1]
  refine ⟨(hsound.wellFormed.entry hget).1, happart, fun heq => heq ▸ hget, fun hne => ?_⟩
  rcases hsound.places _ happart.1 with heq | ⟨-, hmade⟩
  · exact heq.symm.trans hget
  · exact absurd (Option.some.inj (hget.symm.trans hmade)) hne

theorem Listed.mono {l : Location} {x : String × Entry} {s' : Session} (h : Listed t target l s x)
    (hgrows : s.files.Grows s'.files) : Listed t target l s' x :=
  ⟨h.name, h.apart, fun heq => hgrows.folder (h.found heq), h.held⟩

include hstyle in
/-- **A folder is copied soundly to any depth**, whether copying fails on the way or not. -/
theorem keepsSound (depth : Nat) : c.KeepsSound t source target ds depth := by
  induction depth with
  | zero =>
    intro xs n m s _ _ hwithin _ _
    exact ⟨hwithin.sound, refl_of _ _⟩
  | succ depth ih =>
    intro xs n m s hxs hm hwithin hsource hlisted
    have hn : IsFileName n := hlisted.name
    have hmade := hwithin.createFolder hm hn
    dsimp only
    unfold copyBelow
    rw [Step.run_bind_ok (Step.gives_files.2 ⟨rfl, rfl⟩), targetOf_below hxs hn.1,
      sourceOf_below hxs hn.1]
    refine Step.Ends.of_bind (R := fun _ s s' => c.Sound t source target ds s' ∧
      s.files.Grows s'.files) (fun e v hv => ?_) fun u v hv => ?_
    · have hrun := (congrArg Prod.snd hv).symm.trans (session_createFolder _ s)
      dsimp only at hrun
      rw [hrun]
      exact ⟨hmade.1.sound, hmade.2⟩
    · obtain ⟨hnone, -⟩ := Step.gives_createFolders.1 (Step.gives_during.1 hv)
      obtain ⟨l, hl, hfolder⟩ := FileTree.isFolder_iff.1
        (FileTree.isFolder_of_createFolders hwithin.sound.wellFormed (hn.1.isOpen.join _).1 hnone)
      obtain rfl := hmade.1.enters.eq_of_locate_join hn (hmade.1.noLink hm) hl
      have hrun : v = _ := (congrArg Prod.snd hv).symm.trans (session_createFolder _ s)
      have henters : v.files.Enters ((c.targetOf (ofNames xs).text).join ⟨n⟩) (m ++ [n]) :=
        hrun ▸ ⟨hl, hfolder⟩
      obtain ⟨hwithin', hgrows⟩ : c.Within t source target ds (c.targetOf (ofNames xs).text) m v ∧
        s.files.Grows v.files := hrun ▸ hmade
      cases hlist : s.files.list ((c.sourceOf (ofNames xs).text).join ⟨n⟩) with
      | error e => exact ⟨hwithin'.sound, hgrows⟩
      | ok entries =>
        obtain ⟨l, hl', hfolder', rfl⟩ := FileTree.list_eq_ok hlist
        obtain rfl := hsource.eq_of_locate_join hn (fun link hlink => by
          cases hlink.symm.trans (hlisted.found rfl)) hl'
        have hapart : Apart target (source ++ xs ++ [n]) := hlisted.apart
        rw [List.append_assoc] at hl' hfolder' hapart ⊢
        -- the folder is entered, in the source and in the target
        have hentered := below_ofNames hxs n
        have hsource' : s.files.Enters (c.sourceOf (ofNames (xs ++ [n])).text)
            (source ++ (xs ++ [n])) := by
          rw [← hentered, sourceOf_below hxs hn.1]
          exact ⟨hl', hfolder'⟩
        rw [← targetOf_below hxs hn.1, hentered] at henters
        obtain ⟨hsound, hlater⟩ := sound_entries hstyle ih (isName_concat hxs hn.1)
          (hm.trans (List.prefix_append m [n])) ⟨hwithin'.sound, henters⟩ (hsource'.mono hgrows)
          (fun x hx => (listed_of_mem hwithin.sound hapart hx).mono hgrows) 0
        rw [hentered]
        exact ⟨hsound, trans_of FileTree.Grows hgrows hlater⟩

/-- What is no file is not copied as one. -/
theorem run_copyFile_of_isFolder {relative : String}
    (h : s.files.isFolder (c.sourceOf relative) = true) :
    ∃ e, ((c.copyFile relative).run.run s : Except Failure Unit × Session) = (.error e, s) := by
  obtain ⟨l, hl, hfolder⟩ := FileTree.isFolder_iff.1 h
  have hread : s.files.readText (c.sourceOf relative) = .error .isADirectory := by
    rw [FileTree.readText, FileTree.read, hl]
    simp only [bind, Except.bind, hfolder]
  have hcopy : ∀ target, s.files.copyFile (c.sourceOf relative) target = .error .invalidInput := by
    intro target
    rw [FileTree.copyFile, hl]
    simp only [bind, Except.bind, hfolder]
  have hverbatim : ∃ e, ((copyFile.verbatim (c.sourceOf relative) (c.targetOf relative)).run.run s :
      Except Failure Unit × Session) = (.error e, s) := by
    have hrun := Step.run_fromFiles (fun t => t.copyFile (c.sourceOf relative) (c.targetOf relative)) s
    rw [hcopy] at hrun
    rw [copyFile.verbatim, Step.run_during, Step.deliver, Step.run_bind_error hrun]
    exact ⟨_, rfl⟩
  unfold copyFile
  dsimp only
  split
  · split
    · have hrun := Step.run_fromFiles (·.readText (c.sourceOf relative)) s
      rw [hread] at hrun
      have hduring := Step.run_during (.reading (c.sourceOf relative))
        (Step.read (c.sourceOf relative)) s
      rw [Step.read, hrun] at hduring
      exact ⟨_, Step.run_bind_error hduring⟩
    · exact hverbatim
  · exact hverbatim

end Steps

/-! ### The whole copy -/

/-- Where the target leads once it is made, there are no links, and neither does the source lie
there nor any entry of it on the way. -/
def IsApart (c : FolderCopy) (t : FileTree) (source : Location) : Prop :=
  ∀ target, (t.createFolders (c.targetOf "")).1.locate (c.targetOf "") = .ok target →
    ¬ target <+: source ∧ t.HasNoLink target ∧
      ∀ n e, t.get? (source ++ [n]) = some e → ¬ source ++ [n] <+: target

/-- What is listed at first is apart from the target. -/
theorem IsApart.listed {c : FolderCopy} {source target : Location} {s : Session}
    (h : c.IsApart s.files source) (hwf : s.files.WellFormed)
    (htarget : (s.files.createFolders (c.targetOf "")).1.locate (c.targetOf "") = .ok target)
    {x : String × Entry} (hx : x ∈ s.files.children source) :
    Listed s.files target source s x := by
  obtain ⟨hoff, -, hentries⟩ := h target htarget
  have hget := hwf.get?_of_mem_children hx
  refine ⟨(hwf.entry hget).1, ⟨fun hpre => ?_, hentries _ _ hget⟩, fun heq => heq ▸ hget,
    fun _ => hget⟩
  rcases List.prefix_concat_iff.1 hpre with rfl | hpre
  · exact hentries _ _ hget (List.prefix_refl _)
  · exact hoff hpre

/-- A folder that is not a link is copied with what it holds when it is listed. -/
theorem held_of_copyBelow {c : FolderCopy} (hstyle : c.StylesAside) (htarget : c.target.text ≠ "")
    {s : Session} (hwf : s.files.WellFormed) {source : Location}
    (hsource : s.files.Enters c.source source) (hapart : c.IsApart s.files source) (depth : Nat) :
    ∀ d ∈ ((c.copyBelow (depth + 1) "").run.run s : Except Failure Nat × Session).2.deliveries,
      d ∈ s.deliveries ∨ c.Held s.files source d := by
  have hnames : ∀ x ∈ ([] : List String), IsName x := fun _ hx => absurd hx List.not_mem_nil
  have hlist : s.files.list (c.sourceOf "") = .ok (s.files.children source) := by
    rw [FileTree.list, show c.sourceOf "" = c.source from rfl, hsource.leads]
    simp only [bind, Except.bind, hsource.folder]
  unfold copyBelow
  rw [Step.run_bind_ok (Step.gives_files.2 ⟨rfl, rfl⟩), hlist]
  refine Step.Ends.of_bind (R := fun _ s s' => ∀ d ∈ s'.deliveries, d ∈ s.deliveries ∨
    c.Held s.files source d) (fun e v hv => ?_) fun u v hv => ?_
  · have hrun := (congrArg Prod.snd hv).symm.trans (session_createFolder _ s)
    dsimp only at hrun
    rw [hrun]
    exact fun d hd => .inl hd
  · obtain ⟨hnone, -⟩ := Step.gives_createFolders.1 (Step.gives_during.1 hv)
    have htext : (c.targetOf "").text ≠ "" := by
      rw [targetOf, Path.join_eq rfl]
      simp [htarget]
    obtain ⟨target, hl, hfolder⟩ := FileTree.isFolder_iff.1
      (FileTree.isFolder_of_createFolders hwf htext hnone)
    have hchanges := FileTree.changes_createFolders hwf (c.targetOf "")
    have hrun : v = _ := (congrArg Prod.snd hv).symm.trans (session_createFolder _ s)
    have hsound : c.Sound s.files source target s.deliveries v := by
      rw [hrun]
      exact ⟨hchanges.wellFormed hwf, fun ns link hlink =>
        (hapart target hl).2.1 ns link (hchanges.link hlink),
        fun l _ => FileTree.makesFolders_createFolders _ _ l, fun d hd => .inl hd⟩
    have henters : v.files.Enters (c.targetOf "") target := hrun ▸ ⟨hl, hfolder⟩
    have hgrows : s.files.Grows v.files := hrun ▸ hchanges.grows
    have hfrom : v.files.Enters (c.sourceOf (ofNames []).text) (source ++ []) := by
      rw [List.append_nil]
      exact hsource.mono hgrows
    have hlisted : ∀ x ∈ s.files.children source,
        Listed s.files target (source ++ []) v x := fun x hx => by
      rw [List.append_nil]
      exact (hapart.listed hwf hl hx).mono hgrows
    have hentries := sound_entries hstyle (keepsSound hstyle depth) hnames
      (List.prefix_refl target) ⟨hsound, henters⟩ hfrom hlisted 0
    exact hentries.1.deliveries

/-- **Copying a folder comes to an end, and copies what the folder held**, if the target leads
to none of the entries of the folder.  It ends wherever the target lies: the depth to which
folders are followed does not matter. -/
theorem copies_held {c : FolderCopy} (hstyle : c.StylesAside) (htarget : c.target.text ≠ "")
    {s : Session} (hwf : s.files.WellFormed) :
    (∀ depth, depthLimit ≤ depth → (c.copyBelow depth "").Agrees (c.copyBelow depthLimit "") s) ∧
    (∀ e s', (c.run.run.run s : Except Failure Nat × Session) = (.error e, s') →
      e.fault ≠ .endless) ∧
    ∀ source, s.files.locate c.source = .ok source → c.IsApart s.files source →
      ∀ d ∈ (c.run.run.run s : Except Failure Nat × Session).2.deliveries,
        d ∈ s.deliveries ∨ c.Held s.files source d := by
  have hkeeps : ∀ style, c.style = some style → ∀ css p, (style css p).Respects Session.Keeps :=
    fun style hsome css p s a s' h =>
      .of_eq ((hstyle.aside style hsome css p).of_gives h).1
  refine ⟨fun depth hdepth => ?_, fun e s' hrun => ?_, fun source hsource hapart => ?_⟩
  · obtain ⟨k, rfl⟩ : ∃ k, depth = k + 1 := ⟨depth - 1, by simp only [depthLimit] at hdepth; omega⟩
    simp only [depthLimit] at hdepth
    exact agrees_copyBelow hstyle.ends hkeeps hwf (by omega) (by omega)
  · exact (agrees_run hstyle.ends hkeeps hwf).settled e s' hrun
  · unfold run
    rw [Step.run_bind_ok (Step.gives_files.2 ⟨rfl, rfl⟩)]
    split
    · rename_i hfolder
      obtain ⟨l, hl, hget⟩ := FileTree.isFolder_iff.1 hfolder
      obtain rfl := Except.ok.inj (hsource.symm.trans hl)
      split
      · -- a link to a folder is copied as a file, and fails
        obtain ⟨e, hrun⟩ := run_copyFile_of_isFolder
          (show s.files.isFolder (c.sourceOf "") = true from hfolder)
        rw [Step.run_bind_error hrun]
        exact fun d hd => .inl hd
      · exact held_of_copyBelow hstyle htarget hwf ⟨hl, hget⟩ hapart (FileTree.pathLimit + 1)
    · exact fun d hd => .inl hd

theorem stylesAside_of_none {c : FolderCopy} (h : c.style = none) : c.StylesAside :=
  ⟨fun _ hsome => absurd (h.symm.trans hsome) nofun, fun _ hsome => absurd (h.symm.trans hsome) nofun⟩

/-- A folder with an empty folder in it. -/
def nestedFolders : FileTree where
  entries := [
    (["s"], .folder),
    (["s", "a.txt"], .file (.text "x")),
    (["s", "z"], .folder)]

set_option maxRecDepth 100000 in
theorem nestedFolders_isApart :
    (FolderCopy.mk ⟨"/s"⟩ ⟨"/s/out"⟩ none).IsApart nestedFolders ["s"] := by
  intro target htarget
  have hout : (nestedFolders.createFolders ⟨"/s/out/"⟩).1.locate ⟨"/s/out/"⟩ =
      .ok ["s", "out"] := by decide +kernel
  obtain rfl := Except.ok.inj (htarget.symm.trans hout)
  refine ⟨by decide, fun ns link hlink => ?_, fun n e hget => ?_⟩
  · have hmem := FileTree.mem_of_get? (List.cons_ne_nil "s" _) hlink
    simp [nestedFolders] at hmem
  · have hmem := FileTree.mem_of_get? (List.cons_ne_nil "s" [n]) hget
    have hn : n = "a.txt" ∨ n = "z" := by
      simp [nestedFolders] at hmem
      tauto
    rcases hn with rfl | rfl
    · decide
    · decide

set_option maxRecDepth 100000 in
theorem nestedFolders_run :
    let r : Except Failure Nat × Session :=
      (FolderCopy.mk ⟨"/s"⟩ ⟨"/s/out"⟩ none).run.run.run { files := nestedFolders }
    r.1.toOption = some 1 ∧ r.2.deliveries = [⟨⟨"/s/a.txt"⟩, ⟨"/s/out/a.txt"⟩⟩] := by
  decide +kernel

/-- A folder is copied into itself, under a new name. -/
theorem copies_held_of_nestedFolders :
    let c : FolderCopy := ⟨⟨"/s"⟩, ⟨"/s/out"⟩, none⟩
    let r : Except Failure Nat × Session := c.run.run.run { files := nestedFolders }
    r.1.toOption = some 1 ∧ ∀ d ∈ r.2.deliveries, c.Held nestedFolders ["s"] d := by
  intro c r
  refine ⟨nestedFolders_run.1, fun d hd => ?_⟩
  have hsource : nestedFolders.locate ⟨"/s"⟩ = .ok ["s"] := by decide +kernel
  obtain ⟨-, -, hheld⟩ := copies_held (c := c) (s := { files := nestedFolders })
    (stylesAside_of_none rfl) (by decide) (by decide)
  exact (hheld ["s"] hsource nestedFolders_isApart d hd).resolve_left List.not_mem_nil

set_option maxRecDepth 100000 in
/-- **A copy may be copied again.**  Where the target is a folder that the source holds, the
files that were copied into it are listed when the copying comes to it. -/
theorem copies_copy_of_nestedFolders :
    let r : Except Failure Nat × Session :=
      (FolderCopy.mk ⟨"/s"⟩ ⟨"/s/z"⟩ none).run.run.run { files := nestedFolders }
    r.1.toOption = some 2 ∧
      r.2.deliveries = [⟨⟨"/s/a.txt"⟩, ⟨"/s/z/a.txt"⟩⟩, ⟨⟨"/s/z/a.txt"⟩, ⟨"/s/z/z/a.txt"⟩⟩] ∧
      ¬ nestedFolders.isFile ⟨"/s/z/a.txt"⟩ = true := by
  decide +kernel

end FolderCopy
end ElementBuild
