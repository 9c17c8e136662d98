/-
# A copy mirrors its folder

Where the target is new and neither the target nor the folder lies in the other one, copying a
folder gives the number of its files, and afterwards the target holds what the folder holds: the
same folders, and the same files but for the stylesheets, which are preprocessed if there is a
preprocessor.  Nothing else changes, except that the folders above the target are made
(`FolderCopy.mirrors_tree`).

What a step makes is told apart by the names below the target that it makes something at
(`FolderCopy.Reproduces`): steps one after the other make what each of them makes, whatever the
places are (`Reproduces.trans`), and a step that makes a file or a folder is the base.

The limits of the statement are those of the files: a target with a name or a path that is too
long is not made (`isFileName_of_run`, `fits_of_run`).
-/
import ElementBuild.Proofs.Copy.Listed
import ElementBuild.Proofs.FileTree.Making

namespace ElementBuild

open Path (IsName ofNames)

namespace FileTree

/-! ### Counting files -/

/-- The number of files at a place and below it. -/
def filesBelow (t : FileTree) (l : Location) : Nat :=
  t.entries.countP fun x => l <+: x.1 ∧ x.2 ≠ .folder

theorem countP_or {α : Type} {p q : α → Prop} [DecidablePred p] [DecidablePred q] {xs : List α}
    (hnot : ∀ x ∈ xs, p x → ¬ q x) :
    xs.countP (fun x => p x ∨ q x) = xs.countP (fun x => p x) + xs.countP (fun x => q x) := by
  induction xs with
  | nil => rfl
  | cons x xs ih =>
    rw [List.countP_cons, List.countP_cons, List.countP_cons,
      ih fun y hy => hnot y (List.mem_cons_of_mem x hy)]
    have hx := hnot x List.mem_cons_self
    by_cases hp : p x
    · simp only [hp, hx hp, or_false, decide_true, if_true, decide_false, Bool.false_eq_true, if_false]
      omega
    · simp only [hp, false_or, decide_false, Bool.false_eq_true, if_false]
      omega

variable {t : FileTree} {l : Location}

/-- Files below names in a folder are counted name by name. -/
theorem sum_filesBelow {ns : List String} (hns : ns.Nodup) :
    (ns.map fun n => t.filesBelow (l ++ [n])).sum =
      t.entries.countP fun x => (∃ n ∈ ns, l ++ [n] <+: x.1) ∧ x.2 ≠ .folder := by
  induction ns with
  | nil => simp
  | cons n ns ih =>
    obtain ⟨hn, hns⟩ := List.nodup_cons.1 hns
    have happart : ∀ x ∈ t.entries, (l ++ [n] <+: x.1 ∧ x.2 ≠ .folder) →
        ¬ ((∃ m ∈ ns, l ++ [m] <+: x.1) ∧ x.2 ≠ .folder) := by
      rintro x - ⟨hpre, -⟩ ⟨⟨m, hm, hpre'⟩, -⟩
      have heq := List.prefix_of_prefix_length_le hpre hpre' (by simp)
      have hsame := heq.eq_of_length (by simp)
      obtain rfl : n = m := by simpa using hsame
      exact hn hm
    rw [List.map_cons, List.sum_cons, ih hns, filesBelow, ← countP_or happart]
    refine List.countP_congr fun x _ => ?_
    simp only [decide_eq_true_eq, List.exists_mem_cons_iff]
    tauto

namespace WellFormed

variable (h : t.WellFormed)
include h

/-- The files below a folder are below what it lists. -/
theorem filesBelow_folder (hfolder : t.get? l = some .folder) :
    t.filesBelow l = ((t.children l).map fun x => t.filesBelow (l ++ [x.1])).sum := by
  have hnodup : ((t.children l).map (·.1)).Nodup :=
    List.pairwise_map.2 ((h.pairwise_children l).imp fun hlt => ne_of_lt hlt)
  have hsum := sum_filesBelow (t := t) (l := l) hnodup
  rw [List.map_map] at hsum
  refine Eq.trans ?_ hsum.symm
  refine List.countP_congr fun x hx => ?_
  simp only [decide_eq_true_eq]
  have hget := h.get?_of_mem (l := x.1) (e := x.2) hx
  refine and_congr_left fun hfile => ⟨?_, ?_⟩
  · rintro ⟨rest, hrest⟩
    cases rest with
    | nil =>
      rw [List.append_nil] at hrest
      rw [← hrest, hfolder] at hget
      exact absurd (Option.some.inj hget).symm hfile
    | cons n rest =>
      rw [List.append_cons] at hrest
      obtain ⟨e, he⟩ : ∃ e, t.get? (l ++ [n]) = some e := by
        by_cases hnil : rest = []
        · exact ⟨x.2, by rw [← hget, ← hrest, hnil, List.append_nil]⟩
        · exact ⟨.folder, h.above hnil (hrest ▸ hget)⟩
      exact ⟨n, List.mem_map.2 ⟨(n, e), h.mem_children_iff.2 he, rfl⟩, rest, hrest⟩
  · rintro ⟨n, -, hpre⟩
    exact (List.prefix_append l [n]).trans hpre

/-- A file counts for one. -/
theorem filesBelow_file {content : Content} (hfile : t.get? l = some (.file content))
    (hne : l ≠ []) : t.filesBelow l = 1 := by
  have hmem := mem_of_get? hne hfile
  have hnodup : t.entries.Nodup := List.Nodup.of_map _ h.nodup
  rw [← List.count_eq_one_of_mem hnodup hmem, List.count]
  refine List.countP_congr fun x hx => ?_
  simp only [decide_eq_true_eq, beq_iff_eq]
  have hget := h.get?_of_mem (l := x.1) (e := x.2) hx
  constructor
  · rintro ⟨⟨rest, hrest⟩, -⟩
    by_cases hnil : rest = []
    · rw [hnil, List.append_nil] at hrest
      rw [← hrest, hfile] at hget
      exact Prod.ext hrest.symm (Option.some.inj hget).symm
    · cases hfile.symm.trans (h.above hnil (hrest ▸ hget))
  · rintro rfl
    exact ⟨List.prefix_refl l, by simp⟩

end WellFormed

/-- Without links, no path leads to one. -/
theorem HasNoLink.isLink_eq_false (h : t.HasNoLink []) (p : Path) : t.isLink p = false := by
  unfold isLink
  dsimp only
  split
  · rename_i name folder _ _
    cases hget : t.get? (folder ++ [name]) with
    | none => simp
    | some e =>
      cases e with
      | folder => simp
      | file content => simp
      | link link => exact absurd hget (h _ link)
  · rfl

/-! ### Copying a file under a name -/

/-- A file that is copied under a free name is copied there. -/
theorem Enters.copyFile_join {p source : Path} {n : String} {place : Location} {content : Content}
    (h : t.Enters p l) (hn : IsFileName n) (hfits : (p.join ⟨n⟩).Fits)
    (hvacant : t.get? (l ++ [n]) = none) (hsource : t.locate source = .ok place)
    (hfile : t.get? place = some (.file content)) :
    t.copyFile source (p.join ⟨n⟩) =
      .ok ((t.set (l ++ [n]) (.file (.text ""))).set (l ++ [n]) (.file content)) := by
  have hput : t.Puts (l ++ [n]) (t.set (l ++ [n]) (.file (.text ""))) :=
    .file _ h.folder hn (.inl hvacant)
  have hplace : place ≠ l ++ [n] := by
    rintro rfl
    cases hvacant.symm.trans hfile
  have hemptied : ∀ l', (t.set (l ++ [n]) (.file (.text ""))).get? l' =
      if l' = l ++ [n] then some (.file (.text "")) else t.get? l' := fun l' => get?_set t (by simp) _ l'
  refine copyFile_eq_ok_iff.2 ⟨place, content, t.set (l ++ [n]) (.file (.text "")), content,
    hsource, hfile, ?_, ?_, ?_⟩
  · rw [h.write_join hn (by simp [hvacant]), if_pos hfits, if_neg (by simp [hvacant])]
  · rw [hemptied, if_neg hplace, hfile]
  · rw [(h.mono hput.grows).write_join hn (by simp [hemptied]), if_pos hfits,
      if_neg (by simp [hemptied])]

end FileTree

namespace FolderCopy

open FileTree (Enters LeadsAlong pathLimit)

/-! ### What a copy makes -/

theorem exists_of_rel {α β : Type} {r : α → β → Prop} {a : α} {o : Option β}
    (h : Option.Rel r (some a) o) : ∃ b, o = some b ∧ r a b := by
  cases h with
  | some hr => exact ⟨_, rfl, hr⟩

theorem eq_none_of_rel {α β : Type} {r : α → β → Prop} {o : Option β}
    (h : Option.Rel r none o) : o = none := by
  cases h
  rfl

/-- What an entry of a folder is in its copy.  A stylesheet is what the preprocessor gives for it, if
there is a preprocessor. -/
inductive CopiedAs (c : FolderCopy) (relative : List String) : Entry → Entry → Prop
  | folder : c.CopiedAs relative .folder .folder
  | verbatim (content : Content)
      (hnot : c.style.isSome = true → (c.sourceOf (ofNames relative).text).extension? ≠ some "css") :
      c.CopiedAs relative (.file content) (.file content)
  | styled {style : StylePreprocessor} {css text : String} {s s' : Session}
      (hsome : c.style = some style)
      (hcss : (c.sourceOf (ofNames relative).text).extension? = some "css")
      (hgives : (style css (c.sourceOf (ofNames relative).text)).Gives s text s') :
      c.CopiedAs relative (.file (.text css)) (.file (.text text))

namespace CopiedAs

variable {c : FolderCopy} {relative : List String} {e e' : Entry}

/-- All but stylesheets are copied as they are. -/
theorem eq_of_not_css (h : c.CopiedAs relative e e')
    (hnot : (c.sourceOf (ofNames relative).text).extension? ≠ some "css") : e' = e := by
  cases h with
  | folder => rfl
  | verbatim => rfl
  | styled _ hcss => exact absurd hcss hnot

/-- The references of a stylesheet are rebased in its copy. -/
theorem rebased {folder css : String} (h : c.CopiedAs relative (.file (.text css)) e)
    (hstyle : c.style = some (Style.rebasing folder))
    (hcss : (c.sourceOf (ofNames relative).text).extension? = some "css") :
    e = .file (.text (Style.rebase folder css)) := by
  cases h with
  | verbatim _ hnot => exact absurd hcss (hnot (by rw [hstyle]; rfl))
  | styled hsome _ hgives =>
    obtain rfl := Option.some.inj (hstyle.symm.trans hsome)
    rw [(Step.gives_pure.1 hgives).1]

end CopiedAs

/-- The preprocessor, if there is one, gives a text for each stylesheet.  It leaves the files alone. -/
def StylesAll (c : FolderCopy) : Prop :=
  ∀ style, c.style = some style → ∀ css p, p.extension? = some "css" → ∀ s, ∃ text s',
    (style css p).Gives s text s' ∧ s'.files = s.files

/-- What is copied can be read, and written where it belongs: there are no links, no path is too
long, and a stylesheet that is preprocessed is a text. -/
structure Copyable (c : FolderCopy) (t : FileTree) (source : Location) : Prop where
  noLink : t.HasNoLink []
  sourceFits : ∀ ys e, t.get? (source ++ ys) = some e → (c.sourceOf (ofNames ys).text).Fits
  targetFits : ∀ ys e, t.get? (source ++ ys) = some e → (c.targetOf (ofNames ys).text).Fits
  styles : c.style.isSome = true → ∀ ys content, t.get? (source ++ ys) = some (.file content) →
    (c.sourceOf (ofNames ys).text).extension? = some "css" → ∃ text, content = .text text

/-- Below a target, what was copied is at some names, and nothing else has changed. -/
structure Reproduces (c : FolderCopy) (t : FileTree) (source target : Location)
    (at? : List String → Prop) (s s' : Session) : Prop where
  changes : s.files.Changes s'.files
  inside : ∀ ys, at? ys →
    Option.Rel (c.CopiedAs ys) (t.get? (source ++ ys)) (s'.files.get? (target ++ ys))
  outside : ∀ l, (∀ ys, at? ys → l ≠ target ++ ys) → s'.files.get? l = s.files.get? l

namespace Reproduces

variable {c : FolderCopy} {t : FileTree} {source target : Location}
  {P Q : List String → Prop} {s s' s'' : Session}

theorem refl (s : Session) : c.Reproduces t source target (fun _ => False) s s :=
  ⟨.refl, fun _ h => h.elim, fun _ _ => rfl⟩

/-- Below the target, nothing changes at other names. -/
theorem get?_of_not (h : c.Reproduces t source target P s s') {ys : List String} (hys : ¬ P ys) :
    s'.files.get? (target ++ ys) = s.files.get? (target ++ ys) :=
  h.outside _ fun zs hzs heq => hys (by rwa [List.append_cancel_left heq])

/-- What is made one after the other is made in the end. -/
theorem trans (h : c.Reproduces t source target P s s') (h' : c.Reproduces t source target Q s' s'') :
    c.Reproduces t source target (fun ys => P ys ∨ Q ys) s s'' where
  changes := h.changes.trans h'.changes
  inside ys hys := by
    by_cases hQ : Q ys
    · exact h'.inside ys hQ
    · rw [h'.get?_of_not hQ]
      exact h.inside ys (hys.resolve_right hQ)
  outside l hl := by
    rw [h'.outside l fun ys hys => hl ys (.inr hys), h.outside l fun ys hys => hl ys (.inl hys)]

/-- Where there is nothing to copy, and nothing was, the copy is complete. -/
theorem extend (h : c.Reproduces t source target P s s') (hPQ : ∀ ys, P ys → Q ys)
    (hQ : ∀ ys, Q ys → ¬ P ys →
      t.get? (source ++ ys) = none ∧ s.files.get? (target ++ ys) = none) :
    c.Reproduces t source target Q s s' where
  changes := h.changes
  inside ys hys := by
    by_cases hP : P ys
    · exact h.inside ys hP
    · obtain ⟨hnone, hfree⟩ := hQ ys hys hP
      rw [h.get?_of_not hP, hfree, hnone]
      exact .none
  outside l hl := h.outside l fun ys hys => hl ys (hPQ ys hys)

end Reproduces

/-! ### Copying below a folder -/

/-- In the course of copying, the folder that is copied is as it was, and the folder of some
names in the target is there. -/
structure Ready (c : FolderCopy) (t : FileTree) (source target : Location) (xs : List String)
    (s : Session) : Prop where
  wellFormed : s.files.WellFormed
  enters : s.files.Enters c.source source
  same : ∀ ys, s.files.get? (source ++ ys) = t.get? (source ++ ys)
  apart : ∀ ys zs, source ++ ys ≠ target ++ zs
  opened : s.files.Enters (c.targetOf (ofNames xs).text) (target ++ xs)

section Ready

variable {c : FolderCopy} {t : FileTree} {source target : Location}
  {P : List String → Prop} {xs : List String} {n : String} {s s' : Session}

theorem Ready.reproduces (h : c.Ready t source target xs s)
    (hmade : c.Reproduces t source target P s s') : c.Ready t source target xs s' where
  wellFormed := hmade.changes.wellFormed h.wellFormed
  enters := h.enters.mono hmade.changes.grows
  same ys := by rw [hmade.outside _ fun zs _ => h.apart ys zs, h.same]
  apart := h.apart
  opened := h.opened.mono hmade.changes.grows

/-- The path of an entry of the folder leads to it. -/
theorem Ready.locate (h : c.Ready t source target xs s) (hwf : t.WellFormed)
    (hcopyable : c.Copyable t source) {ys : List String} {e : Entry}
    (hget : t.get? (source ++ ys) = some e) :
    s.files.locate (c.sourceOf (ofNames ys).text) = .ok (source ++ ys) := by
  induction ys using List.reverseRecOn generalizing e with
  | nil =>
    rw [List.append_nil]
    exact h.enters.leads
  | append_singleton ys n ih =>
    have hnames := hwf.names hget
    have hys : ∀ y ∈ ys, IsName y := fun y hy => (hnames y (by simp [hy])).1
    have hn := hnames n (by simp)
    have hfits := hcopyable.sourceFits _ e hget
    rw [← List.append_assoc] at hget ⊢
    have hfolder := (hwf.entry hget).2.2
    rw [← below_ofNames hys, sourceOf_below hys hn.1] at hfits ⊢
    have henters : s.files.Enters (c.sourceOf (ofNames ys).text) (source ++ ys) :=
      ⟨ih hfolder, (h.same ys).trans hfolder⟩
    refine henters.locate_join hn hfits ?_
    rw [FileTree.Holds, List.append_assoc, h.same, ← List.append_assoc, hget]
    cases e with
    | folder => exact .inl rfl
    | file content => exact .inr ⟨content, rfl⟩
    | link link => exact absurd hget (hcopyable.noLink _ link)

/-- What is listed below the folder is what it held. -/
theorem Ready.list (h : c.Ready t source target xs s) (hwf : t.WellFormed)
    (hcopyable : c.Copyable t source) {ys : List String}
    (hget : t.get? (source ++ ys) = some .folder) :
    s.files.list (c.sourceOf (ofNames ys).text) = .ok (t.children (source ++ ys)) := by
  rw [FileTree.list, h.locate hwf hcopyable hget]
  simp only [bind, Except.bind]
  rw [h.same, hget, hwf.children_congr h.wellFormed fun n => by rw [List.append_assoc, h.same]]

/-- One place in the target gets what its place in the folder has. -/
theorem reproduces_at {ys : List String} {e e' : Entry} (hchanges : s.files.Changes s'.files)
    (hget : ∀ l, s'.files.get? l = if l = target ++ ys then some e' else s.files.get? l)
    (hheld : t.get? (source ++ ys) = some e) (hcopied : c.CopiedAs ys e e') :
    c.Reproduces t source target (· = ys) s s' where
  changes := hchanges
  inside zs hzs := by
    rw [hget, hzs, if_pos rfl, hheld]
    exact .some hcopied
  outside l hl := by rw [hget, if_neg (hl ys rfl)]

/-- A file of the folder is to be copied to a place of the target that is free. -/
structure Due (c : FolderCopy) (t : FileTree) (source target : Location) (xs : List String)
    (n : String) (content : Content) (s : Session) : Prop where
  name : IsFileName n
  held : t.get? (source ++ (xs ++ [n])) = some (.file content)
  found : s.files.get? (source ++ (xs ++ [n])) = some (.file content)
  leads : s.files.locate (c.sourceOf (ofNames (xs ++ [n])).text) = .ok (source ++ (xs ++ [n]))
  path : c.targetOf (ofNames (xs ++ [n])).text = (c.targetOf (ofNames xs).text).join ⟨n⟩
  fits : ((c.targetOf (ofNames xs).text).join ⟨n⟩).Fits
  opened : s.files.Enters (c.targetOf (ofNames xs).text) (target ++ xs)
  free : s.files.get? (target ++ xs ++ [n]) = none

namespace Due

variable {content : Content} (h : c.Due t source target xs n content s)
include h

theorem puts (content' : Content) : s.files.Puts (target ++ xs ++ [n])
    (s.files.set (target ++ xs ++ [n]) (.file content')) :=
  .file content' h.opened.folder h.name (.inl h.free)

theorem gives_verbatim (hnot : c.style.isSome = true →
      (c.sourceOf (ofNames (xs ++ [n])).text).extension? ≠ some "css") :
    ∃ s', (copyFile.verbatim (c.sourceOf (ofNames (xs ++ [n])).text)
      (c.targetOf (ofNames (xs ++ [n])).text)).Gives s () s' ∧
        c.Reproduces t source target (· = xs ++ [n]) s s' := by
  have hcopy := h.opened.copyFile_join h.name h.fits h.free h.leads h.found
  rw [← h.path] at hcopy
  have hemptied : (s.files.set (target ++ xs ++ [n]) (.file (.text ""))).get? (target ++ xs ++ [n]) =
      some (.file (.text "")) := by rw [FileTree.get?_set _ (by simp), if_pos rfl]
  refine ⟨_, Step.gives_during.2 (Step.gives_deliver.2 ⟨_, hcopy, rfl⟩),
    reproduces_at ?_ (fun l => ?_) h.held (.verbatim content hnot)⟩
  · exact .tail (.single ⟨_, h.puts _⟩) ⟨target ++ xs ++ [n], .file content
      ((h.puts _).grows.folder h.opened.folder) h.name (.inr ⟨.text "", hemptied⟩)⟩
  · dsimp only
    rw [FileTree.get?_set _ (by simp), FileTree.get?_set _ (by simp), List.append_assoc]
    split <;> rfl

theorem write_eq (content' : Content) :
    s.files.write (c.targetOf (ofNames (xs ++ [n])).text) content' =
      .ok (s.files.set (target ++ xs ++ [n]) (.file content')) := by
  have hnot : ∀ e, s.files.get? (target ++ xs ++ [n]) ≠ some e := fun e he => by
    cases h.free.symm.trans he
  rw [h.path, h.opened.write_join h.name fun _ => hnot _, if_pos h.fits, if_neg (hnot _)]

/-- **A file is copied to the place of its names.** -/
theorem gives_copyFile (hcopyable : c.Copyable t source) (hstyle : c.StylesAll) :
    ∃ s', (c.copyFile (ofNames (xs ++ [n])).text).Gives s () s' ∧
      c.Reproduces t source target (· = xs ++ [n]) s s' := by
  unfold copyFile
  dsimp only
  split
  · rename_i style hsome
    split
    · rename_i hcss
      obtain ⟨css, rfl⟩ := hcopyable.styles (by rw [hsome]; rfl) _ _ h.held hcss
      obtain ⟨text, u, hgives, hfiles⟩ := hstyle style hsome css _ hcss s
      have hwrite := h.write_eq (.text text)
      conv_lhs at hwrite => rw [← hfiles]
      refine ⟨_, Step.gives_bind.2 ⟨css, s, Step.gives_during.2 (Step.gives_read.2 ⟨?_, rfl⟩),
        Step.gives_bind.2 ⟨text, u, hgives, Step.gives_during.2 (Step.gives_write.2 ⟨_, hwrite, rfl⟩)⟩⟩,
        reproduces_at ?_ (fun l => ?_) h.held (.styled hsome hcss hgives)⟩
      · exact FileTree.readText_eq_ok.2 ⟨_, h.leads, h.found⟩
      · exact .single ⟨_, h.puts _⟩
      · dsimp only
        rw [FileTree.get?_set _ (by simp), List.append_assoc]
    · rename_i hcss
      exact h.gives_verbatim fun _ => hcss
  · rename_i hnone
    exact h.gives_verbatim fun hsome => by
      rw [hnone] at hsome
      cases hsome

end Due

theorem Ready.due (h : c.Ready t source target xs s) (hwf : t.WellFormed)
    (hcopyable : c.Copyable t source) {content : Content}
    (hget : t.get? (source ++ (xs ++ [n])) = some (.file content))
    (hfree : s.files.get? (target ++ (xs ++ [n])) = none) :
    c.Due t source target xs n content s := by
  have hnames := hwf.names hget
  have hxs : ∀ x ∈ xs, IsName x := fun x hx => (hnames x (by simp [hx])).1
  have hn := hnames n (by simp)
  have hpath : c.targetOf (ofNames (xs ++ [n])).text = (c.targetOf (ofNames xs).text).join ⟨n⟩ := by
    rw [← below_ofNames hxs, targetOf_below hxs hn.1]
  exact ⟨hn, hget, (h.same _).trans hget, h.locate hwf hcopyable hget, hpath,
    hpath ▸ hcopyable.targetFits _ _ hget, h.opened, by rwa [List.append_assoc]⟩

/-- What stands under a name of a folder is copied by a step, and counts for its files. -/
def CopiesEntry (c : FolderCopy) (t : FileTree)
    (source target : Location) (xs : List String) (g : Nat → String × Entry → Step Nat)
    (x : String × Entry) : Prop :=
  ∀ s count, c.Ready t source target xs s →
    (∀ ys, xs ++ [x.1] <+: ys → s.files.get? (target ++ ys) = none) →
      ∃ s', (g count x).Gives s (count + t.filesBelow (source ++ xs ++ [x.1])) s' ∧
        c.Reproduces t source target (xs ++ [x.1] <+: ·) s s'

/-- **Entries of a folder are copied one after the other.** -/
theorem reproduces_foldlM {g : Nat → String × Entry → Step Nat} {es : List (String × Entry)}
    (hentries : ∀ x ∈ es, c.CopiesEntry t source target xs g x) (hnodup : (es.map (·.1)).Nodup)
    (h : c.Ready t source target xs s)
    (hfree : ∀ x ∈ es, ∀ ys, xs ++ [x.1] <+: ys → s.files.get? (target ++ ys) = none) (count : Nat) :
    ∃ s', (es.foldlM g count).Gives s
        (count + (es.map fun x => t.filesBelow (source ++ xs ++ [x.1])).sum) s' ∧
      c.Reproduces t source target (fun ys => ∃ x ∈ es, xs ++ [x.1] <+: ys) s s' := by
  induction es generalizing s count with
  | nil => exact ⟨s, Step.gives_pure.2 ⟨rfl, rfl⟩, (Reproduces.refl s).extend (fun _ h => h.elim)
      fun _ ⟨_, hx, _⟩ => absurd hx List.not_mem_nil⟩
  | cons x es ih =>
    obtain ⟨hx, hnodup⟩ := List.nodup_cons.1 hnodup
    obtain ⟨s₁, hgives, hmade⟩ := hentries x List.mem_cons_self s count h
      (hfree x List.mem_cons_self)
    -- the other entries have other names, and their places are still free
    have hrest : ∀ y ∈ es, ∀ ys, xs ++ [y.1] <+: ys → s₁.files.get? (target ++ ys) = none := by
      intro y hy ys hys
      rw [hmade.get?_of_not fun hxs => hx ?_]
      · exact hfree y (List.mem_cons_of_mem x hy) ys hys
      · have hsame := (List.prefix_of_prefix_length_le hxs hys (by simp)).eq_of_length (by simp)
        have hname : x.1 = y.1 := by simpa using hsame
        exact List.mem_map.2 ⟨y, hy, hname.symm⟩
    obtain ⟨s', hgives', hmade'⟩ := ih (fun y hy => hentries y (List.mem_cons_of_mem x hy)) hnodup
      (h.reproduces hmade) hrest (count + t.filesBelow (source ++ xs ++ [x.1]))
    refine ⟨s', ?_, (hmade.trans hmade').extend (fun ys hys => ?_) fun ys hys hnot => ?_⟩
    · rw [List.foldlM_cons, List.map_cons, List.sum_cons, ← Nat.add_assoc]
      exact Step.gives_bind.2 ⟨_, s₁, hgives, hgives'⟩
    · simpa only [List.exists_mem_cons_iff] using hys
    · exact absurd (by simpa only [List.exists_mem_cons_iff] using hys) hnot

/-- Only what a folder lists stands below it. -/
theorem get?_eq_none_of_not_listed (hwf : t.WellFormed) {l : Location} {ns : List String}
    (hne : ns ≠ []) (hnot : ∀ x ∈ t.children l, ¬ [x.1] <+: ns) : t.get? (l ++ ns) = none := by
  refine Option.eq_none_iff_forall_ne_some.2 fun e he => ?_
  obtain ⟨m, ns, rfl⟩ := List.exists_cons_of_ne_nil hne
  obtain ⟨e', he'⟩ : ∃ e', t.get? (l ++ [m]) = some e' := by
    by_cases hnil : ns = []
    · exact ⟨e, by rwa [hnil] at he⟩
    · rw [List.append_cons] at he
      exact ⟨.folder, hwf.above hnil he⟩
  exact hnot (m, e') (hwf.mem_children_iff.2 he') ⟨ns, rfl⟩

/-- What is in the folder of some names is copied to a depth. -/
def CopiesEntries (c : FolderCopy) (t : FileTree)
    (source target : Location) (xs : List String) (depth : Nat) : Prop :=
  ∀ s, c.Ready t source target xs s →
    (∀ ys, xs <+: ys → ys ≠ xs → s.files.get? (target ++ ys) = none) →
      ∃ s', ((t.children (source ++ xs)).foldlM
          (c.copyEntry (c.copyBelow depth) (ofNames xs).text) 0).Gives s
            (t.filesBelow (source ++ xs)) s' ∧
        c.Reproduces t source target (fun ys => xs <+: ys ∧ ys ≠ xs) s s'

/-- To copy below a folder is to make the folder, and to copy what was listed before. -/
theorem gives_copyBelow_iff {depth count : Nat} {relative : String} {es : List (String × Entry)}
    (hlist : s.files.list (c.sourceOf relative) = .ok es) :
    (c.copyBelow (depth + 1) relative).Gives s count s' ↔
      (s.files.createFolders (c.targetOf relative)).2 = none ∧
        (es.foldlM (c.copyEntry (c.copyBelow depth) relative) 0).Gives
          { s with files := (s.files.createFolders (c.targetOf relative)).1 } count s' := by
  rw [copyBelow]
  simp only [Step.gives_bind, Step.gives_files, and_assoc, exists_and_left, exists_eq_left, hlist,
    Copy.createFolder, Step.gives_during, Step.gives_createFolders, exists_const]
  rfl

/-- **A folder is made in the folder that it belongs to, and its entries are copied.** -/
theorem Ready.gives_copyBelow (h : c.Ready t source target xs s) (hwf : t.WellFormed)
    (hcopyable : c.Copyable t source) {depth : Nat}
    (hdeeper : c.CopiesEntries t source target (xs ++ [n]) depth)
    (hget : t.get? (source ++ (xs ++ [n])) = some .folder)
    (hfree : ∀ ys, xs ++ [n] <+: ys → s.files.get? (target ++ ys) = none) :
    ∃ s', (c.copyBelow (depth + 1) (ofNames (xs ++ [n])).text).Gives s
        (t.filesBelow (source ++ (xs ++ [n]))) s' ∧
      c.Reproduces t source target (xs ++ [n] <+: ·) s s' := by
  have hnames := hwf.names hget
  have hxs : ∀ x ∈ xs, IsName x := fun x hx => (hnames x (by simp [hx])).1
  have hn := hnames n (by simp)
  have hpath : c.targetOf (ofNames (xs ++ [n])).text = (c.targetOf (ofNames xs).text).join ⟨n⟩ := by
    rw [← below_ofNames hxs, targetOf_below hxs hn.1]
  have hfits := hcopyable.targetFits _ _ hget
  have hvacant := hfree _ (List.prefix_refl _)
  rw [← List.append_assoc] at hvacant
  have hmade := h.opened.createFolders_join hn (hpath ▸ hfits) hvacant
  rw [← hpath] at hmade
  have hput : s.files.Puts (target ++ xs ++ [n]) (s.files.set (target ++ xs ++ [n]) .folder) :=
    .folder h.opened.folder hn hvacant
  have hset : ∀ l, (s.files.set (target ++ xs ++ [n]) .folder).get? l =
      if l = target ++ (xs ++ [n]) then some .folder else s.files.get? l := fun l => by
    rw [FileTree.get?_set _ (by simp), List.append_assoc]
  have hfolder : c.Reproduces t source target (· = xs ++ [n]) s
      { s with files := s.files.set (target ++ xs ++ [n]) .folder } :=
    reproduces_at (.single ⟨_, hput⟩) hset hget .folder
  have hready := h.reproduces hfolder
  obtain ⟨s', hgives, hbelow⟩ := hdeeper _ ⟨hready.wellFormed, hready.enters, hready.same, hready.apart, by
    rw [hpath, ← List.append_assoc]
    refine hready.opened.join hn (hpath ▸ hfits) ?_
    rw [hset, List.append_assoc, if_pos rfl]⟩ fun ys hys hne => by
      rw [hfolder.get?_of_not hne, hfree ys hys]
  refine ⟨s', ?_, (hfolder.trans hbelow).extend (fun ys hys => ?_) fun ys hys hnot => ?_⟩
  · rw [gives_copyBelow_iff (h.list hwf hcopyable hget), hmade]
    exact ⟨rfl, hgives⟩
  · rcases hys with rfl | hys
    · exact List.prefix_refl _
    · exact hys.1
  · exact absurd (Classical.em (ys = xs ++ [n]) |>.imp_right fun hne => ⟨hys, hne⟩) hnot

/-- A file of a folder is copied, and nothing is below it. -/
theorem copiesEntry_file (hwf : t.WellFormed) (hcopyable : c.Copyable t source)
    (hstyle : c.StylesAll) {content : Content} (deeper : String → Step Nat)
    (hget : t.get? (source ++ (xs ++ [n])) = some (.file content)) :
    c.CopiesEntry t source target xs (c.copyEntry deeper (ofNames xs).text) (n, .file content) := by
  intro s count hready hfree
  have hxs : ∀ x ∈ xs, IsName x := fun x hx => (hwf.names hget x (by simp [hx])).1
  obtain ⟨s', hgives, hmade⟩ := (hready.due hwf hcopyable hget
    (hfree _ (List.prefix_refl _))).gives_copyFile hcopyable hstyle
  unfold copyEntry
  dsimp only
  rw [below_ofNames hxs, List.append_assoc, hwf.filesBelow_file hget (by simp)]
  refine ⟨s', Step.gives_bind.2 ⟨(), s', hgives, Step.gives_pure.2 ⟨rfl, rfl⟩⟩,
    hmade.extend (fun ys hys => hys ▸ List.prefix_refl _) fun ys hys hne => ⟨?_, hfree ys hys⟩⟩
  obtain ⟨ns, rfl⟩ := hys
  refine Option.eq_none_iff_forall_ne_some.2 fun e he => ?_
  rw [← List.append_assoc] at he
  cases hget.symm.trans (hwf.above (fun hnil => hne (by rw [hnil, List.append_nil])) he)

/-- A folder in a folder is copied with what is in it.  Where it is listed, there is depth left. -/
theorem copiesEntry_folder (hwf : t.WellFormed) (hcopyable : c.Copyable t source) {depth : Nat}
    (hdepth : pathLimit < depth + (ofNames xs).text.utf8ByteSize)
    (hget : t.get? (source ++ (xs ++ [n])) = some .folder)
    (hdeeper : ∀ k, depth = k + 1 → pathLimit < k + (ofNames (xs ++ [n])).text.utf8ByteSize →
      c.CopiesEntries t source target (xs ++ [n]) k) :
    c.CopiesEntry t source target xs (c.copyEntry (c.copyBelow depth) (ofNames xs).text)
      (n, .folder) := by
  intro s count hready hfree
  have hnames := hwf.names hget
  have hxs : ∀ x ∈ xs, IsName x := fun x hx => (hnames x (by simp [hx])).1
  have habove : t.get? (source ++ xs) = some .folder := by
    rw [← List.append_assoc] at hget
    exact hwf.above (List.cons_ne_nil _ _) hget
  have hmem : (n, Entry.folder) ∈
      (s.files.list (c.sourceOf (ofNames xs).text)).toOption.getD [] := by
    rw [hready.list hwf hcopyable habove]
    exact hwf.mem_children_iff.2 (by rwa [List.append_assoc])
  have hsize := size_le_of_mem_list hmem
  have hlonger := size_below (ofNames xs).text (n := n) fun hempty =>
    (hnames n (by simp)).1.text_ne_empty (congrArg String.toList hempty)
  rw [below_ofNames hxs] at hlonger
  obtain ⟨k, rfl⟩ : ∃ k, depth = k + 1 := ⟨depth - 1, by omega⟩
  obtain ⟨s', hgives, hmade⟩ := hready.gives_copyBelow hwf hcopyable
    (hdeeper k rfl (by omega)) hget hfree
  unfold copyEntry
  dsimp only
  rw [below_ofNames hxs, List.append_assoc]
  exact ⟨s', Step.gives_bind.2 ⟨_, s', hgives, Step.gives_pure.2 ⟨rfl, rfl⟩⟩, hmade⟩

/-- **What is in a folder is copied**, at whatever depth the names of folders are not too long. -/
theorem copiesEntries (hwf : t.WellFormed) (hcopyable : c.Copyable t source) (hstyle : c.StylesAll)
    {depth : Nat} (hdepth : pathLimit < depth + (ofNames xs).text.utf8ByteSize)
    (hfolder : t.get? (source ++ xs) = some .folder) :
    c.CopiesEntries t source target xs depth := by
  induction depth using Nat.strongRecOn generalizing xs with
  | ind depth ih =>
    intro s h hfree
    have hentries : ∀ x ∈ t.children (source ++ xs), c.CopiesEntry t source target xs
        (c.copyEntry (c.copyBelow depth) (ofNames xs).text) x := by
      rintro ⟨n, e⟩ hx
      have hget := hwf.get?_of_mem_children hx
      rw [List.append_assoc] at hget
      cases e with
      | folder =>
        exact copiesEntry_folder hwf hcopyable hdepth hget fun k hk hlimit =>
          ih k (hk ▸ Nat.lt_succ_self k) hlimit hget
      | file content => exact copiesEntry_file hwf hcopyable hstyle _ hget
      | link link => exact absurd hget (hcopyable.noLink _ link)
    have hnodup : ((t.children (source ++ xs)).map (·.1)).Nodup :=
      List.pairwise_map.2 ((hwf.pairwise_children _).imp fun hlt => ne_of_lt hlt)
    have hlonger : ∀ {m ys}, xs ++ [m] <+: ys → xs <+: ys ∧ ys ≠ xs := by
      rintro m _ ⟨ns, rfl⟩
      rw [List.append_assoc]
      exact ⟨List.prefix_append _ _, fun heq => by simp at heq⟩
    obtain ⟨s', hgives, hmade⟩ := reproduces_foldlM hentries hnodup h
      (fun x _ ys hys => hfree ys (hlonger hys).1 (hlonger hys).2) 0
    rw [Nat.zero_add, ← hwf.filesBelow_folder hfolder] at hgives
    refine ⟨s', hgives, hmade.extend (fun ys ⟨x, _, hys⟩ => hlonger hys) fun ys ⟨hxs, hne⟩ hnot =>
      ⟨?_, hfree ys hxs hne⟩⟩
    obtain ⟨ns, rfl⟩ := hxs
    rw [← List.append_assoc]
    refine get?_eq_none_of_not_listed hwf (fun hnil => hne (by rw [hnil, List.append_nil])) ?_
    intro x hx hns
    exact hnot ⟨x, hx, (List.prefix_append_right_inj xs).2 hns⟩

end Ready

/-! ### Copying a folder -/

/-- The target is new, and not inside the folder that is copied. -/
structure Placed (c : FolderCopy) (t : FileTree) (source base : Location) (names : List String) :
    Prop where
  enters : t.Enters c.source source
  leads : t.LeadsAlong c.target base names
  vacant : t.get? (base ++ names.take 1) = none
  apart : ¬ source <+: base ++ names

section Placed

variable {c : FolderCopy} {t : FileTree} {source base : Location}
  {names : List String} {s : Session}

/-- Nothing stands at the target, and nothing below it. -/
theorem Placed.free (h : c.Placed t source base names) (hwf : t.WellFormed) (ns : List String) :
    t.get? (base ++ names ++ ns) = none := hwf.vacant_of_first h.vacant ns

/-- The folder that is copied lies apart from the target. -/
theorem Placed.ne (h : c.Placed t source base names) (hwf : t.WellFormed) (ys zs : List String) :
    source ++ ys ≠ base ++ names ++ zs := by
  intro heq
  rcases List.prefix_or_prefix_of_prefix (List.prefix_append source ys)
    (heq ▸ List.prefix_append (base ++ names) zs) with hpre | ⟨ns, hns⟩
  · exact h.apart hpre
  · cases (h.free hwf ns).symm.trans (hns ▸ h.enters.folder)

/-- Once the folder of the target is made, its entries can be copied. -/
theorem Placed.ready (h : c.Placed s.files source base names) (hwf : s.files.WellFormed)
    (hfits : (c.target.join ⟨""⟩).Fits) :
    let t := s.files.createFolders (c.target.join ⟨""⟩)
    t.2 = none ∧ (∀ l, t.1.get? l = if l <+: base ++ names then some .folder else s.files.get? l) ∧
      c.Ready s.files source (base ++ names) [] { s with files := t.1 } := by
  intro t
  have hleads := h.leads.slash hfits
  obtain ⟨hmade, hget⟩ := hleads.createFolders hwf h.vacant
  have hchanges := FileTree.changes_createFolders hwf (c.target.join ⟨""⟩)
  refine ⟨hmade, hget, hchanges.wellFormed hwf, h.enters.mono hchanges.grows, fun ys => ?_,
    h.ne hwf, ?_⟩
  · rw [hget, if_neg fun hpre => h.apart ((List.prefix_append source ys).trans hpre)]
  · rw [List.append_nil]
    refine (hleads.mono hchanges.grows).enters (h.leads.ne_nil h.vacant) fun ns hns => ?_
    rw [hget, if_pos ((List.prefix_append_right_inj base).2 hns)]

end Placed

/-- To copy a folder is to make the folder of the target, and to copy what the folder lists. -/
theorem gives_run_iff {c : FolderCopy} {source : Location} {s s' : Session} {count : Nat}
    (hsource : s.files.Enters c.source source) (hlink : s.files.isLink c.source = false) :
    c.run.Gives s count s' ↔ (s.files.createFolders (c.target.join ⟨""⟩)).2 = none ∧
      ((s.files.children source).foldlM (c.copyEntry (c.copyBelow (pathLimit + 1)) "") 0).Gives
        { s with files := (s.files.createFolders (c.target.join ⟨""⟩)).1 } count s' := by
  have hlist : s.files.list (c.sourceOf "") = .ok (s.files.children source) := by
    rw [FileTree.list, show s.files.locate (c.sourceOf "") = .ok source from hsource.leads]
    simp only [bind, Except.bind]
    rw [hsource.folder]
  refine Iff.trans ?_ (gives_copyBelow_iff hlist)
  unfold run
  simp only [Step.gives_bind, Step.gives_files, and_assoc, exists_and_left, exists_eq_left,
    hsource.isFolder, hlink, if_true, Bool.false_eq_true, if_false]
  rfl

section Placed

variable {c : FolderCopy} {source base : Location} {names : List String} {s : Session}

/-- **A copy mirrors its folder.**  The number of files is given, the target has what the folder
has, and elsewhere nothing changes but that the folders above the target are there. -/
theorem mirrors_tree (hstyle : c.StylesAll) (hwf : s.files.WellFormed)
    (hcopyable : c.Copyable s.files source) (hplaced : c.Placed s.files source base names) :
    ∃ s', c.run.Gives s (s.files.filesBelow source) s' ∧ s'.files.Enters c.target (base ++ names) ∧
      (∀ ys, Option.Rel (c.CopiedAs ys) (s.files.get? (source ++ ys))
        (s'.files.get? (base ++ names ++ ys))) ∧
      ∀ l, ¬ base ++ names <+: l → s'.files.get? l =
        if l <+: base ++ names then some .folder else s.files.get? l := by
  have hfolder : s.files.get? (source ++ []) = some .folder := by
    rw [List.append_nil, hplaced.enters.folder]
  obtain ⟨hmade, hget, hready⟩ := hplaced.ready hwf (hcopyable.targetFits [] _ hfolder)
  have hcopies : c.CopiesEntries s.files source (base ++ names) [] (pathLimit + 1) :=
    copiesEntries hwf hcopyable hstyle (by omega) hfolder
  obtain ⟨s', hgives, hentries⟩ := hcopies _ hready fun ns _ hne => by
    rw [hget, if_neg fun hpre => hne (by simpa using hpre.length_le), hplaced.free hwf]
  rw [List.append_nil] at hgives
  have hgrows := trans_of FileTree.Grows (FileTree.changes_createFolders hwf _).grows
    hentries.changes.grows
  have houtside : ∀ l, (∀ ns, ns ≠ [] → l ≠ base ++ names ++ ns) →
      s'.files.get? l = if l <+: base ++ names then some .folder else s.files.get? l :=
    fun l hl => (hentries.outside l fun ns hns => hl ns hns.2).trans (hget l)
  refine ⟨s', (gives_run_iff hplaced.enters (hcopyable.noLink.isLink_eq_false _)).2 ⟨hmade, hgives⟩,
    (hplaced.leads.mono hgrows).enters (hplaced.leads.ne_nil hplaced.vacant) fun ns hns => ?_,
    fun ys => ?_, fun l hl => houtside l fun ns _ heq => hl (heq ▸ List.prefix_append _ ns)⟩
  · exact hentries.changes.grows.folder (by
      rw [hget, if_pos ((List.prefix_append_right_inj base).2 hns)])
  · by_cases hys : ys = []
    · rw [hys, hfolder, List.append_nil, houtside, if_pos (List.prefix_refl _)]
      · exact .some .folder
      · exact fun ns hne heq => hne (List.self_eq_append_right.1 heq)
    · exact hentries.inside ys ⟨List.nil_prefix, hys⟩

end Placed

/-! ### Targets that are not made -/

section Made

variable {c : FolderCopy} {s s' : Session} {count : Nat}

/-- A copy of a folder that ends well has made the folder of its target. -/
theorem made_of_run (h : c.run.Gives s count s') (hfolder : s.files.isFolder c.source = true)
    (hnolink : s.files.HasNoLink []) : (s.files.createFolders (c.target.join ⟨""⟩)).2 = none := by
  obtain ⟨source, hleads, hget⟩ := FileTree.isFolder_iff.1 hfolder
  exact ((gives_run_iff ⟨hleads, hget⟩ (hnolink.isLink_eq_false _)).1 h).1

/-- The path of a target that is made is not too long. -/
theorem fits_of_run (h : c.run.Gives s count s') (hfolder : s.files.isFolder c.source = true)
    (hnolink : s.files.HasNoLink []) : c.target.Fits :=
  Path.fits_of_join rfl (FileTree.fits_of_createFolders (made_of_run h hfolder hnolink))

/-- The names of a target that is made are valid. -/
theorem isFileName_of_run (h : c.run.Gives s count s') (hfolder : s.files.isFolder c.source = true)
    (hnolink : s.files.HasNoLink []) (hwf : s.files.WellFormed) {l : Location}
    (htarget : c.target.segments = .root :: Path.names l) : ∀ n ∈ l, IsFileName n := by
  have hmade := made_of_run h hfolder hnolink
  have htext : c.target.text ≠ "" := by
    intro hempty
    rw [Path.segments_eq, Path.opening, Path.moves, hempty] at htarget
    cases htarget
  have hchanges := FileTree.changes_createFolders hwf (c.target.join ⟨""⟩)
  have hnonempty : (c.target.join ⟨""⟩).text ≠ "" := fun hempty => htext (by
    rw [Path.join_eq rfl, String.append_empty] at hempty
    exact (String.append_eq_empty_iff.1 hempty).1)
  obtain ⟨l', hl', hget⟩ := FileTree.isFolder_iff.1
    (FileTree.isFolder_of_createFolders hwf hnonempty hmade)
  have hsame : l' = l := by
    refine FileTree.WellFormed.eq_of_locate_of_no_link ?_
      (fun ms _ link hlink => hnolink ms link (hchanges.link hlink)) hl'
    rw [Path.segments_join htext rfl, htarget]
    exact List.append_nil _
  rw [hsame] at hget
  exact (hchanges.wellFormed hwf).names hget

end Made

/-- A folder with a stylesheet, a folder with a file, and an empty folder. -/
def styledEntries : List (Location × Entry) := [
  ([], .folder),
  (["main.css"], .file (.text "a { b: url(./assets/x.png) }")),
  (["e"], .folder),
  (["t"], .folder),
  (["t", "dark.scss"], .file (.text "$c: url(./assets/y.png);"))]

def styledFolder : FileTree where
  entries := (["o"], .folder) :: styledEntries.map fun x => ("s" :: x.1, x.2)

/-- It is copied to a folder of a folder that is missing. -/
def styledCopy : FolderCopy := ⟨⟨"/s"⟩, ⟨"/o/../o/p//q/"⟩, some (Style.rebasing "cdn")⟩

theorem styledCopy_stylesAll : styledCopy.StylesAll := by
  rintro style hsome css p - s
  obtain rfl := Option.some.inj hsome
  exact ⟨Style.rebase "cdn" css, s, Step.gives_pure.2 ⟨rfl, rfl⟩, rfl⟩

theorem mem_styledEntries {ys : List String} {e : Entry}
    (hget : styledFolder.get? (["s"] ++ ys) = some e) : (ys, e) ∈ styledEntries := by
  have hmem := FileTree.mem_of_get? (List.cons_ne_nil "s" ys) hget
  simpa [styledFolder] using hmem

set_option maxRecDepth 100000 in
theorem styledCopy_copyable : styledCopy.Copyable styledFolder ["s"] := by
  have hfits : ∀ x ∈ styledEntries, (styledCopy.sourceOf (ofNames x.1).text).Fits ∧
      (styledCopy.targetOf (ofNames x.1).text).Fits := by decide +kernel
  have htexts : ∀ x ∈ styledEntries, x.2 = .folder ∨ ∃ text, x.2 = .file (.text text) := by
    simp [styledEntries]
  refine ⟨fun ns link hlink => ?_, fun ys e hget => (hfits (ys, e) (mem_styledEntries hget)).1,
    fun ys e hget => (hfits (ys, e) (mem_styledEntries hget)).2, fun _ ys content hget _ => ?_⟩
  · have hne : ns ≠ [] := by
      rintro rfl
      cases hlink
    have hmem := FileTree.mem_of_get? hne hlink
    simp [styledFolder, styledEntries] at hmem
  · rcases htexts (ys, _) (mem_styledEntries hget) with hfolder | ⟨text, htext⟩
    · cases hfolder
    · exact ⟨text, Entry.file.inj htext⟩

set_option maxRecDepth 100000 in
theorem styledCopy_placed : styledCopy.Placed styledFolder ["s"] ["o"] ["p", "q"] where
  enters := ⟨by decide +kernel, by decide⟩
  leads := ⟨⟨[.name "o", .parent, .name "o"], by decide +kernel, by decide +kernel⟩, by decide,
    by decide +kernel, by decide +kernel⟩
  vacant := by decide
  apart := by decide

set_option maxRecDepth 100000 in
theorem mirrors_tree_of_styledCopy : styledFolder.WellFormed ∧ ∃ s',
    styledCopy.run.Gives { files := styledFolder } 2 s' ∧
    s'.files.get? ["o", "p", "q", "main.css"] = some (.file (.text "a { b: url(cdn/assets/x.png) }")) ∧
    s'.files.get? ["o", "p", "q", "t", "dark.scss"] =
      some (.file (.text "$c: url(./assets/y.png);")) ∧
    s'.files.get? ["o", "p", "q", "e"] = some .folder ∧
    s'.files.get? ["o", "p", "q", "e", "main.css"] = none ∧ s'.files.get? ["o", "p"] = some .folder := by
  have hwf : styledFolder.WellFormed := by decide +kernel
  obtain ⟨s', hgives, -, hinside, houtside⟩ := mirrors_tree (s := { files := styledFolder })
    styledCopy_stylesAll hwf styledCopy_copyable styledCopy_placed
  have hcount : styledFolder.filesBelow ["s"] = 2 := by decide
  rw [hcount] at hgives
  have hcopied : ∀ ys e, styledFolder.get? (["s"] ++ ys) = some e →
      ∃ e', s'.files.get? (["o"] ++ ["p", "q"] ++ ys) = some e' ∧ styledCopy.CopiedAs ys e e' :=
    fun ys e hget => exists_of_rel (by rw [← hget]; exact hinside ys)
  obtain ⟨sheet, hsheet, hrebased⟩ := hcopied ["main.css"] _ rfl
  obtain ⟨other, hother, hsame⟩ := hcopied ["t", "dark.scss"] _ rfl
  obtain ⟨empty, hempty, hfolder⟩ := hcopied ["e"] _ rfl
  refine ⟨hwf, s', hgives, hsheet.trans ?_, hother.trans ?_, hempty.trans ?_, ?_,
    (houtside ["o", "p"] (by decide)).trans (by decide)⟩
  · rw [hrebased.rebased rfl (by decide +kernel)]
    decide +kernel
  · rw [hsame.eq_of_not_css (by decide +kernel)]
  · rw [hfolder.eq_of_not_css (by decide +kernel)]
  · have hvacant : styledFolder.get? (["s"] ++ ["e", "main.css"]) = none := by decide
    exact eq_none_of_rel (by rw [← hvacant]; exact hinside ["e", "main.css"])

/-- What copying a folder to a target ends with, where there is nothing but some entries. -/
def copyTo (target : String) (entries : List (Location × Entry)) (style : Option StylePreprocessor) :
    Except Failure Nat × Session :=
  (FolderCopy.mk ⟨"/s"⟩ ⟨target⟩ style).run.run.run
    { files := { entries := (["s"], .folder) :: entries } }

/-- The same character, so many times. -/
def repeated (c : Char) (k : Nat) : String := String.ofList (List.replicate k c)

theorem utf8ByteSize_repeated (c : Char) (k : Nat) :
    (repeated c k).utf8ByteSize = k * c.utf8Size := by
  rw [repeated, String.utf8ByteSize_ofList]
  induction k with
  | zero => rw [Nat.zero_mul]; rfl
  | succ k ih => rw [List.replicate_succ, String.utf8Len_cons, ih, Nat.succ_mul]

theorem isName_repeated (k : Nat) : IsName (repeated 'x' (k + 1)) := by
  have hlist : (repeated 'x' (k + 1)).toList = 'x' :: List.replicate k 'x' :=
    String.toList_ofList.trans List.replicate_succ
  refine ⟨?_, fun hslash => ?_⟩
  · rw [repeated, List.replicate_succ]
    exact congrArg Segment.ofPiece? String.toList_ofList
  · rw [show (Segment.name (repeated 'x' (k + 1))).text = repeated 'x' (k + 1) from rfl, hlist,
      ← List.replicate_succ] at hslash
    exact absurd (List.eq_of_mem_replicate hslash) (by decide)

theorem isFolder_copyTo : ({ entries := [(["s"], .folder)] } : FileTree).isFolder ⟨"/s"⟩ = true := by
  decide +kernel

theorem hasNoLink_copyTo : ({ entries := [(["s"], .folder)] } : FileTree).HasNoLink [] := by
  intro ns link hlink
  have hne : ns ≠ [] := by
    rintro rfl
    cases hlink
  have hmem := FileTree.mem_of_get? hne hlink
  simp at hmem

/-- A target under a name that is too long is not made. -/
theorem copyTo_repeated {k : Nat} (hk : FileTree.nameLimit ≤ k) :
    (copyTo ("/" ++ repeated 'x' (k + 1)) [] none).1.toOption = none := by
  refine Option.eq_none_iff_forall_ne_some.2 fun count hcount => ?_
  have hname := isName_repeated k
  have hjoin : (⟨"/" ++ repeated 'x' (k + 1)⟩ : Path) = (⟨"/"⟩ : Path).join ⟨repeated 'x' (k + 1)⟩ := by
    rw [Path.join_eq hname.isAbsolute, show (⟨"/"⟩ : Path).separator = "" by decide +kernel,
      String.append_empty]
  have hvalid := isFileName_of_run (Step.gives_of_run hcount) isFolder_copyTo hasNoLink_copyTo
    (by decide +kernel) (l := [repeated 'x' (k + 1)])
    (by rw [hjoin, Path.segments_join_name _ hname]; rfl) _ (List.mem_singleton_self _)
  have hsize := hvalid.2.1
  rw [utf8ByteSize_repeated, show Char.utf8Size 'x' = 1 by decide] at hsize
  omega

/-- A target whose path is too long is not made. -/
theorem copyTo_slashes {k : Nat} (hk : FileTree.pathLimit ≤ k) :
    (copyTo (repeated '/' k ++ "o") [] none).1.toOption = none := by
  refine Option.eq_none_iff_forall_ne_some.2 fun count hcount => ?_
  have hfits := fits_of_run (Step.gives_of_run hcount) isFolder_copyTo
    hasNoLink_copyTo
  rw [Path.Fits, String.utf8ByteSize_append, utf8ByteSize_repeated,
    show Char.utf8Size '/' = 1 by decide, show "o".utf8ByteSize = 1 by decide] at hfits
  omega

set_option maxRecDepth 100000 in
/-- **Some copies do not mirror their folder.**  A name that is only a dot with `css` behind it has
no extension, and is copied as it is.  Stylesheets that are no text are not preprocessed, and no
folder is made below a file, under a name or a path that is too long, or where a dot ends the path;
the folders on the way to `..` are made as well, and a preprocessor may write elsewhere. -/
theorem mirrors_tree_otherwise :
    let hidden := copyTo "/o" [(["s", ".css"], .file (.text "a { b: url(./assets/x.png) }"))]
      (some (Style.rebasing "cdn"))
    let writing := copyTo "/o" [(["s", "a.css"], .file (.text ""))] (some fun css p => do
      Step.write p ⟨"/x"⟩ css
      return css)
    let climbing := copyTo "/o/d/.." [] none
    (hidden.1.toOption = some 1 ∧
      hidden.2.files.get? ["o", ".css"] = some (.file (.text "a { b: url(./assets/x.png) }")) ∧
      Style.rebase "cdn" "a { b: url(./assets/x.png) }" = "a { b: url(cdn/assets/x.png) }") ∧
    (writing.1.toOption = some 1 ∧ writing.2.files.get? ["x"] = some (.file (.text ""))) ∧
    (climbing.1.toOption = some 0 ∧ climbing.2.files.get? ["o", "d"] = some .folder) ∧
    (copyTo "/o" [(["s", "a.css"], .file (.bytes [255]))] (some (Style.rebasing "cdn"))).1.toOption =
      none ∧
    (copyTo "/f/o" [(["f"], .file (.text ""))] none).1.toOption = none ∧
    (copyTo "/o/." [] none).1.toOption = none ∧
    (copyTo ("/" ++ repeated 'x' 256) [] none).1.toOption = none ∧
    (copyTo (repeated '/' 4095 ++ "o") [] none).1.toOption = none :=
  ⟨by decide +kernel, by decide +kernel, by decide +kernel, by decide +kernel, by decide +kernel,
    by decide +kernel, copyTo_repeated (Nat.le_refl 255), copyTo_slashes (Nat.le_refl 4095)⟩

end FolderCopy
end ElementBuild
