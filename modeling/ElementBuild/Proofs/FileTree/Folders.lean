/-
# What making folders does

A folder is made at an empty place of a folder that exists, and its path leads to it
from then on (`createFolder_eq_ok`).  So making a folder together with those above it
puts folders where they belong (`changes_createFolders`), and leaves a folder where the
path leads (`isFolder_of_createFolders`).
-/
import ElementBuild.Proofs.FileTree.Writing

namespace ElementBuild
namespace FileTree

theorem isFolder_iff {t : FileTree} {p : Path} :
    t.isFolder p = true ↔ ∃ l, t.locate p = .ok l ∧ t.get? l = some .folder := by
  unfold isFolder
  constructor
  · intro h
    split at h
    · rename_i hentry
      exact entryAt?_eq_some.1 hentry
    · cases h
  · rintro ⟨l, hl, hget⟩
    rw [entryAt?_eq_some.2 ⟨l, hl, hget⟩]

theorem Grows.isFolder {t t' : FileTree} (h : t.Grows t') {p : Path}
    (hp : t.isFolder p = true) : t'.isFolder p = true := by
  obtain ⟨l, hl, hget⟩ := isFolder_iff.1 hp
  exact isFolder_iff.2 ⟨l, h.locate hl, h.folder hget⟩

/-! ### Slashes at the end of a path -/

theorem exists_endSlashes (p : Path) : ∃ k,
    p.text.toList = (withoutEndSlashes p).text.toList ++ List.replicate k '/' ∧
      (withoutEndSlashes p).text.toList.getLast? ≠ some '/' := by
  have hspan := List.takeWhile_append_dropWhile (p := (· == '/')) (l := p.text.toList.reverse)
  refine ⟨(p.text.toList.reverse.takeWhile (· == '/')).length, ?_, ?_⟩
  · have hslashes : p.text.toList.reverse.takeWhile (· == '/') =
        List.replicate (p.text.toList.reverse.takeWhile (· == '/')).length '/' :=
      List.eq_replicate_iff.2
        ⟨rfl, fun c hc => beq_iff_eq.1 (List.all_eq_true.1 List.all_takeWhile c hc)⟩
    rw [withoutEndSlashes, String.toList_ofList]
    conv_lhs => rw [← List.reverse_reverse p.text.toList, ← hspan, List.reverse_append]
    rw [hslashes, List.reverse_replicate, List.length_replicate]
  · rw [withoutEndSlashes, String.toList_ofList, List.getLast?_reverse]
    intro hslash
    have := List.head?_dropWhile_not (· == '/') p.text.toList.reverse
    rw [hslash] at this
    exact absurd this (by decide)

theorem filter_pieces_endSlashes (cs : List Char) (k : Nat) :
    (Path.pieces (cs ++ List.replicate k '/')).filter (· ≠ []) =
      (Path.pieces cs).filter (· ≠ []) := by
  induction k generalizing cs with
  | zero => rw [List.replicate_zero, List.append_nil]
  | succ k ih =>
    have hsplit : cs ++ List.replicate (k + 1) '/' = (cs ++ '/' :: []) ++ List.replicate k '/' := by
      rw [List.replicate_succ, List.append_assoc]
      rfl
    rw [hsplit, ih, Path.pieces_append_slash, List.filter_append]
    exact List.append_nil _

/-- Slashes at the end of a path count as a `.` at most. -/
theorem piecesOf_withoutEndSlashes (p : Path) : ∃ us, (us = [] ∨ us = ["."]) ∧
    piecesOf p.text.toList = piecesOf (withoutEndSlashes p).text.toList ++ us := by
  obtain ⟨k, htext, hlast⟩ := exists_endSlashes p
  have hpieces : (Path.pieces p.text.toList).filter (· ≠ []) =
      (Path.pieces (withoutEndSlashes p).text.toList).filter (· ≠ []) := by
    rw [htext, filter_pieces_endSlashes]
  unfold piecesOf
  dsimp only
  rw [if_neg hlast, hpieces]
  split
  · exact ⟨["."], .inr rfl, rfl⟩
  · exact ⟨[], .inl rfl, (List.append_nil _).symm⟩

/-! ### Making folders -/

/-- A folder is made under a name, if the pieces before it lead to a folder where the name is
free. -/
theorem createFolder_of_isEntryName (t : FileTree) {p : Path} {init : List String} {name : String}
    (hpieces : piecesOf (withoutEndSlashes p).text.toList = init ++ [name])
    (hentry : IsEntryName name) :
    t.createFolder p = (t.findPieces p (init ++ ["."])).bind fun
      | .vacant _ _ => .error .notFound
      | .entry folder =>
        if (t.get? (folder ++ [name])).isSome then .error .alreadyExists
        else .ok (t.set (folder ++ [name]) .folder) := by
  rw [createFolder_of_isName t hpieces
    (by simp [isName, hentry.notCurrent, hentry.notParent])]
  refine congrArg (Except.bind _) (funext fun found => ?_)
  cases found with
  | vacant folder name => rfl
  | entry folder => exact if_neg (Nat.not_lt.2 hentry.short)

/-- What it takes to make a folder: the pieces of its path but the last lead to a folder, and the
last one is a name that is free there. -/
theorem exists_of_createFolder {t t' : FileTree} {p : Path} (h : t.createFolder p = .ok t') :
    ∃ init name folder, piecesOf (withoutEndSlashes p).text.toList = init ++ [name] ∧
      IsEntryName name ∧ t.findPieces p (init ++ ["."]) = .ok (.entry folder) ∧
      t.get? (folder ++ [name]) = none ∧ t' = t.set (folder ++ [name]) .folder := by
  rcases List.eq_nil_or_concat' (piecesOf (withoutEndSlashes p).text.toList) with
    hnil | ⟨init, name, hpieces⟩
  · rw [createFolder_of_nil t hnil] at h
    cases h
  by_cases hname : isName name = true
  · rw [createFolder_of_isName t hpieces hname] at h
    rcases hfind : t.findPieces p (init ++ ["."]) with e | ⟨folder⟩ | _
    · rw [hfind] at h
      cases h
    · rw [hfind, Except.bind] at h
      dsimp only at h
      split at h
      · cases h
      · rename_i hshort
        split at h
        · cases h
        · rename_i hvacant
          rw [isName, Bool.and_eq_true, decide_eq_true_eq, decide_eq_true_eq] at hname
          exact ⟨init, name, folder, hpieces, ⟨hname.1, hname.2, Nat.not_lt.1 hshort⟩, hfind,
            Option.not_isSome_iff_eq_none.1 hvacant, (Except.ok.inj h).symm⟩
    · rw [hfind] at h
      cases h
  · rw [createFolder_of_not_isName t hpieces hname] at h
    rcases hfind : t.findPieces p (init ++ [name]) with e | r
    · rw [hfind] at h
      cases h
    · rw [hfind] at h
      cases h

theorem createFolder_eq_ok {t t' : FileTree} (hwf : t.WellFormed) {p : Path}
    (h : t.createFolder p = .ok t') :
    ∃ l, t.Puts l t' ∧ t'.locate p = .ok l ∧ t'.get? l = some .folder := by
  obtain ⟨init, name, folder, hinit, hentry, hfind, hvacant, rfl⟩ := exists_of_createFolder h
  obtain ⟨husable, hwalk⟩ := findPieces_eq_ok.1 hfind
  have hstart : t.get? (if p.isAbsolute then [] else t.current) = some .folder := by
    split
    · rfl
    · exact hwf.current
  obtain ⟨l, heq, hfolder⟩ := hwf.walkLinks_dot _ hstart hwalk
  obtain rfl : folder = l := Found.entry.inj heq
  -- the path itself has a `.` more at most
  obtain ⟨us, hus, hpieces⟩ := piecesOf_withoutEndSlashes p
  rw [hinit] at hpieces
  have hmem : name ∈ piecesOf p.text.toList := by
    rw [hpieces]
    simp
  have hput : t.Puts (folder ++ [name]) (t.set (folder ++ [name]) .folder) :=
    .folder hfolder ((isPiece_of_mem_piecesOf husable.clear hmem).isFileName hentry) hvacant
  have hget : (t.set (folder ++ [name]) .folder).get? (folder ++ [name]) = some .folder := by
    rw [get?_set t (by simp), if_pos rfl]
  refine ⟨_, hput, locate_eq_ok.2 (find_eq_ok.2 ⟨husable, ?_⟩), hget⟩
  rw [hput.grows.current, hpieces, List.append_assoc]
  refine walkLinks_append (hput.grows.folder hfolder) (.inr rfl) (fun k => ?_) _
    (hput.grows.walkLinks _ hwalk)
  have hlast : ∀ follow, (t.set (folder ++ [name]) .folder).walk follow folder
      ([name] ++ us) = .ok (.entry (folder ++ [name])) := by
    intro follow
    rw [List.singleton_append, walk_folder hentry hget]
    rcases hus with rfl | rfl
    · rfl
    · rw [walk_current]
      rfl
  cases k with
  | zero => exact hlast _
  | succ k => exact hlast _

theorem isFolder_of_createFolderIn {t : FileTree} (hwf : t.WellFormed) {p : Path}
    (h : (createFolderIn p t).2 = none) : (createFolderIn p t).1.isFolder p = true := by
  unfold createFolderIn at h ⊢
  cases hmade : t.createFolder p with
  | ok t₁ =>
    obtain ⟨l, -, hl, hget⟩ := createFolder_eq_ok hwf hmade
    exact isFolder_iff.2 ⟨l, hl, hget⟩
  | error e =>
    rw [hmade] at h
    dsimp only at h ⊢
    split at h
    · rwa [if_pos ‹_›]
    · cases h

/-- Making folders only makes folders, whether it fails or not. -/
theorem changes_createFolderIn {t : FileTree} (hwf : t.WellFormed) (p : Path) :
    t.Changes (createFolderIn p t).1 := by
  unfold createFolderIn
  cases hmade : t.createFolder p with
  | ok t₁ =>
    obtain ⟨l, hput, -, -⟩ := createFolder_eq_ok hwf hmade
    exact .single ⟨l, hput⟩
  | error e =>
    dsimp only
    split
    · exact .refl
    · exact .refl

theorem changes_createChain {t : FileTree} (hwf : t.WellFormed) (ps : List Path) :
    t.Changes (t.createChain ps).1 := by
  induction ps with
  | nil => exact .refl
  | cons p outer ih =>
    rw [createChain_cons]
    split
    · exact .refl
    · split
      · rename_i hmade
        obtain ⟨l, hput, -, -⟩ := createFolder_eq_ok hwf hmade
        exact .single ⟨l, hput⟩
      · split
        · rename_i houter
          rw [houter] at ih
          exact ih.trans (changes_createFolderIn (ih.wellFormed hwf) p)
        · rename_i houter
          rw [houter] at ih
          exact ih
      · split
        · exact .refl
        · exact .refl

theorem isFolder_of_createChain {t : FileTree} (hwf : t.WellFormed) {p : Path} {outer : List Path}
    (hne : p.text ≠ "") (h : (t.createChain (p :: outer)).2 = none) :
    (t.createChain (p :: outer)).1.isFolder p = true := by
  rw [createChain_cons] at h ⊢
  rw [if_neg (fun hempty => hne (String.isEmpty_iff.1 hempty))] at h ⊢
  cases hmade : t.createFolder p with
  | ok t₁ =>
    obtain ⟨l, -, hl, hget⟩ := createFolder_eq_ok hwf hmade
    exact isFolder_iff.2 ⟨l, hl, hget⟩
  | error e =>
    rw [hmade] at h
    by_cases hmissing : e = .notFound
    · subst hmissing
      dsimp only at h ⊢
      have hbefore := changes_createChain hwf outer
      rcases houter : t.createChain outer with ⟨t₁, _ | e⟩
      · rw [houter] at h hbefore
        exact isFolder_of_createFolderIn (hbefore.wellFormed hwf) h
      · rw [houter] at h
        cases h
    · have hother : ∀ {x : FileTree × Option FileError}, x = (if t.isFolder p then (t, none)
          else (t, some e)) → x.2 = none → x.1.isFolder p = true := by
        rintro x rfl hnone
        split at hnone
        · rwa [if_pos ‹_›]
        · cases hnone
      cases e <;> first | exact absurd rfl hmissing | exact hother rfl h

theorem head?_ancestors (p : Path) : p.ancestors.head? = some p := by
  unfold Path.ancestors
  cases p.text.length with
  | zero => rfl
  | succ n => rfl

/-- **Making folders leaves a folder where the path leads.** -/
theorem isFolder_of_createFolders {t : FileTree} (hwf : t.WellFormed) {p : Path}
    (hne : p.text ≠ "") (h : (t.createFolders p).2 = none) :
    (t.createFolders p).1.isFolder p = true := by
  obtain ⟨outer, hancestors⟩ := List.head?_eq_some_iff.1 (head?_ancestors p)
  unfold createFolders at h ⊢
  rw [hancestors] at h ⊢
  exact isFolder_of_createChain hwf hne h

/-- **Making folders only makes folders**, and keeps those that were made before it
fails. -/
theorem changes_createFolders {t : FileTree} (hwf : t.WellFormed) (p : Path) :
    t.Changes (t.createFolders p).1 := changes_createChain hwf _

/-! ### Folders that exist -/

/-- A walk that leads somewhere can be stopped on the way, and where it goes on from is
something. -/
theorem walk_prefix {t : FileTree} {follow : Location → List String → Except FileError Found}
    {qs us : List String} {r : Location} (hus : us = [] ∨ us = ["."] ∧ qs ≠ [])
    (hfollow : ∀ l ps, follow l (ps ++ qs) = .ok (.entry r) →
      ∃ r', follow l (ps ++ us) = .ok (.entry r'))
    {ps : List String} {l : Location} (hwalk : t.walk follow l (ps ++ qs) = .ok (.entry r)) :
    ∃ r', t.walk follow l (ps ++ us) = .ok (.entry r') := by
  induction ps generalizing l with
  | nil =>
    rcases hus with rfl | ⟨rfl, -⟩
    · exact ⟨l, rfl⟩
    · exact ⟨l, by rw [List.nil_append, walk_current]; rfl⟩
  | cons p ps ih =>
    rw [List.cons_append] at hwalk ⊢
    rcases walk_piece hwalk with rfl | rfl | hp
    · rw [walk_current] at hwalk ⊢
      exact ih hwalk
    · rw [walk_parent] at hwalk ⊢
      exact ih hwalk
    · cases hget : t.get? (l ++ [p]) with
      | none =>
        rw [walk_vacant hp hget] at hwalk
        split at hwalk <;> cases hwalk
      | some e =>
        cases e with
        | folder =>
          rw [walk_folder hp hget] at hwalk ⊢
          exact ih hwalk
        | file content =>
          rw [walk_file hp hget] at hwalk
          split at hwalk
          · rename_i hempty
            obtain ⟨rfl, hqs⟩ := List.append_eq_nil_iff.1 (List.isEmpty_iff.1 hempty)
            obtain rfl := hus.resolve_right fun h => h.2 hqs
            exact ⟨_, walk_file hp hget⟩
          · cases hwalk
        | link target =>
          rw [walk_link hp hget] at hwalk ⊢
          split at hwalk
          · cases hwalk
          · rw [if_neg ‹_›]
            rw [← List.append_assoc] at hwalk ⊢
            exact hfollow _ _ hwalk

theorem walkLinks_prefix {t : FileTree} {qs us : List String} {r : Location}
    (hus : us = [] ∨ us = ["."] ∧ qs ≠ []) (n : Nat) {ps : List String} {l : Location}
    (hwalk : t.walkLinks n l (ps ++ qs) = .ok (.entry r)) :
    ∃ r', t.walkLinks n l (ps ++ us) = .ok (.entry r') := by
  induction n generalizing l ps with
  | zero => exact walk_prefix hus (fun _ _ hf => by cases hf) hwalk
  | succ n ih => exact walk_prefix hus (fun _ _ hf => ih hf) hwalk

/-- A folder is not made where there is one. -/
theorem createFolder_of_isFolder {t : FileTree} (hwf : t.WellFormed) {p : Path}
    (h : t.isFolder p = true) : ∃ e, t.createFolder p = .error e ∧ e ≠ .notFound := by
  obtain ⟨root, hroot, hget⟩ := isFolder_iff.1 h
  obtain ⟨husable, hwalk⟩ := find_eq_ok.1 (locate_eq_ok.1 hroot)
  cases hmade : t.createFolder p with
  | ok t' =>
    -- the path would lead to an empty place
    obtain ⟨l, hput, hl, hfolder⟩ := createFolder_eq_ok hwf hmade
    obtain rfl := Except.ok.inj ((hput.grows.locate hroot).symm.trans hl)
    cases hput with
    | folder _ _ hvacant => cases hvacant.symm.trans hget
    | file content _ _ _ =>
      rw [get?_set t (by simp), if_pos rfl] at hfolder
      cases hfolder
  | error e =>
    refine ⟨e, rfl, ?_⟩
    rintro rfl
    obtain ⟨us, hus, hpieces⟩ := piecesOf_withoutEndSlashes p
    rw [hpieces] at hwalk
    rcases List.eq_nil_or_concat' (piecesOf (withoutEndSlashes p).text.toList) with
      hnil | ⟨init, name, hinit⟩
    · rw [createFolder_of_nil t hnil,
        if_neg fun hempty => husable.nonempty (String.isEmpty_iff.1 hempty)] at hmade
      cases hmade
    rw [hinit] at hwalk
    by_cases hname : isName name = true
    · rw [List.append_assoc] at hwalk
      obtain ⟨folder, hfolder⟩ := walkLinks_prefix (.inr ⟨rfl, by simp⟩) _ hwalk
      rw [createFolder_of_isName t hinit hname, findPieces_eq_ok.2 ⟨husable, hfolder⟩,
        Except.bind] at hmade
      dsimp only at hmade
      split at hmade
      · cases hmade
      · split at hmade <;> cases hmade
    · obtain ⟨folder, hfolder⟩ := walkLinks_prefix (.inl rfl) _ hwalk
      rw [List.append_nil] at hfolder
      rw [createFolder_of_not_isName t hinit hname, findPieces_eq_ok.2 ⟨husable, hfolder⟩] at hmade
      cases hmade

/-- **Where there is a folder, making it changes nothing.** -/
theorem createFolders_of_isFolder {t : FileTree} (hwf : t.WellFormed) {p : Path}
    (h : t.isFolder p = true) : t.createFolders p = (t, none) := by
  obtain ⟨outer, hancestors⟩ := List.head?_eq_some_iff.1 (head?_ancestors p)
  obtain ⟨root, hroot, -⟩ := isFolder_iff.1 h
  obtain ⟨e, hmade, hfound⟩ := createFolder_of_isFolder hwf h
  rw [createFolders, hancestors, createChain_cons, hmade,
    if_neg fun hempty => (isUsable_of_locate hroot).nonempty (String.isEmpty_iff.1 hempty)]
  cases e <;> first | exact absurd rfl hfound | exact if_pos h

/-! ### Paths that are followed -/

/-- A path that leads somewhere is not too long. -/
theorem fits_of_findPieces {t : FileTree} {p : Path} {pieces : List String} {r : Found}
    (h : t.findPieces p pieces = .ok r) : p.Fits := (findPieces_eq_ok.1 h).1.fits

theorem fits_of_isFolder {t : FileTree} {p : Path} (h : t.isFolder p = true) : p.Fits := by
  obtain ⟨l, hl, -⟩ := isFolder_iff.1 h
  exact fits_of_findPieces (locate_eq_ok.1 hl)

theorem fits_of_createFolder {t t' : FileTree} {p : Path} (h : t.createFolder p = .ok t') :
    p.Fits := by
  obtain ⟨init, name, folder, -, -, hfind, -⟩ := exists_of_createFolder h
  exact fits_of_findPieces hfind

theorem fits_of_createFolderIn {t : FileTree} {p : Path} (h : (createFolderIn p t).2 = none) :
    p.Fits := by
  unfold createFolderIn at h
  split at h
  · exact fits_of_createFolder ‹_›
  · split at h
    · exact fits_of_isFolder ‹_›
    · cases h

/-- **A folder whose path is too long is not made.** -/
theorem fits_of_createFolders {t : FileTree} {p : Path} (h : (t.createFolders p).2 = none) :
    p.Fits := by
  obtain ⟨outer, hancestors⟩ := List.head?_eq_some_iff.1 (head?_ancestors p)
  rw [createFolders, hancestors, createChain_cons] at h
  split at h
  · rename_i hempty
    rw [Path.Fits, String.isEmpty_iff.1 hempty]
    exact Nat.zero_le _
  · split at h
    · exact fits_of_createFolder ‹_›
    · split at h
      · exact fits_of_createFolderIn h
      · cases h
    · split at h
      · exact fits_of_isFolder ‹_›
      · cases h

/-! ### What is made -/

/-- Folders are made in empty places, and nothing else changes. -/
def MakesFolders (t t' : FileTree) : Prop :=
  ∀ l, t'.get? l = t.get? l ∨ t.get? l = none ∧ t'.get? l = some .folder

namespace MakesFolders

variable {t t' t'' : FileTree}

theorem refl (t : FileTree) : t.MakesFolders t := fun _ => .inl rfl

theorem trans (h : t.MakesFolders t') (h' : t'.MakesFolders t'') : t.MakesFolders t'' := by
  intro l
  rcases h' l with heq | ⟨hnone, hmade⟩
  · rw [heq]
    exact h l
  · rcases h l with heq | ⟨-, hmade'⟩
    · exact .inr ⟨heq.symm.trans hnone, hmade⟩
    · cases hmade'.symm.trans hnone

end MakesFolders

theorem makesFolders_createFolder {t t' : FileTree} {p : Path} (h : t.createFolder p = .ok t') :
    t.MakesFolders t' := by
  obtain ⟨init, name, folder, -, -, -, hvacant, rfl⟩ := exists_of_createFolder h
  intro l
  rw [get?_set t (by simp)]
  by_cases hl : l = folder ++ [name]
  · rw [if_pos hl, hl]
    exact .inr ⟨hvacant, rfl⟩
  · rw [if_neg hl]
    exact .inl rfl

theorem makesFolders_createFolderIn (t : FileTree) (p : Path) :
    t.MakesFolders (createFolderIn p t).1 := by
  unfold createFolderIn
  split
  · exact makesFolders_createFolder ‹_›
  · split
    · exact .refl t
    · exact .refl t

/-- **Making folders changes nothing but empty places.** -/
theorem makesFolders_createFolders (t : FileTree) (p : Path) :
    t.MakesFolders (t.createFolders p).1 := by
  unfold createFolders
  generalize p.ancestors = ps
  induction ps with
  | nil => exact .refl t
  | cons p outer ih =>
    rw [createChain_cons]
    split
    · exact .refl t
    · split
      · exact makesFolders_createFolder ‹_›
      · split
        · rename_i houter
          rw [houter] at ih
          exact ih.trans (makesFolders_createFolderIn _ p)
        · rename_i houter
          rw [houter] at ih
          exact ih
      · split
        · exact .refl t
        · exact .refl t

/-- A file is at a place. -/
def HasFile (t : FileTree) (l : Location) : Prop := ∃ content, t.get? l = some (.file content)

/-- The files of a tree in which folders were made were there before. -/
theorem hasFile_of_createFolders {t : FileTree} {p : Path} {l : Location}
    (hl : (t.createFolders p).1.HasFile l) : t.HasFile l := by
  obtain ⟨content, hget⟩ := hl
  rcases makesFolders_createFolders t p l with heq | ⟨-, hmade⟩
  · exact ⟨content, heq.symm.trans hget⟩
  · cases hmade.symm.trans hget

end FileTree
end ElementBuild
