/-
# Names behind the path of a folder

A name behind the path of a folder stands for the entry of that name in the folder, whatever
the path looks like: if a folder is made there, or a file is written there, that place is
changed and no other one (`Enters.createFolders_join`, `Enters.write_join`).
-/
import ElementBuild.Proofs.FileTree.Below
import ElementBuild.Proofs.FileTree.Writing

namespace ElementBuild
namespace FileTree

/-- A path leads to a folder. -/
structure Enters (t : FileTree) (p : Path) (l : Location) : Prop where
  leads : t.locate p = .ok l
  folder : t.get? l = some .folder

namespace Enters

variable {t t' : FileTree} {p : Path} {l : Location} {n : String}

theorem mono (h : t.Enters p l) (hgrows : t.Grows t') : t'.Enters p l :=
  ⟨hgrows.locate h.leads, hgrows.folder h.folder⟩

theorem isFolder (h : t.Enters p l) : t.isFolder p = true := isFolder_iff.2 ⟨l, h.leads, h.folder⟩

section Name

variable (h : t.Enters p l) (hn : IsFileName n)
include h hn

theorem clear_join : '\x00' ∉ (p.join ⟨n⟩).text.toList := by
  have husable := isUsable_of_locate h.leads
  have hclear := husable.clear
  rcases Path.text_join hn.1.isAbsolute with ⟨hempty, -⟩ | ⟨as, bs, htext, -, -, hjoin⟩
  · exact absurd hempty husable.nonempty
  · rw [htext, List.mem_append, not_or] at hclear
    rw [hjoin, List.mem_append, List.mem_cons]
    rintro (hmem | hmem | hmem)
    · exact hclear.1 hmem
    · exact absurd hmem (by decide)
    · exact hn.2.2 hmem

theorem isUsable_join (hfits : (p.join ⟨n⟩).Fits) : (p.join ⟨n⟩).IsUsable :=
  ⟨(hn.1.isOpen.join p).1, h.clear_join hn, hfits⟩

theorem findPieces_join_of_long (hlong : ¬ (p.join ⟨n⟩).Fits) (pieces : List String) :
    t.findPieces (p.join ⟨n⟩) pieces = .error .invalidFilename := by
  rw [findPieces, if_neg fun hempty => (hn.1.isOpen.join p).1 (String.isEmpty_iff.1 hempty),
    if_neg fun hnull => h.clear_join hn (List.contains_iff_mem.1 hnull),
    if_pos (Nat.lt_of_not_le hlong)]

/-- Pieces in the place of the name lead where they lead from the folder. -/
theorem exists_pieces : ∃ ps, piecesOf (p.join ⟨n⟩).text.toList = ps ++ [n] ∧
    ∀ qs r, (p.join ⟨n⟩).Fits → (∀ k, t.walkLinks k l qs = .ok r) →
      t.findPieces (p.join ⟨n⟩) (ps ++ qs) = .ok r := by
  obtain ⟨husable, hwalk⟩ := find_eq_ok.1 (locate_eq_ok.1 h.leads)
  have hopen := hn.1.isOpen
  obtain ⟨ps, us, hus, hps, hjoin⟩ := piecesOf_join husable.nonempty hopen.relative hopen.nonempty
  have hname : piecesOf n.toList = [n] := by
    have hnames := piecesOf_ofNames (List.forall_mem_singleton.2 hn.1) (List.cons_ne_nil n [])
    rwa [Path.ofNames_singleton] at hnames
  refine ⟨ps, hjoin.trans (congrArg _ hname), fun qs r hfits hqs => ?_⟩
  refine findPieces_eq_ok.2 ⟨h.isUsable_join hn hfits, ?_⟩
  rw [Path.isAbsolute_join_of_relative husable.nonempty hopen.relative]
  rw [hps] at hwalk
  exact walkLinks_append h.folder hus hqs _ hwalk

/-- A name leads to where what it names is, and to an empty place if there is nothing. -/
theorem find_join (hfits : (p.join ⟨n⟩).Fits)
    (hlink : ∀ target, t.get? (l ++ [n]) ≠ some (.link target)) :
    t.find (p.join ⟨n⟩) =
      .ok (if (t.get? (l ++ [n])).isSome then .entry (l ++ [n]) else .vacant l n) := by
  obtain ⟨ps, hpieces, hleads⟩ := h.exists_pieces hn
  have hentry := isEntryName_of_isFileName hn
  have hwalk : ∀ follow, t.walk follow l [n] =
      .ok (if (t.get? (l ++ [n])).isSome then .entry (l ++ [n]) else .vacant l n) := by
    intro follow
    cases hget : t.get? (l ++ [n]) with
    | none => exact walk_vacant hentry hget
    | some e =>
      cases e with
      | folder => exact walk_folder hentry hget
      | file content => exact walk_file hentry hget
      | link target => exact absurd hget (hlink target)
  rw [find, hpieces]
  refine hleads [n] _ hfits fun k => ?_
  cases k with
  | zero => exact hwalk _
  | succ k => exact hwalk _

theorem locate_join (hfits : (p.join ⟨n⟩).Fits) (hholds : t.Holds (l ++ [n])) :
    t.locate (p.join ⟨n⟩) = .ok (l ++ [n]) := by
  have hlink : ∀ target, t.get? (l ++ [n]) ≠ some (.link target) := by
    intro target hget
    rcases hholds with hfolder | ⟨content, hfile⟩
    · cases hget.symm.trans hfolder
    · cases hget.symm.trans hfile
  obtain ⟨e, he⟩ := hholds.exists
  rw [locate_eq_ok, h.find_join hn hfits hlink, he]
  rfl

theorem join (hfits : (p.join ⟨n⟩).Fits) (hfolder : t.get? (l ++ [n]) = some .folder) :
    t.Enters (p.join ⟨n⟩) (l ++ [n]) :=
  ⟨h.locate_join hn hfits (.inl hfolder), hfolder⟩

/-- A name leads nowhere else, unless it is that of a link. -/
theorem eq_of_locate_join (hlink : ∀ target, t.get? (l ++ [n]) ≠ some (.link target))
    {l' : Location} (hl' : t.locate (p.join ⟨n⟩) = .ok l') : l' = l ++ [n] := by
  have hfits := (isUsable_of_locate hl').fits
  rw [locate_eq_ok, h.find_join hn hfits hlink] at hl'
  split at hl'
  · cases hl'
    rfl
  · cases hl'

/-! ### What is made under a name -/

omit h in
theorem withoutEndSlashes_join : withoutEndSlashes (p.join ⟨n⟩) = p.join ⟨n⟩ := by
  obtain ⟨cs, c, hcs⟩ := (List.eq_nil_or_concat' _).resolve_left
    fun hnil => (hn.1.isOpen.join p).1 (String.toList_inj.1 hnil)
  have hlast := (hn.1.isOpen.join p).2
  rw [hcs, List.getLast?_concat, Ne, Option.some.injEq] at hlast
  have hdrop : ((cs ++ [c]).reverse.dropWhile (· == '/')).reverse = cs ++ [c] := by
    rw [List.reverse_concat, List.dropWhile_cons_of_neg (by simpa using hlast),
      List.reverse_cons, List.reverse_reverse]
  rw [withoutEndSlashes, hcs, hdrop, ← hcs, String.ofList_toList]

/-- A folder is made under a name that is free. -/
theorem createFolder_join (hfits : (p.join ⟨n⟩).Fits) : t.createFolder (p.join ⟨n⟩) =
    if (t.get? (l ++ [n])).isSome then .error .alreadyExists else .ok (t.set (l ++ [n]) .folder) := by
  obtain ⟨ps, hpieces, hleads⟩ := h.exists_pieces hn
  have hfolder : t.findPieces (p.join ⟨n⟩) (ps ++ ["."]) = .ok (.entry l) :=
    hleads ["."] _ hfits fun k => by cases k <;> exact walk_current ..
  rw [← withoutEndSlashes_join hn] at hpieces
  rw [createFolder_of_isEntryName t hpieces (isEntryName_of_isFileName hn), hfolder]
  rfl

theorem createFolder_join_of_long (hlong : ¬ (p.join ⟨n⟩).Fits) :
    t.createFolder (p.join ⟨n⟩) = .error .invalidFilename := by
  obtain ⟨ps, hpieces, -⟩ := h.exists_pieces hn
  rw [← withoutEndSlashes_join hn] at hpieces
  rw [createFolder_of_isEntryName t hpieces (isEntryName_of_isFileName hn),
    h.findPieces_join_of_long hn hlong]
  rfl

theorem createFolders_join (hfits : (p.join ⟨n⟩).Fits) (hvacant : t.get? (l ++ [n]) = none) :
    t.createFolders (p.join ⟨n⟩) = (t.set (l ++ [n]) .folder, none) := by
  have hmade : t.createFolder (p.join ⟨n⟩) = .ok (t.set (l ++ [n]) .folder) := by
    rw [h.createFolder_join hn hfits, hvacant]
    rfl
  obtain ⟨outer, hancestors⟩ := List.head?_eq_some_iff.1 (head?_ancestors (p.join ⟨n⟩))
  rw [createFolders, hancestors, createChain_cons, hmade,
    if_neg fun hempty => (hn.1.isOpen.join p).1 (String.isEmpty_iff.1 hempty)]

omit h in
/-- Where the folder is not made, nothing is. -/
theorem createFolders_join_of_error {e : FileError}
    (hmade : t.createFolder (p.join ⟨n⟩) = .error e) (he : e ≠ .notFound) :
    (t.createFolders (p.join ⟨n⟩)).1 = t := by
  obtain ⟨outer, hancestors⟩ := List.head?_eq_some_iff.1 (head?_ancestors (p.join ⟨n⟩))
  rw [createFolders, hancestors, createChain_cons, hmade,
    if_neg fun hempty => (hn.1.isOpen.join p).1 (String.isEmpty_iff.1 hempty)]
  cases e <;> first | exact absurd rfl he | (dsimp only; split <;> rfl)

/-- **Making a folder under a name changes the place of that name alone.** -/
theorem get?_createFolders_join {l' : Location} (hl' : l' ≠ l ++ [n]) :
    (t.createFolders (p.join ⟨n⟩)).1.get? l' = t.get? l' := by
  by_cases hfits : (p.join ⟨n⟩).Fits
  · cases hget : t.get? (l ++ [n]) with
    | none => rw [h.createFolders_join hn hfits hget, get?_set t (by simp), if_neg hl']
    | some e =>
      have hmade := h.createFolder_join hn hfits
      rw [hget] at hmade
      rw [createFolders_join_of_error hn hmade (by simp)]
  · rw [createFolders_join_of_error hn (h.createFolder_join_of_long hn hfits) (by simp)]

/-- A file is written under a name, where there is no link. -/
theorem write_join (hlink : ∀ target, t.get? (l ++ [n]) ≠ some (.link target)) (content : Content) :
    t.write (p.join ⟨n⟩) content =
      if (p.join ⟨n⟩).Fits then
        if t.get? (l ++ [n]) = some .folder then .error .isADirectory
        else .ok (t.set (l ++ [n]) (.file content))
      else .error .invalidFilename := by
  have hslash : ((p.join ⟨n⟩).text.toList.getLast? == some '/') = false :=
    beq_eq_false_iff_ne.2 (hn.1.isOpen.join p).2
  rw [write, fileLocation, hslash, if_neg Bool.false_ne_true]
  by_cases hfits : (p.join ⟨n⟩).Fits
  · rw [if_pos hfits, h.find_join hn hfits hlink]
    cases hget : t.get? (l ++ [n]) with
    | none => rfl
    | some e =>
      simp only [bind, Except.bind, Option.isSome_some, if_true, hget]
      cases e with
      | folder => rfl
      | file old => rfl
      | link target => exact absurd hget (hlink target)
  · rw [if_neg hfits, find, h.findPieces_join_of_long hn hfits]
    rfl

end Name
end Enters
end FileTree
end ElementBuild
