/-
# What a folder lists

Whatever a folder lists stands in it (`WellFormed.get?_of_mem_children`), so a file that
is listed is found by its name below the path of the folder
(`WellFormed.locate_join_of_mem_list`).  It lists all that stands in it in the order of the
names, so where the same stands in it, the same is listed (`WellFormed.children_congr`).
-/
import ElementBuild.Proofs.FileTree.Canonical
import Mathlib.Data.List.Nodup
import Mathlib.Data.List.Sort
import Mathlib.Data.String.Basic

namespace ElementBuild
namespace FileTree

theorem mem_insertName {x y : String × Entry} {xs : List (String × Entry)} :
    y ∈ insertName x xs ↔ y = x ∨ y ∈ xs := by
  induction xs with
  | nil => simp [insertName]
  | cons z zs ih =>
    unfold insertName
    split
    · exact List.mem_cons
    · rw [List.mem_cons, ih, List.mem_cons]
      exact or_left_comm

theorem mem_foldl_insertName {y : String × Entry} {xs sorted : List (String × Entry)} :
    y ∈ xs.foldl (fun sorted x => insertName x sorted) sorted ↔ y ∈ xs ∨ y ∈ sorted := by
  induction xs generalizing sorted with
  | nil => simp
  | cons x xs ih =>
    rw [List.foldl_cons, ih, mem_insertName, List.mem_cons]
    exact or_left_comm.trans or_assoc.symm

/-- Names that differ are put in their order. -/
theorem pairwise_insertName {x : String × Entry} {xs : List (String × Entry)}
    (hxs : xs.Pairwise fun y z => y.1 < z.1) (hx : ∀ y ∈ xs, y.1 ≠ x.1) :
    (insertName x xs).Pairwise fun y z => y.1 < z.1 := by
  induction xs with
  | nil => exact List.pairwise_singleton _ _
  | cons z zs ih =>
    obtain ⟨hz, hzs⟩ := List.pairwise_cons.1 hxs
    unfold insertName
    split
    · refine List.pairwise_cons.2 ⟨fun y hy => ?_, hxs⟩
      rcases List.mem_cons.1 hy with rfl | hy
      · assumption
      · exact lt_trans ‹_› (hz y hy)
    · refine List.pairwise_cons.2 ⟨fun y hy => ?_, ih hzs fun y hy => hx y (List.mem_cons_of_mem _ hy)⟩
      rcases mem_insertName.1 hy with rfl | hy
      · exact lt_of_le_of_ne (not_lt.1 ‹_›) (hx z List.mem_cons_self)
      · exact hz y hy

theorem pairwise_foldl_insertName {xs sorted : List (String × Entry)}
    (hsorted : sorted.Pairwise fun y z => y.1 < z.1) (hxs : (xs.map (·.1)).Nodup)
    (hnew : ∀ x ∈ xs, ∀ y ∈ sorted, y.1 ≠ x.1) :
    (xs.foldl (fun sorted x => insertName x sorted) sorted).Pairwise fun y z => y.1 < z.1 := by
  induction xs generalizing sorted with
  | nil => exact hsorted
  | cons x xs ih =>
    obtain ⟨hx, hxs⟩ := List.nodup_cons.1 hxs
    refine ih (pairwise_insertName hsorted (hnew x List.mem_cons_self)) hxs fun z hz y hy => ?_
    rcases mem_insertName.1 hy with rfl | hy
    · exact fun heq => hx (List.mem_map.2 ⟨z, hz, heq.symm⟩)
    · exact hnew z (List.mem_cons_of_mem _ hz) y hy

theorem eq_of_nameIn? {folder l : Location} {n : String} (h : nameIn? folder l = some n) :
    l = folder ++ [n] := by
  unfold nameIn? at h
  split at h
  · rename_i name hrest
    cases h
    rw [List.isPrefixOf?_eq_some_iff_append_eq] at hrest
    exact hrest.symm
  · cases h

theorem nameIn?_append (folder : Location) (n : String) : nameIn? folder (folder ++ [n]) = some n := by
  unfold nameIn?
  rw [List.isPrefixOf?_eq_some_iff_append_eq.2 rfl]

theorem list_eq_ok {t : FileTree} {p : Path} {xs : List (String × Entry)}
    (h : t.list p = .ok xs) :
    ∃ l, t.locate p = .ok l ∧ t.get? l = some .folder ∧ xs = t.children l := by
  unfold list at h
  cases hl : t.locate p with
  | error e =>
    rw [hl] at h
    cases h
  | ok l =>
    rw [hl] at h
    simp only [Except.bind, bind] at h
    split at h
    · cases h
      exact ⟨l, rfl, ‹_›, rfl⟩
    · cases h

namespace WellFormed

variable {t : FileTree} (h : t.WellFormed)
include h

theorem get?_of_mem {l : Location} {e : Entry} (hmem : (l, e) ∈ t.entries) : t.get? l = some e := by
  have hne : l ≠ [] := (h.entries _ hmem).1
  obtain ⟨n, ns, hl⟩ := List.exists_cons_of_ne_nil hne
  have hfind : t.entries.find? (·.1 == l) = some (l, e) := by
    have hsome : (t.entries.find? (·.1 == l)).isSome = true :=
      List.find?_isSome.2 ⟨(l, e), hmem, beq_self_eq_true l⟩
    obtain ⟨x, hx⟩ := Option.isSome_iff_exists.1 hsome
    have hfound := List.find?_some hx
    have hkey : x.1 = l := beq_iff_eq.1 hfound
    rw [hx, List.inj_on_of_nodup_map h.nodup (List.mem_of_find?_eq_some hx) hmem hkey]
  have hget : t.get? l = (t.entries.find? (·.1 == l)).map (·.2) := by
    rw [hl]
    rfl
  rw [hget, hfind]
  rfl

/-- Whatever a folder lists stands in it. -/
theorem get?_of_mem_children {l : Location} {n : String} {e : Entry}
    (hmem : (n, e) ∈ t.children l) : t.get? (l ++ [n]) = some e := by
  unfold children at hmem
  have hlisted := (mem_foldl_insertName.1 hmem).resolve_right List.not_mem_nil
  obtain ⟨⟨l', e'⟩, hentry, hx⟩ := List.mem_filterMap.1 hlisted
  obtain ⟨m, hname, heq⟩ := Option.map_eq_some_iff.1 hx
  cases heq
  rw [← eq_of_nameIn? hname]
  exact h.get?_of_mem hentry

/-- A folder lists what stands in it. -/
theorem mem_children_iff {l : Location} {n : String} {e : Entry} :
    (n, e) ∈ t.children l ↔ t.get? (l ++ [n]) = some e := by
  refine ⟨h.get?_of_mem_children, fun hget => ?_⟩
  refine mem_foldl_insertName.2 (.inl (List.mem_filterMap.2 ⟨(l ++ [n], e), ?_, ?_⟩))
  · exact mem_of_get? (by simp) hget
  · rw [nameIn?_append]
    rfl

/-- A folder lists its entries in the order of their names. -/
theorem pairwise_children (l : Location) : (t.children l).Pairwise fun y z => y.1 < z.1 := by
  refine pairwise_foldl_insertName .nil ?_ fun _ _ _ hy => absurd hy List.not_mem_nil
  have hmap : ((t.entries.filterMap fun x => (nameIn? l x.1).map (·, x.2)).map (·.1)) =
      (t.entries.map (·.1)).filterMap (nameIn? l) := by
    rw [List.map_filterMap, List.filterMap_map]
    refine List.filterMap_congr fun x _ => ?_
    rw [Option.map_map]
    exact Option.map_id'
  rw [hmap]
  refine h.nodup.filterMap fun a b n ha hb => ?_
  rw [eq_of_nameIn? ha, eq_of_nameIn? hb]

/-- **Where the same stands in a folder, the same is listed.** -/
theorem children_congr {t' : FileTree} (h' : t'.WellFormed) {l : Location}
    (hget : ∀ n, t'.get? (l ++ [n]) = t.get? (l ++ [n])) : t'.children l = t.children l := by
  have hirrefl : Std.Irrefl fun y z : String × Entry => y.1 < z.1 := ⟨fun y => lt_irrefl y.1⟩
  have hantisymm : Std.Antisymm fun y z : String × Entry => y.1 < z.1 :=
    ⟨fun y z hyz hzy => absurd hzy (lt_asymm hyz)⟩
  refine List.Pairwise.eq_of_mem_iff (h'.pairwise_children l) (h.pairwise_children l) ?_
  rintro ⟨n, e⟩
  rw [h'.mem_children_iff, h.mem_children_iff, hget]

theorem list_congr {t' : FileTree} (h' : t'.WellFormed) {p : Path} {l : Location}
    (hl : t.locate p = .ok l) (hl' : t'.locate p = .ok l) (hsame : t'.get? l = t.get? l)
    (hget : ∀ n, t'.get? (l ++ [n]) = t.get? (l ++ [n])) : t'.list p = t.list p := by
  unfold list
  rw [hl, hl']
  simp only [bind, Except.bind]
  rw [hsame, h.children_congr h' hget]

/-- **What a folder lists as a file is found below its path.** -/
theorem locate_join_of_mem_list {p : Path} {xs : List (String × Entry)} {n : String}
    {content : Content} (hlist : t.list p = .ok xs) (hmem : (n, .file content) ∈ xs)
    (hfits : (p.join ⟨n⟩).Fits) :
    ∃ l, t.locate p = .ok l ∧ t.locate (p.join ⟨n⟩) = .ok (l ++ [n]) ∧
      t.get? (l ++ [n]) = some (.file content) := by
  obtain ⟨l, hl, hfolder, rfl⟩ := list_eq_ok hlist
  have hget := h.get?_of_mem_children hmem
  have hname : IsFileName n := (h.entry hget).1
  have hpieces : piecesOf n.toList = [n] := by
    have hsingle : Path.pieces n.toList = [n.toList] := hname.1.pieces
    have hne : n.toList ≠ [] := hname.1.text_ne_empty
    rw [piecesOf_eq (by rw [hsingle]; simpa using hne.symm), hsingle, List.map_singleton,
      String.ofList_toList]
  have hne : n ≠ "" := by
    rintro rfl
    exact absurd hname.1 (by decide)
  refine ⟨l, hl, locate_join hl hfolder hname.1.isAbsolute hne hname.2.2 (fun k => ?_) hfits, hget⟩
  rw [show (Path.mk n).text.toList = n.toList from rfl, hpieces]
  exact h.walkLinks_names (.inr ⟨content, hget⟩) k

end WellFormed
end FileTree
end ElementBuild
