/-
# What lies below a folder

A path that goes on from a folder leads where it leads from there
(`exists_walkLinks_of_locate_join`), and none goes on from a file
(`WellFormed.not_locate_join_of_file`).  So names that lead to something lead through folders,
or through links to folders.
-/
import ElementBuild.Proofs.FileTree.Canonical

namespace ElementBuild

/-- What comes before a path that is not too long is not too long. -/
theorem Path.fits_of_join {p q : Path} (hq : q.isAbsolute = false) (h : (p.join q).Fits) : p.Fits := by
  rw [Fits, join_eq hq, String.utf8ByteSize_append, String.utf8ByteSize_append] at h
  exact Nat.le_trans (Nat.le_add_right _ _) (Nat.le_trans (Nat.le_add_right _ _) h)

namespace FileTree

variable {t : FileTree} {p q : Path} {l : Location}

/-- What a path leads to that goes on from a folder is found from there. -/
theorem exists_walkLinks_of_locate_join {l' : Location} (hp : t.locate p = .ok l)
    (hl : t.get? l = some .folder) (hq : q.isAbsolute = false) (hne : q.text ≠ "")
    (hjoin : t.locate (p.join q) = .ok l') :
    ∃ k, t.walkLinks k l (piecesOf q.text.toList) = .ok (.entry l') := by
  obtain ⟨husable, hpwalk⟩ := find_eq_ok.1 (locate_eq_ok.1 hp)
  obtain ⟨-, hjoined⟩ := find_eq_ok.1 (locate_eq_ok.1 hjoin)
  obtain ⟨ps, us, hus, hpieces, hwhole⟩ := piecesOf_join husable.nonempty hq hne
  rw [Path.isAbsolute_join_of_relative husable.nonempty hq, hwhole] at hjoined
  rw [hpieces] at hpwalk
  obtain ⟨k, hk⟩ := walkLinks_along (P := fun found => ∃ k, found =
    t.walkLinks k l (piecesOf q.text.toList)) hl hus (fun k => ⟨k, rfl⟩) _ hpwalk
  exact ⟨k, hk.symm.trans hjoined⟩

/-- A walk from a folder that leads to a file leads nowhere else. -/
theorem WellFormed.walk_past_file (h : t.WellFormed)
    {follow : Location → List String → Except FileError Found} {file : Location} {content : Content}
    (hfile : t.get? file = some (.file content)) {q : String} {qs : List String} {r : Location}
    (hfollow : ∀ l ps, t.get? l = some .folder → follow l ps = .ok (.entry file) →
      follow l (ps ++ q :: qs) ≠ .ok (.entry r))
    {ps : List String} {l : Location} (hl : t.get? l = some .folder)
    (hwalk : t.walk follow l ps = .ok (.entry file)) :
    t.walk follow l (ps ++ q :: qs) ≠ .ok (.entry r) := by
  induction ps generalizing l with
  | nil =>
    cases hwalk
    cases hl.symm.trans hfile
  | cons p ps ih =>
    rw [List.cons_append]
    rcases walk_piece hwalk with rfl | rfl | hp
    · rw [walk_current] at hwalk ⊢
      exact ih hl hwalk
    · rw [walk_parent] at hwalk ⊢
      exact ih (h.parent hl) hwalk
    · cases hget : t.get? (l ++ [p]) with
      | none =>
        rw [walk_vacant hp hget] at hwalk
        split at hwalk <;> cases hwalk
      | some e =>
        cases e with
        | folder =>
          rw [walk_folder hp hget] at hwalk ⊢
          exact ih hget hwalk
        | file content =>
          rw [walk_file hp hget]
          simp
        | link target =>
          rw [walk_link hp hget] at hwalk ⊢
          split at hwalk
          · cases hwalk
          · rw [if_neg ‹_›, ← List.append_assoc]
            refine hfollow _ _ ?_ hwalk
            split
            · rfl
            · exact hl

theorem WellFormed.walkLinks_past_file (h : t.WellFormed) {file : Location} {content : Content}
    (hfile : t.get? file = some (.file content)) {q : String} {qs : List String} {r : Location}
    (n : Nat) {ps : List String} {l : Location} (hl : t.get? l = some .folder)
    (hwalk : t.walkLinks n l ps = .ok (.entry file)) :
    t.walkLinks n l (ps ++ q :: qs) ≠ .ok (.entry r) := by
  induction n generalizing l ps with
  | zero => exact h.walk_past_file hfile (fun _ _ _ hf => by cases hf) hl hwalk
  | succ n ih => exact h.walk_past_file hfile (fun _ _ hl hf => ih hl hf) hl hwalk

/-- No path leads on from a file. -/
theorem WellFormed.not_locate_join_of_file (h : t.WellFormed) {content : Content} {r : Location}
    (hp : t.locate p = .ok l) (hl : t.get? l = some (.file content)) (hq : q.isAbsolute = false)
    (hne : q.text ≠ "") (hpieces : piecesOf q.text.toList ≠ []) :
    t.locate (p.join q) ≠ .ok r := by
  intro hjoin
  obtain ⟨husable, hpwalk⟩ := find_eq_ok.1 (locate_eq_ok.1 hp)
  obtain ⟨-, hjoined⟩ := find_eq_ok.1 (locate_eq_ok.1 hjoin)
  obtain ⟨ps, us, hus, hps, hwhole⟩ := piecesOf_join husable.nonempty hq hne
  rw [Path.isAbsolute_join_of_relative husable.nonempty hq, hwhole] at hjoined
  rw [hps] at hpwalk
  have hstart : t.get? (if p.isAbsolute then [] else t.current) = some .folder := by
    split
    · rfl
    · exact h.current
  have hdot : us ≠ ["."] := by
    rintro rfl
    obtain ⟨folder, hfolder, hget⟩ := h.walkLinks_dot _ hstart hpwalk
    cases hfolder
    cases hl.symm.trans hget
  rw [hus.resolve_right hdot, List.append_nil] at hpwalk
  obtain ⟨x, xs, hxs⟩ := List.exists_cons_of_ne_nil hpieces
  rw [hxs] at hjoined
  exact h.walkLinks_past_file hl _ hstart hpwalk hjoined

/-- A path that something lies below leads to a folder. -/
theorem WellFormed.isFolder_of_locate_join (h : t.WellFormed) {r : Location} (hp : p.text ≠ "")
    (hq : q.isAbsolute = false) (hne : q.text ≠ "") (hpieces : piecesOf q.text.toList ≠ [])
    (hjoin : t.locate (p.join q) = .ok r) : t.isFolder p = true := by
  obtain ⟨husable, hjoined⟩ := find_eq_ok.1 (locate_eq_ok.1 hjoin)
  obtain ⟨ps, us, hus, hps, hwhole⟩ := piecesOf_join hp hq hne
  rw [Path.isAbsolute_join_of_relative hp hq, hwhole] at hjoined
  have hend : us = [] ∨ us = ["."] ∧ piecesOf q.text.toList ≠ [] :=
    hus.imp_right fun hdot => ⟨hdot, hpieces⟩
  obtain ⟨l, hwalk⟩ := walkLinks_prefix hend _ hjoined
  rw [← hps] at hwalk
  have hl : t.locate p = .ok l := by
    refine locate_eq_ok.2 (find_eq_ok.2 ⟨⟨hp, fun hnull => husable.clear ?_,
      Path.fits_of_join hq husable.fits⟩, hwalk⟩)
    rw [Path.join_eq hq, String.toList_append, String.toList_append]
    exact List.mem_append_left _ (List.mem_append_left _ hnull)
  rcases h.locate hl with hfolder | ⟨content, hfile⟩
  · exact isFolder_iff.2 ⟨l, hl, hfolder⟩
  · exact absurd hjoin (h.not_locate_join_of_file hl hfile hq hne hpieces)

theorem piecesOf_ofNames {xs : List String} (hxs : ∀ x ∈ xs, Path.IsName x) (hne : xs ≠ []) :
    piecesOf (Path.ofNames xs).text.toList = xs := by
  have hpieces : Path.pieces (Path.ofNames xs).text.toList = xs.map String.toList := by
    rw [Path.toList_ofNames]
    refine Path.pieces_joinPieces (by simpa using hne) fun cs hcs => ?_
    obtain ⟨x, hx, rfl⟩ := List.mem_map.1 hcs
    exact (hxs x hx).2
  rw [piecesOf_eq, hpieces, List.map_map]
  · exact (List.map_congr_left fun _ _ => String.ofList_toList).trans (List.map_id xs)
  · rw [hpieces]
    intro hmem
    obtain ⟨x, hx, hnil⟩ := List.mem_map.1 hmem
    exact (hxs x hx).text_ne_empty hnil

/-- Names lead from a folder through what stands in it under the first of them. -/
theorem exists_get?_of_locate_join {n : String} {ns : List String} {r : Location}
    (hp : t.locate p = .ok l) (hl : t.get? l = some .folder) (hns : ∀ x ∈ n :: ns, Path.IsName x)
    (hjoin : t.locate (p.join (Path.ofNames (n :: ns))) = .ok r) :
    ∃ e, t.get? (l ++ [n]) = some e := by
  have hopen := Path.isOpen_ofNames hns (List.cons_ne_nil n ns)
  obtain ⟨k, hwalk⟩ :=
    exists_walkLinks_of_locate_join hp hl hopen.relative hopen.nonempty hjoin
  rw [piecesOf_ofNames hns (List.cons_ne_nil n ns)] at hwalk
  have hn : Path.IsName n := hns n List.mem_cons_self
  have hfound : ∀ follow, t.walk follow l (n :: ns) = .ok (.entry r) →
      ∃ e, t.get? (l ++ [n]) = some e := by
    intro follow hwalk
    cases hget : t.get? (l ++ [n]) with
    | some e => exact ⟨e, rfl⟩
    | none =>
      rcases walk_piece hwalk with rfl | rfl | hentry
      · exact absurd hn (by decide)
      · exact absurd hn (by decide)
      · rw [walk_vacant hentry hget] at hwalk
        split at hwalk <;> cases hwalk
  cases k with
  | zero => exact hfound _ hwalk
  | succ k => exact hfound _ hwalk

end FileTree
end ElementBuild
