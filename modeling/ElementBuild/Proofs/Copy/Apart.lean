/-
# Folders that stay as they are

Names that go on from a folder never leave it, if no link stands below it
(`PlainFolder.exists_below`).  So where all that lies below the folder stays, what they lead to
stays (`Fixed.join`), and the folders in it are copied as before
(`FolderCopy.undisturbed_of_fixed`).
-/
import ElementBuild.Proofs.Copy.Repeats
import ElementBuild.Proofs.Copy.Whole

namespace ElementBuild
namespace FileTree

open Path (IsName ofNames)

variable {t t' : FileTree} {places : Location → Prop} {p : Path} {l l' : Location}

/-! ### Walks below a folder -/

/-- No link stands at a place or below it. -/
def HasNoLink (t : FileTree) (l : Location) : Prop :=
  ∀ ns target, t.get? (l ++ ns) ≠ some (.link target)

theorem HasNoLink.below (h : t.HasNoLink l) (ns : List String) : t.HasNoLink (l ++ ns) := by
  intro ms target
  rw [List.append_assoc]
  exact h _ target

/-- A walk that never goes up stays below where it starts, so it depends on what stands there
alone. -/
theorem walk_congr {follow follow' : Location → List String → Except FileError Found}
    (hplain : t.HasNoLink l) (hsame : ∀ ns, t'.get? (l ++ ns) = t.get? (l ++ ns)) {ps : List String}
    (hps : ".." ∉ ps) : t'.walk follow' l ps = t.walk follow l ps := by
  induction ps generalizing l with
  | nil => rfl
  | cons p ps ih =>
    have hrest : ".." ∉ ps := fun hmem => hps (List.mem_cons_of_mem p hmem)
    have hparent : p ≠ ".." := fun heq => hps (heq ▸ List.mem_cons_self)
    rw [walk_cons, walk_cons]
    rw [if_neg hparent, if_neg hparent]
    split
    · exact ih hplain hsame hrest
    · split
      · rfl
      · have hgo := ih (hplain.below [p]) (fun ns => by
          rw [List.append_assoc]
          exact hsame _) hrest
        rw [hsame [p]]
        cases hget : t.get? (l ++ [p]) with
        | none => rfl
        | some e =>
          cases e with
          | folder => exact hgo
          | file content => rfl
          | link target => exact absurd hget (hplain [p] target)

theorem walk_below {follow : Location → List String → Except FileError Found}
    (hplain : t.HasNoLink l) {ps : List String} (hps : ".." ∉ ps)
    (hwalk : t.walk follow l ps = .ok (.entry l')) : ∃ ns, l' = l ++ ns := by
  induction ps generalizing l with
  | nil =>
    cases hwalk
    exact ⟨[], (List.append_nil _).symm⟩
  | cons p ps ih =>
    have hrest : ".." ∉ ps := fun hmem => hps (List.mem_cons_of_mem p hmem)
    rcases walk_piece hwalk with rfl | rfl | hp
    · rw [walk_current] at hwalk
      exact ih hplain hrest hwalk
    · exact absurd List.mem_cons_self hps
    · cases hget : t.get? (l ++ [p]) with
      | none =>
        rw [walk_vacant hp hget] at hwalk
        split at hwalk <;> cases hwalk
      | some e =>
        cases e with
        | folder =>
          rw [walk_folder hp hget] at hwalk
          obtain ⟨ns, rfl⟩ := ih (hplain.below [p]) hrest hwalk
          exact ⟨p :: ns, by rw [List.append_assoc]; rfl⟩
        | file content =>
          rw [walk_file hp hget] at hwalk
          split at hwalk
          · cases hwalk
            exact ⟨[p], rfl⟩
          · cases hwalk
        | link target => exact absurd hget (hplain [p] target)

/-- A path leads to a folder without links. -/
structure PlainFolder (t : FileTree) (p : Path) (l : Location) : Prop where
  leads : t.locate p = .ok l
  folder : t.get? l = some .folder
  plain : t.HasNoLink l

namespace PlainFolder

variable (h : t.PlainFolder p l) {xs : List String} (hxs : ∀ x ∈ xs, IsName x) (hne : xs ≠ [])
include h

/-- Pieces that go on from the folder lead to something below it. -/
theorem exists_below_of_walkLinks {ps us qs : List String} (hus : us = [] ∨ us = ["."])
    (hps : piecesOf p.text.toList = ps ++ us) (hqs : ".." ∉ qs)
    (hwalk : t.walkLinks linkLimit (if p.isAbsolute then [] else t.current) (ps ++ qs) =
      .ok (.entry l')) : ∃ ns, l' = l ++ ns := by
  obtain ⟨-, hlead⟩ := find_eq_ok.1 (locate_eq_ok.1 h.leads)
  rw [hps] at hlead
  obtain ⟨k, hk⟩ := walkLinks_along (P := fun found => ∃ k, found = t.walkLinks k l qs) h.folder hus
    (fun k => ⟨k, rfl⟩) _ hlead
  rw [hwalk] at hk
  cases k with
  | zero => exact walk_below h.plain hqs hk.symm
  | succ k => exact walk_below h.plain hqs hk.symm

include hxs

omit h in
theorem dots_notMem : ".." ∉ xs := fun hmem => absurd (hxs _ hmem) (by decide)

include hne

omit h in
/-- The pieces of a path that goes on along names. -/
theorem piecesOf_join_ofNames (hp : p.text ≠ "") : ∃ ps us, (us = [] ∨ us = ["."]) ∧
    piecesOf p.text.toList = ps ++ us ∧ piecesOf (p.join (ofNames xs)).text.toList = ps ++ xs := by
  have hopen := Path.isOpen_ofNames hxs hne
  obtain ⟨ps, us, hus, hps, hjoin⟩ := piecesOf_join hp hopen.relative hopen.nonempty
  exact ⟨ps, us, hus, hps, hjoin.trans (by rw [piecesOf_ofNames hxs hne])⟩

theorem isAbsolute_join : (p.join (ofNames xs)).isAbsolute = p.isAbsolute :=
  Path.isAbsolute_join_of_relative (isUsable_of_locate h.leads).nonempty
    (Path.isOpen_ofNames hxs hne).relative

/-- **Names that go on from the folder lead to something below it.** -/
theorem exists_below (hl' : t.locate (p.join (ofNames xs)) = .ok l') : ∃ ns, l' = l ++ ns := by
  obtain ⟨ps, us, hus, hps, hjoin⟩ :=
    piecesOf_join_ofNames hxs hne (isUsable_of_locate h.leads).nonempty
  obtain ⟨-, hwalk⟩ := find_eq_ok.1 (locate_eq_ok.1 hl')
  rw [hjoin, h.isAbsolute_join hxs hne] at hwalk
  exact h.exists_below_of_walkLinks hus hps (dots_notMem hxs) hwalk

/-- Nor do they lead to a link. -/
theorem isLink_eq_false : t.isLink (p.join (ofNames xs)) = false := by
  obtain ⟨ps, us, hus, hps, hjoin⟩ :=
    piecesOf_join_ofNames hxs hne (isUsable_of_locate h.leads).nonempty
  unfold isLink
  dsimp only
  split
  · rename_i name folder hname hfound
    obtain ⟨-, hwalk⟩ := findPieces_eq_ok.1 hfound
    rw [hjoin, List.dropLast_append_of_ne_nil hne, List.append_assoc,
      h.isAbsolute_join hxs hne] at hwalk
    have hdots : ".." ∉ xs.dropLast ++ ["."] := fun hmem => by
      rcases List.mem_append.1 hmem with hmem | hmem
      · exact dots_notMem hxs (List.dropLast_subset xs hmem)
      · exact absurd hmem (by decide)
    obtain ⟨ns, rfl⟩ := h.exists_below_of_walkLinks hus hps hdots hwalk
    rw [Bool.and_eq_false_iff]
    refine .inr ?_
    rw [List.append_assoc]
    split
    · exact absurd ‹_› (h.plain _ _)
    · rfl
  · rfl

end PlainFolder

/-! ### Paths to what stays -/

/-- A path leads to the same place in any tree that has the same at some places, and what lies
there is at these. -/
structure Fixed (t : FileTree) (places : Location → Prop) (p : Path) : Prop where
  locate : t.Relies places (·.locate p)
  below : ∀ l, t.locate p = .ok l → ∀ ns, places (l ++ ns)

/-- The path of a folder leads there wherever the folder is. -/
theorem fixed_path (hwf : t.WellFormed) (hl : t.get? l = some .folder) (hfits : l.path.Fits)
    (hbelow : ∀ ns, places (l ++ ns)) : t.Fixed places l.path := by
  have hlocate := hwf.locate_path (.inl hl) hfits
  have hplace : places l := List.append_nil l ▸ hbelow []
  refine ⟨fun t' hwf' _ hsame => ?_, fun l' hl' => ?_⟩
  · exact (hwf'.locate_path (.inl ((hsame l hplace).trans hl)) hfits).trans hlocate.symm
  · obtain rfl := Except.ok.inj (hlocate.symm.trans hl')
    exact hbelow

namespace Fixed

variable (h : t.Fixed places p)
include h

theorem place (hl : t.locate p = .ok l) : places l := List.append_nil l ▸ h.below l hl []

theorem isFolder : t.Relies places (·.isFolder p) := by
  intro t' hwf hcurrent hsame
  have hlocate := h.locate t' hwf hcurrent hsame
  have hentry : t'.entryAt? p = t.entryAt? p := by
    dsimp only at hlocate
    unfold FileTree.entryAt?
    rw [hlocate]
    cases hl : t.locate p with
    | error e => rfl
    | ok l => exact hsame l (h.place hl)
  dsimp only
  rw [FileTree.isFolder, FileTree.isFolder, hentry]

theorem read : t.Relies places (·.read p) := by
  intro t' hwf hcurrent hsame
  have hlocate := h.locate t' hwf hcurrent hsame
  dsimp only at hlocate ⊢
  unfold FileTree.read
  rw [hlocate]
  cases hl : t.locate p with
  | error e => rfl
  | ok l =>
    simp only [bind, Except.bind]
    rw [hsame l (h.place hl)]

theorem list (hwf : t.WellFormed) : t.Relies places (·.list p) := by
  intro t' hwf' hcurrent hsame
  have hlocate := h.locate t' hwf' hcurrent hsame
  dsimp only at hlocate ⊢
  cases hl : t.locate p with
  | error e =>
    unfold FileTree.list
    rw [hlocate, hl]
    rfl
  | ok l =>
    exact hwf.list_congr hwf' hl (hlocate.trans hl) (hsame l (h.place hl)) fun n =>
      hsame _ (h.below l hl [n])

variable (hfolder : t.PlainFolder p l)
include hfolder

/-- A folder without links that stays is one later. -/
theorem plainFolder (hwf : t'.WellFormed) (hcurrent : t'.current = t.current)
    (hsame : ∀ l, places l → t'.get? l = t.get? l) : t'.PlainFolder p l where
  leads := (h.locate t' hwf hcurrent hsame).trans hfolder.leads
  folder := (hsame l (h.place hfolder.leads)).trans hfolder.folder
  plain ns target := by
    rw [hsame _ (h.below l hfolder.leads ns)]
    exact hfolder.plain ns target

variable {xs : List String} (hxs : ∀ x ∈ xs, IsName x) (hne : xs ≠ [])
include hxs hne

/-- **What names lead to below a folder that stays, stays.** -/
theorem join : t.Fixed places (p.join (ofNames xs)) := by
  refine ⟨fun t' hwf hcurrent hsame => ?_, fun l' hl' ns => ?_⟩
  · have hfolder' := h.plainFolder hfolder hwf hcurrent hsame
    obtain ⟨ps, us, hus, hps, hjoin⟩ :=
      PlainFolder.piecesOf_join_ofNames hxs hne (isUsable_of_locate hfolder.leads).nonempty
    obtain ⟨-, hwalk⟩ := find_eq_ok.1 (locate_eq_ok.1 hfolder.leads)
    obtain ⟨-, hwalk'⟩ := find_eq_ok.1 (locate_eq_ok.1 hfolder'.leads)
    rw [hps] at hwalk hwalk'
    -- from the folder, the names lead to the same, however many links are left
    let found := t.walk (fun _ _ => .error .notFound) l xs
    have hgoes : ∀ {u : FileTree}, (∀ ns, u.get? (l ++ ns) = t.get? (l ++ ns)) →
        ∀ k, u.walkLinks k l xs = found := by
      intro u hu k
      cases k with
      | zero => exact walk_congr hfolder.plain hu (PlainFolder.dots_notMem hxs)
      | succ k => exact walk_congr hfolder.plain hu (PlainFolder.dots_notMem hxs)
    have hfound := walkLinks_along (P := (· = found)) hfolder.folder hus (hgoes fun _ => rfl) _ hwalk
    have hfound' := walkLinks_along (P := (· = found)) hfolder'.folder hus
      (hgoes fun ns => hsame _ (h.below l hfolder.leads ns)) _ hwalk'
    dsimp only
    rw [FileTree.locate, FileTree.locate, find, find, hjoin, findPieces, findPieces,
      hfolder.isAbsolute_join hxs hne, hfound, hfound']
  · obtain ⟨ms, rfl⟩ := hfolder.exists_below hxs hne hl'
    rw [List.append_assoc]
    exact h.below l hfolder.leads _

theorem isLink : t.Relies places (·.isLink (p.join (ofNames xs))) := fun _ hwf hcurrent hsame =>
  ((h.plainFolder hfolder hwf hcurrent hsame).isLink_eq_false hxs hne).trans
    (hfolder.isLink_eq_false hxs hne).symm

end Fixed
end FileTree

namespace FolderCopy

open Path (IsName ofNames)

variable {c : FolderCopy} {s e : Session} {p : Path} {l : Location}

/-- What is visited lies below the folder along names. -/
theorem Visits.exists_names {t : FileTree} {relative : String} (h : c.Visits t relative)
    (hwf : t.WellFormed) : ∃ xs, (∀ x ∈ xs, IsName x) ∧ relative = (ofNames xs).text ∧
      (xs ≠ [] → t.isFolder c.source = true) := by
  induction h with
  | root => exact ⟨[], fun x hx => absurd hx List.not_mem_nil, rfl, fun hne => absurd rfl hne⟩
  | @entry relative ys y _ hlist hy ih =>
    obtain ⟨xs, hxs, rfl, hfolder⟩ := ih
    obtain ⟨l, hl, hget, rfl⟩ := FileTree.list_eq_ok hlist
    have hname : IsName y.1 := (hwf.entry (hwf.get?_of_mem_children hy)).1.1
    refine ⟨xs ++ [y.1], isName_concat hxs hname, below_ofNames hxs y.1, fun _ => ?_⟩
    by_cases hnil : xs = []
    · rw [hnil] at hl
      exact FileTree.isFolder_iff.2 ⟨l, hl, hget⟩
    · exact hfolder hnil

/-- **A folder in one that stays is copied as before.** -/
theorem undisturbed_of_fixed (hwf : s.files.WellFormed) (h : s.files.Fixed (s.Spares e) p)
    (hfolder : s.files.PlainFolder p l) {n : String} (hn : IsName n) (hc : c.source = p.join ⟨n⟩) :
    c.Undisturbed s e := by
  have hns : ∀ x ∈ [n], IsName x := List.forall_mem_singleton.2 hn
  have hsource : c.source = p.join (ofNames [n]) := by rw [hc, Path.ofNames_singleton]
  have hfixed : s.files.Fixed (s.Spares e) c.source :=
    hsource ▸ h.join hfolder hns (List.cons_ne_nil n [])
  have hbelow : ∀ relative, c.Visits s.files relative →
      s.files.Fixed (s.Spares e) (c.sourceOf relative) := by
    intro relative hvisits
    obtain ⟨xs, hxs, rfl, hopen⟩ := hvisits.exists_names hwf
    by_cases hne : xs = []
    · rw [hne]
      exact hfixed
    · obtain ⟨l', hl', hget⟩ := FileTree.isFolder_iff.1 (hopen hne)
      obtain ⟨ns, rfl⟩ := hfolder.exists_below hns (List.cons_ne_nil n []) (hsource ▸ hl')
      rw [sourceOf_ofNames hxs hne]
      exact hfixed.join ⟨hl', hget, hfolder.plain.below ns⟩ hxs hne
  refine ⟨hfixed.isFolder, ?_, fun relative hvisits => (hbelow relative hvisits).list hwf,
    fun relative hvisits => (hbelow relative hvisits).read⟩
  rw [hsource]
  exact h.isLink hfolder hns (List.cons_ne_nil n [])

end FolderCopy
end ElementBuild
