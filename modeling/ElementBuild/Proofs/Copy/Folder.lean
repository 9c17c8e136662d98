/-
# What copying a folder delivers

A folder is copied name by name: what is delivered below the target has the same names
there as its source has below the folder (`FolderCopy.respects_run`).
-/
import ElementBuild.Proofs.Files
import ElementBuild.Proofs.FileTree.Listing

namespace ElementBuild
namespace FolderCopy

open Path (names IsName)

/-! ### Names below a folder -/

/-- A text that leads from a folder to names below it. -/
def Spells (relative : String) (xs : List String) : Prop :=
  (Path.mk relative).isAbsolute = false ∧ (Path.mk relative).moves = names xs

theorem spells_empty : Spells "" [] := ⟨rfl, rfl⟩

theorem spells_below {relative n : String} {xs : List String} (h : Spells relative xs)
    (hn : IsName n) : Spells (below relative n) (xs ++ [n]) := by
  unfold below
  split
  · rename_i hempty
    obtain rfl := String.isEmpty_iff.1 hempty
    obtain rfl : xs = [] := List.map_eq_nil_iff.1 h.2.symm
    exact ⟨hn.isAbsolute, hn.moves⟩
  · rename_i hempty
    obtain ⟨c, cs, hcs⟩ := List.exists_cons_of_ne_nil
      (fun hnil => hempty (String.isEmpty_iff.2 (String.toList_inj.1 hnil)) : relative.toList ≠ [])
    have htext : (relative ++ "/" ++ n).toList = relative.toList ++ '/' :: n.toList := by
      rw [String.toList_append, String.toList_append, List.append_assoc]
      rfl
    constructor
    · have habsolute := h.1
      rw [Path.isAbsolute, show (Path.mk relative).text.toList = c :: cs from hcs] at habsolute
      rw [Path.isAbsolute, show (Path.mk (relative ++ "/" ++ n)).text.toList = _ from htext, hcs]
      exact habsolute
    · have hmoves : (Path.mk (relative ++ "/" ++ n)).moves =
          (Path.mk relative).moves ++ (Path.mk n).moves := by
        rw [Path.moves, show (Path.mk (relative ++ "/" ++ n)).text.toList = _ from htext,
          Path.pieces_append_slash, List.filterMap_append]
        rfl
      rw [hmoves, h.2, hn.moves, Path.names_append]
      rfl

theorem segments_join_spelled {p : Path} (hp : p.text ≠ "") {relative : String} {xs : List String}
    (h : Spells relative xs) : (p.join ⟨relative⟩).segments = p.segments ++ names xs := by
  rw [Path.segments_join hp h.1, h.2]

/-! ### Deliveries -/

/-- A delivery from the folder to the same names below the target. -/
def Mirrors (c : FolderCopy) (d : Delivery) : Prop :=
  ∃ xs, d.source.segments = c.source.segments ++ names xs ∧
    d.target.segments = c.target.segments ++ names xs

/-- Well-formed files stay so, and what is delivered mirrors the folder. -/
def Mirroring (c : FolderCopy) (s s' : Session) : Prop :=
  s.files.WellFormed → s'.files.WellFormed ∧ ∀ d ∈ s'.deliveries, d ∈ s.deliveries ∨ c.Mirrors d

variable {c : FolderCopy}

instance : IsPreorder Session c.Mirroring where
  refl _ := fun hwf => ⟨hwf, fun _ h => .inl h⟩
  trans _ _ _ h₁ h₂ := fun hwf => by
    obtain ⟨hwf₁, hd₁⟩ := h₁ hwf
    obtain ⟨hwf₂, hd₂⟩ := h₂ hwf₁
    exact ⟨hwf₂, fun d hd => (hd₂ d hd).elim (hd₁ d) .inr⟩

theorem mirroring_delivery {s : Session} {d : Delivery} {t : FileTree} (h : s.files.Makes d t)
    (hd : c.Mirrors d) :
    c.Mirroring s { s with files := t, deliveries := s.deliveries ++ [d] } := by
  refine fun hwf => ⟨(h.changes hwf).wellFormed hwf, fun d' hd' => ?_⟩
  rcases List.mem_append.1 hd' with hd' | hd'
  · exact .inl hd'
  · exact .inr (List.mem_singleton.1 hd' ▸ hd)

theorem respects_createFolder (folder : Path) :
    (Copy.createFolder folder).Respects c.Mirroring := by
  intro s u s' h hwf
  obtain ⟨-, rfl⟩ := Step.gives_createFolders.1 (Step.gives_during.1 h)
  exact ⟨(FileTree.changes_createFolders hwf folder).wellFormed hwf, fun _ hd => .inl hd⟩

theorem respects_copyFile (hsource : c.source.text ≠ "") (htarget : c.target.text ≠ "")
    (hstyle : ∀ style, c.style = some style → ∀ css p, (style css p).Respects c.Mirroring)
    {relative : String} {xs : List String} (hspells : Spells relative xs) :
    (c.copyFile relative).Respects c.Mirroring := by
  have hmirrors : c.Mirrors ⟨c.sourceOf relative, c.targetOf relative⟩ := by
    refine ⟨xs, ?_, segments_join_spelled htarget hspells⟩
    change (c.sourceOf relative).segments = _
    unfold sourceOf
    split
    · rename_i hempty
      obtain rfl := String.isEmpty_iff.1 hempty
      obtain rfl : xs = [] := List.map_eq_nil_iff.1 hspells.2.symm
      exact (List.append_nil _).symm
    · exact segments_join_spelled hsource hspells
  have hverbatim : (copyFile.verbatim (c.sourceOf relative) (c.targetOf relative)).Respects
      c.Mirroring := by
    intro s u s' h
    obtain ⟨t, ht, rfl⟩ := Step.gives_deliver.1 (Step.gives_during.1 h)
    exact mirroring_delivery (.copy ht) hmirrors
  unfold copyFile
  dsimp only
  split
  · rename_i preprocess hpreprocess
    split
    · refine ((Step.Respects.read _).during _).bind fun css =>
        (hstyle _ hpreprocess css _).bind fun processed => ?_
      intro s u s' h
      obtain ⟨t, ht, rfl⟩ := Step.gives_write.1 (Step.gives_during.1 h)
      exact mirroring_delivery (.write _ ht) hmirrors
    · exact hverbatim
  · exact hverbatim

/-- What a folder lists are names. -/
theorem isName_of_mem_list {t : FileTree} (hwf : t.WellFormed) {p : Path} {x : String × Entry}
    (hx : x ∈ (t.list p).toOption.getD []) : IsName x.1 := by
  cases hlist : t.list p with
  | error e =>
    rw [hlist] at hx
    exact absurd hx List.not_mem_nil
  | ok xs =>
    rw [hlist] at hx
    obtain ⟨l, -, -, rfl⟩ := FileTree.list_eq_ok hlist
    exact (hwf.entry (hwf.get?_of_mem_children hx)).1.1

theorem respects_copyBelow (hsource : c.source.text ≠ "") (htarget : c.target.text ≠ "")
    (hstyle : ∀ style, c.style = some style → ∀ css p, (style css p).Respects c.Mirroring)
    (depth : Nat) {relative : String} {xs : List String} (hspells : Spells relative xs) :
    (c.copyBelow depth relative).Respects c.Mirroring := by
  induction depth generalizing relative xs with
  | zero => exact .fail _
  | succ depth ih =>
    intro s n s' h
    by_cases hwf : s.files.WellFormed
    · unfold copyBelow at h
      rw [Step.gives_bind] at h
      obtain ⟨t, s₁, hfiles, h⟩ := h
      obtain ⟨rfl, rfl⟩ := Step.gives_files.1 hfiles
      refine (respects_createFolder _).bind (fun _ => Step.Respects.foldlM
        (fun count x hx => ?_) 0) _ _ _ h
      have hspells' := spells_below hspells (isName_of_mem_list hwf hx)
      unfold copyEntry
      split
      · exact (ih hspells').bind fun n => .pure _
      · exact (respects_copyFile hsource htarget hstyle hspells').bind fun _ => .pure _
    · exact fun h => absurd h hwf

/-- **Copying a folder delivers the same names below the target.** -/
theorem respects_run (hsource : c.source.text ≠ "") (htarget : c.target.text ≠ "")
    (hstyle : ∀ style, c.style = some style → ∀ css p, (style css p).Respects c.Mirroring) :
    c.run.Respects c.Mirroring := by
  refine Step.Respects.files.bind fun t => ?_
  split
  · split
    · exact (respects_copyFile hsource htarget hstyle spells_empty).bind fun _ => .pure _
    · exact respects_copyBelow hsource htarget hstyle _ spells_empty
  · exact .pure _

end FolderCopy
end ElementBuild
