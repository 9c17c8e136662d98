/-
# Well-formed file trees

In a well-formed tree every entry has a proper name and lies in a folder.  A walk
through it ends at a folder or a file, or at an empty place of a folder
(`WellFormed.walkLinks`).  So whatever a build makes is put where it belongs
(`Puts`), and the tree stays well-formed and grows.
-/
import ElementBuild.Proofs.FileTree.Grows
import ElementBuild.Proofs.Path.Normal
import Mathlib.Data.List.Basic
import Mathlib.Data.List.Induction
import Mathlib.Logic.Relation

namespace ElementBuild

/-- A name that an entry of a folder may have. -/
def IsFileName (n : String) : Prop :=
  Path.IsName n ∧ n.utf8ByteSize ≤ FileTree.nameLimit ∧ '\x00' ∉ n.toList

instance (n : String) : Decidable (IsFileName n) := inferInstanceAs (Decidable (_ ∧ _))

/-- A link leads to a path without null characters. -/
def Entry.IsSound : Entry → Prop
  | .link target => '\x00' ∉ target.toList
  | _ => True

instance : ∀ e : Entry, Decidable e.IsSound
  | .folder => .isTrue trivial
  | .file _ => .isTrue trivial
  | .link _ => inferInstanceAs (Decidable (_ ∉ _))

namespace FileTree

/-- Every entry has a place and a name of its own in a folder. -/
structure WellFormed (t : FileTree) : Prop where
  nodup : (t.entries.map (·.1)).Nodup
  entries : ∀ x ∈ t.entries, x.1 ≠ [] ∧ IsFileName (x.1.getLastD "") ∧ x.2.IsSound ∧
    t.get? x.1.dropLast = some .folder
  current : t.get? t.current = some .folder

instance (t : FileTree) : Decidable t.WellFormed :=
  decidable_of_iff (_ ∧ _ ∧ _)
    ⟨fun ⟨h₁, h₂, h₃⟩ => ⟨h₁, h₂, h₃⟩, fun h => ⟨h.nodup, h.entries, h.current⟩⟩

theorem mem_of_get? {t : FileTree} {l : Location} {e : Entry} (hl : l ≠ []) (h : t.get? l = some e) :
    (l, e) ∈ t.entries := by
  cases l with
  | nil => exact absurd rfl hl
  | cons n ns =>
    obtain ⟨x, hx, rfl⟩ := Option.map_eq_some_iff.1 h
    have hkey := List.find?_some hx
    rw [← beq_iff_eq.1 hkey]
    exact List.mem_of_find?_eq_some hx

namespace WellFormed

variable {t : FileTree} (h : t.WellFormed)
include h

theorem entry {l : Location} {n : String} {e : Entry} (hget : t.get? (l ++ [n]) = some e) :
    IsFileName n ∧ e.IsSound ∧ t.get? l = some .folder := by
  obtain ⟨-, hname, hsound, hfolder⟩ := h.entries _ (mem_of_get? (by simp) hget)
  rw [List.getLastD_concat] at hname
  rw [List.dropLast_concat] at hfolder
  exact ⟨hname, hsound, hfolder⟩

theorem parent {l : Location} (hget : t.get? l = some .folder) :
    t.get? l.dropLast = some .folder := by
  rcases List.eq_nil_or_concat' l with rfl | ⟨l', n, rfl⟩
  · exact hget
  · rw [List.dropLast_concat]
    exact (h.entry hget).2.2

/-- What lies above an entry is a folder. -/
theorem above {l : Location} {ns : List String} {e : Entry} (hne : ns ≠ [])
    (hget : t.get? (l ++ ns) = some e) : t.get? l = some .folder := by
  induction ns using List.reverseRecOn generalizing e with
  | nil => exact absurd rfl hne
  | append_singleton ns n ih =>
    rw [← List.append_assoc] at hget
    have hfolder := (h.entry hget).2.2
    by_cases hns : ns = []
    · rw [hns, List.append_nil] at hfolder
      exact hfolder
    · exact ih hns hfolder

end WellFormed

/-! ### Where walks end -/

/-- A piece of a path without null characters. -/
structure IsPiece (piece : String) : Prop where
  ne_empty : piece ≠ ""
  noSlash : '/' ∉ piece.toList
  noNull : '\x00' ∉ piece.toList

theorem IsPiece.isFileName {piece : String} (h : IsPiece piece) (hname : IsEntryName piece) :
    IsFileName piece := by
  refine ⟨⟨?_, h.noSlash⟩, hname.short, h.noNull⟩
  have hlist : ∀ s : String, piece.toList = s.toList → piece = s := fun s => String.toList_inj.1
  change Segment.ofPiece? piece.toList = _
  unfold Segment.ofPiece?
  split
  · exact absurd (hlist "" ‹_›) h.ne_empty
  · exact absurd (hlist "." ‹_›) hname.notCurrent
  · exact absurd (hlist ".." ‹_›) hname.notParent
  · rw [String.ofList_toList]

theorem isPiece_of_mem_piecesOf {text : List Char} (h : '\x00' ∉ text) {piece : String}
    (hpiece : piece ∈ piecesOf text) : IsPiece piece := by
  have hnames : ∀ q ∈ ((Path.pieces text).filter (· ≠ [])).map String.ofList, IsPiece q := by
    intro q hq
    obtain ⟨cs, hcs, rfl⟩ := List.mem_map.1 hq
    obtain ⟨hmem, hne⟩ := List.mem_filter.1 hcs
    refine ⟨?_, ?_, ?_⟩
    · intro hempty
      rw [← String.toList_inj, String.toList_ofList] at hempty
      simp [hempty] at hne
    · rw [String.toList_ofList]
      exact Path.slash_not_mem_of_mem_pieces hmem
    · rw [String.toList_ofList]
      exact fun hnull => h (Path.mem_of_mem_pieces hmem hnull)
  unfold piecesOf at hpiece
  split at hpiece
  · rcases List.mem_append.1 hpiece with hpiece | hpiece
    · exact hnames _ hpiece
    · rw [List.mem_singleton.1 hpiece]
      exact ⟨by decide, by decide, by decide⟩
  · exact hnames _ hpiece

/-- Where a walk may end. -/
def EndsWell (t : FileTree) : Found → Prop
  | .entry l => t.get? l = some .folder ∨ ∃ content, t.get? l = some (.file content)
  | .vacant l n => t.get? l = some .folder ∧ t.get? (l ++ [n]) = none ∧ IsFileName n

namespace WellFormed

variable {t : FileTree} (h : t.WellFormed)
include h

theorem walk {follow : Location → List String → Except FileError Found}
    (hfollow : ∀ l ps r, t.get? l = some .folder → (∀ p ∈ ps, IsPiece p) → follow l ps = .ok r →
      t.EndsWell r) {ps : List String} {l : Location} {r : Found} (hl : t.get? l = some .folder)
    (hps : ∀ p ∈ ps, IsPiece p) (hwalk : t.walk follow l ps = .ok r) : t.EndsWell r := by
  induction ps generalizing l with
  | nil =>
    cases hwalk
    exact .inl hl
  | cons p ps ih =>
    have hrest : ∀ q ∈ ps, IsPiece q := fun q hq => hps q (List.mem_cons_of_mem _ hq)
    rcases walk_piece hwalk with rfl | rfl | hp
    · rw [walk_current] at hwalk
      exact ih hl hrest hwalk
    · rw [walk_parent] at hwalk
      exact ih (h.parent hl) hrest hwalk
    · cases hget : t.get? (l ++ [p]) with
      | none =>
        rw [walk_vacant hp hget] at hwalk
        split at hwalk
        · cases hwalk
          exact ⟨hl, hget, (hps p (List.mem_cons_self ..)).isFileName hp⟩
        · cases hwalk
      | some e =>
        cases e with
        | folder =>
          rw [walk_folder hp hget] at hwalk
          exact ih hget hrest hwalk
        | file content =>
          rw [walk_file hp hget] at hwalk
          split at hwalk
          · cases hwalk
            exact .inr ⟨content, hget⟩
          · cases hwalk
        | link target =>
          rw [walk_link hp hget] at hwalk
          split at hwalk
          · cases hwalk
          · refine hfollow _ _ _ ?_ ?_ hwalk
            · split
              · rfl
              · exact hl
            · intro q hq
              rcases List.mem_append.1 hq with hq | hq
              · exact isPiece_of_mem_piecesOf (h.entry hget).2.1 hq
              · exact hrest q hq

theorem walkLinks (n : Nat) {ps : List String} {l : Location} {r : Found}
    (hl : t.get? l = some .folder) (hps : ∀ p ∈ ps, IsPiece p)
    (hwalk : t.walkLinks n l ps = .ok r) : t.EndsWell r := by
  induction n generalizing l ps r with
  | zero => exact h.walk (fun _ _ _ _ _ hf => by cases hf) hl hps hwalk
  | succ n ih => exact h.walk (fun _ _ _ hl hps hf => ih hl hps hf) hl hps hwalk

/-- A walk over a `.` at the end leads to a folder. -/
theorem walk_dot {follow : Location → List String → Except FileError Found}
    (hfollow : ∀ l ps r, t.get? l = some .folder → follow l (ps ++ ["."]) = .ok r →
      ∃ folder, r = .entry folder ∧ t.get? folder = some .folder)
    {ps : List String} {l : Location} {r : Found} (hl : t.get? l = some .folder)
    (hwalk : t.walk follow l (ps ++ ["."]) = .ok r) :
    ∃ folder, r = .entry folder ∧ t.get? folder = some .folder := by
  induction ps generalizing l with
  | nil =>
    rw [List.nil_append, walk_current] at hwalk
    cases hwalk
    exact ⟨l, rfl, hl⟩
  | cons p ps ih =>
    have hrest : (ps ++ ["."]).isEmpty = false := by simp
    rw [List.cons_append] at hwalk
    rcases walk_piece hwalk with rfl | rfl | hp
    · rw [walk_current] at hwalk
      exact ih hl hwalk
    · rw [walk_parent] at hwalk
      exact ih (h.parent hl) hwalk
    · cases hget : t.get? (l ++ [p]) with
      | none =>
        rw [walk_vacant hp hget, hrest] at hwalk
        cases hwalk
      | some e =>
        cases e with
        | folder =>
          rw [walk_folder hp hget] at hwalk
          exact ih hget hwalk
        | file content =>
          rw [walk_file hp hget, hrest] at hwalk
          cases hwalk
        | link target =>
          rw [walk_link hp hget] at hwalk
          split at hwalk
          · cases hwalk
          · rw [← List.append_assoc] at hwalk
            refine hfollow _ _ _ ?_ hwalk
            split
            · rfl
            · exact hl

theorem walkLinks_dot (n : Nat) {ps : List String} {l : Location} {r : Found}
    (hl : t.get? l = some .folder) (hwalk : t.walkLinks n l (ps ++ ["."]) = .ok r) :
    ∃ folder, r = .entry folder ∧ t.get? folder = some .folder := by
  induction n generalizing l ps r with
  | zero => exact h.walk_dot (fun _ _ _ _ hf => by cases hf) hl hwalk
  | succ n ih => exact h.walk_dot (fun _ _ _ hl hf => ih hl hf) hl hwalk

end WellFormed
/-! ### Putting entries where they belong -/

/-- A folder or a file is put where there was nothing, or a file in the place of a
file. -/
inductive Puts (t : FileTree) : Location → FileTree → Prop where
  | folder {l : Location} {n : String} (hl : t.get? l = some .folder) (hn : IsFileName n)
      (hvacant : t.get? (l ++ [n]) = none) : Puts t (l ++ [n]) (t.set (l ++ [n]) .folder)
  | file {l : Location} {n : String} (content : Content) (hl : t.get? l = some .folder)
      (hn : IsFileName n)
      (hold : t.get? (l ++ [n]) = none ∨ ∃ old, t.get? (l ++ [n]) = some (.file old)) :
      Puts t (l ++ [n]) (t.set (l ++ [n]) (.file content))

theorem mem_setIn {l : Location} {e : Entry} {xs : List (Location × Entry)}
    {x : Location × Entry} (h : x ∈ setIn l e xs) : x = (l, e) ∨ x ∈ xs := by
  induction xs with
  | nil => exact .inl (List.mem_singleton.1 h)
  | cons y ys ih =>
    unfold setIn at h
    split at h
    · exact (List.mem_cons.1 h).imp_right (List.mem_cons_of_mem _)
    · rcases List.mem_cons.1 h with rfl | h
      · exact .inr (List.mem_cons_self ..)
      · exact (ih h).imp_right (List.mem_cons_of_mem _)

theorem map_fst_setIn (l : Location) (e : Entry) (xs : List (Location × Entry)) :
    (setIn l e xs).map (·.1) = if l ∈ xs.map (·.1) then xs.map (·.1) else xs.map (·.1) ++ [l] := by
  induction xs with
  | nil => rfl
  | cons x xs ih =>
    unfold setIn
    by_cases hx : x.1 = l
    · simp [hx]
    · rw [if_neg hx, List.map_cons, ih]
      by_cases hl : l ∈ xs.map (·.1)
      · simp [hl]
      · simp [hl, Ne.symm hx]

namespace Puts

variable {t t' : FileTree} {l : Location} (h : t.Puts l t')
include h

theorem grows : t.Grows t' := by
  cases h with
  | folder hl hn hvacant =>
    refine Grows.set (by simp) fun e₀ he₀ => ?_
    rw [hvacant] at he₀
    cases he₀
  | file content hl hn hold =>
    refine Grows.set (by simp) fun e₀ he₀ => ?_
    rcases hold with hold | ⟨old, hold⟩
    · rw [hold] at he₀
      cases he₀
    · rw [hold] at he₀
      cases he₀
      exact ⟨content, rfl⟩

theorem wellFormed (hwf : t.WellFormed) : t'.WellFormed := by
  have hgrows := h.grows
  have hset : ∀ {l : Location} {n : String} {e : Entry}, t.get? l = some .folder → IsFileName n →
      e.IsSound → t' = t.set (l ++ [n]) e → t'.WellFormed := by
    rintro l n e hl hn he rfl
    refine ⟨?_, fun x hx => ?_, hgrows.folder hwf.current⟩
    · change ((setIn (l ++ [n]) e t.entries).map (·.1)).Nodup
      rw [map_fst_setIn]
      split
      · exact hwf.nodup
      · rw [List.nodup_append]
        refine ⟨hwf.nodup, by simp, fun a ha b hb heq => ?_⟩
        rw [List.mem_singleton.1 hb] at heq
        subst heq
        contradiction
    · rcases mem_setIn hx with rfl | hx
      · rw [List.getLastD_concat, List.dropLast_concat]
        exact ⟨by simp, hn, he, hgrows.folder hl⟩
      · obtain ⟨hne, hname, hsound, hfolder⟩ := hwf.entries x hx
        exact ⟨hne, hname, hsound, hgrows.folder hfolder⟩
  cases h with
  | folder hl hn hvacant => exact hset (e := .folder) hl hn trivial rfl
  | file content hl hn hold => exact hset (e := .file content) hl hn trivial rfl

/-- No link is made. -/
theorem link {l' : Location} {target : String} (hlink : t'.get? l' = some (.link target)) :
    t.get? l' = some (.link target) := by
  cases h with
  | folder hl hn hvacant =>
    rw [get?_set t (by simp)] at hlink
    split at hlink
    · cases hlink
    · exact hlink
  | file content hl hn hold =>
    rw [get?_set t (by simp)] at hlink
    split at hlink
    · cases hlink
    · exact hlink

/-- Elsewhere nothing changes. -/
theorem get?_of_ne {l' : Location} (hne : l' ≠ l) : t'.get? l' = t.get? l' := by
  cases h with
  | folder hl hn hvacant => rw [get?_set t (by simp), if_neg hne]
  | file content hl hn hold => rw [get?_set t (by simp), if_neg hne]

end Puts

namespace WellFormed

variable {t : FileTree} (h : t.WellFormed)
include h

theorem find {p : Path} {r : Found} (hfind : t.find p = .ok r) : t.EndsWell r := by
  obtain ⟨husable, hwalk⟩ := find_eq_ok.1 hfind
  refine h.walkLinks _ ?_ (fun q hq => isPiece_of_mem_piecesOf husable.clear hq) hwalk
  split
  · rfl
  · exact h.current

/-- What a path leads to is a folder or a file. -/
theorem locate {p : Path} {l : Location} (hl : t.locate p = .ok l) :
    t.get? l = some .folder ∨ ∃ content, t.get? l = some (.file content) :=
  h.find (locate_eq_ok.1 hl)

end WellFormed
end FileTree
end ElementBuild
