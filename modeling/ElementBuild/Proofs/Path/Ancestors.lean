/-
# The folders above a path

A path and the folders above it are the path itself, its parent folder, the parent folder of
that, and so on (`ancestors_eq`): each parent folder has a shorter text
(`length_parent?`), so the bound on their number, which is the length of the text, is never
met.
-/
import ElementBuild.Proofs.Path.Segments

namespace ElementBuild
namespace Path

theorem joinPieces_append {ps qs : List (List Char)} (hps : ps ≠ []) (hqs : qs ≠ []) :
    joinPieces (ps ++ qs) = joinPieces ps ++ '/' :: joinPieces qs := by
  induction ps with
  | nil => exact absurd rfl hps
  | cons p ps ih =>
    cases ps with
    | nil =>
      obtain ⟨q, qs, rfl⟩ := List.exists_cons_of_ne_nil hqs
      rfl
    | cons p' ps =>
      have htail := ih (List.cons_ne_nil p' ps)
      rw [List.cons_append] at htail
      change p ++ '/' :: joinPieces (p' :: (ps ++ qs)) = (p ++ '/' :: joinPieces (p' :: ps)) ++ _
      rw [htail, List.append_assoc, List.cons_append]

theorem joinPieces_ne_nil {p : List Char} {ps : List (List Char)} (hp : p ∈ ps) (hne : p ≠ []) :
    joinPieces ps ≠ [] := by
  obtain ⟨before, after, rfl⟩ := List.append_of_mem hp
  have hrest : joinPieces (p :: after) ≠ [] := by
    cases after with
    | nil => exact hne
    | cons q qs => exact List.append_ne_nil_of_right_ne_nil p (List.cons_ne_nil '/' _)
  by_cases hbefore : before = []
  · rw [hbefore]
    exact hrest
  · rw [joinPieces_append hbefore (List.cons_ne_nil p after)]
    exact List.append_ne_nil_of_right_ne_nil _ (List.cons_ne_nil '/' _)

/-- The folder above a path has a shorter text. -/
theorem length_parent? {p q : Path} (h : p.parent? = some q) : q.text.length < p.text.length := by
  have hlength : p.text.length = (joinPieces (pieces p.text.toList)).length := by
    rw [joinPieces_pieces, String.length_toList]
  obtain ⟨-, ⟨dropped, hdropped⟩, -, hhead⟩ := dropIdle_spec (pieces p.text.toList).reverse
  unfold parent? at h
  split at h
  · cases h
  · cases h
  · rename_i x before hroot hkept
    rw [hkept] at hdropped hhead
    obtain ⟨-, ⟨dropped', hdropped'⟩, -, -⟩ := dropIdle_spec before
    -- the text is what is left, followed by a piece that is not empty
    have hx : x ≠ [] := by
      rintro rfl
      by_cases hbefore : before = []
      · exact hroot rfl hbefore
      · exact hhead [] before rfl hbefore rfl
    have hpieces : pieces p.text.toList =
        (dropIdle before).reverse ++ (dropped'.reverse ++ x :: dropped.reverse) := by
      have hsame : (dropped ++ x :: before).reverse =
          (dropped ++ x :: (dropped' ++ dropIdle before)).reverse := by rw [← hdropped']
      rw [← List.reverse_reverse (pieces p.text.toList), hdropped, hsame]
      simp only [List.reverse_append, List.reverse_cons, List.append_assoc, List.singleton_append]
    rw [hlength, hpieces]
    have hback : joinPieces (dropped'.reverse ++ x :: dropped.reverse) ≠ [] :=
      joinPieces_ne_nil (List.mem_append_right _ (List.mem_cons_self ..)) hx
    have hpos := List.length_pos_iff.2 hback
    split at h
    · rename_i hleft
      obtain rfl := Option.some.inj h
      rw [hleft, joinPieces_append (by simp) (by simp), List.length_append, List.length_cons,
        show ("/" : String).length = 1 from rfl]
      omega
    · obtain rfl := Option.some.inj h
      rw [String.length_ofList]
      by_cases hleft : dropIdle before = []
      · simpa [hleft, joinPieces] using hpos
      · rw [joinPieces_append (by simpa using hleft) (by simp)]
        simp

/-- With enough fuel, the folders above a path do not depend on it. -/
theorem go_eq_go {n m : Nat} {p : Path} (hn : p.text.length ≤ n) (hm : p.text.length ≤ m) :
    ancestors.go n p = ancestors.go m p := by
  have hnone : ∀ {p : Path}, p.text.length ≤ 0 → p.parent? = none := fun hp => by
    rw [Option.eq_none_iff_forall_ne_some]
    exact fun q hq => absurd (length_parent? hq) (by omega)
  induction n generalizing m p with
  | zero =>
    cases m with
    | zero => rfl
    | succ m => rw [ancestors.go, ancestors.go, hnone hn]
  | succ n ih =>
    cases m with
    | zero => rw [ancestors.go, ancestors.go, hnone hm]
    | succ m =>
      rw [ancestors.go, ancestors.go]
      cases hparent : p.parent? with
      | none => rfl
      | some q =>
        have hq := length_parent? hparent
        exact congrArg (p :: ·) (ih (by omega) (by omega))

/-- **The folders above a path** are its parent folder and those above that. -/
theorem ancestors_eq (p : Path) : p.ancestors = p :: (p.parent?.map ancestors).getD [] := by
  rw [ancestors, go_eq_go (Nat.le_refl _) (Nat.le_succ _), ancestors.go]
  cases hparent : p.parent? with
  | none => rfl
  | some q =>
    have hq := length_parent? hparent
    exact congrArg (p :: ·) (go_eq_go (Nat.le_of_lt hq) (Nat.le_refl _))

/-- What stands behind a folder on the way up is above it. -/
theorem eq_of_ancestors_eq {p q : Path} {inner outer : List Path}
    (h : p.ancestors = inner ++ q :: outer) : outer = (q.parent?.map ancestors).getD [] := by
  induction inner generalizing p with
  | nil =>
    obtain ⟨rfl, houter⟩ := List.cons.inj ((ancestors_eq p).symm.trans h)
    exact houter.symm
  | cons x inner ih =>
    obtain ⟨-, hinner⟩ := List.cons.inj ((ancestors_eq p).symm.trans h)
    cases hparent : p.parent? with
    | none =>
      rw [hparent] at hinner
      simp at hinner
    | some r =>
      rw [hparent] at hinner
      exact ih hinner

end Path
end ElementBuild
