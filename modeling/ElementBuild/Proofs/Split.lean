/-
# Texts that are split at a character

To read a text character by character, with a new part behind each separator, is to split it
there (`eq_splitOn`).  So what is known of splitting holds of paths and their pieces, of names and
their groups, and of texts and their lines.
-/

namespace ElementBuild

variable {α : Type} [DecidableEq α] {sep : α}

/-- Reading that opens a part behind each separator splits. -/
theorem eq_splitOn {f : List α → List (List α)} (hnil : f [] = [[]])
    (hsep : ∀ cs, f (sep :: cs) = [] :: f cs)
    (hcons : ∀ c cs p ps, c ≠ sep → f cs = p :: ps → f (c :: cs) = (c :: p) :: ps) (cs : List α) :
    f cs = cs.splitOn sep := by
  induction cs with
  | nil => exact hnil
  | cons c cs ih =>
    rw [List.splitOn_cons_eq_if_modifyHead]
    by_cases hc : c = sep
    · rw [hc, hsep, ih, if_pos (beq_self_eq_true sep)]
    · obtain ⟨p, ps, hparts⟩ := List.exists_cons_of_ne_nil (List.splitOn_ne_nil sep cs)
      rw [if_neg (by simpa using hc), hparts, List.modifyHead_cons]
      exact hcons c cs p ps hc (ih.trans hparts)

theorem not_mem_of_mem_splitOn {part cs : List α} (h : part ∈ cs.splitOn sep) : sep ∉ part := by
  induction cs generalizing part with
  | nil =>
    rw [List.mem_singleton.1 h]
    exact List.not_mem_nil
  | cons c cs ih =>
    obtain ⟨p, ps, hparts⟩ := List.exists_cons_of_ne_nil (List.splitOn_ne_nil sep cs)
    rw [List.splitOn_cons_eq_if_modifyHead, hparts] at h
    split at h
    · rcases List.mem_cons.1 h with rfl | h
      · exact List.not_mem_nil
      · exact ih (hparts ▸ h)
    · rename_i hc
      rw [List.modifyHead_cons] at h
      rcases List.mem_cons.1 h with rfl | h
      · rw [List.mem_cons, not_or]
        exact ⟨fun heq => hc (beq_iff_eq.2 heq.symm), ih (hparts ▸ List.mem_cons_self)⟩
      · exact ih (hparts ▸ List.mem_cons_of_mem p h)

end ElementBuild
