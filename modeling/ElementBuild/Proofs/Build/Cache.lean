/-
# The build cache

A build cache has one destination for a component.  Recording a component that is not
there adds its destination to the cache, and forgetting it leaves the others.
-/
import ElementBuild.Build.Session
import ElementBuild.Proofs.Path.Specifier

namespace ElementBuild

namespace BuildCache

variable {c : BuildCache} {k k' d : Path}

/-- A destination is recorded for one component, and the others keep theirs. -/
theorem get?_register (c : BuildCache) (k d k' : Path) :
    (c.register k d).get? k' = if k.same k' = true then some d else c.get? k' := by
  change (List.find? (fun e => e.1.same k') ((k, d) :: c.entries.filter fun e => !e.1.same k)).map
    (·.2) = _
  rw [List.find?_cons]
  by_cases hsame : k.same k' = true
  · rw [hsame, if_pos rfl]
    rfl
  · have hothers : (fun e : Path × Path => decide ((!e.1.same k) = true ∧ e.1.same k' = true)) =
        fun e => e.1.same k' := by
      funext e
      rw [Bool.eq_iff_iff, decide_eq_true_eq]
      refine ⟨And.right, fun he => ⟨?_, he⟩⟩
      rw [Bool.not_eq_true', Bool.eq_false_iff]
      intro hek
      rw [Path.same, beq_iff_eq] at hek he hsame
      exact hsame (hek.symm.trans he)
    rw [Bool.not_eq_true] at hsame
    rw [hsame, List.find?_filter, hothers, if_neg (by simp)]
    rfl

theorem get?_congr (c : BuildCache) (h : k.same k' = true) : c.get? k = c.get? k' := by
  have hsame : (fun e : Path × Path => e.1.same k) = fun e => e.1.same k' := by
    funext e
    rw [Path.same, Path.same, beq_iff_eq.1 h]
  rw [get?, get?, hsame]

theorem get?_eq_none : c.get? k = none ↔ ∀ e ∈ c.entries, e.1.same k = false := by
  rw [get?, Option.map_eq_none_iff, List.find?_eq_none]
  simp only [Bool.not_eq_true]

/-- A component that is not there is recorded beside the others. -/
theorem entries_register (h : c.get? k = none) : (c.register k d).entries = (k, d) :: c.entries := by
  have hothers : c.entries.filter (fun e => !e.1.same k) = c.entries :=
    List.filter_eq_self.2 fun e he => by rw [get?_eq_none.1 h e he, Bool.not_false]
  exact congrArg ((k, d) :: ·) hothers

/-- A component that is forgotten is not there. -/
theorem get?_evict (c : BuildCache) (k : Path) : (c.evict k).get? k = none := by
  refine get?_eq_none.2 fun e he => ?_
  simpa using (List.mem_filter.1 he).2

end BuildCache
end ElementBuild
