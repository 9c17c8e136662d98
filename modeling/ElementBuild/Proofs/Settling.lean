/-
# Steps with enough depth

Scripts and components are followed to a depth, and a step that is left without depth fails
with a fault of its own.  Most steps never do (`Step.IsBounded`), and this is a law.

Where two steps follow something to different depths and both have enough of it, they have
the same run (`Step.Agrees`).  That is said of one session, because the depth that is enough
depends on what the session remembers.
-/
import ElementBuild.Proofs.Bundlers

namespace ElementBuild
namespace Step

variable {α β γ : Type}

/-- No run of the step fails for want of depth. -/
def IsBounded (x : Step α) : Prop :=
  ∀ s e t, (x.run.run s : Except Failure α × Session) = (.error e, t) → e.fault ≠ .endless

instance : BoundedLaw IsBounded where
  pure _ _ _ _ h := by cases h
  bind {_ _ x f} hx hf s e t h := by
    rcases hrun : (x.run.run s : Except Failure _ × Session) with ⟨e' | a, u⟩
    · rw [run_bind_error hrun] at h
      cases h
      exact hx s _ _ hrun
    · rw [run_bind_ok hrun] at h
      exact hf a u e t h
  refuse f hf s e t h := by
    cases h
    exact hf
  get _ _ _ h := by cases h
  during {_ x} a hx s e t h := by
    rw [run_during] at h
    rcases hrun : (x.run.run s : Except Failure _ × Session) with ⟨e' | a, u⟩
    · rw [hrun] at h
      cases h
      exact hx s e' _ hrun
    · rw [hrun] at h
      cases h

theorem isBounded_modify (f : Session → Session) : (modify f : Step PUnit).IsBounded :=
  fun _ _ _ h => by cases h

theorem isBounded_quiet : Law.Quiet IsBounded where
  modify f _ _ := isBounded_modify f
  followed _ := isBounded_modify _
  pointed _ := isBounded_modify _

/-- Two steps have the same run from a session, which does not fail for want of depth. -/
structure Agrees (x y : Step α) (s : Session) : Prop where
  same : (x.run.run s : Except Failure α × Session) = y.run.run s
  settled : ∀ e t, (x.run.run s : Except Failure α × Session) = (.error e, t) → e.fault ≠ .endless

theorem IsBounded.agrees {x : Step α} (h : x.IsBounded) (s : Session) : x.Agrees x s := ⟨rfl, h s⟩

namespace Agrees

variable {x x' : Step α} {f f' : α → Step β} {s : Session}

/-- What both steps give is handed on. -/
protected theorem bind (h : x.Agrees x' s) (hf : ∀ a t, x.Gives s a t → (f a).Agrees (f' a) t) :
    (x >>= f).Agrees (x' >>= f') s := by
  have hsame := h.same
  rcases hrun : (x.run.run s : Except Failure α × Session) with ⟨e | a, t⟩
  · rw [hrun] at hsame
    have hleft := run_bind_error (f := f) hrun
    refine ⟨hleft.trans (run_bind_error hsame.symm).symm, fun e' t' h' => ?_⟩
    rw [hleft] at h'
    cases h'
    exact h.settled _ _ hrun
  · rw [hrun] at hsame
    have hleft := run_bind_ok (f := f) hrun
    have hlater := hf a t hrun
    refine ⟨?_, fun e' t' h' => ?_⟩
    · rw [hleft, hlater.same]
      exact (run_bind_ok hsame.symm).symm
    · rw [hleft] at h'
      exact hlater.settled e' t' h'

protected theorem during (a : Activity) (h : x.Agrees x' s) :
    (Step.during a x).Agrees (Step.during a x') s := by
  refine ⟨by rw [run_during, run_during, h.same], fun e t he => ?_⟩
  rw [run_during] at he
  rcases hrun : (x.run.run s : Except Failure α × Session) with ⟨e' | a, u⟩
  · rw [hrun] at he
    cases he
    exact h.settled e' _ hrun
  · rw [hrun] at he
    cases he

/-- A component is compiled in the session where it is recorded. -/
protected theorem attempt {entry destination : Path} {x x' : Step Unit}
    (h : x.Agrees x' (s.begin entry destination)) :
    (Step.attempt entry destination x).Agrees (Step.attempt entry destination x') s := by
  refine ⟨by rw [run_attempt, run_attempt, h.same], fun e t he => ?_⟩
  rw [run_attempt] at he
  rcases hrun : (x.run.run (s.begin entry destination) : Except Failure Unit × Session) with
    ⟨e' | a, u⟩
  · rw [hrun] at he
    cases he
    exact h.settled _ _ hrun
  · rw [hrun] at he
    cases he

/-- Rounds of a fold agree in all sessions that later rounds are reached in. -/
protected theorem foldlM {r : Session → Session → Prop} [IsPreorder Session r]
    {g g' : β → γ → Step β} {xs : List γ} (hr : ∀ b, ∀ x ∈ xs, (g b x).Respects r)
    (hg : ∀ b, ∀ x ∈ xs, ∀ t, r s t → (g b x).Agrees (g' b x) t)
    (b : β) {t : Session} (ht : r s t) : (xs.foldlM g b).Agrees (xs.foldlM g' b) t := by
  induction xs generalizing b t with
  | nil => exact IsBounded.agrees (BoundedLaw.pure b) t
  | cons x xs ih =>
    rw [List.foldlM_cons, List.foldlM_cons]
    refine (hg b x List.mem_cons_self t ht).bind fun c u hu => ?_
    exact ih (fun b y hy => hr b y (List.mem_cons_of_mem x hy))
      (fun b y hy => hg b y (List.mem_cons_of_mem x hy)) c
      (trans_of r ht (hr b x List.mem_cons_self t c u hu))

end Agrees
end Step
end ElementBuild
