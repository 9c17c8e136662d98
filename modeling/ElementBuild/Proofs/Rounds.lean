/-
# Rounds of a fold

A fold of steps over a list comes to each element with what the elements before it gave, and
in the session that they left (`Step.Reaches`).  What each round keeps true, the fold does
(`Step.foldlM_induction`), and two folds over one list give the same if their rounds do
(`Step.Reaches.agree`).
-/
import ElementBuild.Proofs.Step
import Mathlib.Data.List.Induction

namespace ElementBuild
namespace Step

variable {α β : Type}

/-- A step has one result from a session. -/
theorem Gives.unique {x : Step α} {s t t' : Session} {a a' : α} (h : x.Gives s a t)
    (h' : x.Gives s a' t') : a = a' ∧ t = t' := by
  unfold Gives at h h'
  rw [h] at h'
  obtain ⟨ha, rfl⟩ := Prod.mk.inj h'
  exact ⟨Except.ok.inj ha, rfl⟩

/-- A fold comes to an element with what the elements before it gave. -/
def Reaches (f : β → α → Step β) (xs : List α) (b : β) (s : Session) (x : α) (c : β)
    (t : Session) : Prop :=
  ∃ before after, xs = before ++ x :: after ∧ (before.foldlM f b).Gives s c t

/-- A fold that ends well comes to each element. -/
theorem exists_reaches {f : β → α → Step β} {xs : List α} {b d : β} {s s' : Session}
    {x : α} (hx : x ∈ xs) (hxs : (xs.foldlM f b).Gives s d s') : ∃ c t, Reaches f xs b s x c t := by
  obtain ⟨before, after, rfl⟩ := List.append_of_mem hx
  have hfold := hxs
  rw [List.foldlM_append, gives_bind] at hfold
  obtain ⟨c, t, hbefore, -⟩ := hfold
  exact ⟨c, t, before, after, rfl, hbefore⟩

/-- What a fold that ends well comes to, it handles, and goes on. -/
theorem Reaches.exists_gives {f : β → α → Step β} {xs : List α} {b c d : β} {s t s' : Session}
    {x : α} (h : Reaches f xs b s x c t) (hxs : (xs.foldlM f b).Gives s d s') :
    ∃ c' t' after, after ⊆ xs ∧ (f c x).Gives t c' t' ∧ (after.foldlM f c').Gives t' d s' := by
  obtain ⟨before, after, rfl, hbefore⟩ := h
  rw [List.foldlM_append, gives_bind] at hxs
  obtain ⟨c₁, t₁, hbefore', hrest⟩ := hxs
  obtain ⟨rfl, rfl⟩ := hbefore.unique hbefore'
  rw [List.foldlM_cons, gives_bind] at hrest
  obtain ⟨c', t', hx, hafter⟩ := hrest
  exact ⟨c', t', after, fun y hy => List.mem_append_right _ (List.mem_cons_of_mem _ hy), hx, hafter⟩

/-- What the rounds of a fold respect relates the session that it starts from to the one
where it comes to an element. -/
theorem Reaches.relates {r : Session → Session → Prop} [IsPreorder Session r]
    {f : β → α → Step β} {xs : List α} {b c : β} {s t : Session} {x : α}
    (h : Reaches f xs b s x c t) (hf : ∀ b, ∀ y ∈ xs, (f b y).Respects r) : r s t := by
  obtain ⟨before, after, rfl, hbefore⟩ := h
  exact Respects.foldlM (fun b y hy => hf b y (List.mem_append_left _ hy)) _ _ _ _ hbefore

theorem Reaches.mem {f : β → α → Step β} {xs : List α} {b c : β} {s t : Session} {x : α}
    (h : Reaches f xs b s x c t) : x ∈ xs := by
  obtain ⟨before, after, rfl, -⟩ := h
  exact List.mem_append_right _ List.mem_cons_self

/-- What each round of a fold keeps true of the session, wherever it comes to an element, is
true of the session that the fold leaves. -/
theorem foldlM_induction {f : β → α → Step β} {xs : List α} {b c : β} {s s' : Session}
    (hxs : (xs.foldlM f b).Gives s c s') (Q : Session → Prop) (hs : Q s)
    (h : ∀ x d t d' t', Reaches f xs b s x d t → Q t → (f d x).Gives t d' t' → Q t') : Q s' := by
  induction xs using List.reverseRecOn generalizing c s' with
  | nil =>
    obtain ⟨-, rfl⟩ := gives_pure.1 hxs
    exact hs
  | append_singleton xs x ih =>
    rw [List.foldlM_append, gives_bind] at hxs
    obtain ⟨d, t, hxs, hlast⟩ := hxs
    rw [List.foldlM_cons, gives_bind] at hlast
    obtain ⟨d', t', hx, hlast⟩ := hlast
    obtain ⟨-, rfl⟩ := gives_pure.1 hlast
    refine h x d t _ _ ⟨xs, [], rfl, hxs⟩ (ih hxs ?_) hx
    rintro y e u e' u' ⟨before, after, rfl, hbefore⟩ hu hy
    exact h y e u e' u' ⟨before, after ++ [x], by simp, hbefore⟩ hu hy

/-- Two folds over the same elements give the same if they do so whenever they come to an
element with the same. -/
theorem Reaches.agree {f g : β → α → Step β} {xs : List α} {b c d : β} {s s' u u' : Session}
    (hf : (xs.foldlM f b).Gives s c s') (hg : (xs.foldlM g b).Gives u d u')
    (h : ∀ x e t v, Reaches f xs b s x e t → Reaches g xs b u x e v → ∀ e₁ e₂ t' v',
      (f e x).Gives t e₁ t' → (g e x).Gives v e₂ v' → e₁ = e₂) : c = d := by
  induction xs using List.reverseRecOn generalizing c d s' u' with
  | nil =>
    obtain ⟨rfl, -⟩ := gives_pure.1 hf
    obtain ⟨rfl, -⟩ := gives_pure.1 hg
    rfl
  | append_singleton xs x ih =>
    rw [List.foldlM_append, gives_bind] at hf hg
    obtain ⟨e, t, hf, hlast⟩ := hf
    obtain ⟨e', v, hg, hlast'⟩ := hg
    have hlonger : ∀ {k : β → α → Step β} {w y e t}, Reaches k xs b w y e t →
        Reaches k (xs ++ [x]) b w y e t := by
      rintro k w y e t ⟨before, after, rfl, hbefore⟩
      exact ⟨before, after ++ [x], by simp, hbefore⟩
    obtain rfl : e = e' := ih hf hg fun y e t v hy hy' => h y e t v (hlonger hy) (hlonger hy')
    rw [List.foldlM_cons, gives_bind] at hlast hlast'
    obtain ⟨e₁, t₁, hx, hlast⟩ := hlast
    obtain ⟨e₂, v₁, hx', hlast'⟩ := hlast'
    obtain ⟨rfl, -⟩ := gives_pure.1 hlast
    obtain ⟨rfl, -⟩ := gives_pure.1 hlast'
    exact h x e t v ⟨xs, [], rfl, hf⟩ ⟨xs, [], rfl, hg⟩ _ _ _ _ hx hx'

end Step

end ElementBuild
