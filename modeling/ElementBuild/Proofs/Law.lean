/-
# Laws of steps

A law is a property of steps that passes from the parts of a step to the whole
(`Step.Law`).  What successful runs respect is a law, and so is a relation between the
sessions before and after all runs, which may tell the runs that fail from the others
(`Step.Ends`).
-/
import ElementBuild.Proofs.Step

namespace ElementBuild
namespace Step

/-- A property of steps that passes from the parts of a step to the whole, and that steps
have that fail, but not for want of depth. -/
class BoundedLaw (P : ∀ {α : Type}, Step α → Prop) : Prop where
  pure : ∀ {α : Type} (a : α), P (Pure.pure a : Step α)
  bind : ∀ {α β : Type} {x : Step α} {f : α → Step β}, P x → (∀ a, P (f a)) → P (x >>= f)
  refuse : ∀ {α : Type} (f : Failure), f.fault ≠ .endless → P (MonadExcept.throw f : Step α)
  get : P (MonadState.get : Step Session)
  during : ∀ {α : Type} {x : Step α} (a : Activity), P x → P (Step.during a x)

/-- A property of steps that passes from the parts of a step to the whole. -/
class Law (P : ∀ {α : Type}, Step α → Prop) : Prop extends BoundedLaw P where
  throw : ∀ {α : Type} (f : Failure), P (MonadExcept.throw f : Step α)
  refuse f _ := throw f

namespace Law

export BoundedLaw (pure bind get during)

variable {P : ∀ {α : Type}, Step α → Prop} {α β ε : Type}

/-- A step that gives up for want of depth, too. -/
theorem giveUp [Law P] : P (Step.fail .endless : Step α) := throw _

variable [BoundedLaw P]

theorem fail (f : Fault) (hf : f ≠ .endless := by nofun) : P (Step.fail f : Step α) :=
  BoundedLaw.refuse _ hf

theorem ofExcept (fault : ε → Fault) (e : Except ε α)
    (hfault : ∀ e, fault e ≠ .endless := by nofun) : P (Step.ofExcept fault e) := by
  cases e with
  | error e => exact fail _ (hfault e)
  | ok a => exact pure a

/-- After a computation, a step is taken with what it gave. -/
theorem ofExcept_bind {fault : ε → Fault} {e : Except ε α} {f : α → Step β}
    (h : ∀ a, e = .ok a → P (f a)) (hfault : ∀ e, fault e ≠ .endless := by nofun) :
    P (Step.ofExcept fault e >>= f) := by
  cases e with
  | error e => exact fail (fault e) (hfault e)
  | ok a => exact h a rfl

theorem files : P Step.files := bind get fun _ => pure _

theorem fromFiles (f : FileTree → Except FileError α) : P (Step.fromFiles f) :=
  bind files fun _ => ofExcept _ _

theorem read (p : Path) : P (Step.read p) := fromFiles _

theorem resolve (specifier : String) (paths : List Path) : P (Step.resolve specifier paths) :=
  bind files fun _ => ofExcept _ _

theorem edit (d : Text.Draft) (e : Text.Edit) : P (Step.edit d e) := ofExcept _ _

/-- What each round of a fold has, the fold has. -/
theorem foldlM {f : β → α → Step β} {xs : List α} (hf : ∀ b, ∀ x ∈ xs, P (f b x)) :
    ∀ b, P (xs.foldlM f b) := by
  induction xs with
  | nil => exact fun b => pure b
  | cons x xs ih =>
    intro b
    rw [List.foldlM_cons]
    exact bind (hf b x (List.mem_cons_self ..))
      fun c => ih (fun b y hy => hf b y (List.mem_cons_of_mem _ hy)) c

theorem forM {f : α → Step PUnit} (hf : ∀ x, P (f x)) (xs : List α) : P (xs.forM f) := by
  induction xs with
  | nil => exact pure _
  | cons x xs ih => exact bind (hf x) fun _ => ih

end Law

instance {r : Session → Session → Prop} [IsPreorder Session r] : Law (Respects r) where
  pure := .pure
  bind := .bind
  throw _ := fun _ _ _ h => absurd h gives_throw
  get := .get
  during a h := h.during a

/-! ### All runs -/

/-- A relation between the sessions before and after a run that composes; it is told
whether the run succeeded. -/
class IsOutcome (R : Bool → Session → Session → Prop) : Prop where
  refl : ∀ ok s, R ok s s
  trans : ∀ {ok s t u}, R true s t → R ok t u → R ok s u

/-- Each run of the step, whether it fails or not, relates the session it starts from to
the one it leaves. -/
def Ends {α : Type} (R : Bool → Session → Session → Prop) (x : Step α) : Prop :=
  ∀ s, R (x.run.run s : Except Failure α × Session).1.isOk s
    (x.run.run s : Except Failure α × Session).2

namespace Ends

variable {R : Bool → Session → Session → Prop} {α β : Type}

theorem of_gives {x : Step α} (h : x.Ends R) {s s' : Session} {a : α} (hx : x.Gives s a s') :
    R true s s' := by
  have hs := h s
  unfold Gives at hx
  rw [hx] at hs
  exact hs

/-- The rest of a step is run where its first part succeeds. -/
theorem of_bind {x : Step α} {f : α → Step β} {s : Session}
    (herror : ∀ e t, (x.run.run s : Except Failure α × Session) = (.error e, t) → R false s t)
    (hok : ∀ a t, x.Gives s a t → R ((f a).run.run t : Except Failure β × Session).1.isOk s
      ((f a).run.run t : Except Failure β × Session).2) :
    R ((x >>= f).run.run s : Except Failure β × Session).1.isOk s
      ((x >>= f).run.run s : Except Failure β × Session).2 := by
  rcases hx : (x.run.run s : Except Failure α × Session) with ⟨e | a, t⟩
  · rw [run_bind_error hx]
    exact herror e t hx
  · rw [run_bind_ok hx]
    exact hok a t hx

protected theorem during {x : Step α} (a : Activity) (hx : x.Ends R) :
    (Step.during a x).Ends R := by
  intro s
  have hs := hx s
  rw [run_during]
  rcases hrun : (x.run.run s : Except Failure α × Session) with ⟨e | c, t⟩
  · rw [hrun] at hs
    exact hs
  · rw [hrun] at hs
    exact hs

/-- What a step leads to, after another one that need not lead to the same. -/
theorem bind_trans {R' : Bool → Session → Session → Prop} {x : Step α} {f : α → Step β}
    (hx : x.Ends R) (hf : ∀ a, (f a).Ends R') (hfails : ∀ {s t}, R false s t → R' false s t)
    (htrans : ∀ {ok s t u}, R true s t → R' ok t u → R' ok s u) : (x >>= f).Ends R' :=
  fun s => of_bind
    (fun e t h => by
      have hs := hx s
      rw [h] at hs
      exact hfails hs)
    fun a t h => htrans (hx.of_gives h) (hf a t)

theorem modify [IsOutcome R] {f : Session → Session} (h : ∀ s, R true s (f s)) :
    (modify f : Step PUnit).Ends R := h

instance {r : Session → Session → Prop} [IsPreorder Session r] : IsOutcome fun _ => r where
  refl _ s := refl_of r s
  trans h₁ h₂ := trans_of r h₁ h₂

instance [IsOutcome R] : Law (Ends R) where
  pure _ s := IsOutcome.refl _ s
  bind hx hf := hx.bind_trans hf id IsOutcome.trans
  throw _ s := IsOutcome.refl _ s
  get s := IsOutcome.refl _ s
  during a h := h.during a

/-- A step that fails without a change. -/
theorem of_respects {r : Session → Session → Prop} [IsPreorder Session r] {x : Step α}
    (hx : x.Respects r) (herror : ∀ s e t,
      (x.run.run s : Except Failure α × Session) = (.error e, t) → t = s) :
    x.Ends fun _ => r := by
  intro s
  rcases hrun : (x.run.run s : Except Failure α × Session) with ⟨e | a, t⟩
  · obtain rfl := herror s e t hrun
    exact refl_of r t
  · exact hx s a t hrun

protected theorem bind [IsOutcome R] {x : Step α} {f : α → Step β} (hx : x.Ends R)
    (hf : ∀ a, (f a).Ends R) : (x >>= f).Ends R := Law.bind (P := Ends R) hx hf

protected theorem giveUp [IsOutcome R] : (Step.fail .endless : Step α).Ends R :=
  Law.giveUp (P := Ends R)

protected theorem pure [IsOutcome R] (a : α) : (Pure.pure a : Step α).Ends R :=
  Law.pure (P := Ends R) a

protected theorem read [IsOutcome R] (p : Path) : (Step.read p).Ends R := Law.read (P := Ends R) p

protected theorem resolve [IsOutcome R] (specifier : String) (paths : List Path) :
    (Step.resolve specifier paths).Ends R := Law.resolve (P := Ends R) specifier paths

protected theorem foldlM [IsOutcome R] {f : β → α → Step β} {xs : List α}
    (hf : ∀ b, ∀ x ∈ xs, (f b x).Ends R) (b : β) : (xs.foldlM f b).Ends R :=
  Law.foldlM (P := Ends R) hf b

protected theorem edit [IsOutcome R] (d : Text.Draft) (e : Text.Edit) : (Step.edit d e).Ends R :=
  Law.edit (P := Ends R) d e

end Ends
end Step
end ElementBuild
