/-
# Successful steps

`x.Gives s a s'` says that the step `x`, started in the session `s`, succeeds with
the result `a` and leaves the session `s'`.  The lemmas `gives_*` take a step apart
into the steps that it is made of, so what a build does is read off its successful
run, from the last step back to the first.

`x.Respects r` says that each successful run relates the session before it to the
one after it.  It is proved for a step from the same for its parts, and for a fold
from the same for one round.
-/
import ElementBuild.Build.Session
import Mathlib.Order.Defs.Unbundled

namespace ElementBuild
namespace Step

variable {α β : Type}

/-- The step succeeds: from a session it gives a result and leaves a session. -/
def Gives (x : Step α) (s : Session) (a : α) (s' : Session) : Prop :=
  (x.run.run s : Except Failure α × Session) = (.ok a, s')

/-- A step that ends well on a session gives what it ends with. -/
theorem gives_of_run {x : Step α} {s : Session} {a : α}
    (h : (x.run.run s : Except Failure α × Session).1.toOption = some a) :
    x.Gives s a (x.run.run s : Except Failure α × Session).2 := by
  unfold Gives
  rcases hr : (x.run.run s : Except Failure α × Session) with ⟨r, s'⟩
  rw [hr] at h
  cases r with
  | error f => simp [Except.toOption] at h
  | ok b => obtain rfl : b = a := by simpa [Except.toOption] using h
            rfl

@[simp] theorem gives_pure {a b : α} {s s' : Session} :
    (pure a : Step α).Gives s b s' ↔ b = a ∧ s' = s := by
  constructor
  · intro h
    cases h
    exact ⟨rfl, rfl⟩
  · rintro ⟨rfl, rfl⟩
    rfl

theorem run_bind_ok {x : Step α} {f : α → Step β} {s t : Session} {a : α} (h : x.Gives s a t) :
    ((x >>= f).run.run s : Except Failure β × Session) = (f a).run.run t := by
  unfold Gives at h
  simp only [ExceptT.run_bind, StateT.run_bind, h]
  rfl

theorem run_bind_error {x : Step α} {f : α → Step β} {s t : Session} {e : Failure}
    (h : (x.run.run s : Except Failure α × Session) = (.error e, t)) :
    ((x >>= f).run.run s : Except Failure β × Session) = (.error e, t) := by
  simp only [ExceptT.run_bind, StateT.run_bind, h]
  rfl

@[simp] theorem gives_bind {x : Step α} {f : α → Step β} {s s' : Session} {b : β} :
    (x >>= f).Gives s b s' ↔ ∃ a t, x.Gives s a t ∧ (f a).Gives t b s' := by
  constructor
  · intro h
    rcases hx : (x.run.run s : Except Failure α × Session) with ⟨e | a, t⟩
    · unfold Gives at h
      rw [run_bind_error hx] at h
      cases h
    · exact ⟨a, t, hx, (run_bind_ok hx).symm.trans h⟩
  · rintro ⟨a, t, hx, hf⟩
    exact (run_bind_ok hx).trans hf

@[simp] theorem gives_throw {f : Failure} {s s' : Session} {a : α} :
    ¬ (throw f : Step α).Gives s a s' := by
  intro h
  cases h

@[simp] theorem gives_fail {f : Fault} {s s' : Session} {a : α} :
    ¬ (Step.fail f : Step α).Gives s a s' := gives_throw

@[simp] theorem gives_get {s t s' : Session} :
    (get : Step Session).Gives s t s' ↔ t = s ∧ s' = s := by
  constructor
  · intro h
    cases h
    exact ⟨rfl, rfl⟩
  · rintro ⟨rfl, rfl⟩
    rfl

@[simp] theorem gives_modify {f : Session → Session} {s s' : Session} {u : PUnit} :
    (modify f : Step PUnit).Gives s u s' ↔ s' = f s := by
  constructor
  · intro h
    cases h
    rfl
  · rintro rfl
    rfl

theorem run_during (a : Activity) (x : Step α) (s : Session) :
    ((Step.during a x).run.run s : Except Failure α × Session) =
      ((x.run.run s : Except Failure α × Session).1.mapError (Failure.during a),
        (x.run.run s : Except Failure α × Session).2) := rfl

@[simp] theorem gives_during {a : Activity} {x : Step α} {s s' : Session} {b : α} :
    (Step.during a x).Gives s b s' ↔ x.Gives s b s' := by
  unfold Gives
  rw [run_during]
  rcases (x.run.run s : Except Failure α × Session) with ⟨e | c, t⟩
  · exact ⟨fun h => (by cases h), fun h => (by cases h)⟩
  · rfl

@[simp] theorem gives_ofExcept {ε : Type} {fault : ε → Fault} {e : Except ε α} {s s' : Session}
    {a : α} : (Step.ofExcept fault e).Gives s a s' ↔ e = .ok a ∧ s' = s := by
  cases e with
  | error e => simp [Step.ofExcept]
  | ok b => simp [Step.ofExcept, eq_comm]

/-- A computation without the session leaves it as it is. -/
theorem run_ofExcept {ε : Type} (fault : ε → Fault) (e : Except ε α) (s : Session) :
    ((Step.ofExcept fault e).run.run s : Except Failure α × Session) =
      (e.mapError fun x => .of (fault x), s) := by
  cases e with
  | error e => rfl
  | ok a => rfl

/-- A handler goes on from the session that a failure left. -/
theorem run_tryCatch (x : Step α) (handler : Failure → Step α) (s : Session) :
    ((tryCatch x handler).run.run s : Except Failure α × Session) =
      match (x.run.run s : Except Failure α × Session) with
      | (.ok a, t) => (.ok a, t)
      | (.error f, t) => (handler f).run.run t := by
  change ((ExceptT.tryCatch x handler).run.run s : Except Failure α × Session) = _
  simp only [ExceptT.tryCatch, ExceptT.run_mk, StateT.run_bind]
  rcases hx : (x.run.run s : Except Failure α × Session) with ⟨e | a, t⟩
  · rw [show StateT.run x s = (Except.error e, t) from hx]
    rfl
  · rw [show StateT.run x s = (Except.ok a, t) from hx]
    rfl

/-! ### The steps of a session -/

@[simp] theorem gives_files {s s' : Session} {t : FileTree} :
    Step.files.Gives s t s' ↔ t = s.files ∧ s' = s := by
  constructor
  · intro h
    cases h
    exact ⟨rfl, rfl⟩
  · rintro ⟨rfl, rfl⟩
    rfl

@[simp] theorem gives_fromFiles {f : FileTree → Except FileError α} {s s' : Session} {a : α} :
    (Step.fromFiles f).Gives s a s' ↔ f s.files = .ok a ∧ s' = s := by
  unfold Step.fromFiles
  rw [gives_bind]
  constructor
  · rintro ⟨t, s₁, ht, h⟩
    obtain ⟨rfl, rfl⟩ := gives_files.1 ht
    exact gives_ofExcept.1 h
  · intro h
    exact ⟨s.files, s, gives_files.2 ⟨rfl, rfl⟩, gives_ofExcept.2 h⟩

@[simp] theorem gives_tell {r : LogRecord} {s s' : Session} {u : Unit} :
    (Step.tell r).Gives s u s' ↔ s' = { s with log := s.log ++ [r] } := gives_modify

@[simp] theorem gives_trace {e : Event} {s s' : Session} {u : Unit} :
    (Step.trace e).Gives s u s' ↔ s' = { s with events := s.events ++ [e] } := gives_modify

@[simp] theorem gives_record {b : Bundle} {s s' : Session} {u : Unit} :
    (Step.record b).Gives s u s' ↔ s' = { s with bundles := s.bundles ++ [b] } := gives_modify

@[simp] theorem gives_read {p : Path} {s s' : Session} {text : String} :
    (Step.read p).Gives s text s' ↔ s.files.readText p = .ok text ∧ s' = s := gives_fromFiles

@[simp] theorem gives_resolve {specifier : String} {paths : List Path} {s s' : Session} {p : Path} :
    (Step.resolve specifier paths).Gives s p s' ↔
      s.files.resolve specifier paths = .ok p ∧ s' = s := by
  unfold Step.resolve
  rw [gives_bind]
  constructor
  · rintro ⟨t, s₁, ht, h⟩
    obtain ⟨rfl, rfl⟩ := gives_files.1 ht
    exact gives_ofExcept.1 h
  · intro h
    exact ⟨s.files, s, gives_files.2 ⟨rfl, rfl⟩, gives_ofExcept.2 h⟩

theorem run_fromFiles (f : FileTree → Except FileError α) (s : Session) :
    ((Step.fromFiles f).run.run s : Except Failure α × Session) =
      ((f s.files).mapError fun e => .of (.outside (.file e)), s) :=
  (run_bind_ok (gives_files.2 ⟨rfl, rfl⟩)).trans (run_ofExcept _ _ _)

theorem run_resolve (specifier : String) (paths : List Path) (s : Session) :
    ((Step.resolve specifier paths).run.run s : Except Failure Path × Session) =
      ((s.files.resolve specifier paths).mapError fun e => .of (.resolve e), s) :=
  (run_bind_ok (gives_files.2 ⟨rfl, rfl⟩)).trans (run_ofExcept _ _ _)

@[simp] theorem gives_edit {d d' : Text.Draft} {e : Text.Edit} {s s' : Session} :
    (Step.edit d e).Gives s d' s' ↔ d.edit e = .ok d' ∧ s' = s := gives_ofExcept

@[simp] theorem gives_createFolders {p : Path} {s s' : Session} {u : Unit} :
    (Step.createFolders p).Gives s u s' ↔
      (s.files.createFolders p).2 = none ∧
        s' = { s with files := (s.files.createFolders p).1 } := by
  unfold Step.createFolders
  rw [gives_bind]
  constructor
  · rintro ⟨t, s₁, ht, h⟩
    obtain ⟨rfl, rfl⟩ := gives_files.1 ht
    rcases hmade : s₁.files.createFolders p with ⟨t, _ | e⟩
    · rw [hmade] at h
      obtain ⟨_, s₂, hs, h⟩ := gives_bind.1 h
      obtain rfl := gives_modify.1 hs
      exact ⟨rfl, (gives_pure.1 h).2⟩
    · rw [hmade] at h
      obtain ⟨_, s₂, hs, h⟩ := gives_bind.1 h
      exact absurd h gives_fail
  · rintro ⟨hmade, rfl⟩
    refine ⟨s.files, s, gives_files.2 ⟨rfl, rfl⟩, ?_⟩
    rcases htree : s.files.createFolders p with ⟨t, e⟩
    rw [htree] at hmade
    obtain rfl : e = none := hmade
    exact gives_bind.2 ⟨PUnit.unit, _, gives_modify.2 rfl, gives_pure.2 ⟨rfl, rfl⟩⟩

theorem session_createFolders (p : Path) (s : Session) :
    ((Step.createFolders p).run.run s : Except Failure Unit × Session).2 =
      { s with files := (s.files.createFolders p).1 } := by
  unfold Step.createFolders
  rw [run_bind_ok (gives_files.2 ⟨rfl, rfl⟩)]
  rcases s.files.createFolders p with ⟨t, _ | e⟩
  · rfl
  · rfl

@[simp] theorem gives_deliver {source target : Path} {change : FileTree → Except FileError FileTree}
    {s s' : Session} {u : Unit} :
    (Step.deliver source target change).Gives s u s' ↔
      ∃ t, change s.files = .ok t ∧
        s' = { s with files := t, deliveries := s.deliveries ++ [⟨source, target⟩] } := by
  unfold Step.deliver
  rw [gives_bind]
  constructor
  · rintro ⟨t, s₁, ht, h⟩
    obtain ⟨hchange, rfl⟩ := gives_fromFiles.1 ht
    exact ⟨t, hchange, gives_modify.1 h⟩
  · rintro ⟨t, hchange, rfl⟩
    exact ⟨t, s, gives_fromFiles.2 ⟨hchange, rfl⟩, gives_modify.2 rfl⟩

/-- Nothing is changed where no file can be made. -/
theorem run_deliver_error {source target : Path} {change : FileTree → Except FileError FileTree}
    {s t : Session} {e : Failure}
    (h : ((Step.deliver source target change).run.run s : Except Failure Unit × Session) =
      (.error e, t)) : t = s := by
  unfold Step.deliver at h
  have hrun := run_fromFiles change s
  cases hchange : change s.files with
  | error e' =>
    rw [hchange] at hrun
    rw [run_bind_error hrun] at h
    exact (congrArg Prod.snd h).symm
  | ok t' =>
    rw [run_bind_ok (gives_fromFiles.2 ⟨hchange, rfl⟩)] at h
    cases congrArg Prod.fst h

@[simp] theorem gives_write {source target : Path} {text : String} {s s' : Session} {u : Unit} :
    (Step.write source target text).Gives s u s' ↔
      ∃ t, s.files.write target (.text text) = .ok t ∧
        s' = { s with files := t, deliveries := s.deliveries ++ [⟨source, target⟩] } := gives_deliver

@[simp] theorem gives_claim {source destination : Path} {s s' : Session} {free : Bool} :
    (Step.claim source destination).Gives s free s' ↔
      free = (s.copies.claim source destination).1 ∧
        s' = { s with copies := (s.copies.claim source destination).2 } := by
  unfold Step.claim
  rw [gives_bind]
  constructor
  · rintro ⟨t, s₁, ht, h⟩
    obtain ⟨rfl, rfl⟩ := gives_get.1 ht
    obtain ⟨_, s₂, hs, h⟩ := gives_bind.1 h
    obtain rfl := gives_modify.1 hs
    exact gives_pure.1 h
  · rintro ⟨rfl, rfl⟩
    exact ⟨s, s, gives_get.2 ⟨rfl, rfl⟩,
      gives_bind.2 ⟨PUnit.unit, _, gives_modify.2 rfl, gives_pure.2 ⟨rfl, rfl⟩⟩⟩

/-- A component is compiled with its destination recorded, and forgotten if it fails. -/
theorem run_attempt (entry destination : Path) (x : Step Unit) (s : Session) :
    ((Step.attempt entry destination x).run.run s : Except Failure Unit × Session) =
      match (x.run.run (s.begin entry destination) : Except Failure Unit × Session) with
      | (.ok u, t) => (.ok u, t)
      | (.error f, t) => (.error f, { t with builds := t.builds.evict entry }) := by
  unfold attempt
  rw [run_bind_ok (a := ⟨⟩) (gives_modify.2 rfl), run_tryCatch]
  rcases (x.run.run (s.begin entry destination) : Except Failure Unit × Session) with ⟨e | u, t⟩
  · rfl
  · rfl

@[simp] theorem gives_attempt {entry destination : Path} {x : Step Unit} {s s' : Session}
    {u : Unit} : (Step.attempt entry destination x).Gives s u s' ↔
      x.Gives (s.begin entry destination) u s' := by
  unfold Gives
  rw [run_attempt]
  rcases (x.run.run (s.begin entry destination) : Except Failure Unit × Session) with ⟨e | v, t⟩
  · exact ⟨fun h => (by cases h), fun h => (by cases h)⟩
  · rfl

theorem gives_scan {options : ScanOptions} {code : String} {s s' : Session}
    {references : List Reference} (h : (Step.scan options code).Gives s references s') :
    ∃ found, ElementBuild.scan options code = .ok found ∧ references = found.references ∧
      ∃ log, s' = { s with log } := by
  have htell : ∀ (warnings : List String) (t t' : Session) (u : PUnit),
      (warnings.forM fun w => Step.tell (.warning w)).Gives t u t' → ∃ log, t' = { t with log } := by
    intro warnings
    induction warnings with
    | nil =>
      intro t t' u h
      obtain ⟨-, rfl⟩ := gives_pure.1 h
      exact ⟨_, rfl⟩
    | cons w ws ih =>
      intro t t' u h
      obtain ⟨_, t₁, h₁, h⟩ := gives_bind.1 h
      obtain rfl := gives_tell.1 h₁
      obtain ⟨log, rfl⟩ := ih _ _ _ h
      exact ⟨log, rfl⟩
  unfold Step.scan at h
  simp only [gives_bind, gives_ofExcept, gives_pure] at h
  obtain ⟨found, _, ⟨hscan, rfl⟩, u, t, hwarn, rfl, rfl⟩ := h
  exact ⟨found, hscan, rfl, htell _ _ _ _ hwarn⟩

/-! ### What runs respect -/

/-- Each successful run of the step relates the session it starts from to the one it
leaves. -/
def Respects (r : Session → Session → Prop) (x : Step α) : Prop :=
  ∀ s a s', x.Gives s a s' → r s s'

namespace Respects

variable {r : Session → Session → Prop} [IsPreorder Session r]

protected theorem pure (a : α) : (Pure.pure a : Step α).Respects r := by
  intro s b s' h
  obtain ⟨-, rfl⟩ := gives_pure.1 h
  exact refl_of r _

protected theorem bind {x : Step α} {f : α → Step β} (hx : x.Respects r)
    (hf : ∀ a, (f a).Respects r) : (x >>= f).Respects r := by
  intro s b s' h
  obtain ⟨a, t, hxa, hfa⟩ := gives_bind.1 h
  exact trans_of r (hx s a t hxa) (hf a t b s' hfa)

protected theorem get : (get : Step Session).Respects r := by
  intro s a s' h
  obtain ⟨-, rfl⟩ := gives_get.1 h
  exact refl_of r _

protected theorem ofExcept {ε : Type} (fault : ε → Fault) (e : Except ε α) :
    (Step.ofExcept fault e).Respects r := by
  intro s a s' h
  obtain ⟨-, rfl⟩ := gives_ofExcept.1 h
  exact refl_of r _

protected theorem fromFiles (f : FileTree → Except FileError α) :
    (Step.fromFiles f).Respects r := by
  intro s a s' h
  obtain ⟨-, rfl⟩ := gives_fromFiles.1 h
  exact refl_of r _

protected theorem files : Step.files.Respects r := by
  intro s t s' h
  obtain ⟨-, rfl⟩ := gives_files.1 h
  exact refl_of r _

protected theorem read (p : Path) : (Step.read p).Respects r := Respects.fromFiles _

protected theorem resolve (specifier : String) (paths : List Path) :
    (Step.resolve specifier paths).Respects r := by
  intro s p s' h
  obtain ⟨-, rfl⟩ := gives_resolve.1 h
  exact refl_of r _

omit [IsPreorder Session r] in
protected theorem fail (f : Fault) : (Step.fail f : Step α).Respects r :=
  fun _ _ _ h => absurd h gives_fail

omit [IsPreorder Session r] in
protected theorem modify {f : Session → Session} (h : ∀ s, r s (f s)) :
    (modify f : Step PUnit).Respects r := by
  intro s u s' hf
  obtain rfl := gives_modify.1 hf
  exact h s

omit [IsPreorder Session r] in
protected theorem trace {e : Event} (h : ∀ s, r s { s with events := s.events ++ [e] }) :
    (Step.trace e).Respects r := Respects.modify h

omit [IsPreorder Session r] in
protected theorem during {x : Step α} (a : Activity) (hx : x.Respects r) :
    (Step.during a x).Respects r :=
  fun s b s' h => hx s b s' (gives_during.1 h)

/-- What each round of a fold respects, the fold respects. -/
protected theorem foldlM {f : β → α → Step β} {xs : List α}
    (hf : ∀ b, ∀ x ∈ xs, (f b x).Respects r) : ∀ b, (xs.foldlM f b).Respects r := by
  induction xs with
  | nil => exact fun b => Respects.pure b
  | cons x xs ih =>
    intro b
    rw [List.foldlM_cons]
    exact (hf b x (List.mem_cons_self ..)).bind
      fun c => ih (fun b y hy => hf b y (List.mem_cons_of_mem _ hy)) c

end Respects
end Step
end ElementBuild
