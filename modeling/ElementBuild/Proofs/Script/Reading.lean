/-
# What a reader has passed

A reader goes through a text from token to token.  As long as nothing is wrong, it stands behind a
whole token: what it has read and what it is about to read are stretches of the text
(`State.Fits`).  This need not hold any more once a fault was noted, but such a text is refused in
the end.  So what a reader ensures is stated for the runs that end without a fault
(`Reader.Ensures`), and a fault that is noted on the way ensures anything.

Most of what is ensured has one form: from a place on, something is found up to where the reader
stands afterwards (`Reader.Reads`).  One rule then leads from the parts of a production to the
whole of it (`Reader.Reads.bind`), one passes what finds nothing (`Reader.Passes.skip`), and some
more use what is known of the token to be read next (`Reader.ReadsIf`).
-/
import ElementBuild.Script.Reader
import ElementBuild.Proofs.Script.Mentions

namespace ElementBuild
namespace Script

open Text (IsBoundary byteLength)

/-! ### States -/

namespace State

/-- The state behind the next token. -/
def passed (s : State) : State :=
  { s with
    noted := s.current.faults ++ s.noted
    lastStart := s.current.start
    lastStop := s.current.stop
    current := lexeme s.current.rest s.current.stop }

/-- Where the next token begins; the end of the text counts as the end of the last one. -/
def ahead (s : State) : Nat :=
  match s.current.token with
  | .endOfText => s.lastStop
  | _ => s.current.start

/-- The reader stands between two tokens of a text. -/
structure Fits (s : State) (cs : List Char) : Prop where
  stop : IsBoundary cs s.lastStop
  le : s.lastStop ≤ s.current.start
  stands : s.current.Stands cs

/-- The reader stands between two tokens of a text, not before an offset. -/
def After (s : State) (cs : List Char) (lo : Nat) : Prop := s.Fits cs ∧ lo ≤ s.lastStop

variable {s : State} {cs : List Char} {lo : Nat}

/-- The reader stands before the token that is read next of what is left. -/
theorem fits_lexeme {before rest : List Char} (hcs : cs = before ++ rest)
    (hstop : s.lastStop = byteLength before) (hcurrent : s.current = lexeme rest s.lastStop) :
    s.Fits cs := by
  obtain ⟨hstands, hle⟩ := stands_lexeme hcs
  rw [← hstop, ← hcurrent] at hstands hle
  exact ⟨⟨_, _, hcs, hstop.symm⟩, hle, hstands⟩

theorem Fits.passed (h : s.Fits cs) (hwhole : s.current.token.IsWhole) : s.passed.Fits cs := by
  obtain ⟨before, own, hcs, hstart, hstop, -⟩ := h.stands.whole hwhole
  have hcs' : cs = (before ++ own) ++ s.current.rest := by rw [hcs, List.append_assoc]
  refine fits_lexeme hcs' ?_ rfl
  rw [Text.byteLength_append, hstart, hstop]
  rfl

theorem Fits.start_le (h : s.Fits cs) (hwhole : s.current.token.IsWhole) :
    s.current.start ≤ s.current.stop := by
  obtain ⟨_, _, _, _, hstop, _⟩ := h.stands.whole hwhole
  exact hstop ▸ Nat.le_add_right _ _

theorem ahead_eq (h : s.current.token ≠ .endOfText) : s.ahead = s.current.start := by
  unfold State.ahead
  split
  · exact absurd ‹_› h
  · rfl

theorem After.ahead (h : s.After cs lo) : lo ≤ s.ahead ∧ IsBoundary cs s.ahead := by
  unfold State.ahead
  split
  · exact ⟨h.2, h.1.stop⟩
  · exact ⟨h.2.trans h.1.le, h.1.stands.start⟩

theorem isWhole_of_eq {t : Token} (h : s.current.token = t) (ht : t.IsWhole) :
    s.current.token.IsWhole := h ▸ ht

theorem After.passed (h : s.After cs lo) (hwhole : s.current.token.IsWhole) :
    s.passed.After cs lo :=
  ⟨h.1.passed hwhole, (h.2.trans h.1.le).trans (h.1.start_le hwhole)⟩

end State

namespace Reader

variable {α β : Type} {r : Reader α} {s s' : State} {a : α}

theorem bind_eq (h : r s = .ok a s') (f : α → Reader β) : (r >>= f) s = f a s' := by
  change EStateM.bind r f s = f a s'
  unfold EStateM.bind
  rw [h]

theorem bind_eq_error {e : Located} (h : r s = .error e s') (f : α → Reader β) :
    (r >>= f) s = .error e s' := by
  change EStateM.bind r f s = .error e s'
  unfold EStateM.bind
  rw [h]

theorem bump_eq (h : s.current.token ≠ .endOfText) : bump s = .ok () s.passed := by
  obtain ⟨⟨t, start, stop, broken, faults, rest⟩, _, _, _, _⟩ := s
  cases t with
  | endOfText => exact absurd rfl h
  | _ => rfl

/-! ### What is ensured -/

/-- If a reader ends without a fault, there was none before, and what held before gives what holds
of the result. -/
structure Ensures (P : State → Prop) (r : Reader α) (Q : α → State → Prop) : Prop where
  ok : ∀ {s a s'}, r s = .ok a s' → s'.noted = [] → s.noted = [] ∧ (P s → Q a s')
  error : ∀ {s e s'}, r s = .error e s' → s'.noted = [] → s.noted = []

namespace Ensures

variable {P P' : State → Prop} {Q Q' : α → State → Prop} {R : β → State → Prop} {f : α → Reader β}

protected theorem pure (h : ∀ s, P s → Q a s) : Ensures P (pure a) Q := by
  refine ⟨?_, nofun⟩
  rintro s _ _ ⟨⟩ hs
  exact ⟨hs, h s⟩

protected theorem throw (e : Located) : Ensures P (throw e : Reader α) Q := by
  refine ⟨nofun, ?_⟩
  rintro s _ _ ⟨⟩ hs
  exact hs

theorem imp (h : Ensures P r Q) (hP : ∀ s, P' s → P s) (hQ : ∀ a s, Q a s → Q' a s) :
    Ensures P' r Q' :=
  ⟨fun hr hs => (h.ok hr hs).imp_right fun hQs hP' => hQ _ _ (hQs (hP _ hP')), h.error⟩

/-- A fact that does not depend on the state is known to the end. -/
theorem fact {C : Prop} (h : Ensures P r fun a s => C → Q a s) :
    Ensures (fun s => P s ∧ C) r Q :=
  ⟨fun hr hs => (h.ok hr hs).imp_right fun hQ hP => hQ hP.1 hP.2, h.error⟩

protected theorem bind (h : Ensures P r Q) (hf : ∀ a, Ensures (Q a) (f a) R) :
    Ensures P (r >>= f) R := by
  constructor
  · intro s b s'' hb hs''
    cases hr : r s with
    | error e s' =>
      rw [bind_eq_error hr] at hb
      cases hb
    | ok a s' =>
      rw [bind_eq hr] at hb
      obtain ⟨hs', hR⟩ := (hf a).ok hb hs''
      obtain ⟨hs, hQ⟩ := h.ok hr hs'
      exact ⟨hs, fun hP => hR (hQ hP)⟩
  · intro s e s'' he hs''
    cases hr : r s with
    | error e' s' =>
      rw [bind_eq_error hr] at he
      cases he
      exact h.error hr hs''
    | ok a s' =>
      rw [bind_eq hr] at he
      exact (h.ok hr ((hf a).error he hs'')).1

/-- A reader may go on from a state that it has set up. -/
theorem via (h : ∀ s, ∃ r' t, r s = r' t ∧ (t.noted = [] → s.noted = []) ∧
    Ensures (fun t' => t' = t ∧ P s) r' Q) : Ensures P r Q := by
  constructor
  · intro s a s' ha hs'
    obtain ⟨r', t, heq, hnoted, h⟩ := h s
    obtain ⟨ht, hQ⟩ := h.ok (heq.symm.trans ha) hs'
    exact ⟨hnoted ht, fun hP => hQ ⟨rfl, hP⟩⟩
  · intro s e s' he hs'
    obtain ⟨r', t, heq, hnoted, h⟩ := h s
    exact hnoted (h.error (heq.symm.trans he) hs')

/-- A reader may recover from a stop: nothing is known of the state then. -/
protected theorem tryCatch {g : Located → Reader α} (h : Ensures P r Q)
    (hg : ∀ e, Ensures (fun _ => ∃ s, P s) (g e) Q) : Ensures P (tryCatch r g) Q := by
  have hcaught : ∀ s, (tryCatch r g : Reader α) s = match r s with
      | .ok a s' => .ok a s'
      | .error e s' => g e s' := by
    intro s
    change EStateM.tryCatch r g s = _
    unfold EStateM.tryCatch
    cases r s <;> rfl
  constructor
  · intro s a s' ha hs'
    rw [hcaught] at ha
    cases hr : r s with
    | ok b t =>
      rw [hr] at ha
      exact h.ok (hr.trans ha) hs'
    | error e t =>
      rw [hr] at ha
      obtain ⟨ht, hQ⟩ := (hg e).ok ha hs'
      exact ⟨h.error hr ht, fun hP => hQ ⟨s, hP⟩⟩
  · intro s e s' he hs'
    rw [hcaught] at he
    cases hr : r s with
    | ok b t =>
      rw [hr] at he
      cases he
    | error e' t =>
      rw [hr] at he
      exact h.error hr ((hg e').error he hs')

/-- A step that keeps what holds keeps it as often as it is taken. -/
protected theorem loop {I : α → State → Prop} {step : α → Reader (α × Bool)}
    (hstep : ∀ a, Ensures (I a) (step a) fun r s => I r.1 s) (n : Nat) (a : α) :
    Ensures (I a) (loop n step a) I := by
  induction n generalizing a with
  | zero => exact .pure fun _ h => h
  | succ n ih =>
    refine (hstep a).bind fun found => ?_
    obtain ⟨a, more⟩ := found
    cases more with
    | true => exact ih a
    | false => exact .pure fun _ h => h

end Ensures

/-- Faults that were noted stay, whatever is known of the state. -/
def Keeps (r : Reader α) : Prop := Ensures (fun _ => False) r fun _ _ => False

theorem Ensures.keeps {P : State → Prop} {Q : α → State → Prop} (h : Ensures P r Q) : Keeps r :=
  ⟨fun hr hs => ⟨(h.ok hr hs).1, False.elim⟩, h.error⟩

namespace Keeps

theorem ensures {Q : α → State → Prop} (h : Keeps r) : Ensures (fun _ => False) r Q :=
  h.imp (fun _ h => h) fun _ _ h => h.elim

protected theorem pure (a : α) : Keeps (pure a) := Ensures.pure fun _ h => h

protected theorem bind {f : α → Reader β} (h : Keeps r) (hf : ∀ a, Keeps (f a)) : Keeps (r >>= f) :=
  Ensures.bind h hf

protected theorem tryCatch {g : Located → Reader α} (h : Keeps r) (hg : ∀ e, Keeps (g e)) :
    Keeps (tryCatch r g) :=
  Ensures.tryCatch h fun e => (hg e).imp (fun _ h => h.elim fun _ h => h) fun _ _ h => h

protected theorem loop {step : α → Reader (α × Bool)} (h : ∀ a, Keeps (step a)) (n : Nat) (a : α) :
    Keeps (loop n step a) :=
  Ensures.loop (I := fun _ _ => False) (fun a => (h a).imp (fun _ h => h) fun _ _ h => h) n a

end Keeps

/-! ### Faults -/

theorem ensures_note {P : State → Prop} {Q : Unit → State → Prop} (fault : Fault) (offset : Nat) :
    Ensures P (note fault offset) Q := by
  have hnote : ∀ s, ∃ f noted t, note fault offset s = .ok () t ∧ t.noted = f :: noted := by
    rintro ⟨⟨t, start, stop, broken, faults, rest⟩, _, _, _, _⟩
    cases t <;> exact ⟨_, _, _, rfl, rfl⟩
  constructor
  · intro s a s' ha hs'
    obtain ⟨f, noted, t, ht, hnoted⟩ := hnote s
    cases ha.symm.trans ht
    rw [hnoted] at hs'
    cases hs'
  · intro s e s' he
    obtain ⟨f, noted, t, ht, -⟩ := hnote s
    cases he.symm.trans ht

theorem ensures_fail {P : State → Prop} {Q : α → State → Prop} (fault : Fault) (offset : Nat) :
    Ensures P (fail fault offset : Reader α) Q := by
  have hfail : ∀ s, ∃ e faults t, (fail fault offset : Reader α) s = .error e t ∧
      t.noted = faults ++ s.noted := by
    rintro ⟨⟨t, start, stop, broken, faults, rest⟩, _, _, _, noted⟩
    cases t with
    | broken f => exact ⟨_, [] ++ (f :: faults), _, rfl, rfl⟩
    | _ => exact ⟨_, faults, _, rfl, rfl⟩
  constructor
  · intro s a s' ha
    obtain ⟨e, faults, t, ht, -⟩ := hfail s
    cases ha.symm.trans ht
  · intro s e s' he hs'
    obtain ⟨e', faults, t, ht, hnoted⟩ := hfail s
    cases he.symm.trans ht
    rw [hnoted] at hs'
    exact (List.append_eq_nil_iff.1 hs').2

/-! ### Passing tokens -/

theorem bump_endOfText (h : s.current.token = .endOfText) : bump s = .ok () s := by
  obtain ⟨⟨t, start, stop, broken, faults, rest⟩, _, _, _, _⟩ := s
  cases h
  rfl

/-- Passing a token takes over its faults. -/
theorem ensures_bump {P : State → Prop} {Q : Unit → State → Prop}
    (hend : ∀ s, P s → s.current.token = .endOfText → Q () s)
    (hpassed : ∀ s, P s → s.current.token ≠ .endOfText → s.current.faults = [] → Q () s.passed) :
    Ensures P bump Q := by
  constructor
  · intro s a s' ha hs'
    by_cases htoken : s.current.token = .endOfText
    · cases ha.symm.trans (bump_endOfText htoken)
      exact ⟨hs', fun hP => hend s hP htoken⟩
    · cases ha.symm.trans (bump_eq htoken)
      obtain ⟨hfaults, hs⟩ := List.append_eq_nil_iff.1 hs'
      exact ⟨hs, fun hP => hpassed s hP htoken hfaults⟩
  · intro s e s' he
    by_cases htoken : s.current.token = .endOfText
    · cases he.symm.trans (bump_endOfText htoken)
    · cases he.symm.trans (bump_eq htoken)

theorem keeps_bump : Keeps bump := ensures_bump (fun _ h _ => h) fun _ h _ _ => h

/-! ### Looking ahead -/

/-- A reader that ends leaves the state as it is, and says something of it. -/
def Looks (r : Reader α) (I : α → State → Prop) : Prop :=
  ∀ P : State → Prop, Ensures P r fun a s => P s ∧ I a s

namespace Looks

variable {I I' : α → State → Prop} {J : β → State → Prop} {f : α → Reader β}

theorem imp (h : Looks r I) (hI : ∀ a s, I a s → I' a s) : Looks r I' :=
  fun P => (h P).imp (fun _ hs => hs) fun _ _ hs => ⟨hs.1, hI _ _ hs.2⟩

theorem of_eq (h : ∀ s, ∃ a, r s = .ok a s ∧ I a s) : Looks r I := by
  intro P
  constructor
  · intro s a s' hr hs
    obtain ⟨b, hb, hI⟩ := h s
    cases hr.symm.trans hb
    exact ⟨hs, fun hP => ⟨hP, hI⟩⟩
  · intro s e s' hr
    obtain ⟨b, hb, -⟩ := h s
    cases hr.symm.trans hb

protected theorem pure (h : ∀ s, I a s) : Looks (pure a) I :=
  fun _ => .pure fun s hP => ⟨hP, h s⟩

theorem keeps (h : Looks r I) : Keeps r := (h fun _ => False).keeps

protected theorem throw (e : Located) : Looks (throw e) I := fun _ => .throw e

protected theorem bind (h : Looks r I) (hf : ∀ a, Looks (f a) fun b s => I a s → J b s) :
    Looks (r >>= f) J :=
  fun P => (h P).bind fun a => (hf a fun s => P s ∧ I a s).imp (fun _ hs => hs)
    fun _ _ hs => ⟨hs.1.1, hs.2 hs.1.2⟩

end Looks

theorem looks_token : Looks token fun t s => s.current.token = t := .of_eq fun _ => ⟨_, rfl, rfl⟩

theorem looks_here : Looks here fun n s => s.ahead = n := .of_eq fun _ => ⟨_, rfl, rfl⟩

theorem looks_note {I : Unit → State → Prop} (fault : Fault) (offset : Nat) :
    Looks (note fault offset) I :=
  fun _ => ensures_note fault offset

theorem looks_fail {I : α → State → Prop} (fault : Fault) (offset : Nat) :
    Looks (fail fault offset : Reader α) I :=
  fun _ => ensures_fail fault offset

theorem looks_blame : Looks blame fun _ _ => True := .of_eq fun _ => ⟨_, rfl, trivial⟩

theorem looks_lastStop : Looks lastStop fun n s => s.lastStop = n := .of_eq fun _ => ⟨_, rfl, rfl⟩

theorem looks_lastStart : Looks lastStart fun _ _ => True := .of_eq fun _ => ⟨_, rfl, trivial⟩

theorem looks_afterBreak : Looks afterBreak fun _ _ => True := .of_eq fun _ => ⟨_, rfl, trivial⟩

theorem looks_peek : Looks peek fun next s =>
    s.current.token ≠ .endOfText → s.passed.current = next := by
  refine .of_eq ?_
  rintro ⟨⟨t, start, stop, broken, faults, rest⟩, _, _, _, _⟩
  cases t with
  | endOfText => exact ⟨_, rfl, fun h => absurd rfl h⟩
  | _ => exact ⟨_, rfl, fun _ => rfl⟩

theorem looks_get : Looks get fun t s => s = t := .of_eq fun _ => ⟨_, rfl, rfl⟩

theorem looks_at? (p : Punctuator) :
    Looks (at? p) fun b s => b = true → s.current.token = .punctuator p :=
  .of_eq fun _ => ⟨_, rfl, fun h => eq_of_beq h⟩

theorem looks_word? (w : String) :
    Looks (word? w) fun b s => b = true → s.current.token = .word w :=
  .of_eq fun _ => ⟨_, rfl, fun h => eq_of_beq h⟩

theorem looks_atEnd : Looks atEnd fun _ _ => True := .of_eq fun _ => ⟨_, rfl, trivial⟩

/-- If nothing is noted in the end, there were no faults to take over. -/
theorem looks_settle : Looks settle fun _ _ => True := by
  intro P
  refine ⟨?_, nofun⟩
  rintro ⟨⟨t, start, stop, broken, faults, rest⟩, _, _, _, _⟩ _ _ ⟨⟩ hs'
  obtain ⟨rfl, hs⟩ := List.append_eq_nil_iff.1 hs'
  exact ⟨hs, fun h => ⟨h, trivial⟩⟩

theorem looks_atStatementEnd : Looks atStatementEnd fun _ _ => True := by
  refine looks_token.bind fun t => ?_
  split
  · exact .pure fun _ _ => trivial
  · exact .pure fun _ _ => trivial
  · exact .pure fun _ _ => trivial
  · exact looks_afterBreak.imp fun _ _ h _ => h

theorem looks_atIdentifier : Looks atIdentifier fun _ _ => True := by
  refine looks_token.bind fun t => ?_
  split
  · exact .pure fun _ _ => trivial
  · exact .pure fun _ _ => trivial

/-- A broken token is passed before its fault stops the reader. -/
theorem looks_bump_throw {I : α → State → Prop} (e : Located) :
    Looks (bump >>= fun _ => throw e : Reader α) I :=
  fun _ => (ensures_bump (Q := fun _ _ => True) (fun _ _ _ => trivial) fun _ _ _ _ => trivial).bind
    fun _ => .throw e

/-- A token that is needed is a whole one. -/
theorem looks_need : Looks need fun t s =>
    s.current.token = t ∧ s.current.token.IsWhole ∧ s.current.token ≠ .endOfText := by
  refine looks_token.bind fun t => ?_
  split
  · exact looks_bump_throw _
  · exact looks_lastStop.bind fun _ => .throw _
  · rename_i hbroken hend
    refine .pure ?_
    rintro s rfl
    exact ⟨rfl, hbroken, hend⟩

theorem looks_whole : Looks whole fun found s =>
    ∀ t, found = some t →
      s.current.token = t ∧ s.current.token.IsWhole ∧ s.current.token ≠ .endOfText := by
  refine looks_token.bind fun t => ?_
  split
  · exact looks_bump_throw _
  · exact .pure fun _ _ => nofun
  · rename_i hbroken hend
    refine .pure ?_
    rintro s rfl _ ⟨⟩
    exact ⟨rfl, hbroken, hend⟩

/-! ### What is read from a place on -/

section Reads

variable {cs : List Char} {lo mid n : Nat} {K : State → Prop} {Q R : Nat → α → Prop}
  {S : Nat → β → Prop} {f : α → Reader β}

/-- From a place on, and if something is known of the state, a reader finds what satisfies a
condition, in which the place occurs where it stands afterwards. -/
def ReadsIf (cs : List Char) (K : State → Prop) (lo : Nat) (r : Reader α) (R : Nat → α → Prop) :
    Prop :=
  Ensures (fun s => s.After cs lo ∧ K s) r fun a s => s.Fits cs ∧ R s.lastStop a

/-- From a place on, a reader finds what satisfies a condition. -/
def Reads (cs : List Char) (lo : Nat) (r : Reader α) (R : Nat → α → Prop) : Prop :=
  Ensures (fun s => s.After cs lo) r fun a s => s.Fits cs ∧ R s.lastStop a

/-- A reader finds nothing, but it does not go back. -/
def Passes (cs : List Char) (r : Reader α) : Prop := ∀ lo, Reads cs lo r fun hi _ => lo ≤ hi

theorem Reads.known (h : Reads cs lo r R) : ReadsIf cs K lo r R :=
  h.imp (fun _ hs => hs.1) fun _ _ hs => hs

namespace Reads

protected theorem pure (h : ∀ hi, lo ≤ hi → R hi a) : Reads cs lo (pure a) R :=
  Ensures.pure fun _ hs => ⟨hs.1, h _ hs.2⟩

theorem pure_bind (h : Reads cs lo (f a) S) : Reads cs lo (Pure.pure a >>= f) S := h

theorem fail (fault : Fault) (offset : Nat) : Reads cs lo (fail fault offset : Reader α) R :=
  ensures_fail fault offset

theorem imp (h : Reads cs lo r Q) (hQ : ∀ hi a, Q hi a → R hi a) : Reads cs lo r R :=
  Ensures.imp h (fun _ hs => hs) fun _ _ hs => ⟨hs.1, hQ _ _ hs.2⟩

/-- A fact that does not depend on the state is known to the end. -/
theorem fact {C : Prop} (h : Reads cs lo r fun hi a => C → R hi a) :
    Ensures (fun s => s.After cs lo ∧ C) r fun a s => s.Fits cs ∧ R s.lastStop a :=
  Ensures.fact (Ensures.imp h (fun _ hs => hs) fun _ _ hs hC => ⟨hs.1, hs.2 hC⟩)

/-- What was found is known of what is read behind it. -/
theorem behind (hf : ∀ mid a, Reads cs mid (f a) fun hi b => Q mid a → S hi b) (a : α) :
    Ensures (fun s => s.Fits cs ∧ Q s.lastStop a) (f a) fun b s => s.Fits cs ∧ S s.lastStop b := by
  refine ⟨fun {s b s'} hr hs' => ?_, fun {s} => (hf s.lastStop a).error⟩
  obtain ⟨hs, hS⟩ := (hf s.lastStop a).ok hr hs'
  exact ⟨hs, fun hQ => (hS ⟨hQ.1, le_refl _⟩).imp_right fun h => h hQ.2⟩

protected theorem bind (h : Reads cs lo r Q)
    (hf : ∀ mid a, Reads cs mid (f a) fun hi b => Q mid a → S hi b) :
    Reads cs lo (r >>= f) S :=
  Ensures.bind h (behind hf)

/-- What each round keeps, all rounds keep. -/
protected theorem loop {I : Nat → α → Prop} {step : α → Reader (α × Bool)}
    (hstep : ∀ mid a, Reads cs mid (step a) fun hi found => I mid a → I hi found.1) (n : Nat)
    (a : α) : Reads cs lo (loop n step a) fun hi b => (∀ mid, lo ≤ mid → I mid a) → I hi b := by
  refine Ensures.imp (Ensures.loop (I := fun b s => s.Fits cs ∧
    ((∀ mid, lo ≤ mid → I mid a) → I s.lastStop b)) (fun b => ?_) n a) ?_ fun _ _ hs => hs
  · refine ⟨fun {s found s'} hr hs' => ?_, fun {s} => (hstep s.lastStop b).error⟩
    obtain ⟨hs, hI⟩ := (hstep s.lastStop b).ok hr hs'
    refine ⟨hs, fun hb => ?_⟩
    obtain ⟨hfits, hI⟩ := hI ⟨hb.1, le_refl _⟩
    exact ⟨hfits, fun h => hI (hb.2 h)⟩
  · exact fun s hs => ⟨hs.1, fun h => h _ hs.2⟩

/-- What holds before the first round holds after the last one. -/
theorem rounds {I : Nat → α → Prop} {step : α → Reader (α × Bool)} {n : Nat}
    (ha : ∀ mid, lo ≤ mid → I mid a)
    (hstep : ∀ mid a, Reads cs mid (step a) fun hi found => I mid a → I hi found.1) :
    Reads cs lo (Reader.loop n step a) I :=
  (Reads.loop hstep n a).imp fun _ _ h => h ha

end Reads

namespace Passes

theorem skip (h : Passes cs r) (hf : ∀ a, Reads cs lo (f a) S) : Reads cs lo (r >>= f) S :=
  Ensures.bind (h lo) hf

protected theorem pure (a : α) : Passes cs (pure a) := fun _ => .pure fun _ h => h

/-- What is passed under a condition, before what is read in any case. -/
theorem skip_if {c : Prop} [Decidable c] (h : Passes cs r) (hf : ∀ a, Reads cs lo (f a) S) (a : α) :
    Reads cs lo (if c then r >>= f else f a) S := by
  split
  · exact h.skip hf
  · exact hf a

theorem skip_unless {c : Prop} [Decidable c] (h : Passes cs r) (hf : ∀ a, Reads cs lo (f a) S)
    (a : α) : Reads cs lo (if c then f a else r >>= f) S := by
  split
  · exact hf a
  · exact h.skip hf

end Passes

/-- A reader finds nothing, and if it says so it leaves what is known of the state. -/
def Tries (cs : List Char) (r : Reader Bool) : Prop :=
  ∀ (K : State → Prop) lo,
    Ensures (fun s => s.After cs lo ∧ K s) r fun b s => s.After cs lo ∧ (b = false → K s)

theorem Tries.passes {r : Reader Bool} (h : Tries cs r) : Passes cs r :=
  fun lo => (h (fun _ => True) lo).imp (fun _ hs => ⟨hs, trivial⟩) fun _ _ hs => hs.1

theorem Looks.passes {I : α → State → Prop} (h : Looks r I) : Passes cs r :=
  fun _ => Ensures.imp (h _) (fun _ hs => hs) fun _ _ hs => hs.1

/-- What a look tells is known of the state. -/
theorem Looks.read {I : α → State → Prop} (h : Looks r I)
    (hf : ∀ a, ReadsIf cs (I a) lo (f a) S) : Reads cs lo (r >>= f) S :=
  Ensures.bind (h _) hf

namespace ReadsIf

theorem look {I : α → State → Prop} (h : Looks r I)
    (hf : ∀ a, ReadsIf cs (fun s => K s ∧ I a s) lo (f a) S) : ReadsIf cs K lo (r >>= f) S :=
  (h _).bind fun a => (hf a).imp (fun _ hs => ⟨hs.1.1, hs.1.2, hs.2⟩) fun _ _ hs => hs

protected theorem bind (h : ReadsIf cs K lo r Q)
    (hf : ∀ mid a, Reads cs mid (f a) fun hi b => Q mid a → S hi b) :
    ReadsIf cs K lo (r >>= f) S :=
  Ensures.bind h (Reads.behind hf)

theorem tried {r : Reader Bool} {f : Bool → Reader β} (h : Tries cs r)
    (hf : ∀ b, ReadsIf cs (fun s => b = false → K s) lo (f b) S) : ReadsIf cs K lo (r >>= f) S :=
  Ensures.bind (h K lo) hf

theorem skip (h : ReadsIf cs K lo r fun hi _ => lo ≤ hi) (hf : ∀ a, Reads cs lo (f a) S) :
    ReadsIf cs K lo (r >>= f) S :=
  Ensures.bind h hf

/-- Where the next token is a whole one, it is passed. -/
protected theorem bump {f : Unit → Reader β} (hK : ∀ s, K s → s.current.token.IsWhole)
    (h : Reads cs lo (f ()) S) : ReadsIf cs K lo (bump >>= f) S := by
  refine Ensures.bind (Q := fun _ s => s.After cs lo) (ensures_bump ?_ ?_) fun _ => h
  · exact fun s hs _ => hs.1
  · exact fun s hs _ _ => hs.1.passed (hK s hs.2)

/-- What is known of the token behind the next one. -/
theorem bump_to {J : State → Prop} {f : Unit → Reader β}
    (hK : ∀ s, K s → s.current.token.IsWhole ∧ s.current.token ≠ .endOfText)
    (hJ : ∀ s, K s → J s.passed) (h : ReadsIf cs J lo (f ()) S) :
    ReadsIf cs K lo (Reader.bump >>= f) S := by
  refine Ensures.bind (Q := fun _ s => s.After cs lo ∧ J s) (ensures_bump ?_ ?_) fun _ => h
  · exact fun s hs htoken => absurd htoken (hK s hs.2).2
  · exact fun s hs _ _ => ⟨hs.1.passed (hK s hs.2).1, hJ s hs.2⟩

/-- Behind a token that is passed, it is known where it began. -/
theorem bump_from {f : Unit → Reader β}
    (hK : ∀ s, K s → s.current.token.IsWhole ∧ s.current.token ≠ .endOfText ∧ s.ahead = n)
    (h : Reads cs n (f ()) fun hi b => lo ≤ n ∧ IsBoundary cs n → S hi b) :
    ReadsIf cs K lo (Reader.bump >>= f) S := by
  refine Ensures.bind (Q := fun _ s => s.After cs n ∧ lo ≤ n ∧ IsBoundary cs n)
    (ensures_bump ?_ ?_) fun _ => h.fact
  · exact fun s hs htoken => absurd htoken (hK s hs.2).2.1
  · intro s hs htoken _
    obtain ⟨hwhole, -, rfl⟩ := hK s hs.2
    refine ⟨⟨hs.1.1.passed hwhole, ?_⟩, hs.1.ahead⟩
    exact State.ahead_eq htoken ▸ hs.1.1.start_le hwhole

/-- Behind a word that is passed, it is known where it began. -/
theorem eatWord {w : String} {f : Bool → Reader β} (hK : ∀ s, K s → s.ahead = n)
    (htrue : Reads cs n (f true) fun hi b => lo ≤ n ∧ IsBoundary cs n → S hi b)
    (hfalse : ReadsIf cs K lo (f false) S) : ReadsIf cs K lo (Reader.eatWord w >>= f) S := by
  unfold Reader.eatWord
  rw [bind_assoc]
  refine .look (looks_word? w) fun b => ?_
  cases b with
  | true =>
    rw [if_pos rfl, bind_assoc]
    refine bump_from (fun s hs => ?_) htrue
    have htoken := hs.2 rfl
    exact ⟨State.isWhole_of_eq htoken nofun, htoken ▸ nofun, hK s hs.1⟩
  | false => exact hfalse.imp (fun s hs => ⟨hs.1, hs.2.1⟩) fun _ _ hs => hs

/-- A string that is passed is a literal. -/
theorem literal {f : Nat → Reader β}
    (hK : ∀ s, K s → (∃ value raw, s.current.token = .string value raw) ∧ s.ahead = n)
    (h : ∀ stop, Reads cs stop (f stop) fun hi b => lo ≤ n ∧ IsLiteral cs ⟨n, stop⟩ → S hi b) :
    ReadsIf cs K lo (Reader.bump >>= fun _ => lastStop >>= f) S := by
  refine Ensures.bind (Q := fun _ s => s.Fits cs ∧ lo ≤ n ∧ IsLiteral cs ⟨n, s.lastStop⟩)
    (ensures_bump ?_ ?_) fun _ => ?_
  · intro s hs htoken
    obtain ⟨⟨value, raw, hstring⟩, -⟩ := hK s hs.2
    cases htoken.symm.trans hstring
  · intro s hs htoken hfaults
    obtain ⟨⟨value, raw, hstring⟩, rfl⟩ := hK s hs.2
    have hwhole : s.current.token.IsWhole := fun f hf => by cases hstring.symm.trans hf
    obtain ⟨before, own, hcs, hstart, hstop, hwrites⟩ := hs.1.1.stands.whole hwhole
    rw [State.ahead_eq htoken]
    refine ⟨hs.1.1.passed hwhole, hs.1.2.trans hs.1.1.le, before, own, _, hcs, hstart, hstop, ?_⟩
    unfold Lexeme.Writes at hwrites
    rw [hstring] at hwrites
    exact hwrites hfaults
  · refine (looks_lastStop _).bind fun stop => ?_
    refine (h stop).fact.imp ?_ fun _ _ hs => hs
    rintro s ⟨⟨hfits, hle, hliteral⟩, rfl⟩
    exact ⟨⟨hfits, le_refl _⟩, hle, hliteral⟩

end ReadsIf

/-- Behind a fault anything is known. -/
theorem Reads.spoiled {fault : Fault} {offset : Nat} {f : Unit → Reader β}
    (h : ReadsIf cs (fun _ => False) lo (f ()) S) : Reads cs lo (note fault offset >>= f) S :=
  Ensures.bind (ensures_note fault offset) fun _ => h

theorem Keeps.spoiled {fault : Fault} {offset : Nat} {f : Unit → Reader β} (h : Keeps (f ())) :
    Reads cs lo (note fault offset >>= f) S :=
  Ensures.bind (ensures_note fault offset) fun _ => h.ensures

/-- A reader that recovers from a stop does so at the price of a fault. -/
protected theorem Reads.tryCatch {g : Located → Reader α} (h : Reads cs lo r R)
    (hg : ∀ e, Looks (g e) fun _ _ => False) : Reads cs lo (tryCatch r g) R :=
  Ensures.tryCatch h fun e => (hg e _).imp (fun _ h => h) fun _ _ h => h.2.elim

/-- Where the reader stands is a boundary of the text. -/
theorem Reads.stop {f : Nat → Reader β}
    (h : ∀ stop, Reads cs stop (f stop) fun hi b => lo ≤ stop ∧ IsBoundary cs stop → S hi b) :
    Reads cs lo (lastStop >>= f) S := by
  refine (looks_lastStop _).bind fun stop => ?_
  refine (h stop).fact.imp ?_ fun _ _ hs => hs
  rintro s ⟨hs, rfl⟩
  exact ⟨⟨hs.1, le_refl _⟩, hs.2, hs.1.stop⟩

end Reads

/-! ### What finds nothing -/

section Passes

variable {cs : List Char}

theorem passes_note (fault : Fault) (offset : Nat) : Passes cs (note fault offset) :=
  fun _ => ensures_note fault offset

/-- Where an arrow function may begin is no part of the text. -/
theorem passes_arrowStart (start : Option Nat) :
    Passes cs (modify fun s => { s with arrowStart := start }) := by
  refine fun lo => Ensures.via fun s =>
    ⟨pure (), { s with arrowStart := start }, rfl, fun h => h, .pure ?_⟩
  rintro _ ⟨rfl, ⟨hstop, hle, hstands⟩, hlo⟩
  exact ⟨⟨hstop, hle, hstands⟩, hlo⟩

theorem passes_fail (fault : Fault) (offset : Nat) : Passes cs (fail fault offset : Reader α) :=
  fun _ => .fail fault offset

/-- What is passed where a look allows it. -/
theorem Looks.tries {t : Token} {r : Reader Bool}
    (h : Looks r fun b s => b = true → s.current.token = t) (ht : t.IsWhole) : Tries cs (do if ← r then bump; return true else return false) := by
  intro K lo
  refine (h _).bind fun b => ?_
  split
  · rename_i hb
    refine Ensures.bind (Q := fun _ s => s.After cs lo) (ensures_bump ?_ ?_) fun _ => ?_
    · exact fun s hs _ => hs.1.1
    · exact fun s hs _ _ => hs.1.1.passed (State.isWhole_of_eq (hs.2 hb) ht)
    · exact .pure fun s hs => ⟨hs, nofun⟩
  · exact .pure fun s hs => ⟨hs.1.1, fun _ => hs.1.2⟩

theorem tries_eat (p : Punctuator) : Tries cs (eat p) := (looks_at? p).tries nofun

theorem tries_eatWord (w : String) : Tries cs (eatWord w) := (looks_word? w).tries nofun

theorem passes_eat (p : Punctuator) : Passes cs (eat p) := (tries_eat p).passes

theorem passes_eatWord (w : String) : Passes cs (eatWord w) := (tries_eatWord w).passes

theorem Reads.unexpected (wanted : String) {lo : Nat} {R : Nat → α → Prop} :
    Reads cs lo (unexpected wanted : Reader α) R :=
  looks_token.passes.skip fun _ => looks_blame.passes.skip fun _ => .fail _ _

theorem passes_unexpected (wanted : String) : Passes cs (unexpected wanted : Reader α) :=
  fun _ => .unexpected wanted

theorem passes_expect (p : Punctuator) : Passes cs (expect p) := by
  intro lo
  refine (passes_eat p).skip fun b => ?_
  split
  · exact .pure fun _ h => h
  · exact looks_token.passes.skip fun _ => looks_blame.passes.skip fun _ => .fail _ _

theorem passes_expectWord (w : String) : Passes cs (expectWord w) := by
  intro lo
  refine (passes_eatWord w).skip fun b => ?_
  split
  · exact .pure fun _ h => h
  · exact looks_token.passes.skip fun _ => looks_blame.passes.skip fun _ => .fail _ _

theorem passes_eatStatementEnd : Passes cs eatStatementEnd := by
  intro lo
  refine (passes_eat _).skip fun b => ?_
  split
  · exact .pure fun _ h => h
  · exact looks_atStatementEnd.passes lo

theorem passes_expectStatementEnd : Passes cs expectStatementEnd := by
  intro lo
  refine passes_eatStatementEnd.skip fun b => ?_
  split
  · exact .pure fun _ h => h
  · exact looks_token.passes.skip fun _ => looks_blame.passes.skip fun _ => .fail _ _

theorem passes_identifierName : Passes cs identifierName := by
  intro lo
  refine looks_need.read fun t => ?_
  split
  · refine .look looks_here fun start => ?_
    exact .bump (fun s hs => hs.1.2.1) (.pure fun _ h => h)
  · exact Reads.known (looks_blame.passes.skip fun _ => .fail _ _)

theorem passes_identifier (ctx : Context) : Passes cs (identifier ctx) := by
  intro lo
  refine looks_need.read fun t => ?_
  split
  · refine .look looks_here fun start => ?_
    refine .bump (fun s hs => hs.1.2.1) ?_
    extract_lets named checked
    have hnamed : ∀ u, Reads cs lo (named u) fun hi _ => lo ≤ hi := fun _ => .pure fun _ h => h
    have hchecked : ∀ u, Reads cs lo (checked u) fun hi _ => lo ≤ hi := by
      intro u
      unfold checked
      split
      · split <;> exact .fail _ _
      split
      · exact .fail _ _
      · exact (passes_note _ _).skip_if hnamed ()
    exact (passes_note _ _).skip_if hchecked ()
  · exact Reads.known (looks_blame.passes.skip fun _ => .fail _ _)

theorem passes_privateName : Passes cs privateName := by
  intro lo
  refine looks_lastStart.passes.skip fun start => ?_
  refine looks_here.passes.skip fun n => looks_lastStop.passes.skip fun stop => ?_
  extract_lets named
  have hnamed : ∀ u, Reads cs lo (named u) fun hi _ => lo ≤ hi := fun _ => passes_identifierName lo
  split
  · exact (passes_fail _ _).skip hnamed
  · exact hnamed ()

theorem passes_bindingIdentifier (ctx : Context) : Passes cs (bindingIdentifier ctx) := by
  intro lo
  refine (passes_identifier ctx).skip fun found => ?_
  obtain ⟨w, start⟩ := found
  dsimp -zeta only
  extract_lets named checked
  have hnamed : ∀ u, Reads cs lo (named u) fun hi _ => lo ≤ hi := fun _ => .pure fun _ h => h
  have hchecked : ∀ u, Reads cs lo (checked u) fun hi _ => lo ≤ hi :=
    fun _ => (passes_note _ _).skip_if hnamed ()
  exact (passes_note _ _).skip_if hchecked ()

end Passes

end Reader

end Script
end ElementBuild
