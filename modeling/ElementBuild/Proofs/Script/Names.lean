/-
# Expressions that are names

What is read as an expression without commas has the form of a name only if it is a single word,
and no reserved one: each production that goes through an operand leaves it as it is, or makes
something else of it (`Grammar.findsNames_grammar`).  A text in which a fault is noted on the way
is refused in the end, so this is said of runs that end without one.

`Reader.Runs` says what holds if a reader ends well from a state, `Reader.Returns` what holds of its
result from any state.
-/
import ElementBuild.Proofs.Script.Items
import ElementBuild.Proofs.Statements

namespace ElementBuild
namespace Script

namespace Reader

variable {α β : Type} {r : Reader α} {f : α → Reader β} {s : State} {a : α}
  {Q Q' : α → State → Prop} {R : β → State → Prop}

/-- If the reader ends well from a state, this holds of its result and the state it leaves. -/
structure Runs (s : State) (r : Reader α) (Q : α → State → Prop) : Prop where
  ok : ∀ {a s'}, r s = .ok a s' → Q a s'

namespace Runs

protected theorem pure (h : Q a s) : Runs s (pure a) Q := by
  constructor
  rintro _ _ ⟨⟩
  exact h

theorem imp (h : Runs s r Q) (hQ : ∀ a s', Q a s' → Q' a s') : Runs s r Q' :=
  ⟨fun hr => hQ _ _ (h.ok hr)⟩

protected theorem bind (h : Runs s r Q) (hf : ∀ a s', Q a s' → Runs s' (f a) R) :
    Runs s (r >>= f) R := by
  constructor
  intro b s'' hb
  cases hr : r s with
  | ok a s' =>
    rw [bind_eq hr] at hb
    exact (hf a s' (h.ok hr)).ok hb
  | error e s' =>
    rw [bind_eq_error hr] at hb
    cases hb

/-- Whatever was read before. -/
theorem skip (hf : ∀ a s', Runs s' (f a) R) : Runs s (r >>= f) R :=
  Runs.bind (Q := fun _ _ => True) ⟨fun _ => trivial⟩ fun a s' _ => hf a s'

/-- A reader that is known to end well is passed. -/
theorem step {s' : State} (h : r s = .ok a s') (hf : Runs s' (f a) R) : Runs s (r >>= f) R :=
  ⟨fun hb => hf.ok ((bind_eq h f).symm.trans hb)⟩

theorem of_not_accepts (h : ¬ Accepts r s) : Runs s r Q := ⟨fun hr => absurd ⟨_, _, hr⟩ h⟩

theorem fail (fault : Fault) (offset : Nat) : Runs s (Reader.fail fault offset : Reader α) Q :=
  of_not_accepts not_accepts_fail

theorem unexpected (wanted : String) : Runs s (Reader.unexpected wanted : Reader α) Q :=
  .skip fun _ _ => .skip fun _ _ => .fail _ _

protected theorem tryCatch {g : Located → Reader α} (h : Runs s r Q)
    (hg : ∀ e s', Runs s' (g e) Q) : Runs s (tryCatch r g) Q := by
  constructor
  intro a s' ha
  change EStateM.tryCatch r g s = .ok a s' at ha
  unfold EStateM.tryCatch at ha
  cases hr : r s with
  | ok b t =>
    rw [hr] at ha
    exact h.ok (hr.trans ha)
  | error e t =>
    rw [hr] at ha
    exact (hg e t).ok ha

protected theorem loop {I : α → State → Prop} {step : α → Reader (α × Bool)}
    (hstep : ∀ a s, I a s → Runs s (step a) fun r s' => I r.1 s') (n : Nat) (h : I a s) :
    Runs s (loop n step a) I := by
  induction n generalizing a s with
  | zero => exact .pure h
  | succ n ih =>
    refine (hstep a s h).bind fun found s' hfound => ?_
    obtain ⟨a, more⟩ := found
    cases more with
    | true => exact ih hfound
    | false => exact .pure hfound

end Runs

/-- Every result of a reader satisfies a condition. -/
def Returns (r : Reader α) (Q : α → Prop) : Prop := ∀ s, Runs s r fun a _ => Q a

namespace Returns

variable {P : α → Prop} {S : β → Prop}

protected theorem pure (h : P a) : Returns (pure a) P := fun _ => .pure h

theorem skip (hf : ∀ a, Returns (f a) S) : Returns (r >>= f) S := fun _ => .skip fun a s' => hf a s'

protected theorem bind (h : Returns r P) (hf : ∀ a, P a → Returns (f a) S) : Returns (r >>= f) S :=
  fun s => (h s).bind fun a s' ha => hf a ha s'

/-- What is read under a condition, before what is read in any case. -/
theorem skip_if {c : Prop} [Decidable c] (hf : ∀ a, Returns (f a) S) (a : α) :
    Returns (if c then r >>= f else f a) S := by
  split
  · exact .skip hf
  · exact hf a

theorem fail (fault : Fault) (offset : Nat) : Returns (fail fault offset : Reader α) P :=
  fun _ => .fail fault offset

protected theorem throw (e : Located) : Returns (throw e : Reader α) P := fun _ => ⟨nofun⟩

end Returns

end Reader

open Reader

/-! ### Words -/

/-- A word that is no reserved one was next, and has been passed. -/
def State.Names (s : State) (w : String) (s' : State) : Prop :=
  s.current.token = .word w ∧ isReserved w = false ∧ s'.current = s.passed.current

theorem isReserved_eq_false {w : String} (h : reservedWords.contains w = false)
    (hawait : w ≠ "await") (hstrict : strictWords.contains w = false) : isReserved w = false := by
  unfold isReserved
  rw [h, Bool.false_or]
  unfold strictWords at hstrict
  simp only [List.contains_eq_mem, decide_eq_false_iff_not, List.mem_cons, not_or] at hstrict ⊢
  tauto

namespace Reader

theorem runs_note (fault : Fault) (offset : Nat) (s : State) :
    Runs s (note fault offset) fun _ s' => s'.noted ≠ [] := by
  constructor
  obtain ⟨⟨t, start, stop, broken, faults, rest⟩, _, _, _, _⟩ := s
  cases t <;> rintro _ _ ⟨⟩ <;> exact List.cons_ne_nil _ _

theorem runs_need (s : State) : Runs s need fun t s' => s' = s ∧ s.current.token = t ∧
    t.IsWhole ∧ t ≠ .endOfText := by
  constructor
  obtain ⟨⟨t, start, stop, broken, faults, rest⟩, _, _, _, _⟩ := s
  cases t <;> rintro _ _ ⟨⟩ <;> exact ⟨rfl, rfl, nofun, nofun⟩

/-- A reader that ends leaves the state as it is. -/
def Peeks {α : Type} (r : Reader α) : Prop := ∀ s, Runs s r fun _ s' => s' = s

/-- What is read from the same state. -/
theorem Runs.peek {α β : Type} {r : Reader α} {f : α → Reader β} {s : State} {R : β → State → Prop}
    (h : Peeks r) (hf : ∀ a, Runs s (f a) R) : Runs s (r >>= f) R :=
  (h s).bind fun a _ hs => hs ▸ hf a

theorem peeks_atIdentifier : Peeks atIdentifier := by
  intro s
  constructor
  obtain ⟨⟨t, start, stop, broken, faults, rest⟩, _, _, _, _⟩ := s
  cases t <;> rintro _ _ ⟨⟩ <;> rfl

/-- Where a punctuator is not next, nothing is passed. -/
theorem runs_eat (p : Punctuator) (s : State) : Runs s (eat p) fun b s' => b = false → s' = s := by
  constructor
  intro b s' h
  rw [eat_eq] at h
  split at h
  · cases h
    exact nofun
  · cases h
    exact fun _ => rfl

theorem eatWord_eq (w : String) (s : State) : eatWord w s =
    if s.current.token = .word w then .ok true s.passed else .ok false s := by
  have hword : word? w s = .ok (s.current.token == .word w) s := rfl
  unfold eatWord
  rw [bind_eq hword]
  split
  · rename_i h
    have htoken : s.current.token = .word w := eq_of_beq h
    rw [bind_eq (bump_eq (by rw [htoken]; exact Token.noConfusion)), if_pos htoken]
    rfl
  · rename_i h
    rw [if_neg fun htoken => h (beq_iff_eq.2 htoken)]
    rfl

/-- Where a word is not next, nothing is passed. -/
theorem runs_eatWord (w : String) (s : State) :
    Runs s (eatWord w) fun b s' => b = false → s' = s := by
  constructor
  intro b s' h
  rw [eatWord_eq] at h
  split at h
  · cases h
    exact nofun
  · cases h
    exact fun _ => rfl

theorem peeks_at? (p : Punctuator) : Peeks (at? p) := fun _ => .step rfl (.pure rfl)

theorem peeks_peek : Peeks peek := by
  intro s
  constructor
  obtain ⟨⟨t, start, stop, broken, faults, rest⟩, _, _, _, _⟩ := s
  cases t <;> rintro _ _ ⟨⟩ <;> rfl

theorem peeks_whole : Peeks whole := by
  intro s
  constructor
  obtain ⟨⟨t, start, stop, broken, faults, rest⟩, _, _, _, _⟩ := s
  cases t <;> rintro _ _ ⟨⟩ <;> rfl

theorem peeks_beforeFunction : Peeks Grammar.beforeFunction :=
  fun _ => .peek peeks_peek fun _ => .pure rfl

end Reader

/-- A note under a condition, before what leaves the state as it is if nothing is noted. -/
theorem runs_noteIf {α : Type} {c : Prop} [Decidable c] {fault : Fault} {offset : Nat} {s : State}
    {f : Unit → Reader α} {Q : α → Prop} (hf : ∀ u s, Runs s (f u) fun a s' => Q a ∧
      (s'.noted = [] → s' = s)) :
    Runs s (if c then note fault offset >>= f else f ()) fun a s' => Q a ∧
      (s'.noted = [] → ¬ c ∧ s' = s) := by
  split
  · refine (runs_note _ _ s).bind fun u s₁ hs₁ => (hf u s₁).imp fun a s' h => ⟨h.1, fun hs' => ?_⟩
    exact absurd (h.2 hs' ▸ hs') hs₁
  · rename_i hc
    exact (hf () s).imp fun a s' h => ⟨h.1, fun hs' => ⟨hc, h.2 hs'⟩⟩

theorem runs_identifier (ctx : Context) (s : State) : Runs s (identifier ctx) fun found s' =>
    reservedWords.contains found.1 = false ∧ s.current.token = .word found.1 ∧
      (s'.noted = [] → s.Names found.1 s') := by
  unfold identifier
  refine (runs_need s).bind fun t s' ht => ?_
  obtain ⟨rfl, htoken, -, hend⟩ := ht
  split
  · rename_i w
    refine .step rfl (.step (bump_eq (htoken ▸ hend)) ?_)
    extract_lets named checked
    have hnamed : ∀ u s₁, Runs s₁ (named u) fun found s₂ => found.1 = w ∧
        (s₂.noted = [] → s₂ = s₁) := fun _ s₁ => .pure ⟨rfl, fun _ => rfl⟩
    have hchecked : ∀ u s₁, Runs s₁ (checked u) fun found s₂ =>
        (found.1 = w ∧ reservedWords.contains w = false ∧ w ≠ "await") ∧
          (s₂.noted = [] → s₂ = s₁) := by
      intro u s₁
      unfold checked
      split
      · split <;> exact .fail _ _
      rename_i hawait
      split
      · exact .fail _ _
      rename_i hreserved
      refine (runs_noteIf hnamed).imp fun found s₂ h => ?_
      exact ⟨⟨h.1, by simpa using hreserved, by simpa using hawait⟩, fun hs₂ => (h.2 hs₂).2⟩
    refine (runs_noteIf hchecked).imp fun found s₂ h => ?_
    obtain ⟨⟨rfl, hreserved, hawait⟩, hs₂⟩ := h
    refine ⟨hreserved, htoken, fun hnoted => ?_⟩
    obtain ⟨hstrict, rfl⟩ := hs₂ hnoted
    exact ⟨htoken, isReserved_eq_false hreserved hawait (by simpa using hstrict), rfl⟩
  · exact .skip fun _ _ => .fail _ _

/-! ### Primary expressions -/

/-- An expression of another form than that of a name. -/
def Expr.IsOther (e : Expr) : Prop := ∀ w, e.form ≠ .name w

theorem Expr.isOther_of_form {e : Expr} {form : Form} (h : e.form = form)
    (hform : ∀ w, form ≠ .name w) : e.IsOther := fun w => h ▸ hform w

/-- What is read as a name is one word that is not reserved. -/
def FindsName (r : Reader Expr) : Prop :=
  ∀ s, Runs s r fun e s' => ∀ w, e.form = .name w → s'.noted = [] → s.Names w s'

theorem findsName_of_returns {r : Reader Expr} (h : Returns r Expr.IsOther) : FindsName r :=
  fun s => (h s).imp fun _ _ he w hw => absurd hw (he w)

/-- What is read behind an expression is another form, or nothing is read there. -/
def Continues (e : Expr) (r : Reader Expr) : Prop :=
  ∀ s, Runs s r fun e' s' => e'.IsOther ∨ e' = e ∧ s' = s

theorem continues_pure (e : Expr) : Continues e (pure e) := fun _ => .pure (.inr ⟨rfl, rfl⟩)

theorem continues_of_returns {e : Expr} {r : Reader Expr} (h : Returns r Expr.IsOther) :
    Continues e r := fun s => (h s).imp fun _ _ => .inl

theorem Continues.returns {e : Expr} {r : Reader Expr} (h : Continues e r) (he : e.IsOther) :
    Returns r Expr.IsOther := by
  refine fun s => (h s).imp fun e' s' h => ?_
  rcases h with h | ⟨rfl, -⟩
  · exact h
  · exact he

theorem Continues.peek {α : Type} {e : Expr} {r : Reader α} {f : α → Reader Expr} (h : Peeks r)
    (hf : ∀ a, Continues e (f a)) : Continues e (r >>= f) := fun s => .peek h fun a => hf a s

theorem FindsName.bind {r : Reader Expr} {f : Expr → Reader Expr} (h : FindsName r)
    (hf : ∀ e, Continues e (f e)) : FindsName (r >>= f) := by
  refine fun s => (h s).bind fun e s' he => (hf e s').imp fun e' s'' he' => ?_
  rcases he' with he' | ⟨rfl, rfl⟩
  · exact fun w hw => absurd hw (he' w)
  · exact he

theorem FindsName.ite {c : Prop} [Decidable c] {r r' : Reader Expr} (h : FindsName r)
    (h' : FindsName r') : FindsName (if c then r else r') := by
  split
  · exact h
  · exact h'

/-- What each production of a grammar reads as a name is one word. -/
structure Grammar.FindsNames (g : Grammar) : Prop where
  assignment : ∀ ctx, FindsName (g.assignment ctx)
  unary : ∀ ctx, FindsName (g.unary ctx)
  leftHandSide : ∀ ctx, FindsName (g.leftHandSide ctx)
  member : ∀ ctx, FindsName (g.member ctx)
  /-- The left operand was read before. -/
  operators : ∀ ctx e bound, Continues e (g.operators ctx e bound)

namespace Grammar

variable {g : Grammar}

theorem returns_plain (start : Nat) (form : Form) (calls : List ImportCall) :
    Returns (plain start form calls) fun e => e.form = form := .skip fun _ => .pure rfl

theorem returns_plain_isOther (start : Nat) {form : Form} (calls : List ImportCall)
    (h : ∀ w, form ≠ .name w) : Returns (plain start form calls) Expr.IsOther :=
  fun s => (returns_plain start form calls s).imp fun _ _ he => Expr.isOther_of_form he h

theorem returns_arrayLiteral (ctx : Context) : Returns (g.arrayLiteral ctx) Expr.IsOther :=
  .skip fun _ => .skip fun _ => .skip fun _ => .skip fun _ => .skip fun _ => .pure nofun

theorem returns_objectLiteral (ctx : Context) : Returns (g.objectLiteral ctx) Expr.IsOther :=
  .skip fun _ => .skip fun _ => .skip fun _ => .skip fun _ => .pure nofun

theorem returns_regexLiteral : Returns regexLiteral Expr.IsOther := by
  refine .skip fun start => .skip fun s => ?_
  extract_lets body found
  split
  · refine .skip fun _ => .skip fun _ => ?_
    extract_lets flags checked
    refine .skip_if (fun _ => ?_) ()
    unfold checked
    split
    · exact .skip fun _ => returns_plain_isOther _ _ nofun
    · exact returns_plain_isOther _ _ nofun
  · exact .skip fun _ => .throw _
  · exact .fail _ _

theorem returns_arrowAfterName (ctx : Context) (start : Nat) (isAsync : Bool) :
    Returns (g.arrowAfterName ctx start isAsync) Expr.IsOther :=
  .skip fun _ => returns_plain_isOther _ _ nofun

theorem returns_parenthesesOrArrow (hg : g.FindsNames) (ctx : Context) (canBeArrow : Bool)
    (asyncStart : Option Nat) :
    Returns (g.parenthesesOrArrow ctx canBeArrow asyncStart) Expr.IsOther := by
  refine .skip fun n => .skip fun found => .skip fun b => ?_
  extract_lets arrow allowed
  have harrow : ∀ u, Returns (arrow u) Expr.IsOther := by
    intro u
    refine .skip fun _ => .skip fun _ => .skip fun hasBraces => .skip fun body => ?_
    refine (returns_plain _ _ _).bind fun e he => .skip fun t => ?_
    have he : e.IsOther := Expr.isOther_of_form he nofun
    split
    · split
      · refine .skip fun _ => .skip fun _ => ?_
        refine Returns.bind ((hg.operators ctx e 0).returns he) fun e' he' => .skip fun b => ?_
        split
        · exact .pure he'
        · exact .skip fun _ => .skip fun _ => .pure he'
      · exact .pure he
    · exact .pure he
  split
  · refine .skip fun broken => .skip_if (fun _ => .skip_if harrow ()) ()
  · split
    · exact .skip fun _ => .pure nofun
    · split
      · exact .fail _ _
      · split
        · exact .fail _ _
        · extract_lets inner done
          have hdone : ∀ u, Returns (done u) Expr.IsOther :=
            fun _ => .skip fun _ => .pure fun _ => Form.noConfusion
          split
          · exact .skip hdone
          · exact hdone ()

theorem findsName_nameOrArrow (ctx : Context) (canBeArrow : Bool) :
    FindsName (g.nameOrArrow ctx canBeArrow) := by
  intro s
  have harrow : ∀ start isAsync, Returns (g.arrowAfterName ctx start isAsync) Expr.IsOther :=
    fun start isAsync => returns_arrowAfterName ctx start isAsync
  refine (runs_identifier ctx s).bind fun ⟨w, start⟩ s' hs' => ?_
  have hname : Runs s' (do return .leaf ⟨start, ← lastStop⟩ (.name w) [] [] : Reader Expr)
      fun e s'' => ∀ w, e.form = .name w → s''.noted = [] → s.Names w s'' := by
    refine .step (show lastStop s' = .ok s'.lastStop s' from rfl) (.pure ?_)
    rintro _ ⟨⟩ hnoted
    exact hs'.2.2 hnoted
  have hother {r : Reader Expr} (h : Returns r Expr.IsOther) :
      Runs s' r fun e s'' => ∀ w, e.form = .name w → s''.noted = [] → s.Names w s'' :=
    (h s').imp fun _ _ he w hw => absurd hw (he w)
  refine .step rfl (.peek peeks_atIdentifier fun b => ?_)
  split
  · exact hother (.skip fun _ => .skip fun _ => harrow _ _)
  refine .step rfl ?_
  split
  · exact hother (.skip fun _ => .skip_if (fun _ => harrow _ _) ())
  · exact hname

theorem findsName_primary (hg : g.FindsNames) (ctx : Context) : FindsName (g.primary ctx) := by
  intro s
  have hplain : ∀ start calls, Returns (plain start .other calls) Expr.IsOther :=
    fun start calls => returns_plain_isOther start calls fun _ => Form.noConfusion
  refine .step (show here s = .ok s.ahead s from rfl) (.step rfl (.step rfl ?_))
  split
  · exact findsName_of_returns (.skip fun _ => hplain _ _) s
  · exact findsName_of_returns (.skip fun _ => hplain _ _) s
  · exact findsName_of_returns (.skip fun _ => hplain _ _) s
  · exact findsName_of_returns (.skip fun _ => hplain _ _) s
  · refine .peek peeks_beforeFunction fun b => ?_
    split
    · exact findsName_of_returns (.skip fun _ => .skip fun _ => hplain _ _) s
    · refine .peek peeks_peek fun next => ?_
      split
      · exact findsName_of_returns (.skip fun _ => returns_parenthesesOrArrow hg _ _ _) s
      · exact findsName_nameOrArrow ctx _ s
  · exact findsName_of_returns (.skip fun _ => hplain _ _) s
  · exact findsName_of_returns (.skip fun _ => hplain _ _) s
  · exact findsName_of_returns (.skip fun _ => hplain _ _) s
  · exact findsName_of_returns (.skip fun _ => hplain _ _) s
  · refine findsName_of_returns (.skip fun _ => ?_) s
    exact returns_plain_isOther _ _ fun _ => Form.noConfusion
  · exact findsName_of_returns (returns_arrayLiteral ctx) s
  · exact findsName_of_returns (returns_objectLiteral ctx) s
  · exact findsName_of_returns (returns_parenthesesOrArrow hg _ _ _) s
  · exact findsName_of_returns (.skip fun _ => hplain _ _) s
  · exact findsName_of_returns returns_regexLiteral s
  · exact findsName_of_returns returns_regexLiteral s
  · exact findsName_of_returns (.skip fun _ => .skip fun _ => hplain _ _) s
  · split
    · exact findsName_nameOrArrow ctx _ s
    · exact findsName_of_returns (.skip fun _ => .fail _ _) s
  · exact findsName_of_returns (.skip fun _ => .fail _ _) s

/-! ### Members and calls -/

/-- The base is an expression of another form than that of a name, or none. -/
def Base.IsOther : Base → Prop
  | .expr e => e.IsOther
  | _ => True

theorem returns_memberOf (base : Base) (optional : Bool) (calls : List ImportCall) :
    Returns (memberOf base optional calls) Expr.IsOther := by
  refine .skip fun _ => .pure ?_
  split <;> exact fun _ => Form.noConfusion

/-- A reader that makes an expression of a base, and no name. -/
def Makes (r : Reader (Option Expr)) : Prop :=
  Returns r fun found => ∃ e, found = some e ∧ e.IsOther

theorem makes_pure {e : Expr} (he : e.IsOther) : Makes (pure (some e)) := .pure ⟨e, rfl, he⟩

theorem makes_memberOf (base : Base) (optional : Bool) (calls : List ImportCall) :
    Makes (do return some (← memberOf base optional calls)) :=
  (returns_memberOf base optional calls).bind fun _ => makes_pure

/-- Where a subscript is made, it does not matter in which state. -/
theorem Makes.runs {r : Reader (Option Expr)} (h : Makes r) (s s' : State) :
    Runs s' r fun found s'' => found.elim (s'' = s) Expr.IsOther := by
  refine (h s').imp ?_
  rintro _ _ ⟨e, rfl, he⟩
  exact he

/-- What a subscript makes of its base is no name; where none follows, the state is as it was. -/
theorem runs_subscript (ctx : Context) (noCall : Bool) (base : Base) (s : State) :
    Runs s (g.subscript ctx noCall base) fun found s' => found.elim (s' = s) Expr.IsOther := by
  unfold subscript
  refine (runs_eat .questionDot s).bind fun optional s₁ hs₁ => ?_
  refine (runs_eat .bracketOpen s₁).bind fun b s₂ hs₂ => ?_
  split
  · split
    · exact .fail _ _
    · refine Makes.runs ?_ s s₂
      exact .skip fun _ => .skip fun _ => .skip fun _ => makes_memberOf _ _ _
  rename_i hb
  obtain rfl := hs₂ (Bool.eq_false_of_not_eq_true hb)
  refine .step rfl ?_
  split
  · refine Makes.runs (.skip fun args => .skip fun stop => ?_) s _
    split
    · split
      · exact .skip fun _ => .fail _ _
      · exact makes_pure fun _ => Form.noConfusion
    · split
      · exact .skip fun _ => .fail _ _
      · exact makes_pure fun _ => Form.noConfusion
    · refine makes_pure ?_
      split <;> exact fun _ => Form.noConfusion
  refine .step rfl ?_
  split
  · refine Makes.runs (.skip fun _ => .skip fun _ => .skip fun _ => .skip fun _ => ?_) s _
    exact makes_pure fun _ => Form.noConfusion
  extract_lets whole behindDot
  have hwhole : ∀ u, Makes (whole u) := fun _ => makes_memberOf _ _ _
  have hdot : ∀ s', Runs s' (behindDot true) fun found s'' =>
      found.elim (s'' = s) Expr.IsOther := by
    refine Makes.runs (.skip fun isPrivate => .skip fun nameStart => ?_) s
    extract_lets named
    have hnamed : ∀ found, Makes (named found) := by
      rintro ⟨w, n⟩
      cases base with
      | import_ start =>
        dsimp only [named]
        split
        · exact .skip fun _ => makes_pure fun _ => Form.noConfusion
        · exact .fail _ _
      | super start => exact .skip fun _ => .skip_if hwhole ()
      | expr e => exact hwhole ()
    split
    · exact .skip hnamed
    · exact .skip hnamed
  split
  · exact hdot _
  rename_i hoptional
  obtain rfl := hs₁ (Bool.eq_false_of_not_eq_true hoptional)
  refine (runs_eat .dot s₂).bind fun dot s₃ hs₃ => ?_
  cases dot with
  | true => exact hdot _
  | false =>
    obtain rfl := hs₃ rfl
    dsimp only [behindDot]
    rw [if_neg Bool.false_ne_true]
    cases base with
    | expr e =>
      refine .step rfl ?_
      split
      · refine Makes.runs (.skip_if (fun _ => ?_) ()) _ _
        exact .skip fun _ => .skip fun _ => makes_pure fun _ => Form.noConfusion
      · exact .pure rfl
    | super start =>
      dsimp only
      split <;> exact .skip fun _ _ => .fail _ _
    | import_ start =>
      dsimp only
      split
      · exact .skip fun _ _ => .fail _ _
      · exact .unexpected _

/-- Where a word is not next, nothing is passed. -/
theorem findsName_eatWord {w : String} {f : Bool → Reader Expr}
    (htrue : Returns (f true) Expr.IsOther) (hfalse : FindsName (f false)) :
    FindsName (eatWord w >>= f) := by
  intro s
  refine (runs_eatWord w s).bind fun b s' hb => ?_
  cases b with
  | true => exact (htrue s').imp fun _ _ he w hw => absurd hw (he w)
  | false =>
    obtain rfl := hb rfl
    exact hfalse s'

theorem runs_subscripts (ctx : Context) (noCall : Bool) (base : Base) (s : State) :
    Runs s (g.subscripts ctx noCall base) fun e s' => e.IsOther ∨ base = .expr e ∧ s' = s := by
  refine Runs.bind (Runs.loop (I := fun base' s' => base'.IsOther ∨ base' = base ∧ s' = s)
    (fun base' s' hbase' => ?_) g.fuel (.inr ⟨rfl, rfl⟩)) fun base' s' hbase' => ?_
  · refine (runs_subscript ctx noCall base' s').bind fun found s'' hfound => ?_
    cases found with
    | some e => exact .pure (.inl hfound)
    | none =>
      obtain rfl : s'' = s' := hfound
      exact .pure hbase'
  · cases base' with
    | expr e =>
      refine .pure ?_
      rcases hbase' with he | ⟨rfl, rfl⟩
      · exact .inl he
      · exact .inr ⟨rfl, rfl⟩
    | super start => exact .skip fun _ _ => .pure (.inl fun _ => Form.noConfusion)
    | import_ start => exact .skip fun _ _ => .pure (.inl fun _ => Form.noConfusion)

theorem continues_subscripts (ctx : Context) (noCall : Bool) (e : Expr) :
    Continues e (g.subscripts ctx noCall (.expr e)) := by
  refine fun s => (runs_subscripts ctx noCall (.expr e) s).imp fun e' s' h => ?_
  rcases h with h | ⟨⟨⟩, rfl⟩
  · exact .inl h
  · exact .inr ⟨rfl, rfl⟩

theorem returns_subscripts {base : Base} (h : base.IsOther) (ctx : Context) (noCall : Bool) :
    Returns (g.subscripts ctx noCall base) Expr.IsOther := by
  refine fun s => (runs_subscripts ctx noCall base s).imp fun e s' he => ?_
  rcases he with he | ⟨rfl, -⟩
  · exact he
  · exact h

theorem returns_importExpression (ctx : Context) (start : Nat) (noCall : Bool) :
    Returns (g.importExpression ctx start noCall) Expr.IsOther := by
  have hsubscripts : Returns (g.subscripts ctx noCall (.import_ start)) Expr.IsOther :=
    returns_subscripts (by trivial) ctx noCall
  refine .skip fun b => ?_
  split
  · refine .skip fun next => ?_
    split
    · exact .skip fun _ => .skip fun _ => hsubscripts
    · exact hsubscripts
  · exact hsubscripts

/-- A `new` expression from behind its keyword on. -/
theorem findsName_memberExpression (hg : g.FindsNames) (ctx : Context) :
    FindsName (g.memberExpression ctx) := by
  intro s
  refine .step (show here s = .ok s.ahead s from rfl) (findsName_eatWord ?_ ?_ s)
  · refine .skip fun b => ?_
    split
    · refine .skip fun b => ?_
      split
      · extract_lets target
        have htarget : ∀ u, Returns (target u) Expr.IsOther := by
          refine fun _ => (returns_plain _ _ _).bind fun e he => returns_subscripts ?_ ctx true
          exact Expr.isOther_of_form he fun _ => Form.noConfusion
        split
        · exact htarget ()
        · exact .skip htarget
      · exact fun s => .unexpected _
    · refine .skip fun callee => ?_
      split
      · rename_i harrow
        exact .pure (Expr.isOther_of_form (eq_of_beq harrow) fun _ => Form.noConfusion)
      extract_lets behindCallee
      have hbehindCallee : ∀ u, Returns (behindCallee u) Expr.IsOther := by
        refine fun _ => .skip fun b => ?_
        split
        · refine .skip fun args => .skip fun stop => returns_subscripts ?_ ctx true
          exact fun _ => Form.noConfusion
        · exact .skip fun stop => .pure fun _ => Form.noConfusion
      exact .skip_if hbehindCallee ()
  · refine findsName_eatWord (fun _ => returns_subscripts (by trivial) ctx true _) ?_
    refine findsName_eatWord (returns_importExpression ctx _ true) ?_
    refine FindsName.bind (findsName_primary hg ctx) fun e => ?_
    split
    · exact continues_pure e
    · exact continues_subscripts ctx true e

theorem findsName_leftHandSideExpression (hg : g.FindsNames) (ctx : Context) :
    FindsName (g.leftHandSideExpression ctx) := by
  intro s
  refine .step (show here s = .ok s.ahead s from rfl) (findsName_eatWord ?_ ?_ s)
  · exact returns_subscripts (by trivial) ctx false
  · refine findsName_eatWord (returns_importExpression ctx _ false) ?_
    refine FindsName.bind (hg.member ctx) fun e => ?_
    split
    · exact continues_pure e
    · refine Continues.peek (peeks_at? _) fun b => ?_
      split
      · exact continues_subscripts ctx false e
      · exact continues_pure e

/-! ### Operands and operators -/

/-- The word is noted where it is taken for a name. -/
theorem findsName_awaitExpression (ctx : Context) : FindsName (g.awaitExpression ctx) := by
  intro s
  unfold awaitExpression
  refine .skip fun start s₁ => .skip fun _ s₂ => .skip fun b s₃ => ?_
  extract_lets operand behindStar inParameter
  have hoperand : ∀ u, Returns (operand u) Expr.IsOther :=
    fun _ => .skip fun e => .skip fun stop => .pure fun _ => Form.noConfusion
  have hparameter : ∀ u, Returns (behindStar u) Expr.IsOther := fun _ => .skip_if hoperand ()
  have hbehindStar : ∀ u s', Runs s' (inParameter u) fun e s'' =>
      ∀ w, e.form = .name w → s''.noted = [] → s.Names w s'' := by
    refine fun _ s₄ => .skip fun _ s₅ => .skip fun _ s₆ => ?_
    split
    · refine (runs_note _ _ s₆).bind fun _ s₇ hs₇ => .step rfl (.pure ?_)
      exact fun w _ hnoted => absurd hnoted hs₇
    · refine Runs.imp ?_ fun e _ (he : e.IsOther) w hw => absurd hw (he w)
      split
      · exact .skip fun _ _ => .skip fun _ _ => hparameter () _
      · exact hparameter () _
  split
  · exact .skip fun _ _ => .skip fun _ _ => hbehindStar () _
  · exact hbehindStar () s₃

theorem peeks_afterBreak : Peeks afterBreak := fun _ => .step rfl (.pure rfl)

theorem runs_eatUpdate (s : State) : Runs s eatUpdate fun b s' => b = false → s' = s := by
  refine (runs_eat .increment s).bind fun b s' hb => ?_
  cases b with
  | true => exact .pure nofun
  | false =>
    obtain rfl := hb rfl
    exact runs_eat .decrement s'

theorem findsName_unaryExpression (hg : g.FindsNames) (ctx : Context) :
    FindsName (g.unaryExpression ctx) := by
  intro s
  have hoperand : FindsName (if s.current.token == .word "await" then g.awaitExpression ctx else do
      let e ← g.leftHandSide ctx
      if e.form == .arrow then return e
      else if ← afterBreak then return e
      else if ← eatUpdate then
        checkTarget e
        return .leaf ⟨e.span.start, ← lastStop⟩ .update e.calls e.initializers
      else return e) := by
    refine FindsName.ite (findsName_awaitExpression ctx) ?_
    refine FindsName.bind (hg.leftHandSide ctx) fun e => ?_
    split
    · exact continues_pure e
    refine Continues.peek peeks_afterBreak fun b => ?_
    split
    · exact continues_pure e
    intro s
    refine (runs_eatUpdate s).bind fun b s' hb => ?_
    cases b with
    | true => exact .skip fun _ _ => .skip fun _ _ => .pure (.inl fun _ => Form.noConfusion)
    | false =>
      obtain rfl := hb rfl
      exact continues_pure e s'
  refine .step (show here s = .ok s.ahead s from rfl) (.step rfl ?_)
  refine (runs_eatUpdate s).bind fun b s' hb => ?_
  cases b with
  | true =>
    exact .skip fun _ _ => .skip fun _ _ => .pure fun _ => Form.noConfusion
  | false =>
    obtain rfl := hb rfl
    rw [if_neg Bool.false_ne_true]
    split
    · refine .skip fun _ _ => .skip fun _ _ => ?_
      extract_lets argStart
      refine .skip fun e s₁ => ?_
      extract_lets result
      have hresult : ∀ u s₂, Runs s₂ (result u) fun e s₃ =>
          ∀ w, e.form = .name w → s₃.noted = [] → s'.Names w s₃ :=
        fun _ _ => .pure fun _ => Form.noConfusion
      split
      · exact .skip fun _ _ => hresult () _
      · exact hresult () s₁
    · exact hoperand s'

theorem peeks_nextOperator? (ctx : Context) : Peeks (nextOperator? ctx) := by
  refine fun s => .peek peeks_whole fun t => ?_
  split
  · exact .pure rfl
  · split <;> exact .pure rfl
  · exact .pure rfl
  · exact .pure rfl

/-- Operators make something else of their left operand. -/
theorem continues_operatorsAfter (ctx : Context) (e : Expr) (bound : Nat) :
    Continues e (g.operatorsAfter ctx e bound) := by
  refine fun s => Runs.loop (I := fun (e' : Expr) s' => e'.IsOther ∨ e' = e ∧ s' = s)
    (fun e' s' he' => ?_) g.fuel (.inr ⟨rfl, rfl⟩)
  refine .peek (peeks_nextOperator? ctx) fun next => ?_
  split
  · exact .pure he'
  split
  · exact .pure he'
  rename_i op precedence _
  have hoperator : Returns (do
      bump
      if op == some .exp && (e'.form == .unary || e'.form == .awaiting) then
        fail .unaryBeforePower (← blame)
      let first ← g.unary ctx
      let right ← g.operators ctx first (if op == some .exp then precedence - 1 else precedence)
      if op == some .coalesce then
        if isLogical e' then note .mixedCoalescing e'.span.start
        if isLogical right then note .mixedCoalescing right.span.start
      else if (op == some .or || op == some .and) then
        if e'.form == .binary (some .coalesce) then note .mixedCoalescing e'.span.start
        if right.form == .binary (some .coalesce) then note .mixedCoalescing right.span.start
      return (Expr.leaf ⟨e'.span.start, right.span.stop⟩ (.binary op)
        (e'.calls ++ right.calls) (e'.initializers ++ right.initializers), true))
      fun found => found.1.IsOther := by
    refine .skip fun _ => ?_
    extract_lets behindPower
    have hbehindPower : ∀ u, Returns (behindPower u) fun found => found.1.IsOther := by
      refine fun _ => .skip fun first => .skip fun right => ?_
      extract_lets result coalescing logical
      have hresult : ∀ u, Returns (result u) fun found => found.1.IsOther :=
        fun _ => .pure fun _ => Form.noConfusion
      have hcoalescing : ∀ u, Returns (coalescing u) fun found => found.1.IsOther :=
        fun _ => .skip_if hresult ()
      have hlogical : ∀ u, Returns (logical u) fun found => found.1.IsOther :=
        fun _ => .skip_if hresult ()
      split
      · exact .skip_if hcoalescing ()
      split
      · exact .skip_if hlogical ()
      · exact hresult ()
    split
    · exact .skip fun _ => .skip hbehindPower
    · exact hbehindPower ()
  exact (hoperator s').imp fun _ _ => .inl

theorem findsName_binaryExpression (hg : g.FindsNames) (ctx : Context) :
    FindsName (g.binaryExpression ctx) := by
  refine FindsName.bind (fun s => ?_) fun e => ?_
  · refine Runs.tryCatch (hg.unary ctx s) fun f s' => ?_
    extract_lets missing
    have hmissing : Returns missing Expr.IsOther :=
      .skip fun _ => .skip fun _ => .pure fun _ => Form.noConfusion
    refine Runs.imp (Q := fun e _ => e.IsOther) ?_ fun e _ (he : e.IsOther) w hw => absurd hw (he w)
    refine .skip fun t s₁ => ?_
    split
    · exact .skip fun _ => Returns.throw _
    · exact .skip fun _ => Returns.throw _
    · split
      · exact hmissing s₁
      · exact Returns.throw _ s₁
    · exact hmissing s₁
    · exact hmissing s₁
    · exact Returns.throw _ s₁
  · split
    · exact continues_pure e
    · exact hg.operators ctx e 0

theorem findsName_conditionalExpression (hg : g.FindsNames) (ctx : Context) :
    FindsName (g.conditionalExpression ctx) := by
  refine FindsName.bind (findsName_binaryExpression hg ctx) fun e => ?_
  split
  · exact continues_pure e
  intro s
  refine (runs_eat .question s).bind fun b s' hb => ?_
  cases b with
  | true =>
    exact .skip fun _ _ => .skip fun _ _ => .skip fun _ _ => .skip fun _ _ =>
      .pure (.inl fun _ => Form.noConfusion)
  | false =>
    obtain rfl := hb rfl
    exact continues_pure e s'

theorem returns_yieldExpression (ctx : Context) : Returns (g.yieldExpression ctx) Expr.IsOther := by
  unfold yieldExpression
  refine .skip fun start => .skip fun _ => ?_
  extract_lets operand
  have hoperand : ∀ u, Returns (operand u) Expr.IsOther := by
    refine fun _ => .skip fun _ => .skip fun _ => ?_
    split
    · exact returns_plain_isOther _ _ fun _ => Form.noConfusion
    · exact .skip fun _ => .skip fun _ => .skip fun _ => .pure fun _ => Form.noConfusion
  split
  · exact .skip fun _ => .skip hoperand
  · exact hoperand ()

theorem findsName_assignmentExpression (hg : g.FindsNames) (ctx : Context) :
    FindsName (g.assignmentExpression ctx) := by
  intro s
  refine .step rfl ?_
  split
  · exact findsName_of_returns (returns_yieldExpression ctx) s
  refine .peek (fun s => (runs_need s).imp fun _ _ h => h.1) fun t => ?_
  refine .step (show here s = .ok s.ahead s from rfl) ?_
  extract_lets mayBeArrow
  refine .step rfl (Runs.imp ?_ fun e s' h => h)
  refine FindsName.bind (findsName_conditionalExpression hg ctx) (fun e => ?_) _
  split
  · exact continues_pure e
  · exact continues_pure e
  · exact continues_pure e
  · exact continues_pure e
  · exact continues_pure e
  refine Continues.peek peeks_whole fun t => ?_
  split
  · refine continues_of_returns ?_
    extract_lets isPlain isPattern assigned
    have hassigned : ∀ u, Returns (assigned u) Expr.IsOther :=
      fun _ => .skip fun _ => .skip fun _ => .skip fun _ => .pure fun _ => Form.noConfusion
    split
    · exact .skip hassigned
    split
    · exact hassigned ()
    · exact .skip hassigned
  · exact continues_pure e

end Grammar

theorem Grammar.findsNames_grammar (n : Nat) : (grammar n).FindsNames := by
  induction n with
  | zero =>
    have hfail : FindsName (Reader.fail .unexpectedEnd 0) := fun s => .fail _ _
    exact
      { assignment := fun _ => hfail
        unary := fun _ => hfail
        leftHandSide := fun _ => hfail
        member := fun _ => hfail
        operators := fun _ _ _ _ => .fail _ _ }
  | succ n ih =>
    exact
      { assignment := findsName_assignmentExpression ih
        unary := findsName_unaryExpression ih
        leftHandSide := findsName_leftHandSideExpression ih
        member := findsName_memberExpression ih
        operators := continues_operatorsAfter }

end Script
end ElementBuild
