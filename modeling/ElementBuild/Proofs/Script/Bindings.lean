/-
# The names that imports bind

The names that an import binds are identifiers (`isIdentifier_of_parse`): each of them is a word
that the lexer has read, and behind the keyword of an import there is nothing but such tokens
(`State.Lexed`).
-/
import ElementBuild.Proofs.Script.Exports

namespace ElementBuild
namespace Script

open Reader
open Text (isIdentifierPart isIdentifierStart)

/-! ### Words that are read -/

theorem wordTail_text (skip : Nat) (cs : List Char) (pos : Nat) (acc : List Char) :
    ∃ w, (wordTail skip cs pos acc).text = w ++ acc ∧ ∀ c ∈ w, isIdentifierPart c = true := by
  have hsnoc : ∀ {acc text : List Char} {c : Char}, isIdentifierPart c = true →
      (∃ w, text = w ++ c :: acc ∧ ∀ c ∈ w, isIdentifierPart c = true) →
      ∃ w, text = w ++ acc ∧ ∀ c ∈ w, isIdentifierPart c = true := by
    rintro acc text c hc ⟨w, rfl, hw⟩
    refine ⟨w ++ [c], by rw [List.append_assoc]; rfl, fun d hd => ?_⟩
    rcases List.mem_append.1 hd with hd | hd
    · exact hw d hd
    · exact List.mem_singleton.1 hd ▸ hc
  fun_induction wordTail skip cs pos acc with
  | case2 skip c cs pos acc ih => exact ih
  | case3 c cs pos acc hc ih => exact hsnoc hc ih
  | case4 =>
    rename_i hpart _ ih
    exact hsnoc hpart ih
  | _ => exact ⟨[], rfl, fun _ hc => absurd hc List.not_mem_nil⟩

theorem isIdentifier_of_wordTail {skip : Nat} {cs : List Char} {pos : Nat} {c : Char}
    (hc : isIdentifierStart c = true) :
    IsIdentifier (String.ofList (wordTail skip cs pos [c]).text.reverse).toList := by
  obtain ⟨w, hw, hpart⟩ := wordTail_text skip cs pos [c]
  rw [hw, String.toList_ofList, List.reverse_append]
  exact ⟨hc, fun d hd => hpart d (List.mem_reverse.1 hd)⟩

theorem isIdentifier_of_tokenAt {g : Gap} {c : Char} {cs : List Char} {n : String}
    (h : (tokenAt g c cs).token = .word n) : IsIdentifier n.toList := by
  obtain ⟨d, skip, pos, hd, -, rfl⟩ := exists_wordTail_of_token h
  exact isIdentifier_of_wordTail hd

theorem isIdentifier_of_lexeme {cs : List Char} {pos : Nat} {w : String}
    (h : (lexeme cs pos).token = .word w) : IsIdentifier w.toList := by
  unfold lexeme lexemeAfter at h
  split at h
  · cases h
  · exact isIdentifier_of_tokenAt h

/-! ### Readers behind the keyword of an import -/

/-- If a word is next, it was read by the lexer. -/
def State.Lexed (s : State) : Prop := ∀ w, s.current.token = .word w → IsIdentifier w.toList

/-- A reader that goes on from lexed words to lexed words, with a result of one kind. -/
def Yields {α : Type} (r : Reader α) (P : α → Prop) : Prop :=
  ∀ s : State, s.Lexed → Runs s r fun a s' => s'.Lexed ∧ P a

namespace Yields

variable {α β : Type} {r : Reader α} {f : α → Reader β} {P : α → Prop} {R : β → Prop} {a : α}

protected theorem pure (h : P a) : Yields (pure a) P := fun _ hs => .pure ⟨hs, h⟩

protected theorem bind (h : Yields r P) (hf : ∀ a, P a → Yields (f a) R) : Yields (r >>= f) R :=
  fun s hs => (h s hs).bind fun a s' ha => hf a ha.2 s' ha.1

/-- What is read before does not matter. -/
theorem skip (h : Yields r fun _ => True) (hf : ∀ a, Yields (f a) R) : Yields (r >>= f) R :=
  h.bind fun a _ => hf a

theorem of_peeks (h : Peeks r) : Yields r fun _ => True :=
  fun s hs => (h s).imp fun _ _ heq => ⟨heq ▸ hs, trivial⟩

theorem fail (fault : Fault) (offset : Nat) : Yields (Reader.fail fault offset : Reader α) P :=
  fun _ _ => .fail _ _

theorem unexpected (wanted : String) : Yields (Reader.unexpected wanted : Reader α) P :=
  fun _ _ => .unexpected _

theorem skip_if {c : Prop} [Decidable c] (h : Yields r fun _ => True) (hf : ∀ a, Yields (f a) R)
    (a : α) : Yields (if c then r >>= f else f a) R := by
  split
  · exact h.skip hf
  · exact hf a

protected theorem loop {I : α → Prop} {step : α → Reader (α × Bool)}
    (hstep : ∀ a, I a → Yields (step a) fun found => I found.1) (n : Nat) (h : I a) :
    Yields (loop n step a) I :=
  fun _ hs => Runs.loop (I := fun a s' => s'.Lexed ∧ I a)
    (fun a s' ha => hstep a ha.2 s' ha.1) n ⟨hs, h⟩

end Yields

/-- Behind a token that was passed, words are read by the lexer. -/
theorem runs_bump (s : State) : Runs s bump fun _ s' => s'.Lexed := by
  constructor
  intro _ s' h
  by_cases htoken : s.current.token = .endOfText
  · cases h.symm.trans (bump_endOfText htoken)
    intro w hw
    rw [htoken] at hw
    cases hw
  · cases h.symm.trans (bump_eq htoken)
    exact fun w hw => isIdentifier_of_lexeme hw

theorem yields_bump : Yields bump fun _ => True :=
  fun _ _ => (runs_bump _).imp fun _ _ h => ⟨h, trivial⟩

theorem yields_note (fault : Fault) (offset : Nat) : Yields (note fault offset) fun _ => True := by
  intro s hs
  constructor
  obtain ⟨⟨t, start, stop, broken, faults, rest⟩, _, _, _, _⟩ := s
  cases t with
  | broken f =>
    rintro _ _ ⟨⟩
    exact ⟨fun w hw => isIdentifier_of_lexeme hw, trivial⟩
  | _ =>
    rintro _ _ ⟨⟩
    exact ⟨hs, trivial⟩

theorem yields_eat (p : Punctuator) : Yields (eat p) fun _ => True := by
  refine .skip (.of_peeks (peeks_at? p)) fun b => ?_
  split
  · exact .skip yields_bump fun _ => .pure trivial
  · exact .pure trivial

theorem peeks_word? (w : String) : Peeks (word? w) := fun _ => .step rfl (.pure rfl)

theorem yields_eatWord (w : String) : Yields (eatWord w) fun _ => True := by
  refine .skip (.of_peeks (peeks_word? w)) fun b => ?_
  split
  · exact .skip yields_bump fun _ => .pure trivial
  · exact .pure trivial

theorem peeks_token : Peeks token := fun _ => .step rfl (.pure rfl)

theorem yields_expect (p : Punctuator) : Yields (expect p) fun _ => True := by
  refine .skip (yields_eat p) fun b => ?_
  split
  · exact .pure trivial
  · exact .skip (.of_peeks peeks_token) fun _ => fun s hs => .skip fun _ _ => .fail _ _

theorem yields_expectWord (w : String) : Yields (expectWord w) fun _ => True := by
  refine .skip (yields_eatWord w) fun b => ?_
  split
  · exact .pure trivial
  · exact .skip (.of_peeks peeks_token) fun _ => fun s hs => .skip fun _ _ => .fail _ _

theorem peeks_need : Peeks need := fun s => (runs_need s).imp fun _ _ h => h.1

theorem peeks_here : Peeks here := by
  refine fun s => ⟨?_⟩
  rintro _ _ ⟨⟩
  rfl

theorem peeks_lastStop : Peeks lastStop := fun _ => .step rfl (.pure rfl)

theorem peeks_atEnd : Peeks atEnd := fun _ => .step rfl (.pure rfl)

theorem yields_whole :
    Yields whole fun t => ∀ w, t = some (.word w) → IsIdentifier w.toList := by
  intro s hs
  constructor
  obtain ⟨⟨t, start, stop, broken, faults, rest⟩, _, _, _, _⟩ := s
  cases t with
  | word w =>
    rintro _ _ ⟨⟩
    refine ⟨hs, ?_⟩
    rintro _ ⟨⟩
    exact hs _ rfl
  | broken f => rintro _ _ ⟨⟩
  | _ =>
    rintro _ _ ⟨⟩
    exact ⟨hs, nofun⟩

theorem yields_identifier (ctx : Context) : Yields (identifier ctx) fun _ => True := by
  unfold identifier
  refine .skip (.of_peeks peeks_need) fun t => ?_
  split
  · refine .skip (.of_peeks peeks_here) fun start => .skip yields_bump fun _ => ?_
    extract_lets named checked
    have hnamed : ∀ u, Yields (named u) fun _ => True := fun _ => .pure trivial
    have hchecked : ∀ u, Yields (checked u) fun _ => True := by
      intro u
      unfold checked
      split
      · split <;> exact .fail _ _
      split
      · exact .fail _ _
      · exact .skip_if (yields_note _ _) hnamed ()
    exact .skip_if (yields_note _ _) hchecked ()
  · exact fun s _ => .skip fun _ _ => .fail _ _

/-- A name that is bound is an identifier. -/
theorem yields_bindingIdentifier (ctx : Context) :
    Yields (bindingIdentifier ctx) fun found => IsIdentifier found.1.toList := by
  have hyields : Yields (bindingIdentifier ctx) fun _ => True := by
    unfold bindingIdentifier
    refine .skip (yields_identifier ctx) fun ⟨w, start⟩ => ?_
    dsimp -zeta only
    extract_lets result checked
    have hresult : ∀ u, Yields (result u) fun _ => True := fun _ => .pure trivial
    have hchecked : ∀ u, Yields (checked u) fun _ => True :=
      fun _ => .skip_if (yields_note _ _) hresult ()
    exact .skip_if (yields_note _ _) hchecked ()
  intro s hs
  refine ⟨fun h => ⟨((hyields s hs).ok h).1, ?_⟩⟩
  exact hs _ ((Grammar.runs_bindingIdentifier ctx s).ok h).1

namespace Grammar

variable {g : Grammar}

theorem yields_clauseName :
    Yields clauseName fun found => ∀ w, found.1 = .identifier w → IsIdentifier w.toList := by
  refine .skip (.of_peeks peeks_here) fun start => yields_whole.bind fun t ht => ?_
  split
  · exact .skip yields_bump fun _ => .skip (.of_peeks peeks_lastStop) fun _ => .pure nofun
  · refine .skip yields_bump fun _ => .pure ?_
    rintro _ ⟨⟩
    exact ht _ rfl
  · exact .unexpected _

theorem yields_importSpecifier (ctx : Context) :
    Yields (importSpecifier ctx) fun found => IsIdentifier found.binding.toList := by
  refine yields_clauseName.bind fun ⟨name, value, start⟩ hname => ?_
  refine .skip (yields_eatWord _) fun b => ?_
  split
  · exact (yields_bindingIdentifier ctx).bind fun found hfound => .pure hfound
  split
  · split
    · exact .fail _ _
    · exact .pure (hname _ rfl)
  · exact .fail _ _

theorem yields_clause {α : Type} {entry : Reader α} {P : α → Prop} (h : Yields entry P) :
    Yields (g.clause entry) fun entries => ∀ e ∈ entries, P e := by
  refine .bind (.loop (I := fun entries : List α => ∀ e ∈ entries, P e) (fun entries hentries => ?_)
    g.fuel nofun) fun entries hentries => ?_
  · refine .skip (.of_peeks peeks_atEnd) fun b => .skip (.of_peeks (peeks_at? _)) fun b' => ?_
    split
    · exact .pure hentries
    · refine .bind h fun e he => .skip (.of_peeks (peeks_at? _)) fun b => ?_
      have hall : ∀ e' ∈ e :: entries, P e' := List.forall_mem_cons.2 ⟨he, hentries⟩
      split
      · exact .pure hall
      · exact .skip (yields_expect _) fun _ => .pure hall
  · exact .skip (yields_expect _) fun _ => .pure fun e he => hentries e (List.mem_reverse.1 he)

theorem peeks_isPhase (w : String) : Peeks (isPhase w) := by
  intro s
  unfold isPhase
  split
  · refine .peek (peeks_word? _) fun b => ?_
    split
    · exact .peek peeks_peek fun _ => .pure rfl
    · exact .peek (peeks_at? _) fun _ => .peek (peeks_at? _) fun _ =>
        .peek peeks_atIdentifier fun _ => .pure rfl
  · exact .pure rfl

/-- The default binding of an import. -/
theorem yields_defaultBinding (ctx : Context) : Yields (defaultBinding ctx) fun found =>
    ∀ e ∈ found, IsIdentifier e.binding.toList := by
  refine .skip (.of_peeks peeks_atIdentifier) fun b => ?_
  split
  · refine (yields_bindingIdentifier _).bind fun ⟨w, start⟩ hw => ?_
    refine .skip (.of_peeks (peeks_isPhase w)) fun phase => ?_
    refine .skip (.of_peeks peeks_atIdentifier) fun b => ?_
    split
    · exact .pure nofun
    extract_lets bound
    have hbound : ∀ w : String, IsIdentifier w.toList → Yields (bound w) fun found =>
        ∀ e ∈ found, IsIdentifier e.binding.toList := by
      intro w hw
      refine .skip (.of_peeks (peeks_word? _)) fun b => ?_
      extract_lets result
      have hresult : ∀ u, Yields (result u) fun found =>
          ∀ e ∈ found, IsIdentifier e.binding.toList :=
        fun _ => .pure (List.forall_mem_singleton.2 hw)
      split
      · exact hresult ()
      · exact .skip (yields_expect _) hresult
    split
    · refine (yields_bindingIdentifier _).bind fun found hfound => ?_
      exact .bind (.pure hfound) hbound
    · exact .bind (.pure hw) hbound
  · exact .pure nofun

end Grammar

/-- The names that an item binds by an import. -/
def Item.bindings : Item → List String
  | .importFrom _ specifiers _ => specifiers.map (·.binding)
  | _ => []

namespace Grammar

variable {g : Grammar}

/-- An item of a kind that binds no names. -/
theorem returns_unbound {r : Reader Item} (h : Returns r fun i => i.bindings = []) :
    Returns r fun i => ∀ b ∈ i.bindings, IsIdentifier b.toList :=
  fun s => (h s).imp fun _ _ hi _ hb => absurd (hi ▸ hb) List.not_mem_nil

theorem returns_importItem (ctx : Context) :
    Returns (g.importItem ctx) fun i => ∀ b ∈ i.bindings, IsIdentifier b.toList := by
  refine .skip fun next => ?_
  split
  · exact .skip fun e => .skip fun _ => .pure nofun
  refine .skip fun start s => (runs_bump s).bind fun _ s₁ hs₁ => .peek peeks_whole fun t => ?_
  split
  · exact .skip fun _ _ => .skip fun _ _ => .skip fun _ _ => .pure nofun
  refine (yields_defaultBinding ctx s₁ hs₁).bind fun first s₂ ⟨hs₂, hfirst⟩ => ?_
  refine (yields_eat _ s₂ hs₂).bind fun b s₃ ⟨hs₃, _⟩ => ?_
  extract_lets imported
  have himported : ∀ others : List ImportSpecifier,
      (∀ e ∈ others, IsIdentifier e.binding.toList) → Returns (imported others) fun i =>
        ∀ b ∈ i.bindings, IsIdentifier b.toList := by
    refine fun others hothers => .skip fun source => .skip fun stop => .pure fun b hb => ?_
    obtain ⟨e, he, rfl⟩ := List.mem_map.1 hb
    rcases List.mem_append.1 he with he | he
    · exact hfirst e he
    · exact hothers e he
  split
  · refine (yields_expectWord _ s₃ hs₃).bind fun _ s₄ ⟨hs₄, _⟩ => ?_
    refine (yields_bindingIdentifier _ s₄ hs₄).bind fun found s₅ ⟨_, hfound⟩ => ?_
    exact .step rfl (himported _ (List.forall_mem_singleton.2 hfound) s₅)
  · refine (yields_eat _ s₃ hs₃).bind fun b s₄ ⟨hs₄, _⟩ => ?_
    split
    · refine (yields_clause (yields_importSpecifier ctx) s₄ hs₄).bind fun others s₅ hothers => ?_
      exact himported others hothers.2 s₅
    · exact .step rfl (himported [] nofun s₄)

theorem returns_exportClause (start : Nat) :
    Returns (g.exportClause start) fun i => i.bindings = [] := by
  refine .skip fun _ => .skip fun entries => .skip fun b => ?_
  split
  · exact .skip fun _ => .skip fun _ => .pure rfl
  · split
    · exact .fail _ _
    · exact .skip fun _ => .pure rfl

theorem returns_defaultExport (ctx : Context) :
    Returns (g.defaultExport ctx) fun i => i.bindings = [] := by
  refine .skip fun b => ?_
  split
  · exact .skip fun found => .pure rfl
  refine .skip fun b => .skip fun b' => ?_
  split
  · exact .skip fun _ => .skip fun found => .pure rfl
  refine .skip fun b => ?_
  split
  · exact .skip fun found => .pure rfl
  · exact .skip fun e => .skip fun _ => .skip fun _ => .pure rfl

theorem returns_exportItem (ctx : Context) :
    Returns (g.exportItem ctx) fun i => i.bindings = [] := by
  refine .skip fun start => .skip fun _ => .skip fun _ => .skip fun b => ?_
  split
  · refine .skip fun b => ?_
    split
    · exact .skip fun _ => .skip fun _ => .skip fun _ => .pure rfl
    · exact .skip fun _ => .skip fun _ => .pure rfl
  refine .skip fun b => ?_
  split
  · exact returns_defaultExport ctx
  refine .skip fun b => ?_
  split
  · exact .skip fun _ => .pure rfl
  refine .skip fun b => .skip fun b' => ?_
  split
  · exact .skip fun _ => .skip fun _ => .pure rfl
  refine .skip fun b => ?_
  split
  · exact .skip fun _ => .pure rfl
  refine .skip fun b => ?_
  split
  · exact .skip fun _ => .pure rfl
  · exact returns_exportClause start

theorem returns_item (ctx : Context) :
    Returns (g.item ctx) fun i => ∀ b ∈ i.bindings, IsIdentifier b.toList := by
  refine .skip fun b => ?_
  split
  · exact returns_importItem ctx
  refine .skip fun b => ?_
  split
  · exact returns_unbound (returns_exportItem ctx)
  · exact .skip fun _ => .pure nofun

end Grammar

/-- **The names that the imports of a module bind are identifiers.** -/
theorem isIdentifier_of_parse {cs : List Char} {m : Module} (h : parse cs = .ok m) :
    ∀ i ∈ m.items, ∀ b ∈ i.bindings, IsIdentifier b.toList := by
  intro i hi
  rw [items_of_parse h] at hi
  obtain ⟨⟨l, i⟩, hplaced, rfl⟩ := List.mem_map.1 hi
  obtain ⟨n, t, t', -, -, hitem, -⟩ := exists_item_of_parse h hplaced
  exact (Grammar.returns_item {} t).ok hitem

end Script
end ElementBuild
