/-
# Default exports

A default export names the word that is read behind `default`, or the one behind the `class` that
is there; only a function has its name further on (`State.Exports`).  This is said of the items of a
module with the token that each of them starts with (`placedItems`).
-/
import ElementBuild.Proofs.Script.Names
import ElementBuild.Proofs.Script.Words
import ElementBuild.Proofs.Splice

namespace ElementBuild
namespace Script

open Reader

/-- The word that is next is the name of what is exported here, or it opens a class or a function:
that of a class stands behind it. -/
def State.Exports (s : State) (n : String) : Prop :=
  s.current.token = .word n ∨ s.current.token = .word "class" ∧ s.passed.current.token = .word n ∨
    s.current.token = .word "async" ∨ s.current.token = .word "function"

/-! ### Where items start -/

namespace Grammar

/-- The items from a state on, each with the token it starts with. -/
def placedItems (g : Grammar) : Nat → State → List (Lexeme × Item)
  | 0, _ => []
  | n + 1, s =>
    match whole s with
    | .ok (some _) s' =>
      match g.item {} s' with
      | .ok i s'' => (s'.current, i) :: g.placedItems n s''
      | .error _ _ => []
    | _ => []

end Grammar

/-- The items of the module that a text writes, each with the token it starts with. -/
def placedItems (cs : List Char) : List (Lexeme × Item) :=
  let g := grammar (depthFor (withoutMark cs))
  g.placedItems g.fuel (Reader.initial (withoutMark cs))

namespace Grammar

variable {g : Grammar} {s u : State} {cs : List Char}

theorem itemRound_cases {found found' : List Item} {more : Bool}
    (h : g.itemRound found s = .ok (found', more) u) :
    (∃ t i, whole s = .ok (some t) s ∧ g.item {} s = .ok i u ∧ found' = i :: found ∧ more = true) ∨
      whole s = .ok none s ∧ found' = found ∧ more = false := by
  unfold itemRound at h
  cases hwhole : whole s with
  | error e s' =>
    rw [bind_eq_error hwhole] at h
    cases h
  | ok t s' =>
    obtain rfl := (peeks_whole s).ok hwhole
    rw [bind_eq hwhole] at h
    cases t with
    | none =>
      cases h
      exact .inr ⟨rfl, rfl, rfl⟩
    | some t =>
      cases hitem : g.item {} s' with
      | error e s'' =>
        dsimp only at h
        rw [bind_eq_error hitem] at h
        cases h
      | ok i s'' =>
        dsimp only at h
        rw [bind_eq hitem] at h
        cases h
        exact .inl ⟨t, i, rfl, rfl, rfl, rfl⟩

theorem loop_cases {α : Type} {step : α → Reader (α × Bool)} {n : Nat} {a b : α}
    (h : loop (n + 1) step a s = .ok b u) : ∃ a' more s', step a s = .ok (a', more) s' ∧
      (more = true ∧ loop n step a' s' = .ok b u ∨ more = false ∧ b = a' ∧ u = s') := by
  unfold loop at h
  cases hstep : step a s with
  | error e s' =>
    rw [bind_eq_error hstep] at h
    cases h
  | ok found s' =>
    rw [bind_eq hstep] at h
    obtain ⟨a', more⟩ := found
    refine ⟨a', more, s', rfl, ?_⟩
    cases more with
    | true => exact .inl ⟨rfl, h⟩
    | false =>
      cases h
      exact .inr ⟨rfl, rfl, rfl⟩

theorem placedItems_of_item {n : Nat} {t : Token} {i : Item} (hwhole : whole s = .ok (some t) s)
    (hitem : g.item {} s = .ok i u) :
    g.placedItems (n + 1) s = (s.current, i) :: g.placedItems n u := by
  rw [placedItems, hwhole]
  dsimp only
  rw [hitem]

theorem placedItems_of_none {n : Nat} (hwhole : whole s = .ok none s) :
    g.placedItems (n + 1) s = [] := by
  rw [placedItems, hwhole]

/-- The rounds of a module find its items. -/
theorem rounds_eq {n : Nat} {found found' : List Item}
    (h : loop n g.itemRound found s = .ok found' u) :
    found'.reverse = found.reverse ++ (g.placedItems n s).map Prod.snd := by
  induction n generalizing found s with
  | zero =>
    cases h
    exact (List.append_nil _).symm
  | succ n ih =>
    obtain ⟨found₁, more, s₁, hround, hrest⟩ := loop_cases h
    rcases itemRound_cases hround with ⟨t, i, hwhole, hitem, rfl, rfl⟩ | ⟨hwhole, rfl, rfl⟩
    · rcases hrest with ⟨-, hrest⟩ | ⟨⟨⟩, -⟩
      rw [ih hrest, placedItems_of_item hwhole hitem, List.reverse_cons, List.append_assoc]
      rfl
    · rcases hrest with ⟨⟨⟩, -⟩ | ⟨-, rfl, rfl⟩
      rw [placedItems_of_none hwhole, List.map_nil, List.append_nil]

theorem keeps_itemRound (hg : g.IsSound cs) (found : List Item) : Keeps (g.itemRound found) := by
  refine looks_whole.keeps.bind fun t => ?_
  split
  · exact looks_settle.keeps.bind fun _ => .pure _
  · exact (@reads_item g cs 0 hg {}).keeps.bind fun i => .pure _

/-- Where no fault was noted in the end, each item was read between two tokens of the text. -/
theorem exists_item (hg : g.IsSound cs) {n : Nat} {found found' : List Item}
    (h : loop n g.itemRound found s = .ok found' u) (hnoted : u.noted = []) (hs : s.Fits cs)
    {l : Lexeme} {i : Item} (hi : (l, i) ∈ g.placedItems n s) :
    ∃ t t', t.Fits cs ∧ t.current = l ∧ g.item {} t = .ok i t' ∧ t'.noted = [] := by
  induction n generalizing found s with
  | zero => cases hi
  | succ n ih =>
    obtain ⟨found₁, more, s₁, hround, hrest⟩ := loop_cases h
    rcases itemRound_cases hround with ⟨t, j, hwhole, hitem, rfl, rfl⟩ | ⟨hwhole, rfl, rfl⟩
    · rcases hrest with ⟨-, hrest⟩ | ⟨⟨⟩, -⟩
      have hs₁ : s₁.noted = [] := ((Keeps.loop (keeps_itemRound hg) n _).ok hrest hnoted).1
      rw [placedItems_of_item hwhole hitem, List.mem_cons] at hi
      rcases hi with hi | hi
      · cases hi
        exact ⟨s, s₁, hs, rfl, hitem, hs₁⟩
      · have hread := (@reads_item g cs s.lastStop hg {}).ok hitem hs₁
        exact ih hrest (hread.2 ⟨hs, le_refl _⟩).1 hi
    · rw [placedItems_of_none hwhole] at hi
      cases hi

/-! ### What is exported -/

theorem runs_bindingIdentifier (ctx : Context) (s : State) : Runs s (bindingIdentifier ctx)
    fun found _ => s.current.token = .word found.1 ∧ reservedWords.contains found.1 = false := by
  unfold bindingIdentifier
  refine (runs_identifier ctx s).bind fun ⟨w, start⟩ s' hs' => ?_
  have hname : s.current.token = .word w ∧ reservedWords.contains w = false := ⟨hs'.2.1, hs'.1⟩
  dsimp -zeta only
  extract_lets result checked
  have hresult : ∀ u, Returns (result u) fun found =>
      s.current.token = .word found.1 ∧ reservedWords.contains found.1 = false :=
    fun _ => .pure hname
  have hchecked : ∀ u, Returns (checked u) fun found =>
      s.current.token = .word found.1 ∧ reservedWords.contains found.1 = false :=
    fun _ => .skip_if hresult ()
  exact Returns.skip_if hchecked () s'

/-- A name that may be missing is the word that was next. -/
theorem runs_optionalName (ctx : Context) (s : State) : Runs s (optionalName ctx .optional)
    fun found _ => ∀ n, found = some n →
      s.current.token = .word n ∧ reservedWords.contains n = false := by
  refine .peek peeks_atIdentifier fun b => ?_
  split
  · refine (runs_bindingIdentifier ctx s).bind fun found s' hfound => .pure ?_
    rintro _ ⟨⟩
    exact hfound
  · exact .pure nofun


theorem expectWord_eq {w : String} (h : s.current.token = .word w) :
    expectWord w s = .ok () s.passed := by
  unfold expectWord
  rw [bind_eq ((eatWord_eq w s).trans (if_pos h))]
  rfl

/-- The name of a class is the word behind its keyword. -/
theorem runs_classDefinition (ctx : Context) (h : s.current.token = .word "class") :
    Runs s (g.classDefinition ctx .optional) fun found _ => ∀ n, found.1 = some n →
      s.passed.current.token = .word n ∧ reservedWords.contains n = false := by
  refine .step (expectWord_eq h) ?_
  refine (runs_optionalName ctx s.passed).bind fun name s' hname => ?_
  refine Runs.imp (Q := fun found _ => found.1 = name) (.skip fun b s₁ => ?_)
    fun found _ hfound n hn => hname n (hfound ▸ hn)
  extract_lets inner behindHeritage
  have hbehindHeritage : ∀ heritage, Returns (behindHeritage heritage) fun found =>
      found.1 = name := by
    refine fun heritage => .skip fun b => ?_
    extract_lets body
    have hbody : ∀ u, Returns (body u) fun found => found.1 = name := by
      refine fun _ => .skip fun _ => .skip fun members => .skip fun b => ?_
      extract_lets done
      have hdone : ∀ u, Returns (done u) fun found => found.1 = name := fun _ => .pure rfl
      split
      · exact .skip fun _ => .skip hdone
      · exact .skip hdone
    split
    · exact .skip fun _ => .skip fun _ => .skip fun _ => hbody ()
    · exact hbody ()
  split
  · exact .skip fun e s₂ => .step rfl (hbehindHeritage e.calls s₂)
  · exact .step rfl (hbehindHeritage [] s₁)

theorem returns_function (ctx : Context) (isAsync isExpression : Bool) :
    Returns (g.function ctx isAsync isExpression .optional) fun found =>
      ∀ n, found.1 = some n → reservedWords.contains n = false := by
  refine .skip fun _ => .skip fun isGenerator => ?_
  extract_lets inner nameContext
  refine Returns.bind (fun s => (runs_optionalName _ s).imp fun found _ h n hn => (h n hn).2) ?_
  exact fun name hname => .skip fun rest => .pure hname

/-- What is exported as default, once an expression has been read. -/
def exportExpression (e : Expr) : Reader Item := do
  settleInitializers e
  expectStatementEnd
  return .exportDefault
    (match e.form with
      | .name w => some w
      | _ => none) e.calls

theorem keeps_exportExpression (e : Expr) : Keeps (exportExpression e) := by
  refine (looks_settleInitializers e).keeps.bind fun _ => ?_
  exact (@passes_expectStatementEnd [] 0).keeps.bind fun _ => .pure _

theorem returns_exportExpression (e : Expr) : Returns (exportExpression e) fun i =>
    i = .exportDefault
      (match e.form with
        | .name w => some w
        | _ => none) e.calls :=
  .skip fun _ => .skip fun _ => .pure rfl

theorem form_eq_name {e : Expr} {n : String} (h : (match e.form with
    | .name w => some w
    | _ => none) = some n) : e.form = .name n := by
  split at h
  · rename_i w hform
    cases h
    exact hform
  · cases h

/-- **What a default export exports** is named by the word that is next, or behind `class`. -/
theorem runs_defaultExport (hg : g.FindsNames) (ctx : Context) (s : State) :
    Runs s (g.defaultExport ctx) fun i s' => ∃ name calls, i = .exportDefault name calls ∧
      ∀ n, name = some n → s'.noted = [] → s.Exports n ∧ reservedWords.contains n = false := by
  refine .step rfl ?_
  split
  · rename_i hclass
    have htoken : s.current.token = .word "class" := eq_of_beq hclass
    refine (runs_classDefinition ctx htoken).bind fun found s' hfound => .pure ?_
    exact ⟨_, _, rfl, fun n hn _ => ⟨.inr (.inl ⟨htoken, (hfound n hn).1⟩), (hfound n hn).2⟩⟩
  refine .step rfl (.peek peeks_beforeFunction fun b => ?_)
  split
  · rename_i hasync
    have htoken : s.current.token = .word "async" := eq_of_beq (Bool.and_eq_true_iff.1 hasync).1
    refine .skip fun _ s₁ => ?_
    refine (returns_function ctx true false s₁).bind fun found s' hfound => .pure ?_
    exact ⟨_, _, rfl, fun n hn _ => ⟨.inr (.inr (.inl htoken)), hfound n hn⟩⟩
  refine .step rfl ?_
  split
  · rename_i hfunction
    have htoken : s.current.token = .word "function" := eq_of_beq hfunction
    refine (returns_function ctx false false s).bind fun found s' hfound => .pure ?_
    exact ⟨_, _, rfl, fun n hn _ => ⟨.inr (.inr (.inr htoken)), hfound n hn⟩⟩
  refine (hg.assignment _ s).bind fun e s₁ he => ?_
  refine ⟨fun hi => ⟨_, _, (returns_exportExpression e s₁).ok hi, fun n hn hnoted => ?_⟩⟩
  obtain ⟨hnext, hreserved, -⟩ := he n (form_eq_name hn) ((keeps_exportExpression e).ok hi hnoted).1
  exact ⟨.inl hnext, (Bool.or_eq_false_iff.1 hreserved).1⟩

/-- The export of a default that opens with both its words. -/
theorem runs_item (hg : g.FindsNames) (ctx : Context) (hexport : s.current.token = .word "export")
    (hdefault : s.passed.current.token = .word "default") :
    Runs s (g.item ctx) fun i s' => ∃ name calls, i = .exportDefault name calls ∧
      ∀ n, name = some n → s'.noted = [] →
        s.passed.passed.Exports n ∧ reservedWords.contains n = false := by
  have hword : ∀ w, word? w s = .ok (s.current.token == .word w) s := fun _ => rfl
  refine .step (hword "import") ?_
  rw [hexport, if_neg (by decide)]
  refine .step (hword "export") ?_
  rw [hexport, if_pos (by decide)]
  refine .step (show here s = .ok s.ahead s from rfl) ?_
  refine .step (bump_eq (by rw [hexport]; exact Token.noConfusion)) ?_
  refine .peek (fun s => (runs_need s).imp fun _ _ h => h.1) fun t => ?_
  refine .step ((eat_eq _ _).trans (if_neg (by rw [hdefault]; exact Token.noConfusion))) ?_
  rw [if_neg Bool.false_ne_true]
  refine .step ((eatWord_eq _ _).trans (if_pos hdefault)) ?_
  exact runs_defaultExport hg ctx s.passed.passed

end Grammar

/-! ### Modules -/

open Grammar

section Module

variable {cs : List Char} {m : Module}

/-- The run that a module comes from. -/
theorem exists_rounds (h : parse cs = .ok m) : ∃ n found u,
    loop (grammar n).fuel (grammar n).itemRound [] (Reader.initial (withoutMark cs)) =
        .ok found u ∧ u.noted = [] ∧ m.items = found.reverse ∧
      placedItems cs =
        (grammar n).placedItems (grammar n).fuel (Reader.initial (withoutMark cs)) := by
  unfold parse at h
  dsimp only at h
  split at h
  · rename_i items s hitems
    split at h
    · rename_i hnoted
      obtain rfl := Except.ok.inj h
      rw [items_eq] at hitems
      cases hloop : loop (grammar (depthFor (withoutMark cs))).fuel
          (grammar (depthFor (withoutMark cs))).itemRound [] (Reader.initial (withoutMark cs)) with
      | ok found u =>
        rw [bind_eq hloop] at hitems
        cases hitems
        exact ⟨_, found, _, hloop, List.getLast?_eq_none_iff.1 hnoted, rfl, rfl⟩
      | error e u =>
        rw [bind_eq_error hloop] at hitems
        cases hitems
    · cases h
  · cases h

/-- A module has its items where they start. -/
theorem items_of_parse (h : parse cs = .ok m) : m.items = (placedItems cs).map Prod.snd := by
  obtain ⟨n, found, u, hloop, -, hitems, hplaced⟩ := exists_rounds h
  rw [hitems, hplaced, rounds_eq hloop]
  rfl

theorem exists_item_of_parse (h : parse cs = .ok m) {l : Lexeme} {i : Item}
    (hi : (l, i) ∈ placedItems cs) : ∃ n t t', t.Fits (withoutMark cs) ∧ t.current = l ∧
      (grammar n).item {} t = .ok i t' ∧ t'.noted = [] := by
  obtain ⟨n, found, u, hloop, hnoted, -, hplaced⟩ := exists_rounds h
  rw [hplaced] at hi
  have hinitial : (Reader.initial (withoutMark cs)).Fits (withoutMark cs) :=
    ⟨⟨[], _, rfl, rfl⟩, Nat.zero_le _, stands_firstLexeme _⟩
  exact ⟨n, exists_item (isSound_grammar _ n) hloop hnoted hinitial hi⟩

/-- A text is cut at an offset in one way. -/
theorem append_inj_of_byteLength {a b c d : List Char} (h : a ++ b = c ++ d)
    (hlength : Text.byteLength a = Text.byteLength c) : a = c ∧ b = d := by
  have hsplit := Text.splitAt?_append a b
  rw [h, hlength, Text.splitAt?_append] at hsplit
  cases hsplit
  exact ⟨rfl, rfl⟩

/-- **An item that starts with the two words of a default export** exports what is read behind
them. -/
theorem exports_of_placed (h : parse cs = .ok m) {l : Lexeme} {i : Item}
    (hi : (l, i) ∈ placedItems cs) {before blanks rest : List Char}
    (htext : withoutMark cs =
      before ++ ("export".toList ++ (blanks ++ ("default".toList ++ rest))))
    (hblanks : ∀ c ∈ blanks, isGapBlank c = true) (hrest : ∀ c ∈ rest.head?, isGapBlank c = true)
    (hexport : l.token = .word "export") (hstart : l.start = Text.byteLength before)
    (hstop : l.stop = l.start + 6) : ∃ name calls, i = .exportDefault name calls ∧
      ∀ n, name = some n → reservedWords.contains n = false ∧
        ∃ t : State, (∃ pos, t.current = lexeme rest pos) ∧ t.Exports n := by
  obtain ⟨n, t, t', hfits, rfl, hitem, hnoted⟩ := exists_item_of_parse h hi
  obtain ⟨before', own, hcs, hbefore', hown, -⟩ := hfits.stands.whole (hexport ▸ nofun)
  obtain ⟨rfl, hbehind⟩ := append_inj_of_byteLength (htext.symm.trans hcs)
    (hstart.symm.trans hbefore'.symm)
  have hlength : Text.byteLength "export".toList = Text.byteLength own :=
    (Nat.add_left_cancel (hown.trans hstop)).symm
  obtain ⟨rfl, hafter⟩ := append_inj_of_byteLength hbehind hlength
  have hdefault : t.passed.current.token = .word "default" ∧ t.passed.current.rest = rest := by
    change (lexeme t.current.rest t.current.stop).token = _ ∧
      (lexeme t.current.rest t.current.stop).rest = _
    rw [← hafter]
    have hspells := spells_lexeme hblanks (w := "default".toList) (by decide) hrest t.current.stop
    exact ⟨hspells.token, hspells.rest⟩
  obtain ⟨name, calls, hname, hexports⟩ :=
    (runs_item (findsNames_grammar n) {} hexport hdefault.1).ok hitem
  refine ⟨name, calls, hname, fun w hw => ?_⟩
  obtain ⟨hexports, hreserved⟩ := hexports w hw hnoted
  refine ⟨hreserved, t.passed.passed, ⟨t.passed.current.stop, ?_⟩, hexports⟩
  rw [← hdefault.2]
  rfl

end Module

end Script
end ElementBuild
