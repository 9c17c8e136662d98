/-
# What primary expressions find

Templates and regular expressions are read where another token was seen, so here the state of the
reader is set up anew: it still stands between two tokens of the text (`State.Fits.chunk`,
`State.Fits.regex`).  The elements in parentheses are found before it is known what they are, a
sequence or the parameters of an arrow function, so their calls are kept with their places
(`reads_parenthesized`).
-/
import ElementBuild.Script.Grammar.Primary
import ElementBuild.Proofs.Script.Functions

namespace ElementBuild
namespace Script

/-! ### Other tokens in the place of one -/

namespace State

variable {s : State} {cs : List Char}

/-- The text of a template is read behind the token that opens it. -/
theorem Fits.chunk (h : s.Fits cs)
    (hwhole : s.current.token.IsWhole) (n : Nat) :
    State.Fits { s with
      lastStart := n, lastStop := (templateChunk s.current.rest s.current.stop).stop
      current := lexeme (templateChunk s.current.rest s.current.stop).rest
        (templateChunk s.current.rest s.current.stop).stop } cs ∧
      s.lastStop ≤ (templateChunk s.current.rest s.current.stop).stop := by
  obtain ⟨before, own, hcs, hstart, hstop, -⟩ := h.stands.whole hwhole
  have hle := h.start_le hwhole
  obtain ⟨text, hrest, hchunk⟩ := leads_chunkTail 0 s.current.rest s.current.stop [] none
  have hcs' : cs = before ++ own ++ text ++ (templateChunk s.current.rest s.current.stop).rest := by
    rw [hcs, List.append_assoc, List.append_assoc]
    exact congrArg (fun rest => before ++ (own ++ rest)) hrest
  refine ⟨fits_lexeme hcs' ?_ rfl, ?_⟩
  · rw [Text.byteLength_append, Text.byteLength_append, hstart, hstop]
    exact hchunk
  · exact (h.le.trans hle).trans (hchunk ▸ Nat.le_add_right _ _)

/-- A regular expression is read from the slash on that was taken for an operator. -/
theorem Fits.regex (h : s.Fits cs) {body : List Char}
    (hbody : ∃ p : Punctuator, s.current.token = .punctuator p ∧
      p.text.toList ++ s.current.rest = '/' :: body) :
    State.Fits { s with current := regexLexeme s.current body } cs := by
  obtain ⟨p, htoken, hbody⟩ := hbody
  obtain ⟨before, own, hcs, hstart, -, hwrites⟩ :=
    h.stands.whole (State.isWhole_of_eq htoken nofun)
  unfold Lexeme.Writes at hwrites
  rw [htoken] at hwrites
  rw [hwrites, hbody] at hcs
  obtain ⟨hstands, hsame⟩ := stands_regexLexeme hcs hstart
  exact ⟨h.stop, hsame ▸ h.le, hstands⟩

end State

namespace Grammar

open Reader

variable {g : Grammar} {cs : List Char} {lo mid : Nat}

theorem reads_plain (lo : Nat) {start : Nat} {form : Form} {calls : List ImportCall}
    (hform : form ≠ .string) : Reads cs mid (plain start form calls) fun hi e =>
      Calls cs lo mid calls → e.Lies cs lo hi :=
  looks_lastStop.passes.skip fun _ => .pure fun _ h hcalls => Expr.lies_leaf hform (hcalls.mono h)

/-! ### Arrays and objects -/

theorem Parts.calls_closeSpread (p : Parts) : p.closeSpread.calls = p.calls := by
  unfold Parts.closeSpread
  split <;> rfl

theorem findsExpr_arrayLiteral (hg : g.IsSound cs) (ctx : Context) :
    FindsExpr cs (g.arrayLiteral ctx) := by
  intro lo
  refine looks_here.passes.skip fun start => (passes_expect _).skip fun _ => ?_
  refine (Reads.rounds (I := fun hi (parts : Parts) => Calls cs lo hi parts.calls)
    (fun m hm => .nil hm) fun mid parts => ?_).bind fun mid parts => ?_
  · refine looks_atEnd.passes.skip fun b => (looks_at? _).passes.skip fun b' => ?_
    split
    · exact .pure fun hi h hparts => hparts.mono h
    refine (passes_eat _).skip fun b => ?_
    split
    · exact .pure fun hi h hparts => parts.calls_closeSpread ▸ hparts.mono h
    refine (reads_spreadable hg _).bind fun mid' ⟨spread, e⟩ => ?_
    have hadd : ∀ hi, mid' ≤ hi → e.Lies cs mid mid' → Calls cs lo mid parts.calls →
        Calls cs lo hi (parts.closeSpread.add e spread).calls := fun hi h he hparts =>
      (parts.calls_closeSpread ▸ hparts).append (he.calls.mono h)
    refine (looks_at? _).passes.skip fun b => ?_
    split
    · exact .pure hadd
    refine (passes_expect _).skip fun _ => looks_lastStart.passes.skip fun comma => ?_
    refine (looks_at? _).passes.skip fun b => ?_
    split
    · exact .pure hadd
    · exact .pure hadd
  · refine (passes_expect _).skip fun _ => looks_lastStop.passes.skip fun stop => ?_
    exact .pure fun hi h hparts => ⟨hparts.mono h, nofun⟩

/-- A method spoils an object as a pattern. -/
theorem reads_spoiling (hg : g.IsSound cs) (ctx methodContext : Context)
    (isAsync isGenerator : Bool) {parts parts' : Parts} (start lo mid : Nat)
    (hparts : Calls cs lo mid parts.calls → Calls cs lo mid parts'.calls) :
    Reads cs mid (do
      let (_, keyCalls) ← g.propertyName ctx
      let (calls, _) ← g.functionRest methodContext isAsync isGenerator
      return parts'.spoil start (keyCalls ++ calls)) fun hi found =>
        Calls cs lo mid parts.calls → Calls cs lo hi found.calls := by
  refine (finds_propertyName hg ctx mid).bind fun mid₁ ⟨_, keyCalls⟩ => ?_
  refine (finds_functionRest hg _ _ _ mid₁).bind fun mid₂ ⟨calls, _⟩ => ?_
  exact .pure fun hi h hcalls hkey hfound => (hparts hfound).append (hkey.append (hcalls.mono h))

theorem reads_property (hg : g.IsSound cs) (ctx : Context) (parts : Parts) (lo mid : Nat) :
    Reads cs mid (g.property ctx parts) fun hi parts' =>
      Calls cs lo mid parts.calls → Calls cs lo hi parts'.calls := by
  refine looks_here.passes.skip fun start => ?_
  extract_lets methodContext opened
  have hopened : Calls cs lo mid parts.calls → Calls cs lo mid opened.calls :=
    fun h => parts.calls_closeSpread ▸ h
  refine (passes_eat _).skip fun b => ?_
  split
  · refine (hg.assignment _ mid).bind fun mid' e => .pure fun hi h he hparts => ?_
    exact (hopened hparts).append (he.calls.mono h)
  refine (passes_eat _).skip fun b => ?_
  split
  · exact reads_spoiling hg ctx _ _ _ start lo mid hopened
  refine (finds_propertyName hg ctx mid).bind fun mid₁ ⟨key, keyCalls⟩ => ?_
  refine (passes_eat _).skip fun b => ?_
  split
  · refine (hg.assignment _ mid₁).bind fun mid₂ e => .pure fun hi h he hkey hparts => ?_
    exact ((hopened hparts).append hkey).append (he.calls.mono h)
  refine (looks_at? _).passes.skip fun b => ?_
  split
  · refine (finds_functionRest hg _ _ _ mid₁).bind fun mid₂ ⟨calls, count⟩ => ?_
    exact .pure fun hi h hcalls hkey hparts => (hopened hparts).append (hkey.append (hcalls.mono h))
  -- from here on the name was a word, so nothing was found in it
  split
  · rename_i w offset
    refine (passes_eat _).skip fun b => ?_
    extract_lets shorthand behindName
    have hbehindName : ∀ u, Reads cs mid₁ (behindName u) fun hi parts' =>
        Calls cs mid mid₁ keyCalls → Calls cs lo mid parts.calls → Calls cs lo hi parts'.calls := by
      intro _
      refine (looks_at? _).passes.skip fun b => (looks_at? _).passes.skip fun b' => ?_
      refine (looks_at? _).passes.skip fun b'' => ?_
      split
      · have hshorthand : ∀ u, Reads cs mid₁ (shorthand u) fun hi parts' =>
            Calls cs mid mid₁ keyCalls → Calls cs lo mid parts.calls →
              Calls cs lo hi parts'.calls := by
          intro _
          refine (passes_eat _).skip fun b => ?_
          split
          · refine (hg.assignment _ mid₁).bind fun mid₂ e => .pure fun hi h he hkey hparts => ?_
            exact (hopened hparts).append (he.calls.widen hkey.le h)
          · refine .pure fun hi h hkey hparts => ?_
            exact (hopened hparts).append (.nil (hkey.le.trans h))
        exact (passes_note _ _).skip_if hshorthand ()
      split
      · refine (finds_propertyName hg ctx mid₁).bind fun mid₂ ⟨key', keyCalls'⟩ => ?_
        refine (finds_functionRest hg _ _ _ mid₂).bind fun mid₃ ⟨calls, count⟩ => ?_
        dsimp -zeta only
        extract_lets done counted
        have hdone : ∀ u, Reads cs mid₃ (done u) fun hi parts' => Calls cs mid₂ mid₃ calls →
            Calls cs mid₁ mid₂ keyCalls' → Calls cs mid mid₁ keyCalls →
              Calls cs lo mid parts.calls → Calls cs lo hi parts'.calls :=
          fun _ => .pure fun hi h hcalls hkey' hkey hparts =>
            (hopened hparts).append ((hkey'.append (hcalls.mono h)).widen hkey.le (le_refl hi))
        have hcounted : ∀ u, Reads cs mid₃ (counted u) fun hi parts' => Calls cs mid₂ mid₃ calls →
            Calls cs mid₁ mid₂ keyCalls' → Calls cs mid mid₁ keyCalls →
              Calls cs lo mid parts.calls → Calls cs lo hi parts'.calls :=
          fun _ => (passes_note _ _).skip_if hdone ()
        exact (passes_note _ _).skip_if hcounted ()
      split
      · refine (passes_eat _).skip fun isGenerator => ?_
        refine (reads_spoiling hg ctx _ _ _ start lo mid₁ fun h => h).imp
          fun hi parts' h hkey hparts => ?_
        exact h ((hopened hparts).mono hkey.le)
      · exact .unexpected _
    split
    · exact looks_lastStart.passes.skip fun n => (passes_note _ _).skip hbehindName
    · exact hbehindName ()
  · exact .unexpected _

theorem findsExpr_objectLiteral (hg : g.IsSound cs) (ctx : Context) :
    FindsExpr cs (g.objectLiteral ctx) := by
  intro lo
  refine looks_here.passes.skip fun start => (passes_expect _).skip fun _ => ?_
  refine (Reads.rounds (I := fun hi (parts : Parts) => Calls cs lo hi parts.calls)
    (fun m hm => .nil hm) fun mid parts => ?_).bind fun mid parts => ?_
  · refine (passes_eat _).skip fun b => ?_
    split
    · exact .pure fun hi h hparts => hparts.mono h
    refine (reads_property hg _ parts lo mid).bind fun mid' parts' => ?_
    have hmono : ∀ hi, mid' ≤ hi → (Calls cs lo mid parts.calls → Calls cs lo mid' parts'.calls) →
        Calls cs lo mid parts.calls → Calls cs lo hi parts'.calls :=
      fun hi h hproperty hparts => (hproperty hparts).mono h
    refine (looks_at? _).passes.skip fun b => ?_
    split
    · exact .pure hmono
    refine (passes_expect _).skip fun _ => looks_lastStart.passes.skip fun comma => ?_
    refine (looks_at? _).passes.skip fun b => ?_
    split
    · exact .pure hmono
    · exact .pure hmono
  · refine looks_lastStop.passes.skip fun stop => ?_
    exact .pure fun hi h hparts => ⟨hparts.mono h, nofun⟩

/-! ### Templates -/

/-- Template text is read behind the token that opens it. -/
theorem readsIf_templateText {K : State → Prop} (hK : ∀ s, K s → s.current.token.IsWhole)
    (tagged : Bool) (opening : Nat) :
    ReadsIf cs K lo (templateText tagged opening) fun hi _ => lo ≤ hi := by
  refine Ensures.bind (looks_settle _) fun _ => .via fun s => ?_
  have hget : ∀ f : State → Reader Bool, (get >>= f : Reader Bool) s = f s s := fun _ => rfl
  rw [hget]
  cases hrest : s.current.rest with
  | nil => exact ⟨throw _, _, rfl, fun h => h, .throw _⟩
  | cons c rest =>
    have hset : ∀ n (b : Bool), Ensures (fun t => t = { s with
        lastStart := n, lastStop := (templateChunk (c :: rest) s.current.stop).stop
        current := lexeme (templateChunk (c :: rest) s.current.stop).rest
          (templateChunk (c :: rest) s.current.stop).stop } ∧ (s.After cs lo ∧ K s) ∧ True)
        (pure b) fun _ t => t.Fits cs ∧ lo ≤ t.lastStop := by
      refine fun n b => .pure ?_
      rintro _ ⟨rfl, ⟨⟨hs, hlo⟩, hs'⟩, -⟩
      obtain ⟨hfits, hle⟩ := hs.chunk (hK s hs') n
      rw [hrest] at hfits hle
      exact ⟨hfits, hlo.trans hle⟩
    dsimp only
    generalize templateChunk (c :: rest) s.current.stop = chunk at hset ⊢
    obtain ⟨raw, ending, stop, rest', fault⟩ := chunk
    cases ending with
    | unterminated => exact ⟨throw _, s, rfl, fun h => h, .throw _⟩
    | _ =>
      cases fault with
      | none => exact ⟨pure _, _, rfl, fun h => h, hset _ _⟩
      | some f =>
        cases tagged with
        | false => exact ⟨throw _, s, rfl, fun h => h, .throw _⟩
        | true => exact ⟨pure _, _, rfl, fun h => h, hset _ _⟩

theorem readsIf_templateLiteral (hg : g.IsSound cs) {K : State → Prop}
    (hK : ∀ s, K s → s.current.token.IsWhole) (ctx : Context) (tagged : Bool) :
    ReadsIf cs K lo (g.templateLiteral ctx tagged) fun hi calls => Calls cs lo hi calls := by
  refine .look looks_here fun start => ?_
  refine (readsIf_templateText (fun s hs => hK s hs.1) tagged start).skip fun more => ?_
  refine (Reads.rounds (I := fun hi (found : List ImportCall × Bool) => Calls cs lo hi found.1)
    (fun m hm => .nil hm) fun mid ⟨calls, more⟩ => ?_).bind fun mid found => ?_
  · dsimp only
    split
    · exact .pure fun hi h hcalls => hcalls.mono h
    refine (findsExpr_expression hg _ mid).bind fun mid' e => (looks_at? _).read fun b => ?_
    split
    · rename_i hb
      refine ReadsIf.skip (readsIf_templateText ?_ tagged start) fun more => ?_
      · exact fun s hs => State.isWhole_of_eq (hs hb) nofun
      · exact .pure fun hi h he hcalls => hcalls.append (he.calls.mono h)
    · refine Reads.known ((passes_expect _).skip fun _ => .pure fun hi h he hcalls => ?_)
      exact hcalls.mono (he.le.trans h)
  · exact .pure fun hi h hfound => hfound.mono h

/-! ### Regular expressions -/

theorem readsIf_regexLiteral {K : State → Prop} (hK : ∀ s, K s →
    s.current.token = .punctuator (.binary .div) ∨
      s.current.token = .punctuator (.assign (some .div))) :
    ReadsIf cs K lo regexLiteral fun hi e => e.Lies cs lo hi := by
  refine .look looks_here fun start => .via fun s => ?_
  have hget : ∀ f : State → Reader Expr, (get >>= f : Reader Expr) s = f s s := fun _ => rfl
  rw [hget]
  generalize hfound : regexLexeme s.current _ = found
  cases htoken : found.token with
  | regex pattern flags =>
    have hset : ∀ (t : State) (f : PUnit → Reader Expr), (set t >>= f : Reader Expr) s = f () t :=
      fun _ _ => rfl
    refine ⟨_, _, hset _ _, fun h => h, ?_⟩
    refine Ensures.imp (P := fun t => t.After cs lo ∧ t.current.token.IsWhole)
      (ReadsIf.bump (S := fun hi e => e.Lies cs lo hi) (fun _ h => h) ?_) ?_ fun _ _ h => h
    · extract_lets letters done checked
      have hdone : ∀ u, Reads cs lo (done u) fun hi e => e.Lies cs lo hi := fun _ =>
        (reads_plain lo (by decide)).imp fun hi e he => he (.nil (le_refl lo))
      have hchecked : ∀ u, Reads cs lo (checked u) fun hi e => e.Lies cs lo hi := by
        intro _
        unfold checked
        split
        · exact (passes_note _ _).skip hdone
        · exact hdone ()
      exact (passes_note _ _).skip_if hchecked ()
    · rintro _ ⟨rfl, hs, hs', -⟩
      refine ⟨⟨?_, hs.2⟩, fun e he => by cases htoken.symm.trans he⟩
      rw [← hfound]
      refine hs.1.regex ?_
      rcases hK s hs' with h | h
      · exact ⟨_, h, by rw [h]; rfl⟩
      · exact ⟨_, h, by rw [h]; rfl⟩
  | broken f => exact ⟨throw _, _, rfl, fun h => h, .throw _⟩
  | _ => exact ⟨_, s, rfl, fun h => h, ensures_fail _ _⟩

/-! ### Parentheses and arrow functions -/

/-- The elements in parentheses, in their order. -/
def Parenthesized.exprs (found : Parenthesized) : List Expr := found.items.reverse.map (·.2)

theorem reads_parenthesized (hg : g.IsSound cs) (ctx : Context) :
    Reads cs lo (g.parenthesized ctx) fun hi found => Follow cs lo hi found.exprs := by
  refine (passes_expect _).skip fun _ => ?_
  refine (Reads.rounds (I := fun hi (found : Parenthesized) => Follow cs lo hi found.exprs)
    (fun m hm => hm) fun mid found => ?_).bind fun mid found => ?_
  · refine looks_atEnd.passes.skip fun b => (looks_at? _).passes.skip fun b' => ?_
    split
    · exact .pure fun hi h hfound => hfound.mono h
    refine looks_here.passes.skip fun start => ?_
    refine (passes_arrowStart _).skip fun _ => ?_
    refine (reads_spreadable hg _).bind fun mid' item => ?_
    have hitem : ∀ hi, mid' ≤ hi → item.2.Lies cs mid mid' → Follow cs lo mid found.exprs →
        Follow cs lo hi ((item :: found.items).reverse.map (·.2)) := by
      intro hi h hitem hfound
      rw [List.reverse_cons, List.map_append]
      exact hfound.concat (hitem.mono h)
    extract_lets found'
    refine (looks_at? _).passes.skip fun b => ?_
    split
    · exact .pure hitem
    refine (passes_expect _).skip fun _ => looks_lastStart.passes.skip fun comma => ?_
    exact (looks_at? _).passes.skip fun b => .pure hitem
  · refine (passes_expect _).skip fun _ => .pure fun hi h hfound => ?_
    exact hfound.mono h

theorem passes_adoptParameters (found : Parenthesized) : Passes cs (adoptParameters found) := by
  refine (looks_forM (fun entry => ?_) _).passes
  obtain ⟨⟨spread, e⟩, i⟩ := entry
  refine (looks_adopt _).bind fun _ => ?_
  split
  · split
    · exact looks_note _ _
    · split
      · exact looks_note _ _
      · exact .pure fun _ _ => trivial
  · exact .pure fun _ _ => trivial

theorem findsExpr_parenthesesOrArrow (hg : g.IsSound cs) (ctx : Context) (canBeArrow : Bool)
    (asyncStart : Option Nat) : FindsExpr cs (g.parenthesesOrArrow ctx canBeArrow asyncStart) := by
  intro lo
  refine looks_here.passes.skip fun n => ?_
  extract_lets start
  refine (reads_parenthesized hg _).bind fun mid found => ?_
  have hcalls : ∀ hi, mid ≤ hi → Follow cs lo mid found.exprs →
      Calls cs lo hi (found.items.reverse.flatMap (·.2.calls)) := by
    intro hi h hfound
    have := hfound.calls.mono h
    rwa [Parenthesized.exprs, List.flatMap_map] at this
  extract_lets calls initializers body behindParentheses
  have hbody : ∀ u, Reads cs mid (body u) fun hi e =>
      Follow cs lo mid found.exprs → e.Lies cs lo hi := by
    intro _
    refine (passes_expect _).skip fun _ => (passes_adoptParameters _).skip fun _ => ?_
    refine (looks_at? _).passes.skip fun hasBraces => ?_
    refine (finds_arrowBody hg _ _ mid).bind fun mid' inner => ?_
    refine (reads_plain lo (by decide)).bind fun stop e => ?_
    have he : ∀ hi, stop ≤ hi → (Calls cs lo mid' (calls ++ inner) → e.Lies cs lo stop) →
        Calls cs mid mid' inner → Follow cs lo mid found.exprs → e.Lies cs lo hi :=
      fun hi h he hinner hfound => (he ((hcalls mid (le_refl mid) hfound).append hinner)).mono h
    refine looks_token.passes.skip fun t => ?_
    split
    · split
      · refine looks_blame.passes.skip fun n => (passes_note _ _).skip fun _ => ?_
        refine (hg.operators ctx e 0 lo stop).bind fun stop' e' => ?_
        refine looks_atStatementEnd.passes.skip fun b => ?_
        extract_lets done
        have hdone : ∀ u, Reads cs stop' (done u) fun hi e'' =>
            (e.Lies cs lo stop → e'.Lies cs lo stop') → (Calls cs lo mid' (calls ++ inner) → e.Lies cs lo stop) →
              Calls cs mid mid' inner → Follow cs lo mid found.exprs → e''.Lies cs lo hi :=
          fun _ => .pure fun hi h he' h' hinner hfound =>
            (he' (he stop (le_refl stop) h' hinner hfound)).mono h
        split
        · exact hdone ()
        · exact looks_blame.passes.skip fun n => (passes_note _ _).skip hdone
      · exact .pure he
    · exact .pure he
  have hbehindParentheses : ∀ u, Reads cs mid (behindParentheses u) fun hi e =>
      Follow cs lo mid found.exprs → e.Lies cs lo hi :=
    fun _ => (passes_fail _ _).skip_if hbody ()
  refine (looks_at? _).passes.skip fun b => ?_
  split
  · refine looks_afterBreak.passes.skip fun b => ?_
    exact (passes_fail _ _).skip_if hbehindParentheses ()
  split
  · refine looks_lastStop.passes.skip fun stop => .pure fun hi h hfound => ?_
    exact Expr.lies_leaf nofun (hcalls hi h hfound)
  split
  · exact .fail _ _
  split
  · exact .fail _ _
  extract_lets inner done
  have hdone : ∀ u, Reads cs mid (done u) fun hi e =>
      Follow cs lo mid found.exprs → e.Lies cs lo hi := by
    refine fun _ => looks_lastStop.passes.skip fun stop => .pure fun hi h hfound => ?_
    exact Expr.lies_leaf nofun (hcalls hi h hfound)
  split
  · exact (passes_note _ _).skip hdone
  · exact hdone ()

theorem findsExpr_arrowAfterName (hg : g.IsSound cs) (ctx : Context) (start : Nat)
    (isAsync : Bool) : FindsExpr cs (g.arrowAfterName ctx start isAsync) := by
  intro lo
  refine (finds_arrowBody hg ctx isAsync lo).bind fun mid calls => ?_
  exact reads_plain lo (by decide)

theorem findsExpr_nameOrArrow (hg : g.IsSound cs) (ctx : Context) (canBeArrow : Bool) :
    FindsExpr cs (g.nameOrArrow ctx canBeArrow) := by
  intro lo
  refine (passes_identifier _).skip fun ⟨w, start⟩ => ?_
  refine looks_afterBreak.passes.skip fun broken => looks_atIdentifier.passes.skip fun b => ?_
  split
  · refine (passes_bindingIdentifier _).skip fun found => (passes_expect _).skip fun _ => ?_
    exact findsExpr_arrowAfterName hg ctx start true lo
  refine (looks_at? _).read fun b => ?_
  split
  · rename_i hb
    refine .bump (fun s hs => State.isWhole_of_eq (hs (Bool.and_eq_true_iff.1 hb).2) nofun) ?_
    extract_lets done
    exact (passes_note _ _).skip_if (fun _ => findsExpr_arrowAfterName hg ctx start false lo) ()
  · refine Reads.known (looks_lastStop.passes.skip fun stop => .pure fun hi h => ?_)
    exact Expr.lies_leaf nofun (.nil h)

theorem looks_beforeFunction : Looks beforeFunction fun _ _ => True :=
  looks_peek.bind fun _ => .pure fun _ _ => trivial

theorem findsExpr_primary (hg : g.IsSound cs) (ctx : Context) : FindsExpr cs (g.primary ctx) := by
  intro lo
  have hplain : ∀ start, Reads cs lo (plain start .other []) fun hi e => e.Lies cs lo hi :=
    fun start => (reads_plain lo (by decide)).imp fun hi e he => he (.nil (le_refl lo))
  refine looks_here.read fun start => .look looks_get fun s₀ => .look looks_token fun t => ?_
  split
  · exact .bump (fun s hs => State.isWhole_of_eq hs.2 nofun) (hplain start)
  · exact .bump (fun s hs => State.isWhole_of_eq hs.2 nofun) (hplain start)
  · exact .bump (fun s hs => State.isWhole_of_eq hs.2 nofun) (hplain start)
  · exact .bump (fun s hs => State.isWhole_of_eq hs.2 nofun) (hplain start)
  · refine .look looks_beforeFunction fun b => ?_
    split
    · refine .bump (fun s hs => State.isWhole_of_eq hs.1.2 nofun) ?_
      refine (finds_function hg ctx true true .optional lo).bind fun mid ⟨name, calls⟩ => ?_
      exact reads_plain lo (by decide)
    · refine .look looks_peek fun next => ?_
      split
      · refine .bump (fun s hs => State.isWhole_of_eq hs.1.1.2 nofun) ?_
        exact findsExpr_parenthesesOrArrow hg ctx _ (some start) lo
      · exact (findsExpr_nameOrArrow hg ctx _ lo).known
  · refine Reads.known ?_
    refine (finds_function hg ctx false true .optional lo).bind fun mid ⟨name, calls⟩ => ?_
    exact reads_plain lo (by decide)
  · refine Reads.known ?_
    refine (finds_classDefinition hg ctx .optional lo).bind fun mid ⟨name, calls⟩ => ?_
    exact reads_plain lo (by decide)
  · exact .bump (fun s hs => State.isWhole_of_eq hs.2 nofun) (hplain start)
  · exact .bump (fun s hs => State.isWhole_of_eq hs.2 nofun) (hplain start)
  · rename_i value raw
    refine .literal (fun s hs => ⟨⟨value, raw, hs.2⟩, hs.1.1⟩) fun stop => ?_
    refine .pure fun hi h hliteral => ⟨.nil ?_, fun _ => ⟨rfl, hliteral.2, hliteral.1, h⟩⟩
    exact (hliteral.1.trans hliteral.2.lt.le).trans h
  · exact (findsExpr_arrayLiteral hg ctx lo).known
  · exact (findsExpr_objectLiteral hg ctx lo).known
  · exact (findsExpr_parenthesesOrArrow hg ctx _ none lo).known
  · refine ReadsIf.bind (readsIf_templateLiteral hg ?_ ctx false) fun mid calls => ?_
    · exact fun s hs => State.isWhole_of_eq hs.2 nofun
    · exact reads_plain lo (by decide)
  · exact readsIf_regexLiteral fun s hs => .inl hs.2
  · exact readsIf_regexLiteral fun s hs => .inr hs.2
  · refine .bump (fun s hs => State.isWhole_of_eq hs.2 nofun) ?_
    exact passes_identifierName.skip fun found => hplain start
  · split
    · exact (findsExpr_nameOrArrow hg ctx _ lo).known
    · exact Reads.known (looks_blame.passes.skip fun n => .fail _ _)
  · exact Reads.known (looks_blame.passes.skip fun n => .fail _ _)

end Grammar
end Script
end ElementBuild
