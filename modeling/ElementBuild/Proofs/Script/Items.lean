/-
# What a module mentions

Of an import or export statement it is known where it begins, where it ends and where its literal
stands; the other items find what is in them.  By induction on the depth of the grammar each of
its productions does (`isSound_grammar`), so what a module mentions lies in its text, and
each mention apart from the others (`exists_mentions`).
-/
import ElementBuild.Script.Parse
import ElementBuild.Proofs.Script.Statements

namespace ElementBuild
namespace Script
namespace Grammar

open Reader
open Text (IsBoundary)

variable {g : Grammar} {cs : List Char} {lo mid : Nat} {K : State → Prop}

/-! ### Sources -/

/-- A span is a literal between two offsets. -/
structure Names (cs : List Char) (lo hi : Nat) (source : Span) : Prop where
  literal : IsLiteral cs source
  le_start : lo ≤ source.start
  stop_le : source.stop ≤ hi

theorem reads_source : Reads cs lo source fun hi s => Names cs lo hi s := by
  refine looks_need.read fun t => ?_
  split
  · rename_i value raw
    refine .look looks_here fun start => ?_
    refine .literal (fun s hs => ⟨⟨value, raw, hs.1.1⟩, hs.2⟩) fun stop => ?_
    exact .pure fun hi h hliteral => ⟨hliteral.2, hliteral.1, h⟩
  · exact Reads.known (.unexpected _)

theorem reads_fromSource : Reads cs lo fromSource fun hi s => Names cs lo hi s := by
  refine (passes_expectWord _).skip fun _ => reads_source.bind fun mid s => ?_
  refine passes_expectStatementEnd.skip fun _ => .pure fun hi h hs => ?_
  exact { hs with stop_le := hs.stop_le.trans h }

/-- A statement ends behind its source. -/
theorem reads_statementStop (start lo mid : Nat) (item : Nat → Item) (source : Span)
    (hitem : ∀ stop, (item stop).mentions = [⟨⟨start, stop⟩, source, false⟩]) :
    Reads cs mid (do return item (← lastStop)) fun hi i =>
      Names cs start mid source → lo ≤ start ∧ IsBoundary cs start →
        Mentions cs lo hi i.mentions := by
  refine Reads.stop fun stop => .pure fun hi h hstop hsource hstart => ?_
  rw [hitem]
  exact .singleton ⟨hstart.1, h, hstart.2, hstop.2, hsource.literal, hsource.le_start,
    hsource.stop_le.trans hstop.1⟩

/-! ### Imports -/

theorem passes_clauseName : Passes cs clauseName := by
  intro lo
  refine looks_here.passes.skip fun start => looks_whole.read fun found => ?_
  split
  · refine .bump (fun s hs => (hs _ rfl).2.1) ?_
    exact looks_lastStop.passes.skip fun stop => .pure fun _ h => h
  · exact .bump (fun s hs => (hs _ rfl).2.1) (.pure fun _ h => h)
  · exact Reads.known (.unexpected _)

theorem passes_importSpecifier (ctx : Context) : Passes cs (importSpecifier ctx) := by
  intro lo
  refine passes_clauseName.skip fun ⟨name, value, start⟩ => (passes_eatWord _).skip fun b => ?_
  split
  · exact (passes_bindingIdentifier ctx).skip fun found => .pure fun _ h => h
  · split
    · split
      · exact .fail _ _
      · exact .pure fun _ h => h
    · exact .fail _ _

theorem passes_clause {α : Type} {entry : Reader α} (h : Passes cs entry) :
    Passes cs (g.clause entry) := by
  intro lo
  refine Passes.skip (fun lo => ?_) fun entries => passes_expect _ |>.skip fun _ => .pure fun _ h => h
  refine Reads.rounds (I := fun hi _ => lo ≤ hi) (fun m hm => hm) fun mid entries => ?_
  refine looks_atEnd.passes.skip fun b => (looks_at? _).passes.skip fun b' => ?_
  split
  · exact .pure fun hi h hm => hm.trans h
  refine h.skip fun e => (looks_at? _).passes.skip fun b => ?_
  split
  · exact .pure fun hi h hm => hm.trans h
  · exact (passes_expect _).skip fun _ => .pure fun hi h hm => hm.trans h

theorem looks_isPhase (w : String) : Looks (isPhase w) fun _ _ => True := by
  unfold isPhase
  split
  · refine (looks_word? _).bind fun isFrom => ?_
    split
    · exact looks_peek.bind fun next => .pure fun _ _ _ => trivial
    · refine (looks_at? _).bind fun b => (looks_at? _).bind fun b' => ?_
      refine looks_atIdentifier.bind fun b'' => ?_
      exact .pure fun _ _ _ _ _ => trivial
  · exact .pure fun _ => trivial

theorem passes_defaultBinding (ctx : Context) : Passes cs (defaultBinding ctx) := by
  intro lo
  refine looks_atIdentifier.passes.skip fun b => ?_
  split
  · refine (passes_bindingIdentifier _).skip fun ⟨w, start⟩ => ?_
    refine (looks_isPhase w).passes.skip fun phase => ?_
    refine looks_atIdentifier.passes.skip fun b => ?_
    split
    · exact .pure fun _ h => h
    extract_lets behindName
    have hbehindName : ∀ w, Reads cs lo (behindName w) fun hi _ => lo ≤ hi := by
      intro w
      refine (looks_word? _).passes.skip fun b => ?_
      extract_lets done
      have hdone : ∀ u, Reads cs lo (done u) fun hi _ => lo ≤ hi := fun _ => .pure fun _ h => h
      exact (passes_expect _).skip_unless hdone ()
    split
    · exact (passes_bindingIdentifier _).skip fun found => .pure_bind (hbehindName _)
    · exact .pure_bind (hbehindName w)
  · exact .pure fun _ h => h

theorem readsIf_importItem (hg : g.IsSound cs)
    (hK : ∀ s, K s → s.current.token.IsWhole ∧ s.current.token ≠ .endOfText) (ctx : Context) :
    ReadsIf cs K lo (g.importItem ctx) fun hi i => Mentions cs lo hi i.mentions := by
  refine .look looks_peek fun next => ?_
  split
  · refine Reads.known ((findsExpr_expression hg ctx lo).bind fun mid e => ?_)
    exact passes_eatStatementEnd.skip fun b => .pure fun hi h he => he.calls.mono h
  refine .look looks_here fun start => .bump_from (n := start) (fun s hs => ?_) ?_
  · exact ⟨(hK s hs.1.1).1, (hK s hs.1.1).2, hs.2⟩
  refine looks_whole.passes.skip fun found => ?_
  split
  · refine reads_source.bind fun mid s => passes_expectStatementEnd.skip fun _ => ?_
    exact reads_statementStop start lo mid (fun stop => .importFrom ⟨start, stop⟩ [] s) s
      fun _ => rfl
  refine (passes_defaultBinding ctx).skip fun first => ?_
  extract_lets behindNames
  have hbehindNames : ∀ others, Reads cs start (behindNames others) fun hi i =>
      lo ≤ start ∧ IsBoundary cs start → Mentions cs lo hi i.mentions := by
    refine fun others => reads_fromSource.bind fun mid s => ?_
    exact reads_statementStop start lo mid
      (fun stop => .importFrom ⟨start, stop⟩ (first ++ others) s) s fun _ => rfl
  refine (passes_eat _).skip fun b => ?_
  split
  · refine (passes_expectWord _).skip fun _ => (passes_bindingIdentifier _).skip fun ⟨w, n⟩ => ?_
    exact .pure_bind (hbehindNames _)
  refine (passes_eat _).skip fun b => ?_
  split
  · exact (passes_clause (passes_importSpecifier ctx)).skip hbehindNames
  · exact .pure_bind (hbehindNames _)

/-! ### Exports -/

theorem passes_exportSpecifier : Passes cs exportSpecifier := by
  intro lo
  refine passes_clauseName.skip fun ⟨name, value, start⟩ => (passes_eatWord _).skip fun b => ?_
  split
  · exact passes_clauseName.skip fun found => .pure fun _ h => h
  · exact .pure fun _ h => h

theorem reads_exportClause (start lo mid : Nat) :
    Reads cs mid (g.exportClause start) fun hi i =>
      start ≤ mid → lo ≤ start ∧ IsBoundary cs start → Mentions cs lo hi i.mentions := by
  refine (passes_expect _).skip fun _ => ?_
  refine (passes_clause passes_exportSpecifier).skip fun entries => ?_
  refine (looks_word? _).passes.skip fun b => ?_
  split
  · refine reads_fromSource.bind fun mid' s => ?_
    have hitem : Reads cs mid' _ _ := reads_statementStop start lo mid'
      (fun stop => .exportFrom ⟨start, stop⟩ (entries.map (·.1)) s) s fun _ => rfl
    refine hitem.imp fun hi i h hs hmid hstart => ?_
    exact h { hs with le_start := hmid.trans hs.le_start } hstart
  · split
    · exact .fail _ _
    · refine (passes_eat _).skip fun b => .pure fun hi h hmid hstart => ?_
      exact Mentions.nil (hstart.1.trans (hmid.trans h))

theorem reads_defaultExport (hg : g.IsSound cs) (ctx : Context) :
    Reads cs lo (g.defaultExport ctx) fun hi i => Mentions cs lo hi i.mentions := by
  refine (looks_word? _).passes.skip fun b => ?_
  split
  · refine (finds_classDefinition hg ctx .optional lo).bind fun mid ⟨name, calls⟩ => ?_
    exact .pure fun hi h hcalls => hcalls.mono h
  refine (looks_word? _).read fun isAsync => .look looks_beforeFunction fun b => ?_
  split
  · rename_i hb
    refine .bump (fun s hs => State.isWhole_of_eq (hs.1 (Bool.and_eq_true_iff.1 hb).1) nofun) ?_
    refine (finds_function hg ctx true false .optional lo).bind fun mid ⟨name, calls⟩ => ?_
    exact .pure fun hi h hcalls => hcalls.mono h
  refine Reads.known ((looks_word? _).passes.skip fun b => ?_)
  split
  · refine (finds_function hg ctx false false .optional lo).bind fun mid ⟨name, calls⟩ => ?_
    exact .pure fun hi h hcalls => hcalls.mono h
  · refine (hg.assignment _ lo).bind fun mid e => ?_
    refine (looks_settleInitializers e).passes.skip fun _ => ?_
    exact passes_expectStatementEnd.skip fun _ => .pure fun hi h he => he.calls.mono h

theorem readsIf_exportItem (hg : g.IsSound cs)
    (hK : ∀ s, K s → s.current.token.IsWhole ∧ s.current.token ≠ .endOfText) (ctx : Context) :
    ReadsIf cs K lo (g.exportItem ctx) fun hi i => Mentions cs lo hi i.mentions := by
  refine .look looks_here fun start => .bump_from (n := start) (fun s hs => ?_) ?_
  · exact ⟨(hK s hs.1).1, (hK s hs.1).2, hs.2⟩
  refine looks_need.passes.skip fun t => (passes_eat _).skip fun b => ?_
  split
  · refine (passes_eatWord _).skip fun b => ?_
    split
    · refine passes_clauseName.skip fun ⟨name, value, n⟩ => reads_fromSource.bind fun mid s => ?_
      exact reads_statementStop start lo mid (fun stop => .exportNamespace ⟨start, stop⟩ name s) s
        fun _ => rfl
    · refine reads_fromSource.bind fun mid s => ?_
      exact reads_statementStop start lo mid (fun stop => .exportAll ⟨start, stop⟩ s) s fun _ => rfl
  -- what follows the word is found behind it
  have hwiden : ∀ hi {ms}, Mentions cs start hi ms →
      lo ≤ start ∧ IsBoundary cs start → Mentions cs lo hi ms :=
    fun hi ms hms hstart => hms.mono hstart.1 (le_refl hi)
  have hcalls : ∀ {r : Reader (Option String × List ImportCall)}, Finds cs r Prod.snd →
      Reads cs start (do return .statement (← r).2) fun hi i =>
        lo ≤ start ∧ IsBoundary cs start → Mentions cs lo hi (Item.mentions i) := by
    refine fun hr => (hr start).bind fun mid found => .pure fun hi h hfound => ?_
    exact hwiden hi (hfound.mono h)
  refine (passes_eatWord _).skip fun b => ?_
  split
  · exact (reads_defaultExport hg ctx).imp fun hi i => hwiden hi
  refine (looks_word? _).passes.skip fun b => ?_
  split
  · exact hcalls (finds_classDefinition hg ctx .required)
  refine (looks_word? _).read fun isAsync => .look looks_beforeFunction fun b => ?_
  split
  · rename_i hb
    refine .bump (fun s hs => State.isWhole_of_eq (hs.1 (Bool.and_eq_true_iff.1 hb).1) nofun) ?_
    exact hcalls (finds_function hg ctx true false .required)
  refine Reads.known ((looks_word? _).passes.skip fun b => ?_)
  split
  · exact hcalls (finds_function hg ctx false false .required)
  refine looks_atVariables.read fun b => ?_
  split
  · rename_i hb
    refine ReadsIf.bind (readsIf_declarators hg (fun s hs => hs hb) _ false) fun mid ds => ?_
    exact .pure fun hi h hds => hwiden hi (hds.mono h)
  · exact Reads.known ((reads_exportClause start lo start).imp fun hi i hi' => hi' (le_refl start))

/-! ### Items and modules -/

theorem reads_item (hg : g.IsSound cs) (ctx : Context) :
    Reads cs lo (g.item ctx) fun hi i => Mentions cs lo hi i.mentions := by
  refine (looks_word? _).read fun b => ?_
  split
  · rename_i hb
    refine readsIf_importItem hg ?_ ctx
    exact fun s hs => ⟨State.isWhole_of_eq (hs hb) nofun, hs hb ▸ nofun⟩
  refine Reads.known ((looks_word? _).read fun b => ?_)
  split
  · rename_i hb
    refine readsIf_exportItem hg ?_ ctx
    exact fun s hs => ⟨State.isWhole_of_eq (hs hb) nofun, hs hb ▸ nofun⟩
  · refine Reads.known ((finds_plainStatement hg ctx true lo).bind fun mid calls => ?_)
    exact .pure fun hi h hcalls => hcalls.mono h

theorem reads_items (hg : g.IsSound cs) :
    Reads cs lo g.items fun hi items => Mentions cs lo hi (items.flatMap Item.mentions) := by
  refine (Reads.rounds (I := fun hi (found : List Item) =>
    Mentions cs lo hi (found.reverse.flatMap Item.mentions)) (fun m hm => .nil hm)
    fun mid found => ?_).bind fun mid found => ?_
  · refine looks_whole.passes.skip fun t => ?_
    split
    · exact looks_settle.passes.skip fun _ => .pure fun hi h hfound => hfound.mono (le_refl lo) h
    · refine (reads_item hg {}).bind fun mid' i => .pure fun hi h hi' hfound => ?_
      rw [List.reverse_cons, List.flatMap_append, List.flatMap_singleton]
      exact hfound.append (hi'.mono (le_refl mid) h)
  · exact .pure fun hi h hfound => hfound.mono (le_refl lo) h

end Grammar

open Grammar Reader

/-- Each production of the grammar finds what it yields where it reads it. -/
theorem isSound_grammar (cs : List Char) (n : Nat) : (grammar n).IsSound cs := by
  induction n with
  | zero =>
    exact
      { assignment := fun _ _ => .fail _ _
        unary := fun _ _ => .fail _ _
        leftHandSide := fun _ _ => .fail _ _
        member := fun _ _ => .fail _ _
        operators := fun _ _ _ _ _ => .fail _ _
        binding := fun _ _ => .fail _ _
        statement := fun _ _ _ => .fail _ _ }
  | succ n ih =>
    exact
      { assignment := findsExpr_assignmentExpression ih
        unary := findsExpr_unaryExpression ih
        leftHandSide := findsExpr_leftHandSideExpression ih
        member := findsExpr_memberExpression ih
        operators := reads_operatorsAfter ih
        binding := finds_bindingTarget ih
        statement := finds_statementOrDeclaration ih }

/-- **What a module mentions lies in its text**, and each mention apart from the others. -/
theorem exists_mentions {cs : List Char} {m : Module} (h : parse cs = .ok m) :
    ∃ hi, Mentions (withoutMark cs) 0 hi (m.items.flatMap Item.mentions) := by
  unfold parse at h
  dsimp only at h
  generalize withoutMark cs = text at h ⊢
  generalize depthFor text = n at h
  split at h
  · rename_i items s hitems
    split at h
    · rename_i hnoted
      obtain rfl := Except.ok.inj h
      have hreads : Reads text 0 (grammar n).items fun hi items =>
        Mentions text 0 hi (items.flatMap Item.mentions) := reads_items (isSound_grammar text n)
      have hafter : (Reader.initial text).After text 0 :=
        ⟨⟨⟨[], text, rfl, rfl⟩, Nat.zero_le _, stands_firstLexeme text⟩, Nat.zero_le _⟩
      exact ⟨s.lastStop, ((hreads.ok hitems (List.getLast?_eq_none_iff.1 hnoted)).2 hafter).2⟩
    · exact nomatch h
  · exact nomatch h

end Script
end ElementBuild
