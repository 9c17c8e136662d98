/-
# What statements and declarations find

The parts of a statement find what they find one behind the other.  The reader recovers within a
statement only behind a fault that was noted (`Keeps.spoiled`).
-/
import ElementBuild.Script.Grammar.Statement
import ElementBuild.Proofs.Script.Expressions

namespace ElementBuild
namespace Script
namespace Grammar

open Reader

variable {g : Grammar} {cs : List Char} {lo : Nat} {K : State → Prop}

/-! ### Declarations -/

theorem finds_declarator (hg : g.IsSound cs) (ctx : Context) (kind : VariableKind) (inHead : Bool) :
    Finds cs (g.declarator ctx kind inHead) Declarator.calls := by
  intro lo
  refine looks_here.passes.skip fun start => (looks_word? _).passes.skip fun b => ?_
  extract_lets declared
  have hdeclared : ∀ u, Reads cs lo (declared u) fun hi d => Calls cs lo hi d.calls := by
    intro _
    refine (hg.binding ctx lo).bind fun mid target => ?_
    refine (looks_word? _).passes.skip fun b => (looks_word? _).passes.skip fun b' => ?_
    split
    · exact .pure fun hi h htarget => htarget.mono h
    refine (passes_eat _).skip fun b => ?_
    split
    · refine (hg.assignment ctx mid).bind fun mid' e => ?_
      refine (looks_settleInitializers e).passes.skip fun _ => ?_
      exact .pure fun hi h he htarget => htarget.append (he.calls.mono h)
    · extract_lets bare
      have hbare : ∀ u, Reads cs mid (bare u) fun hi d =>
          Calls cs lo mid target.calls → Calls cs lo hi d.calls :=
        fun _ => .pure fun hi h htarget => htarget.mono h
      split
      · exact (passes_note _ _).skip hbare
      · exact (passes_note _ _).skip_if hbare ()
  split
  · exact (passes_unexpected _).skip hdeclared
  · exact hdeclared ()

theorem keeps_skipToStatementEnd (hg : g.IsSound cs) (ctx : Context) :
    Keeps (g.skipToStatementEnd ctx) := by
  refine Keeps.bind (.tryCatch ?_ fun _ => .pure ()) fun _ => .loop (fun _ => ?_) _ _
  · exact (findsExpr_expression hg ctx 0).keeps.bind fun _ => .pure ()
  refine (@passes_eatStatementEnd [] 0).keeps.bind fun b => ?_
  split
  · exact .pure _
  · refine keeps_bump.bind fun _ => looks_token.keeps.bind fun t => ?_
    split
    · exact .pure _
    · exact .pure _

theorem readsIf_declarators (hg : g.IsSound cs) (hK : ∀ s, K s → s.current.token.IsWhole)
    (ctx : Context) (inHead : Bool) : ReadsIf cs K lo (g.declarators ctx inHead) fun hi ds =>
      Calls cs lo hi (ds.flatMap (·.calls)) := by
  refine .look looks_token fun t => ?_
  extract_lets kind ctx'
  refine .bump (fun s hs => hK s hs.1) ?_
  refine (Reads.rounds (I := fun hi (ds : List Declarator) =>
    Calls cs lo hi (ds.reverse.flatMap (·.calls))) (fun m hm => .nil hm)
    fun mid ds => ?_).bind fun mid ds => ?_
  · refine (looks_at? _).passes.skip fun b => ?_
    split
    · refine looks_blame.passes.skip fun n => (passes_note _ _).skip fun _ => ?_
      exact .pure fun hi h hds => hds.mono h
    · refine (finds_declarator hg ctx' kind inHead mid).bind fun mid' d => ?_
      refine (passes_eat _).skip fun more => .pure fun hi h hd hds => ?_
      rw [List.reverse_cons, List.flatMap_append, List.flatMap_singleton]
      exact hds.append (hd.mono h)
  · extract_lets done
    have hdone : ∀ u, Reads cs mid (done u) fun hi ds' =>
        Calls cs lo mid (ds.reverse.flatMap (·.calls)) → Calls cs lo hi (ds'.flatMap (·.calls)) :=
      fun _ => .pure fun hi h hds => hds.mono h
    split
    · refine passes_eatStatementEnd.skip fun b => ?_
      split
      · exact hdone ()
      · refine looks_blame.passes.skip fun n => Keeps.spoiled ?_
        exact (keeps_skipToStatementEnd hg ctx).bind fun _ => .pure _
    · exact hdone ()

theorem looks_atVariables : Looks atVariables fun b s => b = true → s.current.token.IsWhole := by
  refine looks_token.bind fun t => ?_
  split
  · exact .pure fun s hs _ => State.isWhole_of_eq hs nofun
  · exact .pure fun s hs _ => State.isWhole_of_eq hs nofun
  · exact looks_peek.bind fun next => .pure fun s _ hs _ => State.isWhole_of_eq hs nofun
  · exact .pure fun s hs => nofun

/-! ### Conditions and loops -/

theorem finds_condition (hg : g.IsSound cs) (ctx : Context) : Finds cs (g.condition ctx) id := by
  intro lo
  refine (passes_expect _).skip fun _ => (findsExpr_expression hg _ lo).bind fun mid e => ?_
  exact (passes_expect _).skip fun _ => .pure fun hi h he => he.calls.mono h

theorem finds_ifStatement (hg : g.IsSound cs) (ctx : Context) :
    Finds cs (g.ifStatement ctx) id := by
  intro lo
  refine (passes_expectWord _).skip fun _ => (finds_condition hg ctx lo).bind fun mid test => ?_
  refine (hg.statement ctx false mid).bind fun mid' first => (passes_eatWord _).skip fun b => ?_
  split
  · refine (hg.statement ctx false mid').bind fun mid'' second => ?_
    exact .pure fun hi h hsecond hfirst htest => (htest.append hfirst).append (hsecond.mono h)
  · exact .pure fun hi h hfirst htest => htest.append (hfirst.mono h)

theorem finds_doStatement (hg : g.IsSound cs) (ctx : Context) :
    Finds cs (g.doStatement ctx) id := by
  intro lo
  refine (passes_expectWord _).skip fun _ => (hg.statement _ false lo).bind fun mid body => ?_
  refine (passes_expectWord _).skip fun _ => (finds_condition hg ctx mid).bind fun mid' test => ?_
  refine passes_eatStatementEnd.skip fun b => .pure fun hi h htest hbody => ?_
  exact hbody.append_swap (htest.mono h)

theorem readsIf_eachHead (hg : g.IsSound cs) (hK : ∀ s, K s → s.current.token.IsWhole)
    (ctx : Context) : ReadsIf cs K lo (g.eachHead ctx) fun hi found => Calls cs lo hi found.1 := by
  refine .tried (tries_eatWord _) fun b => ?_
  split
  · refine Reads.known ((hg.assignment _ lo).bind fun mid e => ?_)
    exact .pure fun hi h he => he.calls.mono h
  · rename_i hb
    refine .bump (fun s hs => hK s (hs (Bool.not_eq_true _ ▸ hb))) ?_
    refine (findsExpr_expression hg _ lo).bind fun mid e => ?_
    exact .pure fun hi h he => he.calls.mono h

theorem finds_plainHead (hg : g.IsSound cs) (ctx : Context) : Finds cs (g.plainHead ctx) id := by
  intro lo
  refine (passes_eat _).skip fun b => ?_
  extract_lets behindTest
  have hbehindTest : ∀ mid test, Reads cs mid (behindTest test) fun hi calls =>
      Calls cs lo mid test → Calls cs lo hi calls := by
    intro mid test
    refine (looks_at? _).passes.skip fun b => ?_
    split
    · refine .pure_bind (.pure fun hi h htest => ?_)
      rw [List.append_nil]
      exact htest.mono h
    · refine (findsExpr_expression hg _ mid).bind fun mid' e => ?_
      exact .pure_bind (.pure fun hi h he htest => htest.append (he.calls.mono h))
  split
  · exact .pure_bind ((hbehindTest lo _).imp fun hi calls hcalls => hcalls (.nil (le_refl lo)))
  · refine (findsExpr_expression hg _ lo).bind fun mid e => (passes_expect _).skip fun _ => ?_
    exact .pure_bind ((hbehindTest mid _).imp fun hi calls hcalls he => hcalls he.calls)

/-- One of two words is next. -/
theorem isWhole_of_or {a b : Bool} {v w : String} {s : State} (h : (a || b) = true)
    (hs : (a = true → s.current.token = .word v) ∧ (b = true → s.current.token = .word w)) :
    s.current.token.IsWhole := by
  rcases Bool.or_eq_true_iff.1 h with h | h
  · exact State.isWhole_of_eq (hs.1 h) nofun
  · exact State.isWhole_of_eq (hs.2 h) nofun

theorem finds_forHead (hg : g.IsSound cs) (ctx : Context) : Finds cs (g.forHead ctx) Prod.fst := by
  intro lo
  have heach : ∀ {K : State → Prop} mid calls, (∀ s, K s → s.current.token.IsWhole) →
      ReadsIf cs K mid (do
        let found ← g.eachHead ctx
        return (calls ++ found.1, found.2)) fun hi found =>
          Calls cs lo mid calls → Calls cs lo hi found.1 := by
    refine fun mid calls hK => ReadsIf.bind (readsIf_eachHead hg hK ctx) fun mid' found => ?_
    exact .pure fun hi h hfound hcalls => hcalls.append (hfound.mono h)
  have hplain : ∀ mid calls, Reads cs mid (do
      return (calls ++ (← g.plainHead ctx), false)) fun hi found =>
        Calls cs lo mid calls → Calls cs lo hi found.1 := by
    refine fun mid calls => (finds_plainHead hg ctx mid).bind fun mid' more => ?_
    exact .pure fun hi h hmore hcalls => hcalls.append (hmore.mono h)
  refine looks_atVariables.read fun b => ?_
  split
  · rename_i hb
    refine ReadsIf.bind (readsIf_declarators hg (fun s hs => hs hb) _ true) fun mid ds => ?_
    extract_lets calls behindNotes
    refine (looks_word? _).read fun isOf => .look (looks_word? _) fun b' => ?_
    split
    · rename_i hor
      split
      · split
        · exact Reads.known (.spoiled (heach mid calls fun _ h => h.elim))
        · exact heach mid calls fun s hs => isWhole_of_or hor hs
      · exact .look (looks_forM (fun _ => looks_note _ _) _) fun _ =>
          heach mid calls fun s hs => isWhole_of_or hor hs.1
    · exact Reads.known ((passes_expect _).skip fun _ => hplain mid calls)
  refine Reads.known ((passes_eat _).skip fun b => ?_)
  split
  · refine (finds_plainHead hg ctx lo).bind fun mid calls => ?_
    exact .pure fun hi h hcalls => hcalls.mono h
  refine (findsExpr_expression hg _ lo).bind fun mid e => ?_
  refine (looks_word? _).read fun isOf => .look (looks_word? _) fun b' => ?_
  split
  · rename_i hor
    refine .look (looks_adopt _) fun _ => ?_
    refine (heach mid e.calls fun s hs => isWhole_of_or hor hs.1).imp (fun _ hs => hs) ?_
    exact fun found s hs => ⟨hs.1, fun he => hs.2 he.calls⟩
  · refine Reads.known ((passes_expect _).skip fun _ => ?_)
    exact (looks_settleInitializers e).passes.skip fun _ => (hplain mid e.calls).imp
      fun hi found hfound he => hfound he.calls

theorem finds_forStatement (hg : g.IsSound cs) (ctx : Context) :
    Finds cs (g.forStatement ctx) id := by
  intro lo
  refine (passes_expectWord _).skip fun _ => looks_here.passes.skip fun awaitStart => ?_
  refine (passes_eatWord _).skip fun isAwait => (passes_expect _).skip fun _ => ?_
  refine (finds_forHead hg ctx lo).bind fun mid ⟨head, isOf⟩ => (passes_expect _).skip fun _ => ?_
  refine (hg.statement _ false mid).bind fun mid' body => ?_
  extract_lets done
  have hdone : ∀ u, Reads cs mid' (done u) fun hi calls =>
      Calls cs mid mid' body → Calls cs lo mid head → Calls cs lo hi calls :=
    fun _ => .pure fun hi h hbody hhead => hhead.append (hbody.mono h)
  exact (passes_fail _ _).skip_if hdone ()

/-! ### Other compound statements -/

theorem finds_switchStatement (hg : g.IsSound cs) (ctx : Context) :
    Finds cs (g.switchStatement ctx) id := by
  intro lo
  refine (passes_expectWord _).skip fun _ => (finds_condition hg ctx lo).bind fun mid subject => ?_
  refine (passes_expect _).skip fun _ => ?_
  extract_lets ctx'
  refine (Reads.loop (I := fun hi (found : List ImportCall × Bool) => Calls cs lo hi found.1)
    (fun mid ⟨calls, hasDefault⟩ => ?_) g.fuel _).bind fun mid ⟨calls, hasDefault⟩ => ?_
  · dsimp -zeta only
    refine (looks_word? _).read fun isCase => .look (looks_word? _) fun isDefault => ?_
    split
    · exact Reads.known (.pure fun hi h hcalls => hcalls.mono h)
    rename_i hword
    have hor : (isCase || isDefault) = true := by
      rw [← Bool.not_or, Bool.not_eq_true, Bool.not_eq_false'] at hword
      exact hword
    refine .bump (fun s hs => isWhole_of_or hor hs) ?_
    extract_lets behindTest behindDefault
    have hbehindTest : ∀ mid' test, Reads cs mid' (behindTest test) fun hi found =>
        Calls cs mid mid' test → Calls cs lo mid calls → Calls cs lo hi found.1.1 := by
      intro mid' test
      refine (passes_expect _).skip fun _ => ?_
      refine (Reads.rounds (I := fun hi (body : List (List ImportCall)) =>
        Calls cs mid' hi body.reverse.flatten) (fun m hm => .nil hm)
        fun stop body => ?_).bind fun stop body => ?_
      · refine looks_atEnd.passes.skip fun b₁ => (looks_word? _).passes.skip fun b₂ => ?_
        refine (looks_word? _).passes.skip fun b₃ => (looks_at? _).passes.skip fun b₄ => ?_
        split
        · exact .pure fun hi h hbody => hbody.mono h
        · refine (hg.statement ctx' true stop).bind fun stop' more => ?_
          refine .pure fun hi h hmore hbody => ?_
          rw [List.reverse_cons, List.flatten_append, List.flatten_singleton]
          exact hbody.append (hmore.mono h)
      · exact .pure fun hi h hbody htest hcalls => (hcalls.append htest).append (hbody.mono h)
    have hbehindDefault : ∀ u, Reads cs mid (behindDefault u) fun hi found =>
        Calls cs lo mid calls → Calls cs lo hi found.1.1 :=
      fun _ => .pure_bind <|
        (hbehindTest mid []).imp fun hi found hfound => hfound (.nil (le_refl mid))
    split
    · refine (findsExpr_expression hg _ mid).bind fun mid' e => ?_
      exact .pure_bind ((hbehindTest mid' e.calls).imp fun hi found hfound he => hfound he.calls)
    · split
      · exact looks_blame.passes.skip fun n => (passes_fail _ _).skip hbehindDefault
      · exact hbehindDefault ()
  · exact (passes_expect _).skip fun _ => .pure fun hi h hcalls hsubject =>
      (hcalls fun m hm => hsubject.mono hm).mono h

theorem finds_catchClause (hg : g.IsSound cs) (ctx : Context) :
    Finds cs (g.catchClause ctx) fun found => found.getD [] := by
  intro lo
  refine (passes_eatWord _).skip fun b => ?_
  split
  · extract_lets body
    have hbody : ∀ mid parameter, Reads cs mid (body parameter) fun hi found =>
        Calls cs lo mid parameter → Calls cs lo hi (found.getD []) := by
      intro mid parameter
      refine (finds_statementsInBraces hg ctx mid).bind fun mid' calls => ?_
      exact .pure fun hi h hcalls hparameter => hparameter.append (hcalls.mono h)
    refine (passes_eat _).skip fun b => ?_
    split
    · refine (hg.binding ctx lo).bind fun mid p => (passes_expect _).skip fun _ => ?_
      exact .pure_bind (hbody mid _)
    · exact .pure_bind ((hbody lo _).imp fun hi found hfound => hfound (.nil (le_refl lo)))
  · exact .pure fun hi h => .nil h

theorem finds_finallyClause (hg : g.IsSound cs) (ctx : Context) :
    Finds cs (g.finallyClause ctx) fun found => found.getD [] := by
  intro lo
  refine (passes_eatWord _).skip fun b => ?_
  split
  · refine (finds_statementsInBraces hg ctx lo).bind fun mid calls => ?_
    exact .pure fun hi h hcalls => hcalls.mono h
  · exact .pure fun hi h => .nil h

theorem finds_tryStatement (hg : g.IsSound cs) (ctx : Context) :
    Finds cs (g.tryStatement ctx) id := by
  intro lo
  refine (passes_expectWord _).skip fun _ => ?_
  refine (finds_statementsInBraces hg ctx lo).bind fun mid body => ?_
  refine looks_here.passes.skip fun handlerStart => ?_
  refine (finds_catchClause hg ctx mid).bind fun mid' handler => ?_
  refine (finds_finallyClause hg ctx mid').bind fun stop finalizer => ?_
  extract_lets done
  have hdone : ∀ u, Reads cs stop (done u) fun hi calls => Calls cs mid' stop (finalizer.getD []) →
      Calls cs mid mid' (handler.getD []) → Calls cs lo mid body → Calls cs lo hi calls :=
    fun _ => .pure fun hi h hfinalizer hhandler hbody =>
      (hbody.append hhandler).append (hfinalizer.mono h)
  exact (passes_note _ _).skip_if hdone ()

/-! ### Jumps -/

theorem readsIf_jump (hK : ∀ s, K s → s.current.token.IsWhole) (ctx : Context) :
    ReadsIf cs K lo (jump ctx) fun hi _ => lo ≤ hi := by
  refine .look looks_here fun start => .look (looks_word? _) fun isBreak => ?_
  refine .bump (fun s hs => hK s hs.1.1) (passes_eatStatementEnd.skip fun b => ?_)
  have hdone : Reads cs lo (pure ()) fun hi _ => lo ≤ hi := .pure fun _ h => h
  split
  · split
    · split
      · exact hdone
      · exact passes_note _ _ lo
    · split
      · exact hdone
      · exact passes_note _ _ lo
  · refine (passes_identifier _).skip fun ⟨label, labelStart⟩ => ?_
    refine passes_expectStatementEnd.skip fun _ => ?_
    split
    · split
      · exact hdone
      · exact passes_note _ _ lo
    split
    · exact passes_note _ _ lo
    split
    · exact hdone
    · exact passes_note _ _ lo

theorem finds_returnStatement (hg : g.IsSound cs) (ctx : Context) :
    Finds cs (g.returnStatement ctx) id := by
  intro lo
  refine looks_here.passes.skip fun start => (passes_expectWord _).skip fun _ => ?_
  refine looks_atStatementEnd.passes.skip fun b => ?_
  extract_lets behindValue
  have hbehindValue : ∀ mid calls, Reads cs mid (behindValue calls) fun hi found =>
      Calls cs lo mid calls → Calls cs lo hi found := by
    intro mid calls
    refine passes_expectStatementEnd.skip fun _ => ?_
    extract_lets done
    have hdone : ∀ u, Reads cs mid (done u) fun hi found =>
        Calls cs lo mid calls → Calls cs lo hi found :=
      fun _ => .pure fun hi h hcalls => hcalls.mono h
    exact (passes_note _ _).skip_unless hdone ()
  split
  · exact .pure_bind ((hbehindValue lo []).imp fun hi found hfound => hfound (.nil (le_refl lo)))
  · refine (findsExpr_expression hg _ lo).bind fun mid e => ?_
    refine (looks_settleInitializers e).passes.skip fun _ => ?_
    exact .pure_bind ((hbehindValue mid _).imp fun hi found hfound he => hfound he.calls)

theorem finds_throwStatement (hg : g.IsSound cs) (ctx : Context) :
    Finds cs (g.throwStatement ctx) id := by
  intro lo
  refine (passes_expectWord _).skip fun _ => looks_afterBreak.passes.skip fun b => ?_
  extract_lets thrown
  have hthrown : ∀ u, Reads cs lo (thrown u) fun hi calls => Calls cs lo hi calls := by
    refine fun _ => (findsExpr_expression hg _ lo).bind fun mid e => ?_
    exact passes_expectStatementEnd.skip fun _ => .pure fun hi h he => he.calls.mono h
  split
  · exact looks_blame.passes.skip fun n => (passes_fail _ _).skip hthrown
  · exact hthrown ()

theorem finds_labelled (hg : g.IsSound cs) (ctx : Context) (label : String) (start : Nat) :
    Finds cs (g.labelled ctx label start) id := by
  intro lo
  refine (looks_word? _).passes.skip fun b => ?_
  extract_lets behindBody
  have hbehindBody : ∀ mid calls, Reads cs mid (behindBody calls) fun hi found =>
      Calls cs lo mid calls → Calls cs lo hi found := by
    intro mid calls
    dsimp -zeta only [behindBody]
    extract_lets done
    have hdone : ∀ u, Reads cs mid (done u) fun hi found =>
        Calls cs lo mid calls → Calls cs lo hi found :=
      fun _ => .pure fun hi h hcalls => hcalls.mono h
    exact (passes_note _ _).skip_if hdone ()
  split
  · refine looks_here.passes.skip fun functionStart => ?_
    refine (finds_function hg _ _ _ _ lo).bind fun mid ⟨name, calls⟩ => ?_
    exact (passes_note _ _).skip fun _ => .pure_bind (hbehindBody mid calls)
  · exact (hg.statement _ false lo).bind hbehindBody

theorem finds_expressionStatement (hg : g.IsSound cs) (ctx : Context) :
    Finds cs (g.expressionStatement ctx) id := by
  intro lo
  refine (findsExpr_expression hg _ lo).bind fun mid e => ?_
  extract_lets behindLabel
  have hbehindLabel : ∀ isLabel, Reads cs mid (behindLabel isLabel) fun hi calls =>
      e.Lies cs lo mid → Calls cs lo hi calls := by
    intro isLabel
    unfold behindLabel
    split
    · -- there are no calls in a label
      refine (finds_labelled hg ctx _ _ mid).imp fun hi calls hcalls he => ?_
      exact hcalls.widen he.le (le_refl hi)
    · refine (looks_settleInitializers e).passes.skip fun _ => ?_
      refine passes_eatStatementEnd.skip fun b => ?_
      split
      · exact .pure fun hi h he => he.calls.mono h
      refine looks_whole.passes.skip fun found => ?_
      split
      · refine looks_blame.passes.skip fun n => (passes_note _ _).skip fun _ => ?_
        refine (hg.operators ctx e 0 lo mid).bind fun stop e' => ?_
        exact .pure fun hi h he' he => (he' he).calls.mono h
      · exact looks_blame.passes.skip fun n => .fail _ _
  split
  · exact (passes_eat _).skip hbehindLabel
  · exact .pure_bind (hbehindLabel _)

theorem looks_atUsing : Looks atUsing fun _ _ => True := by
  refine (looks_word? _).bind fun b => ?_
  split
  · refine looks_peek.bind fun next => ?_
    split
    · exact .pure fun _ _ _ => trivial
    · exact .pure fun _ _ _ => trivial
  · exact .pure fun _ _ => trivial

theorem finds_plainStatement (hg : g.IsSound cs) (ctx : Context) (declarations : Bool) :
    Finds cs (g.plainStatement ctx declarations) id := by
  intro lo
  refine looks_here.passes.skip fun start => looks_need.read fun t => ?_
  have hcatch : Keeps (tryCatch (do let _ ← g.catchClause ctx; pure ()) fun _ => pure () :
      Reader Unit) :=
    .tryCatch ((finds_catchClause hg ctx lo).keeps.bind fun _ => .pure ()) fun _ => .pure ()
  have hfinally : Keeps (tryCatch (do let _ ← g.finallyClause ctx; pure ()) fun _ => pure () :
      Reader Unit) :=
    .tryCatch ((finds_finallyClause hg ctx lo).keeps.bind fun _ => .pure ()) fun _ => .pure ()
  have hdeclarators : ∀ {K : State → Prop}, (∀ s, K s → s.current.token.IsWhole) →
      ReadsIf cs K lo (do
        return (← g.declarators ctx false).flatMap (·.calls)) fun hi calls =>
          Calls cs lo hi calls := by
    refine fun hK => ReadsIf.bind (readsIf_declarators hg hK ctx false) fun mid ds => ?_
    exact .pure fun hi h hds => hds.mono h
  split
  · refine ReadsIf.skip (readsIf_jump (fun s hs => hs.2.1) ctx) fun _ => .pure fun hi h => .nil h
  · refine ReadsIf.skip (readsIf_jump (fun s hs => hs.2.1) ctx) fun _ => .pure fun hi h => .nil h
  · refine .bump (fun s hs => hs.2.1) (passes_expectStatementEnd.skip fun _ => ?_)
    exact .pure fun hi h => .nil h
  · exact (finds_doStatement hg ctx lo).known
  · exact (finds_forStatement hg ctx lo).known
  · refine Reads.known ((passes_note _ _).skip_unless (fun _ => ?_) ())
    refine (finds_function hg ctx false false .required lo).bind fun mid found => ?_
    exact .pure fun hi h hfound => hfound.mono h
  · refine Reads.known ((passes_note _ _).skip_unless (fun _ => ?_) ())
    refine (finds_classDefinition hg ctx .required lo).bind fun mid found => ?_
    exact .pure fun hi h hfound => hfound.mono h
  · exact (finds_ifStatement hg ctx lo).known
  · exact (finds_returnStatement hg ctx lo).known
  · exact (finds_switchStatement hg ctx lo).known
  · exact (finds_throwStatement hg ctx lo).known
  · exact Reads.known (Keeps.spoiled (hcatch.bind fun _ => hfinally.bind fun _ => .pure []))
  · exact Reads.known (Keeps.spoiled (hfinally.bind fun _ => .pure []))
  · exact (finds_tryStatement hg ctx lo).known
  · refine Reads.known (Keeps.spoiled (keeps_bump.bind fun _ => ?_))
    refine (finds_condition hg ctx lo).keeps.bind fun subject => ?_
    exact (hg.statement ctx false lo).keeps.bind fun body => .pure _
  · refine .bump (fun s hs => hs.2.1) ((finds_condition hg ctx lo).bind fun mid test => ?_)
    refine (hg.statement _ _ mid).bind fun mid' body => .pure fun hi h hbody htest => ?_
    exact htest.append (hbody.mono h)
  · exact (finds_statementsInBraces hg ctx lo).known
  · exact .bump (fun s hs => hs.2.1) (.pure fun hi h => .nil h)
  · refine .look looks_atVariables fun b => ?_
    split
    · exact hdeclarators fun s hs => hs.1.2.1
    refine .look looks_atUsing fun b => ?_
    split
    · exact Reads.known (.spoiled (hdeclarators fun _ h => h.elim))
    refine .look looks_beforeFunction fun b => ?_
    split
    · refine .bump (fun s hs => hs.1.1.1.2.1) ?_
      refine (finds_function hg ctx true false .required lo).bind fun mid found => ?_
      exact .pure fun hi h hfound => hfound.mono h
    · exact (finds_expressionStatement hg ctx lo).known

theorem finds_statementOrDeclaration (hg : g.IsSound cs) (ctx : Context) (declarations : Bool) :
    Finds cs (g.statementOrDeclaration ctx declarations) id := by
  intro lo
  refine (looks_word? _).passes.skip fun b => ?_
  split
  · refine looks_peek.passes.skip fun next => ?_
    split
    · refine (findsExpr_expression hg ctx lo).bind fun mid e => ?_
      exact passes_eatStatementEnd.skip fun b => .pure fun hi h he => he.calls.mono h
    · exact looks_blame.passes.skip fun n => .fail _ _
  refine (looks_word? _).passes.skip fun b => ?_
  split
  · exact looks_blame.passes.skip fun n => .fail _ _
  · exact finds_plainStatement hg _ declarations lo

end Grammar
end Script
end ElementBuild
