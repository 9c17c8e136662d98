/-
# What expressions find

An `import()` call is read from a base that is the word alone: its span begins with the word, and
its arguments, the literal first, follow behind it (`Base.Lies`, `reads_subscript`).  Every other
expression finds what its parts find, one behind the other.
-/
import ElementBuild.Script.Grammar.Expression
import ElementBuild.Proofs.Script.Primaries

namespace ElementBuild
namespace Script
namespace Grammar

open Reader
open Text (IsBoundary)

variable {g : Grammar} {cs : List Char} {lo mid hi : Nat}

/-! ### Members and calls -/

/-- A base lies between two offsets; of the word `import` it is known where it begins. -/
def Base.Lies (base : Base) (cs : List Char) (lo hi : Nat) : Prop :=
  match base with
  | .expr e => e.Lies cs lo hi
  | .super _ => lo ≤ hi
  | .import_ start => lo ≤ start ∧ start ≤ hi ∧ IsBoundary cs start

theorem Base.Lies.calls {base : Base} (h : base.Lies cs lo hi) : Calls cs lo hi base.calls := by
  cases base with
  | expr e => exact Expr.Lies.calls h
  | super n => exact .nil h
  | import_ n => exact .nil (h.1.trans h.2.1)

theorem Base.Lies.mono {base : Base} (h : base.Lies cs lo mid) (hhi : mid ≤ hi) :
    base.Lies cs lo hi := by
  cases base with
  | expr e => exact Expr.Lies.mono h hhi
  | super n => exact le_trans h hhi
  | import_ n => exact ⟨h.1, h.2.1.trans hhi, h.2.2⟩

theorem reads_memberOf (lo : Nat) (base : Base) (optional : Bool) (calls : List ImportCall) :
    Reads cs mid (memberOf base optional calls) fun hi e =>
      Calls cs lo mid (base.calls ++ calls) → e.Lies cs lo hi := by
  refine looks_lastStop.passes.skip fun stop => .pure fun hi h hcalls => ?_
  refine Expr.lies_leaf ?_ (hcalls.mono h)
  split
  · exact nofun
  · exact nofun

theorem passes_checkSuper (ctx : Context) (base : Base) : Passes cs (checkSuper ctx base) := by
  unfold checkSuper
  split
  · split
    · exact .pure ()
    · exact passes_note _ _
  · exact .pure ()

/-- The literal of a call is its first argument. -/
theorem calls_importCall {start stop : Nat} {args : List Expr} (hle : lo ≤ start)
    (hstart : start ≤ mid) (hboundary : IsBoundary cs start) (hargs : Follow cs mid stop args)
    (hstop : IsBoundary cs stop) : Calls cs lo stop (⟨⟨start, stop⟩, match args.head? with
      | some e => if e.form == .string then some e.span else none
      | none => none⟩ :: args.flatMap (·.calls)) := by
  cases args with
  | nil => exact .nil (hle.trans (hstart.trans hargs))
  | cons e es =>
    obtain ⟨mid', he, hes⟩ := hargs
    dsimp only [List.head?_cons]
    split
    · rename_i hform
      obtain ⟨hnone, hliteral, hle', hle''⟩ := he.string (eq_of_beq hform)
      have hm : Mention.Lies ⟨⟨start, stop⟩, e.span, true⟩ cs lo stop :=
        ⟨hle, le_refl _, hboundary, hstop, hliteral, hstart.trans hle', hle''.trans hes.le⟩
      rw [List.flatMap_cons, hnone, List.nil_append]
      exact Mentions.cons hes.calls hm rfl (fun m => Calls.isDynamic) hle'' (le_refl _)
    · exact Calls.widen (he.calls.append hes.calls) (hle.trans hstart) (le_refl _)

theorem reads_subscript (hg : g.IsSound cs) (ctx : Context) (noCall : Bool) (base : Base)
    (lo mid : Nat) : Reads cs mid (g.subscript ctx noCall base) fun hi found =>
      base.Lies cs lo mid → (found.elim base Base.expr).Lies cs lo hi := by
  have hmember : ∀ mid' optional calls, Reads cs mid' (do
      return some (← memberOf base optional calls)) fun hi found =>
        Calls cs mid mid' calls → base.Lies cs lo mid →
          (found.elim base Base.expr).Lies cs lo hi := by
    intro mid' optional calls
    refine (reads_memberOf lo base optional calls).bind fun stop e => ?_
    exact .pure fun hi h he hcalls hbase => (he (hbase.calls.append hcalls)).mono h
  refine (passes_eat _).skip fun optional => (passes_eat _).skip fun b => ?_
  split
  · split
    · exact .fail _ _
    · refine (findsExpr_expression hg _ mid).bind fun mid' e => (passes_expect _).skip fun _ => ?_
      refine (passes_checkSuper _ _).skip fun _ => (hmember mid' _ _).imp ?_
      exact fun hi found hfound he => hfound he.calls
  refine (looks_at? _).passes.skip fun b => ?_
  split
  · refine (reads_arguments hg _ _).bind fun mid' args => ?_
    extract_lets calls initializers literal form
    refine Reads.stop fun stop => ?_
    cases base with
    | import_ start =>
      dsimp only
      split
      · exact looks_blame.passes.skip fun n => .fail _ _
      · refine .pure fun hi h hstop hargs hbase => Expr.lies_leaf nofun (Calls.mono ?_ h)
        exact calls_importCall hbase.1 hbase.2.1 hbase.2.2 (hargs.mono hstop.1) hstop.2
    | super start =>
      dsimp only
      split
      · exact looks_blame.passes.skip fun n => .fail _ _
      · refine .pure fun hi h hstop hargs hbase => Expr.lies_leaf nofun ?_
        exact hargs.calls.widen hbase (hstop.1.trans h)
    | expr e =>
      refine .pure fun hi h hstop hargs hbase => Expr.lies_leaf ?_ ?_
      · unfold form
        split <;> exact nofun
      · exact hbase.calls.append (hargs.calls.mono (hstop.1.trans h))
  refine (looks_at? _).passes.skip fun b => ?_
  split
  · refine looks_blame.passes.skip fun n => .spoiled ?_
    refine ReadsIf.bind (readsIf_templateLiteral hg nofun _ _) fun mid' calls => ?_
    refine looks_lastStop.passes.skip fun stop => .pure fun hi h hcalls hbase => ?_
    exact Expr.lies_leaf nofun (hbase.calls.append (hcalls.mono h))
  extract_lets whole behindDot
  have hwhole : ∀ u, Reads cs mid (whole u) fun hi found =>
      base.Lies cs lo mid → (found.elim base Base.expr).Lies cs lo hi :=
    fun _ => (hmember mid _ _).imp fun hi found hfound => hfound (.nil (le_refl mid))
  have hbehindDot : ∀ dot, Reads cs mid (behindDot dot) fun hi found =>
      base.Lies cs lo mid → (found.elim base Base.expr).Lies cs lo hi := by
    intro dot
    unfold behindDot
    split
    · refine (passes_eat _).skip fun isPrivate => looks_here.passes.skip fun nameStart => ?_
      extract_lets named
      have hnamed : ∀ found, Reads cs mid (named found) fun hi found =>
          base.Lies cs lo mid → (found.elim base Base.expr).Lies cs lo hi := by
        rintro ⟨w, n⟩
        cases base with
        | import_ start =>
          dsimp only [named]
          split
          · refine looks_lastStop.passes.skip fun stop => .pure fun hi h hbase => ?_
            exact Expr.lies_leaf nofun (hbase.calls.mono h)
          · exact .fail _ _
        | super start =>
          exact (passes_checkSuper _ _).skip fun _ => (passes_note _ _).skip_if hwhole ()
        | expr e => exact hwhole ()
      split
      · exact passes_privateName.skip hnamed
      · exact passes_identifierName.skip hnamed
    cases base with
    | expr e =>
      refine (looks_at? _).read fun b => ?_
      split
      · rename_i hb
        extract_lets tagged
        have htagged : ∀ {K : State → Prop}, (∀ s, K s → s.current.token.IsWhole) →
            ∀ u, ReadsIf cs K mid (tagged u) fun hi found =>
              (Base.expr e).Lies cs lo mid →
                (found.elim (Base.expr e) Base.expr).Lies cs lo hi := by
          intro K hK _
          refine ReadsIf.bind (readsIf_templateLiteral hg hK _ _) fun mid' calls => ?_
          refine looks_lastStop.passes.skip fun stop => .pure fun hi h hcalls hbase => ?_
          exact Expr.lies_leaf nofun (Calls.append hbase.calls (hcalls.mono h))
        split
        · refine Reads.known (looks_blame.passes.skip fun n => .spoiled ?_)
          exact htagged (fun _ h => h.elim) ()
        · refine htagged ?_ ()
          exact fun s hs => State.isWhole_of_eq (hs hb) nofun
      · exact Reads.known (.pure fun hi h hbase => hbase.mono h)
    | super start =>
      dsimp only
      split
      · exact looks_blame.passes.skip fun n => .fail _ _
      · exact looks_blame.passes.skip fun n => .fail _ _
    | import_ start =>
      dsimp only
      split
      · exact looks_blame.passes.skip fun n => .fail _ _
      · exact .unexpected _
  split
  · exact .pure_bind (hbehindDot _)
  · exact (passes_eat _).skip hbehindDot

theorem reads_subscripts (hg : g.IsSound cs) (ctx : Context) (noCall : Bool) (base : Base)
    (lo mid : Nat) : Reads cs mid (g.subscripts ctx noCall base) fun hi e =>
      base.Lies cs lo mid → e.Lies cs lo hi := by
  refine (Reads.loop (I := fun hi (base : Base) => base.Lies cs lo hi) (fun mid base => ?_)
    g.fuel base).bind fun mid' base' => ?_
  · refine (reads_subscript hg ctx noCall base lo mid).bind fun mid' found => ?_
    cases found with
    | some e => exact .pure fun hi h hfound hbase => (hfound hbase).mono h
    | none => exact .pure fun hi h hfound hbase => (hfound hbase).mono h
  · have hinvalid : Reads cs mid' (do
        return .leaf ⟨base'.start, ← lastStop⟩ .invalid [] [] : Reader Expr) fun hi e =>
          ((∀ m, mid ≤ m → base.Lies cs lo m) → base'.Lies cs lo mid') → base.Lies cs lo mid →
            e.Lies cs lo hi := by
      refine looks_lastStop.passes.skip fun stop => .pure fun hi h hbase' hbase => ?_
      exact Expr.lies_leaf nofun (.nil ((hbase' fun m hm => hbase.mono hm).calls.le.trans h))
    cases base' with
    | expr e =>
      refine .pure fun hi h hbase' hbase => ?_
      exact Expr.Lies.mono (hbase' fun m hm => hbase.mono hm) h
    | super n => exact hinvalid
    | import_ n => exact hinvalid

theorem reads_importExpression (hg : g.IsSound cs) (ctx : Context) (start : Nat) (noCall : Bool)
    (lo mid : Nat) : Reads cs mid (g.importExpression ctx start noCall) fun hi e =>
      lo ≤ start ∧ start ≤ mid ∧ IsBoundary cs start → e.Lies cs lo hi := by
  have hsubscripts := reads_subscripts hg ctx noCall (.import_ start) lo mid
  refine (looks_at? _).read fun b => ?_
  split
  · rename_i hb
    refine .look looks_peek fun next => ?_
    split
    · rename_i hnext
      have hwhole : next.token.IsWhole := by
        rcases Bool.or_eq_true_iff.1 hnext with h | h
        · exact eq_of_beq h ▸ nofun
        · exact eq_of_beq h ▸ nofun
      refine .bump_to (J := fun s => s.current.token.IsWhole) (fun s hs => ?_) (fun s hs => ?_) ?_
      · exact ⟨State.isWhole_of_eq (hs.1 hb) nofun, hs.1 hb ▸ nofun⟩
      · rw [hs.2 (hs.1 hb ▸ nofun)]
        exact hwhole
      · exact .bump (fun s hs => hs) hsubscripts
    · exact hsubscripts.known
  · exact hsubscripts.known

theorem findsExpr_memberExpression (hg : g.IsSound cs) (ctx : Context) :
    FindsExpr cs (g.memberExpression ctx) := by
  intro lo
  refine looks_here.read fun start => .eatWord (fun s hs => hs) ?_ ?_
  · rw [if_pos rfl]
    refine Reads.imp (Q := fun hi e => e.Lies cs start hi) ?_
      fun hi e he hstart => he.widen hstart.1 (le_refl hi)
    refine (passes_eat _).skip fun b => ?_
    split
    · refine (passes_eatWord _).skip fun b => ?_
      split
      · extract_lets target
        have htarget : ∀ u, Reads cs start (target u) fun hi e => e.Lies cs start hi := by
          intro _
          refine (reads_plain start (by decide)).bind fun mid e => ?_
          refine (reads_subscripts hg ctx true (.expr e) start mid).imp fun hi e' he' he => ?_
          exact he' (he (.nil (le_refl start)))
        exact (passes_note _ _).skip_unless htarget ()
      · exact .unexpected _
    refine (hg.member _ start).bind fun mid callee => ?_
    split
    · exact .pure fun hi h hcallee => hcallee.mono h
    extract_lets behindCallee
    have hbehindCallee : ∀ u, Reads cs mid (behindCallee u) fun hi e =>
        callee.Lies cs start mid → e.Lies cs start hi := by
      intro _
      refine (looks_at? _).passes.skip fun b => ?_
      split
      · refine (reads_arguments hg ctx false).bind fun mid' args => ?_
        refine Reads.stop fun stop => ?_
        refine (reads_subscripts hg ctx true (.expr _) start stop).imp ?_
        intro hi e he hstop hargs hcallee
        exact he (Expr.lies_leaf nofun (hcallee.calls.append (hargs.calls.mono hstop.1)))
      · refine looks_lastStop.passes.skip fun stop => .pure fun hi h hcallee => ?_
        exact Expr.lies_leaf nofun (hcallee.calls.mono h)
    exact (passes_fail _ _).skip_if hbehindCallee ()
  rw [if_neg Bool.false_ne_true]
  refine .eatWord (fun s hs => hs) ?_ ?_
  · rw [if_pos rfl]
    exact (reads_subscripts hg _ _ _ lo start).imp fun hi e he hstart => he hstart.1
  rw [if_neg Bool.false_ne_true]
  refine .eatWord (fun s hs => hs) ?_ ?_
  · rw [if_pos rfl]
    exact (reads_importExpression hg _ _ _ lo start).imp fun hi e he hstart =>
      he ⟨hstart.1, le_refl _, hstart.2⟩
  rw [if_neg Bool.false_ne_true]
  refine Reads.known ((findsExpr_primary hg ctx lo).bind fun mid e => ?_)
  split
  · exact .pure fun hi h he => he.mono h
  · exact reads_subscripts hg _ _ (.expr e) lo mid

theorem findsExpr_leftHandSideExpression (hg : g.IsSound cs) (ctx : Context) :
    FindsExpr cs (g.leftHandSideExpression ctx) := by
  intro lo
  refine looks_here.read fun start => .eatWord (fun s hs => hs) ?_ ?_
  · rw [if_pos rfl]
    exact (reads_subscripts hg _ _ _ lo start).imp fun hi e he hstart => he hstart.1
  rw [if_neg Bool.false_ne_true]
  refine .eatWord (fun s hs => hs) ?_ ?_
  · rw [if_pos rfl]
    exact (reads_importExpression hg _ _ _ lo start).imp fun hi e he hstart =>
      he ⟨hstart.1, le_refl _, hstart.2⟩
  rw [if_neg Bool.false_ne_true]
  refine Reads.known ((hg.member ctx lo).bind fun mid e => ?_)
  split
  · exact .pure fun hi h he => he.mono h
  refine (looks_at? _).passes.skip fun b => ?_
  split
  · exact reads_subscripts hg _ _ (.expr e) lo mid
  · exact .pure fun hi h he => he.mono h

/-! ### Operators -/

theorem passes_checkTarget (e : Expr) : Passes cs (checkTarget e) := by
  unfold checkTarget
  split
  · exact .pure ()
  · exact passes_note _ _

theorem tries_eatUpdate : Tries cs eatUpdate := by
  intro K lo
  refine (tries_eat _ K lo).bind fun b => ?_
  split
  · exact .pure fun s hs => ⟨hs.1, nofun⟩
  · rename_i hb
    refine (tries_eat _ K lo).imp (fun s hs => ⟨hs.1, hs.2 ?_⟩) fun _ _ hs => hs
    exact Bool.not_eq_true _ ▸ hb

theorem findsExpr_awaitExpression (hg : g.IsSound cs) (ctx : Context) :
    FindsExpr cs (g.awaitExpression ctx) := by
  intro lo
  refine looks_here.passes.skip fun start => (passes_expectWord _).skip fun _ => ?_
  refine (looks_at? _).passes.skip fun b => ?_
  extract_lets operand behindFunction behindStar
  have hoperand : ∀ u, Reads cs lo (operand u) fun hi e => e.Lies cs lo hi := by
    refine fun _ => (hg.unary ctx lo).bind fun mid e => looks_lastStop.passes.skip fun stop => ?_
    exact .pure fun hi h he => Expr.lies_leaf nofun (he.calls.mono h)
  have hbehindFunction : ∀ u, Reads cs lo (behindFunction u) fun hi e => e.Lies cs lo hi :=
    fun _ => (passes_note _ _).skip_if hoperand ()
  have hbehindStar : ∀ u, Reads cs lo (behindStar u) fun hi e => e.Lies cs lo hi := by
    intro _
    refine (looks_at? _).passes.skip fun b => (looks_at? _).passes.skip fun b' => ?_
    split
    · refine (passes_note _ _).skip fun _ => (reads_plain lo (by decide)).imp fun hi e he => ?_
      exact he (.nil (le_refl lo))
    split
    · exact looks_blame.passes.skip fun n => (passes_note _ _).skip hbehindFunction
    · exact hbehindFunction ()
  split
  · exact looks_blame.passes.skip fun n => (passes_fail _ _).skip hbehindStar
  · exact hbehindStar ()

theorem isWhole_of_isPrefixOperator {t : Token} (h : isPrefixOperator t = true) : t.IsWhole := by
  rintro f rfl
  exact nomatch h

theorem findsExpr_unaryExpression (hg : g.IsSound cs) (ctx : Context) :
    FindsExpr cs (g.unaryExpression ctx) := by
  intro lo
  refine looks_here.passes.skip fun start => looks_token.read fun t => ?_
  refine .tried tries_eatUpdate fun b => ?_
  split
  · refine Reads.known ((hg.unary ctx lo).bind fun mid e => (passes_checkTarget e).skip fun _ => ?_)
    exact .pure fun hi h he => Expr.lies_leaf nofun (he.calls.mono h)
  rename_i hb
  split
  · rename_i hoperator
    have hwhole := isWhole_of_isPrefixOperator hoperator
    refine .bump (fun s hs => ?_) ?_
    · exact State.isWhole_of_eq (hs (Bool.not_eq_true _ ▸ hb)) hwhole
    refine looks_here.passes.skip fun n => ?_
    extract_lets argStart
    refine Reads.bind (Reads.tryCatch (hg.unary ctx lo) fun f => ?_) fun mid e => ?_
    · exact (looks_note (I := fun _ _ => False) _ _).bind fun _ => .pure fun _ h => h
    extract_lets done
    have hdone : ∀ u, Reads cs mid (done u) fun hi e' => e.Lies cs lo mid → e'.Lies cs lo hi :=
      fun _ => .pure fun hi h he => Expr.lies_leaf nofun (he.calls.mono h)
    split
    · exact (passes_note _ _).skip hdone
    · exact hdone ()
  split
  · exact (findsExpr_awaitExpression hg ctx lo).known
  refine Reads.known ((hg.leftHandSide ctx lo).bind fun mid e => ?_)
  split
  · exact .pure fun hi h he => he.mono h
  refine looks_afterBreak.passes.skip fun b => ?_
  split
  · exact .pure fun hi h he => he.mono h
  refine tries_eatUpdate.passes.skip fun b => ?_
  split
  · refine (passes_checkTarget e).skip fun _ => looks_lastStop.passes.skip fun stop => ?_
    exact .pure fun hi h he => Expr.lies_leaf nofun (he.calls.mono h)
  · exact .pure fun hi h he => he.mono h

theorem looks_nextOperator? (ctx : Context) : Looks (nextOperator? ctx) fun found s =>
    found.isSome → s.current.token.IsWhole := by
  refine looks_whole.bind fun t => ?_
  split
  · exact .pure fun s hs h => (hs _ rfl).2.1
  · split
    · exact .pure fun s hs h => (hs _ rfl).2.1
    · exact .pure fun s hs h => (hs _ rfl).2.1
  · exact .pure fun s hs h => (hs _ rfl).2.1
  · exact .pure fun s hs h => nomatch h

theorem reads_operatorsAfter (hg : g.IsSound cs) (ctx : Context) (e : Expr) (bound lo mid : Nat) :
    Reads cs mid (g.operatorsAfter ctx e bound) fun hi e' =>
      e.Lies cs lo mid → e'.Lies cs lo hi := by
  refine (Reads.loop (I := fun hi (e : Expr) => e.Lies cs lo hi) (fun mid left => ?_) g.fuel e).imp
    fun hi e' he' he => he' fun m hm => he.mono hm
  refine (looks_nextOperator? ctx).read fun found => ?_
  split
  · exact Reads.known (.pure fun hi h hleft => hleft.mono h)
  split
  · exact Reads.known (.pure fun hi h hleft => hleft.mono h)
  refine .bump (fun s hs => hs rfl) ?_
  extract_lets operand
  have hoperand : ∀ u, Reads cs mid (operand u) fun hi found =>
      left.Lies cs lo mid → found.1.Lies cs lo hi := by
    refine fun _ => (hg.unary ctx mid).bind fun mid' first => ?_
    refine (hg.operators ctx first _ mid mid').bind fun stop right => ?_
    extract_lets done
    have hdone : ∀ u, Reads cs stop (done u) fun hi found =>
        (first.Lies cs mid mid' → right.Lies cs mid stop) → first.Lies cs mid mid' →
          left.Lies cs lo mid → found.1.Lies cs lo hi :=
      fun _ => .pure fun hi h hright hfirst hleft =>
        Expr.lies_leaf nofun (hleft.calls.append ((hright hfirst).calls.mono h))
    split
    · exact Passes.skip_if (passes_note _ _) (fun _ => (passes_note _ _).skip_if hdone ()) ()
    split
    · exact Passes.skip_if (passes_note _ _) (fun _ => (passes_note _ _).skip_if hdone ()) ()
    · exact hdone ()
  split
  · exact looks_blame.passes.skip fun n => (passes_fail _ _).skip hoperand
  · exact hoperand ()

theorem findsExpr_binaryExpression (hg : g.IsSound cs) (ctx : Context) :
    FindsExpr cs (g.binaryExpression ctx) := by
  intro lo
  refine Reads.bind (Reads.tryCatch (hg.unary ctx lo) fun f => ?_) fun mid left => ?_
  · extract_lets missing
    have hmissing : ∀ t, Looks missing fun _ s => s.current.token = t → False := fun t =>
      looks_lastStart.bind fun n => (looks_note (I := fun _ _ => False) _ n).bind fun _ =>
        .pure fun _ h => h.elim
    refine looks_token.bind fun t => ?_
    split
    · exact looks_bump_throw _
    · exact looks_lastStop.bind fun n => .throw _
    · split
      · exact hmissing _
      · exact .throw _
    · exact hmissing _
    · exact hmissing _
    · exact .throw _
  · split
    · exact .pure fun hi h hleft => hleft.mono h
    · exact hg.operators ctx left 0 lo mid

theorem findsExpr_conditionalExpression (hg : g.IsSound cs) (ctx : Context) :
    FindsExpr cs (g.conditionalExpression ctx) := by
  intro lo
  refine (findsExpr_binaryExpression hg ctx lo).bind fun mid test => ?_
  split
  · exact .pure fun hi h htest => htest.mono h
  refine (passes_eat _).skip fun b => ?_
  split
  · refine (hg.assignment _ mid).bind fun mid' first => (passes_expect _).skip fun _ => ?_
    refine (hg.assignment _ mid').bind fun mid'' second => looks_lastStop.passes.skip fun stop => ?_
    refine .pure fun hi h hsecond hfirst htest => Expr.lies_leaf nofun ?_
    exact (htest.calls.append hfirst.calls).append (hsecond.calls.mono h)
  · exact .pure fun hi h htest => htest.mono h

/-! ### Assignments -/

theorem findsExpr_yieldExpression (hg : g.IsSound cs) (ctx : Context) :
    FindsExpr cs (g.yieldExpression ctx) := by
  intro lo
  refine looks_here.passes.skip fun start => (passes_expectWord _).skip fun _ => ?_
  extract_lets operand
  have hoperand : ∀ u, Reads cs lo (operand u) fun hi e => e.Lies cs lo hi := by
    intro _
    refine looks_atStatementEnd.passes.skip fun b => looks_token.passes.skip fun t => ?_
    split
    · exact (reads_plain lo (by decide)).imp fun hi e he => he (.nil (le_refl lo))
    · refine (passes_eat _).skip fun b => (hg.assignment ctx lo).bind fun mid e => ?_
      refine looks_lastStop.passes.skip fun stop => ?_
      exact .pure fun hi h he => Expr.lies_leaf nofun (he.calls.mono h)
  split
  · exact looks_lastStart.passes.skip fun n => (passes_fail _ _).skip hoperand
  · exact hoperand ()

theorem findsExpr_assignmentExpression (hg : g.IsSound cs) (ctx : Context) :
    FindsExpr cs (g.assignmentExpression ctx) := by
  intro lo
  refine (looks_word? _).passes.skip fun b => ?_
  split
  · exact findsExpr_yieldExpression hg ctx lo
  refine looks_need.passes.skip fun t => looks_here.passes.skip fun start => ?_
  extract_lets mayBeArrow
  refine (passes_arrowStart _).skip fun _ => ?_
  refine (findsExpr_conditionalExpression hg ctx lo).bind fun mid left => ?_
  have hleft : Reads cs mid (pure left) fun hi e => left.Lies cs lo mid → e.Lies cs lo hi :=
    .pure fun hi h hleft => hleft.mono h
  split
  iterate 5 exact hleft
  refine looks_whole.read fun found => ?_
  split
  · extract_lets isPlain isPattern behindTarget
    have hbehindTarget : ∀ {K : State → Prop}, (∀ s, K s → s.current.token.IsWhole) → ∀ u,
        ReadsIf cs K mid (behindTarget u) fun hi e => left.Lies cs lo mid → e.Lies cs lo hi := by
      refine fun hK _ => .bump hK ((hg.assignment ctx mid).bind fun mid' right => ?_)
      refine looks_lastStop.passes.skip fun stop => .pure fun hi h hright hleft => ?_
      exact ⟨hleft.calls.append (hright.calls.mono h), nofun⟩
    split
    · exact .look (looks_adopt _) fun _ => hbehindTarget (fun s hs => (hs.1 _ rfl).2.1) ()
    split
    · exact hbehindTarget (fun s hs => (hs _ rfl).2.1) ()
    · exact Reads.known (.spoiled (hbehindTarget (fun _ h => h.elim) ()))
  · exact hleft.known

end Grammar
end Script
end ElementBuild
