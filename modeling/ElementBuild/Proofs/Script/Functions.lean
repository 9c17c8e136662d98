/-
# What functions, classes and patterns find

A production finds calls, or an expression with calls in it, from any place on up to where the
reader stands behind it (`Finds`, `FindsExpr`).  The productions through which the grammar is
recursive are taken to do so (`Grammar.IsSound`), and then each production that is made of them
does: it reads its parts one behind the other, and lists what they found in that order, the body
of a class before its heritage.
-/
import ElementBuild.Script.Grammar.Class
import ElementBuild.Proofs.Script.Reading

namespace ElementBuild
namespace Script

open Reader

/-- From any place on, a reader finds calls up to where it stands afterwards. -/
def Finds {α : Type} (cs : List Char) (r : Reader α) (calls : α → List ImportCall) : Prop :=
  ∀ lo, Reads cs lo r fun hi a => Calls cs lo hi (calls a)

/-- From any place on, a reader finds an expression up to where it stands afterwards. -/
def FindsExpr (cs : List Char) (r : Reader Expr) : Prop :=
  ∀ lo, Reads cs lo r fun hi e => e.Lies cs lo hi

theorem FindsExpr.passes {cs : List Char} {r : Reader Expr} (h : FindsExpr cs r) : Passes cs r :=
  fun lo => (h lo).imp fun _ _ => Expr.Lies.le

/-- Each production of a grammar finds what it yields where it reads it. -/
structure Grammar.IsSound (g : Grammar) (cs : List Char) : Prop where
  assignment : ∀ ctx, FindsExpr cs (g.assignment ctx)
  unary : ∀ ctx, FindsExpr cs (g.unary ctx)
  leftHandSide : ∀ ctx, FindsExpr cs (g.leftHandSide ctx)
  member : ∀ ctx, FindsExpr cs (g.member ctx)
  /-- The left operand was found before. -/
  operators : ∀ ctx e bound lo mid, Reads cs mid (g.operators ctx e bound) fun hi e' =>
    e.Lies cs lo mid → e'.Lies cs lo hi
  binding : ∀ ctx, Finds cs (g.binding ctx) Pattern.calls
  statement : ∀ ctx declarations, Finds cs (g.statement ctx declarations) id

namespace Grammar

variable {g : Grammar} {cs : List Char} {lo : Nat}

theorem findsExpr_expression (hg : g.IsSound cs) (ctx : Context) :
    FindsExpr cs (g.expression ctx) := by
  intro lo
  refine (hg.assignment ctx lo).bind fun mid first => ?_
  refine (looks_at? _).passes.skip fun b => ?_
  split
  · refine (Reads.loop (I := fun hi (found : List ImportCall × List Nat) =>
      Calls cs lo hi found.1) (fun mid ⟨calls, inits⟩ => ?_) g.fuel _).bind fun mid found => ?_
    · refine (passes_eat _).skip fun b => ?_
      split
      · refine (hg.assignment ctx mid).bind fun mid' e => .pure fun hi h he hcalls => ?_
        exact hcalls.append (he.calls.mono h)
      · exact .pure fun hi h hcalls => hcalls.mono h
    refine looks_lastStop.passes.skip fun stop => .pure fun hi h hfound hfirst => ?_
    exact Expr.lies_leaf nofun ((hfound fun m hm => hfirst.calls.mono hm).mono h)
  · exact .pure fun hi h hfirst => hfirst.mono h

theorem looks_forM {α : Type} {f : α → Reader Unit} (h : ∀ a, Looks (f a) fun _ _ => True)
    (xs : List α) : Looks (xs.forM f) fun _ _ => True := by
  induction xs with
  | nil => exact .pure fun _ => trivial
  | cons x xs ih => exact (h x).bind fun _ => ih.imp fun _ _ h _ => h

theorem looks_settleInitializers (e : Expr) : Looks (settleInitializers e) fun _ _ => True :=
  looks_forM (fun _ => looks_note _ _) _

/-- An expression is taken as a pattern without a fault, or not at all. -/
theorem looks_adopt (fitness : Fitness) : Looks (adopt fitness) fun _ _ => True := by
  refine (looks_forM (fun _ => looks_note _ _) _).bind fun _ => ?_
  split
  · exact looks_fail _ _
  · exact .pure fun _ _ => trivial

theorem reads_spreadable (hg : g.IsSound cs) (ctx : Context) :
    Reads cs lo (g.spreadable ctx) fun hi found => found.2.Lies cs lo hi := by
  refine looks_here.passes.skip fun start => (passes_eat _).skip fun b => ?_
  split
  · exact (hg.assignment _ lo).bind fun mid e => .pure fun hi h he => he.mono h
  · exact (hg.assignment _ lo).bind fun mid e => .pure fun hi h he => he.mono h

theorem reads_arguments (hg : g.IsSound cs) (ctx : Context) (ofImport : Bool) :
    Reads cs lo (g.arguments ctx ofImport) fun hi args => Follow cs lo hi args := by
  refine looks_here.passes.skip fun start => (passes_expect _).skip fun _ => ?_
  refine (Reads.rounds (I := fun hi (args : List Expr) => Follow cs lo hi args.reverse)
    (fun m hm => hm) fun mid args => ?_).bind fun mid args => ?_
  · refine (looks_at? _).passes.skip fun b => ?_
    split
    · exact .pure fun hi h hargs => hargs.mono h
    · extract_lets element
      have helement : ∀ comma, Reads cs mid (element comma) fun hi found =>
          Follow cs lo mid args.reverse → Follow cs lo hi found.1.reverse := by
        intro comma
        refine (looks_at? _).passes.skip fun b => ?_
        split
        · split
          · exact .fail _ _
          · exact .pure fun hi h hargs => hargs.mono h
        · refine (reads_spreadable hg _).bind fun mid' found => .pure fun hi h hfound hargs => ?_
          rw [List.reverse_cons]
          exact hargs.concat (hfound.mono h)
      split
      · exact .pure_bind (helement _)
      · exact (passes_expect _).skip fun _ => .pure_bind (helement _)
  · refine (passes_expect _).skip fun _ => .pure fun hi h hargs => ?_
    exact hargs.mono h

/-! ### Names and patterns -/

theorem finds_propertyName (hg : g.IsSound cs) (ctx : Context) :
    Finds cs (g.propertyName ctx) Prod.snd := by
  intro lo
  refine looks_here.passes.skip fun start => looks_need.read fun t => ?_
  split
  iterate 4 exact .bump (fun s hs => hs.2.1) (.pure fun hi h => .nil h)
  · refine .bump (fun s hs => hs.2.1) ?_
    refine (hg.assignment _ lo).bind fun mid e => (passes_expect _).skip fun _ => ?_
    exact .pure fun hi h he => he.calls.mono h
  · exact Reads.known (.unexpected _)

theorem finds_bindingElement (hg : g.IsSound cs) (ctx : Context) :
    Finds cs (g.bindingElement ctx) Pattern.calls := by
  intro lo
  refine (hg.binding ctx lo).bind fun mid target => (passes_eat _).skip fun b => ?_
  split
  · refine (hg.assignment _ mid).bind fun mid' value => ?_
    refine (looks_settleInitializers _).passes.skip fun _ => .pure fun hi h hvalue htarget => ?_
    exact htarget.append (hvalue.calls.mono h)
  · exact .pure fun hi h htarget => htarget.mono h

/-- A comma stands behind an element that another one follows. -/
theorem reads_behindElement {α : Type} {closed isRest : Bool} {close : Punctuator}
    {done : Unit → Reader α} {R : Nat → α → Prop} (h : ∀ u, Reads cs lo (done u) R) :
    Reads cs lo (if closed = true then done () else
      expect .comma >>= fun _ => at? close >>= fun b =>
        if (isRest && b) = true then lastStart >>= fun n => note .commaAfterRest n >>= done
        else done ()) R := by
  split
  · exact h ()
  · refine (passes_expect _).skip fun _ => (looks_at? _).passes.skip fun b => ?_
    split
    · exact looks_lastStart.passes.skip fun n => (passes_note _ _).skip h
    · exact h ()

theorem finds_arrayBinding (hg : g.IsSound cs) (ctx : Context) :
    Finds cs (g.arrayBinding ctx) Pattern.calls := by
  intro lo
  refine looks_here.passes.skip fun start => (passes_expect _).skip fun _ => ?_
  refine (Reads.rounds (I := fun hi (found : List ImportCall × Option Nat) =>
    Calls cs lo hi found.1) (fun m hm => .nil hm) fun mid ⟨calls, rest⟩ => ?_).bind fun mid found => ?_
  · refine looks_atEnd.passes.skip fun b => (looks_at? _).passes.skip fun b' => ?_
    split
    · exact .pure fun hi h hcalls => hcalls.mono h
    refine (passes_eat _).skip fun b'' => ?_
    split
    · exact .pure fun hi h hcalls => hcalls.mono h
    · extract_lets element
      have helement : ∀ u, Reads cs mid (element u) fun hi found =>
          Calls cs lo mid calls → Calls cs lo hi found.1.1 := by
        intro _
        refine looks_here.passes.skip fun start => (passes_eat _).skip fun isRest => ?_
        extract_lets closing
        have hclosing : ∀ mid' element, Reads cs mid' (closing element) fun hi found =>
            Calls cs mid mid' element.calls → Calls cs lo mid calls → Calls cs lo hi found.1.1 := by
          intro mid' element
          refine (looks_at? _).passes.skip fun b => ?_
          extract_lets done
          have hdone : ∀ u, Reads cs mid' (done u) fun hi found =>
              Calls cs mid mid' element.calls → Calls cs lo mid calls → Calls cs lo hi found.1.1 :=
            fun _ => .pure fun hi h helement hcalls => hcalls.append (helement.mono h)
          exact reads_behindElement hdone
        split
        · exact (hg.binding ctx mid).bind hclosing
        · exact (finds_bindingElement hg ctx mid).bind hclosing
      split
      · exact (passes_note _ _).skip helement
      · exact helement ()
  · exact (passes_expect _).skip fun _ => .pure fun hi h hfound => hfound.mono h

/-- What a property of an object pattern finds. -/
theorem finds_bindingProperty (hg : g.IsSound cs) (ctx : Context) :
    Finds cs (g.bindingProperty ctx) Prod.fst := by
  intro lo
  refine looks_here.passes.skip fun start => (passes_eat _).skip fun b => ?_
  split
  · exact (hg.binding ctx lo).bind fun mid target => .pure fun hi h htarget => htarget.mono h
  · refine (finds_propertyName hg ctx lo).bind fun mid ⟨key, keyCalls⟩ => ?_
    refine (passes_eat _).skip fun b => ?_
    split
    · refine (finds_bindingElement hg ctx mid).bind fun mid' value => ?_
      exact .pure fun hi h hvalue hkey => hkey.append (hvalue.mono h)
    · -- the name of the property is the whole of it, so nothing was found in it
      split
      · refine (passes_eat _).skip fun b => ?_
        split
        · refine (hg.assignment _ mid).bind fun mid' value => ?_
          refine (looks_settleInitializers _).passes.skip fun _ => .pure fun hi h hvalue hkey => ?_
          exact hvalue.calls.widen hkey.le h
        · extract_lets done
          have hdone : ∀ u, Reads cs mid (done u) fun hi found =>
              Calls cs lo mid keyCalls → Calls cs lo hi found.1 :=
            fun _ => .pure fun hi h hkey => .nil (hkey.le.trans h)
          exact (passes_note _ _).skip_if hdone ()
      · exact .unexpected _

theorem finds_objectBinding (hg : g.IsSound cs) (ctx : Context) :
    Finds cs (g.objectBinding ctx) Pattern.calls := by
  intro lo
  refine looks_here.passes.skip fun start => (passes_expect _).skip fun _ => ?_
  refine (Reads.rounds (I := fun hi calls => Calls cs lo hi calls)
    (fun m hm => .nil hm) fun mid calls => ?_).bind fun mid calls => ?_
  · refine (passes_eat _).skip fun b => ?_
    split
    · exact .pure fun hi h hcalls => hcalls.mono h
    · refine (finds_bindingProperty hg ctx mid).bind fun mid' ⟨more, rest⟩ => ?_
      refine (looks_at? _).passes.skip fun b => ?_
      extract_lets done
      have hdone : ∀ u, Reads cs mid' (done u) fun hi found =>
          Calls cs mid mid' more → Calls cs lo mid calls → Calls cs lo hi found.1 :=
        fun _ => .pure fun hi h hmore hcalls => hcalls.append (hmore.mono h)
      split
      · exact hdone ()
      · refine (passes_expect _).skip fun _ => ?_
        split
        · refine (looks_at? _).passes.skip fun b => ?_
          split
          · exact looks_lastStart.passes.skip fun n => (passes_note _ _).skip hdone
          · exact (passes_note _ _).skip hdone
        · exact hdone ()
  · exact .pure fun hi h hcalls => hcalls.mono h

theorem finds_bindingTarget (hg : g.IsSound cs) (ctx : Context) :
    Finds cs (g.bindingTarget ctx) Pattern.calls := by
  intro lo
  refine looks_need.read fun t => ?_
  split
  · exact Reads.known ((passes_bindingIdentifier _).skip fun found => .pure fun hi h => .nil h)
  · exact (finds_arrayBinding hg ctx lo).known
  · exact (finds_objectBinding hg ctx lo).known
  · exact Reads.known (.unexpected _)

/-! ### Functions -/

theorem finds_parameters (hg : g.IsSound cs) (ctx : Context) :
    Finds cs (g.parameters ctx) Prod.fst := by
  intro lo
  refine (passes_expect _).skip fun _ => ?_
  refine (Reads.rounds (I := fun hi (found : List ImportCall × Nat × Option Nat) =>
    Calls cs lo hi found.1) (fun m hm => .nil hm)
    fun mid ⟨calls, count, rest⟩ => ?_).bind fun mid found => ?_
  · refine looks_atEnd.passes.skip fun b => (looks_at? _).passes.skip fun b' => ?_
    split
    · exact .pure fun hi h hcalls => hcalls.mono h
    extract_lets element
    have helement : ∀ u, Reads cs mid (element u) fun hi found =>
        Calls cs lo mid calls → Calls cs lo hi found.1.1 := by
      intro _
      refine looks_here.passes.skip fun start => (passes_eat _).skip fun isRest => ?_
      extract_lets closing
      have hclosing : ∀ mid' element, Reads cs mid' (closing element) fun hi found =>
          Calls cs mid mid' element.calls → Calls cs lo mid calls → Calls cs lo hi found.1.1 := by
        intro mid' element
        refine (looks_at? _).read fun b => ?_
        extract_lets done checked
        have hchecked : ∀ u, Reads cs mid' (checked u) fun hi found =>
            Calls cs mid mid' element.calls → Calls cs lo mid calls → Calls cs lo hi found.1.1 := by
          intro _
          have hdone : ∀ u, Reads cs mid' (done u) fun hi found =>
              Calls cs mid mid' element.calls → Calls cs lo mid calls → Calls cs lo hi found.1.1 :=
            fun _ => .pure fun hi h helement hcalls => hcalls.append (helement.mono h)
          exact (looks_at? _).passes.skip fun b => reads_behindElement hdone
        split
        · rename_i hb
          refine .bump (fun s hs => State.isWhole_of_eq (hs (Bool.and_eq_true_iff.1 hb).2) nofun) ?_
          refine (hg.assignment _).passes.skip fun e => (passes_note _ _).skip hchecked
        · exact (hchecked ()).known
      split
      · exact (hg.binding ctx mid).bind hclosing
      · exact (finds_bindingElement hg ctx mid).bind hclosing
    split
    · exact (passes_note _ _).skip helement
    · exact helement ()
  · exact (passes_expect _).skip fun _ => .pure fun hi h hfound => hfound.mono h

theorem finds_statementsInBraces (hg : g.IsSound cs) (ctx : Context) :
    Finds cs (g.statementsInBraces ctx) id := by
  intro lo
  refine (passes_expect _).skip fun _ => ?_
  refine (Reads.rounds (I := fun hi (calls : List (List ImportCall)) =>
    Calls cs lo hi calls.reverse.flatten) (fun m hm => .nil hm)
    fun mid calls => ?_).bind fun mid calls => ?_
  · refine looks_whole.read fun found => ?_
    split
    · refine Reads.known (looks_blame.passes.skip fun n => (passes_note _ _).skip fun _ => ?_)
      exact .pure fun hi h hcalls => hcalls.mono h
    · exact .bump (fun s hs => (hs _ rfl).2.1) (.pure fun hi h hcalls => hcalls.mono h)
    · refine Reads.known ((hg.statement ctx true mid).bind fun mid' more => ?_)
      refine .pure fun hi h hmore hcalls => ?_
      rw [List.reverse_cons, List.flatten_append, List.flatten_singleton]
      exact hcalls.append (hmore.mono h)
  · exact .pure fun hi h hcalls => hcalls.mono h

theorem finds_arrowBody (hg : g.IsSound cs) (ctx : Context) (isAsync : Bool) :
    Finds cs (g.arrowBody ctx isAsync) id := by
  intro lo
  refine (looks_at? _).passes.skip fun b => ?_
  split
  · exact finds_statementsInBraces hg _ lo
  · exact (hg.assignment _ lo).bind fun mid e => .pure fun hi h he => he.calls.mono h

theorem finds_functionRest (hg : g.IsSound cs) (ctx : Context) (isAsync isGenerator : Bool) :
    Finds cs (g.functionRest ctx isAsync isGenerator) Prod.fst := by
  intro lo
  refine (finds_parameters hg _ lo).bind fun mid ⟨before, count⟩ => ?_
  refine (finds_statementsInBraces hg _ mid).bind fun mid' body => ?_
  exact .pure fun hi h hbody hbefore => hbefore.append (hbody.mono h)

theorem passes_optionalName (ctx : Context) (naming : Naming) :
    Passes cs (optionalName ctx naming) := by
  intro lo
  refine looks_atIdentifier.passes.skip fun b => ?_
  split
  · exact (passes_bindingIdentifier _).skip fun found => .pure fun _ h => h
  · exact .pure fun _ h => h

theorem finds_function (hg : g.IsSound cs) (ctx : Context) (isAsync isExpression : Bool)
    (naming : Naming) : Finds cs (g.function ctx isAsync isExpression naming) Prod.snd := by
  intro lo
  refine (passes_expectWord _).skip fun _ => (passes_eat _).skip fun isGenerator => ?_
  refine (passes_optionalName _ _).skip fun name => ?_
  refine (finds_functionRest hg _ _ _ lo).bind fun mid found => ?_
  exact .pure fun hi h hfound => hfound.mono h

/-! ### Classes -/

theorem finds_memberName (hg : g.IsSound cs) (ctx : Context) :
    Finds cs (g.memberName ctx) Prod.snd := by
  intro lo
  refine (looks_at? _).read fun b => ?_
  split
  · rename_i hb
    refine .look looks_here fun start => ?_
    refine .bump (fun s hs => State.isWhole_of_eq (hs.1 hb) nofun) ?_
    exact passes_privateName.skip fun found => .pure fun hi h => .nil h
  · exact (finds_propertyName hg ctx lo).known

theorem looks_atFieldEnd (withInsertion : Bool) :
    Looks (atFieldEnd withInsertion) fun _ _ => True := by
  refine looks_token.bind fun t => ?_
  split
  · exact .pure fun _ _ => trivial
  · exact .pure fun _ _ => trivial
  · exact .pure fun _ _ => trivial
  · split
    · exact looks_atStatementEnd.imp fun _ _ h _ => h
    · exact .pure fun _ _ => trivial

theorem finds_fieldRest (hg : g.IsSound cs) (ctx : Context) (key : PropertyName) :
    Finds cs (g.fieldRest ctx key) id := by
  intro lo
  unfold fieldRest
  extract_lets ending value
  have hending : ∀ mid calls, Reads cs mid (ending calls) fun hi found =>
      Calls cs lo mid calls → Calls cs lo hi found := by
    intro mid calls
    refine passes_eatStatementEnd.skip fun b => ?_
    extract_lets done
    have hdone : ∀ u, Reads cs mid (done u) fun hi found =>
        Calls cs lo mid calls → Calls cs lo hi found :=
      fun _ => .pure fun hi h hcalls => hcalls.mono h
    split
    · exact hdone ()
    · exact looks_blame.passes.skip fun n => (passes_note _ _).skip hdone
  have hvalue : ∀ u, Reads cs lo (value u) fun hi found => Calls cs lo hi found := by
    intro _
    refine (passes_eat _).skip fun b => ?_
    split
    · refine (hg.assignment _ lo).bind fun mid e => ?_
      refine (looks_settleInitializers _).passes.skip fun _ => ?_
      exact .pure_bind ((hending mid _).imp fun hi found hfound he => hfound he.calls)
    · exact .pure_bind ((hending lo _).imp fun hi found hfound => hfound (.nil (le_refl lo)))
  exact (passes_fail _ _).skip_if hvalue ()

theorem finds_accessor (hg : g.IsSound cs) (ctx : Context) (isGetter : Bool) (keyOffset : Nat) :
    Finds cs (g.accessor ctx isGetter keyOffset) id := by
  intro lo
  refine (finds_memberName hg ctx lo).bind fun mid ⟨key, keyCalls⟩ => ?_
  dsimp -zeta only
  extract_lets named
  have hnamed : ∀ u, Reads cs mid (named u) fun hi calls =>
      Calls cs lo mid keyCalls → Calls cs lo hi calls := by
    intro _
    refine (finds_functionRest hg _ _ _ mid).bind fun mid' ⟨calls, count⟩ => ?_
    dsimp -zeta only
    extract_lets done counted
    have hdone : ∀ u, Reads cs mid' (done u) fun hi found =>
        Calls cs mid mid' calls → Calls cs lo mid keyCalls → Calls cs lo hi found :=
      fun _ => .pure fun hi h hcalls hkey => hkey.append (hcalls.mono h)
    have hcounted : ∀ u, Reads cs mid' (counted u) fun hi found =>
        Calls cs mid mid' calls → Calls cs lo mid keyCalls → Calls cs lo hi found :=
      fun _ => (passes_note _ _).skip_if hdone ()
    exact (passes_note _ _).skip_if hcounted ()
  exact (passes_note _ _).skip_if hnamed ()

/-- A method with a mark before its name. -/
theorem finds_method (hg : g.IsSound cs) (ctx : Context) (isStatic isAsync isGenerator : Bool)
    (fault : Fault) (offset : PropertyName → Nat) :
    Finds cs (do
      let (key, keyCalls) ← g.memberName ctx
      if key.isConstructor && !isStatic then note fault (offset key)
      return (keyCalls ++ (← g.methodRest ctx isAsync isGenerator).1, false) :
        Reader (List ImportCall × Bool)) Prod.fst := by
  intro lo
  refine (finds_memberName hg ctx lo).bind fun mid ⟨key, keyCalls⟩ => ?_
  dsimp -zeta only
  extract_lets body
  have hbody : ∀ u, Reads cs mid (body u) fun hi found =>
      Calls cs lo mid keyCalls → Calls cs lo hi found.1 := by
    intro _
    refine (finds_functionRest hg _ _ _ mid).bind fun mid' calls => ?_
    exact .pure fun hi h hcalls hkey => hkey.append (hcalls.mono h)
  exact (passes_note _ _).skip_if hbody ()

theorem finds_classMember (hg : g.IsSound cs) (ctx : Context) :
    Finds cs (g.classMember ctx) Prod.fst := by
  intro lo
  refine looks_here.passes.skip fun start => (passes_eatWord _).skip fun isStatic => ?_
  refine (looks_at? _).passes.skip fun b => ?_
  split
  · refine (finds_functionRest hg _ _ _ lo).bind fun mid found => ?_
    exact .pure fun hi h hfound => hfound.mono h
  refine (looks_atFieldEnd _).passes.skip fun b => ?_
  split
  · refine (finds_fieldRest hg _ _ lo).bind fun mid calls => ?_
    exact .pure fun hi h hcalls => hcalls.mono h
  refine (looks_at? _).passes.skip fun b => ?_
  split
  · refine (finds_statementsInBraces hg _ lo).bind fun mid calls => ?_
    exact .pure fun hi h hcalls => hcalls.mono h
  refine (passes_eat _).skip fun b => ?_
  split
  · exact finds_method hg ctx isStatic false true .generatorConstructor (fun _ => start) lo
  refine (finds_memberName hg ctx lo).bind fun mid ⟨key, keyCalls⟩ => ?_
  refine (looks_at? _).passes.skip fun b => ?_
  split
  · refine (finds_functionRest hg _ _ _ mid).bind fun mid' calls => ?_
    exact .pure fun hi h hcalls hkey => hkey.append (hcalls.mono h)
  refine looks_afterBreak.passes.skip fun b => (looks_at? _).passes.skip fun b' => ?_
  extract_lets starOnNextLine isAsync behindName
  have hbehindName : ∀ word, Reads cs mid (behindName word) fun hi found =>
      Calls cs lo mid keyCalls → Calls cs lo hi found.1 := by
    intro word
    refine (looks_atFieldEnd _).passes.skip fun b => ?_
    split
    · refine (finds_fieldRest hg _ _ mid).bind fun mid' calls => ?_
      exact .pure fun hi h hcalls hkey => hkey.append (hcalls.mono h)
    refine looks_afterBreak.passes.skip fun b => ?_
    -- the word before the name is no name itself, so nothing was found in it
    split
    · refine (passes_eat _).skip fun isGenerator => ?_
      refine (finds_method hg ctx isStatic true isGenerator .asyncConstructor _ mid).imp ?_
      exact fun hi found hfound hkey => hfound.widen hkey.le (le_refl hi)
    · split
      · refine (finds_accessor hg _ _ _ mid).bind fun mid' calls => ?_
        exact .pure fun hi h hcalls hkey => hcalls.widen hkey.le h
      · exact .unexpected _
  split
  · refine (looks_atFieldEnd _).passes.skip fun b => ?_
    split
    · exact .pure_bind (hbehindName _)
    · exact .pure_bind (hbehindName _)
  · exact .pure_bind (hbehindName _)

theorem finds_classDefinition (hg : g.IsSound cs) (ctx : Context) (naming : Naming) :
    Finds cs (g.classDefinition ctx naming) Prod.snd := by
  intro lo
  refine (passes_expectWord _).skip fun _ => (passes_optionalName _ _).skip fun name => ?_
  refine (passes_eatWord _).skip fun b => ?_
  extract_lets inner behindHeritage
  have hbehindHeritage : ∀ mid heritage, Reads cs mid (behindHeritage heritage) fun hi found =>
      Calls cs lo mid heritage → Calls cs lo hi found.2 := by
    intro mid heritage
    refine (passes_eatWord _).skip fun b => ?_
    extract_lets body
    have hbody : ∀ u, Reads cs mid (body u) fun hi found =>
        Calls cs lo mid heritage → Calls cs lo hi found.2 := by
      intro _
      refine (passes_expect _).skip fun _ => ?_
      refine (Reads.rounds (I := fun hi (found : List (List ImportCall) × Bool) =>
        Calls cs mid hi found.1.reverse.flatten) (fun m hm => .nil hm)
        fun mid' ⟨calls, hasConstructor⟩ => ?_).bind fun mid' ⟨calls, hasConstructor⟩ => ?_
      · refine looks_atEnd.passes.skip fun b => (looks_at? _).passes.skip fun b' => ?_
        split
        · exact .pure fun hi h hcalls => hcalls.mono h
        refine (passes_eat _).skip fun b => ?_
        split
        · exact .pure fun hi h hcalls => hcalls.mono h
        refine looks_here.passes.skip fun start => ?_
        refine (finds_classMember hg _ mid').bind fun stop ⟨more, isConstructor⟩ => ?_
        dsimp -zeta only
        extract_lets done
        have hdone : ∀ u, Reads cs stop (done u) fun hi found => Calls cs mid' stop more →
            Calls cs mid mid' calls.reverse.flatten →
              Calls cs mid hi found.1.1.reverse.flatten := by
          refine fun _ => .pure fun hi h hmore hcalls => ?_
          rw [List.reverse_cons, List.flatten_append, List.flatten_singleton]
          exact hcalls.append (hmore.mono h)
        exact (passes_note _ _).skip_if hdone ()
      · refine looks_atEnd.passes.skip fun b => ?_
        extract_lets done
        have hdone : ∀ u, Reads cs mid' (done u) fun hi found =>
            Calls cs mid mid' calls.reverse.flatten → Calls cs lo mid heritage →
              Calls cs lo hi found.2 :=
          fun _ => .pure fun hi h hcalls hheritage => hheritage.append_swap (hcalls.mono h)
        split
        · exact looks_blame.passes.skip fun n => (passes_note _ _).skip hdone
        · exact (passes_expect _).skip hdone
    split
    · refine looks_lastStart.passes.skip fun n => (passes_note _ _).skip fun _ => ?_
      exact (hg.leftHandSide _).passes.skip fun e => hbody ()
    · exact hbody ()
  split
  · refine (hg.leftHandSide _ lo).bind fun mid e => ?_
    exact .pure_bind ((hbehindHeritage mid _).imp fun hi found hfound he => hfound he.calls)
  · exact .pure_bind ((hbehindHeritage lo _).imp fun hi found hfound => hfound (.nil (le_refl lo)))

end Grammar

end Script
end ElementBuild
