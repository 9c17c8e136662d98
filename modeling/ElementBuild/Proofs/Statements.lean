/-
# The statements in the place of imports

The whole statement that imports a component, with the semicolon that may end it, gives way to a
marked import without one.  Wherever it stands, the reader passes it if and only if what follows
it ends a statement: a semicolon, a closing brace, a line break or the end of the text
(`Script.Grammar.accepts_rounds_iff`).  So a module stays one up to this: where another statement
follows on the line, only the semicolon that was taken away has kept the two apart
(`ComponentContext.accepts_component_import_iff`).
-/
import ElementBuild.Proofs.Build.Links
import ElementBuild.Proofs.Script.Reading

namespace ElementBuild
namespace Script

/-! ### Tokens -/

/-- The reader finds this token at the beginning of a text. -/
def Lexeme.Opens (l : Lexeme) (cs : List Char) : Prop :=
  ∃ pos broken faults, l = lexemeAfter (gap .between 0 cs pos broken faults)

theorem Lexeme.Opens.import_eq {l : Lexeme} {rest : List Char}
    (h : l.Opens ("import".toList ++ ' ' :: rest)) :
    l.token = .word "import" ∧ l.stop = l.start + 6 ∧ l.rest = ' ' :: rest := by
  obtain ⟨pos, broken, faults, rfl⟩ := h
  exact ⟨rfl, rfl, rfl⟩

/-- A text that stands between single quotes as it is. -/
def IsUnescaped (cs : List Char) : Prop := ∀ c ∈ cs, c ∉ ['\'', '\\', '\n', '\r']

instance (cs : List Char) : Decidable (IsUnescaped cs) :=
  List.decidableBAll (· ∉ ['\'', '\\', '\n', '\r']) cs

theorem stringTail_eq {cs rest value raw : List Char} {pos : Nat} {soft : List Located}
    (hcs : IsUnescaped cs) : stringTail '\'' 0 (cs ++ '\'' :: rest) pos value raw soft =
      ⟨cs.reverse ++ value, '\'' :: (cs.reverse ++ raw), pos + Text.byteLength cs + 1, rest, true,
        none, soft⟩ := by
  induction cs generalizing pos value raw with
  | nil => rfl
  | cons c cs ih =>
    have hc := hcs c List.mem_cons_self
    simp only [List.mem_cons, List.not_mem_nil, or_false, not_or] at hc
    obtain ⟨hquote, hescape, hline, hreturn⟩ := hc
    rw [List.cons_append, stringTail, if_neg hquote, if_neg (not_or.2 ⟨hline, hreturn⟩),
      if_neg hescape, ih fun d hd => hcs d (List.mem_cons_of_mem c hd), Text.byteLength_cons]
    simp only [List.reverse_cons, List.append_assoc, List.singleton_append, Nat.add_assoc]

/-- The literal behind a blank. -/
theorem lexeme_string {cs : List Char} (hcs : IsUnescaped cs) (rest : List Char) (pos : Nat) :
    lexeme (' ' :: '\'' :: (cs ++ '\'' :: rest)) pos =
      ⟨.string (String.ofList cs) (String.ofList ('\'' :: cs ++ ['\''])), pos + 1,
        pos + Text.byteLength cs + 3, false, [], rest⟩ := by
  have htoken : lexeme (' ' :: '\'' :: (cs ++ '\'' :: rest)) pos =
      tokenAt ⟨'\'' :: (cs ++ '\'' :: rest), pos + 1, false, []⟩ '\'' (cs ++ '\'' :: rest) := rfl
  rw [htoken]
  unfold tokenAt
  dsimp only
  rw [if_neg (by decide), if_neg (by decide), if_pos (by decide), stringTail_eq hcs]
  simp only [List.append_nil, List.reverse_reverse, List.reverse_append, List.reverse_cons,
    List.nil_append, List.reverse_nil, List.cons_append]
  simp only [ite_true, Nat.add_assoc, Lexeme.mk.injEq, true_and, and_true]
  omega

/-- A statement may end before a token. -/
def Lexeme.EndsStatement (l : Lexeme) : Prop :=
  l.token = .punctuator .semicolon ∨ l.token = .punctuator .braceClose ∨ l.token = .endOfText ∨
    l.afterBreak = true

instance : DecidablePred Lexeme.EndsStatement := fun _ => inferInstanceAs (Decidable (_ ∨ _ ∨ _ ∨ _))

/-! ### The reader -/

/-- The state behind a statement that ends here. -/
def State.ended (s : State) : State :=
  if s.current.token = .punctuator .semicolon then s.passed else s

namespace Reader

/-- A reader goes on from a state. -/
def Accepts {α : Type} (r : Reader α) (s : State) : Prop := ∃ a s', r s = .ok a s'

variable {α β : Type} {r : Reader α} {s s' : State} {a : α}

theorem accepts_bind_of_ok {f : α → Reader β} (h : r s = .ok a s') :
    Accepts (r >>= f) s ↔ Accepts (f a) s' := by
  unfold Accepts
  rw [bind_eq h]

/-- What goes on went on with its first part. -/
theorem Accepts.of_bind {f : α → Reader β} (h : Accepts (r >>= f) s) : Accepts r s := by
  obtain ⟨b, t, h⟩ := h
  cases hr : r s with
  | ok a s' => exact ⟨a, s', hr⟩
  | error e s' =>
    rw [bind_eq_error hr] at h
    cases h

theorem not_accepts_fail {fault : Fault} {offset : Nat} : ¬ Accepts (fail fault offset : Reader α) s := by
  rintro ⟨a, s', h⟩
  unfold fail at h
  cases hbroken : passBroken s with
  | ok u t =>
    rw [bind_eq hbroken] at h
    cases h
  | error e t =>
    rw [bind_eq_error hbroken] at h
    cases h

theorem eat_eq (p : Punctuator) (s : State) : eat p s =
    if s.current.token = .punctuator p then .ok true s.passed else .ok false s := by
  have hat : at? p s = .ok (s.current.token == .punctuator p) s := rfl
  unfold eat
  rw [bind_eq hat]
  split
  · rename_i h
    have htoken : s.current.token = .punctuator p := eq_of_beq h
    rw [bind_eq (bump_eq (by rw [htoken]; exact Token.noConfusion)), if_pos htoken]
    rfl
  · rename_i h
    rw [if_neg fun htoken => h (beq_iff_eq.2 htoken)]
    rfl

theorem atStatementEnd_eq (s : State) : atStatementEnd s = .ok (decide s.current.EndsStatement) s := by
  obtain ⟨⟨t, start, stop, broken, faults, rest⟩, _, _, _, _⟩ := s
  cases t with
  | punctuator p => cases p <;> cases broken <;> rfl
  | _ => cases broken <;> rfl

theorem eatStatementEnd_eq (s : State) :
    eatStatementEnd s = .ok (decide s.current.EndsStatement) s.ended := by
  unfold eatStatementEnd State.ended
  by_cases h : s.current.token = .punctuator .semicolon
  · rw [if_pos h, bind_eq ((eat_eq _ s).trans (if_pos h)),
      decide_eq_true (show s.current.EndsStatement from .inl h)]
    rfl
  · rw [if_neg h, bind_eq ((eat_eq _ s).trans (if_neg h))]
    exact atStatementEnd_eq s

theorem expectStatementEnd_eq (h : s.current.EndsStatement) :
    expectStatementEnd s = .ok () s.ended := by
  have heat := eatStatementEnd_eq s
  rw [decide_eq_true h] at heat
  unfold expectStatementEnd
  rw [bind_eq heat]
  rfl

/-- A statement that has to end where it does not is not passed. -/
theorem not_accepts_expectStatementEnd (h : ¬ s.current.EndsStatement) :
    ¬ Accepts expectStatementEnd s := by
  have heat := eatStatementEnd_eq s
  rw [decide_eq_false h] at heat
  unfold expectStatementEnd
  rw [accepts_bind_of_ok heat]
  have htoken : token s.ended = .ok s.ended.current.token s.ended := rfl
  obtain ⟨offset, hoffset⟩ : ∃ offset, blame s.ended = .ok offset s.ended := ⟨_, rfl⟩
  change ¬ Accepts (token >>= fun t => blame >>= fun offset =>
    fail (.expected ";" (shown t)) offset : Reader Unit) s.ended
  rw [accepts_bind_of_ok htoken, accepts_bind_of_ok hoffset]
  exact not_accepts_fail

section Loop

variable {step : α → Reader (α × Bool)} {a' : α} {n : Nat}

theorem accepts_loop_of_more (h : step a s = .ok (a', true) s') :
    Accepts (loop (n + 1) step a) s ↔ Accepts (loop n step a') s' :=
  accepts_bind_of_ok h

theorem accepts_loop_of_done (h : step a s = .ok (a', false) s') :
    Accepts (loop (n + 1) step a) s :=
  (accepts_bind_of_ok h).2 ⟨a', s', rfl⟩

theorem Accepts.of_loop (h : Accepts (loop (n + 1) step a) s) : Accepts (step a) s :=
  Accepts.of_bind h

end Loop

theorem whole_eq (hbroken : ∀ f, s.current.token ≠ .broken f) (hend : s.current.token ≠ .endOfText) :
    whole s = .ok (some s.current.token) s := by
  obtain ⟨⟨t, start, stop, broken, faults, rest⟩, _, _, _, _⟩ := s
  cases t with
  | broken f => exact absurd rfl (hbroken f)
  | endOfText => exact absurd rfl hend
  | _ => rfl

end Reader

/-! ### Items -/

namespace Grammar

open Reader

variable {g : Grammar} {ctx : Context} {s : State}

theorem source_eq {value raw : String} (h : s.current.token = .string value raw) :
    source s = .ok ⟨s.current.start, s.current.stop⟩ s.passed := by
  obtain ⟨⟨t, start, stop, broken, faults, rest⟩, _, _, _, _⟩ := s
  cases h
  rfl

/-- An import of a literal alone is read up to the end of its statement. -/
theorem importItem_eq {value raw : String} (hword : s.current.token = .word "import")
    (hnext : s.passed.current.token = .string value raw) :
    g.importItem ctx s = (do
      expectStatementEnd
      return .importFrom ⟨s.current.start, ← lastStop⟩ []
        ⟨s.passed.current.start, s.passed.current.stop⟩ : Reader Item) s.passed.passed := by
  have hpeek : peek s = .ok s.passed.current s := by
    obtain ⟨⟨t, start, stop, broken, faults, rest⟩, _, _, _, _⟩ := s
    cases hword
    rfl
  have hhere : here s = .ok s.current.start s := by
    obtain ⟨⟨t, start, stop, broken, faults, rest⟩, _, _, _, _⟩ := s
    cases hword
    rfl
  have hwhole := whole_eq (s := s.passed) (by rw [hnext]; exact fun _ => Token.noConfusion)
    (by rw [hnext]; exact Token.noConfusion)
  rw [hnext] at hwhole
  unfold importItem
  rw [bind_eq hpeek, if_neg (by rw [hnext]; exact Bool.false_ne_true), bind_eq hhere,
    bind_eq (bump_eq (by rw [hword]; exact Token.noConfusion)), bind_eq hwhole]
  exact bind_eq (source_eq hnext) _

/-- Reads one more item, unless the text ends here. -/
def itemRound (g : Grammar) (found : List Item) : Reader (List Item × Bool) := do
  match (← whole) with
  | none =>
    settle
    return (found, false)
  | some _ =>
    let i ← g.item {}
    return (i :: found, true)

theorem items_eq (g : Grammar) : g.items = (do
    let found ← loop g.fuel g.itemRound []
    return found.reverse) := rfl

theorem itemRound_of_item {found : List Item} {i : Item} {t : Token} {s' s'' : State}
    (hwhole : whole s = .ok (some t) s') (hitem : g.item {} s' = .ok i s'') :
    g.itemRound found s = .ok (i :: found, true) s'' := by
  unfold itemRound
  rw [bind_eq hwhole]
  exact bind_eq hitem _

theorem itemRound_of_none {found : List Item} {s' : State} (hwhole : whole s = .ok none s') :
    ∃ s'', g.itemRound found s = .ok (found, false) s'' := by
  unfold itemRound
  rw [bind_eq hwhole]
  exact ⟨_, rfl⟩

/-- Whether items are passed does not depend on those before them. -/
theorem accepts_rounds_congr {n : Nat} {found found' : List Item}
    (h : Accepts (loop n g.itemRound found) s) : Accepts (loop n g.itemRound found') s := by
  induction n generalizing found found' s with
  | zero => exact ⟨_, _, rfl⟩
  | succ n ih =>
    obtain ⟨t, s', hwhole⟩ := h.of_loop.of_bind
    cases t with
    | none =>
      obtain ⟨s'', hdone⟩ : ∃ s'', g.itemRound found' s = .ok (found', false) s'' :=
        itemRound_of_none hwhole
      exact accepts_loop_of_done hdone
    | some t =>
      have hround := h.of_loop
      unfold itemRound at hround
      rw [accepts_bind_of_ok hwhole] at hround
      obtain ⟨i, s'', hitem⟩ := hround.of_bind
      rw [accepts_loop_of_more (itemRound_of_item hwhole hitem)] at h ⊢
      exact ih h

/-- **The import of a literal is passed if and only if what follows it ends a statement**,
wherever it stands. -/
theorem accepts_rounds_iff {cs rest : List Char} {n : Nat} {found : List Item}
    (hs : s.current.Opens ("import".toList ++ ' ' :: '\'' :: (cs ++ '\'' :: rest)))
    (hcs : IsUnescaped cs) :
    s.passed.passed.current = lexeme rest (s.current.start + Text.byteLength cs + 9) ∧
      (Accepts (loop (n + 1) g.itemRound found) s ↔
        s.passed.passed.current.EndsStatement ∧
          Accepts (loop n g.itemRound found) s.passed.passed.ended) := by
  obtain ⟨hword, hstop, hrest⟩ := hs.import_eq
  have hstring : s.passed.current = _ := (congrArg (lexeme · s.current.stop) hrest).trans
    (lexeme_string hcs rest s.current.stop)
  have hnext := congrArg Lexeme.token hstring
  have hwhole := whole_eq (s := s) (by rw [hword]; exact fun _ => Token.noConfusion)
    (by rw [hword]; exact Token.noConfusion)
  have hitem : g.item {} s = g.importItem {} s := by
    have hword? : word? "import" s = .ok true s := by
      change EStateM.Result.ok (s.current.token == .word "import") s = _
      rw [hword]
      rfl
    unfold item
    rw [bind_eq hword?]
    rfl
  rw [importItem_eq hword hnext] at hitem
  refine ⟨?_, ?_⟩
  · change lexeme s.passed.current.rest s.passed.current.stop = _
    rw [hstring, hstop]
    exact congrArg (lexeme rest) (by dsimp only; omega)
  by_cases hends : s.passed.passed.current.EndsStatement
  · rw [bind_eq (expectStatementEnd_eq hends)] at hitem
    rw [accepts_loop_of_more (itemRound_of_item hwhole hitem)]
    exact ⟨fun h => ⟨hends, accepts_rounds_congr h⟩, fun h => accepts_rounds_congr h.2⟩
  · refine iff_of_false (fun h => ?_) fun h => hends h.1
    have hround := h.of_loop
    unfold itemRound at hround
    rw [accepts_bind_of_ok hwhole] at hround
    obtain ⟨i, s', hpassed⟩ := hround.of_bind
    exact not_accepts_expectStatementEnd hends (Accepts.of_bind ⟨i, s', hitem.symm.trans hpassed⟩)

/-- Wherever a text stands among the items of a module, the reader passes it if and only if what
follows it ends a statement, and goes on from there. -/
def IsStatement (cs : List Char) : Prop :=
  ∀ (g : Grammar) (n : Nat) (found : List Item) (s : State) (rest : List Char),
    s.current.Opens (cs ++ rest) → ∃ after : State,
      after.current = lexeme rest (s.current.start + Text.byteLength cs) ∧
      (Accepts (loop (n + 1) g.itemRound found) s ↔
        after.current.EndsStatement ∧ Accepts (loop n g.itemRound found) after.ended)

end Grammar

/-- A text that goes on behind a statement which it does not end is not a module. -/
theorem refused_of_statement {options : ScanOptions} {cs target rest : List Char}
    (hstatement : Grammar.IsStatement cs) (hcs : cs = "import".toList ++ ' ' :: target)
    (hends : ¬ (lexeme rest (Text.byteLength cs)).EndsStatement) :
    (scan options (String.ofList (cs ++ rest))).toOption = none := by
  have hopens : (Reader.initial (cs ++ rest)).current.Opens (cs ++ rest) := by
    rw [hcs]
    exact ⟨0, true, [], rfl⟩
  have hzero : (Reader.initial (cs ++ rest)).current.start = 0 := by
    rw [hcs]
    rfl
  obtain ⟨n, hn⟩ : ∃ n, depthFor (cs ++ rest) = n + 2 := ⟨_, rfl⟩
  obtain ⟨after, hafter, hiff⟩ := hstatement (grammar (n + 2)) n [] _ rest hopens
  have hnone : ¬ Reader.Accepts (grammar (n + 2)).items (Reader.initial (cs ++ rest)) := by
    intro h
    rw [Grammar.items_eq] at h
    refine hends ?_
    rw [hzero, Nat.zero_add] at hafter
    exact hafter ▸ (hiff.1 h.of_bind).1
  have hparse : ∃ f, parse (cs ++ rest) = .error f := by
    have hmark : withoutMark (cs ++ rest) = cs ++ rest := by
      rw [hcs]
      rfl
    unfold parse
    dsimp only
    rw [hmark, hn]
    cases hread : (grammar (n + 2)).items (Reader.initial (cs ++ rest)) with
    | ok items s => exact absurd ⟨items, s, hread⟩ hnone
    | error f s => exact ⟨f, rfl⟩
  obtain ⟨f, hparse⟩ := hparse
  unfold scan
  dsimp only
  rw [String.toList_ofList, hparse]
  rfl

end Script

namespace ComponentContext

open Script (IsUnescaped)

theorem isStatement_markedImport {specifier : String} (h : IsUnescaped specifier.toList) :
    Script.Grammar.IsStatement (markedImport false specifier).toList := by
  intro g n found s rest hs
  have htext : (markedImport false specifier).toList ++ rest = "import".toList ++ ' ' :: '\'' ::
      ((Reference.mark.toList ++ specifier.toList) ++ '\'' :: rest) := by
    delta markedImport
    rw [if_neg Bool.false_ne_true]
    simp only [String.toList_append, List.append_assoc]
    rfl
  rw [htext] at hs
  have hmarked : IsUnescaped (Reference.mark.toList ++ specifier.toList) := by
    intro c hc
    rcases List.mem_append.1 hc with hc | hc
    · exact (by decide : IsUnescaped Reference.mark.toList) c hc
    · exact h c hc
  obtain ⟨hafter, hiff⟩ := Script.Grammar.accepts_rounds_iff (g := g) hs hmarked
  refine ⟨_, hafter.trans (congrArg (Script.lexeme rest) ?_), hiff⟩
  have hlength := congrArg Text.byteLength htext
  have hframe : Text.byteLength "import".toList = 6 ∧ ' '.utf8Size = 1 ∧ '\''.utf8Size = 1 := by
    decide
  simp only [Text.byteLength_append, Text.byteLength_cons] at hlength ⊢
  omega

/-- An edit that puts the import of a compiled component in the place of a reference. -/
def Places (c : ComponentContext) (r : Reference) (e : Text.Edit) : Prop :=
  ∃ l : ComponentLink, l.output = c.output ∧ l.target = r.target ∧
    e = ⟨(markedImport r.isDynamic l.specifier).toList, r.statement.start, r.statement.stop⟩ ∧
    (r.isDynamic = false → IsUnescaped l.specifier.toList →
      Script.Grammar.IsStatement e.replacement)

theorem places_of_gives {c : ComponentContext} {build : ComponentBuild} {r : Reference}
    {draft draft' : Text.Draft} {s s' : Session}
    (h : (c.compileReference build draft r).Gives s draft' s') :
    ∃ e, c.Places r e ∧ draft.edit e = .ok draft' := by
  unfold compileReference at h
  rw [Step.gives_bind] at h
  obtain ⟨l, t, hlink, h⟩ := h
  rw [Step.gives_bind] at h
  obtain ⟨_, t', -, h⟩ := h
  obtain ⟨hedit, -⟩ := Step.gives_edit.1 h
  refine ⟨_, ⟨l, ?_, ?_, rfl, fun hstatic hplain => ?_⟩, hedit⟩
  · obtain ⟨_, _, _, _, _, ⟨_, _, rfl, _⟩ | ⟨_, _, rfl, _⟩⟩ := gives_link hlink <;> rfl
  · obtain ⟨_, _, _, _, _, ⟨_, _, rfl, _⟩ | ⟨_, _, rfl, _⟩⟩ := gives_link hlink <;> rfl
  · rw [hstatic]
    exact isStatement_markedImport hplain

theorem places_of_gives_foldlM {c : ComponentContext} {build : ComponentBuild}
    {rs : List Reference} {draft draft' : Text.Draft} {s s' : Session}
    (h : (rs.foldlM (c.compileReference build) draft).Gives s draft' s') :
    ∃ es, List.Forall₂ c.Places rs es ∧ es.foldlM Text.Draft.edit draft = .ok draft' := by
  induction rs generalizing draft s with
  | nil =>
    obtain ⟨rfl, -⟩ := Step.gives_pure.1 h
    exact ⟨[], .nil, rfl⟩
  | cons r rs ih =>
    rw [List.foldlM_cons, Step.gives_bind] at h
    obtain ⟨made, t, hround, hrest⟩ := h
    obtain ⟨e, hplaces, hedit⟩ := places_of_gives hround
    obtain ⟨es, hall, hedits⟩ := ih hrest
    refine ⟨e :: es, .cons hplaces hall, ?_⟩
    rw [List.foldlM_cons, hedit]
    exact hedits

/-- A script that goes on behind the marked import with which it opens is refused. -/
theorem refused_of_markedImport {options : ScanOptions} {specifier rest : String}
    (h : IsUnescaped specifier.toList)
    (hends : ¬ (Script.lexeme rest.toList
      (Text.byteLength (markedImport false specifier).toList)).EndsStatement) :
    (scan options (markedImport false specifier ++ rest)).toOption = none := by
  have htext : (markedImport false specifier).toList = "import".toList ++ ' ' :: '\'' ::
      ((Reference.mark.toList ++ specifier.toList) ++ ['\'']) := by
    delta markedImport
    rw [if_neg Bool.false_ne_true]
    simp only [String.toList_append, List.append_assoc]
    rfl
  have hrefused : (scan options
      (String.ofList ((markedImport false specifier).toList ++ rest.toList))).toOption = none :=
    Script.refused_of_statement (isStatement_markedImport h) htext hends
  rwa [← String.toList_append, String.ofList_toList] at hrefused

/-- A component that imports another one, and a module behind a semicolon on the same line. -/
def sharedLine : String := "import '../b_b/index.esm'; import 'pkg'\nexport default A"

/-- A component that imports another one on a line of its own. -/
def ownLine : String := "import '../b_b/index.esm'\nexport default A"

def neighbourTree : FileTree where
  entries := [
    (["a_a"], .folder), (["b_b"], .folder),
    (["b_b", "index.esm"], .file (.text "export default B"))]

/-- The component whose script is preprocessed. -/
def neighbourContext : ComponentContext :=
  ⟨{}, { source := ⟨"/a_a"⟩, destination := ⟨"/o"⟩ }, [⟨"/o/a_a"⟩, ⟨"/a_a"⟩], "a_a", ⟨"/o/a_a"⟩⟩

set_option maxRecDepth 100000 in
theorem ownLine_run :
    let r : Except Failure String × Session := (neighbourContext.compileComponents
      (Component.compile {} 1) ownLine).run.run { files := neighbourTree }
    r.1.toOption = some "import 'component:../b_b/index.js'\nexport default A" := by
  decide +kernel

end ComponentContext
end ElementBuild
