/-
# The marks that are left

Marks are taken away behind the word `import`, an optional parenthesis and a quote, and nowhere
else.  So what they leave there is a mark that stood behind another one
(`Reference.holdsMarked_of_stripMarks`), and a text without such imports stays as it is
(`Reference.stripMarks_of_unmarked`), whatever other imports of marked targets it holds: the
mark of an import that binds names is left in the module.
-/
import ElementBuild.Proofs.Build.Stages
import Mathlib.Data.List.DropRight
import Mathlib.Data.List.Infix
import Mathlib.Data.List.TakeWhile

namespace ElementBuild
namespace Reference

open Text (isBlank isWordChar)

/-! ### Imports of marked targets -/

/-- An import up to its target: the word, and perhaps a parenthesis, with blanks behind them. -/
structure IsImportStart (cs : List Char) : Prop where
  parts : ∃ blanks parenthesis, cs = "import".toList ++ blanks ++ parenthesis ∧
    (∀ c ∈ blanks, isBlank c = true) ∧ (parenthesis = [] ∨ ∃ blanks', parenthesis = '(' :: blanks' ∧
      ∀ c ∈ blanks', isBlank c = true)

/-- A quote that opens a target. -/
def IsQuote (c : Char) : Prop := c = '\'' ∨ c = '"'

instance : DecidablePred IsQuote := fun _ => inferInstanceAs (Decidable (_ ∨ _))

/-- A text opens with an import of a target that opens with marks. -/
def OpensMarked (marks cs : List Char) : Prop :=
  ∃ start quote rest, IsImportStart start ∧ IsQuote quote ∧ cs = start ++ quote :: (marks ++ rest)

/-- The character that stands before what follows a part of a text. -/
def lastOf (before : Option Char) (part : List Char) : Option Char := part.getLast?.or before

/-- A text holds an import of a target that opens with marks; a word does not end in
`import`. -/
def HoldsMarked (marks : List Char) (before : Option Char) (cs : List Char) : Prop :=
  ∃ part rest, cs = part ++ rest ∧ (lastOf before part).any isWordChar = false ∧
    OpensMarked marks rest

theorem IsImportStart.eq_cons {cs : List Char} (h : IsImportStart cs) :
    ∃ t, cs = 'i' :: t ∧ ∀ c ∈ t, c ≠ 'i' ∧ ¬ IsQuote c := by
  obtain ⟨blanks, parenthesis, rfl, hblanks, hparenthesis⟩ := h.parts
  have hall : ("mport".toList.all fun c => c ≠ 'i' ∧ ¬ IsQuote c) = true := by decide
  have hletters : ∀ c ∈ "mport".toList, c ≠ 'i' ∧ ¬ IsQuote c := fun c hc =>
    of_decide_eq_true (List.all_eq_true.1 hall c hc)
  have hblank : ∀ {c}, isBlank c = true → c ≠ 'i' ∧ ¬ IsQuote c := by
    intro c hc
    refine ⟨?_, ?_⟩
    · rintro rfl
      exact absurd hc (by decide)
    · rintro (rfl | rfl)
      · exact absurd hc (by decide)
      · exact absurd hc (by decide)
  refine ⟨"mport".toList ++ blanks ++ parenthesis, rfl, fun c hc => ?_⟩
  rcases List.mem_append.1 hc with hc | hc
  · exact (List.mem_append.1 hc).elim (hletters c) fun hc => hblank (hblanks c hc)
  · rcases hparenthesis with rfl | ⟨blanks', rfl, hblanks'⟩
    · exact absurd hc List.not_mem_nil
    · rcases List.mem_cons.1 hc with rfl | hc
      · decide
      · exact hblank (hblanks' c hc)

theorem IsImportStart.not_isQuote {cs : List Char} (h : IsImportStart cs) {c : Char} (hc : c ∈ cs) :
    ¬ IsQuote c := by
  obtain ⟨t, rfl, ht⟩ := h.eq_cons
  rcases List.mem_cons.1 hc with rfl | hc
  · decide
  · exact (ht c hc).2

/-- The start of an import ends before the first quote. -/
theorem IsImportStart.takeWhile_eq {start rest : List Char} {quote : Char} (h : IsImportStart start)
    (hquote : IsQuote quote) : (start ++ quote :: rest).takeWhile (¬ IsQuote ·) = start := by
  rw [List.takeWhile_append_of_pos fun c hc => decide_eq_true (h.not_isQuote hc),
    List.takeWhile_cons_of_neg (by simpa using hquote), List.append_nil]

/-- An import has one start. -/
theorem IsImportStart.unique {start start' rest rest' : List Char} {quote quote' : Char}
    (h : IsImportStart start) (h' : IsImportStart start') (hquote : IsQuote quote)
    (hquote' : IsQuote quote') (heq : start ++ quote :: rest = start' ++ quote' :: rest') :
    start = start' ∧ quote = quote' ∧ rest = rest' := by
  obtain rfl : start = start' := by
    rw [← h.takeWhile_eq hquote, heq, h'.takeWhile_eq hquote']
  exact ⟨rfl, List.cons.inj (List.append_cancel_left heq)⟩

theorem skipParenthesis_spec (cs : List Char) : ∃ parenthesis, cs = parenthesis ++ skipParenthesis cs ∧
    (parenthesis = [] ∨ ∃ blanks, parenthesis = '(' :: blanks ∧ ∀ c ∈ blanks, isBlank c = true) := by
  unfold skipParenthesis
  split
  · rename_i ds
    refine ⟨'(' :: ds.takeWhile isBlank, ?_, .inr ⟨_, rfl, fun c hc => List.mem_takeWhile_imp hc⟩⟩
    rw [List.cons_append, List.takeWhile_append_dropWhile]
  · exact ⟨[], rfl, .inl rfl⟩

/-- Blanks that are dropped before something that is not blank. -/
theorem dropWhile_blanks {blanks rest : List Char} {c : Char} (hblanks : ∀ c ∈ blanks, isBlank c = true)
    (hc : isBlank c = false) : (blanks ++ c :: rest).dropWhile isBlank = c :: rest := by
  rw [List.dropWhile_append_of_pos hblanks, List.dropWhile_cons_of_neg (by simp [hc])]

theorem IsQuote.isBlank_eq {c : Char} (h : IsQuote c) : isBlank c = false := by
  rcases h with rfl | rfl
  · decide
  · decide

/-- Behind the start of an import stands its quote. -/
theorem skipParenthesis_of_start {blanks parenthesis rest : List Char} {quote : Char}
    (hblanks : ∀ c ∈ blanks, isBlank c = true) (hparenthesis : parenthesis = [] ∨
      ∃ blanks', parenthesis = '(' :: blanks' ∧ ∀ c ∈ blanks', isBlank c = true)
    (hquote : IsQuote quote) :
    skipParenthesis ((blanks ++ (parenthesis ++ quote :: rest)).dropWhile isBlank) = quote :: rest := by
  rcases hparenthesis with rfl | ⟨blanks', rfl, hblanks'⟩
  · rw [List.nil_append, dropWhile_blanks hblanks hquote.isBlank_eq]
    rcases hquote with rfl | rfl
    · rfl
    · rfl
  · rw [List.cons_append, dropWhile_blanks hblanks (by decide)]
    exact dropWhile_blanks hblanks' hquote.isBlank_eq

/-- What a marked import is taken apart into. -/
theorem markedImport?_eq_some {cs start rest : List Char} :
    markedImport? cs = some (start, rest) ↔ ∃ s quote, IsImportStart s ∧ IsQuote quote ∧
      start = s ++ [quote] ∧ cs = s ++ quote :: (mark.toList ++ rest) := by
  unfold markedImport?
  constructor
  · intro h
    obtain ⟨after, hafter, h⟩ := Option.bind_eq_some_iff.1 h
    obtain rfl := List.isPrefixOf?_eq_some_iff_append_eq.1 hafter
    obtain ⟨parenthesis, hskip, hparenthesis⟩ := skipParenthesis_spec (after.dropWhile isBlank)
    split at h
    · rename_i quote marked hquoted
      split at h
      · obtain ⟨rest', hrest, heq⟩ := Option.bind_eq_some_iff.1 h
        obtain rfl := List.isPrefixOf?_eq_some_iff_append_eq.1 hrest
        cases heq
        rw [hquoted] at hskip
        have hwhole : "import".toList ++ after = ("import".toList ++ after.takeWhile isBlank ++
            parenthesis ++ [quote]) ++ (mark.toList ++ rest) := by
          conv => lhs; rw [← List.takeWhile_append_dropWhile (p := isBlank) (l := after), hskip]
          simp only [List.append_assoc, List.singleton_append]
        refine ⟨"import".toList ++ after.takeWhile isBlank ++ parenthesis, quote,
          ⟨_, _, rfl, fun c hc => List.mem_takeWhile_imp hc, hparenthesis⟩, ‹_›, ?_, ?_⟩
        · rw [hwhole, List.length_append, Nat.add_sub_cancel, List.take_left]
        · rw [hwhole, List.append_assoc _ [quote]]
          rfl
      · cases h
    · cases h
  · rintro ⟨s, quote, ⟨blanks, parenthesis, rfl, hblanks, hparenthesis⟩, hquote, rfl, rfl⟩
    have hword : "import".toList.isPrefixOf? ("import".toList ++ blanks ++ parenthesis ++ quote ::
        (mark.toList ++ rest)) = some (blanks ++ (parenthesis ++ quote :: (mark.toList ++ rest))) :=
      List.isPrefixOf?_eq_some_iff_append_eq.2 (by simp only [List.append_assoc])
    rw [hword]
    simp only [Option.bind_eq_bind, Option.bind_some]
    rw [skipParenthesis_of_start hblanks hparenthesis hquote]
    dsimp only
    have hcs : "import".toList ++ blanks ++ parenthesis ++ quote :: (mark.toList ++ rest) =
        "import".toList ++ blanks ++ parenthesis ++ [quote] ++ (mark.toList ++ rest) := by
      simp only [List.append_assoc, List.singleton_append]
    rw [if_pos (show quote = _ ∨ quote = _ from hquote), List.isPrefixOf?_eq_some_iff_append_eq.2 rfl, Option.bind_some, hcs,
      List.length_append, Nat.add_sub_cancel, List.take_left]

theorem opensMarked_iff {cs : List Char} :
    OpensMarked mark.toList cs ↔ (markedImport? cs).isSome = true := by
  rw [Option.isSome_iff_exists]
  constructor
  · rintro ⟨start, quote, rest, hstart, hquote, rfl⟩
    exact ⟨_, markedImport?_eq_some.2 ⟨start, quote, hstart, hquote, rfl, rfl⟩⟩
  · rintro ⟨⟨start, rest⟩, h⟩
    obtain ⟨s, quote, hs, hquote, -, hcs⟩ := markedImport?_eq_some.1 h
    exact ⟨s, quote, rest, hs, hquote, hcs⟩

/-! ### What is left of them -/

theorem lastOf_cons (before : Option Char) (c : Char) (cs : List Char) :
    lastOf before (c :: cs) = lastOf (some c) cs := by
  unfold lastOf
  rw [List.getLast?_cons]
  cases cs.getLast? <;> rfl

theorem lastOf_append (before : Option Char) (as bs : List Char) :
    lastOf before (as ++ bs) = lastOf (lastOf before as) bs := by
  unfold lastOf
  rw [List.getLast?_append, Option.or_assoc]

/-- One step: the mark of an import that starts here is left out, or a character is written. -/
theorem stripMarksFrom_step (n : Nat) (before : Option Char) (c : Char) (cs : List Char) :
    (∃ start quote rest, before.any isWordChar = false ∧ IsImportStart start ∧ IsQuote quote ∧
      c :: cs = start ++ quote :: (mark.toList ++ rest) ∧ stripMarksFrom (n + 1) before (c :: cs) =
        start ++ quote :: stripMarksFrom n (some ':') rest) ∨
    ((before.any isWordChar = false → ¬ OpensMarked mark.toList (c :: cs)) ∧
      stripMarksFrom (n + 1) before (c :: cs) = c :: stripMarksFrom n (some c) cs) := by
  rw [stripMarksFrom]
  cases hbefore : before.any isWordChar with
  | true => exact .inr ⟨fun h => (by cases h), rfl⟩
  | false =>
    rw [if_neg (by simp)]
    cases hmarked : markedImport? (c :: cs) with
    | none =>
      refine .inr ⟨fun _ hopens => ?_, rfl⟩
      rw [opensMarked_iff, hmarked] at hopens
      cases hopens
    | some found =>
      obtain ⟨start, rest⟩ := found
      obtain ⟨s, quote, hs, hquote, rfl, hcs⟩ := markedImport?_eq_some.1 hmarked
      refine .inl ⟨s, quote, rest, rfl, hs, hquote, hcs, ?_⟩
      dsimp only
      rw [List.append_assoc, show mark.toList.getLast? = some ':' from by decide]
      rfl

theorem stripMarksFrom_nil (n : Nat) (before : Option Char) : stripMarksFrom n before [] = [] := by
  cases n <;> rfl

/-- What is written without the start of an import was there. -/
theorem eq_of_stripMarksFrom {n : Nat} {before : Option Char} {cs word rest : List Char}
    (h : stripMarksFrom n before cs = word ++ rest) (hword : 'i' ∉ word) :
    ∃ rest', cs = word ++ rest' := by
  induction word generalizing n before cs with
  | nil => exact ⟨cs, rfl⟩
  | cons w word ih =>
    obtain ⟨hw, htail⟩ := not_or.1 (List.mem_cons.not.1 hword)
    cases n with
    | zero => exact ⟨rest, h⟩
    | succ n =>
      cases cs with
      | nil =>
        rw [stripMarksFrom_nil] at h
        cases h
      | cons c cs =>
        rcases stripMarksFrom_step n before c cs with
          ⟨start, quote, rest', -, hstart, -, -, hstep⟩ | ⟨-, hstep⟩
        · obtain ⟨t, rfl, -⟩ := hstart.eq_cons
          rw [hstep] at h
          exact absurd (List.cons.inj h).1 hw
        · rw [hstep] at h
          obtain ⟨rfl, hrest⟩ := List.cons.inj h
          obtain ⟨rest', rfl⟩ := ih hrest htail
          exact ⟨rest', rfl⟩

/-- Marks that are left in the rest of a text are left in the text. -/
theorem HoldsMarked.append {marks cs : List Char} {before : Option Char} (part : List Char)
    (h : HoldsMarked marks (lastOf before part) cs) : HoldsMarked marks before (part ++ cs) := by
  obtain ⟨part', rest, rfl, hlast, hopens⟩ := h
  exact ⟨part ++ part', rest, (List.append_assoc ..).symm, lastOf_append before part part' ▸ hlast,
    hopens⟩

theorem HoldsMarked.cons {marks cs : List Char} {c : Char} (before : Option Char)
    (h : HoldsMarked marks (some c) cs) : HoldsMarked marks before (c :: cs) :=
  HoldsMarked.append [c] h

theorem not_holdsMarked_nil {marks : List Char} {before : Option Char} :
    ¬ HoldsMarked marks before [] := by
  rintro ⟨part, rest, hnil, -, start, quote, rest', -, -, rfl⟩
  have hempty := (List.append_eq_nil_iff.1 (List.append_eq_nil_iff.1 hnil.symm).2).2
  cases hempty

/-- What stands behind a character does not depend on what stood before it. -/
theorem lastOf_of_ne_nil (before before' : Option Char) {part : List Char} (h : part ≠ []) :
    lastOf before part = lastOf before' part := by
  obtain ⟨cs, c, rfl⟩ := (List.eq_nil_or_concat' part).resolve_left h
  unfold lastOf
  rw [List.getLast?_concat]
  rfl

theorem i_notMem_mark : 'i' ∉ mark.toList := by decide

theorem IsImportStart.i_notMem_tail {t : List Char} (h : IsImportStart ('i' :: t)) : 'i' ∉ t := by
  obtain ⟨t', heq, ht⟩ := h.eq_cons
  obtain rfl := (List.cons.inj heq).2
  exact fun hmem => (ht _ hmem).1 rfl

theorem IsQuote.ne_i {quote : Char} (h : IsQuote quote) : quote ≠ 'i' := by
  rintro rfl
  exact absurd h (by decide)

/-- An import that is written from its first character on was there. -/
theorem opensMarked_of_cons {n : Nat} {before : Option Char} {c : Char} {cs : List Char}
    (h : OpensMarked mark.toList (c :: stripMarksFrom n before cs)) :
    OpensMarked mark.toList (c :: cs) := by
  obtain ⟨start, quote, rest, hstart, hquote, hcs⟩ := h
  obtain ⟨t, rfl, -⟩ := id hstart.eq_cons
  obtain ⟨rfl, htail⟩ := List.cons.inj hcs
  have hword : 'i' ∉ t ++ quote :: mark.toList := by
    rw [List.mem_append, List.mem_cons, not_or, not_or]
    exact ⟨hstart.i_notMem_tail, hquote.ne_i.symm, i_notMem_mark⟩
  obtain ⟨rest', rfl⟩ := eq_of_stripMarksFrom (htail.trans (show
    t ++ quote :: (mark.toList ++ rest) = (t ++ quote :: mark.toList) ++ rest by
      rw [List.append_assoc, List.cons_append])) hword
  refine ⟨_, quote, rest', hstart, hquote, ?_⟩
  rw [List.append_assoc, List.cons_append, List.cons_append]

/-- No import starts in the course of another one. -/
theorem IsImportStart.eq_nil_of_opensMarked {start part kept marks cs : List Char} {quote : Char}
    (hstart : IsImportStart start) (hquote : IsQuote quote) (hkept : start ++ [quote] = part ++ kept)
    (hne : kept ≠ []) (h : OpensMarked marks (kept ++ cs)) : part = [] := by
  obtain ⟨start', quote', rest', hstart', -, hrest'⟩ := h
  obtain ⟨t, rfl, -⟩ := id hstart.eq_cons
  obtain ⟨t', rfl, -⟩ := hstart'.eq_cons
  obtain ⟨k, ks, rfl⟩ := List.exists_cons_of_ne_nil hne
  obtain rfl : k = 'i' := (List.cons.inj hrest').1
  cases part with
  | nil => rfl
  | cons d part =>
    have hmem : 'i' ∈ t ++ [quote] := by
      rw [show t ++ [quote] = part ++ 'i' :: ks from (List.cons.inj hkept).2]
      exact List.mem_append_right _ List.mem_cons_self
    rcases List.mem_append.1 hmem with hmem | hmem
    · exact absurd hmem hstart.i_notMem_tail
    · exact absurd (List.mem_singleton.1 hmem).symm hquote.ne_i

/-- A mark that is left behind an import, of which one was taken away, stood behind another one. -/
theorem holdsMarked_of_left {n : Nat} {before : Option Char} {start later : List Char} {quote : Char}
    (hbefore : before.any isWordChar = false) (hstart : IsImportStart start) (hquote : IsQuote quote)
    (h : OpensMarked mark.toList (start ++ quote :: stripMarksFrom n (some ':') later)) :
    HoldsMarked (mark.toList ++ mark.toList) before (start ++ quote :: (mark.toList ++ later)) := by
  obtain ⟨start', quote', rest', hstart', hquote', hrest'⟩ := h
  obtain ⟨-, rfl, hmarked⟩ := hstart.unique hstart' hquote hquote' hrest'
  obtain ⟨rest, rfl⟩ := eq_of_stripMarksFrom hmarked i_notMem_mark
  exact ⟨[], _, rfl, hbefore, start, quote, rest, hstart, hquote,
    congrArg (start ++ quote :: ·) (List.append_assoc ..).symm⟩

/-- **Where a mark is left behind an import, two of them stood.** -/
theorem holdsMarked_of_stripMarksFrom {n : Nat} {before : Option Char} {cs : List Char}
    (h : HoldsMarked mark.toList before (stripMarksFrom n before cs)) (hlength : cs.length ≤ n) :
    HoldsMarked (mark.toList ++ mark.toList) before cs := by
  induction n generalizing before cs with
  | zero =>
    obtain rfl := List.length_eq_zero_iff.1 (Nat.le_zero.1 hlength)
    exact absurd h not_holdsMarked_nil
  | succ n ih =>
    cases cs with
    | nil =>
      rw [stripMarksFrom_nil] at h
      exact absurd h not_holdsMarked_nil
    | cons c cs =>
      obtain ⟨part, rest, hout, hlast, hopens⟩ := h
      rcases stripMarksFrom_step n before c cs with
        ⟨start, quote, later, hbefore, hstart, hquote, hcs, hstep⟩ | ⟨hnone, hstep⟩
      · rw [hstep, List.append_cons] at hout
        have hlater : later.length ≤ n := by
          have hsize := congrArg List.length hcs
          simp only [List.length_cons, List.length_append] at hsize hlength
          omega
        -- an import that starts behind the quote
        have htail : HoldsMarked mark.toList (some ':') (stripMarksFrom n (some ':') later) →
            HoldsMarked (mark.toList ++ mark.toList) before (c :: cs) := by
          intro hcolon
          rw [hcs, List.append_cons, ← List.append_assoc]
          refine HoldsMarked.append _ ?_
          rw [lastOf_append, lastOf_of_ne_nil _ none (by decide)]
          exact ih hcolon hlater
        rcases List.append_eq_append_iff.1 hout with ⟨part', rfl, hpart'⟩ | ⟨kept, hkept, rfl⟩
        · refine htail ⟨part', rest, hpart', ?_, hopens⟩
          by_cases hnil : part' = []
          · rw [hnil]
            decide
          · rw [lastOf_append] at hlast
            rwa [lastOf_of_ne_nil _ (lastOf before (start ++ [quote])) hnil]
        · by_cases hnil : kept = []
          · refine htail ⟨[], _, rfl, by decide, ?_⟩
            rwa [hnil, List.nil_append] at hopens
          · -- the import is the one whose mark was left out
            obtain rfl := hstart.eq_nil_of_opensMarked hquote hkept hnil hopens
            rw [List.nil_append] at hkept
            rw [← hkept, ← List.append_cons] at hopens
            rw [hcs]
            exact holdsMarked_of_left hbefore hstart hquote hopens
      · rw [hstep] at hout
        cases part with
        | nil =>
          rw [List.nil_append] at hout
          exact absurd (opensMarked_of_cons (hout ▸ hopens)) (hnone hlast)
        | cons d part =>
          obtain ⟨rfl, htail⟩ := List.cons.inj hout
          rw [lastOf_cons] at hlast
          exact (ih ⟨part, rest, htail, hlast, hopens⟩ (Nat.le_of_succ_le_succ hlength)).cons before

/-- **A text without marked imports stays as it is.** -/
theorem stripMarksFrom_of_unmarked {n : Nat} {before : Option Char} {cs : List Char}
    (h : ¬ HoldsMarked mark.toList before cs) : stripMarksFrom n before cs = cs := by
  induction n generalizing before cs with
  | zero => rfl
  | succ n ih =>
    cases cs with
    | nil => rfl
    | cons c cs =>
      rcases stripMarksFrom_step n before c cs with
        ⟨start, quote, later, hbefore, hstart, hquote, hcs, -⟩ | ⟨-, hstep⟩
      · exact absurd ⟨[], _, rfl, hbefore, start, quote, later, hstart, hquote, hcs⟩ h
      · rw [hstep, ih fun hrest => h (hrest.cons before)]

theorem holdsMarked_of_stripMarks {code : String}
    (h : HoldsMarked mark.toList none (stripMarks code).toList) :
    HoldsMarked (mark.toList ++ mark.toList) none code.toList := by
  rw [stripMarks, String.toList_ofList] at h
  exact holdsMarked_of_stripMarksFrom h (Nat.le_of_eq String.length_toList)

theorem stripMarks_of_unmarked {code : String} (h : ¬ HoldsMarked mark.toList none code.toList) :
    stripMarks code = code := by
  rw [stripMarks, stripMarksFrom_of_unmarked h, String.ofList_toList]

/-- What is put behind a text marks no import if it has no colon. -/
theorem HoldsMarked.of_append {before : Option Char} {cs later : List Char} (hlater : ':' ∉ later)
    (h : HoldsMarked mark.toList before (cs ++ later)) : HoldsMarked mark.toList before cs := by
  obtain ⟨part, rest, heq, hlast, start, quote, rest', hstart, hquote, rfl⟩ := h
  have hcolon : ':' ∈ part ++ (start ++ quote :: mark.toList) :=
    List.mem_append_right _ (List.mem_append_right _ (List.mem_cons_of_mem _ (by decide)))
  have hmark : (part ++ (start ++ quote :: mark.toList)).getLast? = some ':' := by
    rw [List.getLast?_append, List.getLast?_append, List.getLast?_cons,
      show mark.toList.getLast? = some ':' from by decide]
    rfl
  have hwhole : cs ++ later = (part ++ (start ++ quote :: mark.toList)) ++ rest' := by
    rw [heq]
    simp only [List.append_assoc, List.cons_append]
  rcases List.append_eq_append_iff.1 hwhole with ⟨kept, hkept, hlater'⟩ | ⟨kept, rfl, -⟩
  · by_cases hnil : kept = []
    · rw [hnil, List.append_nil] at hkept
      exact ⟨part, _, hkept.symm, hlast, start, quote, [], hstart, hquote, by rw [List.append_nil]⟩
    · -- the marks would end in what was put behind
      rw [hkept, List.getLast?_append_of_ne_nil _ hnil] at hmark
      exact absurd (hlater' ▸ List.mem_append_left _ (List.mem_of_getLast? hmark)) hlater
  · exact ⟨part, _, List.append_assoc .., hlast, start, quote, kept, hstart, hquote,
      by simp only [List.append_assoc, List.cons_append]⟩

theorem HoldsMarked.of_trimEnd {before : Option Char} {code : String}
    (h : HoldsMarked mark.toList before (Minify.trimEnd code).toList) :
    HoldsMarked mark.toList before code.toList := by
  rw [Minify.trimEnd, String.toList_ofList] at h
  obtain ⟨blanks, hblanks⟩ : code.toList.rdropWhile Text.isBlank <+: code.toList :=
    List.rdropWhile_prefix _ _
  obtain ⟨part, rest, heq, hlast, start, quote, rest', hstart, hquote, rfl⟩ := h
  refine ⟨part, _, ?_, hlast, start, quote, rest' ++ blanks, hstart, hquote, rfl⟩
  rw [← hblanks, List.rdropWhile, heq]
  simp only [List.append_assoc, List.cons_append]

/-- The comment that links a source map marks no import. -/
theorem HoldsMarked.of_linked {before : Option Char} {o : CompileOutput}
    (h : HoldsMarked mark.toList before (Minify.linked o sourcemapFile).code.toList) :
    HoldsMarked mark.toList before o.code.toList := by
  unfold Minify.linked at h
  split at h
  · rw [String.append_assoc, String.toList_append] at h
    exact (HoldsMarked.of_append (by decide) h).of_trimEnd
  · exact h

end Reference

namespace Component

/-- The passes over the text of a module that a plugin gave: it is mapped if there are rules,
and its relative references are pointed at their files. -/
def passOver (c : ComponentContext) (entry : Path) (code : String) : Step String := do
  let mapped ← match c.bundler.mappingPass? with
    | some pass => do
      let result ← pass.run code c.output c.resolutionPaths (← get).mapped
      pure result.code
    | none => pure code
  Step.during (.resolvingImports entry) (Relative.point mapped c.output c.resolutionPaths)

theorem finish_eq (c : ComponentContext) (entry : Path) (o : CompileOutput) :
    finish c entry o = (do
      let code ← passOver c entry o.code
      Step.during (.minifying entry)
        (c.bundler.minify ⟨Reference.stripMarks code, o.map⟩ sourcemapFile)) := by
  unfold finish passOver
  cases c.bundler.mappingPass? with
  | none => rfl
  | some pass => simp only [bind_assoc, pure_bind]

end Component

/-- A component that takes a binding from one that a rule puts elsewhere. -/
def boundComponent : FileTree where
  entries := [
    (["a_a"], .folder),
    (["a_a", "index.esm"], .file (.text
      "import W from '@w/index.esm'\nexport default A"))]

/-- A rule that puts a component where it is served. -/
def servingBundler : Bundler where
  table := ⟨[(.literal "@w/index.esm", .replace "@w/w.js")]⟩
  workingDir := some ⟨"/"⟩

set_option maxRecDepth 100000 in
theorem boundComponent_run :
    let r : Except Failure Unit × Session := (Component.compile servingBundler 1
      { source := ⟨"/a_a"⟩, destination := ⟨"/o"⟩ } [⟨"/o/a_a"⟩, ⟨"/a_a"⟩]).run.run
        { files := boundComponent }
    r.1.toOption = some () := by
  decide +kernel

end ElementBuild
