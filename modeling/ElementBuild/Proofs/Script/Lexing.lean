/-
# Where tokens stand

A token with the gap before it is a stretch of the text: its offsets are where the token begins
and ends, and what is left is the text behind it (`Lexeme.Stands`).  Of a token that is no whole
one only the beginning is certain, since the reader stops there.

The reader itself only counts bytes as it goes from character to character, so all of this comes
down to one relation: a rest of a text begins at an offset (`Leads`).
-/
import ElementBuild.Script.Lexer
import ElementBuild.Proofs.Splice
import Mathlib.Data.List.TakeWhile

namespace ElementBuild
namespace Script

open Text (IsBoundary byteLength)

/-- What is left of a text that starts at an offset begins at that stop. -/
def Leads (cs : List Char) (pos : Nat) (rest : List Char) (stop : Nat) : Prop :=
  ∃ own, cs = own ++ rest ∧ stop = pos + byteLength own

namespace Leads

variable {c : Char} {cs rest : List Char} {pos stop : Nat}

theorem refl (cs : List Char) (pos : Nat) : Leads cs pos cs pos := ⟨[], rfl, rfl⟩

theorem cons (h : Leads cs (pos + c.utf8Size) rest stop) : Leads (c :: cs) pos rest stop := by
  obtain ⟨own, rfl, rfl⟩ := h
  exact ⟨c :: own, rfl, by rw [Text.byteLength_cons, Nat.add_assoc]⟩

theorem le (h : Leads cs pos rest stop) : pos ≤ stop := by
  obtain ⟨own, -, rfl⟩ := h
  exact Nat.le_add_right _ _

end Leads

/-! ### Gaps, words and strings -/

theorem leads_gap (mode : GapMode) (skip : Nat) (cs : List Char) (pos : Nat) (broken : Bool)
    (faults : List Located) :
    Leads cs pos (gap mode skip cs pos broken faults).rest
      (gap mode skip cs pos broken faults).stop := by
  fun_induction gap mode skip cs pos broken faults with
  | case1 | case2 | case14 => exact .refl _ _
  | case6 | case10 | case11 | case12 | case13 =>
    -- the mark is written in characters of one byte
    rename_i h ih
    obtain ⟨rfl, -⟩ := h
    exact .cons ih
  | _ =>
    rename_i ih
    exact .cons ih

theorem leads_wordTail (skip : Nat) (cs : List Char) (pos : Nat) (acc : List Char) :
    Leads cs pos (wordTail skip cs pos acc).rest (wordTail skip cs pos acc).stop := by
  fun_induction wordTail skip cs pos acc with
  | case2 | case3 | case4 =>
    rename_i ih
    exact .cons ih
  | _ => exact .refl _ _

/-- A string that is read without a fault is passed, with its quote if it has one. -/
theorem leads_stringTail {quote : Char} (hquote : quote.utf8Size = 1) (skip : Nat) (cs : List Char)
    (pos : Nat) (value raw : List Char) (soft : List Located)
    (h : (stringTail quote skip cs pos value raw soft).fault = none) :
    Leads cs pos (stringTail quote skip cs pos value raw soft).rest
        (stringTail quote skip cs pos value raw soft).stop ∧
      ((stringTail quote skip cs pos value raw soft).closed = true →
        ∃ body, cs = body ++ quote :: (stringTail quote skip cs pos value raw soft).rest) := by
  fun_induction stringTail quote skip cs pos value raw soft with
  | case1 | case4 => exact ⟨.refl _ _, nofun⟩
  | case3 cs pos => exact ⟨.cons (hquote.symm ▸ .refl cs _), fun _ => ⟨[], rfl⟩⟩
  | case6 => cases h
  | _ =>
    rename_i ih
    obtain ⟨hleads, hbody⟩ := ih h
    refine ⟨.cons hleads, fun hclosed => ?_⟩
    obtain ⟨body, hbody⟩ := hbody hclosed
    exact ⟨_ :: body, congrArg _ hbody⟩

/-! ### Numbers -/

/-- Characters of one byte each. -/
def IsAscii (cs : List Char) : Prop := byteLength cs = cs.length

namespace IsAscii

variable {as bs cs : List Char} {c : Char}

theorem cons (hc : c.utf8Size = 1) (h : IsAscii cs) : IsAscii (c :: cs) := by
  unfold IsAscii at h ⊢
  rw [Text.byteLength_cons, h, hc, List.length_cons, Nat.add_comm]

theorem append (ha : IsAscii as) (hb : IsAscii bs) : IsAscii (as ++ bs) := by
  unfold IsAscii at ha hb ⊢
  rw [Text.byteLength_append, ha, hb, List.length_append]

theorem of_all {p : Char → Bool} (hp : ∀ c, p c = true → c.utf8Size = 1)
    (h : ∀ c ∈ cs, p c = true) : IsAscii cs := by
  induction cs with
  | nil => rfl
  | cons c cs ih =>
    exact (ih fun d hd => h d (List.mem_cons_of_mem c hd)).cons (hp c (h c List.mem_cons_self))

end IsAscii

/-- What was read of a number is a beginning of the text, in characters of one byte. -/
structure NumberEnd.Cuts (n : NumberEnd) (cs : List Char) : Prop where
  text : n.raw ++ n.rest = cs
  ascii : IsAscii n.raw

theorem utf8Size_of_le {c : Char} (h : c ≤ '\x7f') : c.utf8Size = 1 := by
  unfold Char.utf8Size
  exact if_pos h

theorem utf8Size_of_isDigit {c : Char} (h : c.isDigit = true) : c.utf8Size = 1 := by
  have hle : c ≤ '9' := (Bool.and_eq_true_iff.1 h).2 |> of_decide_eq_true
  exact utf8Size_of_le (Char.le_trans hle (by decide))

theorem utf8Size_of_hexValue? {c : Char} (h : (Text.hexValue? c).isSome = true) :
    c.utf8Size = 1 := by
  unfold Text.hexValue? at h
  split at h
  · rename_i hc
    exact utf8Size_of_le (Char.le_trans hc.2 (by decide))
  · split at h
    · rename_i hc
      exact utf8Size_of_le (Char.le_trans hc.2 (by decide))
    · split at h
      · rename_i hc
        exact utf8Size_of_le (Char.le_trans hc.2 (by decide))
      · cases h

/-- Digits with the underscores between them. -/
theorem digitRun_spec {isDigit : Char → Bool} (h : ∀ c, isDigit c = true → c.utf8Size = 1)
    (cs : List Char) :
    (digitRun isDigit cs).1 ++ (digitRun isDigit cs).2 = cs ∧ IsAscii (digitRun isDigit cs).1 := by
  unfold digitRun
  rw [List.span_eq_takeWhile_dropWhile]
  refine ⟨List.takeWhile_append_dropWhile, .of_all (p := fun c => isDigit c || c == '_') ?_ ?_⟩
  · intro c hc
    rcases Bool.or_eq_true_iff.1 hc with hc | hc
    · exact h c hc
    · obtain rfl := eq_of_beq hc
      rfl
  · exact fun c hc => List.mem_takeWhile_imp (p := fun c => isDigit c || c == '_') hc

theorem cuts_radixNumber {mark : List Char} (hmark : IsAscii mark) (radix : Nat)
    {isDigit : Char → Bool} (h : ∀ c, isDigit c = true → c.utf8Size = 1) (cs : List Char) :
    (radixNumber mark radix isDigit cs).Cuts (mark ++ cs) := by
  obtain ⟨htext, hascii⟩ := digitRun_spec h cs
  unfold radixNumber
  generalize digitRun isDigit cs = run at htext hascii
  obtain ⟨digits, rest⟩ := run
  subst htext
  dsimp only
  split
  · refine ⟨?_, (hmark.append hascii).append rfl⟩
    simp only [List.append_assoc, List.singleton_append]
  · exact ⟨List.append_assoc .., hmark.append hascii⟩

theorem exponentOf_spec (cs : List Char) :
    (exponentOf cs).1 ++ (exponentOf cs).2.1 = cs ∧ IsAscii (exponentOf cs).1 := by
  unfold exponentOf
  split
  · rename_i e cs
    split
    · rename_i he
      split
      rename_i sign cs' hsign
      obtain ⟨rfl, hascii⟩ : sign ++ cs' = cs ∧ IsAscii sign := by
        split at hsign <;> cases hsign <;> exact ⟨rfl, rfl⟩
      clear hsign
      obtain ⟨htext, hdigits⟩ := digitRun_spec (fun _ => utf8Size_of_isDigit) cs'
      generalize digitRun Char.isDigit cs' = run at htext hdigits
      obtain ⟨digits, rest⟩ := run
      subst htext
      refine ⟨by simp only [List.cons_append, List.append_assoc], (hascii.append hdigits).cons ?_⟩
      rcases he with rfl | rfl <;> rfl
    · exact ⟨rfl, rfl⟩
  · exact ⟨rfl, rfl⟩

theorem cuts_decimalNumber (cs : List Char) : (decimalNumber cs).Cuts cs := by
  obtain ⟨htext, hascii⟩ := digitRun_spec (fun _ => utf8Size_of_isDigit) cs
  unfold decimalNumber
  generalize digitRun Char.isDigit cs = run at htext hascii
  obtain ⟨whole, rest⟩ := run
  subst htext
  dsimp only
  split
  · exact ⟨by simp only [List.append_assoc, List.singleton_append], hascii.append rfl⟩
  · split
    · rename_i r _
      obtain ⟨hfraction, hpoint⟩ := digitRun_spec (fun _ => utf8Size_of_isDigit) r
      obtain ⟨hexponent, hpower⟩ := exponentOf_spec (digitRun Char.isDigit r).2
      refine ⟨?_, (hascii.append (hpoint.cons rfl)).append hpower⟩
      simp only [List.append_assoc, List.cons_append, hexponent, hfraction]
    · obtain ⟨hexponent, hpower⟩ := exponentOf_spec rest
      refine ⟨?_, (hascii.append (show IsAscii [] from rfl)).append hpower⟩
      simp only [List.append_assoc, List.nil_append, hexponent]

theorem cuts_numberOf (cs : List Char) : (numberOf cs).Cuts cs := by
  unfold numberOf
  split
  · rename_i m cs
    split
    · rename_i hm
      have hmark : IsAscii ['0', m] := by rcases hm with rfl | rfl <;> rfl
      exact cuts_radixNumber hmark 16 (fun _ => utf8Size_of_hexValue?) cs
    · split
      · rename_i hm
        have hmark : IsAscii ['0', m] := by rcases hm with rfl | rfl <;> rfl
        refine cuts_radixNumber hmark 8 (fun c hc => ?_) cs
        have hle : c ≤ '7' := of_decide_eq_true (Bool.and_eq_true_iff.1 hc).2
        exact utf8Size_of_le (Char.le_trans hle (by decide))
      · split
        · rename_i hm
          have hmark : IsAscii ['0', m] := by rcases hm with rfl | rfl <;> rfl
          refine cuts_radixNumber hmark 2 (fun c hc => ?_) cs
          rcases Bool.or_eq_true_iff.1 hc with hc | hc <;> obtain rfl := eq_of_beq hc <;> rfl
        · exact cuts_decimalNumber _
  · exact cuts_decimalNumber cs

/-! ### Punctuators -/

/-- A punctuator is found where its text stands. -/
theorem punctuatorOf?_eq_some {cs : List Char} {p : Punctuator} {n : Nat}
    (h : punctuatorOf? cs = some (p, n)) :
    0 < n ∧ cs = p.text.toList ++ cs.drop n ∧ byteLength p.text.toList = n := by
  unfold punctuatorOf? at h
  split at h
  case h_18 =>
    -- the question mark stands alone before the point of a number
    split at h <;> cases h <;> exact ⟨Nat.zero_lt_succ _, rfl, rfl⟩
  case h_61 => cases h
  all_goals
    cases h
    exact ⟨Nat.zero_lt_succ _, rfl, rfl⟩

/-! ### Tokens -/

/-- A token is whole unless the text there is none. -/
def Token.IsWhole (t : Token) : Prop := ∀ f, t ≠ .broken f

/-- A literal with its quotes: the characters of it are a quote, others and the quote again. -/
def IsQuoted (own : List Char) : Prop :=
  ∃ quote body, (quote = '"' ∨ quote = '\'') ∧ own = quote :: (body ++ [quote])

/-- What is known of the characters that write a token. -/
def Lexeme.Writes (l : Lexeme) (own : List Char) : Prop :=
  match l.token with
  | .punctuator p => own = p.text.toList
  | .string _ _ => l.faults = [] → IsQuoted own
  | _ => True

/-- A token starts between two characters of a text; a whole one is written in characters of the
text, behind which the text that is left begins. -/
structure Lexeme.Stands (l : Lexeme) (cs : List Char) : Prop where
  start : IsBoundary cs l.start
  whole : l.token.IsWhole → ∃ before own, cs = before ++ (own ++ l.rest) ∧
    byteLength before = l.start ∧ l.start + byteLength own = l.stop ∧ l.Writes own

/-- A token is read off the beginning of a text at an offset. -/
def Lexeme.Heads (l : Lexeme) (cs : List Char) (pos : Nat) : Prop :=
  l.start = pos ∧ (l.token.IsWhole → Leads cs pos l.rest l.stop ∧
    ∀ own, cs = own ++ l.rest → l.Writes own)

theorem heads_broken {f : Located} {pos stop : Nat} {broken : Bool} {faults : List Located}
    {rest cs : List Char} : (⟨.broken f, pos, stop, broken, faults, rest⟩ : Lexeme).Heads cs pos :=
  ⟨rfl, fun h => absurd rfl (h f)⟩

theorem heads_tokenAt (g : Gap) (c : Char) (rest : List Char) :
    (tokenAt g c rest).Heads (c :: rest) g.stop := by
  unfold tokenAt
  extract_lets pos word string faults number stop raw
  have hword : ∀ {w : WordEnd}, Leads (c :: rest) g.stop w.rest w.stop →
      (word w).Heads (c :: rest) g.stop := by
    intro w hw
    unfold word
    split
    · exact heads_broken
    · exact ⟨rfl, fun _ => ⟨hw, fun _ _ => trivial⟩⟩
  split
  · exact hword (.cons (leads_wordTail ..))
  split
  · rename_i hc
    subst hc
    split
    · split
      · split
        · exact hword (.cons (leads_wordTail ..))
        · exact heads_broken
      · exact heads_broken
    · exact heads_broken
  split
  · rename_i hc
    have hquote : c.utf8Size = 1 := by rcases hc with rfl | rfl <;> rfl
    split
    · exact heads_broken
    · rename_i hfault
      refine ⟨rfl, fun _ => ?_⟩
      obtain ⟨hleads, hbody⟩ := leads_stringTail hquote _ _ _ _ _ _ hfault
      refine ⟨.cons (hquote.symm ▸ hleads), fun own hown hfaults => ?_⟩
      have hclosed : string.closed = true := by
        by_contra hopen
        have hnone : faults = [] := (List.append_eq_nil_iff.1 hfaults).1
        unfold faults at hnone
        rw [if_neg hopen] at hnone
        cases hnone
      obtain ⟨body, hbody⟩ := hbody hclosed
      refine ⟨c, body, hc, List.append_cancel_right (hown.symm.trans ?_)⟩
      rw [List.cons_append, List.append_assoc, List.singleton_append]
      exact congrArg (c :: ·) hbody
  split
  · obtain ⟨htext, hascii⟩ := cuts_numberOf (c :: rest)
    split
    · exact heads_broken
    · split
      · exact heads_broken
      · refine ⟨rfl, fun _ => ⟨⟨_, htext.symm, congrArg (g.stop + ·) hascii.symm⟩, fun own _ => ?_⟩⟩
        cases hbig : (numberOf (c :: rest)).big <;> simp [Lexeme.Writes]
  split
  · rename_i p n hp
    obtain ⟨hpos, htext, hlength⟩ := punctuatorOf?_eq_some hp
    obtain ⟨n, rfl⟩ := Nat.exists_eq_succ_of_ne_zero (Nat.pos_iff_ne_zero.1 hpos)
    refine ⟨rfl, fun _ => ⟨⟨_, htext, congrArg (g.stop + ·) hlength.symm⟩, fun own hown => ?_⟩⟩
    exact List.append_cancel_right (hown.symm.trans htext)
  · exact heads_broken

theorem heads_lexemeAfter (g : Gap) : (lexemeAfter g).Heads g.rest g.stop := by
  unfold lexemeAfter
  split
  · rename_i hrest
    rw [hrest]
    exact ⟨rfl, fun _ => ⟨.refl _ _, fun _ _ => trivial⟩⟩
  · rename_i c rest hrest
    rw [hrest]
    exact heads_tokenAt g c rest

variable {cs before rest : List Char}

/-- The token behind a gap stands in the text, behind what stands before the gap. -/
theorem stands_lexemeAfter {g : Gap} (hcs : cs = before ++ rest)
    (hgap : Leads rest (byteLength before) g.rest g.stop) :
    (lexemeAfter g).Stands cs ∧ byteLength before ≤ (lexemeAfter g).start := by
  obtain ⟨hstart, hwhole⟩ := heads_lexemeAfter g
  have hle := hgap.le
  obtain ⟨skipped, rfl, hstop⟩ := hgap
  rw [hstart]
  have hcs' : cs = (before ++ skipped) ++ g.rest := by rw [hcs, List.append_assoc]
  have hlength : byteLength (before ++ skipped) = g.stop := by
    rw [Text.byteLength_append, hstop]
  refine ⟨⟨⟨_, _, hcs', hlength.trans hstart.symm⟩, fun h => ?_⟩, hle⟩
  obtain ⟨⟨own, hown, hend⟩, hwrites⟩ := hwhole h
  refine ⟨before ++ skipped, own, hown ▸ hcs', hlength.trans hstart.symm, ?_, hwrites own hown⟩
  rw [hstart, hend]

theorem stands_lexeme (hcs : cs = before ++ rest) :
    (lexeme rest (byteLength before)).Stands cs ∧
      byteLength before ≤ (lexeme rest (byteLength before)).start :=
  stands_lexemeAfter hcs (leads_gap ..)

theorem stands_firstLexeme (cs : List Char) : (firstLexeme cs).Stands cs := by
  unfold firstLexeme
  split
  · rename_i cs
    exact (stands_lexemeAfter (show '#' :: '!' :: cs = ['#', '!'] ++ cs from rfl) (leads_gap ..)).1
  · exact (stands_lexemeAfter (show cs = [] ++ cs from rfl) (leads_gap ..)).1

/-! ### Regular expressions and templates -/

theorem regexBody_eq_some {escaped inClass : Bool} {cs acc pattern rest : List Char}
    (h : regexBody escaped inClass cs acc = some (pattern, rest)) :
    ∃ own, pattern = own.reverse ++ acc ∧ cs = own ++ '/' :: rest := by
  fun_induction regexBody escaped inClass cs acc with
  | case1 | case2 => cases h
  | case4 =>
    rename_i hc
    cases h
    exact ⟨[], rfl, by rw [hc.1]; rfl⟩
  | _ =>
    rename_i ih
    obtain ⟨own, rfl, rfl⟩ := ih h
    exact ⟨_ :: own, by rw [List.reverse_cons, List.append_assoc]; rfl, rfl⟩

theorem byteLength_reverse (cs : List Char) : byteLength cs.reverse = byteLength cs := by
  induction cs with
  | nil => rfl
  | cons c cs ih =>
    rw [List.reverse_cons, Text.byteLength_append, ih, Text.byteLength_cons, Text.byteLength_cons,
      Text.byteLength_nil, Nat.add_zero, Nat.add_comm]

/-- A regular expression stands where its opening slash does. -/
theorem stands_regexLexeme {slash : Lexeme} {body : List Char} (hcs : cs = before ++ '/' :: body)
    (hstart : byteLength before = slash.start) :
    (regexLexeme slash body).Stands cs ∧ (regexLexeme slash body).start = slash.start := by
  unfold regexLexeme
  split
  · exact ⟨⟨⟨_, _, hcs, hstart⟩, fun h => absurd rfl (h _)⟩, rfl⟩
  · rename_i pattern rest hbody
    obtain ⟨own, hpattern, rfl⟩ := regexBody_eq_some hbody
    rw [List.append_nil] at hpattern
    dsimp only
    rw [List.span_eq_takeWhile_dropWhile]
    refine ⟨⟨⟨_, _, hcs, hstart⟩, fun _ => ?_⟩, rfl⟩
    refine ⟨before, '/' :: (own ++ '/' :: rest.takeWhile Text.isIdentifierPart), ?_, hstart, ?_,
      trivial⟩
    · rw [hcs]
      simp only [List.cons_append, List.append_assoc, List.takeWhile_append_dropWhile]
    · rw [hpattern]
      simp only [Text.byteLength_cons, Text.byteLength_append, byteLength_reverse,
        show '/'.utf8Size = 1 from rfl]
      omega

theorem leads_chunkTail (skip : Nat) (cs : List Char) (pos : Nat) (acc : List Char)
    (fault : Option Located) :
    Leads cs pos (chunkTail skip cs pos acc fault).rest (chunkTail skip cs pos acc fault).stop := by
  fun_induction chunkTail skip cs pos acc fault with
  | case1 => exact .refl _ _
  | case3 => exact .cons (.refl ..)
  | case4 =>
    rename_i cs _ _ _ _ h
    obtain ⟨rfl, hbrace⟩ := h
    cases cs with
    | nil => cases hbrace
    | cons d cs =>
      obtain rfl := Option.some.inj hbrace
      exact .cons (.cons (.refl ..))
  | _ =>
    rename_i ih
    exact .cons ih

end Script
end ElementBuild
