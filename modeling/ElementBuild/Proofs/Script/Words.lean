/-
# Words in a text

What stands between blanks and consists of characters of identifiers is read as one word, if it is
read as a word at all (`word_eq_of_token`).
-/
import ElementBuild.Proofs.Letters

namespace ElementBuild
namespace Script

open Text (isIdentifierPart isIdentifierStart)

/-- A word may not go on here. -/
def EndsWord (cs : List Char) : Prop :=
  ∀ c ∈ cs.head?, isIdentifierPart c = false ∧ c ≠ '\\'

theorem endsWord_of_blank {cs : List Char} (h : ∀ c ∈ cs.head?, isGapBlank c = true) :
    EndsWord cs := by
  refine fun c hc => ⟨(isIdentifier_of_isGapBlank (h c hc)).1, ?_⟩
  rintro rfl
  exact absurd (h _ hc) (by decide)

theorem isGapBlank_of_isLineTerminator {c : Char} (h : isLineTerminator c = true) :
    isGapBlank c = true := by
  unfold isLineTerminator at h
  simp only [Bool.or_eq_true, beq_iff_eq] at h
  rcases h with ((rfl | rfl) | rfl) | rfl <;> decide +kernel

theorem gap_blanks {blanks : List Char} (hblanks : ∀ c ∈ blanks, isGapBlank c = true) {c : Char}
    (hc : isIdentifierPart c = true ∨ isIdentifierStart c = true) (cs : List Char) (pos : Nat)
    (broken : Bool) :
    ∃ stop broken', gap .between 0 (blanks ++ c :: cs) pos broken [] =
      ⟨c :: cs, stop, broken', []⟩ := by
  induction blanks generalizing pos broken with
  | nil =>
    refine ⟨pos, broken, ?_⟩
    have hblank : isGapBlank c = false := Bool.eq_false_iff.2 fun h => by
      rw [(isIdentifier_of_isGapBlank h).1, (isIdentifier_of_isGapBlank h).2] at hc
      exact absurd hc (by decide)
    have hend : isLineTerminator c = false := Bool.eq_false_iff.2 fun h =>
      Bool.false_ne_true (hblank.symm.trans (isGapBlank_of_isLineTerminator h))
    have hne : c ≠ '/' ∧ c ≠ '<' ∧ c ≠ '-' := by
      refine ⟨?_, ?_, ?_⟩ <;> rintro rfl <;> exact absurd hc (by decide)
    rw [List.nil_append]
    unfold gap
    simp only [hend, hblank, hne.1, hne.2.1, hne.2.2, Bool.false_eq_true, if_false, false_and]
  | cons b blanks ih =>
    have hb := hblanks b List.mem_cons_self
    have hrest := ih fun c hc => hblanks c (List.mem_cons_of_mem _ hc)
    rw [List.cons_append]
    unfold gap
    split
    · exact hrest _ _
    · exact hrest _ _

theorem wordTail_eq {w : List Char} (hw : ∀ c ∈ w, isIdentifierPart c = true) {rest : List Char}
    (hrest : EndsWord rest) (pos : Nat) (acc : List Char) :
    ∃ stop, wordTail 0 (w ++ rest) pos acc = ⟨w.reverse ++ acc, stop, rest, none⟩ := by
  induction w generalizing pos acc with
  | nil =>
    refine ⟨pos, ?_⟩
    cases rest with
    | nil => rfl
    | cons c rest =>
      obtain ⟨hpart, hslash⟩ := hrest c rfl
      rw [List.nil_append]
      unfold wordTail
      rw [if_neg (by rw [hpart]; exact Bool.false_ne_true), if_neg hslash]
      rfl
  | cons c w ih =>
    obtain ⟨stop, hstop⟩ := ih (fun c hc => hw c (List.mem_cons_of_mem _ hc)) (pos + c.utf8Size)
      (c :: acc)
    refine ⟨stop, ?_⟩
    rw [List.cons_append]
    unfold wordTail
    rw [if_pos (hw c List.mem_cons_self), hstop, List.reverse_cons, List.append_assoc]
    rfl

/-- The token behind blanks. -/
theorem lexeme_blanks {blanks : List Char} (hblanks : ∀ c ∈ blanks, isGapBlank c = true) {c : Char}
    (hc : isIdentifierPart c = true ∨ isIdentifierStart c = true) (cs : List Char) (pos : Nat) :
    ∃ g : Gap, g.faults = [] ∧ lexeme (blanks ++ c :: cs) pos = tokenAt g c cs := by
  obtain ⟨stop, broken, hgap⟩ := gap_blanks hblanks hc cs pos false
  refine ⟨⟨c :: cs, stop, broken, []⟩, rfl, ?_⟩
  unfold lexeme
  rw [hgap]
  rfl

/-- A token that is one word, as it is written, before what is left. -/
structure Lexeme.Spells (l : Lexeme) (w rest : List Char) : Prop where
  token : l.token = .word (String.ofList w)
  rest : l.rest = rest
  faults : l.faults = []

theorem tokenAt_word {c : Char} (hc : isIdentifierStart c = true) {w : List Char}
    (hw : ∀ c ∈ w, isIdentifierPart c = true) {rest : List Char} (hrest : EndsWord rest) {g : Gap}
    (hg : g.faults = []) : (tokenAt g c (w ++ rest)).Spells (c :: w) rest := by
  obtain ⟨stop, hstop⟩ := wordTail_eq hw hrest (g.stop + c.utf8Size) [c]
  unfold tokenAt
  rw [if_pos hc, hstop]
  dsimp only
  rw [List.reverse_append, List.reverse_reverse]
  exact ⟨rfl, rfl, hg⟩

/-- A word starts with its first character, or with an escape for it. -/
theorem exists_wordTail_of_token {g : Gap} {c : Char} {cs : List Char} {n : String}
    (h : (tokenAt g c cs).token = .word n) : ∃ d skip pos, isIdentifierStart d = true ∧
      (c = d ∨ c = '\\') ∧ n = String.ofList (wordTail skip cs pos [d]).text.reverse := by
  revert h
  unfold tokenAt
  extract_lets pos word string faults number stop raw
  have hword : ∀ {w : WordEnd}, (word w).token = .word n → n = String.ofList w.text.reverse := by
    intro w h
    unfold word at h
    split at h
    · cases h
    · exact (Token.word.inj h).symm
  split
  · rename_i hc
    exact fun h => ⟨c, 0, _, hc, .inl rfl, hword h⟩
  split
  · rename_i hslash
    split
    · split
      · split
        · rename_i hd
          exact fun h => ⟨_, _, _, hd, .inr hslash, hword h⟩
        · exact nofun
      · exact nofun
    · exact nofun
  split
  · split <;> exact nofun
  split
  · split
    · exact nofun
    split
    · exact nofun
    · dsimp only
      split <;> exact nofun
  split <;> exact nofun

theorem isIdentifierStart_of_token {g : Gap} {c : Char} {cs : List Char} {n : String}
    (hpart : isIdentifierPart c = true) (h : (tokenAt g c cs).token = .word n) :
    isIdentifierStart c = true := by
  obtain ⟨d, _, _, hd, rfl | rfl, -⟩ := exists_wordTail_of_token h
  · exact hd
  · exact absurd hpart (by decide)

/-- **What stands behind blanks is one word.** -/
theorem word_eq_of_token {blanks w rest : List Char} (hblanks : ∀ c ∈ blanks, isGapBlank c = true)
    (hw : ∀ c ∈ w, isIdentifierPart c = true) (hne : w ≠ [])
    (hrest : ∀ c ∈ rest.head?, isGapBlank c = true) {pos : Nat} {n : String}
    (h : (lexeme (blanks ++ (w ++ rest)) pos).token = .word n) : n = String.ofList w := by
  obtain ⟨c, w, rfl⟩ := List.exists_cons_of_ne_nil hne
  have hc := hw c List.mem_cons_self
  obtain ⟨g, hfaults, hg⟩ := lexeme_blanks hblanks (.inl hc) (w ++ rest) pos
  rw [List.cons_append, hg] at h
  have hspells := tokenAt_word (isIdentifierStart_of_token hc h)
    (fun c hc => hw c (List.mem_cons_of_mem _ hc)) (endsWord_of_blank hrest) hfaults
  exact Token.word.inj (h.symm.trans hspells.token)

/-- The characters of an identifier. -/
def IsIdentifier : List Char → Prop
  | [] => False
  | c :: cs => isIdentifierStart c = true ∧ ∀ d ∈ cs, isIdentifierPart d = true

instance : DecidablePred IsIdentifier
  | [] => inferInstanceAs (Decidable False)
  | _ :: _ => @instDecidableAnd _ _ inferInstance (List.decidableBAll _ _)

/-- An identifier is read where it stands. -/
theorem spells_lexeme {blanks w rest : List Char} (hblanks : ∀ c ∈ blanks, isGapBlank c = true)
    (hw : IsIdentifier w) (hrest : ∀ c ∈ rest.head?, isGapBlank c = true) (pos : Nat) :
    (lexeme (blanks ++ (w ++ rest)) pos).Spells w rest := by
  cases w with
  | nil => exact hw.elim
  | cons c w =>
    obtain ⟨g, hfaults, hg⟩ := lexeme_blanks hblanks (.inr hw.1) (w ++ rest) pos
    rw [List.cons_append, hg]
    exact tokenAt_word hw.1 hw.2 (endsWord_of_blank hrest) hfaults

end Script
end ElementBuild
