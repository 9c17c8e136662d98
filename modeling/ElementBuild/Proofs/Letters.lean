/-
# Blanks and identifiers

No blank opens an identifier or is part of one.  The sets behind these classes are data; the large
ones are looked through line by line for the few code points of blanks (`CharSet.Avoids`).
-/
import ElementBuild.Script.Lexer

namespace ElementBuild
namespace Text

namespace CharSet

/-- None of some code points lies in a set. -/
def Avoids (s : CharSet) (codes : List Nat) : Prop := ∀ n ∈ codes, s.hasCode n = false

theorem avoids_nil (codes : List Nat) : (ofHex []).Avoids codes := fun _ _ => rfl

/-- The first line is given as a list of characters, which is what can be computed with. -/
theorem avoids_cons {codes : List Nat} {line : List Char} {lines : List String}
    (hline : (codes.all fun n => !((splitWhere (· == ' ') line).map rangeOfHex).any fun r =>
      r.1 ≤ n && n ≤ r.2) = true) (hlines : (ofHex lines).Avoids codes) :
    (ofHex (String.ofList line :: lines)).Avoids codes := by
  intro n hn
  have hrest := hlines n hn
  have hfirst := List.all_eq_true.1 hline n hn
  unfold hasCode ofHex at hrest ⊢
  rw [List.flatMap_cons, String.toList_ofList, List.any_append, hrest]
  simpa using hfirst

end CharSet

/-- The code points of blanks beyond ASCII, and that of the byte order mark. -/
def blankCodes : List Nat :=
  [0x85, 0xa0, 0x1680, 0x2000, 0x2001, 0x2002, 0x2003, 0x2004, 0x2005, 0x2006, 0x2007, 0x2008,
    0x2009, 0x200a, 0x2028, 0x2029, 0x202f, 0x205f, 0x3000, 0xfeff]

set_option maxRecDepth 100000 in
theorem avoids_identifierPartSet : identifierPartSet.Avoids blankCodes := by
  unfold identifierPartSet
  repeat refine CharSet.avoids_cons (by decide +kernel) ?_
  exact CharSet.avoids_nil _

set_option maxRecDepth 100000 in
theorem avoids_identifierStartSet : identifierStartSet.Avoids blankCodes := by
  unfold identifierStartSet
  repeat refine CharSet.avoids_cons (by decide +kernel) ?_
  exact CharSet.avoids_nil _

theorem blankSet_ranges : blankSet.ranges = [(9, 0xd), (0x20, 0x20), (0x85, 0x85), (0xa0, 0xa0),
    (0x1680, 0x1680), (0x2000, 0x200a), (0x2028, 0x2029), (0x202f, 0x202f), (0x205f, 0x205f),
    (0x3000, 0x3000)] := by
  decide +kernel

theorem mem_blankCodes {c : Char} (hascii : ¬ c.toNat < 128) (h : isBlank c = true) :
    c.toNat ∈ blankCodes := by
  unfold isBlank at h
  rw [if_neg hascii] at h
  unfold CharSet.contains CharSet.hasCode at h
  rw [blankSet_ranges] at h
  simp only [List.any_cons, List.any_nil, Bool.or_eq_true, Bool.and_eq_true, decide_eq_true_eq,
    Bool.false_eq_true, or_false] at h
  unfold blankCodes
  simp only [List.mem_cons, List.not_mem_nil, or_false]
  omega

theorem not_ascii_of_mem_blankCodes {c : Char} (h : c.toNat ∈ blankCodes) : ¬ c.toNat < 128 := by
  have hle : ∀ n ∈ blankCodes, 128 ≤ n := by decide
  exact Nat.not_lt.2 (hle _ h)

theorem isIdentifierStart_of_mem_blankCodes {c : Char} (h : c.toNat ∈ blankCodes) :
    isIdentifierStart c = false := by
  unfold isIdentifierStart
  rw [if_neg (not_ascii_of_mem_blankCodes h)]
  exact avoids_identifierStartSet _ h

theorem isIdentifierPart_of_mem_blankCodes {c : Char} (h : c.toNat ∈ blankCodes) :
    isIdentifierPart c = false := by
  have hjoiner : ∀ n ∈ blankCodes, n ≠ 0x200c ∧ n ≠ 0x200d := by decide
  unfold isIdentifierPart
  rw [if_neg (not_ascii_of_mem_blankCodes h), Bool.or_eq_false_iff, Bool.or_eq_false_iff]
  refine ⟨⟨beq_eq_false_iff_ne.2 ?_, beq_eq_false_iff_ne.2 ?_⟩, avoids_identifierPartSet _ h⟩
  · rintro rfl
    exact (hjoiner _ h).1 rfl
  · rintro rfl
    exact (hjoiner _ h).2 rfl

/-- A fact on ASCII is looked up. -/
theorem of_ascii {p : Char → Prop} (h : ∀ n : Fin 128, p (Char.ofNat n)) {c : Char}
    (hascii : c.toNat < 128) : p c := by
  have hc := h ⟨c.toNat, hascii⟩
  rwa [Char.ofNat_toNat] at hc

end Text

namespace Script

open Text (isIdentifierPart isIdentifierStart)

theorem isIdentifier_of_isGapBlank {c : Char} (h : isGapBlank c = true) :
    isIdentifierPart c = false ∧ isIdentifierStart c = false := by
  unfold isGapBlank at h
  have hcodes (h : c.toNat ∈ Text.blankCodes) :
      isIdentifierPart c = false ∧ isIdentifierStart c = false :=
    ⟨Text.isIdentifierPart_of_mem_blankCodes h, Text.isIdentifierStart_of_mem_blankCodes h⟩
  rcases Bool.or_eq_true_iff.1 h with h | h
  · obtain rfl := eq_of_beq h
    exact hcodes (by decide)
  by_cases hascii : c.toNat < 128
  · revert h
    exact Text.of_ascii (p := fun c => Text.isBlank c = true →
      isIdentifierPart c = false ∧ isIdentifierStart c = false) (by decide +kernel) hascii
  · exact hcodes (Text.mem_blankCodes hascii h)

end Script
end ElementBuild
