/-
# Offsets that wrap

An offset is any number below two to the power of 64, and it is read as a signed number before
it is shifted.  So an offset in the upper half is negative, and where the text has grown, a
shift can bring it back into the text.

After any successful edits the splicer knows by how much the text has grown
(`Draft.MadeFrom.delta_eq`): the wraps of an edit cancel each other out, as long as the texts
themselves are shorter than half of the words.  So an offset beyond the text is refused, but for
the last ones below two to the power of 64, as many as the text has grown by
(`Splicer.shift?_eq_none_iff`); those are taken for places in the edited text
(`Draft.refused_beyond_iff`).
-/
import ElementBuild.Proofs.Splice

namespace ElementBuild
namespace Text

/-- Half of the words of 64 bits: a bound for the length of any text in memory. -/
def lengthLimit : Nat := 0x8000000000000000

/-- A signed number of 64 bits differs by whole rounds from the number that is taken for it. -/
theorem signed_eq (n : Int) : ∃ k : Int, signed n = n + wordCount * k ∧
    -(lengthLimit : Int) ≤ signed n ∧ signed n < lengthLimit := by
  refine ⟨-(n.bdiv wordCount), ?_, Int.le_bmod (by decide), Int.bmod_lt (by decide)⟩
  rw [signed, Int.bmod_eq_self_sub_mul_bdiv, Int.mul_neg, Int.sub_eq_add_neg]

namespace Splicer

variable {s : Splicer} {length offset m : Nat}

/-- An offset is shifted by the delta, up to whole rounds of the words. -/
theorem eq_of_shift? (h : s.shift? length offset = some m) :
    m ≤ length ∧ ∃ k : Int, (m : Int) = offset + s.delta + wordCount * k := by
  obtain ⟨k, hk, -, -⟩ := signed_eq offset
  obtain ⟨j, hj, -, -⟩ := signed_eq (signed offset + s.delta)
  unfold shift? at h
  dsimp only at h
  split at h
  · rename_i hplace
    obtain rfl := Option.some.inj h
    refine ⟨by omega, k + j, ?_⟩
    rw [Int.toNat_of_nonneg hplace.1, hj, hk, Int.mul_add]
    omega
  · cases h

/-- **An offset has no place if it is shifted out of the text**, but for the last words, as many
as the text has grown by. -/
theorem shift?_eq_none_iff (hlength : length < lengthLimit) (hoffset : offset < wordCount)
    (hdelta : s.delta ≤ length) (hdelta' : -(lengthLimit : Int) ≤ s.delta) :
    s.shift? length offset = none ↔
      offset + s.delta < 0 ∨ length < offset + s.delta ∧ offset + s.delta < wordCount := by
  obtain ⟨k, hk, hlow, hhigh⟩ := signed_eq offset
  obtain ⟨j, hj, hlow', hhigh'⟩ := signed_eq (signed offset + s.delta)
  unfold shift?
  dsimp only
  unfold lengthLimit at hlength hdelta' hlow hhigh hlow' hhigh'
  unfold wordCount at hk hj hoffset ⊢
  rw [ite_eq_right_iff]
  constructor
  · intro hnone
    by_contra hplace
    exact absurd (hnone (by omega)) nofun
  · intro hout hplace
    omega

end Splicer

namespace Draft

/-- A draft that successful edits make of a text, whatever their order.  Offsets are words, and
no text is as long as half of them. -/
inductive MadeFrom (text : List Char) : Draft → Prop
  | start (h : byteLength text < lengthLimit) : MadeFrom text { text := text }
  | edit {d d' : Draft} {e : Edit} (hd : MadeFrom text d) (hedit : d.edit e = .ok d')
    (hstart : e.start < wordCount) (hstop : e.stop < wordCount)
    (hlength : byteLength d'.text < lengthLimit) : MadeFrom text d'

variable {text : List Char} {d d' : Draft} {e : Edit}

/-- An edit is made between the places of its ends. -/
theorem exists_of_edit_eq_ok (h : d.edit e = .ok d') : e.start ≤ e.stop ∧
    ∃ start stop before old rest after,
      d.splicer.shift? (byteLength d.text) e.start = some start ∧
      d.splicer.shift? (byteLength d.text) e.stop = some stop ∧
      splitAt? d.text start = some (before, rest) ∧ splitAt? d.text stop = some (old, after) ∧
      d' = ⟨before ++ e.replacement ++ after, d.splicer.advance e⟩ := by
  unfold edit Splicer.splice at h
  dsimp only at h
  split at h
  · cases h
  · rename_i horder
    split at h
    · rename_i start stop hstart hstop
      split at h
      · rename_i before rest old after hbefore hafter
        cases h
        exact ⟨by omega, start, stop, before, old, rest, after, hstart, hstop, hbefore, hafter, rfl⟩
      · cases h
    · cases h

/-- An edit is out of bounds if one of its ends has no place. -/
theorem edit_eq_outOfBounds_iff (horder : e.start ≤ e.stop) :
    d.edit e = .error (.outOfBounds e.start e.stop d.splicer.delta (byteLength d.text)) ↔
      d.splicer.shift? (byteLength d.text) e.start = none ∨
        d.splicer.shift? (byteLength d.text) e.stop = none := by
  constructor
  · intro h
    by_contra hplaces
    obtain ⟨hstart, hstop⟩ := not_or.1 hplaces
    obtain ⟨start, hstart⟩ := Option.ne_none_iff_exists'.1 hstart
    obtain ⟨stop, hstop⟩ := Option.ne_none_iff_exists'.1 hstop
    unfold edit Splicer.splice at h
    rw [if_neg (by omega)] at h
    dsimp only at h
    rw [hstart, hstop] at h
    dsimp only at h
    split at h <;> cases h
  · intro h
    refine edit_of_error ?_
    rw [Splicer.splice, if_neg (by omega)]
    dsimp only
    rcases h with h | h
    · rw [h]
    · rw [h]
      cases d.splicer.shift? (byteLength d.text) e.start <;> rfl

/-- **The splicer knows by how much the text has grown**, after any successful edits. -/
theorem MadeFrom.delta_eq (h : MadeFrom text d) : byteLength d.text < lengthLimit ∧
    byteLength text < lengthLimit ∧ d.splicer.delta = byteLength d.text - byteLength text := by
  induction h with
  | start h => exact ⟨h, h, (Int.sub_self _).symm⟩
  | @edit d d' e _ hedit hstart hstop hlength ih =>
    obtain ⟨hlength', htext, hdelta⟩ := ih
    refine ⟨hlength, htext, ?_⟩
    obtain ⟨horder, start, stop, before, old, rest, after, hfrom, hto, hbefore, hafter, rfl⟩ :=
      exists_of_edit_eq_ok hedit
    obtain ⟨hold, hstop⟩ := append_of_splitAt? hafter
    obtain ⟨-, hstart⟩ := append_of_splitAt? hbefore
    have hparts := congrArg byteLength hold
    -- each of the places and of the numbers in between is right up to whole rounds
    obtain ⟨-, j, hj⟩ := Splicer.eq_of_shift? hfrom
    obtain ⟨-, k, hk⟩ := Splicer.eq_of_shift? hto
    obtain ⟨l, hl, -, -⟩ := signed_eq (e.stop - e.start)
    obtain ⟨m, hm, -, -⟩ := signed_eq (byteLength e.replacement - signed (e.stop - e.start))
    obtain ⟨n, hn, hlow, hhigh⟩ := signed_eq
      (d.splicer.delta + signed (byteLength e.replacement - signed (e.stop - e.start)))
    simp only [Splicer.advance, byteLength_append] at hlength hparts ⊢
    unfold lengthLimit at hlength htext hlow hhigh
    unfold wordCount at hj hk hl hm hn
    omega

/-- **An edit that ends beyond the text is refused, unless both of its ends are found again by a
wrap**, or the first one in the text before all edits: the last words, as many as the text has
grown by, are taken for places in the edited text. -/
theorem refused_beyond_iff (h : MadeFrom text d) (horder : e.start ≤ e.stop)
    (hstop : e.stop < wordCount) (hbeyond : byteLength text < e.stop) :
    d.edit e =
        .error (.outOfBounds e.start e.stop d.splicer.delta (byteLength d.text)) ↔
      e.stop + byteLength d.text < wordCount + byteLength text ∨
        byteLength text < e.start ∧
          e.start + byteLength d.text < wordCount + byteLength text := by
  obtain ⟨hlength, htext, hdelta⟩ := h.delta_eq
  have hgrown : d.splicer.delta ≤ byteLength d.text ∧ -(lengthLimit : Int) ≤ d.splicer.delta := by
    omega
  rw [edit_eq_outOfBounds_iff horder,
    Splicer.shift?_eq_none_iff hlength (horder.trans_lt hstop) hgrown.1 hgrown.2,
    Splicer.shift?_eq_none_iff hlength hstop hgrown.1 hgrown.2]
  omega

/-- A text that has grown by two bytes. -/
def grownText : Draft := ⟨"xyabc".toList, ⟨2⟩⟩

theorem madeFrom_grownText : MadeFrom "abc".toList grownText := by
  have hedit : Draft.edit { text := "abc".toList } ⟨"xy".toList, 0, 0⟩ = .ok grownText :=
    edit_of_ok (by decide +kernel)
  exact .edit (.start (by decide)) hedit (by decide) (by decide) (by decide)

/-- An edit that ends beyond the text is refused, though it ends within the edited one. -/
theorem refused_beyond_of_grownText :
    MadeFrom "abc".toList grownText ∧
      grownText.edit ⟨['z'], 1, 4⟩ = .error (.outOfBounds 1 4 2 5) :=
  ⟨madeFrom_grownText, (refused_beyond_iff (e := ⟨['z'], 1, 4⟩) madeFrom_grownText (by decide)
    (by decide) (by decide)).2 (.inl (by decide))⟩

/-- **The last word of all is taken for a place in the text**, once that has grown by two
bytes. -/
theorem made_beyond_of_lastWord :
    MadeFrom "abc".toList grownText ∧ byteLength "abc".toList < wordCount - 1 ∧
      grownText.edit ⟨['z'], wordCount - 1, wordCount - 1⟩ =
        .ok ⟨"xzyabc".toList, ⟨3⟩⟩ :=
  ⟨madeFrom_grownText, by decide, edit_of_ok (by decide +kernel)⟩

end Draft
end Text
end ElementBuild
