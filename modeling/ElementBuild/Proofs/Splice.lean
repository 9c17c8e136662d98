/-
# Edits that are made one after the other

Edits are written down with offsets into a text that nobody has edited yet, and are made one
after the other in the text as it stands.  Between two of them the text is made of two parts:
what the edits so far have made of its beginning, and the rest, which none of them has reached.
The splicer knows by how much the beginning has grown (`Draft.Reaches`), so the next edit finds
its range in the rest.

Therefore edits in ascending order do what one replacement of all their ranges does
(`editEach_eq_replaceAll`): the parts that are kept are slices of the text before all edits.
-/
import ElementBuild.Text.Splice
import Mathlib.Data.List.Infix

namespace ElementBuild
namespace Text

/-! ### Boundaries -/

/-- A character of a text starts at an offset, or the text ends there. -/
def IsBoundary (text : List Char) (n : Nat) : Prop :=
  ∃ before rest, text = before ++ rest ∧ byteLength before = n

theorem isBoundary_iff {text : List Char} {n : Nat} :
    IsBoundary text n ↔ (splitAt? text n).isSome = true := by
  constructor
  · rintro ⟨before, rest, rfl, rfl⟩
    rw [splitAt?_append]
    rfl
  · intro h
    obtain ⟨⟨before, rest⟩, hsplit⟩ := Option.isSome_iff_exists.1 h
    obtain ⟨htext, hn⟩ := append_of_splitAt? hsplit
    exact ⟨before, rest, htext.symm, hn⟩

instance (text : List Char) (n : Nat) : Decidable (IsBoundary text n) :=
  decidable_of_iff _ isBoundary_iff.symm

/-- Two beginnings of a text, one of which is not longer than the other. -/
theorem exists_append_of_le {a b c d : List Char} (h : a ++ b = c ++ d)
    (hle : byteLength a ≤ byteLength c) : ∃ m, c = a ++ m ∧ b = m ++ d := by
  rcases List.append_eq_append_iff.1 h with ⟨m, hc, hb⟩ | ⟨m, ha, hd⟩
  · exact ⟨m, hc, hb⟩
  · -- the first beginning is the longer one, by nothing
    obtain rfl : m = [] := by
      cases m with
      | nil => rfl
      | cons x xs =>
        have hpos := Char.utf8Size_pos x
        rw [ha, byteLength_append, byteLength_cons] at hle
        omega
    exact ⟨[], by rw [List.append_nil] at ha ⊢; exact ha.symm, hd.symm⟩

/-- A boundary in the rest of a text is found from the end of its beginning. -/
theorem IsBoundary.exists_rest {before rest : List Char} {n : Nat}
    (h : IsBoundary (before ++ rest) n) (hle : byteLength before ≤ n) :
    ∃ kept later, rest = kept ++ later ∧ byteLength before + byteLength kept = n := by
  obtain ⟨first, later, hsplit, rfl⟩ := h
  obtain ⟨kept, rfl, hrest⟩ := exists_append_of_le hsplit hle
  exact ⟨kept, later, hrest, (byteLength_append before kept).symm⟩

/-- A slice is what lies between its ends. -/
theorem slice?_append (before kept later : List Char) :
    slice? (before ++ (kept ++ later)) (byteLength before) (byteLength before + byteLength kept) =
      some kept := by
  unfold slice?
  rw [if_pos (Nat.le_add_right _ _), splitAt?_append, Nat.add_sub_cancel_left]
  simp only [Option.bind_some, splitAt?_append, Option.map_some]

/-! ### Replacing all at once -/

/-- The range of an edit lies in a text, between its characters. -/
def Edit.Fits (text : List Char) (e : Edit) : Prop :=
  e.start ≤ e.stop ∧ e.stop ≤ byteLength text ∧ IsBoundary text e.start ∧ IsBoundary text e.stop

instance (text : List Char) : DecidablePred (Edit.Fits text) :=
  fun _ => inferInstanceAs (Decidable (_ ∧ _ ∧ _ ∧ _))

/-- What becomes of a text from an offset on if the ranges of edits in ascending order give
way to their replacements: what lies between the ranges is kept. -/
def replaceFrom (text : List Char) (n : Nat) : List Edit → List Char
  | [] => (slice? text n (byteLength text)).getD []
  | e :: es => (slice? text n e.start).getD [] ++ e.replacement ++ replaceFrom text e.stop es

/-- A text with the ranges of edits replaced all at once. -/
def replaceAll (text : List Char) (es : List Edit) : List Char := replaceFrom text 0 es

theorem replaceFrom_nil (before rest : List Char) :
    replaceFrom (before ++ rest) (byteLength before) [] = rest := by
  have h := slice?_append before rest []
  rw [List.append_nil] at h
  rw [replaceFrom, byteLength_append, h, Option.getD_some]

theorem replaceFrom_cons {before kept later : List Char} {e : Edit} {es : List Edit}
    (h : byteLength before + byteLength kept = e.start) :
    replaceFrom (before ++ (kept ++ later)) (byteLength before) (e :: es) =
      kept ++ e.replacement ++ replaceFrom (before ++ (kept ++ later)) e.stop es := by
  rw [replaceFrom, ← h, slice?_append, Option.getD_some]

/-! ### Offsets that are small enough -/

/-- A bound below which neither offsets nor the differences of lengths leave the signed
numbers of 64 bits: two to the power of 62. -/
def offsetLimit : Nat := 0x4000000000000000

theorem signed_of_small {n : Int} (h : -(2 * offsetLimit : Int) ≤ n) (h' : n < 2 * offsetLimit) :
    signed n = n := by
  unfold signed wordCount
  unfold offsetLimit at h h'
  exact Int.bmod_eq_of_le (by omega) (by omega)

namespace Splicer

variable {s : Splicer} {length offset : Nat}

/-- Small offsets are shifted without a wrap. -/
theorem shift?_eq_some {m : Nat} (hoffset : offset < 2 * offsetLimit) (hm : m < 2 * offsetLimit)
    (hshifted : (m : Int) = offset + s.delta) (hle : m ≤ length) :
    s.shift? length offset = some m := by
  have hsmall : signed offset = offset := signed_of_small (by omega) (by omega)
  have hsum : signed (offset + s.delta) = m := by
    rw [← hshifted]
    exact signed_of_small (by omega) (by omega)
  unfold shift?
  rw [hsmall, hsum]
  dsimp only
  rw [if_pos ⟨Int.natCast_nonneg m, Int.ofNat_le.2 hle⟩, Int.toNat_natCast]

/-- An offset that is shifted beyond the end of the text has no place. -/
theorem shift?_eq_none (hoffset : offset < offsetLimit) (hdelta : s.delta < offsetLimit)
    (hbeyond : (length : Int) < offset + s.delta) :
    s.shift? length offset = none := by
  have hsmall : signed offset = offset := signed_of_small (by omega) (by omega)
  have hsum : signed (offset + s.delta) = offset + s.delta :=
    signed_of_small (by omega) (by omega)
  unfold shift?
  rw [hsmall, hsum]
  dsimp only
  rw [if_neg fun h => absurd h.2 (Int.not_le.2 hbeyond)]

variable {e : Edit}

/-- The part of a text between the places that the ends of a range are shifted to is replaced. -/
theorem splice_of_shift {before old after : List Char} (horder : e.start ≤ e.stop)
    (hstart : s.shift? (byteLength (before ++ old ++ after)) e.start = some (byteLength before))
    (hstop : s.shift? (byteLength (before ++ old ++ after)) e.stop =
      some (byteLength (before ++ old))) :
    s.splice (before ++ old ++ after) e = .ok (before ++ e.replacement ++ after, s.advance e) := by
  have hcut : splitAt? (before ++ old ++ after) (byteLength before) =
      some (before, old ++ after) := by
    rw [List.append_assoc, splitAt?_append]
  rw [splice, if_neg (Nat.not_lt.2 horder)]
  dsimp only
  rw [hstart, hstop]
  dsimp only
  rw [hcut, splitAt?_append]

/-- A small edit is counted without a wrap. -/
theorem delta_advance (horder : e.start ≤ e.stop) (hstop : e.stop < 2 * offsetLimit)
    (hreplacement : byteLength e.replacement < 2 * offsetLimit)
    (hlow : -(2 * offsetLimit : Int) ≤ s.delta + (byteLength e.replacement - (e.stop - e.start)))
    (hhigh : s.delta + (byteLength e.replacement - (e.stop - e.start)) < 2 * offsetLimit) :
    (s.advance e).delta = s.delta + (byteLength e.replacement - (e.stop - e.start)) := by
  have hold : signed (e.stop - e.start) = e.stop - e.start :=
    signed_of_small (by omega) (by omega)
  have hnew : signed (byteLength e.replacement - (e.stop - e.start)) =
      byteLength e.replacement - (e.stop - e.start) := signed_of_small (by omega) (by omega)
  rw [advance, hold, hnew, signed_of_small hlow hhigh]

end Splicer

/-! ### Edits one after the other -/

namespace Draft

/-- Makes edits one after the other; an edit that is refused leaves the draft as it is.  Says
of each edit whether it was made. -/
def editEach (d : Draft) : List Edit → List Bool × Draft
  | [] => ([], d)
  | e :: es =>
    match d.edit e with
    | .ok d' => (true :: (d'.editEach es).1, (d'.editEach es).2)
    | .error _ => (false :: (d.editEach es).1, (d.editEach es).2)

/-- Edits have reached an offset of a text: what stood before it has become `made`, and what
follows it stands as it stood. -/
structure Reaches (text : List Char) (n : Nat) (made : List Char) (d : Draft) : Prop where
  parts : ∃ before rest, text = before ++ rest ∧ byteLength before = n ∧ d.text = made ++ rest
  delta : d.splicer.delta = byteLength made - n

variable {text made : List Char} {n : Nat} {d : Draft} {e : Edit}

theorem editEach_of_ok {d' : Draft} (h : d.edit e = .ok d') (es : List Edit) :
    d.editEach (e :: es) = (true :: (d'.editEach es).1, (d'.editEach es).2) := by
  rw [editEach, h]

theorem editEach_of_error {err : SpliceError} (h : d.edit e = .error err) (es : List Edit) :
    d.editEach (e :: es) = (false :: (d.editEach es).1, (d.editEach es).2) := by
  rw [editEach, h]

theorem reaches_start (text : List Char) : Reaches text 0 [] { text := text } :=
  ⟨⟨[], text, rfl, rfl, rfl⟩, rfl⟩

/-- The text is as much longer as the splicer knows. -/
theorem Reaches.byteLength_eq (h : Reaches text n made d) :
    (byteLength d.text : Int) = byteLength text + d.splicer.delta := by
  obtain ⟨⟨before, rest, rfl, hn, htext⟩, hdelta⟩ := h
  rw [htext, hdelta, byteLength_append, byteLength_append]
  omega

/-- What is left of the text is kept as it is if no edit follows. -/
theorem Reaches.text_eq (h : Reaches text n made d) : d.text = made ++ replaceFrom text n [] := by
  obtain ⟨⟨before, rest, rfl, rfl, htext⟩, -⟩ := h
  rw [htext, replaceFrom_nil]

theorem edit_of_error {err : SpliceError} (h : d.splicer.splice d.text e = .error err) :
    d.edit e = .error err := by
  rw [edit, h]
  rfl

theorem edit_of_ok {after : List Char} {s : Splicer}
    (h : d.splicer.splice d.text e = .ok (after, s)) : d.edit e = .ok ⟨after, s⟩ := by
  rw [edit, h]
  rfl

/-- An edit whose range begins after its end is refused. -/
theorem edit_of_inverted (h : e.stop < e.start) :
    d.edit e = .error (.invertedRange e.start e.stop) :=
  edit_of_error (by rw [Splicer.splice, if_pos h])

/-- An edit whose range ends beyond the text is refused. -/
theorem Reaches.edit_of_beyond (h : Reaches text n made d)
    (hlength : byteLength d.text < offsetLimit) (hstop : e.stop < offsetLimit)
    (hbeyond : byteLength text < e.stop) :
    ∃ err, d.edit e = .error err := by
  have hlengths := h.byteLength_eq
  have hnone : d.splicer.shift? (byteLength d.text) e.stop = none :=
    Splicer.shift?_eq_none hstop (by omega) (by omega)
  by_cases hinverted : e.stop < e.start
  · exact ⟨_, edit_of_inverted hinverted⟩
  · refine ⟨.outOfBounds e.start e.stop d.splicer.delta (byteLength d.text), edit_of_error ?_⟩
    rw [Splicer.splice, if_neg hinverted]
    dsimp only
    rw [hnone]
    cases d.splicer.shift? (byteLength d.text) e.start <;> rfl

/-- **An edit whose range lies in the rest is made there**, and the edits have reached its end
then. -/
theorem Reaches.edit_of_fits (h : Reaches text n made d)
    (hlength : byteLength text < 2 * offsetLimit) (hlength' : byteLength d.text < 2 * offsetLimit)
    (hedited : byteLength (made ++ replaceFrom text n [e]) < 2 * offsetLimit)
    (hfits : e.Fits text) (hle : n ≤ e.start) :
    ∃ d' kept, d.edit e = .ok d' ∧ Reaches text e.stop (made ++ kept ++ e.replacement) d' ∧
      ∀ es, replaceFrom text n (e :: es) = kept ++ e.replacement ++ replaceFrom text e.stop es := by
  have hlengths := h.byteLength_eq
  obtain ⟨⟨before, rest, rfl, rfl, htext⟩, hdelta⟩ := h
  obtain ⟨horder, hend, hstart, hstop⟩ := hfits
  obtain ⟨kept, later, rfl, hkept⟩ := hstart.exists_rest hle
  obtain ⟨old, after, hold, hsum⟩ :
      ∃ old after, later = old ++ after ∧ byteLength (before ++ kept) + byteLength old = e.stop := by
    rw [← List.append_assoc] at hstop
    refine hstop.exists_rest ?_
    rw [byteLength_append]
    omega
  subst hold
  rw [byteLength_append] at hsum
  -- the text as it stands, cut at the two ends of the range
  rw [show made ++ (kept ++ (old ++ after)) = made ++ kept ++ old ++ after by
    simp only [List.append_assoc]] at htext
  have hlong : byteLength d.text =
      byteLength made + byteLength kept + byteLength old + byteLength after := by
    rw [htext]
    simp only [byteLength_append]
  have hsplice : d.splicer.splice d.text e =
      .ok (made ++ kept ++ e.replacement ++ after, d.splicer.advance e) := by
    rw [htext]
    refine Splicer.splice_of_shift horder ?_ ?_
    · rw [← htext, byteLength_append]
      exact Splicer.shift?_eq_some (by omega) (by omega) (by omega) (by omega)
    · rw [← htext, byteLength_append, byteLength_append]
      exact Splicer.shift?_eq_some (by omega) (by omega) (by omega) (by omega)
  have hmade : byteLength made + byteLength kept + byteLength e.replacement + byteLength after <
      2 * offsetLimit := by
    have hrest : replaceFrom (before ++ (kept ++ (old ++ after))) e.stop [] = after := by
      rw [← hsum, ← byteLength_append, ← byteLength_append, ← List.append_assoc,
        ← List.append_assoc, List.append_assoc before]
      exact replaceFrom_nil _ _
    rw [replaceFrom_cons hkept, hrest] at hedited
    simp only [byteLength_append] at hedited
    omega
  have hadvance : (d.splicer.advance e).delta =
      d.splicer.delta + (byteLength e.replacement - (e.stop - e.start)) :=
    Splicer.delta_advance (by omega) (by omega) (by omega) (by omega) (by omega)
  refine ⟨_, kept, edit_of_ok hsplice, ⟨?_, ?_⟩, fun es => replaceFrom_cons hkept⟩
  · exact ⟨before ++ kept ++ old, after, by simp only [List.append_assoc],
      by rw [byteLength_append, byteLength_append]; omega, rfl⟩
  · rw [hadvance, hdelta, byteLength_append, byteLength_append]
    omega

/-- Once edits have reached an offset, those that follow in ascending order replace their
ranges in the rest. -/
theorem Reaches.editEach {es : List Edit} (h : Reaches text n made d)
    (hstop : ∀ e ∈ es, e.stop < offsetLimit)
    (hothers : ∀ e ∈ es, ¬ e.Fits text → e.stop < e.start ∨ byteLength text < e.stop)
    (hle : ∀ e ∈ es, e.Fits text → n ≤ e.start)
    (horder : (es.filter (·.Fits text)).Pairwise (·.stop ≤ ·.start))
    (hlength : byteLength text < offsetLimit)
    (hlengths : ∀ fs, fs <+: es.filter (·.Fits text) →
      byteLength (made ++ replaceFrom text n fs) < offsetLimit) :
    (d.editEach es).1 = es.map (decide <| ·.Fits text) ∧
      (d.editEach es).2.text = made ++ replaceFrom text n (es.filter (·.Fits text)) := by
  induction es generalizing n made d with
  | nil => exact ⟨rfl, h.text_eq⟩
  | cons e es ih =>
    have hlength' : byteLength d.text < offsetLimit := by
      rw [h.text_eq]
      exact hlengths [] List.nil_prefix
    have hrest := fun f hf => hstop f (List.mem_cons_of_mem e hf)
    have hrest' := fun f hf => hothers f (List.mem_cons_of_mem e hf)
    by_cases hfits : e.Fits text
    · have hfilter : (e :: es).filter (·.Fits text) = e :: es.filter (·.Fits text) :=
        List.filter_cons_of_pos (decide_eq_true hfits)
      rw [hfilter] at horder hlengths ⊢
      have hone := hlengths [e] (List.prefix_cons_inj e |>.2 List.nil_prefix)
      obtain ⟨d', kept, hedit, hreaches, hreplace⟩ :=
        h.edit_of_fits (by omega) (by omega) (by omega) hfits (hle e List.mem_cons_self hfits)
      obtain ⟨hafter, horder⟩ := List.pairwise_cons.1 horder
      have hlater := ih hreaches hrest hrest'
        (fun f hf hf' => hafter f (List.mem_filter.2 ⟨hf, decide_eq_true hf'⟩)) horder
        (fun fs hfs => by
          have hnext := hlengths (e :: fs) ((List.prefix_cons_inj e).2 hfs)
          rw [hreplace] at hnext
          simpa only [List.append_assoc] using hnext)
      rw [editEach_of_ok hedit, hreplace]
      refine ⟨?_, ?_⟩
      · rw [hlater.1, List.map_cons, decide_eq_true hfits]
      · rw [hlater.2]
        simp only [List.append_assoc]
    · have hfilter : (e :: es).filter (·.Fits text) = es.filter (·.Fits text) :=
        List.filter_cons_of_neg (by simpa using hfits)
      rw [hfilter] at horder hlengths ⊢
      obtain ⟨err, hedit⟩ : ∃ err, d.edit e = .error err := by
        rcases hothers e List.mem_cons_self hfits with hinverted | hbeyond
        · exact ⟨_, edit_of_inverted hinverted⟩
        · exact h.edit_of_beyond hlength' (hstop e List.mem_cons_self) hbeyond
      have hlater := ih h hrest hrest' (fun f hf => hle f (List.mem_cons_of_mem e hf)) horder hlengths
      rw [editEach_of_error hedit]
      refine ⟨?_, hlater.2⟩
      rw [hlater.1, List.map_cons, decide_eq_false hfits]

/-- **Edits one after the other replace their ranges as if all were replaced at once.**  Those
that fit the text have to follow each other without overlaps; the others, wherever they stand,
are inverted or end beyond the text, and are refused. -/
theorem editEach_eq_replaceAll (text : List Char) (es : List Edit)
    (hstop : ∀ e ∈ es, e.stop < offsetLimit)
    (hothers : ∀ e ∈ es, ¬ e.Fits text → e.stop < e.start ∨ byteLength text < e.stop)
    (horder : (es.filter (·.Fits text)).Pairwise (·.stop ≤ ·.start))
    (hlengths : ∀ fs, fs <+: es.filter (·.Fits text) →
      byteLength (replaceAll text fs) < offsetLimit) :
    (Draft.editEach { text := text } es).1 = es.map (decide <| ·.Fits text) ∧
      (Draft.editEach { text := text } es).2.text = replaceAll text (es.filter (·.Fits text)) := by
  have hlength : byteLength text < offsetLimit := by
    have hnone := hlengths [] List.nil_prefix
    rwa [replaceAll, ← List.nil_append (replaceFrom text 0 []),
      ← (reaches_start text).text_eq] at hnone
  exact (reaches_start text).editEach hstop hothers (fun _ _ _ => Nat.zero_le _) horder hlength hlengths

/-- Two edits, the second of which stands behind one that is inverted and one that ends beyond
the text. -/
theorem editEach_of_interleaved :
    let text := "aé\n∀z".toList
    let es : List Edit := [⟨"01".toList, 1, 3⟩, ⟨"x".toList, 5, 2⟩, ⟨"y".toList, 3, 10⟩,
      ⟨[], 4, 7⟩]
    (∀ e ∈ es, e.stop < offsetLimit) ∧
      (∀ e ∈ es, ¬ e.Fits text → e.stop < e.start ∨ byteLength text < e.stop) ∧
      (es.filter (·.Fits text)).Pairwise (·.stop ≤ ·.start) ∧
      (∀ fs, fs <+: es.filter (·.Fits text) → byteLength (replaceAll text fs) < offsetLimit) ∧
      (Draft.editEach { text := text } es).1 = [true, false, false, true] ∧
      (Draft.editEach { text := text } es).2.text = "a01\nz".toList := by
  intro text es
  have hstop : ∀ e ∈ es, e.stop < offsetLimit := by decide
  have hothers : ∀ e ∈ es, ¬ e.Fits text → e.stop < e.start ∨ byteLength text < e.stop := by decide
  have horder : (es.filter (·.Fits text)).Pairwise (·.stop ≤ ·.start) := by decide
  have hlengths : ∀ fs, fs <+: es.filter (·.Fits text) →
      byteLength (replaceAll text fs) < offsetLimit := fun fs hfs =>
    (by decide : ∀ fs ∈ (es.filter (·.Fits text)).inits, byteLength (replaceAll text fs) < offsetLimit)
      fs ((List.mem_inits _ _).2 hfs)
  obtain ⟨hmade, htext⟩ := editEach_eq_replaceAll text es hstop hothers horder hlengths
  refine ⟨hstop, hothers, horder, hlengths, hmade.trans (by decide), htext.trans (by decide)⟩

end Draft
end Text
end ElementBuild
