/-
# What stripping does to the targets of imports

Marks are taken away by what stands before them: the word `import`, perhaps a parenthesis, and a
quote (`Reference.EndsInImport`).  Which targets a module imports is another matter.  So the
text that stripping leaves is the one without the marks of its imports exactly if both agree on
every mark that the text holds (`Reference.strips_targets_iff`), and they do not: what looks like
an import in a string is stripped, and the target of an import that binds a name is not.

Both ways to strip read the text from left to right and leave marks out, each by a condition on
what they have read (`Reference.Drops`).  A condition that holds only behind quotes can be told
from what is left: up to the next quote the text is longer by the mark that was kept.
-/
import ElementBuild.Proofs.Marks
import ElementBuild.Proofs.Ranges
import ElementBuild.Proofs.Splice

namespace ElementBuild

namespace Text

/-- Where a slice was taken. -/
theorem append_of_slice? {text kept : List Char} {start stop : Nat}
    (h : slice? text start stop = some kept) : ∃ before later, text = before ++ (kept ++ later) ∧
      byteLength before = start ∧ byteLength before + byteLength kept = stop := by
  unfold slice? at h
  split at h
  · rename_i hle
    obtain ⟨⟨before, rest⟩, hbefore, h⟩ := Option.bind_eq_some_iff.1 h
    obtain ⟨⟨own, later⟩, hown, rfl⟩ := Option.map_eq_some_iff.1 h
    obtain ⟨rfl, hstart⟩ := append_of_splitAt? hbefore
    obtain ⟨rfl, hlength⟩ := append_of_splitAt? hown
    exact ⟨before, later, rfl, hstart, by dsimp only; omega⟩
  · cases h

/-- Two beginnings of a text that are equally long are one. -/
theorem eq_of_append_eq {a b c d : List Char} (h : a ++ b = c ++ d)
    (hlength : byteLength a = byteLength c) : a = c := by
  obtain ⟨more, rfl, -⟩ := exists_append_of_le h (Nat.le_of_eq hlength)
  cases more with
  | nil => exact (List.append_nil a).symm
  | cons x xs =>
    have hpos := Char.utf8Size_pos x
    rw [byteLength_append, byteLength_cons] at hlength
    omega

end Text

namespace Reference

open Text (byteLength isWordChar Edit replaceFrom replaceAll)

/-! ### Leaving marks out -/

/-- A text loses the marks in front of which a condition holds on all that stands before. -/
inductive Drops (P : List Char → Prop) : List Char → List Char → List Char → Prop
  | nil (before : List Char) : Drops P before [] []
  | keep {before cs out : List Char} {c : Char} :
      (mark.toList <+: c :: cs → ¬ P before) → Drops P (before ++ [c]) cs out →
        Drops P before (c :: cs) (c :: out)
  | drop {before cs rest out : List Char} : cs = mark.toList ++ rest → P before →
      Drops P (before ++ mark.toList) rest out → Drops P before cs out

/-- A condition on what was read that holds only behind a quote. -/
def BehindQuotes (P : List Char → Prop) : Prop :=
  ∀ before, P before → ∃ quote, IsQuote quote ∧ before.getLast? = some quote

theorem not_isQuote_of_mem_mark {c : Char} (h : c ∈ mark.toList) : ¬ IsQuote c :=
  of_decide_eq_true (List.all_eq_true.1
    (show (mark.toList.all fun c => ¬ IsQuote c) = true by decide) c h)

/-- The first letter of the mark does not come again in it. -/
theorem mark_eq_cons : ∃ t, mark.toList = 'c' :: t ∧ 'c' ∉ t := ⟨_, rfl, by decide⟩

theorem BehindQuotes.not_concat {P : List Char → Prop} (hP : BehindQuotes P) (before : List Char)
    {c : Char} (hc : ¬ IsQuote c) : ¬ P (before ++ [c]) := by
  intro h
  obtain ⟨quote, hquote, hlast⟩ := hP _ h
  rw [List.getLast?_concat] at hlast
  obtain rfl := Option.some.inj hlast
  exact hc hquote

theorem BehindQuotes.not_append_mark {P : List Char → Prop} (hP : BehindQuotes P)
    (before : List Char) : ¬ P (before ++ mark.toList) := by
  obtain ⟨init, last, hmark, hlast⟩ : ∃ init last, mark.toList = init ++ [last] ∧ ¬ IsQuote last :=
    ⟨mark.toList.dropLast, ':', by decide, by decide⟩
  rw [hmark, ← List.append_assoc]
  exact hP.not_concat _ hlast

section Drops

variable {P Q : List Char → Prop} {before cs later out out' : List Char}

/-- What holds no mark that is left out is kept. -/
theorem Drops.append (h : Drops P (before ++ cs) later out)
    (hnone : ∀ part rest, part.length < cs.length → cs ++ later = part ++ (mark.toList ++ rest) →
      ¬ P (before ++ part)) : Drops P before (cs ++ later) (cs ++ out) := by
  induction cs generalizing before with
  | nil => rwa [List.append_nil] at h
  | cons c cs ih =>
    refine .keep (fun hmark => ?_) (ih (by rwa [← List.append_cons]) fun part rest hlt heq => ?_)
    · obtain ⟨rest, hrest⟩ := hmark
      have hbefore := hnone [] rest (Nat.succ_pos _) hrest.symm
      rwa [List.append_nil] at hbefore
    · have hpart := hnone (c :: part) rest (Nat.succ_lt_succ hlt) (congrArg (c :: ·) heq)
      rwa [List.append_cons] at hpart

theorem drops_of_none (hnone : ∀ part rest, cs = part ++ (mark.toList ++ rest) →
    ¬ P (before ++ part)) : Drops P before cs cs := by
  have h : Drops P before (cs ++ []) (cs ++ []) := .append (.nil _) fun part rest _ heq =>
    hnone part rest (by rwa [List.append_nil] at heq)
  rwa [List.append_nil] at h

/-- Up to the next quote all is kept. -/
theorem Drops.takeWhile_eq (hP : BehindQuotes P) (h : Drops P before cs out) (hnot : ¬ P before) :
    out.takeWhile (¬ IsQuote ·) = cs.takeWhile (¬ IsQuote ·) := by
  induction h with
  | nil => rfl
  | @keep before cs out c _ _ ih =>
    by_cases hc : IsQuote c
    · rw [List.takeWhile_cons_of_neg (by simpa using hc),
        List.takeWhile_cons_of_neg (by simpa using hc)]
    · rw [List.takeWhile_cons_of_pos (by simpa using hc),
        List.takeWhile_cons_of_pos (by simpa using hc), ih (hP.not_concat before hc)]
  | drop _ hbefore _ _ => exact absurd hbefore hnot

/-- **A mark that is left out in one text and kept in the other tells them apart.** -/
theorem Drops.ne_of_drop (hP : BehindQuotes P) (hQ : BehindQuotes Q)
    (hcs : cs = mark.toList ++ later) (h : Drops P (before ++ mark.toList) later out)
    (h' : Drops Q before cs out') (hnot : ¬ Q before) : out ≠ out' := by
  rintro rfl
  have hshort := h.takeWhile_eq hP (hP.not_append_mark before)
  rw [h'.takeWhile_eq hQ hnot, hcs, List.takeWhile_append_of_pos fun c hc =>
    decide_eq_true (not_isQuote_of_mem_mark hc)] at hshort
  exact absurd (List.append_left_eq_self.1 hshort) (by decide)

/-- No mark begins in the course of another one. -/
theorem exists_append_of_mark {part rest : List Char}
    (h : mark.toList ++ later = part ++ (mark.toList ++ rest)) (hne : part ≠ []) :
    ∃ kept, part = mark.toList ++ kept ∧ later = kept ++ (mark.toList ++ rest) := by
  rcases List.append_eq_append_iff.1 h with ⟨kept, hpart, hlater⟩ | ⟨kept, hmark, hrest⟩
  · exact ⟨kept, hpart, hlater⟩
  · cases kept with
    | nil =>
      rw [List.append_nil] at hmark
      exact ⟨[], by rw [List.append_nil, hmark], hrest.symm⟩
    | cons k kept =>
      -- the letter at which the second mark would begin
      obtain ⟨t, ht, hc⟩ := mark_eq_cons
      obtain ⟨p, part, rfl⟩ := List.exists_cons_of_ne_nil hne
      rw [ht, List.cons_append] at hrest hmark
      obtain rfl := (List.cons.inj hrest).1
      rw [(List.cons.inj hmark).2] at hc
      exact absurd (List.mem_append_right _ List.mem_cons_self) hc

/-- Two conditions agree on every mark of what is left. -/
def Agree (P Q : List Char → Prop) (before cs : List Char) : Prop :=
  ∀ part rest, cs = part ++ (mark.toList ++ rest) → (P (before ++ part) ↔ Q (before ++ part))

theorem agree_nil : Agree P Q before [] := fun _ _ heq =>
  absurd (List.append_eq_nil_iff.1 (List.append_eq_nil_iff.1 heq.symm).2).1 (by decide)

theorem Agree.first (h : Agree P Q before (mark.toList ++ later)) : P before ↔ Q before := by
  have hfirst := h [] later rfl
  rwa [List.append_nil] at hfirst

theorem agree_cons {c : Char} (h : mark.toList <+: c :: cs → (P before ↔ Q before)) :
    Agree P Q before (c :: cs) ↔ Agree P Q (before ++ [c]) cs := by
  refine ⟨fun hagree part rest heq => ?_, fun hagree part rest heq => ?_⟩
  · rw [← List.append_cons]
    exact hagree (c :: part) rest (congrArg (c :: ·) heq)
  · cases part with
    | nil =>
      rw [List.append_nil]
      exact h ⟨rest, heq.symm⟩
    | cons d part =>
      obtain ⟨rfl, hcs⟩ := List.cons.inj heq
      rw [List.append_cons]
      exact hagree part rest hcs

theorem agree_mark (h : P before ↔ Q before) :
    Agree P Q before (mark.toList ++ later) ↔ Agree P Q (before ++ mark.toList) later := by
  refine ⟨fun hagree part rest heq => ?_, fun hagree part rest heq => ?_⟩
  · rw [List.append_assoc]
    exact hagree _ rest (by rw [heq, List.append_assoc])
  · by_cases hnil : part = []
    · rwa [hnil, List.append_nil]
    · obtain ⟨kept, rfl, hlater⟩ := exists_append_of_mark heq hnil
      rw [← List.append_assoc]
      exact hagree kept rest hlater

/-- **Two conditions leave the same text if and only if they agree on every mark.** -/
theorem Drops.eq_iff (hP : BehindQuotes P) (hQ : BehindQuotes Q) (h : Drops P before cs out)
    (h' : Drops Q before cs out') : out = out' ↔ Agree P Q before cs := by
  induction h generalizing out' with
  | nil before =>
    cases h' with
    | nil => exact iff_of_true rfl agree_nil
    | drop heq => exact absurd (List.append_eq_nil_iff.1 heq.symm).1 (by decide)
  | @keep before cs out c hnone hkeep ih =>
    cases h' with
    | keep hnone' hkeep' =>
      rw [List.cons_inj_right, ih hkeep',
        agree_cons fun hmark => iff_of_false (hnone hmark) (hnone' hmark)]
    | drop hcs hbefore hdrop =>
      have hnot := hnone ⟨_, hcs.symm⟩
      refine iff_of_false (hdrop.ne_of_drop hQ hP hcs (.keep hnone hkeep) hnot).symm fun hagree => ?_
      rw [hcs] at hagree
      exact hnot (hagree.first.2 hbefore)
  | @drop before cs later out hcs hbefore hdrop ih =>
    by_cases hbefore' : Q before
    · have hdrop' : Drops Q (before ++ mark.toList) later out' := by
        cases h' with
        | nil => exact absurd (List.append_eq_nil_iff.1 hcs.symm).1 (by decide)
        | keep hnone => exact absurd hbefore' (hnone ⟨_, hcs.symm⟩)
        | drop hcs' _ hdrop' =>
          obtain rfl := List.append_cancel_left (hcs.symm.trans hcs')
          exact hdrop'
      rw [ih hdrop', hcs, agree_mark (iff_of_true hbefore hbefore')]
    · refine iff_of_false (hdrop.ne_of_drop hP hQ hcs h' hbefore') fun hagree => ?_
      rw [hcs] at hagree
      exact hbefore' (hagree.first.1 hbefore)

end Drops

/-! ### By what stands before -/

/-- A text ends in an import up to the quote of its target; a word does not end in `import`. -/
def EndsInImport (before : List Char) : Prop :=
  ∃ head start quote, before = head ++ (start ++ [quote]) ∧ head.getLast?.any isWordChar = false ∧
    IsImportStart start ∧ IsQuote quote

theorem behindQuotes_endsInImport : BehindQuotes EndsInImport := by
  rintro before ⟨head, start, quote, rfl, -, -, hquote⟩
  refine ⟨quote, hquote, ?_⟩
  rw [← List.append_assoc, List.getLast?_concat]

/-- An import whose mark is still ahead has not begun yet. -/
def IsAhead (before cs : List Char) : Prop :=
  ∀ head start quote part rest, cs = part ++ (mark.toList ++ rest) →
    before ++ part = head ++ (start ++ [quote]) → head.getLast?.any isWordChar = false →
      IsImportStart start → IsQuote quote → before <+: head

theorem isAhead_nil (cs : List Char) : IsAhead [] cs := fun _ _ _ _ _ _ _ _ _ _ => List.nil_prefix

/-- No import ends before a letter that is still ahead. -/
theorem IsAhead.not_endsInImport {before cs part rest : List Char} (h : IsAhead before cs)
    (heq : cs = part ++ (mark.toList ++ rest)) (hquote : ∀ c ∈ part, ¬ IsQuote c) :
    ¬ EndsInImport (before ++ part) := by
  rintro ⟨head, start, quote, hends, hhead, hstart, hquote'⟩
  obtain ⟨behind, rfl⟩ := h head start quote part rest heq hends hhead hstart hquote'
  rw [List.append_assoc] at hends
  have hmem : quote ∈ part := by
    rw [List.append_cancel_left hends]
    exact List.mem_append_right _ (List.mem_append_right _ List.mem_cons_self)
  exact hquote quote hmem hquote'

/-- A character at which no marked import begins is passed. -/
theorem IsAhead.cons {before cs : List Char} {c : Char} (h : IsAhead before (c :: cs))
    (hnone : before.getLast?.any isWordChar = false → ¬ OpensMarked mark.toList (c :: cs)) :
    IsAhead (before ++ [c]) cs := by
  intro head start quote part rest hcs hends hhead hstart hquote
  rw [← List.append_cons] at hends
  obtain ⟨behind, rfl⟩ := h head start quote (c :: part) rest (congrArg (c :: ·) hcs) hends hhead
    hstart hquote
  rw [List.append_assoc] at hends
  have hpart := List.append_cancel_left hends
  cases behind with
  | nil =>
    rw [List.append_nil] at hhead
    refine absurd ⟨start, quote, rest, hstart, hquote, ?_⟩ (hnone hhead)
    rw [hcs, ← List.cons_append, hpart, List.nil_append, List.append_assoc, List.singleton_append]
  | cons d behind =>
    obtain rfl : c = d := (List.cons.inj hpart).1
    exact ⟨behind, (List.append_cons before c behind).symm⟩

/-- No import begins in the course of another one and its mark, except at its beginning. -/
theorem IsImportStart.eq_nil_of_begins {start start' part behind rest : List Char} {quote : Char}
    (hstart : IsImportStart start) (hquote : IsQuote quote)
    (heq : start ++ quote :: (mark.toList ++ part) = behind ++ (start' ++ rest))
    (hstart' : IsImportStart start') (hnot : ¬ start ++ [quote] ++ mark.toList <+: behind) :
    behind = [] := by
  have hwhole : start ++ [quote] ++ mark.toList ++ part = behind ++ (start' ++ rest) := by
    rw [← heq]
    simp only [List.append_assoc, List.cons_append, List.nil_append]
  obtain ⟨t, rfl, -⟩ := id hstart.eq_cons
  obtain ⟨t', rfl, -⟩ := hstart'.eq_cons
  rcases List.append_eq_append_iff.1 hwhole with ⟨kept, rfl, -⟩ | ⟨kept, hbehind, hrest⟩
  · exact absurd (List.prefix_append _ kept) hnot
  · cases behind with
    | nil => rfl
    | cons b behind =>
      cases kept with
      | nil => exact absurd ⟨[], by rw [List.append_nil, hbehind, List.append_nil]⟩ hnot
      | cons k kept =>
        -- the first letter of the word is not behind it
        obtain rfl : 'i' = k := (List.cons.inj hrest).1
        have hmem : 'i' ∈ t ++ [quote] ++ mark.toList := by
          rw [show t ++ [quote] ++ mark.toList = behind ++ 'i' :: kept from (List.cons.inj hbehind).2]
          exact List.mem_append_right _ List.mem_cons_self
        rcases List.mem_append.1 hmem with hmem | hmem
        · rcases List.mem_append.1 hmem with hmem | hmem
          · exact absurd hmem hstart.i_notMem_tail
          · exact absurd (List.mem_singleton.1 hmem).symm hquote.ne_i
        · exact absurd hmem i_notMem_mark

/-- Behind the mark of an import, the next one is ahead. -/
theorem IsAhead.append {before start later : List Char} {quote : Char} (hstart : IsImportStart start)
    (hquote : IsQuote quote) (h : IsAhead before (start ++ quote :: (mark.toList ++ later))) :
    IsAhead (before ++ (start ++ [quote]) ++ mark.toList) later := by
  intro head start' quote' part rest hlater hends hhead hstart' hquote'
  have hwhole : start ++ quote :: (mark.toList ++ later) =
      (start ++ quote :: (mark.toList ++ part)) ++ (mark.toList ++ rest) := by
    rw [hlater, List.append_assoc, List.cons_append, List.append_assoc]
  have hends' : before ++ (start ++ quote :: (mark.toList ++ part)) = head ++ (start' ++ [quote']) := by
    rw [← hends]
    simp only [List.append_assoc, List.cons_append, List.nil_append]
  obtain ⟨behind, rfl⟩ := h head start' quote' _ rest hwhole hends' hhead hstart' hquote'
  rw [List.append_assoc] at hends hends' ⊢
  have hpart := List.append_cancel_left hends'
  obtain ⟨kept, hkept⟩ : start ++ [quote] ++ mark.toList <+: behind := by
    by_contra hnot
    obtain rfl := hstart.eq_nil_of_begins hquote hpart hstart' hnot
    obtain ⟨-, -, hrest⟩ := hstart.unique hstart' hquote hquote' hpart
    exact absurd (List.append_eq_nil_iff.1 hrest).1 (by decide)
  exact ⟨kept, by rw [List.append_assoc, hkept]⟩

/-- What stripping leaves is the text without the marks behind imports. -/
theorem drops_stripMarksFrom {n : Nat} {before cs : List Char} (hlength : cs.length ≤ n)
    (hahead : IsAhead before cs) :
    Drops EndsInImport before cs (stripMarksFrom n before.getLast? cs) := by
  induction n generalizing before cs with
  | zero =>
    obtain rfl := List.length_eq_zero_iff.1 (Nat.le_zero.1 hlength)
    exact .nil before
  | succ n ih =>
    cases cs with
    | nil => exact .nil before
    | cons c cs =>
      rcases stripMarksFrom_step n before.getLast? c cs with
        ⟨start, quote, later, hbefore, hstart, hquote, hcs, hstep⟩ | ⟨hnone, hstep⟩
      · rw [hstep]
        rw [hcs] at hahead hlength ⊢
        have hlater : later.length ≤ n := by
          simp only [List.length_cons, List.length_append] at hlength
          omega
        have hdrop := ih hlater (hahead.append hstart hquote)
        rw [List.getLast?_append, show mark.toList.getLast? = some ':' from by decide,
          Option.some_or] at hdrop
        rw [List.append_cons, List.append_cons _ _ (stripMarksFrom _ _ _)]
        refine Drops.append (.drop rfl ⟨before, start, quote, rfl, hbefore, hstart, hquote⟩ hdrop)
          fun part rest hlt heq => ?_
        have hpart : part <+: start := List.prefix_of_prefix_length_le ⟨_, heq.symm⟩
          ⟨[quote] ++ (mark.toList ++ later), by simp only [List.append_assoc]⟩ (by
            rw [List.length_append, List.length_singleton] at hlt
            omega)
        rw [← List.append_cons] at heq
        exact hahead.not_endsInImport heq fun c hc => hstart.not_isQuote (hpart.subset hc)
      · rw [hstep]
        refine .keep (fun hmark => ?_) ?_
        · obtain ⟨rest, hrest⟩ := hmark
          have hnot : ¬ EndsInImport (before ++ []) := hahead.not_endsInImport hrest.symm
            fun _ hc => absurd hc List.not_mem_nil
          rwa [List.append_nil] at hnot
        · have hkeep := ih (Nat.le_of_succ_le_succ hlength) (hahead.cons hnone)
          rwa [List.getLast?_concat] at hkeep

/-! ### By what a module imports -/

/-- The target of a reference has a mark. -/
def IsMarked (r : Reference) : Prop := mark.toList <+: r.target.toList

instance : DecidablePred IsMarked := fun _ => inferInstanceAs (Decidable (_ <+: _))

/-- Takes away the mark of a target. -/
def unmark (r : Reference) : Edit where
  replacement := []
  start := r.literal.start + 1
  stop := r.literal.start + 1 + byteLength mark.toList

/-- A marked target of one of some references begins where a text ends. -/
def BeginsTarget (references : List Reference) (before : List Char) : Prop :=
  ∃ r ∈ references, r.IsMarked ∧ r.literal.start + 1 = byteLength before

theorem byteLength_lt_of_length_lt {part part' rest rest' : List Char}
    (h : part ++ rest = part' ++ rest') (hlt : part.length < part'.length) :
    byteLength part < byteLength part' := by
  obtain ⟨more, rfl⟩ := List.prefix_of_prefix_length_le ⟨rest, h⟩ (List.prefix_append part' rest')
    (Nat.le_of_lt hlt)
  cases more with
  | nil => simp at hlt
  | cons c more =>
    have hpos := Char.utf8Size_pos c
    rw [Text.byteLength_append, Text.byteLength_cons]
    omega

/-- Edits in ascending order that take marks away leave the text without these. -/
theorem drops_replaceFrom {P : List Char → Prop} {es : List Edit} {before cs : List Char}
    (hmarks : ∀ e ∈ es, ∃ part rest, cs = part ++ (mark.toList ++ rest) ∧
      e = ⟨[], byteLength (before ++ part), byteLength (before ++ part ++ mark.toList)⟩)
    (horder : es.Pairwise (·.stop ≤ ·.start))
    (hP : ∀ part rest, cs = part ++ (mark.toList ++ rest) →
      (P (before ++ part) ↔ ∃ e ∈ es, e.start = byteLength (before ++ part))) :
    Drops P before cs (replaceFrom (before ++ cs) (byteLength before) es) := by
  induction es generalizing before cs with
  | nil =>
    rw [Text.replaceFrom_nil]
    refine drops_of_none fun part rest heq h => ?_
    obtain ⟨e, he, -⟩ := (hP part rest heq).1 h
    exact absurd he List.not_mem_nil
  | cons e es ih =>
    obtain ⟨part, rest, rfl, he⟩ := hmarks e List.mem_cons_self
    obtain ⟨hafter, horder⟩ := List.pairwise_cons.1 horder
    have hstart : e.start = byteLength (before ++ part) := by rw [he]
    have hstop : e.stop = byteLength (before ++ part ++ mark.toList) := by rw [he]
    have hlonger : e.start < e.stop := by
      rw [hstart, hstop, Text.byteLength_append _ mark.toList]
      exact Nat.lt_add_of_pos_right (by decide)
    have htext : before ++ (part ++ (mark.toList ++ rest)) = before ++ part ++ mark.toList ++ rest := by
      simp only [List.append_assoc]
    -- the edits that follow are behind the mark
    have hrest : Drops P (before ++ part ++ mark.toList) rest
        (replaceFrom (before ++ part ++ mark.toList ++ rest)
          (byteLength (before ++ part ++ mark.toList)) es) := ih
      (fun e' he' => by
        obtain ⟨part', rest', heq, rfl⟩ := hmarks e' (List.mem_cons_of_mem e he')
        have hle : byteLength (before ++ part ++ mark.toList) ≤ byteLength (before ++ part') :=
          hstop ▸ hafter _ he'
        obtain ⟨more, hmore, rfl⟩ := Text.exists_append_of_le (b := rest) (d := mark.toList ++ rest')
          (by rw [← htext, heq, List.append_assoc]) hle
        exact ⟨more, rest', rfl, by rw [hmore]⟩) horder
      (fun part' rest' heq => by
        rw [List.append_assoc before, List.append_assoc before,
          hP _ rest' (by rw [heq]; simp only [List.append_assoc]), List.exists_mem_cons_iff]
        refine or_iff_right fun hfirst => ?_
        rw [← List.append_assoc, ← List.append_assoc, Text.byteLength_append _ part', ← hstop] at hfirst
        omega)
    rw [Text.replaceFrom_cons (by rw [hstart, Text.byteLength_append]), hstop, htext,
      show e.replacement = [] by rw [he], List.append_nil, ← htext]
    refine Drops.append (.drop rfl ((hP part rest rfl).2 ⟨e, List.mem_cons_self, hstart⟩)
      (htext ▸ hrest)) fun part' rest' hlt heq h => ?_
    obtain ⟨e', he', hstart'⟩ := (hP part' rest' heq).1 h
    have hsmall := byteLength_lt_of_length_lt heq.symm hlt
    rcases List.mem_cons.1 he' with rfl | he'
    · rw [hstart, Text.byteLength_append, Text.byteLength_append] at hstart'
      omega
    · have hle := hafter e' he'
      rw [Text.byteLength_append] at hstart hstart'
      omega

/-- A marked target stands behind its quote, with its mark before its end. -/
theorem IsWritten.exists_mark {r : Reference} {code : List Char} (h : r.IsWritten code)
    (hmarked : r.IsMarked) : ∃ before quote rest, IsQuote quote ∧
      code = before ++ [quote] ++ (mark.toList ++ rest) ∧
      r.unmark = ⟨[], byteLength (before ++ [quote]), byteLength (before ++ [quote] ++ mark.toList)⟩ ∧
      r.unmark.stop ≤ r.literal.stop := by
  obtain ⟨quote, hquote, hslice⟩ := h.quoted
  obtain ⟨target, htarget⟩ := hmarked
  obtain ⟨before, rest, hcode, hstart, hstop⟩ := Text.append_of_slice? hslice
  have hsize : quote.utf8Size = 1 := by
    rcases hquote with rfl | rfl
    · rfl
    · rfl
  have hlength : byteLength (before ++ [quote]) = r.literal.start + 1 := by
    rw [Text.byteLength_append, Text.byteLength_cons, Text.byteLength_nil, hsize, hstart]
  rw [← htarget] at hcode hstop
  refine ⟨before, quote, target ++ [quote] ++ rest, hquote.symm, ?_, ?_, ?_⟩
  · rw [hcode]
    simp only [List.append_assoc, List.cons_append, List.nil_append]
  · rw [unmark, Text.byteLength_append _ mark.toList, hlength]
  · simp only [Text.byteLength_cons, Text.byteLength_append] at hstop
    simp only [unmark]
    omega

/-- The marks of imports are taken away one behind the other. -/
theorem pairwise_unmark {references : List Reference} (horder : references.Pairwise Precedes)
    {code : List Char} (hwritten : ∀ r ∈ references, r.IsWritten code) :
    ((references.filter fun r => r.IsMarked).map unmark).Pairwise (·.stop ≤ ·.start) := by
  refine List.pairwise_map.2 ((horder.filter _).imp_of_mem fun {r r'} hr _ h => ?_)
  obtain ⟨hmem, hmarked⟩ := List.mem_filter.1 hr
  obtain ⟨-, -, -, -, -, -, hle⟩ := (hwritten r hmem).exists_mark (of_decide_eq_true hmarked)
  exact hle.trans (h.literal.trans (Nat.le_succ _))

/-- An edit takes away a mark behind a quote. -/
theorem exists_mark_of_mem {references : List Reference} {code : List Char}
    (hwritten : ∀ r ∈ references, r.IsWritten code) {e : Edit}
    (he : e ∈ (references.filter fun r => r.IsMarked).map unmark) :
    ∃ before quote rest, IsQuote quote ∧ code = before ++ [quote] ++ (mark.toList ++ rest) ∧
      e = ⟨[], byteLength (before ++ [quote]), byteLength (before ++ [quote] ++ mark.toList)⟩ := by
  obtain ⟨r, hr, rfl⟩ := List.mem_map.1 he
  obtain ⟨hmem, hmarked⟩ := List.mem_filter.1 hr
  obtain ⟨before, quote, rest, hquote, hcode, hunmark, -⟩ :=
    (hwritten r hmem).exists_mark (of_decide_eq_true hmarked)
  exact ⟨before, quote, rest, hquote, hcode, hunmark⟩

/-- A marked target begins where an edit takes its mark away. -/
theorem beginsTarget_iff {references : List Reference} {before : List Char} :
    BeginsTarget references before ↔
      ∃ e ∈ (references.filter fun r => r.IsMarked).map unmark, e.start = byteLength before := by
  constructor
  · rintro ⟨r, hr, hmarked, hstart⟩
    exact ⟨r.unmark, List.mem_map_of_mem (List.mem_filter.2 ⟨hr, decide_eq_true hmarked⟩), hstart⟩
  · rintro ⟨e, he, hstart⟩
    obtain ⟨r, hr, rfl⟩ := List.mem_map.1 he
    exact ⟨r, (List.mem_filter.1 hr).1, of_decide_eq_true (List.mem_filter.1 hr).2, hstart⟩

/-- **Stripping takes away the marks of a module's imports and no others exactly if each mark
that stands behind the text of an import opens the target of one, and the other way round.**
All that stripping does not take away is left as it is. -/
theorem strips_targets_iff {code : String} {found : Scan} (hscan : scan {} code = .ok found)
    (hmark : code.toList.head? ≠ some '\ufeff') :
    stripMarks code = String.ofList (replaceAll code.toList
        ((found.references.filter fun r => r.IsMarked).map unmark)) ↔
      ∀ before rest, code.toList = before ++ (mark.toList ++ rest) →
        (EndsInImport before ↔ BeginsTarget found.references before) := by
  obtain ⟨hwritten, horder⟩ := scan_precedes hmark hscan
  set es := (found.references.filter fun r => r.IsMarked).map unmark
  have hbehind : BehindQuotes fun before =>
      before <+: code.toList ∧ BeginsTarget found.references before := by
    rintro before ⟨⟨rest, hrest⟩, h⟩
    obtain ⟨e, he, hstart⟩ := beginsTarget_iff.1 h
    obtain ⟨before', quote, rest', hquote, hcode, rfl⟩ := exists_mark_of_mem hwritten he
    obtain rfl := Text.eq_of_append_eq (hrest.trans hcode) hstart.symm
    exact ⟨quote, hquote, List.getLast?_concat⟩
  have hdrops : Drops (fun before => before <+: code.toList ∧ BeginsTarget found.references before)
      [] code.toList (replaceAll code.toList es) := by
    refine @drops_replaceFrom _ _ [] _ (fun e he => ?_) (pairwise_unmark horder hwritten)
      fun part rest heq => ?_
    · obtain ⟨before, quote, rest, -, hcode, he⟩ := exists_mark_of_mem hwritten he
      exact ⟨before ++ [quote], rest, hcode, he⟩
    · rw [List.nil_append, ← beginsTarget_iff]
      exact and_iff_right ⟨_, heq.symm⟩
  have hstrips := drops_stripMarksFrom (Nat.le_of_eq String.length_toList) (isAhead_nil code.toList)
  rw [List.getLast?_nil] at hstrips
  rw [stripMarks, String.ofList_inj, hstrips.eq_iff behindQuotes_endsInImport hbehind hdrops]
  refine forall_congr' fun before => forall_congr' fun rest => imp_congr_right fun heq => ?_
  exact iff_congr Iff.rfl (and_iff_right ⟨_, heq.symm⟩)

/-- Imports of marked targets, and a string that only looks like one of these. -/
def markedImports : String :=
  "import 'component:../o/index.js'\nconst s = 'component:keep'\nimport(\"component:./x.js\")\n"

set_option maxRecDepth 100000 in
theorem strips_targets_of_markedImports : ∃ found, scan {} markedImports = .ok found ∧
    markedImports.toList.head? ≠ some '\ufeff' ∧
    stripMarks markedImports =
      "import '../o/index.js'\nconst s = 'component:keep'\nimport(\"./x.js\")\n" ∧
    ∀ before rest, markedImports.toList = before ++ (mark.toList ++ rest) →
      (EndsInImport before ↔ BeginsTarget found.references before) := by
  have hedits : (scan {} markedImports).toOption.map
      (fun found => (found.references.filter fun r => r.IsMarked).map unmark) =
        some [⟨[], 8, 18⟩, ⟨[], 68, 78⟩] := by
    decide +kernel
  obtain ⟨found, hfound, hedits⟩ := exists_scan hedits
  have hstripped : stripMarks markedImports =
      "import '../o/index.js'\nconst s = 'component:keep'\nimport(\"./x.js\")\n" := by
    decide +kernel
  have hmark : markedImports.toList.head? ≠ some '\ufeff' := by decide
  refine ⟨found, hfound, hmark, hstripped, (strips_targets_iff hfound hmark).1 ?_⟩
  rw [hedits, hstripped]
  decide +kernel

set_option maxRecDepth 100000 in
/-- **Stripping and the imports of a module come apart** in both ways: a string loses a mark,
and a target that a name is bound from keeps it. -/
theorem strips_other_marks :
    let quoted := "const s = \"import 'component:x'\"\n"
    let bound := "import W from 'component:./w.js'\n"
    (scan {} quoted).toOption.map (·.references.map (·.target)) = some [] ∧
      stripMarks quoted = "const s = \"import 'x'\"\n" ∧
      (scan {} bound).toOption.map (·.references.map (·.target)) = some ["component:./w.js"] ∧
      stripMarks bound = bound := by
  decide +kernel

end Reference
end ElementBuild
