/-
# The folder and the stem of a component's target

A target without its ending is taken apart behind its last slashes first: behind the last one
of them where a slash is left with a folder before it and a stem after it
(`parts_eq_some_iff`).  An empty segment at the end leaves none there, so the search goes on
further out, and the slash that was passed becomes a part of the folder or of the stem.  So the
two are the last segments of the target if and only if these are not empty
(`parts_are_last_segments_iff`).
-/
import ElementBuild.Reference.Kind
import ElementBuild.Proofs.Path.Ancestors
import Mathlib.Data.List.Basic
import Mathlib.Data.Option.Basic

namespace ElementBuild
namespace Target

theorem dropSuffix?_eq_some_iff {suffix cs rest : List Char} :
    dropSuffix? suffix cs = some rest ↔ cs = rest ++ suffix := by
  rw [dropSuffix?, Option.map_eq_some_iff]
  constructor
  · rintro ⟨reversed, hprefix, rfl⟩
    rw [List.isPrefixOf?_eq_some_iff_append_eq] at hprefix
    simpa using congrArg List.reverse hprefix.symm
  · rintro rfl
    exact ⟨rest.reverse, by simp [List.isPrefixOf?_eq_some_iff_append_eq], List.reverse_reverse _⟩

variable {cs folder stem : List Char}

theorem isLine_iff : isLine cs = true ↔ '\n' ∉ cs := by
  simp [isLine]

/-! ### The first slash that takes a text apart -/

/-- Only one line can be taken apart. -/
theorem line_of_partsBelow? {passed : List Char} {parts : List Char × List Char}
    (h : partsBelow? passed cs = some parts) : cs ≠ [] ∧ isLine cs = true := by
  induction cs generalizing passed with
  | nil => cases h
  | cons c cs ih =>
    rw [partsBelow?] at h
    split at h
    · cases h
    · rename_i hline
      have hrest : isLine cs = true := by
        split at h
        · rename_i hsplit
          exact hsplit.2.2.2
        · exact (ih h).2
      refine ⟨List.cons_ne_nil c cs, isLine_iff.2 ?_⟩
      rw [List.mem_cons, not_or]
      exact ⟨Ne.symm hline, isLine_iff.1 hrest⟩

/-- A slash behind a folder takes a text apart there, or it cannot be taken apart at all. -/
theorem partsBelow?_slash {passed : List Char} (hpassed : passed ≠ []) :
    partsBelow? passed ('/' :: cs) = some (folder, stem) ↔
      folder = passed.reverse ∧ stem = cs ∧ cs ≠ [] ∧ isLine cs = true := by
  rw [partsBelow?, if_neg (by decide)]
  split
  · rename_i hsplit
    rw [Option.some.injEq, Prod.mk.injEq, eq_comm, @eq_comm _ cs, and_iff_left hsplit.2.2]
  · rename_i hsplit
    refine iff_of_false (fun hlater => ?_) fun hparts => ?_
    · exact hsplit ⟨rfl, hpassed, line_of_partsBelow? hlater⟩
    · exact hsplit ⟨rfl, hpassed, hparts.2.2⟩

/-- Behind a folder that is not empty, the first slash takes a text apart. -/
theorem partsBelow?_of_ne_nil {passed : List Char} (hpassed : passed ≠ []) :
    partsBelow? passed cs = some (folder, stem) ↔ ∃ rest, cs = rest ++ '/' :: stem ∧
      '/' ∉ rest ∧ folder = passed.reverse ++ rest ∧ stem ≠ [] ∧ '\n' ∉ cs := by
  induction cs generalizing passed with
  | nil => simp [partsBelow?]
  | cons c cs ih =>
    by_cases hslash : c = '/'
    · rw [hslash, partsBelow?_slash hpassed]
      constructor
      · rintro ⟨rfl, rfl, hstem, hline⟩
        exact ⟨[], rfl, List.not_mem_nil, (List.append_nil _).symm, hstem,
          by simpa using isLine_iff.1 hline⟩
      · rintro ⟨rest, heq, hrest, rfl, hstem, hlines⟩
        cases rest with
        | nil =>
          obtain rfl := (List.cons.inj heq).2
          exact ⟨List.append_nil _, rfl, hstem,
            isLine_iff.2 fun h => hlines (List.mem_cons_of_mem _ h)⟩
        | cons d rest => exact absurd ((List.cons.inj heq).1 ▸ List.mem_cons_self) hrest
    by_cases hline : c = '\n'
    · rw [partsBelow?, if_pos hline]
      exact iff_of_false (by simp) fun ⟨_, _, _, _, _, h⟩ => h (hline ▸ List.mem_cons_self)
    rw [partsBelow?, if_neg hline, if_neg fun h => hslash h.1, ih (List.cons_ne_nil c passed)]
    constructor
    · rintro ⟨rest, rfl, hrest, rfl, hstem, hlines⟩
      refine ⟨c :: rest, rfl, ?_, by simp, hstem, ?_⟩
      · simpa [hrest] using Ne.symm hslash
      · simpa [Ne.symm hline] using hlines
    · rintro ⟨rest, heq, hrest, rfl, hstem, hlines⟩
      cases rest with
      | nil => exact absurd (List.cons.inj heq).1 hslash
      | cons d rest =>
        obtain ⟨rfl, rfl⟩ := List.cons.inj heq
        rw [List.mem_cons, not_or] at hrest hlines
        exact ⟨rest, rfl, hrest.2, by simp, hstem, hlines.2⟩

/-- A text is taken apart at the first slash that leaves a folder before it; only the first
character of the folder may be a slash. -/
theorem partsBelow?_eq_some_iff : partsBelow? [] cs = some (folder, stem) ↔
    cs = folder ++ '/' :: stem ∧ folder ≠ [] ∧ '/' ∉ folder.tail ∧ stem ≠ [] ∧ '\n' ∉ cs := by
  cases cs with
  | nil => simp [partsBelow?]
  | cons c cs =>
    have hfirst : ¬ (c = '/' ∧ ([] : List Char) ≠ [] ∧ cs ≠ [] ∧ isLine cs = true) :=
      fun h => h.2.1 rfl
    rw [partsBelow?, if_neg hfirst]
    by_cases hline : c = '\n'
    · rw [if_pos hline]
      exact iff_of_false (by simp) fun ⟨_, _, _, _, h⟩ => h (hline ▸ List.mem_cons_self)
    rw [if_neg hline, partsBelow?_of_ne_nil (List.cons_ne_nil c [])]
    constructor
    · rintro ⟨rest, rfl, hrest, rfl, hstem, hlines⟩
      exact ⟨rfl, List.cons_ne_nil _ _, hrest, hstem, by simpa [Ne.symm hline] using hlines⟩
    · rintro ⟨heq, hfolder, hslash, hstem, hlines⟩
      obtain ⟨d, rest, rfl⟩ := List.exists_cons_of_ne_nil hfolder
      obtain ⟨rfl, rfl⟩ := List.cons.inj heq
      rw [List.mem_cons, not_or] at hlines
      exact ⟨rest, rfl, hslash, rfl, hstem, hlines.2⟩

/-! ### The last slash behind which there is one -/

/-- What stands behind the last slash that a text can be taken apart behind. -/
theorem partsAfterSlash?_eq_some_iff {parts : List Char × List Char} :
    partsAfterSlash? cs = some parts ↔ ∃ above rest, cs = above ++ '/' :: rest ∧ '\n' ∉ above ∧
      partsAfterSlash? rest = none ∧ partsBelow? [] rest = some parts := by
  induction cs with
  | nil => simp [partsAfterSlash?]
  | cons c cs ih =>
    rw [partsAfterSlash?]
    by_cases hline : c = '\n'
    · rw [if_pos hline]
      refine iff_of_false (by simp) ?_
      rintro ⟨above, rest, heq, habove, -⟩
      cases above with
      | nil => exact absurd ((List.cons.inj heq).1.symm.trans hline) (by decide)
      | cons d above =>
        exact habove ((List.cons.inj heq).1.symm.trans hline ▸ List.mem_cons_self)
    rw [if_neg hline]
    constructor
    · intro h
      rcases (Option.orElse_eq_some _ _ _).1 h with hlater | ⟨hnone, hhere⟩
      · obtain ⟨above, rest, rfl, habove, hrest⟩ := ih.1 hlater
        exact ⟨c :: above, rest, rfl, by simp [Ne.symm hline, habove], hrest⟩
      · split at hhere
        · rename_i hslash
          exact ⟨[], cs, by rw [hslash]; rfl, List.not_mem_nil, hnone, hhere⟩
        · cases hhere
    · rintro ⟨above, rest, heq, habove, hnone, hrest⟩
      cases above with
      | nil =>
        obtain ⟨rfl, rfl⟩ := List.cons.inj heq
        rw [hnone, if_pos rfl]
        exact hrest
      | cons d above =>
        obtain ⟨rfl, rfl⟩ := List.cons.inj heq
        rw [List.mem_cons, not_or] at habove
        rw [ih.2 ⟨above, rest, rfl, habove.2, hnone, hrest⟩]
        rfl

/-! ### The last segments -/

/-- What stands before the last segments of a text: nothing, or what ends in a slash. -/
def IsAbove (above : List Char) : Prop := above = [] ∨ above.getLast? = some '/'

theorem isAbove_iff {above : List Char} :
    IsAbove above ↔ above = [] ∨ ∃ before, above = before ++ ['/'] := by
  rw [IsAbove, List.getLast?_eq_some_iff]

/-- The parts of a text are found in its shortest ending, from a slash or from the whole text,
that can be taken apart. -/
theorem parts_eq_some_iff {parts : List Char × List Char} :
    (partsAfterSlash? cs <|> partsBelow? [] cs) = some parts ↔
      ∃ above rest, cs = above ++ rest ∧ IsAbove above ∧ '\n' ∉ above ∧
        partsAfterSlash? rest = none ∧ partsBelow? [] rest = some parts := by
  rw [Option.orElse_eq_some]
  constructor
  · rintro (hlater | ⟨hnone, hwhole⟩)
    · obtain ⟨above, rest, rfl, hlines, hrest⟩ := partsAfterSlash?_eq_some_iff.1 hlater
      refine ⟨above ++ ['/'], rest, by simp, isAbove_iff.2 (.inr ⟨above, rfl⟩), ?_, hrest⟩
      simpa using hlines
    · exact ⟨[], cs, rfl, .inl rfl, List.not_mem_nil, hnone, hwhole⟩
  · rintro ⟨above, rest, rfl, habove, hlines, hnone, hrest⟩
    rcases isAbove_iff.1 habove with rfl | ⟨before, rfl⟩
    · exact .inr ⟨hnone, hrest⟩
    · rw [List.mem_append, not_or] at hlines
      exact .inl (partsAfterSlash?_eq_some_iff.2
        ⟨before, rest, by simp, hlines.1, hnone, hrest⟩)

/-- Two segments that are not empty are the parts of a text that ends in them. -/
theorem parts_of_segments {above : List Char} (habove : IsAbove above) (hfolder : folder ≠ [])
    (hslash : '/' ∉ folder) (hstem : stem ≠ []) (hslash' : '/' ∉ stem)
    (hlines : '\n' ∉ above ++ (folder ++ '/' :: stem)) :
    (partsAfterSlash? (above ++ (folder ++ '/' :: stem)) <|>
      partsBelow? [] (above ++ (folder ++ '/' :: stem))) = some (folder, stem) := by
  rw [List.mem_append, not_or] at hlines
  refine parts_eq_some_iff.2 ⟨above, _, rfl, habove, hlines.1, ?_, ?_⟩
  · -- the slash between the two is the only one, and there is none in the stem
    rw [Option.eq_none_iff_forall_ne_some]
    intro parts hparts
    obtain ⟨before, rest, heq, -, -, hrest⟩ := partsAfterSlash?_eq_some_iff.1 hparts
    obtain ⟨-, -, rfl⟩ := (List.append_cons_inj_of_notMem hslash hslash').1 heq
    rw [(partsBelow?_eq_some_iff.1 hrest).1] at hslash'
    simp at hslash'
  · exact partsBelow?_eq_some_iff.2
      ⟨rfl, hfolder, fun h => hslash (List.mem_of_mem_tail h), hstem, hlines.2⟩

/-- The pieces of a text end in two exactly if it has these two behind its last slashes. -/
theorem pieces_eq_concat_iff :
    (∃ before, Path.pieces cs = before ++ [folder, stem]) ↔
      ∃ above, cs = above ++ (folder ++ '/' :: stem) ∧ IsAbove above ∧
        '/' ∉ folder ∧ '/' ∉ stem := by
  constructor
  · rintro ⟨before, hpieces⟩
    have hslash : ∀ p ∈ [folder, stem], '/' ∉ p := fun p hp =>
      Path.slash_not_mem_of_mem_pieces (hpieces ▸ List.mem_append_right before hp)
    have hcs := Path.joinPieces_pieces cs
    rw [hpieces] at hcs
    by_cases hbefore : before = []
    · subst hbefore
      exact ⟨[], hcs.symm, .inl rfl, hslash _ (by simp), hslash _ (by simp)⟩
    · rw [Path.joinPieces_append hbefore (List.cons_ne_nil _ _)] at hcs
      exact ⟨Path.joinPieces before ++ ['/'], by simp [← hcs, Path.joinPieces],
        isAbove_iff.2 (.inr ⟨_, rfl⟩), hslash _ (by simp), hslash _ (by simp)⟩
  · rintro ⟨above, rfl, habove, hfolder, hstem⟩
    rcases isAbove_iff.1 habove with rfl | ⟨before, rfl⟩
    · exact ⟨[], by rw [List.nil_append, Path.pieces_append_slash, Path.pieces_of_not_mem hfolder,
        Path.pieces_of_not_mem hstem]; rfl⟩
    · refine ⟨Path.pieces before, ?_⟩
      rw [List.append_assoc, List.singleton_append, Path.pieces_append_slash,
        Path.pieces_append_slash, Path.pieces_of_not_mem hfolder, Path.pieces_of_not_mem hstem]
      rfl

/-- The last two segments of a target are a folder and a file with the ending of a type. -/
def EndsInFile (type target : String) : Prop :=
  ∃ above folder stem, Path.pieces target.toList = above ++ [folder, stem ++ '.' :: type.toList] ∧
    folder ≠ [] ∧ stem ≠ []

theorem componentParts?_eq_some_iff {type target folder stem : String} :
    componentParts? type target = some (folder, stem) ↔ ∃ text,
      target.toList = text ++ '.' :: type.toList ∧
        (partsAfterSlash? text <|> partsBelow? [] text) = some (folder.toList, stem.toList) := by
  rw [componentParts?, Option.bind_eq_some_iff]
  refine exists_congr fun text => ?_
  rw [dropSuffix?_eq_some_iff, Option.map_eq_some_iff]
  refine and_congr_right fun _ => ?_
  constructor
  · rintro ⟨⟨folder', stem'⟩, hparts, heq⟩
    obtain ⟨rfl, rfl⟩ := Prod.mk.inj heq
    rw [hparts, String.toList_ofList, String.toList_ofList]
  · exact fun hparts => ⟨_, hparts, by simp⟩

/-- **The parts of a component's target.**  The folder and the stem are not empty, they stand
with a slash between them and the type behind a dot at the end of the target, what stands before
them is nothing or ends in a slash, and no slash is in the folder but for one that opens it.
There is no slash in either of them if and only if the last two segments of the target are not
empty. -/
theorem parts_are_last_segments_iff {type target folder stem : String} (htype : '/' ∉ type.toList)
    (h : componentParts? type target = some (folder, stem)) :
    folder ≠ "" ∧ stem ≠ "" ∧ '/' ∉ folder.toList.tail ∧
      (∃ above : String, target = above ++ folder ++ "/" ++ stem ++ "." ++ type ∧
        (above = "" ∨ above.toList.getLast? = some '/')) ∧
      ('/' ∉ folder.toList ∧ '/' ∉ stem.toList ↔ EndsInFile type target) := by
  obtain ⟨text, htarget, hparts⟩ := componentParts?_eq_some_iff.1 h
  obtain ⟨above, rest, rfl, habove, hlines, -, hrest⟩ := parts_eq_some_iff.1 hparts
  obtain ⟨rfl, hfolder, hopens, hstem, hlines'⟩ := partsBelow?_eq_some_iff.1 hrest
  refine ⟨fun hempty => hfolder (by rw [hempty]; rfl), fun hempty => hstem (by rw [hempty]; rfl),
    hopens, ⟨String.ofList above, ?_, ?_⟩, ?_⟩
  · rw [← String.toList_inj, htarget]
    simp
  · rw [String.toList_ofList]
    exact habove.imp_left fun hnil => by rw [hnil]
  constructor
  · rintro ⟨hslash, hslash'⟩
    have hending : '/' ∉ stem.toList ++ '.' :: type.toList := by simp [hslash', htype]
    obtain ⟨before, hpieces⟩ := pieces_eq_concat_iff.2 ⟨above, rfl, habove, hslash, hending⟩
    refine ⟨before, folder.toList, stem.toList, ?_, hfolder, hstem⟩
    rw [htarget, ← hpieces]
    simp
  · rintro ⟨before, folder', stem', hpieces, hfolder', hstem'⟩
    obtain ⟨above', heq, habove', hslash, hending⟩ := pieces_eq_concat_iff.1 ⟨before, hpieces⟩
    rw [List.mem_append, not_or] at hending
    have htext : above ++ (folder.toList ++ '/' :: stem.toList) =
        above' ++ (folder' ++ '/' :: stem') := by
      rw [← List.append_left_inj ('.' :: type.toList), ← htarget, heq]
      simp
    have hline : '\n' ∉ above' ++ (folder' ++ '/' :: stem') := by
      rw [← htext, List.mem_append, not_or]
      exact ⟨hlines, hlines'⟩
    have hsame := parts_of_segments habove' hfolder' hslash hstem' hending.1 hline
    rw [← htext, hparts, Option.some.injEq, Prod.mk.injEq] at hsame
    rw [hsame.1, hsame.2]
    exact ⟨hslash, hending.1⟩

/-- Slashes that are doubled further up do no harm. -/
theorem parts_are_last_segments_of_scopedWidget :
    componentParts? "svelte" "//@scope//shared/widget/my.index.svelte" =
        some ("widget", "my.index") ∧
      '/' ∉ "widget".toList ∧ '/' ∉ "my.index".toList := by
  have hparts : componentParts? "svelte" "//@scope//shared/widget/my.index.svelte" =
      some ("widget", "my.index") := by decide
  have hlast := (parts_are_last_segments_iff (by decide) hparts).2.2.2.2
  have hends : EndsInFile "svelte" "//@scope//shared/widget/my.index.svelte" :=
    ⟨["", "", "@scope", "", "shared"].map String.toList, "widget".toList, "my.index".toList,
      by decide⟩
  exact ⟨hparts, hlast.2 hends⟩

/-- **An empty segment ends up in the stem or in the folder**: a slash that is doubled before the
last segment opens the stem, and one that is doubled at the start of the target is the folder. -/
theorem slash_in_parts_of_doubledSlash :
    componentParts? "svelte" "a//b.svelte" = some ("a", "/b") ∧ '/' ∈ "/b".toList ∧
      componentParts? "svelte" "//x.svelte" = some ("/", "x") ∧ '/' ∈ "/".toList := by
  decide

end Target
end ElementBuild
