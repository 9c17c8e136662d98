/-
# Positions stand for offsets

A text is lines with a line feed behind each of them but the last one.  So a beginning of it is
whole lines and then a part of the next one (`exists_unlines`), and the position behind it counts
first these lines and then the characters of the part (`endPosition_unlines`).

The position of an offset is the one behind the longest beginning that takes no more bytes.
Therefore it denotes the last character boundary that is not above the offset, and of two
boundaries the later one has the later position (`denotes_last_boundary`).
-/
import ElementBuild.Proofs.Splice
import ElementBuild.Proofs.Split
import ElementBuild.Text.Position
import Mathlib.Data.Prod.Lex
import Mathlib.Data.String.Basic
import Mathlib.Order.Bounds.Basic

namespace ElementBuild
namespace Text

/-- Lines as a text, with a line feed behind each of them. -/
def unlines (ls : List (List Char)) : List Char := ls.flatMap (· ++ ['\n'])

/-- Positions are ordered by line, and on a line by column. -/
def Position.key (p : Position) : Nat ×ₗ Nat := toLex (p.line, p.column)

/-- A position denotes a byte offset of a text: the one behind the lines before its own, with
their line feeds, and as many characters of its own line as its column says. -/
def Position.Denotes (code : String) (p : Position) (offset : Nat) : Prop :=
  ∃ before line after, code.toList.splitOn '\n' = before ++ line :: after ∧
    p.line = before.length + 1 ∧ p.column ≤ line.length ∧
    offset = String.utf8Len (unlines before) + String.utf8Len (line.take p.column)

/-! ### Lines -/

theorem lines_eq_splitOn (cs : List Char) : lines cs = cs.splitOn '\n' :=
  eq_splitOn rfl (fun cs => by rw [lines, if_pos rfl])
    (fun c cs l ls hc h => by rw [lines, if_neg hc, h]) cs

@[simp] theorem unlines_cons (line : List Char) (ls : List (List Char)) :
    unlines (line :: ls) = line ++ '\n' :: unlines ls := by
  rw [unlines, List.flatMap_cons, List.append_assoc]
  rfl

/-- A text is whole lines, each with a line feed behind it, and then a line without one. -/
theorem exists_unlines (cs : List Char) : ∃ (whole : List (List Char)) (last : List Char),
    cs = unlines whole ++ last ∧ (∀ line ∈ whole, '\n' ∉ line) ∧ '\n' ∉ last := by
  induction cs with
  | nil => exact ⟨[], [], rfl, List.forall_mem_nil _, List.not_mem_nil⟩
  | cons c cs ih =>
    obtain ⟨whole, last, rfl, hwhole, hlast⟩ := ih
    by_cases hc : c = '\n'
    · exact ⟨[] :: whole, last, by simp [hc],
        List.forall_mem_cons.2 ⟨List.not_mem_nil, hwhole⟩, hlast⟩
    · -- the character joins the first line, which is the last one if there is no other
      cases whole with
      | nil => exact ⟨[], c :: last, rfl, hwhole, by simp [Ne.symm hc, hlast]⟩
      | cons line whole =>
        obtain ⟨hline, hwhole⟩ := List.forall_mem_cons.1 hwhole
        exact ⟨(c :: line) :: whole, last, by simp,
          List.forall_mem_cons.2 ⟨by simp [Ne.symm hc, hline], hwhole⟩, hlast⟩

theorem splitOn_unlines_append {whole : List (List Char)} (h : ∀ line ∈ whole, '\n' ∉ line)
    (rest : List Char) :
    (unlines whole ++ rest).splitOn '\n' = whole ++ rest.splitOn '\n' := by
  induction whole with
  | nil => rfl
  | cons line whole ih =>
    obtain ⟨hline, hwhole⟩ := List.forall_mem_cons.1 h
    rw [unlines_cons, List.append_assoc, List.cons_append,
      List.splitOn_append_cons_self_of_not_mem hline, ih hwhole, List.cons_append]

/-- What stands before the first line feed of a text joins its first line. -/
theorem splitOn_append_of_not_mem {part : List Char} (h : '\n' ∉ part) (rest : List Char) :
    (part ++ rest).splitOn '\n' = (rest.splitOn '\n').modifyHead (part ++ ·) := by
  induction part with
  | nil => cases hrest : rest.splitOn '\n' <;> simp [hrest]
  | cons c part ih =>
    rw [List.mem_cons, not_or] at h
    rw [List.cons_append, List.splitOn_cons_eq_if_modifyHead, if_neg (by simpa using Ne.symm h.1),
      ih h.2, List.modifyHead_modifyHead]
    rfl

/-! ### The position behind a text -/

theorem count_newline_unlines {whole : List (List Char)} (h : ∀ line ∈ whole, '\n' ∉ line) :
    (unlines whole).count '\n' = whole.length := by
  induction whole with
  | nil => rfl
  | cons line whole ih =>
    obtain ⟨hline, hwhole⟩ := List.forall_mem_cons.1 h
    rw [unlines_cons, List.count_append, List.count_cons_self,
      List.count_eq_zero_of_not_mem hline, ih hwhole, List.length_cons, Nat.zero_add]

/-- Behind whole lines and a part of the next one, the line is that of the part. -/
theorem endPosition_unlines {whole : List (List Char)} {last : List Char}
    (h : ∀ line ∈ whole, '\n' ∉ line) (hlast : '\n' ∉ last) :
    endPosition (unlines whole ++ last) = ⟨whole.length + 1, last.length⟩ := by
  have hline : (unlines whole ++ last).count '\n' = whole.length := by
    rw [List.count_append, count_newline_unlines h, List.count_eq_zero_of_not_mem hlast,
      Nat.add_zero]
  have hcolumn : (unlines whole ++ last).reverse.takeWhile (· ≠ '\n') = last.reverse := by
    have hreverse : ∀ c ∈ last.reverse, decide (c ≠ '\n') = true := fun c hc =>
      decide_eq_true fun heq => hlast (heq ▸ List.mem_reverse.1 hc)
    rw [List.reverse_append, List.takeWhile_append_of_pos hreverse]
    -- what stands before the last line is nothing, or ends with a line feed
    rcases List.eq_nil_or_concat whole with rfl | ⟨init, line, rfl⟩
    · simp [unlines]
    · simp [unlines]
  rw [endPosition, hline, hcolumn, List.length_reverse]

/-- A longer beginning ends at a later position. -/
theorem endPosition_lt_append (cs : List Char) {more : List Char} (h : more ≠ []) :
    (endPosition cs).key < (endPosition (cs ++ more)).key := by
  obtain ⟨whole, last, rfl, hwhole, hlast⟩ := exists_unlines cs
  by_cases hfeed : '\n' ∈ more
  · -- a line feed more is a line more
    refine Prod.Lex.toLex_lt_toLex.2 (.inl ?_)
    have hcount := List.count_pos_iff.2 hfeed
    simp only [endPosition, List.count_append]
    omega
  · have hboth : '\n' ∉ last ++ more := by simp [hlast, hfeed]
    have hlength := List.length_pos_iff.2 h
    rw [List.append_assoc, endPosition_unlines hwhole hlast, endPosition_unlines hwhole hboth]
    refine Prod.Lex.toLex_lt_toLex.2 (.inr ⟨rfl, ?_⟩)
    simp only [List.length_append]
    omega

/-- The position behind a beginning of a text denotes the number of its bytes. -/
theorem denotes_endPosition {code : String} {before rest : List Char}
    (h : code.toList = before ++ rest) :
    (endPosition before).Denotes code (String.utf8Len before) := by
  obtain ⟨whole, last, rfl, hwhole, hlast⟩ := exists_unlines before
  obtain ⟨line, after, hrest⟩ := List.exists_cons_of_ne_nil (List.splitOn_ne_nil '\n' rest)
  rw [endPosition_unlines hwhole hlast]
  refine ⟨whole, last ++ line, after, ?_, rfl, by simp, by simp⟩
  rw [h, List.append_assoc, splitOn_unlines_append hwhole, splitOn_append_of_not_mem hlast, hrest,
    List.modifyHead_cons]

/-! ### The boundary below an offset -/

theorem byteLength_eq_utf8Len (cs : List Char) : byteLength cs = String.utf8Len cs := by
  induction cs with
  | nil => rfl
  | cons c cs ih => rw [byteLength_cons, ih, String.utf8Len_cons, Nat.add_comm]

theorem isBoundary_iff_isValid {code : String} {n : Nat} :
    IsBoundary code.toList n ↔ (⟨n⟩ : String.Pos.Raw).IsValid code := by
  rw [String.Pos.Raw.isValid_iff_exists_append]
  constructor
  · rintro ⟨before, rest, h, rfl⟩
    refine ⟨String.ofList before, String.ofList rest, ?_, ?_⟩
    · rw [← String.ofList_append, ← h, String.ofList_toList]
    · rw [String.rawEndPos_ofList, byteLength_eq_utf8Len]
  · rintro ⟨before, rest, rfl, h⟩
    refine ⟨before.toList, rest.toList, String.toList_append, ?_⟩
    rw [byteLength_eq_utf8Len, String.utf8Len_toList]
    exact (congrArg String.Pos.Raw.byteIdx h).symm

/-- A beginning that takes no more bytes than an offset is not longer than the part below it. -/
theorem byteLength_le_floorSplit {before : List Char} {n : Nat} (h : byteLength before ≤ n)
    (rest : List Char) : byteLength before ≤ byteLength (floorSplit (before ++ rest) n).1 := by
  induction before generalizing n with
  | nil => exact Nat.zero_le _
  | cons c before ih =>
    rw [byteLength_cons] at h
    rw [List.cons_append, floorSplit, if_pos (by omega)]
    exact Nat.add_le_add_left (ih (by omega)) _

/-- The part of a text below an offset ends at the last boundary that is not above it. -/
theorem floorSplit_isGreatest (code : String) (offset : Nat) :
    IsGreatest {n | (⟨n⟩ : String.Pos.Raw).IsValid code ∧ n ≤ min offset code.utf8ByteSize}
      (String.utf8Len (floorSplit code.toList offset).1) := by
  have hwhole := floorSplit_append code.toList offset
  rw [← byteLength_eq_utf8Len]
  refine ⟨⟨isBoundary_iff_isValid.1 ⟨_, _, hwhole.symm, rfl⟩, Nat.le_min.2 ⟨?_, ?_⟩⟩, ?_⟩
  · exact byteLength_floorSplit_le _ _
  · rw [← String.utf8Len_toList, ← byteLength_eq_utf8Len]
    conv_rhs => rw [← hwhole, byteLength_append]
    exact Nat.le_add_right _ _
  · rintro n ⟨hvalid, hle⟩
    obtain ⟨before, rest, hcode, rfl⟩ := isBoundary_iff_isValid.2 hvalid
    rw [hcode]
    exact byteLength_le_floorSplit (hle.trans (Nat.min_le_left _ _)) rest

/-- The part below the end of a beginning is that beginning. -/
theorem floorSplit_byteLength (before rest : List Char) :
    floorSplit (before ++ rest) (byteLength before) = (before, rest) := by
  induction before with
  | nil =>
    cases rest with
    | nil => rfl
    | cons c rest =>
      have hpositive := Char.utf8Size_pos c
      rw [List.nil_append, floorSplit, byteLength_nil, if_neg (by omega)]
  | cons c before ih =>
    rw [List.cons_append, floorSplit, byteLength_cons, if_pos (Nat.le_add_right _ _),
      Nat.add_sub_cancel_left, ih]

/-- At the end of a beginning of a text stands the position behind it. -/
theorem positionAt_byteLength {code : String} {before rest : List Char}
    (h : code.toList = before ++ rest) :
    positionAt code (byteLength before) = endPosition before := by
  rw [positionAt, h, floorSplit_byteLength]

/-- Of two boundaries the later one has the later position. -/
theorem strictMonoOn_positionAt (code : String) :
    StrictMonoOn (fun offset => (positionAt code offset).key)
      {n | (⟨n⟩ : String.Pos.Raw).IsValid code} := by
  intro m hm n hn hlt
  obtain ⟨before, rest, hcode, rfl⟩ := isBoundary_iff_isValid.2 hm
  obtain ⟨longer, later, hcode', rfl⟩ := isBoundary_iff_isValid.2 hn
  obtain ⟨more, rfl, -⟩ := exists_append_of_le (hcode.symm.trans hcode') hlt.le
  have hmore : more ≠ [] := by
    rintro rfl
    simp at hlt
  simp only [positionAt_byteLength hcode, positionAt_byteLength hcode']
  exact endPosition_lt_append before hmore

/-- **A position stands for an offset.**  The position of a byte offset lies in the text and
denotes the last character boundary that is not above the offset, which for an offset past the end
is the end; and of two boundaries the later one has the later position. -/
theorem denotes_last_boundary (code : String) :
    (∀ offset, ∃ n, (positionAt code offset).Denotes code n ∧
      IsGreatest {n | (⟨n⟩ : String.Pos.Raw).IsValid code ∧ n ≤ min offset code.utf8ByteSize} n) ∧
    StrictMonoOn (fun offset => (positionAt code offset).key)
      {n | (⟨n⟩ : String.Pos.Raw).IsValid code} :=
  ⟨fun offset => ⟨_, denotes_endPosition (floorSplit_append code.toList offset).symm,
    floorSplit_isGreatest code offset⟩, strictMonoOn_positionAt code⟩

/-- An offset within the last character, of two bytes, has the position before it. -/
example : positionAt "é\nü" 4 = positionAt "é\nü" 3 ∧ positionAt "é\nü" 3 = ⟨2, 0⟩ := by decide

end Text
end ElementBuild
