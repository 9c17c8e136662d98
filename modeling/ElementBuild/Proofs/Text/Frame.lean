/-
# What source frames show

A frame is a text again, and its lines are rows.  The rows above and below the marked one are
slices of the lines of the source, so the number of each is one more than the number of the row
before (`mapIdx_slice`).  The width of the labels is that of the number five lines further on, and
no line that is shown has a greater number, so all labels are of that width
(`length_paddedDigits`).  Then what stands before a line takes as many characters in each row, and
the caret, which is written behind as many blanks, is under the column of the marked line
(`frame_shows_window`).
-/
import ElementBuild.Proofs.Text.Position
import ElementBuild.Text.Frame
import Mathlib.Data.List.Forall2
import Mathlib.Data.List.Intervals

namespace ElementBuild
namespace Text

/-! ### Rows -/

/-- A row that shows a line: a sign, a label, a bar and the line. -/
structure Row where
  sign : String
  label : List Char
  content : List Char

namespace Row

/-- What stands before the line. -/
def head (r : Row) : List Char := r.sign.toList ++ r.label ++ " │ ".toList

/-- The row as it is written. -/
def text (r : Row) : List Char := r.head ++ r.content

/-- The row shows the line of a text that has a number, and its label is that number, padded with
zeros to a width. -/
structure Shows (code : String) (width number : Nat) (r : Row) : Prop where
  content : (code.toList.splitOn '\n')[number - 1]? = some r.content
  length_label : r.label.length = width
  label : ∃ zeros, r.label = List.replicate zeros '0' ++ Nat.toDigits 10 number

end Row

/-- Rows, or an empty one in their place. -/
def orEmpty (rows : List (List Char)) : List (List Char) := if rows = [] then [[]] else rows

/-- A caret under a column. -/
def caretLine (column : Nat) : List Char := List.replicate column ' ' ++ ['▲']

theorem newline_not_mem_caretLine (column : Nat) : '\n' ∉ caretLine column := by
  intro h
  rcases List.mem_append.1 h with h | h
  · exact absurd (List.eq_of_mem_replicate h) (by decide)
  · exact absurd (List.mem_singleton.1 h) (by decide)

/-! ### Labels -/

/-- The digits of a number with zeros before them, as many as a width asks for. -/
def paddedDigits (width number : Nat) : List Char :=
  List.replicate (width - (Nat.toDigits 10 number).length) '0' ++ Nat.toDigits 10 number

theorem toList_paddedNumber (width number : Nat) :
    (paddedNumber width number).toList = paddedDigits width number := by
  have hdigits : (toString number).toList = Nat.toDigits 10 number := by
    rw [Nat.toString_eq_repr, Nat.toList_repr]
  rw [paddedNumber, String.toList_append, String.toList_ofList, ← String.length_toList, hdigits,
    paddedDigits]

/-- A number has no more digits than a greater one, so it is padded to the width of that. -/
theorem length_paddedDigits {number last : Nat} (h : number ≤ last) :
    (paddedDigits (toString last).length number).length = (toString last).length := by
  have hwidth : (toString last).length = (Nat.toDigits 10 last).length := by
    rw [← String.length_toList, Nat.toString_eq_repr, Nat.toList_repr]
  have hlast := (Nat.length_toDigits_le_iff (by decide) Nat.length_toDigits_pos).1
    (Nat.le_refl (Nat.toDigits 10 last).length)
  have hle : (Nat.toDigits 10 number).length ≤ (Nat.toDigits 10 last).length :=
    (Nat.length_toDigits_le_iff (by decide) Nat.length_toDigits_pos).2 (h.trans_lt hlast)
  rw [hwidth, paddedDigits, List.length_append, List.length_replicate]
  omega

theorem newline_not_mem_paddedDigits (width number : Nat) :
    '\n' ∉ paddedDigits width number := by
  rw [paddedDigits, List.mem_append, not_or]
  refine ⟨fun h => absurd (List.eq_of_mem_replicate h) (by decide), fun h => ?_⟩
  exact absurd (Nat.isDigit_of_mem_toDigits (by decide) (by decide) h) (by decide)

/-! ### Slices of lines -/

/-- The part of a list between two numbers, with the numbers counted from one. -/
theorem mapIdx_slice {α β : Type} (ls : List α) (d : α) (f : Nat → α → β) (a b : Nat) :
    ((ls.take b).drop a).mapIdx (fun i x => f (a + 1 + i) x) =
      (List.Ico (a + 1) (min ls.length b + 1)).map
        fun number => f number (ls[number - 1]?.getD d) := by
  refine List.ext_getElem (by simp [Nat.min_comm]) fun i hi hi' => ?_
  have hlength : a + i < ls.length := by simp at hi; omega
  have hnumber : a + 1 + i - 1 = a + i := by omega
  simp [List.Ico, hnumber, hlength]

theorem splitOn_intercalate_newline {rows : List (List Char)} (h : ∀ row ∈ rows, '\n' ∉ row) :
    (['\n'].intercalate rows).splitOn '\n' = orEmpty rows := by
  unfold orEmpty
  split
  · rename_i hnone
    subst hnone
    rfl
  · rename_i hsome
    exact List.splitOn_intercalate '\n' h hsome

/-! ### The rows of a frame -/

/-- The row that a frame has for a line. -/
def rowOf (code : String) (width : Nat) (sign : String) (number : Nat) : Row :=
  ⟨sign, paddedDigits width number, (code.toList.splitOn '\n')[number - 1]?.getD []⟩

/-- The rows for the lines from one number on and below another, none of them marked. -/
def rowsBetween (code : String) (width first stop : Nat) : List Row :=
  (List.Ico first stop).map (rowOf code width "  ")

section

variable {code : String} {width number last first stop : Nat} {sign : String}

theorem newline_not_mem_rowOf (hsign : '\n' ∉ sign.toList) :
    '\n' ∉ (rowOf code width sign number).text := by
  have hbar : '\n' ∉ " │ ".toList := by decide
  simp only [rowOf, Row.text, Row.head, List.mem_append, not_or]
  refine ⟨⟨⟨hsign, newline_not_mem_paddedDigits width number⟩, hbar⟩, ?_⟩
  cases hline : (code.toList.splitOn '\n')[number - 1]? with
  | none => exact List.not_mem_nil
  | some line => exact not_mem_of_mem_splitOn (List.mem_of_getElem? hline)

theorem shows_rowOf (hpositive : 1 ≤ number) (hnumber : number ≤ (code.toList.splitOn '\n').length)
    (hlast : number ≤ last) : (rowOf code (toString last).length sign number).Shows code
      (toString last).length number where
  content := by
    rw [rowOf, List.getElem?_eq_getElem (by omega), Option.getD_some]
  length_label := length_paddedDigits hlast
  label := ⟨_, rfl⟩

/-- What stands before a line takes as many characters as its sign, the common width and the bar. -/
theorem length_head_rowOf (hlast : number ≤ last) :
    (rowOf code (toString last).length sign number).head.length =
      sign.length + (toString last).length + 3 := by
  rw [Row.head, List.length_append, List.length_append, String.length_toList, rowOf,
    length_paddedDigits hlast]
  rfl

theorem shows_rowsBetween (hfirst : 1 ≤ first)
    (hstop : stop ≤ (code.toList.splitOn '\n').length + 1) (hlast : stop ≤ last + 1) :
    List.Forall₂ (Row.Shows code (toString last).length) (List.Ico first stop)
      (rowsBetween code (toString last).length first stop) := by
  rw [rowsBetween, List.forall₂_map_right_iff, List.forall₂_same]
  intro number hnumber
  rw [List.Ico.mem] at hnumber
  exact shows_rowOf (by omega) (by omega) (by omega)

theorem sign_of_mem_rowsBetween {r : Row} (h : r ∈ rowsBetween code width first stop) :
    r.sign = "  " := by
  obtain ⟨number, -, rfl⟩ := List.mem_map.1 h
  rfl

theorem newline_not_mem_rowsBetween :
    ∀ row ∈ (rowsBetween code width first stop).map Row.text, '\n' ∉ row := by
  intro row hrow
  obtain ⟨r, hr, rfl⟩ := List.mem_map.1 hrow
  obtain ⟨number, -, rfl⟩ := List.mem_map.1 hr
  exact newline_not_mem_rowOf (by decide)

end

/-! ### The text of a frame -/

theorem toList_numberedLine (width number : Nat) (content : List Char) :
    (numberedLine width number content).toList =
      (Row.mk "  " (paddedDigits width number) content).text := by
  rw [numberedLine, Row.text, Row.head]
  simp only [String.toList_append, String.toList_ofList, toList_paddedNumber]

theorem toList_numberedLines (code : String) (width a b : Nat) :
    (numberedLines width (a + 1) (((lines code.toList).take b).drop a)).toList =
      ['\n'].intercalate ((rowsBetween code width (a + 1)
        (min (code.toList.splitOn '\n').length b + 1)).map Row.text) := by
  rw [numberedLines, mapIdx_slice _ [] (numberedLine width), String.toList_intercalate,
    lines_eq_splitOn, rowsBetween, List.map_map, List.map_map]
  refine congrArg (List.intercalate ['\n']) (List.map_congr_left fun number _ => ?_)
  exact toList_numberedLine width number _

/-- A frame is the rows above, the marked one, the caret and the rows below. -/
theorem toList_sourceFrame (code : String) {l : Nat} (c : Nat) (hl : 1 ≤ l)
    (hn : l ≤ (code.toList.splitOn '\n').length) :
    let width := (toString (l + 5)).length
    let n := (code.toList.splitOn '\n').length
    let marked := rowOf code width "▶ " l
    (sourceFrame code ⟨l, c⟩).toList =
      ['\n'].intercalate ((rowsBetween code width (max 1 (l - 5)) l).map Row.text) ++ '\n' ::
        (marked.text ++ '\n' :: (caretLine (marked.head.length + c) ++ '\n' :: ['\n'].intercalate
          ((rowsBetween code width (l + 1) (min n (l + 5) + 1)).map Row.text))) := by
  intro width n marked
  have habove := toList_numberedLines code width (l - 1 - 5) (l - 1)
  have hfirst : l - 1 - 5 + 1 = max 1 (l - 5) := by omega
  rw [show min (code.toList.splitOn '\n').length (l - 1) + 1 = l by omega, hfirst] at habove
  have hbelow := toList_numberedLines code width l (l + 5)
  rw [← List.take_drop] at hbelow
  have hmarked : marked.text = "▶ ".toList ++ (paddedNumber width l).toList ++ " │ ".toList ++
      ((lines code.toList)[l - 1]?).getD [] := by
    rw [lines_eq_splitOn, toList_paddedNumber]
    rfl
  have hcaret : caretLine (marked.head.length + c) = List.replicate 2 ' ' ++
      List.replicate width ' ' ++ List.replicate 3 ' ' ++ List.replicate c ' ' ++ ['▲'] := by
    rw [length_head_rowOf (Nat.le_add_right l 5), caretLine]
    simp only [List.replicate_append_replicate]
    rfl
  rw [hmarked, hcaret, ← habove, ← hbelow]
  -- the two sides differ in how they are put together only
  have hfeed : "\n".toList = ['\n'] ∧ "▲\n".toList = ['▲', '\n'] := ⟨rfl, rfl⟩
  have hblanks : "  ".toList = List.replicate 2 ' ' ∧ "   ".toList = List.replicate 3 ' ' :=
    ⟨rfl, rfl⟩
  simp only [sourceFrame, frameWindow, String.toList_append, String.toList_ofList, hfeed, hblanks,
    Nat.sub_add_cancel hl, hfirst, width, List.append_assoc, List.cons_append, List.nil_append]

/-- **A frame shows the window around a line.**  Its rows show, in this order and once each, the
lines before the marked one, at most five, the marked one, and the lines after it, at most five.
All labels have one width.  The caret stands below the marked line, as many characters behind the
place where the line begins as the column says.  Where no line comes before or after the marked
one, a row is left empty. -/
theorem frame_shows_window (code : String) {l : Nat} (c : Nat) (hl : 1 ≤ l)
    (hn : l ≤ (code.toList.splitOn '\n').length) :
    ∃ (width : Nat) (above : List Row) (marked : Row) (below : List Row),
      (sourceFrame code ⟨l, c⟩).toList.splitOn '\n' =
        orEmpty (above.map Row.text) ++ marked.text :: caretLine (marked.head.length + c) ::
          orEmpty (below.map Row.text) ∧
      List.Forall₂ (Row.Shows code width) (List.Ico (max 1 (l - 5)) l) above ∧
      marked.Shows code width l ∧
      List.Forall₂ (Row.Shows code width)
        (List.Ico (l + 1) (min (code.toList.splitOn '\n').length (l + 5) + 1)) below ∧
      marked.sign = "▶ " ∧ ∀ r ∈ above ++ below, r.sign = "  " := by
  have hmarked : '\n' ∉ (rowOf code (toString (l + 5)).length "▶ " l).text :=
    newline_not_mem_rowOf (by decide)
  refine ⟨(toString (l + 5)).length, _, _, _, ?_,
    shows_rowsBetween (by omega) (by omega) (by omega), shows_rowOf hl hn (Nat.le_add_right l 5),
    shows_rowsBetween (by omega) (by omega) (by omega), rfl, ?_⟩
  · rw [toList_sourceFrame code c hl hn, List.splitOn_append_cons_self,
      List.splitOn_append_cons_self_of_not_mem hmarked,
      List.splitOn_append_cons_self_of_not_mem (newline_not_mem_caretLine _),
      splitOn_intercalate_newline newline_not_mem_rowsBetween,
      splitOn_intercalate_newline newline_not_mem_rowsBetween]
  · intro r hr
    rcases List.mem_append.1 hr with hr | hr
    · exact sign_of_mem_rowsBetween hr
    · exact sign_of_mem_rowsBetween hr

/-- Twelve lines. -/
def twelveLines : String := "a\nb\nc\nd\ne\nf\ng\nh\ni\nj\nk\nl"

/-- Around the eighth of twelve lines the labels get a second digit, and the window ends with the
text. -/
theorem window_of_twelveLines : 1 ≤ 8 ∧ 8 ≤ (twelveLines.toList.splitOn '\n').length ∧
    ∃ (width : Nat) (above : List Row) (marked : Row) (below : List Row),
      (sourceFrame twelveLines ⟨8, 2⟩).toList.splitOn '\n' =
        orEmpty (above.map Row.text) ++ marked.text :: caretLine (marked.head.length + 2) ::
          orEmpty (below.map Row.text) ∧
      List.Forall₂ (Row.Shows twelveLines width) [3, 4, 5, 6, 7] above ∧
      marked.Shows twelveLines width 8 ∧ marked.content = ['h'] ∧
      List.Forall₂ (Row.Shows twelveLines width) [9, 10, 11, 12] below := by
  have hl : 1 ≤ 8 := by decide
  have hn : 8 ≤ (twelveLines.toList.splitOn '\n').length := by decide
  obtain ⟨width, above, marked, below, hframe, habove, hmarked, hbelow, -, -⟩ :=
    frame_shows_window twelveLines 2 hl hn
  have hbefore : List.Ico (max 1 (8 - 5)) 8 = [3, 4, 5, 6, 7] := by decide
  have hafter : List.Ico (8 + 1) (min (twelveLines.toList.splitOn '\n').length (8 + 5) + 1) =
      [9, 10, 11, 12] := by decide
  have hline : (twelveLines.toList.splitOn '\n')[8 - 1]? = some ['h'] := by decide
  rw [hbefore] at habove
  rw [hafter] at hbelow
  exact ⟨hl, hn, width, above, marked, below, hframe, habove, hmarked,
    Option.some.inj (hmarked.content.symm.trans hline), hbelow⟩

/-- No line comes before or after the only one. -/
example : sourceFrame "a b" ⟨1, 2⟩ = "\n▶ 1 │ a b\n        ▲\n" := by decide +kernel

end Text
end ElementBuild
