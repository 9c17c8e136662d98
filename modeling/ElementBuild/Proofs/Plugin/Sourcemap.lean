/-
# What the source map of a module points at

The mappings of a source map have a line for each line of the module, between semicolons, and on
each of them segments between commas.  A segment is made of one, four or five numbers in base 64,
and each of these is the difference to the one before it (`Mappings.decode?`): the column of the
module begins anew on each line, while source, line and column of the source are counted through
all lines.

| segment | goes on by |
| --- | --- |
| `AAAA` | nothing |
| `AACA` | one line of the source |

The map of a component has one `AACA` for each line.  But the `AAAA` at the beginning stands on the
first line, too, so the first line points at two lines of the source, and each line at the one that
follows the line with its number (`Plugin.Ecmascript.points_at_following_line`); the last one points
behind the end of the source.
-/
import ElementBuild.Proofs.Build.Course

namespace ElementBuild

/-! ### Mappings -/

namespace Mappings

/-- The value of a digit in base 64. -/
def digit? (c : Char) : Option Nat :=
  "ABCDEFGHIJKLMNOPQRSTUVWXYZabcdefghijklmnopqrstuvwxyz0123456789+/".toList.idxOf? c

/-- The numbers that digits write.  A number takes five bits from each of its digits, the lowest
first, and goes on behind a digit whose sixth bit is set. -/
def numbers? : List Nat → Option (List Nat)
  | [] => some []
  | d :: ds =>
    if d < 32 then (numbers? ds).map (d :: ·)
    else
      match numbers? ds with
      | some (n :: ns) => some ((d - 32 + 32 * n) :: ns)
      | _ => none

/-- The difference that a number stands for; its lowest bit is the sign. -/
def difference (n : Nat) : Int := if n % 2 = 0 then (n / 2 : Nat) else -(n / 2 : Nat)

/-- A place in one of the sources.  Sources, lines and columns are counted from zero. -/
structure Place where
  source : Int := 0
  line : Int := 0
  column : Int := 0
  deriving DecidableEq, Repr

/-- A part of a line that begins at a column, and what it points at. -/
structure Segment where
  column : Int
  place : Option Place
  /-- A name in the source, by its number. -/
  name : Option Int
  deriving DecidableEq, Repr

/-- How far the differences have come. -/
structure Totals where
  column : Int := 0
  place : Place := {}
  name : Int := 0
  deriving DecidableEq, Repr

/-- A place further on. -/
def Place.move (p : Place) (source line column : Int) : Place :=
  ⟨p.source + source, p.line + line, p.column + column⟩

/-- The segment that differences lead to. -/
def segment? (t : Totals) : List Int → Option (Segment × Totals)
  | [column] =>
    let column := t.column + column
    some (⟨column, none, none⟩, { t with column })
  | [column, source, line, sourceColumn] =>
    let column := t.column + column
    let place := t.place.move source line sourceColumn
    some (⟨column, some place, none⟩, { t with column, place })
  | [column, source, line, sourceColumn, name] =>
    let column := t.column + column
    let place := t.place.move source line sourceColumn
    let name := t.name + name
    some (⟨column, some place, some name⟩, ⟨column, place, name⟩)
  | _ => none

/-- The segment that a text writes. -/
def readSegment? (t : Totals) (cs : List Char) : Option (Segment × Totals) := do
  let digits ← cs.mapM digit?
  segment? t ((← numbers? digits).map difference)

/-- The segments of a line. -/
def readSegments? : Totals → List (List Char) → Option (List Segment × Totals)
  | t, [] => some ([], t)
  | t, cs :: rest => do
    let (segment, t) ← readSegment? t cs
    let (segments, t) ← readSegments? t rest
    some (segment :: segments, t)

/-- A line, which may be without segments. -/
def readLine? (t : Totals) (cs : List Char) : Option (List Segment × Totals) :=
  readSegments? { t with column := 0 } (if cs.isEmpty then [] else cs.splitOn ',')

/-- Lines, one after the other. -/
def readLines? : Totals → List (List Char) → Option (List (List Segment))
  | _, [] => some []
  | t, cs :: rest => do
    let (segments, t) ← readLine? t cs
    (readLines? t rest).map (segments :: ·)

/-- The lines of mappings, each with its segments. -/
def decode? (text : String) : Option (List (List Segment)) :=
  readLines? {} (text.toList.splitOn ';')

/-- On a line there is a segment that points at a line of the source. -/
def PointsAt (lines : List (List Segment)) (line : Nat) (target : Int) : Prop :=
  ∃ segments, lines[line]? = some segments ∧
    ∃ s ∈ segments, ∃ place, s.place = some place ∧ place.line = target

/-- The segment from the beginning of a line to the beginning of a line of the only source. -/
def start (line : Int) : Segment := ⟨0, some { line }, none⟩

/-- What the differences have come to at the beginning of a line of the only source. -/
def startTotals (line : Int) : Totals := { place := { line } }

theorem readLine?_step (line : Int) :
    readLine? (startTotals line) "AACA".toList =
      some ([start (line + 1)], startTotals (line + 1)) := by
  have hsplit : "AACA".toList.splitOn ',' = ["AACA".toList] := List.splitOn_eq_singleton (by decide)
  have hsegment : readSegment? (startTotals line) "AACA".toList =
      some (start (line + 1), startTotals (line + 1)) := rfl
  have hline : ({ startTotals line with column := 0 } : Totals) = startTotals line := rfl
  rw [readLine?, if_neg (by decide), hsplit, hline, readSegments?, hsegment]
  rfl

theorem readLine?_first :
    readLine? {} "AAAA,AACA".toList = some ([start 0, start 1], startTotals 1) := by
  decide +kernel

/-- Each line that consists of one step points at the line that follows the one before. -/
theorem readLines?_steps (line : Int) (n : Nat) :
    readLines? (startTotals line) (List.replicate n "AACA".toList) =
      some ((List.range n).map fun k : Nat => [start (line + k + 1)]) := by
  induction n generalizing line with
  | zero => rfl
  | succ n ih =>
    rw [List.replicate_succ, readLines?, readLine?_step, Option.bind_eq_bind, Option.bind_some]
    dsimp only
    rw [ih, Option.map_some, List.range_succ_eq_map, List.map_cons, List.map_map]
    congr 2
    · rw [Int.natCast_zero, Int.add_zero]
    · refine List.map_congr_left fun k _ => ?_
      have hline : line + 1 + (k : Int) + 1 = line + (k + 1 : Nat) + 1 := by omega
      exact congrArg (fun line => [start line]) hline

end Mappings

namespace Plugin.Ecmascript

open Mappings (PointsAt decode? start)

/-! ### The mappings of a component -/

theorem splitOn_mappings (n : Nat) : (mappings (n + 1)).toList.splitOn ';' =
    "AAAA,AACA".toList :: List.replicate n "AACA".toList := by
  have htext : (mappings (n + 1)).toList =
      [';'].intercalate ("AAAA,AACA".toList :: List.replicate n "AACA".toList) := by
    unfold mappings
    rw [String.toList_append, String.toList_intercalate, List.map_replicate]
    cases n with
    | zero => rfl
    | succ n =>
      rw [List.replicate_succ, List.replicate_succ, List.intercalate_cons_cons,
        List.intercalate_cons_cons]
      rfl
  rw [htext]
  refine List.splitOn_intercalate ';' (fun line hline => ?_) (List.cons_ne_nil _ _)
  rcases List.mem_cons.1 hline with rfl | hline
  · decide
  · obtain rfl := List.eq_of_mem_replicate hline
    decide

/-- Each line of the mappings has one segment, and the first line one before it. -/
theorem decode?_mappings (n : Nat) : decode? (mappings (n + 1)) =
    some ([start 0, start 1] :: (List.range n).map fun k : Nat => [start (1 + k + 1)]) := by
  rw [decode?, splitOn_mappings, Mappings.readLines?, Mappings.readLine?_first,
    Option.bind_eq_bind, Option.bind_some]
  dsimp only
  rw [Mappings.readLines?_steps, Option.map_some]

theorem pointsAt_start {lines : List (List Mappings.Segment)} {k : Nat} {line target : Int}
    (h : lines[k]? = some [start line]) : PointsAt lines k target ↔ target = line := by
  constructor
  · rintro ⟨segments, hsegments, s, hs, place, hplace, rfl⟩
    obtain rfl := Option.some.inj (h.symm.trans hsegments)
    obtain rfl := List.mem_singleton.1 hs
    obtain rfl := Option.some.inj hplace
    rfl
  · rintro rfl
    exact ⟨_, h, _, List.mem_singleton_self _, _, rfl, rfl⟩

/-- **A line points at the one that follows the line with its number**, and the first line at the
first one, too. -/
theorem exists_lines_of_mappings {n : Nat} (hn : 0 < n) :
    ∃ lines, decode? (mappings n) = some lines ∧ lines.length = n ∧
      ∀ (k : Nat) (target : Int),
        PointsAt lines k target ↔ k < n ∧ target = k + 1 ∨ k = 0 ∧ target = 0 := by
  obtain ⟨n, rfl⟩ := Nat.exists_eq_add_of_le' hn
  refine ⟨_, decode?_mappings n, by simp, fun k target => ?_⟩
  cases k with
  | zero =>
    constructor
    · rintro ⟨segments, hsegments, s, hs, place, hplace, rfl⟩
      obtain rfl := Option.some.inj hsegments
      rcases List.mem_cons.1 hs with rfl | hs
      · obtain rfl := Option.some.inj hplace
        exact .inr ⟨rfl, rfl⟩
      · obtain rfl := List.mem_singleton.1 hs
        obtain rfl := Option.some.inj hplace
        exact .inl ⟨hn, rfl⟩
    · rintro (⟨-, rfl⟩ | ⟨-, rfl⟩)
      · exact ⟨_, rfl, start 1, by simp, _, rfl, rfl⟩
      · exact ⟨_, rfl, start 0, by simp, _, rfl, rfl⟩
  | succ k =>
    by_cases hk : k < n
    · have hline : ([start 0, start 1] :: (List.range n).map fun k : Nat =>
          [start (1 + k + 1)])[k + 1]? = some [start (1 + k + 1)] := by
        rw [List.getElem?_cons_succ, List.getElem?_map, List.getElem?_range hk, Option.map_some]
      rw [pointsAt_start hline]
      omega
    · have hnone : ([start 0, start 1] :: (List.range n).map fun k : Nat =>
          [start (1 + k + 1)])[k + 1]? = none := by
        rw [List.getElem?_cons_succ, List.getElem?_map, List.getElem?_eq_none (by simpa using hk),
          Option.map_none]
      refine iff_of_false ?_ (by omega)
      rintro ⟨segments, hsegments, -⟩
      cases hnone.symm.trans hsegments

/-! ### The map that is written -/

theorem lineCount_append (code later : String) : lineCount code ≤ lineCount (code ++ later) := by
  unfold lineCount
  rw [String.toList_append, List.count_append]
  omega

/-- A component whose source ends with a line break, to be compiled with a map. -/
def mappedRequest : CompileRequest where
  code := "export default class A extends HTMLElement {}\n"
  filename := ⟨"/a_a/index.esm"⟩
  sourcemap := .whole true
  preprocessScript := pure
  preprocessStyle := none

def mappedSession : Session where
  files := { entries := [(["a_a"], .folder), (["a_a", "index.esm"], .file (.text ""))] }

def mappedModule : String :=
  "export default class A extends HTMLElement {}\n\n\ncustomElements.define('a-a', A)"

theorem mappedRequest_run :
    let run : Except Failure CompileOutput × Session :=
      (ecmascript.compile mappedRequest).run.run mappedSession
    run.1.toOption =
      some ⟨mappedModule, some (sourcemap mappedRequest mappedModule).compact⟩ := by
  decide +kernel

end Plugin.Ecmascript

end ElementBuild
