/-
# How far a path climbs

A `..` that finds nothing to take away is kept, and the next one takes it away again.  So of
the folders that a path climbs out of (`climbed`) cleaning keeps the parity only
(`clean_segments_eq`).  Two things come of it.  A path that is cleaned before it is followed
leads to the same place only if it climbs out of one folder at most
(`normalize_join_normalize_iff`), and an absolute path is cleaned of every `..` only if it
climbs above the root an even number of times (`absolutize_isNormal_iff`).
-/
import ElementBuild.Proofs.Path.Normal
import Mathlib.Algebra.Group.Nat.Even

namespace ElementBuild
namespace Path

/-! ### Climbing above the start -/

/-- How many folders a path climbs out of, above the one that it is followed from or, if it is
absolute, above the root. -/
def climbed (p : Path) : Nat := (climb [] p.moves).1

/-- The names that a path descends along from the highest folder that it climbs to. -/
def descent (p : Path) : List String := (climb [] p.moves).2

/-- No beginning of the path has more `..` than names. -/
def StaysBelowRoot (p : Path) : Prop :=
  ∀ way, way <+: p.moves → way.count .parent ≤ way.countP (·.name?.isSome)

theorem climb_name (xs : List String) (s : String) (ms : List Segment) :
    climb xs (.name s :: ms) = climb (xs ++ [s]) ms := by
  cases xs <;> rfl

theorem climb_parent_concat (xs : List String) (x : String) (ms : List Segment) :
    climb (xs ++ [x]) (.parent :: ms) = climb xs ms := by
  simp [climb]

theorem climb_names (xs ys : List String) (ms : List Segment) :
    climb xs (names ys ++ ms) = climb (xs ++ ys) ms := by
  induction ys generalizing xs with
  | nil => rw [names_nil, List.nil_append, List.append_nil]
  | cons y ys ih =>
    rw [names, List.map_cons, List.cons_append, climb_name, ih, List.append_assoc]
    rfl

theorem climb_parents (k : Nat) (ms : List Segment) :
    climb [] (List.replicate k .parent ++ ms) = ((climb [] ms).1 + k, (climb [] ms).2) := by
  induction k with
  | zero => rfl
  | succ k ih =>
    rw [List.replicate_succ, List.cons_append]
    change ((climb [] (List.replicate k .parent ++ ms)).1 + 1, _) = _
    rw [ih]
    rfl

theorem forall_prefix_cons_iff {P : List Segment → Prop} (hnil : P []) (m : Segment)
    (ms : List Segment) :
    (∀ way, way <+: m :: ms → P way) ↔ ∀ way, way <+: ms → P (m :: way) := by
  constructor
  · exact fun hP way hprefix => hP _ (List.cons_prefix_cons.2 ⟨rfl, hprefix⟩)
  · intro hP way hprefix
    rcases List.prefix_cons_iff.1 hprefix with rfl | ⟨rest, rfl, hrest⟩
    · exact hnil
    · exact hP rest hrest

/-- A way climbs out of no more than `k` folders if that is the most by which the `..` of a
beginning of it outnumber the names. -/
theorem climb_le_iff {ms : List Segment} (h : ∀ m ∈ ms, m.IsMove) (xs : List String) (k : Nat) :
    (climb xs ms).1 ≤ k ↔
      ∀ way, way <+: ms → way.count .parent ≤ k + xs.length + way.countP (·.name?.isSome) := by
  induction ms generalizing xs k with
  | nil => simp [climb]
  | cons m ms ih =>
    have hms : ∀ n ∈ ms, n.IsMove := fun n hn => h n (List.mem_cons_of_mem _ hn)
    rw [forall_prefix_cons_iff (by simp)]
    rcases (h m (List.mem_cons_self ..)).eq_parent_or_name with rfl | ⟨s, rfl⟩
    · rcases List.eq_nil_or_concat xs with rfl | ⟨xs, x, rfl⟩
      · change (climb [] ms).1 + 1 ≤ k ↔ _
        cases k with
        | zero =>
          refine iff_of_false (by omega) fun hall => ?_
          have hone := hall [] List.nil_prefix
          simp [Segment.name?] at hone
        | succ k =>
          rw [Nat.add_le_add_iff_right, ih hms]
          refine forall₂_congr fun way _ => ?_
          simp [Segment.name?]
          omega
      · rw [List.concat_eq_append, climb_parent_concat, ih hms]
        refine forall₂_congr fun way _ => ?_
        simp [Segment.name?]
        omega
    · rw [climb_name, ih hms]
      refine forall₂_congr fun way _ => ?_
      simp [Segment.name?]
      omega

variable {b p : Path}

theorem climbed_le_iff {k : Nat} : p.climbed ≤ k ↔
    ∀ way, way <+: p.moves → way.count .parent ≤ k + way.countP (·.name?.isSome) :=
  climb_le_iff (fun _ => isMove_of_mem_moves) [] k

theorem staysBelowRoot_iff : p.StaysBelowRoot ↔ p.climbed = 0 := by
  rw [← Nat.le_zero, climbed_le_iff]
  simp only [Nat.zero_add]
  rfl

instance : Decidable p.StaysBelowRoot := decidable_of_iff _ staysBelowRoot_iff.symm

/-- A path stays below the root, followed from names, if it climbs out of no more of them than
there are. -/
theorem staysBelowRoot_join_iff {bs : List String} (hb : b.moves = names bs)
    (hp : p.isAbsolute = false) : (b.join p).StaysBelowRoot ↔ p.climbed ≤ bs.length := by
  rw [staysBelowRoot_iff, climbed, moves_join hp, hb, climb_names, ← Nat.le_zero, climb_le_iff
    (fun _ => isMove_of_mem_moves), climbed_le_iff]
  simp only [List.nil_append, Nat.zero_add]

/-! ### What is left of a climb -/

/-- A path is followed by climbing first and descending then. -/
theorem foldl_moves (p : Path) (stack : List Segment) :
    p.moves.foldl cleanStep stack =
      (names p.descent).reverse ++ (List.replicate p.climbed .parent).foldl cleanStep stack :=
  foldl_climb (fun _ => isMove_of_mem_moves) [] stack

/-- What cannot be climbed out of: the root, if the path is absolute. -/
def ground (p : Path) : List Segment := if p.isAbsolute then [.root] else []

theorem ground_of_absolute (h : p.isAbsolute = true) : p.ground = [.root] := if_pos h

theorem ground_of_relative (h : p.isAbsolute = false) : p.ground = [] :=
  if_neg (Bool.eq_false_iff.1 h)

theorem ground_eq (p : Path) : p.ground = [] ∨ p.ground = [.root] := by
  cases h : p.isAbsolute with
  | false => exact .inl (ground_of_relative h)
  | true => exact .inr (ground_of_absolute h)

theorem foldl_opening (p : Path) : p.opening.foldl cleanStep [] = p.ground := by
  cases h : p.isAbsolute with
  | true =>
    rw [opening_of_absolute h, ground_of_absolute h]
    rfl
  | false =>
    rw [ground_of_relative h]
    unfold opening openingOf
    split
    · rename_i hpieces
      rw [isAbsolute_of_pieces hpieces] at h
      cases h
    · rfl
    · rfl

/-- Every second `..` takes away the one that was kept before it. -/
theorem foldl_parents (p : Path) (k : Nat) :
    (List.replicate k .parent).foldl cleanStep p.ground =
      List.replicate (k % 2) .parent ++ p.ground := by
  induction k with
  | zero => rfl
  | succ k ih =>
    rw [List.replicate_succ', List.foldl_append, ih, List.foldl_cons, List.foldl_nil]
    rcases Nat.mod_two_eq_zero_or_one k with hk | hk
    · rw [hk, show (k + 1) % 2 = 1 by omega]
      rcases p.ground_eq with hground | hground <;> rw [hground] <;> rfl
    · rw [hk, show (k + 1) % 2 = 0 by omega]
      rfl

/-- **A clean path** opens with the root if it is absolute, keeps a `..` if it climbs an odd
number of times, and descends. -/
theorem clean_segments_eq (p : Path) :
    clean p.segments =
      p.ground ++ (List.replicate (p.climbed % 2) .parent ++ names p.descent) := by
  have hstack : p.segments.foldl cleanStep [] =
      (names p.descent).reverse ++ (List.replicate (p.climbed % 2) .parent ++ p.ground) := by
    rw [segments_eq, List.foldl_append, foldl_opening, foldl_moves, foldl_parents]
  have hground : p.ground.reverse = p.ground := by
    rcases p.ground_eq with h | h <;> rw [h] <;> rfl
  rw [clean, hstack, List.reverse_append, List.reverse_append, List.reverse_reverse,
    List.reverse_replicate, hground, List.append_assoc]

theorem isAbsolute_normalize {p : Path} (h : p.isAbsolute = true) :
    p.normalize.isAbsolute = true := by
  rw [isAbsolute_iff_segments, segments_normalize, clean_segments_eq, ground_of_absolute h]
  rfl

/-! ### Cleaning a path before it is followed -/

theorem exists_names_of_moves {ms : List Segment} (h : ∀ m ∈ ms, m.IsMove) (hparent : .parent ∉ ms) :
    ∃ xs, ms = names xs := by
  induction ms with
  | nil => exact ⟨[], rfl⟩
  | cons m ms ih =>
    rw [List.mem_cons, not_or] at hparent
    obtain ⟨xs, rfl⟩ := ih (fun n hn => h n (List.mem_cons_of_mem _ hn)) hparent.2
    obtain ⟨s, rfl⟩ := (h m (List.mem_cons_self ..)).eq_parent_or_name.resolve_left
      (Ne.symm hparent.1)
    exact ⟨s :: xs, rfl⟩

/-- A clean relative path climbs once if the path climbs an odd number of times, and descends
as the path does. -/
theorem moves_normalize (hp : p.isAbsolute = false) :
    p.normalize.isAbsolute = false ∧
      p.normalize.moves = List.replicate (p.climbed % 2) .parent ++ names p.descent := by
  have hclean := clean_segments_eq p
  rw [ground_of_relative hp, List.nil_append] at hclean
  have hmoves : ∀ m ∈ List.replicate (p.climbed % 2) Segment.parent ++ names p.descent,
      m.IsMove := by
    intro m hm
    refine isMove_of_mem_clean (p := p) (hclean ▸ hm) ?_
    rintro rfl
    simp at hm
  rw [normalize, hclean]
  exact ⟨isAbsolute_ofSegments hmoves, moves_ofSegments hmoves⟩

theorem climb_moves_normalize (hp : p.isAbsolute = false) :
    p.normalize.climbed = p.climbed % 2 ∧ p.normalize.descent = p.descent := by
  have hclimb : climb [] p.normalize.moves = (p.climbed % 2, p.descent) := by
    have hdescend := climb_names [] p.descent []
    rw [List.append_nil, List.nil_append] at hdescend
    rw [(moves_normalize hp).2, climb_parents, hdescend]
    simp [climb]
  exact ⟨by rw [climbed, hclimb], by rw [descent, hclimb]⟩

/-- Climbing out of some of the names leaves the ones above. -/
theorem foldl_parents_names {bs : List String} {k : Nat} (hk : k ≤ bs.length)
    (stack : List Segment) :
    (List.replicate k .parent).foldl cleanStep ((names bs).reverse ++ stack) =
      (names (bs.take (bs.length - k))).reverse ++ stack := by
  have hlength : (bs.drop (bs.length - k)).length = k := by
    rw [List.length_drop]
    omega
  have hsplit : (names bs).reverse = (names (bs.drop (bs.length - k))).reverse ++
      (names (bs.take (bs.length - k))).reverse := by
    rw [← List.reverse_append, ← names_append, List.take_append_drop]
  have hclimb := foldl_replicate_parent (bs.drop (bs.length - k))
    ((names (bs.take (bs.length - k))).reverse ++ stack)
  rw [hlength] at hclimb
  rw [hsplit, List.append_assoc, hclimb]

/-- A path that is followed from names takes away as many of them as it climbs out of. -/
theorem clean_join_of_names {bs : List String} (hb : b.segments = .root :: names bs)
    (hp : p.isAbsolute = false) (hclimbed : p.climbed ≤ bs.length) :
    clean (b.join p).segments =
      .root :: names (bs.take (bs.length - p.climbed) ++ p.descent) := by
  have hstack : b.segments.foldl cleanStep [] = (names bs).reverse ++ [.root] := by
    rw [hb, List.foldl_cons]
    exact foldl_names bs [.root]
  rw [clean_join b hp, hstack, foldl_moves, foldl_parents_names hclimbed, ← List.append_assoc,
    ← List.reverse_append, ← names_append, List.reverse_append, List.reverse_reverse]
  rfl

/-- **Cleaning a path before it is followed** changes where it leads from an absolute path of
names, below the root, if and only if it climbs out of more than one folder: of the `..` that it
climbs by the second takes the first away. -/
theorem normalize_join_normalize_iff (hb : b.isAbsolute = true) (hnames : .parent ∉ b.segments)
    (hp : p.isAbsolute = false) (hstays : (b.join p).StaysBelowRoot) :
    (b.join p.normalize).normalize = (b.join p).normalize ↔ p.climbed ≤ 1 := by
  have hsegments := segments_of_absolute hb
  rw [hsegments, List.mem_cons, not_or] at hnames
  obtain ⟨bs, hbs⟩ := exists_names_of_moves (fun _ => isMove_of_mem_moves) hnames.2
  rw [hbs] at hsegments
  have hclimbed : p.climbed ≤ bs.length := (staysBelowRoot_join_iff hbs hp).1 hstays
  obtain ⟨hclimbed', hdescent'⟩ := climb_moves_normalize hp
  have hparity : p.climbed % 2 ≤ bs.length := Nat.le_trans (Nat.mod_le _ _) hclimbed
  have hnormalized := clean_join_of_names hsegments (moves_normalize hp).1
    (Nat.le_trans (Nat.le_of_eq hclimbed') hparity)
  rw [hclimbed', hdescent'] at hnormalized
  rw [normalize_eq_iff, hnormalized, clean_join_of_names hsegments hp hclimbed, List.cons.injEq,
    eq_self, true_and]
  constructor
  · intro heq
    have hlength := congrArg List.length (List.append_cancel_right (names_injective heq))
    rw [List.length_take, List.length_take] at hlength
    omega
  · intro hone
    rw [Nat.mod_eq_of_lt (Nat.lt_succ_of_le hone)]

/-- A path that climbs once and descends again leads to one place, cleaned or not. -/
theorem same_place_of_neighbourFolder :
    (Path.join ⟨"/work/app"⟩ ⟨"./lib/../../shared//./a.js"⟩).StaysBelowRoot ∧
      (Path.join ⟨"/work/app"⟩ (⟨"./lib/../../shared//./a.js"⟩ : Path).normalize).normalize =
        (Path.join ⟨"/work/app"⟩ ⟨"./lib/../../shared//./a.js"⟩).normalize :=
  ⟨by decide,
    (normalize_join_normalize_iff (by decide) (by decide) (by decide) (by decide)).2 (by decide)⟩

/-- **A path that climbs twice is cleaned to one that does not climb**, and so to another
place. -/
theorem other_place_of_doubleClimb :
    (⟨"../../x"⟩ : Path).normalize = ⟨"x"⟩ ∧
      (Path.join ⟨"/a/b"⟩ ⟨"../../x"⟩).StaysBelowRoot ∧
      (Path.join ⟨"/a/b"⟩ (⟨"../../x"⟩ : Path).normalize).normalize = ⟨"/a/b/x"⟩ ∧
      (Path.join ⟨"/a/b"⟩ ⟨"../../x"⟩).normalize = ⟨"/x"⟩ := by
  decide

/-! ### Absolute paths -/

theorem absolutize_eq (current p : Path) : absolutize current p = (current.join p).normalize := by
  unfold absolutize
  split
  · rename_i habsolute
    rw [join, if_pos habsolute]
  · rfl

/-- **What becomes of a path that is made absolute.**  It is absolute, has no `.`, and stays as
it is from wherever it is made absolute again.  It has no `..` if and only if the path climbs
above the root an even number of times; otherwise one is left behind the root. -/
theorem absolutize_isNormal_iff {current : Path} (hcurrent : current.isAbsolute = true) (p : Path) :
    (absolutize current p).isAbsolute = true ∧ .current ∉ (absolutize current p).segments ∧
      (∀ other, absolutize other (absolutize current p) = absolutize current p) ∧
      (.parent ∉ (absolutize current p).segments ↔ Even (current.join p).climbed) := by
  have habsolute := isAbsolute_join hcurrent p
  have hsegments : (absolutize current p).segments =
      .root :: (List.replicate ((current.join p).climbed % 2) .parent ++
        names (current.join p).descent) := by
    rw [absolutize_eq, segments_normalize, clean_segments_eq, ground_of_absolute habsolute]
    rfl
  have hresult : (absolutize current p).isAbsolute = true := by
    rw [absolutize_eq]
    exact isAbsolute_normalize habsolute
  refine ⟨hresult, ?_, fun other => ?_, ?_⟩
  · rw [hsegments]
    simp
  · rw [absolutize, if_pos hresult, absolutize_eq, normalize_normalize]
  · rw [hsegments, Nat.even_iff]
    simp

/-- A path that climbs above the root twice is made absolute without a `..`. -/
theorem absolutize_of_doubleClimb :
    (⟨"/work"⟩ : Path).isAbsolute = true ∧
      .parent ∉ (absolutize ⟨"/work"⟩ ⟨"../../../lib/./a.js"⟩).segments ∧
      absolutize ⟨"/"⟩ (absolutize ⟨"/work"⟩ ⟨"../../../lib/./a.js"⟩) =
        absolutize ⟨"/work"⟩ ⟨"../../../lib/./a.js"⟩ := by
  have habsolute : (⟨"/work"⟩ : Path).isAbsolute = true := by decide
  have hnormal := absolutize_isNormal_iff habsolute ⟨"../../../lib/./a.js"⟩
  exact ⟨habsolute, hnormal.2.2.2.2 (by decide), hnormal.2.2.1 _⟩

/-- **A `..` is left of a path that climbs above the root once**; another one takes it away. -/
theorem parent_of_singleClimb :
    absolutize ⟨"/work"⟩ ⟨"/.."⟩ = ⟨"/.."⟩ ∧
      .parent ∈ (absolutize ⟨"/work"⟩ ⟨"/.."⟩).segments ∧
      absolutize ⟨"/work"⟩ ⟨"../.."⟩ = ⟨"/.."⟩ ∧ absolutize ⟨"/work"⟩ ⟨"/../.."⟩ = ⟨"/"⟩ := by
  decide

end Path
end ElementBuild
