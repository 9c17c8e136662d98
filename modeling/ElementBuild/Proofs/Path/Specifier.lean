/-
# Where relative specifiers lead

The specifier of a target, seen from a folder, climbs from the folder to where the two
part, and descends to the target from there (`specifierFrom?_eq_some`).  Joined to the
folder it names the target again (`normalize_join_specifierFrom`).
-/
import ElementBuild.Proofs.Path.Climbing
import ElementBuild.Proofs.Path.Confined

namespace ElementBuild
namespace Path

/-! ### Where names part -/

/-- Two lists of names have a common beginning, and part after it. -/
theorem exists_parting (as bs : List String) : ∃ common climbed down,
    as = common ++ climbed ∧ bs = common ++ down ∧
      (climbed = [] ∨ climbed.head? ≠ down.head?) := by
  induction as generalizing bs with
  | nil => exact ⟨[], [], bs, rfl, rfl, .inl rfl⟩
  | cons a as ih =>
    cases bs with
    | nil => exact ⟨[], a :: as, [], rfl, rfl, .inr (by simp)⟩
    | cons b bs =>
      by_cases hab : a = b
      · obtain ⟨common, climbed, down, rfl, rfl, hpart⟩ := ih bs
        exact ⟨a :: common, climbed, down, rfl, by rw [hab]; rfl, hpart⟩
      · exact ⟨[], a :: as, b :: bs, rfl, rfl, .inr (by simpa using hab)⟩

theorem steps_parting (above : List Segment) {common climbed down : List String}
    (hpart : climbed = [] ∨ climbed.head? ≠ down.head?) :
    steps (above ++ names (common ++ down)) (above ++ names (common ++ climbed)) =
      some (List.replicate climbed.length .parent ++ names down) := by
  rw [names_append, names_append, ← List.append_assoc, ← List.append_assoc]
  rcases hpart with rfl | hpart
  · rw [names_nil, List.append_nil, steps_append]
    rfl
  · by_cases hclimbed : climbed = []
    · rw [hclimbed, names_nil, List.append_nil, steps_append]
      rfl
    · exact steps_apart _ hclimbed hpart

/-- Climbing out of some names and descending to others. -/
theorem foldl_way (above : List Segment) (climbed down : List String) :
    (List.replicate climbed.length Segment.parent ++ names down).foldl cleanStep
      ((names climbed).reverse ++ above) = (names down).reverse ++ above := by
  rw [List.foldl_append, foldl_replicate_parent, foldl_names]

/-! ### The text of a specifier -/

/-- The pieces of a specifier that leads along moves. -/
theorem pieces_dotted {ms : List Segment} (h : ∀ m ∈ ms, m.IsMove) (hne : ms ≠ []) :
    pieces (dotted (textOf ms)).toList = ms.map (fun m => m.text.toList) ∨
      pieces (dotted (textOf ms)).toList = ['.'] :: ms.map fun m => m.text.toList := by
  have hpieces := pieces_textOf h hne
  unfold dotted
  split
  · exact .inl hpieces
  · right
    rw [String.toList_append]
    change pieces ('.' :: '/' :: (textOf ms).toList) = _
    rw [show '.' :: '/' :: (textOf ms).toList = ['.'] ++ '/' :: (textOf ms).toList from rfl,
      pieces_append_slash, hpieces]
    rfl

theorem moves_dotted {ms : List Segment} (h : ∀ m ∈ ms, m.IsMove) :
    (Path.mk (dotted (textOf ms))).moves = ms := by
  by_cases hne : ms = []
  · subst hne
    rfl
  · rcases pieces_dotted h hne with hpieces | hpieces
    · rw [moves, hpieces, filterMap_texts h]
    · rw [moves, hpieces, List.filterMap_cons_none rfl, filterMap_texts h]

theorem head?_dotted (s : String) : (dotted s).toList.head? = some '.' := by
  unfold dotted
  split
  · assumption
  · rw [String.toList_append]
    rfl

theorem isAbsolute_dotted (s : String) : (Path.mk (dotted s)).isAbsolute = false := by
  rw [isAbsolute, head?_dotted]
  rfl

/-! ### Specifiers between absolute paths -/

/-- An absolute path is cleaned to names below the root, or below its parent. -/
theorem clean_of_absolute {p : Path} (h : p.isAbsolute = true) : ∃ above xs,
    (above = [.root] ∨ above = [.root, .parent]) ∧ clean p.segments = above ++ names xs := by
  have hclean := clean_segments_eq p
  rw [ground_of_absolute h, ← List.append_assoc] at hclean
  refine ⟨_, _, ?_, hclean⟩
  rcases Nat.mod_two_eq_zero_or_one p.climbed with heven | hodd
  · exact .inl (by rw [heven]; rfl)
  · exact .inr (by rw [hodd]; rfl)

/-- One that does not climb is cleaned to names below the root. -/
theorem exists_names_of_absolute {p : Path} (h : p.isAbsolute = true)
    (hstays : .parent ∉ clean p.segments) : ∃ xs, clean p.segments = .root :: names xs := by
  obtain ⟨above, xs, rfl | rfl, hclean⟩ := clean_of_absolute h
  · exact ⟨xs, hclean⟩
  · exact absurd (hclean ▸ by simp) hstays

theorem same_refl (p : Path) : p.same p = true := beq_self_eq_true _

theorem same_comm (p q : Path) : p.same q = q.same p := BEq.comm

/-- The steps between clean segments are moves that lead from the one to the other. -/
theorem steps_spec {above above' : List Segment} {as bs : List String} {way : List Segment}
    (ha : above = [.root] ∨ above = [.root, .parent])
    (hb : above' = [.root] ∨ above' = [.root, .parent]) (hbs : ∀ b ∈ bs, IsName b)
    (h : steps (above' ++ names bs) (above ++ names as) = some way) :
    (∀ m ∈ way, m.IsMove) ∧
      way.foldl cleanStep (above ++ names as).reverse = (above' ++ names bs).reverse := by
  by_cases heq : above = above'
  · subst heq
    obtain ⟨common, climbed, down, rfl, rfl, hpart⟩ := exists_parting as bs
    rw [steps_parting above hpart] at h
    cases h
    refine ⟨isMove_climb fun x hx => hbs x (List.mem_append_right _ hx), ?_⟩
    have hclimb := foldl_way (above ++ names common).reverse climbed down
    have hreverse : (above ++ names common ++ names climbed).reverse =
        (names climbed).reverse ++ (above ++ names common).reverse := List.reverse_append
    rw [names_append, names_append, ← List.append_assoc, ← List.append_assoc, hreverse, hclimb,
      ← List.reverse_append]
  rcases ha with rfl | rfl
  · obtain rfl : above' = [.root, .parent] := hb.resolve_left fun h => heq h.symm
    have hway : steps ([.root, .parent] ++ names bs) ([.root] ++ names as) =
        some (List.replicate (as.length + 1) .parent ++ names bs) := by
      rw [List.replicate_succ', List.append_assoc]
      cases as with
      | nil => rfl
      | cons x xs => simp [steps, stepsApart, names]
    rw [hway] at h
    cases h
    refine ⟨isMove_climb hbs, ?_⟩
    rw [List.reverse_append, List.foldl_append, List.replicate_succ', List.foldl_append,
      foldl_replicate_parent, foldl_names, List.reverse_append]
    rfl
  · obtain rfl : above' = [.root] := hb.resolve_right fun h => heq h.symm
    cases bs with
    | nil =>
      have hway : steps ([.root] ++ names []) ([.root, .parent] ++ names as) =
          some (List.replicate (as.length + 1) .parent ++ names []) := by
        simp [steps, stepsApart, names]
      rw [hway] at h
      cases h
      refine ⟨isMove_climb hbs, ?_⟩
      rw [names_nil, List.append_nil, List.reverse_append, List.replicate_succ', List.foldl_append,
        foldl_replicate_parent]
      rfl
    | cons y ys => simp [steps, stepsApart, names] at h

section

variable {a b : Path} (ha : a.isAbsolute = true) (hb : b.isAbsolute = true)
include ha hb

/-- The steps between absolute paths lead from the one to the other. -/
theorem steps_of_absolute {way : List Segment}
    (h : steps (clean b.segments) (clean a.segments) = some way) :
    (∀ m ∈ way, m.IsMove) ∧
      way.foldl cleanStep (clean a.segments).reverse = (clean b.segments).reverse := by
  obtain ⟨above, as, habove, has⟩ := clean_of_absolute ha
  obtain ⟨above', bs, habove', hbs⟩ := clean_of_absolute hb
  have hnames : ∀ x ∈ bs, IsName x := fun x hx =>
    isMove_of_mem_clean (hbs ▸ List.mem_append_right _ (List.mem_map_of_mem hx)) (by simp)
  rw [has, hbs] at h ⊢
  exact steps_spec habove habove' hnames h

/-- A relative path spells the steps from its folder to its target. -/
theorem relativeTo?_eq_some_iff {s : String} : relativeTo? a b = some s ↔
    ∃ way, steps (clean b.segments) (clean a.segments) = some way ∧ s = textOf way := by
  have habsolute : b.normalize.isAbsolute = a.normalize.isAbsolute := by
    rw [isAbsolute_normalize ha, isAbsolute_normalize hb]
  rw [relativeTo?, difference?, if_pos habsolute, segments_normalize, segments_normalize,
    Option.map_map, Option.map_eq_some_iff]
  refine exists_congr fun way => and_congr_right fun hway => ?_
  rw [Function.comp_apply, slashed, segments_ofSegments (steps_of_absolute ha hb hway).1, eq_comm]

/-- A specifier spells them, too. -/
theorem specifierFrom?_eq_some {s : String} (hs : specifierFrom? a b = some s) :
    ∃ way, (∀ m ∈ way, m.IsMove) ∧ steps (clean b.segments) (clean a.segments) = some way ∧
      way.foldl cleanStep (clean a.segments).reverse = (clean b.segments).reverse ∧
        s = dotted (textOf way) := by
  obtain ⟨relative, hrelative, rfl⟩ := Option.map_eq_some_iff.1 hs
  obtain ⟨way, hway, rfl⟩ := (relativeTo?_eq_some_iff ha hb).1 hrelative
  have hspec := steps_of_absolute ha hb hway
  exact ⟨way, hspec.1, hway, hspec.2, rfl⟩

/-- What leads along the steps from a folder to a target names the target, once it is joined to
the folder. -/
theorem normalize_join_of_steps {q : Path} (hq : q.isAbsolute = false)
    (h : steps (clean b.segments) (clean a.segments) = some q.moves) :
    (a.join q).normalize = b.normalize := by
  have hstack : a.segments.foldl cleanStep [] = (clean a.segments).reverse :=
    (List.reverse_reverse _).symm
  rw [normalize_eq_iff, clean_join a hq, hstack, (steps_of_absolute ha hb h).2,
    List.reverse_reverse]

/-- **A specifier names its target**, once it is joined to the folder that it is seen
from. -/
theorem normalize_join_specifierFrom :
    (a.join ⟨(specifierFrom? a b).getD b.text⟩).normalize = b.normalize := by
  cases hs : specifierFrom? a b with
  | none => rw [Option.getD_none, join, if_pos hb]
  | some s =>
    obtain ⟨way, hway, hsteps, -, rfl⟩ := specifierFrom?_eq_some ha hb hs
    rw [Option.getD_some]
    refine normalize_join_of_steps ha hb (isAbsolute_dotted _) ?_
    rw [moves_dotted hway]
    exact hsteps

end

end Path
end ElementBuild
