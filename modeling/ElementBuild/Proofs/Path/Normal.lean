/-
# The segments of clean paths

Cleaning folds the segments of a path over a stack.  A way that is followed from a
folder first climbs and then descends (`climb`), whatever the stack is
(`foldl_climb`).  So what a joined path is cleaned to depends on the clean folder and
on how far the way climbs out of it.
-/
import ElementBuild.Proofs.Path.Segments

namespace ElementBuild
namespace Path

/-- The segments that some names stand for. -/
abbrev names (xs : List String) : List Segment := xs.map .name

theorem names_nil : names [] = [] := rfl

theorem names_append (xs ys : List String) : names (xs ++ ys) = names xs ++ names ys :=
  List.map_append ..

theorem names_injective {xs ys : List String} (h : names xs = names ys) : xs = ys :=
  (List.map_inj_right fun _ _ heq => Segment.name.inj heq).1 h

theorem foldl_names (xs : List String) (stack : List Segment) :
    (names xs).foldl cleanStep stack = (names xs).reverse ++ stack := by
  induction xs generalizing stack with
  | nil => rfl
  | cons x xs ih =>
    rw [names, List.map_cons, List.foldl_cons, ih, List.reverse_cons, List.append_assoc]
    rfl

theorem clean_append (as bs : List Segment) :
    clean (as ++ bs) = (bs.foldl cleanStep (as.foldl cleanStep [])).reverse := by
  rw [clean, List.foldl_append]

/-- Segments that cleaning leaves alone. -/
def IsClean (cs : List Segment) : Prop := clean cs = cs

instance (cs : List Segment) : Decidable (IsClean cs) := inferInstanceAs (Decidable (_ = _))

theorem IsClean.foldl {cs : List Segment} (h : IsClean cs) : cs.foldl cleanStep [] = cs.reverse := by
  rw [IsClean, clean] at h
  rw [← h, List.reverse_reverse, h]

theorem IsClean.append_names {cs : List Segment} (h : IsClean cs) (xs : List String) :
    IsClean (cs ++ names xs) := by
  rw [IsClean, clean_append, h.foldl, foldl_names, List.reverse_append, List.reverse_reverse,
    List.reverse_reverse]

theorem length_foldl_cleanStep_le (cs stack : List Segment) :
    (cs.foldl cleanStep stack).length ≤ stack.length + cs.length := by
  induction cs generalizing stack with
  | nil => exact Nat.le_add_right _ _
  | cons c cs ih =>
    have hstep : (cleanStep stack c).length ≤ stack.length + 1 := by
      unfold cleanStep
      split
      · exact Nat.le_add_right _ _
      · split <;> simp
        omega
      · simp
    rw [List.foldl_cons, List.length_cons]
    have := ih (cleanStep stack c)
    omega

/-- Reading a stack again, one step later, gives the stack again. -/
theorem foldl_reverse_cleanStep {stack : List Segment}
    (h : stack.reverse.foldl cleanStep [] = stack) (c : Segment) :
    (cleanStep stack c).reverse.foldl cleanStep [] = cleanStep stack c := by
  have hpush : ∀ d, (d :: stack).reverse.foldl cleanStep [] = cleanStep stack d := by
    intro d
    rw [List.reverse_cons, List.foldl_append, h]
    rfl
  cases c with
  | root => exact hpush .root
  | current => exact h
  | name s => exact hpush (.name s)
  | parent =>
    match stack, h with
    | [], _ => rfl
    | .root :: below, h => exact hpush .parent
    | .name s :: below, h =>
      rw [List.reverse_cons, List.foldl_append] at h
      exact (List.cons.inj h).2
    | .current :: below, h =>
      rw [List.reverse_cons, List.foldl_append] at h
      have hlength := length_foldl_cleanStep_le below.reverse []
      rw [show below.reverse.foldl cleanStep [] = .current :: below from h] at hlength
      simp only [List.length_cons, List.length_nil, List.length_reverse] at hlength
      omega
    | .parent :: below, h =>
      rw [List.reverse_cons, List.foldl_append, List.foldl_cons, List.foldl_nil] at h
      have hlength := length_foldl_cleanStep_le below.reverse []
      change below.reverse.foldl cleanStep [] = below
      generalize below.reverse.foldl cleanStep [] = under at h hlength
      unfold cleanStep at h
      split at h
      · contradiction
      · split at h
        · exact (List.cons.inj h).2
        · exact (List.cons.inj h).2
        · rw [h] at hlength
          simp only [List.length_cons, List.length_nil, List.length_reverse] at hlength
          omega
      · simp_all

/-- What is clean stays as it is. -/
theorem isClean_clean (cs : List Segment) : IsClean (clean cs) := by
  have hstack : ∀ (cs stack : List Segment), stack.reverse.foldl cleanStep [] = stack →
      (cs.foldl cleanStep stack).reverse.foldl cleanStep [] = cs.foldl cleanStep stack := by
    intro cs
    induction cs with
    | nil => exact fun stack h => h
    | cons c cs ih => exact fun stack h => ih _ (foldl_reverse_cleanStep h c)
  exact congrArg List.reverse (hstack cs [] rfl)

/-! ### Climbing and descending -/

/-- How far a way climbs out of a folder below a root, given by its names, and the
names that it ends with below that. -/
def climb : List String → List Segment → Nat × List String
  | xs, [] => (0, xs)
  | xs, .name s :: ms => climb (xs ++ [s]) ms
  | xs, _ :: ms =>
    if xs.isEmpty then ((climb [] ms).1 + 1, (climb [] ms).2) else climb xs.dropLast ms

/-- **A way climbs first and then descends.** -/
theorem foldl_climb {ms : List Segment} (h : ∀ m ∈ ms, m.IsMove) (xs : List String)
    (stack : List Segment) :
    ms.foldl cleanStep ((names xs).reverse ++ stack) =
      (names (climb xs ms).2).reverse ++ (List.replicate (climb xs ms).1 .parent).foldl cleanStep stack := by
  induction ms generalizing xs stack with
  | nil => simp [climb]
  | cons m ms ih =>
    have hms : ∀ n ∈ ms, n.IsMove := fun n hn => h n (List.mem_cons_of_mem _ hn)
    rcases (h m (List.mem_cons_self ..)).eq_parent_or_name with rfl | ⟨s, rfl⟩
    · rw [List.foldl_cons]
      rcases List.eq_nil_or_concat xs with rfl | ⟨xs, x, hxs⟩
      · exact ih hms [] (cleanStep stack .parent)
      · have hclimb : climb (xs ++ [x]) (.parent :: ms) = climb xs ms := by
          simp [climb]
        rw [hxs, List.concat_eq_append, hclimb, names_append, List.reverse_append]
        exact ih hms xs stack
    · have hclimb : climb xs (.name s :: ms) = climb (xs ++ [s]) ms := by
        cases xs <;> rfl
      rw [List.foldl_cons, hclimb, ← ih hms, names_append, List.reverse_append]
      rfl

/-- Climbing takes names away. -/
theorem foldl_replicate_parent (xs : List String) (stack : List Segment) :
    (List.replicate xs.length .parent).foldl cleanStep ((names xs).reverse ++ stack) = stack := by
  induction xs generalizing stack with
  | nil => rfl
  | cons x xs ih =>
    have hshape : (names (x :: xs)).reverse ++ stack = (names xs).reverse ++ (.name x :: stack) := by
      rw [names, List.map_cons, List.reverse_cons, List.append_assoc]
      rfl
    rw [hshape, List.length_cons, List.replicate_succ', List.foldl_append, ih]
    rfl

/-! ### Normal paths -/

/-- Moves over a root, or over nothing, stay so. -/
theorem foldl_cleanStep_moves {bottom : List Segment} (hbottom : bottom = [] ∨ bottom = [.root])
    {ms stack : List Segment} (hms : ∀ m ∈ ms, m.IsMove) (hstack : ∀ m ∈ stack, m.IsMove) :
    ∃ stack', (∀ m ∈ stack', m.IsMove) ∧ ms.foldl cleanStep (stack ++ bottom) = stack' ++ bottom := by
  induction ms generalizing stack with
  | nil => exact ⟨stack, hstack, rfl⟩
  | cons m ms ih =>
    have hrest : ∀ n ∈ ms, n.IsMove := fun n hn => hms n (List.mem_cons_of_mem _ hn)
    have hm : m.IsMove := hms m (List.mem_cons_self ..)
    rw [List.foldl_cons]
    rcases hm.eq_parent_or_name with rfl | ⟨s, rfl⟩
    · cases stack with
      | nil =>
        have hparent : ∀ n ∈ [Segment.parent], n.IsMove := by simpa using hm
        obtain ⟨stack', h, heq⟩ := ih hrest hparent
        refine ⟨stack', h, ?_⟩
        rw [← heq]
        rcases hbottom with rfl | rfl <;> rfl
      | cons top stack =>
        have htop := hstack top (List.mem_cons_self ..)
        obtain ⟨stack', h, heq⟩ := ih hrest fun n hn => hstack n (List.mem_cons_of_mem _ hn)
        refine ⟨stack', h, ?_⟩
        rw [← heq]
        rcases htop.eq_parent_or_name with rfl | ⟨s, rfl⟩ <;> rfl
    · have hpushed : ∀ n ∈ .name s :: stack, n.IsMove := by simpa using ⟨hm, hstack⟩
      exact ih hrest hpushed

/-- The segments of a path, once clean, are moves, perhaps after a root. -/
theorem clean_segments (p : Path) :
    ∃ ms, (∀ m ∈ ms, m.IsMove) ∧ (clean p.segments = ms ∨ clean p.segments = .root :: ms) := by
  have hnone : ∀ m ∈ ([] : List Segment), m.IsMove := fun m hm => absurd hm List.not_mem_nil
  rw [segments_eq, clean_append]
  have hopening : p.opening.foldl cleanStep [] = [] ∨ p.opening.foldl cleanStep [] = [.root] := by
    unfold opening openingOf
    split
    · exact .inr rfl
    · exact .inl rfl
    · exact .inl rfl
  have hmoves : ∀ m ∈ p.moves, m.IsMove := fun m => isMove_of_mem_moves
  obtain ⟨stack, hstack, heq⟩ := foldl_cleanStep_moves hopening hmoves hnone
  rw [List.nil_append] at heq
  refine ⟨stack.reverse, fun m hm => hstack m (List.mem_reverse.1 hm), ?_⟩
  rw [heq]
  rcases hopening with h | h
  · left
    rw [h, List.append_nil]
  · right
    rw [h, List.reverse_append]
    rfl

theorem isMove_of_mem_clean {p : Path} {m : Segment} (h : m ∈ clean p.segments) (hm : m ≠ .root) :
    m.IsMove := by
  obtain ⟨ms, hms, heq | heq⟩ := clean_segments p
  · exact hms m (heq ▸ h)
  · rw [heq] at h
    exact hms m ((List.mem_cons.1 h).resolve_left hm)

theorem segments_normalize (p : Path) : p.normalize.segments = clean p.segments := by
  obtain ⟨ms, hms, h | h⟩ := clean_segments p
  · rw [normalize, h, segments_ofSegments hms]
  · rw [normalize, h, segments_ofSegments_root hms]

theorem normalize_eq_iff {p q : Path} : p.normalize = q.normalize ↔
    clean p.segments = clean q.segments := by
  constructor
  · intro h
    rw [← segments_normalize, h, segments_normalize]
  · intro h
    rw [normalize, normalize, h]

theorem normalize_normalize (p : Path) : p.normalize.normalize = p.normalize := by
  rw [normalize_eq_iff, segments_normalize]
  exact isClean_clean p.segments

/-- What a joined path is cleaned to. -/
theorem clean_join (p : Path) {q : Path} (hq : q.isAbsolute = false) :
    clean (p.join q).segments = (q.moves.foldl cleanStep (p.segments.foldl cleanStep [])).reverse := by
  by_cases hp : p.text = ""
  · have hjoin : p.join q = q := by
      rcases text_join (p := p) hq with ⟨-, h⟩ | ⟨as, bs, htext, -, hne, -⟩
      · exact h
      · rw [← htext, hp] at hne
        exact absurd rfl hne
    have hnil : p.segments = [] := by
      cases p
      cases hp
      rfl
    have hopening : q.opening.foldl cleanStep [] = [] := by
      unfold opening openingOf
      split
      · rename_i hpieces
        exact absurd (isAbsolute_of_pieces hpieces) (by simp [hq])
      · rfl
      · rfl
    rw [hjoin, segments_eq, clean_append, hnil, hopening]
    rfl
  · rw [segments_join hp hq, clean_append]

end Path
end ElementBuild
