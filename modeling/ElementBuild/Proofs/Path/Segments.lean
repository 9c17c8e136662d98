/-
# The segments of joined paths

The pieces of a text give the text back, and the other way round.  So a path made
of segments has these segments (`segments_ofSegments`), and the *moves* of a path,
which are its segments but for a root or a dot that opens it, are what joining it
appends to the segments of another path (`segments_join`).
-/
import ElementBuild.Path.Confined
import ElementBuild.Proofs.Split

namespace ElementBuild
namespace Path

/-! ### Pieces -/

theorem pieces_eq_splitOn (cs : List Char) : pieces cs = cs.splitOn '/' :=
  eq_splitOn rfl (fun cs => by rw [pieces, if_pos rfl])
    (fun c cs p ps hc h => by rw [pieces, if_neg hc, h]) cs

theorem joinPieces_eq_intercalate (ps : List (List Char)) :
    joinPieces ps = ['/'].intercalate ps := by
  induction ps with
  | nil => rfl
  | cons p ps ih =>
    cases ps with
    | nil => exact List.intercalate_singleton.symm
    | cons q qs =>
      rw [joinPieces, ih, List.intercalate_cons_cons, List.append_assoc]
      · rfl
      · exact List.cons_ne_nil q qs

theorem pieces_ne_nil (cs : List Char) : pieces cs ≠ [] := by
  rw [pieces_eq_splitOn]
  exact List.splitOn_ne_nil '/' cs

theorem pieces_append_slash (as bs : List Char) :
    pieces (as ++ '/' :: bs) = pieces as ++ pieces bs := by
  rw [pieces_eq_splitOn, pieces_eq_splitOn, pieces_eq_splitOn]
  exact List.splitOn_append_cons_self as bs

theorem pieces_slash (cs : List Char) : pieces ('/' :: cs) = [] :: pieces cs :=
  pieces_append_slash [] cs

theorem pieces_of_not_mem {cs : List Char} (h : '/' ∉ cs) : pieces cs = [cs] := by
  rw [pieces_eq_splitOn]
  exact List.splitOn_eq_singleton h

theorem pieces_joinPieces {ps : List (List Char)} (hne : ps ≠ []) (h : ∀ p ∈ ps, '/' ∉ p) :
    pieces (joinPieces ps) = ps := by
  rw [pieces_eq_splitOn, joinPieces_eq_intercalate]
  exact List.splitOn_intercalate '/' h hne

theorem joinPieces_pieces (cs : List Char) : joinPieces (pieces cs) = cs := by
  rw [pieces_eq_splitOn, joinPieces_eq_intercalate]
  exact List.intercalate_splitOn '/'

theorem slash_not_mem_of_mem_pieces {p cs : List Char} (h : p ∈ pieces cs) : '/' ∉ p := by
  rw [pieces_eq_splitOn] at h
  exact not_mem_of_mem_splitOn h

theorem mem_of_mem_pieces {p cs : List Char} (h : p ∈ pieces cs) {c : Char} (hc : c ∈ p) :
    c ∈ cs := by
  induction cs generalizing p with
  | nil =>
    rw [List.mem_singleton.1 h] at hc
    exact absurd hc List.not_mem_nil
  | cons d cs ih =>
    by_cases hd : d = '/'
    · rw [pieces, if_pos hd] at h
      rcases List.mem_cons.1 h with rfl | h
      · exact absurd hc List.not_mem_nil
      · exact List.mem_cons_of_mem _ (ih h hc)
    · obtain ⟨q, qs, hq⟩ := List.exists_cons_of_ne_nil (pieces_ne_nil cs)
      rw [pieces, if_neg hd, hq] at h
      rcases List.mem_cons.1 h with rfl | h
      · rcases List.mem_cons.1 hc with rfl | hc
        · exact List.mem_cons_self ..
        · exact List.mem_cons_of_mem _ (ih (hq ▸ List.mem_cons_self ..) hc)
      · exact List.mem_cons_of_mem _ (ih (hq ▸ List.mem_cons_of_mem _ h) hc)

theorem toList_intercalate_slash (xs : List String) :
    ("/".intercalate xs).toList = joinPieces (xs.map String.toList) := by
  rw [String.toList_intercalate, joinPieces_eq_intercalate]
  rfl

end Path

/-! ### Moves -/

namespace Segment

/-- A segment that one piece of a path stands for: a name, or the parent folder. -/
def IsMove (m : Segment) : Prop := ofPiece? m.text.toList = some m ∧ '/' ∉ m.text.toList

instance (m : Segment) : Decidable m.IsMove := inferInstanceAs (Decidable (_ ∧ _))

theorem ofPiece?_eq_some {cs : List Char} {m : Segment} (h : ofPiece? cs = some m) :
    m.text.toList = cs ∧ m ≠ .root ∧ m ≠ .current := by
  unfold ofPiece? at h
  split at h
  · exact absurd h (by simp)
  · exact absurd h (by simp)
  · obtain rfl := Option.some.inj h
    exact ⟨rfl, by simp, by simp⟩
  · obtain rfl := Option.some.inj h
    exact ⟨String.toList_ofList, by simp, by simp⟩

theorem isMove_of_ofPiece? {cs : List Char} {m : Segment} (hslash : '/' ∉ cs)
    (h : ofPiece? cs = some m) : m.IsMove := by
  have htext := (ofPiece?_eq_some h).1
  rw [IsMove, htext]
  exact ⟨h, hslash⟩

theorem IsMove.eq_parent_or_name {m : Segment} (h : m.IsMove) : m = .parent ∨ ∃ s, m = .name s := by
  cases m with
  | root => exact absurd rfl (ofPiece?_eq_some h.1).2.1
  | current => exact absurd rfl (ofPiece?_eq_some h.1).2.2
  | parent => exact .inl rfl
  | name s => exact .inr ⟨s, rfl⟩

theorem IsMove.pieces {m : Segment} (h : m.IsMove) :
    Path.pieces m.text.toList = [m.text.toList] := Path.pieces_of_not_mem h.2

theorem IsMove.text_ne_empty {m : Segment} (h : m.IsMove) : m.text.toList ≠ [] := by
  intro hnil
  rw [IsMove, hnil] at h
  exact absurd h.1 (by simp [ofPiece?])

theorem IsMove.text_ne_dot {m : Segment} (h : m.IsMove) : m.text.toList ≠ ['.'] := by
  intro hdot
  rw [IsMove, hdot] at h
  exact absurd h.1 (by simp [ofPiece?])

end Segment

namespace Path

/-- The segments of a path but for a root or a dot that opens it. -/
def moves (p : Path) : List Segment := (pieces p.text.toList).filterMap Segment.ofPiece?

theorem isMove_of_mem_moves {p : Path} {m : Segment} (h : m ∈ p.moves) : m.IsMove := by
  obtain ⟨cs, hcs, hm⟩ := List.mem_filterMap.1 h
  exact Segment.isMove_of_ofPiece? (slash_not_mem_of_mem_pieces hcs) hm

theorem isAbsolute_iff {p : Path} : p.isAbsolute = true ↔ ∃ cs, p.text.toList = '/' :: cs := by
  unfold isAbsolute
  cases p.text.toList with
  | nil => simp
  | cons c cs => simp

theorem segments_of_absolute {p : Path} (h : p.isAbsolute = true) :
    p.segments = .root :: p.moves := by
  obtain ⟨cs, hcs⟩ := isAbsolute_iff.1 h
  rw [segments, moves, hcs, pieces_slash, segmentsOf]
  rfl

theorem isAbsolute_of_pieces {p : Path} {q : List Char} {qs : List (List Char)}
    (h : pieces p.text.toList = [] :: q :: qs) : p.isAbsolute = true := by
  refine isAbsolute_iff.2 ⟨joinPieces (q :: qs), ?_⟩
  rw [← joinPieces_pieces p.text.toList, h]
  rfl

/-- The root or the dot that opens a path with some pieces. -/
def openingOf : List (List Char) → List Segment
  | [] :: _ :: _ => [.root]
  | ['.'] :: _ => [.current]
  | _ => []

theorem openingOf_append {ps : List (List Char)} (hne : ps ≠ []) (hempty : ps ≠ [[]])
    (qs : List (List Char)) : openingOf (ps ++ qs) = openingOf ps := by
  match ps, hne, hempty with
  | [] :: _ :: _, _, _ => rfl
  | (c :: cs) :: ps, _, _ =>
    rw [List.cons_append]
    unfold openingOf
    split <;> simp_all

/-- The root or the dot that opens a path. -/
def opening (p : Path) : List Segment := openingOf (pieces p.text.toList)

theorem opening_of_absolute {p : Path} (h : p.isAbsolute = true) : p.opening = [.root] := by
  obtain ⟨cs, hcs⟩ := isAbsolute_iff.1 h
  obtain ⟨q, qs, hq⟩ := List.exists_cons_of_ne_nil (pieces_ne_nil cs)
  rw [opening, hcs, pieces_slash, hq]
  rfl

theorem segments_eq (p : Path) : p.segments = p.opening ++ p.moves := by
  by_cases h : p.isAbsolute = true
  · rw [opening_of_absolute h]
    exact segments_of_absolute h
  · unfold opening segments moves segmentsOf
    split
    · rename_i cs hcs
      exact absurd (isAbsolute_iff.2 ⟨cs, hcs⟩) h
    · split
      · rename_i hps
        rw [hps]
        rfl
      · rename_i hps
        unfold openingOf
        split
        · rename_i hpieces
          exact absurd (isAbsolute_of_pieces hpieces) h
        · rename_i hpieces
          exact absurd hpieces (hps _)
        · rfl

/-- Joining a relative path puts a slash between, or finds one there. -/
theorem text_join {p q : Path} (hq : q.isAbsolute = false) :
    (p.text = "" ∧ p.join q = q) ∨
      ∃ as bs, p.text.toList = as ++ bs ∧ (bs = [] ∨ bs = ['/']) ∧ as ++ bs ≠ [] ∧
        (p.join q).text.toList = as ++ '/' :: q.text.toList := by
  unfold join
  rw [if_neg (by simp [hq])]
  by_cases hempty : p.text = ""
  · left
    rw [hempty]
    exact ⟨rfl, by simp⟩
  · right
    have hne : p.text.toList ≠ [] := by simpa using hempty
    by_cases hslash : p.text.toList.getLast? = some '/'
    · obtain ⟨as, has⟩ := List.getLast?_eq_some_iff.1 hslash
      refine ⟨as, ['/'], has, .inr rfl, has ▸ hne, ?_⟩
      rw [if_pos (by simp [hslash]), String.toList_append, has, List.append_assoc]
      rfl
    · refine ⟨p.text.toList, [], (List.append_nil _).symm, .inl rfl, by simpa using hempty, ?_⟩
      rw [if_neg (by simp [hempty, hslash]), String.toList_append, String.toList_append,
        List.append_assoc]
      rfl

theorem moves_join {p q : Path} (hq : q.isAbsolute = false) :
    (p.join q).moves = p.moves ++ q.moves := by
  rcases text_join hq with ⟨hempty, hjoin⟩ | ⟨as, bs, hp, hbs, -, hjoin⟩
  · rw [hjoin, moves, moves, hempty]
    rfl
  · rw [moves, moves, moves, hjoin, hp, pieces_append_slash, List.filterMap_append]
    rcases hbs with rfl | rfl
    · rw [List.append_nil]
    · rw [pieces_append_slash, List.filterMap_append]
      exact congrArg (· ++ _) (List.append_nil _).symm

theorem opening_join {p q : Path} (hp : p.text ≠ "") (hq : q.isAbsolute = false) :
    (p.join q).opening = p.opening := by
  rcases text_join hq with ⟨hempty, -⟩ | ⟨as, bs, htext, hbs, hne, hjoin⟩
  · exact absurd hempty hp
  · rw [opening, opening, hjoin, htext, pieces_append_slash]
    by_cases has : as = []
    · obtain rfl : bs = ['/'] := hbs.resolve_left fun hbs => hne (by rw [has, hbs]; rfl)
      obtain ⟨p, ps, h⟩ := List.exists_cons_of_ne_nil (pieces_ne_nil q.text.toList)
      rw [has, h]
      rfl
    · have hpieces : pieces as ≠ [[]] := by
        intro h
        rw [← joinPieces_pieces as, h] at has
        exact has rfl
      rw [openingOf_append (pieces_ne_nil as) hpieces]
      rcases hbs with rfl | rfl
      · rw [List.append_nil]
      · rw [pieces_append_slash, openingOf_append (pieces_ne_nil as) hpieces]

theorem segments_join {p q : Path} (hp : p.text ≠ "") (hq : q.isAbsolute = false) :
    (p.join q).segments = p.segments ++ q.moves := by
  rw [segments_eq, segments_eq, opening_join hp hq, moves_join hq, List.append_assoc]

theorem isAbsolute_iff_segments {p : Path} :
    p.isAbsolute = true ↔ p.segments.head? = some .root := by
  constructor
  · intro h
    rw [segments_of_absolute h]
    rfl
  · intro h
    have hmoves : p.moves.head? ≠ some .root := by
      intro hroot
      obtain ⟨ms, hms⟩ := List.head?_eq_some_iff.1 hroot
      exact absurd (isMove_of_mem_moves (p := p) (hms ▸ List.mem_cons_self ..)) (by decide)
    rw [segments_eq, opening] at h
    unfold openingOf at h
    split at h
    · rename_i hpieces
      exact isAbsolute_of_pieces hpieces
    · simp at h
    · exact absurd h hmoves

theorem isAbsolute_join {p : Path} (h : p.isAbsolute = true) (q : Path) :
    (p.join q).isAbsolute = true := by
  by_cases hq : q.isAbsolute = true
  · rw [join, if_pos hq]
    exact hq
  · rw [Bool.not_eq_true] at hq
    have hne : p.text ≠ "" := by
      intro hempty
      rw [isAbsolute, hempty] at h
      cases h
    rw [isAbsolute_iff_segments, segments_join hne hq, segments_of_absolute h]
    rfl

/-! ### Names -/

/-- A text that names one entry of a folder. -/
def IsName (s : String) : Prop := (Segment.name s).IsMove

instance (s : String) : Decidable (IsName s) := inferInstanceAs (Decidable (Segment.IsMove _))

theorem IsName.isAbsolute {s : String} (h : IsName s) : (Path.mk s).isAbsolute = false := by
  rw [Bool.eq_false_iff]
  intro habs
  obtain ⟨cs, hcs⟩ := isAbsolute_iff.1 habs
  exact h.2 (hcs ▸ List.mem_cons_self ..)

theorem IsName.moves {s : String} (h : IsName s) : (Path.mk s).moves = [.name s] := by
  have hpieces : pieces s.toList = [s.toList] := h.pieces
  rw [Path.moves, hpieces]
  exact List.filterMap_cons_some h.1

theorem IsName.segments {s : String} (h : IsName s) : (Path.mk s).segments = [.name s] := by
  have hpieces : pieces s.toList = [s.toList] := h.pieces
  have hdot : s.toList ≠ ['.'] := h.text_ne_dot
  have hopening : (Path.mk s).opening = [] := by
    rw [opening, hpieces, openingOf]
    · exact fun p ps h => by simp at h
    · exact fun ps h => hdot (List.cons.inj h).1
  rw [segments_eq, h.moves, hopening]
  rfl

/-- A name is put under the segments of a path. -/
theorem segments_join_name (p : Path) {s : String} (h : IsName s) :
    (p.join ⟨s⟩).segments = p.segments ++ [.name s] := by
  by_cases hp : p.text = ""
  · have hjoin : p.join ⟨s⟩ = ⟨s⟩ := by
      unfold join
      rw [if_neg (by simp [h.isAbsolute]), if_pos (by simp [hp]), hp]
      simp
    have hnil : p.segments = [] := by
      cases p
      cases hp
      rfl
    rw [hjoin, hnil, h.segments]
    rfl
  · rw [segments_join hp h.isAbsolute, h.moves]

/-! ### Paths made of segments -/

section

variable {ms : List Segment} (h : ∀ m ∈ ms, m.IsMove)
include h

theorem filterMap_texts : (ms.map fun m => m.text.toList).filterMap Segment.ofPiece? = ms := by
  rw [List.filterMap_map]
  induction ms with
  | nil => rfl
  | cons m ms ih =>
    have hm : (Segment.ofPiece? ∘ fun m => m.text.toList) m = some m :=
      (h m (List.mem_cons_self ..)).1
    rw [List.filterMap_cons_some hm, ih fun n hn => h n (List.mem_cons_of_mem _ hn)]

theorem pieces_texts (hne : ms ≠ []) :
    pieces (joinPieces (ms.map fun m => m.text.toList)) = ms.map fun m => m.text.toList := by
  refine pieces_joinPieces (by simpa using hne) fun cs hcs => ?_
  obtain ⟨m, hm, rfl⟩ := List.mem_map.1 hcs
  exact (h m hm).2

theorem segments_ofSegments_root : (ofSegments (.root :: ms)).segments = .root :: ms := by
  have htext : (ofSegments (.root :: ms)).text.toList =
      '/' :: joinPieces (ms.map fun m => m.text.toList) := by
    rw [ofSegments, textOf, String.toList_append, toList_intercalate_slash, List.map_map]
    rfl
  rw [segments, htext, segmentsOf]
  by_cases hne : ms = []
  · subst hne
    rfl
  · rw [pieces_texts h hne, filterMap_texts h]

theorem toList_textOf : (textOf ms).toList = joinPieces (ms.map fun m => m.text.toList) := by
  have hroot : ∀ rest, ms ≠ .root :: rest := by
    rintro rest rfl
    exact absurd (h .root (List.mem_cons_self ..)) (by decide)
  rw [textOf, toList_intercalate_slash, List.map_map]
  · rfl
  · exact hroot

theorem pieces_textOf (hne : ms ≠ []) :
    pieces (textOf ms).toList = ms.map fun m => m.text.toList := by
  rw [toList_textOf h, pieces_texts h hne]

theorem moves_ofSegments : (ofSegments ms).moves = ms := by
  by_cases hne : ms = []
  · subst hne
    rfl
  · rw [moves, ofSegments, pieces_textOf h hne, filterMap_texts h]

theorem segments_ofSegments : (ofSegments ms).segments = ms := by
  by_cases hne : ms = []
  · subst hne
    rfl
  · obtain ⟨m, rest, hms⟩ := List.exists_cons_of_ne_nil hne
    have hm : m.IsMove := h m (hms ▸ List.mem_cons_self ..)
    have hopening : (ofSegments ms).opening = [] := by
      rw [opening, ofSegments, pieces_textOf h hne, hms, List.map_cons, openingOf]
      · exact fun p ps heq => hm.text_ne_empty (List.cons.inj heq).1
      · exact fun ps heq => hm.text_ne_dot (List.cons.inj heq).1
    rw [segments_eq, moves_ofSegments h, hopening]
    rfl

theorem isAbsolute_ofSegments : (ofSegments ms).isAbsolute = false := by
  rw [Bool.eq_false_iff]
  intro habsolute
  have hsegments := segments_of_absolute habsolute
  rw [segments_ofSegments h] at hsegments
  exact absurd (h .root (hsegments ▸ List.mem_cons_self ..)) (by decide)

end

/-! ### The folder of a path -/

theorem ofPiece?_eq_none_iff {cs : List Char} :
    Segment.ofPiece? cs = none ↔ cs = [] ∨ cs = ['.'] := by
  unfold Segment.ofPiece?
  split <;> simp_all

/-- Dropping idle pieces drops pieces without meaning, until one has a meaning or is
the only one. -/
theorem dropIdle_spec (ps : List (List Char)) :
    (dropIdle ps).reverse.filterMap Segment.ofPiece? = ps.reverse.filterMap Segment.ofPiece? ∧
      (∃ dropped, ps = dropped ++ dropIdle ps) ∧ (ps ≠ [] → dropIdle ps ≠ []) ∧
      ∀ p before, dropIdle ps = p :: before → before ≠ [] → Segment.ofPiece? p ≠ none := by
  induction ps with
  | nil => exact ⟨rfl, ⟨[], rfl⟩, fun h => absurd rfl h, fun p before h => by simp [dropIdle] at h⟩
  | cons p before ih =>
    by_cases hidle : idle before p = true
    · have hdrop : dropIdle (p :: before) = dropIdle before := by
        rw [dropIdle, if_pos hidle]
      rw [idle, Bool.and_eq_true] at hidle
      have hnone : Segment.ofPiece? p = none := ofPiece?_eq_none_iff.2 (by simpa using hidle.2)
      have hbefore : before ≠ [] := by simpa using hidle.1
      obtain ⟨hmap, ⟨dropped, hdropped⟩, hne, hhead⟩ := ih
      rw [hdrop]
      refine ⟨?_, ⟨p :: dropped, congrArg (p :: ·) hdropped⟩, fun _ => hne hbefore, hhead⟩
      rw [hmap, List.reverse_cons, List.filterMap_append]
      simp [hnone]
    · have hdrop : dropIdle (p :: before) = p :: before := by
        rw [dropIdle, if_neg hidle]
      rw [hdrop]
      refine ⟨rfl, ⟨[], rfl⟩, fun h => h, fun q before' heq hne hnone => hidle ?_⟩
      obtain ⟨rfl, rfl⟩ := List.cons.inj heq
      rw [idle, Bool.and_eq_true]
      exact ⟨by simpa using hne, by simpa using ofPiece?_eq_none_iff.1 hnone⟩

/-- The segments of a path with some pieces. -/
theorem segments_joinPieces {ps : List (List Char)} (hne : ps ≠ []) (h : ∀ p ∈ ps, '/' ∉ p) :
    (Path.mk (String.ofList (joinPieces ps))).segments =
      openingOf ps ++ ps.filterMap Segment.ofPiece? := by
  rw [segments_eq, opening, moves, String.toList_ofList, pieces_joinPieces hne h]

theorem name_not_mem_openingOf (s : String) (ps : List (List Char)) :
    .name s ∉ openingOf ps := by
  unfold openingOf
  split <;> simp

/-- Without its last piece that is kept, a path has the segments of the pieces before that one. -/
theorem exists_parent?_of_dropIdle {p : Path} {x : List Char} {before dropped : List (List Char)}
    {m : Segment} (hkept : dropIdle (pieces p.text.toList).reverse = x :: before)
    (hpieces : pieces p.text.toList = before.reverse ++ (x :: dropped))
    (hm : Segment.ofPiece? x = some m) :
    ∃ q, p.parent? = some q ∧ q.segments =
      openingOf (pieces p.text.toList) ++ before.reverse.filterMap Segment.ofPiece? := by
  obtain ⟨hmap, ⟨idle, hidle⟩, hne, -⟩ := dropIdle_spec before
  unfold parent?
  rw [hkept, hpieces]
  match before, x with
  | [], [] => exact absurd hm (by simp [Segment.ofPiece?])
  | [], c :: cs =>
    refine ⟨⟨""⟩, rfl, ?_⟩
    rw [List.reverse_nil, List.nil_append, openingOf]
    · rfl
    · exact fun p ps heq => List.cons_ne_nil c cs (List.cons.inj heq).1
    · intro ps heq
      rw [(List.cons.inj heq).1] at hm
      exact absurd hm (by simp [Segment.ofPiece?])
  | y :: ys, x =>
    have hleft : dropIdle (y :: ys) ≠ [] := hne (List.cons_ne_nil y ys)
    have hbefore : (y :: ys).reverse = (dropIdle (y :: ys)).reverse ++ idle.reverse := by
      rw [← List.reverse_append, ← hidle]
    by_cases hroot : dropIdle (y :: ys) = [[]]
    · refine ⟨⟨"/"⟩, by simp [hroot], ?_⟩
      rw [← hmap, hbefore, hroot]
      cases idle.reverse <;> rfl
    · refine ⟨⟨String.ofList (joinPieces (dropIdle (y :: ys)).reverse)⟩, ?_, ?_⟩
      · split
        · contradiction
        · rename_i heq
          exact absurd (List.cons.inj heq).2 (List.cons_ne_nil y ys)
        · rename_i heq
          obtain ⟨rfl, rfl⟩ := List.cons.inj heq
          split
          · contradiction
          · rfl
      · have hclean : ∀ q ∈ (dropIdle (y :: ys)).reverse, '/' ∉ q := by
          intro q hq
          have hmem : q ∈ pieces p.text.toList := by
            rw [hpieces, hbefore]
            exact List.mem_append_left _ (List.mem_append_left _ hq)
          exact slash_not_mem_of_mem_pieces hmem
        rw [segments_joinPieces (by simpa using hleft) hclean, hmap, hbefore, List.append_assoc,
          openingOf_append (by simpa using hleft) (by simpa using hroot)]

/-- The folder of a path has its segments but the last, if that is a name. -/
theorem segments_parent? {p : Path} {cs : List Segment} {s : String}
    (h : p.segments = cs ++ [.name s]) : ∃ q, p.parent? = some q ∧ q.segments = cs := by
  obtain ⟨hmap, ⟨dropped, hdropped⟩, hne, hhead⟩ := dropIdle_spec (pieces p.text.toList).reverse
  obtain ⟨x, before, hkept⟩ := List.exists_cons_of_ne_nil (hne (by simpa using pieces_ne_nil _))
  have hpieces : pieces p.text.toList = before.reverse ++ (x :: dropped.reverse) := by
    rw [← List.reverse_reverse (pieces p.text.toList), hdropped, hkept, List.reverse_append,
      List.reverse_cons, List.append_assoc]
    rfl
  rw [hkept, List.reverse_reverse, List.reverse_cons, List.filterMap_append] at hmap
  rw [segments_eq, opening, moves, ← hmap] at h
  -- the last piece that is kept means the name
  obtain ⟨m, hm⟩ : ∃ m, Segment.ofPiece? x = some m := by
    rw [← Option.ne_none_iff_exists']
    intro hx
    by_cases hbefore : before = []
    · subst hbefore
      refine name_not_mem_openingOf s (pieces p.text.toList) ?_
      simp only [List.reverse_nil, List.filterMap_nil, List.filterMap_cons, hx,
        List.append_nil] at h
      rw [h]
      exact List.mem_append_right _ (List.mem_singleton.2 rfl)
    · exact hhead x before hkept hbefore hx
  rw [List.filterMap_cons_some hm, List.filterMap_nil, ← List.append_assoc] at h
  obtain ⟨rfl, -⟩ := List.append_inj' h rfl
  exact exists_parent?_of_dropIdle hkept hpieces hm

/-- The file name of a path is its last segment. -/
theorem segments_of_fileName? {p : Path} {s : String} (h : p.fileName? = some s) :
    IsName s ∧ ∃ cs, p.segments = cs ++ [.name s] := by
  obtain ⟨c, hc, hname⟩ := Option.bind_eq_some_iff.1 h
  cases c with
  | name t =>
    obtain rfl : t = s := Option.some.inj hname
    obtain ⟨cs, hcs⟩ := List.getLast?_eq_some_iff.1 hc
    refine ⟨?_, cs, hcs⟩
    have hmem : Segment.name t ∈ p.opening ++ p.moves := by
      rw [← segments_eq, hcs]
      exact List.mem_append_right _ (List.mem_singleton_self _)
    rcases List.mem_append.1 hmem with hmem | hmem
    · unfold opening openingOf at hmem
      split at hmem <;> simp at hmem
    · exact isMove_of_mem_moves hmem
  | root => cases hname
  | current => cases hname
  | parent => cases hname

end Path
end ElementBuild
