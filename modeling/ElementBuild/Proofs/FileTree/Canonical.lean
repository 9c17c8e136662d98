/-
# Canonical paths

A canonical path has the names of a place as its segments (`segments_path`), and in a
well-formed tree it leads to that place (`WellFormed.locate_path`).  A specifier between
two canonical paths can be followed from wherever the first of them is reached
(`WellFormed.locate_join_specifierFrom`).
-/
import ElementBuild.Proofs.FileTree.Folders
import ElementBuild.Proofs.Path.Names
import ElementBuild.Proofs.Path.Specifier

namespace ElementBuild

open Path (names)

theorem Location.path_eq (l : Location) : l.path = .ofSegments (.root :: names l) := by
  have htexts : (names l).map Segment.text = l := by
    rw [List.map_map]
    exact List.map_id l
  rw [Location.path, Path.ofSegments, Path.textOf, htexts]

namespace FileTree

namespace WellFormed

variable {t : FileTree} (h : t.WellFormed)
include h

theorem names {l : Location} {e : Entry} (hget : t.get? l = some e) : ∀ n ∈ l, IsFileName n := by
  induction l using List.reverseRecOn generalizing e with
  | nil => exact fun n hn => absurd hn List.not_mem_nil
  | append_singleton l n ih =>
    obtain ⟨hn, -, hfolder⟩ := h.entry hget
    intro m hm
    rcases List.mem_append.1 hm with hm | hm
    · exact ih hfolder m hm
    · rw [List.mem_singleton.1 hm]
      exact hn

theorem segments_path {l : Location} {e : Entry} (hget : t.get? l = some e) :
    l.path.segments = .root :: Path.names l := by
  rw [Location.path_eq, Path.segments_ofSegments_root]
  intro m hm
  obtain ⟨n, hn, rfl⟩ := List.mem_map.1 hm
  exact (h.names hget n hn).1

end WellFormed

/-! ### Walking along moves -/

/-- What stands for a move among the pieces of a path. -/
theorem filterMap_piecesOf (p : Path) :
    (piecesOf p.text.toList).filterMap (fun s => Segment.ofPiece? s.toList) = p.moves := by
  have hnames : ((((Path.pieces p.text.toList).filter (· ≠ [])).map String.ofList).filterMap
      fun s => Segment.ofPiece? s.toList) = p.moves := by
    rw [List.filterMap_map, List.filterMap_filter, Path.moves]
    refine List.filterMap_congr fun cs _ => ?_
    by_cases hcs : cs = []
    · simp [hcs, Segment.ofPiece?]
    · simp [hcs]
  unfold piecesOf
  dsimp only
  split
  · rw [List.filterMap_append, hnames]
    exact List.append_nil _
  · exact hnames

theorem ne_empty_of_mem_piecesOf {text : List Char} {piece : String} (h : piece ∈ piecesOf text) :
    piece ≠ "" := by
  have hnames : ∀ q ∈ ((Path.pieces text).filter (· ≠ [])).map String.ofList, q ≠ "" := by
    rintro q hq rfl
    obtain ⟨cs, hcs, hempty⟩ := List.mem_map.1 hq
    have hne := (List.mem_filter.1 hcs).2
    rw [← String.toList_inj, String.toList_ofList] at hempty
    simp [hempty] at hne
  unfold piecesOf at h
  dsimp only at h
  split at h
  · rcases List.mem_append.1 h with h | h
    · exact hnames _ h
    · rw [List.mem_singleton.1 h]
      decide
  · exact hnames _ h

theorem isEntryName_of_isFileName {n : String} (h : IsFileName n) : IsEntryName n := by
  refine ⟨?_, ?_, h.2.1⟩
  · rintro rfl
    exact absurd h.1 (by decide)
  · rintro rfl
    exact absurd h.1 (by decide)

/-- A folder or a file is at a place. -/
def Holds (t : FileTree) (l : Location) : Prop :=
  t.get? l = some .folder ∨ ∃ content, t.get? l = some (.file content)

theorem Holds.exists {t : FileTree} {l : Location} (h : t.Holds l) : ∃ e, t.get? l = some e := by
  rcases h with hget | ⟨content, hget⟩
  · exact ⟨_, hget⟩
  · exact ⟨_, hget⟩

/-- A piece that is looked up in a folder means a name. -/
theorem IsEntryName.ofPiece? {p : String} (h : IsEntryName p) (hne : p ≠ "") :
    Segment.ofPiece? p.toList = some (.name p) := by
  unfold Segment.ofPiece?
  split
  · exact absurd (String.toList_inj.1 ‹_›) hne
  · exact absurd (String.toList_inj.1 ‹_›) h.notCurrent
  · exact absurd (String.toList_inj.1 ‹_›) h.notParent
  · rw [String.ofList_toList]

/-- A walk over pieces that mean names leads where the names do, if it leads anywhere and
meets no link. -/
theorem walk_eq_of_names {t : FileTree} {follow : Location → List String → Except FileError Found}
    {l l' : Location} {ps ns : List String} (hne : ∀ p ∈ ps, p ≠ "")
    (hps : ps.filterMap (fun s => Segment.ofPiece? s.toList) = Path.names ns)
    (hlinks : ∀ ms, ms <+: ns → ∀ target, t.get? (l ++ ms) ≠ some (.link target))
    (hwalk : t.walk follow l ps = .ok (.entry l')) : l' = l ++ ns := by
  induction ps generalizing l ns with
  | nil =>
    obtain rfl : ns = [] := List.map_eq_nil_iff.1 hps.symm
    cases hwalk
    rw [List.append_nil]
  | cons p ps ih =>
    have hrest : ∀ q ∈ ps, q ≠ "" := fun q hq => hne q (List.mem_cons_of_mem _ hq)
    rcases walk_piece hwalk with rfl | rfl | hp
    · rw [walk_current] at hwalk
      rw [List.filterMap_cons_none (by decide)] at hps
      exact ih hrest hps hlinks hwalk
    · rw [List.filterMap_cons_some (b := .parent) (by decide)] at hps
      cases ns with
      | nil => cases hps
      | cons n ns => cases hps
    · rw [List.filterMap_cons_some (f := fun s : String => Segment.ofPiece? s.toList)
        (hp.ofPiece? (hne p (List.mem_cons_self ..)))] at hps
      cases ns with
      | nil => cases hps
      | cons n ns =>
        obtain ⟨hpn, htail⟩ := List.cons.inj hps
        obtain rfl : p = n := Segment.name.inj hpn
        have hassoc : ∀ ms, l ++ p :: ms = (l ++ [p]) ++ ms := fun ms => by simp
        cases hget : t.get? (l ++ [p]) with
        | none =>
          rw [walk_vacant hp hget] at hwalk
          split at hwalk <;> cases hwalk
        | some e =>
          cases e with
          | folder =>
            rw [walk_folder hp hget] at hwalk
            rw [hassoc]
            refine ih hrest htail (fun ms hms target => ?_) hwalk
            rw [← hassoc]
            exact hlinks _ (List.cons_prefix_cons.2 ⟨rfl, hms⟩) target
          | file content =>
            rw [walk_file hp hget] at hwalk
            split at hwalk
            · rename_i hempty
              obtain rfl : ps = [] := List.isEmpty_iff.1 hempty
              obtain rfl : ns = [] := List.map_eq_nil_iff.1 htail.symm
              cases hwalk
              rfl
            · cases hwalk
          | link target =>
            exact absurd hget (hlinks [p] (List.cons_prefix_cons.2 ⟨rfl, List.nil_prefix⟩) target)

namespace WellFormed

variable {t : FileTree} (h : t.WellFormed) {follow : Location → List String → Except FileError Found}
include h

/-- A walk along names leads where they do. -/
theorem walk_names {l : Location} {ns : List String} (hholds : t.Holds (l ++ ns)) :
    t.walk follow l ns = .ok (.entry (l ++ ns)) := by
  induction ns generalizing l with
  | nil => rw [List.append_nil]; rfl
  | cons n ns ih =>
    obtain ⟨e, he⟩ := hholds.exists
    have hentry := isEntryName_of_isFileName (h.names he n (by simp))
    have hassoc : l ++ n :: ns = (l ++ [n]) ++ ns := by simp
    rw [hassoc] at hholds ⊢
    by_cases hns : ns = []
    · subst hns
      rw [List.append_nil] at hholds ⊢
      rcases hholds with hget | ⟨content, hget⟩
      · rw [walk_folder hentry hget]
        rfl
      · rw [walk_file hentry hget]
        rfl
    · obtain ⟨e, he⟩ := hholds.exists
      rw [walk_folder hentry (h.above hns he)]
      exact ih hholds

/-- On the way to a folder or a file there are folders. -/
theorem no_link_of_holds {l ms : Location} (hholds : t.Holds l) (hms : ms <+: l)
    (target : String) : t.get? ms ≠ some (.link target) := by
  obtain ⟨rest, rfl⟩ := hms
  intro hlink
  by_cases hrest : rest = []
  · rw [hrest, List.append_nil] at hholds
    rcases hholds with hget | ⟨content, hget⟩
    · rw [hget] at hlink
      cases hlink
    · rw [hget] at hlink
      cases hlink
  · obtain ⟨e, he⟩ := hholds.exists
    rw [h.above hrest he] at hlink
    cases hlink

theorem walkLinks_names {l : Location} {ns : List String} (hholds : t.Holds (l ++ ns)) (k : Nat) :
    t.walkLinks k l ns = .ok (.entry (l ++ ns)) := by
  cases k with
  | zero => exact h.walk_names hholds
  | succ k => exact h.walk_names hholds

omit h in
/-- A walk climbs out of names. -/
theorem walk_climb (common climbed rest : List String) :
    t.walk follow (common ++ climbed) (List.replicate climbed.length ".." ++ rest) =
      t.walk follow common rest := by
  induction climbed using List.reverseRecOn with
  | nil => rw [List.append_nil]; rfl
  | append_singleton climbed n ih =>
    rw [List.length_append, List.length_singleton, List.replicate_succ, List.cons_append,
      walk_parent, ← List.append_assoc, List.dropLast_concat]
    exact ih

end WellFormed

/-! ### Joined paths -/

theorem piecesOf_eq {cs : List Char} (h : [] ∉ Path.pieces cs) :
    piecesOf cs = (Path.pieces cs).map String.ofList := by
  have hlast : cs.getLast? ≠ some '/' := by
    intro hslash
    obtain ⟨as, rfl⟩ := List.getLast?_eq_some_iff.1 hslash
    rw [Path.pieces_append_slash] at h
    exact h (List.mem_append_right _ (List.mem_singleton_self _))
  have hfilter : (Path.pieces cs).filter (· ≠ []) = Path.pieces cs := by
    refine List.filter_eq_self.2 fun p hp => ?_
    rw [decide_eq_true_eq]
    rintro rfl
    exact h hp
  unfold piecesOf
  dsimp only
  rw [if_neg hlast, hfilter]

/-- The pieces of a joined path. -/
theorem piecesOf_join {p q : Path} (hp : p.text ≠ "") (hq : q.isAbsolute = false)
    (hne : q.text ≠ "") : ∃ ps us, (us = [] ∨ us = ["."]) ∧ piecesOf p.text.toList = ps ++ us ∧
      piecesOf (p.join q).text.toList = ps ++ piecesOf q.text.toList := by
  rcases Path.text_join hq with ⟨hempty, -⟩ | ⟨as, bs, htext, hbs, -, hjoin⟩
  · exact absurd hempty hp
  · have hlast : (as ++ '/' :: q.text.toList).getLast? = q.text.toList.getLast? := by
      have hchars : q.text.toList ≠ [] := fun h => hne (String.toList_inj.1 h)
      obtain ⟨cs, c, hcs⟩ := (List.eq_nil_or_concat' _).resolve_left hchars
      rw [hcs, show as ++ '/' :: (cs ++ [c]) = (as ++ '/' :: cs) ++ [c] by simp,
        List.getLast?_concat, List.getLast?_concat]
    have hslash : (Path.pieces (as ++ bs)).filter (· ≠ []) = (Path.pieces as).filter (· ≠ []) := by
      rcases hbs with rfl | rfl
      · rw [List.append_nil]
      · exact filter_pieces_endSlashes as 1
    refine ⟨((Path.pieces as).filter (· ≠ [])).map String.ofList,
      if (as ++ bs).getLast? = some '/' then ["."] else [], ?_, ?_, ?_⟩
    · split
      · exact .inr rfl
      · exact .inl rfl
    · rw [htext]
      unfold piecesOf
      dsimp only
      rw [hslash]
      split
      · rfl
      · rw [List.append_nil]
    · rw [hjoin]
      unfold piecesOf
      dsimp only
      rw [hlast, Path.pieces_append_slash, List.filter_append, List.map_append]
      split
      · rw [List.append_assoc]
      · rfl

/-- **A path joined to a folder leads where it leads from there.** -/
theorem locate_join {t : FileTree} {p q : Path} {l l' : Location} (hp : t.locate p = .ok l)
    (hl : t.get? l = some .folder) (hq : q.isAbsolute = false) (hne : q.text ≠ "")
    (hnull : '\x00' ∉ q.text.toList)
    (hwalk : ∀ k, t.walkLinks k l (piecesOf q.text.toList) = .ok (.entry l'))
    (hfits : (p.join q).Fits) : t.locate (p.join q) = .ok l' := by
  obtain ⟨husable, hpwalk⟩ := find_eq_ok.1 (locate_eq_ok.1 hp)
  obtain ⟨ps, us, hus, hpieces, hjoined⟩ := piecesOf_join husable.nonempty hq hne
  rw [hpieces] at hpwalk
  have hlead := walkLinks_append hl hus hwalk _ hpwalk
  rcases Path.text_join hq with ⟨hempty, -⟩ | ⟨as, bs, htext, -, -, hjoin⟩
  · exact absurd hempty husable.nonempty
  refine locate_eq_ok.2 (find_eq_ok.2 ⟨⟨?_, ?_, hfits⟩, ?_⟩)
  · intro hempty
    rw [hempty] at hjoin
    exact absurd hjoin (by simp)
  · rw [hjoin]
    intro hmem
    rcases List.mem_append.1 hmem with hmem | hmem
    · refine husable.clear ?_
      rw [htext]
      exact List.mem_append_left _ hmem
    · rcases List.mem_cons.1 hmem with hmem | hmem
      · exact absurd hmem (by decide)
      · exact hnull hmem
  · rw [Path.isAbsolute_join_of_relative husable.nonempty hq, hjoined]
    exact hlead

/-! ### Canonical paths -/

theorem mem_joinPieces {ps : List (List Char)} {c : Char} (h : c ∈ Path.joinPieces ps) :
    c = '/' ∨ ∃ p ∈ ps, c ∈ p := by
  fun_induction Path.joinPieces ps with
  | case1 => exact absurd h List.not_mem_nil
  | case2 p => exact .inr ⟨p, List.mem_singleton_self p, h⟩
  | case3 p ps _ ih =>
    rcases List.mem_append.1 h with h | h
    · exact .inr ⟨p, List.mem_cons_self .., h⟩
    · rcases List.mem_cons.1 h with h | h
      · exact .inl h
      · obtain hslash | ⟨q, hq, hc⟩ := ih h
        · exact .inl hslash
        · exact .inr ⟨q, List.mem_cons_of_mem _ hq, hc⟩

theorem piecesOf_slash {cs : List Char} (hne : cs ≠ []) : piecesOf ('/' :: cs) = piecesOf cs := by
  obtain ⟨d, ds, rfl⟩ := List.exists_cons_of_ne_nil hne
  unfold piecesOf
  dsimp only
  rw [Path.pieces_slash, List.filter_cons_of_neg (by simp), List.getLast?_cons_cons]

/-- The pieces of a specifier are the texts of its moves, perhaps after a dot. -/
theorem piecesOf_dotted {ms : List Segment} (h : ∀ m ∈ ms, m.IsMove) (hne : ms ≠ []) :
    piecesOf (Path.dotted (Path.textOf ms)).toList = ms.map Segment.text ∨
      piecesOf (Path.dotted (Path.textOf ms)).toList = "." :: ms.map Segment.text := by
  have htexts : (ms.map fun m => m.text.toList).map String.ofList = ms.map Segment.text := by
    rw [List.map_map]
    exact List.map_congr_left fun m _ => String.ofList_toList
  have hnil : [] ∉ ms.map fun m => m.text.toList := by
    intro hmem
    obtain ⟨m, hm, hempty⟩ := List.mem_map.1 hmem
    exact (h m hm).text_ne_empty hempty
  rcases Path.pieces_dotted h hne with heq | heq
  · left
    rw [piecesOf_eq (heq ▸ hnil), heq, htexts]
  · right
    rw [piecesOf_eq (heq ▸ by simpa using hnil), heq, List.map_cons, htexts]

theorem null_not_mem_dotted {ms : List Segment} (h : ∀ m ∈ ms, m.IsMove)
    (hnull : ∀ m ∈ ms, '\x00' ∉ m.text.toList) :
    '\x00' ∉ (Path.dotted (Path.textOf ms)).toList := by
  have hway : '\x00' ∉ (Path.textOf ms).toList := by
    rw [Path.toList_textOf h]
    intro hmem
    rcases mem_joinPieces hmem with hslash | ⟨cs, hcs, hc⟩
    · exact absurd hslash (by decide)
    · obtain ⟨m, hm, rfl⟩ := List.mem_map.1 hcs
      exact hnull m hm hc
  unfold Path.dotted
  split
  · exact hway
  · rw [String.toList_append, List.mem_append]
    rintro (hmem | hmem)
    · exact absurd hmem (by decide)
    · exact hway hmem

theorem null_not_mem_way {k : Nat} {down : List String} (hdown : ∀ n ∈ down, IsFileName n) :
    ∀ m ∈ List.replicate k Segment.parent ++ Path.names down, '\x00' ∉ m.text.toList := by
  intro m hm
  rcases List.mem_append.1 hm with hm | hm
  · rw [(List.mem_replicate.1 hm).2]
    decide
  · obtain ⟨n, hn, rfl⟩ := List.mem_map.1 hm
    exact (hdown n hn).2.2

namespace WellFormed

variable {t : FileTree} (h : t.WellFormed)
include h

/-- **The path of a place leads there.** -/
theorem locate_path {l : Location} (hholds : t.Holds l) (hfits : l.path.Fits) :
    t.locate l.path = .ok l := by
  obtain ⟨e, he⟩ := hholds.exists
  have hnames := h.names he
  have hmoves : ∀ m ∈ Path.names l, m.IsMove := by
    intro m hm
    obtain ⟨n, hn, rfl⟩ := List.mem_map.1 hm
    exact (hnames n hn).1
  have htexts : (Path.names l).map (fun m => m.text.toList) = l.map String.toList := by
    rw [List.map_map]
    rfl
  have htext : l.path.text.toList = '/' :: Path.joinPieces (l.map String.toList) := by
    rw [Location.path, String.toList_append, Path.toList_intercalate_slash]
    rfl
  have hnull : '\x00' ∉ l.path.text.toList := by
    rw [htext]
    intro hmem
    rcases mem_joinPieces ((List.mem_cons.1 hmem).resolve_left (by decide)) with hslash | ⟨p, hp, hc⟩
    · exact absurd hslash (by decide)
    · obtain ⟨n, hn, rfl⟩ := List.mem_map.1 hp
      exact (hnames n hn).2.2 hc
  have habsolute : l.path.isAbsolute = true := Path.isAbsolute_iff.2 ⟨_, htext⟩
  refine locate_eq_ok.2 (find_eq_ok.2 ⟨⟨?_, hnull, hfits⟩, ?_⟩)
  · intro hempty
    rw [hempty] at htext
    cases htext
  · rw [if_pos habsolute, htext]
    by_cases hl : l = []
    · subst hl
      exact @walkLinks_names t h [] [] hholds linkLimit
    · have hpieces := Path.pieces_texts hmoves (by simpa [Path.names] using hl)
      rw [htexts] at hpieces
      have hnil : [] ∉ Path.pieces (Path.joinPieces (l.map String.toList)) := by
        rw [hpieces]
        intro hmem
        obtain ⟨n, hn, hempty⟩ := List.mem_map.1 hmem
        exact (hnames n hn).1.text_ne_empty hempty
      have hne : Path.joinPieces (l.map String.toList) ≠ [] := by
        intro hempty
        rw [hempty] at hnil
        exact hnil (List.mem_singleton_self _)
      have hlist : (l.map String.toList).map String.ofList = l := by
        rw [List.map_map]
        refine (List.map_congr_left fun n _ => String.ofList_toList).trans (List.map_id l)
      rw [piecesOf_slash hne, piecesOf_eq hnil, hpieces, hlist]
      exact h.walkLinks_names (l := []) hholds linkLimit

omit h in
/-- A path that spells names without links on the way leads where they do, if it leads
anywhere. -/
theorem eq_of_locate_of_no_link {p : Path} {l l' : Location}
    (hp : p.segments = .root :: Path.names l)
    (hlinks : ∀ ms, ms <+: l → ∀ target, t.get? ms ≠ some (.link target))
    (hl' : t.locate p = .ok l') : l' = l := by
  have habsolute : p.isAbsolute = true := Path.isAbsolute_iff_segments.2 (by rw [hp]; rfl)
  have hmoves : p.moves = Path.names l := by
    rw [Path.segments_of_absolute habsolute] at hp
    exact (List.cons.inj hp).2
  have hwalk := (find_eq_ok.1 (locate_eq_ok.1 hl')).2
  rw [if_pos habsolute] at hwalk
  exact walk_eq_of_names (l := []) (fun q hq => ne_empty_of_mem_piecesOf hq)
    ((filterMap_piecesOf p).trans hmoves) hlinks hwalk

/-- A path that spells the names of a place leads there, if it leads anywhere. -/
theorem eq_of_locate {p : Path} {l l' : Location} (hp : p.segments = .root :: Path.names l)
    (hholds : t.Holds l) (hl' : t.locate p = .ok l') : l' = l :=
  eq_of_locate_of_no_link hp (fun _ hms target => h.no_link_of_holds hholds hms target) hl'

/-- A file lies in a folder, which has the names above it. -/
theorem exists_parent {l : Location} {content : Content} (hl : t.get? l = some (.file content)) :
    ∃ folder above n, l.path.parent? = some folder ∧ l = above ++ [n] ∧
      folder.segments = .root :: Path.names above := by
  rcases List.eq_nil_or_concat' l with rfl | ⟨above, n, rfl⟩
  · cases hl
  have hsegments : (Location.path (above ++ [n])).segments =
      (.root :: Path.names above) ++ [.name n] := by
    rw [h.segments_path hl, Path.names_append]
    rfl
  obtain ⟨folder, hfolder, hparent⟩ := Path.segments_parent? hsegments
  exact ⟨folder, above, n, hfolder, rfl, hparent⟩

/-- The folder of a file has the names above it. -/
theorem segments_parent {l : Location} {content : Content} (hl : t.get? l = some (.file content))
    {folder : Path} (hfolder : l.path.parent? = some folder) :
    ∃ above n, l = above ++ [n] ∧ folder.segments = .root :: Path.names above ∧
      folder.segments = l.path.segments.dropLast := by
  obtain ⟨q, above, n, hq, rfl, hparent⟩ := h.exists_parent hl
  obtain rfl : q = folder := Option.some.inj (hq.symm.trans hfolder)
  refine ⟨above, n, rfl, hparent, ?_⟩
  rw [h.segments_path hl, hparent, Path.names_append]
  exact List.dropLast_concat.symm

/-- The way up from a folder and down to a place leads there, with a dot in front of it or
without one. -/
theorem walk_way {common climbed down : List String}
    (hmoves : ∀ m ∈ List.replicate climbed.length Segment.parent ++ Path.names down, m.IsMove)
    (hne : List.replicate climbed.length Segment.parent ++ Path.names down ≠ [])
    (hholds : t.Holds (common ++ down)) :
    t.walk follow (common ++ climbed) (piecesOf (Path.dotted (Path.textOf
      (List.replicate climbed.length .parent ++ Path.names down))).toList) =
        .ok (.entry (common ++ down)) := by
  have htexts : (List.replicate climbed.length Segment.parent ++ Path.names down).map
      Segment.text = List.replicate climbed.length ".." ++ down := by
    rw [List.map_append, List.map_replicate, List.map_map]
    exact congrArg _ (List.map_id down)
  have hway : t.walk follow (common ++ climbed) (List.replicate climbed.length ".." ++ down) =
      .ok (.entry (common ++ down)) := by
    rw [walk_climb]
    exact h.walk_names hholds
  rcases piecesOf_dotted hmoves hne with heq | heq
  · rw [heq, htexts, hway]
  · rw [heq, htexts, walk_current, hway]

/-- **A specifier between canonical paths leads to its target**, from wherever its
folder is reached. -/
theorem locate_join_specifierFrom {p : Path} {l l' : Location} {content : Content} {s : String}
    (hp : t.locate p = .ok l) (hl : t.get? l = some .folder)
    (hl' : t.get? l' = some (.file content))
    (hs : Path.specifierFrom? l.path l'.path = some s) (hfits : (p.join ⟨s⟩).Fits) :
    t.locate (p.join ⟨s⟩) = .ok l' := by
  have hsegments := h.segments_path hl
  have hsegments' := h.segments_path hl'
  have hclean : ∀ ns : List String, Path.IsClean (Segment.root :: Path.names ns) := fun ns =>
    @Path.IsClean.append_names [.root] rfl ns
  have habsolute : ∀ {m : Location}, m.path.segments = .root :: Path.names m →
      m.path.isAbsolute = true := fun hm => Path.isAbsolute_iff_segments.2 (by rw [hm]; rfl)
  obtain ⟨way, hmoves, hsteps, -, rfl⟩ :=
    Path.specifierFrom?_eq_some (habsolute hsegments) (habsolute hsegments') hs
  rw [hsegments, hsegments', hclean l, hclean l'] at hsteps
  obtain ⟨common, climbed, down, rfl, rfl, hpart⟩ := Path.exists_parting l l'
  obtain rfl := Option.some.inj ((Path.steps_parting [.root] hpart).symm.trans hsteps)
  have hne : List.replicate climbed.length Segment.parent ++ Path.names down ≠ [] := by
    intro hnil
    rw [List.append_eq_nil_iff] at hnil
    obtain rfl : climbed = [] := by simpa using hnil.1
    obtain rfl : down = [] := by simpa using hnil.2
    rw [hl] at hl'
    cases hl'
  have hdown : ∀ n ∈ down, IsFileName n := fun n hn => h.names hl' n (List.mem_append_right _ hn)
  refine locate_join hp hl (Path.isAbsolute_dotted _) ?_
    (null_not_mem_dotted hmoves (null_not_mem_way hdown)) (fun k => ?_) hfits
  · intro hempty
    have habs := Path.head?_dotted (Path.textOf
      (List.replicate climbed.length .parent ++ Path.names down))
    rw [show Path.dotted _ = "" from hempty] at habs
    cases habs
  · cases k with
    | zero => exact h.walk_way hmoves hne (.inr ⟨content, hl'⟩)
    | succ k => exact h.walk_way hmoves hne (.inr ⟨content, hl'⟩)

end WellFormed

end FileTree
end ElementBuild
