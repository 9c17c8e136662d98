/-
# Making a chain of folders

A path leads along names if it leads to a folder first, and the names stand behind that
(`LeadsAlong`).  Where the first of them is new, to make the folder of such a path is to make one
folder for each of the names and nothing else (`LeadsAlong.createFolders`): what stands above the
path is made first, and it leads along the same names but the last.

The path may be written with dots and slashes that mean nothing, but not with a dot at its end:
its folder is not made then, although what stands above it is the same.
-/
import ElementBuild.Proofs.FileTree.Entering
import ElementBuild.Proofs.Path.Ancestors

namespace ElementBuild
namespace Path

/-! ### The folder above a path -/

theorem isMove_of_mem_opening {p : Path} {m : Segment} (h : m ∈ p.opening) : ¬ m.IsMove := by
  unfold opening openingOf at h
  split at h
  · rw [List.mem_singleton.1 h]
    decide
  · rw [List.mem_singleton.1 h]
    decide
  · exact absurd h List.not_mem_nil

/-- The segments of a path tell its moves. -/
theorem filter_segments (p : Path) : p.segments.filter (·.IsMove) = p.moves := by
  rw [segments_eq, List.filter_append, List.filter_eq_nil_iff.2 fun m hm => by
    simpa using isMove_of_mem_opening hm, List.nil_append, List.filter_eq_self]
  exact fun m hm => decide_eq_true (isMove_of_mem_moves hm)

/-- A path ends in a piece that means something. -/
def EndsInMove (p : Path) : Prop :=
  ∃ init x, pieces p.text.toList = init ++ [x] ∧ Segment.ofPiece? x ≠ none

/-- The text of the folder above a path is a beginning of the text of the path, and it ends in a
piece that means something, if it has any. -/
theorem prefix_of_parent? {p q : Path} (h : p.parent? = some q) :
    q.text.toList <+: p.text.toList ∧ (q.moves ≠ [] → q.EndsInMove) := by
  obtain ⟨-, ⟨dropped, hdropped⟩, -, -⟩ := dropIdle_spec (pieces p.text.toList).reverse
  unfold parent? at h
  split at h
  · cases h
  · cases h
  · rename_i x before _ hkept
    obtain ⟨-, ⟨dropped', hdropped'⟩, -, hhead⟩ := dropIdle_spec before
    have hpieces : pieces p.text.toList =
        (dropIdle before).reverse ++ (dropped'.reverse ++ x :: dropped.reverse) := by
      rw [hkept] at hdropped
      have hsame : (dropped ++ x :: before).reverse =
          (dropped ++ x :: (dropped' ++ dropIdle before)).reverse := by rw [← hdropped']
      rw [← List.reverse_reverse (pieces p.text.toList), hdropped, hsame]
      simp only [List.reverse_append, List.reverse_cons, List.append_assoc, List.singleton_append]
    have hslash : ∀ y ∈ (dropIdle before).reverse, '/' ∉ y := fun y hy =>
      slash_not_mem_of_mem_pieces (hpieces ▸ List.mem_append_left _ hy)
    have htext : dropIdle before ≠ [] → ∃ rest, p.text.toList =
        joinPieces (dropIdle before).reverse ++ '/' :: rest := by
      intro hne
      rw [← joinPieces_pieces p.text.toList, hpieces, joinPieces_append (by simpa using hne) (by simp)]
      exact ⟨_, rfl⟩
    split at h
    · rename_i hroot
      obtain rfl := Option.some.inj h
      obtain ⟨rest, hrest⟩ := htext (by rw [hroot]; simp)
      refine ⟨⟨rest, by rw [hrest, hroot]; rfl⟩, fun hmoves => absurd rfl hmoves⟩
    · obtain rfl := Option.some.inj h
      rw [String.toList_ofList]
      rcases hleft : dropIdle before with _ | ⟨y, ys⟩
      · exact ⟨List.nil_prefix, fun hmoves => absurd rfl hmoves⟩
      · rw [hleft] at htext hslash hhead
        obtain ⟨rest, hrest⟩ := htext (List.cons_ne_nil y ys)
        have hown := pieces_joinPieces (by simp) hslash
        refine ⟨⟨_, hrest.symm⟩, fun hmoves => ⟨ys.reverse, y, ?_, fun hy => ?_⟩⟩
        · rw [String.toList_ofList, hown, List.reverse_cons]
        · by_cases hys : ys = []
          · rw [moves, String.toList_ofList, hown, hys] at hmoves
            exact hmoves (List.filterMap_cons_none hy)
          · exact hhead y ys rfl hys hy

/-- The last piece of a path that is not empty is a dot. -/
def EndsInDot (p : Path) : Prop := ((pieces p.text.toList).filter (· ≠ [])).getLast? = some ['.']

instance : DecidablePred EndsInDot := fun _ => inferInstanceAs (Decidable (_ = _))

theorem EndsInMove.not_endsInDot {p : Path} (h : p.EndsInMove) : ¬ p.EndsInDot := by
  obtain ⟨init, x, hpieces, hx⟩ := h
  rw [Ne, ofPiece?_eq_none_iff, not_or] at hx
  rw [EndsInDot, hpieces, List.filter_append, List.filter_cons_of_pos (by simpa using hx.1),
    List.filter_nil, List.getLast?_concat, Option.some.injEq]
  exact hx.2

end Path

namespace FileTree

/-! ### Dots on the way -/

/-- On the way to a `.`, other dots mean nothing. -/
theorem walk_filter {t : FileTree} {follow : Location → List String → Except FileError Found}
    (hfollow : ∀ l ps, follow l (ps ++ ["."]) = follow l (ps.filter (· ≠ ".") ++ ["."]))
    (ps : List String) (l : Location) :
    t.walk follow l (ps ++ ["."]) = t.walk follow l (ps.filter (· ≠ ".") ++ ["."]) := by
  induction ps generalizing l with
  | nil => rfl
  | cons p ps ih =>
    by_cases hdot : p = "."
    · rw [hdot, List.filter_cons_of_neg (by simp), List.cons_append, walk_current]
      exact ih l
    · rw [List.filter_cons_of_pos (by simpa using hdot), List.cons_append, List.cons_append,
        walk_cons, walk_cons, if_neg hdot, if_neg hdot]
      have hsome : ∀ qs : List String, (qs ++ ["."]).isEmpty = false := fun qs => by simp
      have hlink : ∀ l' target, follow l' (piecesOf target ++ (ps ++ ["."])) =
          follow l' (piecesOf target ++ (ps.filter (· ≠ ".") ++ ["."])) := by
        intro l' target
        rw [← List.append_assoc, hfollow, ← List.append_assoc, hfollow l' (_ ++ List.filter _ _),
          List.filter_append, List.filter_append, List.filter_filter]
        simp
      simp only [ih, hlink, hsome]

theorem walkLinks_filter {t : FileTree} (n : Nat) (l : Location) (ps : List String) :
    t.walkLinks n l (ps ++ ["."]) = t.walkLinks n l (ps.filter (· ≠ ".") ++ ["."]) := by
  induction n generalizing l ps with
  | zero => exact walk_filter (fun _ _ => rfl) ps l
  | succ n ih => exact walk_filter ih ps l

/-- Without dots, pieces are the texts of moves. -/
theorem filter_eq_texts {ps : List String} (hps : ∀ p ∈ ps, p ≠ "") :
    ps.filter (· ≠ ".") = (ps.filterMap fun s => Segment.ofPiece? s.toList).map Segment.text := by
  induction ps with
  | nil => rfl
  | cons p ps ih =>
    have htail := ih fun q hq => hps q (List.mem_cons_of_mem p hq)
    cases hmove : Segment.ofPiece? p.toList with
    | none =>
      rcases Path.ofPiece?_eq_none_iff.1 hmove with hempty | hdot
      · exact absurd (String.toList_inj.1 hempty) (hps p List.mem_cons_self)
      · obtain rfl : p = "." := String.toList_inj.1 hdot
        rw [List.filter_cons_of_neg (by simp), htail,
          List.filterMap_cons_none (f := fun s : String => Segment.ofPiece? s.toList) hmove]
    | some m =>
      have htext : m.text = p := String.toList_inj.1 (Segment.ofPiece?_eq_some hmove).1
      have hdot : p ≠ "." := by
        rintro rfl
        cases hmove
      rw [List.filter_cons_of_pos (by simpa using hdot), htail,
        List.filterMap_cons_some (f := fun s : String => Segment.ofPiece? s.toList) hmove,
        List.map_cons, htext]

/-- The pieces of a path without the slashes at its end, if it ends in a name. -/
theorem exists_init {p : Path} {ms : List Segment} {n : String} (hdot : ¬ p.EndsInDot)
    (hmoves : p.moves = ms ++ [.name n]) :
    ∃ init, piecesOf (withoutEndSlashes p).text.toList = init ++ [n] ∧
      init.filter (· ≠ ".") = ms.map Segment.text := by
  obtain ⟨k, htext, hlast⟩ := exists_endSlashes p
  have hpieces : (Path.pieces (withoutEndSlashes p).text.toList).filter (· ≠ []) =
      (Path.pieces p.text.toList).filter (· ≠ []) := by
    rw [htext, filter_pieces_endSlashes]
  have hfilterMap : ((Path.pieces p.text.toList).filter (· ≠ [])).filterMap Segment.ofPiece? =
      p.moves := by
    rw [List.filterMap_filter, Path.moves]
    refine List.filterMap_congr fun cs _ => ?_
    by_cases hcs : cs = []
    · simp [hcs, Segment.ofPiece?]
    · simp [hcs]
  unfold piecesOf
  rw [if_neg hlast, hpieces]
  unfold Path.EndsInDot at hdot
  have hne : ∀ cs ∈ (Path.pieces p.text.toList).filter (· ≠ []), cs ≠ [] := fun cs hcs => by
    simpa using (List.mem_filter.1 hcs).2
  generalize (Path.pieces p.text.toList).filter (· ≠ []) = ks at hdot hfilterMap hne ⊢
  rcases List.eq_nil_or_concat' ks with rfl | ⟨ks, x, rfl⟩
  · rw [hmoves] at hfilterMap
    exact absurd (List.append_eq_nil_iff.1 hfilterMap.symm).2 (List.cons_ne_nil _ _)
  · rw [List.getLast?_concat, Option.some.injEq] at hdot
    obtain ⟨m, hm⟩ : ∃ m, Segment.ofPiece? x = some m := by
      rw [← Option.ne_none_iff_exists', Ne, Path.ofPiece?_eq_none_iff, not_or]
      exact ⟨hne x (by simp), hdot⟩
    rw [List.filterMap_append, List.filterMap_cons_some hm, List.filterMap_nil, hmoves] at hfilterMap
    obtain ⟨hms, hlast⟩ := List.append_inj' hfilterMap rfl
    obtain rfl : m = .name n := (List.cons.inj hlast).1
    have hx : x = n.toList := (Segment.ofPiece?_eq_some hm).1.symm
    refine ⟨ks.map String.ofList, ?_, ?_⟩
    · rw [List.map_append, List.map_singleton, hx, String.ofList_toList]
    · rw [filter_eq_texts, List.filterMap_map, ← hms]
      · congr 1
        refine List.filterMap_congr fun cs _ => ?_
        simp
      · intro q hq hempty
        obtain ⟨cs, hcs, rfl⟩ := List.mem_map.1 hq
        rw [← String.toList_inj, String.toList_ofList] at hempty
        exact hne cs (List.mem_append_left _ hcs) hempty

/-! ### Names behind a folder -/

/-- A path leads to a folder, and from there along names.  It does not end in a dot. -/
structure LeadsAlong (t : FileTree) (p : Path) (base : Location) (names : List String) : Prop where
  leads : ∃ ms, p.moves = ms ++ Path.names names ∧
    t.findPieces p (ms.map Segment.text) = .ok (.entry base)
  folder : t.get? base = some .folder
  valid : ∀ n ∈ names, IsFileName n
  notInDot : ¬ p.EndsInDot

/-- There are folders along names. -/
def HasFolders (t : FileTree) (base : Location) (names : List String) : Prop :=
  ∀ ns, ns <+: names → t.get? (base ++ ns) = some .folder

/-- Names lead on from a folder through folders. -/
theorem HasFolders.walk {t : FileTree} {base : Location} {names : List String}
    (h : t.HasFolders base names) (hvalid : ∀ n ∈ names, IsFileName n)
    {follow : Location → List String → Except FileError Found} (rest : List String) :
    t.walk follow base (names ++ rest) = t.walk follow (base ++ names) rest := by
  induction names generalizing base with
  | nil => rw [List.nil_append, List.append_nil]
  | cons n names ih =>
    have hn : t.get? (base ++ [n]) = some .folder := h [n] ⟨names, rfl⟩
    rw [List.cons_append, walk_folder (isEntryName_of_isFileName (hvalid n List.mem_cons_self)) hn,
      List.append_cons base n names]
    refine ih (fun ns hns => ?_) fun m hm => hvalid m (List.mem_cons_of_mem n hm)
    rw [← List.append_cons]
    exact h (n :: ns) ((List.prefix_cons_inj n).2 hns)

namespace LeadsAlong

variable {t t' : FileTree} {p : Path} {base : Location} {names : List String} {n : String}

theorem mono (h : t.LeadsAlong p base names) (hgrows : t.Grows t') : t'.LeadsAlong p base names := by
  obtain ⟨ms, hmoves, hleads⟩ := h.leads
  obtain ⟨husable, hwalk⟩ := findPieces_eq_ok.1 hleads
  refine ⟨⟨ms, hmoves, findPieces_eq_ok.2 ⟨husable, ?_⟩⟩, hgrows.folder h.folder, h.valid, h.notInDot⟩
  rw [hgrows.current]
  exact hgrows.walkLinks _ hwalk

theorem ne_nil (h : t.LeadsAlong p base names) (hvacant : t.get? (base ++ names.take 1) = none) :
    names ≠ [] := by
  rintro rfl
  rw [List.take_nil, List.append_nil, h.folder] at hvacant
  cases hvacant

/-- A slash at the end of a path means nothing. -/
theorem slash (h : t.LeadsAlong p base names) (hfits : (p.join ⟨""⟩).Fits) :
    t.LeadsAlong (p.join ⟨""⟩) base names := by
  obtain ⟨ms, hmoves, hleads⟩ := h.leads
  obtain ⟨husable, hwalk⟩ := findPieces_eq_ok.1 hleads
  have hnone : (⟨""⟩ : Path).isAbsolute = false := rfl
  rcases Path.text_join hnone (p := p) with ⟨hempty, -⟩ | ⟨as, bs, htext, hbs, -, hjoin⟩
  · exact absurd hempty husable.nonempty
  have hsame : p.text.toList = as ++ List.replicate bs.length '/' := by
    rcases hbs with rfl | rfl
    · exact htext
    · exact htext
  have hslash : (p.join ⟨""⟩).text.toList = as ++ List.replicate 1 '/' := hjoin
  refine ⟨⟨ms, ?_, findPieces_eq_ok.2 ⟨⟨fun hempty => ?_, fun hnull => ?_, hfits⟩, ?_⟩⟩, h.folder,
    h.valid, ?_⟩
  · rw [Path.moves_join hnone, hmoves]
    exact List.append_nil _
  · rw [hempty] at hjoin
    exact List.cons_ne_nil _ _ (List.append_eq_nil_iff.1 hjoin.symm).2
  · rw [hslash, List.mem_append] at hnull
    rcases hnull with hnull | hnull
    · exact husable.clear (htext ▸ List.mem_append_left _ hnull)
    · exact absurd (List.eq_of_mem_replicate hnull) (by decide)
  · rwa [Path.isAbsolute_join_of_relative husable.nonempty hnone]
  · have hnot := h.notInDot
    rw [Path.EndsInDot, hsame, filter_pieces_endSlashes] at hnot
    rwa [Path.EndsInDot, hslash, filter_pieces_endSlashes]

/-- Pieces that mean names behind the folder lead where the names do, from the folder on. -/
theorem findPieces_eq {names' : List String} {ms : List Segment} {init : List String}
    {r : Except FileError Found} (hleads : t.findPieces p (ms.map Segment.text) = .ok (.entry base))
    (hfolder : t.get? base = some .folder)
    (hinit : init.filter (· ≠ ".") = (ms ++ Path.names names').map Segment.text)
    (hwalk : ∀ follow, t.walk follow base (names' ++ ["."]) = r) :
    t.findPieces p (init ++ ["."]) = r := by
  obtain ⟨husable, hms⟩ := findPieces_eq_ok.1 hleads
  have htexts : (Path.names names').map Segment.text = names' := by
    rw [Path.names, List.map_map]
    exact List.map_id names'
  have hrun : t.walkLinks linkLimit (if p.isAbsolute then [] else t.current) (init ++ ["."]) = r := by
    rw [walkLinks_filter, hinit, List.map_append, htexts, List.append_assoc]
    refine walkLinks_along (P := (· = r)) hfolder (.inl rfl) (fun k => ?_) _
      (by rwa [List.append_nil])
    cases k with
    | zero => exact hwalk _
    | succ k => exact hwalk _
  rw [findPieces, if_neg fun hempty => husable.nonempty (String.isEmpty_iff.1 hempty),
    if_neg fun hnull => husable.clear (List.contains_iff_mem.1 hnull),
    if_neg (Nat.not_lt.2 husable.fits), hrun]

/-- Making the folder of a path looks up the folder that the names but the last lead to. -/
theorem createFolder_eq (h : t.LeadsAlong p base (names ++ [n])) {r : Except FileError Found}
    (hwalk : ∀ follow, t.walk follow base (names ++ ["."]) = r) :
    t.createFolder p = r.bind fun
      | .vacant _ _ => .error .notFound
      | .entry folder =>
        if (t.get? (folder ++ [n])).isSome then .error .alreadyExists
        else .ok (t.set (folder ++ [n]) .folder) := by
  obtain ⟨ms, hmoves, hleads⟩ := h.leads
  rw [Path.names, List.map_append, ← List.append_assoc] at hmoves
  obtain ⟨init, hpieces, hinit⟩ := exists_init h.notInDot hmoves
  have hmade := createFolder_of_isEntryName t hpieces
    (isEntryName_of_isFileName (h.valid n (by simp)))
  rw [findPieces_eq hleads h.folder hinit hwalk] at hmade
  exact hmade

/-- The last name gets a folder where there are folders along the others. -/
theorem createFolder_of_vacant (h : t.LeadsAlong p base (names ++ [n]))
    (hfolders : t.HasFolders base names) (hvacant : t.get? (base ++ names ++ [n]) = none) :
    t.createFolder p = .ok (t.set (base ++ names ++ [n]) .folder) := by
  rw [h.createFolder_eq (r := .ok (.entry (base ++ names))) fun follow => by
    rw [hfolders.walk fun m hm => h.valid m (List.mem_append_left _ hm), walk_current]
    rfl]
  simp only [Except.bind, hvacant, Option.isSome_none, Bool.false_eq_true, if_false]

/-- The last name gets no folder where the first one has none. -/
theorem createFolder_of_missing (h : t.LeadsAlong p base (names ++ [n])) (hne : names ≠ [])
    (hvacant : t.get? (base ++ names.take 1) = none) : t.createFolder p = .error .notFound := by
  obtain ⟨m, names, rfl⟩ := List.exists_cons_of_ne_nil hne
  have hm := isEntryName_of_isFileName (h.valid m (by simp))
  rw [h.createFolder_eq (r := .error .notFound) fun follow => by
    rw [List.cons_append, walk_vacant hm hvacant, if_neg (by simp)]]
  rfl

/-- A path is followed along its names through folders. -/
theorem enters (h : t.LeadsAlong p base names) (hne : names ≠ []) (hfolders : t.HasFolders base names) :
    t.Enters p (base ++ names) := by
  obtain ⟨names, n, rfl⟩ := (List.eq_nil_or_concat' names).resolve_left hne
  obtain ⟨ms, hmoves, hleads⟩ := h.leads
  have hmoves' : p.moves = (ms ++ Path.names names) ++ [.name n] := by
    rw [hmoves, Path.names, List.map_append, List.append_assoc]
    rfl
  obtain ⟨init, hpieces, hinit⟩ := exists_init h.notInDot hmoves'
  have hn := isEntryName_of_isFileName (h.valid n (by simp))
  have hfolder := hfolders _ (List.prefix_refl _)
  have hwhole : (init ++ [n]).filter (· ≠ ".") =
      (ms ++ Path.names (names ++ [n])).map Segment.text := by
    rw [List.filter_append, hinit, List.filter_cons_of_pos (by simpa using hn.notCurrent),
      List.filter_nil, ← hmoves, hmoves']
    simp only [List.map_append, List.map_cons, List.map_nil, Segment.text]
  have hdot : t.findPieces p (init ++ [n] ++ ["."]) = .ok (.entry (base ++ (names ++ [n]))) := by
    refine findPieces_eq hleads h.folder hwhole fun follow => ?_
    rw [hfolders.walk h.valid, walk_current]
    rfl
  obtain ⟨us, hus, hslashes⟩ := piecesOf_withoutEndSlashes p
  obtain ⟨husable, hwalk⟩ := findPieces_eq_ok.1 hdot
  refine ⟨locate_eq_ok.2 (find_eq_ok.2 ⟨husable, ?_⟩), hfolder⟩
  rw [hslashes, hpieces]
  refine walkLinks_append hfolder (.inr rfl) (fun k => ?_) _ hwalk
  rcases hus with rfl | rfl
  · cases k <;> rfl
  · cases k <;> exact walk_current ..

/-- What stands above the last name leads along the others. -/
theorem parent (h : t.LeadsAlong p base (names ++ [n])) (hne : names ≠ []) :
    ∃ q, p.parent? = some q ∧ t.LeadsAlong q base names := by
  obtain ⟨ms, hmoves, hleads⟩ := h.leads
  have hsegments : p.segments = (p.opening ++ (ms ++ Path.names names)) ++ [.name n] := by
    rw [Path.segments_eq, hmoves, Path.names, List.map_append]
    simp only [List.append_assoc]
    rfl
  obtain ⟨q, hq, hqsegments⟩ := Path.segments_parent? hsegments
  obtain ⟨⟨rest, hrest⟩, hmove⟩ := Path.prefix_of_parent? hq
  have hqmoves : q.moves = ms ++ Path.names names := by
    rw [← Path.filter_segments, hqsegments, List.filter_append, List.filter_eq_nil_iff.2 fun m hm => by
      simpa using Path.isMove_of_mem_opening hm, List.nil_append, List.filter_eq_self]
    refine fun m hm => decide_eq_true (Path.isMove_of_mem_moves (p := p) ?_)
    rw [hmoves, Path.names, List.map_append, ← List.append_assoc]
    exact List.mem_append_left _ hm
  have hsome : q.moves ≠ [] := by
    rw [hqmoves]
    exact List.append_ne_nil_of_right_ne_nil _ (List.map_eq_nil_iff.not.2 hne)
  have hnonempty : q.text ≠ "" := fun hempty => hsome (by rw [Path.moves, hempty]; rfl)
  have htext : p = ⟨q.text ++ String.ofList rest⟩ := by
    refine congrArg Path.mk (String.toList_inj.1 ?_)
    rw [String.toList_append, String.toList_ofList, hrest]
  obtain ⟨husable, hwalk⟩ := findPieces_eq_ok.1 hleads
  refine ⟨q, hq, ⟨ms, hqmoves, findPieces_eq_ok.2 ⟨⟨hnonempty, fun hnull => ?_, ?_⟩, ?_⟩⟩, h.folder,
    fun m hm => h.valid m (List.mem_append_left _ hm), (hmove hsome).not_endsInDot⟩
  · exact husable.clear (hrest ▸ List.mem_append_left _ hnull)
  · have hfits := husable.fits
    rw [htext, Path.Fits, String.utf8ByteSize_append] at hfits
    exact Nat.le_trans (Nat.le_add_right _ _) hfits
  · rw [htext, Path.isAbsolute_append hnonempty] at hwalk
    exact hwalk

end LeadsAlong

/-- There are folders above a folder. -/
theorem WellFormed.folder_of_prefix {t : FileTree} (h : t.WellFormed) {l l' : Location}
    (hl : l <+: l') (hfolder : t.get? l' = some .folder) : t.get? l = some .folder := by
  obtain ⟨ns, rfl⟩ := hl
  by_cases hns : ns = []
  · rwa [hns, List.append_nil] at hfolder
  · exact h.above hns hfolder

/-- Where the first of some names is missing, nothing stands at the others and below them. -/
theorem WellFormed.vacant_of_first {t : FileTree} (h : t.WellFormed) {base : Location}
    {names : List String} (hvacant : t.get? (base ++ names.take 1) = none) (ns : List String) :
    t.get? (base ++ names ++ ns) = none := by
  refine Option.eq_none_iff_forall_ne_some.2 fun e he => ?_
  have hwhole : base ++ names ++ ns = base ++ names.take 1 ++ (names.drop 1 ++ ns) := by
    rw [List.append_assoc, List.append_assoc, ← List.append_assoc (names.take 1),
      List.take_append_drop]
  rw [hwhole] at he
  by_cases hnil : names.drop 1 ++ ns = []
  · rw [hnil, List.append_nil, hvacant] at he
    cases he
  · cases hvacant.symm.trans (h.above hnil he)

/-- Where a folder is missing, it is made once those above it are. -/
theorem createChain_of_missing {t : FileTree} {p : Path} {outer : List Path} {u : FileTree} (hp : ¬ p.text.isEmpty = true)
    (hmissing : t.createFolder p = .error .notFound) (houter : t.createChain outer = (u, none)) :
    t.createChain (p :: outer) = createFolderIn p u := by
  rw [createChain_cons, if_neg hp, hmissing, houter]

namespace LeadsAlong

variable {t : FileTree} {p : Path} {base : Location} {names : List String} {n : String}

/-- One more folder along the names. -/
theorem get?_set_last {u : FileTree} {l : Location}
    (hget : ∀ l, u.get? l = if l <+: base ++ names then some .folder else t.get? l) :
    (u.set (base ++ names ++ [n]) .folder).get? l =
      if l <+: base ++ (names ++ [n]) then some .folder else t.get? l := by
  rw [get?_set u (by simp), ← List.append_assoc]
  by_cases hl : l = base ++ names ++ [n]
  · rw [if_pos hl, if_pos (hl ▸ List.prefix_refl _)]
  · rw [if_neg hl, hget]
    simp only [List.prefix_concat_iff, hl, false_or]

/-- **The folder of a path is made with those above it, one for each of its names.** -/
theorem createFolders (h : t.LeadsAlong p base names) (hwf : t.WellFormed)
    (hvacant : t.get? (base ++ names.take 1) = none) :
    (t.createFolders p).2 = none ∧ ∀ l, (t.createFolders p).1.get? l =
      if l <+: base ++ names then some .folder else t.get? l := by
  induction names using List.reverseRecOn generalizing p with
  | nil => exact absurd rfl (h.ne_nil hvacant)
  | append_singleton names n ih =>
    obtain ⟨ms, -, hleads⟩ := h.leads
    have hnonempty : ¬ p.text.isEmpty = true := fun hempty =>
      (findPieces_eq_ok.1 hleads).1.nonempty (String.isEmpty_iff.1 hempty)
    rw [FileTree.createFolders, Path.ancestors_eq]
    by_cases hne : names = []
    · subst hne
      have hbase : ∀ l, t.get? l = if l <+: base ++ [] then some .folder else t.get? l := by
        intro l
        split
        · rename_i hl
          exact hwf.folder_of_prefix (by rwa [List.append_nil] at hl) h.folder
        · rfl
      rw [createChain_cons, if_neg hnonempty, h.createFolder_of_vacant (fun ns hns => by
        rw [List.prefix_nil.1 hns, List.append_nil, h.folder]) (by rwa [List.append_nil])]
      exact ⟨rfl, fun l => get?_set_last hbase⟩
    · have hfirst : (names ++ [n]).take 1 = names.take 1 := by
        obtain ⟨m, names, rfl⟩ := List.exists_cons_of_ne_nil hne
        rfl
      rw [hfirst] at hvacant
      obtain ⟨q, hq, hparent⟩ := h.parent hne
      obtain ⟨hnone, hget⟩ := ih hparent hvacant
      have hgrows := (changes_createFolders hwf q).grows
      rcases hmade : t.createFolders q with ⟨u, e⟩
      rw [hmade] at hnone hget hgrows
      obtain rfl : e = none := hnone
      have hfolders : u.HasFolders base names := fun ns hns => by
        rw [hget, if_pos ((List.prefix_append_right_inj base).2 hns)]
      have hfree : u.get? (base ++ names ++ [n]) = none := by
        rw [hget, if_neg fun hl => absurd hl.length_le (by simp)]
        exact hwf.vacant_of_first hvacant [n]
      rw [createChain_of_missing hnonempty (h.createFolder_of_missing hne hvacant)
        (show t.createChain ((p.parent?.map Path.ancestors).getD []) = (u, none) by rw [hq]; exact hmade),
        createFolderIn, (h.mono hgrows).createFolder_of_vacant hfolders hfree]
      exact ⟨rfl, fun l => get?_set_last hget⟩

end LeadsAlong
end FileTree
end ElementBuild
