/-
# Confined paths lie below their base

A landing place has the segments of its base and the names of the way from there to the
target (`segments_confine_of_way_ne`), so it lies below the base as long as there is a way at
all.  There is none if the target is the base itself (`exists_way`); then the extension of
scripts is appended to the base, and what that gives lies below the base only if the text of the
base does not end in a name (`isBelow_asScript_iff`).
-/
import ElementBuild.Proofs.Path.Narrow
import ElementBuild.Proofs.Path.Specifier

namespace ElementBuild
namespace Path

/-- Once both are clean, the segments of the base are followed by others in the path. -/
def IsBelow (p base : Path) : Prop :=
  base.normalize.segments <+: p.normalize.segments ∧
    base.normalize.segments ≠ p.normalize.segments

instance (p base : Path) : Decidable (p.IsBelow base) := inferInstanceAs (Decidable (_ ∧ _))

/-- The text of a path ends in a name, and not in a slash or dots. -/
def EndsInName (p : Path) : Prop := ∃ s, IsName s ∧ (pieces p.text.toList).getLast? = some s.toList

variable {p base target : Path}

theorem isBelow_iff_clean : p.IsBelow base ↔
    clean base.segments <+: clean p.segments ∧ clean base.segments ≠ clean p.segments := by
  rw [IsBelow, segments_normalize, segments_normalize]

theorem not_isBelow_self (p : Path) : ¬ p.IsBelow p := fun h => h.2 rfl

theorem clean_append_names (cs : List Segment) (xs : List String) :
    clean (cs ++ names xs) = clean cs ++ names xs := by
  rw [clean_append, foldl_names, List.reverse_append, List.reverse_reverse]
  rfl

/-- What has the segments of the base and names after them lies below the base. -/
theorem isBelow_of_segments {xs : List String} (hxs : xs ≠ [])
    (h : p.segments = base.segments ++ names xs) : p.IsBelow base := by
  rw [isBelow_iff_clean, h, clean_append_names]
  refine ⟨List.prefix_append _ _, fun heq => hxs ?_⟩
  exact List.map_eq_nil_iff.1 (List.self_eq_append_right.1 heq)

/-! ### The way to a target -/

/-- An absolute path is clean as moves below the root. -/
theorem exists_moves_of_absolute (h : p.isAbsolute = true) :
    ∃ ms, (∀ m ∈ ms, m.IsMove) ∧ clean p.segments = .root :: ms := by
  have hroot := isAbsolute_iff_segments.1 (isAbsolute_normalize h)
  rw [segments_normalize] at hroot
  obtain ⟨ms, hms, heq | heq⟩ := clean_segments p
  · rw [heq] at hroot
    have hmove := hms .root (List.mem_of_head? hroot)
    exact absurd hmove (by decide)
  · exact ⟨ms, hms, heq⟩

/-- There is a way from names to any moves, and it is empty only between the same ones. -/
theorem steps_from_names {ts : List Segment} (hts : ∀ t ∈ ts, t.IsMove) (bs : List String) :
    ∃ way, steps ts (names bs) = some way ∧ (∀ m ∈ way, m.IsMove) ∧ (way = [] ↔ ts = names bs) := by
  have hclimb : ∀ k, ∀ m ∈ List.replicate k Segment.parent ++ ts, m.IsMove := by
    intro k m hm
    rcases List.mem_append.1 hm with hm | hm
    · rw [(List.mem_replicate.1 hm).2]
      decide
    · exact hts m hm
  induction bs generalizing ts with
  | nil => exact ⟨ts, by cases ts <;> rfl, hts, Iff.rfl⟩
  | cons b bs ih =>
    cases ts with
    | nil =>
      refine ⟨List.replicate (bs.length + 1) .parent, ?_, ?_, by simp⟩
      · simp [steps, stepsApart]
      · simpa using hclimb (bs.length + 1)
    | cons t ts =>
      have hrest : ∀ m ∈ ts, m.IsMove := fun m hm => hts m (List.mem_cons_of_mem t hm)
      by_cases htb : t = .name b
      · obtain ⟨way, hway, hmoves, hnil⟩ := ih hrest fun k m hm =>
          hclimb k m (List.mem_append.2 ((List.mem_append.1 hm).imp_right (List.mem_cons_of_mem t)))
        refine ⟨way, ?_, hmoves, ?_⟩
        · rw [names, List.map_cons, steps, if_pos htb]
          exact hway
        · rw [hnil, htb, show names (b :: bs) = .name b :: names bs from rfl, List.cons.injEq,
            eq_self, true_and]
      · refine ⟨List.replicate (bs.length + 1) .parent ++ t :: ts, ?_, hclimb _, ?_⟩
        · simp [steps, stepsApart, htb]
        · simp [htb]

/-- **There is a way from a base to any target**, along moves, and it is empty only to the base
itself. -/
theorem exists_way (hbase : base.isAbsolute = true) (hstays : .parent ∉ clean base.segments)
    (htarget : target.isAbsolute = true) :
    (∀ m ∈ (wayFrom base target).segments, m.IsMove) ∧
      ((wayFrom base target).segments = [] ↔ target.normalize = base.normalize) := by
  obtain ⟨bs, hbs⟩ := exists_names_of_absolute hbase hstays
  obtain ⟨ts, hts, hclean⟩ := exists_moves_of_absolute htarget
  obtain ⟨way, hway, hmoves, hnil⟩ := steps_from_names hts bs
  have hfrom : wayFrom base target = wayFrom base.normalize target := by
    rw [wayFrom, wayFrom, normalize_normalize]
  have hsegments : (wayFrom base target).segments = way := by
    rw [hfrom]
    refine segments_wayFrom ?_ hmoves ?_ ?_
    · rw [segments_normalize]
      exact isClean_clean base.segments
    · rw [segments_normalize, hbs, hclean]
      exact Iff.rfl
    · rw [segments_normalize, hbs, hclean, steps, if_pos rfl, hway]
  rw [hsegments, normalize_eq_iff, hclean, hbs, List.cons.injEq, eq_self, true_and]
  exact ⟨hmoves, hnil⟩

/-- Where there is a way, the landing place has the segments of the base and names after
them. -/
theorem isBelow_confine_of_way (hmoves : ∀ m ∈ (wayFrom base target).segments, m.IsMove)
    (hne : (wayFrom base target).segments ≠ []) : (confine base target).IsBelow base := by
  obtain ⟨ms, m, hway⟩ := (List.eq_nil_or_concat' _).resolve_left hne
  have hsegments := segments_confine (fun n hn => hmoves n (hway ▸ List.mem_append_left _ hn))
    (hmoves m (hway ▸ List.mem_append_right _ (List.mem_singleton_self m))) hway
  exact isBelow_of_segments (by simp) hsegments

/-! ### The extension of scripts -/

/-- What is appended to an absolute path does not open it. -/
theorem isAbsolute_append_text (h : p.isAbsolute = true) (extension : String) :
    (Path.mk (p.text ++ extension)).isAbsolute = true := by
  obtain ⟨cs, hcs⟩ := isAbsolute_iff.1 h
  exact isAbsolute_iff.2 ⟨cs ++ extension.toList, by rw [String.toList_append, hcs]; rfl⟩

/-- A parent folder that is not left standing takes a segment away. -/
theorem exists_of_parent_not_mem {cs : List Segment} (h : .parent ∉ clean (cs ++ [.parent])) :
    ∃ c, clean cs = clean (cs ++ [.parent]) ++ [c] := by
  rw [clean_append, List.foldl_cons, List.foldl_nil] at h ⊢
  rw [clean]
  generalize cs.foldl cleanStep [] = stack at h ⊢
  cases stack with
  | nil => exact absurd (List.mem_singleton_self _) h
  | cons top below =>
    cases top with
    | root => exact absurd (by simp [cleanStep]) h
    | _ => exact ⟨_, List.reverse_cons⟩

/-- A base and the base with the extension of scripts part at the last piece of the text. -/
theorem exists_last_piece (hbase : base.isAbsolute = true) : ∃ above last,
    (pieces base.text.toList).getLast? = some last ∧ '/' ∉ last ∧
      base.segments = above ++ (Segment.ofPiece? last).toList ∧
      (Path.mk (base.text ++ ".js")).segments =
        above ++ names [String.ofList (last ++ ".js".toList)] := by
  obtain ⟨init, last, hpieces, happended⟩ :=
    @pieces_append base.text.toList ".js".toList (by decide)
  have habsolute := isAbsolute_append_text hbase ".js"
  refine ⟨.root :: init.filterMap Segment.ofPiece?, last, ?_, ?_, ?_, ?_⟩
  · rw [hpieces, List.getLast?_concat]
  · exact slash_not_mem_of_mem_pieces
      (hpieces ▸ List.mem_append_right init (List.mem_singleton_self last))
  · rw [segments_of_absolute hbase, moves, hpieces, List.filterMap_append, List.cons_append]
    cases hpiece : Segment.ofPiece? last <;> simp [hpiece]
  · rw [segments_of_absolute habsolute, moves, String.toList_append, happended,
      List.filterMap_append, List.filterMap_cons_some (ofPiece?_append_extension last)]
    rfl

/-- The extension of scripts, where it is appended to a base, leads below it only if no name is
there that takes it up. -/
theorem isBelow_asScript_iff (hbase : base.isAbsolute = true)
    (hstays : .parent ∉ clean base.segments) :
    base.asScript.IsBelow base ↔ ¬ base.EndsInName ∧ base.extension? ≠ some "js" := by
  by_cases hextension : base.extension? = some "js"
  · rw [asScript, if_pos hextension]
    exact iff_of_false (not_isBelow_self base) fun h => h.2 hextension
  rw [asScript, if_neg hextension, and_iff_left hextension]
  obtain ⟨above, last, hlast, hslash, hsegments, happended⟩ := exists_last_piece hbase
  have hname : ∀ {s}, base.EndsInName → Segment.ofPiece? last = s → ∃ n, s = some (.name n) := by
    rintro s ⟨n, hn, hpiece⟩ rfl
    obtain rfl := Option.some.inj (hlast.symm.trans hpiece)
    exact ⟨n, hn.1⟩
  rw [isBelow_iff_clean, happended, clean_append_names]
  cases hpiece : Segment.ofPiece? last with
  | none =>
    rw [hpiece, Option.toList_none, List.append_nil] at hsegments
    rw [hsegments]
    refine iff_of_true ⟨List.prefix_append _ _, by simp⟩ fun h => ?_
    obtain ⟨n, hn⟩ := hname h hpiece
    cases hn
  | some m =>
    have hmove := Segment.isMove_of_ofPiece? hslash hpiece
    rw [hpiece, Option.toList_some] at hsegments
    rcases hmove.eq_parent_or_name with rfl | ⟨n, rfl⟩
    · -- the extension makes a name of the dots, so the folder above is not left
      refine iff_of_true ?_ fun h => ?_
      · obtain ⟨c, hc⟩ := exists_of_parent_not_mem (hsegments ▸ hstays)
        rw [hsegments, hc, List.append_assoc]
        exact ⟨List.prefix_append _ _, by simp⟩
      · obtain ⟨n, hn⟩ := hname h hpiece
        cases hn
    · rw [hsegments, show above ++ [Segment.name n] = above ++ names [n] from rfl,
        clean_append_names]
      refine iff_of_false ?_ fun h => h ⟨n, hmove, ?_⟩
      · rintro ⟨h, hne⟩
        exact hne (h.eq_of_length (by simp))
      · rw [hlast, (Segment.ofPiece?_eq_some hpiece).1.symm]
        rfl

/-- **A target lands strictly below its base, unless it is the base itself.**  The base lands
below itself only if the extension of scripts finds a slash or dots at its end, which it makes a
name of. -/
theorem isBelow_confine_iff (hbase : base.isAbsolute = true)
    (hstays : .parent ∉ clean base.segments) (htarget : target.isAbsolute = true) :
    (confine base target).IsBelow base ↔ target.normalize ≠ base.normalize ∨
      ¬ base.EndsInName ∧ base.extension? ≠ some "js" := by
  obtain ⟨hmoves, hnil⟩ := exists_way hbase hstays htarget
  by_cases hway : (wayFrom base target).segments = []
  · have hconfine : confine base target = base.asScript := by
      rw [confine, hway, List.foldl_nil]
    rw [hconfine, isBelow_asScript_iff hbase hstays, or_iff_right fun h => h (hnil.1 hway)]
  · exact iff_of_true (isBelow_confine_of_way hmoves hway) (.inl fun h => hway (hnil.2 h))

/-! ### Absolute landing places -/

/-- What is confined below an absolute base is absolute. -/
theorem isAbsolute_confine (h : base.isAbsolute = true) (target : Path) :
    (confine base target).isAbsolute = true := by
  have hfold : ∀ (cs : List Segment) {p : Path}, p.isAbsolute = true →
      (cs.foldl confinedStep p).isAbsolute = true := by
    intro cs
    induction cs with
    | nil => exact fun hp => hp
    | cons c cs ih =>
      intro p hp
      refine ih ?_
      cases c with
      | current => exact hp
      | root | parent | name _ => exact isAbsolute_join hp _
  unfold confine asScript
  split
  · exact hfold _ h
  · exact isAbsolute_append_text (hfold _ h) ".js"

end Path
end ElementBuild
