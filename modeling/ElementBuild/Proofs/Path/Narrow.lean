/-
# How long the pieces of paths are

A path is narrow if none of its pieces is long.  What is made of narrow paths is narrow:
joined paths, ways from one to another, and landing places, whose names get at most the
extension of scripts in addition (`exists_fileName?_confine`).
-/
import ElementBuild.Proofs.Path.Confined
import ElementBuild.Proofs.Path.Specifier
import Mathlib.Data.String.Basic

namespace ElementBuild
namespace Path

/-! ### Pieces -/

theorem sublist_of_mem_pieces {p cs : List Char} (h : p ∈ pieces cs) : p.Sublist cs := by
  induction cs generalizing p with
  | nil =>
    rw [List.mem_singleton.1 h]
  | cons c cs ih =>
    unfold pieces at h
    split at h
    · rcases List.mem_cons.1 h with rfl | h
      · exact List.nil_sublist _
      · exact (ih h).cons c
    · cases hpieces : pieces cs with
      | nil => exact absurd hpieces (pieces_ne_nil cs)
      | cons q qs =>
        rw [hpieces] at h
        rcases List.mem_cons.1 h with rfl | h
        · exact (ih (hpieces ▸ List.mem_cons_self)).cons_cons c
        · exact (ih (hpieces ▸ List.mem_cons_of_mem q h)).cons c

/-- Text without slashes goes to the last piece. -/
theorem pieces_append {as bs : List Char} (h : '/' ∉ bs) :
    ∃ init last, pieces as = init ++ [last] ∧ pieces (as ++ bs) = init ++ [last ++ bs] := by
  induction as with
  | nil => exact ⟨[], [], rfl, pieces_of_not_mem h⟩
  | cons c as ih =>
    obtain ⟨init, last, has, hbs⟩ := ih
    by_cases hc : c = '/'
    · subst hc
      refine ⟨[] :: init, last, ?_, ?_⟩
      · rw [pieces_slash, has]
        rfl
      · rw [List.cons_append, pieces_slash, hbs]
        rfl
    · rw [List.cons_append, pieces, if_neg hc, pieces, if_neg hc, has, hbs]
      cases init with
      | nil => exact ⟨[], c :: last, rfl, rfl⟩
      | cons p ps => exact ⟨(c :: p) :: ps, last, rfl, rfl⟩

/-- The pieces of texts that are joined are those of the texts. -/
theorem mem_pieces_joinPieces {p : List Char} {ps : List (List Char)}
    (h : p ∈ pieces (joinPieces ps)) : p = [] ∨ ∃ q ∈ ps, p ∈ pieces q := by
  induction ps with
  | nil => exact .inl (List.mem_singleton.1 h)
  | cons q qs ih =>
    cases qs with
    | nil => exact .inr ⟨q, List.mem_cons_self, h⟩
    | cons r rs =>
      rw [joinPieces, pieces_append_slash] at h
      · rcases List.mem_append.1 h with h | h
        · exact .inr ⟨q, List.mem_cons_self, h⟩
        · rcases ih h with rfl | ⟨q', hq', hp⟩
          · exact .inl rfl
          · exact .inr ⟨q', List.mem_cons_of_mem q hq', hp⟩
      · simp

/-! ### Narrow paths -/

/-- No piece of the path takes more than a number of bytes. -/
def Narrow (k : Nat) (p : Path) : Prop := ∀ cs ∈ pieces p.text.toList, String.utf8Len cs ≤ k

theorem Narrow.mono {j k : Nat} {p : Path} (h : p.Narrow j) (hjk : j ≤ k) : p.Narrow k :=
  fun cs hcs => (h cs hcs).trans hjk

/-- A short path is narrow. -/
theorem narrow_of_size {k : Nat} {p : Path} (h : p.text.utf8ByteSize ≤ k) : p.Narrow k := by
  intro cs hcs
  have hsublist := String.utf8Len_le_of_sublist (sublist_of_mem_pieces hcs)
  rw [String.utf8Len_toList] at hsublist
  exact hsublist.trans h

variable {k : Nat} {p q : Path}

/-- The segments of a narrow path are short. -/
theorem Narrow.segment (h : p.Narrow k) (hk : 2 ≤ k) {c : Segment} (hc : c ∈ p.segments) :
    c.text.utf8ByteSize ≤ k := by
  cases c with
  | root => exact (show 1 ≤ 2 by decide).trans hk
  | current => exact (show 1 ≤ 2 by decide).trans hk
  | parent => exact hk
  | name s =>
    rw [segments_eq] at hc
    have hmove := (List.mem_append.1 hc).resolve_left (name_not_mem_openingOf s _)
    obtain ⟨cs, hcs, hpiece⟩ := List.mem_filterMap.1 hmove
    have htext := (Segment.ofPiece?_eq_some hpiece).1
    have hle := h cs hcs
    rw [← htext, String.utf8Len_toList] at hle
    exact hle

/-- A path is narrow if its names are short. -/
theorem narrow_of_names (hk : 2 ≤ k) (h : ∀ s, .name s ∈ p.segments → s.utf8ByteSize ≤ k) :
    p.Narrow k := by
  intro cs hcs
  cases hpiece : Segment.ofPiece? cs with
  | none =>
    rcases ofPiece?_eq_none_iff.1 hpiece with rfl | rfl
    · exact Nat.zero_le k
    · exact (show String.utf8Len ['.'] ≤ 2 by decide).trans hk
  | some m =>
    obtain ⟨rfl, hroot, hcurrent⟩ := Segment.ofPiece?_eq_some hpiece
    have hmem : m ∈ p.segments := by
      rw [segments_eq]
      exact List.mem_append_right _ (List.mem_filterMap.2 ⟨_, hcs, hpiece⟩)
    rw [String.utf8Len_toList]
    cases m with
    | root => exact absurd rfl hroot
    | current => exact absurd rfl hcurrent
    | parent => exact hk
    | name s => exact h s hmem

/-- Joined narrow paths are narrow. -/
theorem Narrow.join (hp : p.Narrow k) (hq : q.Narrow k) : (p.join q).Narrow k := by
  by_cases habsolute : q.isAbsolute = true
  · rw [Path.join, if_pos habsolute]
    exact hq
  · rcases text_join (p := p) (Bool.not_eq_true _ ▸ habsolute) with
      ⟨-, hjoin⟩ | ⟨as, bs, htext, hbs, -, hjoin⟩
    · rw [hjoin]
      exact hq
    · intro cs hcs
      rw [hjoin, pieces_append_slash] at hcs
      rcases List.mem_append.1 hcs with hcs | hcs
      · refine hp cs ?_
        rw [htext]
        rcases hbs with rfl | rfl
        · rw [List.append_nil]
          exact hcs
        · rw [pieces_append_slash]
          exact List.mem_append_left _ hcs
      · exact hq cs hcs

/-- What is joined to make a narrow path is narrow. -/
theorem Narrow.of_join (h : (p.join q).Narrow k) (hq : q.isAbsolute = false) : q.Narrow k := by
  rcases text_join (p := p) hq with ⟨-, hjoin⟩ | ⟨as, bs, -, -, -, hjoin⟩
  · rw [hjoin] at h
    exact h
  · intro cs hcs
    refine h cs ?_
    rw [hjoin, pieces_append_slash]
    exact List.mem_append_right _ hcs

/-- A path of short segments is narrow. -/
theorem narrow_ofSegments {cs : List Segment} (h : ∀ c ∈ cs, c.text.utf8ByteSize ≤ k) :
    (ofSegments cs).Narrow k := by
  have hjoined : ∀ cs : List Segment, (∀ c ∈ cs, c.text.utf8ByteSize ≤ k) →
      ∀ p ∈ pieces ("/".intercalate (cs.map Segment.text)).toList, String.utf8Len p ≤ k := by
    intro cs h p hp
    rw [toList_intercalate_slash] at hp
    rcases mem_pieces_joinPieces hp with rfl | ⟨q, hq, hpq⟩
    · exact Nat.zero_le k
    · rw [List.map_map] at hq
      obtain ⟨c, hc, rfl⟩ := List.mem_map.1 hq
      have hle := String.utf8Len_le_of_sublist (sublist_of_mem_pieces hpq)
      rw [Function.comp_apply, String.utf8Len_toList] at hle
      exact hle.trans (h c hc)
  unfold ofSegments textOf
  split
  · rename_i rest
    intro p hp
    rw [String.toList_append] at hp
    change p ∈ pieces ('/' :: _) at hp
    rw [pieces_slash] at hp
    rcases List.mem_cons.1 hp with rfl | hp
    · exact Nat.zero_le k
    · exact hjoined rest (fun c hc => h c (List.mem_cons_of_mem _ hc)) p hp
  · exact hjoined cs h

theorem mem_of_mem_clean {cs : List Segment} {c : Segment} (h : c ∈ clean cs) : c ∈ cs := by
  have hstack : ∀ (cs stack : List Segment), c ∈ cs.foldl cleanStep stack → c ∈ stack ∨ c ∈ cs := by
    intro cs
    induction cs with
    | nil => exact fun stack h => .inl h
    | cons d cs ih =>
      intro stack h
      rcases ih _ h with h | h
      · unfold cleanStep at h
        split at h
        · exact .inl h
        · split at h
          · exact .inr (List.mem_singleton.1 h ▸ List.mem_cons_self)
          · rcases List.mem_cons.1 h with rfl | h
            · exact .inr List.mem_cons_self
            · exact .inl h
          · exact .inl (List.mem_cons_of_mem _ h)
        · rcases List.mem_cons.1 h with rfl | h
          · exact .inr List.mem_cons_self
          · exact .inl h
      · exact .inr (List.mem_cons_of_mem _ h)
  exact (hstack cs [] (List.mem_reverse.1 h)).resolve_left List.not_mem_nil

theorem Narrow.normalize (h : p.Narrow k) (hk : 2 ≤ k) : p.normalize.Narrow k :=
  narrow_ofSegments fun _ hc => h.segment hk (mem_of_mem_clean hc)

/-- Steps are those of the target, or climb. -/
theorem mem_stepsApart {target base cs : List Segment} (h : stepsApart target base = some cs)
    {c : Segment} (hc : c ∈ cs) : c ∈ target ∨ c = .parent := by
  fun_induction stepsApart target base generalizing cs with
  | case1 target =>
    obtain rfl := Option.some.inj h
    exact .inl hc
  | case2 base =>
    obtain rfl := Option.some.inj h
    exact .inr (List.eq_of_mem_replicate hc)
  | case3 t target base ih =>
    obtain ⟨ds, hds, rfl⟩ := Option.map_eq_some_iff.1 h
    rcases List.mem_cons.1 hc with rfl | hc
    · exact .inl List.mem_cons_self
    · exact (ih hds hc).imp_left (List.mem_cons_of_mem t)
  | case4 => cases h
  | case5 =>
    obtain rfl := Option.some.inj h
    rcases List.mem_append.1 hc with hc | hc
    · exact .inr (List.eq_of_mem_replicate hc)
    · exact .inl hc

theorem mem_steps {target base cs : List Segment} (h : steps target base = some cs)
    {c : Segment} (hc : c ∈ cs) : c ∈ target ∨ c = .parent := by
  fun_induction steps target base with
  | case1 target t base ih => exact (ih h).imp_left (List.mem_cons_of_mem t)
  | case2 => exact mem_stepsApart h hc
  | case3 => exact mem_stepsApart h hc

variable {base target : Path}

theorem Narrow.wayFrom (h : target.Narrow k) (hk : 2 ≤ k) : (wayFrom base target).Narrow k := by
  have htarget := h.normalize hk
  unfold Path.wayFrom difference?
  split
  · cases hsteps : steps target.normalize.segments base.normalize.segments with
    | none => exact htarget
    | some cs =>
      refine narrow_ofSegments fun c hc => ?_
      rcases mem_steps hsteps hc with hc | rfl
      · exact htarget.segment hk hc
      · exact hk
  · split
    · exact htarget
    · exact htarget

theorem Narrow.foldl_confinedStep (h : p.Narrow k) (hk : 2 ≤ k) {cs : List Segment}
    (hcs : ∀ c ∈ cs, c.text.utf8ByteSize ≤ k) : (cs.foldl confinedStep p).Narrow k := by
  induction cs generalizing p with
  | nil => exact h
  | cons c cs ih =>
    refine ih ?_ fun d hd => hcs d (List.mem_cons_of_mem c hd)
    have hjoin : ∀ s : String, s.utf8ByteSize ≤ k → (p.join ⟨s⟩).Narrow k := fun s hs =>
      h.join (narrow_of_size hs)
    have hc := hcs c List.mem_cons_self
    cases c with
    | root => exact hjoin _ hc
    | current => exact h
    | parent => exact hjoin _ hk
    | name s => exact hjoin _ hc

/-- A text that has the extension of scripts appended is a name. -/
theorem ofPiece?_append_extension (cs : List Char) :
    Segment.ofPiece? (cs ++ ".js".toList) = some (.name (String.ofList (cs ++ ".js".toList))) := by
  have hlength : 2 < (cs ++ ".js".toList).length := by
    rw [List.length_append]
    exact Nat.le_add_left 3 cs.length
  unfold Segment.ofPiece?
  split
  · rename_i hnil
    exact absurd (hnil ▸ hlength) (by decide)
  · rename_i hdot
    exact absurd (hdot ▸ hlength) (by decide)
  · rename_i hdots
    exact absurd (hdots ▸ hlength) (by decide)
  · rfl

/-- The extension of scripts makes a file name, which it makes longer by three bytes. -/
theorem exists_fileName?_asScript (h : p.Narrow k) (hk : 2 ≤ k) :
    ∃ n, p.asScript.fileName? = some n ∧ n.utf8ByteSize ≤ k + 3 := by
  unfold asScript
  split
  · rename_i hextension
    obtain ⟨n, hn, -⟩ := Option.bind_eq_some_iff.1 hextension
    obtain ⟨-, cs, hsegments⟩ := segments_of_fileName? hn
    have hsize := h.segment hk (hsegments ▸ List.mem_append_right cs (List.mem_singleton_self _))
    exact ⟨n, hn, hsize.trans (Nat.le_add_right k 3)⟩
  · obtain ⟨init, last, hpieces, happended⟩ :=
      @pieces_append p.text.toList ".js".toList (by decide)
    have hmove := ofPiece?_append_extension last
    have hname : (Path.mk (p.text ++ ".js")).fileName? =
        some (String.ofList (last ++ ".js".toList)) := by
      rw [fileName?, segments_eq, moves, String.toList_append, happended, List.filterMap_append,
        List.filterMap_cons_some hmove, List.filterMap_nil, ← List.append_assoc,
        List.getLast?_concat]
      rfl
    refine ⟨_, hname, ?_⟩
    have hlast := h last (hpieces ▸ List.mem_append_right init (List.mem_singleton_self last))
    rw [String.utf8ByteSize_ofList, String.utf8Len_append]
    exact Nat.add_le_add_right hlast 3

/-- **A landing place has a name**, which is short if the base and the target are
narrow. -/
theorem exists_fileName?_confine (hk : 2 ≤ k) (hbase : base.Narrow k) (htarget : target.Narrow k) :
    ∃ n, (confine base target).fileName? = some n ∧ n.utf8ByteSize ≤ k + 3 :=
  exists_fileName?_asScript (hbase.foldl_confinedStep hk fun _ hc =>
    (htarget.wayFrom hk).segment hk hc) hk

end Path
end ElementBuild
