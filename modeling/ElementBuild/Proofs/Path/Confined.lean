/-
# Where confined paths land

The way from a base to a target is what is left of the target below the base, or
climbs to where the two part (`steps_append`, `steps_apart`).  Following it from the
base with sentinels for the climb gives the segments of the landing place
(`segments_confine`).
-/
import ElementBuild.Proofs.Path.Normal

namespace ElementBuild
namespace Path

/-! ### The way from a base -/

theorem head?_append_names (cs : List Segment) (xs : List String) :
    (cs ++ names xs).head? = some .root ↔ cs.head? = some .root := by
  cases cs with
  | nil => cases xs <;> simp
  | cons => exact Iff.rfl

theorem steps_append (base way : List Segment) : steps (base ++ way) base = some way := by
  induction base with
  | nil => cases way <;> rfl
  | cons b base ih => rw [List.cons_append, steps, if_pos rfl, ih]

/-- Where the names of a base part from those of a target, the way climbs. -/
theorem steps_apart (common : List Segment) {climbed down : List String}
    (hclimbed : climbed ≠ []) (hpart : climbed.head? ≠ down.head?) :
    steps (common ++ names down) (common ++ names climbed) =
      some (List.replicate climbed.length .parent ++ names down) := by
  induction common with
  | nil =>
    obtain ⟨c, cs, rfl⟩ := List.exists_cons_of_ne_nil hclimbed
    cases down with
    | nil => simp [steps, stepsApart]
    | cons d ds =>
      have hne : d ≠ c := fun h => hpart (by rw [h]; rfl)
      simp [steps, stepsApart, hne]
  | cons c common ih => rw [List.cons_append, List.cons_append, steps, if_pos rfl, ih]

theorem segments_wayFrom {base target : Path} {way : List Segment}
    (hbase : IsClean base.segments) (hway : ∀ m ∈ way, m.IsMove)
    (hroot : (clean target.segments).head? = some .root ↔ base.segments.head? = some .root)
    (h : steps (clean target.segments) base.segments = some way) :
    (wayFrom base target).segments = way := by
  have hsegments : base.normalize.segments = base.segments := (segments_normalize base).trans hbase
  have habsolute : target.normalize.isAbsolute = base.normalize.isAbsolute := by
    rw [Bool.eq_iff_iff, isAbsolute_iff_segments, isAbsolute_iff_segments, segments_normalize,
      hsegments]
    exact hroot
  rw [wayFrom, difference?, if_pos habsolute, segments_normalize, hsegments, h]
  exact segments_ofSegments hway

/-! ### Scripts -/

/-- The name of a script: one that has another extension or none gets its own
appended. -/
def scriptName (s : String) : String := (asScript ⟨s⟩).text

theorem scriptName_eq (s : String) : scriptName s = s ∨ scriptName s = s ++ ".js" := by
  unfold scriptName asScript
  split
  · exact .inl rfl
  · exact .inr rfl

theorem isName_append {s t : String} (hs : IsName s) (ht : '/' ∉ t.toList) (hlen : 2 < t.length) :
    IsName (s ++ t) := by
  have hne : ∀ cs : List Char, cs.length ≤ 2 → (s ++ t).toList ≠ cs := by
    rintro cs hcs rfl
    rw [String.toList_append, List.length_append, String.length_toList, String.length_toList] at hcs
    omega
  have hslash : '/' ∉ (s ++ t).toList := by
    rw [String.toList_append, List.mem_append, not_or]
    exact ⟨hs.2, ht⟩
  refine ⟨?_, hslash⟩
  change Segment.ofPiece? (s ++ t).toList = _
  unfold Segment.ofPiece?
  split
  · rename_i h
    exact absurd h (hne [] (by simp))
  · rename_i h
    exact absurd h (hne ['.'] (by simp))
  · rename_i h
    exact absurd h (hne ['.', '.'] (by simp))
  · rw [String.ofList_toList]

theorem isName_scriptName {s : String} (h : IsName s) : IsName (scriptName s) := by
  rcases scriptName_eq s with heq | heq
  · rw [heq]
    exact h
  · rw [heq]
    exact isName_append h (by decide) (by decide)

/-- The name of a script has the extension of scripts, so it is no name without it. -/
theorem scriptName_ne {s t : String} (hextension : (Path.mk t).extension? ≠ some "js")
    (hlast : t.toList.getLast? ≠ some 's') : scriptName s ≠ t := by
  unfold scriptName asScript
  split
  · rename_i h
    rintro rfl
    exact hextension h
  · rintro rfl
    exact hlast (by simp)

theorem scriptName_ne_parentSentinel (s : String) : scriptName s ≠ parentSentinel :=
  scriptName_ne (by decide) (by decide)

theorem extension?_congr {p q : Path} (h : p.segments.getLast? = q.segments.getLast?) :
    p.extension? = q.extension? := by
  rw [extension?, extension?, fileName?, fileName?, h]

theorem exists_join_eq (p : Path) :
    ∃ start, ∀ q : Path, q.isAbsolute = false → p.join q = ⟨start ++ q.text⟩ := by
  by_cases h : (p.text.isEmpty || p.text.toList.getLast? == some '/') = true
  · refine ⟨p.text, fun q hq => ?_⟩
    rw [join, if_neg (by simp [hq]), if_pos h]
  · refine ⟨p.text ++ "/", fun q hq => ?_⟩
    rw [join, if_neg (by simp [hq]), if_neg h]

theorem asScript_join (p : Path) {s : String} (h : IsName s) :
    (p.join ⟨s⟩).asScript = p.join ⟨scriptName s⟩ := by
  have hextension : (p.join ⟨s⟩).extension? = (Path.mk s).extension? := by
    refine extension?_congr ?_
    rw [segments_join_name p h, h.segments, List.getLast?_append]
    rfl
  obtain ⟨start, hstart⟩ := exists_join_eq p
  rw [hstart _ (isName_scriptName h).isAbsolute, asScript, hextension, hstart _ h.isAbsolute]
  unfold scriptName asScript
  split
  · rfl
  · rw [String.append_assoc]

theorem textOf_append_name (cs : List Segment) (s t : String) :
    textOf (cs ++ [.name s]) ++ t = textOf (cs ++ [.name (s ++ t)]) := by
  have hintercalate : ∀ xs : List String,
      "/".intercalate (xs ++ [s]) ++ t = "/".intercalate (xs ++ [s ++ t]) := by
    intro xs
    induction xs with
    | nil => simp
    | cons x xs ih =>
      rw [List.cons_append, List.cons_append, String.intercalate_cons_of_ne_nil (by simp),
        String.intercalate_cons_of_ne_nil (by simp), String.append_assoc, ih]
  by_cases hroot : ∃ rest, cs = .root :: rest
  · obtain ⟨rest, rfl⟩ := hroot
    have hrest := hintercalate (rest.map Segment.text)
    rw [List.cons_append, List.cons_append, textOf, textOf, List.map_append, List.map_append,
      String.append_assoc]
    exact congrArg ("/" ++ ·) hrest
  · have hne : ∀ (c : Segment) (rest : List Segment), c ≠ .root → cs ++ [c] ≠ .root :: rest := by
      rintro c rest hc heq
      cases cs with
      | nil => exact hc (List.cons.inj heq).1
      | cons d ds => exact hroot ⟨ds, by rw [(List.cons.inj heq).1]⟩
    rw [textOf, textOf, List.map_append, List.map_append]
    · exact hintercalate (cs.map Segment.text)
    · exact fun rest => hne _ rest (by simp)
    · exact fun rest => hne _ rest (by simp)

/-- The script that a path stands for, once it is clean. -/
theorem segments_asScript_normalize {p : Path} {cs : List Segment} {s : String}
    (h : clean p.segments = cs ++ [.name s]) :
    p.normalize.asScript.segments = cs ++ [.name (scriptName s)] := by
  have hs : IsName s :=
    isMove_of_mem_clean (h ▸ List.mem_append_right _ (List.mem_singleton_self _)) (by simp)
  have hextension : p.normalize.extension? = (Path.mk s).extension? := by
    refine extension?_congr ?_
    rw [segments_normalize, h, hs.segments, List.getLast?_append]
    rfl
  have hscript : p.normalize.asScript = ofSegments (cs ++ [.name (scriptName s)]) := by
    rw [asScript, hextension, normalize, h]
    unfold scriptName asScript
    split
    · rfl
    · exact congrArg Path.mk (textOf_append_name cs s ".js")
  have hlast : Segment.IsMove (.name (scriptName s)) := isName_scriptName hs
  rw [hscript]
  obtain ⟨ms, hms, hclean | hclean⟩ := clean_segments p
  · refine segments_ofSegments fun m hm => ?_
    rcases List.mem_append.1 hm with hm | hm
    · exact hms m (by rw [← hclean, h]; exact List.mem_append_left _ hm)
    · rw [List.mem_singleton.1 hm]
      exact hlast
  · cases cs with
    | nil =>
      rw [h] at hclean
      cases hclean
    | cons c cs =>
      rw [h] at hclean
      obtain ⟨rfl, rfl⟩ := List.cons.inj hclean
      refine segments_ofSegments_root fun m hm => ?_
      rcases List.mem_append.1 hm with hm | hm
      · exact hms m (List.mem_append_left _ hm)
      · rw [List.mem_singleton.1 hm]
        exact hlast

/-! ### Landing places -/

/-- The name below a base that a move of the way is followed to. -/
def sentinel : Segment → String
  | .parent => parentSentinel
  | c => c.text

theorem map_sentinel_names (xs : List String) : (names xs).map sentinel = xs := by
  rw [List.map_map]
  exact List.map_id xs

theorem isName_sentinel {m : Segment} (h : m.IsMove) : IsName (sentinel m) := by
  rcases h.eq_parent_or_name with rfl | ⟨s, rfl⟩
  · decide
  · exact h

theorem confinedStep_eq {p : Path} {m : Segment} (h : m.IsMove) :
    confinedStep p m = p.join ⟨sentinel m⟩ := by
  rcases h.eq_parent_or_name with rfl | ⟨s, rfl⟩ <;> rfl

theorem segments_foldl_confinedStep {ms : List Segment} (h : ∀ m ∈ ms, m.IsMove) (p : Path) :
    (ms.foldl confinedStep p).segments = p.segments ++ names (ms.map sentinel) := by
  induction ms generalizing p with
  | nil => exact (List.append_nil _).symm
  | cons m ms ih =>
    have hm : m.IsMove := h m (List.mem_cons_self ..)
    rw [List.foldl_cons, ih (fun n hn => h n (List.mem_cons_of_mem _ hn)), confinedStep_eq hm,
      segments_join_name p (isName_sentinel hm), List.append_assoc]
    rfl

/-- A path lands below the base, where the way leads that has sentinels for its
climb. -/
theorem segments_confine {base target : Path} {ms : List Segment} {m : Segment}
    (hms : ∀ m ∈ ms, m.IsMove) (hm : m.IsMove)
    (h : (wayFrom base target).segments = ms ++ [m]) :
    (confine base target).segments =
      base.segments ++ names (ms.map sentinel ++ [scriptName (sentinel m)]) := by
  rw [confine, h, List.foldl_append, List.foldl_cons, List.foldl_nil, confinedStep_eq hm,
    asScript_join _ (isName_sentinel hm),
    segments_join_name _ (isName_scriptName (isName_sentinel hm)),
    segments_foldl_confinedStep hms, names_append, List.append_assoc]
  rfl

section

variable {base target : Path} (hbase : IsClean base.segments) {xs : List String} {s : String}

theorem isMove_climb {k : Nat} (hxs : ∀ x ∈ xs, IsName x) :
    ∀ c ∈ List.replicate k Segment.parent ++ names xs, c.IsMove := by
  intro c hc
  rcases List.mem_append.1 hc with hc | hc
  · rw [(List.mem_replicate.1 hc).2]
    decide
  · obtain ⟨x, hx, rfl⟩ := List.mem_map.1 hc
    exact hxs x hx

/-- A way that climbs and descends to a script leads through sentinels. -/
theorem segments_confine_of_way {k : Nat} (hnames : ∀ x ∈ xs ++ [s], IsName x)
    (hway : (wayFrom base target).segments = List.replicate k .parent ++ names (xs ++ [s])) :
    (confine base target).segments = base.segments ++
      names (List.replicate k parentSentinel ++ xs ++ [scriptName s]) := by
  have hmoves := isMove_climb (k := k) fun x hx => hnames x (List.mem_append_left _ hx)
  have hs : IsName s := hnames s (List.mem_append_right _ (List.mem_singleton_self s))
  rw [names_append, ← List.append_assoc] at hway
  rw [segments_confine hmoves hs hway, List.map_append, List.map_replicate, map_sentinel_names]
  rfl

include hbase

/-- A path below the base stays where it is. -/
theorem segments_confine_below (h : clean target.segments = base.segments ++ names (xs ++ [s])) :
    (confine base target).segments = base.segments ++ names (xs ++ [scriptName s]) := by
  have hnames : ∀ x ∈ xs ++ [s], IsName x := fun x hx =>
    isMove_of_mem_clean (h ▸ List.mem_append_right _ (List.mem_map_of_mem hx)) (by simp)
  refine segments_confine_of_way (k := 0) hnames (segments_wayFrom hbase ?_ ?_ ?_)
  · exact isMove_climb hnames
  · rw [h]
    exact head?_append_names _ _
  · rw [h]
    exact steps_append _ _

/-- A path that climbs out of the base lands below as many sentinels. -/
theorem segments_confine_apart {above : List Segment} {out : List String}
    (hout : base.segments = above ++ names out) (hne : out ≠ [])
    (hpart : out.head? ≠ (xs ++ [s]).head?)
    (h : clean target.segments = above ++ names (xs ++ [s])) :
    (confine base target).segments = base.segments ++
      names (List.replicate out.length parentSentinel ++ xs ++ [scriptName s]) := by
  have hnames : ∀ x ∈ xs ++ [s], IsName x := fun x hx =>
    isMove_of_mem_clean (h ▸ List.mem_append_right _ (List.mem_map_of_mem hx)) (by simp)
  refine segments_confine_of_way hnames (segments_wayFrom hbase ?_ ?_ ?_)
  · exact isMove_climb hnames
  · rw [h, hout, head?_append_names, head?_append_names]
  · rw [h, hout]
    exact steps_apart above hne hpart

end

end Path
end ElementBuild
