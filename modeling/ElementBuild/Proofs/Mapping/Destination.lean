/-
# Where a mapped specifier leads

A rule says what a target becomes, and a table takes that relative to the working folder for
the copy, and sees it from the importing module's folder for the specifier
(`exists_rule_of_resolve`).  The two agree: joined to that folder the specifier names the copy
(`normalize_join_relativize`).  Two things come between.  A specifier that descends at once
into a folder whose name opens with a dot gets no `./` before it, so it reads as the name of a
package (`isRelative_specifierFrom_iff`); and a pattern whose rule gives neither an alias nor a
destination leaves the target as it is written, while the copy is placed from the working
folder.
-/
import ElementBuild.Proofs.Path.Relative
import ElementBuild.Mapping.Table
import ElementBuild.Resolution.Specifier

namespace ElementBuild

namespace Path

/-- A path below a folder whose first name there opens with a dot. -/
def IsHiddenBelow (p folder : Path) : Prop :=
  ∃ s rest, s.toList.head? = some '.' ∧
    p.normalize.segments = folder.normalize.segments ++ .name s :: rest

theorem IsHiddenBelow.isBelow {p folder : Path} (h : p.IsHiddenBelow folder) :
    p.IsBelow folder := by
  obtain ⟨s, rest, -, heq⟩ := h
  exact ⟨⟨_, heq.symm⟩, fun hsame => by simp [← hsame] at heq⟩

/-! ### Specifiers that open with a dot -/

/-- Steps from names open with a name only if they descend from there. -/
theorem steps_eq_name_iff (ts : List Segment) (bs : List String) {s : String}
    {rest : List Segment} :
    steps ts (names bs) = some (.name s :: rest) ↔ ts = names bs ++ .name s :: rest := by
  constructor
  · intro h
    induction bs generalizing ts with
    | nil => cases ts <;> exact Option.some.inj h
    | cons b bs ih =>
      cases ts with
      | nil => simp [steps, stepsApart, List.replicate_succ] at h
      | cons t ts =>
        by_cases htb : t = .name b
        · rw [names, List.map_cons, steps, if_pos htb] at h
          rw [ih ts h, htb]
          rfl
        · simp [steps, stepsApart, htb, List.replicate_succ] at h
  · rintro rfl
    exact steps_append _ _

/-- A specifier is relative if its first piece is a dot or two. -/
theorem isRelative_iff_pieces (s : String) : Specifier.isRelative s = true ↔
    (pieces s.toList).head? = some ['.'] ∨ (pieces s.toList).head? = some ['.', '.'] := by
  have hopens : ∀ p : List Char, '/' ∉ p →
      ((pieces s.toList).head? = some p ↔ (p ++ ['/']) <+: s.toList ∨ s.toList = p) := by
    intro p hp
    constructor
    · intro h
      obtain ⟨ps, hps⟩ := List.head?_eq_some_iff.1 h
      have hs := joinPieces_pieces s.toList
      rw [hps] at hs
      cases ps with
      | nil => exact .inr hs.symm
      | cons q qs => exact .inl ⟨joinPieces (q :: qs), by rw [← hs, List.append_assoc]; rfl⟩
    · rintro (⟨rest, hrest⟩ | rfl)
      · rw [← hrest, List.append_assoc, List.singleton_append, pieces_append_slash,
          pieces_of_not_mem hp]
        rfl
      · rw [pieces_of_not_mem hp]
        rfl
  rw [hopens _ (by decide), hopens _ (by decide), Specifier.isRelative]
  simp only [Bool.or_eq_true, List.isPrefixOf_iff_prefix, beq_iff_eq, ← String.toList_inj]
  tauto

theorem head?_textOf {m : Segment} {ms : List Segment} (h : ∀ n ∈ m :: ms, n.IsMove) :
    (textOf (m :: ms)).toList.head? = m.text.toList.head? := by
  obtain ⟨c, cs, hcs⟩ := List.exists_cons_of_ne_nil (h m (List.mem_cons_self ..)).text_ne_empty
  rw [toList_textOf h, List.map_cons, hcs]
  cases ms <;> rfl

theorem head?_pieces_textOf {m : Segment} {ms : List Segment} (h : ∀ n ∈ m :: ms, n.IsMove) :
    (pieces (textOf (m :: ms)).toList).head? = some m.text.toList := by
  rw [toList_textOf h, pieces_texts h (List.cons_ne_nil m ms)]
  rfl

theorem IsName.toList_ne_dots {s : String} (h : IsName s) :
    s.toList ≠ ['.'] ∧ s.toList ≠ ['.', '.'] := by
  refine ⟨h.text_ne_dot, fun hdots => ?_⟩
  have hpiece : Segment.ofPiece? s.toList = some (.name s) := h.1
  rw [hdots] at hpiece
  cases hpiece

/-- A way that climbs is a relative specifier; one that descends is, unless the first name on it
opens with a dot. -/
theorem isRelative_dotted_iff {way : List Segment} (h : ∀ m ∈ way, m.IsMove) :
    Specifier.isRelative (dotted (textOf way)) = true ↔
      ¬ ∃ s rest, s.toList.head? = some '.' ∧ way = .name s :: rest := by
  cases way with
  | nil => exact iff_of_true (by decide) (by simp)
  | cons m ms =>
    have hhead := head?_textOf h
    have hpieces := head?_pieces_textOf h
    rcases (h m (List.mem_cons_self ..)).eq_parent_or_name with rfl | ⟨s, rfl⟩
    · refine iff_of_true ?_ (by simp)
      have hdot : (textOf (.parent :: ms)).toList.head? = some '.' := hhead
      rw [dotted, if_pos hdot, isRelative_iff_pieces, hpieces]
      exact .inr rfl
    · by_cases hdot : s.toList.head? = some '.'
      · refine iff_of_false ?_ (not_not_intro ⟨s, ms, hdot, rfl⟩)
        have hs := IsName.toList_ne_dots (h (.name s) (List.mem_cons_self ..))
        rw [dotted, if_pos (hhead.trans hdot), isRelative_iff_pieces, hpieces]
        exact fun hone => hone.elim (fun h => hs.1 (Option.some.inj h))
          fun h => hs.2 (Option.some.inj h)
      · refine iff_of_true ?_ ?_
        · have hnodot : (textOf (.name s :: ms)).toList.head? ≠ some '.' := by
            rw [hhead]
            exact hdot
          rw [dotted, if_neg hnodot, Specifier.isRelative, String.toList_append]
          rfl
        · rintro ⟨_, _, hopens, heq⟩
          cases heq
          exact hdot hopens

/-- There is a specifier from a folder to any path, if the folder does not climb; it descends at
once only if the path lies below the folder. -/
theorem exists_specifierFrom {folder p : Path} (hfolder : folder.isAbsolute = true)
    (hstays : .parent ∉ clean folder.segments) (hp : p.isAbsolute = true) :
    ∃ way, (∀ m ∈ way, m.IsMove) ∧ specifierFrom? folder p = some (dotted (textOf way)) ∧
      ∀ s rest, way = .name s :: rest ↔
        p.normalize.segments = folder.normalize.segments ++ .name s :: rest := by
  obtain ⟨way, hmoves, hsteps, hrelative⟩ := exists_relativeTo hfolder hstays hp
  refine ⟨way, hmoves, by rw [specifierFrom?, hrelative, Option.map_some], fun s rest => ?_⟩
  obtain ⟨bs, hbs⟩ := exists_names_of_absolute hfolder hstays
  obtain ⟨ts, -, hclean⟩ := exists_moves_of_absolute hp
  rw [hbs, hclean, steps, if_pos rfl] at hsteps
  rw [segments_normalize, segments_normalize, hbs, hclean, List.cons_append, List.cons.injEq,
    eq_self, true_and, ← steps_eq_name_iff, hsteps, Option.some.injEq]

end Path

namespace Mapping

/-! ### What a rule says -/

namespace Rule

/-- The template that a rule writes: the destination, or else the alias. -/
def template? : Rule → Option String
  | replace template => some template
  | detailed aliased destination _ => destination <|> aliased

/-- What a rule makes of a target, before it is seen from a folder. -/
def configured (key : Key) (target : String) (rule : Rule) : String :=
  match rule.template? with
  | some template => key.substitute target template
  | none => target

/-- Whether a rule copies the module. -/
def copies (copyAll : Bool) : Rule → Bool
  | replace _ => copyAll
  | detailed _ _ copies => copies.getD copyAll

/-- A rule of a pattern that gives neither an alias nor a destination; the target stays as it
is written. -/
def KeepsTarget (key : Key) (rule : Rule) : Prop :=
  (∃ p, key = .pattern p) ∧ rule.template? = none

end Rule

variable {t : Table} {target : String} {folder wd : Path} {copyAll : Bool} {o : Outcome}
  {key : Key} {rule : Rule}

theorem Table.matchesTarget_of_rule? (h : t.rule? target = some (key, rule)) :
    key.matchesTarget target = true :=
  List.find?_some (p := fun r : Key × Rule => r.1.matchesTarget target) h

/-- A literal key applies to itself only. -/
theorem Key.eq_of_matchesTarget {s : String} (h : (Key.literal s).matchesTarget target = true) :
    s = target := eq_of_beq h

/-- **What becomes of a target**, in one form for all rules and keys. -/
theorem resolve_spec (hrule : t.rule? target = some (key, rule))
    (ho : t.resolve target folder wd copyAll = some o) :
    (rule.KeepsTarget key → o.destination = target) ∧
      (¬ rule.KeepsTarget key →
        o.destination = relativize folder wd (rule.configured key target)) ∧
      o.copyTo = if rule.copies copyAll then
        some (wd.join ⟨rule.configured key target⟩).normalize else none := by
  rw [Table.resolve, hrule, Option.map_some, Option.some.injEq] at ho
  subst ho
  cases rule with
  | replace template => exact ⟨fun hkeeps => (nomatch hkeeps.2), fun _ => rfl, rfl⟩
  | detailed aliased destination copies =>
    cases destination with
    | some template => exact ⟨fun hkeeps => (nomatch hkeeps.2), fun _ => rfl, rfl⟩
    | none =>
      cases key with
      | pattern p =>
        cases aliased with
        | some template =>
          dsimp only [Table.aliasOf]
          exact ⟨fun hkeeps => (nomatch hkeeps.2), fun _ => rfl, rfl⟩
        | none => exact ⟨fun _ => rfl, fun hkeeps => absurd ⟨⟨p, rfl⟩, rfl⟩ hkeeps, rfl⟩
      | literal s =>
        obtain rfl := Key.eq_of_matchesTarget (Table.matchesTarget_of_rule? hrule)
        have hkeeps : ¬ (Rule.detailed aliased none copies).KeepsTarget (.literal s) :=
          fun hkeeps => nomatch hkeeps.1
        cases aliased <;> exact ⟨fun h => absurd h hkeeps, fun _ => rfl, rfl⟩

/-! ### Specifiers and copies -/

section

variable {s : String} (hfolder : folder.isAbsolute = true)
  (hstays : .parent ∉ Path.clean folder.segments) (hwd : wd.isAbsolute = true)
  (hs : opensRelative s = true)

include hfolder hstays hwd hs

/-- A specifier that is seen from a folder leads to the place it means in the working folder. -/
theorem normalize_join_relativize :
    (folder.join ⟨relativize folder wd s⟩).normalize = (wd.join ⟨s⟩).normalize := by
  have hp := Path.isAbsolute_join hwd ⟨s⟩
  obtain ⟨way, -, hspecifier, -⟩ := Path.exists_specifierFrom hfolder hstays hp
  have hleads := Path.normalize_join_specifierFrom hfolder hp
  rw [hspecifier, Option.getD_some] at hleads
  rw [relativize, if_pos hs, hspecifier, Option.getD_some, hleads]

/-- It is relative, unless that place lies in a folder whose name opens with a dot. -/
theorem isRelative_relativize_iff :
    Specifier.isRelative (relativize folder wd s) = true ↔
      ¬ (wd.join ⟨s⟩).IsHiddenBelow folder := by
  obtain ⟨way, hmoves, hspecifier, hdescends⟩ :=
    Path.exists_specifierFrom hfolder hstays (Path.isAbsolute_join hwd ⟨s⟩)
  rw [relativize, if_pos hs, hspecifier, Option.getD_some, Path.isRelative_dotted_iff hmoves,
    Path.IsHiddenBelow]
  simp only [hdescends]

end

theorem isRelative_of_opensRelative {s : String} (h : opensRelative s = true) :
    Specifier.isRelative s = true := by
  rw [opensRelative] at h
  rw [Specifier.isRelative, h]
  rfl

theorem isHiddenBelow_normalize {p : Path} :
    p.normalize.IsHiddenBelow folder ↔ p.IsHiddenBelow folder := by
  rw [Path.IsHiddenBelow, Path.normalize_normalize]
  rfl

/-- **A mapped specifier leads to the copy** of its module: always where the rule says what the
target becomes, and there it is relative unless the copy lies in a folder below the importing
module's whose name opens with a dot; a target that stays as it is written leads to the copy if
it means the same place in both folders. -/
theorem leads_to_copy_iff {p : Path} (hfolder : folder.isAbsolute = true)
    (hstays : .parent ∉ Path.clean folder.segments) (hwd : wd.isAbsolute = true)
    (hrule : t.rule? target = some (key, rule))
    (ho : t.resolve target folder wd copyAll = some o) (hcopy : o.copyTo = some p)
    (hopens : opensRelative (rule.configured key target) = true) :
    (¬ rule.KeepsTarget key → (folder.join ⟨o.destination⟩).normalize = p) ∧
      ((Specifier.isRelative o.destination = true ∧
          (folder.join ⟨o.destination⟩).normalize = p) ↔
        (rule.KeepsTarget key ∧
          (folder.join ⟨target⟩).normalize = (wd.join ⟨target⟩).normalize) ∨
        (¬ rule.KeepsTarget key ∧ ¬ p.IsHiddenBelow folder)) := by
  obtain ⟨hkept, hwritten, hcopied⟩ := resolve_spec hrule ho
  have hp : p = (wd.join ⟨rule.configured key target⟩).normalize := by
    rw [hcopied] at hcopy
    split at hcopy
    · exact (Option.some.inj hcopy).symm
    · cases hcopy
  by_cases hkeeps : rule.KeepsTarget key
  · have hconfigured : rule.configured key target = target := by
      rw [Rule.configured, hkeeps.2]
    rw [hconfigured] at hopens hp
    have hrelative := isRelative_of_opensRelative hopens
    rw [hkept hkeeps, hp]
    simp [hkeeps, hrelative]
  · have hleads := normalize_join_relativize hfolder hstays hwd hopens
    have hrelative := isRelative_relativize_iff hfolder hstays hwd hopens
    rw [← isHiddenBelow_normalize] at hrelative
    rw [hwritten hkeeps, hp, hrelative]
    simp [hkeeps, hleads]

theorem leads_to_copy_of_packages :
    let t : Table := ⟨[(.literal "joi", .detailed (some "joi/dist/joi-browser.min.js")
      (some "../output/packages/joi-browser.min.js") none)]⟩
    let folder : Path := ⟨"/project/output/the_main_component"⟩
    let o : Outcome := ⟨"joi/dist/joi-browser.min.js", "../packages/joi-browser.min.js",
      some ⟨"/project/output/packages/joi-browser.min.js"⟩⟩
    t.resolve "joi" folder ⟨"/project/fixtures"⟩ true = some o ∧
      Specifier.isRelative o.destination = true ∧
        (folder.join ⟨o.destination⟩).normalize =
          ⟨"/project/output/packages/joi-browser.min.js"⟩ := by
  intro t folder o
  have hrule : t.rule? "joi" = some (.literal "joi", .detailed (some "joi/dist/joi-browser.min.js")
      (some "../output/packages/joi-browser.min.js") none) := rfl
  have ho : t.resolve "joi" folder ⟨"/project/fixtures"⟩ true = some o := by decide +kernel
  have hvisible : ¬ Path.IsHiddenBelow ⟨"/project/output/packages/joi-browser.min.js"⟩ folder :=
    fun hhidden => absurd hhidden.isBelow (by decide +kernel)
  have hcopy := leads_to_copy_iff (by decide) (by decide +kernel) (by decide) hrule ho rfl
    (by decide +kernel)
  have hwritten : ¬ Rule.KeepsTarget (.literal "joi") (.detailed
      (some "joi/dist/joi-browser.min.js") (some "../output/packages/joi-browser.min.js") none) :=
    fun hkeeps => nomatch hkeeps.1
  have hleads := hcopy.2.2 (.inr ⟨hwritten, hvisible⟩)
  exact ⟨ho, hleads⟩

/-- **A copy in a folder whose name opens with a dot is named like a package.** -/
theorem not_isRelative_of_vendorFolder :
    let t : Table := ⟨[(.literal "tiny", .replace "./out/main/.vendor/tiny.js")]⟩
    t.resolve "tiny" ⟨"/p/out/main"⟩ ⟨"/p"⟩ true =
        some ⟨"./out/main/.vendor/tiny.js", ".vendor/tiny.js", some ⟨"/p/out/main/.vendor/tiny.js"⟩⟩ ∧
      opensRelative "./out/main/.vendor/tiny.js" = true ∧
        ¬ Specifier.isRelative ".vendor/tiny.js" = true := by
  decide +kernel

end Mapping
end ElementBuild
