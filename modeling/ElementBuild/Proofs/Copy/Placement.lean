/-
# Where the copies of scripts are placed

The copies of scripts lie in a layout.  A place there is given by names below a folder,
and by how far it is climbed out of that folder first; the copies of what is climbed to
lie in folders that stand for parents.  A layout says for each name at the top which
folder the scripts below it come from.

As long as every reference that is followed leads to the script that it spells, and
climbs only out of the folder itself, each copy stands at the place of its script
(`Layout.relates_of_admits`).  Then no two scripts are copied to one place
(`same_source_of_same_destination`).
-/
import ElementBuild.Proofs.Copy.Pairs
import ElementBuild.Proofs.Path.Confined
import Mathlib.Data.List.Basic

namespace ElementBuild

namespace Copy

open Path (names climb parentSentinel scriptName)

/-- A place in a mirror: how far it is climbed, and the names below that. -/
structure Place where
  level : Nat
  down : List String
  deriving DecidableEq, Repr

namespace Place

/-- The names that lead to the copy at a place. -/
def copy (p : Place) : List String := List.replicate p.level parentSentinel ++ p.down

/-- The name at the top of the way to a place. -/
def top (p : Place) : String := p.down.headD ""

/-- The names do not begin with one that stands for a parent. -/
def IsPlain (p : Place) : Prop := p.down.head? ≠ some parentSentinel

instance (p : Place) : Decidable p.IsPlain := inferInstanceAs (Decidable (_ ≠ _))

/-- The place that moves lead to. -/
def follow (p : Place) (ms : List Segment) : Place :=
  ⟨p.level + (climb p.down ms).1, (climb p.down ms).2⟩

/-- The place of a script that lacks its extension perhaps. -/
def script (p : Place) : Place := ⟨p.level, p.down.dropLast ++ [scriptName (p.down.getLastD "")]⟩

theorem IsPlain.script {p : Place} (h : p.IsPlain) : p.script.IsPlain := by
  obtain ⟨level, down⟩ := p
  rcases List.eq_nil_or_concat' down with rfl | ⟨xs, s, rfl⟩
  · exact fun heq => Path.scriptName_ne_parentSentinel _ (Option.some.inj heq)
  · rw [IsPlain, Place.script, List.dropLast_concat, List.getLastD_concat]
    cases xs with
    | nil => exact fun heq => Path.scriptName_ne_parentSentinel s (Option.some.inj heq)
    | cons x xs => exact h

/-- Plain places with the same copy are the same. -/
theorem copy_injective {p q : Place} (hp : p.IsPlain) (hq : q.IsPlain) (h : p.copy = q.copy) :
    p = q := by
  obtain ⟨k, xs⟩ := p
  obtain ⟨l, ys⟩ := q
  simp only [copy, IsPlain] at hp hq h
  induction k generalizing l with
  | zero =>
    cases l with
    | zero => exact congrArg (Place.mk 0) h
    | succ l =>
      rw [List.replicate_zero, List.nil_append] at h
      rw [h] at hp
      exact absurd rfl hp
  | succ k ih =>
    cases l with
    | zero =>
      rw [List.replicate_zero, List.nil_append] at h
      rw [← h] at hq
      exact absurd rfl hq
    | succ l =>
      obtain ⟨rfl, rfl⟩ := Place.mk.inj (ih l (List.cons.inj h).2)
      rfl

end Place

/-- The folder that copies lie in, and for each name at the top there, by how far it is
climbed, the folder that the scripts below it come from. -/
structure Layout where
  copy : List Segment
  root : Nat → String → List Segment

namespace Layout

variable {l : Layout}

/-- The script at a place. -/
def sourceAt (l : Layout) (p : Place) : List Segment := l.root p.level p.top ++ names p.down

/-- The copy at a place. -/
def copyAt (l : Layout) (p : Place) : List Segment := l.copy ++ names p.copy

/-- A script and its copy stand at one place. -/
def Relates (l : Layout) (source copy : Path) : Prop :=
  ∃ p : Place, p.IsPlain ∧ p.down ≠ [] ∧ source.segments = l.sourceAt p ∧
    copy.segments = l.copyAt p

/-- **One place has one script**: copies that are the same are copies of the same
script. -/
theorem Relates.same {source copy source' copy' : Path} (h : l.Relates source copy)
    (h' : l.Relates source' copy') (hsame : copy.same copy' = true) :
    source.same source' = true := by
  obtain ⟨p, hp, -, hsource, hcopy⟩ := h
  obtain ⟨q, hq, -, hsource', hcopy'⟩ := h'
  rw [Path.same, beq_iff_eq, hcopy, hcopy'] at hsame
  obtain rfl := Place.copy_injective hp hq (Path.names_injective (List.append_cancel_left hsame))
  rw [Path.same, beq_iff_eq, hsource, hsource']

theorem copyAt_append (l : Layout) (k : Nat) (xs ys : List String) :
    l.copyAt ⟨k, xs ++ ys⟩ = l.copyAt ⟨k, xs⟩ ++ names ys := by
  rw [copyAt, copyAt, Place.copy, Place.copy, ← List.append_assoc, Path.names_append,
    ← List.append_assoc]

/-- How moves may climb from a place: not at all, or out of the base itself, if the
copies lie there and what follows leaves the way that was climbed. -/
def Climbs (l : Layout) (base : Path) (p : Place) (ms : List Segment) : Prop :=
  (climb p.down ms).1 = 0 ∨ p.level = 0 ∧ l.copy = base.segments ∧
    ∃ above out, base.segments = above ++ names out ∧ out.length = (climb p.down ms).1 ∧
      out.head? ≠ (climb p.down ms).2.head?

/-- Moves lead from names below a folder to others, below what is climbed to. -/
theorem clean_foldl_names (above : List Segment) (xs : List String) {ms : List Segment}
    (hms : ∀ c ∈ ms, c.IsMove) :
    (ms.foldl Path.cleanStep ((above ++ names xs).foldl Path.cleanStep [])).reverse =
      Path.clean (above ++ List.replicate (climb xs ms).1 .parent) ++ names (climb xs ms).2 := by
  rw [List.foldl_append, Path.foldl_names, Path.foldl_climb hms, List.reverse_append,
    List.reverse_reverse, Path.clean_append]

/-- Moves lead from a place to a landing place on the side of the copies. -/
theorem segments_confine {base target : Path} {p : Place} {ms : List Segment}
    (hbase : Path.IsClean base.segments) {below : List String}
    (hbelow : l.copy = base.segments ++ names below) (hms : ∀ c ∈ ms, c.IsMove)
    (htarget : Path.clean target.segments =
      (ms.foldl Path.cleanStep ((l.copyAt p).foldl Path.cleanStep [])).reverse)
    (hclimbs : l.Climbs base p ms) (hdown : (p.follow ms).down ≠ []) :
    (Path.confine base target).segments = l.copyAt (p.follow ms).script := by
  obtain ⟨xs, s, hxs⟩ := (List.eq_nil_or_concat' _).resolve_left hdown
  have hscript : (p.follow ms).script = ⟨(p.follow ms).level, xs ++ [scriptName s]⟩ := by
    rw [Place.script, hxs, List.dropLast_concat, List.getLastD_concat]
  rw [hscript]
  have hcopy : (l.copyAt p).foldl Path.cleanStep [] = (names p.down).reverse ++
      (l.copy ++ names (List.replicate p.level parentSentinel)).reverse := by
    have hclean : Path.IsClean (l.copyAt p) := by
      rw [copyAt, hbelow, List.append_assoc, ← Path.names_append]
      exact hbase.append_names _
    rw [hclean.foldl, copyAt, Place.copy, Path.names_append, ← List.append_assoc,
      List.reverse_append]
  rw [hcopy, Path.foldl_climb hms] at htarget
  rw [Climbs, show (climb p.down ms).2 = xs ++ [s] from hxs] at hclimbs
  rw [show (climb p.down ms).2 = xs ++ [s] from hxs] at htarget
  by_cases hnone : (climb p.down ms).1 = 0
  · have hclean : Path.clean target.segments = base.segments ++
        names (below ++ List.replicate p.level parentSentinel ++ xs ++ [s]) := by
      rw [htarget, hnone, hbelow]
      simp [names]
    rw [Path.segments_confine_below hbase hclean, copyAt, hbelow, Place.copy, Place.follow, hnone]
    simp [names]
  · obtain ⟨hlevel, hcopies, above, out, hout, hlength, hpart⟩ := hclimbs.resolve_left hnone
    have hreverse : (above ++ names out).reverse = (names out).reverse ++ above.reverse :=
      List.reverse_append
    have hclean : Path.clean target.segments = above ++ names (xs ++ [s]) := by
      rw [htarget, hlevel, hcopies, hout, ← hlength, List.replicate_zero, Path.names_nil,
        List.append_nil, hreverse, Path.foldl_replicate_parent, List.reverse_append,
        List.reverse_reverse, List.reverse_reverse]
    have hne : out ≠ [] := by
      rintro rfl
      exact hnone hlength.symm
    rw [Path.segments_confine_apart hbase hout hne hpart hclean, copyAt, hcopies, Place.copy,
      Place.follow, hlevel, hlength]
    simp [names]

/-- A reference from a place leads to the script that it spells, at a place that the
layout has room for. -/
structure AdmitsAt (l : Layout) (base : Path) (f : Followed) (p : Place) : Prop where
  plain : p.IsPlain
  copied : f.copied.segments = l.copyAt p
  lands : (p.follow (Path.mk f.target).moves).IsPlain
  nonempty : (p.follow (Path.mk f.target).moves).down ≠ []
  climbs : l.Climbs base p (Path.mk f.target).moves
  found : f.found.same (f.folder.join ⟨f.target⟩).normalize.asScript = true
  /-- The layout has the landing place under the folder that is climbed to. -/
  root : ∀ top, f.folder.segments = l.root p.level top ++ names p.down →
    l.root (p.follow (Path.mk f.target).moves).level
        (p.follow (Path.mk f.target).moves).script.top =
      Path.clean (l.root p.level top ++
        List.replicate (climb p.down (Path.mk f.target).moves).1 .parent)

/-- A layout admits a reference. -/
def Admits (l : Layout) (base : Path) (f : Followed) : Prop := ∃ p, l.AdmitsAt base f p

/-- Where a reference lands that the layout admits. -/
theorem AdmitsAt.segments_landing {base : Path} (hbase : Path.IsClean base.segments)
    {below : List String} (hbelow : l.copy = base.segments ++ names below) {f : Followed}
    {p : Place} (hf : l.AdmitsAt base f p) (habsolute : (Path.mk f.target).isAbsolute = false)
    (hlanding : f.landing = Path.confine base (f.copied.join ⟨f.target⟩)) :
    f.landing.segments = l.copyAt (p.follow (Path.mk f.target).moves).script := by
  rw [hlanding]
  refine segments_confine hbase hbelow (fun c => Path.isMove_of_mem_moves) ?_ hf.climbs hf.nonempty
  rw [Path.clean_join f.copied habsolute, hf.copied]

/-- What is found and where it lands stand at one place, if the folders that the
reference is seen from do. -/
theorem relates_of_admitsAt {base : Path} (hbase : Path.IsClean base.segments)
    {below : List String} (hbelow : l.copy = base.segments ++ names below) {f : Followed}
    {p : Place} (hf : l.AdmitsAt base f p) (habsolute : (Path.mk f.target).isAbsolute = false)
    (hlanding : f.landing = Path.confine base (f.copied.join ⟨f.target⟩)) {top : String}
    (hfolder : f.folder.segments = l.root p.level top ++ names p.down) :
    l.Relates f.found f.landing := by
  have hmoves : ∀ c ∈ (Path.mk f.target).moves, c.IsMove := fun c => Path.isMove_of_mem_moves
  obtain ⟨xs, s, hxs⟩ := (List.eq_nil_or_concat' _).resolve_left hf.nonempty
  refine ⟨(p.follow (Path.mk f.target).moves).script, hf.lands.script, by simp [Place.script],
    ?_, hf.segments_landing hbase hbelow habsolute hlanding⟩
  have hclean : Path.clean (f.folder.join ⟨f.target⟩).segments =
      Path.clean (l.root p.level top ++
        List.replicate (climb p.down (Path.mk f.target).moves).1 .parent) ++ names xs ++
          [.name s] := by
    rw [Path.clean_join f.folder habsolute, hfolder, clean_foldl_names _ _ hmoves,
      show (climb p.down (Path.mk f.target).moves).2 = xs ++ [s] from hxs, Path.names_append,
      List.append_assoc]
    rfl
  rw [beq_iff_eq.1 hf.found, Path.segments_asScript_normalize hclean, ← hf.root top hfolder,
    sourceAt, Place.script, hxs, List.dropLast_concat, List.getLastD_concat, Path.names_append,
    List.append_assoc]
  rfl

/-- **A reference that the layout admits carries it on**: the script that is found
and its landing place stand at one place. -/
theorem relates_of_admits {base : Path} (hbase : Path.IsClean base.segments)
    {below : List String} (hbelow : l.copy = base.segments ++ names below) {f : Followed}
    (hf : l.Admits base f) {source copy : Path} (hrelated : l.Relates source copy)
    (hleads : f.Leads base source copy) : l.Relates f.found f.landing := by
  obtain ⟨⟨k, down⟩, hq, hqdown, hsource, hcopy⟩ := hrelated
  obtain ⟨p, hf⟩ := hf
  -- the folders of the two stand at the place without the last name
  obtain ⟨dir, file, rfl⟩ := (List.eq_nil_or_concat' down).resolve_left hqdown
  have hsourceFolder : f.folder.segments =
      l.root k (Place.mk k (dir ++ [file])).top ++ names dir := by
    rw [hleads.folder]
    refine Path.segments_folder (s := file) ?_
    rw [hsource, sourceAt, Path.names_append, List.append_assoc]
    rfl
  have hcopyFolder : f.copied.segments = l.copyAt ⟨k, dir⟩ := by
    rw [hleads.copied]
    exact Path.segments_folder (hcopy.trans (l.copyAt_append k dir [file]))
  obtain rfl : p = ⟨k, dir⟩ := by
    refine Place.copy_injective hf.plain ?_ (Path.names_injective (List.append_cancel_left
      (hf.copied.symm.trans hcopyFolder)))
    cases dir with
    | nil => simp [Place.IsPlain]
    | cons d ds => exact hq
  exact relates_of_admitsAt hbase hbelow hf hleads.relative hleads.landing hsourceFolder

end Layout

/-- **Copies have one source each.**  A script is copied, from a session that has
claimed nothing, to the place that it has in a layout below the base.  If the layout
admits each reference that is followed, two scripts that are claimed for the same
destination are the same.

A layout does not admit a reference that climbs again after a climb: its copy would
land where the script of another place belongs. -/
theorem same_source_of_same_destination {depth : Nat} {source destination base : Path}
    {s s' : Session} (l : Layout) (below : List String)
    (hbase : Path.IsClean base.segments) (hbelow : l.copy = base.segments ++ names below)
    (hrelated : l.Relates source destination) (hfresh : s.copies.pairs = [])
    (hrun : (script depth source destination base).Gives s () s')
    (hadmits : ∀ f, .followed f ∈ s'.events → l.Admits base f) :
    ∀ p ∈ s'.copies.pairs, ∀ q ∈ s'.copies.pairs, p.2.same q.2 = true → p.1.same q.1 = true := by
  have hcarries : s'.Carries l.Relates base := fun f hf _ _ hrel hleads =>
    Layout.relates_of_admits hbase hbelow (hadmits f hf) hrel hleads
  have hadds := (Session.follows_script depth hrelated s () s' hrun).2 hcarries
  have hpairs : ∀ p ∈ s'.copies.pairs, l.Relates p.1 p.2 := by
    intro p hp
    refine (hadds.pairs p hp).resolve_left ?_
    rw [hfresh]
    exact List.not_mem_nil
  exact fun p hp q hq hsame => (hpairs p hp).same (hpairs q hq) hsame

/-- A script that refers to its neighbour, and to one a folder up. -/
def upwardScripts : FileTree where
  entries := [
    (["p"], .folder), (["p", "q"], .folder),
    (["p", "q", "a.js"], .file (.text "import './b.js'\nimport '../c.js'\n")),
    (["p", "q", "b.js"], .file (.text "")),
    (["p", "c.js"], .file (.text ""))]

set_option maxRecDepth 100000 in
theorem upwardScripts_run :
    let r : Except Failure Unit × Session :=
      (script 2 ⟨"/p/q/a.js"⟩ ⟨"/out/a.js"⟩ ⟨"/out"⟩).run.run { files := upwardScripts }
    r.1.toOption = some () ∧ r.2.events = [
      .followed ⟨⟨"/p/q"⟩, ⟨"/out"⟩, "./b.js", ⟨"/p/q/b.js"⟩, ⟨"/out/b.js"⟩⟩,
      .followed ⟨⟨"/p/q"⟩, ⟨"/out"⟩, "../c.js", ⟨"/p/c.js"⟩, ⟨"/out/--/c.js"⟩⟩] := by
  decide +kernel

/-- A neighbour and a script that is climbed to once are copied to places of their
own. -/
theorem same_source_of_upwardScripts :
    ∃ s', (script 2 ⟨"/p/q/a.js"⟩ ⟨"/out/a.js"⟩ ⟨"/out"⟩).Gives { files := upwardScripts } () s' ∧
      ∀ p ∈ s'.copies.pairs, ∀ q ∈ s'.copies.pairs, p.2.same q.2 = true → p.1.same q.1 = true := by
  have hrun := Step.gives_of_run upwardScripts_run.1
  let l : Layout := ⟨.root :: names ["out"], fun k _ =>
    Path.clean (.root :: names ["p", "q"] ++ List.replicate k .parent)⟩
  have hrelated : l.Relates ⟨"/p/q/a.js"⟩ ⟨"/out/a.js"⟩ :=
    ⟨⟨0, ["a.js"]⟩, by decide, by decide, by decide, by decide⟩
  refine ⟨_, hrun, same_source_of_same_destination l [] (by decide) rfl hrelated rfl hrun
    fun f hf => ?_⟩
  rw [upwardScripts_run.2] at hf
  rcases List.mem_cons.1 hf with heq | hf
  · cases heq
    exact ⟨⟨0, []⟩, by decide, by decide, by decide, by decide, .inl (by decide),
      by decide +kernel, fun _ _ => rfl⟩
  · cases List.mem_singleton.1 hf
    exact ⟨⟨0, []⟩, by decide, by decide, by decide, by decide,
      .inr ⟨rfl, rfl, [.root], ["out"], by decide, by decide, by decide⟩, by decide +kernel,
      fun _ _ => rfl⟩

/-- A script that refers to its neighbour, and to one a folder up, which climbs
again. -/
def climbingScripts : FileTree where
  entries := [
    (["p"], .folder), (["p", "q"], .folder),
    (["p", "q", "a.js"], .file (.text "import './x.js'\nimport '../b.js'\n")),
    (["p", "q", "x.js"], .file (.text "export default 'near'\n")),
    (["p", "b.js"], .file (.text "import '../x.js'\n")),
    (["x.js"], .file (.text "export default 'far'\n"))]

set_option maxRecDepth 100000 in
theorem climbingScripts_run :
    let r : Except Failure Unit × Session :=
      (script 3 ⟨"/p/q/a.js"⟩ ⟨"/out/a.js"⟩ ⟨"/out"⟩).run.run { files := climbingScripts }
    r.1.toOption = some () ∧ (⟨"/p/q/x.js"⟩, ⟨"/out/x.js"⟩) ∈ r.2.copies.pairs ∧
      (⟨"/x.js"⟩, ⟨"/out/x.js"⟩) ∈ r.2.copies.pairs := by
  decide +kernel

/-- **A climb after a climb copies two scripts to one destination.** -/
theorem two_sources_of_climbingScripts :
    ∃ s', (script 3 ⟨"/p/q/a.js"⟩ ⟨"/out/a.js"⟩ ⟨"/out"⟩).Gives { files := climbingScripts } () s' ∧
      ∃ p ∈ s'.copies.pairs, ∃ q ∈ s'.copies.pairs, p.2.same q.2 = true ∧
        climbingScripts.canonical p.1 = .ok ⟨"/p/q/x.js"⟩ ∧
          climbingScripts.canonical q.1 = .ok ⟨"/x.js"⟩ := by
  obtain ⟨hok, hnear, hfar⟩ := climbingScripts_run
  exact ⟨_, Step.gives_of_run hok, _, hnear, _, hfar, by decide, by rfl, by rfl⟩

end Copy
end ElementBuild
