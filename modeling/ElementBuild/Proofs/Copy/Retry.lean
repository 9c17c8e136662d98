/-
# Copies that failed

A pair is claimed before its script is read, and the claim stays if the copy fails.  So a run
leaves the pairs that it claimed without writing anything for them: none if it succeeds, and
at least the one that it was asked for if it fails (`Copy.leaves_script`).

In a sequence of calls that share what is claimed, everything that is claimed was written or is
left by a call that failed (`Copy.History.claimed_perm`).  A later call for a pair that is left
finds it claimed, and succeeds without doing anything (`Copy.hasWritten_iff`).
-/
import ElementBuild.Proofs.Copy.Closure

namespace ElementBuild

/-- What tells a pair of a file and a destination from others. -/
def Copy.sides (source destination : Path) : List Segment × List Segment :=
  (source.segments, destination.segments)

/-- What was claimed, the latest first. -/
def CopyCache.claimed (c : CopyCache) : List (List Segment × List Segment) :=
  c.pairs.map fun p => Copy.sides p.1 p.2

/-- What was written, and what it was made from. -/
def Session.written (s : Session) : List (List Segment × List Segment) :=
  s.deliveries.map fun d => Copy.sides d.source d.target

/-- A file was written to a destination, made from a source. -/
def Session.HasWritten (s : Session) (source destination : Path) : Prop :=
  Copy.sides source destination ∈ s.written

theorem Session.not_hasWritten {s : Session} (h : s.deliveries = []) (source destination : Path) :
    ¬ s.HasWritten source destination := by
  rw [HasWritten, written, h]
  exact List.not_mem_nil

namespace CopyCache

variable {c : CopyCache} {source destination : Path}

theorem has_iff : c.has source destination = true ↔ Copy.sides source destination ∈ c.claimed := by
  simp only [has, claimed, Copy.sides, Path.same, List.any_eq_true, Bool.and_eq_true, beq_iff_eq,
    List.mem_map, Prod.mk.injEq]

theorem isDistinct_iff : c.IsDistinct ↔ c.claimed.Nodup := by
  simp [IsDistinct, claimed, List.Nodup, List.pairwise_map, Copy.sides, Path.same]

end CopyCache

namespace Session

variable {left left' : List (List Segment × List Segment)} {s t s' : Session}

/-- Of the pairs that are claimed between two sessions some are left, and for each other one
file is written. -/
def Leaves (left : List (List Segment × List Segment)) (s s' : Session) : Prop :=
  ∃ claimed written, s'.copies.claimed = claimed ++ s.copies.claimed ∧
    s'.written = s.written ++ written ∧ claimed.Perm (written ++ left)

namespace Leaves

theorem of_eq (hcopies : s'.copies = s.copies) (hdeliveries : s'.deliveries = s.deliveries) :
    s.Leaves [] s' :=
  ⟨[], [], by rw [hcopies]; rfl, by rw [written, hdeliveries, List.append_nil]; rfl, .nil⟩

theorem trans (h : Leaves left s t) (h' : Leaves left' t s') : Leaves (left ++ left') s s' := by
  obtain ⟨ps, ds, hps, hds, hperm⟩ := h
  obtain ⟨ps', ds', hps', hds', hperm'⟩ := h'
  refine ⟨ps' ++ ps, ds ++ ds', ?_, ?_, ?_⟩
  · rw [hps', hps, List.append_assoc]
  · rw [hds', hds, List.append_assoc]
  · calc (ps' ++ ps).Perm (ps ++ ps') := List.perm_append_comm
      _ |>.Perm (ds ++ left ++ (ds' ++ left')) := hperm.append hperm'
      _ |>.Perm (ds ++ ds' ++ (left ++ left')) := by
        rw [List.append_assoc, List.append_assoc]
        exact ((List.perm_append_comm_assoc left ds' left')).append_left ds

theorem claim (s : Session) (source destination : Path) :
    s.Leaves [Copy.sides source destination]
      { s with copies := ⟨(source, destination) :: s.copies.pairs⟩ } :=
  ⟨[Copy.sides source destination], [], rfl, (List.append_nil _).symm, .refl _⟩

/-- What is written is not left any more. -/
theorem deliver {d : Delivery} (h : s.Leaves [Copy.sides d.source d.target] t)
    (hcopies : s'.copies = t.copies) (hdeliveries : s'.deliveries = t.deliveries ++ [d]) :
    s.Leaves [] s' := by
  obtain ⟨ps, ds, hps, hds, hperm⟩ := h
  refine ⟨ps, ds ++ [Copy.sides d.source d.target], hcopies ▸ hps, ?_, ?_⟩
  · rw [written, hdeliveries, List.map_append, ← List.append_assoc, ← hds]
    rfl
  · rw [List.append_nil]
    exact hperm

/-- What is left was claimed, and nothing is written for it. -/
theorem mem_left_iff (h : Leaves left s s') (hdistinct : s'.copies.claimed.Nodup)
    (hclaimed : s.written ⊆ s.copies.claimed) {k : List Segment × List Segment} :
    k ∈ left ↔ k ∈ s'.copies.claimed ∧ k ∉ s.copies.claimed ∧ k ∉ s'.written := by
  obtain ⟨ps, ds, hps, hds, hperm⟩ := h
  rw [hps, List.nodup_append'] at hdistinct
  rw [hps, hds, List.mem_append, List.mem_append, not_or]
  have hk := hperm.mem_iff (a := k)
  rw [List.mem_append] at hk
  constructor
  · intro hleft
    have hclaims := hk.2 (.inr hleft)
    have hfree : k ∉ s.copies.claimed := hdistinct.2.2 hclaims
    refine ⟨.inl hclaims, hfree, fun hold => hfree (hclaimed hold), fun hnew => ?_⟩
    exact (List.nodup_append'.1 (hperm.nodup_iff.1 hdistinct.1)).2.2 hnew hleft
  · rintro ⟨hclaims, hfree, -, hnew⟩
    exact (hk.1 (hclaims.resolve_right hfree)).resolve_left hnew

end Leaves

/-- A run that succeeds leaves nothing. -/
def Settles (ok : Bool) (s s' : Session) : Prop :=
  ∃ left, s.Leaves left s' ∧ (ok = true → left = [])

namespace Settles

theorem of_eq (hcopies : s'.copies = s.copies) (hdeliveries : s'.deliveries = s.deliveries)
    (ok : Bool) : Settles ok s s' := ⟨[], .of_eq hcopies hdeliveries, fun _ => rfl⟩

instance : Step.IsOutcome Settles where
  refl ok _ := .of_eq rfl rfl ok
  trans := by
    rintro ok s t u ⟨left, h, hleft⟩ ⟨left', h', hleft'⟩
    obtain rfl := hleft rfl
    exact ⟨left', h.trans h', hleft'⟩

theorem noting : Step.Law.Noting (Step.Ends Settles) where
  tell _ := Step.Ends.modify fun _ => .of_eq rfl rfl _
  setMapped _ := Step.Ends.modify fun _ => .of_eq rfl rfl _

theorem createFolders (p : Path) : (Step.createFolders p).Ends Settles := fun s => by
  rw [Step.session_createFolders]
  exact .of_eq rfl rfl _

end Settles

/-- A run writes one file of its own at last, and leaves nothing then. -/
def Concludes (own : Delivery) (ok : Bool) (s s' : Session) : Prop :=
  (ok = true → ∃ t, s.Leaves [] t ∧ s'.copies = t.copies ∧ s'.deliveries = t.deliveries ++ [own]) ∧
    (ok = false → ∃ left, s.Leaves left s')

theorem concludes_write (source target : Path) (text : String) :
    (Step.write source target text).Ends (Concludes ⟨source, target⟩) := by
  intro s
  rcases hrun : ((Step.write source target text).run.run s : Except Failure Unit × Session) with
    ⟨e | _, t⟩
  · obtain rfl := Step.run_deliver_error hrun
    exact ⟨nofun, fun _ => ⟨[], .of_eq rfl rfl⟩⟩
  · obtain ⟨files, -, rfl⟩ := Step.gives_write.1 hrun
    exact ⟨fun _ => ⟨s, .of_eq rfl rfl, rfl, rfl⟩, nofun⟩

/-- Copying a script that was claimed writes its copy at last. -/
theorem concludes_copyClaimed {copyOn : Path → Path → Step Unit}
    (hcopy : ∀ source destination, (copyOn source destination).Ends Settles)
    (source destination base : Path) :
    (Copy.copyClaimed copyOn source destination base).Ends
      (Concludes ⟨source, destination⟩) := by
  have hthen : ∀ {α : Type} {x : Step α} {f : α → Step Unit}, x.Ends Settles →
      (∀ a, (f a).Ends (Concludes ⟨source, destination⟩)) →
        (x >>= f).Ends (Concludes ⟨source, destination⟩) := by
    intro α x f hx hf
    refine hx.bind_trans hf (fun ⟨left, h, _⟩ => ⟨nofun, fun _ => ⟨left, h⟩⟩) ?_
    rintro ok s t u ⟨left, h, hleft⟩ ⟨hok, hfails⟩
    obtain rfl := hleft rfl
    refine ⟨fun h' => ?_, fun h' => ?_⟩
    · obtain ⟨v, hv, hlast⟩ := hok h'
      exact ⟨v, h.trans hv, hlast⟩
    · obtain ⟨left', h'⟩ := hfails h'
      exact ⟨left', h.trans h'⟩
  exact hthen ((Step.Ends.read source).during _) fun code =>
    hthen ((Settles.noting.scan _ _).during _) fun refs =>
      hthen (Step.Ends.foldlM (fun draft r _ => Step.Law.Copying.followReferenceWith
        (P := Step.Ends Settles) Settles.createFolders
        (fun f => Step.Ends.modify fun _ => .of_eq rfl rfl _) hcopy source destination base
        code.toList draft r) _) fun draft =>
          hthen ((Settles.createFolders _).during _) fun _ => (concludes_write _ _ _).during _

end Session

namespace Copy

variable {depth : Nat} {source destination base : Path} {s s' : Session}
  {r : Except Failure Unit}

/-- A run of copying leaves nothing if it succeeds, and the pair that it was asked for, among
others perhaps, if it fails. -/
theorem leaves_script_of
    (hcopy : ∀ source destination, (script depth source destination base).Ends Session.Settles)
    (hrun : ((script (depth + 1) source destination base).run.run s : Except Failure Unit × Session) =
      (r, s')) :
    ∃ left, s.Leaves left s' ∧ (r.isOk = true → left = []) ∧
      (r.isOk = false → sides source destination ∈ left) := by
  cases hhas : s.copies.has source destination with
  | true =>
    rw [run_script_of_has hhas] at hrun
    cases hrun
    exact ⟨[], .of_eq rfl rfl, fun _ => rfl, nofun⟩
  | false =>
    rw [run_script_of_free hhas] at hrun
    obtain ⟨hok, hfails⟩ := hrun ▸ Session.concludes_copyClaimed hcopy source destination base
      { s with copies := ⟨(source, destination) :: s.copies.pairs⟩ }
    have hclaim := Session.Leaves.claim s source destination
    cases hr : r.isOk with
    | true =>
      obtain ⟨t, ht, hcopies, hdeliveries⟩ := hok hr
      have hwritten := Session.Leaves.deliver (d := ⟨source, destination⟩) (hclaim.trans ht) hcopies
        hdeliveries
      exact ⟨[], hwritten, fun _ => rfl, nofun⟩
    | false =>
      obtain ⟨left, hleft⟩ := hfails hr
      exact ⟨_, hclaim.trans hleft, nofun, fun _ => List.mem_append_left left List.mem_cons_self⟩

theorem settles_of_script (depth : Nat) (source destination base : Path) :
    (script depth source destination base).Ends Session.Settles := by
  induction depth generalizing source destination with
  | zero => exact .giveUp
  | succ depth ih =>
    intro s
    obtain ⟨left, hleft, hok, -⟩ := leaves_script_of (s := s) (fun source destination =>
      ih source destination) rfl
    exact ⟨left, hleft, hok⟩

/-- **A run of copying leaves nothing if it succeeds**, and the pair that it was asked for, among
others perhaps, if it fails. -/
theorem leaves_script
    (hrun : ((script (depth + 1) source destination base).run.run s : Except Failure Unit × Session) =
      (r, s')) :
    ∃ left, s.Leaves left s' ∧ (r.isOk = true → left = []) ∧
      (r.isOk = false → sides source destination ∈ left) :=
  leaves_script_of (fun source destination => settles_of_script depth source destination base) hrun

/-- There is some depth to copy to. -/
theorem exists_copyScript_eq (source destination base : Path) :
    ∃ depth, copyScript source destination base = script (depth + 1) source destination base :=
  ⟨_, rfl⟩

/-! ### Sequences of calls -/

/-- A call to copy a script, with the session that it finds and the one that it leaves. -/
structure Call where
  source : Path
  destination : Path
  base : Path
  before : Session
  result : Except Failure Unit
  after : Session

namespace Call

/-- The call that is made on a session. -/
def on (s : Session) (source destination base : Path) : Call :=
  let run : Except Failure Unit × Session := (copyScript source destination base).run.run s
  ⟨source, destination, base, s, run.1, run.2⟩

theorem run_on (s : Session) (source destination base : Path) :
    ((copyScript source destination base).run.run s : Except Failure Unit × Session) =
      ((on s source destination base).result, (on s source destination base).after) := rfl

/-- The call fails. -/
def Fails (c : Call) : Prop := c.result.isOk = false

/-- The call claims a pair and writes nothing for it. -/
def Leaves (c : Call) (source destination : Path) : Prop :=
  c.after.copies.has source destination = true ∧
    c.before.copies.has source destination = false ∧ ¬ c.after.HasWritten source destination

end Call

/-- A sequence of calls that share what is claimed, which is nothing at first.  The files may be
others before each call. -/
inductive History : List Call → Session → Prop
  | start {s : Session} (hcopies : s.copies.pairs = []) (hdeliveries : s.deliveries = []) :
    History [] s
  | call {calls : List Call} {s : Session} (files : FileTree) (source destination base : Path)
    (h : History calls s) :
    History (calls ++ [.on { s with files } source destination base])
      (Call.on { s with files } source destination base).after

namespace History

variable {calls : List Call} {files : FileTree}

theorem isDistinct (h : History calls s) : s.copies.claimed.Nodup := by
  induction h with
  | start hcopies => simp [CopyCache.claimed, hcopies]
  | @call _ s files source destination base _ ih =>
    have hkeeps := Session.KeepsDistinct.copying.ends.script (depthLimit destination base) source
      destination base { s with files }
    rw [← copyScript, Call.run_on] at hkeeps
    exact CopyCache.isDistinct_iff.1 (hkeeps (CopyCache.isDistinct_iff.2 ih))

/-- A call leaves what it claims without writing anything for it: nothing if it succeeds, and the
pair that it was asked for if it fails. -/
theorem exists_left (h : History calls s) (hclaimed : s.written ⊆ s.copies.claimed)
    (files : FileTree) (source destination base : Path) :
    let c := Call.on { s with files } source destination base
    ∃ left, Session.Leaves left { s with files } c.after ∧
      (∀ p q, sides p q ∈ left ↔ c.Fails ∧ c.Leaves p q) ∧
        (c.Fails → c.Leaves source destination) := by
  intro c
  obtain ⟨depth, hdepth⟩ := exists_copyScript_eq source destination base
  have hrun := Call.run_on { s with files } source destination base
  obtain ⟨left, hleaves, hok, hfails⟩ := leaves_script (hdepth ▸ hrun)
  have hmem : ∀ p q, sides p q ∈ left ↔ c.Leaves p q := by
    intro p q
    rw [hleaves.mem_left_iff (h.call files source destination base).isDistinct hclaimed,
      Call.Leaves, CopyCache.has_iff, ← Bool.not_eq_true, CopyCache.has_iff, Session.HasWritten]
    rfl
  refine ⟨left, hleaves, fun p q => ?_, fun hc => (hmem _ _).1 (hfails hc)⟩
  rw [hmem]
  refine (and_iff_right_of_imp fun hc => Bool.eq_false_iff.2 fun hr => ?_).symm
  rw [← hmem, hok hr] at hc
  exact absurd hc List.not_mem_nil

/-- **What was claimed was written, or is left by a call that failed.** -/
theorem claimed_perm (h : History calls s) : ∃ left, s.copies.claimed.Perm (s.written ++ left) ∧
    ∀ p q, sides p q ∈ left ↔ ∃ c ∈ calls, c.Fails ∧ c.Leaves p q := by
  induction h with
  | start hcopies hdeliveries =>
    refine ⟨[], ?_, fun p q => iff_of_false List.not_mem_nil fun ⟨c, hc, _⟩ => nomatch hc⟩
    rw [CopyCache.claimed, Session.written, hcopies, hdeliveries]
    exact .nil
  | @call calls s files source destination base h ih =>
    obtain ⟨left, hperm, hleft⟩ := ih
    obtain ⟨left', ⟨ps, ds, hps, hds, hperm'⟩, hmem, -⟩ := h.exists_left
      (fun k hk => hperm.mem_iff.2 (List.mem_append_left left hk)) files source destination base
    refine ⟨left ++ left', ?_, fun p q => ?_⟩
    · refine List.perm_iff_count.2 fun k => ?_
      have hcount := hperm.count_eq k
      have hcount' := hperm'.count_eq k
      rw [hps, hds]
      simp only [List.count_append] at hcount hcount' ⊢
      change _ + s.copies.claimed.count k = s.written.count k + _ + _
      omega
    · rw [List.mem_append, hleft, hmem]
      simp only [List.mem_append, List.mem_singleton, or_and_right, exists_or, exists_eq_left]

/-- A call that fails leaves the pair that it was asked for. -/
theorem leaves_own (h : History calls s) :
    ∀ c ∈ calls, c.Fails → c.Leaves c.source c.destination := by
  induction h with
  | start => exact fun c hc => absurd hc List.not_mem_nil
  | @call calls s files source destination base h ih =>
    intro c hc hfails
    rcases List.mem_append.1 hc with hc | hc
    · exact ih c hc hfails
    · obtain rfl := List.mem_singleton.1 hc
      obtain ⟨left, hperm, -⟩ := h.claimed_perm
      obtain ⟨left', -, -, hown⟩ := h.exists_left
        (fun k hk => hperm.mem_iff.2 (List.mem_append_left left hk)) files source destination base
      exact hown hfails

end History

/-- **A call that succeeds has written its copy, or an earlier one has, unless the pair is left by
a call that failed.**  A pair whose call failed stays left: each later call for it succeeds
without doing anything, whatever the files are then. -/
theorem hasWritten_iff {calls : List Call} (h : History calls s) :
    (∀ (files : FileTree) (source destination base : Path) (s' : Session),
      (copyScript source destination base).Gives { s with files } () s' →
        (s'.HasWritten source destination ↔
          ¬ ∃ c ∈ calls, c.Fails ∧ c.Leaves source destination)) ∧
    ∀ c ∈ calls, c.Fails → ¬ s.HasWritten c.source c.destination ∧
      ∀ (files : FileTree) (base : Path),
        (copyScript c.source c.destination base).Gives { s with files } () { s with files } := by
  have hwritten : ∀ {calls s} (h : History calls s) {p q : Path}, s.copies.has p q = true →
      (s.HasWritten p q ↔ ¬ ∃ c ∈ calls, c.Fails ∧ c.Leaves p q) := by
    intro calls s h p q hhas
    obtain ⟨left, hperm, hleft⟩ := h.claimed_perm
    have hapart := (List.nodup_append'.1 (hperm.nodup_iff.1 h.isDistinct)).2.2
    have hcase := List.mem_append.1 (hperm.mem_iff.1 (CopyCache.has_iff.1 hhas))
    rw [← hleft]
    exact ⟨fun hmem => hapart hmem, hcase.resolve_right⟩
  refine ⟨fun files source destination base s' hrun => ?_, fun c hc hfails => ?_⟩
  · have hrun' := Call.run_on { s with files } source destination base
    obtain ⟨hresult, rfl⟩ := Prod.mk.inj (hrun'.symm.trans hrun)
    rw [hwritten (h.call files source destination base) (Session.closes_script hrun).2]
    refine not_congr ⟨fun ⟨c, hc, hfails, hleaves⟩ => ?_, fun ⟨c, hc, hleaves⟩ =>
      ⟨c, List.mem_append_left _ hc, hleaves⟩⟩
    rcases List.mem_append.1 hc with hc | hc
    · exact ⟨c, hc, hfails, hleaves⟩
    · rw [List.mem_singleton.1 hc, Call.Fails, hresult] at hfails
      cases hfails
  · have hleaves := h.leaves_own c hc hfails
    obtain ⟨left, hperm, hleft⟩ := h.claimed_perm
    have hmem := (hleft _ _).2 ⟨c, hc, hfails, hleaves⟩
    have hhas := CopyCache.has_iff.2 (hperm.mem_iff.2 (List.mem_append_right s.written hmem))
    refine ⟨fun hold => (hwritten h hhas).1 hold ⟨c, hc, hfails, hleaves⟩, fun files base => ?_⟩
    obtain ⟨depth, hdepth⟩ := exists_copyScript_eq c.source c.destination base
    rw [hdepth]
    exact run_script_of_has hhas

/-- A script that refers to one that is missing, and its neighbour. -/
def missingScript : FileTree where
  entries := [
    (["src"], .folder),
    (["src", "a.js"], .file (.text "import './missing.js'\n")),
    (["src", "b.js"], .file (.text ""))]

/-- The same scripts, once the missing one is there. -/
def mendedScript : FileTree where
  entries := missingScript.entries ++ [(["src", "missing.js"], .file (.text ""))]

/-- The call to copy the script that refers to a missing one. -/
def missingCall : Call :=
  .on { files := missingScript } ⟨"/src/a.js"⟩ ⟨"/out/a.js"⟩ ⟨"/out"⟩

theorem history_missingCall : History [missingCall] missingCall.after :=
  .call missingScript _ _ _ (.start (s := { files := missingScript }) rfl rfl)

set_option maxRecDepth 100000 in
theorem missingCall_run :
    missingCall.result.isOk = false ∧
      missingCall.after.copies.has ⟨"/src/b.js"⟩ ⟨"/out/b.js"⟩ = false ∧
      ((copyScript ⟨"/src/b.js"⟩ ⟨"/out/b.js"⟩ ⟨"/out"⟩).run.run
        { missingCall.after with files := missingScript } :
          Except Failure Unit × Session).1.toOption = some () ∧
      let retry : Except Failure Unit × Session :=
        (copyScript ⟨"/src/a.js"⟩ ⟨"/out/a.js"⟩ ⟨"/out"⟩).run.run
          { missingCall.after with files := mendedScript }
      retry.1.toOption = some () ∧ retry.2.deliveries = [] := by
  decide +kernel

/-- After a call that fails, a neighbour is copied. -/
theorem hasWritten_of_missingCall : ∃ s', (copyScript ⟨"/src/b.js"⟩ ⟨"/out/b.js"⟩ ⟨"/out"⟩).Gives
    { missingCall.after with files := missingScript } () s' ∧
      s'.HasWritten ⟨"/src/b.js"⟩ ⟨"/out/b.js"⟩ := by
  obtain ⟨-, hfree, hok, -⟩ := missingCall_run
  have hrun := Step.gives_of_run hok
  refine ⟨_, hrun, ((hasWritten_iff history_missingCall).1 _ _ _ _ _ hrun).2 ?_⟩
  rintro ⟨c, hc, -, hhas, -⟩
  rw [List.mem_singleton.1 hc, hfree] at hhas
  cases hhas

/-- **A copy that failed cannot be made again**: once the missing script is there, the call
succeeds, and nothing was ever written. -/
theorem not_hasWritten_of_missingCall : History [missingCall] missingCall.after ∧
    missingCall.result.isOk = false ∧
    ∃ s', (copyScript ⟨"/src/a.js"⟩ ⟨"/out/a.js"⟩ ⟨"/out"⟩).Gives
      { missingCall.after with files := mendedScript } () s' ∧
        ¬ s'.HasWritten ⟨"/src/a.js"⟩ ⟨"/out/a.js"⟩ := by
  obtain ⟨hfails, -, -, hok, hnone⟩ := missingCall_run
  exact ⟨history_missingCall, hfails, _, Step.gives_of_run hok, Session.not_hasWritten hnone _ _⟩

end Copy
end ElementBuild
