/-
# Copies that are made again

Scripts and folders are copied again, and the copies are the same, if the places that a run
changes have no part in what it copies: in the scripts that it claims and in where their
references lead (`Step.Recurs.script`), in the folders and in the files below them
(`Step.Recurs.folderCopy`).
-/
import ElementBuild.Proofs.Repeats

namespace ElementBuild

/-- The places that a run changes have no part in the scripts that it copies, nor in where
the references lead that it follows. -/
structure Session.LeavesScripts (s e : Session) : Prop where
  scripts : ∀ p ∈ e.copies.pairs, s.files.Relies (s.Spares e) (·.readText p.1)
  followed : ∀ f, .followed f ∈ e.events →
    s.files.Relies (s.Spares e) (·.resolve f.target [f.folder])

namespace FolderCopy

/-- What is read when a folder is copied: the folder, and what is listed below it, however
deep. -/
inductive Visits (c : FolderCopy) (t : FileTree) : String → Prop where
  | root : Visits c t ""
  | entry {relative : String} {xs : List (String × Entry)} {x : String × Entry}
    (h : Visits c t relative) (hlist : t.list (c.sourceOf relative) = .ok xs) (hx : x ∈ xs) :
    Visits c t (below relative x.1)

/-- The places that a run changes have no part in a folder and in what lies below it. -/
structure Undisturbed (c : FolderCopy) (s e : Session) : Prop where
  folder : s.files.Relies (s.Spares e) (·.isFolder c.source)
  link : s.files.Relies (s.Spares e) (·.isLink c.source)
  list : ∀ relative, c.Visits s.files relative →
    s.files.Relies (s.Spares e) (·.list (c.sourceOf relative))
  read : ∀ relative, c.Visits s.files relative →
    s.files.Relies (s.Spares e) (·.read (c.sourceOf relative))

/-- Stylesheets are rewritten without a look at the session, if at all. -/
def StylesPurely (c : FolderCopy) : Prop :=
  ∀ style, c.style = some style → ∃ f : String → Path → String, style = fun css p => pure (f css p)

theorem StylesPurely.leads {c : FolderCopy} (h : c.StylesPurely) (style : StylePreprocessor)
    (hstyle : c.style = some style) (css : String) (p : Path) :
    (style css p).Respects Session.Leads := by
  obtain ⟨f, rfl⟩ := h style hstyle
  exact .pure _

end FolderCopy

namespace FileTree.Relies

variable {α β : Type} {t : FileTree} {places : Location → Prop} {read : FileTree → α}

/-- What is computed from something relies on the same places. -/
theorem map (f : α → β) (h : t.Relies places read) : t.Relies places fun t => f (read t) :=
  fun t' hwf hcurrent hsame => congrArg f (h t' hwf hcurrent hsame)

theorem prod {read' : FileTree → β} (h : t.Relies places read) (h' : t.Relies places read') :
    t.Relies places fun t => (read t, read' t) := fun t' hwf hcurrent hsame =>
  congrArg₂ Prod.mk (h t' hwf hcurrent hsame) (h' t' hwf hcurrent hsame)

/-- The text of a file relies on what its content relies on. -/
theorem readText {p : Path} (h : t.Relies places (·.read p)) : t.Relies places (·.readText p) := by
  intro t' hwf hcurrent hsame
  have hread := h t' hwf hcurrent hsame
  dsimp only at hread ⊢
  rw [FileTree.readText, FileTree.readText, hread]

end FileTree.Relies

namespace Step.Recurs

variable {s e : Session}

/-! ### Scripts -/

section Scripts

variable (h : s.LeavesScripts e)
include h

/-- A reference is noted before it is followed, and it leads to the same script again. -/
theorem follow {β : Type} {specifier : String} {folder : Path} {g : Path → Followed}
    (hg : ∀ found, (g found).target = specifier ∧ (g found).folder = folder)
    {rest : Path → Step β} (hrest : ∀ found, Recurs s e (rest found)) :
    Recurs s e (do
      let found ← Step.resolve specifier [folder]
      Step.trace (.followed (g found))
      rest found) := by
  have hlater : ∀ found, Recurs s e (do
      Step.trace (.followed (g found))
      rest found) := fun found => (Recurs.followed _).bind fun _ => hrest found
  refine ⟨(Respects.resolve _ _).bind fun found => (hlater found).leads, fun u b u' hrun => ?_⟩
  obtain ⟨found, t, hresolve, hgives⟩ := gives_bind.1 hrun.gives
  obtain ⟨hfound, rfl⟩ := gives_resolve.1 hresolve
  obtain ⟨_, t, htrace, hafter⟩ := gives_bind.1 hgives
  obtain rfl := gives_trace.1 htrace
  have hfollowed : .followed (g found) ∈ e.events :=
    hrun.stop.after.extended.event_mem (((hrest found).leads _ _ _ hafter).extended.event_mem
      (List.mem_append_right _ (List.mem_singleton_self _)))
  have hrelies := h.followed _ hfollowed
  rw [(hg found).1, (hg found).2] at hrelies
  exact .bind (.resolve hfound fun v hv => hrun.start.read_eq hv hrelies)
    ((hlater found).again _ _ _ ⟨hrun.start, hgives, hrun.stop⟩)

variable {base : Path} {copyOn : Path → Path → Step Unit}
  (hcopy : ∀ found landing, Recurs s e (copyOn found landing))
include hcopy

/-- A reference is followed again to the same script. -/
theorem followReference (source destination : Path) (code : List Char) (draft : Text.Draft)
    (r : Reference) :
    Recurs s e (Copy.followReference copyOn source destination base code draft r) := by
  refine follow h (g := fun found => ⟨source.folder, destination.folder, r.target, found,
    Copy.landing base destination r⟩) (fun _ => ⟨rfl, rfl⟩) fun found => ?_
  have hrest : Recurs s e (do
      let draft ← Step.edit draft (Reference.retarget code r.literal
        (Copy.specifier destination r (Copy.landing base destination r)))
      copyOn found (Copy.landing base destination r)
      return draft) :=
    (Recurs.edit _ _).bind fun draft => (hcopy _ _).bind fun _ => .pure draft
  dsimp only
  split
  · exact (Recurs.createFolder _).bind fun _ => hrest
  · exact hrest

/-- A script that is claimed is copied again. -/
theorem copyClaimed {source destination : Path}
    (hclaimed : (source, destination) ∈ e.copies.pairs) :
    Recurs s e (Copy.copyClaimed copyOn source destination base) :=
  ((Recurs.fromFiles (h.scripts _ hclaimed)).during _).bind fun code =>
    ((Recurs.scan _ code).during _).bind fun _ =>
      (Recurs.foldlM (fun draft r _ => followReference h hcopy source destination _ draft r) _).bind
        fun _ => (Recurs.createFolder _).bind fun _ => (Recurs.write _ _ _).during _

end Scripts

/-- **A script is copied again with what it refers to**, if the run leaves the scripts as
they are. -/
theorem script (h : s.LeavesScripts e) {base : Path} (depth : Nat) (source destination : Path) :
    Recurs s e (Copy.script depth source destination base) := by
  induction depth generalizing source destination with
  | zero => exact .fail _
  | succ depth ih =>
    have hleads : ∀ free : Bool, (if free then Copy.copyClaimed (fun s d =>
        Copy.script depth s d base) source destination base else pure ⟨⟩ : Step PUnit).Respects
          Session.Leads := by
      intro free
      cases free with
      | false => exact .pure _
      | true =>
        exact Session.Leads.building.toCopying.steps.copyClaimed (fun s d => (ih s d).leads) _ _ _
    refine (Recurs.claim source destination).bind_run hleads fun u free t b u' hclaim hrun => ?_
    obtain ⟨hfree, rfl⟩ := gives_claim.1 hclaim.gives
    cases free with
    | false =>
      obtain ⟨-, rfl⟩ := gives_pure.1 hrun.gives
      exact .pure _ _
    | true =>
      -- the pair is claimed from now on
      have hclaimed : (source, destination) ∈ e.copies.pairs := by
        refine hrun.start.after.extended.copies _ ?_
        unfold CopyCache.claim at hfree ⊢
        split at hfree
        · cases hfree
        · rw [if_neg ‹_›]
          exact List.mem_cons_self
      exact (copyClaimed h ih hclaimed).again _ _ _ ⟨hrun.start, hrun.gives, hrun.stop⟩

/-! ### Folders -/

section Folders

variable {c : FolderCopy} (hstyle : c.StylesPurely) (hundisturbed : c.Undisturbed s e)
include hstyle hundisturbed

theorem copyFile {relative : String} (h : c.Visits s.files relative) :
    Recurs s e (c.copyFile relative) := by
  have hread := hundisturbed.read relative h
  have hverbatim : Recurs s e
      (FolderCopy.copyFile.verbatim (c.sourceOf relative) (c.targetOf relative)) :=
    (Recurs.deliverCopy _ hread).during _
  unfold FolderCopy.copyFile
  dsimp only
  split
  · rename_i style hsome
    obtain ⟨f, rfl⟩ := hstyle _ hsome
    split
    · exact ((Recurs.fromFiles hread.readText).during _).bind fun css =>
        (Recurs.pure _).bind fun processed => (Recurs.write _ _ _).during _
    · exact hverbatim
  · exact hverbatim

theorem copyBelow (depth : Nat) {relative : String} (h : c.Visits s.files relative) :
    Recurs s e (c.copyBelow depth relative) := by
  induction depth generalizing relative with
  | zero => exact .fail _
  | succ depth ih =>
    have hlist := hundisturbed.list relative h
    refine files_bind (g := (·.list (c.sourceOf relative))) hlist (f := fun listed => do
      Copy.createFolder (c.targetOf relative)
      (listed.toOption.getD []).foldlM (c.copyEntry (c.copyBelow depth) relative) 0) ?_ ?_
    · refine (Recurs.createFolder _).bind fun _ => Recurs.foldlM (fun count x hx => ?_) 0
      have hvisits : c.Visits s.files (FolderCopy.below relative x.1) := by
        cases hlisted : s.files.list (c.sourceOf relative) with
        | error err =>
          rw [hlisted] at hx
          cases hx
        | ok xs =>
          rw [hlisted] at hx
          exact h.entry hlisted hx
      unfold FolderCopy.copyEntry
      split
      · exact (ih hvisits).bind fun n => .pure _
      · exact (copyFile hstyle hundisturbed hvisits).bind fun _ => .pure _
    · have hcopying := Session.Leads.building.toCopying.steps.toDelivering
      exact fun listed => (hcopying.createFolder _).bind fun _ => .foldlM (fun count x _ =>
        hcopying.copyEntry c hstyle.leads (hcopying.copyBelow c hstyle.leads depth)
          relative count x) 0

/-- **A folder is copied again with what lies below it**, if the run does not disturb what
it copies. -/
theorem folderCopy : Recurs s e c.run := by
  have hcopying := Session.Leads.building.toCopying.steps.toDelivering
  refine files_bind (g := fun t => (t.isFolder c.source, t.isLink c.source))
    (hundisturbed.folder.prod hundisturbed.link) (f := fun found => do
      if found.1 then
        if found.2 then
          c.copyFile ""
          return 1
        else c.copyBelow FolderCopy.depthLimit ""
      else return 0) ?_ ?_
  · dsimp only
    split
    · split
      · exact (copyFile hstyle hundisturbed .root).bind fun _ => .pure _
      · exact copyBelow hstyle hundisturbed _ .root
    · exact .pure _
  · intro found
    split
    · split
      · exact (hcopying.copyFile c hstyle.leads _).bind fun _ => .pure _
      · exact hcopying.copyBelow c hstyle.leads _ _
    · exact .pure _

end Folders

end Step.Recurs
end ElementBuild
