/-
# Compiling comes to an end

A component is compiled for a reference unless it is recorded, and it is recorded before it
is compiled.  It is recorded by the canonical path of its file, which is short, so each
compilation that is nested in another takes one of finitely many keys
(`BuildCache.room_register_lt`), and a component that fails takes the whole build with it
before its key is free again.  So the depth to which components are followed does not matter
once there is more of it than there are keys (`Component.agrees_compile`).

What a compilation copies on the way comes to an end as well: scripts because their claims
run out (`copyScript_ends`), and folders because a path that leads deep enough is too long
to be listed (`FolderCopy.agrees_run`).
-/
import ElementBuild.Proofs.Build.Accounts
import ElementBuild.Proofs.Copy.Depth
import ElementBuild.Proofs.Copy.Folder

namespace ElementBuild

open FileTree (pathLimit)
open Step (Agrees BoundedLaw IsBounded)

/-! ### Folders -/

namespace FolderCopy

variable {c : FolderCopy}

/-- Each folder has a longer name than the one above it. -/
theorem size_below (relative : String) {n : String} (hn : n ≠ "") :
    relative.utf8ByteSize < (below relative n).utf8ByteSize := by
  unfold below
  split
  · rename_i hempty
    obtain rfl := String.isEmpty_iff.1 hempty
    exact Nat.pos_of_ne_zero fun hzero => hn (String.utf8ByteSize_eq_zero_iff.1 hzero)
  · rw [String.utf8ByteSize_append, String.utf8ByteSize_append]
    have hslash : "/".utf8ByteSize = 1 := rfl
    omega

theorem size_le_of_join {p q : Path} : q.text.utf8ByteSize ≤ (p.join q).text.utf8ByteSize := by
  unfold Path.join
  split
  · exact le_refl _
  · split
    · rw [String.utf8ByteSize_append]
      exact Nat.le_add_left _ _
    · rw [String.utf8ByteSize_append]
      exact Nat.le_add_left _ _

/-- The name of a folder that is listed is not too long. -/
theorem size_le_of_mem_list {t : FileTree} {relative : String} {x : String × Entry}
    (hx : x ∈ (t.list (c.sourceOf relative)).toOption.getD []) :
    relative.utf8ByteSize ≤ pathLimit := by
  cases hlist : t.list (c.sourceOf relative) with
  | error e =>
    rw [hlist] at hx
    exact absurd hx List.not_mem_nil
  | ok xs =>
    obtain ⟨l, hl, -, -⟩ := FileTree.list_eq_ok hlist
    have hfits : (c.sourceOf relative).Fits := FileTree.fits_of_findPieces (FileTree.locate_eq_ok.1 hl)
    unfold sourceOf at hfits
    split at hfits
    · rename_i hempty
      rw [String.isEmpty_iff.1 hempty]
      exact Nat.zero_le _
    · exact size_le_of_join.trans hfits

variable {s : Session}

/-- A folder is copied to the end where its depth and its name make up for the length of a
path. -/
theorem agrees_copyBelow (hbounded : ∀ style, c.style = some style → ∀ css p, (style css p).IsBounded)
    (hkeeps : ∀ style, c.style = some style → ∀ css p, (style css p).Respects Session.Keeps)
    {depth depth' : Nat} {relative : String} (hwf : s.files.WellFormed)
    (hdepth : pathLimit < depth + relative.utf8ByteSize)
    (hdepth' : pathLimit < depth' + relative.utf8ByteSize) :
    (c.copyBelow (depth + 1) relative).Agrees (c.copyBelow (depth' + 1) relative) s := by
  have hdelivering := Session.Keeps.building.steps.toDelivering
  induction depth using Nat.strongRecOn generalizing depth' relative s with
  | ind depth ih =>
    refine ((Step.Law.files (P := IsBounded)).agrees s).bind fun t u hu => ?_
    obtain ⟨rfl, rfl⟩ := Step.gives_files.1 hu
    refine ((Step.isBounded_quiet.copying.createFolder _).agrees u).bind fun _ v hv => ?_
    have hv' := hdelivering.createFolder _ _ _ _ hv
    refine Agrees.foldlM (r := Session.Keeps) (fun count x hx => ?_) (fun count x hx w hw => ?_) 0
      (refl_of Session.Keeps v)
    · unfold copyEntry
      split
      · exact (hdelivering.copyBelow c hkeeps _ _).bind fun n => .pure _
      · exact (hdelivering.copyFile c hkeeps _).bind fun _ => .pure _
    · unfold copyEntry
      split
      · have hname : x.1 ≠ "" := fun hempty =>
          (isName_of_mem_list hwf hx).text_ne_empty (congrArg String.toList hempty)
        have hsize := size_below relative hname
        -- where something is listed, there is depth left
        have hlisted := size_le_of_mem_list hx
        obtain ⟨k, rfl⟩ : ∃ k, depth = k + 1 := ⟨depth - 1, by omega⟩
        obtain ⟨k', rfl⟩ : ∃ k', depth' = k' + 1 := ⟨depth' - 1, by omega⟩
        exact (ih k (Nat.lt_succ_self k) (hw (hv' hwf).1).1 (by omega) (by omega)).bind
          fun n _ _ => (BoundedLaw.pure (P := IsBounded) _).agrees _
      · exact (BoundedLaw.bind (Step.isBounded_quiet.copying.copyFile c hbounded _)
          fun _ => BoundedLaw.pure (P := IsBounded) _).agrees w

/-- **Copying a folder comes to an end.** -/
theorem agrees_run (hbounded : ∀ style, c.style = some style → ∀ css p, (style css p).IsBounded)
    (hkeeps : ∀ style, c.style = some style → ∀ css p, (style css p).Respects Session.Keeps)
    (hwf : s.files.WellFormed) : c.run.Agrees c.run s := by
  refine ((Step.Law.files (P := IsBounded)).agrees s).bind fun t u hu => ?_
  obtain ⟨rfl, rfl⟩ := Step.gives_files.1 hu
  split
  · split
    · exact (BoundedLaw.bind (Step.isBounded_quiet.copying.copyFile c hbounded "")
        fun _ => BoundedLaw.pure (P := IsBounded) _).agrees u
    · exact agrees_copyBelow hbounded hkeeps hwf (by simp) (by simp)
  · exact (BoundedLaw.pure (P := IsBounded) _).agrees u

end FolderCopy

/-! ### Room for components -/

namespace BuildCache

/-- The keys of paths that are no longer than this; there are too many of them to be
listed. -/
@[irreducible] def keysWithin (size : Nat) : Finset Nat := Finset.range (257 ^ size)

theorem card_keysWithin (size : Nat) : (keysWithin size).card = 257 ^ size := by
  rw [keysWithin, Finset.card_range]

theorem mem_keysWithin {p : Path} {size : Nat} (h : p.text.utf8ByteSize ≤ size) :
    Keys.code p.text ∈ keysWithin size := by
  rw [keysWithin]
  exact Finset.mem_range.2 (Keys.code_lt h)

/-- How many components with short paths can still be recorded at most. -/
def room (c : BuildCache) : Nat :=
  Keys.room (keysWithin pathLimit) (c.entries.map fun e => Keys.code e.1.text)

theorem room_le (c : BuildCache) : c.room ≤ (keysWithin pathLimit).card := Keys.room_le _ _

variable {c c' : BuildCache}

/-- **A component that is recorded anew takes a key.** -/
theorem room_register_lt {entry : Path} (hfits : entry.Fits) (hnone : c.get? entry = none)
    (destination : Path) : (c.register entry destination).room < c.room := by
  have hfree : Keys.code entry.text ∉ c.entries.map fun e => Keys.code e.1.text := by
    intro hmem
    obtain ⟨e, he, hcode⟩ := List.mem_map.1 hmem
    have hother := get?_eq_none.1 hnone e he
    rw [show e.1 = entry from Path.mk.injEq .. ▸ Keys.code_injective hcode, Path.same_refl] at hother
    cases hother
  rw [room, entries_register hnone, List.map_cons]
  exact Keys.room_cons_lt (mem_keysWithin hfits) hfree

/-- What a run leaves in the cache leaves no more room. -/
theorem Accounts.room_le {ok : Bool} {own : List (Path × Path)} {es : List Event}
    (h : c.Accounts ok own es c') : c'.room ≤ c.room := by
  obtain ⟨new, hentries, -⟩ := h.entries
  rw [room, room, hentries]
  exact Keys.room_anti (List.map_subset _ (List.subset_append_right _ _))

end BuildCache

/-- Well-formed files stay so, and there is no more room for components. -/
structure Session.Proceeds (s s' : Session) : Prop where
  kept : s.Keeps s'
  room : s'.builds.room ≤ s.builds.room

namespace Session.Proceeds

variable {s s' : Session}

theorem of_builds (hkept : s.Keeps s') (h : s'.builds = s.builds) : s.Proceeds s' :=
  ⟨hkept, h ▸ le_refl _⟩

instance : IsPreorder Session Proceeds where
  refl s := of_builds (refl_of Keeps s) rfl
  trans _ _ _ h₁ h₂ := ⟨trans_of Keeps h₁.kept h₂.kept, h₂.room.trans h₁.room⟩

/-- What keeps the files and leaves in the cache what it records proceeds. -/
theorem of_law {α : Type} {x : Step α} (hkeeps : x.Respects Keeps)
    (haccounts : x.Ends Session.Accounts) : x.Respects Proceeds := by
  intro s a s' h
  obtain ⟨es, -, hes⟩ := haccounts.of_gives h
  exact ⟨hkeeps s a s' h, hes.room_le⟩

theorem copying : Session.Copying Proceeds where
  log s xs := of_builds (Keeps.building.log s xs) rfl
  mapped s xs := of_builds (Keeps.building.mapped s xs) rfl
  folders s p := of_builds (Keeps.building.folders s p) rfl
  deliveries s d t h := of_builds (Keeps.building.deliveries s d t h) rfl
  copies s p q := of_builds (Keeps.building.copies s p q) rfl
  followed s f := of_builds (Keeps.building.followed s f) rfl

end Session.Proceeds

/-! ### Compilations -/

/-- Copying a script never lacks depth. -/
theorem isBounded_copyScript (source destination base : Path) :
    (copyScript source destination base).IsBounded :=
  fun s => (copyScript_ends source destination base s (le_refl _)).2.1

theorem Plugin.agrees_ecmascript {code : String} {file : Path} {sourcemap : SourcemapOption}
    {style : Option StylePreprocessor} {f f' : String → Step String} {s : Session}
    (h : (f code).Agrees (f' code) s) :
    (Plugin.ecmascript.compile ⟨code, file, sourcemap, f, style⟩).Agrees
      (Plugin.ecmascript.compile ⟨code, file, sourcemap, f', style⟩) s := by
  have hrefuse : ∀ {α : Type} (e : Except PluginFault α), (Step.refusing e).IsBounded := fun e =>
    Step.Law.ofExcept _ e
  unfold ecmascript Ecmascript.compile
  dsimp only
  split
  · exact (Step.Law.fail (P := IsBounded) _).agrees s
  · split
    · exact (Step.Law.fail (P := IsBounded) _).agrees s
    · refine ((hrefuse _).agrees s).bind fun _ t ht => ?_
      obtain ⟨-, rfl⟩ := Step.gives_ofExcept.1 ht
      refine ((hrefuse _).agrees t).bind fun folder u hu => ?_
      obtain ⟨-, rfl⟩ := Step.gives_ofExcept.1 hu
      refine ((Step.Law.files (P := IsBounded)).agrees u).bind fun files v hv => ?_
      obtain ⟨rfl, rfl⟩ := Step.gives_files.1 hv
      refine ((hrefuse _).agrees v).bind fun _ w hw => ?_
      obtain ⟨-, rfl⟩ := Step.gives_ofExcept.1 hw
      refine ((hrefuse _).agrees w).bind fun _ z hz => ?_
      obtain ⟨-, rfl⟩ := Step.gives_ofExcept.1 hz
      exact h.bind fun script t _ => (BoundedLaw.pure (P := IsBounded) _).agrees t

/-- Two ways to compile what a component refers to that agree wherever there is less room
than there was. -/
def ComponentBuild.AgreeBelow (build build' : ComponentBuild) (s : Session) : Prop :=
  ∀ options paths t, t.files.WellFormed → t.builds.room < s.builds.room →
    (build options paths).Agrees (build' options paths) t

theorem ComponentBuild.AgreeBelow.mono {build build' : ComponentBuild} {s t : Session}
    (h : build.AgreeBelow build' s) (hle : t.builds.room ≤ s.builds.room) :
    build.AgreeBelow build' t :=
  fun options paths u hwf hu => h options paths u hwf (hu.trans_le hle)

namespace ComponentContext

variable {c : ComponentContext} {build build' : ComponentBuild} {s : Session}

/-- **A component that is compiled for a reference is recorded first**, which takes of the
room. -/
theorem agrees_link (hbuild : build.AgreeBelow build' s) (hwf : s.files.WellFormed)
    (r : Reference) : (c.link build r).Agrees (c.link build' r) s := by
  unfold link
  cases Target.componentParts? (r.sourceType.getD "") r.target with
  | none => exact (Step.Law.fail (P := IsBounded) _).agrees s
  | some parts =>
    obtain ⟨folder, stem⟩ := parts
    refine ((Step.Law.resolve (P := IsBounded) _ _).agrees s).bind fun entry t ht => ?_
    obtain ⟨hresolve, rfl⟩ := Step.gives_resolve.1 ht
    refine ((BoundedLaw.get (P := IsBounded)).agrees t).bind fun u v hv => ?_
    obtain ⟨rfl, rfl⟩ := Step.gives_get.1 hv
    cases hget : v.builds.get? entry with
    | some destination => exact (BoundedLaw.pure (P := IsBounded) _).agrees v
    | none =>
      dsimp only
      unfold compileDependency
      cases entry.parent? with
      | none => exact (Step.Law.fail (P := IsBounded) _).agrees v
      | some source =>
        obtain ⟨file, -, hcanonical⟩ := FileTree.search_of_resolve hresolve
        obtain ⟨l, -, -, hfits⟩ := FileTree.canonical_eq_ok.1 hcanonical
        dsimp only
        rw [bind_assoc, bind_assoc]
        refine (Agrees.attempt ?_).bind fun _ w _ =>
          (BoundedLaw.bind (BoundedLaw.pure _) fun _ => BoundedLaw.pure (P := IsBounded) _).agrees w
        refine ((Step.isBounded_quiet.outward.tell _).agrees _).bind fun _ w hw => ?_
        obtain rfl := Step.gives_tell.1 hw
        exact hbuild _ _ _ hwf (BuildCache.room_register_lt hfits hget _)

theorem agrees_compileReference (hbuild : build.AgreeBelow build' s) (hwf : s.files.WellFormed)
    (draft : Text.Draft) (r : Reference) :
    (c.compileReference build draft r).Agrees (c.compileReference build' draft r) s :=
  (agrees_link hbuild hwf r).bind fun _ t _ => (BoundedLaw.bind (Step.isBounded_modify _)
    fun _ => Step.Law.edit (P := IsBounded) _ _).agrees t

/-- What is done to a script of a component agrees, if what is done to its references does. -/
theorem agrees_preprocess (hbuild : build.AgreeBelow build' s) (hwf : s.files.WellFormed)
    (hproceeds : ∀ draft r, (c.compileReference build draft r).Respects Session.Proceeds)
    (code : String) : (c.preprocess build code).Agrees (c.preprocess build' code) s := by
  have hquiet := Step.isBounded_quiet.copying
  have hcopying := Session.Proceeds.copying.steps
  have hplain : ∀ code draft r, (c.copyPlain code draft r).IsBounded :=
    hquiet.copyPlainWith isBounded_copyScript c
  have hmapping : ∀ pass : Mapping.Pass, ∀ code folder paths skip,
      (pass.run code folder paths skip).IsBounded := fun pass =>
    hquiet.mapping fun _ _ _ _ _ _ _ => hquiet.copyModule isBounded_copyScript _ _ _ _
  refine ((hquiet.copyPlainCode c (fun _ _ _ _ => hplain _ _ _) code).agrees s).bind
    fun copied t ht => ?_
  have ht' := hcopying.copyPlainCode c (fun _ _ _ _ => hcopying.copyPlain c _ _ _) _ _ _ _ ht
  refine ((hquiet.mapCode (fun pass _ => hmapping pass) copied).agrees t).bind fun mapped u hu => ?_
  have hu' := trans_of Session.Proceeds ht'
    (hcopying.mapCode (fun pass _ => hcopying.mappingPass pass) _ _ _ _ hu)
  refine Agrees.bind ?_ fun linked v _ => (hquiet.inlineAssets c linked).agrees v
  refine ((hquiet.scan _ mapped).agrees u).bind fun references v hv => ?_
  have hv' := trans_of Session.Proceeds hu' (hcopying.scan _ _ _ _ _ hv)
  refine Agrees.bind ?_ fun draft w _ => (BoundedLaw.pure (P := IsBounded) _).agrees w
  exact Agrees.foldlM (fun draft r _ => hproceeds draft r) (fun draft r _ w hw =>
    agrees_compileReference (hbuild.mono (hv'.room.trans' hw.room)) (hw.kept (hv'.kept hwf).1).1
      draft r) _ (refl_of _ v)

end ComponentContext

namespace Component

variable {b : Bundler} {build build' : ComponentBuild} {s : Session}

/-- The folders of a component are copied to the end. -/
theorem agrees_copyFolders (hb : b.IsPlain) {c : ComponentContext} (folder : String)
    (hwf : s.files.WellFormed) :
    (copyFolders c (b.style.map fun factory => factory folder)).Agrees
      (copyFolders c (b.style.map fun factory => factory folder)) s := by
  have hkeeps := Session.Keeps.building.steps.toDelivering
  have hcopy : ∀ (copy : FolderCopy), (∀ style, copy.style = some style →
      (b.style.map fun factory => factory folder) = some style) → ∀ t : Session,
      t.files.WellFormed → (discard copy.run : Step PUnit).Agrees (discard copy.run) t :=
    fun copy hstyle t ht => (FolderCopy.agrees_run
      (fun style h => hb.upholds.preprocessor (P := IsBounded) folder style (hstyle style h))
      (fun style h => hb.upholds.preprocessor (P := Step.Respects Session.Keeps) folder style
        (hstyle style h)) ht).bind fun _ u _ =>
        (BoundedLaw.pure (P := IsBounded) _).agrees u
  refine (hcopy _ (fun _ h => by cases h) s hwf).bind fun _ t ht => ?_
  obtain ⟨n, u, hu, hpure⟩ := Step.gives_bind.1 ht
  obtain ⟨-, rfl⟩ := Step.gives_pure.1 hpure
  exact hcopy _ (fun _ h => h) _
    (hkeeps.folderCopy _ (fun _ h => by cases h) _ _ _ hu hwf).1

/-- Compiling a component agrees, if compiling what it refers to does. -/
theorem agrees_compileFrom (hb : b.IsPlain) (hbuild : build.AgreeBelow build' s)
    (hwf : s.files.WellFormed) {options : BuildOptions}
    (hkeeps : ∀ source paths, (build { options with source } paths).Respects Session.Keeps)
    (haccounts : ∀ source paths, (build { options with source } paths).Ends Session.Accounts)
    (paths : List Path) (name : String) (entry : Path) :
    (compileFrom b build options paths name entry).Agrees
      (compileFrom b build' options paths name entry) s := by
  have hquiet := Step.isBounded_quiet.copying
  have hcopying := Session.Proceeds.copying.steps
  have hstyle := hb.upholds.preprocessor (P := Step.Respects Session.Proceeds)
    (options.publicPath name)
  refine ((Step.Law.ofExcept (P := IsBounded) _ _).agrees s).bind fun plugin t ht => ?_
  obtain ⟨hplugin, rfl⟩ := Step.gives_ofExcept.1 ht
  have hecmascript : plugin = Plugin.ecmascript := by
    obtain ⟨x, hx, rfl⟩ := Registry.exists_of_forExtension hplugin
    rw [hb.registry] at hx
    exact congrArg Prod.snd (List.mem_singleton.1 hx)
  dsimp only
  refine ((hquiet.tell _).agrees t).bind fun _ u hu => ?_
  have hu' := hcopying.tell _ _ _ _ hu
  refine ((hquiet.createFolder _).agrees u).bind fun _ v hv => ?_
  have hv' := trans_of _ hu' (hcopying.createFolder _ _ _ _ hv)
  refine (agrees_copyFolders hb _ (hv'.kept hwf).1).bind fun _ w hw => ?_
  have hw' := trans_of _ hv' (hcopying.copyFolders _ _ hstyle _ _ _ hw)
  refine ((BoundedLaw.get (P := IsBounded)).agrees w).bind fun outer w' hget => ?_
  obtain ⟨rfl, rfl⟩ := Step.gives_get.1 hget
  refine ((Step.isBounded_modify _).agrees w').bind fun _ z hz => ?_
  have hz' := trans_of _ hw' (hcopying.setMapped (fun _ => []) _ _ _ hz)
  refine Agrees.bind ?_ fun compiled z _ => ?_
  · refine ((BoundedLaw.during (P := IsBounded) _ (Step.Law.read _)).agrees _).bind
      fun code u hu => ?_
    obtain ⟨-, rfl⟩ := Step.gives_read.1 (Step.gives_during.1 hu)
    rw [hecmascript]
    refine Agrees.during _ (Plugin.agrees_ecmascript ?_)
    refine ComponentContext.agrees_preprocess (hbuild.mono hz'.room) (hz'.kept hwf).1
      (fun draft r => .of_law ?_ ?_) code
    · exact Session.Keeps.building.steps.toReferring.compileReference _ hkeeps draft r
    · exact Session.Accounts.compileReference _ haccounts draft r
  · refine IsBounded.agrees (BoundedLaw.bind (P := IsBounded) (Step.Law.Noting.finish
      (fun pass _ => hquiet.mapping fun _ _ _ _ _ _ _ =>
        hquiet.copyModule isBounded_copyScript _ _ _ _)
      (fun code => hquiet.point Step.isBounded_quiet.pointed code _ _)
      hb.upholds.minify _ _) fun module => ?_) z
    exact BoundedLaw.bind (Step.isBounded_modify _) fun _ =>
      Step.isBounded_quiet.compiling.deliver _ _ _

theorem isBounded_nameOf (source : Path) : (nameOf source).IsBounded := by
  unfold nameOf
  split
  · exact BoundedLaw.pure _
  · exact Step.Law.fail _

/-- **Compiling a component agrees** at depths that are more than the room that is left. -/
theorem agrees_compile (hb : b.IsPlain) {depth depth' : Nat} {options : BuildOptions}
    {paths : List Path} (hwf : s.files.WellFormed) (hdepth : s.builds.room < depth)
    (hdepth' : s.builds.room < depth') :
    (compile b depth options paths).Agrees (compile b depth' options paths) s := by
  induction depth generalizing depth' options paths s with
  | zero => exact absurd hdepth (Nat.not_lt_zero _)
  | succ depth ih =>
    obtain ⟨depth', rfl⟩ := Nat.exists_eq_succ_of_ne_zero (Nat.ne_zero_of_lt hdepth')
    refine ((isBounded_nameOf _).agrees s).bind fun name t ht => ?_
    obtain ⟨-, rfl⟩ := gives_nameOf ht
    refine ((BoundedLaw.during (P := IsBounded) _ (Step.Law.fromFiles _)).agrees t).bind
      fun entry u hu => ?_
    obtain ⟨-, rfl⟩ := gives_findEntry.1 hu
    cases entry with
    | none => exact (Step.Law.fail (P := IsBounded) _).agrees u
    | some entry =>
      refine ((Step.isBounded_modify _).agrees u).bind fun _ v hv => ?_
      have hentered := Step.gives_modify.1 hv
      have hbuilds : v.builds = u.builds := by
        rw [hentered]
      have hfiles : v.files.WellFormed := by
        rw [hentered]
        exact hwf
      refine agrees_compileFrom hb (fun options paths t ht hlt => ?_) hfiles
        (fun source paths => Session.Keeps.building.compile hb.isDiscreet
          (fun _ _ => .of_eq rfl) depth _ _)
        (fun source paths => Session.Accounts.compile hb.isDiscreet.isTidy depth _ _) paths name entry
      rw [hbuilds] at hlt
      exact ih ht (hlt.trans_le (Nat.le_of_lt_succ hdepth)) (hlt.trans_le (Nat.le_of_lt_succ hdepth'))

theorem room_lt_depthLimit (s : Session) : s.builds.room < depthLimit := by
  rw [depthLimit, Nat.pow_eq, ← BuildCache.card_keysWithin]
  exact Nat.lt_add_one_of_le s.builds.room_le

/-- **Compiling a component comes to an end**, whatever the components refer to: at any depth
from the limit on the run is the same, and it does not fail for want of depth.  It begins
components that were not recorded when it started, and none of them twice. -/
theorem compile_ends (hb : b.IsPlain) (hwf : s.files.WellFormed) {depth : Nat}
    (hdepth : depthLimit ≤ depth) (options : BuildOptions) (paths : List Path) :
    let r : Except Failure Unit × Session := (compile b depthLimit options paths).run.run s
    (compile b depth options paths).run.run s = r ∧
      (∀ e t, r = (.error e, t) → e.fault ≠ .endless) ∧
      ∃ es, r.2.events = s.events ++ es ∧ (∀ k ∈ Event.beginnings es, s.builds.get? k = none) ∧
        (Event.beginnings es).Pairwise fun k k' => k.same k' = false := by
  intro r
  obtain ⟨limit, hlimit⟩ : ∃ limit, limit = depthLimit := ⟨_, rfl⟩
  have hroom : s.builds.room < limit := hlimit ▸ room_lt_depthLimit s
  rw [← hlimit] at hdepth
  have hr : r = (compile b limit options paths).run.run s := by
    rw [hlimit]
  have hagrees : (compile b limit options paths).Agrees (compile b depth options paths) s :=
    agrees_compile hb hwf hroom (hroom.trans_le hdepth)
  obtain ⟨es, hevents, hes⟩ :=
    Session.Accounts.compile hb.isDiscreet.isTidy limit options paths s
  rw [hr]
  exact ⟨hagrees.same.symm, hagrees.settled, es, hevents, hes.fresh, hes.once⟩

/-- A component that refers to itself. -/
def selfReference : FileTree where
  entries := [
    (["a_a"], .folder),
    (["a_a", "index.esm"], .file (.text "import '../a_a/index.esm'\nexport default A"))]

set_option maxRecDepth 100000 in
theorem selfReference_run :
    ((compile {} 1 { source := ⟨"/a_a"⟩, destination := ⟨"/o"⟩ } [⟨"/o/a_a"⟩, ⟨"/a_a"⟩]).run.run
      { files := selfReference } : Except Failure Unit × Session).1.isOk = false := by
  decide +kernel

/-- One depth is not enough for a component that refers to itself, but there is one that is. -/
theorem ends_of_selfReference :
    let s : Session := { files := selfReference }
    let r : Except Failure Unit × Session := (compile {} depthLimit
      { source := ⟨"/a_a"⟩, destination := ⟨"/o"⟩ } [⟨"/o/a_a"⟩, ⟨"/a_a"⟩]).run.run s
    ((compile {} 1 { source := ⟨"/a_a"⟩, destination := ⟨"/o"⟩ } [⟨"/o/a_a"⟩, ⟨"/a_a"⟩]).run.run s :
        Except Failure Unit × Session).1.isOk = false ∧
      ((compile {} (depthLimit + 1)
        { source := ⟨"/a_a"⟩, destination := ⟨"/o"⟩ } [⟨"/o/a_a"⟩, ⟨"/a_a"⟩]).run.run s :
          Except Failure Unit × Session) = r ∧
      (∀ e t, r = (.error e, t) → e.fault ≠ .endless) ∧
      ∃ es, r.2.events = s.events ++ es ∧ (∀ k ∈ Event.beginnings es, s.builds.get? k = none) ∧
        (Event.beginnings es).Pairwise fun k k' => k.same k' = false :=
  ⟨selfReference_run, compile_ends Bundler.isPlain_default (by decide)
    (Nat.le_add_right depthLimit 1) _ _⟩

end Component

/-! ### Builds -/

/-- A step that keeps files well-formed, and does not lack depth where they are. -/
structure Step.IsSafe {α : Type} (x : Step α) : Prop where
  kept : x.Respects Session.Keeps
  agrees : ∀ s : Session, s.files.WellFormed → x.Agrees x s

instance : BoundedLaw Step.IsSafe where
  pure a := ⟨.pure a, fun s _ => (BoundedLaw.pure (P := IsBounded) a).agrees s⟩
  bind hx hf := ⟨hx.kept.bind fun a => (hf a).kept, fun s hwf =>
    (hx.agrees s hwf).bind fun a t ht => (hf a).agrees t (hx.kept s a t ht hwf).1⟩
  refuse f hf := ⟨fun _ _ _ h => absurd h Step.gives_throw, fun s _ =>
    (BoundedLaw.refuse (P := IsBounded) f hf).agrees s⟩
  get := ⟨.get, fun s _ => (BoundedLaw.get (P := IsBounded)).agrees s⟩
  during a hx := ⟨hx.kept.during a, fun s hwf => (hx.agrees s hwf).during a⟩

namespace Bundler

variable {b : Bundler}

theorem isSafe_compileEntry (hb : b.IsPlain) (options : BuildOptions) :
    (b.compileEntry options).IsSafe := by
  refine ⟨respects_compileEntry Session.Keeps.building.begun fun paths =>
    Session.Keeps.building.compile hb.isDiscreet (fun _ _ => .of_eq rfl) _ _ _, fun s hwf => ?_⟩
  have hcompile : ∀ paths (t : Session), t.files.WellFormed →
      (Component.compile b Component.depthLimit options paths).Agrees
        (Component.compile b Component.depthLimit options paths) t := fun paths t ht =>
    Component.agrees_compile hb ht (Component.room_lt_depthLimit t) (Component.room_lt_depthLimit t)
  refine ((Component.isBounded_nameOf _).agrees s).bind fun name t ht => ?_
  obtain ⟨-, rfl⟩ := Component.gives_nameOf ht
  refine ((BoundedLaw.during (P := IsBounded) _ (Step.Law.fromFiles _)).agrees t).bind
    fun entry u hu => ?_
  obtain ⟨-, rfl⟩ := Component.gives_findEntry.1 hu
  cases entry with
  | none => exact hcompile _ u hwf
  | some file =>
    refine ((BoundedLaw.during (P := IsBounded) _ (Step.Law.fromFiles _)).agrees u).bind
      fun canonical v hv => ?_
    obtain ⟨-, rfl⟩ := Step.gives_fromFiles.1 (Step.gives_during.1 hv)
    refine ((BoundedLaw.get (P := IsBounded)).agrees v).bind fun w z hz => ?_
    obtain ⟨rfl, rfl⟩ := Step.gives_get.1 hz
    split
    · exact (BoundedLaw.pure (P := IsBounded) _).agrees _
    · exact Agrees.attempt (hcompile _ _ hwf)

/-- **A build never fails for want of depth.** -/
theorem settled_of_builds (hb : b.IsPlain) {s : Session} (hwf : s.files.WellFormed)
    {options : BuildOptions} {x : Step (List Bundle)}
    (hx : x = b.compile options ∨ x = b.compileAll options) :
    ∀ e t, (x.run.run s : Except Failure (List Bundle) × Session) = (.error e, t) →
      e.fault ≠ .endless := by
  have hkeeps := Session.Keeps.building.steps
  have htell : ∀ r, (Step.tell r).IsSafe := fun r =>
    ⟨hkeeps.tell r, fun s _ => (Step.isBounded_quiet.outward.tell r).agrees s⟩
  have hrestart : (modify Session.restart : Step PUnit).IsSafe :=
    ⟨.modify fun s => .of_eq rfl, fun s _ => (Step.isBounded_modify _).agrees s⟩
  obtain ⟨body, hbody, rfl⟩ := exists_body htell (isSafe_compileEntry hb) hx
  have hsafe : (b.prepare options >>= fun o => modify Session.restart >>= fun _ => body o).IsSafe :=
    BoundedLaw.bind (law_prepare htell b options) fun o =>
      BoundedLaw.bind hrestart fun _ => hbody o
  exact (hsafe.agrees s hwf).settled

end Bundler
end ElementBuild
