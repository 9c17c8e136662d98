/-
# Copying comes to an end

A script that is copied on the way claims a pair that was free.  Links, the mains of
packages and index files may lead ever deeper below the base, so nothing about the files
alone says that the pairs run out.  But the folder of a landing place is made before its
script is copied, and the path of a folder that is made is short (`FileTree.fits_of_createFolders`);
so are the canonical path of the script and the name of its copy.  A pair is told by these
three texts (`Copy.IsShort.same`), so each one that is claimed takes one of finitely many
keys (`Copy.room_claim`).

So the depth to which scripts are followed does not matter once there is more of it than
there are keys (`Step.Settles`, `Copy.settles_script`): the run is the same at every such
depth, and never ends for want of it (`copyScript_ends`).
-/
import ElementBuild.Proofs.Copy.Pairs
import ElementBuild.Proofs.Keys
import ElementBuild.Proofs.Resolution
import ElementBuild.Proofs.Settling
import Mathlib.Data.Finset.Prod

namespace ElementBuild

open FileTree (pathLimit)
open Keys (code code_lt code_injective)

namespace Copy

/-! ### Keys -/

/-- What a pair is told by: its file, and the folder and the name of its destination. -/
def keyOf (p : Path × Path) : Nat × Nat × Nat :=
  (code p.1.text, code p.2.folder.text, code (p.2.fileName?.getD ""))

/-- A pair of short texts. -/
structure IsShort (limit : Nat) (p : Path × Path) : Prop where
  source : p.1.Fits
  folder : p.2.folder.Fits
  name : ∃ n, p.2.fileName? = some n ∧ n.utf8ByteSize ≤ limit

/-- The keys of pairs whose paths and whose names are no longer than this; there are too many
of them to be listed. -/
@[irreducible] def keysWithin (path name : Nat) : Finset (Nat × Nat × Nat) :=
  Finset.range (257 ^ path) ×ˢ Finset.range (257 ^ path) ×ˢ Finset.range (257 ^ name)

theorem card_keysWithin (path name : Nat) :
    (keysWithin path name).card = 257 ^ (2 * path + name) := by
  rw [keysWithin, Finset.card_product, Finset.card_product, Finset.card_range, Finset.card_range,
    ← pow_add, ← pow_add, ← Nat.add_assoc, ← Nat.two_mul]

variable {limit : Nat} {p q : Path × Path}

theorem keyOf_mem_keysWithin {path name : Nat} (hsource : p.1.text.utf8ByteSize ≤ path)
    (hfolder : p.2.folder.text.utf8ByteSize ≤ path)
    (hname : (p.2.fileName?.getD "").utf8ByteSize ≤ name) : keyOf p ∈ keysWithin path name := by
  rw [keysWithin]
  exact Finset.mem_product.2 ⟨Finset.mem_range.2 (code_lt hsource), Finset.mem_product.2
    ⟨Finset.mem_range.2 (code_lt hfolder), Finset.mem_range.2 (code_lt hname)⟩⟩

/-- The keys of pairs of short texts. -/
def keys (limit : Nat) : Finset (Nat × Nat × Nat) := keysWithin pathLimit limit

theorem IsShort.mem_keys (h : IsShort limit p) : keyOf p ∈ keys limit := by
  obtain ⟨n, hn, hsize⟩ := h.name
  refine keyOf_mem_keysWithin h.source h.folder ?_
  rw [hn]
  exact hsize

/-- **Pairs of one key are the same.** -/
theorem IsShort.same (h : IsShort limit p) (hkey : keyOf q = keyOf p) :
    q.1.same p.1 = true ∧ q.2.same p.2 = true := by
  obtain ⟨hsource, hrest⟩ := Prod.mk.inj hkey
  obtain ⟨hfolder, hname⟩ := Prod.mk.inj hrest
  obtain ⟨n, hn, -⟩ := h.name
  have hq : q.2.fileName? = some n := by
    have hname' := code_injective hname
    rw [hn, Option.getD_some] at hname'
    cases hq : q.2.fileName? with
    | none =>
      rw [hq, Option.getD_none] at hname'
      exact absurd (Path.segments_of_fileName? hn).1 (by rw [← hname']; decide)
    | some m =>
      rw [hq, Option.getD_some] at hname'
      rw [hname']
  obtain ⟨-, cs, hcs⟩ := Path.segments_of_fileName? hn
  obtain ⟨-, ds, hds⟩ := Path.segments_of_fileName? hq
  have hfolders : q.2.folder = p.2.folder := Path.mk.injEq .. ▸ code_injective hfolder
  have hends : ds = cs := by
    rw [← Path.segments_folder hds, ← Path.segments_folder hcs, hfolders]
  constructor
  · rw [Path.same, Path.segments, Path.segments, code_injective hsource]
    exact beq_self_eq_true _
  · rw [Path.same, hds, hcs, hends]
    exact beq_self_eq_true _

/-! ### Room -/

/-- How many pairs of short texts can still be claimed at most. -/
def room (limit : Nat) (c : CopyCache) : Nat := Keys.room (keys limit) (c.pairs.map keyOf)

theorem room_le (limit : Nat) (c : CopyCache) : room limit c ≤ (keys limit).card :=
  Keys.room_le _ _

/-- **A free pair of short texts takes a key.** -/
theorem room_cons_lt (h : IsShort limit p) {c : CopyCache} (hfree : c.has p.1 p.2 = false) :
    room limit ⟨p :: c.pairs⟩ < room limit c := by
  have huntaken : keyOf p ∉ c.pairs.map keyOf := by
    intro hmem
    obtain ⟨q, hq, hkey⟩ := List.mem_map.1 hmem
    obtain ⟨hsource, hdestination⟩ := h.same hkey
    have hhas : c.has p.1 p.2 = true :=
      List.any_eq_true.2 ⟨q, hq, by rw [hsource, hdestination]; rfl⟩
    rw [hfree] at hhas
    cases hhas
  exact Keys.room_cons_lt h.mem_keys huntaken

/-- Between two sessions pairs are claimed that there was room for. -/
structure Spends (limit : Nat) (s s' : Session) : Prop where
  room : room limit s'.copies ≤ room limit s.copies
  pairs : s'.copies.pairs.length + Copy.room limit s'.copies ≤
    s.copies.pairs.length + Copy.room limit s.copies

namespace Spends

theorem of_eq {s s' : Session} (h : s'.copies = s.copies) : Spends limit s s' := by
  constructor
  · rw [h]
  · rw [h]

instance : IsPreorder Session (Spends limit) where
  refl _ := of_eq rfl
  trans _ _ _ h₁ h₂ := ⟨h₂.room.trans h₁.room, h₂.pairs.trans h₁.pairs⟩

end Spends
end Copy

/-! ### Runs that have enough depth -/

namespace Step

open Copy (Spends)

variable {α β : Type} {limit : Nat}

/-- A step that claims nothing, and does not fail for want of depth. -/
structure IsStill (x : Step α) : Prop where
  bounded : x.IsBounded
  ends : x.Ends fun _ s s' => s'.copies = s.copies

instance : IsPreorder Session fun s s' => s'.copies = s.copies where
  refl _ := rfl
  trans _ _ _ h₁ h₂ := h₂.trans h₁

namespace IsStill

open Step.Law (Delivering)

instance : BoundedLaw IsStill where
  pure a := ⟨BoundedLaw.pure a, BoundedLaw.pure (P := Ends _) a⟩
  bind hx hf := ⟨BoundedLaw.bind hx.bounded fun a => (hf a).bounded,
    BoundedLaw.bind (P := Ends _) hx.ends fun a => (hf a).ends⟩
  refuse f hf := ⟨BoundedLaw.refuse f hf, BoundedLaw.refuse (P := Ends _) f hf⟩
  get := ⟨BoundedLaw.get, BoundedLaw.get (P := Ends _)⟩
  during a hx := ⟨BoundedLaw.during a hx.bounded, BoundedLaw.during (P := Ends _) a hx.ends⟩

theorem delivering : Delivering IsStill := by
  have hbounded := isBounded_quiet.copying.toDelivering
  have hends : Delivering (Ends fun _ s s' => s'.copies = s.copies) :=
    Session.Delivering.ends ⟨⟨fun _ _ => rfl, fun _ _ => rfl⟩, fun _ _ => rfl, fun _ _ _ _ => rfl⟩
  exact {
    tell := fun r => ⟨hbounded.tell r, hends.tell r⟩
    setMapped := fun f => ⟨hbounded.setMapped f, hends.setMapped f⟩
    createFolders := fun p => ⟨hbounded.createFolders p, hends.createFolders p⟩
    write := fun p q text => ⟨hbounded.write p q text, hends.write p q text⟩
    deliverCopy := fun p q => ⟨hbounded.deliverCopy p q, hends.deliverCopy p q⟩ }

theorem trace (e : Event) : (Step.trace e).IsStill := ⟨isBounded_modify _, fun _ => rfl⟩

end IsStill

/-- Two steps have the same run from a session.  It does not fail for want of depth, and
there was room for what it claims. -/
structure Settles (limit : Nat) (x y : Step α) (s : Session) : Prop extends Agrees x y s where
  spends : Spends limit s (x.run.run s : Except Failure α × Session).2

theorem IsStill.settles {x : Step α} (h : x.IsStill) (s : Session) : x.Settles limit x s :=
  ⟨h.bounded.agrees s, .of_eq (h.ends s)⟩

namespace Settles

variable {x x' : Step α} {f f' : α → Step β} {s : Session}

theorem of_gives (h : x.Settles limit x' s) {a : α} {t : Session} (hx : x.Gives s a t) :
    Spends limit s t := by
  have hspends := h.spends
  unfold Gives at hx
  rw [hx] at hspends
  exact hspends

protected theorem bind (h : x.Settles limit x' s)
    (hf : ∀ a t, x.Gives s a t → (f a).Settles limit (f' a) t) :
    (x >>= f).Settles limit (x' >>= f') s := by
  refine ⟨h.toAgrees.bind fun a t ht => (hf a t ht).toAgrees, ?_⟩
  have hspends := h.spends
  rcases hrun : (x.run.run s : Except Failure α × Session) with ⟨e | a, t⟩
  · rw [hrun] at hspends
    rw [run_bind_error hrun]
    exact hspends
  · rw [hrun] at hspends
    rw [run_bind_ok hrun]
    exact trans_of (Spends limit) hspends (hf a t hrun).spends

/-- Rounds of a fold that have the same runs, wherever there is no more room than at the
start, make folds that have. -/
protected theorem foldlM {γ : Type} {g g' : β → γ → Step β} {xs : List γ} {space : Nat}
    (hg : ∀ b, ∀ x ∈ xs, ∀ s : Session, Copy.room limit s.copies ≤ space →
      (g b x).Settles limit (g' b x) s)
    (b : β) {s : Session} (hs : Copy.room limit s.copies ≤ space) :
    (xs.foldlM g b).Settles limit (xs.foldlM g' b) s := by
  induction xs generalizing b s with
  | nil => exact (BoundedLaw.pure (P := IsStill) b).settles s
  | cons x xs ih =>
    rw [List.foldlM_cons, List.foldlM_cons]
    have hfirst := hg b x List.mem_cons_self s hs
    refine hfirst.bind fun c t ht => ?_
    exact ih (fun b y hy => hg b y (List.mem_cons_of_mem x hy)) c
      ((hfirst.of_gives ht).room.trans hs)

end Settles
end Step

namespace Copy

open Step (BoundedLaw IsStill Law Settles)

variable {k : Nat} {source destination base : Path} {copyOn copyOn' : Path → Path → Step Unit}
  {s : Session}

/-- A reference that is followed leads to a pair of short texts, if the path of the folder
where it lands is not too long. -/
theorem isShort_landing (hk : pathLimit ≤ k) (hbase : base.Narrow k)
    (hfolder : destination.folder.Narrow k) {r : Reference} (hr : follows r = true)
    {t : FileTree} {found : Path} (hfound : t.resolve r.target [source.folder] = .ok found)
    (hfits : ∀ folder, (landing base destination r).parent? = some folder → folder.Fits) :
    IsShort (k + 3) (found, landing base destination r) := by
  rw [follows, Bool.and_eq_true] at hr
  have htwo : 2 ≤ k := (show 2 ≤ pathLimit by decide).trans hk
  have habsolute := isAbsolute_of_isRelative hr.2
  have htarget := (FileTree.narrow_of_resolve habsolute hr.2 hfound).mono hk
  have hname : ∃ n, (landing base destination r).fileName? = some n ∧ n.utf8ByteSize ≤ k + 3 :=
    Path.exists_fileName?_confine htwo hbase (hfolder.join htarget)
  generalize landing base destination r = place at hname hfits ⊢
  obtain ⟨n, hn, hsize⟩ := hname
  obtain ⟨-, cs, hsegments⟩ := Path.segments_of_fileName? hn
  obtain ⟨folder, hparent, -⟩ := Path.segments_parent? hsegments
  obtain ⟨file, -, hcanonical⟩ := FileTree.search_of_resolve hfound
  obtain ⟨l, -, -, hsource⟩ := FileTree.canonical_eq_ok.1 hcanonical
  refine ⟨hsource, ?_, n, hn, hsize⟩
  rw [Path.folder, hparent]
  exact hfits folder hparent

/-- Handling a reference settles, if copying pairs of short texts does where there is no
more room. -/
theorem settles_followReference (hk : pathLimit ≤ k) (hbase : base.Narrow k)
    (hfolder : destination.folder.Narrow k)
    (hcopy : ∀ (p : Path × Path) (u : Session), IsShort (k + 3) p →
      room (k + 3) u.copies ≤ room (k + 3) s.copies →
        (copyOn p.1 p.2).Settles (k + 3) (copyOn' p.1 p.2) u)
    (cs : List Char) (draft : Text.Draft) {r : Reference} (hr : follows r = true) :
    (followReference copyOn source destination base cs draft r).Settles (k + 3)
      (followReference copyOn' source destination base cs draft r) s := by
  have hshort := @isShort_landing k source destination base hk hbase hfolder r hr
  unfold followReference
  refine ((Law.resolve (P := IsStill) _ _).settles s).bind fun found t hfound => ?_
  obtain ⟨hresolved, rfl⟩ := Step.gives_resolve.1 hfound
  dsimp only
  generalize landing base destination r = place at hshort ⊢
  refine ((IsStill.trace _).settles t).bind fun _ u hu => ?_
  obtain rfl := Step.gives_trace.1 hu
  have hrest : ∀ u : Session, IsShort (k + 3) (found, place) → u.copies = t.copies →
      (do
        let draft ← Step.edit draft
          (Reference.retarget cs r.literal (specifier destination r place))
        copyOn found place
        return draft : Step Text.Draft).Settles (k + 3) (do
          let draft ← Step.edit draft
            (Reference.retarget cs r.literal (specifier destination r place))
          copyOn' found place
          return draft) u := by
    intro u hplace hcopies
    refine ((Law.edit (P := IsStill) _ _).settles u).bind fun draft' v hv => ?_
    obtain ⟨-, rfl⟩ := Step.gives_edit.1 hv
    refine (hcopy (found, place) v hplace ?_).bind fun _ w _ => (BoundedLaw.pure (P := IsStill) draft').settles w
    rw [hcopies]
  split
  · rename_i folder hparent
    refine ((IsStill.delivering.createFolder folder).settles _).bind fun _ v hv => ?_
    obtain ⟨hmade, rfl⟩ := Step.gives_createFolders.1 (Step.gives_during.1 hv)
    refine hrest _ (hshort hresolved fun folder' hfolder' => ?_) rfl
    obtain rfl : folder' = folder := Option.some.inj (hfolder'.symm.trans hparent)
    exact FileTree.fits_of_createFolders hmade
  · rename_i hparent
    refine hrest _ (hshort hresolved fun folder hfolder => ?_) rfl
    cases hfolder.symm.trans hparent

theorem settles_copyClaimed (hk : pathLimit ≤ k) (hbase : base.Narrow k)
    (hfolder : destination.folder.Narrow k)
    (hcopy : ∀ (p : Path × Path) (u : Session), IsShort (k + 3) p →
      room (k + 3) u.copies ≤ room (k + 3) s.copies →
        (copyOn p.1 p.2).Settles (k + 3) (copyOn' p.1 p.2) u) :
    (copyClaimed copyOn source destination base).Settles (k + 3)
      (copyClaimed copyOn' source destination base) s := by
  unfold copyClaimed
  have hread : (Step.during (.reading source) (Step.read source)).IsStill :=
    BoundedLaw.during _ (Law.read _)
  refine (hread.settles s).bind fun text t ht => ?_
  obtain ⟨-, rfl⟩ := Step.gives_read.1 (Step.gives_during.1 ht)
  have hscan : (Step.during (.parsing source) (Step.scan scanOptions text)).IsStill :=
    BoundedLaw.during _ (IsStill.delivering.scan scanOptions text)
  refine (hscan.settles t).bind fun refs u hu => ?_
  have hroom : room (k + 3) u.copies ≤ room (k + 3) t.copies :=
    ((hscan.settles t).of_gives hu).room
  refine (Settles.foldlM (fun draft r hr v hv => ?_) _ hroom).bind
    fun draft v hv => ?_
  · exact settles_followReference hk hbase hfolder
      (fun p w hp hw => hcopy p w hp (hw.trans hv)) _ draft (List.mem_filter.1 hr).2
  · have hwrite : (do
        createFolder destination.folder
        Step.during (.writing destination)
          (Step.write source destination draft.toString) : Step Unit).IsStill :=
      BoundedLaw.bind (IsStill.delivering.createFolder _) fun _ =>
        BoundedLaw.during _ (IsStill.delivering.write _ _ _)
    exact hwrite.settles v

/-- There is room for a pair of short texts that is claimed. -/
theorem settles_claim {limit : Nat} {p : Path × Path} (hp : IsShort limit p) (s : Session) :
    (Step.claim p.1 p.2).Settles limit (Step.claim p.1 p.2) s := by
  have hclaims : (Step.claim p.1 p.2).Gives s (s.copies.claim p.1 p.2).1
      { s with copies := (s.copies.claim p.1 p.2).2 } := Step.gives_claim.2 ⟨rfl, rfl⟩
  unfold Step.Gives at hclaims
  refine ⟨⟨rfl, fun e t h => ?_⟩, ?_⟩
  · rw [hclaims] at h
    cases h
  · rw [hclaims]
    by_cases hhas : s.copies.has p.1 p.2 = true
    · refine .of_eq ?_
      rw [CopyCache.claim, if_pos hhas]
    · have hlt := room_cons_lt hp (Bool.not_eq_true _ ▸ hhas)
      have hclaim : (s.copies.claim p.1 p.2).2 = ⟨p :: s.copies.pairs⟩ := by
        rw [CopyCache.claim, if_neg hhas]
      constructor
      · rw [hclaim]
        exact hlt.le
      · rw [hclaim]
        have hlength : (p :: s.copies.pairs).length = s.copies.pairs.length + 1 := List.length_cons
        change (p :: s.copies.pairs).length + room limit ⟨p :: s.copies.pairs⟩ ≤ _
        omega

/-- **Copying a pair of short texts settles** where the depth is more than the room that
is left: what is claimed first takes of the room, so the scripts that follow have enough
depth, too. -/
theorem settles_script (hk : pathLimit ≤ k) (hbase : base.Narrow k) {depth depth' : Nat}
    {p : Path × Path} (hp : IsShort (k + 3) p) {s : Session}
    (hdepth : room (k + 3) s.copies < depth) (hdepth' : room (k + 3) s.copies < depth') :
    (script depth p.1 p.2 base).Settles (k + 3) (script depth' p.1 p.2 base) s := by
  induction depth generalizing depth' p s with
  | zero => exact absurd hdepth (Nat.not_lt_zero _)
  | succ depth ih =>
    obtain ⟨depth', rfl⟩ := Nat.exists_eq_succ_of_ne_zero (Nat.ne_zero_of_lt hdepth')
    refine (settles_claim hp s).bind fun free t ht => ?_
    obtain ⟨rfl, rfl⟩ := Step.gives_claim.1 ht
    unfold CopyCache.claim
    split
    · exact (BoundedLaw.pure (P := IsStill) _).settles _
    · rename_i hfree
      have hlt := room_cons_lt hp (Bool.not_eq_true _ ▸ hfree)
      have hfolder := (Path.narrow_of_size hp.folder).mono hk
      refine settles_copyClaimed hk hbase hfolder fun q u hq hu => ?_
      have hu' : room (k + 3) u.copies ≤ room (k + 3) ⟨p :: s.copies.pairs⟩ := hu
      exact ih hq (by omega) (by omega)

end Copy

/-- **Copying a script comes to an end**, after claiming fewer pairs than its depth: at any
depth from there on the run is the same, and it does not fail for want of depth. -/
theorem copyScript_ends (source destination base : Path) (s : Session) {depth : Nat}
    (hdepth : Copy.depthLimit destination base ≤ depth) :
    let r : Except Failure Unit × Session := (copyScript source destination base).run.run s
    (Copy.script depth source destination base).run.run s = r ∧
      (∀ e t, r = (.error e, t) → e.fault ≠ .endless) ∧
      r.2.copies.pairs.length < s.copies.pairs.length + Copy.depthLimit destination base := by
  intro r
  -- the names that a landing place gets are no longer than this
  obtain ⟨k, hk⟩ : ∃ k, k = pathLimit + base.text.utf8ByteSize +
    destination.folder.text.utf8ByteSize := ⟨_, rfl⟩
  have hbase : base.Narrow k := Path.narrow_of_size (by omega)
  have hfolder : destination.folder.Narrow k := Path.narrow_of_size (by omega)
  obtain ⟨space, hspace⟩ : ∃ space, space = (Copy.keys (k + 3)).card := ⟨_, rfl⟩
  have hlimit : Copy.depthLimit destination base = space + 1 + 1 := by
    rw [hspace, Copy.keys, Copy.card_keysWithin, Copy.depthLimit, Copy.nameLimit, Nat.pow_eq, ← hk]
  have hclaimed : ∀ {d d' : Nat} (t : Session), space < d → space < d' →
      (Copy.copyClaimed (fun s e => Copy.script d s e base) source destination base).Settles (k + 3)
        (Copy.copyClaimed (fun s e => Copy.script d' s e base) source destination base) t := by
    intro d d' t hd hd'
    refine Copy.settles_copyClaimed (by omega) hbase hfolder fun p u hp _ => ?_
    have hroom := hspace ▸ Copy.room_le (k + 3) u.copies
    exact Copy.settles_script (by omega) hbase hp (hroom.trans_lt hd) (hroom.trans_lt hd')
  obtain ⟨depth, rfl⟩ : ∃ d, depth = d + 1 := ⟨depth - 1, by omega⟩
  have hr : r = (Copy.script (space + 1 + 1) source destination base).run.run s := by
    rw [← hlimit]
    rfl
  by_cases hhas : s.copies.has source destination = true
  · rw [Copy.run_script_of_has hhas] at hr ⊢
    refine ⟨hr.symm, fun e t h => ?_, ?_⟩
    · rw [hr] at h
      cases h
    · rw [hr, hlimit]
      exact Nat.lt_add_of_pos_right (Nat.succ_pos _)
  · rw [Copy.run_script_of_free (Bool.not_eq_true _ ▸ hhas)] at hr ⊢
    have hsettles := @hclaimed (space + 1) depth
      { s with copies := ⟨(source, destination) :: s.copies.pairs⟩ } (by omega) (by omega)
    rw [hr]
    refine ⟨hsettles.same.symm, hsettles.settled, ?_⟩
    have hpairs := hsettles.spends.pairs
    have hroom := hspace ▸ Copy.room_le (k + 3) ⟨(source, destination) :: s.copies.pairs⟩
    have hlength : ((source, destination) :: s.copies.pairs).length = s.copies.pairs.length + 1 :=
      List.length_cons
    change _ ≤ ((source, destination) :: s.copies.pairs).length +
      Copy.room (k + 3) ⟨(source, destination) :: s.copies.pairs⟩ at hpairs
    rw [hlimit]
    omega

/-- A script that leads back to itself, through the main of a package below it.  Each time
around, its copy lands one folder deeper. -/
def Copy.deepeningScript : FileTree where
  entries := [
    (["src"], .folder),
    (["src", "a.js"], .file (.text "import './d/x.js'\n")),
    (["src", "d"], .folder),
    (["src", "d", "x.js"], .folder),
    (["src", "d", "x.js", "package.json"], .file (.text "\x7b\"main\": \"../../a.js\"\x7d"))]

set_option maxRecDepth 100000 in
/-- A small depth is not enough for a script whose copies land ever deeper, but there is one
that is. -/
theorem Copy.ends_of_deepeningScript :
    let s : Session := { files := deepeningScript }
    let few : Except Failure Unit × Session :=
      (script 3 ⟨"/src/a.js"⟩ ⟨"/out/a.js"⟩ ⟨"/out"⟩).run.run s
    let limit := depthLimit ⟨"/out/a.js"⟩ ⟨"/out"⟩
    let r : Except Failure Unit × Session :=
      (copyScript ⟨"/src/a.js"⟩ ⟨"/out/a.js"⟩ ⟨"/out"⟩).run.run s
    (few.2.copies.pairs.map (·.2.text) =
      ["/out/d/d/x.js", "/out/d/x.js", "/out/a.js"] ∧
      few.1.isOk = false) ∧
    (script (limit + 1) ⟨"/src/a.js"⟩ ⟨"/out/a.js"⟩ ⟨"/out"⟩).run.run s = r ∧
      (∀ e t, r = (.error e, t) → e.fault ≠ .endless) ∧
      r.2.copies.pairs.length < s.copies.pairs.length + limit :=
  ⟨by decide +kernel, copyScript_ends _ _ _ _ (Nat.le_add_right _ 1)⟩

end ElementBuild
