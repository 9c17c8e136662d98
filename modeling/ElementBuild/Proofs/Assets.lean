/-
# The addresses of assets

An asset of a component is named in three ways: scripts import it, stylesheets give its
address, and its file is copied below the destination.  What stands in the place of the import
and in the stylesheet once it is rebased is the same address, and without the prefix it is the
place of the copy (`ComponentContext.one_address_of_asset`).
-/
import ElementBuild.Proofs.Copy.Whole
import ElementBuild.Proofs.References
import ElementBuild.Proofs.Style.Address
import Mathlib.Data.List.TakeDrop

namespace ElementBuild

open Path (IsName ofNames)

/-- A name without quotes, parentheses, backslashes and blanks, which stands in an address as
it is. -/
def Path.IsPlainName (x : String) : Prop :=
  IsName x ∧ ∀ ch ∈ x.toList, ch ∉ ['\'', '"', '(', ')', '\\'] ∧ Text.isBlank ch = false

instance (x : String) : Decidable (Path.IsPlainName x) :=
  @instDecidableAnd _ _ inferInstance (List.decidableBAll _ _)

/-! ### Stylesheets -/

namespace Style

/-- The address of a file of the assets folder is taken for one, up to its end. -/
theorem localAddress?_asset {cs : List Char} (hne : cs ≠ []) (hcs : ∀ ch ∈ cs, IsAddressChar ch) :
    localAddress? ("url(".toList ++ ("./".toList ++ ("assets/".toList ++ (cs ++ [')'])))) =
      some (⟨none, "assets/".toList ++ cs⟩, []) := by
  have hpath : IsLocalPath ("assets/".toList ++ cs) :=
    ⟨"assets/", List.mem_cons_self .., cs, hne, hcs, rfl⟩
  refine localAddress?_eq_some_iff.2 ⟨by simp, hpath, [], [], by simp [AreBlank], .inl rfl, ?_⟩
  simp

/-- A stylesheet that is nothing but an address. -/
theorem rebaseFrom_address {folder cs : List Char} {a : LocalAddress}
    (h : localAddress? cs = some (a, [])) : rebaseFrom folder cs.length cs = a.render folder := by
  have hrest : ∀ n, rebaseFrom folder n [] = [] := fun n => by cases n <;> rfl
  cases cs with
  | nil => cases h
  | cons c cs =>
    rw [List.length_cons, rebaseFrom, h]
    dsimp only
    rw [hrest, List.append_nil]

/-- The rebased address of a file of the assets folder. -/
theorem rebase_asset (folder path : String) (hne : path ≠ "")
    (hpath : ∀ ch ∈ path.toList, IsAddressChar ch) :
    rebase folder ("url(./assets/" ++ path ++ ")") =
      "url(" ++ String.ofList (withoutSlashes folder) ++ "/assets/" ++ path ++ ")" := by
  have htext : ("url(./assets/" ++ path ++ ")").toList =
      "url(".toList ++ ("./".toList ++ ("assets/".toList ++ (path.toList ++ [')']))) := by
    rw [String.toList_append, String.toList_append, List.append_assoc]
    rfl
  have haddress := localAddress?_asset (fun hnil => hne (String.toList_inj.1 hnil)) hpath
  rw [← htext] at haddress
  refine String.toList_inj.1 ?_
  unfold rebase
  rw [String.toList_ofList, ← String.length_toList, rebaseFrom_address haddress]
  delta LocalAddress.render
  simp only [Option.toList_none, String.toList_append, String.toList_ofList, List.append_assoc,
    List.nil_append, List.cons_append]
  rfl

/-- A folder that ends in a name has no slashes at its end. -/
theorem withoutSlashes_of_name (start : String) {name : String} (hname : IsName name) :
    withoutSlashes (start ++ name) = (start ++ name).toList := by
  obtain ⟨cs, ch, hcs⟩ := (List.eq_nil_or_concat' name.toList).resolve_left hname.text_ne_empty
  have hslash : ch ≠ '/' := by
    rintro rfl
    exact hname.2 (hcs ▸ List.mem_append_right cs (List.mem_singleton_self _))
  rw [withoutSlashes, String.toList_append, hcs, ← List.append_assoc, List.reverse_append]
  rw [List.reverse_singleton, List.singleton_append, List.dropWhile_cons_of_neg (by simpa using hslash)]
  simp

end Style

/-! ### Public addresses -/

namespace BuildOptions

/-- What stands before the place of a file in its public address: the prefix and a slash. -/
def publicStart (o : BuildOptions) : String :=
  o.publicPrefix.elim "" fun address => trimSlashes address ++ "/"

theorem publicPath_eq (o : BuildOptions) (component : String) :
    o.publicPath component = o.publicStart ++ component := by
  unfold publicPath publicStart
  cases o.publicPrefix with
  | none => exact String.empty_append.symm
  | some address => rfl

end BuildOptions

/-! ### Imports -/

namespace Step

/-- A fold that makes an edit in each round makes these edits. -/
theorem gives_foldlM_edit {α : Type} {f : α → Text.Edit} {xs : List α} {d d' : Text.Draft}
    {s s' : Session} : (xs.foldlM (fun d x => Step.edit d (f x)) d).Gives s d' s' ↔
      (xs.map f).foldlM Text.Draft.edit d = .ok d' ∧ s' = s := by
  induction xs generalizing d with
  | nil =>
    rw [List.map_nil, List.foldlM_nil, List.foldlM_nil, gives_pure]
    exact and_congr_left fun _ => ⟨fun h => h ▸ rfl, fun h => (Except.ok.inj h).symm⟩
  | cons x xs ih =>
    rw [List.map_cons, List.foldlM_cons, List.foldlM_cons, gives_bind]
    cases hedit : d.edit (f x) with
    | error e =>
      refine ⟨?_, fun h => by cases h.1⟩
      rintro ⟨d₁, s₁, hround, -⟩
      cases hedit.symm.trans (gives_edit.1 hround).1
    | ok d₁ =>
      refine ⟨?_, fun h => ⟨d₁, s, gives_edit.2 ⟨hedit, rfl⟩, ih.2 h⟩⟩
      rintro ⟨d₂, s₁, hround, hrest⟩
      obtain ⟨hmade, rfl⟩ := gives_edit.1 hround
      cases hedit.symm.trans hmade
      exact ih.1 hrest

end Step

/-- A path below the assets folder is one of an asset. -/
theorem Target.kind_asset {path : List Char} (hne : path ≠ []) (hline : '\n' ∉ path) {target : String}
    (htarget : target.toList = "./assets/".toList ++ path) : kind [] target = .asset := by
  obtain ⟨c, cs, rfl⟩ := List.exists_cons_of_ne_nil hne
  have hasset : isAsset target = true := by
    unfold isAsset
    rw [htarget, List.isPrefixOf?_eq_some_iff_append_eq.2 rfl]
    exact bne_iff_ne.2 fun heq => hline (heq ▸ List.mem_cons_self)
  unfold kind
  rw [if_neg (by simp), if_pos hasset]

namespace ComponentContext

theorem withoutDot_append (rest : String) : withoutDot ("./" ++ rest) = rest := by
  unfold withoutDot
  rw [String.toList_append, List.isPrefixOf?_eq_some_iff_append_eq.2 rfl]
  exact String.ofList_toList

/-- The edits that put constants in the place of the imports of assets. -/
def assetEdits (c : ComponentContext) (references : List Reference) : List Text.Edit :=
  (references.filter (·.kind == .asset)).map fun r =>
    ⟨(assetStatement r (c.assetAddress r.target)).toList, r.statement.start, r.statement.stop⟩

/-- Putting constants in the place of the imports of assets is making these edits. -/
theorem gives_inlineAssets {c : ComponentContext} {code text : String} {s s' : Session}
    (h : (c.inlineAssets code).Gives s text s') : ∃ found draft, scan {} code = .ok found ∧
      (c.assetEdits found.references).foldlM Text.Draft.edit (.ofString code) = .ok draft ∧
        text = draft.toString := by
  unfold inlineAssets at h
  simp only [Step.gives_bind, Step.gives_pure] at h
  obtain ⟨references, t, hscan, draft, _, hfold, rfl, rfl⟩ := h
  obtain ⟨found, hfound, rfl, -⟩ := Step.gives_scan hscan
  exact ⟨found, draft, hfound, (Step.gives_foldlM_edit.1 hfold).1, rfl⟩

/-! ### One address -/

/-- A character of a path along plain names is a slash, or stands in one of them. -/
theorem mem_path {xs : List String} {ch : Char} (h : ch ∈ ("/".intercalate xs).toList) :
    ch = '/' ∨ ∃ x ∈ xs, ch ∈ x.toList := by
  rw [Path.toList_intercalate_slash] at h
  rcases FileTree.mem_joinPieces h with rfl | ⟨cs, hcs, hch⟩
  · exact .inl rfl
  · obtain ⟨x, hx, rfl⟩ := List.mem_map.1 hcs
    exact .inr ⟨x, hx, hch⟩

/-- The place of an asset below the destination: the folder of the component, the assets
folder in it, and the path of the asset. -/
theorem join_place (destination : Path) {name : String} (hname : IsName name) {xs : List String}
    (hxs : ∀ x ∈ xs, IsName x) :
    ((destination.join ⟨name⟩).join ⟨"assets"⟩).join (ofNames xs) =
      destination.join ⟨name ++ "/assets/" ++ "/".intercalate xs⟩ := by
  have hassets : IsName "assets" := by decide
  have hinner : (Path.mk (name ++ "/" ++ "assets")).IsOpen := by
    have htext := Path.text_ofNames_append (List.cons_ne_nil name []) (List.cons_ne_nil "assets" [])
    rw [Path.ofNames_singleton, Path.ofNames_singleton] at htext
    rw [← htext]
    exact Path.isOpen_ofNames (List.forall_mem_cons.2 ⟨hname, List.forall_mem_singleton.2 hassets⟩)
      (List.cons_ne_nil name ["assets"])
  rw [hname.isOpen.join_join destination hassets.isAbsolute,
    hinner.join_join destination (Path.isAbsolute_ofNames hxs)]
  refine congrArg (destination.join ⟨·⟩) ?_
  change name ++ "/" ++ "assets" ++ "/" ++ _ = name ++ ("/" ++ "assets" ++ "/") ++ _
  simp only [String.append_assoc]
  rfl

/-- **There is one address for an asset.**  It stands in the place of each import of the asset,
and in a stylesheet that gives its address; without the prefix and the slash behind it, it is
the place below the destination where the file is copied to. -/
theorem one_address_of_asset (b : Bundler) (options : BuildOptions) (paths : List Path)
    {name : String} (hname : options.source.fileName? = some name) {xs : List String} (hne : xs ≠ [])
    (hxs : ∀ x ∈ xs, Path.IsPlainName x) :
    let c : ComponentContext := ⟨b, options, paths, name, options.destination.join ⟨name⟩⟩
    let path := "/".intercalate xs
    let place := name ++ "/assets/" ++ path
    let address := options.publicStart ++ place
    (∀ code s text s', (c.inlineAssets code).Gives s text s' → ∃ found draft,
      scan {} code = .ok found ∧
        (c.assetEdits found.references).foldlM Text.Draft.edit (.ofString code) = .ok draft ∧
          text = draft.toString ∧ ∀ r ∈ found.references, r.target = "./assets/" ++ path →
            ⟨(assetStatement r address).toList, r.statement.start, r.statement.stop⟩ ∈
              c.assetEdits found.references) ∧
      Style.rebase (options.publicPath name) ("url(./assets/" ++ path ++ ")") =
        "url(" ++ address ++ ")" ∧
      ∀ s n s', s.files.WellFormed →
        s.files.isFile (options.source.join ⟨"assets/" ++ path⟩) = true →
          (FolderCopy.run ⟨options.source.join ⟨"assets"⟩, c.output.join ⟨"assets"⟩, none⟩).Gives
            s n s' →
              ⟨options.source.join ⟨"assets/" ++ path⟩, options.destination.join ⟨place⟩⟩ ∈
                  s'.deliveries ∧
                s'.files.isFile (options.destination.join ⟨place⟩) = true := by
  intro c path place address
  have hnames : ∀ x ∈ xs, IsName x := fun x hx => (hxs x hx).1
  obtain ⟨hopen, -⟩ := Path.segments_of_fileName? hname
  have hpath : (ofNames xs).IsOpen := Path.isOpen_ofNames hnames hne
  have hplain : ∀ ch ∈ path.toList, ch ∉ ['\'', '"', '(', ')', '\\'] ∧ Text.isBlank ch = false := by
    intro ch hch
    rcases mem_path hch with rfl | ⟨x, hx, hch⟩
    · decide
    · exact (hxs x hx).2 ch hch
  have hpublic : options.publicPath name ++ "/" ++ ("assets/" ++ path) = address := by
    rw [BuildOptions.publicPath_eq]
    change _ = options.publicStart ++ (name ++ ("/" ++ "assets/") ++ path)
    simp only [String.append_assoc]
  have htarget : "./assets/" ++ path = "./" ++ ("assets/" ++ path) := by
    rw [← String.append_assoc]
    rfl
  have hassets : IsName "assets" := by decide
  have hsource : (options.source.join ⟨"assets"⟩).join (ofNames xs) =
      options.source.join ⟨"assets/" ++ path⟩ :=
    hassets.isOpen.join_join options.source hpath.relative
  refine ⟨fun code s text s' h => ?_, ?_, fun s n s' hwf hfile h => ?_⟩
  · obtain ⟨found, draft, hfound, hdraft, htext⟩ := gives_inlineAssets h
    refine ⟨found, draft, hfound, hdraft, htext, fun r hr hr' => ?_⟩
    have hkind : r.kind = .asset := by
      rw [(isTyped_of_mem_scan hfound hr).kind, hr']
      have htext : ("./assets/" ++ path).toList = "./assets/".toList ++ path.toList :=
        String.toList_append ..
      refine Target.kind_asset hpath.toList_ne_nil (fun hline => ?_) htext
      exact absurd (hplain _ hline).2 (by decide)
    have haddress : c.assetAddress r.target = address := by
      rw [assetAddress, hr', htarget, withoutDot_append]
      exact hpublic
    refine List.mem_map.2 ⟨r, List.mem_filter.2 ⟨hr, beq_iff_eq.2 hkind⟩, ?_⟩
    rw [haddress]
  · have haddress : ∀ ch ∈ path.toList, Style.IsAddressChar ch := by
      intro ch hch
      have hnone := (hplain ch hch).1
      simp only [List.mem_cons, not_or] at hnone
      refine ⟨?_, hnone.2.2.2.1⟩
      rw [Style.isQuote, Bool.or_eq_false_iff, beq_eq_false_iff_ne, beq_eq_false_iff_ne]
      exact ⟨hnone.1, hnone.2.1⟩
    rw [Style.rebase_asset _ path hpath.nonempty haddress, BuildOptions.publicPath_eq,
      Style.withoutSlashes_of_name _ hopen, String.ofList_toList]
    simp only [address, place, String.append_assoc]
  · have hcopy := FolderCopy.hasCopy_run rfl (hassets.isOpen.join options.source).1 hnames hne hwf
      (hsource ▸ hfile) h
    unfold FolderCopy.HasCopy at hcopy
    dsimp only [c] at hcopy
    rwa [hsource, join_place options.destination hopen hnames] at hcopy

/-- A component with an icon among its assets. -/
def iconTree : FileTree where
  entries := [
    (["a_a"], .folder),
    (["a_a", "assets"], .folder),
    (["a_a", "assets", "icons"], .folder),
    (["a_a", "assets", "icons", "x.svg"], .file (.text "<svg/>"))]

/-- The component is served with a prefix that ends in slashes. -/
def iconOptions : BuildOptions where
  source := ⟨"/a_a"⟩
  destination := ⟨"/o"⟩
  publicPrefix := some "https://cdn//"

set_option maxRecDepth 100000 in
theorem iconTree_run :
    let c : ComponentContext := ⟨{}, iconOptions, [], "a_a", ⟨"/o/a_a"⟩⟩
    let copied : Except Failure Nat × Session :=
      (FolderCopy.run ⟨⟨"/a_a/assets"⟩, ⟨"/o/a_a/assets"⟩, none⟩).run.run { files := iconTree }
    let inlined : Except Failure String × Session :=
      (c.inlineAssets "import x from './assets/icons/x.svg'").run.run { files := iconTree }
    copied.1.toOption = some 1 ∧ iconTree.WellFormed ∧
      iconTree.isFile ⟨"/a_a/assets/icons/x.svg"⟩ = true ∧
      inlined.1.toOption = some "const x = 'https://cdn/a_a/assets/icons/x.svg'" := by
  decide +kernel

/-- The icon has one address, and its copy stands at the place that is left of it. -/
theorem one_address_of_icon :
    iconOptions.source.fileName? = some "a_a" ∧
      (∀ x ∈ ["icons", "x.svg"], Path.IsPlainName x) ∧
      Style.rebase "https://cdn/a_a" "url(./assets/icons/x.svg)" =
        "url(https://cdn/a_a/assets/icons/x.svg)" ∧
      (∃ s', (ComponentContext.inlineAssets ⟨{}, iconOptions, [], "a_a", ⟨"/o/a_a"⟩⟩
          "import x from './assets/icons/x.svg'").Gives { files := iconTree }
            "const x = 'https://cdn/a_a/assets/icons/x.svg'" s') ∧
      ∃ n s', (FolderCopy.run ⟨⟨"/a_a/assets"⟩, ⟨"/o/a_a/assets"⟩, none⟩).Gives
          { files := iconTree } n s' ∧
        s'.files.isFile ⟨"/o/a_a/assets/icons/x.svg"⟩ = true := by
  have hname : iconOptions.source.fileName? = some "a_a" := by decide
  have hxs : ∀ x ∈ ["icons", "x.svg"], Path.IsPlainName x := by decide
  obtain ⟨hcopied, hwf, hfile, hinlined⟩ := iconTree_run
  obtain ⟨-, hrebase, hcopy⟩ :=
    one_address_of_asset {} iconOptions [] hname (List.cons_ne_nil "icons" ["x.svg"]) hxs
  have hrun := Step.gives_of_run hcopied
  exact ⟨hname, hxs, hrebase, ⟨_, Step.gives_of_run hinlined⟩, _, _, hrun,
    (hcopy _ _ _ hwf hfile hrun).2⟩

end ComponentContext
end ElementBuild
