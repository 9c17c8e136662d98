/-
# The names that imports of assets bind

The import of an asset gives way to a statement that declares a constant: one of the names that
are bound, the default name or else the first, with the address of the asset between single quotes.
Read again, the statement declares this name with this value if and only if nothing in the address
has to be escaped, and it declares no other name (`ComponentContext.declares_binding_iff`).  So all
names but one are lost.  The target in the address is the text between the quotes of the import.

The ranges of the imports must not overlap, which only calls among the arguments of other calls
do.
-/
import ElementBuild.Proofs.Assets
import ElementBuild.Proofs.Rewriting
import ElementBuild.Proofs.Script.Bindings
import ElementBuild.Proofs.Script.Constants

namespace ElementBuild

open Script (IsIdentifier IsUnescaped)

/-! ### The names of a reference -/

namespace Reference

/-- The names that a reference binds are identifiers, and the default name is one of them; a call
binds none. -/
structure Binds (r : Reference) : Prop where
  identifier : ∀ b ∈ r.bindings, IsIdentifier b.toList
  default_mem : ∀ b ∈ r.defaultBinding, b ∈ r.bindings
  static : r.bindings ≠ [] → r.isDynamic = false

theorem binds_of_make? {options : ScanOptions} {code : List Char} {statement literal : Script.Span}
    {defaultBinding : Option String} {bindings : List String} {isDynamic : Bool} {r : Reference}
    (h : make? options code statement literal defaultBinding bindings isDynamic = some r)
    (hidentifier : ∀ b ∈ bindings, IsIdentifier b.toList)
    (hdefault : ∀ b ∈ defaultBinding, b ∈ bindings) (hstatic : bindings ≠ [] → isDynamic = false) :
    r.Binds := by
  unfold make? at h
  dsimp only at h
  split at h
  · cases h
  · cases h
    exact ⟨hidentifier, hdefault, hstatic⟩

theorem binds_of_ofItem? {types : List String} {code : List Char} {i : Script.Item} {r : Reference}
    (hi : ∀ b ∈ i.bindings, IsIdentifier b.toList) (h : ofItem? { types } code i = some r) :
    r.Binds := by
  unfold ofItem? at h
  split at h
  · rename_i span specifiers source
    refine binds_of_make? h hi (fun b hb => ?_) fun _ => rfl
    obtain ⟨e, he, rfl⟩ := Option.map_eq_some_iff.1 hb
    exact List.mem_map_of_mem (List.mem_of_find?_eq_some he)
  all_goals cases h

theorem binds_of_mem_scan {types : List String} {code : String} {found : Scan}
    (h : scan { types } code = .ok found) {r : Reference} (hr : r ∈ found.references) :
    r.Binds := by
  unfold scan at h
  dsimp only at h
  split at h
  · cases h
  rename_i m hparse
  cases h
  rcases List.mem_append.1 ((perm_sortBy _ _).mem_iff.1 hr) with hr | hr
  · obtain ⟨i, hi, hmade⟩ := List.mem_filterMap.1 hr
    exact binds_of_ofItem? (Script.isIdentifier_of_parse hparse i hi) hmade
  · obtain ⟨call, -, hmade⟩ := List.mem_filterMap.1 hr
    obtain ⟨literal, -, hmade⟩ := Option.bind_eq_some_iff.1 hmade
    exact binds_of_make? hmade nofun nofun fun h => absurd rfl h

/-- The range of a statement that is written in a text fits there. -/
theorem IsWritten.fits {r : Reference} {code : List Char} (h : r.IsWritten code)
    (replacement : List Char) :
    (Text.Edit.mk replacement r.statement.start r.statement.stop).Fits code := by
  obtain ⟨quote, -, hslice⟩ := h.quoted
  have hliteral : r.literal.start ≤ r.literal.stop :=
    (Text.fits_of_slice? (e := ⟨[], r.literal.start, r.literal.stop⟩) hslice).1
  have hend : r.statement.stop ≤ Text.byteLength code := by
    obtain ⟨before, rest, rfl, hstop⟩ := h.stop
    rw [Text.byteLength_append]
    omega
  exact ⟨h.start_le.trans (hliteral.trans h.le_stop), hend, h.start, h.stop⟩

end Reference

namespace Text.Draft

/-- Edits that are left to make are made. -/
theorem Awaits.foldlM {text goal : List Char} {es : List Edit} {d : Draft}
    (h : Awaits text goal es d) : ∃ d', es.foldlM Draft.edit d = .ok d' ∧ d'.text = goal := by
  induction es generalizing d with
  | nil => exact ⟨d, rfl, h.text_eq⟩
  | cons e es ih =>
    obtain ⟨d₁, hedit, hrest⟩ := h.edit
    obtain ⟨d', hd', htext⟩ := ih hrest
    exact ⟨d', by rw [List.foldlM_cons, hedit]; exact hd', htext⟩

end Text.Draft

theorem Step.exists_gives_scan {options : ScanOptions} {code : String} {found : Scan}
    (h : ElementBuild.scan options code = .ok found) (s : Session) :
    ∃ s', (Step.scan options code).Gives s found.references s' := by
  have htell : ∀ (warnings : List String) (s : Session), ∃ s',
      (warnings.forM fun w => Step.tell (.warning w)).Gives s ⟨⟩ s' := by
    intro warnings
    induction warnings with
    | nil => exact fun s => ⟨s, gives_pure.2 ⟨rfl, rfl⟩⟩
    | cons w ws ih =>
      intro s
      obtain ⟨s', hs'⟩ := ih { s with log := s.log ++ [.warning w] }
      exact ⟨s', gives_bind.2 ⟨⟨⟩, _, gives_tell.2 rfl, hs'⟩⟩
  obtain ⟨s', hs'⟩ := htell found.warnings s
  refine ⟨s', gives_bind.2 ⟨found, s, gives_ofExcept.2 ⟨h, rfl⟩, ?_⟩⟩
  exact gives_bind.2 ⟨⟨⟩, s', hs', gives_pure.2 ⟨rfl, rfl⟩⟩

namespace ComponentContext

variable {c : ComponentContext}

/-- The statement for a static import declares the name that is chosen of those it binds. -/
theorem assetStatement_eq {r : Reference} (hstatic : r.isDynamic = false) {name : String}
    (hname : (r.defaultBinding <|> r.bindings.head?) = some name) (address : String) :
    (assetStatement r address).toList = Script.constant name.toList address.toList := by
  unfold assetStatement
  rw [hstatic, if_neg Bool.false_ne_true, hname]
  simp only [String.toList_append, List.append_assoc]
  rfl

/-- A reference that binds names has one that is chosen. -/
theorem exists_chosen {r : Reference} {b : String} (hb : b ∈ r.bindings) :
    ∃ name, (r.defaultBinding <|> r.bindings.head?) = some name := by
  cases hdefault : r.defaultBinding with
  | some name => exact ⟨name, rfl⟩
  | none =>
    obtain ⟨first, others, heq⟩ := List.exists_cons_of_ne_nil (List.ne_nil_of_mem hb)
    exact ⟨first, by rw [heq]; rfl⟩

theorem mem_of_chosen {r : Reference} (h : r.Binds) {name : String}
    (hname : (r.defaultBinding <|> r.bindings.head?) = some name) : name ∈ r.bindings := by
  cases hdefault : r.defaultBinding with
  | some default =>
    rw [hdefault] at hname
    exact h.default_mem _ (hdefault.trans hname)
  | none =>
    rw [hdefault] at hname
    exact List.mem_of_mem_head? hname

/-- What the statement for an import declares. -/
theorem mem_constants_assetStatement_iff {r : Reference} (h : r.Binds) {b : String}
    (hb : b ∈ r.bindings) (address : String) :
    (b, address) ∈ Script.constants (assetStatement r address).toList ↔
      (r.defaultBinding <|> r.bindings.head?) = some b ∧ IsUnescaped address.toList := by
  obtain ⟨name, hname⟩ := exists_chosen hb
  have hidentifier := h.identifier name (mem_of_chosen h hname)
  have hdeclared := Script.mem_constants_iff hidentifier address.toList b
  rw [String.ofList_toList, String.ofList_toList] at hdeclared
  rw [assetStatement_eq (h.static (List.ne_nil_of_mem hb)) hname, hdeclared, hname,
    Option.some_inj]
  exact and_congr_left fun _ => eq_comm

/-- The imports of assets are replaced, all at once, if they do not overlap. -/
theorem exists_gives_inlineAssets (c : ComponentContext) {code : String} {found : Scan}
    (hscan : scan {} code = .ok found) (hmark : code.toList.head? ≠ some '\ufeff')
    (hapart : (found.references.filter (·.kind == .asset)).Pairwise fun r r' =>
      r.statement.stop ≤ r'.statement.start)
    (hlengths : ∀ es, es <+: c.assetEdits found.references →
      Text.byteLength (Text.replaceAll code.toList es) < Text.lengthLimit) (s : Session) :
    ∃ s', (c.inlineAssets code).Gives s (String.ofList
      (Text.replaceAll code.toList (c.assetEdits found.references))) s' := by
  have hfits : ∀ e ∈ c.assetEdits found.references, e.Fits code.toList := by
    intro e he
    obtain ⟨r, hr, rfl⟩ := List.mem_map.1 he
    have hmem := (List.mem_filter.1 hr).1
    rw [← referencesOf_of_scan hscan] at hmem
    exact (Reference.isWritten_of_mem hmark hmem).fits _
  have hawaits := Text.Draft.awaits_start hfits (List.pairwise_map.2 hapart) hlengths
  obtain ⟨draft, hdraft, htext⟩ := hawaits.foldlM
  obtain ⟨s', hs'⟩ := Step.exists_gives_scan hscan s
  refine ⟨s', Step.gives_bind.2 ⟨found.references, s', hs', ?_⟩⟩
  refine Step.gives_bind.2 ⟨draft, s', Step.gives_foldlM_edit.2 ⟨hdraft, rfl⟩, ?_⟩
  exact Step.gives_pure.2 ⟨congrArg String.ofList htext.symm, rfl⟩

/-- **An import of an asset keeps the name that is chosen of those it binds, and loses the
others.**  What stands in its place declares a constant with the address of the asset as its value
for this name only, and only if nothing of the address has to be escaped between single quotes. -/
theorem declares_binding_iff (c : ComponentContext) {code : String} {found : Scan}
    (hscan : scan {} code = .ok found) (hmark : code.toList.head? ≠ some '\ufeff')
    (hapart : (found.references.filter (·.kind == .asset)).Pairwise fun r r' =>
      r.statement.stop ≤ r'.statement.start)
    (hlengths : ∀ es, es <+: c.assetEdits found.references →
      Text.byteLength (Text.replaceAll code.toList es) < Text.lengthLimit) (s : Session) :
    (∃ s', (c.inlineAssets code).Gives s (String.ofList
        (Text.replaceAll code.toList (c.assetEdits found.references))) s') ∧
      ∀ r ∈ found.references, r.kind = .asset →
        let address := c.assetAddress r.target
        let statement := (assetStatement r address).toList
        ⟨statement, r.statement.start, r.statement.stop⟩ ∈ c.assetEdits found.references ∧
          ∀ b ∈ r.bindings, (b, address) ∈ Script.constants statement ↔
            (r.defaultBinding <|> r.bindings.head?) = some b ∧ IsUnescaped address.toList := by
  refine ⟨exists_gives_inlineAssets c hscan hmark hapart hlengths s, fun r hr hkind => ⟨?_, ?_⟩⟩
  · exact List.mem_map_of_mem (List.mem_filter.2 ⟨hr, beq_iff_eq.2 hkind⟩)
  · intro b hb
    exact mem_constants_assetStatement_iff (Reference.binds_of_mem_scan hscan hr) hb _

/-- An import of an icon that binds two names. -/
def iconImport : String := "import a, \x7b b \x7d from './assets/x.svg'"

/-- What is found of the import. -/
def iconReference : Reference where
  target := "./assets/x.svg"
  kind := .asset
  sourceType := some "svg"
  statement := ⟨0, 37⟩
  literal := ⟨21, 37⟩
  defaultBinding := some "a"
  bindings := ["a", "b"]
  isDynamic := false

theorem exists_scan_iconImport :
    ∃ found, scan {} iconImport = .ok found ∧ found.references = [iconReference] := by
  have h : (scan {} iconImport).toOption.map (·.references) = some [iconReference] := by
    decide +kernel
  exact exists_scan h

/-- The default name of the import is declared, the other one is not. -/
theorem declares_binding_of_iconImport :
    let c : ComponentContext := ⟨{}, iconOptions, [], "a_a", ⟨"/o/a_a"⟩⟩
    let address := "https://cdn/a_a/assets/x.svg"
    ∃ found, scan {} iconImport = .ok found ∧ iconReference ∈ found.references ∧
      iconImport.toList.head? ≠ some '\ufeff' ∧
      (found.references.filter (·.kind == .asset)).Pairwise
        (fun r r' => r.statement.stop ≤ r'.statement.start) ∧
      (∀ es, es <+: c.assetEdits found.references →
        Text.byteLength (Text.replaceAll iconImport.toList es) < Text.lengthLimit) ∧
      (∃ s', (c.inlineAssets iconImport).Gives { files := iconTree }
        "const a = 'https://cdn/a_a/assets/x.svg'" s') ∧
      ("a", address) ∈ Script.constants (assetStatement iconReference address).toList ∧
      ("b", address) ∉ Script.constants (assetStatement iconReference address).toList := by
  intro c address
  obtain ⟨found, hfound, hreferences⟩ := exists_scan_iconImport
  have hmark : iconImport.toList.head? ≠ some '\ufeff' := by decide
  have hmem : iconReference ∈ found.references := hreferences ▸ List.mem_singleton_self _
  have hapart : (found.references.filter (·.kind == .asset)).Pairwise
      fun r r' => r.statement.stop ≤ r'.statement.start := by
    rw [hreferences]
    decide
  have hlengths : ∀ es, es <+: c.assetEdits found.references →
      Text.byteLength (Text.replaceAll iconImport.toList es) < Text.lengthLimit := by
    rw [hreferences]
    intro es hes
    exact (by decide : ∀ es ∈ (c.assetEdits [iconReference]).inits,
      Text.byteLength (Text.replaceAll iconImport.toList es) < Text.lengthLimit) es
        ((List.mem_inits _ _).2 hes)
  have haddress : c.assetAddress iconReference.target = address := by decide
  have hunescaped : IsUnescaped address.toList := by decide
  have htext : String.ofList (Text.replaceAll iconImport.toList (c.assetEdits [iconReference])) =
      "const a = 'https://cdn/a_a/assets/x.svg'" := by decide
  obtain ⟨hgives, hdeclared⟩ :=
    declares_binding_iff c hfound hmark hapart hlengths { files := iconTree }
  obtain ⟨-, hiff⟩ := hdeclared iconReference hmem rfl
  rw [haddress] at hiff
  rw [hreferences, htext] at hgives
  refine ⟨found, hfound, hmem, hmark, hapart, hlengths, hgives, ?_, fun h => ?_⟩
  · exact (hiff "a" (.head _)).2 ⟨rfl, hunescaped⟩
  · exact absurd ((hiff "b" (.tail _ (.head _))).1 h).1 (by decide)

/-- An import of an icon whose name has a quote in it. -/
def quoteImport : String := "import a from \"./assets/it's.svg\""

/-- Of two names one is declared, and none is if the address has a quote in it. -/
theorem loses_binding_of_iconImports :
    let c : ComponentContext := ⟨{}, iconOptions, [], "a_a", ⟨"/o/a_a"⟩⟩
    let inlined (code : String) : Except Failure String × Session :=
      (c.inlineAssets code).run.run { files := iconTree }
    let bindings (code : String) : Option (List (List String)) :=
      (scan {} code).toOption.map (·.references.map (·.bindings))
    let constants (code : String) : Option (List (String × String)) :=
      (inlined code).1.toOption.map (Script.constants ·.toList)
    bindings iconImport = some [["a", "b"]] ∧
      constants iconImport = some [("a", "https://cdn/a_a/assets/x.svg")] ∧
      bindings quoteImport = some [["a"]] ∧ constants quoteImport = some [] := by
  decide +kernel

end ComponentContext
end ElementBuild
