/-
# Mapping what was mapped

A pass records the destinations that it gives, and a later pass is told to skip these.  So what
the later pass does depends on what an earlier one has written and is not a destination: a target
with the mark of components.  Such a target is mapped again if a rule applies to it
(`Pass.mapped_again_iff`).

The later pass reads the text anew.  That it finds the targets which the earlier one has left or
written there is what it needs of the reader (`Pass.Rereads`).
-/
import ElementBuild.Proofs.Rewriting
import ElementBuild.Proofs.Search

namespace ElementBuild
namespace Mapping

open Reference (content? retarget renamed renamed_cons_of_some renamed_cons_of_none)
open Text (byteLength)

variable {p : Pass} {folder : Path} {paths : List Path} {code : String} {skip : List String}
  {s t : Session} {m : Mapped} {r : Reference}

namespace Pass

/-- The references that a pass handles. -/
def handled (p : Pass) (code : String) (skip : List String) : List Reference :=
  (referencesOf { types := p.types } code).filter fun r => !skip.contains r.target

/-- What a reference refers to after a pass that handles it. -/
def renewed (p : Pass) (folder : Path) (r : Reference) : String :=
  (p.rename? folder r).getD r.target

/-! ### What one pass gives -/

/-- Each round keeps the draft and the destinations, or adds a destination. -/
theorem gives_mapReference {code : List Char} {state state' : Text.Draft × List String}
    (h : (p.mapReference folder paths code state r).Gives s state' t) :
    (∃ d, p.destination? folder r = some d ∧ content? code r.literal = some r.target.toList ∧
      state.1.edit (retarget code r.literal (p.written r d)) = .ok state'.1 ∧
      state'.2 = d :: state.2) ∨
    ((p.destination? folder r = none ∨ content? code r.literal ≠ some r.target.toList) ∧
      state' = state) := by
  cases ho : p.table.resolve r.target folder p.workingDir p.copyAll with
  | none =>
    unfold mapReference at h
    rw [ho] at h
    obtain ⟨rfl, -⟩ := Step.gives_pure.1 h
    exact .inr ⟨.inl (by rw [destination?, ho, Option.map_none]), rfl⟩
  | some o =>
    rw [mapReference_of_some ho] at h
    obtain ⟨next, u, hwrite, h⟩ := Step.gives_bind.1 h
    obtain ⟨_, _, -, h⟩ := Step.gives_bind.1 h
    obtain ⟨rfl, -⟩ := Step.gives_pure.1 h
    by_cases hcontent : content? code r.literal = some r.target.toList
    · rw [if_pos hcontent] at hwrite
      obtain ⟨draft, v, hedit, hwrite⟩ := Step.gives_bind.1 hwrite
      obtain ⟨rfl, -⟩ := Step.gives_pure.1 hwrite
      exact .inl ⟨o.destination, by rw [destination?, ho, Option.map_some], hcontent,
        (Step.gives_ofExcept.1 hedit).1, rfl⟩
    · rw [if_neg hcontent] at hwrite
      exact .inr ⟨.inr hcontent, (Step.gives_pure.1 hwrite).1⟩

/-- A literal opens with a quote, so no byte order mark comes to stand before a text. -/
theorem not_mark_of_edit {d d' : Text.Draft} {code : List Char} {literal : Script.Span}
    {target : String} (hedit : d.edit (retarget code literal target) = .ok d')
    (h : d.text.head? ≠ some '\ufeff') : d'.text.head? ≠ some '\ufeff' := by
  have hquote : ∀ rest : List Char, (Reference.quoted code literal.start target ++ rest).head? ≠
      some '\ufeff' := by
    intro rest
    unfold Reference.quoted Reference.quoteAt
    split <;> simp
  unfold Text.Draft.edit Text.Splicer.splice at hedit
  split at hedit
  · cases hedit
  dsimp only at hedit
  split at hedit
  · split at hedit
    · rename_i before _ _ _ hbefore _
      cases hedit
      obtain ⟨htext, -⟩ := Text.append_of_splitAt? hbefore
      rw [← htext] at h
      cases before with
      | nil => exact hquote _
      | cons c before => exact h
    · cases hedit
  · cases hedit

/-- A fold adds the destinations, the last one first, and keeps the draft if there are none. -/
theorem gives_foldlM {code : List Char} {rs : List Reference}
    {state state' : Text.Draft × List String}
    (h : (rs.foldlM (p.mapReference folder paths code) state).Gives s state' t) :
    state'.2 = ((renamed code (p.destination? folder) rs).map (·.2)).reverse ++ state.2 ∧
      (renamed code (p.destination? folder) rs = [] → state' = state) ∧
        (state.1.text.head? ≠ some '\ufeff' → state'.1.text.head? ≠ some '\ufeff') := by
  induction rs generalizing state s with
  | nil =>
    obtain ⟨rfl, -⟩ := Step.gives_pure.1 h
    exact ⟨rfl, fun _ => rfl, id⟩
  | cons r rs ih =>
    rw [List.foldlM_cons, Step.gives_bind] at h
    obtain ⟨next, u, hround, hrest⟩ := h
    obtain ⟨hwritten, hkept, hmark⟩ := ih hrest
    rcases gives_mapReference hround with ⟨d, hd, hcontent, hedit, hnext⟩ | ⟨hnone, rfl⟩
    · rw [renamed_cons_of_some hd hcontent, hwritten, hnext, List.map_cons, List.reverse_cons,
        List.append_assoc]
      exact ⟨rfl, nofun, fun h => hmark (not_mark_of_edit hedit h)⟩
    · rw [renamed_cons_of_none hnone]
      exact ⟨hwritten, hkept, hmark⟩

/-- **What a pass gives**: its destinations are those that the rules give the references it
handles.  It leaves the text alone if there are none, and puts no byte order mark before it. -/
theorem gives_run (h : (p.run code folder paths skip).Gives s m t) :
    m.destinations =
        ((renamed code.toList (p.destination? folder) (p.handled code skip)).map (·.2)).reverse ∧
      (renamed code.toList (p.destination? folder) (p.handled code skip) = [] → m.code = code) ∧
        (code.toList.head? ≠ some '\ufeff' → m.code.toList.head? ≠ some '\ufeff') := by
  unfold run at h
  split at h
  · rename_i hempty
    obtain ⟨rfl, -⟩ := Step.gives_pure.1 h
    refine ⟨?_, fun _ => rfl, id⟩
    rw [Reference.renamed_of_none (destination?_of_isEmpty hempty)]
    rfl
  · obtain ⟨_, u, hscan, h⟩ := Step.gives_bind.1 h
    obtain ⟨found, hfound, rfl, -⟩ := Step.gives_scan hscan
    rw [← referencesOf_of_scan hfound] at h
    obtain ⟨state, v, hfold, h⟩ := Step.gives_bind.1 h
    obtain ⟨rfl, -⟩ := Step.gives_pure.1 h
    obtain ⟨hwritten, hkept, hmark⟩ := gives_foldlM hfold
    refine ⟨hwritten.trans (List.append_nil _), fun hnone => ?_, fun h => ?_⟩
    · obtain rfl := hkept hnone
      exact String.ofList_toList
    · rw [Text.Draft.toString, String.toList_ofList]
      exact hmark h

/-- A pass changes nothing if no rule applies to a reference that it handles, and only then. -/
theorem eq_of_gives_iff (h : (p.run code folder paths skip).Gives s m t) :
    m = ⟨code, []⟩ ↔
      renamed code.toList (p.destination? folder) (p.handled code skip) = [] := by
  obtain ⟨hdestinations, hcode, -⟩ := gives_run h
  constructor
  · rintro rfl
    exact List.map_eq_nil_iff.1 (List.reverse_eq_nil_iff.1 hdestinations.symm)
  · intro hnone
    rw [hnone] at hdestinations
    obtain ⟨_, _⟩ := m
    exact congrArg₂ Mapped.mk (hcode hnone) hdestinations

/-- The destination that a rule gives a reference is one of those of the pass. -/
theorem mem_destinations {d : String} (h : (p.run code folder paths skip).Gives s m t)
    (hr : r ∈ p.handled code skip)
    (hcontent : content? code.toList r.literal = some r.target.toList)
    (hd : p.destination? folder r = some d) : d ∈ m.destinations := by
  rw [(gives_run h).1, List.mem_reverse]
  refine List.mem_map.2 ⟨(r, d), List.mem_filterMap.2 ⟨r, hr, ?_⟩, rfl⟩
  rw [if_pos hcontent, hd, Option.map_some]

/-! ### A pass over what a pass has written -/

/-- The text after a pass is read as the text before it with the new targets: its references have
the targets that the pass left or wrote, in this order, but for addresses on the web. -/
def Rereads (p : Pass) (folder : Path) (code after : String) : Prop :=
  (referencesOf { types := p.types } after).map (·.target) =
    ((referencesOf { types := p.types } code).map (p.renewed folder)).filter
      fun target => !Url.isWebAddress target

instance (code after : String) : Decidable (p.Rereads folder code after) :=
  inferInstanceAs (Decidable (_ = _))

theorem Rereads.mem_iff {after target : String} (h : p.Rereads folder code after) :
    (∃ r ∈ referencesOf { types := p.types } after, r.target = target) ↔
      Url.isWebAddress target = false ∧
        ∃ r ∈ referencesOf { types := p.types } code, p.renewed folder r = target := by
  rw [← List.mem_map, show _ = _ from h, List.mem_filter, List.mem_map, Bool.not_eq_true',
    and_comm]

/-- Nothing before the colon of the mark is left out when an address is looked for. -/
theorem exists_relevant_mark (cs : List Char) :
    ∃ rest, Url.relevant (Reference.mark.toList ++ cs) = Reference.mark.toList ++ rest := by
  have hkept : ∀ c ∈ Reference.mark.toList, (c != '\t' && c != '\n' && c != '\r') = true :=
    List.all_eq_true.1 (by decide)
  have htrimmed : ∃ rest, ((Reference.mark.toList ++ cs).reverse.dropWhile (·.toNat ≤ 32)).reverse =
      Reference.mark.toList ++ rest := by
    rw [List.reverse_append, List.dropWhile_append]
    split
    · refine ⟨[], ?_⟩
      rw [show Reference.mark.toList.reverse.dropWhile (fun c => decide (c.toNat ≤ 32)) =
        Reference.mark.toList.reverse by decide, List.reverse_reverse, List.append_nil]
    · exact ⟨_, by rw [List.reverse_append, List.reverse_reverse]⟩
  obtain ⟨rest, hrest⟩ := htrimmed
  refine ⟨rest.filter fun c => c != '\t' && c != '\n' && c != '\r', ?_⟩
  unfold Url.relevant
  dsimp only
  rw [show (Reference.mark.toList ++ cs).dropWhile (fun c => decide (c.toNat ≤ 32)) =
    Reference.mark.toList ++ cs from rfl, hrest, List.filter_append, List.filter_eq_self.2 hkept]

/-- A target with the mark is no address on the web: the mark is another scheme. -/
theorem isWebAddress_mark (target : String) :
    Url.isWebAddress (Reference.mark ++ target) = false := by
  obtain ⟨rest, hrest⟩ := exists_relevant_mark target.toList
  have hscheme : Url.scheme? (Reference.mark.toList ++ rest) = some ("component".toList, rest) := by
    unfold Url.scheme?
    rw [List.span_eq_takeWhile_dropWhile]
    rfl
  unfold Url.isWebAddress
  rw [String.toList_append, hrest, hscheme]
  rfl

/-- The literal of a reference that is written spells its target. -/
theorem content?_of_mem {options : ScanOptions} (hmark : code.toList.head? ≠ some '\ufeff')
    (hr : r ∈ referencesOf options code) :
    content? code.toList r.literal = some r.target.toList := by
  obtain ⟨quote, hquote, hslice⟩ := (Reference.isWritten_of_mem hmark hr).quoted
  have hsize : quote.utf8Size = 1 := by rcases hquote with rfl | rfl <;> rfl
  have hbody : byteLength (quote :: (r.target.toList ++ [quote])) - 1 =
      byteLength [quote] + byteLength r.target.toList := by
    simp only [Text.byteLength_cons, Text.byteLength_append, Text.byteLength_nil, hsize]
    omega
  rw [content?, hslice, Option.bind_some, if_neg (by simp), hbody]
  have hone : 1 = byteLength [quote] := by rw [Text.byteLength_cons, Text.byteLength_nil, hsize]
  have hinner := Text.slice?_append [quote] r.target.toList [quote]
  rwa [← hone] at hinner ⊢

theorem mem_handled_iff :
    r ∈ p.handled code skip ↔ r ∈ referencesOf { types := p.types } code ∧ r.target ∉ skip := by
  rw [handled, List.mem_filter, Bool.not_eq_true', List.contains_eq_mem, decide_eq_false_iff_not]

/-- A pass changes nothing if no rule applies to a target that is not to be skipped. -/
theorem eq_of_gives_iff_forall (hmark : code.toList.head? ≠ some '\ufeff')
    (h : (p.run code folder paths skip).Gives s m t) :
    m = ⟨code, []⟩ ↔ ∀ r ∈ referencesOf { types := p.types } code, r.target ∉ skip →
      p.table.resolve r.target folder p.workingDir p.copyAll = none := by
  rw [eq_of_gives_iff h, renamed, List.filterMap_eq_nil_iff]
  refine ⟨fun hnone r hr hskip => ?_, fun hnone r hr => ?_⟩
  · have hr' := hnone r (mem_handled_iff.2 ⟨hr, hskip⟩)
    rwa [if_pos (content?_of_mem hmark hr), Option.map_eq_none_iff, destination?,
      Option.map_eq_none_iff] at hr'
  · obtain ⟨hr, hskip⟩ := mem_handled_iff.1 hr
    rw [destination?, hnone r hr hskip, Option.map_none, Option.map_none, ite_self]

/-- A pass asks its table for nothing but the targets of the references that it handles. -/
theorem gives_run_congr (table : Table) (hempty : table.isEmpty = p.table.isEmpty)
    (h : ∀ r ∈ p.handled code skip, table.resolve r.target folder p.workingDir p.copyAll =
      p.table.resolve r.target folder p.workingDir p.copyAll)
    (hrun : (p.run code folder paths skip).Gives s m t) :
    (({ p with table } : Pass).run code folder paths skip).Gives s m t := by
  have hfold : ∀ (rs : List Reference) (state : Text.Draft × List String),
      rs ⊆ p.handled code skip →
        rs.foldlM (({ p with table } : Pass).mapReference folder paths code.toList) state =
          rs.foldlM (p.mapReference folder paths code.toList) state := by
    intro rs
    induction rs with
    | nil => exact fun _ _ => rfl
    | cons r rs ih =>
      intro state hrs
      have hround : ({ p with table } : Pass).mapReference folder paths code.toList state r =
          p.mapReference folder paths code.toList state r := by
        unfold mapReference
        rw [h r (hrs List.mem_cons_self)]
        rfl
      rw [List.foldlM_cons, List.foldlM_cons, hround]
      exact bind_congr fun state => ih state fun x hx => hrs (List.mem_cons_of_mem r hx)
  unfold run at hrun ⊢
  rw [hempty]
  split at hrun
  · rwa [if_pos ‹_›]
  · rw [if_neg ‹_›]
    obtain ⟨_, u, hscan, hrun⟩ := Step.gives_bind.1 hrun
    obtain ⟨found, hfound, rfl, -⟩ := Step.gives_scan hscan
    refine Step.gives_bind.2 ⟨_, u, hscan, ?_⟩
    rw [hfold]
    · exact hrun
    · rw [handled, referencesOf_of_scan hfound]
      exact fun _ => id

end Pass

open Pass

/-- **What was mapped is mapped again only if it was marked.**  A later pass changes nothing if no
rule applies to a target that is no destination of the earlier one, and only then.  If it reads
what the earlier one has left or written, that comes down to the targets behind the mark of
components. -/
theorem maps_nothing_again_iff {again : Mapped} {u v : Session}
    (hmark : code.toList.head? ≠ some '\ufeff')
    (hfirst : (p.run code folder paths []).Gives s m t)
    (hagain : (p.run m.code folder paths m.destinations).Gives u again v) :
    (again = ⟨m.code, []⟩ ↔
      ∀ r ∈ referencesOf { types := p.types } m.code, r.target ∉ m.destinations →
        p.table.resolve r.target folder p.workingDir p.copyAll = none) ∧
    (p.Rereads folder code m.code → (again = ⟨m.code, []⟩ ↔
      ∀ r ∈ referencesOf { types := p.types } code, ∀ d, p.destination? folder r = some d →
        r.kind = .component → isTyped p.types d = false → Reference.mark ++ d ∉ m.destinations →
          p.table.resolve (Reference.mark ++ d) folder p.workingDir p.copyAll = none)) := by
  have hagain := eq_of_gives_iff_forall ((gives_run hfirst).2.2 hmark) hagain
  refine ⟨hagain, fun hread => hagain.trans ⟨?_, ?_⟩⟩
  · intro hnone r hr d hd hkind htyped hskip
    have htarget : p.renewed folder r = Reference.mark ++ d := by
      rw [renewed, rename?, hd, Option.map_some, Option.getD_some, written,
        if_pos ⟨hkind, by rw [htyped]; rfl⟩]
    obtain ⟨r', hr', hmarked⟩ := hread.mem_iff.2 ⟨isWebAddress_mark d, r, hr, htarget⟩
    rw [← hmarked] at hskip ⊢
    exact hnone r' hr' hskip
  · intro hnone r' hr' hskip
    obtain ⟨-, r, hr, htarget⟩ := hread.mem_iff.1 ⟨r', hr', rfl⟩
    cases hd : p.destination? folder r with
    | none =>
      -- what the earlier pass has left, no rule applies to
      rw [renewed, rename?, hd, Option.map_none, Option.getD_none] at htarget
      rw [← htarget]
      exact Option.map_eq_none_iff.1 hd
    | some d =>
      have hdestination : d ∈ m.destinations :=
        mem_destinations hfirst (mem_handled_iff.2 ⟨hr, List.not_mem_nil⟩)
          (content?_of_mem hmark hr) hd
      rw [renewed, rename?, hd, Option.map_some, Option.getD_some, written] at htarget
      split at htarget
      · rename_i hmarked
        rw [← htarget] at hskip ⊢
        exact hnone r hr d hd hmarked.1 ((Bool.not_eq_true' _).mp hmarked.2) hskip
      · exact absurd (htarget ▸ hdestination) hskip

/-- A module that names a component and a package. -/
def widgetImports : String := "import 'w/index.svelte'\nimport 'lib'\n"

/-- A pass with a rule for each of them. -/
def widgetPass : Pass :=
  ⟨⟨[(.literal "w/index.svelte", .replace "vendor/w.js"),
    (.literal "lib", .replace "vendor/lib.js")]⟩,
    ⟨"/p"⟩, false, ["svelte"]⟩

/-- What the pass makes of the module. -/
def widgetMapped : Mapped :=
  ⟨"import 'component:vendor/w.js'\nimport 'vendor/lib.js'\n", ["vendor/lib.js", "vendor/w.js"]⟩

theorem run_widgetImports :
    let first : Except Failure Mapped × Session :=
      (widgetPass.run widgetImports ⟨"/p/out"⟩ [] []).run.run { files := {} }
    let again : Except Failure Mapped × Session :=
      (widgetPass.run widgetMapped.code ⟨"/p/out"⟩ [] widgetMapped.destinations).run.run
        { files := {} }
    first.1.toOption = some widgetMapped ∧ again.1.toOption.isSome = true := by
  decide +kernel

theorem resolve_widgetImports : ∀ r ∈ referencesOf { types := widgetPass.types } widgetImports,
    ∀ d ∈ widgetPass.destination? ⟨"/p/out"⟩ r, r.kind = .component →
      isTyped widgetPass.types d = false → Reference.mark ++ d ∉ widgetMapped.destinations →
        widgetPass.table.resolve (Reference.mark ++ d) ⟨"/p/out"⟩ widgetPass.workingDir
          widgetPass.copyAll = none := by
  decide +kernel

theorem maps_nothing_again_of_widget : ∃ again t u,
    (widgetPass.run widgetImports ⟨"/p/out"⟩ [] []).Gives { files := {} } widgetMapped t ∧
      (widgetPass.run widgetMapped.code ⟨"/p/out"⟩ [] widgetMapped.destinations).Gives
        { files := {} } again u ∧ again = ⟨widgetMapped.code, []⟩ := by
  have hmark : widgetImports.toList.head? ≠ some '\ufeff' := by decide
  have hread : widgetPass.Rereads ⟨"/p/out"⟩ widgetImports widgetMapped.code := by decide +kernel
  obtain ⟨hfirst, hagain⟩ := run_widgetImports
  obtain ⟨again, hagain⟩ := Option.isSome_iff_exists.1 hagain
  have hfirst := Step.gives_of_run hfirst
  have hagain := Step.gives_of_run hagain
  exact ⟨again, _, _, hfirst, hagain,
    ((maps_nothing_again_iff hmark hfirst hagain).2 hread).2 resolve_widgetImports⟩

/-! ### A rule for every target -/

/-- Every target is looked for below a folder. -/
def catchAllTable (pattern : Pattern.Program) : Table :=
  ⟨[(.pattern pattern, .replace "lib/$1.js")]⟩

theorem resolve_catchAllTable {pattern : Pattern.Program} {target : String} {found : Pattern.Match}
    (h : pattern.search? target.toList = some found) :
    let mapped := String.ofList (found.before ++
      Pattern.Template.expandFrom (pattern.textOf found) 0 (bracedFrom 0 "lib/$1.js".toList) ++
        found.after)
    (catchAllTable pattern).resolve target ⟨"/p/out"⟩ ⟨"/p"⟩ false =
      some ⟨mapped, relativize ⟨"/p/out"⟩ ⟨"/p"⟩ mapped, none⟩ := by
  obtain ⟨hmatches, hreplace⟩ :=
    Pattern.Program.replace_of_search? (bracedFrom 0 "lib/$1.js".toList) h
  have hrule : (catchAllTable pattern).rule? target =
      some (.pattern pattern, .replace "lib/$1.js") :=
    List.find?_cons_of_pos hmatches
  rw [Table.resolve, hrule, Option.map_some]
  dsimp only
  rw [Key.substitute, hreplace]
  rfl

/-- The table applies to a component, and to what is written in its place. -/
theorem exists_catchAll : ∃ pattern, Key.ofText? "/^(.+)$/" = some (.pattern pattern) ∧
    (catchAllTable pattern).resolve "w/index.svelte" ⟨"/p/out"⟩ ⟨"/p"⟩ false =
      some ⟨"lib/w/index.svelte.js", "lib/w/index.svelte.js", none⟩ ∧
    (catchAllTable pattern).resolve "component:lib/w/index.svelte.js" ⟨"/p/out"⟩ ⟨"/p"⟩ false =
      some ⟨"lib/component:lib/w/index.svelte.js.js", "lib/component:lib/w/index.svelte.js.js",
        none⟩ := by
  have hkey : Key.patternText? "/^(.+)$/" = some "^(.+)$" := by decide +kernel
  have hfound : (Pattern.compile? "^(.+)$").bind (fun pattern =>
      (pattern.search? "w/index.svelte".toList).bind fun found =>
        (pattern.search? "component:lib/w/index.svelte.js".toList).map fun found' =>
          (String.ofList (found.before ++ Pattern.Template.expandFrom (pattern.textOf found) 0
              (bracedFrom 0 "lib/$1.js".toList) ++ found.after),
            String.ofList (found'.before ++ Pattern.Template.expandFrom (pattern.textOf found') 0
              (bracedFrom 0 "lib/$1.js".toList) ++ found'.after))) =
      some ("lib/w/index.svelte.js", "lib/component:lib/w/index.svelte.js.js") := by
    decide +kernel
  obtain ⟨pattern, hpattern, hfound⟩ := Option.bind_eq_some_iff.1 hfound
  obtain ⟨found, hcomponent, hfound⟩ := Option.bind_eq_some_iff.1 hfound
  obtain ⟨found', hmarked, hfound⟩ := Option.map_eq_some_iff.1 hfound
  obtain ⟨hfirst, hagain⟩ := Prod.mk.inj hfound
  refine ⟨pattern, ?_, (resolve_catchAllTable hcomponent).trans ?_,
    (resolve_catchAllTable hmarked).trans ?_⟩
  · rw [Key.ofText?, hkey]
    dsimp only
    rw [hpattern, Option.map_some]
  · rw [hfirst]
    decide
  · rw [hagain]
    decide

/-- A pass in a project with one component type. -/
def componentPass (table : Table) : Pass := ⟨table, ⟨"/p"⟩, false, ["svelte"]⟩

/-- Each of these tables has the one target that a pass comes to. -/
def firstTable : Table := ⟨[(.literal "w/index.svelte", .replace "lib/w/index.svelte.js")]⟩

@[inherit_doc firstTable]
def againTable : Table :=
  ⟨[(.literal "component:lib/w/index.svelte.js",
    .replace "lib/component:lib/w/index.svelte.js.js")]⟩

/-- What the first pass makes of the component. -/
def componentMapped : Mapped :=
  ⟨"import 'component:lib/w/index.svelte.js'\n", ["lib/w/index.svelte.js"]⟩

theorem run_firstTable :
    let run : Except Failure Mapped × Session :=
      ((componentPass firstTable).run "import 'w/index.svelte'\n" ⟨"/p/out"⟩ [] []).run.run
        { files := {} }
    ((componentPass firstTable).handled "import 'w/index.svelte'\n" []).map (·.target) =
      ["w/index.svelte"] ∧ run.1.toOption = some componentMapped := by
  decide +kernel

theorem run_againTable :
    let run : Except Failure Mapped × Session :=
      ((componentPass againTable).run componentMapped.code ⟨"/p/out"⟩ []
        componentMapped.destinations).run.run { files := {} }
    ((componentPass againTable).handled componentMapped.code componentMapped.destinations).map
        (·.target) = ["component:lib/w/index.svelte.js"] ∧
      run.1.toOption = some ⟨"import 'lib/component:lib/w/index.svelte.js.js'\n",
        ["lib/component:lib/w/index.svelte.js.js"]⟩ := by
  decide +kernel

/-- **A rule for every target maps a component twice**: the second pass is told to skip what the
first one has given, and not what it has written. -/
theorem maps_component_again : ∃ pattern t u,
    Key.ofText? "/^(.+)$/" = some (.pattern pattern) ∧
      ((componentPass (catchAllTable pattern)).run "import 'w/index.svelte'\n" ⟨"/p/out"⟩ []
        []).Gives { files := {} } componentMapped t ∧
      ((componentPass (catchAllTable pattern)).run componentMapped.code ⟨"/p/out"⟩ []
        componentMapped.destinations).Gives { files := {} }
          ⟨"import 'lib/component:lib/w/index.svelte.js.js'\n",
            ["lib/component:lib/w/index.svelte.js.js"]⟩ u := by
  obtain ⟨pattern, hkey, hcomponent, hmarked⟩ := exists_catchAll
  obtain ⟨htargets, hfirst⟩ := run_firstTable
  obtain ⟨htargets', hagain⟩ := run_againTable
  have hmapped : ∀ r ∈ (componentPass firstTable).handled "import 'w/index.svelte'\n" [],
      (catchAllTable pattern).resolve r.target ⟨"/p/out"⟩ ⟨"/p"⟩ false =
        firstTable.resolve r.target ⟨"/p/out"⟩ ⟨"/p"⟩ false := by
    intro r hr
    have htarget := List.mem_map_of_mem (f := Reference.target) hr
    rw [htargets, List.mem_singleton] at htarget
    rw [htarget, hcomponent]
    decide
  have hmapped' : ∀ r ∈ (componentPass againTable).handled componentMapped.code
      componentMapped.destinations,
      (catchAllTable pattern).resolve r.target ⟨"/p/out"⟩ ⟨"/p"⟩ false =
        againTable.resolve r.target ⟨"/p/out"⟩ ⟨"/p"⟩ false := by
    intro r hr
    have htarget := List.mem_map_of_mem (f := Reference.target) hr
    rw [htargets', List.mem_singleton] at htarget
    rw [htarget, hmarked]
    decide
  have hfirst := gives_run_congr (catchAllTable pattern) rfl hmapped (Step.gives_of_run hfirst)
  have hagain := gives_run_congr (catchAllTable pattern) rfl hmapped' (Step.gives_of_run hagain)
  exact ⟨pattern, _, _, hkey, hfirst, hagain⟩

end Mapping
end ElementBuild
