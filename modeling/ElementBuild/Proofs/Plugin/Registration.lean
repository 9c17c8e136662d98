/-
# The name that is registered

The plugin for plain scripts does not read the module.  It registers the word behind the first text
that looks like a default export, wherever that stands (`firstMatch?`).  Where an item of the module
starts there, that word is the name which the item exports, unless it opens a class or a function
without being followed by a name that was recognised (`registers_exported_name`).  A comment, or a
class without a name, shows that no less will do.
-/
import ElementBuild.Proofs.Build.Course
import ElementBuild.Proofs.Ranges
import ElementBuild.Proofs.Script.Exports

namespace ElementBuild
namespace Plugin.Ecmascript

open Script (isGapBlank placedItems withoutMark)

/-! ### What is matched -/

/-- What stands before the first default export of a text, and the name in it. -/
def firstMatchFrom? : Option Char → List Char → Option (List Char × List Char)
  | _, [] => none
  | before, c :: cs =>
    match if before.all Text.isBlank then exportedName? (c :: cs) else none with
    | some name => some ([], name)
    | none => (firstMatchFrom? (some c) cs).map fun (skipped, name) => (c :: skipped, name)

/-- What stands before the first default export of a text, and the name in it. -/
def firstMatch? (code : String) : Option (List Char × List Char) :=
  firstMatchFrom? none code.toList

theorem defaultExportFrom?_eq (before : Option Char) (cs : List Char) :
    defaultExportFrom? before cs = (firstMatchFrom? before cs).map Prod.snd := by
  induction cs generalizing before with
  | nil => rfl
  | cons c cs ih =>
    unfold defaultExportFrom? firstMatchFrom?
    dsimp only
    rw [ih]
    cases (if before.all Text.isBlank then exportedName? (c :: cs) else none) with
    | some name => rfl
    | none =>
      dsimp only
      rw [Option.map_map]
      rfl

theorem exists_match {code name : String} (h : defaultExport? code = some name) :
    ∃ before w, firstMatch? code = some (before, w) ∧ name = String.ofList w := by
  unfold defaultExport? at h
  rw [defaultExportFrom?_eq] at h
  obtain ⟨w, hw, rfl⟩ := Option.map_eq_some_iff.1 h
  obtain ⟨⟨before, w⟩, hmatch, rfl⟩ := Option.map_eq_some_iff.1 hw
  exact ⟨before, w, hmatch, rfl⟩

theorem append_of_firstMatchFrom? {last : Option Char} {cs before w : List Char}
    (h : firstMatchFrom? last cs = some (before, w)) :
    ∃ rest, cs = before ++ rest ∧ exportedName? rest = some w := by
  induction cs generalizing last before with
  | nil => cases h
  | cons c cs ih =>
    unfold firstMatchFrom? at h
    split at h
    · rename_i name hname
      cases h
      split at hname
      · exact ⟨c :: cs, rfl, hname⟩
      · cases hname
    · obtain ⟨⟨skipped, name⟩, hrest, hpair⟩ := Option.map_eq_some_iff.1 h
      cases hpair
      obtain ⟨rest, rfl, hname⟩ := ih hrest
      exact ⟨rest, rfl, hname⟩

/-- At least one blank. -/
def IsSpace (blanks : List Char) : Prop := blanks ≠ [] ∧ ∀ c ∈ blanks, isGapBlank c = true

theorem IsSpace.head {blanks : List Char} (h : IsSpace blanks) (rest : List Char) :
    ∀ c ∈ (blanks ++ rest).head?, isGapBlank c = true := by
  obtain ⟨c, blanks, rfl⟩ := List.exists_cons_of_ne_nil h.1
  rintro _ ⟨⟩
  exact h.2 c List.mem_cons_self

theorem isGapBlank_of_isBlank {c : Char} (h : Text.isBlank c = true) : isGapBlank c = true :=
  Bool.or_eq_true_iff.2 (.inr h)

theorem blanks?_eq_some {cs rest : List Char} (h : blanks? cs = some rest) :
    ∃ blanks, IsSpace blanks ∧ cs = blanks ++ rest := by
  cases cs with
  | nil => cases h
  | cons c cs =>
    rw [blanks?] at h
    obtain ⟨hc, hrest⟩ := Option.ite_none_right_eq_some.1 h
    cases hrest
    refine ⟨c :: cs.takeWhile Text.isBlank, ⟨List.cons_ne_nil _ _, fun d hd => ?_⟩, ?_⟩
    · rcases List.mem_cons.1 hd with rfl | hd
      · exact isGapBlank_of_isBlank hc
      · exact isGapBlank_of_isBlank (List.all_eq_true.1 List.all_takeWhile d hd)
    · rw [List.cons_append, List.takeWhile_append_dropWhile]

/-- A keyword and blanks. -/
theorem behind_keyword {keyword cs rest : List Char}
    (h : (keyword.isPrefixOf? cs).bind blanks? = some rest) :
    ∃ blanks, IsSpace blanks ∧ cs = keyword ++ (blanks ++ rest) := by
  obtain ⟨cs', hkeyword, hblanks⟩ := Option.bind_eq_some_iff.1 h
  obtain ⟨blanks, hspace, rfl⟩ := blanks?_eq_some hblanks
  exact ⟨blanks, hspace, (List.isPrefixOf?_eq_some_iff_append_eq.1 hkeyword).symm⟩

theorem wholeWord?_eq_some {cs w : List Char} (h : wholeWord? cs = some w) :
    ∃ rest, cs = w ++ rest ∧ w ≠ [] ∧ ∀ c ∈ rest.head?, isGapBlank c = true := by
  unfold wholeWord? at h
  have happend := congrArg (fun p : List Char × List Char => p.1 ++ p.2)
    (List.span_eq_takeWhile_dropWhile (p := Text.isWordChar) (l := cs))
  dsimp only at happend
  rw [List.takeWhile_append_dropWhile] at happend
  split at h
  · cases h
  · rename_i word hne hspan
    cases h
    rw [hspan] at happend
    exact ⟨[], happend.symm, hne, nofun⟩
  · rename_i word c rest hne hspan
    obtain ⟨hc, hword⟩ := Option.ite_none_right_eq_some.1 h
    cases hword
    rw [hspan] at happend
    refine ⟨c :: rest, happend.symm, hne, ?_⟩
    rintro _ ⟨⟩
    exact isGapBlank_of_isBlank hc

theorem exportedName?_eq_some {cs w : List Char} (h : exportedName? cs = some w) :
    ∃ blanks blanks' rest, IsSpace blanks ∧ IsSpace blanks' ∧
      cs = "export".toList ++ (blanks ++ ("default".toList ++ (blanks' ++ rest))) ∧
      (className? rest = some w ∨ wholeWord? rest = some w) := by
  unfold exportedName? at h
  obtain ⟨cs₁, hexport, hrest⟩ := Option.bind_eq_some_iff.1 h
  obtain ⟨rest, hdefault, hname⟩ := Option.bind_eq_some_iff.1 hrest
  obtain ⟨blanks, hblanks, rfl⟩ := behind_keyword hexport
  obtain ⟨blanks', hblanks', rfl⟩ := behind_keyword hdefault
  refine ⟨blanks, blanks', rest, hblanks, hblanks', rfl, ?_⟩
  cases hclass : className? rest with
  | some name =>
    rw [hclass] at hname
    exact .inl hname
  | none =>
    rw [hclass] at hname
    exact .inr hname

theorem className?_eq_some {cs w : List Char} (h : className? cs = some w) :
    ∃ blanks rest, IsSpace blanks ∧ cs = "class".toList ++ (blanks ++ rest) ∧
      wholeWord? rest = some w := by
  obtain ⟨rest, hclass, hname⟩ := Option.bind_eq_some_iff.1 h
  obtain ⟨blanks, hblanks, rfl⟩ := behind_keyword hclass
  exact ⟨blanks, rest, hblanks, rfl, hname⟩

/-! ### What is registered -/

/-- The words that open what is exported as default. -/
def openingWords : List String := ["class", "function", "async"]

/-- What is matched behind `default` is what is exported there. -/
theorem eq_of_exports {blanks rest w : List Char} (hblanks : IsSpace blanks)
    (hrest : className? rest = some w ∨ wholeWord? rest = some w)
    (hpart : ∀ c ∈ w, Text.isIdentifierPart c = true) {t : Script.State} {pos : Nat}
    (ht : t.current = Script.lexeme (blanks ++ rest) pos) {n : String} (h : t.Exports n)
    (hreserved : Script.reservedWords.contains n = false)
    (hopening : String.ofList w ∉ openingWords) : n = String.ofList w := by
  rcases hrest with hclass | hword
  · obtain ⟨blanks', rest', hblanks', rfl, hname⟩ := className?_eq_some hclass
    obtain ⟨tail, rfl, hne, htail⟩ := wholeWord?_eq_some hname
    obtain ⟨hkeyword, hbehind, -⟩ := Script.spells_lexeme (w := "class".toList) hblanks.2
      (by decide) (hblanks'.head (w ++ tail)) pos
    rw [← ht] at hkeyword hbehind
    rcases h with h | ⟨-, h⟩ | h | h
    · obtain rfl := Script.Token.word.inj (hkeyword.symm.trans h)
      exact absurd hreserved (by decide)
    · change (Script.lexeme t.current.rest t.current.stop).token = .word n at h
      rw [hbehind] at h
      exact Script.word_eq_of_token hblanks'.2 hpart hne htail h
    · exact absurd (hkeyword.symm.trans h) (by decide)
    · exact absurd (hkeyword.symm.trans h) (by decide)
  · obtain ⟨tail, rfl, hne, htail⟩ := wholeWord?_eq_some hword
    have hread : ∀ {v}, t.current.token = .word v → v = String.ofList w := fun hv =>
      Script.word_eq_of_token hblanks.2 hpart hne htail (ht ▸ hv)
    rcases h with h | ⟨h, -⟩ | h | h
    · exact hread h
    · exact absurd (hread h ▸ by decide) hopening
    · exact absurd (hread h ▸ by decide) hopening
    · exact absurd (hread h ▸ by decide) hopening

theorem withoutMark_append {before rest : List Char} (hrest : rest.head? ≠ some '\ufeff') :
    withoutMark (before ++ rest) = withoutMark before ++ rest := by
  cases before with
  | nil => exact withoutMark_eq hrest
  | cons c before =>
    by_cases hc : c = '\ufeff'
    · rw [hc]
      rfl
    · have hmark : some c ≠ some '\ufeff' := fun h => hc (Option.some.inj h)
      have hbefore : withoutMark (c :: before) = c :: before := withoutMark_eq hmark
      rw [hbefore]
      exact withoutMark_eq hmark

/-- **The name that is registered is that of the default export**, if one starts where it is
matched: if it names what it exports, this is no reserved word, and it is the name that the element
is defined with, unless the words at the match open a class or a function. -/
theorem registers_exported_name {r : CompileRequest} {out : CompileOutput} {s s' : Session}
    (h : (ecmascript.compile r).Gives s out s') {options : ScanOptions} {found : Scan}
    (hscan : scan options r.code = .ok found) :
    ∃ folder script before w m, (r.preprocessScript r.code).Gives s script s' ∧
      r.elementFolder = .ok folder ∧ firstMatch? r.code = some (before, w) ∧
      out.code = script ++ "\n\n" ++ definition (Element.tag folder) (String.ofList w) ∧
      Script.parse r.code.toList = .ok m ∧ m.items = (placedItems r.code.toList).map Prod.snd ∧
      ∀ l i, (l, i) ∈ placedItems r.code.toList → l.token = .word "export" →
        l.start = Text.byteLength (withoutMark before) → l.stop = l.start + 6 →
        ∃ name calls, i = .exportDefault name calls ∧ ∀ n, name = some n →
          Script.reservedWords.contains n = false ∧
          ((∀ c ∈ w, Text.isIdentifierPart c = true) → String.ofList w ∉ openingWords →
            n = String.ofList w) := by
  obtain ⟨element, folder, script, -, hexport, -, hfolder, -, -, hscript, code, rfl, rfl⟩ :=
    gives_ecmascript.1 h
  obtain ⟨before, w, hmatch, rfl⟩ := exists_match hexport
  obtain ⟨rest, hcode, hname⟩ := append_of_firstMatchFrom? hmatch
  obtain ⟨blanks, blanks', behind, hblanks, hblanks', rfl, hbehind⟩ := exportedName?_eq_some hname
  have hparse : ∃ m, Script.parse r.code.toList = .ok m := by
    unfold scan at hscan
    dsimp only at hscan
    split at hscan
    · cases hscan
    · rename_i m hm
      exact ⟨m, hm⟩
  obtain ⟨m, hm⟩ := hparse
  refine ⟨folder, script, before, w, m, hscript, hfolder, hmatch, rfl, hm,
    Script.items_of_parse hm, fun l i hi hword hstart hstop => ?_⟩
  have htext := (congrArg withoutMark hcode).trans (withoutMark_append (by
    exact fun hmark => absurd (Option.some.inj hmark) (by decide)))
  obtain ⟨name, calls, hitem, hexports⟩ := Script.exports_of_placed hm hi htext hblanks.2
    (hblanks'.head behind) hword hstart hstop
  refine ⟨name, calls, hitem, fun n hn => ?_⟩
  obtain ⟨hreserved, t, ⟨pos, ht⟩, hexported⟩ := hexports n hn
  exact ⟨hreserved, fun hpart hopening =>
    eq_of_exports hblanks' hbehind hpart ht hexported hreserved hopening⟩

/-- A component with this source, to be compiled. -/
def registration (code : String) : CompileRequest where
  code
  filename := ⟨"/a_a/index.esm"⟩
  sourcemap := .whole false
  preprocessScript := pure
  preprocessStyle := none

def registrationSession : Session where
  files := { entries := [(["a_a"], .folder), (["a_a", "index.esm"], .file (.text ""))] }

/-- The code of the module that a source is compiled to. -/
def moduleOf? (code : String) : Option String :=
  let run : Except Failure CompileOutput × Session :=
    (ecmascript.compile (registration code)).run.run registrationSession
  run.1.toOption.map (·.code)

/-- The name that an item exports as default. -/
def defaultName? : Script.Item → Option String
  | .exportDefault name _ => name
  | _ => none

def namedExport : String := "export default class A extends HTMLElement {}\n"

theorem namedExport_placed : (placedItems namedExport.toList).map
    (fun p => (p.1.token, p.1.start, p.1.stop, defaultName? p.2)) =
      [(.word "export", 0, 6, some "A")] := by
  decide +kernel

theorem exists_scan_namedExport : ∃ found, scan {} namedExport = .ok found := by
  have haccepted : (scan {} namedExport).toOption.map (fun _ => ()) = some () := by decide +kernel
  obtain ⟨found, hscan, -⟩ := exists_scan haccepted
  exact ⟨found, hscan⟩

/-- The class is named where the export is matched. -/
theorem registers_exported_name_of_namedExport : ∃ out s' found,
    (ecmascript.compile (registration namedExport)).Gives registrationSession out s' ∧
      scan {} namedExport = .ok found ∧
      out.code = namedExport ++ "\n\n" ++ definition "a-a" "A" ∧
      ∃ l i, (l, i) ∈ placedItems namedExport.toList ∧ l.token = .word "export" ∧ l.start = 0 ∧
        l.stop = 6 ∧ ∃ calls, i = .exportDefault (some "A") calls ∧
          Script.reservedWords.contains "A" = false ∧ "A" = String.ofList ['A'] := by
  have hrun : (ecmascript.compile (registration namedExport)).Gives registrationSession
      ⟨namedExport ++ "\n\n" ++ definition "a-a" "A", none⟩ _ :=
    Step.gives_of_run (by decide +kernel)
  obtain ⟨found, hscan⟩ := exists_scan_namedExport
  obtain ⟨folder, script, before, w, m, -, -, hmatch, -, -, -, hitems⟩ :=
    registers_exported_name hrun hscan
  obtain ⟨rfl, rfl⟩ : before = [] ∧ w = ['A'] :=
    Prod.mk.inj (Option.some.inj (hmatch.symm.trans (by decide +kernel)))
  obtain ⟨⟨l, i⟩, hplaced, hp⟩ := List.map_eq_singleton_iff.1 namedExport_placed
  simp only [Prod.mk.injEq] at hp
  obtain ⟨htoken, hstart, hstop, hname⟩ := hp
  have hi : (l, i) ∈ placedItems namedExport.toList := hplaced ▸ List.mem_singleton_self _
  obtain ⟨name, calls, rfl, hnamed⟩ := hitems l i hi htoken hstart (hstop.trans (by rw [hstart]))
  obtain rfl : name = some "A" := hname
  obtain ⟨hreserved, heq⟩ := hnamed "A" rfl
  exact ⟨_, _, found, hrun, hscan, rfl, l, _, hi, htoken, hstart, hstop, calls, rfl, hreserved,
    heq (List.forall_mem_singleton.2 (by decide)) (by decide)⟩

/-- A default export is commented out before another one. -/
def commentedExport : String :=
  "// export default Other \nexport default class Best extends HTMLElement {}\n"

/-- A class without a name. -/
def unnamedExport : String := "export default class extends HTMLElement {}\n"

/-- **The registered name need not be that of the default export**: it may stand in a comment, and
it may be a reserved word. -/
theorem registers_other_of_commentedExport :
    ((scan {} commentedExport).toOption.isSome = true ∧
      moduleOf? commentedExport =
        some (commentedExport ++ "\n\n" ++ definition "a-a" "Other") ∧
      (Script.parse commentedExport.toList).toOption.map (·.items.filterMap defaultName?) =
        some ["Best"]) ∧
    (scan {} unnamedExport).toOption.isSome = true ∧
      moduleOf? unnamedExport =
        some (unnamedExport ++ "\n\n" ++ definition "a-a" "extends") ∧
      (Script.parse unnamedExport.toList).toOption.map (·.items.filterMap defaultName?) = some [] ∧
      Script.reservedWords.contains "extends" = true := by
  refine ⟨⟨?_, ?_, ?_⟩, ?_, ?_, ?_, ?_⟩ <;> decide +kernel

end Plugin.Ecmascript
end ElementBuild
