/-
# Blocks that are rewritten in place

The scripts of a component are found without regard to its styles, and the styles without regard
to its scripts.  Among themselves the blocks of one kind stand apart, with tags between them
(`Block.pairwise_ofKind`), but a style can begin or end within a script: in a string, say.  Edits
are made in the order in which the blocks begin, and for each of them the ranges are those of the
component before all edits, so two blocks that overlap are not rewritten one in the other.

`Block.rewritten` are the blocks that are to be rewritten, all scripts and the styles that stand
apart from them.  They are rewritten as if all were replaced at once if each style stands apart
from the scripts, or no style is preprocessed, and only then
(`Plugin.Command.rewrites_in_place_iff`).  That a style is rewritten that does not stand apart is
seen by the length of what becomes of the component, for preprocessors that leave each script as
it is and make each style one character longer.
-/
import ElementBuild.Plugin.Command
import ElementBuild.Proofs.References
import ElementBuild.Proofs.Rewriting

namespace ElementBuild

/-! ### Lengths -/

namespace Text

/-- What a text is made of around the range of an edit that fits it. -/
theorem Edit.Fits.exists_parts {text : List Char} {e : Edit} (h : e.Fits text) :
    ∃ before old after, text = before ++ (old ++ after) ∧ byteLength before = e.start ∧
      e.start + byteLength old = e.stop := by
  obtain ⟨horder, -, ⟨before, rest, rfl, hbefore⟩, hstop⟩ := h
  obtain ⟨old, after, rfl, hold⟩ := hstop.exists_rest (by omega)
  exact ⟨before, old, after, rfl, hbefore, by omega⟩

theorem length_le_byteLength (cs : List Char) : cs.length ≤ byteLength cs := by
  induction cs with
  | nil => exact Nat.le_refl 0
  | cons c cs ih =>
    have hpos := Char.utf8Size_pos c
    rw [List.length_cons, byteLength_cons]
    omega

/-- What a measure of edits adds up to. -/
def totalOf (f : Edit → Nat) (es : List Edit) : Nat := es.foldr (fun e n => f e + n) 0

theorem totalOf_cons (f : Edit → Nat) (e : Edit) (es : List Edit) :
    totalOf f (e :: es) = f e + totalOf f es := rfl

/-- How long a text is from an offset on once the ranges of edits are replaced. -/
theorem byteLength_replaceFrom {before rest : List Char} {es : List Edit}
    (hfits : ∀ e ∈ es, e.Fits (before ++ rest)) (hascending : es.Pairwise (·.stop ≤ ·.start))
    (hle : ∀ e ∈ es, byteLength before ≤ e.start) :
    byteLength (replaceFrom (before ++ rest) (byteLength before) es) +
        totalOf (fun e => e.stop - e.start) es =
      byteLength rest + totalOf (fun e => byteLength e.replacement) es := by
  induction es generalizing before rest with
  | nil => rw [replaceFrom_nil]; rfl
  | cons e es ih =>
    obtain ⟨hafter, hascending⟩ := List.pairwise_cons.1 hascending
    have he := hfits e List.mem_cons_self
    obtain ⟨kept, later, rfl, hkept⟩ := he.2.2.1.exists_rest (hle e List.mem_cons_self)
    obtain ⟨old, after, rfl, hold⟩ : ∃ old after, later = old ++ after ∧
        byteLength (before ++ kept) + byteLength old = e.stop := by
      have hstop := he.2.2.2
      rw [← List.append_assoc] at hstop
      refine hstop.exists_rest ?_
      rw [byteLength_append, hkept]
      exact he.1
    have htext : before ++ (kept ++ (old ++ after)) = (before ++ kept ++ old) ++ after := by
      simp only [List.append_assoc]
    have hlater := @ih (before ++ kept ++ old) after
      (fun f hf => htext ▸ hfits f (List.mem_cons_of_mem e hf)) hascending
      (fun f hf => by rw [byteLength_append, hold]; exact hafter f hf)
    rw [byteLength_append, hold] at hlater
    rw [replaceFrom_cons hkept, htext]
    rw [byteLength_append] at hold
    simp only [byteLength_append, totalOf_cons] at hlater ⊢
    omega

theorem byteLength_replaceAll {text : List Char} {es : List Edit} (hfits : ∀ e ∈ es, e.Fits text)
    (hascending : es.Pairwise (·.stop ≤ ·.start)) :
    byteLength (replaceAll text es) + totalOf (fun e => e.stop - e.start) es =
      byteLength text + totalOf (fun e => byteLength e.replacement) es :=
  @byteLength_replaceFrom [] text es hfits hascending fun _ _ => Nat.zero_le _

/-- A shift wraps both ends of a range alike, so the range stays as long as it was. -/
theorem Splicer.range_of_shift? {s : Splicer} {length start stop start' stop' : Nat}
    (hstart : s.shift? length start = some start') (hstop : s.shift? length stop = some stop')
    (hlength : length < lengthLimit) (hle : start ≤ stop) (hsmall : stop < lengthLimit) :
    stop' - start' = stop - start ∧ start' ≤ stop' := by
  have hsigned (n : Int) : ∃ k : Int, signed n = n - k * 0x10000000000000000 := by
    have hdivided := Int.bdiv_add_bmod n wordCount
    rw [Int.mul_comm] at hdivided
    refine ⟨n.bdiv wordCount, ?_⟩
    change n.bmod wordCount = n - n.bdiv wordCount * wordCount
    omega
  have hplace {offset place : Nat} (h : s.shift? length offset = some place) :
      place ≤ length ∧ ∃ k : Int, (place : Int) = offset + s.delta - k * 0x10000000000000000 := by
    unfold shift? at h
    dsimp only at h
    split at h
    · rename_i hbounds
      have hplace := Option.some.inj h
      obtain ⟨k, hk⟩ := hsigned offset
      obtain ⟨k', hk'⟩ := hsigned (signed offset + s.delta)
      exact ⟨by omega, k + k', by omega⟩
    · cases h
  obtain ⟨hinside, k, hk⟩ := hplace hstart
  obtain ⟨hinside', k', hk'⟩ := hplace hstop
  unfold lengthLimit at hlength hsmall
  omega

/-- An edit that is made, wherever that is, makes the text longer by as much as what it puts
there is longer than its range. -/
theorem Draft.byteLength_of_edit {d d' : Draft} {e : Edit} (h : d.edit e = .ok d')
    (hlength : byteLength d.text < lengthLimit) (hstop : e.stop < lengthLimit) :
    e.start ≤ e.stop ∧
      byteLength d'.text + (e.stop - e.start) = byteLength d.text + byteLength e.replacement := by
  have hsplice : ∃ made, d.splicer.splice d.text e = .ok made ∧ made.1 = d'.text := by
    unfold edit at h
    cases hmade : d.splicer.splice d.text e with
    | error err => rw [hmade] at h; cases h
    | ok made => rw [hmade] at h; cases h; exact ⟨made, rfl, rfl⟩
  obtain ⟨⟨after, splicer⟩, hsplice, rfl⟩ := hsplice
  unfold Splicer.splice at hsplice
  split at hsplice
  · cases hsplice
  rename_i horder
  dsimp only at hsplice
  split at hsplice
  · rename_i start stop hstart hstop'
    split at hsplice
    · rename_i before rest rest' later hbefore hlater
      obtain ⟨hafter, -⟩ := Prod.mk.inj (Except.ok.inj hsplice)
      rw [← hafter]
      obtain ⟨htext, hbefore⟩ := append_of_splitAt? hbefore
      obtain ⟨htext', hlater⟩ := append_of_splitAt? hlater
      have hlengths := congrArg byteLength htext
      have hlengths' := congrArg byteLength htext'
      have hrange : stop - start = e.stop - e.start ∧ start ≤ stop :=
        Splicer.range_of_shift? hstart hstop' hlength (by omega) hstop
      refine ⟨by omega, ?_⟩
      simp only [byteLength_append] at hlengths hlengths' ⊢
      omega
    · cases hsplice
  · cases hsplice

end Text

/-- The preprocessors of a request end well, whatever they are given. -/
structure CompileRequest.NeverFails (r : CompileRequest) : Prop where
  script : ∀ content s, ∃ text t, (r.preprocessScript content).Gives s text t
  style : ∀ preprocess, r.preprocessStyle = some preprocess →
    ∀ content file s, ∃ text t, (preprocess content file).Gives s text t

/-! ### Where blocks stand -/

namespace Plugin

open Script (Span)
open Text (Edit byteLength replaceAll)

namespace Block

variable {tag : String} {cs rest : List Char}

theorem exists_of_tagEnd? (h : tagEnd? cs = some rest) : ∃ attributes, cs = attributes ++ rest := by
  unfold tagEnd? at h
  split at h
  · exact ⟨['>'], by rw [Option.some.inj h]; rfl⟩
  · rename_i c cs _
    split at h
    · split at h
      · rename_i d after hafter
        obtain rfl := Option.some.inj h
        refine ⟨c :: (cs.takeWhile (· ≠ '>') ++ [d]), ?_⟩
        have hsplit := List.takeWhile_append_dropWhile (p := (· ≠ '>')) (l := cs)
        rw [hafter] at hsplit
        rw [List.cons_append, List.append_assoc, List.singleton_append, hsplit]
      · cases h
    · cases h
  · cases h

theorem exists_of_opened? (h : opened? tag cs = some rest) :
    ∃ opening, cs = opening ++ rest ∧ 0 < byteLength opening := by
  obtain ⟨after, hafter, hrest⟩ := Option.bind_eq_some_iff.1 h
  obtain rfl := List.isPrefixOf?_eq_some_iff_append_eq.1 hafter
  obtain ⟨attributes, rfl⟩ := exists_of_tagEnd? hrest
  refine ⟨'<' :: tag.toList ++ attributes, by simp only [List.append_assoc], ?_⟩
  rw [List.cons_append, Text.byteLength_cons]
  have hpos := Char.utf8Size_pos '<'
  omega

theorem exists_of_untilClosed? {content : List Char}
    (h : untilClosed? tag cs = some (content, rest)) :
    ∃ closing, cs = content ++ (closing ++ rest) ∧ 0 < byteLength closing := by
  induction cs generalizing content with
  | nil => cases h
  | cons c cs ih =>
    rw [untilClosed?] at h
    split at h
    · rename_i after hafter
      obtain ⟨rfl, rfl⟩ := Prod.mk.inj (Option.some.inj h)
      have hpos := Char.utf8Size_pos '<'
      refine ⟨'<' :: '/' :: tag.toList ++ ['>'],
        (List.isPrefixOf?_eq_some_iff_append_eq.1 hafter).symm, ?_⟩
      rw [List.cons_append, List.cons_append, Text.byteLength_cons]
      omega
    · obtain ⟨⟨content, after⟩, hrest, h⟩ := Option.map_eq_some_iff.1 h
      obtain ⟨rfl, rfl⟩ := Prod.mk.inj h
      obtain ⟨closing, rfl, hclosing⟩ := ih hrest
      exact ⟨closing, rfl, hclosing⟩

/-- A text in the place of what a block holds. -/
def edit (b : Block) (text : String) : Edit := ⟨text.toList, b.span.start, b.span.stop⟩

/-- A part of a text, from an offset on. -/
structure Lies (code : List Char) (offset : Nat) (span : Span) : Prop where
  le : offset ≤ span.start
  fits : Edit.Fits code ⟨[], span.start, span.stop⟩

theorem lies_of_parts {before content after : List Char} {offset : Nat}
    (h : offset ≤ byteLength before) : Lies (before ++ (content ++ after)) offset
      ⟨byteLength before, byteLength before + byteLength content⟩ where
  le := h
  fits := by
    refine ⟨Nat.le_add_right _ _, ?_, ⟨before, _, rfl, rfl⟩, ⟨before ++ content, after, ?_, ?_⟩⟩
    · rw [Text.byteLength_append, Text.byteLength_append]
      dsimp only
      omega
    · rw [List.append_assoc]
    · exact Text.byteLength_append before content

/-- The blocks of a tag stand one behind the other, with tags between them. -/
theorem spansFrom_spec (before cs : List Char) (n : Nat) :
    (∀ span ∈ spansFrom tag n (byteLength before) cs,
        Lies (before ++ cs) (byteLength before) span) ∧
      (spansFrom tag n (byteLength before) cs).Pairwise fun a b => a.stop < b.start := by
  induction n generalizing before cs with
  | zero => simp [spansFrom]
  | succ n ih =>
    cases cs with
    | nil => simp [spansFrom]
    | cons c cs =>
      rw [spansFrom]
      split
      · rename_i text content rest hblock
        obtain ⟨text, hopened, hblock⟩ := Option.bind_eq_some_iff.1 hblock
        obtain ⟨⟨content, rest⟩, hclosed, hblock⟩ := Option.map_eq_some_iff.1 hblock
        cases hblock
        obtain ⟨opening, hcs, hopening⟩ := exists_of_opened? hopened
        obtain ⟨closing, rfl, hclosing⟩ := exists_of_untilClosed? hclosed
        -- where the content begins, and where the text behind the closing tag does
        have hstart : byteLength before + (byteLength (c :: cs) -
            byteLength (content ++ (closing ++ rest))) = byteLength (before ++ opening) := by
          rw [hcs, Text.byteLength_append opening, Nat.add_sub_cancel, Text.byteLength_append]
        have hnext : byteLength before + (byteLength (c :: cs) - byteLength rest) =
            byteLength (before ++ opening ++ content ++ closing) := by
          rw [hcs]
          simp only [Text.byteLength_append]
          omega
        have hcode : before ++ c :: cs = before ++ opening ++ content ++ closing ++ rest := by
          rw [hcs]
          simp only [List.append_assoc]
        obtain ⟨hlies, hapart⟩ := ih (before ++ opening ++ content ++ closing) rest
        dsimp only
        rw [hstart, hnext, hcode]
        refine ⟨fun span hspan => ?_, List.pairwise_cons.2 ⟨fun span hspan => ?_, hapart⟩⟩
        · rcases List.mem_cons.1 hspan with rfl | hspan
          · rw [List.append_assoc, List.append_assoc (before ++ opening)]
            exact lies_of_parts (by rw [Text.byteLength_append]; omega)
          · refine ⟨?_, (hlies span hspan).fits⟩
            have hle := (hlies span hspan).le
            simp only [Text.byteLength_append] at hle
            omega
        · have hle := (hlies span hspan).le
          simp only [Text.byteLength_append] at hle ⊢
          omega
      · have hcode : before ++ c :: cs = before ++ [c] ++ cs := by
          rw [List.append_assoc, List.singleton_append]
        have hnext : byteLength before + c.utf8Size = byteLength (before ++ [c]) := by
          simp
        obtain ⟨hlies, hapart⟩ := ih (before ++ [c]) cs
        rw [hnext, hcode]
        refine ⟨fun span hspan => ⟨?_, (hlies span hspan).fits⟩, hapart⟩
        have hle := (hlies span hspan).le
        rw [Text.byteLength_append] at hle
        omega

theorem length_spansFrom_le (n offset : Nat) : (spansFrom tag n offset cs).length ≤ n := by
  induction n generalizing offset cs with
  | zero => simp [spansFrom]
  | succ n ih =>
    cases cs with
    | nil => simp [spansFrom]
    | cons c cs =>
      rw [spansFrom]
      split
      · exact Nat.succ_le_succ (ih _)
      · exact Nat.le_succ_of_le (ih _)

/-! ### Blocks that stand apart -/

variable {code : List Char} {kind : BlockKind} {b b' : Block}

/-- Of two blocks, one ends before the other one begins. -/
def IsApart (b b' : Block) : Prop := b.span.stop < b'.span.start ∨ b'.span.stop < b.span.start

instance (b b' : Block) : Decidable (b.IsApart b') := inferInstanceAs (Decidable (_ ∨ _))

theorem IsApart.symm (h : b.IsApart b') : b'.IsApart b := Or.symm h

/-- A block stands apart from the scripts of a component. -/
def IsOutside (code : List Char) (b : Block) : Prop := ∀ s ∈ ofKind code .script, b.IsApart s

instance (code : List Char) (b : Block) : Decidable (b.IsOutside code) :=
  inferInstanceAs (Decidable (∀ s ∈ _, _))

/-- The blocks of a component that are to be rewritten, in the order in which they begin: the
scripts and, if styles are preprocessed, the styles that stand apart from them. -/
def rewritten (code : List Char) (withStyles : Bool) : List Block :=
  (all code).filter fun b => b.kind = .script ∨ withStyles = true ∧ b.IsOutside code

theorem fits_edit (h : b ∈ ofKind code kind) (text : String) : (b.edit text).Fits code := by
  obtain ⟨span, hspan, rfl⟩ := List.mem_map.1 h
  exact ((spansFrom_spec [] code code.length).1 span hspan).fits

theorem kind_of_mem_ofKind (h : b ∈ ofKind code kind) : b.kind = kind := by
  obtain ⟨span, -, rfl⟩ := List.mem_map.1 h
  rfl

theorem pairwise_ofKind (code : List Char) (kind : BlockKind) :
    (ofKind code kind).Pairwise fun b b' => b.span.stop < b'.span.start :=
  List.pairwise_map.2 (spansFrom_spec [] code code.length).2

theorem mem_all : b ∈ all code ↔ b ∈ ofKind code b.kind := by
  rw [all, (perm_sortBy _ _).mem_iff, List.mem_append]
  constructor
  · rintro (h | h)
    · rwa [kind_of_mem_ofKind h]
    · rwa [kind_of_mem_ofKind h]
  · intro h
    cases hkind : b.kind with
    | script => exact .inl (hkind ▸ h)
    | style => exact .inr (hkind ▸ h)

/-- The blocks that are to be rewritten stand one behind the other. -/
theorem pairwise_rewritten (code : List Char) (withStyles : Bool) :
    (rewritten code withStyles).Pairwise fun b b' => b.span.stop < b'.span.start := by
  have hapart : (rewritten code withStyles).Pairwise IsApart := by
    refine (((perm_sortBy _ _).filter _).pairwise_iff fun h => h.symm).2 ?_
    rw [List.filter_append]
    refine List.pairwise_append.2 ⟨?_, ?_, fun b hb b' hb' => ?_⟩
    · exact ((pairwise_ofKind code .script).imp Or.inl).filter _
    · exact ((pairwise_ofKind code .style).imp Or.inl).filter _
    · obtain ⟨hb', hrewritten⟩ := List.mem_filter.1 hb'
      rcases of_decide_eq_true hrewritten with hscript | ⟨-, houtside⟩
      · cases (kind_of_mem_ofKind hb').symm.trans hscript
      · exact (houtside b (List.mem_filter.1 hb).1).symm
  have hsorted : (rewritten code withStyles).Pairwise fun b b' => b.span.start ≤ b'.span.start :=
    (pairwise_sortBy _ _).filter _
  refine (hapart.and hsorted).imp_of_mem fun {b b'} hb hb' h => ?_
  rcases h with ⟨happart | hbehind, hle⟩
  · exact happart
  · have hb' := fits_edit (mem_all.1 (List.mem_filter.1 hb').1) ""
    have horder : b'.span.start ≤ b'.span.stop := hb'.1
    omega

/-- If each style stands apart from the scripts, or none is preprocessed, then all blocks are
rewritten that are preprocessed at all. -/
theorem rewritten_eq {withStyles : Bool}
    (h : withStyles = true → ∀ b ∈ ofKind code .style, b.IsOutside code) :
    rewritten code withStyles =
      (all code).filter fun b => b.kind = .script ∨ withStyles = true := by
  refine List.filter_congr fun b hb => decide_eq_decide.2 ?_
  constructor
  · rintro (hscript | ⟨hstyles, -⟩)
    · exact .inl hscript
    · exact .inr hstyles
  · rintro (hscript | hstyles)
    · exact .inl hscript
    · cases hkind : b.kind with
      | script => exact .inl rfl
      | style => exact .inr ⟨hstyles, h hstyles b (hkind ▸ mem_all.1 hb)⟩

/-- Whether a block is a style. -/
def isStyle (b : Block) : Bool := b.kind = .style

theorem countP_style_le (code : List Char) :
    (all code).countP isStyle ≤ code.length := by
  have hscripts : (ofKind code .script).countP isStyle = 0 := by
    refine List.countP_eq_zero.2 fun b hb => ?_
    rw [isStyle, kind_of_mem_ofKind hb]
    decide
  have hstyles : (ofKind code .style).length ≤ code.length := by
    rw [ofKind, List.length_map]
    exact length_spansFrom_le _ _
  rw [all, (perm_sortBy _ _).countP_eq, List.countP_append, hscripts, Nat.zero_add]
  exact List.countP_le_length.trans hstyles

end Block

/-! ### Blocks one after the other -/

namespace Command

open Block (rewritten isStyle)

/-- What a preprocessor makes of what a block holds; a style that nobody preprocesses stays as
it is. -/
def output (r : CompileRequest) (b : Block) : Step String :=
  let content := String.ofList ((Text.slice? r.code.toList b.span.start b.span.stop).getD [])
  match b.kind, r.preprocessStyle with
  | .script, _ => r.preprocessScript content
  | .style, some preprocess => preprocess content r.filename
  | .style, none => pure content

/-- The edits that rewrite blocks, with what the preprocessors give one after the other. -/
def edits (r : CompileRequest) : List Block → Step (List Edit)
  | [] => pure []
  | b :: bs => do
    let text ← output r b
    return b.edit text :: (← edits r bs)

/-- A component is preprocessed in place: its blocks that are to be rewritten are given to the
preprocessors, and what these make of them replaces what the blocks held, all at once.  No text
on the way may be too long to be in memory. -/
def RewritesInPlace (r : CompileRequest) (s : Session) : Prop :=
  ∃ es t, (edits r (rewritten r.code.toList r.preprocessStyle.isSome)).Gives s es t ∧
    ((∀ fs, fs <+: es → byteLength (replaceAll r.code.toList fs) < Text.lengthLimit) →
      ∃ text, (preprocess r).Gives s text t ∧ text.toList = replaceAll r.code.toList es)

variable {r : CompileRequest} {b : Block} {bs : List Block} {es : List Edit} {d d' : Text.Draft}
  {s t : Session}

/-- Whether a preprocessor is there for a block. -/
def IsPreprocessed (r : CompileRequest) (b : Block) : Prop :=
  b.kind = .script ∨ r.preprocessStyle.isSome = true

instance (r : CompileRequest) (b : Block) : Decidable (IsPreprocessed r b) :=
  inferInstanceAs (Decidable (_ ∨ _))

theorem gives_preprocessBlock (h : IsPreprocessed r b) :
    (preprocessBlock r r.code.toList d b).Gives s d' t ↔
      ∃ text, (output r b).Gives s text t ∧ d.edit (b.edit text) = .ok d' := by
  obtain ⟨kind, span⟩ := b
  cases kind with
  | script =>
    simp only [preprocessBlock, replacement?, output, Step.gives_bind, Step.gives_pure]
    constructor
    · rintro ⟨_, u, ⟨text, v, htext, rfl, rfl⟩, hmade⟩
      obtain ⟨hedit, rfl⟩ := Step.gives_edit.1 hmade
      exact ⟨text, htext, hedit⟩
    · rintro ⟨text, htext, hedit⟩
      exact ⟨some text, t, ⟨text, t, htext, rfl, rfl⟩, Step.gives_edit.2 ⟨hedit, rfl⟩⟩
  | style =>
    obtain ⟨preprocess, hpreprocess⟩ : ∃ preprocess, r.preprocessStyle = some preprocess :=
      Option.isSome_iff_exists.1 (h.resolve_left BlockKind.noConfusion)
    simp only [preprocessBlock, replacement?, output, hpreprocess, Step.gives_bind, Step.gives_pure]
    constructor
    · rintro ⟨_, u, ⟨text, v, htext, rfl, rfl⟩, hmade⟩
      obtain ⟨hedit, rfl⟩ := Step.gives_edit.1 hmade
      exact ⟨text, htext, hedit⟩
    · rintro ⟨text, htext, hedit⟩
      exact ⟨some text, t, ⟨text, t, htext, rfl, rfl⟩, Step.gives_edit.2 ⟨hedit, rfl⟩⟩

/-- A style that nobody preprocesses is left as it is. -/
theorem gives_preprocessBlock_of_not (h : ¬ IsPreprocessed r b) :
    (preprocessBlock r r.code.toList d b).Gives s d' t ↔ d' = d ∧ t = s := by
  obtain ⟨kind, span⟩ := b
  obtain ⟨hscript, hstyles⟩ := not_or.1 h
  obtain rfl : kind = .style := by
    cases kind with
    | script => exact absurd rfl hscript
    | style => rfl
  have hnone : r.preprocessStyle = none := by simpa using hstyles
  simp only [preprocessBlock, replacement?, hnone, Step.gives_bind, Step.gives_pure]
  constructor
  · rintro ⟨_, u, ⟨rfl, rfl⟩, h⟩
    exact Step.gives_pure.1 h
  · rintro ⟨rfl, rfl⟩
    exact ⟨none, _, ⟨rfl, rfl⟩, Step.gives_pure.2 ⟨rfl, rfl⟩⟩

theorem gives_edits_cons : (edits r (b :: bs)).Gives s es t ↔
    ∃ text u rest, (output r b).Gives s text u ∧ (edits r bs).Gives u rest t ∧
      es = b.edit text :: rest := by
  simp only [edits, Step.gives_bind, Step.gives_pure]
  constructor
  · rintro ⟨text, u, htext, rest, v, hrest, rfl, rfl⟩
    exact ⟨text, u, rest, htext, hrest, rfl⟩
  · rintro ⟨text, u, rest, htext, hrest, rfl⟩
    exact ⟨text, u, htext, rest, t, hrest, rfl, rfl⟩

theorem exists_output (h : r.NeverFails) (b : Block) (s : Session) :
    ∃ text t, (output r b).Gives s text t := by
  unfold output
  dsimp only
  split
  · exact h.script _ s
  · rename_i preprocess _ hpreprocess
    exact h.style preprocess hpreprocess _ _ s
  · exact ⟨_, s, Step.gives_pure.2 ⟨rfl, rfl⟩⟩

theorem exists_edits (h : r.NeverFails) (bs : List Block) (s : Session) :
    ∃ es t, (edits r bs).Gives s es t := by
  induction bs generalizing s with
  | nil => exact ⟨[], s, Step.gives_pure.2 ⟨rfl, rfl⟩⟩
  | cons b bs ih =>
    obtain ⟨text, u, htext⟩ := exists_output h b s
    obtain ⟨rest, t, hrest⟩ := ih u
    exact ⟨_, t, gives_edits_cons.2 ⟨text, u, rest, htext, hrest, rfl⟩⟩

/-- The edits have the ranges of their blocks. -/
theorem ranges_of_edits (h : (edits r bs).Gives s es t) :
    es.map (fun e => Span.mk e.start e.stop) = bs.map (·.span) := by
  induction bs generalizing s es with
  | nil =>
    obtain ⟨rfl, -⟩ := Step.gives_pure.1 h
    rfl
  | cons b bs ih =>
    obtain ⟨text, u, rest, -, hrest, rfl⟩ := gives_edits_cons.1 h
    exact congrArg (b.span :: ·) (ih hrest)

theorem fits_of_edits (h : (edits r bs).Gives s es t)
    (hbs : ∀ b ∈ bs, b ∈ Block.all r.code.toList) : ∀ e ∈ es, e.Fits r.code.toList := by
  intro e he
  have hspan := List.mem_map_of_mem (f := fun e => Span.mk e.start e.stop) he
  rw [ranges_of_edits h] at hspan
  obtain ⟨b, hb, hspan⟩ := List.mem_map.1 hspan
  have hfits := Block.fits_edit (Block.mem_all.1 (hbs b hb)) ""
  unfold Block.edit at hfits
  rw [hspan] at hfits
  exact hfits

theorem ascending_of_edits (h : (edits r bs).Gives s es t)
    (hbs : bs.Pairwise fun b b' => b.span.stop < b'.span.start) :
    es.Pairwise (·.stop ≤ ·.start) := by
  have hspans : (bs.map (·.span)).Pairwise fun a b => a.stop ≤ b.start :=
    List.pairwise_map.2 (hbs.imp Nat.le_of_lt)
  rw [← ranges_of_edits h] at hspans
  exact List.pairwise_map.1 hspans

/-- **The blocks are rewritten one after the other**, and none of the edits is refused. -/
theorem gives_foldlM {goal : List Char}
    (h : (edits r (bs.filter fun b => IsPreprocessed r b)).Gives s es t)
    (hdraft : d.Awaits r.code.toList goal es) :
    ∃ d', (bs.foldlM (preprocessBlock r r.code.toList) d).Gives s d' t ∧ d'.text = goal := by
  induction bs generalizing s es d with
  | nil =>
    obtain ⟨rfl, rfl⟩ := Step.gives_pure.1 h
    exact ⟨d, Step.gives_pure.2 ⟨rfl, rfl⟩, hdraft.text_eq⟩
  | cons b bs ih =>
    rw [List.foldlM_cons]
    by_cases hb : IsPreprocessed r b
    · rw [List.filter_cons_of_pos (by simpa using hb)] at h
      obtain ⟨text, u, rest, htext, hrest, rfl⟩ := gives_edits_cons.1 h
      obtain ⟨d₁, hedit, hdraft⟩ := hdraft.edit
      obtain ⟨d', hfold, hgoal⟩ := ih hrest hdraft
      exact ⟨d', Step.gives_bind.2 ⟨d₁, u, (gives_preprocessBlock hb).2 ⟨text, htext, hedit⟩,
        hfold⟩, hgoal⟩
    · rw [List.filter_cons_of_neg (by simpa using hb)] at h
      obtain ⟨d', hfold, hgoal⟩ := ih h hdraft
      exact ⟨d', Step.gives_bind.2 ⟨d, s, (gives_preprocessBlock_of_not hb).2 ⟨rfl, rfl⟩, hfold⟩,
        hgoal⟩

/-- A component is preprocessed in place if each style stands apart from the scripts, or none is
preprocessed. -/
theorem rewritesInPlace_of_isOutside (hr : r.NeverFails)
    (h : r.preprocessStyle.isSome = true →
      ∀ b ∈ Block.ofKind r.code.toList .style, b.IsOutside r.code.toList) (s : Session) :
    RewritesInPlace r s := by
  obtain ⟨es, t, hes⟩ := exists_edits hr (rewritten r.code.toList r.preprocessStyle.isSome) s
  refine ⟨es, t, hes, fun hlengths => ?_⟩
  have hfits := fits_of_edits hes fun b hb => (List.mem_filter.1 hb).1
  have hascending := ascending_of_edits hes (Block.pairwise_rewritten _ _)
  rw [Block.rewritten_eq h] at hes
  obtain ⟨d, hfold, hgoal⟩ := gives_foldlM hes (Text.Draft.awaits_start hfits hascending hlengths)
  refine ⟨d.toString, Step.gives_bind.2 ⟨d, t, hfold, Step.gives_pure.2 ⟨rfl, rfl⟩⟩, ?_⟩
  rw [← hgoal]
  exact String.toList_ofList

/-! ### Styles that overlap scripts -/

/-- A request whose scripts stay as they are, while its styles become one character longer. -/
def lengthening (code : String) : CompileRequest where
  code := code
  filename := ⟨""⟩
  sourcemap := .whole false
  preprocessScript := pure
  preprocessStyle := some fun content _ => pure (content ++ "x")

theorem neverFails_lengthening (code : String) : (lengthening code).NeverFails where
  script content s := ⟨content, s, Step.gives_pure.2 ⟨rfl, rfl⟩⟩
  style preprocess hpreprocess content _ s := by
    cases hpreprocess
    exact ⟨content ++ "x", s, Step.gives_pure.2 ⟨rfl, rfl⟩⟩

variable {code text : String}

theorem isPreprocessed_lengthening (b : Block) : IsPreprocessed (lengthening code) b := .inr rfl

theorem byteLength_of_output (hb : b ∈ Block.all code.toList)
    (h : (output (lengthening code) b).Gives s text t) :
    byteLength text.toList = b.span.stop - b.span.start + if isStyle b then 1 else 0 := by
  have hfits := Block.fits_edit (Block.mem_all.1 hb) ""
  obtain ⟨before, old, after, hcode, hbefore, hold⟩ := hfits.exists_parts
  have hslice : Text.slice? code.toList b.span.start b.span.stop = some old := by
    rw [hcode, ← show byteLength before = b.span.start from hbefore,
      ← show byteLength before + byteLength old = b.span.stop from hbefore ▸ hold]
    exact Text.slice?_append before old after
  have hlength : byteLength old = b.span.stop - b.span.start := by
    have hold : b.span.start + byteLength old = b.span.stop := hold
    omega
  obtain ⟨kind, span⟩ := b
  unfold output at h
  rw [show (lengthening code).code = code from rfl, hslice] at h
  cases kind with
  | script =>
    obtain ⟨rfl, -⟩ := Step.gives_pure.1 h
    rw [Option.getD_some, String.toList_ofList, hlength]
    rfl
  | style =>
    obtain ⟨rfl, -⟩ := Step.gives_pure.1 h
    rw [Option.getD_some, String.toList_append, String.toList_ofList, Text.byteLength_append,
      hlength]
    rfl

/-- Together the edits make a text longer by a character for each style. -/
theorem totalOf_edits (hbs : ∀ b ∈ bs, b ∈ Block.all code.toList)
    (h : (edits (lengthening code) bs).Gives s es t) :
    Text.totalOf (fun e => byteLength e.replacement) es =
      Text.totalOf (fun e => e.stop - e.start) es + bs.countP isStyle := by
  induction bs generalizing s es with
  | nil =>
    obtain ⟨rfl, -⟩ := Step.gives_pure.1 h
    rfl
  | cons b bs ih =>
    obtain ⟨text, u, rest, htext, hrest, rfl⟩ := gives_edits_cons.1 h
    have hlength := byteLength_of_output (hbs b List.mem_cons_self) htext
    have hlater := ih (fun b hb => hbs b (List.mem_cons_of_mem _ hb)) hrest
    rw [List.countP_cons]
    simp only [Text.totalOf_cons, Block.edit]
    omega

/-- The first of the edits are those of the first blocks. -/
theorem edits_of_prefix {fs : List Edit} (h : (edits r bs).Gives s es t) (hfs : fs <+: es) :
    ∃ cs u, cs <+: bs ∧ (edits r cs).Gives s fs u := by
  induction bs generalizing s es fs with
  | nil =>
    obtain ⟨rfl, -⟩ := Step.gives_pure.1 h
    obtain rfl := List.prefix_nil.1 hfs
    exact ⟨[], s, List.nil_prefix, Step.gives_pure.2 ⟨rfl, rfl⟩⟩
  | cons b bs ih =>
    obtain ⟨text, u, rest, htext, hrest, rfl⟩ := gives_edits_cons.1 h
    rcases List.prefix_cons_iff.1 hfs with rfl | ⟨fs, rfl, hfs'⟩
    · exact ⟨[], s, List.nil_prefix, Step.gives_pure.2 ⟨rfl, rfl⟩⟩
    · obtain ⟨cs, v, hcs, hedits⟩ := ih hrest hfs'
      exact ⟨b :: cs, v, (List.prefix_cons_inj b).2 hcs,
        gives_edits_cons.2 ⟨text, u, fs, htext, hedits, rfl⟩⟩

theorem byteLength_of_edits (hbs : ∀ b ∈ bs, b ∈ Block.all code.toList)
    (hascending : bs.Pairwise fun b b' => b.span.stop < b'.span.start)
    (h : (edits (lengthening code) bs).Gives s es t) :
    byteLength (replaceAll code.toList es) = byteLength code.toList + bs.countP isStyle := by
  have hreplaced :=
    Text.byteLength_replaceAll (fits_of_edits h hbs) (ascending_of_edits h hascending)
  have htotal := totalOf_edits hbs h
  have hcode : (lengthening code).code = code := rfl
  rw [hcode] at hreplaced
  omega

/-- One after the other, all styles become longer, wherever they stand. -/
theorem byteLength_of_foldlM (hbs : ∀ b ∈ bs, b ∈ Block.all code.toList)
    (hcode : byteLength code.toList < Text.lengthLimit)
    (hlength : byteLength d.text + bs.countP isStyle < Text.lengthLimit)
    (h : (bs.foldlM (preprocessBlock (lengthening code) code.toList) d).Gives s d' t) :
    byteLength d'.text = byteLength d.text + bs.countP isStyle := by
  induction bs generalizing d s with
  | nil =>
    obtain ⟨rfl, -⟩ := Step.gives_pure.1 h
    rfl
  | cons b bs ih =>
    rw [List.foldlM_cons] at h
    obtain ⟨d₁, u, hblock, hfold⟩ := Step.gives_bind.1 h
    obtain ⟨text, htext, hedit⟩ :=
      (gives_preprocessBlock (isPreprocessed_lengthening b)).1 hblock
    have hb := hbs b List.mem_cons_self
    have hfits := Block.fits_edit (Block.mem_all.1 hb) text
    have hstop : (b.edit text).stop ≤ byteLength code.toList := hfits.2.1
    obtain ⟨horder, hedited⟩ := Text.Draft.byteLength_of_edit hedit (by omega) (by omega)
    have hgrown := byteLength_of_output hb htext
    rw [List.countP_cons] at hlength ⊢
    simp only [Block.edit] at hedited horder
    have hlater := ih (fun b hb => hbs b (List.mem_cons_of_mem _ hb)) (by omega) hfold
    omega

/-- The first of the blocks that are to be rewritten stand apart, and there are not more styles
among them than bytes in the text. -/
theorem rewritten_of_prefix {bs : List Block} (h : bs <+: rewritten code.toList true) :
    (∀ b ∈ bs, b ∈ Block.all code.toList) ∧
      bs.Pairwise (fun b b' => b.span.stop < b'.span.start) ∧
        bs.countP isStyle ≤ byteLength code.toList := by
  have hsublist := h.sublist.trans List.filter_sublist
  refine ⟨fun b => hsublist.mem, (Block.pairwise_rewritten _ _).sublist h.sublist, ?_⟩
  exact (hsublist.countP_le).trans ((Block.countP_style_le _).trans
    (Text.length_le_byteLength _))

/-- If styles become longer in place, then all of them are to be rewritten: the length of the
result is told by the edits one after the other, and by those at once. -/
theorem countP_rewritten (hcode : byteLength code.toList < Text.offsetLimit)
    (h : RewritesInPlace (lengthening code) s) :
    (rewritten code.toList true).countP isStyle = (Block.all code.toList).countP isStyle := by
  have hlimit := Text.lengthLimit_eq
  obtain ⟨es, t, hes, hplace⟩ := h
  obtain ⟨text, hrun, htext⟩ := hplace fun fs hfs => by
    obtain ⟨cs, u, hcs, hfs⟩ := edits_of_prefix hes hfs
    have hcs : cs <+: rewritten code.toList true := hcs
    obtain ⟨hmem, hapart, hcount⟩ := rewritten_of_prefix hcs
    have hreplaced := byteLength_of_edits hmem hapart hfs
    have hsame : (lengthening code).code = code := rfl
    rw [hsame]
    omega
  obtain ⟨d, u, hfold, hresult⟩ := Step.gives_bind.1 hrun
  obtain ⟨rfl, -⟩ := Step.gives_pure.1 hresult
  have hcount : (Block.all code.toList).countP isStyle ≤ byteLength code.toList :=
    (Block.countP_style_le _).trans (Text.length_le_byteLength _)
  have hall : byteLength d.text =
      byteLength code.toList + (Block.all code.toList).countP isStyle :=
    byteLength_of_foldlM (fun b hb => hb) (by omega)
      (show byteLength code.toList + _ < _ by omega) hfold
  obtain ⟨hmem, hapart, -⟩ := rewritten_of_prefix (List.prefix_refl (rewritten code.toList true))
  have hsome := byteLength_of_edits hmem hapart hes
  have hresult : byteLength d.text = byteLength (replaceAll code.toList es) := by
    rw [← show _ = replaceAll code.toList es from htext, Text.Draft.toString,
      String.toList_ofList]
  omega

/-- If all styles are to be rewritten, they stand apart from the scripts. -/
theorem isOutside_of_countP
    (h : (rewritten code.toList true).countP isStyle = (Block.all code.toList).countP isStyle) :
    ∀ b ∈ Block.ofKind code.toList .style, b.IsOutside code.toList := by
  intro b hb
  have hsublist : ((rewritten code.toList true).filter isStyle).Sublist
      ((Block.all code.toList).filter isStyle) := List.filter_sublist.filter isStyle
  have hstyles := hsublist.eq_of_length (by
    rw [← List.countP_eq_length_filter, ← List.countP_eq_length_filter, h])
  have hkind := Block.kind_of_mem_ofKind hb
  have hmem : b ∈ Block.all code.toList := Block.mem_all.2 (hkind ▸ hb)
  have hrewritten := hstyles ▸ List.mem_filter.2 ⟨hmem, decide_eq_true hkind⟩
  obtain ⟨-, hwanted⟩ := List.mem_filter.1 (List.mem_filter.1 hrewritten).1
  rcases of_decide_eq_true hwanted with hscript | ⟨-, houtside⟩
  · cases hkind.symm.trans hscript
  · exact houtside

/-- **Blocks are rewritten in place if and only if they stand apart.**  The component that the
preprocessors leave is the one in which all scripts, and the styles that stand apart from them,
are replaced at once by what is made of them, for all preprocessors that do not fail: this is so
if no style overlaps a script, or if styles are not preprocessed, and only then. -/
theorem rewrites_in_place_iff (code : String) (withStyles : Bool)
    (hlength : byteLength code.toList < Text.offsetLimit) :
    (∀ r : CompileRequest, r.code = code → r.preprocessStyle.isSome = withStyles →
        r.NeverFails → ∀ s, RewritesInPlace r s) ↔
      (withStyles = true →
        ∀ b ∈ Block.ofKind code.toList .style, b.IsOutside code.toList) := by
  constructor
  · rintro h rfl
    have hinPlace : RewritesInPlace (lengthening code) { files := {} } :=
      h (lengthening code) rfl rfl (neverFails_lengthening code) _
    exact isOutside_of_countP (countP_rewritten hlength hinPlace)
  · rintro h r rfl rfl hr s
    exact rewritesInPlace_of_isOutside hr h s

/-- A request whose scripts get a semicolon at their end, and whose styles get a blank. -/
def ending (code : String) : CompileRequest where
  code := code
  filename := ⟨"/a_b/index.vue"⟩
  sourcemap := .whole false
  preprocessScript content := pure (content ++ ";")
  preprocessStyle := some fun content _ => pure (content ++ " ")

theorem neverFails_ending (code : String) : (ending code).NeverFails where
  script content s := ⟨content ++ ";", s, Step.gives_pure.2 ⟨rfl, rfl⟩⟩
  style preprocess hpreprocess content _ s := by
    cases hpreprocess
    exact ⟨content ++ " ", s, Step.gives_pure.2 ⟨rfl, rfl⟩⟩

/-- A component whose style stands behind its script. -/
def separateBlocks : String := "<script>f()</script>\n<style lang=\"css\">a{}</style>\n"

theorem rewrites_in_place_of_separateBlocks :
    byteLength separateBlocks.toList < Text.offsetLimit ∧
      (∀ b ∈ Block.ofKind separateBlocks.toList .style, b.IsOutside separateBlocks.toList) ∧
      RewritesInPlace (ending separateBlocks) { files := {} } ∧
      ((preprocess (ending separateBlocks)).run.run { files := {} } :
        Except Failure String × Session).1.toOption =
          some "<script>f();</script>\n<style lang=\"css\">a{} </style>\n" := by
  have hlength : byteLength separateBlocks.toList < Text.offsetLimit := by decide +kernel
  have houtside : ∀ b ∈ Block.ofKind separateBlocks.toList .style,
      b.IsOutside separateBlocks.toList := by decide +kernel
  have hplace := (rewrites_in_place_iff separateBlocks true hlength).2 fun _ => houtside
  exact ⟨hlength, houtside, hplace (ending separateBlocks) rfl rfl (neverFails_ending _) _,
    by decide +kernel⟩

/-- A component whose script has a style in a string. -/
def quotedStyle : String := "<script>f('<style>a{}</style>')</script>\n"

/-- The script is all that is to be rewritten. -/
def quotedStyleEdits : List Edit := [⟨"f('<style>a{}</style>');".toList, 8, 31⟩]

theorem quotedStyle_run :
    let run : Except Failure String × Session :=
      (preprocess (ending quotedStyle)).run.run { files := {} }
    let wanted : Except Failure (List Edit) × Session :=
      (edits (ending quotedStyle) (rewritten quotedStyle.toList true)).run.run { files := {} }
    run.1.toOption = some "<script>f('<style>aa{} /style>');</script>\n" ∧
      wanted.1.toOption = some quotedStyleEdits := by
  decide +kernel

/-- **A style in a string is rewritten elsewhere**: the place of its edit is off by the semicolon
at the end of the script, so a part of the style is there twice, and the bracket of its closing
tag not at all. -/
theorem not_in_place_of_quotedStyle : (ending quotedStyle).NeverFails ∧
    ((preprocess (ending quotedStyle)).run.run { files := {} } :
      Except Failure String × Session).1.toOption =
        some "<script>f('<style>aa{} /style>');</script>\n" ∧
    ¬ RewritesInPlace (ending quotedStyle) { files := {} } := by
  obtain ⟨hrun, hwanted⟩ := quotedStyle_run
  refine ⟨neverFails_ending _, hrun, ?_⟩
  rintro ⟨es, t, hes, hplace⟩
  obtain ⟨rfl, -⟩ := hes.unique (Step.gives_of_run hwanted)
  have hlengths : ∀ fs ∈ quotedStyleEdits.inits,
      byteLength (replaceAll quotedStyle.toList fs) < Text.lengthLimit := by decide +kernel
  obtain ⟨text, htext, hreplaced⟩ := hplace fun fs hfs => hlengths fs ((List.mem_inits _ _).2 hfs)
  obtain ⟨rfl, -⟩ := htext.unique (Step.gives_of_run hrun)
  exact absurd hreplaced (by decide +kernel)

end Command
end Plugin
end ElementBuild
