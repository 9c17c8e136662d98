/-
# Passes that write literals anew

A pass over the references of a module makes one edit for each reference that it writes anew,
and between two of them it may resolve specifiers and copy modules.  The edits that are left
give the text that the pass ends with, wherever it is in its list (`Text.Draft.Awaits`): none of
them is refused, and together they replace the literals as if all were replaced at once.

`Step.Meets` says how a step can end, well or not, so that both are read off one proof.
-/
import ElementBuild.Build.Relative
import ElementBuild.Mapping.Pass
import ElementBuild.Proofs.Ranges
import ElementBuild.Proofs.Rounds
import ElementBuild.Proofs.Wrapping

namespace ElementBuild

/-! ### How a step ends -/

namespace Step

variable {α β : Type}

/-- From a session, the step ends well with a result and a session of one kind, or fails in
one way. -/
structure Meets (x : Step α) (s : Session) (P : α → Session → Prop) (Q : Failure → Prop) :
    Prop where
  good_of_gives : ∀ {a t}, x.Gives s a t → P a t
  bad_of_error : ∀ {f t}, (x.run.run s : Except Failure α × Session) = (.error f, t) → Q f

variable {x : Step α} {s : Session} {P P' : α → Session → Prop} {Q Q' : Failure → Prop}

theorem meets_of_run {a : α} {t : Session} (hx : x.Gives s a t) (h : P a t) :
    x.Meets s P Q := by
  constructor
  · intro b u hb
    obtain ⟨rfl, rfl⟩ := hx.unique hb
    exact h
  · intro f u hf
    cases hx.symm.trans hf

theorem Meets.mono (h : x.Meets s P Q) (hgood : ∀ a t, P a t → P' a t)
    (hbad : ∀ f, Q f → Q' f) : x.Meets s P' Q' :=
  ⟨fun hx => hgood _ _ (h.good_of_gives hx), fun hx => hbad _ (h.bad_of_error hx)⟩

theorem meets_pure {a : α} (h : P a s) : (pure a : Step α).Meets s P Q :=
  meets_of_run (gives_pure.2 ⟨rfl, rfl⟩) h

theorem meets_files {P : FileTree → Session → Prop} (h : P s.files s) :
    Step.files.Meets s P Q := meets_of_run (gives_files.2 ⟨rfl, rfl⟩) h

theorem meets_fail {f : Fault} (h : Q (.of f)) : (Step.fail f : Step α).Meets s P Q :=
  ⟨fun hx => absurd hx gives_fail, fun hx => by cases hx; exact h⟩

theorem meets_modify {f : Session → Session} {P : PUnit → Session → Prop}
    (h : P ⟨⟩ (f s)) : (modify f : Step PUnit).Meets s P Q :=
  meets_of_run (gives_modify.2 rfl) h

theorem Meets.bind {f : α → Step β} {later : β → Session → Prop} (hx : x.Meets s P Q)
    (hf : ∀ a t, P a t → (f a).Meets t later Q) : (x >>= f).Meets s later Q := by
  constructor
  · intro b u hb
    obtain ⟨a, t, ha, hb⟩ := gives_bind.1 hb
    exact (hf a t (hx.good_of_gives ha)).good_of_gives hb
  · intro e u he
    rcases hrun : (x.run.run s : Except Failure α × Session) with ⟨e' | a, t⟩
    · rw [run_bind_error hrun] at he
      cases he
      exact hx.bad_of_error hrun
    · rw [run_bind_ok hrun] at he
      exact (hf a t (hx.good_of_gives hrun)).bad_of_error he

theorem Meets.during {a : Activity} (h : x.Meets s P fun f => Q (f.during a)) :
    (Step.during a x).Meets s P Q := by
  refine ⟨fun hx => h.good_of_gives (gives_during.1 hx), fun hx => ?_⟩
  rw [run_during] at hx
  rcases hrun : (x.run.run s : Except Failure α × Session) with ⟨e | b, u⟩
  · rw [hrun] at hx
    cases hx
    exact h.bad_of_error hrun
  · rw [hrun] at hx
    cases hx

theorem meets_ofExcept {ε : Type} {fault : ε → Fault} {e : Except ε α}
    (hgood : ∀ a, e = .ok a → P a s) (hbad : ∀ err, e = .error err → Q (.of (fault err))) :
    (Step.ofExcept fault e).Meets s P Q := by
  constructor
  · intro a t h
    obtain ⟨ha, rfl⟩ := gives_ofExcept.1 h
    exact hgood a ha
  · intro f t h
    rw [run_ofExcept] at h
    cases e with
    | error err =>
      cases h
      exact hbad err rfl
    | ok a => cases h

/-- What each round of a fold keeps true of the elements that are left holds at its end, when
none is left. -/
theorem meets_foldlM {f : β → α → Step β} (I : List α → β → Session → Prop)
    (hround : ∀ x xs b s, I (x :: xs) b s → (f b x).Meets s (I xs) Q) {xs : List α} {b : β}
    {s : Session} (h : I xs b s) : (xs.foldlM f b).Meets s (I []) Q := by
  induction xs generalizing b s with
  | nil => exact meets_pure h
  | cons x xs ih =>
    rw [List.foldlM_cons]
    exact (hround x xs b s h).bind fun _ _ => ih

end Step

/-! ### Edits that are left to make -/

namespace Text

theorem lengthLimit_eq : lengthLimit = 2 * offsetLimit := rfl

theorem replaceAll_nil (text : List Char) : replaceAll text [] = text :=
  (Draft.reaches_start text).text_eq.symm

/-- A slice is taken between boundaries. -/
theorem fits_of_slice? {text raw : List Char} {e : Edit}
    (h : slice? text e.start e.stop = some raw) : e.Fits text := by
  unfold slice? at h
  split at h
  · rename_i hle
    obtain ⟨⟨before, rest⟩, hbefore, h⟩ := Option.bind_eq_some_iff.1 h
    obtain ⟨⟨old, after⟩, hold, -⟩ := Option.map_eq_some_iff.1 h
    obtain ⟨rfl, hstart⟩ := append_of_splitAt? hbefore
    obtain ⟨rfl, hstop⟩ := append_of_splitAt? hold
    refine ⟨hle, ?_, ⟨before, _, rfl, hstart⟩, ⟨before ++ old, after, ?_, ?_⟩⟩
    · simp only [byteLength_append]
      omega
    · rw [List.append_assoc]
    · rw [byteLength_append]
      omega
  · cases h

namespace Draft

/-- Edits in ascending order are left to make in a draft of a text: they give a text at the
end, and none of the texts on the way there is too long to be in memory. -/
structure Awaits (text goal : List Char) (es : List Edit) (d : Draft) : Prop where
  length : byteLength text < lengthLimit
  fits : ∀ e ∈ es, e.Fits text
  ascending : es.Pairwise (·.stop ≤ ·.start)
  made : ∃ n made, Reaches text n made d ∧ (∀ e ∈ es, n ≤ e.start) ∧
    made ++ replaceFrom text n es = goal ∧
      ∀ fs, fs <+: es → byteLength (made ++ replaceFrom text n fs) < lengthLimit

variable {text goal : List Char} {e : Edit} {es : List Edit} {d : Draft}

theorem awaits_start (hfits : ∀ e ∈ es, e.Fits text) (hascending : es.Pairwise (·.stop ≤ ·.start))
    (hlengths : ∀ fs, fs <+: es → byteLength (replaceAll text fs) < lengthLimit) :
    Awaits text (replaceAll text es) es { text := text } where
  length := by
    have hnone := hlengths [] List.nil_prefix
    rwa [replaceAll, ← List.nil_append (replaceFrom text 0 []), ← (reaches_start text).text_eq]
      at hnone
  fits := hfits
  ascending := hascending
  made := ⟨0, [], reaches_start text, fun _ _ => Nat.zero_le _, rfl, hlengths⟩

/-- Once all edits are made, the draft is what they give. -/
theorem Awaits.text_eq (h : Awaits text goal [] d) : d.text = goal := by
  obtain ⟨n, made, hreaches, -, hgoal, -⟩ := h.made
  rw [hreaches.text_eq, hgoal]

/-- **The next edit is made**, and the others are left. -/
theorem Awaits.edit (h : Awaits text goal (e :: es) d) :
    ∃ d', d.edit e = .ok d' ∧ Awaits text goal es d' := by
  obtain ⟨n, made, hreaches, hle, hgoal, hlengths⟩ := h.made
  obtain ⟨hafter, hascending⟩ := List.pairwise_cons.1 h.ascending
  have hdraft := hlengths [] List.nil_prefix
  rw [← hreaches.text_eq] at hdraft
  have hedited := hlengths [e] ((List.prefix_cons_inj e).2 List.nil_prefix)
  obtain ⟨d', kept, hedit, hreaches', hreplace⟩ := hreaches.edit_of_fits h.length hdraft hedited
    (h.fits e List.mem_cons_self) (hle e List.mem_cons_self)
  have hnext : ∀ fs, made ++ kept ++ e.replacement ++ replaceFrom text e.stop fs =
      made ++ replaceFrom text n (e :: fs) := fun fs => by
    rw [hreplace, List.append_assoc, List.append_assoc, List.append_assoc]
  refine ⟨d', hedit, h.length, fun f hf => h.fits f (List.mem_cons_of_mem e hf), hascending,
    e.stop, _, hreaches', hafter, (hnext es).trans hgoal, fun fs hfs => ?_⟩
  rw [hnext]
  exact hlengths (e :: fs) ((List.prefix_cons_inj e).2 hfs)

end Draft
end Text

/-! ### New targets -/

namespace Reference

/-- The references whose literals spell their targets, and are to get new ones. -/
def renamed (code : List Char) (rename : Reference → Option String) (references : List Reference) :
    List (Reference × String) :=
  references.filterMap fun r =>
    if content? code r.literal = some r.target.toList then (rename r).map (r, ·) else none

/-- The edits that give references new targets. -/
def edits (code : List Char) (renamed : List (Reference × String)) : List Text.Edit :=
  renamed.map fun (r, target) => retarget code r.literal target

/-- The text that becomes of a module if some of its references are given new targets, all at
once: between its quotes, which stay, the literal of each of them has the new target. -/
structure Rewrites (code : List Char) (renamed : List (Reference × String)) (after : List Char) :
    Prop where
  text : after = Text.replaceAll code (edits code renamed)
  ascending : renamed.Pairwise fun a b => a.1.literal.stop ≤ b.1.literal.start
  quoted : ∀ a ∈ renamed, ∃ quote, (quote = '"' ∨ quote = '\'') ∧
    Text.slice? code a.1.literal.start a.1.literal.stop =
      some (quote :: (a.1.target.toList ++ [quote])) ∧
    quoted code a.1.literal.start a.2 = quote :: (a.2.toList ++ [quote])

variable {code : List Char} {rename : Reference → Option String} {r : Reference}
  {references : List Reference}

theorem renamed_cons_of_some {target : String} (hr : rename r = some target)
    (h : content? code r.literal = some r.target.toList) :
    renamed code rename (r :: references) = (r, target) :: renamed code rename references := by
  rw [renamed, List.filterMap_cons_some (by rw [if_pos h, hr]; rfl)]
  rfl

theorem renamed_cons_of_none
    (h : rename r = none ∨ content? code r.literal ≠ some r.target.toList) :
    renamed code rename (r :: references) = renamed code rename references := by
  rw [renamed, List.filterMap_cons_none]
  · rfl
  · rcases h with h | h
    · simp [h]
    · rw [if_neg h]

theorem renamed_of_none (h : ∀ r, rename r = none) : renamed code rename references = [] := by
  induction references with
  | nil => rfl
  | cons r rs ih => rw [renamed_cons_of_none (.inl (h r)), ih]

theorem mem_renamed {a : Reference × String} (h : a ∈ renamed code rename references) :
    a.1 ∈ references ∧ content? code a.1.literal = some a.1.target.toList ∧
      rename a.1 = some a.2 := by
  obtain ⟨r, hr, ha⟩ := List.mem_filterMap.1 h
  split at ha
  · rename_i hcontent
    obtain ⟨target, htarget, rfl⟩ := Option.map_eq_some_iff.1 ha
    exact ⟨hr, hcontent, htarget⟩
  · cases ha

/-- A literal that spells its target is a part of the text. -/
theorem fits_of_content? (h : content? code r.literal = some r.target.toList) (target : String) :
    (retarget code r.literal target).Fits code := by
  obtain ⟨raw, hraw, -⟩ := Option.bind_eq_some_iff.1 h
  exact Text.fits_of_slice? hraw

theorem fits_edits : ∀ e ∈ edits code (renamed code rename references), e.Fits code := by
  intro e he
  obtain ⟨a, ha, rfl⟩ := List.mem_map.1 he
  exact fits_of_content? (mem_renamed ha).2.1 a.2

theorem ascending_renamed (h : references.Pairwise fun r r' => r.literal.stop ≤ r'.literal.start) :
    (renamed code rename references).Pairwise fun a b => a.1.literal.stop ≤ b.1.literal.start := by
  refine List.Pairwise.filterMap _ (fun r r' hle a ha b hb => ?_) h
  split at ha
  · split at hb
    · obtain ⟨_, -, rfl⟩ := Option.map_eq_some_iff.1 ha
      obtain ⟨_, -, rfl⟩ := Option.map_eq_some_iff.1 hb
      exact hle
    · cases hb
  · cases ha

theorem ascending_edits (h : references.Pairwise fun r r' => r.literal.stop ≤ r'.literal.start) :
    (edits code (renamed code rename references)).Pairwise (·.stop ≤ ·.start) :=
  List.pairwise_map.2 (ascending_renamed h)

end Reference

/-- The references of a module; none if it is malformed. -/
def referencesOf (options : ScanOptions) (code : String) : List Reference :=
  ((scan options code).toOption.map (·.references)).getD []

theorem referencesOf_of_scan {options : ScanOptions} {code : String} {found : Scan}
    (h : scan options code = .ok found) : referencesOf options code = found.references := by
  rw [referencesOf, h]
  rfl

/-- A scan finds the references of a module that is not malformed, and leaves the files. -/
theorem Step.meets_scan {bad : Failure → Prop} (options : ScanOptions) (code : String) (s : Session)
    (hbad : ∀ f, bad (.of (.malformed f))) : (Step.scan options code).Meets s
      (fun references t => references = referencesOf options code ∧ t.files = s.files) bad := by
  refine ⟨fun h => ?_, fun h => ?_⟩
  · obtain ⟨found, hfound, rfl, log, rfl⟩ := gives_scan h
    exact ⟨(referencesOf_of_scan hfound).symm, rfl⟩
  · refine Step.Meets.bad_of_error (P := fun _ _ => True) ?_ h
    unfold Step.scan
    refine (Step.meets_ofExcept (P := fun _ _ => True) (fun _ _ => trivial)
      fun f _ => hbad f).bind fun found t _ => ?_
    have htell : ∀ (warnings : List String) (t : Session),
        (warnings.forM fun w => Step.tell (.warning w)).Meets t (fun _ _ => True) bad := by
      intro warnings
      induction warnings with
      | nil => exact fun _ => meets_pure trivial
      | cons w ws ih =>
        exact fun t => Step.Meets.bind (P := fun _ _ => True) (meets_modify trivial) fun _ u _ => ih u
    exact (htell found.warnings t).bind fun _ _ _ => Step.meets_pure trivial

/-! ### The mapping pass -/

namespace Mapping

open Reference (content? retarget edits renamed renamed_of_none renamed_cons_of_some
  renamed_cons_of_none)

variable {p : Pass} {folder : Path} {paths : List Path} {code : List Char}

/-- What a failure may be if no edit of the pass itself is refused: an edit that is refused in
the course of copying a module is one of the copy. -/
def RefusedInCopy (f : Failure) : Prop :=
  ∀ e, f.fault = .splice e → ∃ aliased rest, f.activities = .copyingMapped aliased :: rest

theorem refusedInCopy_of {fault : Fault} (h : ∀ e, fault ≠ .splice e) :
    RefusedInCopy (.of fault) := fun e he => absurd he (h e)

theorem meets_resolveAlias (aliased : String) (paths : List Path) (s : Session) :
    (resolveAlias aliased paths).Meets s (fun _ _ => True) RefusedInCopy := by
  unfold resolveAlias
  refine Step.Meets.bind (P := fun t _ => t = s.files) (Step.meets_files rfl) ?_
  rintro t u rfl
  cases s.files.resolve aliased paths with
  | ok found => exact Step.meets_pure trivial
  | error e =>
    refine Step.Meets.bind (P := fun _ _ => True) (Step.meets_modify trivial) fun _ _ _ => ?_
    cases fallback? s.files aliased paths with
    | some found => exact Step.meets_pure trivial
    | none => exact Step.meets_fail (refusedInCopy_of (by simp))

theorem meets_copyModule (p : Pass) (paths : List Path) (o : Outcome) (target : Path) (s : Session) :
    (p.copyModule paths o target).Meets s (fun _ _ => True) RefusedInCopy := by
  unfold Pass.copyModule
  refine (meets_resolveAlias _ _ s).bind fun source t _ => Step.Meets.during ?_
  exact ⟨fun _ => trivial, fun _ _ _ => ⟨_, _, rfl⟩⟩

namespace Pass

/-- The destination that a rule gives a reference. -/
def destination? (p : Pass) (folder : Path) (r : Reference) : Option String :=
  (p.table.resolve r.target folder p.workingDir p.copyAll).map (·.destination)

/-- Without rules there are no destinations. -/
theorem destination?_of_isEmpty (h : p.table.isEmpty = true) (r : Reference) :
    p.destination? folder r = none := by
  rw [Table.isEmpty, List.isEmpty_iff] at h
  rw [destination?, Table.resolve, Table.rule?, h, List.find?_nil, Option.map_none,
    Option.map_none]

/-- What is written for a reference that a rule applies to. -/
def rename? (p : Pass) (folder : Path) (r : Reference) : Option String :=
  (p.destination? folder r).map (p.written r)

/-- What a pass still has to do: the edits that are left, and the destinations of their
references. -/
def Awaits (p : Pass) (folder : Path) (code goal : List Char) (destinations : List String)
    (rest : List Reference) (state : Text.Draft × List String) : Prop :=
  state.1.Awaits code goal (edits code (renamed code (p.rename? folder) rest)) ∧
    ((renamed code (p.destination? folder) rest).map (·.2)).reverse ++ state.2 = destinations

variable {goal : List Char} {destinations : List String} {rest references : List Reference}
  {state : Text.Draft × List String} {r : Reference}

/-- A reference that no rule applies to, or whose literal does not spell its target, leaves
nothing to do. -/
theorem Awaits.skip (h : p.Awaits folder code goal destinations (r :: rest) state)
    (hnone : p.destination? folder r = none ∨
      content? code r.literal ≠ some r.target.toList) :
    p.Awaits folder code goal destinations rest state := by
  have hnone' : p.rename? folder r = none ∨ content? code r.literal ≠ some r.target.toList :=
    hnone.imp_left fun h => by rw [rename?, h, Option.map_none]
  rw [Awaits, renamed_cons_of_none hnone, renamed_cons_of_none hnone'] at h
  exact h

theorem Awaits.edit {o : Outcome} (h : p.Awaits folder code goal destinations (r :: rest) state)
    (ho : p.table.resolve r.target folder p.workingDir p.copyAll = some o)
    (hcontent : content? code r.literal = some r.target.toList) :
    ∃ d, state.1.edit (retarget code r.literal (p.written r o.destination)) = .ok d ∧
      p.Awaits folder code goal destinations rest (d, o.destination :: state.2) := by
  have hdestination : p.destination? folder r = some o.destination := by
    rw [destination?, ho, Option.map_some]
  have hrename : p.rename? folder r = some (p.written r o.destination) := by
    rw [rename?, hdestination, Option.map_some]
  obtain ⟨hdraft, hdestinations⟩ := h
  rw [renamed_cons_of_some hrename hcontent] at hdraft
  rw [renamed_cons_of_some hdestination hcontent, List.map_cons, List.reverse_cons,
    List.append_assoc] at hdestinations
  obtain ⟨d, hedit, hrest⟩ := hdraft.edit
  exact ⟨d, hedit, hrest, hdestinations⟩

/-- A reference that a rule applies to is written anew if its literal spells it, and then the
module of the rule is copied. -/
theorem mapReference_of_some {o : Outcome}
    (ho : p.table.resolve r.target folder p.workingDir p.copyAll = some o) :
    p.mapReference folder paths code state r =
      (if content? code r.literal = some r.target.toList then
        Step.edit state.1 (retarget code r.literal (p.written r o.destination)) >>= fun draft =>
          pure (draft, o.destination :: state.2)
      else pure state) >>= fun state =>
        o.copyTo.elim (pure ()) (p.copyModule paths o) >>= fun _ => pure state := by
  unfold mapReference Reference.retarget?
  rw [ho]
  dsimp only
  by_cases hcontent : content? code r.literal = some r.target.toList
  · rw [if_pos hcontent, if_pos hcontent, bind_assoc]
    cases o.copyTo <;> rfl
  · rw [if_neg hcontent, if_neg hcontent]
    cases o.copyTo <;> rfl

/-- **One reference is handled**: no edit of its literal is refused. -/
theorem meets_mapReference (h : p.Awaits folder code goal destinations (r :: rest) state)
    (s : Session) : (p.mapReference folder paths code state r).Meets s
      (fun state' _ => p.Awaits folder code goal destinations rest state') RefusedInCopy := by
  cases ho : p.table.resolve r.target folder p.workingDir p.copyAll with
  | none =>
    unfold mapReference
    rw [ho]
    refine Step.meets_pure (h.skip (.inl ?_))
    rw [destination?, ho, Option.map_none]
  | some o =>
    rw [mapReference_of_some ho]
    refine Step.Meets.bind (P := fun state' _ => p.Awaits folder code goal destinations rest state')
      ?_ fun state' t hstate' => ?_
    · by_cases hcontent : content? code r.literal = some r.target.toList
      · rw [if_pos hcontent]
        obtain ⟨d, hedit, hrest⟩ := h.edit ho hcontent
        refine Step.Meets.bind (P := fun d' _ => d' = d) ?_ fun d' _ hd' => ?_
        · refine Step.meets_ofExcept (fun d' hd' => ?_) fun e he => ?_
          · exact Except.ok.inj (hd'.symm.trans hedit)
          · cases he.symm.trans hedit
        · exact Step.meets_pure (hd' ▸ hrest)
      · rw [if_neg hcontent]
        exact Step.meets_pure (h.skip (.inr hcontent))
    · -- copying comes last, and leaves the draft alone
      refine Step.Meets.bind (P := fun _ _ => True) ?_ fun _ _ _ => Step.meets_pure hstate'
      cases o.copyTo with
      | none => exact Step.meets_pure trivial
      | some target => exact meets_copyModule p paths o target t

/-- **A pass makes all of its edits.** -/
theorem meets_run (p : Pass) (code : String) (folder : Path) (paths : List Path)
    (skip : List String) (s : Session) {references : List Reference}
    (hreferences : references =
      (referencesOf { types := p.types } code).filter fun r => !skip.contains r.target)
    (hascending : references.Pairwise fun r r' => r.literal.stop ≤ r'.literal.start)
    (hlengths : ∀ es, es <+: edits code.toList (renamed code.toList (p.rename? folder) references) →
      Text.byteLength (Text.replaceAll code.toList es) < Text.lengthLimit) :
    (p.run code folder paths skip).Meets s (fun m _ =>
      m.code.toList = Text.replaceAll code.toList
        (edits code.toList (renamed code.toList (p.rename? folder) references)) ∧
      m.destinations =
        ((renamed code.toList (p.destination? folder) references).map (·.2)).reverse)
      RefusedInCopy := by
  unfold run
  split
  · rename_i hempty
    have hnone : ∀ r, p.destination? folder r = none := destination?_of_isEmpty hempty
    refine Step.meets_pure ?_
    rw [renamed_of_none hnone, renamed_of_none fun r => by rw [rename?, hnone, Option.map_none]]
    exact ⟨(Text.replaceAll_nil _).symm, rfl⟩
  · refine (Step.meets_scan _ _ s fun f => refusedInCopy_of (by simp)).bind ?_
    rintro _ t ⟨rfl, -⟩
    refine (Step.meets_foldlM (fun rest state _ => p.Awaits folder code.toList
      (Text.replaceAll code.toList
        (edits code.toList (renamed code.toList (p.rename? folder) references)))
      ((renamed code.toList (p.destination? folder) references).map (·.2)).reverse rest state)
      (fun r rest state u h => meets_mapReference h u) ?_).bind ?_
    · rw [← hreferences]
      exact ⟨Text.Draft.awaits_start Reference.fits_edits
        (Reference.ascending_edits hascending) hlengths, List.append_nil _⟩
    · rintro ⟨draft, written⟩ u ⟨hdraft, hwritten⟩
      refine Step.meets_pure ⟨?_, hwritten⟩
      rw [← hdraft.text_eq]
      exact String.toList_ofList

end Pass
end Mapping

/-! ### The pass over relative references -/

namespace Relative

open Reference (content? renamed renamed_cons_of_some renamed_cons_of_none edits)

/-- What is written for a reference that is resolved from a folder: the way to its file. -/
def rename? (t : FileTree) (output : Path) (paths : List Path) (r : Reference) : Option String :=
  (t.resolve r.target (output :: paths)).toOption.bind
    (Path.specifierFrom? ((t.canonical output).toOption.getD output))

variable {output : Path} {paths : List Path} {code goal : List Char} {rest : List Reference}
  {draft : Text.Draft} {r : Reference}

/-- **One reference is handled**: no edit of its literal is refused. -/
theorem meets_pointReference (s : Session)
    (h : draft.Awaits code goal
      (edits code (renamed code (rename? s.files output paths) (r :: rest)))) :
    (pointReference output ((s.files.canonical output).toOption.getD output) paths code draft
      r).Meets s
      (fun d t => t.files = s.files ∧
        d.Awaits code goal (edits code (renamed code (rename? s.files output paths) rest)))
      fun f => ∀ e, f.fault ≠ .splice e := by
  unfold pointReference
  refine Step.Meets.bind (P := fun found t =>
    s.files.resolve r.target (output :: paths) = .ok found ∧ t = s) ?_ ?_
  · refine ⟨Step.gives_resolve.1, fun hf => ?_⟩
    rw [Step.run_resolve] at hf
    cases hresolve : s.files.resolve r.target (output :: paths) with
    | error e =>
      rw [hresolve] at hf
      cases hf
      simp [Failure.of]
    | ok found =>
      rw [hresolve] at hf
      cases hf
  rintro found t ⟨hfound, rfl⟩
  have hrename : rename? t.files output paths r =
      Path.specifierFrom? ((t.files.canonical output).toOption.getD output) found := by
    rw [rename?, hfound]
    rfl
  cases hspecifier : Path.specifierFrom? ((t.files.canonical output).toOption.getD output) found with
  | none =>
    rw [renamed_cons_of_none (.inl (hrename.trans hspecifier))] at h
    exact Step.meets_pure ⟨rfl, h⟩
  | some specifier =>
    dsimp only
    unfold Reference.retarget?
    by_cases hcontent : content? code r.literal = some r.target.toList
    · rw [if_pos hcontent]
      rw [renamed_cons_of_some (hrename.trans hspecifier) hcontent] at h
      obtain ⟨d, hedit, hrest⟩ := h.edit
      refine Step.Meets.bind (P := fun _ u => u.files = t.files) (Step.meets_modify rfl)
        fun _ u hu => ?_
      refine Step.meets_ofExcept (fun d' hd' => ?_) fun e he => ?_
      · cases hd'.symm.trans hedit
        exact ⟨hu, hrest⟩
      · cases he.symm.trans hedit
    · rw [if_neg hcontent]
      rw [renamed_cons_of_none (.inr hcontent)] at h
      exact Step.meets_pure ⟨rfl, h⟩

/-- **A pass makes all of its edits.** -/
theorem meets_point (code : String) (output : Path) (paths : List Path) (s : Session)
    {references : List Reference}
    (hreferences : references =
      (referencesOf {} code).filter fun r => Specifier.isRelative r.target)
    (hascending : references.Pairwise fun r r' => r.literal.stop ≤ r'.literal.start)
    (hlengths : ∀ es,
      es <+: edits code.toList (renamed code.toList (rename? s.files output paths) references) →
        Text.byteLength (Text.replaceAll code.toList es) < Text.lengthLimit) :
    (point code output paths).Meets s (fun after _ => after.toList = Text.replaceAll code.toList
      (edits code.toList (renamed code.toList (rename? s.files output paths) references)))
      fun f => ∀ e, f.fault ≠ .splice e := by
  unfold point
  refine (Step.meets_scan _ _ s fun f => by simp [Failure.of]).bind ?_
  rintro _ t ⟨rfl, ht⟩
  refine Step.Meets.bind (P := fun files u => files = s.files ∧ u.files = s.files)
    (Step.meets_files ⟨ht, ht⟩) ?_
  rintro _ u ⟨rfl, hu⟩
  refine (Step.meets_foldlM (fun rest draft v => v.files = s.files ∧ draft.Awaits code.toList
    (Text.replaceAll code.toList
      (edits code.toList (renamed code.toList (rename? s.files output paths) references)))
    (edits code.toList (renamed code.toList (rename? s.files output paths) rest)))
    (fun r rest draft v h => ?_) ?_).bind ?_
  · obtain ⟨hv, h⟩ := h
    rw [← hv] at h ⊢
    exact meets_pointReference v h
  · rw [← hreferences]
    exact ⟨hu, Text.Draft.awaits_start Reference.fits_edits
      (Reference.ascending_edits hascending) hlengths⟩
  · rintro draft v ⟨-, hdraft⟩
    refine Step.meets_pure ?_
    rw [← hdraft.text_eq]
    exact String.toList_ofList

end Relative

/-! ### Quotes -/

namespace Reference

/-- A reference is written in a text that no byte order mark opens. -/
theorem isWritten_of_mem {options : ScanOptions} {code : String} {r : Reference}
    (hmark : code.toList.head? ≠ some '\ufeff') (hr : r ∈ referencesOf options code) :
    r.IsWritten code.toList := by
  cases hscan : scan options code with
  | error f =>
    rw [referencesOf, hscan] at hr
    cases hr
  | ok found =>
    rw [referencesOf_of_scan hscan] at hr
    obtain ⟨_, _, _, _, _, hmade⟩ := exists_make?_of_mem_scan hscan hr
    unfold scan at hscan
    dsimp only at hscan
    split at hscan
    · cases hscan
    rename_i m hparse
    obtain ⟨hi, hmentions⟩ := Script.exists_mentions hparse
    rw [withoutMark_eq hmark] at hmentions
    obtain rfl := Except.ok.inj hscan
    have hmem := (subperm_mentions options code.toList m).subset
      (List.mem_map_of_mem ((perm_sortBy _ _).mem_iff.1 hr))
    exact isWritten hmade (hmentions.lies _ hmem)

/-- The new literal of a reference that is written has the quotes of the old one. -/
theorem quoted_of_isWritten {r : Reference} {code : List Char} (h : r.IsWritten code)
    (target : String) : ∃ quote, (quote = '"' ∨ quote = '\'') ∧
      Text.slice? code r.literal.start r.literal.stop =
        some (quote :: (r.target.toList ++ [quote])) ∧
      quoted code r.literal.start target = quote :: (target.toList ++ [quote]) := by
  obtain ⟨quote, hquote, hslice⟩ := h.quoted
  have hat : quoteAt code r.literal.start = quote := by
    unfold Text.slice? at hslice
    split at hslice
    · obtain ⟨⟨before, rest⟩, hbefore, hslice⟩ := Option.bind_eq_some_iff.1 hslice
      obtain ⟨⟨old, after⟩, hold, hquoted⟩ := Option.map_eq_some_iff.1 hslice
      obtain ⟨rfl, -⟩ := Text.append_of_splitAt? hold
      dsimp only at hquoted
      rw [quoteAt, hbefore, Option.map_some, hquoted]
      rcases hquote with rfl | rfl <;> rfl
    · cases hslice
  exact ⟨quote, hquote, hslice, by rw [quoted, hat]; rfl⟩

theorem rewrites_of (options : ScanOptions) {code : String} {references : List Reference}
    {rename : Reference → Option String} {after : List Char}
    (hmark : code.toList.head? ≠ some '\ufeff') (hsublist : references ⊆ referencesOf options code)
    (hascending : references.Pairwise fun r r' => r.literal.stop ≤ r'.literal.start)
    (hafter : after = Text.replaceAll code.toList
      (edits code.toList (renamed code.toList rename references))) :
    Rewrites code.toList (renamed code.toList rename references) after where
  text := hafter
  ascending := ascending_renamed hascending
  quoted a ha := quoted_of_isWritten (isWritten_of_mem hmark (hsublist (mem_renamed ha).1)) a.2

end Reference

open Reference (renamed edits Rewrites)

/-- **Passes change literals and nothing else.**  Both passes replace the literals of the
references that they give new targets, all at once and each with the quotes it had; and no edit
of theirs is refused.  The literals have to stand one behind the other, and no text on the way
may be too long to be in memory. -/
theorem rewrites_of_passes (code : String) (hmark : code.toList.head? ≠ some '\ufeff') :
    (∀ (p : Mapping.Pass) (folder : Path) (paths : List Path) (skip : List String) (s : Session),
      let found := referencesOf { types := p.types } code
      let changed := renamed code.toList (p.rename? folder)
        (found.filter fun r => !skip.contains r.target)
      found.Pairwise (fun r r' => r.literal.stop ≤ r'.literal.start) →
        (∀ es, es <+: edits code.toList changed →
          Text.byteLength (Text.replaceAll code.toList es) < Text.lengthLimit) →
            (p.run code folder paths skip).Meets s
              (fun m _ => Rewrites code.toList changed m.code.toList) Mapping.RefusedInCopy) ∧
    ∀ (output : Path) (paths : List Path) (s : Session),
      let found := referencesOf {} code
      let changed := renamed code.toList (Relative.rename? s.files output paths)
        (found.filter fun r => Specifier.isRelative r.target)
      found.Pairwise (fun r r' => r.literal.stop ≤ r'.literal.start) →
        (∀ es, es <+: edits code.toList changed →
          Text.byteLength (Text.replaceAll code.toList es) < Text.lengthLimit) →
            (Relative.point code output paths).Meets s
              (fun after _ => Rewrites code.toList changed after.toList)
              fun f => ∀ e, f.fault ≠ .splice e := by
  refine ⟨fun p folder paths skip s hascending hlengths => ?_,
    fun output paths s hascending hlengths => ?_⟩
  · have hascending := hascending.filter (fun r => !skip.contains r.target)
    refine (Mapping.Pass.meets_run p code folder paths skip s rfl hascending hlengths).mono
      (fun m _ hm => ?_) fun _ => id
    exact Reference.rewrites_of _ hmark (fun r hr => (List.mem_filter.1 hr).1) hascending hm.1
  · have hascending := hascending.filter (fun r => Specifier.isRelative r.target)
    refine (Relative.meets_point code output paths s rfl hascending hlengths).mono
      (fun after _ hafter => ?_) fun _ => id
    exact Reference.rewrites_of _ hmark (fun r hr => (List.mem_filter.1 hr).1) hascending hafter

/-- A module that names a package and a script beside it. -/
def libraryImports : String := "import x from \"lib\"\nimport './x'\n"

/-- A pass with a rule for the package. -/
def libraryPass : Mapping.Pass :=
  ⟨⟨[(.literal "lib", .replace "vendor/lib.js")]⟩, ⟨"/p"⟩, false, []⟩

/-- The script beside the output of the module. -/
def librarySession : Session where
  files := { entries := [(["o"], .folder), (["o", "x.js"], .file (.text ""))] }

/-- What the rule changes: the package. -/
def libraryMapped : List (Reference × String) :=
  renamed libraryImports.toList (libraryPass.rename? ⟨"/o"⟩)
    ((referencesOf { types := libraryPass.types } libraryImports).filter fun r =>
      !([] : List String).contains r.target)

theorem libraryMapped_spec :
    (referencesOf { types := libraryPass.types } libraryImports).Pairwise
        (fun r r' => r.literal.stop ≤ r'.literal.start) ∧
      (∀ es ∈ (edits libraryImports.toList libraryMapped).inits,
        Text.byteLength (Text.replaceAll libraryImports.toList es) < Text.lengthLimit) ∧
      libraryMapped.map (·.2) = ["vendor/lib.js"] := by
  decide +kernel

/-- What the other pass changes: the script. -/
def libraryPointed : List (Reference × String) :=
  renamed libraryImports.toList (Relative.rename? librarySession.files ⟨"/o"⟩ [])
    ((referencesOf {} libraryImports).filter fun r => Specifier.isRelative r.target)

theorem libraryPointed_spec :
    (referencesOf {} libraryImports).Pairwise (fun r r' => r.literal.stop ≤ r'.literal.start) ∧
      (∀ es ∈ (edits libraryImports.toList libraryPointed).inits,
        Text.byteLength (Text.replaceAll libraryImports.toList es) < Text.lengthLimit) ∧
      libraryPointed.map (·.2) = ["./x.js"] := by
  decide +kernel

theorem run_libraryImports :
    let mapped : Except Failure Mapping.Mapped × Session :=
      (libraryPass.run libraryImports ⟨"/o"⟩ [] []).run.run librarySession
    let pointed : Except Failure String × Session :=
      (Relative.point libraryImports ⟨"/o"⟩ []).run.run librarySession
    mapped.1.toOption =
        some ⟨"import x from \"vendor/lib.js\"\nimport './x'\n", ["vendor/lib.js"]⟩ ∧
      pointed.1.toOption = some "import x from \"lib\"\nimport './x.js'\n" := by
  decide +kernel

theorem rewrites_of_libraryImports :
    libraryImports.toList.head? ≠ some '\ufeff' ∧
      libraryMapped.map (·.2) = ["vendor/lib.js"] ∧
      Rewrites libraryImports.toList libraryMapped
        "import x from \"vendor/lib.js\"\nimport './x'\n".toList ∧
      libraryPointed.map (·.2) = ["./x.js"] ∧
      Rewrites libraryImports.toList libraryPointed
        "import x from \"lib\"\nimport './x.js'\n".toList := by
  have hmark : libraryImports.toList.head? ≠ some '\ufeff' := by decide
  obtain ⟨hascending, hlengths, hmapped⟩ := libraryMapped_spec
  obtain ⟨hascending', hlengths', hpointed⟩ := libraryPointed_spec
  obtain ⟨hmap, hpoint⟩ := rewrites_of_passes libraryImports hmark
  have hends := hmap libraryPass ⟨"/o"⟩ [] [] librarySession hascending fun es hes =>
    hlengths es ((List.mem_inits _ _).2 hes)
  have hends' := hpoint ⟨"/o"⟩ [] librarySession hascending' fun es hes =>
    hlengths' es ((List.mem_inits _ _).2 hes)
  have hrewrites := hends.good_of_gives (Step.gives_of_run run_libraryImports.1)
  have hrewrites' := hends'.good_of_gives (Step.gives_of_run run_libraryImports.2)
  exact ⟨hmark, hmapped, hrewrites, hpointed, hrewrites'⟩

/-- **A byte order mark moves the literals**: what a pass replaces behind one has no quotes. -/
theorem replaces_code_behind_mark :
    let code := "\ufeffimport x from \"lib\"\n"
    let pass : Mapping.Pass := ⟨⟨[(.literal "m \"", .replace "vendor/lib.js")]⟩, ⟨"/p"⟩, false, []⟩
    let run : Except Failure Mapping.Mapped × Session :=
      (pass.run code ⟨"/o"⟩ [] []).run.run { files := {} }
    run.1.toOption = some ⟨"\ufeffimport x fr'vendor/lib.js'ib\"\n", ["vendor/lib.js"]⟩ ∧
      (referencesOf {} code).map (fun r => Text.slice? code.toList r.literal.start r.literal.stop) =
        [some "om \"l".toList] := by
  decide +kernel

end ElementBuild
