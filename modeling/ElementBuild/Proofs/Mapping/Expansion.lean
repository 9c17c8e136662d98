/-
# Expanding templates

A template of a rule is expanded in two stages: `bracedFrom` writes it anew as a template of the
pattern, and `Pattern.Template.expandFrom` expands that.  What comes out is described by one rule
for dollar signs (`Expands`): one with digits right behind it gives way to a text that depends on
the digits, as many as follow, and all else stands for itself.

Both stages together follow this rule with the digits of any script
(`expands_expandFrom_bracedFrom`).  A number in ASCII digits is that of a capture, and any other
one stands for nothing, since no capture has a name that opens with a digit (`textOf_digits`).
So the rule with ASCII digits, for which a digit of another script is a character like any other,
holds of the templates in which no such digit is counted among those of a dollar sign, and fails
of all others (`substitute_eq_iff`).
-/
import ElementBuild.Mapping.Key
import ElementBuild.Proofs.Search
import Mathlib.Data.List.TakeWhile

namespace ElementBuild
namespace Mapping

open Pattern (Template.expandFrom Template.numberOf Template.number?)

/-! ### The rule for dollar signs -/

/-- A template stands for a text, if a dollar sign with digits behind it stands for the text of
these digits, as many as follow, and all else stands for itself. -/
inductive Expands (isDigit : Char → Bool) (text : List Char → List Char) :
    List Char → List Char → Prop
  | nil : Expands isDigit text [] []
  | char {c : Char} {rest expanded : List Char} (hc : c ≠ '$')
      (h : Expands isDigit text rest expanded) : Expands isDigit text (c :: rest) (c :: expanded)
  | dollar {rest expanded : List Char} (hend : rest.head?.any isDigit = false)
      (h : Expands isDigit text rest expanded) :
      Expands isDigit text ('$' :: rest) ('$' :: expanded)
  | capture {digits rest expanded : List Char} (hne : digits ≠ [])
      (hdigits : ∀ d ∈ digits, isDigit d = true) (hend : rest.head?.any isDigit = false)
      (h : Expands isDigit text rest expanded) :
      Expands isDigit text ('$' :: (digits ++ rest)) (text digits ++ expanded)

/-- What a dollar sign with digits behind it stands for, of which there may be none. -/
def dollarText (text : List Char → List Char) (digits : List Char) : List Char :=
  if digits = [] then ['$'] else text digits

/-- Characters of a kind are all that opens a text if none of them follows. -/
theorem span_append {p : Char → Bool} {xs rest : List Char} (hxs : ∀ x ∈ xs, p x = true)
    (hend : rest.head?.any p = false) :
    (xs ++ rest).takeWhile p = xs ∧ (xs ++ rest).dropWhile p = rest := by
  rw [List.takeWhile_append_of_pos hxs, List.dropWhile_append_of_pos hxs]
  cases rest with
  | nil => exact ⟨List.append_nil xs, rfl⟩
  | cons c cs =>
    have hc : p c = false := hend
    rw [List.takeWhile_cons_of_neg (by simp [hc]), List.dropWhile_cons_of_neg (by simp [hc]),
      List.append_nil]
    exact ⟨rfl, rfl⟩

theorem head?_dropWhile (p : Char → Bool) (cs : List Char) :
    (cs.dropWhile p).head?.any p = false := by
  induction cs with
  | nil => rfl
  | cons c cs ih =>
    by_cases hc : p c = true
    · rw [List.dropWhile_cons_of_pos hc]
      exact ih
    · rw [List.dropWhile_cons_of_neg hc]
      simpa using hc

theorem drop_length_takeWhile (p : Char → Bool) (cs : List Char) :
    cs.drop (cs.takeWhile p).length = cs.dropWhile p := by
  have hcs := List.takeWhile_append_dropWhile (p := p) (l := cs)
  calc cs.drop (cs.takeWhile p).length
      = (cs.takeWhile p ++ cs.dropWhile p).drop (cs.takeWhile p).length := by rw [hcs]
    _ = cs.dropWhile p := List.drop_left

section Rule

variable {isDigit : Char → Bool} {text : List Char → List Char} {c : Char} {cs out : List Char}

theorem expands_char_iff (hc : c ≠ '$') : Expands isDigit text (c :: cs) out ↔
    ∃ later, Expands isDigit text cs later ∧ out = c :: later := by
  constructor
  · intro h
    cases h with
    | char _ h => exact ⟨_, h, rfl⟩
    | dollar => exact absurd rfl hc
    | capture => exact absurd rfl hc
  · rintro ⟨later, h, rfl⟩
    exact .char hc h

theorem expands_dollar_iff : Expands isDigit text ('$' :: cs) out ↔
    ∃ later, Expands isDigit text (cs.dropWhile isDigit) later ∧
      out = dollarText text (cs.takeWhile isDigit) ++ later := by
  constructor
  · intro h
    cases h with
    | char hc => exact absurd rfl hc
    | dollar hend h =>
      have hnone : ∀ d ∈ ([] : List Char), isDigit d = true := nofun
      obtain ⟨htake, hdrop⟩ := span_append hnone hend
      rw [List.nil_append] at htake hdrop
      rw [htake, hdrop]
      exact ⟨_, h, rfl⟩
    | capture hne hdigits hend h =>
      obtain ⟨htake, hdrop⟩ := span_append hdigits hend
      rw [htake, hdrop, dollarText, if_neg hne]
      exact ⟨_, h, rfl⟩
  · rintro ⟨later, h, rfl⟩
    have hend := head?_dropWhile isDigit cs
    have hcs := List.takeWhile_append_dropWhile (p := isDigit) (l := cs)
    by_cases hnone : cs.takeWhile isDigit = []
    · rw [hnone, List.nil_append] at hcs
      rw [hcs] at h hend
      rw [hnone]
      exact .dollar hend h
    · rw [dollarText, if_neg hnone]
      have := Expands.capture hnone (fun d => List.mem_takeWhile_imp) hend h
      rwa [hcs] at this

/-- Characters other than dollar signs stand for themselves. -/
theorem expands_append_iff {kept : List Char} (hkept : '$' ∉ kept) :
    Expands isDigit text (kept ++ cs) out ↔
      ∃ later, Expands isDigit text cs later ∧ out = kept ++ later := by
  induction kept generalizing out with
  | nil => exact ⟨fun h => ⟨out, h, rfl⟩, fun ⟨_, h, hout⟩ => hout ▸ h⟩
  | cons c kept ih =>
    rw [List.mem_cons, not_or] at hkept
    obtain ⟨hc, hkept⟩ := hkept
    rw [List.cons_append, expands_char_iff fun h => hc h.symm]
    constructor
    · rintro ⟨later, h, rfl⟩
      obtain ⟨last, hlast, rfl⟩ := (ih hkept).1 h
      exact ⟨last, hlast, rfl⟩
    · rintro ⟨later, h, rfl⟩
      exact ⟨kept ++ later, (ih hkept).2 ⟨later, h, rfl⟩, rfl⟩

end Rule

/-! ### The two stages -/

theorem bracedFrom_eq (skip : Nat) (cs : List Char) :
    bracedFrom skip cs = bracedFrom 0 (cs.drop skip) := by
  induction skip generalizing cs with
  | zero => rfl
  | succ skip ih =>
    cases cs with
    | nil => rfl
    | cons c cs => exact ih cs

theorem expandFrom_eq (text : List Char → List Char) (skip : Nat) (cs : List Char) :
    Template.expandFrom text skip cs = Template.expandFrom text 0 (cs.drop skip) := by
  induction skip generalizing cs with
  | zero => rfl
  | succ skip ih =>
    cases cs with
    | nil => rfl
    | cons c cs => exact ih cs

theorem bracedFrom_dollar (cs : List Char) :
    bracedFrom 0 ('$' :: cs) =
      dollar (cs.takeWhile Text.isDigit) ++ bracedFrom 0 (cs.dropWhile Text.isDigit) := by
  rw [bracedFrom, if_pos rfl]
  dsimp only
  rw [bracedFrom_eq, drop_length_takeWhile]

theorem bracedFrom_char {c : Char} (hc : c ≠ '$') (cs : List Char) :
    bracedFrom 0 (c :: cs) = c :: bracedFrom 0 cs := by
  rw [bracedFrom, if_neg hc]

theorem name?_braced {name : List Char} (hname : '}' ∉ name) (rest : List Char) :
    Pattern.Template.name? ('{' :: (name ++ '}' :: rest)) = some (name, name.length + 2) := by
  have htake : (name ++ '}' :: rest).takeWhile (· ≠ '}') = name := by
    refine (span_append (fun x hx => ?_) (by simp)).1
    have hx : x ≠ '}' := fun h => hname (h ▸ hx)
    simpa using hx
  rw [Pattern.Template.name?, htake, if_pos (by simp)]

/-- The braces around the digits and the second dollar sign are gone after the second stage. -/
theorem expandFrom_dollar (text : List Char → List Char) {digits : List Char}
    (hdigits : '}' ∉ digits) (rest : List Char) :
    Template.expandFrom text 0 (dollar digits ++ rest) =
      dollarText text digits ++ Template.expandFrom text 0 rest := by
  unfold dollar dollarText
  by_cases hne : digits = []
  · rw [if_pos hne, hne]
    rfl
  · have hshape : '$' :: '{' :: digits ++ ['}'] ++ rest =
        '$' :: '{' :: (digits ++ '}' :: rest) := by
      simp
    have hrest : ('{' :: (digits ++ '}' :: rest)).drop (digits.length + 2) = rest := by simp
    rw [if_neg hne, if_neg (by simpa using hne), hshape, Template.expandFrom, if_neg (by simp),
      if_neg (by simp), name?_braced hdigits]
    dsimp only
    rw [expandFrom_eq, hrest]

theorem expandFrom_char (text : List Char → List Char) {c : Char} (hc : c ≠ '$')
    (cs : List Char) :
    Template.expandFrom text 0 (c :: cs) = c :: Template.expandFrom text 0 cs := by
  rw [Template.expandFrom, if_pos hc]

/-- **The two stages follow the rule** for the digits of any script. -/
theorem expands_expandFrom_bracedFrom (text : List Char → List Char) (template : List Char) :
    Expands Text.isDigit text template (Template.expandFrom text 0 (bracedFrom 0 template)) := by
  induction hn : template.length using Nat.strong_induction_on generalizing template with
  | h n ih =>
    cases template with
    | nil => exact .nil
    | cons c cs =>
      by_cases hc : c = '$'
      · subst hc
        have hdigits : '}' ∉ cs.takeWhile Text.isDigit :=
          fun h => absurd (List.mem_takeWhile_imp h) (by decide)
        have hlength := (List.dropWhile_suffix Text.isDigit (l := cs)).length_le
        rw [bracedFrom_dollar, expandFrom_dollar text hdigits]
        exact expands_dollar_iff.2 ⟨_, ih _ (by simp at hn; omega) _ rfl, rfl⟩
      · rw [bracedFrom_char hc, expandFrom_char text hc]
        exact .char hc (ih _ (by simp at hn; omega) _ rfl)

/-! ### Numbers -/

theorem isDigit_of_isDigit {c : Char} (h : c.isDigit = true) : Text.isDigit c = true := by
  have hlt : c.toNat < 128 := by
    rw [Char.isDigit, Bool.and_eq_true, decide_eq_true_iff, decide_eq_true_iff] at h
    have := h.2
    rw [UInt32.le_iff_toNat_le] at this
    exact this.trans_lt (by decide)
  rw [Text.isDigit, if_pos hlt]
  exact h

/-- The text of a capture of a match, by its number in digits: nothing if the capture does not
exist or took no part. -/
def captured (m : Pattern.Match) (digits : List Char) : List Char :=
  (m.capture? (Template.numberOf digits)).getD []

/-- A text that depends on ASCII digits; digits of which one is from another script stand for
nothing. -/
def ofAscii (text : List Char → List Char) (digits : List Char) : List Char :=
  if digits.all Char.isDigit then text digits else []

/-- **What digits stand for**: the text of the capture that they number, or nothing if one of
them is not an ASCII digit. -/
theorem textOf_digits (p : Pattern.Program) (m : Pattern.Match) {digits : List Char}
    (hne : digits ≠ []) (hdigits : ∀ d ∈ digits, Text.isDigit d = true) :
    p.textOf m digits = ofAscii (captured m) digits := by
  obtain ⟨d, ds, rfl⟩ := List.exists_cons_of_ne_nil hne
  have hd : Text.isDigit d = true := hdigits d (List.mem_cons_self ..)
  have hplus : d ≠ '+' := by
    rintro rfl
    exact absurd hd (by decide)
  have hnumber : Template.number? (d :: ds) =
      if (d :: ds).all Char.isDigit then some (Template.numberOf (d :: ds)) else none := by
    unfold Template.number?
    split
    · rename_i cs heq
      exact absurd (List.cons.inj heq).1 hplus
    · simp
  have hindex : p.index? (d :: ds) = none := by
    rw [Pattern.Program.index?, Option.map_eq_none_iff, List.find?_eq_none]
    intro name _ heq
    have hopens := name.1.opens
    rw [eq_of_beq heq] at hopens
    exact absurd (hd.symm.trans hopens) (by decide)
  rw [Pattern.Program.textOf, hnumber, hindex, ofAscii]
  split <;> rfl

/-! ### Digits of other scripts -/

/-- A digit of another script is among the digits behind a dollar sign. -/
def HasForeignDigit (template : List Char) : Prop :=
  ∃ before digits c after, template = before ++ '$' :: (digits ++ c :: after) ∧
    (∀ d ∈ digits, Text.isDigit d = true) ∧ Text.isDigit c = true ∧ c.isDigit = false

theorem not_hasForeignDigit_nil : ¬ HasForeignDigit [] := by
  rintro ⟨before, digits, c, after, h, -⟩
  simp at h

/-- A template without digits of other scripts has none behind a dollar sign. -/
theorem not_hasForeignDigit_of_ascii {template : List Char}
    (h : template.all (fun c => !Text.isDigit c || c.isDigit) = true) :
    ¬ HasForeignDigit template := by
  rintro ⟨before, digits, c, after, rfl, -, hc, hforeign⟩
  have hdigit := List.all_eq_true.1 h c (by simp)
  rw [hc, hforeign] at hdigit
  cases hdigit

theorem hasForeignDigit_char {c : Char} (hc : c ≠ '$') {cs : List Char} :
    HasForeignDigit (c :: cs) ↔ HasForeignDigit cs := by
  constructor
  · rintro ⟨before, digits, d, after, h, hdigits⟩
    cases before with
    | nil => exact absurd (List.cons.inj h).1 hc
    | cons b before => exact ⟨before, digits, d, after, (List.cons.inj h).2, hdigits⟩
  · rintro ⟨before, digits, d, after, rfl, hdigits⟩
    exact ⟨c :: before, digits, d, after, rfl, hdigits⟩

theorem hasForeignDigit_dollar {cs : List Char} :
    HasForeignDigit ('$' :: cs) ↔
      (cs.takeWhile Text.isDigit).all Char.isDigit = false ∨
        HasForeignDigit (cs.dropWhile Text.isDigit) := by
  constructor
  · rintro ⟨before, digits, d, after, h, hdigits, hd, hforeign⟩
    cases before with
    | nil =>
      left
      obtain rfl := (List.cons.inj h).2
      rw [List.takeWhile_append_of_pos hdigits, List.takeWhile_cons_of_pos hd]
      exact List.all_eq_false.2 ⟨d, by simp, by simp [hforeign]⟩
    | cons b before =>
      right
      have hcs : cs = before ++ '$' :: (digits ++ d :: after) := (List.cons.inj h).2
      have hstop : Text.isDigit '$' = false := by decide
      rw [hcs, List.dropWhile_append]
      split
      · rw [List.dropWhile_cons_of_neg (by simp [hstop])]
        exact ⟨[], digits, d, after, rfl, hdigits, hd, hforeign⟩
      · exact ⟨_, digits, d, after, rfl, hdigits, hd, hforeign⟩
  · have hcs := List.takeWhile_append_dropWhile (p := Text.isDigit) (l := cs)
    rintro (h | ⟨before, digits, d, after, h, hdigits⟩)
    · obtain ⟨d, hmem, hforeign⟩ := List.all_eq_false.1 h
      obtain ⟨digits, more, hsplit⟩ := List.append_of_mem hmem
      have hall : ∀ x ∈ digits ++ d :: more, Text.isDigit x = true :=
        fun x hx => List.mem_takeWhile_imp (hsplit ▸ hx)
      refine ⟨[], digits, d, more ++ cs.dropWhile Text.isDigit, ?_, ?_, ?_, by simpa using hforeign⟩
      · have hparts : digits ++ d :: (more ++ cs.dropWhile Text.isDigit) = cs := by
          rw [← List.cons_append, ← List.append_assoc, ← hsplit, hcs]
        rw [hparts, List.nil_append]
      · exact fun x hx => hall x (List.mem_append_left _ hx)
      · exact hall d (by simp)
    · refine ⟨'$' :: (cs.takeWhile Text.isDigit ++ before), digits, d, after, ?_, hdigits⟩
      rw [List.cons_append, List.append_assoc, ← h, hcs]

/-- The ASCII digits that open a text are the first of its digits of any script; those that are
left of these digits are left of the text, too. -/
theorem span_isDigit (cs : List Char) :
    cs.takeWhile Char.isDigit = (cs.takeWhile Text.isDigit).takeWhile Char.isDigit ∧
      cs.dropWhile Char.isDigit =
        (cs.takeWhile Text.isDigit).dropWhile Char.isDigit ++ cs.dropWhile Text.isDigit := by
  induction cs with
  | nil => exact ⟨rfl, rfl⟩
  | cons c cs ih =>
    by_cases hascii : c.isDigit = true
    · have hc : Text.isDigit c = true := isDigit_of_isDigit hascii
      simpa [hascii, hc] using ih
    · by_cases hc : Text.isDigit c = true
      · simp [hascii, hc]
      · simp [hascii, hc]

/-- One number under both rules.  If a digit of another script is among its digits, the rule with
ASCII digits keeps that digit, and the other one gives nothing at all. -/
theorem number_eq_iff (text : List Char → List Char) (digits : List Char) {later later' : List Char}
    (hle : later.length ≤ later'.length) :
    let out := dollarText (ofAscii text) digits ++ later
    let out' := dollarText text (digits.takeWhile Char.isDigit) ++
      (digits.dropWhile Char.isDigit ++ later')
    out.length ≤ out'.length ∧
      (out = out' ↔ digits.all Char.isDigit = true ∧ later = later') := by
  intro out out'
  cases hall : digits.all Char.isDigit with
  | true =>
    have hascii := List.all_eq_true.1 hall
    have hsame : dollarText (ofAscii text) digits = dollarText text digits := by
      rw [dollarText, dollarText, ofAscii, hall, if_pos rfl]
    have hout : out = dollarText text digits ++ later := by rw [← hsame]
    have hout' : out' = dollarText text digits ++ later' := by
      unfold out'
      rw [List.takeWhile_eq_self_iff.2 hascii, List.dropWhile_eq_nil_iff.2 hascii, List.nil_append]
    rw [hout, hout', List.append_cancel_left_eq]
    exact ⟨by simpa using hle, (and_iff_right rfl).symm⟩
  | false =>
    obtain ⟨d, hd, hforeign⟩ := List.all_eq_false.1 hall
    have hne : digits ≠ [] := List.ne_nil_of_mem hd
    have hkept : digits.dropWhile Char.isDigit ≠ [] := fun hnil =>
      hforeign (List.dropWhile_eq_nil_iff.1 hnil d hd)
    have hout : out = later := by
      unfold out
      rw [dollarText, if_neg hne, ofAscii, hall, if_neg (by simp), List.nil_append]
    have hlt : out.length < out'.length := by
      have hpos := List.length_pos_iff.2 hkept
      rw [hout, List.length_append, List.length_append]
      omega
    exact ⟨hlt.le, iff_of_false (fun h => absurd (congrArg List.length h) hlt.ne) (by simp)⟩

/-- The rule with ASCII digits gives at least as much as the one with the digits of any script,
for which a number with another digit stands for nothing.  They give the same just if there is no
such number. -/
theorem expands_eq_iff {text : List Char → List Char} {template out out' : List Char}
    (h : Expands Text.isDigit (ofAscii text) template out)
    (h' : Expands Char.isDigit text template out') :
    out.length ≤ out'.length ∧ (out = out' ↔ ¬ HasForeignDigit template) := by
  induction hn : template.length using Nat.strong_induction_on generalizing template out out' with
  | h n ih =>
    cases template with
    | nil =>
      cases h
      cases h'
      exact ⟨le_rfl, iff_of_true rfl not_hasForeignDigit_nil⟩
    | cons c cs =>
      rw [List.length_cons] at hn
      by_cases hc : c = '$'
      · subst hc
        obtain ⟨later, hlater, rfl⟩ := expands_dollar_iff.1 h
        obtain ⟨rest, hrest, rfl⟩ := expands_dollar_iff.1 h'
        obtain ⟨htake, hdrop⟩ := span_isDigit cs
        -- the digits that the rule with ASCII digits keeps
        have hkept : '$' ∉ (cs.takeWhile Text.isDigit).dropWhile Char.isDigit := fun h =>
          absurd (List.mem_takeWhile_imp ((List.dropWhile_suffix _).subset h)) (by decide)
        rw [hdrop] at hrest
        obtain ⟨later', hlater', rfl⟩ := (expands_append_iff hkept).1 hrest
        have hlength := (List.dropWhile_suffix Text.isDigit (l := cs)).length_le
        obtain ⟨hle, hiff⟩ := ih _ (by omega) hlater hlater' rfl
        obtain ⟨hle, hnumber⟩ := number_eq_iff text (cs.takeWhile Text.isDigit) hle
        rw [htake, hasForeignDigit_dollar, not_or, Bool.not_eq_false, ← hiff]
        exact ⟨hle, hnumber⟩
      · obtain ⟨later, hlater, rfl⟩ := (expands_char_iff hc).1 h
        obtain ⟨later', hlater', rfl⟩ := (expands_char_iff hc).1 h'
        obtain ⟨hle, hiff⟩ := ih _ (by omega) hlater hlater' rfl
        rw [hasForeignDigit_char hc, ← hiff]
        simpa using hle

/-! ### Substitution -/

theorem Expands.congr {isDigit : Char → Bool} {text text' : List Char → List Char}
    (htext : ∀ digits, digits ≠ [] → (∀ d ∈ digits, isDigit d = true) → text digits = text' digits)
    {template out : List Char} (h : Expands isDigit text template out) :
    Expands isDigit text' template out := by
  induction h with
  | nil => exact .nil
  | char hc _ ih => exact .char hc ih
  | dollar hend _ ih => exact .dollar hend ih
  | capture hne hdigits hend _ ih =>
    rw [htext _ hne hdigits]
    exact .capture hne hdigits hend ih

/-- The rule says of every template what it stands for. -/
theorem exists_expands (isDigit : Char → Bool) (text : List Char → List Char)
    (template : List Char) : ∃ out, Expands isDigit text template out := by
  induction hn : template.length using Nat.strong_induction_on generalizing template with
  | h n ih =>
    cases template with
    | nil => exact ⟨_, .nil⟩
    | cons c cs =>
      by_cases hc : c = '$'
      · subst hc
        have hlength := (List.dropWhile_suffix isDigit (l := cs)).length_le
        obtain ⟨later, h⟩ := ih _ (by simp at hn; omega) (cs.dropWhile isDigit) rfl
        exact ⟨_, expands_dollar_iff.2 ⟨later, h, rfl⟩⟩
      · obtain ⟨later, h⟩ := ih _ (by simp at hn; omega) cs rfl
        exact ⟨_, .char hc h⟩

/-- **The first match gives way to the expanded template.**  Every dollar sign with digits of any
script behind it, as many as follow, stands for the text of the capture that they number, or for
nothing if one of them is not an ASCII digit; all else stands for itself.  This is what the rule
with ASCII digits says if and only if no other digit is among those of a dollar sign. -/
theorem substitute_eq_iff {p : Pattern.Program} {target template : String} {m : Pattern.Match}
    (hm : p.find? target.toList = some m) :
    (∃ out, Expands Text.isDigit (ofAscii (captured m)) template.toList out ∧
      (Key.pattern p).substitute target template = String.ofList (m.before ++ out ++ m.after)) ∧
    (∃ out, Expands Char.isDigit (captured m) template.toList out) ∧
    ∀ out, Expands Char.isDigit (captured m) template.toList out →
      ((Key.pattern p).substitute target template = String.ofList (m.before ++ out ++ m.after) ↔
        ¬ HasForeignDigit template.toList) := by
  have hsubstitute : (Key.pattern p).substitute target template = String.ofList (m.before ++
      Template.expandFrom (p.textOf m) 0 (bracedFrom 0 template.toList) ++ m.after) := by
    rw [Key.substitute, Pattern.Program.replace, hm]
  have hexpands := (expands_expandFrom_bracedFrom (p.textOf m) template.toList).congr
    fun digits => textOf_digits p m
  refine ⟨⟨_, hexpands, hsubstitute⟩, exists_expands _ _ _, fun out hout => ?_⟩
  rw [hsubstitute, String.ofList_inj, List.append_cancel_right_eq, List.append_cancel_left_eq]
  exact (expands_eq_iff hexpands hout).2

/-- A key that captures the name of an icon, and what it finds. -/
theorem exists_iconKey : ∃ p m, Key.ofText? "/^icons\\/(.+)$/" = some (.pattern p) ∧
    p.find? "icons/bullet".toList = some m ∧ m.before = [] ∧ m.after = [] ∧
      m.capture? 1 = some "bullet".toList := by
  have hkey : Key.patternText? "/^icons\\/(.+)$/" = some "^icons/(.+)$" := by decide +kernel
  have hfound : ((Pattern.compile? "^icons/(.+)$").bind (·.search? "icons/bullet".toList)).map
      (fun m => (m.before, m.after, m.capture? 1)) = some ([], [], some "bullet".toList) := by
    decide +kernel
  obtain ⟨m, hm, hparts⟩ := Option.map_eq_some_iff.1 hfound
  obtain ⟨p, hp, hm⟩ := Option.bind_eq_some_iff.1 hm
  obtain ⟨hbefore, hparts⟩ := Prod.mk.inj hparts
  obtain ⟨hafter, hcapture⟩ := Prod.mk.inj hparts
  refine ⟨p, m, ?_, (p.find?_eq_search? _).trans hm, hbefore, hafter, hcapture⟩
  rw [Key.ofText?, hkey]
  dsimp only
  rw [hp, Option.map_some]

theorem substitute_of_iconKey : ∃ p m, Key.ofText? "/^icons\\/(.+)$/" = some (.pattern p) ∧
    p.find? "icons/bullet".toList = some m ∧
      (Key.pattern p).substitute "icons/bullet" "./icons/$1_$v2.js" = "./icons/bullet_$v2.js" := by
  obtain ⟨p, m, hkey, hm, hbefore, hafter, hcapture⟩ := exists_iconKey
  have hcaptured : captured m ['1'] = "bullet".toList := by
    rw [captured, show Template.numberOf ['1'] = 1 from rfl, hcapture]
    rfl
  have hlast : Expands Char.isDigit (captured m) ("v2.js".toList ++ []) ("v2.js".toList ++ []) :=
    (expands_append_iff (by decide)).2 ⟨[], .nil, rfl⟩
  have hlater : Expands Char.isDigit (captured m) "_$v2.js".toList "_$v2.js".toList :=
    .char (by decide) (.dollar rfl hlast)
  have hnumber : Expands Char.isDigit (captured m) ('$' :: (['1'] ++ "_$v2.js".toList))
      (captured m ['1'] ++ "_$v2.js".toList) :=
    .capture (by simp) (by simp) rfl hlater
  have hout : Expands Char.isDigit (captured m)
      ("./icons/".toList ++ '$' :: (['1'] ++ "_$v2.js".toList))
      ("./icons/".toList ++ (captured m ['1'] ++ "_$v2.js".toList)) :=
    (expands_append_iff (by decide)).2 ⟨_, hnumber, rfl⟩
  have hforeign : ¬ HasForeignDigit "./icons/$1_$v2.js".toList :=
    not_hasForeignDigit_of_ascii (by decide)
  have htemplate : "./icons/".toList ++ '$' :: (['1'] ++ "_$v2.js".toList) =
      "./icons/$1_$v2.js".toList := by
    decide
  refine ⟨p, m, hkey, hm, ?_⟩
  rw [((substitute_eq_iff hm).2.2 _ (htemplate ▸ hout)).2 hforeign, hbefore, hafter, hcaptured]
  decide

/-- **A digit of another script behind a dollar sign vanishes together with it.** -/
theorem substitute_foreign_digit : ∃ p m,
    Key.ofText? "/^icons\\/(.+)$/" = some (.pattern p) ∧
      p.find? "icons/bullet".toList = some m ∧
        Expands Char.isDigit (captured m) "$\u0661".toList "$\u0661".toList ∧
          (Key.pattern p).substitute "icons/bullet" "$\u0661" = "" ∧
            "" ≠ String.ofList (m.before ++ "$\u0661".toList ++ m.after) := by
  obtain ⟨p, m, hkey, hm, hbefore, hafter, hcapture⟩ := exists_iconKey
  have hexpands : Expands Char.isDigit (captured m) "$\u0661".toList "$\u0661".toList :=
    .dollar (by decide) (.char (by decide) .nil)
  refine ⟨p, m, hkey, hm, hexpands, ?_, ?_⟩
  · have hdigits : p.textOf m ['\u0661'] = [] :=
      textOf_digits p m (by simp) (List.forall_mem_singleton.2 (by decide))
    have hbraced : bracedFrom 0 "$\u0661".toList = dollar ['\u0661'] ++ [] := by decide
    have hnone : Template.expandFrom (p.textOf m) 0 (bracedFrom 0 "$\u0661".toList) = [] := by
      rw [hbraced, expandFrom_dollar _ (by decide), dollarText, if_neg (by simp), hdigits]
      rfl
    rw [Key.substitute, Pattern.Program.replace, hm]
    dsimp only
    rw [hnone, hbefore, hafter]
    rfl
  · rw [hbefore, hafter]
    decide

end Mapping
end ElementBuild
