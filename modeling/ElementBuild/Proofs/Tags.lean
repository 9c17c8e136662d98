/-
# Tags of elements

A folder that names an element has two groups or more of ASCII letters and digits, joined by
single underscores (`isName_iff`).  Case rules beyond ASCII do not bear on it, so its tag is the
name letter by letter (`toList_tag`): it holds a hyphen, and nothing but small letters, digits
and hyphens.  But the first group may open with a digit, and so does the tag then, which no
element can be defined under (`isDefinable_tag_iff`).
-/
import ElementBuild.Element.Name
import ElementBuild.Proofs.Letters
import ElementBuild.Proofs.Split

namespace ElementBuild
namespace Element

/-- A character of a tag: a small ASCII letter, a digit or a hyphen. -/
def IsTagChar (c : Char) : Prop := c.isLower = true ∨ c.isDigit = true ∨ c = '-'

instance (c : Char) : Decidable (IsTagChar c) := inferInstanceAs (Decidable (_ ∨ _))

/-- A text opens with a character of a class. -/
def OpensWith (p : Char → Bool) (s : String) : Prop := ∃ c, s.toList.head? = some c ∧ p c = true

/-- A tag that an element can be defined under. -/
structure IsDefinable (tag : String) : Prop where
  opens : OpensWith Char.isLower tag
  hyphen : '-' ∈ tag.toList
  plain : ∀ c ∈ tag.toList, IsTagChar c

/-! ### Names of folders -/

theorem groups_eq_splitOn (cs : List Char) : groups cs = cs.splitOn '_' :=
  eq_splitOn rfl (fun cs => by rw [groups, if_pos rfl])
    (fun c cs g gs hc h => by rw [groups, if_neg hc, h]) cs

/-- A name of an element is groups of letters and digits with single underscores between. -/
theorem isName_iff {folder : String} : isName folder = true ↔
    ∃ gs, folder.toList = ['_'].intercalate gs ∧ 2 ≤ gs.length ∧
      ∀ g ∈ gs, g ≠ [] ∧ ∀ c ∈ g, Text.isAsciiAlphanumeric c = true := by
  have hspec : isName folder = true ↔ 2 ≤ (groups folder.toList).length ∧
      ∀ g ∈ groups folder.toList, g ≠ [] ∧ ∀ c ∈ g, Text.isAsciiAlphanumeric c = true := by
    simp [isName]
  rw [hspec, groups_eq_splitOn]
  constructor
  · exact fun h => ⟨_, (List.intercalate_splitOn '_').symm, h⟩
  · rintro ⟨gs, heq, hlength, hgs⟩
    have hnone : ∀ g ∈ gs, '_' ∉ g := fun g hg hmem => absurd ((hgs g hg).2 _ hmem) (by decide)
    have hne : gs ≠ [] := by
      rintro rfl
      simp at hlength
    rw [heq, List.splitOn_intercalate '_' hnone hne]
    exact ⟨hlength, hgs⟩

theorem mem_of_mem_intercalate {sep : List Char} {gs : List (List Char)} {c : Char}
    (h : c ∈ sep.intercalate gs) : c ∈ sep ∨ ∃ g ∈ gs, c ∈ g := by
  induction gs with
  | nil => simp at h
  | cons g gs ih =>
    cases gs with
    | nil => exact .inr ⟨g, by simp, by simpa using h⟩
    | cons next rest =>
      rw [List.intercalate_cons_cons, List.append_assoc, List.mem_append, List.mem_append] at h
      rcases h with h | h | h
      · exact .inr ⟨g, by simp, h⟩
      · exact .inl h
      · exact (ih h).imp_right fun ⟨g', hg', hc⟩ => ⟨g', List.mem_cons_of_mem g hg', hc⟩

/-- It opens with a letter or digit, holds an underscore, and has no other characters. -/
theorem exists_of_isName {folder : String} (h : isName folder = true) :
    (∃ c cs, folder.toList = c :: cs ∧ Text.isAsciiAlphanumeric c = true) ∧
      '_' ∈ folder.toList ∧
      ∀ c ∈ folder.toList, c = '_' ∨ Text.isAsciiAlphanumeric c = true := by
  obtain ⟨gs, heq, hlength, hgs⟩ := isName_iff.1 h
  obtain _ | ⟨first, _ | ⟨second, rest⟩⟩ := gs
  · simp at hlength
  · simp at hlength
  obtain ⟨c, cs, rfl⟩ := List.exists_cons_of_ne_nil (hgs first (by simp)).1
  rw [heq]
  refine ⟨?_, ?_, fun d hd => ?_⟩
  · rw [List.intercalate_cons_cons]
    exact ⟨c, _, rfl, (hgs (c :: cs) (by simp)).2 c (by simp)⟩
  · rw [List.intercalate_cons_cons]
    simp
  · rcases mem_of_mem_intercalate hd with hd | ⟨g, hg, hd⟩
    · exact .inl (List.mem_singleton.1 hd)
    · exact .inr ((hgs g hg).2 d hd)

/-! ### Tags -/

/-- What becomes of a character of a name. -/
def tagChar (c : Char) : Char := if c = '_' then '-' else c.toLower

/-- Lower case, character by character, of a text in ASCII. -/
theorem lowercaseAfter_of_ascii {cs : List Char} (h : ∀ c ∈ cs, c.toNat < 128)
    (before : List Char) : Text.lowercaseAfter before cs = cs.map Char.toLower := by
  induction cs generalizing before with
  | nil => rfl
  | cons c cs ih =>
    obtain ⟨hc, hcs⟩ := List.forall_mem_cons.1 h
    have hsigma : c ≠ 'Σ' := fun heq => absurd (heq ▸ hc) (by decide)
    rw [Text.lowercaseAfter, if_neg hsigma, Text.lowerChar, if_pos hc, ih hcs]
    rfl

theorem isAscii_of_alphanumeric {c : Char} (h : Text.isAsciiAlphanumeric c = true) :
    c.toNat < 128 := by
  change ((decide (c.val ≥ 'A'.val ∧ c.val ≤ 'Z'.val) ||
    decide (c.val ≥ 'a'.val) && decide (c.val ≤ 'z'.val)) ||
    decide (c.val ≥ '0'.val) && decide (c.val ≤ '9'.val)) = true at h
  simp only [Bool.or_eq_true, Bool.and_eq_true, decide_eq_true_eq, UInt32.le_iff_toNat_le,
    ge_iff_le] at h
  change ((65 ≤ c.toNat ∧ c.toNat ≤ 90) ∨ (97 ≤ c.toNat ∧ c.toNat ≤ 122)) ∨
    (48 ≤ c.toNat ∧ c.toNat ≤ 57) at h
  omega

/-- A letter becomes a small letter, and a digit stays a digit. -/
theorem tagChar_of_alphanumeric {c : Char} (h : Text.isAsciiAlphanumeric c = true) :
    IsTagChar (tagChar c) ∧ (tagChar c).isLower = c.isAlpha := by
  refine Text.of_ascii (p := fun c => Text.isAsciiAlphanumeric c = true →
    IsTagChar (tagChar c) ∧ (tagChar c).isLower = c.isAlpha) ?_ (isAscii_of_alphanumeric h) h
  decide +kernel

variable {folder : String}

/-- The tag is the name, character by character. -/
theorem toList_tag (h : isName folder = true) :
    (tag folder).toList = folder.toList.map tagChar := by
  have hascii : ∀ c ∈ folder.toList.map (fun c => if c = '_' then '-' else c), c.toNat < 128 := by
    intro c hc
    obtain ⟨d, hd, rfl⟩ := List.mem_map.1 hc
    rcases (exists_of_isName h).2.2 d hd with rfl | hd
    · decide
    · split
      · decide
      · exact isAscii_of_alphanumeric hd
  rw [tag, Text.lowercase, String.toList_ofList, String.toList_ofList,
    lowercaseAfter_of_ascii hascii, List.map_map]
  refine List.map_congr_left fun c _ => ?_
  rw [Function.comp_apply, tagChar]
  split
  · rfl
  · rfl

/-- **What the tag of a name is made of.**  It holds a hyphen, and nothing but small letters,
digits and hyphens.  An element can be defined under it if and only if the name opens with a
letter; for otherwise the tag opens with a digit. -/
theorem isDefinable_tag_iff (h : isName folder = true) :
    '-' ∈ (tag folder).toList ∧ (∀ c ∈ (tag folder).toList, IsTagChar c) ∧
      (IsDefinable (tag folder) ↔ OpensWith Char.isAlpha folder) := by
  obtain ⟨⟨first, rest, hfirst, hopens⟩, hunderscore, hall⟩ := exists_of_isName h
  have hhyphen : '-' ∈ (tag folder).toList := by
    rw [toList_tag h]
    exact List.mem_map_of_mem (f := tagChar) hunderscore
  have hplain : ∀ c ∈ (tag folder).toList, IsTagChar c := by
    intro c hc
    rw [toList_tag h] at hc
    obtain ⟨d, hd, rfl⟩ := List.mem_map.1 hc
    rcases hall d hd with rfl | hd
    · decide
    · exact (tagChar_of_alphanumeric hd).1
  have hletter : OpensWith Char.isLower (tag folder) ↔ OpensWith Char.isAlpha folder := by
    simp [OpensWith, toList_tag h, hfirst, (tagChar_of_alphanumeric hopens).2]
  exact ⟨hhyphen, hplain, fun htag => hletter.1 htag.opens,
    fun hname => ⟨hletter.2 hname, hhyphen, hplain⟩⟩

/-- A name with capital letters and digits. -/
theorem isDefinable_of_capitalName : isName "The_Best_component2" = true ∧
    tag "The_Best_component2" = "the-best-component2" ∧
    IsDefinable (tag "The_Best_component2") := by
  have hname : isName "The_Best_component2" = true := by decide +kernel
  exact ⟨hname, by decide +kernel, (isDefinable_tag_iff hname).2.2.2 ⟨'T', rfl, rfl⟩⟩

/-- **A name may open with a digit**, and no element can be defined under its tag. -/
theorem not_isDefinable_of_digitName : isName "1_a" = true ∧ tag "1_a" = "1-a" ∧
    ¬ IsDefinable (tag "1_a") := by
  have htag : tag "1_a" = "1-a" := by decide +kernel
  refine ⟨by decide +kernel, htag, fun hdefinable => ?_⟩
  obtain ⟨c, hhead, hlower⟩ := htag ▸ hdefinable.opens
  obtain rfl : '1' = c := Option.some.inj hhead
  exact absurd hlower (by decide)

end Element
end ElementBuild
