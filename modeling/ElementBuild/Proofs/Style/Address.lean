/-
# How a local address is written

The scan of a stylesheet takes a text for a local address if it opens with one
(`localAddress?_eq_some_iff`): `url(`, blanks, a quote or none, `./` and the path, which goes on
as far as no quote and no `)` stands, and then `)`, or a quote and blanks before it.  A blank
ends the path as little as a `(` does, so it may hold what opens another address.
-/
import ElementBuild.Style.Rebase
import Mathlib.Data.List.Infix
import Mathlib.Data.List.TakeDrop
import Mathlib.Data.List.TakeWhile

namespace ElementBuild
namespace Style

/-- A character of a path in an address: neither a quote nor a parenthesis that ends it. -/
def IsAddressChar (ch : Char) : Prop := isQuote ch = false ∧ ch ≠ ')'

instance (ch : Char) : Decidable (IsAddressChar ch) := inferInstanceAs (Decidable (_ ∧ _))

/-- All characters are blanks. -/
def AreBlank (cs : List Char) : Prop := ∀ c ∈ cs, Text.isBlank c = true

/-- A path below one of the folders that hold files of a component. -/
def IsLocalPath (path : List Char) : Prop :=
  ∃ folder ∈ ["assets/", "styles/"], ∃ name, name ≠ [] ∧ (∀ c ∈ name, IsAddressChar c) ∧
    path = folder.toList ++ name

/-- What stands between a path and the parenthesis that closes the address: nothing, or a quote
and blanks. -/
def IsEnding (cs : List Char) : Prop :=
  cs = [] ∨ ∃ q blanks, cs = q :: blanks ∧ isQuote q = true ∧ AreBlank blanks

/-- A text opens with a local address, and this is the rest of it. -/
structure Opens (a : LocalAddress) (rest cs : List Char) : Prop where
  quote : ∀ q ∈ a.quote, isQuote q = true
  path : IsLocalPath a.path
  text : ∃ blanks ending, AreBlank blanks ∧ IsEnding ending ∧
    cs = "url(".toList ++ (blanks ++ (a.quote.toList ++ ("./".toList ++
      (a.path ++ (ending ++ ')' :: rest)))))

theorem quote_stops {q : Char} (hq : isQuote q = true) (rest : List Char) :
    ∀ c ∈ (q :: rest).head?, ¬ IsAddressChar c := by
  intro c hc haddress
  obtain rfl : q = c := Option.some.inj hc
  exact Bool.false_ne_true (haddress.1.symm.trans hq)

/-- A path does not go on behind its end. -/
theorem IsEnding.stops {ending : List Char} (h : IsEnding ending) (rest : List Char) :
    ∀ c ∈ (ending ++ ')' :: rest).head?, ¬ IsAddressChar c := by
  rcases h with rfl | ⟨q, blanks, rfl, hq, -⟩
  · exact fun c hc haddress => haddress.2 (Option.some.inj hc).symm
  · exact quote_stops hq _

theorem isAddressChar_iff {ch : Char} :
    IsAddressChar ch ↔ (!(isQuote ch || ch == ')')) = true := by
  simp [IsAddressChar]

theorem quote?_spec (cs : List Char) :
    cs = (quote? cs).1.toList ++ (quote? cs).2 ∧ (∀ q ∈ (quote? cs).1, isQuote q = true) := by
  cases cs with
  | nil => exact ⟨rfl, by simp [quote?]⟩
  | cons c cs =>
    rw [quote?]
    split
    · exact ⟨rfl, by simpa using ‹_›⟩
    · exact ⟨rfl, by simp⟩

theorem quote?_append {quote : Option Char} (hquote : ∀ q ∈ quote, isQuote q = true)
    {cs : List Char} (hcs : ∀ c ∈ cs.head?, isQuote c = false) :
    quote? (quote.toList ++ cs) = (quote, cs) := by
  cases quote with
  | some q => exact if_pos (hquote q rfl)
  | none =>
    cases cs with
    | nil => rfl
    | cons c cs => exact if_neg (by simp [hcs c rfl])

theorem isBlank_of_isQuote {c : Char} (h : isQuote c = true) : Text.isBlank c = false := by
  rw [isQuote, Bool.or_eq_true, beq_iff_eq, beq_iff_eq] at h
  rcases h with rfl | rfl <;> decide

theorem isAddressChar_of_isBlank {c : Char} (h : Text.isBlank c = true) : IsAddressChar c := by
  refine ⟨Bool.eq_false_iff.2 fun hquote => ?_, ?_⟩
  · exact Bool.false_ne_true ((isBlank_of_isQuote hquote).symm.trans h)
  · rintro rfl
    exact absurd h (by decide)

theorem span_append {name rest : List Char} (hname : ∀ c ∈ name, IsAddressChar c)
    (hrest : ∀ c ∈ rest.head?, ¬ IsAddressChar c) :
    (name ++ rest).span (fun c => !(isQuote c || c == ')')) = (name, rest) := by
  have hall : ∀ c ∈ name, (!(isQuote c || c == ')')) = true :=
    fun c hc => isAddressChar_iff.1 (hname c hc)
  rw [List.span_eq_takeWhile_dropWhile, List.takeWhile_append_of_pos hall,
    List.dropWhile_append_of_pos hall]
  cases rest with
  | nil => simp
  | cons c rest =>
    have hc : (!(isQuote c || c == ')')) = false :=
      Bool.eq_false_iff.2 (mt isAddressChar_iff.2 (hrest c rfl))
    rw [List.takeWhile_cons, List.dropWhile_cons, hc]
    simp

theorem localPath?_eq_some_iff {cs path rest : List Char} :
    localPath? cs = some (path, rest) ↔
      IsLocalPath path ∧ cs = path ++ rest ∧ ∀ c ∈ rest.head?, ¬ IsAddressChar c := by
  constructor
  · intro h
    obtain ⟨folder, hfolder, h⟩ := Option.bind_eq_some_iff.1 h
    have hprefix : folder.toList.isPrefixOf cs = true :=
      List.find?_some (p := fun f : String => f.toList.isPrefixOf cs) hfolder
    obtain ⟨after, rfl⟩ := List.isPrefixOf_iff_prefix.1 hprefix
    rw [← String.length_toList, List.drop_left, List.span_eq_takeWhile_dropWhile] at h
    dsimp only at h
    split at h
    · cases h
    rename_i hne
    cases h
    refine ⟨⟨folder, List.mem_of_find?_eq_some hfolder, _, by simpa using hne, ?_, rfl⟩, ?_, ?_⟩
    · exact fun c hc => isAddressChar_iff.2
        (List.mem_takeWhile_imp (p := fun c => !(isQuote c || c == ')')) hc)
    · rw [List.append_assoc, List.takeWhile_append_dropWhile]
    · intro c hc
      have hstop := List.head?_dropWhile_not (fun c => !(isQuote c || c == ')')) after
      rw [hc] at hstop
      exact fun haddress => Bool.false_ne_true (hstop.symm.trans (isAddressChar_iff.1 haddress))
  · rintro ⟨⟨folder, hfolder, name, hne, hname, rfl⟩, rfl, hrest⟩
    have hfound : (["assets/", "styles/"].find? fun f => f.toList.isPrefixOf
        (folder.toList ++ name ++ rest)) = some folder := by
      have hprefix : folder.toList.isPrefixOf (folder.toList ++ name ++ rest) = true :=
        List.isPrefixOf_iff_prefix.2 (List.append_assoc .. ▸ List.prefix_append _ _)
      rcases List.mem_cons.1 hfolder with rfl | hfolder
      · exact List.find?_cons_of_pos hprefix
      · obtain rfl := List.mem_singleton.1 hfolder
        rfl
    rw [localPath?]
    dsimp only
    rw [hfound, Option.bind_some, List.append_assoc, ← String.length_toList, List.drop_left,
      span_append hname hrest]
    exact if_neg (by simpa using hne)

theorem dropWhile_blanks {blanks cs : List Char} (hblanks : AreBlank blanks)
    (hcs : ∀ c ∈ cs.head?, Text.isBlank c = false) :
    (blanks ++ cs).dropWhile Text.isBlank = cs := by
  rw [List.dropWhile_append_of_pos hblanks]
  cases cs with
  | nil => rfl
  | cons c cs => exact List.dropWhile_cons_of_neg (by simp [hcs c rfl])

theorem areBlank_takeWhile (cs : List Char) : AreBlank (cs.takeWhile Text.isBlank) :=
  fun _ hc => List.mem_takeWhile_imp hc

/-- What follows a closing parenthesis, with an optional quote and blanks before it. -/
def closed? (cs : List Char) : Option (List Char) :=
  match (quote? cs).2.dropWhile Text.isBlank with
  | ')' :: rest => some rest
  | _ => none

theorem closed?_eq_some_iff {cs rest : List Char} :
    closed? cs = some rest ↔
      ∃ (quote : Option Char) (blanks : List Char), (∀ q ∈ quote, isQuote q = true) ∧
        AreBlank blanks ∧ cs = quote.toList ++ (blanks ++ ')' :: rest) := by
  constructor
  · intro h
    obtain ⟨hcs, hquote⟩ := quote?_spec cs
    rw [closed?] at h
    split at h
    · rename_i after hafter
      obtain rfl := Option.some.inj h
      refine ⟨(quote? cs).1, _, hquote, areBlank_takeWhile (quote? cs).2, ?_⟩
      rw [← hafter, List.takeWhile_append_dropWhile]
      exact hcs
    · cases h
  · rintro ⟨quote, blanks, hquote, hblanks, rfl⟩
    have hhead : ∀ c ∈ (blanks ++ ')' :: rest).head?, isQuote c = false := by
      intro c hc
      cases blanks with
      | nil =>
        obtain rfl := Option.some.inj hc
        decide
      | cons b blanks =>
        obtain rfl := Option.some.inj hc
        exact (isAddressChar_of_isBlank (hblanks _ (List.mem_cons_self ..))).1
    rw [closed?, quote?_append hquote hhead, dropWhile_blanks hblanks (by simp; decide)]
    rfl

/-- The scan for an address, step by step. -/
theorem localAddress?_eq (cs : List Char) :
    localAddress? cs = ("url(".toList.isPrefixOf? cs).bind fun cs₁ =>
      ("./".toList.isPrefixOf? (quote? (cs₁.dropWhile Text.isBlank)).2).bind fun cs₂ =>
        (localPath? cs₂).bind fun found =>
          (closed? found.2).map fun rest =>
            (⟨(quote? (cs₁.dropWhile Text.isBlank)).1, found.1⟩, rest) := by
  refine Option.bind_congr fun cs₁ _ => Option.bind_congr fun cs₂ _ =>
    Option.bind_congr fun found _ => ?_
  rw [closed?]
  dsimp only
  generalize (quote? found.2).2.dropWhile Text.isBlank = after
  obtain _ | ⟨c, after⟩ := after
  · rfl
  · by_cases hc : c = ')'
    · subst hc
      rfl
    · simp [hc]

/-- An address goes on up to a quote or the parenthesis. -/
theorem closed?_behind_path {cs rest : List Char} (hcs : ∀ c ∈ cs.head?, ¬ IsAddressChar c) :
    closed? cs = some rest ↔ ∃ ending, IsEnding ending ∧ cs = ending ++ ')' :: rest := by
  rw [closed?_eq_some_iff]
  constructor
  · rintro ⟨quote, blanks, hquote, hblanks, rfl⟩
    cases quote with
    | some q => exact ⟨q :: blanks, .inr ⟨q, blanks, rfl, hquote q rfl, hblanks⟩, rfl⟩
    | none =>
      cases blanks with
      | nil => exact ⟨[], .inl rfl, rfl⟩
      | cons b blanks =>
        exact absurd (isAddressChar_of_isBlank (hblanks b (List.mem_cons_self ..))) (hcs b rfl)
  · rintro ⟨_, rfl | ⟨q, blanks, rfl, hq, hblanks⟩, rfl⟩
    · exact ⟨none, [], by simp, by simp [AreBlank], rfl⟩
    · exact ⟨some q, blanks, by simpa using hq, hblanks, rfl⟩

/-- **How a local address is written.** -/
theorem localAddress?_eq_some_iff {cs rest : List Char} {a : LocalAddress} :
    localAddress? cs = some (a, rest) ↔ Opens a rest cs := by
  rw [localAddress?_eq]
  constructor
  · intro h
    obtain ⟨cs₁, h₁, h⟩ := Option.bind_eq_some_iff.1 h
    obtain ⟨cs₂, h₂, h⟩ := Option.bind_eq_some_iff.1 h
    obtain ⟨⟨path, cs₃⟩, h₃, h⟩ := Option.bind_eq_some_iff.1 h
    obtain ⟨rest, h₄, h⟩ := Option.map_eq_some_iff.1 h
    obtain ⟨hcs₁, hquote⟩ := quote?_spec (cs₁.dropWhile Text.isBlank)
    obtain ⟨hpath, hcs₂, hstop⟩ := localPath?_eq_some_iff.1 h₃
    obtain ⟨ending, hending, hcs₃⟩ := (closed?_behind_path hstop).1 h₄
    cases h
    refine ⟨hquote, hpath, cs₁.takeWhile Text.isBlank, ending, areBlank_takeWhile cs₁, hending, ?_⟩
    rw [← hcs₃, ← hcs₂, List.isPrefixOf?_eq_some_iff_append_eq.1 h₂, ← hcs₁,
      List.takeWhile_append_dropWhile, List.isPrefixOf?_eq_some_iff_append_eq.1 h₁]
  · rintro ⟨hquote, hpath, blanks, ending, hblanks, hending, rfl⟩
    have hdot : ∀ c ∈ ("./".toList ++ (a.path ++ (ending ++ ')' :: rest))).head?,
        isQuote c = false := by
      rintro c hc
      obtain rfl : '.' = c := Option.some.inj hc
      decide
    have hopens : ∀ c ∈ (a.quote.toList ++ ("./".toList ++
        (a.path ++ (ending ++ ')' :: rest)))).head?, Text.isBlank c = false := by
      rintro c hc
      cases hq : a.quote with
      | none =>
        rw [hq] at hc
        obtain rfl : '.' = c := Option.some.inj hc
        decide
      | some q =>
        rw [hq] at hc
        obtain rfl : q = c := Option.some.inj hc
        exact isBlank_of_isQuote (hquote q hq)
    rw [List.isPrefixOf?_eq_some_iff_append_eq.2 rfl, Option.bind_some,
      dropWhile_blanks hblanks hopens, quote?_append hquote hdot,
      List.isPrefixOf?_eq_some_iff_append_eq.2 rfl, Option.bind_some,
      localPath?_eq_some_iff.2 ⟨hpath, rfl, hending.stops rest⟩, Option.bind_some,
      (closed?_behind_path (hending.stops rest)).2 ⟨ending, hending, rfl⟩, Option.map_some]

end Style
end ElementBuild
