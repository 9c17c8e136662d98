/-
# Rebasing a stylesheet twice

A rebased address is none any more, unless the folder is a dot (`not_opens_render`), and what
stands before it does not become one either (`localAddress?_cons_rebased`).  So the addresses of
a rebased stylesheet are those inside the addresses of the original (`addressesIn_rebased`): the
path of an address may hold what opens another one, which is passed over the first time and
rebased the second.  Rebasing twice is rebasing once if and only if there is none such
(`rebase_rebase_iff`).
-/
import ElementBuild.Proofs.Style.Parts
import Mathlib.Data.Bool.AllAny

namespace ElementBuild
namespace Style

/-- A character of a folder that stands in an address as it is: neither a blank nor a quote nor
a parenthesis. -/
def IsFolderChar (c : Char) : Prop :=
  Text.isBlank c = false ∧ isQuote c = false ∧ c ≠ '(' ∧ c ≠ ')'

instance (c : Char) : Decidable (IsFolderChar c) := inferInstanceAs (Decidable (_ ∧ _))

theorem isFolderChar_dot : ∀ c ∈ ['.'], IsFolderChar c := List.forall_mem_singleton.2 (by decide)

/-- A local address without a quote, up to the end of its path. -/
def IsOpening (cs : List Char) : Prop :=
  ∃ blanks path, AreBlank blanks ∧ IsLocalPath path ∧
    cs = "url(".toList ++ (blanks ++ ("./".toList ++ path))

/-- The path of an address goes on as another local address. -/
def LocalAddress.HoldsAddress (a : LocalAddress) : Prop :=
  ∃ opening, IsOpening opening ∧ opening <:+ a.path

variable {folder cs rest : List Char} {a : LocalAddress} {c : Char}

/-! ### Texts that open with no address -/

theorem localAddress?_eq_none_iff :
    localAddress? cs = none ↔ ∀ a rest, ¬ Opens a rest cs := by
  rw [Option.eq_none_iff_forall_ne_some]
  exact ⟨fun h a rest hopens => h _ (localAddress?_eq_some_iff.2 hopens),
    fun h found hfound => h _ _ (localAddress?_eq_some_iff.1 hfound)⟩

theorem exists_of_opens (h : Opens a rest cs) : ∃ cs', cs = 'u' :: 'r' :: 'l' :: '(' :: cs' := by
  obtain ⟨-, -, blanks, ending, -, -, rfl⟩ := h
  exact ⟨_, rfl⟩

theorem localAddress?_of_ne (hc : c ≠ 'u') (cs : List Char) : localAddress? (c :: cs) = none := by
  refine localAddress?_eq_none_iff.2 fun a rest hopens => hc ?_
  obtain ⟨_, h⟩ := exists_of_opens hopens
  exact (List.cons.inj h).1

/-- No address opens before the last slash of a text without a parenthesis. -/
theorem localAddress?_of_no_paren {xs : List Char} (hxs : '(' ∉ c :: xs) (cs : List Char) :
    localAddress? (c :: xs ++ '/' :: cs) = none := by
  refine localAddress?_eq_none_iff.2 fun a rest hopens => ?_
  obtain ⟨cs', h⟩ := exists_of_opens hopens
  match xs with
  | [] | [_] => simp at h
  | [_, _] => simp at h
  | _ :: _ :: d :: _ =>
    simp at h
    exact hxs (by simp [h])

/-- What runs up to where it has to stop ends in one place. -/
theorem eq_of_append_eq {P : Char → Prop} {xs ys s t : List Char} (hxs : ∀ c ∈ xs, P c)
    (hys : ∀ c ∈ ys, P c) (hs : ∀ c ∈ s.head?, ¬ P c) (ht : ∀ c ∈ t.head?, ¬ P c)
    (h : xs ++ s = ys ++ t) : xs = ys ∧ s = t := by
  induction xs generalizing ys with
  | nil =>
    cases ys with
    | nil => exact ⟨rfl, h⟩
    | cons y ys =>
      rw [List.nil_append] at h
      exact absurd (hys y (List.mem_cons_self ..)) (hs y (by rw [h]; rfl))
  | cons x xs ih =>
    cases ys with
    | nil =>
      rw [List.nil_append] at h
      exact absurd (hxs x (List.mem_cons_self ..)) (ht x (by rw [← h]; rfl))
    | cons y ys =>
      obtain ⟨rfl, htail⟩ := List.cons.inj h
      obtain ⟨rfl, rfl⟩ := ih (fun c hc => hxs c (List.mem_cons_of_mem x hc))
        (fun c hc => hys c (List.mem_cons_of_mem x hc)) htail
      exact ⟨rfl, rfl⟩

theorem render_append (folder : List Char) (a : LocalAddress) (t : List Char) :
    a.render folder ++ t = "url(".toList ++ (a.quote.toList ++ (folder ++
      '/' :: (a.path ++ (a.quote.toList ++ ')' :: t)))) := by
  change ("url(".toList ++ a.quote.toList ++ folder ++ '/' :: a.path ++ a.quote.toList ++ [')']) ++
    t = _
  simp only [List.append_assoc, List.cons_append, List.nil_append]

/-! ### Rebased addresses -/

section

variable (hfolder : ∀ c ∈ folder, IsFolderChar c) (hdot : ¬ "./".toList <+: folder)
include hfolder hdot

/-- What opens a local address does not stand at the start of a rebased one, unless the folder is
a dot. -/
theorem eq_dot_of_append_eq {blanks s t : List Char} {quote quote' : Option Char}
    (hblanks : AreBlank blanks) (hquote : ∀ q ∈ quote, isQuote q = true)
    (hquote' : ∀ q ∈ quote', isQuote q = true)
    (h : quote.toList ++ (folder ++ '/' :: s) =
      blanks ++ (quote'.toList ++ ("./".toList ++ t))) : folder = ['.'] := by
  have hhead : ∀ c ∈ (folder ++ '/' :: s).head?, Text.isBlank c = false ∧ isQuote c = false := by
    intro c hc
    cases folder with
    | nil =>
      obtain rfl := Option.some.inj hc
      decide
    | cons d folder =>
      obtain rfl := Option.some.inj hc
      have hd := hfolder d (List.mem_cons_self ..)
      exact ⟨hd.1, hd.2.1⟩
  have hstart : ∀ c ∈ (quote.toList ++ (folder ++ '/' :: s)).head?, Text.isBlank c = false := by
    intro c hc
    cases quote with
    | none => exact (hhead c hc).1
    | some q =>
      obtain rfl : q = c := Option.some.inj hc
      exact isBlank_of_isQuote (hquote q rfl)
  obtain rfl : blanks = [] := by
    cases blanks with
    | nil => rfl
    | cons b blanks =>
      rw [h] at hstart
      exact absurd (hblanks b (List.mem_cons_self ..)) (by simp [hstart b rfl])
  have hstop : ∀ c ∈ (folder ++ '/' :: s).head?, ¬ isQuote c = true :=
    fun c hc => by simp [(hhead c hc).2]
  have hstop' : ∀ c ∈ ("./".toList ++ t).head?, ¬ isQuote c = true := by
    intro c hc
    obtain rfl : '.' = c := Option.some.inj hc
    decide
  obtain ⟨-, hopens⟩ : _ ∧ folder ++ '/' :: s = '.' :: '/' :: t :=
    eq_of_append_eq (fun q hq => hquote q (Option.mem_toList.1 hq))
      (fun q hq => hquote' q (Option.mem_toList.1 hq)) hstop hstop' h
  match folder with
  | [] => simp at hopens
  | [d] =>
    rw [(List.cons.inj hopens).1]
  | d :: e :: ds =>
    obtain ⟨rfl, rfl, -⟩ : d = '.' ∧ e = '/' ∧ ds ++ '/' :: s = t := by simpa using hopens
    exact absurd ⟨ds, rfl⟩ hdot

theorem not_opens_render (hne : folder ≠ ['.']) (hquote : ∀ q ∈ a.quote, isQuote q = true)
    (t : List Char) : localAddress? (a.render folder ++ t) = none := by
  refine localAddress?_eq_none_iff.2 fun b rest hopens => hne ?_
  obtain ⟨hquote', -, blanks, ending, hblanks, -, htext⟩ := hopens
  rw [render_append] at htext
  exact eq_dot_of_append_eq hfolder hdot hblanks hquote hquote' (List.append_cancel_left htext)

end

theorem isEnding_nil : IsEnding [] := .inl rfl

theorem isEnding_quote (hquote : ∀ q ∈ a.quote, isQuote q = true) : IsEnding a.quote.toList := by
  cases hq : a.quote with
  | none => exact isEnding_nil
  | some q => exact .inr ⟨q, [], rfl, hquote q hq, by simp [AreBlank]⟩

/-- An address that is rebased to a dot is one still. -/
theorem opens_render_dot (h : Opens a rest cs) (t : List Char) :
    Opens a t (a.render ['.'] ++ t) :=
  ⟨h.quote, h.path, [], a.quote.toList, by simp [AreBlank], isEnding_quote h.quote,
    by rw [render_append]; rfl⟩

/-! ### What stands before a rebased address -/

/-- What a rebased text opens with, is a character of the text or the start of an address. -/
theorem rebased_cases (folder cs : List Char) :
    (cs = [] ∧ rebased folder cs = []) ∨
      (∃ c cs', cs = c :: cs' ∧ rebased folder cs = c :: rebased folder cs') ∨
      ∃ a rest, Opens a rest cs ∧ rebased folder cs = a.render folder ++ rebased folder rest := by
  cases cs with
  | nil => exact .inl ⟨rfl, rfl⟩
  | cons c cs =>
    right
    cases h : localAddress? (c :: cs) with
    | none => exact .inl ⟨c, cs, rfl, rebased_of_none h⟩
    | some found =>
      have hopens := localAddress?_eq_some_iff.1 h
      exact .inr ⟨_, _, hopens, rebased_of_opens hopens⟩

/-- What opens no address is copied. -/
theorem exists_of_rebased_append {w t : List Char} (hw : 'u' ∉ w)
    (h : rebased folder cs = w ++ t) : ∃ cs', cs = w ++ cs' ∧ rebased folder cs' = t := by
  induction w generalizing cs with
  | nil => exact ⟨cs, rfl, h⟩
  | cons x w ih =>
    rw [List.mem_cons, not_or] at hw
    rcases rebased_cases folder cs with ⟨rfl, hnil⟩ | ⟨c, cs', rfl, hcons⟩ | ⟨a, rest, -, hrender⟩
    · cases hnil.symm.trans h
    · obtain ⟨rfl, htail⟩ := List.cons.inj (hcons.symm.trans h)
      obtain ⟨cs'', rfl, ht⟩ := ih hw.2 htail
      exact ⟨cs'', rfl, ht⟩
    · rw [hrender, render_append] at h
      exact absurd (List.cons.inj h).1 hw.1

theorem u_notMem_of_areBlank {blanks : List Char} (h : AreBlank blanks) : 'u' ∉ blanks :=
  fun hu => absurd (h 'u' hu) (by decide)

theorem u_notMem_of_quote {quote : Option Char} (h : ∀ q ∈ quote, isQuote q = true) :
    'u' ∉ quote.toList := by
  intro hu
  exact absurd (h 'u' (Option.mem_toList.1 hu)) (by decide)

theorem u_notMem_of_isEnding {ending : List Char} (h : IsEnding ending) : 'u' ∉ ending := by
  rcases h with rfl | ⟨q, blanks, rfl, hq, hblanks⟩
  · exact List.not_mem_nil
  · rw [List.mem_cons, not_or]
    refine ⟨?_, u_notMem_of_areBlank hblanks⟩
    rintro rfl
    exact absurd hq (by decide)

theorem isAddressChar_of_isLocalPath {path : List Char} (h : IsLocalPath path) :
    ∀ c ∈ path, IsAddressChar c := by
  obtain ⟨folder, hfolder, name, -, hname, rfl⟩ := h
  have hfolders : ∀ f ∈ ["assets/", "styles/"],
      f.toList.all (fun c => decide (IsAddressChar c)) = true := by decide
  exact List.forall_mem_append.2 ⟨List.all_iff_forall_prop.1 (hfolders folder hfolder), hname⟩

theorem isAddressChar_url : ∀ c ∈ "url(".toList, IsAddressChar c :=
  List.all_iff_forall_prop.1 (by decide)

/-- An opened address without a quote is part of a path, as far as its own path goes. -/
theorem isAddressChar_of_opening {blanks path : List Char} (hblanks : AreBlank blanks)
    (hpath : ∀ c ∈ path, IsAddressChar c) :
    ∀ c ∈ "url(".toList ++ (blanks ++ ("./".toList ++ path)), IsAddressChar c :=
  List.forall_mem_append.2 ⟨isAddressChar_url, List.forall_mem_append.2
    ⟨fun c hc => isAddressChar_of_isBlank (hblanks c hc),
      List.forall_mem_append.2 ⟨List.all_iff_forall_prop.1 (by decide), hpath⟩⟩⟩

/-- A folder does not stand where an address is closed. -/
theorem closing_ne {ending s t : List Char} {q : Char} (hfolder : ∀ c ∈ folder, IsFolderChar c)
    (hending : IsEnding ending) (hq : isQuote q = true) :
    ending ++ ')' :: s ≠ q :: (folder ++ '/' :: t) := by
  intro h
  rcases hending with rfl | ⟨q', blanks, rfl, -, hblanks⟩
  · obtain rfl : ')' = q := (List.cons.inj h).1
    exact absurd hq (by decide)
  · have htail : blanks ++ ')' :: s = folder ++ '/' :: t := (List.cons.inj h).2
    cases blanks with
    | nil =>
      cases folder with
      | nil => simp at htail
      | cons d folder =>
        exact (hfolder d (List.mem_cons_self ..)).2.2.2 (List.cons.inj htail).1.symm
    | cons b blanks =>
      have hb := hblanks b (List.mem_cons_self ..)
      cases folder with
      | nil =>
        obtain rfl : b = '/' := (List.cons.inj htail).1
        exact absurd hb (by decide)
      | cons d folder =>
        obtain rfl : b = d := (List.cons.inj htail).1
        exact Bool.false_ne_true ((hfolder b (List.mem_cons_self ..)).1.symm.trans hb)

/-- A rebased text goes on as the path of an address up to its end only if the text does. -/
theorem exists_path_of_rebased (hfolder : ∀ c ∈ folder, IsFolderChar c) {name ending : List Char}
    (hname : ∀ c ∈ name, IsAddressChar c) (hending : IsEnding ending)
    (h : rebased folder cs = name ++ (ending ++ ')' :: rest)) :
    ∃ name' ending' rest', cs = name' ++ (ending' ++ ')' :: rest') ∧
      (∀ c ∈ name', IsAddressChar c) ∧ (name ≠ [] → name' ≠ []) ∧ IsEnding ending' := by
  induction name generalizing cs with
  | nil =>
    have hu : 'u' ∉ ending ++ [')'] := by
      simpa using u_notMem_of_isEnding hending
    obtain ⟨cs', rfl, -⟩ := exists_of_rebased_append (t := rest) hu (by simpa using h)
    exact ⟨[], ending, cs', by simp, by simp, by simp, hending⟩
  | cons x name ih =>
    obtain ⟨hx, htailname⟩ := List.forall_mem_cons.1 hname
    rcases rebased_cases folder cs with ⟨rfl, hnil⟩ | ⟨c, cs', rfl, hcons⟩ |
      ⟨a, after, hopens, hrender⟩
    · cases hnil.symm.trans h
    · obtain ⟨rfl, htail⟩ := List.cons.inj (hcons.symm.trans h)
      obtain ⟨name', ending', rest', rfl, hname', -, hending'⟩ := ih htailname htail
      exact ⟨c :: name', ending', rest', rfl, List.forall_mem_cons.2 ⟨hx, hname'⟩, by simp,
        hending'⟩
    · obtain ⟨hquote, hpath, blanks, ending', hblanks, hending', rfl⟩ := hopens
      cases hq : a.quote with
      | none =>
        -- the address in the text is read on as the path
        exact ⟨_, ending', after, by simp,
          isAddressChar_of_opening hblanks (isAddressChar_of_isLocalPath hpath), by simp, hending'⟩
      | some q =>
        -- its quote ends the path, and the folder behind it is no closing parenthesis
        rw [hrender, render_append, hq] at h
        obtain ⟨-, hclosing⟩ := eq_of_append_eq isAddressChar_url hname
          (quote_stops (hquote q hq) _) (hending.stops rest) h
        exact absurd hclosing.symm (closing_ne hfolder hending (hquote q hq))

/-- No address comes to stand where there was none. -/
theorem localAddress?_cons_rebased (hfolder : ∀ c ∈ folder, IsFolderChar c)
    (h : localAddress? (c :: cs) = none) : localAddress? (c :: rebased folder cs) = none := by
  rw [localAddress?_eq_none_iff] at h ⊢
  rintro a rest ⟨hquote, ⟨f, hf, name, hne, hname, hpath⟩, blanks, ending, hblanks, hending, htext⟩
  have hu : 'u' ∉ "rl(".toList ++ (blanks ++ (a.quote.toList ++ ("./".toList ++ f.toList))) := by
    have hfolders : ∀ f ∈ ["assets/", "styles/"], 'u' ∉ "./".toList ++ f.toList := by decide
    simp only [List.mem_append, not_or] at hfolders ⊢
    exact ⟨by decide, u_notMem_of_areBlank hblanks, u_notMem_of_quote hquote, hfolders f hf⟩
  rw [hpath] at htext
  obtain ⟨rfl, htail⟩ : c = 'u' ∧ rebased folder cs = "rl(".toList ++ (blanks ++
      (a.quote.toList ++ ("./".toList ++ ((f.toList ++ name) ++ (ending ++ ')' :: rest))))) :=
    List.cons.inj htext
  obtain ⟨cs', rfl, hcs'⟩ := exists_of_rebased_append (t := name ++ (ending ++ ')' :: rest)) hu
    (by simpa only [List.append_assoc] using htail)
  obtain ⟨name', ending', rest', rfl, hname', hne', hending'⟩ :=
    exists_path_of_rebased hfolder hname hending hcs'
  refine h ⟨a.quote, f.toList ++ name'⟩ rest' ⟨hquote, ⟨f, hf, name', hne' hne, hname', rfl⟩,
    blanks, ending', hblanks, hending', ?_⟩
  simp only [List.append_assoc]
  rfl

/-! ### Addresses inside a path -/

theorem IsEnding.eq_of_append_eq {ending ending' s t : List Char} (h : IsEnding ending)
    (h' : IsEnding ending') (htext : ending ++ ')' :: s = ending' ++ ')' :: t) : s = t := by
  have hs : closed? (ending ++ ')' :: s) = some s := (closed?_behind_path (h.stops s)).2 ⟨_, h, rfl⟩
  have ht : closed? (ending' ++ ')' :: t) = some t :=
    (closed?_behind_path (h'.stops t)).2 ⟨_, h', rfl⟩
  exact Option.some.inj (hs.symm.trans (htext ▸ ht))

/-- An address that opens inside a path has no quote, takes the path to its end and is closed
where the path is. -/
theorem opens_inside_iff {s ending t : List Char} (hs : ∀ c ∈ s, IsAddressChar c)
    (hending : IsEnding ending) :
    Opens a rest (s ++ (ending ++ ')' :: t)) ↔
      rest = t ∧ a.quote = none ∧ IsLocalPath a.path ∧ ∃ blanks, AreBlank blanks ∧
        s = "url(".toList ++ (blanks ++ ("./".toList ++ a.path)) := by
  constructor
  · rintro ⟨hquote, hpath, blanks, ending', hblanks, hending', htext⟩
    cases hq : a.quote with
    | none =>
      have hopening := isAddressChar_of_opening hblanks (isAddressChar_of_isLocalPath hpath)
      obtain ⟨rfl, hclosing⟩ := eq_of_append_eq hs hopening (hending.stops t) (hending'.stops rest)
        (by simpa [hq] using htext)
      exact ⟨hending'.eq_of_append_eq hending hclosing.symm, rfl, hpath, blanks, hblanks, rfl⟩
    | some q =>
      -- the path ends at the quote, where it would have to be closed
      have hblanks' : ∀ c ∈ "url(".toList ++ blanks, IsAddressChar c :=
        List.forall_mem_append.2
          ⟨isAddressChar_url, fun c hc => isAddressChar_of_isBlank (hblanks c hc)⟩
      have hquoted : s ++ (ending ++ ')' :: t) = ("url(".toList ++ blanks) ++
          (q :: (['.'] ++ '/' :: (a.path ++ (ending' ++ ')' :: rest)))) := by
        simpa [hq] using htext
      obtain ⟨-, hclosing⟩ := eq_of_append_eq hs hblanks' (hending.stops t)
        (quote_stops (hquote q hq) _) hquoted
      exact absurd hclosing (closing_ne isFolderChar_dot hending (hquote q hq))
  · rintro ⟨rfl, hquote, hpath, blanks, hblanks, rfl⟩
    exact ⟨by simp [hquote], hpath, blanks, ending, hblanks, hending, by simp [hquote]⟩

theorem addressesIn_append_of_notMem {w : List Char} (hw : 'u' ∉ w) (cs : List Char) :
    addressesIn (w ++ cs) = addressesIn cs := by
  induction w with
  | nil => rfl
  | cons c w ih =>
    rw [List.mem_cons, not_or] at hw
    exact (addressesIn_of_none (localAddress?_of_ne (Ne.symm hw.1) _)).trans (ih hw.2)

/-- No address inside a path reaches behind it. -/
theorem addressesIn_path_append {s ending : List Char} (hs : ∀ c ∈ s, IsAddressChar c)
    (hending : IsEnding ending) (t : List Char) :
    addressesIn (s ++ (ending ++ ')' :: t)) = addressesIn (s ++ [')']) ++ addressesIn t := by
  induction s with
  | nil =>
    have hu : 'u' ∉ ending ++ [')'] := by simpa using u_notMem_of_isEnding hending
    have hclosed := addressesIn_append_of_notMem hu t
    rw [List.append_assoc] at hclosed
    exact hclosed
  | cons c s ih =>
    have hsame : ∀ b rest, Opens b rest (c :: s ++ (ending ++ ')' :: t)) ↔
        rest = t ∧ Opens b [] (c :: s ++ [')']) := fun b rest => by
      rw [opens_inside_iff hs hending]
      exact and_congr_right fun _ =>
        ((opens_inside_iff hs isEnding_nil).trans (and_iff_right rfl)).symm
    cases h : localAddress? (c :: s ++ (ending ++ ')' :: t)) with
    | none =>
      have hnone : localAddress? (c :: s ++ [')']) = none := by
        refine localAddress?_eq_none_iff.2 fun b rest hopens => ?_
        obtain ⟨rfl, -⟩ := (opens_inside_iff hs isEnding_nil).1 hopens
        exact localAddress?_eq_none_iff.1 h b t ((hsame b t).2 ⟨rfl, hopens⟩)
      exact (addressesIn_of_none h).trans ((ih (List.forall_mem_cons.1 hs).2).trans
        (congrArg (· ++ _) (addressesIn_of_none hnone).symm))
    | some found =>
      have hopens := localAddress?_eq_some_iff.1 h
      obtain ⟨hrest, hopens'⟩ := (hsame _ _).1 hopens
      rw [addressesIn_of_opens hopens, addressesIn_of_opens hopens', hrest]
      rfl

theorem opens_closed_iff {s : List Char} (hs : ∀ c ∈ s, IsAddressChar c) :
    (∃ a rest, Opens a rest (s ++ [')'])) ↔ IsOpening s := by
  constructor
  · rintro ⟨a, rest, hopens⟩
    obtain ⟨-, -, hpath, blanks, hblanks, rfl⟩ :=
      (opens_inside_iff hs isEnding_nil).1 hopens
    exact ⟨blanks, a.path, hblanks, hpath, rfl⟩
  · rintro ⟨blanks, path, hblanks, hpath, rfl⟩
    exact ⟨⟨none, path⟩, [], (opens_inside_iff hs isEnding_nil).2
      ⟨rfl, rfl, hpath, blanks, hblanks, rfl⟩⟩

theorem addressesIn_closed_eq_nil_iff {s : List Char} (hs : ∀ c ∈ s, IsAddressChar c) :
    addressesIn (s ++ [')']) = [] ↔ ∀ opening, IsOpening opening → ¬ opening <:+ s := by
  induction s with
  | nil =>
    refine iff_of_true (addressesIn_append_of_notMem (w := [')']) (by decide) []) ?_
    rintro opening ⟨blanks, path, -, -, rfl⟩ hsuffix
    cases List.suffix_nil.1 hsuffix
  | cons c s ih =>
    have htail := ih (List.forall_mem_cons.1 hs).2
    cases h : localAddress? (c :: s ++ [')']) with
    | none =>
      rw [List.cons_append] at h ⊢
      rw [addressesIn_of_none h, htail]
      refine forall₂_congr fun opening hopening => not_congr ?_
      rw [List.suffix_cons_iff, or_iff_right]
      rintro rfl
      obtain ⟨a, rest, hopens⟩ := (opens_closed_iff hs).2 hopening
      exact localAddress?_eq_none_iff.1 h a rest hopens
    | some found =>
      have hopens := localAddress?_eq_some_iff.1 h
      rw [addressesIn_of_opens hopens]
      refine iff_of_false (List.cons_ne_nil _ _) fun hnone => ?_
      exact hnone _ ((opens_closed_iff hs).1 ⟨_, _, hopens⟩) (List.suffix_refl _)

theorem addressesIn_path_eq_nil_iff (hpath : IsLocalPath a.path) :
    addressesIn (a.path ++ [')']) = [] ↔ ¬ a.HoldsAddress := by
  rw [addressesIn_closed_eq_nil_iff (isAddressChar_of_isLocalPath hpath), LocalAddress.HoldsAddress]
  simp

theorem isLocalPath_of_mem_addressesIn (cs : List Char) :
    ∀ a ∈ addressesIn cs, IsLocalPath a.path := by
  induction cs using parts_induction with
  | nil => simp
  | plain c cs h ih => rwa [addressesIn_of_none h]
  | address a rest cs h ih =>
    rw [addressesIn_of_opens h]
    exact List.forall_mem_cons.2 ⟨h.path, ih⟩

/-! ### Rebasing twice -/

theorem addressesIn_folder (hparen : '(' ∉ folder) (cs : List Char) :
    addressesIn (folder ++ '/' :: cs) = addressesIn cs := by
  induction folder with
  | nil => exact addressesIn_of_none (localAddress?_of_ne (by decide) cs)
  | cons c folder ih =>
    exact (addressesIn_of_none (localAddress?_of_no_paren hparen cs)).trans
      (ih fun h => hparen (List.mem_cons_of_mem c h))

/-- Rebasing to a dot leaves the addresses where they are. -/
theorem rebased_dot_twice (cs : List Char) :
    rebased ['.'] (rebased ['.'] cs) = rebased ['.'] cs := by
  induction cs using parts_induction with
  | nil => rfl
  | plain c cs h ih =>
    rw [rebased_of_none h, rebased_of_none (localAddress?_cons_rebased isFolderChar_dot h), ih]
  | address a rest cs h ih => rw [rebased_of_opens h, rebased_of_opens (opens_render_dot h _), ih]

section

variable (hfolder : ∀ c ∈ folder, IsFolderChar c) (hdot : ¬ "./".toList <+: folder)
  (hne : folder ≠ ['.'])
include hfolder hdot hne

/-- A rebased address is passed over up to its path. -/
theorem addressesIn_render_append (h : Opens a rest cs) (t : List Char) :
    addressesIn (a.render folder ++ t) = addressesIn (a.path ++ [')']) ++ addressesIn t := by
  have hnone := not_opens_render hfolder hdot hne h.quote t
  have hparen : '(' ∉ folder := fun hmem => (hfolder _ hmem).2.2.1 rfl
  have hu : 'u' ∉ "rl(".toList ++ a.quote.toList := by
    rw [List.mem_append, not_or]
    exact ⟨by decide, u_notMem_of_quote h.quote⟩
  rw [render_append] at hnone ⊢
  calc addressesIn ('u' :: ("rl(".toList ++ (a.quote.toList ++ (folder ++
        '/' :: (a.path ++ (a.quote.toList ++ ')' :: t))))))
    _ = addressesIn (("rl(".toList ++ a.quote.toList) ++ (folder ++
        '/' :: (a.path ++ (a.quote.toList ++ ')' :: t)))) := by
      rw [List.append_assoc]
      exact addressesIn_of_none hnone
    _ = addressesIn (a.path ++ (a.quote.toList ++ ')' :: t)) := by
      rw [addressesIn_append_of_notMem hu, addressesIn_folder hparen]
    _ = addressesIn (a.path ++ [')']) ++ addressesIn t :=
      addressesIn_path_append (isAddressChar_of_isLocalPath h.path) (isEnding_quote h.quote) t

/-- **The addresses of a rebased text are those inside the addresses of the text.** -/
theorem addressesIn_rebased (cs : List Char) :
    addressesIn (rebased folder cs) =
      (addressesIn cs).flatMap fun a => addressesIn (a.path ++ [')']) := by
  induction cs using parts_induction with
  | nil => rfl
  | plain c cs h ih =>
    rw [rebased_of_none h, addressesIn_of_none h,
      addressesIn_of_none (localAddress?_cons_rebased hfolder h), ih]
  | address a rest cs h ih =>
    rw [rebased_of_opens h, addressesIn_of_opens h, List.flatMap_cons,
      addressesIn_render_append hfolder hdot hne h, ih]

/-- A text is rebased to itself if and only if it has no local address. -/
theorem rebased_eq_self_iff (cs : List Char) : rebased folder cs = cs ↔ addressesIn cs = [] := by
  induction cs using parts_induction with
  | nil => simp
  | plain c cs h ih =>
    rw [rebased_of_none h, addressesIn_of_none h, List.cons_eq_cons, ← ih, and_iff_right rfl]
  | address a rest cs h ih =>
    rw [rebased_of_opens h, addressesIn_of_opens h]
    refine iff_of_false (fun hself => ?_) (List.cons_ne_nil _ _)
    have hnone := not_opens_render hfolder hdot hne h.quote (rebased folder rest)
    rw [hself] at hnone
    exact localAddress?_eq_none_iff.1 hnone a rest h

end

/-- An address whose path has no parenthesis holds no other. -/
theorem not_holdsAddress_of_paren (hparen : '(' ∉ a.path) : ¬ a.HoldsAddress := by
  rintro ⟨opening, ⟨blanks, path, -, -, rfl⟩, hsuffix⟩
  exact hparen (hsuffix.subset (List.mem_append_left _ (by decide)))

/-- **Rebasing twice is rebasing once if and only if the folder is a dot or no address holds
another.** -/
theorem rebase_rebase_iff {folder css : String}
    (hfolder : ∀ c ∈ withoutSlashes folder, IsFolderChar c)
    (hdot : ¬ "./".toList <+: withoutSlashes folder) :
    rebase folder (rebase folder css) = rebase folder css ↔
      withoutSlashes folder = ['.'] ∨ ∀ a ∈ addresses css, ¬ a.HoldsAddress := by
  rw [← String.toList_inj, toList_rebase, toList_rebase]
  by_cases hne : withoutSlashes folder = ['.']
  · rw [hne]
    exact iff_of_true (rebased_dot_twice _) (.inl rfl)
  rw [rebased_eq_self_iff hfolder hdot hne, addressesIn_rebased hfolder hdot hne,
    List.flatMap_eq_nil_iff, or_iff_right hne]
  exact forall₂_congr fun a ha =>
    addressesIn_path_eq_nil_iff (isLocalPath_of_mem_addressesIn _ a ha)

/-- Addresses with a quote and blanks around them, and without. -/
theorem rebase_rebase_of_imports :
    (∀ c ∈ withoutSlashes "https://cdn/a_a/", IsFolderChar c) ∧
      ¬ "./".toList <+: withoutSlashes "https://cdn/a_a/" ∧
      rebase "https://cdn/a_a/" (rebase "https://cdn/a_a/"
        "@import url(./styles/x.css); @import url( \"./styles/y.css\" );") =
      rebase "https://cdn/a_a/"
        "@import url(./styles/x.css); @import url( \"./styles/y.css\" );" := by
  have hfolder : ∀ c ∈ withoutSlashes "https://cdn/a_a/", IsFolderChar c :=
    List.all_iff_forall_prop.1 (by decide +kernel)
  have hdot : ¬ "./".toList <+: withoutSlashes "https://cdn/a_a/" := by decide +kernel
  have hparen : ∀ a ∈ addresses "@import url(./styles/x.css); @import url( \"./styles/y.css\" );",
      '(' ∉ a.path := by decide +kernel
  exact ⟨hfolder, hdot, (rebase_rebase_iff hfolder hdot).2
    (.inr fun a ha => not_holdsAddress_of_paren (hparen a ha))⟩

/-- **An address that is left open in a comment goes on to the next parenthesis**, so it holds
the address of the import behind it, which is passed over the first time and rebased the
second. -/
theorem rebase_rebase_of_openComment :
    (∀ c ∈ withoutSlashes "cdn", IsFolderChar c) ∧ ¬ "./".toList <+: withoutSlashes "cdn" ∧
      rebase "cdn" "/* url(./assets/ */ @import url(./styles/x.css);" =
        "/* url(cdn/assets/ */ @import url(./styles/x.css);" ∧
      rebase "cdn" "/* url(cdn/assets/ */ @import url(./styles/x.css);" =
        "/* url(cdn/assets/ */ @import url(cdn/styles/x.css);" ∧
      rebase "cdn" (rebase "cdn" "/* url(./assets/ */ @import url(./styles/x.css);") ≠
        rebase "cdn" "/* url(./assets/ */ @import url(./styles/x.css);" :=
  ⟨List.all_iff_forall_prop.1 (by decide +kernel), by decide +kernel⟩

end Style
end ElementBuild
