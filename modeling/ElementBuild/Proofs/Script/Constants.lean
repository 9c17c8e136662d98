/-
# Constants that a text declares

A text of tokens may declare constants with string literals as values (`constants`).  The value of a
literal has at most as many characters as stand between its quotes, and as many only if nothing is
escaped there.  So `const a = 'text'` declares a constant with this text as its value if and only if
the text stands between quotes as it is (`mem_constants_iff`).
-/
import ElementBuild.Proofs.Script.Words
import ElementBuild.Proofs.Statements

namespace ElementBuild
namespace Script

/-! ### Literals -/

/-- An escape stands for no more characters than it is written in behind the backslash. -/
theorem length_escapeOf (cs : List Char) :
    (escapeOf false cs).value.length ≤ (escapeOf false cs).length := by
  unfold escapeOf
  split
  case h_9 =>
    dsimp only
    split
    · exact Nat.succ_le_succ (Nat.zero_le _)
    · exact Nat.zero_le _
  case h_10 =>
    split
    · exact Nat.succ_le_succ (Nat.zero_le _)
    · exact Nat.zero_le _
  case h_11 =>
    split
    · exact Nat.zero_le _
    split
    · exact le_refl _
    split
    · dsimp only
      rw [if_neg Bool.false_ne_true]
      dsimp only
      split
      · exact Nat.succ_le_succ (Nat.zero_le _)
      · exact Nat.succ_le_succ (Nat.zero_le _)
    · exact le_refl _
  all_goals decide

/-- What is known of a literal that is closed without a fault: its characters up to the quote, the
first of which belong to an escape, and the length of its value. -/
theorem stringTail_closed (quote : Char) (skip : Nat) (cs : List Char) (pos : Nat)
    (value raw : List Char) (soft : List Located) :
    let s := stringTail quote skip cs pos value raw soft
    s.closed = true → s.fault = none → s.soft = [] → soft = [] ∧ ∃ own,
      cs = own ++ quote :: s.rest ∧ s.value.length + skip ≤ value.length + own.length ∧
        (s.value.length + skip = value.length + own.length →
          ∀ c ∈ own.drop skip, c ∉ [quote, '\\', '\n', '\r']) := by
  fun_induction stringTail quote skip cs pos value raw soft with
  | case1 => exact fun hclosed => absurd hclosed Bool.false_ne_true
  | case2 skip c cs pos value raw soft ih =>
    intro s hclosed hfault hsoft
    obtain ⟨rfl, own, hcs, hle, hown⟩ := ih hclosed hfault hsoft
    refine ⟨rfl, c :: own, congrArg (c :: ·) hcs, ?_, fun heq => ?_⟩
    · exact Nat.succ_le_succ hle
    · exact hown (Nat.succ.inj heq)
  | case3 cs pos value raw soft =>
    rintro s - - rfl
    exact ⟨rfl, [], rfl, le_refl _, fun _ _ hc => absurd hc List.not_mem_nil⟩
  | case4 => exact fun hclosed => absurd hclosed Bool.false_ne_true
  | case5 c cs pos value raw soft =>
    rename_i ih
    exact fun hclosed hfault hsoft => absurd (ih hclosed hfault hsoft).1 (List.cons_ne_nil _ _)
  | case6 => exact fun _ hfault => absurd hfault (Option.some_ne_none _)
  | case7 cs pos value raw soft e =>
    rename_i ih
    intro s hclosed hfault hsoft
    obtain ⟨rfl, own, hcs, hle, -⟩ := ih hclosed hfault hsoft
    -- The backslash has no part in the value.
    have hlt : s.value.length < value.length + (own.length + 1) := by
      have hescape : e.value.length ≤ e.length := length_escapeOf cs
      have hle : s.value.length + e.length ≤ (e.value.reverse ++ value).length + own.length := hle
      rw [List.length_append, List.length_reverse] at hle
      omega
    exact ⟨rfl, '\\' :: own, congrArg ('\\' :: ·) hcs, hlt.le, fun heq => absurd heq hlt.ne⟩
  | case8 c cs pos value raw soft hquote hline hslash ih =>
    intro s hclosed hfault hsoft
    obtain ⟨rfl, own, hcs, hle, hown⟩ := ih hclosed hfault hsoft
    have hlength : (c :: value).length + own.length = value.length + (c :: own).length := by
      rw [List.length_cons, List.length_cons]
      omega
    refine ⟨rfl, c :: own, congrArg (c :: ·) hcs, hle.trans hlength.le, fun heq => ?_⟩
    exact List.forall_mem_cons.2 ⟨by grind, hown (heq.trans hlength.symm)⟩

/-- What is known of a literal in a text: the characters between its quotes. -/
def Quotes (cs : List Char) (value : String) : Prop :=
  ∃ before quote own rest, cs = before ++ quote :: (own ++ quote :: rest) ∧
    (quote = '"' ∨ quote = '\'') ∧ value.toList.length ≤ own.length ∧
      (value.toList.length = own.length → ∀ c ∈ own, c ∉ [quote, '\\', '\n', '\r'])

theorem Quotes.append {cs : List Char} {value : String} (h : Quotes cs value) (before : List Char) :
    Quotes (before ++ cs) value := by
  obtain ⟨before', quote, own, rest, rfl, h⟩ := h
  exact ⟨before ++ before', quote, own, rest, (List.append_assoc ..).symm, h⟩

/-- How a literal is read: behind its quote, up to another one. -/
theorem exists_stringTail_of_token {g : Gap} {c : Char} {cs : List Char} {value raw : String}
    (h : (tokenAt g c cs).token = .string value raw) (hfaults : (tokenAt g c cs).faults = []) :
    (c = '"' ∨ c = '\'') ∧ ∃ pos, let s := stringTail c 0 cs pos [] [c] []
      s.closed = true ∧ s.fault = none ∧ s.soft = [] ∧ value = String.ofList s.value.reverse := by
  revert h hfaults
  unfold tokenAt
  extract_lets pos word string faults number stop raw'
  have hword : ∀ w : WordEnd, (word w).token ≠ .string value raw := by
    intro w
    unfold word
    split <;> exact nofun
  split
  · exact fun h => absurd h (hword _)
  split
  · split
    · split
      · split
        · exact fun h => absurd h (hword _)
        · exact nofun
      · exact nofun
    · exact nofun
  split
  · rename_i hc
    split
    · exact nofun
    · rename_i hfault
      intro h hfaults
      cases h
      have hnone : faults = [] := (List.append_eq_nil_iff.1 hfaults).1
      unfold faults at hnone
      split at hnone
      · rename_i hclosed
        exact ⟨hc, _, hclosed, hfault, hnone, rfl⟩
      · cases hnone
  split
  · split
    · exact nofun
    split
    · exact nofun
    · dsimp only
      split <;> exact nofun
  split <;> exact nofun

theorem quotes_of_tokenAt {g : Gap} {c : Char} {cs : List Char} {value raw : String}
    (h : (tokenAt g c cs).token = .string value raw) (hfaults : (tokenAt g c cs).faults = []) :
    Quotes (c :: cs) value := by
  obtain ⟨hc, pos, hclosed, hfault, hsoft, rfl⟩ := exists_stringTail_of_token h hfaults
  obtain ⟨-, own, hown, hle, hplain⟩ :=
    stringTail_closed c 0 cs pos [] [c] [] hclosed hfault hsoft
  rw [List.length_nil, Nat.zero_add, Nat.add_zero] at hle hplain
  refine ⟨[], c, own, _, congrArg (c :: ·) hown, hc, ?_⟩
  rw [String.toList_ofList, List.length_reverse]
  exact ⟨hle, hplain⟩

theorem quotes_of_lexeme {cs : List Char} {pos : Nat} {value raw : String}
    (h : (lexeme cs pos).token = .string value raw) (hfaults : (lexeme cs pos).faults = []) :
    Quotes cs value := by
  unfold lexeme at h hfaults
  obtain ⟨skipped, hskipped, -⟩ := leads_gap .between 0 cs pos false []
  generalize gap .between 0 cs pos false [] = g at h hfaults hskipped
  unfold lexemeAfter at h hfaults
  split at h
  · cases h
  · rename_i c rest hrest
    rw [hrest] at hfaults hskipped
    exact hskipped ▸ (quotes_of_tokenAt h hfaults).append skipped

/-- What is left behind a whole token is the end of the text. -/
theorem suffix_lexeme {cs : List Char} {pos : Nat} (h : (lexeme cs pos).token.IsWhole) :
    (lexeme cs pos).rest <:+ cs := by
  unfold lexeme at h ⊢
  obtain ⟨skipped, hskipped, -⟩ := leads_gap .between 0 cs pos false []
  obtain ⟨own, hown, -⟩ := ((heads_lexemeAfter _).2 h).1
  exact ⟨skipped ++ own, by rw [List.append_assoc, ← hown, ← hskipped]⟩

/-! ### Texts of tokens -/

/-- The tokens of a text up to its end, if all of them are whole and without a fault. -/
def tokens? : Nat → List Char → Nat → Option (List Token)
  | 0, _, _ => none
  | n + 1, cs, pos =>
    let l := lexeme cs pos
    if l.faults.isEmpty then
      match l.token with
      | .endOfText => some []
      | .broken _ => none
      | t => (tokens? n l.rest l.stop).map (t :: ·)
    else none

/-- The names in a list of declarators, each with the literal it is initialised with. -/
def declarators? : List Token → Option (List (String × String))
  | [.word name, .punctuator (.assign none), .string value _] => some [(name, value)]
  | [.word name, .punctuator (.assign none), .string value _, .punctuator .semicolon] =>
    some [(name, value)]
  | .word name :: .punctuator (.assign none) :: .string value _ :: .punctuator .comma :: ts =>
    (declarators? ts).map ((name, value) :: ·)
  | _ => none

/-- The names that a text declares as constants, with the values of the literals that they are
initialised with; none if the text is anything else. -/
def constants (cs : List Char) : List (String × String) :=
  match tokens? (cs.length + 1) cs 0 with
  | some (.word "const" :: ts) => (declarators? ts).getD []
  | _ => []

theorem tokens?_cons {n : Nat} {cs : List Char} {pos : Nat} (hfaults : (lexeme cs pos).faults = [])
    (hwhole : (lexeme cs pos).token.IsWhole) (hmore : (lexeme cs pos).token ≠ .endOfText) :
    tokens? (n + 1) cs pos =
      (tokens? n (lexeme cs pos).rest (lexeme cs pos).stop).map ((lexeme cs pos).token :: ·) := by
  rw [tokens?, hfaults, if_pos (by rfl)]
  split
  · exact absurd ‹_› hmore
  · exact absurd ‹_› (hwhole _)
  · rfl

/-- Literals among the tokens of a text are literals in the text. -/
theorem quotes_of_tokens? {n : Nat} {cs : List Char} {pos : Nat} {ts : List Token}
    (h : tokens? n cs pos = some ts) {value raw : String} (hmem : .string value raw ∈ ts) :
    Quotes cs value := by
  induction n generalizing cs pos ts with
  | zero => cases h
  | succ n ih =>
    rw [tokens?] at h
    split at h
    · rename_i hfaults
      split at h
      · cases h
        cases hmem
      · cases h
      · rename_i hbroken
        obtain ⟨ts, hts, rfl⟩ := Option.map_eq_some_iff.1 h
        rcases List.mem_cons.1 hmem with hmem | hmem
        · exact quotes_of_lexeme hmem.symm (List.isEmpty_iff.1 hfaults)
        · obtain ⟨own, hown⟩ := suffix_lexeme hbroken
          exact hown ▸ (ih hts hmem).append own
    · cases h

/-- The value of a constant is that of a literal. -/
theorem mem_of_declarators? {ts : List Token} {declared : List (String × String)}
    (h : declarators? ts = some declared) {name value : String} (hmem : (name, value) ∈ declared) :
    ∃ raw, .string value raw ∈ ts := by
  fun_induction declarators? ts generalizing declared with
  | case1 | case2 =>
    cases h
    cases List.mem_singleton.1 hmem
    exact ⟨_, .tail _ (.tail _ (.head _))⟩
  | case3 =>
    rename_i ih
    obtain ⟨declared, hdeclared, rfl⟩ := Option.map_eq_some_iff.1 h
    rcases List.mem_cons.1 hmem with hmem | hmem
    · cases hmem
      exact ⟨_, .tail _ (.tail _ (.head _))⟩
    · obtain ⟨raw, hraw⟩ := ih hdeclared hmem
      exact ⟨raw, .tail _ (.tail _ (.tail _ (.tail _ hraw)))⟩
  | case4 => cases h

/-! ### One constant -/

/-- The text that declares one constant. -/
def constant (name address : List Char) : List Char :=
  "const".toList ++ ' ' :: (name ++ ' ' :: '=' :: ' ' :: '\'' :: (address ++ ['\'']))

/-- A literal that fills the text but for a blank has nothing escaped in it. -/
theorem isUnescaped_of_quotes {address : List Char}
    (h : Quotes (' ' :: '\'' :: (address ++ ['\''])) (String.ofList address)) :
    IsUnescaped address := by
  obtain ⟨before, quote, own, rest, hcs, hquote, hle, hplain⟩ := h
  rw [String.toList_ofList] at hle hplain
  have hlength := congrArg List.length hcs
  simp only [List.length_cons, List.length_append, List.length_nil] at hlength
  cases before with
  | nil =>
    obtain ⟨rfl, -⟩ := List.cons.inj hcs
    exact absurd hquote (by decide)
  | cons b before =>
    rw [List.length_cons] at hlength
    obtain rfl : before = [] := List.length_eq_zero_iff.1 (by omega)
    obtain rfl : rest = [] := List.length_eq_zero_iff.1 (by omega)
    obtain ⟨-, hcs⟩ := List.cons.inj hcs
    obtain ⟨rfl, hcs⟩ := List.cons.inj hcs
    obtain rfl := List.append_cancel_right hcs
    exact hplain rfl

theorem tokens?_word {n : Nat} {cs w rest : List Char} {pos : Nat}
    (h : (lexeme cs pos).Spells w rest) : tokens? (n + 1) cs pos =
      (tokens? n rest (lexeme cs pos).stop).map (.word (String.ofList w) :: ·) := by
  rw [tokens?_cons h.faults (by rw [h.token]; exact nofun) (by rw [h.token]; exact nofun), h.token,
    h.rest]

/-- An identifier between blanks is read. -/
theorem spells_between (blanks : List Char) (hblanks : ∀ c ∈ blanks, isGapBlank c = true)
    {w : List Char} (hw : IsIdentifier w) (rest : List Char) (pos : Nat) :
    (lexeme (blanks ++ (w ++ ' ' :: rest)) pos).Spells w (' ' :: rest) := by
  refine spells_lexeme hblanks hw ?_ pos
  rintro _ ⟨⟩
  decide

/-- The tokens of a declaration are those before the literal and those of the rest. -/
theorem exists_tokens?_eq {name : List Char} (hname : IsIdentifier name) (address : List Char)
    (n pos : Nat) : ∃ pos', tokens? (n + 3) (constant name address) pos =
      (tokens? n (' ' :: '\'' :: (address ++ ['\''])) pos').map fun ts =>
        .word "const" :: .word (String.ofList name) :: .punctuator (.assign none) :: ts := by
  have hkeyword : IsIdentifier "const".toList := by decide
  have hassign : ∀ (n pos : Nat) (cs : List Char), tokens? (n + 1) (' ' :: '=' :: ' ' :: cs) pos =
      (tokens? n (' ' :: cs) (pos + 2)).map (.punctuator (.assign none) :: ·) := fun _ _ _ => rfl
  have hconst : (lexeme (constant name address) pos).Spells "const".toList
      (' ' :: (name ++ ' ' :: '=' :: ' ' :: '\'' :: (address ++ ['\'']))) :=
    spells_between [] nofun hkeyword _ pos
  have hbinding : (lexeme (' ' :: (name ++ ' ' :: '=' :: ' ' :: '\'' :: (address ++ ['\''])))
      (lexeme (constant name address) pos).stop).Spells name _ :=
    spells_between [' '] (List.forall_mem_singleton.2 (by decide)) hname _ _
  rw [tokens?_word hconst, tokens?_word hbinding, hassign, Option.map_map, Option.map_map]
  exact ⟨_, rfl⟩

theorem exists_of_mem_getD {α : Type} {o : Option (List α)} {a : α} (h : a ∈ o.getD []) :
    ∃ l, o = some l ∧ a ∈ l := by
  cases o with
  | none => cases h
  | some l => exact ⟨l, rfl, h⟩

/-- What is declared depends on how the literal is read. -/
theorem exists_constants_eq {name : List Char} (hname : IsIdentifier name) (address : List Char) :
    ∃ n pos, constants (constant name address) =
      ((tokens? (n + 2) (' ' :: '\'' :: (address ++ ['\''])) pos).bind fun ts => declarators?
        (.word (String.ofList name) :: .punctuator (.assign none) :: ts)).getD [] := by
  have hlength : (constant name address).length + 1 = name.length + address.length + 9 + 3 := by
    simp [constant]
    omega
  obtain ⟨pos, hpos⟩ := exists_tokens?_eq hname address (name.length + address.length + 9) 0
  refine ⟨name.length + address.length + 7, pos, ?_⟩
  unfold constants
  rw [hlength, hpos]
  cases tokens? (name.length + address.length + 9) (' ' :: '\'' :: (address ++ ['\''])) pos with
  | none => rfl
  | some ts => rfl

theorem constants_of_isUnescaped {name address : List Char} (hname : IsIdentifier name)
    (h : IsUnescaped address) :
    constants (constant name address) = [(String.ofList name, String.ofList address)] := by
  obtain ⟨n, pos, heq⟩ := exists_constants_eq hname address
  have hliteral := lexeme_string h [] pos
  rw [heq, tokens?_cons (by rw [hliteral]) (by rw [hliteral]; exact nofun)
    (by rw [hliteral]; exact nofun), hliteral]
  rfl

theorem isUnescaped_of_mem {name address : List Char} (hname : IsIdentifier name) {b : String}
    (h : (b, String.ofList address) ∈ constants (constant name address)) : IsUnescaped address := by
  obtain ⟨n, pos, heq⟩ := exists_constants_eq hname address
  rw [heq] at h
  obtain ⟨declared, hdeclared, hmem⟩ := exists_of_mem_getD h
  obtain ⟨ts, hts, hdeclared⟩ := Option.bind_eq_some_iff.1 hdeclared
  obtain ⟨raw, hraw⟩ := mem_of_declarators? hdeclared hmem
  rcases List.mem_cons.1 hraw with hraw | hraw
  · cases hraw
  rcases List.mem_cons.1 hraw with hraw | hraw
  · cases hraw
  exact isUnescaped_of_quotes (quotes_of_tokens? hts hraw)

/-- **A constant gets an address as its value if nothing of the address has to be escaped**, and
only then. -/
theorem mem_constants_iff {name : List Char} (hname : IsIdentifier name) (address : List Char)
    (b : String) :
    (b, String.ofList address) ∈ constants (constant name address) ↔
      b = String.ofList name ∧ IsUnescaped address := by
  constructor
  · intro h
    have hunescaped := isUnescaped_of_mem hname h
    rw [constants_of_isUnescaped hname hunescaped, List.mem_singleton] at h
    exact ⟨(Prod.mk.inj h).1, hunescaped⟩
  · rintro ⟨rfl, hunescaped⟩
    rw [constants_of_isUnescaped hname hunescaped]
    exact List.mem_singleton_self _

end Script
end ElementBuild
