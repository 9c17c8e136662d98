/-
# The parts of a stylesheet

A stylesheet is read from its start: where a local address stands it is one part, and any other
character is a part of its own (`parts`).  Rebasing writes each part anew (`toList_rebase`), so what
it does is followed part by part (`parts_induction`).
-/
import ElementBuild.Proofs.Style.Address

namespace ElementBuild
namespace Style

/-- A part of a stylesheet. -/
inductive Part where
  | plain (c : Char)
  | address (a : LocalAddress)
  deriving DecidableEq, Repr

namespace Part

/-- A part as it is written once it is rebased. -/
def write (folder : List Char) : Part → List Char
  | plain c => [c]
  | address a => a.render folder

/-- The address that a part is. -/
def address? : Part → Option LocalAddress
  | plain _ => none
  | address a => some a

end Part

/-- The parts of a text, with as many steps as rebasing takes. -/
def partsFrom : Nat → List Char → List Part
  | 0, cs => cs.map .plain
  | _, [] => []
  | n + 1, c :: cs =>
    match localAddress? (c :: cs) with
    | some (address, rest) => .address address :: partsFrom n rest
    | none => .plain c :: partsFrom n cs

/-- The parts of a text. -/
def parts (cs : List Char) : List Part := partsFrom cs.length cs

/-- The local addresses of a text, in their order. -/
def addressesIn (cs : List Char) : List LocalAddress := (parts cs).filterMap Part.address?

/-- The local addresses of a stylesheet. -/
def addresses (css : String) : List LocalAddress := addressesIn css.toList

/-- A text rebased to a folder. -/
def rebased (folder cs : List Char) : List Char := (parts cs).flatMap (Part.write folder)

variable {folder cs rest : List Char} {a : LocalAddress} {c : Char}

/-! ### Reading on -/

theorem length_lt_of_opens (h : Opens a rest cs) : rest.length < cs.length := by
  obtain ⟨-, -, blanks, ending, -, -, rfl⟩ := h
  simp
  omega

/-- As many steps as there are characters are enough. -/
theorem partsFrom_eq_of_length_le {m n : Nat} (hm : cs.length ≤ m) (hn : cs.length ≤ n) :
    partsFrom m cs = partsFrom n cs := by
  induction m generalizing n cs with
  | zero =>
    obtain rfl := List.length_eq_zero_iff.1 (Nat.le_zero.1 hm)
    cases n <;> rfl
  | succ m ih =>
    cases cs with
    | nil => cases n <;> rfl
    | cons c cs =>
      obtain _ | n := n
      · cases hn
      rw [partsFrom, partsFrom]
      split
      · rename_i a rest haddress
        have hlength := length_lt_of_opens (localAddress?_eq_some_iff.1 haddress)
        rw [List.length_cons] at hlength hm hn
        rw [@ih rest n (by omega) (by omega)]
      · rw [ih (Nat.le_of_succ_le_succ hm) (Nat.le_of_succ_le_succ hn)]

@[simp] theorem parts_nil : parts [] = [] := rfl

theorem parts_of_none (h : localAddress? (c :: cs) = none) :
    parts (c :: cs) = .plain c :: parts cs := by
  rw [parts, List.length_cons, partsFrom, h, parts]

theorem parts_of_opens (h : Opens a rest cs) : parts cs = .address a :: parts rest := by
  have hlength := length_lt_of_opens h
  cases cs with
  | nil => cases hlength
  | cons c cs =>
    rw [parts, List.length_cons, partsFrom, localAddress?_eq_some_iff.2 h]
    exact congrArg _ (partsFrom_eq_of_length_le (Nat.le_of_lt_succ hlength) (Nat.le_refl _))

/-- A text is followed part by part. -/
theorem parts_induction {motive : List Char → Prop} (nil : motive [])
    (plain : ∀ c cs, localAddress? (c :: cs) = none → motive cs → motive (c :: cs))
    (address : ∀ a rest cs, Opens a rest cs → motive rest → motive cs) (cs : List Char) :
    motive cs := by
  induction h : cs.length using Nat.strongRecOn generalizing cs with
  | ind n ih =>
    subst h
    cases cs with
    | nil => exact nil
    | cons c cs =>
      cases haddress : localAddress? (c :: cs) with
      | none => exact plain c cs haddress (ih _ (Nat.lt_succ_self _) cs rfl)
      | some found =>
        have hopens := localAddress?_eq_some_iff.1 haddress
        exact address _ _ _ hopens (ih _ (length_lt_of_opens hopens) _ rfl)

/-! ### Writing anew -/

theorem rebaseFrom_eq (folder : List Char) (n : Nat) (cs : List Char) :
    rebaseFrom folder n cs = (partsFrom n cs).flatMap (Part.write folder) := by
  induction n generalizing cs with
  | zero =>
    rw [rebaseFrom, partsFrom, List.flatMap_map]
    exact (List.flatMap_singleton' cs).symm
  | succ n ih =>
    cases cs with
    | nil => rfl
    | cons c cs =>
      rw [rebaseFrom, partsFrom]
      cases localAddress? (c :: cs) with
      | none =>
        dsimp only
        rw [List.flatMap_cons, ih]
        rfl
      | some found =>
        dsimp only
        rw [List.flatMap_cons, ih]
        rfl

theorem toList_rebase (folder css : String) :
    (rebase folder css).toList = rebased (withoutSlashes folder) css.toList := by
  rw [rebase, String.toList_ofList, rebaseFrom_eq, rebased, parts, String.length_toList]

@[simp] theorem rebased_nil : rebased folder [] = [] := rfl

theorem rebased_of_none (h : localAddress? (c :: cs) = none) :
    rebased folder (c :: cs) = c :: rebased folder cs := by
  rw [rebased, parts_of_none h]
  rfl

theorem rebased_of_opens (h : Opens a rest cs) :
    rebased folder cs = a.render folder ++ rebased folder rest := by
  rw [rebased, parts_of_opens h]
  rfl

@[simp] theorem addressesIn_nil : addressesIn [] = [] := rfl

theorem addressesIn_of_none (h : localAddress? (c :: cs) = none) :
    addressesIn (c :: cs) = addressesIn cs := by
  rw [addressesIn, parts_of_none h]
  rfl

theorem addressesIn_of_opens (h : Opens a rest cs) : addressesIn cs = a :: addressesIn rest := by
  rw [addressesIn, parts_of_opens h]
  rfl

end Style
end ElementBuild
