/-
# Keys

What a build remembers is told by short texts, of which there are finitely many.  A text
stands for a number (`Keys.code`), and numbers below a bound are the keys of short texts.
Each text that is remembered anew takes a key that was free (`Keys.room_cons_lt`), so there
is less and less room.
-/
import Mathlib.Data.Finset.Card
import Mathlib.Data.Nat.Digits.Lemmas

namespace ElementBuild
namespace Keys

/-! ### Texts as numbers -/

/-- The bytes of a text as the digits of a number, none of them zero. -/
def digits (s : String) : List Nat := s.toByteArray.data.toList.map fun b => b.toNat + 1

/-- The number that stands for a text. -/
def code (s : String) : Nat := Nat.ofDigits 257 (digits s)

theorem digits_lt {s : String} : ∀ n ∈ digits s, n < 257 := by
  intro n hn
  obtain ⟨b, -, rfl⟩ := List.mem_map.1 hn
  have hbyte := b.toNat_lt
  omega

/-- Short texts have small numbers. -/
theorem code_lt {s : String} {n : Nat} (h : s.utf8ByteSize ≤ n) : code s < 257 ^ n := by
  have hlength : (digits s).length = s.utf8ByteSize := by
    rw [digits, List.length_map, Array.length_toList]
    rfl
  have hlt := Nat.ofDigits_lt_base_pow_length (b := 257) (by decide) (digits_lt (s := s))
  rw [hlength] at hlt
  exact hlt.trans_le (Nat.pow_le_pow_right (by decide) h)

theorem digits_injective : Function.Injective digits := by
  intro s t h
  have hsucc : Function.Injective fun b : UInt8 => b.toNat + 1 := fun b c hbc =>
    UInt8.toNat_inj.1 (Nat.succ_injective hbc)
  have hbytes := List.map_injective_iff.2 hsucc h
  exact String.toByteArray_inj.1 (ByteArray.ext (Array.toList_inj.1 hbytes))

/-- Different texts have different numbers. -/
theorem code_injective : Function.Injective code := by
  intro s t h
  have hdigits : ∀ s, Nat.digits 257 (code s) = digits s := by
    intro s
    refine Nat.digits_ofDigits 257 (by decide) (digits s) digits_lt fun hne => ?_
    obtain ⟨b, -, hb⟩ := List.mem_map.1 (List.getLast_mem hne)
    rw [← hb]
    exact Nat.succ_ne_zero _
  refine digits_injective ?_
  rw [← hdigits s, ← hdigits t, h]

/-! ### Room -/

variable {κ : Type} [DecidableEq κ] {keys : Finset κ} {taken taken' : List κ} {k : κ}

/-- How many keys are free. -/
def room (keys : Finset κ) (taken : List κ) : Nat := (keys.filter (· ∉ taken)).card

theorem room_le (keys : Finset κ) (taken : List κ) : room keys taken ≤ keys.card :=
  Finset.card_le_card (Finset.filter_subset _ _)

/-- The more is taken, the less is free. -/
theorem room_anti (h : taken ⊆ taken') : room keys taken' ≤ room keys taken :=
  Finset.card_le_card (Finset.monotone_filter_right _ fun _ _ hfree hk => hfree (h hk))

/-- **A free key that is taken leaves less room.** -/
theorem room_cons_lt (hk : k ∈ keys) (hfree : k ∉ taken) :
    room keys (k :: taken) < room keys taken := by
  refine Finset.card_lt_card (Finset.ssubset_iff_of_subset (fun j hj => ?_) |>.2 ⟨k, ?_, ?_⟩)
  · obtain ⟨hkey, hj⟩ := Finset.mem_filter.1 hj
    exact Finset.mem_filter.2 ⟨hkey, fun hmem => hj (List.mem_cons_of_mem _ hmem)⟩
  · exact Finset.mem_filter.2 ⟨hk, hfree⟩
  · exact fun hmem => (Finset.mem_filter.1 hmem).2 List.mem_cons_self

end Keys
end ElementBuild
