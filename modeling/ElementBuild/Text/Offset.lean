/-
# Byte offsets into a text

A text is a list of characters.  An offset counts the bytes of its UTF-8 form,
so only some offsets fall between two characters.  `splitAt?` cuts at an offset
that does, `floorSplit` at the last boundary that is not above the offset, and
`slice?` takes the part between two boundaries.
-/

namespace ElementBuild
namespace Text

/-- The number of bytes of a text in UTF-8. -/
def byteLength : List Char → Nat
  | [] => 0
  | c :: cs => c.utf8Size + byteLength cs

@[simp] theorem byteLength_nil : byteLength [] = 0 := rfl

@[simp] theorem byteLength_cons (c : Char) (cs : List Char) :
    byteLength (c :: cs) = c.utf8Size + byteLength cs := rfl

@[simp] theorem byteLength_append (xs ys : List Char) :
    byteLength (xs ++ ys) = byteLength xs + byteLength ys := by
  induction xs with
  | nil => simp
  | cons c cs ih => simp [ih]; omega

/-- The two parts of a text around a byte offset, if a character starts there
or the text ends there. -/
def splitAt? : List Char → Nat → Option (List Char × List Char)
  | cs, 0 => some ([], cs)
  | [], _ + 1 => none
  | c :: cs, n + 1 =>
    if c.utf8Size ≤ n + 1 then
      (splitAt? cs (n + 1 - c.utf8Size)).map fun (before, rest) => (c :: before, rest)
    else none

/-- The two parts of a text around the last character boundary that is not
above the offset; an offset past the end stands for the end. -/
def floorSplit : List Char → Nat → List Char × List Char
  | [], _ => ([], [])
  | c :: cs, n =>
    if c.utf8Size ≤ n then
      let (before, rest) := floorSplit cs (n - c.utf8Size)
      (c :: before, rest)
    else ([], c :: cs)

/-- The part of a text between two byte offsets, if both are boundaries. -/
def slice? (cs : List Char) (start stop : Nat) : Option (List Char) :=
  if start ≤ stop then
    (splitAt? cs start).bind fun (_, rest) => (splitAt? rest (stop - start)).map (·.1)
  else none

/-- Nothing is lost by a cut. -/
theorem append_of_splitAt? {cs : List Char} {n : Nat} {before rest : List Char}
    (h : splitAt? cs n = some (before, rest)) : before ++ rest = cs ∧ byteLength before = n := by
  fun_induction splitAt? cs n generalizing before rest with
  | case1 cs => simp_all
  | case2 => simp at h
  | case3 c cs n hc ih =>
    obtain ⟨⟨b, r⟩, hb, hr⟩ := Option.map_eq_some_iff.1 h
    obtain ⟨rfl, rfl⟩ := Prod.mk.inj hr
    obtain ⟨h₁, h₂⟩ := ih hb
    exact ⟨by simp [h₁], by simp [h₂]; omega⟩
  | case4 => simp at h

/-- A cut falls at the end of every first part. -/
theorem splitAt?_append (before rest : List Char) :
    splitAt? (before ++ rest) (byteLength before) = some (before, rest) := by
  induction before with
  | nil => cases rest <;> rfl
  | cons c cs ih =>
    have hc : 0 < c.utf8Size := Char.utf8Size_pos c
    obtain ⟨k, hk⟩ := Nat.exists_eq_add_of_le' (show 1 ≤ c.utf8Size + byteLength cs by omega)
    have h : c.utf8Size ≤ k + 1 := by omega
    have h' : k + 1 - c.utf8Size = byteLength cs := by omega
    simp [byteLength_cons, hk, splitAt?, h, h', ih]

/-- Nothing is lost by cutting at the boundary below an offset. -/
theorem floorSplit_append (cs : List Char) (n : Nat) :
    (floorSplit cs n).1 ++ (floorSplit cs n).2 = cs := by
  induction cs generalizing n with
  | nil => rfl
  | cons c cs ih => unfold floorSplit; split <;> simp [ih]

/-- The boundary below an offset is not above it. -/
theorem byteLength_floorSplit_le (cs : List Char) (n : Nat) :
    byteLength (floorSplit cs n).1 ≤ n := by
  induction cs generalizing n with
  | nil => simp [floorSplit]
  | cons c cs ih =>
    unfold floorSplit; split
    · have := ih (n - c.utf8Size); simp only [byteLength_cons]; omega
    · simp

end Text
end ElementBuild
