/-
# Text and bytes

`encode` gives the UTF-8 form of a text.  `decodeLossy` reads any bytes: each
longest beginning of a character that breaks off, and each byte that begins none,
is read as U+FFFD.
-/

namespace ElementBuild
namespace Text

/-- The bytes of a text in UTF-8. -/
def encode (s : String) : List UInt8 := s.toUTF8.toList

/-- The text that bytes write in UTF-8, if they do. -/
def decode? (bs : List UInt8) : Option String := String.fromUTF8? (ByteArray.mk bs.toArray)

/-- The number of bytes that follow the first byte of a character, and the least
and greatest value of the next one. -/
def sequenceOf? (b : UInt8) : Option (Nat × UInt8 × UInt8) :=
  if 0xc2 ≤ b ∧ b ≤ 0xdf then some (1, 0x80, 0xbf)
  else if b = 0xe0 then some (2, 0xa0, 0xbf)
  else if b = 0xed then some (2, 0x80, 0x9f)
  else if 0xe1 ≤ b ∧ b ≤ 0xef then some (2, 0x80, 0xbf)
  else if b = 0xf0 then some (3, 0x90, 0xbf)
  else if b = 0xf4 then some (3, 0x80, 0x8f)
  else if 0xf1 ≤ b ∧ b ≤ 0xf3 then some (3, 0x80, 0xbf)
  else none

/-- The bytes of a character after its first one, as far as they are there, and
whether all are. -/
def followers : Nat → UInt8 → UInt8 → List UInt8 → List UInt8 × Bool
  | 0, _, _, _ => ([], true)
  | _ + 1, _, _, [] => ([], false)
  | n + 1, low, high, b :: bs =>
    if low ≤ b ∧ b ≤ high then
      let (rest, ok) := followers n 0x80 0xbf bs
      (b :: rest, ok)
    else ([], false)

/-- The code point of the bytes of a character. -/
def codePoint (first : UInt8) (rest : List UInt8) : Nat :=
  let lead := match rest.length with
    | 1 => first.toNat % 32
    | 2 => first.toNat % 16
    | _ => first.toNat % 8
  rest.foldl (fun n b => 64 * n + b.toNat % 64) lead

/-- The characters of bytes; the number of bytes bounds the steps. -/
def lossyFrom : Nat → List UInt8 → List Char
  | 0, _ => []
  | _, [] => []
  | n + 1, b :: bs =>
    if b < 0x80 then Char.ofNat b.toNat :: lossyFrom n bs
    else
      match sequenceOf? b with
      | none => '\ufffd' :: lossyFrom n bs
      | some (count, low, high) =>
        let (rest, ok) := followers count low high bs
        (if ok then Char.ofNat (codePoint b rest) else '\ufffd') ::
          lossyFrom n (bs.drop rest.length)

/-- The text of any bytes. -/
def decodeLossy (bs : List UInt8) : String := String.ofList (lossyFrom bs.length bs)

end Text
end ElementBuild
