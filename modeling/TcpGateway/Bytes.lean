/-!
# Bytes and big-endian words

The byte strings that packets, frames and buffers are made of, and the network (big-endian)
form of 16-bit and 32-bit words.  Every writer has the matching reader beside it: `ofU16` and
`toU16`, `ofU32` and `toU32`.
-/

namespace TcpGateway

/-- A finite string of bytes, first byte first. -/
abbrev Bytes := List UInt8

namespace Bytes

/-- Byte `i` of `data`, zero past the end. -/
def byteAt (data : Bytes) (i : Nat) : UInt8 := data.getD i 0

/-- The number written by two bytes, high byte first. -/
def wordOf (high low : UInt8) : Nat := high.toNat * 256 + low.toNat

/-- The two bytes of a 16-bit word, high byte first. -/
def ofU16 (word : UInt16) : Bytes :=
  [UInt8.ofNat (word.toNat / 256), word.toUInt8]

/-- The 16-bit word written by two bytes. -/
def toU16 (high low : UInt8) : UInt16 := UInt16.ofNat (wordOf high low)

/-- The four bytes of a 32-bit word, high byte first. -/
def ofU32 (word : UInt32) : Bytes :=
  [UInt8.ofNat (word.toNat / 16777216), UInt8.ofNat (word.toNat / 65536),
    UInt8.ofNat (word.toNat / 256), word.toUInt8]

/-- The 32-bit word written by four bytes. -/
def toU32 (b₃ b₂ b₁ b₀ : UInt8) : UInt32 :=
  UInt32.ofNat (wordOf b₃ b₂ * 65536 + wordOf b₁ b₀)

/-- The 16-bit word at byte offset `i`, missing bytes counting as zero. -/
def u16At (data : Bytes) (i : Nat) : UInt16 :=
  toU16 (data.byteAt i) (data.byteAt (i + 1))

/-- The 32-bit word at byte offset `i`, missing bytes counting as zero. -/
def u32At (data : Bytes) (i : Nat) : UInt32 :=
  toU32 (data.byteAt i) (data.byteAt (i + 1)) (data.byteAt (i + 2)) (data.byteAt (i + 3))

/-- The two bytes of a word read back as that word. -/
theorem toU16_ofU16 (word : UInt16) :
    toU16 (UInt8.ofNat (word.toNat / 256)) word.toUInt8 = word := by
  apply UInt16.toNat_inj.mp
  have h := word.toNat_lt
  simp only [toU16, wordOf, UInt16.toNat_ofNat', UInt8.toNat_ofNat',
    UInt16.toNat_toUInt8]
  omega

/-- The four bytes of a word read back as that word. -/
theorem toU32_ofU32 (word : UInt32) :
    toU32 (UInt8.ofNat (word.toNat / 16777216)) (UInt8.ofNat (word.toNat / 65536))
      (UInt8.ofNat (word.toNat / 256)) word.toUInt8 = word := by
  apply UInt32.toNat_inj.mp
  have h := word.toNat_lt
  simp only [toU32, wordOf, UInt32.toNat_ofNat', UInt8.toNat_ofNat',
    UInt32.toNat_toUInt8]
  omega

end Bytes

end TcpGateway
