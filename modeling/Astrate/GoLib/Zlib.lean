import Astrate.GoLib.Bytes

/-!
# Size-prefixed zlib streams

The four octets of `binary.BigEndian` and a compressor as its users see it: a stream is written whole
and read up to a limit.
-/

set_option autoImplicit false

namespace Astrate.GoLib

/-- `binary.BigEndian.AppendUint32` to nothing; the number is taken modulo `2 ^ 32`. -/
def bigEndianUint32 (n : Nat) : Bytes :=
  [UInt8.ofNat (n / 16777216), UInt8.ofNat (n / 65536), UInt8.ofNat (n / 256), UInt8.ofNat n]

/-- `binary.BigEndian.Uint32` of four octets. -/
def readBigEndianUint32 : Bytes → Nat
  | [a, b, c, d] => a.toNat * 16777216 + b.toNat * 65536 + c.toNat * 256 + d.toNat
  | _ => 0

theorem readBigEndianUint32_bigEndianUint32 {n : Nat} (h : n < 4294967296) :
    readBigEndianUint32 (bigEndianUint32 n) = n := by
  simp only [bigEndianUint32, readBigEndianUint32, UInt8.toNat_ofNat']
  omega

/-- How a zlib stream can fail: the header is not one, or the data is damaged. -/
inductive ZlibError where
  | notStream
  | corrupt
  deriving DecidableEq, Repr

/-- A compressor: `read p n` is `io.ReadAll` of a reader on `p` limited to `n` octets. -/
structure Zlib where
  deflate : Bytes → Bytes
  read : Bytes → Nat → Except ZlibError Bytes

/-- What was written is read back. -/
def Zlib.Inverts (z : Zlib) : Prop := ∀ p n, z.read (z.deflate p) n = .ok (p.take n)

/-- The compressor that compresses nothing. -/
def Zlib.stored : Zlib := ⟨id, fun p n => .ok (p.take n)⟩

theorem Zlib.stored_inverts : Zlib.stored.Inverts := fun _ _ => rfl

end Astrate.GoLib
