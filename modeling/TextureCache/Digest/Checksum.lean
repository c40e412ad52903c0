import TextureCache.Bytes

/-! Checksums of 32 bits: the cyclic one that guards a chunk and the pair of sums that guards a
compressed stream. -/
namespace TextureCache

/-- Divide the lowest bit out of a remainder of the reversed polynomial. -/
def crcStep (remainder : UInt32) : UInt32 :=
  if remainder &&& 1 = 1 then (remainder >>> 1) ^^^ 0xedb88320 else remainder >>> 1

def crcByte (remainder : UInt32) (byte : UInt8) : UInt32 :=
  Nat.repeat crcStep 8 (remainder ^^^ byte.toUInt32)

def crc32 (bytes : Bytes) : UInt32 := ~~~ bytes.foldl crcByte 0xffffffff

/-- The sum of all bytes and the sum of its running values, both modulo 65521. -/
def adlerSums (bytes : Bytes) : Nat × Nat :=
  bytes.foldl (fun (sum, total) byte =>
    let sum := (sum + byte.toNat) % 65521
    (sum, (total + sum) % 65521)) (1, 0)

/-- The two sums as one number. -/
def adler32 (bytes : Bytes) : Nat :=
  let (sum, total) := adlerSums bytes
  total * 65536 + sum

end TextureCache
