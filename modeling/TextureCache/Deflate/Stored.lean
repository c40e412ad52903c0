import TextureCache.Digest.Checksum

/-! A zlib stream that stores its contents in blocks of plain bytes. -/
namespace TextureCache.Deflate

/-- The most bytes that one stored block can hold. -/
def storedLimit : Nat := 0xffff

/-- A stored block: the mark of the last block, the length and its inverse, and the bytes. -/
def storedBytes (last : Bool) (bytes : Bytes) : Bytes :=
  (if last then 1 else 0) :: Bytes.littleEndian 2 bytes.length ++
    Bytes.littleEndian 2 (storedLimit - bytes.length) ++ bytes

/-- As many blocks as the bytes need when `more` full blocks come before the last. -/
def storedBlocks : (more : Nat) → Bytes → Bytes
  | 0, bytes => storedBytes true bytes
  | more + 1, bytes =>
    storedBytes false (bytes.take storedLimit) ++ storedBlocks more (bytes.drop storedLimit)

/-- A stream that holds the bytes. -/
def store (bytes : Bytes) : Bytes :=
  0x78 :: 0x01 :: storedBlocks (bytes.length / storedLimit) bytes ++
    Bytes.bigEndian 4 (adler32 bytes)

end TextureCache.Deflate
