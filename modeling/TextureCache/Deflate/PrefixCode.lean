/-! Canonical prefix codes, given by the code length of every symbol. -/
namespace TextureCache.Deflate

structure PrefixCode where
  /-- The number of codes of each length, from length one up. -/
  counts : List Nat
  /-- The symbols by the length of their code, then by value. -/
  symbols : Array Nat
  deriving DecidableEq, Repr

structure CodeWord where
  symbol : Nat
  length : Nat
  deriving DecidableEq, Repr

namespace PrefixCode

/-- The code that gives every symbol a code of the listed length; zero stands for no code. -/
def ofLengths (lengths : List Nat) : PrefixCode :=
  let used := (List.range (lengths.foldl max 0)).map (· + 1)
  let withLength (length : Nat) : List Nat :=
    (lengths.zipIdx.filter fun entry => entry.1 = length).map Prod.snd
  { counts := used.map fun length => (withLength length).length
    symbols := (used.flatMap withLength).toArray }

/-- Every long enough string of bits starts with exactly one code. -/
def isComplete (code : PrefixCode) : Bool :=
  code.counts.foldl (fun taken count => 2 * taken + count) 0 = 1 <<< code.counts.length

/-- Take bits until they form a code. The codes of a length are consecutive, `first` is the lowest
of them and `place` is where its symbol stands. -/
def findFrom (symbols : Array Nat) :
    (counts : List Nat) → (length bits code first place : Nat) → Option CodeWord
  | [], _, _, _, _, _ => none
  | count :: counts, length, bits, code, first, place =>
    let code := 2 * code + bits % 2
    if code < first + count then
      some ⟨symbols.getD (place + (code - first)) 0, length + 1⟩
    else
      findFrom symbols counts (length + 1) (bits / 2) code (2 * (first + count)) (place + count)

/-- The word that a string of bits starts with, its first bit lowest. -/
def find? (code : PrefixCode) (bits : Nat) : Option CodeWord :=
  findFrom code.symbols code.counts 0 bits 0 0 0

end PrefixCode
end TextureCache.Deflate
