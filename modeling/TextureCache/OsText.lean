import TextureCache.Bytes

/-! Texts of the operating system, as names of files and on command lines. They are Unicode as a
rule, but any bytes can stand there. -/
namespace TextureCache

namespace Utf8

/-- A character of which the last bytes are still to come. -/
structure Unfinished where
  bits : Nat
  /-- How many bytes come behind the next one. -/
  further : Nat
  least : UInt8
  most : UInt8
  deriving DecidableEq, Repr

/-- What a byte makes of those before it. -/
inductive Reading where
  | whole (char : Char)
  | unfinished (rest : Unfinished)
  | invalid
  deriving DecidableEq, Repr

/-- The first byte of a character. The bounds of the second one leave out what is spelled in fewer
bytes, surrogates, and what lies past the last character. -/
def lead (byte : UInt8) : Reading :=
  if byte < 0x80 then .whole (Char.ofNat byte.toNat)
  else if byte < 0xc2 then .invalid
  else if byte < 0xe0 then .unfinished ⟨byte.toNat - 0xc0, 0, 0x80, 0xbf⟩
  else if byte < 0xf0 then
    .unfinished ⟨byte.toNat - 0xe0, 1, if byte = 0xe0 then 0xa0 else 0x80,
      if byte = 0xed then 0x9f else 0xbf⟩
  else if byte < 0xf5 then
    .unfinished ⟨byte.toNat - 0xf0, 2, if byte = 0xf0 then 0x90 else 0x80,
      if byte = 0xf4 then 0x8f else 0xbf⟩
  else .invalid

def Unfinished.next (char : Unfinished) (byte : UInt8) : Reading :=
  if byte < char.least ∨ char.most < byte then .invalid
  else
    let bits := char.bits * 64 + (byte.toNat - 0x80)
    match char.further with
    | 0 => .whole (Char.ofNat bits)
    | further + 1 => .unfinished ⟨bits, further, 0x80, 0xbf⟩

/-- The characters that bytes spell, and nothing for every start of a character that is not one. -/
def decode : (pending : Option Unfinished) → Bytes → List (Option Char)
  | pending, [] => pending.toList.map fun _ => none
  | pending, byte :: rest =>
    let (broken, reading) := match pending with
      | none => ([], lead byte)
      | some char =>
        match char.next byte with
        | .invalid => ([none], lead byte)
        | reading => ([], reading)
    broken ++ match reading with
      | .whole char => some char :: decode none rest
      | .unfinished char => decode (some char) rest
      | .invalid => none :: decode none rest

end Utf8

inductive OsText where
  | unicode (text : String)
  /-- Bytes that are not all characters. -/
  | raw (bytes : Bytes) (broken : none ∈ Utf8.decode none bytes)
  deriving DecidableEq

namespace OsText

def unicode? : OsText → Option String
  | unicode text => some text
  | raw _ _ => none

/-- How messages show the text: what is no character is replaced. -/
def shown : OsText → String
  | unicode text => text
  | raw bytes _ => String.ofList ((Utf8.decode none bytes).map (·.getD '\uFFFD'))

end OsText
end TextureCache
