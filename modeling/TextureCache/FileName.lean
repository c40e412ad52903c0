import TextureCache.Text
import TextureCache.Texture
import TextureCache.Digest.Xxh3

/-! File names that say what a file holds: what the texture is bound as, the digest of its
texels, its extents, and for a single slice the mip level and index. `render` writes a name and
`parse?` recognises one, so both sides of the naming contract are here. -/
namespace TextureCache

/-- The image containers that the cache reads and writes. -/
inductive Container where
  | dds
  | png
  deriving DecidableEq, Repr

def Container.extension : Container → String
  | dds => "dds"
  | png => "png"

def Container.ofExtension? (extension : List Char) : Option Container :=
  [dds, png].find? fun container => container.extension.toList == extension

/-- The first word of a file name: what the texture is bound as. -/
inductive NameKind where
  | flat
  | flatArray
  | volume
  | cube
  | cubeArray
  | other
  deriving DecidableEq, Repr

namespace NameKind

def word : NameKind → String
  | flat => "tex2d"
  | flatArray => "texa2d"
  | volume => "tex3d"
  | cube => "texcube"
  | cubeArray => "texacube"
  | other => "tex"

def all : List NameKind := [flat, flatArray, volume, cube, cubeArray, other]

def ofWord? (word : List Char) : Option NameKind := all.find? fun kind => kind.word.toList == word

/-- One-dimensional textures and buffers share the plain word. -/
def ofTarget : Target → NameKind
  | .texture2D => flat
  | .texture2DArray => flatArray
  | .texture3D => volume
  | .cubemap => cube
  | .cubemapArray => cubeArray
  | .texture1D | .textureBuffer => other

end NameKind

def isHexDigit (char : Char) : Bool := ('0' ≤ char && char ≤ '9') || ('a' ≤ char && char ≤ 'f')

/-- A content digest in writing: 32 lowercase hexadecimal digits. -/
structure ContentHash where
  digits : List Char
  length_eq : digits.length = 32
  all_hex : digits.all isHexDigit = true
  deriving DecidableEq, Repr

namespace ContentHash

/-- Accept a text that has the form of a digest. -/
def ofDigits? (digits : List Char) : Option ContentHash :=
  if valid : digits.length = 32 ∧ digits.all isHexDigit = true then
    some ⟨digits, valid.1, valid.2⟩
  else none

private theorem length_hex (bytes : Bytes) :
    (Bytes.hex bytes).toList.length = 2 * bytes.length := by
  simp only [Bytes.hex, String.toList_ofList]
  induction bytes with
  | nil => rfl
  | cons byte rest ih => simp only [List.flatMap_cons, List.length_append, ih]; simp; omega

private theorem isHexDigit_hexDigit : ∀ digit < 16, isHexDigit (Bytes.hexDigit digit) = true := by
  decide

private theorem all_hex_hex (bytes : Bytes) : (Bytes.hex bytes).toList.all isHexDigit = true := by
  simp only [Bytes.hex, String.toList_ofList]
  induction bytes with
  | nil => rfl
  | cons byte rest ih =>
    have bound : byte.toNat < 256 := byte.toNat_lt
    have high := isHexDigit_hexDigit (byte.toNat / 16) (by omega)
    have low := isHexDigit_hexDigit (byte.toNat % 16) (by omega)
    simp [List.flatMap_cons, ih, high, low]

def ofBytes (bytes : Bytes) : ContentHash where
  digits := (Digest.Xxh3.hexDigest bytes).toList
  length_eq := by simp [Digest.Xxh3.hexDigest, length_hex]
  all_hex := all_hex_hex _

end ContentHash

/-- What a file name says about the file's contents, apart from its extension. -/
structure FileStem where
  kind : NameKind
  hash : ContentHash
  width : UInt32
  height : UInt32
  depthOrLayers : UInt32
  /-- The level and the index of a file that holds one slice. -/
  slice : Option (UInt32 × UInt32)
  deriving DecidableEq, Repr

/-- A file name of the cache: what it says and the container that its extension stands for. -/
structure FileName where
  stem : FileStem
  container : Container
  deriving DecidableEq, Repr

namespace FileStem

/-- A number in plain decimal. -/
def renderNumber (number : UInt32) : List Char := Nat.toDigits 10 number.toNat

/-- The part of a name that says which slice the file holds. -/
def renderSlice : Option (UInt32 × UInt32) → List Char
  | none => []
  | some (level, index) => '_' :: renderNumber level ++ 'x' :: renderNumber index

/-- `<kind>_<hash>_<width>x<height>x<depth>`, then `_<level>x<index>` for a slice. -/
def chars (stem : FileStem) : List Char :=
  stem.kind.word.toList ++ '_' :: stem.hash.digits ++ '_' :: renderNumber stem.width ++
    'x' :: renderNumber stem.height ++ 'x' :: renderNumber stem.depthOrLayers ++
    renderSlice stem.slice

/-- The name with an extension, which may be any text. -/
def withExtension (stem : FileStem) (extension : String) : String :=
  String.ofList (stem.chars ++ '.' :: extension.toList)

/-- The stem of the file that holds one slice of the same texture. -/
def ofSlice (stem : FileStem) (level index : UInt32) : FileStem :=
  { stem with slice := some (level, index) }

end FileStem

namespace FileName

def render (name : FileName) : String := name.stem.withExtension name.container.extension

/-- The number that decimal digits spell. -/
def digitsValue (digits : List Char) : Nat :=
  digits.foldl (fun value digit => value * 10 + (digit.toNat - 48)) 0

/-- Digits without their leading plus sign, if they have one. -/
def withoutPlus : List Char → List Char
  | '+' :: digits => digits
  | digits => digits

/-- Read a 32-bit number: an optional plus sign and at least one decimal digit. -/
def parseNumber? (text : List Char) : Option UInt32 :=
  let digits := withoutPlus text
  let value := digitsValue digits
  if digits ≠ [] ∧ digits.all Char.isDigit = true ∧ value < UInt32.size then
    some (UInt32.ofNat value)
  else none

/-- Read numbers with an `x` between them. -/
def parseNumbers? (text : List Char) : Option (List UInt32) :=
  (Text.splitOn 'x' text).mapM parseNumber?

def parseExtents? (text : List Char) : Option (UInt32 × UInt32 × UInt32) := do
  match ← parseNumbers? text with
  | [width, height, depthOrLayers] => some (width, height, depthOrLayers)
  | _ => none

def parseSlice? (text : List Char) : Option (UInt32 × UInt32) := do
  match ← parseNumbers? text with
  | [level, index] => some (level, index)
  | _ => none

/-- Read the parts that every name has. -/
def parseStem? (kind hash extents : List Char) (slice : Option (UInt32 × UInt32)) :
    Option FileStem := do
  let kind ← NameKind.ofWord? kind
  let hash ← ContentHash.ofDigits? hash
  let (width, height, depthOrLayers) ← parseExtents? extents
  some { kind, hash, width, height, depthOrLayers, slice }

def parseChars? (chars : List Char) : Option FileName := do
  let (stem, extension) ← Text.splitLast? '.' chars
  let container ← Container.ofExtension? extension
  match Text.splitOn '_' stem with
  | [kind, hash, extents] => do
    let stem ← parseStem? kind hash extents none
    some ⟨stem, container⟩
  | [kind, hash, extents, slice] => do
    let slice ← parseSlice? slice
    let stem ← parseStem? kind hash extents (some slice)
    some ⟨stem, container⟩
  | _ => none

/-- Recognise a file name of the cache. -/
def parse? (name : String) : Option FileName := parseChars? name.toList

end FileName

namespace Texture

def fileStem (texture : Texture) : FileStem where
  kind := NameKind.ofTarget texture.target
  hash := ContentHash.ofBytes texture.data
  width := texture.shape.width
  height := texture.shape.height
  depthOrLayers := texture.shape.depthOrLayers
  slice := none

def fileName (texture : Texture) (container : Container) : FileName :=
  ⟨texture.fileStem, container⟩

def sliceName (texture : Texture) (level index : Nat) : FileName :=
  ⟨texture.fileStem.ofSlice (UInt32.ofNat level) (UInt32.ofNat index), .png⟩

end Texture
end TextureCache
