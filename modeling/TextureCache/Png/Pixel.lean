import TextureCache.Png.Row
import TextureCache.Texel.Packed

/-! From the samples of a row to pixels of RGBA8. -/
namespace TextureCache.Png

/-- The samples in the bytes of a row; several samples in a byte start at its high end. -/
def samples (depth : Nat) : List UInt8 → List Nat
  | [] => []
  | byte :: rest =>
    if depth = 16 then
      match rest with
      | [] => []
      | low :: rest => (byte.toNat * 256 + low.toNat) :: samples depth rest
    else if depth = 8 then byte.toNat :: samples depth rest
    else
      ((List.range (8 / depth)).map fun index =>
        bitField byte.toNat (8 - depth * (index + 1)) depth) ++ samples depth rest

/-- A sample in eight bits: few bits are repeated, sixteen are rounded. -/
def scale (depth sample : Nat) : UInt8 :=
  UInt8.ofNat (if depth = 16 then (sample + 128) / 257 else sample * 255 / ((1 <<< depth) - 1))

/-- The colour that is transparent, in samples. Of two bytes only the low one counts for samples
of up to eight bits, and a colour of sixteen bits has to have the exact length. -/
def transparentColor (preamble : Preamble) : Option (List Nat) := do
  let body ← preamble.transparency
  let channels := preamble.header.color.channels
  if preamble.header.depth = 16 then
    if body.length = 2 * channels then some (samples 16 body) else none
  else some ((List.range channels).map fun channel => (body.getD (2 * channel + 1) 0).toNat)

/-- The colours of a palette; a colour without a listed alpha is opaque. -/
def paletteColors : (palette alphas : Bytes) → List Rgba
  | red :: green :: blue :: rest, alphas =>
    ⟨red, green, blue, alphas.headD 255⟩ :: paletteColors rest alphas.tail
  | _, _ => []

/-- What turns samples into colours. -/
structure Legend where
  transparent : Option (List Nat)
  palette : Array Rgba
  deriving DecidableEq, Repr

/-- The legend of an image. The alphas of a palette count only if there are no more of them than
colours. -/
def Preamble.legend (preamble : Preamble) : Legend :=
  let palette := preamble.palette.getD []
  let alphas := preamble.transparency.getD []
  let alphas := if 3 * alphas.length ≤ palette.length then alphas else []
  ⟨transparentColor preamble, (paletteColors palette alphas).toArray⟩

/-- The colour of a pixel; colours that are missing from the palette are black and opaque. -/
def pixelColor (header : Header) (legend : Legend) (pixel : List Nat) : Rgba :=
  let sample (channel : Nat) : UInt8 := scale header.depth (pixel.getD channel 0)
  let alpha : UInt8 := if legend.transparent = some pixel then 0 else 255
  match header.color with
  | .gray => ⟨sample 0, sample 0, sample 0, alpha⟩
  | .rgb => ⟨sample 0, sample 1, sample 2, alpha⟩
  | .indexed => legend.palette.getD (pixel.getD 0 0) ⟨0, 0, 0, 255⟩
  | .grayAlpha => ⟨sample 0, sample 0, sample 0, sample 1⟩
  | .rgba => ⟨sample 0, sample 1, sample 2, sample 3⟩

/-- Cut samples into the pixels of a row of some width. -/
def groupSamples (channels : Nat) : (columns : Nat) → List Nat → List (List Nat)
  | 0, _ => []
  | columns + 1, samples =>
    samples.take channels :: groupSamples channels columns (samples.drop channels)

def rowPixels (header : Header) (legend : Legend) (columns : Nat) (row : Array UInt8) :
    List Rgba :=
  (groupSamples header.color.channels columns (samples header.depth row.toList)).map
    (pixelColor header legend)

/-- What the pixels outside the frame are: black, and clear if the pixels have an alpha. -/
def blankPixel (preamble : Preamble) : Rgba :=
  let isSolid := match preamble.header.color with
    | .gray | .rgb | .indexed => preamble.transparency.isNone
    | .grayAlpha | .rgba => false
  ⟨0, 0, 0, if isSolid then 255 else 0⟩

/-- The pixel of an interlaced image at a position. -/
def wovenPixel (blank : Rgba) (passes : List (Pass × Array (Array Rgba))) (row column : Nat) :
    Rgba :=
  match passes.find? fun entry => entry.1.covers column row with
  | none => blank
  | some (pass, pixels) =>
    (pixels.getD ((row - pass.top) / pass.down) #[]).getD ((column - pass.left) / pass.across)
      blank

/-- The pixels of an image from the rows of its passes. The pixels of a frame come first, row upon
row, except that interlacing keeps them in their place. -/
def imagePixels (preamble : Preamble) (rows : List Rows) : List Rgba :=
  let header := preamble.header
  let width := header.width.toNat
  let height := header.height.toNat
  let columns := preamble.extents.1
  let legend := preamble.legend
  let blank := blankPixel preamble
  if header.interlaced then
    let passes := Pass.interlaced.zipWith (fun pass rows =>
      (pass, rows.map fun row =>
        (rowPixels header legend (pass.columns columns) row).toArray)) rows
    (List.range height).flatMap fun row =>
      (List.range width).map (wovenPixel blank passes row)
  else
    let pixels := rows.flatMap fun rows => rows.toList.flatMap (rowPixels header legend columns)
    pixels ++ List.replicate (width * height - pixels.length) blank

end TextureCache.Png
