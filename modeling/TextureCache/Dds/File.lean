import TextureCache.Dds.Header

/-! Reading and writing whole DDS files. A header is accepted only if the file holds the whole
payload that it describes. -/
namespace TextureCache.Dds

/-- An accepted file: its header and where its payload lies. -/
structure Contents where
  info : ImageInfo
  offset : Nat
  size : Nat
  deriving DecidableEq, Repr

def readFormat (file : Bytes) (header : Header) :
    Except LoadError (StoredFormat × Dimensions × UInt32 × Nat) :=
  if isExtended header.pixel then
    if file.length < extendedHeaderSize then .error .corruptedHeader
    else
      let extension := Extension.ofBytes (file.drop headerSize)
      match formatOfNumber? extension.format with
      | none => .error .unsupportedFormat
      | some format => do
        let (dimensions, count) ← arrangementOfExtension header extension
        .ok (format, dimensions, count, extendedHeaderSize)
  else
    match formatOfPixel? header.pixel with
    | none => .error .unsupportedFormat
    | some format =>
      let (dimensions, count) := arrangementOfHeader header
      .ok (format, dimensions, count, headerSize)

/-- The payload's size, if its end can be counted in machine words and the file reaches it. -/
def locatePayload (file : Bytes) (info : ImageInfo) (offset : Nat) : Except LoadError Contents :=
  match info.checkedSize with
  | none => .error .corruptedHeader
  | some size =>
    match fitsWord (offset + size) with
    | none => .error .corruptedHeader
    | some bound =>
      if file.length < bound then .error .dataTooShort else .ok ⟨info, offset, size⟩

def parse (file : Bytes) : Except LoadError Contents :=
  if file.length < headerSize ∨ file.take 4 ≠ magic then .error .corruptedHeader
  else
    let header := Header.ofBytes (file.drop 4)
    if header.isSound then do
      let (format, dimensions, count, offset) ← readFormat file header
      let info : ImageInfo :=
        ⟨header.width, header.height, count, levelsOfHeader header, format, dimensions⟩
      locatePayload file info offset
    else .error .corruptedHeader

def loadHeader (file : Bytes) : Except LoadError ImageInfo := (parse file).map Contents.info

/-- Copy the payload of a file to the start of a buffer, in memory order. -/
def loadData (file buffer : Bytes) : Except LoadError Bytes := do
  let contents ← parse file
  if buffer.length < contents.size then .error .outputTooShort
  else
    let payload := file.slice contents.offset contents.size
    .ok (if isLayerMajor contents.info then toMemory contents.info payload buffer
      else buffer.overwrite 0 payload)

/-- The extended header of an image, or none if it needs none. -/
def extensionOf (info : ImageInfo) : Except SaveError (Option Extension) :=
  if needsExtension info.dimensions then
    match formatNumber? info.format with
    | none => .error (.arrayFormat info.format)
    | some number => .ok (some (buildExtension info number))
  else .ok none

def payload (info : ImageInfo) (texels : Bytes) : Bytes :=
  if isLayerMajor info then toDisk info texels else texels.take info.payloadSize

/-- The file of an image with texels in memory order; texels past the payload are ignored. -/
def save (info : ImageInfo) (texels : Bytes) : Except SaveError Bytes :=
  if texels.length < info.payloadSize then
    .error (.textureTooShort texels.length info.payloadSize)
  else do
    let extension ← extensionOf info
    .ok (magic ++ encodeWords (build info).toWords ++
      ((extension.map fun extension => encodeWords extension.toWords).getD []) ++
      payload info texels)

end TextureCache.Dds
