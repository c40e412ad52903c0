import TextureCache.Buffer
import TextureCache.Bytes
import TextureCache.Config
import TextureCache.Dds.File
import TextureCache.Dds.Header
import TextureCache.Dds.Layout
import TextureCache.Decode
import TextureCache.Deflate.BitBuffer
import TextureCache.Deflate.Inflater
import TextureCache.Deflate.PrefixCode
import TextureCache.Deflate.Stored
import TextureCache.Deflate.Stream
import TextureCache.Digest.Checksum
import TextureCache.Digest.Xxh3
import TextureCache.DumpCheck
import TextureCache.Export.Plan
import TextureCache.Export.Run
import TextureCache.Failure
import TextureCache.FileName
import TextureCache.FileSystem.Basic
import TextureCache.FileSystem.Edit
import TextureCache.Image
import TextureCache.Import
import TextureCache.Import.Slices
import TextureCache.Main
import TextureCache.OsText
import TextureCache.Path
import TextureCache.PixelFormat
import TextureCache.Png.Chunk
import TextureCache.Png.File
import TextureCache.Png.Header
import TextureCache.Png.Pixel
import TextureCache.Png.Preamble
import TextureCache.Png.Row
import TextureCache.Png.Source
import TextureCache.Registry
import TextureCache.Reload
import TextureCache.Shape
import TextureCache.Storage
import TextureCache.StoredFormat
import TextureCache.Table
import TextureCache.Texel.Astc
import TextureCache.Texel.Bc7
import TextureCache.Texel.Block
import TextureCache.Texel.Etc2
import TextureCache.Texel.Packed
import TextureCache.Texel.S3tc
import TextureCache.Text
import TextureCache.Texture
import TextureCache.Toml.Document
import TextureCache.Toml.Reader
import TextureCache.Toml.Scalar
import TextureCache.Workspace
import TextureCache.Proofs.Addressing
import TextureCache.Proofs.Buffer
import TextureCache.Proofs.Dds.Acceptance
import TextureCache.Proofs.Dds.Canonical
import TextureCache.Proofs.Dds.DiskOrder
import TextureCache.Proofs.Dds.Header
import TextureCache.Proofs.Dds.Order
import TextureCache.Proofs.Dds.Partition
import TextureCache.Proofs.Dds.Reimport
import TextureCache.Proofs.Dds.RoundTrip
import TextureCache.Proofs.Dds.Safety
import TextureCache.Proofs.Dds.Saturation
import TextureCache.Proofs.Dds.Size
import TextureCache.Proofs.Dds.Texture
import TextureCache.Proofs.Dds.Truncation
import TextureCache.Proofs.Decode
import TextureCache.Proofs.Decode.Slicewise
import TextureCache.Proofs.Deflate.Bits
import TextureCache.Proofs.Deflate.Stored
import TextureCache.Proofs.Deflate.Stream
import TextureCache.Proofs.Directories
import TextureCache.Proofs.DumpCheck
import TextureCache.Proofs.DumpCheck.Agreement
import TextureCache.Proofs.DumpCheck.Scan
import TextureCache.Proofs.Export
import TextureCache.Proofs.Export.Bookkeeping
import TextureCache.Proofs.Export.Disk
import TextureCache.Proofs.Export.Plan
import TextureCache.Proofs.FileName
import TextureCache.Proofs.FileName.Parse
import TextureCache.Proofs.FileName.Spelling
import TextureCache.Proofs.FileSystem.Canonical
import TextureCache.Proofs.FileSystem.Listing
import TextureCache.Proofs.FileSystem.Separate
import TextureCache.Proofs.FileSystem.Walk
import TextureCache.Proofs.FileSystem.Write
import TextureCache.Proofs.Import.ChannelOrder
import TextureCache.Proofs.Import.Overlay
import TextureCache.Proofs.Import.Stored
import TextureCache.Proofs.Import.Tracking
import TextureCache.Proofs.Import.WellFormed
import TextureCache.Proofs.Interleaving.Alone
import TextureCache.Proofs.Interleaving.Channel
import TextureCache.Proofs.Interleaving.Effect
import TextureCache.Proofs.Interleaving.Machine
import TextureCache.Proofs.Interleaving.Release
import TextureCache.Proofs.Interleaving.Reservation
import TextureCache.Proofs.Interleaving.Sequential
import TextureCache.Proofs.Layout
import TextureCache.Proofs.Layout.Levels
import TextureCache.Proofs.Layout.Size
import TextureCache.Proofs.Layout.Stored
import TextureCache.Proofs.Layout.Tiling
import TextureCache.Proofs.OsText
import TextureCache.Proofs.Patch
import TextureCache.Proofs.Path
import TextureCache.Proofs.Png.Chunk
import TextureCache.Proofs.Png.Extent
import TextureCache.Proofs.Png.Filled
import TextureCache.Proofs.Png.Longest
import TextureCache.Proofs.Png.Prefix
import TextureCache.Proofs.Png.Reimport
import TextureCache.Proofs.Png.RoundTrip
import TextureCache.Proofs.Png.Scan
import TextureCache.Proofs.Png.Search
import TextureCache.Proofs.Png.Source
import TextureCache.Proofs.Registry
import TextureCache.Proofs.Registry.History
import TextureCache.Proofs.Reload.OwnWrite
import TextureCache.Proofs.Reload.Window
import TextureCache.Proofs.Texel.ChannelOrder
