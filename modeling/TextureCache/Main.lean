import TextureCache.DumpCheck

/-! The command that checks directories of dumped textures. -/
namespace TextureCache.DumpCheck

/-- The message of a failure of the system. -/
def faultMessage (error : IO.Error) : String :=
  match error with
  | .noFileOrDirectory _ _ _ => FileFault.notFound.message
  | .inappropriateType _ _ _ => FileFault.notADirectory.message
  | other => toString other

def outcome {Value : Type} (action : IO Value) : IO (Except String Value) := do
  match ← action.toBaseIO with
  | .ok value => return .ok value
  | .error error => return .error (faultMessage error)

/-- A path leads to a regular file. -/
def isRegular (entry : IO.FS.DirEntry) : IO Bool := do
  match ← entry.path.metadata.toBaseIO with
  | .ok data => return data.type == .file
  | .error _ => return false

def readEntries (directory : IO.FS.DirEntry) : IO (List Entry) := do
  let files ← (← directory.root.readDir).filterM isRegular
  files.toList.mapM fun file => do
    let contents ← outcome (IO.FS.readBinFile file.path)
    let path := (Path.ofText directory.root.toString).join file.fileName
    return ⟨path.text, .unicode file.fileName, contents.map ByteArray.toList⟩

def listing (directory : Path) : IO Listing := do
  match ← outcome (readEntries ⟨⟨directory.text⟩, ""⟩) with
  | .ok entries => return ⟨directory.text, entries, none⟩
  | .error cause => return ⟨directory.text, [], some cause⟩

/-- The report on a command line. The runtime hands over all texts as characters. -/
def runCommand (command : List OsText) : IO Report := do
  match directories? command with
  | none => return broken
  | some directories => return report (← directories.mapM listing)

end TextureCache.DumpCheck

/-- Check the directories that are given as arguments. -/
def main (arguments : List String) : IO UInt32 := do
  let report ← TextureCache.DumpCheck.runCommand (("dump_check" :: arguments).map .unicode)
  for line in report.lines do
    if line.severity ≠ .debug then IO.eprintln line.text
  return report.code
