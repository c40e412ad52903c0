import TextureCache.Decode
import TextureCache.Image
import TextureCache.Path

/-! What can go wrong while textures are written, read or watched, and the lines in which the log
tells it. -/
namespace TextureCache

/-- How much a line of the log matters. -/
inductive Severity where
  | error
  | warning
  | info
  | debug
  deriving DecidableEq, Repr

def Severity.word : Severity → String
  | error => "ERROR"
  | warning => "WARN"
  | info => "INFO"
  | debug => "DEBUG"

structure LogLine where
  severity : Severity
  message : String
  deriving DecidableEq, Repr

def LogLine.text (line : LogLine) : String := line.severity.word ++ " " ++ line.message

/-- Why a texture could not be written, read or watched. -/
inductive Failure where
  | read (path : Path) (cause : String)
  | write (path : Path) (cause : String)
  | load (path : Path) (error : LoadError)
  | decode (error : DecodeError)
  | watcher (context cause : String)
  | worker (cause : String)
  deriving DecidableEq, Repr

namespace Failure

def message : Failure → String
  | read path cause => "failed to read " ++ path.text ++ ": " ++ cause
  | write path cause => "failed to write " ++ path.text ++ ": " ++ cause
  | load path error => "failed to load " ++ path.text ++ ": " ++ error.message
  | decode error => error.message
  | watcher context cause => "file watcher error: " ++ context ++ ": " ++ cause
  | worker cause => "failed to start export worker: " ++ cause

def fileName? : Failure → Option String
  | read path _ | write path _ | load path _ => some path.displayName
  | decode _ | watcher _ _ | worker _ => none

/-- The end of a line that points to the line before it. -/
def seeAbove : String := "\", see logged error for details."

def logMessages : Failure → List String
  | read path cause => [cause, "Failed to load \"" ++ path.displayName ++ seeAbove]
  | write path cause => [cause, "Failed to save \"" ++ path.displayName ++ seeAbove]
  | load path error =>
    ["Failed to load \"" ++ path.displayName ++ "\" because " ++ error.reason ++ "."]
  | failure => [failure.message]

def logLines (failure : Failure) : List LogLine := failure.logMessages.map (⟨.error, ·⟩)

end Failure
end TextureCache
