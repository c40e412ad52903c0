import TextureCache.FileName
import TextureCache.Path
import TextureCache.Toml.Document

/-! The settings of a texture cache and their form as a TOML document. -/
namespace TextureCache

/-- The settings of a texture cache. -/
structure Config where
  /-- Where textures are written; also searched on import and watched for edits. -/
  output : Option Path
  /-- Further directories that are searched on import, in order. -/
  inputs : List Path
  /-- Textures are written at all. -/
  dump : Bool
  container : Container
  /-- The output directory is watched, and edited files are loaded again. -/
  live : Bool
  /-- Changes within this many seconds after our own write are ignored. -/
  guard : Int
  /-- How often a changed file is tried before the change is dropped. -/
  attempts : UInt32
  /-- The pause between attempts, in milliseconds. -/
  delay : UInt64
  deriving DecidableEq, Repr

namespace Config

/-- The settings where nothing is said. -/
def standard : Config := ⟨none, [], false, .dds, false, 5, 100, 10⟩

/-- The pause between attempts in seconds and nanoseconds. -/
def pause (config : Config) : Nat × Nat :=
  (config.delay.toNat / 1000, config.delay.toNat % 1000 * 1000000)

def pathOf : Toml.Item → Option Path
  | .text text => some (Path.ofText text)
  | _ => none

def pathsOf : Toml.Item → Option (List Path)
  | .list items => items.mapM pathOf
  | _ => none

def boolOf : Toml.Item → Option Bool
  | .boolean value => some value
  | _ => none

/-- A whole number below a bound. -/
def naturalOf (bound : Nat) : Toml.Item → Option Nat
  | .integer value => if 0 ≤ value ∧ value < bound then some value.toNat else none
  | _ => none

def integerOf : Toml.Item → Option Int
  | .integer value => some value
  | _ => none

/-- A value that says nothing more. -/
def isEmpty : Toml.Item → Bool
  | .list [] | .table _ [] => true
  | _ => false

def containerOfName (name : String) : Option Container := Container.ofExtension? name.toList

/-- A container: its name, or a table with its name as the only key. -/
def containerOf : Toml.Item → Option Container
  | .text name => containerOfName name
  | .table _ [(name, item)] => if isEmpty item then containerOfName name else none
  | _ => none

/-- The settings that a document makes; keys of other names are ignored. -/
def ofEntries? (entries : Toml.Entries) : Option Config := do
  let setting {Value : Type} (key : String) (read : Toml.Item → Option Value) (default : Value) :
      Option Value :=
    match entries.lookup key with
    | none => some default
    | some item => read item
  some {
    output := ← setting "output_directory" (fun item => some <$> pathOf item) standard.output
    inputs := ← setting "input_directories" pathsOf standard.inputs
    dump := ← setting "enable_dump" boolOf standard.dump
    container := ← setting "output_format" containerOf standard.container
    live := ← setting "enable_real_time_edit" boolOf standard.live
    guard := ← setting "reload_guard_window_secs" integerOf standard.guard
    attempts := UInt32.ofNat
      (← setting "reload_read_attempts" (naturalOf UInt32.size) standard.attempts.toNat)
    delay := UInt64.ofNat
      (← setting "reload_retry_delay_ms" (naturalOf UInt64.size) standard.delay.toNat) }

def ofToml? (text : String) : Option Config := do ofEntries? (← Toml.parse? text)

end Config
end TextureCache
