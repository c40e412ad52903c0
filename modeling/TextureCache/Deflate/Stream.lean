import TextureCache.Deflate.Inflater

/-! A compressed stream whose reader keeps its output in a window of limited size. How much output
one piece of input can give depends on the room in that window. -/
namespace TextureCache.Deflate

/-- The size of a window, how much of it is in use, and how much output is expected in all. -/
structure Window where
  size : Nat
  used : Nat
  /-- None if no total is known. -/
  expected : Option Nat
  deriving DecidableEq, Repr

namespace Window

/-- The least output that a window has room for, unless less is expected: 32 KiB, as far back as a
repetition reaches. -/
def unit : Nat := 32768

/-- A size that does not exceed the expected total. -/
def clip (window : Window) (size : Nat) : Nat := (window.expected.map (min size)).getD size

/-- Make room. The window doubles, and an expected total that was reached does not count any
more. -/
def grow (window : Window) : Window :=
  let window := { window with expected := window.expected.filter (window.used < ·) }
  let doubled := window.clip (window.size + max unit window.size)
  { window with
    size := if window.clip (window.used + unit) ≤ window.size then window.size else doubled }

/-- Take in output. From four units on only the last one is kept. -/
def add (window : Window) (count : Nat) : Window :=
  let used := window.used + count
  { window with used := if 4 * unit < used then unit else used }

private theorem lt_clip {window : Window} {bound size : Nat} (below : bound < size)
    (expected : ∀ total ∈ window.expected, bound < total) : bound < window.clip size := by
  unfold clip
  cases known : window.expected with
  | none => exact below
  | some total => exact Nat.lt_min.mpr ⟨below, expected total known⟩

theorem used_lt_size_grow {window : Window} (valid : window.used ≤ window.size) :
    window.used < window.grow.size := by
  have positive : 0 < unit := by decide
  have missing : ∀ total ∈ window.expected.filter (window.used < ·), window.used < total := by
    intro total member
    simpa using (Option.mem_filter_iff.mp member).2
  unfold grow
  dsimp only
  split
  · rename_i fits
    exact Nat.lt_of_lt_of_le (lt_clip (by omega) missing) fits
  · exact lt_clip (by omega) missing

end Window

/-- A stream that is decompressed piece by piece. -/
structure Stream where
  inflater : Inflater
  window : Window
  deriving DecidableEq, Repr

namespace Stream

def start (expected : Option Nat) : Stream := ⟨.start, ⟨0, 0, expected⟩⟩

def isDone (stream : Stream) : Bool := stream.inflater.phase matches .done

def output (stream : Stream) : Array UInt8 := stream.inflater.output

/-- Decompress as much of a piece as the window has room for; none if the stream is damaged. -/
def advance (stream : Stream) (piece : Bytes) : Option Stream :=
  let before := stream.output.size
  let window := stream.window.grow
  (stream.inflater.read piece (window.size - window.used)).map fun inflater =>
    ⟨inflater, window.add (inflater.output.size - before)⟩

/-- Feed a piece and count the bytes that were taken of it. What follows the stream is skipped. -/
def feed (stream : Stream) (piece : Bytes) : Option (Stream × Nat) :=
  if stream.isDone then some (stream, piece.length)
  else (stream.advance piece).map fun stream =>
    (stream, piece.length - stream.inflater.bits.input.length)

/-- Read to the end without further input, at most `rounds` times; none if the stream is damaged or
not at its end while there is room. -/
def finishWithin : (rounds : Nat) → Stream → Option Stream
  | 0, stream => if stream.isDone then some stream else none
  | rounds + 1, stream =>
    if stream.isDone then some stream
    else
      let limit := stream.output.size + (stream.window.grow.size - stream.window.used)
      match stream.advance [] with
      | none => none
      | some stream =>
        if stream.isDone ∨ stream.output.size = limit then finishWithin rounds stream else none

/-- Read to the end without further input. The bits at hand give less output than a window holds, so
that only an expected total can stop the first round. -/
def finish (stream : Stream) : Option Stream := stream.finishWithin 2

end Stream
end TextureCache.Deflate
