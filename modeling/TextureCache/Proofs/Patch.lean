import Mathlib.Algebra.Ring.Nat
import TextureCache.Bytes

/-! Copying a byte string in parts that are put into a buffer one after another. If the parts agree
with one target, the order in which they are put does not matter: a covered position holds the
target's byte and any other one keeps its own. Parts that lie end to end add up to their
concatenation. -/
namespace TextureCache

namespace Bytes

theorem slice_zero (bytes : Bytes) (size : Nat) : bytes.slice 0 size = bytes.take size := rfl

theorem length_slice_of_le {bytes : Bytes} {offset size : Nat}
    (fits : offset + size ≤ bytes.length) : (bytes.slice offset size).length = size := by
  rw [length_slice]
  omega

/-- Writing a number and reading it back keeps its low `width` bytes. -/
theorem ofLittleEndian_littleEndian (width value : Nat) :
    ofLittleEndian (littleEndian width value) = value % 256 ^ width := by
  induction width generalizing value with
  | zero => simp [littleEndian, ofLittleEndian, Nat.mod_one]
  | succ width ih =>
    simp only [littleEndian, ofLittleEndian, ih]
    rw [Nat.pow_succ, Nat.mul_comm (256 ^ width) 256, Nat.mod_mul]
    simp

theorem ofLittleEndian_word {value : Nat} (fits : value < 2 ^ 32) :
    ofLittleEndian (littleEndian 4 value) = value := by
  have limit : 2 ^ 32 ≤ 256 ^ 4 := by decide
  rw [ofLittleEndian_littleEndian]
  exact Nat.mod_eq_of_lt (Nat.lt_of_lt_of_le fits limit)

theorem getElem?_slice (bytes : Bytes) (offset size position : Nat) :
    (bytes.slice offset size)[position]? =
      if position < size then bytes[offset + position]? else none := by
  simp [slice, List.getElem?_take]

/-- A range behind a prefix is a range of what follows the prefix. -/
theorem slice_append_right (front bytes : Bytes) (offset size : Nat) :
    (front ++ bytes).slice (front.length + offset) size = bytes.slice offset size := by
  rw [slice, slice, List.drop_append, List.drop_eq_nil_of_le (Nat.le_add_right _ _),
    Nat.add_sub_cancel_left, List.nil_append]

theorem slice_append_left {front : Bytes} {offset size : Nat} (bytes : Bytes)
    (fits : offset + size ≤ front.length) :
    (front ++ bytes).slice offset size = front.slice offset size := by
  rw [slice, slice, List.drop_append_of_le_length (by omega),
    List.take_append_of_le_length (by simp; omega)]

theorem slice_take {bytes : Bytes} {offset size bound : Nat} (fits : offset + size ≤ bound) :
    Bytes.slice (bytes.take bound) offset size = bytes.slice offset size := by
  simp only [slice, List.drop_take, List.take_take]
  congr 1
  omega

private theorem slice_append_slice (bytes : Bytes) (offset first second : Nat) :
    bytes.slice offset first ++ bytes.slice (offset + first) second =
      bytes.slice offset (first + second) := by
  simp only [slice, ← List.drop_drop, List.take_add]

private theorem getElem?_overwrite {bytes : Bytes} {offset : Nat} (part : Bytes)
    (reached : offset ≤ bytes.length) (position : Nat) :
    (bytes.overwrite offset part)[position]? =
      if offset ≤ position ∧ position < offset + part.length then part[position - offset]?
      else bytes[position]? := by
  unfold overwrite
  rw [List.append_assoc, List.getElem?_append, List.length_take, Nat.min_eq_left reached,
    List.getElem?_append]
  by_cases before : position < offset
  · rw [if_pos before, if_neg (by omega), List.getElem?_take, if_pos before]
  · by_cases inside : position < offset + part.length
    · rw [if_neg before, if_pos (by omega), if_pos (by omega)]
    · rw [if_neg before, if_neg (by omega), if_neg (by omega), List.getElem?_drop]
      congr 1
      omega

/-- A part that starts a buffer comes before what it leaves of the buffer. -/
theorem overwrite_zero (bytes part : Bytes) :
    bytes.overwrite 0 part = part ++ bytes.drop part.length := by
  simp [overwrite]

end Bytes

/-- Bytes and the position in a buffer to which they belong. -/
structure Patch where
  offset : Nat
  bytes : Bytes

namespace Patch

def stop (patch : Patch) : Nat := patch.offset + patch.bytes.length

def Covers (patch : Patch) (position : Nat) : Prop :=
  patch.offset ≤ position ∧ position < patch.stop

instance (patch : Patch) (position : Nat) : Decidable (patch.Covers position) :=
  inferInstanceAs (Decidable (_ ∧ _))

/-- Put patches into a buffer, the first one first. -/
def applyAll (patches : List Patch) (buffer : Bytes) : Bytes :=
  patches.foldl (fun buffer patch => buffer.overwrite patch.offset patch.bytes) buffer

def contents (patches : List Patch) : Bytes := patches.flatMap bytes

private theorem applyAll_cons (patch : Patch) (rest : List Patch) (buffer : Bytes) :
    applyAll (patch :: rest) buffer = applyAll rest (buffer.overwrite patch.offset patch.bytes) :=
  rfl

private theorem contents_cons (patch : Patch) (rest : List Patch) :
    contents (patch :: rest) = patch.bytes ++ contents rest := List.flatMap_cons

/-- Every patch starts where the one before it stops. -/
inductive EndToEnd : Nat → List Patch → Nat → Prop where
  | nil (start : Nat) : EndToEnd start [] start
  | cons {patch : Patch} {rest : List Patch} {stop : Nat} (tail : EndToEnd patch.stop rest stop) :
      EndToEnd patch.offset (patch :: rest) stop

/-- Patches that agree with a target put its bytes where they cover a position, and leave all other
positions alone. -/
theorem getElem?_applyAll {patches : List Patch} {buffer target : Bytes}
    (fits : ∀ patch ∈ patches, patch.stop ≤ buffer.length)
    (agree : ∀ patch ∈ patches, target.slice patch.offset patch.bytes.length = patch.bytes)
    (position : Nat) :
    ((∃ patch ∈ patches, patch.Covers position) →
      (applyAll patches buffer)[position]? = target[position]?) ∧
    ((∀ patch ∈ patches, ¬ patch.Covers position) →
      (applyAll patches buffer)[position]? = buffer[position]?) := by
  induction patches generalizing buffer with
  | nil => simp [applyAll]
  | cons patch rest ih =>
    have here := fits patch List.mem_cons_self
    have reached : patch.offset ≤ buffer.length := Nat.le_trans (Nat.le_add_right _ _) here
    have kept := Bytes.length_overwrite here
    have put : (buffer.overwrite patch.offset patch.bytes)[position]? =
        if patch.Covers position then patch.bytes[position - patch.offset]?
        else buffer[position]? := Bytes.getElem?_overwrite patch.bytes reached position
    obtain ⟨covered, untouched⟩ := @ih (buffer.overwrite patch.offset patch.bytes)
      (fun other member => kept ▸ fits other (List.mem_cons_of_mem patch member))
      (fun other member => agree other (List.mem_cons_of_mem patch member))
    rw [applyAll_cons]
    constructor
    · intro found
      -- A later patch has the last word; all of them agree with the target anyway.
      by_cases later : ∃ other ∈ rest, other.Covers position
      · exact covered later
      · have own : patch.Covers position := by
          obtain ⟨other, member, covers⟩ := found
          rcases List.mem_cons.mp member with same | member
          · exact same ▸ covers
          · exact absurd ⟨other, member, covers⟩ later
        rw [untouched (fun other member covers => later ⟨other, member, covers⟩), put, if_pos own]
        have same := congrArg (fun part => part[position - patch.offset]?)
          (agree patch List.mem_cons_self)
        have inside : position - patch.offset < patch.bytes.length :=
          Nat.sub_lt_left_of_lt_add own.1 own.2
        rw [Bytes.getElem?_slice, if_pos inside, Nat.add_sub_cancel' own.1] at same
        exact same.symm
    · intro missed
      rw [untouched fun other member => missed other (List.mem_cons_of_mem patch member), put,
        if_neg (missed patch List.mem_cons_self)]

namespace EndToEnd

variable {patches : List Patch} {start stop : Nat}

theorem stop_eq (chain : EndToEnd start patches stop) :
    stop = start + (contents patches).length := by
  induction chain with
  | nil => rfl
  | @cons patch rest stop tail ih =>
    rw [ih, contents_cons, List.length_append]
    exact Nat.add_assoc _ _ _

theorem append {more : List Patch} {final : Nat} (first : EndToEnd start patches stop)
    (second : EndToEnd stop more final) : EndToEnd start (patches ++ more) final := by
  induction first with
  | nil => exact second
  | cons tail ih => exact .cons (ih second)

private theorem singleton (patch : Patch) :
    EndToEnd patch.offset [patch] patch.stop := .cons (.nil _)

/-- Runs of patches that start where the run before them stops lie end to end. -/
theorem flatMap_range (bound : Nat → Nat) {run : Nat → List Patch} {count : Nat}
    (runs : ∀ index < count, EndToEnd (bound index) (run index) (bound (index + 1))) :
    EndToEnd (bound 0) ((List.range count).flatMap run) (bound count) := by
  induction count with
  | zero => exact .nil _
  | succ count ih =>
    rw [List.range_succ, List.flatMap_append, List.flatMap_singleton]
    exact (ih fun index below => runs index (Nat.lt_succ_of_lt below)).append
      (runs count (Nat.lt_succ_self count))

/-- Patches that each start where the one before them stops lie end to end. -/
theorem map_range (bound : Nat → Nat) {patch : Nat → Patch} {count : Nat}
    (starts : ∀ index < count, (patch index).offset = bound index)
    (stops : ∀ index < count, (patch index).stop = bound (index + 1)) :
    EndToEnd (bound 0) ((List.range count).map patch) (bound count) := by
  have runs : ∀ index < count, EndToEnd (bound index) [patch index] (bound (index + 1)) := by
    intro index below
    rw [← starts index below, ← stops index below]
    exact singleton _
  rw [List.map_eq_flatMap]
  exact flatMap_range bound runs

private theorem le_stop (chain : EndToEnd start patches stop) : start ≤ stop := by
  rw [chain.stop_eq]
  exact Nat.le_add_right _ _

theorem bounds (chain : EndToEnd start patches stop) {patch : Patch} (member : patch ∈ patches) :
    start ≤ patch.offset ∧ patch.stop ≤ stop := by
  induction chain with
  | nil => cases member
  | @cons first rest stop tail ih =>
    rcases List.mem_cons.mp member with same | member
    · exact ⟨same ▸ Nat.le_refl _, same ▸ tail.le_stop⟩
    · exact ⟨Nat.le_trans (Nat.le_add_right _ _) (ih member).1, (ih member).2⟩

theorem slice_contents (chain : EndToEnd start patches stop) {patch : Patch}
    (member : patch ∈ patches) :
    (contents patches).slice (patch.offset - start) patch.bytes.length = patch.bytes := by
  induction chain with
  | nil => cases member
  | @cons first rest stop tail ih =>
    rw [contents_cons]
    rcases List.mem_cons.mp member with rfl | member
    · rw [Nat.sub_self, Bytes.slice_append_left _ (by omega), Bytes.slice_zero, List.take_length]
    · have later := (tail.bounds member).1
      have shift : patch.offset - first.offset =
          first.bytes.length + (patch.offset - first.stop) := by
        unfold Patch.stop at later ⊢
        omega
      rw [shift, Bytes.slice_append_right]
      exact ih member

/-- Patches that were cut out of a byte string where they lie add up to a range of it. -/
theorem contents_eq_slice {source : Bytes} (chain : EndToEnd start patches stop)
    (cut : ∀ patch ∈ patches, patch.bytes = source.slice patch.offset patch.bytes.length) :
    contents patches = source.slice start (stop - start) := by
  induction chain with
  | nil => simp [contents, Bytes.slice]
  | @cons first rest stop tail ih =>
    have later := tail.le_stop
    have size : stop - first.offset = first.bytes.length + (stop - first.stop) := by
      unfold Patch.stop at later ⊢
      omega
    rw [contents_cons, ih fun patch member => cut patch (List.mem_cons_of_mem first member), size,
      ← Bytes.slice_append_slice, ← cut first List.mem_cons_self]
    rfl

theorem covered (chain : EndToEnd start patches stop) {position : Nat} (lower : start ≤ position)
    (upper : position < stop) : ∃ patch ∈ patches, patch.Covers position := by
  induction chain with
  | nil => omega
  | @cons first rest stop tail ih =>
    by_cases own : position < first.stop
    · exact ⟨first, List.mem_cons_self, lower, own⟩
    · obtain ⟨patch, member, covers⟩ := ih (by omega) upper
      exact ⟨patch, List.mem_cons_of_mem first member, covers⟩

end EndToEnd

/-- Patches that lie end to end from the start of a buffer can be put in any order: what they cover
becomes their concatenation, and the rest of the buffer stays. -/
theorem applyAll_of_endToEnd {patches ordered : List Patch} {size : Nat} {buffer : Bytes}
    (chain : EndToEnd 0 ordered size) (same : ∀ patch, patch ∈ patches ↔ patch ∈ ordered)
    (fits : size ≤ buffer.length) :
    applyAll patches buffer = contents ordered ++ buffer.drop size := by
  have length : (contents ordered).length = size := by
    rw [chain.stop_eq, Nat.zero_add]
  have inside : ∀ patch ∈ patches, patch.stop ≤ size :=
    fun patch member => (chain.bounds ((same patch).mp member)).2
  have agree : ∀ patch ∈ patches,
      (contents ordered).slice patch.offset patch.bytes.length = patch.bytes :=
    fun patch member => chain.slice_contents ((same patch).mp member)
  apply List.ext_getElem?
  intro position
  obtain ⟨covered, untouched⟩ := getElem?_applyAll
    (fun patch member => Nat.le_trans (inside patch member) fits) agree position
  rw [List.getElem?_append, length]
  split
  · rename_i below
    obtain ⟨patch, member, covers⟩ := chain.covered (Nat.zero_le position) below
    exact covered ⟨patch, (same patch).mpr member, covers⟩
  · rename_i beyond
    rw [untouched fun patch member covers => beyond (Nat.lt_of_lt_of_le covers.2
      (inside patch member)), List.getElem?_drop]
    congr 1
    omega

end Patch
end TextureCache
