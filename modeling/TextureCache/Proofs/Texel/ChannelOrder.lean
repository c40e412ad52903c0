import TextureCache.Proofs.Patch
import TextureCache.Texel.Packed

/-! Texels of four bytes in the two orders of their channels. One run of texels is another with red
and blue exchanged; cutting both along texels and putting the parts together in another order keeps
that. -/
namespace TextureCache

/-- The channel whose place a channel takes. -/
def exchangedChannel : Nat → Nat
  | 0 => 2
  | 2 => 0
  | channel => channel

/-- In every whole texel red and blue have changed places. The bytes behind the last whole texel may
be any. -/
structure Exchanged (texels other : Bytes) : Prop where
  length : other.length = texels.length
  texel : ∀ index channel, channel < 4 → 4 * index + 4 ≤ texels.length →
    other[4 * index + channel]? = texels[4 * index + exchangedChannel channel]?

private theorem exchangedChannel_lt {channel : Nat} (below : channel < 4) :
    exchangedChannel channel < 4 := by
  unfold exchangedChannel
  split <;> omega

theorem exchanged_swapRedBlue (texels : Bytes) : Exchanged texels (swapRedBlue texels) := by
  refine ⟨length_swapRedBlue texels, ?_⟩
  fun_induction swapRedBlue texels with
  | case1 red green blue alpha rest ih =>
    intro index channel below whole
    cases index with
    | zero =>
      obtain rfl | rfl | rfl | rfl : channel = 0 ∨ channel = 1 ∨ channel = 2 ∨ channel = 3 := by
        omega
      all_goals rfl
    | succ index =>
      have shift (place : Nat) : 4 * (index + 1) + place = 4 * index + place + 4 := by omega
      rw [shift, shift]
      exact ih index channel below (by simp only [List.length_cons] at whole; omega)
  | case2 rest short =>
    -- Fewer than four bytes make no whole texel.
    have few : rest.length < 4 := by
      rcases rest with _ | ⟨red, _ | ⟨green, _ | ⟨blue, _ | ⟨alpha, rest⟩⟩⟩⟩
      · simp
      · simp
      · simp
      · simp
      · exact absurd rfl (short red green blue alpha rest)
    intro index channel _ whole
    omega

namespace Exchanged

variable {texels other : Bytes}

theorem eq_swapRedBlue (exchanged : Exchanged texels other) (whole : 4 ∣ texels.length) :
    other = swapRedBlue texels := by
  have swapped := exchanged_swapRedBlue texels
  apply List.ext_getElem?
  intro position
  by_cases inside : position < texels.length
  · have below : position % 4 < 4 := Nat.mod_lt _ (by decide)
    have texel : 4 * (position / 4) + 4 ≤ texels.length := by omega
    have own := exchanged.texel _ _ below texel
    have same := swapped.texel _ _ below texel
    rw [Nat.div_add_mod] at own same
    rw [own, same]
  · have missing := Nat.not_lt.mp inside
    rw [List.getElem?_eq_none (exchanged.length ▸ missing),
      List.getElem?_eq_none (swapped.length ▸ missing)]

theorem slice (exchanged : Exchanged texels other) {offset size : Nat} (aligned : 4 ∣ offset)
    (inside : offset + size ≤ texels.length) :
    Exchanged (texels.slice offset size) (other.slice offset size) := by
  have length := Bytes.length_slice_of_le inside
  refine ⟨?_, ?_⟩
  · rw [length, Bytes.length_slice_of_le (exchanged.length ▸ inside)]
  · intro index channel below whole
    obtain ⟨first, rfl⟩ := aligned
    have place (number : Nat) :
        4 * first + (4 * index + number) = 4 * (first + index) + number := by
      omega
    have channels := exchangedChannel_lt below
    rw [length] at whole
    rw [Bytes.getElem?_slice, Bytes.getElem?_slice, if_pos (by omega), if_pos (by omega), place,
      place]
    exact exchanged.texel _ _ below (by omega)

/-- What lies behind two headers of one length is found at one place. -/
theorem slice_append {front second : Bytes} {size : Nat} (exchanged : Exchanged texels other)
    (length : second.length = front.length)
    (inside : front.length + size ≤ (front ++ texels).length) :
    Exchanged ((front ++ texels).slice front.length size)
      ((second ++ other).slice front.length size) := by
  have own : (front ++ texels).slice front.length size = texels.slice 0 size :=
    Bytes.slice_append_right front texels 0 size
  have twin : (second ++ other).slice second.length size = other.slice 0 size :=
    Bytes.slice_append_right second other 0 size
  rw [length] at twin
  rw [own, twin]
  rw [List.length_append] at inside
  exact exchanged.slice (Nat.dvd_zero 4) (by omega)

theorem append {more others : Bytes} (first : Exchanged texels other) (whole : 4 ∣ texels.length)
    (second : Exchanged more others) : Exchanged (texels ++ more) (other ++ others) := by
  have same := first.length
  refine ⟨by rw [List.length_append, List.length_append, same, second.length], ?_⟩
  intro index channel below inside
  rw [List.length_append] at inside
  have channels := exchangedChannel_lt below
  by_cases front : 4 * index + 4 ≤ texels.length
  · rw [List.getElem?_append_left (by omega), List.getElem?_append_left (by omega)]
    exact first.texel index channel below front
  · obtain ⟨count, length⟩ := whole
    have place (number : Nat) :
        4 * index + number - 4 * count = 4 * (index - count) + number := by omega
    rw [List.getElem?_append_right (by omega), List.getElem?_append_right (by omega), same, length,
      place, place]
    exact second.texel _ _ below (by omega)

theorem flatMap {items : List α} {parts others : α → Bytes}
    (whole : ∀ item ∈ items, 4 ∣ (parts item).length)
    (each : ∀ item ∈ items, Exchanged (parts item) (others item)) :
    Exchanged (items.flatMap parts) (items.flatMap others) := by
  induction items with
  | nil => exact ⟨rfl, fun _ _ _ inside => absurd inside (Nat.not_succ_le_zero _)⟩
  | cons item rest ih =>
    rw [List.flatMap_cons, List.flatMap_cons]
    exact (each item List.mem_cons_self).append (whole item List.mem_cons_self)
      (ih (fun other member => whole other (List.mem_cons_of_mem _ member))
        fun other member => each other (List.mem_cons_of_mem _ member))

end Exchanged
end TextureCache
