import TextureCache.OsText

/-! Texts of the operating system that are Unicode. The bytes of characters are read as these
characters, so that bytes which stand for themselves are never those of a text. -/
namespace TextureCache

namespace Utf8

variable {char : Char} {byte : UInt8} {pending further : Unfinished}

private theorem decode_of_lead_whole (read : lead byte = .whole char) (rest : Bytes) :
    decode none (byte :: rest) = some char :: decode none rest := by
  simp [decode, read]

private theorem decode_of_lead_unfinished (read : lead byte = .unfinished further) (rest : Bytes) :
    decode none (byte :: rest) = decode (some further) rest := by
  simp [decode, read]

private theorem decode_of_next_whole (read : pending.next byte = .whole char) (rest : Bytes) :
    decode (some pending) (byte :: rest) = some char :: decode none rest := by
  simp [decode, read]

private theorem decode_of_next_unfinished (read : pending.next byte = .unfinished further)
    (rest : Bytes) : decode (some pending) (byte :: rest) = decode (some further) rest := by
  simp [decode, read]

/-- A byte goes on with a character if it is within the bounds. -/
private theorem next_of_bounds (pending : Unfinished) (value : Nat) (small : value < 64)
    (above : pending.least.toNat ≤ value + 128) (below : value + 128 ≤ pending.most.toNat) :
    pending.next (UInt8.ofNat (value + 128)) =
      match pending.further with
      | 0 => .whole (Char.ofNat (pending.bits * 64 + value))
      | further + 1 => .unfinished ⟨pending.bits * 64 + value, further, 0x80, 0xbf⟩ := by
  have byte : (UInt8.ofNat (value + 128)).toNat = value + 128 :=
    UInt8.toNat_ofNat_of_lt' (Nat.lt_trans (Nat.add_lt_add_right small 128) (by decide))
  have inside : ¬ (UInt8.ofNat (value + 128) < pending.least ∨
      pending.most < UInt8.ofNat (value + 128)) := by
    rw [UInt8.lt_iff_toNat_lt, UInt8.lt_iff_toNat_lt, byte]
    omega
  have bits : (UInt8.ofNat (value + 128)).toNat - 0x80 = value := by
    rw [byte, Nat.add_sub_cancel]
  unfold Unfinished.next
  rw [if_neg inside]
  dsimp only
  cases pending.further with
  | zero => rw [bits]
  | succ further => rw [bits]

private theorem lead_one : ∀ value < 128, lead (UInt8.ofNat value) = .whole (Char.ofNat value) := by
  decide

private theorem lead_two : ∀ value < 32, 2 ≤ value →
    lead (UInt8.ofNat (value + 192)) = .unfinished ⟨value, 0, 0x80, 0xbf⟩ := by
  decide

private theorem lead_three : ∀ value < 16, lead (UInt8.ofNat (value + 224)) =
    .unfinished ⟨value, 1, if value = 0 then 0xa0 else 0x80,
      if value = 13 then 0x9f else 0xbf⟩ := by
  decide

private theorem lead_four : ∀ value < 5, lead (UInt8.ofNat (value + 240)) =
    .unfinished ⟨value, 2, if value = 0 then 0x90 else 0x80,
      if value = 4 then 0x8f else 0xbf⟩ := by
  decide

/-- The bounds that no first byte narrows are the same for all bytes behind it. -/
private theorem next_of_later (bits further : Nat) {value : Nat} (small : value < 64) :
    (⟨bits, further, 0x80, 0xbf⟩ : Unfinished).next (UInt8.ofNat (value + 128)) =
      match further with
      | 0 => .whole (Char.ofNat (bits * 64 + value))
      | further + 1 => .unfinished ⟨bits * 64 + value, further, 0x80, 0xbf⟩ :=
  next_of_bounds _ _ small (Nat.le_add_left _ _) (Nat.add_le_add_right (Nat.le_of_lt_succ small) _)

private theorem decode_two {value : Nat} (least : 128 ≤ value) (most : value < 2048)
    (rest : Bytes) :
    decode none (UInt8.ofNat (value / 64 % 32 + 192) :: UInt8.ofNat (value % 64 + 128) :: rest) =
      some (Char.ofNat value) :: decode none rest := by
  rw [decode_of_lead_unfinished (lead_two _ (by omega) (by omega)),
    decode_of_next_whole (next_of_later _ 0 (by omega))]
  congr 3
  omega

private theorem decode_three {value : Nat} (least : 2048 ≤ value) (most : value < 65536)
    (noSurrogate : value < 0xd800 ∨ 0xdfff < value) (rest : Bytes) :
    decode none (UInt8.ofNat (value / 4096 % 16 + 224) :: UInt8.ofNat (value / 64 % 64 + 128) ::
        UInt8.ofNat (value % 64 + 128) :: rest) =
      some (Char.ofNat value) :: decode none rest := by
  let pending : Unfinished := ⟨value / 4096 % 16, 1,
    if value / 4096 % 16 = 0 then 0xa0 else 0x80,
    if value / 4096 % 16 = 13 then 0x9f else 0xbf⟩
  have above : pending.least.toNat ≤ value / 64 % 64 + 128 := by
    rw [apply_ite UInt8.toNat, UInt8.toNat_ofNat, UInt8.toNat_ofNat]
    split <;> omega
  have below : value / 64 % 64 + 128 ≤ pending.most.toNat := by
    rw [apply_ite UInt8.toNat, UInt8.toNat_ofNat, UInt8.toNat_ofNat]
    split <;> omega
  have second := next_of_bounds pending _ (Nat.mod_lt _ (by decide)) above below
  rw [decode_of_lead_unfinished (lead_three _ (by omega)), decode_of_next_unfinished second,
    decode_of_next_whole (next_of_later _ 0 (by omega))]
  congr 3
  dsimp only [pending]
  omega

private theorem decode_four {value : Nat} (least : 65536 ≤ value) (most : value < 0x110000)
    (rest : Bytes) :
    decode none (UInt8.ofNat (value / 262144 % 8 + 240) :: UInt8.ofNat (value / 4096 % 64 + 128) ::
        UInt8.ofNat (value / 64 % 64 + 128) :: UInt8.ofNat (value % 64 + 128) :: rest) =
      some (Char.ofNat value) :: decode none rest := by
  let pending : Unfinished := ⟨value / 262144 % 8, 2,
    if value / 262144 % 8 = 0 then 0x90 else 0x80,
    if value / 262144 % 8 = 4 then 0x8f else 0xbf⟩
  have above : pending.least.toNat ≤ value / 4096 % 64 + 128 := by
    rw [apply_ite UInt8.toNat, UInt8.toNat_ofNat, UInt8.toNat_ofNat]
    split <;> omega
  have below : value / 4096 % 64 + 128 ≤ pending.most.toNat := by
    rw [apply_ite UInt8.toNat, UInt8.toNat_ofNat, UInt8.toNat_ofNat]
    split <;> omega
  have second := next_of_bounds pending _ (Nat.mod_lt _ (by decide)) above below
  rw [decode_of_lead_unfinished (lead_four _ (by omega)), decode_of_next_unfinished second,
    decode_of_next_unfinished (next_of_later _ 1 (by omega)),
    decode_of_next_whole (next_of_later _ 0 (by omega))]
  congr 3
  dsimp only [pending]
  omega

/-- The bytes of a character are read as the character, whatever follows them. -/
theorem decode_utf8EncodeChar (char : Char) (rest : Bytes) :
    decode none (String.utf8EncodeChar char ++ rest) = some char :: decode none rest := by
  have same : Char.ofNat char.val.toNat = char := Char.ofNat_toNat char
  have valid : char.val.toNat.isValidChar := char.valid
  unfold Nat.isValidChar at valid
  unfold String.utf8EncodeChar
  generalize char.val.toNat = value at same valid ⊢
  rw [← same]
  dsimp only
  split
  · rename_i one
    exact decode_of_lead_whole (lead_one value (Nat.lt_succ_of_le one)) rest
  · split
    · rename_i one two
      exact decode_two (by omega) (by omega) rest
    · split
      · rename_i one two three
        exact decode_three (by omega) (by omega) (by omega) rest
      · exact decode_four (by omega) (by omega) rest

/-- The bytes of characters are read as the characters. -/
theorem decode_flatMap (text : List Char) :
    decode none (text.flatMap String.utf8EncodeChar) = text.map some := by
  induction text with
  | nil => rfl
  | cons char rest ih => rw [List.flatMap_cons, decode_utf8EncodeChar, ih, List.map_cons]

end Utf8

/-- No text has two forms: bytes that stand for themselves are those of no characters. -/
theorem OsText.ne_flatMap_of_broken {bytes : Bytes} (broken : none ∈ Utf8.decode none bytes)
    (text : String) : bytes ≠ text.toList.flatMap String.utf8EncodeChar := by
  rintro rfl
  rw [Utf8.decode_flatMap] at broken
  simp at broken

end TextureCache
