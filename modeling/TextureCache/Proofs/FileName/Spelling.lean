import Mathlib.Data.List.Induction
import TextureCache.Proofs.FileName

/-! Which texts are recognised as file names. A number may be spelled with a plus sign and with
zeros in front of its digits; every text that is recognised is a spelling of the name that it is
recognised as, and every spelling is recognised. What is written for a name is its spelling without
surplus. -/
namespace TextureCache

namespace Text

variable {separator : Char}

private theorem splitOn_eq (text : List Char) :
    splitOn separator text = List.splitOn separator text := by
  induction text with
  | nil => rfl
  | cons char rest ih =>
    rw [splitOn, List.splitOn_cons_eq_if_modifyHead, ← ih]
    by_cases same : char = separator
    · rw [if_pos same, if_pos (beq_iff_eq.mpr same)]
    · rw [if_neg same, if_neg (mt beq_iff_eq.mp same)]
      cases pieces : splitOn separator rest with
      | nil => exact absurd pieces (splitOn_ne_nil separator rest)
      | cons first others => rfl

private theorem not_mem_of_mem_splitOn {text piece : List Char}
    (member : piece ∈ splitOn separator text) :
    separator ∉ piece := by
  induction text generalizing piece with
  | nil =>
    rw [List.mem_singleton.mp member]
    exact List.not_mem_nil
  | cons char rest ih =>
    rw [splitOn] at member
    split at member
    · rcases List.mem_cons.mp member with rfl | later
      · exact List.not_mem_nil
      · exact ih later
    · rename_i different
      cases pieces : splitOn separator rest with
      | nil => exact absurd pieces (splitOn_ne_nil separator rest)
      | cons first others =>
        rw [pieces] at member ih
        rcases List.mem_cons.mp member with rfl | later
        · exact List.not_mem_cons_of_ne_of_not_mem (Ne.symm different) (ih List.mem_cons_self)
        · exact ih (List.mem_cons_of_mem _ later)

/-- The pieces of a text have no separators in them, and with separators between them they are the
text. -/
theorem splitOn_eq_iff {text : List Char} {pieces : List (List Char)} :
    splitOn separator text = pieces ↔
      pieces ≠ [] ∧ (∀ piece ∈ pieces, separator ∉ piece) ∧
        [separator].intercalate pieces = text := by
  constructor
  · rintro rfl
    refine ⟨splitOn_ne_nil _ _, fun _ => not_mem_of_mem_splitOn, ?_⟩
    rw [splitOn_eq, List.intercalate_splitOn]
  · rintro ⟨some, absent, rfl⟩
    rw [splitOn_eq, List.splitOn_intercalate separator absent some]

private theorem splitLast?_eq_none_iff {text : List Char} :
    splitLast? separator text = none ↔ separator ∉ text := by
  induction text with
  | nil => simp [splitLast?]
  | cons char rest ih =>
    rw [splitLast?, List.mem_cons, not_or, ← ih]
    cases splitLast? separator rest with
    | some parts => simp
    | none => simp [eq_comm (a := separator)]

private theorem splitLast?_eq_some_iff {text before after : List Char} :
    splitLast? separator text = some (before, after) ↔
      separator ∉ after ∧ before ++ separator :: after = text := by
  constructor
  · intro parts
    induction text generalizing before with
    | nil => cases parts
    | cons char rest ih =>
      rw [splitLast?] at parts
      split at parts
      · rename_i front back later
        cases parts
        obtain ⟨absent, rfl⟩ := ih later
        exact ⟨absent, rfl⟩
      · rename_i absent
        split at parts
        · rename_i same
          cases parts
          exact ⟨splitLast?_eq_none_iff.mp absent, same ▸ rfl⟩
        · cases parts
  · rintro ⟨absent, rfl⟩
    induction before with
    | nil =>
      rw [List.nil_append, splitLast?, splitLast?_eq_none_iff.mpr absent]
      exact if_pos rfl
    | cons char rest ih => rw [List.cons_append, splitLast?, ih]

end Text

/-! ## Numbers -/

/-- A number as a name may spell it: with or without a plus sign, and with so many zeros in front
of its digits. -/
structure Numeral where
  plus : Bool
  zeros : Nat
  number : UInt32
  deriving DecidableEq, Repr

namespace Numeral

def digits (numeral : Numeral) : List Char :=
  List.replicate numeral.zeros '0' ++ FileStem.renderNumber numeral.number

def chars (numeral : Numeral) : List Char :=
  if numeral.plus then '+' :: numeral.digits else numeral.digits

/-- The spelling of a number that has its digits only. -/
def plain (number : UInt32) : Numeral := ⟨false, 0, number⟩

/-- The characters that are not needed. -/
def surplus (numeral : Numeral) : Nat := (if numeral.plus then 1 else 0) + numeral.zeros

private theorem isDigit_of_mem_digits {numeral : Numeral} {char : Char}
    (member : char ∈ numeral.digits) : char.isDigit = true := by
  rcases List.mem_append.mp member with zero | digit
  · rw [List.eq_of_mem_replicate zero]
    rfl
  · exact Nat.isDigit_of_mem_toDigits (by decide) (by decide) digit

private theorem not_mem_chars {mark : Char} (digit : mark.isDigit = false) (sign : mark ≠ '+')
    (numeral : Numeral) : mark ∉ numeral.chars := by
  have absent : mark ∉ numeral.digits := fun member =>
    Bool.noConfusion (digit.symm.trans (isDigit_of_mem_digits member))
  unfold chars
  split
  · exact List.not_mem_cons_of_ne_of_not_mem sign absent
  · exact absent

private theorem length_chars (numeral : Numeral) :
    numeral.chars.length =
      numeral.surplus + (FileStem.renderNumber numeral.number).length := by
  unfold chars surplus digits
  split
  · rw [List.length_cons, List.length_append, List.length_replicate]
    omega
  · rw [List.length_append, List.length_replicate]
    omega

private theorem chars_of_plain {numeral : Numeral} (plain : numeral.surplus = 0) :
    numeral.chars = FileStem.renderNumber numeral.number := by
  obtain ⟨sign, zeros⟩ := Nat.add_eq_zero_iff.mp plain
  have unsigned : ¬ numeral.plus = true := by
    intro signed
    rw [if_pos signed] at sign
    cases sign
  rw [chars, if_neg unsigned, digits, zeros]
  rfl

end Numeral

namespace FileName

private theorem digitsValue_eq (digits : List Char) :
    digitsValue digits = Nat.ofDigitChars 10 digits 0 := by
  unfold digitsValue Nat.ofDigitChars
  congr 1
  funext value digit
  rw [Nat.mul_comm]
  rfl

private theorem exists_digit {char : Char} (decimal : char.isDigit = true) :
    ∃ digit < 10, Nat.digitChar digit = char := by
  obtain ⟨least, most⟩ := Char.isDigit_iff_toNat.mp decimal
  change 48 ≤ char.toNat at least
  change char.toNat ≤ 57 at most
  refine ⟨char.toNat - 48, by omega, Char.toNat_inj.mp ?_⟩
  rw [Nat.toNat_digitChar_of_lt_ten (by omega)]
  omega

private theorem exists_zeros {digits : List Char} (some : digits ≠ [])
    (decimal : ∀ char ∈ digits, char.isDigit = true) :
    ∃ zeros, digits = List.replicate zeros '0' ++ Nat.toDigits 10 (digitsValue digits) := by
  rw [digitsValue_eq]
  -- The digits are taken off from the end, as their value is made up.
  induction digits using List.reverseRecOn with
  | nil => exact absurd rfl some
  | append_singleton front char ih =>
    obtain ⟨digit, small, rfl⟩ :=
      exists_digit (decimal char (List.mem_append_right _ List.mem_cons_self))
    rw [Nat.ofDigitChars_append, Nat.ofDigitChars_cons_digitChar_of_lt_ten small,
      Nat.ofDigitChars_nil]
    rcases eq_or_ne front [] with rfl | more
    · exact ⟨0, by rw [Nat.ofDigitChars_nil, Nat.mul_zero, Nat.zero_add,
        Nat.toDigits_of_lt_base small]; rfl⟩
    · obtain ⟨zeros, before⟩ :=
        ih more fun char member => decimal char (List.mem_append_left _ member)
      generalize Nat.ofDigitChars 10 front 0 = value at before ⊢
      rcases Nat.eq_zero_or_pos value with rfl | positive
      · refine ⟨zeros + 1, ?_⟩
        rw [before, Nat.toDigits_zero, Nat.mul_zero, Nat.zero_add, Nat.toDigits_of_lt_base small,
          List.replicate_succ']
      · refine ⟨zeros, ?_⟩
        rw [before, ← Nat.toDigits_append_toDigits (by decide) positive small,
          Nat.toDigits_of_lt_base small, List.append_assoc]

private theorem withoutPlus_chars (numeral : Numeral) :
    withoutPlus numeral.chars = numeral.digits := by
  have unsigned : '+' ∉ numeral.digits := fun member =>
    Bool.noConfusion (Numeral.isDigit_of_mem_digits member)
  unfold Numeral.chars
  split
  · rfl
  · unfold withoutPlus
    split
    · rename_i digits signed
      exact absurd (signed ▸ List.mem_cons_self) unsigned
    · rfl

theorem parseNumber?_eq_some_iff {text : List Char} {number : UInt32} :
    parseNumber? text = some number ↔
      ∃ numeral : Numeral, numeral.chars = text ∧ numeral.number = number := by
  constructor
  · intro parsed
    unfold parseNumber? at parsed
    dsimp only at parsed
    split at parsed
    · rename_i accepted
      obtain ⟨some, decimal, word⟩ := accepted
      obtain ⟨zeros, digits⟩ := exists_zeros some (List.all_eq_true.mp decimal)
      obtain ⟨plus, signed⟩ : ∃ plus : Bool,
          text = if plus then '+' :: withoutPlus text else withoutPlus text := by
        unfold withoutPlus
        split
        · exact ⟨true, rfl⟩
        · exact ⟨false, rfl⟩
      have value : number.toNat = digitsValue (withoutPlus text) := by
        rw [← Option.some.inj parsed, UInt32.toNat_ofNat_of_lt' word]
      have spelled : (⟨plus, zeros, number⟩ : Numeral).digits = withoutPlus text := by
        rw [Numeral.digits, FileStem.renderNumber, value, ← digits]
      refine ⟨⟨plus, zeros, number⟩, ?_, rfl⟩
      rw [Numeral.chars, spelled, ← signed]
    · cases parsed
  · rintro ⟨numeral, rfl, rfl⟩
    have value : digitsValue numeral.digits = numeral.number.toNat := by
      rw [digitsValue_eq, Numeral.digits, Nat.ofDigitChars_append,
        Nat.ofDigitChars_replicate_zero, Nat.mul_zero, FileStem.renderNumber,
        Nat.ofDigitChars_ten_toDigits]
    have some : numeral.digits ≠ [] :=
      List.append_ne_nil_of_right_ne_nil _ Nat.toDigits_ne_nil
    have decimal : numeral.digits.all Char.isDigit = true :=
      List.all_eq_true.mpr fun _ => Numeral.isDigit_of_mem_digits
    unfold parseNumber?
    simp only [withoutPlus_chars, value]
    rw [if_pos ⟨some, decimal, numeral.number.toNat_lt⟩, UInt32.ofNat_toNat]

private theorem mapM_parseNumber?_eq_some_iff {pieces : List (List Char)} {numbers : List UInt32} :
    pieces.mapM parseNumber? = some numbers ↔
      ∃ numerals : List Numeral, numerals.map Numeral.chars = pieces ∧
        numerals.map Numeral.number = numbers := by
  induction pieces generalizing numbers with
  | nil =>
    constructor
    · intro read
      cases read
      exact ⟨[], rfl, rfl⟩
    · rintro ⟨numerals, pieces, rfl⟩
      rw [List.map_eq_nil_iff.mp pieces]
      rfl
  | cons piece rest ih =>
    simp only [List.mapM_cons, Option.bind_eq_bind, Option.pure_def, Option.bind_eq_some_iff,
      Option.some.injEq, ih, parseNumber?_eq_some_iff]
    constructor
    · rintro ⟨_, ⟨numeral, rfl, rfl⟩, _, ⟨numerals, rfl, rfl⟩, rfl⟩
      exact ⟨numeral :: numerals, rfl, rfl⟩
    · rintro ⟨numerals, pieces, rfl⟩
      obtain ⟨numeral, others, rfl, first, later⟩ := List.map_eq_cons_iff.mp pieces
      exact ⟨_, ⟨numeral, first, rfl⟩, _, ⟨others, later, rfl⟩, rfl⟩

/-- Spelled numbers with an `x` between them. -/
def joined (numerals : List Numeral) : List Char := ['x'].intercalate (numerals.map Numeral.chars)

private theorem not_mem_joined {mark : Char} (digit : mark.isDigit = false) (sign : mark ≠ '+')
    (other : mark ≠ 'x') (numerals : List Numeral) : mark ∉ joined numerals := by
  unfold joined
  induction numerals with
  | nil => exact List.not_mem_nil
  | cons numeral rest ih =>
    have first := numeral.not_mem_chars digit sign
    cases rest with
    | nil => rwa [List.map_singleton, List.intercalate_singleton]
    | cons next rest =>
      rw [List.map_cons] at ih ⊢
      rw [List.map_cons, List.intercalate_cons_cons]
      simp [first, other, ih]

private theorem parseNumbers?_eq_some_iff {text : List Char} {numbers : List UInt32} :
    parseNumbers? text = some numbers ↔
      ∃ numerals, numerals ≠ [] ∧ joined numerals = text ∧
        numerals.map Numeral.number = numbers := by
  rw [parseNumbers?, mapM_parseNumber?_eq_some_iff]
  constructor
  · rintro ⟨numerals, pieces, numbers⟩
    obtain ⟨some, _, text⟩ := Text.splitOn_eq_iff.mp pieces.symm
    exact ⟨numerals, mt List.map_eq_nil_iff.mpr some, text, numbers⟩
  · rintro ⟨numerals, some, rfl, numbers⟩
    refine ⟨numerals, (Text.splitOn_eq_iff.mpr ⟨mt List.map_eq_nil_iff.mp some, ?_, rfl⟩).symm,
      numbers⟩
    intro piece member
    obtain ⟨numeral, _, rfl⟩ := List.mem_map.mp member
    exact numeral.not_mem_chars rfl (by decide)

private theorem parseExtents?_eq_some_iff {text : List Char} {extents : UInt32 × UInt32 × UInt32} :
    parseExtents? text = some extents ↔
      ∃ width height depth : Numeral, joined [width, height, depth] = text ∧
        (width.number, height.number, depth.number) = extents := by
  unfold parseExtents?
  simp only [Option.bind_eq_bind, Option.bind_eq_some_iff, parseNumbers?_eq_some_iff]
  constructor
  · rintro ⟨_, ⟨numerals, _, rfl, rfl⟩, read⟩
    rcases numerals with _ | ⟨width, _ | ⟨height, _ | ⟨depth, _ | ⟨_, _⟩⟩⟩⟩ <;> cases read
    exact ⟨width, height, depth, rfl, rfl⟩
  · rintro ⟨width, height, depth, rfl, rfl⟩
    exact ⟨_, ⟨[width, height, depth], List.cons_ne_nil _ _, rfl, rfl⟩, rfl⟩

private theorem parseSlice?_eq_some_iff {text : List Char} {slice : UInt32 × UInt32} :
    parseSlice? text = some slice ↔
      ∃ level index : Numeral, joined [level, index] = text ∧
        (level.number, index.number) = slice := by
  unfold parseSlice?
  simp only [Option.bind_eq_bind, Option.bind_eq_some_iff, parseNumbers?_eq_some_iff]
  constructor
  · rintro ⟨_, ⟨numerals, _, rfl, rfl⟩, read⟩
    rcases numerals with _ | ⟨level, _ | ⟨index, _ | ⟨_, _⟩⟩⟩ <;> cases read
    exact ⟨level, index, rfl, rfl⟩
  · rintro ⟨level, index, rfl, rfl⟩
    exact ⟨_, ⟨[level, index], List.cons_ne_nil _ _, rfl, rfl⟩, rfl⟩

/-! ## Names -/

private theorem ofWord?_eq_some_iff {word : List Char} {kind : NameKind} :
    NameKind.ofWord? word = some kind ↔ kind.word.toList = word := by
  constructor
  · intro found
    unfold NameKind.ofWord? at found
    have same := List.find?_some found
    exact beq_iff_eq.mp same
  · rintro rfl
    exact FileStem.ofWord?_word kind

private theorem ofDigits?_eq_some_iff {digits : List Char} {hash : ContentHash} :
    ContentHash.ofDigits? digits = some hash ↔ hash.digits = digits := by
  constructor
  · intro found
    unfold ContentHash.ofDigits? at found
    split at found <;> cases found
    rfl
  · rintro rfl
    unfold ContentHash.ofDigits?
    rw [dif_pos ⟨hash.length_eq, hash.all_hex⟩]

private theorem ofExtension?_eq_some_iff {extension : List Char} {container : Container} :
    Container.ofExtension? extension = some container ↔
      container.extension.toList = extension := by
  constructor
  · intro found
    unfold Container.ofExtension? at found
    have same := List.find?_some found
    exact beq_iff_eq.mp same
  · rintro rfl
    exact ofExtension?_extension container

private theorem parseStem?_eq_some_iff {word digits extents : List Char}
    {slice : Option (UInt32 × UInt32)} {stem : FileStem} :
    parseStem? word digits extents slice = some stem ↔
      stem.kind.word.toList = word ∧ stem.hash.digits = digits ∧
        parseExtents? extents = some (stem.width, stem.height, stem.depthOrLayers) ∧
        stem.slice = slice := by
  unfold parseStem?
  simp only [Option.bind_eq_bind, Option.bind_eq_some_iff, ofWord?_eq_some_iff,
    ofDigits?_eq_some_iff, Option.some.injEq]
  constructor
  · rintro ⟨kind, word, hash, digits, ⟨width, height, depth⟩, extents, rfl⟩
    exact ⟨word, digits, extents, rfl⟩
  · rintro ⟨word, digits, extents, rfl⟩
    exact ⟨_, word, _, digits, _, extents, rfl⟩

/-- A name in one of its spellings. -/
structure Spelling where
  kind : NameKind
  hash : ContentHash
  width : Numeral
  height : Numeral
  depthOrLayers : Numeral
  slice : Option (Numeral × Numeral)
  container : Container
  deriving DecidableEq, Repr

namespace Spelling

def parts (spelling : Spelling) : List (List Char) :=
  spelling.kind.word.toList :: spelling.hash.digits ::
    joined [spelling.width, spelling.height, spelling.depthOrLayers] ::
    spelling.slice.toList.map fun slice => joined [slice.1, slice.2]

def chars (spelling : Spelling) : List Char :=
  ['_'].intercalate spelling.parts ++ '.' :: spelling.container.extension.toList

def text (spelling : Spelling) : String := String.ofList spelling.chars

def name (spelling : Spelling) : FileName where
  stem := {
    kind := spelling.kind
    hash := spelling.hash
    width := spelling.width.number
    height := spelling.height.number
    depthOrLayers := spelling.depthOrLayers.number
    slice := spelling.slice.map fun slice => (slice.1.number, slice.2.number) }
  container := spelling.container

/-- The characters that are not needed in all numbers. -/
def surplus (spelling : Spelling) : Nat :=
  spelling.width.surplus + spelling.height.surplus + spelling.depthOrLayers.surplus +
    (spelling.slice.toList.map fun slice => slice.1.surplus + slice.2.surplus).sum

private theorem splitOn_parts (spelling : Spelling) :
    Text.splitOn '_' (['_'].intercalate spelling.parts) = spelling.parts := by
  have words : '_' ∉ spelling.kind.word.toList := by cases spelling.kind <;> decide
  have digits : '_' ∉ spelling.hash.digits := FileStem.not_mem_digits rfl _
  have numbers (numerals : List Numeral) : '_' ∉ joined numerals :=
    not_mem_joined rfl (by decide) (by decide) numerals
  refine Text.splitOn_eq_iff.mpr ⟨List.cons_ne_nil _ _, ?_, rfl⟩
  intro part member
  simp only [parts, List.mem_cons, List.mem_map] at member
  rcases member with rfl | rfl | rfl | ⟨slice, _, rfl⟩
  · exact words
  · exact digits
  · exact numbers _
  · exact numbers _

end Spelling

private theorem parseChars?_eq_some_iff {text : List Char} {name : FileName} :
    parseChars? text = some name ↔
      ∃ spelling : Spelling, spelling.chars = text ∧ spelling.name = name := by
  unfold parseChars?
  simp only [Option.bind_eq_bind, Option.bind_eq_some_iff, ofExtension?_eq_some_iff]
  constructor
  · rintro ⟨⟨front, extension⟩, cut, container, rfl, parsed⟩
    obtain ⟨_, rfl⟩ := Text.splitLast?_eq_some_iff.mp cut
    split at parsed
    · rename_i word digits extents pieces
      simp only [Option.bind_eq_some_iff, parseStem?_eq_some_iff, parseExtents?_eq_some_iff,
        Option.some.injEq] at parsed
      obtain ⟨⟨kind, hash, _, _, _, _⟩,
        ⟨rfl, rfl, ⟨width, height, depth, rfl, same⟩, rfl⟩, rfl⟩ := parsed
      cases same
      obtain ⟨_, _, rfl⟩ := Text.splitOn_eq_iff.mp pieces
      exact ⟨⟨kind, hash, width, height, depth, none, container⟩, rfl, rfl⟩
    · rename_i word digits extents slice pieces
      simp only [Option.bind_eq_some_iff, parseStem?_eq_some_iff, parseExtents?_eq_some_iff,
        parseSlice?_eq_some_iff, Option.some.injEq] at parsed
      obtain ⟨_, ⟨level, index, rfl, rfl⟩, ⟨kind, hash, _, _, _, _⟩,
        ⟨rfl, rfl, ⟨width, height, depth, rfl, same⟩, rfl⟩, rfl⟩ := parsed
      cases same
      obtain ⟨_, _, rfl⟩ := Text.splitOn_eq_iff.mp pieces
      exact ⟨⟨kind, hash, width, height, depth, some (level, index), container⟩, rfl, rfl⟩
    · cases parsed
  · rintro ⟨spelling, rfl, rfl⟩
    have plain : '.' ∉ spelling.container.extension.toList := by
      cases spelling.container <;> decide
    refine ⟨_, Text.splitLast?_eq_some_iff.mpr ⟨plain, rfl⟩, _, rfl, ?_⟩
    dsimp only
    rw [spelling.splitOn_parts]
    obtain ⟨kind, hash, width, height, depth, slice, container⟩ := spelling
    have stem (slice : Option (UInt32 × UInt32)) : parseStem? kind.word.toList hash.digits
        (joined [width, height, depth]) slice =
          some ⟨kind, hash, width.number, height.number, depth.number, slice⟩ :=
      parseStem?_eq_some_iff.mpr
        ⟨rfl, rfl, parseExtents?_eq_some_iff.mpr ⟨width, height, depth, rfl, rfl⟩, rfl⟩
    cases slice with
    | none => exact Option.bind_eq_some_iff.mpr ⟨_, stem none, rfl⟩
    | some slice =>
      have read := parseSlice?_eq_some_iff.mpr ⟨slice.1, slice.2, rfl, rfl⟩
      exact Option.bind_eq_some_iff.mpr ⟨_, read, Option.bind_eq_some_iff.mpr ⟨_, stem _, rfl⟩⟩

namespace Spelling

/-- The part of a spelling that says which slice the file holds. -/
def sliceChars : Option (Numeral × Numeral) → List Char
  | none => []
  | some (level, index) => '_' :: level.chars ++ 'x' :: index.chars

private theorem chars_eq (spelling : Spelling) :
    spelling.chars = spelling.kind.word.toList ++ '_' :: spelling.hash.digits ++
      '_' :: spelling.width.chars ++ 'x' :: spelling.height.chars ++
      'x' :: spelling.depthOrLayers.chars ++ sliceChars spelling.slice ++
      '.' :: spelling.container.extension.toList := by
  unfold chars parts sliceChars
  cases spelling.slice <;> simp [joined, List.intercalate_cons_cons]

private theorem toList_render_name (spelling : Spelling) :
    spelling.name.render.toList = spelling.kind.word.toList ++ '_' :: spelling.hash.digits ++
      '_' :: FileStem.renderNumber spelling.width.number ++
      'x' :: FileStem.renderNumber spelling.height.number ++
      'x' :: FileStem.renderNumber spelling.depthOrLayers.number ++
      FileStem.renderSlice (spelling.slice.map fun slice => (slice.1.number, slice.2.number)) ++
      '.' :: spelling.container.extension.toList := by
  rw [FileName.render, FileStem.withExtension, String.toList_ofList]
  rfl

/-- A spelling is as much longer than the written name as it has characters that are not needed. -/
theorem length_chars (spelling : Spelling) :
    spelling.chars.length = spelling.surplus + spelling.name.render.toList.length := by
  rw [chars_eq, toList_render_name, surplus]
  cases spelling.slice with
  | none =>
    simp only [List.length_append, List.length_cons, Numeral.length_chars, sliceChars,
      Option.map_none, FileStem.renderSlice, Option.toList_none, List.map_nil, List.sum_nil]
    omega
  | some slice =>
    simp only [List.length_append, List.length_cons, Numeral.length_chars, sliceChars,
      Option.map_some, FileStem.renderSlice, Option.toList_some, List.map_cons, List.map_nil,
      List.sum_cons, List.sum_nil]
    omega

theorem text_eq_render_iff (spelling : Spelling) :
    spelling.text = spelling.name.render ↔ spelling.surplus = 0 := by
  constructor
  · intro same
    have length := spelling.length_chars
    rw [← same, text, String.toList_ofList] at length
    omega
  · intro plain
    apply String.toList_injective
    rw [text, String.toList_ofList, chars_eq, toList_render_name]
    obtain ⟨kind, hash, width, height, depth, slice, container⟩ := spelling
    dsimp only [surplus] at plain ⊢
    obtain ⟨extents, last⟩ := Nat.add_eq_zero_iff.mp plain
    obtain ⟨across, deep⟩ := Nat.add_eq_zero_iff.mp extents
    obtain ⟨wide, high⟩ := Nat.add_eq_zero_iff.mp across
    rw [Numeral.chars_of_plain wide, Numeral.chars_of_plain high, Numeral.chars_of_plain deep]
    congr 2
    cases slice with
    | none => rfl
    | some slice =>
      obtain ⟨level, index⟩ : slice.1.surplus = 0 ∧ slice.2.surplus = 0 :=
        Nat.add_eq_zero_iff.mp last
      rw [sliceChars, Numeral.chars_of_plain level, Numeral.chars_of_plain index]
      rfl

/-- The spelling in which a name is written. -/
def written (name : FileName) : Spelling where
  kind := name.stem.kind
  hash := name.stem.hash
  width := .plain name.stem.width
  height := .plain name.stem.height
  depthOrLayers := .plain name.stem.depthOrLayers
  slice := name.stem.slice.map fun slice => (.plain slice.1, .plain slice.2)
  container := name.container

theorem name_written (name : FileName) : (written name).name = name := by
  obtain ⟨⟨kind, hash, width, height, depthOrLayers, slice⟩, container⟩ := name
  cases slice <;> rfl

private theorem surplus_written (name : FileName) : (written name).surplus = 0 := by
  unfold written surplus
  cases name.stem.slice <;> rfl

theorem text_written (name : FileName) : (written name).text = name.render := by
  rw [(text_eq_render_iff _).mpr (surplus_written name), name_written]

end Spelling

/-- Exactly the spellings of a name are recognised as that name. -/
theorem parse?_eq_some_iff {text : String} {name : FileName} :
    parse? text = some name ↔
      ∃ spelling : Spelling, spelling.text = text ∧ spelling.name = name := by
  rw [parse?, parseChars?_eq_some_iff]
  constructor
  · rintro ⟨spelling, chars, spelled⟩
    exact ⟨spelling, String.toList_injective (String.toList_ofList.trans chars), spelled⟩
  · rintro ⟨spelling, rfl, spelled⟩
    exact ⟨spelling, String.toList_ofList.symm, spelled⟩

end FileName
end TextureCache
