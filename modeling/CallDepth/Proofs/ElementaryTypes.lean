/-
# The names of elementary types

A name is that of an elementary type exactly when it is one of eight words, or `bytes`, `int` or
`uint` with the numeral of a width that the type can have (`elementary_type_names_exact`).

`width?_eq_some_iff` says what a width is read from: the numeral of a positive number of 32 bits and
nothing else. The words overlap (`byte` begins `bytes`, `int` ends `uint`), so the name is taken
apart once (`isElementaryTypeName_iff_parts`), and each part is settled by its own lemma.
-/
import CallDepth.Proofs.DecimalNumerals
import CallDepth.Weight

namespace CallDepth

theorem width?_toDigits {width : Nat} (positive : 0 < width) (bounded : width < halfWordBound) :
    width? (Nat.toDigits 10 width) = some width := by
  have digit : ∀ c ∈ Nat.toDigits 10 width, isDigit c = true := fun _ => isDigit_of_mem_toDigits
  have leading := head?_toDigits_ne_zero positive
  have value := digitsValue_toDigits width
  cases numeral : Nat.toDigits 10 width with
  | nil => exact absurd numeral Nat.toDigits_ne_nil
  | cons first others =>
      rw [numeral] at digit leading value
      have starts : first ≠ '0' := by simpa using leading
      have digits : (first :: others).all isDigit = true := List.all_eq_true.2 digit
      simp [width?, value, bounded, starts, digits]

theorem eq_toDigits_of_width? {digits : List Char} {width : Nat}
    (read : width? digits = some width) :
    0 < width ∧ width < halfWordBound ∧ digits = Nat.toDigits 10 width := by
  cases digits with
  | nil => cases read
  | cons first others =>
      rw [width?] at read
      split at read
      · rename_i accepted
        simp only [Bool.and_eq_true, decide_eq_true_eq, List.all_eq_true] at accepted
        obtain ⟨⟨leading, digit⟩, bounded⟩ := accepted
        have value : digitsValue (first :: others) = width := Option.some.inj read
        have numeral := toDigits_digitsValue digit (by simp) (by simpa using leading)
        rw [value] at bounded numeral
        refine ⟨?_, bounded, numeral.symm⟩
        apply Nat.pos_of_ne_zero
        rintro rfl
        obtain ⟨rfl, -⟩ := List.cons.inj numeral
        exact leading rfl
      · cases read

/-- A width is read from the numeral of a positive number of 32 bits, and from nothing else. -/
theorem width?_eq_some_iff {digits : List Char} {width : Nat} :
    width? digits = some width ↔
      0 < width ∧ width < halfWordBound ∧ digits = Nat.toDigits 10 width := by
  constructor
  · exact eq_toDigits_of_width?
  · rintro ⟨positive, bounded, rfl⟩
    exact width?_toDigits positive bounded

theorem any_isBytesWidth_iff {digits : List Char} :
    (width? digits).any isBytesWidth = true ↔
      ∃ width, 1 ≤ width ∧ width ≤ 32 ∧ digits = Nat.toDigits 10 width := by
  simp only [Option.any_eq_true, width?_eq_some_iff, isBytesWidth, Bool.and_eq_true,
    decide_eq_true_eq, halfWordBound]
  constructor
  · rintro ⟨width, ⟨-, -, numeral⟩, least, greatest⟩
    exact ⟨width, least, greatest, numeral⟩
  · rintro ⟨width, least, greatest, numeral⟩
    exact ⟨width, ⟨by omega, by omega, numeral⟩, least, greatest⟩

/-- The widths of integers are the multiples of 8 from 8 to 256. -/
theorem isIntegerSuffix_iff {digits : List Char} :
    isIntegerSuffix digits = true ↔
      digits = [] ∨
        ∃ width, 8 ∣ width ∧ 8 ≤ width ∧ width ≤ 256 ∧ digits = Nat.toDigits 10 width := by
  simp only [isIntegerSuffix, Bool.or_eq_true, List.isEmpty_iff, Option.any_eq_true,
    width?_eq_some_iff, isIntegerWidth, Bool.and_eq_true, decide_eq_true_eq, halfWordBound]
  apply or_congr_right
  constructor
  · rintro ⟨width, ⟨-, -, numeral⟩, ⟨divides, least⟩, greatest⟩
    exact ⟨width, Nat.dvd_of_mod_eq_zero divides, least, greatest, numeral⟩
  · rintro ⟨width, divides, least, greatest, numeral⟩
    exact ⟨width, ⟨by omega, by omega, numeral⟩, ⟨Nat.mod_eq_zero_of_dvd divides, least⟩, greatest⟩

/-- A name is taken apart: it is a word without a width, or one of three words and what follows. -/
theorem isElementaryTypeName_iff_parts {name : String} :
    isElementaryTypeName name = true ↔
      name ∈ plainTypeNames ∨
      (∃ digits, name.toList = "bytes".toList ++ digits ∧
        (width? digits).any isBytesWidth = true) ∨
      ∃ digits, (name.toList = "int".toList ++ digits ∨ name.toList = "uint".toList ++ digits) ∧
        isIntegerSuffix digits = true := by
  constructor
  · intro accepted
    unfold isElementaryTypeName at accepted
    split at accepted
    · rename_i plain
      exact .inl (List.contains_iff_mem.1 plain)
    · split at accepted
      · rename_i digits spelled
        exact .inr (.inl ⟨digits, spelled, accepted⟩)
      · rename_i digits spelled
        exact .inr (.inr ⟨digits, .inr spelled, accepted⟩)
      · rename_i digits spelled
        exact .inr (.inr ⟨digits, .inl spelled, accepted⟩)
      · cases accepted
  · intro parts
    unfold isElementaryTypeName
    split
    · rfl
    · rename_i other
      -- With the characters in front known, the match decides by itself.
      rcases parts with plain | ⟨digits, spelled, wide⟩ | ⟨digits, spelled | spelled, wide⟩
      · exact absurd (List.contains_iff_mem.2 plain) other
      · rw [spelled]
        exact wide
      · rw [spelled]
        exact wide
      · rw [spelled]
        exact wide

theorem eq_append_toString_iff {name stem : String} {width : Nat} :
    name = stem ++ toString width ↔ name.toList = stem.toList ++ Nat.toDigits 10 width := by
  rw [← String.toList_inj, String.toList_append, Nat.toString_eq_repr, Nat.toList_repr]

def bareTypeNames : List String :=
  ["address", "payable", "bool", "string", "bytes", "byte", "int", "uint"]

theorem mem_bareTypeNames_iff {name : String} :
    name ∈ bareTypeNames ↔
      name ∈ plainTypeNames ∨ name.toList = "int".toList ∨ name.toList = "uint".toList := by
  simp only [bareTypeNames, plainTypeNames, List.mem_cons, String.toList_inj]
  simp only [List.not_mem_nil, or_false]
  tauto

/-- The elementary type names, written out. -/
theorem isElementaryTypeName_iff {name : String} :
    isElementaryTypeName name = true ↔
      name ∈ bareTypeNames ∨
      (∃ width, 1 ≤ width ∧ width ≤ 32 ∧ name = "bytes" ++ toString width) ∨
      ∃ width, 8 ∣ width ∧ 8 ≤ width ∧ width ≤ 256 ∧
        (name = "int" ++ toString width ∨ name = "uint" ++ toString width) := by
  rw [isElementaryTypeName_iff_parts, mem_bareTypeNames_iff]
  simp only [any_isBytesWidth_iff, isIntegerSuffix_iff, eq_append_toString_iff]
  constructor
  · rintro (plain | ⟨digits, spelled, width, least, greatest, rfl⟩ | ⟨digits, spelled, suffix⟩)
    · exact .inl (.inl plain)
    · exact .inr (.inl ⟨width, least, greatest, spelled⟩)
    · rcases suffix with rfl | ⟨width, divides, least, greatest, rfl⟩
      · rw [List.append_nil, List.append_nil] at spelled
        exact .inl (.inr spelled)
      · exact .inr (.inr ⟨width, divides, least, greatest, spelled⟩)
  · rintro ((plain | spelled) | ⟨width, least, greatest, spelled⟩ |
      ⟨width, divides, least, greatest, spelled⟩)
    · exact .inl plain
    · refine .inr (.inr ⟨[], ?_, .inl rfl⟩)
      rwa [List.append_nil, List.append_nil]
    · exact .inr (.inl ⟨_, spelled, width, least, greatest, rfl⟩)
    · exact .inr (.inr ⟨_, spelled, .inr ⟨width, divides, least, greatest, rfl⟩⟩)

/-- The name of an elementary type is a word, with the numeral of a number up to 256 or nothing. -/
theorem exists_word_of_isElementaryTypeName {name : String}
    (elementary : isElementaryTypeName name = true) :
    ∃ word ∈ bareTypeNames, ∃ digits, name.toList = word.toList ++ digits ∧
      (∀ c ∈ digits, isDigit c = true) ∧ digitsValue digits ≤ 256 := by
  have numeral : ∀ width, width ≤ 256 → (∀ c ∈ Nat.toDigits 10 width, isDigit c = true) ∧
      digitsValue (Nat.toDigits 10 width) ≤ 256 := by
    intro width bounded
    rw [digitsValue_toDigits]
    exact ⟨fun _ => isDigit_of_mem_toDigits, bounded⟩
  rcases isElementaryTypeName_iff.1 elementary with
    bare | ⟨width, -, greatest, spelled⟩ | ⟨width, -, -, greatest, spelled | spelled⟩
  · exact ⟨name, bare, [], by simp, by simp, by decide⟩
  · exact ⟨"bytes", by decide, _, eq_append_toString_iff.1 spelled, numeral width (by omega)⟩
  · exact ⟨"int", by decide, _, eq_append_toString_iff.1 spelled, numeral width greatest⟩
  · exact ⟨"uint", by decide, _, eq_append_toString_iff.1 spelled, numeral width greatest⟩

/-- No word holds a digit or a character outside ASCII. -/
theorem letters_of_bareTypeNames : ∀ word ∈ bareTypeNames, ∀ c ∈ word.toList,
    isDigit c = false ∧ c.toNat < 128 := by
  simp [bareTypeNames, isDigit]

/-- Elementary types are recognized exactly. Their names are eight words, `bytes` with the numeral
of a width from 1 to 32, and `int` or `uint` with that of a multiple of 8 from 8 to 256. A name
whose digits denote more than 256, however long, and one with a character outside ASCII, is none. -/
theorem elementary_type_names_exact (name : String) :
    (isElementaryTypeName name = true ↔
      name ∈ ["address", "payable", "bool", "string", "bytes", "byte", "int", "uint"] ∨
      (∃ width, 1 ≤ width ∧ width ≤ 32 ∧ name = "bytes" ++ toString width) ∨
      ∃ width, 8 ∣ width ∧ 8 ≤ width ∧ width ≤ 256 ∧
        (name = "int" ++ toString width ∨ name = "uint" ++ toString width)) ∧
    (256 < digitsValue (name.toList.filter isDigit) → isElementaryTypeName name = false) ∧
    ∀ c ∈ name.toList, 128 ≤ c.toNat → isElementaryTypeName name = false := by
  refine ⟨isElementaryTypeName_iff, fun large => ?_, fun c member wide => ?_⟩
  · rw [Bool.eq_false_iff]
    intro elementary
    obtain ⟨word, known, digits, spelled, digit, bounded⟩ :=
      exists_word_of_isElementaryTypeName elementary
    have letters : word.toList.filter isDigit = [] :=
      List.filter_eq_nil_iff.2 fun c inside =>
        Bool.eq_false_iff.1 (letters_of_bareTypeNames word known c inside).1
    rw [spelled, List.filter_append, letters, List.filter_eq_self.2 digit, List.nil_append] at large
    omega
  · rw [Bool.eq_false_iff]
    intro elementary
    obtain ⟨word, known, digits, spelled, digit, -⟩ :=
      exists_word_of_isElementaryTypeName elementary
    rw [spelled, List.mem_append] at member
    rcases member with letter | numeral
    · have ascii := (letters_of_bareTypeNames word known c letter).2
      omega
    · have bounds := toNat_of_isDigit (digit c numeral)
      omega

/-- `uint4294967304` has a width of `2 ^ 32 + 8`, which is 8 in 32 bits, and the last name ends in a
digit eight of another script. -/
theorem uint_names_exact :
    isElementaryTypeName "uint256" = true ∧
    256 < digitsValue ("uint4294967304".toList.filter isDigit) ∧
    isElementaryTypeName "uint4294967304" = false ∧
    '\u0668' ∈ "uint\u0668".toList ∧ 128 ≤ '\u0668'.toNat ∧
    isElementaryTypeName "uint\u0668" = false := by
  have widest := (elementary_type_names_exact "uint256").1.2
    (.inr (.inr ⟨256, by decide, by decide, by decide, .inr (by decide)⟩))
  have large : 256 < digitsValue ("uint4294967304".toList.filter isDigit) := by decide
  have member : '\u0668' ∈ "uint\u0668".toList := by decide
  have outside : 128 ≤ '\u0668'.toNat := by decide
  exact ⟨widest, large, (elementary_type_names_exact "uint4294967304").2.1 large, member, outside,
    (elementary_type_names_exact "uint\u0668").2.2 '\u0668' member outside⟩

end CallDepth
