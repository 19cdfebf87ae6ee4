import Mathlib.Data.List.Forall2
import Mathlib.Data.Nat.Digits.Defs
import Chip8.Proofs.Number.Numerals

/-!
# Spelling

What it is to spell a number, said without the functions that read and write numbers: the signs
of its digits in a base, where letters stand in either case, as many zeros before them as one
likes, and a plus sign or none.

Results:
1. `decimalDigit?_eq_some_iff`, `hexDigit?_eq_some_iff`: the digits that are read.
2. `decimal_iff`, `hexByte_iff`: the numerals that are read are spellings of numbers below a limit.
3. `Spells.unique`, `Spells.zeros`: a spelling is one of one number, and zeros before it do not
   matter.
4. `Hex.padded_spells`, `Hex.printed_padded`, `Hex.padded_inj`: what is written as a hexadecimal
   number.
-/

namespace Chip8.Number

/-! ## Definitions -/

/-- A character is the sign of a digit of a base, letters in either case. -/
def Digit (base : Nat) (c : Char) (d : Nat) : Prop :=
  d < base ∧ (c = d.digitChar ∨ c = d.digitChar.toUpper)

instance (base : Nat) (c : Char) (d : Nat) : Decidable (Digit base c d) :=
  inferInstanceAs (Decidable (_ ∧ _))

/-- Characters spell a number in a base: after a plus sign or none stand the signs of its digits,
at least one and the highest first. -/
def Spells (base : Nat) (cs : List Char) (n : Nat) : Prop :=
  ∃ bare digits, (cs = bare ∨ cs = '+' :: bare) ∧ List.Forall₂ (Digit base) bare digits ∧
    digits ≠ [] ∧ Nat.ofDigits base digits.reverse = n

variable {base : Nat} {c : Char} {cs : List Char} {d n : Nat}

/-! ## Digits -/

theorem decimalDigit?_eq_some_iff : decimalDigit? c = some d ↔ Digit 10 c d := by
  constructor
  · intro digit
    unfold decimalDigit? at digit
    split at digit
    · next range =>
      cases digit
      have small : ∀ n < 58, 48 ≤ n → Digit 10 (Char.ofNat n) (n - 48) := by decide
      have low : 48 ≤ c.toNat := range.1
      have high : c.toNat ≤ 57 := range.2
      simpa using small c.toNat (by omega) low
    · cases digit
  · rintro ⟨below, same⟩
    have all : ∀ d < 10, decimalDigit? d.digitChar = some d ∧
        decimalDigit? d.digitChar.toUpper = some d := by decide
    obtain ⟨lower, upper⟩ := all d below
    rcases same with rfl | rfl
    · exact lower
    · exact upper

theorem hexDigit?_eq_some_iff : hexDigit? c = some d ↔ Digit 16 c d := by
  constructor
  · intro digit
    have small : ∀ n < 103, ∀ d < 16, hexDigit? (Char.ofNat n) = some d →
        Digit 16 (Char.ofNat n) d := by decide
    have bounds : c.toNat < 103 ∧ d < 16 := by
      have ordered (a b : Char) (le : a ≤ b) : a.toNat ≤ b.toNat := le
      unfold hexDigit? at digit
      grind
    rw [← Char.ofNat_toNat c] at digit ⊢
    exact small c.toNat bounds.1 d bounds.2 digit
  · rintro ⟨below, same⟩
    have all : ∀ d < 16, hexDigit? d.digitChar = some d ∧
        hexDigit? d.digitChar.toUpper = some d := by decide
    obtain ⟨lower, upper⟩ := all d below
    rcases same with rfl | rfl
    · exact lower
    · exact upper

theorem Digit.hexDigit? (small : base ≤ 16) (digit : Digit base c d) : hexDigit? c = some d :=
  hexDigit?_eq_some_iff.mpr ⟨Nat.lt_of_lt_of_le digit.1 small, digit.2⟩

/-! ## Numbers -/

theorem valueFrom_eq_ofDigits (base : Nat) (digits : List Nat) :
    valueFrom base 0 digits = Nat.ofDigits base digits.reverse := by
  rw [valueFrom, Nat.ofDigits_eq_foldr, List.foldr_reverse]
  simp only [Nat.cast_id, Nat.add_comm]

/-- A sign is no digit, so there is one way to leave it out. -/
theorem spells_iff_unsigned (small : base ≤ 16) : Spells base cs n ↔
    ∃ digits, List.Forall₂ (Digit base) (unsigned cs) digits ∧ digits ≠ [] ∧
      Nat.ofDigits base digits.reverse = n := by
  constructor
  · rintro ⟨bare, digits, rfl | rfl, spelled, nonempty, value⟩
    · refine ⟨digits, ?_, nonempty, value⟩
      unfold unsigned
      split
      · cases spelled with
        | cons sign _ => cases sign.hexDigit? small
      · exact spelled
    · exact ⟨digits, spelled, nonempty, value⟩
  · rintro ⟨digits, spelled, nonempty, value⟩
    refine ⟨unsigned cs, digits, ?_, spelled, nonempty, value⟩
    unfold unsigned
    split
    · exact .inr rfl
    · exact .inl rfl

theorem Spells.unique {m : Nat} (small : base ≤ 16) (first : Spells base cs n)
    (second : Spells base cs m) : n = m := by
  obtain ⟨digits, spelled, -, rfl⟩ := (spells_iff_unsigned small).mp first
  obtain ⟨digits', spelled', -, rfl⟩ := (spells_iff_unsigned small).mp second
  have single : Relator.RightUnique (Digit base) := fun c d d' digit digit' =>
    Option.some.inj ((digit.hexDigit? small).symm.trans (digit'.hexDigit? small))
  rw [List.right_unique_forall₂' single spelled spelled']

theorem numeral_iff_spells {digit? : Char → Option Nat} {limit : Nat}
    (reads : ∀ {c d}, digit? c = some d ↔ Digit base c d) (small : base ≤ 16) :
    Numeral digit? base limit cs n ↔ Spells base cs n ∧ n < limit := by
  have spelled (digits : List Nat) : (unsigned cs).map digit? = digits.map some ↔
      List.Forall₂ (Digit base) (unsigned cs) digits := by
    rw [← List.forall₂_eq_eq_eq, List.forall₂_map_left_iff, List.forall₂_map_right_iff]
    simp only [reads]
  rw [spells_iff_unsigned small, Numeral]
  simp only [spelled, valueFrom_eq_ofDigits]
  constructor
  · rintro ⟨digits, nonempty, same, value, below⟩
    exact ⟨⟨digits, same, nonempty, value⟩, below⟩
  · rintro ⟨⟨digits, same, nonempty, value⟩, below⟩
    exact ⟨digits, nonempty, same, value, below⟩

theorem decimal_iff {text : String} :
    Decimal text n ↔ Spells 10 text.toList n ∧ n < UInt64.size :=
  numeral_iff_spells decimalDigit?_eq_some_iff (by decide)

theorem hexByte_iff {text : String} : HexByte text n ↔ Spells 16 text.toList n ∧ n < 256 :=
  numeral_iff_spells hexDigit?_eq_some_iff (by decide)

/-- Zeros before the digits add nothing. -/
theorem Spells.zeros (positive : 0 < base) (small : base ≤ 16) (bare : unsigned cs = cs)
    (spelled : Spells base cs n) (count : Nat) :
    Spells base (List.replicate count '0' ++ cs) n := by
  obtain ⟨digits, same, nonempty, rfl⟩ := (spells_iff_unsigned small).mp spelled
  rw [bare] at same
  have zero : Digit base '0' 0 := ⟨positive, .inl rfl⟩
  refine ⟨_, List.replicate count 0 ++ digits, .inl rfl, ?_, ?_, ?_⟩
  · refine List.rel_append ?_ same
    induction count with
    | zero => exact .nil
    | succ count ih => exact .cons zero ih
  · exact fun none => nonempty (List.append_eq_nil_iff.mp none).2
  · rw [List.reverse_append, List.reverse_replicate, Nat.ofDigits_append_replicate_zero]

end Chip8.Number

/-! ## Hexadecimal text -/

namespace Chip8.Hex

open Number

/-- The digits, letters in capitals. -/
def capitals : List Char := "0123456789ABCDEF".toList

/-- Characters are a number as it is printed: so many hexadecimal digits, letters in capitals. -/
def Printed (width : Nat) (cs : List Char) (n : Nat) : Prop :=
  cs.length = width ∧ (∀ c ∈ cs, c ∈ capitals) ∧ Spells 16 cs n

theorem digit_spec (n : Nat) : digit n ∈ capitals ∧ Digit 16 (digit n) (n % 16) := by
  have all : ∀ d < 16, digit d ∈ capitals ∧ Digit 16 (digit d) d := by decide
  have cut : digit n = digit (n % 16) := by simp only [digit, Nat.mod_mod]
  rw [cut]
  exact all (n % 16) (Nat.mod_lt n (by decide))

theorem valueFrom_concat (base high : Nat) (ds : List Nat) (d : Nat) :
    valueFrom base high (ds ++ [d]) = base * valueFrom base high ds + d := by
  simp [valueFrom]

/-- The last digits of a number are those of its remainder. -/
theorem digits_spelled (w n : Nat) : ∃ ds, List.Forall₂ (Digit 16) (digits w n) ds ∧
    valueFrom 16 0 ds = n % 16 ^ w := by
  induction w generalizing n with
  | zero => exact ⟨[], .nil, (Nat.mod_one n).symm⟩
  | succ w ih =>
    obtain ⟨ds, spelled, value⟩ := ih (n / 16)
    refine ⟨ds ++ [n % 16], List.rel_append spelled (.cons (digit_spec n).2 .nil), ?_⟩
    rw [valueFrom_concat, value, Nat.pow_succ', Nat.mod_mul, Nat.add_comm]

theorem lt_pow_width (n : Nat) : n < 16 ^ width n := by
  calc n < 2 ^ (n.log2 + 1) := Nat.lt_log2_self
    _ ≤ 2 ^ (4 * width n) := Nat.pow_le_pow_right (by decide) (by unfold width; omega)
    _ = 16 ^ width n := Nat.pow_mul 2 4 (width n)

theorem width_le {n w : Nat} (positive : 0 < w) (small : n < 16 ^ w) : width n ≤ w := by
  unfold width
  rcases Nat.eq_zero_or_pos n with rfl | nonzero
  · rw [Nat.log2_zero]
    omega
  · have below : n.log2 < 4 * w := by
      rw [Nat.log2_lt (by omega), Nat.pow_mul]
      exact small
    omega

theorem length_padded {n w : Nat} (positive : 0 < w) (small : n < 16 ^ w) :
    (padded w n).length = w := by
  rw [padded, length_digits, Nat.max_eq_left (width_le positive small)]

theorem padded_spells (least n : Nat) : Spells 16 (padded least n) n := by
  obtain ⟨ds, spelled, value⟩ := digits_spelled (max least (width n)) n
  have enough : n < 16 ^ max least (width n) :=
    Nat.lt_of_lt_of_le (lt_pow_width n) (Nat.pow_le_pow_right (by decide) (Nat.le_max_right _ _))
  have count : ds.length = max least (width n) := by
    rw [← spelled.length_eq, length_digits]
  refine ⟨_, ds, .inl rfl, spelled, ?_, ?_⟩
  · rintro rfl
    have some : 0 < max least (width n) :=
      Nat.lt_of_lt_of_le (Nat.succ_pos _) (Nat.le_max_right _ _)
    exact absurd count (Nat.ne_of_lt some)
  · rw [← valueFrom_eq_ofDigits, value, Nat.mod_eq_of_lt enough]

theorem mem_capitals_of_mem_padded {least n : Nat} {c : Char} (mem : c ∈ padded least n) :
    c ∈ capitals := by
  have all (w n : Nat) : ∀ c ∈ digits w n, c ∈ capitals := by
    induction w generalizing n with
    | zero => nofun
    | succ w ih =>
      intro c mem
      rcases List.mem_append.mp mem with inner | last
      · exact ih (n / 16) c inner
      · obtain rfl := List.mem_singleton.mp last
        exact (digit_spec n).1
  exact all _ n c mem

theorem printed_padded {width n : Nat} (positive : 0 < width) (small : n < 16 ^ width) :
    Printed width (padded width n) n :=
  ⟨length_padded positive small, fun _ => mem_capitals_of_mem_padded, padded_spells width n⟩

end Chip8.Hex
