import Chip8.Hex
import Chip8.Number

/-!
# Numerals

The texts that denote a number: the digits of a number below a limit, the highest first, any
number of zeros before them, and a plus sign in front if there is one.

Results:
1. `read?_eq_some_iff`: what is read as a number is a numeral of it.
2. `decimal_toString`, `hexByte_digit`: a number that is written is a numeral of it.
-/

namespace Chip8.Number

/-! ## Definitions -/

/-- The value of digits that follow digits of the value `high`, the highest first. -/
def valueFrom (base high : Nat) (digits : List Nat) : Nat :=
  digits.foldl (fun high d => base * high + d) high

/-- Characters denote a number: but for a plus sign they are digits, at least one, of that number,
and it is below the limit. -/
def Numeral (digit? : Char → Option Nat) (base limit : Nat) (cs : List Char) (n : Nat) : Prop :=
  ∃ digits, digits ≠ [] ∧ (unsigned cs).map digit? = digits.map some ∧
    valueFrom base 0 digits = n ∧ n < limit

/-- A text denotes a number below 2^64 in base ten. -/
def Decimal (text : String) (n : Nat) : Prop := Numeral decimalDigit? 10 UInt64.size text.toList n

/-- A text denotes a byte in base sixteen. -/
def HexByte (text : String) (n : Nat) : Prop := Numeral hexDigit? 16 256 text.toList n

variable {digit? : Char → Option Nat} {base limit : Nat}

/-! ## Reading -/

theorem Numeral.lt {cs : List Char} {n : Nat} (h : Numeral digit? base limit cs n) : n < limit := by
  obtain ⟨_, _, _, _, below⟩ := h
  exact below

theorem le_valueFrom (positive : 0 < base) (high : Nat) (digits : List Nat) :
    high ≤ valueFrom base high digits := by
  induction digits generalizing high with
  | nil => exact Nat.le_refl high
  | cons d digits ih =>
    calc high ≤ base * high := Nat.le_mul_of_pos_left high positive
      _ ≤ base * high + d := Nat.le_add_right _ _
      _ ≤ valueFrom base (base * high + d) digits := ih _

/-- A value that stays below the limit was below it before each digit. -/
theorem accumulate_eq_some_iff (positive : 0 < base) {high n : Nat} {cs : List Char} :
    accumulate digit? base limit high cs = some n ↔
      ∃ digits, cs.map digit? = digits.map some ∧ valueFrom base high digits = n ∧
        (digits ≠ [] → n < limit) := by
  induction cs generalizing high with
  | nil =>
    constructor
    · intro read
      exact ⟨[], rfl, Option.some.inj read, fun nonempty => absurd rfl nonempty⟩
    · rintro ⟨digits, empty, rfl, -⟩
      obtain rfl := List.map_eq_nil_iff.mp empty.symm
      rfl
  | cons c cs ih =>
    rw [accumulate]
    cases digit : digit? c with
    | none =>
      refine ⟨nofun, ?_⟩
      rintro ⟨digits, same, -⟩
      obtain ⟨d, _, _, other, _⟩ := List.map_eq_cons_iff.mp same.symm
      cases digit.symm.trans other.symm
    | some d =>
      have further {digits : List Nat} : valueFrom base high (d :: digits) =
          valueFrom base (base * high + d) digits := rfl
      simp only
      split
      · next below =>
        rw [ih]
        constructor
        · rintro ⟨digits, same, value, bounded⟩
          refine ⟨d :: digits, ?_, further.trans value, fun _ => ?_⟩
          · rw [List.map_cons, List.map_cons, digit, same]
          · cases digits with
            | nil => exact value ▸ below
            | cons d' digits => exact bounded (List.cons_ne_nil d' digits)
        · rintro ⟨digits, same, value, bounded⟩
          obtain ⟨d', digits, rfl, first, rest⟩ := List.map_eq_cons_iff.mp same.symm
          obtain rfl := Option.some.inj (first.trans digit)
          exact ⟨digits, rest.symm, value, fun _ => bounded (List.cons_ne_nil _ _)⟩
      · next above =>
        refine ⟨nofun, ?_⟩
        rintro ⟨digits, same, value, bounded⟩
        obtain ⟨d', digits, rfl, first, -⟩ := List.map_eq_cons_iff.mp same.symm
        obtain rfl := Option.some.inj (first.trans digit)
        have small := bounded (List.cons_ne_nil _ _)
        have grows := le_valueFrom positive (base * high + d') digits
        rw [← further, value] at grows
        exact absurd (Nat.lt_of_le_of_lt grows small) above

theorem read?_eq_some_iff (positive : 0 < base) {cs : List Char} {n : Nat} :
    read? digit? base limit cs = some n ↔ Numeral digit? base limit cs n := by
  unfold read? Numeral
  cases unsigned cs with
  | nil =>
    refine ⟨nofun, ?_⟩
    rintro ⟨digits, nonempty, none, -⟩
    exact absurd (List.map_eq_nil_iff.mp none.symm) nonempty
  | cons c cs =>
    simp only
    rw [accumulate_eq_some_iff positive]
    constructor
    · rintro ⟨digits, same, value, bounded⟩
      have nonempty : digits ≠ [] := by
        rintro rfl
        cases same
      exact ⟨digits, nonempty, same, value, bounded nonempty⟩
    · rintro ⟨digits, _, same, value, below⟩
      exact ⟨digits, same, value, fun _ => below⟩

theorem decimal?_eq_some_iff {text : String} {n : Nat} :
    decimal? text = some n ↔ Decimal text n := read?_eq_some_iff (by decide)

theorem decimal?_eq_none_iff {text : String} : decimal? text = none ↔ ∀ n, ¬ Decimal text n := by
  simp only [← decimal?_eq_some_iff, Option.eq_none_iff_forall_ne_some, ne_eq]

theorem hexByte?_eq_some_iff {text : String} {index : UInt8} :
    hexByte? text = some index ↔ HexByte text index.toNat := by
  have reads {n : Nat} : read? hexDigit? 16 256 text.toList = some n ↔ HexByte text n :=
    read?_eq_some_iff (by decide)
  rw [hexByte?, Option.map_eq_some_iff]
  constructor
  · rintro ⟨n, read, rfl⟩
    have numeral : HexByte text n := reads.mp read
    rwa [UInt8.toNat_ofNat_of_lt' numeral.lt]
  · intro numeral
    exact ⟨index.toNat, reads.mpr numeral, UInt8.ofNat_toNat⟩

theorem hexByte?_eq_none_iff {text : String} : hexByte? text = none ↔ ∀ n, ¬ HexByte text n := by
  constructor
  · intro none n numeral
    have read : hexByte? text = some (UInt8.ofNat n) := by
      rw [hexByte?_eq_some_iff, UInt8.toNat_ofNat_of_lt' numeral.lt]
      exact numeral
    cases none.symm.trans read
  · intro never
    cases read : hexByte? text with
    | none => rfl
    | some index => exact absurd (hexByte?_eq_some_iff.mp read) (never _)

/-! ## Writing -/

theorem decimalDigit?_of_isDigit {c : Char} (digit : c.isDigit = true) :
    decimalDigit? c = some (c.toNat - 48) := by
  obtain ⟨low, high⟩ := Char.isDigit_iff_toNat.mp digit
  exact if_pos ⟨low, high⟩

theorem valueFrom_map (high : Nat) (cs : List Char) :
    valueFrom 10 high (cs.map fun c => c.toNat - 48) = Nat.ofDigitChars 10 cs high := by
  unfold valueFrom Nat.ofDigitChars
  rw [List.foldl_map]
  rfl

theorem isDigit_of_mem {n : Nat} {c : Char} (mem : c ∈ Nat.toDigits 10 n) : c.isDigit = true :=
  Nat.isDigit_of_mem_toDigits (by decide) (Nat.le_refl 10) mem

/-- Digits begin with no sign. -/
theorem unsigned_toDigits (n : Nat) : unsigned (Nat.toDigits 10 n) = Nat.toDigits 10 n := by
  unfold unsigned
  split
  · next cs signed =>
    have digit : '+'.isDigit = true := by
      refine isDigit_of_mem (n := n) ?_
      rw [signed]
      exact List.mem_cons_self
    cases digit
  · rfl

/-- The digits of a number, as they are printed, are a numeral of it. -/
theorem decimal_toString {n : Nat} (small : n < UInt64.size) : Decimal (toString n) n := by
  have text : (toString n).toList = Nat.toDigits 10 n := Nat.toList_repr
  refine ⟨(Nat.toDigits 10 n).map fun c => c.toNat - 48, ?_, ?_, ?_, small⟩
  · exact fun none => Nat.toDigits_ne_nil (List.map_eq_nil_iff.mp none)
  · rw [text, unsigned_toDigits, List.map_map]
    exact List.map_congr_left fun c mem => decimalDigit?_of_isDigit (isDigit_of_mem mem)
  · rw [valueFrom_map]
    exact Nat.ofDigitChars_toDigits (by decide) (by decide)

/-- The digit of a key is a numeral of it. -/
theorem hexByte_digit (key : Fin 16) : HexByte (String.ofList [Hex.digit key.val]) key.val := by
  have digit : ∀ key : Fin 16, unsigned [Hex.digit key.val] = [Hex.digit key.val] ∧
      hexDigit? (Hex.digit key.val) = some key.val := by decide
  obtain ⟨bare, value⟩ := digit key
  refine ⟨[key.val], List.cons_ne_nil _ _, ?_, ?_, Nat.lt_trans key.isLt (by decide)⟩
  · rw [String.toList_ofList, bare, List.map_singleton, value]
    rfl
  · show 16 * 0 + key.val = key.val
    omega

end Chip8.Number
