import Chip8.Proofs.CommandLine.Grammar
import Chip8.Proofs.Number.Spelling

/-!
# Values of options

Which texts are numbers and keys, for all texts. The limit is one of value: leading zeros do not
count, however many there are.

Results:
1. `readNumber_iff_spells`, `readNumber_refused_iff`: numbers.
2. `readKey_iff_spells`, `readKey_refused_iff`: keys.
3. `spells_zeros_toString`: numbers with zeros before them.
4. `values_read_exactly`: all of it.
-/

namespace Chip8.Setting

open Number

variable {name value : String} {failure : Failure} {n : Nat}

/-! ## Numbers -/

theorem readNumber_iff_spells :
    readNumber name value = .ok n ↔ Spells 10 value.toList n ∧ n < 2 ^ 64 :=
  readNumber_eq_ok_iff.trans decimal_iff

theorem readNumber_refused_iff : readNumber name value = .error failure ↔
    failure = .usage (.badNumber name value) ∧ ∀ n, Spells 10 value.toList n → 2 ^ 64 ≤ n := by
  have large : (∀ n, ¬ Decimal value n) ↔ ∀ n, Spells 10 value.toList n → 2 ^ 64 ≤ n := by
    refine forall_congr' fun n => ?_
    rw [decimal_iff, not_and, Nat.not_lt]
    rfl
  rw [readNumber_eq_error_iff, large]

/-- Digits as they are printed, with zeros before them, spell their number. -/
theorem spells_zeros_toString (n count : Nat) (small : n < 2 ^ 64) :
    Spells 10 (String.ofList (List.replicate count '0') ++ toString n).toList n := by
  have text : (toString n).toList = Nat.toDigits 10 n := Nat.toList_repr
  have spelled : Spells 10 (Nat.toDigits 10 n) n :=
    text ▸ (decimal_iff.mp (decimal_toString small)).1
  rw [String.toList_append, String.toList_ofList, text]
  exact spelled.zeros (by decide) (by decide) (unsigned_toDigits n) count

/-! ## Keys -/

theorem readKey_iff_spells {key : Key} :
    readKey value = .ok key ↔ Spells 16 value.toList key.val := by
  have small : key.val < 256 := Nat.lt_trans key.isLt (by decide)
  rw [readKey_eq_ok_iff, hexByte_iff, and_iff_left small]

theorem readKey_refused_iff : readKey value = .error failure ↔
    (∃ index : UInt8, failure = .fault (.badKeyIndex index) ∧
      Spells 16 value.toList index.toNat ∧ 16 ≤ index.toNat) ∨
    failure = .usage (.badKey value) ∧ ∀ n, Spells 16 value.toList n → 256 ≤ n := by
  have large : (∀ n, ¬ HexByte value n) ↔ ∀ n, Spells 16 value.toList n → 256 ≤ n := by
    refine forall_congr' fun n => ?_
    rw [hexByte_iff, not_and, Nat.not_lt]
  have byte (index : UInt8) : HexByte value index.toNat ↔ Spells 16 value.toList index.toNat := by
    rw [hexByte_iff, and_iff_left index.toNat_lt]
  rw [readKey_eq_error_iff, large, or_comm]
  simp only [byte]

/-! ## All texts -/

/-- A text is read as a number exactly if it spells one below 2^64 in base ten, and then as that
one; any other text is an error of usage. It is read as a key exactly if it spells the key in base
sixteen; a number from 16 to 255 is a fault that names it, and any other text, also one that spells
256 or more, is an error of usage. What a text spells is one number at most, and a number below
2^64 is read from its digits with any number of zeros before them. -/
theorem values_read_exactly (value : String) :
    (∀ name n, readNumber name value = .ok n ↔ Spells 10 value.toList n ∧ n < 2 ^ 64) ∧
    (∀ name failure, readNumber name value = .error failure ↔
      failure = .usage (.badNumber name value) ∧ ∀ n, Spells 10 value.toList n → 2 ^ 64 ≤ n) ∧
    (∀ key : Key, readKey value = .ok key ↔ Spells 16 value.toList key.val) ∧
    (∀ failure, readKey value = .error failure ↔
      (∃ index : UInt8, failure = .fault (.badKeyIndex index) ∧
        Spells 16 value.toList index.toNat ∧ 16 ≤ index.toNat) ∨
      failure = .usage (.badKey value) ∧ ∀ n, Spells 16 value.toList n → 256 ≤ n) ∧
    (∀ base ∈ [10, 16], ∀ n m, Spells base value.toList n → Spells base value.toList m → n = m) ∧
    ∀ name n zeros, n < 2 ^ 64 →
      readNumber name (String.ofList (List.replicate zeros '0') ++ toString n) = .ok n := by
  refine ⟨fun name n => readNumber_iff_spells, fun name failure => readNumber_refused_iff,
    fun key => readKey_iff_spells, fun failure => readKey_refused_iff, ?_, ?_⟩
  · intro base mem n m first second
    have small : base ≤ 16 := (by decide : ∀ base ∈ [10, 16], base ≤ 16) base mem
    exact first.unique small second
  · intro name n zeros small
    exact readNumber_iff_spells.mpr ⟨spells_zeros_toString n zeros small, small⟩

/-- A key in capitals behind a sign and zeros, the greatest number behind zeros, and a number above
the keys. -/
theorem values_read_exactly_padded :
    Spells 16 "+0000F".toList 0xF ∧ readKey "+0000F" = .ok 0xF ∧
      (2 ^ 64 - 1 < 2 ^ 64 ∧ readNumber "--seed" (String.ofList (List.replicate 30 '0') ++
        toString (2 ^ 64 - 1)) = .ok (2 ^ 64 - 1)) ∧
      Spells 16 "0ff".toList 255 ∧ readKey "0ff" = .error (.fault (.badKeyIndex 255)) := by
  have key : Spells 16 "+0000F".toList 0xF :=
    ⟨"0000F".toList, [0, 0, 0, 0, 15], .inr (by decide), by decide, by decide, by decide⟩
  have above : Spells 16 "0ff".toList 255 :=
    ⟨"0ff".toList, [0, 15, 15], .inl rfl, by decide, by decide, by decide⟩
  obtain ⟨-, -, keys, -, -, numbers⟩ := values_read_exactly "+0000F"
  obtain ⟨-, -, -, faults, -, -⟩ := values_read_exactly "0ff"
  exact ⟨key, (keys 0xF).mpr key, ⟨by decide, numbers "--seed" (2 ^ 64 - 1) 30 (by decide)⟩, above,
    (faults _).mpr (.inl ⟨255, rfl, above, by decide⟩)⟩

end Chip8.Setting
