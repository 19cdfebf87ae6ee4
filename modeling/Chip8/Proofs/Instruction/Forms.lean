import Chip8.Instruction.Code
import Chip8.Number

/-!
# The table of instruction forms

Instruction sets are written down as a table of forms such as `8xy4`. This module has that table
and ties it to the code of instructions.

Results:
1. `fits_encode`: the word of an instruction has the form that the table gives it.
2. `exists_decode?_of_fits`: a word of a form in the table is code.
3. `decode?_eq_none_iff`: the words that are no code are exactly those of no form.
-/

namespace Chip8

/-- The four digits of a word. -/
def Word.digits (w : Word) : List Nat := [w.family, w.x, w.y, w.n]

/-- Whether a word has a form: a hexadecimal digit of the form stands for itself, any other
letter for any digit. -/
def Word.Fits (w : Word) (form : String) : Prop :=
  ∀ p ∈ form.toList.zip w.digits, ∀ d ∈ Number.hexDigit? p.1, p.2 = d

namespace Instruction

/-- The thirty-five forms. -/
def forms : List String :=
  ["0000", "00E0", "00EE", "1nnn", "2nnn", "3xnn", "4xnn", "5xy0", "6xnn", "7xnn",
    "8xy0", "8xy1", "8xy2", "8xy3", "8xy4", "8xy5", "8xy6", "8xy7", "8xyE", "9xy0",
    "Annn", "Bnnn", "Cxnn", "Dxyn", "Ex9E", "ExA1",
    "Fx07", "Fx0A", "Fx15", "Fx18", "Fx1E", "Fx29", "Fx33", "Fx55", "Fx65"]

/-- The form of an instruction. -/
def form : Instruction → String
  | noOp => "0000"
  | clearScreen => "00E0"
  | ret => "00EE"
  | jump _ => "1nnn"
  | call _ => "2nnn"
  | skipEqual .. => "3xnn"
  | skipUnequal .. => "4xnn"
  | skipSame .. => "5xy0"
  | setByte .. => "6xnn"
  | addByte .. => "7xnn"
  | arithmetic .copy .. => "8xy0"
  | arithmetic .or .. => "8xy1"
  | arithmetic .and .. => "8xy2"
  | arithmetic .xor .. => "8xy3"
  | arithmetic .add .. => "8xy4"
  | arithmetic .sub .. => "8xy5"
  | arithmetic .shiftRight .. => "8xy6"
  | arithmetic .subFrom .. => "8xy7"
  | arithmetic .shiftLeft .. => "8xyE"
  | skipDifferent .. => "9xy0"
  | setIndex _ => "Annn"
  | jumpOffset _ => "Bnnn"
  | random .. => "Cxnn"
  | draw .. => "Dxyn"
  | skipPressed _ => "Ex9E"
  | skipReleased _ => "ExA1"
  | readDelay _ => "Fx07"
  | awaitKey _ => "Fx0A"
  | setDelay _ => "Fx15"
  | setSound _ => "Fx18"
  | addIndex _ => "Fx1E"
  | pointGlyph _ => "Fx29"
  | storeDecimal _ => "Fx33"
  | storeRegisters _ => "Fx55"
  | loadRegisters _ => "Fx65"

theorem form_mem_forms (i : Instruction) : i.form ∈ forms := by
  cases i with
  | arithmetic op x y => cases op <;> simp [form, forms]
  | _ => simp [form, forms]

theorem digits_wordOf {family nnn : Nat} (hf : family < 16) (hn : nnn < 4096) :
    (wordOf family nnn).digits = [family, nnn / 256, nnn / 16 % 16, nnn % 16] := by
  simp only [Word.digits, Word.family, Word.x, Word.y, Word.n, toNat_wordOf hf hn,
    List.cons.injEq, and_true]
  omega

theorem fits_encode (i : Instruction) : i.encode.Fits i.form := by
  cases i with
  | noOp | clearScreen | ret =>
    rw [encode, Word.Fits, digits_wordOf (by decide) (by decide)]
    simp [form, Number.hexDigit?]
  | jump t | call t | setIndex t | jumpOffset t =>
    rw [encode, Word.Fits, digits_wordOf (by decide) t.isLt]
    simp [form, Number.hexDigit?]
  | skipEqual x v | skipUnequal x v | setByte x v | addByte x v | random x v =>
    have hv := v.toNat_lt
    rw [encode, Word.Fits, digits_wordOf (by decide) (by omega)]
    simp [form, Number.hexDigit?]
  | skipSame x y | skipDifferent x y =>
    rw [encode, Word.Fits, digits_wordOf (by decide) (by omega)]
    simp [form, Number.hexDigit?]
    omega
  | arithmetic op x y =>
    have hc := code_lt op
    rw [encode, Word.Fits, digits_wordOf (by decide) (by omega)]
    cases op <;> simp [form, Number.hexDigit?, Arithmetic.code] <;> omega
  | draw x y rows =>
    rw [encode, Word.Fits, digits_wordOf (by decide) (by omega)]
    simp [form, Number.hexDigit?]
  | skipPressed x | skipReleased x | readDelay x | awaitKey x | setDelay x | setSound x
  | addIndex x | pointGlyph x | storeDecimal x | storeRegisters x | loadRegisters x =>
    rw [encode, Word.Fits, digits_wordOf (by decide) (by omega)]
    simp [form, Number.hexDigit?]
    omega

/-- The low byte of a word is its last two digits. -/
theorem nn_eq_digits (w : Word) : w.nn.toNat = 16 * w.y + w.n := by
  simp only [Word.nn, Word.y, Word.n, UInt8.toNat_ofNat']
  omega

theorem exists_decode?_of_fits {w : Word} {f : String} (listed : f ∈ forms) (fits : w.Fits f) :
    ∃ i, decode? w = some i ∧ i.form = f := by
  have nnn := nnn_eq_digitOperands w
  have nn := nn_eq_digits w
  simp only [forms, List.mem_cons, List.not_mem_nil, or_false] at listed
  -- each form fixes the digits that decoding looks at
  rcases listed with rfl | rfl | rfl | rfl | rfl | rfl | rfl | rfl | rfl | rfl | rfl | rfl | rfl |
    rfl | rfl | rfl | rfl | rfl | rfl | rfl | rfl | rfl | rfl | rfl | rfl | rfl | rfl | rfl | rfl |
    rfl | rfl | rfl | rfl | rfl | rfl <;>
  simp [Word.Fits, Word.digits, Number.hexDigit?] at fits <;>
  simp [decode?, fits, nnn, nn, ofSystem?, ofKeySkip?, ofMiscellany?, Arithmetic.ofCode?, form]

/-- A word is no code exactly if it has none of the forms. -/
theorem decode?_eq_none_iff {w : Word} : decode? w = none ↔ ∀ f ∈ forms, ¬ w.Fits f := by
  constructor
  · intro h f listed fits
    obtain ⟨i, code, -⟩ := exists_decode?_of_fits listed fits
    rw [h] at code
    cases code
  · intro h
    cases code : decode? w with
    | none => rfl
    | some i =>
      have fits : w.Fits i.form := by
        rw [← encode_of_decode? code]
        exact fits_encode i
      exact absurd fits (h i.form (form_mem_forms i))

end Instruction

end Chip8
